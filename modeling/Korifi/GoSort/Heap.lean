import Korifi.GoSort.Data

/-!
# Heap sort

`quickSort` falls back on `heapSort` when its depth budget runs out. The heap is laid out from
`first`, the children of position `p` at `2p + 1` and `2p + 2`. `siftDown` moves the element at its
root down past the larger child until the heap is in order again (`SiftOrder` is what holds at
every turn), `heapSort` builds the heap from the last parent up and then pops its largest element to
the end of the range one at a time (`Popped`).
-/

namespace Korifi.GoSort

variable {α : Type} (less : α → α → Bool)

/-- The child of `root` that `siftDown` compares it with,
`child := 2*root + 1; if child+1 < hi && data.Less(first+child, first+child+1) { child++ }`. -/
def siftDownChild (d : Data α) (hi first root : ℕ) : ℕ :=
  if 2 * root + 2 < hi ∧ less (d (first + (2 * root + 1))) (d (first + (2 * root + 2))) = true then
    2 * root + 2
  else 2 * root + 1

/-- `siftDown(data, lo, hi, first)`, at `root` with at most `fuel` turns left. Every turn moves
`root` to a child, so `hi - root` turns are always enough. -/
def siftDown (hi first : ℕ) : ℕ → Data α → ℕ → Data α
  | 0, d, _ => d
  | fuel + 1, d, root =>
    if hi ≤ 2 * root + 1 then d
    else
      let child := siftDownChild less d hi first root
      if less (d (first + root)) (d (first + child)) then
        siftDown hi first fuel (swap d (first + root) (first + child)) child
      else d

/-- The first loop of `heapSort`, `for i := (hi - 1) / 2; i >= 0; i-- { siftDown(data, i, hi, first) }`,
with `i + 1` turns left. -/
def heapSortBuild (hi first : ℕ) : ℕ → Data α → Data α
  | 0, d => d
  | i + 1, d => heapSortBuild hi first i (siftDown less hi first (hi - i) d i)

/-- The second loop of `heapSort`,
`for i := hi - 1; i >= 0; i-- { data.Swap(first, first+i); siftDown(data, lo, i, first) }`, with
`i + 1` turns left. -/
def heapSortPop (first : ℕ) : ℕ → Data α → Data α
  | 0, d => d
  | i + 1, d => heapSortPop first i (siftDown less i first i (swap d first (first + i)) 0)

/-- `heapSort(data, a, b)`. -/
def heapSort (d : Data α) (a b : ℕ) : Data α :=
  heapSortPop less a (b - a) (heapSortBuild less (b - a) a ((b - a - 1) / 2 + 1) d)

/-! ### Every element stays in the heap -/

/-- `c` is a child of `p`. -/
def IsChild (p c : ℕ) : Prop := c = 2 * p + 1 ∨ c = 2 * p + 2

theorem siftDownChild_isChild (d : Data α) (hi first root : ℕ) :
    IsChild root (siftDownChild less d hi first root) := by
  unfold siftDownChild IsChild
  split <;> omega

theorem siftDownChild_lt (d : Data α) (hi first root : ℕ) (h : 2 * root + 1 < hi) :
    siftDownChild less d hi first root < hi := by
  unfold siftDownChild
  split <;> omega

theorem siftDown_segPerm (hi first fuel : ℕ) (d : Data α) {lo root : ℕ} (hroot : lo ≤ root) :
    SegPerm (first + lo) (first + hi) d (siftDown less hi first fuel d root) := by
  induction fuel generalizing d root with
  | zero => exact SegPerm.refl _ _ d
  | succ fuel ih =>
    simp only [siftDown]
    split
    · exact SegPerm.refl _ _ d
    · rename_i hleaf
      have hchild := siftDownChild_isChild less d hi first root
      have hlt := siftDownChild_lt less d hi first root (by omega)
      unfold IsChild at hchild
      split
      · exact (SegPerm.of_swap (by omega) (by omega)).trans (ih _ (by omega))
      · exact SegPerm.refl _ _ d

theorem heapSortBuild_segPerm (hi first k : ℕ) (d : Data α) :
    SegPerm first (first + hi) d (heapSortBuild less hi first k d) := by
  induction k generalizing d with
  | zero => exact SegPerm.refl _ _ d
  | succ k ih =>
    have hsift := siftDown_segPerm less hi first (hi - k) d (Nat.zero_le k)
    exact hsift.trans (ih _)

theorem heapSortPop_segPerm (first k : ℕ) (d : Data α) :
    SegPerm first (first + k) d (heapSortPop less first k d) := by
  induction k generalizing d with
  | zero => exact SegPerm.refl _ _ d
  | succ k ih =>
    have hswap : SegPerm first (first + (k + 1)) d (swap d first (first + k)) :=
      SegPerm.of_swap (by omega) (by omega)
    have hsift : SegPerm first (first + (k + 1)) (swap d first (first + k))
        (siftDown less k first k (swap d first (first + k)) 0) :=
      (siftDown_segPerm less k first k _ (Nat.le_refl 0)).mono (by omega) (by omega)
    exact hswap.trans (hsift.trans ((ih _).mono le_rfl (by omega)))

theorem heapSort_segPerm (d : Data α) {a b : ℕ} (hab : a ≤ b) :
    SegPerm a b d (heapSort less d a b) := by
  have hbuild := heapSortBuild_segPerm less (b - a) a ((b - a - 1) / 2 + 1) d
  have hpop := heapSortPop_segPerm less a (b - a)
    (heapSortBuild less (b - a) a ((b - a - 1) / 2 + 1) d)
  rw [show a + (b - a) = b by omega] at hbuild hpop
  exact hbuild.trans hpop

/-! ### The heap order -/

variable {less} {le : α → α → Prop}

/-- The heap from `first` is in order at every parent from `lo` on, among its first `hi` places. -/
def HeapFrom (le : α → α → Prop) (d : Data α) (first lo hi : ℕ) : Prop :=
  ∀ p c, lo ≤ p → c < hi → IsChild p c → le (d (first + c)) (d (first + p))

/-- What holds while `siftDown`, started at `lo`, is at `root`: the heap is in order at every
parent but `root`, and the children of `root` are in order below the parent it was reached from. -/
structure SiftOrder (le : α → α → Prop) (d : Data α) (first lo hi root : ℕ) : Prop where
  lo_le : lo ≤ root
  except : ∀ p c, lo ≤ p → p ≠ root → c < hi → IsChild p c → le (d (first + c)) (d (first + p))
  grand : ∀ q, lo ≤ q → IsChild q root → ∀ c, c < hi → IsChild root c →
    le (d (first + c)) (d (first + q))

theorem SiftOrder.start {d : Data α} {first lo hi : ℕ} (h : HeapFrom le d first (lo + 1) hi) :
    SiftOrder le d first lo hi lo where
  lo_le := le_rfl
  except p c hp hne hc hpc := h p c (by omega) hc hpc
  grand q hq hqr := by unfold IsChild at hqr; omega

theorem SiftOrder.finish {d : Data α} {first lo hi root : ℕ} (h : SiftOrder le d first lo hi root)
    (hroot : ∀ c, c < hi → IsChild root c → le (d (first + c)) (d (first + root))) :
    HeapFrom le d first lo hi := by
  intro p c hp hc hpc
  by_cases hpr : p = root
  · subst hpr; exact hroot c hc hpc
  · exact h.except p c hp hpr hc hpc

theorem SiftOrder.move {d : Data α} {first lo hi root child : ℕ}
    (h : SiftOrder le d first lo hi root) (hchild : IsChild root child) (hlt : child < hi)
    (hmax : ∀ c, c < hi → IsChild root c → le (d (first + c)) (d (first + child)))
    (hle : le (d (first + root)) (d (first + child))) :
    SiftOrder le (swap d (first + root) (first + child)) first lo hi child := by
  have hrc : root < child := by unfold IsChild at hchild; omega
  constructor
  · exact h.lo_le.trans hrc.le
  · intro p c hp hpne hc' hpc
    have hpcl : p < c := by unfold IsChild at hpc; omega
    by_cases hcr : c = root
    · -- the edge into the old root: its new element came up from `child`
      subst hcr
      rw [swap_apply_left, swap_apply_of_ne _ (by omega) (by omega)]
      exact h.grand p hp hpc child hlt hchild
    by_cases hpr : p = root
    · subst hpr
      rw [swap_apply_left]
      by_cases hcc : c = child
      · subst hcc; rw [swap_apply_right]; exact hle
      · rw [swap_apply_of_ne _ (by omega) (by omega)]
        exact hmax c hc' hpc
    · have hcc : c ≠ child := by
        intro hcc; subst hcc; unfold IsChild at hpc hchild; omega
      rw [swap_apply_of_ne _ (by omega) (by omega), swap_apply_of_ne _ (by omega) (by omega)]
      exact h.except p c hp hpr hc' hpc
  · intro q hq hqc c hc' hcc
    have hqr : q = root := by unfold IsChild at hqc hchild; omega
    subst hqr
    have hcl : child < c := by unfold IsChild at hcc; omega
    rw [swap_apply_of_ne _ (by omega) (by omega), swap_apply_left]
    exact h.except child c (h.lo_le.trans hrc.le) (by omega) hc' hcc

theorem siftDownChild_max (hc : Comparator less le) (d : Data α) (hi first root : ℕ) :
    ∀ c, c < hi → IsChild root c →
      le (d (first + c)) (d (first + siftDownChild less d hi first root)) := by
  intro c hc' hrc
  unfold siftDownChild
  split
  · rename_i hcond
    rcases hrc with rfl | rfl
    · exact hc.le_of_less hcond.2
    · exact hc.refl _
  · rename_i hcond
    rcases hrc with rfl | rfl
    · exact hc.refl _
    · exact hc.le_of_not_less (by simpa [hc'] using hcond)

theorem siftDown_heap (hc : Comparator less le) (hi first fuel : ℕ) (d : Data α) {lo root : ℕ}
    (h : SiftOrder le d first lo hi root) (hfuel : hi ≤ root + fuel) :
    HeapFrom le (siftDown less hi first fuel d root) first lo hi := by
  induction fuel generalizing d root with
  | zero => exact h.finish fun c hc hrc => by unfold IsChild at hrc; omega
  | succ fuel ih =>
    simp only [siftDown]
    split
    · exact h.finish fun c hc hrc => by unfold IsChild at hrc; omega
    · rename_i hleaf
      have hchild := siftDownChild_isChild less d hi first root
      have hlt := siftDownChild_lt less d hi first root (by omega)
      have hmax := siftDownChild_max hc d hi first root
      split
      · rename_i hless
        exact ih _ (h.move hchild hlt hmax (hc.le_of_less hless))
          (by unfold IsChild at hchild; omega)
      · rename_i hless
        exact h.finish fun c hc' hrc =>
          hc.trans (hmax c hc' hrc) (hc.le_of_not_less (by simpa using hless))

theorem heapSortBuild_heap (hc : Comparator less le) (hi first k : ℕ) (d : Data α)
    (h : HeapFrom le d first k hi) : HeapFrom le (heapSortBuild less hi first k d) first 0 hi := by
  induction k generalizing d with
  | zero => exact h
  | succ k ih => exact ih _ (siftDown_heap hc hi first (hi - k) d (SiftOrder.start h) (by omega))

theorem HeapFrom.le_root (hc : Comparator less le) {d : Data α} {first n : ℕ}
    (h : HeapFrom le d first 0 n) {x : ℕ} (hx : x < n) : le (d (first + x)) (d first) := by
  induction x using Nat.strong_induction_on with
  | _ x ih =>
    rcases Nat.eq_zero_or_pos x with rfl | hpos
    · exact hc.refl _
    · have hchild : IsChild ((x - 1) / 2) x := by unfold IsChild; omega
      exact hc.trans (h _ x (Nat.zero_le _) hx hchild) (ih _ (by omega) (by omega))

/-- After the pops down to `i`: a heap on the first `i` places, in order below the rest. -/
structure Popped (le : α → α → Prop) (d : Data α) (first i hi : ℕ) : Prop where
  heap : HeapFrom le d first 0 i
  sorted : SortedIn le d (first + i) (first + hi)
  below : ∀ x y, x < i → i ≤ y → y < hi → le (d (first + x)) (d (first + y))

theorem Popped.pop (hc : Comparator less le) {d : Data α} {first i hi : ℕ}
    (h : Popped le d first (i + 1) hi) :
    Popped le (siftDown less i first i (swap d first (first + i)) 0) first i hi := by
  set d₁ := swap d first (first + i) with hd₁
  have hperm : SegPerm (first + 0) (first + i) d₁ (siftDown less i first i d₁ 0) :=
    siftDown_segPerm less i first i d₁ le_rfl
  have hrest : ∀ y, i ≤ y → siftDown less i first i d₁ 0 (first + y) = d₁ (first + y) :=
    fun y hy => hperm.apply_eq (by omega)
  have hmax : ∀ x, x < i + 1 → le (d (first + x)) (d first) :=
    fun x hx => h.heap.le_root hc hx
  refine ⟨siftDown_heap hc i first i d₁ ⟨le_rfl, ?_, ?_⟩ (by omega), ?_, ?_⟩
  · intro p c _ hp hc' hpc
    have hpc' : p < c := by unfold IsChild at hpc; omega
    rw [hd₁, swap_apply_of_ne _ (by omega) (by omega), swap_apply_of_ne _ (by omega) (by omega)]
    exact h.heap p c (Nat.zero_le _) (by omega) hpc
  · intro q _ hq0
    unfold IsChild at hq0; omega
  · intro x y hx hxy hy
    have hx' : first ≤ x := by omega
    obtain ⟨x', rfl⟩ := Nat.exists_eq_add_of_le hx'
    obtain ⟨y', rfl⟩ := Nat.exists_eq_add_of_le (hx'.trans hxy.le)
    rw [hrest x' (by omega), hrest y' (by omega), hd₁]
    rcases Nat.eq_or_lt_of_le (show i ≤ x' by omega) with rfl | hx''
    · rw [swap_apply_right, swap_apply_of_ne _ (by omega) (by omega)]
      exact h.below 0 y' (by omega) (by omega) (by omega)
    · rw [swap_apply_of_ne _ (by omega) (by omega), swap_apply_of_ne _ (by omega) (by omega)]
      exact h.sorted _ _ (by omega) hxy (by omega)
  · intro x y hx hiy hy
    rw [hrest y hiy]
    obtain ⟨l, hl, hxl⟩ := hperm.exists_apply (k := first + x) ⟨by omega, by omega⟩
    obtain ⟨l', rfl⟩ := Nat.exists_eq_add_of_le hl.1
    rw [hxl]
    -- the element now at `x` was in the heap before the pop, at `i` if it is the swapped one
    obtain ⟨l'', hl'', hval⟩ : ∃ l'', l'' < i + 1 ∧ d₁ (first + 0 + l') = d (first + l'') := by
      rcases Nat.eq_zero_or_pos l' with rfl | hpos
      · exact ⟨i, by omega, by simp [hd₁]⟩
      · exact ⟨l', by omega, by
          rw [hd₁, show first + 0 + l' = first + l' by omega,
            swap_apply_of_ne _ (by omega) (by omega)]⟩
    rw [hval]
    rcases Nat.eq_or_lt_of_le hiy with rfl | hiy'
    · rw [hd₁, swap_apply_right]
      exact hmax l'' hl''
    · rw [hd₁, swap_apply_of_ne _ (by omega) (by omega)]
      exact h.below l'' y hl'' (by omega) hy

theorem heapSortPop_sorted (hc : Comparator less le) (first k : ℕ) (d : Data α) {hi : ℕ}
    (h : Popped le d first k hi) : SortedIn le (heapSortPop less first k d) first (first + hi) := by
  induction k generalizing d with
  | zero => simpa using h.sorted
  | succ k ih => exact ih _ (h.pop hc)

theorem heapSort_sorted (hc : Comparator less le) (d : Data α) {a b : ℕ} (hab : a ≤ b) :
    SortedIn le (heapSort less d a b) a b := by
  have hbuild := heapSortBuild_heap hc (b - a) a ((b - a - 1) / 2 + 1) d
    (fun p c hp hc' hpc => by unfold IsChild at hpc; omega)
  have h := heapSortPop_sorted hc a (b - a) _
    (⟨hbuild, SortedIn.of_le (by omega), fun x y hx hy hy' => by omega⟩ :
      Popped le (heapSortBuild less (b - a) a ((b - a - 1) / 2 + 1) d) a (b - a) (b - a))
  rwa [show a + (b - a) = b by omega] at h

end Korifi.GoSort
