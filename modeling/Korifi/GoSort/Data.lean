import Mathlib

/-!
# The slice that Go's sort package sorts

`sort.Slice` reaches the slice it sorts only through `Less(i, j)` and `Swap(i, j)` on positions.
Here the slice is `Data`, its elements by position, and `Swap` is `swap`. Every routine of the sort
is a sequence of swaps inside the range it was called on, so what it does to the slice is a
`SegPerm`: a rearrangement of that range which leaves every other position alone. What the sort
achieves is `SortedIn`, and what it needs of the comparator to achieve it is `Comparator`.
-/

namespace Korifi.GoSort

variable {α : Type}

/-- The elements of the slice being sorted, by position. Positions past its end are never read. -/
structure Data (α : Type) where
  get : ℕ → α

instance : CoeFun (Data α) (fun _ => ℕ → α) := ⟨Data.get⟩

/-- `data.Swap(i, j)`. -/
def swap (d : Data α) (i j : ℕ) : Data α := ⟨d.get ∘ Equiv.swap i j⟩

@[simp] theorem swap_apply_left (d : Data α) (i j : ℕ) : swap d i j i = d j := by
  simp [swap]

@[simp] theorem swap_apply_right (d : Data α) (i j : ℕ) : swap d i j j = d i := by
  simp [swap]

theorem swap_apply_of_ne (d : Data α) {i j k : ℕ} (hi : k ≠ i) (hj : k ≠ j) :
    swap d i j k = d k := by
  simp [swap, Equiv.swap_apply_of_ne_of_ne hi hj]

/-- `if data.Less(i, j) { data.Swap(i, j) }`. -/
def swapIfLess (less : α → α → Bool) (d : Data α) (i j : ℕ) : Data α :=
  if less (d i) (d j) then swap d i j else d

theorem swapIfLess_apply_of_ne (less : α → α → Bool) (d : Data α) {i j k : ℕ} (hi : k ≠ i)
    (hj : k ≠ j) : swapIfLess less d i j k = d k := by
  unfold swapIfLess
  split
  · exact swap_apply_of_ne d hi hj
  · rfl

theorem swapIfLess_apply_left (less : α → α → Bool) (d : Data α) (i j : ℕ) :
    swapIfLess less d i j i = d i ∨ swapIfLess less d i j i = d j := by
  unfold swapIfLess
  split <;> simp

/-! ### Rearranging a range -/

/-- `d'` rearranges the elements of `d` in `[a, b)` and agrees with `d` elsewhere. -/
def SegPerm (a b : ℕ) (d d' : Data α) : Prop :=
  ∃ σ : Equiv.Perm ℕ, (∀ k, k < a ∨ b ≤ k → σ k = k) ∧ ∀ k, d' k = d (σ k)

namespace SegPerm

variable {a b : ℕ} {d d' d'' : Data α}

theorem refl (a b : ℕ) (d : Data α) : SegPerm a b d d :=
  ⟨1, fun _ _ => rfl, fun _ => rfl⟩

theorem trans (h : SegPerm a b d d') (h' : SegPerm a b d' d'') : SegPerm a b d d'' := by
  obtain ⟨σ, hσ, hd⟩ := h
  obtain ⟨τ, hτ, hd'⟩ := h'
  refine ⟨τ.trans σ, fun k hk => ?_, fun k => ?_⟩
  · simp [hτ k hk, hσ k hk]
  · simp [hd', hd]

theorem of_swap {i j : ℕ} (hi : a ≤ i ∧ i < b) (hj : a ≤ j ∧ j < b) :
    SegPerm a b d (swap d i j) :=
  ⟨Equiv.swap i j, fun k hk => Equiv.swap_apply_of_ne_of_ne (by omega) (by omega), fun _ => rfl⟩

theorem swap_right {i j : ℕ} (h : SegPerm a b d d') (hi : a ≤ i ∧ i < b) (hj : a ≤ j ∧ j < b) :
    SegPerm a b d (swap d' i j) :=
  h.trans (of_swap hi hj)

theorem of_swapIfLess (less : α → α → Bool) {i j : ℕ} (hi : a ≤ i ∧ i < b) (hj : a ≤ j ∧ j < b) :
    SegPerm a b d (swapIfLess less d i j) := by
  unfold swapIfLess
  split
  · exact of_swap hi hj
  · exact refl a b d

theorem mono {a' b' : ℕ} (h : SegPerm a b d d') (ha : a' ≤ a) (hb : b ≤ b') :
    SegPerm a' b' d d' := by
  obtain ⟨σ, hσ, hd⟩ := h
  exact ⟨σ, fun k hk => hσ k (by omega), hd⟩

theorem apply_eq (h : SegPerm a b d d') {k : ℕ} (hk : k < a ∨ b ≤ k) : d' k = d k := by
  obtain ⟨σ, hσ, hd⟩ := h
  rw [hd, hσ k hk]

private theorem perm_mem {σ : Equiv.Perm ℕ} (hσ : ∀ k, k < a ∨ b ≤ k → σ k = k) {k : ℕ}
    (hk : a ≤ k ∧ k < b) : a ≤ σ k ∧ σ k < b := by
  by_contra hout
  have hfix := hσ (σ k) (by omega)
  have := σ.injective hfix
  omega

theorem exists_apply (h : SegPerm a b d d') {k : ℕ} (hk : a ≤ k ∧ k < b) :
    ∃ l, (a ≤ l ∧ l < b) ∧ d' k = d l := by
  obtain ⟨σ, hσ, hd⟩ := h
  exact ⟨σ k, perm_mem hσ hk, hd k⟩

theorem symm (h : SegPerm a b d d') : SegPerm a b d' d := by
  obtain ⟨σ, hσ, hd⟩ := h
  refine ⟨σ.symm, fun k hk => ?_, fun k => ?_⟩
  · conv_lhs => rw [← hσ k hk]
    simp
  · simp [hd]

theorem perm_map_range {n : ℕ} (h : SegPerm 0 n d d') :
    List.Perm ((List.range n).map d') ((List.range n).map d) := by
  obtain ⟨σ, hσ, hd⟩ := h
  have hrange : List.Perm ((List.range n).map σ) (List.range n) := by
    refine (List.perm_ext_iff_of_nodup ((List.nodup_range n).map σ.injective)
      (List.nodup_range n)).2 fun k => ?_
    simp only [List.mem_map, List.mem_range]
    constructor
    · rintro ⟨l, hl, rfl⟩
      exact (perm_mem hσ ⟨Nat.zero_le l, hl⟩).2
    · intro hk
      refine ⟨σ.symm k, ?_, by simp⟩
      have := perm_mem (σ := σ.symm) (a := 0) (b := n) (fun l hl => by
        conv_lhs => rw [← hσ l hl]
        simp) ⟨Nat.zero_le k, hk⟩
      exact this.2
  have hmap : (List.range n).map d' = ((List.range n).map σ).map d := by
    simp [List.map_map, Function.comp_def, hd]
  rw [hmap]
  exact hrange.map d

end SegPerm

/-! ### Ranges in order -/

/-- Every element of `[a, b)` satisfies `P`. -/
def AllIn (P : α → Prop) (d : Data α) (a b : ℕ) : Prop :=
  ∀ k, a ≤ k → k < b → P (d k)

/-- `[a, b)` is in the order `le`. -/
def SortedIn (le : α → α → Prop) (d : Data α) (a b : ℕ) : Prop :=
  ∀ i j, a ≤ i → i < j → j < b → le (d i) (d j)

/-- What the sort needs of `less` to put a slice in the total preorder `le`: `less x y` holds only
where `le x y` does, and where it fails `le y x` holds. A strict order such as `Before` is a
comparator for its reflexive closure, and its negation `!Before` is one for the converse. -/
structure Comparator (less : α → α → Bool) (le : α → α → Prop) : Prop where
  total : ∀ x y, le x y ∨ le y x
  trans : ∀ {x y z}, le x y → le y z → le x z
  le_of_less : ∀ {x y}, less x y = true → le x y
  le_of_not_less : ∀ {x y}, less x y = false → le y x

namespace Comparator

variable {less : α → α → Bool} {le : α → α → Prop}

theorem refl (hc : Comparator less le) (x : α) : le x x := (hc.total x x).elim id id

theorem swapIfLess_le (hc : Comparator less le) (d : Data α) (i j : ℕ) :
    le (swapIfLess less d i j j) (swapIfLess less d i j i) := by
  unfold swapIfLess
  split
  · rename_i hless
    simpa using hc.le_of_less hless
  · rename_i hless
    exact hc.le_of_not_less (by simpa using hless)

end Comparator

namespace AllIn

variable {P : α → Prop} {a b : ℕ} {d d' : Data α}

theorem mono {a' b' : ℕ} (h : AllIn P d a b) (ha : a ≤ a') (hb : b' ≤ b) : AllIn P d a' b' :=
  fun k hk hk' => h k (by omega) (by omega)

theorem of_segPerm (h : AllIn P d a b) (hp : SegPerm a b d d') : AllIn P d' a b := by
  intro k hk hk'
  obtain ⟨l, hl, hl'⟩ := hp.exists_apply ⟨hk, hk'⟩
  rw [hl']
  exact h l hl.1 hl.2

theorem of_segPerm_disjoint {c e : ℕ} (h : AllIn P d a b) (hp : SegPerm c e d d')
    (hdisj : b ≤ c ∨ e ≤ a) : AllIn P d' a b := by
  intro k hk hk'
  rw [hp.apply_eq (by omega)]
  exact h k hk hk'

end AllIn

namespace SortedIn

variable {le : α → α → Prop} {a b : ℕ} {d d' : Data α}

theorem of_le (h : b ≤ a + 1) : SortedIn le d a b := fun _ _ _ _ _ => by omega

theorem mono {a' b' : ℕ} (h : SortedIn le d a b) (ha : a ≤ a') (hb : b' ≤ b) :
    SortedIn le d a' b' :=
  fun i j hi hij hj => h i j (by omega) hij (by omega)

theorem of_segPerm_disjoint {c e : ℕ} (h : SortedIn le d a b) (hp : SegPerm c e d d')
    (hdisj : b ≤ c ∨ e ≤ a) : SortedIn le d' a b := by
  intro i j hi hij hj
  rw [hp.apply_eq (by omega), hp.apply_eq (by omega)]
  exact h i j hi hij hj

theorem of_succ (htrans : ∀ {x y z}, le x y → le y z → le x z)
    (h : ∀ k, a ≤ k → k + 1 < b → le (d k) (d (k + 1))) : SortedIn le d a b := by
  intro i j hi hij hj
  induction j, hij using Nat.le_induction with
  | base => exact h i hi hj
  | succ j hij ih => exact htrans (ih (by omega)) (h j (by omega) hj)

/-- Three consecutive ranges, the first below a pivot value, the second level with it and the
third above it, make an ordered range when the outer two are ordered. -/
theorem of_partition {less : α → α → Bool} (hc : Comparator less le) {m m' : ℕ} {p : α}
    (hl : SortedIn le d a m) (hr : SortedIn le d m' b) (hlp : AllIn (le · p) d a m)
    (hmid : AllIn (fun x => le x p ∧ le p x) d m m') (hrp : AllIn (le p ·) d m' b) :
    SortedIn le d a b := by
  intro i j hi hij hj
  have below : i < m' → le (d i) p := fun hi' =>
    if him : i < m then hlp i hi him else (hmid i (by omega) hi').1
  have above : m ≤ j → le p (d j) := fun hj' =>
    if hjm : j < m' then (hmid j hj' hjm).2 else hrp j (by omega) hj
  by_cases hjm : j < m
  · exact hl i j hi hij hjm
  by_cases him : m' ≤ i
  · exact hr i j him hij hj
  · exact hc.trans (below (by omega)) (above (by omega))

end SortedIn

end Korifi.GoSort
