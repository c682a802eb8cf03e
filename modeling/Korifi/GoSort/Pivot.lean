import Korifi.GoSort.Data

/-!
# Choosing a pivot and partitioning around it

`doPivot` puts the median of three (of nine on long ranges) at `lo` as the pivot, then partitions
the rest in one loop: a scan from the left over elements not above the pivot, one from the right
over elements above it, and a swap where both stop (`Parted`). When the right part came out short it
looks for elements level with the pivot and, if it finds some, collects every such element in the
middle (`Parted3`). The pivot goes to the end of the left part, and `quickSort` recurses on what is
strictly left and strictly right of the middle (`Pivoted`).

The scans are loops that only move an index; `scanUp` and `scanDown` are all five of them, each
with its own test.
-/

namespace Korifi.GoSort

variable {α : Type} (less : α → α → Bool)

/-- `medianOfThree(data, m1, m0, m2)`: moves the median of the three into `m1`. -/
def medianOfThree (d : Data α) (m1 m0 m2 : ℕ) : Data α :=
  let d := swapIfLess less d m1 m0
  if less (d m2) (d m1) then swapIfLess less (swap d m2 m1) m1 m0 else d

/-- A scan loop `for ; i < bound && P(data[i]); i++ {}`, with `k = bound - i` turns left. -/
def scanUp (P : α → Bool) (d : Data α) : ℕ → ℕ → ℕ
  | 0, i => i
  | k + 1, i => if P (d i) then scanUp P d k (i + 1) else i

/-- A scan loop `for ; bound < j && P(data[j-1]); j-- {}`, with `k = j - bound` turns left. -/
def scanDown (P : α → Bool) (d : Data α) : ℕ → ℕ → ℕ
  | 0, j => j
  | k + 1, j => if P (d (j - 1)) then scanDown P d k (j - 1) else j

/-- The partitioning loop of `doPivot`, at most `fuel` turns:
`for { for ; b < c && !data.Less(pivot, b); b++ {}; for ; b < c && data.Less(pivot, c-1); c-- {};`
`if b >= c { break }; data.Swap(b, c-1); b++; c-- }`. -/
def doPivotPartition (pivot : ℕ) : ℕ → Data α → ℕ → ℕ → Data α × ℕ × ℕ
  | 0, d, b, c => (d, b, c)
  | fuel + 1, d, b, c =>
    let b := scanUp (fun x => !less (d pivot) x) d (c - b) b
    let c := scanDown (fun x => less (d pivot) x) d (c - b) c
    if c ≤ b then (d, b, c)
    else doPivotPartition pivot fuel (swap d b (c - 1)) (b + 1) (c - 1)

/-- The last check of the search for elements level with the pivot in `doPivot`,
`if !data.Less(m, pivot) { data.Swap(m, b-1); b--; dups++ }`, then `protect = dups > 1`. -/
def doPivotDupsM (lo hi : ℕ) (d : Data α) (b c dups : ℕ) : Data α × ℕ × ℕ × Bool :=
  let m := (lo + hi) / 2
  if less (d m) (d lo) then (d, b, c, 1 < dups)
  else (swap d m (b - 1), b - 1, c, 1 < dups + 1)

/-- The middle check of the search, `if !data.Less(b-1, pivot) { b--; dups++ }`. -/
def doPivotDupsB (lo hi : ℕ) (d : Data α) (b c dups : ℕ) : Data α × ℕ × ℕ × Bool :=
  if less (d (b - 1)) (d lo) then doPivotDupsM less lo hi d b c dups
  else doPivotDupsM less lo hi d (b - 1) c (dups + 1)

/-- What follows the partitioning loop in `doPivot`: `protect := hi-c < 5`, and when the right part
is short without being very short, the search for elements level with the pivot, which starts
`dups := 0; if !data.Less(pivot, hi-1) { data.Swap(c, hi-1); c++; dups++ }`. The pivot is at `lo`. -/
def doPivotDups (lo hi : ℕ) (d : Data α) (b c : ℕ) : Data α × ℕ × ℕ × Bool :=
  if ¬hi - c < 5 ∧ hi - c < (hi - lo) / 4 then
    if less (d lo) (d (hi - 1)) then doPivotDupsB less lo hi d b c 0
    else doPivotDupsB less lo hi (swap d c (hi - 1)) b (c + 1) 1
  else (d, b, c, hi - c < 5)

/-- The loop of `doPivot` that collects the elements level with the pivot, at most `fuel` turns:
`for { for ; a < b && !data.Less(b-1, pivot); b-- {}; for ; a < b && data.Less(a, pivot); a++ {};`
`if a >= b { break }; data.Swap(a, b-1); a++; b-- }`. -/
def doPivotProtect (pivot : ℕ) : ℕ → Data α → ℕ → ℕ → Data α × ℕ × ℕ
  | 0, d, a, b => (d, a, b)
  | fuel + 1, d, a, b =>
    let b := scanDown (fun x => !less x (d pivot)) d (b - a) b
    let a := scanUp (fun x => less x (d pivot)) d (b - a) a
    if b ≤ a then (d, a, b)
    else doPivotProtect pivot fuel (swap d a (b - 1)) (a + 1) (b - 1)

/-- The median of three, or of three medians of three on a range longer than 40, moved to `lo`. -/
def doPivotMedian (d : Data α) (lo hi : ℕ) : Data α :=
  let m := (lo + hi) / 2
  let d :=
    if 40 < hi - lo then
      let s := (hi - lo) / 8
      let d := medianOfThree less d lo (lo + s) (lo + 2 * s)
      let d := medianOfThree less d m (m - s) (m + s)
      medianOfThree less d (hi - 1) (hi - 1 - s) (hi - 1 - 2 * s)
    else d
  medianOfThree less d lo m (hi - 1)

/-- `doPivot(data, lo, hi)`: the slice with the pivot at `midlo` and the range `[midlo, midhi)` of
elements level with it. -/
def doPivot (d : Data α) (lo hi : ℕ) : Data α × ℕ × ℕ :=
  let d := doPivotMedian less d lo hi
  let pivot := lo
  let a := scanUp (fun x => less x (d pivot)) d (hi - 1 - (lo + 1)) (lo + 1)
  let (d, b, c) := doPivotPartition less pivot (hi - 1 - a) d a (hi - 1)
  let (d, b, c, protect) := doPivotDups less lo hi d b c
  let (d, _, b) := if protect then doPivotProtect less pivot (b - a) d a b else (d, a, b)
  (swap d pivot (b - 1), b - 1, c)

/-! ### The scans -/

theorem scanUp_spec (P : α → Bool) (d : Data α) (k i : ℕ) :
    i ≤ scanUp P d k i ∧ scanUp P d k i ≤ i + k ∧
      (∀ x, i ≤ x → x < scanUp P d k i → P (d x) = true) ∧
      (scanUp P d k i < i + k → P (d (scanUp P d k i)) = false) := by
  induction k generalizing i with
  | zero => exact ⟨le_rfl, le_rfl, fun x hx hx' => by simp [scanUp] at hx'; omega, by simp [scanUp]⟩
  | succ k ih =>
    simp only [scanUp]
    split
    · rename_i hP
      obtain ⟨h1, h2, h3, h4⟩ := ih (i + 1)
      refine ⟨by omega, by omega, fun x hx hx' => ?_, fun h => h4 (by omega)⟩
      rcases Nat.eq_or_lt_of_le hx with rfl | hx
      · exact hP
      · exact h3 x hx hx'
    · rename_i hP
      exact ⟨le_rfl, by omega, fun x hx hx' => by omega, fun _ => by simpa using hP⟩

theorem scanDown_spec (P : α → Bool) (d : Data α) (k j : ℕ) (hk : k ≤ j) :
    j - k ≤ scanDown P d k j ∧ scanDown P d k j ≤ j ∧
      (∀ x, scanDown P d k j ≤ x → x < j → P (d x) = true) ∧
      (j - k < scanDown P d k j → P (d (scanDown P d k j - 1)) = false) := by
  induction k generalizing j with
  | zero =>
    exact ⟨by simp [scanDown], by simp [scanDown], fun x hx hx' => by simp [scanDown] at hx; omega,
      fun h => by simp [scanDown] at h⟩
  | succ k ih =>
    simp only [scanDown]
    split
    · rename_i hP
      obtain ⟨h1, h2, h3, h4⟩ := ih (j - 1) (by omega)
      refine ⟨by omega, by omega, fun x hx hx' => ?_, fun h => h4 (by omega)⟩
      rcases Nat.lt_or_ge x (j - 1) with hx'' | hx''
      · exact h3 x hx hx''
      · rwa [show x = j - 1 by omega]
    · rename_i hP
      exact ⟨by omega, le_rfl, fun x hx hx' => by omega, fun _ => by simpa using hP⟩

/-! ### Every element stays in the range -/

theorem medianOfThree_segPerm (d : Data α) {a b m1 m0 m2 : ℕ} (h1 : a ≤ m1 ∧ m1 < b)
    (h0 : a ≤ m0 ∧ m0 < b) (h2 : a ≤ m2 ∧ m2 < b) :
    SegPerm a b d (medianOfThree less d m1 m0 m2) := by
  have hfirst := SegPerm.of_swapIfLess less (d := d) h1 h0
  unfold medianOfThree
  dsimp only
  split
  · exact hfirst.trans ((SegPerm.of_swap h2 h1).trans (SegPerm.of_swapIfLess less h1 h0))
  · exact hfirst

theorem doPivotMedian_segPerm (d : Data α) {lo hi : ℕ} (h : 12 < hi - lo) :
    SegPerm lo hi d (doPivotMedian less d lo hi) := by
  unfold doPivotMedian
  have hms : lo + (hi - lo) / 8 ≤ (lo + hi) / 2 ∧ (lo + hi) / 2 + (hi - lo) / 8 < hi := by omega
  generalize (lo + hi) / 2 = m at hms ⊢
  generalize (hi - lo) / 8 = s at hms ⊢
  have hlast : ∀ d' : Data α, SegPerm lo hi d' (medianOfThree less d' lo m (hi - 1)) :=
    fun d' => medianOfThree_segPerm less d' (by omega) (by omega) (by omega)
  split
  · exact ((medianOfThree_segPerm less d (by omega) (by omega) (by omega)).trans
      ((medianOfThree_segPerm less _ (by omega) (by omega) (by omega)).trans
        (medianOfThree_segPerm less _ (by omega) (by omega) (by omega)))).trans (hlast _)
  · exact hlast d

theorem doPivotPartition_segPerm (pivot fuel : ℕ) (d : Data α) {b c : ℕ} (hbc : b ≤ c)
    (hfuel : c - b ≤ fuel) :
    SegPerm b c d (doPivotPartition less pivot fuel d b c).1 ∧
      b ≤ (doPivotPartition less pivot fuel d b c).2.1 ∧
      (doPivotPartition less pivot fuel d b c).2.1 = (doPivotPartition less pivot fuel d b c).2.2 ∧
      (doPivotPartition less pivot fuel d b c).2.2 ≤ c := by
  induction fuel generalizing d b c with
  | zero => exact ⟨SegPerm.refl _ _ d, le_rfl, by simp [doPivotPartition]; omega, le_rfl⟩
  | succ fuel ih =>
    simp only [doPivotPartition]
    obtain ⟨hb1, hb2, -, hbstop⟩ := scanUp_spec (fun x => !less (d pivot) x) d (c - b) b
    set b₁ := scanUp (fun x => !less (d pivot) x) d (c - b) b
    obtain ⟨hc1, hc2, -, hcstop⟩ := scanDown_spec (fun x => less (d pivot) x) d (c - b₁) c (by omega)
    set c₁ := scanDown (fun x => less (d pivot) x) d (c - b₁) c
    split
    · exact ⟨SegPerm.refl _ _ d, hb1, show b₁ = c₁ by omega, hc2⟩
    · rename_i hcb
      have hne : b₁ + 1 < c₁ := by
        by_contra hle
        have h1 := hbstop (by omega)
        have h2 := hcstop (by omega)
        rw [show c₁ - 1 = b₁ by omega] at h2
        simp [h2] at h1
      obtain ⟨hperm, hb', hbc', hc'⟩ := ih (swap d b₁ (c₁ - 1)) (b := b₁ + 1) (c := c₁ - 1)
        (by omega) (by omega)
      exact ⟨(SegPerm.of_swap (by omega) (by omega)).trans (hperm.mono (by omega) (by omega)),
        by omega, hbc', by omega⟩

theorem doPivotDupsB_segPerm (d : Data α) (lo hi b c dups : ℕ) (hb : lo + 3 ≤ b)
    (hm : (lo + hi) / 2 + 2 ≤ b) (hbc : b ≤ c) (hc : c ≤ hi) :
    SegPerm (lo + 1) hi d (doPivotDupsB less lo hi d b c dups).1 ∧
      lo + 1 ≤ (doPivotDupsB less lo hi d b c dups).2.1 ∧
      (doPivotDupsB less lo hi d b c dups).2.1 ≤ (doPivotDupsB less lo hi d b c dups).2.2.1 ∧
      (doPivotDupsB less lo hi d b c dups).2.2.1 ≤ hi := by
  unfold doPivotDupsB doPivotDupsM
  dsimp only
  split_ifs <;> dsimp only <;> refine ⟨?_, by omega, by omega, by omega⟩ <;>
    repeat' (first | exact SegPerm.refl _ _ _ | apply SegPerm.swap_right | omega)

private theorem dups_bounds {lo hi c : ℕ} (h : 12 < hi - lo)
    (hcond : ¬hi - c < 5 ∧ hi - c < (hi - lo) / 4) :
    lo + 3 ≤ c ∧ (lo + hi) / 2 + 2 ≤ c ∧ lo < (lo + hi) / 2 := by
  omega

theorem doPivotDups_segPerm (d : Data α) {lo hi b c : ℕ} (h : 12 < hi - lo) (hb : lo + 1 ≤ b)
    (hbc : b = c) (hc : c < hi) :
    SegPerm (lo + 1) hi d (doPivotDups less lo hi d b c).1 ∧
      lo + 1 ≤ (doPivotDups less lo hi d b c).2.1 ∧
      (doPivotDups less lo hi d b c).2.1 ≤ (doPivotDups less lo hi d b c).2.2.1 ∧
      (doPivotDups less lo hi d b c).2.2.1 ≤ hi := by
  unfold doPivotDups
  split_ifs with hcond
  · obtain ⟨h3, hm, -⟩ := dups_bounds h hcond
    exact doPivotDupsB_segPerm less d lo hi b c 0 (by omega) (by omega) hbc.le hc.le
  · obtain ⟨hperm, hb', hbc', hc'⟩ := doPivotDupsB_segPerm less (swap d c (hi - 1)) lo hi b
      (c + 1) 1 (by omega) (by omega) (by omega) (by omega)
    exact ⟨(SegPerm.of_swap (by omega) (by omega)).trans hperm, hb', hbc', hc'⟩
  · exact ⟨SegPerm.refl _ _ d, hb, show b ≤ c by omega, show c ≤ hi by omega⟩

theorem doPivotProtect_segPerm (pivot fuel : ℕ) (d : Data α) {a b : ℕ} (hfuel : b - a ≤ fuel) :
    SegPerm a b d (doPivotProtect less pivot fuel d a b).1 ∧
      min a b ≤ (doPivotProtect less pivot fuel d a b).2.2 ∧
      (doPivotProtect less pivot fuel d a b).2.2 ≤ b := by
  induction fuel generalizing d a b with
  | zero => exact ⟨SegPerm.refl _ _ d, by simp [doPivotProtect], le_rfl⟩
  | succ fuel ih =>
    simp only [doPivotProtect]
    obtain ⟨hb1, hb2, -, hbstop⟩ :=
      scanDown_spec (fun x => !less x (d pivot)) d (b - a) b (Nat.sub_le b a)
    set b₁ := scanDown (fun x => !less x (d pivot)) d (b - a) b
    obtain ⟨ha1, ha2, -, hastop⟩ := scanUp_spec (fun x => less x (d pivot)) d (b₁ - a) a
    set a₁ := scanUp (fun x => less x (d pivot)) d (b₁ - a) a
    split
    · exact ⟨SegPerm.refl _ _ d, show min a b ≤ b₁ by omega, hb2⟩
    · rename_i hba
      have hne : a₁ + 1 < b₁ := by
        by_contra hle
        have h1 := hastop (by omega)
        have h2 := hbstop (by omega)
        rw [show b₁ - 1 = a₁ by omega] at h2
        simp [h1] at h2
      obtain ⟨hperm, hb', hb''⟩ := ih (swap d a₁ (b₁ - 1)) (a := a₁ + 1) (b := b₁ - 1) (by omega)
      exact ⟨(SegPerm.of_swap (by omega) (by omega)).trans (hperm.mono (by omega) (by omega)),
        by omega, by omega⟩

theorem doPivot_segPerm (d : Data α) {lo hi : ℕ} (h : 12 < hi - lo) :
    SegPerm lo hi d (doPivot less d lo hi).1 ∧ lo ≤ (doPivot less d lo hi).2.1 ∧
      (doPivot less d lo hi).2.1 < (doPivot less d lo hi).2.2 ∧ (doPivot less d lo hi).2.2 ≤ hi := by
  have hmed := doPivotMedian_segPerm less d h
  unfold doPivot
  dsimp only
  generalize doPivotMedian less d lo hi = d₀ at hmed ⊢
  obtain ⟨ha1, ha2, -, -⟩ := scanUp_spec (fun x => less x (d₀ lo)) d₀ (hi - 1 - (lo + 1)) (lo + 1)
  generalize scanUp (fun x => less x (d₀ lo)) d₀ (hi - 1 - (lo + 1)) (lo + 1) = a at ha1 ha2 ⊢
  obtain ⟨hperm₁, hb₁, hbc₁, hc₁⟩ := doPivotPartition_segPerm less lo (hi - 1 - a) d₀
    (b := a) (c := hi - 1) (by omega) le_rfl
  generalize doPivotPartition less lo (hi - 1 - a) d₀ a (hi - 1) = r₁ at hperm₁ hb₁ hbc₁ hc₁ ⊢
  obtain ⟨d₁, b₁, c₁⟩ := r₁
  dsimp only at hperm₁ hb₁ hbc₁ hc₁ ⊢
  obtain ⟨hperm₂, hb₂, hbc₂, hc₂⟩ := doPivotDups_segPerm less d₁ h (b := b₁) (c := c₁)
    (by omega) hbc₁ (by omega)
  generalize doPivotDups less lo hi d₁ b₁ c₁ = r₂ at hperm₂ hb₂ hbc₂ hc₂ ⊢
  obtain ⟨d₂, b₂, c₂, protect⟩ := r₂
  dsimp only at hperm₂ hb₂ hbc₂ hc₂ ⊢
  have hfront : SegPerm lo hi d d₂ :=
    hmed.trans ((hperm₁.mono (by omega) (by omega)).trans (hperm₂.mono (by omega) le_rfl))
  have hlast : ∀ d₃ b₃, SegPerm lo hi d d₃ → lo + 1 ≤ b₃ → b₃ ≤ b₂ →
      SegPerm lo hi d (swap d₃ lo (b₃ - 1)) ∧ lo ≤ b₃ - 1 ∧ b₃ - 1 < c₂ ∧ c₂ ≤ hi :=
    fun d₃ b₃ hp hb hb' => ⟨hp.swap_right (by omega) (by omega), by omega, by omega, hc₂⟩
  cases protect
  · rw [if_neg Bool.false_ne_true]
    exact hlast d₂ b₂ hfront hb₂ le_rfl
  · rw [if_pos rfl]
    obtain ⟨hperm₃, hb₃, hb₃'⟩ := doPivotProtect_segPerm less lo (b₂ - a) d₂
      (a := a) (b := b₂) le_rfl
    generalize doPivotProtect less lo (b₂ - a) d₂ a b₂ = r₃ at hperm₃ hb₃ hb₃' ⊢
    obtain ⟨d₃, a₃, b₃⟩ := r₃
    dsimp only at hperm₃ hb₃ hb₃' ⊢
    exact hlast d₃ b₃ (hfront.trans (hperm₃.mono (by omega) (by omega))) (by omega) hb₃'

/-! ### The order around the pivot -/

variable {less} {le : α → α → Prop}

theorem medianOfThree_le (hc : Comparator less le) (d : Data α) {m1 m0 m2 : ℕ} (h10 : m1 ≠ m0)
    (h21 : m2 ≠ m1) (h20 : m2 ≠ m0) :
    le (medianOfThree less d m1 m0 m2 m0) (medianOfThree less d m1 m0 m2 m1) ∧
      le (medianOfThree less d m1 m0 m2 m1) (medianOfThree less d m1 m0 m2 m2) := by
  have hfirst := hc.swapIfLess_le d m1 m0
  unfold medianOfThree
  dsimp only
  generalize swapIfLess less d m1 m0 = d₁ at hfirst ⊢
  split
  · rename_i hless
    refine ⟨hc.swapIfLess_le _ m1 m0, ?_⟩
    rw [swapIfLess_apply_of_ne _ _ h21 h20, swap_apply_left]
    rcases swapIfLess_apply_left less (swap d₁ m2 m1) m1 m0 with h | h <;> rw [h]
    · rw [swap_apply_right]
      exact hc.le_of_less hless
    · rw [swap_apply_of_ne _ h20.symm (Ne.symm h10)]
      exact hfirst
  · rename_i hless
    exact ⟨hfirst, hc.le_of_not_less (by simpa using hless)⟩

/-- What the partitioning loop keeps, for the pivot value `p` at `lo`: `[lo + 1, b)` is not above
it and `[c, hi)` not below it. -/
structure Parted (le : α → α → Prop) (d : Data α) (lo hi b c : ℕ) (p : α) : Prop where
  pivot : d lo = p
  lo_lt : lo < b
  below : AllIn (le · p) d (lo + 1) b
  above : AllIn (le p ·) d c hi

theorem Parted.extend {d : Data α} {lo hi b c b' c' : ℕ} {p : α} (h : Parted le d lo hi b c p)
    (hb : b ≤ b') (hbelow : ∀ x, b ≤ x → x < b' → le (d x) p)
    (habove : ∀ x, c' ≤ x → x < c → le p (d x)) : Parted le d lo hi b' c' p where
  pivot := h.pivot
  lo_lt := by have := h.lo_lt; omega
  below x hx hx' := if hxb : x < b then h.below x hx hxb else hbelow x (by omega) hx'
  above x hx hx' := if hxc : x < c then habove x hx hxc else h.above x (by omega) hx'

theorem Parted.swap {d : Data α} {lo hi b c : ℕ} {p : α} (h : Parted le d lo hi b c p)
    (hbc : b + 1 < c) (hb : le p (d b)) (hc : le (d (c - 1)) p) :
    Parted le (swap d b (c - 1)) lo hi (b + 1) (c - 1) p where
  pivot := by
    have := h.lo_lt
    rw [swap_apply_of_ne _ (by omega) (by omega), h.pivot]
  lo_lt := by have := h.lo_lt; omega
  below x hx hx' := by
    rcases Nat.lt_or_ge x b with hxb | hxb
    · rw [swap_apply_of_ne _ (by omega) (by omega)]
      exact h.below x hx hxb
    · rw [show x = b by omega, swap_apply_left]
      exact hc
  above x hx hx' := by
    rcases Nat.lt_or_ge x c with hxc | hxc
    · rw [show x = c - 1 by omega, swap_apply_right]
      exact hb
    · rw [swap_apply_of_ne _ (by omega) (by omega)]
      exact h.above x hxc hx'

theorem doPivotPartition_parted (hc : Comparator less le) (fuel : ℕ) (d : Data α)
    {lo hi b c : ℕ} {p : α} (h : Parted le d lo hi b c p) (hbc : b ≤ c) (hfuel : c - b ≤ fuel) :
    Parted le (doPivotPartition less lo fuel d b c).1 lo hi (doPivotPartition less lo fuel d b c).2.1
      (doPivotPartition less lo fuel d b c).2.2 p := by
  induction fuel generalizing d b c with
  | zero => exact h
  | succ fuel ih =>
    simp only [doPivotPartition, h.pivot]
    obtain ⟨hb1, hb2, hbscan, hbstop⟩ := scanUp_spec (fun x => !less p x) d (c - b) b
    set b₁ := scanUp (fun x => !less p x) d (c - b) b
    obtain ⟨hc1, hc2, hcscan, hcstop⟩ :=
      scanDown_spec (fun x => less p x) d (c - b₁) c (by omega)
    set c₁ := scanDown (fun x => less p x) d (c - b₁) c
    have hext : Parted le d lo hi b₁ c₁ p :=
      h.extend hb1 (fun x hx hx' => hc.le_of_not_less (by simpa using hbscan x hx hx'))
        (fun x hx hx' => hc.le_of_less (hcscan x hx hx'))
    split
    · exact hext
    · rename_i hcb
      have hstopb := hbstop (by omega)
      have hstopc := hcstop (by omega)
      have hne : b₁ + 1 < c₁ := by
        by_contra hle
        rw [show c₁ - 1 = b₁ by omega] at hstopc
        simp [hstopc] at hstopb
      exact ih _ (hext.swap hne (hc.le_of_less (by simpa using hstopb))
        (hc.le_of_not_less hstopc)) (by omega) (by omega)

/-- For the pivot value `p` at `lo`: `[lo + 1, b)` is not above it, `[b, c)` level with it and
`[c, hi)` not below it. -/
structure Parted3 (le : α → α → Prop) (d : Data α) (lo hi b c : ℕ) (p : α) : Prop where
  pivot : d lo = p
  below : AllIn (le · p) d (lo + 1) b
  level : AllIn (fun x => le x p ∧ le p x) d b c
  above : AllIn (le p ·) d c hi

theorem Parted.parted3 {d : Data α} {lo hi b : ℕ} {p : α} (h : Parted le d lo hi b b p) :
    Parted3 le d lo hi b b p :=
  ⟨h.pivot, h.below, fun x hx hx' => by omega, h.above⟩

theorem Parted3.dupHi (hc : Comparator less le) {d : Data α} {lo hi b c : ℕ} {p : α}
    (h : Parted3 le d lo hi b c p) (hbc : b ≤ c) (hlo : lo < c) (hchi : c < hi)
    (hless : less p (d (hi - 1)) = false) : Parted3 le (swap d c (hi - 1)) lo hi b (c + 1) p where
  pivot := by rw [swap_apply_of_ne _ (by omega) (by omega), h.pivot]
  below x hx hx' := by
    rw [swap_apply_of_ne _ (by omega) (by omega)]; exact h.below x hx hx'
  level x hx hx' := by
    rcases Nat.lt_or_ge x c with hxc | hxc
    · rw [swap_apply_of_ne _ (by omega) (by omega)]; exact h.level x hx hxc
    · rw [show x = c by omega, swap_apply_left]
      exact ⟨hc.le_of_not_less hless, h.above (hi - 1) (by omega) (by omega)⟩
  above x hx hx' := by
    by_cases hxh : x = hi - 1
    · rw [hxh, swap_apply_right]; exact h.above c le_rfl hchi
    · rw [swap_apply_of_ne _ (by omega) hxh]; exact h.above x (by omega) hx'

theorem Parted3.dupB (hc : Comparator less le) {d : Data α} {lo hi b c : ℕ} {p : α}
    (h : Parted3 le d lo hi b c p) (hb : lo + 1 < b)
    (hless : less (d (b - 1)) p = false) : Parted3 le d lo hi (b - 1) c p where
  pivot := h.pivot
  below x hx hx' := h.below x hx (by omega)
  level x hx hx' := by
    rcases Nat.lt_or_ge x b with hxb | hxb
    · rw [show x = b - 1 by omega]
      exact ⟨h.below (b - 1) (by omega) (by omega), hc.le_of_not_less hless⟩
    · exact h.level x hxb hx'
  above := h.above

theorem Parted3.dupM (hc : Comparator less le) {d : Data α} {lo hi b c m : ℕ} {p : α}
    (h : Parted3 le d lo hi b c p) (hm : lo < m) (hmb : m < b) (hbc : b ≤ c)
    (hless : less (d m) p = false) : Parted3 le (swap d m (b - 1)) lo hi (b - 1) c p where
  pivot := by rw [swap_apply_of_ne _ (by omega) (by omega), h.pivot]
  below x hx hx' := by
    by_cases hxm : x = m
    · rw [hxm, swap_apply_left]; exact h.below (b - 1) (by omega) (by omega)
    · rw [swap_apply_of_ne _ hxm (by omega)]; exact h.below x hx (by omega)
  level x hx hx' := by
    rcases Nat.lt_or_ge x b with hxb | hxb
    · rw [show x = b - 1 by omega, swap_apply_right]
      exact ⟨h.below m (by omega) hmb, hc.le_of_not_less hless⟩
    · rw [swap_apply_of_ne _ (by omega) (by omega)]; exact h.level x hxb hx'
  above x hx hx' := by
    rw [swap_apply_of_ne _ (by omega) (by omega)]; exact h.above x hx hx'

theorem doPivotDupsB_parted3 (hc : Comparator less le) {d : Data α} {lo hi b c : ℕ} {p : α}
    (dups : ℕ) (h : Parted3 le d lo hi b c p) (hb : lo + 3 ≤ b) (hm : (lo + hi) / 2 + 2 ≤ b)
    (hlom : lo < (lo + hi) / 2) (hbc : b ≤ c) :
    Parted3 le (doPivotDupsB less lo hi d b c dups).1 lo hi (doPivotDupsB less lo hi d b c dups).2.1
      (doPivotDupsB less lo hi d b c dups).2.2.1 p := by
  have hstepM : ∀ b' dups', Parted3 le d lo hi b' c p → (lo + hi) / 2 < b' → b' ≤ c →
      Parted3 le (doPivotDupsM less lo hi d b' c dups').1 lo hi
        (doPivotDupsM less lo hi d b' c dups').2.1 (doPivotDupsM less lo hi d b' c dups').2.2.1 p := by
    intro b' dups' h' hmb' hbc'
    unfold doPivotDupsM
    dsimp only
    split
    · exact h'
    · rename_i hless
      exact h'.dupM hc (by omega) hmb' hbc' (by simpa [h'.pivot] using hless)
  unfold doPivotDupsB
  split
  · exact hstepM b dups h (by omega) hbc
  · rename_i hless
    exact hstepM (b - 1) (dups + 1) (h.dupB hc (by omega) (by simpa [h.pivot] using hless))
      (by omega) (by omega)

theorem doPivotDups_parted3 (hc : Comparator less le) {d : Data α} {lo hi b : ℕ} {p : α}
    (h : Parted le d lo hi b b p) (hlt : 12 < hi - lo) (hb : b < hi) :
    Parted3 le (doPivotDups less lo hi d b b).1 lo hi (doPivotDups less lo hi d b b).2.1
      (doPivotDups less lo hi d b b).2.2.1 p := by
  unfold doPivotDups
  split_ifs with hcond hless
  · obtain ⟨h3, hm, hlom⟩ := dups_bounds hlt hcond
    exact doPivotDupsB_parted3 hc 0 h.parted3 h3 hm hlom le_rfl
  · obtain ⟨h3, hm, hlom⟩ := dups_bounds hlt hcond
    exact doPivotDupsB_parted3 hc 1
      (h.parted3.dupHi hc le_rfl (by omega) hb (by simpa [h.pivot] using hless))
      h3 hm hlom (by omega)
  · exact h.parted3

theorem doPivotProtect_parted3 (hc : Comparator less le) (fuel : ℕ) (d : Data α)
    {lo hi a b c : ℕ} {p : α} (h : Parted3 le d lo hi b c p) (ha : lo < a) (hbc : b ≤ c)
    (hfuel : b - a ≤ fuel) :
    Parted3 le (doPivotProtect less lo fuel d a b).1 lo hi (doPivotProtect less lo fuel d a b).2.2
      c p := by
  induction fuel generalizing d a b with
  | zero => exact h
  | succ fuel ih =>
    simp only [doPivotProtect, h.pivot]
    obtain ⟨hb1, hb2, hbscan, hbstop⟩ :=
      scanDown_spec (fun x => !less x p) d (b - a) b (Nat.sub_le b a)
    set b₁ := scanDown (fun x => !less x p) d (b - a) b
    obtain ⟨ha1, ha2, -, hastop⟩ := scanUp_spec (fun x => less x p) d (b₁ - a) a
    set a₁ := scanUp (fun x => less x p) d (b₁ - a) a
    -- the elements `scanDown` passed over are level with the pivot
    have hext : Parted3 le d lo hi b₁ c p :=
      ⟨h.pivot, h.below.mono le_rfl hb2, fun x hx hx' =>
        if hxb : x < b then
          ⟨h.below x (by omega) hxb, hc.le_of_not_less (by simpa using hbscan x hx hxb)⟩
        else h.level x (by omega) hx', h.above⟩
    split
    · exact hext
    · rename_i hba
      have hstopa := hastop (by omega)
      have hstopb := hbstop (by omega)
      have hne : a₁ + 1 < b₁ := by
        by_contra hle
        rw [show b₁ - 1 = a₁ by omega] at hstopb
        simp [hstopa] at hstopb
      have hswap : Parted3 le (swap d a₁ (b₁ - 1)) lo hi (b₁ - 1) c p := by
        refine ⟨?_, fun x hx hx' => ?_, fun x hx hx' => ?_, fun x hx hx' => ?_⟩
        · rw [swap_apply_of_ne _ (by omega) (by omega), h.pivot]
        · by_cases hxa : x = a₁
          · rw [hxa, swap_apply_left]; exact hc.le_of_less (by simpa using hstopb)
          · rw [swap_apply_of_ne _ hxa (by omega)]; exact hext.below x hx (by omega)
        · rcases Nat.lt_or_ge x b₁ with hxb | hxb
          · rw [show x = b₁ - 1 by omega, swap_apply_right]
            exact ⟨hext.below a₁ (by omega) (by omega), hc.le_of_not_less hstopa⟩
          · rw [swap_apply_of_ne _ (by omega) (by omega)]; exact hext.level x hxb hx'
        · rw [swap_apply_of_ne _ (by omega) (by omega)]; exact hext.above x hx hx'
      exact ih _ hswap (by omega) (by omega) (by omega)

/-- What `doPivot` leaves for `quickSort`: `[lo, mlo)` not above the pivot value at `mlo`,
`[mlo, mhi)` level with it and `[mhi, hi)` not below it. -/
structure Pivoted (le : α → α → Prop) (d : Data α) (lo mlo mhi hi : ℕ) : Prop where
  below : AllIn (le · (d mlo)) d lo mlo
  level : AllIn (fun x => le x (d mlo) ∧ le (d mlo) x) d mlo mhi
  above : AllIn (le (d mlo) ·) d mhi hi

theorem Parted3.pivoted (hc : Comparator less le) {d : Data α} {lo hi b c : ℕ} {p : α}
    (h : Parted3 le d lo hi b c p) (hb : lo < b) (hbc : b ≤ c) :
    Pivoted le (swap d lo (b - 1)) lo (b - 1) c hi := by
  have hp : swap d lo (b - 1) (b - 1) = p := by rw [swap_apply_right, h.pivot]
  refine ⟨fun x hx hx' => ?_, fun x hx hx' => ?_, fun x hx hx' => ?_⟩ <;> rw [hp]
  · rcases Nat.eq_or_lt_of_le hx with rfl | hlt
    · rw [swap_apply_left]; exact h.below (b - 1) (by omega) (by omega)
    · rw [swap_apply_of_ne _ (by omega) (by omega)]; exact h.below x (by omega) (by omega)
  · rcases Nat.eq_or_lt_of_le hx with rfl | hlt
    · rw [hp]; exact ⟨hc.refl p, hc.refl p⟩
    · rw [swap_apply_of_ne _ (by omega) (by omega)]; exact h.level x (by omega) hx'
  · rw [swap_apply_of_ne _ (by omega) (by omega)]; exact h.above x hx hx'

theorem doPivotMedian_le (hc : Comparator less le) (d : Data α) {lo hi : ℕ} (h : 12 < hi - lo) :
    le (doPivotMedian less d lo hi lo) (doPivotMedian less d lo hi (hi - 1)) := by
  unfold doPivotMedian
  dsimp only
  exact (medianOfThree_le hc _ (by omega) (by omega) (by omega)).2

theorem doPivot_pivoted (hc : Comparator less le) (d : Data α) {lo hi : ℕ} (h : 12 < hi - lo) :
    Pivoted le (doPivot less d lo hi).1 lo (doPivot less d lo hi).2.1 (doPivot less d lo hi).2.2 hi := by
  have hmed := doPivotMedian_le hc d h
  unfold doPivot
  dsimp only
  generalize doPivotMedian less d lo hi = d₀ at hmed ⊢
  obtain ⟨ha1, ha2, hascan, -⟩ :=
    scanUp_spec (fun x => less x (d₀ lo)) d₀ (hi - 1 - (lo + 1)) (lo + 1)
  have hparted : Parted le d₀ lo hi
      (scanUp (fun x => less x (d₀ lo)) d₀ (hi - 1 - (lo + 1)) (lo + 1)) (hi - 1) (d₀ lo) :=
    ⟨rfl, by omega, fun x hx hx' => hc.le_of_less (hascan x hx hx'),
      fun x hx hx' => by rw [show x = hi - 1 by omega]; exact hmed⟩
  generalize scanUp (fun x => less x (d₀ lo)) d₀ (hi - 1 - (lo + 1)) (lo + 1) = a
    at ha1 ha2 hparted ⊢
  generalize d₀ lo = p at hparted
  obtain ⟨-, hb₁, hbc₁, hc₁⟩ := doPivotPartition_segPerm less lo (hi - 1 - a) d₀
    (b := a) (c := hi - 1) (by omega) le_rfl
  have hparted₁ := doPivotPartition_parted hc (hi - 1 - a) d₀ hparted (by omega) le_rfl
  generalize doPivotPartition less lo (hi - 1 - a) d₀ a (hi - 1) = r₁ at hb₁ hbc₁ hc₁ hparted₁ ⊢
  obtain ⟨d₁, b₁, c₁⟩ := r₁
  dsimp only at hb₁ hbc₁ hc₁ hparted₁ ⊢
  subst hbc₁
  obtain ⟨-, hb₂, hbc₂, hc₂⟩ := doPivotDups_segPerm less d₁ h (b := b₁) (c := b₁)
    (by omega) rfl (by omega)
  have hparted₂ := doPivotDups_parted3 hc hparted₁ h (by omega)
  generalize doPivotDups less lo hi d₁ b₁ b₁ = r₂ at hb₂ hbc₂ hc₂ hparted₂ ⊢
  obtain ⟨d₂, b₂, c₂, protect⟩ := r₂
  dsimp only at hb₂ hbc₂ hc₂ hparted₂ ⊢
  cases protect
  · rw [if_neg Bool.false_ne_true]
    exact hparted₂.pivoted hc (by omega) hbc₂
  · rw [if_pos rfl]
    obtain ⟨-, hb₃, hb₃'⟩ := doPivotProtect_segPerm less lo (b₂ - a) d₂
      (a := a) (b := b₂) le_rfl
    have hparted₃ := doPivotProtect_parted3 hc (b₂ - a) d₂ hparted₂ (by omega) hbc₂ le_rfl
    generalize doPivotProtect less lo (b₂ - a) d₂ a b₂ = r₃ at hb₃ hb₃' hparted₃ ⊢
    obtain ⟨d₃, a₃, b₃⟩ := r₃
    dsimp only at hb₃ hb₃' hparted₃ ⊢
    exact hparted₃.pivoted hc (by omega) (by omega)

end Korifi.GoSort
