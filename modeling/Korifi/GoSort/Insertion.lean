import Korifi.GoSort.Data

/-!
# Insertion sort

`insertionSort` sorts the short ranges `quickSort` leaves, after one ShellSort pass with gap 6. It
sinks each element leftwards past every larger one, one `Swap` at a time. While an element sinks,
the range is in order everywhere except at the element's left edge, and the neighbours on its two
sides are in order with each other (`Sinking`); that is all the proof keeps track of.
-/

namespace Korifi.GoSort

variable {α : Type} (less : α → α → Bool)

/-- The inner loop of `insertionSort`, `for j := i; j > a && data.Less(j, j-1); j--`, with
`k = j - a` turns left. -/
def insertionSortInsert : ℕ → Data α → ℕ → Data α
  | 0, d, _ => d
  | k + 1, d, j =>
    if less (d j) (d (j - 1)) then insertionSortInsert k (swap d j (j - 1)) (j - 1) else d

/-- The outer loop of `insertionSort`, `for i := a + 1; i < b; i++`, with `k = b - i` turns left. -/
def insertionSortLoop (a : ℕ) : ℕ → Data α → ℕ → Data α
  | 0, d, _ => d
  | k + 1, d, i => insertionSortLoop a k (insertionSortInsert less (i - a) d i) (i + 1)

/-- `insertionSort(data, a, b)`. -/
def insertionSort (d : Data α) (a b : ℕ) : Data α :=
  insertionSortLoop less a (b - (a + 1)) d (a + 1)

/-- The ShellSort pass with gap 6 that `quickSort` makes on a short range,
`for i := a + 6; i < b; i++ { if data.Less(i, i-6) { data.Swap(i, i-6) } }`, with `k = b - i`
turns left. -/
def shellSortPass : ℕ → Data α → ℕ → Data α
  | 0, d, _ => d
  | k + 1, d, i =>
    shellSortPass k (swapIfLess less d i (i - 6)) (i + 1)

/-! ### Every element stays in the range -/

theorem insertionSortInsert_segPerm (k : ℕ) (d : Data α) (j : ℕ) (hk : k ≤ j) :
    SegPerm (j - k) (j + 1) d (insertionSortInsert less k d j) := by
  induction k generalizing d j with
  | zero => exact SegPerm.refl _ _ d
  | succ k ih =>
    simp only [insertionSortInsert]
    split
    · have hswap : SegPerm (j - (k + 1)) (j + 1) d (swap d j (j - 1)) :=
        SegPerm.of_swap (by omega) (by omega)
      exact hswap.trans ((ih _ (j - 1) (by omega)).mono (by omega) (by omega))
    · exact SegPerm.refl _ _ d

theorem insertionSortLoop_segPerm (a k : ℕ) (d : Data α) (i : ℕ) (hi : a ≤ i) :
    SegPerm a (i + k) d (insertionSortLoop less a k d i) := by
  induction k generalizing d i with
  | zero => exact SegPerm.refl _ _ d
  | succ k ih =>
    have hins : SegPerm a (i + (k + 1)) d (insertionSortInsert less (i - a) d i) :=
      (insertionSortInsert_segPerm less (i - a) d i (by omega)).mono (by omega) (by omega)
    exact hins.trans ((ih _ (i + 1) (by omega)).mono le_rfl (by omega))

theorem insertionSort_segPerm (d : Data α) (a b : ℕ) :
    SegPerm a b d (insertionSort less d a b) := by
  by_cases hb : a + 1 < b
  · have h := insertionSortLoop_segPerm less a (b - (a + 1)) d (a + 1) (by omega)
    rwa [show a + 1 + (b - (a + 1)) = b by omega] at h
  · simp only [insertionSort, show b - (a + 1) = 0 by omega, insertionSortLoop]
    exact SegPerm.refl _ _ d

theorem shellSortPass_segPerm (k : ℕ) (d : Data α) (i : ℕ) (hi : 6 ≤ i) :
    SegPerm (i - 6) (i + k) d (shellSortPass less k d i) := by
  induction k generalizing d i with
  | zero => exact SegPerm.refl _ _ d
  | succ k ih =>
    exact (SegPerm.of_swapIfLess less (by omega) (by omega)).trans
      ((ih _ (i + 1) (by omega)).mono (by omega) (by omega))

/-! ### The range ends in order -/

variable {less} {le : α → α → Prop}

/-- While the element at `j` sinks through `[a, i]`, every neighbouring pair is in order except
the one ending at `j`, and the two neighbours of `j` are in order with each other. -/
def Sinking (le : α → α → Prop) (d : Data α) (a i j : ℕ) : Prop :=
  (∀ k, a ≤ k → k + 1 ≤ i → k + 1 ≠ j → le (d k) (d (k + 1))) ∧
    (a < j → j < i → le (d (j - 1)) (d (j + 1)))

theorem Sinking.swap {d : Data α} {a i j : ℕ} (hs : Sinking le d a i (j + 1)) (ha : a ≤ j)
    (hj : j + 1 ≤ i) (hlt : le (d (j + 1)) (d j)) : Sinking le (swap d (j + 1) j) a i j := by
  obtain ⟨hadj, hgap⟩ := hs
  constructor
  · intro k hk hki hkj
    rcases Nat.lt_trichotomy k j with hlt' | rfl | hgt
    · rw [swap_apply_of_ne _ (by omega) (by omega), swap_apply_of_ne _ (by omega) (by omega)]
      exact hadj k hk hki (by omega)
    · simpa using hlt
    · rcases Nat.eq_or_lt_of_le hgt with rfl | hgt'
      · rw [swap_apply_left, swap_apply_of_ne _ (by omega) (by omega)]
        exact hgap (by omega) (by omega)
      · rw [swap_apply_of_ne _ (by omega) (by omega), swap_apply_of_ne _ (by omega) (by omega)]
        exact hadj k hk hki (by omega)
  · intro haj _
    rw [swap_apply_of_ne _ (by omega) (by omega), swap_apply_left]
    simpa [show j - 1 + 1 = j by omega] using hadj (j - 1) (by omega) (by omega) (by omega)

theorem insertionSortInsert_sorted (hc : Comparator less le) (k : ℕ) {a i : ℕ} (d : Data α)
    (hs : Sinking le d a i (a + k)) (hk : a + k ≤ i) :
    SortedIn le (insertionSortInsert less k d (a + k)) a (i + 1) := by
  induction k generalizing d with
  | zero =>
    exact SortedIn.of_succ hc.trans fun k hk hki => hs.1 k hk (by omega) (by omega)
  | succ k ih =>
    simp only [insertionSortInsert, show a + (k + 1) - 1 = a + k by omega]
    split
    · rename_i hless
      exact ih _ (hs.swap (j := a + k) (by omega) (by omega) (hc.le_of_less hless)) (by omega)
    · rename_i hless
      refine SortedIn.of_succ hc.trans fun l hl hli => ?_
      by_cases hlk : l + 1 = a + (k + 1)
      · rw [hlk, show l = a + k by omega]
        exact hc.le_of_not_less (by simpa using hless)
      · exact hs.1 l hl (by omega) hlk

theorem insertionSortLoop_sorted (hc : Comparator less le) (a k : ℕ) (d : Data α) (i : ℕ)
    (hi : a < i) (hs : SortedIn le d a i) :
    SortedIn le (insertionSortLoop less a k d i) a (i + k) := by
  induction k generalizing d i with
  | zero => exact hs
  | succ k ih =>
    have hsink : Sinking le d a i (a + (i - a)) :=
      ⟨fun l hl hli hlj => hs l (l + 1) hl (by omega) (by omega), fun _ h => by omega⟩
    have hins := insertionSortInsert_sorted hc (i - a) d hsink (by omega)
    rw [show a + (i - a) = i by omega] at hins
    rw [show i + (k + 1) = i + 1 + k by omega]
    exact ih _ (i + 1) (by omega) hins

theorem insertionSort_sorted (hc : Comparator less le) (d : Data α) (a b : ℕ) :
    SortedIn le (insertionSort less d a b) a b := by
  by_cases hb : a + 1 < b
  · have h := insertionSortLoop_sorted hc a (b - (a + 1)) d (a + 1) (by omega)
      (SortedIn.of_le le_rfl)
    rwa [show a + 1 + (b - (a + 1)) = b by omega] at h
  · exact SortedIn.of_le (by omega)

end Korifi.GoSort
