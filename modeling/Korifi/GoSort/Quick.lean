import Korifi.GoSort.Insertion
import Korifi.GoSort.Heap
import Korifi.GoSort.Pivot

/-!
# `sort.Slice`

`sort.Slice` runs `quickSort` over the whole slice with a depth budget of `maxDepth`. Each turn of
`quickSort`'s loop spends one unit of the budget on a `doPivot`, recurses on the shorter side and
loops on the longer; with the budget spent it falls back on `heapSort`, and a range of at most 12
elements gets a ShellSort pass and `insertionSort`.

The contract proved here is the one callers rely on: the result is a permutation of the input
(`slice_perm`, whatever the comparator), and it is ordered by `le` when the comparator is a
`Comparator` for `le` (`slice_sorted`). The comparator need not be a strict order: a comparator
that holds on equal elements, such as `!Before`, sorts just as well.
-/

namespace Korifi.GoSort

variable {α : Type} (less : α → α → Bool)

/-- The end of `quickSort` on a range of at most 12 elements:
`if b-a > 1 { for i := a + 6; i < b; i++ { ... }; insertionSort(data, a, b) }`. -/
def quickSortSmall (d : Data α) (a b : ℕ) : Data α :=
  if 1 < b - a then insertionSort less (shellSortPass less (b - (a + 6)) d (a + 6)) a b else d

/-- `quickSort(data, a, b, maxDepth)`. The loop `for b-a > 12` spends one unit of `maxDepth` a turn,
so it is a recursion on `maxDepth`: a turn recurses on the shorter side of the pivot and continues
on the longer. -/
def quickSort : ℕ → Data α → ℕ → ℕ → Data α
  | 0, d, a, b => if 12 < b - a then heapSort less d a b else quickSortSmall less d a b
  | maxDepth + 1, d, a, b =>
    if 12 < b - a then
      let (d, mlo, mhi) := doPivot less d a b
      if mlo - a < b - mhi then quickSort maxDepth (quickSort maxDepth d a mlo) mhi b
      else quickSort maxDepth (quickSort maxDepth d mhi b) a mlo
    else quickSortSmall less d a b

/-- The loop of `maxDepth`, `for i := n; i > 0; i >>= 1 { depth++ }`; `i` halves at every turn, so
`n` turns are enough. -/
def maxDepthLoop : ℕ → ℕ → ℕ
  | 0, _ => 0
  | fuel + 1, i => if 0 < i then maxDepthLoop fuel (i / 2) + 1 else 0

/-- `maxDepth(n)`: twice the number of bits of `n`, the depth past which `quickSort` switches to
`heapSort`. -/
def maxDepth (n : ℕ) : ℕ := 2 * maxDepthLoop n n

/-- `sort.Slice(x, less)` on the slice `xs`. -/
def slice [Inhabited α] (xs : List α) : List α :=
  (List.range xs.length).map
    (quickSort less (maxDepth xs.length) ⟨fun i => xs.getD i default⟩ 0 xs.length)

/-! ### A permutation -/

theorem quickSortSmall_segPerm (d : Data α) (a b : ℕ) :
    SegPerm a b d (quickSortSmall less d a b) := by
  unfold quickSortSmall
  split
  · refine SegPerm.trans ?_ (insertionSort_segPerm less _ a b)
    by_cases hb : a + 6 ≤ b
    · have h := shellSortPass_segPerm less (b - (a + 6)) d (a + 6) (by omega)
      rwa [show a + 6 - 6 = a by omega, show a + 6 + (b - (a + 6)) = b by omega] at h
    · rw [show b - (a + 6) = 0 by omega]
      exact SegPerm.refl _ _ d
  · exact SegPerm.refl _ _ d

theorem quickSort_segPerm (maxDepth : ℕ) (d : Data α) {a b : ℕ} (hab : a ≤ b) :
    SegPerm a b d (quickSort less maxDepth d a b) := by
  induction maxDepth generalizing d a b with
  | zero =>
    simp only [quickSort]
    split
    · exact heapSort_segPerm less d hab
    · exact quickSortSmall_segPerm less d a b
  | succ maxDepth ih =>
    simp only [quickSort]
    split
    · rename_i hlong
      obtain ⟨hperm, hlo, hmid, hhi⟩ := doPivot_segPerm less d hlong
      generalize doPivot less d a b = r at hperm hlo hmid hhi ⊢
      obtain ⟨d₁, mlo, mhi⟩ := r
      dsimp only at hperm hlo hmid hhi ⊢
      split
      · exact hperm.trans (((ih d₁ hlo).mono le_rfl (by omega)).trans
          ((ih _ hhi).mono (by omega) le_rfl))
      · exact hperm.trans (((ih d₁ hhi).mono (by omega) le_rfl).trans
          ((ih _ hlo).mono le_rfl (by omega)))
    · exact quickSortSmall_segPerm less d a b

private theorem map_getD_range [Inhabited α] (xs : List α) :
    (List.range xs.length).map (fun i => xs.getD i default) = xs := by
  refine List.ext_getElem (by simp) fun i h₁ h₂ => ?_
  simp only [List.getElem_map, List.getElem_range]
  exact List.getD_eq_getElem _ _ h₂

/-- `sort.Slice` rearranges the slice, whatever the comparator. -/
theorem slice_perm [Inhabited α] (xs : List α) : List.Perm (slice less xs) xs := by
  have h := (quickSort_segPerm less (maxDepth xs.length)
    ⟨fun i => xs.getD i default⟩ (Nat.zero_le xs.length)).perm_map_range
  rwa [map_getD_range] at h

/-! ### In order -/

variable {less} {le : α → α → Prop}

theorem quickSortSmall_sorted (hc : Comparator less le) (d : Data α) (a b : ℕ) :
    SortedIn le (quickSortSmall less d a b) a b := by
  unfold quickSortSmall
  split
  · exact insertionSort_sorted hc _ a b
  · exact SortedIn.of_le (by omega)

private theorem sorted_of_pivoted (hc : Comparator less le) {d d₁ d₂ : Data α} {a mlo mhi b : ℕ}
    (hpiv : Pivoted le d a mlo mhi b) (hmid : mlo ≤ mhi)
    (hleft : SegPerm a mlo d d₁) (hright : SegPerm mhi b d₁ d₂) (hsl : SortedIn le d₁ a mlo)
    (hsr : SortedIn le d₂ mhi b) : SortedIn le d₂ a b :=
  SortedIn.of_partition hc (hsl.of_segPerm_disjoint hright (Or.inl hmid)) hsr
    ((hpiv.below.of_segPerm hleft).of_segPerm_disjoint hright (Or.inl hmid))
    ((hpiv.level.of_segPerm_disjoint hleft (Or.inr le_rfl)).of_segPerm_disjoint hright
      (Or.inl le_rfl))
    ((hpiv.above.of_segPerm_disjoint hleft (Or.inr hmid)).of_segPerm hright)

private theorem sorted_of_pivoted' (hc : Comparator less le) {d d₁ d₂ : Data α} {a mlo mhi b : ℕ}
    (hpiv : Pivoted le d a mlo mhi b) (hmid : mlo ≤ mhi)
    (hright : SegPerm mhi b d d₁) (hleft : SegPerm a mlo d₁ d₂) (hsr : SortedIn le d₁ mhi b)
    (hsl : SortedIn le d₂ a mlo) : SortedIn le d₂ a b :=
  SortedIn.of_partition hc hsl (hsr.of_segPerm_disjoint hleft (Or.inr hmid))
    ((hpiv.below.of_segPerm_disjoint hright (Or.inl hmid)).of_segPerm hleft)
    ((hpiv.level.of_segPerm_disjoint hright (Or.inl le_rfl)).of_segPerm_disjoint hleft
      (Or.inr le_rfl))
    ((hpiv.above.of_segPerm hright).of_segPerm_disjoint hleft (Or.inr hmid))

theorem quickSort_sorted (hc : Comparator less le) (maxDepth : ℕ) (d : Data α) {a b : ℕ}
    (hab : a ≤ b) : SortedIn le (quickSort less maxDepth d a b) a b := by
  induction maxDepth generalizing d a b with
  | zero =>
    simp only [quickSort]
    split
    · exact heapSort_sorted hc d hab
    · exact quickSortSmall_sorted hc d a b
  | succ maxDepth ih =>
    simp only [quickSort]
    split
    · rename_i hlong
      obtain ⟨-, hlo, hmid, hhi⟩ := doPivot_segPerm less d hlong
      have hpiv := doPivot_pivoted hc d hlong
      generalize doPivot less d a b = r at hlo hmid hhi hpiv ⊢
      obtain ⟨d₁, mlo, mhi⟩ := r
      dsimp only at hlo hmid hhi hpiv ⊢
      split
      · exact sorted_of_pivoted hc hpiv hmid.le (quickSort_segPerm less _ _ hlo)
          (quickSort_segPerm less _ _ hhi) (ih _ hlo) (ih _ hhi)
      · exact sorted_of_pivoted' hc hpiv hmid.le (quickSort_segPerm less _ _ hhi)
          (quickSort_segPerm less _ _ hlo) (ih _ hhi) (ih _ hlo)
    · exact quickSortSmall_sorted hc d a b

/-- `sort.Slice` orders the slice by `le` when `less` is a comparator for it. -/
theorem slice_sorted [Inhabited α] (hc : Comparator less le) (xs : List α) :
    List.Sorted le (slice less xs) := by
  have h := quickSort_sorted hc (maxDepth xs.length) ⟨fun i => xs.getD i default⟩
    (Nat.zero_le xs.length)
  refine List.pairwise_iff_getElem.2 fun i j hi hj hij => ?_
  simp only [slice, List.getElem_map, List.getElem_range]
  simp only [slice, List.length_map, List.length_range] at hj
  exact h i j (Nat.zero_le i) hij hj

/-! ### Ties

`sort.Slice` is not stable, so which of two tied elements comes first depends on where they stood.
Only ties can differ: rearranged inputs sort to the same list when no two distinct elements are
tied.
-/

theorem slice_eq_of_perm [Inhabited α] (hc : Comparator less le) {xs ys : List α}
    (hp : List.Perm xs ys) (hties : ∀ x ∈ xs, ∀ y ∈ xs, le x y → le y x → x = y) :
    slice less xs = slice less ys := by
  let r : α → α → Prop := fun x y => le x y ∧ (le y x → x = y)
  haveI : IsAntisymm α r := ⟨fun _ _ hxy hyx => hxy.2 hyx.1⟩
  have hsorted : ∀ zs : List α, List.Perm zs xs → List.Sorted r (slice less zs) := by
    intro zs hzs
    have hmem : ∀ {x}, x ∈ slice less zs → x ∈ xs := fun hx =>
      ((slice_perm less zs).trans hzs).subset hx
    exact List.Pairwise.imp_of_mem (fun hx hy hxy => ⟨hxy, hties _ (hmem hx) _ (hmem hy) hxy⟩)
      (slice_sorted hc zs)
  exact List.eq_of_perm_of_sorted ((slice_perm less xs).trans (hp.trans (slice_perm less ys).symm))
    (hsorted xs (List.Perm.refl xs)) (hsorted ys hp.symm)

end Korifi.GoSort
