import Korifi.GoSort.Quick
import Korifi.Repositories.Records

/-!
# The domain repository

`DomainRepo` of `domain_repository.go`. Each operation takes what the store's call returned: a
`List` call's items in the order the store gave them, or its error, and for `GetDomain` the result
of the `Get` call.

`applyDomainListFilterAndOrder` keeps a domain once for every name in `message.Names` that equals
its `Spec.Name`: its inner loop has no `break`, unlike the loops of `applyPackageFilter`, so a name
given twice lists its domain twice (`applyDomainListFilterAndOrder_perm`). It then sorts with
`sort.Slice` by `Before`, so the records come by creation time, non-decreasing (`listDomains_spec`).
-/

namespace Korifi.Repositories

open GoSort

structure ListDomainsMessage where
  names : List String := []
deriving DecidableEq, Repr, Inhabited

variable (ts : Timestamps)

def applyDomainListFilterAndOrder (domainList : List CFDomain) (message : ListDomainsMessage) :
    List CFDomain :=
  let filtered :=
    if 0 < message.names.length then
      domainList.flatMap fun domain =>
        (message.names.filter fun name => domain.spec.name == name).map fun _ => domain
    else domainList
  slice (fun x y => before x.objectMeta.creationTimestamp y.objectMeta.creationTimestamp) filtered

def returnDomainList (domainList : List CFDomain) : List DomainRecord :=
  domainList.map (cfDomainToDomainRecord ts)

/-- `ListDomains`, given the store's answer to its `List` call. -/
def listDomains (cfdomainList : Except StoreError (List CFDomain)) (message : ListDomainsMessage) :
    Except RepoError (List DomainRecord) :=
  match cfdomainList with
  | .error err => .error (.store err)
  | .ok items => .ok (returnDomainList ts (applyDomainListFilterAndOrder items message))

/-- `GetDomainByName`. Its `PermissionDeniedOrNotFoundError` wraps `err`, which is `nil` there. -/
def getDomainByName (cfdomainList : Except StoreError (List CFDomain)) (domainName : String) :
    Except RepoError DomainRecord := do
  let domainRecords ← listDomains ts cfdomainList { names := [domainName] }
  match domainRecords with
  | [] => throw (.permissionDeniedOrNotFound none "Domain")
  | record :: _ => pure record

/-- `GetDefaultDomain`: the first domain `ListDomains` returns with no filter. -/
def getDefaultDomain (cfdomainList : Except StoreError (List CFDomain)) :
    Except RepoError DomainRecord := do
  let domainList ← listDomains ts cfdomainList {}
  match domainList with
  | [] => throw (.permissionDeniedOrNotFound none "Default Domain")
  | record :: _ => pure record

/-- `GetDomain`, given the store's answer to its `Get` call. A `NotFound` and an `Unauthorized`
status both become `PermissionDeniedOrNotFoundError`; any other error passes through. -/
def getDomain (domain : Except StoreError CFDomain) : Except RepoError DomainRecord :=
  match domain with
  | .ok domain => .ok (cfDomainToDomainRecord ts domain)
  | .error err =>
    match err with
    | .status reason _ =>
      if reason = .notFound ∨ reason = .unauthorized then
        .error (.permissionDeniedOrNotFound (some err) "Domain")
      else .error (.store err)
    | .other _ => .error (.store err)

/-! ### The filter and the order -/

/-- The domains the filter keeps, in the store's order: each one once per name of `names` equal to
its `Spec.Name`, every one once when `names` is empty. -/
def domainMatches (names : List String) (domainList : List CFDomain) : List CFDomain :=
  if names = [] then domainList
  else domainList.flatMap fun domain => List.replicate (names.count domain.spec.name) domain

private theorem filter_map_const (names : List String) (domain : CFDomain) :
    (names.filter fun name => domain.spec.name == name).map (fun _ => domain) =
      List.replicate (names.count domain.spec.name) domain := by
  rw [List.map_const', List.count, List.countP_eq_length_filter]
  congr 3
  funext name
  rw [Bool.eq_iff_iff, beq_iff_eq, beq_iff_eq, eq_comm]

theorem mem_domainMatches {names : List String} {domainList : List CFDomain} {domain : CFDomain} :
    domain ∈ domainMatches names domainList ↔
      domain ∈ domainList ∧ (names = [] ∨ domain.spec.name ∈ names) := by
  unfold domainMatches
  split
  · simp [*]
  · simp only [List.mem_flatMap, List.mem_replicate, ne_eq, List.count_eq_zero, not_not, *,
      false_or]
    constructor
    · rintro ⟨d, hd, hname, rfl⟩
      exact ⟨hd, hname⟩
    · rintro ⟨hd, hname⟩
      exact ⟨domain, hd, hname, rfl⟩

theorem applyDomainListFilterAndOrder_eq (domainList : List CFDomain)
    (message : ListDomainsMessage) :
    applyDomainListFilterAndOrder domainList message =
      slice (fun x y => before x.objectMeta.creationTimestamp y.objectMeta.creationTimestamp)
        (domainMatches message.names domainList) := by
  unfold applyDomainListFilterAndOrder domainMatches
  by_cases h : message.names = []
  · simp [h]
  · simp only [h, if_false, List.length_pos.2 h, if_true, filter_map_const]

theorem applyDomainListFilterAndOrder_perm (domainList : List CFDomain)
    (message : ListDomainsMessage) :
    List.Perm (applyDomainListFilterAndOrder domainList message)
      (domainMatches message.names domainList) := by
  rw [applyDomainListFilterAndOrder_eq]
  exact slice_perm _ _

theorem applyDomainListFilterAndOrder_sorted (domainList : List CFDomain)
    (message : ListDomainsMessage) :
    List.Sorted (fun x y => x.objectMeta.creationTimestamp ≤ y.objectMeta.creationTimestamp)
      (applyDomainListFilterAndOrder domainList message) := by
  rw [applyDomainListFilterAndOrder_eq]
  exact slice_sorted (before_comparator _) _

/-- What `ListDomains` returns for a successful `List` call: the records of the matching domains,
each as often as `domainMatches` lists it, by creation time. -/
theorem listDomains_spec (items : List CFDomain) (message : ListDomainsMessage) :
    ∃ domains : List CFDomain,
      listDomains ts (.ok items) message = .ok (domains.map (cfDomainToDomainRecord ts)) ∧
      List.Perm domains (domainMatches message.names items) ∧
      List.Sorted (fun x y => x.objectMeta.creationTimestamp ≤ y.objectMeta.creationTimestamp)
        domains :=
  ⟨_, rfl, applyDomainListFilterAndOrder_perm items message,
    applyDomainListFilterAndOrder_sorted items message⟩

theorem listDomains_head (items : List CFDomain) (message : ListDomainsMessage) :
    (domainMatches message.names items = [] ∧ listDomains ts (.ok items) message = .ok []) ∨
    ∃ domain rest, listDomains ts (.ok items) message = .ok (cfDomainToDomainRecord ts domain :: rest) ∧
      domain ∈ domainMatches message.names items ∧
      ∀ other ∈ domainMatches message.names items,
        domain.objectMeta.creationTimestamp ≤ other.objectMeta.creationTimestamp := by
  obtain ⟨domains, hlist, hperm, hsorted⟩ := listDomains_spec ts items message
  rcases domains with _ | ⟨domain, rest⟩
  · exact .inl ⟨hperm.nil_eq.symm, hlist⟩
  · refine .inr ⟨domain, rest.map (cfDomainToDomainRecord ts), hlist,
      hperm.subset (List.mem_cons_self _ _), fun other hother => ?_⟩
    rcases List.mem_cons.1 (hperm.symm.subset hother) with rfl | hrest
    · exact le_rfl
    · exact List.rel_of_sorted_cons hsorted _ hrest

/-- `GetDomainByName` returns the record of a domain with the name that was created no later than
any other, and the not-found error for `Domain` when the store has no domain of that name. -/
theorem getDomainByName_spec (items : List CFDomain) (domainName : String) :
    ((∀ domain ∈ items, domain.spec.name ≠ domainName) ∧
      getDomainByName ts (.ok items) domainName = .error (.permissionDeniedOrNotFound none "Domain")) ∨
    ∃ domain ∈ items, domain.spec.name = domainName ∧
      getDomainByName ts (.ok items) domainName = .ok (cfDomainToDomainRecord ts domain) ∧
      ∀ other ∈ items, other.spec.name = domainName →
        domain.objectMeta.creationTimestamp ≤ other.objectMeta.creationTimestamp := by
  have hmem : ∀ d, d ∈ domainMatches [domainName] items ↔ d ∈ items ∧ d.spec.name = domainName :=
    fun d => by simp [mem_domainMatches]
  rcases listDomains_head ts items { names := [domainName] } with ⟨hnone, hlist⟩ |
    ⟨domain, rest, hlist, hdomain, hfirst⟩
  · refine .inl ⟨fun d hd hname => ?_, by rw [getDomainByName, hlist]; rfl⟩
    simpa [hnone] using (hmem d).2 ⟨hd, hname⟩
  · obtain ⟨hd, hname⟩ := (hmem domain).1 hdomain
    exact .inr ⟨domain, hd, hname, by rw [getDomainByName, hlist]; rfl,
      fun other ho hname' => hfirst other ((hmem other).2 ⟨ho, hname'⟩)⟩

/-- `GetDefaultDomain` returns the record of a domain created no later than any other, and the
not-found error for `Default Domain` when the store has none. -/
theorem getDefaultDomain_spec (items : List CFDomain) :
    (items = [] ∧
      getDefaultDomain ts (.ok items) = .error (.permissionDeniedOrNotFound none "Default Domain")) ∨
    ∃ domain ∈ items, getDefaultDomain ts (.ok items) = .ok (cfDomainToDomainRecord ts domain) ∧
      ∀ other ∈ items, domain.objectMeta.creationTimestamp ≤ other.objectMeta.creationTimestamp := by
  rcases listDomains_head ts items {} with ⟨hnone, hlist⟩ | ⟨domain, rest, hlist, hdomain, hfirst⟩
  · exact .inl ⟨by simpa [domainMatches] using hnone, by rw [getDefaultDomain, hlist]; rfl⟩
  · exact .inr ⟨domain, by simpa [domainMatches] using hdomain,
      by rw [getDefaultDomain, hlist]; rfl, fun other ho => hfirst other (by simpa [domainMatches])⟩

/-- With names none of which a stored domain carries, `ListDomains` returns no record, not an
error. -/
theorem listDomains_nonmatching_names (items : List CFDomain) (message : ListDomainsMessage)
    (hnames : ∀ domain ∈ items, domain.spec.name ∉ message.names) (hne : message.names ≠ []) :
    listDomains ts (.ok items) message = .ok [] := by
  rcases listDomains_head ts items message with ⟨-, hlist⟩ | ⟨domain, -, -, hdomain, -⟩
  · exact hlist
  · obtain ⟨hd, hname⟩ := mem_domainMatches.1 hdomain
    exact absurd (hname.resolve_left hne) (hnames domain hd)

theorem listDomains_nonmatching_names_of_other_name :
    let ts : Timestamps := ⟨fun _ => "", fun _ => "", fun _ => ""⟩
    let domain : CFDomain := ⟨⟨"a", "", "", 0⟩, ⟨"a.example.com"⟩⟩
    listDomains ts (.ok [domain]) { names := ["b.example.com"] } = .ok [] :=
  listDomains_nonmatching_names _ _ _ (by decide) (by decide)

/-- A name given twice lists its domain twice. -/
theorem listDomains_repeated_name_duplicates (domain : CFDomain) :
    listDomains ts (.ok [domain]) { names := [domain.spec.name, domain.spec.name] } =
      .ok [cfDomainToDomainRecord ts domain, cfDomainToDomainRecord ts domain] := by
  have h := applyDomainListFilterAndOrder_perm [domain]
    { names := [domain.spec.name, domain.spec.name] }
  simp only [domainMatches, List.count_cons_self, List.count_singleton_self, List.flatMap_cons,
    List.flatMap_nil, List.append_nil, List.cons_ne_nil, if_false] at h
  simp only [listDomains, returnDomainList, List.perm_replicate.1 h]
  rfl

end Korifi.Repositories
