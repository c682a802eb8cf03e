import Korifi.GoSort.Quick
import Korifi.Repositories.Records

/-!
# The package repository

`PackageRepo`: `GetPackage`, `ListPackages`, `UpdatePackageSource` and `CreatePackage`, each given
the store's answer to its call.

`ListPackages` sorts the whole collection with `sort.Slice` first and filters the records after, by
app GUID and then by state. The two filter loops `break` at the first match, so a package is kept
once however often its value is listed (`applyPackageFilter_eq`). With `SortBy` `created_at` and
`DescendingOrder` the comparator is `!Before`, which holds of equal timestamps; `sort.Slice` sorts
with it all the same, non-increasing (`orderPackages_sorted`).

`GetPackage` lists every namespace and keeps the packages named `guid`; as GUIDs are unique only
within a namespace, two matches are an error of their own, never one of the two.
-/

namespace Korifi.Repositories

open GoSort

/-- A `ListPackagesMessage`; its zero value filters nothing and sorts by creation time. -/
structure ListPackagesMessage where
  appGUIDs : List String := []
  sortBy : String := ""
  descendingOrder : Bool := false
  states : List String := []
deriving DecidableEq, Repr, Inhabited

structure UpdatePackageSourceMessage where
  guid : String
  spaceGUID : String
  imageRef : String
  registrySecretName : String
deriving DecidableEq, Repr, Inhabited

variable (ts : Timestamps)

/-- The comparator of `orderPackages`. -/
def orderPackagesLess (message : ListPackagesMessage) (x y : CFPackage) : Bool :=
  if message.sortBy = "created_at" ∧ message.descendingOrder = true then
    !before x.objectMeta.creationTimestamp y.objectMeta.creationTimestamp
  else before x.objectMeta.creationTimestamp y.objectMeta.creationTimestamp

def orderPackages (packages : List CFPackage) (message : ListPackagesMessage) : List CFPackage :=
  slice (orderPackagesLess message) packages

/-- One loop of `applyPackageFilter`: with `values` given, a package is kept once if its field
equals one of them, the inner loop ending at the first match; with none, every package is kept. -/
def filterByField (field : PackageRecord → String) (values : List String)
    (packages : List PackageRecord) : List PackageRecord :=
  if 0 < values.length then
    packages.filter fun currentPackage => values.any fun value => field currentPackage == value
  else packages

def applyPackageFilter (packages : List PackageRecord) (message : ListPackagesMessage) :
    List PackageRecord :=
  let appFiltered := filterByField (·.appGUID) message.appGUIDs packages
  filterByField (·.state) message.states appFiltered

def convertToPackageRecords (packages : List CFPackage) : List PackageRecord :=
  packages.map (cfPackageToPackageRecord ts)

/-- `ListPackages`, given the store's answer to its `List` call. -/
def listPackages (packageList : Except StoreError (List CFPackage))
    (message : ListPackagesMessage) : Except RepoError (List PackageRecord) :=
  match packageList with
  | .error err => .error (.store err)
  | .ok items =>
    let orderedPackages := orderPackages items message
    .ok (applyPackageFilter (convertToPackageRecords ts orderedPackages) message)

def filterPackagesByMetadataName (packages : List CFPackage) (name : String) : List CFPackage :=
  packages.filter fun app => app.objectMeta.name == name

def returnPackage : List CFPackage → Except RepoError PackageRecord
  | [] => .error (.permissionDeniedOrNotFound none "")
  | [cfPackage] => .ok (cfPackageToPackageRecord ts cfPackage)
  | _ :: _ :: _ => .error (.text "duplicate packages exist")

/-- `GetPackage`, given the store's answer to its `List` call. -/
def getPackage (packageList : Except StoreError (List CFPackage)) (guid : String) :
    Except RepoError PackageRecord :=
  match packageList with
  | .error err => .error (.store err)
  | .ok allPackages => returnPackage ts (filterPackagesByMetadataName allPackages guid)

/-- What the patch of `UpdatePackageSource` does to the stored package. The patch is
`client.MergeFrom` of an object that carries only the package's name and namespace: a JSON merge
patch that sets `spec.source.registry.image` to `ImageRef` when that is not empty (an empty one
equals the base's and drops out of the patch) and replaces `imagePullSecrets` by the one secret. -/
def mergePackageSource (message : UpdatePackageSourceMessage) (cfPackage : CFPackage) :
    CFPackage :=
  let registry := cfPackage.spec.source.registry
  { cfPackage with
    spec.source.registry :=
      { image := if message.imageRef = "" then registry.image else message.imageRef
        imagePullSecrets := [message.registrySecretName] } }

/-- `UpdatePackageSource`, given the store's answer to its `Patch` call: the patched package, which
`Patch` writes back into `cfPackage`. -/
def updatePackageSource (patched : Except StoreError CFPackage) :
    Except RepoError PackageRecord :=
  match patched with
  | .error err => .error (.wrapped "err in client.Patch" err)
  | .ok cfPackage => .ok (cfPackageToPackageRecord ts cfPackage)

/-! ### Ordering -/

theorem orderPackages_perm (packages : List CFPackage) (message : ListPackagesMessage) :
    List.Perm (orderPackages packages message) packages :=
  slice_perm _ packages

def PackageOrder (message : ListPackagesMessage) (x y : CFPackage) : Prop :=
  if message.sortBy = "created_at" ∧ message.descendingOrder = true then
    y.objectMeta.creationTimestamp ≤ x.objectMeta.creationTimestamp
  else x.objectMeta.creationTimestamp ≤ y.objectMeta.creationTimestamp

theorem orderPackagesLess_comparator (message : ListPackagesMessage) :
    Comparator (orderPackagesLess message) (PackageOrder message) := by
  unfold orderPackagesLess PackageOrder
  split
  · exact not_before_comparator _
  · exact before_comparator _

theorem orderPackages_sorted (packages : List CFPackage) (message : ListPackagesMessage) :
    List.Sorted (PackageOrder message) (orderPackages packages message) :=
  slice_sorted (orderPackagesLess_comparator message) packages

/-! ### Filtering -/

theorem filterByField_eq (field : PackageRecord → String) (values : List String)
    (packages : List PackageRecord) :
    filterByField field values packages =
      packages.filter fun p => decide (values = [] ∨ field p ∈ values) := by
  unfold filterByField
  by_cases h : values = []
  · simp [h]
  · rw [if_pos (List.length_pos.2 h)]
    refine List.filter_congr fun p _ => ?_
    rw [Bool.eq_iff_iff, List.any_eq_true, decide_eq_true_iff]
    simp only [beq_iff_eq, exists_eq_right', h, false_or]

/-- Whether `applyPackageFilter` keeps a package: its app among `AppGUIDs` and its state among
`States`, an empty list admitting every value. -/
def PackageMatches (message : ListPackagesMessage) (record : PackageRecord) : Prop :=
  (message.appGUIDs = [] ∨ record.appGUID ∈ message.appGUIDs) ∧
    (message.states = [] ∨ record.state ∈ message.states)

instance (message : ListPackagesMessage) (record : PackageRecord) :
    Decidable (PackageMatches message record) :=
  inferInstanceAs (Decidable (_ ∧ _))

theorem applyPackageFilter_eq (packages : List PackageRecord) (message : ListPackagesMessage) :
    applyPackageFilter packages message =
      packages.filter fun record => decide (PackageMatches message record) := by
  simp only [applyPackageFilter, filterByField_eq, List.filter_filter, PackageMatches,
    Bool.decide_and, Bool.and_comm]

theorem listPackages_ok (items : List CFPackage) (message : ListPackagesMessage) :
    listPackages ts (.ok items) message =
      .ok (((orderPackages items message).filter fun p =>
        decide (PackageMatches message (cfPackageToPackageRecord ts p))).map
          (cfPackageToPackageRecord ts)) := by
  simp only [listPackages, convertToPackageRecords, applyPackageFilter_eq, List.filter_map]
  rfl

/-- `ListPackages` returns a rearrangement of the records of exactly the packages whose app is
among `AppGUIDs` and whose state, `READY` once an image is recorded and `AWAITING_UPLOAD` before,
is among `States`, each once per occurrence in the store's list; by creation time, non-increasing
for `SortBy` `created_at` with `DescendingOrder` and non-decreasing otherwise. -/
theorem listPackages_filters_and_orders (items : List CFPackage) (message : ListPackagesMessage) :
    ∃ packages : List CFPackage,
      listPackages ts (.ok items) message = .ok (packages.map (cfPackageToPackageRecord ts)) ∧
      List.Perm packages (items.filter fun p =>
        decide ((message.appGUIDs = [] ∨ p.spec.appRef ∈ message.appGUIDs) ∧
          (message.states = [] ∨
            (if p.spec.source.registry.image ≠ "" then "READY" else "AWAITING_UPLOAD") ∈
              message.states))) ∧
      (message.sortBy = "created_at" ∧ message.descendingOrder = true →
        List.Sorted (fun x y => y.objectMeta.creationTimestamp ≤ x.objectMeta.creationTimestamp)
          packages) ∧
      (¬(message.sortBy = "created_at" ∧ message.descendingOrder = true) →
        List.Sorted (fun x y => x.objectMeta.creationTimestamp ≤ y.objectMeta.creationTimestamp)
          packages) := by
  have hmatch : ∀ p : CFPackage, PackageMatches message (cfPackageToPackageRecord ts p) ↔
      ((message.appGUIDs = [] ∨ p.spec.appRef ∈ message.appGUIDs) ∧
        (message.states = [] ∨
          (if p.spec.source.registry.image ≠ "" then "READY" else "AWAITING_UPLOAD") ∈
            message.states)) := by
    intro p
    rw [PackageMatches, cfPackageToPackageRecord_appGUID, cfPackageToPackageRecord_state]
    by_cases h : p.spec.source.registry.image = "" <;> simp [h]
  have hsorted := (orderPackages_sorted items message).filter
    fun p => decide (PackageMatches message (cfPackageToPackageRecord ts p))
  refine ⟨_, listPackages_ok ts items message, ?_, fun h => ?_, fun h => ?_⟩
  · refine ((orderPackages_perm items message).filter _).trans (List.Perm.of_eq ?_)
    exact List.filter_congr fun p _ => by simp only [hmatch]
  · exact List.Pairwise.imp (fun hxy => by rwa [PackageOrder, if_pos h] at hxy) hsorted
  · exact List.Pairwise.imp (fun hxy => by rwa [PackageOrder, if_neg h] at hxy) hsorted

/-- When no stored package passes the message's filters, `ListPackages` returns no record, not an
error. -/
theorem listPackages_nonmatching_filter (items : List CFPackage) (message : ListPackagesMessage)
    (hnone : ∀ p ∈ items, ¬PackageMatches message (cfPackageToPackageRecord ts p)) :
    listPackages ts (.ok items) message = .ok [] := by
  rw [listPackages_ok, List.filter_eq_nil_iff.2 fun p hp => by
    simpa using hnone p ((orderPackages_perm items message).subset hp)]
  rfl

theorem listPackages_nonmatching_filter_of_other_app :
    let ts : Timestamps := ⟨fun _ => "", fun _ => "", fun _ => ""⟩
    let p : CFPackage := ⟨⟨"guid", "space", "uid", 0⟩, ⟨"bits", "a1", ⟨⟨"", []⟩⟩⟩⟩
    listPackages ts (.ok [p]) { appGUIDs := ["a2"] } = .ok [] :=
  listPackages_nonmatching_filter _ _ _ (by decide)

/-! ### Get against list -/

/-- With the zero message `ListPackages` returns the records of the whole collection, sorted. -/
theorem listPackages_empty_message (items : List CFPackage) :
    listPackages ts (.ok items) {} =
      .ok ((orderPackages items {}).map (cfPackageToPackageRecord ts)) := by
  rw [listPackages_ok]
  congr
  exact List.filter_eq_self.2 fun _ _ => by simp [PackageMatches]

theorem filter_guid_map (packages : List CFPackage) (g : String) :
    ((packages.map (cfPackageToPackageRecord ts)).filter fun r => decide (r.guid = g)) =
      (filterPackagesByMetadataName packages g).map (cfPackageToPackageRecord ts) := by
  simp only [List.filter_map, filterPackagesByMetadataName]
  rfl

/-- `GetPackage g` agrees with `ListPackages` with the zero message over the same collection, listed
in any order: it returns the one record with GUID `g` when the listing has exactly one, the
not-found error when it has none, and the duplicate error when it has two or more. -/
theorem getPackage_agrees_with_listPackages (items items' : List CFPackage)
    (hitems : List.Perm items items') (g : String) :
    ∃ records : List PackageRecord,
      listPackages ts (.ok items') {} = .ok records ∧
      (∀ r, getPackage ts (.ok items) g = .ok r ↔
        (records.filter fun r => decide (r.guid = g)) = [r]) ∧
      (getPackage ts (.ok items) g = .error (.permissionDeniedOrNotFound none "") ↔
        (records.filter fun r => decide (r.guid = g)) = []) ∧
      (getPackage ts (.ok items) g = .error (.text "duplicate packages exist") ↔
        2 ≤ (records.filter fun r => decide (r.guid = g)).length) := by
  refine ⟨_, listPackages_empty_message ts items', ?_⟩
  rw [filter_guid_map]
  have hperm : List.Perm (filterPackagesByMetadataName (orderPackages items' {}) g)
      (filterPackagesByMetadataName items g) :=
    ((orderPackages_perm items' {}).trans hitems.symm).filter _
  simp only [getPackage]
  generalize filterPackagesByMetadataName (orderPackages items' {}) g = listed at hperm
  rcases hmatches : filterPackagesByMetadataName items g with _ | ⟨p, _ | ⟨q, rest⟩⟩ <;>
    rw [hmatches] at hperm
  case nil =>
    simp [hperm.eq_nil, returnPackage]
  case cons.nil =>
    simp [List.perm_singleton.1 hperm, returnPackage, eq_comm]
  case cons.cons =>
    rcases listed with _ | ⟨x, _ | ⟨y, rest'⟩⟩
    · exact absurd hperm.length_eq (by simp)
    · exact absurd hperm.length_eq (by simp)
    · simp [returnPackage]

/-- Two packages with one GUID in two namespaces: `GetPackage` fails with the duplicate error, and
the listing holds both. -/
theorem getPackage_agrees_with_listPackages_across_namespaces :
    let ts : Timestamps := ⟨fun _ => "", fun _ => "", fun _ => ""⟩
    let p : CFPackage := ⟨⟨"guid", "space-a", "uid-a", 0⟩, ⟨"bits", "app", ⟨⟨"", []⟩⟩⟩⟩
    let q : CFPackage := ⟨⟨"guid", "space-b", "uid-b", 1⟩, ⟨"bits", "app", ⟨⟨"", []⟩⟩⟩⟩
    List.Perm [p, q] [q, p] ∧
      getPackage ts (.ok [p, q]) "guid" = .error (.text "duplicate packages exist") ∧
      ∃ records : List PackageRecord, listPackages ts (.ok [q, p]) {} = .ok records ∧
        2 ≤ (records.filter fun r => decide (r.guid = "guid")).length := by
  intro ts p q
  obtain ⟨records, hlist, -, -, hdup⟩ :=
    getPackage_agrees_with_listPackages ts [p, q] [q, p] (List.Perm.swap _ _ _) "guid"
  exact ⟨List.Perm.swap _ _ _, rfl, records, hlist, hdup.1 rfl⟩

/-! ### Creating a package -/

/-- A `CreatePackageMessage`, without the owner reference, which nothing modelled reads. -/
structure CreatePackageMessage where
  type : String
  appGUID : String
  spaceGUID : String
deriving DecidableEq, Repr

/-- `toCFPackage`, with the GUID `uuid.NewString()` returned: the package in the message's space,
with no source, and its UID and creation timestamp at their zero values until the store sets
them. -/
def CreatePackageMessage.toCFPackage (message : CreatePackageMessage) (guid : String) :
    CFPackage :=
  ⟨⟨guid, message.spaceGUID, "", 0⟩, ⟨message.type, message.appGUID, ⟨⟨"", []⟩⟩⟩⟩

/-- `CreatePackage`, given the store's answer to its `Create` call: the created object, which
`Create` writes back into `cfPackage`. -/
def createPackage (created : Except StoreError CFPackage) : Except RepoError PackageRecord :=
  match created with
  | .error err => .error (.store err)
  | .ok cfPackage => .ok (cfPackageToPackageRecord ts cfPackage)

end Korifi.Repositories
