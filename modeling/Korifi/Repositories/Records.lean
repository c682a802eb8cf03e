import Korifi.GoSort.Data

/-!
# Store objects, records and errors

The shapes the repositories read from the store and hand back: the part of `metav1.ObjectMeta`
they read, `CFDomain` and `CFPackage`, the records `DomainRecord` and `PackageRecord` with their
mappers `cfDomainToDomainRecord` and `cfPackageToPackageRecord`, and the errors a repository call
returns.

Creation timestamps are whole seconds, the store's granularity, and `Before` is `<` on them. The
helpers that render a timestamp as text (`formatTimestamp`, `getTimeLastUpdatedTimestamp` and the
layout `TimestampFormat`) are not among the sources; the mappers take them as a `Timestamps`
argument, so every result here holds whatever they print.
-/

namespace Korifi.Repositories

/-- The fields of `metav1.ObjectMeta` the repositories read. -/
structure ObjectMeta where
  name : String
  «namespace» : String
  uid : String
  creationTimestamp : ℤ
deriving DecidableEq, Repr, Inhabited

/-- `metav1.Time.Before` on two creation timestamps. -/
def before (t u : ℤ) : Bool := decide (t < u)

theorem before_comparator {α : Type} (key : α → ℤ) :
    GoSort.Comparator (fun x y => before (key x) (key y)) fun x y => key x ≤ key y where
  total x y := le_total (key x) (key y)
  trans := le_trans
  le_of_less h := le_of_lt (by simpa [before] using h)
  le_of_not_less h := by simpa [before] using h

theorem not_before_comparator {α : Type} (key : α → ℤ) :
    GoSort.Comparator (fun x y => !before (key x) (key y)) fun x y => key y ≤ key x where
  total x y := le_total (key y) (key x)
  trans hxy hyz := le_trans hyz hxy
  le_of_less h := by simpa [before] using h
  le_of_not_less h := le_of_lt (by simpa [before] using h)

structure CFDomainSpec where
  name : String
deriving DecidableEq, Repr, Inhabited

/-- A `networkingv1alpha1.CFDomain`. -/
structure CFDomain where
  objectMeta : ObjectMeta
  spec : CFDomainSpec
deriving DecidableEq, Repr, Inhabited

/-- `Spec.Source.Registry` of a package: the image its bits were uploaded to and the names of the
secrets that pull it. -/
structure Registry where
  image : String
  imagePullSecrets : List String
deriving DecidableEq, Repr, Inhabited

structure PackageSource where
  registry : Registry
deriving DecidableEq, Repr, Inhabited

structure CFPackageSpec where
  type : String
  /-- `AppRef.Name`. -/
  appRef : String
  source : PackageSource
deriving DecidableEq, Repr, Inhabited

/-- A `workloadsv1alpha1.CFPackage`. -/
structure CFPackage where
  objectMeta : ObjectMeta
  spec : CFPackageSpec
deriving DecidableEq, Repr, Inhabited

structure DomainRecord where
  name : String
  guid : String
  createdAt : String
  updatedAt : String
deriving DecidableEq, Repr, Inhabited

structure PackageRecord where
  guid : String
  uid : String
  type : String
  appGUID : String
  spaceGUID : String
  state : String
  createdAt : String
  updatedAt : String
deriving DecidableEq, Repr, Inhabited

/-- The timestamp helpers the mappers call: `t.UTC().Format(TimestampFormat)` as `format`,
`formatTimestamp`, and `getTimeLastUpdatedTimestamp` with its error dropped. -/
structure Timestamps where
  format : ℤ → String
  formatTimestamp : ℤ → String
  getTimeLastUpdatedTimestamp : ObjectMeta → String

def packageStateAwaitingUpload : String := "AWAITING_UPLOAD"

def packageStateReady : String := "READY"

variable (ts : Timestamps)

def cfDomainToDomainRecord (cfDomain : CFDomain) : DomainRecord :=
  { name := cfDomain.spec.name
    guid := cfDomain.objectMeta.name
    createdAt := ts.format cfDomain.objectMeta.creationTimestamp
    updatedAt := ts.getTimeLastUpdatedTimestamp cfDomain.objectMeta }

/-- A package is `READY` once an image is recorded for it, `AWAITING_UPLOAD` before. -/
def cfPackageToPackageRecord (cfPackage : CFPackage) : PackageRecord :=
  let state :=
    if cfPackage.spec.source.registry.image ≠ "" then packageStateReady
    else packageStateAwaitingUpload
  { guid := cfPackage.objectMeta.name
    uid := cfPackage.objectMeta.uid
    spaceGUID := cfPackage.objectMeta.«namespace»
    type := cfPackage.spec.type
    appGUID := cfPackage.spec.appRef
    state := state
    createdAt := ts.formatTimestamp cfPackage.objectMeta.creationTimestamp
    updatedAt := ts.getTimeLastUpdatedTimestamp cfPackage.objectMeta }

@[simp] theorem cfDomainToDomainRecord_guid (cfDomain : CFDomain) :
    (cfDomainToDomainRecord ts cfDomain).guid = cfDomain.objectMeta.name := rfl

@[simp] theorem cfPackageToPackageRecord_guid (cfPackage : CFPackage) :
    (cfPackageToPackageRecord ts cfPackage).guid = cfPackage.objectMeta.name := rfl

@[simp] theorem cfPackageToPackageRecord_appGUID (cfPackage : CFPackage) :
    (cfPackageToPackageRecord ts cfPackage).appGUID = cfPackage.spec.appRef := rfl

theorem cfPackageToPackageRecord_state (cfPackage : CFPackage) :
    (cfPackageToPackageRecord ts cfPackage).state =
      if cfPackage.spec.source.registry.image = "" then "AWAITING_UPLOAD" else "READY" := by
  by_cases h : cfPackage.spec.source.registry.image = "" <;>
    simp [cfPackageToPackageRecord, h, packageStateReady, packageStateAwaitingUpload]

/-! ### Errors -/

/-- The `Status().Reason` of a `*k8serrors.StatusError`, as far as the repositories tell reasons
apart. -/
inductive StatusReason
  | notFound
  | unauthorized
  | other (reason : String)
deriving DecidableEq, Repr

/-- An error from the store's client: a `*k8serrors.StatusError`, or any other error. -/
inductive StoreError
  | status (reason : StatusReason) (message : String)
  | other (message : String)
deriving DecidableEq, Repr

/-- `err.Error()`. -/
def StoreError.error : StoreError → String
  | .status _ message => message
  | .other message => message

/-- The errors a repository call returns: `PermissionDeniedOrNotFoundError{Err, ResourceType}`, an
`errors.New` text, a store error passed through, and one wrapped by `fmt.Errorf` with `%w`. -/
inductive RepoError
  | permissionDeniedOrNotFound (err : Option StoreError) (resourceType : String)
  | text (message : String)
  | store (err : StoreError)
  | wrapped (context : String) (err : StoreError)
deriving DecidableEq, Repr

/-- `err.Error()`. Modelled from the tests in `errors_test.go` for `PermissionDeniedOrNotFoundError`,
whose method is not among the sources: the resource type, if any, before `not found`, and the
wrapped error after a colon. -/
def RepoError.error : RepoError → String
  | .permissionDeniedOrNotFound err resourceType =>
    let message := if resourceType = "" then "not found" else resourceType ++ " not found"
    match err with
    | none => message
    | some err => message ++ ": " ++ err.error
  | .text message => message
  | .store err => err.error
  | .wrapped context err => context ++ ": " ++ err.error

example : (RepoError.permissionDeniedOrNotFound (some (.other "wrapped error"))
    "Bar Resource").error = "Bar Resource not found: wrapped error" := by decide

end Korifi.Repositories
