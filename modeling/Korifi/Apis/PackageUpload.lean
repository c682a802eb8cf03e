import Korifi.Repositories.Package

/-!
# Concurrent package uploads

`PackageHandler.packageUploadHandler` makes two store calls: `GetPackage`, a `List` over every
namespace, and, if the package is still `AWAITING_UPLOAD`, `UpdatePackageSource`, an unconditional
merge `Patch`. The store applies each call atomically, but nothing holds between the two, so the
calls of several requests interleave.

`stepRequest` advances one request by one store call, with the work up to its next call, and
`UploadSystem.run` interleaves requests along a schedule of request indices. A request running
alone is the handler (`stepRequest_twice`).

The check does not make an upload exclusive. Once a request has reported success after storing a
non-empty image, every later `GetPackage` of that GUID sees `READY`, so a request that reads after
that point is rejected with the package-bits-already-uploaded error and leaves the store alone
(`upload_rejected_once_image_stored`). Two requests whose `GetPackage` calls both come before
either patch both pass the check, both patch and both report success, and the first one's image
is overwritten (`upload_both_succeed_when_reads_precede_patches`). That is the only way both
succeed: when the first reports success, the second has already read
(`both_succeed_only_if_read_precedes_patch`).

Whatever the interleaving, the requests write only the registry source, and only of packages whose
GUID one of them names (`run_patches_only_named_sources`).
-/

namespace Korifi.Apis

open Repositories

/-- The namespace and name the store keys an object by. -/
def packageKey (cfPackage : CFPackage) : String × String :=
  (cfPackage.objectMeta.«namespace», cfPackage.objectMeta.name)

/-- The store's packages, across namespaces, in the order its `List` call returns them. No two
share a namespace and a name. -/
structure PackageStore where
  items : List CFPackage
  nodup : (items.map packageKey).Nodup

/-- The patch of `UpdatePackageSource` applied where it lands: to the package with the message's
namespace and name. -/
def patchAt (message : UpdatePackageSourceMessage) (cfPackage : CFPackage) : CFPackage :=
  if packageKey cfPackage = (message.spaceGUID, message.guid) then
    mergePackageSource message cfPackage
  else cfPackage

@[simp] theorem mergePackageSource_objectMeta (message : UpdatePackageSourceMessage)
    (cfPackage : CFPackage) : (mergePackageSource message cfPackage).objectMeta =
      cfPackage.objectMeta := rfl

@[simp] theorem patchAt_objectMeta (message : UpdatePackageSourceMessage) (cfPackage : CFPackage) :
    (patchAt message cfPackage).objectMeta = cfPackage.objectMeta := by
  unfold patchAt
  split <;> rfl

theorem map_packageKey_patchAt (message : UpdatePackageSourceMessage) (items : List CFPackage) :
    (items.map (patchAt message)).map packageKey = items.map packageKey := by
  simp only [List.map_map]
  exact List.map_congr_left fun p _ => by simp [packageKey]

/-- The store's `Patch` call of `UpdatePackageSource`: the store after the call and the patched
package it answers with, or `NotFound` when no package has the message's namespace and name (the
store's message text is left out: the handler only logs it). -/
def PackageStore.patch (store : PackageStore) (message : UpdatePackageSourceMessage) :
    PackageStore × Except StoreError CFPackage :=
  match store.items.find? fun p => packageKey p == (message.spaceGUID, message.guid) with
  | none => (store, .error (.status .notFound ""))
  | some cfPackage =>
    (⟨store.items.map (patchAt message), (map_packageKey_patchAt message store.items).symm ▸
      store.nodup⟩, .ok (mergePackageSource message cfPackage))

/-! ### The handler -/

/-- What one upload request brings, and what the registry answers it. -/
structure UploadRequest where
  packageGUID : String
  /-- `r.ParseForm()` succeeds. -/
  formParsed : Bool
  /-- The form has a `bits` file. -/
  bits : Bool
  /-- `buildRegistryAuth` succeeds. -/
  registryAuth : Bool
  /-- The image reference `uploadSourceImage` returns, `none` for its error. -/
  uploadedImageRef : Option String
deriving DecidableEq, Repr

/-- The response the handler writes. -/
inductive UploadResponse
  | invalidRequest (detail : String)
  | unprocessableEntity (detail : String)
  | notFound (resourceType : String)
  | unknownError
  | packageBitsAlreadyUploaded
  | ok (record : PackageRecord)
deriving DecidableEq, Repr

variable (ts : Timestamps) (registrySecretName : String)

/-- `packageUploadHandler` up to its `UpdatePackageSource` call: the form, `GetPackage` over the
store's list, the `AWAITING_UPLOAD` check, `buildRegistryAuth` and `uploadSourceImage`. It ends with
a response, or with the record and the uploaded image's reference. -/
def uploadUntilPatch (request : UploadRequest) (items : List CFPackage) :
    Except UploadResponse (PackageRecord × String) :=
  if !request.formParsed then .error (.invalidRequest "Unable to parse body as multipart form")
  else if !request.bits then .error (.unprocessableEntity "Upload must include bits")
  else
    match getPackage ts (.ok items) request.packageGUID with
    | .error (.permissionDeniedOrNotFound _ _) => .error (.notFound "Package")
    | .error _ => .error .unknownError
    | .ok record =>
      if record.state ≠ packageStateAwaitingUpload then .error .packageBitsAlreadyUploaded
      else if !request.registryAuth then .error .unknownError
      else
        match request.uploadedImageRef with
        | none => .error .unknownError
        | some uploadedImageRef => .ok (record, uploadedImageRef)

/-- The message `packageUploadHandler` sends `UpdatePackageSource`: the uploaded image, for the
package in the namespace its record names. -/
def uploadMessage (request : UploadRequest) (record : PackageRecord) (uploadedImageRef : String) :
    UpdatePackageSourceMessage :=
  { guid := request.packageGUID
    spaceGUID := record.spaceGUID
    imageRef := uploadedImageRef
    registrySecretName := registrySecretName }

/-- The rest of `packageUploadHandler`: `UpdatePackageSource` and the response. -/
def uploadPatch (request : UploadRequest) (record : PackageRecord) (uploadedImageRef : String)
    (store : PackageStore) : PackageStore × UploadResponse :=
  let patched := store.patch (uploadMessage registrySecretName request record uploadedImageRef)
  (patched.1,
    match updatePackageSource ts patched.2 with
    | .ok record => .ok record
    | .error _ => .unknownError)

def packageUploadHandler (request : UploadRequest) (store : PackageStore) :
    PackageStore × UploadResponse :=
  match uploadUntilPatch ts request store.items with
  | .error response => (store, response)
  | .ok (record, uploadedImageRef) =>
    uploadPatch ts registrySecretName request record uploadedImageRef store

/-! ### Interleaving requests -/

/-- Where a request stands: before `GetPackage`, past the check with its image uploaded and
`UpdatePackageSource` to come, or answered. -/
inductive UploadPhase
  | start
  | uploaded (record : PackageRecord) (uploadedImageRef : String)
  | responded (response : UploadResponse)
deriving DecidableEq, Repr

/-- One store call of a request, with the handler's work up to the next. -/
def stepRequest (request : UploadRequest) : UploadPhase → PackageStore → UploadPhase × PackageStore
  | .start, store =>
    match uploadUntilPatch ts request store.items with
    | .error response => (.responded response, store)
    | .ok (record, uploadedImageRef) => (.uploaded record uploadedImageRef, store)
  | .uploaded record uploadedImageRef, store =>
    let next := uploadPatch ts registrySecretName request record uploadedImageRef store
    (.responded next.2, next.1)
  | .responded response, store => (.responded response, store)

/-- A request running alone is the handler. -/
theorem stepRequest_twice (request : UploadRequest) (store : PackageStore) :
    let first := stepRequest ts registrySecretName request .start store
    stepRequest ts registrySecretName request first.1 first.2 =
      (.responded (packageUploadHandler ts registrySecretName request store).2,
        (packageUploadHandler ts registrySecretName request store).1) := by
  rcases h : uploadUntilPatch ts request store.items with response | ⟨record, uploadedImageRef⟩ <;>
    simp only [stepRequest, packageUploadHandler, h]

/-- The store and every request's phase. -/
structure UploadSystem where
  store : PackageStore
  phase : ℕ → UploadPhase

def UploadSystem.initial (store : PackageStore) : UploadSystem := ⟨store, fun _ => .start⟩

variable (requests : ℕ → UploadRequest)

/-- Request `i` makes its next store call. -/
def UploadSystem.step (sys : UploadSystem) (i : ℕ) : UploadSystem :=
  let next := stepRequest ts registrySecretName (requests i) (sys.phase i) sys.store
  ⟨next.2, Function.update sys.phase i next.1⟩

@[simp] theorem UploadSystem.step_store (sys : UploadSystem) (i : ℕ) :
    (sys.step ts registrySecretName requests i).store =
      (stepRequest ts registrySecretName (requests i) (sys.phase i) sys.store).2 := rfl

@[simp] theorem UploadSystem.step_phase (sys : UploadSystem) (i k : ℕ) :
    (sys.step ts registrySecretName requests i).phase k =
      if k = i then (stepRequest ts registrySecretName (requests i) (sys.phase i) sys.store).1
      else sys.phase k :=
  Function.update_apply _ _ _ _

def UploadSystem.run (sys : UploadSystem) : List ℕ → UploadSystem
  | [] => sys
  | i :: schedule => (sys.step ts registrySecretName requests i).run schedule

theorem UploadSystem.run_append (sys : UploadSystem) (schedule schedule' : List ℕ) :
    sys.run ts registrySecretName requests (schedule ++ schedule') =
      (sys.run ts registrySecretName requests schedule).run ts registrySecretName requests
        schedule' := by
  induction schedule generalizing sys with
  | nil => rfl
  | cons i schedule ih => exact ih _

theorem UploadSystem.run_phase_of_responded {sys : UploadSystem} {i : ℕ} {response : UploadResponse}
    (h : sys.phase i = .responded response) (schedule : List ℕ) :
    (sys.run ts registrySecretName requests schedule).phase i = .responded response := by
  induction schedule generalizing sys with
  | nil => exact h
  | cons k schedule ih =>
    refine ih ?_
    rw [UploadSystem.step_phase]
    split_ifs with hik
    · subst hik
      rw [h]
      rfl
    · exact h

/-! ### Once an image is stored -/

theorem filterPackagesByMetadataName_patchAt (message : UpdatePackageSourceMessage)
    (items : List CFPackage) (name : String) :
    filterPackagesByMetadataName (items.map (patchAt message)) name =
      (filterPackagesByMetadataName items name).map (patchAt message) := by
  simp only [filterPackagesByMetadataName, List.filter_map]
  congr 1
  exact List.filter_congr fun p _ => by simp

theorem image_patchAt_ne (message : UpdatePackageSourceMessage) {cfPackage : CFPackage}
    (h : cfPackage.spec.source.registry.image ≠ "") :
    (patchAt message cfPackage).spec.source.registry.image ≠ "" := by
  unfold patchAt mergePackageSource
  split
  · dsimp only
    split <;> assumption
  · exact h

theorem find_packageKey {items : List CFPackage} {guid ns : String} {cfPackage : CFPackage}
    (hmatch : filterPackagesByMetadataName items guid = [cfPackage])
    (hns : cfPackage.objectMeta.«namespace» = ns) :
    items.find? (fun p => packageKey p == (ns, guid)) = some cfPackage := by
  have hmem : ∀ p, p ∈ items → p.objectMeta.name = guid → p = cfPackage := fun p hp hname =>
    List.mem_singleton.1 (hmatch ▸ List.mem_filter.2 ⟨hp, by simpa using hname⟩)
  have hself : cfPackage ∈ items ∧ cfPackage.objectMeta.name = guid := by
    have h := List.mem_filter.1 (hmatch ▸ List.mem_singleton_self cfPackage :
      cfPackage ∈ filterPackagesByMetadataName items guid)
    exact ⟨h.1, by simpa using h.2⟩
  cases hfind : items.find? fun p => packageKey p == (ns, guid) with
  | none =>
    exact absurd (List.find?_eq_none.1 hfind _ hself.1) (by simp [packageKey, hns, hself.2])
  | some p =>
    have hkey := List.find?_some hfind
    simp only [packageKey, beq_iff_eq, Prod.mk.injEq] at hkey
    rw [hmem p (List.mem_of_find?_eq_some hfind) hkey.2]

/-- What the store keeps true for one request along any run: a request past its check found
exactly one package with its GUID, which is still the only one, in the namespace its record
names; and a request that reported success after uploading a non-empty image left that package
with a non-empty image. -/
def RequestInvariant (request : UploadRequest) (items : List CFPackage) : UploadPhase → Prop
  | .start => True
  | .uploaded record uploadedImageRef =>
    request.uploadedImageRef = some uploadedImageRef ∧
    ∃ cfPackage, filterPackagesByMetadataName items request.packageGUID = [cfPackage] ∧
      cfPackage.objectMeta.«namespace» = record.spaceGUID
  | .responded (.ok _) =>
    ∃ cfPackage, filterPackagesByMetadataName items request.packageGUID = [cfPackage] ∧
      (request.uploadedImageRef ≠ some "" → cfPackage.spec.source.registry.image ≠ "")
  | .responded _ => True

def UploadInvariant (sys : UploadSystem) : Prop :=
  ∀ k, RequestInvariant (requests k) sys.store.items (sys.phase k)

theorem UploadInvariant.initial (store : PackageStore) :
    UploadInvariant requests (UploadSystem.initial store) :=
  fun _ => trivial

theorem uploadUntilPatch_ok {request : UploadRequest} {items : List CFPackage}
    {record : PackageRecord} {uploadedImageRef : String}
    (h : uploadUntilPatch ts request items = .ok (record, uploadedImageRef)) :
    request.uploadedImageRef = some uploadedImageRef ∧
    ∃ cfPackage, filterPackagesByMetadataName items request.packageGUID = [cfPackage] ∧
      record = cfPackageToPackageRecord ts cfPackage := by
  unfold uploadUntilPatch at h
  simp only [getPackage] at h
  rcases hmatch : filterPackagesByMetadataName items request.packageGUID with
    _ | ⟨cfPackage, _ | ⟨_, _⟩⟩ <;>
    simp only [hmatch, returnPackage] at h
  all_goals split_ifs at h
  rcases href : request.uploadedImageRef with _ | ref <;> rw [href] at h <;> cases h
  exact ⟨rfl, _, rfl, rfl⟩

theorem uploadPatch_of_unique {request : UploadRequest} {record : PackageRecord}
    (uploadedImageRef : String) {store : PackageStore} {cfPackage : CFPackage}
    (hmatch : filterPackagesByMetadataName store.items request.packageGUID = [cfPackage])
    (hns : cfPackage.objectMeta.«namespace» = record.spaceGUID) :
    (uploadPatch ts registrySecretName request record uploadedImageRef store).1.items =
        store.items.map
          (patchAt (uploadMessage registrySecretName request record uploadedImageRef)) ∧
      (uploadPatch ts registrySecretName request record uploadedImageRef store).2 =
        .ok (cfPackageToPackageRecord ts (mergePackageSource
          (uploadMessage registrySecretName request record uploadedImageRef) cfPackage)) := by
  simp only [uploadPatch, uploadMessage, PackageStore.patch, find_packageKey hmatch hns,
    updatePackageSource, true_and]

theorem uploadUntilPatch_ne_ok (request : UploadRequest) (items : List CFPackage)
    (record : PackageRecord) : uploadUntilPatch ts request items ≠ .error (.ok record) := by
  unfold uploadUntilPatch
  simp only [getPackage]
  rcases filterPackagesByMetadataName items request.packageGUID with _ | ⟨_, _ | ⟨_, _⟩⟩ <;>
    simp only [returnPackage] <;> split_ifs <;> simp
  split <;> simp

theorem patchAt_self {request : UploadRequest} {record : PackageRecord} {uploadedImageRef : String}
    {cfPackage : CFPackage} (hname : cfPackage.objectMeta.name = request.packageGUID)
    (hns : cfPackage.objectMeta.«namespace» = record.spaceGUID) :
    patchAt (uploadMessage registrySecretName request record uploadedImageRef) cfPackage =
      mergePackageSource (uploadMessage registrySecretName request record uploadedImageRef)
        cfPackage :=
  if_pos (by rw [packageKey, hname, hns]; rfl)

theorem name_of_filterPackagesByMetadataName {items : List CFPackage} {name : String}
    {cfPackage : CFPackage} (hmatch : filterPackagesByMetadataName items name = [cfPackage]) :
    cfPackage.objectMeta.name = name := by
  have h := (List.mem_filter.1 (hmatch ▸ List.mem_singleton_self cfPackage :
    cfPackage ∈ filterPackagesByMetadataName items name)).2
  simpa using h

theorem RequestInvariant.patchAt {request : UploadRequest} {items : List CFPackage}
    {phase : UploadPhase} (hinv : RequestInvariant request items phase)
    (message : UpdatePackageSourceMessage) :
    RequestInvariant request (items.map (patchAt message)) phase := by
  rcases phase with _ | ⟨record, uploadedImageRef⟩ | ⟨_ | _ | _ | _ | _ | record⟩ <;>
    try trivial
  · obtain ⟨href, cfPackage, hmatch, hns⟩ := hinv
    exact ⟨href, _, by rw [filterPackagesByMetadataName_patchAt, hmatch, List.map_singleton],
      by rw [patchAt_objectMeta, hns]⟩
  · obtain ⟨cfPackage, hmatch, himage⟩ := hinv
    exact ⟨_, by rw [filterPackagesByMetadataName_patchAt, hmatch, List.map_singleton],
      fun hne => image_patchAt_ne _ (himage hne)⟩

theorem stepRequest_items (request : UploadRequest) (phase : UploadPhase) (store : PackageStore) :
    (stepRequest ts registrySecretName request phase store).2.items = store.items ∨
      ∃ record uploadedImageRef, (stepRequest ts registrySecretName request phase store).2.items =
        store.items.map
          (patchAt (uploadMessage registrySecretName request record uploadedImageRef)) := by
  rcases phase with _ | ⟨record, uploadedImageRef⟩ | response
  · simp only [stepRequest]
    split <;> exact .inl rfl
  · simp only [stepRequest, uploadPatch, PackageStore.patch]
    split
    · exact .inl rfl
    · exact .inr ⟨_, _, rfl⟩
  · exact .inl rfl

theorem RequestInvariant.stepRequest {request : UploadRequest} {phase : UploadPhase}
    {store : PackageStore} (hinv : RequestInvariant request store.items phase) :
    let next := stepRequest ts registrySecretName request phase store
    RequestInvariant request next.2.items next.1 := by
  rcases phase with _ | ⟨record, uploadedImageRef⟩ | response
  · simp only [Korifi.Apis.stepRequest]
    rcases hup : uploadUntilPatch ts request store.items with response | ⟨record, uploadedImageRef⟩
    · rcases response with _ | _ | _ | _ | _ | record
      all_goals first | trivial | exact absurd hup (uploadUntilPatch_ne_ok ts _ _ record)
    · obtain ⟨href, cfPackage, hmatch, rfl⟩ := uploadUntilPatch_ok ts hup
      exact ⟨href, cfPackage, hmatch, rfl⟩
  · obtain ⟨href, cfPackage, hmatch, hns⟩ := hinv
    obtain ⟨hitems, hresponse⟩ :=
      uploadPatch_of_unique ts registrySecretName uploadedImageRef hmatch hns
    simp only [Korifi.Apis.stepRequest, hitems, hresponse]
    refine ⟨_, by rw [filterPackagesByMetadataName_patchAt, hmatch, List.map_singleton], ?_⟩
    intro hne
    have hne' : uploadedImageRef ≠ "" := fun h => hne (h ▸ href)
    rw [patchAt_self registrySecretName (name_of_filterPackagesByMetadataName hmatch) hns]
    simpa only [mergePackageSource, uploadMessage, if_neg hne'] using hne'
  · exact hinv

theorem UploadInvariant.step {sys : UploadSystem} (hinv : UploadInvariant requests sys) (i : ℕ) :
    UploadInvariant requests (sys.step ts registrySecretName requests i) := by
  intro k
  rw [UploadSystem.step_phase, UploadSystem.step_store]
  split_ifs with hki
  · subst hki
    exact (hinv k).stepRequest ts registrySecretName
  · rcases stepRequest_items ts registrySecretName (requests i) (sys.phase i) sys.store with
      h | ⟨record, uploadedImageRef, h⟩ <;> rw [h]
    · exact hinv k
    · exact (hinv k).patchAt _

theorem UploadInvariant.run {sys : UploadSystem} (hinv : UploadInvariant requests sys)
    (schedule : List ℕ) :
    UploadInvariant requests (sys.run ts registrySecretName requests schedule) := by
  induction schedule generalizing sys with
  | nil => exact hinv
  | cons i schedule ih => exact ih (hinv.step ts registrySecretName requests i)

/-! ### Lost updates -/

theorem uploadUntilPatch_of_ready {request : UploadRequest} {items : List CFPackage}
    {cfPackage : CFPackage} (hform : request.formParsed = true) (hbits : request.bits = true)
    (hmatch : filterPackagesByMetadataName items request.packageGUID = [cfPackage])
    (himage : cfPackage.spec.source.registry.image ≠ "") :
    uploadUntilPatch ts request items = .error .packageBitsAlreadyUploaded := by
  simp [uploadUntilPatch, hform, hbits, getPackage, hmatch, returnPackage,
    cfPackageToPackageRecord_state, himage, packageStateAwaitingUpload]

/-- Once a request has reported success after uploading a non-empty image, a request for the same
GUID whose `GetPackage` call comes later is rejected with the package-bits-already-uploaded error
and leaves the store as it is, whatever the schedule before. -/
theorem upload_rejected_once_image_stored (store : PackageStore) (schedule : List ℕ) (i j : ℕ)
    (record : PackageRecord)
    (hok : ((UploadSystem.initial store).run ts registrySecretName requests schedule).phase i =
      .responded (.ok record))
    (himage : (requests i).uploadedImageRef ≠ some "")
    (hstart : ((UploadSystem.initial store).run ts registrySecretName requests schedule).phase j =
      .start)
    (hguid : (requests j).packageGUID = (requests i).packageGUID)
    (hform : (requests j).formParsed = true) (hbits : (requests j).bits = true) :
    let sys := (UploadSystem.initial store).run ts registrySecretName requests schedule
    (sys.step ts registrySecretName requests j).phase j =
        .responded .packageBitsAlreadyUploaded ∧
      (sys.step ts registrySecretName requests j).store = sys.store := by
  have hinv := (UploadInvariant.initial requests store).run ts registrySecretName requests schedule
  obtain ⟨cfPackage, hmatch, hready⟩ :
      RequestInvariant (requests i) _ (.responded (.ok record)) := hok ▸ hinv i
  have hreject := uploadUntilPatch_of_ready ts hform hbits (hguid ▸ hmatch) (hready himage)
  simp only [UploadSystem.step_phase, UploadSystem.step_store, if_true, hstart, stepRequest,
    hreject, and_self]

theorem upload_rejected_once_image_stored_after_first_upload :
    let ts : Timestamps := ⟨fun _ => "", fun _ => "", fun _ => ""⟩
    let cfPackage : CFPackage :=
      ⟨⟨"package-guid", "space-guid", "uid", 0⟩, ⟨"bits", "app-guid", ⟨⟨"", []⟩⟩⟩⟩
    let store : PackageStore := ⟨[cfPackage], by decide⟩
    let requests : ℕ → UploadRequest := fun i =>
      ⟨"package-guid", true, true, true, some (if i = 0 then "image-0" else "image-1")⟩
    let sys := (UploadSystem.initial store).run ts "registry-secret" requests [0, 0]
    (sys.step ts "registry-secret" requests 1).phase 1 =
        .responded .packageBitsAlreadyUploaded ∧
      (sys.step ts "registry-secret" requests 1).store = sys.store :=
  upload_rejected_once_image_stored _ _ _ _ [0, 0] 0 1 _ rfl (by decide) rfl rfl rfl rfl

/-- Two requests whose `GetPackage` calls both come before either patch both pass the check, both
patch and both report success; the package keeps the second image, and the first request's
reported upload is lost. -/
theorem upload_both_succeed_when_reads_precede_patches :
    let ts : Timestamps := ⟨fun _ => "", fun _ => "", fun _ => ""⟩
    let cfPackage : CFPackage :=
      ⟨⟨"package-guid", "space-guid", "uid", 0⟩, ⟨"bits", "app-guid", ⟨⟨"", []⟩⟩⟩⟩
    let store : PackageStore := ⟨[cfPackage], by decide⟩
    let requests : ℕ → UploadRequest := fun i =>
      ⟨"package-guid", true, true, true, some (if i = 0 then "image-0" else "image-1")⟩
    let sys := (UploadSystem.initial store).run ts "registry-secret" requests [0, 1, 0, 1]
    (∃ record, sys.phase 0 = .responded (.ok record)) ∧
      (∃ record, sys.phase 1 = .responded (.ok record)) ∧
      sys.store.items.map (·.spec.source.registry.image) = ["image-1"] :=
  ⟨⟨_, rfl⟩, ⟨_, rfl⟩, rfl⟩

/-! ### When both succeed -/

theorem uploadUntilPatch_of_stored {request : UploadRequest} {items : List CFPackage}
    {cfPackage : CFPackage}
    (hmatch : filterPackagesByMetadataName items request.packageGUID = [cfPackage])
    (himage : cfPackage.spec.source.registry.image ≠ "") :
    ∃ response, uploadUntilPatch ts request items = .error response := by
  cases hform : request.formParsed
  · simp [uploadUntilPatch, hform]
  cases hbits : request.bits
  · simp [uploadUntilPatch, hform, hbits]
  exact ⟨_, uploadUntilPatch_of_ready ts hform hbits hmatch himage⟩

theorem run_ne_ok_of_start {sys : UploadSystem} (hinv : UploadInvariant requests sys) {i j : ℕ}
    {record : PackageRecord} (hok : sys.phase i = .responded (.ok record))
    (himage : (requests i).uploadedImageRef ≠ some "") (hstart : sys.phase j = .start)
    (hguid : (requests j).packageGUID = (requests i).packageGUID) (schedule : List ℕ)
    (record' : PackageRecord) :
    (sys.run ts registrySecretName requests schedule).phase j ≠ .responded (.ok record') := by
  induction schedule generalizing sys with
  | nil => simp [UploadSystem.run, hstart]
  | cons k schedule ih =>
    by_cases hkj : k = j
    · subst hkj
      obtain ⟨cfPackage, hmatch, hready⟩ :
          RequestInvariant (requests i) sys.store.items (.responded (.ok record)) := hok ▸ hinv i
      obtain ⟨response, hresponse⟩ :=
        uploadUntilPatch_of_stored ts (hguid ▸ hmatch) (hready himage)
      have hk : (sys.step ts registrySecretName requests k).phase k = .responded response := by
        simp only [UploadSystem.step_phase, if_true, hstart, stepRequest, hresponse]
      rw [UploadSystem.run, UploadSystem.run_phase_of_responded ts registrySecretName requests hk]
      rintro ⟨⟩
      exact uploadUntilPatch_ne_ok ts _ _ record' hresponse
    · refine ih (hinv.step ts registrySecretName requests k)
        (UploadSystem.run_phase_of_responded ts registrySecretName requests hok [k]) ?_
      rwa [UploadSystem.step_phase, if_neg (Ne.symm hkj)]

/-- Two requests for one GUID that both report success, the first after uploading a non-empty
image: at any point of the schedule where the first has reported success, the second has already
made its `GetPackage` call. A lost update needs the second read to come before the first patch. -/
theorem both_succeed_only_if_read_precedes_patch (store : PackageStore) (schedule : List ℕ)
    (i j : ℕ) (record record' : PackageRecord)
    (hj : ((UploadSystem.initial store).run ts registrySecretName requests schedule).phase j =
      .responded (.ok record'))
    (himage : (requests i).uploadedImageRef ≠ some "")
    (hguid : (requests j).packageGUID = (requests i).packageGUID) (n : ℕ)
    (hi : ((UploadSystem.initial store).run ts registrySecretName requests
      (schedule.take n)).phase i = .responded (.ok record)) :
    ((UploadSystem.initial store).run ts registrySecretName requests (schedule.take n)).phase j ≠
      .start := by
  intro hstart
  have hinv := (UploadInvariant.initial requests store).run ts registrySecretName requests
    (schedule.take n)
  refine run_ne_ok_of_start ts registrySecretName requests hinv hi himage hstart hguid
    (schedule.drop n) record' ?_
  rwa [← UploadSystem.run_append, List.take_append_drop]

theorem both_succeed_only_if_read_precedes_patch_interleaved :
    let ts : Timestamps := ⟨fun _ => "", fun _ => "", fun _ => ""⟩
    let cfPackage : CFPackage :=
      ⟨⟨"package-guid", "space-guid", "uid", 0⟩, ⟨"bits", "app-guid", ⟨⟨"", []⟩⟩⟩⟩
    let store : PackageStore := ⟨[cfPackage], by decide⟩
    let requests : ℕ → UploadRequest := fun i =>
      ⟨"package-guid", true, true, true, some (if i = 0 then "image-0" else "image-1")⟩
    ((UploadSystem.initial store).run ts "registry-secret" requests
      ([0, 1, 0, 1].take 3)).phase 1 ≠ .start := by
  intro ts _ store requests
  exact both_succeed_only_if_read_precedes_patch ts "registry-secret" requests store [0, 1, 0, 1]
    0 1 _ _ rfl (by decide) rfl 3 rfl

/-! ### What the requests write -/

/-- What the requests of `schedule` may have done to a package: merged a new source into it, if one
of them names its GUID, and nothing else. -/
def SourcePatched (schedule : List ℕ) (cfPackage cfPackage' : CFPackage) : Prop :=
  cfPackage'.objectMeta = cfPackage.objectMeta ∧ cfPackage'.spec.type = cfPackage.spec.type ∧
    cfPackage'.spec.appRef = cfPackage.spec.appRef ∧
    (cfPackage' = cfPackage ∨ ∃ k ∈ schedule, (requests k).packageGUID = cfPackage.objectMeta.name)

theorem SourcePatched.refl (schedule : List ℕ) (cfPackage : CFPackage) :
    SourcePatched requests schedule cfPackage cfPackage :=
  ⟨rfl, rfl, rfl, .inl rfl⟩

theorem SourcePatched.trans {i : ℕ} {schedule : List ℕ} {p p' p'' : CFPackage}
    (h : SourcePatched requests [i] p p') (h' : SourcePatched requests schedule p' p'') :
    SourcePatched requests (i :: schedule) p p'' := by
  obtain ⟨hmeta, htype, happ, hsame⟩ := h
  obtain ⟨hmeta', htype', happ', hsame'⟩ := h'
  refine ⟨hmeta'.trans hmeta, htype'.trans htype, happ'.trans happ, ?_⟩
  rcases hsame' with rfl | ⟨k, hk, hname⟩
  · rcases hsame with rfl | ⟨k, hk, hname⟩
    · exact .inl rfl
    · exact .inr ⟨k, List.mem_singleton.1 hk ▸ List.mem_cons_self i schedule, hname⟩
  · exact .inr ⟨k, List.mem_cons_of_mem _ hk, hname.trans (congrArg ObjectMeta.name hmeta)⟩

theorem SourcePatched.patchAt (i : ℕ) (record : PackageRecord) (uploadedImageRef : String)
    (cfPackage : CFPackage) :
    SourcePatched requests [i] cfPackage
      (patchAt (uploadMessage registrySecretName (requests i) record uploadedImageRef)
        cfPackage) := by
  unfold Korifi.Apis.patchAt
  split
  · rename_i hkey
    refine ⟨rfl, rfl, rfl, .inr ⟨i, List.mem_singleton_self i, ?_⟩⟩
    exact (congrArg Prod.snd hkey).symm
  · exact SourcePatched.refl requests _ _

theorem UploadSystem.step_sourcePatched (sys : UploadSystem) (i : ℕ) :
    ∃ g : CFPackage → CFPackage,
      (sys.step ts registrySecretName requests i).store.items = sys.store.items.map g ∧
      ∀ p, SourcePatched requests [i] p (g p) := by
  rw [UploadSystem.step_store]
  rcases stepRequest_items ts registrySecretName (requests i) (sys.phase i) sys.store with
    h | ⟨record, uploadedImageRef, h⟩
  · exact ⟨id, h.trans (List.map_id _).symm, SourcePatched.refl requests _⟩
  · exact ⟨_, h, SourcePatched.patchAt registrySecretName requests i record uploadedImageRef⟩

/-- Whatever the interleaving, from any state, the upload requests of a schedule only merge a new
source into packages whose GUID one of them names: every package keeps its metadata, its type and
its app, and none is added or removed. -/
theorem run_patches_only_named_sources (sys : UploadSystem) (schedule : List ℕ) :
    ∃ f : CFPackage → CFPackage,
      (sys.run ts registrySecretName requests schedule).store.items = sys.store.items.map f ∧
      ∀ p ∈ sys.store.items, SourcePatched requests schedule p (f p) := by
  induction schedule generalizing sys with
  | nil => exact ⟨id, (List.map_id _).symm, fun p _ => SourcePatched.refl requests _ p⟩
  | cons i schedule ih =>
    obtain ⟨g, hg, hgp⟩ := sys.step_sourcePatched ts registrySecretName requests i
    obtain ⟨f, hf, hfp⟩ := ih (sys.step ts registrySecretName requests i)
    refine ⟨f ∘ g, by rw [UploadSystem.run, hf, hg, List.map_map], fun p hp => ?_⟩
    exact SourcePatched.trans requests (hgp p) (hfp (g p) (hg ▸ List.mem_map_of_mem g hp))

end Korifi.Apis
