import Korifi.Actions.ReadAppLogs
import Korifi.Apis.PackageUpload
import Korifi.Apis.SpaceManifest

/-!
# Creating and uploading packages

`packageCreateHandler` looks up the app a create request names with `GetApp`, and `CreatePackage`
builds a `CFPackage` for it, named by a fresh `uuid.NewString()` in the message's space, and asks
the store to create it; the store refuses a namespace and name it already has, sets the object's UID
and creation timestamp, and lists it where it chooses, the spec leaving the order of `List` open.
With the upload model of `Korifi.Apis.PackageUpload`, create requests and the store calls of upload
requests interleave along a list of events (`UploadSystem.runEvents`).

These facts hold over every run. Up to the order of the list, no package is removed, none changes
its metadata, type or app, and one with an image keeps one, so a `READY` package never goes back to
`AWAITING_UPLOAD`; the store grows only by packages that create requests stored, each for an app
`GetApp` returned (`runEvents_persists`). The image a package holds is the one it started with, or
the one an upload request for its GUID uploaded and then reported success for
(`runEvents_image_of_upload`). While the store keeps names unique within a namespace only,
`GetPackage` searches all of them: when the GUIDs the run draws are distinct and new to the starting
store, names stay unique across namespaces, and `packageGetHandler` answers a stored package's GUID
with its record and any other GUID with not-found (`runEvents_packageGetHandler`). The record a
create request answers with is, up to its state and update time, what `packageGetHandler` answers
for its GUID from then on (`packageCreateHandler_then_get`); and once an upload request has reported
success, `packageGetHandler` answers its GUID with a `READY` record (`run_packageGetHandler_ready`).
-/

namespace Korifi.Apis

open Repositories

/-! ### The store's `Create` -/

/-- The object as the store keeps it: with the UID and the creation timestamp it assigns. -/
def stamp (cfPackage : CFPackage) (uid : String) (creationTimestamp : ℤ) : CFPackage :=
  ⟨{ cfPackage.objectMeta with uid := uid, creationTimestamp := creationTimestamp },
    cfPackage.spec⟩

/-- Modelled from the spec: the store's `Create` call, `create(object) -> object | AlreadyExists`.
It refuses a namespace and name the store has, and otherwise adds the object with the UID and the
creation timestamp the store assigns. The spec leaves the order of `List` open, so the store lists
the new object at a place of its own: after its first `position` objects. -/
def PackageStore.create (store : PackageStore) (cfPackage : CFPackage) (uid : String)
    (creationTimestamp : ℤ) (position : ℕ) : PackageStore × Except StoreError CFPackage :=
  if hkey : packageKey cfPackage ∈ store.items.map packageKey then
    (store, .error (.status (.other "AlreadyExists") ""))
  else
    (⟨store.items.take position ++
        stamp cfPackage uid creationTimestamp :: store.items.drop position, by
        rw [((List.perm_middle.trans (by rw [List.take_append_drop])).map packageKey).nodup_iff,
          List.map_cons, List.nodup_cons]
        exact ⟨hkey, store.nodup⟩⟩,
      .ok (stamp cfPackage uid creationTimestamp))

/-- The `Create` call of `CreatePackage` for a message, with the GUID `toCFPackage` draws, the UID,
creation timestamp and place in the list the store gives the object, and the store's error if it
refuses the object for a reason of its own (a missing namespace, a failed validation). -/
def createCall (guid uid : String) (creationTimestamp : ℤ) (position : ℕ)
    (rejected : Option StoreError) (store : PackageStore) (message : CreatePackageMessage) :
    PackageStore × Except StoreError CFPackage :=
  match rejected with
  | some err => (store, .error err)
  | none => store.create (message.toCFPackage guid) uid creationTimestamp position

/-! ### Creating a package through the handler -/

/-- `payloads.PackageCreate`, which is not among the sources, as `packageCreateHandler` uses it:
the GUID of the app it names, `Relationships.App.Data.GUID`, and its `ToMessage`. -/
structure PackageCreate where
  appGUID : String
  toMessage : Actions.AppRecord → CreatePackageMessage

inductive PackageCreateResponse (ErrorResponse : Type)
  | requestMalformed (rme : RequestMalformedError ErrorResponse)
  | unprocessableEntity (detail : String)
  | unknownError
  /-- `201 Created`. -/
  | created (record : PackageRecord)
deriving DecidableEq, Repr

variable (ts : Timestamps) (registrySecretName : String) (requests : ℕ → UploadRequest)
variable {ErrorResponse : Type}

/-- `PackageHandler.packageCreateHandler`, given the decoded payload, the app repository's
`GetApp`, and `create`, the store's `Create` call for a message. -/
def packageCreateHandler (payload : Except (RequestMalformedError ErrorResponse) PackageCreate)
    (getApp : String → Except RepoError Actions.AppRecord)
    (create : PackageStore → CreatePackageMessage → PackageStore × Except StoreError CFPackage)
    (store : PackageStore) : PackageStore × PackageCreateResponse ErrorResponse :=
  match payload with
  | .error rme => (store, .requestMalformed rme)
  | .ok payload =>
    match getApp payload.appGUID with
    | .error (.permissionDeniedOrNotFound _ _) =>
      (store, .unprocessableEntity "App is invalid. Ensure it exists and you have access to it.")
    | .error _ => (store, .unknownError)
    | .ok appRecord =>
      let created := create store (payload.toMessage appRecord)
      match createPackage ts created.2 with
      | .error _ => (created.1, .unknownError)
      | .ok record => (created.1, .created record)

/-- A store call of the package handlers: a create request, with its payload as decoded, the app
repository's `GetApp`, and its `Create` call's GUID, UID, creation timestamp, place and refusal
(see `createCall`); or the next store call of upload request `i`. -/
inductive PackageEvent (ErrorResponse : Type)
  | create (payload : Except (RequestMalformedError ErrorResponse) PackageCreate)
      (getApp : String → Except RepoError Actions.AppRecord) (guid uid : String)
      (creationTimestamp : ℤ) (position : ℕ) (rejected : Option StoreError)
  | upload (i : ℕ)

/-- The GUID a create request draws when it reaches `CreatePackage`. -/
def PackageEvent.createdGUID : PackageEvent ErrorResponse → Option String
  | .create _ _ guid _ _ _ _ => some guid
  | .upload _ => none

/-- `cfPackage` is the package the create request `event` stored: its payload decoded, `GetApp`
returned the app it names, the store took the object, and `cfPackage` is the payload's message for
that app as the store keeps it. -/
def PackageEvent.Creates : PackageEvent ErrorResponse → CFPackage → Prop
  | .create (.ok request) getApp guid uid creationTimestamp _ none, cfPackage =>
    ∃ app, getApp request.appGUID = .ok app ∧
      cfPackage = stamp ((request.toMessage app).toCFPackage guid) uid creationTimestamp
  | _, _ => False

theorem PackageEvent.Creates.createdGUID {event : PackageEvent ErrorResponse}
    {cfPackage : CFPackage} (h : event.Creates cfPackage) :
    event.createdGUID = some cfPackage.objectMeta.name := by
  revert h
  rcases event with ⟨_ | request, getApp, guid, uid, creationTimestamp, position, _ | err⟩ | i <;>
    simp only [PackageEvent.Creates, false_implies]
  rintro ⟨app, -, rfl⟩
  rfl

theorem PackageEvent.Creates.image {event : PackageEvent ErrorResponse} {cfPackage : CFPackage}
    (h : event.Creates cfPackage) : cfPackage.spec.source.registry.image = "" := by
  revert h
  rcases event with ⟨_ | request, getApp, guid, uid, creationTimestamp, position, _ | err⟩ | i <;>
    simp only [PackageEvent.Creates, false_implies]
  rintro ⟨app, -, rfl⟩
  rfl

/-- Everything a create request does, as one fact: it leaves the store and does not answer
`created`, or the store took the package the request creates and the answer is that package's
record. -/
theorem packageCreateHandler_stores
    (payload : Except (RequestMalformedError ErrorResponse) PackageCreate)
    (getApp : String → Except RepoError Actions.AppRecord) (guid uid : String)
    (creationTimestamp : ℤ) (position : ℕ) (rejected : Option StoreError)
    {store store' : PackageStore} {response : PackageCreateResponse ErrorResponse}
    (h : packageCreateHandler ts payload getApp
      (createCall guid uid creationTimestamp position rejected) store = (store', response)) :
    (store' = store ∧ ∀ record, response ≠ .created record) ∨
      ∃ cfPackage,
        (PackageEvent.create payload getApp guid uid creationTimestamp position rejected).Creates
          cfPackage ∧
        store'.items.Perm (cfPackage :: store.items) ∧
        response = .created (cfPackageToPackageRecord ts cfPackage) := by
  rcases payload with rme | request
  · cases h
    exact .inl ⟨rfl, fun _ h => by cases h⟩
  rcases happ : getApp request.appGUID with err | app
  · cases err <;> simp only [packageCreateHandler, happ] at h <;> cases h <;>
      exact .inl ⟨rfl, fun _ h => by cases h⟩
  rcases rejected with _ | err
  · by_cases hkey : packageKey ((request.toMessage app).toCFPackage guid) ∈
        store.items.map packageKey <;>
      simp only [packageCreateHandler, happ, createCall, PackageStore.create, hkey, dif_pos,
        dif_neg, not_false_eq_true, createPackage] at h <;>
      cases h
    · exact .inl ⟨rfl, fun _ h => by cases h⟩
    · exact .inr ⟨_, ⟨app, happ, rfl⟩, List.perm_middle.trans (by rw [List.take_append_drop]),
        rfl⟩
  · simp only [packageCreateHandler, happ, createCall, createPackage] at h
    cases h
    exact .inl ⟨rfl, fun _ h => by cases h⟩

/-! ### Runs of creations and uploads -/

/-- One event: a create request changes the store only, an upload call is `UploadSystem.step`. -/
def UploadSystem.handle (sys : UploadSystem) : PackageEvent ErrorResponse → UploadSystem
  | .create payload getApp guid uid creationTimestamp position rejected =>
    ⟨(packageCreateHandler ts payload getApp
      (createCall guid uid creationTimestamp position rejected) sys.store).1, sys.phase⟩
  | .upload i => sys.step ts registrySecretName requests i

def UploadSystem.runEvents (sys : UploadSystem) : List (PackageEvent ErrorResponse) → UploadSystem
  | [] => sys
  | event :: events => (sys.handle ts registrySecretName requests event).runEvents events

theorem UploadSystem.handle_create (sys : UploadSystem)
    (payload : Except (RequestMalformedError ErrorResponse) PackageCreate)
    (getApp : String → Except RepoError Actions.AppRecord) (guid uid : String)
    (creationTimestamp : ℤ) (position : ℕ) (rejected : Option StoreError) :
    let event := PackageEvent.create payload getApp guid uid creationTimestamp position rejected
    (sys.handle ts registrySecretName requests event).store = sys.store ∨
      ∃ cfPackage, event.Creates cfPackage ∧
        (sys.handle ts registrySecretName requests event).store.items.Perm
          (cfPackage :: sys.store.items) := by
  rcases packageCreateHandler_stores ts payload getApp guid uid creationTimestamp position rejected
    rfl with ⟨h, -⟩ | ⟨cfPackage, hcreates, h, -⟩
  · exact .inl h
  · exact .inr ⟨cfPackage, hcreates, h⟩

/-! ### Nothing is lost -/

/-- What became of a package: the same metadata, type and app, and an image if it had one. -/
def Persists (cfPackage cfPackage' : CFPackage) : Prop :=
  cfPackage'.objectMeta = cfPackage.objectMeta ∧ cfPackage'.spec.type = cfPackage.spec.type ∧
    cfPackage'.spec.appRef = cfPackage.spec.appRef ∧
    (cfPackage.spec.source.registry.image ≠ "" → cfPackage'.spec.source.registry.image ≠ "")

theorem Persists.refl (cfPackage : CFPackage) : Persists cfPackage cfPackage :=
  ⟨rfl, rfl, rfl, id⟩

theorem Persists.trans {p p' p'' : CFPackage} (h : Persists p p') (h' : Persists p' p'') :
    Persists p p'' :=
  ⟨h'.1.trans h.1, h'.2.1.trans h.2.1, h'.2.2.1.trans h.2.2.1, h'.2.2.2 ∘ h.2.2.2⟩

theorem Persists.patchAt (message : UpdatePackageSourceMessage) (cfPackage : CFPackage) :
    Persists cfPackage (patchAt message cfPackage) := by
  refine ⟨patchAt_objectMeta message cfPackage, ?_, ?_, image_patchAt_ne message⟩ <;>
    unfold Korifi.Apis.patchAt <;> split <;> rfl

/-- What one event does to the store, up to the order of its list: an upload call patches packages
in place, a create request adds at most the package it creates. -/
theorem UploadSystem.handle_items (sys : UploadSystem) (event : PackageEvent ErrorResponse) :
    ∃ (g : CFPackage → CFPackage) (added : List CFPackage),
      (sys.handle ts registrySecretName requests event).store.items.Perm
        (sys.store.items.map g ++ added) ∧
      (∀ p, Persists p (g p)) ∧ ∀ q ∈ added, event.Creates q := by
  cases event with
  | create payload getApp guid uid creationTimestamp position rejected =>
    rcases sys.handle_create ts registrySecretName requests payload getApp guid uid
      creationTimestamp position rejected with h | ⟨cfPackage, hcreates, h⟩
    · exact ⟨id, [], by simp [h], Persists.refl, by simp⟩
    · refine ⟨id, [cfPackage], ?_, Persists.refl, by simpa using hcreates⟩
      rw [List.map_id]
      exact h.trans (List.perm_append_singleton _ _).symm
  | upload i =>
    rcases stepRequest_items ts registrySecretName (requests i) (sys.phase i) sys.store with
      h | ⟨record, uploadedImageRef, h⟩
    · exact ⟨id, [], by simp [UploadSystem.handle, h], Persists.refl, by simp⟩
    · exact ⟨patchAt (uploadMessage registrySecretName (requests i) record uploadedImageRef), [],
        by simp [UploadSystem.handle, h], Persists.patchAt _, by simp⟩

theorem UploadSystem.runEvents_keeps (sys : UploadSystem)
    (events : List (PackageEvent ErrorResponse)) {p : CFPackage} (hp : p ∈ sys.store.items) :
    ∃ p' ∈ (sys.runEvents ts registrySecretName requests events).store.items, Persists p p' := by
  induction events generalizing sys p with
  | nil => exact ⟨p, hp, Persists.refl p⟩
  | cons event events ih =>
    obtain ⟨g, added, hg, hgp, -⟩ := sys.handle_items ts registrySecretName requests event
    have hgmem : g p ∈ (sys.handle ts registrySecretName requests event).store.items :=
      hg.symm.subset (List.mem_append_left _ (List.mem_map_of_mem g hp))
    obtain ⟨p', hp', hpersist⟩ := ih _ hgmem
    exact ⟨p', hp', (hgp p).trans hpersist⟩

/-- Along every run of create requests and upload calls, from any state, the store holds, in some
order, what became of the packages stored before and of packages the run's create requests stored,
each for an app `GetApp` returned: no package is removed, each keeps its metadata, type and app,
and each with an image keeps one, so a `READY` package never goes back to `AWAITING_UPLOAD`. -/
theorem runEvents_persists (sys : UploadSystem) (events : List (PackageEvent ErrorResponse)) :
    ∃ (f : CFPackage → CFPackage) (added : List CFPackage),
      (sys.runEvents ts registrySecretName requests events).store.items.Perm
        (sys.store.items.map f ++ added) ∧
      (∀ p, Persists p (f p)) ∧
      ∀ q ∈ added, ∃ event ∈ events, ∃ created, event.Creates created ∧ Persists created q := by
  induction events generalizing sys with
  | nil => exact ⟨id, [], by simp [UploadSystem.runEvents], Persists.refl, by simp⟩
  | cons event events ih =>
    obtain ⟨g, new, hg, hgp, hnew⟩ := sys.handle_items ts registrySecretName requests event
    obtain ⟨f, added, hf, hfp, hadded⟩ := ih (sys.handle ts registrySecretName requests event)
    refine ⟨f ∘ g, new.map f ++ added, ?_, fun p => (hgp p).trans (hfp (g p)), ?_⟩
    · rw [← List.map_map, ← List.append_assoc, ← List.map_append]
      exact hf.trans ((hg.map f).append_right added)
    · intro q hq
      rcases List.mem_append.1 hq with hq | hq
      · obtain ⟨q₀, hq₀, rfl⟩ := List.mem_map.1 hq
        exact ⟨event, List.mem_cons_self _ _, q₀, hnew q₀ hq₀, hfp q₀⟩
      · obtain ⟨event', hevent', hcreated⟩ := hadded q hq
        exact ⟨event', List.mem_cons_of_mem _ hevent', hcreated⟩

/-! ### Where images come from -/

theorem stepRequest_uploaded (request : UploadRequest) (record : PackageRecord)
    (uploadedImageRef : String) (store : PackageStore) :
    (stepRequest ts registrySecretName request (.uploaded record uploadedImageRef) store).2 =
        store ∨
      (stepRequest ts registrySecretName request (.uploaded record uploadedImageRef)
          store).2.items =
        store.items.map
          (patchAt (uploadMessage registrySecretName request record uploadedImageRef)) ∧
      ∃ record', (stepRequest ts registrySecretName request (.uploaded record uploadedImageRef)
        store).1 = .responded (.ok record') := by
  simp only [stepRequest, uploadPatch, PackageStore.patch]
  split
  · exact .inl rfl
  · exact .inr ⟨rfl, _, rfl⟩

theorem image_patchAt (message : UpdatePackageSourceMessage) (cfPackage : CFPackage) :
    (patchAt message cfPackage).spec.source.registry.image =
        cfPackage.spec.source.registry.image ∨
      packageKey cfPackage = (message.spaceGUID, message.guid) ∧
        (patchAt message cfPackage).spec.source.registry.image = message.imageRef := by
  unfold patchAt mergePackageSource
  split
  · rename_i hkey
    dsimp only
    split
    · exact .inl rfl
    · exact .inr ⟨hkey, rfl⟩
  · exact .inl rfl

theorem stepRequest_uploadedImageRef {request : UploadRequest} {phase : UploadPhase}
    {store : PackageStore} {record : PackageRecord} {uploadedImageRef : String}
    (h : (stepRequest ts registrySecretName request phase store).1 =
      .uploaded record uploadedImageRef) :
    request.uploadedImageRef = some uploadedImageRef := by
  rcases phase with _ | ⟨record₀, uploadedImageRef₀⟩ | response
  · simp only [stepRequest] at h
    split at h
    · cases h
    · rename_i hup
      cases h
      exact (uploadUntilPatch_ok ts hup).1
  · cases h
  · cases h

/-- Where the images in the store come from: a request past its `GetPackage` call holds the image
reference it uploaded, and every stored package with an image holds the image it had in `store₀`,
or the one an upload request for its GUID uploaded before answering with success. -/
structure ImagesUploaded (store₀ : PackageStore) (sys : UploadSystem) : Prop where
  uploaded : ∀ k record uploadedImageRef, sys.phase k = .uploaded record uploadedImageRef →
    (requests k).uploadedImageRef = some uploadedImageRef
  image : ∀ p ∈ sys.store.items, p.spec.source.registry.image ≠ "" →
    (∃ p₀ ∈ store₀.items, p₀.objectMeta = p.objectMeta ∧
      p₀.spec.source.registry.image = p.spec.source.registry.image) ∨
    ∃ k record, sys.phase k = .responded (.ok record) ∧
      (requests k).packageGUID = p.objectMeta.name ∧
      (requests k).uploadedImageRef = some p.spec.source.registry.image

theorem ImagesUploaded.initial (store : PackageStore) :
    ImagesUploaded requests store (UploadSystem.initial store) :=
  ⟨fun _ _ _ h => (by cases h), fun p hp _ => .inl ⟨p, hp, rfl, rfl⟩⟩

theorem ImagesUploaded.carry {store₀ : PackageStore} {sys sys' : UploadSystem}
    (hinv : ImagesUploaded requests store₀ sys)
    (hkeep : ∀ k record, sys.phase k = .responded (.ok record) →
      sys'.phase k = .responded (.ok record))
    {p p' : CFPackage} (hp : p ∈ sys.store.items) (himage : p.spec.source.registry.image ≠ "")
    (hmeta : p'.objectMeta = p.objectMeta)
    (hsame : p'.spec.source.registry.image = p.spec.source.registry.image) :
    (∃ p₀ ∈ store₀.items, p₀.objectMeta = p'.objectMeta ∧
      p₀.spec.source.registry.image = p'.spec.source.registry.image) ∨
    ∃ k record, sys'.phase k = .responded (.ok record) ∧
      (requests k).packageGUID = p'.objectMeta.name ∧
      (requests k).uploadedImageRef = some p'.spec.source.registry.image := by
  rw [hmeta, hsame]
  rcases hinv.image p hp himage with ⟨p₀, hp₀, hmeta₀, himage₀⟩ | ⟨k, record, hk, hguid, href⟩
  · exact .inl ⟨p₀, hp₀, hmeta₀, himage₀⟩
  · exact .inr ⟨k, record, hkeep k record hk, hguid, href⟩

theorem ImagesUploaded.of_store_eq {store₀ : PackageStore} {sys sys' : UploadSystem}
    (hinv : ImagesUploaded requests store₀ sys)
    (hkeep : ∀ k record, sys.phase k = .responded (.ok record) →
      sys'.phase k = .responded (.ok record))
    (huploaded : ∀ k record uploadedImageRef, sys'.phase k = .uploaded record uploadedImageRef →
      (requests k).uploadedImageRef = some uploadedImageRef)
    (hstore : sys'.store = sys.store) : ImagesUploaded requests store₀ sys' :=
  ⟨huploaded, fun _ hp himage => hinv.carry requests hkeep (hstore ▸ hp) himage rfl rfl⟩

theorem ImagesUploaded.step {store₀ : PackageStore} {sys : UploadSystem}
    (hinv : ImagesUploaded requests store₀ sys) (i : ℕ) :
    ImagesUploaded requests store₀ (sys.step ts registrySecretName requests i) := by
  have hkeep : ∀ k record, sys.phase k = .responded (.ok record) →
      (sys.step ts registrySecretName requests i).phase k = .responded (.ok record) :=
    fun k record hk => UploadSystem.run_phase_of_responded ts registrySecretName requests hk [i]
  have huploaded : ∀ k record uploadedImageRef,
      (sys.step ts registrySecretName requests i).phase k = .uploaded record uploadedImageRef →
      (requests k).uploadedImageRef = some uploadedImageRef := by
    intro k record uploadedImageRef hk
    rw [UploadSystem.step_phase] at hk
    split_ifs at hk with hki
    · subst hki
      exact stepRequest_uploadedImageRef ts registrySecretName hk
    · exact hinv.uploaded k record uploadedImageRef hk
  rcases hphase : sys.phase i with _ | ⟨record, uploadedImageRef⟩ | response
  case start =>
    refine hinv.of_store_eq requests hkeep huploaded ?_
    rw [UploadSystem.step_store, hphase]
    simp only [stepRequest]
    split <;> rfl
  case responded =>
    exact hinv.of_store_eq requests hkeep huploaded
      (by rw [UploadSystem.step_store, hphase]; rfl)
  case uploaded =>
    rcases stepRequest_uploaded ts registrySecretName (requests i) record uploadedImageRef
      sys.store with hsame | ⟨hitems, record', hok⟩
    · exact hinv.of_store_eq requests hkeep huploaded
        (by rw [UploadSystem.step_store, hphase, hsame])
    refine ⟨huploaded, fun p' hp' himage' => ?_⟩
    rw [UploadSystem.step_store, hphase, hitems] at hp'
    obtain ⟨p, hp, rfl⟩ := List.mem_map.1 hp'
    rcases image_patchAt (uploadMessage registrySecretName (requests i) record uploadedImageRef) p
      with hsame | ⟨hkey, hwritten⟩
    · exact hinv.carry requests hkeep hp (hsame ▸ himage') (patchAt_objectMeta _ p) hsame
    · -- the patch wrote the image request `i` uploaded into `p`, and `i` answered with success
      refine .inr ⟨i, record', by rw [UploadSystem.step_phase, if_pos rfl, hphase, hok],
        by rw [patchAt_objectMeta]; exact (congrArg Prod.snd hkey).symm, ?_⟩
      rw [hwritten]
      exact hinv.uploaded i record uploadedImageRef hphase

theorem ImagesUploaded.handle {store₀ : PackageStore} {sys : UploadSystem}
    (hinv : ImagesUploaded requests store₀ sys) (event : PackageEvent ErrorResponse) :
    ImagesUploaded requests store₀ (sys.handle ts registrySecretName requests event) := by
  cases event with
  | create payload getApp guid uid creationTimestamp position rejected =>
    refine ⟨hinv.uploaded, fun p hp himage => ?_⟩
    rcases sys.handle_create ts registrySecretName requests payload getApp guid uid
      creationTimestamp position rejected with h | ⟨cfPackage, hcreates, h⟩
    · rw [h] at hp
      exact hinv.carry requests (fun _ _ => id) hp himage rfl rfl
    · rcases List.mem_cons.1 (h.subset hp) with rfl | hp
      · exact absurd hcreates.image himage
      · exact hinv.carry requests (fun _ _ => id) hp himage rfl rfl
  | upload i => exact hinv.step ts registrySecretName requests i

theorem ImagesUploaded.runEvents {store₀ : PackageStore} {sys : UploadSystem}
    (hinv : ImagesUploaded requests store₀ sys) (events : List (PackageEvent ErrorResponse)) :
    ImagesUploaded requests store₀ (sys.runEvents ts registrySecretName requests events) := by
  induction events generalizing sys with
  | nil => exact hinv
  | cons event events ih => exact ih (hinv.handle ts registrySecretName requests event)

/-- From the initial state, along every run of creations and upload calls, the image a stored
package holds is the image it had in the starting store, or the image an upload request for its
GUID uploaded and then answered with success for: no image reaches a package any other way. -/
theorem runEvents_image_of_upload (store : PackageStore)
    (events : List (PackageEvent ErrorResponse)) :
    let sys := (UploadSystem.initial store).runEvents ts registrySecretName requests events
    ∀ p ∈ sys.store.items, p.spec.source.registry.image ≠ "" →
      (∃ p₀ ∈ store.items, p₀.objectMeta = p.objectMeta ∧
        p₀.spec.source.registry.image = p.spec.source.registry.image) ∨
      ∃ k record, sys.phase k = .responded (.ok record) ∧
        (requests k).packageGUID = p.objectMeta.name ∧
        (requests k).uploadedImageRef = some p.spec.source.registry.image :=
  ((ImagesUploaded.initial requests store).runEvents ts registrySecretName requests events).image

/-! ### Names across namespaces -/

/-- The names of the stored packages, over every namespace. -/
def packageNames (items : List CFPackage) : List String :=
  items.map fun cfPackage => cfPackage.objectMeta.name

theorem filterPackagesByMetadataName_of_not_mem {items : List CFPackage} {guid : String}
    (h : guid ∉ packageNames items) : filterPackagesByMetadataName items guid = [] :=
  List.filter_eq_nil_iff.2 fun p hp => by
    simpa using fun heq : p.objectMeta.name = guid => h (heq ▸ List.mem_map_of_mem _ hp)

theorem filterPackagesByMetadataName_of_mem {items : List CFPackage}
    (hnames : (packageNames items).Nodup) {cfPackage : CFPackage} (hp : cfPackage ∈ items) :
    filterPackagesByMetadataName items cfPackage.objectMeta.name = [cfPackage] := by
  induction items with
  | nil => cases hp
  | cons q items ih =>
    rw [packageNames, List.map_cons, List.nodup_cons] at hnames
    rcases List.mem_cons.1 hp with rfl | hp
    · rw [filterPackagesByMetadataName, List.filter_cons_of_pos (by simp)]
      exact congrArg _ (filterPackagesByMetadataName_of_not_mem hnames.1)
    · have hne : q.objectMeta.name ≠ cfPackage.objectMeta.name :=
        fun heq => hnames.1 (heq ▸ List.mem_map_of_mem _ hp)
      rw [filterPackagesByMetadataName, List.filter_cons_of_neg (by simpa using hne)]
      exact ih hnames.2 hp

/-- `PackageHandler.packageGetHandler`, given the store's answer to `GetPackage`'s `List` call,
with the package handlers' responses. `errors.As` finds a `PermissionDeniedOrNotFoundError` here
only as the error itself: the repository never wraps one. -/
def packageGetHandler (packageList : Except StoreError (List CFPackage)) (packageGUID : String) :
    UploadResponse :=
  match getPackage ts packageList packageGUID with
  | .error (.permissionDeniedOrNotFound _ _) => .notFound "Package"
  | .error _ => .unknownError
  | .ok record => .ok record

theorem packageGetHandler_of_mem {items : List CFPackage} (hnames : (packageNames items).Nodup)
    {cfPackage : CFPackage} (hp : cfPackage ∈ items) :
    packageGetHandler ts (.ok items) cfPackage.objectMeta.name =
      .ok (cfPackageToPackageRecord ts cfPackage) := by
  simp only [packageGetHandler, getPackage, filterPackagesByMetadataName_of_mem hnames hp,
    returnPackage]

theorem packageGetHandler_of_not_mem {items : List CFPackage} {guid : String}
    (h : guid ∉ packageNames items) :
    packageGetHandler ts (.ok items) guid = .notFound "Package" := by
  simp only [packageGetHandler, getPackage, filterPackagesByMetadataName_of_not_mem h,
    returnPackage]

/-- Once an upload request has reported success after uploading a non-empty image, along every
interleaving of upload requests from the initial state, `packageGetHandler` answers its GUID with a
`READY` record of that GUID: no concurrent upload leaves the package unreadable or back in
`AWAITING_UPLOAD`. -/
theorem run_packageGetHandler_ready (store : PackageStore) (schedule : List ℕ) (k : ℕ)
    (record : PackageRecord)
    (hok : ((UploadSystem.initial store).run ts registrySecretName requests schedule).phase k =
      .responded (.ok record))
    (himage : (requests k).uploadedImageRef ≠ some "") :
    let items :=
      ((UploadSystem.initial store).run ts registrySecretName requests schedule).store.items
    ∃ record', packageGetHandler ts (.ok items) (requests k).packageGUID = .ok record' ∧
      record'.guid = (requests k).packageGUID ∧ record'.state = packageStateReady := by
  intro items
  have hinv := (UploadInvariant.initial requests store).run ts registrySecretName requests schedule
  obtain ⟨cfPackage, hmatch, hready⟩ :
      RequestInvariant (requests k) items (.responded (.ok record)) := hok ▸ hinv k
  refine ⟨cfPackageToPackageRecord ts cfPackage, ?_, name_of_filterPackagesByMetadataName hmatch,
    ?_⟩
  · simp only [packageGetHandler, getPackage, hmatch, returnPackage]
  · rw [cfPackageToPackageRecord_state, if_neg (hready himage)]
    rfl

theorem run_packageGetHandler_ready_after_upload :
    let ts : Timestamps := ⟨fun _ => "", fun _ => "", fun _ => ""⟩
    let cfPackage : CFPackage :=
      ⟨⟨"package-guid", "space-guid", "uid", 0⟩, ⟨"bits", "app-guid", ⟨⟨"", []⟩⟩⟩⟩
    let store : PackageStore := ⟨[cfPackage], by decide⟩
    let requests : ℕ → UploadRequest := fun i =>
      ⟨"package-guid", true, true, true, some (if i = 0 then "image-0" else "image-1")⟩
    let items := ((UploadSystem.initial store).run ts "registry-secret" requests
      [0, 1, 0, 1]).store.items
    ∃ record', packageGetHandler ts (.ok items) (requests 0).packageGUID = .ok record' ∧
      record'.guid = (requests 0).packageGUID ∧ record'.state = packageStateReady := by
  intro ts _ store requests items
  exact run_packageGetHandler_ready ts "registry-secret" requests store [0, 1, 0, 1] 0 _ rfl
    (by decide)

theorem UploadSystem.handle_names (sys : UploadSystem) (event : PackageEvent ErrorResponse) :
    packageNames (sys.handle ts registrySecretName requests event).store.items =
        packageNames sys.store.items ∨
      ∃ guid, event.createdGUID = some guid ∧
        (packageNames (sys.handle ts registrySecretName requests event).store.items).Perm
          (guid :: packageNames sys.store.items) := by
  cases event with
  | create payload getApp guid uid creationTimestamp position rejected =>
    rcases sys.handle_create ts registrySecretName requests payload getApp guid uid
      creationTimestamp position rejected with h | ⟨cfPackage, hcreates, h⟩
    · exact .inl (by rw [h])
    · exact .inr ⟨_, hcreates.createdGUID, h.map _⟩
  | upload i =>
    refine .inl ?_
    rcases stepRequest_items ts registrySecretName (requests i) (sys.phase i) sys.store with
      h | ⟨record, uploadedImageRef, h⟩
    · rw [UploadSystem.handle, UploadSystem.step_store, h]
    · simp [UploadSystem.handle, h, packageNames]

theorem runEvents_names_nodup (sys : UploadSystem) (events : List (PackageEvent ErrorResponse))
    (used : List String) (hnodup : (packageNames sys.store.items).Nodup)
    (hused : ∀ name ∈ packageNames sys.store.items, name ∈ used)
    (hdistinct : (events.filterMap PackageEvent.createdGUID).Nodup)
    (hnew : ∀ guid ∈ events.filterMap PackageEvent.createdGUID, guid ∉ used) :
    (packageNames (sys.runEvents ts registrySecretName requests events).store.items).Nodup := by
  induction events generalizing sys used with
  | nil => exact hnodup
  | cons event events ih =>
    have htail : (events.filterMap PackageEvent.createdGUID).Sublist
        ((event :: events).filterMap PackageEvent.createdGUID) :=
      (List.sublist_cons_self event events).filterMap _
    rcases sys.handle_names ts registrySecretName requests event with h | ⟨guid, hguid, h⟩
    · exact ih _ used (h ▸ hnodup) (h ▸ hused) (hdistinct.sublist htail)
        fun g hg => hnew g (htail.subset hg)
    · rw [List.filterMap_cons, hguid, List.nodup_cons] at hdistinct
      have hguid_new : guid ∉ used := hnew guid (by simp [List.filterMap_cons, hguid])
      refine ih _ (used ++ [guid]) ?_ ?_ hdistinct.2 fun g hg => ?_
      · exact h.nodup_iff.2 (List.nodup_cons.2 ⟨fun hmem => hguid_new (hused guid hmem), hnodup⟩)
      · intro name hname
        rcases List.mem_cons.1 (h.subset hname) with rfl | hname
        · exact List.mem_append_right _ (List.mem_singleton_self _)
        · exact List.mem_append_left _ (hused name hname)
      · rw [List.mem_append, List.mem_singleton, not_or]
        exact ⟨hnew g (htail.subset hg), fun heq => hdistinct.1 (heq ▸ hg)⟩

/-- Over a store whose names are unique, when the GUIDs a run's creations draw are distinct and new
to it: along the run, names stay unique across namespaces, and `packageGetHandler` answers the GUID
of each stored package with that package's record and any other GUID with not-found for
`Package`. -/
theorem runEvents_packageGetHandler (sys : UploadSystem)
    (events : List (PackageEvent ErrorResponse))
    (hnames : (packageNames sys.store.items).Nodup)
    (hdistinct : (events.filterMap PackageEvent.createdGUID).Nodup)
    (hnew : ∀ guid ∈ events.filterMap PackageEvent.createdGUID,
      guid ∉ packageNames sys.store.items) :
    let items := (sys.runEvents ts registrySecretName requests events).store.items
    (packageNames items).Nodup ∧
      (∀ p ∈ items, packageGetHandler ts (.ok items) p.objectMeta.name =
        .ok (cfPackageToPackageRecord ts p)) ∧
      ∀ guid, guid ∉ packageNames items →
        packageGetHandler ts (.ok items) guid = .notFound "Package" := by
  intro items
  have hunique : (packageNames items).Nodup :=
    runEvents_names_nodup ts registrySecretName requests sys events _ hnames (fun _ h => h)
      hdistinct hnew
  exact ⟨hunique, fun _ hp => packageGetHandler_of_mem ts hunique hp,
    fun _ hguid => packageGetHandler_of_not_mem ts hguid⟩

theorem runEvents_packageGetHandler_after_creation :
    let ts : Timestamps := ⟨fun _ => "", fun _ => "", fun _ => ""⟩
    let cfPackage : CFPackage :=
      ⟨⟨"package-guid", "space-guid", "uid", 0⟩, ⟨"bits", "app-guid", ⟨⟨"", []⟩⟩⟩⟩
    let store : PackageStore := ⟨[cfPackage], by decide⟩
    let requests : ℕ → UploadRequest := fun _ =>
      ⟨"package-guid", true, true, true, some "image"⟩
    let app : Actions.AppRecord := ⟨"app-guid", "space-guid", "1"⟩
    let payload : PackageCreate := ⟨"app-guid", fun app => ⟨"bits", app.guid, app.spaceGUID⟩⟩
    let events : List (PackageEvent Unit) :=
      [.upload 0, .create (.ok payload) (fun _ => .ok app) "new-guid" "uid-2" 1 0 none, .upload 0]
    let items :=
      ((UploadSystem.initial store).runEvents ts "registry-secret" requests events).store.items
    (packageNames items).Nodup ∧
      (∀ p ∈ items, packageGetHandler ts (.ok items) p.objectMeta.name =
        .ok (cfPackageToPackageRecord ts p)) ∧
      ∀ guid, guid ∉ packageNames items →
        packageGetHandler ts (.ok items) guid = .notFound "Package" := by
  intro ts _ store requests _ _ events items
  exact runEvents_packageGetHandler ts "registry-secret" requests (UploadSystem.initial store)
    events (by decide) (by decide) (by decide)

/-- Over a store whose names are unique, when the GUIDs a create request and the run after it draw
are distinct and new to the store: once `packageCreateHandler` answers `created` with a record,
`packageGetHandler` answers that record's GUID, right after and along every later run of create
requests and upload calls, with a record of the same package, of the same GUID, UID, type, app,
space and creation time. -/
theorem packageCreateHandler_then_get (sys : UploadSystem)
    (payload : Except (RequestMalformedError ErrorResponse) PackageCreate)
    (getApp : String → Except RepoError Actions.AppRecord) (guid uid : String)
    (creationTimestamp : ℤ) (position : ℕ) (rejected : Option StoreError)
    (events : List (PackageEvent ErrorResponse)) (record : PackageRecord)
    (hnames : (packageNames sys.store.items).Nodup)
    (hdistinct : (guid :: events.filterMap PackageEvent.createdGUID).Nodup)
    (hnew : ∀ g ∈ guid :: events.filterMap PackageEvent.createdGUID,
      g ∉ packageNames sys.store.items)
    (hcreated : (packageCreateHandler ts payload getApp
      (createCall guid uid creationTimestamp position rejected) sys.store).2 = .created record) :
    let items := (sys.runEvents ts registrySecretName requests
      (.create payload getApp guid uid creationTimestamp position rejected :: events)).store.items
    ∃ record', packageGetHandler ts (.ok items) record.guid = .ok record' ∧
      record'.guid = record.guid ∧ record'.uid = record.uid ∧ record'.type = record.type ∧
      record'.appGUID = record.appGUID ∧ record'.spaceGUID = record.spaceGUID ∧
      record'.createdAt = record.createdAt := by
  intro items
  generalize hhandled : packageCreateHandler ts payload getApp
    (createCall guid uid creationTimestamp position rejected) sys.store = handled at hcreated
  obtain ⟨store', response⟩ := handled
  rcases packageCreateHandler_stores ts payload getApp guid uid creationTimestamp position rejected
    hhandled with ⟨-, hnot⟩ | ⟨cfPackage, -, hstore, hresponse⟩
  · exact absurd hcreated (hnot record)
  obtain rfl : record = cfPackageToPackageRecord ts cfPackage :=
    PackageCreateResponse.created.inj (hcreated.symm.trans hresponse)
  have hmem : cfPackage ∈ (sys.handle ts registrySecretName requests
      (.create payload getApp guid uid creationTimestamp position rejected)).store.items := by
    show cfPackage ∈ (packageCreateHandler ts payload getApp
      (createCall guid uid creationTimestamp position rejected) sys.store).1.items
    rw [hhandled]
    exact hstore.symm.subset (List.mem_cons_self _ _)
  obtain ⟨p', hp', hmeta, htype, happ, -⟩ :=
    UploadSystem.runEvents_keeps ts registrySecretName requests _ events hmem
  have hunique : (packageNames items).Nodup :=
    runEvents_names_nodup ts registrySecretName requests sys _ _ hnames (fun _ h => h) hdistinct
      hnew
  refine ⟨cfPackageToPackageRecord ts p', ?_, ?_⟩
  · rw [cfPackageToPackageRecord_guid, ← hmeta]
    exact packageGetHandler_of_mem ts hunique hp'
  · simp only [cfPackageToPackageRecord, hmeta, htype, happ, and_self]

theorem packageCreateHandler_then_get_after_upload :
    let ts : Timestamps := ⟨fun _ => "", fun _ => "", fun _ => ""⟩
    let store : PackageStore :=
      ⟨[⟨⟨"package-guid", "space-guid", "uid", 0⟩, ⟨"bits", "app-guid", ⟨⟨"", []⟩⟩⟩⟩], by decide⟩
    let requests : ℕ → UploadRequest := fun _ => ⟨"new-guid", true, true, true, some "image"⟩
    let app : Actions.AppRecord := ⟨"app-guid", "space-guid", "1"⟩
    let payload : PackageCreate := ⟨"app-guid", fun app => ⟨"bits", app.guid, app.spaceGUID⟩⟩
    let record : PackageRecord :=
      cfPackageToPackageRecord ts
        ⟨⟨"new-guid", "space-guid", "uid-2", 1⟩, ⟨"bits", "app-guid", ⟨⟨"", []⟩⟩⟩⟩
    let events : List (PackageEvent Unit) := [.upload 0, .upload 0]
    let items := ((UploadSystem.initial store).runEvents ts "registry-secret" requests
      (.create (.ok payload) (fun _ => .ok app) "new-guid" "uid-2" 1 0 none :: events)).store.items
    ∃ record', packageGetHandler ts (.ok items) record.guid = .ok record' ∧
      record'.guid = record.guid ∧ record'.uid = record.uid ∧ record'.type = record.type ∧
      record'.appGUID = record.appGUID ∧ record'.spaceGUID = record.spaceGUID ∧
      record'.createdAt = record.createdAt := by
  intro ts store requests app payload record events items
  exact packageCreateHandler_then_get ts "registry-secret" requests (UploadSystem.initial store)
    (.ok payload) (fun _ => .ok app) "new-guid" "uid-2" 1 0 none events record (by decide)
    (by decide) (by decide) rfl

end Korifi.Apis
