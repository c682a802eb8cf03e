import Mathlib.Data.List.Basic

/-!
# Space manifests

`SpaceManifestHandler` serves two endpoints. `applyManifestHandler` decodes and validates the
manifest, builds a client from the request's `Authorization` header and runs the apply action with
it; `diffManifestHandler` answers an empty diff. `RegisterRoutes` wraps only the diff endpoint in
`validateSpaceVisible`, which lists the spaces and serves the request only if one of them has the
requested GUID (`validateSpaceVisible_eq`).

The response writers, the YAML decoder, `validatePayload` and `newMessageParseError` are not among
the sources: a response names the writer that writes it, and the decoder, the validation and the
parse error are the fields of a `PayloadDecoder`.
-/

namespace Korifi.Apis

def spaceManifestApplyEndpoint : String := "/v3/spaces/{spaceGUID}/actions/apply_manifest"

def spaceManifestDiffEndpoint : String := "/v3/spaces/{spaceGUID}/manifest_diff"

/-- A `requestMalformedError`: the status and the error response it writes. -/
structure RequestMalformedError (ErrorResponse : Type) where
  httpStatus : ℕ
  errorResponse : ErrorResponse
deriving DecidableEq, Repr

/-- What a manifest request brings: the route's space GUID, the `Authorization` header, the body. -/
structure ManifestRequest (Body : Type) where
  spaceGUID : String
  authorization : String
  body : Body

/-- The response a handler writes, by the writer that writes it. -/
inductive ManifestResponse (ErrorResponse : Type)
  | requestMalformed (rme : RequestMalformedError ErrorResponse)
  | unknownError
  | notFound (resourceType : String)
  /-- `202 Accepted`, with its `Location` header if it sets one, and its body. -/
  | accepted (location : Option String) (body : String)
deriving DecidableEq, Repr

/-- The YAML decoder's `Decode` into a manifest (`none` for its error), `validatePayload`, and
`newMessageParseError`. -/
structure PayloadDecoder (Body Manifest ErrorResponse : Type) where
  decode : Body → Option Manifest
  validatePayload : Manifest → Option (RequestMalformedError ErrorResponse)
  newMessageParseError : ErrorResponse

/-- The field of a `SpaceRecord` that `validateSpaceVisible` reads. -/
structure SpaceRecord where
  guid : String
deriving DecidableEq, Repr

/-- `SpaceManifestHandler` without its logger; the action, the space repository's `FetchSpaces` and
the client builder are their answers. -/
structure SpaceManifestHandler (E Manifest Client Config : Type) where
  serverURL : String
  applyManifestAction : Client → String → Manifest → Except E Unit
  fetchSpaces : List String → List String → Except E (List SpaceRecord)
  buildClient : Config → String → Except E Client
  k8sConfig : Config

variable {E Body Manifest ErrorResponse Client Config : Type}
  (decoder : PayloadDecoder Body Manifest ErrorResponse)

def decodeAndValidateYAMLPayload (body : Body) :
    Except (RequestMalformedError ErrorResponse) Manifest :=
  match decoder.decode body with
  | none => .error ⟨400, decoder.newMessageParseError⟩
  | some manifest =>
    match decoder.validatePayload manifest with
    | some rme => .error rme
    | none => .ok manifest

variable (h : SpaceManifestHandler E Manifest Client Config)

def SpaceManifestHandler.applyManifestHandler (request : ManifestRequest Body) :
    ManifestResponse ErrorResponse :=
  match decodeAndValidateYAMLPayload decoder request.body with
  | .error rme => .requestMalformed rme
  | .ok manifest =>
    match h.buildClient h.k8sConfig request.authorization with
    | .error _ => .unknownError
    | .ok client =>
      match h.applyManifestAction client request.spaceGUID manifest with
      | .error _ => .unknownError
      | .ok () =>
        .accepted (some (h.serverURL ++ "/v3/jobs/sync-space.apply_manifest-" ++ request.spaceGUID))
          ""

def SpaceManifestHandler.diffManifestHandler (_h : SpaceManifestHandler E Manifest Client Config)
    (_request : ManifestRequest Body) : ManifestResponse ErrorResponse :=
  .accepted none "\x7b\"diff\":[]\x7d"

/-- The loop of `validateSpaceVisible`: `spaceNotFound` once it has stopped at the first space with
the GUID, or run through them all. -/
def spaceNotFound (spaceGUID : String) : List SpaceRecord → Bool
  | [] => true
  | space :: spaces => if space.guid = spaceGUID then false else spaceNotFound spaceGUID spaces

theorem spaceNotFound_eq_false_iff (spaceGUID : String) (spaces : List SpaceRecord) :
    spaceNotFound spaceGUID spaces = false ↔ ∃ space ∈ spaces, space.guid = spaceGUID := by
  induction spaces with
  | nil => simp [spaceNotFound]
  | cons space spaces ih =>
    by_cases hguid : space.guid = spaceGUID <;> simp [spaceNotFound, hguid, ih]

def SpaceManifestHandler.validateSpaceVisible
    (hf : ManifestRequest Body → ManifestResponse ErrorResponse) (request : ManifestRequest Body) :
    ManifestResponse ErrorResponse :=
  match h.fetchSpaces [] [] with
  | .error _ => .unknownError
  | .ok spaces =>
    if spaceNotFound request.spaceGUID spaces then .notFound "Space"
    else hf request

/-- `validateSpaceVisible` serves a request exactly when `FetchSpaces` lists a space with its
GUID. -/
theorem validateSpaceVisible_eq (hf : ManifestRequest Body → ManifestResponse ErrorResponse)
    (request : ManifestRequest Body) :
    h.validateSpaceVisible hf request =
      match h.fetchSpaces [] [] with
      | .error _ => .unknownError
      | .ok spaces =>
        if ∃ space ∈ spaces, space.guid = request.spaceGUID then hf request
        else .notFound "Space" := by
  unfold SpaceManifestHandler.validateSpaceVisible
  split
  · rfl
  · rename_i spaces _
    by_cases hvisible : ∃ space ∈ spaces, space.guid = request.spaceGUID
    · rw [if_pos hvisible, if_neg (by simpa using (spaceNotFound_eq_false_iff _ _).2 hvisible)]
    · rw [if_neg hvisible, if_pos (by simpa using mt (spaceNotFound_eq_false_iff _ _).1 hvisible)]

/-- `RegisterRoutes`: the handler each endpoint path is served by. -/
def SpaceManifestHandler.registerRoutes (path : String) :
    Option (ManifestRequest Body → ManifestResponse ErrorResponse) :=
  if path = spaceManifestApplyEndpoint then some (h.applyManifestHandler decoder)
  else if path = spaceManifestDiffEndpoint then some (h.validateSpaceVisible h.diffManifestHandler)
  else none

end Korifi.Apis
