import Mathlib.Data.List.Basic

/-!
# Reading an app's logs

`ReadAppLogs.Invoke` makes four repository calls in turn: `GetApp`, `GetLatestBuildByAppGUID` in
the app's space, `GetBuildLogs` of that build, and `GetRuntimeLogsForApp` for the app's revision
with the request's limit, 100 when it has none. It returns the build logs followed by the runtime
logs and stops at the first call that fails (`invoke_eq_ok`).

The repositories are not among the sources: `ReadAppLogs` holds the answers of the methods `Invoke`
calls, and `apierrors.ForbiddenAsNotFound` is an argument.
-/

namespace Korifi.Actions

/-- The fields of an `AppRecord` that `Invoke` reads. -/
structure AppRecord where
  guid : String
  spaceGUID : String
  revision : String
deriving DecidableEq, Repr

structure BuildRecord where
  guid : String
deriving DecidableEq, Repr

structure RuntimeLogsMessage where
  spaceGUID : String
  appGUID : String
  appRevision : String
  limit : ℤ
deriving DecidableEq, Repr

structure LogRead where
  limit : Option ℤ
deriving DecidableEq, Repr

/-- `ReadAppLogs`, with each repository as the answers of the method `Invoke` calls on it:
`appRepo.GetApp`, `buildRepo.GetLatestBuildByAppGUID` and `buildRepo.GetBuildLogs`, and
`podRepo.GetRuntimeLogsForApp`. -/
structure ReadAppLogs (E LogRecord : Type) where
  getApp : String → Except E AppRecord
  getLatestBuildByAppGUID : String → String → Except E BuildRecord
  getBuildLogs : String → String → Except E (List LogRecord)
  getRuntimeLogsForApp : RuntimeLogsMessage → Except E (List LogRecord)

def defaultLogLimit : ℤ := 100

variable {E LogRecord : Type} (a : ReadAppLogs E LogRecord) (forbiddenAsNotFound : E → E)

def ReadAppLogs.invoke (appGUID : String) (read : LogRead) : Except E (List LogRecord) := do
  let app ← (a.getApp appGUID).mapError forbiddenAsNotFound
  let build ← (a.getLatestBuildByAppGUID app.spaceGUID appGUID).mapError forbiddenAsNotFound
  let buildLogs ← a.getBuildLogs app.spaceGUID build.guid
  let logLimit := read.limit.getD defaultLogLimit
  let runtimeLogs ← a.getRuntimeLogsForApp
    ⟨app.spaceGUID, app.guid, app.revision, logLimit⟩
  pure (buildLogs ++ runtimeLogs)

private theorem except_bind_eq_ok {α β : Type} {x : Except E α} {f : α → Except E β} {b : β} :
    x >>= f = .ok b ↔ ∃ a, x = .ok a ∧ f a = .ok b := by
  cases x <;> simp [bind, Except.bind]

private theorem except_mapError_eq_ok {α : Type} {x : Except E α} {a : α} :
    x.mapError forbiddenAsNotFound = .ok a ↔ x = .ok a := by
  cases x <;> simp [Except.mapError]

/-- `Invoke` returns logs exactly when each of its four calls succeeds, the runtime logs read with
the request's limit or 100; the logs are the build's followed by the runtime ones. -/
theorem invoke_eq_ok {appGUID : String} {read : LogRead} {logs : List LogRecord} :
    a.invoke forbiddenAsNotFound appGUID read = .ok logs ↔
      ∃ app, a.getApp appGUID = .ok app ∧
        ∃ build, a.getLatestBuildByAppGUID app.spaceGUID appGUID = .ok build ∧
        ∃ buildLogs, a.getBuildLogs app.spaceGUID build.guid = .ok buildLogs ∧
        ∃ runtimeLogs, a.getRuntimeLogsForApp ⟨app.spaceGUID, app.guid, app.revision,
          read.limit.getD defaultLogLimit⟩ = .ok runtimeLogs ∧
        buildLogs ++ runtimeLogs = logs := by
  simp only [ReadAppLogs.invoke, except_bind_eq_ok, except_mapError_eq_ok, pure, Except.pure,
    Except.ok.injEq]

end Korifi.Actions
