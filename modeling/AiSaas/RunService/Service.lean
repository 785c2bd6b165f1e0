import AiSaas.RunService.Operations

/-!
# The run service

`RunService` of `services/run_service/service.py`: a run is created, counted in
its quota window, given a credit reservation and dispatched; it is approved and
cancelled.

## Main definitions

* `RunService` — which of the optional parts the service has.
* `RunService.createRun`, `approve`, `cancel` — the operations.
-/

namespace AiSaas

open Processes

/-- `RunService`: whether it has a workflow dispatcher, and a quota counter. -/
structure RunService where
  workflow : Bool
  quota : Bool

namespace RunService

/-- The idempotency key of a request's reservation. -/
def reserveKey (request : RunCreate) : String :=
  "run-reserve:" ++ request.tenantId ++ ":" ++ request.idempotencyKey

/-- The idempotency key of a run's release. -/
def releaseKey (runId : String) : String := "run-release:" ++ runId

/-- The message of `dispatch`. -/
def dispatchMessage (request : RunCreate) (run : Run) (reservation : CreditReservation) :
    List (String × String) :=
  [("run_id", run.runId), ("tenant_id", run.tenantId), ("trace_id", run.traceId),
    ("reservation_id", reservation.reservationId), ("idempotency_key", request.idempotencyKey)]

/-- `self._quota.release`, where the service has a counter. -/
def releaseQuota (service : RunService) (runId : String) : Program Unit :=
  if service.quota then askQuota (.release runId) else pure ()

/-- The release of a run's reservation, where it has one. -/
def releaseHold (run : Run) : Program Unit :=
  match present run.reservationId with
  | some id => do
    let _ ← releaseCredits id (releaseKey run.runId)
  | none => pure ()

/-- The `except` branch of `create_run`, for the run as its last assignment left it. -/
def compensate (service : RunService) (run : Run) (e : Error) : Program Run := do
  service.releaseQuota run.runId
  releaseHold run
  let _ ← askStore (.fail run.runId "workflow dispatch failed")
  Prog.raise e

/-- The `try` of `create_run`: reserve, attach, dispatch. -/
def hold (service : RunService) (request : RunCreate) (run : Run) : Program Run := do
  match ← Prog.attempt (reserveCredits request.tenantId request.accountId run.runId
      request.reserveUnits (reserveKey request)) with
  | .error e => service.compensate run e
  | .ok reservation =>
    match ← Prog.attempt (askStore (.attachReservation run.runId reservation.reservationId)) with
    | .error e => service.compensate run e
    | .ok (attached : Run) =>
      if service.workflow then
        match ← Prog.attempt
            (callOutside (.dispatch (dispatchMessage request attached reservation))) with
        | .error e => service.compensate attached e
        | .ok _ => askStore (.get attached.runId none)
      else askStore (.get attached.runId none)

/-- The quota step of `create_run`; a run without room is paused. -/
def admitRun (service : RunService) (request : RunCreate) (run : Run) : Program Run := do
  if service.quota then
    match ← Prog.attempt
        (askQuota (.reserve request.tenantId run.runId request.reserveUnits)) with
    | .error (.quotaExceeded dimension limit) => askStore (.pauseQuota run.runId dimension limit)
    | .error e => Prog.raise e
    | .ok _ => service.hold request run
  else service.hold request run

/-- The retry of a run that waits for its quota. -/
def resume (service : RunService) (request : RunCreate) (run : Run) : Program Run := do
  if service.quota then
    match ← Prog.attempt
        (askQuota (.reserve request.tenantId run.runId request.reserveUnits)) with
    | .error (.quotaExceeded _ _) => askStore (.get run.runId none)
    | .error e => Prog.raise e
    | .ok _ =>
      let run : Run ← askStore (.transition run.runId .queued [("reason", .str "quota_window_available")])
      service.hold request run
  else askStore (.get run.runId none)

/-- `create_run`, with the `uuid4` of its candidate id. -/
def createRun (service : RunService) (uuid : String) (request : RunCreate) : Program Run := do
  let (run, created) ← askStore (.create ("run-" ++ uuid) request)
  if created then service.admitRun request run
  else if run.reservationId ≠ none ∨ run.state ≠ .queued ∧ run.state ≠ .quotaPaused then
    askStore (.get run.runId none)
  else if run.state = .quotaPaused then service.resume request run
  else service.admitRun request run

/-- `approve`. -/
def approve (runId tenantId : String) : Program Run := askStore (.approve runId tenantId)

/-- `cancel`. -/
def cancel (runId tenantId : String) : Program Run := do
  let run : Run ← askStore (.markCancelRequested runId tenantId)
  if run.state = .cancelled then
    releaseHold run
    return run
  else return run

end RunService

end AiSaas
