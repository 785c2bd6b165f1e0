import AiSaas.Lib.Transactions
import AiSaas.Python
import Mathlib.Data.Rat.Defs

/-!
# Run value objects

The records of `services/run_service/models.py`.  The checks of
`RunCreate.__post_init__` are fields of the structure; `RunCreate.make` is the
constructor that raises.

## Main definitions

* `RunState` — the states of a run, and `transitions`, the moves between them.
* `RunCreate`, `RunCreate.fingerprint` — a checked request and its hash.
* `Run`, `RunEvent`, `Checkpoint` — what the run store returns.
* `RunLibrary` — the parts of the standard library the run services call.
-/

namespace AiSaas

open Transaction

/-! ### States -/

/-- `RunState`. -/
inductive RunState where
  | queued
  | running
  | waitingApproval
  | quotaPaused
  | completed
  | failed
  | cancelled
  deriving DecidableEq, Repr, Inhabited

namespace RunState

/-- The text of a state. -/
def text : RunState → String
  | .queued => "queued"
  | .running => "running"
  | .waitingApproval => "waiting_approval"
  | .quotaPaused => "quota_paused"
  | .completed => "completed"
  | .failed => "failed"
  | .cancelled => "cancelled"

/-- `_TRANSITIONS`: the states a run may move to. -/
def transitions : RunState → List RunState
  | .queued => [.running, .failed, .cancelled, .quotaPaused]
  | .running => [.waitingApproval, .completed, .failed, .cancelled]
  | .waitingApproval => [.running, .failed, .cancelled]
  | .quotaPaused => [.queued, .cancelled]
  | .failed => [.queued]
  | .completed => []
  | .cancelled => []

/-- The states in which a run has come to an end. -/
def terminal (s : RunState) : Bool := s ∈ [.completed, .failed, .cancelled]

theorem text_injective : Function.Injective text := by
  intro s s' h
  cases s <;> cases s' <;> first | rfl | exact absurd h (by decide)

end RunState

/-! ### Requests -/

/-- A Python number; a float stands for a rational. -/
inductive Number where
  | int (n : ℤ)
  | float (x : ℚ)
  deriving DecidableEq

/-- `float(number)`. -/
def Number.value : Number → ℚ
  | .int n => n
  | .float x => x

/-- The parts of Python's standard library the run services call. -/
structure RunLibrary where
  /-- `json.dumps(value, sort_keys=True, separators=(",", ":"))`. -/
  dumps : Json → String
  /-- `hashlib.sha256(text.encode()).hexdigest()`. -/
  sha256 : String → String
  /-- `repr` of a float. -/
  floatRepr : ℚ → String
  /-- `repr` of a list or a dict. -/
  repr : Json → String

/-- A checked run request. -/
structure RunCreate where
  tenantId : String
  accountId : String
  projectId : String
  idempotencyKey : String
  traceId : String
  input : List (String × Json)
  reserveUnits : ℤ
  maxSteps : ℤ
  maxModelCalls : ℤ
  maxRuntimeSeconds : Number
  nonblank : ∀ v ∈ [tenantId, accountId, projectId, idempotencyKey, traceId], blank v = false
  key_length : 8 ≤ idempotencyKey.length ∧ 8 ≤ traceId.length
  positive : ∀ n ∈ [reserveUnits, maxSteps, maxModelCalls], 0 < n
  limits : maxSteps ≤ 32 ∧ maxModelCalls ≤ 32
  runtime_pos : 0 < maxRuntimeSeconds.value
  runtime_le : maxRuntimeSeconds.value ≤ 900

/-- `RunCreate.__post_init__`: the checks in their order. -/
def RunCreate.make (tenantId accountId projectId idempotencyKey traceId : String)
    (input : List (String × Json)) (reserveUnits maxSteps maxModelCalls : ℤ)
    (maxRuntimeSeconds : Number) : Except Error RunCreate :=
  match h : [("tenant_id", tenantId), ("account_id", accountId), ("project_id", projectId),
      ("idempotency_key", idempotencyKey), ("trace_id", traceId)].find?
      fun field => blank field.2 with
  | some (name, _) => .error (.valueError (name ++ " must be non-empty"))
  | none =>
    if hk : 8 ≤ idempotencyKey.length ∧ 8 ≤ traceId.length then
      match hp : [("reserve_units", reserveUnits), ("max_steps", maxSteps),
          ("max_model_calls", maxModelCalls)].find? fun field => decide (field.2 ≤ 0) with
      | some (name, _) => .error (.valueError (name ++ " must be a positive integer"))
      | none =>
        if hl : maxSteps ≤ 32 ∧ maxModelCalls ≤ 32 then
          if hr : 0 < maxRuntimeSeconds.value then
            if hm : maxRuntimeSeconds.value ≤ 900 then
              .ok ⟨tenantId, accountId, projectId, idempotencyKey, traceId, input, reserveUnits,
                maxSteps, maxModelCalls, maxRuntimeSeconds, by simp_all, hk, by simp_all, hl, hr, hm⟩
            else .error (.valueError "workflow runtime cannot exceed 900 seconds")
          else .error (.valueError "max_runtime_seconds must be positive")
        else .error (.valueError "workflow limits cannot exceed 32")
    else .error (.valueError "idempotency_key and trace_id must be at least 8 characters")

namespace RunCreate

variable (lib : RunLibrary) (request : RunCreate)

/-- The request's number as JSON. -/
def runtimeJson : Json :=
  match request.maxRuntimeSeconds with
  | .int n => .int n
  | .float x => .float (lib.floatRepr x)

/-- `fingerprint`: every field but the idempotency key, hashed. -/
def fingerprint : String :=
  lib.sha256 (lib.dumps (.obj
    [("tenant_id", .str request.tenantId), ("account_id", .str request.accountId),
      ("project_id", .str request.projectId), ("trace_id", .str request.traceId),
      ("input", .obj request.input), ("reserve_units", .int request.reserveUnits),
      ("max_steps", .int request.maxSteps), ("max_model_calls", .int request.maxModelCalls),
      ("max_runtime_seconds", request.runtimeJson lib)]))

end RunCreate

/-! ### What the store returns -/

/-- `Run`. -/
structure Run where
  runId : String
  tenantId : String
  accountId : String
  projectId : String
  idempotencyKey : String
  traceId : String
  input : List (String × Json)
  state : RunState
  sequence : ℕ
  reservationId : Option String
  cancelRequested : Bool
  workerAttempt : ℕ
  maxSteps : ℤ
  maxModelCalls : ℤ
  maxRuntimeSeconds : ℚ
  result : List (String × Json)

/-- `RunEvent`. -/
structure RunEvent where
  eventId : String
  runId : String
  tenantId : String
  sequence : ℕ
  event : String
  data : List (String × Json)
  createdAt : String

/-- `RunEvent.data_json`. -/
def RunEvent.dataJson (lib : RunLibrary) (e : RunEvent) : String :=
  lib.dumps (.obj
    [("contract_version", .str "v1"), ("event_id", .str e.eventId), ("event", .str e.event),
      ("run_id", .str e.runId), ("sequence", .int e.sequence), ("payload", .obj e.data)])

/-- `Checkpoint`. -/
structure Checkpoint where
  runId : String
  step : ℤ
  state : List (String × Json)
  inflightKey : Option String
  approvalId : Option String
  usageUnits : ℤ

end AiSaas
