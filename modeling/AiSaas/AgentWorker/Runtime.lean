import AiSaas.RunService.Operations

/-!
# The bounded worker

`BoundedWorker.execute` of `services/agent_worker/runtime.py`: it claims a run,
takes up the checkpoint it finds, and calls the model step by step within the
run's limits.

## Main definitions

* `BoundedWorker` — which of the optional parts the worker has.
* `BoundedWorker.settleOrRelease` — `_settle_or_release`.
* `BoundedWorker.iterate`, `loop` — the body of the `while` and the `while`.
* `BoundedWorker.execute` — the operation.
-/

namespace AiSaas

open Processes

/-- `BoundedWorker`: its hooks, and whether it has a tracer. -/
structure BoundedWorker where
  lib : RunLibrary
  afterModel : Bool
  afterCommit : Bool
  tracer : Bool

/-- What a claimed run gives its worker: the run, its reservation, its deadline. -/
structure Claimed where
  run : Run
  reservation : String
  deadline : ℚ

/-- The variables of the loop. -/
structure LoopState where
  checkpoint : Option Checkpoint
  step : ℤ
  usedUnits : ℤ

namespace BoundedWorker

/-- The idempotency key of a run's commit. -/
def commitKey (runId : String) : String := "run-commit:" ++ runId

/-- The idempotency key of a run's release. -/
def releaseKey (runId : String) : String := "run-release:" ++ runId

/-- The idempotency key of a model call. -/
def modelKey (runId : String) (step : ℤ) : String := runId ++ ":model:" ++ toString step

/-- `_prompt`. -/
def prompt (worker : BoundedWorker) (run : Run) : String :=
  match (run.input.lookup "message").getD ((run.input.lookup "prompt").getD (.str "")) with
  | .str s => s
  | value => value.pyStr worker.lib.repr

/-- The key of the call that a checkpoint says is in flight, or a new one. -/
def inflightKey (runId : String) (s : LoopState) : String :=
  match s.checkpoint with
  | none => modelKey runId s.step
  | some checkpoint =>
    if checkpoint.step = s.step then
      (present checkpoint.inflightKey).getD (modelKey runId s.step)
    else modelKey runId s.step

/-- `state.get(key) is True`. -/
def isTrue (checkpoint : Checkpoint) (key : String) : Bool :=
  match Json.get checkpoint.state key with
  | .bool b => b
  | _ => false

/-- `_settle_or_release`. -/
def settleOrRelease (reservation : String) (usedUnits : ℤ) (runId : String) : Program Unit := do
  if usedUnits = 0 then
    let _ ← releaseCredits reservation (releaseKey runId)
  else
    match ← Prog.attempt (commitCredits reservation usedUnits (commitKey runId)) with
    | .ok _ => pure ()
    | .error e =>
      if e.isValueError then
        let _ ← releaseCredits reservation (releaseKey runId)
      else Prog.raise e

/-- The call of the model, within a span where the worker has a tracer. -/
def callModel (worker : BoundedWorker) (claimed : Claimed) (step : ℤ) (key : String) :
    Program ModelResult := do
  let ask : Program ModelResult := do
    let now ← askClock
    Prog.perform (Op.model (worker.prompt claimed.run) key
      (max (1 / 100) (claimed.deadline - now)))
  if worker.tracer then
    let _ ← callOutside (.startSpan "agent.model_call"
      [("run_id", .str claimed.run.runId), ("tenant_id", .str claimed.run.tenantId),
        ("trace_id", .str claimed.run.traceId), ("step", .int step)])
    -- the span is ended whether its body returns or raises
    let body : Program ModelResult := do
      let result ← ask
      let _ ← callOutside (.setAttribute "usage_units" (.int result.usageUnits))
      return result
    let result ← body.attempt
    let _ ← callOutside .endSpan
    match result with
    | .ok result => return result
    | .error e => Prog.raise e
  else ask

/-- A hook, where the worker has it. -/
def callHook (hook : Bool) (call : Outside) : Program Unit :=
  if hook then callOutside call else pure ()

/-- The end of a loop that ran out of steps or of model calls. -/
def exhausted (claimed : Claimed) (runId : String) (s : LoopState) : Program Run := do
  settleOrRelease claimed.reservation s.usedUnits runId
  askStore (.fail runId "workflow step or model-call limit exceeded")

/-- A step that asks for approval: announce it and wait. -/
def awaitApproval (runId approvalId : String) : Program Run := do
  let _ ← askStore (.appendToken runId "[approval required]")
  askStore (.transition runId .waitingApproval [("approval_id", .str approvalId)])

/-- The last step: commit what was used and complete the run. -/
def finish (worker : BoundedWorker) (claimed : Claimed) (runId : String) (usedUnits : ℤ) :
    Program Run := do
  match ← Prog.attempt (commitCredits claimed.reservation usedUnits (commitKey runId)) with
  | .error e =>
    if e.isValueError then
      settleOrRelease claimed.reservation 0 runId
      askStore (.fail runId "actual usage exceeded reservation")
    else Prog.raise e
  | .ok _ =>
    callHook worker.afterCommit (.afterCommit runId usedUnits)
    askStore (.complete runId usedUnits)

/-- The state saved with a result. -/
def resultState (step : ℤ) (result : ModelResult) : List (String × Json) :=
  [("step", .int step), ("last_output", .str result.output), ("done", .bool result.done),
    ("token_emitted", .bool false)]

/-- What follows the model's answer; `again` is the next turn of the loop. -/
def record (worker : BoundedWorker) (claimed : Claimed) (runId : String) (s : LoopState)
    (result : ModelResult) (again : LoopState → Program Run) : Program Run := do
  callHook worker.afterModel (.afterModel runId s.step result)
  let usedUnits := s.usedUnits + result.usageUnits
  let _ ← askStore (.saveCheckpoint runId (s.step + 1) (resultState (s.step + 1) result) none
    result.approvalId usedUnits)
  match present result.approvalId with
  | some approvalId => awaitApproval runId approvalId
  | none =>
    let _ ← askStore (.appendToken runId result.output)
    let checkpoint ← askStore (.checkpoint runId)
    if result.done then worker.finish claimed runId usedUnits
    else again ⟨checkpoint, s.step + 1, usedUnits⟩

/-- The body of the loop. -/
def iterate (worker : BoundedWorker) (claimed : Claimed) (runId : String) (s : LoopState)
    (again : LoopState → Program Run) : Program Run := do
  let current : Run ← askStore (.get runId none)
  if current.cancelRequested then
    settleOrRelease claimed.reservation s.usedUnits runId
    askStore (.transition runId .cancelled [("reason", .str "user_cancelled")])
  else
    let now ← askClock
    if claimed.deadline ≤ now then
      settleOrRelease claimed.reservation s.usedUnits runId
      askStore (.fail runId "workflow timeout")
    else
      let _ ← askStore (.saveCheckpoint runId s.step [("step", .int s.step)]
        (some (inflightKey runId s)) none s.usedUnits)
      let result ← worker.callModel claimed s.step (inflightKey runId s)
      worker.record claimed runId s result again

/-- The loop, with the model calls that are left. -/
def loop (worker : BoundedWorker) (claimed : Claimed) (runId : String) :
    ℕ → LoopState → Program Run
  | 0, s => exhausted claimed runId s
  | left + 1, s =>
    if s.step < claimed.run.maxSteps then
      worker.iterate claimed runId s (worker.loop claimed runId left)
    else exhausted claimed runId s

/-- The output of a saved last step, unless it is out already. -/
def putOut (worker : BoundedWorker) (runId : String) (checkpoint : Checkpoint) : Program Unit := do
  if isTrue checkpoint "token_emitted" then pure ()
  else
    let _ ← askStore (.appendToken runId
      (((checkpoint.state.lookup "last_output").getD (.str "")).pyStr worker.lib.repr))

/-- A run whose last step is saved: put its output out, commit and complete. -/
def takeUp (worker : BoundedWorker) (reservation runId : String) (checkpoint : Checkpoint) :
    Program Run := do
  worker.putOut runId checkpoint
  let _ ← commitCredits reservation checkpoint.usageUnits (commitKey runId)
  askStore (.complete runId checkpoint.usageUnits)

/-- `execute`. -/
def execute (worker : BoundedWorker) (runId : String) : Program Run := do
  let run : Run ← askStore (.claim runId)
  if run.state ∈ [.completed, .failed, .cancelled, .waitingApproval, .quotaPaused] then return run
  match present run.reservationId with
  | none => askStore (.fail runId "missing credit reservation")
  | some reservation =>
    let checkpoint : Option Checkpoint ← askStore (.checkpoint runId)
    match checkpoint.filter fun checkpoint => isTrue checkpoint "done" with
    | some saved => worker.takeUp reservation runId saved
    | none =>
      let now ← askClock
      worker.loop ⟨run, reservation, now + run.maxRuntimeSeconds⟩ runId
        run.maxModelCalls.toNat
        ⟨checkpoint, checkpoint.elim 0 (·.step), checkpoint.elim 0 (·.usageUnits)⟩

end BoundedWorker

end AiSaas
