import AiSaas.Lib.Tables
import AiSaas.RunService.Models
import AiSaas.RunService.Redaction
import Mathlib.Algebra.Order.Ring.Rat

/-!
# The run store

`SQLiteRunStore` of `services/run_service/store.py`: the rows of runs, their
events and their checkpoints.  Each writing operation is the body of one
transaction.  JSON columns hold the value they encode.

## Main definitions

* `RunRow`, `CheckpointRow`, `RunDatabase` — the tables.
* `RunStore.create`, `claim`, `transition`, `markCancelRequested`, `approve`,
  `fail`, `pauseQuota`, `attachReservation`, `saveCheckpoint`, `appendToken`,
  `complete` — the writes.
* `RunStore.get`, `checkpoint`, `events`, `sequenceForEvent` — the reads.
* `RunStore.Call`, `perform`, `step` — a call as one transaction.
-/

namespace AiSaas

open Relational Transaction

/-! ### The tables -/

/-- A row of `runs`. -/
structure RunRow extends Run where
  requestHash : String
  createdAt : String
  updatedAt : String

/-- `UNIQUE(tenant_id, idempotency_key)`. -/
def RunRow.requestKey (r : RunRow) : String × String := (r.tenantId, r.idempotencyKey)

/-- `UNIQUE(run_id, sequence)`. -/
def RunEvent.place (e : RunEvent) : String × ℕ := (e.runId, e.sequence)

/-- A row of `run_checkpoints`. -/
structure CheckpointRow extends Checkpoint where
  updatedAt : String

/-- `state["token_emitted"] = True`. -/
def CheckpointRow.emitted (now : String) (c : CheckpointRow) : CheckpointRow :=
  { c with state := Json.update c.state [("token_emitted", .bool true)], updatedAt := now }

/-- The tables of the run store. -/
structure RunDatabase where
  runs : Table (fun r : RunRow => r.runId) RunRow.requestKey fun _ => true
  runEvents : Table RunEvent.eventId RunEvent.place fun _ => true
  runCheckpoints : Table (fun c : CheckpointRow => c.runId) (fun c => c.runId) fun _ => true

/-- The freshly created file. -/
def RunDatabase.empty : RunDatabase := ⟨.empty, .empty, .empty⟩

namespace RunStore

/-! ### Statements -/

/-- `_row_locked`. -/
def rowLocked (runId : String) (db : RunDatabase) : Except Error RunRow :=
  orRaise (db.runs.find? runId) (.runNotFound runId)

/-- The end of a writing operation: `self._to_run(self._row_locked(run_id))`. -/
def reread (runId : String) (db : RunDatabase) : Except Error (Run × RunDatabase) := do
  let row ← rowLocked runId db
  return (row.toRun, db)

/-- `_append_event_locked`, with its reading of the clock. -/
def appendEvent (env : Env) (createdAt runId tenantId : String) (sequence : ℕ) (event : String)
    (data : List (String × Json)) (db : RunDatabase) : Except Error (RunEvent × RunDatabase) := do
  let row : RunEvent :=
    ⟨"event-" ++ env.uuid 0, runId, tenantId, sequence, event, data, createdAt⟩
  let runEvents ← orRaise (db.runEvents.insert? row) .integrityError
  return (row, { db with runEvents })

/-- `UPDATE runs SET f WHERE run_id = ?`. -/
def updateRun (runId : String) (f : RunRow → RunRow)
    (hf : Keeps (fun r : RunRow => r.runId) RunRow.requestKey (fun _ => true) f)
    (db : RunDatabase) : RunDatabase :=
  { db with runs := db.runs.update (fun r => decide (r.runId = runId)) f hf }

/-! ### Writes -/

/-- The row `create` inserts. -/
def newRun (lib : RunLibrary) (env : Env) (runId : String) (request : RunCreate) : RunRow where
  runId := runId
  tenantId := request.tenantId
  accountId := request.accountId
  projectId := request.projectId
  idempotencyKey := request.idempotencyKey
  traceId := request.traceId
  input := request.input
  state := .queued
  sequence := 1
  reservationId := none
  cancelRequested := false
  workerAttempt := 0
  maxSteps := request.maxSteps
  maxModelCalls := request.maxModelCalls
  maxRuntimeSeconds := request.maxRuntimeSeconds.value
  result := []
  requestHash := request.fingerprint lib
  createdAt := env.now 0
  updatedAt := env.now 0

/-- `create`. -/
def create (lib : RunLibrary) (env : Env) (runId : String) (request : RunCreate) :
    Tx Error RunDatabase (Run × Bool) := fun db =>
  match db.runs.findBy? (request.tenantId, request.idempotencyKey) with
  | some existing => do
    ensure (existing.requestHash = request.fingerprint lib)
      (.idempotencyConflict "run idempotency key was reused with different input")
    return ((existing.toRun, false), db)
  | none => do
    let runs ← orRaise (db.runs.insert? (newRun lib env runId request)) .integrityError
    let (_, db) ← appendEvent env (env.now 1) runId request.tenantId 1 "run.state_changed"
      [("state", .str "queued"), ("trace_id", .str request.traceId)] { db with runs }
    let (run, db) ← reread runId db
    return ((run, true), db)

/-- `attach_reservation`. -/
def attachReservation (env : Env) (runId reservationId : String) :
    Tx Error RunDatabase Run := fun db => do
  let row ← rowLocked runId db
  ensure (row.reservationId = none ∨ row.reservationId = some reservationId)
    (.idempotencyConflict "run already has a different reservation")
  reread runId (updateRun runId
    (fun r => { r with reservationId := some reservationId, updatedAt := env.now 0 })
    ⟨fun _ => rfl, fun _ => rfl, fun _ h => h⟩ db)

/-- `claim`.  A run that is claimed again is not announced. -/
def claim (env : Env) (runId : String) : Tx Error RunDatabase Run := fun db => do
  let row ← rowLocked runId db
  if row.state ≠ .queued ∧ row.state ≠ .running then
    return (row.toRun, db)
  else
    let db := updateRun runId (fun r => { r with
        state := .running, workerAttempt := r.workerAttempt + 1, updatedAt := env.now 0 })
      ⟨fun _ => rfl, fun _ => rfl, fun _ h => h⟩ db
    if row.state = .queued then
      let (_, db) ← appendEvent env (env.now 1) runId row.tenantId (row.sequence + 1)
        "run.state_changed"
        [("state", .str "running"), ("trace_id", .str row.traceId),
          ("worker_attempt", .int (row.workerAttempt + 1))] db
      reread runId (updateRun runId (fun r => { r with sequence := r.sequence + 1 })
        ⟨fun _ => rfl, fun _ => rfl, fun _ h => h⟩ db)
    else reread runId db

/-- Raise unless the run may move to the state. -/
def checkMove (row : RunRow) (state : RunState) : Except Error Unit :=
  ensure (state ∈ row.state.transitions)
    (.invalidTransition (row.state.text ++ " -> " ++ state.text ++ " is not allowed"))

/-- `transition`; the payload may overwrite what the event announces. -/
def transition (env : Env) (runId : String) (state : RunState) (payload : List (String × Json)) :
    Tx Error RunDatabase Run := fun db => do
  let row ← rowLocked runId db
  checkMove row state
  let (_, db) ← appendEvent env (env.now 0) runId row.tenantId (row.sequence + 1)
    "run.state_changed"
    (Json.update [("state", .str state.text), ("trace_id", .str row.traceId)] payload) db
  reread runId (updateRun runId
    (fun r => { r with state := state, sequence := row.sequence + 1, updatedAt := env.now 1 })
    ⟨fun _ => rfl, fun _ => rfl, fun _ h => h⟩ db)

/-- `_transition_locked`: a transition that forgets a requested cancellation. -/
def transitionLocked (env : Env) (row : RunRow) (state : RunState)
    (payload : List (String × Json)) : Tx Error RunDatabase Run := fun db => do
  checkMove row state
  let (_, db) ← appendEvent env (env.now 0) row.runId row.tenantId (row.sequence + 1)
    "run.state_changed"
    (Json.update [("state", .str state.text), ("trace_id", .str row.traceId)] payload) db
  reread row.runId (updateRun row.runId (fun r => { r with
      state := state, sequence := row.sequence + 1, cancelRequested := false,
      updatedAt := env.now 1 })
    ⟨fun _ => rfl, fun _ => rfl, fun _ h => h⟩ db)

/-- `mark_cancel_requested`.  A run that is neither over nor waiting is asked to
stop, and announced as running whatever its state is. -/
def markCancelRequested (env : Env) (runId tenantId : String) :
    Tx Error RunDatabase Run := fun db => do
  let row ← rowLocked runId db
  ensure (row.tenantId = tenantId) (.tenantMismatch runId)
  match row.state with
  | .completed | .failed | .cancelled => return (row.toRun, db)
  | .queued | .waitingApproval =>
    transitionLocked env row .cancelled [("reason", .str "user_cancelled")] db
  | .running | .quotaPaused => do
    let (_, db) ← appendEvent env (env.now 0) runId tenantId (row.sequence + 1) "run.state_changed"
      [("state", .str "running"), ("trace_id", .str row.traceId),
        ("cancellation_requested", .bool true)] db
    reread runId (updateRun runId (fun r => { r with
        cancelRequested := true, sequence := row.sequence + 1, updatedAt := env.now 1 })
      ⟨fun _ => rfl, fun _ => rfl, fun _ h => h⟩ db)

/-- `approve`. -/
def approve (env : Env) (runId tenantId : String) : Tx Error RunDatabase Run := fun db => do
  let row ← rowLocked runId db
  ensure (row.tenantId = tenantId) (.tenantMismatch runId)
  transitionLocked env row .running [("approval", .str "granted")] db

/-- `fail`. -/
def fail (env : Env) (runId reason : String) : Tx Error RunDatabase Run :=
  transition env runId .failed
    [("reason", .str (String.ofList ((redactText reason).toList.take 160)))]

/-- `pause_quota`. -/
def pauseQuota (env : Env) (runId dimension : String) (limit : ℤ) :
    Tx Error RunDatabase Run := fun db => do
  ensure (dimension = "runs" ∨ dimension = "units") (.valueError "unsupported quota dimension")
  transition env runId .quotaPaused
    [("reason", .str "quota_limit"), ("dimension", .str dimension), ("limit", .int limit)] db

/-- `save_checkpoint`. -/
def saveCheckpoint (env : Env) (runId : String) (step : ℤ) (state : List (String × Json))
    (inflightKey approvalId : Option String) (usageUnits : ℤ) :
    Tx Error RunDatabase Checkpoint := fun db => do
  let _ ← rowLocked runId db
  let saved : Checkpoint := ⟨runId, step, redactFields state, inflightKey, approvalId, usageUnits⟩
  let runCheckpoints := db.runCheckpoints.upsert ⟨saved, env.now 0⟩
    (fun c => { c with
      step := step, state := redactFields state, inflightKey := inflightKey,
      approvalId := approvalId, usageUnits := usageUnits, updatedAt := env.now 0 })
    ⟨fun _ => rfl, fun _ => rfl, fun _ h => h⟩
  return (saved, { db with runCheckpoints })

/-- The `UPDATE run_checkpoints` of `append_token`. -/
def markEmitted (runId now : String) (db : RunDatabase) : RunDatabase :=
  { db with
    runCheckpoints := db.runCheckpoints.update (fun c => decide (c.runId = runId))
      (CheckpointRow.emitted now) ⟨fun _ => rfl, fun _ => rfl, fun _ h => h⟩ }

/-- `append_token`; a checkpoint that is there remembers that its output is out. -/
def appendToken (env : Env) (runId text : String) : Tx Error RunDatabase RunEvent := fun db => do
  let row ← rowLocked runId db
  let (event, db) ← appendEvent env (env.now 0) runId row.tenantId (row.sequence + 1) "run.token"
    [("text", .str (redactText text)), ("trace_id", .str row.traceId)] db
  let db := markEmitted runId (env.now 1) db
  return (event, updateRun runId
    (fun r => { r with sequence := row.sequence + 1, updatedAt := env.now 2 })
    ⟨fun _ => rfl, fun _ => rfl, fun _ h => h⟩ db)

/-- `complete`. -/
def complete (env : Env) (runId : String) (usageUnits : ℤ) : Tx Error RunDatabase Run := fun db => do
  let row ← rowLocked runId db
  ensure (row.state = .running)
    (.invalidTransition (row.state.text ++ " -> completed is not allowed"))
  let (_, db) ← appendEvent env (env.now 0) runId row.tenantId (row.sequence + 1) "run.completed"
    [("usage_units", .int usageUnits), ("trace_id", .str row.traceId)] db
  reread runId (updateRun runId (fun r => { r with
      state := .completed, sequence := row.sequence + 1,
      result := [("usage_units", .int usageUnits)], updatedAt := env.now 1 })
    ⟨fun _ => rfl, fun _ => rfl, fun _ h => h⟩ db)

/-! ### Reads -/

/-- `get`. -/
def get (runId : String) (tenantId : Option String) (db : RunDatabase) : Except Error Run := do
  let row ← rowLocked runId db
  ensure (tenantId = none ∨ tenantId = some row.tenantId) (.tenantMismatch runId)
  return row.toRun

/-- `checkpoint`. -/
def checkpoint (runId : String) (db : RunDatabase) : Option Checkpoint :=
  (db.runCheckpoints.find? runId).map (·.toCheckpoint)

/-- `events`: what follows a number, in the order of the numbers. -/
def events (runId tenantId : String) (afterSequence : ℤ) (db : RunDatabase) :
    Except Error (List RunEvent) := do
  let _ ← get runId (some tenantId) db
  return (db.runEvents.rows.filter fun e =>
    decide (e.runId = runId ∧ afterSequence < e.sequence)).mergeSort
      fun e e' => decide (e.sequence ≤ e'.sequence)

/-- `sequence_for_event`. -/
def sequenceForEvent (runId eventId : String) (db : RunDatabase) : ℤ :=
  match db.runEvents.find? eventId with
  | some e => if e.runId = runId then e.sequence else 0
  | none => 0

/-! ### Calls -/

/-- A call of the store. -/
inductive Call where
  | create (runId : String) (request : RunCreate)
  | get (runId : String) (tenantId : Option String)
  | attachReservation (runId reservationId : String)
  | claim (runId : String)
  | transition (runId : String) (state : RunState) (payload : List (String × Json))
  | markCancelRequested (runId tenantId : String)
  | approve (runId tenantId : String)
  | fail (runId reason : String)
  | pauseQuota (runId dimension : String) (limit : ℤ)
  | saveCheckpoint (runId : String) (step : ℤ) (state : List (String × Json))
      (inflightKey approvalId : Option String) (usageUnits : ℤ)
  | checkpoint (runId : String)
  | appendToken (runId text : String)
  | complete (runId : String) (usageUnits : ℤ)

/-- What a call answers. -/
def Call.Answer : Call → Type
  | .create .. => Run × Bool
  | .saveCheckpoint .. => Checkpoint
  | .checkpoint .. => Option Checkpoint
  | .appendToken .. => RunEvent
  | .get .. | .attachReservation .. | .claim .. | .transition .. | .markCancelRequested ..
  | .approve .. | .fail .. | .pauseQuota .. | .complete .. => Run

/-- The body of a call. -/
def Call.body (lib : RunLibrary) (env : Env) : (call : Call) → Tx Error RunDatabase call.Answer
  | .create r q => RunStore.create lib env r q
  | .get r t => fun db => do return (← RunStore.get r t db, db)
  | .attachReservation r id => RunStore.attachReservation env r id
  | .claim r => RunStore.claim env r
  | .transition r s p => RunStore.transition env r s p
  | .markCancelRequested r t => RunStore.markCancelRequested env r t
  | .approve r t => RunStore.approve env r t
  | .fail r reason => RunStore.fail env r reason
  | .pauseQuota r d n => RunStore.pauseQuota env r d n
  | .saveCheckpoint r n s k a u => RunStore.saveCheckpoint env r n s k a u
  | .checkpoint r => fun db => return (RunStore.checkpoint r db, db)
  | .appendToken r text => RunStore.appendToken env r text
  | .complete r u => RunStore.complete env r u

/-- A call as one transaction. -/
def perform (lib : RunLibrary) (env : Env) (call : Call) (db : RunDatabase) :
    Except Error call.Answer × RunDatabase := atomically (call.body lib env) db

/-- The tables after a call. -/
def step (lib : RunLibrary) (db : RunDatabase) (call : Env × Call) : RunDatabase :=
  (perform lib call.1 call.2 db).2

end RunStore

end AiSaas
