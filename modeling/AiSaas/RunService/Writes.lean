import AiSaas.RunService.Store

/-!
# What the run store's calls do

An operation that returned did one of a few things to the tables, and an
operation that raised did nothing.  Every later argument about the store starts
from these inversion lemmas.

## Main definitions

* `RunStore.Sets` — one row of `runs` changes.
* `RunStore.Logs` — it changes and an event with its next number announces it.
* `RunStore.Writes` — the calls that change something, with what they change.
* `RunStore.Update` — what a call can make of a row.

## Main results

* `transition_eq_ok`, `claim_eq_ok`, `markCancelRequested_eq_ok` and their like —
  everything an operation that returned can have done.
* `RunStore.step_cases` — a call changes nothing, or it is one of the writes.
* `RunStore.step_row`, `RunStore.step_checkpoint` — a row and a checkpoint after a call.
-/

namespace AiSaas

open Relational Transaction

namespace RunStore

/-! ### What the statements do -/

section Operations

variable {lib : RunLibrary} {env : Env} {db db' : RunDatabase} {row row' : RunRow} {run : Run}
  {r t d reason text now : String} {n : ℤ} {state : RunState} {payload : List (String × Json)}

@[simp] theorem rowLocked_eq_ok : rowLocked r db = .ok row ↔ db.runs.find? r = some row :=
  orRaise_eq_ok

theorem reread_eq_ok (h : reread r db = .ok (run, db')) :
    ∃ row, db.runs.find? r = some row ∧ run = row.toRun ∧ db' = db := by
  simp only [reread, bind_eq_ok, rowLocked_eq_ok] at h
  obtain ⟨row, hrow, h⟩ := h
  obtain ⟨rfl, rfl⟩ := Prod.mk.inj (Except.ok.inj h)
  exact ⟨row, hrow, rfl, rfl⟩

/-- The event with the number after a run's last. -/
def nextEvent (env : Env) (createdAt : String) (row : RunRow) (event : String)
    (data : List (String × Json)) : RunEvent :=
  ⟨"event-" ++ env.uuid 0, row.runId, row.tenantId, row.sequence + 1, event, data, createdAt⟩

theorem appendEvent_eq_ok {m : ℕ} {event : String} {data : List (String × Json)} {e : RunEvent}
    (h : appendEvent env now r t m event data db = .ok (e, db')) :
    e = ⟨"event-" ++ env.uuid 0, r, t, m, event, data, now⟩ ∧
      ∃ runEvents, db.runEvents.insert? e = some runEvents ∧ db' = { db with runEvents } := by
  simp only [appendEvent, bind_eq_ok, orRaise_eq_ok] at h
  obtain ⟨runEvents, hins, h⟩ := h
  obtain ⟨rfl, rfl⟩ := Prod.mk.inj (Except.ok.inj h)
  exact ⟨rfl, runEvents, hins, rfl⟩

theorem find?_updateRun {f : RunRow → RunRow}
    {hf : Keeps (fun r : RunRow => r.runId) RunRow.requestKey (fun _ => true) f} (x : String) :
    (updateRun r f hf db).runs.find? x
      = (db.runs.find? x).map fun row => if x = r then f row else row := by
  unfold updateRun
  rw [Table.find?_update]
  cases hx : db.runs.find? x with
  | none => rfl
  | some row => simp [(Table.find?_eq_some.mp hx).2]

/-- One row changes, every other stays. -/
def Sets (db : RunDatabase) (row row' : RunRow) (db' : RunDatabase) : Prop :=
  ∀ x, db'.runs.find? x = if x = row.runId then some row' else db.runs.find? x

theorem sets_updateRun {f : RunRow → RunRow}
    (hf : Keeps (fun r : RunRow => r.runId) RunRow.requestKey (fun _ => true) f)
    (hrow : db.runs.find? r = some row) (hsame : db'.runs = db.runs) :
    Sets db row (f row) (updateRun r f hf db') := by
  intro x
  obtain ⟨-, rfl⟩ := Table.find?_eq_some.mp hrow
  rw [find?_updateRun, hsame]
  by_cases hx : x = row.runId
  · simp [hx, hrow]
  · simp [hx]

theorem Sets.trans {db'' : RunDatabase} {row'' : RunRow} (h : Sets db row row' db')
    (hid : row'.runId = row.runId) (h' : Sets db' row' row'' db'') : Sets db row row'' db'' := by
  intro x
  rw [h', hid, h]
  by_cases hx : x = row.runId <;> simp [hx]

/-- The row an operation rereads is the one it wrote. -/
theorem sets_of_reread {f : RunRow → RunRow} {stored : RunRow}
    {hf : Keeps (fun r : RunRow => r.runId) RunRow.requestKey (fun _ => true) f}
    (hrow : db.runs.find? r = some row)
    (hstored : (updateRun r f hf db').runs.find? r = some stored) (hsame : db'.runs = db.runs) :
    Sets db row (f row) (updateRun r f hf db') ∧ stored = f row := by
  have hrow' : db'.runs.find? r = some row := hsame ▸ hrow
  rw [find?_updateRun, hrow', Option.map_some, if_pos rfl] at hstored
  exact ⟨sets_updateRun hf hrow hsame, (Option.some.inj hstored).symm⟩

/-- A run's row changes, and the event with its next number announces it. -/
structure Logs (env : Env) (createdAt : String) (db : RunDatabase) (row : RunRow) (event : String)
    (data : List (String × Json)) (row' : RunRow) (db' : RunDatabase) : Prop where
  found : db.runs.find? row.runId = some row
  next : row'.sequence = row.sequence + 1
  sets : Sets db row row' db'
  insert : db.runEvents.insert? (nextEvent env createdAt row event data) = some db'.runEvents

/-- The move a transition makes. -/
structure Moves (env : Env) (db : RunDatabase) (row : RunRow) (state : RunState)
    (payload : List (String × Json)) (row' : RunRow) (db' : RunDatabase) : Prop where
  allowed : state ∈ row.state.transitions
  logs : Logs env (env.now 0) db row "run.state_changed"
    (Json.update [("state", .str state.text), ("trace_id", .str row.traceId)] payload) row' db'
  checkpoints : db'.runCheckpoints = db.runCheckpoints

theorem transition_eq_ok (h : transition env r state payload db = .ok (run, db')) :
    ∃ row row', db.runs.find? r = some row ∧
      row' = { row with state := state, sequence := row.sequence + 1, updatedAt := env.now 1 } ∧
      Moves env db row state payload row' db' ∧ run = row'.toRun := by
  simp only [transition, checkMove, bind_eq_ok, rowLocked_eq_ok, ensure_eq_ok,
    decide_eq_true_eq] at h
  obtain ⟨row, hrow, -, hallowed, ⟨e, db₁⟩, happend, h⟩ := h
  obtain ⟨rfl, runEvents, hins, rfl⟩ := appendEvent_eq_ok happend
  obtain ⟨stored, hstored, rfl, rfl⟩ := reread_eq_ok h
  obtain ⟨-, rfl⟩ := Table.find?_eq_some.mp hrow
  obtain ⟨hsets, rfl⟩ := sets_of_reread hrow hstored rfl
  exact ⟨row, _, hrow, rfl, ⟨hallowed, ⟨hrow, rfl, hsets, hins⟩, rfl⟩, rfl⟩

theorem transitionLocked_eq_ok (hfound : db.runs.find? row.runId = some row)
    (h : transitionLocked env row state payload db = .ok (run, db')) :
    ∃ row', row' = { row with
        state := state, sequence := row.sequence + 1, cancelRequested := false,
        updatedAt := env.now 1 } ∧
      Moves env db row state payload row' db' ∧ run = row'.toRun := by
  simp only [transitionLocked, checkMove, bind_eq_ok, ensure_eq_ok, decide_eq_true_eq] at h
  obtain ⟨-, hallowed, ⟨e, db₁⟩, happend, h⟩ := h
  obtain ⟨rfl, runEvents, hins, rfl⟩ := appendEvent_eq_ok happend
  obtain ⟨stored, hstored, rfl, rfl⟩ := reread_eq_ok h
  obtain ⟨hsets, rfl⟩ := sets_of_reread hfound hstored rfl
  exact ⟨_, rfl, ⟨hallowed, ⟨hfound, rfl, hsets, hins⟩, rfl⟩, rfl⟩

theorem attachReservation_eq_ok {id : String}
    (h : attachReservation env r id db = .ok (run, db')) :
    ∃ row row', db.runs.find? r = some row ∧
      (row.reservationId = none ∨ row.reservationId = some id) ∧
      row' = { row with reservationId := some id, updatedAt := env.now 0 } ∧
      Sets db row row' db' ∧ db'.runEvents = db.runEvents ∧
      db'.runCheckpoints = db.runCheckpoints ∧ run = row'.toRun := by
  simp only [attachReservation, bind_eq_ok, rowLocked_eq_ok, ensure_eq_ok, decide_eq_true_eq] at h
  obtain ⟨row, hrow, -, hallowed, h⟩ := h
  obtain ⟨stored, hstored, rfl, rfl⟩ := reread_eq_ok h
  obtain ⟨hsets, rfl⟩ := sets_of_reread hrow hstored rfl
  exact ⟨row, _, hrow, hallowed, rfl, hsets, rfl, rfl, rfl⟩

/-- **What `claim` did**: nothing to a run that is neither queued nor running;
it counted the attempt of a running one, and started and announced a queued one. -/
theorem claim_eq_ok (h : claim env r db = .ok (run, db')) :
    ∃ row row', db.runs.find? r = some row ∧ run = row'.toRun ∧
      ((row.state ≠ .queued ∧ row.state ≠ .running ∧ row' = row ∧ db' = db) ∨
        (row.state = .running ∧
          row' = { row with workerAttempt := row.workerAttempt + 1, updatedAt := env.now 0 } ∧
          Sets db row row' db' ∧ db'.runEvents = db.runEvents ∧
          db'.runCheckpoints = db.runCheckpoints) ∨
        (row.state = .queued ∧
          row' = { row with
            state := .running, workerAttempt := row.workerAttempt + 1,
            sequence := row.sequence + 1, updatedAt := env.now 0 } ∧
          Logs env (env.now 1) db row "run.state_changed"
            [("state", .str "running"), ("trace_id", .str row.traceId),
              ("worker_attempt", .int (row.workerAttempt + 1))] row' db' ∧
          db'.runCheckpoints = db.runCheckpoints)) := by
  simp only [claim, bind_eq_ok, rowLocked_eq_ok] at h
  obtain ⟨row, hrow, h⟩ := h
  obtain ⟨-, rfl⟩ := Table.find?_eq_some.mp hrow
  split_ifs at h with hother hqueued
  · obtain ⟨rfl, rfl⟩ := Prod.mk.inj (Except.ok.inj h)
    exact ⟨row, row, hrow, rfl, Or.inl ⟨hother.1, hother.2, rfl, rfl⟩⟩
  · simp only [bind_eq_ok] at h
    obtain ⟨⟨e, db₁⟩, happend, h⟩ := h
    obtain ⟨rfl, runEvents, hins, rfl⟩ := appendEvent_eq_ok happend
    obtain ⟨stored, hstored, rfl, rfl⟩ := reread_eq_ok h
    -- two updates of the row: its state first, its sequence after the event
    have hstart : Sets db row { row with
        state := .running, workerAttempt := row.workerAttempt + 1, updatedAt := env.now 0 } _ :=
      sets_updateRun (f := fun r : RunRow => { r with
          state := .running, workerAttempt := r.workerAttempt + 1, updatedAt := env.now 0 })
        ⟨fun _ => rfl, fun _ => rfl, fun _ h => h⟩ hrow rfl
    have hstarted := (hstart row.runId).trans (if_pos rfl)
    obtain ⟨hbump, rfl⟩ := sets_of_reread hstarted hstored rfl
    exact ⟨row, _, hrow, rfl, Or.inr (Or.inr ⟨hqueued, rfl,
      ⟨hrow, rfl, hstart.trans rfl hbump, hins⟩, rfl⟩)⟩
  · have hrunning : row.state = .running := by
      by_contra hne
      exact hother ⟨hqueued, hne⟩
    obtain ⟨stored, hstored, rfl, rfl⟩ := reread_eq_ok h
    obtain ⟨hsets, rfl⟩ := sets_of_reread hrow hstored rfl
    have hsame : ({ row with
        state := .running, workerAttempt := row.workerAttempt + 1, updatedAt := env.now 0 } : RunRow)
        = { row with workerAttempt := row.workerAttempt + 1, updatedAt := env.now 0 } := by
      rw [← hrunning]
    rw [hsame] at hsets ⊢
    exact ⟨row, _, hrow, rfl, Or.inr (Or.inl ⟨hrunning, rfl, hsets, rfl, rfl⟩)⟩

theorem approve_eq_ok (h : approve env r t db = .ok (run, db')) :
    ∃ row row', db.runs.find? r = some row ∧ row.tenantId = t ∧
      row' = { row with
        state := .running, sequence := row.sequence + 1, cancelRequested := false,
        updatedAt := env.now 1 } ∧
      Moves env db row .running [("approval", .str "granted")] row' db' ∧ run = row'.toRun := by
  simp only [approve, bind_eq_ok, rowLocked_eq_ok, ensure_eq_ok, decide_eq_true_eq] at h
  obtain ⟨row, hrow, -, htenant, h⟩ := h
  obtain ⟨-, rfl⟩ := Table.find?_eq_some.mp hrow
  obtain ⟨row', hrow', hmoves, hrun⟩ := transitionLocked_eq_ok hrow h
  exact ⟨row, row', hrow, htenant, hrow', hmoves, hrun⟩

/-- **What `mark_cancel_requested` did**: nothing to a run that is over, it
cancelled one that is queued or waiting, and asked any other to stop. -/
theorem markCancelRequested_eq_ok (h : markCancelRequested env r t db = .ok (run, db')) :
    ∃ row row', db.runs.find? r = some row ∧ row.tenantId = t ∧ run = row'.toRun ∧
      ((row.state.terminal = true ∧ row' = row ∧ db' = db) ∨
        ((row.state = .queued ∨ row.state = .waitingApproval) ∧
          row' = { row with
            state := .cancelled, sequence := row.sequence + 1, cancelRequested := false,
            updatedAt := env.now 1 } ∧
          Moves env db row .cancelled [("reason", .str "user_cancelled")] row' db') ∨
        ((row.state = .running ∨ row.state = .quotaPaused) ∧
          row' = { row with
            cancelRequested := true, sequence := row.sequence + 1, updatedAt := env.now 1 } ∧
          Logs env (env.now 0) db row "run.state_changed"
            [("state", .str "running"), ("trace_id", .str row.traceId),
              ("cancellation_requested", .bool true)] row' db' ∧
          db'.runCheckpoints = db.runCheckpoints)) := by
  simp only [markCancelRequested, bind_eq_ok, rowLocked_eq_ok, ensure_eq_ok,
    decide_eq_true_eq] at h
  obtain ⟨row, hrow, -, htenant, h⟩ := h
  obtain ⟨-, rfl⟩ := Table.find?_eq_some.mp hrow
  have hover : ∀ {run db'}, (pure (row.toRun, db) : Except Error (Run × RunDatabase))
      = .ok (run, db') → run = row.toRun ∧ db' = db := by
    intro run db' h
    obtain ⟨rfl, rfl⟩ := Prod.mk.inj (Except.ok.inj h)
    exact ⟨rfl, rfl⟩
  have hasked : ∀ {run db'},
      (do
        let appended ← appendEvent env (env.now 0) row.runId t (row.sequence + 1)
          "run.state_changed" [("state", .str "running"), ("trace_id", .str row.traceId),
            ("cancellation_requested", .bool true)] db
        reread row.runId (updateRun row.runId (fun r => { r with
            cancelRequested := true, sequence := row.sequence + 1, updatedAt := env.now 1 })
          ⟨fun _ => rfl, fun _ => rfl, fun _ h => h⟩ appended.2)) = Except.ok (run, db') →
      ∃ row', row' = { row with
          cancelRequested := true, sequence := row.sequence + 1, updatedAt := env.now 1 } ∧
        Logs env (env.now 0) db row "run.state_changed"
          [("state", .str "running"), ("trace_id", .str row.traceId),
            ("cancellation_requested", .bool true)] row' db' ∧
        db'.runCheckpoints = db.runCheckpoints ∧ run = row'.toRun := by
    intro run db' h
    simp only [bind_eq_ok] at h
    obtain ⟨⟨e, db₁⟩, happend, h⟩ := h
    obtain ⟨rfl, runEvents, hins, rfl⟩ := appendEvent_eq_ok happend
    obtain ⟨stored, hstored, rfl, rfl⟩ := reread_eq_ok h
    obtain ⟨hsets, rfl⟩ := sets_of_reread hrow hstored rfl
    exact ⟨_, rfl, ⟨hrow, rfl, hsets, htenant ▸ hins⟩, rfl, rfl⟩
  cases hs : row.state with
  | completed =>
    simp only [hs] at h
    obtain ⟨rfl, rfl⟩ := hover h
    exact ⟨row, row, hrow, htenant, rfl, Or.inl ⟨by rw [hs]; rfl, rfl, rfl⟩⟩
  | failed =>
    simp only [hs] at h
    obtain ⟨rfl, rfl⟩ := hover h
    exact ⟨row, row, hrow, htenant, rfl, Or.inl ⟨by rw [hs]; rfl, rfl, rfl⟩⟩
  | cancelled =>
    simp only [hs] at h
    obtain ⟨rfl, rfl⟩ := hover h
    exact ⟨row, row, hrow, htenant, rfl, Or.inl ⟨by rw [hs]; rfl, rfl, rfl⟩⟩
  | queued =>
    simp only [hs] at h
    obtain ⟨row', hrow', hmoves, hrun⟩ := transitionLocked_eq_ok hrow h
    exact ⟨row, row', hrow, htenant, hrun, Or.inr (Or.inl ⟨Or.inl hs, hrow', hmoves⟩)⟩
  | waitingApproval =>
    simp only [hs] at h
    obtain ⟨row', hrow', hmoves, hrun⟩ := transitionLocked_eq_ok hrow h
    exact ⟨row, row', hrow, htenant, hrun, Or.inr (Or.inl ⟨Or.inr hs, hrow', hmoves⟩)⟩
  | running =>
    simp only [hs] at h
    obtain ⟨row', hrow', hlogs, hcps, hrun⟩ := hasked h
    exact ⟨row, row', hrow, htenant, hrun, Or.inr (Or.inr ⟨Or.inl hs, hrow', hlogs, hcps⟩)⟩
  | quotaPaused =>
    simp only [hs] at h
    obtain ⟨row', hrow', hlogs, hcps, hrun⟩ := hasked h
    exact ⟨row, row', hrow, htenant, hrun, Or.inr (Or.inr ⟨Or.inr hs, hrow', hlogs, hcps⟩)⟩

theorem saveCheckpoint_eq_ok {step usageUnits : ℤ} {saved : List (String × Json)}
    {inflightKey approvalId : Option String} {cp : Checkpoint}
    (h : saveCheckpoint env r step saved inflightKey approvalId usageUnits db = .ok (cp, db')) :
    cp = ⟨r, step, redactFields saved, inflightKey, approvalId, usageUnits⟩ ∧
      (∃ row, db.runs.find? r = some row) ∧ db'.runs = db.runs ∧ db'.runEvents = db.runEvents ∧
      ∀ x, db'.runCheckpoints.find? x
        = if x = r then some ⟨cp, env.now 0⟩ else db.runCheckpoints.find? x := by
  simp only [saveCheckpoint, bind_eq_ok, rowLocked_eq_ok] at h
  obtain ⟨row, hrow, h⟩ := h
  obtain ⟨rfl, rfl⟩ := Prod.mk.inj (Except.ok.inj h)
  refine ⟨rfl, ⟨row, hrow⟩, rfl, rfl, ?_⟩
  intro x
  change Table.find? (Table.upsert _ _ _ _) x = _
  rw [Table.find?_upsert _ rfl (fun _ _ he => he)]
  by_cases hx : x = r
  · subst hx
    cases hc : db.runCheckpoints.find? x with
    | none => simp
    | some c => simp [(Table.find?_eq_some.mp hc).2]
  · simp [hx, Ne.symm hx]

theorem find?_markEmitted (x : String) : (markEmitted r now db).runCheckpoints.find? x
    = (db.runCheckpoints.find? x).map fun c => if x = r then c.emitted now else c := by
  unfold markEmitted
  rw [Table.find?_update]
  cases hc : db.runCheckpoints.find? x with
  | none => rfl
  | some c => simp [(Table.find?_eq_some.mp hc).2]

theorem appendToken_eq_ok {e : RunEvent} (h : appendToken env r text db = .ok (e, db')) :
    ∃ row row', db.runs.find? r = some row ∧
      row' = { row with sequence := row.sequence + 1, updatedAt := env.now 2 } ∧
      Logs env (env.now 0) db row "run.token"
        [("text", .str (redactText text)), ("trace_id", .str row.traceId)] row' db' ∧
      e.sequence = row'.sequence ∧
      ∀ x, db'.runCheckpoints.find? x = (db.runCheckpoints.find? x).map fun c =>
        if x = r then c.emitted (env.now 1) else c := by
  simp only [appendToken, bind_eq_ok, rowLocked_eq_ok] at h
  obtain ⟨row, hrow, ⟨e, db₁⟩, happend, h⟩ := h
  obtain ⟨rfl, runEvents, hins, rfl⟩ := appendEvent_eq_ok happend
  obtain ⟨rfl, rfl⟩ := Prod.mk.inj (Except.ok.inj h)
  obtain ⟨-, rfl⟩ := Table.find?_eq_some.mp hrow
  refine ⟨row, _, hrow, rfl, ⟨hrow, rfl, sets_updateRun _ hrow rfl, hins⟩, rfl,
    find?_markEmitted⟩

theorem complete_eq_ok (h : complete env r n db = .ok (run, db')) :
    ∃ row row', db.runs.find? r = some row ∧ row.state = .running ∧
      row' = { row with
        state := .completed, sequence := row.sequence + 1,
        result := [("usage_units", .int n)], updatedAt := env.now 1 } ∧
      Logs env (env.now 0) db row "run.completed"
        [("usage_units", .int n), ("trace_id", .str row.traceId)] row' db' ∧
      db'.runCheckpoints = db.runCheckpoints ∧ run = row'.toRun := by
  simp only [complete, bind_eq_ok, rowLocked_eq_ok, ensure_eq_ok, decide_eq_true_eq] at h
  obtain ⟨row, hrow, -, hrunning, ⟨e, db₁⟩, happend, h⟩ := h
  obtain ⟨rfl, runEvents, hins, rfl⟩ := appendEvent_eq_ok happend
  obtain ⟨stored, hstored, rfl, rfl⟩ := reread_eq_ok h
  obtain ⟨-, rfl⟩ := Table.find?_eq_some.mp hrow
  obtain ⟨hsets, rfl⟩ := sets_of_reread hrow hstored rfl
  exact ⟨row, _, hrow, hrunning, rfl, ⟨hrow, rfl, hsets, hins⟩, rfl, rfl⟩

/-- The event that announces a new run. -/
def firstEvent (env : Env) (runId : String) (request : RunCreate) : RunEvent :=
  ⟨"event-" ++ env.uuid 0, runId, request.tenantId, 1, "run.state_changed",
    [("state", .str "queued"), ("trace_id", .str request.traceId)], env.now 1⟩

/-- **What `create` did**: it found the request's run, or it inserted one and
announced it. -/
theorem create_eq_ok {q : RunCreate} {created : Bool}
    (h : create lib env r q db = .ok ((run, created), db')) :
    (∃ row, db.runs.findBy? (q.tenantId, q.idempotencyKey) = some row ∧
        row.requestHash = q.fingerprint lib ∧ run = row.toRun ∧ created = false ∧ db' = db) ∨
      ∃ runs runEvents, db.runs.findBy? (q.tenantId, q.idempotencyKey) = none ∧
        db.runs.insert? (newRun lib env r q) = some runs ∧
        db.runEvents.insert? (firstEvent env r q) = some runEvents ∧
        run = (newRun lib env r q).toRun ∧ created = true ∧ db' = { db with runs, runEvents } := by
  cases hk : db.runs.findBy? (q.tenantId, q.idempotencyKey) with
  | some existing =>
    simp only [create, hk, bind_eq_ok, ensure_eq_ok, decide_eq_true_eq] at h
    obtain ⟨-, hhash, h⟩ := h
    obtain ⟨hrun, rfl⟩ := Prod.mk.inj (Except.ok.inj h)
    obtain ⟨rfl, rfl⟩ := Prod.mk.inj hrun
    exact Or.inl ⟨existing, rfl, hhash, rfl, rfl, rfl⟩
  | none =>
    simp only [create, hk, bind_eq_ok, orRaise_eq_ok] at h
    obtain ⟨runs, hins, ⟨e, db₁⟩, happend, ⟨run', db₂⟩, hread, h⟩ := h
    obtain ⟨hrun, rfl⟩ := Prod.mk.inj (Except.ok.inj h)
    obtain ⟨rfl, rfl⟩ := Prod.mk.inj hrun
    obtain ⟨rfl, runEvents, hlog, rfl⟩ := appendEvent_eq_ok happend
    obtain ⟨stored, hstored, rfl, rfl⟩ := reread_eq_ok hread
    have hfind : runs.find? r = some (newRun lib env r q) :=
      (Table.find?_insert hins r).trans (if_pos rfl)
    obtain rfl := Option.some.inj (hfind.symm.trans hstored)
    exact Or.inr ⟨runs, runEvents, rfl, hins, hlog, rfl, rfl, rfl⟩

end Operations

/-! ### The writes -/

/-- The three calls that are plain transitions: run, state and payload. -/
def Call.move? : Call → Option (String × RunState × List (String × Json))
  | .transition r state payload => some (r, state, payload)
  | .fail r reason => some (r, .failed,
      [("reason", .str (String.ofList ((redactText reason).toList.take 160)))])
  | .pauseQuota r d n => some (r, .quotaPaused,
      [("reason", .str "quota_limit"), ("dimension", .str d), ("limit", .int n)])
  | _ => none

/-- The calls that change the tables, and the tables they leave. -/
inductive Writes (lib : RunLibrary) (env : Env) (db : RunDatabase) : Call → RunDatabase → Prop
  | create {r q runs runEvents}
      (fresh : db.runs.findBy? (q.tenantId, q.idempotencyKey) = none)
      (insert : db.runs.insert? (newRun lib env r q) = some runs)
      (log : db.runEvents.insert? (firstEvent env r q) = some runEvents) :
      Writes lib env db (.create r q) { db with runs, runEvents }
  | attach {id row row' db'} (found : db.runs.find? row.runId = some row)
      (allowed : row.reservationId = none ∨ row.reservationId = some id)
      (after : row' = { row with reservationId := some id, updatedAt := env.now 0 })
      (sets : Sets db row row' db') (events : db'.runEvents = db.runEvents)
      (checkpoints : db'.runCheckpoints = db.runCheckpoints) :
      Writes lib env db (.attachReservation row.runId id) db'
  | reclaim {row row' db'} (found : db.runs.find? row.runId = some row)
      (running : row.state = .running)
      (after : row' = { row with
        workerAttempt := row.workerAttempt + 1, updatedAt := env.now 0 })
      (sets : Sets db row row' db') (events : db'.runEvents = db.runEvents)
      (checkpoints : db'.runCheckpoints = db.runCheckpoints) :
      Writes lib env db (.claim row.runId) db'
  | claim {row row' db'} (queued : row.state = .queued)
      (after : row' = { row with
        state := .running, workerAttempt := row.workerAttempt + 1,
        sequence := row.sequence + 1, updatedAt := env.now 0 })
      (logs : Logs env (env.now 1) db row "run.state_changed"
        [("state", .str "running"), ("trace_id", .str row.traceId),
          ("worker_attempt", .int (row.workerAttempt + 1))] row' db')
      (checkpoints : db'.runCheckpoints = db.runCheckpoints) :
      Writes lib env db (.claim row.runId) db'
  | move {call state payload row row' db'} (which : call.move? = some (row.runId, state, payload))
      (after : row' = { row with
        state := state, sequence := row.sequence + 1, updatedAt := env.now 1 })
      (moves : Moves env db row state payload row' db') : Writes lib env db call db'
  | cancel {row row' db'} (idle : row.state = .queued ∨ row.state = .waitingApproval)
      (after : row' = { row with
        state := .cancelled, sequence := row.sequence + 1, cancelRequested := false,
        updatedAt := env.now 1 })
      (moves : Moves env db row .cancelled [("reason", .str "user_cancelled")] row' db') :
      Writes lib env db (.markCancelRequested row.runId row.tenantId) db'
  | askCancel {row row' db'} (busy : row.state = .running ∨ row.state = .quotaPaused)
      (after : row' = { row with
        cancelRequested := true, sequence := row.sequence + 1, updatedAt := env.now 1 })
      (logs : Logs env (env.now 0) db row "run.state_changed"
        [("state", .str "running"), ("trace_id", .str row.traceId),
          ("cancellation_requested", .bool true)] row' db')
      (checkpoints : db'.runCheckpoints = db.runCheckpoints) :
      Writes lib env db (.markCancelRequested row.runId row.tenantId) db'
  | approve {row row' db'}
      (after : row' = { row with
        state := .running, sequence := row.sequence + 1, cancelRequested := false,
        updatedAt := env.now 1 })
      (moves : Moves env db row .running [("approval", .str "granted")] row' db') :
      Writes lib env db (.approve row.runId row.tenantId) db'
  | saveCheckpoint {r step saved inflightKey approvalId usageUnits row cp db'}
      (found : db.runs.find? r = some row)
      (after : cp = ⟨r, step, redactFields saved, inflightKey, approvalId, usageUnits⟩)
      (runs : db'.runs = db.runs) (events : db'.runEvents = db.runEvents)
      (checkpoints : ∀ x, db'.runCheckpoints.find? x
        = if x = r then some ⟨cp, env.now 0⟩ else db.runCheckpoints.find? x) :
      Writes lib env db (.saveCheckpoint r step saved inflightKey approvalId usageUnits) db'
  | appendToken {text row row' db'}
      (after : row' = { row with sequence := row.sequence + 1, updatedAt := env.now 2 })
      (logs : Logs env (env.now 0) db row "run.token"
        [("text", .str (redactText text)), ("trace_id", .str row.traceId)] row' db')
      (checkpoints : ∀ x, db'.runCheckpoints.find? x = (db.runCheckpoints.find? x).map fun c =>
        if x = row.runId then c.emitted (env.now 1) else c) :
      Writes lib env db (.appendToken row.runId text) db'
  | complete {n row row' db'} (running : row.state = .running)
      (after : row' = { row with
        state := .completed, sequence := row.sequence + 1,
        result := [("usage_units", .int n)], updatedAt := env.now 1 })
      (logs : Logs env (env.now 0) db row "run.completed"
        [("usage_units", .int n), ("trace_id", .str row.traceId)] row' db')
      (checkpoints : db'.runCheckpoints = db.runCheckpoints) :
      Writes lib env db (.complete row.runId n) db'

variable {lib : RunLibrary} {env : Env} {db db' : RunDatabase}

/-- A call that returned changed nothing or was a write. -/
theorem body_cases {call : Call} {answer : call.Answer}
    (h : call.body lib env db = .ok (answer, db')) : db' = db ∨ Writes lib env db call db' := by
  cases call with
  | create r q =>
    obtain ⟨run, created⟩ := answer
    obtain ⟨row, -, -, -, -, hdb⟩ | ⟨runs, runEvents, hfresh, hins, hlog, -, -, rfl⟩ :=
      create_eq_ok h
    · exact Or.inl hdb
    · exact Or.inr (.create hfresh hins hlog)
  | get r t =>
    obtain ⟨run, -, h⟩ := bind_eq_ok.mp h
    exact Or.inl (Prod.mk.inj (Except.ok.inj h)).2.symm
  | attachReservation r id =>
    obtain ⟨row, row', hrow, hallowed, hafter, hsets, hev, hcps, -⟩ := attachReservation_eq_ok h
    obtain ⟨-, rfl⟩ := Table.find?_eq_some.mp hrow
    exact Or.inr (.attach hrow hallowed hafter hsets hev hcps)
  | claim r =>
    obtain ⟨row, row', hrow, -, hclaim⟩ := claim_eq_ok h
    obtain ⟨-, rfl⟩ := Table.find?_eq_some.mp hrow
    rcases hclaim with ⟨-, -, -, hdb⟩ | ⟨hrunning, hafter, hsets, hev, hcps⟩ |
      ⟨hqueued, hafter, hlogs, hcps⟩
    · exact Or.inl hdb
    · exact Or.inr (.reclaim hrow hrunning hafter hsets hev hcps)
    · exact Or.inr (.claim hqueued hafter hlogs hcps)
  | transition r state payload =>
    obtain ⟨row, row', hrow, hafter, hmoves, -⟩ := transition_eq_ok h
    obtain ⟨-, rfl⟩ := Table.find?_eq_some.mp hrow
    exact Or.inr (.move rfl hafter hmoves)
  | markCancelRequested r t =>
    obtain ⟨row, row', hrow, rfl, -, hcancel⟩ := markCancelRequested_eq_ok h
    obtain ⟨-, rfl⟩ := Table.find?_eq_some.mp hrow
    rcases hcancel with ⟨-, -, hdb⟩ | ⟨hidle, hafter, hmoves⟩ | ⟨hbusy, hafter, hlogs, hcps⟩
    · exact Or.inl hdb
    · exact Or.inr (.cancel hidle hafter hmoves)
    · exact Or.inr (.askCancel hbusy hafter hlogs hcps)
  | approve r t =>
    obtain ⟨row, row', hrow, rfl, hafter, hmoves, -⟩ := approve_eq_ok h
    obtain ⟨-, rfl⟩ := Table.find?_eq_some.mp hrow
    exact Or.inr (.approve hafter hmoves)
  | fail r reason =>
    obtain ⟨row, row', hrow, hafter, hmoves, -⟩ := transition_eq_ok h
    obtain ⟨-, rfl⟩ := Table.find?_eq_some.mp hrow
    exact Or.inr (.move rfl hafter hmoves)
  | pauseQuota r d n =>
    obtain ⟨-, -, h⟩ := bind_eq_ok.mp h
    obtain ⟨row, row', hrow, hafter, hmoves, -⟩ := transition_eq_ok h
    obtain ⟨-, rfl⟩ := Table.find?_eq_some.mp hrow
    exact Or.inr (.move rfl hafter hmoves)
  | saveCheckpoint r step saved inflightKey approvalId usageUnits =>
    obtain ⟨hafter, ⟨row, hrow⟩, hruns, hev, hcps⟩ := saveCheckpoint_eq_ok h
    exact Or.inr (.saveCheckpoint hrow hafter hruns hev hcps)
  | checkpoint r => exact Or.inl (Prod.mk.inj (Except.ok.inj h)).2.symm
  | appendToken r text =>
    obtain ⟨row, row', hrow, hafter, hlogs, -, hcps⟩ := appendToken_eq_ok h
    obtain ⟨-, rfl⟩ := Table.find?_eq_some.mp hrow
    exact Or.inr (.appendToken hafter hlogs hcps)
  | complete r n =>
    obtain ⟨row, row', hrow, hrunning, hafter, hlogs, hcps, -⟩ := complete_eq_ok h
    obtain ⟨-, rfl⟩ := Table.find?_eq_some.mp hrow
    exact Or.inr (.complete hrunning hafter hlogs hcps)

/-- **What a call does to the tables**: nothing, or one of the writes. -/
theorem step_cases (lib : RunLibrary) (env : Env) (call : Call) (db : RunDatabase) :
    step lib db (env, call) = db ∨ Writes lib env db call (step lib db (env, call)) :=
  snd_atomically_of (I := fun db' => db' = db ∨ Writes lib env db call db') (Or.inl rfl)
    fun _ _ => body_cases

/-! ### What a write leaves alone -/

/-- What a row keeps: its request, a reservation once it has one, and the end of
a run that has come to one for good. -/
structure Continues (row row' : RunRow) : Prop where
  request : row'.toRun = { row.toRun with
      state := row'.state, sequence := row'.sequence, reservationId := row'.reservationId,
      cancelRequested := row'.cancelRequested, workerAttempt := row'.workerAttempt,
      result := row'.result } ∧
    row'.requestHash = row.requestHash
  reservation : ∀ id, row.reservationId = some id → row'.reservationId = some id
  final : row.state.transitions = [] → row'.state = row.state ∧ row'.result = row.result

variable {row row' : RunRow}

theorem Continues.refl (row : RunRow) : Continues row row :=
  ⟨⟨rfl, rfl⟩, fun _ h => h, fun _ => ⟨rfl, rfl⟩⟩

theorem Continues.trans {row'' : RunRow} (h : Continues row row') (h' : Continues row' row'') :
    Continues row row'' where
  request := ⟨by rw [h'.request.1, h.request.1], h'.request.2.trans h.request.2⟩
  reservation id hid := h'.reservation id (h.reservation id hid)
  final hfinal := by
    obtain ⟨hstate, hresult⟩ := h.final hfinal
    obtain ⟨hstate', hresult'⟩ := h'.final (hstate ▸ hfinal)
    exact ⟨hstate'.trans hstate, hresult'.trans hresult⟩

/-- **The four kinds of change**: a run is created and announced, a row changes
without an event, a row changes with one, a checkpoint is saved. -/
inductive Effect (lib : RunLibrary) (env : Env) (db db' : RunDatabase) : Prop
  | created {r : String} {q : RunCreate}
      (insert : db.runs.insert? (newRun lib env r q) = some db'.runs)
      (log : db.runEvents.insert? (firstEvent env r q) = some db'.runEvents)
  | set {row row' : RunRow} (found : db.runs.find? row.runId = some row)
      (sets : Sets db row row' db') (goes : Continues row row') (same : row'.sequence = row.sequence)
      (events : db'.runEvents = db.runEvents)
  | logged {now event : String} {data : List (String × Json)} {row row' : RunRow}
      (logs : Logs env now db row event data row' db') (goes : Continues row row')
  | saved (runs : db'.runs = db.runs) (events : db'.runEvents = db.runEvents)

/-- A run that moves has not come to an end for good. -/
theorem Moves.transitions_ne_nil {state : RunState}
    {payload : List (String × Json)} (h : Moves env db row state payload row' db') :
    row.state.transitions ≠ [] := List.ne_nil_of_mem h.allowed

theorem Writes.effect {call : Call} (h : Writes lib env db call db') : Effect lib env db db' := by
  cases h with
  | create _ insert log => exact .created insert log
  | @attach id row row' _ found allowed after sets events _ =>
    subst after
    refine .set found sets ⟨⟨rfl, rfl⟩, ?_, fun _ => ⟨rfl, rfl⟩⟩ rfl events
    intro id' hid'
    rcases allowed with hnone | hsame
    · rw [hnone] at hid'
      cases hid'
    · rw [← hid', hsame]
  | reclaim found _ after sets events _ =>
    subst after
    exact .set found sets ⟨⟨rfl, rfl⟩, fun _ h => h, fun _ => ⟨rfl, rfl⟩⟩ rfl events
  | claim queued after logs _ =>
    subst after
    exact .logged logs ⟨⟨rfl, rfl⟩, fun _ h => h, fun h => by rw [queued] at h; cases h⟩
  | move _ after moves =>
    subst after
    exact .logged moves.logs
      ⟨⟨rfl, rfl⟩, fun _ h => h, fun h => absurd h moves.transitions_ne_nil⟩
  | cancel _ after moves =>
    subst after
    exact .logged moves.logs
      ⟨⟨rfl, rfl⟩, fun _ h => h, fun h => absurd h moves.transitions_ne_nil⟩
  | askCancel _ after logs _ =>
    subst after
    exact .logged logs ⟨⟨rfl, rfl⟩, fun _ h => h, fun _ => ⟨rfl, rfl⟩⟩
  | approve after moves =>
    subst after
    exact .logged moves.logs
      ⟨⟨rfl, rfl⟩, fun _ h => h, fun h => absurd h moves.transitions_ne_nil⟩
  | saveCheckpoint _ _ runs events _ => exact .saved runs events
  | appendToken after logs _ =>
    subst after
    exact .logged logs ⟨⟨rfl, rfl⟩, fun _ h => h, fun _ => ⟨rfl, rfl⟩⟩
  | complete running after logs _ =>
    subst after
    exact .logged logs ⟨⟨rfl, rfl⟩, fun _ h => h, fun h => by rw [running] at h; cases h⟩

theorem step_effect (lib : RunLibrary) (env : Env) (call : Call) (db : RunDatabase) :
    step lib db (env, call) = db ∨ Effect lib env db (step lib db (env, call)) :=
  (step_cases lib env call db).imp_right Writes.effect

/-! ### A row before and after -/

/-- What a call can make of a row. -/
inductive Update (env : Env) (row : RunRow) : Call → RunRow → Prop
  | attach (id : String) (allowed : row.reservationId = none ∨ row.reservationId = some id) :
      Update env row (.attachReservation row.runId id)
        { row with reservationId := some id, updatedAt := env.now 0 }
  | reclaim (running : row.state = .running) : Update env row (.claim row.runId)
      { row with workerAttempt := row.workerAttempt + 1, updatedAt := env.now 0 }
  | claim (queued : row.state = .queued) : Update env row (.claim row.runId)
      { row with
        state := .running, workerAttempt := row.workerAttempt + 1, sequence := row.sequence + 1,
        updatedAt := env.now 0 }
  | move {call : Call} {state : RunState} {payload : List (String × Json)}
      (which : call.move? = some (row.runId, state, payload))
      (allowed : state ∈ row.state.transitions) : Update env row call
      { row with state := state, sequence := row.sequence + 1, updatedAt := env.now 1 }
  | cancel (idle : row.state = .queued ∨ row.state = .waitingApproval) :
      Update env row (.markCancelRequested row.runId row.tenantId)
        { row with
          state := .cancelled, sequence := row.sequence + 1, cancelRequested := false,
          updatedAt := env.now 1 }
  | askCancel (busy : row.state = .running ∨ row.state = .quotaPaused) :
      Update env row (.markCancelRequested row.runId row.tenantId)
        { row with
          cancelRequested := true, sequence := row.sequence + 1, updatedAt := env.now 1 }
  | approve (allowed : .running ∈ row.state.transitions) :
      Update env row (.approve row.runId row.tenantId)
        { row with
          state := .running, sequence := row.sequence + 1, cancelRequested := false,
          updatedAt := env.now 1 }
  | appendToken (text : String) : Update env row (.appendToken row.runId text)
      { row with sequence := row.sequence + 1, updatedAt := env.now 2 }
  | complete (n : ℤ) (running : row.state = .running) : Update env row (.complete row.runId n)
      { row with
        state := .completed, sequence := row.sequence + 1, result := [("usage_units", .int n)],
        updatedAt := env.now 1 }

/-- A row after a write that changes one row. -/
theorem Sets.updated {call : Call} {r : String} {now : RunRow} (hsets : Sets db row row' db')
    (hrow : db.runs.find? row.runId = some row) (hnow : db'.runs.find? r = some now)
    (hupdate : Update env row call row') :
    db.runs.find? r = some now ∨ (∃ q, call = .create r q ∧ now = newRun lib env r q ∧
        db.runs.find? r = none) ∨
      ∃ row, db.runs.find? r = some row ∧ Update env row call now := by
  rw [hsets r] at hnow
  by_cases hr : r = row.runId
  · rw [if_pos hr] at hnow
    obtain rfl := Option.some.inj hnow
    exact Or.inr (Or.inr ⟨row, hr ▸ hrow, hupdate⟩)
  · rw [if_neg hr] at hnow
    exact Or.inl hnow

/-- **A row after a call**: it was so before, it is new, or it is what the call
makes of the row before. -/
theorem step_row {call : Call} {r : String} {now : RunRow}
    (hnow : (step lib db (env, call)).runs.find? r = some now) :
    db.runs.find? r = some now ∨ (∃ q, call = .create r q ∧ now = newRun lib env r q ∧
        db.runs.find? r = none) ∨
      ∃ row, db.runs.find? r = some row ∧ Update env row call now := by
  rcases step_cases lib env call db with hsame | hwrites
  · exact Or.inl (hsame ▸ hnow)
  · generalize step lib db (env, call) = db' at hwrites hnow
    cases hwrites with
    | @create r' q runs runEvents _ insert _ =>
      change runs.find? r = some now at hnow
      rw [Table.find?_insert insert] at hnow
      change (if r' = r then _ else _) = _ at hnow
      by_cases hr : r' = r
      · subst hr
        rw [if_pos rfl] at hnow
        refine Or.inr (Or.inl ⟨q, rfl, (Option.some.inj hnow).symm, ?_⟩)
        exact Table.find?_eq_none.mpr (Table.insert?_eq_some insert).2.2.1
      · exact Or.inl ((if_neg hr).symm.trans hnow)
    | attach found allowed after sets _ _ =>
      exact sets.updated found hnow (after ▸ .attach _ allowed)
    | reclaim found running after sets _ _ =>
      exact sets.updated found hnow (after ▸ .reclaim running)
    | claim queued after logs _ => exact logs.sets.updated logs.found hnow (after ▸ .claim queued)
    | move which after moves =>
      exact moves.logs.sets.updated moves.logs.found hnow (after ▸ .move which moves.allowed)
    | cancel idle after moves =>
      exact moves.logs.sets.updated moves.logs.found hnow (after ▸ .cancel idle)
    | askCancel busy after logs _ =>
      exact logs.sets.updated logs.found hnow (after ▸ .askCancel busy)
    | approve after moves =>
      exact moves.logs.sets.updated moves.logs.found hnow (after ▸ .approve moves.allowed)
    | saveCheckpoint _ _ runs _ _ => exact Or.inl (runs ▸ hnow)
    | appendToken after logs _ =>
      exact logs.sets.updated logs.found hnow (after ▸ .appendToken _)
    | complete running after logs _ =>
      exact logs.sets.updated logs.found hnow (after ▸ .complete _ running)

/-- **A checkpoint after a call**: it was so before, it was saved, or its output was
put out. -/
theorem step_checkpoint {call : Call} {r : String} {now : CheckpointRow}
    (hnow : (step lib db (env, call)).runCheckpoints.find? r = some now) :
    db.runCheckpoints.find? r = some now ∨
      (∃ n saved inflightKey approvalId usageUnits,
        call = .saveCheckpoint r n saved inflightKey approvalId usageUnits ∧
        now = ⟨⟨r, n, redactFields saved, inflightKey, approvalId, usageUnits⟩, env.now 0⟩) ∨
      ∃ text before, call = .appendToken r text ∧ db.runCheckpoints.find? r = some before ∧
        now = before.emitted (env.now 1) := by
  rcases step_cases lib env call db with hsame | hwrites
  · exact Or.inl (hsame ▸ hnow)
  · generalize step lib db (env, call) = db' at hwrites hnow
    cases hwrites with
    | create => exact Or.inl hnow
    | attach _ _ _ _ _ checkpoints | reclaim _ _ _ _ _ checkpoints | claim _ _ _ checkpoints
    | askCancel _ _ _ checkpoints | complete _ _ _ checkpoints => exact Or.inl (checkpoints ▸ hnow)
    | move _ _ moves | cancel _ _ moves | approve _ moves =>
      exact Or.inl (moves.checkpoints ▸ hnow)
    | @saveCheckpoint r' _ _ _ _ _ _ _ _ _ after _ _ checkpoints =>
      rw [checkpoints r] at hnow
      by_cases hr : r = r'
      · subst hr
        rw [if_pos rfl] at hnow
        refine Or.inr (Or.inl ⟨_, _, _, _, _, rfl, ?_⟩)
        rw [← Option.some.inj hnow, after]
      · rw [if_neg hr] at hnow
        exact Or.inl hnow
    | @appendToken text row _ _ _ _ checkpoints =>
      rw [checkpoints r] at hnow
      obtain ⟨before, hbefore, rfl⟩ := Option.map_eq_some_iff.mp hnow
      by_cases hr : r = row.runId
      · subst hr
        rw [if_pos rfl]
        exact Or.inr (Or.inr ⟨text, before, rfl, hbefore, rfl⟩)
      · rw [if_neg hr]
        exact Or.inl hbefore

end RunStore

end AiSaas
