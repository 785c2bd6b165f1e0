import AiSaas.AgentWorker.Runtime
import AiSaas.AgentWorker.Workload
import AiSaas.Metering.Lifecycle
import AiSaas.RunService.Returns

/-!
# Where a run stands

What a worker can find of a run when it begins, and leaves of it when it stops: the
run's state, its checkpoint, the texts put out so far, and what has become of its
reservation.  For each of the worker's operations, where the run stands afterwards.

## Main definitions

* `RunDatabase.tokensOf`, `CreditLedger.committedOf`, `RunWorld.outcomeOf` — what is
  seen of a run.
* `Job` — what does not change while a run is executed.
* `Hold` — the reservation is held, was charged, or was released.
* `Stands` — where a run stands.

## Main results

* `Stands.claim`, `Stands.save`, `Stands.putOut`, `Stands.move`, `Stands.complete` —
  the calls of the run store.
* `Stands.commit`, `Stands.commit_again`, `Stands.commit_refused`, `Stands.release` —
  those of the ledger.
-/

namespace AiSaas

open Relational Transaction Processes NumberedLog

/-! ### What is seen of a run -/

/-- The texts of a run's `run.token` events, in the order they were written. -/
def RunDatabase.tokensOf (db : RunDatabase) (runId : String) : List Json :=
  ((db.eventsOf runId).filter fun e => decide (e.event = "run.token")).map
    fun e => Json.get e.data "text"

/-- The units a reservation was charged. -/
def CreditLedger.committedOf (db : Database) (reservationId : String) : ℤ :=
  ((entriesOf db reservationId).map fun e => -e.amount).sum

/-- What is seen of a run. -/
def RunWorld.outcomeOf (w : RunWorld) (runId : String) : Option Outcome :=
  (w.runs.runs.find? runId).map fun row =>
    ⟨row.state, w.runs.tokensOf runId,
      row.reservationId.elim 0 (CreditLedger.committedOf w.ledger)⟩

/-! ### Where a run stands -/

/-- What does not change while a run is executed. -/
structure Job where
  runId : String
  reservation : Option String
  calls : ℕ
  runtime : ℚ
  load : Workload

/-- The reservation of a run that has one. -/
def Job.reservationId (job : Job) : String := job.reservation.getD ""

/-- A run with the limits and the reservation of a job, that is not to be cancelled. -/
structure Job.Fits (job : Job) (run : Run) : Prop where
  uncancelled : run.cancelRequested = false
  reservation : run.reservationId = job.reservation
  steps : run.maxSteps = job.load.maxSteps
  calls : run.maxModelCalls.toNat = job.calls
  runtime : run.maxRuntimeSeconds = job.runtime

/-- `state["token_emitted"] = True`. -/
def Checkpoint.emitted (c : Checkpoint) : Checkpoint :=
  { c with state := Json.update c.state [("token_emitted", .bool true)] }

/-- The other keys of a state are as they were. -/
theorem Checkpoint.get_emitted (c : Checkpoint) {key : String} (hkey : key ≠ "token_emitted") :
    Json.get c.emitted.state key = Json.get c.state key := by
  have hlookup : ∀ fields : List (String × Json),
      (fields.filter fun f => (List.lookup f.1 [("token_emitted", Json.bool true)]).isNone).lookup key
        = fields.lookup key := by
    intro fields
    induction fields with
    | nil => rfl
    | cons f fields ih =>
      obtain ⟨name, value⟩ := f
      by_cases hname : name = "token_emitted"
      · have hne : (key == name) = false := by simp [hname, hkey]
        rw [List.filter_cons_of_neg (by simp [hname]), ih, List.lookup_cons, hne]
      · rw [List.filter_cons_of_pos (by simp [hname]), List.lookup_cons, List.lookup_cons, ih]
  have hne : (key == "token_emitted") = false := by simp [hkey]
  change ((("token_emitted", Json.bool true) :: _).lookup key).getD .null = _
  rw [List.lookup_cons, hne]
  exact congrArg (fun value => Option.getD value .null) (hlookup c.state)

/-- A run is on file: its state, its checkpoint and its texts. -/
structure OnFile (job : Job) (state : RunState) (checkpoint : Option Checkpoint)
    (tokens : List Json) (db : RunDatabase) : Prop where
  gapless : db.Gapless
  row : ∃ row, db.runs.find? job.runId = some row ∧ row.state = state ∧ job.Fits row.toRun
  checkpoint : RunStore.checkpoint job.runId db = checkpoint
  tokens : db.tokensOf job.runId = tokens

/-- What has become of a reservation. -/
inductive Hold where
  | held
  | charged (units : ℤ)
  | freed
  deriving DecidableEq

/-- A reservation is held and can pay what it can, was charged under the run's key, or
was released. -/
def Job.Holds (job : Job) (db : Database) : Hold → Prop
  | .held => (∃ x, db.reservations.find? job.reservationId = some x ∧ x.status = .reserved) ∧
    db.runLedger.findBy? (BoundedWorker.commitKey job.runId) = none ∧
    CreditLedger.entriesOf db job.reservationId = [] ∧
    ∀ u, CreditLedger.payable db job.reservationId u = job.load.payable u
  | .charged u => (∃ x, db.reservations.find? job.reservationId = some x ∧ x.status = .committed) ∧
    ∃ e, db.runLedger.findBy? (BoundedWorker.commitKey job.runId) = some e ∧
      e.reservationId = job.reservationId ∧ e.amount = -u ∧
      CreditLedger.entriesOf db job.reservationId = [e]
  | .freed => (∃ x, db.reservations.find? job.reservationId = some x ∧ x.status = .released) ∧
    db.runLedger.findBy? (BoundedWorker.commitKey job.runId) = none ∧
    CreditLedger.entriesOf db job.reservationId = []

/-- The units a reservation was charged. -/
def Hold.units : Hold → ℤ
  | .held | .freed => 0
  | .charged u => u

/-- Where a run stands. -/
structure Stands (job : Job) (state : RunState) (checkpoint : Option Checkpoint)
    (tokens : List Json) (hold : Hold) (w : RunWorld) : Prop where
  file : OnFile job state checkpoint tokens w.runs
  reserved : present job.reservation = some job.reservationId
  hold : job.Holds w.ledger hold

variable {lib : RunLibrary} {policy : QuotaPolicy} {d : Drawn} {w : RunWorld} {job : Job}
  {state state' : RunState} {checkpoint checkpoint' : Option Checkpoint} {tokens : List Json}
  {hold : Hold} {u : ℤ}

theorem Job.Holds.committed {db : Database} (h : job.Holds db hold) :
    CreditLedger.committedOf db job.reservationId = hold.units := by
  cases hold with
  | held =>
    obtain ⟨-, -, hentries, -⟩ := h
    rw [CreditLedger.committedOf, hentries]
    rfl
  | charged u =>
    obtain ⟨-, e, -, -, hamount, hentries⟩ := h
    rw [CreditLedger.committedOf, hentries]
    simp [hamount, Hold.units]
  | freed =>
    obtain ⟨-, -, hentries⟩ := h
    rw [CreditLedger.committedOf, hentries]
    rfl

/-- What is seen of a run that is on file. -/
theorem OnFile.outcome (h : OnFile job state checkpoint tokens w.runs) : w.outcomeOf job.runId
    = some ⟨state, tokens, job.reservation.elim 0 (CreditLedger.committedOf w.ledger)⟩ := by
  obtain ⟨row, hrow, hstate, hfits⟩ := h.row
  have hreservation : row.reservationId = job.reservation := hfits.reservation
  rw [RunWorld.outcomeOf, hrow, Option.map_some, hstate, h.tokens, hreservation]

/-- What is seen of a run that stands somewhere. -/
theorem Stands.outcome (h : Stands job state checkpoint tokens hold w) :
    w.outcomeOf job.runId = some ⟨state, tokens, hold.units⟩ := by
  rw [h.file.outcome, (present_eq_some.mp h.reserved).1, Option.elim_some, h.hold.committed]

/-! ### Writes of the run store -/

section Writes

variable {env : Env} {now event : String} {data : List (String × Json)} {db db' : RunDatabase}
  {row row' : RunRow}

theorem tokensOf_logs (hlogs : RunStore.Logs env now db row event data row' db') :
    db'.tokensOf row.runId
      = db.tokensOf row.runId ++ if event = "run.token" then [Json.get data "text"] else [] := by
  have hevents : db'.eventsOf row.runId
      = db.eventsOf row.runId ++ [RunStore.nextEvent env now row event data] := by
    rw [RunDatabase.eventsOf, (Table.insert?_eq_some hlogs.insert).1, ofStream_concat]
    exact congrArg _ (if_pos rfl)
  rw [RunDatabase.tokensOf, hevents, List.filter_append, List.map_append, ← RunDatabase.tokensOf]
  by_cases hevent : event = "run.token"
  · simp [RunStore.nextEvent, hevent]
  · simp [RunStore.nextEvent, hevent]

/-- An announced change of the run. -/
theorem OnFile.logs (h : OnFile job state checkpoint tokens db)
    (hlogs : RunStore.Logs env now db row event data row' db') (hid : row.runId = job.runId)
    (hfits : job.Fits row'.toRun) (hcheckpoint : RunStore.checkpoint job.runId db' = checkpoint') :
    OnFile job row'.state checkpoint'
      (tokens ++ if event = "run.token" then [Json.get data "text"] else []) db' where
  gapless := RunStore.gapless_of_logs h.gapless hlogs
  row := ⟨row', (hlogs.sets _).trans (if_pos hid.symm), rfl, hfits⟩
  checkpoint := hcheckpoint
  tokens := by rw [← hid, tokensOf_logs hlogs, hid, h.tokens]

/-- The row of a run that is on file. -/
theorem OnFile.found (h : OnFile job state checkpoint tokens db) : ∃ row,
    db.runs.find? job.runId = some row ∧ row.runId = job.runId ∧ row.state = state ∧
      job.Fits row.toRun := by
  obtain ⟨row, hrow, hstate, hfits⟩ := h.row
  exact ⟨row, hrow, (Table.find?_eq_some.mp hrow).2, hstate, hfits⟩

/-- **A run is claimed.** -/
theorem OnFile.claim (h : OnFile job state checkpoint tokens db)
    (hactive : state = .queued ∨ state = .running)
    (hnew : ∀ e ∈ db.runEvents.rows, e.eventId ≠ "event-" ++ env.uuid 0) :
    ∃ run db', RunStore.claim env job.runId db = .ok (run, db') ∧ run.state = .running ∧
      job.Fits run ∧ OnFile job .running checkpoint tokens db' := by
  obtain ⟨row, hrow, hid, rfl, hfits⟩ := h.found
  obtain ⟨run, db', hclaim⟩ := RunStore.claim_returns h.gapless hnew hrow
  refine ⟨run, db', hclaim, ?_⟩
  obtain ⟨row₀, row', hrow₀, rfl, hcases⟩ := RunStore.claim_eq_ok hclaim
  obtain rfl := Option.some.inj (hrow₀.symm.trans hrow)
  have hkept : ∀ {db' : RunDatabase}, db'.runCheckpoints = db.runCheckpoints →
      RunStore.checkpoint job.runId db' = checkpoint := by
    intro db' hsame
    rw [RunStore.checkpoint, hsame]
    exact h.checkpoint
  rcases hcases with ⟨hqueued, hrunning, -⟩ | ⟨hrunning, rfl, hsets, hevents, hsame⟩ |
    ⟨hqueued, rfl, hlogs, hsame⟩
  · rcases hactive with hstate | hstate
    · exact absurd hstate hqueued
    · exact absurd hstate hrunning
  · refine ⟨hrunning, ⟨hfits.1, hfits.2, hfits.3, hfits.4, hfits.5⟩, ?_, ?_, hkept hsame, ?_⟩
    · exact RunStore.gapless_of_sets h.gapless (hid.symm ▸ hrow) hsets rfl hevents
    · exact ⟨_, (hsets _).trans (if_pos hid.symm), hrunning,
        ⟨hfits.1, hfits.2, hfits.3, hfits.4, hfits.5⟩⟩
    · rw [RunDatabase.tokensOf, RunDatabase.eventsOf, hevents]
      exact h.tokens
  · have hfits' : job.Fits { row₀.toRun with
        state := .running, workerAttempt := row₀.workerAttempt + 1,
        sequence := row₀.sequence + 1 } :=
      ⟨hfits.1, hfits.2, hfits.3, hfits.4, hfits.5⟩
    have hafter := h.logs hlogs hid hfits' (hkept hsame)
    rw [if_neg (by decide), List.append_nil] at hafter
    exact ⟨rfl, hfits', hafter⟩

/-- **A run is moved**: it fails, or waits for approval. -/
theorem OnFile.move {payload : List (String × Json)} (h : OnFile job state checkpoint tokens db)
    (hmove : state' ∈ state.transitions)
    (hnew : ∀ e ∈ db.runEvents.rows, e.eventId ≠ "event-" ++ env.uuid 0) :
    ∃ run db', RunStore.transition env job.runId state' payload db = .ok (run, db') ∧
      OnFile job state' checkpoint tokens db' := by
  obtain ⟨row, hrow, hid, rfl, hfits⟩ := h.found
  obtain ⟨run, db', hmoved⟩ :=
    RunStore.transition_returns h.gapless hnew hrow payload hmove
  refine ⟨run, db', hmoved, ?_⟩
  obtain ⟨row₀, row', hrow₀, rfl, hmoves, -⟩ := RunStore.transition_eq_ok hmoved
  obtain rfl := Option.some.inj (hrow₀.symm.trans hrow)
  have hkept : RunStore.checkpoint job.runId db' = checkpoint := by
    rw [RunStore.checkpoint, hmoves.checkpoints]
    exact h.checkpoint
  have hafter := h.logs hmoves.logs hid ⟨hfits.1, hfits.2, hfits.3, hfits.4, hfits.5⟩ hkept
  rw [if_neg (by decide), List.append_nil] at hafter
  exact hafter

/-- **A run is completed.** -/
theorem OnFile.complete {n : ℤ} (h : OnFile job .running checkpoint tokens db)
    (hnew : ∀ e ∈ db.runEvents.rows, e.eventId ≠ "event-" ++ env.uuid 0) :
    ∃ run db', RunStore.complete env job.runId n db = .ok (run, db') ∧
      OnFile job .completed checkpoint tokens db' := by
  obtain ⟨row, hrow, hid, hrunning, hfits⟩ := h.found
  obtain ⟨run, db', hcompleted⟩ := RunStore.complete_returns (n := n) h.gapless hnew hrow hrunning
  refine ⟨run, db', hcompleted, ?_⟩
  obtain ⟨row₀, row', hrow₀, -, rfl, hlogs, hsame, -⟩ := RunStore.complete_eq_ok hcompleted
  obtain rfl := Option.some.inj (hrow₀.symm.trans hrow)
  have hkept : RunStore.checkpoint job.runId db' = checkpoint := by
    rw [RunStore.checkpoint, hsame]
    exact h.checkpoint
  have hafter := h.logs hlogs hid ⟨hfits.1, hfits.2, hfits.3, hfits.4, hfits.5⟩ hkept
  rw [if_neg (by decide), List.append_nil] at hafter
  exact hafter

/-- **A text is put out**, and the checkpoint remembers it. -/
theorem OnFile.putOut (h : OnFile job state checkpoint tokens db) (text : String)
    (hnew : ∀ e ∈ db.runEvents.rows, e.eventId ≠ "event-" ++ env.uuid 0) :
    ∃ e db', RunStore.appendToken env job.runId text db = .ok (e, db') ∧
      OnFile job state (checkpoint.map Checkpoint.emitted) (tokens ++ [tokenOf text]) db' := by
  obtain ⟨row, hrow, hid, rfl, hfits⟩ := h.found
  obtain ⟨e, db', hput⟩ := RunStore.appendToken_returns h.gapless hnew hrow text
  refine ⟨e, db', hput, ?_⟩
  obtain ⟨row₀, row', hrow₀, rfl, hlogs, -, hcheckpoints⟩ := RunStore.appendToken_eq_ok hput
  obtain rfl := Option.some.inj (hrow₀.symm.trans hrow)
  have hemitted : RunStore.checkpoint job.runId db' = checkpoint.map Checkpoint.emitted := by
    rw [← h.checkpoint, RunStore.checkpoint, RunStore.checkpoint, hcheckpoints]
    cases db.runCheckpoints.find? job.runId with
    | none => rfl
    | some c => simp [CheckpointRow.emitted, Checkpoint.emitted]
  exact h.logs hlogs hid ⟨hfits.1, hfits.2, hfits.3, hfits.4, hfits.5⟩ hemitted

/-- **A checkpoint is saved.** -/
theorem OnFile.save (h : OnFile job state checkpoint tokens db) (step : ℤ)
    (saved : List (String × Json)) (inflightKey approvalId : Option String) (usageUnits : ℤ) :
    ∃ cp db', RunStore.saveCheckpoint env job.runId step saved inflightKey approvalId usageUnits db
        = .ok (cp, db') ∧
      OnFile job state
        (some ⟨job.runId, step, redactFields saved, inflightKey, approvalId, usageUnits⟩) tokens
        db' := by
  obtain ⟨row, hrow, hid, hstate, hfits⟩ := h.found
  obtain ⟨cp, db', hsave⟩ := RunStore.saveCheckpoint_returns env step saved inflightKey
    approvalId usageUnits hrow
  refine ⟨cp, db', hsave, ?_⟩
  obtain ⟨rfl, -, hruns, hevents, hcheckpoints⟩ := RunStore.saveCheckpoint_eq_ok hsave
  refine ⟨?_, ⟨row, hruns ▸ hrow, hstate, hfits⟩, ?_, ?_⟩
  · unfold RunDatabase.Gapless
    rw [hevents]
    exact h.gapless.congr fun x => by rw [RunDatabase.sequenceOf, RunDatabase.sequenceOf, hruns]
  · rw [RunStore.checkpoint, hcheckpoints, if_pos rfl]
    rfl
  · rw [RunDatabase.tokensOf, RunDatabase.eventsOf, hevents]
    exact h.tokens

end Writes

/-! ### Writes of the ledger -/

section Ledger

variable {env : Env} {db db' : Database}

/-- **A commit that can be paid** charges the reservation. -/
theorem Job.Holds.commit (h : job.Holds db .held) (hu : 0 ≤ u) (hpay : job.load.payable u = true)
    (hnew : ∀ e ∈ db.runLedger.rows, e.entryId ≠ env.uuid 0) :
    ∃ com db', CreditLedger.commit env job.reservationId u (BoundedWorker.commitKey job.runId) db
        = .ok (com, db') ∧ job.Holds db' (.charged u) := by
  obtain ⟨⟨x, hx, hreserved⟩, hkey, hentries, hpayable⟩ := h
  obtain ⟨com, db', hcommit⟩ := CreditLedger.commit_returns hx hreserved hkey hu
    ((hpayable u).trans hpay) hnew
  refine ⟨com, db', hcommit, ?_⟩
  obtain ⟨-, x₀, hx₀, ⟨_, hfound, -⟩ | ⟨db₁, runLedger, -, -, -, hbalance, hins, rfl⟩⟩ :=
    CreditLedger.commit_eq_ok hcommit
  · rw [hkey] at hfound
    cases hfound
  · obtain rfl := Option.some.inj (hx₀.symm.trans hx)
    obtain ⟨-, _, -, -, rfl, -⟩ := Database.updateBalance_eq_ok hbalance
    have hid := (Table.find?_eq_some.mp hx).2
    refine ⟨⟨{ x₀ with status := .committed, updatedAt := env.now 1 }, ?_, rfl⟩,
      CreditLedger.newEntry env x₀ u (BoundedWorker.commitKey job.runId), ?_, hid, rfl, ?_⟩
    · rw [CreditLedger.find?_setStatus]
      change (db.reservations.find? _).map _ = _
      rw [hx, Option.map_some, if_pos rfl]
    · exact (Table.findBy?_insert hins _).trans (if_pos rfl)
    · have hself : decide ((CreditLedger.newEntry env x₀ u
          (BoundedWorker.commitKey job.runId)).reservationId = job.reservationId) = true :=
        decide_eq_true hid
      change runLedger.rows.filter _ = _
      rw [(Table.insert?_eq_some hins).1, List.filter_append]
      change CreditLedger.entriesOf db job.reservationId ++ _ = _
      rw [hentries, List.nil_append]
      exact List.filter_cons_of_pos hself

/-- A commit that is repeated finds its entry. -/
theorem Job.Holds.commit_again (h : job.Holds db (.charged u)) (hu : 0 ≤ u) (env : Env) :
    ∃ com, CreditLedger.commit env job.reservationId u (BoundedWorker.commitKey job.runId) db
      = .ok (com, db) := by
  obtain ⟨⟨x, hx, -⟩, e, hkey, hid, hamount, -⟩ := h
  exact ⟨_, CreditLedger.commit_replay hu hx hkey hid hamount⟩

/-- **A commit that cannot be paid**, or comes after the release, raises a `ValueError`. -/
theorem Job.Holds.commit_refused
    (h : job.Holds db .held ∧ job.load.payable u = false ∨ job.Holds db .freed) (env : Env) :
    ∃ e, CreditLedger.commit env job.reservationId u (BoundedWorker.commitKey job.runId) db
      = .error e ∧ e.isValueError = true := by
  rcases h with ⟨⟨⟨x, hx, hreserved⟩, hkey, -, hpayable⟩, hpay⟩ | ⟨⟨x, hx, hreleased⟩, hkey, -⟩
  · exact CreditLedger.commit_refused hx hreserved hkey ((hpayable u).trans hpay)
  · exact CreditLedger.commit_released hx hreleased hkey

/-- **A release** frees a reservation that is held. -/
theorem Job.Holds.release (h : job.Holds db .held ∨ job.Holds db .freed) (key : String) :
    ∃ res db', CreditLedger.release env job.reservationId key db = .ok (res, db') ∧
      job.Holds db' .freed := by
  rcases h with ⟨⟨x, hx, hreserved⟩, hkey, hentries, -⟩ | h
  · obtain ⟨res, db', hrelease⟩ := CreditLedger.exists_release_eq_ok env key hx
    refine ⟨res, db', hrelease, ?_⟩
    obtain ⟨x₀, hx₀, ⟨hnot, -⟩ | ⟨-, rfl⟩⟩ := CreditLedger.release_eq_ok hrelease
    · obtain rfl := Option.some.inj (hx₀.symm.trans hx)
      exact absurd hreserved hnot
    · refine ⟨⟨{ x with status := .released, updatedAt := env.now 0 }, ?_, rfl⟩, hkey, hentries⟩
      rw [CreditLedger.find?_setStatus, hx, Option.map_some, if_pos rfl]
  · obtain ⟨⟨x, hx, hreleased⟩, -⟩ := id h
    exact ⟨_, db, CreditLedger.release_replay hx (by rw [hreleased]; decide), h⟩

end Ledger

/-! ### The worker's operations -/

theorem Stands.claim (h : Stands job state checkpoint tokens hold w)
    (hactive : state = .queued ∨ state = .running) (hd : d.New w) :
    ∃ run w', RunWorld.exec lib policy d (.runs (.claim job.runId)) w = (.ok run, w') ∧
      Run.state run = .running ∧ job.Fits run ∧ Stands job .running checkpoint tokens hold w' := by
  obtain ⟨run, db, hclaim, hrunning, hfits, hfile⟩ := h.file.claim hactive hd.event
  exact ⟨run, _, exec_runs_ok hclaim, hrunning, hfits, hfile, h.reserved, h.hold⟩

theorem Stands.read (h : Stands job state checkpoint tokens hold w) (d : Drawn) :
    RunWorld.exec lib policy d (.runs (.checkpoint job.runId)) w = (.ok checkpoint, w) :=
  exec_runs_ok (show (RunStore.Call.checkpoint job.runId).body lib d.env w.runs = _ from
    congrArg (fun c => Except.ok (c, w.runs)) h.file.checkpoint)

theorem Stands.get (h : Stands job state checkpoint tokens hold w) (d : Drawn) :
    ∃ run, RunWorld.exec lib policy d (.runs (.get job.runId none)) w = (.ok run, w) ∧
      job.Fits run := by
  obtain ⟨row, hrow, -, -, hfits⟩ := h.file.found
  exact ⟨row.toRun, exec_runs_ok (RunStore.get_returns hrow), hfits⟩

theorem Stands.save (h : Stands job state checkpoint tokens hold w) (d : Drawn) (step : ℤ)
    (saved : List (String × Json)) (inflightKey approvalId : Option String) (usageUnits : ℤ) :
    ∃ cp w', RunWorld.exec lib policy d
        (.runs (.saveCheckpoint job.runId step saved inflightKey approvalId usageUnits)) w
        = (.ok cp, w') ∧
      Stands job state
        (some ⟨job.runId, step, redactFields saved, inflightKey, approvalId, usageUnits⟩) tokens hold
        w' := by
  obtain ⟨cp, db, hsave, hfile⟩ := h.file.save step saved inflightKey approvalId usageUnits
  exact ⟨cp, _, exec_runs_ok hsave, hfile, h.reserved, h.hold⟩

theorem Stands.putOut (h : Stands job state checkpoint tokens hold w) (text : String)
    (hd : d.New w) :
    ∃ e w', RunWorld.exec lib policy d (.runs (.appendToken job.runId text)) w = (.ok e, w') ∧
      Stands job state (checkpoint.map Checkpoint.emitted) (tokens ++ [tokenOf text]) hold w' := by
  obtain ⟨e, db, hput, hfile⟩ := h.file.putOut text hd.event
  exact ⟨e, _, exec_runs_ok hput, hfile, h.reserved, h.hold⟩

theorem Stands.wait (h : Stands job .running checkpoint tokens hold w)
    (payload : List (String × Json)) (hd : d.New w) :
    ∃ run w', RunWorld.exec lib policy d
        (.runs (.transition job.runId .waitingApproval payload)) w = (.ok run, w') ∧
      Stands job .waitingApproval checkpoint tokens hold w' := by
  obtain ⟨run, db, hmoved, hfile⟩ := h.file.move
    (show RunState.waitingApproval ∈ RunState.running.transitions by decide) hd.event
  exact ⟨run, _, exec_runs_ok hmoved, hfile, h.reserved, h.hold⟩

theorem Stands.fail (h : Stands job .running checkpoint tokens hold w) (reason : String)
    (hd : d.New w) :
    ∃ run w', RunWorld.exec lib policy d (.runs (.fail job.runId reason)) w = (.ok run, w') ∧
      Stands job .failed checkpoint tokens hold w' := by
  obtain ⟨run, db, hmoved, hfile⟩ := h.file.move
    (show RunState.failed ∈ RunState.running.transitions by decide) hd.event
  exact ⟨run, _, exec_runs_ok hmoved, hfile, h.reserved, h.hold⟩

theorem Stands.complete (h : Stands job .running checkpoint tokens hold w) (n : ℤ)
    (hd : d.New w) :
    ∃ run w', RunWorld.exec lib policy d (.runs (.complete job.runId n)) w = (.ok run, w') ∧
      Stands job .completed checkpoint tokens hold w' := by
  obtain ⟨run, db, hcompleted, hfile⟩ := h.file.complete hd.event
  exact ⟨run, _, exec_runs_ok hcompleted, hfile, h.reserved, h.hold⟩

/-- The commit of a worker, from a hold that was not charged. -/
theorem Stands.commit (h : Stands job state checkpoint tokens .held w) (hu : 0 ≤ u)
    (hpay : job.load.payable u = true) (hd : d.New w) :
    ∃ com w', RunWorld.exec lib policy d
        (.commit job.reservationId u (BoundedWorker.commitKey job.runId)) w = (.ok com, w') ∧
      Stands job state checkpoint tokens (.charged u) w' := by
  obtain ⟨com, db, hcommit, hhold⟩ := h.hold.commit hu hpay hd.entry
  exact ⟨com, _, exec_commit_ok hcommit, h.file, h.reserved, hhold⟩

theorem Stands.commit_again (h : Stands job state checkpoint tokens (.charged u) w) (hu : 0 ≤ u)
    (d : Drawn) :
    ∃ com, RunWorld.exec lib policy d
      (.commit job.reservationId u (BoundedWorker.commitKey job.runId)) w = (.ok com, w) := by
  obtain ⟨com, hcommit⟩ := h.hold.commit_again hu d.env
  exact ⟨com, exec_commit_ok hcommit⟩

theorem Stands.commit_refused (h : Stands job state checkpoint tokens hold w)
    (hrefused : hold = .held ∧ job.load.payable u = false ∨ hold = .freed) (d : Drawn) :
    ∃ e, RunWorld.exec lib policy d
        (.commit job.reservationId u (BoundedWorker.commitKey job.runId)) w = (.error e, w) ∧
      e.isValueError = true := by
  obtain ⟨e, hcommit, hvalue⟩ : ∃ e, CreditLedger.commit d.env job.reservationId u
      (BoundedWorker.commitKey job.runId) w.ledger = .error e ∧ e.isValueError = true := by
    apply Job.Holds.commit_refused
    rcases hrefused with ⟨rfl, hpay⟩ | rfl
    · exact Or.inl ⟨h.hold, hpay⟩
    · exact Or.inr h.hold
  exact ⟨e, exec_commit_error hcommit, hvalue⟩

theorem Stands.release (h : Stands job state checkpoint tokens hold w)
    (hfree : hold = .held ∨ hold = .freed) (d : Drawn) (key : String) :
    ∃ res w', RunWorld.exec lib policy d (.release job.reservationId key) w = (.ok res, w') ∧
      Stands job state checkpoint tokens .freed w' := by
  obtain ⟨res, db, hrelease, hhold⟩ : ∃ res db, CreditLedger.release d.env job.reservationId key
      w.ledger = .ok (res, db) ∧ job.Holds db .freed := by
    apply Job.Holds.release
    rcases hfree with rfl | rfl
    · exact Or.inl h.hold
    · exact Or.inr h.hold
  exact ⟨res, _, exec_release_ok hrelease, h.file, h.reserved, hhold⟩

end AiSaas
