import AiSaas.RunService.Operations
import AiSaas.RunService.Replay

/-!
# Calls that return

`uuid4` draws an id that is not in use, and a run's next event has the number after
its last.  So a call that meets its own checks finds no constraint in its way and
returns; what it then did is read off the inversion lemmas.

## Main definitions

* `Drawn.New` — what is drawn is no id in use.

## Main results

* `RunStore.create_returns`, `RunStore.claim_returns` and their like.
* `exec_runs_ok`, `exec_quota_ok`, `exec_reserve_ok` — an operation whose body returns.
-/

namespace AiSaas

open Relational Transaction Processes NumberedLog

/-- The ids of what is written are new. -/
structure Drawn.New (d : Drawn) (w : RunWorld) : Prop where
  event : ∀ e ∈ w.runs.runEvents.rows, e.eventId ≠ "event-" ++ d.env.uuid 0
  reservation : ∀ x ∈ w.ledger.reservations.rows, x.reservationId ≠ "reservation-" ++ d.env.uuid 0
  entry : ∀ e ∈ w.ledger.runLedger.rows, e.entryId ≠ d.env.uuid 0

instance (d : Drawn) (w : RunWorld) : Decidable (d.New w) :=
  decidable_of_iff ((∀ e ∈ w.runs.runEvents.rows, e.eventId ≠ "event-" ++ d.env.uuid 0) ∧
      (∀ x ∈ w.ledger.reservations.rows, x.reservationId ≠ "reservation-" ++ d.env.uuid 0) ∧
      ∀ e ∈ w.ledger.runLedger.rows, e.entryId ≠ d.env.uuid 0)
    ⟨fun h => ⟨h.1, h.2.1, h.2.2⟩, fun h => ⟨h.event, h.reservation, h.entry⟩⟩

/-! ### Operations whose body returns -/

section Operations

variable {lib : RunLibrary} {policy : QuotaPolicy} {d : Drawn} {w : RunWorld}

theorem exec_runs_ok {call : RunStore.Call} {a : call.Answer} {db : RunDatabase}
    (h : call.body lib d.env w.runs = .ok (a, db)) :
    RunWorld.exec lib policy d (.runs call) w = (.ok a, { w with runs := db }) := by
  simp only [RunWorld.exec, RunStore.perform, atomically_of_ok h]
  rfl

theorem exec_runs_error {call : RunStore.Call} {e : Error}
    (h : call.body lib d.env w.runs = .error e) :
    RunWorld.exec lib policy d (.runs call) w = (.error e, w) := by
  simp only [RunWorld.exec, RunStore.perform, atomically_of_error h]
  rfl

theorem exec_quota_ok {call : QuotaCounter.Call} {a : call.Answer} {db : QuotaDatabase}
    (h : call.body policy d.quotaClock w.quota = .ok (a, db)) :
    RunWorld.exec lib policy d (.quota call) w = (.ok a, { w with quota := db }) := by
  simp only [RunWorld.exec, QuotaCounter.perform, atomically_of_ok h]
  rfl

theorem exec_quota_error {call : QuotaCounter.Call} {e : Error}
    (h : call.body policy d.quotaClock w.quota = .error e) :
    RunWorld.exec lib policy d (.quota call) w = (.error e, w) := by
  simp only [RunWorld.exec, QuotaCounter.perform, atomically_of_error h]
  rfl

theorem exec_reserve_ok {t a r k : String} {u : ℤ} {res : CreditReservation} {db : Database}
    (h : CreditLedger.reserve d.env t a r u k w.ledger = .ok (res, db)) :
    RunWorld.exec lib policy d (.reserve t a r u k) w = (.ok res, { w with ledger := db }) := by
  simp only [RunWorld.exec, atomically_of_ok h]
  rfl

theorem exec_release_ok {id k : String} {res : CreditReservation} {db : Database}
    (h : CreditLedger.release d.env id k w.ledger = .ok (res, db)) :
    RunWorld.exec lib policy d (.release id k) w = (.ok res, { w with ledger := db }) := by
  simp only [RunWorld.exec, atomically_of_ok h]
  rfl

theorem exec_commit_ok {id k : String} {u : ℤ} {com : CreditCommit} {db : Database}
    (h : CreditLedger.commit d.env id u k w.ledger = .ok (com, db)) :
    RunWorld.exec lib policy d (.commit id u k) w = (.ok com, { w with ledger := db }) := by
  simp only [RunWorld.exec, atomically_of_ok h]
  rfl

theorem exec_commit_error {id k : String} {u : ℤ} {e : Error}
    (h : CreditLedger.commit d.env id u k w.ledger = .error e) :
    RunWorld.exec lib policy d (.commit id u k) w = (.error e, w) := by
  simp only [RunWorld.exec, atomically_of_error h]
  rfl

end Operations

namespace RunStore

variable {lib : RunLibrary} {env : Env} {db : RunDatabase} {row : RunRow} {r : String}

/-! ### Events -/

/-- The number after a run's last is free. -/
theorem place_free (h : db.Gapless) (hrow : db.runs.find? r = some row) :
    ∀ e ∈ db.runEvents.rows, e.place ≠ (r, row.sequence + 1) := by
  intro e he hplace
  obtain ⟨hrun, hnumber⟩ := Prod.mk.inj hplace
  have hle := (h.number_mem he).2
  rw [RunDatabase.sequenceOf, hrun, hrow] at hle
  change e.sequence ≤ row.sequence at hle
  omega

/-- A run that is neither queued nor running is returned as it is. -/
theorem claim_idle (hrow : db.runs.find? r = some row)
    (hidle : row.state ≠ .queued ∧ row.state ≠ .running) :
    claim env r db = .ok (row.toRun, db) := by
  simp only [claim, bind_eq_ok, rowLocked_eq_ok]
  exact ⟨row, hrow, by rw [if_pos hidle]; rfl⟩

/-- A run that is not there has no events. -/
theorem no_events (h : db.Gapless) (hnone : db.runs.find? r = none) :
    ∀ e ∈ db.runEvents.rows, e.runId ≠ r := by
  intro e he hrun
  obtain ⟨hpos, hle⟩ := h.number_mem he
  rw [RunDatabase.sequenceOf, hrun, hnone] at hle
  change e.sequence ≤ 0 at hle
  omega

theorem appendEvent_returns {now t event : String} {m : ℕ} {data : List (String × Json)}
    (hnew : ∀ e ∈ db.runEvents.rows, e.eventId ≠ "event-" ++ env.uuid 0)
    (hplace : ∀ e ∈ db.runEvents.rows, e.place ≠ (r, m)) :
    ∃ e db', appendEvent env now r t m event data db = .ok (e, db') := by
  obtain ⟨runEvents, hins⟩ := Table.exists_insert?_eq_some (t := db.runEvents)
    (r := ⟨"event-" ++ env.uuid 0, r, t, m, event, data, now⟩) rfl hnew hplace
  simp only [appendEvent, bind_eq_ok, orRaise_eq_ok]
  exact ⟨_, _, runEvents, hins, rfl⟩

/-! ### Calls of the service -/

/-- A new request is filed as a queued run. -/
theorem create_returns {q : RunCreate} (hgapless : db.Gapless)
    (hnew : ∀ e ∈ db.runEvents.rows, e.eventId ≠ "event-" ++ env.uuid 0)
    (hkey : db.runs.findBy? (q.tenantId, q.idempotencyKey) = none)
    (hrun : db.runs.find? r = none) :
    ∃ db', create lib env r q db = .ok (((newRun lib env r q).toRun, true), db') := by
  obtain ⟨runs, hins⟩ := Table.exists_insert?_eq_some (t := db.runs) (r := newRun lib env r q) rfl
    (Table.find?_eq_none.mp hrun) (Table.findBy?_eq_none.mp hkey)
  obtain ⟨runEvents, hlog⟩ := Table.exists_insert?_eq_some (t := db.runEvents)
    (r := firstEvent env r q) rfl hnew (fun e he hplace =>
      no_events hgapless hrun e he (Prod.mk.inj hplace).1)
  have hfind : runs.find? r = some (newRun lib env r q) :=
    (Table.find?_insert hins r).trans (if_pos rfl)
  refine ⟨{ db with runs, runEvents }, ?_⟩
  simp only [create, hkey, bind_eq_ok, orRaise_eq_ok]
  refine ⟨runs, hins, (firstEvent env r q, { db with runs, runEvents }), ?_, ?_⟩
  · simp only [appendEvent, bind_eq_ok, orRaise_eq_ok]
    exact ⟨runEvents, hlog, rfl⟩
  · refine ⟨((newRun lib env r q).toRun, { db with runs, runEvents }), ?_, rfl⟩
    simp only [reread, bind_eq_ok, rowLocked_eq_ok]
    exact ⟨_, hfind, rfl⟩

/-- A request that is filed is found. -/
theorem create_replay {q : RunCreate} (env : Env) (r' : String)
    (hkey : db.runs.findBy? (q.tenantId, q.idempotencyKey) = some row)
    (hhash : row.requestHash = q.fingerprint lib) :
    create lib env r' q db = .ok ((row.toRun, false), db) := by
  simp only [create, hkey, bind_eq_ok, ensure_eq_ok, decide_eq_true_eq]
  exact ⟨(), hhash, rfl⟩

theorem get_returns (hrow : db.runs.find? r = some row) :
    (Call.get r none).body lib env db = .ok (row.toRun, db) := by
  refine bind_eq_ok.mpr ⟨row.toRun, ?_, rfl⟩
  simp only [get, bind_eq_ok, rowLocked_eq_ok, ensure_eq_ok]
  exact ⟨row, hrow, (), by simp, rfl⟩

/-- A row that is there is reread after an update. -/
theorem reread_updateRun (f : RunRow → RunRow)
    (hf : Keeps (fun r : RunRow => r.runId) RunRow.requestKey (fun _ => true) f)
    (hrow : db.runs.find? r = some row) :
    reread r (updateRun r f hf db) = .ok ((f row).toRun, updateRun r f hf db) := by
  have hstored : (updateRun r f hf db).runs.find? r = some (f row) := by
    rw [find?_updateRun, hrow, Option.map_some, if_pos rfl]
  simp only [reread, bind_eq_ok, rowLocked_eq_ok]
  exact ⟨_, hstored, rfl⟩

theorem attachReservation_returns {id : String} (hrow : db.runs.find? r = some row)
    (hfree : row.reservationId = none ∨ row.reservationId = some id) :
    ∃ run db', attachReservation env r id db = .ok (run, db') := by
  simp only [attachReservation, bind_eq_ok, rowLocked_eq_ok, ensure_eq_ok, decide_eq_true_eq]
  exact ⟨_, _, row, hrow, (), hfree, reread_updateRun _ _ hrow⟩

/-! ### Calls of the worker -/

section Worker

variable (hgapless : db.Gapless)
  (hnew : ∀ e ∈ db.runEvents.rows, e.eventId ≠ "event-" ++ env.uuid 0)
  (hrow : db.runs.find? r = some row)

include hgapless hnew hrow

theorem claim_returns : ∃ run db', claim env r db = .ok (run, db') := by
  simp only [claim, bind_eq_ok, rowLocked_eq_ok]
  by_cases hactive : row.state ≠ .queued ∧ row.state ≠ .running
  · exact ⟨_, _, row, hrow, by rw [if_pos hactive]; rfl⟩
  · by_cases hqueued : row.state = .queued
    · -- the event goes in between two updates of the row
      have hplace := place_free hgapless hrow
      have hfirst := (reread_updateRun (fun r : RunRow => { r with
          state := .running, workerAttempt := r.workerAttempt + 1, updatedAt := env.now 0 })
        ⟨fun _ => rfl, fun _ => rfl, fun _ h => h⟩ hrow)
      obtain ⟨stored, hstored, -, -⟩ := reread_eq_ok hfirst
      obtain ⟨e, db₁, happend⟩ : ∃ e db₁, appendEvent env (env.now 1) r row.tenantId
          (row.sequence + 1) "run.state_changed" [("state", .str "running"),
            ("trace_id", .str row.traceId), ("worker_attempt", .int (row.workerAttempt + 1))]
          (updateRun r (fun r => { r with
            state := .running, workerAttempt := r.workerAttempt + 1, updatedAt := env.now 0 })
            ⟨fun _ => rfl, fun _ => rfl, fun _ h => h⟩ db) = .ok (e, db₁) :=
        appendEvent_returns hnew hplace
      obtain ⟨-, runEvents, -, hdb₁⟩ := appendEvent_eq_ok happend
      have hstored₁ : db₁.runs.find? r = some stored := by
        rw [hdb₁]
        exact hstored
      have hlast := reread_updateRun (fun r : RunRow => { r with sequence := r.sequence + 1 })
        ⟨fun _ => rfl, fun _ => rfl, fun _ h => h⟩ hstored₁
      exact ⟨_, _, row, hrow, by
        rw [if_neg hactive, if_pos hqueued]
        exact bind_eq_ok.mpr ⟨_, happend, hlast⟩⟩
    · exact ⟨_, _, row, hrow, by rw [if_neg hactive, if_neg hqueued]; exact reread_updateRun _ _ hrow⟩

theorem transition_returns {state : RunState} (payload : List (String × Json))
    (hmove : state ∈ row.state.transitions) :
    ∃ run db', transition env r state payload db = .ok (run, db') := by
  obtain ⟨e, db₁, happend⟩ := appendEvent_returns hnew (place_free hgapless hrow)
  simp only [transition, checkMove, bind_eq_ok, rowLocked_eq_ok, ensure_eq_ok, decide_eq_true_eq]
  obtain ⟨-, runEvents, -, rfl⟩ := appendEvent_eq_ok happend
  exact ⟨_, _, row, hrow, (), hmove, _, happend, reread_updateRun _ _ hrow⟩

theorem complete_returns {n : ℤ} (hrunning : row.state = .running) :
    ∃ run db', complete env r n db = .ok (run, db') := by
  obtain ⟨e, db₁, happend⟩ := appendEvent_returns hnew (place_free hgapless hrow)
  obtain ⟨-, runEvents, -, rfl⟩ := appendEvent_eq_ok happend
  simp only [complete, bind_eq_ok, rowLocked_eq_ok, ensure_eq_ok, decide_eq_true_eq]
  exact ⟨_, _, row, hrow, (), hrunning, _, happend, reread_updateRun _ _ hrow⟩

theorem appendToken_returns (text : String) :
    ∃ e db', appendToken env r text db = .ok (e, db') := by
  obtain ⟨e, db₁, happend⟩ := appendEvent_returns hnew (place_free hgapless hrow)
  simp only [appendToken, bind_eq_ok, rowLocked_eq_ok]
  exact ⟨_, _, row, hrow, _, happend, rfl⟩

end Worker

theorem saveCheckpoint_returns (env : Env) (step : ℤ) (saved : List (String × Json))
    (inflightKey approvalId : Option String) (usageUnits : ℤ)
    (hrow : db.runs.find? r = some row) : ∃ cp db',
      saveCheckpoint env r step saved inflightKey approvalId usageUnits db = .ok (cp, db') := by
  simp only [saveCheckpoint, bind_eq_ok, rowLocked_eq_ok]
  exact ⟨_, _, row, hrow, rfl⟩

end RunStore

/-! ### The quota counter -/

namespace QuotaCounter

variable {policy : QuotaPolicy} {clock : ℕ → ℚ} {q q' : QuotaDatabase} {s r : String} {u : ℤ}
  {reading : ℚ}

/-- The counts a window shows; none where it has no bucket. -/
def counts (q : QuotaDatabase) (key : String × ℤ) : ℤ × ℤ :=
  (q.buckets.find? key).elim 0 fun b => (b.runCount, b.unitCount)

/-- Looking at a window changes no count. -/
theorem counts_bucket {k : ℤ} {b : Bucket} (h : bucket s k q = .ok (b, q')) (x : String × ℤ) :
    counts q' x = counts q x := by
  obtain ⟨-, -, hfind⟩ := bucket_eq_ok h
  rw [counts, hfind, counts]
  cases q.buckets.find? x with
  | some b => rfl
  | none =>
    by_cases hx : (s, k) = x
    · rw [if_pos hx]
      rfl
    · rw [if_neg hx]
      rfl

theorem snapshot_returns (policy : QuotaPolicy) (reading : ℚ) (s : String) (q : QuotaDatabase) :
    ∃ shown q', snapshot policy reading s q = .ok (shown, q') ∧ q'.admissions = q.admissions ∧
      ∀ x, counts q' x = counts q x := by
  obtain ⟨b, q', hb⟩ := exists_bucket_eq_ok s (periodKey policy reading) q
  simp only [snapshot, bind_eq_ok]
  exact ⟨_, q', ⟨(b, q'), hb, rfl⟩, (bucket_eq_ok hb).1, counts_bucket hb⟩

/-- **A run that is not admitted yet** is counted once, in the window of the reading,
if the window has room. -/
theorem reserve_returns (hs : blank s = false) (hr : blank r = false) (hu : 0 < u)
    (hnone : q.admissions.find? r = none)
    (hruns : (counts q (s, periodKey policy (clock 0))).1 + 1 ≤ policy.maxRuns)
    (hunits : (counts q (s, periodKey policy (clock 0))).2 + u ≤ policy.maxUnits) :
    ∃ shown q', reserve policy clock s r u q = .ok (shown, q') ∧
      q'.admissions.find? r = some ⟨r, s, periodKey policy (clock 0), u, .counted⟩ ∧
      ∀ x, counts q' x
        = counts q x + if x = (s, periodKey policy (clock 0)) then (1, u) else 0 := by
  generalize hk : periodKey policy (clock 0) = k at *
  obtain ⟨b, q₁, hb⟩ := exists_bucket_eq_ok s k q
  obtain ⟨hadm, hfound, -⟩ := bucket_eq_ok hb
  have hcount : counts q (s, k) = (b.runCount, b.unitCount) := by
    rw [← counts_bucket hb, counts, hfound]
    rfl
  rw [hcount] at hruns hunits
  obtain ⟨q₂, hadd⟩ : ∃ q₂, addToBucket (s, k) 1 u q₁ = .ok q₂ := by
    apply exists_addToBucket_eq_ok
    intro b' hb'
    have hchecked := q₁.buckets.checked b' (Table.find?_eq_some.mp hb').1
    simp only [Bool.and_eq_true, decide_eq_true_eq] at hchecked
    omega
  obtain ⟨hadm', hfind⟩ := addToBucket_eq_ok hadd
  have hfree : ∀ a ∈ q₂.admissions.rows, a.runId ≠ r := by
    rw [hadm', hadm]
    exact Table.find?_eq_none.mp hnone
  obtain ⟨admissions, hins⟩ := Table.exists_insert?_eq_some (t := q₂.admissions)
    (r := ⟨r, s, k, u, .counted⟩) (decide_eq_true hu) hfree hfree
  obtain ⟨shown, q', hshown, hsame, hcounts⟩ :=
    snapshot_returns policy (clock 1) s { q₂ with admissions }
  refine ⟨shown, q', ?_, ?_, ?_⟩
  · simp only [reserve, hnone, hk, bind_eq_ok, ensure_eq_ok, orRaise_eq_ok, decide_eq_true_eq]
    exact ⟨(), by rw [hs, hr]; rfl, (), hu, (b, q₁), hb, (), Int.not_lt.mpr hruns, (),
      Int.not_lt.mpr hunits, q₂, hadd,
      admissions, hins, hshown⟩
  · rw [hsame]
    exact (Table.find?_insert hins r).trans (if_pos rfl)
  · intro x
    rw [hcounts, ← counts_bucket hb x]
    change (q₂.buckets.find? x).elim 0 _ = (q₁.buckets.find? x).elim 0 _ + _
    rw [hfind]
    by_cases hx : x = (s, k)
    · subst hx
      rw [hfound, if_pos rfl]
      simp [Bucket.add]
    · cases q₁.buckets.find? x <;> simp [hx]

/-- A run that is admitted to the window of the reading is not counted again. -/
theorem reserve_again (hs : blank s = false) (hr : blank r = false) (hu : 0 < u)
    (hsome : q.admissions.find? r = some ⟨r, s, periodKey policy (clock 0), u, .counted⟩) :
    ∃ shown q', reserve policy clock s r u q = .ok (shown, q') ∧
      q'.admissions = q.admissions ∧ ∀ x, counts q' x = counts q x := by
  obtain ⟨shown, q', hshown, hsame⟩ := snapshot_returns policy (clock 1) s q
  refine ⟨shown, q', ?_, hsame⟩
  simp only [reserve, hsome, bind_eq_ok, ensure_eq_ok, decide_eq_true_eq]
  exact ⟨(), by rw [hs, hr]; rfl, (), hu, (), trivial, hshown⟩

/-- **A run that is admitted to another window** is refused. -/
theorem reserve_elapsed {a : Admission} (hs : blank s = false) (hr : blank r = false) (hu : 0 < u)
    (hsome : q.admissions.find? r = some a) (hwindow : a.periodKey ≠ periodKey policy (clock 0)) :
    reserve policy clock s r u q = .error
      (.valueError "quota run identity was reused with different admission data") := by
  have hdiff : ¬ (a.scopeId, a.periodKey, a.units, a.status)
      = (s, periodKey policy (clock 0), u, AdmissionStatus.counted) := by
    intro hsame
    exact hwindow (Prod.mk.inj (Prod.mk.inj hsame).2).1
  simp [reserve, hsome, hs, hr, hu, ensure, hdiff, bind, Except.bind]

end QuotaCounter

/-! ### The credit ledger -/

/-- A balance update without an account that meets the guard is refused. -/
theorem Database.updateBalance_refused {db : Database} {a : String} {amount : ℤ} {guard : ℤ → Bool}
    (hno : ∀ account, db.creditAccounts.find? a = some account → guard account.balance = false) :
    db.updateBalance a amount guard = .error (.insufficientCredits a) := by
  have hmiss : ∀ r ∈ db.creditAccounts.rows,
      (decide (r.accountId = a) && guard r.balance) = false := by
    intro r hr
    by_cases hid : r.accountId = a
    · simp [hno r (Table.find?_eq_some.mpr ⟨hr, hid⟩)]
    · simp [hid]
  have hcount : db.creditAccounts.rowcount
      (fun r => decide (r.accountId = a) && guard r.balance) ≠ 1 := by
    rw [Ne, Table.rowcount_key_eq_one]
    rintro ⟨account, haccount, hguard⟩
    rw [hno account haccount] at hguard
    cases hguard
  have hnone : ∀ r ∈ db.creditAccounts.rows, (decide (r.accountId = a) && guard r.balance) = true →
      decide (0 ≤ r.balance + amount) = true := by
    intro r hr hhit
    rw [hmiss r hr] at hhit
    cases hhit
  unfold updateBalance
  simp only [Table.update?, dif_pos hnone]
  simp [orRaise, ensure, hcount, bind, Except.bind]

namespace CreditLedger

/-- A reservation the account covers is made. -/
theorem reserve_returns {env : Env} {t a r k : String} {u : ℤ} {db : Database}
    {account : CreditAccount} (hchk : reserveChecks t a r u k = .ok ())
    (hkey : db.reservations.findBy? k = none) (haccount : db.creditAccounts.find? a = some account)
    (hcover : u ≤ account.balance - db.held a)
    (hnew : ∀ x ∈ db.reservations.rows, x.reservationId ≠ "reservation-" ++ env.uuid 0) :
    ∃ reservations,
      db.reservations.insert? (newReservation env t a r u k) = some reservations ∧
      reserve env t a r u k db = .ok ((newReservation env t a r u k).toCreditReservation,
        { db with reservations }) := by
  have hu : 0 < u := by
    obtain ⟨-, -, hunits⟩ := bind_eq_ok.mp hchk
    exact of_decide_eq_true (ensure_eq_ok.mp hunits)
  obtain ⟨reservations, hins⟩ := Table.exists_insert?_eq_some (t := db.reservations)
    (r := newReservation env t a r u k) (decide_eq_true hu) hnew (Table.findBy?_eq_none.mp hkey)
  refine ⟨reservations, hins, ?_⟩
  simp only [reserve, hkey, bind_eq_ok, ensure_eq_ok, orRaise_eq_ok, decide_eq_true_eq]
  exact ⟨(), hchk, account, haccount, (), by omega, reservations, hins, _,
    (Table.find?_insert hins _).trans (if_pos rfl), rfl⟩

/-- Units that a commit for a reservation can take from its account. -/
def payable (db : Database) (id : String) (u : ℤ) : Bool :=
  (db.reservations.find? id).any fun row => decide (u ≤ row.units) &&
    (db.creditAccounts.find? row.accountId).any fun account => decide (u ≤ account.balance)

section Commit

variable {env : Env} {db : Database} {row : ReservationRow} {id k : String} {u : ℤ}

/-- A held reservation is committed for units that can be paid. -/
theorem commit_returns (hrow : db.reservations.find? id = some row) (hs : row.status = .reserved)
    (hkey : db.runLedger.findBy? k = none) (hu : 0 ≤ u) (hpay : payable db id u = true)
    (hnew : ∀ e ∈ db.runLedger.rows, e.entryId ≠ env.uuid 0) :
    ∃ com db', commit env id u k db = .ok (com, db') := by
  simp only [payable, hrow, Option.any_some, Bool.and_eq_true, decide_eq_true_eq,
    Option.any_eq_true] at hpay
  obtain ⟨hunits, account, haccount, hcover⟩ := hpay
  obtain ⟨db₁, hbalance⟩ : ∃ db₁, db.updateBalance row.accountId (-u)
      (fun balance => decide (u ≤ balance)) = .ok db₁ :=
    Database.updateBalance_ok_of haccount (decide_eq_true hcover) (by omega)
  obtain ⟨_, _, -, -, rfl, -⟩ := Database.updateBalance_eq_ok hbalance
  obtain ⟨runLedger, hins⟩ := Table.exists_insert?_eq_some (t := db.runLedger)
    (r := newEntry env row u k) rfl hnew (Table.findBy?_eq_none.mp hkey)
  simp only [commit, hkey, bind_eq_ok, ensure_eq_ok, orRaise_eq_ok, decide_eq_true_eq]
  refine ⟨_, _, (), by omega, row, hrow, (), by simp [hs], (), by omega, (), by simp [hs], _, hbalance,
    runLedger, hins, rfl⟩

/-- A commit for units that cannot be paid raises a `ValueError`. -/
theorem commit_refused (hrow : db.reservations.find? id = some row) (hs : row.status = .reserved)
    (hkey : db.runLedger.findBy? k = none) (hpay : payable db id u = false) :
    ∃ e, commit env id u k db = .error e ∧ e.isValueError = true := by
  by_cases hu : u < 0
  · refine ⟨.valueError "used units must be a non-negative integer", ?_, rfl⟩
    simp [commit, hu, ensure, bind, Except.bind]
  by_cases hunits : row.units < u
  · refine ⟨.valueError "actual usage exceeds the reserved units", ?_, rfl⟩
    simp [commit, hu, hrow, hkey, hs, hunits, ensure, orRaise, bind, Except.bind]
  have hbalance : db.updateBalance row.accountId (-u) (fun balance => decide (u ≤ balance))
      = .error (.insufficientCredits row.accountId) := by
    refine Database.updateBalance_refused fun account haccount => ?_
    simpa [payable, hrow, haccount, Int.not_lt.mp hunits] using hpay
  refine ⟨.insufficientCredits row.accountId, ?_, rfl⟩
  simp [commit, hu, hrow, hkey, hs, hunits, hbalance, ensure, orRaise, bind, Except.bind]

/-- A commit for a reservation that was released raises a `ValueError`. -/
theorem commit_released (hrow : db.reservations.find? id = some row) (hs : row.status = .released)
    (hkey : db.runLedger.findBy? k = none) :
    ∃ e, commit env id u k db = .error e ∧ e.isValueError = true := by
  by_cases hu : u < 0
  · refine ⟨.valueError "used units must be a non-negative integer", ?_, rfl⟩
    simp [commit, hu, ensure, bind, Except.bind]
  · refine ⟨.reservationConflict "released reservation cannot be committed", ?_, rfl⟩
    simp [commit, hu, hrow, hkey, hs, ensure, orRaise, bind, Except.bind]

end Commit

end CreditLedger

end AiSaas
