import AiSaas.Lib.Solo
import AiSaas.RunService.Holds
import AiSaas.RunService.Returns

/-!
# A creation that is tried again

`create_run` writes four times before it dispatches: the run, its admission to a
quota window, its reservation, and the reservation on the run.  The process may stop
after any of them; the same request then finds what the writes have left.

## Main definitions

* `Blank`, `Room`, `Covered` — nothing is known of the request, and there is quota
  and credit for it.
* `Written` — what the first writes of `create_run` have made of the tables.
* `stopped`, `retried` — the pool when the first call has stopped, and when the second
  has come to its end.
* `Converges` — the second call has completed what the first began.

## Main results

* `Written.admitted`, `Written.reserve`, `Written.attach` — each write, made now or found.
* `solo_createRun_again` — the second call goes on from where the first stopped.
* `create_run_converges` — when it completes the creation.
-/

namespace AiSaas

open Relational Transaction Processes

/-! ### Before the request -/

/-- Nothing is known of a request, or of the run it is given. -/
structure Blank (w : RunWorld) (q : RunCreate) (r : String) : Prop where
  gapless : w.runs.Gapless
  request : w.runs.runs.findBy? (q.tenantId, q.idempotencyKey) = none
  run : w.runs.runs.find? r = none
  admission : w.quota.admissions.find? r = none
  reservation : ∀ x ∈ w.ledger.reservations.rows, x.runId ≠ r

/-- A window has room for a request. -/
def Room (policy : QuotaPolicy) (w : RunWorld) (q : RunCreate) (k : ℤ) : Prop :=
  (QuotaCounter.counts w.quota (q.tenantId, k)).1 + 1 ≤ policy.maxRuns ∧
    (QuotaCounter.counts w.quota (q.tenantId, k)).2 + q.reserveUnits ≤ policy.maxUnits

/-- An account has the credits for a request. -/
def Covered (w : RunWorld) (q : RunCreate) : Prop :=
  ∃ account, w.ledger.creditAccounts.find? q.accountId = some account ∧
    q.reserveUnits ≤ account.balance - w.ledger.held q.accountId

/-- No reservation was made under the key of a request. -/
def KeyFree (w : RunWorld) (q : RunCreate) : Prop :=
  w.ledger.reservations.findBy? (RunService.reserveKey q) = none

/-- What an operation of `create_run` may draw: a reading of the quota's clock in a
window, a dispatch that goes through, and new ids. -/
def Drawn.Serves (policy : QuotaPolicy) (k : ℤ) (d : Drawn) : Op → RunWorld → Prop
  | .quota _, _ => QuotaCounter.periodKey policy (d.quotaClock 0) = k
  | .outside _, _ => d.outside = .ok ()
  | _, w => d.New w

instance (policy : QuotaPolicy) (k : ℤ) (d : Drawn) (w : RunWorld) :
    (op : Op) → Decidable (d.Serves policy k op w)
  | .quota _ => inferInstanceAs (Decidable (QuotaCounter.periodKey policy (d.quotaClock 0) = k))
  | .outside _ => inferInstanceAs (Decidable (d.outside = .ok ()))
  | .runs _ | .reserve .. | .release .. | .commit .. | .clock | .model .. =>
    inferInstanceAs (Decidable (d.New w))

/-! ### What the writes leave -/

/-- The run of a request is queued, with this reservation attached. -/
def Filed (lib : RunLibrary) (q : RunCreate) (r : String) (reservation : Option String)
    (db : RunDatabase) : Prop :=
  ∃ row, db.runs.find? r = some row ∧ row.requestKey = (q.tenantId, q.idempotencyKey) ∧
    row.requestHash = q.fingerprint lib ∧ row.state = .queued ∧ row.reservationId = reservation

/-- A run is counted nowhere, or once, in this window. -/
def Admitted (before : QuotaDatabase) (q : RunCreate) (r : String) :
    Option ℤ → QuotaDatabase → Prop
  | none, db => db.admissions.find? r = none ∧
    ∀ x, QuotaCounter.counts db x = QuotaCounter.counts before x
  | some k, db =>
    db.admissions.find? r = some ⟨r, q.tenantId, k, q.reserveUnits, .counted⟩ ∧
      ∀ x, QuotaCounter.counts db x = QuotaCounter.counts before x
        + if x = (q.tenantId, k) then (1, q.reserveUnits) else 0

/-- No reservation was made for a run, or this one. -/
def ReservedFor (before : Database) (q : RunCreate) (r : String) :
    Option ReservationRow → Database → Prop
  | none, db => db = before
  | some x, db => (∃ env, x = CreditLedger.newReservation env q.tenantId q.accountId r
      q.reserveUnits (RunService.reserveKey q)) ∧
    ∃ reservations, before.reservations.insert? x = some reservations ∧
      db = { before with reservations }

/-- **What the first `n` writes of `create_run` have made of a world**: the run, its
admission to a window, its reservation, and the reservation on the run. -/
structure Written (lib : RunLibrary) (before : RunWorld) (q : RunCreate) (r : String) (k : ℤ)
    (x : ReservationRow) (n : ℕ) (w : RunWorld) : Prop where
  run : Filed lib q r (if 4 ≤ n then some x.reservationId else none) w.runs
  admission : Admitted before.quota q r (if 2 ≤ n then some k else none) w.quota
  reservation : ReservedFor before.ledger q r (if 3 ≤ n then some x else none) w.ledger

variable {lib : RunLibrary} {policy : QuotaPolicy} {d : Drawn} {before w : RunWorld}
  {q : RunCreate} {r r' : String} {k k' : ℤ} {x : ReservationRow} {n : ℕ}

/-- After one write no window is known yet. -/
theorem Written.of_one (h : Written lib before q r k x 1 w) (k' : ℤ) (x' : ReservationRow) :
    Written lib before q r k' x' 1 w := ⟨h.run, h.admission, h.reservation⟩

/-- `create` files a new request. -/
theorem Blank.create (lib : RunLibrary) (policy : QuotaPolicy) (h : Blank before q r)
    (hd : d.New before) (k : ℤ) (x : ReservationRow) :
    ∃ run w, RunWorld.exec lib policy d (.runs (.create r q)) before = (.ok (run, true), w) ∧
      run.runId = r ∧ Written lib before q r k x 1 w := by
  obtain ⟨db, hcreate⟩ : ∃ db, RunStore.create lib d.env r q before.runs
      = .ok (((RunStore.newRun lib d.env r q).toRun, true), db) :=
    RunStore.create_returns h.gapless hd.event h.request h.run
  refine ⟨_, _, exec_runs_ok hcreate, rfl, ?_, ⟨h.admission, fun _ => rfl⟩, rfl⟩
  rcases RunStore.create_eq_ok hcreate with ⟨_, _, _, _, hfalse, _⟩ | ⟨runs, _, _, hins, _, _, _, rfl⟩
  · cases hfalse
  · exact ⟨_, (Table.find?_insert hins r).trans (if_pos rfl), rfl, rfl, rfl, rfl⟩

/-- `create` finds a request that is filed. -/
theorem Written.replay (policy : QuotaPolicy) (h : Written lib before q r k x n w) (d : Drawn)
    (r' : String) :
    ∃ run, RunWorld.exec lib policy d (.runs (.create r' q)) w = (.ok (run, false), w) ∧
      run.runId = r ∧ run.state = .queued ∧
      run.reservationId = if 4 ≤ n then some x.reservationId else none := by
  obtain ⟨row, hrow, hkey, hhash, hstate, hreservation⟩ := h.run
  obtain ⟨hmem, hid⟩ := Table.find?_eq_some.mp hrow
  have hby : w.runs.runs.findBy? (q.tenantId, q.idempotencyKey) = some row :=
    Table.findBy?_eq_some.mpr ⟨hmem, hkey⟩
  exact ⟨row.toRun, exec_runs_ok (RunStore.create_replay d.env r' hby hhash), hid, hstate,
    hreservation⟩

/-- The identities of a request are not blank. -/
theorem blank_append (s t : String) : blank (s ++ t) = (blank s && blank t) := by
  simp [blank, String.toList_append]

theorem blank_runId (uuid : String) : blank ("run-" ++ uuid) = false := by
  rw [blank_append]
  rfl

theorem RunCreate.blank_tenantId (q : RunCreate) : blank q.tenantId = false :=
  q.nonblank _ List.mem_cons_self

theorem RunCreate.units_pos (q : RunCreate) : 0 < q.reserveUnits :=
  q.positive _ List.mem_cons_self

/-- **The quota write**, made in the window or found there. -/
theorem Written.admitted (h : Written lib before q r k x n w) (hr : blank r = false)
    (hroom : Room policy before q k)
    (hwindow : QuotaCounter.periodKey policy (d.quotaClock 0) = k) :
    ∃ shown w', RunWorld.exec lib policy d (.quota (.reserve q.tenantId r q.reserveUnits)) w
        = (.ok shown, w') ∧ Written lib before q r k x (max n 2) w' := by
  obtain ⟨hrun, hadmission, hreservation⟩ := h
  subst hwindow
  rcases Nat.lt_or_ge n 2 with hn | hn
  · rw [if_neg (by omega)] at hadmission
    obtain ⟨hnone, hcounts⟩ := hadmission
    obtain ⟨hruns, hunits⟩ := hroom
    rw [← hcounts] at hruns hunits
    obtain ⟨shown, db, hreserve, hadmitted, hadded⟩ :=
      QuotaCounter.reserve_returns q.blank_tenantId hr q.units_pos hnone hruns hunits
    rw [if_neg (by omega)] at hrun hreservation
    refine ⟨shown, _, exec_quota_ok hreserve, ?_, ?_, ?_⟩
    · rw [if_neg (by omega)]
      exact hrun
    · rw [if_pos (by omega)]
      exact ⟨hadmitted, fun key => by rw [hadded, hcounts]⟩
    · rw [if_neg (by omega)]
      exact hreservation
  · rw [if_pos hn] at hadmission
    obtain ⟨hsome, hcounts⟩ := hadmission
    obtain ⟨shown, db, hreserve, hsame, hkept⟩ :=
      QuotaCounter.reserve_again q.blank_tenantId hr q.units_pos hsome
    rw [max_eq_left hn]
    refine ⟨shown, _, exec_quota_ok hreserve, hrun, ?_, hreservation⟩
    rw [if_pos hn]
    exact ⟨hsame ▸ hsome, fun key => by rw [hkept, hcounts]⟩

/-- **The quota write in another window** is refused. -/
theorem Written.elapsed (h : Written lib before q r k x n w) (hn : 2 ≤ n) (hr : blank r = false)
    (hwindow : QuotaCounter.periodKey policy (d.quotaClock 0) ≠ k) :
    RunWorld.exec lib policy d (.quota (.reserve q.tenantId r q.reserveUnits)) w
      = (.error (.valueError "quota run identity was reused with different admission data"), w) := by
  have hadmission := h.admission
  rw [if_pos hn] at hadmission
  exact exec_quota_error (QuotaCounter.reserve_elapsed q.blank_tenantId hr q.units_pos hadmission.1
    (Ne.symm hwindow))

theorem reserveChecks_ok (q : RunCreate) (hr : blank r = false) :
    CreditLedger.reserveChecks q.tenantId q.accountId r q.reserveUnits (RunService.reserveKey q)
      = .ok () := by
  have haccount : blank q.accountId = false :=
    q.nonblank _ (List.mem_cons_of_mem _ List.mem_cons_self)
  have hkey : blank (RunService.reserveKey q) = false := by
    simp only [RunService.reserveKey, blank_append, q.blank_tenantId, Bool.and_false, Bool.false_and]
  simp [CreditLedger.reserveChecks, q.blank_tenantId, haccount, hr, hkey, q.units_pos, ensure, bind,
    Except.bind]

/-- **The reservation**, made now or found. -/
theorem Written.reserve (h : Written lib before q r k x n w) (hn : 2 ≤ n ∧ n ≤ 3)
    (hr : blank r = false) (hd : d.New w) (hfree : KeyFree before q) (hcover : Covered before q) :
    ∃ res x' w', RunWorld.exec lib policy d (.reserve q.tenantId q.accountId r q.reserveUnits
        (RunService.reserveKey q)) w = (.ok res, w') ∧
      CreditReservation.reservationId res = x'.reservationId ∧
      Written lib before q r k x' 3 w' := by
  obtain ⟨hrun, hadmission, hreservation⟩ := h
  rw [if_neg (by omega)] at hrun
  rw [if_pos hn.1] at hadmission
  rcases Nat.lt_or_ge n 3 with hlt | hge
  · rw [if_neg (by omega)] at hreservation
    obtain ⟨account, haccount, hunits⟩ := hcover
    have hledger : w.ledger = before.ledger := hreservation
    obtain ⟨reservations, hins, hreserve⟩ := CreditLedger.reserve_returns
      (reserveChecks_ok q hr) (hledger ▸ hfree) (hledger ▸ haccount) (hledger ▸ hunits) hd.reservation
    rw [hledger] at hins
    refine ⟨_, _, _, exec_reserve_ok hreserve, rfl, hrun, hadmission, ⟨d.env, rfl⟩, reservations, hins,
      by rw [hledger]⟩
  · rw [if_pos hge] at hreservation
    obtain ⟨⟨env, hx⟩, reservations, hins, hledger⟩ := hreservation
    have hkey : x.idempotencyKey = RunService.reserveKey q := by
      rw [hx]
      rfl
    have hby : w.ledger.reservations.findBy? (RunService.reserveKey q) = some x := by
      rw [hledger]
      exact (Table.findBy?_insert hins _).trans (if_pos hkey)
    have hreplay : CreditLedger.reserve d.env q.tenantId q.accountId r q.reserveUnits
        (RunService.reserveKey q) w.ledger = .ok (x.toCreditReservation, w.ledger) :=
      CreditLedger.reserve_replay (reserveChecks_ok q hr) hby (by rw [hx]; rfl)
    exact ⟨_, x, w, exec_reserve_ok hreplay, rfl, hrun, hadmission, ⟨env, hx⟩, reservations, hins,
      hledger⟩

/-- The reservation is attached to its run. -/
theorem Written.attach (h : Written lib before q r k x 3 w) (d : Drawn) :
    ∃ run w', RunWorld.exec lib policy d (.runs (.attachReservation r x.reservationId)) w
        = (.ok run, w') ∧ Run.runId run = r ∧ Written lib before q r k x 4 w' := by
  obtain ⟨⟨row, hrow, hkey, hhash, hstate, hnone⟩, hadmission, hreservation⟩ := h
  obtain ⟨run, db, hattach⟩ : ∃ run db,
      RunStore.attachReservation d.env r x.reservationId w.runs = .ok (run, db) :=
    RunStore.attachReservation_returns hrow (Or.inl hnone)
  obtain ⟨before', now, hbefore, -, rfl, hsets, -, -, rfl⟩ := RunStore.attachReservation_eq_ok hattach
  obtain rfl := Option.some.inj (hbefore.symm.trans hrow)
  have hid := (Table.find?_eq_some.mp hrow).2
  exact ⟨_, _, exec_runs_ok hattach, hid, ⟨_, (hsets r).trans (if_pos hid.symm), hkey, hhash, hstate,
    rfl⟩, hadmission, hreservation⟩

/-- The run is read. -/
theorem Written.get (h : Written lib before q r k x n w) (d : Drawn) :
    ∃ row, w.runs.runs.find? r = some row ∧
      RunWorld.exec lib policy d (.runs (.get r none)) w = (.ok row.toRun, w) := by
  obtain ⟨row, hrow, -⟩ := h.run
  exact ⟨row, hrow, exec_runs_ok (RunStore.get_returns hrow)⟩

/-! ### The course of the two calls -/

/-- A dispatch went through. -/
def dispatches : Answered → Bool
  | ⟨.outside (.dispatch _), .ok _⟩ => true
  | _ => false

/-- No dispatch went through. -/
def Undispatched (past : Past) : Prop := ∀ e ∈ past, dispatches e = false

theorem Undispatched.cons {past : Past} {e : Answered} (h : Undispatched past)
    (he : dispatches e = false) : Undispatched (e :: past) := List.forall_mem_cons.mpr ⟨he, h⟩

/-- Where a call is that found the first `m` writes done. -/
structure Course (lib : RunLibrary) (before : RunWorld) (q : RunCreate) (r : String) (k : ℤ)
    (m : ℕ) (past : Past) (w : RunWorld) : Prop where
  length : past.length < 6
  written : past ≠ [] → past.length < 5 → ∃ x, Written lib before q r k x (max m past.length) w
  undispatched : past.length < 5 → Undispatched past

/-- The call has made or found every write, has dispatched the run, and returns it. -/
def Dispatched (lib : RunLibrary) (before : RunWorld) (q : RunCreate) (r : String) (k : ℤ)
    (past : Past) (w : RunWorld) (answer : Except Error Run) : Prop :=
  past.length = 6 ∧ (∃ e ∈ past, dispatches e = true) ∧
    ∃ x row, Written lib before q r k x 4 w ∧ w.runs.runs.find? r = some row ∧
      answer = .ok row.toRun

section Course

variable {m : ℕ} {past : Past} {uuid : String} {run : Run}

theorem course_of {e : Answered} (hlength : past.length ≤ 3)
    (hw : Written lib before q r k x (max m (past.length + 1)) w)
    (hnone : Undispatched past) (he : dispatches e = false) :
    Course lib before q r k m (e :: past) w := by
  exact ⟨by simp only [List.length_cons]; omega, fun _ _ => ⟨x, hw⟩, fun _ => hnone.cons he⟩

/-- **The last part of the call**: reserve, attach, dispatch and read. -/
theorem solo_hold (hr : blank r = false) (hrun : run.runId = r) (hfree : KeyFree before q)
    (hcover : Covered before q) (hm : m ≤ 3) (hpast : past.length = 2)
    (hnone : Undispatched past)
    (hw : Written lib before q r k x (max m 2) w) :
    ((⟨true, true⟩ : RunService).hold q run).Solo (RunWorld.exec lib policy)
      (Drawn.Serves policy k) (Course lib before q r k m) (Dispatched lib before q r k) past w := by
  subst hrun
  refine Prog.solo_attempt_bind ⟨by omega, fun _ _ => ⟨x, hpast ▸ hw⟩, fun _ => hnone⟩ ?_
  intro d hd
  obtain ⟨res, x', w', hexec, hid, hw'⟩ := hw.reserve ⟨by omega, by omega⟩ hr hd hfree hcover
  refine ⟨_, w', hexec, ?_⟩
  have hm3 : max m (past.length + 1) = 3 := by omega
  refine Prog.solo_attempt_bind (course_of (by omega) (hm3 ▸ hw') hnone rfl) ?_
  intro d₁ _
  rw [hid]
  obtain ⟨attached, w'', hexec', hattached, hw''⟩ := hw'.attach d₁
  refine ⟨_, w'', hexec', ?_⟩
  refine Prog.Solo.ite (fun _ => ?_) fun hno => absurd rfl hno
  have hm4 : max m (past.length + 1 + 1) = 4 := by omega
  refine Prog.solo_attempt_bind (course_of (by simp only [List.length_cons]; omega) (hm4 ▸ hw'')
    (hnone.cons rfl) rfl) ?_
  intro d₂ hd₂
  refine ⟨.ok (), w'', ?_, ?_⟩
  · change (d₂.outside, w'') = _
    rw [show d₂.outside = .ok () from hd₂]
    rfl
  · have hlength : past.length + 1 + 1 + 1 = 5 := by omega
    refine Prog.solo_perform ⟨?_, ?_, ?_⟩ ?_
    · simp only [List.length_cons]
      omega
    · intro _ hlt
      simp only [List.length_cons] at hlt
      omega
    · intro hlt
      simp only [List.length_cons] at hlt
      omega
    · intro d₃ _
      rw [hattached]
      obtain ⟨row, hrow, hget⟩ := hw''.get d₃
      refine ⟨_, w'', hget, ?_, ?_, x', row, hw'', hrow, rfl⟩
      · simp only [List.length_cons]
        omega
      · exact ⟨_, List.mem_cons_of_mem _ List.mem_cons_self, rfl⟩

/-- **The call from the quota on.** -/
theorem solo_admit (hr : blank r = false) (hrun : run.runId = r) (hfree : KeyFree before q)
    (hroom : Room policy before q k) (hcover : Covered before q) (hm : m ≤ 3)
    (hpast : past.length = 1) (hnone : Undispatched past)
    (hw : Written lib before q r k x (max m 1) w) :
    ((⟨true, true⟩ : RunService).admitRun q run).Solo (RunWorld.exec lib policy)
      (Drawn.Serves policy k) (Course lib before q r k m) (Dispatched lib before q r k) past w := by
  refine Prog.Solo.ite (fun _ => ?_) fun hno => absurd rfl hno
  refine Prog.solo_attempt_bind ⟨by omega, fun _ _ => ⟨x, hpast ▸ hw⟩, fun _ => hnone⟩ ?_
  intro d hd
  rw [hrun]
  obtain ⟨shown, w', hexec, hw'⟩ := hw.admitted hr hroom hd
  have hm2 : max (max m 1) 2 = max m 2 := by omega
  refine ⟨_, w', hexec, solo_hold hr hrun hfree hcover hm ?_ (hnone.cons rfl) (hm2 ▸ hw')⟩
  rw [List.length_cons, hpast]

/-- **The first call** makes every write. -/
theorem solo_createRun (hblank : Blank before q ("run-" ++ uuid)) (hfree : KeyFree before q)
    (hroom : Room policy before q k) (hcover : Covered before q) :
    ((⟨true, true⟩ : RunService).createRun uuid q).Solo (RunWorld.exec lib policy)
      (Drawn.Serves policy k) (Course lib before q ("run-" ++ uuid) k 0)
      (Dispatched lib before q ("run-" ++ uuid) k) [] before := by
  refine Prog.solo_perform_bind
    ⟨by decide, fun hne => absurd rfl hne, fun _ _ he => absurd he List.not_mem_nil⟩ ?_
  intro d hd
  obtain ⟨run, w, hexec, hrun, hw⟩ := hblank.create lib policy hd k
    (CreditLedger.newReservation d.env "" "" "" 0 "")
  refine ⟨_, w, hexec, ?_⟩
  exact solo_admit (blank_runId uuid) hrun hfree hroom hcover (Nat.zero_le 3) rfl
    (List.forall_mem_singleton.mpr rfl) hw

/-- The second call finds the run without a reservation, and goes on with its quota. -/
theorem solo_createRun_found {I : Past → RunWorld → Prop}
    {Q : Past → RunWorld → Except Error Run → Prop} (hw : Written lib before q r k x n w)
    (hn : n ≤ 3) (h0 : I [] w) (hadmits : ∀ run, run.runId = r → ∀ e, dispatches e = false →
      ((⟨true, true⟩ : RunService).admitRun q run).Solo (RunWorld.exec lib policy)
        (Drawn.Serves policy k') I Q [e] w) :
    ((⟨true, true⟩ : RunService).createRun uuid q).Solo (RunWorld.exec lib policy)
      (Drawn.Serves policy k') I Q [] w := by
  refine Prog.solo_perform_bind h0 ?_
  intro d _
  obtain ⟨run, hexec, hrun, hstate, hnone⟩ := hw.replay policy d ("run-" ++ uuid)
  rw [if_neg (by omega)] at hnone
  refine ⟨_, w, hexec, ?_⟩
  refine Prog.Solo.ite (fun hyes => by cases hyes) fun _ => ?_
  refine Prog.Solo.ite (fun hyes => absurd hyes (by simp [hnone, hstate])) fun _ => ?_
  refine Prog.Solo.ite (fun hyes => absurd (hstate.symm.trans hyes) (by decide)) fun _ => ?_
  exact hadmits run hrun _ rfl

/-- **The second call** makes the writes that are missing. -/
theorem solo_createRun_again (hr : blank r = false) (hfree : KeyFree before q)
    (hroom : Room policy before q k) (hcover : Covered before q) (hn : 1 ≤ n ∧ n ≤ 3)
    (hw : Written lib before q r k x n w) :
    ((⟨true, true⟩ : RunService).createRun uuid q).Solo (RunWorld.exec lib policy)
      (Drawn.Serves policy k) (Course lib before q r k n) (Dispatched lib before q r k) [] w := by
  refine solo_createRun_found hw hn.2
    ⟨by decide, fun hne => absurd rfl hne, fun _ _ he => absurd he List.not_mem_nil⟩ ?_
  intro run hrun e he
  exact solo_admit hr hrun hfree hroom hcover hn.2 rfl (List.forall_mem_singleton.mpr he)
    (show Written lib before q r k x (max n 1) w from (max_eq_left hn.1).symm ▸ hw)

/-- **The second call in another window** raises. -/
theorem solo_createRun_elapsed (hr : blank r = false) (hn : 2 ≤ n ∧ n ≤ 3) (hk : k ≠ k')
    (hw : Written lib before q r k x n w) :
    ((⟨true, true⟩ : RunService).createRun uuid q).Solo (RunWorld.exec lib policy)
      (Drawn.Serves policy k') (fun past _ => past.length < 6)
      (fun _ _ answer => ∃ e, answer = .error e) [] w := by
  refine solo_createRun_found hw hn.2 (by decide) ?_
  intro run hrun e _
  refine Prog.Solo.ite (fun _ => ?_) fun hno => absurd rfl hno
  refine Prog.solo_attempt_bind (by simp) ?_
  intro d hd
  rw [hrun]
  refine ⟨_, w, hw.elapsed hn.1 hr ?_, _, rfl⟩
  rw [show QuotaCounter.periodKey policy (d.quotaClock 0) = k' from hd]
  exact Ne.symm hk

/-- **The second call after the reservation was attached** returns the run, and
dispatches nothing. -/
theorem solo_createRun_attached (hw : Written lib before q r k x 4 w) :
    ((⟨true, true⟩ : RunService).createRun uuid q).Solo (RunWorld.exec lib policy)
      (Drawn.Serves policy k') (fun past _ => past.length < 6)
      (fun past _ _ => Undispatched past) [] w := by
  refine Prog.solo_perform_bind (by decide) ?_
  intro d _
  obtain ⟨run, hexec, hrun, hstate, hsome⟩ := hw.replay policy d ("run-" ++ uuid)
  refine ⟨_, w, hexec, ?_⟩
  refine Prog.Solo.ite (fun hyes => by cases hyes) fun _ => ?_
  refine Prog.Solo.ite (fun _ => ?_) fun hno => absurd (Or.inl (by simp [hsome])) hno
  have hcreated : Undispatched
      [(⟨.runs (.create ("run-" ++ uuid) q), .ok (run, false)⟩ : Answered)] :=
    List.forall_mem_singleton.mpr rfl
  refine ⟨?_, fun d' _ => hcreated.cons rfl⟩
  simp

end Course

/-! ### A call that is stopped, and one after it -/

/-- The first call, as far as it goes. -/
def firstCall (uuid : String) (q : RunCreate) (draws : List Drawn) : List (Action Task Drawn) :=
  .start (.createRun uuid q) :: draws.map (.step 0)

/-- The first call is stopped, and the request comes again. -/
def secondCall (uuid : String) (q : RunCreate) (draws : List Drawn) : List (Action Task Drawn) :=
  .stop 0 :: .start (.createRun uuid q) :: draws.map (.step 1)

/-- A run is counted in one window, once. -/
def CountedOnce (before : RunWorld) (q : RunCreate) (r : String) (w : RunWorld) : Prop :=
  ∃ a, w.quota.admissions.find? r = some a ∧ a.status = .counted ∧
    ∀ key, QuotaCounter.counts w.quota key
      = QuotaCounter.counts before.quota key + if key = a.key then (1, q.reserveUnits) else 0

/-- **The second call has completed the creation**: it returns the run, queued, with
its one reservation attached, counted once and dispatched. -/
def Converges (before : RunWorld) (q : RunCreate) (r : String) (pool : RunPool) : Prop :=
  ∃ row x, pool.result 1 = some (.ok row.toRun) ∧ pool.state.runs.runs.find? r = some row ∧
    row.state = .queued ∧
    (pool.state.ledger.reservations.rows.filter fun y =>
      decide (y.runId = r ∧ y.status = .reserved)) = [x] ∧
    row.reservationId = some x.reservationId ∧ CountedOnce before q r pool.state ∧
    ∃ i, ∃ e ∈ pool.past i, dispatches e = true

/-- A call that has made or found every write has completed the creation. -/
theorem Dispatched.converges {pool : RunPool} {past : Past} {answer : Except Error Run}
    (h : Dispatched lib before q r k past pool.state answer) (hblank : Blank before q r)
    (hresult : pool.result 1 = some answer) (hpast : ∀ e ∈ past, e ∈ pool.past 1) :
    Converges before q r pool := by
  obtain ⟨-, ⟨e, he, hdispatched⟩, x, row, hw, hrow, rfl⟩ := h
  obtain ⟨⟨row', hrow', -, -, hstate, hattached⟩, ⟨hadmitted, hcounts⟩, ⟨env, hx⟩, reservations, hins,
    hledger⟩ := hw
  obtain rfl := Option.some.inj (hrow'.symm.trans hrow)
  refine ⟨row', x, hresult, hrow, hstate, ?_, hattached, ⟨_, hadmitted, rfl, hcounts⟩, 1, e, hpast e he,
    hdispatched⟩
  have hnone : before.ledger.reservations.rows.filter
      (fun y => decide (y.runId = r ∧ y.status = .reserved)) = [] := by
    refine List.filter_eq_nil_iff.mpr fun y hy hcond => ?_
    exact hblank.reservation y hy (of_decide_eq_true hcond).1
  have hself : decide (x.runId = r ∧ x.status = .reserved) = true := by
    rw [hx]
    exact decide_eq_true ⟨rfl, rfl⟩
  rw [hledger, (Table.insert?_eq_some hins).1, List.filter_append, hnone, List.nil_append]
  exact List.filter_cons_of_pos hself

section Calls

variable {worker : BoundedWorker} {uuid uuid' : String} {first second : List Drawn} {pool : RunPool}

/-- **Where the first call has stopped.** -/
theorem stopped_written (hblank : Blank before q ("run-" ++ uuid)) (hfree : KeyFree before q)
    (hroom : Room policy before q k) (hcover : Covered before q)
    (hlength : 1 ≤ first.length ∧ first.length ≤ 4)
    (hdraws : Runs.Along (runSystem policy ⟨true, true⟩ worker).act
      (Pool.Draws (Drawn.Serves policy k)) (Pool.init before) (firstCall uuid q first))
    (hpool : Runs.final (runSystem policy ⟨true, true⟩ worker).act (Pool.init before)
      (firstCall uuid q first) = pool) :
    ∃ prog new x, pool.procs = [⟨.createRun uuid q, prog, true⟩] ∧
      pool.log = new.map (fun e => (0, e)) ∧ Undispatched new ∧
      Written worker.lib before q ("run-" ++ uuid) k x first.length pool.state := by
  have hlong : ∀ past s answer, Dispatched worker.lib before q ("run-" ++ uuid) k past s answer →
      first.length < past.length := by
    intro past s answer h
    have hsix := h.1
    omega
  have hfound : ((runSystem policy ⟨true, true⟩ worker).act (Pool.init before)
      (.start (.createRun uuid q))).procs[0]?
        = some ⟨.createRun uuid q, (⟨true, true⟩ : RunService).createRun uuid q, true⟩ := rfl
  have hsolo : ((⟨true, true⟩ : RunService).createRun uuid q).Solo
      (RunWorld.exec worker.lib policy) (Drawn.Serves policy k)
      (Course worker.lib before q ("run-" ++ uuid) k 0)
      (Dispatched worker.lib before q ("run-" ++ uuid) k) [] before :=
    solo_createRun hblank hfree hroom hcover
  obtain ⟨prog, new, hprocs, hlog, hnew, hcourse⟩ :=
    System.solo_stopped hfound rfl hsolo hdraws.2 hlong
  change Runs.final _ ((runSystem policy ⟨true, true⟩ worker).act (Pool.init before)
    (.start (.createRun uuid q))) (first.map (Action.step 0)) = pool at hpool
  rw [hpool] at hprocs hlog hcourse
  have hne : new ≠ [] := by
    rintro rfl
    exact absurd hnew (by simp only [List.length_nil]; omega)
  obtain ⟨x, hw⟩ := hcourse.written hne (by omega)
  refine ⟨prog, new, x, hprocs, hlog.trans (List.append_nil _), hcourse.undispatched (by omega), ?_⟩
  rw [Nat.zero_max, hnew] at hw
  exact hw

/-- **Where the second call ends**, from what it does alone. -/
theorem retried_result {Q : Past → RunWorld → Except Error Run → Prop}
    {I : Past → RunWorld → Prop} {prog : Program Run} {new : Past}
    (hprocs : pool.procs = [⟨.createRun uuid q, prog, true⟩])
    (hlog : pool.log = new.map fun e => (0, e))
    (hsolo : ((⟨true, true⟩ : RunService).createRun uuid' q).Solo (RunWorld.exec worker.lib policy)
      (Drawn.Serves policy k) I Q [] pool.state)
    (hshort : ∀ past s, I past s → past.length < 6) (hlength : 6 ≤ second.length)
    (hdraws : Runs.Along (runSystem policy ⟨true, true⟩ worker).act
      (Pool.Draws (Drawn.Serves policy k)) pool (secondCall uuid' q second)) :
    ∃ answer past, (Runs.final (runSystem policy ⟨true, true⟩ worker).act pool
        (secondCall uuid' q second)).result 1 = some answer ∧
      (Runs.final (runSystem policy ⟨true, true⟩ worker).act pool (secondCall uuid' q second)).log
        = past.map (fun e => (1, e)) ++ new.map (fun e => (0, e)) ∧
      Q past (Runs.final (runSystem policy ⟨true, true⟩ worker).act pool
        (secondCall uuid' q second)).state answer := by
  obtain ⟨-, -, hdraws⟩ := hdraws
  obtain ⟨state, procs, log⟩ := pool
  obtain rfl : procs = [⟨.createRun uuid q, prog, true⟩] := hprocs
  obtain rfl : log = new.map fun e => (0, e) := hlog
  have hfound : ((runSystem policy ⟨true, true⟩ worker).act
      ((runSystem policy ⟨true, true⟩ worker).act
        ⟨state, [⟨.createRun uuid q, prog, true⟩], new.map fun e => (0, e)⟩ (.stop 0))
      (.start (.createRun uuid' q))).procs[1]?
        = some ⟨.createRun uuid' q, (⟨true, true⟩ : RunService).createRun uuid' q, true⟩ := rfl
  refine System.solo_done hfound ?_ hsolo hdraws hshort hlength
  simp [Pool.past, System.act]

end Calls

/-! ### A key that is taken -/

/-- The key of a request is taken, and not for its run. -/
structure Taken (q : RunCreate) (r : String) (pool : RunPool) : Prop where
  tasks : ∀ i task, pool.task i = some task → ∃ uuid, task = .createRun uuid q
  taken : ∃ y, pool.state.ledger.reservations.findBy? (RunService.reserveKey q) = some y
  absent : ∀ id x, pool.state.ledger.reservations.find? id = some x → x.runId ≠ r

/-- **A request whose key is taken** never has a reservation. -/
theorem taken_act {service : RunService} {worker : BoundedWorker} {pool pool' : RunPool}
    {a : Action Task Drawn} (hstart : ∀ task, a = .start task → ∃ uuid, task = .createRun uuid q)
    (htraced : System.Traced Task.Does Task.Ends pool) (h : Taken q r pool)
    (hacts : System.Acts (runSystem policy service worker) pool a pool') : Taken q r pool' := by
  have htasks : ∀ i task, pool'.task i = some task → ∃ uuid, task = .createRun uuid q := by
    intro i task htask
    rcases Nat.lt_or_ge i pool.procs.length with hi | hi
    · rw [hacts.task_eq hi] at htask
      exact h.tasks i task htask
    · have hnone : pool.procs[i]? = none := List.getElem?_eq_none hi
      cases hacts with
      | start task' =>
        rw [Pool.task, List.getElem?_append_right hi, Option.map_eq_some_iff] at htask
        obtain ⟨p, hp, rfl⟩ := htask
        obtain rfl := List.mem_singleton.mp (List.mem_of_getElem? hp)
        exact hstart task' rfl
      | stop j =>
        rw [Pool.task, List.getElem?_modify, hnone] at htask
        cases htask
      | idle =>
        rw [Pool.task, hnone] at htask
        cases htask
      | step _ found =>
        rw [Pool.task, System.after, List.getElem?_set] at htask
        have hlt := (List.getElem?_eq_some_iff.mp found).1
        rw [if_neg (by omega), hnone] at htask
        cases htask
  cases hacts with
  | start | stop => exact ⟨htasks, h.taken, h.absent⟩
  | idle => exact h
  | @step i drawn task op next found =>
    obtain ⟨uuid, rfl⟩ := h.tasks i task (Pool.task_of_found found)
    have hdoes : RunService.Does uuid q (pool.past i) op := (htraced.1 i _ found).1
    obtain ⟨y, hy⟩ := h.taken
    obtain ⟨hmem, hkey⟩ := Table.findBy?_eq_some.mp hy
    have hlater := (later_exec worker.lib policy drawn op pool.state).ledger
    refine ⟨htasks, ?_, ?_⟩
    · obtain ⟨y', hy', -⟩ := hlater.reservations _ y (Table.find?_of_mem hmem)
      obtain ⟨-, hkey', -⟩ := hlater.reserved (Table.find?_of_mem hmem) hy'
      exact ⟨y', Table.findBy?_eq_some.mpr ⟨(Table.find?_eq_some.mp hy').1, hkey'.trans hkey⟩⟩
    · intro id x hx
      cases hbefore : pool.state.ledger.reservations.find? id with
      | some x' =>
        obtain ⟨hrun, -⟩ := hlater.reserved hbefore hx
        rw [hrun]
        exact h.absent id x' hbefore
      | none =>
        obtain ⟨t, a, r', u, key, rfl, hfree, -⟩ := new_reservation_exec hbefore hx
        obtain ⟨-, rfl, -⟩ := hdoes
        rw [hfree] at hy
        cases hy

/-- **A creation that is stopped and tried again.**  A request of which nothing is
known comes with enough quota, credit and a working dispatcher; its call is stopped
after its first, second, third or fourth write, and the request comes again.  The
second call completes the creation if and only if no reservation had its key before,
and either only the run had been written, or the reservation was not attached yet and
both calls read the quota's clock in one window. -/
theorem create_run_converges (policy : QuotaPolicy) (worker : BoundedWorker) {before : RunWorld}
    {q : RunCreate} {uuid uuid' : String} {k k' : ℤ} {first second : List Drawn}
    (hblank : Blank before q ("run-" ++ uuid)) (hroom : Room policy before q k)
    (hroom' : Room policy before q k') (hcover : Covered before q)
    (hfirst : 1 ≤ first.length ∧ first.length ≤ 4) (hsecond : 6 ≤ second.length)
    (hdraws : Runs.Along (runSystem policy ⟨true, true⟩ worker).act
      (Pool.Draws (Drawn.Serves policy k)) (Pool.init before) (firstCall uuid q first))
    (hdraws' : Runs.Along (runSystem policy ⟨true, true⟩ worker).act
      (Pool.Draws (Drawn.Serves policy k'))
      (Runs.final (runSystem policy ⟨true, true⟩ worker).act (Pool.init before)
        (firstCall uuid q first)) (secondCall uuid' q second)) :
    Converges before q ("run-" ++ uuid)
        (Runs.final (runSystem policy ⟨true, true⟩ worker).act (Pool.init before)
          (firstCall uuid q first ++ secondCall uuid' q second)) ↔
      KeyFree before q ∧ (first.length = 1 ∨ first.length ≤ 3 ∧ k = k') := by
  by_cases hfree : KeyFree before q
  · rw [Runs.final_append]
    generalize hstopped : Runs.final (runSystem policy ⟨true, true⟩ worker).act (Pool.init before)
      (firstCall uuid q first) = pool at hdraws'
    obtain ⟨prog, new, x, hprocs, hlog, hnone, hw⟩ :=
      stopped_written hblank hfree hroom hcover hfirst hdraws hstopped
    have hr := blank_runId uuid
    constructor
    · rintro ⟨row, x', hresult, -, -, -, -, -, i, e, he, hdispatched⟩
      refine ⟨hfree, ?_⟩
      by_contra hcond
      push Not at hcond
      obtain ⟨hone, hwindow⟩ := hcond
      rcases Nat.lt_or_ge first.length 4 with hlt | hge
      · -- the run is admitted to another window
        obtain ⟨answer, past, hanswer, -, e, rfl⟩ := retried_result hprocs hlog
          (solo_createRun_elapsed hr ⟨by omega, by omega⟩ (hwindow (by omega)) hw)
          (fun _ _ h => h) hsecond hdraws'
        rw [hresult] at hanswer
        cases hanswer
      · -- the reservation is attached, and neither call dispatches
        have hfour : first.length = 4 := by omega
        rw [hfour] at hw
        obtain ⟨answer, past, -, hlog', hundispatched⟩ := retried_result hprocs hlog
          (solo_createRun_attached hw) (fun _ _ h => h) hsecond hdraws'
        have hmem := Pool.mem_past.mp he
        rw [hlog', List.mem_append, List.mem_map, List.mem_map] at hmem
        have hfalse : dispatches e = false := by
          rcases hmem with ⟨e', he', hsame⟩ | ⟨e', he', hsame⟩
          · obtain ⟨-, rfl⟩ := Prod.mk.inj hsame
            exact hundispatched e' he'
          · obtain ⟨-, rfl⟩ := Prod.mk.inj hsame
            exact hnone e' he'
        rw [hfalse] at hdispatched
        cases hdispatched
    · rintro ⟨-, hcond⟩
      have hw' : Written worker.lib before q ("run-" ++ uuid) k' x first.length pool.state := by
        rcases hcond with hone | ⟨-, rfl⟩
        · rw [hone] at hw ⊢
          exact hw.of_one k' x
        · exact hw
      obtain ⟨answer, past, hanswer, hlog', hdispatched⟩ := retried_result hprocs hlog
        (solo_createRun_again hr hfree hroom' hcover ⟨hfirst.1, by omega⟩ hw')
        (fun _ _ h => h.length) hsecond hdraws'
      refine hdispatched.converges hblank hanswer fun e he => Pool.mem_past.mpr ?_
      rw [hlog']
      exact List.mem_append_left _ (List.mem_map.mpr ⟨e, he, rfl⟩)
  · refine iff_of_false ?_ fun h => hfree h.1
    have hempty : Taken q ("run-" ++ uuid) (Pool.init before) := by
      refine ⟨fun i task htask => (by cases htask), Option.ne_none_iff_exists'.mp hfree, ?_⟩
      intro id x hx
      exact hblank.reservation x (Table.find?_eq_some.mp hx).1
    have hstarts : Runs.Along (runSystem policy ⟨true, true⟩ worker).act
        (fun _ a => ∀ task, a = .start task → ∃ uuid, task = .createRun uuid q) (Pool.init before)
        (firstCall uuid q first ++ secondCall uuid' q second) := by
      refine Runs.along_of_mem ?_
      rintro a ha - task rfl
      simp only [firstCall, secondCall, List.cons_append, List.mem_cons, List.mem_append, List.mem_map,
        Action.start.injEq, reduceCtorEq, and_false, exists_false, or_false, false_or] at ha
      rcases ha with rfl | rfl
      · exact ⟨uuid, rfl⟩
      · exact ⟨uuid', rfl⟩
    obtain ⟨-, htaken⟩ := System.invariant (program_trail policy ⟨true, true⟩ worker)
      (fun _ _ _ hstart htraced h hacts => taken_act hstart htraced h hacts) hstarts
      (System.traced_init before) hempty
    rintro ⟨row, x, -, -, -, hfilter, -⟩
    have hx : x ∈ [x] := List.mem_cons_self
    rw [← hfilter] at hx
    obtain ⟨hmem, hcond⟩ := List.mem_filter.mp hx
    exact htaken.absent _ x (Table.find?_of_mem hmem) (of_decide_eq_true hcond).1

/-! ### A sample -/

/-- The sample request, stopped after its admission to the first window. -/
def firstDraws : List Drawn := ["a", "b"].map fun name => Sample.draws name Sample.lastStep

/-- The sample request again, at a reading of the quota's clock. -/
def secondDraws (reading : ℚ) : List Drawn :=
  ["c", "d", "e", "f", "g", "h"].map fun name =>
    { Sample.draws name Sample.lastStep with quotaClock := fun _ => reading }

/-- The pool after both calls. -/
def retriedPool (reading : ℚ) : RunPool :=
  Runs.final (runSystem Sample.quotaPolicy ⟨true, true⟩ Sample.boundedWorker).act
    (Pool.init Sample.runWorld)
    (firstCall "1" Sample.runRequest firstDraws ++
      secondCall "2" Sample.runRequest (secondDraws reading))

theorem blank_runWorld : Blank Sample.runWorld Sample.runRequest ("run-" ++ "1") :=
  ⟨RunDatabase.gapless_empty, rfl, rfl, rfl, fun x hx => (by cases hx)⟩

theorem covered_runWorld : Covered Sample.runWorld Sample.runRequest :=
  ⟨⟨"account-1", 10⟩, by decide +kernel, by decide +kernel⟩

theorem room_runWorld (k : ℤ) : Room Sample.quotaPolicy Sample.runWorld Sample.runRequest k :=
  ⟨show (0 : ℤ) + 1 ≤ 10 by decide, show (0 : ℤ) + 6 ≤ 100 by decide⟩

theorem create_run_converges_sample :
    Converges Sample.runWorld Sample.runRequest ("run-" ++ "1") (retriedPool 0) :=
  (create_run_converges Sample.quotaPolicy Sample.boundedWorker blank_runWorld (room_runWorld 0)
    (room_runWorld 0) covered_runWorld (by decide) (by decide) (by decide +kernel)
    (by decide +kernel)).mpr ⟨rfl, Or.inr ⟨by decide, rfl⟩⟩

/-- What a process has raised. -/
def raised (pool : RunPool) (i : ℕ) : Option Error :=
  match pool.result i with
  | some (.error e) => some e
  | _ => none

/-- An hour later the run is refused for good. -/
theorem lateRetry_raises :
    Room Sample.quotaPolicy Sample.runWorld Sample.runRequest 1 ∧
      Covered Sample.runWorld Sample.runRequest ∧
      raised (retriedPool 3600) 1 = some (.valueError
        "quota run identity was reused with different admission data") ∧
      ¬ Converges Sample.runWorld Sample.runRequest ("run-" ++ "1") (retriedPool 3600) := by
  have hraised : raised (retriedPool 3600) 1 = some (.valueError
      "quota run identity was reused with different admission data") := by decide +kernel
  refine ⟨room_runWorld 1, covered_runWorld, hraised, ?_⟩
  rintro ⟨row, x, hresult, -⟩
  rw [raised, hresult] at hraised
  cases hraised

end AiSaas
