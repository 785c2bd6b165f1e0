import AiSaas.AgentWorker.Facts

/-!
# Credit holds

`create_run` makes a reservation, attaches it to its run, and dispatches the run;
whoever ends a run releases or commits the reservation it knows of.  A reservation
is known to others once it is attached.

## Main definitions

* `RunRow.reserveKey` — the key under which a run's reservation is made.
* `endsHolds` — the condition on an interleaving: a reservation is not made for a
  run that has ended, and a run is ended by someone who knows of its reservation.
* `Held` — what is known of the reservations of one run.

## Main results

* `new_reservation_exec` — only `reserve` makes a reservation.
* `held_act` — the invariant: while an ended run has a reservation that is still
  held, a cancellation is on its way to release it.
* `no_leaked_hold` — no hold is left when every invocation has returned.
-/

namespace AiSaas

open Relational Transaction Processes

/-- The key of a run's reservation. -/
def RunRow.reserveKey (row : RunRow) : String :=
  "run-reserve:" ++ row.tenantId ++ ":" ++ row.idempotencyKey

variable {lib : RunLibrary} {policy : QuotaPolicy} {service : RunService} {worker : BoundedWorker}
  {w : RunWorld} {pool pool' : RunPool} {drawn : Drawn} {r id : String} {i : ℕ}

/-! ### Reservations before and after an operation -/

/-- **Only `reserve` makes a reservation.** -/
theorem new_reservation_exec {op : Op} {x : ReservationRow}
    (hnone : w.ledger.reservations.find? id = none)
    (hx : (RunWorld.exec lib policy drawn op w).2.ledger.reservations.find? id = some x) :
    ∃ t a r u k, op = .reserve t a r u k ∧ w.ledger.reservations.findBy? k = none ∧
      x = CreditLedger.newReservation drawn.env t a r u k := by
  have hcall : ∀ call : CreditLedger.Call,
      (RunWorld.exec lib policy drawn op w).2.ledger = CreditLedger.step w.ledger (drawn.env, call) →
      ∃ t a r u k, call = .reserve t a r u k ∧ w.ledger.reservations.findBy? k = none ∧
        x = CreditLedger.newReservation drawn.env t a r u k := by
    intro call hstep
    rw [hstep] at hx
    rcases CreditLedger.step_cases drawn.env call w.ledger with hsame | hwrites
    · change CreditLedger.step w.ledger (drawn.env, call) = w.ledger at hsame
      rw [hsame, hnone] at hx
      cases hx
    · exact hwrites.new_reservation hnone hx
  have hother : (RunWorld.exec lib policy drawn op w).2.ledger ≠ w.ledger := by
    intro hsame
    rw [hsame, hnone] at hx
    cases hx
  cases op with
  | reserve t a r u k =>
    obtain ⟨t', a', r', u', k', hsame, hfresh, hnew⟩ :=
      hcall (.reserve t a r u k) (snd_atomically_map _ _ _).symm
    injection hsame with ht ha hr hu hk
    subst ht ha hr hu hk
    exact ⟨t, a, r, u, k, rfl, hfresh, hnew⟩
  | release id' k =>
    obtain ⟨_, _, _, _, _, hsame, -⟩ := hcall (.release id' k) (snd_atomically_map _ _ _).symm
    cases hsame
  | commit id' u k =>
    obtain ⟨_, _, _, _, _, hsame, -⟩ := hcall (.commit id' u k) (snd_atomically_map _ _ _).symm
    cases hsame
  | _ => exact absurd rfl hother

/-- A reservation is not held after its release. -/
theorem released_exec {key : String} {x y : ReservationRow}
    (hx : w.ledger.reservations.find? id = some x)
    (hy : (RunWorld.exec lib policy drawn (.release id key) w).2.ledger.reservations.find? id
      = some y) : y.status ≠ .reserved := by
  obtain ⟨res, db, hbody, hexec⟩ | ⟨e, hbody, -⟩ :=
    atomically_cases (CreditLedger.release drawn.env id key) w.ledger
  · have hcall : (CreditLedger.Call.release id key).body drawn.env w.ledger
        = .ok (.reservation res, db) := Tx.map_eq_ok.mpr ⟨res, hbody, rfl⟩
    obtain ⟨z, hz, hreleased⟩ := CreditLedger.done_of_body_ok hcall
    simp only [RunWorld.exec, hexec] at hy
    rw [hz] at hy
    exact Option.some.inj hy ▸ hreleased
  · obtain ⟨res, db, hok⟩ := CreditLedger.exists_release_eq_ok drawn.env key hx
    rw [hok] at hbody
    cases hbody

theorem named_exec {op : Op} (h : CreditLedger.Named w.ledger) :
    CreditLedger.Named (RunWorld.exec lib policy drawn op w).2.ledger := by
  rcases exec_ledger lib policy drawn op w with hsame | ⟨call, hstep⟩
  · rwa [hsame]
  · rw [hstep]
    exact CreditLedger.named_step w.ledger (drawn.env, call) h

theorem Fresh.named (h : Fresh w) : CreditLedger.Named w.ledger := by
  obtain ⟨balances, db, calls, hopen, hledger⟩ := h.ledger
  obtain ⟨creditAccounts, rfl⟩ := CreditLedger.openLedger_eq_ok hopen
  rw [hledger]
  exact Runs.invariant (fun id x hx => (by cases hx)) CreditLedger.named_step calls

/-! ### What processes know -/

instance : DecidablePred settles
  | ⟨.release _ _, .ok _⟩ | ⟨.commit _ _ _, .ok _⟩ => isTrue trivial
  | ⟨.release _ _, .error _⟩ | ⟨.commit _ _ _, .error _⟩ => isFalse fun h => h
  | ⟨.runs _, _⟩ | ⟨.quota _, _⟩ | ⟨.reserve .., _⟩ | ⟨.clock, _⟩ | ⟨.model .., _⟩
  | ⟨.outside _, _⟩ => isFalse fun h => h

/-- A run that an operation was answered with is known. -/
theorem known_of_answeredRun {e : Answered} {run : Run} (h : Tells w e)
    (hrun : answeredRun e = some run) : Known w run := by
  obtain ⟨op, answer⟩ := e
  cases op with
  | runs call =>
    cases answer with
    | error e => cases call <;> cases hrun
    | ok a =>
      cases call with
      | create => exact Option.some.inj hrun ▸ h.1
      | get | attachReservation | claim | transition | markCancelRequested | approve | fail
      | pauseQuota | complete => exact Option.some.inj hrun ▸ h.1
      | saveCheckpoint | checkpoint | appendToken => cases hrun
  | _ => cases hrun

/-- The reservation that a known run has is still attached to it. -/
theorem Known.attached {run : Run} {row : RunRow} (h : Known w run) (hid : run.runId = r)
    (hrow : w.runs.runs.find? r = some row) (hhas : present run.reservationId = some id) :
    row.reservationId = some id := by
  obtain ⟨before, now, rfl, hnow, hgoes⟩ := h
  rw [hid] at hnow
  obtain rfl := Option.some.inj (hnow.symm.trans hrow)
  exact hgoes.reservation id (present_eq_some.mp hhas).1

/-- A run keeps its tenant and its key. -/
theorem Known.request {run : Run} (h : Known w run) : ∃ row,
    w.runs.runs.find? run.runId = some row ∧ row.tenantId = run.tenantId ∧
      row.idempotencyKey = run.idempotencyKey := by
  obtain ⟨before, now, rfl, hnow, hgoes⟩ := h
  obtain ⟨hrequest, -⟩ := hgoes.request
  exact ⟨now, hnow, (congrArg Run.tenantId hrequest :), (congrArg Run.idempotencyKey hrequest :)⟩

/-- The run that `create_run` goes on with has the key of its request. -/
theorem row_of_from {request : RunCreate} {run : Run} (hsound : Sound pool)
    (hfrom : RunService.From request (pool.past i) run) : ∃ row,
    pool.state.runs.runs.find? run.runId = some row ∧
      row.reserveKey = RunService.reserveKey request := by
  have hcreated : ∀ {r' first created}, (⟨.runs (.create r' request), .ok (first, created)⟩ :
      Answered) ∈ pool.past i → ∃ row, pool.state.runs.runs.find? first.runId = some row ∧
        row.reserveKey = RunService.reserveKey request := by
    intro r' first created hmem
    obtain ⟨hknown, hkey⟩ : Known pool.state first ∧ (first.tenantId, first.idempotencyKey)
      = (request.tenantId, request.idempotencyKey) := hsound.past hmem
    obtain ⟨row, hrow, htenant, hidempotency⟩ := hknown.request
    obtain ⟨ht, hk⟩ := Prod.mk.inj hkey
    exact ⟨row, hrow, by rw [RunRow.reserveKey, htenant, hidempotency, ht, hk]; rfl⟩
  obtain ⟨e, he, -, ⟨r', created, rfl⟩ | ⟨first, payload, rfl, r', created, hmem⟩⟩ := hfrom
  · exact hcreated he
  · obtain ⟨-, hid⟩ : Known pool.state run ∧ run.runId = first.runId := hsound.past he
    rw [hid]
    exact hcreated hmem

/-- A reservation that was released or committed is not held. -/
theorem not_reserved_of_settled {x : ReservationRow} (hsound : Sound pool)
    (hsettled : Settled (pool.past i) id)
    (hx : pool.state.ledger.reservations.find? id = some x) : x.status ≠ .reserved := by
  rcases hsettled with ⟨key, res, hmem⟩ | ⟨u, key, com, hmem⟩
  · obtain ⟨y, hy, hreleased⟩ : CreditLedger.Done pool.state.ledger (.release id key) :=
      hsound.past hmem
    rw [hx] at hy
    exact Option.some.inj hy ▸ hreleased
  · obtain ⟨-, -, e, he, hid, -⟩ : CreditLedger.Done pool.state.ledger (.commit id u key) :=
      hsound.past hmem
    intro hreserved
    have hnone := (hsound.settled.charges id x hx).2 (by rw [hreserved]; decide)
    have hmem : e ∈ CreditLedger.entriesOf pool.state.ledger id :=
      List.mem_filter.mpr ⟨(Table.findBy?_eq_some.mp he).1, decide_eq_true hid⟩
    rw [hnone] at hmem
    cases hmem

/-! ### The invariant -/

/-- A reservation of a run is held. -/
def HeldFor (w : RunWorld) (r : String) (x : ReservationRow) : Prop :=
  w.ledger.reservations.find? x.reservationId = some x ∧ x.runId = r ∧ x.status = .reserved

/-- A reservation is not made for a run that has ended; a run is not failed by a
process that has released and committed nothing while a reservation is held for it;
and it is not cancelled before a reservation that is held for it is attached. -/
def endsHolds (pool : RunPool) (i : ℕ) : Op → Bool
  | .reserve _ _ r _ key => (pool.state.ledger.reservations.findBy? key).isSome ||
    (pool.state.runs.runs.find? r).all fun row => !row.state.terminal
  | .runs (.fail r _) => decide ((∀ e ∈ pool.past i, ¬ settles e) →
    ∀ x ∈ pool.state.ledger.reservations.rows, x.runId = r → x.status ≠ .reserved)
  | .runs (.markCancelRequested r t) => (pool.state.runs.runs.find? r).all fun row =>
    decide (row.tenantId = t → row.state = .queued ∨ row.state = .waitingApproval →
      ∀ x ∈ pool.state.ledger.reservations.rows, x.runId = r → x.status = .reserved →
        row.reservationId = some x.reservationId)
  | _ => true

/-- A cancellation has ended a run, and is about to release its reservation. -/
def Releasing (pool : RunPool) (r id : String) : Prop :=
  ∃ j t run, pool.task j = some (.cancel r t) ∧
    pool.past j = [⟨.runs (.markCancelRequested r t), .ok run⟩] ∧
    Run.state run = .cancelled ∧ present (Run.reservationId run) = some id

/-- What is known of the reservations of a run. -/
structure Held (pool : RunPool) (r : String) : Prop where
  named : CreditLedger.Named pool.state.ledger
  keyed : ∀ id x, pool.state.ledger.reservations.find? id = some x → x.runId = r →
    ∃ row, pool.state.runs.runs.find? r = some row ∧ x.idempotencyKey = row.reserveKey
  attached : ∀ row id, pool.state.runs.runs.find? r = some row → row.reservationId = some id →
    ∃ x, pool.state.ledger.reservations.find? id = some x ∧ x.runId = r
  ended : ∀ row x, pool.state.runs.runs.find? r = some row → row.state.terminal = true →
    HeldFor pool.state r x → Releasing pool r x.reservationId

/-- A run has one reservation. -/
theorem Held.unique {id' : String} {x y : ReservationRow} (h : Held pool r)
    (hx : pool.state.ledger.reservations.find? id = some x) (hxr : x.runId = r)
    (hy : pool.state.ledger.reservations.find? id' = some y) (hyr : y.runId = r) : x = y := by
  obtain ⟨row, hrow, hxk⟩ := h.keyed id x hx hxr
  obtain ⟨row', hrow', hyk⟩ := h.keyed id' y hy hyr
  obtain rfl := Option.some.inj (hrow.symm.trans hrow')
  exact Table.eq_of_uk (Table.find?_eq_some.mp hx).1 (Table.find?_eq_some.mp hy).1
    (hxk.trans hyk.symm)

/-- A run whose reservation a process knows of and has settled holds nothing. -/
theorem Held.settled {e : Answered} {run : Run} {row : RunRow} {x : ReservationRow}
    (h : Held pool r) (hsound : Sound pool) (he : e ∈ pool.past i)
    (hrun : answeredRun e = some run) (hid : run.runId = r)
    (hrow : pool.state.runs.runs.find? r = some row)
    (hhas : present run.reservationId = some id) (hsettled : Settled (pool.past i) id) :
    ¬ HeldFor pool.state r x := by
  rintro ⟨hx, hxr, hreserved⟩
  have hattached := (known_of_answeredRun (hsound.past he) hrun).attached hid hrow hhas
  obtain ⟨y, hy, hyr⟩ := h.attached row id hrow hattached
  obtain rfl := h.unique hx hxr hy hyr
  exact not_reserved_of_settled hsound hsettled hy hreserved

/-! ### What one operation preserves -/

/-- The reservations of a run are made under its key. -/
theorem Held.keyed_exec {task : Task} {op : Op} (h : Held pool r) (hsound : Sound pool)
    (hdoes : task.Does (pool.past i) op) : ∀ id x,
    (RunWorld.exec lib policy drawn op pool.state).2.ledger.reservations.find? id = some x →
      x.runId = r → ∃ row,
        (RunWorld.exec lib policy drawn op pool.state).2.runs.runs.find? r = some row ∧
          x.idempotencyKey = row.reserveKey := by
  intro id x hx hxr
  have hlater := later_exec lib policy drawn op pool.state
  have hbefore : ∃ row, pool.state.runs.runs.find? r = some row ∧
      x.idempotencyKey = row.reserveKey := by
    cases hid : pool.state.ledger.reservations.find? id with
    | some before =>
      obtain ⟨hrun, hkey, -⟩ := hlater.ledger.reserved hid hx
      rw [hkey]
      exact h.keyed id before hid (hrun.symm.trans hxr)
    | none =>
      obtain ⟨t, a, r', u, k, rfl, -, rfl⟩ := new_reservation_exec hid hx
      obtain rfl : r' = r := hxr
      cases task with
      | execute | cancel => exact hdoes.elim
      | approve r t => exact absurd hdoes.1 (by simp)
      | createRun uuid request =>
        obtain ⟨-, rfl, run, hfrom, rfl⟩ := hdoes
        obtain ⟨row, hrow, hkey⟩ := row_of_from hsound hfrom
        exact ⟨row, hrow, hkey.symm⟩
  obtain ⟨row, hrow, hkey⟩ := hbefore
  obtain ⟨row', hrow', hgoes⟩ := hlater.runs.runs r row hrow
  obtain ⟨hrequest, -⟩ := hgoes.request
  have htenant : row'.tenantId = row.tenantId := (congrArg Run.tenantId hrequest :)
  have hidempotency : row'.idempotencyKey = row.idempotencyKey :=
    (congrArg Run.idempotencyKey hrequest :)
  exact ⟨row', hrow', by rw [hkey, RunRow.reserveKey, RunRow.reserveKey, htenant, hidempotency]⟩

/-- Only `attach_reservation` changes what is attached to a run. -/
theorem reservation_of_update {env : Env} {row row' : RunRow} {call : RunStore.Call}
    (hupdate : RunStore.Update env row call row') (hid : row'.reservationId = some id) :
    row.reservationId = some id ∨ call = .attachReservation row.runId id := by
  cases hupdate with
  | attach id' allowed =>
    obtain rfl := Option.some.inj hid
    exact Or.inr rfl
  | _ => exact Or.inl hid

/-- What is attached to a run is a reservation of the run. -/
theorem Held.attached_exec {task : Task} {op : Op} (h : Held pool r) (hsound : Sound pool)
    (hdoes : task.Does (pool.past i) op) : ∀ row id,
    (RunWorld.exec lib policy drawn op pool.state).2.runs.runs.find? r = some row →
      row.reservationId = some id → ∃ x,
        (RunWorld.exec lib policy drawn op pool.state).2.ledger.reservations.find? id = some x ∧
          x.runId = r := by
  intro row id hrow hid
  have hbefore : ∃ x, pool.state.ledger.reservations.find? id = some x ∧ x.runId = r := by
    rcases exec_runs lib policy drawn op pool.state with hsame | ⟨call, rfl, hstep⟩
    · exact h.attached row id (hsame ▸ hrow) hid
    · rw [hstep] at hrow
      rcases RunStore.step_row hrow with hrow | ⟨q, -, rfl, -⟩ | ⟨before, hbefore, hupdate⟩
      · exact h.attached row id hrow hid
      · cases hid
      · rcases reservation_of_update hupdate hid with hid | rfl
        · exact h.attached before id hbefore hid
        · obtain ⟨-, rfl⟩ := Table.find?_eq_some.mp hbefore
          cases task with
          | execute | cancel => exact hdoes.elim
          | approve r t => exact absurd hdoes.1 (by simp)
          | createRun uuid request =>
            obtain ⟨-, t, a, u, key, res, hmem, rfl⟩ := hdoes
            obtain ⟨x, hx, hxr, -⟩ := hsound.past hmem
            exact ⟨x, hx, hxr⟩
  obtain ⟨x, hx, hxr⟩ := hbefore
  obtain ⟨y, hy, -, hsame⟩ := (later_exec lib policy drawn op pool.state).ledger.reservations id x hx
  exact ⟨y, hy, (congrArg CreditReservation.runId hsame :).trans hxr⟩

/-- The answer of a cancellation that ends a run is the run as it is then. -/
theorem answer_of_cancel {t : String} {before now : RunRow}
    (hbefore : w.runs.runs.find? r = some before) (hgoing : before.state.terminal = false)
    (hnow : (RunWorld.exec lib policy drawn (.runs (.markCancelRequested r t)) w).2.runs.runs.find? r
      = some now) (hended : now.state.terminal = true) :
    (RunWorld.exec lib policy drawn (.runs (.markCancelRequested r t)) w).1 = .ok now.toRun := by
  obtain ⟨run, db, hbody, hexec⟩ | ⟨e, -, hexec⟩ := atomically_cases
    ((RunStore.Call.markCancelRequested r t).body lib drawn.env) w.runs
  · simp only [RunWorld.exec, RunStore.perform, hexec] at hnow ⊢
    obtain ⟨row, row', hrow, -, rfl, hcancel⟩ := RunStore.markCancelRequested_eq_ok hbody
    obtain rfl := Option.some.inj (hbefore.symm.trans hrow)
    obtain ⟨-, rfl⟩ := Table.find?_eq_some.mp hrow
    rcases hcancel with ⟨hterminal, -⟩ | ⟨-, -, hmoves⟩ | ⟨-, -, hlogs, -⟩
    · rw [hgoing] at hterminal
      cases hterminal
    · have hafter := (hmoves.logs.sets before.runId).trans (if_pos rfl)
      obtain rfl := Option.some.inj (hafter.symm.trans hnow)
      rfl
    · have hafter := (hlogs.sets before.runId).trans (if_pos rfl)
      obtain rfl := Option.some.inj (hafter.symm.trans hnow)
      rfl
  · simp only [RunWorld.exec, RunStore.perform, hexec] at hnow
    obtain rfl := Option.some.inj (hbefore.symm.trans hnow)
    rw [hgoing] at hended
    cases hended

/-- **Who ends a run** has settled its reservation, or is a cancellation that finds the
reservation attached. -/
theorem Held.ends {task : Task} {call : RunStore.Call} {row now : RunRow} {x : ReservationRow}
    (h : Held pool r) (hsound : Sound pool) (hdoes : task.Does (pool.past i) (.runs call))
    (hcond : endsHolds pool i (.runs call) = true)
    (hrow : pool.state.runs.runs.find? r = some row) (hgoing : row.state.terminal = false)
    (hupdate : RunStore.Update drawn.env row call now) (hended : now.state.terminal = true)
    (hheld : HeldFor pool.state r x) :
    ∃ t, task = .cancel r t ∧ call = .markCancelRequested r t ∧ pool.past i = [] ∧
      now.state = .cancelled ∧ now.reservationId = some x.reservationId := by
  have hworker : ∀ {run id}, Holding (pool.past i) r run id → Settled (pool.past i) id → False :=
    fun hholds hsettled => h.settled hsound hholds.claimed rfl (hsound.past hholds.claimed).2 hrow
      hholds.reservation hsettled hheld
  obtain ⟨hx, hxr, hreserved⟩ := hheld
  have hnone : ∀ {reason}, call = .fail r reason → ∃ e ∈ pool.past i, settles e := by
    rintro reason rfl
    by_contra hunsettled
    push Not at hunsettled
    have hfree := of_decide_eq_true hcond hunsettled x (Table.find?_eq_some.mp hx).1 hxr
    exact hfree hreserved
  obtain ⟨-, rfl⟩ := Table.find?_eq_some.mp hrow
  cases hupdate with
  | attach | reclaim | appendToken | askCancel =>
    rw [hgoing] at hended
    cases hended
  | claim | approve => cases hended
  | complete u running =>
    cases task with
    | createRun | cancel => exact hdoes.elim
    | approve r t => exact absurd hdoes.1 (by simp)
    | execute r =>
      obtain ⟨rfl, ⟨run, id, com, hholds, hcommit⟩, -⟩ := hdoes
      exact (hworker hholds (Or.inr ⟨u, _, com, hcommit⟩)).elim
  | @move _ state payload which allowed =>
    cases call with
    | transition r' state' payload' =>
      simp only [RunStore.Call.move?, Option.some.injEq, Prod.mk.injEq] at which
      obtain ⟨rfl, rfl, rfl⟩ := which
      cases task with
      | cancel => exact hdoes.elim
      | approve r t => exact absurd hdoes.1 (by simp)
      | createRun uuid request =>
        obtain ⟨rfl, -⟩ := hdoes
        cases hended
      | execute r =>
        obtain ⟨rfl, -, run, id, hholds, rfl | ⟨rfl, hsettled⟩⟩ := hdoes
        · cases hended
        · exact (hworker hholds hsettled).elim
    | fail r' reason =>
      simp only [RunStore.Call.move?, Option.some.injEq, Prod.mk.injEq] at which
      obtain ⟨rfl, rfl, rfl⟩ := which
      obtain ⟨e, he, hsettles⟩ := hnone rfl
      cases task with
      | cancel => exact hdoes.elim
      | approve r t => exact absurd hdoes.1 (by simp)
      | createRun uuid request =>
        obtain ⟨-, hunsettled | ⟨e', he', run, id, hrun, hid, hhas, hsettled⟩⟩ := hdoes
        · exact absurd hsettles (hunsettled e he)
        · exact (h.settled hsound he' hrun hid hrow hhas hsettled ⟨hx, hxr, hreserved⟩).elim
      | execute r =>
        obtain ⟨rfl, ⟨run, id, hholds, hsettled⟩ | ⟨run, hpast, -⟩⟩ := hdoes
        · exact (hworker hholds hsettled).elim
        · rw [hpast] at he
          obtain rfl := List.mem_singleton.mp he
          exact hsettles.elim
    | pauseQuota r' d n =>
      simp only [RunStore.Call.move?, Option.some.injEq, Prod.mk.injEq] at which
      obtain ⟨-, rfl, -⟩ := which
      cases hended
    | _ => cases which
  | cancel idle =>
    simp only [endsHolds, hrow, Option.all_some, decide_eq_true_eq] at hcond
    have hattached := hcond trivial idle x (Table.find?_eq_some.mp hx).1 hxr hreserved
    cases task with
    | createRun | execute => exact hdoes.elim
    | approve r t => exact absurd hdoes.1 (by simp)
    | cancel r t =>
      obtain ⟨hpast, rfl, rfl⟩ := hdoes
      exact ⟨_, rfl, rfl, hpast, rfl, hattached⟩

/-! ### Interleavings -/

/-- A cancellation that is about to release a reservation asks for nothing else. -/
theorem releasing_after {op : Op} {task : Task} {next : Except Error op.Answer → Program Run}
    (hsound : Sound pool) (found : pool.procs[i]? = some ⟨task, .call op next, true⟩)
    (h : Releasing pool r id) : (∃ key, op = .release id key) ∨
      Releasing ((runSystem policy service worker).after pool i drawn task op next) r id := by
  obtain ⟨j, t, run, htask, hpast, hcancelled, hhas⟩ := h
  have hj : j < pool.procs.length := by
    refine hsound.traced.2 (j, ⟨.runs (.markCancelRequested r t), .ok run⟩) (Pool.mem_past.mp ?_)
    rw [hpast]
    exact List.mem_cons_self
  by_cases hij : i = j
  · subst hij
    left
    have hdoes := hsound.does found
    rw [Pool.task_of_found found] at htask
    obtain rfl : task = .cancel r t := Option.some.inj htask
    rw [hpast] at hdoes
    cases op with
    | runs call => cases call <;> first | exact hdoes.elim | cases hdoes.1
    | release id' key =>
      obtain ⟨run', hsame, -, hhas'⟩ := hdoes
      obtain rfl : run = run' := by
        cases hsame
        rfl
      obtain rfl := Option.some.inj (hhas.symm.trans hhas')
      exact ⟨key, rfl⟩
    | _ => exact hdoes.elim
  · refine Or.inr ⟨j, t, run, ?_, ?_, hcancelled, hhas⟩
    · rw [(System.Acts.step drawn found).task_eq hj]
      exact htask
    · rw [System.past_after, if_neg hij]
      exact hpast

/-- A reservation that is held after an operation was held before, or was just made
for a run that has not ended. -/
theorem heldFor_before {op : Op} {x : ReservationRow} (hcond : endsHolds pool i op = true)
    (hx : HeldFor (RunWorld.exec lib policy drawn op pool.state).2 r x) :
    (∃ y, HeldFor pool.state r y ∧ y.reservationId = x.reservationId) ∨
      (RunWorld.exec lib policy drawn op pool.state).2.runs = pool.state.runs ∧
        ∀ row, pool.state.runs.runs.find? r = some row → row.state.terminal = false := by
  obtain ⟨hx, hxr, hreserved⟩ := hx
  cases hbefore : pool.state.ledger.reservations.find? x.reservationId with
  | some y =>
    obtain ⟨hrun, -, hheld⟩ :=
      (later_exec lib policy drawn op pool.state).ledger.reserved hbefore hx
    have hid := (Table.find?_eq_some.mp hbefore).2
    exact Or.inl ⟨y, ⟨hid.symm ▸ hbefore, hrun.symm.trans hxr, hheld hreserved⟩, hid⟩
  | none =>
    obtain ⟨t, a, r', u, k, rfl, hfresh, hnew⟩ := new_reservation_exec hbefore hx
    obtain rfl : r' = r := by rw [← hxr, hnew]; rfl
    refine Or.inr ⟨rfl, fun row hrow => ?_⟩
    simpa [endsHolds, hfresh, hrow] using hcond

/-- **Every action keeps what is known of a run's reservations**, if it meets the
condition. -/
theorem held_act {a : Action Task Drawn} (hwhen : pool.Meets endsHolds a) (hsound : Sound pool)
    (h : Held pool r) (hacts : System.Acts (runSystem policy service worker) pool a pool') :
    Held pool' r := by
  have hkept : ∀ id, Releasing pool r id → (∀ j, pool'.past j = pool.past j) →
      Releasing pool' r id := by
    rintro id ⟨j, t, run, htask, hpast, hrest⟩ hsame
    refine ⟨j, t, run, ?_, (hsame j).trans hpast, hrest⟩
    rw [hacts.task_eq, htask]
    refine hsound.traced.2 (j, ⟨.runs (.markCancelRequested r t), .ok run⟩) (Pool.mem_past.mp ?_)
    rw [hpast]
    exact List.mem_cons_self
  cases hacts with
  | start | stop =>
    exact ⟨h.named, h.keyed, h.attached, fun row x hrow hended hx =>
      hkept _ (h.ended row x hrow hended hx) fun _ => rfl⟩
  | idle => exact h
  | @step i drawn task op next found =>
    have hdoes := hsound.does found
    have hcond := hwhen.cond found
    refine ⟨named_exec h.named, h.keyed_exec hsound hdoes, h.attached_exec hsound hdoes, ?_⟩
    intro now x hnow hended hx
    change (RunWorld.exec worker.lib policy drawn op pool.state).2.runs.runs.find? r = _ at hnow
    -- the run has ended before, or it ends now
    have hwas : ∀ row, pool.state.runs.runs.find? r = some row → row.state.terminal = true →
        Releasing ((runSystem policy service worker).after pool i drawn task op next) r
          x.reservationId := by
      intro row hrow hended
      rcases heldFor_before hcond hx with ⟨y, hy, hid⟩ | ⟨-, hgoing⟩
      · have hreleasing : Releasing pool r x.reservationId := hid ▸ h.ended row y hrow hended hy
        have hy' : pool.state.ledger.reservations.find? x.reservationId = some y := hid ▸ hy.1
        rcases releasing_after hsound found hreleasing with ⟨key, rfl⟩ | hreleasing
        · have hreleased : x.status ≠ .reserved :=
            released_exec hy' (show (RunWorld.exec worker.lib policy drawn
              (.release x.reservationId key) pool.state).2.ledger.reservations.find? _ = _ from hx.1)
          exact absurd hx.2.2 hreleased
        · exact hreleasing
      · rw [hgoing row hrow] at hended
        cases hended
    rcases exec_runs worker.lib policy drawn op pool.state with hsame | ⟨call, rfl, hstep⟩
    · exact hwas now (hsame ▸ hnow) hended
    · rw [hstep] at hnow
      rcases RunStore.step_row hnow with hbefore | ⟨q, -, rfl, -⟩ | ⟨row, hrow, hupdate⟩
      · exact hwas now hbefore hended
      · cases hended
      · cases hgoing : row.state.terminal with
        | true => exact hwas row hrow hgoing
        | false =>
          -- no operation on the runs touches the ledger
          have hbefore : HeldFor pool.state r x := hx
          obtain ⟨t, rfl, rfl, hpast, hcancelled, hattached⟩ :=
            h.ends hsound hdoes hcond hrow hgoing hupdate hended hbefore
          have hanswer : (RunWorld.exec worker.lib policy drawn (.runs (.markCancelRequested r t))
            pool.state).1 = .ok now.toRun := answer_of_cancel hrow hgoing (hstep ▸ hnow) hended
          refine ⟨i, t, now.toRun, ?_, ?_, hcancelled,
            present_eq_some.mpr ⟨hattached, h.named _ x hbefore.1⟩⟩
          · rw [(System.Acts.step drawn found).task_eq (List.getElem?_eq_some_iff.mp found).1]
            exact Pool.task_of_found found
          · rw [System.past_after, if_pos rfl, hpast]
            exact congrArg (fun answer => [(⟨_, answer⟩ : Answered)]) hanswer

/-- **No leaked credit hold.**  In every pool that processes creating, approving,
cancelling and executing runs reach, where no reservation is made for a run that
has ended, no run is failed by a process that has settled nothing while a
reservation is held for it, and none is cancelled before its reservation is
attached: when every process has returned, a run that is completed, failed or
cancelled has no reservation that is still held. -/
theorem no_leaked_hold (policy : QuotaPolicy) (service : RunService) (worker : BoundedWorker)
    {w : RunWorld} (hw : Fresh w) {r : String}
    (hr : ∀ x ∈ w.ledger.reservations.rows, x.runId ≠ r) {actions : List (Action Task Drawn)}
    (h : Runs.Along (runSystem policy service worker).act (Pool.Meets endsHolds) (Pool.init w)
      actions)
    (hdone : (Runs.final (runSystem policy service worker).act (Pool.init w) actions).Returned) :
    ∀ row, (Runs.final (runSystem policy service worker).act (Pool.init w)
        actions).state.runs.runs.find? r = some row → row.state.terminal = true →
      ∀ x ∈ (Runs.final (runSystem policy service worker).act (Pool.init w)
        actions).state.ledger.reservations.rows, x.runId = r → x.status ≠ .reserved := by
  have hempty : Held (Pool.init w) r := by
    have hnone : ∀ row, w.runs.runs.find? r ≠ some row := by
      intro row hrow
      rw [hw.runs] at hrow
      cases hrow
    refine ⟨hw.named, ?_, fun row _ hrow => absurd hrow (hnone row),
      fun row _ hrow => absurd hrow (hnone row)⟩
    intro id x hx hxr
    exact absurd hxr (hr x (Table.find?_eq_some.mp hx).1)
  obtain ⟨hsound, hheld⟩ := run_invariant (J := fun pool => Held pool r) hw hempty
    (fun _ _ _ hwhen hsound _ hheld hacts => held_act hwhen hsound hheld hacts) h
  generalize Runs.final (runSystem policy service worker).act (Pool.init w) actions = pool
    at hsound hheld hdone
  intro row hrow hended x hx hxr hreserved
  obtain ⟨j, t, run, htask, hpast, hcancelled, hhas⟩ :=
    hheld.ended row x hrow hended ⟨Table.find?_of_mem hx, hxr, hreserved⟩
  -- the cancellation is not done before the release
  obtain ⟨p, hp, hptask⟩ := Option.map_eq_some_iff.mp htask
  obtain ⟨result, hresult⟩ := Prog.isDone_iff.mp (hdone p (List.mem_of_getElem? hp))
  have hends := hsound.traced.1 j p hp
  rw [hresult, hptask] at hends
  have hnone : present (Run.reservationId run) = none := hends run hpast hcancelled
  rw [hhas] at hnone
  cases hnone

/-- The sample run is cancelled when it is created and dispatched. -/
def cancelledRun : List (Action Task Drawn) :=
  Sample.createdRun ++ .start (.cancel "run-1" "tenant-1") :: Sample.steps 1 Sample.lastStep ["g", "h"]

theorem no_leaked_hold_cancelled :
    ((Sample.runPool cancelledRun).state.runs.runs.find? "run-1").map (·.state)
        = some .cancelled ∧
      ∀ x ∈ (Sample.runPool cancelledRun).state.ledger.reservations.rows, x.runId = "run-1" →
        x.status ≠ .reserved := by
  have hstate : ((Sample.runPool cancelledRun).state.runs.runs.find? "run-1").map (·.state)
      = some .cancelled := by decide +kernel
  obtain ⟨row, hrow, hcancelled⟩ := Option.map_eq_some_iff.mp hstate
  exact ⟨hstate, no_leaked_hold Sample.quotaPolicy Sample.runService Sample.boundedWorker
    Sample.fresh_runWorld (fun x hx => (by cases hx)) (by decide +kernel) (by decide +kernel) row hrow
    (by rw [hcancelled]; rfl)⟩

/-- The sample run is cancelled after its reservation is made and before it is
attached. -/
def leakedRun : List (Action Task Drawn) :=
  .start (.createRun "1" Sample.runRequest) :: Sample.steps 0 Sample.lastStep ["a", "b", "c"] ++
    .start (.cancel "run-1" "tenant-1") :: Sample.steps 1 Sample.lastStep ["d"] ++
    Sample.steps 0 Sample.lastStep ["e", "f", "g"]

/-- Both have returned, the run is cancelled, and its reservation is held. -/
theorem leakedRun_holds :
    (Sample.runPool leakedRun).Returned ∧
      ((Sample.runPool leakedRun).state.runs.runs.find? "run-1").map (·.state)
        = some .cancelled ∧
      (Sample.runPool leakedRun).state.ledger.reservations.rows.map (fun x => (x.runId, x.status))
        = [("run-1", .reserved)] := by
  exact ⟨by decide +kernel, by decide +kernel, by decide +kernel⟩

end AiSaas
