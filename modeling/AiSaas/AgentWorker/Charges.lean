import AiSaas.AgentWorker.Facts

/-!
# What a run is charged

A reservation is debited by at most one ledger row.  A worker completes a run only
after its own commit of the units it reports went through, so the row of a
completed run's reservation shows the usage of the run's result.

## Main definitions

* `Charged` — every completed run's result stands in the ledger.

## Main results

* `charged_runs` — what one call of the run store preserves.
* `charged_once` — every interleaving charges a run at most once, and a completed
  run exactly what it reports.
-/

namespace AiSaas

open Relational Processes

/-- The result of a completed run stands in the ledger, under its reservation. -/
def Charged (w : RunWorld) : Prop :=
  ∀ r row, w.runs.runs.find? r = some row → row.state = .completed →
    ∃ id u e, row.reservationId = some id ∧ row.result = [("usage_units", .int u)] ∧
      e ∈ w.ledger.runLedger.rows ∧ e.reservationId = id ∧ e.amount = -u

variable {lib : RunLibrary} {policy : QuotaPolicy} {service : RunService} {worker : BoundedWorker}
  {pool : RunPool} {drawn : Drawn} {i : ℕ}

theorem Charged.mono {w w' : RunWorld} (h : Charged w) (hruns : w'.runs = w.runs)
    (hlater : w.Later w') : Charged w' := by
  intro r row hrow hcompleted
  obtain ⟨id, u, e, hid, hresult, he, hentry⟩ := h r row (hruns ▸ hrow) hcompleted
  exact ⟨id, u, e, hid, hresult, hlater.ledger.runLedger.subset he, hentry⟩

/-- A worker that completes a run has a ledger row for what it reports. -/
theorem entry_of_complete (hsound : Sound pool) {task : Task} {r : String} {u : ℤ} {row : RunRow}
    (hdoes : task.Does (pool.past i) (.runs (.complete r u)))
    (hrow : pool.state.runs.runs.find? r = some row) :
    ∃ id e, row.reservationId = some id ∧ e ∈ pool.state.ledger.runLedger.rows ∧
      e.reservationId = id ∧ e.amount = -u := by
  cases task with
  | createRun | cancel => exact hdoes.elim
  | approve r t => exact absurd hdoes.1 (by simp)
  | execute r' =>
    obtain ⟨rfl, ⟨run, id, com, hholds, hcommit⟩, -⟩ := hdoes
    obtain ⟨⟨before, now, rfl, hnow, hgoes⟩, hid⟩ := hsound.past hholds.claimed
    obtain ⟨-, -, e, he, hres, hamount⟩ := hsound.past hcommit
    rw [hid] at hnow
    obtain rfl := Option.some.inj (hnow.symm.trans hrow)
    exact ⟨id, e, hgoes.reservation id (present_eq_some.mp hholds.reservation).1,
      (Table.findBy?_eq_some.mp he).1, hres, hamount⟩

/-- **One call of the run store keeps every completed run charged.** -/
theorem charged_runs (hsound : Sound pool) {task : Task} {call : RunStore.Call}
    (hdoes : task.Does (pool.past i) (.runs call)) (h : Charged pool.state) :
    Charged { pool.state with runs := RunStore.step lib pool.state.runs (drawn.env, call) } := by
  intro r now hnow hcompleted
  rcases RunStore.step_row hnow with hbefore | ⟨q, -, rfl, -⟩ | ⟨row, hrow, hupdate⟩
  · exact h r now hbefore hcompleted
  · cases hcompleted
  · have hrid : row.runId = r := (Table.find?_eq_some.mp hrow).2
    cases hupdate with
    | attach id allowed =>
      obtain ⟨id', u, e, hid, hrest⟩ := h r row hrow hcompleted
      -- the reservation attached is the one the run has
      have hsame : id' = id := by
        rcases allowed with hnone | hsome
        · rw [hnone] at hid
          cases hid
        · exact Option.some.inj (hid.symm.trans hsome)
      exact ⟨id', u, e, congrArg some hsame.symm, hrest⟩
    | reclaim running => rw [running] at hcompleted; cases hcompleted
    | claim => cases hcompleted
    | move which allowed => exact absurd hcompleted (Task.move_of_does hdoes which).2.2
    | cancel => cases hcompleted
    | askCancel busy =>
      rcases busy with hs | hs
      · rw [hs] at hcompleted
        cases hcompleted
      · rw [hs] at hcompleted
        cases hcompleted
    | approve => cases hcompleted
    | appendToken text => exact h r row hrow hcompleted
    | complete n running =>
      subst hrid
      obtain ⟨id, e, hid, he⟩ := entry_of_complete hsound hdoes hrow
      exact ⟨id, n, e, hid, rfl, he⟩

/-- A settled ledger debits a reservation by one row, within its units. -/
theorem entriesOf_of_mem {db : Database} {id : String} {e : RunLedgerRow}
    (h : CreditLedger.Settled db) (he : e ∈ CreditLedger.entriesOf db id) :
    CreditLedger.entriesOf db id = [e] ∧ ∃ res, db.reservations.find? id = some res ∧
      0 ≤ -e.amount ∧ -e.amount ≤ res.units := by
  obtain ⟨hmem, hid⟩ := List.mem_filter.mp he
  obtain ⟨res, hres⟩ := h.known e hmem
  rw [of_decide_eq_true hid] at hres
  obtain ⟨hcommitted, hother⟩ := h.charges id res hres
  by_cases hs : res.status = .committed
  · obtain ⟨e', he', hnonneg, hle⟩ := hcommitted hs
    obtain rfl : e = e' := List.mem_singleton.mp (he' ▸ he)
    exact ⟨he', res, hres, hnonneg, hle⟩
  · rw [hother hs] at he
    cases he

/-- **A run is charged at most once, and exactly what it reports.**  In every pool
of processes that create, approve, cancel and execute runs, in any order, stopped
anywhere and with any answers of the model: a run's reservation is debited by at
most one ledger row, of at most its units, and that of a completed run by exactly
one, of the usage its result reports. -/
theorem charged_once (policy : QuotaPolicy) (service : RunService) (worker : BoundedWorker)
    {w : RunWorld} (hw : Fresh w) (actions : List (Action Task Drawn)) :
    ∀ r row, (Runs.final (runSystem policy service worker).act (Pool.init w)
        actions).state.runs.runs.find? r = some row →
      let ledger := (Runs.final (runSystem policy service worker).act (Pool.init w)
        actions).state.ledger
      (∀ id, row.reservationId = some id → (CreditLedger.entriesOf ledger id).length ≤ 1 ∧
          ∀ e ∈ CreditLedger.entriesOf ledger id, ∃ res, ledger.reservations.find? id = some res ∧
            0 ≤ -e.amount ∧ -e.amount ≤ res.units) ∧
        (row.state = .completed → ∃ id u e, row.reservationId = some id ∧
          row.result = [("usage_units", .int u)] ∧ CreditLedger.entriesOf ledger id = [e] ∧
          e.amount = -u) := by
  have hempty : Charged w := by
    intro r row hrow
    rw [hw.runs] at hrow
    cases hrow
  have hstep : ∀ (pool : RunPool) a pool', True → Sound pool → Sound pool' → Charged pool.state →
      System.Acts (runSystem policy service worker) pool a pool' → Charged pool'.state := by
    intro pool a pool' _ hsound _ hcharged hacts
    cases hacts with
    | start | stop | idle => exact hcharged
    | @step i drawn task op next found =>
      cases op with
      | runs call => exact charged_runs hsound (hsound.does found) hcharged
      | _ => exact hcharged.mono rfl (later_exec worker.lib policy drawn _ pool.state)
  obtain ⟨hsound, hcharged⟩ := run_invariant (J := fun pool => Charged pool.state) hw hempty hstep
    (Runs.along_of_forall (fun _ _ => trivial) (Pool.init w) actions)
  intro r row hrow
  refine ⟨?_, ?_⟩
  · intro id _
    refine ⟨?_, fun e he => (entriesOf_of_mem hsound.settled he).2⟩
    cases hentries : CreditLedger.entriesOf (Runs.final (runSystem policy service worker).act
        (Pool.init w) actions).state.ledger id with
    | nil => exact Nat.zero_le 1
    | cons e l =>
      have he : e ∈ CreditLedger.entriesOf _ id := hentries ▸ List.mem_cons_self
      rw [← hentries, (entriesOf_of_mem hsound.settled he).1]
      exact le_rfl
  · intro hcompleted
    obtain ⟨id, u, e, hid, hresult, he, hres, hamount⟩ := hcharged r row hrow hcompleted
    have hmem : e ∈ CreditLedger.entriesOf _ id :=
      List.mem_filter.mpr ⟨he, decide_eq_true hres⟩
    exact ⟨id, u, e, hid, hresult, (entriesOf_of_mem hsound.settled hmem).1, hamount⟩

/-- The sample run, executed to its end in one step of two units. -/
def executedRun : List (Action Task Drawn) :=
  Sample.createdRun ++ .start (.execute "run-1") :: Sample.steps 1 Sample.lastStep
    ["g", "h", "i", "j", "k", "l", "m", "n", "o", "p", "q", "r", "s"]

theorem charged_once_executed : ∃ row,
    (Sample.runPool executedRun).state.runs.runs.find? "run-1" = some row ∧
      ∃ id u e, row.reservationId = some id ∧ row.result = [("usage_units", .int u)] ∧
        CreditLedger.entriesOf (Sample.runPool executedRun).state.ledger id = [e] ∧
        e.amount = -u := by
  have hstate : ((Sample.runPool executedRun).state.runs.runs.find? "run-1").map (·.state)
      = some .completed := by decide +kernel
  obtain ⟨row, hrow, hcompleted⟩ := Option.map_eq_some_iff.mp hstate
  exact ⟨row, hrow, (charged_once Sample.quotaPolicy Sample.runService Sample.boundedWorker
    Sample.fresh_runWorld executedRun "run-1" row hrow).2 hcompleted⟩

end AiSaas
