import AiSaas.AgentWorker.Facts

/-!
# A recorded cancellation

`cancel` asks a running run to stop by setting a flag, which the worker looks at
before every call of the model.  The worker's own transitions leave the flag alone;
`approve` clears it.

## Main definitions

* `RunRow.Stopped` — the flag is set, or the run is cancelled.
* `CancelKept` — the claim about a log: a look at a run after its cancellation was
  recorded is not followed by a model call.
* `keepsCancel` — the condition on an interleaving: no approval lands on a run that
  was asked to stop.

## Main results

* `stopped_update` — what one call preserves of a row.
* `cancel_kept` — the claim, for every interleaving that meets the condition.
-/

namespace AiSaas

open Relational Processes

/-! ### Entries of the log -/

/-- The run whose cancellation was recorded while it was running. -/
def recordsCancel : Answered → Option String
  | ⟨.runs (.markCancelRequested r _), .ok run⟩ =>
    if Run.state run = .running ∧ Run.cancelRequested run = true then some r else none
  | _ => none

/-- Once a run's cancellation is recorded, a process that looks at the run while it
has not come to an end calls the model no more. -/
def CancelKept (log : List (ℕ × Answered)) : Prop :=
  ∀ newer older i e r run, log = newer ++ (i, e) :: older → looksAt e = some (r, run) →
    (∃ x ∈ older, recordsCancel x.2 = some r) → run.state.terminal = false →
    ∀ x ∈ newer, x.1 = i → callsModel x.2 = false

/-! ### What calls preserve -/

/-- The run was asked to stop, or is cancelled. -/
def RunRow.Stopped (row : RunRow) : Prop := row.cancelRequested = true ∨ row.state = .cancelled

/-- **Only an approval forgets that a run was asked to stop.** -/
theorem stopped_update {env : Env} {row row' : RunRow} {call : RunStore.Call}
    (hupdate : RunStore.Update env row call row') (h : row.Stopped)
    (hkeeps : ∀ t, call = .approve row.runId t → .running ∈ row.state.transitions →
      row.cancelRequested = false) : row'.Stopped := by
  cases hupdate with
  | attach | reclaim | appendToken => exact h
  | claim queued => exact h.imp_right fun hcancelled => absurd (hcancelled.symm.trans queued) (by decide)
  | complete n running =>
    exact h.imp_right fun hcancelled => absurd (hcancelled.symm.trans running) (by decide)
  | move which allowed =>
    refine h.imp_right fun hcancelled => ?_
    rw [hcancelled] at allowed
    cases allowed
  | cancel => exact Or.inr rfl
  | askCancel => exact Or.inl rfl
  | approve allowed =>
    rcases h with hflag | hcancelled
    · rw [hkeeps _ rfl allowed] at hflag
      cases hflag
    · rw [hcancelled] at allowed
      cases allowed

/-- No approval lands on a run that was asked to stop. -/
def keepsCancel (pool : RunPool) (_ : ℕ) : Op → Bool
  | .runs (.approve r t) => (pool.state.runs.runs.find? r).all fun row =>
    decide (row.tenantId = t → .running ∈ row.state.transitions → row.cancelRequested = false)
  | _ => true

variable {lib : RunLibrary} {policy : QuotaPolicy} {service : RunService} {worker : BoundedWorker}
  {w : RunWorld} {pool : RunPool} {drawn : Drawn} {r : String} {i : ℕ}

/-- One operation keeps a stopped run stopped. -/
theorem stopped_exec {row : RunRow} {op : Op} (hrow : w.runs.runs.find? r = some row)
    (h : row.Stopped)
    (hkeeps : ∀ t, op = .runs (.approve r t) → row.tenantId = t →
      .running ∈ row.state.transitions → row.cancelRequested = false) :
    ∃ row', (RunWorld.exec lib policy drawn op w).2.runs.runs.find? r = some row' ∧
      row'.Stopped := by
  obtain ⟨row', hrow', -⟩ := (later_exec lib policy drawn op w).runs.runs r row hrow
  refine ⟨row', hrow', ?_⟩
  rcases exec_runs lib policy drawn op w with hsame | ⟨call, rfl, hstep⟩
  · rw [hsame, hrow] at hrow'
    exact Option.some.inj hrow' ▸ h
  · rw [hstep] at hrow'
    rcases RunStore.step_row hrow' with hbefore | ⟨q, -, -, hnone⟩ | ⟨before, hbefore, hupdate⟩
    · rw [hrow] at hbefore
      exact Option.some.inj hbefore ▸ h
    · rw [hrow] at hnone
      cases hnone
    · obtain rfl := Option.some.inj (hrow.symm.trans hbefore)
      have hid : row.runId = r := (Table.find?_eq_some.mp hrow).2
      refine stopped_update hupdate h fun t hcall hallowed => ?_
      subst hcall
      cases hupdate with
      | move which => cases which
      | approve => exact hkeeps _ (by rw [hid]) rfl hallowed

/-- A cancellation that is recorded stops the run. -/
theorem stopped_of_recordsCancel {op : Op}
    (h : recordsCancel ⟨op, (RunWorld.exec lib policy drawn op w).1⟩ = some r) :
    ∃ row, (RunWorld.exec lib policy drawn op w).2.runs.runs.find? r = some row ∧ row.Stopped := by
  cases op with
  | runs call =>
    cases call with
    | markCancelRequested r' t =>
      obtain ⟨run, db, hbody, hexec⟩ | ⟨e, -, hexec⟩ := Transaction.atomically_cases
        ((RunStore.Call.markCancelRequested r' t).body lib drawn.env) w.runs
      · simp only [RunWorld.exec, RunStore.perform, hexec, recordsCancel] at h ⊢
        split_ifs at h with hflag
        obtain rfl := Option.some.inj h
        obtain ⟨row, row', hrow, -, rfl, hcancel⟩ := RunStore.markCancelRequested_eq_ok hbody
        obtain ⟨-, rfl⟩ := Table.find?_eq_some.mp hrow
        refine ⟨row', ?_, Or.inl hflag.2⟩
        rcases hcancel with ⟨-, rfl, rfl⟩ | ⟨-, -, hmoves⟩ | ⟨-, -, hlogs, -⟩
        · exact hrow
        · exact (hmoves.logs.sets row.runId).trans (if_pos rfl)
        · exact (hlogs.sets row.runId).trans (if_pos rfl)
      · simp only [RunWorld.exec, RunStore.perform, hexec, recordsCancel] at h
        cases h
    | _ => cases h
  | _ => cases h

/-- A look at a run shows its row. -/
theorem row_of_looksAt {op : Op} {run : Run}
    (h : looksAt ⟨op, (RunWorld.exec lib policy drawn op w).1⟩ = some (r, run)) :
    ∃ row, w.runs.runs.find? r = some row ∧ run = row.toRun := by
  cases op with
  | runs call =>
    cases call with
    | get r' t =>
      cases t with
      | some t => cases h
      | none =>
        obtain ⟨run', db, hbody, hexec⟩ | ⟨e, -, hexec⟩ := Transaction.atomically_cases
          ((RunStore.Call.get r' none).body lib drawn.env) w.runs
        · simp only [RunWorld.exec, RunStore.perform, hexec, looksAt] at h
          obtain ⟨rfl, rfl⟩ := Prod.mk.inj (Option.some.inj h)
          obtain ⟨run'', hget, hbody⟩ := Transaction.bind_eq_ok.mp hbody
          obtain ⟨rfl, -⟩ := Prod.mk.inj (Except.ok.inj hbody)
          simp only [RunStore.get, Transaction.bind_eq_ok, RunStore.rowLocked_eq_ok] at hget
          obtain ⟨row, hrow, -, -, hget⟩ := hget
          exact ⟨row, hrow, (Except.ok.inj hget).symm⟩
        · simp only [RunWorld.exec, RunStore.perform, hexec, looksAt] at h
          cases h
    | _ => cases h
  | _ => cases h

/-- A process that calls the model has seen no cancellation. -/
theorem unasked_of_model {task : Task} {h : Past} {prompt key : String} {timeout : ℚ}
    (hdoes : task.Does h (.model prompt key timeout)) : Unasked h := by
  cases task with
  | execute r =>
    obtain ⟨run, id, -, hunasked, -⟩ := hdoes
    exact hunasked
  | approve r t => exact absurd hdoes.1 (by simp)
  | createRun | cancel => exact hdoes.elim

/-! ### Interleavings -/

/-- What an entry says of an earlier one. -/
def Heeds (later earlier : ℕ × Answered) : Prop :=
  (∀ r run, looksAt later.2 = some (r, run) → recordsCancel earlier.2 = some r →
      run.cancelRequested = true ∨ run.state = .cancelled) ∧
    (later.1 = earlier.1 → callsModel later.2 = true → seesCancel earlier.2 = false)

/-- **A recorded cancellation is never forgotten.**  In every pool that processes
creating, approving, cancelling and executing runs reach without approving one that
was asked to stop: a worker that looks at a run after its cancellation was recorded,
and before the run has come to an end, calls the model no more. -/
theorem cancel_kept (policy : QuotaPolicy) (service : RunService) (worker : BoundedWorker)
    {w : RunWorld} (hw : Fresh w) {actions : List (Action Task Drawn)}
    (h : Runs.Along (runSystem policy service worker).act (Pool.Meets keepsCancel) (Pool.init w)
      actions) :
    CancelKept (Runs.final (runSystem policy service worker).act (Pool.init w) actions).log := by
  have hkept := (run_invariant (J := fun pool => (∀ e ∈ pool.log, ∀ r, recordsCancel e.2 = some r →
      ∃ row, pool.state.runs.runs.find? r = some row ∧ row.Stopped) ∧ pool.log.Pairwise Heeds)
    hw ⟨fun e he => absurd he List.not_mem_nil, List.Pairwise.nil⟩ ?_ h).2.2
  · rintro newer older i e r run hlog hlooks ⟨x, hx, hrecords⟩ hgoing y hy hi
    rw [hlog, List.pairwise_append] at hkept
    obtain ⟨-, hold, hcross⟩ := hkept
    -- the look saw the flag, so the process that looked calls the model no more
    have hseen : seesCancel e = true := by
      rcases ((List.pairwise_cons.mp hold).1 x hx).1 r run hlooks hrecords with hflag | hcancelled
      · simp [seesCancel, hlooks, hflag]
      · rw [hcancelled] at hgoing
        cases hgoing
    by_contra hmodel
    have hunseen := (hcross y hy (i, e) List.mem_cons_self).2 hi (by simpa using hmodel)
    rw [hseen] at hunseen
    cases hunseen
  · rintro pool a pool' hwhen hsound - ⟨hstopped, hheeds⟩ hacts
    cases hacts with
    | start | stop | idle => exact ⟨hstopped, hheeds⟩
    | @step i drawn task op next found =>
      refine ⟨?_, List.pairwise_cons.mpr ⟨?_, hheeds⟩⟩
      · intro e he r hrecords
        rcases List.mem_cons.mp he with rfl | he
        · exact stopped_of_recordsCancel hrecords
        · obtain ⟨row, hrow, hrowStopped⟩ := hstopped e he r hrecords
          refine stopped_exec hrow hrowStopped ?_
          rintro t rfl htenant hallowed
          have hkeeps := hwhen.cond found
          simp only [keepsCancel, hrow, Option.all_some, decide_eq_true_eq] at hkeeps
          exact hkeeps htenant hallowed
      · intro e he
        refine ⟨?_, ?_⟩
        · intro r run hlooks hrecords
          obtain ⟨row, hrow, rfl⟩ := row_of_looksAt hlooks
          obtain ⟨row', hrow', hrowStopped⟩ := hstopped e he r hrecords
          rw [hrow] at hrow'
          exact Option.some.inj hrow' ▸ hrowStopped
        · intro hi hmodel
          cases op with
          | model prompt key timeout =>
            have hi' : i = e.1 := hi
            exact (unasked_of_model (hsound.does found) e.2 (Pool.mem_past.mpr (hi' ▸ he))).2
          | runs call => cases call <;> cases hmodel
          | _ => cases hmodel

/-- The sample run is asked to stop before its worker looks at it. -/
def stoppedRun : List (Action Task Drawn) :=
  Sample.createdRun ++ .start (.execute "run-1") :: Sample.steps 1 Sample.lastStep ["g", "h", "i"] ++
    .start (.cancel "run-1" "tenant-1") :: Sample.steps 2 Sample.lastStep ["j"] ++
    Sample.steps 1 Sample.lastStep ["k", "l", "m"]

theorem cancel_kept_stopped : CancelKept (Sample.runPool stoppedRun).log :=
  cancel_kept Sample.quotaPolicy Sample.runService Sample.boundedWorker Sample.fresh_runWorld
    (by decide +kernel)

/-- The sample run is asked to stop while its worker waits for an answer of the model
that asks for approval; it is approved, and executed again. -/
def approvedRun : List (Action Task Drawn) :=
  Sample.createdRun ++ .start (.execute "run-1") ::
      Sample.steps 1 Sample.askingStep ["g", "h", "i", "j", "k", "l", "m"] ++
    .start (.cancel "run-1" "tenant-1") :: Sample.steps 2 Sample.askingStep ["n"] ++
    Sample.steps 1 Sample.askingStep ["o", "p", "q", "r"] ++
    .start (.approve "run-1" "tenant-1") :: Sample.steps 3 Sample.askingStep ["s"] ++
    .start (.execute "run-1") ::
      Sample.steps 4 Sample.lastStep ["t", "u", "v", "w", "x", "y", "z", "aa"]

/-- The approval has cleared the flag: the worker looks at the run, which is still
running, and calls the model. -/
theorem approvedRun_forgotten : ¬ CancelKept (Sample.runPool approvedRun).log := by
  have hlooks : ((Sample.runPool approvedRun).log[4]?).bind (fun e =>
      (looksAt e.2).map fun seen => (e.1, seen.1, seen.2.state)) = some (4, "run-1", .running) := by
    decide +kernel
  have hmodel : ((Sample.runPool approvedRun).log.take 4).any
      (fun e => decide (e.1 = 4) && callsModel e.2) = true := by decide +kernel
  have hrecords : ((Sample.runPool approvedRun).log.drop 5).any
      (fun e => recordsCancel e.2 == some "run-1") = true := by decide +kernel
  intro hkept
  obtain ⟨⟨i, e⟩, hget, hseen⟩ := Option.bind_eq_some_iff.mp hlooks
  obtain ⟨⟨r, run⟩, hlooksAt, hseen⟩ := Option.map_eq_some_iff.mp hseen
  simp only [Prod.mk.injEq] at hseen
  obtain ⟨rfl, rfl, hrunning⟩ := hseen
  obtain ⟨hlt, hget⟩ := List.getElem?_eq_some_iff.mp hget
  have hsplit := List.take_append_drop 4 (Sample.runPool approvedRun).log
  rw [List.drop_eq_getElem_cons hlt, hget] at hsplit
  obtain ⟨x, hx, hrecord⟩ := List.any_eq_true.mp hrecords
  obtain ⟨y, hy, hcall⟩ := List.any_eq_true.mp hmodel
  rw [Bool.and_eq_true, decide_eq_true_eq] at hcall
  have hcalls := hkept _ _ _ e "run-1" run hsplit.symm hlooksAt
    ⟨x, hx, by simpa using hrecord⟩ (by rw [hrunning]; rfl) y hy hcall.1
  rw [hcall.2] at hcalls
  cases hcalls

end AiSaas
