import AiSaas.AgentWorker.Facts

/-!
# Approval

A step that asks for approval is saved, announced, and only then is its run moved
to `waiting_approval`.  The worker that saved it goes no further; what keeps others
from going on is the state of the run, which the pause reaches last.

## Main definitions

* `pending` — an approval was asked for, and not given since.
* `ApprovalKept` — the claim about a log: no model call and no completion while an
  approval is pending.
* `awaitsApproval` — the condition on an interleaving: an approval is asked for by
  name while no other worker is at work on the run, and none takes the run up before
  it waits.

## Main results

* `paused_act` — while an approval is pending, only the worker that asked for it is
  at work on the run.
* `approval_kept` — the claim, for every interleaving that meets the condition.
-/

namespace AiSaas

open Relational Transaction Processes

/-! ### Entries of the log -/

/-- A checkpoint of a run that has an approval id was saved. -/
def savesApproval (r : String) : Answered → Bool
  | ⟨.runs (.saveCheckpoint r' _ _ _ (some _) _), .ok _⟩ => decide (r' = r)
  | _ => false

/-- A run was approved. -/
def approves (r : String) : Answered → Bool
  | ⟨.runs (.approve r' _), .ok _⟩ => decide (r' = r)
  | _ => false

/-- A run was completed. -/
def completes (r : String) : Answered → Bool
  | ⟨.runs (.complete r' _), .ok _⟩ => decide (r' = r)
  | _ => false

/-- A run was claimed that may be worked on. -/
def claimsActive (r : String) : Answered → Bool
  | ⟨.runs (.claim r'), .ok run⟩ =>
    decide (r' = r ∧ (Run.state run = .queued ∨ Run.state run = .running))
  | _ => false

/-- In a log, newest first: an approval id was saved for a run, and the run was not
approved since. -/
def pending (r : String) : List (ℕ × Answered) → Bool
  | [] => false
  | (_, e) :: older => savesApproval r e || (!approves r e && pending r older)

/-- While an approval is pending, the workers of its run call no model, and nothing
completes the run. -/
def ApprovalKept (pool : RunPool) : Prop :=
  ∀ newer i e older r, pool.log = newer ++ (i, e) :: older →
    (callsModel e = true ∧ executes pool r i = true ∨ completes r e = true) →
      pending r older = false

variable {lib : RunLibrary} {policy : QuotaPolicy} {service : RunService} {worker : BoundedWorker}
  {w : RunWorld} {pool pool' : RunPool} {drawn : Drawn} {r : String} {i j : ℕ}

theorem pending_cons {e : Answered} {older : List (ℕ × Answered)}
    (h : pending r ((i, e) :: older) = true) : savesApproval r e = true ∨ pending r older = true := by
  simp only [pending, Bool.or_eq_true, Bool.and_eq_true] at h
  exact h.imp_right And.right

/-- A worker that calls the model or completes a run has claimed it, and has not
asked for approval. -/
theorem unasked_of_works {task : Task} {h : Past} {op : Op} {answer : Except Error op.Answer}
    (hdoes : task.Does h op)
    (hworks : callsModel ⟨op, answer⟩ = true ∧ task = .execute r ∨ completes r ⟨op, answer⟩ = true) :
    (∃ e ∈ h, claimsActive r e = true) ∧ Unasked h := by
  have hclaims : ∀ {r run id}, Holding h r run id → ∃ e ∈ h, claimsActive r e = true :=
    fun hholds => ⟨_, hholds.claimed, decide_eq_true ⟨rfl, hholds.active⟩⟩
  rcases hworks with ⟨hmodel, rfl⟩ | hcompletes
  · cases op with
    | model prompt key timeout =>
      obtain ⟨run, id, hholds, hunasked, -⟩ := hdoes
      exact ⟨hclaims hholds, hunasked⟩
    | runs call => cases call <;> cases hmodel
    | _ => cases hmodel
  · cases op with
    | runs call =>
      cases call with
      | complete r' u =>
        cases answer with
        | error e => cases hcompletes
        | ok run =>
          obtain rfl : r' = r := of_decide_eq_true hcompletes
          cases task with
          | createRun | cancel => exact hdoes.elim
          | approve r t => exact absurd hdoes.1 (by simp)
          | execute r =>
            obtain ⟨rfl, ⟨run, id, com, hholds, -⟩, hunasked⟩ := hdoes
            exact ⟨hclaims hholds, hunasked⟩
      | _ => cases hcompletes
    | _ => cases hcompletes

/-- A claim is active only of a run that is queued or running. -/
theorem active_of_claims {op : Op}
    (h : claimsActive r ⟨op, (RunWorld.exec lib policy drawn op w).1⟩ = true) :
    op = .runs (.claim r) ∧ ∃ row, w.runs.runs.find? r = some row ∧
      (row.state = .queued ∨ row.state = .running) := by
  cases op with
  | runs call =>
    cases call with
    | claim r' =>
      obtain ⟨run, db, hbody, hexec⟩ | ⟨e, -, hexec⟩ := atomically_cases
        ((RunStore.Call.claim r').body lib drawn.env) w.runs
      · simp only [RunWorld.exec, RunStore.perform, hexec, claimsActive, decide_eq_true_eq] at h
        obtain ⟨rfl, hactive⟩ := h
        obtain ⟨row, row', hrow, rfl, hclaim⟩ := RunStore.claim_eq_ok hbody
        refine ⟨rfl, row, hrow, ?_⟩
        rcases hclaim with ⟨-, -, rfl, -⟩ | ⟨hrunning, -⟩ | ⟨hqueued, -⟩
        · exact hactive
        · exact Or.inr hrunning
        · exact Or.inl hqueued
      · simp only [RunWorld.exec, RunStore.perform, hexec, claimsActive] at h
        cases h
    | _ => cases h
  | _ => cases h

/-! ### Workers at work -/

/-- A process is not done, and has claimed a run that may be worked on. -/
def working (pool : RunPool) (r : String) (j : ℕ) : Bool :=
  match pool.procs[j]? with
  | some ⟨_, .call _ _, true⟩ => (pool.past j).any (claimsActive r)
  | _ => false

theorem working_iff : working pool r j = true ↔
    (∃ task op next, pool.procs[j]? = some ⟨task, .call op next, true⟩) ∧
      ∃ e ∈ pool.past j, claimsActive r e = true := by
  unfold working
  split
  · next task op next found =>
    rw [List.any_eq_true]
    exact ⟨fun h => ⟨⟨task, op, next, found⟩, h⟩, And.right⟩
  · next hother =>
    constructor
    · intro h
      cases h
    · rintro ⟨⟨task, op, next, found⟩, -⟩
      exact absurd found (hother task op next)

/-- An approval is asked for by name while no other worker is at work on the run, and
no worker takes a run up whose approval is pending, unless the run waits for it. -/
def awaitsApproval (pool : RunPool) (i : ℕ) : Op → Bool
  | .runs (.claim r) => !pending r pool.log || (pool.state.runs.runs.find? r).all fun row =>
    decide (row.state ≠ .queued ∧ row.state ≠ .running)
  | .runs (.saveCheckpoint r _ _ _ (some approvalId) _) => decide (approvalId ≠ "") &&
    (List.range pool.procs.length).all fun j => decide (j = i) || !working pool r j
  | _ => true

/-- While an approval is pending, the worker at work has asked for it. -/
def Paused (pool : RunPool) : Prop :=
  ∀ r, pending r pool.log = true → ∀ j, working pool r j = true → ∃ e ∈ pool.past j, asksApproval e

/-- A worker that saves an approval id asks for approval by name, alone. -/
theorem asks_of_saves {op : Op} {answer : Except Error op.Answer}
    (hcond : awaitsApproval pool i op = true) (hsaves : savesApproval r ⟨op, answer⟩ = true) :
    asksApproval ⟨op, answer⟩ ∧ ∀ j, j ≠ i → working pool r j = false := by
  cases op with
  | runs call =>
    cases call with
    | saveCheckpoint r' step saved key approvalId usageUnits =>
      cases approvalId with
      | none => cases answer <;> cases hsaves
      | some approvalId =>
        cases answer with
        | error e => cases hsaves
        | ok checkpoint =>
          obtain rfl : r' = r := of_decide_eq_true hsaves
          simp only [awaitsApproval, Bool.and_eq_true, decide_eq_true_eq, List.all_eq_true,
            List.mem_range, Bool.or_eq_true, Bool.not_eq_true'] at hcond
          refine ⟨hcond.1, ?_⟩
          intro j hj
          by_cases hlt : j < pool.procs.length
          · exact (hcond.2 j hlt).resolve_left hj
          · rw [Bool.eq_false_iff]
            intro hworking
            obtain ⟨⟨task, op, next, found⟩, -⟩ := working_iff.mp hworking
            exact hlt (List.getElem?_eq_some_iff.mp found).1
    | _ => cases hsaves
  | _ => cases hsaves

/-- **Every action keeps the pause**, if it meets the condition. -/
theorem paused_act {a : Action Task Drawn} (hwhen : pool.Meets awaitsApproval a)
    (hsound : Sound pool) (hpaused : Paused pool)
    (hacts : System.Acts (runSystem policy service worker) pool a pool') : Paused pool' := by
  cases hacts with
  | start task =>
    intro r hpending j hworking
    obtain ⟨⟨task', op, next, found⟩, e, he, hclaims⟩ := working_iff.mp hworking
    have he' : e ∈ pool.past j := he
    rw [List.getElem?_append_left (hsound.traced.2 _ (Pool.mem_past.mp he'))] at found
    exact hpaused r hpending j (working_iff.mpr ⟨⟨task', op, next, found⟩, e, he', hclaims⟩)
  | stop k =>
    intro r hpending j hworking
    obtain ⟨⟨task, op, next, found⟩, hclaims⟩ := working_iff.mp hworking
    refine hpaused r hpending j (working_iff.mpr ⟨?_, hclaims⟩)
    rw [List.getElem?_modify] at found
    by_cases hjk : k = j
    · simp [hjk] at found
    · refine ⟨task, op, next, ?_⟩
      simpa [hjk] using found
  | idle => exact hpaused
  | @step i drawn task op next found =>
    have hcond := hwhen.cond found
    intro r hpending j hworking
    obtain ⟨⟨task', op', next', found'⟩, e, he, hclaims⟩ := working_iff.mp hworking
    rw [System.past_after] at he ⊢
    by_cases hij : i = j
    · subst hij
      rw [if_pos rfl] at he ⊢
      rcases pending_cons hpending with hsaves | hbefore
      · exact ⟨_, List.mem_cons_self, (asks_of_saves hcond hsaves).1⟩
      · rcases List.mem_cons.mp he with rfl | he
        · -- the run is claimed while its approval is pending
          obtain ⟨rfl, row, hrow, hactive⟩ := active_of_claims hclaims
          simp only [awaitsApproval, hbefore, Bool.not_true, Bool.false_or, hrow, Option.all_some,
            decide_eq_true_eq] at hcond
          exact absurd hactive (not_or.mpr hcond)
        · obtain ⟨x, hx, hasks⟩ := hpaused r hbefore i
            (working_iff.mpr ⟨⟨task, op, next, found⟩, e, he, hclaims⟩)
          exact ⟨x, List.mem_cons_of_mem _ hx, hasks⟩
    · rw [if_neg hij] at he ⊢
      have found'' : pool.procs[j]? = some ⟨task', .call op' next', true⟩ := by
        rw [← found']
        exact (List.getElem?_set_ne hij).symm
      have hbefore := working_iff.mpr ⟨⟨task', op', next', found''⟩, e, he, hclaims⟩
      rcases pending_cons hpending with hsaves | hpending
      · rw [(asks_of_saves hcond hsaves).2 j (Ne.symm hij)] at hbefore
        cases hbefore
      · exact hpaused r hpending j hbefore

/-! ### Interleavings -/

/-- **One more entry keeps the claim.** -/
theorem approvalKept_act {a : Action Task Drawn} (hsound : Sound pool) (hpaused : Paused pool)
    (hkept : ApprovalKept pool)
    (hacts : System.Acts (runSystem policy service worker) pool a pool') : ApprovalKept pool' := by
  have hsame : ∀ i e, (i, e) ∈ pool.log → ∀ r, executes pool' r i = executes pool r i := by
    intro i e he r
    simp only [executes, hacts.task_eq (hsound.traced.2 _ he)]
  have hold : ∀ newer i e older r, pool.log = newer ++ (i, e) :: older →
      (callsModel e = true ∧ executes pool' r i = true ∨ completes r e = true) →
        pending r older = false := by
    intro newer i e older r hlog hworks
    rw [hsame i e (hlog ▸ List.mem_append_right _ List.mem_cons_self)] at hworks
    exact hkept newer i e older r hlog hworks
  cases hacts with
  | start | stop | idle => exact hold
  | @step i drawn task op next found =>
    intro newer j e older r hlog hworks
    cases newer with
    | cons x newer => exact hold newer j e older r (List.cons.inj hlog).2 hworks
    | nil =>
      obtain ⟨hentry, rfl⟩ := List.cons.inj hlog
      obtain ⟨rfl, rfl⟩ := Prod.mk.inj hentry
      have htask : executes ((runSystem policy service worker).after pool i drawn task op next) r i
          = true → task = .execute r := by
        intro hexec
        have htask := executes_iff.mp hexec
        rw [(System.Acts.step drawn found).task_eq (List.getElem?_eq_some_iff.mp found).1,
          Pool.task_of_found found] at htask
        exact Option.some.inj htask
      obtain ⟨hclaims, hunasked⟩ := unasked_of_works (hsound.does found)
        (hworks.imp_left fun h => ⟨h.1, htask h.2⟩)
      rw [Bool.eq_false_iff]
      intro hpending
      obtain ⟨x, hx, hasks⟩ := hpaused r hpending i
        (working_iff.mpr ⟨⟨task, op, next, found⟩, hclaims⟩)
      exact (hunasked x hx).1 hasks

/-- **Approval cannot be bypassed.**  In every pool that processes creating,
approving, cancelling and executing runs reach, where an approval is asked for by
name and alone, and no worker takes the run up before it waits: after a checkpoint
with an approval id was saved for a run, its workers call no model and the run is
not completed, until the run is approved. -/
theorem approval_kept (policy : QuotaPolicy) (service : RunService) (worker : BoundedWorker)
    {w : RunWorld} (hw : Fresh w) {actions : List (Action Task Drawn)}
    (h : Runs.Along (runSystem policy service worker).act (Pool.Meets awaitsApproval) (Pool.init w)
      actions) :
    ApprovalKept (Runs.final (runSystem policy service worker).act (Pool.init w) actions) := by
  have hempty : Paused (Pool.init w) ∧ ApprovalKept (Pool.init w) := by
    refine ⟨fun r hpending => (by cases hpending), ?_⟩
    intro newer i e older r hlog
    simp [Pool.init] at hlog
  refine (run_invariant (J := fun pool => Paused pool ∧ ApprovalKept pool) hw hempty ?_ h).2.2
  rintro pool a pool' hwhen hsound - ⟨hpaused, hkept⟩ hacts
  exact ⟨paused_act hwhen hsound hpaused hacts, approvalKept_act hsound hpaused hkept hacts⟩

/-- The sample run asks for approval, waits, is approved, and comes to its end. -/
def grantedRun : List (Action Task Drawn) :=
  Sample.createdRun ++ .start (.execute "run-1") ::
      Sample.steps 1 Sample.askingStep ["g", "h", "i", "j", "k", "l", "m", "n", "o", "p", "q"] ++
    .start (.approve "run-1" "tenant-1") :: Sample.steps 2 Sample.askingStep ["r"] ++
    .start (.execute "run-1") :: Sample.steps 3 Sample.lastStep
      ["s", "t", "u", "v", "w", "x", "y", "z", "aa", "bb", "cc", "dd", "ee"]

theorem approval_kept_granted : ApprovalKept (Sample.runPool grantedRun) :=
  approval_kept Sample.quotaPolicy Sample.runService Sample.boundedWorker Sample.fresh_runWorld
    (by decide +kernel)

/-- The sample run's worker is stopped when it has saved that it asks for approval,
and the run is executed again. -/
def bypassedRun : List (Action Task Drawn) :=
  Sample.createdRun ++ .start (.execute "run-1") ::
      Sample.steps 1 Sample.askingStep ["g", "h", "i", "j", "k", "l", "m", "n", "o"] ++
    .stop 1 :: .start (.execute "run-1") :: Sample.steps 2 Sample.lastStep
      ["p", "q", "r", "s", "t", "u", "v", "w"]

/-- The last entry is a model call by a worker of the run, whose approval is pending. -/
theorem bypassedRun_calls : ¬ ApprovalKept (Sample.runPool bypassedRun) := by
  have hcalls : ((Sample.runPool bypassedRun).log.head?).map (fun e =>
      (callsModel e.2, executes (Sample.runPool bypassedRun) "run-1" e.1)) = some (true, true) := by
    decide +kernel
  have hpending : pending "run-1" (Sample.runPool bypassedRun).log.tail = true := by
    decide +kernel
  intro hkept
  obtain ⟨⟨i, e⟩, hhead, hworks⟩ := Option.map_eq_some_iff.mp hcalls
  simp only [Prod.mk.injEq] at hworks
  obtain ⟨older, hlog⟩ := List.head?_eq_some_iff.mp hhead
  have hnot := hkept [] i e older "run-1" hlog (Or.inl hworks)
  rw [hlog, List.tail_cons, hnot] at hpending
  cases hpending

end AiSaas
