import AiSaas.AgentWorker.Facts
import Mathlib.Data.Finset.Card
import Mathlib.Data.Finset.Image

/-!
# The model calls of a run

The checkpoint of a run numbers its steps, and the key of a model call is made
from the step.  `max_steps` is compared with that number; `max_model_calls` is
compared with a count that starts again whenever a worker takes the run up.

## Main definitions

* `modelCalls`, `callsOf` — the model calls of a log, of one run.
* `WithinLimits` — the claim about the calls of one run.
* `freshCount` — the condition on an interleaving: a worker that takes up a run
  past its first step has as many calls as steps.

## Main results

* `numbered_step` — what one call preserves of the checkpoints.
* `Counted`, `counted_act` — the invariant, and that every action keeps it.
* `model_calls_bounded` — the bound, for every interleaving that meets the condition.
-/

namespace AiSaas

open Relational Transaction Processes

/-! ### The calls of a log -/

/-- A model call: the process that made it, the step of the checkpoint it saved
last, and the key. -/
structure ModelCall where
  process : ℕ
  step : ℤ
  key : String

/-- What one process has done, in a log. -/
def pastIn (log : List (ℕ × Answered)) (i : ℕ) : Past :=
  (log.filter fun entry => decide (entry.1 = i)).map Prod.snd

/-- A run that was created, and its request. -/
def createdBy : Answered → Option (RunCreate × Run)
  | ⟨.runs (.create _ request), .ok (run, true)⟩ => some (request, run)
  | _ => none

/-- The model calls of a log, newest first. -/
def modelCalls : List (ℕ × Answered) → List ModelCall
  | [] => []
  | (i, ⟨.model _ key _, _⟩) :: older =>
    ⟨i, (lastSaved (pastIn older i)).elim 0 Prod.fst, key⟩ :: modelCalls older
  | _ :: older => modelCalls older

/-- The model calls of a run's workers. -/
def callsOf (pool : RunPool) (r : String) : List ModelCall :=
  (modelCalls pool.log).filter fun c => executes pool r c.process

/-- Calls within the limits of a request: no more keys than steps and than calls,
and one key for a step. -/
def WithinLimits (calls : List ModelCall) (maxSteps maxModelCalls : ℤ) : Prop :=
  ((calls.map ModelCall.key).toFinset.card : ℤ) ≤ min maxSteps maxModelCalls ∧
    ∀ c ∈ calls, ∀ c' ∈ calls, c.step = c'.step → c.key = c'.key

/-- The calls after one more entry. -/
theorem mem_modelCalls_cons {i : ℕ} {e : Answered} {older : List (ℕ × Answered)} {c : ModelCall}
    (h : c ∈ modelCalls ((i, e) :: older)) : c ∈ modelCalls older ∨
      ∃ prompt key timeout answer, e = ⟨.model prompt key timeout, answer⟩ ∧
        c = ⟨i, (lastSaved (pastIn older i)).elim 0 Prod.fst, key⟩ := by
  obtain ⟨op, answer⟩ := e
  cases op with
  | model prompt key timeout =>
    rcases List.mem_cons.mp h with rfl | h
    · exact Or.inr ⟨prompt, key, timeout, answer, rfl, rfl⟩
    · exact Or.inl h
  | _ => exact Or.inl h

/-- **Calls with the keys of the first steps.**  If every call has the key of its
step, and the step is one of the first `n`, there are at most `n` keys. -/
theorem withinLimits_of_steps {r : String} {calls : List ModelCall} {maxSteps maxModelCalls : ℤ}
    (hmin : 0 ≤ min maxSteps maxModelCalls)
    (h : ∀ c ∈ calls, c.key = BoundedWorker.modelKey r c.step ∧ 0 ≤ c.step ∧
      c.step < min maxSteps maxModelCalls) : WithinLimits calls maxSteps maxModelCalls := by
  constructor
  · have hsub : (calls.map ModelCall.key).toFinset ⊆
        (Finset.range (min maxSteps maxModelCalls).toNat).image fun n : ℕ =>
          BoundedWorker.modelKey r n := by
      intro key hkey
      obtain ⟨c, hc, rfl⟩ := List.mem_map.mp (List.mem_toFinset.mp hkey)
      obtain ⟨hkey, hpos, hlt⟩ := h c hc
      refine Finset.mem_image.mpr ⟨c.step.toNat, Finset.mem_range.mpr (by omega), ?_⟩
      rw [hkey, Int.toNat_of_nonneg hpos]
    have hcard := (Finset.card_le_card hsub).trans Finset.card_image_le
    rw [Finset.card_range] at hcard
    omega
  · intro c hc c' hc' hstep
    rw [(h c hc).1, (h c' hc').1, hstep]

/-! ### What checkpoints hold -/

/-- A checkpoint whose key, where it has one, is the key of its step. -/
def Numbered (r : String) (checkpoint : Checkpoint) : Prop :=
  0 ≤ checkpoint.step ∧ (checkpoint.inflightKey = none ∨
    checkpoint.inflightKey = some (BoundedWorker.modelKey r checkpoint.step))

/-- What an answer is by itself: a checkpoint is numbered, and a created run has
the limits of its request. -/
def Regular : Answered → Prop
  | ⟨.runs (.checkpoint r), .ok (some checkpoint)⟩ => Numbered r checkpoint
  | ⟨.runs (.create _ request), .ok (run, true)⟩ =>
    Run.maxSteps run = RunCreate.maxSteps request ∧
      Run.maxModelCalls run = RunCreate.maxModelCalls request
  | _ => True

theorem limits_of_createdBy {e : Answered} {request : RunCreate} {run : Run} (h : Regular e)
    (hcreated : createdBy e = some (request, run)) :
    run.maxSteps = request.maxSteps ∧ run.maxModelCalls = request.maxModelCalls := by
  unfold createdBy at hcreated
  split at hcreated
  · obtain ⟨rfl, rfl⟩ := Prod.mk.inj (Option.some.inj hcreated)
    exact h
  · cases hcreated

variable {lib : RunLibrary} {policy : QuotaPolicy} {service : RunService} {worker : BoundedWorker}
  {w : RunWorld} {pool pool' : RunPool} {drawn : Drawn} {r : String} {i : ℕ}

/-- The key of a turn is the key of its step. -/
theorem inflightKey_eq {s : LoopState} (h : ∀ c, s.checkpoint = some c → Numbered r c) :
    BoundedWorker.inflightKey r s = BoundedWorker.modelKey r s.step := by
  unfold BoundedWorker.inflightKey
  cases hc : s.checkpoint with
  | none => rfl
  | some c =>
    change (if c.step = s.step then _ else _) = _
    split_ifs with hstep
    · cases hkey : present c.inflightKey with
      | none => rfl
      | some key =>
        obtain ⟨hkey, -⟩ := present_eq_some.mp hkey
        rcases (h c hc).2 with hnone | hsome
        · rw [hkey] at hnone
          cases hnone
        · rw [hkey, hstep] at hsome
          exact Option.some.inj hsome
    · rfl

theorem numbered_of_read {h : Past} {checkpoint : Option Checkpoint} {c : Checkpoint}
    (hregular : ∀ e ∈ h, Regular e) (hread : BoundedWorker.Read h r checkpoint)
    (hc : checkpoint = some c) : Numbered r c := by
  subst hc
  exact hregular _ hread

/-- The step of a checkpoint that was read, or zero, is no negative number. -/
theorem start_nonneg {h : Past} {first : Option Checkpoint} (hregular : ∀ e ∈ h, Regular e)
    (hread : BoundedWorker.Read h r first) : 0 ≤ first.elim 0 (·.step) := by
  cases hfirst : first with
  | none => exact le_rfl
  | some c => exact (numbered_of_read hregular hread hfirst).1

/-- A process of the run services has read the checkpoints its steps come from. -/
theorem numbered_of_save {task : Task} {h : Past} {step usageUnits : ℤ}
    {saved : List (String × Json)} {inflightKey approvalId : Option String}
    (hregular : ∀ e ∈ h, Regular e)
    (hdoes : task.Does h (.runs (.saveCheckpoint r step saved inflightKey approvalId usageUnits))) :
    0 ≤ step ∧ (inflightKey = none ∨ inflightKey = some (BoundedWorker.modelKey r step)) := by
  cases task with
  | createRun | cancel => exact hdoes.elim
  | approve r t => exact absurd hdoes.1 (by simp)
  | execute r' =>
    obtain ⟨rfl, -, ⟨first, hfirst, hle⟩, hkey⟩ := hdoes
    refine ⟨(start_nonneg hregular hfirst).trans hle, hkey.imp_right ?_⟩
    rintro ⟨s, rfl, hread, rfl⟩
    rw [inflightKey_eq fun _ => numbered_of_read hregular hread]

/-- **One operation keeps the checkpoints numbered.** -/
theorem numbered_exec {op : Op}
    (h : ∀ r c, w.runs.runCheckpoints.find? r = some c → Numbered r c.toCheckpoint)
    (hsave : ∀ r step saved inflightKey approvalId usageUnits,
      op = .runs (.saveCheckpoint r step saved inflightKey approvalId usageUnits) →
        0 ≤ step ∧ (inflightKey = none ∨ inflightKey = some (BoundedWorker.modelKey r step))) :
    ∀ r c, (RunWorld.exec lib policy drawn op w).2.runs.runCheckpoints.find? r = some c →
      Numbered r c.toCheckpoint := by
  intro r c hc
  rcases exec_runs lib policy drawn op w with hsame | ⟨call, rfl, hstep⟩
  · exact h r c (hsame ▸ hc)
  · rw [hstep] at hc
    rcases RunStore.step_checkpoint hc with hbefore |
      ⟨step, saved, key, approvalId, usageUnits, rfl, rfl⟩ | ⟨text, before, rfl, hbefore, rfl⟩
    · exact h r c hbefore
    · exact hsave _ _ _ _ _ _ rfl
    · exact h r before hbefore

/-- An answer is regular, if the checkpoints are numbered. -/
theorem regular_exec {op : Op}
    (h : ∀ r c, w.runs.runCheckpoints.find? r = some c → Numbered r c.toCheckpoint) :
    Regular ⟨op, (RunWorld.exec lib policy drawn op w).1⟩ := by
  cases op with
  | runs call =>
    cases call with
    | checkpoint r =>
      change Regular ⟨.runs (.checkpoint r), .ok (RunStore.checkpoint r w.runs)⟩
      cases hc : RunStore.checkpoint r w.runs with
      | none => trivial
      | some checkpoint =>
        obtain ⟨c, hfound, rfl⟩ := Option.map_eq_some_iff.mp hc
        exact h r c hfound
    | create r q =>
      obtain ⟨⟨run, created⟩, db, hbody, hexec⟩ | ⟨e, -, hexec⟩ := atomically_cases
        ((RunStore.Call.create r q).body lib drawn.env) w.runs
      · simp only [RunWorld.exec, RunStore.perform, hexec]
        obtain ⟨-, -, -, -, rfl, -⟩ | ⟨-, -, -, -, -, rfl, rfl, -⟩ := RunStore.create_eq_ok hbody
        · trivial
        · exact ⟨rfl, rfl⟩
      · simp only [RunWorld.exec, RunStore.perform, hexec]
        trivial
    | _ => trivial
  | _ => trivial

theorem known_of_createdBy {e : Answered} {request : RunCreate} {run : Run} (h : Tells w e)
    (hcreated : createdBy e = some (request, run)) : Known w run := by
  unfold createdBy at hcreated
  split at hcreated
  · obtain ⟨rfl, rfl⟩ := Prod.mk.inj (Option.some.inj hcreated)
    exact h.1
  · cases hcreated

/-! ### Interleavings -/

/-- The first checkpoint a worker reads is unfinished. -/
def Unfinished (first : Option Checkpoint) : Prop :=
  (first.elim false fun c => BoundedWorker.isTrue c "done") = false

/-- A worker that takes up an unfinished checkpoint past its run's first step finds
a run that may call the model as often as it has steps. -/
def freshCount (pool : RunPool) (i : ℕ) : Op → Bool
  | .runs (.checkpoint r) => (firstRead (pool.past i)).isSome ||
    (RunStore.checkpoint r pool.state.runs).all (fun c =>
      BoundedWorker.isTrue c "done" || decide (c.step ≤ 0)) ||
    (pool.state.runs.runs.find? r).all fun row => decide (row.maxSteps ≤ row.maxModelCalls)
  | _ => true

/-- What the calls of a pool were made with. -/
structure Counted (pool : RunPool) : Prop where
  stored : ∀ r c, pool.state.runs.runCheckpoints.find? r = some c → Numbered r c.toCheckpoint
  regular : ∀ e ∈ pool.log, Regular e.2
  first : ∀ i r first, pool.task i = some (.execute r) → firstRead (pool.past i) = some first →
    Unfinished first → first.elim 0 (·.step) ≤ 0 ∨
      ∃ row, pool.state.runs.runs.find? r = some row ∧ row.maxSteps ≤ row.maxModelCalls
  calls : ∀ c ∈ modelCalls pool.log, ∀ r, pool.task c.process = some (.execute r) →
    c.key = BoundedWorker.modelKey r c.step ∧ 0 ≤ c.step ∧
      ∃ row, pool.state.runs.runs.find? r = some row ∧ c.step < min row.maxSteps row.maxModelCalls

/-- A row keeps its limits. -/
theorem limits_of_continues {row row' : RunRow} (h : RunStore.Continues row row') :
    row'.maxSteps = row.maxSteps ∧ row'.maxModelCalls = row.maxModelCalls := by
  obtain ⟨hrequest, -⟩ := h.request
  exact ⟨(congrArg Run.maxSteps hrequest :), (congrArg Run.maxModelCalls hrequest :)⟩

/-- The limits of a run a process was answered with are those of its row. -/
theorem limits_of_known {run : Run} (h : Known w run) : ∃ row,
    w.runs.runs.find? run.runId = some row ∧ row.maxSteps = run.maxSteps ∧
      row.maxModelCalls = run.maxModelCalls := by
  obtain ⟨before, now, rfl, hnow, hgoes⟩ := h
  exact ⟨now, hnow, limits_of_continues hgoes⟩

/-- **What a worker calls the model with**: the key of its step, which is within the
limits of its run. -/
theorem call_of_does (hsound : Sound pool) (hcounted : Counted pool) {prompt key : String}
    {timeout : ℚ} (htask : pool.task i = some (.execute r))
    (hdoes : BoundedWorker.Does r (pool.past i) (.model prompt key timeout)) :
    ∃ step, (lastSaved (pool.past i)).elim 0 Prod.fst = step ∧
      key = BoundedWorker.modelKey r step ∧ 0 ≤ step ∧
      ∃ row, pool.state.runs.runs.find? r = some row ∧
        step < min row.maxSteps row.maxModelCalls := by
  obtain ⟨run, id, hholds, -, s, hread, rfl, hsaved, hlt, first, hfirst, hfirstRead, hdone, hle,
    hcount⟩ := hdoes
  have hregular : ∀ e ∈ pool.past i, Regular e := fun e he =>
    hcounted.regular _ (Pool.mem_past.mp he)
  obtain ⟨hknown, hid⟩ : Known pool.state run ∧ run.runId = r := hsound.past hholds.claimed
  obtain ⟨row, hrow, hsteps, hcalls⟩ := limits_of_known hknown
  rw [hid] at hrow
  have hpos := start_nonneg hregular hfirstRead
  refine ⟨s.step, by rw [hsaved]; rfl, inflightKey_eq fun _ => numbered_of_read hregular hread,
    hpos.trans hle, row, hrow, ?_⟩
  rcases hcounted.first i r first htask hfirst hdone with hfresh | ⟨row', hrow', hbudget⟩
  · omega
  · obtain rfl := Option.some.inj (hrow.symm.trans hrow')
    omega

/-- The first checkpoint read after one more operation. -/
theorem firstRead_cons {h : Past} {op : Op} {first : Option Checkpoint}
    (hfirst : firstRead (⟨op, (RunWorld.exec lib policy drawn op w).1⟩ :: h) = some first) :
    firstRead h = some first ∨ (firstRead h = none ∧ ∃ r', op = .runs (.checkpoint r') ∧
      first = RunStore.checkpoint r' w.runs) := by
  cases op with
  | runs call =>
    cases call with
    | checkpoint r' =>
      change (firstRead h).or (some (RunStore.checkpoint r' w.runs)) = some first at hfirst
      cases hread : firstRead h with
      | none =>
        rw [hread] at hfirst
        exact Or.inr ⟨rfl, r', rfl, (Option.some.inj hfirst).symm⟩
      | some before =>
        rw [hread] at hfirst
        exact Or.inl hfirst
    | _ => exact Or.inl hfirst
  | _ => exact Or.inl hfirst

/-- Where a worker takes a run up. -/
theorem first_of_does {r' : String} (hsound : Sound pool)
    (hcond : freshCount pool i (.runs (.checkpoint r')) = true)
    (hdoes : BoundedWorker.Does r (pool.past i) (.runs (.checkpoint r')))
    (hnone : firstRead (pool.past i) = none)
    (hunfinished : Unfinished (RunStore.checkpoint r' pool.state.runs)) :
    (RunStore.checkpoint r' pool.state.runs).elim 0 (·.step) ≤ 0 ∨
      ∃ row, pool.state.runs.runs.find? r = some row ∧ row.maxSteps ≤ row.maxModelCalls := by
  obtain ⟨rfl, run, id, hholds⟩ := hdoes
  obtain ⟨hknown, hid⟩ : Known pool.state run ∧ run.runId = r' := hsound.past hholds.claimed
  obtain ⟨row, hrow, -⟩ := limits_of_known hknown
  rw [hid] at hrow
  simp only [freshCount, hnone, Option.isSome_none, Bool.false_or, Bool.or_eq_true, hrow,
    Option.all_some, decide_eq_true_eq] at hcond
  rcases hcond with hfirst | hbudget
  · left
    cases hc : RunStore.checkpoint r' pool.state.runs with
    | none => exact le_rfl
    | some c =>
      have hnot : BoundedWorker.isTrue c "done" = false := by
        rw [hc] at hunfinished
        exact hunfinished
      simpa [hc, hnot] using hfirst
  · exact Or.inr ⟨row, hrow, hbudget⟩

/-- Only processes that have started have called the model. -/
theorem process_lt_of_mem_modelCalls (hsound : Sound pool) {c : ModelCall}
    (hc : c ∈ modelCalls pool.log) : c.process < pool.procs.length := by
  have hlog := hsound.traced.2
  revert hc hlog
  induction pool.log with
  | nil => exact fun hc => absurd hc List.not_mem_nil
  | cons e older ih =>
    intro hc hlog
    rcases mem_modelCalls_cons hc with hc | ⟨_, _, _, _, -, rfl⟩
    · exact ih hc fun e he => hlog e (List.mem_cons_of_mem _ he)
    · exact hlog e List.mem_cons_self

/-- Only processes that have started have read a checkpoint. -/
theorem process_lt_of_firstRead (hsound : Sound pool) {first : Option Checkpoint}
    (hfirst : firstRead (pool.past i) = some first) : i < pool.procs.length := by
  by_contra hlt
  have hnone : pool.past i = [] := by
    apply List.eq_nil_iff_forall_not_mem.mpr
    intro e he
    exact hlt (hsound.traced.2 _ (Pool.mem_past.mp he))
  rw [hnone] at hfirst
  cases hfirst

/-- **Every action keeps the calls counted**, if no worker that starts its count
again can call the model more often than its run may. -/
theorem counted_act {a : Action Task Drawn} (hwhen : pool.Meets freshCount a)
    (hsound : Sound pool) (hcounted : Counted pool)
    (hacts : System.Acts (runSystem policy service worker) pool a pool') : Counted pool' := by
  have htask : ∀ i, i < pool.procs.length → pool'.task i = pool.task i := fun i => hacts.task_eq
  cases hacts with
  | start | stop =>
    refine ⟨hcounted.stored, hcounted.regular, ?_, ?_⟩
    · intro i r first hexec hfirst
      exact hcounted.first i r first (htask i (process_lt_of_firstRead hsound hfirst) ▸ hexec) hfirst
    · intro c hc r hexec
      exact hcounted.calls c hc r (htask c.process (process_lt_of_mem_modelCalls hsound hc) ▸ hexec)
  | idle => exact hcounted
  | @step i drawn task op next found =>
    have hdoes := hsound.does found
    have hi : i < pool.procs.length := (List.getElem?_eq_some_iff.mp found).1
    have hregular : ∀ e ∈ pool.past i, Regular e := fun e he =>
      hcounted.regular _ (Pool.mem_past.mp he)
    -- the first checkpoint a process has read: it is the same, or was read just now
    have hfirst' : ∀ j first, firstRead (((runSystem policy service worker).after pool i drawn task
          op next).past j) = some first → firstRead (pool.past j) = some first ∨
        (i = j ∧ firstRead (pool.past j) = none ∧ ∃ r', op = .runs (.checkpoint r') ∧
          first = RunStore.checkpoint r' pool.state.runs) := by
      intro j first hfirst
      rw [System.past_after] at hfirst
      split_ifs at hfirst with hij
      · exact (firstRead_cons hfirst).imp_right fun h => ⟨hij, h⟩
      · exact Or.inl hfirst
    have hj : ∀ j first, firstRead (((runSystem policy service worker).after pool i drawn task
        op next).past j) = some first → j < pool.procs.length := by
      intro j first hfirst
      rcases hfirst' j first hfirst with hbefore | ⟨rfl, -⟩
      · exact process_lt_of_firstRead hsound hbefore
      · exact hi
    -- what holds of a row's limits goes on
    have hkeep : ∀ {r} {P : ℤ → ℤ → Prop},
        (∃ row, pool.state.runs.runs.find? r = some row ∧ P row.maxSteps row.maxModelCalls) →
        ∃ row, (RunWorld.exec worker.lib policy drawn op pool.state).2.runs.runs.find? r = some row ∧
          P row.maxSteps row.maxModelCalls := by
      rintro r P ⟨row, hrow, hlimits⟩
      obtain ⟨row', hrow', hgoes⟩ := (later_exec worker.lib policy drawn op pool.state).runs.runs r
        row hrow
      obtain ⟨hsteps, hcalls⟩ := limits_of_continues hgoes
      exact ⟨row', hrow', by rwa [hsteps, hcalls]⟩
    refine ⟨?_, ?_, ?_, ?_⟩
    · refine numbered_exec hcounted.stored ?_
      rintro r step saved key approvalId usageUnits rfl
      exact numbered_of_save hregular hdoes
    · intro e he
      rcases List.mem_cons.mp he with rfl | he
      · exact regular_exec hcounted.stored
      · exact hcounted.regular e he
    · intro j r first hexec hfirst hunfinished
      rw [htask j (hj j first hfirst)] at hexec
      rcases hfirst' j first hfirst with hbefore | ⟨rfl, hnone, r', rfl, rfl⟩
      · exact (hcounted.first j r first hexec hbefore hunfinished).imp_right
          (hkeep (P := fun S M => S ≤ M))
      · rw [Pool.task_of_found found] at hexec
        obtain rfl : task = .execute r := Option.some.inj hexec
        exact (first_of_does hsound (hwhen.cond found) (hsound.does found) hnone
          hunfinished).imp_right (hkeep (P := fun S M => S ≤ M))
    · intro c hc r hexec
      rcases mem_modelCalls_cons hc with hc | ⟨prompt, key, timeout, answer, he, rfl⟩
      · rw [htask c.process (process_lt_of_mem_modelCalls hsound hc)] at hexec
        obtain ⟨hkey, hpos, hrow⟩ := hcounted.calls c hc r hexec
        exact ⟨hkey, hpos, hkeep (P := fun S M => c.step < min S M) hrow⟩
      · rw [htask i hi, Pool.task_of_found found] at hexec
        obtain rfl : task = .execute r := Option.some.inj hexec
        obtain ⟨rfl, -⟩ := Entry.mk.inj he
        have hcall : BoundedWorker.Does r (pool.past i) (.model prompt key timeout) :=
          hsound.does found
        obtain ⟨step, hstep, hkey, hpos, hrow⟩ :=
          call_of_does hsound hcounted (Pool.task_of_found found) hcall
        subst hstep
        exact ⟨hkey, hpos, hkeep (P := fun S M =>
          (lastSaved (pool.past i)).elim 0 Prod.fst < min S M) hrow⟩

/-- **The lifetime bound on model calls.**  In every pool that processes creating,
approving, cancelling and executing runs reach, where every worker that takes a run
up past its first step may call the model as often as the run has steps: the workers
of a run created with `max_steps` and `max_model_calls` pass at most the lesser of
the two distinct keys to the model, and one key for one step. -/
theorem model_calls_bounded (policy : QuotaPolicy) (service : RunService) (worker : BoundedWorker)
    {w : RunWorld} (hw : Fresh w) {actions : List (Action Task Drawn)}
    (h : Runs.Along (runSystem policy service worker).act (Pool.Meets freshCount) (Pool.init w)
      actions) :
    ∀ e ∈ (Runs.final (runSystem policy service worker).act (Pool.init w) actions).log,
      ∀ request run, createdBy e.2 = some (request, run) →
        WithinLimits (callsOf (Runs.final (runSystem policy service worker).act (Pool.init w)
          actions) run.runId) request.maxSteps request.maxModelCalls := by
  have hempty : Counted (Pool.init w) := by
    refine ⟨?_, fun e he => absurd he List.not_mem_nil, fun i r first htask => (by cases htask),
      fun c hc => absurd hc List.not_mem_nil⟩
    change ∀ r c, w.runs.runCheckpoints.find? r = some c → _
    rw [hw.runs]
    intro r c hc
    cases hc
  obtain ⟨hsound, hcounted⟩ := run_invariant (J := Counted) hw hempty
    (fun _ _ _ hwhen hsound _ hcounted hacts => counted_act hwhen hsound hcounted hacts) h
  generalize Runs.final (runSystem policy service worker).act (Pool.init w) actions = pool
    at hsound hcounted
  intro e he request run hcreated
  obtain ⟨hsteps, hcalls⟩ := limits_of_createdBy (hcounted.regular e he) hcreated
  obtain ⟨row, hrow, hrowSteps, hrowCalls⟩ := limits_of_known
    (known_of_createdBy (hsound.tells e he) hcreated)
  have hpos : 0 < request.maxSteps ∧ 0 < request.maxModelCalls :=
    ⟨request.positive _ (by simp), request.positive _ (by simp)⟩
  refine withinLimits_of_steps (r := run.runId) (by omega) ?_
  intro c hc
  obtain ⟨hmem, hexec⟩ := List.mem_filter.mp hc
  obtain ⟨hkey, hnonneg, row', hrow', hlt⟩ := hcounted.calls c hmem _ (executes_iff.mp hexec)
  obtain rfl := Option.some.inj (hrow.symm.trans hrow')
  rw [hrowSteps, hrowCalls, hsteps, hcalls] at hlt
  exact ⟨hkey, hnonneg, hlt⟩

namespace Sample

theorem middleStep_nonneg : (0 : ℤ) ≤ 1 := by decide

/-- One step that is not the last. -/
def middleStep : ModelResult := ⟨"more", 1, false, none, middleStep_nonneg⟩

end Sample

/-- The sample run makes the two calls it may make, and fails. -/
def boundedRun : List (Action Task Drawn) :=
  Sample.createdRun ++ .start (.execute "run-1") :: Sample.steps 1 Sample.middleStep
    ["g", "h", "i", "j", "k", "l", "m", "n", "o", "p", "q", "r", "s", "t", "u", "v", "w", "x", "y",
      "z", "aa"]

theorem model_calls_bounded_sample :
    WithinLimits (callsOf (Sample.runPool boundedRun) "run-1") 4 2 := by
  have hcreated : ((Sample.runPool boundedRun).log.getLast?.bind fun e =>
      (createdBy e.2).map fun c => (c.1.maxSteps, c.1.maxModelCalls, c.2.runId))
        = some (4, 2, "run-1") := by decide +kernel
  obtain ⟨e, he, hcreated⟩ := Option.bind_eq_some_iff.mp hcreated
  obtain ⟨⟨request, run⟩, hcreatedBy, hlimits⟩ := Option.map_eq_some_iff.mp hcreated
  simp only [Prod.mk.injEq] at hlimits
  obtain ⟨hsteps, hcalls, hid⟩ := hlimits
  rw [← hsteps, ← hcalls, ← hid]
  exact model_calls_bounded Sample.quotaPolicy Sample.runService Sample.boundedWorker
    Sample.fresh_runWorld (by decide +kernel) e (List.mem_of_getLast? he) request run hcreatedBy

/-- The sample run's worker is stopped after its first step; the next one makes the
two calls it may make. -/
def restartedRun : List (Action Task Drawn) :=
  Sample.createdRun ++ .start (.execute "run-1") :: Sample.steps 1 Sample.middleStep
      ["g", "h", "i", "j", "k", "l", "m", "n", "o", "p"] ++
    .stop 1 :: .start (.execute "run-1") :: Sample.steps 2 Sample.middleStep
      ["q", "r", "s", "t", "u", "v", "w", "x", "y", "z", "aa", "bb", "cc", "dd", "ee", "ff"]

/-- The run was created for four steps and two model calls; its workers pass three
keys to the model. -/
theorem restartedRun_exceeds :
    ((Sample.runPool restartedRun).log.getLast?.bind fun e =>
        (createdBy e.2).map fun c => (c.1.maxSteps, c.1.maxModelCalls, c.2.runId))
          = some (4, 2, "run-1") ∧
      (callsOf (Sample.runPool restartedRun) "run-1").map ModelCall.key
        = ["run-1:model:2", "run-1:model:1", "run-1:model:0"] ∧
      ¬ WithinLimits (callsOf (Sample.runPool restartedRun) "run-1") 4 2 := by
  have hkeys : (callsOf (Sample.runPool restartedRun) "run-1").map ModelCall.key
      = ["run-1:model:2", "run-1:model:1", "run-1:model:0"] := by decide +kernel
  refine ⟨by decide +kernel, hkeys, ?_⟩
  rintro ⟨hcard, -⟩
  rw [hkeys] at hcard
  exact absurd hcard (by decide)

end AiSaas
