import AiSaas.AgentWorker.Course
import AiSaas.AgentWorker.ModelCalls

/-!
# An execution that is stopped and begun again

`execute` may be stopped between any two of its operations and is begun again from the
tables alone, until it returns.  If it is stopped in safe states only, the run comes to
what it comes to when it is executed once.

## Main definitions

* `Startable` — a run that is about to be executed.
* `executions` — executions that are stopped, and one that is not.

## Main results

* `within_execute` — an execution ends.
* `restart_safe` — executions that are stopped in safe states come to what one comes to.
-/

namespace AiSaas

open Relational Transaction Processes BoundedWorker

variable {policy : QuotaPolicy} {worker : BoundedWorker} {claimed : Claimed} {w : RunWorld}

/-! ### An execution ends -/

section Within

variable {P : (op : Op) → Except Error op.Answer → Prop} {r reservation : String} {u : ℤ}

theorem within_askStore (call : RunStore.Call) : (askStore call).Within P 1 := Prog.within_perform _

theorem within_callHook (hook : Bool) (call : Outside) : (callHook hook call).Within P 1 :=
  Prog.Within.ite (Prog.within_perform _) (Prog.within_done _)

theorem within_settleOrRelease : (settleOrRelease reservation u r).Within P 2 := by
  have hrelease : (releaseCredits reservation (releaseKey r) >>= fun _ =>
      (pure () : Program Unit)).Within P 1 :=
    Prog.within_perform_bind fun _ _ => Prog.within_done _
  refine Prog.Within.ite (hrelease.mono (by decide)) ?_
  refine Prog.Within.bind (n := 1) (m := 1) (Prog.within_perform _).attempt ?_
  intro committed
  cases committed with
  | ok com => exact Prog.within_done _
  | error e => exact Prog.Within.ite hrelease (Prog.within_done _)

theorem within_exhausted {s : LoopState} : (exhausted claimed r s).Within P 3 :=
  within_settleOrRelease.bind fun _ => within_askStore _

theorem within_callModel {n : ℤ} {key : String} :
    (worker.callModel claimed n key).Within P 5 := by
  have hask : (askClock >>= fun now => Prog.perform (Op.model (worker.prompt claimed.run) key
      (max (1 / 100) (claimed.deadline - now)))).Within P 2 :=
    Prog.within_perform_bind fun _ _ => Prog.within_perform _
  refine Prog.Within.ite ?_ (hask.mono (by decide))
  refine Prog.within_perform_bind fun _ _ => ?_
  refine Prog.Within.bind (n := 3) (m := 1) (Prog.Within.attempt (hask.bind fun _ =>
    Prog.within_perform_bind fun _ _ => Prog.within_done (n := 0) _)) ?_
  intro result
  refine Prog.within_perform_bind (n := 0) fun _ _ => ?_
  cases result with
  | ok result => exact Prog.within_done _
  | error e => exact Prog.within_done _

theorem within_finish : (worker.finish claimed r u).Within P 4 := by
  refine Prog.Within.bind (n := 1) (m := 3) (Prog.within_perform _).attempt ?_
  intro committed
  cases committed with
  | ok com =>
    exact ((within_callHook _ _).bind fun _ => within_askStore _).mono (by decide)
  | error e =>
    exact Prog.Within.ite (within_settleOrRelease.bind fun _ => within_askStore _)
      (Prog.within_done _)

theorem within_record {s : LoopState} {result : ModelResult} {again : LoopState → Program Run}
    {n : ℕ} (hagain : ∀ s, (again s).Within P n) :
    (worker.record claimed r s result again).Within P (n + 4 + 4) := by
  refine Prog.Within.mono (n := 1 + (n + 4 + 2 + 1)) ?_ (by omega)
  refine (within_callHook _ _).bind fun _ => ?_
  refine Prog.within_perform_bind fun _ _ => ?_
  cases present result.approvalId with
  | some id =>
    exact Prog.Within.mono (n := 2) (Prog.within_perform_bind fun _ _ => within_askStore _) (by omega)
  | none =>
    refine Prog.within_perform_bind fun _ _ => Prog.within_perform_bind fun checkpoint _ => ?_
    exact Prog.Within.ite (within_finish.mono (by omega)) ((hagain _).mono (by omega))

theorem within_iterate {s : LoopState} {again : LoopState → Program Run} {n : ℕ}
    (hagain : ∀ s, (again s).Within P n) :
    (worker.iterate claimed r s again).Within P (n + 4 + 4 + 5 + 3) := by
  have hsettle : ∀ call : RunStore.Call, (settleOrRelease claimed.reservation s.usedUnits r >>=
      fun _ => askStore call).Within P 3 :=
    fun call => within_settleOrRelease.bind fun _ => within_askStore _
  refine Prog.within_perform_bind fun current _ => ?_
  refine Prog.Within.ite ((hsettle (.transition r .cancelled _)).mono (by omega)) ?_
  refine Prog.within_perform_bind fun (now : ℚ) _ => ?_
  refine Prog.Within.ite ((hsettle (.fail r _)).mono (by omega)) ?_
  refine Prog.within_perform_bind fun _ _ => ?_
  exact (within_callModel.bind fun result => within_record hagain).mono (by omega)

theorem within_loop {left : ℕ} {s : LoopState} :
    (worker.loop claimed r left s).Within P (16 * left + 3) := by
  induction left generalizing s with
  | zero => exact within_exhausted
  | succ left ih =>
    refine Prog.Within.ite ?_ (within_exhausted.mono (by omega))
    exact (within_iterate fun s => ih).mono (by omega)

end Within

/-- A claimed run has the limit of model calls its row has. -/
def Limited (r : String) (calls : ℕ) : (op : Op) → Except Error op.Answer → Prop
  | .runs (.claim r'), .ok run => r' = r → (Run.maxModelCalls run).toNat = calls
  | _, _ => True

/-- **An execution ends** within a number of operations that the limit of model calls
gives. -/
theorem within_execute {r : String} {calls : ℕ} :
    (worker.execute r).Within (Limited r calls) (16 * calls + 6) := by
  refine Prog.within_perform_bind fun (run : Run) hlimited => ?_
  have hcalls : run.maxModelCalls.toNat = calls := hlimited rfl
  refine Prog.Within.ite (Prog.within_done _) ?_
  cases present run.reservationId with
  | none => exact (within_askStore _).mono (by omega)
  | some reservation =>
    refine Prog.within_perform_bind fun (checkpoint : Option Checkpoint) _ => ?_
    cases checkpoint.filter fun checkpoint => isTrue checkpoint "done" with
    | some saved =>
      refine Prog.Within.mono (n := 1 + 2) (Prog.Within.bind (Prog.Within.ite (Prog.within_done _)
        (Prog.within_perform_bind (n := 0) fun _ _ => Prog.within_done _)) fun _ => ?_) (by omega)
      exact Prog.within_perform_bind fun _ _ => within_askStore _
    | none =>
      rw [hcalls]
      exact Prog.within_perform_bind fun now _ => within_loop

/-- A run has so many model calls. -/
def HasCalls (r : String) (calls : ℕ) (w : RunWorld) : Prop :=
  ∃ row, w.runs.runs.find? r = some row ∧ row.maxModelCalls.toNat = calls

/-- The limit of a run stays, and a claim answers it. -/
theorem HasCalls.exec {r : String} {calls : ℕ} (lib : RunLibrary) (policy : QuotaPolicy)
    (d : Drawn) (op : Op) (w : RunWorld) (h : HasCalls r calls w) :
    Limited r calls op (RunWorld.exec lib policy d op w).1 ∧
      HasCalls r calls (RunWorld.exec lib policy d op w).2 := by
  obtain ⟨row, hrow, hcalls⟩ := h
  constructor
  · cases op with
    | runs call =>
      cases call with
      | claim r' =>
        cases hclaim : RunStore.claim d.env r' w.runs with
        | error e =>
          have hexec : RunWorld.exec lib policy d (.runs (.claim r')) w = (.error e, w) :=
            exec_runs_error hclaim
          rw [hexec]
          trivial
        | ok claimed =>
          obtain ⟨run, db⟩ := claimed
          have hexec : RunWorld.exec lib policy d (.runs (.claim r')) w
              = (.ok run, { w with runs := db }) := exec_runs_ok hclaim
          rw [hexec]
          rintro rfl
          obtain ⟨row₀, row', hrow₀, rfl, hcases⟩ := RunStore.claim_eq_ok hclaim
          obtain rfl := Option.some.inj (hrow₀.symm.trans hrow)
          rcases hcases with ⟨-, -, rfl, -⟩ | ⟨-, rfl, -⟩ | ⟨-, rfl, -⟩
          all_goals exact hcalls
      | _ => trivial
    | _ => trivial
  · obtain ⟨row', hrow', hgoes⟩ := (later_exec lib policy d op w).runs.runs r row hrow
    exact ⟨row', hrow', by rw [(limits_of_continues hgoes).2, hcalls]⟩

/-! ### Executions of a run -/

/-- The job of a run that is about to be executed. -/
def jobOf (answer : String → ModelResult) (w : RunWorld) (row : RunRow) : Job where
  runId := row.runId
  reservation := row.reservationId
  calls := row.maxModelCalls.toNat
  runtime := row.maxRuntimeSeconds
  load := ⟨fun n => answer (modelKey row.runId n), row.maxSteps,
    CreditLedger.payable w.ledger (row.reservationId.getD "")⟩

/-- **A run that is about to be executed.**  If it is queued or running, it is not to be
cancelled, and where it has a reservation, this is held and was charged nothing; a
checkpoint it has was saved by a worker, and units that are due can be paid. -/
structure Startable (w : RunWorld) (row : RunRow) : Prop where
  gapless : w.runs.Gapless
  found : w.runs.runs.find? row.runId = some row
  uncancelled : row.state = .queued ∨ row.state = .running → row.cancelRequested = false
  held : row.state = .queued ∨ row.state = .running → ∀ id, present row.reservationId = some id →
    (∃ x, w.ledger.reservations.find? id = some x ∧ x.status = .reserved) ∧
      w.ledger.runLedger.findBy? (commitKey row.runId) = none ∧
      CreditLedger.entriesOf w.ledger id = []
  checkpoint : ∀ c, RunStore.checkpoint row.runId w.runs = some c →
    (present c.inflightKey = none ∨ c.inflightKey = some (modelKey row.runId c.step)) ∧
      0 ≤ c.usageUnits ∧ (isTrue c "done" = true →
        CreditLedger.payable w.ledger (row.reservationId.getD "") c.usageUnits = true)

/-- What a run that is about to be executed comes to. -/
theorem Startable.ready {row : RunRow} (h : Startable w row) (worker : BoundedWorker)
    (answer : String → ModelResult) : ∃ fate, Ready worker (jobOf answer w row)
      (startStep (RunStore.checkpoint row.runId w.runs)) fate w := by
  by_cases hactive : row.state = .queued ∨ row.state = .running
  · have hfile : OnFile (jobOf answer w row) row.state (RunStore.checkpoint row.runId w.runs)
        (w.runs.tokensOf row.runId) w.runs :=
      ⟨h.gapless, ⟨row, h.found, rfl, ⟨h.uncancelled hactive, rfl, rfl, rfl, rfl⟩⟩, rfl, rfl⟩
    cases hreserved : present row.reservationId with
    | none => exact ⟨_, .unreserved hfile hactive hreserved rfl⟩
    | some id =>
      obtain ⟨hid, -⟩ := present_eq_some.mp hreserved
      have hname : (jobOf answer w row).reservationId = id := congrArg (fun r => Option.getD r "") hid
      have hs : Stands (jobOf answer w row) row.state (RunStore.checkpoint row.runId w.runs)
          (w.runs.tokensOf row.runId) .held w := by
        obtain ⟨hx, hkey, hentries⟩ := h.held hactive id hreserved
        refine ⟨hfile, hreserved.trans (congrArg some hname.symm), ?_⟩
        rw [← hname] at hx hentries
        exact ⟨hx, hkey, hentries, fun _ => rfl⟩
      have hcheckpoint := h.checkpoint
      generalize RunStore.checkpoint row.runId w.runs = checkpoint at hs hcheckpoint ⊢
      by_cases hdone : startDone checkpoint = true
      · cases checkpoint with
        | none => cases hdone
        | some c =>
          obtain ⟨-, hunits, hpay⟩ := hcheckpoint c rfl
          exact ⟨_, .finishing hs hactive ⟨hdone, rfl, hunits, hpay hdone, Or.inl rfl⟩⟩
      · refine ⟨_, .going hs hactive ⟨Bool.eq_false_iff.mpr hdone, rfl, fun hends => hends,
          fun _ => rfl, le_rfl, le_rfl, ?_, fun c hc => (hcheckpoint c hc).1, Or.inl rfl⟩⟩
        cases checkpoint with
        | none => exact le_rfl
        | some c => exact (hcheckpoint c rfl).2.1
  · rw [not_or] at hactive
    have houtcome : ∃ fate, w.outcomeOf row.runId = some fate :=
      ⟨_, by rw [RunWorld.outcomeOf, h.found]; rfl⟩
    obtain ⟨fate, hfate⟩ := houtcome
    exact ⟨fate, .idle h.found hactive hfate⟩

/-- Executions of a run that are stopped, and one that is not. -/
def executions (runId : String) (stopped : List (List Drawn)) (last : List Drawn) :
    List (Action Task Drawn) :=
  System.attempts (.execute runId) 0 stopped ++
    .start (.execute runId) :: last.map (.step stopped.length)

/-- The operations of the executions draw what they do when nothing times out, and those
that are stopped are stopped in safe states. -/
def StoppedSafely (worker : BoundedWorker) (answer : String → ModelResult) (w : RunWorld)
    (row : RunRow) (since : ℕ → ℚ) : RunPool → Action Task Drawn → Prop :=
  System.Attempted (fun i => Drawn.Works answer row.maxRuntimeSeconds (since i))
    (Safe worker (jobOf answer w row) (startStep (RunStore.checkpoint row.runId w.runs)))

/-- Executions that are stopped safely return, and come to what was to come. -/
theorem executions_come (policy : QuotaPolicy) (service : RunService) (worker : BoundedWorker)
    (answer : String → ModelResult) {row : RunRow} {fate : Outcome} {since : ℕ → ℚ}
    {stopped : List (List Drawn)} {last : List Drawn} (hw : Startable w row)
    (hready : Ready worker (jobOf answer w row) (startStep (RunStore.checkpoint row.runId w.runs))
      fate w)
    (hlast : 16 * row.maxModelCalls.toNat + 6 ≤ last.length)
    (h : Runs.Along (runSystem policy service worker).act
      (StoppedSafely worker answer w row since) (Pool.init w) (executions row.runId stopped last)) :
    ∃ run, (Runs.final (runSystem policy service worker).act (Pool.init w)
        (executions row.runId stopped last)).result stopped.length = some (.ok run) ∧
      (Runs.final (runSystem policy service worker).act (Pool.init w)
        (executions row.runId stopped last)).state.outcomeOf row.runId = some fate := by
  have hcourse : ∀ (i : ℕ) (s : RunWorld), Ready worker (jobOf answer w row)
      (startStep (RunStore.checkpoint row.runId w.runs)) fate s →
      ((runSystem policy service worker).program (.execute row.runId)).Solo
        (runSystem policy service worker).exec
        (Drawn.Works answer row.maxRuntimeSeconds (since i))
        (fun _ s => Safe worker (jobOf answer w row)
          (startStep (RunStore.checkpoint row.runId w.runs)) s →
          Ready worker (jobOf answer w row) (startStep (RunStore.checkpoint row.runId w.runs)) fate s)
        (fun _ s r => Come (jobOf answer w row) fate [] s r) [] s :=
    fun i s hs => execute_comes hs (fun _ => rfl) []
  rw [executions, ← Nat.zero_add stopped.length] at h ⊢
  obtain ⟨r, hr, ⟨run, rfl⟩, hcome⟩ := System.restart (HasCalls.exec worker.lib policy) hcourse
    within_execute stopped hlast hready ⟨row, hw.found, rfl⟩ (fun e he => absurd he List.not_mem_nil) h
  exact ⟨run, hr, hcome⟩

/-- **Restart safety.**  A model answers by its key, and nothing is cancelled or times
out.  Executions of a run that are stopped in safe states, and then one that is let go
on for as long as it may take, return and leave the run in the state, with the texts and
with the charged units that one execution leaves it with that is never stopped. -/
theorem restart_safe (policy : QuotaPolicy) (service : RunService) (worker : BoundedWorker)
    (answer : String → ModelResult) {w : RunWorld} {row : RunRow} (hw : Startable w row)
    {since since' : ℕ → ℚ} {stopped : List (List Drawn)} {last once : List Drawn}
    (hlast : 16 * row.maxModelCalls.toNat + 6 ≤ last.length)
    (honce : 16 * row.maxModelCalls.toNat + 6 ≤ once.length)
    (h : Runs.Along (runSystem policy service worker).act
      (StoppedSafely worker answer w row since) (Pool.init w) (executions row.runId stopped last))
    (h' : Runs.Along (runSystem policy service worker).act
      (StoppedSafely worker answer w row since') (Pool.init w) (executions row.runId [] once)) :
    (∃ run, (Runs.final (runSystem policy service worker).act (Pool.init w)
        (executions row.runId stopped last)).result stopped.length = some (.ok run)) ∧
      (∃ run, (Runs.final (runSystem policy service worker).act (Pool.init w)
        (executions row.runId [] once)).result 0 = some (.ok run)) ∧
      (Runs.final (runSystem policy service worker).act (Pool.init w)
          (executions row.runId stopped last)).state.outcomeOf row.runId
        = (Runs.final (runSystem policy service worker).act (Pool.init w)
          (executions row.runId [] once)).state.outcomeOf row.runId := by
  obtain ⟨fate, hready⟩ := hw.ready worker answer
  obtain ⟨run, hrun, hcome⟩ := executions_come policy service worker answer hw hready hlast h
  obtain ⟨run', hrun', hcome'⟩ := executions_come policy service worker answer hw hready honce h'
  exact ⟨⟨run, hrun⟩, ⟨run', hrun'⟩, hcome.trans hcome'.symm⟩

/-! ### A sample -/

instance : DecidableEq ModelResult := fun a b =>
  decidable_of_iff (a.output = b.output ∧ a.usageUnits = b.usageUnits ∧ a.done = b.done ∧
    a.approvalId = b.approvalId) (by cases a; cases b; simp)

instance (answer : String → ModelResult) (runtime since : ℚ) (d : Drawn) (op : Op) (w : RunWorld) :
    Decidable (d.Works answer runtime since op w) :=
  match op with
  | .clock => inferInstanceAs (Decidable (since ≤ d.clock ∧ d.clock < since + runtime))
  | .model _ key _ => inferInstanceAs (Decidable (d.model = .ok (answer key)))
  | .outside _ => inferInstanceAs (Decidable (d.outside = .ok ()))
  | .runs _ | .quota _ | .reserve .. | .release .. | .commit .. =>
    inferInstanceAs (Decidable (d.New w))

instance (worker : BoundedWorker) (job : Job) (start : ℤ) (c : Checkpoint) :
    Decidable (SafeAt worker job start c) :=
  inferInstanceAs (Decidable (present c.approvalId = none ∧
    if isTrue c "done" = true then job.load.payable c.usageUnits = true ∧
      (isTrue c "token_emitted" = true ∨ redactText (worker.lastOutput c) = worker.lastOutput c)
    else unsaid c = false ∧ job.load.Ends job.calls start))

instance (worker : BoundedWorker) (job : Job) (start : ℤ) (w : RunWorld) :
    Decidable (Safe worker job start w) :=
  match h : RunStore.checkpoint job.runId w.runs with
  | none => isTrue fun c hc => by rw [h] at hc; cases hc
  | some c => decidable_of_iff (start < c.step → SafeAt worker job start c)
    ⟨fun hsafe c' hc' => by rw [h] at hc'; exact Option.some.inj hc' ▸ hsafe, fun hsafe => hsafe c h⟩

instance (worker : BoundedWorker) (answer : String → ModelResult) (w : RunWorld) (row : RunRow)
    (since : ℕ → ℚ) (pool : RunPool) (a : Action Task Drawn) :
    Decidable (StoppedSafely worker answer w row since pool a) :=
  inferInstanceAs (Decidable (System.Attempted _ _ pool a))

/-- Every operation keeps the events of a run without gaps. -/
theorem gapless_exec (d : Drawn) (op : Op) (w : RunWorld) (h : w.runs.Gapless) :
    (RunWorld.exec worker.lib policy d op w).2.runs.Gapless := by
  rcases exec_runs worker.lib policy d op w with hsame | ⟨call, -, hstep⟩
  · rwa [hsame]
  · rw [hstep]
    exact RunStore.gapless_step worker.lib w.runs (d.env, call) h

namespace Sample

/-- The tables after the sample run was created. -/
def createdWorld : RunWorld := (runPool createdRun).state

/-- The sample run as it was created. -/
def createdRow : RunRow := (createdWorld.runs.runs.find? "run-1").get (by decide +kernel)

/-- A model whose second step is the last. -/
def twoSteps (key : String) : ModelResult := if key = "run-1:model:0" then middleStep else lastStep

/-- Draws for so many operations. -/
def drawsFrom (c : Char) (model : ModelResult) (n : ℕ) : List Drawn :=
  (List.range n).map fun k => draws (String.ofList (List.replicate (k + 1) c)) model

theorem createdRow_runId : createdRow.runId = "run-1" := by decide +kernel

/-- The sample run is about to be executed. -/
theorem startable_createdRow : Startable createdWorld createdRow where
  gapless := Runs.invariant (I := fun pool : RunPool => pool.state.runs.Gapless)
    RunDatabase.gapless_empty
    (fun _ a h => System.act_keeps (J := fun w : RunWorld => w.runs.Gapless) gapless_exec h a) _
  found := by
    rw [createdRow_runId]
    exact (Option.some_get _).symm
  uncancelled _ := by decide +kernel
  held _ id hid := by
    have hid' : present createdRow.reservationId = some "reservation-c-0" := by decide +kernel
    obtain rfl := Option.some.inj (hid.symm.trans hid')
    have hheld : (createdWorld.ledger.reservations.find? "reservation-c-0").map (·.status)
        = some .reserved := by decide +kernel
    exact ⟨Option.map_eq_some_iff.mp hheld,
      Option.isNone_iff_eq_none.mp (by decide +kernel), List.isEmpty_iff.mp (by decide +kernel)⟩
  checkpoint c hc := by
    have hnone : (RunStore.checkpoint createdRow.runId createdWorld.runs).isNone = true := by
      decide +kernel
    rw [hc] at hnone
    cases hnone

/-- The sample run executed after some executions were stopped. -/
def executedPool (stopped : List (List Drawn)) (last : List Drawn) : RunPool :=
  Runs.final (runSystem quotaPolicy runService boundedWorker).act (Pool.init createdWorld)
    (executions createdRow.runId stopped last)

/-- Both steps in one execution. -/
def bothSteps : List Drawn := drawsFrom 'u' middleStep 11 ++ drawsFrom 'v' lastStep 27

end Sample

/-- One execution is stopped after the model's first answer, and one after its text. -/
theorem restart_safe_sample :
    (Sample.executedPool [Sample.drawsFrom 'w' Sample.middleStep 8,
        Sample.drawsFrom 'x' Sample.middleStep 10]
      (Sample.drawsFrom 'y' Sample.lastStep 38)).state.outcomeOf Sample.createdRow.runId
      = (Sample.executedPool [] Sample.bothSteps).state.outcomeOf Sample.createdRow.runId := by
  have hstopped : Runs.Along (runSystem Sample.quotaPolicy Sample.runService Sample.boundedWorker).act
      (StoppedSafely Sample.boundedWorker Sample.twoSteps Sample.createdWorld Sample.createdRow 0)
      (Pool.init Sample.createdWorld) (executions Sample.createdRow.runId
        [Sample.drawsFrom 'w' Sample.middleStep 8, Sample.drawsFrom 'x' Sample.middleStep 10]
        (Sample.drawsFrom 'y' Sample.lastStep 38)) := by decide +kernel
  have honce : Runs.Along (runSystem Sample.quotaPolicy Sample.runService Sample.boundedWorker).act
      (StoppedSafely Sample.boundedWorker Sample.twoSteps Sample.createdWorld Sample.createdRow 0)
      (Pool.init Sample.createdWorld) (executions Sample.createdRow.runId [] Sample.bothSteps) := by
    decide +kernel
  exact (restart_safe Sample.quotaPolicy Sample.runService Sample.boundedWorker Sample.twoSteps
    Sample.startable_createdRow (by decide +kernel) (by decide +kernel) hstopped honce).2.2

/-- What is seen of the sample run: its state, how many texts, and the charged units. -/
def seen (pool : RunPool) : Option (RunState × ℕ × ℤ) :=
  (pool.state.outcomeOf Sample.createdRow.runId).map fun o => (o.state, o.tokens.length, o.committed)

/-- An execution that is stopped after its first result is saved, before its text is put
out, loses the text: the next one goes on with the second step. -/
theorem stopBeforeText_loses :
    Startable Sample.createdWorld Sample.createdRow ∧
      Runs.Along (runSystem Sample.quotaPolicy Sample.runService Sample.boundedWorker).act
        (System.Attempted (fun _ => Drawn.Works Sample.twoSteps 60 0) fun _ => True)
        (Pool.init Sample.createdWorld)
        (executions Sample.createdRow.runId [Sample.drawsFrom 'w' Sample.middleStep 9]
          (Sample.drawsFrom 'y' Sample.lastStep 38)) ∧
      Runs.Along (runSystem Sample.quotaPolicy Sample.runService Sample.boundedWorker).act
        (System.Attempted (fun _ => Drawn.Works Sample.twoSteps 60 0) fun _ => True)
        (Pool.init Sample.createdWorld) (executions Sample.createdRow.runId [] Sample.bothSteps) ∧
      seen (Sample.executedPool [Sample.drawsFrom 'w' Sample.middleStep 9]
        (Sample.drawsFrom 'y' Sample.lastStep 38)) = some (.completed, 1, 3) ∧
      seen (Sample.executedPool [] Sample.bothSteps) = some (.completed, 2, 3) ∧
      (Sample.executedPool [Sample.drawsFrom 'w' Sample.middleStep 9]
          (Sample.drawsFrom 'y' Sample.lastStep 38)).state.outcomeOf Sample.createdRow.runId
        ≠ (Sample.executedPool [] Sample.bothSteps).state.outcomeOf Sample.createdRow.runId := by
  have hlost : seen (Sample.executedPool [Sample.drawsFrom 'w' Sample.middleStep 9]
      (Sample.drawsFrom 'y' Sample.lastStep 38)) = some (.completed, 1, 3) := by decide +kernel
  have hboth : seen (Sample.executedPool [] Sample.bothSteps) = some (.completed, 2, 3) := by
    decide +kernel
  refine ⟨Sample.startable_createdRow, by decide +kernel, by decide +kernel, hlost, hboth, ?_⟩
  intro hsame
  rw [seen, hsame] at hlost
  exact absurd (hlost.symm.trans hboth) (by decide)

end AiSaas
