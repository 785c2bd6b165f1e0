import AiSaas.AgentWorker.Standing
import AiSaas.Lib.Solo

/-!
# The course of an execution

What an execution alone makes of a run, compared with what was to come of the run when
it was first executed.  Where an execution is stopped in a safe state, a new one that
begins from the tables comes to the same.

## Main definitions

* `Drawn.Works` — what a worker's operation draws when nothing times out.
* `Going`, `Finishing` — what is known of a run in the loop, and of one whose last step
  is saved.
* `Ready` — an execution that begins now comes to what was to come.
* `Safe` — the condition on the tables in which an execution is stopped.

## Main results

* `Going.ready` — a safe state in the loop is ready.
* `loop_comes`, `execute_comes` — an execution alone comes to what was to come.
-/

namespace AiSaas

open Relational Transaction Processes

namespace BoundedWorker

/-! ### Checkpoints -/

/-- Step, units and end of the execution that begins with a checkpoint. -/
def startStep (checkpoint : Option Checkpoint) : ℤ := checkpoint.elim 0 (·.step)

@[inherit_doc startStep]
def startUnits (checkpoint : Option Checkpoint) : ℤ := checkpoint.elim 0 (·.usageUnits)

@[inherit_doc startStep]
def startDone (checkpoint : Option Checkpoint) : Bool :=
  checkpoint.elim false fun c => isTrue c "done"

/-- The text of a saved step is not out. -/
def unsaid (c : Checkpoint) : Bool :=
  match Json.get c.state "token_emitted" with
  | .bool b => !b
  | _ => false

/-- The output of a saved step, as a restarted execution puts it out. -/
def lastOutput (worker : BoundedWorker) (c : Checkpoint) : String :=
  ((c.state.lookup "last_output").getD (.str "")).pyStr worker.lib.repr

/-- The checkpoint saved before a model call. -/
def beforeCall (job : Job) (n : ℤ) (key : String) (u : ℤ) : Checkpoint :=
  ⟨job.runId, n, redactFields [("step", .int n)], some key, none, u⟩

/-- The checkpoint saved with a result. -/
def withResult (job : Job) (n : ℤ) (a : ModelResult) (u : ℤ) : Checkpoint :=
  ⟨job.runId, n, redactFields (resultState n a), none, a.approvalId, u⟩

variable {job : Job} {worker : BoundedWorker} {n u : ℤ} {a : ModelResult} {key : String}

@[simp] theorem done_beforeCall : isTrue (beforeCall job n key u) "done" = false := rfl

@[simp] theorem done_withResult : isTrue (withResult job n a u) "done" = a.done := rfl

@[simp] theorem unsaid_withResult : unsaid (withResult job n a u) = true := rfl

@[simp] theorem lastOutput_withResult :
    worker.lastOutput (withResult job n a u) = redactText a.output := rfl

@[simp] theorem done_emitted (c : Checkpoint) : isTrue c.emitted "done" = isTrue c "done" := by
  rw [isTrue, isTrue, c.get_emitted (by decide)]

@[simp] theorem emitted_emitted (c : Checkpoint) : isTrue c.emitted "token_emitted" = true := rfl

end BoundedWorker

open BoundedWorker

/-! ### What is known of a run -/

/-- What a worker's operation draws: a reading of the clock within the run's time, the
model's answer to the key, hooks that return, and new ids. -/
def Drawn.Works (answer : String → ModelResult) (runtime since : ℚ) (d : Drawn) :
    Op → RunWorld → Prop
  | .clock, _ => since ≤ d.clock ∧ d.clock < since + runtime
  | .model _ key _, _ => d.model = .ok (answer key)
  | .outside _, _ => d.outside = .ok ()
  | _, w => d.New w

/-- What settling makes of a reservation that was held. -/
def Workload.settled (load : Workload) (u : ℤ) : Hold :=
  if u = 0 then .freed else if load.payable u then .charged u else .freed

theorem Workload.units_settled (load : Workload) (u : ℤ) :
    (load.settled u).units = load.charge u := by
  unfold settled charge
  split_ifs with hu hpay hpay <;> simp [Hold.units, *]

/-- A checkpoint names the call in flight as its step does. -/
def Keyed (job : Job) (c : Checkpoint) : Prop :=
  present c.inflightKey = none ∨ c.inflightKey = some (modelKey job.runId c.step)

/-- **A run in the loop**, with model calls left: what the loop comes to is what was to
come, and so with every call of a new execution if the answers end in time. -/
structure Going (job : Job) (start : ℤ) (fate : Outcome) (left : ℕ)
    (checkpoint : Option Checkpoint) (tokens : List Json) (hold : Hold) : Prop where
  undone : startDone checkpoint = false
  course : fate
    = (job.load.outcome left (startStep checkpoint) (startUnits checkpoint)).after tokens
  ends : job.load.Ends job.calls start → job.load.Ends left (startStep checkpoint)
  fresh : (∀ c, checkpoint = some c → c.step ≤ start) → left = job.calls
  left_le : left ≤ job.calls
  from_start : start ≤ startStep checkpoint
  units : 0 ≤ startUnits checkpoint
  keyed : ∀ c, checkpoint = some c → Keyed job c
  hold : hold = .held ∨ (job.load.maxSteps ≤ startStep checkpoint ∨ job.calls = 0) ∧
    hold = job.load.settled (startUnits checkpoint)

/-- **A run whose last step is saved** is to be completed, for units that can be paid. -/
structure Finishing (worker : BoundedWorker) (job : Job) (fate : Outcome) (c : Checkpoint)
    (tokens : List Json) (hold : Hold) : Prop where
  done : isTrue c "done" = true
  course : fate = ⟨.completed, tokens ++
    (if isTrue c "token_emitted" then [] else [tokenOf (worker.lastOutput c)]), c.usageUnits⟩
  units : 0 ≤ c.usageUnits
  payable : job.load.payable c.usageUnits = true
  hold : hold = .held ∨ hold = .charged c.usageUnits

/-- An execution that begins now comes to what was to come: a run in the loop, one whose
last step is saved, one without a reservation, and one that is not to be executed. -/
inductive Ready (worker : BoundedWorker) (job : Job) (start : ℤ) (fate : Outcome) (w : RunWorld) :
    Prop
  | going {state checkpoint tokens hold} (hs : Stands job state checkpoint tokens hold w)
    (hactive : state = .queued ∨ state = .running)
    (h : Going job start fate job.calls checkpoint tokens hold)
  | finishing {state c tokens hold} (hs : Stands job state (some c) tokens hold w)
    (hactive : state = .queued ∨ state = .running) (h : Finishing worker job fate c tokens hold)
  | unreserved {state checkpoint tokens} (hs : OnFile job state checkpoint tokens w.runs)
    (hactive : state = .queued ∨ state = .running) (hnone : present job.reservation = none)
    (h : fate = ⟨.failed, tokens, job.reservation.elim 0 (CreditLedger.committedOf w.ledger)⟩)
  | idle {row} (hrow : w.runs.runs.find? job.runId = some row)
    (hidle : row.state ≠ .queued ∧ row.state ≠ .running) (h : w.outcomeOf job.runId = some fate)

/-- **A safe stop.**  Once a result is saved: it asks for no approval; if it is the last
step, its units can be paid, and its text is out or stays as it is when it is redacted
again; and if it is not, its text is out, and the answers end within the model calls of
one execution. -/
def SafeAt (worker : BoundedWorker) (job : Job) (start : ℤ) (c : Checkpoint) : Prop :=
  present c.approvalId = none ∧
    if isTrue c "done" then job.load.payable c.usageUnits = true ∧
      (isTrue c "token_emitted" = true ∨ redactText (worker.lastOutput c) = worker.lastOutput c)
    else unsaid c = false ∧ job.load.Ends job.calls start

@[inherit_doc SafeAt]
def Safe (worker : BoundedWorker) (job : Job) (start : ℤ) (w : RunWorld) : Prop :=
  ∀ c, RunStore.checkpoint job.runId w.runs = some c → start < c.step → SafeAt worker job start c

/-- The execution has returned, and has come to what was to come. -/
def Come (job : Job) (fate : Outcome) (_ : Past) (w : RunWorld) (answer : Except Error Run) : Prop :=
  (∃ run, answer = .ok run) ∧ w.outcomeOf job.runId = some fate

/-- A program alone, stopped in no state that is not ready but safe, comes to what was
to come. -/
def Comes (policy : QuotaPolicy) (worker : BoundedWorker) (answer : String → ModelResult) (job : Job)
    (start : ℤ) (fate : Outcome) (since : ℚ) (prog : Program Run) (w : RunWorld) : Prop :=
  ∀ past, prog.Solo (RunWorld.exec worker.lib policy) (Drawn.Works answer job.runtime since)
    (fun _ s => Safe worker job start s → Ready worker job start fate s) (Come job fate) past w

variable {policy : QuotaPolicy} {worker : BoundedWorker} {answer : String → ModelResult} {job : Job}
  {start : ℤ} {fate : Outcome} {since : ℚ} {w : RunWorld} {left : ℕ} {past : Past}
  {checkpoint : Option Checkpoint} {tokens : List Json} {hold : Hold} {claimed : Claimed}

theorem Safe.of_checkpoint {state : RunState} {c : Checkpoint} (h : Safe worker job start w)
    (hs : Stands job state (some c) tokens hold w) (hstep : start < c.step) :
    SafeAt worker job start c := h c hs.file.checkpoint hstep

/-- A run in the loop that is not fresh ends in time where it is safe. -/
theorem Going.ends_of_safe {hold' : Hold} (h : Going job start fate left checkpoint tokens hold)
    (hs : Stands job .running checkpoint tokens hold' w) (hsafe : Safe worker job start w) :
    left = job.calls ∨ job.load.Ends left (startStep checkpoint) := by
  by_cases hfresh : ∀ c, checkpoint = some c → c.step ≤ start
  · exact Or.inl (h.fresh hfresh)
  · push Not at hfresh
    obtain ⟨c, rfl, hstep⟩ := hfresh
    obtain ⟨-, hcond⟩ := hsafe.of_checkpoint hs hstep
    have hundone : isTrue c "done" = false := h.undone
    rw [hundone] at hcond
    exact Or.inr (h.ends hcond.2)

/-- **A safe state in the loop is ready**: a new execution has all its model calls, and
comes to the same. -/
theorem Going.ready (h : Going job start fate left checkpoint tokens hold)
    (hs : Stands job .running checkpoint tokens hold w) (hsafe : Safe worker job start w) :
    Ready worker job start fate w := by
  refine .going hs (Or.inr rfl) ?_
  rcases h.ends_of_safe hs hsafe with rfl | hends
  · exact h
  · have hmono : job.load.Ends job.calls (startStep checkpoint) := hends.mono h.left_le
    refine ⟨h.undone, ?_, fun _ => hmono, fun _ => rfl, le_rfl, h.from_start, h.units, h.keyed,
      h.hold⟩
    rw [hends.outcome_eq h.left_le, h.course]

/-! ### The end of the loop -/

/-- A last call of the run store. -/
theorem solo_askStore (call : RunStore.Call) {May : Drawn → Op → RunWorld → Prop}
    {I : Past → RunWorld → Prop} {Q : Past → RunWorld → Except Error call.Answer → Prop}
    (hI : I past w) (hlast : ∀ d, May d (.runs call) w → ∃ r w',
      RunWorld.exec worker.lib policy d (.runs call) w = (r, w') ∧ Q (⟨.runs call, r⟩ :: past) w' r) :
    (askStore call).Solo (RunWorld.exec worker.lib policy) May I Q past w :=
  Prog.solo_perform hI hlast

/-- What settling leaves is settled. -/
theorem settled_cases (load : Workload) (u : ℤ) :
    (u = 0 ∧ load.settled u = .freed) ∨
      (u ≠ 0 ∧ load.payable u = true ∧ load.settled u = .charged u) ∨
      (u ≠ 0 ∧ load.payable u = false ∧ load.settled u = .freed) := by
  by_cases hu : u = 0
  · exact Or.inl ⟨hu, if_pos hu⟩
  · cases hpay : load.payable u with
    | true => exact Or.inr (Or.inl ⟨hu, rfl, by simp [Workload.settled, hu, hpay]⟩)
    | false => exact Or.inr (Or.inr ⟨hu, rfl, by simp [Workload.settled, hu, hpay]⟩)

section Settle

variable {state : RunState} {u : ℤ} {I : Past → RunWorld → Prop}
  {M : Past → RunWorld → Except Error Unit → Prop}

/-- **Settling** charges the units that can be paid and releases the reservation otherwise,
whether it is done for the first time or again. -/
theorem settle_solo (hI : ∀ past, I past w) (hs : Stands job state checkpoint tokens hold w)
    (hu : 0 ≤ u) (hhold : hold = .held ∨ hold = job.load.settled u)
    (hM : ∀ past s, Stands job state checkpoint tokens (job.load.settled u) s → M past s (.ok ())) :
    (settleOrRelease job.reservationId u job.runId).Solo (RunWorld.exec worker.lib policy)
      (Drawn.Works answer job.runtime since) I M past w := by
  have hrelease : ∀ past, job.load.settled u = .freed → hold = .held ∨ hold = .freed →
      (releaseCredits job.reservationId (releaseKey job.runId) >>= fun _ =>
        (pure () : Program Unit)).Solo (RunWorld.exec worker.lib policy)
        (Drawn.Works answer job.runtime since) I M past w := by
    intro past hfreed hfree
    refine Prog.solo_perform_bind (hI past) ?_
    intro d _
    obtain ⟨res, w', hexec, hs'⟩ := hs.release hfree d (releaseKey job.runId)
    exact ⟨res, w', hexec, hM _ _ (hfreed.symm ▸ hs')⟩
  rcases settled_cases job.load u with ⟨rfl, hfreed⟩ | ⟨hne, hpay, hcharged⟩ | ⟨hne, hpay, hfreed⟩
  · refine Prog.Solo.ite (fun _ => ?_) fun hno => absurd rfl hno
    exact hrelease past hfreed (by rwa [hfreed] at hhold)
  · refine Prog.Solo.ite (fun hyes => absurd hyes hne) fun _ => ?_
    refine Prog.solo_attempt_bind (hI past) ?_
    intro d hd
    rw [hcharged] at hhold hM
    rcases hhold with rfl | rfl
    · obtain ⟨com, w', hexec, hs'⟩ := hs.commit hu hpay hd
      exact ⟨_, w', hexec, hM _ _ hs'⟩
    · obtain ⟨com, hexec⟩ := hs.commit_again hu d
      exact ⟨_, w, hexec, hM _ _ hs⟩
  · refine Prog.Solo.ite (fun hyes => absurd hyes hne) fun _ => ?_
    refine Prog.solo_attempt_bind (hI past) ?_
    intro d hd
    rw [hfreed] at hhold
    obtain ⟨e, hexec, hvalue⟩ := hs.commit_refused (hhold.imp (fun h => ⟨h, hpay⟩) fun h => h) d
    refine ⟨_, w, hexec, ?_⟩
    refine Prog.Solo.ite (fun _ => ?_) fun hno => absurd hvalue hno
    exact hrelease _ hfreed hhold

end Settle

/-- **A loop that is over** settles and fails the run. -/
theorem exhausted_comes (h : Going job start fate left checkpoint tokens hold)
    (hs : Stands job .running checkpoint tokens hold w)
    (hover : left = 0 ∨ job.load.maxSteps ≤ startStep checkpoint)
    (hclaimed : claimed.reservation = job.reservationId) :
    Comes policy worker answer job start fate since
      (exhausted claimed job.runId ⟨checkpoint, startStep checkpoint, startUnits checkpoint⟩) w := by
  intro past
  have hfate : fate = ⟨.failed, tokens, (job.load.settled (startUnits checkpoint)).units⟩ := by
    rw [h.course, Workload.outcome_over hover, Workload.units_settled]
    exact congrArg (fun l => Outcome.mk .failed l _) (List.append_nil tokens)
  rw [exhausted, hclaimed]
  refine Prog.Solo.bind (M := fun _ s answer => answer = .ok () ∧
    Stands job .running checkpoint tokens (job.load.settled (startUnits checkpoint)) s)
    (settle_solo (fun _ => h.ready hs) hs h.units (h.hold.imp (fun h => h) fun h => h.2)
      fun _ _ hs' => ⟨rfl, hs'⟩) ?_ ?_
  · rintro past s - ⟨-, hs'⟩
    refine solo_askStore (.fail job.runId "workflow step or model-call limit exceeded") ?_ ?_
    · -- stopped between the two, the loop is over again
      intro hsafe
      have hover' : job.load.maxSteps ≤ startStep checkpoint ∨ job.calls = 0 := by
        rcases hover with rfl | hover
        · exact (h.ends_of_safe hs' hsafe).symm.imp (fun hends => hends) fun heq => heq.symm
        · exact Or.inl hover
      have hgoing : Going job start fate left checkpoint tokens
          (job.load.settled (startUnits checkpoint)) :=
        ⟨h.undone, h.course, h.ends, h.fresh, h.left_le, h.from_start, h.units, h.keyed,
          Or.inr ⟨hover', rfl⟩⟩
      exact hgoing.ready hs' hsafe
    · intro d hd
      obtain ⟨run, w', hexec, hfailed⟩ :=
        hs'.fail "workflow step or model-call limit exceeded" hd
      exact ⟨_, w', hexec, ⟨run, rfl⟩, by rw [hfailed.outcome, hfate]⟩
  · rintro past s e ⟨he, -⟩
    cases he

/-! ### The model and the hooks -/

section Calls

variable {I : Past → RunWorld → Prop} {key : String} {n : ℤ}

theorem callHook_solo (hook : Bool) (call : Outside) (hI : ∀ past, I past w) :
    (callHook hook call).Solo (RunWorld.exec worker.lib policy)
      (Drawn.Works answer job.runtime since) I (fun _ s r => r = .ok () ∧ s = w) past w := by
  refine Prog.Solo.ite (fun _ => ?_) fun _ => ⟨rfl, rfl⟩
  exact Prog.solo_perform (hI past) fun d hd => ⟨_, w, rfl, hd, rfl⟩

/-- **The model answers the key**, with a tracer or without. -/
theorem callModel_solo (hI : ∀ past, I past w) :
    (worker.callModel claimed n key).Solo (RunWorld.exec worker.lib policy)
      (Drawn.Works answer job.runtime since) I (fun _ s r => r = .ok (answer key) ∧ s = w)
      past w := by
  have hoff : ∀ (d : Drawn) (call : Outside), d.Works answer job.runtime since (.outside call) w →
      RunWorld.exec worker.lib policy d (.outside call) w = (.ok (), w) := by
    intro d call hd
    change (d.outside, w) = _
    rw [show d.outside = .ok () from hd]
    rfl
  have hask : ∀ past, (askClock >>= fun now => Prog.perform (Op.model (worker.prompt claimed.run) key
      (max (1 / 100) (claimed.deadline - now)))).Solo (RunWorld.exec worker.lib policy)
      (Drawn.Works answer job.runtime since) I (fun _ s r => r = .ok (answer key) ∧ s = w) past w := by
    intro past
    refine Prog.solo_perform_bind (hI past) fun d _ => ⟨d.clock, w, rfl, ?_⟩
    exact Prog.solo_perform (hI _) fun d hd => ⟨_, w, rfl, hd, rfl⟩
  refine Prog.Solo.ite (fun _ => ?_) fun _ => hask past
  refine Prog.solo_perform_bind (hI past) fun d hd => ⟨(), w, hoff d _ hd, ?_⟩
  refine Prog.Solo.bind (M := fun _ s r => r = .ok (.ok (answer key)) ∧ s = w) ?_ ?_ ?_
  · refine Prog.Solo.attempt (Q := fun _ s r => r = .ok (answer key) ∧ s = w) ?_ ?_
    · refine Prog.Solo.bind (hask _) ?_ ?_
      · rintro past s a ⟨ha, rfl⟩
        refine Prog.solo_perform_bind (hI past) fun d hd => ⟨(), s, hoff d _ hd, ha, rfl⟩
      · rintro past s e ⟨he, -⟩
        cases he
    · rintro past s r ⟨rfl, rfl⟩
      exact ⟨rfl, rfl⟩
  · rintro past s r ⟨hr, rfl⟩
    obtain rfl := Except.ok.inj hr
    exact Prog.solo_perform_bind (hI past) fun d hd => ⟨(), s, hoff d _ hd, rfl, rfl⟩
  · rintro past s e ⟨he, -⟩
    cases he

end Calls

/-! ### The last step -/

/-- A run whose last step is saved is ready. -/
theorem Finishing.ready {c : Checkpoint} (h : Finishing worker job fate c tokens hold)
    (hs : Stands job .running (some c) tokens hold w) : Ready worker job start fate w :=
  .finishing hs (Or.inr rfl) h

/-- **The last step** charges the units and completes the run, or releases the
reservation and fails it if they cannot be paid. -/
theorem finish_comes {c : Checkpoint} (hs : Stands job .running (some c) tokens .held w)
    (hstep : start < c.step) (hdone : isTrue c "done" = true)
    (hemitted : isTrue c "token_emitted" = true) (hu : 0 ≤ c.usageUnits)
    (hfate : fate = if job.load.payable c.usageUnits then ⟨.completed, tokens, c.usageUnits⟩
      else ⟨.failed, tokens, 0⟩) (hclaimed : claimed.reservation = job.reservationId) :
    Comes policy worker answer job start fate since
      (worker.finish claimed job.runId c.usageUnits) w := by
  intro past
  rw [finish, hclaimed]
  cases hpay : job.load.payable c.usageUnits with
  | true =>
    rw [hpay, if_pos rfl] at hfate
    have hready : ∀ {hold s}, hold = .held ∨ hold = .charged c.usageUnits →
        Stands job .running (some c) tokens hold s → Ready worker job start fate s := by
      intro hold s hhold hs
      refine Finishing.ready ⟨hdone, ?_, hu, hpay, hhold⟩ hs
      rw [hfate, hemitted, if_pos rfl, List.append_nil]
    refine Prog.solo_attempt_bind (fun _ => hready (Or.inl rfl) hs) ?_
    intro d hd
    obtain ⟨com, w', hexec, hs'⟩ := hs.commit hu hpay hd
    refine ⟨_, w', hexec, ?_⟩
    refine Prog.Solo.bind (callHook_solo worker.afterCommit _ fun _ _ => hready (Or.inr rfl) hs') ?_ ?_
    · rintro past s - ⟨-, rfl⟩
      refine solo_askStore (.complete job.runId c.usageUnits) (fun _ => hready (Or.inr rfl) hs') ?_
      intro d hd
      obtain ⟨run, w'', hexec, hcompleted⟩ := hs'.complete c.usageUnits hd
      exact ⟨_, w'', hexec, ⟨run, rfl⟩, by rw [hcompleted.outcome, hfate]; rfl⟩
    · rintro past s e ⟨he, -⟩
      cases he
  | false =>
    rw [hpay, if_neg (by decide)] at hfate
    have hnever : ∀ {hold s}, Stands job .running (some c) tokens hold s →
        Safe worker job start s → Ready worker job start fate s := by
      intro hold s hs hsafe
      obtain ⟨-, hcond⟩ := hsafe.of_checkpoint hs hstep
      rw [hdone, if_pos rfl, hpay] at hcond
      cases hcond.1
    refine Prog.solo_attempt_bind (hnever hs) ?_
    intro d _
    obtain ⟨e, hexec, hvalue⟩ := hs.commit_refused (Or.inl ⟨rfl, hpay⟩) d
    refine ⟨_, w, hexec, ?_⟩
    refine Prog.Solo.ite (fun _ => ?_) fun hno => absurd hvalue hno
    refine Prog.Solo.bind (M := fun _ s answer => answer = .ok () ∧
      Stands job .running (some c) tokens (job.load.settled 0) s)
      (settle_solo (fun _ => hnever hs) hs le_rfl (Or.inl rfl) fun _ _ hs' => ⟨rfl, hs'⟩) ?_ ?_
    · rintro past s - ⟨-, hs'⟩
      refine solo_askStore (.fail job.runId "actual usage exceeded reservation") (hnever hs') ?_
      intro d hd
      obtain ⟨run, w', hexec, hfailed⟩ := hs'.fail "actual usage exceeded reservation" hd
      exact ⟨_, w', hexec, ⟨run, rfl⟩, by rw [hfailed.outcome, hfate]; rfl⟩
    · rintro past s e ⟨he, -⟩
      cases he

/-! ### A turn of the loop -/

/-- The model, as the workload of a job has it. -/
def Answers (answer : String → ModelResult) (job : Job) : Prop :=
  ∀ n, job.load.answer n = answer (modelKey job.runId n)

/-- What a claimed run gives its worker are the job's limits. -/
structure Serves (job : Job) (since : ℚ) (claimed : Claimed) : Prop where
  steps : claimed.run.maxSteps = job.load.maxSteps
  reservation : claimed.reservation = job.reservationId
  deadline : since + job.runtime ≤ claimed.deadline

/-- **After a step that is neither the last nor asks for approval**, the loop goes on
with one model call less. -/
theorem Going.next {c : Checkpoint} {a : ModelResult} {n u : ℤ}
    (h : Going job start fate (left + 1) checkpoint tokens .held)
    (hn : startStep checkpoint = n) (hu : startUnits checkpoint = u) (hlt : n < job.load.maxSteps)
    (ha : job.load.answer n = a) (hasks : present a.approvalId = none) (hdone : a.done = false)
    (hc : c = (withResult job (n + 1) a (u + a.usageUnits)).emitted) :
    Going job start fate left (some c) (tokens ++ [tokenOf a.output]) .held := by
  subst hn hu ha hc
  have hfrom := h.from_start
  have hle := h.left_le
  refine ⟨?_, ?_, fun hends => (h.ends hends).next hlt hasks hdone, ?_, by omega, ?_, ?_, ?_, Or.inl rfl⟩
  · exact hdone
  · rw [h.course, Workload.outcome_next hlt hasks hdone, ← Outcome.after_append]
    rfl
  · intro hfresh
    have hstep : startStep checkpoint + 1 ≤ start := hfresh _ rfl
    omega
  · change start ≤ startStep checkpoint + 1
    omega
  · exact add_nonneg h.units (ModelResult.nonneg _)
  · rintro c hc
    obtain rfl := Option.some.inj hc
    exact Or.inl rfl

/-- **A step that asks for approval** is announced, and the run waits. -/
theorem awaitApproval_comes {c : Checkpoint} {id : String}
    (hs : Stands job .running (some c) tokens .held w) (hstep : start < c.step)
    (hasks : present c.approvalId = some id)
    (hfate : fate = ⟨.waitingApproval, tokens ++ [tokenOf "[approval required]"], 0⟩) :
    Comes policy worker answer job start fate since (awaitApproval job.runId id) w := by
  intro past
  have hnever : ∀ {tokens s} {c : Checkpoint}, start < c.step → present c.approvalId = some id →
      Stands job .running (some c) tokens .held s → Safe worker job start s →
      Ready worker job start fate s := by
    intro tokens s c hstep hasks hs hsafe
    obtain ⟨hnone, -⟩ := hsafe.of_checkpoint hs hstep
    rw [hasks] at hnone
    cases hnone
  refine Prog.solo_perform_bind (hnever hstep hasks hs) ?_
  intro d hd
  obtain ⟨e, w', hexec, hs'⟩ := hs.putOut "[approval required]" hd
  refine ⟨e, w', hexec, ?_⟩
  refine solo_askStore (.transition job.runId .waitingApproval [("approval_id", .str id)])
    (hnever (c := c.emitted) hstep hasks hs') ?_
  intro d hd
  obtain ⟨run, w'', hexec, hwaits⟩ := hs'.wait [("approval_id", .str id)] hd
  exact ⟨_, w'', hexec, ⟨run, rfl⟩, by rw [hwaits.outcome, hfate]; rfl⟩

/-- **After the text of a step is out**, the run is finished or the loop goes on. -/
theorem emitted_comes {c : Checkpoint} {again : LoopState → Program Run}
    (hs : Stands job .running (some c.emitted) tokens .held w) (hstep : start < c.step)
    (hu : 0 ≤ c.usageUnits) (hserves : Serves job since claimed)
    (hfinal : isTrue c "done" = true → fate = if job.load.payable c.usageUnits then
      ⟨.completed, tokens, c.usageUnits⟩ else ⟨.failed, tokens, 0⟩)
    (hnext : isTrue c "done" = false → Going job start fate left (some c.emitted) tokens .held)
    (hagain : ∀ {c tokens w}, Going job start fate left (some c) tokens .held →
      Stands job .running (some c) tokens .held w →
      Comes policy worker answer job start fate since (again ⟨some c, c.step, c.usageUnits⟩) w) :
    Comes policy worker answer job start fate since
      (askStore (.checkpoint job.runId) >>= fun checkpoint =>
        if isTrue c "done" then worker.finish claimed job.runId c.usageUnits
        else again ⟨checkpoint, c.step, c.usageUnits⟩) w := by
  intro past
  refine Prog.solo_perform_bind ?_ ?_
  · intro hsafe
    cases hdone : isTrue c "done" with
    | true =>
      obtain ⟨-, hcond⟩ := hsafe.of_checkpoint hs hstep
      rw [done_emitted, hdone, if_pos rfl] at hcond
      have hpay : job.load.payable c.usageUnits = true := hcond.1
      refine Finishing.ready ⟨(done_emitted c).trans hdone, ?_, hu, hpay, Or.inl rfl⟩ hs
      rw [hfinal hdone, if_pos hpay, emitted_emitted, if_pos rfl, List.append_nil]
      rfl
    | false => exact (hnext hdone).ready hs hsafe
  · intro d _
    refine ⟨some c.emitted, w, hs.read d, ?_⟩
    refine Prog.Solo.ite (fun hdone => ?_) fun hundone => ?_
    · exact finish_comes hs hstep ((done_emitted c).trans hdone) (emitted_emitted c) hu (hfinal hdone)
        hserves.reservation _
    · exact hagain (hnext (Bool.eq_false_iff.mpr hundone)) hs _

/-- **What follows the model's answer.** -/
theorem record_comes {s : LoopState} {again : LoopState → Program Run} {key : String}
    (h : Going job start fate (left + 1) (some (beforeCall job s.step key s.usedUnits)) tokens .held)
    (hs : Stands job .running (some (beforeCall job s.step key s.usedUnits)) tokens .held w)
    (hlt : s.step < job.load.maxSteps) (hserves : Serves job since claimed)
    (hagain : ∀ {c tokens w}, Going job start fate left (some c) tokens .held →
      Stands job .running (some c) tokens .held w →
      Comes policy worker answer job start fate since (again ⟨some c, c.step, c.usageUnits⟩) w) :
    Comes policy worker answer job start fate since
      (worker.record claimed job.runId s (job.load.answer s.step) again) w := by
  intro past
  generalize ha : job.load.answer s.step = a
  have hfrom : start ≤ s.step := h.from_start
  have hstep : start < s.step + 1 := by omega
  have hnonneg : 0 ≤ s.usedUnits + a.usageUnits := add_nonneg h.units a.nonneg
  refine Prog.Solo.bind (callHook_solo worker.afterModel _ fun _ => h.ready hs) ?_ ?_
  swap
  · rintro past s e ⟨he, -⟩
    cases he
  rintro past w - ⟨-, rfl⟩
  refine Prog.solo_perform_bind (h.ready hs) ?_
  intro d _
  obtain ⟨cp, w', hexec, hs'⟩ := hs.save d (s.step + 1) (resultState (s.step + 1) a) none
    a.approvalId (s.usedUnits + a.usageUnits)
  refine ⟨cp, w', hexec, ?_⟩
  change Stands job .running (some (withResult job (s.step + 1) a (s.usedUnits + a.usageUnits)))
    tokens .held w' at hs'
  cases hasks : present a.approvalId with
  | some id =>
    refine awaitApproval_comes hs' hstep hasks ?_ _
    rw [h.course]
    exact congrArg (Outcome.after tokens) (Workload.outcome_asks hlt (ha.symm ▸ hasks))
  | none =>
    have hfinal : a.done = true → fate = if job.load.payable (s.usedUnits + a.usageUnits) then
        ⟨.completed, tokens ++ [tokenOf a.output], s.usedUnits + a.usageUnits⟩
        else ⟨.failed, tokens ++ [tokenOf a.output], 0⟩ := by
      intro hdone
      rw [h.course]
      change Outcome.after tokens (job.load.outcome (left + 1) s.step s.usedUnits) = _
      rw [Workload.outcome_done hlt (ha.symm ▸ hasks) (ha.symm ▸ hdone), ha, Workload.finished]
      split <;> rfl
    refine Prog.solo_perform_bind ?_ ?_
    · -- the text is not out: only a last step can be taken up
      intro hsafe
      obtain ⟨-, hcond⟩ := hsafe.of_checkpoint hs' hstep
      rw [done_withResult, unsaid_withResult] at hcond
      cases hdone : a.done with
      | true =>
        rw [hdone, if_pos rfl] at hcond
        have hpay : job.load.payable (s.usedUnits + a.usageUnits) = true := hcond.1
        rcases hcond.2 with hemitted | hfixed
        · cases hemitted
        · refine Finishing.ready (c := withResult job (s.step + 1) a (s.usedUnits + a.usageUnits))
            ⟨hdone, ?_, hnonneg, hpay, Or.inl rfl⟩ hs'
          rw [hfinal hdone, if_pos hpay]
          exact congrArg (fun text => Outcome.mk _ (tokens ++ [Json.str text]) _) hfixed.symm
      | false =>
        rw [hdone, if_neg (by decide)] at hcond
        cases hcond.1
    · intro d hd
      obtain ⟨e, w'', hexec, hs''⟩ := hs'.putOut a.output hd
      refine ⟨e, w'', hexec, ?_⟩
      exact emitted_comes hs'' hstep hnonneg hserves hfinal
        (fun hdone => h.next rfl rfl hlt ha hasks hdone rfl) hagain _

/-- The key of the next call is its step's. -/
theorem inflightKey_of_keyed (hkeyed : ∀ c, checkpoint = some c → Keyed job c) :
    inflightKey job.runId ⟨checkpoint, startStep checkpoint, startUnits checkpoint⟩
      = modelKey job.runId (startStep checkpoint) := by
  cases checkpoint with
  | none => rfl
  | some c =>
    change (if c.step = c.step then _ else _) = _
    rw [if_pos rfl]
    rcases hkeyed c rfl with hnone | hkey
    · rw [hnone]
      rfl
    · rw [hkey, present, Option.filter_some]
      split <;> rfl

/-- **One turn of the loop.** -/
theorem iterate_comes {again : LoopState → Program Run}
    (h : Going job start fate (left + 1) checkpoint tokens hold)
    (hs : Stands job .running checkpoint tokens hold w)
    (hlt : startStep checkpoint < job.load.maxSteps) (hanswers : Answers answer job)
    (hserves : Serves job since claimed)
    (hagain : ∀ {c tokens w}, Going job start fate left (some c) tokens .held →
      Stands job .running (some c) tokens .held w →
      Comes policy worker answer job start fate since (again ⟨some c, c.step, c.usageUnits⟩) w) :
    Comes policy worker answer job start fate since (worker.iterate claimed job.runId
      ⟨checkpoint, startStep checkpoint, startUnits checkpoint⟩ again) w := by
  intro past
  have hle := h.left_le
  obtain rfl : hold = .held := by
    rcases h.hold with hheld | ⟨hover, -⟩
    · exact hheld
    · omega
  refine Prog.solo_perform_bind (h.ready hs) ?_
  intro d _
  obtain ⟨run, hexec, hfits⟩ := hs.get d
  refine ⟨run, w, hexec, ?_⟩
  refine Prog.Solo.ite (fun hcancel => absurd hcancel (by simp [hfits.uncancelled])) fun _ => ?_
  refine Prog.solo_perform_bind (h.ready hs) fun d hd => ⟨d.clock, w, rfl, ?_⟩
  refine Prog.Solo.ite (fun hlate => ?_) fun _ => ?_
  · exact absurd (hserves.deadline.trans hlate) (not_le.mpr hd.2)
  refine Prog.solo_perform_bind (h.ready hs) fun d hd => ?_
  have hkey := inflightKey_of_keyed h.keyed
  obtain ⟨cp, w', hexec, hs'⟩ := hs.save d (startStep checkpoint)
    [("step", .int (startStep checkpoint))]
    (some (inflightKey job.runId ⟨checkpoint, startStep checkpoint, startUnits checkpoint⟩)) none
    (startUnits checkpoint)
  refine ⟨cp, w', hexec, ?_⟩
  rw [hkey] at hs' ⊢
  -- the step is called again with the same key
  have hcalled : Going job start fate (left + 1) (some (beforeCall job (startStep checkpoint)
      (modelKey job.runId (startStep checkpoint)) (startUnits checkpoint))) tokens .held := by
    refine ⟨rfl, h.course, h.ends, fun hfresh => h.fresh ?_, hle, h.from_start, h.units, ?_,
      Or.inl rfl⟩
    · rintro c rfl
      exact hfresh (beforeCall job _ _ _) rfl
    · rintro c hc
      obtain rfl := Option.some.inj hc
      exact Or.inr rfl
  refine Prog.Solo.bind (callModel_solo fun _ => hcalled.ready hs') ?_ ?_
  · rintro past s a ⟨ha, rfl⟩
    obtain rfl := Except.ok.inj ha
    have hrecord : Comes policy worker answer job start fate since (worker.record claimed job.runId
        ⟨checkpoint, startStep checkpoint, startUnits checkpoint⟩
        (job.load.answer (startStep checkpoint)) again) s :=
      record_comes hcalled hs' hlt hserves hagain
    rw [hanswers] at hrecord
    exact hrecord _
  · rintro past s e ⟨he, -⟩
    cases he

/-- **The loop** comes to what was to come, by induction on the model calls left. -/
theorem loop_comes (h : Going job start fate left checkpoint tokens hold)
    (hs : Stands job .running checkpoint tokens hold w) (hanswers : Answers answer job)
    (hserves : Serves job since claimed) :
    Comes policy worker answer job start fate since (worker.loop claimed job.runId left
      ⟨checkpoint, startStep checkpoint, startUnits checkpoint⟩) w := by
  induction left generalizing checkpoint tokens hold w with
  | zero => exact exhausted_comes h hs (Or.inl rfl) hserves.reservation
  | succ left ih =>
    intro past
    refine Prog.Solo.ite (fun hlt => ?_) fun hover => ?_
    · rw [hserves.steps] at hlt
      exact iterate_comes h hs hlt hanswers hserves (fun h hs => ih h hs) past
    · rw [hserves.steps, not_lt] at hover
      exact exhausted_comes h hs (Or.inr hover) hserves.reservation past

/-! ### An execution -/

theorem Finishing.emitted {c : Checkpoint} (h : Finishing worker job fate c tokens hold)
    (hunsaid : isTrue c "token_emitted" = false) :
    Finishing worker job fate c.emitted (tokens ++ [tokenOf (worker.lastOutput c)]) hold where
  done := (done_emitted c).trans h.done
  course := by
    rw [h.course, hunsaid, emitted_emitted, if_neg (by decide), if_pos rfl, List.append_nil]
    rfl
  units := h.units
  payable := h.payable
  hold := h.hold

/-- **A saved last step** is taken up: its text is put out unless it is out, its units
are charged, and the run is completed. -/
theorem takeUp_comes {c : Checkpoint} (h : Finishing worker job fate c tokens hold)
    (hs : Stands job .running (some c) tokens hold w) :
    Comes policy worker answer job start fate since
      (worker.takeUp job.reservationId job.runId c) w := by
  intro past
  -- the text is out, whether it was before or is now
  refine Prog.Solo.bind (M := fun _ s answer => answer = .ok () ∧ ∃ c' tokens',
    c'.usageUnits = c.usageUnits ∧ isTrue c' "token_emitted" = true ∧
      Finishing worker job fate c' tokens' hold ∧ Stands job .running (some c') tokens' hold s) ?_ ?_ ?_
  · refine Prog.Solo.ite (fun hsaid => ?_) fun hunsaid => ?_
    · exact ⟨rfl, c, tokens, rfl, hsaid, h, hs⟩
    · refine Prog.solo_perform_bind (fun _ => h.ready hs) ?_
      intro d hd
      obtain ⟨e, w', hexec, hs'⟩ := hs.putOut (worker.lastOutput c) hd
      exact ⟨e, w', hexec, rfl, c.emitted, _, rfl, emitted_emitted c,
        h.emitted (Bool.eq_false_iff.mpr hunsaid), hs'⟩
  · rintro past s - ⟨-, c', tokens', hunits, hsaid, h', hs'⟩
    rw [← hunits]
    have hfate := h'.course
    rw [hsaid, if_pos rfl, List.append_nil] at hfate
    have hlast : ∀ {past s}, Stands job .running (some c') tokens' (.charged c'.usageUnits) s →
        (askStore (.complete job.runId c'.usageUnits)).Solo (RunWorld.exec worker.lib policy)
          (Drawn.Works answer job.runtime since)
          (fun _ s => Safe worker job start s → Ready worker job start fate s) (Come job fate)
          past s := by
      intro past s hs'
      have hcharged : Finishing worker job fate c' tokens' (.charged c'.usageUnits) :=
        ⟨h'.done, h'.course, h'.units, h'.payable, Or.inr rfl⟩
      refine solo_askStore (.complete job.runId c'.usageUnits) (fun _ => hcharged.ready hs') ?_
      intro d hd
      obtain ⟨run, w', hexec, hcompleted⟩ := hs'.complete c'.usageUnits hd
      exact ⟨_, w', hexec, ⟨run, rfl⟩, by rw [hcompleted.outcome, hfate]; rfl⟩
    refine Prog.solo_perform_bind (fun _ => h'.ready hs') ?_
    intro d hd
    rcases h'.hold with rfl | rfl
    · obtain ⟨com, w', hexec, hs''⟩ := hs'.commit h'.units h'.payable hd
      exact ⟨com, w', hexec, hlast hs''⟩
    · obtain ⟨com, hexec⟩ := hs'.commit_again h'.units d
      exact ⟨com, s, hexec, hlast hs'⟩
  · rintro past s e ⟨he, -⟩
    cases he

/-- What `execute` does with the checkpoint it finds. -/
def resume (worker : BoundedWorker) (job : Job) (run : Run) (checkpoint : Option Checkpoint) :
    Program Run :=
  match checkpoint.filter fun checkpoint => isTrue checkpoint "done" with
  | some saved => worker.takeUp job.reservationId job.runId saved
  | none => do
    let now ← askClock
    worker.loop ⟨run, job.reservationId, now + run.maxRuntimeSeconds⟩ job.runId
      run.maxModelCalls.toNat ⟨checkpoint, startStep checkpoint, startUnits checkpoint⟩

/-- A run that is active and has its reservation is claimed, and its checkpoint read. -/
theorem execute_resumes {state : RunState} (hs : Stands job state checkpoint tokens hold w)
    (hactive : state = .queued ∨ state = .running)
    (hready : ∀ {state s}, (state = .queued ∨ state = .running) →
      Stands job state checkpoint tokens hold s → Ready worker job start fate s)
    (hresume : ∀ {run s}, job.Fits run → Stands job .running checkpoint tokens hold s →
      Comes policy worker answer job start fate since (resume worker job run checkpoint) s) :
    Comes policy worker answer job start fate since (worker.execute job.runId) w := by
  intro past
  refine Prog.solo_perform_bind (fun _ => hready hactive hs) ?_
  intro d hd
  obtain ⟨run, w', hexec, hrunning, hfits, hs'⟩ := hs.claim hactive hd
  refine ⟨run, w', hexec, ?_⟩
  refine Prog.Solo.ite (fun hended => ?_) fun _ => ?_
  · rw [hrunning] at hended
    exact absurd hended (by decide)
  have hreserved : present run.reservationId = some job.reservationId := by
    rw [hfits.reservation, hs'.reserved]
  rw [hreserved]
  refine Prog.solo_perform_bind (fun _ => hready (Or.inr rfl) hs') ?_
  intro d _
  exact ⟨checkpoint, w', hs'.read d, hresume hfits hs' _⟩

/-- **An execution that begins in a ready state** comes to what was to come. -/
theorem execute_comes (h : Ready worker job start fate w) (hanswers : Answers answer job) :
    Comes policy worker answer job start fate since (worker.execute job.runId) w := by
  cases h with
  | @going state checkpoint tokens hold hs hactive h =>
    refine execute_resumes hs hactive (fun hactive hs => .going hs hactive h) ?_
    intro run s hfits hs' past
    have hundone : checkpoint.filter (fun checkpoint => isTrue checkpoint "done") = none := by
      cases checkpoint with
      | none => rfl
      | some c => exact Option.filter_some_neg (by simp [show isTrue c "done" = false from h.undone])
    rw [resume, hundone]
    refine Prog.solo_perform_bind (fun _ => .going hs' (Or.inr rfl) h) ?_
    intro d hd
    refine ⟨d.clock, s, rfl, ?_⟩
    rw [hfits.calls]
    refine loop_comes h hs' hanswers ⟨hfits.steps, rfl, ?_⟩ _
    change since + job.runtime ≤ d.clock + run.maxRuntimeSeconds
    rw [hfits.runtime]
    exact add_le_add_left hd.1 _
  | @finishing state c tokens hold hs hactive h =>
    refine execute_resumes hs hactive (fun hactive hs => .finishing hs hactive h) ?_
    intro run s hfits hs' past
    have hdone : (some c).filter (fun checkpoint => isTrue checkpoint "done") = some c :=
      Option.filter_some_pos h.done
    rw [resume, hdone]
    exact takeUp_comes h hs' past
  | @unreserved state checkpoint tokens hs hactive hnone h =>
    intro past
    refine Prog.solo_perform_bind (fun _ => .unreserved hs hactive hnone h) ?_
    intro d hd
    obtain ⟨run, db, hclaim, hrunning, hfits, hs'⟩ := hs.claim hactive hd.event
    refine ⟨run, _, exec_runs_ok hclaim, ?_⟩
    refine Prog.Solo.ite (fun hended => ?_) fun _ => ?_
    · rw [hrunning] at hended
      exact absurd hended (by decide)
    rw [hfits.reservation, hnone]
    refine solo_askStore (.fail job.runId "missing credit reservation")
      (fun _ => .unreserved hs' (Or.inr rfl) hnone h) ?_
    intro d hd
    obtain ⟨run, db', hmoved, hfailed⟩ := hs'.move
      (show RunState.failed ∈ RunState.running.transitions by decide) hd.event
    refine ⟨_, _, exec_runs_ok hmoved, ⟨run, rfl⟩, ?_⟩
    rw [hfailed.outcome, h]
  | @idle row hrow hidle h =>
    intro past
    refine Prog.solo_perform_bind (fun _ => .idle hrow hidle h) ?_
    intro d _
    refine ⟨row.toRun, w, exec_runs_ok (RunStore.claim_idle hrow hidle), ?_⟩
    refine Prog.Solo.ite (fun _ => ⟨⟨_, rfl⟩, h⟩) fun hactive => ?_
    refine absurd ?_ hactive
    obtain ⟨hqueued, hrunning⟩ := hidle
    cases hstate : row.state <;> simp_all

end AiSaas
