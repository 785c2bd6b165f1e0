import AiSaas.AgentOrchestrator.Workflow
import AiSaas.Kernel.Statements

/-!
# Steps of the workflow

Most of what the workflow asks for says nothing about its plan: it reads, it leaves events,
checkpoints and artifacts, it ends a run that has failed.  Such steps are plain, and the
methods that consist of them are told here once.

## Main definitions

* `Plain` — an operation that neither asks the model nor hands a plan to the worker, nor
  moves a run to a state that has to be earned.
* `Body.Asks`, `Body.Trail` — what the statements of the `try` ask for and have done.

## Main results

* `Body.Trail.bind`, `Body.Asks.trail` — the rules for them.
* `asks_finishFailed`, `asks_intake`, … — the plain methods.
-/

namespace AiSaas.AgentOrchestrator

open Kernel Relational Transaction Processes

/-- What a call has done, newest first. -/
abbrev Past := List (Entry WorkflowOp WorkflowOp.Ans Raised)

/-- The states that a run has to earn. -/
def earned : List String := ["waiting_approval", "plan_only", "verified"]

/-- An operation that neither asks the model nor hands a plan to the worker, nor moves a run
to a state that has to be earned. -/
inductive Plain : WorkflowOp → Prop
  | piece {op : StoreOp} (h : Piece op) : Plain (.store op)
  | createRun (args : NewRun) : Plain (.store (.createRun args))
  | transition {args : Move} (h : args.state ∉ earned) : Plain (.store (.transition args))
  | appendEvent (runId tenantId name : String) (payload : Mapping) :
      Plain (.store (.appendEvent runId tenantId name payload))
  | saveCheckpoint (runId tenantId node : String) (state : Mapping) :
      Plain (.store (.saveCheckpoint runId tenantId node state))
  | consumeApproval (args : Consumption) : Plain (.store (.consumeApproval args))
  | checkpoint (runId tenantId : String) : Plain (.checkpoint runId tenantId)
  | deadline : Plain .deadline
  | startTrace (name : String) (attributes : Mapping) : Plain (.startTrace name attributes)
  | finishTrace (traceId : String) (outputs : Option Mapping) (error : Option TraceError) :
      Plain (.finishTrace traceId outputs error)
  | record (name : String) (payload : Mapping) : Plain (.record name payload)
  | graph (runId node : String) (state : Value) : Plain (.graph runId node state)
  | checkout : Plain .checkout
  | lookup (context : Mapping) : Plain (.lookup context)
  | close (worker : Worker) : Plain (.close worker)
  | writeArtifact (artifactId : String) (package : Package) :
      Plain (.writeArtifact artifactId package)

/-! ### Rules -/

section Rules

variable {α β : Type} {A : WorkflowOp → Prop} {P : Past → WorkflowOp → Prop} {past : Past}

theorem Flow.ofStore_bind (p : Store α) (f : α → Store β) :
    Flow.ofStore (p >>= f) = Flow.ofStore p >>= fun a => Flow.ofStore (f a) := by
  change Flow.ofStore (p.bind f) = (Flow.ofStore p).bind fun a => Flow.ofStore (f a)
  induction p with
  | done r => cases r <;> rfl
  | call op next ih =>
    simp only [Prog.bind, Flow.ofStore]
    exact congrArg _ (funext fun r => ih r)

/-- The pieces of a program of the store are plain. -/
theorem asks_ofStore {p : Store α} (h : p.Asks Piece) : (Flow.ofStore p).Asks Plain := by
  induction h with
  | done r => exact .done r
  | call asked _ ih => exact .call (.piece asked) ih

theorem asks_read (f : Kernel.Database → Except Raised α) : (Flow.read f).Asks Plain :=
  (Prog.asks_perform (.piece .look)).bind fun _ => .done _

theorem asks_read_bind {f : Kernel.Database → Except Raised α} {next : α → Flow β}
    (h : ∀ a, (next a).Asks Plain) : (Flow.read f >>= next).Asks Plain := (asks_read f).bind h

theorem asks_flow_ofExcept (x : Except Raised α) : (Flow.ofExcept x).Asks A := .done x

theorem asks_flow_ofExcept_bind {x : Except Raised α} {next : α → Flow β}
    (h : ∀ a, (next a).Asks A) : (Flow.ofExcept x >>= next).Asks A := (Prog.Asks.done x).bind h

theorem asks_flow_perform {op : WorkflowOp} (h : A op) : (Flow.perform op).Asks A :=
  Prog.asks_perform h

theorem asks_flow_perform_bind {op : WorkflowOp} {next : op.Ans → Flow β} (h : A op)
    (hnext : ∀ a, (next a).Asks A) : (Flow.perform op >>= next).Asks A :=
  (Prog.asks_perform h).bind hnext

/-- What a statement of the `try` has come to. -/
def settled (r : Except Raised (Except Raised α × Mapping)) : Except Raised α := r.bind Prod.fst

namespace Body

/-- What a statement may ask for, whatever the dict. -/
def Asks (A : WorkflowOp → Prop) (m : Body α) : Prop := ∀ values, (m values).Asks A

/-- A statement on its trail, whatever the dict. -/
def Trail (P : Past → WorkflowOp → Prop) (M : Past → Except Raised α → Prop) (past : Past)
    (m : Body α) : Prop := ∀ values, (m values).Trail P (fun past r => M past (settled r)) past

variable {m : Body α} {f : α → Body β} {p : Flow α} {M : Past → Except Raised α → Prop}
  {N : Past → Except Raised β → Prop}

theorem asks_pure (a : α) : (pure a : Body α).Asks A := fun _ => .done _

theorem asks_ofExcept (x : Except Raised α) : (ofExcept x).Asks A := fun _ => .done _

theorem asks_update (values : Mapping) : (update values).Asks A := fun _ => .done _

theorem asks_lift (h : p.Asks A) : (lift p).Asks A := fun _ => h.attempt.bind fun _ => .done _

theorem asks_reading {p : Mapping → Flow α} (h : ∀ values, (p values).Asks A) :
    (reading p).Asks A := fun values => asks_lift (h values) values

theorem Asks.bind (h : m.Asks A) (hf : ∀ a, (f a).Asks A) : (m >>= f).Asks A := by
  intro values
  refine (h values).bind fun r => ?_
  obtain ⟨r, values'⟩ := r
  cases r with
  | ok a => exact hf a values'
  | error e => exact .done _

/-- **The trail of two statements**: the second starts from the past the first has left,
unless the first raises. -/
theorem Trail.bind (h : m.Trail P M past) (hok : ∀ past a, M past (.ok a) → (f a).Trail P N past)
    (herror : ∀ past e, M past (.error e) → N past (.error e)) : (m >>= f).Trail P N past := by
  intro values
  refine (h values).bind ?_ fun past e hM => herror past e hM
  intro past r hM
  obtain ⟨r, values'⟩ := r
  cases r with
  | ok a => exact hok past a hM values'
  | error e => exact herror past e hM

theorem trail_lift (h : Prog.Trail P M past p) : (lift p).Trail P M past := by
  intro values
  refine (h.attempt (M := fun past r => M past (r.bind id)) fun past r hM => hM).bind ?_ ?_
  · exact fun past r hM => hM
  · exact fun past e hM => hM

theorem trail_reading {p : Mapping → Flow α} (h : ∀ values, Prog.Trail P M past (p values)) :
    (reading p).Trail P M past := fun values => trail_lift (h values) values

theorem trail_ofExcept_bind {x : Except Raised α} (hok : ∀ a, x = .ok a → (f a).Trail P N past)
    (herror : ∀ e, x = .error e → N past (.error e)) : (ofExcept x >>= f).Trail P N past := by
  intro values
  cases x with
  | ok a => exact hok a rfl values
  | error e => exact herror e rfl

theorem trail_pure {a : α} (h : M past (.ok a)) : (pure a : Body α).Trail P M past := fun _ => h

theorem trail_update_bind {values : Mapping} {g : Unit → Body β} (h : (g ()).Trail P N past) :
    (update values >>= g).Trail P N past := fun _ => h _

theorem Trail.ite {c : Prop} [Decidable c] {m' : Body α} (hpos : c → m.Trail P M past)
    (hneg : ¬ c → m'.Trail P M past) : (if c then m else m').Trail P M past := by
  split
  · next h => exact hpos h
  · next h => exact hneg h

theorem Trail.mono {M' : Past → Except Raised α → Prop} (h : m.Trail P M past)
    (hM : ∀ past r, M past r → M' past r) : m.Trail P M' past :=
  fun values => (h values).mono (fun _ _ hP => hP) fun past r => hM past (settled r)

/-- Plain statements, where the trail lets them pass. -/
theorem Asks.trail (h : m.Asks A) (hP : ∀ past' op, Grows A past past' → A op → P past' op) :
    m.Trail P (fun past' _ => Grows A past past') past := fun values => (h values).trail hP

end Body

end Rules

/-! ### Plain methods -/

section Methods

variable {py : Interpreter} {services : Services} {key : RunKey} {values : Mapping}
  {found : Analysis} {proposalId : Option String} {job : Job}

theorem asks_saveNode (node : String) : (saveNode py services key node values).Asks Plain := by
  unfold saveNode
  refine asks_flow_perform_bind (.saveCheckpoint _ _ _ _) fun _ => ?_
  exact Prog.Asks.ite (fun _ => asks_flow_perform (.graph _ _ _)) fun _ => .done _

theorem asks_event (name : String) (payload : Mapping) :
    (event py services key name payload).Asks Plain := by
  unfold event
  refine asks_flow_perform_bind (.appendEvent _ _ _ _) fun _ => ?_
  exact Prog.Asks.ite (fun _ => asks_flow_perform (.record _ _)) fun _ => .done _

theorem asks_move {state : String} (h : state ∉ earned) (payload : Mapping)
    (error : Option String) : (move key state payload error).Asks Plain :=
  asks_flow_perform (.transition h)

theorem asks_storedReport : (storedReport key).Asks Plain := by
  unfold storedReport
  refine asks_read_bind fun value => ?_
  cases value with
  | some value => exact asks_flow_ofExcept _
  | none => exact .done _

theorem asks_usageOf : (usageOf key).Asks Plain :=
  asks_read_bind fun _ => asks_flow_ofExcept _

theorem asks_safeProposalView (tenantId : String) :
    (safeProposalView proposalId tenantId).Asks Plain := by
  unfold safeProposalView
  refine Prog.Asks.ite (fun _ => (asks_read _).attempt.bind fun view => ?_) fun _ => .done _
  cases view with
  | ok view => exact .done _
  | error e => exact Prog.Asks.ite (fun _ => .done _) fun _ => .done _

theorem asks_outcomeReport (run : RunLifecycle) (proposal : Option ProposalView) :
    (outcomeReport run proposal).Asks Plain := by
  cases proposal with
  | some view => exact .done _
  | none => exact asks_read _

theorem asks_outcomePayload (run : RunLifecycle) (approval : Option ApprovalToken) :
    (outcomePayload run found approval proposalId).Asks Plain :=
  (asks_safeProposalView _).bind fun _ => (asks_outcomeReport _ _).bind fun _ => .done _

theorem asks_outcome (run : RunLifecycle) (saved : Option (String × JsonText.Value)) :
    (outcome py run saved proposalId).Asks Plain := by
  cases saved with
  | none => exact (asks_safeProposalView _).bind fun _ => .done _
  | some saved =>
    refine asks_flow_ofExcept_bind fun values => asks_flow_ofExcept_bind fun items => ?_
    refine asks_flow_ofExcept_bind fun requirements => asks_flow_ofExcept_bind fun items => ?_
    refine asks_flow_ofExcept_bind fun evidence => asks_flow_ofExcept_bind fun plan => ?_
    exact (asks_safeProposalView _).bind fun _ => (asks_outcomeReport _ _).bind fun _ => .done _

theorem asks_saveOutputsFor (snapshot : Option Mapping) :
    (saveOutputsFor py key proposalId snapshot found).Asks Plain := by
  cases snapshot with
  | none => exact .done _
  | some snapshot =>
    refine Prog.Asks.ite (fun _ => ?_) fun _ => .done _
    exact asks_storedReport.bind fun _ => asks_ofStore (asks_saveProposalOutputs_pieces _)

theorem asks_persistReview (plan : ProjectPacks.Plan) (report : ReleaseReport) :
    (persistReview py services key plan report).Asks Plain := by
  unfold persistReview
  refine Prog.Asks.ite (fun _ => ?_) fun _ => .done _
  refine asks_flow_perform_bind (.writeArtifact _ _) fun artifact => ?_
  exact (asks_event _ _).bind fun _ => asks_ofStore (asks_recordArtifact_pieces _)

theorem asks_saveClosing (status reason : String) (approvalBypass : ℤ) :
    (saveClosing py key status found approvalBypass reason).Asks Plain := by
  unfold saveClosing
  split
  · refine asks_usageOf.bind fun usage => asks_read_bind fun run => ?_
    exact asks_ofStore (asks_saveReport_pieces _ _ _)
  · exact .done _

theorem asks_finishFailed (reason : String) :
    (finishFailed py services key found values reason proposalId).Asks Plain := by
  unfold finishFailed
  refine (asks_saveClosing _ _ _).bind fun _ => (asks_move (by decide) _ _).bind fun run => ?_
  refine Prog.Asks.ite (fun _ => ?_) fun _ => asks_outcomePayload _ _
  refine (asks_saveNode _).bind fun _ => (asks_saveOutputsFor _).bind fun _ => ?_
  exact asks_outcomePayload _ _

theorem asks_finishRejected (reason : String) :
    (finishRejected py services key found values reason).Asks Plain := by
  unfold finishRejected
  refine (asks_saveClosing _ _ _).bind fun _ => (asks_move (by decide) _ _).bind fun run => ?_
  refine (asks_saveNode _).bind fun _ => ?_
  refine Prog.Asks.ite (fun _ => ?_) fun _ => asks_outcomePayload _ _
  exact (asks_saveOutputsFor _).bind fun _ => asks_outcomePayload _ _

theorem asks_budgetStop (decision : BudgetDecision) :
    (budgetStop py services key decision values found).Asks Plain := by
  unfold budgetStop
  refine (asks_move ?_ _ _).bind fun run => (asks_saveNode _).bind fun _ =>
    asks_outcomePayload _ _
  split <;> decide

theorem asks_refreshProposal (tenantId : String) (snapshot : Mapping) (id : String) :
    (refreshProposal py services id tenantId snapshot).Asks Plain := by
  unfold refreshProposal
  refine (asks_ofStore (asks_revalidateProposal_pieces _ _ _ _)).bind fun _ => ?_
  refine asks_read_bind fun view => asks_flow_ofExcept_bind fun items => ?_
  refine asks_flow_perform_bind .checkout fun checkout => asks_flow_ofExcept_bind fun current => ?_
  refine (asks_ofStore (asks_revalidateProposal_pieces _ _ _ _)).bind fun _ => ?_
  exact asks_read _

theorem asks_proposalFor (request : Request) : (proposalFor py request).Asks Plain := by
  unfold proposalFor
  split
  · refine Prog.Asks.ite (fun _ => ?_) fun _ => .done _
    exact (asks_ofStore (asks_createProposal_pieces _)).bind fun _ => .done _
  · exact .done _

theorem asks_linkTrace (traceId : Option String) : (linkTrace services job traceId).Asks Plain :=
  Prog.Asks.ite (fun _ => asks_ofStore (asks_saveTrace_pieces _)) fun _ => .done _

theorem asks_refreshed (run : RunLifecycle) : (refreshed py services job run).Asks Plain := by
  unfold refreshed
  split
  · refine Prog.Asks.ite (fun _ => ?_) fun _ => .done _
    exact (asks_refreshProposal _ _ _).bind fun _ => asks_read _
  · exact .done _

theorem asks_startedTrace (request : Request) (runId : String) :
    (startedTrace services request runId).Asks Plain := by
  unfold startedTrace
  refine Prog.Asks.ite (fun _ => ?_) fun _ => .done _
  exact (asks_flow_perform (.startTrace _ _)).attempt.bind fun _ => .done _

theorem asks_finishedTrace (traceId : Option String) (outputs : Option Mapping)
    (error : Option TraceError) : (finishedTrace services traceId outputs error).Asks Plain := by
  unfold finishedTrace
  refine Prog.Asks.ite (fun _ => ?_) fun _ => .done _
  exact (asks_flow_perform (.finishTrace _ _ _)).attempt.bind fun _ => .done _

theorem asks_runIdFor (request : Request) : (runIdFor request).Asks Plain := by
  unfold runIdFor
  refine Prog.Asks.ite (fun _ => .done _) fun _ => ?_
  exact asks_flow_perform_bind (.piece .uuid) fun _ => .done _

/-! ### Plain statements of the `try` -/

theorem asks_checkpointHere (node : String) : (checkpointHere py services job node).Asks Plain :=
  Body.asks_reading fun _ => asks_saveNode _

theorem asks_eventHere (name : String) (payload : Mapping) :
    (eventHere py services job name payload).Asks Plain := Body.asks_lift (asks_event _ _)

theorem asks_enter (node : String) (more : Mapping) : (enter py services job node more).Asks Plain :=
  (asks_checkpointHere _).bind fun _ => asks_eventHere _ _

/-- What the intake does behind its first node. -/
theorem asks_intake : (intake py services job).Asks Plain := by
  unfold intake
  refine (asks_enter _ _).bind fun _ => (asks_enter _ _).bind fun _ => ?_
  refine (Body.asks_ofExcept _).bind fun parsed => (Body.asks_update _).bind fun _ => ?_
  refine (asks_enter _ _).bind fun _ => ?_
  refine (Body.asks_lift (asks_flow_perform .checkout)).bind fun checkout => ?_
  refine (Body.asks_ofExcept _).bind fun evidence => (Body.asks_update _).bind fun _ => ?_
  exact (asks_checkpointHere _).bind fun _ => Body.asks_pure _

theorem asks_retrieve : (retrieve py services job found).Asks Plain := by
  unfold retrieve
  refine (Body.asks_lift (asks_flow_perform (.lookup _))).bind fun lookup => ?_
  refine (Body.asks_update _).bind fun _ => (asks_eventHere _ _).bind fun _ => ?_
  exact (asks_checkpointHere _).bind fun _ => Body.asks_pure _

theorem asks_stopHere (decision : BudgetDecision) :
    (stopHere py services job decision found).Asks Plain :=
  Body.asks_reading fun _ => asks_budgetStop _

theorem asks_draft : (draft py services job).Asks Plain := by
  unfold draft
  refine (asks_checkpointHere _).bind fun _ => ?_
  refine (Body.asks_lift (asks_flow_perform .checkout)).bind fun checkout => ?_
  refine (Body.asks_ofExcept _).bind fun plan => (Body.asks_update _).bind fun _ => ?_
  exact (asks_eventHere _ _).bind fun _ => Body.asks_pure _

theorem asks_failHere (reason : String) :
    (failHere py services job found reason proposalId).Asks Plain :=
  Body.asks_reading fun _ => asks_finishFailed _

theorem asks_outputsHere : (outputsHere py job found).Asks Plain :=
  Body.asks_lift (asks_saveOutputsFor _)

theorem asks_awaits (existing : Option ApprovalToken) : (awaits key existing).Asks Plain :=
  Prog.Asks.ite (fun _ => asks_read_bind fun _ => .done _) fun _ => .done _

theorem asks_recordPart (part kind digest : String) (path : Option String)
    (metadata : List (String × Value)) :
    (recordPart py job part kind digest path metadata).Asks Plain :=
  asks_ofStore (asks_recordArtifact_pieces _)

theorem asks_writePackage (diff : Mapping) (simulation tested : Simulation) :
    (writePackage py services job diff simulation tested).Asks Plain := by
  unfold writePackage writeFiles artifactEvent
  refine Prog.Asks.ite (fun _ => ?_) fun _ => .done _
  refine asks_flow_perform_bind (.writeArtifact _ _) fun diffFile => ?_
  refine asks_flow_perform_bind (.writeArtifact _ _) fun testFile => ?_
  refine (asks_event _ _).bind fun _ => (asks_event _ _).bind fun _ => ?_
  refine asks_flow_perform_bind (.writeArtifact _ _) fun artifact => ?_
  exact (asks_event _ _).bind fun _ =>
    (asks_ofStore (asks_recordArtifact_pieces _)).bind fun _ => .done _

theorem asks_package (diff : Mapping) (simulation tested : Simulation) :
    (package py services job diff simulation tested).Asks Plain := by
  unfold package
  refine (asks_writePackage _ _ _).bind fun written => ?_
  refine asks_flow_ofExcept_bind fun diffDigest => asks_flow_ofExcept_bind fun testDigest => ?_
  exact (asks_recordPart _ _ _ _ _).bind fun _ => (asks_recordPart _ _ _ _ _).bind fun _ => .done _

theorem asks_failClosing (worker : Worker) (reason : String) :
    (failClosing py services job found worker reason).Asks Plain :=
  (Body.asks_lift (asks_flow_perform (.close _))).bind fun _ => asks_failHere _

theorem asks_staleProposal : (staleProposal py job).Asks Plain := by
  unfold staleProposal
  split
  · exact Prog.Asks.ite (fun _ => asks_ofStore (asks_revalidateProposal_pieces _ _ _ _))
      fun _ => .done _
  · exact .done _

theorem asks_handled (r : Except Raised RunOutcome × Mapping) :
    (handled py services key r).Asks Plain := by
  unfold handled
  split
  · exact .done _
  · refine Prog.Asks.ite (fun _ => asks_finishRejected _) fun _ => ?_
    exact Prog.Asks.ite (fun _ => asks_finishFailed _) fun _ => .done _

end Methods

end AiSaas.AgentOrchestrator
