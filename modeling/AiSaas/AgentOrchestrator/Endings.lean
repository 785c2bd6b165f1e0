import AiSaas.AgentOrchestrator.Records
import AiSaas.Kernel.Budgets

/-!
# What the workflow asks for, and how its runs end

`ProposalVerifiedWorkflow` of `services/agent_orchestrator/workflow.py` as a program: what
it asks for are the statements of the kernel store and what lies outside of it, the
repository, the model, the worker, the tracer and the artifact store, which may answer
anything and raise anything.

The `try` of `_run` fills a dict that its handlers read, so that a statement of it takes
the dict and leaves it, whether it raises or not.

## Main definitions

* `WorkflowOp`, `WorkflowOp.exec` — what the workflow asks for.
* `Flow`, `Body` — programs, and the statements of the `try`.
* `Request`, `Services` — the arguments of `run`, and what the workflow was built with.
* `saveNode`, `event`, `outcome`, `outcomePayload` — `_checkpoint`, `_event`, `_outcome` and
  `_outcome_payload`.
* `finishPlanOnly`, `finishFailed`, `finishRejected`, `budgetStop` — the endings.
-/

namespace AiSaas.AgentOrchestrator

open Kernel Relational Transaction Processes

/-! ### What the workflow asks for -/

/-- The worker that a plan is handed to. -/
inductive Worker where
  | injected
  /-- `IsolatedRepositorySandbox`, with its allowlist. -/
  | isolated (allowlistedPaths : List String)
  /-- `DeterministicSandbox`. -/
  | deterministic (allowlistedPaths : List String)

/-- The arguments of `sandbox.apply`; a legacy worker is not told the repository. -/
structure PatchCall where
  worker : Worker
  plan : ProjectPacks.Plan
  approval : ApprovalToken
  retry : Bool
  bound : Bool
  snapshot : Option Mapping

/-- `SimulationResult`. -/
structure Simulation where
  success : Bool
  detail : String
  baseCommit : Option String
  changedFiles : List String
  diffArtifact : Option Mapping
  commandResults : List Mapping

/-- `CacheLookup`. -/
structure CacheLookup where
  key : String
  value : Value
  hit : Bool

/-- `StructuredModelResult`, whose data the workflow does not read. -/
structure ModelResult where
  inputTokens : ℤ
  outputTokens : ℤ
  estimated : Bool

/-- `Artifact`. -/
structure StoredArtifact where
  artifactId : String
  path : String
  digest : String
  bytesWritten : ℤ

/-- What is handed to the artifact store. -/
inductive Package where
  | review (runId : String) (plan : ProjectPacks.Plan) (report : ReleaseReport)
  | mapping (m : Mapping)

/-- What a trace is said to have failed with: an exception, or the error of a run. -/
inductive TraceError where
  | raised (e : Raised)
  | ofRun (text : String)

/-- A statement of the workflow. -/
inductive WorkflowOp where
  | store (op : StoreOp)
  /-- `store.checkpoint(run_id, tenant_id)` -/
  | checkpoint (runId tenantId : String)
  /-- `(datetime.now(timezone.utc) + timedelta(minutes=30)).isoformat()` -/
  | deadline
  | startTrace (name : String) (attributes : Mapping)
  | finishTrace (traceId : String) (outputs : Option Mapping) (error : Option TraceError)
  | record (event : String) (payload : Mapping)
  | graph (runId node : String) (state : Value)
  /-- What one method of the pack reads of the repository. -/
  | checkout
  | lookup (context : Mapping)
  | generate (prompt : String) (context : Value) (idempotencyKey : String)
  | apply (call : PatchCall)
  | test (worker : Worker) (plan : ProjectPacks.Plan)
  | close (worker : Worker)
  | writeArtifact (artifactId : String) (package : Package)

/-- What a statement returns. -/
abbrev WorkflowOp.Ans : WorkflowOp → Type
  | store op => op.Ans
  | checkpoint .. => Option (String × JsonText.Value)
  | deadline => String
  | startTrace .. => Option String
  | finishTrace .. => Unit
  | record .. => Unit
  | graph .. => Unit
  | checkout => ProjectPacks.Checkout
  | lookup _ => CacheLookup
  | generate .. => ModelResult
  | apply _ => Simulation
  | test .. => Simulation
  | close _ => Unit
  | writeArtifact .. => StoredArtifact

/-- What one statement draws: the clock and identifiers of the store, and the answers from
outside. -/
structure Drawn where
  draw : Draw
  answer : (op : WorkflowOp) → Except Raised op.Ans

/-- What a statement does.  Only the store's statements touch the database. -/
def WorkflowOp.exec (host : Kernel.Host) (d : Drawn) : (op : WorkflowOp) → Kernel.Database →
    Except Raised op.Ans × Kernel.Database
  | store op, db => op.exec host d.draw db
  | checkpoint runId tenantId, db => (Kernel.checkpoint runId tenantId db, db)
  | deadline, db => (.ok (host.isoformat (d.draw.now 0 + 1800000000)), db)
  | startTrace name attributes, db => (d.answer (startTrace name attributes), db)
  | finishTrace traceId outputs error, db => (d.answer (finishTrace traceId outputs error), db)
  | record event payload, db => (d.answer (record event payload), db)
  | graph runId node state, db => (d.answer (graph runId node state), db)
  | checkout, db => (d.answer checkout, db)
  | lookup context, db => (d.answer (lookup context), db)
  | generate prompt context key, db => (d.answer (generate prompt context key), db)
  | apply call, db => (d.answer (apply call), db)
  | test worker plan, db => (d.answer (test worker plan), db)
  | close worker, db => (d.answer (close worker), db)
  | writeArtifact artifactId package, db => (d.answer (writeArtifact artifactId package), db)

/-- A program of the workflow. -/
abbrev Flow (α : Type) := Prog WorkflowOp WorkflowOp.Ans Raised α

namespace Flow

/-- A program of the store. -/
def ofStore {α : Type} : Store α → Flow α
  | .done r => .done r
  | .call op next => .call (.store op) fun r => ofStore (next r)

/-- A read of the store. -/
def read {α : Type} (f : Kernel.Database → Except Raised α) : Flow α := do
  let db ← (Prog.perform (WorkflowOp.store StoreOp.look) : Flow Kernel.Database)
  Prog.done (f db)

/-- What a computation without statements returns or raises. -/
def ofExcept {α : Type} (x : Except Raised α) : Flow α := Prog.done x

/-- A statement. -/
def perform (op : WorkflowOp) : Flow op.Ans := Prog.perform op

end Flow

/-- The statements of the `try`: they fill a dict, which outlives what they raise. -/
def Body (α : Type) : Type := Mapping → Flow (Except Raised α × Mapping)

namespace Body

variable {α β : Type}

/-- One statement behind another, unless the first raises. -/
def bind (m : Body α) (f : α → Body β) : Body β := fun values =>
  m values >>= fun r => match r.1 with
    | .ok a => f a r.2
    | .error e => pure (.error e, r.2)

instance : Monad Body where
  pure a := fun values => pure (.ok a, values)
  bind := bind

/-- A statement that does not look at the dict. -/
def lift (p : Flow α) : Body α := fun values => p.attempt >>= fun r => pure (r, values)

/-- A statement that looks at the dict. -/
def reading (p : Mapping → Flow α) : Body α := fun values => lift (p values) values

/-- What a computation without statements returns or raises. -/
def ofExcept (x : Except Raised α) : Body α := fun values => pure (x, values)

/-- `values.update(…)`. -/
def update (m : Mapping) : Body Unit := fun values => pure (.ok (), values ++ m)

end Body

/-! ### The workflow's settings -/

/-- What the workflow was built with. -/
structure Services where
  index : ProjectPacks.RepositoryIndex
  providerId : String
  /-- Whether there is a tracer, and what its client is called. -/
  tracer : Bool
  project : Option String
  consoleUrl : Option String
  graphRuntime : Bool
  artifactStore : Bool
  injectedSandbox : Bool

/-- The arguments of `run`. -/
structure Request where
  tenantId : String
  proposal : String
  mode : String
  idempotencyKey : String
  approval : Option ApprovalToken
  runId : Option String
  quotaLimit : Option ℤ
  repositoryId : Option String
  repositorySnapshot : Option Mapping
  proposalId : Option String

/-- `RunOutcome`; its records are shown by their fields. -/
structure RunOutcome where
  run : RunLifecycle
  requirements : List Mapping
  evidence : List Mapping
  plan : Option Mapping
  approval : Option ApprovalToken
  report : Option JsonText.Value
  proposal : Option ProposalView

/-- What a call knows of its run. -/
structure RunKey where
  runId : String
  tenantId : String

variable (py : Interpreter) (services : Services)

/-! ### Checkpoints and events -/

/-- `_checkpoint`. -/
def saveNode (key : RunKey) (node : String) (values : Mapping) : Flow Unit := do
  Flow.perform (.store (.saveCheckpoint key.runId key.tenantId node values))
  if services.graphRuntime then
    Flow.perform (.graph key.runId node (redact py.kernel (.dict values)))
  else return ()

/-- `_event`. -/
def event (key : RunKey) (name : String) (payload : Mapping) : Flow Unit := do
  Flow.perform (.store (.appendEvent key.runId key.tenantId name payload))
  if services.tracer then
    Flow.perform (.record name
      (Kernel.record [("run_id", .str key.runId)] ++ redactEntries py.kernel payload))
  else return ()

/-- `store.transition`. -/
def move (key : RunKey) (state : String) (payload : Mapping) (error : Option String) :
    Flow RunLifecycle :=
  Flow.perform (.store (.transition ⟨key.runId, key.tenantId, state, some payload, error⟩))

/-- `store.get_run`. -/
def currentRun (key : RunKey) : Flow RunLifecycle := Flow.read (getRun key.runId key.tenantId)

/-- `store.report`, as a mapping. -/
def storedReport (key : RunKey) : Flow (Option Mapping) := do
  let value ← Flow.read (report key.runId key.tenantId)
  match value with
  | some value => Flow.ofExcept ((asDict value).map some)
  | none => return none

/-- `store.usage`, as a report counts it. -/
def usageOf (key : RunKey) : Flow (List UsageFigures) := do
  let records ← Flow.read (usage key.runId key.tenantId)
  Flow.ofExcept (records.mapM usageFigures)

/-- `str(values["proposal_id"]) if values.get("proposal_id") else None` -/
def proposalOf (values : Mapping) : Option String :=
  let value := values.get "proposal_id"
  if value.truthy then some (pyStr py.kernel value) else none

/-- `values.get("repository_snapshot")`, if it is a mapping. -/
def snapshotIn (values : Mapping) : Option Mapping :=
  match values.get "repository_snapshot" with
  | .dict m => some m
  | _ => none

/-! ### Outcomes -/

/-- `_safe_proposal_view`. -/
def safeProposalView (proposalId : Option String) (tenantId : String) : Flow (Option ProposalView) :=
  if given proposalId then do
    let view ← (Flow.read (proposalView (proposalId.getD "") tenantId)).attempt
    match view with
    | .ok view => return some view
    | .error e => if e.kind = .tenantScopeError then return none else Prog.raise e
  else return none

/-- The report of an outcome. -/
def outcomeReport (run : RunLifecycle) (proposal : Option ProposalView) :
    Flow (Option JsonText.Value) :=
  match proposal with
  | some view => return view.report
  | none => Flow.read (report run.runId run.tenantId)

/-- What was analysed: the requirements, the evidence and the plan. -/
structure Analysis where
  requirements : List ProjectPacks.Requirement
  evidence : List ProjectPacks.EvidenceReference
  plan : Option ProjectPacks.Plan

/-- `_outcome_payload`. -/
def outcomePayload (run : RunLifecycle) (found : Analysis) (approval : Option ApprovalToken)
    (proposalId : Option String) : Flow RunOutcome := do
  let proposal ← safeProposalView proposalId run.tenantId
  let report ← outcomeReport run proposal
  return ⟨run, found.requirements.map requirementDict, found.evidence.map evidenceDict,
    found.plan.map planDict, approval, report, proposal⟩

/-- `_outcome`. -/
def outcome (run : RunLifecycle) (checkpoint : Option (String × JsonText.Value))
    (proposalId : Option String) : Flow RunOutcome :=
  match checkpoint with
  | none => do
    let proposal ← safeProposalView proposalId run.tenantId
    return ⟨run, [], [], none, none, none, proposal⟩
  | some (_, state) => do
    let values ← Flow.ofExcept (members (ofJson state))
    let items ← Flow.ofExcept (elements (values.getD "requirements" (.tuple [])))
    let requirements ← Flow.ofExcept (items.mapM (requirementFromJson py.kernel))
    let items ← Flow.ofExcept (elements (values.getD "evidence" (.tuple [])))
    let evidence ← Flow.ofExcept (items.mapM (evidenceFromJson py.kernel))
    let plan ← Flow.ofExcept (planFromJson py.kernel (values.get "plan"))
    let proposal ← safeProposalView proposalId run.tenantId
    let report ← outcomeReport run proposal
    return ⟨run, requirements, evidence, plan, none, report, proposal⟩

/-! ### Endings -/

/-- `store.save_proposal_outputs`, with the report that is stored. -/
def saveOutputs (key : RunKey) (proposalId : String) (snapshot : Mapping) (found : Analysis) :
    Flow Unit := do
  let report ← storedReport key
  Flow.ofStore (saveProposalOutputs py.kernel {
    proposalId, runId := key.runId, tenantId := key.tenantId
    requirements := found.requirements.map requirementDict
    evidence := found.evidence.map evidenceDict, plan := found.plan.map planDict, report
    repositorySnapshot := snapshot })

/-- The outputs of a proposal, where the run is of one and its repository is known. -/
def saveOutputsFor (key : RunKey) (proposalId : Option String) (snapshot : Option Mapping)
    (found : Analysis) : Flow Unit :=
  match snapshot with
  | some snapshot =>
    if given proposalId then saveOutputs py key (proposalId.getD "") snapshot found else return ()
  | none => return ()

/-- The report of an ending. -/
def reportFor (key : RunKey) (status : String) (found : Analysis) (plan : ProjectPacks.Plan)
    (usage : List UsageFigures) (approvalBypass : ℤ) (reason verificationStatus : Option String)
    (traceId : Option String) : ReleaseReport :=
  buildReleaseReport py {
    runId := key.runId, status, requirements := found.requirements, evidence := found.evidence
    plan, usage, approvalBypass, reason, verificationStatus, changedFiles := []
    testResults := [], artifactIds := [], traceId }

/-- The review that is left with the artifact store. -/
def persistReview (key : RunKey) (plan : ProjectPacks.Plan) (report : ReleaseReport) : Flow Unit :=
  if services.artifactStore then do
    let artifact ← Flow.perform (.writeArtifact key.runId (.review key.runId plan report))
    event py services key "artifact.persisted" (Kernel.record
      [("artifact_id", .str artifact.artifactId), ("path", .str artifact.path),
        ("digest", .str artifact.digest)])
    Flow.ofStore (recordArtifact py.kernel ⟨artifact.artifactId, key.runId, key.tenantId, "review",
      artifact.digest, some artifact.path,
      some (Kernel.record [("bytes_written", .int artifact.bytesWritten)])⟩)
  else return ()

/-- `_finish_plan_only`. -/
def finishPlanOnly (key : RunKey) (found : Analysis) (plan : ProjectPacks.Plan) (values : Mapping)
    (reason : Option String) : Flow RunOutcome := do
  let usage ← usageOf key
  let report := reportFor py key "plan_only" found plan usage 0 reason none none
  Flow.ofStore (saveReport py.kernel report key.tenantId false)
  saveNode py services key "report" values
  persistReview py services key plan report
  let reasonText := if given reason then reason.getD "" else "plan-only requested"
  let run ← move key "plan_only" (Kernel.record [("plan_id", .str plan.planId),
    ("report_persisted", .bool true), ("reason", .str reasonText)]) none
  saveOutputsFor py key (proposalOf py values) (snapshotIn values) found
  outcomePayload run found none (proposalOf py values)

/-- The report of a run that fails or is rejected with a plan. -/
def saveClosing (key : RunKey) (status : String) (found : Analysis) (approvalBypass : ℤ)
    (reason : String) : Flow Unit :=
  match found.plan with
  | some plan => do
    let usage ← usageOf key
    let run ← currentRun key
    let report := reportFor py key status found plan usage approvalBypass (some reason)
      (some status) run.traceId
    Flow.ofStore (saveReport py.kernel report key.tenantId false)
  | none => return ()

/-- `_finish_failed`. -/
def finishFailed (key : RunKey) (found : Analysis) (values : Mapping) (reason : String)
    (proposalId : Option String) : Flow RunOutcome := do
  saveClosing py key "failed" found 0 reason
  let run ← move key "failed" (Kernel.record [("reason", .str reason)]) (some reason)
  let proposalId := if given proposalId then proposalId else proposalOf py values
  if found.plan.isSome then
    saveNode py services key "report" values
    saveOutputsFor py key proposalId (snapshotIn values) found
    outcomePayload run found none proposalId
  else outcomePayload run found none proposalId

/-- `_finish_rejected`. -/
def finishRejected (key : RunKey) (found : Analysis) (values : Mapping) (reason : String) :
    Flow RunOutcome := do
  saveClosing py key "rejected" found 1 reason
  let run ← move key "rejected" (Kernel.record [("reason", .str reason)]) (some reason)
  saveNode py services key "report" values
  if found.plan.isSome then
    saveOutputsFor py key (proposalOf py values) (snapshotIn values) found
    outcomePayload run found none (proposalOf py values)
  else outcomePayload run found none (proposalOf py values)

/-- The text of a decision's status. -/
def statusText : BudgetStatus → String
  | .allowed => "allowed"
  | .quotaPaused => "quota_paused"
  | .budgetExceeded => "budget_exceeded"

/-- `_budget_stop`. -/
def budgetStop (key : RunKey) (decision : BudgetDecision) (values : Mapping) (found : Analysis) :
    Flow RunOutcome := do
  let target := if decision.status = .quotaPaused then "quota_paused" else "budget_exceeded"
  let run ← move key target (Kernel.record [("reason", .str decision.reason)])
    (some decision.reason)
  saveNode py services key "report" values
  outcomePayload run found none (proposalOf py values)

end AiSaas.AgentOrchestrator
