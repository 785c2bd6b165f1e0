import AiSaas.AgentOrchestrator.Endings

/-!
# The workflow from a proposal to a verified change

`ProposalVerifiedWorkflow.run`: a proposal is analysed under a budget of tokens, its plan is
reviewed, and an approved plan is patched and tested by a worker.

## Main definitions

* `refreshProposal` — `refresh_proposal`.
* `analyze`, `reanalyze` — the branches of the `try` without and with a checkpoint.
* `askApproval`, `patch`, `package`, `verify` — `_verify`.
* `runGuarded`, `run` — `_run` and `run`.
-/

namespace AiSaas.AgentOrchestrator

open Kernel Relational Transaction Processes

variable (py : Interpreter) (services : Services)

/-! ### Stored evidence -/

/-- An item of a view, as `_evidence_from_json` reads it. -/
def evidenceOfRow (row : EvidenceRow) : Except ProjectPacks.Raised ProjectPacks.EvidenceReference :=
  ProjectPacks.EvidenceReference.make row.requirementId row.path row.startLine row.endLine
    row.contentHash row.symbol row.authorized row.valid

/-- What is said of an item that was hashed again. -/
def rechecked (old : EvidenceRow) (new : ProjectPacks.EvidenceReference) : Mapping :=
  Kernel.record [("evidence_id", .str old.evidenceId), ("path", .str new.path),
    ("content_hash", .str new.contentHash), ("authorized", .bool new.authorized),
    ("valid", .bool new.valid)]

/-- `refresh_proposal`. -/
def refreshProposal (proposalId tenantId : String) (snapshot : Mapping) : Flow ProposalView := do
  -- the view of a current repository revalidates the proposal before it is read
  let _ ← Flow.ofStore (revalidateProposal py.kernel proposalId tenantId snapshot none)
  let view ← Flow.read (proposalView proposalId tenantId)
  let items ← Flow.ofExcept (ofPack (view.evidence.mapM evidenceOfRow))
  let checkout ← Flow.perform .checkout
  let current ← Flow.ofExcept
    (ofPack (ProjectPacks.revalidateEvidence py.pack services.index checkout items))
  let _ ← Flow.ofStore (revalidateProposal py.kernel proposalId tenantId snapshot
    (some (view.evidence.zipWith rechecked current)))
  Flow.read (proposalView proposalId tenantId)

/-! ### Analysis -/

/-- A call, with the run and the proposal it is about. -/
structure Job where
  key : RunKey
  request : Request
  proposalId : Option String

/-- `self._checkpoint(run_id, tenant_id, node, values)`. -/
def checkpointHere (job : Job) (node : String) : Body Unit :=
  Body.reading fun values => saveNode py services job.key node values

/-- `self._event(run_id, tenant_id, name, payload)`. -/
def eventHere (job : Job) (name : String) (payload : Mapping) : Body Unit :=
  Body.lift (event py services job.key name payload)

/-- A checkpoint and its event. -/
def enter (job : Job) (node : String) (more : Mapping) : Body Unit := do
  checkpointHere py services job node
  eventHere py services job "graph.node" (Kernel.record [("node", .str node)] ++ more)

/-- `[item.__dict__ for item in requirements]`. -/
def requirementList (requirements : List ProjectPacks.Requirement) : Value :=
  .list (requirements.map fun r => .dict (requirementDict r))

/-- `[item.__dict__ for item in evidence]`. -/
def evidenceList (evidence : List ProjectPacks.EvidenceReference) : Value :=
  .list (evidence.map fun e => .dict (evidenceDict e))

/-- The requirements and the evidence of a new run, from intake to retrieval. -/
def intake (job : Job) : Body Analysis := do
  enter py services job "intake" []
  enter py services job "profile_validate"
    (Kernel.record [("provider", .str services.providerId)])
  let parsed ← Body.ofExcept (ofPack (ProjectPacks.parseProposal py.pack job.request.proposal))
  Body.update (Kernel.record [("requirements", requirementList parsed.requirements),
    ("runtime", .str parsed.runtime)])
  enter py services job "inventory" []
  let checkout ← Body.lift (Flow.perform .checkout)
  let evidence ← Body.ofExcept
    (ofPack (ProjectPacks.evidence py.pack services.index checkout job.request.proposal))
  Body.update (Kernel.record [("evidence", evidenceList evidence)])
  checkpointHere py services job "retrieve"
  return ⟨parsed.requirements, evidence, none⟩

/-- The context of a model call, from the cache. -/
def retrieve (job : Job) (found : Analysis) : Body CacheLookup := do
  let ids := found.requirements.map fun r => Value.str r.requirementId
  let context := Kernel.record [("requirement_ids", .list ids),
    ("evidence", evidenceList found.evidence)]
  let lookup ← Body.lift (Flow.perform (.lookup context))
  Body.update (Kernel.record [("cache_key", .str lookup.key)])
  eventHere py services job "context.cache" (Kernel.record [("key", .str lookup.key),
    ("hit", .bool lookup.hit), ("retrieval_expansion", .int found.evidence.length)])
  checkpointHere py services job "analyze"
  return lookup

/-- The prompt of `PromptContextAdapter.build`. -/
def promptOf (host : Kernel.Host) (proposal : String) (context : Value) : Except Raised String :=
  dumps (.dict (Kernel.record [("task", .str "analyze proposal"), ("proposal", .str proposal),
    ("context", redact host context)]))

/-- `estimate_tokens`. -/
def estimateTokens (text : String) : ℕ := max 1 ((text.utf8ByteSize + 3) / 4)

/-- What the ledger returns or raises. -/
def ofLedger {α : Type} (x : Except String α) : Except Raised α :=
  x.mapError fun message => ⟨.valueError, message⟩

/-- `ledger.reserve(phase=1, …)`, the first reservation of a call. -/
def reserveFirst (policy : BudgetPolicy) (quotaLimit : Option ℤ) (inputTokens outputTokens : ℤ) :
    Except Raised BudgetDecision :=
  ofLedger ((TokenBudgetLedger.new policy quotaLimit).reserve
    ⟨1, inputTokens, outputTokens, false⟩).1

/-- `UsageRecord(run_id, …, "analyze", …)`: the usage of the model call of a run. -/
def analyzeUsage (runId : String) (inputTokens outputTokens : ℤ) (estimated cacheHit : Bool)
    (expansion : ℕ) (decision : BudgetDecision) : Except Raised UsageRecord :=
  if h : 0 ≤ inputTokens ∧ 0 ≤ outputTokens then
    .ok ⟨runId, runId ++ ":analyze", "analyze", inputTokens, outputTokens, estimated, cacheHit,
      expansion, statusText decision.status, false, h⟩
  else .error ⟨.valueError, "token counts must be non-negative"⟩

/-- The decision on the tokens of a call, which is stored with its usage. -/
def spend (job : Job) (policy : BudgetPolicy) (inputTokens outputTokens : ℤ)
    (estimated : Bool) (lookup : CacheLookup) (found : Analysis) :
    Body (BudgetDecision × UsageRecord) := do
  let decision ← Body.ofExcept
    (reserveFirst policy job.request.quotaLimit inputTokens outputTokens)
  let usage ← Body.ofExcept (analyzeUsage job.key.runId inputTokens outputTokens estimated
    lookup.hit found.evidence.length decision)
  Body.lift (Flow.ofStore (recordUsage py.kernel usage (some job.key.tenantId)))
  return (decision, usage)

/-- `_budget_stop`, as a statement. -/
def stopHere (job : Job) (decision : BudgetDecision) (found : Analysis) : Body RunOutcome :=
  Body.reading fun values => budgetStop py services job.key decision values found

/-- The plan of a new run. -/
def draft (job : Job) : Body ProjectPacks.Plan := do
  checkpointHere py services job "plan"
  let checkout ← Body.lift (Flow.perform .checkout)
  let plan ← Body.ofExcept (ofPack (ProjectPacks.buildPlan py.pack services.index py.evidenceText
    checkout job.request.proposal job.request.mode))
  Body.update (Kernel.record [("plan", .dict (planDict plan))])
  eventHere py services job "plan.created" (Kernel.record [("plan_id", .str plan.planId),
    ("valid_references", .bool plan.validReferences), ("runtime", .str plan.runtime)])
  return plan

/-- The branch of the `try` without a checkpoint, up to its review. -/
def analyze (job : Job) (policy : BudgetPolicy)
    (review : Analysis → ProjectPacks.Plan → Body RunOutcome) : Body RunOutcome := do
  let found ← intake py services job
  let lookup ← retrieve py services job found
  let prompt ← Body.ofExcept (promptOf py.kernel job.request.proposal lookup.value)
  if policy.perCallInputLimit < estimateTokens prompt then
    -- a prompt that is too long is charged, and not sent
    let spent ← spend py job policy (estimateTokens prompt) 0 true lookup found
    stopHere py services job spent.1 found
  else
    let result ← Body.lift (Flow.perform (.generate prompt (redact py.kernel lookup.value)
      (job.key.runId ++ ":analyze")))
    let spent ← spend py job policy result.inputTokens result.outputTokens result.estimated lookup
      found
    eventHere py services job "model.usage" spent.2.dict
    if spent.1.allowed then
      let plan ← draft py services job
      review found plan
    else stopHere py services job spent.1 found

/-- The branch of the `try` with a checkpoint, up to its review: no model is asked. -/
def reanalyze (job : Job) (review : Analysis → ProjectPacks.Plan → Body RunOutcome) :
    Body RunOutcome := do
  let parsed ← Body.ofExcept (ofPack (ProjectPacks.parseProposal py.pack job.request.proposal))
  let checkout ← Body.lift (Flow.perform .checkout)
  let evidence ← Body.ofExcept
    (ofPack (ProjectPacks.evidence py.pack services.index checkout job.request.proposal))
  let checkout ← Body.lift (Flow.perform .checkout)
  let plan ← Body.ofExcept (ofPack (ProjectPacks.buildPlan py.pack services.index py.evidenceText
    checkout job.request.proposal job.request.mode))
  Body.update (Kernel.record [("requirements", requirementList parsed.requirements),
    ("evidence", evidenceList evidence), ("plan", .dict (planDict plan))])
  review ⟨parsed.requirements, evidence, none⟩ plan

/-! ### Verification -/

/-- `_finish_failed` with a plan, as a statement. -/
def failHere (job : Job) (found : Analysis) (reason : String) (proposalId : Option String) :
    Body RunOutcome :=
  Body.reading fun values => finishFailed py services job.key found values reason proposalId

/-- `_finish_plan_only`, as a statement. -/
def planOnlyHere (job : Job) (found : Analysis) (plan : ProjectPacks.Plan)
    (reason : Option String) : Body RunOutcome :=
  Body.reading fun values => finishPlanOnly py services job.key found plan values reason

/-- The outputs of the proposal a call is about. -/
def outputsHere (job : Job) (found : Analysis) : Body Unit :=
  Body.lift (saveOutputsFor py job.key job.proposalId job.request.repositorySnapshot found)

/-- Whether a run waits for the approval that was issued for it. -/
def awaits (key : RunKey) (existing : Option ApprovalToken) : Flow Bool :=
  if existing.isSome then do
    let run ← currentRun key
    return decide (run.state = .waitingApproval)
  else return false

/-- `_verify` without an approval: one is issued, or the one that is waited for returned. -/
def askApproval (job : Job) (found : Analysis) (plan : ProjectPacks.Plan) : Body RunOutcome := do
  let existing ← Body.lift (Flow.read (approvalForRun job.key.runId job.key.tenantId))
  let waiting ← Body.lift (awaits job.key existing)
  if waiting then
    let run ← Body.lift (currentRun job.key)
    Body.lift (outcomePayload run found existing job.proposalId)
  else
    outputsHere py job found
    let expiresAt ← Body.lift (Flow.perform .deadline)
    let digest ← Body.ofExcept (planDigest py.kernel plan)
    let token ← Body.lift (Flow.ofStore (issueApproval ⟨job.key.runId, job.key.tenantId,
      ["patch", "deliver"], expiresAt, some digest⟩))
    Body.update (Kernel.record [("approval_id", .str token.tokenId)])
    checkpointHere py services job "human_approval"
    let run ← Body.reading fun values =>
      let payload := Kernel.record
        [("node", .str "human_approval"), ("approval_id", .str token.tokenId)]
      let repositoryId := values.get "repository_id"
      move job.key "waiting_approval" (if repositoryId.truthy then
        payload ++ Kernel.record [("repository_id", repositoryId)] else payload) none
    outputsHere py job found
    Body.lift (outcomePayload run found (some token) job.proposalId)

/-- The names of the authorised evidence's top directories, in order. -/
def allowedPaths (evidence : List ProjectPacks.EvidenceReference) : List String :=
  ((evidence.filter fun e => e.authorized && decide (e.path ≠ "")).map fun e =>
    ((e.path.splitOn "/").headD "")).dedup.mergeSort fun a b => decide (a ≤ b)

/-- `SandboxPolicy().allowlisted_paths`. -/
def defaultPaths : List String := ["agent_platform", "services", "project_packs", "tests"]

/-- The worker of a run. -/
def workerOf (job : Job) (found : Analysis) : Worker :=
  let allowed := allowedPaths found.evidence
  let paths := if allowed.isEmpty then defaultPaths else allowed
  if services.injectedSandbox then .injected
  else if job.request.repositorySnapshot.isSome then .isolated paths
  else .deterministic paths

/-- `sandbox.apply`; a worker that does not know the repository's arguments is called again
without them. -/
def applyPatch (call : PatchCall) : Flow Simulation := do
  let r ← (Flow.perform (.apply call)).attempt
  match r with
  | .ok simulation => return simulation
  | .error e =>
    if e.kind = .typeError then Flow.perform (.apply { call with bound := false, snapshot := none })
    else Prog.raise e

/-- The patch of a plan, tried twice. -/
def patchTwice (call : PatchCall) : Flow Simulation := do
  let simulation ← applyPatch call
  if simulation.success then return simulation
  else applyPatch { call with retry := true }

/-- `simulation.diff_artifact or {…}`. -/
def diffOf (job : Job) (simulation : Simulation) : Mapping :=
  let given := simulation.diffArtifact.getD []
  if given.isEmpty then Kernel.record [("schema_version", .str "1.0"),
    ("kind", .str "repository_diff"), ("base_commit", .ofText? simulation.baseCommit),
    ("changed_files", .list (simulation.changedFiles.map Value.str)), ("files", .list []),
    ("source_unchanged", .bool job.request.repositorySnapshot.isSome)]
  else given

/-- What the verification leaves: its artifacts, and where the diff and the tests lie. -/
structure Packaged where
  artifactIds : List String
  diffPath : Option String
  testPath : Option String

/-- The event of an artifact. -/
def artifactEvent (job : Job) (artifact : StoredArtifact) : Flow Unit :=
  event py services job.key "artifact.persisted" (Kernel.record
    [("artifact_id", .str artifact.artifactId), ("path", .str artifact.path),
      ("digest", .str artifact.digest)])

/-- The texts of a list. -/
def textList (texts : List String) : Value := .list (texts.map Value.str)

/-- The mappings of a list. -/
def mappingList (items : List Mapping) : Value := .list (items.map Value.dict)

/-- The files a verification leaves with an artifact store. -/
def writeFiles (job : Job) (diff : Mapping) (simulation tested : Simulation) : Flow Packaged := do
  let unchanged := (diff.getD "source_unchanged" (.bool false)).truthy
  let changed := textList simulation.changedFiles
  let results := mappingList tested.commandResults
  let base := Value.ofText? simulation.baseCommit
  let diffFile ← Flow.perform (.writeArtifact (job.key.runId ++ "-diff") (.mapping
    (Kernel.record [("schema_version", .str "1.0"), ("kind", .str "repository_diff"),
      ("diff", .dict diff), ("changed_files", changed)])))
  let testFile ← Flow.perform (.writeArtifact (job.key.runId ++ "-tests") (.mapping
    (Kernel.record [("schema_version", .str "1.0"), ("kind", .str "test_results"),
      ("base_commit", base), ("results", results)])))
  artifactEvent py services job diffFile
  artifactEvent py services job testFile
  let artifact ← Flow.perform (.writeArtifact (job.key.runId ++ "-verification") (.mapping
    (Kernel.record [("schema_version", .str "1.0"), ("kind", .str "verification_package"),
      ("run_id", .str job.key.runId), ("status", .str "verified"), ("base_commit", base),
      ("changed_files", changed), ("diff", .dict diff), ("tests", results),
      ("verification", .dict (Kernel.record [("status", .str "verified"),
        ("source_unchanged", .bool unchanged)]))])))
  artifactEvent py services job artifact
  Flow.ofStore (recordArtifact py.kernel ⟨artifact.artifactId, job.key.runId, job.key.tenantId,
    "verification", artifact.digest, some artifact.path,
    some (Kernel.record [("schema_version", .str "1.0"), ("changed_files", changed),
      ("bytes_written", .int artifact.bytesWritten)])⟩)
  return ⟨[artifact.artifactId], some diffFile.path, some testFile.path⟩

/-- The files a verification leaves, if there is an artifact store. -/
def writePackage (job : Job) (diff : Mapping) (simulation tested : Simulation) : Flow Packaged :=
  if services.artifactStore then writeFiles py services job diff simulation tested
  else return ⟨[], none, none⟩

/-- `store.record_artifact` for the diff or the tests of a run. -/
def recordPart (job : Job) (part kind digest : String) (path : Option String)
    (metadata : List (String × Value)) : Flow Unit :=
  Flow.ofStore (recordArtifact py.kernel ⟨job.key.runId ++ "-" ++ part, job.key.runId,
    job.key.tenantId, kind, digest, path, some (Kernel.record metadata)⟩)

/-- The `try` of `_verify` around the verification package. -/
def package (job : Job) (diff : Mapping) (simulation tested : Simulation) : Flow Packaged := do
  let unchanged := (diff.getD "source_unchanged" (.bool false)).truthy
  let results := mappingList tested.commandResults
  let written ← writePackage py services job diff simulation tested
  let diffDigest ← Flow.ofExcept (jsonDigest py.kernel (.dict diff))
  let testDigest ← Flow.ofExcept (jsonDigest py.kernel results)
  recordPart py job "diff" "diff" diffDigest none [("schema_version", .str "1.0"),
    ("changed_files", textList simulation.changedFiles), ("diff", .dict diff),
    ("source_unchanged", .bool unchanged)]
  recordPart py job "tests" "test" testDigest none [("schema_version", .str "1.0"),
    ("results", results), ("status", .str "passed")]
  return { written with
    artifactIds := written.artifactIds ++ [job.key.runId ++ "-diff", job.key.runId ++ "-tests"] }

/-- What `_verify` does with a package: the report, the artifacts, and the last transition. -/
def release (job : Job) (found : Analysis) (plan : ProjectPacks.Plan) (consumed : ApprovalToken)
    (worker : Worker) (diff : Mapping) (simulation tested : Simulation) (packaged : Packaged) :
    Body RunOutcome := do
  let usage ← Body.lift (usageOf job.key)
  let run ← Body.lift (currentRun job.key)
  let report := buildReleaseReport py {
    runId := job.key.runId, status := "verified", requirements := found.requirements
    evidence := found.evidence, plan, usage, approvalBypass := 0, reason := none
    verificationStatus := some "verified", changedFiles := simulation.changedFiles
    testResults := tested.commandResults, artifactIds := packaged.artifactIds
    traceId := run.traceId }
  Body.lift (Flow.ofStore (saveReport py.kernel report job.key.tenantId false))
  checkpointHere py services job "report"
  let unchanged := (diff.getD "source_unchanged" (.bool false)).truthy
  let results := mappingList tested.commandResults
  let diffDigest ← Body.ofExcept (jsonDigest py.kernel (.dict diff))
  Body.lift (recordPart py job "diff" "diff" diffDigest packaged.diffPath
    [("status", .str "prepared"), ("schema_version", .str "1.0"),
      ("changed_files", textList simulation.changedFiles), ("source_unchanged", .bool unchanged),
      ("detail", .str simulation.detail)])
  let testDigest ← Body.ofExcept (jsonDigest py.kernel results)
  Body.lift (recordPart py job "tests" "test" testDigest packaged.testPath
    [("status", .str "passed"), ("schema_version", .str "1.0"), ("results", results),
      ("detail", .str tested.detail)])
  let digest ← Body.ofExcept (planDigest py.kernel plan)
  eventHere py services job "delivery.prepared" (Kernel.record
    [("approval_token_id", .str consumed.tokenId), ("artifact_hash", .str digest)])
  let run ← Body.lift (move job.key "verified" (Kernel.record
    [("plan_id", .str plan.planId), ("report_persisted", .bool true)]) none)
  outputsHere py job found
  Body.lift (Flow.perform (.close worker))
  Body.lift (outcomePayload run found (some consumed) job.proposalId)

/-- A failure that gives up the worker. -/
def failClosing (job : Job) (found : Analysis) (worker : Worker) (reason : String) :
    Body RunOutcome := do
  Body.lift (Flow.perform (.close worker))
  failHere py services job found reason job.proposalId

/-- The exceptions that the package is given up for. -/
def spoilsPackage (e : Raised) : Bool :=
  e.kind.isOSError || e.kind.isValueError || decide (e.kind = .typeError)

/-- `_verify` behind the consumption of its approval. -/
def patch (job : Job) (found : Analysis) (plan : ProjectPacks.Plan) (consumed : ApprovalToken) :
    Body RunOutcome := do
  eventHere py services job "approval.consumed" (Kernel.record
    [("token_id", .str consumed.tokenId), ("scope", .str "patch")])
  let _ ← Body.lift (move job.key "running" (Kernel.record
    [("node", .str "patch"), ("approval_id", .str consumed.tokenId)]) none)
  checkpointHere py services job "patch"
  let worker := workerOf services job found
  let simulation ← Body.lift (patchTwice
    ⟨worker, plan, consumed, false, true, job.request.repositorySnapshot⟩)
  if simulation.success then
    checkpointHere py services job "test"
    let tested ← Body.lift (Flow.perform (.test worker plan))
    if tested.success then
      checkpointHere py services job "evaluate"
      let diff := diffOf job simulation
      let packaged ← Body.lift (package py services job diff simulation tested).attempt
      match packaged with
      | .ok packaged =>
        release py services job found plan consumed worker diff simulation tested packaged
      | .error e =>
        if spoilsPackage e then
          failClosing py services job found worker
            ("verification package creation failed: " ++ e.message)
        else Body.ofExcept (.error e)
    else failClosing py services job found worker ("verification failed: " ++ tested.detail)
  else failClosing py services job found worker ("sandbox patch failed: " ++ simulation.detail)

/-- `_verify` with an approval. -/
def useApproval (job : Job) (found : Analysis) (plan : ProjectPacks.Plan)
    (approval : ApprovalToken) : Body RunOutcome := do
  let digest ← Body.ofExcept (planDigest py.kernel plan)
  let consumed ← Body.lift (Flow.perform (.store (.consumeApproval ⟨approval.tokenId,
    job.key.runId, job.key.tenantId, "patch", job.request.repositorySnapshot, some digest⟩))).attempt
  match consumed with
  | .ok consumed => patch py services job found plan consumed
  | .error e =>
    if e.kind = .invalidApproval then
      Body.reading fun values => finishRejected py services job.key found values e.message
    else Body.ofExcept (.error e)

/-- Whether the proposal of a call is stale on the repository it states. -/
def staleProposal (job : Job) : Flow Bool :=
  match job.request.repositorySnapshot with
  | some snapshot =>
    if given job.proposalId then
      Flow.ofStore (revalidateProposal py.kernel (job.proposalId.getD "") job.key.tenantId snapshot
        none)
    else return false
  | none => return false

/-- `_verify`. -/
def verify (job : Job) (found : Analysis) (plan : ProjectPacks.Plan) : Body RunOutcome := do
  let _ ← Body.lift (Flow.perform (.checkpoint job.key.runId job.key.tenantId))
  let stale ← Body.lift (staleProposal py job)
  if stale then
    failHere py services job found "evidence is stale; re-analysis is required" job.proposalId
  else
    match job.request.approval with
    | none => askApproval py services job found plan
    | some approval => useApproval py services job found plan approval

/-! ### Runs -/

/-- What becomes of an analysed proposal. -/
def review (job : Job) (found : Analysis) (plan : ProjectPacks.Plan) : Body RunOutcome :=
  let found := { found with plan := some plan }
  if !plan.supportedRuntime then planOnlyHere py services job found plan (some "unknown runtime")
  else if !plan.validReferences then
    if job.request.mode = "verify" then
      failHere py services job found "invalid evidence reference" none
    else planOnlyHere py services job found plan (some "invalid evidence reference")
  else if job.request.mode = "plan_only" ∨ plan.mode = "plan_only" then
    planOnlyHere py services job found plan none
  else verify py services job found plan

/-- The statements of the `try` of `_run`, which go on from a checkpoint if there is one. -/
def attempted (job : Job) (policy : BudgetPolicy) (resumed : Bool) : Body RunOutcome :=
  if resumed then reanalyze py services job (review py services job)
  else analyze py services job policy (review py services job)

/-- The handlers of `_run`. -/
def handled (key : RunKey) (r : Except Raised RunOutcome × Mapping) : Flow RunOutcome :=
  match r.1 with
  | .ok outcome => return outcome
  | .error e =>
    if e.kind = .promptInjectionDetected ∨ e.kind = .tenantScopeError then
      finishRejected py services key ⟨[], [], none⟩ r.2 e.message
    else if e.kind.isValueError ∨ e.kind = .fileNotFoundError then
      finishFailed py services key ⟨[], [], none⟩ r.2 e.message none
    else Prog.raise e

/-- The dict that the `try` starts with. -/
def firstValues (job : Job) : Mapping :=
  let request := job.request
  let snapshot := request.repositorySnapshot.getD []
  Kernel.record [("proposal", .str request.proposal), ("mode", .str request.mode)] ++
    (if given request.repositoryId then
      Kernel.record [("repository_id", .ofText? request.repositoryId)] else []) ++
    (if given job.proposalId then Kernel.record [("proposal_id", .ofText? job.proposalId)] else []) ++
    if snapshot.isEmpty then [] else Kernel.record [("repository_snapshot", .dict snapshot),
      ("branch", snapshot.get "branch"),
      ("commit", snapshot.getD "commit" (snapshot.get "head_commit"))]

/-- The payload of a new run. -/
def runPayload (request : Request) : Mapping :=
  Kernel.record [("proposal", .str request.proposal), ("mode", .str request.mode)] ++
    (if given request.repositoryId then
      Kernel.record [("repository_id", .ofText? request.repositoryId)] else []) ++
    match request.repositorySnapshot with
    | some snapshot => Kernel.record [("repository_snapshot", .dict snapshot)]
    | none => []

/-- The proposal of a call: a new one, where a repository is given and no proposal. -/
def proposalFor (request : Request) : Flow (Option String) :=
  match request.repositorySnapshot with
  | some snapshot =>
    if given request.repositoryId && request.proposalId.isNone then do
      let proposal ← Flow.ofStore (createProposal py.kernel ⟨request.tenantId, snapshot,
        request.proposal, request.mode, request.idempotencyKey⟩)
      return some proposal.proposalId
    else return request.proposalId
  | none => return request.proposalId

/-- `store.save_trace`, for the run of a proposal. -/
def linkTrace (job : Job) (traceId : Option String) : Flow Unit :=
  if given job.proposalId then
    Flow.ofStore (saveTrace ⟨job.key.runId, job.key.tenantId, traceId,
      if given traceId then "langsmith" else "local", services.project, services.consoleUrl,
      "observational"⟩)
  else return ()

/-- The run, brought up to date with its proposal. -/
def refreshed (job : Job) (run : RunLifecycle) : Flow RunLifecycle :=
  match job.request.repositorySnapshot with
  | some snapshot =>
    if given job.proposalId then do
      let _ ← refreshProposal py services (job.proposalId.getD "") job.key.tenantId snapshot
      currentRun job.key
    else return run
  | none => return run

/-- The members of the checkpoint's state. -/
def resumedValues : Option (String × JsonText.Value) → Except Raised Mapping
  | some saved => asDict saved.2
  | none => .ok []

/-- `_run` of a run that is not settled. -/
def work (job : Job) (run : RunLifecycle) (saved : Option (String × JsonText.Value)) :
    Flow RunOutcome := do
  let policy ← Flow.ofExcept (ofLedger (BudgetPolicy.localLite job.request.mode))
  if run.state = .queued then
    let _ ← move job.key "running" (Kernel.record [("node", .str "intake")] ++
      if given job.request.repositoryId then
        Kernel.record [("repository_id", .ofText? job.request.repositoryId)] else []) none
  let resumed ← Flow.ofExcept (resumedValues saved)
  let r ← attempted py services job policy saved.isSome (firstValues job ++ resumed)
  handled py services job.key r

/-- `_run`. -/
def runGuarded (request : Request) (runId : String) (traceId : Option String) : Flow RunOutcome := do
  if request.mode ≠ "plan_only" ∧ request.mode ≠ "verify" then
    Prog.raise ⟨.valueError, "mode must be plan_only or verify"⟩
  let proposalId ← proposalFor py request
  let run ← Flow.perform (.store (.createRun ⟨runId, request.tenantId, request.idempotencyKey,
    request.mode, runPayload request, proposalId, request.repositorySnapshot, traceId⟩))
  let job : Job := ⟨⟨run.runId, request.tenantId⟩, request, proposalId⟩
  linkTrace services job traceId
  let run ← refreshed py services job run
  let saved ← Flow.perform (.checkpoint job.key.runId job.key.tenantId)
  if run.state.terminal then outcome py run saved proposalId
  else work py services job run saved

/-- `_start_trace`. -/
def startedTrace (request : Request) (runId : String) : Flow (Option String) :=
  if services.tracer then do
    let r ← (Flow.perform (.startTrace "proposal.workflow" (Kernel.record
      [("run_id", .str runId), ("tenant_id", .str request.tenantId),
        ("mode", .str request.mode)]))).attempt
    return r.toOption.getD none
  else return none

/-- `_finish_trace`. -/
def finishedTrace (traceId : Option String) (outputs : Option Mapping) (error : Option TraceError) :
    Flow Unit :=
  if services.tracer && given traceId then do
    let _ ← (Flow.perform (.finishTrace (traceId.getD "") outputs error)).attempt
    return ()
  else return ()

/-- What the trace of an outcome is finished with. -/
def traceOutputs (outcome : RunOutcome) : Mapping :=
  Kernel.record [("run_id", .str outcome.run.runId), ("state", .str outcome.run.state.text),
    ("error", .ofText? outcome.run.error),
    ("report", (outcome.report.map ofJson).getD .none)]

/-- `run_id or f"run-{uuid.uuid4().hex}"`. -/
def runIdFor (request : Request) : Flow String :=
  if given request.runId then return request.runId.getD ""
  else do
    let fresh ← Flow.perform (.store .uuid)
    return "run-" ++ fresh

/-- `run`. -/
def run (request : Request) : Flow RunOutcome := do
  let runId ← runIdFor request
  let traceId ← startedTrace services request runId
  let r ← (runGuarded py services request runId traceId).attempt
  match r with
  | .ok outcome =>
    finishedTrace services traceId (some (traceOutputs outcome))
      (outcome.run.error.map TraceError.ofRun)
    return outcome
  | .error e =>
    finishedTrace services traceId none (some (.raised e))
    Prog.raise e

end AiSaas.AgentOrchestrator
