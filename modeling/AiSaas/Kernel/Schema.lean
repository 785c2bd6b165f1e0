import AiSaas.Kernel.Values
import AiSaas.Lib.Tables

/-!
# The kernel's records and tables

The records of `agent_platform/contracts.py` and the tables of
`agent_platform/storage.py`.  A nullable column is an `Option`; a JSON column is its
text.

## Main definitions

* `RunState`, `RunState.allowed` — the states of a product run and `_ALLOWED`.
* `RunLifecycle`, `ApprovalToken`, `UsageRecord`, `ReleaseReport` — records.
* `RunRow` … `TraceRow`, `Database` — the tables.
-/

namespace AiSaas.Kernel

open Relational Transaction

/-! ### States -/

/-- `RunState`. -/
inductive RunState where
  | queued
  | running
  | waitingApproval
  | planOnly
  | verified
  | quotaPaused
  | budgetExceeded
  | failed
  | rejected
  deriving DecidableEq, Repr

namespace RunState

/-- The text of a state. -/
def text : RunState → String
  | queued => "queued"
  | running => "running"
  | waitingApproval => "waiting_approval"
  | planOnly => "plan_only"
  | verified => "verified"
  | quotaPaused => "quota_paused"
  | budgetExceeded => "budget_exceeded"
  | failed => "failed"
  | rejected => "rejected"

/-- `_ALLOWED`. -/
def allowed : RunState → List RunState
  | queued => [running, failed, rejected]
  | running => [waitingApproval, planOnly, verified, quotaPaused, budgetExceeded, failed, rejected]
  | waitingApproval => [running, rejected, failed]
  | planOnly | verified | quotaPaused | budgetExceeded | failed | rejected => []

/-- The states that are never left. -/
def terminal (s : RunState) : Bool := s.allowed.isEmpty

theorem text_injective : Function.Injective text := by
  intro s s' h
  cases s <;> cases s' <;> first | rfl | exact absurd h (by decide)

end RunState

/-! ### Records -/

/-- `RunLifecycle`. -/
structure RunLifecycle where
  runId : String
  tenantId : String
  idempotencyKey : String
  state : RunState
  mode : String
  sequence : ℕ
  error : Option String
  approvalId : Option String
  result : JsonText.Value
  proposalId : Option String
  repositoryId : Option String
  branch : Option String
  commit : Option String
  traceId : Option String

/-- `ApprovalToken`. -/
structure ApprovalToken where
  tokenId : String
  runId : String
  tenantId : String
  scopes : List String
  issuedAt : String
  expiresAt : String
  consumed : Bool
  repositoryId : Option String
  branch : Option String
  commit : Option String
  planDigest : Option String
  proposalId : Option String
  deriving DecidableEq, Repr

/-- `UsageRecord`, with the checks of its `__post_init__`. -/
structure UsageRecord where
  runId : String
  callId : String
  phase : String
  inputTokens : ℤ
  outputTokens : ℤ
  estimated : Bool
  cacheHit : Bool
  retrievalExpansion : ℕ
  budgetDecision : String
  retry : Bool
  nonneg : 0 ≤ inputTokens ∧ 0 ≤ outputTokens

/-- `usage.__dict__`; the total is the sum of the two counts. -/
def UsageRecord.dict (u : UsageRecord) : Mapping :=
  record [("run_id", .str u.runId), ("call_id", .str u.callId), ("phase", .str u.phase),
    ("input_tokens", .int u.inputTokens), ("output_tokens", .int u.outputTokens),
    ("total_tokens", .int (u.inputTokens + u.outputTokens)), ("estimated", .bool u.estimated),
    ("cache_hit", .bool u.cacheHit), ("retrieval_expansion", .int u.retrievalExpansion),
    ("budget_decision", .str u.budgetDecision), ("retry", .bool u.retry)]

/-- `ReleaseReport`; a metric is the `__dict__` of its record. -/
structure ReleaseReport where
  runId : String
  status : String
  metrics : List (String × Mapping)
  terminalStateConsistent : Bool
  persisted : Bool
  verificationStatus : Option String
  changedFiles : List String
  testResults : List Value
  artifactIds : List String
  traceId : Option String
  reason : Option String

/-! ### Rows -/

/-- A row of `product_runs`. -/
structure RunRow where
  runId : String
  tenantId : String
  idempotencyKey : String
  requestHash : String
  mode : String
  state : RunState
  sequence : ℕ
  error : Option String
  approvalId : Option String
  resultJson : String
  createdAt : String
  updatedAt : String
  proposalId : Option String
  repositoryId : Option String
  branch : Option String
  commitSha : Option String
  repositoryDirty : Bool
  traceId : Option String
  deriving DecidableEq

/-- `UNIQUE(tenant_id, idempotency_key)`. -/
def RunRow.requestKey (r : RunRow) : String × String := (r.tenantId, r.idempotencyKey)

/-- A row of `product_events`. -/
structure EventRow where
  eventId : String
  runId : String
  tenantId : String
  sequence : ℕ
  event : String
  payloadJson : String
  createdAt : String
  deriving DecidableEq

/-- `UNIQUE(run_id, sequence)`. -/
def EventRow.place (e : EventRow) : String × ℕ := (e.runId, e.sequence)

/-- A row of `graph_checkpoints`. -/
structure CheckpointRow where
  runId : String
  tenantId : String
  node : String
  stateJson : String
  updatedAt : String
  deriving DecidableEq

/-- A row of `model_usage`. -/
structure UsageRow where
  runId : String
  callId : String
  payloadJson : String
  deriving DecidableEq

/-- `PRIMARY KEY(run_id, call_id)`. -/
def UsageRow.key (u : UsageRow) : String × String := (u.runId, u.callId)

/-- A row of `approvals`. -/
structure ApprovalRow where
  tokenId : String
  runId : String
  tenantId : String
  scopesJson : String
  issuedAt : String
  expiresAt : String
  consumed : Bool
  proposalId : Option String
  repositoryId : Option String
  branch : Option String
  commitSha : Option String
  planDigest : Option String
  deriving DecidableEq

/-- A row of `release_reports`. -/
structure ReportRow where
  runId : String
  tenantId : String
  reportJson : String
  createdAt : String
  deriving DecidableEq

/-- A row of `repositories`. -/
structure RepositoryRow where
  tenantId : String
  repositoryId : String
  rootId : Option String
  canonicalPath : String
  name : String
  branch : String
  commitSha : String
  dirty : Bool
  capabilitiesJson : String
  createdAt : String
  updatedAt : String
  deriving DecidableEq

/-- `PRIMARY KEY(tenant_id, repository_id)`. -/
def RepositoryRow.key (r : RepositoryRow) : String × String := (r.tenantId, r.repositoryId)

/-- A row of `proposals`. -/
structure ProposalRow where
  proposalId : String
  tenantId : String
  repositoryId : String
  branch : String
  commitSha : String
  repositoryDirty : Bool
  idempotencyKey : String
  requestHash : String
  proposalText : String
  proposalDigest : String
  state : String
  staleEvidence : Bool
  staleReason : Option String
  latestRunId : Option String
  createdAt : String
  updatedAt : String
  deriving DecidableEq

/-- `UNIQUE(tenant_id, repository_id, idempotency_key)`. -/
def ProposalRow.requestKey (r : ProposalRow) : String × String × String :=
  (r.tenantId, r.repositoryId, r.idempotencyKey)

/-- A row of `proposal_runs`. -/
structure ProposalRunRow where
  runId : String
  proposalId : String
  tenantId : String
  repositoryId : String
  branch : String
  commitSha : String
  idempotencyKey : String
  requirementsJson : String
  planJson : Option String
  createdAt : String
  updatedAt : String
  deriving DecidableEq

/-- A row of `evidence_snapshots`. -/
structure EvidenceRow where
  evidenceId : String
  runId : String
  proposalId : String
  tenantId : String
  requirementId : String
  path : String
  startLine : ℤ
  endLine : ℤ
  contentHash : String
  symbol : Option String
  authorized : Bool
  valid : Bool
  stale : Bool
  staleReason : Option String
  checkedCommit : String
  deriving DecidableEq

/-- A row of `plans`. -/
structure PlanRow where
  planId : String
  runId : String
  proposalId : String
  tenantId : String
  planJson : String
  planDigest : String
  createdAt : String
  deriving DecidableEq

/-- A row of `proposal_approvals`. -/
structure ProposalApprovalRow where
  tokenId : String
  runId : String
  proposalId : String
  tenantId : String
  repositoryId : String
  branch : String
  commitSha : String
  planDigest : String
  scopesJson : String
  status : String
  createdAt : String
  updatedAt : String
  deriving DecidableEq

/-- A row of `verification_reports`. -/
structure VerificationRow where
  runId : String
  proposalId : String
  tenantId : String
  reportJson : String
  status : String
  stale : Bool
  createdAt : String
  updatedAt : String
  deriving DecidableEq

/-- A row of `proposal_artifacts`. -/
structure ArtifactRow where
  artifactId : String
  runId : String
  proposalId : String
  tenantId : String
  kind : String
  path : Option String
  digest : String
  metadataJson : String
  createdAt : String
  deriving DecidableEq

/-- A row of `trace_correlations`. -/
structure TraceRow where
  runId : String
  proposalId : String
  tenantId : String
  traceId : Option String
  provider : String
  project : Option String
  consoleUrl : Option String
  exportStatus : String
  createdAt : String
  updatedAt : String
  deriving DecidableEq

/-! ### The database -/

/-- The tables of the kernel store. -/
structure Database where
  productRuns : Table RunRow.runId RunRow.requestKey fun _ => true
  productEvents : Table EventRow.eventId EventRow.place fun _ => true
  graphCheckpoints : Table CheckpointRow.runId CheckpointRow.runId fun _ => true
  modelUsage : Table UsageRow.key UsageRow.key fun _ => true
  approvals : Table ApprovalRow.tokenId ApprovalRow.tokenId fun _ => true
  releaseReports : Table ReportRow.runId ReportRow.runId fun _ => true
  repositories : Table RepositoryRow.key RepositoryRow.key fun _ => true
  proposals : Table ProposalRow.proposalId ProposalRow.requestKey fun _ => true
  proposalRuns : Table ProposalRunRow.runId ProposalRunRow.runId fun _ => true
  evidenceSnapshots : Table EvidenceRow.evidenceId EvidenceRow.evidenceId fun _ => true
  plans : Table PlanRow.planId PlanRow.planId fun _ => true
  proposalApprovals : Table ProposalApprovalRow.tokenId ProposalApprovalRow.tokenId fun _ => true
  verificationReports : Table VerificationRow.runId VerificationRow.runId fun _ => true
  proposalArtifacts : Table ArtifactRow.artifactId ArtifactRow.artifactId fun _ => true
  traceCorrelations : Table TraceRow.runId TraceRow.runId fun _ => true
  deriving DecidableEq

/-- The freshly created file. -/
def Database.empty : Database :=
  ⟨.empty, .empty, .empty, .empty, .empty, .empty, .empty, .empty, .empty, .empty, .empty, .empty,
    .empty, .empty, .empty⟩

end AiSaas.Kernel
