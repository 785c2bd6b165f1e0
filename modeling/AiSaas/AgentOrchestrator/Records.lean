import AiSaas.Kernel.Proposals
import AiSaas.ProjectPacks.Proposal

/-!
# Records of the workflow

The records of `agent_platform/contracts.py` as the workflow writes them down and reads
them back, and the release report of `services/evaluation`.

## Main definitions

* `Interpreter` — what the workflow relies on of the interpreter.
* `requirementDict`, `evidenceDict`, `planDict`, `planDigest` — `asdict` and `_plan_digest`.
* `requirementFromJson`, `evidenceFromJson`, `planFromJson` — the readers of a checkpoint.
* `buildReleaseReport` — `build_release_report`, with its metrics.
-/

namespace AiSaas.AgentOrchestrator

open Kernel Relational Transaction

/-- What the workflow relies on of the interpreter. -/
structure Interpreter where
  kernel : Kernel.Host
  pack : ProjectPacks.Host
  /-- `str` of a tuple of evidence. -/
  evidenceText : List ProjectPacks.EvidenceReference → String
  /-- `numerator / denominator`. -/
  quotient : ℤ → ℤ → JsonText.FloatText
  /-- A hexadecimal digest is not empty. -/
  digest_ne : ∀ text, kernel.sha256 text ≠ ""

/-- An exception of the pack. -/
def raisedOf : ProjectPacks.Raised → Raised
  | .valueError message => ⟨.valueError, message⟩
  | .promptInjectionDetected => ⟨.promptInjectionDetected, "proposal contains an unsafe instruction"⟩
  | .unauthorizedPath path => ⟨.osError, path⟩
  | .fileNotFound path => ⟨.fileNotFoundError, path⟩
  | .osError => ⟨.osError, ""⟩

/-- What a method of the pack returns or raises. -/
def ofPack {α : Type} (x : Except ProjectPacks.Raised α) : Except Raised α := x.mapError raisedOf

/-! ### Writing -/

/-- `requirement.__dict__`. -/
def requirementDict (r : ProjectPacks.Requirement) : Mapping :=
  record [("requirement_id", .str r.requirementId), ("title", .str r.title),
    ("description", .str r.description), ("acceptance", .tuple []),
    ("source_text", .str r.sourceText), ("supported", .bool true)]

/-- `evidence.__dict__`. -/
def evidenceDict (e : ProjectPacks.EvidenceReference) : Mapping :=
  record [("requirement_id", .str e.requirementId), ("path", .str e.path),
    ("start_line", .int e.startLine), ("end_line", .int e.endLine),
    ("content_hash", .str e.contentHash), ("symbol", .ofText? e.symbol),
    ("authorized", .bool e.authorized), ("valid", .bool e.valid)]

/-- `asdict(step)`. -/
def stepDict (s : ProjectPacks.PlanStep) : Mapping :=
  record [("step_id", .str s.stepId), ("title", .str s.title), ("action", .str s.action),
    ("evidence", .tuple (s.evidence.map fun e => .dict (evidenceDict e))), ("impact", .str "high"),
    ("commands", .tuple [])]

/-- `asdict(plan)`. -/
def planDict (p : ProjectPacks.Plan) : Mapping :=
  record [("plan_id", .str p.planId),
    ("requirements", .tuple (p.requirements.map fun r => .dict (requirementDict r))),
    ("steps", .tuple (p.steps.map fun s => .dict (stepDict s))), ("runtime", .str p.runtime),
    ("mode", .str p.mode), ("supported_runtime", .bool p.supportedRuntime),
    ("unsupported_reason", .ofText? p.unsupportedReason),
    ("valid_references", .bool p.validReferences)]

/-- `hashlib.sha256(json.dumps(value, sort_keys=True, default=str).encode()).hexdigest()`. -/
def jsonDigest (host : Kernel.Host) (value : Value) : Except Raised String :=
  (dumps value).map host.sha256

/-- `_plan_digest`, and `_artifact_hash`: nothing in a plan needs a default. -/
def planDigest (host : Kernel.Host) (plan : ProjectPacks.Plan) : Except Raised String :=
  jsonDigest host (.dict (planDict plan))

/-! ### Reading -/

section Reading

variable (host : Kernel.Host)

/-- The members of a mapping. -/
def members : Value → Except Raised Mapping
  | .dict m => .ok m
  | _ => .error ⟨.attributeError, "object has no attribute 'get'"⟩

/-- `value[key]`. -/
def member (value : Value) (key : String) : Except Raised Value :=
  match value with
  | .dict m => orRaise (Mapping.get? m key) ⟨.keyError, "'" ++ key ++ "'"⟩
  | _ => .error ⟨.typeError, "object is not subscriptable with a string"⟩

/-- `tuple(value)`. -/
def elements : Value → Except Raised (List Value)
  | .list items => .ok items
  | .tuple items => .ok items
  | .str s => .ok (s.toList.map fun c => .str (String.singleton c))
  | .dict items => .ok ((items.map fun e => e.1.text).eraseDups.map Value.str)
  | _ => .error ⟨.typeError, "object is not iterable"⟩

/-- `_required`. -/
def required (value fieldName : String) : Except Raised Unit :=
  ofPack (ProjectPacks.required value fieldName)

/-- `_requirement_from_json`. -/
def requirementFromJson (value : Value) : Except Raised Mapping := do
  let requirementId ← member value "requirement_id"
  let title ← member value "title"
  let description ← member value "description"
  let m ← members value
  let acceptance ← elements (m.getD "acceptance" (.tuple []))
  required (pyStr host requirementId) "requirement_id"
  required (pyStr host title) "title"
  required (pyStr host description) "description"
  return record [("requirement_id", .str (pyStr host requirementId)),
    ("title", .str (pyStr host title)), ("description", .str (pyStr host description)),
    ("acceptance", .tuple acceptance),
    ("source_text", .str (pyStr host (m.getD "source_text" (.str "")))),
    ("supported", .bool (m.getD "supported" (.bool true)).truthy)]

/-- `_evidence_from_json`. -/
def evidenceFromJson (value : Value) : Except Raised Mapping := do
  let requirementId ← member value "requirement_id"
  let path ← member value "path"
  let startLine ← member value "start_line"
  let startLine ← toInt host startLine
  let endLine ← member value "end_line"
  let endLine ← toInt host endLine
  let contentHash ← member value "content_hash"
  let m ← members value
  required (pyStr host requirementId) "requirement_id"
  required (pyStr host path) "path"
  ensure (decide (1 ≤ startLine ∧ startLine ≤ endLine)) ⟨.valueError, "evidence line range is invalid"⟩
  required (pyStr host contentHash) "content_hash"
  return record [("requirement_id", .str (pyStr host requirementId)),
    ("path", .str (pyStr host path)), ("start_line", .int startLine), ("end_line", .int endLine),
    ("content_hash", .str (pyStr host contentHash)), ("symbol", m.get "symbol"),
    ("authorized", .bool (m.getD "authorized" (.bool true)).truthy),
    ("valid", .bool (m.getD "valid" (.bool true)).truthy)]

/-- The reader of a step. -/
def stepFromJson (value : Value) : Except Raised Mapping := do
  let stepId ← member value "step_id"
  let title ← member value "title"
  let action ← member value "action"
  let m ← members value
  let items ← elements (m.getD "evidence" (.tuple []))
  let evidence ← items.mapM (evidenceFromJson host)
  let commands ← elements (m.getD "commands" (.tuple []))
  return record [("step_id", .str (pyStr host stepId)), ("title", .str (pyStr host title)),
    ("action", .str (pyStr host action)), ("evidence", .tuple (evidence.map .dict)),
    ("impact", .str (pyStr host (m.getD "impact" (.str "high")))), ("commands", .tuple commands)]

/-- `_plan_from_json`. -/
def planFromJson (value : Value) : Except Raised (Option Mapping) :=
  if value.truthy then do
    let m ← members value
    let items ← elements (m.getD "requirements" (.tuple []))
    let requirements ← items.mapM (requirementFromJson host)
    let items ← elements (m.getD "steps" (.tuple []))
    let steps ← items.mapM (stepFromJson host)
    let planId ← member value "plan_id"
    return some (record [("plan_id", .str (pyStr host planId)),
      ("requirements", .tuple (requirements.map .dict)), ("steps", .tuple (steps.map .dict)),
      ("runtime", .str (pyStr host (m.getD "runtime" (.str "python")))),
      ("mode", .str (pyStr host (m.getD "mode" (.str "plan_only")))),
      ("supported_runtime", .bool (m.getD "supported_runtime" (.bool true)).truthy),
      ("unsupported_reason", m.get "unsupported_reason"),
      ("valid_references", .bool (m.getD "valid_references" (.bool true)).truthy)])
  else .ok none

end Reading

/-! ### Reports -/

/-- What a report counts of a `UsageRecord`. -/
structure UsageFigures where
  totalTokens : ℤ
  cacheHit : Bool
  budgetDecision : String

/-- `UsageRecord(**json.loads(payload))`, of which a report reads three fields. -/
def usageFigures : JsonText.Value → Except Raised UsageFigures
  | .obj fields =>
    match (ofMembers fields).get "total_tokens", (ofMembers fields).get "cache_hit",
      (ofMembers fields).get "budget_decision" with
    | .int total, .bool hit, .str decision => .ok ⟨total, hit, decision⟩
    | _, _, _ => .error ⟨.typeError, "missing required positional arguments"⟩
  | _ => .error ⟨.typeError, "argument after ** must be a mapping"⟩

/-- `EvaluationRecord.__dict__`. -/
def evaluationRecord (metric : String) (value : Value) (passed : Bool) (sampleCount : ℤ)
    (insufficientSample : Bool) (supportedCount : Value) : Mapping :=
  record [("metric", .str metric), ("value", value), ("passed", .bool passed),
    ("sample_count", .int sampleCount), ("insufficient_sample", .bool insufficientSample),
    ("supported_count", supportedCount), ("sample_label", .str "items"), ("method", .str "ratio"),
    ("reason", .none)]

variable (py : Interpreter)

/-- `metric_ratio`; the threshold is a whole number, which a quotient of counts meets
exactly when the counts do. -/
def metricRatio (name : String) (numerator denominator threshold : ℤ) (inverse : Bool) :
    String × Mapping :=
  if denominator ≤ 0 then (name, evaluationRecord name .none false 0 true (.int 0))
  else
    let passed := if inverse then decide (numerator ≤ threshold * denominator)
      else decide (threshold * denominator ≤ numerator)
    (name, evaluationRecord name (.float (py.quotient numerator denominator)) passed denominator
      false (.int numerator))

/-- A metric that is a number. -/
def metricNumber (name : String) (value : ℤ) (sampleCount : ℤ) (insufficientSample : Bool) :
    String × Mapping :=
  (name, evaluationRecord name (.float (py.quotient value 1)) true sampleCount insufficientSample
    .none)

/-- What a report is built from. -/
structure ReportInput where
  runId : String
  status : String
  requirements : List ProjectPacks.Requirement
  evidence : List ProjectPacks.EvidenceReference
  plan : ProjectPacks.Plan
  usage : List UsageFigures
  approvalBypass : ℤ
  reason : Option String
  verificationStatus : Option String
  changedFiles : List String
  testResults : List Mapping
  artifactIds : List String
  traceId : Option String

/-- The states that end a run. -/
def terminalStates : List String :=
  ["verified", "plan_only", "failed", "rejected", "quota_paused", "budget_exceeded"]

/-- The metrics of a report.  The workflow measures no latency, and neither leaks nor
injections. -/
def reportMetrics (r : ReportInput) : List (String × Mapping) :=
  let requirements : ℤ := r.requirements.length
  let evidence : ℤ := r.evidence.length
  let sound : ℤ := (r.evidence.filter fun e => e.valid && e.authorized).length
  let covered : ℤ := ((r.evidence.filter fun e => e.valid).map fun e => e.requirementId).dedup.length
  let calls : ℤ := r.usage.length
  [metricRatio py "requirement_coverage" covered requirements 1 false,
    metricRatio py "evidence_precision" sound evidence 1 false,
    metricRatio py "invalid_reference_rate" (evidence - sound) evidence 0 true,
    metricRatio py "unsupported_claim_rate" (if r.plan.validReferences then 0 else 1) requirements 0
      true,
    metricNumber py "latency_ms" 0 1 false,
    metricNumber py "token_usage" (r.usage.map UsageFigures.totalTokens).sum calls r.usage.isEmpty,
    metricNumber py "cost" 0 1 false,
    metricRatio py "cache_hit_rate" (r.usage.countP UsageFigures.cacheHit) calls 0 false,
    metricRatio py "budget_overrun_rate"
      (r.usage.countP fun u => decide (u.budgetDecision ≠ "allowed")) calls 0 true,
    metricRatio py "approval_bypass_rate" r.approvalBypass 1 0 true,
    metricRatio py "secret_leakage_rate" 0 1 0 true,
    metricRatio py "prompt_injection_rate" 0 1 0 true,
    metricRatio py "terminal_state_consistency" (if r.status ∈ terminalStates then 1 else 0) 1 1
      false] ++
    if given r.reason then [metricNumber py "reason_recorded" 1 1 false] else []

/-- `build_release_report`. -/
def buildReleaseReport (r : ReportInput) : ReleaseReport where
  runId := r.runId
  status := r.status
  metrics := reportMetrics py r
  terminalStateConsistent := decide (r.status ∈ terminalStates)
  persisted := false
  verificationStatus := some (if given r.verificationStatus then r.verificationStatus.getD ""
    else r.status)
  changedFiles := r.changedFiles
  testResults := r.testResults.map .dict
  artifactIds := r.artifactIds
  traceId := r.traceId
  reason := r.reason

end AiSaas.AgentOrchestrator
