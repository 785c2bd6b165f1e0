import AiSaas.Kernel.Proposals
import AiSaas.ProposalReview.Graph

/-!
# The service of reviews

`ProposalReviewService` of `services/proposal_review/service.py`: what it makes of a
request, and its calls.  The id of a review is the client's where the request has one.

A Python `dict` is told from another by its members and not by their order, so the
input of a review is kept by its sorted members.

## Main definitions

* `ReviewService.buildInitial` — the input of a review.
* `ReviewCall`, `ReviewCall.program` — the calls.
* `ReviewService.system` — calls that run beside each other.
-/

namespace AiSaas

open Relational Transaction Kernel Processes

namespace ReviewService

variable (gh : GraphHost)

/-! ### Evidence -/

/-- `is_valid_evidence_range`. -/
def isValidEvidenceRange (startLine endLine : ℤ) : Bool :=
  decide (1 ≤ startLine ∧ startLine ≤ endLine ∧ endLine - startLine + 1 ≤ 3)

/-- `int(value)` where `TypeError` and `ValueError` are one. -/
def lineNumber (value : Value) : Except Raised ℤ :=
  match toInt gh.host value with
  | .ok n => .ok n
  | .error e =>
    if e.kind = .typeError ∨ e.kind.isValueError then
      .error ⟨.valueError, "invalid evidence line range"⟩
    else .error e

/-- The text ends a sentence. -/
def endsSentence (text : String) : Bool :=
  text.toList.getLast?.any fun c => decide (c ∈ ['.', '!', '?', '。', '！', '？'])

/-- `_evidence`. -/
def evidence (value : Value) : Except Raised (Option Mapping) :=
  match value with
  | .dict given =>
    match Mapping.get? given "requirement_id", Mapping.get? given "path" with
    | some (.str requirementId), some (.str path) => do
      let startLine ← lineNumber gh (Mapping.getD given "start_line" (Mapping.getD given "line" (.int 0)))
      let endLine ← lineNumber gh (Mapping.getD given "end_line" (.int startLine))
      ensure (isValidEvidenceRange startLine endLine)
        ⟨.valueError, "evidence line range must contain one to three lines"⟩
      let rationale := strip (pyStr gh.host (Mapping.getD given "rationale" (.str "")))
      if !endsSentence rationale then return none
      else
        let contentHash := strip (pyStr gh.host (Mapping.getD given "content_hash" (.str "")))
        let score ← toInt gh.host (Mapping.getD given "score" (.int 0))
        let hash := if contentHash = "" then [] else
          record [("content_hash", .str (clip contentHash 128))]
        return some (record [("requirement_id", .str (clip requirementId 64)),
          ("path", .str (clip path 300)), ("start_line", .int startLine), ("end_line", .int endLine),
          ("excerpt", .str (clip (pyStr gh.host (Mapping.getD given "excerpt" (.str ""))) 720)),
          ("score", .int score), ("rationale", .str (clip rationale 600))] ++ hash)
    | _, _ => .error ⟨.valueError, "invalid evidence context"⟩
  | _ => .error ⟨.valueError, "invalid evidence context"⟩

/-- `str(item.get("requirement_id", ""))`. -/
def requirementKey (item : Mapping) : String :=
  pyStr gh.host (item.getD "requirement_id" (.str ""))

/-- One round over the requirements: the first item that each has left. -/
def takeRound (order : List String) (buckets : String → List Mapping) :
    List Mapping × (String → List Mapping) :=
  order.foldl (fun (taken, buckets) id =>
    match buckets id with
    | [] => (taken, buckets)
    | item :: rest => (taken ++ [item], fun other => if other = id then rest else buckets other))
    ([], buckets)

/-- Rounds until nothing is left; a round takes something. -/
def rounds (order : List String) : ℕ → (String → List Mapping) → List Mapping
  | 0, _ => []
  | n + 1, buckets =>
    if order.any fun id => !(buckets id).isEmpty then
      (takeRound order buckets).1 ++ rounds order n (takeRound order buckets).2
    else []

/-- `_select_relevant_evidence`. -/
def selectRelevantEvidence (requirements evidence : List Mapping) : List Mapping :=
  let known := requirements.map (requirementKey gh)
  let others := ((evidence.map (requirementKey gh)).eraseDups).filter fun id => decide (id ∉ known)
  rounds (known ++ others) evidence.length fun id =>
    evidence.filter fun item => decide (requirementKey gh item = id)

/-- An index in three digits. -/
def evidenceId (index : ℕ) : String :=
  "E-" ++ String.ofList (List.replicate (3 - (toString index).length) '0') ++ toString index

/-- `_bound_evidence`, after the items that were kept. -/
def boundFrom : ℕ → ℕ → List Mapping → List Mapping → List Mapping
  | _, _, kept, [] => kept
  | index, total, kept, value :: rest =>
    let compact := value ++ record [("evidence_id", .str (evidenceId index)),
      ("excerpt", .str (clip (pyStr gh.host (value.getD "excerpt" (.str ""))) 2000)),
      ("rationale", .str (clip (pyStr gh.host (value.getD "rationale" (.str ""))) 420))]
    let size := gh.jsonSize (.dict compact)
    if kept ≠ [] ∧ 96000 < total + size then boundFrom (index + 1) total kept rest
    else boundFrom (index + 1) (total + size) (kept ++ [compact]) rest

/-- `_bound_evidence`. -/
def boundEvidence (values : List Mapping) : List Mapping := boundFrom gh 1 0 [] (values.take 120)

/-! ### The input of a review -/

/-- The members a request must not have. -/
def forbidden : List String :=
  ["command", "shell", "build_command", "test_command", "raw_repository", "repository_bytes",
    "file_content"]

/-- The members a request may have. -/
def knownFields : List String :=
  ["review_id", "tenant_id", "mode", "document", "repository", "requirements", "evidence"]

/-- The members of a mapping under some names, with `None` for those it lacks. -/
def selected (names : List String) (given : Mapping) : Mapping :=
  names.map fun name => (Key.str name, given.get name)

/-- The files of a repository that are told by their path and digest. -/
def fileManifest (repository : Mapping) : Except Raised (List Value) := do
  let files ← ReviewGraph.asList (repository.getD "file_manifest" (.list []))
  return (files.take 600).filter fun
    | .dict file =>
      match Mapping.get file "path", Mapping.get file "sha256" with
      | .str _, .str _ => true
      | _, _ => false
    | _ => false

/-- A mapping by its sorted members. -/
def sorted (m : Mapping) : Mapping := ofMembers (sortMembers (toMembers m))

/-- The id of a review: the client's, or a new one. -/
def reviewIdOf (uuid : String) (body : Mapping) : String :=
  if (body.get "review_id").truthy then pyStr gh.host (body.get "review_id") else "review-" ++ uuid

/-- `len(json.dumps(value, sort_keys=True, default=str).encode("utf-8"))`; the text is of
ASCII characters. -/
def encodedSize (m : Mapping) : ℕ := (JsonText.write (toJson (.dict m))).length

/-- `_build_initial`; `uuid` is drawn for a review without an id. -/
def buildInitial (uuid tenantId : String) (request : List (String × JsonText.Value)) :
    Except Raised Mapping := do
  let body := ofMembers request
  let mode := gh.lower (strip (pyStr gh.host (body.getD "mode" (.str "impact"))))
  ensure (mode ∈ ["implementation", "impact"]) ⟨.valueError, "mode must be implementation or impact"⟩
  match body.get "document", body.get "repository" with
  | .dict document, .dict repository =>
    match body.getD "requirements" (.list []), body.getD "evidence" (.list []) with
    | .list requirements, .list given =>
      ensure (forbidden.all fun key => (body.get? key).isNone)
        ⟨.valueError, "review accepts analysis context, not commands or raw repository data"⟩
      let _ ← dumps (.dict body)
      ensure (!(decide (160000 < encodedSize body) &&
          body.any fun member => decide (member.1.text ∉ knownFields)))
        ⟨.valueError, "review context is too large"⟩
      let sanitized ← (requirements.take 40).mapM (requirement gh.toReviewHost)
      let found ← (given.take 200).mapM (evidence gh)
      let bounded := boundEvidence gh (selectRelevantEvidence gh sanitized (found.filterMap id))
      let files ← fileManifest repository
      let initial := record [("review_id", .str (reviewIdOf gh uuid body)), ("tenant_id", .str tenantId),
        ("mode", .str mode), ("stage", .str "created"),
        ("document",
          .dict (selected ["name", "media_type", "sha256", "extraction_confidence"] document)),
        ("repository", .dict (selected ["root_name", "branch", "head", "fingerprint", "unknowns"]
          repository ++ record [("file_manifest", .list files)])),
        ("requirements", .list (sanitized.map .dict)), ("evidence", .list (bounded.map .dict))]
      let _ ← dumps (.dict initial)
      ensure (decide (encodedSize initial ≤ 160000))
        ⟨.valueError, "review context is too large after bounded evidence extraction"⟩
      return sorted initial
    | _, _ => .error ⟨.valueError, "requirements and evidence must be lists"⟩
  | _, _ => .error ⟨.valueError, "document and repository context are required"⟩

end ReviewService

/-! ### Calls -/

/-- Every key is a string. -/
def Plain (m : Mapping) : Prop := ∀ member ∈ m, ∃ key, member.1 = .str key

/-- The input of a worker, as it was queued: it names its review and its tenant. -/
structure QueuedReview where
  initial : Mapping
  reviewId : String
  tenantId : String
  plain : Plain initial
  named : initial.get? "review_id" = some (.str reviewId)
  owned : initial.get? "tenant_id" = some (.str tenantId)

/-- A call of the service; a worker runs in the background what was queued. -/
inductive ReviewCall where
  | start (tenantId : String) (body : List (String × JsonText.Value)) (uuid : String)
  | enqueue (tenantId : String) (body : List (String × JsonText.Value)) (uuid : String)
  | runBackground (queued : QueuedReview)
  | resume (reviewId tenantId : String)
  | decide (reviewId tenantId : String) (body : Mapping)

/-- What a call returns. -/
inductive ReviewAnswer where
  /-- The review as it is stored, with the stage the graph has come to. -/
  | stored (detail : ReviewDetail) (stage : Option Value)
  /-- A queued review and the input for the worker. -/
  | queued (reviewId tenantId : String) (payload initial : Mapping)

namespace ReviewService

variable (gh : GraphHost)

/-- The review that is stored already, unless there is none for the tenant. -/
def known (reviewId tenantId : String) : ReviewProg (Option ReviewDetail) := do
  match ← (Prog.perform (ReviewOp.get reviewId tenantId)).attempt with
  | .ok detail => return some detail
  | .error e => if e.kind = .keyError then return none else .raise e

/-- `start`. -/
def start (tenantId : String) (body : List (String × JsonText.Value)) (uuid : String) :
    ReviewProg ReviewAnswer := do
  let initial ← .done (buildInitial gh uuid tenantId body)
  let reviewId := pyStr gh.host (initial.get "review_id")
  match ← known reviewId tenantId with
  | some detail => return .stored detail none
  | none =>
    let result ← ReviewGraph.run gh initial
    let detail ← Prog.perform (ReviewOp.get reviewId tenantId)
    return .stored detail (some (result.get "stage"))

/-- `enqueue`. -/
def enqueue (tenantId : String) (body : List (String × JsonText.Value)) (uuid : String) :
    ReviewProg ReviewAnswer := do
  let initial ← .done (buildInitial gh uuid tenantId body)
  let reviewId := pyStr gh.host (initial.get "review_id")
  match ← known reviewId tenantId with
  | some detail => return .stored detail none
  | none =>
    let payload := ReviewGraph.without initial "tenant_id"
    Prog.perform (ReviewOp.put reviewId tenantId payload "queued"
      (record [("stage", .str "queued"), ("state", .dict initial)]))
    return .queued reviewId tenantId payload initial

/-- `run_background`. -/
def runBackground (initial : Mapping) : ReviewProg ReviewAnswer := do
  let reviewId := pyStr gh.host (initial.getD "review_id" (.str ""))
  let tenantId := pyStr gh.host (initial.getD "tenant_id" (.str ""))
  let body : ReviewProg ReviewAnswer := do
    let result ← ReviewGraph.run gh initial
    let detail ← Prog.perform (ReviewOp.get reviewId tenantId)
    return .stored detail (some (result.get "stage"))
  match ← body.attempt with
  | .ok answer => return answer
  | .error e =>
    let message := gh.typeName e ++ ": " ++ clip e.message 240
    let payload := ReviewGraph.without initial "tenant_id" ++ record [("error", .str message)]
    Prog.perform (ReviewOp.put reviewId tenantId payload "failed"
      (record [("stage", .str "failed"), ("state", .dict payload)]))
    let detail ← Prog.perform (ReviewOp.get reviewId tenantId)
    return .stored detail none

/-- `resume`. -/
def resume (reviewId tenantId : String) : ReviewProg ReviewAnswer := do
  let _ ← ReviewGraph.resume gh reviewId tenantId
  let detail ← Prog.perform (ReviewOp.get reviewId tenantId)
  return .stored detail none

/-- `decide`. -/
def decide (reviewId tenantId : String) (body : Mapping) : ReviewProg ReviewAnswer := do
  match body.get "decision", body.getD "reason" (.str ""), body.getD "reviewer" (.str tenantId) with
  | .str decision, .str reason, .str reviewer =>
    let detail ← Prog.perform (ReviewOp.decide reviewId tenantId decision reason reviewer)
    return .stored detail none
  | _, _, _ => .raise ⟨.valueError, "decision, reason, and reviewer must be strings"⟩

end ReviewService

namespace ReviewCall

/-- The program of a call. -/
def program (gh : GraphHost) : ReviewCall → ReviewProg ReviewAnswer
  | start tenantId body uuid => ReviewService.start gh tenantId body uuid
  | enqueue tenantId body uuid => ReviewService.enqueue gh tenantId body uuid
  | runBackground queued => ReviewService.runBackground gh queued.initial
  | resume reviewId tenantId => ReviewService.resume gh reviewId tenantId
  | decide reviewId tenantId body => ReviewService.decide reviewId tenantId body

/-- The tenant a call is made under. -/
def tenant : ReviewCall → String
  | start tenantId .. | enqueue tenantId .. | resume _ tenantId | decide _ tenantId _ => tenantId
  | runBackground queued => queued.tenantId

end ReviewCall

/-- Calls that run beside each other, each of them call of the store by call of the store. -/
def ReviewService.system (gh : GraphHost) :
    System ReviewCall ReviewOp ReviewOp.Ans Raised ReviewAnswer ReviewDatabase ReviewDraw where
  program := ReviewCall.program gh
  exec := ReviewOp.exec

end AiSaas
