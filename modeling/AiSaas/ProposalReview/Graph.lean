import AiSaas.Lib.Processes
import AiSaas.ProposalReview.ArtifactStore
import AiSaas.ProposalReview.Readiness

/-!
# The graph of a review

`ProposalReviewGraph` of `services/proposal_review/review_graph.py`.  Four nodes run
in a row over one state: prepare, filter the evidence, synthesize, finalize.  A node
skips itself by the stage it finds, and persists the state without its tenant.

The nodes are programs over calls of the store, of the two providers and of the
evaluation, and over what LangGraph has kept in memory for the thread of a review.

## Main definitions

* `GraphHost` — what the graph relies on of the interpreter.
* `ReviewOp`, `ReviewDraw`, `ReviewOp.exec` — what a review calls, what is drawn for
  it, and what it does.
* `ReviewGraph.prepare`, `jev`, `synthesize`, `finalize` — the nodes.
* `ReviewGraph.run`, `ReviewGraph.resume` — the graph.
-/

namespace AiSaas

open Relational Transaction Kernel Processes

/-- What the graph relies on of the interpreter, and what it derives of a report. -/
structure GraphHost extends ReviewHost where
  /-- `len(json.dumps(value, sort_keys=True, ensure_ascii=False).encode("utf-8"))`. -/
  jsonSize : Value → ℕ
  /-- `type(exc).__name__`. -/
  typeName : Raised → String
  /-- `round(min(1.0, evidence_count / max(1, len(requirements) * 3)), 3)`. -/
  coverage : ℕ → ℕ → Value
  /-- `_derive_assessment`. -/
  deriveAssessment : Mapping → List Mapping → Value

/-- What `evaluate_with_ragas` returns; the records with their thresholds. -/
structure RagasResult where
  driftReport : Mapping
  method : String
  error : Value
  referenceAnswers : Mapping
  referenceSources : Mapping
  metadata : Mapping

/-! ### What a review calls -/

/-- A call of a review. -/
inductive ReviewOp where
  | put (reviewId tenantId : String) (payload : Mapping) (status : String) (checkpoint : Mapping)
  | get (reviewId tenantId : String)
  | decide (reviewId tenantId decision reason reviewer : String)
  /-- What LangGraph has kept of the thread in this process. -/
  | memory (threadId : String)
  /-- `jev.filter_context(context)`. -/
  | filterContext (context : Mapping)
  /-- `synthesizer.invoke(context)`. -/
  | synthesize (context : Mapping)
  /-- `evaluate_with_ragas(decisions, evidence, requirements, repository)`. -/
  | evaluate (decisions : List Mapping) (evidence : Value) (requirements : List Mapping)
      (repository : Value)

/-- What a call returns. -/
abbrev ReviewOp.Ans : ReviewOp → Type
  | put .. => Unit
  | get .. | decide .. => ReviewDetail
  | memory .. | filterContext .. | synthesize .. => Mapping
  | evaluate .. => Option RagasResult

/-- A program of the review. -/
abbrev ReviewProg := Prog ReviewOp ReviewOp.Ans Raised

/-- What a call draws: the clock, LangGraph's memory, and the answers of the providers
and of the evaluation to what they are given. -/
structure ReviewDraw where
  now : String
  recalled : Mapping
  filterContext : Mapping → Except Raised Mapping
  synthesize : Mapping → Except Raised Mapping
  evaluate : List Mapping → Value → List Mapping → Value → Except Raised (Option RagasResult)

/-- What a call does to the store, and its answer. -/
def ReviewOp.exec (drawn : ReviewDraw) :
    (op : ReviewOp) → ReviewDatabase → Except Raised op.Ans × ReviewDatabase
  | put reviewId tenantId payload status checkpoint, db =>
    atomically (ReviewDatabase.put reviewId tenantId payload status checkpoint drawn.now) db
  | get reviewId tenantId, db => (db.get reviewId tenantId, db)
  | decide reviewId tenantId decision reason reviewer, db =>
    atomically (ReviewDatabase.decide reviewId tenantId decision reason reviewer drawn.now) db
  | memory _, db => (.ok drawn.recalled, db)
  | filterContext context, db => (drawn.filterContext context, db)
  | synthesize context, db => (drawn.synthesize context, db)
  | evaluate decisions evidence requirements repository, db =>
    (drawn.evaluate decisions evidence requirements repository, db)

namespace ReviewGraph

variable (gh : GraphHost)

/-! ### Members of a state -/

/-- `state[key]`. -/
def item (state : Mapping) (key : String) : Except Raised Value :=
  orRaise (state.get? key) ⟨.keyError, "'" ++ key ++ "'"⟩

/-- A value with `get` and `items`. -/
def asDict : Value → Except Raised Mapping
  | .dict members => .ok members
  | _ => .error ⟨.attributeError, "object has no attribute 'get'"⟩

/-- A value that is iterated over. -/
def asList : Value → Except Raised (List Value)
  | .list items => .ok items
  | .tuple items => .ok items
  | _ => .error ⟨.typeError, "object is not iterable"⟩

/-- `state.get("stage") in names`; a list or a dict has no hash. -/
def stageIn (state : Mapping) (names : List String) : Except Raised Bool :=
  match state.get "stage" with
  | .str stage => .ok (decide (stage ∈ names))
  | .list _ | .dict _ => .error ⟨.typeError, "unhashable type"⟩
  | _ => .ok false

/-- The mapping without a key. -/
def without (state : Mapping) (key : String) : Mapping :=
  state.filter fun member => decide (member.1 ≠ .str key)

/-! ### The nodes -/

/-- `_persist`. -/
def persist (state : Mapping) (status checkpoint : String) : ReviewProg Unit := do
  let payload := without state "tenant_id"
  let reviewId ← .done (item state "review_id")
  let tenantId ← .done (item state "tenant_id")
  Prog.perform (ReviewOp.put (pyStr gh.host reviewId) (pyStr gh.host tenantId) payload status
    (record [("stage", .str checkpoint), ("state", .dict payload)]))

/-- `_prepare`. -/
def prepare (state : Mapping) : ReviewProg Mapping := do
  let created ← .done (stageIn state ["created"])
  if created || (state.get "stage").isNone then
    let state := state ++ record [("stage", .str "prepared")]
    persist gh state "running" "prepared"
    return state
  else return state

/-- One candidate of `_jev`. -/
def candidate (evidence : Mapping) : Mapping :=
  let kept := ["evidence_id", "requirement_id", "path", "start_line", "end_line", "excerpt",
    "rationale", "score"].filterMap fun key => (evidence.get? key).map fun value => (Key.str key, value)
  let short (key : String) : String := clip (pyStr gh.host (Mapping.getD kept key (.str ""))) 280
  kept ++ record [("excerpt", .str (short "excerpt")), ("rationale", .str (short "rationale"))]

/-- The candidates, up to their bound in bytes. -/
def candidates : List Mapping → ℕ → List Mapping → List Mapping
  | [], _, taken => taken
  | evidence :: rest, bytes, taken =>
    let made := candidate gh evidence
    let size := (pyStr gh.host (.dict made)).utf8ByteSize
    if taken ≠ [] ∧ 48000 < bytes + size then taken
    else candidates rest (bytes + size) (taken ++ [made])

/-- `{**calls, name: count}` of `state.get("provider_calls", {})`. -/
def countCall (state : Mapping) (name : String) (count : ℤ) : Except Raised Mapping :=
  (asDict (state.getD "provider_calls" (.dict []))).map fun calls =>
    calls ++ record [(name, .int count)]

/-- What `_jev` asks the filter about. -/
def jevContext (state : Mapping) : Except Raised Mapping := do
  let evidence ← asList (state.getD "evidence" (.list []))
  let items ← evidence.mapM asDict
  let requirements ← asList (state.getD "requirements" (.list []))
  return record [("requirements", .list (requirements.take 40)),
    ("evidence", .list ((candidates gh items 0 []).map .dict))]

/-- The state of `_jev` with the filter's answer. -/
def jevState (state answer : Mapping) : Except Raised Mapping := do
  let evidence ← asList (state.getD "evidence" (.list []))
  let items ← evidence.mapM asDict
  let ids ← asList (answer.getD "selected_evidence_ids" (.list []))
  let selectedIds := ids.map (pyStr gh.host)
  let filtered := items.filter fun item =>
    selectedIds.isEmpty || decide (pyStr gh.host (Mapping.get item "evidence_id") ∈ selectedIds)
  let skipped : Bool := match answer.get "status" with
    | .str s => decide (s = "skipped")
    | _ => false
  let providerCalls ← countCall state "jev" (if skipped then 0 else 1)
  let jev := answer ++ record [("candidate_count", .int (candidates gh items 0 []).length),
    ("selected_count", .int filtered.length),
    ("filtered_out", .int (max 0 ((evidence.length : ℤ) - filtered.length)))]
  return state ++ record [("stage", .str "filtered"), ("evidence", .list (filtered.map .dict)),
    ("evidence_candidates", .int evidence.length), ("jev", .dict jev),
    ("provider_calls", .dict providerCalls)]

/-- `_jev`. -/
def jev (state : Mapping) : ReviewProg Mapping := do
  let passed ← .done (stageIn state ["filtered", "evaluated", "synthesized", "complete"])
  if passed then return state
  else
    let context ← .done (jevContext gh state)
    let answer ← Prog.perform (ReviewOp.filterContext context)
    let state ← .done (jevState gh state answer)
    persist gh state "running" "filtered"
    return state

/-- What `_synthesize` asks the provider about. -/
def synthesisContext (state : Mapping) : Except Raised Mapping := do
  let repository ← asDict (state.getD "repository" (.dict []))
  return record [("mode", state.getD "mode" (.str "impact")),
    ("document", state.getD "document" (.dict [])),
    ("repository", .dict (without repository "file_manifest")),
    ("requirements", state.getD "requirements" (.list [])),
    ("evidence", state.getD "evidence" (.list []))]

/-- The state of `_synthesize` with the provider's answer. -/
def synthesisState (state synthesis : Mapping) : Except Raised Mapping := do
  let providerCalls ← countCall state "langchain" 1
  return state ++ record [("stage", .str "synthesized"), ("synthesis", .dict synthesis),
    ("provider_calls", .dict providerCalls)]

/-- `_synthesize`. -/
def synthesize (state : Mapping) : ReviewProg Mapping := do
  let passed ← .done (stageIn state ["synthesized", "evaluated", "complete"])
  if passed then return state
  else
    let context ← .done (synthesisContext state)
    let synthesis ← Prog.perform (ReviewOp.synthesize context)
    let state ← .done (synthesisState state synthesis)
    persist gh state "running" "synthesized"
    return state

/-- What a report says of an evaluation. -/
def driftFields : Option RagasResult → Mapping
  | none => record [("drift_report", .dict []), ("drift_method", .str "ragas-unavailable"),
      ("drift_error", .none), ("ragas_reference_answers", .dict []),
      ("ragas_reference_sources", .dict []), ("ragas_metadata", .dict [])]
  | some result => record [("drift_report", .dict result.driftReport),
      ("drift_method", .str result.method), ("drift_error", result.error),
      ("ragas_reference_answers", .dict result.referenceAnswers),
      ("ragas_reference_sources", .dict result.referenceSources),
      ("ragas_metadata", .dict result.metadata)]

/-- The text of a recommendation. -/
def recommendationText : Recommendation → String
  | .blocked => "blocked"
  | .revise => "revise"
  | .ready => "ready"

/-- `{str(item.get("requirement_id")): item}`: one decision for each requirement, the last of
which counts, where the first one stood. -/
def decisionsById (decisions : List Mapping) : List Mapping :=
  ((decisions.map fun item => pyStr gh.host (item.get "requirement_id")).eraseDups).map
    (decisionOf gh.toReviewHost decisions)

/-- What `_finalize` reads of a state: the requirements and the decisions returned for them. -/
def finalInput (state : Mapping) : Except Raised (List Mapping × List Mapping) := do
  let synthesis ← asDict (state.getD "synthesis" (.dict []))
  let returned ← asList (Mapping.getD synthesis "requirements" (.list []))
  let listed ← asList (state.getD "requirements" (.list []))
  let requirements ← listed.mapM asDict
  return (requirements, mappings returned)

/-- The state of `_finalize` with the evaluation. -/
def finalState (state : Mapping) (requirements decisions : List Mapping)
    (result : Option RagasResult) : Except Raised Mapping := do
  let synthesis ← asDict (state.getD "synthesis" (.dict []))
  let evidence ← asList (state.getD "evidence" (.list []))
  let calls ← asDict (state.getD "provider_calls" (.dict []))
  let repository ← asDict (state.getD "repository" (.dict []))
  let reported := requirements.map fun requirement => requirement ++
    decisionOf gh.toReviewHost decisions (pyStr gh.host (requirement.get "requirement_id"))
  let assessment := synthesis.get "assessment"
  let report := record [("mode", state.getD "mode" (.str "impact")),
      ("recommendation",
        .str (recommendationText (recommendation gh.toReviewHost requirements decisions))),
      ("requirements", .list (reported.map .dict)),
      ("summary", synthesis.getD "summary" (.str "")),
      ("assessment",
        if assessment.truthy then assessment else gh.deriveAssessment state reported),
      ("changes", synthesis.getD "changes" (.list [])),
      ("proposal_markdown", synthesis.getD "proposal_markdown" (.str "")),
      ("evidence_count", .int evidence.length),
      ("evidence_candidates", state.getD "evidence_candidates" (.int evidence.length)),
      ("requirement_count", .int requirements.length),
      ("evidence_coverage", gh.coverage evidence.length requirements.length)] ++
    driftFields result ++
    record [("provider_calls", .dict (record [("langchain", .int 0), ("jev", .int 0)] ++ calls)),
      ("jev", state.getD "jev" (.dict [])),
      ("unknowns", repository.getD "unknowns" (.list [])),
      ("no_code_execution", .bool true)]
  return state ++ record [("stage", .str "complete"), ("report", .dict report)]

/-- `state.get("stage") == "complete" and state.get("report")`. -/
def finished (state : Mapping) : Bool :=
  match state.get "stage" with
  | .str stage => decide (stage = "complete") && (state.get "report").truthy
  | _ => false

/-- `_finalize`. -/
def finalize (state : Mapping) : ReviewProg Mapping := do
  if finished state then return state
  else
    let (requirements, decisions) ← .done (finalInput state)
    let result ← Prog.perform (ReviewOp.evaluate (decisionsById gh decisions)
      (state.getD "evidence" (.list [])) requirements (state.getD "repository" (.dict [])))
    let state ← .done (finalState gh state requirements decisions result)
    persist gh state "complete" "complete"
    return state

/-! ### The graph -/

/-- The keys of `ReviewState`. -/
def stateKeys : List String :=
  ["review_id", "tenant_id", "mode", "stage", "document", "repository", "requirements", "evidence",
    "evidence_candidates", "synthesis", "jev", "provider_calls", "report"]

/-- The state the graph starts with: the input over what was kept of its thread, without
the members that the state does not have. -/
def entered (recalled initial : Mapping) : Mapping :=
  (recalled ++ initial).filter fun member => decide (member.1 ∈ stateKeys.map Key.str)

/-- `run`. -/
def run (initial : Mapping) : ReviewProg Mapping := do
  let reviewId ← .done (item initial "review_id")
  let recalled ← Prog.perform (ReviewOp.memory (pyStr gh.host reviewId))
  let state ← prepare gh (entered recalled initial)
  let state ← jev gh state
  let state ← synthesize gh state
  finalize gh state

/-- `resume`. -/
def resume (reviewId tenantId : String) : ReviewProg Mapping := do
  let stored ← Prog.perform (ReviewOp.get reviewId tenantId)
  let checkpoint ← .done (asDict (ofJson stored.checkpoint))
  match Mapping.get checkpoint "state" with
  | .dict state => run gh state
  | _ => .raise ⟨.valueError, "review checkpoint is invalid"⟩

end ReviewGraph

end AiSaas
