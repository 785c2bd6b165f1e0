import AiSaas.Kernel.Values

/-!
# The synthesis of a proposal review

`services/proposal_review/workflow_adapter.py`: what a provider answers about the
requirements of a proposal, brought into the vocabulary of the review.  The summary,
the assessment, the proposed changes and the Markdown text are derived beside the
decisions and read by none of them.

## Main definitions

* `ReviewHost` — the interpreter's tables.
* `ReviewStatus`, `normalizeReviewStatus` — the status vocabulary.
* `normalizeCompletionPercent`, `reconcileStatusAndCompletion` — completion estimates.
* `LangChainReviewAdapter.invoke` — the decisions made of an answer.

## Main results

* `normalizeReviewStatus_text` — the vocabulary is not changed by normalizing it.
* `normalizedDecision_status` — the status of a decision.
-/

namespace AiSaas

open Transaction Kernel

/-! ### Texts -/

/-- What the review relies on of the interpreter. -/
structure ReviewHost where
  host : Host
  lower : String → String
  upper : String → String
  casefold : String → String
  /-- `int(round(float(value)))`. -/
  rounded : Value → Except Raised ℤ
  /-- `str.lower` of ASCII. -/
  lower_ascii : ∀ s, (∀ c ∈ s.toList, c.toNat < 128) → lower s = String.ofList (s.toList.map Char.toLower)

/-- An interpreter of ASCII, that rounds whole numbers only. -/
def sampleReviewHost : ReviewHost where
  host := sampleHost
  lower s := String.ofList (s.toList.map Char.toLower)
  upper s := String.ofList (s.toList.map Char.toUpper)
  casefold s := String.ofList (s.toList.map Char.toLower)
  rounded
    | .int n => .ok n
    | _ => .error ⟨.valueError, "could not convert string to float"⟩
  lower_ascii _ _ := rfl

/-- Replace every run of letters that meet `p` by one letter. -/
def collapse (p : Char → Bool) (by' : Char) (l : List Char) : List Char :=
  l.foldr (fun c rest => if p c then (if rest.head? = some by' then rest else by' :: rest) else c :: rest) []

/-- `s[:n]`. -/
def clip (s : String) (n : ℕ) : String := String.ofList (s.toList.take n)

/-- `[^a-z0-9]`. -/
def notKeyLetter (c : Char) : Bool := !(('a' ≤ c && c ≤ 'z') || ('0' ≤ c && c ≤ '9'))

/-! ### The vocabulary -/

/-- The canonical statuses of a requirement. -/
inductive ReviewStatus where
  | implemented
  | modified
  | partly
  | missing
  | contradicted
  | unknown
  deriving DecidableEq, Repr

namespace ReviewStatus

/-- The text of a status. -/
def text : ReviewStatus → String
  | implemented => "implemented"
  | modified => "modified"
  | partly => "partial"
  | missing => "missing"
  | contradicted => "contradicted"
  | unknown => "unknown"

/-- `_STATUS_ALIASES`. -/
def aliases : List (ReviewStatus × List String) :=
  [(implemented, ["implemented", "complete", "completed", "covered", "satisfied", "ready", "done",
      "fully_implemented", "fully_covered"]),
    (modified, ["modified", "diverged", "alternative", "different_approach", "adapted", "equivalent",
      "equivalent_implementation", "deviates", "alternative_implementation"]),
    (partly, ["partial", "partial_implement", "partially_implemented", "partial_implemented",
      "partial_implementation", "partially_covered", "partly_implemented", "in_progress", "revise"]),
    (missing, ["missing", "not_implemented", "not_found", "absent"]),
    (contradicted, ["contradicted", "conflict", "failed", "inconsistent"]),
    (unknown, ["unknown", "unclear", "insufficient_evidence", "unproven"])]

/-- The first status among whose aliases a text is. -/
def ofAlias (name : String) : ReviewStatus :=
  ((aliases.find? fun entry => decide (name ∈ entry.2)).map Prod.fst).getD unknown

/-- The requirement was found met. -/
def met : ReviewStatus → Bool
  | implemented | modified => true
  | _ => false

end ReviewStatus

variable (rh : ReviewHost)

/-- `value or default`, as a text. -/
def textOr (value : Value) (default : String) : String :=
  if value.truthy then pyStr rh.host value else default

/-- The letters and digits of a text, with one underscore between them. -/
def underscored (s : String) : String :=
  String.ofList (((collapse notKeyLetter '_' s.toList).dropWhile (· == '_')).reverse.dropWhile
    (· == '_')).reverse

/-- `normalize_review_status`. -/
def normalizeReviewStatus (value : Value) : ReviewStatus :=
  .ofAlias (underscored (rh.lower (strip (textOr rh value "unknown"))))

/-- `normalize_completion_percent`. -/
def normalizeCompletionPercent (value : Value) : Except Raised (Option ℤ) :=
  if value.isNone then .ok none
  else match rh.rounded value with
    | .ok percent => .ok (some (max 0 (min 100 percent)))
    | .error e => if e.kind = .typeError ∨ e.kind.isValueError then .ok none else .error e

/-- `reconcile_status_and_completion`. -/
def reconcileStatusAndCompletion (status : ReviewStatus) (completionPercent : Option ℤ) :
    ReviewStatus × Option ℤ :=
  if status = .partly ∧ completionPercent.any (100 ≤ ·) then (.implemented, some 100)
  else (status, completionPercent)

/-! ### Comments -/

/-- Comments that stand for no comment. -/
def placeholderComments : List String :=
  ["no provider comment was returned.", "no review response was returned.", "no status comment",
    "no impact summary"]

/-- `_normalize_requirement_comment`. -/
def normalizeRequirementComment (value : Value) : String :=
  let text := String.ofList (collapse isSpace ' ' (strip (textOr rh value "")).toList)
  if rh.casefold text ∈ placeholderComments then "" else clip text 640

/-- `a or b` of texts. -/
def orText (a b : String) : String := if a = "" then b else a

/-- The three comments of a requirement. -/
def commentFields (implemented notImplemented changed : String) : Mapping :=
  record [("implemented_comment", .str implemented), ("not_implemented_comment", .str notImplemented),
    ("changed_comment", .str changed)]

/-- `_derive_requirement_comments`. -/
def deriveRequirementComments (status : ReviewStatus) (comment impact risk : Value) : Mapping :=
  let primary := orText (normalizeRequirementComment rh comment) (normalizeRequirementComment rh impact)
  let riskText := normalizeRequirementComment rh risk
  match status with
  | .implemented => commentFields
      (orText primary "The available evidence supports the requirement as implemented.") "" ""
  | .modified => commentFields "The current code provides the requirement's capability." ""
      (orText primary
        "The capability is implemented through a different approach than the proposal.")
  | .partly => commentFields ("Repository evidence confirms part of the requirement, " ++
        "but the exact completed conditions are not fully classified.")
      (orText riskText (orText primary
        "The remaining conditions are not proven by the selected evidence.")) ""
  | .missing => commentFields "" (orText primary "No matching repository evidence was found.") ""
  | .contradicted => commentFields ""
      (orText primary "The selected evidence conflicts with the requirement.")
      (if impact.truthy then normalizeRequirementComment rh impact else "")
  | .unknown => commentFields ""
      (orText primary "The available evidence is insufficient to prove implementation.") ""

/-- `_normalize_requirement_comments`. -/
def normalizeRequirementComments (decision : Mapping) (status : ReviewStatus) : Mapping :=
  let implemented := normalizeRequirementComment rh (decision.get "implemented_comment")
  let notImplemented := normalizeRequirementComment rh (decision.get "not_implemented_comment")
  let changed := normalizeRequirementComment rh (decision.get "changed_comment")
  if implemented = "" ∧ notImplemented = "" ∧ changed = "" then
    deriveRequirementComments rh status (decision.get "comment") (decision.get "impact")
      (decision.get "risk")
  else commentFields implemented notImplemented changed

/-- `comment_keys_for_status`. -/
def commentKeysForStatus : ReviewStatus → List String
  | .implemented => ["implemented_comment"]
  | .modified => ["implemented_comment", "changed_comment"]
  | .partly => ["implemented_comment", "not_implemented_comment"]
  | .missing | .unknown => ["not_implemented_comment"]
  | .contradicted => ["not_implemented_comment", "changed_comment"]

/-- `_canonical_requirement_comment`. -/
def canonicalRequirementComment (decision : Mapping) (status : ReviewStatus) : String :=
  let direct := orText (normalizeRequirementComment rh (decision.get "comment"))
    (normalizeRequirementComment rh (decision.get "impact"))
  if direct ≠ "" then direct
  else " ".intercalate (((commentKeysForStatus status).map fun key =>
    normalizeRequirementComment rh (decision.get key)).filter (· ≠ "")).eraseDups

/-! ### Decisions -/

/-- The status and completion of a decision a provider returned. -/
def reconciled (item : Mapping) : Except Raised (ReviewStatus × Option ℤ) :=
  (normalizeCompletionPercent rh (item.get "completion_percent")).map
    (reconcileStatusAndCompletion (normalizeReviewStatus rh (item.get "status")))

/-- The members a decision is updated with. -/
def decisionUpdate (item : Mapping) (status : ReviewStatus) (completionPercent : Option ℤ) : Mapping :=
  let decision := item ++ record [("status", .str status.text),
    ("completion_percent", (completionPercent.map Value.int).getD .none)]
  let comments := normalizeRequirementComments rh decision status
  let comment := clip (orText (canonicalRequirementComment rh (decision ++ comments) status)
    "No provider comment was returned.") 1000
  record [("status", .str status.text),
    ("completion_percent", (completionPercent.map Value.int).getD .none)] ++ comments ++
      record [("comment", .str comment)]

/-- One decision of `invoke`. -/
def normalizedDecision (item : Mapping) : Except Raised Mapping := do
  let (status, completionPercent) ← reconciled rh item
  return item ++ decisionUpdate rh item status completionPercent

/-- The items of a list that are mappings. -/
def mappings (values : List Value) : List Mapping :=
  values.filterMap fun
    | .dict item => some item
    | _ => none

namespace LangChainReviewAdapter

/-- The decisions a provider has returned: at most forty, and mappings only. -/
def returned (result : Value) : Except Raised (List Mapping) :=
  match result with
  | .dict answer =>
    match Mapping.getD answer "requirements" (.list []) with
    | .list requirements => .ok (mappings (requirements.take 40))
    | _ => .error ⟨.valueError, "LangChain review requirements must be a list"⟩
  | _ => .error ⟨.valueError, "LangChain review output must be an object"⟩

/-- `invoke`, with what the provider answers: the decisions of the synthesis. -/
def invoke (result : Value) : Except Raised (List Mapping) := do
  let items ← returned result
  items.mapM (normalizedDecision rh)

end LangChainReviewAdapter

/-! ### What a decision says -/

variable {rh}

/-- **The vocabulary is not changed by normalizing it.** -/
theorem normalizeReviewStatus_text (s : ReviewStatus) : normalizeReviewStatus rh (.str s.text) = s := by
  have hascii : ∀ c ∈ s.text.toList, c.toNat < 128 := by cases s <;> simp [ReviewStatus.text]
  have hspace : ∀ c ∈ s.text.toList, isSpace c = false := by
    cases s <;> simp [ReviewStatus.text, isSpace]
  have htext : textOr rh (.str s.text) "unknown" = s.text := by
    cases s <;> simp [textOr, Value.truthy, pyStr, ReviewStatus.text]
  rw [normalizeReviewStatus, htext, strip_eq_self hspace, rh.lower_ascii _ hascii]
  cases s <;> decide +kernel

theorem normalizeRequirementComments_eq (rh : ReviewHost) (decision : Mapping) (status : ReviewStatus) :
    ∃ a b c, normalizeRequirementComments rh decision status = commentFields a b c := by
  unfold normalizeRequirementComments
  simp only
  split
  · cases status <;> exact ⟨_, _, _, rfl⟩
  · exact ⟨_, _, _, rfl⟩

/-- What a decision is updated with are its status, its completion and its comments. -/
theorem get?_decisionUpdate (rh : ReviewHost) (item : Mapping) (status : ReviewStatus) (completionPercent : Option ℤ) :
    Mapping.get? (decisionUpdate rh item status completionPercent) "status" = some (.str status.text) ∧
      Mapping.get? (decisionUpdate rh item status completionPercent) "requirement_id" = none := by
  unfold decisionUpdate
  obtain ⟨a, b, c, hcomments⟩ := normalizeRequirementComments_eq rh (item ++ record [("status",
    .str status.text), ("completion_percent", (completionPercent.map Value.int).getD .none)]) status
  simp only [hcomments, Mapping.get?_append]
  exact ⟨rfl, rfl⟩

/-- **What a decision says**: its item's reconciled status, about its item's requirement. -/
theorem normalizedDecision_eq_ok {item decision : Mapping}
    (h : normalizedDecision rh item = .ok decision) : ∃ status completionPercent,
      reconciled rh item = .ok (status, completionPercent) ∧
      decision.get? "status" = some (.str status.text) ∧
      decision.get? "requirement_id" = item.get? "requirement_id" := by
  simp only [normalizedDecision, bind_eq_ok] at h
  obtain ⟨⟨status, completionPercent⟩, hreconciled, h⟩ := h
  obtain rfl := Except.ok.inj h
  obtain ⟨hstatus, hid⟩ := get?_decisionUpdate rh item status completionPercent
  refine ⟨status, completionPercent, hreconciled, ?_, ?_⟩
  · rw [Mapping.get?_append, hstatus]
    rfl
  · rw [Mapping.get?_append, hid]
    rfl

end AiSaas
