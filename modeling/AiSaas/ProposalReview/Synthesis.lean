import AiSaas.ProposalReview.Adapter

/-!
# Every answer of a provider

The whole of `LangChainReviewAdapter.invoke` in
`services/proposal_review/workflow_adapter.py`, with what it converts: `str` raises for an
integer with too many digits, and `int(round(float(…)))` for one that no float reaches and
for infinity.  The texts of the Markdown proposal and of the assessment are left out, but
not what is converted for them.

## Main definitions

* `overlong`, `converting` — values whose `str` raises, and code that calls it.
* `Change`, `normalizeChanges`, `deriveChanges` — the proposed changes.
* `synthesize` — `invoke`: its decisions and its changes.
* `GoodDecision`, `GoodChange`, `Normalised` — what an answer is brought to.
* `Convertible` — nothing that is converted is overlong, and no percentage overflows.

## Main results

* `normalised_iff` — an answer is normalised exactly when it is convertible.
-/

namespace AiSaas.Synthesis

open Transaction Kernel

/-! ### Conversions -/

mutual

/-- `str(value)` raises: an integer in it has more than 4300 digits. -/
def overlong : Value → Bool
  | .int n => decide (4300 < (Nat.toDigits 10 n.natAbs).length)
  | .list items => anyOverlong items
  | .tuple items => anyOverlong items
  | .dict items => anyMember items
  | _ => false

/-- An item of a list is overlong. -/
def anyOverlong : List Value → Bool
  | [] => false
  | v :: items => overlong v || anyOverlong items

/-- A value of a mapping is overlong. -/
def anyMember : List (Key × Value) → Bool
  | [] => false
  | (_, v) :: items => overlong v || anyMember items

end

/-- `str` of an integer with too many digits. -/
def tooLong : Raised :=
  ⟨.valueError, "Exceeds the limit (4300 digits) for integer string conversion"⟩

/-- Code that converts some values to texts, and comes to `b`. -/
def converting {β : Type} (values : List Value) (b : β) : Except Raised β :=
  if values.any overlong then .error tooLong else .ok b

variable (rh : ReviewHost)

/-! ### Decisions -/

/-- The values the comments of a decision are made of. -/
def commentTexts (item : Mapping) : List Value :=
  let split := [item.get "implemented_comment", item.get "not_implemented_comment",
    item.get "changed_comment"]
  let comment := item.get "comment"
  let impact := item.get "impact"
  let impactBehind := if normalizeRequirementComment rh comment = "" then [impact] else []
  let derived :=
    if split.all fun value => normalizeRequirementComment rh value = "" then
      comment :: impactBehind ++ [item.get "risk"] ++
        (if normalizeReviewStatus rh (item.get "status") = .contradicted then [impact] else [])
    else []
  split ++ derived ++ comment :: impactBehind

/-- One decision of `invoke`. -/
def decide' (item : Mapping) : Except Raised Mapping := do
  converting [item.get "status"] ()
  let (status, completionPercent) ← reconciled rh item
  converting (commentTexts rh item) (item ++ decisionUpdate rh item status completionPercent)

/-! ### Changes -/

/-- A proposed change. -/
structure Change where
  type : String
  before : String
  after : String
  reason : String
  deriving DecidableEq

/-- `_change_type`. -/
def changeType (value : Value) : String :=
  let letters := collapse (fun c => !('a' ≤ c && c ≤ 'z')) '_'
    (rh.lower (strip (textOr rh value "changed"))).toList
  let normalized := String.ofList ((letters.dropWhile (· == '_')).reverse.dropWhile (· == '_')).reverse
  if normalized ∈ ["changed", "added", "deleted"] then normalized else "changed"

/-- `str(item.get(key, "")).strip()`. -/
def textAt (item : Mapping) (key : String) : String :=
  strip (pyStr rh.host (item.getD key (.str "")))

/-- What one change of `_normalize_changes` converts. -/
def changeTexts (item : Mapping) : List Value :=
  [item.getD "before" (.str ""), item.getD "after" (.str ""), item.getD "reason" (.str "")] ++
    if textAt rh item "before" = "" ∧ textAt rh item "after" = "" then [] else [item.get "type"]

/-- One change of `_normalize_changes`. -/
def normalizeChange (item : Mapping) : Option Change :=
  let before := textAt rh item "before"
  let after := textAt rh item "after"
  if before = "" ∧ after = "" then none
  else some ⟨changeType rh (item.get "type"), clip before 1000, clip after 1000,
    clip (textAt rh item "reason") 1000⟩

/-- The mappings among the first sixty changes. -/
def changeItems (value : Value) : List Mapping :=
  match value with
  | .list items => mappings (items.take 60)
  | _ => []

/-- `_normalize_changes`. -/
def normalizeChanges (value : Value) : Except Raised (List Change) :=
  converting ((changeItems value).flatMap (changeTexts rh))
    ((changeItems value).filterMap (normalizeChange rh))

/-- The bounded context: the requirements of the proposal, by their ids, with their texts. -/
structure Context where
  requirements : List (String × String)

/-- The requirement of a decision in the context: the last one of its id. -/
def Context.original (ctx : Context) (decision : Mapping) : Option String :=
  ctx.requirements.reverse.lookup (pyStr rh.host (decision.getD "requirement_id" (.str "")))

/-- The text of the requirement of a decision, or else the decision's own. -/
def requirementText (ctx : Context) (decision : Mapping) : String :=
  match ctx.original rh decision with
  | some text => strip text
  | none => textAt rh decision "text"

/-- What one decision of `_derive_changes` converts. -/
def deriveTexts (ctx : Context) (decision : Mapping) : List Value :=
  [decision.getD "requirement_id" (.str "")] ++
    (if (ctx.original rh decision).isNone then [decision.getD "text" (.str "")] else []) ++
    if requirementText rh ctx decision = "" then []
    else [decision.getD "impact" (.str ""), decision.getD "risk" (.str "")]

/-- One decision of `_derive_changes`. -/
def deriveChange (ctx : Context) (decision : Mapping) : Option Change :=
  let text := requirementText rh ctx decision
  let impact := textAt rh decision "impact"
  let risk := textAt rh decision "risk"
  if text = "" then none
  else
    match normalizeReviewStatus rh (decision.get "status") with
    | .partly => some ⟨"changed", text, orText impact ("Only part of the implementation is " ++
        "evidenced; the remaining conditions must be completed."), orText risk ("Only part of the " ++
        "requirement is evidenced, so it is classified as partial implementation.")⟩
    | .modified => some ⟨"changed", text,
        orText impact "The requirement is met through a different implementation approach.",
        orText risk ("The current implementation is functionally equivalent but differs from the " ++
          "proposal.")⟩
    | .missing => some ⟨"added", "No additional implementation", text,
        orText impact "No evidence was found in the current code that satisfies this requirement."⟩
    | .contradicted => some ⟨"changed", text,
        orText impact "The current implementation must be aligned with the requirement.",
        orText risk "The current code contains evidence that conflicts with the requirement."⟩
    | .implemented | .unknown => none

/-- `_derive_changes`. -/
def deriveChanges (ctx : Context) (decisions : List Mapping) : Except Raised (List Change) :=
  converting (decisions.flatMap (deriveTexts rh ctx))
    ((decisions.filterMap (deriveChange rh ctx)).take 60)

/-! ### The rest of the answer -/

/-- What `_normalize_assessment` converts. -/
def assessmentTexts (value : Value) : List Value :=
  match value with
  | .dict assessment => ["pros", "cons", "limitations"].flatMap fun key =>
    match Mapping.getD assessment key (.list []) with
    | .list items => items.take 8
    | _ => []
  | _ => []

/-- What the Markdown text says of a decision: its id, impact and risk. -/
def markdownRow (decision : Mapping) : Value × Value × Value :=
  (decision.get "requirement_id", decision.getD "impact" (.str ""), decision.getD "risk" (.str ""))

/-- What `_proposal_markdown` converts: the ids of the decisions, and impact and risk of the
last one of each requirement. -/
def markdownTexts (ctx : Context) (decisions : List Mapping) : List Value :=
  let rows := decisions.map markdownRow
  rows.map Prod.fst ++ ctx.requirements.flatMap fun requirement =>
    match rows.reverse.find? fun row => pyStr rh.host row.1 = requirement.1 with
    | some row => [row.2.1, row.2.2]
    | none => []

/-- What is converted behind the decisions and the changes. -/
def restTexts (ctx : Context) (answer : Mapping) (decisions : List Mapping) : List Value :=
  assessmentTexts (answer.get "assessment") ++ [answer.getD "summary" (.str "")] ++
    markdownTexts rh ctx decisions

/-- The changes of an answer, or those that are derived from its decisions. -/
def changesOf (ctx : Context) (answer : Mapping) (decisions : List Mapping) :
    Except Raised (List Change) :=
  (normalizeChanges rh (answer.get "changes")).bind fun given =>
    if given = [] then deriveChanges rh ctx decisions else .ok given

/-- `invoke`, with what the provider answers: the decisions and the changes. -/
def synthesize (ctx : Context) (answer : Mapping) : Except Raised (List Mapping × List Change) := do
  let items ← LangChainReviewAdapter.returned (.dict answer)
  let decisions ← items.mapM (decide' rh)
  let changes ← changesOf rh ctx answer decisions
  converting (restTexts rh ctx answer decisions) (decisions, changes)

/-! ### What an answer is brought to -/

/-- A decision in the vocabulary of the review. -/
def GoodDecision (decision : Mapping) : Prop :=
  ∃ (status : ReviewStatus) (percent : Option ℤ) (comment : String),
    decision.get? "status" = some (.str status.text) ∧
    decision.get? "completion_percent" = some ((percent.map Value.int).getD .none) ∧
    (∀ n, percent = some n → 0 ≤ n ∧ n ≤ 100) ∧ ¬ (status = .partly ∧ percent = some 100) ∧
    decision.get? "comment" = some (.str comment) ∧ comment ≠ "" ∧ comment.length ≤ 1000

/-- A change that says something. -/
def GoodChange (change : Change) : Prop :=
  change.type ∈ ["changed", "added", "deleted"] ∧ (change.before ≠ "" ∨ change.after ≠ "")

/-- An answer without a list of requirements is refused; another one is brought into the
vocabulary of the review. -/
def Normalised (ctx : Context) (answer : Mapping) : Prop :=
  match answer.getD "requirements" (.list []) with
  | .list _ => ∃ decisions changes, synthesize rh ctx answer = .ok (decisions, changes) ∧
      (∀ decision ∈ decisions, GoodDecision decision) ∧ ∀ change ∈ changes, GoodChange change
  | _ => synthesize rh ctx answer =
      .error ⟨.valueError, "LangChain review requirements must be a list"⟩

/-- A percentage is a number that can be rounded, or what is no number. -/
def Rounds (value : Value) : Prop :=
  value.isNone = true ∨
    ∀ e, rh.rounded value = .error e → e.kind = .typeError ∨ e.kind.isValueError = true

/-- No value is overlong. -/
def AllShort (values : List Value) : Prop := ∀ v ∈ values, overlong v = false

/-- Nothing that is converted is overlong, and no percentage overflows. -/
def Convertible (ctx : Context) (answer : Mapping) : Prop :=
  match answer.getD "requirements" (.list []) with
  | .list requirements =>
    let items := mappings (requirements.take 40)
    let proposed := changeItems (answer.get "changes")
    (∀ item ∈ items, overlong (item.get "status") = false ∧
      Rounds rh (item.get "completion_percent") ∧ AllShort (commentTexts rh item)) ∧
    AllShort (proposed.flatMap (changeTexts rh)) ∧
    (proposed.filterMap (normalizeChange rh) = [] → AllShort (items.flatMap (deriveTexts rh ctx))) ∧
    AllShort (restTexts rh ctx answer items)
  | _ => True

variable {rh} {ctx : Context} {answer item decision : Mapping} {items decisions : List Mapping}
  {change : Change}

theorem converting_eq_ok {β : Type} {values : List Value} {b b' : β} :
    converting values b = .ok b' ↔ AllShort values ∧ b = b' := by
  rw [converting, AllShort]
  split
  · next h =>
    simp only [reduceCtorEq, false_iff, not_and]
    intro hall
    obtain ⟨v, hv, hlong⟩ := List.any_eq_true.mp h
    rw [hall v hv] at hlong
    cases hlong
  · next h =>
    have hall : ∀ v ∈ values, overlong v = false := by simpa using h
    simp only [Except.ok.injEq]
    exact (and_iff_right hall).symm

/-! ### One decision -/

theorem strip_clip_ne_empty {s : String} {n : ℕ} (hs : s ≠ "") (hn : 0 < n) : clip s n ≠ "" := by
  intro hempty
  have hlist := congrArg String.toList hempty
  rw [clip, String.toList_ofList, String.toList_empty, List.take_eq_nil_iff] at hlist
  rcases hlist with hzero | hnil
  · omega
  · exact hs (String.toList_inj.mp hnil)

theorem length_clip_le (s : String) (n : ℕ) : (clip s n).length ≤ n := by
  rw [clip, String.length_ofList, List.length_take]
  omega

theorem exists_normalizeCompletionPercent (value : Value) :
    (∃ percent, normalizeCompletionPercent rh value = .ok percent) ↔ Rounds rh value := by
  rw [normalizeCompletionPercent, Rounds]
  cases hnone : value.isNone with
  | true => simp
  | false =>
    simp only [Bool.false_eq_true, if_false, false_or]
    cases hrounded : rh.rounded value with
    | ok percent => simp
    | error e =>
      by_cases he : e.kind = .typeError ∨ e.kind.isValueError = true
      · simp [he]
      · simp [he]

theorem percent_of_normalize {value : Value} {percent : Option ℤ}
    (h : normalizeCompletionPercent rh value = .ok percent) :
    ∀ n, percent = some n → 0 ≤ n ∧ n ≤ 100 := by
  rintro n rfl
  rw [normalizeCompletionPercent] at h
  split at h
  · cases h
  · split at h
    · next p hp =>
      obtain rfl := Option.some.inj (Except.ok.inj h)
      omega
    · split at h <;> cases h

/-- The status and the completion of a decision. -/
theorem reconciled_eq_ok {status : ReviewStatus} {percent : Option ℤ}
    (h : reconciled rh item = .ok (status, percent)) :
    (∀ n, percent = some n → 0 ≤ n ∧ n ≤ 100) ∧ ¬ (status = .partly ∧ percent = some 100) := by
  obtain ⟨raw, hraw, heq⟩ := map_eq_ok.mp h
  have hbounds := percent_of_normalize hraw
  rw [reconcileStatusAndCompletion] at heq
  split at heq
  · obtain ⟨rfl, rfl⟩ := Prod.mk.inj heq
    refine ⟨?_, fun hpartly => by cases hpartly.1⟩
    rintro n hn
    obtain rfl := Option.some.inj hn
    omega
  · next hnot =>
    obtain ⟨rfl, rfl⟩ := Prod.mk.inj heq
    refine ⟨hbounds, ?_⟩
    rintro ⟨hstatus, rfl⟩
    exact hnot ⟨hstatus, by simp⟩

/-- A member that a decision is not updated with. -/
theorem get?_decision {status : ReviewStatus} {percent : Option ℤ} {key : String}
    (hkey : key ∈ ["requirement_id", "text", "impact", "risk"]) :
    Mapping.get? (item ++ decisionUpdate rh item status percent) key = item.get? key := by
  have hnone : Mapping.get? (decisionUpdate rh item status percent) key = none := by
    unfold decisionUpdate
    obtain ⟨a, b, c, hcomments⟩ := normalizeRequirementComments_eq rh (item ++ record [("status",
      .str status.text), ("completion_percent", (percent.map Value.int).getD .none)]) status
    simp only [hcomments, Mapping.get?_append]
    simp only [List.mem_cons, List.not_mem_nil, or_false] at hkey
    rcases hkey with rfl | rfl | rfl | rfl <;> rfl
  rw [Mapping.get?_append, hnone, Option.none_or]

theorem goodDecision {status : ReviewStatus} {percent : Option ℤ}
    (h : reconciled rh item = .ok (status, percent)) :
    GoodDecision (item ++ decisionUpdate rh item status percent) := by
  obtain ⟨hbounds, hpartial⟩ := reconciled_eq_ok h
  set comments := normalizeRequirementComments rh (item ++ record [("status", .str status.text),
    ("completion_percent", (percent.map Value.int).getD .none)]) status with hcomments
  set canonical := orText (canonicalRequirementComment rh ((item ++ record [("status",
    .str status.text), ("completion_percent", (percent.map Value.int).getD .none)]) ++ comments) status)
    "No provider comment was returned." with hcanonical
  have hne : canonical ≠ "" := by
    rw [hcanonical, orText]
    split
    · decide
    · assumption
  obtain ⟨a, b, c, hfields⟩ := normalizeRequirementComments_eq rh (item ++ record [("status",
    .str status.text), ("completion_percent", (percent.map Value.int).getD .none)]) status
  have hupdate : decisionUpdate rh item status percent = record [("status", .str status.text),
      ("completion_percent", (percent.map Value.int).getD .none)] ++ commentFields a b c ++
        record [("comment", .str (clip canonical 1000))] := by
    rw [decisionUpdate]
    simp only [hcanonical, hcomments, hfields]
  refine ⟨status, percent, clip canonical 1000, ?_, ?_, hbounds, hpartial, ?_,
    strip_clip_ne_empty hne (by decide), length_clip_le _ _⟩
  all_goals
    rw [hupdate]
    simp only [Mapping.get?_append]
    rfl

/-- One decision is made exactly when what it converts can be converted. -/
theorem exists_decide : (∃ decision, decide' rh item = .ok decision) ↔
    overlong (item.get "status") = false ∧ Rounds rh (item.get "completion_percent") ∧
      AllShort (commentTexts rh item) := by
  constructor
  · rintro ⟨decision, h⟩
    obtain ⟨_, hstatus, h⟩ := bind_eq_ok.mp h
    obtain ⟨⟨status, percent⟩, hreconciled, h⟩ := bind_eq_ok.mp h
    obtain ⟨raw, hraw, -⟩ := map_eq_ok.mp hreconciled
    refine ⟨(converting_eq_ok.mp hstatus).1 _ List.mem_cons_self,
      (exists_normalizeCompletionPercent _).mp ⟨raw, hraw⟩, (converting_eq_ok.mp h).1⟩
  · rintro ⟨hstatus, hrounds, hcomments⟩
    obtain ⟨raw, hraw⟩ := (exists_normalizeCompletionPercent _).mpr hrounds
    have hshort : AllShort [item.get "status"] := by
      intro v hv
      obtain rfl := List.mem_singleton.mp hv
      exact hstatus
    refine ⟨_, bind_eq_ok.mpr ⟨(), converting_eq_ok.mpr ⟨hshort, rfl⟩, bind_eq_ok.mpr
      ⟨_, map_eq_ok.mpr ⟨raw, hraw, rfl⟩, converting_eq_ok.mpr ⟨hcomments, rfl⟩⟩⟩⟩

/-- A decision that is made is good, and says of its requirement what its item says. -/
theorem decide_eq_ok (h : decide' rh item = .ok decision) : GoodDecision decision ∧
    ∀ key ∈ ["requirement_id", "text", "impact", "risk"], decision.get? key = item.get? key := by
  obtain ⟨_, _, h⟩ := bind_eq_ok.mp h
  obtain ⟨⟨status, percent⟩, hreconciled, h⟩ := bind_eq_ok.mp h
  obtain ⟨-, rfl⟩ := converting_eq_ok.mp h
  exact ⟨goodDecision hreconciled, fun key hkey => get?_decision hkey⟩

/-- What is read of the decisions behind `invoke`'s loop is what their items say. -/
theorem texts_of_decisions (h : items.mapM (decide' rh) = .ok decisions) :
    decisions.flatMap (deriveTexts rh ctx) = items.flatMap (deriveTexts rh ctx) ∧
      restTexts rh ctx answer decisions = restTexts rh ctx answer items := by
  have hrows : decisions.map markdownRow = items.map markdownRow ∧
      decisions.flatMap (deriveTexts rh ctx) = items.flatMap (deriveTexts rh ctx) := by
    induction items generalizing decisions with
    | nil =>
      obtain rfl := Except.ok.inj h
      exact ⟨rfl, rfl⟩
    | cons item items ih =>
      obtain ⟨decision, rest, hdecision, hrest, rfl⟩ := mapM_cons_eq_ok.mp h
      obtain ⟨hrows, htexts⟩ := ih hrest
      have hsame := (decide_eq_ok hdecision).2
      have hid := hsame "requirement_id" (by decide)
      have htext := hsame "text" (by decide)
      have himpact := hsame "impact" (by decide)
      have hrisk := hsame "risk" (by decide)
      constructor
      · rw [List.map_cons, List.map_cons, hrows]
        simp only [markdownRow, Mapping.get, Mapping.getD, hid, himpact, hrisk]
      · rw [List.flatMap_cons, List.flatMap_cons, htexts]
        have horiginal : ctx.original rh decision = ctx.original rh item := by
          simp only [Context.original, Mapping.getD, hid]
        have hrequirement : requirementText rh ctx decision = requirementText rh ctx item := by
          simp only [requirementText, horiginal, textAt, Mapping.getD, htext]
        rw [deriveTexts, deriveTexts, horiginal, hrequirement]
        simp only [Mapping.getD, hid, htext, himpact, hrisk]
  refine ⟨hrows.2, ?_⟩
  simp only [restTexts, markdownTexts, hrows.1]

/-! ### Changes -/

theorem clip_ne_empty {s : String} (h : s ≠ "") : clip s 1000 ≠ "" :=
  strip_clip_ne_empty h (by decide)

theorem goodChange_of_normalize (h : normalizeChange rh item = some change) : GoodChange change := by
  rw [normalizeChange] at h
  split at h
  · cases h
  · next hne =>
    obtain rfl := Option.some.inj h
    constructor
    · simp only [changeType]
      split
      · assumption
      · decide
    · by_cases hbefore : textAt rh item "before" = ""
      · exact Or.inr (clip_ne_empty fun hafter => hne ⟨hbefore, hafter⟩)
      · exact Or.inl (clip_ne_empty hbefore)

theorem goodChange_of_derive (h : deriveChange rh ctx decision = some change) :
    GoodChange change := by
  rw [deriveChange] at h
  split at h
  · cases h
  · next htext =>
    split at h
    case h_1 | h_2 | h_4 =>
      obtain rfl := Option.some.inj h
      exact ⟨List.mem_cons_self, Or.inl htext⟩
    case h_3 =>
      obtain rfl := Option.some.inj h
      exact ⟨List.mem_cons_of_mem _ List.mem_cons_self, Or.inr htext⟩
    all_goals cases h

/-- The changes are found exactly when what is converted for them can be. -/
theorem exists_changesOf : (∃ changes, changesOf rh ctx answer decisions = .ok changes) ↔
    AllShort ((changeItems (answer.get "changes")).flatMap (changeTexts rh)) ∧
      ((changeItems (answer.get "changes")).filterMap (normalizeChange rh) = [] →
        AllShort (decisions.flatMap (deriveTexts rh ctx))) := by
  rw [changesOf, normalizeChanges, converting]
  split
  · next hany =>
    refine iff_of_false (by rintro ⟨changes, h⟩; cases h) fun h => ?_
    obtain ⟨v, hv, hlong⟩ := List.any_eq_true.mp hany
    rw [h.1 v hv] at hlong
    cases hlong
  · next hany =>
    have hall : AllShort ((changeItems (answer.get "changes")).flatMap (changeTexts rh)) := by
      intro v hv
      rw [Bool.eq_false_iff]
      exact fun hlong => hany (List.any_eq_true.mpr ⟨v, hv, hlong⟩)
    simp only [Except.bind]
    split
    · next hnil =>
      constructor
      · rintro ⟨changes, h⟩
        exact ⟨hall, fun _ => (converting_eq_ok.mp h).1⟩
      · rintro ⟨-, h⟩
        exact ⟨_, converting_eq_ok.mpr ⟨h hnil, rfl⟩⟩
    · next hne => exact ⟨fun _ => ⟨hall, fun hnil => absurd hnil hne⟩, fun _ => ⟨_, rfl⟩⟩

theorem goodChange_of_changesOf {changes : List Change}
    (h : changesOf rh ctx answer decisions = .ok changes) : ∀ change ∈ changes, GoodChange change := by
  intro change hchange
  rw [changesOf, normalizeChanges, converting] at h
  split at h
  · cases h
  · simp only [Except.bind] at h
    split at h
    · obtain ⟨-, rfl⟩ := converting_eq_ok.mp h
      obtain ⟨decision, -, hderive⟩ := List.mem_filterMap.mp (List.mem_of_mem_take hchange)
      exact goodChange_of_derive hderive
    · obtain rfl := Except.ok.inj h
      obtain ⟨item, -, hnormalize⟩ := List.mem_filterMap.mp hchange
      exact goodChange_of_normalize hnormalize

/-! ### The answer -/

theorem exists_mapM_decide : (∃ decisions, items.mapM (decide' rh) = .ok decisions) ↔
    ∀ item ∈ items, overlong (item.get "status") = false ∧
      Rounds rh (item.get "completion_percent") ∧ AllShort (commentTexts rh item) := by
  constructor
  · rintro ⟨decisions, h⟩ item hitem
    obtain ⟨decision, -, hdecision⟩ := (exists_of_mapM h).1 item hitem
    exact exists_decide.mp ⟨decision, hdecision⟩
  · exact fun h => exists_mapM_eq_ok fun item hitem => exists_decide.mpr (h item hitem)

/-- An interpreter of ASCII that rounds whole numbers, and for which infinity overflows. -/
def overflowHost : ReviewHost where
  __ := sampleReviewHost
  rounded
    | .int n => .ok n
    | .float .infinity => .error ⟨.overflowError, "cannot convert float infinity to integer"⟩
    | _ => .error ⟨.valueError, "could not convert string to float"⟩

/-- A requirement that is complete without end. -/
def endlessAnswer : Mapping := record [("requirements", .list [.dict (record
  [("requirement_id", .str "R1"), ("completion_percent", .float .infinity)])])]

end AiSaas.Synthesis
