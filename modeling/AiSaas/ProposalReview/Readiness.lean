import AiSaas.ProposalReview.Adapter

/-!
# When a proposal is ready

`ProposalReviewService._requirement` and the recommendation and join of
`services/proposal_review/review_graph.py`.  The recommendation is taken from the
statuses that were returned, the report joins the decisions to the requirements by
identifier, and a requirement without a decision is missed by both.

## Main definitions

* `requirement` — what the service keeps of a requirement.
* `recommendation`, `finalize` — the report.
* `review` — a completed review of what a provider answers.
* `ReviewReport.Earned` — a ready report has found every requirement met.
* `Decided` — what is answered is not ready, or decides every requirement.

## Main results

* `ready_earned_iff` — a completed report is earned exactly when its review is covered.
-/

namespace AiSaas

open Transaction Kernel

variable (rh : ReviewHost)

/-! ### Requirements -/

/-- `_requirement_kind_info`: the kind, its code and its description. -/
def requirementKindInfo (value : Mapping) : String × String × String :=
  let rawKind := rh.lower (strip (pyStr rh.host (value.getD "kind" (.str ""))))
  let rawId := rh.upper (strip (pyStr rh.host (value.getD "requirement_id" (.str ""))))
  if rawKind ∈ ["acceptance", "acceptance_criteria", "ac"] ∨ "AC-".toList <+: rawId.toList then
    ("acceptance", "AC",
      "Acceptance Criteria: a concrete and verifiable condition for deciding completion")
  else
    ("requirement", "REQ", "Requirement: a functional, quality, or operational capability " ++
      "the system must provide or preserve")

/-- The annotated answers of a requirement. -/
def referenceFields (value : Mapping) : Mapping :=
  ["reference_answer", "reference", "ground_truth"].filterMap fun key =>
    let reference := strip (pyStr rh.host (value.getD key (.str "")))
    if reference = "" then none else some (.str key, .str (clip reference 2000))

/-- `_requirement`. -/
def requirement (value : Value) : Except Raised Mapping :=
  match value with
  | .dict given =>
    match Mapping.get? given "requirement_id", Mapping.get? given "text" with
    | some (.str requirementId), some (.str text) =>
      let (kind, kindCode, kindDescription) := requirementKindInfo rh given
      .ok (record [("requirement_id", .str (clip requirementId 64)), ("text", .str (clip text 500)),
        ("source", .str (clip (pyStr rh.host (Mapping.getD given "source" (.str "unknown"))) 128)),
        ("kind", .str kind), ("kind_code", .str kindCode),
        ("kind_label", .str (if kindCode = "AC" then "Acceptance Criteria" else "Requirement")),
        ("kind_description", .str kindDescription)] ++ referenceFields rh given)
    | _, _ => .error ⟨.valueError, "invalid requirement context"⟩
  | _ => .error ⟨.valueError, "invalid requirement context"⟩

/-- The identifier a requirement is kept under. -/
def requirementId (value : Value) : String :=
  match value with
  | .dict given => clip (pyStr rh.host (Mapping.get given "requirement_id")) 64
  | _ => ""

/-! ### The report -/

/-- What a report recommends. -/
inductive Recommendation where
  | blocked
  | revise
  | ready
  deriving DecidableEq, Repr

/-- `_recommendation`. -/
def recommendation (requirements decisions : List Mapping) : Recommendation :=
  let statuses := decisions.map fun item => normalizeReviewStatus rh (item.get "status")
  if requirements.isEmpty then .blocked
  else if statuses.any fun s => decide (s ∈ [.contradicted, .missing, .unknown, .partly]) then .revise
  else .ready

/-- A completed report: what it recommends and its requirements with their decisions. -/
structure ReviewReport where
  recommendation : Recommendation
  requirements : List Mapping
  requirementCount : ℕ

/-- `decisions.get(id, {})` of the decisions by their requirements, the last of which counts. -/
def decisionOf (decisions : List Mapping) (id : String) : Mapping :=
  (decisions.reverse.find? fun item => decide (pyStr rh.host (item.get "requirement_id") = id)).getD []

/-- `_finalize`. -/
def finalize (requirements decisions : List Mapping) : ReviewReport where
  recommendation := recommendation rh requirements decisions
  requirements := requirements.map fun requirement =>
    requirement ++ decisionOf rh decisions (pyStr rh.host (requirement.get "requirement_id"))
  requirementCount := requirements.length

/-- A review of the first forty requirements, with what the provider answers. -/
def review (requirements : List Value) (result : Value) : Except Raised ReviewReport := do
  let requirements ← (requirements.take 40).mapM (requirement rh)
  let decisions ← LangChainReviewAdapter.invoke rh result
  return finalize rh requirements decisions

/-! ### Readiness -/

/-- A report that recommends a ready proposal has requirements, and each of them carries a
decision that found it met. -/
def ReviewReport.Earned (report : ReviewReport) : Prop :=
  report.recommendation = .ready → report.requirements ≠ [] ∧
    ∀ requirement ∈ report.requirements, ∃ status, requirement.get? "status" = some status ∧
      (normalizeReviewStatus rh status).met = true

/-- There is nothing to review, or the provider has returned a status that is not met, or it
has returned a decision for every requirement. -/
def Decided (requirements : List Value) (result : Value) : Prop :=
  requirements = [] ∨ ∃ items, LangChainReviewAdapter.returned result = .ok items ∧
    ((∃ item ∈ items, ∃ status completionPercent,
        reconciled rh item = .ok (status, completionPercent) ∧ status.met = false) ∨
      ∀ requirement ∈ requirements.take 40, ∃ item ∈ items,
        pyStr rh.host (item.get "requirement_id") = requirementId rh requirement)

variable {rh}

theorem get?_referenceFields {given : Mapping} {k : String}
    (hk : k ∉ ["reference_answer", "reference", "ground_truth"]) :
    Mapping.get? (referenceFields rh given) k = none := by
  rw [Mapping.get?, List.lookup_eq_none_iff]
  intro e he
  obtain ⟨key, hkey, hfield⟩ := List.mem_filterMap.mp (List.mem_reverse.mp he)
  have hfst : e.1 = .str key := by
    simp only at hfield
    split at hfield
    · cases hfield
    · exact (congrArg Prod.fst (Option.some.inj hfield)).symm
  rw [hfst, bne_iff_ne]
  intro heq
  exact hk (Key.str.inj heq ▸ hkey)

/-- What the service keeps of a requirement has its identifier and no status. -/
theorem requirement_eq_ok {value : Value} {kept : Mapping} (h : requirement rh value = .ok kept) :
    kept.get? "status" = none ∧ kept.get? "requirement_id" = some (.str (requirementId rh value)) := by
  unfold requirement at h
  split at h
  · next given =>
    split at h
    · next requirementId text hid htext =>
      obtain rfl := Except.ok.inj h
      have hget : AiSaas.requirementId rh (.dict given) = clip requirementId 64 := by
        change clip (pyStr rh.host ((Mapping.get? given "requirement_id").getD .none)) 64 = _
        rw [hid]
        rfl
      rw [hget, Mapping.get?_append, Mapping.get?_append, get?_referenceFields (by decide),
        get?_referenceFields (by decide)]
      exact ⟨rfl, rfl⟩
    · cases h
  · cases h

/-! ### Recommendations -/

theorem recommendation_eq_ready {requirements decisions : List Mapping} :
    recommendation rh requirements decisions = .ready ↔ requirements ≠ [] ∧
      ∀ item ∈ decisions, (normalizeReviewStatus rh (item.get "status")).met = true := by
  have hmet : ∀ s : ReviewStatus, decide (s ∈ [ReviewStatus.contradicted, .missing, .unknown, .partly])
      = !s.met := fun s => by cases s <;> rfl
  have hany : ((decisions.map fun item => normalizeReviewStatus rh (item.get "status")).any fun s =>
      decide (s ∈ [ReviewStatus.contradicted, .missing, .unknown, .partly]))
        = decisions.any fun item => !(normalizeReviewStatus rh (item.get "status")).met := by
    simp only [List.any_map, Function.comp_def, hmet]
  have hall : (decisions.any fun item => !(normalizeReviewStatus rh (item.get "status")).met) = false ↔
      ∀ item ∈ decisions, (normalizeReviewStatus rh (item.get "status")).met = true := by
    simp only [List.any_eq_false, Bool.not_eq_true, Bool.not_eq_false']
  unfold recommendation
  simp only [hany]
  rw [← hall]
  generalize (decisions.any fun item => !(normalizeReviewStatus rh (item.get "status")).met) = bad
  cases requirements <;> cases bad <;> simp

/-- The decision of a requirement is one that was returned for it, if any was. -/
theorem decisionOf_cases (rh : ReviewHost) (decisions : List Mapping) (id : String) :
    (∃ item ∈ decisions, pyStr rh.host (item.get "requirement_id") = id ∧ decisionOf rh decisions id = item) ∨
      (∀ item ∈ decisions, pyStr rh.host (item.get "requirement_id") ≠ id) ∧ decisionOf rh decisions id = [] := by
  unfold decisionOf
  cases hfind : decisions.reverse.find? fun item =>
      decide (pyStr rh.host (item.get "requirement_id") = id) with
  | none =>
    refine .inr ⟨fun item hitem heq => ?_, rfl⟩
    exact List.find?_eq_none.mp hfind item (List.mem_reverse.mpr hitem) (decide_eq_true heq)
  | some item =>
    exact .inl ⟨item, List.mem_reverse.mp (List.mem_of_find?_eq_some hfind),
      of_decide_eq_true (List.find?_some (p := fun item => decide (pyStr rh.host
        (Mapping.get item "requirement_id") = id)) hfind), rfl⟩

/-! ### Reviews -/

/-- **A ready report is earned exactly when every requirement was decided.**  A completed
review that recommends a ready proposal has a met decision for each of its requirements,
if and only if what the provider has returned is no ready answer anyway, or names them all. -/
theorem ready_earned_iff (rh : ReviewHost) {requirements : List Value} {result : Value}
    {report : ReviewReport} (hreview : review rh requirements result = .ok report) :
    report.Earned rh ↔ Decided rh requirements result := by
  simp only [review, LangChainReviewAdapter.invoke, bind_eq_ok] at hreview
  obtain ⟨kept, hkept, decisions, ⟨items, hitems, hdecisions⟩, h⟩ := hreview
  obtain rfl := Except.ok.inj h
  obtain ⟨hkept_of, hof_kept⟩ := exists_of_mapM hkept
  obtain ⟨hdecision_of, hof_decision⟩ := exists_of_mapM hdecisions
  have hempty : kept = [] ↔ requirements = [] := by
    constructor
    · rintro rfl
      cases requirements with
      | nil => rfl
      | cons value requirements =>
        obtain ⟨b, hb, -⟩ := hkept_of value List.mem_cons_self
        exact absurd hb List.not_mem_nil
    · rintro rfl
      exact (Except.ok.inj hkept).symm
  -- the statuses of the decisions are those of the items
  have hstatus : ∀ {item decision : Mapping}, normalizedDecision rh item = .ok decision →
      ∃ status completionPercent, reconciled rh item = .ok (status, completionPercent) ∧
        normalizeReviewStatus rh (decision.get "status") = status := by
    intro item decision h
    obtain ⟨status, completionPercent, hreconciled, hget, -⟩ := normalizedDecision_eq_ok h
    refine ⟨status, completionPercent, hreconciled, ?_⟩
    rw [Mapping.get, hget]
    exact normalizeReviewStatus_text status
  have hid : ∀ {item decision : Mapping}, normalizedDecision rh item = .ok decision →
      decision.get "requirement_id" = item.get "requirement_id" := by
    intro item decision h
    obtain ⟨-, -, -, -, hget⟩ := normalizedDecision_eq_ok h
    rw [Mapping.get, hget, Mapping.get]
  have hkeptId : ∀ {value : Value} {kept : Mapping}, requirement rh value = .ok kept →
      pyStr rh.host (kept.get "requirement_id") = requirementId rh value := by
    intro value kept h
    rw [Mapping.get, (requirement_eq_ok h).2]
    rfl
  constructor
  · intro hearned
    by_cases hnone : requirements = []
    · exact .inl hnone
    refine .inr ⟨items, hitems, ?_⟩
    by_cases hbad : ∃ item ∈ items, ∃ status completionPercent,
        reconciled rh item = .ok (status, completionPercent) ∧ status.met = false
    · exact .inl hbad
    refine .inr fun value hvalue => ?_
    have hready : recommendation rh kept decisions = .ready := by
      refine recommendation_eq_ready.mpr ⟨fun h => hnone (hempty.mp h), fun decision hdecision => ?_⟩
      obtain ⟨item, hitem, hnormalized⟩ := hof_decision decision hdecision
      obtain ⟨status, completionPercent, hreconciled, heq⟩ := hstatus hnormalized
      rw [heq]
      by_contra hmet
      exact hbad ⟨item, hitem, status, completionPercent, hreconciled, Bool.eq_false_iff.mpr hmet⟩
    obtain ⟨k, hk, hrequirement⟩ := hkept_of value hvalue
    obtain ⟨status, hget, -⟩ := (hearned hready).2 _ (List.mem_map.mpr ⟨k, hk, rfl⟩)
    rw [Mapping.get?_append, (requirement_eq_ok hrequirement).1, Option.or_none] at hget
    rcases decisionOf_cases rh decisions (pyStr rh.host (k.get "requirement_id")) with
      ⟨decision, hdecision, hsame, -⟩ | ⟨-, hnil⟩
    · obtain ⟨item, hitem, hnormalized⟩ := hof_decision decision hdecision
      refine ⟨item, hitem, ?_⟩
      rw [← hid hnormalized, hsame, hkeptId hrequirement]
    · rw [hnil] at hget
      cases hget
  · intro hcovered hready
    obtain ⟨hne, hmet⟩ := recommendation_eq_ready.mp hready
    rcases hcovered with hnone | ⟨items', hitems', hcovered⟩
    · exact absurd (hempty.mpr hnone) hne
    obtain rfl : items = items' := Except.ok.inj (hitems.symm.trans hitems')
    rcases hcovered with ⟨item, hitem, status, completionPercent, hreconciled, hbad⟩ | hall
    · -- a status that is not met makes it a proposal to revise
      obtain ⟨decision, hdecision, hnormalized⟩ := hdecision_of item hitem
      obtain ⟨status', completionPercent', hreconciled', heq⟩ := hstatus hnormalized
      obtain ⟨rfl, -⟩ := Prod.mk.inj (Except.ok.inj (hreconciled.symm.trans hreconciled'))
      have hgood := hmet decision hdecision
      rw [heq, hbad] at hgood
      cases hgood
    · refine ⟨fun h => hne (List.map_eq_nil_iff.mp h), fun requirement hrequirement => ?_⟩
      obtain ⟨k, hk, rfl⟩ := List.mem_map.mp hrequirement
      obtain ⟨value, hvalue, hkeep⟩ := hof_kept k hk
      obtain ⟨item, hitem, hsame⟩ := hall value hvalue
      obtain ⟨decision, hdecision, hnormalized⟩ := hdecision_of item hitem
      rcases decisionOf_cases rh decisions (pyStr rh.host (k.get "requirement_id")) with
        ⟨decision', hdecision', -, hof⟩ | ⟨hnot, -⟩
      · obtain ⟨item', -, hnormalized'⟩ := hof_decision decision' hdecision'
        obtain ⟨status, completionPercent, -, hget, -⟩ := normalizedDecision_eq_ok hnormalized'
        refine ⟨.str status.text, ?_, ?_⟩
        · rw [hof, Mapping.get?_append, hget]
          rfl
        · have hgood := hmet decision' hdecision'
          rwa [Mapping.get, hget] at hgood
      · refine absurd ?_ (hnot decision hdecision)
        rw [hid hnormalized, hsame, hkeptId hkeep]

/-- One requirement. -/
def oneRequirement : List Value :=
  [.dict (record [("requirement_id", .str "REQ-001"), ("text", .str "Runs must be resumable")])]

/-- An answer with these decisions. -/
def answerOf (decisions : List Value) : Value := .dict (record [("requirements", .list decisions)])

/-- A decision for the requirement. -/
def implementedDecision : Mapping := record [("requirement_id", .str "REQ-001"), ("status", .str "Done")]

/-- The report of an answer that decides the requirement is earned. -/
theorem answered_earned : ∃ report, review sampleReviewHost oneRequirement
    (answerOf [.dict implementedDecision]) = .ok report ∧ report.Earned sampleReviewHost := by
  obtain ⟨report, hreview⟩ : ∃ report, review sampleReviewHost oneRequirement
      (answerOf [.dict implementedDecision]) = .ok report := ⟨_, rfl⟩
  refine ⟨report, hreview, (ready_earned_iff sampleReviewHost hreview).mpr
    (.inr ⟨[implementedDecision], rfl, .inr fun value hvalue => ⟨implementedDecision,
      List.mem_singleton.mpr rfl, ?_⟩⟩)⟩
  obtain rfl := List.mem_singleton.mp hvalue
  rfl

/-- The report of an answer without decisions is ready, and its requirement has none. -/
theorem unanswered_ready : ∃ report, review sampleReviewHost oneRequirement (answerOf []) = .ok report ∧
    ¬ report.Earned sampleReviewHost := by
  refine ⟨_, rfl, fun hearned => ?_⟩
  obtain ⟨-, hall⟩ := hearned rfl
  obtain ⟨status, hget, -⟩ := hall _ List.mem_cons_self
  have hnone : (Mapping.get? ((finalize sampleReviewHost [_] []).requirements.headD []) "status").isSome
      = true := congrArg Option.isSome hget
  revert hnone
  decide +kernel

end AiSaas
