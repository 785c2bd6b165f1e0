import AiSaas.ProposalReview.Shares
import AiSaas.ProposalReview.Synthesis

/-!
# The evidence the evaluator selects

`services/proposal_review/jev_adapter.py`, and what `_jev` makes of its answer.  The
evaluator is shown a first part of the evidence and selects by ids.  The adapter passes on
80 of them, and the node keeps all evidence that has one of these ids, shown or not, or all
of it where there are none.

## Main definitions

* `JEVReviewAdapter.invoke`, `JEVReviewAdapter.filterContext` — the adapter.
* `FilteredReview` — a review that has passed the node.
* `FilteredReview.KeepsSelected` — it kept what the evaluator selected, or all where the
  evaluator selected nothing of what it was shown.
* `Selectable` — the selection is short enough and of what was shown.

## Main results

* `keepsSelected_iff` — what was selected is kept exactly for such selections.
-/

namespace AiSaas

open Transaction Kernel ReviewGraph

/-! ### The adapter -/

/-- `JEVReviewAdapter`: its evaluator, if one is configured, and the calls it has made. -/
structure JEVReviewAdapter where
  evaluator : Option (Mapping → Except Raised Value)
  calls : ℕ

namespace JEVReviewAdapter

variable (gh : GraphHost) (dictOf : Value → Except Raised Mapping)

/-- `_invoke`. -/
def invoke (adapter : JEVReviewAdapter) (report : Mapping) : Except Raised Mapping × JEVReviewAdapter :=
  match adapter.evaluator with
  | none => (.ok (record [("status", .str "skipped"), ("reason", .str "JEV review is disabled"),
      ("score", .none)]), adapter)
  | some evaluator =>
    if 1 ≤ adapter.calls then (.error ⟨.other, "JEV review budget exhausted"⟩, adapter)
    else
      let result := match evaluator report with
        | .ok (.dict result) => .ok result
        | .ok _ => .error ⟨.valueError, "JEV result must be an object"⟩
        | .error e => .error e
      (result, { adapter with calls := adapter.calls + 1 })

/-- What a result says was selected. -/
def selectedOf (result : Mapping) : List Value :=
  match result.getD "selected_evidence_ids" (result.getD "selected_ids" (.list [])) with
  | .list items => items
  | _ => []

/-- `_result`; `dictOf` is `dict`. -/
def result (given : Mapping) : Except Raised Mapping := do
  let status := given.getD "status" (.str "completed")
  let text ← Synthesis.converting [status] (pyStr gh.host status)
  let rubric ← dictOf (given.getD "rubric" (.dict []))
  return record [("status", .str text), ("score", given.get "score"), ("rubric", .dict rubric)]

/-- The answer to a report that was made. -/
def answer (given : Mapping) : Except Raised Mapping := do
  let told ← result gh dictOf given
  let selected := (selectedOf given).take 80
  let ids ← Synthesis.converting selected (selected.map fun id => Value.str (pyStr gh.host id))
  return told ++ record [("selected_evidence_ids", .list ids)]

/-- What the evaluator is asked about a context. -/
def contextReport (context : Mapping) : Mapping := record [("mode", .str "context_filter")] ++ context

/-- `filter_context`. -/
def filterContext (adapter : JEVReviewAdapter) (context : Mapping) :
    Except Raised Mapping × JEVReviewAdapter :=
  let invoked := adapter.invoke (contextReport context)
  (invoked.1 >>= answer gh dictOf, invoked.2)

end JEVReviewAdapter

/-! ### What is kept -/

variable (gh : GraphHost) (dictOf : Value → Except Raised Mapping)

/-- `str(item.get("evidence_id"))`. -/
def evidenceIdOf (item : Mapping) : String := pyStr gh.host (item.get "evidence_id")

/-- The evidence whose candidates the evaluator is shown. -/
def shownOf (items : List Mapping) : List Mapping := items.take (candidates gh items 0 []).length

/-- The evidence the node keeps when the evaluator selects some ids. -/
def keptOf (ids : List String) (items : List Mapping) : List Mapping :=
  items.filter fun item =>
    (ids.take 80).isEmpty || Decidable.decide (evidenceIdOf gh item ∈ ids.take 80)

/-- The evidence the evaluator selects of what it is shown, or all of it where it selects
nothing of that. -/
def selectedEvidence (ids : List String) (items : List Mapping) : List Mapping :=
  if (shownOf gh items).any fun item => Decidable.decide (evidenceIdOf gh item ∈ ids) then
    (shownOf gh items).filter fun item => Decidable.decide (evidenceIdOf gh item ∈ ids)
  else items

/-- A review that has passed the node. -/
structure FilteredReview where
  adapter : JEVReviewAdapter
  state : Mapping
  items : List Mapping
  context : Mapping
  answer : Mapping
  after : Mapping
  evidence : state.get? "evidence" = some (.list (items.map .dict))
  asked : jevContext gh state = .ok context
  answered : (adapter.filterContext gh dictOf context).1 = .ok answer
  filtered : jevState gh state answer = .ok after

namespace FilteredReview

variable {gh dictOf}

/-- The ids the evaluator selected; a disabled one selects none. -/
def selection (review : FilteredReview gh dictOf) : List String :=
  match (review.adapter.invoke (JEVReviewAdapter.contextReport review.context)).1 with
  | .ok given => (JEVReviewAdapter.selectedOf given).map (pyStr gh.host)
  | .error _ => []

/-- **What was selected is kept**, in its order, and counted. -/
def KeepsSelected (review : FilteredReview gh dictOf) : Prop :=
  let selected := selectedEvidence gh review.selection review.items
  review.after.get? "evidence" = some (.list (selected.map .dict)) ∧
    ∃ jev, review.after.get? "jev" = some (.dict jev) ∧
      Mapping.get? jev "selected_count" = some (.int selected.length) ∧
      Mapping.get? jev "filtered_out" = some (.int (review.items.length - selected.length))

end FilteredReview

/-- Nothing is selected, or there is nothing to select from; or something that was shown is
selected, all of that among the first 80 ids, and nothing that was not shown is named by
those. -/
def Selectable (ids : List String) (items : List Mapping) : Prop :=
  ids = [] ∨ items = [] ∨
    ((∃ item ∈ shownOf gh items, evidenceIdOf gh item ∈ ids) ∧
      (∀ item ∈ shownOf gh items, evidenceIdOf gh item ∈ ids → evidenceIdOf gh item ∈ ids.take 80) ∧
      ∀ item ∈ items.drop (candidates gh items 0 []).length, evidenceIdOf gh item ∉ ids.take 80)

variable {gh dictOf} {ids : List String} {items : List Mapping}

/-! ### Lists -/

/-- Of two lists in a row the selected part is a part of the first one, by a wider
condition, exactly when the conditions agree on the first and nothing of the second is
selected. -/
theorem filter_append_eq_filter_iff {α : Type*} {l l' : List α} {p q : α → Bool}
    (hqp : ∀ a, q a = true → p a = true) : (l ++ l').filter q = l.filter p ↔
      (∀ a ∈ l, p a = true → q a = true) ∧ ∀ a ∈ l', q a = false := by
  constructor
  · intro h
    have hfirst : ∀ a ∈ l, p a = true → q a = true := by
      intro a ha hp
      have hmem : a ∈ (l ++ l').filter q := h ▸ List.mem_filter.mpr ⟨ha, hp⟩
      exact (List.mem_filter.mp hmem).2
    have hsame : l.filter p = l.filter q :=
      List.filter_congr fun a ha => Bool.eq_iff_iff.mpr ⟨hfirst a ha, hqp a⟩
    rw [List.filter_append, hsame, List.append_right_eq_self] at h
    refine ⟨hfirst, fun a ha => ?_⟩
    simpa using List.filter_eq_nil_iff.mp h a ha
  · rintro ⟨hfirst, hsecond⟩
    have hnil : l'.filter q = [] := List.filter_eq_nil_iff.mpr (by simpa using hsecond)
    rw [List.filter_append, hnil, List.append_nil]
    exact List.filter_congr fun a ha => Bool.eq_iff_iff.mpr ⟨hqp a, hfirst a ha⟩

/-! ### Candidates -/

/-- The candidates are those of a first part of the evidence. -/
theorem exists_candidates_eq {bytes : ℕ} {taken : List Mapping} : ∃ n,
    candidates gh items bytes taken = taken ++ (items.take n).map (candidate gh) := by
  induction items generalizing bytes taken with
  | nil => exact ⟨0, by simp [candidates]⟩
  | cons item items ih =>
    rw [candidates]
    split
    · exact ⟨0, by simp⟩
    · obtain ⟨n, hn⟩ := @ih (bytes + (pyStr gh.host (.dict (candidate gh item))).utf8ByteSize)
        (taken ++ [candidate gh item])
      exact ⟨n + 1, by rw [hn]; simp⟩

/-- **The evaluator is shown the candidates of a first part of the evidence.** -/
theorem candidates_eq : candidates gh items 0 [] = (shownOf gh items).map (candidate gh) := by
  obtain ⟨n, hn⟩ := @exists_candidates_eq gh items 0 []
  rw [List.nil_append] at hn
  rw [shownOf, hn, List.length_map, List.length_take, ← List.take_eq_take_min]

/-- The first item is shown whatever its size. -/
theorem shownOf_ne_nil (h : items ≠ []) : shownOf gh items ≠ [] := by
  obtain ⟨item, rest, rfl⟩ := List.exists_cons_of_ne_nil h
  have hcandidates : candidates gh (item :: rest) 0 [] ≠ [] := by
    rw [candidates, if_neg (by simp)]
    obtain ⟨n, hn⟩ := @exists_candidates_eq gh rest
      (0 + (pyStr gh.host (.dict (candidate gh item))).utf8ByteSize) ([] ++ [candidate gh item])
    rw [hn]
    simp
  intro hnil
  rw [candidates_eq, hnil] at hcandidates
  exact hcandidates rfl

/-! ### What the node keeps -/

/-- **What is kept is what was selected** exactly for a selection that is short enough and
of what was shown. -/
theorem keptOf_eq_iff : keptOf gh ids items = selectedEvidence gh ids items ↔ Selectable gh ids items := by
  have hsplit : shownOf gh items ++ items.drop (candidates gh items 0 []).length = items :=
    List.take_append_drop _ _
  by_cases hsome : ∃ item ∈ shownOf gh items, evidenceIdOf gh item ∈ ids
  · -- something of what was shown is selected, so that the first 80 ids are not none
    obtain ⟨item, hitem, hid⟩ := hsome
    have hne : ids ≠ [] := List.ne_nil_of_mem hid
    have hitems : items ≠ [] := List.ne_nil_of_mem (List.mem_of_mem_take hitem)
    have hfirst : (ids.take 80).isEmpty = false := by
      cases ids with
      | nil => exact absurd rfl hne
      | cons id ids => rfl
    have hselected : selectedEvidence gh ids items = (shownOf gh items).filter
        fun item => Decidable.decide (evidenceIdOf gh item ∈ ids) :=
      if_pos (List.any_eq_true.mpr ⟨item, hitem, decide_eq_true hid⟩)
    have hparts := @filter_append_eq_filter_iff _ (shownOf gh items)
      (items.drop (candidates gh items 0 []).length)
      (fun item => Decidable.decide (evidenceIdOf gh item ∈ ids))
      (fun item => Decidable.decide (evidenceIdOf gh item ∈ ids.take 80))
      fun item hfirst => decide_eq_true (List.mem_of_mem_take (of_decide_eq_true hfirst))
    rw [hsplit] at hparts
    rw [hselected, keptOf, hfirst]
    simp only [Bool.false_or, hparts, decide_eq_true_eq, decide_eq_false_iff_not]
    rw [Selectable, or_iff_right hne, or_iff_right hitems]
    exact ⟨fun h => ⟨⟨item, hitem, hid⟩, h⟩, fun h => h.2⟩
  · have hselected : selectedEvidence gh ids items = items := by
      refine if_neg fun h => hsome ?_
      obtain ⟨item, hitem, hid⟩ := List.any_eq_true.mp h
      exact ⟨item, hitem, of_decide_eq_true hid⟩
    rw [hselected, keptOf, List.filter_eq_self]
    constructor
    · intro hall
      by_cases hitems : items = []
      · exact Or.inr (Or.inl hitems)
      · have hshown : shownOf gh items ≠ [] := shownOf_ne_nil hitems
        obtain ⟨item, hitem⟩ := List.exists_mem_of_ne_nil _ hshown
        rcases Bool.or_eq_true_iff.mp (hall item (List.mem_of_mem_take hitem)) with hnil | hid
        · left
          cases ids with
          | nil => rfl
          | cons id ids => cases hnil
        · exact absurd ⟨item, hitem, List.mem_of_mem_take (of_decide_eq_true hid)⟩ hsome
    · rintro (rfl | rfl | ⟨hshown, -⟩)
      · intro item _
        rfl
      · intro item hitem
        cases hitem
      · exact absurd hshown hsome

/-- What the adapter passes on of a selection. -/
theorem FilteredReview.get?_answer (review : FilteredReview gh dictOf) :
    review.answer.get? "selected_evidence_ids" = some (.list ((review.selection.take 80).map .str)) := by
  have hanswered := review.answered
  rw [JEVReviewAdapter.filterContext] at hanswered
  obtain ⟨given, hgiven, hanswer⟩ := bind_eq_ok.mp hanswered
  have hselection : review.selection = (JEVReviewAdapter.selectedOf given).map (pyStr gh.host) := by
    rw [selection, hgiven]
  obtain ⟨told, -, hanswer⟩ := bind_eq_ok.mp hanswer
  obtain ⟨ids, hids, hanswer⟩ := bind_eq_ok.mp hanswer
  have hidsEq : ids = ((JEVReviewAdapter.selectedOf given).take 80).map
      fun id => Value.str (pyStr gh.host id) := by
    rw [Synthesis.converting] at hids
    split at hids
    · cases hids
    · exact (Except.ok.inj hids).symm
  rw [← Except.ok.inj hanswer, Mapping.get?_append, hselection, ← List.map_take, List.map_map, hidsEq]
  rfl

theorem mapM_asDict (items : List Mapping) : (items.map Value.dict).mapM ReviewGraph.asDict = .ok items := by
  refine mapM_eq_ok_iff.mpr ?_
  rw [List.forall₂_map_left_iff]
  exact List.forall₂_same.mpr fun item _ => rfl

/-- What the state says behind the node. -/
theorem FilteredReview.get?_after (review : FilteredReview gh dictOf) :
    let kept := keptOf gh review.selection review.items
    review.after.get? "evidence" = some (.list (kept.map .dict)) ∧
      ∃ jev, review.after.get? "jev" = some (.dict jev) ∧
        Mapping.get? jev "selected_count" = some (.int kept.length) ∧
        Mapping.get? jev "filtered_out" = some (.int (review.items.length - kept.length)) := by
  have hfiltered := review.filtered
  rw [jevState, Mapping.getD, Mapping.getD, review.evidence, review.get?_answer] at hfiltered
  simp only [Option.getD_some] at hfiltered
  obtain ⟨_, hlist, hfiltered⟩ := bind_eq_ok.mp hfiltered
  obtain rfl := Except.ok.inj hlist
  obtain ⟨items, hitems, hfiltered⟩ := bind_eq_ok.mp hfiltered
  obtain rfl := Except.ok.inj ((mapM_asDict review.items).symm.trans hitems)
  obtain ⟨_, hlist, hfiltered⟩ := bind_eq_ok.mp hfiltered
  obtain rfl := Except.ok.inj hlist
  obtain ⟨calls, -, hfiltered⟩ := bind_eq_ok.mp hfiltered
  have hids : ((review.selection.take 80).map Value.str).map (pyStr gh.host) = review.selection.take 80 := by
    rw [List.map_map]
    exact List.map_id _
  rw [hids] at hfiltered
  obtain hafter := Except.ok.inj hfiltered
  have hle : (keptOf gh review.selection review.items).length ≤ review.items.length :=
    List.length_filter_le _ _
  refine ⟨?_, review.answer ++ record [("candidate_count", .int (candidates gh review.items 0 []).length),
    ("selected_count", .int (keptOf gh review.selection review.items).length),
    ("filtered_out", .int (max 0 (((review.items.map Value.dict).length : ℤ) -
      (keptOf gh review.selection review.items).length)))], ?_, ?_, ?_⟩
  · rw [← hafter, Mapping.get?_append]
    rfl
  · rw [← hafter, Mapping.get?_append]
    rfl
  · rw [Mapping.get?_append]
    rfl
  · rw [Mapping.get?_append]
    have hmax : max 0 (((review.items.map Value.dict).length : ℤ) -
          (keptOf gh review.selection review.items).length)
        = review.items.length - (keptOf gh review.selection review.items).length := by
      rw [List.length_map]
      exact max_eq_right (by omega)
    rw [hmax]
    rfl

theorem map_dict_inj {l l' : List Mapping} : l.map Value.dict = l'.map Value.dict ↔ l = l' :=
  (List.map_injective_iff.mpr fun _ _ h => Value.dict.inj h).eq_iff

/-- **The node keeps what the evaluator selected** exactly where the selection is short
enough and of what was shown. -/
theorem keepsSelected_iff (review : FilteredReview gh dictOf) :
    review.KeepsSelected ↔ Selectable gh review.selection review.items := by
  obtain ⟨hevidence, jev, hjev, hcount, hout⟩ := review.get?_after
  rw [← keptOf_eq_iff]
  constructor
  · rintro ⟨hselected, -⟩
    rw [hevidence, Option.some_inj] at hselected
    exact map_dict_inj.mp (Value.list.inj hselected)
  · intro heq
    rw [heq] at hevidence hcount hout
    exact ⟨hevidence, jev, hjev, hcount, hout⟩

/-! ### A selection of nothing that was shown -/

/-- An item of evidence. -/
def shownItem : Mapping :=
  record [("requirement_id", .str "R1"), ("path", .str "a.py"), ("start_line", .int 1),
    ("end_line", .int 1), ("excerpt", .str "import"), ("score", .int 1),
    ("rationale", .str "It imports."), ("evidence_id", .str "E-001")]

/-- An evaluator that selects what is not there. -/
def strayAdapter : JEVReviewAdapter where
  evaluator := some fun _ => .ok (.dict (record [("selected_evidence_ids", .list [.str "E-999"])]))
  calls := 0

/-- A review with one item, and its evaluator. -/
def strayReview : FilteredReview ReviewService.readingHost (fun _ => .ok []) where
  adapter := strayAdapter
  state := record [("stage", .str "prepared"), ("evidence", .list [.dict shownItem])]
  items := [shownItem]
  context := record [("requirements", .list []),
    ("evidence", .list [.dict (candidate ReviewService.readingHost shownItem)])]
  answer := record [("status", .str "completed"), ("score", .none), ("rubric", .dict []),
    ("selected_evidence_ids", .list [.str "E-999"])]
  after := record [("stage", .str "prepared"), ("evidence", .list [.dict shownItem]),
    ("stage", .str "filtered"), ("evidence", .list []), ("evidence_candidates", .int 1),
    ("jev", .dict (record [("status", .str "completed"), ("score", .none), ("rubric", .dict []),
      ("selected_evidence_ids", .list [.str "E-999"]), ("candidate_count", .int 1),
      ("selected_count", .int 0), ("filtered_out", .int 1)])),
    ("provider_calls", .dict (record [("jev", .int 1)]))]
  evidence := rfl
  asked := rfl
  answered := rfl
  filtered := rfl

/-- **All evidence is lost** where the evaluator selects an id that is not there. -/
theorem strayReview_keeps_nothing : strayReview.after.get? "evidence" = some (.list []) ∧
    ¬ strayReview.KeepsSelected := by
  refine ⟨rfl, fun h => ?_⟩
  rcases (keepsSelected_iff strayReview).mp h with hids | hitems | ⟨⟨item, hitem, hid⟩, -⟩
  · cases hids
  · cases hitems
  · obtain rfl := List.mem_singleton.mp (List.mem_of_mem_take hitem)
    revert hid
    decide

end AiSaas
