import AiSaas.ProposalReview.Shares

/-!
# The order of the evidence

`_select_relevant_evidence` puts the evidence into one bucket for each requirement and takes
the first item of each bucket in turn, in a `while` loop, until all of them are empty.  An id
that several requirements have takes several turns of a round.

## Main definitions

* `bucketsOf`, `orderOf` — the buckets, and the ids in the order in which they take turns.
* `Ends` — the loop over some buckets comes to an end with a result.
* `FairlySelected` — the loop ends with the evidence in a fair order.

## Main results

* `fairly_selected` — it always does.
-/

namespace AiSaas.ReviewService

open Transaction Kernel

variable (gh : GraphHost)

/-- The items of the evidence for an id. -/
def bucketsOf (evidence : List Mapping) (id : String) : List Mapping :=
  evidence.filter fun item => Decidable.decide (requirementKey gh item = id)

/-- The ids that take turns: those of the requirements, then those that no requirement has. -/
def orderOf (requirements evidence : List Mapping) : List String :=
  let known := requirements.map (requirementKey gh)
  known ++ ((evidence.map (requirementKey gh)).eraseDups).filter fun id => Decidable.decide (id ∉ known)

/-- The loop `while any(buckets.get(rid) for rid in order)` comes to an end with a result. -/
inductive Ends (order : List String) : (String → List Mapping) → List Mapping → Prop
  | done {buckets : String → List Mapping} (h : (order.any fun id => !(buckets id).isEmpty) = false) :
    Ends order buckets []
  | round {buckets : String → List Mapping} {rest : List Mapping}
    (h : (order.any fun id => !(buckets id).isEmpty) = true)
    (hrest : Ends order (takeRound order buckets).2 rest) :
    Ends order buckets ((takeRound order buckets).1 ++ rest)

/-- The loop ends with the evidence in a fair order. -/
structure FairlySelected (requirements evidence result : List Mapping) : Prop where
  ends : Ends (orderOf gh requirements evidence) (bucketsOf gh evidence) result
  perm : result.Perm evidence
  /-- The items for an id stay in their order. -/
  inOrder : ∀ id, bucketsOf gh result id = bucketsOf gh evidence id
  /-- With requirements of different ids, of two buckets that have items left after some
  items neither is ahead by more than one. -/
  fair : (requirements.map (requirementKey gh)).Nodup → ∀ front back, result = front ++ back →
    ∀ id other, bucketsOf gh back id ≠ [] → bucketsOf gh back other ≠ [] →
      (bucketsOf gh front id).length ≤ (bucketsOf gh front other).length + 1

variable {gh} {requirements evidence : List Mapping}

theorem ends_of_served {order : List String} {buckets : String → List Mapping} {result : List Mapping}
    (h : Turns.Served order buckets result) : Ends order buckets result := by
  induction h with
  | done h => exact .done h
  | turn h _ ih =>
    rw [← takeRound_eq_turn] at ih ⊢
    exact .round h ih

/-- Every item's id takes turns. -/
theorem mem_orderOf {item : Mapping} (h : item ∈ evidence) :
    requirementKey gh item ∈ orderOf gh requirements evidence := by
  by_cases hknown : requirementKey gh item ∈ requirements.map (requirementKey gh)
  · exact List.mem_append_left _ hknown
  · refine List.mem_append_right _ (List.mem_filter.mpr ⟨?_, decide_eq_true hknown⟩)
    exact List.mem_eraseDups.mpr (List.mem_map_of_mem h)

theorem nodup_orderOf (h : (requirements.map (requirementKey gh)).Nodup) :
    (orderOf gh requirements evidence).Nodup := by
  refine h.append ((nodup_eraseDups _).filter _) ?_
  intro id hknown hother
  exact of_decide_eq_true (List.mem_filter.mp hother).2 hknown

theorem labelled_bucketsOf : Turns.Labelled (requirementKey gh) (bucketsOf gh evidence) :=
  fun _ _ hitem => of_decide_eq_true (List.mem_filter.mp hitem).2

variable (gh requirements evidence)

/-- What is selected is served in turns. -/
theorem served_selectRelevantEvidence : Turns.Served (orderOf gh requirements evidence)
    (bucketsOf gh evidence) (selectRelevantEvidence gh requirements evidence) := by
  have hrounds : selectRelevantEvidence gh requirements evidence =
      Turns.serve (orderOf gh requirements evidence) evidence.length (bucketsOf gh evidence) :=
    rounds_eq_serve _ _ _
  rw [hrounds]
  exact Turns.served_serve labelled_bucketsOf fun id _ => List.length_filter_le _ _

/-- **The loop ends with the evidence in a fair order**: with all of it, the items of each
requirement in their order, and no requirement ahead by more than one of another. -/
theorem fairly_selected :
    FairlySelected gh requirements evidence (selectRelevantEvidence gh requirements evidence) := by
  have hserved := served_selectRelevantEvidence gh requirements evidence
  have hinOrder : ∀ id, bucketsOf gh (selectRelevantEvidence gh requirements evidence) id =
      bucketsOf gh evidence id := by
    intro id
    by_cases hid : id ∈ orderOf gh requirements evidence
    · exact hserved.filter_eq labelled_bucketsOf hid
    · -- an id that takes no turns has no items
      have hempty : bucketsOf gh evidence id = [] := by
        refine List.filter_eq_nil_iff.mpr fun item hitem hkey => hid ?_
        exact of_decide_eq_true hkey ▸ mem_orderOf hitem
      rw [hempty]
      refine List.filter_eq_nil_iff.mpr fun item hitem hkey => hid ?_
      exact of_decide_eq_true hkey ▸ hserved.label_mem labelled_bucketsOf hitem
  refine ⟨ends_of_served hserved, Turns.perm_of_ofLabel hinOrder, hinOrder, ?_⟩
  intro hnodup front back hresult id other hid hother
  obtain ⟨x, hx⟩ := List.exists_mem_of_ne_nil _ hid
  obtain ⟨y, hy⟩ := List.exists_mem_of_ne_nil _ hother
  obtain ⟨hmemx, hkeyx⟩ := List.mem_filter.mp hx
  obtain ⟨hmemy, hkeyy⟩ := List.mem_filter.mp hy
  obtain rfl := of_decide_eq_true hkeyx
  obtain rfl := of_decide_eq_true hkeyy
  exact hserved.fair labelled_bucketsOf (nodup_orderOf hnodup) hresult hmemx hmemy

end AiSaas.ReviewService
