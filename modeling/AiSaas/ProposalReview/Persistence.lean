import AiSaas.ProposalReview.Service

/-!
# What a review persists

Every node hands the state on with its review and its tenant, and whatever it puts
into the store is that state under that review.

## Main definitions

* `Carried` — a state of a review of a tenant.
* `Persisted` — a call that puts nothing but such a state.

## Main results

* `trail_run` — a run of the graph persists the review it was started for.
* `get?_loaded` — the members of a mapping that was dumped and loaded.
-/

namespace AiSaas

open Relational Transaction Kernel Processes Prog

/-! ### Members that are read back -/

theorem plain_record (fields : List (String × Value)) : Plain (record fields) := by
  intro member hmember
  obtain ⟨f, -, rfl⟩ := List.mem_map.mp hmember
  exact ⟨f.1, rfl⟩

theorem Plain.append {m m' : Mapping} (h : Plain m) (h' : Plain m') : Plain (m ++ m') := by
  intro member hmember
  rcases List.mem_append.mp hmember with hmember | hmember
  · exact h member hmember
  · exact h' member hmember

theorem Plain.without {m : Mapping} (h : Plain m) (key : String) :
    Plain (ReviewGraph.without m key) := fun member hmember => h member (List.mem_of_mem_filter hmember)

theorem plain_ofMembers (members : List (String × JsonText.Value)) : Plain (ofMembers members) := by
  induction members with
  | nil => exact fun member hmember => absurd hmember List.not_mem_nil
  | cons m members ih =>
    intro member hmember
    rcases List.mem_cons.mp hmember with rfl | hmember
    · exact ⟨m.1, rfl⟩
    · exact ih member hmember

/-- **The members of a mapping that was dumped and loaded.** -/
theorem get?_loaded {m : Mapping} (h : Plain m) (k : String) :
    Mapping.get? (ofMembers (sortMembers (toMembers m))) k
      = (Mapping.get? m k).map fun v => ofJson (toJson v) := by
  rw [get?_ofMembers, (sortedKeys_sortMembers _).lookup_reverse, lookup_sortMembers,
    toMembers_eq_map, Mapping.get?, ← List.map_reverse]
  have hreverse : ∀ member ∈ m.reverse, ∃ key, member.1 = .str key := fun member hmember =>
    h member (List.mem_reverse.mp hmember)
  generalize m.reverse = l at hreverse
  induction l with
  | nil => rfl
  | cons e rest ih =>
    obtain ⟨key, hkey⟩ := hreverse e List.mem_cons_self
    rw [List.map_cons, lookup_cons_eq, lookup_cons_eq, hkey, Key.text]
    by_cases hk : k = key
    · rw [if_pos hk, if_pos (congrArg Key.str hk)]
      rfl
    · rw [if_neg hk, if_neg fun h => hk (Key.str.inj h)]
      exact ih fun member hmember => hreverse member (List.mem_cons_of_mem _ hmember)

theorem get?_without {m : Mapping} {k key : String} (h : k ≠ key) :
    Mapping.get? (ReviewGraph.without m key) k = Mapping.get? m k := by
  rw [Mapping.get?, ReviewGraph.without, ← List.filter_reverse, Mapping.get?]
  induction m.reverse with
  | nil => rfl
  | cons e rest ih =>
    by_cases he : e.1 = .str key
    · have hne : ¬ Key.str k = e.1 := fun heq => h (Key.str.inj (heq.trans he))
      rw [List.filter_cons_of_neg (by simp [he]), ih, lookup_cons_eq, if_neg hne]
    · rw [List.filter_cons_of_pos (by simp [he]), lookup_cons_eq, lookup_cons_eq, ih]

/-! ### States of a review -/

/-- A state of a review, with what it says of its tenant. -/
structure Carried (reviewId : String) (tenant : Option Value) (state : Mapping) : Prop where
  plain : Plain state
  named : state.get? "review_id" = some (.str reviewId)
  owner : state.get? "tenant_id" = tenant

/-- A call that puts nothing but a state of a review, as that of its tenant. -/
def Persisted (gh : GraphHost) (reviewId : String) (tenant : Option Value) : ReviewOp → Prop
  | .put id tenantId payload status checkpoint => id = reviewId ∧
      (∃ v, tenant = some v ∧ tenantId = pyStr gh.host v) ∧ status ∈ ["running", "complete"] ∧
      ∃ stage, checkpoint = record [("stage", .str stage), ("state", .dict payload)] ∧
        Plain payload ∧ payload.get? "review_id" = some (.str reviewId)
  | .get .. | .decide .. => False
  | _ => True

section Nodes

variable {gh : GraphHost} {reviewId : String} {tenant : Option Value} {state : Mapping}
  {past : List (Entry ReviewOp ReviewOp.Ans Raised)}

/-- An update of other members carries a state on. -/
theorem Carried.update {fields : List (String × Value)} (h : Carried reviewId tenant state)
    (hid : Mapping.get? (record fields) "review_id" = none)
    (htenant : Mapping.get? (record fields) "tenant_id" = none) :
    Carried reviewId tenant (state ++ record fields) where
  plain := h.plain.append (plain_record fields)
  named := by rw [Mapping.get?_append, hid, h.named]; rfl
  owner := by rw [Mapping.get?_append, htenant, h.owner]; rfl

/-- What a program of a review comes to is a state of it. -/
def Carries (reviewId : String) (tenant : Option Value)
    (_ : List (Entry ReviewOp ReviewOp.Ans Raised)) (r : Except Raised Mapping) : Prop :=
  ∀ state, r = .ok state → Carried reviewId tenant state

theorem carries_error (e : Raised) : Carries reviewId tenant past (.error e) := fun _ h => by cases h

theorem trail_persist {status stage : String} (h : Carried reviewId tenant state)
    (hstatus : status ∈ ["running", "complete"]) :
    (ReviewGraph.persist gh state status stage).Trail (fun _ => Persisted gh reviewId tenant)
      (fun _ _ => True) past := by
  unfold ReviewGraph.persist
  refine trail_done_bind (fun _ _ => trivial) fun id hid => ?_
  refine trail_done_bind (fun _ _ => trivial) fun tenantId htenant => ?_
  have hid' : id = .str reviewId := by
    rw [ReviewGraph.item, h.named] at hid
    exact (Except.ok.inj hid).symm
  have howner : tenant = some tenantId := by
    rw [ReviewGraph.item, orRaise_eq_ok, h.owner] at htenant
    exact htenant
  subst hid'
  have hnamed : Mapping.get? (ReviewGraph.without state "tenant_id") "review_id"
      = some (.str reviewId) := by
    rw [get?_without (by decide), h.named]
  exact ⟨⟨rfl, ⟨tenantId, howner, rfl⟩, hstatus, stage, rfl, h.plain.without _, hnamed⟩,
    fun _ => trivial⟩

/-- Where the rest of a program carries the state on after it was persisted. -/
theorem trail_persist_return {status stage : String} (h : Carried reviewId tenant state)
    (hstatus : status ∈ ["running", "complete"]) :
    (ReviewGraph.persist gh state status stage >>= fun _ => pure state).Trail
      (fun _ => Persisted gh reviewId tenant) (Carries reviewId tenant) past := by
  refine Trail.bind (trail_persist h hstatus) (fun _ _ _ => ?_) fun _ e _ => carries_error e
  intro state' hstate
  obtain rfl := Except.ok.inj hstate
  exact h

theorem trail_return (h : Carried reviewId tenant state) :
    (pure state : ReviewProg Mapping).Trail (fun _ => Persisted gh reviewId tenant)
      (Carries reviewId tenant) past := by
  intro state' hstate
  obtain rfl := Except.ok.inj hstate
  exact h

theorem trail_prepare (h : Carried reviewId tenant state) :
    (ReviewGraph.prepare gh state).Trail (fun _ => Persisted gh reviewId tenant)
      (Carries reviewId tenant) past := by
  unfold ReviewGraph.prepare
  refine trail_done_bind (fun e _ => carries_error e) fun created _ => ?_
  split
  · exact trail_persist_return (h.update rfl rfl) (by decide)
  · exact trail_return h

theorem trail_jev (h : Carried reviewId tenant state) :
    (ReviewGraph.jev gh state).Trail (fun _ => Persisted gh reviewId tenant)
      (Carries reviewId tenant) past := by
  unfold ReviewGraph.jev
  refine trail_done_bind (fun e _ => carries_error e) fun passed _ => ?_
  split
  · exact trail_return h
  · refine trail_done_bind (fun e _ => carries_error e) fun context _ => ?_
    refine trail_perform_bind.mpr ⟨trivial, fun e => carries_error e, fun answer => ?_⟩
    refine trail_done_bind (fun e _ => carries_error e) fun state' hstate => ?_
    simp only [ReviewGraph.jevState, bind_eq_ok] at hstate
    obtain ⟨evidence, -, items, -, ids, -, calls, -, hstate⟩ := hstate
    obtain rfl := Except.ok.inj hstate
    exact trail_persist_return (h.update rfl rfl) (by decide)

theorem trail_synthesize (h : Carried reviewId tenant state) :
    (ReviewGraph.synthesize gh state).Trail (fun _ => Persisted gh reviewId tenant)
      (Carries reviewId tenant) past := by
  unfold ReviewGraph.synthesize
  refine trail_done_bind (fun e _ => carries_error e) fun passed _ => ?_
  split
  · exact trail_return h
  · refine trail_done_bind (fun e _ => carries_error e) fun context _ => ?_
    refine trail_perform_bind.mpr ⟨trivial, fun e => carries_error e, fun answer => ?_⟩
    refine trail_done_bind (fun e _ => carries_error e) fun state' hstate => ?_
    simp only [ReviewGraph.synthesisState, bind_eq_ok] at hstate
    obtain ⟨calls, -, hstate⟩ := hstate
    obtain rfl := Except.ok.inj hstate
    exact trail_persist_return (h.update rfl rfl) (by decide)

theorem trail_finalize (h : Carried reviewId tenant state) :
    (ReviewGraph.finalize gh state).Trail (fun _ => Persisted gh reviewId tenant)
      (Carries reviewId tenant) past := by
  unfold ReviewGraph.finalize
  split
  · exact trail_return h
  · refine trail_done_bind (fun e _ => carries_error e) fun input _ => ?_
    refine trail_perform_bind.mpr ⟨trivial, fun e => carries_error e, fun result => ?_⟩
    refine trail_done_bind (fun e _ => carries_error e) fun state' hstate => ?_
    simp only [ReviewGraph.finalState, bind_eq_ok] at hstate
    obtain ⟨synthesis, -, evidence, -, calls, -, repository, -, hstate⟩ := hstate
    obtain rfl := Except.ok.inj hstate
    exact trail_persist_return (h.update rfl rfl) (by decide)

/-- The graph starts with a state of the review its input is of. -/
theorem carried_entered {initial : Mapping} (recalled : Mapping)
    (hnamed : initial.get? "review_id" = some (.str reviewId)) :
    Carried reviewId ((initial.get? "tenant_id").or (recalled.get? "tenant_id"))
      (ReviewGraph.entered recalled initial) := by
  have hget : ∀ key, key ∈ ReviewGraph.stateKeys →
      Mapping.get? (ReviewGraph.entered recalled initial) key
        = (initial.get? key).or (recalled.get? key) := by
    intro key hkey
    rw [← Mapping.get?_append, ReviewGraph.entered, Mapping.get?, ← List.filter_reverse, Mapping.get?]
    induction (recalled ++ initial).reverse with
    | nil => rfl
    | cons e rest ih =>
      by_cases he : e.1 ∈ ReviewGraph.stateKeys.map Key.str
      · rw [List.filter_cons_of_pos (by simpa using he), lookup_cons_eq, lookup_cons_eq, ih]
      · have hne : ¬ Key.str key = e.1 := fun heq => he (heq ▸ List.mem_map_of_mem hkey)
        rw [List.filter_cons_of_neg (by simpa using he), ih, lookup_cons_eq, if_neg hne]
  refine ⟨fun member hmember => ?_, ?_, hget _ (by decide)⟩
  · have hmem := of_decide_eq_true (List.mem_filter.mp hmember).2
    obtain ⟨key, -, hkey⟩ := List.mem_map.mp hmem
    exact ⟨key, hkey.symm⟩
  · rw [hget _ (by decide), hnamed]
    rfl

/-- **A run of the graph persists the review it was started for**, as that of the tenant
its input names. -/
theorem trail_run {initial : Mapping}
    (hnamed : initial.get? "review_id" = some (.str reviewId)) :
    (ReviewGraph.run gh initial).Trail
      (fun _ op => ∃ tenant, (initial.get? "tenant_id" = none ∨ initial.get? "tenant_id" = tenant) ∧
        Persisted gh reviewId tenant op)
      (fun _ _ => True) past := by
  unfold ReviewGraph.run
  refine trail_done_bind (fun _ _ => trivial) fun id _ => ?_
  refine trail_perform_bind.mpr ⟨⟨_, .inr rfl, trivial⟩, fun _ => trivial, fun recalled => ?_⟩
  have htenant : initial.get? "tenant_id" = none ∨ initial.get? "tenant_id"
      = (initial.get? "tenant_id").or (recalled.get? "tenant_id") := by
    cases initial.get? "tenant_id" with
    | none => exact .inl rfl
    | some v => exact .inr rfl
  have hstart := carried_entered recalled hnamed
  refine Trail.mono (P := fun _ => Persisted gh reviewId
      ((initial.get? "tenant_id").or (recalled.get? "tenant_id")))
    (Q := Carries reviewId ((initial.get? "tenant_id").or (recalled.get? "tenant_id")))
    ?_ (fun _ op hop => ⟨_, htenant, hop⟩) fun _ _ _ => trivial
  refine Trail.bind (trail_prepare hstart) (fun _ state h => ?_) fun _ e _ => carries_error e
  refine Trail.bind (trail_jev (h state rfl)) (fun _ state h => ?_) fun _ e _ => carries_error e
  refine Trail.bind (trail_synthesize (h state rfl)) (fun _ state h => ?_) fun _ e _ => carries_error e
  exact trail_finalize (h state rfl)

end Nodes

end AiSaas
