import AiSaas.ProposalReview.Persistence

/-!
# Reviews of different tenants

A review is read and decided under its id and its tenant, but stored under its id
alone, and the id is the client's.  A call that stores a review under an id that no
other tenant has taken leaves every other tenant's reviews as they are.

## Main definitions

* `Names` — a checkpoint's state names its review.
* `Proper` — what a call asks the store for, on its own behalf.
* `Owned` — the review that is put belongs to nobody else.
* `Undisturbed` — a step changes what no other tenant reads.

## Main results

* `trail_program` — the calls of the service ask for what is proper.
* `reviews_facts` — a review keeps its owner, and its checkpoint names it.
* `reviews_apart` — in every run whose puts are owned, no tenant is disturbed.
-/

namespace AiSaas

open Relational Transaction Kernel Processes Prog Runs

/-! ### What the calls ask for -/

/-- A checkpoint's state names its review. -/
def Names (checkpoint : JsonText.Value) (reviewId : String) : Prop :=
  ∀ members state, ReviewGraph.asDict (ofJson checkpoint) = .ok members →
    Mapping.get members "state" = .dict state →
      Mapping.get? state "review_id" = some (.str reviewId)

/-- A checkpoint as it is put: its state names the review. -/
def NamesState (checkpoint : Mapping) (reviewId : String) : Prop :=
  ∃ stage state, checkpoint = record [("stage", .str stage), ("state", .dict state)] ∧
    Plain state ∧ Mapping.get? state "review_id" = some (.str reviewId)

/-- The call has read a review of its tenant whose checkpoint names another one. -/
def Strayed (call : ReviewCall) (past : List (Entry ReviewOp ReviewOp.Ans Raised)) : Prop :=
  ∃ reviewId detail, ⟨.get reviewId call.tenant, .ok detail⟩ ∈ past ∧
    ¬ Names detail.checkpoint reviewId

/-- What a call asks for on behalf of its tenant: a review is put as the tenant's or
was read as the tenant's before. -/
def Proper (call : ReviewCall) (past : List (Entry ReviewOp ReviewOp.Ans Raised)) :
    ReviewOp → Prop
  | .put id tenantId _ status checkpoint =>
    status ∈ ["queued", "running", "complete", "failed"] ∧ NamesState checkpoint id ∧
      (tenantId = call.tenant ∨ ∃ detail, ⟨.get id call.tenant, .ok detail⟩ ∈ past)
  | .decide _ tenantId .. => tenantId = call.tenant
  | _ => True

section Trails

variable {gh : GraphHost} {call : ReviewCall} {past : List (Entry ReviewOp ReviewOp.Ans Raised)}

/-- Along a trail the past is kept. -/
theorem trail_keep {α : Type} {P : List (Entry ReviewOp ReviewOp.Ans Raised) → ReviewOp → Prop}
    {Q : List (Entry ReviewOp ReviewOp.Ans Raised) → Except Raised α → Prop}
    {e : Entry ReviewOp ReviewOp.Ans Raised} {prog : ReviewProg α} (h : prog.Trail P Q past)
    (he : e ∈ past) : prog.Trail (fun past op => e ∈ past ∧ P past op) Q past := by
  induction prog generalizing past with
  | done r => exact h
  | call op next ih =>
    exact ⟨⟨he, h.1⟩, fun r => ih r (h.2 r) (List.mem_cons_of_mem _ he)⟩

theorem trail_trivial {α : Type} (prog : ReviewProg α) :
    prog.Trail (fun _ _ => True) (fun _ _ => True) past := by
  induction prog generalizing past with
  | done r => trivial
  | call op next ih => exact ⟨trivial, fun r => ih r⟩

/-- What a run persists is proper if it is under the call's tenant, or the call has read
the review as its own. -/
theorem proper_of_persisted {reviewId : String} {tenant : Option Value} {op : ReviewOp}
    (h : Persisted gh reviewId tenant op)
    (howner : tenant = some (.str call.tenant) ∨
      ∃ detail, ⟨.get reviewId call.tenant, .ok detail⟩ ∈ past) : Proper call past op := by
  cases op with
  | put id tenantId payload status checkpoint =>
    obtain ⟨rfl, ⟨v, hv, rfl⟩, hstatus, stage, hcheckpoint, hplain, hnamed⟩ := h
    refine ⟨?_, ⟨stage, payload, hcheckpoint, hplain, hnamed⟩, ?_⟩
    · simp only [List.mem_cons, List.not_mem_nil, or_false] at hstatus ⊢
      rcases hstatus with rfl | rfl <;> simp
    · rcases howner with howner | hread
      · obtain rfl := Option.some.inj (hv.symm.trans howner)
        exact .inl rfl
      · exact .inr hread
  | get | decide => exact absurd h id
  | memory | filterContext | synthesize | evaluate => trivial

/-- A run under the tenant of the call, or of a review that the call has read as its own. -/
theorem trail_run_proper {reviewId : String} {initial : Mapping}
    (hnamed : initial.get? "review_id" = some (.str reviewId))
    (howner : initial.get? "tenant_id" = some (.str call.tenant) ∨
      ∃ detail, ⟨.get reviewId call.tenant, .ok detail⟩ ∈ past) :
    (ReviewGraph.run gh initial).Trail (fun past op => Strayed call past ∨ Proper call past op)
      (fun _ _ => True) past := by
  rcases howner with howner | ⟨detail, hread⟩
  · refine (trail_run hnamed).mono (fun past op hop => ?_) fun _ _ _ => trivial
    obtain ⟨tenant, htenant, hpersisted⟩ := hop
    rw [howner] at htenant
    rcases htenant with hnone | htenant
    · cases hnone
    · exact .inr (proper_of_persisted hpersisted (.inl htenant.symm))
  · refine (trail_keep (trail_run hnamed) hread).mono (fun past op hop => ?_) fun _ _ _ => trivial
    obtain ⟨hread, tenant, -, hpersisted⟩ := hop
    exact .inr (proper_of_persisted hpersisted (.inr ⟨detail, hread⟩))

/-- The input of a review names it and its tenant. -/
theorem carried_buildInitial {uuid tenantId : String} {body : List (String × JsonText.Value)}
    {initial : Mapping} (h : ReviewService.buildInitial gh uuid tenantId body = .ok initial) :
    Carried (ReviewService.reviewIdOf gh uuid (ofMembers body)) (some (.str tenantId)) initial := by
  simp only [ReviewService.buildInitial, bind_eq_ok] at h
  obtain ⟨-, -, h⟩ := h
  split at h
  · next document repository _ _ =>
    split at h
    · next requirements given _ _ =>
      simp only [bind_eq_ok] at h
      obtain ⟨-, -, raw, -, -, -, sanitized, -, found, -, files, -, encoded, -, -, -, h⟩ := h
      obtain rfl := Except.ok.inj h
      refine ⟨plain_ofMembers _, ?_, ?_⟩
      · rw [ReviewService.sorted, get?_loaded (plain_record _)]
        rfl
      · rw [ReviewService.sorted, get?_loaded (plain_record _)]
        rfl
    · cases h
  · cases h

/-- A worker's input, as it is built for a call. -/
def QueuedReview.ofBuilt {uuid tenantId : String} {body : List (String × JsonText.Value)}
    {initial : Mapping} (h : ReviewService.buildInitial gh uuid tenantId body = .ok initial) :
    QueuedReview where
  initial := initial
  reviewId := ReviewService.reviewIdOf gh uuid (ofMembers body)
  tenantId := tenantId
  plain := (carried_buildInitial h).plain
  named := (carried_buildInitial h).named
  owned := (carried_buildInitial h).owner

/-- A program after which one reads and returns. -/
theorem trail_then_get {α β : Type} {prog : ReviewProg α} {reviewId tenantId : String}
    {answer : α → ReviewDetail → β}
    (h : prog.Trail (fun past op => Strayed call past ∨ Proper call past op) (fun _ _ => True) past) :
    (do
      let result ← prog
      let detail ← Prog.perform (ReviewOp.get reviewId tenantId)
      return answer result detail : ReviewProg β).Trail
        (fun past op => Strayed call past ∨ Proper call past op) (fun _ _ => True) past :=
  Trail.bind h (fun _ _ _ => trail_perform_bind.mpr ⟨.inr trivial, fun _ => trivial, fun _ => trivial⟩)
    fun _ _ _ => trivial

theorem trail_known {β : Type} {reviewId tenantId : String} {next : Option ReviewDetail → ReviewProg β}
    (hnext : ∀ past found, (next found).Trail (fun past op => Strayed call past ∨ Proper call past op)
      (fun _ _ => True) past) :
    (ReviewService.known reviewId tenantId >>= next).Trail
      (fun past op => Strayed call past ∨ Proper call past op) (fun _ _ => True) past := by
  refine Trail.bind (M := fun _ _ => True) ?_ (fun past found _ => hnext past found) fun _ _ _ => trivial
  refine ⟨.inr trivial, fun r => ?_⟩
  cases r with
  | ok detail => trivial
  | error e => exact Trail.ite (fun _ => trivial) fun _ => trivial

/-- **The calls of the service ask for what is proper**, unless they stray. -/
theorem trail_program (call : ReviewCall) :
    (call.program gh).Trail (fun past op => Strayed call past ∨ Proper call past op)
      (fun _ _ => True) [] := by
  cases call with
  | start tenantId body uuid =>
    refine trail_done_bind (fun _ _ => trivial) fun initial hinitial => trail_known fun past found => ?_
    have hcarried := carried_buildInitial hinitial
    cases found with
    | some detail => trivial
    | none => exact trail_then_get (trail_run_proper hcarried.named (.inl hcarried.owner))
  | enqueue tenantId body uuid =>
    refine trail_done_bind (fun _ _ => trivial) fun initial hinitial => trail_known fun past found => ?_
    have hcarried := carried_buildInitial hinitial
    cases found with
    | some detail => trivial
    | none =>
      have hid : pyStr gh.host (initial.get "review_id")
          = ReviewService.reviewIdOf gh uuid (ofMembers body) := by
        rw [Mapping.get, hcarried.named]
        rfl
      refine trail_perform_bind.mpr ⟨.inr ⟨by decide, ⟨_, _, rfl, hcarried.plain, ?_⟩, .inl rfl⟩,
        fun _ => trivial, fun _ => trivial⟩
      rw [hcarried.named, hid]
  | runBackground queued =>
    have hid : pyStr gh.host (queued.initial.getD "review_id" (.str "")) = queued.reviewId := by
      rw [Mapping.getD, queued.named]
      rfl
    have htenant : pyStr gh.host (queued.initial.getD "tenant_id" (.str "")) = queued.tenantId := by
      rw [Mapping.getD, queued.owned]
      rfl
    have hrun : (ReviewGraph.run gh queued.initial).Trail (fun past op =>
        Strayed (.runBackground queued) past ∨ Proper (.runBackground queued) past op)
          (fun _ _ => True) [] := trail_run_proper queued.named (.inl queued.owned)
    refine Trail.bind (M := fun _ _ => True) ((trail_then_get hrun).attempt fun _ _ _ => trivial)
      (fun past r _ => ?_) fun _ _ _ => trivial
    cases r with
    | ok answer => trivial
    | error e =>
      have hnamed : Mapping.get? (ReviewGraph.without queued.initial "tenant_id" ++
          record [("error", .str (gh.typeName e ++ ": " ++ clip e.message 240))]) "review_id"
            = some (.str queued.reviewId) := by
        rw [Mapping.get?_append, get?_without (by decide), queued.named]
        rfl
      refine trail_perform_bind.mpr ⟨.inr ⟨by decide, ⟨_, _, rfl,
        (queued.plain.without _).append (plain_record _), ?_⟩, .inl htenant⟩, fun _ => trivial,
        fun _ => trail_perform_bind.mpr ⟨.inr trivial, fun _ => trivial, fun _ => trivial⟩⟩
      rw [hnamed, hid]
  | resume reviewId tenantId =>
    refine trail_then_get ?_
    refine trail_perform_bind.mpr ⟨.inr trivial, fun _ => trivial, fun detail => ?_⟩
    refine trail_done_bind (fun _ _ => trivial) fun checkpoint hcheckpoint => ?_
    have hread : (⟨.get reviewId tenantId, .ok detail⟩ : Entry ReviewOp ReviewOp.Ans Raised)
        ∈ [⟨.get reviewId tenantId, .ok detail⟩] := List.mem_singleton_self _
    split
    · next state hstate =>
      by_cases hnamed : Mapping.get? state "review_id" = some (.str reviewId)
      · exact trail_run_proper hnamed (.inr ⟨detail, hread⟩)
      · -- a checkpoint that names another review is never read
        refine (trail_keep (trail_trivial _) hread).mono (fun past op hop => .inl ?_) fun _ _ _ => trivial
        exact ⟨reviewId, detail, hop.1, fun hnames => hnamed (hnames _ _ hcheckpoint hstate)⟩
    · trivial
  | decide reviewId tenantId body =>
    change (ReviewService.decide reviewId tenantId body).Trail _ _ _
    unfold ReviewService.decide
    split
    · exact trail_perform_bind.mpr ⟨.inr rfl, fun _ => trivial, fun _ => trivial⟩
    · trivial

end Trails

/-! ### What the reviews keep -/

/-- Every checkpoint names its review. -/
def SelfNamed (db : ReviewDatabase) : Prop :=
  ∀ id row, db.row? id = some row → ∀ checkpoint, loads row.checkpoint = .ok checkpoint →
    Names checkpoint id

/-- What an answer says of the store for good: a review that was read is its reader's. -/
def ReadFact (db : ReviewDatabase) : Entry ReviewOp ReviewOp.Ans Raised → Prop
  | ⟨.get id tenantId, .ok detail⟩ => Names detail.checkpoint id ∧
      ∃ row, db.row? id = some row ∧ row.tenantId = tenantId
  | _ => True

/-- Every review is still there, with its owner. -/
def KeepsOwners (db db' : ReviewDatabase) : Prop :=
  ∀ id row, db.row? id = some row → ∃ row', db'.row? id = some row' ∧ row'.tenantId = row.tenantId

section Facts

variable {db db' : ReviewDatabase}

theorem keepsOwners_refl (db : ReviewDatabase) : KeepsOwners db db := fun _ row hrow => ⟨row, hrow, rfl⟩

theorem keepsOwners_put {id tenantId status now : String} {payload checkpoint : Mapping} {u : Unit}
    (h : ReviewDatabase.put id tenantId payload status checkpoint now db = .ok (u, db')) :
    KeepsOwners db db' := by
  obtain ⟨encoded, state, -, -, -, hrows⟩ := ReviewDatabase.put_eq_ok h
  intro other row hrow
  rw [hrows other]
  by_cases hid : id = other
  · rw [if_pos hid, hid, hrow]
    exact ⟨_, rfl, rfl⟩
  · rw [if_neg hid]
    exact ⟨row, hrow, rfl⟩

theorem keepsOwners_decide {id tenantId decision reason reviewer now : String} {detail : ReviewDetail}
    (h : db.decide id tenantId decision reason reviewer now = .ok (detail, db')) :
    KeepsOwners db db' := by
  obtain ⟨-, row, payload, encoded, hrow, -, -, -, -, hrows⟩ := ReviewDatabase.decide_eq_ok h
  intro other row' hrow'
  rw [hrows other]
  by_cases hid : id = other
  · subst hid
    obtain rfl := Option.some.inj (hrow.symm.trans hrow')
    rw [if_pos rfl]
    exact ⟨_, rfl, rfl⟩
  · rw [if_neg hid]
    exact ⟨row', hrow', rfl⟩

/-- No call takes a review from its owner. -/
theorem keepsOwners_exec (drawn : ReviewDraw) (op : ReviewOp) (db : ReviewDatabase) :
    KeepsOwners db (op.exec drawn db).2 := by
  cases op with
  | put id tenantId payload status checkpoint =>
    exact snd_atomically_of (keepsOwners_refl db) fun _ _ h => keepsOwners_put h
  | decide id tenantId decision reason reviewer =>
    exact snd_atomically_of (keepsOwners_refl db) fun _ _ h => keepsOwners_decide h
  | get | memory | filterContext | synthesize | evaluate => exact keepsOwners_refl db

/-- A checkpoint that names its review as it is put names it as it is read. -/
theorem names_of_dumps {checkpoint : Mapping} {id text : String} {value : JsonText.Value}
    (h : NamesState checkpoint id) (hdumps : dumps (.dict checkpoint) = .ok text)
    (hloads : loads text = .ok value) : Names value id := by
  obtain ⟨stage, state, rfl, hplain, hnamed⟩ := h
  intro members state' hmembers hstate
  obtain rfl := Except.ok.inj ((loads_dumps hdumps).symm.trans hloads)
  obtain rfl := Except.ok.inj hmembers
  rw [Mapping.get, get?_loaded (plain_record _)] at hstate
  have hread : Value.dict state' = .dict (ofMembers (sortMembers (toMembers state))) := hstate.symm
  obtain rfl := Value.dict.inj hread
  rw [get?_loaded hplain, hnamed]
  rfl

theorem selfNamed_put {id tenantId status now : String} {payload checkpoint : Mapping} {u : Unit}
    (hself : SelfNamed db) (hnamed : NamesState checkpoint id)
    (h : ReviewDatabase.put id tenantId payload status checkpoint now db = .ok (u, db')) :
    SelfNamed db' := by
  obtain ⟨encoded, state, -, hstate, -, hrows⟩ := ReviewDatabase.put_eq_ok h
  intro other row hrow value hloads
  rw [hrows other] at hrow
  split at hrow
  · next hid =>
    subst hid
    have htext : row.checkpoint = state := by
      rw [← Option.some.inj hrow]
      cases db.row? id <;> rfl
    rw [htext] at hloads
    exact names_of_dumps hnamed hstate hloads
  · exact hself other row hrow value hloads

theorem selfNamed_decide {id tenantId decision reason reviewer now : String} {detail : ReviewDetail}
    (hself : SelfNamed db) (h : db.decide id tenantId decision reason reviewer now = .ok (detail, db')) :
    SelfNamed db' := by
  obtain ⟨-, row, payload, encoded, hrow, -, -, -, -, hrows⟩ := ReviewDatabase.decide_eq_ok h
  intro other row' hrow' value hloads
  rw [hrows other] at hrow'
  split at hrow'
  · next hid =>
    subst hid
    obtain rfl := Option.some.inj hrow'
    exact hself id row hrow value hloads
  · exact hself other row' hrow' value hloads

theorem ReadFact.mono (h : KeepsOwners db db') {e : Entry ReviewOp ReviewOp.Ans Raised}
    (hfact : ReadFact db e) : ReadFact db' e := by
  obtain ⟨op, answer⟩ := e
  cases op with
  | get id tenantId =>
    cases answer with
    | error e => trivial
    | ok detail =>
      obtain ⟨hnames, row, hrow, htenant⟩ := hfact
      obtain ⟨row', hrow', hsame⟩ := h id row hrow
      exact ⟨hnames, row', hrow', hsame.trans htenant⟩
  | put | decide | memory | filterContext | synthesize | evaluate => trivial

end Facts

variable {gh : GraphHost}

/-- A call that has read only what names itself has not strayed. -/
theorem not_strayed {db : ReviewDatabase} {call : ReviewCall}
    {past : List (Entry ReviewOp ReviewOp.Ans Raised)} (h : ∀ e ∈ past, ReadFact db e) :
    ¬ Strayed call past := by
  rintro ⟨reviewId, detail, hread, hnames⟩
  exact hnames (h _ hread).1

/-- **A review keeps its owner, and its checkpoint names it**, in every run. -/
theorem reviews_facts (gh : GraphHost) (actions : List (Action ReviewCall ReviewDraw)) :
    System.Traced (fun call past op => Strayed call past ∨ Proper call past op) (fun _ _ _ => True)
        (final (ReviewService.system gh).act (Pool.init .empty) actions) ∧
      SelfNamed (final (ReviewService.system gh).act (Pool.init .empty) actions).state ∧
      ∀ e ∈ (final (ReviewService.system gh).act (Pool.init .empty) actions).log,
        ReadFact (final (ReviewService.system gh).act (Pool.init .empty) actions).state e.2 := by
  have hempty : SelfNamed ReviewDatabase.empty := fun id row hrow => by cases hrow
  have halong : Along (ReviewService.system gh).act (fun _ _ => True) (Pool.init .empty) actions :=
    along_of_forall (fun _ _ => trivial) _ actions
  refine System.facts trail_program ?_ hempty halong
  intro pool i drawn call op _ hself hfacts hop
  have hproper : Proper call (pool.past i) op := hop.resolve_left
    (not_strayed fun e he => hfacts (i, e) (Pool.mem_past.mp he))
  have howners := keepsOwners_exec drawn op pool.state
  refine ⟨?_, ?_, fun e => ReadFact.mono howners⟩
  · cases op with
    | put id tenantId payload status checkpoint =>
      exact snd_atomically_of hself fun _ _ h => selfNamed_put hself hproper.2.1 h
    | decide id tenantId decision reason reviewer =>
      exact snd_atomically_of hself fun _ _ h => selfNamed_decide hself h
    | get | memory | filterContext | synthesize | evaluate => exact hself
  · cases op with
    | get id tenantId =>
      change ReadFact pool.state ⟨.get id tenantId, pool.state.get id tenantId⟩
      cases hget : pool.state.get id tenantId with
      | error e => trivial
      | ok detail =>
        obtain ⟨row, hrow, htenant, -, -, hcheckpoint⟩ := ReviewDatabase.get_eq_ok hget
        exact ⟨hself id row hrow _ hcheckpoint, row, hrow, htenant⟩
    | put | decide | memory | filterContext | synthesize | evaluate => trivial

/-! ### What other tenants read -/

/-- The review that a call puts is nobody's, or the tenant's of the call. -/
def Owned (pool : Pool ReviewCall ReviewOp ReviewOp.Ans Raised ReviewAnswer ReviewDatabase) (i : ℕ) :
    ReviewOp → Bool
  | .put id .. => (pool.state.row? id).all fun row =>
      (pool.task i).any fun call => row.tenantId == call.tenant
  | _ => true

/-- No tenant but the one a step is made for reads anything else afterwards. -/
def Undisturbed (gh : GraphHost)
    (pool : Pool ReviewCall ReviewOp ReviewOp.Ans Raised ReviewAnswer ReviewDatabase) :
    Action ReviewCall ReviewDraw → Prop
  | .step i drawn => ∀ call, pool.task i = some call → ∀ reviewId tenantId, tenantId ≠ call.tenant →
      ((ReviewService.system gh).act pool (.step i drawn)).state.get reviewId tenantId
        = pool.state.get reviewId tenantId
  | _ => True

/-- A read depends on the tenant's row and decisions. -/
theorem get_congr {db db' : ReviewDatabase} {reviewId tenantId : String}
    (hrow : (db'.row? reviewId).filter (fun row => row.tenantId == tenantId)
      = (db.row? reviewId).filter fun row => row.tenantId == tenantId)
    (hdecisions : db'.decisions reviewId tenantId = db.decisions reviewId tenantId) :
    db'.get reviewId tenantId = db.get reviewId tenantId := by
  rw [ReviewDatabase.get, ReviewDatabase.get, hrow, hdecisions]

section Step

variable {db db' : ReviewDatabase} {call : ReviewCall}
  {past : List (Entry ReviewOp ReviewOp.Ans Raised)} {reviewId tenantId : String}

theorem get_put_of_owned {id owner status now : String} {payload checkpoint : Mapping} {u : Unit}
    (h : ReviewDatabase.put id owner payload status checkpoint now db = .ok (u, db'))
    (hproper : Proper call past (.put id owner payload status checkpoint))
    (hfacts : ∀ e ∈ past, ReadFact db e)
    (howned : ∀ row, db.row? id = some row → row.tenantId = call.tenant)
    (hne : tenantId ≠ call.tenant) : db'.get reviewId tenantId = db.get reviewId tenantId := by
  obtain ⟨encoded, state, -, -, hdecisions, hrows⟩ := ReviewDatabase.put_eq_ok h
  refine get_congr ?_ (by rw [ReviewDatabase.decisions, hdecisions, ReviewDatabase.decisions])
  rw [hrows reviewId]
  by_cases hid : id = reviewId
  · subst hid
    have hother : ∀ row : ReviewRow, row.tenantId = call.tenant → (row.tenantId == tenantId) = false :=
      fun row hrow => beq_eq_false_iff_ne.mpr fun heq => hne (heq.symm.trans hrow)
    rw [if_pos rfl]
    cases hrow : db.row? id with
    | some row =>
      have htenant := howned row hrow
      simp [Option.filter, htenant, Ne.symm hne]
    | none =>
      -- nobody's review becomes the tenant's: one that was read would be there
      have howner : owner = call.tenant := by
        rcases hproper.2.2 with howner | ⟨detail, hread⟩
        · exact howner
        · obtain ⟨-, row, hthere, -⟩ := hfacts _ hread
          rw [hrow] at hthere
          cases hthere
      simp [Option.filter, howner, Ne.symm hne]
  · rw [if_neg hid]

theorem get_decide_of_ne {id owner decision reason reviewer now : String} {detail : ReviewDetail}
    (h : db.decide id owner decision reason reviewer now = .ok (detail, db'))
    (hne : tenantId ≠ owner) : db'.get reviewId tenantId = db.get reviewId tenantId := by
  obtain ⟨-, row, payload, encoded, hrow, htenant, -, -, hdecisions, hrows⟩ :=
    ReviewDatabase.decide_eq_ok h
  refine get_congr ?_ ?_
  · rw [hrows reviewId]
    by_cases hid : id = reviewId
    · subst hid
      rw [if_pos rfl, hrow]
      simp [Option.filter, htenant, Ne.symm hne]
    · rw [if_neg hid]
  · rw [ReviewDatabase.decisions, hdecisions, List.filter_append, ReviewDatabase.decisions]
    simp [Ne.symm hne]

/-- **A step on one's own behalf leaves what the others read.** -/
theorem get_exec_of_owned {op : ReviewOp} (drawn : ReviewDraw) (hproper : Proper call past op)
    (hfacts : ∀ e ∈ past, ReadFact db e)
    (howned : ∀ id owner payload status checkpoint, op = .put id owner payload status checkpoint →
      ∀ row, db.row? id = some row → row.tenantId = call.tenant)
    (hne : tenantId ≠ call.tenant) :
    (op.exec drawn db).2.get reviewId tenantId = db.get reviewId tenantId := by
  cases op with
  | put id owner payload status checkpoint =>
    exact snd_atomically_of (I := fun db' => db'.get reviewId tenantId = db.get reviewId tenantId) rfl
      fun _ _ h => get_put_of_owned h hproper hfacts (howned _ _ _ _ _ rfl) hne
  | decide id owner decision reason reviewer =>
    have howner : owner = call.tenant := hproper
    exact snd_atomically_of (I := fun db' => db'.get reviewId tenantId = db.get reviewId tenantId) rfl
      fun _ _ h => get_decide_of_ne h (howner ▸ hne)
  | get | memory | filterContext | synthesize | evaluate => rfl

end Step

/-- **In every run whose puts are owned, no tenant is disturbed.** -/
theorem reviews_apart (gh : GraphHost) {actions : List (Action ReviewCall ReviewDraw)}
    (h : Along (ReviewService.system gh).act (fun pool a => pool.Meets Owned a) (Pool.init .empty)
      actions) :
    Along (ReviewService.system gh).act (Undisturbed gh) (Pool.init .empty) actions := by
  refine h.mono_invariant
    (I := fun pool => ∃ before, pool = final (ReviewService.system gh).act (Pool.init .empty) before)
    ⟨[], rfl⟩ ?_ ?_
  · rintro pool a ⟨before, rfl⟩
    exact ⟨before ++ [a], by rw [final_append, final_cons, final_nil]⟩
  · rintro pool a ⟨before, hreached⟩ hmeets
    obtain ⟨htraced, -, hfacts⟩ := reviews_facts gh before
    rw [← hreached] at htraced hfacts
    have hacts := System.act_cases (ReviewService.system gh) pool a
    cases a with
    | start | stop => trivial
    | step i drawn =>
      intro call hcall reviewId tenantId hne
      generalize (ReviewService.system gh).act pool (.step i drawn) = pool' at hacts
      cases hacts with
      | idle => rfl
      | @step _ _ task op next found =>
        obtain rfl := Option.some.inj ((Pool.task_of_found found).symm.trans hcall)
        have hpast : ∀ e ∈ pool.past i, ReadFact pool.state e := fun e he =>
          hfacts (i, e) (Pool.mem_past.mp he)
        have hproper := (htraced.1 i _ found).1.resolve_left (not_strayed hpast)
        refine get_exec_of_owned drawn hproper hpast ?_ hne
        rintro id owner payload status checkpoint rfl row hrow
        have howned := hmeets.cond found
        simp only [Owned, hrow, Option.all_some, hcall, Option.any_some, beq_iff_eq] at howned
        exact howned

/-! ### A review that another tenant takes -/

namespace Sample

/-- An interpreter for reviews without evidence. -/
def graphHost : GraphHost where
  toReviewHost := sampleReviewHost
  jsonSize _ := 0
  typeName _ := "ValueError"
  coverage _ _ := .int 0
  deriveAssessment _ _ := .dict []

/-- Providers that select nothing and decide nothing. -/
def reviewDraw (now : String) : ReviewDraw where
  now
  recalled := []
  filterContext _ := .ok (record [("status", .str "skipped")])
  synthesize _ := .ok (record [("summary", .str "")])
  evaluate _ _ _ _ := .ok none

/-- A request for a review under an id. -/
def reviewBody (reviewId mode : String) : List (String × JsonText.Value) :=
  [("document", .obj []), ("mode", .str mode), ("repository", .obj []), ("review_id", .str reviewId)]

/-- One tenant queues a review, and then another one its own. -/
def queueing (reviewId reviewId' : String) : List (Action ReviewCall ReviewDraw) :=
  [.start (.enqueue "tenant-a" (reviewBody reviewId "impact") ""), .step 0 (reviewDraw "t1"),
    .step 0 (reviewDraw "t1"),
    .start (.enqueue "tenant-b" (reviewBody reviewId' "implementation") ""),
    .step 1 (reviewDraw "t2")]

/-- The owner and the mode that a process asks to be put under an id. -/
def putting (pool : Pool ReviewCall ReviewOp ReviewOp.Ans Raised ReviewAnswer ReviewDatabase)
    (i : ℕ) (reviewId : String) : Option (String × String) :=
  match pool.asked i with
  | some (.put id owner payload _ checkpoint) =>
    if id = reviewId ∧ Storable payload checkpoint then
      some (owner, pyStr sampleHost (Mapping.get (ofMembers (sortMembers (toMembers payload))) "mode"))
    else none
  | _ => none

/-- The mode in a review that is read. -/
def shownMode (read : Except Raised ReviewDetail) : Option String :=
  match read.map fun detail => ofJson detail.payload with
  | .ok (.dict payload) => some (pyStr sampleHost (Mapping.get payload "mode"))
  | _ => none

/-- What a process puts is shown to the owner of the row. -/
theorem shownMode_step {pool : Pool ReviewCall ReviewOp ReviewOp.Ans Raised ReviewAnswer ReviewDatabase}
    {i : ℕ} {reviewId owner tenantId mode : String} (drawn : ReviewDraw)
    (hputting : putting pool i reviewId = some (owner, mode))
    (howner : ((pool.state.row? reviewId).map ReviewRow.tenantId).getD owner = tenantId) :
    shownMode (((ReviewService.system graphHost).act pool (.step i drawn)).state.get reviewId tenantId)
      = some mode := by
  unfold putting at hputting
  split at hputting
  · next id owner' payload status checkpoint hasked =>
    split at hputting
    · next hput =>
      obtain ⟨rfl, hstorable⟩ := hput
      obtain ⟨rfl, rfl⟩ := Prod.mk.inj (Option.some.inj hputting)
      obtain ⟨task, next, found⟩ := Pool.asked_eq_some hasked
      obtain ⟨db', hbody⟩ := @put_isOk pool.state id owner' status drawn.now _ _ hstorable
      obtain ⟨detail, hget, -, hshown, -⟩ := ReviewDatabase.get_of_put hbody howner
      have hstate : ((ReviewService.system graphHost).act pool (.step i drawn)).state = db' := by
        rw [System.act_of_found found]
        change (atomically _ _).2 = db'
        rw [atomically_of_ok hbody]
      rw [hstate, hget]
      simp only [shownMode, Except.map, hshown, toJson, ofJson]
    · cases hputting
  · cases hputting

/-- Tenants that queue reviews of different ids do not disturb each other. -/
theorem reviews_apart_queued :
    Along (ReviewService.system graphHost).act (Undisturbed graphHost) (Pool.init .empty)
      (queueing "review-1" "review-2" ++ [.step 1 (reviewDraw "t2")]) :=
  reviews_apart graphHost (by decide +kernel)

/-- The pool after some of the steps of two tenants that queue a review of one id. -/
def sharedPool (n : ℕ) : Pool ReviewCall ReviewOp ReviewOp.Ans Raised ReviewAnswer ReviewDatabase :=
  final (ReviewService.system graphHost).act (Pool.init .empty) ((queueing "review-1" "review-1").take n)

/-- **A review is overwritten under its id by another tenant.** -/
theorem review_overwritten :
    ¬ Along (ReviewService.system graphHost).act (Undisturbed graphHost) (Pool.init .empty)
      (queueing "review-1" "review-1" ++ [.step 1 (reviewDraw "t2")]) := by
  intro h
  have hafter : shownMode (((ReviewService.system graphHost).act (sharedPool 5)
      (.step 1 (reviewDraw "t2"))).state.get "review-1" "tenant-a") = some "implementation" :=
    shownMode_step _ (show putting (sharedPool 5) 1 "review-1" = some ("tenant-b", "implementation") by
      decide +kernel) (by decide +kernel)
  have hbefore : shownMode (((ReviewService.system graphHost).act (sharedPool 2)
      (.step 0 (reviewDraw "t1"))).state.get "review-1" "tenant-a") = some "impact" :=
    shownMode_step _ (show putting (sharedPool 2) 0 "review-1" = some ("tenant-a", "impact") by
      decide +kernel) (by decide +kernel)
  -- neither the other tenant's read nor its put may change what is shown
  have hsplit : queueing "review-1" "review-1"
      = (queueing "review-1" "review-1").take 4 ++ [.step 1 (reviewDraw "t2")] := rfl
  obtain ⟨hqueueing, hput⟩ := along_append.mp h
  rw [hsplit] at hqueueing
  obtain ⟨-, hread⟩ := along_append.mp hqueueing
  rw [along_cons] at hput hread
  have hput := hput.1 _ (System.task_final _ _ _ 1) "review-1" "tenant-a" (by decide)
  have hread := hread.1 _ (System.task_final _ _ _ 1) "review-1" "tenant-a" (by decide)
  have hidle : ∀ pool task, ((ReviewService.system graphHost).act pool (.start task)).state
      = pool.state := fun _ _ => rfl
  have hlast : sharedPool 5 = (ReviewService.system graphHost).act (sharedPool 4)
      (.step 1 (reviewDraw "t2")) := final_take_succ rfl
  have hthird : sharedPool 3 = (ReviewService.system graphHost).act (sharedPool 2)
      (.step 0 (reviewDraw "t1")) := final_take_succ rfl
  have hstart : (sharedPool 4).state = (sharedPool 3).state := by
    rw [show sharedPool 4 = (ReviewService.system graphHost).act (sharedPool 3)
      (.start (.enqueue "tenant-b" (reviewBody "review-1" "implementation") "")) from final_take_succ rfl,
      hidle]
  rw [← hthird, ← hstart] at hbefore
  change ((ReviewService.system graphHost).act (sharedPool 5) _).state.get _ _
    = (sharedPool 5).state.get _ _ at hput
  change ((ReviewService.system graphHost).act (sharedPool 4) _).state.get _ _
    = (sharedPool 4).state.get _ _ at hread
  rw [hput, hlast, hread, hbefore] at hafter
  revert hafter
  decide

end Sample

end AiSaas
