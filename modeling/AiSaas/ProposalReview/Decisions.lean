import AiSaas.ProposalReview.Isolation

/-!
# Decisions on reviews

A decision writes its word into the status of a review and itself into the payload.
Every other write of the store replaces both, so a decision stands exactly until
something is put for its review.

## Main definitions

* `lastDecision` — the last decision of a log on a review.
* `Upheld` — a review shows a decision.
* `Spares` — what is put is for no review that has been decided.

## Main results

* `upheld_decide` — a decision stands when it is made.
* `allUpheld_put_iff` — which puts leave the last decisions standing.
* `decisions_upheld_iff` — in every run, the last decisions stand if and only if
  nothing is put after them.
-/

namespace AiSaas

open Relational Transaction Kernel Processes Prog Runs

/-- The decision on a review that a call has made. -/
def decisionOn (reviewId : String) : Entry ReviewOp ReviewOp.Ans Raised → Option DecisionRow
  | ⟨.decide id tenantId decision reason reviewer, .ok detail⟩ =>
    if id = reviewId then
      some ⟨id, tenantId, decision, clip reason 1000, clip reviewer 128, detail.updatedAt⟩
    else none
  | _ => none

/-- The last decision on a review in a log, newest first. -/
def lastDecision (reviewId : String) (log : List (ℕ × Entry ReviewOp ReviewOp.Ans Raised)) :
    Option DecisionRow :=
  log.findSome? fun e => decisionOn reviewId e.2

/-- A decision as it is read back from a payload. -/
def DecisionRow.inPayload (d : DecisionRow) : Value :=
  ofJson (toJson (.dict (record [("decision", .str d.decision), ("reason", .str d.reason),
    ("reviewer", .str d.reviewer), ("created_at", .str d.createdAt)])))

/-- The review of a decision has its word for a status, and holds it in its payload. -/
def Upheld (db : ReviewDatabase) (d : DecisionRow) : Prop :=
  ∃ row members, db.row? d.reviewId = some row ∧ row.status = d.decision ∧
    loads row.payload = .ok (.obj members) ∧
    Mapping.get? (ofMembers members) "human_decision" = some d.inPayload

/-- The last decision of a log on every review stands. -/
def AllUpheld (log : List (ℕ × Entry ReviewOp ReviewOp.Ans Raised)) (db : ReviewDatabase) : Prop :=
  ∀ reviewId d, lastDecision reviewId log = some d → Upheld db d

/-- The last decision on every review stands. -/
def DecisionsUpheld (pool : Pool ReviewCall ReviewOp ReviewOp.Ans Raised ReviewAnswer ReviewDatabase) :
    Prop := AllUpheld pool.log pool.state

/-- A put is for a review without a decision, or comes to nothing. -/
def Spares (pool : Pool ReviewCall ReviewOp ReviewOp.Ans Raised ReviewAnswer ReviewDatabase) (_ : ℕ) :
    ReviewOp → Bool
  | .put id _ payload _ checkpoint =>
    (lastDecision id pool.log).isNone || !Storable payload checkpoint
  | _ => true

/-! ### The log -/

section Log

variable {log : List (ℕ × Entry ReviewOp ReviewOp.Ans Raised)} {reviewId : String} {d : DecisionRow}

theorem lastDecision_cons (e : ℕ × Entry ReviewOp ReviewOp.Ans Raised) :
    lastDecision reviewId (e :: log) = (decisionOn reviewId e.2).or (lastDecision reviewId log) := by
  rw [lastDecision, List.findSome?_cons, lastDecision]
  cases decisionOn reviewId e.2 <;> rfl

/-- The last decision of a log was made by a call of it. -/
theorem lastDecision_eq_some (h : lastDecision reviewId log = some d) :
    d.reviewId = reviewId ∧ ∃ i tenantId reason reviewer detail,
      (i, (⟨.decide reviewId tenantId d.decision reason reviewer, .ok detail⟩ :
        Entry ReviewOp ReviewOp.Ans Raised)) ∈ log := by
  obtain ⟨⟨i, op, answer⟩, hmem, hmade⟩ := List.exists_of_findSome?_eq_some h
  cases op with
  | decide id tenantId decision reason reviewer =>
    cases answer with
    | error e => cases hmade
    | ok detail =>
      simp only [decisionOn] at hmade
      split at hmade
      · next hid =>
        subst hid
        obtain rfl := Option.some.inj hmade
        exact ⟨rfl, i, tenantId, reason, reviewer, detail, hmem⟩
      · cases hmade
  | put | get | memory | filterContext | synthesize | evaluate => cases hmade

end Log

/-! ### What one call does -/

section Step

variable {db db' : ReviewDatabase} {d : DecisionRow}

/-- A decision that stands stands while the row of its review stays. -/
theorem Upheld.congr (h : Upheld db d) (hrow : db'.row? d.reviewId = db.row? d.reviewId) :
    Upheld db' d := by
  unfold Upheld
  rwa [hrow]

/-- What a decision returns is what is read afterwards. -/
theorem get_of_decide {id tenantId decision reason reviewer now : String} {detail : ReviewDetail}
    (h : db.decide id tenantId decision reason reviewer now = .ok (detail, db')) :
    db'.get id tenantId = .ok detail := by
  simp only [ReviewDatabase.decide, bind_eq_ok, pure, Except.pure, Except.ok.injEq,
    Prod.mk.injEq] at h
  obtain ⟨_, -, _, -, _, -, _, -, answer, hread, rfl, rfl⟩ := h
  exact hread

/-- A read shows when its row was last written. -/
theorem updatedAt_of_get {id tenantId : String} {detail : ReviewDetail} {row : ReviewRow}
    (h : db.get id tenantId = .ok detail) (hrow : db.row? id = some row) :
    detail.updatedAt = row.updatedAt := by
  simp only [ReviewDatabase.get, hrow, bind_eq_ok, orRaise_eq_ok, Option.filter_eq_some_iff, pure,
    Except.pure, Except.ok.injEq] at h
  obtain ⟨row', ⟨hrow', -⟩, -, -, -, -, rfl⟩ := h
  obtain rfl := Option.some.inj hrow'
  rfl

/-- **A decision stands when it is made.** -/
theorem upheld_decide {id tenantId decision reason reviewer now : String} {detail : ReviewDetail}
    (h : db.decide id tenantId decision reason reviewer now = .ok (detail, db')) :
    Upheld db' ⟨id, tenantId, decision, clip reason 1000, clip reviewer 128, detail.updatedAt⟩ := by
  obtain ⟨-, row, payload, encoded, -, -, hpayload, hencoded, -, hrows⟩ := ReviewDatabase.decide_eq_ok h
  have hrow := (hrows id).trans (if_pos rfl)
  have hnow := updatedAt_of_get (get_of_decide h) hrow
  obtain ⟨value, -, hdict⟩ := bind_eq_ok.mp hpayload
  have hplain : Plain payload := by
    cases value with
    | obj members =>
      obtain rfl := Except.ok.inj hdict
      exact plain_ofMembers members
    | null | bool | int | float | str | arr => cases hdict
  refine ⟨_, sortMembers (toMembers (payload ++ ReviewDatabase.humanDecision decision reason reviewer now)),
    hrow, rfl, loads_dumps hencoded, ?_⟩
  have hfull : Plain (payload ++ ReviewDatabase.humanDecision decision reason reviewer now) :=
    hplain.append (plain_record _)
  have hput : Mapping.get? (ReviewDatabase.humanDecision decision reason reviewer now) "human_decision"
      = some (.dict (record [("decision", .str decision), ("reason", .str (clip reason 1000)),
        ("reviewer", .str (clip reviewer 128)), ("created_at", .str now)])) := rfl
  rw [get?_loaded hfull, Mapping.get?_append, hnow, hput]
  rfl

/-- **After a put a decision does not stand.** -/
theorem not_upheld_put {id tenantId status now : String} {payload checkpoint : Mapping} {u : Unit}
    (hstatus : status ∈ ["queued", "running", "complete", "failed"]) (hname : d.reviewId = id)
    (hdecision : d.decision ∈ ["ready", "revise", "blocked"])
    (h : ReviewDatabase.put id tenantId payload status checkpoint now db = .ok (u, db')) :
    ¬ Upheld db' d := by
  obtain ⟨encoded, state, -, -, -, hrows⟩ := ReviewDatabase.put_eq_ok h
  rintro ⟨row, members, hrow, hword, -⟩
  rw [hname, hrows id, if_pos rfl] at hrow
  have hput : row.status = status := by
    rw [← Option.some.inj hrow]
    cases db.row? id <;> rfl
  rw [← hput, hword] at hstatus
  simp only [List.mem_cons, List.not_mem_nil, or_false] at hstatus hdecision
  rcases hdecision with h | h | h <;> simp [h] at hstatus

variable {log : List (ℕ × Entry ReviewOp ReviewOp.Ans Raised)} {i : ℕ} {drawn : ReviewDraw}

/-- A call that decides nothing and leaves the store as it is. -/
theorem allUpheld_idle {op : ReviewOp} (hmade : ∀ id r, decisionOn id ⟨op, r⟩ = none)
    (r : Except Raised op.Ans) (hall : AllUpheld log db) : AllUpheld ((i, ⟨op, r⟩) :: log) db := by
  intro reviewId d h
  rw [lastDecision_cons, hmade, Option.none_or] at h
  exact hall reviewId d h

/-- A decision call keeps every last decision standing. -/
theorem allUpheld_decide (id tenantId decision reason reviewer : String) (hall : AllUpheld log db) :
    AllUpheld
      ((i, ⟨.decide id tenantId decision reason reviewer,
        (ReviewOp.exec drawn (.decide id tenantId decision reason reviewer) db).1⟩) :: log)
      (ReviewOp.exec drawn (.decide id tenantId decision reason reviewer) db).2 := by
  intro reviewId d h
  rw [lastDecision_cons] at h
  simp only [ReviewOp.exec] at h ⊢
  rcases atomically_cases (ReviewDatabase.decide id tenantId decision reason reviewer drawn.now) db with
    ⟨detail, db', hbody, heq⟩ | ⟨e, hbody, heq⟩
  · rw [heq] at h ⊢
    simp only [decisionOn] at h
    by_cases hid : id = reviewId
    · rw [if_pos hid, Option.some_or] at h
      obtain rfl := Option.some.inj h
      exact upheld_decide hbody
    · rw [if_neg hid, Option.none_or] at h
      obtain ⟨-, row, payload, encoded, -, -, -, -, -, hrows⟩ := ReviewDatabase.decide_eq_ok hbody
      have hname := (lastDecision_eq_some h).1
      exact (hall reviewId d h).congr ((hrows _).trans (if_neg fun heq => hid (heq.trans hname)))
  · rw [heq] at h ⊢
    exact hall reviewId d h

/-- **A put keeps the last decisions standing** if and only if its review has none, or it
comes to nothing. -/
theorem allUpheld_put_iff {id tenantId status : String} {payload checkpoint : Mapping}
    (hstatus : status ∈ ["queued", "running", "complete", "failed"])
    (hdecided : ∀ reviewId d, lastDecision reviewId log = some d →
      d.decision ∈ ["ready", "revise", "blocked"]) (hall : AllUpheld log db) :
    AllUpheld
        ((i, ⟨.put id tenantId payload status checkpoint,
          (ReviewOp.exec drawn (.put id tenantId payload status checkpoint) db).1⟩) :: log)
        (ReviewOp.exec drawn (.put id tenantId payload status checkpoint) db).2 ↔
      ((lastDecision id log).isNone || !Storable payload checkpoint) = true := by
  have hlog : ∀ reviewId, lastDecision reviewId
      ((i, (⟨.put id tenantId payload status checkpoint,
        (ReviewOp.exec drawn (.put id tenantId payload status checkpoint) db).1⟩ :
          Entry ReviewOp ReviewOp.Ans Raised)) :: log) = lastDecision reviewId log := fun reviewId => by
    rw [lastDecision_cons]
    rfl
  unfold AllUpheld
  simp only [hlog]
  cases hstorable : Storable payload checkpoint with
  | false =>
    rw [ReviewOp.exec, put_of_not_storable hstorable]
    exact iff_of_true hall (by simp)
  | true =>
    obtain ⟨db', hput⟩ := @put_isOk db id tenantId status drawn.now _ _ hstorable
    rw [ReviewOp.exec, atomically_of_ok hput]
    cases hlast : lastDecision id log with
    | none =>
      obtain ⟨encoded, state, -, -, -, hrows⟩ := ReviewDatabase.put_eq_ok hput
      refine iff_of_true (fun reviewId d h => (hall reviewId d h).congr ?_) rfl
      refine (hrows _).trans (if_neg fun heq => ?_)
      rw [(lastDecision_eq_some h).1] at heq
      rw [← heq, hlast] at h
      cases h
    | some d =>
      refine iff_of_false (fun hupheld => ?_) Bool.false_ne_true
      exact not_upheld_put hstatus (lastDecision_eq_some hlast).1 (hdecided id d hlast) hput
        (hupheld id d hlast)

end Step

/-! ### Runs -/

section Runs

variable {gh : GraphHost}

/-- What was decided in a run is one of the three. -/
theorem decided_of_final (gh : GraphHost) (actions : List (Action ReviewCall ReviewDraw))
    {reviewId : String} {d : DecisionRow}
    (h : lastDecision reviewId (final (ReviewService.system gh).act (Pool.init .empty) actions).log
      = some d) : d.decision ∈ ["ready", "revise", "blocked"] := by
  obtain ⟨-, i, tenantId, reason, reviewer, detail, hmem⟩ := lastDecision_eq_some h
  obtain ⟨before, drawn, -, hanswer⟩ := System.answered _ actions _ hmem
  change Except.ok detail = (atomically (ReviewDatabase.decide _ _ _ _ _ _) _).1 at hanswer
  rcases atomically_cases (ReviewDatabase.decide reviewId tenantId d.decision reason reviewer drawn.now)
    (final (ReviewService.system gh).act (Pool.init .empty) before).state with
    ⟨detail', db', hbody, -⟩ | ⟨e, -, heq⟩
  · exact (ReviewDatabase.decide_eq_ok hbody).1
  · rw [heq] at hanswer
    cases hanswer

/-- **What an action does to the last decisions**, in a pool that a run has reached. -/
theorem decisionsUpheld_act_iff (gh : GraphHost) (before : List (Action ReviewCall ReviewDraw))
    (a : Action ReviewCall ReviewDraw)
    (hall : DecisionsUpheld (final (ReviewService.system gh).act (Pool.init .empty) before)) :
    DecisionsUpheld ((ReviewService.system gh).act
        (final (ReviewService.system gh).act (Pool.init .empty) before) a) ↔
      (final (ReviewService.system gh).act (Pool.init .empty) before).Meets Spares a := by
  obtain ⟨htraced, -, hfacts⟩ := reviews_facts gh before
  have hdecided := fun reviewId d => @decided_of_final gh before reviewId d
  generalize final (ReviewService.system gh).act (Pool.init .empty) before = pool at *
  cases a with
  | start | stop => exact iff_of_true hall trivial
  | step i drawn =>
    cases hasked : pool.asked i with
    | none =>
      rw [System.act_of_not_asked hasked]
      exact iff_of_true hall (by simp [Pool.Meets, hasked])
    | some op =>
      obtain ⟨task, next, found⟩ := Pool.asked_eq_some hasked
      have hmeets : pool.Meets Spares (.step i drawn : Action ReviewCall ReviewDraw) ↔
          Spares pool i op = true := by rw [Pool.Meets, hasked, Option.all_some]
      rw [System.act_of_found found, hmeets]
      change AllUpheld ((i, _) :: pool.log) (op.exec drawn pool.state).2 ↔ _
      cases op with
      | put id tenantId payload status checkpoint =>
        have hpast : ∀ e ∈ pool.past i, ReadFact pool.state e := fun e he =>
          hfacts (i, e) (Pool.mem_past.mp he)
        have hproper := (htraced.1 i _ found).1.resolve_left (not_strayed hpast)
        exact allUpheld_put_iff hproper.1 hdecided hall
      | decide id tenantId decision reason reviewer =>
        exact iff_of_true (allUpheld_decide id tenantId decision reason reviewer hall) rfl
      | get | memory | filterContext | synthesize | evaluate =>
        exact iff_of_true (allUpheld_idle (fun _ _ => rfl) _ hall) rfl

/-- **In every run, the last decisions stand if and only if nothing is put after them.** -/
theorem decisions_upheld_iff (gh : GraphHost) (actions : List (Action ReviewCall ReviewDraw)) :
    Along (ReviewService.system gh).act
        (fun pool a => DecisionsUpheld ((ReviewService.system gh).act pool a)) (Pool.init .empty) actions ↔
      Along (ReviewService.system gh).act (fun pool a => pool.Meets Spares a) (Pool.init .empty)
        actions := by
  refine along_iff_of_invariant (I := fun pool => DecisionsUpheld pool ∧
    ∃ before, pool = final (ReviewService.system gh).act (Pool.init .empty) before)
    ⟨fun _ _ h => absurd h (by simp [Pool.init, lastDecision]), [], rfl⟩ ?_ ?_
  · rintro pool a ⟨-, before, rfl⟩ hupheld
    exact ⟨hupheld, before ++ [a], by rw [final_append, final_cons, final_nil]⟩
  · rintro pool a ⟨hall, before, rfl⟩
    exact decisionsUpheld_act_iff gh before a hall

end Runs

/-! ### A decision that a late stage takes back -/

namespace Sample

/-- The input that is queued for a worker. -/
def queuedInitial : Mapping :=
  ((ReviewService.buildInitial graphHost "" "tenant-a" (reviewBody "review-1" "impact")).toOption).getD []

theorem buildInitial_queued : ReviewService.buildInitial graphHost "" "tenant-a"
    (reviewBody "review-1" "impact") = .ok queuedInitial := by
  have hok : (ReviewService.buildInitial graphHost "" "tenant-a"
    (reviewBody "review-1" "impact")).toOption.isSome = true := by decide +kernel
  unfold queuedInitial
  cases hbuilt : ReviewService.buildInitial graphHost "" "tenant-a" (reviewBody "review-1" "impact") with
  | error e => rw [hbuilt] at hok; cases hok
  | ok initial => rfl

/-- A review is queued and sent back, and then a worker takes it up. -/
def workedLate : List (Action ReviewCall ReviewDraw) :=
  [.start (.enqueue "tenant-a" (reviewBody "review-1" "impact") ""), .step 0 (reviewDraw "t1"),
    .step 0 (reviewDraw "t1"),
    .start (.decide "review-1" "tenant-a" (record [("decision", .str "revise")])),
    .step 1 (reviewDraw "t2"), .start (.runBackground (.ofBuilt buildInitial_queued)),
    .step 2 (reviewDraw "t3")]

/-- The pool after some of these steps. -/
def workedPool (n : ℕ) : Pool ReviewCall ReviewOp ReviewOp.Ans Raised ReviewAnswer ReviewDatabase :=
  final (ReviewService.system graphHost).act (Pool.init .empty) (workedLate.take n)

theorem workedPool_succ {n : ℕ} {a : Action ReviewCall ReviewDraw} (h : workedLate[n]? = some a) :
    workedPool (n + 1) = (ReviewService.system graphHost).act (workedPool n) a := final_take_succ h

/-- What is decided stays decided. -/
theorem lastDecision_act
    {pool : Pool ReviewCall ReviewOp ReviewOp.Ans Raised ReviewAnswer ReviewDatabase} {reviewId : String}
    (h : (lastDecision reviewId pool.log).isSome = true) (a : Action ReviewCall ReviewDraw) :
    (lastDecision reviewId ((ReviewService.system graphHost).act pool a).log).isSome = true := by
  have hacts := System.act_cases (ReviewService.system graphHost) pool a
  generalize (ReviewService.system graphHost).act pool a = pool' at hacts
  cases hacts with
  | start | stop | idle => exact h
  | step drawn found =>
    change (lastDecision reviewId (_ :: pool.log)).isSome = true
    rw [lastDecision_cons, Option.isSome_or, h, Bool.or_true]

/-- The row that a process puts for a review that is new. -/
theorem exists_row_step {pool : Pool ReviewCall ReviewOp ReviewOp.Ans Raised ReviewAnswer ReviewDatabase}
    {i : ℕ} {reviewId owner mode : String} (drawn : ReviewDraw)
    (hputting : putting pool i reviewId = some (owner, mode)) (hnew : pool.state.row? reviewId = none) :
    ∃ row payload checkpoint,
      ((ReviewService.system graphHost).act pool (.step i drawn)).state.row? reviewId = some row ∧
        row.tenantId = owner ∧ dumps (.dict payload) = .ok row.payload ∧
        dumps (.dict checkpoint) = .ok row.checkpoint := by
  unfold putting at hputting
  split at hputting
  · next id owner' payload status checkpoint hasked =>
    split at hputting
    · next hput =>
      obtain ⟨rfl, hstorable⟩ := hput
      obtain ⟨rfl, -⟩ := Prod.mk.inj (Option.some.inj hputting)
      obtain ⟨task, next, found⟩ := Pool.asked_eq_some hasked
      obtain ⟨db', hbody⟩ := @put_isOk pool.state id owner' status drawn.now _ _ hstorable
      obtain ⟨encoded, state, hencoded, hstate, -, hrows⟩ := ReviewDatabase.put_eq_ok hbody
      have hafter : ((ReviewService.system graphHost).act pool (.step i drawn)).state = db' := by
        rw [System.act_of_found found]
        change (atomically _ _).2 = db'
        rw [atomically_of_ok hbody]
      have hrow := (hrows id).trans (if_pos rfl)
      rw [hnew] at hrow
      exact ⟨_, payload, checkpoint, by rw [hafter]; exact hrow, rfl, hencoded, hstate⟩
    · cases hputting
  · cases hputting

/-- An operation that decides as the reviewer of the sample does. -/
def revises : Option ReviewOp → Bool
  | some (.decide id tenantId decision _ _) =>
    decide (id = "review-1" ∧ tenantId = "tenant-a" ∧ decision = "revise")
  | _ => false

/-- The decision is taken. -/
theorem workedPool_decided : (lastDecision "review-1" (workedPool 5).log).isSome = true := by
  obtain ⟨row, payload, checkpoint, hrow, htenant, hpayload, hcheckpoint⟩ := exists_row_step (reviewDraw "t1")
    (show putting (workedPool 2) 0 "review-1" = some ("tenant-a", "impact") by decide +kernel)
    (Option.isNone_iff_eq_none.mp (by decide +kernel))
  have hidle : ∀ pool task, ((ReviewService.system graphHost).act pool (.start task)).state
      = pool.state := fun _ _ => rfl
  have hstate : (workedPool 4).state = (workedPool 3).state := by
    rw [workedPool_succ (n := 3) rfl, hidle]
  rw [← workedPool_succ rfl] at hrow
  have hasked : revises ((workedPool 4).asked 1) = true := by decide +kernel
  unfold revises at hasked
  split at hasked
  · next id tenantId decision reason reviewer hop =>
    obtain ⟨rfl, rfl, rfl⟩ := of_decide_eq_true hasked
    obtain ⟨task, next, found⟩ := Pool.asked_eq_some hop
    obtain ⟨detail, db', htaken⟩ := @decide_isOk (workedPool 4).state _ _ "revise" reason
      reviewer "t2" _ _ _ (by decide) (by rw [hstate]; exact hrow)
      htenant hpayload hcheckpoint
    rw [workedPool_succ (n := 4) rfl, System.act_of_found found]
    change (lastDecision "review-1" ((1, ⟨.decide "review-1" "tenant-a" "revise" reason reviewer,
      (atomically (ReviewDatabase.decide "review-1" "tenant-a" "revise" reason reviewer "t2")
        (workedPool 4).state).1⟩) :: _)).isSome = true
    rw [atomically_of_ok htaken, lastDecision_cons]
    rfl
  · cases hasked

/-- **A decision is lost** when a worker persists its next stage. -/
theorem decision_overwritten :
    ¬ Along (ReviewService.system graphHost).act
      (fun pool a => DecisionsUpheld ((ReviewService.system graphHost).act pool a)) (Pool.init .empty)
      (workedLate ++ [.step 2 (reviewDraw "t3")]) := by
  intro h
  have hdecided := lastDecision_act (lastDecision_act workedPool_decided
    (.start (.runBackground (.ofBuilt buildInitial_queued)))) (.step 2 (reviewDraw "t3"))
  rw [← workedPool_succ (n := 5) rfl, ← workedPool_succ (n := 6) rfl] at hdecided
  obtain ⟨hbefore, hlast⟩ := along_append.mp h
  have hsplit : workedLate = workedLate.take 6 ++ [.step 2 (reviewDraw "t3")] := rfl
  rw [hsplit] at hbefore
  have hupheld := (along_append.mp hbefore).2
  rw [along_cons] at hupheld hlast
  have hstands : DecisionsUpheld (workedPool 7) := by
    rw [workedPool_succ (n := 6) rfl]
    exact hupheld.1
  have hmeets : (workedPool 7).Meets Spares (.step 2 (reviewDraw "t3") : Action ReviewCall ReviewDraw) :=
    (decisionsUpheld_act_iff graphHost workedLate _ hstands).mp hlast.1
  -- the worker asks to put the review that has been decided
  have hputting : (putting (workedPool 7) 2 "review-1").isSome = true := by decide +kernel
  unfold putting at hputting
  split at hputting
  · next id owner payload status checkpoint hasked =>
    split at hputting
    · next hput =>
      obtain ⟨task, next, found⟩ := Pool.asked_eq_some hasked
      have hspares := hmeets.cond found
      rw [Spares, hput.1, hput.2, Option.isNone_eq_false_iff.mpr hdecided] at hspares
      cases hspares
    · cases hputting
  · cases hputting

end Sample

end AiSaas
