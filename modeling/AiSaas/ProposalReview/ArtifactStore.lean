import AiSaas.ProposalReview.Adapter
import AiSaas.Lib.Tables

/-!
# The store of reviews

`ReviewArtifactStore` of `services/proposal_review/artifact_store.py`.  A review is
one row, kept under its id alone; reading and deciding ask for the tenant as well,
storing does not.

## Main definitions

* `ReviewRow`, `DecisionRow`, `ReviewDatabase` — the tables.
* `ReviewDatabase.put`, `get`, `decide`, `decisions` — the store.

## Main results

* `find?_put`, `find?_decide` — the row of a review after a write.
* `get_eq_ok_iff` — what a read returns.
-/

namespace AiSaas

open Relational Transaction Kernel

/-- A row of `proposal_reviews`. -/
structure ReviewRow where
  reviewId : String
  tenantId : String
  status : String
  payload : String
  checkpoint : String
  createdAt : String
  updatedAt : String
  deriving DecidableEq

/-- A row of `proposal_review_decisions`. -/
structure DecisionRow where
  reviewId : String
  tenantId : String
  decision : String
  reason : String
  reviewer : String
  createdAt : String
  deriving DecidableEq

/-- The database of the store; decisions stand in the order of their ids. -/
structure ReviewDatabase where
  proposalReviews : Table ReviewRow.reviewId ReviewRow.reviewId fun _ => true
  proposalReviewDecisions : List DecisionRow

/-- A decision as `decisions` returns it. -/
structure ReviewDecision where
  decision : String
  reason : String
  reviewer : String
  createdAt : String
  deriving DecidableEq

/-- A review as `get` returns it. -/
structure ReviewDetail where
  reviewId : String
  tenantId : String
  status : String
  payload : JsonText.Value
  checkpoint : JsonText.Value
  createdAt : String
  updatedAt : String
  decisions : List ReviewDecision

namespace ReviewDatabase

/-- The database the store begins with. -/
def empty : ReviewDatabase := ⟨Table.empty, []⟩

/-- The row of a review. -/
def row? (db : ReviewDatabase) (reviewId : String) : Option ReviewRow :=
  db.proposalReviews.find? reviewId

/-- `put`. -/
def put (reviewId tenantId : String) (payload : Mapping) (status : String) (checkpoint : Mapping)
    (now : String) : Tx Raised ReviewDatabase Unit := fun db => do
  let encoded ← dumps (.dict payload)
  let state ← dumps (.dict checkpoint)
  return ((), { db with
    proposalReviews := db.proposalReviews.upsert
      ⟨reviewId, tenantId, status, encoded, state, now, now⟩
      (fun row => { row with status := status, payload := encoded, checkpoint := state, updatedAt := now })
      ⟨fun _ => rfl, fun _ => rfl, fun _ _ => rfl⟩ })

/-- `decisions`. -/
def decisions (db : ReviewDatabase) (reviewId tenantId : String) : List ReviewDecision :=
  (db.proposalReviewDecisions.filter fun row =>
    row.reviewId == reviewId && row.tenantId == tenantId).map fun row =>
      ⟨row.decision, row.reason, row.reviewer, row.createdAt⟩

/-- `get`. -/
def get (reviewId tenantId : String) (db : ReviewDatabase) : Except Raised ReviewDetail := do
  let row ← orRaise ((db.row? reviewId).filter fun row => row.tenantId == tenantId)
    ⟨.keyError, "'review not found'"⟩
  let payload ← loads row.payload
  let checkpoint ← loads row.checkpoint
  return ⟨row.reviewId, row.tenantId, row.status, payload, checkpoint, row.createdAt, row.updatedAt,
    db.decisions reviewId tenantId⟩

/-- `dict(value)` of a JSON value. -/
def dictOf : JsonText.Value → Except Raised Mapping
  | .obj members => .ok (ofMembers members)
  | _ => .error ⟨.typeError, "object is not a mapping"⟩

/-- The member a decision adds to a payload. -/
def humanDecision (decision reason reviewer now : String) : Mapping :=
  record [("human_decision", .dict (record [("decision", .str decision),
    ("reason", .str (clip reason 1000)), ("reviewer", .str (clip reviewer 128)),
    ("created_at", .str now)]))]

/-- `decide`. -/
def decide (reviewId tenantId decision reason reviewer now : String) :
    Tx Raised ReviewDatabase ReviewDetail := fun db => do
  ensure (decision ∈ ["ready", "revise", "blocked"])
    ⟨.valueError, "decision must be ready, revise, or blocked"⟩
  let current ← db.get reviewId tenantId
  let payload ← dictOf current.payload
  let encoded ← dumps (.dict (payload ++ humanDecision decision reason reviewer now))
  let db : ReviewDatabase :=
    { proposalReviewDecisions := db.proposalReviewDecisions ++
        [⟨reviewId, tenantId, decision, clip reason 1000, clip reviewer 128, now⟩]
      proposalReviews := db.proposalReviews.update
        (fun row => row.reviewId == reviewId && row.tenantId == tenantId)
        (fun row => { row with status := decision, payload := encoded, updatedAt := now })
        ⟨fun _ => rfl, fun _ => rfl, fun _ _ => rfl⟩ }
  let detail ← db.get reviewId tenantId
  return (detail, db)

/-! ### The row of a review -/

variable {db db' : ReviewDatabase} {reviewId tenantId : String}

/-- **What a put did**: it wrote its texts into the review's row, whose owner and
birth stay if it was there. -/
theorem put_eq_ok {payload checkpoint : Mapping} {status now : String} {u : Unit}
    (h : put reviewId tenantId payload status checkpoint now db = .ok (u, db')) :
    ∃ encoded state, dumps (.dict payload) = .ok encoded ∧ dumps (.dict checkpoint) = .ok state ∧
      db'.proposalReviewDecisions = db.proposalReviewDecisions ∧
      ∀ id, db'.row? id = if reviewId = id then
          some (((db.row? id).map fun row =>
            { row with status := status, payload := encoded, checkpoint := state, updatedAt := now }).getD
              ⟨reviewId, tenantId, status, encoded, state, now, now⟩)
        else db.row? id := by
  simp only [put, bind_eq_ok, pure, Except.pure, Except.ok.injEq, Prod.mk.injEq, true_and] at h
  obtain ⟨encoded, hencoded, state, hstate, rfl⟩ := h
  exact ⟨encoded, state, hencoded, hstate, rfl,
    fun id => Table.find?_upsert _ rfl (fun _ _ hsame => hsame) id⟩

/-- **What a read returns.** -/
theorem get_eq_ok {detail : ReviewDetail} (h : db.get reviewId tenantId = .ok detail) :
    ∃ row, db.row? reviewId = some row ∧ row.tenantId = tenantId ∧ row.status = detail.status ∧
      loads row.payload = .ok detail.payload ∧ loads row.checkpoint = .ok detail.checkpoint := by
  simp only [get, bind_eq_ok, orRaise_eq_ok, Option.filter_eq_some_iff, beq_iff_eq, pure,
    Except.pure, Except.ok.injEq] at h
  obtain ⟨row, ⟨hrow, htenant⟩, payload, hpayload, checkpoint, hcheckpoint, rfl⟩ := h
  exact ⟨row, hrow, htenant, rfl, hpayload, hcheckpoint⟩

/-- A row whose texts were dumped is read. -/
theorem get_of_row (row : ReviewRow) {payload checkpoint : Mapping} (hrow : db.row? reviewId = some row)
    (htenant : row.tenantId = tenantId) (hpayload : dumps (.dict payload) = .ok row.payload)
    (hcheckpoint : dumps (.dict checkpoint) = .ok row.checkpoint) :
    db.get reviewId tenantId = .ok ⟨row.reviewId, row.tenantId, row.status, toJson (.dict payload),
      toJson (.dict checkpoint), row.createdAt, row.updatedAt, db.decisions reviewId tenantId⟩ := by
  have hown : (some row).filter (fun row => row.tenantId == tenantId) = some row :=
    Option.filter_eq_some_iff.mpr ⟨rfl, beq_iff_eq.mpr htenant⟩
  rw [get, hrow, hown]
  exact bind_eq_ok.mpr ⟨row, orRaise_eq_ok.mpr rfl, bind_eq_ok.mpr ⟨_, loads_dumps hpayload,
    bind_eq_ok.mpr ⟨_, loads_dumps hcheckpoint, rfl⟩⟩⟩

/-- What was put is read by the owner of the row. -/
theorem get_of_put {payload checkpoint : Mapping} {owner status now : String} {u : Unit}
    (h : put reviewId owner payload status checkpoint now db = .ok (u, db'))
    (howner : ((db.row? reviewId).map ReviewRow.tenantId).getD owner = tenantId) :
    ∃ detail, db'.get reviewId tenantId = .ok detail ∧ detail.status = status ∧
      detail.payload = toJson (.dict payload) ∧ detail.checkpoint = toJson (.dict checkpoint) := by
  obtain ⟨encoded, state, hencoded, hstate, -, hrows⟩ := put_eq_ok h
  have hrow := (hrows reviewId).trans (if_pos rfl)
  cases hfound : db.row? reviewId with
  | none =>
    rw [hfound] at hrow howner
    exact ⟨_, get_of_row _ hrow howner hencoded hstate, rfl, rfl, rfl⟩
  | some row =>
    rw [hfound] at hrow howner
    exact ⟨_, get_of_row _ hrow howner hencoded hstate, rfl, rfl, rfl⟩

/-- **What a decision did**: it was of the three, the review was the tenant's, and its
row took the decision on. -/
theorem decide_eq_ok {decision reason reviewer now : String} {detail : ReviewDetail}
    (h : db.decide reviewId tenantId decision reason reviewer now = .ok (detail, db')) :
    decision ∈ ["ready", "revise", "blocked"] ∧
      ∃ row payload encoded, db.row? reviewId = some row ∧ row.tenantId = tenantId ∧
        (loads row.payload >>= dictOf) = .ok payload ∧
        dumps (.dict (payload ++ humanDecision decision reason reviewer now)) = .ok encoded ∧
        db'.proposalReviewDecisions = db.proposalReviewDecisions ++
          [⟨reviewId, tenantId, decision, clip reason 1000, clip reviewer 128, now⟩] ∧
        ∀ id, db'.row? id = if reviewId = id then
            some { row with status := decision, payload := encoded, updatedAt := now }
          else db.row? id := by
  simp only [ReviewDatabase.decide, bind_eq_ok, ensure_eq_ok, decide_eq_true_eq, pure, Except.pure,
    Except.ok.injEq, Prod.mk.injEq] at h
  obtain ⟨-, hdecision, current, hcurrent, payload, hpayload, encoded, hencoded, -, -, -, rfl⟩ := h
  obtain ⟨row, hrow, htenant, -, hloads, -⟩ := get_eq_ok hcurrent
  refine ⟨hdecision, row, payload, encoded, hrow, htenant, bind_eq_ok.mpr ⟨_, hloads, hpayload⟩,
    hencoded, rfl, fun id => ?_⟩
  rw [row?, Table.find?_update]
  by_cases hid : reviewId = id
  · subst hid
    have hkey := (Table.find?_eq_some.mp hrow).2
    have hfound : db.proposalReviews.find? reviewId = some row := hrow
    simp [hfound, hkey, htenant]
  · rw [if_neg hid]
    cases hother : db.row? id with
    | none => rw [show db.proposalReviews.find? id = none from hother, Option.map_none]
    | some other =>
      have hkey := (Table.find?_eq_some.mp hother).2
      have hne : (other.reviewId == reviewId) = false :=
        beq_eq_false_iff_ne.mpr fun h => hid (h.symm.trans hkey)
      rw [show db.proposalReviews.find? id = some other from hother, Option.map_some, hne,
        Bool.false_and, if_neg Bool.false_ne_true]

end ReviewDatabase

/-! ### What can be stored -/

theorem shortMembers_setMember {key : String} {v : JsonText.Value} {l : List (String × JsonText.Value)}
    (hv : v.Short) (hl : JsonText.ShortMembers l) : JsonText.ShortMembers (setMember key v l) := by
  induction l with
  | nil => exact ⟨hv, trivial⟩
  | cons m l ih =>
    obtain ⟨k, w⟩ := m
    obtain ⟨hw, hl⟩ := hl
    rw [setMember]
    split
    · exact ⟨hv, hw, hl⟩
    · split
      · exact ⟨hv, hl⟩
      · exact ⟨hw, ih hl⟩

theorem dumps_isOk_iff {value : Value} : (∃ text, dumps value = .ok text) ↔ (toJson value).Short := by
  unfold dumps
  split
  · next h => exact iff_of_true ⟨_, rfl⟩ h
  · next h => exact iff_of_false (fun ⟨_, he⟩ => by cases he) h

/-- A mapping that can be dumped can be dumped with more members that can. -/
theorem dumps_append {m m' : Mapping} (h : ∃ text, dumps (.dict m) = .ok text)
    (h' : ∀ e ∈ m', (toJson e.2).Short) : ∃ text, dumps (.dict (m ++ m')) = .ok text := by
  rw [dumps_isOk_iff] at h ⊢
  rw [toJson, toMembers_eq_map, List.map_append, sortMembers, List.foldl_append, ← sortMembers,
    ← toMembers_eq_map]
  rw [toJson] at h
  change JsonText.ShortMembers (sortMembers (toMembers m)) at h
  change JsonText.ShortMembers _
  generalize sortMembers (toMembers m) = sorted at h
  induction m' generalizing sorted with
  | nil => exact h
  | cons e m' ih =>
    exact ih (fun e' he' => h' e' (List.mem_cons_of_mem _ he')) _
      (shortMembers_setMember (h' e List.mem_cons_self) h)

/-! ### Puts that come to nothing -/

/-- What is put can be stored. -/
def Storable (payload checkpoint : Mapping) : Bool :=
  (dumps (.dict payload)).toOption.isSome && (dumps (.dict checkpoint)).toOption.isSome

section Storable

variable {db : ReviewDatabase}

/-- A put that can be stored is stored. -/
theorem put_isOk {id tenantId status now : String} {payload checkpoint : Mapping}
    (h : Storable payload checkpoint = true) :
    ∃ db', ReviewDatabase.put id tenantId payload status checkpoint now db = .ok ((), db') := by
  simp only [Storable, Bool.and_eq_true] at h
  obtain ⟨hpayload, hcheckpoint⟩ := h
  cases hencoded : dumps (.dict payload) with
  | error e => simp [hencoded, Except.toOption] at hpayload
  | ok encoded =>
    cases hstate : dumps (.dict checkpoint) with
    | error e => simp [hstate, Except.toOption] at hcheckpoint
    | ok state =>
      simp only [ReviewDatabase.put, hencoded, hstate]
      exact ⟨_, rfl⟩

/-- A put that cannot be stored leaves the store as it is. -/
theorem put_of_not_storable {id tenantId status now : String} {payload checkpoint : Mapping}
    (h : Storable payload checkpoint = false) :
    (atomically (ReviewDatabase.put id tenantId payload status checkpoint now) db).2 = db := by
  refine snd_atomically_of (I := fun db' => db' = db) rfl fun u db' hput => ?_
  obtain ⟨encoded, state, hencoded, hstate, -, -⟩ := ReviewDatabase.put_eq_ok hput
  simp [Storable, hencoded, hstate, Except.toOption] at h

/-- **A decision on a review that is the tenant's is taken.** -/
theorem decide_isOk {id tenantId decision reason reviewer now : String} {row : ReviewRow}
    {payload checkpoint : Mapping} (hdecision : decision ∈ ["ready", "revise", "blocked"])
    (hrow : db.row? id = some row) (htenant : row.tenantId = tenantId)
    (hpayload : dumps (.dict payload) = .ok row.payload)
    (hcheckpoint : dumps (.dict checkpoint) = .ok row.checkpoint) :
    ∃ detail db', db.decide id tenantId decision reason reviewer now = .ok (detail, db') := by
  have hread : (dumps (.dict (ofMembers (sortMembers (toMembers payload))))) = .ok row.payload := by
    have hsame : toJson (.dict (ofMembers (sortMembers (toMembers payload)))) = toJson (.dict payload) :=
      toJson_ofJson _ (canonical_toJson (.dict payload))
    rw [dumps, hsame]
    exact hpayload
  have htexts : ∀ fields : List (String × String),
      (toJson (.dict (record (fields.map fun f => (f.1, .str f.2))))).Short := by
    intro fields
    refine dumps_isOk_iff.mp (dumps_append (m := []) ⟨_, rfl⟩ fun e he => ?_)
    simp only [List.map_map, List.mem_map] at he
    obtain ⟨f, -, rfl⟩ := he
    trivial
  obtain ⟨encoded, hencoded⟩ := dumps_append ⟨_, hread⟩ fun e
      (he : e ∈ ReviewDatabase.humanDecision decision reason reviewer now) => by
    obtain rfl := List.mem_singleton.mp he
    exact htexts [("decision", decision), ("reason", clip reason 1000),
      ("reviewer", clip reviewer 128), ("created_at", now)]
  have hcurrent := ReviewDatabase.get_of_row row hrow htenant hpayload hcheckpoint
  have hkey := (Table.find?_eq_some.mp hrow).2
  have hfound : db.proposalReviews.find? id = some row := hrow
  refine ⟨_, _, bind_eq_ok.mpr ⟨(), ensure_eq_ok.mpr (decide_eq_true hdecision), bind_eq_ok.mpr ⟨_, hcurrent,
    bind_eq_ok.mpr ⟨_, rfl, bind_eq_ok.mpr ⟨encoded, hencoded, bind_eq_ok.mpr ⟨_,
      ReviewDatabase.get_of_row { row with status := decision, payload := encoded, updatedAt := now } ?_
        htenant hencoded hcheckpoint, rfl⟩⟩⟩⟩⟩⟩
  simp only [ReviewDatabase.row?, Table.find?_update, hfound, Option.map_some]
  rw [if_pos (by simp [hkey, htenant])]

end Storable

end AiSaas
