import AiSaas.Lib.Turns
import AiSaas.ProposalReview.Persistence

/-!
# The evidence each requirement keeps

`_build_initial` cuts the evidence of a request three times: it reads the first 200 items,
`_select_relevant_evidence` takes turns over the requirements and `_bound_evidence` keeps
what is among the first 120 and fits into 96,000 bytes.  With turns, the second cut starves
no requirement; the first one is made before the turns and may.

## Main definitions

* `AcceptedReview` — a request that is accepted, with its requirements apart.
* `NoneStarved` — a requirement with acceptable evidence keeps some.
* `queue` — the evidence that is read, in turns.
* `Reached` — an item of a requirement comes up and has room.

## Main results

* `none_starved_iff` — none is starved exactly when all of them are reached.
* `reached_iff_of_small` — with small records, those that are read are.
-/

namespace AiSaas.ReviewService

open Transaction Kernel

/-! ### Requests -/

/-- The list a request has under a name. -/
def listOf (request : List (String × JsonText.Value)) (name : String) : List Value :=
  match (ofMembers request).getD name (.list []) with
  | .list items => items
  | _ => []

/-- The requirement an item names. -/
def namedRequirement : Value → Option String
  | .dict given =>
    match Mapping.get? given "requirement_id" with
    | some (.str requirementId) => some requirementId
    | _ => none
  | _ => none

/-- The ids of the requirements of a request. -/
def requirementIds (request : List (String × JsonText.Value)) : List String :=
  (listOf request "requirements").filterMap namedRequirement

variable (gh : GraphHost)

/-- `_evidence` returns a record of an item, for a requirement. -/
def Acceptable (requirementId : String) (value : Value) : Prop :=
  ∃ item, evidence gh value = .ok (some item) ∧ requirementKey gh item = requirementId

/-- A request that is accepted, with up to forty requirements of different ids. -/
structure AcceptedReview where
  uuid : String
  tenantId : String
  request : List (String × JsonText.Value)
  initial : Mapping
  built : buildInitial gh uuid tenantId request = .ok initial
  few : (listOf request "requirements").length ≤ 40
  distinct : (requirementIds request).Nodup
  short : ∀ id ∈ requirementIds request, id.length ≤ 64

/-- A review has evidence for a requirement. -/
def Keeps (initial : Mapping) (requirementId : String) : Prop :=
  ∃ items, initial.get? "evidence" = some (.list items) ∧
    ∃ item ∈ items, namedRequirement item = some requirementId

/-- **No requirement is starved**: one with acceptable evidence keeps some. -/
def NoneStarved (review : AcceptedReview gh) : Prop :=
  ∀ id ∈ requirementIds review.request,
    (∃ value ∈ listOf review.request "evidence", Acceptable gh id value) → Keeps review.initial id

/-! ### Turns -/

/-- The record of an item, if there is one. -/
def recordOf (value : Value) : Option Mapping := (evidence gh value).toOption.join

/-- The records of the items that are read. -/
def early (request : List (String × JsonText.Value)) : List Mapping :=
  ((listOf request "evidence").take 200).filterMap (recordOf gh)

/-- The records of a requirement among those that are read. -/
def earlyOf (request : List (String × JsonText.Value)) (id : String) : List Mapping :=
  (early gh request).filter fun item => Decidable.decide (requirementKey gh item = id)

/-- The ids that take turns: the requirements, and those that are no requirement. -/
def turnOrder (request : List (String × JsonText.Value)) : List String :=
  requirementIds request ++ (((early gh request).map (requirementKey gh)).eraseDups).filter
    fun id => Decidable.decide (id ∉ requirementIds request)

/-- The records that are read, in turns. -/
def byTurns (request : List (String × JsonText.Value)) : List Mapping :=
  Turns.turns (turnOrder gh request) (earlyOf gh request) (early gh request).length

/-- A record as the review shows it. -/
def compacted (index : ℕ) (value : Mapping) : Mapping :=
  value ++ record [("evidence_id", .str (evidenceId index)),
    ("excerpt", .str (clip (pyStr gh.host (value.getD "excerpt" (.str ""))) 2000)),
    ("rationale", .str (clip (pyStr gh.host (value.getD "rationale" (.str ""))) 420))]

/-- Records as the review shows them, numbered. -/
def numbered : ℕ → List Mapping → List Mapping
  | _, [] => []
  | index, value :: rest => compacted gh index value :: numbered (index + 1) rest

/-- The bytes of a record. -/
def evidenceSize (item : Mapping) : ℕ := gh.jsonSize (.dict item)

/-- The records that come up: the first 120 in turns, numbered. -/
def queue (request : List (String × JsonText.Value)) : List Mapping :=
  numbered gh 1 ((byTurns gh request).take 120)

/-- A record of the requirement comes up, as the first of all or with room beside those that
were taken before it. -/
def Reached (request : List (String × JsonText.Value)) (requirementId : String) : Prop :=
  ∃ front item back, queue gh request = front ++ item :: back ∧
    requirementKey gh item = requirementId ∧
    Packing.room 96000 (evidenceSize gh) (Packing.after 96000 (evidenceSize gh) none front) item = true

variable {gh} {request : List (String × JsonText.Value)} {item m : Mapping} {value : Value}
  {rid : String} {items : List Mapping}

/-! ### Records -/

/-- A record of evidence: it names its requirement. -/
def Records (m : Mapping) (rid : String) : Prop :=
  Plain m ∧ m.get? "requirement_id" = some (.str rid)

theorem Records.key (h : Records m rid) : requirementKey gh m = rid := by
  rw [requirementKey, Mapping.getD, h.2]
  rfl

theorem records_of_evidence (h : evidence gh value = .ok (some item)) :
    ∃ rid, Records item rid := by
  unfold evidence at h
  split at h
  · split at h
    · next requirementId path _ _ =>
      obtain ⟨startLine, -, h⟩ := bind_eq_ok.mp h
      obtain ⟨endLine, -, h⟩ := bind_eq_ok.mp h
      obtain ⟨-, -, h⟩ := bind_eq_ok.mp h
      dsimp only at h
      split at h
      · cases h
      · obtain ⟨score, -, h⟩ := bind_eq_ok.mp h
        obtain rfl := Option.some.inj (Except.ok.inj h)
        refine ⟨clip requirementId 64, (plain_record _).append ?_, ?_⟩
        · split
          · exact fun member hmember => absurd hmember List.not_mem_nil
          · exact plain_record _
        · rw [Mapping.get?_append]
          split <;> rfl
    · cases h
  · cases h

theorem Records.compacted (h : Records m rid) (index : ℕ) : Records (compacted gh index m) rid := by
  refine ⟨h.1.append (plain_record _), ?_⟩
  rw [ReviewService.compacted, Mapping.get?_append, h.2]
  rfl

theorem mem_numbered {index : ℕ} (h : item ∈ numbered gh index items) :
    ∃ index', ∃ value ∈ items, item = compacted gh index' value := by
  induction items generalizing index with
  | nil => exact absurd h List.not_mem_nil
  | cons value rest ih =>
    rcases List.mem_cons.mp h with rfl | h
    · exact ⟨index, value, List.mem_cons_self, rfl⟩
    · obtain ⟨index', value', hvalue', heq⟩ := ih h
      exact ⟨index', value', List.mem_cons_of_mem value hvalue', heq⟩

/-- What is kept is what has room in the order of the numbers. -/
theorem boundFrom_eq {index total : ℕ} {kept values : List Mapping} (htotal : kept = [] → total = 0) :
    boundFrom gh index total kept values = kept ++ Packing.pack 96000 (evidenceSize gh)
      (if kept = [] then none else some total) (numbered gh index values) := by
  induction values generalizing index total kept with
  | nil => rw [boundFrom, numbered, Packing.pack, List.append_nil]
  | cons value rest ih =>
    rw [boundFrom, numbered, Packing.pack]
    change (if kept ≠ [] ∧ 96000 < total + evidenceSize gh (compacted gh index value)
      then boundFrom gh (index + 1) total kept rest
      else boundFrom gh (index + 1) (total + evidenceSize gh (compacted gh index value))
        (kept ++ [compacted gh index value]) rest) = _
    have hne : kept ++ [compacted gh index value] ≠ [] := by simp
    by_cases hkept : kept = []
    · subst hkept
      rw [if_neg (by simp), ih (fun h => absurd h hne), if_neg hne, htotal rfl]
      simp [Packing.room, Packing.use]
    · by_cases hroom : 96000 < total + evidenceSize gh (compacted gh index value)
      · have hfull : ¬ Packing.room 96000 (evidenceSize gh) (some total) (compacted gh index value) =
            true := by simpa [Packing.room] using hroom
        rw [if_pos ⟨hkept, hroom⟩, ih htotal, if_neg hkept, if_neg hfull, Packing.use, if_neg hfull]
      · have hfits : Packing.room 96000 (evidenceSize gh) (some total) (compacted gh index value) =
            true := by simpa [Packing.room] using hroom
        rw [if_neg fun h => hroom h.2, ih (fun h => absurd h hne), if_neg hne, if_neg hkept,
          if_pos hfits, Packing.use, if_pos hfits, List.append_assoc, List.singleton_append]
        rfl

theorem boundEvidence_eq (values : List Mapping) : boundEvidence gh values =
    Packing.pack 96000 (evidenceSize gh) none (numbered gh 1 (values.take 120)) :=
  boundFrom_eq fun _ => rfl

/-! ### The turns of the code -/

theorem takeRound_eq_turn (order : List String) (buckets : String → List Mapping) :
    takeRound order buckets = Turns.turn order buckets := by
  rw [takeRound, Turns.turn]
  congr 1
  funext ⟨taken, left⟩ id
  cases hleft : left id <;> simp only [hleft]

theorem rounds_eq_serve (order : List String) (n : ℕ) (buckets : String → List Mapping) :
    rounds order n buckets = Turns.serve order n buckets := by
  induction n generalizing buckets with
  | zero => rfl
  | succ n ih =>
    rw [rounds, Turns.serve, ih, takeRound_eq_turn]

theorem nodup_eraseDups : ∀ l : List String, l.eraseDups.Nodup := by
  intro l
  induction hn : l.length using Nat.strong_induction_on generalizing l with
  | h n ih =>
    cases l with
    | nil => exact List.nodup_nil
    | cons a l =>
      have hlength : (l.filter fun b => !b == a).length < n := by
        rw [← hn, List.length_cons]
        exact Nat.lt_succ_of_le (List.length_filter_le _ _)
      rw [List.eraseDups_cons, List.nodup_cons]
      refine ⟨fun hmem => ?_, ih _ hlength _ rfl⟩
      simpa using List.mem_eraseDups.mp hmem

theorem nodup_turnOrder (h : (requirementIds request).Nodup) : (turnOrder gh request).Nodup := by
  refine h.append ((nodup_eraseDups _).filter _) ?_
  intro id hknown hother
  exact of_decide_eq_true (List.mem_filter.mp hother).2 hknown

/-! ### What a review is built of -/

theorem clip_of_length_le {s : String} {n : ℕ} (h : s.length ≤ n) : clip s n = s := by
  rw [clip, List.take_of_length_le h, String.ofList_toList]

theorem get?_referenceFields (rh : ReviewHost) (given : Mapping) :
    Mapping.get? (referenceFields rh given) "requirement_id" = none := by
  rw [Mapping.get?, List.lookup_eq_none_iff]
  intro member hmember
  obtain ⟨key, hkey, hmade⟩ := List.mem_filterMap.mp (List.mem_reverse.mp hmember)
  have hne : "requirement_id" ≠ key := by
    rintro rfl
    exact absurd hkey (by decide)
  dsimp only at hmade
  split at hmade
  · cases hmade
  · obtain rfl := Option.some.inj hmade
    simpa using hne

theorem requirement_eq_ok {sanitized : Mapping}
    (h : requirement gh.toReviewHost value = .ok sanitized) : ∃ id,
      namedRequirement value = some id ∧ requirementKey gh sanitized = clip id 64 := by
  unfold requirement at h
  split at h
  · next given =>
    split at h
    · next requirementId text hid _ =>
      dsimp only at h
      obtain rfl := Except.ok.inj h
      refine ⟨requirementId, by simp only [namedRequirement, hid], ?_⟩
      rw [requirementKey, Mapping.getD, Mapping.get?_append, get?_referenceFields, Option.none_or]
      rfl
    · cases h
  · cases h

theorem map_requirementKey {values : List Value} {sanitized : List Mapping}
    (h : values.mapM (requirement gh.toReviewHost) = .ok sanitized)
    (hshort : ∀ id ∈ values.filterMap namedRequirement, id.length ≤ 64) :
    sanitized.map (requirementKey gh) = values.filterMap namedRequirement := by
  induction values generalizing sanitized with
  | nil =>
    obtain rfl := Except.ok.inj h
    rfl
  | cons value values ih =>
    obtain ⟨first, rest, hfirst, hrest, rfl⟩ := mapM_cons_eq_ok.mp h
    obtain ⟨id, hid, hkey⟩ := requirement_eq_ok hfirst
    rw [List.filterMap_cons_some hid] at hshort ⊢
    obtain ⟨hlength, hshort⟩ := List.forall_mem_cons.mp hshort
    rw [List.map_cons, hkey, clip_of_length_le hlength, ih hrest hshort]

theorem filterMap_recordOf {values : List Value} {found : List (Option Mapping)}
    (h : values.mapM (evidence gh) = .ok found) :
    found.filterMap id = values.filterMap (recordOf gh) := by
  induction values generalizing found with
  | nil =>
    obtain rfl := Except.ok.inj h
    rfl
  | cons value values ih =>
    obtain ⟨first, rest, hfirst, hrest, rfl⟩ := mapM_cons_eq_ok.mp h
    have hrecord : recordOf gh value = first := by
      rw [recordOf, hfirst]
      rfl
    rw [List.filterMap_cons, List.filterMap_cons, hrecord, ih hrest]
    rfl

/-- The evidence of a review, as it was made of what was read. -/
theorem evidence_of_built (review : AcceptedReview gh) : ∃ sanitized found,
    (listOf review.request "requirements").mapM (requirement gh.toReviewHost) = .ok sanitized ∧
    ((listOf review.request "evidence").take 200).mapM (evidence gh) = .ok found ∧
    review.initial.get? "evidence" = some (ofJson (toJson (.list ((boundEvidence gh
      (selectRelevantEvidence gh sanitized (found.filterMap id))).map .dict)))) := by
  have h := review.built
  have hfew := review.few
  simp only [buildInitial, bind_eq_ok] at h
  obtain ⟨-, -, h⟩ := h
  split at h
  · next document repository _ _ =>
    split at h
    · next requirements given hrequirements hgiven =>
      simp only [bind_eq_ok] at h
      obtain ⟨-, -, raw, -, -, -, sanitized, hsanitized, found, hfound, files, -, encoded, -, -, -, h⟩ := h
      have hinitial := Except.ok.inj h.symm
      simp only [listOf, hrequirements, hgiven] at hfew ⊢
      rw [List.take_of_length_le hfew] at hsanitized
      refine ⟨sanitized, found, hsanitized, hfound, ?_⟩
      rw [hinitial, sorted, get?_loaded (plain_record _)]
      rfl
    · cases h
  · cases h

/-- The evidence of a review: what has room of the queue. -/
theorem evidence_eq_pack (review : AcceptedReview gh) :
    review.initial.get? "evidence" = some (ofJson (toJson (.list ((Packing.pack 96000
      (evidenceSize gh) none (queue gh review.request)).map .dict)))) := by
  obtain ⟨sanitized, found, hsanitized, hfound, hevidence⟩ := evidence_of_built review
  have hknown := map_requirementKey hsanitized review.short
  have hearly : found.filterMap id = early gh review.request := filterMap_recordOf hfound
  have hselect : selectRelevantEvidence gh sanitized (early gh review.request) =
      byTurns gh review.request := by
    rw [selectRelevantEvidence, hknown]
    exact (rounds_eq_serve _ _ _).trans (Turns.serve_eq_turns (nodup_turnOrder review.distinct)
      fun id _ => List.length_filter_le _ _)
  rw [hevidence, boundEvidence_eq, hearly, hselect]
  rfl

/-- What is read are the records of the first items. -/
theorem evidence_of_mem_early (h : item ∈ early gh request) :
    ∃ value ∈ (listOf request "evidence").take 200, evidence gh value = .ok (some item) := by
  obtain ⟨value, hvalue, hrecord⟩ := List.mem_filterMap.mp h
  refine ⟨value, hvalue, ?_⟩
  rw [recordOf] at hrecord
  cases hfound : evidence gh value with
  | error e =>
    rw [hfound] at hrecord
    cases hrecord
  | ok found =>
    rw [hfound] at hrecord
    exact congrArg Except.ok hrecord

/-- What comes up is what was read, and names its requirement. -/
theorem early_of_mem_queue (h : item ∈ queue gh request) :
    ∃ found ∈ early gh request, ∃ rid, Records found rid ∧ Records item rid := by
  obtain ⟨index, found, hfound, rfl⟩ := mem_numbered h
  obtain ⟨id, -, hmem⟩ := Turns.mem_turns (List.mem_of_mem_take hfound)
  have hearly := List.mem_of_mem_filter hmem
  obtain ⟨value, -, hevidence⟩ := evidence_of_mem_early hearly
  obtain ⟨rid, hrecords⟩ := records_of_evidence hevidence
  exact ⟨found, hearly, rid, hrecords, hrecords.compacted index⟩

theorem ofItems_eq_map (values : List JsonText.Value) : ofItems values = values.map ofJson := by
  induction values with
  | nil => rfl
  | cons value values ih => rw [ofItems, ih, List.map_cons]

theorem toItems_eq_map (values : List Value) : toItems values = values.map toJson := by
  induction values with
  | nil => rfl
  | cons value values ih => rw [toItems, ih, List.map_cons]

/-- A record is read back with the requirement it names. -/
theorem Records.named (h : Records m rid) : namedRequirement (ofJson (toJson (.dict m))) = some rid := by
  rw [toJson, ofJson, namedRequirement, get?_loaded h.1, h.2]
  rfl

/-- A review has evidence for a requirement exactly when one of its records is reached. -/
theorem keeps_iff_reached (review : AcceptedReview gh) (id : String) :
    Keeps review.initial id ↔ Reached gh review.request id := by
  rw [Keeps, evidence_eq_pack review, toJson, ofJson]
  constructor
  · rintro ⟨items, hitems, shown, hshown, hnamed⟩
    obtain rfl := Value.list.inj (Option.some.inj hitems.symm)
    rw [ofItems_eq_map, toItems_eq_map, List.map_map, List.map_map] at hshown
    obtain ⟨item, hitem, rfl⟩ := List.mem_map.mp hshown
    obtain ⟨front, back, hsplit, hroom⟩ := Packing.mem_pack_iff.mp hitem
    have hmem : item ∈ queue gh review.request := by
      rw [hsplit]
      simp
    obtain ⟨-, -, rid, -, hrecords⟩ := early_of_mem_queue hmem
    rw [Function.comp_apply, Function.comp_apply, hrecords.named] at hnamed
    obtain rfl := Option.some.inj hnamed
    exact ⟨front, item, back, hsplit, hrecords.key, hroom⟩
  · rintro ⟨front, item, back, hsplit, hkey, hroom⟩
    have hmem : item ∈ queue gh review.request := by
      rw [hsplit]
      simp
    obtain ⟨-, -, rid, -, hrecords⟩ := early_of_mem_queue hmem
    have hsame : rid = id := hrecords.key.symm.trans hkey
    subst hsame
    refine ⟨_, rfl, ofJson (toJson (.dict item)), ?_, hrecords.named⟩
    rw [ofItems_eq_map, toItems_eq_map, List.map_map, List.map_map]
    exact List.mem_map_of_mem (Packing.mem_pack_iff.mpr ⟨front, back, hsplit, hroom⟩)

/-! ### Records that fit -/

theorem numbered_append (index : ℕ) (values rest : List Mapping) : numbered gh index (values ++ rest) =
    numbered gh index values ++ numbered gh (index + values.length) rest := by
  induction values generalizing index with
  | nil => rfl
  | cons value values ih =>
    rw [List.cons_append, numbered, numbered, ih, List.cons_append, List.length_cons,
      Nat.add_right_comm, Nat.add_assoc]

/-- The first record of each requirement among those that are read, as the review shows it. -/
def firstRecords (gh : GraphHost) (request : List (String × JsonText.Value)) : List Mapping :=
  numbered gh 1 ((requirementIds request).filterMap fun id => (earlyOf gh request id).head?)

theorem length_requirementIds (review : AcceptedReview gh) :
    (requirementIds review.request).length ≤ 40 :=
  (List.length_filterMap_le _ _).trans review.few

/-- **Behind the 200 items that are read, only bytes are short**: where the first records of
the requirements fit together, each requirement with a record is reached. -/
theorem reached_of_small (review : AcceptedReview gh) {id : String}
    (hid : id ∈ requirementIds review.request)
    (hread : ∃ value ∈ (listOf review.request "evidence").take 200, Acceptable gh id value)
    (hsmall : ((firstRecords gh review.request).map (evidenceSize gh)).sum ≤ 96000) :
    Reached gh review.request id := by
  obtain ⟨value, hvalue, found, hfound, hkey⟩ := hread
  have hmem : found ∈ earlyOf gh review.request id := by
    refine List.mem_filter.mpr ⟨List.mem_filterMap.mpr ⟨value, hvalue, ?_⟩, decide_eq_true hkey⟩
    rw [recordOf, hfound]
    rfl
  obtain ⟨x, rest, hqueue⟩ := List.exists_cons_of_ne_nil (List.ne_nil_of_mem hmem)
  have hx : x ∈ earlyOf gh review.request id := hqueue ▸ List.mem_cons_self
  have hhead : (earlyOf gh review.request id).head? = some x := by rw [hqueue, List.head?_cons]
  obtain ⟨before, after, hids⟩ := List.append_of_mem hid
  set firsts := before.filterMap fun id => (earlyOf gh review.request id).head? with hfirsts
  -- the record has its turn behind the first records of the requirements before it
  obtain ⟨back, hturns⟩ : ∃ back, byTurns gh review.request = firsts ++ x :: back := by
    have hlength : 0 < (early gh review.request).length :=
      List.length_pos_of_mem (List.mem_of_mem_filter hx)
    rw [byTurns, turnOrder, hids, List.append_assoc, List.cons_append]
    exact Turns.exists_turns_first before _ hhead hlength
  have hfew : firsts.length < 120 := by
    have hbefore : firsts.length ≤ before.length := List.length_filterMap_le _ _
    have hall := length_requirementIds review
    rw [hids, List.length_append, List.length_cons] at hall
    omega
  have htake : (byTurns gh review.request).take 120 =
      firsts ++ x :: back.take (119 - firsts.length) := by
    rw [hturns, List.take_append, List.take_of_length_le hfew.le,
      show 120 - firsts.length = 119 - firsts.length + 1 by omega, List.take_succ_cons]
  refine ⟨numbered gh 1 firsts, compacted gh (1 + firsts.length) x, _,
    by rw [queue, htake, numbered_append, numbered], ?_, ?_⟩
  · obtain ⟨given, -, hevidence⟩ := evidence_of_mem_early (List.mem_of_mem_filter hx)
    obtain ⟨rid, hrecords⟩ := records_of_evidence hevidence
    have hsame : requirementKey gh x = id := of_decide_eq_true (List.mem_filter.mp hx).2
    rw [(hrecords.compacted _).key, ← hsame, hrecords.key]
  · apply Packing.room_of_sum_le
    have hshown : firstRecords gh review.request = numbered gh 1 firsts ++
        compacted gh (1 + firsts.length) x :: numbered gh (1 + firsts.length + 1)
          (after.filterMap fun id => (earlyOf gh review.request id).head?) := by
      rw [firstRecords, hids, List.filterMap_append, List.filterMap_cons, hhead, numbered_append,
        numbered]
    rw [hshown, List.map_append, List.map_cons, List.sum_append, List.sum_cons] at hsmall
    omega

/-- What is reached was read. -/
theorem read_of_reached {id : String} (h : Reached gh request id) :
    ∃ value ∈ (listOf request "evidence").take 200, Acceptable gh id value := by
  obtain ⟨front, item, back, hsplit, hkey, -⟩ := h
  have hmem : item ∈ queue gh request := by
    rw [hsplit]
    simp
  obtain ⟨found, hfound, rid, hrecords, hshown⟩ := early_of_mem_queue hmem
  obtain ⟨value, hvalue, hevidence⟩ := evidence_of_mem_early hfound
  exact ⟨value, hvalue, found, hevidence, hrecords.key.trans (hshown.key.symm.trans hkey)⟩

/-- Where the first records fit together, the cut in front of the turns is the one that
starves. -/
theorem reached_iff_of_small (review : AcceptedReview gh) {id : String}
    (hid : id ∈ requirementIds review.request)
    (hsmall : ((firstRecords gh review.request).map (evidenceSize gh)).sum ≤ 96000) :
    Reached gh review.request id ↔
      ∃ value ∈ (listOf review.request "evidence").take 200, Acceptable gh id value :=
  ⟨read_of_reached, fun hread => reached_of_small review hid hread hsmall⟩

/-- **No requirement is starved exactly when each with acceptable evidence is reached.** -/
theorem none_starved_iff (review : AcceptedReview gh) : NoneStarved gh review ↔
    ∀ id ∈ requirementIds review.request,
      (∃ value ∈ listOf review.request "evidence", Acceptable gh id value) →
        Reached gh review.request id := by
  rw [NoneStarved]
  refine forall_congr' fun id => imp_congr_right fun _ => imp_congr_right fun _ => ?_
  exact keeps_iff_reached review id

/-! ### A requirement that is starved -/

/-- An interpreter for reviews without evidence. -/
def readingHost : GraphHost where
  toReviewHost := sampleReviewHost
  jsonSize _ := 0
  typeName _ := "ValueError"
  coverage _ _ := .int 0
  deriveAssessment _ _ := .dict []

/-- An item whose rationale is no sentence. -/
def silentItem : JsonText.Value :=
  .obj [("path", .str "a.py"), ("requirement_id", .str "R1"), ("start_line", .int 1)]

/-- An item with a rationale. -/
def tellingItem : JsonText.Value :=
  .obj [("path", .str "b.py"), ("rationale", .str "It exports."), ("requirement_id", .str "R2"),
    ("start_line", .int 1)]

/-- A request with an item behind two hundred others. -/
def lateRequest : List (String × JsonText.Value) :=
  [("document", .obj []), ("evidence", .arr (List.replicate 200 silentItem ++ [tellingItem])),
    ("repository", .obj []),
    ("requirements", .arr [.obj [("requirement_id", .str "R1"), ("text", .str "Import")],
      .obj [("requirement_id", .str "R2"), ("text", .str "Export")]])]

/-- **The evidence of a requirement is cut off before the turns are taken.** -/
theorem late_starved : ∃ review : AcceptedReview readingHost, review.request = lateRequest ∧
    ¬ NoneStarved readingHost review := by
  have hsome : (buildInitial readingHost "" "tenant-a" lateRequest).toOption.isSome = true := by
    decide +kernel
  cases hbuilt : buildInitial readingHost "" "tenant-a" lateRequest with
  | error e =>
    rw [hbuilt] at hsome
    cases hsome
  | ok initial =>
    refine ⟨⟨"", "tenant-a", lateRequest, initial, hbuilt, by decide +kernel, by decide +kernel,
      by decide +kernel⟩, rfl, fun h => ?_⟩
    have hacceptable : Acceptable readingHost "R2" (ofJson tellingItem) := ⟨_, rfl, rfl⟩
    have hmem : ofJson tellingItem ∈ listOf lateRequest "evidence" := by
      change ofJson tellingItem ∈ ofItems (List.replicate 200 silentItem ++ [tellingItem])
      rw [ofItems_eq_map]
      exact List.mem_map_of_mem (List.mem_append_right _ List.mem_cons_self)
    have hid : "R2" ∈ requirementIds lateRequest := by decide +kernel
    have hqueue : (queue readingHost lateRequest).isEmpty = true := by decide +kernel
    obtain ⟨front, item, back, hsplit, -⟩ := (keeps_iff_reached _ "R2").mp
      (h "R2" hid ⟨_, hmem, hacceptable⟩)
    rw [hsplit] at hqueue
    simp at hqueue

end AiSaas.ReviewService
