import AiSaas.Kernel.Endings

/-!
# Idempotency keys of the kernel store

A key that is used again is answered with the first record if the input is the same,
and refused otherwise.  The two inputs are compared by a digest of their redacted and
bounded encodings, so that long inputs that differ late are taken for one.

## Main definitions

* `NewRun.input`, `NewProposal.input` — what a call is given, redacted.
* `Merged` — encodings that differ only behind the bound.
* `Told` — a second call is answered by what it is given.

## Main results

* `createRun_answer`, `createProposal_answer` — what a call with a used key answers.
* `keys_told` — second calls are told from first ones, where their encodings differ
  within the bounds.
-/

namespace AiSaas.Kernel

open Relational Transaction Processes Store

/-! ### Bounded encodings -/

/-- Two texts that are bounded are equal if they are, or if both are cut alike. -/
theorem boundedText_eq_iff {a b : String} {n : ℕ} : boundedText a n = boundedText b n ↔
    a = b ∨ n < a.length ∧ n < b.length ∧ a.toList.take n = b.toList.take n := by
  have hlength : ∀ {s : String}, n < s.length → (boundedText s n).length = n + truncated.length := by
    intro s hs
    have htake : (s.toList.take n).length = n := by
      rw [List.length_take, String.length_toList, min_eq_left hs.le]
    rw [boundedText, if_neg (not_le.mpr hs), String.length_append, String.length_ofList, htake]
  have hmark : 0 < truncated.length := by decide
  rcases le_or_gt a.length n with ha | ha <;> rcases le_or_gt b.length n with hb | hb
  · rw [boundedText_of_le ha, boundedText_of_le hb]
    exact ⟨Or.inl, fun h => h.resolve_right fun h => absurd h.1 (not_lt.mpr ha)⟩
  · rw [boundedText_of_le ha]
    constructor
    · intro h
      have hlen := hlength hb
      rw [← h] at hlen
      omega
    · rintro (rfl | h)
      · omega
      · omega
  · rw [boundedText_of_le hb]
    constructor
    · intro h
      have hlen := hlength ha
      rw [h] at hlen
      omega
    · rintro (rfl | h)
      · omega
      · omega
  · rw [boundedText, boundedText, if_neg (not_le.mpr ha), if_neg (not_le.mpr hb),
      String.append_left_inj]
    constructor
    · intro h
      exact Or.inr ⟨ha, hb, by simpa using congrArg String.toList h⟩
    · rintro (rfl | h)
      · rfl
      · rw [h.2.2]

/-- Two encodings are longer than what is kept, and do not differ in it. -/
def Merged (v v' : JsonText.Value) : Prop :=
  maxJsonChars < (JsonText.write v).length ∧ maxJsonChars < (JsonText.write v').length ∧
    (JsonText.write v).take maxJsonChars = (JsonText.write v').take maxJsonChars

variable {host : Host}

theorem requestHash_eq_ok {value : Value} {hash : String} :
    requestHash host value = .ok hash ↔ (toJson (redact host value)).Short ∧
      hash = host.sha256 (boundedText
        (String.ofList (JsonText.write (toJson (redact host value)))) maxJsonChars) := by
  rw [requestHash, safeJson, dumps]
  split
  · next hshort =>
    simp only [Except.map, Except.ok.injEq, hshort, true_and]
    exact eq_comm
  · next hshort => simp [Except.map, hshort]

/-- **Digests are equal** where the redacted values are, or where their encodings are merged. -/
theorem requestHash_eq_iff (hsha : Function.Injective host.sha256) {a b : Value} {h h' : String}
    (ha : requestHash host a = .ok h) (hb : requestHash host b = .ok h') :
    h = h' ↔ toJson (redact host a) = toJson (redact host b) ∨
      Merged (toJson (redact host a)) (toJson (redact host b)) := by
  obtain ⟨hshort, rfl⟩ := requestHash_eq_ok.mp ha
  obtain ⟨hshort', rfl⟩ := requestHash_eq_ok.mp hb
  rw [hsha.eq_iff, boundedText_eq_iff, String.length_ofList, String.length_ofList,
    String.toList_ofList, String.toList_ofList]
  refine or_congr ⟨fun heq => ?_, fun heq => by rw [heq]⟩ Iff.rfl
  exact JsonText.write_injective hshort hshort' (String.ofList_injective heq)

/-! ### Answers -/

/-- A second call is answered by what it is given: with the first record if its input is
the same, with a conflict otherwise. -/
def Told {α : Type} (same : Prop) (answer : Option (Except Raised α)) (first : α → Prop) : Prop :=
  (same → ∃ a, answer = some (.ok a) ∧ first a) ∧
    (¬ same → ∃ e, answer = some (.error e) ∧ e.kind = .idempotencyConflict)

/-- Inputs whose encodings are merged. -/
def MergedInputs (x y : Except Raised JsonText.Value) : Prop :=
  ∃ v v', x = .ok v ∧ y = .ok v' ∧ Merged v v'

/-! ### Runs -/

variable (host) in
/-- What `create_run` is given, redacted. -/
def NewRun.input (args : NewRun) : Except Raised JsonText.Value :=
  (snapshotOf host args.repositorySnapshot).map fun s => toJson (redact host (args.request s))

variable (host) in
/-- A call of `create_run` that comes to compare its input. -/
structure NewRun.Compared (args : NewRun) (db : Database) (snapshot : Snapshot) (hash : String) : Prop where
  taken : snapshotOf host args.repositorySnapshot = .ok snapshot
  hashed : requestHash host (args.request snapshot) = .ok hash
  owned : checkProposal args snapshot db = .ok ()

theorem spares_checkProposal (args : NewRun) (snapshot : Snapshot) (db : Database) :
    Spares (checkProposal args snapshot db) := by
  unfold checkProposal
  split
  · refine Spares.bind ?_ fun proposal => ?_
    · unfold ownedProposal
      split
      · split
        · exact spares_ok _
        · exact spares_error (by decide)
      · exact spares_error (by decide)
    · unfold ensure
      split
      · exact spares_ok _
      · exact spares_error (by decide)
  · exact spares_ok _

/-- **What `create_run` answers where its key is used.** -/
theorem createRun_answer {args : NewRun} {db : Database} {existing : RunRow} (d : Draw)
    (hfound : db.productRuns.findBy? (args.tenantId, args.idempotencyKey) = some existing) :
    (∃ e, ((StoreOp.createRun args).exec host d db).1 = .error e ∧ e.kind ≠ .idempotencyConflict ∧
        ¬ ∃ snapshot hash, args.Compared host db snapshot hash) ∨
      ∃ snapshot hash, args.Compared host db snapshot hash ∧
        ((existing.requestHash = hash ∧ ((StoreOp.createRun args).exec host d db).1 = lifecycle existing) ∨
          existing.requestHash ≠ hash ∧ ∃ e, ((StoreOp.createRun args).exec host d db).1 = .error e ∧
            e.kind = .idempotencyConflict) := by
  have hraise : ∀ {e}, createRun host args d db = .error e →
      ((StoreOp.createRun args).exec host d db).1 = .error e := fun h =>
    congrArg Prod.fst (atomically_of_error h)
  cases hsnapshot : snapshotOf host args.repositorySnapshot with
  | error e =>
    refine Or.inl ⟨e, hraise ?_, spares_snapshotOf _ hsnapshot, ?_⟩
    · rw [createRun, hsnapshot]
      rfl
    · rintro ⟨snapshot, hash, h⟩
      cases hsnapshot.symm.trans h.taken
  | ok snapshot =>
    have hsame : ∀ {s hash}, args.Compared host db s hash → s = snapshot := fun h =>
      Except.ok.inj (h.taken.symm.trans hsnapshot)
    cases hhash : requestHash host (args.request snapshot) with
    | error e =>
      refine Or.inl ⟨e, hraise ?_, spares_requestHash _ hhash, ?_⟩
      · rw [createRun, hsnapshot]
        change (requestHash host (args.request snapshot) >>= _) = _
        rw [hhash]
        rfl
      · rintro ⟨s, hash, h⟩
        obtain rfl := hsame h
        cases hhash.symm.trans h.hashed
    | ok hash =>
      cases howned : checkProposal args snapshot db with
      | error e =>
        refine Or.inl ⟨e, hraise ?_, spares_checkProposal _ _ _ howned, ?_⟩
        · rw [createRun, hsnapshot]
          change (requestHash host (args.request snapshot) >>= _) = _
          rw [hhash]
          change (checkProposal args snapshot db >>= _) = _
          rw [howned]
          rfl
        · rintro ⟨s, hash, h⟩
          obtain rfl := hsame h
          cases howned.symm.trans h.owned
      | ok u =>
        have hbody : createRun host args d db = (do
            ensure (existing.requestHash == hash)
              ⟨.idempotencyConflict, "idempotency key was reused with different input"⟩
            let run ← lifecycle existing
            return (run, db)) := by
          rw [createRun, hsnapshot]
          change (requestHash host (args.request snapshot) >>= _) = _
          rw [hhash]
          change (checkProposal args snapshot db >>= _) = _
          rw [howned, hfound]
          rfl
        refine Or.inr ⟨snapshot, hash, ⟨hsnapshot, hhash, howned⟩, ?_⟩
        by_cases heq : existing.requestHash = hash
        · refine Or.inl ⟨heq, ?_⟩
          rw [beq_iff_eq.mpr heq] at hbody
          cases hrun : lifecycle existing with
          | error e =>
            apply hraise
            rw [hbody, hrun]
            rfl
          | ok run =>
            refine congrArg Prod.fst (@atomically_of_ok _ _ _ _ db db run ?_)
            rw [hbody, hrun]
            rfl
        · refine Or.inr ⟨heq, ⟨.idempotencyConflict, "idempotency key was reused with different input"⟩,
            hraise ?_, rfl⟩
          rw [hbody, beq_eq_false_iff_ne.mpr heq]
          rfl

/-- The row of the key after a call that returned. -/
theorem createRun_row {args : NewRun} {d : Draw} {db db₁ : Database} {run : RunLifecycle}
    (h : (StoreOp.createRun args).exec host d db = (.ok run, db₁)) :
    ∃ row ∈ db₁.productRuns.rows, row.requestKey = (args.tenantId, args.idempotencyKey) ∧
      row.runId = run.runId ∧ ∃ snapshot, snapshotOf host args.repositorySnapshot = .ok snapshot ∧
        requestHash host (args.request snapshot) = .ok row.requestHash := by
  obtain ⟨run', db', hok, hall⟩ | ⟨e, -, hall⟩ := atomically_cases (createRun host args d) db
  swap
  · cases hall.symm.trans h
  obtain ⟨hrun, rfl⟩ := Prod.mk.inj (hall.symm.trans h)
  obtain rfl := Except.ok.inj hrun
  have hread : ∀ {row : RunRow}, lifecycle row = .ok run' → row.runId = run'.runId := by
    intro row hrow
    obtain ⟨v, -, rfl⟩ := map_eq_ok.mp hrow
    rfl
  obtain ⟨snapshot, hash, hsnapshot, hhash, -, ⟨row, hrow, rfl, hrun, rfl⟩ |
    ⟨-, row, stored, hins, hstored, hrun⟩⟩ := createRun_eq_ok hok
  · obtain ⟨hmem, hkey⟩ := Table.findBy?_eq_some.mp hrow
    exact ⟨row, hmem, hkey, hread hrun, snapshot, hsnapshot, hhash⟩
  · obtain ⟨text, productRuns, productEvents, -, hruns, -, hlink⟩ := hins.tables
    have htables : db'.productRuns = productRuns := by
      obtain ⟨-, rfl⟩ | ⟨_, -, -, -, -, -, rfl⟩ := linkProposal_eq_ok hlink <;> rfl
    have hsame : stored = row := by
      rw [htables, Table.find?_insert hruns, if_pos hins.runId] at hstored
      exact (Option.some.inj hstored).symm
    subst hsame
    refine ⟨stored, (Table.find?_eq_some.mp hstored).1, ?_, hread hrun, snapshot, hsnapshot, ?_⟩
    · rw [RunRow.requestKey, hins.tenantId, hins.idempotencyKey]
    · rw [hins.requestHash]
      exact hhash

variable (host) in
/-- A second call of `create_run` is compared by all of its input, and the record it is
to return can be read. -/
def NewRun.Answerable (args args' : NewRun) (db : Database) : Prop :=
  (∃ snapshot hash, args'.Compared host db snapshot hash) ∧
    (args.input host = args'.input host → ∃ row run,
      db.productRuns.findBy? (args'.tenantId, args'.idempotencyKey) = some row ∧
        lifecycle row = .ok run) ∧
    (args.input host ≠ args'.input host → ¬ MergedInputs (args.input host) (args'.input host))

/-- **The key of a run**: a second call is told from the first where it is answerable. -/
theorem createRun_told (hsha : Function.Injective host.sha256) {args args' : NewRun} {d d' : Draw}
    {db db₁ : Database} {run : RunLifecycle}
    (hfirst : (StoreOp.createRun args).exec host d db = (.ok run, db₁))
    (htenant : args'.tenantId = args.tenantId) (hkey : args'.idempotencyKey = args.idempotencyKey)
    {db₂ : Database} (hlasting : Lasting db₁ db₂) :
    Told (args.input host = args'.input host) (some ((StoreOp.createRun args').exec host d' db₂).1)
        (fun run' => getRun run.runId args.tenantId db₂ = .ok run') ↔
      args.Answerable host args' db₂ := by
  obtain ⟨row₁, hrow₁, hrequest, hid, snapshot, hsnapshot, hhash⟩ := createRun_row hfirst
  obtain ⟨row, hrow, hlast⟩ := hlasting.runs hrow₁
  have hrunId : row.runId = row₁.runId := (congrArg RunRow.runId hlast :)
  have hrowKey : row.requestKey = row₁.requestKey := (congrArg RunRow.requestKey hlast :)
  have hrowHash : row.requestHash = row₁.requestHash := (congrArg RunRow.requestHash hlast :)
  have hrowTenant : row.tenantId = row₁.tenantId := (congrArg RunRow.tenantId hlast :)
  have hfound : db₂.productRuns.findBy? (args'.tenantId, args'.idempotencyKey) = some row := by
    rw [Table.findBy?_eq_some, hrowKey, hrequest, htenant, hkey]
    exact ⟨hrow, rfl⟩
  have hget : getRun run.runId args.tenantId db₂ = lifecycle row := by
    have howned : ownedRow run.runId args.tenantId db₂ = .ok row := by
      rw [ownedRow_eq_ok, ← hid, ← hrunId]
      exact ⟨Table.find?_of_mem hrow, hrowTenant.trans (Prod.mk.inj hrequest).1⟩
    rw [getRun, howned]
    rfl
  have hinput : args.input host = .ok (toJson (redact host (args.request snapshot))) := by
    rw [NewRun.input, hsnapshot]
    rfl
  rw [hget]
  rcases createRun_answer d' hfound with ⟨e, hanswer, hkind, hnot⟩ | ⟨snapshot', hash, hcompared, hanswer⟩
  · -- the call raises before it compares
    refine iff_of_false ?_ fun h => hnot h.1
    rintro ⟨hsame, hother⟩
    by_cases heq : args.input host = args'.input host
    · obtain ⟨a, ha, -⟩ := hsame heq
      cases (Option.some.inj ha).symm.trans hanswer
    · obtain ⟨e', he', hconflict⟩ := hother heq
      obtain rfl := Except.error.inj (hanswer.symm.trans (Option.some.inj he'))
      exact hkind hconflict
  have hinput' : args'.input host = .ok (toJson (redact host (args'.request snapshot'))) := by
    rw [NewRun.input, hcompared.taken]
    rfl
  have hdigest : row.requestHash = hash ↔ args.input host = args'.input host ∨
      MergedInputs (args.input host) (args'.input host) := by
    rw [hrowHash, requestHash_eq_iff hsha hhash hcompared.hashed, hinput, hinput', Except.ok.injEq]
    refine or_congr Iff.rfl ⟨fun h => ⟨_, _, rfl, rfl, h⟩, ?_⟩
    rintro ⟨v, v', hv, hv', h⟩
    obtain rfl := Except.ok.inj hv
    obtain rfl := Except.ok.inj hv'
    exact h
  constructor
  · rintro ⟨hsame, hother⟩
    refine ⟨⟨snapshot', hash, hcompared⟩, fun heq => ?_, fun hne hmerged => ?_⟩
    · obtain ⟨a, ha, hread⟩ := hsame heq
      exact ⟨row, a, hfound, hread⟩
    · obtain ⟨e, he, hconflict⟩ := hother hne
      rcases hanswer with ⟨-, hanswer⟩ | ⟨hdiffer, -⟩
      · -- the digests are equal, so the record is read
        rw [hanswer] at he
        have hspares : Spares (lifecycle row) := (spares_loads _).map
        exact hspares (Option.some.inj he) hconflict
      · exact hdiffer (hdigest.mpr (Or.inr hmerged))
  · rintro ⟨-, hsame, hother⟩
    refine ⟨fun heq => ?_, fun hne => ?_⟩
    · obtain ⟨row', a, hrow', hread⟩ := hsame heq
      obtain rfl := Option.some.inj (hfound.symm.trans hrow')
      rcases hanswer with ⟨-, hanswer⟩ | ⟨hdiffer, -⟩
      · exact ⟨a, congrArg some (hanswer.trans hread), hread⟩
      · exact absurd (hdigest.mpr (Or.inl heq)) hdiffer
    · rcases hanswer with ⟨hequal, -⟩ | ⟨-, e, he, hconflict⟩
      · exact absurd ((hdigest.mp hequal).resolve_left hne) (hother hne)
      · exact ⟨e, congrArg some he, hconflict⟩

/-! ### Proposals -/

variable (host) in
/-- What `create_proposal` is given, redacted. -/
def NewProposal.input (args : NewProposal) : Except Raised JsonText.Value :=
  (snapshotOf host (some args.repository)).map fun s => toJson (redact host (.dict (record
    [("proposal", .str args.proposal), ("mode", .str args.mode), ("repository", .dict s.dict)])))

variable (host) in
/-- What is left of it when the text is cut and redacted again. -/
def NewProposal.hashed (args : NewProposal) : Except Raised JsonText.Value :=
  (snapshotOf host (some args.repository)).map fun s => toJson (redact host (args.request host s))

variable (host) in
/-- The repository a proposal is for. -/
def NewProposal.repositoryId (args : NewProposal) : Except Raised (Option String) := do
  let snapshot ← snapshotOf host (some args.repository)
  bindText host snapshot.repositoryId

variable (host) in
/-- A call of `create_proposal` that comes to compare its input. -/
structure NewProposal.Compared (args : NewProposal) (db : Database) (snapshot : Snapshot) (id hash : String) :
    Prop where
  proposal : blank args.proposal = false
  key : blank args.idempotencyKey = false
  branch : snapshot.branch.truthy = true
  commit : snapshot.commit.truthy = true
  registrable : Registrable host args.repository snapshot id
  shown : Shown host args.tenantId snapshot id db
  hashed : requestHash host (args.request host snapshot) = .ok hash

variable {May : Draw → Prop} {db db' : Database}

/-- **What `create_proposal` answers where its key is used.** -/
theorem createProposal_answer {args : NewProposal} {r : Except Raised ProposalRecord} {id : String}
    {existing : ProposalRow}
    (h : (createProposal host args).Ends (StoreOp.exec host) May db r db')
    (hid : args.repositoryId host = .ok (some id))
    (hfound : db.proposals.findBy? (args.tenantId, id, args.idempotencyKey) = some existing) :
    (∃ e, r = .error e ∧ e.kind ≠ .idempotencyConflict ∧
        ¬ ∃ snapshot id hash, args.Compared host db snapshot id hash) ∨
      ∃ snapshot hash, args.Compared host db snapshot id hash ∧
        ((existing.requestHash = hash ∧ r = .ok (proposalRecord existing)) ∨
          existing.requestHash ≠ hash ∧ ∃ e, r = .error e ∧ e.kind = .idempotencyConflict) := by
  unfold createProposal at h
  by_cases hproposal : blank args.proposal = true
  · rw [if_pos hproposal] at h
    obtain ⟨rfl, -⟩ := ends_raise h
    refine Or.inl ⟨_, rfl, by decide, ?_⟩
    rintro ⟨snapshot, id, hash, hc⟩
    exact absurd hproposal (by rw [hc.proposal]; decide)
  rw [if_neg hproposal] at h
  by_cases hkey : blank args.idempotencyKey = true
  · rw [if_pos hkey] at h
    obtain ⟨rfl, -⟩ := ends_raise h
    refine Or.inl ⟨_, rfl, by decide, ?_⟩
    rintro ⟨snapshot, id, hash, hc⟩
    exact absurd hkey (by rw [hc.key]; decide)
  rw [if_neg hkey] at h
  rcases ends_ofExcept h with ⟨e, he, rfl, -⟩ | ⟨snapshot, hsnapshot, h⟩
  · refine Or.inl ⟨e, rfl, spares_snapshotOf _ he, ?_⟩
    rintro ⟨snapshot, id, hash, hc⟩
    cases he.symm.trans hc.registrable.taken
  have hsame : ∀ {s id hash}, args.Compared host db s id hash → s = snapshot := fun hc =>
    Except.ok.inj (hc.registrable.taken.symm.trans hsnapshot)
  by_cases hcomplete : (snapshot.repositoryId.truthy && snapshot.branch.truthy &&
      snapshot.commit.truthy) = true
  swap
  · rw [if_neg hcomplete] at h
    obtain ⟨rfl, -⟩ := ends_raise h
    refine Or.inl ⟨_, rfl, by decide, ?_⟩
    rintro ⟨s, id, hash, hc⟩
    obtain rfl := hsame hc
    exact hcomplete (by rw [hc.registrable.named, hc.branch, hc.commit]; rfl)
  rw [if_pos hcomplete] at h
  simp only [Bool.and_eq_true] at hcomplete
  obtain ⟨⟨hnamed, hbranch⟩, hcommit⟩ := hcomplete
  rcases Prog.ends_bind h with ⟨e, hregister, rfl⟩ | ⟨stored, db₁, hregister, h⟩
  · rcases registerRepository_ends hregister with ⟨e', he, hkind, -, hnot⟩ |
      ⟨s, i, repositories, hreg, -, ⟨record, he, -⟩ | ⟨e', he, hkind, hnot⟩⟩
    · obtain rfl := Except.error.inj he
      refine Or.inl ⟨e, rfl, hkind, ?_⟩
      rintro ⟨s, i, hash, hc⟩
      exact hnot ⟨s, i, hc.registrable⟩
    · cases he
    · obtain rfl := Except.error.inj he
      refine Or.inl ⟨e, rfl, hkind, ?_⟩
      rintro ⟨s', i', hash, hc⟩
      obtain rfl := Except.ok.inj (hc.registrable.taken.symm.trans hreg.taken)
      obtain rfl := Option.some.inj
        (Except.ok.inj (hc.registrable.repositoryId.symm.trans hreg.repositoryId))
      exact hnot hc.shown
  obtain ⟨e', he, -⟩ | ⟨s, i, repositories, hreg, rfl, ⟨record, -, hshown⟩ | ⟨e', he, -⟩⟩ :=
    registerRepository_ends hregister
  · cases he
  swap
  · cases he
  obtain rfl := Except.ok.inj (hreg.taken.symm.trans hsnapshot)
  have hi : i = id := by
    rw [NewProposal.repositoryId, hsnapshot] at hid
    exact Option.some.inj (Except.ok.inj (hreg.repositoryId.symm.trans hid))
  subst hi
  rcases ends_ofExcept h with ⟨e, he, rfl, -⟩ | ⟨hash, hhash, h⟩
  · refine Or.inl ⟨e, rfl, spares_requestHash _ he, ?_⟩
    rintro ⟨s', i', hash, hc⟩
    obtain rfl := hsame hc
    cases he.symm.trans hc.hashed
  rcases ends_ofExcept h with ⟨e, he, -⟩ | ⟨bound, hbound, h⟩
  · cases he.symm.trans hreg.repositoryId
  obtain rfl := Except.ok.inj (hbound.symm.trans hreg.repositoryId)
  have h := ends_look h
  rw [Option.bind_some, hfound] at h
  refine Or.inr ⟨s, hash, ⟨by simpa using hproposal, by simpa using hkey, hbranch, hcommit, hreg,
    hshown, hhash⟩, ?_⟩
  by_cases heq : existing.requestHash = hash
  · simp only [if_pos heq] at h
    exact Or.inl ⟨heq, (ends_pure h).1⟩
  · simp only [if_neg heq] at h
    exact Or.inr ⟨heq, _, (ends_raise h).1, rfl⟩

/-- The row of the key after a call that returned. -/
theorem createProposal_row {args : NewProposal} {made : ProposalRecord}
    (h : (createProposal host args).Ends (StoreOp.exec host) May db (.ok made) db') :
    ∃ row ∈ db'.proposals.rows, made = proposalRecord row ∧
      ∃ snapshot id, snapshotOf host (some args.repository) = .ok snapshot ∧
        bindText host snapshot.repositoryId = .ok (some id) ∧
        row.requestKey = (args.tenantId, id, args.idempotencyKey) ∧
        requestHash host (args.request host snapshot) = .ok row.requestHash := by
  unfold createProposal at h
  split at h
  · cases (ends_raise h).1
  split at h
  · cases (ends_raise h).1
  rcases ends_ofExcept h with ⟨e, -, he, -⟩ | ⟨snapshot, hsnapshot, h⟩
  · cases he
  split at h
  swap
  · cases (ends_raise h).1
  rcases Prog.ends_bind h with ⟨e, -, he⟩ | ⟨stored, db₁, hregister, h⟩
  · cases he
  obtain ⟨e', he, -⟩ | ⟨s, id, repositories, hreg, rfl, ⟨record, -, hshown⟩ | ⟨e', he, -⟩⟩ :=
    registerRepository_ends hregister
  · cases he
  swap
  · cases he
  obtain rfl := Except.ok.inj (hreg.taken.symm.trans hsnapshot)
  rcases ends_ofExcept h with ⟨e, -, he, -⟩ | ⟨hash, hhash, h⟩
  · cases he
  rcases ends_ofExcept h with ⟨e, -, he, -⟩ | ⟨bound, hbound, h⟩
  · cases he
  obtain rfl := Except.ok.inj (hbound.symm.trans hreg.repositoryId)
  have h := ends_look h
  rw [Option.bind_some] at h
  split at h
  · next existing hexisting =>
    split at h
    · next hsame =>
      obtain ⟨hmade, rfl⟩ := ends_pure h
      obtain ⟨hmem, hkey⟩ := Table.findBy?_eq_some.mp hexisting
      exact ⟨existing, hmem, Except.ok.inj hmade, s, id, hsnapshot, hbound, hkey, hsame ▸ hhash⟩
    · cases (ends_raise h).1
  · obtain ⟨d, -, h⟩ := ends_now h
    obtain ⟨d', -, h⟩ := ends_uuid h
    rcases ends_ofExcept h with ⟨e, -, he, -⟩ | ⟨branch, -, h⟩
    · cases he
    rcases ends_ofExcept h with ⟨e, -, he, -⟩ | ⟨commit, -, h⟩
    · cases he
    rcases ends_ofExcept h with ⟨e, -, he, -⟩ | ⟨id', hid', h⟩
    · cases he
    obtain rfl := Option.some.inj (required_eq_ok.mp hid')
    rcases ends_ofExcept h with ⟨e, -, he, -⟩ | ⟨branch', -, h⟩
    · cases he
    rcases ends_ofExcept h with ⟨e, -, he, -⟩ | ⟨commit', -, h⟩
    · cases he
    rcases ends_write h with ⟨e, -, he, -⟩ | ⟨db₂, hinsert, h⟩
    · cases he
    have h := ends_look h
    rcases ends_ofExcept h with ⟨e, -, he, -⟩ | ⟨row, hrow, h⟩
    · cases he
    obtain ⟨hmade, rfl⟩ := ends_pure h
    obtain ⟨proposals, htable, rfl⟩ := map_eq_ok.mp hinsert
    have hrow := orRaise_eq_ok.mp hrow
    rw [Table.find?_insert (orRaise_eq_ok.mp htable), if_pos rfl] at hrow
    obtain rfl := Option.some.inj hrow
    refine ⟨_, ?_, Except.ok.inj hmade, s, id, hsnapshot, hbound, rfl, hhash⟩
    rw [(Table.insert?_eq_some (orRaise_eq_ok.mp htable)).1]
    exact List.mem_append_right _ List.mem_cons_self

/-- The members of what is hashed for a proposal, sorted. -/
theorem toJson_request (proposal mode repository : Value) :
    toJson (redact host (.dict (record
      [("proposal", proposal), ("mode", mode), ("repository", repository)])))
      = .obj [("mode", toJson (redact host mode)), ("proposal", toJson (redact host proposal)),
        ("repository", toJson (redact host repository))] := by
  have hmode : "mode" < "proposal" := by decide
  have hrepository : "proposal" < "repository" := by decide
  have hlast : "mode" < "repository" := by decide
  simp only [record, List.map_cons, List.map_nil, redact, redactEntries, toJson, toMembers,
    sortMembers, List.foldl_cons, List.foldl_nil, setMember, Key.text, hmode, if_true,
    if_neg (not_lt_of_gt hlast), if_neg (ne_of_gt hlast), if_neg (not_lt_of_gt hrepository),
    if_neg (ne_of_gt hrepository)]

/-- What is hashed is told by what is given. -/
theorem NewProposal.hashed_eq {args args' : NewProposal} (h : args.input host = args'.input host) :
    args.hashed host = args'.hashed host := by
  refine map_eq_map (fun s s' hinput => ?_) h
  rw [toJson_request, toJson_request] at hinput
  have hmembers := JsonText.Value.obj.inj hinput
  simp only [List.cons.injEq, Prod.mk.injEq, true_and, and_true] at hmembers
  obtain ⟨hmode, htext, hrepository⟩ := hmembers
  have hproposal : redactText host.alnum args.proposal = redactText host.alnum args'.proposal :=
    JsonText.Value.str.inj htext
  rw [NewProposal.request, NewProposal.request, toJson_request, toJson_request, hmode, hrepository,
    NewProposal.safeProposal, NewProposal.safeProposal, hproposal]

variable (host) in
/-- A second call of `create_proposal` is compared by all of its input. -/
def NewProposal.Answerable (args args' : NewProposal) (db : Database) : Prop :=
  (∃ snapshot id hash, args'.Compared host db snapshot id hash) ∧
    (args.input host ≠ args'.input host → args.hashed host ≠ args'.hashed host ∧
      ¬ MergedInputs (args.hashed host) (args'.hashed host))

theorem within_ofExcept_bind {α β : Type} {n : ℕ} {x : Except Raised β} {next : β → Store α}
    (h : ∀ b, (next b).Within (fun _ _ => True) n) :
    (ofExcept x >>= next).Within (fun _ _ => True) n := by
  cases x with
  | error e => exact Prog.within_done _
  | ok b => exact h b

theorem within_registerRepository (t : String) (repo : Mapping) :
    (registerRepository host t repo).Within (fun _ _ => True) 3 := by
  unfold registerRepository
  refine within_ofExcept_bind fun snapshot => Prog.Within.ite ?_ (Prog.within_done _)
  refine Prog.within_perform_bind fun now _ => within_ofExcept_bind fun capabilities => ?_
  refine Prog.within_perform_bind fun _ _ => Prog.within_perform_bind fun db _ => ?_
  exact Prog.within_done _

/-- `create_proposal` asks for eight operations at most. -/
theorem within_createProposal (args : NewProposal) :
    (createProposal host args).Within (fun _ _ => True) 8 := by
  unfold createProposal
  refine Prog.Within.ite (Prog.within_done _) (Prog.Within.ite (Prog.within_done _) ?_)
  refine within_ofExcept_bind fun snapshot => Prog.Within.ite ?_ (Prog.within_done _)
  refine Prog.Within.bind (n := 3) (m := 5) (within_registerRepository _ _) fun _ => ?_
  refine within_ofExcept_bind fun hash => within_ofExcept_bind fun id => ?_
  refine Prog.within_perform_bind fun db _ => ?_
  split
  · exact Prog.Within.ite (Prog.within_done _) (Prog.within_done _)
  · refine Prog.within_perform_bind fun now _ => Prog.within_perform_bind fun fresh _ => ?_
    refine within_ofExcept_bind fun branch => within_ofExcept_bind fun commit => ?_
    refine within_ofExcept_bind fun id => within_ofExcept_bind fun branch => ?_
    refine within_ofExcept_bind fun commit => Prog.within_perform_bind fun _ _ => ?_
    refine Prog.within_perform_bind fun db _ => within_ofExcept_bind fun row => ?_
    exact Prog.within_done _

/-- **The key of a proposal**: a second call is told from the first where it is answerable. -/
theorem createProposal_told (hsha : Function.Injective host.sha256) {args args' : NewProposal}
    {db db₁ : Database} {made : ProposalRecord}
    (hfirst : (createProposal host args).Ends (StoreOp.exec host) May db (.ok made) db₁)
    (htenant : args'.tenantId = args.tenantId) (hkey : args'.idempotencyKey = args.idempotencyKey)
    (hrepository : args'.repositoryId host = args.repositoryId host) {db₂ : Database}
    (hlasting : Lasting db₁ db₂) {draws : List Draw} (hdraws : 8 ≤ draws.length) :
    Told (args.input host = args'.input host)
        ((createProposal host args').run (StoreOp.exec host) draws [] db₂).result
        (fun found => ∃ row, db₂.proposals.find? made.proposalId = some row ∧
          proposalRecord row = found) ↔
      args.Answerable host args' db₂ := by
  obtain ⟨row₁, hrow₁, rfl, snapshot, id, hsnapshot, hid, hrequest, hhash⟩ := createProposal_row hfirst
  obtain ⟨row, hrow, hlast⟩ := hlasting.proposals hrow₁
  have hrowId : row.proposalId = row₁.proposalId := (congrArg ProposalRow.proposalId hlast :)
  have hrowKey : row.requestKey = row₁.requestKey := (congrArg ProposalRow.requestKey hlast :)
  have hrowHash : row.requestHash = row₁.requestHash := (congrArg ProposalRow.requestHash hlast :)
  have hfound : db₂.proposals.findBy? (args'.tenantId, id, args'.idempotencyKey) = some row := by
    rw [Table.findBy?_eq_some, hrowKey, hrequest, htenant, hkey]
    exact ⟨hrow, rfl⟩
  have hbound : args'.repositoryId host = .ok (some id) := by
    rw [hrepository, NewProposal.repositoryId, hsnapshot]
    exact hid
  have hread : ∃ row', db₂.proposals.find? row₁.proposalId = some row' ∧
      proposalRecord row' = proposalRecord row := ⟨row, hrowId ▸ Table.find?_of_mem hrow, rfl⟩
  have hhashed : args.hashed host = .ok (toJson (redact host (args.request host snapshot))) := by
    rw [NewProposal.hashed, hsnapshot]
    rfl
  obtain ⟨r, hr⟩ := @Prog.run_of_within _ _ _ _ _ _ (StoreOp.exec host) [] _ _
    (within_createProposal args') _ hdraws db₂
  rw [hr]
  have hends := Prog.ends_of_result hr
  rcases createProposal_answer hends hbound hfound with ⟨e, rfl, hkind, hnot⟩ |
    ⟨snapshot', hash, hcompared, hanswer⟩
  · -- the call raises before it compares
    refine iff_of_false ?_ fun h => hnot h.1
    rintro ⟨hsame, hother⟩
    by_cases heq : args.input host = args'.input host
    · obtain ⟨a, ha, -⟩ := hsame heq
      cases Option.some.inj ha
    · obtain ⟨e', he', hconflict⟩ := hother heq
      obtain rfl := Except.error.inj (Option.some.inj he')
      exact hkind hconflict
  have hhashed' : args'.hashed host = .ok (toJson (redact host (args'.request host snapshot'))) := by
    rw [NewProposal.hashed, hcompared.registrable.taken]
    rfl
  have hdigest : row.requestHash = hash ↔ args.hashed host = args'.hashed host ∨
      MergedInputs (args.hashed host) (args'.hashed host) := by
    rw [hrowHash, requestHash_eq_iff hsha hhash hcompared.hashed, hhashed, hhashed', Except.ok.injEq]
    refine or_congr Iff.rfl ⟨fun h => ⟨_, _, rfl, rfl, h⟩, ?_⟩
    rintro ⟨v, v', hv, hv', h⟩
    obtain rfl := Except.ok.inj hv
    obtain rfl := Except.ok.inj hv'
    exact h
  constructor
  · rintro ⟨-, hother⟩
    refine ⟨⟨snapshot', id, hash, hcompared⟩, fun hne => ?_⟩
    obtain ⟨e, he, hconflict⟩ := hother hne
    rcases hanswer with ⟨-, rfl⟩ | ⟨hdiffer, -⟩
    · cases Option.some.inj he
    · exact not_or.mp fun h => hdiffer (hdigest.mpr h)
  · rintro ⟨-, hother⟩
    refine ⟨fun heq => ?_, fun hne => ?_⟩
    · rcases hanswer with ⟨-, rfl⟩ | ⟨hdiffer, -⟩
      · exact ⟨_, rfl, hread⟩
      · exact absurd (hdigest.mpr (Or.inl (NewProposal.hashed_eq heq))) hdiffer
    · rcases hanswer with ⟨hequal, -⟩ | ⟨-, e, rfl, hconflict⟩
      · obtain ⟨hne, hmerged⟩ := hother hne
        exact absurd (hdigest.mp hequal) (not_or.mpr ⟨hne, hmerged⟩)
      · exact ⟨e, rfl, hconflict⟩

/-! ### Two calls with one key -/

/-- **Idempotency keys.**  After a call that returned, and any calls after it, a second
call of the tenant with its key returns the first record if its redacted input is the
same, and raises a conflict otherwise: exactly where the second call is answerable, which
leaves out inputs that are merged. -/
theorem keys_told (host : Host) (hsha : Function.Injective host.sha256) :
    (∀ (args args' : NewRun) (d d' : Draw) (db db₁ : Database) (run : RunLifecycle)
        (calls : List (Call × List Draw)), (StoreOp.createRun args).exec host d db = (.ok run, db₁) →
      args'.tenantId = args.tenantId → args'.idempotencyKey = args.idempotencyKey →
      let db₂ := (Runs.final (Session.make host) ⟨db₁, []⟩ calls).db
      (Told (args.input host = args'.input host)
        (some ((StoreOp.createRun args').exec host d' db₂).1)
        (fun run' => getRun run.runId args.tenantId db₂ = .ok run') ↔ args.Answerable host args' db₂)) ∧
    ∀ (args args' : NewProposal) (draws draws' : List Draw) (db db₁ : Database)
        (made : ProposalRecord) (calls : List (Call × List Draw)),
      ((createProposal host args).run (StoreOp.exec host) draws [] db).result = some (.ok made) →
      ((createProposal host args).run (StoreOp.exec host) draws [] db).state = db₁ →
      args'.tenantId = args.tenantId → args'.idempotencyKey = args.idempotencyKey →
      args'.repositoryId host = args.repositoryId host → 8 ≤ draws'.length →
      let db₂ := (Runs.final (Session.make host) ⟨db₁, []⟩ calls).db
      (Told (args.input host = args'.input host)
        ((createProposal host args').run (StoreOp.exec host) draws' [] db₂).result
        (fun found => ∃ row, db₂.proposals.find? made.proposalId = some row ∧
          proposalRecord row = found) ↔ args.Answerable host args' db₂) := by
  refine ⟨?_, ?_⟩
  · intro args args' d d' db db₁ run calls hfirst htenant hkey
    exact createRun_told hsha hfirst htenant hkey (Session.lasting host ⟨db₁, []⟩ calls)
  · intro args args' draws draws' db db₁ made calls hfirst hdb₁ htenant hkey hrepository hdraws'
    have hends := Prog.ends_of_result hfirst
    rw [hdb₁] at hends
    exact createProposal_told hsha hends htenant hkey hrepository
      (Session.lasting host ⟨db₁, []⟩ calls) hdraws'

/-! ### Long inputs -/

/-- A run with a list of ones before its last item. -/
def onesRun (n : ℕ) (last : ℤ) : NewRun :=
  ⟨"run-1", "tenant-1", "key-1", "verify",
    record [("n", .list (.int 1 :: (List.replicate n (.int 1) ++ [.int last])))], none, none, none⟩

/-- The snapshot of no repository. -/
def emptySnapshot : Snapshot := ⟨.none, .none, .none, .none, .none, false, []⟩

/-- What such a run is given. -/
def onesInput (n : ℕ) (last : ℤ) : JsonText.Value :=
  .obj [("n", .arr (.int 1 :: (List.replicate n (.int 1) ++ [.int last]))),
    ("repository_snapshot", toJson (redact sampleHost (.dict emptySnapshot.dict)))]

theorem toItems_ones (n : ℕ) (last : ℤ) :
    toItems (redactItems host (List.replicate n (.int 1) ++ [.int last]))
      = List.replicate n (.int 1) ++ [.int last] := by
  induction n with
  | zero => rfl
  | succ n ih =>
    rw [List.replicate_succ, List.cons_append, redactItems, toItems, ih]
    rfl

/-- The members of what is hashed for a run with one field, sorted. -/
theorem toJson_oneField (key : String) (v snapshot : Value) (hlt : key < "repository_snapshot") :
    toJson (redact host (.dict (record [(key, v)] ++ record [("repository_snapshot", snapshot)])))
      = .obj [(key, toJson (redact host v)), ("repository_snapshot", toJson (redact host snapshot))] := by
  change JsonText.Value.obj (setMember "repository_snapshot" (toJson (redact host snapshot))
    (setMember key (toJson (redact host v)) [])) = _
  rw [setMember, setMember, if_neg (not_lt_of_gt hlt), if_neg (ne_of_gt hlt), setMember]

theorem onesRun_request (n : ℕ) (last : ℤ) :
    toJson (redact sampleHost ((onesRun n last).request emptySnapshot)) = onesInput n last := by
  rw [NewRun.request, onesRun, toJson_oneField _ _ _ (by decide), onesInput]
  change JsonText.Value.obj [("n", .arr (.int 1 :: toItems (redactItems sampleHost
    (List.replicate n (.int 1) ++ [.int last])))), _] = _
  rw [toItems_ones]

theorem onesRun_input (n : ℕ) (last : ℤ) :
    (onesRun n last).input sampleHost = .ok (onesInput n last) :=
  congrArg Except.ok (onesRun_request n last)

theorem short_onesInput (n : ℕ) {last : ℤ} (h : JsonText.ShortInt last) : (onesInput n last).Short := by
  have hitems : JsonText.ShortItems (List.replicate n (.int 1) ++ [.int last]) := by
    induction n with
    | zero => exact ⟨h, trivial⟩
    | succ n ih => exact ⟨by decide, ih⟩
  exact ⟨⟨by decide, hitems⟩, by decide +kernel, trivial⟩

theorem writeItems_ones (n : ℕ) : ∃ text : List Char, text.length = 3 * n ∧
    ∀ rest, JsonText.writeItems (List.replicate n (.int 1) ++ rest)
      = text ++ JsonText.writeItems rest := by
  induction n with
  | zero => exact ⟨[], rfl, fun _ => rfl⟩
  | succ n ih =>
    obtain ⟨text, hlength, htext⟩ := ih
    refine ⟨[',', ' ', '1'] ++ text, ?_, fun rest => ?_⟩
    · rw [List.length_append, hlength]
      change 3 + 3 * n = 3 * (n + 1)
      omega
    · rw [List.replicate_succ, List.cons_append, JsonText.writeItems, htext]
      rfl

/-- Inputs with many ones are merged. -/
theorem merged_onesInput {n : ℕ} (h : maxJsonChars < 3 * n) (a b : ℤ) :
    Merged (onesInput n a) (onesInput n b) := by
  obtain ⟨text, hlength, htext⟩ := writeItems_ones n
  have hwrite : ∀ last, ∃ rest, JsonText.write (onesInput n last)
      = ['\x7b', '"', 'n', '"', ':', ' ', '[', '1'] ++ text ++ rest := by
    intro last
    rw [onesInput, JsonText.write, JsonText.write, htext]
    exact ⟨_, by
      simp only [List.append_assoc, List.cons_append]
      rfl⟩
  obtain ⟨rest, ha⟩ := hwrite a
  obtain ⟨rest', hb⟩ := hwrite b
  have hlong : maxJsonChars ≤ (['\x7b', '"', 'n', '"', ':', ' ', '[', '1'] ++ text).length := by
    rw [List.length_append, hlength]
    omega
  refine ⟨?_, ?_, ?_⟩
  · rw [ha, List.length_append, List.length_append, hlength]
    omega
  · rw [hb, List.length_append, List.length_append, hlength]
    omega
  · rw [ha, hb, List.take_append_of_le_length hlong, List.take_append_of_le_length hlong]

theorem exists_requestHash_ones (n : ℕ) {last : ℤ} (h : JsonText.ShortInt last) : ∃ hash,
    requestHash sampleHost ((onesRun n last).request emptySnapshot) = .ok hash := by
  refine ⟨_, requestHash_eq_ok.mpr ⟨?_, rfl⟩⟩
  rw [onesRun_request]
  exact short_onesInput n h

/-- Such a run is made in a fresh database. -/
theorem exists_onesRun (n : ℕ) {last : ℤ} (h : JsonText.ShortInt last) : ∃ run db₁,
    (StoreOp.createRun (onesRun n last)).exec sampleHost (sampleDraw 0 "a") Database.empty
      = (.ok run, db₁) := by
  obtain ⟨hash, hhash⟩ := exists_requestHash_ones n h
  obtain ⟨text, htext⟩ : ∃ text, safeJson sampleHost
      (.dict (record [("mode", .str "verify")] ++ emptySnapshot.dict)) = .ok text := by
    rw [safeJson, dumps, if_pos (by decide +kernel)]
    exact ⟨_, rfl⟩
  have hfree : ∀ {α : Type} {P : α → Prop}, ∀ x ∈ ([] : List α), P x := fun x hx =>
    absurd hx List.not_mem_nil
  obtain ⟨productRuns, hruns⟩ := Table.exists_insert?_eq_some (t := Database.empty.productRuns)
    (r := ⟨"run-1", "tenant-1", "key-1", hash, "verify", .queued, 1, none, none, "\x7b\x7d",
      sampleHost.isoformat 0, sampleHost.isoformat 0, none, none, none, none, false, none⟩)
    rfl hfree hfree
  obtain ⟨productEvents, hevents⟩ := Table.exists_insert?_eq_some
    (t := Database.empty.productEvents)
    (r := newEvent sampleHost (sampleDraw 0 "a") "run-1" "tenant-1" 1 "run.queued" text)
    rfl hfree hfree
  have hinsert : insertRun sampleHost (onesRun n last) emptySnapshot hash (sampleDraw 0 "a")
      Database.empty = .ok { Database.empty with productRuns, productEvents } := by
    simp only [insertRun, bind_eq_ok, orRaise_eq_ok]
    refine ⟨none, rfl, none, rfl, none, rfl, productRuns, hruns, _, ?_, rfl⟩
    simp only [appendEventLocked, bind_eq_ok, orRaise_eq_ok]
    exact ⟨text, htext, productEvents, hevents, rfl⟩
  have hok : createRun sampleHost (onesRun n last) (sampleDraw 0 "a") Database.empty
      = .ok (⟨"run-1", "tenant-1", "key-1", .queued, "verify", 1, none, none, .obj [], none, none,
        none, none, none⟩, { Database.empty with productRuns, productEvents }) := by
    have hfound := Table.find?_insert hruns "run-1"
    rw [if_pos rfl] at hfound
    simp only [createRun, bind_eq_ok]
    refine ⟨emptySnapshot, rfl, hash, hhash, (), rfl, ?_⟩
    change (insertRun _ _ _ _ _ _ >>= _) = _
    simp only [hinsert, bind_eq_ok, reread, orRaise_eq_ok]
    exact ⟨_, rfl, _, hfound, _, map_eq_ok.mpr ⟨.obj [], loads_empty, rfl⟩, rfl⟩
  exact ⟨_, _, atomically_of_ok hok⟩

theorem onesRun_input_ne (n : ℕ) : (onesRun n 1).input sampleHost ≠ (onesRun n 2).input sampleHost := by
  rw [onesRun_input, onesRun_input]
  intro heq
  have hitems := Except.ok.inj heq
  simp [onesInput] at hitems

/-- A second call with another short input raises a conflict. -/
theorem keys_told_short : ∃ run db₁,
    (StoreOp.createRun (onesRun 0 1)).exec sampleHost (sampleDraw 0 "a") Database.empty
      = (.ok run, db₁) ∧
    ∃ e, ((StoreOp.createRun (onesRun 0 2)).exec sampleHost (sampleDraw 0 "b") db₁).1 = .error e ∧
      e.kind = .idempotencyConflict := by
  obtain ⟨run, db₁, hfirst⟩ := @exists_onesRun 0 1 (by decide)
  refine ⟨run, db₁, hfirst, ?_⟩
  have htold := (keys_told sampleHost fun _ _ h => h).1 (onesRun 0 1) (onesRun 0 2) (sampleDraw 0 "a")
    (sampleDraw 0 "b") Database.empty db₁ run [] hfirst rfl rfl
  obtain ⟨hash, hhash⟩ := @exists_requestHash_ones 0 2 (by decide)
  have hanswerable : (onesRun 0 1).Answerable sampleHost (onesRun 0 2) db₁ := by
    refine ⟨⟨emptySnapshot, hash, rfl, hhash, rfl⟩, fun h => absurd h (onesRun_input_ne 0), ?_⟩
    rintro - ⟨v, v', hv, -, hlong, -⟩
    rw [onesRun_input] at hv
    obtain rfl := Except.ok.inj hv
    exact absurd hlong (by decide +kernel)
  obtain ⟨e, he, hconflict⟩ := (htold.mpr hanswerable).2 (onesRun_input_ne 0)
  exact ⟨e, Option.some.inj he, hconflict⟩

/-- A second run with as many ones is answered with the first, whatever its last item. -/
theorem not_told_ones {n : ℕ} (h : maxJsonChars < 3 * n) {run : RunLifecycle} {db₁ : Database}
    (hfirst : (StoreOp.createRun (onesRun n 1)).exec sampleHost (sampleDraw 0 "a") Database.empty
      = (.ok run, db₁)) :
    ¬ Told ((onesRun n 1).input sampleHost = (onesRun n 2).input sampleHost)
      (some ((StoreOp.createRun (onesRun n 2)).exec sampleHost (sampleDraw 0 "b") db₁).1)
      (fun run' => getRun run.runId "tenant-1" db₁ = .ok run') := by
  intro htold
  have htenant : (onesRun n 2).tenantId = (onesRun n 1).tenantId := rfl
  have hanswerable := (createRun_told (fun _ _ h => h) hfirst htenant rfl (lasting_refl db₁)).mp htold
  exact hanswerable.2.2 (onesRun_input_ne n)
    ⟨_, _, onesRun_input _ _, onesRun_input _ _, merged_onesInput h 1 2⟩

/-- Two long inputs that differ in their last item are taken for one. -/
theorem long_inputs_merged : ∃ run db₁,
    (StoreOp.createRun (onesRun 100000 1)).exec sampleHost (sampleDraw 0 "a") Database.empty
      = (.ok run, db₁) ∧
    ¬ Told ((onesRun 100000 1).input sampleHost = (onesRun 100000 2).input sampleHost)
      (some ((StoreOp.createRun (onesRun 100000 2)).exec sampleHost (sampleDraw 0 "b") db₁).1)
      (fun run' => getRun run.runId "tenant-1" db₁ = .ok run') := by
  obtain ⟨run, db₁, hfirst⟩ := @exists_onesRun 100000 1 (by decide)
  exact ⟨run, db₁, hfirst, not_told_ones (by decide) hfirst⟩

end AiSaas.Kernel
