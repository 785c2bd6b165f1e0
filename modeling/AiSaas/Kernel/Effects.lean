import AiSaas.Kernel.Proposals

/-!
# What the transactions of the kernel store do

Everything a transaction that returned can have done to the tables.  The arguments
about the store start from these inversion lemmas.

## Main results

* `appendEventLocked_eq_ok`, `linkProposal_eq_ok`, `insertRun_eq_ok` — the statements.
* `createRun_eq_ok`, `transition_eq_ok`, `appendEvent_eq_ok`, `saveCheckpoint_eq_ok`,
  `consumeApproval_eq_ok` — the transactions.
-/

namespace AiSaas.Kernel

open Relational Transaction

variable {host : Host} {d : Draw} {db db' : Database} {row : RunRow} {run : RunLifecycle}

theorem ownedRow_eq_ok {r t : String} :
    ownedRow r t db = .ok row ↔ db.productRuns.find? r = some row ∧ row.tenantId = t := by
  unfold ownedRow
  cases hfind : db.productRuns.find? r with
  | none => simp
  | some x =>
    by_cases ht : x.tenantId = t
    · simp only [ht, if_true, Except.ok.injEq, Option.some.injEq]
      exact ⟨fun h => ⟨h, h ▸ ht⟩, And.left⟩
    · simp only [ht, if_false, Option.some.injEq, reduceCtorEq, false_iff, not_and]
      rintro rfl
      exact ht

theorem ownedProposal_eq_ok {p t : String} {proposal : ProposalRow} :
    ownedProposal p t db = .ok proposal ↔
      db.proposals.find? p = some proposal ∧ proposal.tenantId = t := by
  unfold ownedProposal
  cases hfind : db.proposals.find? p with
  | none => simp
  | some x =>
    by_cases ht : x.tenantId = t
    · simp only [ht, if_true, Except.ok.injEq, Option.some.injEq]
      exact ⟨fun h => ⟨h, h ▸ ht⟩, And.left⟩
    · simp only [ht, if_false, Option.some.injEq, reduceCtorEq, false_iff, not_and]
      rintro rfl
      exact ht

/-- An event as `_append_event_locked` writes it. -/
def newEvent (host : Host) (d : Draw) (runId tenantId : String) (sequence : ℕ)
    (event payloadJson : String) : EventRow :=
  ⟨"event-" ++ d.uuid 0, runId, tenantId, sequence, event, payloadJson, host.isoformat (d.now 0)⟩

theorem appendEventLocked_eq_ok {r t event : String} {n : ℕ} {payload : Mapping}
    (h : appendEventLocked host d r t n event payload db = .ok db') :
    ∃ text productEvents, safeJson host (.dict payload) = .ok text ∧
      db.productEvents.insert? (newEvent host d r t n event text) = some productEvents ∧
      db' = { db with productEvents } := by
  simp only [appendEventLocked, bind_eq_ok, orRaise_eq_ok] at h
  obtain ⟨text, htext, productEvents, hinsert, h⟩ := h
  exact ⟨text, productEvents, htext, hinsert, (Except.ok.inj h).symm⟩

/-- Looking a run up after an update of one. -/
theorem find?_update {runs : Table RunRow.runId RunRow.requestKey fun _ => true} {r : String}
    {f : RunRow → RunRow} (hf : Keeps RunRow.runId RunRow.requestKey (fun _ => true) f) (x : String) :
    (runs.update (fun row => decide (row.runId = r)) f hf).find? x
      = (runs.find? x).map fun row => if x = r then f row else row := by
  rw [Table.find?_update]
  cases hx : runs.find? x with
  | none => rfl
  | some row => simp [(Table.find?_eq_some.mp hx).2]

/-- One run's row after an update of it; the others are as they were. -/
theorem find?_update_of_found {runs : Table RunRow.runId RunRow.requestKey fun _ => true}
    {r : String} {f : RunRow → RunRow}
    (hf : Keeps RunRow.runId RunRow.requestKey (fun _ => true) f) (hrow : runs.find? r = some row)
    (x : String) : (runs.update (fun row => decide (row.runId = r)) f hf).find? x
      = if x = r then some (f row) else runs.find? x := by
  rw [find?_update]
  by_cases hx : x = r
  · rw [hx, hrow]
    simp
  · simp [hx]

/-- What a new run is linked to: a row of its own, and the proposal's latest run. -/
theorem linkProposal_eq_ok {args : NewRun} {now : String} {repositoryId : Option String}
    {branch commit : Value}
    (h : linkProposal host args now repositoryId branch commit db = .ok db') :
    (given args.proposalId = false ∧ db' = db) ∨
      ∃ row : ProposalRunRow, given args.proposalId = true ∧ row.runId = args.runId ∧
        row.tenantId = args.tenantId ∧ row.requirementsJson = "[]" ∧ row.planJson = none ∧
        db' = updateProposal (args.proposalId.getD "") args.tenantId
          (fun r => { r with latestRunId := some args.runId, updatedAt := now })
          ⟨fun _ => rfl, fun _ => rfl, fun _ _ => rfl⟩
          { db with proposalRuns := db.proposalRuns.replace row rfl } := by
  unfold linkProposal at h
  split at h
  · next hgiven =>
    simp only [bind_eq_ok] at h
    obtain ⟨branch, -, commit, -, repository, -, branch', -, commit', -, h⟩ := h
    exact Or.inr ⟨_, hgiven, rfl, rfl, rfl, rfl, (Except.ok.inj h).symm⟩
  · next hgiven => exact Or.inl ⟨by simpa using hgiven, (Except.ok.inj h).symm⟩

/-- What the insertion of a run did. -/
structure Inserted (host : Host) (args : NewRun) (snapshot : Snapshot) (hash : String) (d : Draw)
    (row : RunRow) (db db' : Database) : Prop where
  runId : row.runId = args.runId
  tenantId : row.tenantId = args.tenantId
  idempotencyKey : row.idempotencyKey = args.idempotencyKey
  requestHash : row.requestHash = hash
  mode : row.mode = args.mode
  state : row.state = .queued
  sequence : row.sequence = 1
  resultJson : row.resultJson = "\x7b\x7d"
  proposalId : row.proposalId = args.proposalId
  repositoryId : bindText host snapshot.repositoryId = .ok row.repositoryId
  branch : bindText host snapshot.branch = .ok row.branch
  commit : bindText host snapshot.commit = .ok row.commitSha
  tables : ∃ text productRuns productEvents,
    safeJson host (.dict (record [("mode", .str args.mode)] ++ snapshot.dict)) = .ok text ∧
    db.productRuns.insert? row = some productRuns ∧
    db.productEvents.insert? (newEvent host ⟨fun n => d.now (n + 1), d.uuid⟩ args.runId
      args.tenantId 1 "run.queued" text) = some productEvents ∧
    linkProposal host args (host.isoformat (d.now 0)) row.repositoryId snapshot.branch
      snapshot.commit { db with productRuns, productEvents } = .ok db'

theorem insertRun_eq_ok {args : NewRun} {snapshot : Snapshot} {hash : String}
    (h : insertRun host args snapshot hash d db = .ok db') :
    ∃ row, Inserted host args snapshot hash d row db db' := by
  simp only [insertRun, bind_eq_ok, orRaise_eq_ok] at h
  obtain ⟨repositoryId, hrepository, branch, hbranch, commit, hcommit, productRuns, hruns, db₁,
    hevent, h⟩ := h
  obtain ⟨text, productEvents, htext, hevents, rfl⟩ := appendEventLocked_eq_ok hevent
  exact ⟨_, rfl, rfl, rfl, rfl, rfl, rfl, rfl, rfl, rfl, hrepository, hbranch, hcommit, text,
    productRuns, productEvents, htext, hruns, hevents, h⟩

theorem reread_eq_ok {r : String} (h : reread r db = .ok (run, db')) :
    ∃ row, db.productRuns.find? r = some row ∧ lifecycle row = .ok run ∧ db' = db := by
  simp only [reread, bind_eq_ok, orRaise_eq_ok] at h
  obtain ⟨row, hrow, run', hrun, h⟩ := h
  obtain ⟨rfl, rfl⟩ := Prod.mk.inj (Except.ok.inj h)
  exact ⟨row, hrow, hrun, rfl⟩

/-- **What `create_run` did**: it returned the run of the key, or made one. -/
theorem createRun_eq_ok {args : NewRun} (h : createRun host args d db = .ok (run, db')) :
    ∃ snapshot hash, snapshotOf host args.repositorySnapshot = .ok snapshot ∧
      requestHash host (args.request snapshot) = .ok hash ∧
      checkProposal args snapshot db = .ok () ∧
      ((∃ existing, db.productRuns.findBy? (args.tenantId, args.idempotencyKey) = some existing ∧
          existing.requestHash = hash ∧ lifecycle existing = .ok run ∧ db' = db) ∨
        db.productRuns.findBy? (args.tenantId, args.idempotencyKey) = none ∧
          ∃ row stored, Inserted host args snapshot hash d row db db' ∧
            db'.productRuns.find? args.runId = some stored ∧ lifecycle stored = .ok run) := by
  simp only [createRun, bind_eq_ok] at h
  obtain ⟨snapshot, hsnapshot, hash, hhash, ⟨⟩, hcheck, h⟩ := h
  refine ⟨snapshot, hash, hsnapshot, hhash, hcheck, ?_⟩
  split at h
  · next existing hexisting =>
    simp only [bind_eq_ok, ensure_eq_ok, beq_iff_eq] at h
    obtain ⟨-, hsame, run', hrun, h⟩ := h
    obtain ⟨rfl, rfl⟩ := Prod.mk.inj (Except.ok.inj h)
    exact Or.inl ⟨existing, hexisting, hsame, hrun, rfl⟩
  · next hnone =>
    simp only [bind_eq_ok] at h
    obtain ⟨db₁, hinsert, h⟩ := h
    obtain ⟨row, hrow⟩ := insertRun_eq_ok hinsert
    obtain ⟨stored, hstored, hrun, rfl⟩ := reread_eq_ok h
    exact Or.inr ⟨hnone, row, stored, hrow, hstored, hrun⟩

theorem target?_eq_some {state : String} {s : RunState} (h : target? row state = some s) :
    s ∈ row.state.allowed ∧ s.text = state := by
  have hfound := List.find?_some h
  exact ⟨List.mem_of_find?_eq_some h, of_decide_eq_true hfound⟩

/-- A run's row after a transition. -/
def RunRow.moved (host : Host) (d : Draw) (args : Move) (state : RunState)
    (approvalId : Option String) (resultJson : String) (row : RunRow) : RunRow :=
  { row with
    state, sequence := row.sequence + 1, error := args.error
    approvalId := approvalId.or row.approvalId, resultJson
    updatedAt := host.isoformat (d.now 1) }

/-- What a transition did. -/
structure Moved (host : Host) (args : Move) (d : Draw) (row : RunRow) (state : RunState)
    (text : String) (row' : RunRow) (db db' : Database) : Prop where
  found : db.productRuns.find? args.runId = some row
  tenant : row.tenantId = args.tenantId
  allowed : state ∈ row.state.allowed
  named : state.text = args.state
  encoded : safeJson host (.dict (record [("state", .str args.state)] ++ args.safePayload host))
    = .ok text
  inserted : db.productEvents.insert? (newEvent host d args.runId args.tenantId (row.sequence + 1)
    "run.state_changed" text) = some db'.productEvents
  result : ∃ value members resultJson approvalId, loads (textOr row.resultJson "\x7b\x7d") = .ok value ∧
    asDict value = .ok members ∧
    safeJson host (.dict (members ++ args.safePayload host)) = .ok resultJson ∧
    row' = row.moved host d args state approvalId resultJson
  rows : ∀ x, db'.productRuns.find? x
    = if x = args.runId then some row' else db.productRuns.find? x

/-- **What `transition` did.** -/
theorem transition_eq_ok {args : Move} (h : transition host args d db = .ok (run, db')) :
    ∃ row state text row', Moved host args d row state text row' db db' ∧ lifecycle row' = .ok run ∧
      ∃ productRuns productEvents proposals,
        db' = { db with productRuns, productEvents, proposals } ∧
        (proposals = db.proposals ∨ given row.proposalId = true ∧ ∃ now,
          proposals = (updateProposal (row.proposalId.getD "") args.tenantId
            (fun r => { r with state := args.state, updatedAt := now })
            ⟨fun _ => rfl, fun _ => rfl, fun _ _ => rfl⟩ db).proposals) := by
  simp only [transition, bind_eq_ok, ownedRow_eq_ok, orRaise_eq_ok] at h
  obtain ⟨row, ⟨hfound, htenant⟩, state, hstate, db₁, hevent, value, hvalue, members, hmembers,
    resultJson, hresult, approvalId, -, h⟩ := h
  obtain ⟨text, productEvents, htext, hevents, rfl⟩ := appendEventLocked_eq_ok hevent
  obtain ⟨hallowed, hnamed⟩ := target?_eq_some hstate
  obtain ⟨stored, hstored, hrun, rfl⟩ := reread_eq_ok h
  have hproposals : ∀ db₂ : Database, (if given row.proposalId = true then
      updateProposal (row.proposalId.getD "") args.tenantId
        (fun r => { r with state := args.state, updatedAt := host.isoformat (d.now 2) })
        ⟨fun _ => rfl, fun _ => rfl, fun _ _ => rfl⟩ db₂ else db₂).productRuns = db₂.productRuns := by
    intro db₂
    split <;> rfl
  refine ⟨row, state, text, row.moved host d args state approvalId resultJson,
    ⟨hfound, htenant, hallowed, hnamed, htext, ?_, ⟨value, members, resultJson, approvalId, hvalue,
      hmembers, hresult, rfl⟩, ?_⟩, ?_, ?_⟩
  · rw [hevents]
    split <;> rfl
  · intro x
    rw [hproposals, updateRun, find?_update_of_found _ hfound]
    rfl
  · rw [hproposals, updateRun, find?_update_of_found _ hfound, if_pos rfl] at hstored
    obtain rfl := Option.some.inj hstored
    exact hrun
  · split
    · next hgiven => exact ⟨_, _, _, rfl, Or.inr ⟨hgiven, _, rfl⟩⟩
    · exact ⟨_, _, _, rfl, Or.inl rfl⟩

/-- **What `append_event` did.** -/
theorem appendEvent_eq_ok {r t event : String} {payload : Mapping} {u : Unit}
    (h : appendEvent host r t event payload d db = .ok (u, db')) :
    ∃ row text productRuns productEvents, db.productRuns.find? r = some row ∧ row.tenantId = t ∧
      safeJson host (.dict payload) = .ok text ∧
      db.productEvents.insert? (newEvent host d r t (row.sequence + 1) event text)
        = some productEvents ∧
      (∀ x, productRuns.find? x = if x = r then
        some { row with sequence := row.sequence + 1, updatedAt := host.isoformat (d.now 1) }
        else db.productRuns.find? x) ∧
      db' = { db with productRuns, productEvents } := by
  simp only [appendEvent, bind_eq_ok, ownedRow_eq_ok] at h
  obtain ⟨row, ⟨hfound, htenant⟩, db₁, hevent, h⟩ := h
  obtain ⟨text, productEvents, htext, hevents, rfl⟩ := appendEventLocked_eq_ok hevent
  obtain ⟨-, rfl⟩ := Prod.mk.inj (Except.ok.inj h)
  refine ⟨row, text, _, productEvents, hfound, htenant, htext, hevents,
    find?_update_of_found _ hfound, rfl⟩

/-- **What `save_checkpoint` did.** -/
theorem saveCheckpoint_eq_ok {r t node : String} {state : Mapping} {u : Unit}
    (h : saveCheckpoint host r t node state d db = .ok (u, db')) :
    ∃ row text graphCheckpoints, db.productRuns.find? r = some row ∧ row.tenantId = t ∧
      safeJson host (redact host (.dict state)) = .ok text ∧
      (∀ x, graphCheckpoints.find? x = if x = r then
        some (((db.graphCheckpoints.find? r).map fun c =>
          { c with node, stateJson := text, updatedAt := host.isoformat (d.now 0) }).getD
            ⟨r, t, node, text, host.isoformat (d.now 0)⟩)
        else db.graphCheckpoints.find? x) ∧
      db' = { db with graphCheckpoints } := by
  simp only [saveCheckpoint, bind_eq_ok, ownedRow_eq_ok] at h
  obtain ⟨row, ⟨hfound, htenant⟩, text, htext, h⟩ := h
  obtain ⟨-, rfl⟩ := Prod.mk.inj (Except.ok.inj h)
  refine ⟨row, text, _, hfound, htenant, htext, ?_, rfl⟩
  intro x
  rw [Table.find?_upsert _ rfl (fun _ _ he => he)]
  by_cases hx : x = r
  · subst hx
    rw [if_pos rfl]
  · rw [if_neg hx, if_neg (Ne.symm hx)]

/-- What `consume_approval` checks of a token's row. -/
structure Accepted (host : Host) (args : Consumption) (d : Draw) (row : ApprovalRow) : Prop where
  runId : row.runId = args.runId
  tenantId : row.tenantId = args.tenantId
  unconsumed : row.consumed = false
  scope : ∃ scopes, loads row.scopesJson = .ok scopes ∧ args.scope ∈ asTexts scopes
  unexpired : expired host row.expiresAt (d.now 0) = .ok false
  repository : checkRepository host row args.currentRepository = .ok ()
  plan : checkPlan row args.planDigest = .ok ()

/-- **What `consume_approval` did.** -/
theorem consumeApproval_eq_ok {args : Consumption} {token : ApprovalToken}
    (h : consumeApproval host args d db = .ok (token, db')) :
    ∃ row, db.approvals.find? args.tokenId = some row ∧ Accepted host args d row ∧
      tokenOf row true = .ok token ∧
      ∃ approvals proposalApprovals, db' = { db with approvals, proposalApprovals } ∧
        (∀ x, approvals.find? x = (db.approvals.find? x).map fun r =>
          if x = args.tokenId then { r with consumed := true } else r) ∧
        ∀ r' ∈ proposalApprovals.rows, ∃ r ∈ db.proposalApprovals.rows,
          r'.tokenId = r.tokenId ∧ r'.runId = r.runId ∧ r'.tenantId = r.tenantId ∧
          r'.scopesJson = r.scopesJson ∧ r'.createdAt = r.createdAt := by
  simp only [consumeApproval, bind_eq_ok, orRaise_eq_ok, ensure_eq_ok, Bool.and_eq_true,
    decide_eq_true_eq, Bool.not_eq_true'] at h
  obtain ⟨row, hrow, -, ⟨⟨hrun, htenant⟩, hfresh⟩, scopes, hscopes, -, hscope, elapsed, hover, -, hopen,
    ⟨⟩, hrepository, ⟨⟩, hplan, token', htoken, h⟩ := h
  obtain ⟨rfl, rfl⟩ := Prod.mk.inj (Except.ok.inj h)
  subst hopen
  refine ⟨row, hrow, ⟨hrun, htenant, hfresh, ⟨scopes, hscopes, hscope⟩, hover, hrepository, hplan⟩,
    htoken, _, _, rfl, ?_, ?_⟩
  · intro x
    rw [Table.find?_update]
    cases hx : db.approvals.find? x with
    | none => rfl
    | some r => simp [(Table.find?_eq_some.mp hx).2]
  · intro r' hr'
    obtain ⟨r, hr, rfl⟩ := mem_setWhere.mp hr'
    refine ⟨r, hr, ?_⟩
    split <;> exact ⟨rfl, rfl, rfl, rfl, rfl⟩

end AiSaas.Kernel
