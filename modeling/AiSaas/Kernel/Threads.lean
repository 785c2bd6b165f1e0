import AiSaas.Kernel.Endings
import AiSaas.Lib.Connections

/-!
# Threads on the connection of the kernel store

`KernelStore` keeps one connection, in autocommit mode, for all the threads of the
server.  Five operations run inside `_transaction`, which holds a lock from BEGIN to the
end; the others execute their statements on the same connection without it.  Here every
operation is a program of single statements, so that the threads may take turns between
any two of them.

## Main definitions

* `createRunBody`, `transitionBody`, `appendEventBody`, `saveCheckpointBody`,
  `consumeApprovalBody` — the transactions, statement by statement.
* `Call.operation`, `server` — the operations, and what threads run on.

## Main results

* `createRun_alone`, `transition_alone`, `appendEvent_alone`, `saveCheckpoint_alone`,
  `consumeApproval_alone` — a transaction that no other thread gets into is one step.
* `acknowledged_kept` — what returned is kept, as long as no other thread has written
  into a transaction that is rolled back.
* `acknowledged_lost` — a write of an operation that returned is rolled back.
-/

namespace AiSaas.Kernel

open Relational Transaction Processes Store Connections

variable (host : Host)

/-! ### The transactions, statement by statement -/

/-- `INSERT INTO product_events`. -/
def insertEvent (row : EventRow) (db : Database) : Except Raised Database :=
  (orRaise (db.productEvents.insert? row) keyTaken).map fun productEvents => { db with productEvents }

/-- `_append_event_locked`. -/
def appendEventStatement (runId tenantId : String) (sequence : ℕ) (event : String)
    (payload : Mapping) : Store Unit := do
  let fresh ← uuid
  let payloadJson ← ofExcept (safeJson host (.dict payload))
  let now ← now
  write (insertEvent ⟨"event-" ++ fresh, runId, tenantId, sequence, event, payloadJson, now⟩)

/-- `INSERT INTO product_runs`. -/
def insertRunRow (args : NewRun) (snapshot : Snapshot) (requestHash now : String) (db : Database) :
    Except Raised Database := do
  let repositoryId ← bindText host snapshot.repositoryId
  let branch ← bindText host snapshot.branch
  let commit ← bindText host snapshot.commit
  let row : RunRow := ⟨args.runId, args.tenantId, args.idempotencyKey, requestHash, args.mode,
    .queued, 1, none, none, "\x7b\x7d", now, now, args.proposalId, repositoryId, branch, commit,
    snapshot.dirty, args.traceId⟩
  let productRuns ← orRaise (db.productRuns.insert? row) keyTaken
  return { db with productRuns }

/-- `INSERT OR REPLACE INTO proposal_runs`. -/
def replaceProposalRun (args : NewRun) (snapshot : Snapshot) (now : String) (db : Database) :
    Except Raised Database := do
  let repositoryId ← bindText host snapshot.repositoryId
  let branch ← bindText host (orEmpty snapshot.branch)
  let commit ← bindText host (orEmpty snapshot.commit)
  let repositoryId ← required repositoryId
  let branch ← required branch
  let commit ← required commit
  let row : ProposalRunRow := ⟨args.runId, args.proposalId.getD "", args.tenantId, repositoryId,
    branch, commit, args.idempotencyKey, "[]", none, now, now⟩
  return { db with proposalRuns := db.proposalRuns.replace row rfl }

/-- The latest run of a proposal is no part of its keys. -/
theorem keeps_latestRun (args : NewRun) (now : String) :
    Keeps ProposalRow.proposalId ProposalRow.requestKey (fun _ => true) fun r =>
      { r with latestRunId := some args.runId, updatedAt := now } :=
  ⟨fun _ => rfl, fun _ => rfl, fun _ _ => rfl⟩

/-- The rows that link a new run to its proposal. -/
def linkStatements (args : NewRun) (snapshot : Snapshot) (now : String) : Store Unit :=
  if given args.proposalId then do
    write (replaceProposalRun host args snapshot now)
    write fun db => .ok (updateProposal (args.proposalId.getD "") args.tenantId
      (fun r => { r with latestRunId := some args.runId, updatedAt := now })
      (keeps_latestRun args now) db)
  else return ()

/-- The `SELECT` an operation ends with. -/
def rereadStatement (runId : String) : Store RunLifecycle := do
  let db ← look
  ofExcept ((reread runId db).map Prod.fst)

/-- The check of `create_run` on the proposal of the run. -/
def checkStatement (args : NewRun) (snapshot : Snapshot) : Store Unit :=
  if given args.proposalId then do
    let db ← look
    ofExcept (checkProposal args snapshot db)
  else return ()

/-- What `create_run` computes before its transaction. -/
def NewRun.prepared (args : NewRun) : Except Raised (Snapshot × String) := do
  let snapshot ← snapshotOf host args.repositorySnapshot
  let hash ← requestHash host (args.request snapshot)
  return (snapshot, hash)

/-- What `create_run` does inside its transaction. -/
def createRunBody (args : NewRun) (snapshot : Snapshot) (hash : String) : Store RunLifecycle := do
  checkStatement args snapshot
  let db ← look
  match db.productRuns.findBy? (args.tenantId, args.idempotencyKey) with
  | some existing =>
    ofExcept (ensure (existing.requestHash == hash)
      ⟨.idempotencyConflict, "idempotency key was reused with different input"⟩)
    ofExcept (lifecycle existing)
  | none =>
    let now ← now
    write (insertRunRow host args snapshot hash now)
    appendEventStatement host args.runId args.tenantId 1 "run.queued"
      (record [("mode", .str args.mode)] ++ snapshot.dict)
    linkStatements host args snapshot now
    rereadStatement args.runId

/-- The proposal's state follows that of its run. -/
def moveProposal (args : Move) (row : RunRow) : Store Unit :=
  if given row.proposalId then do
    let stamp ← now
    write fun db => .ok (updateProposal (row.proposalId.getD "") args.tenantId
      (fun r => { r with state := args.state, updatedAt := stamp })
      ⟨fun _ => rfl, fun _ => rfl, fun _ _ => rfl⟩ db)
  else return ()

/-- What `transition` does inside its transaction. -/
def transitionBody (args : Move) : Store RunLifecycle := do
  let db ← look
  let row ← ofExcept (ownedRow args.runId args.tenantId db)
  let state ← ofExcept (orRaise (target? row args.state)
    ⟨.valueError, row.state.text ++ " -> " ++ args.state ++ " is not allowed"⟩)
  let sequence := row.sequence + 1
  appendEventStatement host args.runId args.tenantId sequence "run.state_changed"
    (record [("state", .str args.state)] ++ args.safePayload host)
  let existing ← ofExcept (loads (textOr row.resultJson "\x7b\x7d"))
  let existing ← ofExcept (asDict existing)
  let resultJson ← ofExcept (safeJson host (.dict (existing ++ args.safePayload host)))
  let stamp ← now
  write fun db => do
    let approvalId ← bindText host ((args.payload.getD []).get "approval_id")
    return updateRun args.runId
      (fun r => { r with
        state, sequence, error := args.error, approvalId := approvalId.or r.approvalId, resultJson,
        updatedAt := stamp })
      ⟨fun _ => rfl, fun _ => rfl, fun _ _ => rfl⟩ db
  moveProposal args row
  rereadStatement args.runId

/-- What `append_event` does inside its transaction. -/
def appendEventBody (runId tenantId event : String) (payload : Mapping) : Store Unit := do
  let db ← look
  let row ← ofExcept (ownedRow runId tenantId db)
  let sequence := row.sequence + 1
  appendEventStatement host runId tenantId sequence event payload
  let stamp ← now
  write fun db => .ok (updateRun runId (fun r => { r with sequence, updatedAt := stamp })
    ⟨fun _ => rfl, fun _ => rfl, fun _ _ => rfl⟩ db)

/-- What `save_checkpoint` does inside its transaction. -/
def saveCheckpointBody (runId tenantId node : String) (state : Mapping) : Store Unit := do
  let db ← look
  let _ ← ofExcept (ownedRow runId tenantId db)
  let stateJson ← ofExcept (safeJson host (redact host (.dict state)))
  let stamp ← now
  write fun db => .ok { db with
    graphCheckpoints := db.graphCheckpoints.upsert ⟨runId, tenantId, node, stateJson, stamp⟩
      (fun c => { c with node, stateJson, updatedAt := stamp })
      ⟨fun _ => rfl, fun _ => rfl, fun _ _ => rfl⟩ }

/-- That a token is consumed is no part of its keys. -/
theorem keeps_consumed :
    Keeps ApprovalRow.tokenId ApprovalRow.tokenId (fun _ => true) fun r => { r with consumed := true } :=
  ⟨fun _ => rfl, fun _ => rfl, fun _ _ => rfl⟩

/-- The status of an approval is no part of its keys. -/
theorem keeps_status (stamp : String) :
    Keeps ProposalApprovalRow.tokenId ProposalApprovalRow.tokenId (fun _ => true) fun r =>
      { r with status := "consumed", updatedAt := stamp } :=
  ⟨fun _ => rfl, fun _ => rfl, fun _ _ => rfl⟩

/-- What `consume_approval` does inside its transaction, where the clock says `reading`. -/
def consumeApprovalBody (args : Consumption) (reading : ℤ) : Store ApprovalToken := do
  let invalid : Raised := ⟨.invalidApproval, "approval token is invalid or already consumed"⟩
  let db ← look
  let row ← ofExcept (orRaise (db.approvals.find? args.tokenId) invalid)
  ofExcept (ensure (decide (row.runId = args.runId) && decide (row.tenantId = args.tenantId) &&
    !row.consumed) invalid)
  let scopes ← ofExcept (loads row.scopesJson)
  ofExcept (ensure (decide (args.scope ∈ asTexts scopes))
    ⟨.invalidApproval, "approval token does not grant the requested scope"⟩)
  let elapsed ← ofExcept (expired host row.expiresAt reading)
  ofExcept (ensure (!elapsed) ⟨.invalidApproval, "approval token is expired"⟩)
  ofExcept (checkRepository host row args.currentRepository)
  ofExcept (checkPlan row args.planDigest)
  write fun db => .ok { db with
    approvals := db.approvals.update (fun r => decide (r.tokenId = args.tokenId))
      (fun r => { r with consumed := true }) keeps_consumed }
  let stamp ← now
  write fun db => .ok { db with
    proposalApprovals := db.proposalApprovals.update
      (fun r => decide (r.tokenId = args.tokenId ∧ r.tenantId = args.tenantId))
      (fun r => { r with status := "consumed", updatedAt := stamp })
      (keeps_status stamp) }
  ofExcept (tokenOf row true)

/-! ### Operations whose reads are apart -/

/-- `tenant_id or self._tenant_for_run(usage.run_id)`. -/
def tenantStatement (runId : String) (tenantId : Option String) : Store String :=
  if given tenantId then return tenantId.getD "" else do
    let db ← look
    ofExcept (tenantForRun runId db)

/-- `record_usage`, with the `SELECT` of each helper for itself. -/
def recordUsageStatements (record : UsageRecord) (tenantId : Option String) : Store Unit := do
  let tenant ← tenantStatement record.runId tenantId
  let db ← look
  let _ ← ofExcept (ownedRow record.runId tenant db)
  let encoded ← ofExcept (safeJson host (.dict record.dict))
  match ← (write (insertUsage ⟨record.runId, record.callId, encoded⟩)).attempt with
  | .ok () => return ()
  | .error e =>
    if e.kind = .integrityError then
      let db ← look
      let existing := db.modelUsage.find? (record.runId, record.callId)
      if existing.map UsageRow.payloadJson = some encoded then return ()
      else Prog.raise ⟨.idempotencyConflict, "usage call id was reused with different usage"⟩
    else Prog.raise e

/-- `issue_approval`, with the `SELECT` of the run and that of its plan each for itself. -/
def issueApprovalStatements (args : Issue) : Store ApprovalToken := do
  let db ← look
  let run ← ofExcept (ownedRow args.runId args.tenantId db)
  let db ← look
  if given run.repositoryId && !given (args.boundPlanDigest db) then
    Prog.raise ⟨.invalidApproval, "local repository approvals must bind a plan digest"⟩
  else
    let fresh ← uuid
    let issuedAt ← now
    let row := args.row run db fresh issuedAt
    write (insertApproval row)
    linkApproval row
    return ⟨row.tokenId, row.runId, row.tenantId, args.scopes, row.issuedAt, row.expiresAt, false,
      row.repositoryId, row.branch, row.commitSha, row.planDigest, row.proposalId⟩

/-! ### Threads -/

/-- A program whose result is not looked at. -/
def quietly {α : Type} (prog : Store α) : Store Unit := do
  let _ ← prog
  return ()

/-- What a thread that serves a call runs; `reading` is what the clock says to a token.
What is computed before BEGIN raises outside the transaction. -/
def Call.operation (reading : ℤ) : Call → Operation StoreOp StoreOp.Ans Raised Unit
  | createRun args =>
    match args.prepared host with
    | .error e => .alone (.done (.error e))
    | .ok (snapshot, hash) => .transaction (quietly (createRunBody host args snapshot hash))
  | transition args => .transaction (quietly (transitionBody host args))
  | appendEvent runId tenantId event payload =>
    .transaction (appendEventBody host runId tenantId event payload)
  | saveCheckpoint runId tenantId node state =>
    .transaction (saveCheckpointBody host runId tenantId node state)
  | consumeApproval args => .transaction (quietly (consumeApprovalBody host args reading))
  | recordUsage usage tenantId => .alone (recordUsageStatements host usage tenantId)
  | issueApproval args => .alone (quietly (issueApprovalStatements args))
  | registerRepository tenantId repo => .alone (quietly (Kernel.registerRepository host tenantId repo))
  | createProposal args => .alone (quietly (Kernel.createProposal host args))
  | revalidateProposal proposalId tenantId currentRepository evidence =>
    .alone (quietly (Kernel.revalidateProposal host proposalId tenantId currentRepository evidence))
  | saveReport report tenantId stale => .alone (Kernel.saveReport host report tenantId stale)
  | saveProposalOutputs args => .alone (Kernel.saveProposalOutputs host args)
  | recordArtifact args => .alone (Kernel.recordArtifact host args)
  | saveTrace args => .alone (Kernel.saveTrace args)

/-- A statement that writes. -/
def StoreOp.writes : StoreOp → Bool
  | look | now | uuid => false
  | _ => true

/-- What a statement makes of the database; one that raises changes nothing. -/
def StoreOp.effect : StoreOp → Database → Database
  | write statement, db => (statement db).toOption.getD db
  | _, db => db

/-- The threads of the server. -/
def server : Server (Call × ℤ) StoreOp StoreOp.Ans Raised Unit Database Draw where
  operation task := task.1.operation host task.2
  exec := StoreOp.exec host
  writes := StoreOp.writes
  effect := StoreOp.effect
  effect_of_read op h db := by cases op <;> first | rfl | cases h

/-! ### A transaction alone -/

section AsOne

variable {host : Host} {α : Type} {db db' : Database} {r : Except Raised α}

/-- What a body that no other thread gets into ends with, the transaction in one step
ends with, on a draw that reads the clock as it did. -/
def AsOne (host : Host) (body : Store α) (reads : Draw → Prop) (tx : Draw → Tx Raised Database α) :
    Prop :=
  ∀ ⦃db r db'⦄, body.Ends (StoreOp.exec host) (fun _ => True) db r db' →
    ∃ d, reads d ∧ tx d db = r.map fun a => (a, db')

/-- An event is appended as in one step. -/
theorem ends_appendEventStatement {runId tenantId event : String} {sequence : ℕ} {payload : Mapping}
    {next : Unit → Store α}
    (h : (appendEventStatement host runId tenantId sequence event payload >>= next).Ends
      (StoreOp.exec host) (fun _ => True) db r db') :
    ∃ t u, (∃ e, r = .error e ∧ ∀ d : Draw, d.now 0 = t → d.uuid 0 = u →
        appendEventLocked host d runId tenantId sequence event payload db = .error e) ∨
      ∃ db₁, (∀ d : Draw, d.now 0 = t → d.uuid 0 = u →
        appendEventLocked host d runId tenantId sequence event payload db = .ok db₁) ∧
        (next ()).Ends (StoreOp.exec host) (fun _ => True) db₁ r db' := by
  have hparts : ∀ {x : Except Raised Unit} {db₁ : Database},
      (appendEventStatement host runId tenantId sequence event payload).Ends (StoreOp.exec host)
        (fun _ => True) db x db₁ → ∃ t u, ∀ d : Draw, d.now 0 = t → d.uuid 0 = u →
          appendEventLocked host d runId tenantId sequence event payload db
            = x.map fun _ => db₁ := by
    intro x db₁ h
    obtain ⟨du, -, h⟩ := ends_uuid h
    rcases ends_ofExcept h with ⟨e, he, rfl, -⟩ | ⟨payloadJson, hjson, h⟩
    · refine ⟨0, "", fun d _ _ => ?_⟩
      simp [appendEventLocked, he, bind, Except.bind, Except.map]
    obtain ⟨dt, -, h⟩ := ends_now h
    refine ⟨dt.now 0, du.uuid 0, fun d ht hu => ?_⟩
    simp only [appendEventLocked, hjson, ht, hu, bind, Except.bind]
    rcases ends_lastWrite h with ⟨e, he, rfl, -⟩ | ⟨hdb, rfl⟩
    · rcases hinsert : orRaise (db.productEvents.insert? ⟨"event-" ++ du.uuid 0, runId, tenantId,
          sequence, event, payloadJson, host.isoformat (dt.now 0)⟩) keyTaken with e' | table
      · simp only [insertEvent, hinsert, Except.map, Except.error.injEq] at he
        rw [he]
        rfl
      · simp [insertEvent, hinsert, Except.map] at he
    · obtain ⟨table, hinsert, rfl⟩ := map_eq_ok.mp hdb
      rw [hinsert]
      rfl
  rcases Prog.ends_bind h with ⟨e, hfirst, rfl⟩ | ⟨u, db₁, hfirst, hnext⟩
  · obtain ⟨t, u, hall⟩ := hparts hfirst
    exact ⟨t, u, Or.inl ⟨e, rfl, hall⟩⟩
  · obtain ⟨t, id, hall⟩ := hparts hfirst
    exact ⟨t, id, Or.inr ⟨db₁, hall, hnext⟩⟩

/-- The `SELECT` at the end is that of one step. -/
theorem ends_rereadStatement {runId : String} {x : Except Raised RunLifecycle}
    (h : (rereadStatement runId).Ends (StoreOp.exec host) (fun _ => True) db x db') :
    reread runId db = x.map fun a => (a, db') := by
  obtain ⟨rfl, rfl⟩ := Prog.ends_done_iff.mp (ends_look h)
  cases hfind : db.productRuns.find? runId with
  | none => simp [reread, orRaise, hfind, bind, Except.bind, Except.map]
  | some row =>
    cases hrun : lifecycle row <;>
      simp [reread, orRaise, hfind, hrun, bind, Except.bind, pure, Except.pure, Except.map]

theorem saveCheckpoint_alone (runId tenantId node : String) (state : Mapping) :
    AsOne host (saveCheckpointBody host runId tenantId node state) (fun _ => True)
      (Kernel.saveCheckpoint host runId tenantId node state) := by
  intro db r db' h
  unfold saveCheckpointBody at h
  replace h := ends_look h
  rcases ends_ofExcept h with ⟨e, he, rfl, -⟩ | ⟨row, hrow, h⟩
  · refine ⟨⟨fun _ => 0, fun _ => ""⟩, trivial, ?_⟩
    simp [Kernel.saveCheckpoint, he, bind, Except.bind, Except.map]
  rcases ends_ofExcept h with ⟨e, he, rfl, -⟩ | ⟨stateJson, hjson, h⟩
  · refine ⟨⟨fun _ => 0, fun _ => ""⟩, trivial, ?_⟩
    simp [Kernel.saveCheckpoint, hrow, he, bind, Except.bind, Except.map]
  obtain ⟨d, -, h⟩ := ends_now h
  refine ⟨d, trivial, ?_⟩
  rcases ends_lastWrite h with ⟨e, he, -, -⟩ | ⟨hdb, rfl⟩
  · cases he
  · obtain rfl := Except.ok.inj hdb
    simp [Kernel.saveCheckpoint, hrow, hjson, bind, Except.bind, Except.map, pure, Except.pure]

theorem appendEvent_alone (runId tenantId event : String) (payload : Mapping) :
    AsOne host (appendEventBody host runId tenantId event payload) (fun _ => True)
      (Kernel.appendEvent host runId tenantId event payload) := by
  intro db r db' h
  unfold appendEventBody at h
  replace h := ends_look h
  rcases ends_ofExcept h with ⟨e, he, rfl, -⟩ | ⟨row, hrow, h⟩
  · refine ⟨⟨fun _ => 0, fun _ => ""⟩, trivial, ?_⟩
    simp [Kernel.appendEvent, he, bind, Except.bind, Except.map]
  obtain ⟨t, u, ⟨e, rfl, happend⟩ | ⟨db₁, happend, h⟩⟩ := ends_appendEventStatement h
  · refine ⟨⟨fun _ => t, fun _ => u⟩, trivial, ?_⟩
    simp [Kernel.appendEvent, hrow, happend, bind, Except.bind, Except.map]
  obtain ⟨ds, -, h⟩ := ends_now h
  refine ⟨⟨fun n => if n = 0 then t else ds.now 0, fun _ => u⟩, trivial, ?_⟩
  rcases ends_lastWrite h with ⟨e, he, -, -⟩ | ⟨hdb, rfl⟩
  · cases he
  · obtain rfl := Except.ok.inj hdb
    simp [Kernel.appendEvent, hrow, happend, bind, Except.bind, Except.map, pure, Except.pure]

theorem consumeApproval_alone (args : Consumption) (reading : ℤ) :
    AsOne host (consumeApprovalBody host args reading) (fun d => d.now 0 = reading)
      (Kernel.consumeApproval host args) := by
  intro db r db' h
  unfold consumeApprovalBody at h
  replace h := ends_look h
  -- until the first write the draw is the reading alone
  have hraise : ∀ {e : Raised}, r = .error e →
      Kernel.consumeApproval host args ⟨fun _ => reading, fun _ => ""⟩ db = .error e →
      ∃ d : Draw, d.now 0 = reading ∧
        Kernel.consumeApproval host args d db = r.map fun a => (a, db') := by
    rintro e rfl hone
    exact ⟨_, rfl, hone⟩
  rcases ends_ofExcept h with ⟨e, he, hr, -⟩ | ⟨row, hrow, h⟩
  · exact hraise hr (by simp [Kernel.consumeApproval, he, bind, Except.bind])
  rcases ends_ofExcept h with ⟨e, he, hr, -⟩ | ⟨_, hown, h⟩
  · exact hraise hr (by simp [Kernel.consumeApproval, hrow, he, bind, Except.bind])
  rcases ends_ofExcept h with ⟨e, he, hr, -⟩ | ⟨scopes, hscopes, h⟩
  · exact hraise hr (by simp [Kernel.consumeApproval, hrow, hown, he, bind, Except.bind])
  rcases ends_ofExcept h with ⟨e, he, hr, -⟩ | ⟨_, hscope, h⟩
  · exact hraise hr (by simp [Kernel.consumeApproval, hrow, hown, hscopes, he, bind, Except.bind])
  rcases ends_ofExcept h with ⟨e, he, hr, -⟩ | ⟨elapsed, hexpired, h⟩
  · exact hraise hr (by
      simp [Kernel.consumeApproval, hrow, hown, hscopes, hscope, he, bind, Except.bind])
  rcases ends_ofExcept h with ⟨e, he, hr, -⟩ | ⟨_, helapsed, h⟩
  · exact hraise hr (by
      simp [Kernel.consumeApproval, hrow, hown, hscopes, hscope, hexpired, he, bind, Except.bind])
  rcases ends_ofExcept h with ⟨e, he, hr, -⟩ | ⟨_, hrepository, h⟩
  · exact hraise hr (by
      simp [Kernel.consumeApproval, hrow, hown, hscopes, hscope, hexpired, helapsed, he, bind,
        Except.bind])
  rcases ends_ofExcept h with ⟨e, he, hr, -⟩ | ⟨_, hplan, h⟩
  · exact hraise hr (by
      simp [Kernel.consumeApproval, hrow, hown, hscopes, hscope, hexpired, helapsed, hrepository, he,
        bind, Except.bind])
  rcases ends_write h with ⟨e, he, -, -⟩ | ⟨db₁, hdb₁, h⟩
  · cases he
  obtain rfl := Except.ok.inj hdb₁
  obtain ⟨ds, -, h⟩ := ends_now h
  rcases ends_write h with ⟨e, he, -, -⟩ | ⟨db₂, hdb₂, h⟩
  · cases he
  obtain rfl := Except.ok.inj hdb₂
  obtain ⟨rfl, rfl⟩ := Prog.ends_done_iff.mp h
  refine ⟨⟨fun n => if n = 0 then reading else ds.now 0, fun _ => ""⟩, rfl, ?_⟩
  cases htoken : tokenOf row true <;>
    simp [Kernel.consumeApproval, hrow, hown, hscopes, hscope, hexpired, helapsed, hrepository, hplan,
      htoken, bind, Except.bind, Except.map, pure, Except.pure]

theorem transition_alone (args : Move) :
    AsOne host (transitionBody host args) (fun _ => True) (Kernel.transition host args) := by
  intro db r db' h
  unfold transitionBody at h
  replace h := ends_look h
  have hraise : ∀ {e : Raised} (d : Draw), r = .error e →
      Kernel.transition host args d db = .error e →
      ∃ d : Draw, True ∧ Kernel.transition host args d db = r.map fun a => (a, db') := by
    rintro e d rfl hone
    exact ⟨d, trivial, hone⟩
  rcases ends_ofExcept h with ⟨e, he, hr, -⟩ | ⟨row, hrow, h⟩
  · exact hraise ⟨fun _ => 0, fun _ => ""⟩ hr (by simp [Kernel.transition, he, bind, Except.bind])
  rcases ends_ofExcept h with ⟨e, he, hr, -⟩ | ⟨state, hstate, h⟩
  · exact hraise ⟨fun _ => 0, fun _ => ""⟩ hr (by
      simp [Kernel.transition, hrow, he, bind, Except.bind])
  obtain ⟨t, u, ⟨e, hr, happend⟩ | ⟨db₁, happend, h⟩⟩ := ends_appendEventStatement h
  · exact hraise ⟨fun _ => t, fun _ => u⟩ hr (by
      simp [Kernel.transition, hrow, hstate, happend, bind, Except.bind])
  rcases ends_ofExcept h with ⟨e, he, hr, -⟩ | ⟨loaded, hloaded, h⟩
  · exact hraise ⟨fun _ => t, fun _ => u⟩ hr (by
      simp [Kernel.transition, hrow, hstate, happend, he, bind, Except.bind])
  rcases ends_ofExcept h with ⟨e, he, hr, -⟩ | ⟨existing, hexisting, h⟩
  · exact hraise ⟨fun _ => t, fun _ => u⟩ hr (by
      simp [Kernel.transition, hrow, hstate, happend, hloaded, he, bind, Except.bind])
  rcases ends_ofExcept h with ⟨e, he, hr, -⟩ | ⟨resultJson, hresult, h⟩
  · exact hraise ⟨fun _ => t, fun _ => u⟩ hr (by
      simp [Kernel.transition, hrow, hstate, happend, hloaded, hexisting, he, bind, Except.bind])
  obtain ⟨ds, -, h⟩ := ends_now h
  -- the approval is bound when the run is written
  rcases hbound : bindText host ((args.payload.getD []).get "approval_id") with e | approvalId
  · rcases ends_write h with ⟨e', he, hr, -⟩ | ⟨db₂, hdb₂, h⟩
    · simp only [hbound, bind, Except.bind, Except.error.injEq] at he
      subst he
      exact hraise ⟨fun _ => t, fun _ => u⟩ hr (by
        simp [Kernel.transition, hrow, hstate, happend, hloaded, hexisting, hresult, hbound, bind,
          Except.bind])
    · simp [hbound, bind, Except.bind] at hdb₂
  rcases ends_write h with ⟨e', he, hr, -⟩ | ⟨db₂, hdb₂, h⟩
  · simp [hbound, bind, Except.bind, pure, Except.pure] at he
  simp only [hbound, bind, Except.bind, pure, Except.pure, Except.ok.injEq] at hdb₂
  obtain ⟨dm, db₃, hmove, h⟩ : ∃ (dm : Draw) (db₃ : Database),
      db₃ = (if given row.proposalId then
        updateProposal (row.proposalId.getD "") args.tenantId
          (fun r => { r with state := args.state, updatedAt := host.isoformat (dm.now 0) })
          ⟨fun _ => rfl, fun _ => rfl, fun _ _ => rfl⟩ db₂ else db₂) ∧
      (rereadStatement args.runId).Ends (StoreOp.exec host) (fun _ => True) db₃ r db' := by
    unfold moveProposal at h
    by_cases hp : given row.proposalId = true
    · rw [if_pos hp] at h
      rcases Prog.ends_bind h with ⟨e, hfirst, -⟩ | ⟨_, db₃, hfirst, hrest⟩
      · obtain ⟨dm, -, hfirst⟩ := ends_now hfirst
        rcases ends_lastWrite hfirst with ⟨e', he, -, -⟩ | ⟨-, he⟩
        · cases he
        · cases he
      · obtain ⟨dm, -, hfirst⟩ := ends_now hfirst
        rcases ends_lastWrite hfirst with ⟨e', he, -, -⟩ | ⟨hdb₃, -⟩
        · cases he
        · exact ⟨dm, db₃, by rw [if_pos hp]; exact (Except.ok.inj hdb₃).symm, hrest⟩
    · rw [if_neg hp] at h
      exact ⟨ds, db₂, by rw [if_neg hp], h⟩
  refine ⟨⟨fun n => if n = 0 then t else if n = 1 then ds.now 0 else dm.now 0, fun _ => u⟩, trivial, ?_⟩
  rw [← ends_rereadStatement h, hmove, ← hdb₂]
  simp [Kernel.transition, hrow, hstate, happend, hloaded, hexisting, hresult, hbound, bind,
    Except.bind]

/-- The two writes that link a run to its proposal, in one. -/
theorem linkProposal_eq {args : NewRun} {snapshot : Snapshot} {now : String}
    {repositoryId : Option String} (hid : bindText host snapshot.repositoryId = .ok repositoryId)
    (hp : given args.proposalId = true) :
    linkProposal host args now repositoryId snapshot.branch snapshot.commit db
      = (replaceProposalRun host args snapshot now db).map fun db =>
        updateProposal (args.proposalId.getD "") args.tenantId
          (fun r => { r with latestRunId := some args.runId, updatedAt := now })
          ⟨fun _ => rfl, fun _ => rfl, fun _ _ => rfl⟩ db := by
  simp only [linkProposal, if_pos hp, replaceProposalRun, hid, bind, Except.bind]
  cases bindText host (orEmpty snapshot.branch) with
  | error e => rfl
  | ok branch =>
    cases bindText host (orEmpty snapshot.commit) with
    | error e => rfl
    | ok commit =>
      cases required repositoryId with
      | error e => rfl
      | ok repositoryId =>
        cases hbranch : required branch with
        | error e => simp [hbranch, Except.map]
        | ok branch =>
          cases hcommit : required commit with
          | error e => simp [hbranch, hcommit, Except.map]
          | ok commit => simp [hbranch, hcommit, Except.map, pure, Except.pure]

/-- The links of a new run are made as in one step. -/
theorem ends_linkStatements {args : NewRun} {snapshot : Snapshot} {now : String}
    {repositoryId : Option String} (hid : bindText host snapshot.repositoryId = .ok repositoryId)
    {x : Except Raised Unit}
    (h : (linkStatements host args snapshot now).Ends (StoreOp.exec host) (fun _ => True) db x db') :
    linkProposal host args now repositoryId snapshot.branch snapshot.commit db
      = x.map fun _ => db' := by
  unfold linkStatements at h
  by_cases hp : given args.proposalId = true
  · rw [if_pos hp] at h
    rw [linkProposal_eq hid hp]
    rcases ends_write h with ⟨e, he, rfl, -⟩ | ⟨db₁, hdb₁, h⟩
    · rw [he]
      rfl
    · rw [hdb₁]
      rcases ends_lastWrite h with ⟨e, he, -, -⟩ | ⟨hdb, rfl⟩
      · cases he
      · rw [← Except.ok.inj hdb]
        rfl
  · rw [if_neg hp] at h
    obtain ⟨rfl, rfl⟩ := ends_pure h
    rw [linkProposal, if_neg hp]
    rfl

/-- The check of the proposal is that of one step. -/
theorem ends_checkStatement {args : NewRun} {snapshot : Snapshot} {next : Unit → Store α}
    (h : (checkStatement args snapshot >>= next).Ends (StoreOp.exec host) (fun _ => True) db r db') :
    (∃ e, r = .error e ∧ checkProposal args snapshot db = .error e) ∨
      checkProposal args snapshot db = .ok () ∧
        (next ()).Ends (StoreOp.exec host) (fun _ => True) db r db' := by
  unfold checkStatement at h
  by_cases hp : given args.proposalId = true
  · rw [if_pos hp] at h
    rcases Prog.ends_bind h with ⟨e, hfirst, hr⟩ | ⟨u, db₁, hfirst, hnext⟩
    · obtain ⟨hcheck, -⟩ := Prog.ends_done_iff.mp (ends_look hfirst)
      exact Or.inl ⟨e, hr, hcheck⟩
    · obtain ⟨hcheck, rfl⟩ := Prog.ends_done_iff.mp (ends_look hfirst)
      exact Or.inr ⟨hcheck, hnext⟩
  · rw [if_neg hp] at h
    exact Or.inr ⟨by rw [checkProposal, if_neg hp], h⟩

/-- The row of a new run goes in as in one step. -/
theorem insertRun_eq {args : NewRun} {snapshot : Snapshot} {hash : String} (d : Draw) :
    insertRun host args snapshot hash d db =
      (insertRunRow host args snapshot hash (host.isoformat (d.now 0)) db).bind fun db =>
        (appendEventLocked host ⟨fun n => d.now (n + 1), d.uuid⟩ args.runId args.tenantId 1
          "run.queued" (record [("mode", .str args.mode)] ++ snapshot.dict) db).bind fun db =>
          (bindText host snapshot.repositoryId).bind fun repositoryId =>
            linkProposal host args (host.isoformat (d.now 0)) repositoryId snapshot.branch
              snapshot.commit db := by
  simp only [insertRun, insertRunRow, bind, Except.bind, pure, Except.pure]
  cases hid : bindText host snapshot.repositoryId with
  | error e => rfl
  | ok repositoryId =>
    cases bindText host snapshot.branch with
    | error e => rfl
    | ok branch =>
      cases bindText host snapshot.commit with
      | error e => rfl
      | ok commit =>
        simp only
        split <;> simp_all

theorem createRun_alone {args : NewRun} {snapshot : Snapshot} {hash : String}
    (hprepared : args.prepared host = .ok (snapshot, hash)) :
    AsOne host (createRunBody host args snapshot hash) (fun _ => True)
      (Kernel.createRun host args) := by
  intro db r db' h
  simp only [NewRun.prepared, bind_eq_ok] at hprepared
  obtain ⟨snapshot', hsnapshot, hash', hhash, hpair⟩ := hprepared
  obtain ⟨rfl, rfl⟩ := Prod.mk.inj (Except.ok.inj hpair)
  have hraise : ∀ {e : Raised} (d : Draw), r = .error e →
      Kernel.createRun host args d db = .error e →
      ∃ d : Draw, True ∧ Kernel.createRun host args d db = r.map fun a => (a, db') := by
    rintro e d rfl hone
    exact ⟨d, trivial, hone⟩
  unfold createRunBody at h
  rcases ends_checkStatement h with ⟨e, hr, hcheck⟩ | ⟨hcheck, h⟩
  · exact hraise ⟨fun _ => 0, fun _ => ""⟩ hr (by
      simp [Kernel.createRun, hsnapshot, hhash, hcheck, bind, Except.bind])
  replace h := ends_look h
  cases hkey : db.productRuns.findBy? (args.tenantId, args.idempotencyKey) with
  | some existing =>
    simp only [hkey] at h
    refine ⟨⟨fun _ => 0, fun _ => ""⟩, trivial, ?_⟩
    rcases ends_ofExcept h with ⟨e, he, rfl, -⟩ | ⟨_, hsame, h⟩
    · simp [Kernel.createRun, hsnapshot, hhash, hcheck, hkey, he, bind, Except.bind, Except.map]
    obtain ⟨rfl, rfl⟩ := Prog.ends_done_iff.mp h
    cases hrun : lifecycle existing <;>
      simp [Kernel.createRun, hsnapshot, hhash, hcheck, hkey, hsame, hrun, bind, Except.bind,
        Except.map, pure, Except.pure]
  | none =>
    simp only [hkey] at h
    obtain ⟨d₀, -, h⟩ := ends_now h
    have hone : ∀ d : Draw, Kernel.createRun host args d db
        = (insertRun host args snapshot' hash' d db).bind fun db => reread args.runId db := by
      intro d
      simp [Kernel.createRun, hsnapshot, hhash, hcheck, hkey, bind, Except.bind]
    rcases ends_write h with ⟨e, he, hr, -⟩ | ⟨db₁, hdb₁, h⟩
    · refine hraise d₀ hr ?_
      rw [hone d₀, insertRun_eq, he]
      rfl
    obtain ⟨t, u, ⟨e, hr, happend⟩ | ⟨db₂, happend, h⟩⟩ := ends_appendEventStatement h
    all_goals
      have happend := happend ⟨fun n => (fun n => if n = 0 then d₀.now 0 else t) (n + 1), fun _ => u⟩
        (by simp) rfl
    · refine hraise ⟨fun n => if n = 0 then d₀.now 0 else t, fun _ => u⟩ hr ?_
      rw [hone, insertRun_eq]
      simp only [if_true, hdb₁, happend, Except.bind]
    -- the identifier was bound when the row was inserted
    obtain ⟨repositoryId, hid⟩ : ∃ repositoryId, bindText host snapshot'.repositoryId
        = .ok repositoryId := by
      simp only [insertRunRow, bind_eq_ok] at hdb₁
      exact ⟨_, hdb₁.choose_spec.1⟩
    refine ⟨⟨fun n => if n = 0 then d₀.now 0 else t, fun _ => u⟩, trivial, ?_⟩
    rw [hone, insertRun_eq]
    simp only [if_true, hdb₁, happend, hid, Except.bind]
    rcases Prog.ends_bind h with ⟨e, hfirst, rfl⟩ | ⟨_, db₃, hfirst, hrest⟩
    · rw [ends_linkStatements hid hfirst]
      rfl
    · rw [ends_linkStatements hid hfirst]
      exact ends_rereadStatement hrest

end AsOne

/-! ### What the programs ask for -/

section Asks

variable {host : Host} {P : StoreOp → Prop}

theorem asks_quietly {α : Type} {prog : Store α} (h : prog.Asks P) : (quietly prog).Asks P :=
  h.bind fun _ => .done _

/-- A write does the same whatever is drawn. -/
theorem plain_write (statement : Database → Except Raised Database) :
    (server host).Plain (.write statement) := by
  intro d db
  change (atomically (fun db => (statement db).map fun db => ((), db)) db).2
    = (statement db).toOption.getD db
  cases h : statement db <;> simp [atomically, h, Except.map, Except.toOption]

theorem steady_plain : Steady (server host).Plain where
  look := fun _ _ => rfl
  now := fun _ _ => rfl
  uuid := fun _ _ => rfl
  aside := fun _ => plain_write _
  run := fun _ _ => plain_write _
  newProposal := fun _ => plain_write _
  proposal := fun _ _ => plain_write _

theorem asks_appendEventStatement (runId tenantId : String) (sequence : ℕ) (event : String)
    (payload : Mapping) :
    (appendEventStatement host runId tenantId sequence event payload).Asks (server host).Plain :=
  asks_uuid_bind steady_plain.uuid fun _ => asks_ofExcept_bind fun _ _ =>
    asks_now_bind steady_plain.now fun _ => asks_write (plain_write _)

theorem asks_rereadStatement (runId : String) :
    (rereadStatement runId).Asks (server host).Plain :=
  asks_look_bind steady_plain.look fun _ => .done _

theorem asks_createRunBody (args : NewRun) (snapshot : Snapshot) (hash : String) :
    (createRunBody host args snapshot hash).Asks (server host).Plain := by
  unfold createRunBody
  refine Prog.Asks.bind (Prog.Asks.ite (fun _ => ?_) fun _ => .done _) fun _ => ?_
  · exact asks_look_bind steady_plain.look fun db => .done _
  · refine asks_look_bind steady_plain.look fun db => ?_
    split
    · exact asks_ofExcept_bind fun _ _ => .done _
    · refine asks_now_bind steady_plain.now fun now => asks_write_bind (plain_write _) fun _ => ?_
      refine (asks_appendEventStatement _ _ _ _ _).bind fun _ => ?_
      refine Prog.Asks.bind ?_ fun _ => asks_rereadStatement _
      unfold linkStatements
      exact Prog.Asks.ite (fun _ => asks_write_bind (plain_write _) fun _ =>
        asks_write (plain_write _)) fun _ => .done _

theorem asks_transitionBody (args : Move) :
    (transitionBody host args).Asks (server host).Plain := by
  unfold transitionBody
  refine asks_look_bind steady_plain.look fun db => asks_ofExcept_bind fun row _ => ?_
  refine asks_ofExcept_bind fun state _ => (asks_appendEventStatement _ _ _ _ _).bind fun _ => ?_
  refine asks_ofExcept_bind fun _ _ => asks_ofExcept_bind fun _ _ => asks_ofExcept_bind fun _ _ => ?_
  refine asks_now_bind steady_plain.now fun stamp => asks_write_bind (plain_write _) fun _ => ?_
  refine Prog.Asks.bind (Prog.Asks.ite (fun _ => ?_) fun _ => .done _) fun _ =>
    asks_rereadStatement _
  exact asks_now_bind steady_plain.now fun _ => asks_write (plain_write _)

theorem asks_appendEventBody (runId tenantId event : String) (payload : Mapping) :
    (appendEventBody host runId tenantId event payload).Asks (server host).Plain := by
  unfold appendEventBody
  refine asks_look_bind steady_plain.look fun db => asks_ofExcept_bind fun row _ => ?_
  refine (asks_appendEventStatement _ _ _ _ _).bind fun _ => ?_
  exact asks_now_bind steady_plain.now fun _ => asks_write (plain_write _)

theorem asks_saveCheckpointBody (runId tenantId node : String) (state : Mapping) :
    (saveCheckpointBody host runId tenantId node state).Asks (server host).Plain :=
  asks_look_bind steady_plain.look fun _ => asks_ofExcept_bind fun _ _ =>
    asks_ofExcept_bind fun _ _ => asks_now_bind steady_plain.now fun _ => asks_write (plain_write _)

theorem asks_consumeApprovalBody (args : Consumption) (reading : ℤ) :
    (consumeApprovalBody host args reading).Asks (server host).Plain := by
  unfold consumeApprovalBody
  refine asks_look_bind steady_plain.look fun db => asks_ofExcept_bind fun row _ => ?_
  refine asks_ofExcept_bind fun _ _ => asks_ofExcept_bind fun _ _ => asks_ofExcept_bind fun _ _ => ?_
  refine asks_ofExcept_bind fun _ _ => asks_ofExcept_bind fun _ _ => asks_ofExcept_bind fun _ _ => ?_
  refine asks_ofExcept_bind fun _ _ => asks_write_bind (plain_write _) fun _ => ?_
  exact asks_now_bind steady_plain.now fun _ => asks_write_bind (plain_write _) fun _ => .done _

theorem asks_recordUsageStatements (usage : UsageRecord) (tenantId : Option String) :
    (recordUsageStatements host usage tenantId).Asks (server host).Plain := by
  unfold recordUsageStatements
  refine Prog.Asks.bind (Prog.Asks.ite (fun _ => .done _) fun _ => ?_) fun tenant => ?_
  · exact asks_look_bind steady_plain.look fun _ => .done _
  · refine asks_look_bind steady_plain.look fun db => asks_ofExcept_bind fun _ _ => ?_
    refine asks_ofExcept_bind fun encoded _ => ?_
    refine (Prog.Asks.attempt (asks_write (plain_write _))).bind fun r => ?_
    rcases r with e | u
    · refine Prog.Asks.ite (fun _ => ?_) fun _ => .done _
      exact asks_look_bind steady_plain.look fun db => Prog.Asks.ite (fun _ => .done _) fun _ => .done _
    · exact .done _

theorem asks_issueApprovalStatements (args : Issue) :
    (issueApprovalStatements args).Asks (server host).Plain := by
  unfold issueApprovalStatements
  refine asks_look_bind steady_plain.look fun db => asks_ofExcept_bind fun run _ => ?_
  refine asks_look_bind steady_plain.look fun db => Prog.Asks.ite (fun _ => .done _) fun _ => ?_
  refine asks_uuid_bind steady_plain.uuid fun _ => asks_now_bind steady_plain.now fun _ => ?_
  refine asks_write_bind (plain_write _) fun _ => ?_
  exact (asks_linkApproval steady_plain.toIncidental _).bind fun _ => .done _

/-- **Every operation executes plain statements.** -/
theorem asks_operation (task : Call × ℤ) :
    ((server host).operation task).thread.prog.Asks (server host).Plain := by
  obtain ⟨c, reading⟩ := task
  cases c with
  | createRun args =>
    change (Call.operation host reading (.createRun args)).thread.prog.Asks _
    simp only [Call.operation]
    split
    · exact .done _
    · exact asks_quietly (asks_createRunBody _ _ _)
  | transition args => exact asks_quietly (asks_transitionBody args)
  | appendEvent runId tenantId event payload => exact asks_appendEventBody _ _ _ _
  | saveCheckpoint runId tenantId node state => exact asks_saveCheckpointBody _ _ _ _
  | consumeApproval args => exact asks_quietly (asks_consumeApprovalBody args reading)
  | recordUsage usage tenantId => exact asks_recordUsageStatements usage tenantId
  | issueApproval args => exact asks_quietly (asks_issueApprovalStatements args)
  | registerRepository tenantId repo => exact asks_quietly (asks_registerRepository steady_plain.toIncidental.quiet _ _)
  | createProposal args => exact asks_quietly (asks_createProposal steady_plain _)
  | revalidateProposal proposalId tenantId current evidence =>
    exact asks_quietly (asks_revalidateProposal steady_plain _ _ _ _)
  | saveReport report tenantId stale => exact asks_saveReport steady_plain.toIncidental _ _ _
  | saveProposalOutputs args => exact asks_saveProposalOutputs steady_plain _
  | recordArtifact args => exact asks_recordArtifact steady_plain.toIncidental _
  | saveTrace args => exact asks_saveTrace steady_plain.toIncidental _

end Asks

/-! ### What is kept -/

/-- **What returned is kept.**  In every run in which no thread's transaction is rolled
back after another thread has written into it, the tables are what the statements of the
threads that were not rolled back make of the first ones, one after another, and every
statement of an operation that returned is one of them. -/
theorem acknowledged_kept (host : Host) (db₀ : Database) {turns : List (Turn (Call × ℤ) Draw)}
    (h : Runs.Along (server host).act Server.Unmixed (Connection.new db₀) turns) :
    let c := Runs.final (server host).act (Connection.new db₀) turns
    c.db = (server host).replay db₀ c.kept ∧ List.Sublist c.kept c.log ∧
      ∀ i, c.returned i = true → ∀ e ∈ c.log, e.1 = i → e ∈ c.kept := by
  have hsound := Server.sound_run asks_operation db₀ h
  exact ⟨hsound.db, List.filter_sublist, fun i hi e he hmade => hsound.returned_kept hi he hmade⟩

/-! ### A write into the transaction of another -/

/-- A run, a transition of it that is not allowed, and usage of it that is recorded
between the BEGIN and the ROLLBACK of the transition. -/
def mixedTurns : List (Turn (Call × ℤ) Draw) :=
  [.start (.createRun ⟨"run-1", "tenant-1", "key-1", "verify", [], none, none, none⟩, 0)] ++
    List.replicate 9 (.step 0 (sampleDraw 0 "a")) ++
    [.start (.transition ⟨"run-1", "tenant-1", "completed", none, none⟩, 0),
      .start (.recordUsage ⟨"run-1", "call-1", "plan", 5, 7, false, false, 0, "allow", false,
        by decide⟩ (some "tenant-1"), 0),
      .step 1 (sampleDraw 0 "b"), .step 2 (sampleDraw 0 "c"), .step 2 (sampleDraw 0 "c"),
      .step 1 (sampleDraw 0 "b")]

/-- The connection before the transition is rolled back. -/
def mixedConnection : Connection (Call × ℤ) StoreOp StoreOp.Ans Raised Unit Database :=
  Runs.final (server sampleHost).act (Connection.new Database.empty) mixedTurns

/-- The same run with the usage recorded before the BEGIN. -/
def apartTurns : List (Turn (Call × ℤ) Draw) :=
  [.start (.createRun ⟨"run-1", "tenant-1", "key-1", "verify", [], none, none, none⟩, 0)] ++
    List.replicate 9 (.step 0 (sampleDraw 0 "a")) ++
    [.start (.transition ⟨"run-1", "tenant-1", "completed", none, none⟩, 0),
      .start (.recordUsage ⟨"run-1", "call-1", "plan", 5, 7, false, false, 0, "allow", false,
        by decide⟩ (some "tenant-1"), 0),
      .step 2 (sampleDraw 0 "c"), .step 2 (sampleDraw 0 "c"), .step 1 (sampleDraw 0 "b"),
      .step 1 (sampleDraw 0 "b"), .step 1 (sampleDraw 0 "b")]

/-- Usage that is recorded before another thread begins is kept. -/
theorem apart_kept :
    (Runs.final (server sampleHost).act (Connection.new Database.empty) apartTurns).db
      = (server sampleHost).replay Database.empty
        (Runs.final (server sampleHost).act (Connection.new Database.empty) apartTurns).kept ∧
    (Runs.final (server sampleHost).act (Connection.new Database.empty) apartTurns).undone = [1] :=
  ⟨(acknowledged_kept sampleHost Database.empty (by decide +kernel)).1, by decide +kernel⟩

/-- **An acknowledged write is lost**: the usage is in its table and its operation has
returned, and the ROLLBACK of the other thread takes it out. -/
theorem acknowledged_lost :
    mixedConnection.returned 2 = true ∧
      mixedConnection.db.modelUsage.rows.length = 1 ∧
      ((server sampleHost).act mixedConnection (.step 1 (sampleDraw 0 "b"))).db.modelUsage.rows
        = [] := by
  decide +kernel

end AiSaas.Kernel
