import AiSaas.Kernel.Store

/-!
# Reads and proposal records of the kernel store

The operations of `KernelStore` that open no transaction: the reads, and the programs
that write the proposal records one statement at a time.

## Main definitions

* `getRun`, `events`, `checkpoint`, `usage`, `report`, `repository`, `approvalForRun`,
  `proposalView` — the reads.
* `StoreOp`, `StoreOp.exec` — the statements of a program.
* `recordUsage`, `createProposal`, `revalidateProposal`, `issueApproval`, `saveReport`,
  `saveProposalOutputs`, `recordArtifact`, `saveTrace` — the programs.
-/

namespace AiSaas.Kernel

open Relational Transaction Processes

variable (host : Host)

/-! ### Reads -/

/-- `get_run`. -/
def getRun (runId tenantId : String) (db : Database) : Except Raised RunLifecycle := do
  let row ← ownedRow runId tenantId db
  lifecycle row

/-- An event as `events` returns it. -/
structure EventRecord where
  eventId : String
  sequence : ℕ
  event : String
  payload : JsonText.Value

/-- The `dict` of an event row. -/
def eventRecord (row : EventRow) : Except Raised EventRecord :=
  (loads row.payloadJson).map fun payload => ⟨row.eventId, row.sequence, row.event, payload⟩

/-- The rows of a run's events, by their sequence numbers. -/
def eventRows (runId : String) (db : Database) : List EventRow :=
  (db.productEvents.rows.filter fun e => decide (e.runId = runId)).mergeSort
    fun a b => decide (a.sequence ≤ b.sequence)

/-- `events`. -/
def events (runId tenantId : String) (db : Database) : Except Raised (List EventRecord) := do
  let _ ← getRun runId tenantId db
  (eventRows runId db).mapM eventRecord

/-- `checkpoint`: the node and the state. -/
def checkpoint (runId tenantId : String) (db : Database) :
    Except Raised (Option (String × JsonText.Value)) := do
  let _ ← getRun runId tenantId db
  match db.graphCheckpoints.find? runId with
  | none => return none
  | some row =>
    let state ← loads row.stateJson
    return some (row.node, state)

/-- `usage`: the records by their fields, ordered by their calls. -/
def usage (runId tenantId : String) (db : Database) : Except Raised (List JsonText.Value) := do
  let _ ← getRun runId tenantId db
  ((db.modelUsage.rows.filter fun u => decide (u.runId = runId)).mergeSort
    fun a b => decide (a.callId ≤ b.callId)).mapM fun u => loads u.payloadJson

/-- `report`. -/
def report (runId tenantId : String) (db : Database) : Except Raised (Option JsonText.Value) := do
  let _ ← getRun runId tenantId db
  match db.releaseReports.find? runId with
  | none => return none
  | some row =>
    let value ← loads row.reportJson
    return some value

/-- A repository as `repository` returns it. -/
structure RepositoryRecord where
  row : RepositoryRow
  capabilities : JsonText.Value

/-- `repository`. -/
def repository (tenantId repositoryId : String) (db : Database) : Except Raised RepositoryRecord := do
  let row ← orRaise (db.repositories.find? (tenantId, repositoryId))
    ⟨.tenantScopeError, "repository is not visible to this tenant"⟩
  let capabilities ← loads (textOr row.capabilitiesJson "[]")
  return ⟨row, capabilities⟩

/-- A proposal as `_proposal_row` returns it. -/
structure ProposalRecord where
  proposalId : String
  tenantId : String
  repositoryId : String
  branch : String
  commit : String
  repositoryDirty : Bool
  idempotencyKey : String
  proposalDigest : String
  state : String
  staleEvidence : Bool
  staleReason : Option String
  latestRunId : Option String
  createdAt : String
  updatedAt : String
  deriving DecidableEq

/-- `_proposal_row`. -/
def proposalRecord (row : ProposalRow) : ProposalRecord :=
  ⟨row.proposalId, row.tenantId, row.repositoryId, row.branch, row.commitSha, row.repositoryDirty,
    row.idempotencyKey, row.proposalDigest, row.state, row.staleEvidence, row.staleReason,
    row.latestRunId, row.createdAt, row.updatedAt⟩

/-- `proposal_input`. -/
def proposalInput (proposalId tenantId : String) (db : Database) : Except Raised String :=
  (ownedProposal proposalId tenantId db).map ProposalRow.proposalText

/-- The first of the rows that none exceeds: `ORDER BY … DESC LIMIT 1`. -/
def latest {α : Type} (key : α → String) (rows : List α) : Option α :=
  rows.find? fun r => rows.all fun r' => decide (key r' ≤ key r)

/-- `approval_for_run`. -/
def approvalForRun (runId tenantId : String) (db : Database) :
    Except Raised (Option ApprovalToken) := do
  let _ ← ownedRow runId tenantId db
  match latest ApprovalRow.issuedAt (db.approvals.rows.filter fun r =>
      decide (r.runId = runId ∧ r.tenantId = tenantId)) with
  | none => return none
  | some row =>
    let token ← tokenOf row row.consumed
    return some token

/-- A proposal as `proposal_view` returns it. -/
structure ProposalView where
  proposal : ProposalRecord
  run : Option RunLifecycle
  requirements : JsonText.Value
  evidence : List EvidenceRow
  plan : Option JsonText.Value
  approval : Option (ProposalApprovalRow × JsonText.Value)
  report : Option JsonText.Value
  artifacts : List (ArtifactRow × JsonText.Value)
  trace : Option TraceRow

/-- The report of a view: the one of `verification_reports` with the status of its row,
else the run's. -/
def shownReport (runId tenantId : String) (db : Database) :
    Except Raised (Option JsonText.Value) :=
  match db.verificationReports.rows.find? fun r =>
      decide (r.runId = runId ∧ r.tenantId = tenantId) with
  | some row => do
    let value ← loads row.reportJson
    let value ← asDict value
    return some (toJson (.dict (value ++ record
      [("status", .str (if row.stale then "stale" else row.status)),
        ("verification_blocked", .bool row.stale)])))
  | none => report runId tenantId db

/-- The rest of `proposal_view`, for a proposal with a run. -/
def runView (row : ProposalRow) (runId tenantId : String) (db : Database) :
    Except Raised ProposalView := do
  let run ← getRun runId tenantId db
  let runRow := db.proposalRuns.rows.find? fun r => decide (r.runId = runId ∧ r.tenantId = tenantId)
  let requirements ← match runRow with
    | some r => loads (textOr r.requirementsJson "[]")
    | none => .ok (.arr [])
  let plan ← match runRow.bind fun r => r.planJson.filter fun s => decide (s ≠ "") with
    | some planJson => (loads planJson).map some
    | none => .ok none
  let approval ← match latest ProposalApprovalRow.createdAt (db.proposalApprovals.rows.filter
      fun r => decide (r.runId = runId ∧ r.tenantId = tenantId)) with
    | some r => (loads r.scopesJson).map fun scopes => some (r, scopes)
    | none => .ok none
  let shown ← shownReport runId tenantId db
  let artifacts ← ((db.proposalArtifacts.rows.filter fun r =>
      decide (r.runId = runId ∧ r.tenantId = tenantId)).mergeSort fun a b =>
      decide (a.createdAt < b.createdAt ∨ a.createdAt = b.createdAt ∧ a.artifactId ≤ b.artifactId)).mapM
    fun r => (loads (textOr r.metadataJson "\x7b\x7d")).map fun metadata => (r, metadata)
  return {
    proposal := proposalRecord row
    run := some run
    requirements
    evidence := (db.evidenceSnapshots.rows.filter fun r =>
      decide (r.runId = runId ∧ r.tenantId = tenantId)).mergeSort
        fun a b => decide (a.evidenceId ≤ b.evidenceId)
    plan
    approval
    report := shown
    artifacts
    trace := db.traceCorrelations.rows.find? fun r =>
      decide (r.runId = runId ∧ r.tenantId = tenantId) }

/-- `proposal_view`, without a current repository. -/
def proposalView (proposalId tenantId : String) (db : Database) : Except Raised ProposalView := do
  let row ← ownedProposal proposalId tenantId db
  match row.latestRunId with
  | some runId =>
    if runId = "" then return ⟨proposalRecord row, none, .arr [], [], none, none, none, [], none⟩
    else runView row runId tenantId db
  | none => return ⟨proposalRecord row, none, .arr [], [], none, none, none, [], none⟩

/-! ### Statements -/

/-- A statement of a program: a read of the database, a reading of the clock, a new
identifier, one write, or a transaction. -/
inductive StoreOp where
  | look
  | now
  | uuid
  | write (statement : Database → Except Raised Database)
  | createRun (args : NewRun)
  | transition (args : Move)
  | appendEvent (runId tenantId event : String) (payload : Mapping)
  | saveCheckpoint (runId tenantId node : String) (state : Mapping)
  | consumeApproval (args : Consumption)

/-- What a statement returns. -/
abbrev StoreOp.Ans : StoreOp → Type
  | look => Database
  | now => String
  | uuid => String
  | write _ => Unit
  | createRun _ => RunLifecycle
  | transition _ => RunLifecycle
  | appendEvent .. => Unit
  | saveCheckpoint .. => Unit
  | consumeApproval _ => ApprovalToken

/-- What a statement does. -/
def StoreOp.exec (d : Draw) : (op : StoreOp) → Database → Except Raised op.Ans × Database
  | look, db => (.ok db, db)
  | now, db => (.ok (host.isoformat (d.now 0)), db)
  | uuid, db => (.ok (d.uuid 0), db)
  | write statement, db => atomically (fun db => (statement db).map fun db => ((), db)) db
  | createRun args, db => atomically (Kernel.createRun host args d) db
  | transition args, db => atomically (Kernel.transition host args d) db
  | appendEvent runId tenantId event payload, db =>
    atomically (Kernel.appendEvent host runId tenantId event payload d) db
  | saveCheckpoint runId tenantId node state, db =>
    atomically (Kernel.saveCheckpoint host runId tenantId node state d) db
  | consumeApproval args, db => atomically (Kernel.consumeApproval host args d) db

/-- A program over the store. -/
abbrev Store (α : Type) := Prog StoreOp StoreOp.Ans Raised α

namespace Store

/-- What a computation without statements returns or raises. -/
def ofExcept {α : Type} (x : Except Raised α) : Store α := .done x

/-- A read of the database. -/
def look : Store Database := Prog.perform StoreOp.look

/-- `_now()`. -/
def now : Store String := Prog.perform StoreOp.now

/-- `uuid.uuid4().hex`. -/
def uuid : Store String := Prog.perform StoreOp.uuid

/-- One write. -/
def write (statement : Database → Except Raised Database) : Store Unit :=
  Prog.perform (StoreOp.write statement)

end Store

open Store

/-! ### Usage -/

/-- `_tenant_for_run`. -/
def tenantForRun (runId : String) (db : Database) : Except Raised String :=
  (orRaise (db.productRuns.find? runId) ⟨.tenantScopeError, "run is not visible"⟩).map RunRow.tenantId

/-- `INSERT INTO model_usage`. -/
def insertUsage (row : UsageRow) (db : Database) : Except Raised Database :=
  (orRaise (db.modelUsage.insert? row) keyTaken).map fun modelUsage => { db with modelUsage }

/-- `record_usage`. -/
def recordUsage (record : UsageRecord) (tenantId : Option String) : Store Unit := do
  let db ← look
  let tenant ← ofExcept (if given tenantId then .ok (tenantId.getD "")
    else tenantForRun record.runId db)
  let _ ← ofExcept (ownedRow record.runId tenant db)
  let encoded ← ofExcept (safeJson host (.dict record.dict))
  match ← (write (insertUsage ⟨record.runId, record.callId, encoded⟩)).attempt with
  | .ok () => return ()
  | .error e =>
    if e.kind = .integrityError then
      let db ← look
      let existing := db.modelUsage.find? (record.runId, record.callId)
      if existing.map UsageRow.payloadJson = some encoded then return ()
      else Prog.raise ⟨.idempotencyConflict, "usage call id was reused with different usage"⟩
    else Prog.raise e

/-! ### Proposals -/

/-- `INSERT INTO repositories … ON CONFLICT … DO UPDATE`. -/
def upsertRepository (tenantId : String) (snapshot : Snapshot) (rootId : Value)
    (capabilitiesJson now : String) (db : Database) : Except Raised Database := do
  let repositoryId ← bindText host snapshot.repositoryId
  let rootId ← bindText host rootId
  let canonicalPath ← bindText host (orEmpty snapshot.canonicalPath)
  let name ← bindText host (orEmpty snapshot.name)
  let branch ← bindText host (orEmpty snapshot.branch)
  let commit ← bindText host (orEmpty snapshot.commit)
  let repositoryId ← required repositoryId
  let canonicalPath ← required canonicalPath
  let name ← required name
  let branch ← required branch
  let commitSha ← required commit
  let row : RepositoryRow := ⟨tenantId, repositoryId, rootId, canonicalPath, name, branch, commitSha,
    snapshot.dirty, capabilitiesJson, now, now⟩
  return { db with
    repositories := db.repositories.upsert row
      (fun r => { row with
        tenantId := r.tenantId, repositoryId := r.repositoryId, createdAt := r.createdAt })
      ⟨fun _ => rfl, fun _ => rfl, fun _ _ => rfl⟩ }

/-- `register_repository`. -/
def registerRepository (tenantId : String) (repo : Mapping) : Store RepositoryRecord := do
  let snapshot ← ofExcept (snapshotOf host (some repo))
  if snapshot.repositoryId.truthy then
    let now ← now
    let capabilitiesJson ← ofExcept (safeJson host (.list (snapshot.capabilities.map .str)))
    write (upsertRepository host tenantId snapshot (repo.get "root_id") capabilitiesJson now)
    let db ← look
    ofExcept (repository tenantId (pyStr host snapshot.repositoryId) db)
  else Prog.raise ⟨.valueError, "repository_id is required"⟩

/-- `INSERT INTO proposals`. -/
def insertProposal (row : ProposalRow) (db : Database) : Except Raised Database :=
  (orRaise (db.proposals.insert? row) keyTaken).map fun proposals => { db with proposals }

/-- The arguments of `create_proposal`. -/
structure NewProposal where
  tenantId : String
  repository : Mapping
  proposal : String
  mode : String
  idempotencyKey : String

/-- The text of a proposal that is stored. -/
def NewProposal.safeProposal (args : NewProposal) : String :=
  boundedText (redactText host.alnum args.proposal) maxProposalChars

/-- What `create_proposal` hashes. -/
def NewProposal.request (args : NewProposal) (snapshot : Snapshot) : Value :=
  .dict (record [("proposal", .str (args.safeProposal host)), ("mode", .str args.mode),
    ("repository", .dict snapshot.dict)])

/-- `create_proposal`. -/
def createProposal (args : NewProposal) : Store ProposalRecord := do
  if blank args.proposal then
    Prog.raise ⟨.valueError, "proposal must be non-empty"⟩
  else if blank args.idempotencyKey then
    Prog.raise ⟨.valueError, "idempotency_key must be non-empty"⟩
  else
    let snapshot ← ofExcept (snapshotOf host (some args.repository))
    if snapshot.repositoryId.truthy && snapshot.branch.truthy && snapshot.commit.truthy then
      let _ ← registerRepository host args.tenantId args.repository
      let hash ← ofExcept (requestHash host (args.request host snapshot))
      let repositoryId ← ofExcept (bindText host snapshot.repositoryId)
      let db ← look
      match repositoryId.bind fun repositoryId =>
          db.proposals.findBy? (args.tenantId, repositoryId, args.idempotencyKey) with
      | some existing =>
        if existing.requestHash = hash then return proposalRecord existing
        else Prog.raise ⟨.idempotencyConflict, "idempotency key was reused with different input"⟩
      | none =>
        let now ← now
        let fresh ← uuid
        let branch ← ofExcept (bindText host snapshot.branch)
        let commit ← ofExcept (bindText host snapshot.commit)
        let repositoryId ← ofExcept (required repositoryId)
        let branch ← ofExcept (required branch)
        let commit ← ofExcept (required commit)
        let text := args.safeProposal host
        write (insertProposal ⟨"proposal-" ++ fresh, args.tenantId, repositoryId, branch, commit,
          snapshot.dirty, args.idempotencyKey, hash, text, host.sha256 text, "created", false, none,
          none, now, now⟩)
        let db ← look
        let row ← ofExcept (orRaise (db.proposals.find? ("proposal-" ++ fresh))
          ⟨.typeError, "'NoneType' object"⟩)
        return proposalRecord row
    else Prog.raise ⟨.valueError, "repository snapshot is incomplete"⟩

/-- `"repository commit or branch changed; re-analysis required"`. -/
def changedReason : String := "repository commit or branch changed; re-analysis required"

/-- `"evidence hash no longer matches the repository"`. -/
def hashReason : String := "evidence hash no longer matches the repository"

/-- `UPDATE evidence_snapshots SET f WHERE p`. -/
def updateEvidence (p : EvidenceRow → Bool) (f : EvidenceRow → EvidenceRow)
    (hf : Keeps EvidenceRow.evidenceId EvidenceRow.evidenceId (fun _ => true) f) (db : Database) :
    Except Raised Database :=
  .ok { db with evidenceSnapshots := db.evidenceSnapshots.update p f hf }

/-- The update of one item of re-hashed evidence. -/
def revalidateItem (runId tenantId : String) (item : Mapping) : Store Unit := do
  let valid := (item.getD "valid" (.bool false)).truthy
  let authorized := (item.getD "authorized" (.bool false)).truthy
  if (item.get "evidence_id").truthy then
    let evidenceId ← ofExcept (bindText host (item.get "evidence_id"))
    write (updateEvidence
      (fun r => decide (some r.evidenceId = evidenceId ∧ r.tenantId = tenantId))
      (fun r => { r with
        stale := !valid || !authorized || (item.get "content_hash").isNone
        staleReason := if valid then none else some hashReason
        valid, authorized })
      ⟨fun _ => rfl, fun _ => rfl, fun _ _ => rfl⟩)
  else if (item.get "path").truthy then
    let path ← ofExcept (bindText host (item.get "path"))
    write (updateEvidence
      (fun r => decide (r.runId = runId ∧ some r.path = path ∧ r.tenantId = tenantId))
      (fun r => { r with stale := true, staleReason := some hashReason })
      ⟨fun _ => rfl, fun _ => rfl, fun _ _ => rfl⟩)
  else return ()

/-- `for item in evidence`. -/
def revalidateItems (runId tenantId : String) : List Mapping → Store Unit
  | [] => return ()
  | item :: items => do
    revalidateItem host runId tenantId item
    revalidateItems runId tenantId items

/-- The evidence and the report of the latest run, where the repository has changed. -/
def markStale (runId tenantId : String) : Store Unit := do
  write (updateEvidence (fun r => decide (r.runId = runId ∧ r.tenantId = tenantId))
    (fun r => { r with stale := true, staleReason := some changedReason })
    ⟨fun _ => rfl, fun _ => rfl, fun _ _ => rfl⟩)
  let now ← now
  write fun db => .ok { db with
    verificationReports := db.verificationReports.update
      (fun r => decide (r.runId = runId ∧ r.tenantId = tenantId))
      (fun r => { r with stale := true, updatedAt := now })
      ⟨fun _ => rfl, fun _ => rfl, fun _ _ => rfl⟩ }

/-- `result_json` of a stale proposal's run. -/
def markRun (runId tenantId : String) (changed : Bool) : Store Unit := do
  let db ← look
  let run ← ofExcept (getRun runId tenantId db)
  let result ← ofExcept (asDict run.result)
  let resultJson ← ofExcept (safeJson host (.dict (result ++ record
    [("stale_evidence", .bool true), ("verification_blocked", .bool true),
      ("stale_reason", .str (if changed then changedReason else hashReason))])))
  let now ← now
  write fun db => .ok { db with
    productRuns := db.productRuns.update
      (fun r => decide (r.runId = runId ∧ r.tenantId = tenantId))
      (fun r => { r with resultJson, updatedAt := now })
      ⟨fun _ => rfl, fun _ => rfl, fun _ _ => rfl⟩ }

/-- What `revalidate_proposal` writes to the evidence of the latest run. -/
def markEvidence (row : ProposalRow) (tenantId : String) (changed : Bool)
    (evidence : Option (List Mapping)) : Store Unit :=
  if given row.latestRunId then
    if changed then markStale (row.latestRunId.getD "") tenantId
    else revalidateItems host (row.latestRunId.getD "") tenantId (evidence.getD [])
  else return ()

/-- Whether the latest run's evidence is stale. -/
def staleEvidence (row : ProposalRow) (tenantId : String) (changed : Bool) (db : Database) : Bool :=
  given row.latestRunId && (changed || db.evidenceSnapshots.rows.any fun r =>
    decide (r.runId = row.latestRunId.getD "" ∧ r.tenantId = tenantId ∧ r.stale = true))

/-- What `revalidate_proposal` does last, with the latest run. -/
def markLatestRun (row : ProposalRow) (tenantId : String) (changed stale : Bool) : Store Unit :=
  if given row.latestRunId then
    if stale then markRun host (row.latestRunId.getD "") tenantId changed
    else do
      let db ← look
      let _ ← ofExcept (getRun (row.latestRunId.getD "") tenantId db)
      return ()
  else return ()

/-- `revalidate_proposal`. -/
def revalidateProposal (proposalId tenantId : String) (currentRepository : Mapping)
    (evidence : Option (List Mapping)) : Store Bool := do
  let db ← look
  let row ← ofExcept (ownedProposal proposalId tenantId db)
  let current ← ofExcept (snapshotOf host (some currentRepository))
  if differs (some row.repositoryId) current.repositoryId || current.repositoryId.isNone then
    Prog.raise ⟨.tenantScopeError, "repository identity mismatch"⟩
  else
    let changed := snapshotChanged (some row.repositoryId) (some row.branch) (some row.commitSha)
      current
    markEvidence host row tenantId changed evidence
    let db ← look
    let stale := staleEvidence row tenantId changed db
    let now ← now
    write fun db => .ok (updateProposal proposalId tenantId
      (fun r => { r with
        staleEvidence := stale
        staleReason := if changed then some changedReason
          else if stale then some hashReason else none
        state := if stale then "stale" else r.state
        updatedAt := now })
      ⟨fun _ => rfl, fun _ => rfl, fun _ _ => rfl⟩ db)
    markLatestRun host row tenantId changed stale
    return stale

/-! ### Approvals -/

/-- `json.dumps(scopes)`. -/
def dumpScopes (scopes : List String) : String :=
  String.ofList (JsonText.write (.arr (scopes.map .str)))

/-- The arguments of `issue_approval`. -/
structure Issue where
  runId : String
  tenantId : String
  scopes : List String
  expiresAt : String
  planDigest : Option String

/-- The digest a token is bound to. -/
def Issue.boundPlanDigest (args : Issue) (db : Database) : Option String :=
  if given args.planDigest then args.planDigest
  else (db.plans.rows.find? fun r =>
    decide (r.runId = args.runId ∧ r.tenantId = args.tenantId)).map PlanRow.planDigest

/-- The row of a new token. -/
def Issue.row (args : Issue) (run : RunRow) (db : Database) (fresh issuedAt : String) : ApprovalRow :=
  ⟨"approval-" ++ fresh, args.runId, args.tenantId, dumpScopes args.scopes, issuedAt, args.expiresAt,
    false, run.proposalId, run.repositoryId, run.branch, run.commitSha, args.boundPlanDigest db⟩

/-- `INSERT INTO approvals`. -/
def insertApproval (row : ApprovalRow) (db : Database) : Except Raised Database :=
  (orRaise (db.approvals.insert? row) keyTaken).map fun approvals => { db with approvals }

/-- `INSERT INTO proposal_approvals`. -/
def insertProposalApproval (row : ApprovalRow) (now : String) (db : Database) :
    Except Raised Database := do
  let repositoryId ← required row.repositoryId
  let branch ← required row.branch
  let commitSha ← required row.commitSha
  let proposalApprovals ← orRaise (db.proposalApprovals.insert?
    ⟨row.tokenId, row.runId, row.proposalId.getD "", row.tenantId, repositoryId, branch, commitSha,
      row.planDigest.getD "", row.scopesJson, "issued", now, now⟩) keyTaken
  return { db with proposalApprovals }

/-- The row `issue_approval` links to a proposal. -/
def linkApproval (row : ApprovalRow) : Store Unit :=
  if given row.proposalId then do
    let now ← now
    write (insertProposalApproval row now)
  else return ()

/-- `issue_approval`. -/
def issueApproval (args : Issue) : Store ApprovalToken := do
  let db ← look
  let run ← ofExcept (ownedRow args.runId args.tenantId db)
  if given run.repositoryId && !given (args.boundPlanDigest db) then
    Prog.raise ⟨.invalidApproval, "local repository approvals must bind a plan digest"⟩
  else
    let fresh ← uuid
    let issuedAt ← now
    let row := args.row run db fresh issuedAt
    write (insertApproval row)
    linkApproval row
    return ⟨row.tokenId, row.runId, row.tenantId, args.scopes, row.issuedAt, row.expiresAt, false,
      row.repositoryId, row.branch, row.commitSha, row.planDigest, row.proposalId⟩

/-! ### Reports and outputs -/

/-- The payload of `save_report`. -/
def ReleaseReport.payload (r : ReleaseReport) : Mapping :=
  record [("run_id", .str r.runId), ("status", .str r.status),
    ("terminal_state_consistent", .bool r.terminalStateConsistent),
    ("metrics", .dict (record (r.metrics.map fun m => (m.1, .dict m.2)))),
    ("persisted", .bool true), ("verification_status", .ofText? r.verificationStatus),
    ("changed_files", .list (r.changedFiles.map .str)), ("test_results", .list r.testResults),
    ("artifact_ids", .list (r.artifactIds.map .str)), ("trace_id", .ofText? r.traceId),
    ("reason", .ofText? r.reason)]

/-- `INSERT OR REPLACE INTO verification_reports`; a row that is there keeps its date. -/
def replaceVerification (row : VerificationRow) (db : Database) : Except Raised Database :=
  let createdAt := ((db.verificationReports.find? row.runId).map VerificationRow.createdAt).getD
    row.createdAt
  .ok { db with
    verificationReports := db.verificationReports.replace { row with createdAt } rfl }

/-- `save_report`. -/
def saveReport (r : ReleaseReport) (tenantId : String) (stale : Bool) : Store Unit := do
  let db ← look
  let _ ← ofExcept (getRun r.runId tenantId db)
  let encoded ← ofExcept (safeJson host (.dict r.payload))
  let stamp ← now
  write fun db => .ok { db with
    releaseReports := db.releaseReports.replace ⟨r.runId, tenantId, encoded, stamp⟩ rfl }
  let db ← look
  match db.productRuns.rows.find? fun row =>
      decide (row.runId = r.runId ∧ row.tenantId = tenantId) with
  | some run =>
    if given run.proposalId then
      let createdAt ← now
      let updatedAt ← now
      write (replaceVerification ⟨r.runId, run.proposalId.getD "", tenantId, encoded, r.status,
        stale, createdAt, updatedAt⟩)
    else return ()
  | none => return ()

/-- `int(value)`. -/
def toInt : Value → Except Raised ℤ
  | .int n => .ok n
  | .bool b => .ok (if b then 1 else 0)
  | .str s => orRaise (pyInt s) ⟨.valueError, "invalid literal for int()"⟩
  | .float .nan => .error ⟨.valueError, "cannot convert float NaN to integer"⟩
  | .float .infinity => .error ⟨.overflowError, "cannot convert float infinity to integer"⟩
  | .float .negInfinity => .error ⟨.overflowError, "cannot convert float infinity to integer"⟩
  | .float x => .ok (host.wholePart x)
  | _ => .error ⟨.typeError, "int() argument must be a string or a number"⟩

/-- An integer bound to an `INTEGER` column. -/
def bindInt (n : ℤ) : Except Raised ℤ :=
  if -2 ^ 63 ≤ n ∧ n < 2 ^ 63 then .ok n
  else .error ⟨.overflowError, "Python int too large to convert to SQLite INTEGER"⟩

/-- The arguments of `save_proposal_outputs`. -/
structure Outputs where
  proposalId : String
  runId : String
  tenantId : String
  requirements : List Mapping
  evidence : List Mapping
  plan : Option Mapping
  report : Option Mapping
  repositorySnapshot : Mapping

/-- The row of one item of evidence. -/
def evidenceRow (args : Outputs) (checkedCommit : Value) (index : ℕ) (item : Mapping) :
    Except Raised EvidenceRow := do
  let startLine ← toInt host (item.getD "start_line" (.int 1))
  let endLine ← toInt host (item.getD "end_line" (.int 1))
  let requirementId ← bindText host (item.getD "requirement_id" (.str ""))
  let path ← bindText host (item.getD "path" (.str ""))
  let startLine ← bindInt startLine
  let endLine ← bindInt endLine
  let contentHash ← bindText host (item.getD "content_hash" (.str ""))
  let symbol ← bindText host (item.get "symbol")
  let checkedCommit ← bindText host (orEmpty checkedCommit)
  let requirementId ← required requirementId
  let path ← required path
  let contentHash ← required contentHash
  let checkedCommit ← required checkedCommit
  return ⟨args.runId ++ ":evidence:" ++ toString index, args.runId, args.proposalId, args.tenantId,
    requirementId, path, startLine, endLine, contentHash, symbol,
    (item.getD "authorized" (.bool false)).truthy, (item.getD "valid" (.bool false)).truthy, false,
    none, checkedCommit⟩

/-- `for index, item in enumerate(evidence)`. -/
def insertEvidence (args : Outputs) (checkedCommit : Value) : ℕ → List Mapping → Store Unit
  | _, [] => return ()
  | index, item :: items => do
    write fun db => do
      let row ← evidenceRow host args checkedCommit index item
      let evidenceSnapshots ← orRaise (db.evidenceSnapshots.insert? row) keyTaken
      return { db with evidenceSnapshots }
    insertEvidence args checkedCommit (index + 1) items

/-- `INSERT OR REPLACE INTO plans`; a row that is there keeps its date. -/
def replacePlan (row : PlanRow) (db : Database) : Except Raised Database :=
  let createdAt := ((db.plans.find? row.planId).map PlanRow.createdAt).getD row.createdAt
  .ok { db with plans := db.plans.replace { row with createdAt } rfl }

/-- The plan that `save_proposal_outputs` writes. -/
def savePlan (args : Outputs) (now : String) : Store Unit :=
  match args.plan with
  | some plan => do
    let planId := pyStr host (plan.getD "plan_id" (.str ("plan-" ++ args.runId)))
    let encoded ← ofExcept (safeJson host (.dict plan))
    write (replacePlan ⟨planId, args.runId, args.proposalId, args.tenantId,
      textOr encoded "\x7b\x7d", host.sha256 encoded, now⟩)
  | none => return ()

/-- The report that `save_proposal_outputs` writes. -/
def saveOutputReport (args : Outputs) (now : String) : Store Unit :=
  match args.report with
  | some report => do
    let encoded ← ofExcept (safeJson host (.dict report))
    let status := pyStr host (report.getD "status" (.str "unknown"))
    write (replaceVerification ⟨args.runId, args.proposalId, args.tenantId, encoded, status, false,
      now, now⟩)
  | none => return ()

/-- `save_proposal_outputs`. -/
def saveProposalOutputs (args : Outputs) : Store Unit := do
  let db ← look
  let proposal ← ofExcept (ownedProposal args.proposalId args.tenantId db)
  if proposal.latestRunId = some args.runId then
    let snapshot ← ofExcept (snapshotOf host (some args.repositorySnapshot))
    let requirementsJson ← ofExcept (safeJson host (.list (args.requirements.map .dict)))
    let planJson ← ofExcept (match args.plan with
      | some plan => (safeJson host (.dict plan)).map some
      | none => .ok none)
    let now ← now
    write fun db => .ok { db with
      proposalRuns := db.proposalRuns.update
        (fun r => decide (r.runId = args.runId ∧ r.tenantId = args.tenantId))
        (fun r => { r with requirementsJson, planJson, updatedAt := now })
        ⟨fun _ => rfl, fun _ => rfl, fun _ _ => rfl⟩ }
    write fun db => .ok { db with
      evidenceSnapshots := db.evidenceSnapshots.delete
        fun r => decide (r.runId = args.runId ∧ r.tenantId = args.tenantId) }
    insertEvidence host args snapshot.commit 0 args.evidence
    savePlan host args now
    saveOutputReport host args now
    write fun db => .ok (updateProposal args.proposalId args.tenantId
      (fun r => { r with staleEvidence := false, staleReason := none, updatedAt := now })
      ⟨fun _ => rfl, fun _ => rfl, fun _ _ => rfl⟩ db)
  else Prog.raise ⟨.tenantScopeError, "proposal run is not current"⟩

/-- The arguments of `record_artifact`. -/
structure Artifact where
  artifactId : String
  runId : String
  tenantId : String
  kind : String
  digest : String
  path : Option String
  metadata : Option Mapping

/-- `record_artifact`. -/
def recordArtifact (args : Artifact) : Store Unit := do
  let db ← look
  let row ← ofExcept (ownedRow args.runId args.tenantId db)
  if given row.proposalId then
    let metadataJson ← ofExcept (safeJson host (.dict (args.metadata.getD [])))
    let now ← now
    write fun db => .ok { db with
      proposalArtifacts := db.proposalArtifacts.replace ⟨args.artifactId, args.runId,
        row.proposalId.getD "", args.tenantId, args.kind, args.path, args.digest, metadataJson,
        now⟩ rfl }
  else return ()

/-- The arguments of `save_trace`. -/
structure TraceLink where
  runId : String
  tenantId : String
  traceId : Option String
  provider : String
  project : Option String
  consoleUrl : Option String
  exportStatus : String

/-- `save_trace`. -/
def saveTrace (args : TraceLink) : Store Unit := do
  let db ← look
  let row ← ofExcept (ownedRow args.runId args.tenantId db)
  if given row.proposalId then
    let createdAt ← now
    let updatedAt ← now
    write fun db => .ok { db with
      traceCorrelations := db.traceCorrelations.replace ⟨args.runId, row.proposalId.getD "",
        args.tenantId, args.traceId, args.provider, args.project, args.consoleUrl,
        args.exportStatus,
        ((db.traceCorrelations.find? args.runId).map TraceRow.createdAt).getD createdAt,
        updatedAt⟩ rfl }
    let stamp ← now
    write fun db => .ok { db with
      productRuns := db.productRuns.update
        (fun r => decide (r.runId = args.runId ∧ r.tenantId = args.tenantId))
        (fun r => { r with traceId := args.traceId, updatedAt := stamp })
        ⟨fun _ => rfl, fun _ => rfl, fun _ _ => rfl⟩ }
  else return ()

end AiSaas.Kernel
