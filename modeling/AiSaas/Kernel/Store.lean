import AiSaas.Kernel.Schema
import AiSaas.Lib.Processes

/-!
# The kernel store

`KernelStore` of `agent_platform/storage.py`.  An operation that opens a transaction is
the body of one; the others are programs over single statements, each of which SQLite
commits by itself, so that what they have written stays when they raise.

## Main definitions

* `Snapshot`, `snapshotOf`, `snapshotChanged` — `_snapshot` and `_snapshot_changed`.
* `createRun`, `transition`, `appendEvent`, `saveCheckpoint`, `consumeApproval` — the bodies
  of the transactions.
* `getRun`, `events`, `checkpoint`, `report`, `proposalView`, … — the reads.
* `StoreOp`, `StoreOp.exec` — the statements programs are made of.
* `recordUsage`, `createProposal`, `revalidateProposal`, `issueApproval`, `saveReport`,
  `saveProposalOutputs`, `recordArtifact`, `saveTrace` — the other writing operations.
-/

namespace AiSaas.Kernel

open Relational Transaction Processes

variable (host : Host)

/-! ### Snapshots -/

/-- A repository as `_snapshot` returns it. -/
structure Snapshot where
  repositoryId : Value
  canonicalPath : Value
  name : Value
  branch : Value
  commit : Value
  dirty : Bool
  capabilities : List String

/-- The snapshot as a `dict`. -/
def Snapshot.dict (s : Snapshot) : Mapping :=
  record [("repository_id", s.repositoryId), ("canonical_path", s.canonicalPath), ("name", s.name),
    ("branch", s.branch), ("commit", s.commit), ("dirty", .bool s.dirty),
    ("capabilities", .tuple (s.capabilities.map .str))]

/-- `tuple(str(item) for item in value or ())`. -/
def iterated (value : Value) : Except Raised (List String) :=
  if value.truthy then
    match value with
    | .list items => .ok (items.map (pyStr host))
    | .tuple items => .ok (items.map (pyStr host))
    | .str s => .ok (s.toList.map String.singleton)
    | .dict items => .ok ((items.map Prod.fst).eraseDups.map Key.text)
    | _ => .error ⟨.typeError, "object is not iterable"⟩
  else .ok []

/-- `_snapshot`. -/
def snapshotOf (snapshot : Option Mapping) : Except Raised Snapshot :=
  let source := snapshot.getD []
  (iterated host (source.getD "capabilities" (.tuple []))).map fun capabilities =>
    { repositoryId := source.get "repository_id"
      canonicalPath := source.get "canonical_path"
      name := source.get "name"
      branch := source.get "branch"
      commit := source.getD "commit" (source.get "head_commit")
      dirty := (source.getD "dirty" (.bool false)).truthy
      capabilities }

/-- A text is there and not empty. -/
def given (text : Option String) : Bool := text.any fun s => decide (s ≠ "")

/-- Whether a stored text and a value are both there and differ. -/
def differs (left : Option String) (right : Value) : Bool :=
  match left, right with
  | none, _ => false
  | some _, .none => false
  | some l, .str r => decide (l ≠ r)
  | some _, _ => true

/-- `_snapshot_changed`. -/
def snapshotChanged (repositoryId branch commit : Option String) (right : Snapshot) : Bool :=
  differs repositoryId right.repositoryId || differs branch right.branch ||
    differs commit right.commit

/-! ### Binding values -/

/-- A value bound to a `TEXT` column. -/
def bindText : Value → Except Raised (Option String)
  | .none => .ok none
  | .bool b => .ok (some (if b then "1" else "0"))
  | .int n =>
    if -2 ^ 63 ≤ n ∧ n < 2 ^ 63 then .ok (some (toString n))
    else .error ⟨.overflowError, "Python int too large to convert to SQLite INTEGER"⟩
  | .float x => .ok (if x = .nan then none else some (host.realText x))
  | .str s => .ok (some s)
  | _ => .error ⟨.programmingError, "type is not supported"⟩

/-- `value or ""`. -/
def orEmpty (value : Value) : Value := if value.truthy then value else .str ""

/-- The value of a `NOT NULL` column. -/
def required (text : Option String) : Except Raised String :=
  orRaise text ⟨.integrityError, "NOT NULL constraint failed"⟩

/-- `sqlite3.IntegrityError` of a key that is taken. -/
def keyTaken : Raised := ⟨.integrityError, "UNIQUE constraint failed"⟩

/-! ### Rows and records -/

/-- `_owned_row`. -/
def ownedRow (runId tenantId : String) (db : Database) : Except Raised RunRow :=
  match db.productRuns.find? runId with
  | some row =>
    if row.tenantId = tenantId then .ok row
    else .error ⟨.tenantScopeError, "run is not visible to this tenant"⟩
  | none => .error ⟨.tenantScopeError, "run is not visible to this tenant"⟩

/-- `_owned_proposal`. -/
def ownedProposal (proposalId tenantId : String) (db : Database) : Except Raised ProposalRow :=
  match db.proposals.find? proposalId with
  | some row =>
    if row.tenantId = tenantId then .ok row
    else .error ⟨.tenantScopeError, "proposal is not visible to this tenant"⟩
  | none => .error ⟨.tenantScopeError, "proposal is not visible to this tenant"⟩

/-- `text or other`. -/
def textOr (text other : String) : String := if text = "" then other else text

/-- `_run`. -/
def lifecycle (row : RunRow) : Except Raised RunLifecycle :=
  (loads (textOr row.resultJson "\x7b\x7d")).map fun result =>
    ⟨row.runId, row.tenantId, row.idempotencyKey, row.state, row.mode, row.sequence, row.error,
      row.approvalId, result, row.proposalId, row.repositoryId, row.branch, row.commitSha,
      row.traceId⟩

/-- The `dict` of a loaded value. -/
def asDict : JsonText.Value → Except Raised Mapping
  | .obj members => .ok (ofMembers members)
  | _ => .error ⟨.attributeError, "object has no attribute 'update'"⟩

/-- The texts of a loaded list. -/
def asTexts : JsonText.Value → List String
  | .arr items => items.filterMap fun item => match item with
    | .str s => some s
    | _ => none
  | _ => []

/-! ### Transactions -/

/-- `_append_event_locked`. -/
def appendEventLocked (d : Draw) (runId tenantId : String) (sequence : ℕ) (event : String)
    (payload : Mapping) (db : Database) : Except Raised Database := do
  let payloadJson ← safeJson host (.dict payload)
  let productEvents ← orRaise (db.productEvents.insert?
    ⟨"event-" ++ d.uuid 0, runId, tenantId, sequence, event, payloadJson, host.isoformat (d.now 0)⟩)
    keyTaken
  return { db with productEvents }

/-- `UPDATE product_runs SET f WHERE run_id = ?`. -/
def updateRun (runId : String) (f : RunRow → RunRow)
    (hf : Keeps RunRow.runId RunRow.requestKey (fun _ => true) f) (db : Database) : Database :=
  { db with productRuns := db.productRuns.update (fun r => decide (r.runId = runId)) f hf }

/-- `UPDATE proposals SET f WHERE proposal_id = ? AND tenant_id = ?`. -/
def updateProposal (proposalId tenantId : String) (f : ProposalRow → ProposalRow)
    (hf : Keeps ProposalRow.proposalId ProposalRow.requestKey (fun _ => true) f) (db : Database) :
    Database :=
  let hit : ProposalRow → Bool := fun r => decide (r.proposalId = proposalId ∧ r.tenantId = tenantId)
  { db with proposals := db.proposals.update hit f hf }

/-- The arguments of `create_run`. -/
structure NewRun where
  runId : String
  tenantId : String
  idempotencyKey : String
  mode : String
  payload : Mapping
  proposalId : Option String
  repositorySnapshot : Option Mapping
  traceId : Option String

/-- What `create_run` hashes. -/
def NewRun.request (args : NewRun) (snapshot : Snapshot) : Value :=
  .dict (args.payload ++ record [("repository_snapshot", .dict snapshot.dict)])

/-- The check of `create_run` that a proposal is of the tenant and of the repository. -/
def checkProposal (args : NewRun) (snapshot : Snapshot) (db : Database) : Except Raised Unit :=
  if given args.proposalId then do
    let proposal ← ownedProposal (args.proposalId.getD "") args.tenantId db
    ensure (!(snapshot.repositoryId.truthy && differs (some proposal.repositoryId)
      snapshot.repositoryId))
      ⟨.tenantScopeError, "proposal repository does not match the requested repository"⟩
  else .ok ()

/-- The rows `create_run` links to the proposal of a new run. -/
def linkProposal (args : NewRun) (now : String) (repositoryId : Option String)
    (branch commit : Value) (db : Database) : Except Raised Database :=
  if given args.proposalId then do
    let proposalId := args.proposalId.getD ""
    let branch ← bindText host (orEmpty branch)
    let commit ← bindText host (orEmpty commit)
    let repositoryId ← required repositoryId
    let branch ← required branch
    let commit ← required commit
    let row : ProposalRunRow := ⟨args.runId, proposalId, args.tenantId, repositoryId, branch,
      commit, args.idempotencyKey, "[]", none, now, now⟩
    return updateProposal proposalId args.tenantId
      (fun r => { r with latestRunId := some args.runId, updatedAt := now })
      ⟨fun _ => rfl, fun _ => rfl, fun _ _ => rfl⟩
      { db with proposalRuns := db.proposalRuns.replace row rfl }
  else .ok db

/-- The rows of a new run. -/
def insertRun (args : NewRun) (snapshot : Snapshot) (requestHash : String) (d : Draw)
    (db : Database) : Except Raised Database := do
  let now := host.isoformat (d.now 0)
  let repositoryId ← bindText host snapshot.repositoryId
  let branch ← bindText host snapshot.branch
  let commit ← bindText host snapshot.commit
  let row : RunRow := ⟨args.runId, args.tenantId, args.idempotencyKey, requestHash, args.mode,
    .queued, 1, none, none, "\x7b\x7d", now, now, args.proposalId, repositoryId, branch, commit,
    snapshot.dirty, args.traceId⟩
  let productRuns ← orRaise (db.productRuns.insert? row) keyTaken
  let db ← appendEventLocked host ⟨fun n => d.now (n + 1), d.uuid⟩ args.runId args.tenantId 1
    "run.queued" (record [("mode", .str args.mode)] ++ snapshot.dict) { db with productRuns }
  linkProposal host args now repositoryId snapshot.branch snapshot.commit db

/-- `self._run(self._db.execute("SELECT * FROM product_runs WHERE run_id = ?"))`. -/
def reread (runId : String) (db : Database) : Except Raised (RunLifecycle × Database) := do
  let row ← orRaise (db.productRuns.find? runId) ⟨.typeError, "'NoneType' object"⟩
  let run ← lifecycle row
  return (run, db)

/-- `create_run`. -/
def createRun (args : NewRun) (d : Draw) : Tx Raised Database RunLifecycle := fun db => do
  let snapshot ← snapshotOf host args.repositorySnapshot
  let hash ← requestHash host (args.request snapshot)
  checkProposal args snapshot db
  match db.productRuns.findBy? (args.tenantId, args.idempotencyKey) with
  | some existing =>
    ensure (existing.requestHash == hash)
      ⟨.idempotencyConflict, "idempotency key was reused with different input"⟩
    let run ← lifecycle existing
    return (run, db)
  | none =>
    let db ← insertRun host args snapshot hash d db
    reread args.runId db

/-- The arguments of `transition`. -/
structure Move where
  runId : String
  tenantId : String
  state : String
  payload : Option Mapping
  error : Option String

/-- `dict(redact(payload or {}))`. -/
def Move.safePayload (args : Move) : Mapping := redactEntries host (args.payload.getD [])

/-- The state that `transition` is asked for, if a run may move there. -/
def target? (row : RunRow) (state : String) : Option RunState :=
  row.state.allowed.find? fun s => decide (s.text = state)

/-- `transition`. -/
def transition (args : Move) (d : Draw) : Tx Raised Database RunLifecycle := fun db => do
  let row ← ownedRow args.runId args.tenantId db
  let state ← orRaise (target? row args.state)
    ⟨.valueError, row.state.text ++ " -> " ++ args.state ++ " is not allowed"⟩
  let sequence := row.sequence + 1
  let db ← appendEventLocked host d args.runId args.tenantId sequence "run.state_changed"
    (record [("state", .str args.state)] ++ args.safePayload host) db
  let existing ← loads (textOr row.resultJson "\x7b\x7d")
  let existing ← asDict existing
  let resultJson ← safeJson host (.dict (existing ++ args.safePayload host))
  let approvalId ← bindText host ((args.payload.getD []).get "approval_id")
  let db := updateRun args.runId
    (fun r => { r with
      state, sequence, error := args.error, approvalId := approvalId.or r.approvalId, resultJson,
      updatedAt := host.isoformat (d.now 1) })
    ⟨fun _ => rfl, fun _ => rfl, fun _ _ => rfl⟩ db
  let db := if given row.proposalId then
    updateProposal (row.proposalId.getD "") args.tenantId
      (fun r => { r with state := args.state, updatedAt := host.isoformat (d.now 2) })
      ⟨fun _ => rfl, fun _ => rfl, fun _ _ => rfl⟩ db
    else db
  reread args.runId db

/-- `append_event`. -/
def appendEvent (runId tenantId event : String) (payload : Mapping) (d : Draw) :
    Tx Raised Database Unit := fun db => do
  let row ← ownedRow runId tenantId db
  let sequence := row.sequence + 1
  let db ← appendEventLocked host d runId tenantId sequence event payload db
  return ((), updateRun runId
    (fun r => { r with sequence, updatedAt := host.isoformat (d.now 1) })
    ⟨fun _ => rfl, fun _ => rfl, fun _ _ => rfl⟩ db)

/-- `save_checkpoint`. -/
def saveCheckpoint (runId tenantId node : String) (state : Mapping) (d : Draw) :
    Tx Raised Database Unit := fun db => do
  let _ ← ownedRow runId tenantId db
  let stateJson ← safeJson host (redact host (.dict state))
  let now := host.isoformat (d.now 0)
  return ((), { db with
    graphCheckpoints := db.graphCheckpoints.upsert ⟨runId, tenantId, node, stateJson, now⟩
      (fun c => { c with node, stateJson, updatedAt := now })
      ⟨fun _ => rfl, fun _ => rfl, fun _ _ => rfl⟩ })

/-- The arguments of `consume_approval`. -/
structure Consumption where
  tokenId : String
  runId : String
  tenantId : String
  scope : String
  currentRepository : Option Mapping
  planDigest : Option String

/-- `datetime.fromisoformat(text) <= now`. -/
def expired (text : String) (now : ℤ) : Except Raised Bool := do
  match ← host.fromisoformat text with
  | .aware t => return decide (t ≤ now)
  | .naive _ => .error ⟨.typeError, "can't compare offset-naive and offset-aware datetimes"⟩

/-- The checks of `consume_approval` on the repository a token is bound to. -/
def checkRepository (row : ApprovalRow) (currentRepository : Option Mapping) :
    Except Raised Unit :=
  if given row.repositoryId then
    match currentRepository with
    | none => .error ⟨.invalidApproval, "approval repository binding is required"⟩
    | some repository => do
      let current ← snapshotOf host (some repository)
      ensure (!(snapshotChanged row.repositoryId row.branch row.commitSha current) &&
        (given row.repositoryId && given row.branch && given row.commitSha))
        ⟨.invalidApproval, "approval is stale for the current repository commit"⟩
  else .ok ()

/-- The checks of `consume_approval` on the plan a token is bound to. -/
def checkPlan (row : ApprovalRow) (planDigest : Option String) : Except Raised Unit := do
  ensure (!(given row.planDigest && (!given planDigest || decide (planDigest ≠ row.planDigest))))
    ⟨.invalidApproval, "approval is bound to a different plan"⟩
  ensure (!(given planDigest && !given row.planDigest))
    ⟨.invalidApproval, "approval is missing its plan binding"⟩

/-- An `approvals` row as a token. -/
def tokenOf (row : ApprovalRow) (consumed : Bool) : Except Raised ApprovalToken :=
  (loads row.scopesJson).map fun scopes =>
    ⟨row.tokenId, row.runId, row.tenantId, asTexts scopes, row.issuedAt, row.expiresAt, consumed,
      row.repositoryId, row.branch, row.commitSha, row.planDigest, row.proposalId⟩

/-- `consume_approval`. -/
def consumeApproval (args : Consumption) (d : Draw) : Tx Raised Database ApprovalToken := fun db => do
  let invalid : Raised := ⟨.invalidApproval, "approval token is invalid or already consumed"⟩
  let row ← orRaise (db.approvals.find? args.tokenId) invalid
  ensure (decide (row.runId = args.runId) && decide (row.tenantId = args.tenantId) && !row.consumed)
    invalid
  let scopes ← loads row.scopesJson
  ensure (decide (args.scope ∈ asTexts scopes))
    ⟨.invalidApproval, "approval token does not grant the requested scope"⟩
  let elapsed ← expired host row.expiresAt (d.now 0)
  ensure (!elapsed) ⟨.invalidApproval, "approval token is expired"⟩
  checkRepository host row args.currentRepository
  checkPlan row args.planDigest
  let token ← tokenOf row true
  return (token, { db with
    approvals := db.approvals.update (fun r => decide (r.tokenId = args.tokenId))
      (fun r => { r with consumed := true }) ⟨fun _ => rfl, fun _ => rfl, fun _ _ => rfl⟩
    proposalApprovals := db.proposalApprovals.update
      (fun r => decide (r.tokenId = args.tokenId ∧ r.tenantId = args.tenantId))
      (fun r => { r with status := "consumed", updatedAt := host.isoformat (d.now 1) })
      ⟨fun _ => rfl, fun _ => rfl, fun _ _ => rfl⟩ })

end AiSaas.Kernel
