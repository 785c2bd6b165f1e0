import AiSaas.Kernel.Effects
import AiSaas.Lib.Interrupts

/-!
# Calls of the kernel store

Every operation of `KernelStore` that writes, as a program of statements.  A session is
a database and the calls that were made on it, one after another; a call is run for as
many statements as it is given draws for, and so may be cut off between two of them.

## Main definitions

* `Call`, `Call.program` — the operations.
* `Session`, `Session.make`, `Made` — calls that were made.
* `Lasting` — rows keep what is never written again.
* `Steady` — what the statements of the programs meet.

## Main results

* `Call.asks_lasting`, `Session.lasting` — every call keeps what lasts.
-/

namespace AiSaas.Kernel

open Relational Transaction Processes Store

/-- A call of an operation that writes. -/
inductive Call where
  | createRun (args : NewRun)
  | transition (args : Move)
  | appendEvent (runId tenantId event : String) (payload : Mapping)
  | saveCheckpoint (runId tenantId node : String) (state : Mapping)
  | recordUsage (usage : UsageRecord) (tenantId : Option String)
  | registerRepository (tenantId : String) (repo : Mapping)
  | createProposal (args : NewProposal)
  | revalidateProposal (proposalId tenantId : String) (currentRepository : Mapping)
      (evidence : Option (List Mapping))
  | issueApproval (args : Issue)
  | consumeApproval (args : Consumption)
  | saveReport (report : ReleaseReport) (tenantId : String) (stale : Bool)
  | saveProposalOutputs (args : Outputs)
  | recordArtifact (args : Artifact)
  | saveTrace (args : TraceLink)

namespace Call

/-- What a call returns. -/
abbrev Result : Call → Type
  | createRun _ => RunLifecycle
  | transition _ => RunLifecycle
  | appendEvent .. => Unit
  | saveCheckpoint .. => Unit
  | recordUsage .. => Unit
  | registerRepository .. => RepositoryRecord
  | createProposal _ => ProposalRecord
  | revalidateProposal .. => Bool
  | issueApproval _ => ApprovalToken
  | consumeApproval _ => ApprovalToken
  | saveReport .. => Unit
  | saveProposalOutputs _ => Unit
  | recordArtifact _ => Unit
  | saveTrace _ => Unit

/-- The program of a call. -/
def program (host : Host) : (c : Call) → Store c.Result
  | createRun args => Prog.perform (StoreOp.createRun args)
  | transition args => Prog.perform (StoreOp.transition args)
  | appendEvent runId tenantId event payload =>
    Prog.perform (StoreOp.appendEvent runId tenantId event payload)
  | saveCheckpoint runId tenantId node state =>
    Prog.perform (StoreOp.saveCheckpoint runId tenantId node state)
  | recordUsage usage tenantId => Kernel.recordUsage host usage tenantId
  | registerRepository tenantId repo => Kernel.registerRepository host tenantId repo
  | createProposal args => Kernel.createProposal host args
  | revalidateProposal proposalId tenantId currentRepository evidence =>
    Kernel.revalidateProposal host proposalId tenantId currentRepository evidence
  | issueApproval args => Kernel.issueApproval args
  | consumeApproval args => Prog.perform (StoreOp.consumeApproval args)
  | saveReport report tenantId stale => Kernel.saveReport host report tenantId stale
  | saveProposalOutputs args => Kernel.saveProposalOutputs host args
  | recordArtifact args => Kernel.recordArtifact host args
  | saveTrace args => Kernel.saveTrace args

end Call

/-! ### Sessions -/

/-- A call that was made: what it was given, the database it found, and how far it came. -/
structure Made where
  call : Call
  draws : List Draw
  before : Database
  ran : Ran StoreOp StoreOp.Ans Raised call.Result Database

/-- A database and the calls that were made on it, newest first. -/
structure Session where
  db : Database
  calls : List Made

namespace Session

/-- A session on a freshly created file. -/
def new : Session := ⟨Database.empty, []⟩

/-- One more call. -/
def make (host : Host) (s : Session) (c : Call × List Draw) : Session :=
  let ran := (c.1.program host).run (StoreOp.exec host) c.2 [] s.db
  ⟨ran.state, ⟨c.1, c.2, s.db, ran⟩ :: s.calls⟩

end Session

/-! ### What lasts -/

/-- A run's row without the columns that are written again. -/
def RunRow.lasting (r : RunRow) : RunRow :=
  { r with
    state := .queued, sequence := 0, error := none, approvalId := none, resultJson := ""
    updatedAt := "", traceId := none }

/-- A proposal's row without the columns that are written again. -/
def ProposalRow.lasting (r : ProposalRow) : ProposalRow :=
  { r with
    state := "", staleEvidence := false, staleReason := none, latestRunId := none
    updatedAt := "" }

/-- A token's row without whether it is consumed. -/
def ApprovalRow.lasting (r : ApprovalRow) : ApprovalRow := { r with consumed := false }

/-- Runs, proposals and tokens stay, with what is never written again, and a token that
is consumed stays so. -/
structure Lasting (db db' : Database) : Prop where
  runs : Persist RunRow.lasting db.productRuns.rows db'.productRuns.rows
  proposals : Persist ProposalRow.lasting db.proposals.rows db'.proposals.rows
  approvals : Persist ApprovalRow.lasting db.approvals.rows db'.approvals.rows
  consumed : ∀ r ∈ db.approvals.rows, r.consumed = true → r ∈ db'.approvals.rows

theorem lasting_refl (db : Database) : Lasting db db :=
  ⟨persist_refl _, persist_refl _, persist_refl _, fun _ hr _ => hr⟩

theorem Lasting.trans {db db' db'' : Database} (h : Lasting db db') (h' : Lasting db' db'') :
    Lasting db db'' :=
  ⟨h.runs.trans h'.runs, h.proposals.trans h'.proposals, h.approvals.trans h'.approvals,
    fun r hr hc => h'.consumed r (h.consumed r hr hc) hc⟩

/-- A statement that keeps what lasts. -/
def StoreOp.Lasts (host : Host) (op : StoreOp) : Prop :=
  ∀ (d : Draw) (db : Database), Lasting db (op.exec host d db).2

section Statements

variable {host : Host}

/-- A write keeps a reflexive relation if it does where it returns. -/
theorem write_rel {R : Database → Database → Prop} (hrefl : ∀ db, R db db)
    {statement : Database → Except Raised Database}
    (h : ∀ db db', statement db = .ok db' → R db db') (d : Draw) (db : Database) :
    R db ((StoreOp.write statement).exec host d db).2 := by
  refine snd_atomically_of (hrefl db) fun u db' hok => ?_
  cases hs : statement db with
  | error e => rw [hs] at hok; cases hok
  | ok db₁ =>
    rw [hs] at hok
    obtain ⟨-, rfl⟩ := Prod.mk.inj (Except.ok.inj hok)
    exact h db db₁ hs

theorem lasts_write {statement : Database → Except Raised Database}
    (h : ∀ db db', statement db = .ok db' → Lasting db db') : (StoreOp.write statement).Lasts host :=
  write_rel lasting_refl h

/-- A transaction keeps a reflexive relation if its body does where it returns. -/
theorem atomically_rel {α : Type} {R : Database → Database → Prop} (hrefl : ∀ db, R db db)
    {body : Tx Raised Database α} {db : Database}
    (h : ∀ a db', body db = .ok (a, db') → R db db') : R db (atomically body db).2 :=
  snd_atomically_of (hrefl db) h

theorem updateProposal_lasting {p t : String} {f : ProposalRow → ProposalRow}
    {hf : Keeps ProposalRow.proposalId ProposalRow.requestKey (fun _ => true) f} {db : Database}
    (h : ∀ r, (f r).lasting = r.lasting) : Lasting db (updateProposal p t f hf db) :=
  ⟨persist_refl _, persist_setWhere h _, persist_refl _, fun _ hr _ => hr⟩

theorem linkProposal_lasting {args : NewRun} {now : String} {repositoryId : Option String}
    {branch commit : Value} {db db' : Database}
    (h : linkProposal host args now repositoryId branch commit db = .ok db') : Lasting db db' := by
  obtain ⟨-, rfl⟩ | ⟨row, -, -, -, -, -, rfl⟩ := linkProposal_eq_ok h
  · exact lasting_refl _
  · refine Lasting.trans (lasting_refl db) (Lasting.trans ?_ (updateProposal_lasting fun _ => rfl))
    exact ⟨persist_refl _, persist_refl _, persist_refl _, fun _ hr _ => hr⟩

theorem lasts_createRun (args : NewRun) : (StoreOp.createRun args).Lasts host := by
  intro d db
  refine atomically_rel lasting_refl fun run db' hok => ?_
  obtain ⟨snapshot, hash, -, -, -, ⟨-, -, -, -, rfl⟩ | ⟨-, row, stored, hrow, -, -⟩⟩ :=
    createRun_eq_ok hok
  · exact lasting_refl _
  · obtain ⟨text, productRuns, productEvents, -, hruns, -, hlink⟩ := hrow.tables
    have hinserted : Lasting db { db with productRuns, productEvents } := by
      refine ⟨?_, persist_refl _, persist_refl _, fun _ hr _ => hr⟩
      change Persist RunRow.lasting db.productRuns.rows productRuns.rows
      rw [(Table.insert?_eq_some hruns).1]
      exact persist_append _ _
    exact hinserted.trans (linkProposal_lasting hlink)

/-- Runs that stay, told by their keys. -/
theorem persist_of_find? {runs runs' : Table RunRow.runId RunRow.requestKey fun _ => true}
    {runId : String} {row row' : RunRow} (hrow : runs.find? runId = some row)
    (hrows : ∀ x, runs'.find? x = if x = runId then some row' else runs.find? x)
    (hlasting : row'.lasting = row.lasting) : Persist RunRow.lasting runs.rows runs'.rows := by
  intro r hr
  have hfind := hrows r.runId
  by_cases hx : r.runId = runId
  · rw [if_pos hx] at hfind
    refine ⟨row', (Table.find?_eq_some.mp hfind).1, ?_⟩
    rw [← hx, Table.find?_of_mem hr] at hrow
    rw [hlasting, Option.some.inj hrow]
  · rw [if_neg hx, Table.find?_of_mem hr] at hfind
    exact ⟨r, (Table.find?_eq_some.mp hfind).1, rfl⟩

theorem lasts_transition (args : Move) : (StoreOp.transition args).Lasts host := by
  intro d db
  refine atomically_rel lasting_refl fun run db' hok => ?_
  obtain ⟨row, state, text, row', hmoved, -, productRuns, productEvents, proposals, rfl, hproposals⟩ :=
    transition_eq_ok hok
  obtain ⟨value, members, resultJson, approvalId, -, -, -, hrow'⟩ := hmoved.result
  refine ⟨persist_of_find? hmoved.found hmoved.rows (by rw [hrow']; rfl), ?_, persist_refl _,
    fun _ hr _ => hr⟩
  obtain rfl | ⟨-, now, rfl⟩ := hproposals
  · exact persist_refl _
  · refine persist_setWhere ?_ _
    exact fun _ => rfl

theorem lasts_appendEvent (r t event : String) (payload : Mapping) :
    (StoreOp.appendEvent r t event payload).Lasts host := by
  intro d db
  refine atomically_rel lasting_refl fun u db' hok => ?_
  obtain ⟨row, text, productRuns, productEvents, hfound, -, -, -, hruns, rfl⟩ := appendEvent_eq_ok hok
  exact ⟨persist_of_find? hfound hruns rfl, persist_refl _, persist_refl _, fun _ hr _ => hr⟩

theorem lasts_saveCheckpoint (r t node : String) (state : Mapping) :
    (StoreOp.saveCheckpoint r t node state).Lasts host := by
  intro d db
  refine atomically_rel lasting_refl fun u db' hok => ?_
  obtain ⟨row, text, graphCheckpoints, -, -, -, -, rfl⟩ := saveCheckpoint_eq_ok hok
  exact ⟨persist_refl _, persist_refl _, persist_refl _, fun _ hr _ => hr⟩

theorem lasts_consumeApproval (args : Consumption) : (StoreOp.consumeApproval args).Lasts host := by
  intro d db
  refine atomically_rel lasting_refl fun token db' hok => ?_
  obtain ⟨row, -, -, -, approvals, proposalApprovals, rfl, happrovals, -⟩ := consumeApproval_eq_ok hok
  have hmem : ∀ r ∈ db.approvals.rows,
      (if r.tokenId = args.tokenId then { r with consumed := true } else r) ∈ approvals.rows := by
    intro r hr
    have hfind := happrovals r.tokenId
    rw [Table.find?_of_mem hr] at hfind
    exact (Table.find?_eq_some.mp hfind).1
  refine ⟨persist_refl _, persist_refl _, fun r hr => ⟨_, hmem r hr, ?_⟩, fun r hr hc => ?_⟩
  · split <;> rfl
  · have hsame := hmem r hr
    have heq : ({ r with consumed := true } : ApprovalRow) = r := by rw [← hc]
    rw [heq, ite_self] at hsame
    exact hsame

theorem lasts_look : StoreOp.look.Lasts host := fun _ db => lasting_refl db

theorem lasts_now : StoreOp.now.Lasts host := fun _ db => lasting_refl db

theorem lasts_uuid : StoreOp.uuid.Lasts host := fun _ db => lasting_refl db

end Statements

/-! ### What the programs ask for -/

/-- A statement that leaves runs, proposals and tokens alone. -/
def Aside (statement : Database → Except Raised Database) : Prop :=
  ∀ db db', statement db = .ok db' → db'.productRuns = db.productRuns ∧
    db'.proposals = db.proposals ∧ db'.approvals = db.approvals

/-- A statement that writes usage, repositories, evidence, plans or traces alone. -/
def Apart (statement : Database → Except Raised Database) : Prop :=
  ∀ db db', statement db = .ok db' →
    ∃ modelUsage repositories evidenceSnapshots plans traceCorrelations, db' = { db with
      modelUsage, repositories, evidenceSnapshots, plans, traceCorrelations }

theorem Apart.aside {statement : Database → Except Raised Database} (h : Apart statement) :
    Aside statement := by
  intro db db' hok
  obtain ⟨modelUsage, repositories, evidenceSnapshots, plans, traceCorrelations, rfl⟩ := h db db' hok
  exact ⟨rfl, rfl, rfl⟩

/-- What the statements meet that write nothing but usage, repositories, evidence, plans and
traces. -/
structure Quiet (P : StoreOp → Prop) : Prop where
  look : P .look
  now : P .now
  uuid : P .uuid
  apart : ∀ {statement}, Apart statement → P (.write statement)

/-- What the statements meet that write neither proposals nor tokens. -/
structure Incidental (P : StoreOp → Prop) : Prop where
  look : P .look
  now : P .now
  uuid : P .uuid
  aside : ∀ {statement}, Aside statement → P (.write statement)
  run : ∀ {p f} (hf : Keeps RunRow.runId RunRow.requestKey (fun _ => true) f),
    (∀ r, (f r).lasting = r.lasting) →
      P (.write fun db => .ok { db with productRuns := db.productRuns.update p f hf })

theorem Incidental.quiet {P : StoreOp → Prop} (h : Incidental P) : Quiet P :=
  ⟨h.look, h.now, h.uuid, fun hs => h.aside hs.aside⟩

/-- What all the statements of the programs meet, but for the writing of tokens. -/
structure Steady (P : StoreOp → Prop) : Prop extends Incidental P where
  newProposal : ∀ row, P (.write (insertProposal row))
  proposal : ∀ {p t f} (hf : Keeps ProposalRow.proposalId ProposalRow.requestKey (fun _ => true) f),
    (∀ r, (f r).lasting = r.lasting) → P (.write fun db => .ok (updateProposal p t f hf db))

section Programs

variable {host : Host} {P : StoreOp → Prop}

section Asks

variable {α β : Type}

theorem asks_ofExcept_bind {x : Except Raised α} {next : α → Store β}
    (h : ∀ a, x = .ok a → (next a).Asks P) : (ofExcept x >>= next).Asks P :=
  Prog.asks_done_bind h

theorem asks_look_bind (hP : P .look) {next : Database → Store β} (h : ∀ db, (next db).Asks P) :
    (look >>= next).Asks P := (Prog.asks_perform hP).bind h

theorem asks_now_bind (hP : P .now) {next : String → Store β} (h : ∀ t, (next t).Asks P) :
    (now >>= next).Asks P := (Prog.asks_perform hP).bind h

theorem asks_uuid_bind (hP : P .uuid) {next : String → Store β} (h : ∀ t, (next t).Asks P) :
    (uuid >>= next).Asks P := (Prog.asks_perform hP).bind h

theorem asks_write {statement : Database → Except Raised Database} (hP : P (.write statement)) :
    (write statement).Asks P := Prog.asks_perform hP

theorem asks_write_bind {statement : Database → Except Raised Database}
    (hP : P (.write statement)) {next : Unit → Store β} (h : ∀ u, (next u).Asks P) :
    (write statement >>= next).Asks P := (asks_write hP).bind h

end Asks

theorem asks_recordUsage (hP : Quiet P) (usage : UsageRecord) (tenantId : Option String) :
    (recordUsage host usage tenantId).Asks P := by
  unfold recordUsage
  refine asks_look_bind hP.look fun db => ?_
  refine asks_ofExcept_bind fun tenant _ => ?_
  refine asks_ofExcept_bind fun _ _ => ?_
  refine asks_ofExcept_bind fun encoded _ => ?_
  have hinsert : Apart (insertUsage ⟨usage.runId, usage.callId, encoded⟩) := by
    intro db db' hok
    obtain ⟨modelUsage, -, rfl⟩ := map_eq_ok.mp hok
    exact ⟨_, _, _, _, _, rfl⟩
  refine Prog.Asks.bind (Prog.Asks.attempt (asks_write (hP.apart hinsert))) fun r => ?_
  rcases r with e | u
  · refine Prog.Asks.ite (fun _ => ?_) fun _ => .done _
    refine asks_look_bind hP.look fun db => ?_
    exact Prog.Asks.ite (fun _ => .done _) fun _ => .done _
  · exact .done _

theorem asks_registerRepository (hP : Quiet P) (tenantId : String) (repo : Mapping) :
    (registerRepository host tenantId repo).Asks P := by
  unfold registerRepository
  refine asks_ofExcept_bind fun snapshot _ => Prog.Asks.ite (fun _ => ?_) fun _ => .done _
  refine asks_now_bind hP.now fun now => ?_
  refine asks_ofExcept_bind fun capabilities _ => ?_
  refine asks_write_bind (hP.apart fun db db' hok => ?_) fun _ =>
    asks_look_bind hP.look fun _ => .done _
  simp only [upsertRepository, bind_eq_ok] at hok
  obtain ⟨_, -, _, -, _, -, _, -, _, -, _, -, _, -, _, -, _, -, _, -, _, -, hok⟩ := hok
  obtain rfl := Except.ok.inj hok
  exact ⟨_, _, _, _, _, rfl⟩

theorem asks_createProposal_new (hP : Quiet P)
    (hnew : ∀ row : ProposalRow, row.state = "created" → row.staleEvidence = false →
      row.latestRunId = none → P (.write (insertProposal row))) (args : NewProposal) : (createProposal host args).Asks P := by
  unfold createProposal
  refine Prog.Asks.ite (fun _ => .done _) fun _ => Prog.Asks.ite (fun _ => .done _) fun _ => ?_
  refine asks_ofExcept_bind fun snapshot _ => Prog.Asks.ite (fun _ => ?_) fun _ => .done _
  refine (asks_registerRepository hP _ _).bind fun _ => ?_
  refine asks_ofExcept_bind fun hash _ => asks_ofExcept_bind fun repositoryId _ => ?_
  refine asks_look_bind hP.look fun db => ?_
  split
  · exact Prog.Asks.ite (fun _ => .done _) fun _ => .done _
  · refine asks_now_bind hP.now fun now => asks_uuid_bind hP.uuid fun fresh => ?_
    refine asks_ofExcept_bind fun branch _ => asks_ofExcept_bind fun commit _ => ?_
    refine asks_ofExcept_bind fun repositoryId _ => asks_ofExcept_bind fun branch _ => ?_
    refine asks_ofExcept_bind fun commit _ => ?_
    refine asks_write_bind (hnew _ rfl rfl rfl) fun _ => ?_
    refine asks_look_bind hP.look fun db => ?_
    exact asks_ofExcept_bind fun _ _ => .done _

theorem asks_createProposal (hP : Steady P) (args : NewProposal) :
    (createProposal host args).Asks P :=
  asks_createProposal_new hP.toIncidental.quiet (fun row _ _ _ => hP.newProposal row) args

theorem apart_updateEvidence (p : EvidenceRow → Bool) (f : EvidenceRow → EvidenceRow)
    (hf : Keeps EvidenceRow.evidenceId EvidenceRow.evidenceId (fun _ => true) f) :
    Apart (updateEvidence p f hf) := by
  intro db db' hok
  obtain rfl := Except.ok.inj hok
  exact ⟨_, _, _, _, _, rfl⟩

theorem asks_revalidateItems (hP : Quiet P) (runId tenantId : String) (items : List Mapping) :
    (revalidateItems host runId tenantId items).Asks P := by
  induction items with
  | nil => exact .done _
  | cons item items ih =>
    rw [revalidateItems]
    refine Prog.Asks.bind ?_ fun _ => ih
    unfold revalidateItem
    refine Prog.Asks.ite (fun _ => ?_) fun _ => Prog.Asks.ite (fun _ => ?_) fun _ => .done _
    · exact asks_ofExcept_bind fun _ _ => asks_write (hP.apart (apart_updateEvidence _ _ _))
    · exact asks_ofExcept_bind fun _ _ => asks_write (hP.apart (apart_updateEvidence _ _ _))

theorem asks_markStale (hP : Incidental P) (runId tenantId : String) :
    (markStale runId tenantId).Asks P := by
  unfold markStale
  refine asks_write_bind (hP.aside (apart_updateEvidence _ _ _).aside) fun _ => asks_now_bind hP.now fun now => ?_
  refine asks_write (hP.aside fun db db' hok => ?_)
  obtain rfl := Except.ok.inj hok
  exact ⟨rfl, rfl, rfl⟩

theorem asks_markRun (hP : Incidental P) (runId tenantId : String) (changed : Bool) :
    (markRun host runId tenantId changed).Asks P := by
  unfold markRun
  refine asks_look_bind hP.look fun db => asks_ofExcept_bind fun run _ => ?_
  refine asks_ofExcept_bind fun result _ => asks_ofExcept_bind fun resultJson _ => ?_
  exact asks_now_bind hP.now fun now => asks_write (hP.run _ fun _ => rfl)

theorem asks_markEvidence (hP : Incidental P) (row : ProposalRow) (tenantId : String) (changed : Bool)
    (evidence : Option (List Mapping)) :
    (markEvidence host row tenantId changed evidence).Asks P := by
  unfold markEvidence
  exact Prog.Asks.ite (fun _ => Prog.Asks.ite (fun _ => asks_markStale hP _ _)
    fun _ => asks_revalidateItems hP.quiet _ _ _) fun _ => .done _

theorem asks_markLatestRun (hP : Incidental P) (row : ProposalRow) (tenantId : String) (changed stale : Bool) :
    (markLatestRun host row tenantId changed stale).Asks P := by
  unfold markLatestRun
  refine Prog.Asks.ite (fun _ => Prog.Asks.ite (fun _ => asks_markRun hP _ _ _) fun _ => ?_)
    fun _ => .done _
  exact asks_look_bind hP.look fun db => asks_ofExcept_bind fun _ _ => .done _

theorem asks_revalidateProposal (hP : Steady P) (proposalId tenantId : String) (current : Mapping)
    (evidence : Option (List Mapping)) :
    (revalidateProposal host proposalId tenantId current evidence).Asks P := by
  unfold revalidateProposal
  refine asks_look_bind hP.look fun db => asks_ofExcept_bind fun row _ => ?_
  refine asks_ofExcept_bind fun snapshot _ => Prog.Asks.ite (fun _ => .done _) fun _ => ?_
  refine (asks_markEvidence hP.toIncidental _ _ _ _).bind fun _ => asks_look_bind hP.look fun db => ?_
  refine asks_now_bind hP.now fun now => asks_write_bind (hP.proposal _ ?_) fun _ => ?_
  · exact fun _ => rfl
  · exact (asks_markLatestRun hP.toIncidental _ _ _ _).bind fun _ => .done _

theorem asks_linkApproval (hP : Incidental P) (row : ApprovalRow) :
    (linkApproval row).Asks P := by
  unfold linkApproval
  refine Prog.Asks.ite (fun _ => ?_) fun _ => .done _
  refine asks_now_bind hP.now fun now => asks_write (hP.aside fun db db' hok => ?_)
  simp only [insertProposalApproval, bind_eq_ok] at hok
  obtain ⟨_, -, _, -, _, -, _, -, hok⟩ := hok
  obtain rfl := Except.ok.inj hok
  exact ⟨rfl, rfl, rfl⟩

theorem asks_issueApproval (hP : Incidental P) (htoken : ∀ row, P (.write (insertApproval row)))
    (args : Issue) : (issueApproval args).Asks P := by
  unfold issueApproval
  refine asks_look_bind hP.look fun db => asks_ofExcept_bind fun run _ => ?_
  refine Prog.Asks.ite (fun _ => .done _) fun _ => ?_
  refine asks_uuid_bind hP.uuid fun fresh => asks_now_bind hP.now fun issuedAt => ?_
  refine asks_write_bind (htoken _) fun _ => ?_
  exact (asks_linkApproval hP _).bind fun _ => .done _

theorem aside_replaceVerification (row : VerificationRow) : Aside (replaceVerification row) := by
  intro db db' hok
  obtain rfl := Except.ok.inj hok
  exact ⟨rfl, rfl, rfl⟩

theorem asks_saveReport (hP : Incidental P) (report : ReleaseReport) (tenantId : String) (stale : Bool) :
    (saveReport host report tenantId stale).Asks P := by
  unfold saveReport
  refine asks_look_bind hP.look fun db => asks_ofExcept_bind fun _ _ => ?_
  refine asks_ofExcept_bind fun encoded _ => asks_now_bind hP.now fun stamp => ?_
  refine asks_write_bind (hP.aside fun db db' hok => ?_) fun _ => ?_
  · obtain rfl := Except.ok.inj hok
    exact ⟨rfl, rfl, rfl⟩
  · refine asks_look_bind hP.look fun db => ?_
    split
    · refine Prog.Asks.ite (fun _ => ?_) fun _ => .done _
      refine asks_now_bind hP.now fun createdAt => asks_now_bind hP.now fun updatedAt => ?_
      exact asks_write (hP.aside (aside_replaceVerification _))
    · exact .done _

theorem asks_insertEvidence (hP : Quiet P) (args : Outputs) (checkedCommit : Value) (index : ℕ)
    (items : List Mapping) :
    (insertEvidence host args checkedCommit index items).Asks P := by
  induction items generalizing index with
  | nil => exact .done _
  | cons item items ih =>
    rw [insertEvidence]
    refine asks_write_bind (hP.apart fun db db' hok => ?_) fun _ => ih _
    simp only [bind_eq_ok] at hok
    obtain ⟨_, -, _, -, hok⟩ := hok
    obtain rfl := Except.ok.inj hok
    exact ⟨_, _, _, _, _, rfl⟩

theorem asks_savePlan (hP : Quiet P) (args : Outputs) (now : String) :
    (savePlan host args now).Asks P := by
  unfold savePlan
  split
  · refine asks_ofExcept_bind fun encoded _ => asks_write (hP.apart fun db db' hok => ?_)
    obtain rfl := Except.ok.inj hok
    exact ⟨_, _, _, _, _, rfl⟩
  · exact .done _

theorem asks_saveOutputReport (hP : Incidental P) (args : Outputs) (now : String) :
    (saveOutputReport host args now).Asks P := by
  unfold saveOutputReport
  split
  · exact asks_ofExcept_bind fun encoded _ => asks_write (hP.aside (aside_replaceVerification _))
  · exact .done _

theorem asks_saveProposalOutputs (hP : Steady P) (args : Outputs) :
    (saveProposalOutputs host args).Asks P := by
  unfold saveProposalOutputs
  refine asks_look_bind hP.look fun db => asks_ofExcept_bind fun proposal _ => ?_
  refine Prog.Asks.ite (fun _ => ?_) fun _ => .done _
  refine asks_ofExcept_bind fun snapshot _ => asks_ofExcept_bind fun requirementsJson _ => ?_
  refine asks_ofExcept_bind fun planJson _ => asks_now_bind hP.now fun now => ?_
  refine asks_write_bind (hP.aside fun db db' hok => ?_) fun _ => ?_
  · obtain rfl := Except.ok.inj hok
    exact ⟨rfl, rfl, rfl⟩
  refine asks_write_bind (hP.aside fun db db' hok => ?_) fun _ => ?_
  · obtain rfl := Except.ok.inj hok
    exact ⟨rfl, rfl, rfl⟩
  refine (asks_insertEvidence hP.toIncidental.quiet _ _ _ _).bind fun _ =>
    (asks_savePlan hP.toIncidental.quiet _ _).bind fun _ => ?_
  exact (asks_saveOutputReport hP.toIncidental _ _).bind fun _ => asks_write (hP.proposal _ fun _ => rfl)

theorem asks_recordArtifact (hP : Incidental P) (args : Artifact) :
    (recordArtifact host args).Asks P := by
  unfold recordArtifact
  refine asks_look_bind hP.look fun db => asks_ofExcept_bind fun row _ => ?_
  refine Prog.Asks.ite (fun _ => ?_) fun _ => .done _
  refine asks_ofExcept_bind fun metadataJson _ => asks_now_bind hP.now fun now => ?_
  refine asks_write (hP.aside fun db db' hok => ?_)
  obtain rfl := Except.ok.inj hok
  exact ⟨rfl, rfl, rfl⟩

theorem asks_saveTrace (hP : Incidental P) (args : TraceLink) : (saveTrace args).Asks P := by
  unfold saveTrace
  refine asks_look_bind hP.look fun db => asks_ofExcept_bind fun row _ => ?_
  refine Prog.Asks.ite (fun _ => ?_) fun _ => .done _
  refine asks_now_bind hP.now fun createdAt => asks_now_bind hP.now fun updatedAt => ?_
  refine asks_write_bind (hP.aside fun db db' hok => ?_) fun _ => ?_
  · obtain rfl := Except.ok.inj hok
    exact ⟨rfl, rfl, rfl⟩
  exact asks_now_bind hP.now fun stamp => asks_write (hP.run _ fun _ => rfl)

end Programs

/-! ### What every call keeps -/

section Keeping

variable {host : Host}

theorem lasts_insertProposal (row : ProposalRow) :
    (StoreOp.write (insertProposal row)).Lasts host := by
  refine lasts_write fun db db' hok => ?_
  obtain ⟨proposals, hinsert, rfl⟩ := map_eq_ok.mp hok
  refine ⟨persist_refl _, ?_, persist_refl _, fun _ hr _ => hr⟩
  change Persist ProposalRow.lasting db.proposals.rows proposals.rows
  rw [(Table.insert?_eq_some (orRaise_eq_ok.mp hinsert)).1]
  exact persist_append _ _

/-- An update of runs that leaves alone what lasts. -/
theorem lasting_runs {db : Database} {p : RunRow → Bool} {f : RunRow → RunRow}
    {hf : Keeps RunRow.runId RunRow.requestKey (fun _ => true) f}
    (h : ∀ r, (f r).lasting = r.lasting) :
    Lasting db { db with productRuns := db.productRuns.update p f hf } :=
  ⟨persist_setWhere h _, persist_refl _, persist_refl _, fun _ hr _ => hr⟩

/-- A write to proposals that leaves alone what lasts. -/
theorem lasts_updateProposal {p t : String} {f : ProposalRow → ProposalRow}
    {hf : Keeps ProposalRow.proposalId ProposalRow.requestKey (fun _ => true) f}
    (h : ∀ r, (f r).lasting = r.lasting) :
    (StoreOp.write fun db => .ok (updateProposal p t f hf db)).Lasts host := by
  refine lasts_write fun db db' hok => ?_
  obtain rfl := Except.ok.inj hok
  exact updateProposal_lasting h

theorem lasts_insertApproval (row : ApprovalRow) :
    (StoreOp.write (insertApproval row)).Lasts host := by
  refine lasts_write fun db db' hok => ?_
  obtain ⟨approvals, hinsert, rfl⟩ := map_eq_ok.mp hok
  obtain ⟨hrows, -⟩ := Table.insert?_eq_some (orRaise_eq_ok.mp hinsert)
  refine ⟨persist_refl _, persist_refl _, ?_, fun r hr _ => ?_⟩
  · change Persist ApprovalRow.lasting db.approvals.rows approvals.rows
    rw [hrows]
    exact persist_append _ _
  · change r ∈ approvals.rows
    rw [hrows]
    exact List.mem_append_left _ hr

/-- A write that leaves runs, proposals and tokens alone. -/
theorem lasts_aside {statement : Database → Except Raised Database} (h : Aside statement) :
    (StoreOp.write statement).Lasts host := by
  refine lasts_write fun db db' hok => ?_
  obtain ⟨hruns, hproposals, happrovals⟩ := h db db' hok
  refine ⟨?_, ?_, ?_, ?_⟩
  · rw [hruns]
    exact persist_refl _
  · rw [hproposals]
    exact persist_refl _
  · rw [happrovals]
    exact persist_refl _
  · rw [happrovals]
    exact fun _ hr _ => hr

theorem steady_lasts : Steady (StoreOp.Lasts host) where
  look := lasts_look
  now := lasts_now
  uuid := lasts_uuid
  aside := lasts_aside
  run hf h := lasts_write fun db db' hok => by
    obtain rfl := Except.ok.inj hok
    exact lasting_runs h
  newProposal := lasts_insertProposal
  proposal hf h := lasts_updateProposal h

/-- **Every call keeps what lasts.** -/
theorem Call.asks_lasting (c : Call) : (c.program host).Asks (StoreOp.Lasts host) := by
  cases c with
  | createRun args => exact Prog.asks_perform (lasts_createRun args)
  | transition args => exact Prog.asks_perform (lasts_transition args)
  | appendEvent r t event payload => exact Prog.asks_perform (lasts_appendEvent r t event payload)
  | saveCheckpoint r t node state => exact Prog.asks_perform (lasts_saveCheckpoint r t node state)
  | recordUsage usage t => exact asks_recordUsage steady_lasts.toIncidental.quiet usage t
  | registerRepository t repo => exact asks_registerRepository steady_lasts.toIncidental.quiet t repo
  | createProposal args => exact asks_createProposal steady_lasts args
  | revalidateProposal p t current evidence =>
    exact asks_revalidateProposal steady_lasts p t current evidence
  | issueApproval args => exact asks_issueApproval steady_lasts.toIncidental lasts_insertApproval args
  | consumeApproval args => exact Prog.asks_perform (lasts_consumeApproval args)
  | saveReport report t stale => exact asks_saveReport steady_lasts.toIncidental report t stale
  | saveProposalOutputs args => exact asks_saveProposalOutputs steady_lasts args
  | recordArtifact args => exact asks_recordArtifact steady_lasts.toIncidental args
  | saveTrace args => exact asks_saveTrace steady_lasts.toIncidental args

end Keeping

/-- What lasts, lasts over any calls. -/
theorem Session.lasting (host : Host) (s : Session) (calls : List (Call × List Draw)) :
    Lasting s.db (Runs.final (Session.make host) s calls).db :=
  Runs.rel_final (R := fun s s' : Session => Lasting s.db s'.db) (I := fun _ => True)
    (fun s => lasting_refl s.db) Lasting.trans (fun _ _ _ => trivial)
    (fun s c _ => c.1.asks_lasting.run_rel lasting_refl Lasting.trans (fun _ h => h) c.2 s.db)
    trivial calls

end AiSaas.Kernel
