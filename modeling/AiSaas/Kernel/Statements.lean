import AiSaas.Kernel.Calls

/-!
# The statements of the kernel store

Which statements the programs of `KernelStore` are made of, told apart as far as they write
to runs, proposals, tokens, usage, checkpoints and reports.

## Main definitions

* `Piece`, `Statement` — the statements of the programs, and the transactions.
* `Durable` — what no statement takes away.
* `Still` — runs are in states they were in, or new.

## Main results

* `Call.asks_statement` — the programs consist of them.
* `Statement.durable` — nothing that lasts is taken away.
* `Statement.still`, `transition_moves` — only a transition moves a run.
-/

namespace AiSaas.Kernel

open Relational Transaction Processes Store

/-- A statement that leaves runs, proposals, tokens, usage, checkpoints and reports alone. -/
def Unwatched (statement : Database → Except Raised Database) : Prop :=
  ∀ db db', statement db = .ok db' → db'.productRuns = db.productRuns ∧
    db'.proposals = db.proposals ∧ db'.approvals = db.approvals ∧
    db'.modelUsage = db.modelUsage ∧ db'.graphCheckpoints = db.graphCheckpoints ∧
    db'.releaseReports = db.releaseReports

/-- `INSERT OR REPLACE INTO release_reports`. -/
def writeReport (row : ReportRow) (db : Database) : Except Raised Database :=
  .ok { db with releaseReports := db.releaseReports.replace row rfl }

/-- The statements that the programs of more than one are made of. -/
inductive Piece : StoreOp → Prop
  | look : Piece .look
  | now : Piece .now
  | uuid : Piece .uuid
  | aside {statement : Database → Except Raised Database} (h : Unwatched statement) :
      Piece (.write statement)
  | usage (row : UsageRow) : Piece (.write (insertUsage row))
  | newProposal (row : ProposalRow) : Piece (.write (insertProposal row))
  | proposal {p t : String} {f : ProposalRow → ProposalRow}
      (hf : Keeps ProposalRow.proposalId ProposalRow.requestKey (fun _ => true) f)
      (h : ∀ r, (f r).lasting = r.lasting) :
      Piece (.write fun db => .ok (updateProposal p t f hf db))
  | run {p : RunRow → Bool} {f : RunRow → RunRow}
      (hf : Keeps RunRow.runId RunRow.requestKey (fun _ => true) f)
      (h : ∀ r, (f r).lasting = r.lasting ∧ (f r).state = r.state) :
      Piece (.write fun db => .ok { db with productRuns := db.productRuns.update p f hf })
  | approval (row : ApprovalRow) : Piece (.write (insertApproval row))
  | report (row : ReportRow) : Piece (.write (writeReport row))

/-- The statements of the store: pieces, and transactions. -/
inductive Statement : StoreOp → Prop
  | piece {op : StoreOp} (h : Piece op) : Statement op
  | createRun (args : NewRun) : Statement (.createRun args)
  | transition (args : Move) : Statement (.transition args)
  | appendEvent (runId tenantId event : String) (payload : Mapping) :
      Statement (.appendEvent runId tenantId event payload)
  | saveCheckpoint (runId tenantId node : String) (state : Mapping) :
      Statement (.saveCheckpoint runId tenantId node state)
  | consumeApproval (args : Consumption) : Statement (.consumeApproval args)

/-! ### What the programs consist of -/

section Programs

variable {host : Host} {α : Type}

theorem asks_recordUsage_pieces (usage : UsageRecord) (tenantId : Option String) :
    (recordUsage host usage tenantId).Asks Piece := by
  unfold recordUsage
  refine asks_look_bind .look fun db => asks_ofExcept_bind fun tenant _ => ?_
  refine asks_ofExcept_bind fun _ _ => asks_ofExcept_bind fun encoded _ => ?_
  refine Prog.Asks.bind (Prog.Asks.attempt (asks_write (.usage _))) fun r => ?_
  rcases r with e | u
  · refine Prog.Asks.ite (fun _ => ?_) fun _ => .done _
    exact asks_look_bind .look fun db => Prog.Asks.ite (fun _ => .done _) fun _ => .done _
  · exact .done _

theorem unwatched_upsertRepository {t : String} {snapshot : Snapshot} {rootId : Value}
    {capabilities now : String} :
    Unwatched (upsertRepository host t snapshot rootId capabilities now) := by
  intro db db' hok
  simp only [upsertRepository, bind_eq_ok] at hok
  obtain ⟨_, -, _, -, _, -, _, -, _, -, _, -, _, -, _, -, _, -, _, -, _, -, hok⟩ := hok
  obtain rfl := Except.ok.inj hok
  exact ⟨rfl, rfl, rfl, rfl, rfl, rfl⟩

theorem asks_registerRepository_pieces (tenantId : String) (repo : Mapping) :
    (registerRepository host tenantId repo).Asks Piece := by
  unfold registerRepository
  refine asks_ofExcept_bind fun snapshot _ => Prog.Asks.ite (fun _ => ?_) fun _ => .done _
  refine asks_now_bind .now fun now => asks_ofExcept_bind fun capabilities _ => ?_
  refine asks_write_bind (Piece.aside unwatched_upsertRepository) fun _ => ?_
  exact asks_look_bind .look fun _ => .done _

theorem asks_createProposal_pieces (args : NewProposal) :
    (createProposal host args).Asks Piece := by
  unfold createProposal
  refine Prog.Asks.ite (fun _ => .done _) fun _ => Prog.Asks.ite (fun _ => .done _) fun _ => ?_
  refine asks_ofExcept_bind fun snapshot _ => Prog.Asks.ite (fun _ => ?_) fun _ => .done _
  refine (asks_registerRepository_pieces _ _).bind fun _ => ?_
  refine asks_ofExcept_bind fun hash _ => asks_ofExcept_bind fun repositoryId _ => ?_
  refine asks_look_bind .look fun db => ?_
  split
  · exact Prog.Asks.ite (fun _ => .done _) fun _ => .done _
  · refine asks_now_bind .now fun now => asks_uuid_bind .uuid fun fresh => ?_
    refine asks_ofExcept_bind fun branch _ => asks_ofExcept_bind fun commit _ => ?_
    refine asks_ofExcept_bind fun repositoryId _ => asks_ofExcept_bind fun branch _ => ?_
    refine asks_ofExcept_bind fun commit _ => asks_write_bind (.newProposal _) fun _ => ?_
    exact asks_look_bind .look fun db => asks_ofExcept_bind fun _ _ => .done _

theorem unwatched_updateEvidence (p : EvidenceRow → Bool) (f : EvidenceRow → EvidenceRow)
    (hf : Keeps EvidenceRow.evidenceId EvidenceRow.evidenceId (fun _ => true) f) :
    Unwatched (updateEvidence p f hf) := by
  intro db db' hok
  obtain rfl := Except.ok.inj hok
  exact ⟨rfl, rfl, rfl, rfl, rfl, rfl⟩

theorem asks_revalidateItems_pieces (runId tenantId : String) (items : List Mapping) :
    (revalidateItems host runId tenantId items).Asks Piece := by
  induction items with
  | nil => exact .done _
  | cons item items ih =>
    rw [revalidateItems]
    refine Prog.Asks.bind ?_ fun _ => ih
    unfold revalidateItem
    refine Prog.Asks.ite (fun _ => ?_) fun _ => Prog.Asks.ite (fun _ => ?_) fun _ => .done _
    · exact asks_ofExcept_bind fun _ _ => asks_write (Piece.aside (unwatched_updateEvidence _ _ _))
    · exact asks_ofExcept_bind fun _ _ => asks_write (Piece.aside (unwatched_updateEvidence _ _ _))

theorem asks_markEvidence_pieces (row : ProposalRow) (tenantId : String) (changed : Bool)
    (evidence : Option (List Mapping)) :
    (markEvidence host row tenantId changed evidence).Asks Piece := by
  unfold markEvidence
  refine Prog.Asks.ite (fun _ => Prog.Asks.ite (fun _ => ?_) fun _ => ?_) fun _ => .done _
  · unfold markStale
    refine asks_write_bind (Piece.aside (unwatched_updateEvidence _ _ _)) fun _ => ?_
    refine asks_now_bind .now fun now => asks_write (Piece.aside fun db db' hok => ?_)
    obtain rfl := Except.ok.inj hok
    exact ⟨rfl, rfl, rfl, rfl, rfl, rfl⟩
  · exact asks_revalidateItems_pieces _ _ _

theorem asks_markLatestRun_pieces (row : ProposalRow) (tenantId : String)
    (changed stale : Bool) : (markLatestRun host row tenantId changed stale).Asks Piece := by
  unfold markLatestRun
  refine Prog.Asks.ite (fun _ => Prog.Asks.ite (fun _ => ?_) fun _ => ?_) fun _ => .done _
  · unfold markRun
    refine asks_look_bind .look fun db => asks_ofExcept_bind fun run _ => ?_
    refine asks_ofExcept_bind fun result _ => asks_ofExcept_bind fun resultJson _ => ?_
    exact asks_now_bind .now fun now => asks_write (Piece.run _ fun _ => ⟨rfl, rfl⟩)
  · exact asks_look_bind .look fun db => asks_ofExcept_bind fun _ _ => .done _

theorem asks_revalidateProposal_pieces (proposalId tenantId : String) (current : Mapping)
    (evidence : Option (List Mapping)) :
    (revalidateProposal host proposalId tenantId current evidence).Asks Piece := by
  unfold revalidateProposal
  refine asks_look_bind .look fun db => asks_ofExcept_bind fun row _ => ?_
  refine asks_ofExcept_bind fun snapshot _ => Prog.Asks.ite (fun _ => .done _) fun _ => ?_
  refine (asks_markEvidence_pieces _ _ _ _).bind fun _ => asks_look_bind .look fun db => ?_
  refine asks_now_bind .now fun now => asks_write_bind (Piece.proposal _ ?_) fun _ => ?_
  · exact fun _ => rfl
  · exact (asks_markLatestRun_pieces _ _ _ _).bind fun _ => .done _

theorem asks_linkApproval_pieces (row : ApprovalRow) : (linkApproval row).Asks Piece := by
  unfold linkApproval
  refine Prog.Asks.ite (fun _ => ?_) fun _ => .done _
  refine asks_now_bind .now fun now => asks_write (Piece.aside fun db db' hok => ?_)
  simp only [insertProposalApproval, bind_eq_ok] at hok
  obtain ⟨_, -, _, -, _, -, _, -, hok⟩ := hok
  obtain rfl := Except.ok.inj hok
  exact ⟨rfl, rfl, rfl, rfl, rfl, rfl⟩

theorem asks_issueApproval_pieces (args : Issue) : (issueApproval args).Asks Piece := by
  unfold issueApproval
  refine asks_look_bind .look fun db => asks_ofExcept_bind fun run _ => ?_
  refine Prog.Asks.ite (fun _ => .done _) fun _ => ?_
  refine asks_uuid_bind .uuid fun fresh => asks_now_bind .now fun issuedAt => ?_
  refine asks_write_bind (.approval _) fun _ => ?_
  exact (asks_linkApproval_pieces _).bind fun _ => .done _

theorem unwatched_replaceVerification (row : VerificationRow) :
    Unwatched (replaceVerification row) := by
  intro db db' hok
  obtain rfl := Except.ok.inj hok
  exact ⟨rfl, rfl, rfl, rfl, rfl, rfl⟩

theorem asks_saveReport_pieces (report : ReleaseReport) (tenantId : String) (stale : Bool) :
    (saveReport host report tenantId stale).Asks Piece := by
  unfold saveReport
  refine asks_look_bind .look fun db => asks_ofExcept_bind fun _ _ => ?_
  refine asks_ofExcept_bind fun encoded _ => asks_now_bind .now fun stamp => ?_
  refine asks_write_bind (.report ⟨report.runId, tenantId, encoded, stamp⟩) fun _ => ?_
  refine asks_look_bind .look fun db => ?_
  split
  · refine Prog.Asks.ite (fun _ => ?_) fun _ => .done _
    refine asks_now_bind .now fun createdAt => asks_now_bind .now fun updatedAt => ?_
    exact asks_write (Piece.aside (unwatched_replaceVerification _))
  · exact .done _

theorem asks_insertEvidence_pieces (args : Outputs) (checkedCommit : Value) (index : ℕ)
    (items : List Mapping) :
    (insertEvidence host args checkedCommit index items).Asks Piece := by
  induction items generalizing index with
  | nil => exact .done _
  | cons item items ih =>
    rw [insertEvidence]
    refine asks_write_bind (Piece.aside fun db db' hok => ?_) fun _ => ih _
    simp only [bind_eq_ok] at hok
    obtain ⟨_, -, _, -, hok⟩ := hok
    obtain rfl := Except.ok.inj hok
    exact ⟨rfl, rfl, rfl, rfl, rfl, rfl⟩

theorem asks_savePlan_pieces (args : Outputs) (now : String) :
    (savePlan host args now).Asks Piece := by
  unfold savePlan
  split
  · refine asks_ofExcept_bind fun encoded _ => asks_write (Piece.aside fun db db' hok => ?_)
    obtain rfl := Except.ok.inj hok
    exact ⟨rfl, rfl, rfl, rfl, rfl, rfl⟩
  · exact .done _

theorem asks_saveOutputReport_pieces (args : Outputs) (now : String) :
    (saveOutputReport host args now).Asks Piece := by
  unfold saveOutputReport
  split
  · exact asks_ofExcept_bind fun encoded _ =>
      asks_write (Piece.aside (unwatched_replaceVerification _))
  · exact .done _

theorem asks_saveProposalOutputs_pieces (args : Outputs) :
    (saveProposalOutputs host args).Asks Piece := by
  unfold saveProposalOutputs
  refine asks_look_bind .look fun db => asks_ofExcept_bind fun proposal _ => ?_
  refine Prog.Asks.ite (fun _ => ?_) fun _ => .done _
  refine asks_ofExcept_bind fun snapshot _ => asks_ofExcept_bind fun requirementsJson _ => ?_
  refine asks_ofExcept_bind fun planJson _ => asks_now_bind .now fun now => ?_
  refine asks_write_bind (Piece.aside fun db db' hok => ?_) fun _ => ?_
  · obtain rfl := Except.ok.inj hok
    exact ⟨rfl, rfl, rfl, rfl, rfl, rfl⟩
  refine asks_write_bind (Piece.aside fun db db' hok => ?_) fun _ => ?_
  · obtain rfl := Except.ok.inj hok
    exact ⟨rfl, rfl, rfl, rfl, rfl, rfl⟩
  refine (asks_insertEvidence_pieces _ _ _ _).bind fun _ =>
    (asks_savePlan_pieces _ _).bind fun _ => ?_
  exact (asks_saveOutputReport_pieces _ _).bind fun _ =>
    asks_write (.proposal _ fun _ => rfl)

theorem asks_recordArtifact_pieces (args : Artifact) :
    (recordArtifact host args).Asks Piece := by
  unfold recordArtifact
  refine asks_look_bind .look fun db => asks_ofExcept_bind fun row _ => ?_
  refine Prog.Asks.ite (fun _ => ?_) fun _ => .done _
  refine asks_ofExcept_bind fun metadataJson _ => asks_now_bind .now fun now => ?_
  refine asks_write (Piece.aside fun db db' hok => ?_)
  obtain rfl := Except.ok.inj hok
  exact ⟨rfl, rfl, rfl, rfl, rfl, rfl⟩

theorem asks_saveTrace_pieces (args : TraceLink) : (saveTrace args).Asks Piece := by
  unfold saveTrace
  refine asks_look_bind .look fun db => asks_ofExcept_bind fun row _ => ?_
  refine Prog.Asks.ite (fun _ => ?_) fun _ => .done _
  refine asks_now_bind .now fun createdAt => asks_now_bind .now fun updatedAt => ?_
  refine asks_write_bind (Piece.aside fun db db' hok => ?_) fun _ => ?_
  · obtain rfl := Except.ok.inj hok
    exact ⟨rfl, rfl, rfl, rfl, rfl, rfl⟩
  exact asks_now_bind .now fun stamp => asks_write (Piece.run _ fun _ => ⟨rfl, rfl⟩)

/-- **The programs consist of these statements.** -/
theorem Call.asks_statement (c : Call) : (c.program host).Asks Statement := by
  have hpieces : ∀ {α : Type} {prog : Store α}, prog.Asks Piece → prog.Asks Statement :=
    fun h => h.mono fun _ => .piece
  cases c with
  | createRun args => exact Prog.asks_perform (.createRun args)
  | transition args => exact Prog.asks_perform (.transition args)
  | appendEvent r t event payload => exact Prog.asks_perform (.appendEvent r t event payload)
  | saveCheckpoint r t node state => exact Prog.asks_perform (.saveCheckpoint r t node state)
  | recordUsage usage t => exact hpieces (asks_recordUsage_pieces usage t)
  | registerRepository t repo => exact hpieces (asks_registerRepository_pieces t repo)
  | createProposal args => exact hpieces (asks_createProposal_pieces args)
  | revalidateProposal p t current evidence =>
    exact hpieces (asks_revalidateProposal_pieces p t current evidence)
  | issueApproval args => exact hpieces (asks_issueApproval_pieces args)
  | consumeApproval args => exact Prog.asks_perform (.consumeApproval args)
  | saveReport report t stale => exact hpieces (asks_saveReport_pieces report t stale)
  | saveProposalOutputs args => exact hpieces (asks_saveProposalOutputs_pieces args)
  | recordArtifact args => exact hpieces (asks_recordArtifact_pieces args)
  | saveTrace args => exact hpieces (asks_saveTrace_pieces args)

end Programs

/-! ### What the statements keep -/

/-- Nothing that lasts is taken away: besides what `Lasting` says, usage stays, and a run
that has a checkpoint or a report goes on having one. -/
structure Durable (db db' : Database) : Prop extends Lasting db db' where
  usage : ∀ u ∈ db.modelUsage.rows, u ∈ db'.modelUsage.rows
  checkpoints : Persist CheckpointRow.runId db.graphCheckpoints.rows db'.graphCheckpoints.rows
  reports : Persist ReportRow.runId db.releaseReports.rows db'.releaseReports.rows

theorem durable_refl (db : Database) : Durable db db :=
  ⟨lasting_refl db, fun _ hu => hu, persist_refl _, persist_refl _⟩

theorem Durable.trans {db db' db'' : Database} (h : Durable db db') (h' : Durable db' db'') :
    Durable db db'' :=
  ⟨h.toLasting.trans h'.toLasting, fun u hu => h'.usage u (h.usage u hu),
    h.checkpoints.trans h'.checkpoints, h.reports.trans h'.reports⟩

section Keeping

variable {host : Host} {op : StoreOp} {d : Draw} {db db' : Database}

theorem Piece.lasts (h : Piece op) : op.Lasts host := by
  cases h with
  | look => exact lasts_look
  | now => exact lasts_now
  | uuid => exact lasts_uuid
  | aside h => exact lasts_aside fun db db' hok => ⟨(h db db' hok).1, (h db db' hok).2.1,
      (h db db' hok).2.2.1⟩
  | usage row =>
    refine lasts_aside fun db db' hok => ?_
    obtain ⟨modelUsage, -, rfl⟩ := map_eq_ok.mp hok
    exact ⟨rfl, rfl, rfl⟩
  | newProposal row => exact lasts_insertProposal row
  | proposal hf h => exact lasts_updateProposal h
  | run hf h => exact steady_lasts.run hf fun r => (h r).1
  | approval row => exact lasts_insertApproval row
  | report row =>
    refine lasts_aside fun db db' hok => ?_
    obtain rfl := Except.ok.inj hok
    exact ⟨rfl, rfl, rfl⟩

theorem Statement.lasts (h : Statement op) : op.Lasts host := by
  cases h with
  | piece h => exact h.lasts
  | createRun args => exact lasts_createRun args
  | transition args => exact lasts_transition args
  | appendEvent r t event payload => exact lasts_appendEvent r t event payload
  | saveCheckpoint r t node state => exact lasts_saveCheckpoint r t node state
  | consumeApproval args => exact lasts_consumeApproval args

/-- Usage, checkpoints and reports are left alone. -/
def Beside (db db' : Database) : Prop :=
  db'.modelUsage = db.modelUsage ∧ db'.graphCheckpoints = db.graphCheckpoints ∧
    db'.releaseReports = db.releaseReports

theorem beside_write {statement : Database → Except Raised Database}
    (h : ∀ db db', statement db = .ok db' → Beside db db') (d : Draw) (db : Database) :
    Beside db ((StoreOp.write statement).exec host d db).2 :=
  write_rel (fun _ => ⟨rfl, rfl, rfl⟩) h d db

theorem Lasting.durable (h : Lasting db db') (hbeside : Beside db db') : Durable db db' := by
  obtain ⟨husage, hcheckpoints, hreports⟩ := hbeside
  refine ⟨h, ?_, ?_, ?_⟩
  · rw [husage]
    exact fun _ hu => hu
  · rw [hcheckpoints]
    exact persist_refl _
  · rw [hreports]
    exact persist_refl _

theorem beside_createRun (args : NewRun) (d : Draw) (db : Database) :
    Beside db ((StoreOp.createRun args).exec host d db).2 := by
  refine atomically_rel (R := Beside) (fun _ => ⟨rfl, rfl, rfl⟩) fun run db' hok => ?_
  obtain ⟨snapshot, hash, -, -, -, ⟨-, -, -, -, rfl⟩ | ⟨-, row, stored, hrow, -, -⟩⟩ :=
    createRun_eq_ok hok
  · exact ⟨rfl, rfl, rfl⟩
  · obtain ⟨text, productRuns, productEvents, -, -, -, hlink⟩ := hrow.tables
    obtain ⟨-, rfl⟩ | ⟨_, -, -, -, -, -, rfl⟩ := linkProposal_eq_ok hlink <;> exact ⟨rfl, rfl, rfl⟩

theorem beside_transition (args : Move) (d : Draw) (db : Database) :
    Beside db ((StoreOp.transition args).exec host d db).2 := by
  refine atomically_rel (R := Beside) (fun _ => ⟨rfl, rfl, rfl⟩) fun run db' hok => ?_
  obtain ⟨row, state, text, row', -, -, productRuns, productEvents, proposals, rfl, -⟩ :=
    transition_eq_ok hok
  exact ⟨rfl, rfl, rfl⟩

theorem beside_appendEvent (r t event : String) (payload : Mapping) (d : Draw) (db : Database) :
    Beside db ((StoreOp.appendEvent r t event payload).exec host d db).2 := by
  refine atomically_rel (R := Beside) (fun _ => ⟨rfl, rfl, rfl⟩) fun u db' hok => ?_
  obtain ⟨row, text, productRuns, productEvents, -, -, -, -, -, rfl⟩ := appendEvent_eq_ok hok
  exact ⟨rfl, rfl, rfl⟩

theorem beside_consumeApproval (args : Consumption) (d : Draw) (db : Database) :
    Beside db ((StoreOp.consumeApproval args).exec host d db).2 := by
  refine atomically_rel (R := Beside) (fun _ => ⟨rfl, rfl, rfl⟩) fun token db' hok => ?_
  obtain ⟨row, -, -, -, approvals, proposalApprovals, rfl, -, -⟩ := consumeApproval_eq_ok hok
  exact ⟨rfl, rfl, rfl⟩

/-- A run that has a checkpoint goes on having one. -/
theorem durable_saveCheckpoint (r t node : String) (state : Mapping) (d : Draw) (db : Database) :
    Durable db ((StoreOp.saveCheckpoint r t node state).exec host d db).2 := by
  refine atomically_rel durable_refl fun u db' hok => ?_
  obtain ⟨row, text, graphCheckpoints, -, -, -, hfind, rfl⟩ := saveCheckpoint_eq_ok hok
  refine ⟨⟨persist_refl _, persist_refl _, persist_refl _, fun _ hr _ => hr⟩, fun _ hu => hu, ?_,
    persist_refl _⟩
  intro c hc
  have hfound := hfind c.runId
  by_cases hrun : c.runId = r
  · -- the run's own checkpoint is rewritten in its place
    rw [if_pos hrun] at hfound
    obtain ⟨hmem, hid⟩ := Table.find?_eq_some.mp hfound
    exact ⟨_, hmem, hid⟩
  · rw [if_neg hrun, Table.find?_of_mem hc] at hfound
    exact ⟨c, (Table.find?_eq_some.mp hfound).1, rfl⟩

/-- A run that has a report goes on having one. -/
theorem persist_replace_report (reports : Table ReportRow.runId ReportRow.runId fun _ => true)
    (row : ReportRow) : Persist ReportRow.runId reports.rows (reports.replace row rfl).rows := by
  intro r hr
  by_cases hrun : r.runId = row.runId
  · exact ⟨row, (Table.mem_replace).mpr (Or.inr rfl), hrun.symm⟩
  · exact ⟨r, (Table.mem_replace).mpr (Or.inl ⟨hr, hrun, hrun⟩), rfl⟩

theorem Piece.durable (h : Piece op) (d : Draw) (db : Database) :
    Durable db (op.exec host d db).2 := by
  have hlasts : Lasting db (op.exec host d db).2 := h.lasts d db
  cases h with
  | look | now | uuid => exact durable_refl db
  | aside h =>
    refine hlasts.durable (beside_write (fun db db' hok => ?_) d db)
    exact (h db db' hok).2.2.2
  | usage row =>
    refine write_rel durable_refl (fun db db' hok => ?_) d db
    obtain ⟨modelUsage, hinsert, rfl⟩ := map_eq_ok.mp hok
    refine ⟨⟨persist_refl _, persist_refl _, persist_refl _, fun _ hr _ => hr⟩, fun u hu => ?_,
      persist_refl _, persist_refl _⟩
    change u ∈ modelUsage.rows
    rw [(Table.insert?_eq_some (orRaise_eq_ok.mp hinsert)).1]
    exact List.mem_append_left _ hu
  | newProposal row =>
    refine hlasts.durable (beside_write (fun db db' hok => ?_) d db)
    obtain ⟨proposals, -, rfl⟩ := map_eq_ok.mp hok
    exact ⟨rfl, rfl, rfl⟩
  | proposal hf h | run hf h =>
    refine hlasts.durable (beside_write (fun db db' hok => ?_) d db)
    obtain rfl := Except.ok.inj hok
    exact ⟨rfl, rfl, rfl⟩
  | approval row =>
    refine hlasts.durable (beside_write (fun db db' hok => ?_) d db)
    obtain ⟨approvals, -, rfl⟩ := map_eq_ok.mp hok
    exact ⟨rfl, rfl, rfl⟩
  | report row =>
    refine write_rel durable_refl (fun db db' hok => ?_) d db
    obtain rfl := Except.ok.inj hok
    exact ⟨⟨persist_refl _, persist_refl _, persist_refl _, fun _ hr _ => hr⟩, fun _ hu => hu,
      persist_refl _, persist_replace_report _ row⟩

/-- **Nothing that lasts is taken away** by a statement. -/
theorem Statement.durable (h : Statement op) (d : Draw) (db : Database) :
    Durable db (op.exec host d db).2 := by
  have hlasts : Lasting db (op.exec host d db).2 := h.lasts d db
  cases h with
  | piece h => exact h.durable d db
  | createRun args => exact hlasts.durable (beside_createRun args d db)
  | transition args => exact hlasts.durable (beside_transition args d db)
  | appendEvent r t event payload => exact hlasts.durable (beside_appendEvent r t event payload d db)
  | saveCheckpoint r t node state => exact durable_saveCheckpoint r t node state d db
  | consumeApproval args => exact hlasts.durable (beside_consumeApproval args d db)

/-! ### The states of runs -/

/-- Every run is in a state it was in, or newly queued. -/
def Still (db db' : Database) : Prop := ∀ r' ∈ db'.productRuns.rows,
  r'.state = .queued ∨
    ∃ r ∈ db.productRuns.rows, r.runId = r'.runId ∧ r.tenantId = r'.tenantId ∧ r.state = r'.state

theorem still_of_runs (h : db'.productRuns = db.productRuns) : Still db db' := by
  intro r hr
  rw [h] at hr
  exact Or.inr ⟨r, hr, rfl, rfl, rfl⟩

theorem still_write {statement : Database → Except Raised Database}
    (h : ∀ db db', statement db = .ok db' → Still db db') (d : Draw) (db : Database) :
    Still db ((StoreOp.write statement).exec host d db).2 :=
  write_rel (fun _ => still_of_runs rfl) h d db

/-- Runs are told by their keys. -/
theorem mem_runs_of_find? {runId : String} {row' : RunRow}
    (hrows : ∀ x, db'.productRuns.find? x
      = if x = runId then some row' else db.productRuns.find? x) :
    ∀ r ∈ db'.productRuns.rows, r = row' ∧ r.runId = runId ∨ r ∈ db.productRuns.rows := by
  intro r hr
  have hfind := hrows r.runId
  rw [Table.find?_of_mem hr] at hfind
  by_cases hx : r.runId = runId
  · rw [if_pos hx] at hfind
    exact Or.inl ⟨Option.some.inj hfind, hx⟩
  · rw [if_neg hx] at hfind
    exact Or.inr (Table.find?_eq_some.mp hfind.symm).1

theorem still_createRun (args : NewRun) (d : Draw) (db : Database) :
    Still db ((StoreOp.createRun args).exec host d db).2 := by
  refine atomically_rel (R := Still) (fun _ => still_of_runs rfl) fun run db' hok => ?_
  obtain ⟨snapshot, hash, -, -, -, ⟨-, -, -, -, rfl⟩ | ⟨-, row, stored, hrow, -, -⟩⟩ :=
    createRun_eq_ok hok
  · exact still_of_runs rfl
  · obtain ⟨text, productRuns, productEvents, -, hinsert, -, hlink⟩ := hrow.tables
    have hruns : db'.productRuns = productRuns := by
      obtain ⟨-, rfl⟩ | ⟨_, -, -, -, -, -, rfl⟩ := linkProposal_eq_ok hlink <;> rfl
    intro r hr
    rw [hruns, (Table.insert?_eq_some hinsert).1] at hr
    rcases List.mem_append.mp hr with hr | hr
    · exact Or.inr ⟨r, hr, rfl, rfl, rfl⟩
    · obtain rfl := List.mem_singleton.mp hr
      exact Or.inl hrow.state

theorem still_appendEvent (r t event : String) (payload : Mapping) (d : Draw) (db : Database) :
    Still db ((StoreOp.appendEvent r t event payload).exec host d db).2 := by
  refine atomically_rel (R := Still) (fun _ => still_of_runs rfl) fun u db' hok => ?_
  obtain ⟨row, text, productRuns, productEvents, hfound, -, -, -, hrows, rfl⟩ :=
    appendEvent_eq_ok hok
  intro r' hr'
  rcases mem_runs_of_find? hrows r' hr' with ⟨rfl, -⟩ | hr
  · exact Or.inr ⟨row, (Table.find?_eq_some.mp hfound).1, rfl, rfl, rfl⟩
  · exact Or.inr ⟨r', hr, rfl, rfl, rfl⟩

theorem Piece.still (h : Piece op) (d : Draw) (db : Database) : Still db (op.exec host d db).2 := by
  cases h with
  | look | now | uuid => exact still_of_runs rfl
  | aside h => exact still_write (fun db db' hok => still_of_runs (h db db' hok).1) d db
  | usage row | newProposal row | approval row =>
    refine still_write (fun db db' hok => ?_) d db
    obtain ⟨_, -, rfl⟩ := map_eq_ok.mp hok
    exact still_of_runs rfl
  | proposal hf h | report row =>
    refine still_write (fun db db' hok => ?_) d db
    obtain rfl := Except.ok.inj hok
    exact still_of_runs rfl
  | @run p f hf h =>
    refine still_write (fun db db' hok => ?_) d db
    obtain rfl := Except.ok.inj hok
    intro r hr
    obtain ⟨r₀, hr₀, rfl⟩ := mem_setWhere.mp hr
    refine Or.inr ⟨r₀, hr₀, ?_⟩
    split
    · exact ⟨(hf.pk_eq r₀).symm, (congrArg RunRow.tenantId (h r₀).1).symm, (h r₀).2.symm⟩
    · exact ⟨rfl, rfl, rfl⟩

/-- Only a transition moves a run. -/
theorem Statement.still (h : Statement op) (hmove : ∀ args, op ≠ .transition args) (d : Draw)
    (db : Database) : Still db (op.exec host d db).2 := by
  cases h with
  | piece h => exact h.still d db
  | createRun args => exact still_createRun args d db
  | transition args => exact absurd rfl (hmove args)
  | appendEvent r t event payload => exact still_appendEvent r t event payload d db
  | saveCheckpoint r t node state =>
    refine atomically_rel (R := Still) (fun _ => still_of_runs rfl) fun u db' hok => ?_
    obtain ⟨row, text, graphCheckpoints, -, -, -, -, rfl⟩ := saveCheckpoint_eq_ok hok
    exact still_of_runs rfl
  | consumeApproval args =>
    refine atomically_rel (R := Still) (fun _ => still_of_runs rfl) fun token db' hok => ?_
    obtain ⟨row, -, -, -, approvals, proposalApprovals, rfl, -, -⟩ := consumeApproval_eq_ok hok
    exact still_of_runs rfl

/-- **A transition moves its own run**, to the state it was asked for, or it raises. -/
theorem transition_moves (args : Move) (d : Draw) (db : Database) :
    Still db ((StoreOp.transition args).exec host d db).2 ∨
      (∃ run, ((StoreOp.transition args).exec host d db).1 = .ok run) ∧
        ∀ r' ∈ ((StoreOp.transition args).exec host d db).2.productRuns.rows,
          r' ∈ db.productRuns.rows ∨
            r'.runId = args.runId ∧ r'.tenantId = args.tenantId ∧ r'.state.text = args.state := by
  change Still db (atomically _ db).2 ∨ (∃ run, (atomically _ db).1 = .ok run) ∧
    ∀ r' ∈ (atomically _ db).2.productRuns.rows, _
  unfold atomically
  cases hok : Kernel.transition host args d db with
  | error e => exact Or.inl (still_of_runs rfl)
  | ok x =>
    obtain ⟨run, db'⟩ := x
    refine Or.inr ⟨⟨run, rfl⟩, ?_⟩
    obtain ⟨row, state, text, row', hmoved, -, productRuns, productEvents, proposals, hdb, -⟩ :=
      transition_eq_ok hok
    obtain ⟨value, members, resultJson, approvalId, -, -, -, hrow'⟩ := hmoved.result
    intro r' hr'
    rcases mem_runs_of_find? hmoved.rows r' hr' with ⟨rfl, hid⟩ | hr
    · refine Or.inr ⟨hid, ?_, ?_⟩
      · rw [hrow']
        exact hmoved.tenant
      · rw [hrow']
        exact hmoved.named
    · exact Or.inl hr

end Keeping

end AiSaas.Kernel
