import AiSaas.Kernel.Statements
import AiSaas.Lib.Shares

/-!
# What belongs to a tenant

Every row of the kernel store but a usage record says whose it is; a usage record is its
run's.  The rows that name a run or a proposal name one of their own tenant.  A statement that
is made for one tenant leaves the rows of every other one as they were, but for plans and
artifacts: their identifiers are not a tenant's own, and one that is taken again replaces
the row.

## Main definitions

* `HasRun`, `HasProposal`, `Refers`, `Referring` — the runs and proposals that rows name.
* `Share`, `Database.share` — the rows of one tenant.
* `Undisturbed` — what is left alone of a tenant.
* `Writes`, `Written` — one write for a tenant, and any number of them.

## Main results

* `Writes.referring` — a write keeps the references.
* `Writes.undisturbed` — it leaves the other tenants alone.
* `Written.referring`, `Written.undisturbed` — so do any number of writes.
-/

namespace AiSaas.Kernel

open Relational Transaction Processes Store

/-! ### References -/

/-- A tenant's run is there. -/
def HasRun (db : Database) (runId tenantId : String) : Prop :=
  ∃ r ∈ db.productRuns.rows, r.runId = runId ∧ r.tenantId = tenantId

/-- A tenant's proposal is there. -/
def HasProposal (db : Database) (proposalId tenantId : String) : Prop :=
  ∃ p ∈ db.proposals.rows, p.proposalId = proposalId ∧ p.tenantId = tenantId

/-- Every row that names a run names one that meets `R`, with the row's tenant; every row
that names a proposal one that meets `P`. -/
structure Refers (R P : String → String → Prop) (db : Database) : Prop where
  runs : db.productRuns.Every fun r =>
    given r.proposalId = true → P (r.proposalId.getD "") r.tenantId
  events : db.productEvents.Every fun r => R r.runId r.tenantId
  checkpoints : db.graphCheckpoints.Every fun r => R r.runId r.tenantId
  usage : db.modelUsage.Every fun r => ∃ tenantId, R r.runId tenantId
  approvals : db.approvals.Every fun r => R r.runId r.tenantId ∧
    (given r.proposalId = true → P (r.proposalId.getD "") r.tenantId)
  reports : db.releaseReports.Every fun r => R r.runId r.tenantId
  proposals : db.proposals.Every fun r => ∀ runId, r.latestRunId = some runId → R runId r.tenantId
  proposalRuns : db.proposalRuns.Every fun r => R r.runId r.tenantId ∧ P r.proposalId r.tenantId
  evidence : db.evidenceSnapshots.Every fun r => R r.runId r.tenantId ∧ P r.proposalId r.tenantId
  plans : db.plans.Every fun r => R r.runId r.tenantId ∧ P r.proposalId r.tenantId
  proposalApprovals : db.proposalApprovals.Every fun r =>
    R r.runId r.tenantId ∧ P r.proposalId r.tenantId
  verificationReports : db.verificationReports.Every fun r =>
    R r.runId r.tenantId ∧ P r.proposalId r.tenantId
  artifacts : db.proposalArtifacts.Every fun r => R r.runId r.tenantId ∧ P r.proposalId r.tenantId
  traces : db.traceCorrelations.Every fun r => R r.runId r.tenantId ∧ P r.proposalId r.tenantId

/-- Every row that names a run or a proposal names one of its own tenant. -/
def Referring (db : Database) : Prop := Refers (HasRun db) (HasProposal db) db

theorem referring_empty : Referring Database.empty := by
  constructor <;> exact fun r hr => absurd hr List.not_mem_nil

section References

variable {R R' P P' : String → String → Prop} {db db' : Database}
  {runId proposalId tenantId : String}

theorem Refers.mono (h : Refers R P db) (hR : ∀ r t, R r t → R' r t) (hP : ∀ p t, P p t → P' p t) :
    Refers R' P' db where
  runs := fun r hr hgiven => hP _ _ (h.runs r hr hgiven)
  events := fun r hr => hR _ _ (h.events r hr)
  checkpoints := fun r hr => hR _ _ (h.checkpoints r hr)
  usage := fun r hr => (h.usage r hr).imp fun t => hR _ t
  approvals := fun r hr =>
    ⟨hR _ _ (h.approvals r hr).1, fun hgiven => hP _ _ ((h.approvals r hr).2 hgiven)⟩
  reports := fun r hr => hR _ _ (h.reports r hr)
  proposals := fun r hr runId hrun => hR _ _ (h.proposals r hr runId hrun)
  proposalRuns := fun r hr => (h.proposalRuns r hr).imp (hR _ _) (hP _ _)
  evidence := fun r hr => (h.evidence r hr).imp (hR _ _) (hP _ _)
  plans := fun r hr => (h.plans r hr).imp (hR _ _) (hP _ _)
  proposalApprovals := fun r hr => (h.proposalApprovals r hr).imp (hR _ _) (hP _ _)
  verificationReports := fun r hr => (h.verificationReports r hr).imp (hR _ _) (hP _ _)
  artifacts := fun r hr => (h.artifacts r hr).imp (hR _ _) (hP _ _)
  traces := fun r hr => (h.traces r hr).imp (hR _ _) (hP _ _)

/-- A run that is there stays its tenant's. -/
theorem HasRun.lasting (h : HasRun db runId tenantId) (hl : Lasting db db') :
    HasRun db' runId tenantId := by
  obtain ⟨r, hr, hid, htenant⟩ := h
  obtain ⟨r', hr', hlasting⟩ := hl.runs hr
  exact ⟨r', hr', (congrArg RunRow.runId hlasting).trans hid,
    (congrArg RunRow.tenantId hlasting).trans htenant⟩

/-- A proposal that is there stays its tenant's. -/
theorem HasProposal.lasting (h : HasProposal db proposalId tenantId) (hl : Lasting db db') :
    HasProposal db' proposalId tenantId := by
  obtain ⟨p, hp, hid, htenant⟩ := h
  obtain ⟨p', hp', hlasting⟩ := hl.proposals hp
  exact ⟨p', hp', (congrArg ProposalRow.proposalId hlasting).trans hid,
    (congrArg ProposalRow.tenantId hlasting).trans htenant⟩

/-- **References outlive what lasts.** -/
theorem Referring.grow (h : Referring db) (hl : Lasting db db') :
    Refers (HasRun db') (HasProposal db') db :=
  h.mono (fun _ _ hrun => hrun.lasting hl) fun _ _ hproposal => hproposal.lasting hl

theorem hasRun_of_ownedRow {row : RunRow} (h : ownedRow runId tenantId db = .ok row) :
    HasRun db runId tenantId := by
  obtain ⟨hfind, htenant⟩ := ownedRow_eq_ok.mp h
  obtain ⟨hmem, hid⟩ := Table.find?_eq_some.mp hfind
  exact ⟨row, hmem, hid, htenant⟩

theorem hasProposal_of_ownedProposal {row : ProposalRow}
    (h : ownedProposal proposalId tenantId db = .ok row) : HasProposal db proposalId tenantId := by
  obtain ⟨hfind, htenant⟩ := ownedProposal_eq_ok.mp h
  obtain ⟨hmem, hid⟩ := Table.find?_eq_some.mp hfind
  exact ⟨row, hmem, hid, htenant⟩

/-- A run is one tenant's. -/
theorem HasRun.tenant_eq {t : String} (h : HasRun db runId tenantId) (h' : HasRun db runId t) :
    tenantId = t := by
  obtain ⟨r, hr, hid, rfl⟩ := h
  obtain ⟨r', hr', hid', rfl⟩ := h'
  rw [Table.eq_of_pk hr hr' (hid.trans hid'.symm)]

end References

/-! ### Shares -/

/-- The rows of one tenant, but for its plans and artifacts. -/
@[ext] structure Share where
  runs : List RunRow
  events : List EventRow
  checkpoints : List CheckpointRow
  usage : List UsageRow
  approvals : List ApprovalRow
  reports : List ReportRow
  repositories : List RepositoryRow
  proposals : List ProposalRow
  proposalRuns : List ProposalRunRow
  evidence : List EvidenceRow
  proposalApprovals : List ProposalApprovalRow
  verificationReports : List VerificationRow
  traces : List TraceRow

/-- The rows of one tenant.  A usage record is its run's. -/
def Database.share (db : Database) (tenantId : String) : Share where
  runs := Relational.share RunRow.tenantId tenantId db.productRuns.rows
  events := Relational.share EventRow.tenantId tenantId db.productEvents.rows
  checkpoints := Relational.share CheckpointRow.tenantId tenantId db.graphCheckpoints.rows
  usage := db.modelUsage.rows.filter fun u => decide
    (u.runId ∈ (Relational.share RunRow.tenantId tenantId db.productRuns.rows).map RunRow.runId)
  approvals := Relational.share ApprovalRow.tenantId tenantId db.approvals.rows
  reports := Relational.share ReportRow.tenantId tenantId db.releaseReports.rows
  repositories := Relational.share RepositoryRow.tenantId tenantId db.repositories.rows
  proposals := Relational.share ProposalRow.tenantId tenantId db.proposals.rows
  proposalRuns := Relational.share ProposalRunRow.tenantId tenantId db.proposalRuns.rows
  evidence := Relational.share EvidenceRow.tenantId tenantId db.evidenceSnapshots.rows
  proposalApprovals :=
    Relational.share ProposalApprovalRow.tenantId tenantId db.proposalApprovals.rows
  verificationReports :=
    Relational.share VerificationRow.tenantId tenantId db.verificationReports.rows
  traces := Relational.share TraceRow.tenantId tenantId db.traceCorrelations.rows

/-- What is left alone of a tenant: its rows, but that a plan or an artifact of another tenant
may have taken the place of one of its own. -/
structure Undisturbed (tenantId : String) (db db' : Database) : Prop where
  share : db'.share tenantId = db.share tenantId
  plans : ∀ r ∈ db'.plans.rows, r.tenantId = tenantId → r ∈ db.plans.rows
  planIds : Persist PlanRow.planId db.plans.rows db'.plans.rows
  artifacts : ∀ r ∈ db'.proposalArtifacts.rows, r.tenantId = tenantId →
    r ∈ db.proposalArtifacts.rows
  artifactIds : Persist ArtifactRow.artifactId db.proposalArtifacts.rows db'.proposalArtifacts.rows

section Shares

variable {db db' db'' : Database} {tenantId : String}

theorem undisturbed_refl (tenantId : String) (db : Database) : Undisturbed tenantId db db :=
  ⟨rfl, fun _ hr _ => hr, persist_refl _, fun _ hr _ => hr, persist_refl _⟩

theorem Undisturbed.trans (h : Undisturbed tenantId db db') (h' : Undisturbed tenantId db' db'') :
    Undisturbed tenantId db db'' where
  share := h'.share.trans h.share
  plans := fun r hr ht => h.plans r (h'.plans r hr ht) ht
  planIds := h.planIds.trans h'.planIds
  artifacts := fun r hr ht => h.artifacts r (h'.artifacts r hr ht) ht
  artifactIds := h.artifactIds.trans h'.artifactIds

/-- Plans and artifacts are not touched. -/
theorem undisturbed_of_share (h : db'.share tenantId = db.share tenantId)
    (hplans : db'.plans = db.plans) (hartifacts : db'.proposalArtifacts = db.proposalArtifacts) :
    Undisturbed tenantId db db' := by
  refine ⟨h, ?_, ?_, ?_, ?_⟩
  · rw [hplans]
    exact fun _ hr _ => hr
  · rw [hplans]
    exact persist_refl _
  · rw [hartifacts]
    exact fun _ hr _ => hr
  · rw [hartifacts]
    exact persist_refl _

end Shares

/-! ### What is written for a tenant -/

/-- The run, the proposal and the tenant that a row names. -/
def ProposalRunRow.link (r : ProposalRunRow) : String × String × String :=
  (r.runId, r.proposalId, r.tenantId)

/-- The run, the proposal and the tenant that a row names. -/
def EvidenceRow.link (r : EvidenceRow) : String × String × String :=
  (r.runId, r.proposalId, r.tenantId)

/-- The run, the proposal and the tenant that a row names. -/
def ProposalApprovalRow.link (r : ProposalApprovalRow) : String × String × String :=
  (r.runId, r.proposalId, r.tenantId)

/-- The run, the proposal and the tenant that a row names. -/
def VerificationRow.link (r : VerificationRow) : String × String × String :=
  (r.runId, r.proposalId, r.tenantId)

/-- One write for a tenant.  The rows that it changes are the tenant's own, and what it
leaves names runs and proposals of the tenant. -/
inductive Writes (t : String) (db : Database) : Database → Prop
  | newRun {row : RunRow} {productRuns} (hins : db.productRuns.insert? row = some productRuns)
      (ht : row.tenantId = t)
      (hproposal : given row.proposalId = true → HasProposal db (row.proposalId.getD "") t) :
      Writes t db { db with productRuns }
  | runs {p : RunRow → Bool} {f : RunRow → RunRow}
      (hf : Keeps RunRow.runId RunRow.requestKey (fun _ => true) f)
      (hp : ∀ r ∈ db.productRuns.rows, p r = true → r.tenantId = t)
      (hl : ∀ r, (f r).lasting = r.lasting) :
      Writes t db { db with productRuns := db.productRuns.update p f hf }
  | event {row : EventRow} {productEvents}
      (hins : db.productEvents.insert? row = some productEvents) (ht : row.tenantId = t)
      (hrun : HasRun db row.runId t) : Writes t db { db with productEvents }
  | checkpoint {row : CheckpointRow} {f : CheckpointRow → CheckpointRow}
      (hf : Keeps CheckpointRow.runId CheckpointRow.runId (fun _ => true) f) (ht : row.tenantId = t)
      (hrun : HasRun db row.runId t) (hown : ∀ r, (f r).tenantId = r.tenantId) :
      Writes t db { db with graphCheckpoints := db.graphCheckpoints.upsert row f hf }
  | usage {row : UsageRow} {modelUsage} (hins : db.modelUsage.insert? row = some modelUsage)
      (hrun : HasRun db row.runId t) : Writes t db { db with modelUsage }
  | newApproval {row : ApprovalRow} {approvals} (hins : db.approvals.insert? row = some approvals)
      (ht : row.tenantId = t) (hrun : HasRun db row.runId t)
      (hproposal : given row.proposalId = true → HasProposal db (row.proposalId.getD "") t) :
      Writes t db { db with approvals }
  | consumed {p : ApprovalRow → Bool}
      (hf : Keeps ApprovalRow.tokenId ApprovalRow.tokenId (fun _ => true)
        fun r => { r with consumed := true })
      (hp : ∀ r ∈ db.approvals.rows, p r = true → r.tenantId = t) :
      Writes t db { db with
        approvals := db.approvals.update p (fun r => { r with consumed := true }) hf }
  | report {row : ReportRow} (ht : row.tenantId = t) (hrun : HasRun db row.runId t) :
      Writes t db { db with releaseReports := db.releaseReports.replace row rfl }
  | repository {row : RepositoryRow} {f : RepositoryRow → RepositoryRow}
      (hf : Keeps RepositoryRow.key RepositoryRow.key (fun _ => true) f) (ht : row.tenantId = t) :
      Writes t db { db with repositories := db.repositories.upsert row f hf }
  | newProposal {row : ProposalRow} {proposals} (hins : db.proposals.insert? row = some proposals)
      (ht : row.tenantId = t) (hlatest : row.latestRunId = none) : Writes t db { db with proposals }
  | proposals {p : ProposalRow → Bool} {f : ProposalRow → ProposalRow}
      (hf : Keeps ProposalRow.proposalId ProposalRow.requestKey (fun _ => true) f)
      (hp : ∀ r ∈ db.proposals.rows, p r = true → r.tenantId = t)
      (hl : ∀ r, (f r).lasting = r.lasting)
      (hlatest : ∀ r runId, (f r).latestRunId = some runId →
        r.latestRunId = some runId ∨ HasRun db runId t) :
      Writes t db { db with proposals := db.proposals.update p f hf }
  | proposalRun {row : ProposalRunRow} (ht : row.tenantId = t) (hrun : HasRun db row.runId t)
      (hproposal : HasProposal db row.proposalId t) :
      Writes t db { db with proposalRuns := db.proposalRuns.replace row rfl }
  | proposalRuns {p : ProposalRunRow → Bool} {f : ProposalRunRow → ProposalRunRow}
      (hf : Keeps ProposalRunRow.runId ProposalRunRow.runId (fun _ => true) f)
      (hp : ∀ r ∈ db.proposalRuns.rows, p r = true → r.tenantId = t)
      (hown : ∀ r, (f r).link = r.link) :
      Writes t db { db with proposalRuns := db.proposalRuns.update p f hf }
  | newEvidence {row : EvidenceRow} {evidenceSnapshots}
      (hins : db.evidenceSnapshots.insert? row = some evidenceSnapshots) (ht : row.tenantId = t)
      (hrun : HasRun db row.runId t) (hproposal : HasProposal db row.proposalId t) :
      Writes t db { db with evidenceSnapshots }
  | evidence {p : EvidenceRow → Bool} {f : EvidenceRow → EvidenceRow}
      (hf : Keeps EvidenceRow.evidenceId EvidenceRow.evidenceId (fun _ => true) f)
      (hp : ∀ r ∈ db.evidenceSnapshots.rows, p r = true → r.tenantId = t)
      (hown : ∀ r, (f r).link = r.link) :
      Writes t db { db with evidenceSnapshots := db.evidenceSnapshots.update p f hf }
  | noEvidence {p : EvidenceRow → Bool}
      (hp : ∀ r ∈ db.evidenceSnapshots.rows, p r = true → r.tenantId = t) :
      Writes t db { db with evidenceSnapshots := db.evidenceSnapshots.delete p }
  | plan {row : PlanRow} (ht : row.tenantId = t) (hrun : HasRun db row.runId t)
      (hproposal : HasProposal db row.proposalId t) :
      Writes t db { db with plans := db.plans.replace row rfl }
  | newProposalApproval {row : ProposalApprovalRow} {proposalApprovals}
      (hins : db.proposalApprovals.insert? row = some proposalApprovals) (ht : row.tenantId = t)
      (hrun : HasRun db row.runId t) (hproposal : HasProposal db row.proposalId t) :
      Writes t db { db with proposalApprovals }
  | proposalApprovals {p : ProposalApprovalRow → Bool}
      {f : ProposalApprovalRow → ProposalApprovalRow}
      (hf : Keeps ProposalApprovalRow.tokenId ProposalApprovalRow.tokenId (fun _ => true) f)
      (hp : ∀ r ∈ db.proposalApprovals.rows, p r = true → r.tenantId = t)
      (hown : ∀ r, (f r).link = r.link) :
      Writes t db { db with proposalApprovals := db.proposalApprovals.update p f hf }
  | verification {row : VerificationRow} (ht : row.tenantId = t) (hrun : HasRun db row.runId t)
      (hproposal : HasProposal db row.proposalId t) :
      Writes t db { db with verificationReports := db.verificationReports.replace row rfl }
  | verifications {p : VerificationRow → Bool} {f : VerificationRow → VerificationRow}
      (hf : Keeps VerificationRow.runId VerificationRow.runId (fun _ => true) f)
      (hp : ∀ r ∈ db.verificationReports.rows, p r = true → r.tenantId = t)
      (hown : ∀ r, (f r).link = r.link) :
      Writes t db { db with verificationReports := db.verificationReports.update p f hf }
  | artifact {row : ArtifactRow} (ht : row.tenantId = t) (hrun : HasRun db row.runId t)
      (hproposal : HasProposal db row.proposalId t) :
      Writes t db { db with proposalArtifacts := db.proposalArtifacts.replace row rfl }
  | trace {row : TraceRow} (ht : row.tenantId = t) (hrun : HasRun db row.runId t)
      (hproposal : HasProposal db row.proposalId t) :
      Writes t db { db with traceCorrelations := db.traceCorrelations.replace row rfl }

section Writes

variable {t tenantId : String} {db db' : Database}

/-- A write takes nothing away that lasts. -/
theorem Writes.lasting (h : Writes t db db') : Lasting db db' := by
  cases h with
  | newRun hins =>
    exact ⟨persist_insert hins _, persist_refl _, persist_refl _, fun _ hr _ => hr⟩
  | runs hf hp hl => exact lasting_runs hl
  | newApproval hins =>
    exact ⟨persist_refl _, persist_refl _, persist_insert hins _,
      fun r hr _ => mem_insert_of_mem hins hr⟩
  | consumed hf hp =>
    refine ⟨persist_refl _, persist_refl _, ?_, fun r hr hc => ?_⟩
    · refine persist_setWhere ?_ _
      exact fun _ => rfl
    · -- a token that is consumed is written as it is
      have hsame : ({ r with consumed := true } : ApprovalRow) = r := by rw [← hc]
      refine mem_setWhere.mpr ⟨r, hr, ?_⟩
      rw [hsame, ite_self]
  | newProposal hins =>
    exact ⟨persist_refl _, persist_insert hins _, persist_refl _, fun _ hr _ => hr⟩
  | proposals hf hp hl =>
    exact ⟨persist_refl _, persist_setWhere hl _, persist_refl _, fun _ hr _ => hr⟩
  | _ => exact ⟨persist_refl _, persist_refl _, persist_refl _, fun _ hr _ => hr⟩

/-- An update that leaves the links of rows alone. -/
theorem every_link {α κ υ : Type} {pk : α → κ} {uk : α → υ} {check : α → Bool}
    {table : Table pk uk check} {R P : String → String → Prop} {p : α → Bool} {f : α → α}
    (link : α → String × String × String)
    (h : table.Every fun r => R (link r).1 (link r).2.2 ∧ P (link r).2.1 (link r).2.2)
    (hf : Keeps pk uk check f) (hown : ∀ r, link (f r) = link r) :
    (table.update p f hf).Every fun r =>
      R (link r).1 (link r).2.2 ∧ P (link r).2.1 (link r).2.2 := by
  refine h.update hf fun r _ hr => ?_
  rw [hown]
  exact hr

/-- **A write keeps the references.** -/
theorem Writes.referring (h : Writes t db db') (hrefers : Referring db) : Referring db' := by
  have hlasting := h.lasting
  have hgrow := hrefers.grow hlasting
  have hrun : ∀ {r}, HasRun db r t → HasRun db' r t := fun hr => hr.lasting hlasting
  have hproposal : ∀ {p}, HasProposal db p t → HasProposal db' p t :=
    fun hp => hp.lasting hlasting
  cases h with
  | newRun hins ht hp =>
    exact { hgrow with runs := hgrow.runs.insert hins fun hg => ht ▸ hproposal (hp hg) }
  | runs hf hp hl =>
    refine { hgrow with runs := hgrow.runs.update hf fun r _ hr => ?_ }
    have hid := congrArg RunRow.proposalId (hl r)
    have htenant := congrArg RunRow.tenantId (hl r)
    simp only [RunRow.lasting] at hid htenant
    rw [hid, htenant]
    exact hr
  | event hins ht hr => exact { hgrow with events := hgrow.events.insert hins (ht ▸ hrun hr) }
  | checkpoint hf ht hr hown =>
    refine { hgrow with checkpoints := hgrow.checkpoints.upsert hf (ht ▸ hrun hr) fun r hr => ?_ }
    rw [hown]
    exact hf.pk_eq r ▸ hr
  | usage hins hr => exact { hgrow with usage := hgrow.usage.insert hins ⟨t, hrun hr⟩ }
  | newApproval hins ht hr hp =>
    exact { hgrow with
      approvals := hgrow.approvals.insert hins (ht ▸ ⟨hrun hr, fun hg => hproposal (hp hg)⟩) }
  | consumed hf hp => exact { hgrow with approvals := hgrow.approvals.update hf fun r _ hr => hr }
  | report ht hr => exact { hgrow with reports := hgrow.reports.replace rfl (ht ▸ hrun hr) }
  | repository hf ht => exact { hgrow with }
  | newProposal hins ht hlatest =>
    refine { hgrow with proposals := hgrow.proposals.insert hins fun runId hr => ?_ }
    rw [hlatest] at hr
    cases hr
  | @proposals p f hf hp hl hlatest =>
    refine { hgrow with proposals := ?_ }
    intro r hr runId hlatest'
    obtain ⟨r₀, hr₀, rfl⟩ := mem_setWhere.mp hr
    have hold := hgrow.proposals r₀ hr₀ runId
    by_cases hit : p r₀ = true
    · simp only [hit, if_true] at hlatest' ⊢
      rcases hlatest r₀ runId hlatest' with hsame | hnew
      · exact congrArg ProposalRow.tenantId (hl r₀) ▸ hold hsame
      · exact (congrArg ProposalRow.tenantId (hl r₀)).trans (hp r₀ hr₀ hit) ▸ hrun hnew
    · simp only [hit, if_false, Bool.false_eq_true] at hlatest' ⊢
      exact hold hlatest'
  | proposalRun ht hr hp =>
    exact { hgrow with
      proposalRuns := hgrow.proposalRuns.replace rfl (ht ▸ ⟨hrun hr, hproposal hp⟩) }
  | proposalRuns hf hp hown =>
    exact { hgrow with
      proposalRuns := every_link ProposalRunRow.link hgrow.proposalRuns hf hown }
  | newEvidence hins ht hr hp =>
    exact { hgrow with evidence := hgrow.evidence.insert hins (ht ▸ ⟨hrun hr, hproposal hp⟩) }
  | evidence hf hp hown =>
    exact { hgrow with evidence := every_link EvidenceRow.link hgrow.evidence hf hown }
  | noEvidence hp => exact { hgrow with evidence := hgrow.evidence.delete _ }
  | plan ht hr hp =>
    exact { hgrow with plans := hgrow.plans.replace rfl (ht ▸ ⟨hrun hr, hproposal hp⟩) }
  | newProposalApproval hins ht hr hp =>
    exact { hgrow with
      proposalApprovals := hgrow.proposalApprovals.insert hins (ht ▸ ⟨hrun hr, hproposal hp⟩) }
  | proposalApprovals hf hp hown =>
    exact { hgrow with
      proposalApprovals := every_link ProposalApprovalRow.link hgrow.proposalApprovals hf hown }
  | verification ht hr hp =>
    exact { hgrow with
      verificationReports := hgrow.verificationReports.replace rfl (ht ▸ ⟨hrun hr, hproposal hp⟩) }
  | verifications hf hp hown =>
    exact { hgrow with
      verificationReports := every_link VerificationRow.link hgrow.verificationReports hf hown }
  | artifact ht hr hp =>
    exact { hgrow with artifacts := hgrow.artifacts.replace rfl (ht ▸ ⟨hrun hr, hproposal hp⟩) }
  | trace ht hr hp =>
    exact { hgrow with traces := hgrow.traces.replace rfl (ht ▸ ⟨hrun hr, hproposal hp⟩) }

/-- A run of another tenant is another run. -/
theorem HasRun.ne {runId runId' : String} (h : HasRun db runId t) (hne : tenantId ≠ t)
    (h' : HasRun db runId' tenantId) : runId' ≠ runId := by
  rintro rfl
  exact hne (h'.tenant_eq h)

/-- A usage record of a tenant's run is no other tenant's. -/
theorem usage_share {row : UsageRow} {modelUsage}
    (hins : db.modelUsage.insert? row = some modelUsage) (hrun : HasRun db row.runId t)
    (hne : tenantId ≠ t) :
    Database.share { db with modelUsage } tenantId = db.share tenantId := by
  have hforeign :
      row.runId ∉ (share RunRow.tenantId tenantId db.productRuns.rows).map RunRow.runId := by
    intro hmem
    obtain ⟨r, hr, hid⟩ := List.mem_map.mp hmem
    obtain ⟨hr, ht⟩ := mem_share.mp hr
    exact hrun.ne hne ⟨r, hr, rfl, ht⟩ hid
  have hrows := (Table.insert?_eq_some hins).1
  simp only [Database.share, hrows, List.filter_append, List.filter_singleton]
  simp [hforeign]

/-- **A write leaves the other tenants alone.** -/
theorem Writes.undisturbed (h : Writes t db db') (hrefers : Referring db) (hne : tenantId ≠ t) :
    Undisturbed tenantId db db' := by
  have hother : ∀ {u}, u = t → u ≠ tenantId := by
    rintro u rfl
    exact hne.symm
  have hrows : ∀ {α : Type} {rows : List α} {own : α → String} {p : α → Bool},
      (∀ r ∈ rows, p r = true → own r = t) → ∀ r ∈ rows, p r = true → own r ≠ tenantId :=
    fun hp r hr hit => hother (hp r hr hit)
  have hrun : ∀ {runId runId'}, HasRun db runId t → HasRun db runId' tenantId → runId' ≠ runId :=
    fun hr hr' => hr.ne hne hr'
  cases h with
  | newRun hins ht hp =>
    refine undisturbed_of_share ?_ rfl rfl
    simp only [Database.share, Table.share_insert hins (hother ht)]
  | @runs p f hf hp hl =>
    have hown : ∀ r, (f r).tenantId = r.tenantId := fun r => (congrArg RunRow.tenantId (hl r) :)
    refine undisturbed_of_share ?_ rfl rfl
    simp only [Database.share, Table.share_update hf hown (hrows hp)]
  | event hins ht hr =>
    refine undisturbed_of_share ?_ rfl rfl
    simp only [Database.share, Table.share_insert hins (hother ht)]
  | checkpoint hf ht hr hown =>
    refine undisturbed_of_share ?_ rfl rfl
    have hold := Table.share_upsert (t := db.graphCheckpoints) hf (hother ht) hown
      fun x hx hid hx' => hrun hr (hx' ▸ hrefers.checkpoints x hx) hid
    simp only [Database.share, hold]
  | usage hins hr => exact undisturbed_of_share (usage_share hins hr hne) rfl rfl
  | newApproval hins ht hr hp =>
    refine undisturbed_of_share ?_ rfl rfl
    simp only [Database.share, Table.share_insert hins (hother ht)]
  | @consumed p hf hp =>
    have hold : share ApprovalRow.tenantId tenantId (db.approvals.update p _ hf).rows = _ :=
      Table.share_update hf (fun _ => rfl) (hrows hp)
    refine undisturbed_of_share ?_ rfl rfl
    simp only [Database.share, hold]
  | report ht hr =>
    have hold := Table.share_replace (t := db.releaseReports) rfl (hother ht)
      fun x hx hx' => and_self_iff.mpr (hrun hr (hx' ▸ hrefers.reports x hx))
    refine undisturbed_of_share ?_ rfl rfl
    simp only [Database.share, hold]
  | @repository row f hf ht =>
    have htenant : ∀ r, (f r).tenantId = r.tenantId := fun r =>
      (congrArg Prod.fst (hf.pk_eq r) :)
    have hold := Table.share_upsert (t := db.repositories) hf (hother ht) htenant
      fun x hx hkey => hother ((congrArg Prod.fst hkey).trans ht)
    refine undisturbed_of_share ?_ rfl rfl
    simp only [Database.share, hold]
  | newProposal hins ht hlatest =>
    refine undisturbed_of_share ?_ rfl rfl
    simp only [Database.share, Table.share_insert hins (hother ht)]
  | @proposals p f hf hp hl hlatest =>
    have hown : ∀ r, (f r).tenantId = r.tenantId := fun r =>
      (congrArg ProposalRow.tenantId (hl r) :)
    refine undisturbed_of_share ?_ rfl rfl
    simp only [Database.share, Table.share_update hf hown (hrows hp)]
  | proposalRun ht hr hp =>
    have hold := Table.share_replace (t := db.proposalRuns) rfl (hother ht)
      fun x hx hx' => and_self_iff.mpr (hrun hr (hx' ▸ (hrefers.proposalRuns x hx).1))
    refine undisturbed_of_share ?_ rfl rfl
    simp only [Database.share, hold]
  | @proposalRuns p f hf hp hown =>
    have htenant : ∀ r, (f r).tenantId = r.tenantId := fun r =>
      (congrArg (fun link => link.2.2) (hown r) :)
    refine undisturbed_of_share ?_ rfl rfl
    simp only [Database.share, Table.share_update hf htenant (hrows hp)]
  | newEvidence hins ht hr hp =>
    refine undisturbed_of_share ?_ rfl rfl
    simp only [Database.share, Table.share_insert hins (hother ht)]
  | @evidence p f hf hp hown =>
    have htenant : ∀ r, (f r).tenantId = r.tenantId := fun r =>
      (congrArg (fun link => link.2.2) (hown r) :)
    refine undisturbed_of_share ?_ rfl rfl
    simp only [Database.share, Table.share_update hf htenant (hrows hp)]
  | @noEvidence p hp =>
    have hold : share EvidenceRow.tenantId tenantId (db.evidenceSnapshots.delete p).rows = _ :=
      Table.share_delete (hrows hp)
    refine undisturbed_of_share ?_ rfl rfl
    simp only [Database.share, hold]
  | plan ht hr hp =>
    refine { undisturbed_refl tenantId db with plans := ?_, planIds := persist_replace _ _ rfl }
    exact fun x hx hx' => Table.mem_replace_of_own rfl (hother ht) hx hx'
  | newProposalApproval hins ht hr hp =>
    refine undisturbed_of_share ?_ rfl rfl
    simp only [Database.share, Table.share_insert hins (hother ht)]
  | @proposalApprovals p f hf hp hown =>
    have htenant : ∀ r, (f r).tenantId = r.tenantId := fun r =>
      (congrArg (fun link => link.2.2) (hown r) :)
    refine undisturbed_of_share ?_ rfl rfl
    simp only [Database.share, Table.share_update hf htenant (hrows hp)]
  | verification ht hr hp =>
    have hold := Table.share_replace (t := db.verificationReports) rfl (hother ht)
      fun x hx hx' => and_self_iff.mpr (hrun hr (hx' ▸ (hrefers.verificationReports x hx).1))
    refine undisturbed_of_share ?_ rfl rfl
    simp only [Database.share, hold]
  | @verifications p f hf hp hown =>
    have htenant : ∀ r, (f r).tenantId = r.tenantId := fun r =>
      (congrArg (fun link => link.2.2) (hown r) :)
    refine undisturbed_of_share ?_ rfl rfl
    simp only [Database.share, Table.share_update hf htenant (hrows hp)]
  | artifact ht hr hp =>
    refine { undisturbed_refl tenantId db with
      artifacts := ?_, artifactIds := persist_replace _ _ rfl }
    exact fun x hx hx' => Table.mem_replace_of_own rfl (hother ht) hx hx'
  | trace ht hr hp =>
    have hold := Table.share_replace (t := db.traceCorrelations) rfl (hother ht)
      fun x hx hx' => and_self_iff.mpr (hrun hr (hx' ▸ (hrefers.traces x hx).1))
    refine undisturbed_of_share ?_ rfl rfl
    simp only [Database.share, hold]

end Writes

/-- Any number of writes for a tenant. -/
abbrev Written (t : String) : Database → Database → Prop := Relation.ReflTransGen (Writes t)

section Written

variable {t tenantId : String} {db db' : Database}

theorem Written.lasting (h : Written t db db') : Lasting db db' := by
  induction h with
  | refl => exact lasting_refl db
  | tail _ hwrite ih => exact ih.trans hwrite.lasting

theorem Written.referring (h : Written t db db') (hrefers : Referring db) : Referring db' := by
  induction h with
  | refl => exact hrefers
  | tail _ hwrite ih => exact hwrite.referring ih

theorem Written.undisturbed (h : Written t db db') (hrefers : Referring db) (hne : tenantId ≠ t) :
    Undisturbed tenantId db db' := by
  induction h with
  | refl => exact undisturbed_refl tenantId db
  | tail hwritten hwrite ih =>
    exact ih.trans (hwrite.undisturbed (Written.referring hwritten hrefers) hne)

end Written

end AiSaas.Kernel
