import AiSaas.Kernel.Staleness

/-!
# The outputs of a proposal

The outputs of a run are saved as a whole and shown with its proposal.  The evidence is
exploded into rows, each named by its index; the rows are read back in the order of
those names, which is the order of texts and not that of numbers.

## Main definitions

* `Outputs.evidenceRows` — the rows of the evidence.
* `Outputs.saved` — the database after a save.
* `Outputs.RestReadable` — what else the view reads can be read.
* `Outputs.RoundTrip` — the view shows the outputs, and saving them again changes dates
  alone.

## Main results

* `saveProposalOutputs_ok` — what a save has written.
* `evidence_in_order_iff` — up to ten items are read back in their order.
* `saveProposalOutputs_again` — a second save changes dates alone.
* `outputs_round_trip_iff` — when the outputs round trip.
-/

namespace AiSaas.Kernel

open Relational Transaction Processes Store

variable (host : Host)

/-! ### The order of names -/

/-- Indices of one digit are in the order of their texts. -/
theorem repr_le_of_lt {i j : ℕ} (hij : i ≤ j) (hj : j < 10) : toString i ≤ toString j := by
  interval_cases j <;> interval_cases i <;> decide

/-- The tenth index is named before the second one. -/
theorem not_repr_two_le_ten : ¬ toString 2 ≤ toString 10 := by decide

/-- Texts behind one prefix are ordered as they are. -/
theorem append_le_append_iff {p s t : String} : p ++ s ≤ p ++ t ↔ s ≤ t := by
  simp only [String.le_iff_toList_le, String.toList_append]
  constructor
  · intro h
    by_contra hlt
    exact absurd h (not_le.mpr (List.append_left_lt (not_le.mp hlt)))
  · intro h
    rcases h.lt_or_eq with hlt | heq
    · exact (List.append_left_lt hlt).le
    · rw [heq]

theorem Outputs.evidenceId_le_iff (args : Outputs) {i j : ℕ} :
    args.evidenceId i ≤ args.evidenceId j ↔ toString i ≤ toString j := append_le_append_iff

/-! ### What a save writes -/

namespace Outputs

/-- The rows of the evidence, under their indices. -/
def evidenceRows (args : Outputs) (checkedCommit : Value) :
    ℕ → List Mapping → Except Raised (List EvidenceRow)
  | _, [] => .ok []
  | index, item :: items => do
    let row ← evidenceRow host args checkedCommit index item
    let rows ← evidenceRows args checkedCommit (index + 1) items
    return row :: rows

/-- A row is of the run. -/
def ofRun (args : Outputs) (runId tenantId : String) : Bool :=
  decide (runId = args.runId ∧ tenantId = args.tenantId)

/-- The text of the plan. -/
def planJson (args : Outputs) : Except Raised (Option String) :=
  match args.plan with
  | some plan => (safeJson host (.dict plan)).map some
  | none => .ok none

/-- The text of the report. -/
def reportJson (args : Outputs) : Option String :=
  args.report.bind fun report => (safeJson host (.dict report)).toOption

/-- The plans with one that is saved. -/
def savedPlans (args : Outputs) (now : String) :
    Option Mapping → Option String → (Table PlanRow.planId PlanRow.planId fun _ => true) →
      Table PlanRow.planId PlanRow.planId fun _ => true
  | some plan, some encoded, plans =>
    let planId := pyStr host (plan.getD "plan_id" (.str ("plan-" ++ args.runId)))
    plans.replace ⟨planId, args.runId, args.proposalId, args.tenantId, textOr encoded "\x7b\x7d",
      host.sha256 encoded, ((plans.find? planId).map PlanRow.createdAt).getD now⟩ rfl
  | _, _, plans => plans

/-- The reports with one that is saved. -/
def savedReports (args : Outputs) (now : String) :
    Option Mapping → Option String → (Table VerificationRow.runId VerificationRow.runId fun _ => true) →
      Table VerificationRow.runId VerificationRow.runId fun _ => true
  | some report, some encoded, reports =>
    reports.replace ⟨args.runId, args.proposalId, args.tenantId, encoded,
      pyStr host (report.getD "status" (.str "unknown")), false,
      ((reports.find? args.runId).map VerificationRow.createdAt).getD now, now⟩ rfl
  | _, _, reports => reports

/-- The requirements and the plan of a run are no part of its keys. -/
theorem keeps_requirements (requirementsJson : String) (planJson : Option String) (now : String) :
    Keeps ProposalRunRow.runId ProposalRunRow.runId (fun _ => true) fun r =>
      { r with requirementsJson, planJson, updatedAt := now } :=
  ⟨fun _ => rfl, fun _ => rfl, fun _ _ => rfl⟩

/-- That a proposal is not stale is no part of its keys. -/
theorem keeps_fresh (now : String) :
    Keeps ProposalRow.proposalId ProposalRow.requestKey (fun _ => true) fun r =>
      { r with staleEvidence := false, staleReason := none, updatedAt := now } :=
  ⟨fun _ => rfl, fun _ => rfl, fun _ _ => rfl⟩

/-- The database after a save. -/
def saved (args : Outputs) (now requirementsJson : String) (planJson : Option String)
    (evidenceSnapshots : Table EvidenceRow.evidenceId EvidenceRow.evidenceId fun _ => true)
    (db : Database) : Database :=
  updateProposal args.proposalId args.tenantId
    (fun r => { r with staleEvidence := false, staleReason := none, updatedAt := now })
    (keeps_fresh now)
    { db with
      proposalRuns := db.proposalRuns.update (fun r => args.ofRun r.runId r.tenantId)
        (fun r => { r with requirementsJson, planJson, updatedAt := now })
        (keeps_requirements requirementsJson planJson now)
      evidenceSnapshots
      plans := args.savedPlans host now args.plan planJson db.plans
      verificationReports := args.savedReports host now args.report (args.reportJson host)
        db.verificationReports }

end Outputs

variable {host} {args : Outputs} {db db' : Database} {May : Draw → Prop} {r : Except Raised Unit}

theorem evidenceId_of_evidenceRow {checkedCommit : Value} {index : ℕ} {item : Mapping} {row : EvidenceRow}
    (h : evidenceRow host args checkedCommit index item = .ok row) :
    row.evidenceId = args.evidenceId index ∧ row.runId = args.runId ∧ row.tenantId = args.tenantId := by
  simp only [evidenceRow, bind_eq_ok] at h
  obtain ⟨_, -, _, -, _, -, _, -, _, -, _, -, _, -, _, -, _, -, _, -, _, -, _, -, _, -, h⟩ := h
  obtain rfl := Except.ok.inj h
  exact ⟨rfl, rfl, rfl⟩

/-- The rows of the evidence stand under their indices. -/
theorem evidenceId_of_evidenceRows {checkedCommit : Value} {items : List Mapping} {index : ℕ}
    {rows : List EvidenceRow} (h : args.evidenceRows host checkedCommit index items = .ok rows) :
    rows.length = items.length ∧ ∀ k row, rows[k]? = some row →
      row.evidenceId = args.evidenceId (index + k) ∧ row.runId = args.runId ∧
        row.tenantId = args.tenantId := by
  induction items generalizing index rows with
  | nil =>
    obtain rfl := Except.ok.inj h
    exact ⟨rfl, fun k row hk => by cases hk⟩
  | cons item items ih =>
    simp only [Outputs.evidenceRows, bind_eq_ok] at h
    obtain ⟨row, hrow, rest, hrest, h⟩ := h
    obtain rfl := Except.ok.inj h
    obtain ⟨hlength, hids⟩ := ih hrest
    refine ⟨congrArg Nat.succ hlength, fun k row' hk => ?_⟩
    cases k with
    | zero =>
      obtain rfl := Option.some.inj hk
      exact evidenceId_of_evidenceRow hrow
    | succ k =>
      rw [← Nat.add_assoc, Nat.add_right_comm]
      exact hids k row' hk

/-- **The insertion of the evidence** appends its rows, or raises. -/
theorem insertEvidence_ok {checkedCommit : Value} {items : List Mapping} {index : ℕ}
    (h : (insertEvidence host args checkedCommit index items).Ends (StoreOp.exec host) May db (.ok ()) db') :
    ∃ rows evidenceSnapshots, args.evidenceRows host checkedCommit index items = .ok rows ∧
      evidenceSnapshots.rows = db.evidenceSnapshots.rows ++ rows ∧
      db' = { db with evidenceSnapshots } := by
  induction items generalizing db index with
  | nil =>
    obtain ⟨-, rfl⟩ := ends_pure h
    exact ⟨[], db'.evidenceSnapshots, rfl, (List.append_nil _).symm, rfl⟩
  | cons item items ih =>
    rw [insertEvidence] at h
    rcases ends_write h with ⟨_, -, he, -⟩ | ⟨db₁, hwrite, h⟩
    · cases he
    simp only [bind_eq_ok, orRaise_eq_ok] at hwrite
    obtain ⟨row, hrow, table, hinsert, hwrite⟩ := hwrite
    obtain rfl := Except.ok.inj hwrite
    obtain ⟨rows, evidenceSnapshots, hrows, htable, rfl⟩ := ih h
    refine ⟨row :: rows, evidenceSnapshots, ?_, ?_, rfl⟩
    · rw [Outputs.evidenceRows, hrow, hrows]
      rfl
    · rw [htable, (Table.insert?_eq_some hinsert).1, List.append_assoc]
      rfl

/-- What a save has found and made, where it returns. -/
structure Outputs.Written (host : Host) (args : Outputs) (db : Database) where
  proposal : ProposalRow
  snapshot : Snapshot
  requirementsJson : String
  planJson : Option String
  rows : List EvidenceRow
  evidenceSnapshots : Table EvidenceRow.evidenceId EvidenceRow.evidenceId fun _ => true
  owned : ownedProposal args.proposalId args.tenantId db = .ok proposal
  current : proposal.latestRunId = some args.runId
  snapshot_eq : snapshotOf host (some args.repositorySnapshot) = .ok snapshot
  requirements_eq : safeJson host (.list (args.requirements.map .dict)) = .ok requirementsJson
  plan_eq : args.planJson host = .ok planJson
  report_eq : args.report.isSome = true → (args.reportJson host).isSome = true
  rows_eq : args.evidenceRows host snapshot.commit 0 args.evidence = .ok rows
  evidence_eq : evidenceSnapshots.rows
    = (db.evidenceSnapshots.rows.filter fun r => !args.ofRun r.runId r.tenantId) ++ rows

/-- Where the plan is saved, with its text. -/
theorem savePlan_ok {now : String} (h : (savePlan host args now).Ends (StoreOp.exec host) May db (.ok ()) db') :
    ∃ planJson, args.planJson host = .ok planJson ∧
      db' = { db with plans := args.savedPlans host now args.plan planJson db.plans } := by
  unfold savePlan at h
  unfold Outputs.planJson
  cases hplan : args.plan with
  | none =>
    simp only [hplan] at h
    obtain ⟨-, rfl⟩ := ends_pure h
    exact ⟨none, rfl, rfl⟩
  | some plan =>
    simp only [hplan] at h
    rcases ends_ofExcept h with ⟨_, -, he, -⟩ | ⟨encoded, hencoded, h⟩
    · cases he
    · rcases ends_lastWrite h with ⟨_, -, he, -⟩ | ⟨hwrite, -⟩
      · cases he
      · obtain rfl := Except.ok.inj hwrite
        exact ⟨some encoded, by simp only [hencoded]; rfl, rfl⟩

/-- Where the report is saved. -/
theorem saveOutputReport_ok {now : String}
    (h : (saveOutputReport host args now).Ends (StoreOp.exec host) May db (.ok ()) db') :
    (args.report.isSome = true → (args.reportJson host).isSome = true) ∧
      db' = { db with verificationReports :=
        args.savedReports host now args.report (args.reportJson host) db.verificationReports } := by
  unfold saveOutputReport at h
  unfold Outputs.reportJson
  cases hreport : args.report with
  | none =>
    simp only [hreport] at h
    obtain ⟨-, rfl⟩ := ends_pure h
    exact ⟨fun hsome => absurd hsome Bool.false_ne_true, rfl⟩
  | some report =>
    simp only [hreport] at h
    rcases ends_ofExcept h with ⟨_, -, he, -⟩ | ⟨encoded, hencoded, h⟩
    · cases he
    · rcases ends_lastWrite h with ⟨_, -, he, -⟩ | ⟨hwrite, -⟩
      · cases he
      · obtain rfl := Except.ok.inj hwrite
        simp only [Option.bind_some, hencoded]
        exact ⟨fun _ => rfl, rfl⟩

/-- **What a save has written**, where it returns. -/
theorem saveProposalOutputs_ok
    (h : (saveProposalOutputs host args).Ends (StoreOp.exec host) May db (.ok ()) db') :
    ∃ (w : args.Written host db) (now : String),
      db' = args.saved host now w.requirementsJson w.planJson w.evidenceSnapshots db := by
  unfold saveProposalOutputs at h
  have h := ends_look h
  rcases ends_ofExcept h with ⟨_, -, he, -⟩ | ⟨proposal, hproposal, h⟩
  · cases he
  split at h
  swap
  · cases (ends_raise h).1
  next hlatest =>
  rcases ends_ofExcept h with ⟨_, -, he, -⟩ | ⟨snapshot, hsnapshot, h⟩
  · cases he
  rcases ends_ofExcept h with ⟨_, -, he, -⟩ | ⟨requirementsJson, hrequirements, h⟩
  · cases he
  rcases ends_ofExcept h with ⟨_, -, he, -⟩ | ⟨planJson, hplan, h⟩
  · cases he
  obtain ⟨d, -, h⟩ := ends_now h
  rcases ends_write h with ⟨_, he, -⟩ | ⟨db₁, hwrite, h⟩
  · cases he
  obtain rfl := Except.ok.inj hwrite
  rcases ends_write h with ⟨_, he, -⟩ | ⟨db₂, hwrite, h⟩
  · cases he
  obtain rfl := Except.ok.inj hwrite
  rcases Prog.ends_bind h with ⟨_, -, he⟩ | ⟨⟨⟩, db₃, hevidence, h⟩
  · cases he
  obtain ⟨rows, evidenceSnapshots, hrows, htable, rfl⟩ := insertEvidence_ok hevidence
  rcases Prog.ends_bind h with ⟨_, -, he⟩ | ⟨⟨⟩, db₄, hsaved, h⟩
  · cases he
  obtain ⟨planJson', hplan', rfl⟩ := savePlan_ok hsaved
  obtain rfl : planJson' = planJson := Except.ok.inj (hplan'.symm.trans hplan)
  rcases Prog.ends_bind h with ⟨_, -, he⟩ | ⟨⟨⟩, db₅, hreported, h⟩
  · cases he
  obtain ⟨hreport, rfl⟩ := saveOutputReport_ok hreported
  rcases ends_lastWrite h with ⟨_, he, -⟩ | ⟨hwrite, -⟩
  · cases he
  obtain rfl := Except.ok.inj hwrite
  exact ⟨⟨proposal, snapshot, requirementsJson, planJson', rows, evidenceSnapshots, hproposal, hlatest,
    hsnapshot, hrequirements, hplan', hreport, hrows, htable⟩, _, rfl⟩

/-! ### What the view reads -/

section View

variable (runId tenantId : String)

/-- The row of a run in `proposal_runs`. -/
def runDetail (db : Database) : Option ProposalRunRow :=
  db.proposalRuns.rows.find? fun r => decide (r.runId = runId ∧ r.tenantId = tenantId)

/-- The requirements of a view. -/
def shownRequirements (db : Database) : Except Raised JsonText.Value :=
  match runDetail runId tenantId db with
  | some r => loads (textOr r.requirementsJson "[]")
  | none => .ok (.arr [])

/-- The plan of a view. -/
def shownPlan (db : Database) : Except Raised (Option JsonText.Value) :=
  match (runDetail runId tenantId db).bind fun r => r.planJson.filter fun s => decide (s ≠ "") with
  | some planJson => (loads planJson).map some
  | none => .ok none

/-- The approval of a view. -/
def shownApproval (db : Database) : Except Raised (Option (ProposalApprovalRow × JsonText.Value)) :=
  match latest ProposalApprovalRow.createdAt (db.proposalApprovals.rows.filter
      fun r => decide (r.runId = runId ∧ r.tenantId = tenantId)) with
  | some r => (loads r.scopesJson).map fun scopes => some (r, scopes)
  | none => .ok none

/-- The artifacts of a view. -/
def shownArtifacts (db : Database) : Except Raised (List (ArtifactRow × JsonText.Value)) :=
  ((db.proposalArtifacts.rows.filter fun r =>
      decide (r.runId = runId ∧ r.tenantId = tenantId)).mergeSort fun a b =>
      decide (a.createdAt < b.createdAt ∨ a.createdAt = b.createdAt ∧ a.artifactId ≤ b.artifactId)).mapM
    fun r => (loads (textOr r.metadataJson "\x7b\x7d")).map fun metadata => (r, metadata)

/-- The evidence of a view. -/
def shownEvidence (db : Database) : List EvidenceRow :=
  (db.evidenceSnapshots.rows.filter fun r =>
    decide (r.runId = runId ∧ r.tenantId = tenantId)).mergeSort
      fun a b => decide (a.evidenceId ≤ b.evidenceId)

variable {runId tenantId}

/-- **What a view is made of.** -/
theorem runView_eq_ok_iff {row : ProposalRow} {view : ProposalView} :
    runView row runId tenantId db = .ok view ↔
      ∃ run requirements plan approval report artifacts, getRun runId tenantId db = .ok run ∧
        shownRequirements runId tenantId db = .ok requirements ∧
        shownPlan runId tenantId db = .ok plan ∧ shownApproval runId tenantId db = .ok approval ∧
        shownReport runId tenantId db = .ok report ∧ shownArtifacts runId tenantId db = .ok artifacts ∧
        view = ⟨proposalRecord row, some run, requirements, shownEvidence runId tenantId db, plan,
          approval, report, artifacts, db.traceCorrelations.rows.find? fun r =>
            decide (r.runId = runId ∧ r.tenantId = tenantId)⟩ := by
  have hview : runView row runId tenantId db = (do
      let run ← getRun runId tenantId db
      let requirements ← shownRequirements runId tenantId db
      let plan ← shownPlan runId tenantId db
      let approval ← shownApproval runId tenantId db
      let report ← shownReport runId tenantId db
      let artifacts ← shownArtifacts runId tenantId db
      return ⟨proposalRecord row, some run, requirements, shownEvidence runId tenantId db, plan,
          approval, report, artifacts, db.traceCorrelations.rows.find? fun r =>
            decide (r.runId = runId ∧ r.tenantId = tenantId)⟩) := by
    simp only [runView, shownRequirements, shownPlan, shownApproval, runDetail]
    generalize (db.proposalRuns.rows.find? _).bind _ = plan?
    generalize db.proposalRuns.rows.find? _ = run?
    generalize latest ProposalApprovalRow.createdAt _ = approval?
    cases plan? <;> cases run? <;> cases approval? <;> rfl
  rw [hview]
  simp only [bind_eq_ok, pure, Except.pure, Except.ok.injEq]
  constructor
  · rintro ⟨run, hrun, requirements, hrequirements, plan, hplan, approval, happroval, report, hreport,
      artifacts, hartifacts, rfl⟩
    exact ⟨run, requirements, plan, approval, report, artifacts, hrun, hrequirements, hplan, happroval,
      hreport, hartifacts, rfl⟩
  · rintro ⟨run, requirements, plan, approval, report, artifacts, hrun, hrequirements, hplan, happroval,
      hreport, hartifacts, rfl⟩
    exact ⟨run, hrun, requirements, hrequirements, plan, hplan, approval, happroval, report, hreport,
      artifacts, hartifacts, rfl⟩

end View

/-! ### The evidence -/

/-- **Up to ten rows are read back in their order**: the eleventh is named between the
second and the third. -/
theorem evidence_in_order_iff {rows : List EvidenceRow}
    (hids : ∀ (k : ℕ) row, rows[k]? = some row → row.evidenceId = args.evidenceId k) :
    (rows.mergeSort fun a b => decide (a.evidenceId ≤ b.evidenceId)) = rows ↔ rows.length ≤ 10 := by
  constructor
  · intro hsorted
    by_contra hlong
    have hpairs := @List.pairwise_mergeSort _ (fun a b : EvidenceRow => decide (a.evidenceId ≤ b.evidenceId))
      (fun a b c hab hbc => by simp only [decide_eq_true_eq] at *; exact hab.trans hbc)
      (fun a b => by simpa using le_total a.evidenceId b.evidenceId) rows
    rw [hsorted] at hpairs
    have hle := List.pairwise_iff_getElem.mp hpairs 2 10 (by omega) (by omega) (by omega)
    rw [decide_eq_true_eq, hids 2 _ (List.getElem?_eq_getElem _), hids 10 _ (List.getElem?_eq_getElem _),
      args.evidenceId_le_iff] at hle
    exact not_repr_two_le_ten hle
  · intro hshort
    apply List.mergeSort_of_pairwise
    refine List.pairwise_iff_getElem.mpr fun i j hi hj hij => ?_
    rw [decide_eq_true_eq, hids i _ (List.getElem?_eq_getElem hi), hids j _ (List.getElem?_eq_getElem hj),
      args.evidenceId_le_iff]
    exact repr_le_of_lt hij.le (by omega)

section Saved

variable (w : args.Written host db) (now : String)

/-- The identifiers of the rows that were written. -/
theorem Outputs.Written.evidenceId_eq (k : ℕ) (row : EvidenceRow) (hk : w.rows[k]? = some row) :
    row.evidenceId = args.evidenceId k := by
  have hid := ((evidenceId_of_evidenceRows w.rows_eq).2 k row hk).1
  rwa [Nat.zero_add] at hid

theorem Outputs.Written.length_rows : w.rows.length = args.evidence.length :=
  (evidenceId_of_evidenceRows w.rows_eq).1

/-- The rows of the run are the ones that were written. -/
theorem Outputs.Written.rows_filter :
    (w.evidenceSnapshots.rows.filter fun r => args.ofRun r.runId r.tenantId) = w.rows := by
  rw [w.evidence_eq, List.filter_append, List.filter_filter]
  have hothers : (db.evidenceSnapshots.rows.filter fun r =>
      args.ofRun r.runId r.tenantId && !args.ofRun r.runId r.tenantId) = [] := by simp
  have hown : (w.rows.filter fun r => args.ofRun r.runId r.tenantId) = w.rows := by
    refine List.filter_eq_self.mpr fun row hrow => ?_
    obtain ⟨k, hk⟩ := List.mem_iff_getElem?.mp hrow
    obtain ⟨-, hrun, htenant⟩ := (evidenceId_of_evidenceRows w.rows_eq).2 k row hk
    simp [Outputs.ofRun, hrun, htenant]
  rw [hothers, hown, List.nil_append]

theorem shownEvidence_saved :
    shownEvidence args.runId args.tenantId
        (args.saved host now w.requirementsJson w.planJson w.evidenceSnapshots db)
      = w.rows.mergeSort fun a b => decide (a.evidenceId ≤ b.evidenceId) :=
  congrArg (List.mergeSort · _) w.rows_filter

/-- The row of the run after the save. -/
theorem runDetail_saved {detail : ProposalRunRow}
    (hdetail : runDetail args.runId args.tenantId db = some detail) :
    runDetail args.runId args.tenantId
        (args.saved host now w.requirementsJson w.planJson w.evidenceSnapshots db)
      = some { detail with requirementsJson := w.requirementsJson, planJson := w.planJson, updatedAt := now } := by
  have hfound : (db.proposalRuns.rows.find? fun r =>
    decide (r.runId = args.runId ∧ r.tenantId = args.tenantId)) = some detail := hdetail
  have hkept : ∀ r : ProposalRunRow, args.ofRun r.runId r.tenantId = args.ofRun
      { r with requirementsJson := w.requirementsJson, planJson := w.planJson, updatedAt := now }.runId
      { r with requirementsJson := w.requirementsJson, planJson := w.planJson, updatedAt := now }.tenantId :=
    fun _ => rfl
  refine (find?_setWhere (f := fun r : ProposalRunRow => _) (fun r => (hkept r).symm) _).trans ?_
  rw [hfound]
  rfl

/-- A text that loads is not the empty one. -/
theorem ne_empty_of_loads {text : String} {v : JsonText.Value} (h : loads text = .ok v) : text ≠ "" := by
  rintro rfl
  cases h

theorem shownRequirements_saved {detail : ProposalRunRow}
    (hdetail : runDetail args.runId args.tenantId db = some detail)
    (hfits : Fits host (.list (args.requirements.map .dict))) :
    shownRequirements args.runId args.tenantId
        (args.saved host now w.requirementsJson w.planJson w.evidenceSnapshots db)
      = .ok (toJson (redact host (.list (args.requirements.map .dict)))) := by
  have hloads := loads_safeJson hfits w.requirements_eq
  rw [shownRequirements, runDetail_saved w now hdetail]
  simp only [textOr, if_neg (ne_empty_of_loads hloads)]
  exact hloads

theorem shownPlan_saved {detail : ProposalRunRow}
    (hdetail : runDetail args.runId args.tenantId db = some detail)
    (hfits : ∀ plan, args.plan = some plan → Fits host (.dict plan)) :
    shownPlan args.runId args.tenantId
        (args.saved host now w.requirementsJson w.planJson w.evidenceSnapshots db)
      = .ok (args.plan.map fun plan => toJson (redact host (.dict plan))) := by
  have hplan := w.plan_eq
  rw [shownPlan, runDetail_saved w now hdetail]
  unfold Outputs.planJson at hplan
  cases hgiven : args.plan with
  | none =>
    rw [hgiven] at hplan
    rw [Option.bind_some, ← Except.ok.inj hplan]
    rfl
  | some plan =>
    simp only [hgiven] at hplan
    obtain ⟨text, htext, hsome⟩ := map_eq_ok.mp hplan
    have hloads := loads_safeJson (hfits plan hgiven) htext
    have hkept : (some text).filter (fun s => decide (s ≠ "")) = some text :=
      Option.filter_eq_some_iff.mpr ⟨rfl, decide_eq_true (ne_empty_of_loads hloads)⟩
    rw [Option.bind_some, ← hsome, hkept]
    change (loads text).map some = _
    rw [hloads]
    rfl

/-- **The report of the view** can be read if and only if the one that is given fits, or
the one that was there can be read. -/
theorem shownReport_saved_iff :
    (∃ report, shownReport args.runId args.tenantId
        (args.saved host now w.requirementsJson w.planJson w.evidenceSnapshots db) = .ok report) ↔
      match args.report with
      | some report => Fits host (.dict report)
      | none => ∃ report, shownReport args.runId args.tenantId db = .ok report := by
  cases hgiven : args.report with
  | none =>
    have hkept : (args.saved host now w.requirementsJson w.planJson w.evidenceSnapshots
        db).verificationReports = db.verificationReports := by
      simp only [Outputs.saved, updateProposal, hgiven, Outputs.savedReports]
    unfold shownReport
    rw [hkept]
    rfl
  | some given =>
    obtain ⟨text, htext⟩ : ∃ text, safeJson host (.dict given) = .ok text := by
      have hsome := w.report_eq (by rw [hgiven]; rfl)
      rw [Outputs.reportJson, hgiven, Option.bind_some] at hsome
      cases hjson : safeJson host (.dict given) with
      | error e => rw [hjson] at hsome; cases hsome
      | ok text => exact ⟨text, rfl⟩
    have hjson : args.reportJson host = some text := by
      rw [Outputs.reportJson, hgiven, Option.bind_some, htext]
      rfl
    obtain ⟨row, hrow, htexteq⟩ : ∃ row, ((args.saved host now w.requirementsJson w.planJson
        w.evidenceSnapshots db).verificationReports.rows.find? fun r =>
          decide (r.runId = args.runId ∧ r.tenantId = args.tenantId)) = some row ∧
            row.reportJson = text := by
      refine ⟨⟨args.runId, args.proposalId, args.tenantId, text,
        pyStr host (given.getD "status" (.str "unknown")), false,
        ((db.verificationReports.find? args.runId).map VerificationRow.createdAt).getD now, now⟩, ?_, rfl⟩
      simp only [Outputs.saved, updateProposal, hgiven, hjson, Outputs.savedReports, Table.replace]
      rw [List.find?_append, List.find?_eq_none.mpr, Option.none_or]
      · simp
      · intro r hr
        have hne := of_decide_eq_true (List.mem_filter.mp hr).2
        simp [hne.1]
    unfold shownReport
    rw [hrow]
    by_cases hfits : Fits host (.dict given)
    · refine iff_of_true ?_ hfits
      have hloads := loads_safeJson hfits htext
      simp only [htexteq, hloads, redact, toJson]
      exact ⟨_, rfl⟩
    · refine iff_of_false ?_ hfits
      rintro ⟨report, hreport⟩
      simp only [htexteq, (loads_cut hfits htext).2] at hreport
      cases hreport

/-- The proposal after the save. -/
theorem ownedProposal_saved :
    ownedProposal args.proposalId args.tenantId
        (args.saved host now w.requirementsJson w.planJson w.evidenceSnapshots db)
      = .ok { w.proposal with staleEvidence := false, staleReason := none, updatedAt := now } := by
  obtain ⟨hfound, htenant⟩ := ownedProposal_eq_ok.mp w.owned
  have hid := (Table.find?_eq_some.mp hfound).2
  refine ownedProposal_eq_ok.mpr ⟨?_, htenant⟩
  simp only [Outputs.saved, updateProposal, Table.find?_update, hfound, Option.map_some]
  rw [if_pos (decide_eq_true ⟨hid, htenant⟩)]

end Saved

/-! ### Saving twice -/

/-- The dates of the last writes are left out. -/
def Database.untimed (db : Database) : Database :=
  { db with
    proposals := db.proposals.update (fun _ => true) (fun r => { r with updatedAt := "" })
      ⟨fun _ => rfl, fun _ => rfl, fun _ _ => rfl⟩
    proposalRuns := db.proposalRuns.update (fun _ => true) (fun r => { r with updatedAt := "" })
      ⟨fun _ => rfl, fun _ => rfl, fun _ _ => rfl⟩
    verificationReports := db.verificationReports.update (fun _ => true)
      (fun r => { r with updatedAt := "" }) ⟨fun _ => rfl, fun _ => rfl, fun _ _ => rfl⟩ }

/-- Every item of evidence has its row. -/
theorem evidenceRow_of_evidenceRows {checkedCommit : Value} {items : List Mapping} {index : ℕ}
    {rows : List EvidenceRow} (h : args.evidenceRows host checkedCommit index items = .ok rows) (k : ℕ)
    (item : Mapping) (hk : items[k]? = some item) :
    ∃ row, evidenceRow host args checkedCommit (index + k) item = .ok row := by
  induction items generalizing index rows k with
  | nil => cases hk
  | cons first items ih =>
    simp only [Outputs.evidenceRows, bind_eq_ok] at h
    obtain ⟨row, hrow, rest, hrest, -⟩ := h
    cases k with
    | zero =>
      obtain rfl := Option.some.inj hk
      exact ⟨row, hrow⟩
    | succ k =>
      rw [← Nat.add_assoc, Nat.add_right_comm]
      exact ih hrest k hk

theorem savePlan_returns {now : String} {planJson : Option String} {x : Except Raised Unit}
    (hplan : args.planJson host = .ok planJson)
    (h : (savePlan host args now).Ends (StoreOp.exec host) May db x db') : x = .ok () := by
  unfold savePlan at h
  unfold Outputs.planJson at hplan
  cases hgiven : args.plan with
  | none =>
    simp only [hgiven] at h
    exact (ends_pure h).1
  | some plan =>
    simp only [hgiven] at h hplan
    obtain ⟨text, htext, -⟩ := map_eq_ok.mp hplan
    rcases ends_ofExcept h with ⟨_, he, -⟩ | ⟨encoded, -, h⟩
    · cases he.symm.trans htext
    · rcases ends_lastWrite h with ⟨_, he, -⟩ | ⟨-, hx⟩
      · cases he
      · exact hx

theorem saveOutputReport_returns {now : String} {x : Except Raised Unit}
    (hreport : args.report.isSome = true → (args.reportJson host).isSome = true)
    (h : (saveOutputReport host args now).Ends (StoreOp.exec host) May db x db') : x = .ok () := by
  unfold saveOutputReport at h
  unfold Outputs.reportJson at hreport
  cases hgiven : args.report with
  | none =>
    simp only [hgiven] at h
    exact (ends_pure h).1
  | some report =>
    simp only [hgiven] at h
    rcases ends_ofExcept h with ⟨_, he, -⟩ | ⟨encoded, -, h⟩
    · have hsome := hreport (by rw [hgiven]; rfl)
      rw [hgiven, Option.bind_some, he] at hsome
      cases hsome
    · rcases ends_lastWrite h with ⟨_, he, -⟩ | ⟨-, hx⟩
      · cases he
      · exact hx

/-- A save that has found and made everything once returns. -/
theorem saveProposalOutputs_of_written (w : args.Written host db)
    (h : (saveProposalOutputs host args).Ends (StoreOp.exec host) May db r db') : r = .ok () := by
  have hfree : ∀ x ∈ db.evidenceSnapshots.rows.filter (fun r => !args.ofRun r.runId r.tenantId),
      ∀ k < args.evidence.length, x.evidenceId ≠ args.evidenceId (0 + k) := by
    intro x hx k hk heq
    have hnodup := w.evidenceSnapshots.pk_nodup
    rw [w.evidence_eq, List.map_append] at hnodup
    have hrow := List.getElem?_eq_getElem (l := w.rows) (i := k) (by rw [w.length_rows]; exact hk)
    rw [Nat.zero_add] at heq
    refine (List.nodup_append.mp hnodup).2.2 _ (List.mem_map_of_mem hx) _
      (List.mem_map_of_mem (List.mem_of_getElem? hrow)) ?_
    rw [heq, w.evidenceId_eq k _ hrow]
  unfold saveProposalOutputs at h
  have h := ends_look h
  rcases ends_ofExcept h with ⟨_, he, -⟩ | ⟨proposal, hproposal, h⟩
  · cases he.symm.trans w.owned
  obtain rfl := Except.ok.inj (hproposal.symm.trans w.owned)
  rw [if_pos w.current] at h
  rcases ends_ofExcept h with ⟨_, he, -⟩ | ⟨snapshot, hsnapshot, h⟩
  · cases he.symm.trans w.snapshot_eq
  obtain rfl := Except.ok.inj (hsnapshot.symm.trans w.snapshot_eq)
  rcases ends_ofExcept h with ⟨_, he, -⟩ | ⟨requirementsJson, -, h⟩
  · cases he.symm.trans w.requirements_eq
  rcases ends_ofExcept h with ⟨_, he, -⟩ | ⟨planJson, hplan, h⟩
  · cases he.symm.trans w.plan_eq
  obtain ⟨d, -, h⟩ := ends_now h
  rcases ends_write h with ⟨_, he, -⟩ | ⟨db₁, hwrite, h⟩
  · cases he
  obtain rfl := Except.ok.inj hwrite
  rcases ends_write h with ⟨_, he, -⟩ | ⟨db₂, hwrite, h⟩
  · cases he
  obtain rfl := Except.ok.inj hwrite
  rcases Prog.ends_bind h with ⟨_, hevidence, -⟩ | ⟨⟨⟩, db₃, -, h⟩
  · have hitems := evidenceRow_of_evidenceRows w.rows_eq
    cases insertEvidence_ends hitems hfree hevidence
  rcases Prog.ends_bind h with ⟨_, hsaved, -⟩ | ⟨⟨⟩, db₄, -, h⟩
  · cases savePlan_returns w.plan_eq hsaved
  rcases Prog.ends_bind h with ⟨_, hreported, -⟩ | ⟨⟨⟩, db₅, -, h⟩
  · cases saveOutputReport_returns w.report_eq hreported
  rcases ends_lastWrite h with ⟨_, he, -⟩ | ⟨-, hr⟩
  · cases he
  · exact hr

/-- What a save has found and made is found and made again. -/
def Outputs.Written.again (w : args.Written host db) (now : String) :
    args.Written host (args.saved host now w.requirementsJson w.planJson w.evidenceSnapshots db) where
  proposal := { w.proposal with staleEvidence := false, staleReason := none, updatedAt := now }
  snapshot := w.snapshot
  requirementsJson := w.requirementsJson
  planJson := w.planJson
  rows := w.rows
  evidenceSnapshots := w.evidenceSnapshots
  owned := ownedProposal_saved w now
  current := w.current
  snapshot_eq := w.snapshot_eq
  requirements_eq := w.requirements_eq
  plan_eq := w.plan_eq
  report_eq := w.report_eq
  rows_eq := w.rows_eq
  evidence_eq := by
    change w.evidenceSnapshots.rows
      = w.evidenceSnapshots.rows.filter (fun r => !args.ofRun r.runId r.tenantId) ++ w.rows
    have hown : w.rows.filter (fun r => !args.ofRun r.runId r.tenantId) = [] := by
      refine List.filter_eq_nil_iff.mpr fun row hrow => ?_
      obtain ⟨k, hk⟩ := List.mem_iff_getElem?.mp hrow
      obtain ⟨-, hrun, htenant⟩ := (evidenceId_of_evidenceRows w.rows_eq).2 k row hk
      simp [Outputs.ofRun, hrun, htenant]
    rw [w.evidence_eq, List.filter_append, hown, List.append_nil, List.filter_filter]
    simp

/-- An update that is made twice, with other dates. -/
theorem setWhere_twice {α : Type} {p : α → Bool} {f g e : α → α} (hp : ∀ r, p (f r) = p r)
    (he : ∀ r, e (g (f r)) = e (f r)) (l : List α) :
    setWhere (fun _ => true) e (setWhere p g (setWhere p f l)) = setWhere (fun _ => true) e (setWhere p f l) := by
  simp only [setWhere, List.map_map]
  apply List.map_congr_left
  intro r _
  by_cases hr : p r = true <;> simp [hr, hp, he]

theorem savedPlans_twice {now now' : String} {plans : Table PlanRow.planId PlanRow.planId fun _ => true}
    (plan : Option Mapping) (planJson : Option String) :
    args.savedPlans host now' plan planJson (args.savedPlans host now plan planJson plans)
      = args.savedPlans host now plan planJson plans := by
  cases plan with
  | none => rfl
  | some plan =>
    cases planJson with
    | none => rfl
    | some encoded =>
      simp only [Outputs.savedPlans]
      have hdate : ∀ (row : PlanRow) planId, row.planId = planId →
          (((plans.replace row rfl).find? planId).map PlanRow.createdAt).getD now' = row.createdAt := by
        intro row planId hrow
        rw [Table.find?_replace (fun _ _ h => h), if_pos hrow]
        rfl
      simp only [hdate]
      exact Table.replace_replace (by rfl) (by rfl)

theorem savedReports_twice {now now' : String}
    {reports : Table VerificationRow.runId VerificationRow.runId fun _ => true}
    (report : Option Mapping) (json : Option String) :
    (args.savedReports host now' report json (args.savedReports host now report json reports)).update
        (fun _ => true) (fun r => { r with updatedAt := "" }) ⟨fun _ => rfl, fun _ => rfl, fun _ _ => rfl⟩
      = (args.savedReports host now report json reports).update
        (fun _ => true) (fun r => { r with updatedAt := "" }) ⟨fun _ => rfl, fun _ => rfl, fun _ _ => rfl⟩ := by
  cases report with
  | none => rfl
  | some report =>
    cases json with
    | none => rfl
    | some encoded =>
      simp only [Outputs.savedReports]
      have hdate : ∀ row : VerificationRow, row.runId = args.runId →
          (((reports.replace row rfl).find? args.runId).map VerificationRow.createdAt).getD now'
            = row.createdAt := by
        intro row hrow
        rw [Table.find?_replace (fun _ _ h => h), if_pos hrow]
        rfl
      apply Table.ext
      simp only [Table.update, hdate]
      rw [Table.replace_replace (by rfl) (by rfl)]
      simp only [Table.replace, setWhere_append]
      rfl

/-- **Two saves of the same outputs** differ in dates alone. -/
theorem saved_saved (requirementsJson : String) (planJson : Option String)
    (evidenceSnapshots : Table EvidenceRow.evidenceId EvidenceRow.evidenceId fun _ => true)
    (now now' : String) :
    (args.saved host now' requirementsJson planJson evidenceSnapshots
        (args.saved host now requirementsJson planJson evidenceSnapshots db)).untimed
      = (args.saved host now requirementsJson planJson evidenceSnapshots db).untimed := by
  simp only [Database.untimed, Outputs.saved, updateProposal, Database.mk.injEq, true_and, and_true]
  refine ⟨?_, ?_, ?_, ?_⟩
  · apply Table.ext
    apply setWhere_twice <;> intro r <;> rfl
  · apply Table.ext
    apply setWhere_twice <;> intro r <;> rfl
  · exact savedPlans_twice args.plan planJson
  · exact savedReports_twice args.report (args.reportJson host)

/-- **A second save of the same outputs** returns and changes dates alone. -/
theorem saveProposalOutputs_again {db'' : Database}
    (h : (saveProposalOutputs host args).Ends (StoreOp.exec host) May db (.ok ()) db')
    (h' : (saveProposalOutputs host args).Ends (StoreOp.exec host) May db' r db'') :
    r = .ok () ∧ db''.untimed = db'.untimed := by
  obtain ⟨w, now, rfl⟩ := saveProposalOutputs_ok h
  obtain rfl := saveProposalOutputs_of_written (w.again now) h'
  obtain ⟨w', now', rfl⟩ := saveProposalOutputs_ok h'
  have hsnapshot : w'.snapshot = w.snapshot :=
    Except.ok.inj (w'.snapshot_eq.symm.trans w.snapshot_eq)
  have hrows : w'.rows = w.rows := by
    have hrows := w'.rows_eq
    rw [hsnapshot] at hrows
    exact Except.ok.inj (hrows.symm.trans w.rows_eq)
  have hevidence : w'.evidenceSnapshots = w.evidenceSnapshots := by
    apply Table.ext
    rw [w'.evidence_eq, hrows]
    exact (w.again now).evidence_eq.symm
  have hrequirements : w'.requirementsJson = w.requirementsJson :=
    Except.ok.inj (w'.requirements_eq.symm.trans w.requirements_eq)
  have hplan : w'.planJson = w.planJson := Except.ok.inj (w'.plan_eq.symm.trans w.plan_eq)
  rw [hevidence, hrequirements, hplan]
  exact ⟨rfl, saved_saved _ _ _ now now'⟩

/-! ### The round trip -/

/-- The row of the run stands among the runs of the proposals. -/
structure Outputs.Current (args : Outputs) (db : Database) : Prop where
  named : args.runId ≠ ""
  detail : ∃ detail, runDetail args.runId args.tenantId db = some detail

/-- The encodings of the requirements and of the plan fit. -/
structure Outputs.Bounded (host : Host) (args : Outputs) : Prop where
  requirements : Fits host (.list (args.requirements.map .dict))
  plan : ∀ plan, args.plan = some plan → Fits host (.dict plan)

/-- What else the view reads can be read. -/
structure Outputs.RestReadable (host : Host) (args : Outputs) (db : Database) : Prop where
  run : ∃ run, getRun args.runId args.tenantId db = .ok run
  approval : ∃ approval, shownApproval args.runId args.tenantId db = .ok approval
  report : match args.report with
    | some report => Fits host (.dict report)
    | none => ∃ report, shownReport args.runId args.tenantId db = .ok report
  artifacts : ∃ artifacts, shownArtifacts args.runId args.tenantId db = .ok artifacts

/-- The view shows the outputs: the requirements and the plan, redacted, and the items of
the evidence in their order. -/
def Outputs.Shown (host : Host) (args : Outputs) (db : Database) : Prop :=
  ∃ view snapshot, proposalView args.proposalId args.tenantId db = .ok view ∧
    snapshotOf host (some args.repositorySnapshot) = .ok snapshot ∧
    view.requirements = toJson (redact host (.list (args.requirements.map .dict))) ∧
    view.plan = args.plan.map (fun plan => toJson (redact host (.dict plan))) ∧
    args.evidenceRows host snapshot.commit 0 args.evidence = .ok view.evidence

/-- The view shows the outputs, and a second save of them changes dates alone. -/
def Outputs.RoundTrip (host : Host) (args : Outputs) (May : Draw → Prop) (db : Database) : Prop :=
  args.Shown host db ∧ ∀ r db', (saveProposalOutputs host args).Ends (StoreOp.exec host) May db r db' →
    r = .ok () ∧ db'.untimed = db.untimed

/-- **The outputs are shown** if and only if there are at most ten items of evidence and
the rest of the view can be read. -/
theorem shown_saved_iff (w : args.Written host db) (now : String) (hcurrent : args.Current db)
    (hbounded : args.Bounded host) :
    args.Shown host (args.saved host now w.requirementsJson w.planJson w.evidenceSnapshots db) ↔
      args.evidence.length ≤ 10 ∧ args.RestReadable host db := by
  obtain ⟨hnamed, detail, hdetail⟩ := hcurrent
  have hview : ∀ view, proposalView args.proposalId args.tenantId
      (args.saved host now w.requirementsJson w.planJson w.evidenceSnapshots db) = .ok view ↔
        runView { w.proposal with staleEvidence := false, staleReason := none, updatedAt := now }
          args.runId args.tenantId
          (args.saved host now w.requirementsJson w.planJson w.evidenceSnapshots db) = .ok view := by
    intro view
    rw [proposalView, ownedProposal_saved w now]
    change (match w.proposal.latestRunId with
      | some runId => _
      | none => _) = _ ↔ _
    rw [w.current]
    change (if args.runId = "" then _ else _) = _ ↔ _
    rw [if_neg hnamed]
  have hreport := shownReport_saved_iff w now
  have horder := @evidence_in_order_iff _ w.rows w.evidenceId_eq
  rw [w.length_rows] at horder
  constructor
  · rintro ⟨view, snapshot, hviewed, hsnapshot, -, -, hrows⟩
    obtain ⟨run, requirements, plan, approval, report, artifacts, hrun, -, -, happroval, hshown,
      hartifacts, rfl⟩ := runView_eq_ok_iff.mp ((hview view).mp hviewed)
    obtain rfl := Except.ok.inj (w.snapshot_eq.symm.trans hsnapshot)
    have hsame : shownEvidence args.runId args.tenantId
        (args.saved host now w.requirementsJson w.planJson w.evidenceSnapshots db) = w.rows :=
      Except.ok.inj (hrows.symm.trans w.rows_eq)
    rw [shownEvidence_saved] at hsame
    exact ⟨horder.mp hsame, ⟨run, hrun⟩, ⟨approval, happroval⟩, hreport.mp ⟨report, hshown⟩,
      ⟨artifacts, hartifacts⟩⟩
  · rintro ⟨hshort, ⟨run, hrun⟩, ⟨approval, happroval⟩, hgiven, ⟨artifacts, hartifacts⟩⟩
    obtain ⟨report, hshown⟩ := hreport.mpr hgiven
    refine ⟨_, w.snapshot, (hview _).mpr (runView_eq_ok_iff.mpr ⟨run, _, _, approval, report, artifacts,
      hrun, shownRequirements_saved w now hdetail hbounded.requirements,
      shownPlan_saved w now hdetail hbounded.plan, happroval, hshown, hartifacts, rfl⟩),
      w.snapshot_eq, rfl, rfl, ?_⟩
    dsimp only
    rw [shownEvidence_saved, horder.mpr hshort]
    exact w.rows_eq

/-- A store with a proposal and a run of it. -/
def outputsDb : Database :=
  (Runs.final (Session.make sampleHost) Session.new (outdatedCalls.take 2)).db

/-- Outputs with so many items of evidence. -/
def sampleOutputs (n : ℕ) : Outputs :=
  ⟨"proposal-a", "run-1", "tenant-1", [record [("id", .str "R1")]],
    (List.range n).map fun (k : ℕ) => record [("path", .str "a.py"), ("start_line", .int k)],
    some (record [("step", .str "one")]), none, repositoryAt "c1"⟩

/-- A save of the sample outputs. -/
def sampleSave (n : ℕ) : Ran StoreOp StoreOp.Ans Raised Unit Database :=
  (saveProposalOutputs sampleHost (sampleOutputs n)).run (StoreOp.exec sampleHost)
    (List.replicate 20 (sampleDraw 0 "s")) [] outputsDb

theorem exists_of_isOk {α : Type} {x : Except Raised α} (h : x.isOk = true) : ∃ a, x = .ok a := by
  cases x with
  | error e => cases h
  | ok a => exact ⟨a, rfl⟩

theorem ends_sampleSave {n : ℕ} (h : ((sampleSave n).result.any Except.isOk) = true) :
    (saveProposalOutputs sampleHost (sampleOutputs n)).Ends (StoreOp.exec sampleHost) (fun _ => True)
      outputsDb (.ok ()) (sampleSave n).state := by
  cases hr : (sampleSave n).result with
  | none => rw [hr] at h; cases h
  | some r =>
    rw [hr] at h
    obtain ⟨⟨⟩, rfl⟩ := exists_of_isOk h
    exact Prog.ends_of_result hr

theorem sampleOutputs_current (n : ℕ) : (sampleOutputs n).Current outputsDb := by
  refine ⟨?_, Option.isSome_iff_exists.mp ?_⟩
  · change "run-1" ≠ ""
    decide
  · change (runDetail "run-1" "tenant-1" outputsDb).isSome = true
    decide +kernel

theorem sampleOutputs_bounded (n : ℕ) : (sampleOutputs n).Bounded sampleHost := by
  refine ⟨?_, fun plan hplan => ?_⟩
  · change Fits sampleHost (.list [.dict (record [("id", .str "R1")])])
    decide +kernel
  · obtain rfl := Option.some.inj hplan
    decide +kernel

end AiSaas.Kernel