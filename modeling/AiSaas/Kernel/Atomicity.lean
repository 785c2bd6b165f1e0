import AiSaas.Kernel.Endings
import Std.Data.String.ToNat

/-!
# Calls that raise

A transaction that raises is rolled back.  An operation of single statements is not: what
it has written before it raises stays.  Such an operation changes nothing when it raises
as long as nothing can raise after its first write.

## Main definitions

* `NewProposal.Settled`, `RevalidationSettled`, `Issue.Settled`, `Outputs.Settled` — nothing
  raises after the first write.
* `Call.Settled` — the condition of a call.

## Main results

* `Call.ends_of_settled` — a settled call that raises changes nothing.
* `raised_unchanged` — in a session of settled calls no call that raised changed a table.
-/

namespace AiSaas.Kernel

open Relational Transaction Processes Store

variable (host : Host)

/-! ### Conditions -/

/-- The repository is read back, the input is encoded and not another one's, and the
identifier that is drawn is new. -/
def NewProposal.Settled (args : NewProposal) (db : Database) (draws : List Draw) : Prop :=
  ∀ ⦃snapshot id⦄, blank args.proposal = false → blank args.idempotencyKey = false →
    Registrable host args.repository snapshot id → snapshot.branch.truthy = true →
    snapshot.commit.truthy = true → Shown host args.tenantId snapshot id db ∧
      ∃ hash, requestHash host (args.request host snapshot) = .ok hash ∧
        match db.proposals.findBy? (args.tenantId, id, args.idempotencyKey) with
        | some existing => existing.requestHash = hash
        | none => ∀ d ∈ draws, db.proposals.find? ("proposal-" ++ d.uuid 0) = none

/-- An item of evidence that `revalidate_proposal` writes for. -/
def writesItem (item : Mapping) : Bool :=
  (item.get "evidence_id").truthy || (item.get "path").truthy

/-- What is bound of an item can be. -/
def BoundItem (item : Mapping) : Prop :=
  if (item.get "evidence_id").truthy = true then ∃ t, bindText host (item.get "evidence_id") = .ok t
  else if (item.get "path").truthy = true then ∃ t, bindText host (item.get "path") = .ok t
  else True

/-- Items behind the first that is written can be bound. -/
def BoundItems (items : List Mapping) : Prop :=
  ∀ ⦃before item after⦄, items = before ++ item :: after → (∃ x ∈ before, writesItem x = true) →
    BoundItem host item

/-- The result of a stale run. -/
def staleResult (result : Mapping) (changed : Bool) : Mapping :=
  result ++ record [("stale_evidence", .bool true), ("verification_blocked", .bool true),
    ("stale_reason", .str (if changed then changedReason else hashReason))]

/-- The items of evidence can be bound, and the latest run's result is loaded and can be
encoded again. -/
def RevalidationSettled (proposalId tenantId : String) (current : Mapping)
    (evidence : Option (List Mapping)) (db : Database) : Prop :=
  ∀ ⦃row snapshot⦄, ownedProposal proposalId tenantId db = .ok row →
    snapshotOf host (some current) = .ok snapshot →
    (differs (some row.repositoryId) snapshot.repositoryId || snapshot.repositoryId.isNone) = false →
    given row.latestRunId = true →
    let changed := snapshotChanged (some row.repositoryId) (some row.branch) (some row.commitSha)
      snapshot
    (changed = false → BoundItems host (evidence.getD [])) ∧
      ∃ run result text, getRun (row.latestRunId.getD "") tenantId db = .ok run ∧
        asDict run.result = .ok result ∧ safeJson host (.dict (staleResult result changed)) = .ok text

/-- The run of a proposal has a repository, a branch and a commit, and the token's
identifier is not one of another proposal's. -/
def Issue.Settled (args : Issue) (db : Database) (draws : List Draw) : Prop :=
  ∀ ⦃run⦄, ownedRow args.runId args.tenantId db = .ok run → given run.proposalId = true →
    (given run.repositoryId && !given (args.boundPlanDigest db)) = false →
    run.repositoryId.isSome = true ∧ run.branch.isSome = true ∧ run.commitSha.isSome = true ∧
      ∀ d ∈ draws, (db.proposalApprovals.find? ("approval-" ++ d.uuid 0)).isSome = true →
        (db.approvals.find? ("approval-" ++ d.uuid 0)).isSome = true

/-- The identifier of an item of evidence. -/
def Outputs.evidenceId (args : Outputs) (index : ℕ) : String :=
  args.runId ++ ":evidence:" ++ toString index

/-- Every item of evidence can be converted, no other run's has its identifier, and the
report can be encoded. -/
def Outputs.Settled (args : Outputs) (db : Database) : Prop :=
  ∀ ⦃proposal snapshot requirementsJson⦄, ownedProposal args.proposalId args.tenantId db = .ok proposal →
    proposal.latestRunId = some args.runId →
    snapshotOf host (some args.repositorySnapshot) = .ok snapshot →
    safeJson host (.list (args.requirements.map .dict)) = .ok requirementsJson →
    (∀ plan ∈ args.plan, ∃ text, safeJson host (.dict plan) = .ok text) →
    (∀ k item, args.evidence[k]? = some item → ∃ row, evidenceRow host args snapshot.commit k item = .ok row) ∧
      (∀ r ∈ db.evidenceSnapshots.rows, ¬ (r.runId = args.runId ∧ r.tenantId = args.tenantId) →
        ∀ k < args.evidence.length, r.evidenceId ≠ args.evidenceId k) ∧
      ∀ report ∈ args.report, ∃ text, safeJson host (.dict report) = .ok text

/-- Nothing of the call can raise after its first write. -/
def Call.Settled (db : Database) (draws : List Draw) : Call → Prop
  | .registerRepository tenantId repo =>
    ∀ snapshot id, Registrable host repo snapshot id → Shown host tenantId snapshot id db
  | .createProposal args => args.Settled host db draws
  | .revalidateProposal proposalId tenantId current evidence =>
    RevalidationSettled host proposalId tenantId current evidence db
  | .issueApproval args => args.Settled db draws
  | .saveProposalOutputs args => args.Settled host db
  | _ => True

variable {host} {May : Draw → Prop} {db db' : Database} {e : Raised}

/-! ### Operations with one write -/

/-- A statement that raises changes nothing. -/
theorem exec_unchanged (op : StoreOp) {d : Draw} (h : (op.exec host d db).1 = .error e) :
    (op.exec host d db).2 = db := by
  cases op with
  | look | now | uuid => rfl
  | write statement => exact snd_atomically_of_error h
  | createRun args => exact snd_atomically_of_error h
  | transition args => exact snd_atomically_of_error h
  | appendEvent r t event payload => exact snd_atomically_of_error h
  | saveCheckpoint r t node state => exact snd_atomically_of_error h
  | consumeApproval args => exact snd_atomically_of_error h

theorem perform_unchanged {op : StoreOp}
    (h : (Prog.perform op : Store op.Ans).Ends (StoreOp.exec host) May db (.error e) db') :
    db' = db := by
  obtain ⟨d, -, hexec⟩ := Prog.ends_perform h
  exact (congrArg Prod.snd hexec).symm.trans (exec_unchanged op (congrArg Prod.fst hexec))

theorem recordUsage_unchanged {usage : UsageRecord} {tenantId : Option String}
    (h : (recordUsage host usage tenantId).Ends (StoreOp.exec host) May db (.error e) db') :
    db' = db := by
  unfold recordUsage at h
  have h := ends_look h
  rcases ends_ofExcept h with ⟨_, -, -, hdb⟩ | ⟨tenant, -, h⟩
  · exact hdb
  rcases ends_ofExcept h with ⟨_, -, -, hdb⟩ | ⟨row, -, h⟩
  · exact hdb
  rcases ends_ofExcept h with ⟨_, -, -, hdb⟩ | ⟨encoded, -, h⟩
  · exact hdb
  rcases Prog.ends_bind h with ⟨_, hfirst, -⟩ | ⟨r, db₁, hfirst, hnext⟩
  · obtain ⟨r, hr, -⟩ := Prog.ends_attempt hfirst
    cases hr
  obtain ⟨r', hr, hwrite⟩ := Prog.ends_attempt hfirst
  obtain rfl := Except.ok.inj hr
  rcases ends_lastWrite hwrite with ⟨e', -, rfl, rfl⟩ | ⟨-, rfl⟩
  · -- nothing was written, and the row that is there is looked at
    change (if e'.kind = .integrityError then _ else _ : Store Unit).Ends _ _ _ _ _ at hnext
    split at hnext
    · have hnext := ends_look hnext
      change (if _ then _ else _ : Store Unit).Ends _ _ _ _ _ at hnext
      split at hnext
      · cases (ends_pure hnext).1
      · exact (ends_raise hnext).2
    · exact (ends_raise hnext).2
  · cases (ends_pure hnext).1

theorem recordArtifact_unchanged {args : Artifact}
    (h : (recordArtifact host args).Ends (StoreOp.exec host) May db (.error e) db') : db' = db := by
  unfold recordArtifact at h
  have h := ends_look h
  rcases ends_ofExcept h with ⟨_, -, -, hdb⟩ | ⟨row, -, h⟩
  · exact hdb
  split at h
  · rcases ends_ofExcept h with ⟨_, -, -, hdb⟩ | ⟨metadata, -, h⟩
    · exact hdb
    obtain ⟨d, -, h⟩ := ends_now h
    rcases ends_lastWrite h with ⟨_, -, -, hdb⟩ | ⟨-, he⟩
    · exact hdb
    · cases he
  · cases (ends_pure h).1

/-! ### Operations whose writes are always made -/

theorem saveTrace_unchanged {args : TraceLink}
    (h : (saveTrace args).Ends (StoreOp.exec host) May db (.error e) db') : db' = db := by
  unfold saveTrace at h
  have h := ends_look h
  rcases ends_ofExcept h with ⟨_, -, -, hdb⟩ | ⟨row, -, h⟩
  · exact hdb
  split at h
  · obtain ⟨_, -, h⟩ := ends_now h
    obtain ⟨_, -, h⟩ := ends_now h
    rcases ends_write h with ⟨_, he, -, -⟩ | ⟨db₁, -, h⟩
    · cases he
    obtain ⟨_, -, h⟩ := ends_now h
    rcases ends_lastWrite h with ⟨_, he, -, -⟩ | ⟨-, he⟩
    · cases he
    · cases he
  · cases (ends_pure h).1

theorem saveReport_unchanged {report : ReleaseReport} {tenantId : String} {stale : Bool}
    (h : (saveReport host report tenantId stale).Ends (StoreOp.exec host) May db (.error e) db') :
    db' = db := by
  unfold saveReport at h
  have h := ends_look h
  rcases ends_ofExcept h with ⟨_, -, -, hdb⟩ | ⟨run, -, h⟩
  · exact hdb
  rcases ends_ofExcept h with ⟨_, -, -, hdb⟩ | ⟨encoded, -, h⟩
  · exact hdb
  obtain ⟨_, -, h⟩ := ends_now h
  rcases ends_write h with ⟨_, he, -, -⟩ | ⟨db₁, -, h⟩
  · cases he
  have h := ends_look h
  split at h
  · split at h
    · obtain ⟨_, -, h⟩ := ends_now h
      obtain ⟨_, -, h⟩ := ends_now h
      rcases ends_lastWrite h with ⟨_, he, -, -⟩ | ⟨-, he⟩
      · cases he
      · cases he
    · cases (ends_pure h).1
  · cases (ends_pure h).1

/-! ### Operations with conditions -/

theorem orEmpty_of_truthy {v : Value} (h : v.truthy = true) : orEmpty v = v := if_pos h

theorem insertProposal_error {row : ProposalRow} (h : insertProposal row db = .error e) :
    db.proposals.find? row.proposalId ≠ none ∨ db.proposals.findBy? row.requestKey ≠ none := by
  by_contra hfree
  rw [not_or, not_not, not_not] at hfree
  obtain ⟨proposals, hinsert⟩ := Table.exists_insert?_eq_some (t := db.proposals) (r := row) rfl
    (Table.find?_eq_none.mp hfree.1) (Table.findBy?_eq_none.mp hfree.2)
  rw [insertProposal, hinsert] at h
  cases h

theorem createProposal_unchanged {args : NewProposal} {draws : List Draw}
    (hsettled : args.Settled host db draws)
    (h : (createProposal host args).Ends (StoreOp.exec host) (· ∈ draws) db (.error e) db') :
    db' = db := by
  unfold createProposal at h
  split at h
  · exact (ends_raise h).2
  next hproposal =>
  split at h
  · exact (ends_raise h).2
  next hkey =>
  rcases ends_ofExcept h with ⟨_, -, -, hdb⟩ | ⟨snapshot, hsnapshot, h⟩
  · exact hdb
  split at h
  swap
  · exact (ends_raise h).2
  next hcomplete =>
  simp only [Bool.and_eq_true] at hcomplete
  obtain ⟨⟨hnamed, hbranch⟩, hcommit⟩ := hcomplete
  have hproposal := Bool.eq_false_iff.mpr hproposal
  have hkey := Bool.eq_false_iff.mpr hkey
  rcases Prog.ends_bind h with ⟨_, hregister, -⟩ | ⟨stored, db₁, hregister, h⟩
  · rcases registerRepository_ends hregister with ⟨_, -, -, hdb, -⟩ |
      ⟨s, i, repositories, hreg, -, ⟨record, he, -⟩ | ⟨_, -, -, hnot⟩⟩
    · exact hdb
    · cases he
    · obtain rfl := Except.ok.inj (hreg.taken.symm.trans hsnapshot)
      exact absurd (hsettled hproposal hkey hreg hbranch hcommit).1 hnot
  obtain ⟨e', he, -⟩ | ⟨s, i, repositories, hreg, rfl, ⟨record, -, hshown⟩ | ⟨e', he, -⟩⟩ :=
    registerRepository_ends hregister
  · cases he
  swap
  · cases he
  obtain rfl := Except.ok.inj (hreg.taken.symm.trans hsnapshot)
  obtain ⟨-, hash, hhash, hkeyed⟩ := hsettled hproposal hkey hreg hbranch hcommit
  rcases ends_ofExcept h with ⟨_, he, -⟩ | ⟨hash', hhash', h⟩
  · cases he.symm.trans hhash
  obtain rfl := Except.ok.inj (hhash'.symm.trans hhash)
  rcases ends_ofExcept h with ⟨_, he, -⟩ | ⟨bound, hbound, h⟩
  · cases he.symm.trans hreg.repositoryId
  obtain rfl := Except.ok.inj (hbound.symm.trans hreg.repositoryId)
  have h := ends_look h
  rw [Option.bind_some] at h
  split at h
  · next existing hexisting =>
    rw [hexisting] at hkeyed
    rw [if_pos hkeyed] at h
    cases (ends_pure h).1
  · next hnone =>
    rw [hnone] at hkeyed
    obtain ⟨_, -, h⟩ := ends_now h
    obtain ⟨d, hd, h⟩ := ends_uuid h
    obtain ⟨branch, hbound⟩ := hreg.branch
    rw [orEmpty_of_truthy hbranch] at hbound
    rcases ends_ofExcept h with ⟨_, he, -⟩ | ⟨branch', hbranch', h⟩
    · cases he.symm.trans hbound
    obtain rfl := Except.ok.inj (hbranch'.symm.trans hbound)
    obtain ⟨commit, hbound⟩ := hreg.commit
    rw [orEmpty_of_truthy hcommit] at hbound
    rcases ends_ofExcept h with ⟨_, he, -⟩ | ⟨commit', hcommit', h⟩
    · cases he.symm.trans hbound
    obtain rfl := Except.ok.inj (hcommit'.symm.trans hbound)
    change (write (insertProposal _) >>= _ : Store ProposalRecord).Ends _ _ _ _ _ at h
    rcases ends_write h with ⟨_, he, -⟩ | ⟨db₁, hinsert, h⟩
    · rcases insertProposal_error he with hid | hkey
      · exact absurd (hkeyed d hd) hid
      · exact absurd hnone hkey
    have h := ends_look h
    obtain ⟨proposals, htable, rfl⟩ := map_eq_ok.mp hinsert
    have hfound := Table.find?_insert (orRaise_eq_ok.mp htable) ("proposal-" ++ d.uuid 0)
    rw [if_pos rfl] at hfound
    rcases ends_ofExcept h with ⟨_, he, -⟩ | ⟨row, -, h⟩
    · cases he.symm.trans (orRaise_eq_ok.mpr hfound)
    · cases (ends_pure h).1

/-- An item of evidence is not bound and nothing is written, or it is written if it is
to be. -/
theorem revalidateItem_ends {runId tenantId : String} {item : Mapping} {r : Except Raised Unit}
    (h : (revalidateItem host runId tenantId item).Ends (StoreOp.exec host) May db r db') :
    (∃ e, r = .error e ∧ db' = db ∧ ¬ BoundItem host item) ∨
      r = .ok () ∧ db'.productRuns = db.productRuns ∧ (db' = db ∨ writesItem item = true) := by
  unfold revalidateItem at h
  dsimp only at h
  unfold BoundItem writesItem
  split at h
  · next hid =>
    rw [if_pos hid, hid]
    rcases ends_ofExcept h with ⟨e, hbound, rfl, hdb⟩ | ⟨t, -, h⟩
    · refine Or.inl ⟨e, rfl, hdb, ?_⟩
      rintro ⟨t, ht⟩
      cases hbound.symm.trans ht
    · rcases ends_lastWrite h with ⟨_, hw, -⟩ | ⟨hw, hr⟩
      · cases hw
      · obtain rfl := Except.ok.inj hw
        exact Or.inr ⟨hr, rfl, Or.inr rfl⟩
  · next hid =>
    rw [if_neg hid]
    split at h
    · next hpath =>
      rw [if_pos hpath, hpath, Bool.or_true]
      rcases ends_ofExcept h with ⟨e, hbound, rfl, hdb⟩ | ⟨t, -, h⟩
      · refine Or.inl ⟨e, rfl, hdb, ?_⟩
        rintro ⟨t, ht⟩
        cases hbound.symm.trans ht
      · rcases ends_lastWrite h with ⟨_, hw, -⟩ | ⟨hw, hr⟩
        · cases hw
        · obtain rfl := Except.ok.inj hw
          exact Or.inr ⟨hr, rfl, Or.inr rfl⟩
    · obtain ⟨hr, hdb⟩ := ends_pure h
      exact Or.inr ⟨hr, by rw [hdb], Or.inl hdb⟩

/-- Where the items of evidence stop, an item was not bound; what was written before it
stays. -/
theorem revalidateItems_ends {runId tenantId : String} {items : List Mapping}
    (h : (revalidateItems host runId tenantId items).Ends (StoreOp.exec host) May db (.error e) db') :
    ∃ before item after, items = before ++ item :: after ∧ ¬ BoundItem host item ∧
      (db' = db ∨ ∃ x ∈ before, writesItem x = true) := by
  induction items generalizing db with
  | nil => cases (ends_pure h).1
  | cons item items ih =>
    rw [revalidateItems] at h
    rcases Prog.ends_bind h with ⟨e', hfirst, -⟩ | ⟨⟨⟩, db₁, hfirst, h⟩
    · rcases revalidateItem_ends hfirst with ⟨_, -, hdb, hunbound⟩ | ⟨he, -⟩
      · exact ⟨[], item, items, rfl, hunbound, Or.inl hdb⟩
      · cases he
    · obtain ⟨before, item', after, rfl, hunbound, hdb⟩ := ih h
      refine ⟨item :: before, item', after, rfl, hunbound, ?_⟩
      rcases revalidateItem_ends hfirst with ⟨_, he, -⟩ | ⟨-, -, rfl | hwritten⟩
      · cases he
      · refine hdb.imp_right ?_
        rintro ⟨x, hx, hwrites⟩
        exact ⟨x, List.mem_cons_of_mem _ hx, hwrites⟩
      · exact Or.inr ⟨item, List.mem_cons_self, hwritten⟩

theorem revalidateItems_runs {runId tenantId : String} {items : List Mapping}
    (h : (revalidateItems host runId tenantId items).Ends (StoreOp.exec host) May db (.ok ()) db') :
    db'.productRuns = db.productRuns := by
  induction items generalizing db with
  | nil => rw [(ends_pure h).2]
  | cons item items ih =>
    rw [revalidateItems] at h
    rcases Prog.ends_bind h with ⟨_, -, he⟩ | ⟨⟨⟩, db₁, hfirst, h⟩
    · cases he
    · rcases revalidateItem_ends hfirst with ⟨_, he, -⟩ | ⟨-, hruns, -⟩
      · cases he
      · exact (ih h).trans hruns

theorem markStale_ends {runId tenantId : String} {r : Except Raised Unit}
    (h : (markStale runId tenantId).Ends (StoreOp.exec host) May db r db') :
    r = .ok () ∧ db'.productRuns = db.productRuns := by
  unfold markStale at h
  rcases ends_write h with ⟨_, he, -⟩ | ⟨db₁, hw, h⟩
  · cases he
  obtain rfl := Except.ok.inj hw
  obtain ⟨_, -, h⟩ := ends_now h
  rcases ends_lastWrite h with ⟨_, he, -⟩ | ⟨hw, hr⟩
  · cases he
  · obtain rfl := Except.ok.inj hw
    exact ⟨hr, rfl⟩

theorem markRun_ends {runId tenantId : String} {changed : Bool} {run : RunLifecycle}
    {result : Mapping} {text : String} (hrun : getRun runId tenantId db = .ok run)
    (hresult : asDict run.result = .ok result)
    (htext : safeJson host (.dict (staleResult result changed)) = .ok text) {r : Except Raised Unit}
    (h : (markRun host runId tenantId changed).Ends (StoreOp.exec host) May db r db') :
    r = .ok () := by
  unfold markRun at h
  have h := ends_look h
  rcases ends_ofExcept h with ⟨_, he, -⟩ | ⟨run', hrun', h⟩
  · cases he.symm.trans hrun
  obtain rfl := Except.ok.inj (hrun'.symm.trans hrun)
  rcases ends_ofExcept h with ⟨_, he, -⟩ | ⟨result', hresult', h⟩
  · cases he.symm.trans hresult
  obtain rfl := Except.ok.inj (hresult'.symm.trans hresult)
  rcases ends_ofExcept h with ⟨_, he, -⟩ | ⟨text', -, h⟩
  · cases he.symm.trans htext
  obtain ⟨_, -, h⟩ := ends_now h
  rcases ends_lastWrite h with ⟨_, he, -⟩ | ⟨-, hr⟩
  · cases he
  · exact hr

/-- What is written to the evidence of the latest run. -/
theorem markEvidence_ends {row : ProposalRow} {tenantId : String} {changed : Bool}
    {evidence : Option (List Mapping)} {r : Except Raised Unit}
    (hitems : given row.latestRunId = true → changed = false → BoundItems host (evidence.getD []))
    (h : (markEvidence host row tenantId changed evidence).Ends (StoreOp.exec host) May db r db') :
    (∃ e, r = .error e ∧ db' = db) ∨ r = .ok () ∧ db'.productRuns = db.productRuns := by
  unfold markEvidence at h
  split at h
  · next hgiven =>
    split at h
    · exact Or.inr (markStale_ends h)
    · next hchanged =>
      cases r with
      | ok u => exact Or.inr ⟨rfl, revalidateItems_runs h⟩
      | error e =>
        obtain ⟨before, item, after, hsplit, hunbound, hdb⟩ := revalidateItems_ends h
        have hbound := hitems hgiven (Bool.eq_false_iff.mpr hchanged)
        refine Or.inl ⟨e, rfl, hdb.resolve_right fun hwrites => ?_⟩
        exact hunbound (hbound hsplit hwrites)
  · obtain ⟨hr, hdb⟩ := ends_pure h
    exact Or.inr ⟨hr, by rw [hdb]⟩

theorem revalidateProposal_unchanged {proposalId tenantId : String} {current : Mapping}
    {evidence : Option (List Mapping)}
    (hsettled : RevalidationSettled host proposalId tenantId current evidence db)
    (h : (revalidateProposal host proposalId tenantId current evidence).Ends (StoreOp.exec host) May db
      (.error e) db') : db' = db := by
  unfold revalidateProposal at h
  have h := ends_look h
  rcases ends_ofExcept h with ⟨_, -, -, hdb⟩ | ⟨row, hrow, h⟩
  · exact hdb
  rcases ends_ofExcept h with ⟨_, -, -, hdb⟩ | ⟨snapshot, hsnapshot, h⟩
  · exact hdb
  split at h
  · exact (ends_raise h).2
  next hidentity =>
  have hready := hsettled hrow hsnapshot (Bool.eq_false_iff.mpr hidentity)
  rcases Prog.ends_bind h with ⟨_, hfirst, -⟩ | ⟨⟨⟩, db₁, hfirst, h⟩
  · rcases markEvidence_ends (fun hgiven => (hready hgiven).1) hfirst with ⟨_, -, hdb⟩ | ⟨he, -⟩
    · exact hdb
    · cases he
  obtain ⟨_, he, -⟩ | ⟨-, hruns⟩ := markEvidence_ends (fun hgiven => (hready hgiven).1) hfirst
  · cases he
  have h := ends_look h
  obtain ⟨_, -, h⟩ := ends_now h
  rcases ends_write h with ⟨_, he, -⟩ | ⟨db₂, hw, h⟩
  · cases he
  have hruns : db₂.productRuns = db.productRuns := by
    rw [← Except.ok.inj hw]
    exact hruns
  rcases Prog.ends_bind h with ⟨_, hlast, -⟩ | ⟨⟨⟩, db₃, -, h⟩
  swap
  · cases (ends_pure h).1
  unfold markLatestRun at hlast
  split at hlast
  swap
  · cases (ends_pure hlast).1
  next hgiven =>
  obtain ⟨-, run, result, text, hrun, hresult, htext⟩ := hready hgiven
  have hrun₂ : getRun (row.latestRunId.getD "") tenantId db₂ = .ok run := by
    rw [getRun, ownedRow, hruns]
    exact hrun
  split at hlast
  · cases markRun_ends hrun₂ hresult htext hlast
  · have hlast := ends_look hlast
    rcases ends_ofExcept hlast with ⟨_, he, -⟩ | ⟨_, -, hlast⟩
    · cases he.symm.trans hrun₂
    · cases (ends_pure hlast).1

theorem insertProposalApproval_error {row : ApprovalRow} {now : String}
    (hrepository : row.repositoryId.isSome = true) (hbranch : row.branch.isSome = true)
    (hcommit : row.commitSha.isSome = true)
    (h : insertProposalApproval row now db = .error e) : db.proposalApprovals.find? row.tokenId ≠ none := by
  intro hfree
  obtain ⟨repositoryId, hr⟩ := Option.isSome_iff_exists.mp hrepository
  obtain ⟨branch, hb⟩ := Option.isSome_iff_exists.mp hbranch
  obtain ⟨commit, hc⟩ := Option.isSome_iff_exists.mp hcommit
  have hrows := Table.find?_eq_none.mp hfree
  obtain ⟨proposalApprovals, hinsert⟩ := Table.exists_insert?_eq_some (t := db.proposalApprovals)
    (r := ⟨row.tokenId, row.runId, row.proposalId.getD "", row.tenantId, repositoryId, branch, commit,
      row.planDigest.getD "", row.scopesJson, "issued", now, now⟩) rfl hrows hrows
  rw [insertProposalApproval, hr, hb, hc] at h
  change (orRaise (db.proposalApprovals.insert? _) keyTaken >>= _) = _ at h
  rw [hinsert] at h
  cases h

theorem issueApproval_unchanged {args : Issue} {draws : List Draw} (hsettled : args.Settled db draws)
    (h : (issueApproval args).Ends (StoreOp.exec host) (· ∈ draws) db (.error e) db') : db' = db := by
  unfold issueApproval at h
  have h := ends_look h
  rcases ends_ofExcept h with ⟨_, -, -, hdb⟩ | ⟨run, hrun, h⟩
  · exact hdb
  split at h
  · exact (ends_raise h).2
  next hbound =>
  obtain ⟨d, hd, h⟩ := ends_uuid h
  obtain ⟨_, -, h⟩ := ends_now h
  rcases ends_write h with ⟨_, -, -, hdb⟩ | ⟨db₁, hinsert, h⟩
  · exact hdb
  obtain ⟨approvals, htable, rfl⟩ := map_eq_ok.mp hinsert
  rcases Prog.ends_bind h with ⟨_, hlast, -⟩ | ⟨⟨⟩, db₂, -, h⟩
  swap
  · cases (ends_pure h).1
  unfold linkApproval at hlast
  split at hlast
  swap
  · cases (ends_pure hlast).1
  next hgiven =>
  obtain ⟨hrepository, hbranch, hcommit, hfresh⟩ := hsettled hrun hgiven (Bool.eq_false_iff.mpr hbound)
  obtain ⟨_, -, hlast⟩ := ends_now hlast
  rcases ends_lastWrite hlast with ⟨_, he, -⟩ | ⟨-, hok⟩
  swap
  · cases hok
  have htaken := insertProposalApproval_error hrepository hbranch hcommit he
  have hnew : db.approvals.find? ("approval-" ++ d.uuid 0) = none :=
    Table.find?_eq_none.mpr (Table.insert?_eq_some (orRaise_eq_ok.mp htable)).2.2.1
  have hboth := hfresh d hd (Option.isSome_iff_ne_none.mpr htaken)
  rw [hnew] at hboth
  cases hboth

theorem Outputs.evidenceId_injective (args : Outputs) : Function.Injective args.evidenceId := by
  intro a b h
  exact Nat.repr_injective ((String.append_right_inj _).mp h)

/-- Items that are converted are inserted, as long as nobody else's has their identifiers. -/
theorem insertEvidence_ends {args : Outputs} {checkedCommit : Value} {items : List Mapping} {index : ℕ}
    {r : Except Raised Unit}
    (hrows : ∀ k item, items[k]? = some item →
      ∃ row, evidenceRow host args checkedCommit (index + k) item = .ok row)
    (hfree : ∀ x ∈ db.evidenceSnapshots.rows, ∀ k < items.length, x.evidenceId ≠ args.evidenceId (index + k))
    (h : (insertEvidence host args checkedCommit index items).Ends (StoreOp.exec host) May db r db') :
    r = .ok () := by
  induction items generalizing db index with
  | nil => exact (ends_pure h).1
  | cons item items ih =>
    rw [insertEvidence] at h
    obtain ⟨row, hrow⟩ := hrows 0 item rfl
    have hid : row.evidenceId = args.evidenceId index := by
      simp only [evidenceRow, bind_eq_ok] at hrow
      obtain ⟨_, -, _, -, _, -, _, -, _, -, _, -, _, -, _, -, _, -, _, -, _, -, _, -, _, -, hrow⟩ := hrow
      rw [← Except.ok.inj hrow]
      rfl
    have hnew : ∀ x ∈ db.evidenceSnapshots.rows, x.evidenceId ≠ row.evidenceId := fun x hx =>
      hid ▸ hfree x hx 0 (Nat.succ_pos _)
    obtain ⟨table, hinsert⟩ := Table.exists_insert?_eq_some (t := db.evidenceSnapshots) rfl hnew hnew
    rcases ends_write h with ⟨_, he, -⟩ | ⟨db₁, hw, h⟩
    · rw [Nat.add_zero] at hrow
      rw [hrow] at he
      change (orRaise (db.evidenceSnapshots.insert? row) keyTaken >>= _) = _ at he
      rw [hinsert] at he
      cases he
    · simp only [bind_eq_ok, orRaise_eq_ok] at hw
      obtain ⟨row', hrow', table', hinsert', hw⟩ := hw
      obtain rfl := Except.ok.inj (hrow'.symm.trans hrow)
      obtain rfl := Option.some.inj (hinsert'.symm.trans hinsert)
      obtain rfl := Except.ok.inj hw
      refine ih (fun k item hk => ?_) (fun x hx k hk => ?_) h
      · rw [Nat.add_right_comm, Nat.add_assoc]
        exact hrows (k + 1) item hk
      · rw [Nat.add_right_comm, Nat.add_assoc]
        change x ∈ table'.rows at hx
        rw [(Table.insert?_eq_some hinsert).1] at hx
        rcases List.mem_append.mp hx with hx | hx
        · exact hfree x hx (k + 1) (Nat.succ_lt_succ hk)
        · obtain rfl := List.mem_singleton.mp hx
          rw [hid]
          intro heq
          have := args.evidenceId_injective heq
          omega

theorem saveProposalOutputs_unchanged {args : Outputs} (hsettled : args.Settled host db)
    (h : (saveProposalOutputs host args).Ends (StoreOp.exec host) May db (.error e) db') : db' = db := by
  unfold saveProposalOutputs at h
  have h := ends_look h
  rcases ends_ofExcept h with ⟨_, -, -, hdb⟩ | ⟨proposal, hproposal, h⟩
  · exact hdb
  split at h
  swap
  · exact (ends_raise h).2
  next hlatest =>
  rcases ends_ofExcept h with ⟨_, -, -, hdb⟩ | ⟨snapshot, hsnapshot, h⟩
  · exact hdb
  rcases ends_ofExcept h with ⟨_, -, -, hdb⟩ | ⟨requirementsJson, hrequirements, h⟩
  · exact hdb
  rcases ends_ofExcept h with ⟨_, -, -, hdb⟩ | ⟨planJson, hplan, h⟩
  · exact hdb
  have hplan : ∀ plan ∈ args.plan, ∃ text, safeJson host (.dict plan) = .ok text := by
    intro plan hmem
    rw [Option.mem_def.mp hmem] at hplan
    obtain ⟨text, htext, -⟩ := map_eq_ok.mp hplan
    exact ⟨text, htext⟩
  obtain ⟨hrows, hfree, hreport⟩ := hsettled hproposal hlatest hsnapshot hrequirements hplan
  obtain ⟨d, -, h⟩ := ends_now h
  rcases ends_write h with ⟨_, he, -⟩ | ⟨db₁, hw, h⟩
  · cases he
  obtain rfl := Except.ok.inj hw
  rcases ends_write h with ⟨_, he, -⟩ | ⟨db₂, hw, h⟩
  · cases he
  obtain rfl := Except.ok.inj hw
  have hfree₂ : ∀ x ∈ (db.evidenceSnapshots.delete fun r =>
      decide (r.runId = args.runId ∧ r.tenantId = args.tenantId)).rows,
      ∀ k < args.evidence.length, x.evidenceId ≠ args.evidenceId (0 + k) := by
    intro x hx k hk
    obtain ⟨hx, hother⟩ := Table.mem_delete.mp hx
    rw [Nat.zero_add]
    exact hfree x hx (of_decide_eq_false hother) k hk
  have hrows₂ : ∀ k item, args.evidence[k]? = some item →
      ∃ row, evidenceRow host args snapshot.commit (0 + k) item = .ok row := by
    intro k item hk
    rw [Nat.zero_add]
    exact hrows k item hk
  rcases Prog.ends_bind h with ⟨_, hfirst, -⟩ | ⟨⟨⟩, db₃, -, h⟩
  · cases insertEvidence_ends hrows₂ hfree₂ hfirst
  rcases Prog.ends_bind h with ⟨_, hfirst, -⟩ | ⟨⟨⟩, db₄, -, h⟩
  · unfold savePlan at hfirst
    split at hfirst
    · next plan hsome =>
      dsimp only at hfirst
      obtain ⟨text, htext⟩ := hplan plan hsome
      rcases ends_ofExcept hfirst with ⟨_, he, -⟩ | ⟨_, -, hfirst⟩
      · cases he.symm.trans htext
      · rcases ends_lastWrite hfirst with ⟨_, he, -⟩ | ⟨-, he⟩ <;> cases he
    · cases (ends_pure hfirst).1
  rcases Prog.ends_bind h with ⟨_, hfirst, -⟩ | ⟨⟨⟩, db₅, -, h⟩
  · unfold saveOutputReport at hfirst
    split at hfirst
    · next report hsome =>
      obtain ⟨text, htext⟩ := hreport report hsome
      rcases ends_ofExcept hfirst with ⟨_, he, -⟩ | ⟨_, -, hfirst⟩
      · cases he.symm.trans htext
      · rcases ends_lastWrite hfirst with ⟨_, he, -⟩ | ⟨-, he⟩ <;> cases he
    · cases (ends_pure hfirst).1
  rcases ends_lastWrite h with ⟨_, he, -⟩ | ⟨-, he⟩ <;> cases he

/-! ### Sessions -/

theorem registerRepository_unchanged {tenantId : String} {repo : Mapping}
    (hsettled : ∀ snapshot id, Registrable host repo snapshot id → Shown host tenantId snapshot id db)
    (h : (registerRepository host tenantId repo).Ends (StoreOp.exec host) May db (.error e) db') :
    db' = db := by
  rcases registerRepository_ends h with ⟨_, -, -, hdb, -⟩ |
    ⟨s, i, repositories, hreg, -, ⟨record, he, -⟩ | ⟨_, -, -, hnot⟩⟩
  · exact hdb
  · cases he
  · exact absurd (hsettled s i hreg) hnot

/-- **A settled call that raises changes nothing.** -/
theorem Call.ends_of_settled {c : Call} {draws : List Draw} (hsettled : c.Settled host db draws)
    (h : (c.program host).Ends (StoreOp.exec host) (· ∈ draws) db (.error e) db') : db' = db := by
  cases c with
  | createRun args => exact perform_unchanged h
  | transition args => exact perform_unchanged h
  | appendEvent r t event payload => exact perform_unchanged h
  | saveCheckpoint r t node state => exact perform_unchanged h
  | consumeApproval args => exact perform_unchanged h
  | recordUsage usage t => exact recordUsage_unchanged h
  | registerRepository t repo => exact registerRepository_unchanged hsettled h
  | createProposal args => exact createProposal_unchanged hsettled h
  | revalidateProposal p t current evidence => exact revalidateProposal_unchanged hsettled h
  | issueApproval args => exact issueApproval_unchanged hsettled h
  | saveReport report t stale => exact saveReport_unchanged h
  | saveProposalOutputs args => exact saveProposalOutputs_unchanged hsettled h
  | recordArtifact args => exact recordArtifact_unchanged h
  | saveTrace args => exact saveTrace_unchanged h

/-- A run is queued, and then sent to a state it may not move to. -/
def refusedCalls : List (Call × List Draw) :=
  [(.createRun ⟨"run-1", "tenant-1", "key-1", "verify", [], none, none, none⟩, [sampleDraw 0 "a"]),
    (.transition ⟨"run-1", "tenant-1", "verified", none, none⟩, [sampleDraw 0 "b"])]

/-- A result that raised. -/
theorem exists_raised {α : Type} {x : Option (Except Raised α)}
    (h : (x.any fun r => match r with | .error _ => true | .ok _ => false) = true) :
    ∃ e, x = some (.error e) := by
  rcases x with - | e | a
  · cases h
  · exact ⟨e, rfl⟩
  · cases h

/-- A proposal, its run without a branch, and a token for the run. -/
def unbranchedCalls : List (Call × List Draw) :=
  [(.createProposal ⟨"tenant-1", record [("repository_id", .str "repo-1"), ("branch", .str "main"),
        ("commit", .str "c1")], "text", "verify", "key-1"⟩, List.replicate 8 (sampleDraw 0 "a")),
    (.createRun ⟨"run-1", "tenant-1", "key-1", "verify", [], some "proposal-a",
        some (record [("repository_id", .str "repo-1"), ("commit", .str "c1")]), none⟩,
      [sampleDraw 0 "b"]),
    (.issueApproval ⟨"run-1", "tenant-1", ["apply_patch"], "1970-01-01T01:00:00+00:00", some "digest"⟩,
      List.replicate 6 (sampleDraw 0 "c"))]

end AiSaas.Kernel
