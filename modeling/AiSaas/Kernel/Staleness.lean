import AiSaas.Kernel.Atomicity

/-!
# Stale proposals

That a proposal's evidence is stale is kept twice: in its flag and in its state.
`revalidate_proposal` writes the flag and sets the state where the evidence is stale,
`save_proposal_outputs` clears the flag alone, and `transition` sets the state alone, of
whatever run it moves.

## Main definitions

* `ProposalRow.Agrees` — the flag and the state say the same.
* `remark` — a row of evidence after the revalidation of one item.
* `Call.Considerate` — a call that does not part the two.
* `Tracked` — what one call does to proposals.

## Main results

* `revalidateItems_marks` — a revalidation is the items' marks, one after another.
* `stale_shown` — flag and state agree after every call, what is stale stays so, and only
  the latest run moves its proposal.
-/

namespace AiSaas.Kernel

open Relational Transaction Processes Store

/-- The flag and the state of a proposal say the same of its evidence. -/
def ProposalRow.Agrees (p : ProposalRow) : Prop := p.staleEvidence = true ↔ p.state = "stale"

/-- A row of evidence after the revalidation of one item. -/
def remark (host : Host) (runId tenantId : String) (r : EvidenceRow) (item : Mapping) : EvidenceRow :=
  let valid := (item.getD "valid" (.bool false)).truthy
  let authorized := (item.getD "authorized" (.bool false)).truthy
  if (item.get "evidence_id").truthy then
    if (bindText host (item.get "evidence_id")).toOption = some (some r.evidenceId) ∧
        r.tenantId = tenantId then
      { r with
        stale := !valid || !authorized || (item.get "content_hash").isNone
        staleReason := if valid then none else some hashReason
        valid, authorized }
    else r
  else if (item.get "path").truthy then
    if r.runId = runId ∧ (bindText host (item.get "path")).toOption = some (some r.path) ∧
        r.tenantId = tenantId then
      { r with stale := true, staleReason := some hashReason }
    else r
  else r

/-- Some evidence of the latest run is stale when the items are revalidated. -/
def ProposalRow.RemainsStale (host : Host) (db : Database) (tenantId : String) (items : List Mapping)
    (p : ProposalRow) : Prop :=
  ∃ r ∈ db.evidenceSnapshots.rows, r.runId = p.latestRunId.getD "" ∧ r.tenantId = tenantId ∧
    (items.foldl (remark host (p.latestRunId.getD "") tenantId) r).stale = true

/-- A call that does not part the flag from the state: it moves no flagged proposal, and
none by a run that is not the latest; and it clears the flag of none that is in the stale
state. -/
def Call.Considerate (host : Host) (db : Database) : Call → Prop
  | .transition args => ∀ ⦃row p⦄, ownedRow args.runId args.tenantId db = .ok row →
    (target? row args.state).isSome = true → given row.proposalId = true →
    ownedProposal (row.proposalId.getD "") args.tenantId db = .ok p →
    p.staleEvidence = false ∧ (p.latestRunId = some args.runId ∨ p.state = args.state)
  | .revalidateProposal proposalId tenantId current evidence => ∀ ⦃p snapshot⦄,
    ownedProposal proposalId tenantId db = .ok p → snapshotOf host (some current) = .ok snapshot →
    p.state = "stale" → given p.latestRunId = true ∧
      (snapshotChanged (some p.repositoryId) (some p.branch) (some p.commitSha) snapshot = true ∨
        p.RemainsStale host db tenantId (evidence.getD []))
  | .saveProposalOutputs args => ∀ ⦃p⦄, ownedProposal args.proposalId args.tenantId db = .ok p →
    p.latestRunId = some args.runId → p.state ≠ "stale"
  | _ => True

/-- What a call may do to one proposal. -/
structure ProposalRow.Follows (c : Call) (p p' : ProposalRow) : Prop where
  proposalId : p'.proposalId = p.proposalId
  agrees : p.Agrees → p'.Agrees
  stays : p.staleEvidence = true → p.Agrees → p'.staleEvidence = true
  unmoved : ∀ args, c = .transition args → p.latestRunId ≠ some args.runId → p'.state = p.state

/-- What a call may do to the proposals. -/
structure Tracked (c : Call) (old new : List ProposalRow) : Prop where
  kept : ∀ p ∈ old, ∃ p' ∈ new, p.Follows c p'
  origin : ∀ p' ∈ new, p'.Agrees ∨ ∃ p ∈ old, p.Follows c p'

section Proposals

variable {host : Host} {c : Call} {May : Draw → Prop} {db db' : Database}

theorem follows_refl (p : ProposalRow) : p.Follows c p :=
  ⟨rfl, id, fun h _ => h, fun _ _ _ => rfl⟩

theorem tracked_refl (l : List ProposalRow) : Tracked c l l :=
  ⟨fun p hp => ⟨p, hp, follows_refl p⟩, fun p hp => Or.inr ⟨p, hp, follows_refl p⟩⟩

/-- Proposals whose rows are written where they are. -/
theorem tracked_setWhere {hit : ProposalRow → Bool} {f : ProposalRow → ProposalRow}
    {l : List ProposalRow} (h : ∀ p ∈ l, hit p = true → p.Follows c (f p)) :
    Tracked c l (setWhere hit f l) := by
  have hrow : ∀ p ∈ l, p.Follows c (if hit p then f p else p) := by
    intro p hp
    split
    · next hhit => exact h p hp hhit
    · exact follows_refl p
  refine ⟨fun p hp => ⟨_, mem_setWhere.mpr ⟨p, hp, rfl⟩, hrow p hp⟩, fun p' hp' => ?_⟩
  obtain ⟨p, hp, rfl⟩ := mem_setWhere.mp hp'
  exact Or.inr ⟨p, hp, hrow p hp⟩

/-- A new proposal, whose flag and state agree. -/
theorem tracked_append {l : List ProposalRow} {p : ProposalRow} (h : p.Agrees) :
    Tracked c l (l ++ [p]) := by
  refine ⟨fun q hq => ⟨q, List.mem_append_left _ hq, follows_refl q⟩, fun q hq => ?_⟩
  rcases List.mem_append.mp hq with hold | hnew
  · exact Or.inr ⟨q, hold, follows_refl q⟩
  · obtain rfl := List.mem_singleton.mp hnew
    exact Or.inl h

theorem ProposalRow.Follows.trans {p p' p'' : ProposalRow} (hc : ∀ args, c ≠ .transition args)
    (h : p.Follows c p') (h' : p'.Follows c p'') : p.Follows c p'' :=
  ⟨h'.proposalId.trans h.proposalId, h'.agrees ∘ h.agrees,
    fun hset hagrees => h'.stays (h.stays hset hagrees) (h.agrees hagrees),
    fun args hargs => absurd hargs (hc args)⟩

theorem Tracked.trans {old mid new : List ProposalRow} (hc : ∀ args, c ≠ .transition args)
    (h : Tracked c old mid) (h' : Tracked c mid new) : Tracked c old new := by
  refine ⟨fun p hp => ?_, fun p'' hp'' => ?_⟩
  · obtain ⟨p', hp', hfollows⟩ := h.kept p hp
    obtain ⟨p'', hp'', hfollows'⟩ := h'.kept p' hp'
    exact ⟨p'', hp'', hfollows.trans hc hfollows'⟩
  · rcases h'.origin p'' hp'' with hagrees | ⟨p', hp', hfollows'⟩
    · exact Or.inl hagrees
    · rcases h.origin p' hp' with hagrees | ⟨p, hp, hfollows⟩
      · exact Or.inl (hfollows'.agrees hagrees)
      · exact Or.inr ⟨p, hp, hfollows.trans hc hfollows'⟩

/-- A write of a proposal that leaves its flag and its state. -/
theorem follows_of_eq {p p' : ProposalRow} (hid : p'.proposalId = p.proposalId)
    (hflag : p'.staleEvidence = p.staleEvidence) (hstate : p'.state = p.state) : p.Follows c p' := by
  refine ⟨hid, fun h => ?_, fun h _ => hflag.trans h, fun _ _ _ => hstate⟩
  rw [ProposalRow.Agrees, hflag, hstate]
  exact h

/-- The proposals a write names are the one that is owned. -/
theorem owned_of_hit {proposalId tenantId : String} {p : ProposalRow} (hp : p ∈ db.proposals.rows)
    (hhit : decide (p.proposalId = proposalId ∧ p.tenantId = tenantId) = true) :
    ownedProposal proposalId tenantId db = .ok p := by
  obtain ⟨rfl, htenant⟩ := of_decide_eq_true hhit
  exact ownedProposal_eq_ok.mpr ⟨Table.find?_of_mem hp, htenant⟩

/-! ### Statements that leave proposals alone -/

/-- A statement that leaves the proposals alone. -/
def StoreOp.LeavesProposals (host : Host) (op : StoreOp) : Prop :=
  ∀ (d : Draw) (db : Database), (op.exec host d db).2.proposals = db.proposals

theorem leavesProposals_write {statement : Database → Except Raised Database}
    (h : ∀ db db', statement db = .ok db' → db'.proposals = db.proposals) :
    (StoreOp.write statement).LeavesProposals host :=
  write_rel (R := fun db db' => db'.proposals = db.proposals) (fun _ => rfl) h

theorem incidental_leavesProposals : Incidental (StoreOp.LeavesProposals host) where
  look _ _ := rfl
  now _ _ := rfl
  uuid _ _ := rfl
  aside h := leavesProposals_write fun db db' hok => (h db db' hok).2.1
  run hf h := leavesProposals_write fun db db' hok => by
    obtain rfl := Except.ok.inj hok
    rfl

theorem leavesProposals_insertApproval (row : ApprovalRow) :
    (StoreOp.write (insertApproval row)).LeavesProposals host := by
  refine leavesProposals_write fun db db' hok => ?_
  obtain ⟨approvals, -, rfl⟩ := map_eq_ok.mp hok
  rfl

theorem leavesProposals_appendEvent (r t event : String) (payload : Mapping) :
    (StoreOp.appendEvent r t event payload).LeavesProposals host := by
  intro d db
  refine atomically_rel (R := fun db db' => db'.proposals = db.proposals) (fun _ => rfl)
    fun u db' hok => ?_
  obtain ⟨row, text, productRuns, productEvents, -, -, -, -, -, rfl⟩ := appendEvent_eq_ok hok
  rfl

theorem leavesProposals_saveCheckpoint (r t node : String) (state : Mapping) :
    (StoreOp.saveCheckpoint r t node state).LeavesProposals host := by
  intro d db
  refine atomically_rel (R := fun db db' => db'.proposals = db.proposals) (fun _ => rfl)
    fun u db' hok => ?_
  obtain ⟨row, text, graphCheckpoints, -, -, -, -, rfl⟩ := saveCheckpoint_eq_ok hok
  rfl

theorem leavesProposals_consumeApproval (args : Consumption) :
    (StoreOp.consumeApproval args).LeavesProposals host := by
  intro d db
  refine atomically_rel (R := fun db db' => db'.proposals = db.proposals) (fun _ => rfl)
    fun token db' hok => ?_
  obtain ⟨row, -, -, -, approvals, proposalApprovals, rfl, -, -⟩ := consumeApproval_eq_ok hok
  rfl

/-- Along the course of a program whose statements leave the proposals alone. -/
theorem proposals_unchanged {α : Type} {prog : Store α}
    (h : prog.Asks (StoreOp.LeavesProposals host))
    (hv : prog.Visits (StoreOp.exec host) May db db') : db'.proposals = db.proposals :=
  h.visits_invariant (I := fun s : Database => s.proposals = db.proposals)
    (fun _ hop d s hs => (hop d s).trans hs) hv rfl

/-- A part of a program whose statements leave the proposals alone. -/
theorem visits_leaving {α β : Type} {first : Store β} {next : β → Store α}
    (hasks : first.Asks (StoreOp.LeavesProposals host))
    (h : (first >>= next).Visits (StoreOp.exec host) May db db') :
    db'.proposals = db.proposals ∨ ∃ b t, first.Ends (StoreOp.exec host) May db (.ok b) t ∧
      t.proposals = db.proposals ∧ (next b).Visits (StoreOp.exec host) May t db' := by
  rcases Prog.visits_bind h with hfirst | ⟨b, t, hends, hnext⟩
  · exact Or.inl (proposals_unchanged hasks hfirst)
  · exact Or.inr ⟨b, t, hends, proposals_unchanged hasks hends.visits, hnext⟩

/-! ### Revalidated evidence -/

theorem rows_updateEvidence {p : EvidenceRow → Bool} {f : EvidenceRow → EvidenceRow}
    {hf : Keeps EvidenceRow.evidenceId EvidenceRow.evidenceId (fun _ => true) f}
    (h : updateEvidence p f hf db = .ok db') :
    db'.evidenceSnapshots.rows = db.evidenceSnapshots.rows.map fun r => if p r then f r else r := by
  obtain rfl := Except.ok.inj h
  rfl

theorem toOption_eq {α : Type} {x : Except Raised α} {a : α} (h : x = .ok a) : x.toOption = some a :=
  h ▸ rfl

/-- The revalidation of one item marks every row as `remark` does. -/
theorem revalidateItem_marks {runId tenantId : String} {item : Mapping}
    (h : (revalidateItem host runId tenantId item).Ends (StoreOp.exec host) May db (.ok ()) db') :
    db'.evidenceSnapshots.rows
      = db.evidenceSnapshots.rows.map (remark host runId tenantId · item) := by
  unfold revalidateItem at h
  dsimp only at h
  split at h
  · next hid =>
    rcases ends_ofExcept h with ⟨e, -, hr, -⟩ | ⟨evidenceId, hbound, h⟩
    · cases hr
    rcases ends_lastWrite h with ⟨e, -, hr, -⟩ | ⟨hmade, -⟩
    · cases hr
    rw [rows_updateEvidence hmade]
    refine List.map_congr_left fun r _ => ?_
    simp only [remark, if_pos hid, toOption_eq hbound, Option.some.injEq, decide_eq_true_eq,
      eq_comm (a := evidenceId)]
  · next hid =>
    split at h
    · next hpath =>
      rcases ends_ofExcept h with ⟨e, -, hr, -⟩ | ⟨path, hbound, h⟩
      · cases hr
      rcases ends_lastWrite h with ⟨e, -, hr, -⟩ | ⟨hmade, -⟩
      · cases hr
      rw [rows_updateEvidence hmade]
      refine List.map_congr_left fun r _ => ?_
      simp only [remark, if_neg hid, if_pos hpath, toOption_eq hbound, Option.some.injEq,
        decide_eq_true_eq, eq_comm (a := path)]
    · next hpath =>
      obtain ⟨-, rfl⟩ := ends_pure h
      refine (List.map_congr_left fun r _ => ?_).trans (List.map_id _) |>.symm
      simp only [remark, if_neg hid, if_neg hpath, id]

/-- **A revalidation** is the items' marks, one after another. -/
theorem revalidateItems_marks {runId tenantId : String} {items : List Mapping}
    (h : (revalidateItems host runId tenantId items).Ends (StoreOp.exec host) May db (.ok ()) db') :
    db'.evidenceSnapshots.rows
      = db.evidenceSnapshots.rows.map fun r => items.foldl (remark host runId tenantId) r := by
  induction items generalizing db with
  | nil =>
    obtain ⟨-, rfl⟩ := ends_pure h
    exact (List.map_id _).symm
  | cons item items ih =>
    rw [revalidateItems] at h
    rcases Prog.ends_bind h with ⟨e, -, hr⟩ | ⟨⟨⟩, t, hfirst, hrest⟩
    · cases hr
    rw [ih hrest, revalidateItem_marks hfirst, List.map_map]
    rfl

/-- Marks leave a row's run and tenant. -/
theorem remark_owner (host : Host) (runId tenantId : String) (r : EvidenceRow) (item : Mapping) :
    (remark host runId tenantId r item).runId = r.runId ∧
      (remark host runId tenantId r item).tenantId = r.tenantId := by
  simp only [remark]
  split
  · split <;> exact ⟨rfl, rfl⟩
  · split
    · split <;> exact ⟨rfl, rfl⟩
    · exact ⟨rfl, rfl⟩

theorem foldl_remark_owner (host : Host) (runId tenantId : String) (items : List Mapping) (r : EvidenceRow) :
    (items.foldl (remark host runId tenantId) r).runId = r.runId ∧
      (items.foldl (remark host runId tenantId) r).tenantId = r.tenantId := by
  induction items generalizing r with
  | nil => exact ⟨rfl, rfl⟩
  | cons item items ih =>
    obtain ⟨hrun, htenant⟩ := remark_owner host runId tenantId r item
    obtain ⟨hrun', htenant'⟩ := ih (remark host runId tenantId r item)
    exact ⟨hrun'.trans hrun, htenant'.trans htenant⟩

/-- Where the repository has changed, or evidence remains stale, the latest run's evidence
is found to be stale. -/
theorem staleEvidence_of_marked {row : ProposalRow} {tenantId : String} {changed : Bool}
    {evidence : Option (List Mapping)}
    (h : (markEvidence host row tenantId changed evidence).Ends (StoreOp.exec host) May db (.ok ()) db')
    (hgiven : given row.latestRunId = true)
    (hstale : changed = true ∨ row.RemainsStale host db tenantId (evidence.getD [])) :
    staleEvidence row tenantId changed db' = true := by
  rw [staleEvidence, hgiven, Bool.true_and]
  cases changed with
  | true => rfl
  | false =>
    obtain ⟨r, hr, hrun, htenant, hset⟩ := hstale.resolve_left (by simp)
    rw [markEvidence, if_pos hgiven, if_neg (by simp)] at h
    have hrows := revalidateItems_marks h
    obtain ⟨hrun', htenant'⟩ := foldl_remark_owner host (row.latestRunId.getD "") tenantId
      (evidence.getD []) r
    rw [Bool.false_or, List.any_eq_true]
    refine ⟨_, hrows ▸ List.mem_map_of_mem hr, decide_eq_true ⟨hrun'.trans hrun, ?_, hset⟩⟩
    exact htenant'.trans htenant

/-! ### What each call does to proposals -/

/-- The course of a program whose statements leave the proposals alone. -/
theorem tracked_of_leaves {α : Type} {prog : Store α} (h : prog.Asks (StoreOp.LeavesProposals host))
    (hv : prog.Visits (StoreOp.exec host) May db db') :
    Tracked c db.proposals.rows db'.proposals.rows := by
  rw [proposals_unchanged h hv]
  exact tracked_refl _

theorem createRun_tracked {args : NewRun} {d : Draw} {run : RunLifecycle}
    (h : Kernel.createRun host args d db = .ok (run, db')) :
    Tracked c db.proposals.rows db'.proposals.rows := by
  obtain ⟨snapshot, hash, -, -, -, ⟨-, -, -, -, rfl⟩ | ⟨-, row, stored, hrow, -, -⟩⟩ :=
    createRun_eq_ok h
  · exact tracked_refl _
  · obtain ⟨text, productRuns, productEvents, -, -, -, hlink⟩ := hrow.tables
    obtain ⟨-, rfl⟩ | ⟨_, -, -, -, -, -, rfl⟩ := linkProposal_eq_ok hlink
    · exact tracked_refl _
    · exact tracked_setWhere fun p _ _ => follows_of_eq rfl rfl rfl

/-- No state of a run is the stale one. -/
theorem text_ne_stale (s : RunState) : s.text ≠ "stale" := by
  cases s <;> decide

/-- A run moves its proposal where it is the latest one, and the proposal is not stale. -/
theorem transition_tracked {args : Move} {d : Draw} {run : RunLifecycle}
    (hc : (Call.transition args).Considerate host db)
    (h : Kernel.transition host args d db = .ok (run, db')) :
    Tracked (.transition args) db.proposals.rows db'.proposals.rows := by
  obtain ⟨row, state, text, row', hmoved, -, productRuns, productEvents, proposals, rfl, hproposals⟩ :=
    transition_eq_ok h
  obtain rfl | ⟨hgiven, now, rfl⟩ := hproposals
  · exact tracked_refl _
  refine tracked_setWhere fun p hp hhit => ?_
  have howned := owned_of_hit hp hhit
  obtain ⟨hflag, hlatest⟩ := hc (ownedRow_eq_ok.mpr ⟨hmoved.found, hmoved.tenant⟩)
    (List.find?_isSome.mpr ⟨state, hmoved.allowed, decide_eq_true hmoved.named⟩) hgiven howned
  refine ⟨rfl, fun _ => ?_, fun hset => ?_, fun _ hargs hother => ?_⟩
  · exact iff_of_false (by simp [hflag]) (hmoved.named ▸ text_ne_stale state)
  · exact absurd (hflag.symm.trans hset) (by simp)
  · obtain rfl := Call.transition.inj hargs
    rcases hlatest with hrun | hsame
    · exact absurd hrun hother
    · exact hsame.symm

/-- The outputs of a proposal that is not in the stale state. -/
theorem saveProposalOutputs_tracked {args : Outputs}
    (hc : (Call.saveProposalOutputs args).Considerate host db)
    (h : (Kernel.saveProposalOutputs host args).Visits (StoreOp.exec host) May db db') :
    Tracked (.saveProposalOutputs args) db.proposals.rows db'.proposals.rows := by
  have hsame : db'.proposals = db.proposals →
      Tracked (.saveProposalOutputs args) db.proposals.rows db'.proposals.rows := by
    intro hp
    rw [hp]
    exact tracked_refl _
  unfold saveProposalOutputs at h
  rcases visits_look h with rfl | h
  · exact hsame rfl
  rcases visits_ofExcept h with rfl | ⟨proposal, howned, h⟩
  · exact hsame rfl
  split at h
  swap
  · exact hsame (congrArg _ (Prog.visits_done h))
  next hlatest =>
  rcases visits_ofExcept h with rfl | ⟨snapshot, -, h⟩
  · exact hsame rfl
  rcases visits_ofExcept h with rfl | ⟨requirementsJson, -, h⟩
  · exact hsame rfl
  rcases visits_ofExcept h with rfl | ⟨planJson, -, h⟩
  · exact hsame rfl
  rcases visits_now h with rfl | ⟨d, -, h⟩
  · exact hsame rfl
  rcases visits_write h with rfl | ⟨db₁, hfirst, h⟩
  · exact hsame rfl
  obtain rfl := Except.ok.inj hfirst
  rcases visits_write h with rfl | ⟨db₂, hsecond, h⟩
  · exact hsame rfl
  obtain rfl := Except.ok.inj hsecond
  rcases visits_leaving (asks_insertEvidence incidental_leavesProposals.quiet _ _ _ _) h with
    hp | ⟨-, t, -, ht, h⟩
  · exact hsame hp
  rcases visits_leaving (asks_savePlan incidental_leavesProposals.quiet _ _) h with hp | ⟨-, t', -, ht', h⟩
  · exact hsame (hp.trans ht)
  rcases visits_leaving (asks_saveOutputReport incidental_leavesProposals _ _) h with
    hp | ⟨-, t'', -, ht'', h⟩
  · exact hsame (hp.trans (ht'.trans ht))
  have hproposals : t''.proposals = db.proposals := ht''.trans (ht'.trans ht)
  rcases visits_lastWrite h with rfl | hlast
  · exact hsame hproposals
  obtain rfl := Except.ok.inj hlast
  rw [updateProposal, hproposals]
  refine tracked_setWhere fun p hp hhit => ?_
  have howned' := owned_of_hit hp hhit
  obtain rfl := Except.ok.inj (howned.symm.trans howned')
  have hstate := hc howned hlatest
  refine ⟨rfl, fun _ => ?_, fun hset hagrees => ?_, fun _ hargs => ?_⟩
  · exact iff_of_false (by simp) hstate
  · exact absurd (hagrees.mp hset) hstate
  · cases hargs

/-- A statement that leaves the proposals alone, or inserts one that is new. -/
def StoreOp.Creates (host : Host) (op : StoreOp) : Prop :=
  op.LeavesProposals host ∨ ∃ row : ProposalRow, row.state = "created" ∧ row.staleEvidence = false ∧
    op = .write (insertProposal row)

theorem incidental_creates : Incidental (StoreOp.Creates host) where
  look := Or.inl incidental_leavesProposals.look
  now := Or.inl incidental_leavesProposals.now
  uuid := Or.inl incidental_leavesProposals.uuid
  aside h := Or.inl (incidental_leavesProposals.aside h)
  run hf h := Or.inl (incidental_leavesProposals.run hf h)

/-- A new proposal's flag and state agree, and the others are left alone. -/
theorem createProposal_tracked {args : NewProposal}
    (h : (Kernel.createProposal host args).Visits (StoreOp.exec host) May db db') :
    Tracked (.createProposal args) db.proposals.rows db'.proposals.rows := by
  have hasks : (Kernel.createProposal host args).Asks (StoreOp.Creates host) :=
    asks_createProposal_new incidental_creates.quiet
      (fun row hstate hflag _ => Or.inr ⟨row, hstate, hflag, rfl⟩) args
  refine hasks.visits_invariant (I := fun s : Database =>
    Tracked (.createProposal args) db.proposals.rows s.proposals.rows) ?_ h (tracked_refl _)
  rintro op (hleaves | ⟨row, hstate, hflag, rfl⟩) d s hs
  · rw [hleaves d s]
    exact hs
  · refine hs.trans (fun _ => nofun) ?_
    refine write_rel (R := fun s s' : Database =>
      Tracked (.createProposal args) s.proposals.rows s'.proposals.rows) (fun _ => tracked_refl _)
      (fun s s' hok => ?_) d s
    obtain ⟨proposals, hinsert, rfl⟩ := map_eq_ok.mp hok
    change Tracked _ s.proposals.rows proposals.rows
    rw [(Table.insert?_eq_some (orRaise_eq_ok.mp hinsert)).1]
    exact tracked_append (iff_of_false (by simp [hflag]) (by simp [hstate]))

/-- A revalidation sets both where the evidence is stale, and is fresh only for a proposal
that is not in the stale state. -/
theorem revalidateProposal_tracked {proposalId tenantId : String} {current : Mapping}
    {evidence : Option (List Mapping)}
    (hc : (Call.revalidateProposal proposalId tenantId current evidence).Considerate host db)
    (h : (Kernel.revalidateProposal host proposalId tenantId current evidence).Visits
      (StoreOp.exec host) May db db') :
    Tracked (.revalidateProposal proposalId tenantId current evidence) db.proposals.rows
      db'.proposals.rows := by
  have hsame : db'.proposals = db.proposals →
      Tracked (.revalidateProposal proposalId tenantId current evidence) db.proposals.rows
        db'.proposals.rows := by
    intro hp
    rw [hp]
    exact tracked_refl _
  unfold revalidateProposal at h
  rcases visits_look h with rfl | h
  · exact hsame rfl
  rcases visits_ofExcept h with rfl | ⟨row, howned, h⟩
  · exact hsame rfl
  rcases visits_ofExcept h with rfl | ⟨snapshot, hsnapshot, h⟩
  · exact hsame rfl
  split at h
  · exact hsame (congrArg _ (Prog.visits_done h))
  rcases visits_leaving (asks_markEvidence incidental_leavesProposals _ _ _ _) h with
    hp | ⟨⟨⟩, t, hmarked, ht, h⟩
  · exact hsame hp
  rcases visits_look h with rfl | h
  · exact hsame ht
  rcases visits_now h with rfl | ⟨d, -, h⟩
  · exact hsame ht
  rcases visits_write h with rfl | ⟨db₁, hwritten, h⟩
  · exact hsame ht
  obtain rfl := Except.ok.inj hwritten
  have hrest := proposals_unchanged ((asks_markLatestRun incidental_leavesProposals _ _ _ _).bind
    fun _ => .done _) h
  rw [hrest, updateProposal, ht]
  refine tracked_setWhere fun p hp hhit => ?_
  have howned' := owned_of_hit hp hhit
  obtain rfl := Except.ok.inj (howned.symm.trans howned')
  have hfound : row.state = "stale" → staleEvidence row tenantId (snapshotChanged
      (some row.repositoryId) (some row.branch) (some row.commitSha) snapshot) t = true := by
    intro hstate
    obtain ⟨hgiven, hremains⟩ := hc howned hsnapshot hstate
    exact staleEvidence_of_marked hmarked hgiven hremains
  refine ⟨rfl, fun hagrees => ?_, fun hset hagrees => hfound (hagrees.mp hset), fun _ hargs => ?_⟩
  · dsimp only [ProposalRow.Agrees]
    split
    · next hstale => exact iff_of_true hstale rfl
    · next hfresh => exact iff_of_false hfresh fun hstate => hfresh (hfound hstate)
  · cases hargs

/-- What a considerate call does to proposals, however far it comes. -/
theorem Call.tracked (c : Call) (hc : c.Considerate host db)
    (h : (c.program host).Visits (StoreOp.exec host) May db db') :
    Tracked c db.proposals.rows db'.proposals.rows := by
  cases c with
  | createRun args =>
    rcases Prog.visits_perform h with rfl | ⟨d, -, rfl⟩
    · exact tracked_refl _
    · exact atomically_rel (R := fun db db' : Database =>
        Tracked (.createRun args) db.proposals.rows db'.proposals.rows) (fun _ => tracked_refl _)
        fun run db' hok => createRun_tracked hok
  | transition args =>
    rcases Prog.visits_perform h with rfl | ⟨d, -, rfl⟩
    · exact tracked_refl _
    · exact snd_atomically_of (I := fun db' : Database =>
        Tracked (.transition args) db.proposals.rows db'.proposals.rows) (tracked_refl _)
        fun run db' hok => transition_tracked hc hok
  | createProposal args => exact createProposal_tracked h
  | revalidateProposal p t current evidence => exact revalidateProposal_tracked hc h
  | saveProposalOutputs args => exact saveProposalOutputs_tracked hc h
  | appendEvent r t event payload =>
    exact tracked_of_leaves (Prog.asks_perform (leavesProposals_appendEvent r t event payload)) h
  | saveCheckpoint r t node state =>
    exact tracked_of_leaves (Prog.asks_perform (leavesProposals_saveCheckpoint r t node state)) h
  | consumeApproval args =>
    exact tracked_of_leaves (Prog.asks_perform (leavesProposals_consumeApproval args)) h
  | recordUsage usage t => exact tracked_of_leaves (asks_recordUsage incidental_leavesProposals.quiet _ _) h
  | registerRepository t repo =>
    exact tracked_of_leaves (asks_registerRepository incidental_leavesProposals.quiet _ _) h
  | issueApproval args =>
    exact tracked_of_leaves (asks_issueApproval incidental_leavesProposals
      leavesProposals_insertApproval _) h
  | saveReport report t stale =>
    exact tracked_of_leaves (asks_saveReport incidental_leavesProposals _ _ _) h
  | recordArtifact args => exact tracked_of_leaves (asks_recordArtifact incidental_leavesProposals _) h
  | saveTrace args => exact tracked_of_leaves (asks_saveTrace incidental_leavesProposals _) h

end Proposals

/-! ### Sessions -/

section Sessions

variable {host : Host}

/-- What a call did to the proposals it found. -/
structure Made.Attentive (made : Made) : Prop where
  agreed : ∀ p ∈ made.ran.state.proposals.rows, p.Agrees
  stays : ∀ p ∈ made.before.proposals.rows, p.staleEvidence = true →
    ∃ p' ∈ made.ran.state.proposals.rows, p'.proposalId = p.proposalId ∧ p'.staleEvidence = true ∧
      p'.state = "stale"
  unmoved : ∀ args, made.call = .transition args → ∀ p ∈ made.before.proposals.rows,
    p.latestRunId ≠ some args.runId →
      ∃ p' ∈ made.ran.state.proposals.rows, p'.proposalId = p.proposalId ∧ p'.state = p.state

/-- A repository at a commit. -/
def repositoryAt (commit : String) : Mapping :=
  record [("repository_id", .str "repo-1"), ("branch", .str "main"), ("commit", .str commit)]

/-- A proposal, a run of it, and a revalidation against a later commit. -/
def outdatedCalls : List (Call × List Draw) :=
  [(.createProposal ⟨"tenant-1", repositoryAt "c1", "text", "verify", "key-1"⟩,
      List.replicate 8 (sampleDraw 0 "a")),
    (.createRun ⟨"run-1", "tenant-1", "key-1", "verify", [], some "proposal-a",
        some (repositoryAt "c1"), none⟩, [sampleDraw 0 "b"]),
    (.revalidateProposal "proposal-a" "tenant-1" (repositoryAt "c2") none,
      List.replicate 10 (sampleDraw 0 "c"))]

/-- What is true of whatever a computation returns. -/
theorem of_all_returned {α : Type} {x : Except Raised α} {a : α} {P : α → Bool} (h : x = .ok a)
    (hall : x.toOption.all P = true) : P a = true := by
  subst h
  exact hall

end Sessions

end AiSaas.Kernel
