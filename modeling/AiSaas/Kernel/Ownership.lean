import AiSaas.Kernel.Tenancy
import AiSaas.Lib.RelyGuarantee

/-!
# Calls of the kernel store in the name of a tenant

Every transaction and every program of `KernelStore` consists of writes for the tenant it is
called for, whatever other calls do between two of its statements: what a program has read
is not taken away, and what it read to be the tenant's stays so.

## Main definitions

* `storeRely` — what the programs rely on.
* `Acts` — a step for a tenant, if one is named.
* `Call.tenant` — the tenant a call is made for.

## Main results

* `written_createRun`, `written_transition`, … — the transactions.
* `owned_createProposal`, `owned_saveProposalOutputs`, … — the programs.
* `Call.owned` — all of them.
-/

namespace AiSaas.Kernel

open Relational Transaction Processes Store

/-! ### The transactions -/

section Transactions

variable {host : Host} {d : Draw} {db db' : Database}

/-- The rows of a run are its tenant's. -/
theorem HasRun.hit {runId t : String} (h : HasRun db runId t) :
    ∀ r ∈ db.productRuns.rows, decide (r.runId = runId) = true → r.tenantId = t :=
  fun r hr hid => HasRun.tenant_eq ⟨r, hr, of_decide_eq_true hid, rfl⟩ h

/-- An update of a tenant's run. -/
theorem writes_updateRun {runId t : String} {f : RunRow → RunRow}
    (hf : Keeps RunRow.runId RunRow.requestKey (fun _ => true) f) (hrun : HasRun db runId t)
    (hl : ∀ r, (f r).lasting = r.lasting) : Writes t db (updateRun runId f hf db) :=
  .runs hf hrun.hit hl

/-- An update of a tenant's proposal. -/
theorem writes_updateProposal {p t : String} {f : ProposalRow → ProposalRow}
    (hf : Keeps ProposalRow.proposalId ProposalRow.requestKey (fun _ => true) f)
    (hl : ∀ r, (f r).lasting = r.lasting)
    (hlatest : ∀ r runId, (f r).latestRunId = some runId →
      r.latestRunId = some runId ∨ HasRun db runId t) : Writes t db (updateProposal p t f hf db) :=
  .proposals hf (fun _ _ hit => (of_decide_eq_true hit).2) hl hlatest

theorem hasProposal_of_checkProposal {args : NewRun} {snapshot : Snapshot}
    (h : checkProposal args snapshot db = .ok ()) (hgiven : given args.proposalId = true) :
    HasProposal db (args.proposalId.getD "") args.tenantId := by
  unfold checkProposal at h
  rw [if_pos hgiven] at h
  simp only [bind_eq_ok] at h
  obtain ⟨row, hrow, -⟩ := h
  exact hasProposal_of_ownedProposal hrow

theorem written_linkProposal {args : NewRun} {now : String} {repositoryId : Option String}
    {branch commit : Value} (h : linkProposal host args now repositoryId branch commit db = .ok db')
    (hrun : HasRun db args.runId args.tenantId)
    (hproposal : given args.proposalId = true →
      HasProposal db (args.proposalId.getD "") args.tenantId) : Written args.tenantId db db' := by
  unfold linkProposal at h
  split at h
  · next hgiven =>
    simp only [bind_eq_ok] at h
    obtain ⟨_, -, _, -, _, -, _, -, _, -, h⟩ := h
    obtain rfl := Except.ok.inj h
    refine Relation.ReflTransGen.tail ?_ (writes_updateProposal _ (fun _ => rfl) ?_)
    · exact .single (.proposalRun rfl hrun (hproposal hgiven))
    · intro r runId hlatest
      obtain rfl := Option.some.inj hlatest
      exact Or.inr hrun
  · obtain rfl := Except.ok.inj h
    exact .refl

theorem written_createRun (args : NewRun) (d : Draw) (db : Database) :
    Written args.tenantId db ((StoreOp.createRun args).exec host d db).2 := by
  refine snd_atomically_of .refl fun run db' hok => ?_
  obtain ⟨snapshot, hash, -, -, hcheck, ⟨-, -, -, -, rfl⟩ | ⟨-, row, stored, hrow, -, -⟩⟩ :=
    createRun_eq_ok hok
  · exact .refl
  · obtain ⟨text, productRuns, productEvents, -, hruns, hevents, hlink⟩ := hrow.tables
    have hproposal := hasProposal_of_checkProposal hcheck
    have hnew : Writes args.tenantId db { db with productRuns } :=
      .newRun hruns hrow.tenantId (hrow.proposalId ▸ hproposal)
    have hrun : HasRun { db with productRuns } args.runId args.tenantId := by
      refine ⟨row, ?_, hrow.runId, hrow.tenantId⟩
      show row ∈ productRuns.rows
      rw [(Table.insert?_eq_some hruns).1]
      exact List.mem_append_right _ List.mem_cons_self
    have hevent : Writes args.tenantId { db with productRuns }
        { db with productRuns, productEvents } := .event hevents rfl hrun
    refine ((Relation.ReflTransGen.single hnew).tail hevent).trans
      (written_linkProposal hlink ?_ ?_)
    · exact hrun
    · exact fun hgiven => (hproposal hgiven).lasting (hnew.lasting.trans hevent.lasting)

theorem written_transition (args : Move) (d : Draw) (db : Database) :
    Written args.tenantId db ((StoreOp.transition args).exec host d db).2 := by
  refine snd_atomically_of .refl fun run db' hok => ?_
  simp only [transition, bind_eq_ok, orRaise_eq_ok] at hok
  obtain ⟨row, howned, state, -, db₁, hevent, value, -, members, -, resultJson, -, approvalId, -,
    hok⟩ := hok
  obtain ⟨text, productEvents, -, hevents, rfl⟩ := appendEventLocked_eq_ok hevent
  obtain ⟨stored, -, -, rfl⟩ := reread_eq_ok hok
  have hrun := hasRun_of_ownedRow howned
  have hevent : Writes args.tenantId db { db with productEvents } := .event hevents rfl hrun
  have hrun' := hrun.lasting hevent.lasting
  split
  · refine .tail ?_ (writes_updateProposal _ (fun _ => rfl) fun _ _ hlatest => Or.inl hlatest)
    exact .tail (.single hevent) (writes_updateRun _ hrun' fun _ => rfl)
  · exact .tail (.single hevent) (writes_updateRun _ hrun' fun _ => rfl)

theorem written_appendEvent (r t event : String) (payload : Mapping) (d : Draw) (db : Database) :
    Written t db ((StoreOp.appendEvent r t event payload).exec host d db).2 := by
  refine snd_atomically_of .refl fun u db' hok => ?_
  simp only [appendEvent, bind_eq_ok] at hok
  obtain ⟨row, howned, db₁, hevent, hok⟩ := hok
  obtain ⟨text, productEvents, -, hevents, rfl⟩ := appendEventLocked_eq_ok hevent
  obtain ⟨-, rfl⟩ := Prod.mk.inj (Except.ok.inj hok)
  have hrun := hasRun_of_ownedRow howned
  have hevent : Writes t db { db with productEvents } := .event hevents rfl hrun
  exact .tail (.single hevent) (writes_updateRun _ (hrun.lasting hevent.lasting) fun _ => rfl)

theorem written_saveCheckpoint (r t node : String) (state : Mapping) (d : Draw) (db : Database) :
    Written t db ((StoreOp.saveCheckpoint r t node state).exec host d db).2 := by
  refine snd_atomically_of .refl fun u db' hok => ?_
  simp only [saveCheckpoint, bind_eq_ok] at hok
  obtain ⟨row, howned, text, -, hok⟩ := hok
  obtain ⟨-, rfl⟩ := Prod.mk.inj (Except.ok.inj hok)
  exact .single (.checkpoint _ rfl (hasRun_of_ownedRow howned) fun _ => rfl)

theorem written_consumeApproval (args : Consumption) (d : Draw) (db : Database) :
    Written args.tenantId db ((StoreOp.consumeApproval args).exec host d db).2 := by
  refine snd_atomically_of .refl fun token db' hok => ?_
  simp only [consumeApproval, bind_eq_ok, orRaise_eq_ok, ensure_eq_ok] at hok
  obtain ⟨row, hfound, -, hbound, scopes, -, -, -, elapsed, -, -, -, ⟨⟩, -, ⟨⟩, -, token', -,
    hok⟩ := hok
  obtain ⟨-, rfl⟩ := Prod.mk.inj (Except.ok.inj hok)
  simp only [Bool.and_eq_true, decide_eq_true_eq] at hbound
  obtain ⟨hmem, hid⟩ := Table.find?_eq_some.mp hfound
  have htoken : Writes args.tenantId db { db with
      approvals := db.approvals.update (fun r => decide (r.tokenId = args.tokenId))
        (fun r => { r with consumed := true }) ⟨fun _ => rfl, fun _ => rfl, fun _ _ => rfl⟩ } := by
    refine .consumed _ fun r hr hit => ?_
    rw [Table.eq_of_pk hr hmem ((of_decide_eq_true hit).trans hid.symm)]
    exact hbound.1.2
  refine .tail (.single htoken) (.proposalApprovals _ ?_ fun _ => rfl)
  exact fun _ _ hit => (of_decide_eq_true hit).2

end Transactions

/-! ### Steps for a tenant -/

/-- What the programs rely on: rows refer to what is their tenant's, and what lasts stays. -/
def storeRely : Rely StoreOp StoreOp.Ans Database where
  shows op a := match op, a with
    | .look, db => some db
    | _, _ => none
  holds := Referring
  lasts := Lasting

/-- A step consists of writes for one tenant, the one that is named, if one is. -/
def Acts (tenant : Option String) (db db' : Database) : Prop :=
  ∃ t, (∀ t', tenant = some t' → t' = t) ∧ Written t db db'

theorem acts_refl (tenant : Option String) (db : Database) : Acts tenant db db :=
  ⟨tenant.getD "", fun _ ht => by rw [ht]; rfl, .refl⟩

theorem Written.acts {t : String} {db db' : Database} (h : Written t db db') :
    Acts (some t) db db' := ⟨t, fun _ ht => (Option.some.inj ht).symm, h⟩

/-- A program of the store that acts for a tenant, wherever it stands. -/
abbrev Owned (host : Host) (tenant : Option String) (past : List (Entry StoreOp StoreOp.Ans Raised))
    {α : Type} (p : Store α) : Prop :=
  p.Sound storeRely (StoreOp.exec host) (Acts tenant) past

section Rules

variable {host : Host} {tenant : Option String} {t : String} {α β : Type}
  {past : List (Entry StoreOp StoreOp.Ans Raised)}

theorem owned_ofExcept_bind {x : Except Raised α} {next : α → Store β}
    (h : ∀ a, x = .ok a → Owned host tenant past (next a)) :
    Owned host tenant past (ofExcept x >>= next) := Prog.sound_done_bind h

theorem owned_look_bind {next : Database → Store β}
    (h : ∀ db, Owned host tenant (⟨.look, .ok db⟩ :: past) (next db)) :
    Owned host tenant past (look >>= next) :=
  Prog.sound_perform_bind (fun _ db _ _ => acts_refl tenant db) h

theorem owned_now_bind {next : String → Store β}
    (h : ∀ now, Owned host tenant (⟨.now, .ok now⟩ :: past) (next now)) :
    Owned host tenant past (now >>= next) :=
  Prog.sound_perform_bind (fun _ db _ _ => acts_refl tenant db) h

theorem owned_uuid_bind {next : String → Store β}
    (h : ∀ fresh, Owned host tenant (⟨.uuid, .ok fresh⟩ :: past) (next fresh)) :
    Owned host tenant past (uuid >>= next) :=
  Prog.sound_perform_bind (fun _ db _ _ => acts_refl tenant db) h

/-- A write for a tenant, on what was read. -/
def WritesFor (t : String) (past : List (Entry StoreOp StoreOp.Ans Raised))
    (statement : Database → Except Raised Database) : Prop :=
  ∀ db db', Referring db → (∀ db₀, storeRely.Seen past db₀ → Referring db₀ ∧ Lasting db₀ db) →
    statement db = .ok db' → Writes t db db'

theorem WritesFor.guarantees {statement : Database → Except Raised Database}
    (h : WritesFor t past statement) (ht : ∀ t', tenant = some t' → t' = t) :
    storeRely.Guarantees (StoreOp.exec host) (Acts tenant) past (.write statement) := by
  intro d db hrefers hseen
  refine snd_atomically_of (acts_refl _ db) fun u db' hok => ?_
  cases hs : statement db with
  | error e => rw [hs] at hok; cases hok
  | ok db₁ =>
    rw [hs] at hok
    obtain ⟨-, rfl⟩ := Prod.mk.inj (Except.ok.inj hok)
    exact ⟨t, ht, .single (h db db₁ hrefers hseen hs)⟩

theorem owned_write {statement : Database → Except Raised Database}
    (h : WritesFor t past statement) : Owned host (some t) past (write statement) :=
  Prog.sound_perform (h.guarantees fun _ ht => (Option.some.inj ht).symm)

theorem owned_write_bind {statement : Database → Except Raised Database} {next : Unit → Store β}
    (h : WritesFor t past statement)
    (hnext : ∀ u, Owned host (some t) (⟨.write statement, .ok u⟩ :: past) (next u)) :
    Owned host (some t) past (write statement >>= next) :=
  Prog.sound_perform_bind (h.guarantees fun _ ht => (Option.some.inj ht).symm) hnext

/-- A database that was read. -/
theorem seen_look (db : Database) : storeRely.Seen
    ((⟨.look, .ok db⟩ : Entry StoreOp StoreOp.Ans Raised) :: past) db := Rely.seen_head rfl

end Rules

/-! ### The programs -/

section Programs

variable {host : Host} {past : List (Entry StoreOp StoreOp.Ans Raised)} {t : String}

theorem owned_registerRepository (tenantId : String) (repo : Mapping) :
    Owned host (some tenantId) past (registerRepository host tenantId repo) := by
  unfold registerRepository
  refine owned_ofExcept_bind fun snapshot _ => ?_
  refine Prog.Sound.ite (fun _ => ?_) fun _ => Prog.sound_done _
  refine owned_now_bind fun now => owned_ofExcept_bind fun capabilities _ => ?_
  refine owned_write_bind (fun db db' _ _ hok => ?_) fun _ =>
    owned_look_bind fun _ => Prog.sound_done _
  simp only [upsertRepository, bind_eq_ok] at hok
  obtain ⟨_, -, _, -, _, -, _, -, _, -, _, -, _, -, _, -, _, -, _, -, _, -, hok⟩ := hok
  obtain rfl := Except.ok.inj hok
  exact .repository _ rfl

theorem owned_createProposal (args : NewProposal) :
    Owned host (some args.tenantId) past (createProposal host args) := by
  unfold createProposal
  refine Prog.Sound.ite (fun _ => Prog.sound_done _) fun _ => ?_
  refine Prog.Sound.ite (fun _ => Prog.sound_done _) fun _ => ?_
  refine owned_ofExcept_bind fun snapshot _ => ?_
  refine Prog.Sound.ite (fun _ => ?_) fun _ => Prog.sound_done _
  refine (owned_registerRepository _ _).bind fun past' _ _ => ?_
  refine owned_ofExcept_bind fun hash _ => owned_ofExcept_bind fun repositoryId _ => ?_
  refine owned_look_bind fun db => ?_
  split
  · exact Prog.Sound.ite (fun _ => Prog.sound_done _) fun _ => Prog.sound_done _
  · refine owned_now_bind fun now => owned_uuid_bind fun fresh => ?_
    refine owned_ofExcept_bind fun branch _ => owned_ofExcept_bind fun commit _ => ?_
    refine owned_ofExcept_bind fun repositoryId _ => owned_ofExcept_bind fun branch _ => ?_
    refine owned_ofExcept_bind fun commit _ => ?_
    refine owned_write_bind (fun db db' _ _ hok => ?_) fun _ => ?_
    · obtain ⟨proposals, hinsert, rfl⟩ := map_eq_ok.mp hok
      exact .newProposal (orRaise_eq_ok.mp hinsert) rfl rfl
    · exact owned_look_bind fun db => owned_ofExcept_bind fun _ _ => Prog.sound_done _

/-- What was read to be the tenant's run still is. -/
theorem hasRun_of_seen {db₀ db : Database} {runId : String} {row : RunRow}
    (hseen : ∀ db₀, storeRely.Seen past db₀ → Referring db₀ ∧ Lasting db₀ db)
    (h : storeRely.Seen past db₀) (howned : ownedRow runId t db₀ = .ok row) : HasRun db runId t :=
  (hasRun_of_ownedRow howned).lasting (hseen db₀ h).2

/-- The proposal of what was read to be the tenant's run. -/
theorem hasProposal_of_seen {db₀ db : Database} {row : RunRow}
    (hseen : ∀ db₀, storeRely.Seen past db₀ → Referring db₀ ∧ Lasting db₀ db)
    (h : storeRely.Seen past db₀) (hmem : row ∈ db₀.productRuns.rows) (ht : row.tenantId = t)
    (hgiven : given row.proposalId = true) : HasProposal db (row.proposalId.getD "") t :=
  ht ▸ ((hseen db₀ h).1.runs row hmem hgiven).lasting (hseen db₀ h).2

theorem mem_of_ownedRow {db : Database} {runId : String} {row : RunRow}
    (h : ownedRow runId t db = .ok row) : row ∈ db.productRuns.rows ∧ row.tenantId = t :=
  ⟨(Table.find?_eq_some.mp (ownedRow_eq_ok.mp h).1).1, (ownedRow_eq_ok.mp h).2⟩

/-- The tenant that usage is recorded for, if it is named. -/
def named (tenantId : Option String) : Option String := if given tenantId then tenantId else none

theorem owned_recordUsage (usage : UsageRecord) (tenantId : Option String) :
    Owned host (named tenantId) past (recordUsage host usage tenantId) := by
  unfold recordUsage
  refine owned_look_bind fun db => owned_ofExcept_bind fun tenant htenant => ?_
  refine owned_ofExcept_bind fun row howned => ?_
  generalize safeJson host (.dict usage.dict) = text
  refine owned_ofExcept_bind fun encoded _ => ?_
  -- the run was checked before the record is filed, in a statement of its own
  have hwrites : WritesFor tenant ((⟨.look, .ok db⟩ : Entry StoreOp StoreOp.Ans Raised) :: past)
      (insertUsage ⟨usage.runId, usage.callId, encoded⟩) := by
    intro db₁ db₂ _ hseen hok
    obtain ⟨modelUsage, hinsert, rfl⟩ := map_eq_ok.mp hok
    exact .usage (orRaise_eq_ok.mp hinsert) (hasRun_of_seen hseen (seen_look db) howned)
  refine Prog.Sound.bind (Prog.sound_perform (hwrites.guarantees ?_)).attempt fun past' r _ => ?_
  · -- a tenant that is named is the one the run is checked against
    intro t' ht
    unfold named at ht
    split at ht
    · next hgiven =>
      rw [if_pos hgiven, ht] at htenant
      exact Except.ok.inj htenant
    · cases ht
  · rcases r with e | u
    · refine Prog.Sound.ite (fun _ => ?_) fun _ => Prog.sound_done _
      refine owned_look_bind fun _ => ?_
      exact Prog.Sound.ite (fun _ => Prog.sound_done _) fun _ => Prog.sound_done _
    · exact Prog.sound_done _

/-- An update of a tenant's evidence. -/
theorem writesFor_updateEvidence {p : EvidenceRow → Bool} {f : EvidenceRow → EvidenceRow}
    (hf : Keeps EvidenceRow.evidenceId EvidenceRow.evidenceId (fun _ => true) f)
    (hp : ∀ r, p r = true → r.tenantId = t) (hown : ∀ r, (f r).link = r.link) :
    WritesFor t past (updateEvidence p f hf) := by
  intro db db' _ _ hok
  obtain rfl := Except.ok.inj hok
  exact .evidence hf (fun r _ => hp r) hown

theorem owned_revalidateItems (runId tenantId : String) (items : List Mapping) :
    Owned host (some tenantId) past (revalidateItems host runId tenantId items) := by
  induction items generalizing past with
  | nil => exact Prog.sound_done _
  | cons item items ih =>
    rw [revalidateItems]
    refine Prog.Sound.bind ?_ fun _ _ _ => ih
    unfold revalidateItem
    refine Prog.Sound.ite (fun _ => owned_ofExcept_bind fun _ _ => ?_) fun _ =>
      Prog.Sound.ite (fun _ => owned_ofExcept_bind fun _ _ => ?_) fun _ => Prog.sound_done _
    · exact owned_write (writesFor_updateEvidence _ (fun r hit => (of_decide_eq_true hit).2)
        fun _ => rfl)
    · exact owned_write (writesFor_updateEvidence _ (fun r hit => (of_decide_eq_true hit).2.2)
        fun _ => rfl)

theorem owned_markEvidence (row : ProposalRow) (tenantId : String) (changed : Bool)
    (evidence : Option (List Mapping)) :
    Owned host (some tenantId) past (markEvidence host row tenantId changed evidence) := by
  unfold markEvidence
  refine Prog.Sound.ite (fun _ => ?_) fun _ => Prog.sound_done _
  refine Prog.Sound.ite (fun _ => ?_) fun _ => ?_
  · unfold markStale
    refine owned_write_bind (writesFor_updateEvidence _ (fun r hit => (of_decide_eq_true hit).2)
      fun _ => rfl) fun _ => owned_now_bind fun now => owned_write fun db db' _ _ hok => ?_
    obtain rfl := Except.ok.inj hok
    exact .verifications _ (fun r _ hit => (of_decide_eq_true hit).2) fun _ => rfl
  · exact owned_revalidateItems _ _ _

theorem owned_markLatestRun (row : ProposalRow) (tenantId : String) (changed stale : Bool) :
    Owned host (some tenantId) past (markLatestRun host row tenantId changed stale) := by
  unfold markLatestRun
  refine Prog.Sound.ite (fun _ => ?_) fun _ => Prog.sound_done _
  refine Prog.Sound.ite (fun _ => ?_) fun _ => ?_
  · unfold markRun
    refine owned_look_bind fun db => owned_ofExcept_bind fun run _ => ?_
    refine owned_ofExcept_bind fun result _ => owned_ofExcept_bind fun resultJson _ => ?_
    refine owned_now_bind fun now => owned_write fun db db' _ _ hok => ?_
    obtain rfl := Except.ok.inj hok
    exact .runs _ (fun r _ hit => (of_decide_eq_true hit).2) fun _ => rfl
  · exact owned_look_bind fun db => owned_ofExcept_bind fun _ _ => Prog.sound_done _

theorem owned_revalidateProposal (proposalId tenantId : String) (current : Mapping)
    (evidence : Option (List Mapping)) :
    Owned host (some tenantId) past
      (revalidateProposal host proposalId tenantId current evidence) := by
  unfold revalidateProposal
  refine owned_look_bind fun db => owned_ofExcept_bind fun row _ => ?_
  refine owned_ofExcept_bind fun snapshot _ => ?_
  refine Prog.Sound.ite (fun _ => Prog.sound_done _) fun _ => ?_
  refine (owned_markEvidence _ _ _ _).bind fun _ _ _ => owned_look_bind fun db => ?_
  refine owned_now_bind fun now => owned_write_bind (fun db db' _ _ hok => ?_) fun _ => ?_
  · obtain rfl := Except.ok.inj hok
    exact writes_updateProposal _ (fun _ => rfl) fun _ _ hlatest => Or.inl hlatest
  · exact (owned_markLatestRun _ _ _ _).bind fun _ _ _ => Prog.sound_done _

theorem owned_issueApproval (args : Issue) :
    Owned host (some args.tenantId) past (issueApproval args) := by
  unfold issueApproval
  refine owned_look_bind fun db₀ => owned_ofExcept_bind fun run howned => ?_
  refine Prog.Sound.ite (fun _ => Prog.sound_done _) fun _ => ?_
  refine owned_uuid_bind fun fresh => owned_now_bind fun issuedAt => ?_
  obtain ⟨hmem, ht⟩ := mem_of_ownedRow howned
  refine owned_write_bind (fun db db' _ hseen hok => ?_) fun _ => ?_
  · obtain ⟨approvals, hinsert, rfl⟩ := map_eq_ok.mp hok
    exact .newApproval (orRaise_eq_ok.mp hinsert) rfl
      (hasRun_of_seen hseen (seen_look db₀).cons.cons howned)
      (hasProposal_of_seen hseen (seen_look db₀).cons.cons hmem ht)
  · refine Prog.Sound.bind ?_ fun _ _ _ => Prog.sound_done _
    unfold linkApproval
    refine Prog.Sound.ite (fun hgiven => ?_) fun _ => Prog.sound_done _
    refine owned_now_bind fun now => owned_write fun db db' _ hseen hok => ?_
    simp only [insertProposalApproval, bind_eq_ok, orRaise_eq_ok] at hok
    obtain ⟨_, -, _, -, _, -, proposalApprovals, hinsert, hok⟩ := hok
    obtain rfl := Except.ok.inj hok
    exact .newProposalApproval hinsert rfl
      (hasRun_of_seen hseen (seen_look db₀).cons.cons.cons.cons howned)
      (hasProposal_of_seen hseen (seen_look db₀).cons.cons.cons.cons hmem ht hgiven)

theorem link_of_evidenceRow {args : Outputs} {checkedCommit : Value} {index : ℕ} {item : Mapping}
    {row : EvidenceRow} (h : evidenceRow host args checkedCommit index item = .ok row) :
    row.runId = args.runId ∧ row.proposalId = args.proposalId ∧ row.tenantId = args.tenantId := by
  simp only [evidenceRow, bind_eq_ok] at h
  obtain ⟨_, -, _, -, _, -, _, -, _, -, _, -, _, -, _, -, _, -, _, -, _, -, _, -, _, -, h⟩ := h
  obtain rfl := Except.ok.inj h
  exact ⟨rfl, rfl, rfl⟩

/-- A report that shows a run's verification. -/
theorem writesFor_replaceVerification {row : VerificationRow} (ht : row.tenantId = t)
    (h : ∀ db, (∀ db₀, storeRely.Seen past db₀ → Referring db₀ ∧ Lasting db₀ db) →
      HasRun db row.runId t ∧ HasProposal db row.proposalId t) :
    WritesFor t past (replaceVerification row) := by
  intro db db' _ hseen hok
  obtain rfl := Except.ok.inj hok
  obtain ⟨hrun, hproposal⟩ := h db hseen
  exact .verification ht hrun hproposal

theorem ownedRow_of_getRun {db : Database} {runId : String} {run : RunLifecycle}
    (h : getRun runId t db = .ok run) : ∃ row, ownedRow runId t db = .ok row := by
  unfold getRun at h
  rw [bind_eq_ok] at h
  obtain ⟨row, hrow, -⟩ := h
  exact ⟨row, hrow⟩

theorem owned_saveReport (report : ReleaseReport) (tenantId : String) (stale : Bool) :
    Owned host (some tenantId) past (saveReport host report tenantId stale) := by
  unfold saveReport
  generalize safeJson host (.dict report.payload) = text
  refine owned_look_bind fun db₀ => owned_ofExcept_bind fun run hrun => ?_
  obtain ⟨row, howned⟩ := ownedRow_of_getRun hrun
  refine owned_ofExcept_bind fun encoded _ => owned_now_bind fun stamp => ?_
  refine owned_write_bind (fun db db' _ hseen hok => ?_) fun _ => owned_look_bind fun db₁ => ?_
  · -- the run was read before, and runs stay
    obtain rfl := Except.ok.inj hok
    exact .report rfl (hasRun_of_seen hseen (seen_look db₀).cons howned)
  split
  · next found hfound =>
    refine Prog.Sound.ite (fun hgiven => ?_) fun _ => Prog.sound_done _
    refine owned_now_bind fun createdAt => owned_now_bind fun updatedAt => ?_
    have hkeys : found.runId = report.runId ∧ found.tenantId = tenantId :=
      of_decide_eq_true (List.find?_some hfound :)
    refine owned_write (writesFor_replaceVerification rfl fun db hseen => ?_)
    have hmem := List.mem_of_find?_eq_some hfound
    exact ⟨HasRun.lasting ⟨found, hmem, hkeys⟩ (hseen db₁ (seen_look db₁).cons.cons).2,
      hasProposal_of_seen hseen (seen_look db₁).cons.cons hmem hkeys.2 hgiven⟩
  · exact Prog.sound_done _

theorem owned_insertEvidence (args : Outputs) (checkedCommit : Value) (index : ℕ)
    (items : List Mapping)
    (h : ∀ past' db, past ⊆ past' →
      (∀ db₀, storeRely.Seen past' db₀ → Referring db₀ ∧ Lasting db₀ db) →
      HasRun db args.runId args.tenantId ∧ HasProposal db args.proposalId args.tenantId) :
    Owned host (some args.tenantId) past (insertEvidence host args checkedCommit index items) := by
  induction items generalizing past index with
  | nil => exact Prog.sound_done _
  | cons item items ih =>
    rw [insertEvidence]
    refine owned_write_bind (fun db db' _ hseen hok => ?_) fun u => ?_
    · simp only [bind_eq_ok, orRaise_eq_ok] at hok
      obtain ⟨row, hrow, evidenceSnapshots, hinsert, hok⟩ := hok
      obtain rfl := Except.ok.inj hok
      obtain ⟨hrun, hproposal⟩ := h past db (List.Subset.refl past) hseen
      obtain ⟨hrunId, hproposalId, htenant⟩ := link_of_evidenceRow hrow
      exact .newEvidence hinsert htenant (hrunId ▸ hrun) (hproposalId ▸ hproposal)
    · exact ih _ fun past' db hsub =>
        h past' db (List.Subset.trans (List.subset_cons_self _ _) hsub)

theorem owned_savePlan (args : Outputs) (now : String)
    (h : ∀ db, (∀ db₀, storeRely.Seen past db₀ → Referring db₀ ∧ Lasting db₀ db) →
      HasRun db args.runId args.tenantId ∧ HasProposal db args.proposalId args.tenantId) :
    Owned host (some args.tenantId) past (savePlan host args now) := by
  unfold savePlan
  split
  · refine owned_ofExcept_bind fun encoded _ => owned_write fun db db' _ hseen hok => ?_
    obtain rfl := Except.ok.inj hok
    obtain ⟨hrun, hproposal⟩ := h db hseen
    exact .plan rfl hrun hproposal
  · exact Prog.sound_done _

theorem owned_saveOutputReport (args : Outputs) (now : String)
    (h : ∀ db, (∀ db₀, storeRely.Seen past db₀ → Referring db₀ ∧ Lasting db₀ db) →
      HasRun db args.runId args.tenantId ∧ HasProposal db args.proposalId args.tenantId) :
    Owned host (some args.tenantId) past (saveOutputReport host args now) := by
  unfold saveOutputReport
  split
  · exact owned_ofExcept_bind fun encoded _ => owned_write (writesFor_replaceVerification rfl h)
  · exact Prog.sound_done _

theorem owned_saveProposalOutputs (args : Outputs) :
    Owned host (some args.tenantId) past (saveProposalOutputs host args) := by
  unfold saveProposalOutputs
  refine owned_look_bind fun db₀ => owned_ofExcept_bind fun proposal howned => ?_
  refine Prog.Sound.ite (fun hlatest => ?_) fun _ => Prog.sound_done _
  -- the latest run of a tenant's proposal is the tenant's
  have hlinks : ∀ (past' : List (Entry StoreOp StoreOp.Ans Raised)) db,
      storeRely.Seen past' db₀ →
      (∀ db₀, storeRely.Seen past' db₀ → Referring db₀ ∧ Lasting db₀ db) →
      HasRun db args.runId args.tenantId ∧ HasProposal db args.proposalId args.tenantId := by
    intro past' db hread hseen
    obtain ⟨hrefers, hlasting⟩ := hseen db₀ hread
    obtain ⟨hfind, ht⟩ := ownedProposal_eq_ok.mp howned
    have hrun := hrefers.proposals proposal (Table.find?_eq_some.mp hfind).1 args.runId hlatest
    rw [ht] at hrun
    exact ⟨hrun.lasting hlasting, (hasProposal_of_ownedProposal howned).lasting hlasting⟩
  refine owned_ofExcept_bind fun snapshot _ => owned_ofExcept_bind fun requirementsJson _ => ?_
  refine owned_ofExcept_bind fun planJson _ => owned_now_bind fun now => ?_
  refine owned_write_bind (fun db db' _ _ hok => ?_) fun _ => ?_
  · obtain rfl := Except.ok.inj hok
    exact .proposalRuns _ (fun r _ hit => (of_decide_eq_true hit).2) fun _ => rfl
  refine owned_write_bind (fun db db' _ _ hok => ?_) fun _ => ?_
  · obtain rfl := Except.ok.inj hok
    exact .noEvidence fun r _ hit => (of_decide_eq_true hit).2
  -- evidence, plan and report name the run and the proposal that were read first
  refine (owned_insertEvidence _ _ _ _ fun past' db hsub =>
    hlinks past' db ((seen_look db₀).cons.cons.cons.mono hsub)).bind fun past₁ _ h₁ => ?_
  have hread : storeRely.Seen past₁ db₀ := (seen_look db₀).cons.cons.cons.mono h₁
  refine (owned_savePlan _ _ fun db => hlinks past₁ db hread).bind fun past₂ _ h₂ => ?_
  refine (owned_saveOutputReport _ _ fun db =>
    hlinks past₂ db (hread.mono h₂)).bind fun past₃ _ _ => ?_
  refine owned_write fun db db' _ _ hok => ?_
  obtain rfl := Except.ok.inj hok
  exact writes_updateProposal _ (fun _ => rfl) fun _ _ hlatest => Or.inl hlatest

theorem owned_recordArtifact (args : Artifact) :
    Owned host (some args.tenantId) past (recordArtifact host args) := by
  unfold recordArtifact
  refine owned_look_bind fun db₀ => owned_ofExcept_bind fun row howned => ?_
  obtain ⟨hmem, ht⟩ := mem_of_ownedRow howned
  refine Prog.Sound.ite (fun hgiven => ?_) fun _ => Prog.sound_done _
  refine owned_ofExcept_bind fun metadataJson _ => owned_now_bind fun now => ?_
  refine owned_write fun db db' _ hseen hok => ?_
  obtain rfl := Except.ok.inj hok
  exact .artifact rfl (hasRun_of_seen hseen (seen_look db₀).cons howned)
    (hasProposal_of_seen hseen (seen_look db₀).cons hmem ht hgiven)

theorem owned_saveTrace (args : TraceLink) :
    Owned host (some args.tenantId) past (saveTrace args) := by
  unfold saveTrace
  refine owned_look_bind fun db₀ => owned_ofExcept_bind fun row howned => ?_
  obtain ⟨hmem, ht⟩ := mem_of_ownedRow howned
  refine Prog.Sound.ite (fun hgiven => ?_) fun _ => Prog.sound_done _
  refine owned_now_bind fun createdAt => owned_now_bind fun updatedAt => ?_
  refine owned_write_bind (fun db db' _ hseen hok => ?_) fun _ => owned_now_bind fun stamp => ?_
  · obtain rfl := Except.ok.inj hok
    exact .trace rfl (hasRun_of_seen hseen (seen_look db₀).cons.cons howned)
      (hasProposal_of_seen hseen (seen_look db₀).cons.cons hmem ht hgiven)
  · refine owned_write fun db db' _ _ hok => ?_
    obtain rfl := Except.ok.inj hok
    exact .runs _ (fun r _ hit => (of_decide_eq_true hit).2) fun _ => rfl

/-! ### The calls -/

/-- A transaction that consists of writes for a tenant. -/
theorem owned_perform {op : StoreOp} (h : ∀ d db, Written t db (op.exec host d db).2) :
    Owned host (some t) past (Prog.perform op) :=
  Prog.sound_perform fun d db _ _ => (h d db).acts

/-- The tenant a call is made for, if one is named. -/
def Call.tenant : Call → Option String
  | .createRun args => some args.tenantId
  | .transition args => some args.tenantId
  | .appendEvent _ tenantId _ _ => some tenantId
  | .saveCheckpoint _ tenantId _ _ => some tenantId
  | .recordUsage _ tenantId => named tenantId
  | .registerRepository tenantId _ => some tenantId
  | .createProposal args => some args.tenantId
  | .revalidateProposal _ tenantId _ _ => some tenantId
  | .issueApproval args => some args.tenantId
  | .consumeApproval args => some args.tenantId
  | .saveReport _ tenantId _ => some tenantId
  | .saveProposalOutputs args => some args.tenantId
  | .recordArtifact args => some args.tenantId
  | .saveTrace args => some args.tenantId

/-- **Every call acts for its tenant**, whatever other calls do in between. -/
theorem Call.owned (c : Call) : Owned host c.tenant past (c.program host) := by
  cases c with
  | createRun args => exact owned_perform (written_createRun args)
  | transition args => exact owned_perform (written_transition args)
  | appendEvent r t event payload => exact owned_perform (written_appendEvent r t event payload)
  | saveCheckpoint r t node state => exact owned_perform (written_saveCheckpoint r t node state)
  | recordUsage usage t => exact owned_recordUsage usage t
  | registerRepository t repo => exact owned_registerRepository t repo
  | createProposal args => exact owned_createProposal args
  | revalidateProposal p t current evidence => exact owned_revalidateProposal p t current evidence
  | issueApproval args => exact owned_issueApproval args
  | consumeApproval args => exact owned_perform (written_consumeApproval args)
  | saveReport report t stale => exact owned_saveReport report t stale
  | saveProposalOutputs args => exact owned_saveProposalOutputs args
  | recordArtifact args => exact owned_recordArtifact args
  | saveTrace args => exact owned_saveTrace args

end Programs

end AiSaas.Kernel
