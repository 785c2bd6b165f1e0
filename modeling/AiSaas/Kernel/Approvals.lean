import AiSaas.Kernel.Atomicity

/-!
# Approval tokens

A token is made by `issue_approval` and spent by `consume_approval`, which finds its row
unconsumed and marks it.  What is checked of the current repository are only the fields
that the mapping states, so that a mapping that leaves one out is accepted for any value
of it.

## Main definitions

* `Made.consumption` — the consumption a call succeeded in.
* `Issues` — the call made the row of a token.
* `Bound`, `SameRepository` — what a token is bound to.
* `Call.Stated` — a mapping that is compared states all that is compared.

## Main results

* `tokens_single_use` — a token is consumed once, by a call it is bound to.
-/

namespace AiSaas.Kernel

open Relational Transaction Processes Store

/-! ### Issuing and consuming -/

/-- The consumption that a call succeeded in. -/
def Made.consumption : Made → Option Consumption
  | ⟨.consumeApproval args, _, _, ran⟩ =>
    match ran.result with
    | some (.ok _) => some args
    | _ => none
  | _ => none

/-- The call made the row of a token, for a run as it was then. -/
def Issues (made : Made) (issue : Issue) (run : RunRow) (row : ApprovalRow) : Prop :=
  made.call = .issueApproval issue ∧ ownedRow issue.runId issue.tenantId made.before = .ok run ∧
    row ∈ made.ran.state.approvals.rows ∧ ∃ fresh issuedAt, row = issue.row run made.before fresh issuedAt

/-- A consumption at a time that fits what a token was issued for. -/
structure Bound (host : Host) (args : Consumption) (now : ℤ) (issue : Issue) (digest : Option String) :
    Prop where
  runId : args.runId = issue.runId
  tenantId : args.tenantId = issue.tenantId
  scope : args.scope ∈ issue.scopes
  unexpired : ∃ expiry, host.fromisoformat issue.expiresAt = .ok (.aware expiry) ∧ now < expiry
  plan : given args.planDigest = given digest ∧ (given digest = true → args.planDigest = digest)

/-- The current repository is stated, and is the one of the run. -/
def SameRepository (host : Host) (current : Option Mapping) (run : RunRow) : Prop :=
  given run.repositoryId = true → ∃ repository snapshot id branch commit,
    current = some repository ∧ snapshotOf host (some repository) = .ok snapshot ∧
    (run.repositoryId = some id ∧ snapshot.repositoryId = .str id) ∧
    (run.branch = some branch ∧ snapshot.branch = .str branch) ∧
    (run.commitSha = some commit ∧ snapshot.commit = .str commit)

/-- A mapping that differs from the token's repository in no field it states, states all
of them, where everything else of the call is accepted. -/
def Call.Stated (host : Host) (db : Database) (draws : List Draw) : Call → Prop
  | .consumeApproval args => ∀ ⦃row repository snapshot⦄, db.approvals.find? args.tokenId = some row →
    row.runId = args.runId → row.tenantId = args.tenantId → row.consumed = false →
    (∃ scopes, loads row.scopesJson = .ok scopes ∧ args.scope ∈ asTexts scopes) →
    (∀ d ∈ draws.head?, expired host row.expiresAt (d.now 0) = .ok false) →
    checkPlan row args.planDigest = .ok () → given row.repositoryId = true →
    args.currentRepository = some repository → snapshotOf host (some repository) = .ok snapshot →
    snapshotChanged row.repositoryId row.branch row.commitSha snapshot = false →
    snapshot.repositoryId.isNone = false ∧ snapshot.branch.isNone = false ∧
      snapshot.commit.isNone = false
  | _ => True

section Rows

variable {host : Host}

/-- The scopes of a token are read back. -/
theorem loads_dumpScopes (scopes : List String) :
    ∃ v, loads (dumpScopes scopes) = .ok v ∧ asTexts v = scopes := by
  have hshort : (JsonText.Value.arr (scopes.map .str)).Short := by
    change JsonText.ShortItems _
    induction scopes with
    | nil => trivial
    | cons s scopes ih => exact ⟨trivial, ih⟩
  refine ⟨.arr (scopes.map .str), ?_, ?_⟩
  · rw [loads, dumpScopes, String.toList_ofList, JsonText.read_write hshort]
  · induction scopes with
    | nil => rfl
    | cons s scopes ih => exact congrArg (s :: ·) (ih hshort.2)

theorem given_eq_true {text : Option String} : given text = true ↔ ∃ s, text = some s ∧ s ≠ "" := by
  cases text <;> simp [given]

/-- A stated value that does not differ is the stored one. -/
theorem eq_of_differs {text : String} {v : Value} (h : differs (some text) v = false)
    (hv : v.isNone = false) : v = .str text := by
  cases v with
  | none => cases hv
  | str s =>
    have hs : text = s := by simpa [differs] using h
    rw [hs]
  | bool | int | float | list | tuple | dict | other => cases h

/-- What is checked of the plan: both are absent, or equal. -/
theorem checkPlan_eq_ok {row : ApprovalRow} {digest : Option String}
    (h : checkPlan row digest = .ok ()) : given digest = given row.planDigest ∧
      (given row.planDigest = true → digest = row.planDigest) := by
  simp only [checkPlan, bind_eq_ok, ensure_eq_ok] at h
  obtain ⟨-, hbound, hmissing⟩ := h
  cases hrow : given row.planDigest <;> cases hdigest : given digest <;>
    simp_all

/-- What is checked of the repository. -/
theorem checkRepository_eq_ok {row : ApprovalRow} {current : Option Mapping}
    (h : checkRepository host row current = .ok ()) (hbound : given row.repositoryId = true) :
    ∃ repository snapshot, current = some repository ∧
      snapshotOf host (some repository) = .ok snapshot ∧
      snapshotChanged row.repositoryId row.branch row.commitSha snapshot = false ∧
      given row.branch = true ∧ given row.commitSha = true := by
  unfold checkRepository at h
  rw [if_pos hbound] at h
  cases current with
  | none => cases h
  | some repository =>
    simp only [bind_eq_ok, ensure_eq_ok, Bool.and_eq_true, Bool.not_eq_true'] at h
    obtain ⟨snapshot, hsnapshot, hsame, ⟨-, hbranch⟩, hcommit⟩ := h
    exact ⟨repository, snapshot, rfl, hsnapshot, hsame, hbranch, hcommit⟩

theorem expired_eq_false {text : String} {now : ℤ} (h : expired host text now = .ok false) :
    ∃ expiry, host.fromisoformat text = .ok (.aware expiry) ∧ now < expiry := by
  simp only [expired, bind_eq_ok] at h
  obtain ⟨moment, hmoment, h⟩ := h
  cases moment with
  | naive t => cases h
  | aware t =>
    refine ⟨t, hmoment, ?_⟩
    have hle : decide (t ≤ now) = false := Except.ok.inj h
    exact not_le.mp (of_decide_eq_false hle)

end Rows

/-! ### What calls do to tokens -/

/-- A statement that leaves the tokens alone. -/
def StoreOp.LeavesTokens (host : Host) (op : StoreOp) : Prop :=
  ∀ (d : Draw) (db : Database), (op.exec host d db).2.approvals = db.approvals

section Tokens

variable {host : Host}

theorem leavesTokens_write {statement : Database → Except Raised Database}
    (h : ∀ db db', statement db = .ok db' → db'.approvals = db.approvals) :
    (StoreOp.write statement).LeavesTokens host :=
  write_rel (R := fun db db' => db'.approvals = db.approvals) (fun _ => rfl) h

theorem steady_leavesTokens : Steady (StoreOp.LeavesTokens host) where
  look _ _ := rfl
  now _ _ := rfl
  uuid _ _ := rfl
  aside h := leavesTokens_write fun db db' hok => (h db db' hok).2.2
  run hf h := leavesTokens_write fun db db' hok => by
    obtain rfl := Except.ok.inj hok
    rfl
  newProposal row := leavesTokens_write fun db db' hok => by
    obtain ⟨proposals, -, rfl⟩ := map_eq_ok.mp hok
    rfl
  proposal hf h := leavesTokens_write fun db db' hok => by
    obtain rfl := Except.ok.inj hok
    rfl

theorem leavesTokens_createRun (args : NewRun) : (StoreOp.createRun args).LeavesTokens host := by
  intro d db
  refine atomically_rel (R := fun db db' => db'.approvals = db.approvals) (fun _ => rfl)
    fun run db' hok => ?_
  obtain ⟨snapshot, hash, -, -, -, ⟨-, -, -, -, rfl⟩ | ⟨-, row, stored, hrow, -, -⟩⟩ :=
    createRun_eq_ok hok
  · rfl
  · obtain ⟨text, productRuns, productEvents, -, -, -, hlink⟩ := hrow.tables
    obtain ⟨-, rfl⟩ | ⟨_, -, -, -, -, -, rfl⟩ := linkProposal_eq_ok hlink <;> rfl

theorem leavesTokens_transition (args : Move) : (StoreOp.transition args).LeavesTokens host := by
  intro d db
  refine atomically_rel (R := fun db db' => db'.approvals = db.approvals) (fun _ => rfl)
    fun run db' hok => ?_
  obtain ⟨row, state, text, row', -, -, productRuns, productEvents, proposals, rfl, -⟩ :=
    transition_eq_ok hok
  rfl

theorem leavesTokens_appendEvent (r t event : String) (payload : Mapping) :
    (StoreOp.appendEvent r t event payload).LeavesTokens host := by
  intro d db
  refine atomically_rel (R := fun db db' => db'.approvals = db.approvals) (fun _ => rfl)
    fun u db' hok => ?_
  obtain ⟨row, text, productRuns, productEvents, -, -, -, -, -, rfl⟩ := appendEvent_eq_ok hok
  rfl

theorem leavesTokens_saveCheckpoint (r t node : String) (state : Mapping) :
    (StoreOp.saveCheckpoint r t node state).LeavesTokens host := by
  intro d db
  refine atomically_rel (R := fun db db' => db'.approvals = db.approvals) (fun _ => rfl)
    fun u db' hok => ?_
  obtain ⟨row, text, graphCheckpoints, -, -, -, -, rfl⟩ := saveCheckpoint_eq_ok hok
  rfl

/-- A program whose statements leave the tokens alone. -/
theorem tokens_unchanged {α : Type} {prog : Store α} (h : prog.Asks (StoreOp.LeavesTokens host))
    (draws : List Draw) (db : Database) :
    (prog.run (StoreOp.exec host) draws [] db).state.approvals = db.approvals :=
  h.run_invariant (I := fun s : Database => s.approvals = db.approvals)
    (fun _ hop d s hs => (hop d s).trans hs) draws rfl

/-- **A consumption**: its token is there afterwards, spent; every row is one that was
there, but for that. -/
theorem consumeApproval_rows {args : Consumption} {d : Draw} {db db' : Database}
    {token : ApprovalToken} (h : Kernel.consumeApproval host args d db = .ok (token, db')) :
    ∃ row ∈ db.approvals.rows, row.tokenId = args.tokenId ∧ Accepted host args d row ∧
      { row with consumed := true } ∈ db'.approvals.rows ∧
      Persist ApprovalRow.lasting db'.approvals.rows db.approvals.rows := by
  obtain ⟨row, hfind, haccepted, -, approvals, proposalApprovals, rfl, happrovals, -⟩ :=
    consumeApproval_eq_ok h
  obtain ⟨hmem, hid⟩ := Table.find?_eq_some.mp hfind
  refine ⟨row, hmem, hid, haccepted, ?_, ?_⟩
  · have hspent := happrovals args.tokenId
    rw [hfind] at hspent
    simp only [Option.map_some, if_true] at hspent
    exact (Table.find?_eq_some.mp hspent).1
  · intro r hr
    have hfound := Table.find?_of_mem hr
    rw [happrovals] at hfound
    obtain ⟨r₀, hr₀, heq⟩ := Option.map_eq_some_iff.mp hfound
    refine ⟨r₀, (Table.find?_eq_some.mp hr₀).1, ?_⟩
    rw [← heq]
    split <;> rfl

/-- Where an issuing call has come to, there is its token at most besides the old ones. -/
theorem issueApproval_visits {args : Issue} {May : Draw → Prop} {db db' : Database}
    (h : (issueApproval args).Visits (StoreOp.exec host) May db db') :
    db'.approvals = db.approvals ∨ ∃ run fresh issuedAt,
      ownedRow args.runId args.tenantId db = .ok run ∧
      db.approvals.insert? (args.row run db fresh issuedAt) = some db'.approvals := by
  unfold issueApproval at h
  rcases visits_look h with rfl | h
  · exact Or.inl rfl
  rcases visits_ofExcept h with rfl | ⟨run, hrun, h⟩
  · exact Or.inl rfl
  split at h
  · rw [Prog.visits_done h]
    exact Or.inl rfl
  rcases visits_uuid h with rfl | ⟨d, -, h⟩
  · exact Or.inl rfl
  rcases visits_now h with rfl | ⟨d', -, h⟩
  · exact Or.inl rfl
  rcases visits_write h with rfl | ⟨db₁, hinsert, h⟩
  · exact Or.inl rfl
  obtain ⟨approvals, htable, rfl⟩ := map_eq_ok.mp hinsert
  have hrest : db'.approvals = approvals := by
    have hasks : ∀ row : ApprovalRow, (do
        linkApproval row
        return (⟨row.tokenId, row.runId, row.tenantId, args.scopes, row.issuedAt, row.expiresAt, false,
          row.repositoryId, row.branch, row.commitSha, row.planDigest, row.proposalId⟩ :
            ApprovalToken) : Store ApprovalToken).Asks (StoreOp.LeavesTokens host) :=
      fun row => (asks_linkApproval steady_leavesTokens.toIncidental row).bind fun _ => .done _
    exact (hasks _).visits_invariant (I := fun s : Database => s.approvals = approvals)
      (fun _ hop d s hs => (hop d s).trans hs) h rfl
  refine Or.inr ⟨run, d.uuid 0, host.isoformat (d'.now 0), hrun, ?_⟩
  rw [hrest]
  exact orRaise_eq_ok.mp htable

/-- **Where tokens come from.**  A token that is there after a call was there before, or
the call made it. -/
theorem rows_made (c : Call) (draws : List Draw) (db : Database)
    {ran : Ran StoreOp StoreOp.Ans Raised c.Result Database}
    (hran : (c.program host).run (StoreOp.exec host) draws [] db = ran) :
    ∀ row ∈ ran.state.approvals.rows, (∃ row' ∈ db.approvals.rows, row'.lasting = row.lasting) ∨
      ∃ issue run, Issues ⟨c, draws, db, ran⟩ issue run row.lasting := by
  intro row hrow
  subst hran
  have hleft : (c.program host).Asks (StoreOp.LeavesTokens host) →
      ∃ row' ∈ db.approvals.rows, row'.lasting = row.lasting := fun hasks => by
    rw [tokens_unchanged hasks] at hrow
    exact ⟨row, hrow, rfl⟩
  cases c with
  | createRun args => exact Or.inl (hleft (Prog.asks_perform (leavesTokens_createRun args)))
  | transition args => exact Or.inl (hleft (Prog.asks_perform (leavesTokens_transition args)))
  | appendEvent r t event payload =>
    exact Or.inl (hleft (Prog.asks_perform (leavesTokens_appendEvent r t event payload)))
  | saveCheckpoint r t node state =>
    exact Or.inl (hleft (Prog.asks_perform (leavesTokens_saveCheckpoint r t node state)))
  | recordUsage usage t => exact Or.inl (hleft (asks_recordUsage steady_leavesTokens.toIncidental.quiet usage t))
  | registerRepository t repo =>
    exact Or.inl (hleft (asks_registerRepository steady_leavesTokens.toIncidental.quiet t repo))
  | createProposal args => exact Or.inl (hleft (asks_createProposal steady_leavesTokens args))
  | revalidateProposal p t current evidence =>
    exact Or.inl (hleft (asks_revalidateProposal steady_leavesTokens p t current evidence))
  | saveReport report t stale =>
    exact Or.inl (hleft (asks_saveReport steady_leavesTokens.toIncidental report t stale))
  | saveProposalOutputs args =>
    exact Or.inl (hleft (asks_saveProposalOutputs steady_leavesTokens args))
  | recordArtifact args => exact Or.inl (hleft (asks_recordArtifact steady_leavesTokens.toIncidental args))
  | saveTrace args => exact Or.inl (hleft (asks_saveTrace steady_leavesTokens.toIncidental args))
  | issueApproval args =>
    have hvisits : (issueApproval args).Visits (StoreOp.exec host) (fun _ => True) db
        ((issueApproval args).run (StoreOp.exec host) draws [] db).state := Prog.visits_of_state draws
    rcases issueApproval_visits hvisits with hsame | ⟨run, fresh, issuedAt, hrun, hinsert⟩
    · refine Or.inl ⟨row, ?_, rfl⟩
      rw [← hsame]
      exact hrow
    · obtain ⟨hrows, -⟩ := Table.insert?_eq_some hinsert
      have hmem : row ∈ db.approvals.rows ++ [args.row run db fresh issuedAt] := hrows ▸ hrow
      rcases List.mem_append.mp hmem with hold | hnew
      · exact Or.inl ⟨row, hold, rfl⟩
      · obtain rfl := List.mem_singleton.mp hnew
        exact Or.inr ⟨args, run, rfl, hrun, hrow, fresh, issuedAt, rfl⟩
  | consumeApproval args =>
    refine Or.inl ?_
    have hpersist : Persist ApprovalRow.lasting
        (((Call.consumeApproval args).program host).run (StoreOp.exec host) draws [] db).state.approvals.rows
        db.approvals.rows := by
      cases draws with
      | nil => exact persist_refl _
      | cons d draws =>
        rw [Call.program, Prog.run_perform_cons]
        refine atomically_rel (R := fun db db' =>
          Persist ApprovalRow.lasting db'.approvals.rows db.approvals.rows)
          (fun _ => persist_refl _) fun token db' hok => ?_
        obtain ⟨_, -, -, -, -, hpersist⟩ := consumeApproval_rows hok
        exact hpersist
    exact hpersist hrow

/-- A consumption that succeeded is the only statement of its call. -/
theorem consumption_eq_some {c : Call} {draws : List Draw} {db : Database} {args : Consumption}
    (h : Made.consumption ⟨c, draws, db, (c.program host).run (StoreOp.exec host) draws [] db⟩
      = some args) :
    ∃ d token, c = .consumeApproval args ∧ draws.head? = some d ∧
      Kernel.consumeApproval host args d db
        = .ok (token, ((c.program host).run (StoreOp.exec host) draws [] db).state) := by
  cases c with
  | consumeApproval args' =>
    cases draws with
    | nil => cases h
    | cons d draws =>
      rw [Call.program, Prog.run_perform_cons, StoreOp.exec] at h ⊢
      obtain ⟨token, db', hbody, hall⟩ | ⟨e, hbody, hall⟩ :=
        atomically_cases (Kernel.consumeApproval host args' d) db
      · rw [hall] at h ⊢
        obtain rfl := Option.some.inj h
        exact ⟨d, token, rfl, rfl, hbody⟩
      · rw [hall] at h
        cases h
  | createRun | transition | appendEvent | saveCheckpoint | recordUsage | registerRepository
  | createProposal | revalidateProposal | issueApproval | saveReport | saveProposalOutputs
  | recordArtifact | saveTrace => cases h

end Tokens

/-! ### Single use -/

/-- A call before issued the token of a consumption, for all that the consumption states. -/
def Justified (host : Host) (earlier : List Made) (made : Made) (args : Consumption) : Prop :=
  ∃ issuing ∈ earlier, ∃ issue run row, Issues issuing issue run row ∧ row.tokenId = args.tokenId ∧
    (∃ d, made.draws.head? = some d ∧
      Bound host args (d.now 0) issue (issue.boundPlanDigest issuing.before)) ∧
    SameRepository host args.currentRepository run

/-- The token a call consumed. -/
def Made.spends (token : String) (made : Made) : Bool :=
  decide (made.consumption.map Consumption.tokenId = some token)

/-- Where a session stands with its tokens. -/
structure Accounted (host : Host) (s : Session) : Prop where
  /-- Every token was made by a call. -/
  known : ∀ row ∈ s.db.approvals.rows, ∃ issuing ∈ s.calls, ∃ issue run,
    Issues issuing issue run row.lasting
  /-- What was consumed stays so. -/
  spent : ∀ made ∈ s.calls, ∀ args, made.consumption = some args →
    ∃ row ∈ s.db.approvals.rows, row.tokenId = args.tokenId ∧ row.consumed = true
  once : ∀ token, (s.calls.filter (Made.spends token)).length ≤ 1
  justified : ∀ later made earlier, s.calls = later ++ made :: earlier →
    ∀ args, made.consumption = some args → Justified host earlier made args
  unchanged : ∀ made ∈ s.calls, ∀ args, made.call = .consumeApproval args →
    ∀ e, made.ran.result = some (.error e) → made.ran.state = made.before

section Sessions

variable {host : Host}

/-- What is checked of the rows of a token it was issued with. -/
theorem bound_of_accepted {args : Consumption} {d : Draw} {row : ApprovalRow} {issue : Issue}
    {run : RunRow} {db : Database} {fresh issuedAt : String} (h : Accepted host args d row)
    (hrow : row.lasting = issue.row run db fresh issuedAt) :
    Bound host args (d.now 0) issue (issue.boundPlanDigest db) := by
  have hrun := congrArg ApprovalRow.runId hrow
  have htenant := congrArg ApprovalRow.tenantId hrow
  have hscopes : row.scopesJson = dumpScopes issue.scopes := congrArg ApprovalRow.scopesJson hrow
  have hexpiry : row.expiresAt = issue.expiresAt := congrArg ApprovalRow.expiresAt hrow
  have hdigest : row.planDigest = issue.boundPlanDigest db := congrArg ApprovalRow.planDigest hrow
  refine ⟨h.runId.symm.trans hrun, h.tenantId.symm.trans htenant, ?_, ?_, ?_⟩
  · obtain ⟨scopes, hloads, hmem⟩ := h.scope
    obtain ⟨v, hv, htexts⟩ := loads_dumpScopes issue.scopes
    rw [hscopes, hv] at hloads
    obtain rfl := Except.ok.inj hloads
    rw [htexts] at hmem
    exact hmem
  · rw [← hexpiry]
    exact expired_eq_false h.unexpired
  · obtain ⟨hgiven, hsame⟩ := checkPlan_eq_ok h.plan
    rw [hdigest] at hgiven hsame
    exact ⟨hgiven, hsame⟩

/-- A mapping that states all that is compared is the repository of the run. -/
theorem sameRepository_of_accepted {args : Consumption} {d : Draw} {draws : List Draw}
    {row : ApprovalRow} {issue : Issue} {run : RunRow} {db before : Database} {fresh issuedAt : String}
    (h : Accepted host args d row) (hstated : (Call.consumeApproval args).Stated host db draws)
    (hd : draws.head? = some d) (hfind : db.approvals.find? args.tokenId = some row)
    (hrow : row.lasting = issue.row run before fresh issuedAt) :
    SameRepository host args.currentRepository run := by
  intro hgiven
  have hrepository : row.repositoryId = run.repositoryId := congrArg ApprovalRow.repositoryId hrow
  have hbranch : row.branch = run.branch := congrArg ApprovalRow.branch hrow
  have hcommit : row.commitSha = run.commitSha := congrArg ApprovalRow.commitSha hrow
  have hbound : given row.repositoryId = true := by rw [hrepository, hgiven]
  obtain ⟨repository, snapshot, hcurrent, hsnapshot, hsame, hgivenBranch, hgivenCommit⟩ :=
    checkRepository_eq_ok h.repository hbound
  have hunexpired : ∀ d' ∈ draws.head?, expired host row.expiresAt (d'.now 0) = .ok false := by
    rintro d' hd'
    obtain rfl := Option.some.inj (hd.symm.trans hd')
    exact h.unexpired
  obtain ⟨hid, hbranchStated, hcommitStated⟩ := hstated hfind h.runId h.tenantId h.unconsumed
    h.scope hunexpired h.plan hbound hcurrent hsnapshot hsame
  simp only [snapshotChanged, Bool.or_eq_false_iff] at hsame
  obtain ⟨⟨hsameId, hsameBranch⟩, hsameCommit⟩ := hsame
  obtain ⟨id, hid', -⟩ := given_eq_true.mp hbound
  obtain ⟨branch, hbranch', -⟩ := given_eq_true.mp hgivenBranch
  obtain ⟨commit, hcommit', -⟩ := given_eq_true.mp hgivenCommit
  rw [hid'] at hsameId
  rw [hbranch'] at hsameBranch
  rw [hcommit'] at hsameCommit
  refine ⟨repository, snapshot, id, branch, commit, hcurrent, hsnapshot, ⟨?_, ?_⟩, ⟨?_, ?_⟩, ?_, ?_⟩
  · rw [← hrepository, hid']
  · exact eq_of_differs hsameId hid
  · rw [← hbranch, hbranch']
  · exact eq_of_differs hsameBranch hbranchStated
  · rw [← hcommit, hcommit']
  · exact eq_of_differs hsameCommit hcommitStated

theorem accounted_new : Accounted host Session.new where
  known _ hrow := absurd hrow List.not_mem_nil
  spent _ hmade := absurd hmade List.not_mem_nil
  once _ := Nat.zero_le _
  justified later made earlier h := by
    have hlength := congrArg List.length h
    simp [Session.new] at hlength
  unchanged _ hmade := absurd hmade List.not_mem_nil

/-- **One more call** leaves a session accounted for. -/
theorem Accounted.make {s : Session} (h : Accounted host s) (c : Call × List Draw)
    (hc : c.1.Stated host s.db c.2) : Accounted host (s.make host c) := by
  obtain ⟨c, draws⟩ := c
  have hlasting : Lasting s.db (s.make host (c, draws)).db :=
    c.asks_lasting.run_rel lasting_refl Lasting.trans (fun _ h => h) draws s.db
  refine ⟨?_, ?_, ?_, ?_, ?_⟩
  · intro row hrow
    rcases rows_made c draws s.db rfl row hrow with ⟨row', hrow', hsame⟩ | ⟨issue, run, hissues⟩
    · obtain ⟨issuing, hmem, issue, run, hissues⟩ := h.known row' hrow'
      exact ⟨issuing, List.mem_cons_of_mem _ hmem, issue, run, hsame ▸ hissues⟩
    · exact ⟨_, List.mem_cons_self, issue, run, hissues⟩
  · intro made hmade args hargs
    rcases List.mem_cons.mp hmade with rfl | hmade
    · obtain ⟨d, token, -, -, hconsume⟩ := consumption_eq_some hargs
      obtain ⟨row, -, hid, -, hspent, -⟩ := consumeApproval_rows hconsume
      exact ⟨_, hspent, hid, rfl⟩
    · obtain ⟨row, hrow, hid, hconsumed⟩ := h.spent made hmade args hargs
      exact ⟨row, hlasting.consumed row hrow hconsumed, hid, hconsumed⟩
  · intro token
    rw [Session.make, List.filter_cons]
    split
    · next hspends =>
      -- The token was unconsumed, so that no call before consumed it.
      obtain ⟨args, hargs, hid⟩ := Option.map_eq_some_iff.mp (of_decide_eq_true hspends)
      obtain ⟨d, _, -, -, hconsume⟩ := consumption_eq_some hargs
      obtain ⟨row, hrow, hrowId, haccepted, -, -⟩ := consumeApproval_rows hconsume
      have hnone : s.calls.filter (Made.spends token) = [] := by
        refine List.filter_eq_nil_iff.mpr fun made hmade hspends' => ?_
        obtain ⟨args', hargs', hid'⟩ := Option.map_eq_some_iff.mp (of_decide_eq_true hspends')
        obtain ⟨row', hrow', hrowId', hconsumed⟩ := h.spent made hmade args' hargs'
        have hsame : row'.tokenId = row.tokenId := by rw [hrowId', hid', hrowId, hid]
        obtain rfl := Table.eq_of_pk hrow' hrow hsame
        exact Bool.false_ne_true (haccepted.unconsumed.symm.trans hconsumed)
      rw [hnone]
      exact Nat.le_refl 1
    · exact h.once token
  · intro later made earlier hsplit args hargs
    cases later with
    | nil =>
      obtain ⟨rfl, rfl⟩ := List.cons.inj hsplit
      obtain ⟨d, token, rfl, hd, hconsume⟩ := consumption_eq_some hargs
      obtain ⟨row, hrow, hid, haccepted, -, -⟩ := consumeApproval_rows hconsume
      obtain ⟨issuing, hmem, issue, run, hissues⟩ := h.known row hrow
      obtain ⟨fresh, issuedAt, hmade⟩ := hissues.2.2.2
      have hfind : s.db.approvals.find? args.tokenId = some row := hid ▸ Table.find?_of_mem hrow
      refine ⟨issuing, hmem, issue, run, row.lasting, hissues, hid, ⟨d, hd, ?_⟩, ?_⟩
      · exact bound_of_accepted haccepted hmade
      · exact sameRepository_of_accepted haccepted hc hd hfind hmade
    | cons first later =>
      exact h.justified later made earlier (List.cons.inj hsplit).2 args hargs
  · intro made hmade args hcall e he
    rcases List.mem_cons.mp hmade with rfl | hmade
    · obtain rfl : c = .consumeApproval args := hcall
      exact perform_unchanged (Prog.ends_of_result he)
    · exact h.unchanged made hmade args hcall e he

/-- **Approval tokens.**  In a session in which every mapping that is compared states all
that is compared, a token is consumed at most once, by a call that is bound to what it was
issued for, and a consumption that raised has left every table as it was. -/
theorem tokens_single_use (host : Host) (calls : List (Call × List Draw))
    (hstated : Runs.Along (Session.make host) (fun s c => c.1.Stated host s.db c.2) Session.new calls) :
    let made := (Runs.final (Session.make host) Session.new calls).calls
    (∀ token, (made.filter (Made.spends token)).length ≤ 1) ∧
      (∀ later m earlier, made = later ++ m :: earlier →
        ∀ args, m.consumption = some args → Justified host earlier m args) ∧
      ∀ m ∈ made, ∀ args, m.call = .consumeApproval args →
        ∀ e, m.ran.result = some (.error e) → m.ran.state = m.before := by
  have h := hstated.invariant (I := Accounted host) accounted_new fun s c hc hs => hs.make c hc
  exact ⟨h.once, h.justified, h.unchanged⟩

/-- A run of a repository, a token for it, and its consumption. -/
def spendingCalls (current : Mapping) : List (Call × List Draw) :=
  [(.createRun ⟨"run-1", "tenant-1", "key-1", "verify", [], none,
        some (record [("repository_id", .str "repo-1"), ("branch", .str "main"), ("commit", .str "c1")]),
        none⟩, [sampleDraw 0 "a"]),
    (.issueApproval ⟨"run-1", "tenant-1", ["apply_patch"], "1970-01-01T01:00:00+00:00", some "digest"⟩,
      List.replicate 6 (sampleDraw 0 "b")),
    (.consumeApproval ⟨"approval-b", "run-1", "tenant-1", "apply_patch", some current, some "digest"⟩,
      [sampleDraw 0 "c"])]

/-- A token that is consumed with the whole repository stated. -/
theorem stated_single_use :
    let current := record [("repository_id", .str "repo-1"), ("branch", .str "main"), ("commit", .str "c1")]
    let made := (Runs.final (Session.make sampleHost) Session.new (spendingCalls current)).calls
    (∀ token, (made.filter (Made.spends token)).length ≤ 1) ∧
      (∀ later m earlier, made = later ++ m :: earlier →
        ∀ args, m.consumption = some args → Justified sampleHost earlier m args) ∧
      ∀ m ∈ made, ∀ args, m.call = .consumeApproval args →
        ∀ e, m.ran.result = some (.error e) → m.ran.state = m.before := by
  refine tokens_single_use sampleHost (spendingCalls _) ⟨trivial, trivial, ?_, trivial⟩
  rintro row repository snapshot - - - - - - - - ⟨⟩ hsnapshot -
  obtain rfl := Except.ok.inj hsnapshot
  exact ⟨rfl, rfl, rfl⟩

/-- A token bound to a repository is consumed for a mapping that states nothing. -/
theorem unstated_repository_accepted : ∃ later m earlier args,
    (Runs.final (Session.make sampleHost) Session.new (spendingCalls [])).calls
      = later ++ m :: earlier ∧ m.consumption = some args ∧ ¬ Justified sampleHost earlier m args := by
  have hspends : ((Runs.final (Session.make sampleHost) Session.new (spendingCalls [])).calls.head
      (List.cons_ne_nil _ _)).consumption.map Consumption.tokenId = some "approval-b" := by
    decide +kernel
  obtain ⟨args, hargs, -⟩ := Option.map_eq_some_iff.mp hspends
  refine ⟨[], _, _, args, rfl, hargs, ?_⟩
  rintro ⟨issuing, hmem, issue, run, row, ⟨hcall, hrun, -, -⟩, -, -, hsame⟩
  obtain ⟨d, token, hconsumption, -, -⟩ := consumption_eq_some hargs
  obtain rfl := Call.consumeApproval.inj hconsumption
  have hgiven : given run.repositoryId = true := by
    rcases List.mem_cons.mp hmem with rfl | hmem
    · obtain rfl := Call.issueApproval.inj hcall
      have hread := congrArg (fun x => x.toOption.any fun r => given (RunRow.repositoryId r)) hrun
      refine (hread.symm.trans ?_ : given run.repositoryId = true)
      decide +kernel
    · obtain rfl := List.mem_singleton.mp hmem
      cases hcall
  obtain ⟨repository, snapshot, id, branch, commit, hcurrent, hsnapshot, ⟨-, hid⟩, -, -⟩ := hsame hgiven
  obtain rfl := Option.some.inj hcurrent
  obtain rfl := Except.ok.inj hsnapshot
  cases hid

end Sessions

end AiSaas.Kernel
