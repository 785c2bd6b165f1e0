import AiSaas.AgentOrchestrator.Steps

/-!
# What the calls of the workflow have done

Processes run the workflow, refresh a proposal or register a repository, over one kernel
store.  What a run has done whenever it asks the model, hands a plan to the worker or moves
its run to a state that has to be earned is read off the text of the methods once; every
later argument about interleavings starts from it.

## Main definitions

* `Call`, `workflowSystem` — the processes, and the system they run on.
* `Reported`, `Issued`, `Spent`, `Resumed` — a report was stored, a token issued, an
  allowed usage recorded; the run was taken up from a checkpoint.
* `Approved`, `Verified` — a token was consumed for a plan; the plan was patched and tested.
* `Does` — what a call has done before each operation.

## Main results

* `saveReport_trail`, `issueApproval_trail`, `recordUsage_trail` — what the store's methods
  leave in the past.
* `patch_trail`, `verify_trail`, `analyze_trail`, `program_trail` — the calls do it.
-/

namespace AiSaas.AgentOrchestrator

open Kernel Relational Transaction Processes

/-! ### The system -/

/-- A call that writes to the kernel store: `run`, `refresh_proposal` of a workflow, or
`register_repository`. -/
inductive Call where
  | run (services : Services) (request : Request)
  | refresh (services : Services) (proposalId tenantId : String) (snapshot : Mapping)
  | register (tenantId : String) (repo : Mapping)

/-- The program of a call. -/
def Call.program (py : Interpreter) : Call → Flow (Option RunOutcome)
  | .run services request => do
    let outcome ← AgentOrchestrator.run py services request
    return some outcome
  | .refresh services proposalId tenantId snapshot => do
    let _ ← refreshProposal py services proposalId tenantId snapshot
    return none
  | .register tenantId repo => do
    let _ ← Flow.ofStore (registerRepository py.kernel tenantId repo)
    return none

/-- Any number of calls over one store. -/
def workflowSystem (py : Interpreter) :
    System Call WorkflowOp WorkflowOp.Ans Raised (Option RunOutcome) Kernel.Database Drawn where
  program := Call.program py
  exec := WorkflowOp.exec py.kernel

/-! ### Reading a past -/

/-- An operation with its answer. -/
abbrev Answered := Entry WorkflowOp WorkflowOp.Ans Raised

variable (py : Interpreter)

/-- A report of the run was stored. -/
def Reported (past : Past) (runId : String) : Prop := ∃ row : ReportRow, row.runId = runId ∧
  (⟨.store (.write (writeReport row)), .ok ()⟩ : Answered) ∈ past

/-- A token was issued for the run. -/
def Issued (past : Past) (runId tenantId : String) : Prop := ∃ row : ApprovalRow,
  row.runId = runId ∧ row.tenantId = tenantId ∧ row.consumed = false ∧
    (⟨.store (.write (insertApproval row)), .ok ()⟩ : Answered) ∈ past

/-- A usage row of the run that says that its tokens were allowed. -/
def Allows (runId : String) (row : UsageRow) : Prop := ∃ usage : UsageRecord,
  usage.runId = runId ∧ usage.budgetDecision = "allowed" ∧
    ∃ encoded, safeJson py.kernel (.dict usage.dict) = .ok encoded ∧
      row = ⟨runId, usage.callId, encoded⟩

/-- An allowed usage of the run was stored, or found to be stored. -/
def Spent (past : Past) (runId : String) : Prop := ∃ row, Allows py runId row ∧
  ((⟨.store (.write (insertUsage row)), .ok ()⟩ : Answered) ∈ past ∨
    ∃ db : Kernel.Database, (⟨.store .look, .ok db⟩ : Answered) ∈ past ∧ row ∈ db.modelUsage.rows)

/-- The run was taken up from a checkpoint. -/
def Resumed (past : Past) (runId : String) : Prop :=
  ∃ tenantId saved, (⟨.checkpoint runId tenantId, .ok (some saved)⟩ : Answered) ∈ past

/-- The request's token was consumed for a plan. -/
structure Approved (request : Request) (runId : String) (patch : PatchCall) (past : Past) :
    Prop where
  mode : request.mode = "verify"
  consumed : ∃ token digest, request.approval = some token ∧
    planDigest py.kernel patch.plan = .ok digest ∧
    (⟨.store (.consumeApproval ⟨token.tokenId, runId, request.tenantId, "patch",
      request.repositorySnapshot, some digest⟩), .ok patch.approval⟩ : Answered) ∈ past

/-- A plan was patched and tested on the request's token. -/
def Verified (request : Request) (runId : String) (past : Past) : Prop :=
  ∃ patch simulation worker tested, Approved py request runId patch past ∧
    (⟨.apply patch, .ok simulation⟩ : Answered) ∈ past ∧ simulation.success = true ∧
    (⟨.test worker patch.plan, .ok tested⟩ : Answered) ∈ past ∧ tested.success = true

/-- What a run has done before it moves to a state that it has to earn. -/
structure Earns (request : Request) (past : Past) (args : Move) : Prop where
  tenantId : args.tenantId = request.tenantId
  gate : Spent py past args.runId ∨ Resumed past args.runId
  waiting : args.state = "waiting_approval" →
    request.mode = "verify" ∧ Issued past args.runId args.tenantId
  planOnly : args.state = "plan_only" → Reported past args.runId
  verified : args.state = "verified" →
    Reported past args.runId ∧ Verified py request args.runId past

/-- No model was asked. -/
def Unasked (past : Past) : Prop := ∀ e ∈ past, ∀ prompt context key,
  e.op ≠ .generate prompt context key

/-- What a new run has done before it asks the model: it has found no checkpoint and left
one, and has not asked the model. -/
structure Fresh (past : Past) (runId tenantId : String) : Prop where
  found : (⟨.checkpoint runId tenantId, .ok none⟩ : Answered) ∈ past
  left : ∃ node state, (⟨.store (.saveCheckpoint runId tenantId node state), .ok ()⟩ : Answered) ∈ past
  unasked : Unasked past

/-- What a call has done before an operation. -/
def Does (call : Call) (past : Past) : WorkflowOp → Prop
  | .store op => Statement op ∧ ∀ args, op = .transition args → args.state ∈ earned →
    ∃ services request, call = .run services request ∧ Earns py request past args
  | .apply patch => ∃ services request runId, call = .run services request ∧
    Approved py request runId patch past
  | .generate _ _ key => ∃ runId tenantId, key = runId ++ ":analyze" ∧ Fresh past runId tenantId
  | _ => True

variable {py} {call : Call} {past past' : Past} {request : Request} {runId tenantId : String}

/-- Plain operations need nothing. -/
theorem does_of_plain {op : WorkflowOp} (h : Plain op) : Does py call past op := by
  cases h with
  | piece h =>
    refine ⟨.piece h, ?_⟩
    rintro args rfl
    cases h
  | transition h =>
    refine ⟨.transition _, ?_⟩
    rintro args hargs hearned
    obtain rfl := StoreOp.transition.inj hargs
    exact absurd hearned h
  | createRun args => exact ⟨.createRun args, fun _ he => by cases he⟩
  | appendEvent r t event payload => exact ⟨.appendEvent r t event payload, fun _ he => by cases he⟩
  | saveCheckpoint r t node state => exact ⟨.saveCheckpoint r t node state, fun _ he => by cases he⟩
  | consumeApproval args => exact ⟨.consumeApproval args, fun _ he => by cases he⟩
  | _ => trivial

/-- Along plain operations no model is asked. -/
theorem Unasked.grows (h : Unasked past) (hgrows : Grows Plain past past') : Unasked past' := by
  intro e he prompt context key hop
  rcases hgrows.cases he with hplain | he
  · rw [hop] at hplain
    cases hplain
  · exact h e he prompt context key hop

theorem Reported.mono (h : Reported past runId) (hsub : past ⊆ past') : Reported past' runId := by
  obtain ⟨row, hrow, hmem⟩ := h
  exact ⟨row, hrow, hsub hmem⟩

theorem Issued.mono (h : Issued past runId tenantId) (hsub : past ⊆ past') :
    Issued past' runId tenantId := by
  obtain ⟨row, hrow, htenant, hfresh, hmem⟩ := h
  exact ⟨row, hrow, htenant, hfresh, hsub hmem⟩

theorem Spent.mono (h : Spent py past runId) (hsub : past ⊆ past') : Spent py past' runId := by
  obtain ⟨row, hallows, hmem | ⟨db, hmem, hrow⟩⟩ := h
  · exact ⟨row, hallows, Or.inl (hsub hmem)⟩
  · exact ⟨row, hallows, Or.inr ⟨db, hsub hmem, hrow⟩⟩

theorem Resumed.mono (h : Resumed past runId) (hsub : past ⊆ past') : Resumed past' runId := by
  obtain ⟨tenantId, saved, hmem⟩ := h
  exact ⟨tenantId, saved, hsub hmem⟩

theorem gate_mono (h : Spent py past runId ∨ Resumed past runId) (hsub : past ⊆ past') :
    Spent py past' runId ∨ Resumed past' runId := h.imp (·.mono hsub) (·.mono hsub)

theorem Approved.mono {patch : PatchCall} (h : Approved py request runId patch past)
    (hsub : past ⊆ past') : Approved py request runId patch past' := by
  obtain ⟨token, digest, htoken, hdigest, hmem⟩ := h.consumed
  exact ⟨h.mode, token, digest, htoken, hdigest, hsub hmem⟩

/-- A token is consumed for a plan, however the worker is called. -/
theorem Approved.same {patch patch' : PatchCall} (h : Approved py request runId patch past)
    (hplan : patch'.plan = patch.plan) (happroval : patch'.approval = patch.approval) :
    Approved py request runId patch' past := by
  obtain ⟨mode, consumed⟩ := h
  rw [← hplan, ← happroval] at consumed
  exact ⟨mode, consumed⟩

theorem Verified.mono (h : Verified py request runId past) (hsub : past ⊆ past') :
    Verified py request runId past' := by
  obtain ⟨patch, simulation, worker, tested, happroved, hpatched, hsuccess, htested, hpassed⟩ := h
  exact ⟨patch, simulation, worker, tested, happroved.mono hsub, hsub hpatched, hsuccess,
    hsub htested, hpassed⟩

theorem subset_of_grows {A : WorkflowOp → Prop} (h : Grows A past past') : past ⊆ past' :=
  fun _ he => h.mem he

/-! ### Rules -/

/-- Behind plain operations, and with a fact about the past wherever it returns. -/
def Leaves {α : Type} (past : Past) (F : Past → α → Prop) (past' : Past) (r : Except Raised α) :
    Prop := Grows Plain past past' ∧ ∀ a, r = .ok a → F past' a

theorem leaves_error {α : Type} {F : Past → α → Prop} {e : Raised} (h : Grows Plain past past') :
    Leaves past F past' (.error e) := ⟨h, fun _ ha => by cases ha⟩

theorem leaves_ok {α : Type} {F : Past → α → Prop} {a : α} (h : Grows Plain past past')
    (hF : F past' a) : Leaves past F past' (.ok a) := by
  refine ⟨h, ?_⟩
  intro b hb
  obtain rfl := Except.ok.inj hb
  exact hF

section Rules

variable {α β : Type} {Q : Past → Except Raised β → Prop} {N : Past → Except Raised β → Prop}

/-- Plain operations come first. -/
theorem trail_plain_bind {p : Flow α} {next : α → Flow β} (h : p.Asks Plain)
    (hnext : ∀ past' a, Grows Plain past past' → (next a).Trail (Does py call) Q past')
    (herror : ∀ past' e, Grows Plain past past' → Q past' (.error e)) :
    (p >>= next).Trail (Does py call) Q past :=
  (h.trail fun _ _ _ => does_of_plain).bind (fun past' a => hnext past' a)
    fun past' e => herror past' e

/-- Plain operations alone. -/
theorem trail_plain {p : Flow β} (h : p.Asks Plain)
    (hend : ∀ past' r, Grows Plain past past' → Q past' r) : p.Trail (Does py call) Q past :=
  (h.trail fun _ _ _ => does_of_plain).mono (fun _ _ hP => hP) hend

/-- One operation alone. -/
theorem trail_flow_perform {op : WorkflowOp} (h : Does py call past op) :
    (Flow.perform op).Trail (Does py call) (fun past' r => past' = ⟨op, r⟩ :: past) past :=
  ⟨h, fun _ => rfl⟩

/-- Plain statements come first. -/
theorem Body.trail_plain_bind {m : Body α} {f : α → Body β} (h : m.Asks Plain)
    (hnext : ∀ past' a, Grows Plain past past' → (f a).Trail (Does py call) N past')
    (herror : ∀ past' e, Grows Plain past past' → N past' (.error e)) :
    (m >>= f).Trail (Does py call) N past :=
  (h.trail fun _ _ _ => does_of_plain).bind (fun past' a => hnext past' a)
    fun past' e => herror past' e

/-- Plain statements alone. -/
theorem Body.trail_plain {m : Body β} (h : m.Asks Plain)
    (hend : ∀ past' r, Grows Plain past past' → N past' r) : m.Trail (Does py call) N past :=
  (h.trail fun _ _ _ => does_of_plain).mono hend

/-- Pieces of a program of the store come first. -/
theorem trail_pieces_bind {p : Store α} {f : α → Store β} (h : p.Asks Piece)
    (hnext : ∀ past' a, Grows Plain past past' →
      (Flow.ofStore (f a)).Trail (Does py call) Q past')
    (herror : ∀ past' e, Grows Plain past past' → Q past' (.error e)) :
    (Flow.ofStore (p >>= f)).Trail (Does py call) Q past := by
  rw [Flow.ofStore_bind]
  exact AgentOrchestrator.trail_plain_bind (asks_ofStore h) hnext herror

/-- A read of the database, then the rest. -/
theorem trail_look_bind {f : Kernel.Database → Store β}
    (hnext : ∀ db, (Flow.ofStore (f db)).Trail (Does py call) Q (⟨.store .look, .ok db⟩ :: past))
    (herror : ∀ e, Q (⟨.store .look, .error e⟩ :: past) (.error e)) :
    (Flow.ofStore (Store.look >>= f)).Trail (Does py call) Q past := by
  rw [Flow.ofStore_bind]
  refine ⟨does_of_plain (.piece .look), ?_⟩
  intro r
  cases r with
  | ok db => exact hnext db
  | error e => exact herror e

/-- A value of a program of the store, then the rest. -/
theorem trail_except_bind {x : Except Raised α} {f : α → Store β}
    (hnext : ∀ a, x = .ok a → (Flow.ofStore (f a)).Trail (Does py call) Q past)
    (herror : ∀ e, x = .error e → Q past (.error e)) :
    (Flow.ofStore (Store.ofExcept x >>= f)).Trail (Does py call) Q past := by
  cases x with
  | ok a => exact hnext a rfl
  | error e => exact herror e rfl

/-- A write of a program of the store, then the rest. -/
theorem trail_write_bind {statement : Kernel.Database → Except Raised Kernel.Database}
    {f : Unit → Store β} (h : Piece (.write statement))
    (hnext : (Flow.ofStore (f ())).Trail (Does py call) Q
      (⟨.store (.write statement), .ok ()⟩ :: past))
    (herror : ∀ e, Q (⟨.store (.write statement), .error e⟩ :: past) (.error e)) :
    (Flow.ofStore (Store.write statement >>= f)).Trail (Does py call) Q past := by
  rw [Flow.ofStore_bind]
  refine ⟨does_of_plain (.piece h), ?_⟩
  intro r
  cases r with
  | ok u => exact hnext
  | error e => exact herror e

end Rules

/-! ### The methods of the store -/

section Store

/-- **A report that is saved** was stored. -/
theorem saveReport_trail (report : ReleaseReport) (tenantId : String) (stale : Bool) :
    (Flow.ofStore (saveReport py.kernel report tenantId stale)).Trail (Does py call)
      (Leaves past fun past' _ => Reported past' report.runId) past := by
  unfold saveReport
  generalize safeJson py.kernel (.dict report.payload) = encoded?
  refine trail_pieces_bind (p := Store.look) (Prog.asks_perform Piece.look)
    (fun past₁ db hlook => ?_) fun past' e => leaves_error
  refine trail_except_bind (fun run _ => ?_) fun e _ => leaves_error hlook
  refine trail_except_bind (fun encoded _ => ?_) fun e _ => leaves_error hlook
  refine trail_pieces_bind (p := Store.now) (Prog.asks_perform Piece.now)
    (fun past₂ stamp hnow => ?_) fun past' e h => leaves_error (hlook.trans h)
  have hreport := Plain.piece (.report ⟨report.runId, tenantId, encoded, stamp⟩)
  have h := hlook.trans hnow
  refine trail_write_bind (.report ⟨report.runId, tenantId, encoded, stamp⟩) ?_
    fun e => leaves_error (h.cons hreport _)
  refine trail_plain (asks_ofStore ?_) fun past' r hrest =>
    ⟨(h.cons hreport _).trans hrest, fun u _ => ⟨_, rfl, hrest.mem List.mem_cons_self⟩⟩
  -- what is behind the report's own row
  refine asks_look_bind .look fun db => ?_
  split
  · refine Prog.Asks.ite (fun _ => ?_) fun _ => .done _
    refine asks_now_bind .now fun createdAt => asks_now_bind .now fun updatedAt => ?_
    exact asks_write (.aside (unwatched_replaceVerification _))
  · exact .done _

/-- **A token that is issued** was stored. -/
theorem issueApproval_trail (args : Issue) :
    (Flow.ofStore (issueApproval args)).Trail (Does py call)
      (Leaves past fun past' _ => Issued past' args.runId args.tenantId) past := by
  unfold issueApproval
  refine trail_pieces_bind (p := Store.look) (Prog.asks_perform Piece.look)
    (fun past₁ db hlook => ?_) fun past' e => leaves_error
  refine trail_except_bind (fun run _ => ?_) fun e _ => leaves_error hlook
  split
  · exact leaves_error hlook
  refine trail_pieces_bind (p := Store.uuid) (Prog.asks_perform Piece.uuid)
    (fun past₂ fresh hfresh => ?_) fun past' e h => leaves_error (hlook.trans h)
  refine trail_pieces_bind (p := Store.now) (Prog.asks_perform Piece.now)
    (fun past₃ issuedAt hnow => ?_) fun past' e h => leaves_error (hlook.trans (hfresh.trans h))
  have h := hlook.trans (hfresh.trans hnow)
  have htoken := Plain.piece (.approval (args.row run db fresh issuedAt))
  refine trail_write_bind (.approval _) ?_ fun e => leaves_error (h.cons htoken _)
  refine trail_plain (asks_ofStore ((asks_linkApproval_pieces _).bind fun _ => .done _))
    fun past' r hrest => ⟨(h.cons htoken _).trans hrest, fun u _ => ?_⟩
  exact ⟨_, rfl, rfl, rfl, hrest.mem List.mem_cons_self⟩

/-- **Usage that is recorded** was stored, or is found to be stored. -/
theorem recordUsage_trail (usage : UsageRecord) (tenantId : Option String) :
    (Flow.ofStore (recordUsage py.kernel usage tenantId)).Trail (Does py call)
      (Leaves past fun past' _ => usage.budgetDecision = "allowed" → Spent py past' usage.runId)
      past := by
  unfold recordUsage
  generalize hencoded : safeJson py.kernel (.dict usage.dict) = encoded?
  refine trail_pieces_bind (p := Store.look) (Prog.asks_perform Piece.look)
    (fun past₁ db hlook => ?_) fun past' e => leaves_error
  refine trail_except_bind (fun tenant _ => ?_) fun e _ => leaves_error hlook
  refine trail_except_bind (fun _ _ => ?_) fun e _ => leaves_error hlook
  refine trail_except_bind (fun encoded hok => ?_) fun e _ => leaves_error hlook
  have hrow : usage.budgetDecision = "allowed" → Allows py usage.runId ⟨usage.runId, usage.callId, encoded⟩ :=
    fun hallowed => ⟨usage, rfl, hallowed, encoded, hencoded.trans hok, rfl⟩
  have husage := Plain.piece (.usage ⟨usage.runId, usage.callId, encoded⟩)
  rw [Flow.ofStore_bind]
  refine ⟨does_of_plain husage, ?_⟩
  intro r
  cases r with
  | ok u =>
    exact leaves_ok (hlook.cons husage _) fun hallowed =>
      ⟨_, hrow hallowed, Or.inl List.mem_cons_self⟩
  | error e =>
    -- the row is there already, or the call id is taken
    change Prog.Trail _ _ _ (Flow.ofStore (if e.kind = .integrityError then _ else _))
    split
    · have h := hlook.cons husage (.error e)
      refine trail_look_bind (fun db' => ?_) fun e' => leaves_error (h.cons (.piece .look) _)
      dsimp only
      split
      · next hexisting =>
        refine leaves_ok (h.cons (.piece .look) _) fun hallowed => ?_
        obtain ⟨row, hfound, hpayload⟩ := Option.map_eq_some_iff.mp hexisting
        obtain ⟨hmem, hkey⟩ := Table.find?_eq_some.mp hfound
        obtain ⟨hrun, hcall⟩ := Prod.mk.inj hkey
        refine ⟨row, ?_, Or.inr ⟨db', List.mem_cons_self, hmem⟩⟩
        have heq : row = ⟨usage.runId, usage.callId, encoded⟩ := by
          cases row
          simp only at hrun hcall hpayload
          rw [hrun, hcall, hpayload]
        rw [heq]
        exact hrow hallowed
      · exact leaves_error (h.cons (.piece .look) _)
    · exact leaves_error (hlook.cons husage _)

end Store

/-! ### The methods of the workflow -/

/-- The job of a run that was called with a mode it knows. -/
structure Carries (call : Call) (services : Services) (job : Job) : Prop where
  call_eq : call = .run services job.request
  tenantId : job.key.tenantId = job.request.tenantId
  mode : job.request.mode = "plan_only" ∨ job.request.mode = "verify"

section Runs

variable {services : Services} {job : Job} {found : Analysis} {plan : ProjectPacks.Plan}

/-- A run moves to a state that it has earned. -/
theorem move_trail (hjob : Carries call services job) {state : String} {payload : Mapping}
    {error : Option String}
    (hearns : Earns py job.request past ⟨job.key.runId, job.key.tenantId, state, some payload, error⟩) :
    (move job.key state payload error).Trail (Does py call) (fun _ _ => True) past := by
  refine ⟨⟨.transition _, ?_⟩, fun _ => trivial⟩
  rintro args hargs -
  obtain rfl := StoreOp.transition.inj hargs
  exact ⟨services, job.request, hjob.call_eq, hearns⟩

theorem finishPlanOnly_trail (hjob : Carries call services job)
    (hgate : Spent py past job.key.runId ∨ Resumed past job.key.runId) {values : Mapping}
    {reason : Option String} :
    (finishPlanOnly py services job.key found plan values reason).Trail (Does py call)
      (fun _ _ => True) past := by
  unfold finishPlanOnly
  refine trail_plain_bind asks_usageOf (fun past₁ usage h₁ => ?_) fun _ _ _ => trivial
  refine (saveReport_trail _ _ _).bind (fun past₂ u h₂ => ?_) fun _ _ _ => trivial
  have hreported := h₂.2 u rfl
  refine trail_plain_bind (asks_saveNode _) (fun past₃ _ h₃ => ?_) fun _ _ _ => trivial
  refine trail_plain_bind (asks_persistReview _ _) (fun past₄ _ h₄ => ?_) fun _ _ _ => trivial
  have hgrows := h₃.trans h₄
  refine (move_trail hjob ⟨hjob.tenantId, ?_, ?_, ?_, ?_⟩).bind (fun past₅ run _ => ?_)
    fun _ _ _ => trivial
  · exact gate_mono hgate (subset_of_grows ((h₁.trans h₂.1).trans hgrows))
  · simp
  · exact fun _ => hreported.mono (subset_of_grows hgrows)
  · simp
  · exact trail_plain ((asks_saveOutputsFor _).bind fun _ => asks_outcomePayload _ _)
      fun _ _ _ => trivial

/-- A run waits for an approval that was issued for it. -/
theorem askApproval_trail (hjob : Carries call services job) (hmode : job.request.mode = "verify")
    (hgate : Spent py past job.key.runId ∨ Resumed past job.key.runId) :
    (askApproval py services job found plan).Trail (Does py call) (fun _ _ => True) past := by
  unfold askApproval
  refine Body.trail_plain_bind (Body.asks_lift (asks_read _)) (fun past₁ existing h₁ => ?_)
    fun _ _ _ => trivial
  refine Body.trail_plain_bind (Body.asks_lift (asks_awaits _)) (fun past₂ waiting h₂ => ?_)
    fun _ _ _ => trivial
  refine Body.Trail.ite (fun _ => ?_) fun _ => ?_
  · exact Body.trail_plain ((Body.asks_lift (asks_read _)).bind fun run =>
      Body.asks_lift (asks_outcomePayload _ _)) fun _ _ _ => trivial
  refine Body.trail_plain_bind asks_outputsHere (fun past₃ _ h₃ => ?_) fun _ _ _ => trivial
  refine Body.trail_plain_bind (Body.asks_lift (asks_flow_perform .deadline))
    (fun past₄ expiresAt h₄ => ?_) fun _ _ _ => trivial
  refine Body.trail_ofExcept_bind (fun digest _ => ?_) fun _ _ => trivial
  refine (Body.trail_lift (issueApproval_trail _)).bind (fun past₅ token h₅ => ?_)
    fun _ _ _ => trivial
  have hissued := h₅.2 token rfl
  refine Body.trail_update_bind ?_
  refine Body.trail_plain_bind (asks_checkpointHere _) (fun past₆ _ h₆ => ?_) fun _ _ _ => trivial
  refine (Body.trail_reading fun values => move_trail hjob
    ⟨hjob.tenantId, ?_, fun _ => ⟨hmode, ?_⟩, ?_, ?_⟩).bind (fun past₇ run _ => ?_) fun _ _ _ => trivial
  · exact gate_mono hgate (subset_of_grows
      (h₁.trans (h₂.trans (h₃.trans (h₄.trans (h₅.1.trans h₆))))))
  · exact hissued.mono (subset_of_grows h₆)
  · simp
  · simp
  · exact Body.trail_plain (asks_outputsHere.bind fun _ => Body.asks_lift (asks_outcomePayload _ _))
      fun _ _ _ => trivial

/-- A worker that was handed a plan on a token, until the patch succeeds. -/
theorem applyPatch_trail {services' : Services} {patch : PatchCall}
    (hcall : call = .run services' request) (happroved : Approved py request runId patch past) :
    (applyPatch patch).Trail (Does py call) (fun past' r => past ⊆ past' ∧ ∀ simulation,
      r = .ok simulation → ∃ patch' : PatchCall, patch'.plan = patch.plan ∧
        patch'.approval = patch.approval ∧
        (⟨.apply patch', .ok simulation⟩ : Answered) ∈ past') past := by
  unfold applyPatch
  refine Prog.trail_attempt_bind.mpr ⟨⟨services', request, runId, hcall, happroved⟩, ?_⟩
  intro r
  have hsub := List.subset_cons_self (⟨.apply patch, r⟩ : Answered) past
  cases r with
  | ok simulation =>
    refine ⟨hsub, ?_⟩
    intro simulation' h
    obtain rfl := Except.ok.inj h
    exact ⟨patch, rfl, rfl, List.mem_cons_self⟩
  | error e =>
    refine Prog.Trail.ite (fun _ => ?_) fun _ => ⟨hsub, fun _ h => by cases h⟩
    -- the worker does not know the repository's arguments
    have hagain : Approved py request runId { patch with bound := false, snapshot := none }
        (⟨.apply patch, .error e⟩ :: past) := (happroved.mono hsub).same rfl rfl
    refine ⟨⟨services', request, runId, hcall, hagain⟩, fun r => ⟨?_, ?_⟩⟩
    · exact List.Subset.trans hsub (List.subset_cons_self _ _)
    · rintro simulation rfl
      exact ⟨{ patch with bound := false, snapshot := none }, rfl, rfl, List.mem_cons_self⟩

theorem patchTwice_trail {services' : Services} {patch : PatchCall}
    (hcall : call = .run services' request) (happroved : Approved py request runId patch past) :
    (patchTwice patch).Trail (Does py call) (fun past' r => past ⊆ past' ∧ ∀ simulation,
      r = .ok simulation → ∃ patch' : PatchCall, patch'.plan = patch.plan ∧
        patch'.approval = patch.approval ∧
        (⟨.apply patch', .ok simulation⟩ : Answered) ∈ past') past := by
  unfold patchTwice
  refine (applyPatch_trail hcall happroved).bind (fun past₁ simulation h => ?_)
    fun past₁ e h => ⟨h.1, fun _ hok => by cases hok⟩
  refine Prog.Trail.ite (fun _ => ?_) fun _ => ?_
  · exact h
  · have hretry : Approved py request runId { patch with retry := true } past₁ :=
      (happroved.mono h.1).same rfl rfl
    refine (applyPatch_trail hcall hretry).mono (fun _ _ hP => hP) fun past₂ r hagain => ?_
    exact ⟨List.Subset.trans h.1 hagain.1, hagain.2⟩

/-- **A plan that is released** was patched and tested on its token. -/
theorem release_trail (hjob : Carries call services job)
    (hgate : Spent py past job.key.runId ∨ Resumed past job.key.runId)
    (hverified : Verified py job.request job.key.runId past) {consumed : ApprovalToken}
    {worker : Worker} {diff : Mapping} {simulation tested : Simulation} {packaged : Packaged} :
    (release py services job found plan consumed worker diff simulation tested packaged).Trail
      (Does py call) (fun _ _ => True) past := by
  unfold release
  refine Body.trail_plain_bind (Body.asks_lift asks_usageOf) (fun past₁ usage h₁ => ?_)
    fun _ _ _ => trivial
  refine Body.trail_plain_bind (Body.asks_lift (asks_read _)) (fun past₂ run h₂ => ?_)
    fun _ _ _ => trivial
  refine (Body.trail_lift (saveReport_trail _ _ _)).bind (fun past₃ u h₃ => ?_) fun _ _ _ => trivial
  have hreported := h₃.2 u rfl
  refine Body.trail_plain_bind (asks_checkpointHere _) (fun past₄ _ h₄ => ?_) fun _ _ _ => trivial
  refine Body.trail_ofExcept_bind (fun diffDigest _ => ?_) fun _ _ => trivial
  refine Body.trail_plain_bind (Body.asks_lift (asks_recordPart _ _ _ _ _)) (fun past₅ _ h₅ => ?_)
    fun _ _ _ => trivial
  refine Body.trail_ofExcept_bind (fun testDigest _ => ?_) fun _ _ => trivial
  refine Body.trail_plain_bind (Body.asks_lift (asks_recordPart _ _ _ _ _)) (fun past₆ _ h₆ => ?_)
    fun _ _ _ => trivial
  refine Body.trail_ofExcept_bind (fun digest _ => ?_) fun _ _ => trivial
  refine Body.trail_plain_bind (asks_eventHere _ _) (fun past₇ _ h₇ => ?_) fun _ _ _ => trivial
  have hafter := h₄.trans (h₅.trans (h₆.trans h₇))
  have hall := subset_of_grows (h₁.trans (h₂.trans (h₃.1.trans hafter)))
  refine (Body.trail_lift (move_trail hjob ⟨hjob.tenantId, gate_mono hgate hall, ?_, ?_, ?_⟩)).bind
    (fun past₈ run _ => ?_) fun _ _ _ => trivial
  · simp
  · simp
  · exact fun _ => ⟨hreported.mono (subset_of_grows hafter), hverified.mono hall⟩
  · refine Body.trail_plain (asks_outputsHere.bind fun _ => ?_) fun _ _ _ => trivial
    exact (Body.asks_lift (asks_flow_perform (.close _))).bind fun _ =>
      Body.asks_lift (asks_outcomePayload _ _)

/-- **What happens behind a consumed token**: the plan that is patched, tested and released
is the one the token was consumed for. -/
theorem patch_trail (hjob : Carries call services job) {consumed : ApprovalToken}
    (hgate : Spent py past job.key.runId ∨ Resumed past job.key.runId)
    (happroved : ∀ worker retry bound snapshot, Approved py job.request job.key.runId
      ⟨worker, plan, consumed, retry, bound, snapshot⟩ past) :
    (patch py services job found plan consumed).Trail (Does py call) (fun _ _ => True) past := by
  unfold patch
  refine Body.trail_plain_bind (asks_eventHere _ _) (fun past₁ _ h₁ => ?_) fun _ _ _ => trivial
  refine Body.trail_plain_bind (Body.asks_lift (asks_move (by decide) _ _)) (fun past₂ _ h₂ => ?_)
    fun _ _ _ => trivial
  refine Body.trail_plain_bind (asks_checkpointHere _) (fun past₃ _ h₃ => ?_) fun _ _ _ => trivial
  have hsub := subset_of_grows (h₁.trans (h₂.trans h₃))
  refine (Body.trail_lift (patchTwice_trail hjob.call_eq ((happroved _ _ _ _).mono hsub))).bind
    (fun past₄ simulation h₄ => ?_) fun _ _ _ => trivial
  obtain ⟨hmore, hpatched⟩ := h₄
  obtain ⟨patch', hplan, htoken, hpatched⟩ := hpatched simulation rfl
  have hfailed : ∀ (past : Past) (reason : String),
      (failClosing py services job found (workerOf services job found) reason).Trail (Does py call)
        (fun _ _ => True) past :=
    fun past reason => Body.trail_plain (asks_failClosing _ _) fun _ _ _ => trivial
  refine Body.Trail.ite (fun hsuccess => ?_) fun _ => hfailed _ _
  refine Body.trail_plain_bind (asks_checkpointHere _) (fun past₅ _ h₅ => ?_) fun _ _ _ => trivial
  have htest : Does py call past₅ (.test (workerOf services job found) plan) := trivial
  refine (Body.trail_lift (trail_flow_perform htest)).bind (fun past₆ tested h₆ => ?_)
    fun _ _ _ => trivial
  subst h₆
  refine Body.Trail.ite (fun hpassed => ?_) fun _ => hfailed _ _
  -- from here on the plan is verified
  have hnow : past₄ ⊆ ⟨.test (workerOf services job found) plan, .ok tested⟩ :: past₅ :=
    List.subset_cons_of_subset _ (subset_of_grows h₅)
  have happroved' : Approved py job.request job.key.runId patch' past₄ := by
    obtain ⟨worker, plan', consumed', retry, bound, snapshot⟩ := patch'
    obtain rfl : plan' = plan := hplan
    obtain rfl : consumed' = consumed := htoken
    exact (happroved worker retry bound snapshot).mono (List.Subset.trans hsub hmore)
  have hverified : Verified py job.request job.key.runId
      (⟨.test (workerOf services job found) plan, .ok tested⟩ :: past₅) := by
    refine ⟨patch', simulation, workerOf services job found, tested, happroved'.mono hnow,
      hnow hpatched, hsuccess, ?_, hpassed⟩
    rw [hplan]
    exact List.mem_cons_self
  refine Body.trail_plain_bind (asks_checkpointHere _) (fun past₇ _ h₇ => ?_) fun _ _ _ => trivial
  refine Body.trail_plain_bind (Body.asks_lift (asks_package _ _ _).attempt)
    (fun past₈ packaged h₈ => ?_) fun _ _ _ => trivial
  have hlater := subset_of_grows (h₇.trans h₈)
  cases packaged with
  | ok packaged =>
    refine release_trail hjob (gate_mono hgate ?_) (hverified.mono hlater)
    exact List.Subset.trans (List.Subset.trans hsub hmore) (List.Subset.trans hnow hlater)
  | error e =>
    refine Body.Trail.ite (fun _ => hfailed _ _) fun _ => ?_
    exact Body.trail_plain (Body.asks_ofExcept _) fun _ _ _ => trivial

theorem useApproval_trail (hjob : Carries call services job) (hmode : job.request.mode = "verify")
    (hgate : Spent py past job.key.runId ∨ Resumed past job.key.runId) {approval : ApprovalToken}
    (happroval : job.request.approval = some approval) :
    (useApproval py services job found plan approval).Trail (Does py call) (fun _ _ => True) past := by
  unfold useApproval
  refine Body.trail_ofExcept_bind (fun digest hdigest => ?_) fun _ _ => trivial
  have hconsumes : Does py call past (.store (.consumeApproval ⟨approval.tokenId, job.key.runId,
    job.key.tenantId, "patch", job.request.repositorySnapshot, some digest⟩)) :=
    does_of_plain (.consumeApproval _)
  refine (Body.trail_lift ((trail_flow_perform hconsumes).attempt (M := fun past' r => ∀ r', r = .ok r' →
    past' = ⟨_, r'⟩ :: past) fun past' r h r' hr => ?_)).bind (fun past₁ consumed h₁ => ?_)
    fun _ _ _ => trivial
  · obtain rfl := Except.ok.inj hr
    exact h
  obtain rfl := h₁ consumed rfl
  cases consumed with
  | ok consumed =>
    refine patch_trail hjob (gate_mono hgate (List.subset_cons_self _ _)) ?_
    intro worker retry bound snapshot
    refine ⟨hmode, approval, digest, happroval, hdigest, ?_⟩
    rw [hjob.tenantId]
    exact List.mem_cons_self
  | error e =>
    refine Body.Trail.ite (fun _ => ?_) fun _ => ?_
    · exact Body.trail_plain (Body.asks_reading fun _ => asks_finishRejected _) fun _ _ _ => trivial
    · exact Body.trail_plain (Body.asks_ofExcept _) fun _ _ _ => trivial

theorem verify_trail (hjob : Carries call services job) (hmode : job.request.mode = "verify")
    (hgate : Spent py past job.key.runId ∨ Resumed past job.key.runId) :
    (verify py services job found plan).Trail (Does py call) (fun _ _ => True) past := by
  unfold verify
  refine Body.trail_plain_bind (Body.asks_lift (asks_flow_perform (.checkpoint _ _)))
    (fun past₁ _ h₁ => ?_) fun _ _ _ => trivial
  refine Body.trail_plain_bind (Body.asks_lift asks_staleProposal) (fun past₂ stale h₂ => ?_)
    fun _ _ _ => trivial
  have hgate' := gate_mono hgate (subset_of_grows (h₁.trans h₂))
  refine Body.Trail.ite (fun _ => Body.trail_plain (asks_failHere _) fun _ _ _ => trivial) fun _ => ?_
  cases happroval : job.request.approval with
  | none => exact askApproval_trail hjob hmode hgate'
  | some approval => exact useApproval_trail hjob hmode hgate' happroval

theorem review_trail (hjob : Carries call services job)
    (hgate : Spent py past job.key.runId ∨ Resumed past job.key.runId) :
    (review py services job found plan).Trail (Does py call) (fun _ _ => True) past := by
  have hplanOnly : ∀ (found : Analysis) (reason : Option String),
      (planOnlyHere py services job found plan reason).Trail (Does py call) (fun _ _ => True) past :=
    fun found reason => Body.trail_reading fun _ => finishPlanOnly_trail hjob hgate
  unfold review
  refine Body.Trail.ite (fun _ => hplanOnly _ _) fun _ => Body.Trail.ite (fun _ => ?_) fun _ => ?_
  · refine Body.Trail.ite (fun _ => ?_) fun _ => hplanOnly _ _
    exact Body.trail_plain (asks_failHere _) fun _ _ _ => trivial
  · refine Body.Trail.ite (fun _ => hplanOnly _ _) fun hmode => verify_trail hjob ?_ hgate
    exact hjob.mode.resolve_left fun h => hmode (Or.inl h)

end Runs

/-! ### Analysis and runs -/

section Analysis

variable {services : Services} {job : Job} {found : Analysis}

/-- Something is left in the past, and plain statements follow. -/
theorem Body.trail_leaves_bind {α β : Type} {m : Body α} {f : α → Body β} {F : Past → Prop}
    (hmono : ∀ {past past' : Past}, past ⊆ past' → F past → F past')
    (h : m.Trail (Does py call) (Leaves past fun past' _ => F past') past)
    (hf : ∀ a, (f a).Asks Plain) :
    (m >>= f).Trail (Does py call) (Leaves past fun past' _ => F past') past := by
  refine h.bind (fun past₁ a h₁ => ?_) fun past₁ e h₁ => leaves_error h₁.1
  refine Body.trail_plain (hf a) fun past₂ r h₂ => ⟨h₁.1.trans h₂, fun b _ => ?_⟩
  exact hmono (subset_of_grows h₂) (h₁.2 a rfl)

/-- A checkpoint of the run was left. -/
def Left (runId tenantId : String) (past : Past) : Prop :=
  ∃ node state, (⟨.store (.saveCheckpoint runId tenantId node state), .ok ()⟩ : Answered) ∈ past

theorem Left.mono (hsub : past ⊆ past') (h : Left runId tenantId past) : Left runId tenantId past' := by
  obtain ⟨node, state, hmem⟩ := h
  exact ⟨node, state, hsub hmem⟩

theorem saveNode_trail (node : String) (values : Mapping) :
    (saveNode py services job.key node values).Trail (Does py call)
      (Leaves past fun past' _ => Left job.key.runId job.key.tenantId past') past := by
  have hplain := Plain.saveCheckpoint job.key.runId job.key.tenantId node values
  refine Prog.trail_perform_bind.mpr ⟨does_of_plain hplain, fun e => ?_, fun u => ?_⟩
  · exact leaves_error ((grows_refl _).cons hplain _)
  · have hgrows := (grows_refl (A := Plain) past).cons hplain (.ok u)
    refine trail_plain (Prog.Asks.ite (fun _ => asks_flow_perform (.graph _ _ _)) fun _ => .done _)
      fun past' r h => ⟨hgrows.trans h, fun _ _ => ⟨node, values, h.mem List.mem_cons_self⟩⟩

/-- **The intake leaves a checkpoint.** -/
theorem intake_trail : (intake py services job).Trail (Does py call)
    (Leaves past fun past' _ => Left job.key.runId job.key.tenantId past') past := by
  have henter : (enter py services job "intake" []).Trail (Does py call)
      (Leaves past fun past' _ => Left job.key.runId job.key.tenantId past') past :=
    Body.trail_leaves_bind Left.mono (Body.trail_reading fun _ => saveNode_trail _ _)
      fun _ => asks_eventHere _ _
  refine Body.trail_leaves_bind Left.mono henter fun _ => (asks_enter _ _).bind fun _ => ?_
  refine (Body.asks_ofExcept _).bind fun parsed => (Body.asks_update _).bind fun _ => ?_
  refine (asks_enter _ _).bind fun _ => ?_
  refine (Body.asks_lift (asks_flow_perform .checkout)).bind fun checkout => ?_
  refine (Body.asks_ofExcept _).bind fun evidence => (Body.asks_update _).bind fun _ => ?_
  exact (asks_checkpointHere _).bind fun _ => Body.asks_pure _

/-- A decision that allows says so. -/
theorem status_of_allowed {l : TokenBudgetLedger} {c : Reservation} {d : BudgetDecision}
    (h : (l.reserve c).1 = .ok d) (hallowed : d.allowed = true) : d.status = .allowed := by
  -- every guard that answers refuses
  have hrefused : ∀ {l : TokenBudgetLedger} {status : BudgetStatus} {reason : String},
      (l.decision false status reason).1 = .ok d → d.status = .allowed := by
    intro l status reason h
    obtain rfl := Except.ok.inj h
    cases hallowed
  unfold TokenBudgetLedger.reserve at h
  split at h
  · cases h
  · repeat' split at h
    all_goals first
      | exact hrefused h
      | (obtain rfl := Except.ok.inj h
         rfl)

theorem statusText_of_allowed {policy : BudgetPolicy} {quotaLimit : Option ℤ} {input output : ℤ}
    {decision : BudgetDecision} (h : reserveFirst policy quotaLimit input output = .ok decision)
    (hallowed : decision.allowed = true) : statusText decision.status = "allowed" := by
  unfold reserveFirst ofLedger at h
  cases hreserve : ((TokenBudgetLedger.new policy quotaLimit).reserve ⟨1, input, output, false⟩).1 with
  | error e =>
    rw [hreserve] at h
    cases h
  | ok d =>
    rw [hreserve] at h
    obtain rfl := Except.ok.inj h
    rw [status_of_allowed hreserve hallowed]
    rfl

/-- **Tokens that are allowed are recorded.** -/
theorem spend_trail {policy : BudgetPolicy} {inputTokens outputTokens : ℤ} {estimated : Bool}
    {lookup : CacheLookup} :
    (spend py job policy inputTokens outputTokens estimated lookup found).Trail (Does py call)
      (Leaves past fun past' x => x.1.allowed = true → Spent py past' job.key.runId) past := by
  unfold spend
  refine Body.trail_ofExcept_bind (fun decision hdecision => ?_) fun _ _ => leaves_error (grows_refl _)
  refine Body.trail_ofExcept_bind (fun usage husage => ?_) fun _ _ => leaves_error (grows_refl _)
  refine (Body.trail_lift (recordUsage_trail _ _)).bind (fun past₁ u h₁ => ?_)
    fun past₁ e h₁ => leaves_error h₁.1
  refine Body.trail_pure (leaves_ok h₁.1 fun hallowed => ?_)
  have hspent := h₁.2 u rfl
  unfold analyzeUsage at husage
  split at husage
  · obtain rfl := Except.ok.inj husage
    exact hspent (statusText_of_allowed hdecision hallowed)
  · cases husage

/-- **A new run asks the model once**, and is reviewed only if its tokens were allowed. -/
theorem analyze_trail {policy : BudgetPolicy} {review : Analysis → ProjectPacks.Plan → Body RunOutcome}
    (hfound : (⟨.checkpoint job.key.runId job.key.tenantId, .ok none⟩ : Answered) ∈ past)
    (hunasked : Unasked past)
    (hreview : ∀ past' found plan, Spent py past' job.key.runId →
      (review found plan).Trail (Does py call) (fun _ _ => True) past') :
    (analyze py services job policy review).Trail (Does py call) (fun _ _ => True) past := by
  unfold analyze
  refine intake_trail.bind (fun past₁ found h₁ => ?_) fun _ _ _ => trivial
  have hleft := h₁.2 found rfl
  refine Body.trail_plain_bind asks_retrieve (fun past₂ lookup h₂ => ?_) fun _ _ _ => trivial
  refine Body.trail_ofExcept_bind (fun prompt _ => ?_) fun _ _ => trivial
  refine Body.Trail.ite (fun _ => ?_) fun _ => ?_
  · refine spend_trail.bind (fun past₃ spent _ => ?_) fun _ _ _ => trivial
    exact Body.trail_plain (asks_stopHere _) fun _ _ _ => trivial
  have hgrows := h₁.1.trans h₂
  have hask : Does py call past₂ (.generate prompt (redact py.kernel lookup.value)
      (job.key.runId ++ ":analyze")) :=
    ⟨job.key.runId, job.key.tenantId, rfl, hgrows.mem hfound, hleft.mono (subset_of_grows h₂),
      hunasked.grows hgrows⟩
  refine (Body.trail_lift (trail_flow_perform hask)).bind (fun past₃ result _ => ?_)
    fun _ _ _ => trivial
  refine spend_trail.bind (fun past₄ spent h₄ => ?_) fun _ _ _ => trivial
  have hspent := h₄.2 spent rfl
  refine Body.trail_plain_bind (asks_eventHere _ _) (fun past₅ _ h₅ => ?_) fun _ _ _ => trivial
  refine Body.Trail.ite (fun hallowed => ?_) fun _ => ?_
  · refine Body.trail_plain_bind asks_draft (fun past₆ plan h₆ => ?_) fun _ _ _ => trivial
    exact hreview _ _ _ ((hspent hallowed).mono (subset_of_grows (h₅.trans h₆)))
  · exact Body.trail_plain (asks_stopHere _) fun _ _ _ => trivial

theorem reanalyze_trail {review : Analysis → ProjectPacks.Plan → Body RunOutcome}
    (hresumed : Resumed past job.key.runId)
    (hreview : ∀ past' found plan, Resumed past' job.key.runId →
      (review found plan).Trail (Does py call) (fun _ _ => True) past') :
    (reanalyze py services job review).Trail (Does py call) (fun _ _ => True) past := by
  unfold reanalyze
  refine Body.trail_ofExcept_bind (fun parsed _ => ?_) fun _ _ => trivial
  refine Body.trail_plain_bind (Body.asks_lift (asks_flow_perform .checkout))
    (fun past₁ checkout h₁ => ?_) fun _ _ _ => trivial
  refine Body.trail_ofExcept_bind (fun evidence _ => ?_) fun _ _ => trivial
  refine Body.trail_plain_bind (Body.asks_lift (asks_flow_perform .checkout))
    (fun past₂ checkout' h₂ => ?_) fun _ _ _ => trivial
  refine Body.trail_ofExcept_bind (fun plan _ => ?_) fun _ _ => trivial
  refine Body.trail_update_bind ?_
  exact hreview _ _ _ (hresumed.mono (subset_of_grows (h₁.trans h₂)))

/-- The `try` of a run, from what the run has read of its checkpoint. -/
theorem attempted_trail (hjob : Carries call services job) {policy : BudgetPolicy}
    {saved : Option (String × JsonText.Value)}
    (hsaved : (⟨.checkpoint job.key.runId job.key.tenantId, .ok saved⟩ : Answered) ∈ past)
    (hunasked : Unasked past) :
    (attempted py services job policy saved.isSome).Trail (Does py call) (fun _ _ => True) past := by
  cases saved with
  | none =>
    exact analyze_trail hsaved hunasked fun past' found plan hspent => review_trail hjob (Or.inl hspent)
  | some saved =>
    exact reanalyze_trail ⟨_, _, hsaved⟩ fun past' found plan hresumed =>
      review_trail hjob (Or.inr hresumed)

/-- **What a run does** that is not settled, from what it has read of its checkpoint. -/
theorem work_trail (hjob : Carries call services job) {run : RunLifecycle}
    {saved : Option (String × JsonText.Value)}
    (hsaved : (⟨.checkpoint job.key.runId job.key.tenantId, .ok saved⟩ : Answered) ∈ past)
    (hunasked : Unasked past) :
    (work py services job run saved).Trail (Does py call) (fun _ _ => True) past := by
  unfold work
  refine trail_plain_bind (asks_flow_ofExcept _) (fun past₁ policy h₁ => ?_) fun _ _ _ => trivial
  have hrest : ∀ past', Grows Plain past past' → Prog.Trail (Does py call) (fun _ _ => True) past'
      (do
        let resumed ← Flow.ofExcept (resumedValues saved)
        let r ← attempted py services job policy saved.isSome (firstValues job ++ resumed)
        handled py services job.key r) := by
    intro past' h
    refine trail_plain_bind (asks_flow_ofExcept _) (fun past₂ resumed h₂ => ?_) fun _ _ _ => trivial
    have hgrows := h.trans h₂
    refine (attempted_trail hjob (hgrows.mem hsaved) (hunasked.grows hgrows) _).bind
      (fun past₃ r _ => ?_) fun _ _ _ => trivial
    exact trail_plain (asks_handled _) fun _ _ _ => trivial
  dsimp only
  split
  · refine trail_plain_bind (asks_move (by decide) _ _) (fun past₂ _ h₂ => ?_) fun _ _ _ => trivial
    exact hrest past₂ (h₁.trans h₂)
  · exact hrest past₁ h₁

theorem unasked_of_grows (h : Grows Plain [] past) : Unasked past :=
  Unasked.grows (fun _ he => absurd he List.not_mem_nil) h

theorem runGuarded_trail (hcall : call = .run services request) (runId : String)
    (traceId : Option String) (hgrows : Grows Plain [] past) :
    (runGuarded py services request runId traceId).Trail (Does py call) (fun _ _ => True) past := by
  unfold runGuarded
  refine Prog.Trail.ite (fun _ => trivial) fun hmode => ?_
  refine trail_plain_bind (asks_proposalFor _) (fun past₁ proposalId h₁ => ?_) fun _ _ _ => trivial
  refine trail_plain_bind (asks_flow_perform (.createRun _)) (fun past₂ run h₂ => ?_)
    fun _ _ _ => trivial
  refine trail_plain_bind (asks_linkTrace _) (fun past₃ _ h₃ => ?_) fun _ _ _ => trivial
  refine trail_plain_bind (asks_refreshed _) (fun past₄ run' h₄ => ?_) fun _ _ _ => trivial
  have hbefore := hgrows.trans (h₁.trans (h₂.trans (h₃.trans h₄)))
  have hplain := Plain.checkpoint run.runId request.tenantId
  refine (trail_flow_perform (does_of_plain hplain)).bind (fun past₅ saved h₅ => ?_)
    fun _ _ _ => trivial
  subst h₅
  refine Prog.Trail.ite (fun _ => trail_plain (asks_outcome _ _) fun _ _ _ => trivial) fun _ => ?_
  refine work_trail ⟨hcall, rfl, ?_⟩ List.mem_cons_self (unasked_of_grows (hbefore.cons hplain _))
  by_contra hknown
  exact hmode ⟨fun h => hknown (Or.inl h), fun h => hknown (Or.inr h)⟩

theorem run_trail (hcall : call = .run services request) :
    (run py services request).Trail (Does py call) (fun _ _ => True) [] := by
  unfold run
  refine trail_plain_bind (asks_runIdFor _) (fun past₁ runId h₁ => ?_) fun _ _ _ => trivial
  refine trail_plain_bind (asks_startedTrace _ _) (fun past₂ traceId h₂ => ?_) fun _ _ _ => trivial
  refine ((runGuarded_trail hcall runId traceId (h₁.trans h₂)).attempt
    (M := fun _ _ => True) fun _ _ _ => trivial).bind (fun past₃ r _ => ?_) fun _ _ _ => trivial
  cases r with
  | ok outcome =>
    exact trail_plain ((asks_finishedTrace _ _ _).bind fun _ => .done _) fun _ _ _ => trivial
  | error e =>
    exact trail_plain ((asks_finishedTrace _ _ _).bind fun _ => .done _) fun _ _ _ => trivial

/-- **Every call does what it should**, whatever it is answered. -/
theorem program_trail (call : Call) :
    (call.program py).Trail (Does py call) (fun _ _ => True) [] := by
  cases call with
  | run services request =>
    exact (run_trail rfl).bind (fun _ _ _ => trivial) fun _ _ _ => trivial
  | refresh services proposalId tenantId snapshot =>
    exact trail_plain ((asks_refreshProposal _ _ _).bind fun _ => .done _) fun _ _ _ => trivial
  | register tenantId repo =>
    exact trail_plain ((asks_ofStore (asks_registerRepository_pieces _ _)).bind fun _ => .done _)
      fun _ _ _ => trivial

end Analysis

end AiSaas.AgentOrchestrator
