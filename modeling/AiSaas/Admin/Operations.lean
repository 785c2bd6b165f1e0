import AiSaas.Identity.Boundary

/-!
# Administrative operations

`AdminOperations` of `services/admin_operations/service.py` over
`InMemoryEntitlements`, `InMemoryCreditLedger` and `AuditLog`.  A method writes the
plans or balances, the audit log and its idempotency record one after the other, and
what it wrote before it raises stays written.

## Main definitions

* `AdminState` — the plans, balances, results and events.
* `AdminOperations.changePlan`, `adjustCredits` — the operations that write.
* `AdminCall`, `AdminSession` — calls and what a run of them has made.

## Main results

* `AdminOperations.mutate_cases` — everything a call can do.
-/

namespace AiSaas

open Transaction

/-! ### Records -/

/-- What `_snapshot` returns. -/
structure Snapshot where
  tenantId : String
  userId : String
  status : String
  plan : String
  creditBalance : ℤ
  deriving DecidableEq, Repr

/-- `AuditEvent`. -/
structure AuditEvent where
  eventId : String
  occurredAt : ℤ
  actorUserId : String
  actorTenantId : String
  action : String
  targetType : String
  targetId : String
  reason : String
  before : Snapshot
  after : Snapshot
  source : String
  correlationId : String
  deriving DecidableEq, Repr

/-- `AdminOperationResult`. -/
structure AdminOperationResult where
  action : String
  targetUserId : String
  before : Snapshot
  after : Snapshot
  auditEventId : String
  deriving DecidableEq, Repr

/-- The entitlements, the credit ledger, the audit log and the stored results. -/
structure AdminState where
  plans : Dict String
  transitionCalls : List (String × String × String)
  balances : Dict ℤ
  adjustmentCalls : List (String × ℤ × String)
  events : List AuditEvent
  results : AList fun _ : String × String => AdminOperationResult

/-- What an operation draws: the time, and `uuid.uuid4().hex`. -/
structure AdminDraw where
  now : ℤ
  uuid : String

/-- What every operation is passed. -/
structure AdminRequest where
  actor : RequestContext
  tenantId : String
  targetUserId : String
  reason : String
  source : String
  correlationId : String
  idempotencyKey : Option String

/-- `_reason`; what is no text is as good as a blank one. -/
def normalizedReason (value : String) : Except Denied String := do
  ensure (!blank value) (.reasonRequired "a non-empty reason is required")
  ensure (decide ((strip value).length ≤ 500)) (.reasonRequired "reason is too long")
  return strip value

namespace AdminState

/-- `current_plan`. -/
def currentPlan (s : AdminState) (userId : String) : String := (s.plans.lookup userId).getD "free"

/-- `current_balance`. -/
def currentBalance (s : AdminState) (userId : String) : ℤ := (s.balances.lookup userId).getD 0

/-- `transition_plan`. -/
def transitionPlan (userId plan reason : String) : Tx Denied AdminState Unit := fun s => do
  ensure (decide (plan ∈ ["free", "pro", "team", "enterprise"])) (.valueError "unsupported plan")
  return ((), { s with
    transitionCalls := s.transitionCalls ++ [(userId, plan, reason)]
    plans := s.plans.insert userId plan })

/-- `adjust_credits`; an amount that is no integer, or is a `bool`, is none. -/
def adjustCredits (userId : String) (amount : Option ℤ) (reason : String) :
    Tx Denied AdminState Unit := fun s => do
  let amount ← orRaise (amount.filter (· ≠ 0))
    (.valueError "credit adjustment must be a non-zero integer")
  return ((), { s with
    adjustmentCalls := s.adjustmentCalls ++ [(userId, amount, reason)]
    balances := s.balances.insert userId (s.currentBalance userId + amount) })

/-- `AuditLog.append`; a snapshot is never empty. -/
def appendEvent (event : AuditEvent) : Tx Denied AdminState Unit := fun s => do
  ensure (decide (event.eventId ∉ s.events.map AuditEvent.eventId))
    (.valueError "audit event id already exists")
  ensure (!blank event.reason) (.valueError "audit event is incomplete")
  return ((), { s with events := s.events ++ [event] })

/-- Nothing was written, with the plans and balances there are. -/
def new (plans : Dict String) (balances : Dict ℤ) : AdminState := ⟨plans, [], balances, [], [], ∅⟩

end AdminState

/-! ### Operations -/

/-- A method that keeps what it wrote when it raises. -/
abbrev AdminM := ExceptT Denied (StateM AdminState)

namespace AdminM

variable {α β : Type}

/-- The outcome of a method and the state it leaves. -/
def call (x : AdminM α) (s : AdminState) : Except Denied α × AdminState := x.run.run s

/-- A method of another object, which writes at its end. -/
def atomic (body : Tx Denied AdminState α) : AdminM α := ExceptT.mk (atomically body)

/-- A method of another object, which only reads. -/
def reads (f : AdminState → Except Denied α) : AdminM α := ExceptT.mk fun s => (f s, s)

theorem call_bind (x : AdminM α) (f : α → AdminM β) (s : AdminState) :
    (x >>= f).call s = match x.call s with
      | (.ok a, s') => (f a).call s'
      | (.error e, s') => (.error e, s') := by
  unfold call ExceptT.run StateT.run
  simp only [bind, ExceptT.bind, ExceptT.mk, StateT.bind]
  cases x s with
  | mk r s' => cases r <;> rfl

@[simp] theorem call_pure (a : α) (s : AdminState) : (pure a : AdminM α).call s = (.ok a, s) := rfl

@[simp] theorem call_atomic (body : Tx Denied AdminState α) (s : AdminState) :
    (atomic body).call s = atomically body s := rfl

@[simp] theorem call_reads (f : AdminState → Except Denied α) (s : AdminState) :
    (reads f).call s = (f s, s) := rfl

end AdminM

namespace AdminOperations

variable (identity : Boundary)

/-- `_target`. -/
def target (actor : RequestContext) (tenantId targetUserId permission : String) :
    Except Denied Unit := do
  let _ ← identity.requireAdmin actor tenantId permission
  let memberships ← identity.membershipsForTenant tenantId
  ensure (memberships.any fun m => decide (m.userId = targetUserId))
    (.authorizationDenied "target access denied")

/-- `_snapshot`. -/
def snapshot (tenantId userId : String) (s : AdminState) : Except Denied Snapshot := do
  let user ← identity.user userId
  return ⟨tenantId, user.userId, user.status, s.currentPlan userId, s.currentBalance userId⟩

/-- `if idempotency_key` and its record. -/
def replay? (action : String) (key : Option String) (s : AdminState) : Option AdminOperationResult :=
  (key.filter (· ≠ "")).bind fun key => s.results.lookup (action, key)

/-- `self._idempotent_results[(action, idempotency_key)] = result`. -/
def storeResult (action : String) (key : Option String) (result : AdminOperationResult)
    (s : AdminState) : AdminState :=
  match key.filter (· ≠ "") with
  | none => s
  | some key => { s with results := s.results.insert (action, key) result }

/-- The event of a call. -/
def auditEvent (action : String) (request : AdminRequest) (reason : String) (before after : Snapshot)
    (d : AdminDraw) : AuditEvent :=
  ⟨"audit-" ++ d.uuid, d.now, request.actor.userId, request.tenantId, action, "user",
    request.targetUserId, reason, before, after, request.source, request.correlationId⟩

/-- The result of a call. -/
def operationResult (action : String) (request : AdminRequest) (before after : Snapshot)
    (d : AdminDraw) : AdminOperationResult :=
  ⟨action, request.targetUserId, before, after, "audit-" ++ d.uuid⟩

/-- `_result`. -/
def result (action : String) (request : AdminRequest) (reason : String) (before after : Snapshot)
    (d : AdminDraw) : AdminM AdminOperationResult := do
  .atomic (AdminState.appendEvent (auditEvent action request reason before after d))
  let result := operationResult action request before after d
  modify (storeResult action request.idempotencyKey result)
  return result

/-- What the methods share: `write` is the call of the entitlements or of the ledger. -/
def mutate (action permission : String) (request : AdminRequest)
    (write : String → Tx Denied AdminState Unit) (d : AdminDraw) : AdminM AdminOperationResult := do
  .reads fun _ => target identity request.actor request.tenantId request.targetUserId permission
  let reason ← .reads fun _ => normalizedReason request.reason
  let replayed ← .reads fun s => .ok (replay? action request.idempotencyKey s)
  match replayed with
  | some result => return result
  | none =>
    let before ← .reads (snapshot identity request.tenantId request.targetUserId)
    .atomic (write reason)
    let after ← .reads (snapshot identity request.tenantId request.targetUserId)
    result action request reason before after d

/-- `change_plan`. -/
def changePlan (request : AdminRequest) (plan : String) (d : AdminDraw) :
    AdminM AdminOperationResult :=
  mutate identity "plan.change" "admin.plans.write" request
    (AdminState.transitionPlan request.targetUserId plan) d

/-- `adjust_credits`. -/
def adjustCredits (request : AdminRequest) (amount : Option ℤ) (d : AdminDraw) :
    AdminM AdminOperationResult :=
  mutate identity "credits.adjust" "admin.credits.write" request
    (AdminState.adjustCredits request.targetUserId amount) d

/-! ### What a call can do -/

variable {identity}

/-- The state of a call that has written and is recorded. -/
def recorded (action : String) (request : AdminRequest) (reason : String) (before after : Snapshot)
    (d : AdminDraw) (s : AdminState) : AdminState :=
  storeResult action request.idempotencyKey (operationResult action request before after d)
    { s with events := s.events ++ [auditEvent action request reason before after d] }

/-- The outcomes of a call and the states it leaves. -/
inductive Mutated (identity : Boundary) (action permission : String) (request : AdminRequest)
    (write : String → Tx Denied AdminState Unit) (d : AdminDraw) (s : AdminState) :
    Except Denied AdminOperationResult × AdminState → Prop
  | refused (e : Denied) : Mutated identity action permission request write d s (.error e, s)
  | replayed {result : AdminOperationResult}
      (allowed : target identity request.actor request.tenantId request.targetUserId permission = .ok ())
      (reasoned : (normalizedReason request.reason).isOk = true)
      (found : replay? action request.idempotencyKey s = some result) :
      Mutated identity action permission request write d s (.ok result, s)
  | performed {reason : String} {before after : Snapshot} {s' : AdminState}
      (allowed : target identity request.actor request.tenantId request.targetUserId permission = .ok ())
      (unused : replay? action request.idempotencyKey s = none)
      (hbefore : snapshot identity request.tenantId request.targetUserId s = .ok before)
      (written : write reason s = .ok ((), s'))
      (hafter : snapshot identity request.tenantId request.targetUserId s' = .ok after)
      (fresh : "audit-" ++ d.uuid ∉ s'.events.map AuditEvent.eventId) :
      Mutated identity action permission request write d s
        (.ok (operationResult action request before after d),
          recorded action request reason before after d s')
  | unrecorded {reason : String} {s' : AdminState} (e : Denied)
      (written : write reason s = .ok ((), s'))
      (taken : "audit-" ++ d.uuid ∈ s'.events.map AuditEvent.eventId) :
      Mutated identity action permission request write d s (.error e, s')

theorem snapshot_eq_ok {tenantId userId : String} {s : AdminState} {taken : Snapshot} :
    snapshot identity tenantId userId s = .ok taken ↔ ∃ user, identity.users.lookup userId = some user ∧
      taken = ⟨tenantId, user.userId, user.status, s.currentPlan userId, s.currentBalance userId⟩ := by
  simp only [snapshot, Boundary.user, bind_eq_ok, orRaise_eq_ok]
  constructor
  · rintro ⟨user, huser, h⟩
    exact ⟨user, huser, (Except.ok.inj h).symm⟩
  · rintro ⟨user, huser, rfl⟩
    exact ⟨user, huser, rfl⟩

theorem normalizedReason_eq_ok {value reason : String} (h : normalizedReason value = .ok reason) :
    blank reason = false := by
  simp only [normalizedReason, bind_eq_ok, ensure_eq_ok, Bool.not_eq_true'] at h
  obtain ⟨-, hblank, -, -, h⟩ := h
  obtain rfl := Except.ok.inj h
  rw [blank_strip, hblank]

theorem result_call {action reason : String} {request : AdminRequest} {before after : Snapshot}
    {d : AdminDraw} {s : AdminState} (hreason : blank reason = false) :
    (result action request reason before after d).call s =
      if "audit-" ++ d.uuid ∈ s.events.map AuditEvent.eventId then
        (.error (.valueError "audit event id already exists"), s)
      else (.ok (operationResult action request before after d),
        recorded action request reason before after d s) := by
  unfold result
  rw [AdminM.call_bind, AdminM.call_atomic]
  split_ifs with htaken
  · have happend : AdminState.appendEvent (auditEvent action request reason before after d) s
        = .error (.valueError "audit event id already exists") := by
      simp only [AdminState.appendEvent, auditEvent, htaken, not_true_eq_false, decide_false, ensure]
      rfl
    rw [atomically_of_error happend]
  · have happend : AdminState.appendEvent (auditEvent action request reason before after d) s
        = .ok ((), { s with events := s.events ++
          [auditEvent action request reason before after d] }) := by
      simp only [AdminState.appendEvent, auditEvent, htaken, not_false_eq_true, decide_true, ensure,
        hreason]
      rfl
    rw [atomically_of_ok happend]
    rfl

/-- **What a call can do.**  It is refused, returns a stored result, or writes; what it
wrote stays unrecorded where its event's id is taken. -/
theorem mutate_cases (action permission : String) (request : AdminRequest)
    (write : String → Tx Denied AdminState Unit) (d : AdminDraw) (s : AdminState) :
    Mutated identity action permission request write d s
      ((mutate identity action permission request write d).call s) := by
  unfold mutate
  rw [AdminM.call_bind, AdminM.call_reads]
  cases hallowed : target identity request.actor request.tenantId request.targetUserId permission with
  | error e => exact .refused e
  | ok _ =>
    change Mutated _ _ _ _ _ _ _ (AdminM.call (_ >>= _) s)
    rw [AdminM.call_bind, AdminM.call_reads]
    cases hreason : normalizedReason request.reason with
    | error e => exact .refused e
    | ok reason =>
      change Mutated _ _ _ _ _ _ _ (AdminM.call (_ >>= _) s)
      rw [AdminM.call_bind, AdminM.call_reads]
      cases hreplay : replay? action request.idempotencyKey s with
      | some result => exact .replayed hallowed (hreason ▸ rfl) hreplay
      | none =>
        change Mutated _ _ _ _ _ _ _ (AdminM.call (_ >>= _) s)
        rw [AdminM.call_bind, AdminM.call_reads]
        cases hbefore : snapshot identity request.tenantId request.targetUserId s with
        | error e => exact .refused e
        | ok before =>
          change Mutated _ _ _ _ _ _ _ (AdminM.call (_ >>= _) s)
          rw [AdminM.call_bind, AdminM.call_atomic]
          rcases atomically_cases (write reason) s with ⟨_, s', hwrite, heq⟩ | ⟨e, -, heq⟩
          · rw [heq]
            change Mutated _ _ _ _ _ _ _ (AdminM.call (_ >>= _) s')
            rw [AdminM.call_bind, AdminM.call_reads]
            -- the user is as much there as before
            obtain ⟨user, huser, -⟩ := snapshot_eq_ok.mp hbefore
            obtain ⟨after, hafter⟩ : ∃ after, snapshot identity request.tenantId request.targetUserId s'
                = .ok after := ⟨_, snapshot_eq_ok.mpr ⟨user, huser, rfl⟩⟩
            rw [hafter]
            change Mutated _ _ _ _ _ _ _ (AdminM.call (result _ _ _ _ _ _) s')
            rw [result_call (normalizedReason_eq_ok hreason)]
            split_ifs with htaken
            · exact .unrecorded _ hwrite htaken
            · exact .performed hallowed hreplay hbefore hwrite hafter htaken
          · rw [heq]
            exact .refused e

/-- A call that is allowed, has a reason, and finds a result under its key returns it. -/
theorem mutate_replayed {action permission : String} {request : AdminRequest}
    {write : String → Tx Denied AdminState Unit} {d : AdminDraw} {s : AdminState}
    {result : AdminOperationResult}
    (allowed : target identity request.actor request.tenantId request.targetUserId permission = .ok ())
    (reasoned : (normalizedReason request.reason).isOk = true)
    (found : replay? action request.idempotencyKey s = some result) :
    (mutate identity action permission request write d).call s = (.ok result, s) := by
  cases hreason : normalizedReason request.reason with
  | error e => rw [hreason] at reasoned; cases reasoned
  | ok reason =>
    unfold mutate
    rw [AdminM.call_bind, AdminM.call_reads, allowed]
    change AdminM.call (_ >>= _) s = _
    rw [AdminM.call_bind, AdminM.call_reads, hreason]
    change AdminM.call (_ >>= _) s = _
    rw [AdminM.call_bind, AdminM.call_reads, found]
    rfl

end AdminOperations

/-! ### Calls -/

/-- A call of an operation that writes. -/
inductive AdminCall where
  | changePlan (request : AdminRequest) (plan : String)
  | adjustCredits (request : AdminRequest) (amount : Option ℤ)

namespace AdminCall

/-- What the call is passed besides its new value. -/
def request : AdminCall → AdminRequest
  | changePlan request _ | adjustCredits request _ => request

/-- The action of the call's event and of its idempotency record. -/
def action : AdminCall → String
  | changePlan _ _ => "plan.change"
  | adjustCredits _ _ => "credits.adjust"

/-- The permission the call needs. -/
def permission : AdminCall → String
  | changePlan _ _ => "admin.plans.write"
  | adjustCredits _ _ => "admin.credits.write"

/-- What the call writes, for a reason. -/
def write : AdminCall → String → Tx Denied AdminState Unit
  | changePlan request plan => AdminState.transitionPlan request.targetUserId plan
  | adjustCredits request amount => AdminState.adjustCredits request.targetUserId amount

/-- The program of a call. -/
def program (identity : Boundary) (d : AdminDraw) : AdminCall → AdminM AdminOperationResult
  | changePlan request plan => AdminOperations.changePlan identity request plan d
  | adjustCredits request amount => AdminOperations.adjustCredits identity request amount d

/-- Two calls ask for the same: the tenant, the target user and the new value agree. -/
def SameRequest (c c' : AdminCall) : Prop :=
  c.request.tenantId = c'.request.tenantId ∧ c.request.targetUserId = c'.request.targetUserId ∧
    match c, c' with
    | changePlan _ plan, changePlan _ plan' => plan = plan'
    | adjustCredits _ amount, adjustCredits _ amount' => amount = amount'
    | _, _ => False

/-- A result is about the call's tenant, target user and new value. -/
def Records (c : AdminCall) (result : AdminOperationResult) : Prop :=
  result.targetUserId = c.request.targetUserId ∧ result.before.tenantId = c.request.tenantId ∧
    result.after.tenantId = c.request.tenantId ∧
    match c with
    | changePlan _ plan => result.after.plan = plan
    | adjustCredits _ amount => amount = some (result.after.creditBalance - result.before.creditBalance)

theorem program_cases (identity : Boundary) (c : AdminCall) (d : AdminDraw) (s : AdminState) :
    AdminOperations.Mutated identity c.action c.permission c.request c.write d s
      ((c.program identity d).call s) := by
  cases c with
  | changePlan => exact AdminOperations.mutate_cases ..
  | adjustCredits => exact AdminOperations.mutate_cases ..

open AdminOperations in
theorem program_replayed {identity : Boundary} {c : AdminCall} {d : AdminDraw} {s : AdminState}
    {result : AdminOperationResult}
    (allowed : target identity c.request.actor c.request.tenantId c.request.targetUserId c.permission
      = .ok ())
    (reasoned : (normalizedReason c.request.reason).isOk = true)
    (found : replay? c.action c.request.idempotencyKey s = some result) :
    (c.program identity d).call s = (.ok result, s) := by
  cases c with
  | changePlan => exact mutate_replayed allowed reasoned found
  | adjustCredits => exact mutate_replayed allowed reasoned found

end AdminCall

/-- One call, the boundary as it is then, and what the call draws. -/
structure AdminStep where
  call : AdminCall
  identity : Boundary
  draw : AdminDraw

/-- A call that was made. -/
structure AdminMade where
  call : AdminCall
  identity : Boundary
  before : AdminState
  outcome : Except Denied AdminOperationResult
  after : AdminState

/-- The state, and the calls made so far, newest first. -/
structure AdminSession where
  state : AdminState
  made : List AdminMade

namespace AdminSession

/-- Nothing was called, with the plans and balances there are. -/
def new (plans : Dict String) (balances : Dict ℤ) : AdminSession := ⟨.new plans balances, []⟩

/-- The next call. -/
def run (session : AdminSession) (step : AdminStep) : AdminMade :=
  let ran := (step.call.program step.identity step.draw).call session.state
  ⟨step.call, step.identity, session.state, ran.1, ran.2⟩

/-- The session after the next call. -/
def make (session : AdminSession) (step : AdminStep) : AdminSession :=
  ⟨(session.run step).after, session.run step :: session.made⟩

end AdminSession

end AiSaas
