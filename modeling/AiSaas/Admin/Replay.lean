import AiSaas.Admin.Operations
import AiSaas.Lib.Runs

/-!
# Replays of administrative calls

A result is stored under the action and the caller's idempotency key alone, so a call
that reuses a key is answered with it whatever tenant, target user and new value it is
about.

## Main definitions

* `AdminMade.TookEffect` — the call's own change took effect.
* `AdminMade.Scoped` — a successful call took effect, or repeats one that asked for the same.
* `AdminStep.Unmixed` — the result stored under the call's key is about what it asks for.

## Main results

* `replay_scoped_iff` — the calls of a run are scoped exactly when none mixes its key up.
-/

namespace AiSaas

open Transaction

/-! ### Scoped calls -/

/-- The call's change was written, and its result tells it. -/
structure AdminMade.TookEffect (m : AdminMade) (result : AdminOperationResult) : Prop where
  returned : m.outcome = .ok result
  records : m.call.Records result
  written : match m.call with
    | .changePlan request plan => m.after.currentPlan request.targetUserId = plan ∧
      ∃ reason, m.after.transitionCalls
        = m.before.transitionCalls ++ [(request.targetUserId, plan, reason)]
    | .adjustCredits request amount => ∃ n, amount = some n ∧
      m.after.currentBalance request.targetUserId
        = m.before.currentBalance request.targetUserId + n ∧
      ∃ reason, m.after.adjustmentCalls
        = m.before.adjustmentCalls ++ [(request.targetUserId, n, reason)]

/-- A call that succeeds was allowed, its result is about its tenant and target user, and its
change took effect, or an earlier call's did that used the key for the same. -/
def AdminMade.Scoped (earlier : List AdminMade) (m : AdminMade) : Prop :=
  ∀ result, m.outcome = .ok result →
    AdminOperations.target m.identity m.call.request.actor m.call.request.tenantId
        m.call.request.targetUserId m.call.permission = .ok () ∧
      m.call.Records result ∧
      (m.TookEffect result ∨ ∃ m₀ ∈ earlier, m₀.TookEffect result ∧
        m₀.call.action = m.call.action ∧
        m₀.call.request.idempotencyKey = m.call.request.idempotencyKey ∧ m₀.call.SameRequest m.call)

/-- Where the call is allowed, has a reason, and its key was used before: the stored result
is about the call's tenant, target user and new value. -/
def AdminStep.Unmixed (s : AdminState) (step : AdminStep) : Prop :=
  AdminOperations.target step.identity step.call.request.actor step.call.request.tenantId
      step.call.request.targetUserId step.call.permission = .ok () →
    (normalizedReason step.call.request.reason).isOk = true →
    ∀ result, AdminOperations.replay? step.call.action step.call.request.idempotencyKey s = some result →
      step.call.Records result

/-! ### What the stored results are -/

namespace AdminCall

variable {c c' : AdminCall} {result : AdminOperationResult} {reason : String} {s s' : AdminState}

theorem Records.same (h : c.Records result) (h' : c'.Records result) (haction : c.action = c'.action) :
    c.SameRequest c' := by
  obtain ⟨htarget, htenant, -, hvalue⟩ := h
  obtain ⟨htarget', htenant', -, hvalue'⟩ := h'
  refine ⟨htenant.symm.trans htenant', htarget.symm.trans htarget', ?_⟩
  cases c with
  | changePlan request plan =>
    cases c' with
    | changePlan request' plan' => exact hvalue.symm.trans hvalue'
    | adjustCredits => exact absurd haction (show "plan.change" ≠ "credits.adjust" by decide)
  | adjustCredits request amount =>
    cases c' with
    | changePlan => exact absurd haction (show "credits.adjust" ≠ "plan.change" by decide)
    | adjustCredits request' amount' => exact hvalue.trans hvalue'.symm

theorem SameRequest.records (h : c.SameRequest c') (hrecords : c.Records result) :
    c'.Records result := by
  obtain ⟨htenant, htarget, hvalue⟩ := h
  obtain ⟨htarget', hbefore, hafter, hrecorded⟩ := hrecords
  refine ⟨htarget'.trans htarget, hbefore.trans htenant, hafter.trans htenant, ?_⟩
  cases c with
  | changePlan request plan =>
    cases c' with
    | changePlan request' plan' => exact hrecorded.trans hvalue
    | adjustCredits => exact hvalue.elim
  | adjustCredits request amount =>
    cases c' with
    | changePlan => exact hvalue.elim
    | adjustCredits request' amount' => exact hvalue.symm.trans hrecorded

/-- What a call writes. -/
theorem write_eq_ok (h : c.write reason s = .ok ((), s')) :
    (∃ request plan, c = changePlan request plan ∧ s' = { s with
      transitionCalls := s.transitionCalls ++ [(request.targetUserId, plan, reason)]
      plans := s.plans.insert request.targetUserId plan }) ∨
    ∃ request n, c = adjustCredits request (some n) ∧ s' = { s with
      adjustmentCalls := s.adjustmentCalls ++ [(request.targetUserId, n, reason)]
      balances := s.balances.insert request.targetUserId
        (s.currentBalance request.targetUserId + n) } := by
  cases c with
  | changePlan request plan =>
    simp only [write, AdminState.transitionPlan, bind_eq_ok] at h
    obtain ⟨-, -, h⟩ := h
    exact .inl ⟨request, plan, rfl, (Prod.mk.inj (Except.ok.inj h)).2.symm⟩
  | adjustCredits request amount =>
    simp only [write, AdminState.adjustCredits, bind_eq_ok, orRaise_eq_ok, Option.filter_eq_some_iff] at h
    obtain ⟨n, ⟨rfl, -⟩, h⟩ := h
    exact .inr ⟨request, n, rfl, (Prod.mk.inj (Except.ok.inj h)).2.symm⟩

end AdminCall

namespace AdminOperations

variable {action reason : String} {request : AdminRequest} {before after : Snapshot} {d : AdminDraw}
  {s : AdminState}

@[simp] theorem recorded_plans :
    (recorded action request reason before after d s).plans = s.plans := by
  unfold recorded storeResult
  split <;> rfl

@[simp] theorem recorded_transitionCalls :
    (recorded action request reason before after d s).transitionCalls = s.transitionCalls := by
  unfold recorded storeResult
  split <;> rfl

@[simp] theorem recorded_balances :
    (recorded action request reason before after d s).balances = s.balances := by
  unfold recorded storeResult
  split <;> rfl

@[simp] theorem recorded_adjustmentCalls :
    (recorded action request reason before after d s).adjustmentCalls = s.adjustmentCalls := by
  unfold recorded storeResult
  split <;> rfl

@[simp] theorem recorded_events : (recorded action request reason before after d s).events
    = s.events ++ [auditEvent action request reason before after d] := by
  unfold recorded storeResult
  split <;> rfl

@[simp] theorem recorded_currentPlan (userId : String) :
    (recorded action request reason before after d s).currentPlan userId = s.currentPlan userId := by
  simp [AdminState.currentPlan]

@[simp] theorem recorded_currentBalance (userId : String) :
    (recorded action request reason before after d s).currentBalance userId
      = s.currentBalance userId := by
  simp [AdminState.currentBalance]

/-- A recorded call's result is stored under its key, and the others stay. -/
theorem lookup_recorded {key : String × String} {result : AdminOperationResult}
    (h : (recorded action request reason before after d s).results.lookup key = some result) :
    s.results.lookup key = some result ∨
      (key.1 = action ∧ request.idempotencyKey.filter (· ≠ "") = some key.2 ∧
        result = operationResult action request before after d) := by
  unfold recorded storeResult at h
  split at h
  · exact .inl h
  · next hkey =>
    by_cases heq : key = (action, ‹String›)
    · subst heq
      exact .inr ⟨rfl, hkey, (Option.some.inj ((AList.lookup_insert _).symm.trans h)).symm⟩
    · exact .inl ((AList.lookup_insert_ne heq).symm.trans h)

/-- The key a call's result is found under. -/
theorem replay?_eq_some {key : Option String} {result : AdminOperationResult}
    (h : replay? action key s = some result) : ∃ text, key.filter (· ≠ "") = some text ∧
      s.results.lookup (action, text) = some result := Option.bind_eq_some_iff.mp h

end AdminOperations

open AdminOperations in
/-- **A call that writes takes effect.** -/
theorem AdminCall.took_effect {c : AdminCall} {identity : Boundary} {reason : String}
    {before after : Snapshot} {d : AdminDraw} {s s' : AdminState}
    (hbefore : snapshot identity c.request.tenantId c.request.targetUserId s = .ok before)
    (written : c.write reason s = .ok ((), s'))
    (hafter : snapshot identity c.request.tenantId c.request.targetUserId s' = .ok after) :
    AdminMade.TookEffect ⟨c, identity, s, .ok (operationResult c.action c.request before after d),
      recorded c.action c.request reason before after d s'⟩
      (operationResult c.action c.request before after d) := by
  obtain ⟨user, -, rfl⟩ := snapshot_eq_ok.mp hbefore
  obtain ⟨user', -, rfl⟩ := snapshot_eq_ok.mp hafter
  rcases AdminCall.write_eq_ok written with ⟨request, plan, rfl, rfl⟩ | ⟨request, n, rfl, rfl⟩
  · have hplan : ((s.plans.insert request.targetUserId plan).lookup request.targetUserId).getD "free"
        = plan := by
      rw [AList.lookup_insert]
      rfl
    refine ⟨rfl, ⟨rfl, rfl, rfl, hplan⟩, ?_, reason, ?_⟩
    · simp [AdminState.currentPlan]
    · exact recorded_transitionCalls
  · have hbalance : ((s.balances.insert request.targetUserId
        (s.currentBalance request.targetUserId + n)).lookup request.targetUserId).getD 0
        = s.currentBalance request.targetUserId + n := by
      rw [AList.lookup_insert]
      rfl
    refine ⟨rfl, ⟨rfl, rfl, rfl, ?_⟩, n, rfl, ?_, reason, ?_⟩
    · change some n = some (((s.balances.insert request.targetUserId
        (s.currentBalance request.targetUserId + n)).lookup request.targetUserId).getD 0
          - s.currentBalance request.targetUserId)
      rw [hbalance, Int.add_comm, Int.add_sub_cancel]
    · simp [AdminState.currentBalance]
    · exact recorded_adjustmentCalls

/-! ### Runs -/

/-- Every stored result is that of a call that took effect. -/
def AdminSession.Traced (session : AdminSession) : Prop :=
  ∀ key result, session.state.results.lookup key = some result → ∃ m ∈ session.made,
    m.TookEffect result ∧ m.call.action = key.1 ∧
      m.call.request.idempotencyKey.filter (· ≠ "") = some key.2

open AdminOperations in
/-- **One call keeps the results traced.** -/
theorem AdminSession.Traced.make {session : AdminSession} (h : session.Traced) (step : AdminStep) :
    (session.make step).Traced := by
  have hkept : ∀ key result, session.state.results.lookup key = some result →
      ∃ m ∈ (session.make step).made, m.TookEffect result ∧ m.call.action = key.1 ∧
        m.call.request.idempotencyKey.filter (· ≠ "") = some key.2 := by
    intro key result hfound
    obtain ⟨m, hm, hkey⟩ := h key result hfound
    exact ⟨m, List.mem_cons_of_mem _ hm, hkey⟩
  have hcases := AdminCall.program_cases step.identity step.call step.draw session.state
  intro key result hfound
  change ((step.call.program step.identity step.draw).call session.state).2.results.lookup key
    = some result at hfound
  generalize hran : (step.call.program step.identity step.draw).call session.state = ran
    at hcases hfound
  cases hcases with
  | refused => exact hkept key result hfound
  | replayed => exact hkept key result hfound
  | @performed reason before after s' _ _ hbefore written hafter =>
    have hresults : s'.results = session.state.results := by
      rcases AdminCall.write_eq_ok written with ⟨_, _, -, rfl⟩ | ⟨_, _, -, rfl⟩ <;> rfl
    rcases lookup_recorded hfound with hold | ⟨haction, hkey, rfl⟩
    · exact hkept key result (hresults ▸ hold)
    · refine ⟨session.run step, List.mem_cons_self, ?_, haction.symm, hkey⟩
      unfold AdminSession.run
      rw [hran]
      exact AdminCall.took_effect hbefore written hafter
  | @unrecorded reason s' e written =>
    have hresults : s'.results = session.state.results := by
      rcases AdminCall.write_eq_ok written with ⟨_, _, -, rfl⟩ | ⟨_, _, -, rfl⟩ <;> rfl
    exact hkept key result (hresults ▸ hfound)

open AdminOperations in
/-- **One call is scoped exactly when its key is not mixed up.** -/
theorem AdminSession.Traced.scoped_iff {session : AdminSession} (h : session.Traced)
    (step : AdminStep) : (session.run step).Scoped session.made ↔ step.Unmixed session.state := by
  constructor
  · intro hscoped hallowed hreason result hfound
    have hreturned : (session.run step).outcome = .ok result :=
      congrArg Prod.fst (AdminCall.program_replayed hallowed hreason hfound)
    exact (hscoped result hreturned).2.1
  · intro hunmixed result hreturned
    have hcases := AdminCall.program_cases step.identity step.call step.draw session.state
    have hrun : session.run step = ⟨step.call, step.identity, session.state,
        ((step.call.program step.identity step.draw).call session.state).1,
        ((step.call.program step.identity step.draw).call session.state).2⟩ := rfl
    rw [hrun] at hreturned ⊢
    generalize (step.call.program step.identity step.draw).call session.state = ran
      at hcases hreturned
    cases hcases with
    | refused => cases hreturned
    | unrecorded => cases hreturned
    | replayed hallowed hreason hfound =>
      obtain rfl := Except.ok.inj hreturned
      have hrecords := hunmixed hallowed hreason _ hfound
      obtain ⟨text, hkey, hstored⟩ := replay?_eq_some hfound
      obtain ⟨m, hm, heffect, haction, hkey'⟩ := h _ _ hstored
      refine ⟨hallowed, hrecords, .inr ⟨m, hm, heffect, haction, ?_, heffect.records.same hrecords haction⟩⟩
      exact (Option.filter_eq_some_iff.mp hkey').1.trans (Option.filter_eq_some_iff.mp hkey).1.symm
    | performed hallowed _ hbefore written hafter =>
      obtain rfl := Except.ok.inj hreturned
      have heffect := AdminCall.took_effect (d := step.draw) hbefore written hafter
      exact ⟨hallowed, heffect.records, .inl heffect⟩

/-- **Replays are scoped exactly when no key is mixed up.**  The calls of a run are all
scoped if and only if each of them that finds a result under its key asks for what that
result is about. -/
theorem replay_scoped_iff (plans : Dict String) (balances : Dict ℤ) (steps : List AdminStep) :
    Runs.Along AdminSession.make (fun session step => (session.run step).Scoped session.made)
        (.new plans balances) steps ↔
      Runs.Along AdminSession.make (fun session step => step.Unmixed session.state)
        (.new plans balances) steps := by
  have hnew : (AdminSession.new plans balances).Traced := fun _ _ hfound => by cases hfound
  constructor
  · intro h
    exact h.mono_invariant hnew (fun _ step htraced => htraced.make step)
      fun _ step htraced => (htraced.scoped_iff step).mp
  · intro h
    exact h.mono_invariant hnew (fun _ step htraced => htraced.make step)
      fun _ step htraced => (htraced.scoped_iff step).mpr

/-- Two tenants, each with its owner and a member. -/
def twoTenants : Boundary where
  users := ((∅ : Dict UserRecord).insert "user-1" ⟨"user-1", "a@example.com", none, "active", []⟩).insert
    "user-2" ⟨"user-2", "b@example.com", none, "active", []⟩
  tenants := ((∅ : Dict TenantRecord).insert "tenant-1" ⟨"tenant-1", "One"⟩).insert "tenant-2"
    ⟨"tenant-2", "Two"⟩
  memberships := (((∅ : AList fun _ : String × String => Membership).insert ("owner-1", "tenant-1")
    ⟨"owner-1", "tenant-1", .owner⟩).insert ("user-1", "tenant-1") ⟨"user-1", "tenant-1", .member⟩
    |>.insert ("owner-2", "tenant-2") ⟨"owner-2", "tenant-2", .owner⟩).insert ("user-2", "tenant-2")
      ⟨"user-2", "tenant-2", .member⟩
  googleSubjects := ∅
  emailUsers := ∅

/-- Credits for a member of each tenant, by its owner and under one key. -/
def sharedKeySteps : List AdminStep :=
  [⟨.adjustCredits ⟨⟨"owner-1", "session-1", none, []⟩, "tenant-1", "user-1", "welcome", "admin-api",
      "unspecified", some "key-1"⟩ (some 5), twoTenants, ⟨0, "a"⟩⟩,
    ⟨.adjustCredits ⟨⟨"owner-2", "session-2", none, []⟩, "tenant-2", "user-2", "welcome", "admin-api",
      "unspecified", some "key-1"⟩ (some 7), twoTenants, ⟨0, "b"⟩⟩]

/-- The second owner is answered with the first tenant's user. -/
theorem shared_key_leaks : ¬ Runs.Along AdminSession.make
    (fun session step => (session.run step).Scoped session.made) (.new ∅ ∅) sharedKeySteps := by
  rintro ⟨-, hsecond, -⟩
  obtain ⟨-, ⟨htarget, -⟩, -⟩ := hsecond ⟨"credits.adjust", "user-1", ⟨"tenant-1", "user-1", "active",
    "free", 0⟩, ⟨"tenant-1", "user-1", "active", "free", 5⟩, "audit-a"⟩ (by decide +kernel)
  exact absurd htarget (by decide)

end AiSaas
