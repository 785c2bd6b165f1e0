import AiSaas.Admin.Replay
import AiSaas.Lib.Logs

/-!
# The administrative audit log

Every change of a plan or a balance is one event, and the events of a user, read from
the first to the last, are the way from its initial plan and balance to its current ones.

## Main definitions

* `recordedPlans`, `recordedCredits` — the changes the events tell.
* `changesOf` — what the events of a user tell before and after.
* `AdminMade.Audited` — a call changed something and left one event, or changed nothing.

## Main results

* `audit_complete` — the log is complete after every run.
-/

namespace AiSaas

open Transaction AdminOperations NumberedLog

/-! ### What the events tell -/

/-- The plan changes among the events. -/
def recordedPlans (events : List AuditEvent) : List (String × String × String) :=
  (events.filter fun e => decide (e.action = "plan.change")).map fun e =>
    (e.targetId, e.after.plan, e.reason)

/-- The credit adjustments among the events. -/
def recordedCredits (events : List AuditEvent) : List (String × ℤ × String) :=
  (events.filter fun e => decide (e.action = "credits.adjust")).map fun e =>
    (e.targetId, e.after.creditBalance - e.before.creditBalance, e.reason)

/-- The plan and balance of a user before and after each of its events, in any tenant. -/
def changesOf (userId : String) (events : List AuditEvent) : List ((String × ℤ) × (String × ℤ)) :=
  (events.filter fun e => decide (e.targetId = userId)).map fun e =>
    ((e.before.plan, e.before.creditBalance), (e.after.plan, e.after.creditBalance))

/-- An event tells what a call has done. -/
structure AdminMade.ToldBy (m : AdminMade) (event : AuditEvent) (result : AdminOperationResult) :
    Prop where
  effect : m.TookEffect result
  eventId : event.eventId = result.auditEventId
  action : event.action = m.call.action
  actorTenantId : event.actorTenantId = m.call.request.tenantId
  actorUserId : event.actorUserId = m.call.request.actor.userId
  targetId : event.targetId = m.call.request.targetUserId
  before : event.before = result.before
  after : event.after = result.after

/-- A call took effect and left one event that tells it, or changed nothing at all; one that
raised changed nothing. -/
def AdminMade.Audited (m : AdminMade) : Prop :=
  ((∃ event result, m.after.events = m.before.events ++ [event] ∧ m.ToldBy event result) ∨
    m.after = m.before) ∧ ∀ e, m.outcome = .error e → m.after = m.before

/-- The log tells every change, and leads from the initial plan and balance of each user
to the current ones. -/
structure AdminState.Complete (plans : Dict String) (balances : Dict ℤ) (s : AdminState) : Prop where
  plans_told : recordedPlans s.events = s.transitionCalls
  credits_told : recordedCredits s.events = s.adjustmentCalls
  linked : ∀ userId, Linked ((AdminState.new plans balances).currentPlan userId,
      (AdminState.new plans balances).currentBalance userId) (changesOf userId s.events)
    (s.currentPlan userId, s.currentBalance userId)

/-! ### One call -/

/-- The event of a call has an identifier that no event has yet. -/
def AdminStep.Fresh (s : AdminState) (step : AdminStep) : Prop :=
  "audit-" ++ step.draw.uuid ∉ s.events.map AuditEvent.eventId

/-- What a call has done, where its identifier is fresh. -/
inductive AdminSession.Ran (session : AdminSession) (step : AdminStep) : Prop
  | unchanged (h : (session.run step).after = session.state)
  | changed {reason : String} {before after : Snapshot} {s' : AdminState}
      (hbefore : snapshot step.identity step.call.request.tenantId step.call.request.targetUserId
        session.state = .ok before)
      (written : step.call.write reason session.state = .ok ((), s'))
      (hafter : snapshot step.identity step.call.request.tenantId step.call.request.targetUserId s'
        = .ok after)
      (hrun : session.run step = ⟨step.call, step.identity, session.state,
        .ok (operationResult step.call.action step.call.request before after step.draw),
        recorded step.call.action step.call.request reason before after step.draw s'⟩)

theorem AdminCall.write_events {c : AdminCall} {reason : String} {s s' : AdminState}
    (h : c.write reason s = .ok ((), s')) : s'.events = s.events := by
  rcases AdminCall.write_eq_ok h with ⟨_, _, -, rfl⟩ | ⟨_, _, -, rfl⟩ <;> rfl

theorem AdminStep.Fresh.ran {session : AdminSession} {step : AdminStep}
    (h : step.Fresh session.state) : session.Ran step := by
  have hcases := AdminCall.program_cases step.identity step.call step.draw session.state
  have hrun : session.run step = ⟨step.call, step.identity, session.state,
      ((step.call.program step.identity step.draw).call session.state).1,
      ((step.call.program step.identity step.draw).call session.state).2⟩ := rfl
  generalize (step.call.program step.identity step.draw).call session.state = ran at hcases hrun
  cases hcases with
  | refused => exact .unchanged (hrun ▸ rfl)
  | replayed => exact .unchanged (hrun ▸ rfl)
  | performed _ _ hbefore written hafter => exact .changed hbefore written hafter hrun
  | unrecorded e written taken =>
    rw [AdminCall.write_events written] at taken
    exact absurd taken h

/-- **A call is audited.** -/
theorem AdminSession.Ran.audited {session : AdminSession} {step : AdminStep}
    (h : session.Ran step) : (session.run step).Audited := by
  cases h with
  | unchanged h => exact ⟨.inr h, fun _ _ => h⟩
  | @changed reason before after s' hbefore written hafter hrun =>
    have heffect := AdminCall.took_effect (d := step.draw) hbefore written hafter
    rw [hrun]
    refine ⟨.inl ⟨auditEvent step.call.action step.call.request reason before after step.draw, _, ?_,
      heffect, rfl, rfl, rfl, rfl, rfl, rfl, rfl⟩, fun e he => ?_⟩
    · rw [← AdminCall.write_events written]
      exact recorded_events
    · cases he

theorem changesOf_concat (userId : String) (events : List AuditEvent) (e : AuditEvent) :
    changesOf userId (events ++ [e]) = changesOf userId events ++
      if e.targetId = userId then
        [((e.before.plan, e.before.creditBalance), (e.after.plan, e.after.creditBalance))] else [] := by
  unfold changesOf
  rw [List.filter_append, List.map_append]
  by_cases h : e.targetId = userId <;> simp [h]

/-- The event of a call leads its user on from where it was, and the others stay. -/
theorem linked_recorded {initial : String × ℤ} {userId action reason : String}
    {request : AdminRequest} {before after : Snapshot} {d : AdminDraw} {s s' : AdminState}
    (hlinked : Linked initial (changesOf userId s.events) (s.currentPlan userId, s.currentBalance userId))
    (hbefore : (before.plan, before.creditBalance)
      = (s.currentPlan request.targetUserId, s.currentBalance request.targetUserId))
    (hafter : (after.plan, after.creditBalance)
      = (s'.currentPlan request.targetUserId, s'.currentBalance request.targetUserId))
    (hother : userId ≠ request.targetUserId →
      s'.currentPlan userId = s.currentPlan userId ∧ s'.currentBalance userId = s.currentBalance userId) :
    Linked initial (changesOf userId
        (s.events ++ [auditEvent action request reason before after d]))
      (s'.currentPlan userId, s'.currentBalance userId) := by
  rw [changesOf_concat]
  by_cases htarget : request.targetUserId = userId
  · subst htarget
    rw [if_pos (show (auditEvent action request reason before after d).targetId
      = request.targetUserId from rfl)]
    change Linked _ (_ ++ [((before.plan, before.creditBalance), (after.plan, after.creditBalance))]) _
    rw [hbefore, hafter]
    exact hlinked.concat
  · obtain ⟨hplan, hbalance⟩ := hother (Ne.symm htarget)
    rw [if_neg (show ¬ (auditEvent action request reason before after d).targetId = userId from htarget),
      List.append_nil, hplan, hbalance]
    exact hlinked

/-- **A call keeps the log complete.** -/
theorem AdminSession.Ran.complete {session : AdminSession} {step : AdminStep} {plans : Dict String}
    {balances : Dict ℤ} (h : session.Ran step) (hcomplete : session.state.Complete plans balances) :
    (session.run step).after.Complete plans balances := by
  cases h with
  | unchanged h => rwa [h]
  | @changed reason before after s' hbefore written hafter hrun =>
    rw [hrun]
    obtain ⟨user, -, rfl⟩ := snapshot_eq_ok.mp hbefore
    obtain ⟨user', -, rfl⟩ := snapshot_eq_ok.mp hafter
    obtain ⟨hplans, hcredits, hlinked⟩ := hcomplete
    rcases AdminCall.write_eq_ok written with ⟨request, plan, hcall, rfl⟩ | ⟨request, n, hcall, rfl⟩
    · rw [hcall]
      refine ⟨?_, ?_, fun userId => ?_⟩
      · simp [recordedPlans, ← hplans, auditEvent, AdminCall.action, AdminCall.request,
          AdminState.currentPlan]
      · simp [recordedCredits, ← hcredits, auditEvent, AdminCall.action]
      · simp only [recorded_events, recorded_currentPlan, recorded_currentBalance]
        refine linked_recorded (hlinked userId) rfl rfl fun hne => ⟨?_, rfl⟩
        simp only [AdminState.currentPlan, AdminCall.request] at hne ⊢
        rw [AList.lookup_insert_ne hne]
    · rw [hcall]
      have hdifference : ∀ a : ℤ, a + n - a = n := fun a => by omega
      refine ⟨?_, ?_, fun userId => ?_⟩
      · simp [recordedPlans, ← hplans, auditEvent, AdminCall.action]
      · simp [recordedCredits, ← hcredits, auditEvent, AdminCall.action, AdminCall.request,
          AdminState.currentBalance, hdifference]
      · simp only [recorded_events, recorded_currentPlan, recorded_currentBalance]
        refine linked_recorded (hlinked userId) rfl rfl fun hne => ⟨rfl, ?_⟩
        simp only [AdminState.currentBalance, AdminCall.request] at hne ⊢
        rw [AList.lookup_insert_ne hne]

/-! ### Runs -/

/-- Identifiers that are all different are fresh when they are drawn. -/
theorem along_fresh {session : AdminSession} {steps : List AdminStep}
    (hnodup : (steps.map fun step => step.draw.uuid).Nodup)
    (hevents : ∀ e ∈ session.state.events, ∀ step ∈ steps, e.eventId ≠ "audit-" ++ step.draw.uuid) :
    Runs.Along AdminSession.make (fun session step => step.Fresh session.state) session steps := by
  induction steps generalizing session with
  | nil => trivial
  | cons step steps ih =>
    obtain ⟨hstep, hnodup⟩ := List.nodup_cons.mp hnodup
    have hfresh : step.Fresh session.state := by
      intro hmem
      obtain ⟨e, he, hid⟩ := List.mem_map.mp hmem
      exact hevents e he step List.mem_cons_self hid
    refine ⟨hfresh, ih hnodup fun e he later hlater => ?_⟩
    have hold : e ∈ session.state.events → e.eventId ≠ "audit-" ++ later.draw.uuid :=
      fun he => hevents e he later (List.mem_cons_of_mem _ hlater)
    cases hfresh.ran with
    | unchanged h =>
      change e ∈ (session.run step).after.events at he
      rw [h] at he
      exact hold he
    | @changed reason before after s' _ written _ hrun =>
      change e ∈ (session.run step).after.events at he
      rw [hrun, recorded_events, AdminCall.write_events written] at he
      rcases List.mem_append.mp he with he | he
      · exact hold he
      · obtain rfl := List.mem_singleton.mp he
        intro heq
        have huuid : step.draw.uuid = later.draw.uuid := (String.append_right_inj _).mp heq
        exact hstep (List.mem_map.mpr ⟨later, hlater, huuid.symm⟩)

/-- **The audit log is complete.**  After every run of calls that draw different
identifiers, each call that changed something left one event that tells it and no other
call left one; the events of each user lead from its initial plan and balance to the
current ones; and a call that raised changed nothing. -/
theorem audit_complete (plans : Dict String) (balances : Dict ℤ) (steps : List AdminStep)
    (hnodup : (steps.map fun step => step.draw.uuid).Nodup) :
    let session := Runs.final AdminSession.make (.new plans balances) steps
    (∀ m ∈ session.made, m.Audited) ∧ session.state.Complete plans balances := by
  have hfresh : Runs.Along AdminSession.make (fun session step => step.Fresh session.state)
      (.new plans balances) steps := along_fresh hnodup fun e he => absurd he List.not_mem_nil
  refine hfresh.invariant (I := fun session => (∀ m ∈ session.made, m.Audited) ∧
    session.state.Complete plans balances) ?_ ?_
  · exact ⟨fun m hm => absurd hm List.not_mem_nil, rfl, rfl, fun _ => rfl⟩
  · rintro session step hstep ⟨haudited, hcomplete⟩
    refine ⟨fun m hm => ?_, hstep.ran.complete hcomplete⟩
    rcases List.mem_cons.mp hm with rfl | hm
    · exact hstep.ran.audited
    · exact haudited m hm

/-- The log is complete after a call and a replay. -/
theorem shared_key_audited :
    (Runs.final AdminSession.make (.new ∅ ∅) sharedKeySteps).state.Complete ∅ ∅ :=
  (audit_complete ∅ ∅ sharedKeySteps (by decide)).2

end AiSaas
