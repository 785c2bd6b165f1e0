import AiSaas.AgentWorker.Facts
import Mathlib.Data.List.Chain

/-!
# What the events announce

A run's `run.state_changed` and `run.completed` events announce its states.  Every
call that moves a run announces the state it moves it to, except that
`mark_cancel_requested` announces a run that waits for its quota as running.

## Main definitions

* `RunEvent.announces`, `RunDatabase.announced` — what an event announces, and all
  that a run's events announced.
* `RunDatabase.Projects` — the announcements follow the moves and end in the state.
* `sparesPaused` — the condition on an interleaving: no cancellation lands on a run
  that waits for its quota.

## Main results

* `RunStore.projects_step` — what one call preserves.
* `announced_states` — the announcements of every interleaving that meets it.
-/

namespace AiSaas

open Relational Processes NumberedLog

/-- The state an event announces, as text. -/
def RunEvent.announces (e : RunEvent) : Option String :=
  if e.event = "run.completed" then some RunState.completed.text
  else if e.event = "run.state_changed" then
    match Json.get e.data "state" with
    | .str s => some s
    | _ => none
  else none

namespace RunDatabase

/-- What a run's events announced, in their order. -/
def announced (db : RunDatabase) (runId : String) : List String :=
  (db.eventsOf runId).filterMap RunEvent.announces

/-- A state and the next one announced. -/
def MovesTo (s s' : RunState) : Prop := s' = s ∨ s' ∈ s.transitions

/-- The announcements of every run follow the allowed moves and end in its state. -/
def Projects (db : RunDatabase) : Prop :=
  ∀ r row, db.runs.find? r = some row → ∃ states : List RunState,
    db.announced r = states.map RunState.text ∧ states.getLast? = some row.state ∧
      states.IsChain MovesTo

end RunDatabase

namespace RunStore

open RunDatabase

variable {lib : RunLibrary} {env : Env} {db db' : RunDatabase} {row row' : RunRow}
  {now event : String} {data : List (String × Json)}

theorem announced_insert {e : RunEvent} (h : db.runEvents.insert? e = some db'.runEvents)
    (x : String) : db'.announced x
      = db.announced x ++ if e.runId = x then e.announces.toList else [] := by
  unfold announced eventsOf
  rw [(Table.insert?_eq_some h).1, ofStream_concat, List.filterMap_append]
  by_cases hx : e.runId = x
  · rw [if_pos hx, if_pos hx]
    cases he : e.announces <;> simp [he]
  · rw [if_neg hx, if_neg hx]
    rfl

/-- What is announced after a change with an event. -/
theorem projects_logs (h : db.Projects) (hlogs : Logs env now db row event data row' db')
    (hannounces : ((nextEvent env now row event data).announces = some row'.state.text ∧
        MovesTo row.state row'.state) ∨
      ((nextEvent env now row event data).announces = none ∧ row'.state = row.state)) :
    db'.Projects := by
  intro x after hafter
  rw [hlogs.sets x] at hafter
  rw [announced_insert hlogs.insert]
  by_cases hx : x = row.runId
  · subst hx
    rw [if_pos rfl] at hafter
    obtain rfl := Option.some.inj hafter
    obtain ⟨states, hstates, hlast, hchain⟩ := h row.runId row hlogs.found
    have hown : (nextEvent env now row event data).runId = row.runId := rfl
    rw [hstates, if_pos hown]
    rcases hannounces with ⟨hsome, hfollows⟩ | ⟨hnone, hsame⟩
    · refine ⟨states ++ [row'.state], ?_, List.getLast?_concat, ?_⟩
      · rw [hsome, List.map_append]
        rfl
      · rw [List.isChain_append]
        refine ⟨hchain, .singleton _, ?_⟩
        intro s hs s' hs'
        rw [hlast] at hs
        obtain rfl := Option.some.inj hs
        simp only [List.head?_cons, Option.mem_def, Option.some.injEq] at hs'
        exact hs' ▸ hfollows
    · refine ⟨states, ?_, hsame ▸ hlast, hchain⟩
      rw [hnone]
      exact List.append_nil _
  · rw [if_neg hx] at hafter
    have hne : ¬ (nextEvent env now row event data).runId = x := fun he => hx he.symm
    rw [if_neg hne, List.append_nil]
    exact h x after hafter

/-- A change without an event leaves the state. -/
theorem projects_sets (h : db.Projects) (hrow : db.runs.find? row.runId = some row)
    (hsets : Sets db row row' db') (hsame : row'.state = row.state)
    (hevents : db'.runEvents = db.runEvents) : db'.Projects := by
  intro x after hafter
  rw [hsets x] at hafter
  have hannounced : db'.announced x = db.announced x := by
    unfold announced eventsOf
    rw [hevents]
  rw [hannounced]
  by_cases hx : x = row.runId
  · rw [if_pos hx] at hafter
    obtain rfl := Option.some.inj hafter
    rw [hsame, hx]
    exact h row.runId row hrow
  · rw [if_neg hx] at hafter
    exact h x after hafter

/-- A transition whose payload leaves the state alone announces its own. -/
theorem announces_move {state : RunState} {payload : List (String × Json)}
    (hpayload : payload.lookup "state" = none) :
    (nextEvent env now row "run.state_changed"
      (Json.update [("state", .str state.text), ("trace_id", .str row.traceId)] payload)).announces
        = some state.text := by
  have hget : Json.get (Json.update [("state", .str state.text), ("trace_id", .str row.traceId)]
      payload) "state" = .str state.text := by
    unfold Json.get Json.update
    rw [List.lookup_append, hpayload]
    simp [hpayload]
  simp only [RunEvent.announces, nextEvent, hget]
  rfl

/-- **One call keeps the announcements true**, unless it cancels a run that waits
for its quota or announces a state of its own. -/
theorem projects_step {call : Call} (h : db.Projects) (hgapless : db.Gapless)
    (hmove : ∀ r state payload, call.move? = some (r, state, payload) →
      payload.lookup "state" = none)
    (hspares : ∀ r t row, call = .markCancelRequested r t → db.runs.find? r = some row →
      row.tenantId = t → row.state ≠ .quotaPaused) :
    (step lib db (env, call)).Projects := by
  rcases step_cases lib env call db with hsame | hwrites
  · rwa [hsame]
  · generalize step lib db (env, call) = db' at hwrites
    cases hwrites with
    | @create r q runs runEvents _ insert log =>
      intro x after hafter
      change runs.find? x = some after at hafter
      rw [Table.find?_insert insert] at hafter
      rw [announced_insert (show _ = some ({ db with runs, runEvents } : RunDatabase).runEvents from log)]
      change (if r = x then _ else _) = _ at hafter
      by_cases hx : r = x
      · subst hx
        rw [if_pos rfl] at hafter
        obtain rfl := Option.some.inj hafter
        have hnone : db.runs.find? r = none :=
          Table.find?_eq_none.mpr (Table.insert?_eq_some insert).2.2.1
        have hnew : db.eventsOf r = [] := by
          have hlength := hgapless.length_eq r
          rw [RunDatabase.sequenceOf, hnone] at hlength
          exact List.length_eq_zero_iff.mp hlength
        have hown : (firstEvent env r q).runId = r := rfl
        refine ⟨[.queued], ?_, rfl, .singleton _⟩
        rw [announced, hnew, if_pos hown]
        rfl
      · rw [if_neg hx] at hafter
        have hne : ¬ (firstEvent env r q).runId = x := hx
        rw [if_neg hne, List.append_nil]
        exact h x after hafter
    | attach found _ after sets events _ =>
      exact projects_sets h found sets (by rw [after]) events
    | reclaim found _ after sets events _ =>
      exact projects_sets h found sets (by rw [after]) events
    | claim queued after logs _ =>
      refine projects_logs h logs (Or.inl ⟨by rw [after]; rfl, Or.inr ?_⟩)
      rw [after, queued]
      exact List.mem_cons_self
    | move which after moves =>
      refine projects_logs h moves.logs (Or.inl ⟨?_, Or.inr ?_⟩)
      · rw [announces_move (hmove _ _ _ which), after]
      · rw [after]
        exact moves.allowed
    | cancel _ after moves =>
      refine projects_logs h moves.logs (Or.inl ⟨?_, Or.inr ?_⟩)
      · rw [announces_move rfl, after]
      · rw [after]
        exact moves.allowed
    | askCancel busy after logs _ =>
      -- the event says running, whatever the state is
      have hrunning := busy.resolve_right (hspares _ _ _ rfl logs.found rfl)
      refine projects_logs h logs (Or.inl ⟨?_, Or.inl (by rw [after])⟩)
      rw [after, hrunning]
      rfl
    | approve after moves =>
      refine projects_logs h moves.logs (Or.inl ⟨?_, Or.inr ?_⟩)
      · rw [announces_move rfl, after]
      · rw [after]
        exact moves.allowed
    | saveCheckpoint _ _ runs events _ =>
      intro x after hafter
      have hannounced : db'.announced x = db.announced x := by
        unfold announced eventsOf
        rw [events]
      rw [hannounced]
      exact h x after (runs ▸ hafter)
    | appendToken after logs _ =>
      exact projects_logs h logs (Or.inr ⟨rfl, by rw [after]⟩)
    | complete running after logs _ =>
      refine projects_logs h logs (Or.inl ⟨by rw [after]; rfl, Or.inr ?_⟩)
      rw [after, running]
      exact List.mem_cons_of_mem _ List.mem_cons_self

end RunStore

/-! ### Interleavings -/

/-- No cancellation of its tenant lands on a run that waits for its quota. -/
def sparesPaused (pool : RunPool) (_ : ℕ) : Op → Bool
  | .runs (.markCancelRequested r t) => (pool.state.runs.runs.find? r).all fun row =>
    decide (row.tenantId = t → row.state ≠ .quotaPaused)
  | _ => true

/-- **The event stream projects to the stored state.**  In every pool that processes
creating, approving, cancelling and executing runs reach without cancelling one
that waits for its quota: the last state announced by a run's events is the stored
one, and each differs from the one before by an allowed move, or not at all. -/
theorem announced_states (policy : QuotaPolicy) (service : RunService) (worker : BoundedWorker)
    {w : RunWorld} (hw : Fresh w) {actions : List (Action Task Drawn)}
    (h : Runs.Along (runSystem policy service worker).act (Pool.Meets sparesPaused) (Pool.init w) actions) :
    (Runs.final (runSystem policy service worker).act (Pool.init w)
      actions).state.runs.Projects := by
  have hempty : (Pool.init w : RunPool).state.runs.Projects ∧
      (Pool.init w : RunPool).state.runs.Gapless := by
    change w.runs.Projects ∧ w.runs.Gapless
    rw [hw.runs]
    exact ⟨fun r row hrow => (by cases hrow), RunDatabase.gapless_empty⟩
  refine (run_invariant (J := fun pool => pool.state.runs.Projects ∧ pool.state.runs.Gapless)
    hw hempty ?_ h).2.1
  intro pool a pool' hwhen hsound _ ⟨hprojects, hgapless⟩ hacts
  cases hacts with
  | start | stop | idle => exact ⟨hprojects, hgapless⟩
  | @step i drawn task op next found =>
    cases op with
    | runs call =>
      refine ⟨RunStore.projects_step hprojects hgapless ?_ ?_,
        RunStore.gapless_step worker.lib pool.state.runs (drawn.env, call) hgapless⟩
      · intro r state payload hmove
        exact (Task.move_of_does (hsound.does found) hmove).1
      · rintro r t row rfl hrow htenant
        have hspares := hwhen.cond found
        simp only [sparesPaused, hrow, Option.all_some, decide_eq_true_eq] at hspares
        exact hspares htenant
    | _ => exact ⟨hprojects, hgapless⟩

/-- The sample run with room for its units, executed to its end. -/
theorem announced_states_created : (Sample.runPool Sample.createdRun).state.runs.Projects :=
  announced_states Sample.quotaPolicy Sample.runService Sample.boundedWorker Sample.fresh_runWorld
    (by decide +kernel)

/-- The sample run without room for its units is paused, and then cancelled. -/
def pausedCancel : List (Action Task Drawn) :=
  .start (.createRun "1" Sample.runRequest) :: Sample.steps 0 Sample.lastStep ["a", "b", "c"] ++
    .start (.cancel "run-1" "tenant-1") :: Sample.steps 1 Sample.lastStep ["d"]

/-- A run that waits for its quota is announced as running when it is cancelled. -/
theorem pausedCancel_announced :
    ((Sample.runPoolUnder Sample.tightPolicy pausedCancel).state.runs.runs.find? "run-1").map
        (·.state) = some .quotaPaused ∧
      (Sample.runPoolUnder Sample.tightPolicy pausedCancel).state.runs.announced "run-1"
        = ["queued", "quota_paused", "running"] ∧
      ¬ (Sample.runPoolUnder Sample.tightPolicy pausedCancel).state.runs.Projects := by
  have hstate : ((Sample.runPoolUnder Sample.tightPolicy pausedCancel).state.runs.runs.find?
      "run-1").map (·.state) = some .quotaPaused := by decide +kernel
  have hannounced : (Sample.runPoolUnder Sample.tightPolicy pausedCancel).state.runs.announced
      "run-1" = ["queued", "quota_paused", "running"] := by decide +kernel
  refine ⟨hstate, hannounced, ?_⟩
  intro hprojects
  obtain ⟨row, hrow, hpaused⟩ := Option.map_eq_some_iff.mp hstate
  obtain ⟨states, hstates, hlast, -⟩ := hprojects "run-1" row hrow
  have htexts := congrArg List.getLast? (hannounced.symm.trans hstates)
  rw [List.getLast?_map, hlast, hpaused] at htexts
  exact absurd htexts (by decide)

end AiSaas
