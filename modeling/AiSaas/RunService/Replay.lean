import AiSaas.Lib.Logs
import AiSaas.Lib.Runs
import AiSaas.RunService.Writes

/-!
# The event log and its replay

The events of all runs stand in one table; each run numbers its own, and its row
counts them.  A client reads them through `RunService.replay` or `sse` and comes
back with the id of the last event it saw.

## Main definitions

* `RunService.replay`, `RunService.sse` — the reads of
  `services/run_service/service.py`.
* `RunDatabase.eventsOf`, `RunDatabase.sequenceOf` — a run's events and their count.
* `RunDatabase.Gapless` — every run's events are numbered without a gap.

## Main results

* `RunStore.gapless_step`, `RunStore.extends_step` — what one call preserves.
* `RunService.replay_of_gapless` — what a returning client is sent.
* `RunService.replay_lossless` — all of it, for every run of calls.
-/

namespace AiSaas

open Relational Transaction NumberedLog

/-! ### Reading the log -/

namespace RunService

/-- `replay`; a cursor is a number or, failing that, the id of an event.  SQLite
takes no number beyond 64 bits, and the run is looked up first. -/
def replay (runId tenantId : String) (lastEventId : Option String) (db : RunDatabase) :
    Except Error (List RunEvent) :=
  match lastEventId with
  | none => RunStore.events runId tenantId 0 db
  | some cursor =>
    if cursor = "" then RunStore.events runId tenantId 0 db
    else
      match pyInt cursor with
      | some after => do
        let _ ← RunStore.get runId (some tenantId) db
        ensure (-2 ^ 63 ≤ after ∧ after < 2 ^ 63) .overflowError
        RunStore.events runId tenantId after db
      | none => RunStore.events runId tenantId (RunStore.sequenceForEvent runId cursor db) db

/-- One event as a frame of the stream. -/
def frame (lib : RunLibrary) (e : RunEvent) : String :=
  "id: " ++ e.eventId ++ "\nevent: " ++ e.event ++ "\ndata: " ++ e.dataJson lib ++ "\n\n"

/-- `sse`. -/
def sse (lib : RunLibrary) (runId tenantId : String) (lastEventId : Option String)
    (db : RunDatabase) : Except Error String := do
  let events ← replay runId tenantId lastEventId db
  return String.join (events.map (frame lib))

end RunService

/-! ### Numbers without gaps -/

namespace RunDatabase

/-- A run's events, in the order they were written. -/
def eventsOf (db : RunDatabase) (runId : String) : List RunEvent :=
  ofStream RunEvent.runId runId db.runEvents.rows

/-- How many events a run's row counts; none where there is no row. -/
def sequenceOf (db : RunDatabase) (runId : String) : ℕ :=
  (db.runs.find? runId).elim 0 fun row => row.sequence

/-- Every run's events carry the numbers from one to its sequence. -/
def Gapless (db : RunDatabase) : Prop :=
  NumberedLog.Gapless RunEvent.runId RunEvent.sequence db.runEvents.rows db.sequenceOf

theorem gapless_empty : RunDatabase.empty.Gapless := fun _ => rfl

end RunDatabase

namespace RunStore

variable {lib : RunLibrary} {env : Env} {db db' : RunDatabase} {row row' : RunRow} {now : String}

theorem sequenceOf_sets (hsets : Sets db row row' db') (x : String) :
    db'.sequenceOf x = if x = row.runId then row'.sequence else db.sequenceOf x := by
  unfold RunDatabase.sequenceOf
  rw [hsets x]
  by_cases hx : x = row.runId <;> simp [hx]

/-- A row that changes without an event keeps its number. -/
theorem gapless_of_sets (h : db.Gapless) (hrow : db.runs.find? row.runId = some row)
    (hsets : Sets db row row' db') (hsame : row'.sequence = row.sequence)
    (hevents : db'.runEvents = db.runEvents) : db'.Gapless := by
  unfold RunDatabase.Gapless
  rw [hevents]
  refine h.congr fun x => ?_
  rw [sequenceOf_sets hsets]
  by_cases hx : x = row.runId
  · rw [if_pos hx, hsame, hx, RunDatabase.sequenceOf, hrow]
    rfl
  · rw [if_neg hx]

/-- **An announced change appends the run's next number.** -/
theorem gapless_of_logs {event : String} {data : List (String × Json)} (h : db.Gapless)
    (hlogs : Logs env now db row event data row' db') : db'.Gapless := by
  have hcount : db.sequenceOf row.runId = row.sequence := by
    rw [RunDatabase.sequenceOf, hlogs.found]
    rfl
  unfold RunDatabase.Gapless
  rw [(Table.insert?_eq_some hlogs.insert).1]
  refine h.concat ?_ ?_
  · change row.sequence + 1 = db.sequenceOf row.runId + 1
    rw [hcount]
  · intro x
    rw [sequenceOf_sets hlogs.sets, hlogs.next]
    by_cases hx : x = row.runId
    · subst hx
      simp [nextEvent, hcount]
    · simp [nextEvent, hx]

/-- **One call keeps the log gapless.** -/
theorem gapless_step (lib : RunLibrary) (db : RunDatabase) (call : Env × Call) (h : db.Gapless) :
    (step lib db call).Gapless := by
  rcases step_effect lib call.1 call.2 db with hsame | heffect
  · rwa [show step lib db call = db from hsame]
  · change Effect lib call.1 db (step lib db call) at heffect
    generalize step lib db call = db' at heffect
    cases heffect with
    | @created r q insert log =>
      -- a run that is not there yet counts no event
      have hnone : db.runs.find? r = none :=
        Table.find?_eq_none.mpr (Table.insert?_eq_some insert).2.2.1
      unfold RunDatabase.Gapless
      rw [(Table.insert?_eq_some log).1]
      refine h.concat ?_ ?_
      · simp [firstEvent, RunDatabase.sequenceOf, hnone]
      · intro x
        unfold RunDatabase.sequenceOf
        rw [Table.find?_insert insert]
        by_cases hx : x = r
        · subst hx
          simp [newRun, firstEvent, hnone]
        · simp [newRun, firstEvent, hx, Ne.symm hx]
    | set found sets _ same events => exact gapless_of_sets h found sets same events
    | logged logs _ => exact gapless_of_logs h logs
    | saved runs events =>
      unfold RunDatabase.Gapless
      rw [events]
      exact h.congr fun x => by rw [RunDatabase.sequenceOf, RunDatabase.sequenceOf, runs]

/-- **Events are appended and never changed, and every run goes on.** -/
structure Extends (db db' : RunDatabase) : Prop where
  events : db.runEvents.rows <+: db'.runEvents.rows
  runs : ∀ r row, db.runs.find? r = some row →
    ∃ row', db'.runs.find? r = some row' ∧ Continues row row'

theorem Extends.refl (db : RunDatabase) : Extends db db :=
  ⟨List.prefix_rfl, fun _ row h => ⟨row, h, Continues.refl row⟩⟩

theorem Extends.trans {db'' : RunDatabase} (h : Extends db db') (h' : Extends db' db'') :
    Extends db db'' := by
  refine ⟨h.events.trans h'.events, ?_⟩
  intro r row hrow
  obtain ⟨row', hrow', hgoes⟩ := h.runs r row hrow
  obtain ⟨row'', hrow'', hgoes'⟩ := h'.runs r row' hrow'
  exact ⟨row'', hrow'', hgoes.trans hgoes'⟩

theorem extends_of_sets (hrow : db.runs.find? row.runId = some row) (hsets : Sets db row row' db')
    (hgoes : Continues row row') (hevents : db.runEvents.rows <+: db'.runEvents.rows) :
    Extends db db' := by
  refine ⟨hevents, ?_⟩
  intro r before hbefore
  rw [hsets r]
  by_cases hr : r = row.runId
  · rw [hr, hrow] at hbefore
    exact ⟨row', if_pos hr, (Option.some.inj hbefore) ▸ hgoes⟩
  · exact ⟨before, (if_neg hr).trans hbefore, Continues.refl before⟩

theorem extends_step (lib : RunLibrary) (db : RunDatabase) (call : Env × Call) :
    Extends db (step lib db call) := by
  rcases step_effect lib call.1 call.2 db with hsame | heffect
  · rw [show step lib db call = db from hsame]
    exact Extends.refl db
  · change Effect lib call.1 db (step lib db call) at heffect
    generalize step lib db call = db' at heffect
    cases heffect with
    | @created r q insert log =>
      refine ⟨⟨_, (Table.insert?_eq_some log).1.symm⟩, ?_⟩
      intro x row hrow
      have hne : r ≠ x := by
        rintro rfl
        obtain ⟨hmem, hid⟩ := Table.find?_eq_some.mp hrow
        exact (Table.insert?_eq_some insert).2.2.1 row hmem hid
      exact ⟨row, ((Table.find?_insert insert x).trans (if_neg hne)).trans hrow, Continues.refl row⟩
    | set found sets goes _ events =>
      exact extends_of_sets found sets goes (events ▸ List.prefix_rfl)
    | logged logs goes =>
      exact extends_of_sets logs.found logs.sets goes
        ⟨_, (Table.insert?_eq_some logs.insert).1.symm⟩
    | saved runs events =>
      exact ⟨events ▸ List.prefix_rfl, fun r row hrow => ⟨row, runs ▸ hrow, Continues.refl row⟩⟩

/-- Every event's id is of the form `event-…`. -/
def NamedEvents (db : RunDatabase) : Prop :=
  ∀ e ∈ db.runEvents.rows, ∃ hex, e.eventId = "event-" ++ hex

theorem namedEvents_step (lib : RunLibrary) (db : RunDatabase) (call : Env × Call)
    (h : NamedEvents db) : NamedEvents (step lib db call) := by
  rcases step_effect lib call.1 call.2 db with hsame | heffect
  · rwa [show step lib db call = db from hsame]
  · change Effect lib call.1 db (step lib db call) at heffect
    generalize step lib db call = db' at heffect
    have hinsert : ∀ {e : RunEvent} {hex : String}, db.runEvents.insert? e = some db'.runEvents →
        e.eventId = "event-" ++ hex → NamedEvents db' := by
      intro e hex hins he x hx
      rw [(Table.insert?_eq_some hins).1, List.mem_append, List.mem_singleton] at hx
      rcases hx with hx | rfl
      · exact h x hx
      · exact ⟨hex, he⟩
    cases heffect with
    | created _ log => exact hinsert log rfl
    | set _ _ _ _ events => exact fun e he => h e (events ▸ he)
    | logged logs _ => exact hinsert logs.insert rfl
    | saved _ events => exact fun e he => h e (events ▸ he)

end RunStore

/-! ### What a client is sent -/

namespace RunService

variable {lib : RunLibrary} {db : RunDatabase} {row : RunRow} {r cursor : String} {n : ℕ}

/-- The id of an event is no number, so the cursor is looked up. -/
theorem pyInt_eventId (hex : String) : pyInt ("event-" ++ hex) = none := by
  have hchars : ("event-" ++ hex).toList = 'e' :: ("vent-".toList ++ hex.toList) := by
    rw [String.toList_append]
    rfl
  exact pyInt_eq_none hchars (by decide) (by decide) (by decide) (by decide)

theorem events_of_gapless (h : db.Gapless) (hrow : db.runs.find? r = some row) (n : ℕ) :
    RunStore.events r row.tenantId n db = .ok ((db.eventsOf r).drop n) := by
  have hread := h.above_eq_drop r n
  have hsorted : (above RunEvent.runId RunEvent.sequence r n db.runEvents.rows).mergeSort
      (fun e e' => decide (e.sequence ≤ e'.sequence)) = _ :=
    List.mergeSort_of_pairwise ((h.above_sorted r n).imp fun hle => decide_eq_true hle)
  change _ = Except.ok (List.drop n (ofStream _ _ _))
  rw [← hread]
  simp only [RunStore.events, RunStore.get, bind_eq_ok, RunStore.rowLocked_eq_ok, ensure_eq_ok]
  refine ⟨row.toRun, ⟨row, hrow, (), by simp, rfl⟩, ?_⟩
  exact congrArg Except.ok hsorted

/-- A cursor that stands for the first `n` events of a run: none at all, the id of
the event numbered `n`, or that number as text. -/
def Marks (db : RunDatabase) (r : String) (n : ℕ) : Option String → Prop
  | none => n = 0
  | some cursor => (∃ e ∈ db.eventsOf r, e.sequence = n ∧ cursor = e.eventId) ∨
      (pyInt cursor = some (n : ℤ) ∧ (n : ℤ) < 2 ^ 63)

/-- A cursor goes on standing for the same events. -/
theorem Marks.mono {db' : RunDatabase} (hgrows : db.runEvents.rows <+: db'.runEvents.rows)
    {cursor : Option String} (h : Marks db r n cursor) : Marks db' r n cursor := by
  cases cursor with
  | none => exact h
  | some cursor =>
    rcases h with ⟨e, he, hseq, hid⟩ | hnumber
    · exact Or.inl ⟨e, (isPrefix_ofStream hgrows r).subset he, hseq, hid⟩
    · exact Or.inr hnumber

/-- **What a client is sent**: everything after the events its cursor stands for. -/
theorem replay_of_gapless (h : db.Gapless) (hnamed : RunStore.NamedEvents db)
    (hrow : db.runs.find? r = some row) {cursor : Option String} (hmarks : Marks db r n cursor) :
    replay r row.tenantId cursor db = .ok ((db.eventsOf r).drop n) := by
  cases cursor with
  | none =>
    obtain rfl : n = 0 := hmarks
    exact events_of_gapless h hrow 0
  | some cursor =>
    have hread := events_of_gapless h hrow n
    rcases hmarks with ⟨e, he, hseq, rfl⟩ | ⟨hnumber, hsmall⟩
    · obtain ⟨hmem, hrun⟩ := List.mem_filter.mp he
      obtain ⟨hex, hid⟩ := hnamed e hmem
      have hlookup : RunStore.sequenceForEvent r e.eventId db = n := by
        simp [RunStore.sequenceForEvent, Table.find?_of_mem hmem, of_decide_eq_true hrun, hseq]
      have hne : e.eventId ≠ "" := by
        intro hempty
        rw [hid] at hempty
        exact absurd (congrArg String.toList hempty) (by simp)
      have hcursor : pyInt e.eventId = none := hid ▸ pyInt_eventId hex
      simp only [replay, if_neg hne, hcursor, hlookup]
      exact hread
    · have hne : cursor ≠ "" := by
        rintro rfl
        cases hnumber
      have hget : RunStore.get r (some row.tenantId) db = .ok row.toRun := by
        simp only [RunStore.get, bind_eq_ok, RunStore.rowLocked_eq_ok, ensure_eq_ok]
        exact ⟨row, hrow, (), by simp, rfl⟩
      simp only [replay, if_neg hne, hnumber, bind_eq_ok, ensure_eq_ok]
      exact ⟨row.toRun, hget, (), decide_eq_true ⟨by omega, hsmall⟩, hread⟩

theorem sse_of_replay {cursor : Option String} {tenant : String} {events : List RunEvent}
    (h : replay r tenant cursor db = .ok events) :
    sse lib r tenant cursor db = .ok (String.join (events.map (frame lib))) := by
  rw [sse, h]
  rfl

/-- **The log is gapless and its replay loses nothing.**  After any calls of the
store, returning or raising, in any order: a run's events carry the numbers from
one to its sequence, each once; after any further calls they all stand unchanged
where they stood; and a client that comes back for what follows the first `n` is
sent the events numbered from `n + 1` to the run's sequence, in order, by `replay`
and as frames by `sse`. -/
theorem replay_lossless (lib : RunLibrary) (calls later : List (Env × RunStore.Call)) :
    (∀ r, ((Runs.final (RunStore.step lib) .empty calls).eventsOf r).map (·.sequence)
        = List.range' 1 ((Runs.final (RunStore.step lib) .empty calls).sequenceOf r)) ∧
      (Runs.final (RunStore.step lib) .empty calls).runEvents.rows
        <+: (Runs.final (RunStore.step lib) .empty (calls ++ later)).runEvents.rows ∧
      ∀ r row, (Runs.final (RunStore.step lib) .empty calls).runs.find? r = some row →
        ∃ row', (Runs.final (RunStore.step lib) .empty (calls ++ later)).runs.find? r = some row' ∧
          row'.tenantId = row.tenantId ∧
          ∀ n ≤ row.sequence, ∀ cursor,
            Marks (Runs.final (RunStore.step lib) .empty calls) r n cursor →
            ∃ sent, replay r row.tenantId cursor
                  (Runs.final (RunStore.step lib) .empty (calls ++ later)) = .ok sent ∧
              ((Runs.final (RunStore.step lib) .empty calls).eventsOf r).take n ++ sent
                = (Runs.final (RunStore.step lib) .empty (calls ++ later)).eventsOf r ∧
              sent.map (·.sequence) = List.range' (n + 1) (row'.sequence - n) ∧
              sse lib r row.tenantId cursor
                  (Runs.final (RunStore.step lib) .empty (calls ++ later))
                = .ok (String.join (sent.map (frame lib))) := by
  have hgapless := Runs.invariant RunDatabase.gapless_empty (RunStore.gapless_step lib)
  have hnamed := Runs.invariant (I := RunStore.NamedEvents) (s := RunDatabase.empty)
    (fun e he => absurd he List.not_mem_nil) (RunStore.namedEvents_step lib)
  rw [Runs.final_append]
  have hextends : RunStore.Extends _ _ := Runs.rel_final (I := fun _ => True)
    RunStore.Extends.refl RunStore.Extends.trans (fun _ _ _ => trivial)
    (fun db call _ => RunStore.extends_step lib db call) trivial later
      (s := Runs.final (RunStore.step lib) .empty calls)
  have hbefore := hgapless calls
  have hafter := hgapless (calls ++ later)
  have hnames := hnamed (calls ++ later)
  rw [Runs.final_append] at hafter hnames
  generalize Runs.final (RunStore.step lib) .empty calls = db at *
  generalize Runs.final (RunStore.step lib) db later = db' at *
  refine ⟨hbefore, hextends.events, ?_⟩
  intro r row hrow
  obtain ⟨row', hrow', hgoes⟩ := hextends.runs r row hrow
  have htenant : row'.tenantId = row.tenantId := by
    rw [hgoes.request.1]
  refine ⟨row', hrow', htenant, ?_⟩
  intro n hn cursor hmarks
  have hsent := replay_of_gapless hafter hnames hrow' (hmarks.mono hextends.events)
  rw [htenant] at hsent
  -- what the client had is where the longer log begins
  have hlength : (db.eventsOf r).length = row.sequence := by
    have hcount := hbefore.length_eq r
    rwa [RunDatabase.sequenceOf, hrow] at hcount
  have hhad : (db.eventsOf r).take n = (db'.eventsOf r).take n := by
    have hprefix : db.eventsOf r <+: db'.eventsOf r := isPrefix_ofStream hextends.events r
    obtain ⟨rest, hrest⟩ := hprefix
    rw [← hrest, List.take_append_of_le_length (hlength ▸ hn)]
  have hnumbers : ((db'.eventsOf r).drop n).map (·.sequence)
      = List.range' (n + 1) (row'.sequence - n) := by
    have habove := hafter.map_above r n
    rwa [hafter.above_eq_drop, RunDatabase.sequenceOf, hrow'] at habove
  exact ⟨_, hsent, by rw [hhad, List.take_append_drop], hnumbers, sse_of_replay hsent⟩

end RunService

end AiSaas
