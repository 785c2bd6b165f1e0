import AiSaas.Kernel.Effects
import AiSaas.Lib.Logs
import Mathlib.Data.List.Chain

/-!
# The run ledger

`create_run`, `transition` and `append_event` write a run's row and its events.  The
events of a run carry the numbers one to its sequence, and the states they announce
lead from `queued` to the state of its row, as long as no payload and no event of a
caller's own announces another.

## Main definitions

* `LedgerCall`, `LedgerCall.apply` — the calls of the ledger.
* `announced`, `announcements` — the states that events announce.
* `Course` — states from `queued` along `_ALLOWED`.
* `LedgerCall.Plain` — a call that announces nothing of its own.

## Main results

* `LedgerCall.apply_cases` — what a call of the ledger does.
* `ledger_lawful` — numbering, announcements, final states and keys.
-/

namespace AiSaas.Kernel

open Relational Transaction NumberedLog

variable (host : Host)

/-! ### Calls -/

/-- A call of the ledger. -/
inductive LedgerCall where
  | createRun (args : NewRun)
  | transition (args : Move)
  | appendEvent (runId tenantId event : String) (payload : Mapping)

namespace LedgerCall

/-- The call as an operation of the store. -/
def op : LedgerCall → StoreOp
  | createRun args => .createRun args
  | transition args => .transition args
  | appendEvent runId tenantId event payload => .appendEvent runId tenantId event payload

/-- The database after a call, whether it returned or raised. -/
def apply (db : Database) (call : LedgerCall × Draw) : Database :=
  (call.1.op.exec host call.2 db).2

end LedgerCall

/-! ### Announcements -/

/-- The state of a text. -/
def RunState.ofText? (text : String) : Option RunState :=
  [queued, running, waitingApproval, planOnly, verified, quotaPaused, budgetExceeded, failed,
    rejected].find? fun s => decide (s.text = text)

/-- The state an event's payload states. -/
def statedState (payload : JsonText.Value) : Option RunState :=
  match payload with
  | .obj members =>
    match Mapping.get? (ofMembers members) "state" with
    | some (.str s) => RunState.ofText? s
    | _ => none
  | _ => none

/-- What an event announces: nothing, or a state that may not be one. -/
def announced (e : EventRow) : Option (Option RunState) :=
  if e.event = "run.queued" then some (some .queued)
  else if e.event = "run.state_changed" then some ((loads e.payloadJson).toOption.bind statedState)
  else none

/-- The states announced for a run, in the order of their events. -/
def announcements (runId : String) (db : Database) : List (Option RunState) :=
  (eventRows runId db).filterMap announced

/-- States from `queued` along `_ALLOWED` to `s`. -/
def Course (states : List (Option RunState)) (s : RunState) : Prop :=
  ∃ path : List RunState, states = path.map some ∧ path.head? = some .queued ∧
    path.IsChain (fun s s' => s' ∈ s.allowed) ∧ path.getLast? = some s

/-- A run's events carry the numbers one to its sequence, once each. -/
def Numbered (db : Database) : Prop :=
  ∀ row ∈ db.productRuns.rows,
    (eventRows row.runId db).map EventRow.sequence = List.range' 1 row.sequence

/-- A run's announcements lead to its state. -/
def Announced (db : Database) : Prop :=
  ∀ row ∈ db.productRuns.rows, Course (announcements row.runId db) row.state

/-! ### Calls that announce nothing of their own -/

/-- The payload of the event of a transition. -/
def Move.eventPayload (args : Move) : Mapping :=
  record [("state", .str args.state)] ++ args.safePayload host

/-- A transition's payload states no state but the one it is to, and its event is not
cut. -/
def Move.Plain (args : Move) : Prop :=
  (∀ ⦃v⦄, Mapping.get? (args.safePayload host) "state" = some v → v = .str args.state) ∧
    Fits host (.dict (args.eventPayload host))

/-- The run may move, and its result with the payload is not cut. -/
def Move.Accepted (args : Move) (db : Database) : Prop :=
  ∃ row value members, ownedRow args.runId args.tenantId db = .ok row ∧
    (target? row args.state).isSome = true ∧
    loads (textOr row.resultJson "\x7b\x7d") = .ok value ∧ asDict value = .ok members ∧
    Fits host (.dict (members ++ args.safePayload host))

/-- A call that announces nothing of its own. -/
def LedgerCall.Plain (db : Database) : LedgerCall → Prop
  | createRun _ => True
  | transition args => args.Accepted host db → args.Plain host
  | appendEvent runId tenantId event _ =>
    (∃ row, ownedRow runId tenantId db = .ok row) → event ≠ "run.queued" ∧ event ≠ "run.state_changed"

variable {host}

theorem RunState.ofText?_text (s : RunState) : RunState.ofText? s.text = some s := by
  cases s <;> decide

/-- The text of a state has nothing to redact. -/
theorem redactText_state (alnum : Char → Bool) (s : RunState) : redactText alnum s.text = s.text := by
  have hchars : redactChars alnum s.text.toList = s.text.toList := by cases s <;> rfl
  rw [redactText, hchars, String.ofList_toList]

/-- A plain transition announces the state it is to. -/
theorem Move.Plain.stated {args : Move} {s : RunState} (h : args.Plain host)
    (hs : s.text = args.state) :
    statedState (toJson (redact host (.dict (args.eventPayload host)))) = some s := by
  have hstate : Mapping.get? (redactEntries host (args.eventPayload host)) "state"
      = some (.str args.state) := by
    have hpayload : redactEntries host (args.safePayload host) = args.safePayload host :=
      redactEntries_redactEntries host _
    rw [Move.eventPayload, redactEntries_append, hpayload, Mapping.get?_append]
    cases hget : Mapping.get? (args.safePayload host) "state" with
    | some v => rw [h.1 hget]; rfl
    | none =>
      change some (Value.str (redactText host.alnum args.state)) = _
      rw [← hs, redactText_state]
  change statedState (.obj (sortMembers (toMembers (redactEntries host (args.eventPayload host))))) = _
  rw [statedState, get?_stored, hstate, ← hs]
  exact s.ofText?_text

/-! ### What a call does -/

/-- The sequence of a run, zero before it is there. -/
def count (db : Database) (runId : String) : ℕ :=
  ((db.productRuns.find? runId).map RunRow.sequence).getD 0

/-- A run's row was written together with its next event. -/
structure Logged (db db' : Database) (row : RunRow) (e : EventRow) : Prop where
  runId : e.runId = row.runId
  runs : ∀ x, db'.productRuns.find? x
    = if x = row.runId then some row else db.productRuns.find? x
  events : db'.productEvents.rows = db.productEvents.rows ++ [e]
  last : row.sequence = e.sequence
  next : e.sequence = count db row.runId + 1

variable (host) in
/-- What a call of the ledger can do. -/
inductive LedgerStep (db : Database) : LedgerCall → Database → Prop where
  | idle (call : LedgerCall) : LedgerStep db call db
  | created {args : NewRun} {row : RunRow} {e : EventRow} {db' : Database}
      (logged : Logged db db' row e) (new : db.productRuns.find? row.runId = none)
      (free : db.productRuns.findBy? row.requestKey = none)
      (event : e.event = "run.queued") (state : row.state = .queued) :
      LedgerStep db (.createRun args) db'
  | moved {args : Move} {row row' : RunRow} {e : EventRow} {db' : Database}
      (logged : Logged db db' row' e) (found : db.productRuns.find? args.runId = some row)
      (runId : row'.runId = row.runId) (key : row'.requestKey = row.requestKey)
      (allowed : row'.state ∈ row.state.allowed) (named : row'.state.text = args.state)
      (event : e.event = "run.state_changed")
      (encoded : safeJson host (.dict (args.eventPayload host)) = .ok e.payloadJson)
      (accepted : args.Accepted host db) : LedgerStep db (.transition args) db'
  | appended {runId tenantId event : String} {payload : Mapping} {row row' : RunRow} {e : EventRow}
      {db' : Database} (logged : Logged db db' row' e)
      (found : db.productRuns.find? runId = some row) (owned : row.tenantId = tenantId)
      (same : row' = { row with sequence := row'.sequence, updatedAt := row'.updatedAt })
      (named : e.event = event) : LedgerStep db (.appendEvent runId tenantId event payload) db'

theorem count_of_found {db : Database} {row : RunRow} (h : db.productRuns.find? row.runId = some row) :
    count db row.runId = row.sequence := by
  rw [count, h]
  rfl

theorem createRun_step {args : NewRun} {d : Draw} {db db' : Database} {run : RunLifecycle}
    (h : createRun host args d db = .ok (run, db')) : LedgerStep host db (.createRun args) db' := by
  obtain ⟨snapshot, hash, -, -, -, ⟨-, -, -, -, rfl⟩ | ⟨hfree, row, stored, hrow, -, -⟩⟩ :=
    createRun_eq_ok h
  · exact .idle _
  · obtain ⟨text, productRuns, productEvents, -, hruns, hevents, hlink⟩ := hrow.tables
    have htables : db'.productRuns = productRuns ∧ db'.productEvents = productEvents := by
      obtain ⟨-, rfl⟩ | ⟨_, -, -, -, -, -, rfl⟩ := linkProposal_eq_ok hlink
      · exact ⟨rfl, rfl⟩
      · exact ⟨rfl, rfl⟩
    have hnew : db.productRuns.find? row.runId = none :=
      Table.find?_eq_none.mpr (Table.insert?_eq_some hruns).2.2.1
    have hcount : count db row.runId = 0 := by
      rw [count, hnew]
      rfl
    obtain ⟨hrows, -⟩ := Table.insert?_eq_some hevents
    refine .created ⟨hrow.runId.symm, ?_, htables.2 ▸ hrows, hrow.sequence, ?_⟩ hnew ?_ rfl hrow.state
    · intro x
      rw [htables.1, Table.find?_insert hruns]
      by_cases hx : x = row.runId
      · rw [if_pos hx, if_pos hx.symm]
      · rw [if_neg hx, if_neg (Ne.symm hx)]
    · rw [hcount]
      rfl
    · rw [RunRow.requestKey, hrow.tenantId, hrow.idempotencyKey]
      exact hfree

theorem transition_step {args : Move} {d : Draw} {db db' : Database} {run : RunLifecycle}
    (h : transition host args d db = .ok (run, db')) : LedgerStep host db (.transition args) db' := by
  obtain ⟨row, state, text, row', hmoved, hrun, -⟩ := transition_eq_ok h
  obtain ⟨value, members, resultJson, approvalId, hvalue, hmembers, hresult, rfl⟩ := hmoved.result
  have hid : row.runId = args.runId := (Table.find?_eq_some.mp hmoved.found).2
  have hfound : db.productRuns.find? row.runId = some row := hid.symm ▸ hmoved.found
  have hfits : Fits host (.dict (members ++ args.safePayload host)) := by
    by_contra hcut
    -- the row is read again before the transaction ends
    obtain ⟨hne, hloads⟩ := loads_cut hcut hresult
    have htext : textOr resultJson "\x7b\x7d" = resultJson := if_neg hne
    rw [lifecycle] at hrun
    change (loads (textOr resultJson "\x7b\x7d")).map _ = _ at hrun
    rw [htext, hloads] at hrun
    cases hrun
  have htarget : (target? row args.state).isSome = true :=
    List.find?_isSome.mpr ⟨state, hmoved.allowed, decide_eq_true hmoved.named⟩
  refine @LedgerStep.moved host db args row (row.moved host d args state approvalId resultJson) _ db'
    ⟨hid.symm, ?_, (Table.insert?_eq_some hmoved.inserted).1, rfl, ?_⟩ hmoved.found rfl rfl
    hmoved.allowed hmoved.named rfl hmoved.encoded
    ⟨row, value, members, ownedRow_eq_ok.mpr ⟨hmoved.found, hmoved.tenant⟩, htarget, hvalue, hmembers,
      hfits⟩
  · intro x
    rw [hmoved.rows]
    change _ = if x = row.runId then _ else _
    rw [hid]
  · change row.sequence + 1 = count db row.runId + 1
    rw [count_of_found hfound]

theorem appendEvent_step {r t event : String} {payload : Mapping} {d : Draw} {db db' : Database}
    {u : Unit} (h : appendEvent host r t event payload d db = .ok (u, db')) :
    LedgerStep host db (.appendEvent r t event payload) db' := by
  obtain ⟨row, text, productRuns, productEvents, hfound, htenant, -, hevents, hruns, rfl⟩ :=
    appendEvent_eq_ok h
  have hid : row.runId = r := (Table.find?_eq_some.mp hfound).2
  refine @LedgerStep.appended host db r t event payload row
    { row with sequence := row.sequence + 1, updatedAt := host.isoformat (d.now 1) } _ _
    ⟨hid.symm, ?_, (Table.insert?_eq_some hevents).1, rfl, ?_⟩ hfound htenant rfl rfl
  · intro x
    change productRuns.find? x = if x = row.runId then _ else _
    rw [hruns, hid]
  · change row.sequence + 1 = count db row.runId + 1
    rw [count_of_found (hid.symm ▸ hfound)]

/-- **What a call of the ledger does**: nothing, or one row and its next event. -/
theorem LedgerCall.apply_cases (db : Database) (call : LedgerCall × Draw) :
    LedgerStep host db call.1 (LedgerCall.apply host db call) := by
  obtain ⟨call, d⟩ := call
  cases call with
  | createRun args =>
    obtain ⟨run, db', hok, hdb⟩ | ⟨e, -, hdb⟩ := atomically_cases (Kernel.createRun host args d) db
    · change LedgerStep host db _ (atomically _ db).2
      rw [hdb]
      exact createRun_step hok
    · change LedgerStep host db _ (atomically _ db).2
      rw [hdb]
      exact .idle _
  | transition args =>
    obtain ⟨run, db', hok, hdb⟩ | ⟨e, -, hdb⟩ := atomically_cases (Kernel.transition host args d) db
    · change LedgerStep host db _ (atomically _ db).2
      rw [hdb]
      exact transition_step hok
    · change LedgerStep host db _ (atomically _ db).2
      rw [hdb]
      exact .idle _
  | appendEvent r t event payload =>
    obtain ⟨u, db', hok, hdb⟩ | ⟨e, -, hdb⟩ :=
      atomically_cases (Kernel.appendEvent host r t event payload d) db
    · change LedgerStep host db _ (atomically _ db).2
      rw [hdb]
      exact appendEvent_step hok
    · change LedgerStep host db _ (atomically _ db).2
      rw [hdb]
      exact .idle _

/-! ### Numbering -/

/-- Every run's events are numbered from one to its sequence, in the order they were
written. -/
def Counted (db : Database) : Prop :=
  Gapless EventRow.runId EventRow.sequence db.productEvents.rows (count db)

section Counting

variable {db db' : Database} {row : RunRow} {e : EventRow}

theorem counted_empty : Counted Database.empty := fun _ => rfl

theorem Logged.count_eq (h : Logged db db' row e) (x : String) :
    count db' x = if x = e.runId then count db x + 1 else count db x := by
  rw [count, h.runs, h.runId]
  by_cases hx : x = row.runId
  · subst hx
    rw [if_pos rfl, if_pos rfl, Option.map_some, Option.getD_some, h.last, h.next]
  · rw [if_neg hx, if_neg hx, count]

theorem Logged.counted (h : Logged db db' row e) (hdb : Counted db) : Counted db' := by
  rw [Counted, h.events]
  exact hdb.concat (h.runId ▸ h.next) h.count_eq

theorem LedgerStep.counted {call : LedgerCall} (h : LedgerStep host db call db')
    (hdb : Counted db) : Counted db' := by
  cases h with
  | idle => exact hdb
  | created logged => exact logged.counted hdb
  | moved logged => exact logged.counted hdb
  | appended logged => exact logged.counted hdb

/-- The events of a run are read in the order they were written. -/
theorem Counted.eventRows_eq (h : Counted db) (runId : String) :
    eventRows runId db = ofStream EventRow.runId runId db.productEvents.rows := by
  apply List.mergeSort_of_pairwise
  have hlt : ((ofStream EventRow.runId runId db.productEvents.rows).map EventRow.sequence).Pairwise
      (· < ·) := by
    rw [h runId]
    exact List.pairwise_lt_range'
  exact (List.pairwise_map.mp hlt).imp fun hab => decide_eq_true (Nat.le_of_lt hab)

theorem Counted.numbered (h : Counted db) : Numbered db := by
  intro row hrow
  rw [h.eventRows_eq, h row.runId, count_of_found (Table.find?_of_mem hrow)]

end Counting

/-! ### Courses -/

section Courses

variable {db db' : Database} {row : RunRow} {e : EventRow} {states : List (Option RunState)}
  {s s' : RunState}

theorem Course.concat (h : Course states s) (hs : s' ∈ s.allowed) :
    Course (states ++ [some s']) s' := by
  obtain ⟨path, rfl, hfirst, hchain, hlast⟩ := h
  refine ⟨path ++ [s'], by simp, ?_, ?_, List.getLast?_concat⟩
  · rw [List.head?_append, hfirst]
    rfl
  · refine hchain.append (List.isChain_singleton s') ?_
    intro x hx y hy
    rw [hlast] at hx
    obtain rfl := Option.some.inj hx
    obtain rfl := Option.some.inj hy
    exact hs

theorem Logged.announcements_eq (h : Logged db db' row e) (hdb : Counted db) (runId : String) :
    announcements runId db'
      = announcements runId db ++ if runId = row.runId then (announced e).toList else [] := by
  rw [announcements, announcements, (h.counted hdb).eventRows_eq, hdb.eventRows_eq, h.events,
    ofStream_concat, List.filterMap_append, h.runId]
  by_cases hx : runId = row.runId
  · rw [if_pos hx, if_pos hx.symm, List.filterMap_cons]
    cases announced e <;> rfl
  · rw [if_neg hx, if_neg (Ne.symm hx)]
    rfl

/-- The rows of a database after a run's row was written. -/
theorem Logged.row_cases (h : Logged db db' row e) {r : RunRow} (hr : r ∈ db'.productRuns.rows) :
    r = row ∨ r.runId ≠ row.runId ∧ r ∈ db.productRuns.rows := by
  have hfind := Table.find?_of_mem hr
  rw [h.runs] at hfind
  by_cases hx : r.runId = row.runId
  · rw [if_pos hx] at hfind
    exact Or.inl (Option.some.inj hfind).symm
  · rw [if_neg hx] at hfind
    exact Or.inr ⟨hx, (Table.find?_eq_some.mp hfind).1⟩

/-- Announcements stay in order when the written row's do. -/
theorem Logged.announced (h : Logged db db' row e) (hcount : Counted db) (hdb : Announced db)
    (hrow : Course (announcements row.runId db ++ (Kernel.announced e).toList) row.state) :
    Announced db' := by
  intro r hr
  rw [h.announcements_eq hcount]
  rcases h.row_cases hr with rfl | ⟨hne, hr⟩
  · rw [if_pos rfl]
    exact hrow
  · rw [if_neg hne, List.append_nil]
    exact hdb r hr

/-- **A plain call keeps every run's announcements a course.** -/
theorem LedgerStep.announced {call : LedgerCall} (h : LedgerStep host db call db')
    (hplain : call.Plain host db) (hcount : Counted db) (hdb : Announced db) : Announced db' := by
  cases h with
  | idle => exact hdb
  | @created args row e _ logged new free event state =>
    apply logged.announced hcount hdb
    have hnone : announcements row.runId db = [] := by
      have hlength := hcount.length_eq row.runId
      rw [count, new] at hlength
      rw [announcements, hcount.eventRows_eq, List.eq_nil_of_length_eq_zero hlength]
      rfl
    rw [hnone, Kernel.announced, if_pos event, state]
    exact ⟨[.queued], rfl, rfl, List.isChain_singleton _, rfl⟩
  | @moved args row row' e _ logged found runId key allowed named event encoded accepted =>
    apply logged.announced hcount hdb
    have hargs := hplain accepted
    have hstated : Kernel.announced e = some (some row'.state) := by
      rw [Kernel.announced, event, if_neg (by decide), if_pos rfl, loads_safeJson hargs.2 encoded]
      exact congrArg some (hargs.stated named)
    rw [hstated, runId]
    exact (hdb row (Table.find?_eq_some.mp found).1).concat allowed
  | @appended runId tenantId event payload row row' e _ logged found owned same named =>
    apply logged.announced hcount hdb
    have hnames := hplain ⟨row, ownedRow_eq_ok.mpr ⟨found, owned⟩⟩
    have hnothing : Kernel.announced e = none := by
      rw [Kernel.announced, named, if_neg hnames.1, if_neg hnames.2]
    rw [hnothing, same, Option.toList_none, List.append_nil]
    exact hdb row (Table.find?_eq_some.mp found).1

end Courses

/-! ### Rows that stay -/

/-- Every run stays under its key, and where it has come to an end. -/
def Stays (db db' : Database) : Prop :=
  ∀ ⦃row⦄, row ∈ db.productRuns.rows → ∃ row' ∈ db'.productRuns.rows, row'.runId = row.runId ∧
    row'.requestKey = row.requestKey ∧ (row.state.terminal = true → row'.state = row.state)

theorem stays_refl (db : Database) : Stays db db := fun row hrow =>
  ⟨row, hrow, rfl, rfl, fun _ => rfl⟩

theorem Stays.trans {db db' db'' : Database} (h : Stays db db') (h' : Stays db' db'') :
    Stays db db'' := by
  intro row hrow
  obtain ⟨row', hrow', hid, hkey, hstate⟩ := h hrow
  obtain ⟨row'', hrow'', hid', hkey', hstate'⟩ := h' hrow'
  refine ⟨row'', hrow'', hid'.trans hid, hkey'.trans hkey, fun hend => ?_⟩
  have hend' : row'.state.terminal = true := (hstate hend).symm ▸ hend
  exact (hstate' hend').trans (hstate hend)

theorem Logged.stays {db db' : Database} {row row' : RunRow} {e : EventRow}
    (h : Logged db db' row' e) (hold : ∀ r, db.productRuns.find? row'.runId = some r → r = row)
    (hkey : row'.requestKey = row.requestKey)
    (hstate : row.state.terminal = true → row'.state = row.state) : Stays db db' := by
  intro r hr
  have hfind := Table.find?_of_mem hr
  by_cases hx : r.runId = row'.runId
  · obtain rfl := hold r (hx ▸ hfind)
    refine ⟨row', ?_, hx.symm, hkey, hstate⟩
    have hrow := h.runs row'.runId
    rw [if_pos rfl] at hrow
    exact (Table.find?_eq_some.mp hrow).1
  · refine ⟨r, ?_, rfl, rfl, fun _ => rfl⟩
    have hrow := h.runs r.runId
    rw [if_neg hx, hfind] at hrow
    exact (Table.find?_eq_some.mp hrow).1

theorem LedgerStep.stays {db db' : Database} {call : LedgerCall} (h : LedgerStep host db call db') :
    Stays db db' := by
  cases h with
  | idle => exact stays_refl db
  | @created args row e _ logged new =>
    have hold : ∀ r, db.productRuns.find? row.runId = some r → r = row := fun r hr => by
      rw [new] at hr
      cases hr
    exact logged.stays hold rfl fun _ => rfl
  | @moved args row row' e _ logged found runId key allowed named event encoded accepted =>
    refine logged.stays (fun r hr => ?_) key fun hend => ?_
    · rw [runId, (Table.find?_eq_some.mp found).2, found] at hr
      exact (Option.some.inj hr).symm
    · rw [RunState.terminal, List.isEmpty_iff] at hend
      rw [hend] at allowed
      cases allowed
  | @appended runId tenantId event payload row row' e _ logged found owned same named =>
    have hid : row'.runId = row.runId := by rw [same]
    have hold : ∀ r, db.productRuns.find? row'.runId = some r → r = row := fun r hr => by
      rw [hid, (Table.find?_eq_some.mp found).2, found] at hr
      exact (Option.some.inj hr).symm
    exact logged.stays hold (by rw [same]; rfl) fun _ => by rw [same]

/-! ### Runs of calls -/

/-- **The run ledger.**  However calls follow each other, returning or raising, a run's
events are numbered from one to its sequence; a run stays under its key, no other run
comes to be under it, and a run that has come to an end stays there.  If every call is
plain, the states announced for a run lead from `queued` along `_ALLOWED` to its state. -/
theorem ledger_lawful (host : Host) (before after : List (LedgerCall × Draw)) :
    let db := Runs.final (LedgerCall.apply host) Database.empty before
    let db' := Runs.final (LedgerCall.apply host) Database.empty (before ++ after)
    Numbered db' ∧
      (∀ row ∈ db.productRuns.rows, ∃ row' ∈ db'.productRuns.rows, row'.runId = row.runId ∧
        row'.requestKey = row.requestKey ∧ (row.state.terminal = true → row'.state = row.state) ∧
        ∀ other ∈ db'.productRuns.rows, other.requestKey = row.requestKey → other = row') ∧
      (Runs.Along (LedgerCall.apply host) (fun db call => call.1.Plain host db) Database.empty
        (before ++ after) → Announced db') := by
  intro db db'
  have hcounted : Counted db' := Runs.invariant (I := Counted) counted_empty
    (fun s c hs => (LedgerCall.apply_cases s c).counted hs) _
  refine ⟨hcounted.numbered, ?_, ?_⟩
  · have hstays : Stays db db' := by
      change Stays db (Runs.final _ Database.empty (before ++ after))
      rw [Runs.final_append]
      exact Runs.rel_final (I := fun _ => True) stays_refl Stays.trans (fun _ _ _ => trivial)
        (fun s c _ => (LedgerCall.apply_cases s c).stays) trivial after
    intro row hrow
    obtain ⟨row', hrow', hid, hkey, hstate⟩ := hstays hrow
    refine ⟨row', hrow', hid, hkey, hstate, ?_⟩
    intro other hother hsame
    exact Table.eq_of_uk hother hrow' (hsame.trans hkey.symm)
  · intro hplain
    have hboth := hplain.invariant (I := fun db => Counted db ∧ Announced db)
      ⟨counted_empty, fun row hrow => absurd hrow List.not_mem_nil⟩
      fun s c hc hs => ⟨(LedgerCall.apply_cases s c).counted hs.1,
        (LedgerCall.apply_cases s c).announced hc hs.1 hs.2⟩
    exact hboth.2

/-- A run is queued, and then moved with a payload. -/
def movingCalls (payload : Option Mapping) : List (LedgerCall × Draw) :=
  [(.createRun ⟨"run-1", "tenant-1", "key-1", "verify", [], none, none, none⟩, sampleDraw 0 "a"),
    (.transition ⟨"run-1", "tenant-1", "running", payload, none⟩, sampleDraw 0 "b")]

/-- A run that is moved without a payload has announced where it is. -/
theorem ledger_lawful_moved :
    Announced (Runs.final (LedgerCall.apply sampleHost) Database.empty (movingCalls none)) := by
  refine (ledger_lawful sampleHost [] (movingCalls none)).2.2 ⟨trivial, fun _ => ⟨?_, ?_⟩, trivial⟩
  · intro v hv
    cases hv
  · change Fits sampleHost (.dict (record [("state", .str "running")] ++ []))
    decide +kernel

/-- A payload that states another state than the one the run moves to. -/
def forgingCalls : List (LedgerCall × Draw) :=
  movingCalls (some (record [("state", .str "verified")]))

/-- The payload of a transition can announce a state that the run is not in. -/
theorem payload_forges_state :
    ¬ Announced (Runs.final (LedgerCall.apply sampleHost) Database.empty forgingCalls) := by
  intro h
  have hcounted : Counted (Runs.final (LedgerCall.apply sampleHost) Database.empty forgingCalls) :=
    Runs.invariant (I := Counted) counted_empty
      (fun s c hs => (LedgerCall.apply_cases s c).counted hs) _
  have hrows : (Runs.final (LedgerCall.apply sampleHost) Database.empty forgingCalls).productRuns.rows.map
      (fun row => (row.runId, row.state)) = [("run-1", .running)] := by decide +kernel
  have hstates : (ofStream EventRow.runId "run-1" (Runs.final (LedgerCall.apply sampleHost)
      Database.empty forgingCalls).productEvents.rows).filterMap announced
        = [some .queued, some .verified] := by decide +kernel
  have hmem : ("run-1", RunState.running) ∈ (Runs.final (LedgerCall.apply sampleHost) Database.empty
      forgingCalls).productRuns.rows.map fun row => (row.runId, row.state) := by
    rw [hrows]
    exact List.mem_cons_self
  obtain ⟨row, hrow, heq⟩ := List.mem_map.mp hmem
  obtain ⟨hid, hstate⟩ := Prod.mk.inj heq
  obtain ⟨path, hpath, -, -, hlast⟩ := h row hrow
  rw [announcements, hcounted.eventRows_eq, hid, hstates] at hpath
  have hlast' : (path.map some).getLast? = some (some RunState.running) := by
    rw [List.getLast?_map, hlast, hstate]
    rfl
  rw [← hpath] at hlast'
  cases hlast'

end AiSaas.Kernel
