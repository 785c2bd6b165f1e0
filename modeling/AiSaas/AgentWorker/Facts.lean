import AiSaas.AgentWorker.Trails
import AiSaas.Metering.Lifecycle
import AiSaas.RunService.Replay

/-!
# What answers tell

An answer was read off the tables, and the tables only go on: a run keeps its
request, its reservation and its end, a reservation never leaves its end, and the
rows of the logs stay.  So what an answer told of them then, it tells now.

## Main definitions

* `RunWorld.Later` — what holds between a state and a later one.
* `Known` — a run as it was answered, and its row now.
* `Tells` — what each answer tells of the tables.
* `Sound` — a pool whose processes are on their trails and whose answers still hold.

## Main results

* `later_exec`, `Tells.mono` — an operation leads to a later state, where every
  answer tells what it told.
* `tells_exec` — the answer to an operation tells it of the tables it leaves.
* `run_invariant` — the induction rule for the run services.
-/

namespace AiSaas

open Relational Transaction Processes

/-- The run store and the ledger go on. -/
structure RunWorld.Later (w w' : RunWorld) : Prop where
  runs : RunStore.Extends w.runs w'.runs
  ledger : CreditLedger.Later w.ledger w'.ledger

/-- The row a run was answered from goes on as the row that is there now. -/
def Known (w : RunWorld) (run : Run) : Prop :=
  ∃ before now, run = before.toRun ∧ w.runs.runs.find? run.runId = some now ∧
    RunStore.Continues before now

/-- What an answer tells of the tables. -/
def Tells (w : RunWorld) : Answered → Prop
  | ⟨.runs (.create _ request), .ok (run, _)⟩ => Known w run ∧
    (run.tenantId, run.idempotencyKey) = (request.tenantId, request.idempotencyKey)
  | ⟨.runs (.attachReservation r id), .ok run⟩ => Known w run ∧ Run.runId run = r ∧
    Run.reservationId run = some id
  | ⟨.runs (.get r _), .ok run⟩ | ⟨.runs (.claim r), .ok run⟩
  | ⟨.runs (.transition r _ _), .ok run⟩ | ⟨.runs (.markCancelRequested r _), .ok run⟩
  | ⟨.runs (.approve r _), .ok run⟩ | ⟨.runs (.fail r _), .ok run⟩
  | ⟨.runs (.pauseQuota r _ _), .ok run⟩ | ⟨.runs (.complete r _), .ok run⟩ =>
    Known w run ∧ Run.runId run = r
  | ⟨.reserve _ _ r _ key, .ok res⟩ => ∃ row : ReservationRow,
    w.ledger.reservations.find? (CreditReservation.reservationId res) = some row ∧
      row.runId = r ∧ row.idempotencyKey = key
  | ⟨.release id key, .ok _⟩ => CreditLedger.Done w.ledger (.release id key)
  | ⟨.commit id u key, .ok _⟩ => CreditLedger.Done w.ledger (.commit id u key)
  | _ => True

variable {lib : RunLibrary} {policy : QuotaPolicy} {w w' w'' : RunWorld} {drawn : Drawn}

theorem RunWorld.Later.refl (w : RunWorld) : w.Later w :=
  ⟨RunStore.Extends.refl w.runs, CreditLedger.Later.refl w.ledger⟩

theorem Known.mono {run : Run} (hlater : w.Later w') (h : Known w run) : Known w' run := by
  obtain ⟨before, now, hrun, hnow, hgoes⟩ := h
  obtain ⟨now', hnow', hgoes'⟩ := hlater.runs.runs run.runId now hnow
  exact ⟨before, now', hrun, hnow', hgoes.trans hgoes'⟩

/-- **What an answer told holds in every later state.** -/
theorem Tells.mono {e : Answered} (hlater : w.Later w') (h : Tells w e) : Tells w' e := by
  obtain ⟨op, answer⟩ := e
  cases answer with
  | error e => cases op <;> first | trivial | (rename_i call; cases call <;> trivial)
  | ok a =>
    cases op with
    | runs call =>
      cases call with
      | create | attachReservation => exact ⟨h.1.mono hlater, h.2⟩
      | get | claim | transition | markCancelRequested | approve | fail | pauseQuota | complete =>
        exact ⟨h.1.mono hlater, h.2⟩
      | saveCheckpoint | checkpoint | appendToken => trivial
    | reserve t acc r u key =>
      obtain ⟨row, hrow, hrun, hkey⟩ := h
      obtain ⟨row', hrow', -, hkept⟩ := hlater.ledger.reservations _ row hrow
      exact ⟨row', hrow', (congrArg (·.runId) hkept).trans hrun,
        (congrArg (·.idempotencyKey) hkept).trans hkey⟩
    | release id key =>
      have hdone : CreditLedger.Done w.ledger (.release id key) := h
      exact hlater.ledger.done hdone
    | commit id u key =>
      have hdone : CreditLedger.Done w.ledger (.commit id u key) := h
      exact hlater.ledger.done hdone
    | _ => trivial

/-! ### Operations lead to later states -/

/-- What the operations on the ledger leave is what a call of the ledger leaves. -/
theorem exec_ledger (lib : RunLibrary) (policy : QuotaPolicy) (drawn : Drawn) (op : Op)
    (w : RunWorld) : (RunWorld.exec lib policy drawn op w).2.ledger = w.ledger ∨
      ∃ call, (RunWorld.exec lib policy drawn op w).2.ledger
        = CreditLedger.step w.ledger (drawn.env, call) := by
  cases op with
  | reserve t a r u key =>
    exact Or.inr ⟨.reserve t a r u key, (snd_atomically_map _ _ _).symm⟩
  | release id key => exact Or.inr ⟨.release id key, (snd_atomically_map _ _ _).symm⟩
  | commit id u key => exact Or.inr ⟨.commit id u key, (snd_atomically_map _ _ _).symm⟩
  | _ => exact Or.inl rfl

/-- What the operations leave of the run store is what a call of the store leaves. -/
theorem exec_runs (lib : RunLibrary) (policy : QuotaPolicy) (drawn : Drawn) (op : Op)
    (w : RunWorld) : (RunWorld.exec lib policy drawn op w).2.runs = w.runs ∨
      ∃ call, op = .runs call ∧ (RunWorld.exec lib policy drawn op w).2.runs
        = RunStore.step lib w.runs (drawn.env, call) := by
  cases op with
  | runs call => exact Or.inr ⟨call, rfl, rfl⟩
  | _ => exact Or.inl rfl

/-- **An operation leads to a later state.** -/
theorem later_exec (lib : RunLibrary) (policy : QuotaPolicy) (drawn : Drawn) (op : Op)
    (w : RunWorld) : w.Later (RunWorld.exec lib policy drawn op w).2 := by
  constructor
  · rcases exec_runs lib policy drawn op w with hsame | ⟨call, -, hstep⟩
    · rw [hsame]
      exact RunStore.Extends.refl w.runs
    · rw [hstep]
      exact RunStore.extends_step lib w.runs (drawn.env, call)
  · rcases exec_ledger lib policy drawn op w with hsame | ⟨call, hstep⟩
    · rw [hsame]
      exact CreditLedger.Later.refl w.ledger
    · rw [hstep]
      exact CreditLedger.later_step w.ledger (drawn.env, call)

theorem settled_exec (drawn : Drawn) (op : Op) (h : CreditLedger.Settled w.ledger) :
    CreditLedger.Settled (RunWorld.exec lib policy drawn op w).2.ledger := by
  rcases exec_ledger lib policy drawn op w with hsame | ⟨call, hstep⟩
  · rwa [hsame]
  · rw [hstep]
    exact CreditLedger.settled_step w.ledger (drawn.env, call) h

/-! ### Answers tell what is there -/

/-- A row that was just written, or read, is known. -/
theorem known_of_find {row : RunRow} {r : String} (h : w.runs.runs.find? r = some row) :
    Known w row.toRun ∧ row.toRun.runId = r := by
  have hid : row.runId = r := (Table.find?_eq_some.mp h).2
  exact ⟨⟨row, row, rfl, hid.symm ▸ h, RunStore.Continues.refl row⟩, hid⟩

/-- The row a write leaves is found. -/
theorem known_of_sets {db : RunDatabase} {row row' : RunRow}
    (hsets : RunStore.Sets db row row' w.runs) :
    Known w row'.toRun ∧ row'.toRun.runId = row.runId :=
  known_of_find ((hsets row.runId).trans (if_pos rfl))

/-- **The answer of a call of the run store tells what is there.** -/
theorem tells_runs {call : RunStore.Call} {answer : call.Answer} {db : RunDatabase}
    (h : call.body lib drawn.env db = .ok (answer, w.runs)) : Tells w ⟨.runs call, .ok answer⟩ := by
  cases call with
  | create r q =>
    obtain ⟨run, created⟩ := answer
    obtain ⟨row, hrow, -, rfl, -, hdb⟩ | ⟨runs, runEvents, -, hins, -, rfl, -, hdb⟩ :=
      RunStore.create_eq_ok h
    · obtain ⟨hmem, hkey⟩ := Table.findBy?_eq_some.mp hrow
      exact ⟨(known_of_find (hdb ▸ Table.find?_of_mem hmem)).1, hkey⟩
    · have hfind : w.runs.runs.find? r = some (RunStore.newRun lib drawn.env r q) := by
        rw [hdb]
        exact (Table.find?_insert hins r).trans (if_pos rfl)
      exact ⟨(known_of_find hfind).1, rfl⟩
  | get r t =>
    obtain ⟨run, hget, h⟩ := bind_eq_ok.mp h
    obtain ⟨hrun, hdb⟩ := Prod.mk.inj (Except.ok.inj h)
    simp only [RunStore.get, bind_eq_ok, RunStore.rowLocked_eq_ok] at hget
    obtain ⟨row, hrow, -, -, hget⟩ := hget
    obtain rfl : row.toRun = run := Except.ok.inj hget
    subst hrun
    exact known_of_find (hdb ▸ hrow)
  | attachReservation r id =>
    obtain ⟨row, row', hrow, -, hafter, hsets, -, -, hrun⟩ := RunStore.attachReservation_eq_ok h
    obtain ⟨-, rfl⟩ := Table.find?_eq_some.mp hrow
    subst hrun
    obtain ⟨hknown, hid⟩ := known_of_sets hsets
    exact ⟨hknown, hid, by rw [hafter]⟩
  | claim r =>
    obtain ⟨row, row', hrow, hrun, hclaim⟩ := RunStore.claim_eq_ok h
    obtain ⟨-, rfl⟩ := Table.find?_eq_some.mp hrow
    subst hrun
    rcases hclaim with ⟨-, -, rfl, hdb⟩ | ⟨-, -, hsets, -⟩ | ⟨-, -, hlogs, -⟩
    · exact known_of_find (hdb ▸ hrow)
    · exact known_of_sets hsets
    · exact known_of_sets hlogs.sets
  | transition r state payload | fail r reason =>
    obtain ⟨row, row', hrow, -, hmoves, hrun⟩ := RunStore.transition_eq_ok h
    obtain ⟨-, rfl⟩ := Table.find?_eq_some.mp hrow
    subst hrun
    exact known_of_sets hmoves.logs.sets
  | markCancelRequested r t =>
    obtain ⟨row, row', hrow, -, hrun, hcancel⟩ := RunStore.markCancelRequested_eq_ok h
    obtain ⟨-, rfl⟩ := Table.find?_eq_some.mp hrow
    subst hrun
    rcases hcancel with ⟨-, rfl, hdb⟩ | ⟨-, -, hmoves⟩ | ⟨-, -, hlogs, -⟩
    · exact known_of_find (hdb ▸ hrow)
    · exact known_of_sets hmoves.logs.sets
    · exact known_of_sets hlogs.sets
  | approve r t =>
    obtain ⟨row, row', hrow, -, -, hmoves, hrun⟩ := RunStore.approve_eq_ok h
    obtain ⟨-, rfl⟩ := Table.find?_eq_some.mp hrow
    subst hrun
    exact known_of_sets hmoves.logs.sets
  | pauseQuota r d n =>
    obtain ⟨-, -, h⟩ := bind_eq_ok.mp h
    obtain ⟨row, row', hrow, -, hmoves, hrun⟩ := RunStore.transition_eq_ok h
    obtain ⟨-, rfl⟩ := Table.find?_eq_some.mp hrow
    subst hrun
    exact known_of_sets hmoves.logs.sets
  | complete r n =>
    obtain ⟨row, row', hrow, -, -, hlogs, -, hrun⟩ := RunStore.complete_eq_ok h
    obtain ⟨-, rfl⟩ := Table.find?_eq_some.mp hrow
    subst hrun
    exact known_of_sets hlogs.sets
  | saveCheckpoint | checkpoint | appendToken => trivial

/-- The reservation `reserve` answers with is there, under its key. -/
theorem tells_reserve {t a r key : String} {u : ℤ} {res : CreditReservation} {db : Database}
    (h : CreditLedger.reserve drawn.env t a r u key db = .ok (res, w.ledger)) :
    ∃ row : ReservationRow, w.ledger.reservations.find? res.reservationId = some row ∧
      row.runId = r ∧ row.idempotencyKey = key := by
  simp only [CreditLedger.reserve, bind_eq_ok] at h
  obtain ⟨⟨⟩, -, h⟩ := h
  cases hk : db.reservations.findBy? key with
  | some existing =>
    simp only [hk, bind_eq_ok, ensure_eq_ok, decide_eq_true_eq] at h
    obtain ⟨-, hsame, h⟩ := h
    obtain ⟨hres, hdb⟩ := Prod.mk.inj (Except.ok.inj h)
    obtain ⟨hmem, hkey⟩ := Table.findBy?_eq_some.mp hk
    simp only [Prod.mk.injEq] at hsame
    subst hres
    exact ⟨existing, hdb ▸ Table.find?_of_mem hmem, hsame.2.2.1, hkey⟩
  | none =>
    simp only [hk, bind_eq_ok, ensure_eq_ok, orRaise_eq_ok, decide_eq_true_eq] at h
    obtain ⟨account, -, -, -, reservations, hins, stored, hstored, h⟩ := h
    obtain ⟨hres, hdb⟩ := Prod.mk.inj (Except.ok.inj h)
    have hnew : stored = CreditLedger.newReservation drawn.env t a r u key :=
      Option.some.inj (hstored.symm.trans ((Table.find?_insert hins _).trans (if_pos rfl)))
    subst hres
    refine ⟨stored, ?_, by rw [hnew]; rfl, by rw [hnew]; rfl⟩
    rw [← hdb, hnew]
    exact (Table.find?_insert hins _).trans (if_pos rfl)

/-- **The answer to an operation tells what is there.** -/
theorem tells_exec (lib : RunLibrary) (policy : QuotaPolicy) (drawn : Drawn) (op : Op)
    (w : RunWorld) : Tells (RunWorld.exec lib policy drawn op w).2
      ⟨op, (RunWorld.exec lib policy drawn op w).1⟩ := by
  have herror : ∀ {op : Op} (w : RunWorld) (e : Error), Tells w ⟨op, .error e⟩ := by
    intro op w e
    cases op with
    | runs call => cases call <;> trivial
    | _ => trivial
  cases op with
  | runs call =>
    obtain ⟨a, db, hbody, hexec⟩ | ⟨e, -, hexec⟩ :=
      atomically_cases (call.body lib drawn.env) w.runs
    · simp only [RunWorld.exec, RunStore.perform, hexec]
      exact tells_runs (w := { w with runs := db }) hbody
    · simp only [RunWorld.exec, RunStore.perform, hexec]
      exact herror _ e
  | reserve t a r u key =>
    obtain ⟨res, db, hbody, hexec⟩ | ⟨e, -, hexec⟩ :=
      atomically_cases (CreditLedger.reserve drawn.env t a r u key) w.ledger
    · simp only [RunWorld.exec, hexec]
      exact tells_reserve (w := { w with ledger := db }) hbody
    · simp only [RunWorld.exec, hexec]
      exact herror _ e
  | release id key =>
    obtain ⟨res, db, hbody, hexec⟩ | ⟨e, -, hexec⟩ :=
      atomically_cases (CreditLedger.release drawn.env id key) w.ledger
    · simp only [RunWorld.exec, hexec]
      have hcall : (CreditLedger.Call.release id key).body drawn.env w.ledger
          = .ok (.reservation res, db) := Tx.map_eq_ok.mpr ⟨res, hbody, rfl⟩
      exact CreditLedger.done_of_body_ok hcall
    · simp only [RunWorld.exec, hexec]
      exact herror _ e
  | commit id u key =>
    obtain ⟨com, db, hbody, hexec⟩ | ⟨e, -, hexec⟩ :=
      atomically_cases (CreditLedger.commit drawn.env id u key) w.ledger
    · simp only [RunWorld.exec, hexec]
      have hcall : (CreditLedger.Call.commit id u key).body drawn.env w.ledger
          = .ok (.committed com, db) := Tx.map_eq_ok.mpr ⟨com, hbody, rfl⟩
      exact CreditLedger.done_of_body_ok hcall
    · simp only [RunWorld.exec, hexec]
      exact herror _ e
  | _ => trivial

/-- The plain transitions of the programs: none announces another state than its
own, and none moves a run to where only `claim`, `approve` or `complete` do. -/
theorem Task.move_of_does {h : Past} {r : String} {task : Task} {call : RunStore.Call} {state : RunState}
    {payload : List (String × Json)} (hdoes : task.Does h (.runs call))
    (hmove : call.move? = some (r, state, payload)) :
    payload.lookup "state" = none ∧ state ≠ .running ∧ state ≠ .completed := by
  cases call with
  | transition r' state' payload' =>
    simp only [RunStore.Call.move?, Option.some.injEq, Prod.mk.injEq] at hmove
    obtain ⟨rfl, rfl, rfl⟩ := hmove
    cases task with
    | createRun uuid request =>
      obtain ⟨rfl, hpayload, -⟩ := hdoes
      exact ⟨hpayload, by decide, by decide⟩
    | approve r t => exact absurd hdoes.1 (by simp)
    | cancel r t => exact hdoes.elim
    | execute r =>
      obtain ⟨-, hpayload, run, id, -, rfl | ⟨rfl, -⟩⟩ := hdoes
      · exact ⟨hpayload, by decide, by decide⟩
      · exact ⟨hpayload, by decide, by decide⟩
  | fail r' reason =>
    simp only [RunStore.Call.move?, Option.some.injEq, Prod.mk.injEq] at hmove
    obtain ⟨rfl, rfl, rfl⟩ := hmove
    exact ⟨rfl, by decide, by decide⟩
  | pauseQuota r' d n =>
    simp only [RunStore.Call.move?, Option.some.injEq, Prod.mk.injEq] at hmove
    obtain ⟨rfl, rfl, rfl⟩ := hmove
    exact ⟨rfl, by decide, by decide⟩
  | _ => cases hmove

/-! ### Pools of the run services -/

/-- A pool of processes of the run services. -/
abbrev RunPool := Pool Task Op Op.Answer Error Run RunWorld

/-- A process executes a run. -/
def executes (pool : RunPool) (r : String) (i : ℕ) : Bool :=
  match pool.task i with
  | some (.execute r') => decide (r' = r)
  | _ => false

theorem executes_iff {pool : RunPool} {r : String} {i : ℕ} :
    executes pool r i = true ↔ pool.task i = some (.execute r) := by
  unfold executes
  split
  · next r' htask => simp [htask]
  · next hother =>
    constructor
    · intro h
      cases h
    · intro htask
      exact absurd htask (hother r)

/-- An empty run store beside a ledger in use. -/
structure Fresh (w : RunWorld) : Prop where
  runs : w.runs = .empty
  ledger : ∃ balances db calls, CreditLedger.openLedger balances .empty = .ok db ∧
    w.ledger = Runs.final CreditLedger.step db calls

theorem Fresh.settled (h : Fresh w) : CreditLedger.Settled w.ledger := by
  obtain ⟨balances, db, calls, hopen, hledger⟩ := h.ledger
  obtain ⟨creditAccounts, rfl⟩ := CreditLedger.openLedger_eq_ok hopen
  rw [hledger]
  exact Runs.invariant ⟨fun id row hrow => (by cases hrow), fun e he => (by cases he)⟩
    CreditLedger.settled_step calls

/-- Every process is on its trail, the ledger is settled, and every answer goes on
telling what it told. -/
structure Sound (pool : RunPool) : Prop where
  traced : System.Traced Task.Does Task.Ends pool
  settled : CreditLedger.Settled pool.state.ledger
  tells : ∀ e ∈ pool.log, Tells pool.state e.2

variable {service : RunService} {worker : BoundedWorker} {pool pool' : RunPool}

theorem sound_init (h : Fresh w) : Sound (Pool.init w) :=
  ⟨System.traced_init w, h.settled, fun _ he => absurd he List.not_mem_nil⟩

theorem sound_act (h : Sound pool) (a : Action Task Drawn) :
    Sound ((runSystem policy service worker).act pool a) := by
  have htraced := System.traced_act (program_trail policy service worker) h.traced a
  have hacts := System.act_cases (runSystem policy service worker) pool a
  generalize (runSystem policy service worker).act pool a = pool' at htraced hacts
  cases hacts with
  | start | stop | idle => exact ⟨htraced, h.settled, h.tells⟩
  | @step i drawn task op next found =>
    refine ⟨htraced, settled_exec drawn op h.settled, ?_⟩
    intro e he
    rcases List.mem_cons.mp he with rfl | he
    · exact tells_exec worker.lib policy drawn op pool.state
    · exact (h.tells e he).mono (later_exec worker.lib policy drawn op pool.state)

/-- What a process has done before the operation it asks for. -/
theorem Sound.does (h : Sound pool) {i : ℕ} {task : Task} {op : Op}
    {next : Except Error op.Answer → Program Run} {live : Bool}
    (found : pool.procs[i]? = some ⟨task, .call op next, live⟩) : task.Does (pool.past i) op :=
  (h.traced.1 i _ found).1

/-- What a process was answered goes on. -/
theorem Sound.past (h : Sound pool) {i : ℕ} {e : Answered} (he : e ∈ pool.past i) :
    Tells pool.state e := h.tells _ (Pool.mem_past.mp he)

/-- **The invariant rule for the run services.**  What every action keeps, in sound
pools, holds in every pool reached. -/
theorem run_invariant {When : RunPool → Action Task Drawn → Prop} {J : RunPool → Prop}
    (hw : Fresh w) (h0 : J (Pool.init w))
    (hact : ∀ pool a pool', When pool a → Sound pool → Sound pool' → J pool →
      System.Acts (runSystem policy service worker) pool a pool' → J pool')
    {actions : List (Action Task Drawn)}
    (h : Runs.Along (runSystem policy service worker).act When (Pool.init w) actions) :
    Sound (Runs.final (runSystem policy service worker).act (Pool.init w) actions) ∧
      J (Runs.final (runSystem policy service worker).act (Pool.init w) actions) :=
  h.invariant (I := fun pool => Sound pool ∧ J pool) ⟨sound_init hw, h0⟩
    fun pool a hwhen hJ => ⟨sound_act hJ.1 a, hact pool a _ hwhen hJ.1 (sound_act hJ.1 a) hJ.2
      (System.act_cases (runSystem policy service worker) pool a)⟩

/-! ### Sample values -/

namespace Sample

/-- `json` and `hashlib` as they are on the sample request. -/
def runLibrary : RunLibrary where
  dumps _ := "\x7b\"account_id\":\"account-1\",\"input\":\x7b\"message\":\"hello\"\x7d," ++
    "\"max_model_calls\":2,\"max_runtime_seconds\":60,\"max_steps\":4," ++
    "\"project_id\":\"project-1\",\"reserve_units\":6,\"tenant_id\":\"tenant-1\"," ++
    "\"trace_id\":\"trace-0001\"\x7d"
  sha256 _ := "8c9f8f8b279041efda2b519841bb001d9d99751ff3f64d3b86d1d679d98c8a9a"
  floatRepr _ := "60.0"
  repr _ := "\x7b'message': 'hello'\x7d"

/-- A request for six units. -/
def runRequest : RunCreate where
  tenantId := "tenant-1"
  accountId := "account-1"
  projectId := "project-1"
  idempotencyKey := "request-1"
  traceId := "trace-0001"
  input := [("message", .str "hello")]
  reserveUnits := 6
  maxSteps := 4
  maxModelCalls := 2
  maxRuntimeSeconds := .int 60
  nonblank := by decide
  key_length := by decide
  positive := by decide
  limits := by decide
  runtime_pos := by decide
  runtime_le := by decide

/-- A ledger with one funded account. -/
def fundedLedger : Database :=
  { Database.empty with
    creditAccounts := (Database.empty.creditAccounts.insertOrIgnore ⟨"account-1", 10⟩).1 }

/-- Empty stores beside that ledger. -/
def runWorld : RunWorld := ⟨.empty, .empty, fundedLedger⟩

theorem fresh_runWorld : Fresh runWorld :=
  ⟨rfl, [("account-1", 10)], fundedLedger, [], rfl, rfl⟩

/-- A window of an hour. -/
def quotaPolicy : QuotaPolicy := ⟨10, 100, 3600, by decide, by decide⟩

/-- The same window, without room for the sample request. -/
def tightPolicy : QuotaPolicy := ⟨10, 5, 3600, by decide, by decide⟩

/-- A service with a dispatcher and a quota counter. -/
def runService : RunService := ⟨true, true⟩

/-- A worker without hooks. -/
def boundedWorker : BoundedWorker := ⟨runLibrary, false, false, false⟩

/-- One step that is the last. -/
def lastStep : ModelResult := ⟨"done", 2, true, none, by decide⟩

/-- One step that asks for approval. -/
def askingStep : ModelResult := ⟨"asking", 1, false, some "approval-1", by decide⟩

/-- What an operation draws while the clocks stand still. -/
def draws (name : String) (model : ModelResult) : Drawn :=
  ⟨env name, fun _ => 0, 0, .ok model, .ok ()⟩

/-- A process's next steps, one for each name. -/
def steps (i : ℕ) (model : ModelResult) (names : List String) : List (Action Task Drawn) :=
  names.map fun name => .step i (draws name model)

/-- The pool after actions from the sample world, under a quota. -/
def runPoolUnder (policy : QuotaPolicy) (actions : List (Action Task Drawn)) : RunPool :=
  Runs.final (runSystem policy runService boundedWorker).act (Pool.init runWorld) actions

/-- The pool after actions from the sample world. -/
def runPool (actions : List (Action Task Drawn)) : RunPool := runPoolUnder quotaPolicy actions

/-- A run is created and dispatched. -/
def createdRun : List (Action Task Drawn) :=
  .start (.createRun "1" runRequest) :: steps 0 lastStep ["a", "b", "c", "d", "e", "f"]

end Sample

end AiSaas
