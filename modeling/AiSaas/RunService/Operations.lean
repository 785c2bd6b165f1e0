import AiSaas.Lib.Processes
import AiSaas.LocalRuntime
import AiSaas.Metering.Quota
import AiSaas.RunService.Store

/-!
# What the run services ask for

The run service and the worker share the run store, the quota counter and the
credit ledger.  Each call of one of these is one atomic operation; so are a
reading of the clock, a call of the model, and a call that goes outside: the
workflow dispatch, the tracer and the worker's hooks.

## Main definitions

* `RunWorld` — the tables of the three stores.
* `Op`, `Op.Answer`, `Drawn` — the operations, what they answer and what they draw.
* `RunWorld.exec` — an operation as one step.
-/

namespace AiSaas

open Transaction Processes

/-- The run store's tables, the quota counter's and the ledger's. -/
structure RunWorld where
  runs : RunDatabase
  quota : QuotaDatabase
  ledger : Database

/-- `ModelResult`; the check of `__post_init__` is a field. -/
structure ModelResult where
  output : String
  usageUnits : ℤ
  done : Bool
  approvalId : Option String
  nonneg : 0 ≤ usageUnits

/-- A call that answers nothing and leaves the tables alone. -/
inductive Outside where
  | dispatch (message : List (String × String))
  | startSpan (name : String) (attributes : List (String × Json))
  | setAttribute (key : String) (value : Json)
  | endSpan
  | afterModel (runId : String) (step : ℤ) (result : ModelResult)
  | afterCommit (runId : String) (usedUnits : ℤ)

/-- An operation. -/
inductive Op where
  | runs (call : RunStore.Call)
  | quota (call : QuotaCounter.Call)
  | reserve (tenantId accountId runId : String) (units : ℤ) (idempotencyKey : String)
  | release (reservationId idempotencyKey : String)
  | commit (reservationId : String) (usedUnits : ℤ) (idempotencyKey : String)
  | clock
  | model (prompt idempotencyKey : String) (timeoutSeconds : ℚ)
  | outside (call : Outside)

/-- What an operation answers. -/
def Op.Answer : Op → Type
  | .runs call => call.Answer
  | .quota call => call.Answer
  | .reserve .. => CreditReservation
  | .release .. => CreditReservation
  | .commit .. => CreditCommit
  | .clock => ℚ
  | .model .. => ModelResult
  | .outside _ => Unit

/-- What an operation draws: clock readings, `uuid4`, and the answers of the model
and of the calls outside. -/
structure Drawn where
  env : Env
  quotaClock : ℕ → ℚ
  clock : ℚ
  model : Except Error ModelResult
  outside : Except Error Unit

/-- An operation as one step. -/
def RunWorld.exec (lib : RunLibrary) (policy : QuotaPolicy) (drawn : Drawn) :
    (op : Op) → RunWorld → Except Error op.Answer × RunWorld
  | .runs call, w =>
    let r := RunStore.perform lib drawn.env call w.runs
    (r.1, { w with runs := r.2 })
  | .quota call, w =>
    let r := QuotaCounter.perform policy drawn.quotaClock call w.quota
    (r.1, { w with quota := r.2 })
  | .reserve t a r u k, w =>
    let r := atomically (CreditLedger.reserve drawn.env t a r u k) w.ledger
    (r.1, { w with ledger := r.2 })
  | .release id k, w =>
    let r := atomically (CreditLedger.release drawn.env id k) w.ledger
    (r.1, { w with ledger := r.2 })
  | .commit id u k, w =>
    let r := atomically (CreditLedger.commit drawn.env id u k) w.ledger
    (r.1, { w with ledger := r.2 })
  | .clock, w => (.ok drawn.clock, w)
  | .model .., w => (drawn.model, w)
  | .outside _, w => (drawn.outside, w)

/-- A program over the operations. -/
abbrev Program := Prog Op Op.Answer Error

/-- An operation with its answer. -/
abbrev Answered := Entry Op Op.Answer Error

/-- Operations with their answers, newest first. -/
abbrev Past := List Answered

/-- A call of the run store. -/
def askStore (call : RunStore.Call) : Program call.Answer :=
  Prog.perform (Op.runs call)

/-- A call of the quota counter. -/
def askQuota (call : QuotaCounter.Call) : Program call.Answer :=
  Prog.perform (Op.quota call)

/-- A reading of the clock. -/
def askClock : Program ℚ := Prog.perform Op.clock

/-- A call outside. -/
def callOutside (call : Outside) : Program Unit := Prog.perform (Op.outside call)

/-- `credits.reserve`. -/
def reserveCredits (tenantId accountId runId : String) (units : ℤ) (idempotencyKey : String) :
    Program CreditReservation :=
  Prog.perform (Op.reserve tenantId accountId runId units idempotencyKey)

/-- `credits.release`. -/
def releaseCredits (reservationId idempotencyKey : String) : Program CreditReservation :=
  Prog.perform (Op.release reservationId idempotencyKey)

/-- `credits.commit`. -/
def commitCredits (reservationId : String) (usedUnits : ℤ) (idempotencyKey : String) :
    Program CreditCommit := Prog.perform (Op.commit reservationId usedUnits idempotencyKey)

/-- A text that is there and not empty: `if value:`. -/
def present (value : Option String) : Option String := value.filter fun s => decide (s ≠ "")

theorem present_eq_some {value : Option String} {s : String} :
    present value = some s ↔ value = some s ∧ s ≠ "" := by
  rw [present, Option.filter_eq_some_iff, decide_eq_true_eq]

end AiSaas
