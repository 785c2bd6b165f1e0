import AiSaas.Billing.Store
import AiSaas.Lib.Runs
import AiSaas.Metering.CreditLedger

/-!
# Both stores on one file

`LocalRuntime` of `foundation/local_runtime.py` opens the credit ledger and the
billing store on the same file.  A call of either store is one transaction, so
a run is a list of calls, each with what it drew from the clock and `uuid4`,
and its states are the databases between them.

## Main definitions

* `CreditLedger.Call`, `BillingStore.Call`, `LocalRuntime.Call` — the calls of
  one store, and of both.
* `perform`, `step` (in each of the three) — a call as one transaction, and the
  database it leaves.
* `CreditLedger.Writes`, `BillingStore.Writes` — the calls that change something.

## Main results

* `CreditLedger.step_cases`, `BillingStore.step_cases`, `LocalRuntime.step_cases` —
  a call changes nothing, or it is one of the writes.
-/

namespace AiSaas

open Relational Transaction

/-! ### Calls of the ledger -/

namespace CreditLedger

/-- A call of the ledger. -/
inductive Call where
  | reserve (tenantId accountId runId : String) (units : ℤ) (idempotencyKey : String)
  | release (reservationId idempotencyKey : String)
  | commit (reservationId : String) (usedUnits : ℤ) (idempotencyKey : String)
  | adjust (accountId : String) (amount : ℤ) (idempotencyKey reason : String)
  deriving DecidableEq, Repr

/-- What a call of the ledger answers. -/
inductive Answer where
  | reservation (reservation : CreditReservation)
  | committed (commit : CreditCommit)
  | available (units : ℤ)
  deriving DecidableEq, Repr

/-- The body of a call. -/
def Call.body (env : Env) : Call → Tx Error Database Answer
  | .reserve t a r u k => Tx.map .reservation (CreditLedger.reserve env t a r u k)
  | .release id k => Tx.map .reservation (CreditLedger.release env id k)
  | .commit id used k => Tx.map .committed (CreditLedger.commit env id used k)
  | .adjust a amount k reason => Tx.map .available (CreditLedger.adjust env a amount k reason)

/-- A call as one transaction. -/
def perform (env : Env) (call : Call) (db : Database) : Except Error Answer × Database :=
  atomically (call.body env) db

/-- The database after a call. -/
def step (db : Database) (call : Env × Call) : Database := (perform call.1 call.2 db).2

/-- The calls that change the database, and the databases they leave. -/
inductive Writes (env : Env) (db : Database) : Call → Database → Prop
  | reserve {t a r u k account reservations} (checks : reserveChecks t a r u k = .ok ())
      (fresh : db.reservations.findBy? k = none)
      (found : db.creditAccounts.find? a = some account)
      (covered : u ≤ account.balance - db.held a)
      (insert : db.reservations.insert? (newReservation env t a r u k) = some reservations) :
      Writes env db (.reserve t a r u k) { db with reservations }
  | release {id k row} (found : db.reservations.find? id = some row)
      (reserved : row.status = .reserved) :
      Writes env db (.release id k) (setStatus id .released (env.now 0) db)
  | commit {id used k row db₁ runLedger} (nonneg : 0 ≤ used)
      (found : db.reservations.find? id = some row) (reserved : row.status = .reserved)
      (fresh : db.runLedger.findBy? k = none) (within : used ≤ row.units)
      (debit : db.updateBalance row.accountId (-used) (fun balance => used ≤ balance) = .ok db₁)
      (insert : db₁.runLedger.insert? (newEntry env row used k) = some runLedger) :
      Writes env db (.commit id used k) (setStatus id .committed (env.now 1) { db₁ with runLedger })
  | adjust {a amount k reason db₁ adjustments} (checks : adjustChecks a amount k reason = .ok ())
      (fresh : db.adjustments.findBy? k = none)
      (move : (db.ensureAccount a).updateBalance a amount
        (fun balance => 0 ≤ balance + amount - (db.ensureAccount a).held a) = .ok db₁)
      (insert : db₁.adjustments.insert? (newAdjustment env a amount k reason) = some adjustments) :
      Writes env db (.adjust a amount k reason) { db₁ with adjustments }

variable {env : Env} {db db' : Database} {call : Call} {answer : Answer}

/-- A call that returned changed nothing or was a write. -/
theorem body_cases (h : call.body env db = .ok (answer, db')) :
    db' = db ∨ Writes env db call db' := by
  cases call with
  | reserve t a r u k =>
    obtain ⟨res, hres, -⟩ := Tx.map_eq_ok.mp h
    obtain ⟨hchk, ⟨_, _, hdb, _⟩ | ⟨account, reservations, hk, hacc, hcov, hins, rfl⟩⟩ :=
      reserve_eq_ok hres
    · exact Or.inl hdb
    · exact Or.inr (.reserve hchk hk hacc hcov hins)
  | release id k =>
    obtain ⟨res, hres, -⟩ := Tx.map_eq_ok.mp h
    obtain ⟨row, hrow, ⟨-, hdb⟩ | ⟨hs, rfl⟩⟩ := release_eq_ok hres
    · exact Or.inl hdb
    · exact Or.inr (.release hrow hs)
  | commit id used k =>
    obtain ⟨com, hcom, -⟩ := Tx.map_eq_ok.mp h
    obtain ⟨hused, row, hrow, ⟨_, _, _, _, hdb⟩ | ⟨db₁, runLedger, hk, hs, hle, hupd, hins, rfl⟩⟩ :=
      commit_eq_ok hcom
    · exact Or.inl hdb
    · exact Or.inr (.commit hused hrow hs hk hle hupd hins)
  | adjust a amount k reason =>
    obtain ⟨n, hn, -⟩ := Tx.map_eq_ok.mp h
    obtain ⟨hchk, ⟨_, _, _, _, hdb⟩ | ⟨db₁, adjustments, hk, hupd, hins, rfl⟩⟩ := adjust_eq_ok hn
    · exact Or.inl hdb
    · exact Or.inr (.adjust hchk hk hupd hins)

/-- **What a call does to the database**: nothing, or one of the four writes. -/
theorem step_cases (env : Env) (call : Call) (db : Database) :
    step db (env, call) = db ∨ Writes env db call (step db (env, call)) :=
  snd_atomically_of (I := fun db' => db' = db ∨ Writes env db call db') (Or.inl rfl)
    fun _ _ => body_cases

/-- The ledger leaves the tables of the billing store alone. -/
theorem Writes.frame (h : Writes env db call db') :
    db'.billingOrders = db.billingOrders ∧ db'.providerInbox = db.providerInbox ∧
      db'.entitlements = db.entitlements ∧ db'.creditLedger = db.creditLedger ∧
      db'.billingAudit = db.billingAudit := by
  cases h with
  | reserve _ _ _ _ _ => exact ⟨rfl, rfl, rfl, rfl, rfl⟩
  | release _ _ => exact ⟨rfl, rfl, rfl, rfl, rfl⟩
  | commit _ _ _ _ _ debit _ =>
    obtain ⟨account, creditAccounts, -, -, rfl, -⟩ := Database.updateBalance_eq_ok debit
    exact ⟨rfl, rfl, rfl, rfl, rfl⟩
  | adjust _ _ move _ =>
    obtain ⟨account, creditAccounts, -, -, rfl, -⟩ := Database.updateBalance_eq_ok move
    exact ⟨rfl, rfl, rfl, rfl, rfl⟩

end CreditLedger

/-! ### Calls of the billing store -/

namespace BillingStore

/-- A call of the store that writes. -/
inductive Call where
  | createPendingOrder (order : CreateOrder) (provider : String)
  | attachCheckout (orderId provider providerReference : String)
  | processEvent (event : NormalizedEvent) (rawBody : List UInt8) (headers : List (String × String))
  deriving DecidableEq

/-- What a call of the store answers. -/
inductive Answer where
  | order (order : Order)
  | processed (result : ProcessingResult)
  deriving DecidableEq

/-- The body of a call. -/
def Call.body (env : Env) : Call → Tx Error Database Answer
  | .createPendingOrder order provider =>
    Tx.map .order (BillingStore.createPendingOrder env order provider)
  | .attachCheckout orderId provider reference =>
    Tx.map .order (BillingStore.attachCheckout env orderId provider reference)
  | .processEvent event rawBody headers =>
    Tx.map .processed (BillingStore.processEvent env event rawBody headers)

/-- A call as one transaction. -/
def perform (env : Env) (call : Call) (db : Database) : Except Error Answer × Database :=
  atomically (call.body env) db

/-- The database after a call. -/
def step (db : Database) (call : Env × Call) : Database := (perform call.1 call.2 db).2

/-- The calls that change the database, and the databases they leave. -/
inductive Writes (env : Env) (db : Database) : Call → Database → Prop
  | create {order provider billingOrders}
      (fresh : db.billingOrders.findBy? order.idempotencyKey = none)
      (insert : db.billingOrders.insert? (newOrder env order provider) = some billingOrders) :
      Writes env db (.createPendingOrder order provider) { db with billingOrders }
  | attach {orderId provider reference billingOrders row}
      (found : db.order? orderId = some row)
      (order : ∀ x, Database.order? { db with billingOrders } x = if x = orderId then
        some { row with provider := some provider, providerReference := some reference }
        else db.order? x) :
      Writes env db (.attachCheckout orderId provider reference) { db with billingOrders }
  | accept {event rawBody headers before db'}
      (accepted : Accepted env event rawBody headers before db db') :
      Writes env db (.processEvent event rawBody headers) db'

variable {env : Env} {db db' : Database} {call : Call} {answer : Answer}

/-- An inserted order is new, and is there afterwards. -/
theorem order?_create {order : CreateOrder} {provider : String}
    {billingOrders : Table (fun o : OrderRow => o.orderId) (fun o => o.idempotencyKey) fun _ => true}
    (h : db.billingOrders.insert? (newOrder env order provider) = some billingOrders) :
    db.order? order.orderId = none ∧ ∀ x, Database.order? { db with billingOrders } x
      = if x = order.orderId then some (newOrder env order provider).toOrder else db.order? x := by
  have hnone : db.billingOrders.find? order.orderId = none :=
    Table.find?_eq_none.mpr (Table.insert?_eq_some h).2.2.1
  refine ⟨by rw [Database.order?, hnone]; rfl, ?_⟩
  intro x
  unfold Database.order?
  simp only [Table.find?_insert h]
  by_cases hx : x = order.orderId
  · subst hx
    simp [newOrder]
  · simp [newOrder, hx, Ne.symm hx]

/-- A call that returned changed nothing or was a write. -/
theorem body_cases (h : call.body env db = .ok (answer, db')) :
    db' = db ∨ Writes env db call db' := by
  cases call with
  | createPendingOrder order provider =>
    obtain ⟨o, ho, -⟩ := Tx.map_eq_ok.mp h
    obtain ⟨_, _, _, _, hdb⟩ | ⟨billingOrders, hk, hins, _, rfl⟩ := createPendingOrder_eq_ok ho
    · exact Or.inl hdb
    · exact Or.inr (.create hk hins)
  | attachCheckout orderId provider reference =>
    obtain ⟨o, ho, -⟩ := Tx.map_eq_ok.mp h
    obtain ⟨row, hrow, rfl, ⟨billingOrders, rfl⟩, horder⟩ := attachCheckout_eq_ok ho
    exact Or.inr (.attach hrow horder)
  | processEvent event rawBody headers =>
    obtain ⟨result, hresult, -⟩ := Tx.map_eq_ok.mp h
    obtain ⟨_, _, hdb, _⟩ | ⟨before, haccepted, -⟩ := processEvent_eq_ok hresult
    · exact Or.inl hdb
    · exact Or.inr (.accept haccepted)

/-- **What a call does to the database**: nothing, or one of the three writes. -/
theorem step_cases (env : Env) (call : Call) (db : Database) :
    step db (env, call) = db ∨ Writes env db call (step db (env, call)) :=
  snd_atomically_of (I := fun db' => db' = db ∨ Writes env db call db') (Or.inl rfl)
    fun _ _ => body_cases

end BillingStore

/-! ### Calls of either -/

namespace LocalRuntime

/-- A call of either store. -/
inductive Call where
  | ledger (call : CreditLedger.Call)
  | billing (call : BillingStore.Call)
  deriving DecidableEq

/-- The database after a call. -/
def step (db : Database) (call : Env × Call) : Database :=
  match call.2 with
  | .ledger c => CreditLedger.step db (call.1, c)
  | .billing c => BillingStore.step db (call.1, c)

@[simp] theorem step_ledger (db : Database) (env : Env) (call : CreditLedger.Call) :
    step db (env, .ledger call) = CreditLedger.step db (env, call) := rfl

@[simp] theorem step_billing (db : Database) (env : Env) (call : BillingStore.Call) :
    step db (env, .billing call) = BillingStore.step db (env, call) := rfl

/-- **What a call of either store does to the database**: nothing, or a write of
its store. -/
theorem step_cases (db : Database) (env : Env) (call : Call) :
    step db (env, call) = db ∨
      (∃ c, call = .ledger c ∧ CreditLedger.Writes env db c (step db (env, call))) ∨
      ∃ c, call = .billing c ∧ BillingStore.Writes env db c (step db (env, call)) := by
  cases call with
  | ledger c =>
    rcases CreditLedger.step_cases env c db with hsame | hwrites
    · exact Or.inl hsame
    · exact Or.inr (Or.inl ⟨c, rfl, hwrites⟩)
  | billing c =>
    rcases BillingStore.step_cases env c db with hsame | hwrites
    · exact Or.inl hsame
    · exact Or.inr (Or.inr ⟨c, rfl, hwrites⟩)

end LocalRuntime

end AiSaas
