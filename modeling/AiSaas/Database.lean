import AiSaas.Billing.Models
import AiSaas.Lib.Tables
import Mathlib.Algebra.Order.Ring.Int

/-!
# The shared billing database

The credit ledger and the billing store open one SQLite file, and both update
the same `credit_accounts` rows.  This module holds the rows of their tables,
the database that has all of them, and the statements both stores share.

Integer columns are unbounded integers: the balances and sums of a deployment
stay below SQLite's 64-bit range.  JSON columns hold the value they encode.

## Main definitions

* `CreditReservation`, `ReservationRow`, `RunLedgerRow`, `AdjustmentRow` — the
  ledger's rows.
* `OrderRow`, `InboxRow`, `EntitlementRow`, `LedgerRow`, `AuditRow` — the
  store's rows.
* `Database` — every table.
* `Database.balance`, `Database.held`, `Database.available` — an account's
  money, the part reserved, and the rest.
* `Database.updateBalance` — the guarded `UPDATE credit_accounts`.

## Main results

* `Database.updateBalance_eq_ok` — what a guarded balance update did.
* `Database.updateBalance_ok_of` — when it succeeds.
-/

namespace AiSaas

open Relational Transaction

/-! ### Rows of the credit ledger -/

/-- A row of `credit_accounts`. -/
structure CreditAccount where
  accountId : String
  balance : ℤ
  deriving DecidableEq, Repr

/-- The statuses of a reservation. -/
inductive ReservationStatus where
  | reserved
  | committed
  | released
  deriving DecidableEq, Repr

/-- A credit reservation as the ledger returns it. -/
structure CreditReservation where
  reservationId : String
  tenantId : String
  accountId : String
  runId : String
  units : ℤ
  idempotencyKey : String
  status : ReservationStatus
  deriving DecidableEq, Repr

/-- A row of `run_credit_reservations`. -/
structure ReservationRow extends CreditReservation where
  createdAt : String
  updatedAt : String
  deriving DecidableEq, Repr

/-- A row of `run_credit_ledger`. -/
structure RunLedgerRow where
  entryId : String
  reservationId : String
  accountId : String
  amount : ℤ
  idempotencyKey : String
  reason : String
  createdAt : String
  deriving DecidableEq, Repr

/-- A row of `credit_adjustments`. -/
structure AdjustmentRow where
  adjustmentId : String
  accountId : String
  amount : ℤ
  idempotencyKey : String
  reason : String
  createdAt : String
  deriving DecidableEq, Repr

/-! ### Rows of the billing store -/

/-- A row of `billing_orders`.  Only `create_pending_order` inserts one, from a
checked request, and no statement changes the request's columns. -/
structure OrderRow extends Order where
  createdAt : String
  updatedAt : String
  deriving DecidableEq

/-- A row of `provider_inbox`. -/
structure InboxRow where
  provider : String
  providerEventId : String
  idempotencyKey : String
  rawBody : List UInt8
  headers : List (String × String)
  /-- `normalized_json`. -/
  event : NormalizedEvent
  status : InboxStatus
  applied : Bool
  receivedAt : String
  deriving DecidableEq

/-- A row of `entitlements`. -/
structure EntitlementRow where
  accountId : String
  plan : String
  version : ℕ
  deriving DecidableEq, Repr

/-- A row of `credit_ledger`. -/
structure LedgerRow where
  entryId : String
  accountId : String
  amount : ℤ
  idempotencyKey : String
  reason : String
  balanceAfter : ℤ
  createdAt : String
  deriving DecidableEq, Repr

/-- A row of `billing_audit`. -/
structure AuditRow where
  eventId : String
  action : String
  targetId : String
  before : List (String × Json)
  after : List (String × Json)
  occurredAt : String

/-! ### The database -/

/-- Every table of the shared file, under its schema. -/
structure Database where
  creditAccounts : Table CreditAccount.accountId CreditAccount.accountId
    fun a => decide (0 ≤ a.balance)
  reservations : Table (fun r : ReservationRow => r.reservationId) (fun r => r.idempotencyKey)
    fun r => decide (0 < r.units)
  runLedger : Table RunLedgerRow.entryId RunLedgerRow.idempotencyKey fun _ => true
  adjustments : Table AdjustmentRow.adjustmentId AdjustmentRow.idempotencyKey fun _ => true
  billingOrders : Table (fun o : OrderRow => o.orderId) (fun o => o.idempotencyKey) fun _ => true
  providerInbox : Table (fun i : InboxRow => (i.provider, i.providerEventId))
    (fun i => (i.provider, i.idempotencyKey)) fun _ => true
  entitlements : Table EntitlementRow.accountId EntitlementRow.accountId fun _ => true
  creditLedger : Table LedgerRow.entryId LedgerRow.idempotencyKey fun _ => true
  billingAudit : Table AuditRow.eventId AuditRow.eventId fun _ => true

namespace Database

/-- The freshly created file. -/
def empty : Database where
  creditAccounts := .empty
  reservations := .empty
  runLedger := .empty
  adjustments := .empty
  billingOrders := .empty
  providerInbox := .empty
  entitlements := .empty
  creditLedger := .empty
  billingAudit := .empty

/-- `SQLiteBillingStore.balance`: an account's balance, zero where it has no row. -/
def balance (db : Database) (accountId : String) : ℤ :=
  (db.creditAccounts.find? accountId).elim 0 CreditAccount.balance

/-- `SELECT COALESCE(SUM(units), 0) … WHERE account_id = ? AND status = 'reserved'`. -/
def held (db : Database) (accountId : String) : ℤ :=
  sumWhere (fun r : ReservationRow => decide (r.accountId = accountId ∧ r.status = .reserved))
    (fun r => r.units) db.reservations.rows

/-- `SQLiteCreditLedger.available`. -/
def available (db : Database) (accountId : String) : ℤ :=
  match db.creditAccounts.find? accountId with
  | none => 0
  | some account => account.balance - db.held accountId

/-- `INSERT … ON CONFLICT(account_id) DO NOTHING` of an account without money. -/
def ensureAccount (accountId : String) (db : Database) : Database :=
  { db with creditAccounts := (db.creditAccounts.insertOrIgnore ⟨accountId, 0⟩).1 }

/-- `UPDATE credit_accounts SET balance = balance + amount WHERE account_id = ?
AND guard`, and `InsufficientCredits` unless it updated one row. -/
def updateBalance (accountId : String) (amount : ℤ) (guard : ℤ → Bool) (db : Database) :
    Except Error Database := do
  let hit : CreditAccount → Bool := fun a => decide (a.accountId = accountId) && guard a.balance
  let creditAccounts ← orRaise
    (db.creditAccounts.update? hit (fun a => { a with balance := a.balance + amount })
      (fun _ => rfl) fun _ => rfl)
    .integrityError
  ensure (db.creditAccounts.rowcount hit == 1) (.insufficientCredits accountId)
  return { db with creditAccounts }

/-! ### Accounts -/

variable {db db' : Database}

theorem balance_nonneg (db : Database) (a : String) : 0 ≤ db.balance a := by
  unfold balance
  cases h : db.creditAccounts.find? a with
  | none => simp
  | some account =>
    have hchk := db.creditAccounts.checked account (Table.find?_eq_some.mp h).1
    simpa using hchk

theorem held_nonneg (db : Database) (a : String) : 0 ≤ db.held a := by
  apply sumWhere_nonneg
  intro r hr _
  have hpos := db.reservations.checked r hr
  simp only [decide_eq_true_eq] at hpos
  omega

/-- An account that holds every reservation's units has them available to it. -/
theorem available_eq {a : String} (h : db.held a ≤ db.balance a) :
    db.available a = db.balance a - db.held a := by
  have hnn := held_nonneg db a
  unfold available
  unfold balance at h ⊢
  cases hf : db.creditAccounts.find? a with
  | none => simp only [hf, Option.elim] at h ⊢; omega
  | some account => simp

@[simp] theorem held_of_reservations_eq (h : db'.reservations = db.reservations) (a : String) :
    db'.held a = db.held a := by rw [held, held, h]

theorem balance_of_creditAccounts_eq (h : db'.creditAccounts = db.creditAccounts) (a : String) :
    db'.balance a = db.balance a := by rw [balance, balance, h]

/-- Accounts after an insert that leaves an account that is there alone. -/
theorem find?_insertAccount {a : String} {n : ℤ} (hn : 0 ≤ n) (x : String) :
    (db.creditAccounts.insertOrIgnore ⟨a, n⟩).1.find? x
      = (db.creditAccounts.find? x).or (if a = x then some ⟨a, n⟩ else none) :=
  Table.find?_insertOrIgnore (by simpa using hn) (fun _ _ he => he) x

/-- Making sure an account exists moves no money. -/
theorem balance_ensureAccount (a x : String) : (db.ensureAccount a).balance x = db.balance x := by
  unfold balance ensureAccount
  rw [find?_insertAccount le_rfl]
  cases db.creditAccounts.find? x with
  | some account => rfl
  | none => by_cases hx : a = x <;> simp [hx]

/-- The account is there afterwards. -/
theorem find?_ensureAccount (db : Database) (a : String) :
    ∃ account, (db.ensureAccount a).creditAccounts.find? a = some account := by
  unfold ensureAccount
  rw [find?_insertAccount le_rfl]
  cases db.creditAccounts.find? a <;> simp

/-- **What a guarded balance update did**: the account was there, met the guard
and got the amount; nothing else changed. -/
theorem updateBalance_eq_ok {a : String} {amount : ℤ} {guard : ℤ → Bool}
    (h : updateBalance a amount guard db = .ok db') :
    ∃ account creditAccounts, db.creditAccounts.find? a = some account ∧
      guard account.balance = true ∧ db' = { db with creditAccounts } ∧
      ∀ x, db'.balance x = db.balance x + if x = a then amount else 0 := by
  simp only [updateBalance, bind_eq_ok, orRaise_eq_ok, ensure_eq_ok, beq_iff_eq] at h
  obtain ⟨t, ht, -, hcount, hdb⟩ := h
  obtain ⟨account, hacc, hguard⟩ := Table.rowcount_key_eq_one.mp hcount
  obtain rfl : { db with creditAccounts := t } = db' := Except.ok.inj hdb
  refine ⟨account, t, hacc, hguard, rfl, ?_⟩
  intro x
  have hfind := Table.find?_of_rows_eq_setWhere
    (f := fun r : CreditAccount => { r with balance := r.balance + amount }) (fun _ => rfl)
    (Table.rows_update? ht) x
  unfold balance
  rw [hfind]
  by_cases hx : x = a
  · subst hx
    have hid := (Table.find?_eq_some.mp hacc).2
    simp [hacc, hid, hguard]
  · cases hxf : db.creditAccounts.find? x with
    | none => simp [hx]
    | some other =>
      have hid := (Table.find?_eq_some.mp hxf).2
      simp [hid, hx]

/-- A balance update succeeds on an account that is there, meets the guard and
stays non-negative. -/
theorem updateBalance_ok_of {a : String} {amount : ℤ} {guard : ℤ → Bool}
    {account : CreditAccount} (hacc : db.creditAccounts.find? a = some account)
    (hguard : guard account.balance = true) (hnn : 0 ≤ account.balance + amount) :
    ∃ db', updateBalance a amount guard db = .ok db' := by
  have hcount : db.creditAccounts.rowcount
      (fun x => decide (x.accountId = a) && guard x.balance) = 1 :=
    Table.rowcount_key_eq_one.mpr ⟨account, hacc, hguard⟩
  have hchk : ∀ r ∈ db.creditAccounts.rows,
      (decide (r.accountId = a) && guard r.balance) = true →
        decide (0 ≤ r.balance + amount) = true := by
    intro r hr hhit
    simp only [Bool.and_eq_true, decide_eq_true_eq] at hhit
    have hra : r = account :=
      Option.some.inj ((Table.find?_eq_some.mpr ⟨hr, hhit.1⟩).symm.trans hacc)
    simp [hra, hnn]
  simp only [updateBalance, bind_eq_ok, orRaise_eq_ok, ensure_eq_ok, beq_iff_eq]
  exact ⟨_, _, dif_pos hchk, (), hcount, rfl⟩

end Database

end AiSaas
