import AiSaas.Database

/-!
# The credit ledger

`SQLiteCreditLedger` of `services/metering_billing/runtime.py`: credits are
reserved for a run, then committed for what the run used or released.  Each
operation is the body of one transaction; the argument checks that precede
`BEGIN` stand first in the body, where raising rolls back to the same tables.

## Main definitions

* `openLedger` — the constructor, with the initial balances.
* `reserve`, `release`, `commit`, `adjust` — the operations.

## Main results

* `reserve_eq_ok`, `release_eq_ok`, `commit_eq_ok`, `adjust_eq_ok` — everything
  an operation that returned can have done.
* `reserve_replay`, `commit_replay`, `adjust_replay` and the `_conflict` lemmas —
  what an operation does with a key that is already used.
-/

namespace AiSaas

open Relational Transaction

/-- What `commit` returns. -/
structure CreditCommit where
  reservationId : String
  accountId : String
  usedUnits : ℤ
  idempotencyKey : String
  deriving DecidableEq, Repr

namespace CreditLedger

/-! ### Opening the ledger -/

/-- The loop of `__init__` over the initial balances; each insert commits by itself. -/
def openLedger : List (String × ℤ) → Database → Except Error Database
  | [], db => .ok db
  | (accountId, balance) :: rest, db =>
    if balance < 0 then
      .error (.valueError "initial credit balances must be non-negative integers")
    else
      openLedger rest
        { db with creditAccounts := (db.creditAccounts.insertOrIgnore ⟨accountId, balance⟩).1 }

/-- Opening the ledger writes accounts only. -/
theorem openLedger_eq_ok : ∀ {balances : List (String × ℤ)} {db db' : Database},
    openLedger balances db = .ok db' → ∃ creditAccounts, db' = { db with creditAccounts }
  | [], db, _, h => ⟨db.creditAccounts, (Except.ok.inj h).symm⟩
  | (a, balance) :: rest, _, _, h => by
    unfold openLedger at h
    split_ifs at h
    obtain ⟨creditAccounts, rfl⟩ := openLedger_eq_ok h
    exact ⟨creditAccounts, rfl⟩

/-- Opening the ledger gives each account that is new its first balance. -/
theorem find?_openLedger : ∀ {balances : List (String × ℤ)} {db db' : Database},
    openLedger balances db = .ok db' → ∀ x, db'.creditAccounts.find? x
      = (db.creditAccounts.find? x).or ((balances.lookup x).map fun n => ⟨x, n⟩)
  | [], db, _, h, x => by simp [← Except.ok.inj h]
  | (a, balance) :: rest, _, _, h, x => by
    unfold openLedger at h
    split_ifs at h with hneg
    rw [find?_openLedger h x]
    simp only [Database.find?_insertAccount (Int.not_lt.mp hneg), List.lookup_cons, Option.or_assoc]
    by_cases hx : a = x
    · subst hx
      simp
    · have hbeq : (x == a) = false := by simpa using Ne.symm hx
      simp [hx, hbeq]

/-- The balances an empty file is opened with. -/
theorem balance_openLedger {balances : List (String × ℤ)} {db : Database}
    (h : openLedger balances .empty = .ok db) (a : String) :
    db.balance a = (balances.lookup a).getD 0 := by
  have hnone : Database.empty.creditAccounts.find? a = none := rfl
  rw [Database.balance, find?_openLedger h a, hnone, Option.none_or]
  cases balances.lookup a <;> rfl

/-! ### The operations -/

/-- The row `reserve` inserts. -/
def newReservation (env : Env) (tenantId accountId runId : String) (units : ℤ)
    (idempotencyKey : String) : ReservationRow where
  reservationId := "reservation-" ++ env.uuid 0
  tenantId := tenantId
  accountId := accountId
  runId := runId
  units := units
  idempotencyKey := idempotencyKey
  status := .reserved
  createdAt := env.now 0
  updatedAt := env.now 0

/-- The argument checks of `reserve`. -/
def reserveChecks (tenantId accountId runId : String) (units : ℤ) (idempotencyKey : String) :
    Except Error Unit := do
  ensure ([tenantId, accountId, runId, idempotencyKey].all fun value => !blank value)
    (.valueError "reservation identity fields must be non-empty")
  ensure (0 < units) (.valueError "reservation units must be a positive integer")

/-- `reserve`. -/
def reserve (env : Env) (tenantId accountId runId : String) (units : ℤ)
    (idempotencyKey : String) : Tx Error Database CreditReservation := fun db => do
  reserveChecks tenantId accountId runId units idempotencyKey
  match db.reservations.findBy? idempotencyKey with
  | some existing => do
    -- a replay returns the reservation as it is now, held or not
    ensure ((existing.tenantId, existing.accountId, existing.runId, existing.units)
        = (tenantId, accountId, runId, units))
      (.reservationConflict "reservation idempotency key is already used")
    return (existing.toCreditReservation, db)
  | none => do
    let account ← orRaise (db.creditAccounts.find? accountId) (.insufficientCredits accountId)
    ensure (¬ account.balance - db.held accountId < units) (.insufficientCredits accountId)
    let row := newReservation env tenantId accountId runId units idempotencyKey
    let reservations ← orRaise (db.reservations.insert? row) .integrityError
    let stored ← orRaise (reservations.find? row.reservationId) .typeError
    return (stored.toCreditReservation, { db with reservations })

/-- `UPDATE run_credit_reservations SET status = ?, updated_at = ? WHERE reservation_id = ?`. -/
def setStatus (reservationId : String) (status : ReservationStatus) (now : String)
    (db : Database) : Database :=
  { db with
    reservations := db.reservations.update (fun r => decide (r.reservationId = reservationId))
      (fun r => { r with status := status, updatedAt := now })
      ⟨fun _ => rfl, fun _ => rfl, fun _ h => h⟩ }

/-- `release`.  The key is accepted and not looked at: a reservation that is no
longer held is returned as it is. -/
def release (env : Env) (reservationId _idempotencyKey : String) :
    Tx Error Database CreditReservation := fun db => do
  let row ← orRaise (db.reservations.find? reservationId) (.keyError reservationId)
  match row.status with
  | .committed => return (row.toCreditReservation, db)
  | .released => return (row.toCreditReservation, db)
  | .reserved => do
    let db := setStatus reservationId .released (env.now 0) db
    let stored ← orRaise (db.reservations.find? reservationId) .typeError
    return (stored.toCreditReservation, db)

/-- The `INSERT INTO run_credit_ledger` of `commit`. -/
def newEntry (env : Env) (row : ReservationRow) (usedUnits : ℤ) (idempotencyKey : String) :
    RunLedgerRow where
  entryId := env.uuid 0
  reservationId := row.reservationId
  accountId := row.accountId
  amount := -usedUnits
  idempotencyKey := idempotencyKey
  reason := "run usage"
  createdAt := env.now 0

/-- `commit`. -/
def commit (env : Env) (reservationId : String) (usedUnits : ℤ) (idempotencyKey : String) :
    Tx Error Database CreditCommit := fun db => do
  ensure (¬ usedUnits < 0) (.valueError "used units must be a non-negative integer")
  let row ← orRaise (db.reservations.find? reservationId) (.keyError reservationId)
  -- the key comes before the status, so the replay of a commit gets through
  match db.runLedger.findBy? idempotencyKey with
  | some existing => do
    ensure (existing.reservationId = reservationId ∧ existing.amount = -usedUnits)
      (.reservationConflict "commit idempotency key is already used")
    return (⟨reservationId, existing.accountId, usedUnits, idempotencyKey⟩, db)
  | none => do
    ensure (row.status ≠ .released)
      (.reservationConflict "released reservation cannot be committed")
    ensure (¬ row.units < usedUnits) (.valueError "actual usage exceeds the reserved units")
    ensure (row.status ≠ .committed)
      (.reservationConflict "reservation was committed with another key")
    let db ← db.updateBalance row.accountId (-usedUnits) fun balance => usedUnits ≤ balance
    let runLedger ← orRaise (db.runLedger.insert? (newEntry env row usedUnits idempotencyKey))
      .integrityError
    let db := setStatus reservationId .committed (env.now 1) { db with runLedger }
    return (⟨reservationId, row.accountId, usedUnits, idempotencyKey⟩, db)

/-- The argument checks of `adjust`. -/
def adjustChecks (accountId : String) (amount : ℤ) (idempotencyKey reason : String) :
    Except Error Unit := do
  ensure (¬ blank accountId) (.valueError "account id must be non-empty")
  ensure (amount ≠ 0) (.valueError "credit adjustment must be a non-zero integer")
  ensure (8 ≤ idempotencyKey.length)
    (.valueError "credit adjustment idempotency key must be at least 8 characters")
  ensure (¬ blank reason) (.valueError "credit adjustment reason must be non-empty")

/-- The `INSERT INTO credit_adjustments` of `adjust`. -/
def newAdjustment (env : Env) (accountId : String) (amount : ℤ) (idempotencyKey reason : String) :
    AdjustmentRow where
  adjustmentId := env.uuid 0
  accountId := accountId
  amount := amount
  idempotencyKey := idempotencyKey
  reason := reason
  createdAt := env.now 0

/-- `adjust`. -/
def adjust (env : Env) (accountId : String) (amount : ℤ) (idempotencyKey reason : String) :
    Tx Error Database ℤ := fun db => do
  adjustChecks accountId amount idempotencyKey reason
  match db.adjustments.findBy? idempotencyKey with
  | some existing => do
    -- the reason may differ
    ensure (existing.accountId = accountId ∧ existing.amount = amount)
      (.reservationConflict "credit adjustment idempotency key is already used")
    return (db.available accountId, db)
  | none => do
    let db := db.ensureAccount accountId
    let held := db.held accountId
    let db ← db.updateBalance accountId amount fun balance => 0 ≤ balance + amount - held
    let adjustments ← orRaise
      (db.adjustments.insert? (newAdjustment env accountId amount idempotencyKey reason))
      .integrityError
    let db := { db with adjustments }
    return (db.available accountId, db)

/-! ### What a returning operation did -/

variable {env : Env} {db db' : Database} {t a r k id reason : String} {u used amount : ℤ}
  {res : CreditReservation} {com : CreditCommit} {avail : ℤ}

/-- **What `reserve` did**: it returned the row that already has the key, or it
inserted a reservation the account's available credits cover. -/
theorem reserve_eq_ok (h : reserve env t a r u k db = .ok (res, db')) :
    reserveChecks t a r u k = .ok () ∧
      ((∃ existing, db.reservations.findBy? k = some existing ∧ db' = db ∧
          (existing.tenantId, existing.accountId, existing.runId, existing.units) = (t, a, r, u)) ∨
        ∃ account reservations, db.reservations.findBy? k = none ∧
          db.creditAccounts.find? a = some account ∧ u ≤ account.balance - db.held a ∧
          db.reservations.insert? (newReservation env t a r u k) = some reservations ∧
          db' = { db with reservations }) := by
  simp only [reserve, bind_eq_ok] at h
  obtain ⟨⟨⟩, hchk, h⟩ := h
  refine ⟨hchk, ?_⟩
  cases hk : db.reservations.findBy? k with
  | some existing =>
    simp only [hk, bind_eq_ok, ensure_eq_ok, decide_eq_true_eq] at h
    obtain ⟨-, hsame, hdb⟩ := h
    exact Or.inl ⟨existing, rfl, (Prod.mk.inj (Except.ok.inj hdb)).2.symm, hsame⟩
  | none =>
    simp only [hk, bind_eq_ok, ensure_eq_ok, orRaise_eq_ok, decide_eq_true_eq] at h
    obtain ⟨account, hacc, -, hcover, reservations, hins, stored, -, hdb⟩ := h
    refine Or.inr ⟨account, reservations, rfl, hacc, by omega, hins, ?_⟩
    exact (Prod.mk.inj (Except.ok.inj hdb)).2.symm

/-- **What `release` did**: nothing to a reservation that is no longer held, and
it released one that is. -/
theorem release_eq_ok (h : release env id k db = .ok (res, db')) :
    ∃ row, db.reservations.find? id = some row ∧
      ((row.status ≠ .reserved ∧ db' = db) ∨
        (row.status = .reserved ∧ db' = setStatus id .released (env.now 0) db)) := by
  simp only [release, bind_eq_ok, orRaise_eq_ok] at h
  obtain ⟨row, hrow, h⟩ := h
  refine ⟨row, hrow, ?_⟩
  cases hs : row.status with
  | committed =>
    simp only [hs] at h
    exact Or.inl ⟨by simp, (Prod.mk.inj (Except.ok.inj h)).2.symm⟩
  | released =>
    simp only [hs] at h
    exact Or.inl ⟨by simp, (Prod.mk.inj (Except.ok.inj h)).2.symm⟩
  | reserved =>
    simp only [hs, bind_eq_ok, orRaise_eq_ok] at h
    obtain ⟨stored, -, hdb⟩ := h
    exact Or.inr ⟨rfl, (Prod.mk.inj (Except.ok.inj hdb)).2.symm⟩

/-- **What `commit` did**: it found the entry that already has the key, or it
debited the account of a held reservation, wrote the entry and closed the
reservation. -/
theorem commit_eq_ok (h : commit env id used k db = .ok (com, db')) :
    0 ≤ used ∧ ∃ row, db.reservations.find? id = some row ∧
      ((∃ existing, db.runLedger.findBy? k = some existing ∧ existing.reservationId = id ∧
          existing.amount = -used ∧ db' = db) ∨
        ∃ db₁ runLedger, db.runLedger.findBy? k = none ∧ row.status = .reserved ∧
          used ≤ row.units ∧
          db.updateBalance row.accountId (-used) (fun balance => used ≤ balance) = .ok db₁ ∧
          db₁.runLedger.insert? (newEntry env row used k) = some runLedger ∧
          db' = setStatus id .committed (env.now 1) { db₁ with runLedger }) := by
  simp only [commit, bind_eq_ok, ensure_eq_ok, orRaise_eq_ok, decide_eq_true_eq] at h
  obtain ⟨-, hused, row, hrow, h⟩ := h
  refine ⟨by omega, row, hrow, ?_⟩
  cases hk : db.runLedger.findBy? k with
  | some existing =>
    simp only [hk, bind_eq_ok, ensure_eq_ok, decide_eq_true_eq] at h
    obtain ⟨-, ⟨hres, hamt⟩, hdb⟩ := h
    exact Or.inl ⟨existing, rfl, hres, hamt, (Prod.mk.inj (Except.ok.inj hdb)).2.symm⟩
  | none =>
    simp only [hk, bind_eq_ok, ensure_eq_ok, orRaise_eq_ok, decide_eq_true_eq] at h
    obtain ⟨-, hrel, -, hunits, -, hcom, db₁, hbal, runLedger, hins, hdb⟩ := h
    have hs : row.status = .reserved := by
      cases hst : row.status with
      | reserved => rfl
      | committed => exact absurd hst hcom
      | released => exact absurd hst hrel
    exact Or.inr ⟨db₁, runLedger, rfl, hs, by omega, hbal, hins,
      (Prod.mk.inj (Except.ok.inj hdb)).2.symm⟩

/-- **What `adjust` did**: it found the adjustment that already has the key, or
it moved the balance of an account that covers its holds afterwards. -/
theorem adjust_eq_ok (h : adjust env a amount k reason db = .ok (avail, db')) :
    adjustChecks a amount k reason = .ok () ∧
      ((∃ existing, db.adjustments.findBy? k = some existing ∧ existing.accountId = a ∧
          existing.amount = amount ∧ db' = db) ∨
        ∃ db₁ adjustments, db.adjustments.findBy? k = none ∧
          (db.ensureAccount a).updateBalance a amount
            (fun balance => 0 ≤ balance + amount - (db.ensureAccount a).held a) = .ok db₁ ∧
          db₁.adjustments.insert? (newAdjustment env a amount k reason) = some adjustments ∧
          db' = { db₁ with adjustments }) := by
  simp only [adjust, bind_eq_ok] at h
  obtain ⟨⟨⟩, hchk, h⟩ := h
  refine ⟨hchk, ?_⟩
  cases hk : db.adjustments.findBy? k with
  | some existing =>
    simp only [hk, bind_eq_ok, ensure_eq_ok, decide_eq_true_eq] at h
    obtain ⟨-, ⟨hacc, hamt⟩, hdb⟩ := h
    exact Or.inl ⟨existing, rfl, hacc, hamt, (Prod.mk.inj (Except.ok.inj hdb)).2.symm⟩
  | none =>
    simp only [hk, bind_eq_ok, orRaise_eq_ok] at h
    obtain ⟨db₁, hbal, adjustments, hins, hdb⟩ := h
    exact Or.inr ⟨db₁, adjustments, rfl, hbal, hins, (Prod.mk.inj (Except.ok.inj hdb)).2.symm⟩

/-! ### Keys that are already used -/

theorem reserve_replay {existing : ReservationRow} (hchk : reserveChecks t a r u k = .ok ())
    (hk : db.reservations.findBy? k = some existing)
    (hsame : (existing.tenantId, existing.accountId, existing.runId, existing.units)
      = (t, a, r, u)) :
    reserve env t a r u k db = .ok (existing.toCreditReservation, db) := by
  simp [reserve, hchk, hk, hsame, ensure, bind, Except.bind, pure, Except.pure]

theorem reserve_conflict {existing : ReservationRow}
    (hk : db.reservations.findBy? k = some existing)
    (hdiff : (existing.tenantId, existing.accountId, existing.runId, existing.units)
      ≠ (t, a, r, u)) :
    ∃ e, reserve env t a r u k db = .error e := by
  cases hr : reserve env t a r u k db with
  | error e => exact ⟨e, rfl⟩
  | ok p =>
    obtain ⟨res, db'⟩ := p
    obtain ⟨-, ⟨existing', hk', -, hsame⟩ | ⟨_, _, hk', -⟩⟩ := reserve_eq_ok hr
    · rw [hk] at hk'
      exact absurd (Option.some.inj hk' ▸ hsame) hdiff
    · rw [hk] at hk'
      simp at hk'

theorem release_replay {row : ReservationRow} (hrow : db.reservations.find? id = some row)
    (hs : row.status ≠ .reserved) :
    release env id k db = .ok (row.toCreditReservation, db) := by
  cases hst : row.status with
  | reserved => exact absurd hst hs
  | committed => simp [release, hrow, hst, orRaise, bind, Except.bind, pure, Except.pure]
  | released => simp [release, hrow, hst, orRaise, bind, Except.bind, pure, Except.pure]

theorem commit_replay {row : ReservationRow} {existing : RunLedgerRow} (hused : 0 ≤ used)
    (hrow : db.reservations.find? id = some row) (hk : db.runLedger.findBy? k = some existing)
    (hres : existing.reservationId = id) (hamt : existing.amount = -used) :
    commit env id used k db = .ok (⟨id, existing.accountId, used, k⟩, db) := by
  have hnot : ¬ used < 0 := by omega
  simp [commit, hnot, hrow, hk, hres, hamt, ensure, orRaise, bind, Except.bind, pure, Except.pure]

theorem commit_conflict {existing : RunLedgerRow} (hk : db.runLedger.findBy? k = some existing)
    (hdiff : ¬ (existing.reservationId = id ∧ existing.amount = -used)) :
    ∃ e, commit env id used k db = .error e := by
  cases hc : commit env id used k db with
  | error e => exact ⟨e, rfl⟩
  | ok p =>
    obtain ⟨com, db'⟩ := p
    obtain ⟨-, row, -, ⟨existing', hk', hres, hamt, -⟩ | ⟨_, _, hk', -⟩⟩ := commit_eq_ok hc
    · rw [hk] at hk'
      exact absurd (Option.some.inj hk' ▸ ⟨hres, hamt⟩) hdiff
    · rw [hk] at hk'
      simp at hk'

theorem adjust_replay {existing : AdjustmentRow} (hchk : adjustChecks a amount k reason = .ok ())
    (hk : db.adjustments.findBy? k = some existing) (hacc : existing.accountId = a)
    (hamt : existing.amount = amount) :
    adjust env a amount k reason db = .ok (db.available a, db) := by
  simp [adjust, hchk, hk, hacc, hamt, ensure, bind, Except.bind, pure, Except.pure]

theorem adjust_conflict {existing : AdjustmentRow} (hk : db.adjustments.findBy? k = some existing)
    (hdiff : ¬ (existing.accountId = a ∧ existing.amount = amount)) :
    ∃ e, adjust env a amount k reason db = .error e := by
  cases hc : adjust env a amount k reason db with
  | error e => exact ⟨e, rfl⟩
  | ok p =>
    obtain ⟨avail, db'⟩ := p
    obtain ⟨-, ⟨existing', hk', hacc, hamt, -⟩ | ⟨_, _, hk', -⟩⟩ := adjust_eq_ok hc
    · rw [hk] at hk'
      exact absurd (Option.some.inj hk' ▸ ⟨hacc, hamt⟩) hdiff
    · rw [hk] at hk'
      simp at hk'

end CreditLedger

end AiSaas
