import AiSaas.Lib.Escrow
import AiSaas.LocalRuntime
import Mathlib.Data.Int.ConditionallyCompleteOrder
import Mathlib.Data.Int.SuccPred

/-!
# Solvency

The ledger keeps credits in escrow: an account owns its balance, and the units
of its reservations that are still `reserved` are held back.  Each ledger write
is one move of that escrow, and its guard is what keeps the escrow solvent.  The
billing store moves the same balances without looking at the holds; which of its
refunds keep them covered is stated at the end.

## Main definitions

* `Database.escrow` — the escrow an open file stands for.
* `LocalRuntime.RefundCovered` — a call is no refund that eats into the holds.

## Main results

* `CreditLedger.escrow_reserve`, `escrow_release`, `escrow_commit`, `escrow_adjust`
  — the ledger's writes as moves.
* `CreditLedger.solvent_run` — no run of ledger calls ends insolvent.
* `LocalRuntime.holds_covered_of_refunds_covered` — nor does a run of both stores whose refunds are covered.
-/

namespace AiSaas

open Relational Transaction

namespace Database

/-- The escrow of the shared file. -/
def escrow (db : Database) : Escrow String ℤ := ⟨db.balance, db.held⟩

variable {db db' : Database} {a : String}

theorem available_eq_of_solvent (h : db.escrow.Solvent) (a : String) :
    db.available a = db.escrow.available a := available_eq (h a)

theorem available_nonneg_of_solvent (h : db.escrow.Solvent) (a : String) : 0 ≤ db.available a := by
  rw [available_eq_of_solvent h]
  exact h.available_nonneg a

theorem escrow_of_updateBalance {amount : ℤ} {guard : ℤ → Bool}
    (h : updateBalance a amount guard db = .ok db') :
    db'.escrow = db.escrow.deposit a amount := by
  obtain ⟨account, creditAccounts, -, -, hdb, hbal⟩ := updateBalance_eq_ok h
  ext x
  · rw [Escrow.balance_deposit]
    exact hbal x
  · rw [Escrow.held_deposit, hdb]
    rfl

/-- Units held for a reservation are part of what its account owns. -/
theorem units_le_held {row : ReservationRow} (hrow : row ∈ db.reservations.rows)
    (hs : row.status = .reserved) : row.units ≤ db.held row.accountId := by
  refine le_sumWhere (f := fun r : ReservationRow => r.units) ?_ hrow (by simp [hs])
  intro r hr _
  have hpos := db.reservations.checked r hr
  simp only [decide_eq_true_eq] at hpos
  omega

/-- Opening the ledger leaves an escrow without holds. -/
theorem solvent_openLedger {balances : List (String × ℤ)}
    (h : CreditLedger.openLedger balances .empty = .ok db) : db.escrow.Solvent := by
  obtain ⟨creditAccounts, rfl⟩ := CreditLedger.openLedger_eq_ok h
  exact fun a => balance_nonneg _ a

end Database

namespace CreditLedger

variable {env : Env} {db db' : Database} {id a k : String} {u used amount : ℤ}
  {row : ReservationRow}

/-! ### The writes as moves -/

/-- Ending a reservation frees its units. -/
theorem held_setStatus {status : ReservationStatus} {now : String}
    (hrow : db.reservations.find? id = some row) (hs : row.status = .reserved)
    (hne : status ≠ .reserved) (x : String) :
    (setStatus id status now db).held x
      = db.held x + if x = row.accountId then -row.units else 0 := by
  obtain ⟨hmem, rfl⟩ := Table.find?_eq_some.mp hrow
  have hmoved := sumWhere_setWhere (g := fun r => { r with status := status, updatedAt := now })
    (fun r => decide (r.accountId = x ∧ r.status = .reserved)) (fun r => r.units)
    db.reservations.pk_nodup hmem
  simp only [hs, hne, and_false, and_true, decide_false, Bool.false_eq_true, if_false,
    decide_eq_true_eq, add_zero] at hmoved
  change sumWhere _ _ (setWhere _ _ db.reservations.rows) = sumWhere _ _ db.reservations.rows + _
  by_cases hx : x = row.accountId
  · rw [if_pos hx.symm] at hmoved
    rw [if_pos hx]
    omega
  · rw [if_neg (Ne.symm hx)] at hmoved
    rw [if_neg hx]
    omega

/-- `reserve` holds the units. -/
theorem escrow_reserve {t r : String}
    {reservations : Table (fun r : ReservationRow => r.reservationId) (fun r => r.idempotencyKey)
      fun r => decide (0 < r.units)}
    (h : db.reservations.insert? (newReservation env t a r u k) = some reservations) :
    Database.escrow { db with reservations } = db.escrow.hold a u := by
  ext x
  · rfl
  · rw [Escrow.held_hold]
    change sumWhere _ _ reservations.rows = _
    rw [(Table.insert?_eq_some h).1, sumWhere_concat]
    by_cases hx : x = a
    · subst hx
      simp [newReservation, Database.escrow, Database.held]
    · simp [newReservation, Database.escrow, Database.held, hx, Ne.symm hx]

/-- `release` ends the hold. -/
theorem escrow_release {now : String} (hrow : db.reservations.find? id = some row)
    (hs : row.status = .reserved) :
    (setStatus id .released now db).escrow = db.escrow.hold row.accountId (-row.units) := by
  ext x
  · rfl
  · rw [Escrow.held_hold]
    exact held_setStatus hrow hs (by decide) x

/-- `commit` settles the hold. -/
theorem escrow_commit {now : String} {db₁ : Database} {guard : ℤ → Bool}
    {runLedger : Table RunLedgerRow.entryId RunLedgerRow.idempotencyKey fun _ => true}
    (hrow : db.reservations.find? id = some row) (hs : row.status = .reserved)
    (hupd : db.updateBalance row.accountId (-used) guard = .ok db₁) :
    (setStatus id .committed now { db₁ with runLedger }).escrow
      = db.escrow.settle row.accountId row.units used := by
  have hdebit := Database.escrow_of_updateBalance hupd
  obtain ⟨account, creditAccounts, -, -, hdb, -⟩ := Database.updateBalance_eq_ok hupd
  ext x
  · rw [Escrow.settle, Escrow.balance_deposit, Escrow.balance_hold, ← Escrow.balance_deposit,
      ← hdebit]
    rfl
  · rw [Escrow.settle, Escrow.held_deposit, Escrow.held_hold]
    rw [hdb]
    exact held_setStatus hrow hs (by decide) x

/-- `adjust` deposits the amount. -/
theorem escrow_adjust {db₁ : Database} {guard : ℤ → Bool}
    {adjustments : Table AdjustmentRow.adjustmentId AdjustmentRow.idempotencyKey fun _ => true}
    (h : (db.ensureAccount a).updateBalance a amount guard = .ok db₁) :
    Database.escrow { db₁ with adjustments } = db.escrow.deposit a amount := by
  have hensure : (db.ensureAccount a).escrow = db.escrow := by
    ext x
    · exact Database.balance_ensureAccount a x
    · rfl
  rw [← hensure, ← Database.escrow_of_updateBalance h]
  rfl

/-- **The guard of each write keeps the escrow solvent.** -/
theorem Writes.solvent {call : Call} (h : Writes env db call db') (hs : db.escrow.Solvent) :
    db'.escrow.Solvent := by
  cases h with
  | @reserve t a r u k account reservations _ _ found covered insert =>
    have hbalance : db.balance a = account.balance := by simp [Database.balance, found]
    rw [escrow_reserve insert, hs.hold_iff]
    change u ≤ db.balance a - db.held a
    omega
  | @release id k row found reserved =>
    have hunits := db.reservations.checked row (Table.find?_eq_some.mp found).1
    simp only [decide_eq_true_eq] at hunits
    rw [escrow_release found reserved]
    exact hs.free hunits.le
  | @commit id used k row db₁ runLedger nonneg found reserved _ within debit _ =>
    have hunits := db.reservations.checked row (Table.find?_eq_some.mp found).1
    simp only [decide_eq_true_eq] at hunits
    rw [escrow_commit found reserved debit]
    exact hs.settle hunits.le within
  | @adjust a amount k reason db₁ adjustments _ _ move _ =>
    obtain ⟨account, -, hacc, hguard, -, -⟩ := Database.updateBalance_eq_ok move
    have hbalance : account.balance = db.balance a := by
      rw [← Database.balance_ensureAccount a, Database.balance, hacc, Option.elim]
    rw [escrow_adjust move, hs.deposit_iff]
    simp only [decide_eq_true_eq] at hguard
    have hheld : (db.ensureAccount a).held a = db.held a := rfl
    change db.held a ≤ db.balance a + amount
    omega

theorem solvent_step (db : Database) (call : Env × Call) (hs : db.escrow.Solvent) :
    (step db call).escrow.Solvent := by
  rcases step_cases call.1 call.2 db with hsame | hwrites
  · rwa [show step db call = db from hsame]
  · exact hwrites.solvent hs

/-- The debit of a held reservation goes through in a solvent file. -/
theorem updateBalance_of_solvent (hs : db.escrow.Solvent)
    (hrow : db.reservations.find? id = some row) (hres : row.status = .reserved)
    (hwithin : used ≤ row.units) :
    ∃ db₁, db.updateBalance row.accountId (-used) (fun balance => used ≤ balance) = .ok db₁ := by
  have hmem := (Table.find?_eq_some.mp hrow).1
  have hunits := db.reservations.checked row hmem
  simp only [decide_eq_true_eq] at hunits
  have hheld : row.units ≤ db.balance row.accountId :=
    (Database.units_le_held hmem hres).trans (hs row.accountId)
  unfold Database.balance at hheld
  cases hacc : db.creditAccounts.find? row.accountId with
  | none =>
    simp only [hacc, Option.elim] at hheld
    omega
  | some account =>
    simp only [hacc, Option.elim] at hheld
    exact Database.updateBalance_ok_of hacc (by simp; omega) (by omega)

/-- **A held reservation can be committed**: in a solvent file a commit within
its units under a new key is refused only when its entry's id is taken. -/
theorem commit_of_solvent (env : Env) (hs : db.escrow.Solvent)
    (hrow : db.reservations.find? id = some row) (hres : row.status = .reserved)
    (hnonneg : 0 ≤ used) (hwithin : used ≤ row.units) (hk : db.runLedger.findBy? k = none) :
    (∃ com db', commit env id used k db = .ok (com, db')) ∨
      commit env id used k db = .error .integrityError ∧
        ∃ r ∈ db.runLedger.rows, r.entryId = env.uuid 0 := by
  obtain ⟨db₁, hupd⟩ := updateBalance_of_solvent hs hrow hres hwithin
  obtain ⟨account, creditAccounts, -, -, hdb₁, -⟩ := Database.updateBalance_eq_ok hupd
  have hledger : db₁.runLedger = db.runLedger := by rw [hdb₁]
  have hused : ¬ used < 0 := by omega
  have hunits : ¬ row.units < used := by omega
  cases hins : db.runLedger.insert? (newEntry env row used k) with
  | some runLedger =>
    left
    simp [commit, hused, hrow, hk, hres, hunits, hupd, hledger, hins, ensure, orRaise, bind,
      Except.bind, pure, Except.pure]
  | none =>
    right
    refine ⟨by simp [commit, hused, hrow, hk, hres, hunits, hupd, hledger, hins, ensure, orRaise,
      bind, Except.bind], ?_⟩
    by_contra hfresh
    push Not at hfresh
    obtain ⟨t, ht⟩ := Table.exists_insert?_eq_some (t := db.runLedger)
      (r := newEntry env row used k) rfl hfresh (Table.findBy?_eq_none.mp hk)
    rw [ht] at hins
    cases hins

end CreditLedger

namespace BillingStore

variable {env : Env} {db db' : Database}

/-- An entry that goes in is a deposit, one that is refused no move at all. -/
theorem escrow_of_posted {entry : LedgerRow} (h : Posted entry db db')
    (hres : db'.reservations = db.reservations) :
    db'.escrow = db.escrow ∨ (db.creditLedger.insert? entry).isSome ∧
      0 ≤ db.balance entry.accountId + entry.amount ∧
      db'.escrow = db.escrow.deposit entry.accountId entry.amount := by
  have hheld : ∀ x, db'.held x = db.held x := Database.held_of_reservations_eq hres
  rcases h with ⟨-, -, hbal⟩ | ⟨⟨creditLedger, hins⟩, hcovered, -, hbal⟩
  · exact Or.inl (Escrow.ext (funext hbal) (funext hheld))
  · refine Or.inr ⟨by rw [hins]; rfl, hcovered, Escrow.ext (funext ?_) (funext hheld)⟩
    intro x
    rw [Escrow.balance_deposit]
    exact hbal x

end BillingStore

namespace LocalRuntime

/-- A call is no refund that eats into the holds of its account: one the store
applies, because its entry goes in and the balance is large enough, finds the
credits of its order available. -/
def RefundCovered (db : Database) : Env × Call → Prop
  | (env, .billing (.processEvent event _ _)) =>
    ∀ before ∈ db.order? event.orderId,
      (BillingStore.duplicate? event db).isNone ∧ event.status = .refunded ∧
          before.status = .succeeded ∧ (∀ n ∈ event.amountMinor, n = before.amountMinor) ∧
          (db.creditLedger.insert? (BillingStore.entryOf env event before .refund)).isSome ∧
          before.creditGrant ≤ db.balance before.accountId →
        before.creditGrant ≤ db.available before.accountId
  | _ => True

instance (db : Database) : ∀ call, Decidable (RefundCovered db call)
  | (_, .billing (.processEvent event _ _)) =>
    inferInstanceAs (Decidable (∀ before ∈ db.order? event.orderId, _ → _))
  | (_, .billing (.createPendingOrder _ _)) => isTrue trivial
  | (_, .billing (.attachCheckout _ _ _)) => isTrue trivial
  | (_, .ledger _) => isTrue trivial

/-- A call that is no uncovered refund keeps the file solvent. -/
theorem solvent_step (db : Database) (call : Env × Call) (hcov : RefundCovered db call)
    (hs : db.escrow.Solvent) : (step db call).escrow.Solvent := by
  obtain ⟨env, c⟩ := call
  rcases step_cases db env c with hsame | ⟨c, rfl, hwrites⟩ | ⟨c, rfl, hwrites⟩
  · rwa [hsame]
  · exact hwrites.solvent hs
  · generalize step db (env, .billing c) = db' at hwrites
    cases hwrites with
    | create _ _ => exact hs
    | attach _ _ => exact hs
    | @accept event rawBody headers before _ accepted =>
      cases he : Payment.effect before.status event.status with
      | none =>
        have hsame : db'.escrow = db.escrow := Escrow.ext
          (funext (Database.balance_of_creditAccounts_eq (accepted.idle he).1))
          (funext (Database.held_of_reservations_eq accepted.runs.1))
        rwa [hsame]
      | some e =>
        have hmove := BillingStore.escrow_of_posted (accepted.posted e he) accepted.runs.1
        rcases hmove with hsame | ⟨hinsert, hamount, hmove⟩
        · rwa [hsame]
        · rw [hmove, hs.deposit_iff]
          have hbefore : db.held before.accountId ≤ db.balance before.accountId :=
            hs before.accountId
          cases e with
          | grant =>
            have hgrant := before.grant_nonneg
            change db.held before.accountId ≤ db.balance before.accountId + before.creditGrant
            omega
          | refund =>
            -- the entry went in, so the balance covers the refund, and by the
            -- condition so do the available credits
            obtain ⟨hev, hst⟩ := Payment.effect_eq_refund.mp he
            change 0 ≤ db.balance before.accountId + -before.creditGrant at hamount
            have hcovered := hcov before accepted.found
              ⟨by simp [accepted.new], hev, hst, accepted.amount, hinsert, by omega⟩
            have havail : db.available before.accountId
                = db.balance before.accountId - db.held before.accountId :=
              Database.available_eq_of_solvent hs before.accountId
            change db.held before.accountId ≤ db.balance before.accountId + -before.creditGrant
            omega

/-- A payment of ten credits, a run that reserves them, and the refund. -/
def refundAfterReserve : List (Env × Call) :=
  [(Sample.env "a", .billing (.createPendingOrder Sample.order "mock")),
    (Sample.env "b", .billing (.processEvent (Sample.event "1" .succeeded) [] [])),
    (Sample.env "c", .ledger (.reserve "tenant-1" "account-1" "run-1" 10 "reserve-1")),
    (Sample.env "d", .billing (.processEvent (Sample.event "2" .refunded) [] []))]

end LocalRuntime

end AiSaas
