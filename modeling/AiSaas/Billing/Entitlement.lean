import AiSaas.LocalRuntime

/-!
# Entitlements

The plan of an account is meant to follow its paid orders: the plan of one of
them while there is one, and `free` otherwise.  The store overwrites the plan
with every payment and every refund, so a refund leaves `free` behind even where
another order of the account still counts as paid.

## Main definitions

* `Database.paidPlan` — the plan an order pays for, if it counts as paid.
* `Follows` — the plan of an account follows its paid orders.
* `LocalRuntime.RefundAlone` — a call refunds no order next to another paid one.

## Main results

* `follows_step` — what a call preserves.
* `LocalRuntime.entitlement_follows` — the plans of all accounts, along every run
  of calls that meet the condition.
* `LocalRuntime.refund_takes_plan` — a run that does not.
-/

namespace AiSaas

open Relational Transaction

namespace Database

/-- The plan an order pays for on an account, if it is the account's and counts
as paid. -/
def paidPlan (db : Database) (a o : String) : Option String :=
  (db.order? o).bind fun order =>
    if order.accountId = a ∧ order.status = .succeeded then some order.planId else none

theorem paidPlan_eq_some {db : Database} {a o plan : String} :
    db.paidPlan a o = some plan ↔ ∃ order, db.order? o = some order ∧ order.accountId = a ∧
      order.status = .succeeded ∧ order.planId = plan := by
  unfold paidPlan
  cases db.order? o with
  | none => simp
  | some order => simp [and_assoc]

theorem paidPlan_eq_none {db : Database} {a o : String} :
    db.paidPlan a o = none ↔
      ∀ order, db.order? o = some order → order.accountId = a → order.status ≠ .succeeded := by
  unfold paidPlan
  cases db.order? o with
  | none => simp
  | some order => simp

end Database

/-- The plan of an account is that of one of its paid orders, or `free` where it
has none. -/
def Follows (db : Database) (a : String) : Prop :=
  (∃ o, db.paidPlan a o = some (db.plan a)) ∨ (∀ o, db.paidPlan a o = none) ∧ db.plan a = "free"

variable {db db' : Database} {a : String}

theorem Follows.congr (h : Follows db a) (hpaid : ∀ o, db'.paidPlan a o = db.paidPlan a o)
    (hplan : db'.plan a = db.plan a) : Follows db' a := by
  simp only [Follows, hpaid, hplan]
  exact h

namespace LocalRuntime

/-- A call refunds no order next to another paid one of its account, unless the
refund is turned down because its entry would go in and the balance is too small. -/
def RefundAlone (db : Database) : Env × Call → Prop
  | (env, .billing (.processEvent event _ _)) =>
    ∀ before ∈ db.order? event.orderId,
      (BillingStore.duplicate? event db).isNone ∧ event.status = .refunded ∧
          before.status = .succeeded ∧ (∀ n ∈ event.amountMinor, n = before.amountMinor) →
        (∀ other ∈ db.billingOrders.rows, other.accountId = before.accountId →
          other.status = .succeeded → other.orderId = event.orderId) ∨
        (db.creditLedger.insert? (BillingStore.entryOf env event before .refund)).isSome ∧
          db.balance before.accountId < before.creditGrant
  | _ => True

instance (db : Database) : ∀ call, Decidable (RefundAlone db call)
  | (_, .billing (.processEvent event _ _)) =>
    inferInstanceAs (Decidable (∀ before ∈ db.order? event.orderId, _ → _))
  | (_, .billing (.createPendingOrder _ _)) => isTrue trivial
  | (_, .billing (.attachCheckout _ _ _)) => isTrue trivial
  | (_, .ledger _) => isTrue trivial

end LocalRuntime

namespace BillingStore

variable {env : Env} {event : NormalizedEvent} {before : Order} {rawBody : List UInt8}
  {headers : List (String × String)}

/-- The paid plans after an event: only its own order's can differ. -/
theorem Accepted.paidPlan (h : Accepted env event rawBody headers before db db') (a o : String) :
    db'.paidPlan a o = if o = event.orderId then
      if before.accountId = a ∧ Payment.next before.status event.status = .succeeded then
        some before.planId else none
      else db.paidPlan a o := by
  unfold Database.paidPlan
  rw [h.order o]
  by_cases hx : o = event.orderId <;> simp [hx]

/-- An event without an effect changes no paid plan. -/
theorem Accepted.paidPlan_of_idle (h : Accepted env event rawBody headers before db db')
    (he : Payment.effect before.status event.status = none) (a o : String) :
    db'.paidPlan a o = db.paidPlan a o := by
  rw [h.paidPlan a o]
  by_cases hx : o = event.orderId
  · subst hx
    simp only [if_pos, Payment.next_eq_succeeded_iff he, Database.paidPlan, h.found]
    rfl
  · rw [if_neg hx]

/-- An event changes no paid plan of another account. -/
theorem Accepted.paidPlan_of_ne (h : Accepted env event rawBody headers before db db') {a : String}
    (ha : before.accountId ≠ a) (o : String) : db'.paidPlan a o = db.paidPlan a o := by
  rw [h.paidPlan a o]
  by_cases hx : o = event.orderId
  · subst hx
    rw [if_pos rfl, if_neg (fun hand => ha hand.1), Database.paidPlan, h.found]
    simp [ha]
  · rw [if_neg hx]

/-- **What an event does to the plans**: they keep following the paid orders,
unless it refunds one next to another. -/
theorem Accepted.follows (h : Accepted env event rawBody headers before db db')
    (halone : Payment.effect before.status event.status = some .refund →
      ∀ o, o ≠ event.orderId → db.paidPlan before.accountId o = none)
    (hf : Follows db a) : Follows db' a := by
  cases he : Payment.effect before.status event.status with
  | none =>
    have hplan : db'.plan a = db.plan a := by rw [Database.plan, (h.idle he).2.2.1]; rfl
    exact hf.congr (h.paidPlan_of_idle he a) hplan
  | some e =>
    have hplan := h.plan e he a
    by_cases ha : before.accountId = a
    · rw [if_pos ha.symm] at hplan
      cases e with
      | grant =>
        have hnext : Payment.next before.status event.status = .succeeded := by
          rcases Payment.effect_eq_grant.mp he with ⟨hev, hs | hs⟩ <;> rw [hev, hs] <;> rfl
        refine Or.inl ⟨event.orderId, ?_⟩
        rw [h.paidPlan, if_pos rfl, if_pos ⟨ha, hnext⟩, hplan]
        rfl
      | refund =>
        have hnext : Payment.next before.status event.status = .refunded := by
          obtain ⟨hev, hs⟩ := Payment.effect_eq_refund.mp he
          rw [hev, hs]
          rfl
        refine Or.inr ⟨?_, hplan⟩
        intro o
        rw [h.paidPlan]
        by_cases hx : o = event.orderId
        · simp [hx, hnext]
        · rw [if_neg hx, ← ha]
          exact halone he o hx
    · rw [if_neg (Ne.symm ha)] at hplan
      exact hf.congr (h.paidPlan_of_ne ha) hplan

end BillingStore

namespace LocalRuntime

/-- A call that refunds no order next to another paid one keeps every plan
following the paid orders. -/
theorem follows_step (db : Database) (call : Env × Call) (halone : RefundAlone db call)
    (hf : ∀ a, Follows db a) (a : String) : Follows (step db call) a := by
  obtain ⟨env, c⟩ := call
  rcases step_cases db env c with hsame | ⟨c, rfl, hwrites⟩ | ⟨c, rfl, hwrites⟩
  · rw [hsame]
    exact hf a
  · obtain ⟨horders, -, hentitlements, -, -⟩ := hwrites.frame
    refine (hf a).congr ?_ (by rw [Database.plan, hentitlements]; rfl)
    intro o
    rw [Database.paidPlan, Database.order?, horders]
    rfl
  · generalize step db (env, .billing c) = db' at hwrites
    cases hwrites with
    | @create order provider billingOrders fresh insert =>
      -- the new order is pending, so it pays for nothing
      obtain ⟨hnone, hfind⟩ := BillingStore.order?_create insert
      refine (hf a).congr ?_ rfl
      intro o
      rw [Database.paidPlan, Database.paidPlan, hfind o]
      by_cases hx : o = order.orderId
      · simp [hx, hnone, BillingStore.newOrder]
      · rw [if_neg hx]
    | @attach orderId provider reference billingOrders row found horder =>
      refine (hf a).congr ?_ rfl
      intro o
      rw [Database.paidPlan, Database.paidPlan, horder o]
      by_cases hx : o = orderId
      · simp [hx, found]
      · rw [if_neg hx]
    | @accept event rawBody headers before _ accepted =>
      refine accepted.follows ?_ (hf a)
      intro he o hx
      obtain ⟨hev, hst⟩ := Payment.effect_eq_refund.mp he
      have hcond := halone before accepted.found
        ⟨by simp [accepted.new], hev, hst, accepted.amount⟩
      rcases hcond with hothers | ⟨hinsert, hsmall⟩
      · apply Database.paidPlan_eq_none.mpr
        intro order ho hacc hs
        obtain ⟨row, hrow, rfl⟩ := Option.map_eq_some_iff.mp ho
        obtain ⟨hmem, hid⟩ := Table.find?_eq_some.mp hrow
        exact hx (hid.symm.trans (hothers row hmem hacc hs))
      · -- the refund was posted, so its entry went in and the balance covered it
        rcases accepted.posted .refund he with ⟨hrefused, -⟩ | ⟨-, hcovered, -⟩
        · rw [hrefused] at hinsert
          cases hinsert
        · change 0 ≤ db.balance before.accountId + -before.creditGrant at hcovered
          omega

/-- **Entitlements follow paid orders**, along every run that refunds no order
next to another paid one of its account: an account with a paid order has the
plan of one, and an account without has plan `free`. -/
theorem entitlement_follows {balances : List (String × ℤ)} {db : Database}
    (hopen : CreditLedger.openLedger balances .empty = .ok db) {calls : List (Env × Call)}
    (halone : Runs.Along step RefundAlone db calls) (a : String) :
    let db' := Runs.final step db calls
    let paid := fun order => ∃ o, db'.order? o = some order ∧ order.accountId = a ∧
      order.status = .succeeded
    ((∃ order, paid order) → ∃ order, paid order ∧ db'.plan a = order.planId) ∧
      ((¬ ∃ order, paid order) → db'.plan a = "free") := by
  have hf : ∀ a, Follows (Runs.final step db calls) a := by
    obtain ⟨creditAccounts, rfl⟩ := CreditLedger.openLedger_eq_ok hopen
    exact halone.invariant (I := fun db => ∀ a, Follows db a)
      (fun a => Or.inr ⟨fun o => rfl, rfl⟩) follows_step
  rcases hf a with ⟨o, ho⟩ | ⟨hnone, hfree⟩
  · obtain ⟨order, horder, hacc, hs, hplan⟩ := Database.paidPlan_eq_some.mp ho
    exact ⟨fun _ => ⟨order, ⟨o, horder, hacc, hs⟩, hplan.symm⟩,
      fun hno => absurd ⟨order, o, horder, hacc, hs⟩ hno⟩
  · refine ⟨?_, fun _ => hfree⟩
    rintro ⟨order, o, horder, hacc, hs⟩
    exact absurd hs (Database.paidPlan_eq_none.mp (hnone o) order horder hacc)

/-- A second order of the account, on another plan. -/
def teamOrder : CreateOrder :=
  { Sample.order with
    orderId := "order-2"
    planId := "team"
    idempotencyKey := "order-idem-2"
    nonblank := by decide
    key_length := by decide }

/-- Both orders are created and the first one is paid. -/
def firstPaid : List (Env × Call) :=
  [(Sample.env "a", .billing (.createPendingOrder Sample.order "mock")),
    (Sample.env "b", .billing (.createPendingOrder teamOrder "mock")),
    (Sample.env "c", .billing (.processEvent (Sample.event "1" .succeeded) [] []))]

/-- The payment of the second order. -/
def secondPaid : Env × Call :=
  (Sample.env "d", .billing (.processEvent
    { Sample.event "2" .succeeded with orderId := "order-2", orderId_ne := by decide } [] []))

/-- The refund of the first order. -/
def firstRefunded : Env × Call :=
  (Sample.env "e", .billing (.processEvent (Sample.event "3" .refunded) [] []))

/-- The refund of an order while no other order of the account is paid. -/
theorem entitlement_follows_refund : ∃ db, CreditLedger.openLedger [] .empty = .ok db ∧
    (Runs.final step db (firstPaid ++ [firstRefunded, secondPaid])).plan "account-1" ≠ "free" ∧
      ∃ order : Order, (Runs.final step db (firstPaid ++ [firstRefunded, secondPaid])).plan "account-1"
        = order.planId ∧ order.status = .succeeded := by
  have hopen : CreditLedger.openLedger [] .empty = .ok _ := rfl
  have hrun := entitlement_follows hopen (show Runs.Along step RefundAlone _
    (firstPaid ++ [firstRefunded, secondPaid]) by decide) "account-1"
  obtain ⟨order, ⟨-, -, -, hs⟩, hplan⟩ := hrun.1 ⟨_, "order-2", rfl, rfl, rfl⟩
  exact ⟨_, hopen, by decide, order, hplan, hs⟩

/-- The same calls in another order: the refund of the first order takes the plan
away that the second one still pays for. -/
theorem refund_takes_plan : ∃ db, CreditLedger.openLedger [] .empty = .ok db ∧
    let db' := Runs.final step db (firstPaid ++ [secondPaid, firstRefunded])
    db'.plan "account-1" = "free" ∧
      db'.paidPlan "account-1" "order-2" = some "team" ∧
      (db'.order? "order-2").map (·.status) = some .succeeded :=
  ⟨_, rfl, by decide, by decide, by decide⟩

end LocalRuntime

end AiSaas
