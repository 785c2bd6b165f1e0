import AiSaas.LocalRuntime

/-!
# Payments are exactly once

The billing store refines `Payment.machine`, order by order: the history of an
order is what the inbox holds about it, its status is the machine's state, and
its rows in `credit_ledger` are the machine's effects.  That takes two things
from outside: provider names without the colon that ledger keys are joined with,
and ids that `uuid4` did not draw before.

## Main definitions

* `Database.history` — the statuses of the accepted events about an order.
* `Database.paymentsOf`, `grantsOf`, `refundsOf`, `netCredit` — its ledger rows.
* `LocalRuntime.Plain` — a call meets the two assumptions.
* `BillingStore.Refines` — orders and ledger are what the machine says.

## Main results

* `BillingStore.keyOf_inj`, `BillingStore.reasonOf_inj` — what keys and reasons tell apart.
* `BillingStore.Accepted.inserted` — an effect is never ignored by the ledger.
* `LocalRuntime.refines_run` — the refinement, along every run.
* `LocalRuntime.payment_effects_exactly_once` — its consequences for the ledger.
* `LocalRuntime.refund_is_final_iff` — when a refund is final.
-/

namespace AiSaas

open Relational Transaction

namespace Database

/-- The statuses of the accepted events about an order, oldest first. -/
def history (db : Database) (orderId : String) : List Status :=
  (db.providerInbox.rows.filter fun row => decide (row.event.orderId = orderId)).map
    fun row => row.event.status

/-- The ledger rows of an order, oldest first. -/
def paymentsOf (db : Database) (orderId : String) : List LedgerRow :=
  db.creditLedger.rows.filter fun r =>
    decide (r.reason = BillingStore.grantReason orderId ∨ r.reason = BillingStore.refundReason orderId)

/-- The grants of an order. -/
def grantsOf (db : Database) (orderId : String) : List LedgerRow :=
  db.creditLedger.rows.filter fun r => decide (r.reason = BillingStore.grantReason orderId)

/-- The refunds of an order. -/
def refundsOf (db : Database) (orderId : String) : List LedgerRow :=
  db.creditLedger.rows.filter fun r => decide (r.reason = BillingStore.refundReason orderId)

/-- What the ledger rows of an order add up to. -/
def netCredit (db : Database) (orderId : String) : ℤ :=
  ((db.paymentsOf orderId).map LedgerRow.amount).sum

end Database

namespace BillingStore

/-! ### Keys and reasons -/

/-- What ends a ledger key. -/
def keyEnd : Payment.Effect → String
  | .grant => ":grant"
  | .refund => ":refund"

theorem keyOf_eq (event : NormalizedEvent) (e : Payment.Effect) :
    keyOf event e = event.provider ++ ":" ++ event.idempotencyKey ++ keyEnd e := by
  cases e <;> rfl

/-- The end of a key tells the effect. -/
theorem append_keyEnd_inj {k k' : List Char} {e e' : Payment.Effect}
    (h : k ++ (keyEnd e).toList = k' ++ (keyEnd e').toList) : k = k' ∧ e = e' := by
  have hlast := congrArg List.getLast? h
  cases e <;> cases e'
  · exact ⟨List.append_cancel_right h, rfl⟩
  · simp [keyEnd] at hlast
  · simp [keyEnd] at hlast
  · exact ⟨List.append_cancel_right h, rfl⟩

/-- What stands before the first separator is determined. -/
theorem append_cons_inj {c : Char} {p p' r r' : List Char} (hp : c ∉ p) (hp' : c ∉ p')
    (h : p ++ c :: r = p' ++ c :: r') : p = p' ∧ r = r' := by
  induction p generalizing p' with
  | nil =>
    cases p' with
    | nil => exact ⟨rfl, (List.cons.inj h).2⟩
    | cons x p' => exact absurd ((List.cons.inj h).1 ▸ List.mem_cons_self) hp'
  | cons x p ih =>
    cases p' with
    | nil => exact absurd ((List.cons.inj h).1 ▸ List.mem_cons_self) hp
    | cons x' p' =>
      obtain ⟨rfl, htail⟩ := List.cons.inj h
      obtain ⟨rfl, hrest⟩ := ih (List.not_mem_of_not_mem_cons hp)
        (List.not_mem_of_not_mem_cons hp') htail
      exact ⟨rfl, hrest⟩

/-- **Ledger keys tell events and effects apart**, for providers without a colon. -/
theorem keyOf_inj {event event' : NormalizedEvent} {e e' : Payment.Effect}
    (hp : ':' ∉ event.provider.toList) (hp' : ':' ∉ event'.provider.toList)
    (h : keyOf event e = keyOf event' e') :
    event.provider = event'.provider ∧ event.idempotencyKey = event'.idempotencyKey ∧ e = e' := by
  rw [keyOf_eq, keyOf_eq] at h
  have hlist := congrArg String.toList h
  simp only [String.toList_append, List.append_assoc] at hlist
  obtain ⟨hprovider, hrest⟩ := append_cons_inj hp hp' hlist
  obtain ⟨hkey, heffect⟩ := append_keyEnd_inj hrest
  exact ⟨String.toList_inj.mp hprovider, String.toList_inj.mp hkey, heffect⟩

/-- **Reasons tell orders and effects apart.** -/
theorem reasonOf_inj {o o' : String} {e e' : Payment.Effect} (h : reasonOf o e = reasonOf o' e') :
    o = o' ∧ e = e' := by
  have hlist := congrArg String.toList h
  cases e <;> cases e' <;> simp [reasonOf, grantReason, refundReason] at hlist
  · exact ⟨String.toList_inj.mp hlist, rfl⟩
  · exact ⟨String.toList_inj.mp hlist, rfl⟩

/-- A reason is one of an order's two exactly when it is about the order. -/
theorem reasonOf_mem_iff {o x : String} {e : Payment.Effect} :
    reasonOf o e = grantReason x ∨ reasonOf o e = refundReason x ↔ o = x := by
  constructor
  · rintro (h | h)
    · exact (reasonOf_inj (show reasonOf o e = reasonOf x .grant from h)).1
    · exact (reasonOf_inj (show reasonOf o e = reasonOf x .refund from h)).1
  · rintro rfl
    cases e
    · exact Or.inl rfl
    · exact Or.inr rfl

/-! ### The refinement -/

/-- What of a ledger row an order determines. -/
def posting (r : LedgerRow) : String × ℤ × String := (r.accountId, r.amount, r.reason)

/-- What an effect on an order posts. -/
def postingOf (order : Order) (e : Payment.Effect) : String × ℤ × String :=
  (order.accountId, amountOf order e, reasonOf order.orderId e)

/-- The orders and the ledger are what `Payment.machine` makes of the inbox. -/
structure Refines (db : Database) : Prop where
  status : ∀ o order, db.order? o = some order → order.status = Payment.status (db.history o)
  payments : ∀ o order, db.order? o = some order →
    (db.paymentsOf o).map posting = (Payment.effects (db.history o)).map (postingOf order)
  known : ∀ row ∈ db.providerInbox.rows, ∃ order, db.order? row.event.orderId = some order
  ordered : ∀ r ∈ db.creditLedger.rows, ∃ o order e, db.order? o = some order ∧
    r.reason = reasonOf o e
  keyed : ∀ r ∈ db.creditLedger.rows, ∃ row ∈ db.providerInbox.rows, ∃ e,
    r.idempotencyKey = keyOf row.event e
  identified : ∀ row ∈ db.providerInbox.rows, row.provider = row.event.provider ∧
    row.idempotencyKey = row.event.idempotencyKey ∧ ':' ∉ row.event.provider.toList

variable {env : Env} {db db' : Database} {event : NormalizedEvent} {before : Order}
  {rawBody : List UInt8} {headers : List (String × String)} {call : Call}

theorem order?_orderId {o : String} {order : Order} (h : db.order? o = some order) :
    order.orderId = o := by
  unfold Database.order? at h
  obtain ⟨row, hrow, rfl⟩ := Option.map_eq_some_iff.mp h
  exact (Table.find?_eq_some.mp hrow).2

theorem Refines.empty_of (horders : db.billingOrders.rows = [])
    (hinbox : db.providerInbox.rows = []) (hledger : db.creditLedger.rows = []) : Refines db := by
  have hnone : ∀ o, db.order? o = none := by
    intro o
    simp [Database.order?, Table.find?, horders]
  constructor <;> simp [hnone, hinbox, hledger]

/-- An order nobody created has no history. -/
theorem Refines.history_eq_nil (hr : Refines db) {o : String} (ho : db.order? o = none) :
    db.history o = [] := by
  apply List.map_eq_nil_iff.mpr
  apply List.filter_eq_nil_iff.mpr
  intro row hrow he
  obtain ⟨order, horder⟩ := hr.known row hrow
  rw [of_decide_eq_true he, ho] at horder
  cases horder

/-- An order nobody created has no payments. -/
theorem Refines.paymentsOf_eq_nil (hr : Refines db) {o : String} (ho : db.order? o = none) :
    db.paymentsOf o = [] := by
  apply List.filter_eq_nil_iff.mpr
  intro r hrow he
  obtain ⟨o', order, e, horder, hreason⟩ := hr.ordered r hrow
  have hmem := of_decide_eq_true he
  rw [hreason, reasonOf_mem_iff] at hmem
  rw [hmem, ho] at horder
  cases horder

/-- The orders change, but no status, account or grant does. -/
theorem Refines.of_order? (hr : Refines db) (hinbox : db'.providerInbox = db.providerInbox)
    (hledger : db'.creditLedger = db.creditLedger)
    (hkept : ∀ o order, db.order? o = some order → ∃ order', db'.order? o = some order')
    (horder : ∀ o order', db'.order? o = some order' →
      (∃ order, db.order? o = some order ∧ order'.status = order.status ∧
        postingOf order' = postingOf order) ∨ db.order? o = none ∧ order'.status = .pending) :
    Refines db' := by
  have hhistory : db'.history = db.history := by funext x; rw [Database.history, hinbox]; rfl
  have hpayments : db'.paymentsOf = db.paymentsOf := by
    funext x; rw [Database.paymentsOf, hledger]; rfl
  constructor
  · intro o order' ho
    rw [hhistory]
    rcases horder o order' ho with ⟨order, hold, hstatus, -⟩ | ⟨hnone, hstatus⟩
    · rw [hstatus, hr.status o order hold]
    · rw [hstatus, hr.history_eq_nil hnone, Payment.status_nil]
  · intro o order' ho
    rw [hhistory, hpayments]
    rcases horder o order' ho with ⟨order, hold, -, hposting⟩ | ⟨hnone, -⟩
    · rw [hposting, hr.payments o order hold]
    · rw [hr.paymentsOf_eq_nil hnone, hr.history_eq_nil hnone, Payment.effects_nil]
      rfl
  · intro row hrow
    rw [hinbox] at hrow
    obtain ⟨order, hold⟩ := hr.known row hrow
    exact hkept _ order hold
  · intro r hrow
    rw [hledger] at hrow
    obtain ⟨o, order, e, hold, hreason⟩ := hr.ordered r hrow
    obtain ⟨order', hnew⟩ := hkept o order hold
    exact ⟨o, order', e, hnew, hreason⟩
  · rw [hledger, hinbox]; exact hr.keyed
  · rw [hinbox]; exact hr.identified

/-- The refinement looks at the tables of the store only. -/
theorem Refines.congr (hr : Refines db) (horders : db'.billingOrders = db.billingOrders)
    (hinbox : db'.providerInbox = db.providerInbox)
    (hledger : db'.creditLedger = db.creditLedger) : Refines db' := by
  have hsame : db'.order? = db.order? := by funext x; rw [Database.order?, horders]; rfl
  refine hr.of_order? hinbox hledger (fun o order h => ⟨order, by rwa [hsame]⟩) fun o order h => ?_
  rw [hsame] at h
  exact Or.inl ⟨order, h, rfl, rfl⟩

/-! ### Accepting an event -/

/-- **An effect is never ignored**: a plain event whose effect is posted finds
neither its entry's id nor its key in the ledger. -/
theorem Accepted.inserted (h : Accepted env event rawBody headers before db db') (hr : Refines db)
    (hplain : ':' ∉ event.provider.toList)
    (hfresh : ∀ r ∈ db.creditLedger.rows, r.entryId ≠ env.uuid 0) {e : Payment.Effect}
    (he : Payment.effect before.status event.status = some e) :
    (∀ x, db'.balance x
        = db.balance x + if x = before.accountId then amountOf before e else 0) ∧
      db'.creditLedger.rows = db.creditLedger.rows ++
        [{ entryOf env event before e with balanceAfter := db'.balance before.accountId }] := by
  rcases h.posted e he with ⟨hrefused, -⟩ | ⟨-, -, hrows, hmoved⟩
  · have hkeys : ∀ r ∈ db.creditLedger.rows, r.idempotencyKey ≠ keyOf event e := by
      intro r hrow hkey
      obtain ⟨row, hinbox, e', hrowkey⟩ := hr.keyed r hrow
      obtain ⟨hprovider, hid, hcolon⟩ := hr.identified row hinbox
      obtain ⟨hp, hk, -⟩ := keyOf_inj hcolon hplain (hrowkey.symm.trans hkey)
      exact duplicate?_eq_none.mp h.new row hinbox ⟨hprovider.trans hp, Or.inr (hid.trans hk)⟩
    obtain ⟨t, ht⟩ := Table.exists_insert?_eq_some (t := db.creditLedger)
      (r := entryOf env event before e) rfl hfresh hkeys
    rw [ht] at hrefused
    cases hrefused
  · exact ⟨hmoved, hrows⟩

theorem Accepted.history (h : Accepted env event rawBody headers before db db') (x : String) :
    db'.history x = db.history x ++ if x = event.orderId then [event.status] else [] := by
  unfold Database.history
  rw [h.inbox, List.filter_append, List.map_append]
  by_cases hx : x = event.orderId
  · subst hx
    simp [received]
  · simp [received, hx, Ne.symm hx]

/-- The order's payments get the effect of the step, no other order's do. -/
theorem Accepted.paymentsOf (h : Accepted env event rawBody headers before db db')
    (hr : Refines db) (hplain : ':' ∉ event.provider.toList)
    (hfresh : ∀ r ∈ db.creditLedger.rows, r.entryId ≠ env.uuid 0) (x : String) :
    (db'.paymentsOf x).map posting = (db.paymentsOf x).map posting ++ if x = event.orderId then
      (Payment.effect before.status event.status).toList.map (postingOf before) else [] := by
  unfold Database.paymentsOf
  cases he : Payment.effect before.status event.status with
  | none =>
    rw [(h.idle he).2.1]
    simp
  | some e =>
    have hid := order?_orderId h.found
    rw [(h.inserted hr hplain hfresh he).2, List.filter_append, List.map_append]
    congr 1
    by_cases hx : x = event.orderId
    · subst hx
      rw [List.filter_cons_of_pos (by
        rw [decide_eq_true_eq]
        exact reasonOf_mem_iff.mpr rfl)]
      simp [posting, postingOf, entryOf, newEntry, hid]
    · rw [List.filter_cons_of_neg (by
        rw [decide_eq_true_eq]
        exact fun hmem => hx (reasonOf_mem_iff.mp hmem).symm)]
      simp [hx]

/-- A ledger row is an old one, or about the event. -/
theorem Accepted.mem_creditLedger (h : Accepted env event rawBody headers before db db')
    {r : LedgerRow} (hrow : r ∈ db'.creditLedger.rows) :
    r ∈ db.creditLedger.rows ∨
      ∃ e, r.reason = reasonOf event.orderId e ∧ r.idempotencyKey = keyOf event e := by
  cases he : Payment.effect before.status event.status with
  | none =>
    rw [(h.idle he).2.1] at hrow
    exact Or.inl hrow
  | some e =>
    rcases h.posted e he with ⟨-, hsame, -⟩ | ⟨-, -, hrows, -⟩
    · rw [hsame] at hrow
      exact Or.inl hrow
    · rw [hrows, List.mem_append, List.mem_singleton] at hrow
      rcases hrow with hrow | rfl
      · exact Or.inl hrow
      · exact Or.inr ⟨e, rfl, rfl⟩

/-- An inbox row is an old one, or holds the event. -/
theorem Accepted.mem_inbox (h : Accepted env event rawBody headers before db db')
    {row : InboxRow} (hrow : row ∈ db'.providerInbox.rows) :
    row ∈ db.providerInbox.rows ∨ row.event = event ∧ row.provider = event.provider ∧
      row.idempotencyKey = event.idempotencyKey := by
  rw [h.inbox, List.mem_append, List.mem_singleton] at hrow
  rcases hrow with hrow | rfl
  · exact Or.inl hrow
  · exact Or.inr ⟨rfl, rfl, rfl⟩

/-- The inbox keeps its rows and holds the event. -/
theorem Accepted.inbox_subset (h : Accepted env event rawBody headers before db db') :
    db.providerInbox.rows ⊆ db'.providerInbox.rows ∧
      ∃ row ∈ db'.providerInbox.rows, row.event = event := by
  rw [h.inbox]
  exact ⟨List.subset_append_left _ _, _, List.mem_append_right _ (List.mem_singleton_self _), rfl⟩

/-- Orders are kept. -/
theorem Accepted.order?_isSome (h : Accepted env event rawBody headers before db db') {o : String}
    {order : Order} (ho : db.order? o = some order) : ∃ order', db'.order? o = some order' := by
  rw [h.order o]
  by_cases hx : o = event.orderId <;> simp [hx, ho]

/-- **Accepting an event is a step of the machine.** -/
theorem Accepted.refines (h : Accepted env event rawBody headers before db db') (hr : Refines db)
    (hplain : ':' ∉ event.provider.toList)
    (hfresh : ∀ r ∈ db.creditLedger.rows, r.entryId ≠ env.uuid 0) : Refines db' where
  status o order ho := by
    have hstatus := hr.status _ before h.found
    rw [h.order o] at ho
    rw [h.history o]
    by_cases hx : o = event.orderId
    · subst hx
      rw [if_pos rfl] at ho
      obtain rfl := Option.some.inj ho
      rw [if_pos rfl, Payment.status_concat, ← hstatus]
    · rw [if_neg hx] at ho
      rw [if_neg hx, List.append_nil]
      exact hr.status o order ho
  payments o order ho := by
    have hstatus := hr.status _ before h.found
    rw [h.order o] at ho
    rw [h.history o, h.paymentsOf hr hplain hfresh o]
    by_cases hx : o = event.orderId
    · subst hx
      rw [if_pos rfl] at ho
      obtain rfl := Option.some.inj ho
      rw [if_pos rfl, if_pos rfl, Payment.effects_concat, ← hstatus, List.map_append,
        hr.payments _ before h.found]
      rfl
    · rw [if_neg hx] at ho
      rw [if_neg hx, if_neg hx, List.append_nil, List.append_nil]
      exact hr.payments o order ho
  known row hrow := by
    rcases h.mem_inbox hrow with hrow | ⟨hevent, -⟩
    · obtain ⟨order, horder⟩ := hr.known row hrow
      exact h.order?_isSome horder
    · rw [hevent]
      exact h.order?_isSome h.found
  ordered r hrow := by
    rcases h.mem_creditLedger hrow with hrow | ⟨e, hreason, -⟩
    · obtain ⟨o, order, e, horder, hreason⟩ := hr.ordered r hrow
      obtain ⟨order', horder'⟩ := h.order?_isSome horder
      exact ⟨o, order', e, horder', hreason⟩
    · obtain ⟨order', horder'⟩ := h.order?_isSome h.found
      exact ⟨event.orderId, order', e, horder', hreason⟩
  keyed r hrow := by
    obtain ⟨hsubset, row', hrow', hevent⟩ := h.inbox_subset
    rcases h.mem_creditLedger hrow with hrow | ⟨e, -, hkey⟩
    · obtain ⟨row, hinbox, hkey⟩ := hr.keyed r hrow
      exact ⟨row, hsubset hinbox, hkey⟩
    · exact ⟨row', hrow', e, by rw [hevent]; exact hkey⟩
  identified row hrow := by
    rcases h.mem_inbox hrow with hrow | ⟨hevent, hprovider, hkey⟩
    · exact hr.identified row hrow
    · rw [hevent]
      exact ⟨hprovider, hkey, hplain⟩

end BillingStore

namespace BillingStore

variable {db : Database} {o : String} {order : Order}

/-! ### What the refinement says about the ledger -/

/-- **The payments of an order**: none on an unpaid order, its grant on a paid
one, and its grant and then its refund once that is paid back. -/
theorem Refines.payments_cases (hr : Refines db) (ho : db.order? o = some order) :
    (db.paymentsOf o = [] ∧ order.status ≠ .succeeded) ∨
      (∃ g, db.paymentsOf o = [g] ∧ posting g = postingOf order .grant ∧
        order.status = .succeeded) ∨
      ∃ g r, db.paymentsOf o = [g, r] ∧ posting g = postingOf order .grant ∧
        posting r = postingOf order .refund ∧ order.status = .refunded := by
  have hpayments := hr.payments o order ho
  rw [hr.status o order ho]
  rcases Payment.effects_cases (db.history o) with ⟨he, hs⟩ | ⟨he, hs⟩ | ⟨he, hs⟩
  · rw [he] at hpayments
    exact Or.inl ⟨List.map_eq_nil_iff.mp hpayments, hs⟩
  · rw [he, List.map_singleton, List.map_eq_singleton_iff] at hpayments
    obtain ⟨g, hg, hpost⟩ := hpayments
    exact Or.inr (Or.inl ⟨g, hg, hpost, hs⟩)
  · rw [he, List.map_cons, List.map_singleton, List.map_eq_cons_iff] at hpayments
    obtain ⟨g, rest, hg, hpost, hrest⟩ := hpayments
    obtain ⟨r, rfl, hpost'⟩ := List.map_eq_singleton_iff.mp hrest
    exact Or.inr (Or.inr ⟨g, r, hg, hpost, hpost', hs⟩)

theorem grantsOf_eq (db : Database) (o : String) :
    db.grantsOf o = (db.paymentsOf o).filter fun r => decide (r.reason = grantReason o) := by
  rw [Database.grantsOf, Database.paymentsOf, List.filter_filter]
  apply List.filter_congr
  intro r _
  by_cases hr : r.reason = grantReason o <;> simp [hr]

theorem refundsOf_eq (db : Database) (o : String) :
    db.refundsOf o = (db.paymentsOf o).filter fun r => decide (r.reason = refundReason o) := by
  rw [Database.refundsOf, Database.paymentsOf, List.filter_filter]
  apply List.filter_congr
  intro r _
  by_cases hr : r.reason = refundReason o <;> simp [hr]

/-- The payments of an order as its grants and refunds. -/
theorem Refines.grants_refunds_cases (hr : Refines db) (ho : db.order? o = some order) :
    (db.grantsOf o = [] ∧ db.refundsOf o = [] ∧ order.status ≠ .succeeded) ∨
      (∃ g, db.grantsOf o = [g] ∧ db.refundsOf o = [] ∧ posting g = postingOf order .grant ∧
        order.status = .succeeded) ∨
      ∃ g r, db.grantsOf o = [g] ∧ db.refundsOf o = [r] ∧ posting g = postingOf order .grant ∧
        posting r = postingOf order .refund ∧ List.Sublist [g, r] db.creditLedger.rows ∧
        order.status = .refunded := by
  have hid := order?_orderId ho
  have hne : grantReason o ≠ refundReason o := by
    intro h
    have hsame : reasonOf o .grant = reasonOf o .refund := h
    cases (reasonOf_inj hsame).2
  have hreason : ∀ {r : LedgerRow} {e}, posting r = postingOf order e → r.reason = reasonOf o e :=
    fun h => by rw [← hid]; exact congrArg (fun p => p.2.2) h
  rw [grantsOf_eq, refundsOf_eq]
  rcases hr.payments_cases ho with ⟨hp, hs⟩ | ⟨g, hp, hg, hs⟩ | ⟨g, r, hp, hg, hr', hs⟩
  · simp [hp, hs]
  · have hgr : g.reason = grantReason o := hreason hg
    exact Or.inr (Or.inl ⟨g, by simp [hp, hgr], by simp [hp, hgr, hne], hg, hs⟩)
  · have hgr : g.reason = grantReason o := hreason hg
    have hrr : r.reason = refundReason o := hreason hr'
    have hsub : List.Sublist [g, r] db.creditLedger.rows := by
      rw [← hp]
      exact List.filter_sublist
    exact Or.inr (Or.inr ⟨g, r, by simp [hp, hgr, hrr, hne.symm], by simp [hp, hgr, hrr, hne], hg,
      hr', hsub, hs⟩)

/-- The ledger holds at most one grant and one refund of an order, the refund
after the grant, and the order counts as paid between the two. -/
structure ExactlyOnce (db : Database) (o : String) (order : Order) : Prop where
  grants : (db.grantsOf o).length ≤ 1
  refunds : (db.refundsOf o).length ≤ 1
  grant : ∀ r ∈ db.grantsOf o, r.accountId = order.accountId ∧ r.amount = order.creditGrant
  refund : ∀ r ∈ db.refundsOf o, r.accountId = order.accountId ∧ r.amount = -order.creditGrant
  refund_after : ∀ r ∈ db.refundsOf o, ∃ g ∈ db.grantsOf o,
    List.Sublist [g, r] db.creditLedger.rows
  paid_iff : order.status = .succeeded ↔ db.grantsOf o ≠ [] ∧ db.refundsOf o = []

theorem Refines.exactlyOnce (hr : Refines db) (ho : db.order? o = some order) :
    ExactlyOnce db o order := by
  have hposting : ∀ {r : LedgerRow} {e}, posting r = postingOf order e →
      r.accountId = order.accountId ∧ r.amount = amountOf order e := by
    intro r e h
    exact ⟨congrArg Prod.fst h, congrArg (fun p => p.2.1) h⟩
  rcases hr.grants_refunds_cases ho with ⟨hg, hr, hs⟩ | ⟨g, hg, hr, hgp, hs⟩ |
      ⟨g, r, hg, hr, hgp, hrp, hsub, hs⟩
  · constructor <;> simp [hg, hr, hs]
  · have hgrant := hposting hgp
    constructor <;> simp [hg, hr, hs, hgrant, amountOf]
  · have hgrant := hposting hgp
    have hrefund := hposting hrp
    constructor <;> simp [hg, hr, hs, hgrant, hrefund, hsub, amountOf]

/-- The credits of an order are gone unless it counts as paid. -/
theorem Refines.netCredit_of_ne (hr : Refines db) (ho : db.order? o = some order)
    (hs : order.status ≠ .succeeded) : db.netCredit o = 0 := by
  have hamount : ∀ {r : LedgerRow} {e}, posting r = postingOf order e →
      r.amount = amountOf order e := fun h => congrArg (fun p => p.2.1) h
  unfold Database.netCredit
  rcases hr.payments_cases ho with ⟨hp, -⟩ | ⟨g, -, -, hs'⟩ | ⟨g, r, hp, hg, hr', -⟩
  · simp [hp]
  · exact absurd hs' hs
  · simp [hp, hamount hg, hamount hr', amountOf]

end BillingStore

namespace LocalRuntime

/-! ### Along a run -/

/-- An event comes from a provider without a colon in its name, and the id drawn
for its ledger entry is new. -/
def Plain (db : Database) : Env × Call → Prop
  | (env, .billing (.processEvent event _ _)) =>
    ':' ∉ event.provider.toList ∧ ∀ r ∈ db.creditLedger.rows, r.entryId ≠ env.uuid 0
  | _ => True

instance (db : Database) : ∀ call, Decidable (Plain db call)
  | (env, .billing (.processEvent event _ _)) =>
    inferInstanceAs (Decidable (':' ∉ event.provider.toList ∧
      ∀ r ∈ db.creditLedger.rows, r.entryId ≠ env.uuid 0))
  | (_, .billing (.createPendingOrder _ _)) => isTrue trivial
  | (_, .billing (.attachCheckout _ _ _)) => isTrue trivial
  | (_, .ledger _) => isTrue trivial

theorem refines_step (db : Database) (call : Env × Call) (hplain : Plain db call)
    (hr : BillingStore.Refines db) : BillingStore.Refines (step db call) := by
  obtain ⟨env, c⟩ := call
  rcases step_cases db env c with hsame | ⟨c, rfl, hwrites⟩ | ⟨c, rfl, hwrites⟩
  · rwa [hsame]
  · obtain ⟨horders, hinbox, -, hledger, -⟩ := hwrites.frame
    exact hr.congr horders hinbox hledger
  · generalize step db (env, .billing c) = db' at hwrites
    cases hwrites with
    | @create order provider billingOrders fresh insert =>
      obtain ⟨hnone, hfind⟩ := BillingStore.order?_create insert
      refine hr.of_order? rfl rfl ?_ ?_
      · intro o old ho
        rw [hfind o]
        by_cases hx : o = order.orderId <;> simp [hx, ho]
      · intro o new ho
        rw [hfind o] at ho
        by_cases hx : o = order.orderId
        · rw [if_pos hx] at ho
          exact Or.inr ⟨hx ▸ hnone, by rw [← Option.some.inj ho]; rfl⟩
        · rw [if_neg hx] at ho
          exact Or.inl ⟨new, ho, rfl, rfl⟩
    | @attach orderId provider reference billingOrders row found horder =>
      refine hr.of_order? rfl rfl ?_ ?_
      · intro o old ho
        rw [horder o]
        by_cases hx : o = orderId <;> simp [hx, ho]
      · intro o new ho
        rw [horder o] at ho
        by_cases hx : o = orderId
        · -- the provider's reference is no part of a posting
          rw [if_pos hx] at ho
          refine Or.inl ⟨row, hx ▸ found, ?_⟩
          rw [← Option.some.inj ho]
          exact ⟨rfl, by funext e; cases e <;> rfl⟩
        · rw [if_neg hx] at ho
          exact Or.inl ⟨new, ho, rfl, rfl⟩
    | accept accepted => exact accepted.refines hr hplain.1 hplain.2

/-- **The store refines the payment machine**, along every run. -/
theorem refines_run {balances : List (String × ℤ)} {db : Database}
    (hopen : CreditLedger.openLedger balances .empty = .ok db) {calls : List (Env × Call)}
    (hplain : Runs.Along step Plain db calls) :
    BillingStore.Refines (Runs.final step db calls) := by
  obtain ⟨creditAccounts, rfl⟩ := CreditLedger.openLedger_eq_ok hopen
  exact hplain.invariant (I := BillingStore.Refines) (.empty_of rfl rfl rfl) refines_step

/-- **Payment effects are exactly once.**  After every run of plain calls, each
order has at most one grant and one refund in the ledger, the refund after the
grant, and counts as paid between the two; the inbox has one row for each event
id and for each key of a provider; and an event that raises changes nothing. -/
theorem payment_effects_exactly_once {balances : List (String × ℤ)} {db : Database}
    (hopen : CreditLedger.openLedger balances .empty = .ok db) {calls : List (Env × Call)}
    (hplain : Runs.Along step Plain db calls) :
    let db' := Runs.final step db calls
    (∀ o order, db'.order? o = some order → BillingStore.ExactlyOnce db' o order) ∧
      (db'.providerInbox.rows.map fun i => (i.provider, i.providerEventId)).Nodup ∧
      (db'.providerInbox.rows.map fun i => (i.provider, i.idempotencyKey)).Nodup ∧
      ∀ env event rawBody headers e,
        (BillingStore.perform env (.processEvent event rawBody headers) db').1 = .error e →
          step db' (env, .billing (.processEvent event rawBody headers)) = db' := by
  have hr := refines_run hopen hplain
  refine ⟨fun o order ho => hr.exactlyOnce ho, Table.pk_nodup _, Table.uk_nodup _, ?_⟩
  intro env event rawBody headers e he
  exact snd_atomically_of_error he

/-- **When a refund is final.**  After every run of plain calls, an order that
has seen a refund has no credits left and does not count as paid, exactly when
its history is not one whose refund is forgotten. -/
theorem refund_is_final_iff {balances : List (String × ℤ)} {db : Database}
    (hopen : CreditLedger.openLedger balances .empty = .ok db) {calls : List (Env × Call)}
    (hplain : Runs.Along step Plain db calls) {o : String} {order : Order}
    (ho : (Runs.final step db calls).order? o = some order)
    (hrefund : .refunded ∈ (Runs.final step db calls).history o) :
    (Runs.final step db calls).netCredit o = 0 ∧ order.status ≠ .succeeded ↔
      Payment.lostRefund ((Runs.final step db calls).history o) = false := by
  have hr := refines_run hopen hplain
  have hlost : order.status = .succeeded ↔
      Payment.lostRefund ((Runs.final step db calls).history o) = true := by
    rw [hr.status o order ho]
    exact Payment.status_eq_succeeded_iff hrefund
  rw [← Bool.not_eq_true, ← hlost]
  exact ⟨fun h => h.2, fun hs => ⟨hr.netCredit_of_ne ho hs, hs⟩⟩

/-! ### Sample runs -/

/-- The deliveries of the events with these statuses, after the order. -/
def deliveries (statuses : List Status) : List (Env × Call) :=
  (Sample.env "a", .billing (.createPendingOrder Sample.order "mock")) ::
    statuses.mapIdx fun i s => (Sample.env (toString i),
      .billing (.processEvent (Sample.event (toString i) s) [] []))

/-- A payment that is refunded. -/
theorem payment_effects_refunded : ∃ db, CreditLedger.openLedger [] .empty = .ok db ∧
    ∃ order, (Runs.final step db (deliveries [.succeeded, .refunded])).order? "order-1"
        = some order ∧
      BillingStore.ExactlyOnce (Runs.final step db (deliveries [.succeeded, .refunded])) "order-1"
        order := by
  have hopen : CreditLedger.openLedger [] .empty = .ok _ := rfl
  have hrun := payment_effects_exactly_once hopen
    (show Runs.Along step Plain _ (deliveries [.succeeded, .refunded]) by decide)
  exact ⟨_, hopen, _, rfl, hrun.1 "order-1" _ rfl⟩

/-- An unknown outcome, the refund, and the success it refunds, delivered last:
the order counts as paid and keeps its credits. -/
theorem refund_is_forgotten : ∃ db, CreditLedger.openLedger [] .empty = .ok db ∧
    let db' := Runs.final step db (deliveries [.unknown, .refunded, .succeeded])
    db'.history "order-1" = [.unknown, .refunded, .succeeded] ∧
      db'.netCredit "order-1" = 10 ∧ (db'.order? "order-1").map (·.status) = some .succeeded :=
  ⟨_, rfl, by decide, by decide, by decide⟩

/-- The same events with the refund delivered first. -/
theorem refund_is_final_first : ∃ db, CreditLedger.openLedger [] .empty = .ok db ∧
    let db' := Runs.final step db (deliveries [.refunded, .unknown, .succeeded])
    db'.netCredit "order-1" = 0 := by
  have hopen : CreditLedger.openLedger [] .empty = .ok _ := rfl
  have hfinal := refund_is_final_iff hopen
    (show Runs.Along step Plain _ (deliveries [.refunded, .unknown, .succeeded]) by decide)
    (show _ = some _ from rfl) (show _ ∈ Database.history _ "order-1" by decide)
  exact ⟨_, hopen, (hfinal.mpr (by decide)).1⟩

end LocalRuntime

end AiSaas
