import AiSaas.Pricing.Settled

/-!
# Payments that were made

What holds of the orders and subscriptions in every ledger that checkouts and callbacks can
reach, however their steps interleave, whatever the provider answers, and wherever they are
stopped.

## Main definitions

* `after` — the pool after a list of actions.
* `fixed`, `Moves` — what stays of an order, and how its status goes.
* `Settles` — the callback of an order.

## Main results

* `settled_paid` — an order that has succeeded was paid.
* `orders_move` — an order that was closed stays as it is.
* `charges_agree` — what callbacks charge for one order, they charge under one key.
* `settled_recorded`, `recorded_paid` — subscriptions are those of orders that were paid.
-/

namespace AiSaas
namespace Pricing
namespace Settlement

open Relational Transaction Processes Catalog

/-! ### Orders -/

/-- What no statement changes of an order. -/
def fixed (order : PaymentOrder) : PaymentOrder :=
  { order with status := .pending, externalPaymentRef := none, metadata := [] }

theorem fixed_apply (patch : OrderPatch) (order : PaymentOrder) :
    fixed (patch.apply order) = fixed order := rfl

section Fixed

variable {r r' : PaymentOrder} (h : fixed r = fixed r')

include h

theorem id_of_fixed : r.id = r'.id := by
  have := congrArg PaymentOrder.id h
  exact this

theorem key_of_fixed : r.idempotencyKey = r'.idempotencyKey := by
  have := congrArg PaymentOrder.idempotencyKey h
  exact this

theorem amount_of_fixed : r.amountMinor = r'.amountMinor := by
  have := congrArg PaymentOrder.amountMinor h
  exact this

theorem mode_of_fixed : r.mode = r'.mode := by
  have := congrArg PaymentOrder.mode h
  exact this

/-- A subscription is that of what is fixed of its order. -/
theorem subscriptionOf_fixed (customerKey billingKey : String) (start finish : ℤ) :
    subscriptionOf r customerKey billingKey start finish
      = subscriptionOf r' customerKey billingKey start finish := by
  have := congrArg (fun r => subscriptionOf r customerKey billingKey start finish) h
  exact this

end Fixed

theorem subscriptionId_injective : Function.Injective subscriptionId := by
  intro a b h
  have hlist := congrArg String.toList h
  rw [subscriptionId, subscriptionId, String.toList_append, String.toList_append] at hlist
  exact String.toList_inj.mp (List.append_cancel_left hlist)

/-! ### What lasts -/

/-- What lasts in a ledger. -/
structure Lasts (db db' : Ledger) : Prop where
  orders : Persist fixed db.orders.rows db'.orders.rows
  subscriptions : Persist SubscriptionRecord.id db.subscriptions.rows db'.subscriptions.rows

theorem lasts_refl (db : Ledger) : Lasts db db := ⟨persist_refl _, persist_refl _⟩

theorem Lasts.trans {db db' db'' : Ledger} (h : Lasts db db') (h' : Lasts db' db'') : Lasts db db'' :=
  ⟨h.orders.trans h'.orders, h.subscriptions.trans h'.subscriptions⟩

section Rows

variable (drawn : Drawn) (db : Ledger)

/-- The orders after an order is inserted, or not. -/
theorem rows_insertOrder (row : PaymentOrder) :
    (SettlementOp.exec drawn (.insertOrder row) db).2 = db ∨
      ∃ orders, (SettlementOp.exec drawn (.insertOrder row) db).2 = { db with orders } ∧
        orders.rows = db.orders.rows ++ [row] := by
  cases hinsert : db.orders.insert? row with
  | none => exact Or.inl (by simp only [SettlementOp.exec, hinsert])
  | some orders =>
    exact Or.inr ⟨orders, by simp only [SettlementOp.exec, hinsert], (Table.insert?_eq_some hinsert).1⟩

/-- The subscriptions after one is inserted, or not. -/
theorem rows_insertSubscription (values : SubscriptionRecord) :
    SettlementOp.exec drawn (.insertSubscription values) db = (.error keyTaken, db) ∨
      ∃ subscriptions, SettlementOp.exec drawn (.insertSubscription values) db
          = (.ok (), { db with subscriptions }) ∧
        subscriptions.rows = db.subscriptions.rows ++ [values] := by
  cases hinsert : db.subscriptions.insert? values with
  | none => exact Or.inl (by simp only [SettlementOp.exec, hinsert])
  | some subscriptions =>
    exact Or.inr ⟨subscriptions, by simp only [SettlementOp.exec, hinsert],
      (Table.insert?_eq_some hinsert).1⟩

/-- The subscriptions after one is written over, or not. -/
theorem rows_updateSubscription (values : SubscriptionRecord) :
    SettlementOp.exec drawn (.updateSubscription values) db = (.error keyTaken, db) ∨
      ∃ subscriptions, SettlementOp.exec drawn (.updateSubscription values) db
          = (.ok (), { db with subscriptions }) ∧
        subscriptions.rows
          = setWhere (fun r => r.id == values.id) (fun _ => values) db.subscriptions.rows := by
  cases hmodify : db.subscriptions.modify? (fun r => r.id == values.id) fun _ => values with
  | none => exact Or.inl (by simp only [SettlementOp.exec, hmodify])
  | some subscriptions =>
    exact Or.inr ⟨subscriptions, by simp only [SettlementOp.exec, hmodify], Table.rows_modify? hmodify⟩

theorem lasts_exec (op : SettlementOp) : Lasts db (op.exec drawn db).2 := by
  cases op with
  | insertOrder row =>
    rcases rows_insertOrder drawn db row with hsame | ⟨orders, hnew, hrows⟩
    · rw [hsame]
      exact lasts_refl db
    · rw [hnew]
      refine ⟨?_, persist_refl _⟩
      rw [hrows]
      exact persist_append _ _
  | updateOrder orderId patch => exact ⟨persist_setWhere (fixed_apply patch) _, persist_refl _⟩
  | insertSubscription values =>
    rcases rows_insertSubscription drawn db values with hsame | ⟨subscriptions, hnew, hrows⟩
    · rw [hsame]
      exact lasts_refl db
    · rw [hnew]
      refine ⟨persist_refl _, ?_⟩
      rw [hrows]
      exact persist_append _ _
  | updateSubscription values =>
    rcases rows_updateSubscription drawn db values with hsame | ⟨subscriptions, hnew, hrows⟩
    · rw [hsame]
      exact lasts_refl db
    · rw [hnew]
      refine ⟨persist_refl _, ?_⟩
      rw [hrows]
      intro r hr
      refine ⟨_, mem_setWhere.mpr ⟨r, hr, rfl⟩, ?_⟩
      split
      · next hid => exact (beq_iff_eq.mp hid).symm
      · rfl
  | _ => exact lasts_refl db

end Rows

/-! ### Moments of a run -/

abbrev SettlementPool := Pool Call SettlementOp SettlementOp.Ans String PaymentOrder Ledger

/-- The pool after actions, from a ledger. -/
def after (js : Runtime) (db : Ledger) (actions : List (Action Call Drawn)) : SettlementPool :=
  Runs.final (settlementSystem js).act (Pool.init db) actions

section Moments

variable {js : Runtime} {db : Ledger} {before actions : List (Action Call Drawn)} {i : ℕ}
  {e : SettlementEntry} {call : Call} {order : PaymentOrder}

theorem lasts_after (h : before <+: actions) :
    Lasts (after js db before).state (after js db actions).state :=
  System.rel_state (call_trail js) lasts_refl Lasts.trans (fun _ _ op drawn db _ => lasts_exec drawn db op) h

/-- What an operation in the log says. -/
theorem logged_after (h : (i, e) ∈ (after js db actions).log) : ∃ before drawn call,
    (after js db actions).task i = some call ∧ Does js call ((after js db before).past i) e.op ∧
      (after js db before).past i ⊆ (after js db actions).past i ∧
      e.answer = (e.op.exec drawn (after js db before).state).1 ∧
      Lasts (after js db before).state (after js db actions).state ∧
      Lasts (e.op.exec drawn (after js db before).state).2 (after js db actions).state := by
  obtain ⟨before, drawn, call, hbefore, htask, hdoes, hanswer, hstate⟩ := System.logged (call_trail js) h
  have hprefix := (List.prefix_append before [.step i drawn]).trans hbefore
  have hnext : Lasts (after js db (before ++ [.step i drawn])).state (after js db actions).state :=
    lasts_after hbefore
  unfold after at hnext
  rw [hstate] at hnext
  exact ⟨before, drawn, call, htask, hdoes, System.past_subset hprefix _ i, hanswer,
    lasts_after hprefix, hnext⟩

/-- **The order of a callback** is in the ledger. -/
theorem Found.row (h : Found call ((after js db actions).past i) order) :
    ∃ r ∈ (after js db actions).state.orders.rows, fixed r = fixed order := by
  cases h with
  | @oneTime env paymentKey orderId call_eq mode read =>
    obtain ⟨before, drawn, -, -, -, -, hanswer, hlasts, -⟩ := logged_after (Pool.mem_past.mp read)
    have hfind : (after js db before).state.orders.find? orderId = some order :=
      (Except.ok.inj hanswer).symm
    exact hlasts.orders (Table.find?_eq_some.mp hfind).1
  | @subscription env customerKey authKey call_eq mode read =>
    obtain ⟨before, drawn, -, -, -, -, hanswer, hlasts, -⟩ := logged_after (Pool.mem_past.mp read)
    have hfound := (Except.ok.inj hanswer).symm
    exact hlasts.orders (List.mem_filter.mp (List.mem_of_getElem? hfound)).1

/-- A one-time callback has read the order that it names. -/
theorem find_id {orderId : String}
    (h : (⟨.findOrder orderId, .ok (some order)⟩ : SettlementEntry) ∈ (after js db actions).past i) :
    order.id = orderId := by
  obtain ⟨before, drawn, -, -, -, -, hanswer, -, -⟩ := logged_after (Pool.mem_past.mp h)
  have hfind : (after js db before).state.orders.find? orderId = some order :=
    (Except.ok.inj hanswer).symm
  exact (Table.find?_eq_some.mp hfind).2

/-- Which statement has brought a change about. -/
theorem turned_after {φ : Ledger → Prop} (h : φ (after js db actions).state) :
    φ db ∨ ∃ before i drawn call op, before <+: actions ∧ (after js db actions).task i = some call ∧
      Does js call ((after js db before).past i) op ∧ ¬ φ (after js db before).state ∧
      φ (op.exec drawn (after js db before).state).2 := by
  rcases System.turned (call_trail js) h with
    h0 | ⟨before, i, drawn, call, op, hprefix, htask, hdoes, hnot, hafter⟩
  · exact Or.inl h0
  · have hle := (List.prefix_append before [.step i drawn]).trans hprefix
    exact Or.inr ⟨before, i, drawn, call, op, hle, System.task_of_prefix hle htask, hdoes, hnot, hafter⟩

end Moments

/-! ### Orders that have succeeded -/

/-- A callback is that of an order, and charges it on a path. -/
def Settles (js : Runtime) : Call → PaymentOrder → String → Prop
  | .checkout _, _, _ => False
  | .oneTime _ _ orderId amount, r, path =>
    r.mode = .oneTime ∧ orderId = r.id ∧ amount = r.amountMinor ∧ path = confirmPath
  | .subscription .., r, path => r.mode = .subscription ∧ ∃ billingKey, path = billingPath js billingKey

section Succeeded

variable {js : Runtime} {db : Ledger} {before actions : List (Action Call Drawn)} {i : ℕ}
  {call : Call} {order r : PaymentOrder}

/-- The callback that has paid for an order is that of the order. -/
theorem Updates.settles {patch : OrderPatch} (htaken : Taken call ((after js db before).past i) order)
    (h : Updates js ((after js db before).past i) order patch) (hpatch : patch.status = some .succeeded) :
    ∃ path, Settles js call order path ∧
      Confirmed js ((after js db before).past i) path order.id order.amountMinor := by
  obtain ⟨hfound, -, -⟩ := htaken
  cases h with
  | billingKey => cases hpatch
  | oneTime mode confirmed =>
    cases hfound with
    | oneTime call_eq _ read =>
      refine ⟨confirmPath, ?_, confirmed⟩
      rw [call_eq]
      exact ⟨mode, (find_id read).symm, rfl, rfl⟩
    | subscription _ mode' => exact absurd (mode.symm.trans mode') (by decide)
  | @subscription billingKey mode confirmed =>
    cases hfound with
    | oneTime _ mode' => exact absurd (mode.symm.trans mode') (by decide)
    | subscription call_eq =>
      refine ⟨billingPath js billingKey, ?_, confirmed⟩
      rw [call_eq]
      exact ⟨mode, billingKey, rfl⟩

/-- The update that has settled an order that had not succeeded at first. -/
theorem settled_by (hr : r ∈ (after js db actions).state.orders.rows) (h : r.status = .succeeded) :
    (∃ r₀ ∈ db.orders.rows, r₀.id = r.id ∧ r₀.status = .succeeded) ∨
      ∃ before i call order patch, before <+: actions ∧ (after js db actions).task i = some call ∧
        Taken call ((after js db before).past i) order ∧
        Updates js ((after js db before).past i) order patch ∧ patch.status = some .succeeded ∧
        fixed r = fixed order := by
  rcases turned_after (φ := fun db => ∃ r' ∈ db.orders.rows, r'.id = r.id ∧ r'.status = .succeeded)
    ⟨r, hr, rfl, h⟩ with
    h0 | ⟨before, i, drawn, call, op, hle, htask, hdoes, hnot, r', hr', hid, hstatus⟩
  · exact Or.inl h0
  refine Or.inr ?_
  have hbefore : r' ∉ (after js db before).state.orders.rows := fun hmem => hnot ⟨r', hmem, hid, hstatus⟩
  cases op with
  | insertOrder row =>
    -- a new order waits for its payment
    obtain ⟨input, rfl⟩ := hdoes
    rcases rows_insertOrder drawn (after js db before).state input.row with hsame | ⟨orders, hnew, hrows⟩
    · rw [hsame] at hr'
      exact absurd hr' hbefore
    · rw [hnew] at hr'
      change r' ∈ orders.rows at hr'
      rw [hrows] at hr'
      rcases List.mem_append.mp hr' with hr' | hr'
      · exact absurd hr' hbefore
      · obtain rfl := List.mem_singleton.mp hr'
        cases hstatus
  | updateOrder orderId patch =>
    obtain ⟨order, rfl, htaken, hupdates⟩ := hdoes
    obtain ⟨x, hx, hxr⟩ := mem_setWhere.mp hr'
    by_cases hmatch : x.id = order.id
    · rw [if_pos (beq_iff_eq.mpr hmatch)] at hxr
      subst hxr
      have hpatch : patch.status = some .succeeded := by
        cases hupdates with
        | oneTime | subscription => rfl
        | billingKey => exact absurd ⟨x, hx, hid, hstatus⟩ hnot
      refine ⟨before, i, call, order, patch, hle, htask, htaken, hupdates, hpatch, ?_⟩
      -- the row of the order is the row that has succeeded
      obtain ⟨r₂, hr₂, hfixed⟩ := (htaken.mono (System.past_subset hle db i)).found.row
      have hsame : r₂ = r := Table.eq_of_pk hr₂ hr ((id_of_fixed hfixed).trans (hmatch.symm.trans hid))
      rw [← hsame]
      exact hfixed
    · rw [if_neg fun hbeq => hmatch (beq_iff_eq.mp hbeq)] at hxr
      subst hxr
      exact absurd hx hbefore
  | insertSubscription values =>
    rcases rows_insertSubscription drawn (after js db before).state values with hsame | ⟨_, hnew, -⟩
    · rw [hsame] at hr'
      exact absurd hr' hbefore
    · rw [hnew] at hr'
      exact absurd hr' hbefore
  | updateSubscription values =>
    rcases rows_updateSubscription drawn (after js db before).state values with hsame | ⟨_, hnew, -⟩
    · rw [hsame] at hr'
      exact absurd hr' hbefore
    · rw [hnew] at hr'
      exact absurd hr' hbefore
  | _ => exact absurd hr' hbefore

/-- An order that has succeeded, and had not at first, was paid: the provider has confirmed to
its callback that it charged the order's amount. -/
def OrdersPaid (js : Runtime) (db : Ledger) (pool : SettlementPool) : Prop :=
  ∀ r ∈ pool.state.orders.rows, r.status = .succeeded →
    (∃ r₀ ∈ db.orders.rows, r₀.id = r.id ∧ r₀.status = .succeeded) ∨
    ∃ i call path, pool.task i = some call ∧ Settles js call r path ∧
      Confirmed js (pool.past i) path r.id r.amountMinor

/-- **An order that has succeeded was paid.** -/
theorem settled_paid (js : Runtime) (db : Ledger) (actions : List (Action Call Drawn)) :
    OrdersPaid js db (after js db actions) := by
  intro r hr h
  rcases settled_by hr h with h0 | ⟨before, i, call, order, patch, hle, htask, htaken, hupdates, hpatch, hfixed⟩
  · exact Or.inl h0
  · obtain ⟨path, hsettles, hconfirmed⟩ := hupdates.settles htaken hpatch
    refine Or.inr ⟨i, call, path, htask, ?_, ?_⟩
    · cases call with
      | checkout => exact hsettles
      | oneTime =>
        obtain ⟨hmode, rfl, rfl, hpath⟩ := hsettles
        exact ⟨(mode_of_fixed hfixed).trans hmode, (id_of_fixed hfixed).symm,
          (amount_of_fixed hfixed).symm, hpath⟩
      | subscription => exact ⟨(mode_of_fixed hfixed).trans hsettles.1, hsettles.2⟩
    · rw [id_of_fixed hfixed, amount_of_fixed hfixed]
      exact hconfirmed.mono (System.past_subset hle db i)

end Succeeded

/-! ### Subscriptions -/

section Subscriptions

variable {js : Runtime} {db : Ledger} {before actions : List (Action Call Drawn)} {i : ℕ}
  {order r : PaymentOrder} {values : SubscriptionRecord}

/-- **What was recorded is there.** -/
theorem recorded_row {billingKey : String} (hle : before <+: actions)
    (h : Recorded ((after js db before).past i) order billingKey) :
    ∃ values ∈ (after js db actions).state.subscriptions.rows, values.id = subscriptionId order.id := by
  obtain ⟨customerKey, start, finish, hstored⟩ := h
  generalize hvalues : subscriptionOf order customerKey billingKey start finish = values at hstored
  have hid : values.id = subscriptionId order.id := by rw [← hvalues]; rfl
  rcases hstored with hmem | hmem
  · obtain ⟨moment, drawn, call, -, -, -, hanswer, -, hlasts⟩ :=
      logged_after (Pool.mem_past.mp (System.past_subset hle db i hmem))
    rcases rows_insertSubscription drawn (after js db moment).state values with
      hnone | ⟨subscriptions, hnew, hrows⟩
    · rw [hnone] at hanswer
      cases hanswer
    · rw [hnew] at hlasts
      obtain ⟨stored, hstored, heq⟩ := hlasts.subscriptions
        (show values ∈ subscriptions.rows by rw [hrows]; exact List.mem_append_right _ List.mem_cons_self)
      exact ⟨stored, hstored, heq.trans hid⟩
  · obtain ⟨moment, drawn, call, -, hdoes, -, hanswer, -, hlasts⟩ :=
      logged_after (Pool.mem_past.mp (System.past_subset hle db i hmem))
    -- the row was found before it was written over
    obtain ⟨earlier, drawn', -, -, -, -, hfound, hstill, -⟩ := logged_after (Pool.mem_past.mp hdoes.2)
    have hsome : ((after js db earlier).state.subscriptions.find? values.id).isSome = true :=
      (Except.ok.inj hfound).symm
    obtain ⟨found, hfind⟩ := Option.isSome_iff_exists.mp hsome
    obtain ⟨row, hrow, hrowid⟩ := hstill.subscriptions (Table.find?_eq_some.mp hfind).1
    rcases rows_updateSubscription drawn (after js db moment).state values with
      hnone | ⟨subscriptions, hnew, hrows⟩
    · rw [hnone] at hanswer
      cases hanswer
    · rw [hnew] at hlasts
      have hwritten : values ∈ subscriptions.rows := by
        rw [hrows]
        refine mem_setWhere.mpr ⟨row, hrow, ?_⟩
        rw [if_pos (beq_iff_eq.mpr (hrowid.trans (Table.find?_eq_some.mp hfind).2))]
      obtain ⟨stored, hstored, heq⟩ := hlasts.subscriptions hwritten
      exact ⟨stored, hstored, heq.trans hid⟩

/-- Which call has stored a subscription. -/
theorem recorded_by (h : values ∈ (after js db actions).state.subscriptions.rows) :
    values ∈ db.subscriptions.rows ∨ ∃ before i call, before <+: actions ∧
      Records js call ((after js db before).past i) values := by
  rcases turned_after (φ := fun db => values ∈ db.subscriptions.rows) h with
    h0 | ⟨before, i, drawn, call, op, hle, -, hdoes, hnot, hafter⟩
  · exact Or.inl h0
  refine Or.inr ⟨before, i, call, hle, ?_⟩
  cases op with
  | insertSubscription stored =>
    rcases rows_insertSubscription drawn (after js db before).state stored with
      hsame | ⟨subscriptions, hnew, hrows⟩
    · rw [hsame] at hafter
      exact absurd hafter hnot
    · rw [hnew] at hafter
      change values ∈ subscriptions.rows at hafter
      rw [hrows] at hafter
      rcases List.mem_append.mp hafter with hmem | hmem
      · exact absurd hmem hnot
      · obtain rfl := List.mem_singleton.mp hmem
        exact hdoes
  | updateSubscription stored =>
    rcases rows_updateSubscription drawn (after js db before).state stored with
      hsame | ⟨subscriptions, hnew, hrows⟩
    · rw [hsame] at hafter
      exact absurd hafter hnot
    · rw [hnew] at hafter
      change values ∈ subscriptions.rows at hafter
      rw [hrows] at hafter
      obtain ⟨x, hx, hxv⟩ := mem_setWhere.mp hafter
      split at hxv
      · subst hxv
        exact hdoes.1
      · subst hxv
        exact absurd hx hnot
  | insertOrder row =>
    rcases rows_insertOrder drawn (after js db before).state row with hsame | ⟨_, hnew, -⟩
    · rw [hsame] at hafter
      exact absurd hafter hnot
    · rw [hnew] at hafter
      exact absurd hafter hnot
  | _ => exact absurd hafter hnot

/-- A subscription that was not there at first was paid: it is that of an order of the ledger,
and the provider has confirmed that it charged the order's amount to the subscription's key. -/
def SubscriptionsPaid (js : Runtime) (db : Ledger) (pool : SettlementPool) : Prop :=
  ∀ values ∈ pool.state.subscriptions.rows, values ∈ db.subscriptions.rows ∨
    ∃ r ∈ pool.state.orders.rows, r.mode = .subscription ∧
      ∃ customerKey billingKey start finish i,
        values = subscriptionOf r customerKey billingKey start finish ∧
        Confirmed js (pool.past i) (billingPath js billingKey) r.id r.amountMinor

/-- **A subscription that is recorded was paid.** -/
theorem recorded_paid (js : Runtime) (db : Ledger) (actions : List (Action Call Drawn)) :
    SubscriptionsPaid js db (after js db actions) := by
  intro values hvalues
  rcases recorded_by hvalues with h0 | ⟨before, i, call, hle, hrecords⟩
  · exact Or.inl h0
  · obtain ⟨order, customerKey, billingKey, start, finish, htaken, hmode, hconfirmed, rfl⟩ := hrecords
    have hsub : (after js db before).past i ⊆ (after js db actions).past i := System.past_subset hle db i
    obtain ⟨r, hr, hfixed⟩ := (htaken.mono hsub).found.row
    refine Or.inr ⟨r, hr, (mode_of_fixed hfixed).trans hmode, customerKey, billingKey, start, finish, i,
      (subscriptionOf_fixed hfixed _ _ _ _).symm, ?_⟩
    rw [id_of_fixed hfixed, amount_of_fixed hfixed]
    exact hconfirmed.mono hsub

/-- A ledger without rows. -/
def Ledger.empty : Ledger := ⟨Table.empty, Table.empty⟩

/-- The order of a subscription has not succeeded before its subscription is there, with what is
fixed of the order. -/
def SubscriptionsRecorded (pool : SettlementPool) : Prop :=
  ∀ r ∈ pool.state.orders.rows, r.status = .succeeded → r.mode = .subscription →
    ∃ customerKey billingKey start finish,
      subscriptionOf r customerKey billingKey start finish ∈ pool.state.subscriptions.rows

/-- **A subscription whose order has succeeded is recorded.** -/
theorem settled_recorded (js : Runtime) (actions : List (Action Call Drawn)) :
    SubscriptionsRecorded (after js Ledger.empty actions) := by
  intro r hr hstatus hmode
  rcases settled_by hr hstatus with
    ⟨r₀, hr₀, -⟩ | ⟨before, i, call, order, patch, hle, htask, htaken, hupdates, hpatch, hfixed⟩
  · exact absurd hr₀ List.not_mem_nil
  have horder : order.mode = .subscription := (mode_of_fixed hfixed).symm.trans hmode
  obtain ⟨billingKey, hrecorded⟩ : ∃ billingKey, Recorded ((after js Ledger.empty before).past i) order billingKey := by
    cases hupdates with
    | oneTime mode => exact absurd (mode.symm.trans horder) (by decide)
    | billingKey => cases hpatch
    | subscription mode confirmed recorded => exact ⟨_, recorded⟩
  obtain ⟨values, hvalues, hid⟩ := recorded_row hle hrecorded
  rcases recorded_by hvalues with h0 | ⟨before', i', call', hle', hrecords⟩
  · exact absurd h0 List.not_mem_nil
  · -- the row of an order's id was stored for the order
    obtain ⟨order', customerKey, billingKey', start, finish, htaken', -, -, rfl⟩ := hrecords
    obtain ⟨r', hr', hfixed'⟩ := (htaken'.mono (System.past_subset hle' Ledger.empty i')).found.row
    have hsame : r' = r := by
      refine Table.eq_of_pk hr' hr ?_
      rw [id_of_fixed hfixed', id_of_fixed hfixed]
      exact subscriptionId_injective hid
    subst hsame
    refine ⟨customerKey, billingKey', start, finish, ?_⟩
    rw [subscriptionOf_fixed hfixed']
    exact hvalues

end Subscriptions

/-! ### Charges -/

/-- A call charges an order, or has charged it: an amount, under an idempotency key. -/
def Charges (pool : SettlementPool) (i : ℕ) (key : Option String) (orderId : String) (amount : ℤ) : Prop :=
  ∃ url auth body, charge body = some (orderId, amount) ∧
    (pool.asked i = some (.request url auth key body) ∨
      ∃ answer, (i, (⟨.request url auth key body, answer⟩ : SettlementEntry)) ∈ pool.log)

/-- What is charged for one order is one amount under one key, and what is charged under one key
is charged for one order. -/
def ChargesAgree (pool : SettlementPool) : Prop :=
  ∀ i j key key' orderId orderId' amount amount',
    Charges pool i key orderId amount → Charges pool j key' orderId' amount' →
      (orderId = orderId' → amount = amount' ∧ key = key') ∧
        (key = key' → key ≠ none → orderId = orderId')

section Charging

variable {js : Runtime} {db : Ledger} {actions : List (Action Call Drawn)} {i : ℕ}
  {key : Option String} {orderId : String} {amount : ℤ}

/-- What is charged is the amount of an order of the ledger, under its key. -/
theorem charged_row (h : Charges (after js db actions) i key orderId amount) :
    ∃ r ∈ (after js db actions).state.orders.rows, r.id = orderId ∧ r.amountMinor = amount ∧
      key = (some r.idempotencyKey).filter (· ≠ "") := by
  obtain ⟨url, auth, body, hcharge, hrequest⟩ := h
  have hfrom : ∃ call order, Taken call ((after js db actions).past i) order ∧
      (orderId, amount) = (order.id, order.amountMinor) ∧
      key = (some order.idempotencyKey).filter (· ≠ "") := by
    rcases hrequest with hasked | ⟨answer, hmem⟩
    · obtain ⟨call, -, hdoes⟩ := (System.traced_run (call_trail js) db actions).asked hasked
      exact ⟨call, hdoes _ hcharge⟩
    · obtain ⟨before, drawn, call, -, hdoes, hsub, -, -, -⟩ := logged_after hmem
      obtain ⟨order, htaken, hrest⟩ := hdoes _ hcharge
      exact ⟨call, order, htaken.mono hsub, hrest⟩
  obtain ⟨call, order, htaken, heq, rfl⟩ := hfrom
  obtain ⟨rfl, rfl⟩ := Prod.mk.inj heq
  obtain ⟨r, hr, hfixed⟩ := htaken.found.row
  exact ⟨r, hr, id_of_fixed hfixed, amount_of_fixed hfixed, by rw [key_of_fixed hfixed]⟩

/-- **Callbacks charge an order under one key**, however many are under way for it, so that a
provider that charges once for a key charges the order once. -/
theorem charges_agree (js : Runtime) (db : Ledger) (actions : List (Action Call Drawn)) :
    ChargesAgree (after js db actions) := by
  intro i j key key' orderId orderId' amount amount' h h'
  obtain ⟨r, hr, hid, hamount, hkey⟩ := charged_row h
  obtain ⟨r', hr', hid', hamount', hkey'⟩ := charged_row h'
  constructor
  · intro hsame
    obtain rfl := Table.eq_of_pk hr hr' (hid.trans (hsame.trans hid'.symm))
    exact ⟨hamount.symm.trans hamount', hkey.trans hkey'.symm⟩
  · intro hsame hgiven
    have hkeys : r.idempotencyKey = r'.idempotencyKey := by
      rw [hkey, hkey'] at hsame
      obtain ⟨k, hk⟩ := Option.ne_none_iff_exists'.mp (hkey ▸ hgiven)
      obtain ⟨hr, -⟩ := Option.filter_eq_some_iff.mp hk
      obtain ⟨hr', -⟩ := Option.filter_eq_some_iff.mp (hsame ▸ hk)
      exact (Option.some.inj hr).trans (Option.some.inj hr').symm
    obtain rfl := Table.eq_of_uk hr hr' hkeys
    exact hid.symm.trans hid'

end Charging

/-! ### Orders that are closed -/

/-- An order that neither waits for its payment nor has it. -/
def OrderStatus.closed : OrderStatus → Bool
  | failed | cancelled => true
  | pending | succeeded => false

/-- What the orders of a ledger have come to: each is there with what is fixed, one that had
succeeded still has, and those that are closed are those that were. -/
structure OrdersMove (db db' : Ledger) : Prop where
  moves : ∀ r ∈ db.orders.rows, ∃ r' ∈ db'.orders.rows, fixed r' = fixed r ∧
    (r.status = .succeeded → r'.status = .succeeded) ∧ (r.status.closed = false → r'.status.closed = false)
  closed : ∀ r, r.status.closed = true → (r ∈ db'.orders.rows ↔ r ∈ db.orders.rows)

section Moves

variable {js : Runtime} {db db' : Ledger} {order r : PaymentOrder} {patch : OrderPatch}

/-- The row of an order that was read open is open. -/
def Open (db : Ledger) (order : PaymentOrder) : Prop :=
  ∃ r ∈ db.orders.rows, fixed r = fixed order ∧ r.status.closed = false

/-- A status that an update sets is open. -/
theorem Updates.status {past : SettlementPast} (h : Updates js past order patch) :
    patch.status = none ∨ patch.status = some .succeeded := by
  cases h with
  | oneTime | subscription => exact Or.inr rfl
  | billingKey => exact Or.inl rfl

theorem apply_open (h : patch.status = none ∨ patch.status = some .succeeded)
    (hr : r.status.closed = false) : (patch.apply r).status.closed = false := by
  change (patch.status.getD r.status).closed = false
  rcases h with h | h
  · rw [h]
    exact hr
  · rw [h]
    rfl

theorem apply_succeeded (h : patch.status = none ∨ patch.status = some .succeeded)
    (hr : r.status = .succeeded) : (patch.apply r).status = .succeeded := by
  change patch.status.getD r.status = .succeeded
  rcases h with h | h
  · rw [h]
    exact hr
  · rw [h]
    rfl

theorem ordersMove_refl (db : Ledger) : OrdersMove db db :=
  ⟨fun r hr => ⟨r, hr, rfl, fun h => h, fun h => h⟩, fun _ _ => Iff.rfl⟩

theorem OrdersMove.trans {db'' : Ledger} (h : OrdersMove db db') (h' : OrdersMove db' db'') :
    OrdersMove db db'' := by
  refine ⟨?_, fun r hr => (h'.closed r hr).trans (h.closed r hr)⟩
  intro r hr
  obtain ⟨r', hr', hfixed, hsucceeded, hopen⟩ := h.moves r hr
  obtain ⟨r'', hr'', hfixed', hsucceeded', hopen'⟩ := h'.moves r' hr'
  exact ⟨r'', hr'', hfixed'.trans hfixed, fun h => hsucceeded' (hsucceeded h), fun h => hopen' (hopen h)⟩

theorem Open.move (hopen : Open db order) (h : OrdersMove db db') : Open db' order := by
  obtain ⟨r, hr, hfixed, hstatus⟩ := hopen
  obtain ⟨r', hr', hfixed', -, hstatus'⟩ := h.moves r hr
  exact ⟨r', hr', hfixed'.trans hfixed, hstatus' hstatus⟩

/-- An order that is open is updated. -/
theorem ordersMove_update (hopen : Open db order)
    (hpatch : patch.status = none ∨ patch.status = some .succeeded) (drawn : Drawn) :
    OrdersMove db (SettlementOp.exec drawn (.updateOrder order.id patch) db).2 := by
  obtain ⟨row, hrow, hfixed, hstatus⟩ := hopen
  have hrows : (SettlementOp.exec drawn (.updateOrder order.id patch) db).2.orders.rows
      = setWhere (fun r => r.id == order.id) patch.apply db.orders.rows := rfl
  -- the row that is updated is open
  have hmatch : ∀ r ∈ db.orders.rows, r.id = order.id → r.status.closed = false := by
    intro r hr hid
    obtain rfl := Table.eq_of_pk hr hrow (hid.trans (id_of_fixed hfixed).symm)
    exact hstatus
  refine ⟨?_, ?_⟩
  · intro r hr
    rw [hrows]
    refine ⟨_, mem_setWhere.mpr ⟨r, hr, rfl⟩, ?_⟩
    split
    · exact ⟨fixed_apply patch r, apply_succeeded hpatch, apply_open hpatch⟩
    · exact ⟨rfl, fun h => h, fun h => h⟩
  · intro r hr
    rw [hrows]
    constructor
    · intro hmem
      obtain ⟨x, hx, rfl⟩ := mem_setWhere.mp hmem
      split
      · next hid =>
        rw [if_pos hid, apply_open hpatch (hmatch x hx (beq_iff_eq.mp hid))] at hr
        cases hr
      · exact hx
    · intro hmem
      refine mem_setWhere.mpr ⟨r, hmem, if_neg fun hid => ?_⟩
      rw [hmatch r hmem (beq_iff_eq.mp hid)] at hr
      cases hr

/-- A new order waits for its payment. -/
theorem ordersMove_insert (input : NewOrder) (drawn : Drawn) (db : Ledger) :
    OrdersMove db (SettlementOp.exec drawn (.insertOrder input.row) db).2 := by
  rcases rows_insertOrder drawn db input.row with hsame | ⟨orders, hnew, hrows⟩
  · rw [hsame]
    exact ordersMove_refl db
  rw [hnew]
  refine ⟨?_, ?_⟩
  · intro r hr
    refine ⟨r, ?_, rfl, fun h => h, fun h => h⟩
    rw [hrows]
    exact List.mem_append_left _ hr
  · intro r hr
    rw [hrows, List.mem_append, List.mem_singleton]
    refine ⟨?_, Or.inl⟩
    rintro (hmem | rfl)
    · exact hmem
    · cases hr

/-- What a statement does to the orders, where the orders that were read open are open. -/
theorem ordersMove_exec {call : Call} {past : SettlementPast} {op : SettlementOp} (drawn : Drawn)
    (hdoes : Does js call past op) (hread : ∀ order, Taken call past order → Open db order) :
    OrdersMove db (op.exec drawn db).2 := by
  cases op with
  | insertOrder row =>
    obtain ⟨input, rfl⟩ := hdoes
    exact ordersMove_insert input drawn db
  | updateOrder orderId patch =>
    obtain ⟨order, rfl, htaken, hupdates⟩ := hdoes
    exact ordersMove_update (hread order htaken) hupdates.status drawn
  | insertSubscription values =>
    rcases rows_insertSubscription drawn db values with hsame | ⟨subscriptions, hnew, -⟩
    · rw [hsame]
      exact ordersMove_refl db
    · rw [hnew]
      exact ⟨(ordersMove_refl db).moves, fun _ _ => Iff.rfl⟩
  | updateSubscription values =>
    rcases rows_updateSubscription drawn db values with hsame | ⟨subscriptions, hnew, -⟩
    · rw [hsame]
      exact ordersMove_refl db
    · rw [hnew]
      exact ⟨(ordersMove_refl db).moves, fun _ _ => Iff.rfl⟩
  | _ => exact ordersMove_refl db

/-- What an answer says about the orders: one that was read open is open. -/
def StillOpen (db : Ledger) (e : SettlementEntry) : Prop :=
  ∀ order, order.status.closed = false →
    ((∃ orderId, e = ⟨.findOrder orderId, .ok (some order)⟩) ∨
      ∃ customerKey, e = ⟨.findOrderByCustomerKey customerKey, .ok (some order)⟩) → Open db order

theorem stillOpen_exec (op : SettlementOp) (drawn : Drawn) (db : Ledger) :
    StillOpen (op.exec drawn db).2 ⟨op, (op.exec drawn db).1⟩ := by
  rintro order hstatus (⟨orderId, he⟩ | ⟨customerKey, he⟩)
  · obtain ⟨rfl, hanswer⟩ := Entry.mk.inj he
    have hfind : db.orders.find? orderId = some order := Except.ok.inj (eq_of_heq hanswer)
    exact ⟨order, (Table.find?_eq_some.mp hfind).1, rfl, hstatus⟩
  · obtain ⟨rfl, hanswer⟩ := Entry.mk.inj he
    have hfound := Except.ok.inj (eq_of_heq hanswer)
    exact ⟨order, (List.mem_filter.mp (List.mem_of_getElem? hfound)).1, rfl, hstatus⟩

/-- **An order that is closed stays as it is**, and no other comes to be closed. -/
theorem orders_move (js : Runtime) (db : Ledger) (actions : List (Action Call Drawn)) :
    OrdersMove db (after js db actions).state := by
  have hrun : OrdersMove db (after js db actions).state ∧
      ∀ e ∈ (after js db actions).log, StillOpen (after js db actions).state e.2 := by
    refine System.facts_run (call_trail js) ?_ (ordersMove_refl db) actions
    intro pool i drawn call op hmoves hfacts hdoes
    have hread : ∀ order, Taken call (pool.past i) order → Open pool.state order := by
      rintro order ⟨hfound, -, hpending⟩
      have hstatus : order.status.closed = false := by rw [hpending]; rfl
      cases hfound with
      | oneTime _ _ read => exact hfacts _ (Pool.mem_past.mp read) order hstatus (Or.inl ⟨_, rfl⟩)
      | subscription _ _ read => exact hfacts _ (Pool.mem_past.mp read) order hstatus (Or.inr ⟨_, rfl⟩)
    have hmove : OrdersMove pool.state (op.exec drawn pool.state).2 := ordersMove_exec drawn hdoes hread
    exact ⟨hmoves.trans hmove, stillOpen_exec op drawn pool.state,
      fun e he order hstatus hwas => (he order hstatus hwas).move hmove⟩
  exact hrun.1

end Moves

end Settlement
end Pricing
end AiSaas
