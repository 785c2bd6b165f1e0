import AiSaas.Billing.Payment
import AiSaas.Database

/-!
# The billing store

`SQLiteBillingStore` of `services/billing/store.py`: an order is made durable
before checkout, and a verified provider event is stored in the inbox and
applied to order, entitlement, account, ledger and audit in one transaction.

## Main definitions

* `createPendingOrder`, `attachCheckout`, `processEvent` — the operations.
* `applySucceeded`, `applyRefunded`, `applyOther` — the branches of `processEvent`.
* `Database.plan`, `Database.order?` — the plan of `entitlement`, the row of `order`.

## Main results

* `createPendingOrder_eq_ok`, `attachCheckout_eq_ok`, `processEvent_eq_ok` —
  everything an operation that returned can have done.
* `Accepted` — what accepting an event does, in terms of `Payment.machine`.
* `attachCheckout_ok_of`, `processEvent_ok_of` — when an operation returns.
-/

namespace AiSaas

open Relational Transaction

namespace Database

/-- The plan of `SQLiteBillingStore.entitlement`. -/
def plan (db : Database) (accountId : String) : String :=
  (db.entitlements.find? accountId).elim "free" EntitlementRow.plan

/-- The order `SQLiteBillingStore.order` reads. -/
def order? (db : Database) (orderId : String) : Option Order :=
  (db.billingOrders.find? orderId).map OrderRow.toOrder

end Database

namespace BillingStore

/-! ### Orders -/

/-- The row `create_pending_order` inserts. -/
def newOrder (env : Env) (order : CreateOrder) (provider : String) : OrderRow where
  toCreateOrder := order
  status := .pending
  provider := some provider
  providerReference := none
  createdAt := env.now 0
  updatedAt := env.now 0

/-- `create_pending_order`. -/
def createPendingOrder (env : Env) (order : CreateOrder) (provider : String) :
    Tx Error Database Order := fun db => do
  match db.billingOrders.findBy? order.idempotencyKey with
  | some existing => do
    -- of a reused key only the order id is compared
    ensure (existing.orderId = order.orderId)
      (.orderConflict "order idempotency key is already used")
    return (existing.toOrder, db)
  | none => do
    let billingOrders ← orRaise (db.billingOrders.insert? (newOrder env order provider))
      .integrityError
    let stored ← orRaise (billingOrders.find? order.orderId) .typeError
    return (stored.toOrder, { db with billingOrders })

/-- `attach_checkout`; reading the order back fails when there is none. -/
def attachCheckout (env : Env) (orderId provider providerReference : String) :
    Tx Error Database Order := fun db => do
  let billingOrders := db.billingOrders.update (fun o => decide (o.orderId = orderId))
    (fun o => { o with
      provider := some provider, providerReference := some providerReference,
      updatedAt := env.now 0 })
    ⟨fun _ => rfl, fun _ => rfl, fun _ h => h⟩
  let stored ← orRaise (billingOrders.find? orderId) .typeError
  return (stored.toOrder, { db with billingOrders })

/-! ### The statements of `process_event` -/

/-- `provider = ? AND (provider_event_id = ? OR idempotency_key = ?)`. -/
def Matches (row : InboxRow) (event : NormalizedEvent) : Prop :=
  row.provider = event.provider ∧
    (row.providerEventId = event.providerEventId ∨ row.idempotencyKey = event.idempotencyKey)

instance (row : InboxRow) (event : NormalizedEvent) : Decidable (Matches row event) :=
  inferInstanceAs (Decidable (_ ∧ _))

/-- `SELECT applied, status FROM provider_inbox WHERE …`, the oldest of the matches. -/
def duplicate? (event : NormalizedEvent) (db : Database) : Option InboxRow :=
  db.providerInbox.rows.find? fun row => decide (Matches row event)

/-- The row `process_event` inserts into the inbox. -/
def received (env : Env) (event : NormalizedEvent) (rawBody : List UInt8)
    (headers : List (String × String)) : InboxRow where
  provider := event.provider
  providerEventId := event.providerEventId
  idempotencyKey := event.idempotencyKey
  rawBody := rawBody
  headers := headers
  event := event
  status := .received
  applied := false
  receivedAt := env.now 0

/-- `UPDATE provider_inbox SET status = ?, applied = 1 WHERE provider = ? AND
provider_event_id = ?`. -/
def markProcessed (event : NormalizedEvent) (db : Database) : Database :=
  { db with
    providerInbox := db.providerInbox.update
      (fun row => decide ((row.provider, row.providerEventId)
        = (event.provider, event.providerEventId)))
      (fun row => { row with status := .processed event.status, applied := true })
      ⟨fun _ => rfl, fun _ => rfl, fun _ h => h⟩ }

/-- `UPDATE billing_orders SET status = ?, updated_at = ? WHERE order_id = ? AND
status IN source`. -/
def setOrderStatus (orderId : String) (status : Status) (source : List Status) (now : String)
    (db : Database) : Database :=
  { db with
    billingOrders := db.billingOrders.update
      (fun o => decide (o.orderId = orderId) && decide (o.status ∈ source))
      (fun o => { o with status := status, updatedAt := now })
      ⟨fun _ => rfl, fun _ => rfl, fun _ h => h⟩ }

/-- `INSERT INTO entitlements … ON CONFLICT(account_id) DO UPDATE SET plan, version + 1`. -/
def setEntitlement (accountId plan : String) (db : Database) : Database :=
  { db with
    entitlements := db.entitlements.upsert ⟨accountId, plan, 1⟩
      (fun e => { e with plan := plan, version := e.version + 1 })
      ⟨fun _ => rfl, fun _ => rfl, fun _ h => h⟩ }

/-- `UPDATE credit_ledger SET balance_after = ? WHERE entry_id = (SELECT entry_id
FROM credit_ledger WHERE idempotency_key = ?)`. -/
def setBalanceAfter (ledgerKey : String) (balance : ℤ) (db : Database) : Database :=
  match db.creditLedger.findBy? ledgerKey with
  | none => db
  | some entry =>
    { db with
      creditLedger := db.creditLedger.update (fun row => decide (row.entryId = entry.entryId))
        (fun row => { row with balanceAfter := balance })
        ⟨fun _ => rfl, fun _ => rfl, fun _ h => h⟩ }

/-- The row `process_event` inserts into the credit ledger. -/
def newEntry (env : Env) (accountId : String) (amount : ℤ) (ledgerKey reason : String) :
    LedgerRow where
  entryId := env.uuid 0
  accountId := accountId
  amount := amount
  idempotencyKey := ledgerKey
  reason := reason
  balanceAfter := 0
  createdAt := env.now 2

/-- The ledger part both branches share: make sure the account exists, insert
the entry or ignore it, and move the balance when the entry went in. -/
def postEntry (env : Env) (accountId : String) (amount : ℤ) (ledgerKey reason : String)
    (db : Database) : Except Error Database := do
  let db := db.ensureAccount accountId
  match db.creditLedger.insert? (newEntry env accountId amount ledgerKey reason) with
  | none => return db -- `OR IGNORE`: the rowcount is zero
  | some creditLedger => do
    let db ← { db with creditLedger }.updateBalance accountId amount
      fun balance => 0 ≤ balance + amount
    return setBalanceAfter ledgerKey (db.balance accountId) db

/-- `_audit`. -/
def audit (env : Env) (action targetId : String) (before after : List (String × Json))
    (db : Database) : Except Error Database := do
  let billingAudit ← orRaise
    (db.billingAudit.insert? ⟨env.uuid 1, action, targetId, before, after, env.now 3⟩)
    .integrityError
  return { db with billingAudit }

/-! ### The branches of `process_event` -/

/-- The ledger key of a grant. -/
def grantKey (event : NormalizedEvent) : String :=
  event.provider ++ ":" ++ event.idempotencyKey ++ ":grant"

/-- The ledger key of a refund. -/
def refundKey (event : NormalizedEvent) : String :=
  event.provider ++ ":" ++ event.idempotencyKey ++ ":refund"

/-- The ledger reason of a grant. -/
def grantReason (orderId : String) : String := "payment " ++ orderId

/-- The ledger reason of a refund. -/
def refundReason (orderId : String) : String := "refund " ++ orderId

/-- The branch of a success on a pending or unknown order. -/
def applySucceeded (env : Env) (event : NormalizedEvent) (before : Order) (db : Database) :
    Except Error Database := do
  let db := setOrderStatus event.orderId .succeeded [.pending, .unknown] (env.now 1) db
  let db := setEntitlement before.accountId before.planId db
  let db ← postEntry env before.accountId before.creditGrant (grantKey event)
    (grantReason event.orderId) db
  let after ← orRaise (db.billingOrders.find? event.orderId) .typeError
  audit env "billing.payment.succeeded" before.accountId
    [("status", .str before.status.text)]
    [("status", .str after.status.text), ("credits", .int before.creditGrant)] db

/-- The branch of a refund on a paid order. -/
def applyRefunded (env : Env) (event : NormalizedEvent) (before : Order) (db : Database) :
    Except Error Database := do
  let db := setOrderStatus event.orderId .refunded [.succeeded] (env.now 1) db
  let db := setEntitlement before.accountId "free" db
  let db ← postEntry env before.accountId (-before.creditGrant) (refundKey event)
    (refundReason event.orderId) db
  let after ← orRaise (db.billingOrders.find? event.orderId) .typeError
  audit env "billing.payment.refunded" before.accountId
    [("status", .str before.status.text), ("plan", .str before.planId)]
    [("status", .str after.status.text), ("plan", .str "free"),
      ("credits", .int (-before.creditGrant))] db

/-- The remaining branch: a pending order takes on the status of the event. -/
def applyOther (env : Env) (event : NormalizedEvent) (db : Database) : Database :=
  setOrderStatus event.orderId event.status [.pending] (env.now 1) db

/-- The `if … elif … else` of `process_event`, with the `applied` flag. -/
def applyEvent (env : Env) (event : NormalizedEvent) (before : Order) (db : Database) :
    Except Error (Bool × Database) :=
  if event.status = .succeeded ∧ (before.status = .pending ∨ before.status = .unknown) then do
    let db ← applySucceeded env event before db
    return (true, db)
  else if event.status = .refunded ∧ before.status = .succeeded then do
    let db ← applyRefunded env event before db
    return (true, db)
  else
    -- also a refund of an order that is not paid, and a success of one that was closed
    return (false, applyOther env event db)

/-- `process_event`. -/
def processEvent (env : Env) (event : NormalizedEvent) (rawBody : List UInt8)
    (headers : List (String × String)) : Tx Error Database ProcessingResult := fun db => do
  match duplicate? event db with
  | some duplicate =>
    -- the answer has the status on file, whatever the event's own status is
    return (⟨event.provider, event.providerEventId, false, duplicate.status⟩, db)
  | none => do
    let before ← orRaise (db.billingOrders.find? event.orderId) (.unknownOrder event.orderId)
    ensure (event.amountMinor.all fun amount => decide (amount = before.amountMinor))
      (.orderConflict "provider amount does not match the pending order")
    let providerInbox ← orRaise
      (db.providerInbox.insert? (received env event rawBody headers)) .integrityError
    let (applied, db) ← applyEvent env event before.toOrder { db with providerInbox }
    return (⟨event.provider, event.providerEventId, applied, .processed event.status⟩,
      markProcessed event db)

/-! ### What a returning operation did -/

variable {env : Env} {db db' : Database} {event : NormalizedEvent} {before : Order}
  {order : CreateOrder} {o : Order} {a orderId provider reference key reason plan now : String}
  {amount : ℤ} {rawBody : List UInt8} {headers : List (String × String)}

/-- **What `create_pending_order` did**: it returned the order that already has
the key, or it inserted a pending one. -/
theorem createPendingOrder_eq_ok
    (h : createPendingOrder env order provider db = .ok (o, db')) :
    (∃ existing, db.billingOrders.findBy? order.idempotencyKey = some existing ∧
        existing.orderId = order.orderId ∧ o = existing.toOrder ∧ db' = db) ∨
      ∃ billingOrders, db.billingOrders.findBy? order.idempotencyKey = none ∧
        db.billingOrders.insert? (newOrder env order provider) = some billingOrders ∧
        o = (newOrder env order provider).toOrder ∧ db' = { db with billingOrders } := by
  unfold createPendingOrder at h
  cases hk : db.billingOrders.findBy? order.idempotencyKey with
  | some existing =>
    simp only [hk, bind_eq_ok, ensure_eq_ok, decide_eq_true_eq] at h
    obtain ⟨-, hid, hdb⟩ := h
    obtain ⟨rfl, rfl⟩ := Prod.mk.inj (Except.ok.inj hdb)
    exact Or.inl ⟨existing, rfl, hid, rfl, rfl⟩
  | none =>
    simp only [hk, bind_eq_ok, orRaise_eq_ok] at h
    obtain ⟨billingOrders, hins, stored, hstored, hdb⟩ := h
    obtain ⟨rfl, rfl⟩ := Prod.mk.inj (Except.ok.inj hdb)
    have hself : billingOrders.find? order.orderId = some (newOrder env order provider) :=
      (Table.find?_insert hins order.orderId).trans (if_pos rfl)
    rw [hstored] at hself
    exact Or.inr ⟨billingOrders, rfl, hins, by rw [Option.some.inj hself], rfl⟩

/-- **What `attach_checkout` did**: it wrote the provider's reference into an
order that was there. -/
theorem attachCheckout_eq_ok
    (h : attachCheckout env orderId provider reference db = .ok (o, db')) :
    ∃ row, db.order? orderId = some row ∧
      o = { row with provider := some provider, providerReference := some reference } ∧
      (∃ billingOrders, db' = { db with billingOrders }) ∧
      ∀ x, db'.order? x = if x = orderId then some o else db.order? x := by
  simp only [attachCheckout, bind_eq_ok, orRaise_eq_ok] at h
  obtain ⟨stored, hstored, hdb⟩ := h
  obtain ⟨rfl, rfl⟩ := Prod.mk.inj (Except.ok.inj hdb)
  rw [Table.find?_update, Option.map_eq_some_iff] at hstored
  obtain ⟨row, hrow, rfl⟩ := hstored
  have hid := (Table.find?_eq_some.mp hrow).2
  refine ⟨row.toOrder, by simp [Database.order?, hrow], by simp [hid], ⟨_, rfl⟩, ?_⟩
  intro x
  unfold Database.order?
  rw [Table.find?_update]
  by_cases hx : x = orderId
  · subst hx
    simp [hrow, hid]
  · cases hfx : db.billingOrders.find? x with
    | none => simp [hx]
    | some other =>
      have hother := (Table.find?_eq_some.mp hfx).2
      simp [hother, hx]

/-- An order that is there gets its checkout attached. -/
theorem attachCheckout_ok_of (env : Env) (provider reference : String)
    (ho : db.order? orderId = some o) :
    ∃ o' db', attachCheckout env orderId provider reference db = .ok (o', db') := by
  obtain ⟨row, hrow, -⟩ := Option.map_eq_some_iff.mp ho
  unfold attachCheckout
  simp only [bind_eq_ok, orRaise_eq_ok, Table.find?_update, hrow, Option.map_some]
  exact ⟨_, _, _, rfl, rfl⟩

/-- The order after a guarded status update. -/
theorem order?_setOrderStatus {status : Status} {source : List Status} (x : String) :
    (setOrderStatus orderId status source now db).order? x
      = (db.order? x).map fun row =>
          if x = orderId ∧ row.status ∈ source then { row with status := status } else row := by
  unfold Database.order? setOrderStatus
  rw [Table.find?_update]
  cases hfx : db.billingOrders.find? x with
  | none => rfl
  | some row =>
    have hid := (Table.find?_eq_some.mp hfx).2
    by_cases hx : x = orderId <;> by_cases hs : row.status ∈ source <;> simp [hid, hx, hs]

/-- The plan after an entitlement is set. -/
theorem plan_setEntitlement (db : Database) (x : String) :
    (setEntitlement a plan db).plan x = if x = a then plan else db.plan x := by
  unfold Database.plan
  rw [show (setEntitlement a plan db).entitlements.find? x = _ from
    Table.find?_upsert _ rfl (fun y _ he => he) x]
  by_cases hx : x = a
  · subst hx
    cases db.entitlements.find? x <;> simp
  · simp [hx, Ne.symm hx]

/-- What posting an entry did: the table refused it and no money moved, or it
went in together with the balance it left behind. -/
def Posted (entry : LedgerRow) (db db' : Database) : Prop :=
  (db.creditLedger.insert? entry = none ∧ db'.creditLedger = db.creditLedger ∧
      ∀ x, db'.balance x = db.balance x) ∨
    ((∃ creditLedger, db.creditLedger.insert? entry = some creditLedger) ∧
      0 ≤ db.balance entry.accountId + entry.amount ∧
      db'.creditLedger.rows
        = db.creditLedger.rows ++ [{ entry with balanceAfter := db'.balance entry.accountId }] ∧
      ∀ x, db'.balance x = db.balance x + if x = entry.accountId then entry.amount else 0)

/-- The balance is written into the entry that was just inserted. -/
theorem rows_setBalanceAfter {entry : LedgerRow} {old : Database} (balance : ℤ)
    (h : old.creditLedger.insert? entry = some db.creditLedger) :
    (setBalanceAfter entry.idempotencyKey balance db).creditLedger.rows
      = old.creditLedger.rows ++ [{ entry with balanceAfter := balance }] := by
  obtain ⟨hrows, -, hid, -⟩ := Table.insert?_eq_some h
  have hself : db.creditLedger.findBy? entry.idempotencyKey = some entry :=
    (Table.findBy?_insert h _).trans (if_pos rfl)
  unfold setBalanceAfter
  simp only [hself, Table.rows_update, hrows, setWhere_append]
  rw [setWhere_eq_self fun r hr => by simp [hid r hr]]
  simp

theorem setBalanceAfter_eq (db : Database) (key : String) (balance : ℤ) :
    ∃ creditLedger, setBalanceAfter key balance db = { db with creditLedger } := by
  unfold setBalanceAfter
  split
  · exact ⟨db.creditLedger, rfl⟩
  · exact ⟨_, rfl⟩

/-- **What `postEntry` did.** -/
theorem postEntry_eq_ok (h : postEntry env a amount key reason db = .ok db') :
    Posted (newEntry env a amount key reason) db db' ∧
      ∃ creditAccounts creditLedger, db' = { db with creditAccounts, creditLedger } := by
  unfold postEntry at h
  simp only at h
  cases hins : (db.ensureAccount a).creditLedger.insert? (newEntry env a amount key reason) with
  | none =>
    simp only [hins] at h
    obtain rfl : db.ensureAccount a = db' := Except.ok.inj h
    exact ⟨Or.inl ⟨hins, rfl, Database.balance_ensureAccount a⟩, _, _, rfl⟩
  | some creditLedger =>
    simp only [hins, bind_eq_ok] at h
    obtain ⟨db₁, hupd, hdb⟩ := h
    obtain ⟨account, creditAccounts, hacc, hguard, hdb₁, hbal⟩ := Database.updateBalance_eq_ok hupd
    obtain ⟨written, hwritten⟩ := setBalanceAfter_eq db₁ key (db₁.balance a)
    have hinserted : (db.ensureAccount a).creditLedger.insert? (newEntry env a amount key reason)
        = some db₁.creditLedger := by
      rw [hdb₁]
      exact hins
    have hrows := rows_setBalanceAfter (db₁.balance a) hinserted
    have hbefore : account.balance = db.balance a := by
      rw [← Database.balance_ensureAccount a, Database.balance, hacc, Option.elim]
    have hmoved : ∀ x, db₁.balance x = db.balance x + if x = a then amount else 0 := by
      intro x
      rw [hbal x]
      exact congrArg (· + _) (Database.balance_ensureAccount a x)
    obtain rfl : setBalanceAfter key (db₁.balance a) db₁ = db' := Except.ok.inj hdb
    have hkept : ∀ x, (setBalanceAfter key (db₁.balance a) db₁).balance x = db₁.balance x :=
      fun x => by rw [hwritten]; rfl
    refine ⟨Or.inr ⟨⟨creditLedger, hins⟩, ?_, ?_, fun x => (hkept x).trans (hmoved x)⟩, ?_⟩
    · simpa [hbefore, newEntry] using hguard
    · rw [hkept]; exact hrows
    · rw [hwritten, hdb₁]; exact ⟨_, _, rfl⟩

theorem audit_eq_ok {action : String} {old new : List (String × Json)}
    (h : audit env action a old new db = .ok db') :
    ∃ billingAudit, db' = { db with billingAudit } := by
  simp only [audit, bind_eq_ok] at h
  obtain ⟨billingAudit, -, hdb⟩ := h
  exact ⟨billingAudit, (Except.ok.inj hdb).symm⟩

/-! ### Accepted events -/

/-- What an effect adds to the account of an order. -/
def amountOf (order : Order) : Payment.Effect → ℤ
  | .grant => order.creditGrant
  | .refund => -order.creditGrant

/-- The ledger key of an effect. -/
def keyOf (event : NormalizedEvent) : Payment.Effect → String
  | .grant => grantKey event
  | .refund => refundKey event

/-- The ledger reason of an effect. -/
def reasonOf (orderId : String) : Payment.Effect → String
  | .grant => grantReason orderId
  | .refund => refundReason orderId

/-- The entry an effect posts. -/
def entryOf (env : Env) (event : NormalizedEvent) (before : Order) (e : Payment.Effect) :
    LedgerRow :=
  newEntry env before.accountId (amountOf before e) (keyOf event e) (reasonOf event.orderId e)

/-- The plan an effect leaves the account with. -/
def planOf (before : Order) : Payment.Effect → String
  | .grant => before.planId
  | .refund => "free"

/-- What accepting an event about the order `before` did: the inbox holds the
event, the order takes the step of `Payment.machine`, and the effect of that
step, if any, is posted to the ledger and shown in the plan. -/
structure Accepted (env : Env) (event : NormalizedEvent) (rawBody : List UInt8)
    (headers : List (String × String)) (before : Order) (db db' : Database) : Prop where
  new : duplicate? event db = none
  found : db.order? event.orderId = some before
  amount : ∀ n ∈ event.amountMinor, n = before.amountMinor
  inbox : db'.providerInbox.rows = db.providerInbox.rows ++
    [{ received env event rawBody headers with status := .processed event.status, applied := true }]
  order : ∀ x, db'.order? x =
    if x = event.orderId then some { before with status := Payment.next before.status event.status }
    else db.order? x
  posted : ∀ e, Payment.effect before.status event.status = some e →
    Posted (entryOf env event before e) db db'
  plan : ∀ e, Payment.effect before.status event.status = some e →
    ∀ x, db'.plan x = if x = before.accountId then planOf before e else db.plan x
  idle : Payment.effect before.status event.status = none →
    db'.creditAccounts = db.creditAccounts ∧ db'.creditLedger = db.creditLedger ∧
      db'.entitlements = db.entitlements ∧ db'.billingAudit = db.billingAudit
  runs : db'.reservations = db.reservations ∧ db'.runLedger = db.runLedger ∧
    db'.adjustments = db.adjustments


/-- What an effect branch did, once the order's status is set. -/
theorem effect_eq_ok {status : Status} {source : List Status} {action : String}
    {old new : List (String × Json)} {db₁ : Database}
    (hpost : postEntry env a amount key reason
      (setEntitlement a plan (setOrderStatus orderId status source now db)) = .ok db₁)
    (haudit : audit env action a old new db₁ = .ok db') :
    (∀ x, db'.order? x = (setOrderStatus orderId status source now db).order? x) ∧
      Posted (newEntry env a amount key reason) db db' ∧
      (∀ x, db'.plan x = if x = a then plan else db.plan x) ∧
      db'.providerInbox = db.providerInbox ∧ db'.reservations = db.reservations ∧
      db'.runLedger = db.runLedger ∧ db'.adjustments = db.adjustments := by
  obtain ⟨hposted, creditAccounts, creditLedger, rfl⟩ := postEntry_eq_ok hpost
  obtain ⟨billingAudit, rfl⟩ := audit_eq_ok haudit
  refine ⟨fun x => rfl, hposted, ?_, rfl, rfl, rfl, rfl⟩
  intro x
  exact plan_setEntitlement (setOrderStatus orderId status source now db) x

/-- The order after the status update of a branch that expects its status. -/
theorem order?_setOrderStatus_of {status : Status} {source : List Status}
    (hfound : db.order? orderId = some before) (x : String) :
    (setOrderStatus orderId status source now db).order? x
      = if x = orderId then
          some { before with status := if before.status ∈ source then status else before.status }
        else db.order? x := by
  rw [order?_setOrderStatus]
  by_cases hx : x = orderId
  · subst hx
    by_cases hs : before.status ∈ source <;> simp [hfound, hs]
  · cases db.order? x <;> simp [hx]

/-- **What the branches of `process_event` did**: the step of `Payment.machine`
and its effect. -/
theorem applyEvent_eq_ok {applied : Bool} (h : applyEvent env event before db = .ok (applied, db'))
    (hfound : db.order? event.orderId = some before) :
    applied = (Payment.effect before.status event.status).isSome ∧
      (∀ x, db'.order? x = if x = event.orderId then
        some { before with status := Payment.next before.status event.status } else db.order? x) ∧
      (∀ e, Payment.effect before.status event.status = some e →
        Posted (entryOf env event before e) db db' ∧
        ∀ x, db'.plan x = if x = before.accountId then planOf before e else db.plan x) ∧
      (Payment.effect before.status event.status = none →
        db'.creditAccounts = db.creditAccounts ∧ db'.creditLedger = db.creditLedger ∧
          db'.entitlements = db.entitlements ∧ db'.billingAudit = db.billingAudit) ∧
      db'.providerInbox = db.providerInbox ∧ db'.reservations = db.reservations ∧
      db'.runLedger = db.runLedger ∧ db'.adjustments = db.adjustments := by
  unfold applyEvent at h
  split_ifs at h with hgrant hrefund
  · have heff := Payment.effect_eq_grant.mpr hgrant
    simp only [applySucceeded, bind_eq_ok, orRaise_eq_ok] at h
    obtain ⟨db₁, ⟨db₂, hpost, stored, -, haudit⟩, hdb⟩ := h
    obtain ⟨rfl, rfl⟩ := Prod.mk.inj (Except.ok.inj hdb)
    obtain ⟨horder, hposted, hplan, hrest⟩ := effect_eq_ok hpost haudit
    have hsource : before.status ∈ [Status.pending, .unknown] := by simpa using hgrant.2
    have hnext : Payment.next before.status event.status = .succeeded := by
      rcases hgrant with ⟨he, hs | hs⟩ <;> rw [he, hs] <;> rfl
    refine ⟨by rw [heff]; rfl, ?_, ?_, ?_, hrest⟩
    · intro x
      rw [horder, order?_setOrderStatus_of hfound, if_pos hsource, hnext]
    · intro e he
      obtain rfl := Option.some.inj (heff.symm.trans he)
      exact ⟨hposted, hplan⟩
    · intro hn
      rw [heff] at hn
      cases hn
  · have heff := Payment.effect_eq_refund.mpr hrefund
    simp only [applyRefunded, bind_eq_ok, orRaise_eq_ok] at h
    obtain ⟨db₁, ⟨db₂, hpost, stored, -, haudit⟩, hdb⟩ := h
    obtain ⟨rfl, rfl⟩ := Prod.mk.inj (Except.ok.inj hdb)
    obtain ⟨horder, hposted, hplan, hrest⟩ := effect_eq_ok hpost haudit
    have hsource : before.status ∈ [Status.succeeded] := by simpa using hrefund.2
    have hnext : Payment.next before.status event.status = .refunded := by
      rw [hrefund.1, hrefund.2]; rfl
    refine ⟨by rw [heff]; rfl, ?_, ?_, ?_, hrest⟩
    · intro x
      rw [horder, order?_setOrderStatus_of hfound, if_pos hsource, hnext]
    · intro e he
      obtain rfl := Option.some.inj (heff.symm.trans he)
      exact ⟨hposted, hplan⟩
    · intro hn
      rw [heff] at hn
      cases hn
  · have heff : Payment.effect before.status event.status = none := by
      cases he : Payment.effect before.status event.status with
      | none => rfl
      | some e =>
        cases e with
        | grant => exact absurd (Payment.effect_eq_grant.mp he) hgrant
        | refund => exact absurd (Payment.effect_eq_refund.mp he) hrefund
    obtain ⟨rfl, rfl⟩ := Prod.mk.inj (Except.ok.inj h)
    refine ⟨by rw [heff]; rfl, ?_, ?_, fun _ => ⟨rfl, rfl, rfl, rfl⟩, rfl, rfl, rfl, rfl⟩
    · intro x
      rw [applyOther, order?_setOrderStatus_of hfound, Payment.next_of_effect_eq_none heff]
      simp
    · intro e he
      rw [heff] at he
      cases he

/-- The inserted inbox row is the one that is marked. -/
theorem rows_markProcessed {inbox : Table (fun i : InboxRow => (i.provider, i.providerEventId))
    (fun i => (i.provider, i.idempotencyKey)) fun _ => true}
    (h : inbox.insert? (received env event rawBody headers) = some db.providerInbox) :
    (markProcessed event db).providerInbox.rows = inbox.rows ++
      [{ received env event rawBody headers with
        status := .processed event.status, applied := true }] := by
  obtain ⟨hrows, -, hid, -⟩ := Table.insert?_eq_some h
  unfold markProcessed
  simp only [Table.rows_update, hrows, setWhere_append]
  rw [setWhere_eq_self fun r hr => by simpa [received] using hid r hr]
  simp [received]

/-- **What `process_event` did**: nothing, for an event that is in the inbox
already, or it accepted the event. -/
theorem processEvent_eq_ok {result : ProcessingResult}
    (h : processEvent env event rawBody headers db = .ok (result, db')) :
    (∃ row, duplicate? event db = some row ∧ db' = db ∧
        result = ⟨event.provider, event.providerEventId, false, row.status⟩) ∨
      ∃ before, Accepted env event rawBody headers before db db' ∧
        result = ⟨event.provider, event.providerEventId,
          (Payment.effect before.status event.status).isSome, .processed event.status⟩ := by
  unfold processEvent at h
  cases hdup : duplicate? event db with
  | some row =>
    simp only [hdup] at h
    obtain ⟨rfl, rfl⟩ := Prod.mk.inj (Except.ok.inj h)
    exact Or.inl ⟨row, rfl, rfl, rfl⟩
  | none =>
    right
    simp only [hdup, bind_eq_ok, orRaise_eq_ok, ensure_eq_ok] at h
    obtain ⟨row, hrow, -, hamount, inbox, hins, ⟨applied, db₁⟩, happly, hdb⟩ := h
    obtain ⟨rfl, rfl⟩ := Prod.mk.inj (Except.ok.inj hdb)
    have hfound : db.order? event.orderId = some row.toOrder := by simp [Database.order?, hrow]
    obtain ⟨rfl, horder, heffect, hidle, hinbox, hruns⟩ := applyEvent_eq_ok happly hfound
    exact ⟨row.toOrder,
      { new := hdup
        found := hfound
        amount := by simpa [Option.all_eq_true] using hamount
        inbox := rows_markProcessed (hins.trans (congrArg some hinbox.symm))
        order := horder
        posted := fun e he => (heffect e he).1
        plan := fun e he => (heffect e he).2
        idle := hidle
        runs := hruns }, rfl⟩

/-! ### When an event is accepted -/

/-- An entry is posted where the balance stays non-negative. -/
theorem postEntry_ok_of (h : 0 ≤ db.balance a + amount) :
    ∃ db', postEntry env a amount key reason db = .ok db' := by
  unfold postEntry
  simp only
  cases hins : (db.ensureAccount a).creditLedger.insert? (newEntry env a amount key reason) with
  | none => exact ⟨_, rfl⟩
  | some creditLedger =>
    obtain ⟨account, hacc⟩ := Database.find?_ensureAccount db a
    have hbalance : account.balance = db.balance a := by
      rw [← Database.balance_ensureAccount a, Database.balance, hacc, Option.elim]
    obtain ⟨db₁, hupd⟩ : ∃ db₁, Database.updateBalance a amount (fun balance => 0 ≤ balance + amount)
        { db.ensureAccount a with creditLedger } = .ok db₁ :=
      Database.updateBalance_ok_of hacc (by simpa [hbalance] using h) (by omega)
    exact ⟨_, bind_eq_ok.mpr ⟨db₁, hupd, rfl⟩⟩

theorem audit_ok_of {action : String} {old new : List (String × Json)}
    (h : ∀ r ∈ db.billingAudit.rows, r.eventId ≠ env.uuid 1) :
    ∃ db', audit env action a old new db = .ok db' := by
  obtain ⟨billingAudit, hins⟩ := Table.exists_insert?_eq_some (t := db.billingAudit)
    (r := ⟨env.uuid 1, action, a, old, new, env.now 3⟩) rfl h h
  exact ⟨_, bind_eq_ok.mpr ⟨billingAudit, orRaise_eq_ok.mpr hins, rfl⟩⟩

/-- The statements of an effect branch return where the balance stays
non-negative and the drawn audit id is new. -/
theorem effect_ok_of {status : Status} {source : List Status}
    (hfound : db.order? orderId = some before) (hcovered : 0 ≤ db.balance a + amount)
    (haudit : ∀ r ∈ db.billingAudit.rows, r.eventId ≠ env.uuid 1) :
    ∃ db₁ row, postEntry env a amount key reason
        (setEntitlement a plan (setOrderStatus orderId status source now db)) = .ok db₁ ∧
      db₁.billingOrders.find? orderId = some row ∧
      ∀ action old new, ∃ db', audit env action a old new db₁ = .ok db' := by
  obtain ⟨db₁, hpost⟩ : ∃ db₁, postEntry env a amount key reason
      (setEntitlement a plan (setOrderStatus orderId status source now db)) = .ok db₁ :=
    postEntry_ok_of hcovered
  obtain ⟨-, creditAccounts, creditLedger, hdb₁⟩ := postEntry_eq_ok hpost
  have horder : (setOrderStatus orderId status source now db).order? orderId = _ :=
    order?_setOrderStatus_of hfound orderId
  rw [if_pos rfl] at horder
  obtain ⟨row, hrow, -⟩ := Option.map_eq_some_iff.mp horder
  exact ⟨db₁, row, hpost, by rw [hdb₁]; exact hrow,
    fun action old new => audit_ok_of (by rw [hdb₁]; exact haudit)⟩

/-- The branches of `process_event` return. -/
theorem applyEvent_ok_of (hfound : db.order? event.orderId = some before)
    (hcovered : ∀ e, Payment.effect before.status event.status = some e →
      0 ≤ db.balance before.accountId + amountOf before e)
    (haudit : ∀ r ∈ db.billingAudit.rows, r.eventId ≠ env.uuid 1) :
    ∃ applied db', applyEvent env event before db = .ok (applied, db') := by
  unfold applyEvent
  split_ifs with hgrant hrefund
  · have happly : ∃ db', applySucceeded env event before db = .ok db' := by
      obtain ⟨db₁, row, hpost, hrow, haudits⟩ := effect_ok_of hfound
        (hcovered .grant (Payment.effect_eq_grant.mpr hgrant)) haudit
      simp only [applySucceeded, bind_eq_ok, orRaise_eq_ok]
      exact (haudits _ _ _).imp fun db' h => ⟨db₁, hpost, row, hrow, h⟩
    obtain ⟨db', happly⟩ := happly
    exact ⟨true, db', bind_eq_ok.mpr ⟨db', happly, rfl⟩⟩
  · have happly : ∃ db', applyRefunded env event before db = .ok db' := by
      obtain ⟨db₁, row, hpost, hrow, haudits⟩ := effect_ok_of hfound
        (hcovered .refund (Payment.effect_eq_refund.mpr hrefund)) haudit
      simp only [applyRefunded, bind_eq_ok, orRaise_eq_ok]
      exact (haudits _ _ _).imp fun db' h => ⟨db₁, hpost, row, hrow, h⟩
    obtain ⟨db', happly⟩ := happly
    exact ⟨true, db', bind_eq_ok.mpr ⟨db', happly, rfl⟩⟩
  · exact ⟨false, _, rfl⟩

theorem duplicate?_eq_none :
    duplicate? event db = none ↔ ∀ row ∈ db.providerInbox.rows, ¬ Matches row event := by
  simp [duplicate?]

/-- **When an event is accepted**: it is no duplicate, its order is there with its
amount, the account covers its effect and the drawn audit id is new. -/
theorem processEvent_ok_of (hnew : duplicate? event db = none)
    (hfound : db.order? event.orderId = some before)
    (hamount : ∀ n ∈ event.amountMinor, n = before.amountMinor)
    (hcovered : ∀ e, Payment.effect before.status event.status = some e →
      0 ≤ db.balance before.accountId + amountOf before e)
    (haudit : ∀ r ∈ db.billingAudit.rows, r.eventId ≠ env.uuid 1) :
    ∃ result db', processEvent env event rawBody headers db = .ok (result, db') := by
  obtain ⟨row, hrow, rfl⟩ := Option.map_eq_some_iff.mp hfound
  have hinbox := duplicate?_eq_none.mp hnew
  obtain ⟨inbox, hins⟩ := Table.exists_insert?_eq_some (t := db.providerInbox)
    (r := received env event rawBody headers) rfl
    (fun x hx he => hinbox x hx ⟨congrArg Prod.fst he, Or.inl (congrArg Prod.snd he)⟩)
    (fun x hx he => hinbox x hx ⟨congrArg Prod.fst he, Or.inr (congrArg Prod.snd he)⟩)
  obtain ⟨applied, db', happly⟩ : ∃ applied db', applyEvent env event row.toOrder
      { db with providerInbox := inbox } = .ok (applied, db') :=
    applyEvent_ok_of hfound hcovered haudit
  unfold processEvent
  simp only [hnew, bind_eq_ok, orRaise_eq_ok, ensure_eq_ok]
  exact ⟨_, _, row, hrow, (), by simpa [Option.all_eq_true] using hamount, inbox, hins,
    (applied, db'), happly, rfl⟩

end BillingStore

end AiSaas
