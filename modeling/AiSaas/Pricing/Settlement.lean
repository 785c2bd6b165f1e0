import AiSaas.Lib.Base64
import AiSaas.Lib.Dicts
import AiSaas.Lib.Processes
import AiSaas.Lib.Transactions
import AiSaas.Migrations.Common
import AiSaas.Pricing.Catalog

/-!
# Settlement of Toss orders

`apps/web/lib/payments/toss-settlement.ts` and `toss-billing.ts`, with the orders and
subscriptions of `lib/pricing/repository.ts` as they are kept in the database.  A call goes
on from one `await` to the next; in between other calls do.

## Main definitions

* `PaymentOrder`, `SubscriptionRecord`, `Ledger` — the rows.
* `tossRequest`, `confirmTossPayment`, `issueTossBillingKey`, `approveTossBilling` — the
  requests to the provider.
* `createPaymentOrder`, `updatePaymentOrder`, `recordTossSubscription` — the repository.
* `settleTossOneTimePayment`, `settleTossSubscription` — the settlements.
* `settlementSystem` — any number of calls on one database.
-/

namespace AiSaas
namespace Pricing
namespace Settlement

open Relational Transaction Processes Catalog

/-! ### Rows -/

inductive OrderStatus where
  | pending
  | succeeded
  | failed
  | cancelled
  deriving DecidableEq, Repr

/-- `Record<string, unknown>`. -/
abbrev Metadata := List (String × JsonText.Value)

structure PaymentOrder where
  id : String
  tenantId : String
  userId : Option String
  pricingOptionId : String
  provider : PricingProvider
  mode : BillingMode
  status : OrderStatus
  externalOrderRef : Option String
  externalPaymentRef : Option String
  amountMinor : ℤ
  currency : String
  idempotencyKey : String
  metadata : Metadata

/-- `payment_orders`; an order is created with its id as its external reference, so that
references are as distinct as ids. -/
abbrev Orders := Table PaymentOrder.id PaymentOrder.idempotencyKey fun _ => true

/-- A subscription of `toss`; its status is `active`, and it does not cancel. -/
structure SubscriptionRecord where
  id : String
  tenantId : String
  userId : Option String
  pricingOptionId : String
  externalCustomerRef : String
  externalSubscriptionRef : String
  currentPeriodStart : ℤ
  currentPeriodEnd : ℤ
  metadata : Metadata

abbrev Subscriptions :=
  Table SubscriptionRecord.id SubscriptionRecord.externalSubscriptionRef fun _ => true

structure Ledger where
  orders : Orders
  subscriptions : Subscriptions

/-! ### JavaScript -/

/-- What the runtime computes: `String` and, where it is an integer, `Number` of a value that
is not nullish, the encoding of a part of a path, and the time a month or a year later. -/
structure Runtime where
  string : JsonText.Value → String
  string_str : ∀ s, string (.str s) = s
  number : JsonText.Value → Option ℤ
  encodeURIComponent : String → String
  nextMonth : ℤ → ℤ
  nextYear : ℤ → ℤ

/-- `payload.key`, where that is not nullish. -/
def member (payload : JsonText.Value) (key : String) : Except String (Option JsonText.Value) :=
  match payload with
  | .null => .error s!"Cannot read properties of null (reading '{key}')"
  | .obj members =>
    match members.lookup key with
    | some .null => .ok none
    | value => .ok value
  | _ => .ok none

/-- `String(payload.key ?? default)` -/
def Runtime.text (js : Runtime) (payload : JsonText.Value) (key default : String) :
    Except String String :=
  (member payload key).map fun value => (value.map js.string).getD default

/-- `Number(payload.key ?? -1)`, where that is an integer. -/
def Runtime.amount (js : Runtime) (payload : JsonText.Value) (key : String) :
    Except String (Option ℤ) :=
  (member payload key).map fun value => value.elim (some (-1)) js.number

/-- `!text.trim()` -/
def blankText (text : String) : Bool := (Migrations.trim text.toList).isEmpty

/-- `typeof metadata.key === "string" ? metadata.key : default` -/
def textIn (metadata : Metadata) (key default : String) : String :=
  match metadata.lookup key with
  | some (.str s) => s
  | _ => default

/-! ### What a call asks for -/

/-- The columns an update may set. -/
structure OrderPatch where
  status : Option OrderStatus
  externalPaymentRef : Option (Option String)
  metadata : Option Metadata

def OrderPatch.apply (patch : OrderPatch) (order : PaymentOrder) : PaymentOrder :=
  { order with
    status := patch.status.getD order.status
    externalPaymentRef := patch.externalPaymentRef.getD order.externalPaymentRef
    metadata := patch.metadata.getD order.metadata }

theorem OrderPatch.keeps (patch : OrderPatch) :
    Keeps PaymentOrder.id PaymentOrder.idempotencyKey (fun _ => true) patch.apply where
  pk_eq _ := rfl
  uk_eq _ := rfl
  check_of _ _ := rfl

/-- A statement, a request to the provider, or the time. -/
inductive SettlementOp where
  | findOrder (orderId : String)
  | findOrderByCustomerKey (customerKey : String)
  | findOrderByIdempotencyKey (idempotencyKey : String)
  | insertOrder (row : PaymentOrder)
  | updateOrder (orderId : String) (patch : OrderPatch)
  | findSubscription (id : String)
  | insertSubscription (values : SubscriptionRecord)
  | updateSubscription (values : SubscriptionRecord)
  | request (url authorization : String) (idempotencyKey : Option String) (body : JsonText.Value)
  | now

/-- What it returns: a request whether the response is ok, and its payload. -/
abbrev SettlementOp.Ans : SettlementOp → Type
  | findOrder _ | findOrderByCustomerKey _ | findOrderByIdempotencyKey _ => Option PaymentOrder
  | insertOrder _ | updateOrder .. | insertSubscription _ | updateSubscription _ => Unit
  | findSubscription _ => Bool
  | request .. => Bool × JsonText.Value
  | now => ℤ

/-- The time, which of the rows of a customer comes first, and what the provider answers. -/
structure Drawn where
  now : ℤ
  rank : ℕ
  response : Except String (Bool × JsonText.Value)

/-- `metadata.customerKey === customerKey` -/
def isCustomer (customerKey : String) (metadata : Metadata) : Bool :=
  match metadata.lookup "customerKey" with
  | some (.str s) => s == customerKey
  | _ => false

/-- The rows of a customer that `find` may come to first. -/
def ofCustomer (orders : Orders) (customerKey : String) : List PaymentOrder :=
  orders.rows.filter fun order => decide (order.provider = .toss) && isCustomer customerKey order.metadata

def keyTaken : String := "duplicate key value violates unique constraint"

def SettlementOp.exec (d : Drawn) : (op : SettlementOp) → Ledger → Except String op.Ans × Ledger
  | findOrder orderId, db => (.ok (db.orders.find? orderId), db)
  | findOrderByCustomerKey customerKey, db =>
    let found := ofCustomer db.orders customerKey
    (.ok found[d.rank % found.length]?, db)
  | findOrderByIdempotencyKey idempotencyKey, db => (.ok (db.orders.findBy? idempotencyKey), db)
  | insertOrder row, db =>
    match db.orders.insert? row with
    | some orders => (.ok (), { db with orders })
    | none => (.error keyTaken, db)
  | updateOrder orderId patch, db =>
    (.ok (), { db with orders := db.orders.update (fun r => r.id == orderId) _ patch.keeps })
  | findSubscription id, db => (.ok (db.subscriptions.find? id).isSome, db)
  | insertSubscription values, db =>
    match db.subscriptions.insert? values with
    | some subscriptions => (.ok (), { db with subscriptions })
    | none => (.error keyTaken, db)
  | updateSubscription values, db =>
    match db.subscriptions.modify? (fun r => r.id == values.id) fun _ => values with
    | some subscriptions => (.ok (), { db with subscriptions })
    | none => (.error keyTaken, db)
  | request .., db => (d.response, db)
  | now, db => (.ok d.now, db)

abbrev Flow (α : Type) := Prog SettlementOp SettlementOp.Ans String α

def perform (op : SettlementOp) : Flow op.Ans := Prog.perform op

def ofExcept {α : Type} (x : Except String α) : Flow α := Prog.done x

/-- Throw where a condition is met. -/
def refuse (c : Bool) (message : String) : Flow Unit := if c then Prog.raise message else return ()

/-! ### The provider -/

/-- The variables of the environment that the requests go by. -/
structure TossEnv where
  clientKey : Option String
  secretKey : Option String
  sandbox : Option String
  apiBase : Option String

/-- `assertSandboxTossConfiguration`; the secret key. -/
def TossEnv.assertSandboxTossConfiguration (env : TossEnv) : Except String String := do
  let clientKey := Migrations.trim (env.clientKey.getD "").toList
  let secretKey := Migrations.trim (env.secretKey.getD "").toList
  ensure (!(clientKey.isEmpty || secretKey.isEmpty))
    "TOSS_CLIENT_KEY and TOSS_SECRET_KEY are required for Toss sandbox"
  ensure (!(env.sandbox.getD "true" == "true" &&
      (!"test_".toList.isPrefixOf clientKey || !"test_".toList.isPrefixOf secretKey)))
    "PAYMENT_SANDBOX=true requires matching Toss test keys"
  return String.ofList secretKey

/-- `tossApiBase`: one slash at the end goes. -/
def TossEnv.tossApiBase (env : TossEnv) : String :=
  let base := env.apiBase.getD "https://api.tosspayments.com"
  if base.toList.getLast? = some '/' then String.ofList base.toList.dropLast else base

def authorization (secretKey : String) : String :=
  "Basic " ++ String.ofList (Base64.encode (secretKey ++ ":").toUTF8.data.toList)

/-- The code of a response that is not ok. -/
def refusalCode : Option JsonText.Value → String
  | some (.str code) => code
  | _ => "TOSS_REQUEST_FAILED"

section Provider

variable (js : Runtime) (env : TossEnv)

/-- `tossRequest`. -/
def tossRequest (path : String) (body : JsonText.Value) (idempotencyKey : Option String) :
    Flow JsonText.Value := do
  let secretKey ← ofExcept env.assertSandboxTossConfiguration
  let response ← perform (.request (env.tossApiBase ++ path) (authorization secretKey)
    (idempotencyKey.filter (· ≠ "")) body)
  if response.1 then return response.2
  else do
    let code ← ofExcept (member response.2 "code")
    Prog.raise (refusalCode code ++ ": Toss request failed")

/-- `issueTossBillingKey`. -/
def issueTossBillingKey (authKey customerKey : String) : Flow String := do
  refuse (blankText authKey || blankText customerKey) "authKey and customerKey are required"
  let payload ← tossRequest env "/v1/billing/authorizations/issue"
    (.obj [("authKey", .str authKey), ("customerKey", .str customerKey)]) none
  let returnedCustomerKey ← ofExcept (js.text payload "customerKey" customerKey)
  let billingKey ← ofExcept (js.text payload "billingKey" "")
  refuse (returnedCustomerKey != customerKey || billingKey == "") "Toss billing key response is invalid"
  return billingKey

/-- A payload is for an order, and says that it is done. -/
def accepts (payload : JsonText.Value) (orderId : String) (amount : ℤ) (mismatch incomplete : String) :
    Except String Unit := do
  let returned ← js.text payload "orderId" ""
  let total ← js.amount payload "totalAmount"
  ensure (!(returned != orderId || total != some amount)) mismatch
  let status ← js.text payload "status" ""
  ensure (status == "DONE") incomplete

/-- `approveTossBilling`. -/
def approveTossBilling (billingKey customerKey orderId orderName : String) (amount : ℤ)
    (idempotencyKey : String) : Flow JsonText.Value := do
  refuse (billingKey == "" || customerKey == "" || orderId == "" || decide (amount ≤ 0))
    "billing approval input is incomplete"
  let payload ← tossRequest env ("/v1/billing/" ++ js.encodeURIComponent billingKey)
    (.obj [("customerKey", .str customerKey), ("orderId", .str orderId), ("orderName", .str orderName),
      ("amount", .int amount)]) (some idempotencyKey)
  ofExcept (accepts js payload orderId amount "Toss billing approval does not match the pending order"
    "Toss billing approval is not complete")
  return payload

/-- `confirmTossPayment`. -/
def confirmTossPayment (paymentKey orderId : String) (amount : ℤ) (idempotencyKey : String) :
    Flow JsonText.Value := do
  refuse (blankText paymentKey || blankText orderId || decide (amount ≤ 0))
    "payment confirmation input is incomplete"
  let payload ← tossRequest env "/v1/payments/confirm"
    (.obj [("paymentKey", .str paymentKey), ("orderId", .str orderId), ("amount", .int amount)])
    (some idempotencyKey)
  ofExcept (accepts js payload orderId amount "Toss confirmation does not match the pending order"
    "Toss confirmation is not complete")
  return payload

end Provider

/-! ### The repository -/

/-- The argument of `createPaymentOrder`, with the columns of its option. -/
structure NewOrder where
  id : String
  tenantId : String
  userId : Option String
  optionId : String
  provider : PricingProvider
  mode : BillingMode
  amountMinor : ℤ
  currency : String
  idempotencyKey : String
  metadata : Option Metadata

/-- The row of a new order; the currency is in capitals. -/
def NewOrder.row (input : NewOrder) : PaymentOrder where
  id := input.id
  tenantId := input.tenantId
  userId := input.userId
  pricingOptionId := input.optionId
  provider := input.provider
  mode := input.mode
  status := .pending
  externalOrderRef := some input.id
  externalPaymentRef := none
  amountMinor := input.amountMinor
  currency := input.currency
  idempotencyKey := input.idempotencyKey
  metadata := input.metadata.getD []

/-- `createPaymentOrder`. -/
def createPaymentOrder (input : NewOrder) : Flow PaymentOrder := do
  let existing ← perform (.findOrderByIdempotencyKey input.idempotencyKey)
  match existing with
  | some order => return order
  | none => do
    perform (.insertOrder input.row)
    return input.row

/-- `updatePaymentOrder`. -/
def updatePaymentOrder (orderId : String) (patch : OrderPatch) : Flow (Option PaymentOrder) := do
  perform (.updateOrder orderId patch)
  perform (.findOrder orderId)

def subscriptionId (orderId : String) : String := "subscription-" ++ orderId

/-- The values of an order's subscription. -/
def subscriptionOf (order : PaymentOrder) (customerKey billingKey : String) (start finish : ℤ) :
    SubscriptionRecord where
  id := subscriptionId order.id
  tenantId := order.tenantId
  userId := order.userId
  pricingOptionId := order.pricingOptionId
  externalCustomerRef := customerKey
  externalSubscriptionRef := order.id
  currentPeriodStart := start
  currentPeriodEnd := finish
  metadata := [("billingKey", .str billingKey)]

/-- `recordTossSubscription`. -/
def recordTossSubscription (js : Runtime) (order : PaymentOrder) (customerKey billingKey : String) :
    Flow Unit := do
  let now ← perform .now
  let finish := if textIn order.metadata "interval" "" == "year" then js.nextYear now else js.nextMonth now
  let start ← perform .now
  let values := subscriptionOf order customerKey billingKey start finish
  let existing ← perform (.findSubscription values.id)
  if existing then perform (.updateSubscription values) else perform (.insertSubscription values)

/-! ### The settlements -/

section Settlements

variable (js : Runtime) (env : TossEnv)

/-- `requireTossOrder`. -/
def requireTossOrder (order : Option PaymentOrder) (mode : BillingMode) : Flow PaymentOrder := do
  match order with
  | none => Prog.raise "Toss payment order was not found"
  | some order => do
    refuse (decide (order.provider ≠ .toss) || decide (order.mode ≠ mode)) "Toss payment order was not found"
    refuse (order.currency != "KRW") "Toss payment order currency must be KRW"
    return order

/-- The settlement of a one-time order that is pending. -/
def settleOneTime (order : PaymentOrder) (paymentKey : String) (amount : ℤ) : Flow PaymentOrder := do
  refuse (decide (order.status ≠ .pending)) "Toss payment order is not pending"
  refuse (decide (order.amountMinor ≠ amount)) "Toss payment amount does not match the pending order"
  let payload ← confirmTossPayment js env paymentKey order.id order.amountMinor order.idempotencyKey
  let paid ← ofExcept (js.text payload "paymentKey" paymentKey)
  let updated ← updatePaymentOrder order.id ⟨some .succeeded, some (some paid), none⟩
  match updated with
  | some updated => return updated
  | none => Prog.raise "Toss payment order could not be settled"

/-- `settleTossOneTimePayment`. -/
def settleTossOneTimePayment (paymentKey orderId : String) (amount : ℤ) : Flow PaymentOrder := do
  let found ← perform (.findOrder orderId)
  let order ← requireTossOrder found .oneTime
  if order.status = .succeeded then return order
  else settleOneTime js env order paymentKey amount

/-- `{ ...order.metadata, customerKey, billingKey }` -/
def withKeys (metadata : Metadata) (customerKey billingKey : String) : Metadata :=
  Dicts.assign "billingKey" (.str billingKey) (Dicts.assign "customerKey" (.str customerKey) metadata)

/-- The billing key that an order has, or a new one, which is stored with it. -/
def billingKeyFor (order : PaymentOrder) (customerKey authKey : String) : Flow String := do
  let currentBillingKey := textIn order.metadata "billingKey" ""
  if currentBillingKey ≠ "" then return currentBillingKey
  else do
    let billingKey ← issueTossBillingKey js env authKey customerKey
    let _ ← updatePaymentOrder order.id ⟨none, none, some (withKeys order.metadata customerKey billingKey)⟩
    return billingKey

/-- The payment of a payload: `String(payload.paymentKey ?? payload.transactionKey ?? "") || null`. -/
def paymentRef (payload : JsonText.Value) : Except String (Option String) := do
  let transaction ← js.text payload "transactionKey" ""
  let ref ← js.text payload "paymentKey" transaction
  return if ref = "" then none else some ref

/-- What a settled subscription's order is updated with. -/
def settlementPatch (order : PaymentOrder) (customerKey billingKey : String) (ref : Option String) :
    OrderPatch := ⟨some .succeeded, some ref, some (withKeys order.metadata customerKey billingKey)⟩

/-- The settlement of a subscription's order that is pending. -/
def settleSubscription (order : PaymentOrder) (customerKey authKey : String) : Flow PaymentOrder := do
  refuse (decide (order.status ≠ .pending)) "Toss subscription order is not pending"
  let billingKey ← billingKeyFor js env order customerKey authKey
  let payload ← approveTossBilling js env billingKey customerKey order.id
    (textIn order.metadata "orderName" "Live Docs subscription") order.amountMinor order.idempotencyKey
  let ref ← ofExcept (paymentRef js payload)
  let patch := settlementPatch order customerKey billingKey ref
  recordTossSubscription js (patch.apply order) customerKey billingKey
  let updated ← updatePaymentOrder order.id patch
  match updated with
  | some updated => return updated
  | none => Prog.raise "Toss subscription order could not be settled"

/-- `settleTossSubscription`. -/
def settleTossSubscription (customerKey authKey : String) : Flow PaymentOrder := do
  let found ← perform (.findOrderByCustomerKey customerKey)
  let order ← requireTossOrder found .subscription
  if order.status = .succeeded then return order
  else settleSubscription js env order customerKey authKey

end Settlements

/-! ### Processes -/

/-- A call: a checkout stores an order, a callback settles one. -/
inductive Call where
  | checkout (input : NewOrder)
  | oneTime (env : TossEnv) (paymentKey orderId : String) (amount : ℤ)
  | subscription (env : TossEnv) (customerKey authKey : String)

def settlementSystem (js : Runtime) :
    System Call SettlementOp SettlementOp.Ans String PaymentOrder Ledger Drawn where
  program
    | .checkout input => createPaymentOrder input
    | .oneTime env paymentKey orderId amount => settleTossOneTimePayment js env paymentKey orderId amount
    | .subscription env customerKey authKey => settleTossSubscription js env customerKey authKey
  exec := SettlementOp.exec

end Settlement
end Pricing
end AiSaas
