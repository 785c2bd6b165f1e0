import AiSaas.Python
import AiSaas.Lib.Transactions

/-!
# Billing value objects

The provider-neutral records of `services/billing/models.py`.  The checks a
dataclass makes in `__post_init__` are fields of the structure, so an order or
an event that fails them cannot be built; `CreateOrder.make` and
`NormalizedEvent.make` are the constructors that raise.

## Main definitions

* `Status` — the normalized statuses.
* `CreateOrder`, `NormalizedEvent` — what a client and a provider ask for.
* `Order`, `ProcessingResult`, `CheckoutRequest`, `CheckoutResponse` — the rest.
* `Sample.env`, `Sample.order`, `Sample.event` — values for concrete runs.
-/

namespace AiSaas

open Transaction

/-- `STATUSES`: the normalized statuses of a payment. -/
inductive Status where
  | pending
  | succeeded
  | failed
  | cancelled
  | refunded
  | unknown
  deriving DecidableEq, Repr, Inhabited

/-- The text of a status. -/
def Status.text : Status → String
  | .pending => "pending"
  | .succeeded => "succeeded"
  | .failed => "failed"
  | .cancelled => "cancelled"
  | .refunded => "refunded"
  | .unknown => "unknown"

/-! ### Orders -/

/-- A checked order request. -/
structure CreateOrder where
  orderId : String
  tenantId : String
  accountId : String
  planId : String
  amountMinor : ℤ
  currency : String
  creditGrant : ℤ
  idempotencyKey : String
  /-- The identity fields are non-empty; so is `currency`, before it is upper-cased. -/
  nonblank : ∀ v ∈ [orderId, tenantId, accountId, planId, idempotencyKey], blank v = false
  amount_pos : 0 < amountMinor
  grant_nonneg : 0 ≤ creditGrant
  key_length : 8 ≤ idempotencyKey.length
  deriving DecidableEq

/-- `CreateOrder.__post_init__`: the checks in their order, then the currency in
upper case. -/
def CreateOrder.make (upper : String → String)
    (orderId tenantId accountId planId : String) (amountMinor : ℤ) (currency : String)
    (creditGrant : ℤ) (idempotencyKey : String) : Except Error CreateOrder :=
  match h : [("order_id", orderId), ("tenant_id", tenantId), ("account_id", accountId),
      ("plan_id", planId), ("currency", currency), ("idempotency_key", idempotencyKey)].find?
      fun field => blank field.2 with
  | some (name, _) => .error (.valueError (name ++ " must be non-empty"))
  | none =>
    if ha : 0 < amountMinor then
      if hg : 0 ≤ creditGrant then
        if hk : 8 ≤ idempotencyKey.length then
          .ok ⟨orderId, tenantId, accountId, planId, amountMinor, upper currency, creditGrant,
            idempotencyKey, by simp_all, ha, hg, hk⟩
        else .error (.valueError "idempotency_key must be at least 8 characters")
      else .error (.valueError "credit_grant must be a non-negative integer")
    else .error (.valueError "amount_minor must be a positive integer")

/-- An order as the store returns it. -/
structure Order extends CreateOrder where
  status : Status
  provider : Option String
  providerReference : Option String
  deriving DecidableEq

/-! ### Checkout -/

/-- What a provider's checkout is asked for. -/
structure CheckoutRequest where
  tenantId : String
  orderId : String
  amountMinor : ℤ
  currency : String
  planId : String
  idempotencyKey : String
  deriving DecidableEq, Repr

/-- What a provider's checkout answers. -/
structure CheckoutResponse where
  provider : String
  providerReference : String
  checkoutUrl : String
  testMode : Bool
  checkoutContext : List (String × Json)

/-! ### Events -/

/-- A verified provider fact. -/
structure NormalizedEvent where
  provider : String
  providerEventId : String
  eventType : String
  status : Status
  orderId : String
  occurredAt : String
  testMode : Bool
  idempotencyKey : String
  amountMinor : Option ℤ
  metadata : List (String × String)
  eventId_ne : providerEventId ≠ ""
  orderId_ne : orderId ≠ ""
  key_length : 8 ≤ idempotencyKey.length
  deriving DecidableEq

/-- `NormalizedEvent.__post_init__`. -/
def NormalizedEvent.make (provider providerEventId eventType : String) (status : Status)
    (orderId occurredAt : String) (testMode : Bool) (idempotencyKey : String)
    (amountMinor : Option ℤ) (metadata : List (String × String)) :
    Except Error NormalizedEvent :=
  if h : providerEventId ≠ "" ∧ orderId ≠ "" ∧ 8 ≤ idempotencyKey.length then
    .ok ⟨provider, providerEventId, eventType, status, orderId, occurredAt, testMode,
      idempotencyKey, amountMinor, metadata, h.1, h.2.1, h.2.2⟩
  else .error (.valueError "normalized event identity is incomplete")

/-- The status column of an inbox row: `received`, then the event's own. -/
inductive InboxStatus where
  | received
  | processed (status : Status)
  deriving DecidableEq, Repr

/-- What `process_event` answers. -/
structure ProcessingResult where
  provider : String
  providerEventId : String
  applied : Bool
  status : InboxStatus
  deriving DecidableEq, Repr

/-! ### Sample values -/

namespace Sample

/-- What a call draws when every reading carries its tag. -/
def env (tag : String) : Env where
  now _ := tag
  uuid i := tag ++ (if i = 0 then "-0" else "-1")

/-- An order of ten credits. -/
def order : CreateOrder where
  orderId := "order-1"
  tenantId := "tenant-1"
  accountId := "account-1"
  planId := "pro"
  amountMinor := 1200
  currency := "USD"
  creditGrant := 10
  idempotencyKey := "order-idem-1"
  nonblank := by decide
  amount_pos := by decide
  grant_nonneg := by decide
  key_length := by decide

/-- An event with an id and a key of its own. -/
def event (id : String) (status : Status) : NormalizedEvent where
  provider := "mock"
  providerEventId := "evt-" ++ id
  eventType := "payment.updated"
  status := status
  orderId := "order-1"
  occurredAt := "2026-09-18T00:00:00+00:00"
  testMode := true
  idempotencyKey := "idem-evt-" ++ id
  amountMinor := some 1200
  metadata := []
  eventId_ne := by simp [String.ext_iff]
  orderId_ne := by decide
  key_length := by rw [String.length_append]; exact Nat.le_add_right_of_le (by decide)

end Sample

end AiSaas
