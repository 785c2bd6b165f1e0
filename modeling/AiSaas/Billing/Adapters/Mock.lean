import AiSaas.Billing.Adapters.Base

/-!
# The mock adapter

`MockPaymentAdapter` of `services/billing/adapters/mock.py`, the provider of
local environments.

* `Mock.createCheckout` — a checkout that always answers.
* `Mock.status`, `Mock.verifyAndNormalizeEvent` — its webhooks.
-/

namespace AiSaas.Mock

variable (lib : Stdlib)

/-- `create_checkout`. -/
def createCheckout (env : Env) (request : CheckoutRequest) : Except Error CheckoutResponse :=
  .ok
    { provider := "mock"
      providerReference := "mock-payment-" ++ env.uuid 0
      checkoutUrl := "https://mock.invalid/checkout/" ++ request.orderId
      testMode := true
      checkoutContext := [] }

/-- `_status`. -/
def status (value : String) : Status :=
  let value := lib.upper value
  if value ∈ ["DONE", "PAID", "SUCCEEDED"] then .succeeded
  else if value ∈ ["READY", "PENDING", "IN_PROGRESS"] then .pending
  else if value ∈ ["FAILED", "ABORTED"] then .failed
  else if value ∈ ["CANCELED", "CANCELLED"] then .cancelled
  else if value = "REFUNDED" then .refunded
  else .unknown

/-- `verify_and_normalize_event`. -/
def verifyAndNormalizeEvent (webhookSecret : String) (env : Env) (rawBody : List UInt8)
    (headers : List (String × String)) : Except Error NormalizedEvent := do
  verifyHmac lib rawBody webhookSecret (header lib headers "x-signature")
  let value ← parseJson lib rawBody
  let occurredAt ← parseTime lib env (Json.get value "occurred_at")
  normalized "mock"
    (lib.str ((Json.get value "event_id").orElse ((Json.get value "id").orElse (.str ""))))
    (lib.str ((Json.get value "event_type").orElse (.str "payment.updated")))
    (status lib (lib.str ((Json.get value "status").orElse (.str "unknown"))))
    (lib.str ((Json.get value "order_id").orElse (.str ""))) occurredAt
    ((value.lookup "test_mode").elim true Json.truthy)
    (lib.str ((Json.get value "idempotency_key").orElse
      ((Json.get value "event_id").orElse (.str ""))))
    (Json.get value "amount_minor").asInt

end AiSaas.Mock
