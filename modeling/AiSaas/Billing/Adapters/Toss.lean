import AiSaas.Billing.Adapters.Base

/-!
# The Toss adapter

What confirms a payment in `TossPaymentsAdapter` of
`services/billing/adapters/toss.py`: the server asks Toss about the payment and
reads the answer as an event.  The answer is that of the moment, so the same
payment may be answered READY now and DONE later; the identity of the event is
made from the request alone.

## Main definitions

* `TossAdapter`, `TossLib` — what the adapter keeps, and calls of the library.
* `Toss.status` — the status a Toss status is read as.
* `Toss.confirmation` — the request for a confirmation and its answer.
* `Toss.confirmPaymentEvent` — the whole.

## Main results

* `Toss.confirmPaymentEvent_isOk_iff` — when an answer makes an event.
* `Toss.confirmPaymentEvent_eq_ok` — the event of an answer.
-/

namespace AiSaas

open Transaction

/-- What `TossPaymentsAdapter.__init__` keeps for confirmations, but for `request_json`. -/
structure TossAdapter where
  secretKey : String
  /-- Without the slashes at its end. -/
  baseUrl : String
  testMode : Bool

/-- The parts of the standard library that a confirmation calls. -/
structure TossLib extends Stdlib where
  /-- `base64.b64encode(…).decode()`. -/
  b64encode : List UInt8 → String
  /-- `int` of a float. -/
  truncate : String → Except Error ℤ
  /-- `json.dumps(event.as_dict(), sort_keys=True).encode("utf-8")`. -/
  dumps : NormalizedEvent → List UInt8

/-- `int(value)`. -/
def TossLib.int (lib : TossLib) : Json → Except Error ℤ
  | .int n => .ok n
  | .bool b => .ok (if b then 1 else 0)
  | .float r => lib.truncate r
  | .str s => orRaise (pyInt s)
      (.valueError ("invalid literal for int() with base 10: " ++ lib.repr (.str s)))
  | _ => .error .typeError

namespace Toss

/-- `provider_id`. -/
def providerId : String := "toss"

/-- `capabilities`. -/
def capabilities : List String :=
  ["checkout.create", "payment.confirm", "refund.create", "webhook.verify", "event.reconcile"]

variable (lib : TossLib) (adapter : TossAdapter)

/-- `_status`. -/
def status (value : String) : Status :=
  let value := lib.upper value
  if value ∈ ["DONE", "PAID", "SUCCEEDED"] then .succeeded
  else if value ∈ ["READY", "IN_PROGRESS", "WAITING_FOR_DEPOSIT"] then .pending
  else if value ∈ ["FAILED", "ABORTED"] then .failed
  else if value ∈ ["CANCELED", "CANCELLED"] then .cancelled
  else if value = "REFUNDED" then .refunded
  else .unknown

/-- What Toss answers to the request of a confirmation; `requestJson` is the HTTP client. -/
def confirmation
    (requestJson : String → String → List (String × String) → Json →
      Except Error (List (String × Json)))
    (providerReference orderId : String) (amountMinor : ℤ) (idempotencyKey : String) :
    Except Error (List (String × Json)) :=
  requestJson "POST" (adapter.baseUrl ++ "/v1/payments/confirm")
    [("Authorization", "Basic " ++ lib.b64encode (adapter.secretKey ++ ":").toUTF8.data.toList),
      ("Content-Type", "application/json"), ("Idempotency-Key", idempotencyKey)]
    (.obj [("paymentKey", .str providerReference), ("orderId", .str orderId),
      ("amount", .int amountMinor)])

/-- The answer is about the order and its amount; the amount is not read where the
order is another one. -/
def matchesOrder (value : List (String × Json)) (orderId : String) (amountMinor : ℤ) :
    Except Error Bool :=
  if lib.str ((Json.get value "orderId").orElse (.str "")) ≠ orderId then .ok false
  else do
    let total ← lib.int ((value.lookup "totalAmount").getD (.int (-1)))
    return decide (total = amountMinor)

/-- The status in an answer. -/
def statusText (value : List (String × Json)) : String :=
  lib.str ((Json.get value "status").orElse (.str "unknown"))

/-- The time in an answer. -/
def timeOf (value : List (String × Json)) : Json :=
  (Json.get value "approvedAt").orElse (Json.get value "requestedAt")

/-- The id of a confirmation's event. -/
def eventId (providerReference : String) : String := "confirm-" ++ providerReference

/-- The key under which the inbox files a confirmation. -/
def inboxKey (providerReference idempotencyKey : String) : String :=
  normalizedKey providerId (eventId providerReference) idempotencyKey

/-- `confirm_payment_event`. -/
def confirmPaymentEvent
    (requestJson : String → String → List (String × String) → Json →
      Except Error (List (String × Json)))
    (env : Env) (providerReference orderId : String) (amountMinor : ℤ) (idempotencyKey : String) :
    Except Error NormalizedEvent := do
  ensure (adapter.secretKey ≠ "") (.runtimeError "Toss secret key is not configured")
  let value ← confirmation lib adapter requestJson providerReference orderId amountMinor
    idempotencyKey
  let matched ← matchesOrder lib value orderId amountMinor
  ensure matched (.invalidWebhook "Toss confirmation does not match the pending order")
  let occurredAt ← parseTime lib.toStdlib env (timeOf value)
  let event ← normalized providerId (eventId providerReference) "payment.confirmed"
    (status lib (statusText lib value)) orderId occurredAt adapter.testMode idempotencyKey
    (some amountMinor)
  return { event with metadata := [("payment_key", providerReference)] }

/-! ### The event of an answer -/

variable {lib adapter}
  {requestJson : String → String → List (String × String) → Json →
    Except Error (List (String × Json))}
  {env : Env} {reference orderId key : String} {amountMinor : ℤ} {value : List (String × Json)}
  {event : NormalizedEvent}

theorem eventId_ne (reference : String) : eventId reference ≠ "" := by
  simp [eventId, String.ext_iff]

/-- A normalized event is made exactly when its order has a name and its key is long enough. -/
theorem normalized_isOk_iff {provider id eventType occurredAt : String} {s : Status}
    {testMode : Bool} {amount : Option ℤ} (hid : id ≠ "") :
    (∃ event, normalized provider id eventType s orderId occurredAt testMode key amount = .ok event) ↔
      orderId ≠ "" ∧ 8 ≤ (normalizedKey provider id key).length := by
  simp only [normalized, bind_eq_ok, ensure_eq_ok, NormalizedEvent.make]
  by_cases ho : orderId ≠ ""
  · by_cases hk : 8 ≤ (normalizedKey provider id key).length <;> simp [hid, ho, hk]
  · simp [ho]

/-- **When an answer makes an event**: where it is about the order, exactly when its
time can be read and the key is long enough. -/
theorem confirmPaymentEvent_isOk_iff (hsecret : adapter.secretKey ≠ "")
    (hanswer : confirmation lib adapter requestJson reference orderId amountMinor key = .ok value)
    (hmatch : matchesOrder lib value orderId amountMinor = .ok true) (horder : orderId ≠ "") :
    (∃ event, confirmPaymentEvent lib adapter requestJson env reference orderId amountMinor key
        = .ok event) ↔
      (∃ time, parseTime lib.toStdlib env (timeOf value) = .ok time) ∧
        8 ≤ (inboxKey reference key).length := by
  have hmade : ∀ time, (∃ event, normalized providerId (eventId reference) "payment.confirmed"
      (status lib (statusText lib value)) orderId time adapter.testMode key (some amountMinor)
        = .ok event) ↔ orderId ≠ "" ∧ 8 ≤ (inboxKey reference key).length :=
    fun time => normalized_isOk_iff (eventId_ne reference)
  simp only [confirmPaymentEvent, bind_eq_ok, ensure_eq_ok, hanswer, Except.ok.injEq]
  constructor
  · rintro ⟨_, _, _, answer, hsame, _, _, _, _, time, htime, event, hevent, _⟩
    subst hsame
    exact ⟨⟨time, htime⟩, ((hmade time).mp ⟨event, hevent⟩).2⟩
  · rintro ⟨⟨time, htime⟩, hkey⟩
    obtain ⟨event, hevent⟩ := (hmade time).mpr ⟨horder, hkey⟩
    exact ⟨_, (), by simpa using hsecret, value, rfl, true, hmatch, (), rfl, time, htime, event,
      hevent, rfl⟩

/-- **The event of an answer**: its identity is that of the request, its status that
of the answer. -/
theorem confirmPaymentEvent_eq_ok
    (h : confirmPaymentEvent lib adapter requestJson env reference orderId amountMinor key
      = .ok event) :
    ∃ value, confirmation lib adapter requestJson reference orderId amountMinor key = .ok value ∧
      event.provider = providerId ∧ event.providerEventId = eventId reference ∧
      event.status = status lib (statusText lib value) ∧ event.orderId = orderId ∧
      event.amountMinor = some amountMinor ∧ event.idempotencyKey = inboxKey reference key := by
  simp only [confirmPaymentEvent, bind_eq_ok] at h
  obtain ⟨-, -, value, hvalue, -, -, -, -, time, -, made, hmade, hevent⟩ := h
  obtain ⟨hprovider, hid, hstatus, horder, hamount, hkey⟩ := normalized_eq_ok hmade
  rw [← Except.ok.inj hevent]
  exact ⟨value, hvalue, hprovider, hid, hstatus, horder, hamount, hkey⟩

end Toss

end AiSaas
