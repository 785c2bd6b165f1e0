import AiSaas.Billing.Models

/-!
# What the payment adapters share

The helpers of `services/billing/adapters/base.py`: header lookup, signature
check, JSON envelope, timestamps and the normalized event.  What they call of
Python's standard library is a parameter.

## Main definitions

* `Stdlib` — the parts of the standard library the adapters call.
* `header`, `verifyHmac`, `parseJson`, `parseTime`, `normalized`,
  `genericCheckoutResponse` — the helpers.

## Main results

* `normalized_eq_ok` — the fields of a normalized event.
-/

namespace AiSaas

open Transaction

/-- The parts of Python's standard library the adapters call. -/
structure Stdlib where
  /-- `str.lower`. -/
  lower : String → String
  lower_empty : lower "" = ""
  /-- `str.upper`. -/
  upper : String → String
  /-- `repr` of a list or a dict. -/
  repr : Json → String
  /-- `hmac.new(secret.encode("utf-8"), raw_body, hashlib.sha256).hexdigest()`. -/
  hmacSha256 : String → List UInt8 → String
  /-- `json.loads(raw_body.decode("utf-8"))`; nothing where one of them raises. -/
  loads : List UInt8 → Option Json
  /-- `datetime.fromisoformat`, as ISO text in UTC; nothing where it raises. -/
  fromIsoFormat : String → Option String

variable (lib : Stdlib)

/-- `str(value)`. -/
def Stdlib.str (value : Json) : String := value.pyStr lib.repr

/-- `header`: the first header with the name, in any case, stripped. -/
def header (headers : List (String × String)) (name : String) : String :=
  match headers.find? fun h => decide (lib.lower h.1 = lib.lower name) with
  | some h => strip h.2
  | none => ""

/-- `verify_hmac`; `compare_digest` takes ASCII text only. -/
def verifyHmac (rawBody : List UInt8) (secret supplied : String) : Except Error Unit := do
  ensure (secret ≠ "" ∧ supplied ≠ "") (.invalidWebhook "webhook signature is missing")
  let expected := lib.hmacSha256 secret rawBody
  ensure (isAscii expected && isAscii (lib.lower supplied)) .typeError
  ensure (expected = lib.lower supplied) (.invalidWebhook "webhook signature is invalid")

/-- `parse_json`. -/
def parseJson (rawBody : List UInt8) : Except Error (List (String × Json)) :=
  match lib.loads rawBody with
  | none => .error (.invalidWebhook "webhook body is not valid JSON")
  | some (.obj fields) => .ok fields
  | some _ => .error (.invalidWebhook "webhook body must be a JSON object")

/-- `parse_time`. -/
def parseTime (env : Env) : Json → Except Error String
  | .str value =>
    if value = "" then .ok (env.now 0)
    else orRaise (lib.fromIsoFormat (replaceChar value 'Z' "+00:00"))
      (.invalidWebhook "webhook occurred_at is invalid")
  | _ => .ok (env.now 0)

/-- The idempotency key of `normalized`: the key or the event id, with the
provider in front when it is short. -/
def normalizedKey (provider eventId idempotencyKey : String) : String :=
  let key := if idempotencyKey = "" then eventId else idempotencyKey
  if key.length < 8 then provider ++ ":" ++ key else key

/-- `normalized`. -/
def normalized (provider eventId eventType : String) (status : Status)
    (orderId occurredAt : String) (testMode : Bool) (idempotencyKey : String)
    (amountMinor : Option ℤ) : Except Error NormalizedEvent := do
  ensure (eventId ≠ "" ∧ orderId ≠ "") (.invalidWebhook "webhook identity is incomplete")
  NormalizedEvent.make provider eventId (if eventType = "" then "payment.updated" else eventType)
    status orderId occurredAt testMode (normalizedKey provider eventId idempotencyKey) amountMinor []

/-- `generic_checkout_response`. -/
def genericCheckoutResponse (provider : String) (value : List (String × Json)) (testMode : Bool) :
    Except Error CheckoutResponse := do
  let reference := lib.str ((Json.get value "id").orElse
    ((Json.get value "paymentKey").orElse ((Json.get value "checkout_id").orElse (.str ""))))
  let url := lib.str ((Json.get value "checkout_url").orElse
    ((Json.get value "url").orElse ((Json.get value "hosted_url").orElse (.str ""))))
  ensure (reference ≠ "" ∧ url ≠ "") (.runtimeError "provider checkout response is incomplete")
  return ⟨provider, reference, url, testMode, []⟩

/-- **The fields of a normalized event.** -/
theorem normalized_eq_ok {provider eventId eventType : String} {status : Status}
    {orderId occurredAt : String} {testMode : Bool} {idempotencyKey : String}
    {amountMinor : Option ℤ} {event : NormalizedEvent}
    (h : normalized provider eventId eventType status orderId occurredAt testMode idempotencyKey
      amountMinor = .ok event) :
    event.provider = provider ∧ event.providerEventId = eventId ∧ event.status = status ∧
      event.orderId = orderId ∧ event.amountMinor = amountMinor ∧
      event.idempotencyKey = normalizedKey provider eventId idempotencyKey := by
  simp only [normalized, bind_eq_ok, ensure_eq_ok] at h
  obtain ⟨-, -, h⟩ := h
  generalize (if eventType = "" then "payment.updated" else eventType) = shown at h
  unfold NormalizedEvent.make at h
  split_ifs at h
  rw [← Except.ok.inj h]
  exact ⟨rfl, rfl, rfl, rfl, rfl, rfl⟩

end AiSaas
