import AiSaas.Billing.Adapters.Base

/-!
# The Lemon Squeezy adapter

`LemonSqueezyAdapter` of `services/billing/adapters/lemon_squeezy.py`.  A webhook
is read in parts: the identity under which the inbox files it, the order it is
about, and the status that is chosen for it.

## Main definitions

* `LemonSqueezy.createCheckout` — a hosted checkout, asked for over HTTP.
* `LemonSqueezy.eventId`, `orderId`, `eventType`, `statusValue`, `inboxKey` — what
  the adapter reads off a body and its headers.
* `LemonSqueezy.status` — the status chosen for a webhook.
* `LemonSqueezy.verifyAndNormalizeEvent` — the whole.

## Main results

* `LemonSqueezy.verifyAndNormalizeEvent_eq_ok` — the event of an accepted webhook.
* `LemonSqueezy.status_ne_succeeded_iff` — when a status that is no payment is
  read as none.
-/

namespace AiSaas

open Transaction

/-- What `LemonSqueezyAdapter.__init__` keeps, but for `request_json`. -/
structure LemonSqueezyAdapter where
  apiKey : String
  webhookSecret : String
  storeId : String
  variantId : String
  redirectUrl : String
  /-- Without the slashes at its end. -/
  baseUrl : String
  testMode : Bool

namespace LemonSqueezy

/-- `provider_id`. -/
def providerId : String := "lemon-squeezy"

variable (lib : Stdlib) (adapter : LemonSqueezyAdapter)

/-! ### Checkout -/

/-- The payload of `create_checkout`. -/
def checkoutPayload (request : CheckoutRequest) : Json :=
  let attributes := [("test_mode", Json.bool adapter.testMode),
    ("checkout_data", .obj [("custom", .obj [("order_id", .str request.orderId),
      ("tenant_id", .str request.tenantId)])])]
  let redirect := if adapter.redirectUrl = "" then [] else
    [("product_options", Json.obj [("redirect_url", .str adapter.redirectUrl)])]
  let related (type id : String) : Json :=
    .obj [("data", .obj [("type", .str type), ("id", .str id)])]
  .obj [("data", .obj [("type", .str "checkouts"), ("attributes", .obj (attributes ++ redirect)),
    ("relationships", .obj [("store", related "stores" adapter.storeId),
      ("variant", related "variants" adapter.variantId)])])]

/-- `create_checkout`; `requestJson` is the HTTP client. -/
def createCheckout
    (requestJson : String → String → List (String × String) → Json →
      Except Error (List (String × Json)))
    (request : CheckoutRequest) : Except Error CheckoutResponse := do
  ensure (adapter.apiKey ≠ "") (.runtimeError "Lemon Squeezy API key is not configured")
  ensure (adapter.storeId ≠ "" ∧ adapter.variantId ≠ "")
    (.runtimeError "Lemon Squeezy store and variant IDs are not configured")
  let value ← requestJson "POST" (adapter.baseUrl ++ "/v1/checkouts")
    [("Authorization", "Bearer " ++ adapter.apiKey), ("Accept", "application/vnd.api+json"),
      ("Content-Type", "application/vnd.api+json")]
    (checkoutPayload adapter request)
  let data := match Json.get value "data" with
    | .obj fields => fields
    | _ => value
  -- an `id` among the attributes is written over the one of the resource
  let merged := (Json.get data "attributes").asDict ++ [("id", Json.get data "id")]
  genericCheckoutResponse lib providerId merged adapter.testMode

/-! ### The fields of a webhook -/

/-- `meta`. -/
def metaOf (value : List (String × Json)) : List (String × Json) := (Json.get value "meta").asDict

/-- `data`. -/
def dataOf (value : List (String × Json)) : List (String × Json) := (Json.get value "data").asDict

/-- `attributes`. -/
def attributesOf (value : List (String × Json)) : List (String × Json) :=
  (Json.get (dataOf value) "attributes").asDict

/-- `custom`. -/
def customOf (value : List (String × Json)) : List (String × Json) :=
  (Json.get (metaOf value) "custom_data").asDict

/-- `event_type`. -/
def eventType (value : List (String × Json)) (headers : List (String × String)) : String :=
  lib.str ((Json.get (metaOf value) "event_name").orElse
    ((Json.str (header lib headers "x-event-name")).orElse (.str "subscription.updated")))

/-- `event_id`: the id of the resource, before one of the event itself. -/
def eventId (value : List (String × Json)) : String :=
  lib.str ((Json.get (dataOf value) "id").orElse
    ((Json.get (metaOf value) "event_id").orElse (.str "")))

/-- `order_id`. -/
def orderId (value : List (String × Json)) : String :=
  lib.str ((Json.get (customOf value) "order_id").orElse
    ((Json.get (customOf value) "orderId").orElse
      ((Json.get (attributesOf value) "order_id").orElse (.str ""))))

/-- `status_value`. -/
def statusValue (value : List (String × Json)) (headers : List (String × String)) : String :=
  lib.str ((Json.get (attributesOf value) "status").orElse
    ((Json.get (attributesOf value) "status_formatted").orElse (.str (eventType lib value headers))))

/-- The `idempotency_key` argument of `normalized`. -/
def idempotencyKey (value : List (String × Json)) (headers : List (String × String)) : String :=
  if header lib headers "x-event-id" = "" then eventId lib value
  else header lib headers "x-event-id"

/-- The key under which the inbox files a webhook. -/
def inboxKey (value : List (String × Json)) (headers : List (String × String)) : String :=
  normalizedKey providerId (eventId lib value) (idempotencyKey lib value headers)

/-! ### The status -/

/-- `_status`. -/
def status (value eventType : String) : Status :=
  let value := lib.lower value
  -- a name that speaks of something created decides before every other status
  if value ∈ ["active", "paid", "completed", "success", "succeeded"] ∨
      contains eventType "created" then .succeeded
  else if value ∈ ["cancelled", "canceled", "expired", "failed", "past_due"] ∨
      contains eventType "cancel" ∨ contains eventType "expired" then
    if value ∈ ["cancelled", "canceled"] ∨ contains eventType "cancel" then .cancelled else .failed
  else if value = "refunded" ∨ contains eventType "refund" then .refunded
  else if value ∈ ["paused", "on_trial", "pending"] then .pending
  else .unknown

/-- `verify_and_normalize_event`. -/
def verifyAndNormalizeEvent (env : Env) (rawBody : List UInt8)
    (headers : List (String × String)) : Except Error NormalizedEvent := do
  verifyHmac lib rawBody adapter.webhookSecret (header lib headers "x-signature")
  let value ← parseJson lib rawBody
  let attributes := attributesOf value
  let storeId := lib.str ((Json.get attributes "store_id").orElse (.str ""))
  let variantId := lib.str ((Json.get attributes "variant_id").orElse (.str ""))
  ensure (¬ (adapter.storeId ≠ "" ∧ storeId ≠ adapter.storeId))
    (.invalidWebhook "Lemon Squeezy store does not match the configured store")
  ensure (¬ (adapter.variantId ≠ "" ∧ variantId ≠ adapter.variantId))
    (.invalidWebhook "Lemon Squeezy variant does not match the configured variant")
  let occurredAt ← parseTime lib env
    ((Json.get attributes "updated_at").orElse (Json.get attributes "created_at"))
  normalized providerId (eventId lib value) (eventType lib value headers)
    (status lib (statusValue lib value headers) (eventType lib value headers)) (orderId lib value)
    occurredAt adapter.testMode (idempotencyKey lib value headers)
    (Json.get attributes "total").asInt

variable {lib adapter} {env : Env} {rawBody : List UInt8} {headers : List (String × String)}
  {event : NormalizedEvent}

/-- **The event of an accepted webhook.** -/
theorem verifyAndNormalizeEvent_eq_ok
    (h : verifyAndNormalizeEvent lib adapter env rawBody headers = .ok event) :
    ∃ value, parseJson lib rawBody = .ok value ∧ event.provider = providerId ∧
      event.providerEventId = eventId lib value ∧
      event.status = status lib (statusValue lib value headers) (eventType lib value headers) ∧
      event.orderId = orderId lib value ∧
      event.amountMinor = (Json.get (attributesOf value) "total").asInt ∧
      event.idempotencyKey = inboxKey lib value headers := by
  simp only [verifyAndNormalizeEvent, bind_eq_ok] at h
  obtain ⟨-, -, value, hvalue, -, -, -, -, occurredAt, -, hevent⟩ := h
  exact ⟨value, hvalue, normalized_eq_ok hevent⟩

/-! ### Unpaid statuses -/

/-- The statuses of a payment that failed or was taken back. -/
def unpaidStatuses : List String :=
  ["failed", "refunded", "cancelled", "canceled", "expired", "past_due"]

/-- **When an unpaid status is read as no payment**: exactly when the event's name
does not speak of something created. -/
theorem status_ne_succeeded_iff {value eventType : String} (h : lib.lower value ∈ unpaidStatuses) :
    status lib value eventType ≠ .succeeded ↔ contains eventType "created" = false := by
  have hunpaid : lib.lower value ∉ ["active", "paid", "completed", "success", "succeeded"] := by
    simp only [unpaidStatuses, List.mem_cons, List.not_mem_nil, or_false] at h
    rcases h with h | h | h | h | h | h <;> rw [h] <;> decide
  unfold status
  cases hc : contains eventType "created" with
  | true => simp
  | false =>
    simp only [hunpaid, Bool.false_eq_true, or_self, if_false, ne_eq, iff_true]
    split_ifs <;> decide

end LemonSqueezy

/-! ### Sample webhooks -/

namespace Sample

/-- The bytes of a text. -/
def bytes (text : String) : List UInt8 := text.toUTF8.data.toList

/-- The body of a webhook about the sample order. -/
def lemonBody (eventName id status : String) : List UInt8 :=
  bytes "\x7b\"meta\":\x7b\"event_name\":\"" ++ bytes eventName ++
    bytes "\",\"custom_data\":\x7b\"order_id\":\"order-1\"\x7d\x7d,\"data\":\x7b\"id\":\"" ++
    bytes id ++ bytes "\",\"attributes\":\x7b\"status\":\"" ++ bytes status ++
    bytes "\"\x7d\x7d\x7d"

/-- The value of the body. -/
def lemonValue (eventName id status : String) : List (String × Json) :=
  [("meta", .obj [("event_name", .str eventName),
      ("custom_data", .obj [("order_id", .str "order-1")])]),
    ("data", .obj [("id", .str id), ("attributes", .obj [("status", .str status)])])]

/-- Bodies, their values and their signatures under `lemon-secret`. -/
def lemonBodies : List (List UInt8 × List (String × Json) × String) :=
  [(lemonBody "order_created" "9001" "paid", lemonValue "order_created" "9001" "paid",
      "ff810bf8038e5b50495dfdd3ce423bed4375fa2b3f8d7ae5f3da5c219d829dac"),
    (lemonBody "order_refunded" "9001" "refunded", lemonValue "order_refunded" "9001" "refunded",
      "6c0c247d83236a959380b2c5c7a700ab6e2ac5e4bb8623ef9579fde5f9a7d489"),
    (lemonBody "order_refunded" "9002" "refunded", lemonValue "order_refunded" "9002" "refunded",
      "7232cff79ba7827097b61f21cbb64c5d85512dfe4039c2478bfabde0baa1853f"),
    (lemonBody "order_created" "9001" "failed", lemonValue "order_created" "9001" "failed",
      "d4b816370517df626992a075066d481be18ba728aaf63426d5ea93f8e062c1bc")]

/-- The standard library on the sample webhooks. -/
def lib : Stdlib where
  lower s := String.ofList (s.toList.map Char.toLower)
  lower_empty := rfl
  upper s := String.ofList (s.toList.map Char.toUpper)
  repr _ := ""
  hmacSha256 secret body :=
    if secret = "lemon-secret" then (lemonBodies.lookup body).elim "" Prod.snd else ""
  loads body := (lemonBodies.lookup body).map fun entry => .obj entry.1
  fromIsoFormat text := some text

/-- An adapter without a store or a variant of its own. -/
def lemonAdapter : LemonSqueezyAdapter where
  apiKey := ""
  webhookSecret := "lemon-secret"
  storeId := ""
  variantId := ""
  redirectUrl := ""
  baseUrl := "https://api.lemonsqueezy.com"
  testMode := false

/-- The headers of a signed delivery. -/
def lemonHeaders (eventName id status deliveryId : String) : List (String × String) :=
  [("X-Signature", lib.hmacSha256 "lemon-secret" (lemonBody eventName id status)),
    ("X-Event-Id", deliveryId)]

example : (LemonSqueezy.verifyAndNormalizeEvent lib lemonAdapter (env "a")
    (lemonBody "order_created" "9001" "paid")
    (lemonHeaders "order_created" "9001" "paid" "delivery-1")).toOption.map
      (fun event => (event.status, event.providerEventId, event.idempotencyKey))
    = some (.succeeded, "9001", "delivery-1") := by decide +kernel

end Sample

end AiSaas
