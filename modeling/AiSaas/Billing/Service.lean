import AiSaas.Billing.Adapters.LemonSqueezy
import AiSaas.Billing.Adapters.Mock
import AiSaas.Billing.Store
import AiSaas.Lib.Runs

/-!
# The billing service

`BillingService` of `services/billing/service.py` over the provider registry of
`services/billing/registry.py`.  Creating an order is no single transaction: the
pending order is durable before the provider is asked for a checkout, and what
the provider was asked stays asked whatever happens then.

## Main definitions

* `PaymentProvider`, `ProviderRegistry`, `BillingService` — providers and service.
* `World` — the store, and what providers were handed.
* `BillingService.createOrder`, `BillingService.receiveWebhook` — the operations.
* `ReusedForSame` — a call that reuses a key and an order repeats the order's terms.

## Main results

* `BillingService.createOrder_eq_ok` — what a call that returned a checkout did.
* `BillingService.checkouts_agree_iff` — when checkouts agree with stored orders.
-/

namespace AiSaas

open Relational Transaction

/-! ### Providers -/

/-- What the service uses of the `PaymentProvider` port. -/
structure PaymentProvider where
  capabilities : List String
  createCheckout : Env → CheckoutRequest → Except Error CheckoutResponse
  verifyAndNormalizeEvent : Env → List UInt8 → List (String × String) →
    Except Error NormalizedEvent

/-- `KNOWN_PROVIDERS`. -/
def knownProviders : List String := ["mock", "toss", "lemon-squeezy"]

/-- A registry has known providers only. -/
structure ProviderRegistry where
  providers : List (String × PaymentProvider)
  known : ∀ p ∈ providers, p.1 ∈ knownProviders

/-- `ProviderRegistry.require`. -/
def ProviderRegistry.require (registry : ProviderRegistry) (providerId capability : String) :
    Except Error PaymentProvider := do
  let provider ← orRaise (registry.providers.lookup providerId) (.unknownProvider providerId)
  ensure (capability ∈ provider.capabilities)
    (.providerConfiguration (providerId ++ " does not support " ++ capability))
  return provider

/-- `MockPaymentAdapter` as a provider. -/
def Mock.provider (lib : Stdlib) (webhookSecret : String) : PaymentProvider where
  capabilities := ["checkout.create", "payment.confirm", "subscription.transition",
    "refund.create", "webhook.verify", "event.reconcile"]
  createCheckout := Mock.createCheckout
  verifyAndNormalizeEvent := Mock.verifyAndNormalizeEvent lib webhookSecret

/-- `LemonSqueezyAdapter` as a provider, with the HTTP client it is given. -/
def LemonSqueezy.provider (lib : Stdlib) (adapter : LemonSqueezyAdapter)
    (requestJson : String → String → List (String × String) → Json →
      Except Error (List (String × Json))) : PaymentProvider where
  capabilities := ["checkout.create", "subscription.transition", "refund.create",
    "webhook.verify", "event.reconcile"]
  createCheckout _ := LemonSqueezy.createCheckout lib adapter requestJson
  verifyAndNormalizeEvent := LemonSqueezy.verifyAndNormalizeEvent lib adapter

/-! ### The service -/

/-- The service; its constructor asks for a provider that can create checkouts. -/
structure BillingService where
  providers : ProviderRegistry
  activeProvider : String
  enabled : (providers.require activeProvider "checkout.create").isOk = true

/-- What a call of the service reads and writes. -/
structure World where
  database : Database
  /-- The requests handed to providers, oldest first. -/
  checkouts : List CheckoutRequest

/-- The `CheckoutRequest` of `create_order`. -/
def checkoutRequest (request : CreateOrder) : CheckoutRequest where
  tenantId := request.tenantId
  orderId := request.orderId
  amountMinor := request.amountMinor
  currency := request.currency
  planId := request.planId
  idempotencyKey := request.idempotencyKey

namespace BillingService

variable (service : BillingService)

/-- `create_order`; each of its three steps draws for itself. -/
def createOrder (envs : ℕ → Env) (request : CreateOrder) (w : World) :
    Except Error CheckoutResponse × World :=
  match service.providers.require service.activeProvider "checkout.create" with
  | .error e => (.error e, w)
  | .ok provider =>
    match atomically (BillingStore.createPendingOrder (envs 0) request service.activeProvider)
        w.database with
    | (.error e, db) => (.error e, { w with database := db })
    | (.ok _, db) =>
      -- the request is made from the arguments, not from the order that was stored
      let handed := w.checkouts ++ [checkoutRequest request]
      match provider.createCheckout (envs 1) (checkoutRequest request) with
      | .error e => (.error e, ⟨db, handed⟩)
      | .ok checkout =>
        match atomically (BillingStore.attachCheckout (envs 2) request.orderId
            service.activeProvider checkout.providerReference) db with
        | (.error e, db) => (.error e, ⟨db, handed⟩)
        | (.ok _, db) => (.ok checkout, ⟨db, handed⟩)

/-- `receive_webhook`. -/
def receiveWebhook (envs : ℕ → Env) (providerId : String) (rawBody : List UInt8)
    (headers : List (String × String)) (db : Database) :
    Except Error ProcessingResult × Database :=
  if providerId ≠ service.activeProvider then
    (.error (.valueError "webhook provider is not enabled in this environment"), db)
  else
    match service.providers.require providerId "webhook.verify" with
    | .error e => (.error e, db)
    | .ok provider =>
      match provider.verifyAndNormalizeEvent (envs 0) rawBody headers with
      | .error e => (.error e, db)
      | .ok event => atomically (BillingStore.processEvent (envs 1) event rawBody headers) db

/-- The world after a call of `create_order`. -/
def step (w : World) (call : (ℕ → Env) × CreateOrder) : World :=
  (service.createOrder call.1 call.2 w).2

/-! ### Checkouts and stored orders -/

/-- What a provider was handed has the terms of an order. -/
def Agrees (handed : CheckoutRequest) (order : Order) : Prop :=
  handed.tenantId = order.tenantId ∧ handed.planId = order.planId ∧
    handed.amountMinor = order.amountMinor ∧ handed.currency = order.currency

instance (handed : CheckoutRequest) (order : Order) : Decidable (Agrees handed order) :=
  inferInstanceAs (Decidable (_ ∧ _))

/-- If the call returns a checkout, what it handed to the provider has the terms
of the row stored for its order. -/
def CheckoutAgrees (w : World) (call : (ℕ → Env) × CreateOrder) : Prop :=
  ∀ checkout, (service.createOrder call.1 call.2 w).1 = .ok checkout →
    ∃ handed stored, (service.step w call).checkouts = w.checkouts ++ [handed] ∧
      (service.step w call).database.order? call.2.orderId = some stored ∧ Agrees handed stored

/-- If the provider answers and the key is stored for the same order, the
request repeats the terms of the stored order. -/
def ReusedForSame (w : World) (call : (ℕ → Env) × CreateOrder) : Prop :=
  ∀ provider checkout,
    service.providers.require service.activeProvider "checkout.create" = .ok provider →
    provider.createCheckout (call.1 1) (checkoutRequest call.2) = .ok checkout →
      ∀ existing, w.database.billingOrders.findBy? call.2.idempotencyKey = some existing →
        existing.orderId = call.2.orderId → Agrees (checkoutRequest call.2) existing.toOrder

variable {service} {envs : ℕ → Env} {request : CreateOrder} {w : World}
  {provider : PaymentProvider} {checkout : CheckoutResponse} {o o' : Order} {db₁ db₂ : Database}

theorem createOrder_of_ok
    (hprovider : service.providers.require service.activeProvider "checkout.create" = .ok provider)
    (hpending : BillingStore.createPendingOrder (envs 0) request service.activeProvider w.database
      = .ok (o, db₁))
    (hcheckout : provider.createCheckout (envs 1) (checkoutRequest request) = .ok checkout)
    (hattach : BillingStore.attachCheckout (envs 2) request.orderId service.activeProvider
      checkout.providerReference db₁ = .ok (o', db₂)) :
    service.createOrder envs request w
      = (.ok checkout, ⟨db₂, w.checkouts ++ [checkoutRequest request]⟩) := by
  simp [createOrder, hprovider, atomically_of_ok hpending, hcheckout, atomically_of_ok hattach]

/-- **What `create_order` did**: each of its steps returned. -/
theorem createOrder_eq_ok (h : (service.createOrder envs request w).1 = .ok checkout) :
    ∃ provider o db₁ o' db₂,
      service.providers.require service.activeProvider "checkout.create" = .ok provider ∧
      BillingStore.createPendingOrder (envs 0) request service.activeProvider w.database
        = .ok (o, db₁) ∧
      provider.createCheckout (envs 1) (checkoutRequest request) = .ok checkout ∧
      BillingStore.attachCheckout (envs 2) request.orderId service.activeProvider
        checkout.providerReference db₁ = .ok (o', db₂) := by
  unfold createOrder at h
  cases hprovider : service.providers.require service.activeProvider "checkout.create" with
  | error e => simp [hprovider] at h
  | ok provider =>
    cases hpending : BillingStore.createPendingOrder (envs 0) request service.activeProvider
        w.database with
    | error e => simp [hprovider, atomically_of_error hpending] at h
    | ok p =>
      obtain ⟨o, db₁⟩ := p
      cases hcheckout : provider.createCheckout (envs 1) (checkoutRequest request) with
      | error e => simp [hprovider, atomically_of_ok hpending, hcheckout] at h
      | ok answer =>
        cases hattach : BillingStore.attachCheckout (envs 2) request.orderId service.activeProvider
            answer.providerReference db₁ with
        | error e =>
          simp [hprovider, atomically_of_ok hpending, hcheckout, atomically_of_error hattach] at h
        | ok p =>
          obtain ⟨o', db₂⟩ := p
          simp only [hprovider, atomically_of_ok hpending, hcheckout, atomically_of_ok hattach,
            Except.ok.injEq] at h
          subst h
          exact ⟨provider, o, db₁, o', db₂, rfl, rfl, hcheckout, hattach⟩

/-- The order a returned checkout was attached to has the terms of the pending one. -/
theorem order?_attached (handed : CheckoutRequest)
    (hpending : db₁.order? request.orderId = some o)
    (hattach : BillingStore.attachCheckout (envs 2) request.orderId service.activeProvider
      checkout.providerReference db₁ = .ok (o', db₂)) :
    db₂.order? request.orderId = some o' ∧ (Agrees handed o' ↔ Agrees handed o) := by
  obtain ⟨row, hrow, rfl, -, horder⟩ := BillingStore.attachCheckout_eq_ok hattach
  obtain rfl := Option.some.inj (hpending.symm.trans hrow)
  exact ⟨(horder _).trans (if_pos rfl), Iff.rfl⟩

/-- **When one checkout agrees with its order**: exactly when a reused key and
order repeat the stored terms. -/
theorem checkoutAgrees_iff (service : BillingService) (w : World)
    (call : (ℕ → Env) × CreateOrder) :
    service.CheckoutAgrees w call ↔ service.ReusedForSame w call := by
  obtain ⟨envs, request⟩ := call
  constructor
  · intro h provider checkout hprovider hcheckout existing hkey hid
    -- the key finds the order, so the call returns a checkout for it
    have hpending : BillingStore.createPendingOrder (envs 0) request service.activeProvider
        w.database = .ok (existing.toOrder, w.database) := by
      simp [BillingStore.createPendingOrder, hkey, hid, ensure, bind, Except.bind, pure, Except.pure]
    have hfound : w.database.order? request.orderId = some existing.toOrder := by
      have hmem := (Table.findBy?_eq_some.mp hkey).1
      rw [Database.order?, ← hid, Table.find?_of_mem hmem]
      rfl
    obtain ⟨o', db₂, hattach⟩ := BillingStore.attachCheckout_ok_of (envs 2) service.activeProvider
      checkout.providerReference hfound
    have hok := createOrder_of_ok hprovider hpending hcheckout hattach
    obtain ⟨handed, stored, hhanded, hstored, hagrees⟩ := h checkout (congrArg Prod.fst hok)
    rw [step, hok] at hhanded hstored
    obtain ⟨hsame, hterms⟩ := order?_attached handed hfound hattach
    obtain rfl := Option.some.inj (hsame.symm.trans hstored)
    obtain rfl := List.singleton_injective (List.append_cancel_left hhanded)
    exact hterms.mp hagrees
  · intro h checkout hok
    obtain ⟨provider, o, db₁, o', db₂, hprovider, hpending, hcheckout, hattach⟩ :=
      createOrder_eq_ok hok
    have heq := createOrder_of_ok hprovider hpending hcheckout hattach
    have hstored : db₁.order? request.orderId = some o ∧ Agrees (checkoutRequest request) o := by
      rcases BillingStore.createPendingOrder_eq_ok hpending with
        ⟨existing, hkey, hid, rfl, rfl⟩ | ⟨billingOrders, -, hins, rfl, rfl⟩
      · -- the key was reused for the same order
        have hmem := (Table.findBy?_eq_some.mp hkey).1
        refine ⟨?_, h provider checkout hprovider hcheckout existing hkey hid⟩
        rw [Database.order?, ← hid, Table.find?_of_mem hmem]
        rfl
      · -- the order was stored from this request
        refine ⟨?_, rfl, rfl, rfl, rfl⟩
        rw [Database.order?, show billingOrders.find? request.orderId = _ from
          (Table.find?_insert hins _).trans (if_pos rfl)]
        rfl
    obtain ⟨hsame, hterms⟩ := order?_attached (checkoutRequest request) hstored.1 hattach
    refine ⟨checkoutRequest request, o', ?_, ?_, hterms.mpr hstored.2⟩
    · rw [step, heq]
    · rw [step, heq]
      exact hsame

/-- **When checkouts agree with stored orders.**  Along every run of `create_order`
calls, each returned checkout was asked for on the terms of the row stored for its
order exactly when each reused key and order repeat the stored terms. -/
theorem checkouts_agree_iff (service : BillingService) (w : World)
    (calls : List ((ℕ → Env) × CreateOrder)) :
    Runs.Along service.step service.CheckoutAgrees w calls ↔
      Runs.Along service.step service.ReusedForSame w calls :=
  Runs.along_congr (checkoutAgrees_iff service)

end BillingService

/-! ### A retry with other terms -/

namespace Sample

/-- The service of a local environment. -/
def mockService : BillingService where
  providers := ⟨[("mock", Mock.provider lib "mock-secret")], by simp [knownProviders]⟩
  activeProvider := "mock"
  enabled := by decide

/-- The sample order under the same key, for another tenant and plan and less money. -/
def cheaperOrder : CreateOrder :=
  { order with
    tenantId := "tenant-2"
    planId := "team"
    amountMinor := 1
    nonblank := by decide
    amount_pos := by decide }

/-- The world after the order was created with its own terms. -/
def created : World :=
  mockService.step ⟨.empty, []⟩ (fun _ => env "a", order)

/-- A retry that reuses the key and the order with other terms gets a checkout on
its own terms, while the stored order keeps the first ones. -/
theorem checkout_disagrees :
    (mockService.createOrder (fun _ => env "b") cheaperOrder created).1.isOk = true ∧
      (mockService.step created (fun _ => env "b", cheaperOrder)).checkouts.getLast?
        = some ⟨"tenant-2", "order-1", 1, "USD", "team", "order-idem-1"⟩ ∧
      ((mockService.step created (fun _ => env "b", cheaperOrder)).database.order? "order-1").map
        (fun o => (o.tenantId, o.amountMinor, o.currency, o.planId))
          = some ("tenant-1", 1200, "USD", "pro") := by
  decide

end Sample

end AiSaas
