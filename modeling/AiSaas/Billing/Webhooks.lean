import AiSaas.Billing.Payments
import AiSaas.Billing.Service

/-!
# Lemon Squeezy webhooks, from the endpoint to the ledger

`BillingService.receive_webhook` with the Lemon Squeezy adapter behind it.  The
inbox files a webhook under two identities, the resource it is about and a key
that prefers `X-Event-Id`; one of them is enough to take a webhook for a repeat.

## Main definitions

* `LemonSqueezy.Webhook` — a delivery that the adapter verified.
* `BillingService.Takes` — the service takes the webhooks of the adapter.
* `LemonSqueezy.Distinct` — two webhooks share neither identity.
* `BillingService.GrantsNothing` — no balance grew and no plan was granted.
* `BillingService.AnsweredFrom` — a webhook is answered as a repeat of another.
* `BillingService.Reversed` — an order's credits were taken back.

## Main results

* `LocalRuntime.inbox_run` — the inbox only grows.
* `BillingService.unpaid_grants_nothing_iff` — when an unpaid status grants nothing.
* `BillingService.facts_kept_apart_iff` — when two webhooks are kept apart, and when
  a refund takes the credits back.
-/

namespace AiSaas

open Relational Transaction

/-! ### The inbox only grows -/

namespace LocalRuntime

theorem inbox_step (db : Database) (call : Env × Call) :
    db.providerInbox.rows <+: (step db call).providerInbox.rows := by
  obtain ⟨env, c⟩ := call
  rcases step_cases db env c with hsame | ⟨c, rfl, hwrites⟩ | ⟨c, rfl, hwrites⟩
  · rw [hsame]
  · rw [hwrites.frame.2.1]
  · generalize step db (env, .billing c) = db' at hwrites
    cases hwrites with
    | create _ _ => exact List.prefix_rfl
    | attach _ _ => exact List.prefix_rfl
    | accept accepted =>
      rw [accepted.inbox]
      exact List.prefix_append _ _

/-- **The inbox only grows**, along every run. -/
theorem inbox_run (db : Database) (calls : List (Env × Call)) :
    db.providerInbox.rows <+: (Runs.final step db calls).providerInbox.rows :=
  Runs.rel_final (R := fun s t : Database => s.providerInbox.rows <+: t.providerInbox.rows)
    (I := fun _ => True) (fun _ => List.prefix_rfl) (fun h h' => h.trans h') (fun _ _ => id)
    (fun s c _ => inbox_step s c) trivial calls

end LocalRuntime

/-! ### Webhooks -/

namespace LemonSqueezy

/-- An authentic webhook: a delivery with the event the adapter makes of it, and
what is drawn while it is processed. -/
structure Webhook (lib : Stdlib) (adapter : LemonSqueezyAdapter) where
  envs : ℕ → Env
  rawBody : List UInt8
  headers : List (String × String)
  event : NormalizedEvent
  verified : verifyAndNormalizeEvent lib adapter (envs 0) rawBody headers = .ok event

variable {lib : Stdlib} {adapter : LemonSqueezyAdapter} (w w₁ w₂ : Webhook lib adapter)

namespace Webhook

/-- The value of the body. -/
def value : List (String × Json) := (parseJson lib w.rawBody).toOption.getD []

theorem event_eq : w.event.provider = providerId ∧
    w.event.providerEventId = eventId lib w.value ∧
    w.event.status = LemonSqueezy.status lib (statusValue lib w.value w.headers)
      (eventType lib w.value w.headers) ∧
    w.event.idempotencyKey = inboxKey lib w.value w.headers := by
  obtain ⟨value, hvalue, hprovider, hid, hstatus, -, -, hkey⟩ :=
    verifyAndNormalizeEvent_eq_ok w.verified
  obtain rfl : w.value = value := by rw [Webhook.value, hvalue]; rfl
  exact ⟨hprovider, hid, hstatus, hkey⟩

/-- The webhook as a call of the store. -/
def call : Env × LocalRuntime.Call :=
  (w.envs 1, .billing (.processEvent w.event w.rawBody w.headers))

/-- The row the inbox keeps of the webhook once it was accepted. -/
def row : InboxRow :=
  { BillingStore.received (w.envs 1) w.event w.rawBody w.headers with
    status := .processed w.event.status, applied := true }

end Webhook

/-- Two webhooks share neither the resource nor the inbox key. -/
def Distinct : Prop :=
  eventId lib w₁.value ≠ eventId lib w₂.value ∧
    inboxKey lib w₁.value w₁.headers ≠ inboxKey lib w₂.value w₂.headers

instance : Decidable (Distinct w₁ w₂) := inferInstanceAs (Decidable (_ ∧ _))

/-- An inbox row of one webhook matches the other exactly when they share an identity. -/
theorem matches_row_iff : BillingStore.Matches w₁.row w₂.event ↔ ¬ Distinct w₁ w₂ := by
  obtain ⟨hprovider₁, hid₁, -, hkey₁⟩ := w₁.event_eq
  obtain ⟨hprovider₂, hid₂, -, hkey₂⟩ := w₂.event_eq
  simp only [BillingStore.Matches, Webhook.row, BillingStore.received, Distinct, hprovider₁,
    hprovider₂, hid₁, hid₂, hkey₁, hkey₂, true_and, ne_eq, not_and_or, not_not]

/-- A status that is there is the one the adapter reads. -/
theorem statusValue_eq {value : List (String × Json)} {headers : List (String × String)}
    {s : String} (h : Json.get (attributesOf value) "status" = .str s) (hs : s ≠ "") :
    statusValue lib value headers = s := by
  simp [statusValue, h, Json.orElse, Json.truthy, hs, Stdlib.str, Json.pyStr]

end LemonSqueezy

/-! ### The endpoint -/

namespace BillingService

open LemonSqueezy

variable {service : BillingService} {lib : Stdlib} {adapter : LemonSqueezyAdapter}
  {db db' db₁ : Database} {w w₁ w₂ : Webhook lib adapter}

/-- The service takes the webhooks of the adapter. -/
structure Takes (service : BillingService) (lib : Stdlib) (adapter : LemonSqueezyAdapter) :
    Prop where
  active : service.activeProvider = providerId
  adapter : ∃ requestJson, service.providers.providers.lookup providerId
    = some (LemonSqueezy.provider lib adapter requestJson)

/-- `receive_webhook` of a webhook. -/
def receive (service : BillingService) (w : Webhook lib adapter) (db : Database) :
    Except Error ProcessingResult × Database :=
  service.receiveWebhook w.envs providerId w.rawBody w.headers db

/-- **What `receive_webhook` does with a webhook**: it is one transaction of the store. -/
theorem receive_eq (htakes : service.Takes lib adapter) (w : Webhook lib adapter)
    (db : Database) : service.receive w db
      = atomically (BillingStore.processEvent (w.envs 1) w.event w.rawBody w.headers) db := by
  obtain ⟨hactive, requestJson, hlookup⟩ := htakes
  have hprovider : service.providers.require providerId "webhook.verify"
      = .ok (LemonSqueezy.provider lib adapter requestJson) := by
    unfold ProviderRegistry.require
    rw [hlookup]
    rfl
  have hverify : (LemonSqueezy.provider lib adapter requestJson).verifyAndNormalizeEvent
      (w.envs 0) w.rawBody w.headers = .ok w.event := w.verified
  simp [receive, receiveWebhook, hactive, hprovider, hverify]

/-- The database after a webhook is the one after its call. -/
theorem snd_receive (htakes : service.Takes lib adapter) (w : Webhook lib adapter)
    (db : Database) : (service.receive w db).2 = LocalRuntime.step db w.call := by
  rw [receive_eq htakes]
  exact (snd_atomically_map BillingStore.Answer.processed _ db).symm

/-- A webhook that is a repeat gets the answer of the row it repeats. -/
theorem receive_of_duplicate (htakes : service.Takes lib adapter) {row : InboxRow}
    (h : BillingStore.duplicate? w.event db = some row) : service.receive w db
      = (.ok ⟨w.event.provider, w.event.providerEventId, false, row.status⟩, db) := by
  rw [receive_eq htakes]
  exact atomically_of_ok (by simp [BillingStore.processEvent, h, pure, Except.pure])

/-- **What a webhook that is no repeat did**: nothing where it raised, else its
event was accepted. -/
theorem receive_cases (htakes : service.Takes lib adapter)
    (h : BillingStore.duplicate? w.event db = none) :
    (∃ e, service.receive w db = (.error e, db)) ∨ ∃ before,
      BillingStore.Accepted (w.envs 1) w.event w.rawBody w.headers before db
        (service.receive w db).2 := by
  rw [receive_eq htakes]
  cases hb : BillingStore.processEvent (w.envs 1) w.event w.rawBody w.headers db with
  | error e => exact Or.inl ⟨e, atomically_of_error hb⟩
  | ok p =>
    obtain ⟨result, db'⟩ := p
    rw [atomically_of_ok hb]
    rcases BillingStore.processEvent_eq_ok hb with ⟨row, hdup, -⟩ | ⟨before, haccepted, -⟩
    · rw [h] at hdup
      cases hdup
    · exact Or.inr ⟨before, haccepted⟩

/-! ### Unpaid statuses -/

/-- No balance grew, and no account was moved to a plan but the free one. -/
def GrantsNothing (db db' : Database) : Prop :=
  (∀ a, db'.balance a ≤ db.balance a) ∧ ∀ a, db'.plan a = db.plan a ∨ db'.plan a = "free"

theorem GrantsNothing.refl (db : Database) : GrantsNothing db db :=
  ⟨fun _ => le_rfl, fun _ => Or.inl rfl⟩

/-- Accepting an event that is no success grants nothing. -/
theorem grantsNothing_of_accepted {env : Env} {event : NormalizedEvent} {rawBody : List UInt8}
    {headers : List (String × String)} {before : Order}
    (h : BillingStore.Accepted env event rawBody headers before db db')
    (hstatus : event.status ≠ .succeeded) : GrantsNothing db db' := by
  cases he : Payment.effect before.status event.status with
  | none =>
    obtain ⟨haccounts, -, hplans, -⟩ := h.idle he
    constructor
    · intro a
      rw [Database.balance_of_creditAccounts_eq haccounts]
    · intro a
      left
      rw [Database.plan, hplans]
      rfl
  | some e =>
    cases e with
    | grant => exact absurd (Payment.effect_eq_grant.mp he).1 hstatus
    | refund =>
      have hgrant := before.grant_nonneg
      constructor
      · intro a
        rcases h.posted _ he with ⟨-, -, hkept⟩ | ⟨-, -, -, hmoved⟩
        · rw [hkept a]
        · rw [hmoved a]
          change db.balance a + (if a = before.accountId then -before.creditGrant else 0) ≤ _
          split_ifs <;> omega
      · intro a
        rw [h.plan _ he a]
        by_cases ha : a = before.accountId
        · exact Or.inr (if_pos ha)
        · exact Or.inl (if_neg ha)

theorem grantsNothing_receive (htakes : service.Takes lib adapter)
    (hstatus : w.event.status ≠ .succeeded) (db : Database) :
    GrantsNothing db (service.receive w db).2 := by
  cases hdup : BillingStore.duplicate? w.event db with
  | some row =>
    rw [receive_of_duplicate htakes hdup]
    exact .refl db
  | none =>
    rcases receive_cases htakes hdup with ⟨e, herror⟩ | ⟨before, haccepted⟩
    · rw [herror]
      exact .refl db
    · exact grantsNothing_of_accepted haccepted hstatus

/-- **When an unpaid status grants nothing.**  A webhook whose status attribute is
an unpaid one is not read as a success, and never grants anything, exactly when
its event name does not speak of something created. -/
theorem unpaid_grants_nothing_iff (htakes : service.Takes lib adapter)
    (w : Webhook lib adapter) {s : String}
    (hstatus : Json.get (attributesOf w.value) "status" = .str s)
    (hunpaid : lib.lower s ∈ unpaidStatuses) :
    (w.event.status ≠ .succeeded ∧ ∀ db, GrantsNothing db (service.receive w db).2) ↔
      contains (eventType lib w.value w.headers) "created" = false := by
  have hs : s ≠ "" := by
    rintro rfl
    rw [lib.lower_empty] at hunpaid
    exact absurd hunpaid (by decide)
  have hchosen : w.event.status
      = LemonSqueezy.status lib s (eventType lib w.value w.headers) := by
    rw [w.event_eq.2.2.1, statusValue_eq hstatus hs]
  rw [← status_ne_succeeded_iff hunpaid, ← hchosen]
  exact ⟨fun h => h.1, fun h => ⟨h, grantsNothing_receive htakes h⟩⟩

/-! ### Repeats -/

/-- The second webhook is answered as a repeat of the first: from its inbox row,
with nothing done. -/
def AnsweredFrom (service : BillingService) (w₁ w₂ : Webhook lib adapter) (db : Database) : Prop :=
  BillingStore.duplicate? w₂.event db = some w₁.row ∧ service.receive w₂ db
    = (.ok ⟨w₂.event.provider, w₂.event.providerEventId, false, .processed w₁.event.status⟩, db)

/-- Where the first webhook was filed after `older`, the second repeats it exactly
when they share an identity and the second repeats nothing older. -/
theorem duplicate?_eq_row_iff (w₁ w₂ : Webhook lib adapter) {older news : List InboxRow}
    (hrows : db.providerInbox.rows = older ++ w₁.row :: news)
    (holder : db₁.providerInbox.rows = older)
    (hnew : BillingStore.duplicate? w₁.event db₁ = none) :
    BillingStore.duplicate? w₂.event db = some w₁.row ↔
      ¬ Distinct w₁ w₂ ∧ BillingStore.duplicate? w₂.event db₁ = none := by
  have hself : BillingStore.Matches w₁.row w₁.event := ⟨rfl, Or.inl rfl⟩
  have hnotin : w₁.row ∉ older := by
    intro hmem
    exact BillingStore.duplicate?_eq_none.mp hnew w₁.row (holder ▸ hmem) hself
  unfold BillingStore.duplicate?
  rw [hrows, holder, List.find?_append]
  cases hfind : older.find? fun row => decide (BillingStore.Matches row w₂.event) with
  | some row =>
    -- an older match is found first
    have hne : row ≠ w₁.row := by
      intro he
      exact hnotin (he ▸ List.mem_of_find?_eq_some hfind)
    simp [hne]
  | none =>
    rw [← matches_row_iff, Option.none_or, List.find?_cons]
    by_cases hm : BillingStore.Matches w₁.row w₂.event
    · simp [hm]
    · -- what is found among the news matches, and the row of the first does not
      have hne : news.find? (fun row => decide (BillingStore.Matches row w₂.event))
          ≠ some w₁.row := by
        intro he
        exact hm (by simpa using List.find?_some he)
      simp [hm, hne]

/-! ### Refunds -/

/-- The order was refunded and its account has its credits no more. -/
def Reversed (order : Order) (db db' : Database) : Prop :=
  (db'.order? order.orderId).map (·.status) = some .refunded ∧
    db'.balance order.accountId = db.balance order.accountId - order.creditGrant

/-- The ids drawn for a ledger entry and for an audit event are new. -/
def Fresh (db : Database) (env : Env) : Prop :=
  (∀ r ∈ db.creditLedger.rows, r.entryId ≠ env.uuid 0) ∧
    ∀ r ∈ db.billingAudit.rows, r.eventId ≠ env.uuid 1

instance (db : Database) (env : Env) : Decidable (Fresh db env) :=
  inferInstanceAs (Decidable (_ ∧ _))

/-- Nothing is reversed where the order stays paid. -/
theorem not_reversed_self {order : Order} (horder : db.order? order.orderId = some order)
    (hpaid : order.status = .succeeded) : ¬ Reversed order db db := by
  rintro ⟨hstatus, -⟩
  rw [horder, Option.map_some, hpaid] at hstatus
  cases hstatus

/-- Accepting a refund of a paid order reverses it. -/
theorem reversed_of_accepted {order : Order} (hr : BillingStore.Refines db)
    (hfresh : Fresh db (w.envs 1)) (hpaid : order.status = .succeeded)
    (hrefund : w.event.status = .refunded)
    (h : BillingStore.Accepted (w.envs 1) w.event w.rawBody w.headers order db db') :
    Reversed order db db' := by
  have heffect : Payment.effect order.status w.event.status = some .refund :=
    Payment.effect_eq_refund.mpr ⟨hrefund, hpaid⟩
  have hplain : ':' ∉ w.event.provider.toList := by
    rw [w.event_eq.1]
    decide
  have hmoved := (h.inserted hr hplain hfresh.1 heffect).1 order.accountId
  rw [if_pos rfl] at hmoved
  refine ⟨?_, hmoved⟩
  rw [h.order, if_pos (BillingStore.order?_orderId h.found), hpaid, hrefund]
  rfl

/-- **When a refund takes the credits back** from an account that still has them:
exactly when it is no repeat and has the order's amount. -/
theorem reversed_iff (htakes : service.Takes lib adapter) (hr : BillingStore.Refines db)
    (hfresh : Fresh db (w.envs 1)) {order : Order}
    (horder : db.order? w.event.orderId = some order) (hpaid : order.status = .succeeded)
    (hheld : order.creditGrant ≤ db.balance order.accountId)
    (hrefund : w.event.status = .refunded) :
    Reversed order db (service.receive w db).2 ↔
      BillingStore.duplicate? w.event db = none ∧
        ∀ n ∈ w.event.amountMinor, n = order.amountMinor := by
  have hstays := not_reversed_self
    (horder.symm ▸ congrArg db.order? (BillingStore.order?_orderId horder)) hpaid
  constructor
  · intro hreversed
    cases hdup : BillingStore.duplicate? w.event db with
    | some row =>
      rw [receive_of_duplicate htakes hdup] at hreversed
      exact absurd hreversed hstays
    | none =>
      rcases receive_cases htakes hdup with ⟨e, herror⟩ | ⟨before, haccepted⟩
      · rw [herror] at hreversed
        exact absurd hreversed hstays
      · obtain rfl := Option.some.inj (horder.symm.trans haccepted.found)
        exact ⟨rfl, haccepted.amount⟩
  · rintro ⟨hnew, hamount⟩
    have hcovered : ∀ e, Payment.effect order.status w.event.status = some e →
        0 ≤ db.balance order.accountId + BillingStore.amountOf order e := by
      have hgrant := order.grant_nonneg
      have hbalance := db.balance_nonneg order.accountId
      intro e _
      cases e <;> simp only [BillingStore.amountOf] <;> omega
    obtain ⟨result, db', hok⟩ : ∃ result db',
        BillingStore.processEvent (w.envs 1) w.event w.rawBody w.headers db = .ok (result, db') :=
      BillingStore.processEvent_ok_of hnew horder hamount hcovered hfresh.2
    rcases receive_cases htakes hnew with ⟨e, herror⟩ | ⟨before, haccepted⟩
    · rw [receive_eq htakes, atomically_of_ok hok] at herror
      cases herror
    · obtain rfl := Option.some.inj (horder.symm.trans haccepted.found)
      exact reversed_of_accepted hr hfresh hpaid hrefund haccepted

/-! ### Two webhooks in one run -/

/-- Where the first webhook is on file, the second repeats nothing exactly when
the two are distinct and it repeats nothing else. -/
theorem duplicate?_eq_none_iff (hfiled : w₁.row ∈ db.providerInbox.rows) :
    BillingStore.duplicate? w₂.event db = none ↔ Distinct w₁ w₂ ∧
      ∀ row ∈ db.providerInbox.rows, row ≠ w₁.row → ¬ BillingStore.Matches row w₂.event := by
  have hrow := matches_row_iff w₁ w₂
  rw [BillingStore.duplicate?_eq_none]
  constructor
  · intro h
    have hdistinct : Distinct w₁ w₂ := by
      by_contra hn
      exact h _ hfiled (hrow.mpr hn)
    exact ⟨hdistinct, fun row hmem _ => h row hmem⟩
  · rintro ⟨hdistinct, hothers⟩ row hmem
    by_cases he : row = w₁.row
    · rw [he, hrow]
      exact not_not.mpr hdistinct
    · exact hothers row hmem he

end BillingService

/-! ### Sample deliveries -/

namespace Sample

/-- The service of an environment with Lemon Squeezy. -/
def lemonService : BillingService where
  providers := ⟨[("lemon-squeezy", LemonSqueezy.provider lib lemonAdapter
    fun _ _ _ _ => .error .typeError)], by simp [knownProviders]⟩
  activeProvider := "lemon-squeezy"
  enabled := by decide

theorem lemonService_takes : lemonService.Takes lib lemonAdapter := ⟨rfl, _, rfl⟩

theorem order_ne : "order-1" ≠ "" := by decide

/-- The event of a delivery about the sample order. -/
def lemonEvent (eventName n delivery : String) (status : Status) : NormalizedEvent where
  provider := "lemon-squeezy"
  providerEventId := "900" ++ n
  eventType := eventName
  status := status
  orderId := "order-1"
  occurredAt := delivery
  testMode := false
  idempotencyKey := "delivery-" ++ delivery
  amountMinor := none
  metadata := []
  eventId_ne := by simp [String.ext_iff]
  orderId_ne := order_ne
  key_length := by rw [String.length_append]; exact Nat.le_add_right_of_le (by decide)

/-- The payment of resource 9001. -/
def paid : LemonSqueezy.Webhook lib lemonAdapter where
  envs _ := env "1"
  rawBody := lemonBody "order_created" "9001" "paid"
  headers := lemonHeaders "order_created" "9001" "paid" "delivery-1"
  event := lemonEvent "order_created" "1" "1" .succeeded
  verified := by decide +kernel

/-- The refund of the same resource, in a delivery of its own. -/
def refunded : LemonSqueezy.Webhook lib lemonAdapter where
  envs _ := env "2"
  rawBody := lemonBody "order_refunded" "9001" "refunded"
  headers := lemonHeaders "order_refunded" "9001" "refunded" "delivery-2"
  event := lemonEvent "order_refunded" "1" "2" .refunded
  verified := by decide +kernel

/-- A refund that is a resource of its own. -/
def refundedApart : LemonSqueezy.Webhook lib lemonAdapter where
  envs _ := env "2"
  rawBody := lemonBody "order_refunded" "9002" "refunded"
  headers := lemonHeaders "order_refunded" "9002" "refunded" "delivery-2"
  event := lemonEvent "order_refunded" "2" "2" .refunded
  verified := by decide +kernel

/-- An order whose payment failed when it was created. -/
def failed : LemonSqueezy.Webhook lib lemonAdapter where
  envs _ := env "1"
  rawBody := lemonBody "order_created" "9001" "failed"
  headers := lemonHeaders "order_created" "9001" "failed" "delivery-1"
  event := lemonEvent "order_created" "1" "1" .succeeded
  verified := by decide +kernel

/-- The call that creates the sample order. -/
def orderCall : Env × LocalRuntime.Call :=
  (env "a", .billing (.createPendingOrder order "lemon-squeezy"))

/-- A failed payment grants the order's credits. -/
theorem failed_grants : ∃ db, CreditLedger.openLedger [] .empty = .ok db ∧
    Json.get (LemonSqueezy.attributesOf failed.value) "status" = .str "failed" ∧
    let db₁ := LocalRuntime.step db orderCall
    (lemonService.receive failed db₁).1
        = .ok ⟨"lemon-squeezy", "9001", true, .processed .succeeded⟩ ∧
      db₁.balance "account-1" = 0 ∧ db₁.plan "account-1" = "free" ∧
      (lemonService.receive failed db₁).2.balance "account-1" = 10 ∧
      (lemonService.receive failed db₁).2.plan "account-1" = "pro" := by
  refine ⟨_, rfl, rfl, ?_⟩
  simp only [BillingService.receive_eq lemonService_takes]
  decide +kernel

/-- A refund under a name of its own grants nothing. -/
theorem refunded_grants_nothing : refunded.event.status ≠ .succeeded ∧
    ∀ db, BillingService.GrantsNothing db (lemonService.receive refunded db).2 :=
  (BillingService.unpaid_grants_nothing_iff lemonService_takes refunded
    (s := "refunded") rfl (by decide)).mpr (by decide +kernel)

end Sample

end AiSaas
