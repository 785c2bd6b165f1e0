import AiSaas.Billing.Adapters.Toss
import AiSaas.Billing.Webhooks

/-!
# Payment confirmation

`BillingService.confirm_payment` with the Toss adapter behind it: the order is
looked up, Toss is asked about the payment, and the answer is processed like any
other event.  The inbox files a confirmation under the payment it names and the
key of the call, whatever the answer was, so the first answer is the only one
that is ever processed.

## Main definitions

* `BillingService.confirmPayment` — the operation.
* `BillingService.Confirmation`, `confirm` — a call of it, with what Toss answers.
* `BillingService.HearsDone` — Toss answers DONE to the call, for an open order.
* `BillingService.Paid` — an order is paid and has one grant.
* `BillingService.Unfiled`, `Legible` — no earlier event is taken for the
  confirmation, and its answer makes an event.

## Main results

* `BillingService.confirm_eq` — a call that hears DONE is one transaction of the store.
* `BillingService.confirm_step` — when such a call leaves its order paid.
* `BillingService.confirmations_progress_iff` — the same along every run.
-/

namespace AiSaas

open Relational Transaction

namespace BillingService

variable (service : BillingService)

/-- `confirm_payment`; `confirmer` is the attribute `confirm_payment_event` of a
provider, where it has one, and `dumps` the event as text. -/
def confirmPayment
    (confirmer : PaymentProvider →
      Option (Env → String → String → ℤ → String → Except Error NormalizedEvent))
    (dumps : NormalizedEvent → List UInt8) (envs : ℕ → Env) (orderId providerReference : String)
    (amountMinor : ℤ) (idempotencyKey : String) (db : Database) :
    Except Error ProcessingResult × Database :=
  match db.order? orderId with
  | none => (.error (.unknownOrder orderId), db)
  | some order =>
    if order.provider ≠ some service.activeProvider ∨ order.amountMinor ≠ amountMinor then
      (.error (.valueError "payment confirmation does not match the pending order"), db)
    else if order.status = .succeeded then
      -- the provider is not asked about a paid order
      (.ok ⟨service.activeProvider, "confirm-" ++ providerReference, false, .processed .succeeded⟩, db)
    else
      match service.providers.require service.activeProvider "payment.confirm" with
      | .error e => (.error e, db)
      | .ok provider =>
        match confirmer provider with
        | none => (.error (.valueError "active payment provider requires webhook completion"), db)
        | some confirm =>
          match confirm (envs 0) providerReference orderId amountMinor idempotencyKey with
          | .error e => (.error e, db)
          | .ok event => atomically (BillingStore.processEvent (envs 1) event (dumps event)
              [("x-confirmation-idempotency-key", idempotencyKey)]) db

/-! ### Calls -/

/-- A call of `confirm_payment`, with what Toss answers to the requests made in it. -/
structure Confirmation where
  envs : ℕ → Env
  orderId : String
  reference : String
  amountMinor : ℤ
  idempotencyKey : String
  requestJson : String → String → List (String × String) → Json →
    Except Error (List (String × Json))

/-- The service confirms payments with the Toss adapter. -/
structure Confirms (service : BillingService) : Prop where
  active : service.activeProvider = Toss.providerId
  adapter : ∃ provider, service.providers.providers.lookup Toss.providerId = some provider ∧
    provider.capabilities = Toss.capabilities

variable (lib : TossLib) (adapter : TossAdapter)

/-- The call, with the Toss adapter as the provider. -/
def confirm (c : Confirmation) (db : Database) : Except Error ProcessingResult × Database :=
  service.confirmPayment
    (fun _ => some (Toss.confirmPaymentEvent lib adapter c.requestJson)) lib.dumps c.envs
    c.orderId c.reference c.amountMinor c.idempotencyKey db

/-- What Toss answers to the call. -/
def answer (c : Confirmation) : Except Error (List (String × Json)) :=
  Toss.confirmation lib adapter c.requestJson c.reference c.orderId c.amountMinor c.idempotencyKey

/-- A confirmation, or any other call of the stores. -/
inductive Call where
  | confirm (c : Confirmation)
  | runtime (call : Env × LocalRuntime.Call)

/-- The database after a call. -/
def confirmStep (db : Database) : Call → Database
  | .confirm c => (service.confirm lib adapter c db).2
  | .runtime call => LocalRuntime.step db call

/-- The ids a call draws are new; an event that is handed to the store comes from a
provider without a colon in its name. -/
def Plain (db : Database) : Call → Prop
  | .confirm c => Fresh db (c.envs 1)
  | .runtime call => LocalRuntime.Plain db call

instance (db : Database) : ∀ call, Decidable (Plain db call)
  | .confirm c => inferInstanceAs (Decidable (Fresh db (c.envs 1)))
  | .runtime call => inferInstanceAs (Decidable (LocalRuntime.Plain db call))

/-! ### Hearing DONE -/

/-- Toss is asked about an order of the call's amount, and answers with the order's
id and amount and the status DONE. -/
structure HearsDone (c : Confirmation) (db : Database) (order : Order)
    (value : List (String × Json)) : Prop where
  found : db.order? c.orderId = some order
  provider : order.provider = some service.activeProvider
  amount : order.amountMinor = c.amountMinor
  unpaid : order.status ≠ .succeeded
  secret : adapter.secretKey ≠ ""
  answered : answer lib adapter c = .ok value
  matched : Toss.matchesOrder lib value c.orderId c.amountMinor = .ok true
  done : lib.upper (Toss.statusText lib value) = "DONE"

/-- No event closed the order. -/
def Open (order : Order) : Prop :=
  order.status ≠ .failed ∧ order.status ≠ .cancelled ∧ order.status ≠ .refunded

instance (order : Order) : Decidable (Open order) := inferInstanceAs (Decidable (_ ∧ _))

/-- The order is paid and the ledger has one grant of it, of its credits. -/
def Paid (db : Database) (orderId : String) : Prop :=
  ∃ order, db.order? orderId = some order ∧ order.status = .succeeded ∧
    (db.grantsOf orderId).map BillingStore.posting = [BillingStore.postingOf order .grant]

/-- No event of Toss is filed under the id or the key of the confirmation. -/
def Unfiled (c : Confirmation) (db : Database) : Prop :=
  ∀ row ∈ db.providerInbox.rows, row.provider = Toss.providerId →
    row.providerEventId ≠ Toss.eventId c.reference ∧
      row.idempotencyKey ≠ Toss.inboxKey c.reference c.idempotencyKey

instance (c : Confirmation) (db : Database) : Decidable (Unfiled c db) :=
  inferInstanceAs (Decidable (∀ row ∈ db.providerInbox.rows, _))

/-- The time of the answer can be read, and the key of the call makes a long enough
one with the provider in front. -/
def Legible (c : Confirmation) (value : List (String × Json)) : Prop :=
  (∃ time, parseTime lib.toStdlib (c.envs 0) (Toss.timeOf value) = .ok time) ∧
    8 ≤ (Toss.inboxKey c.reference c.idempotencyKey).length

/-- A confirmation that hears DONE for an open order returns and leaves it paid. -/
def Progresses (db : Database) : Call → Prop
  | .confirm c => ∀ order value, HearsDone service lib adapter c db order value → Open order →
      (service.confirm lib adapter c db).1.isOk = true ∧
        Paid (service.confirm lib adapter c db).2 c.orderId
  | .runtime _ => True

/-- A confirmation that hears DONE for an open order has a legible answer, and no
earlier event is taken for it. -/
def HeardFirst (db : Database) : Call → Prop
  | .confirm c => ∀ order value, HearsDone service lib adapter c db order value → Open order →
      Legible lib c value ∧ Unfiled c db
  | .runtime _ => True

/-- A confirmation that hears DONE for an open order leaves it paid if it returns. -/
def ProgressesOnReturn (db : Database) : Call → Prop
  | .confirm c => ∀ order value, HearsDone service lib adapter c db order value → Open order →
      (service.confirm lib adapter c db).1.isOk = true →
        Paid (service.confirm lib adapter c db).2 c.orderId
  | .runtime _ => True

/-- Where a confirmation hears DONE for an open order in a legible answer, no earlier
event is taken for it. -/
def HeardFirstIfLegible (db : Database) : Call → Prop
  | .confirm c => ∀ order value, HearsDone service lib adapter c db order value → Open order →
      Legible lib c value → Unfiled c db
  | .runtime _ => True

variable {service lib adapter} {c : Confirmation} {db db' : Database} {order : Order}
  {value : List (String × Json)} {event : NormalizedEvent}

/-! ### The transaction of a confirmation -/

/-- **What `confirm_payment` does** when it asks Toss: it raises what the adapter
raises, or it is one transaction of the store. -/
theorem confirm_eq (lib : TossLib) (adapter : TossAdapter) (hconfirms : service.Confirms)
    (hfound : db.order? c.orderId = some order)
    (hprovider : order.provider = some service.activeProvider)
    (hamount : order.amountMinor = c.amountMinor) (hunpaid : order.status ≠ .succeeded) :
    service.confirm lib adapter c db
      = match Toss.confirmPaymentEvent lib adapter c.requestJson (c.envs 0) c.reference c.orderId
          c.amountMinor c.idempotencyKey with
        | .error e => (.error e, db)
        | .ok event => atomically (BillingStore.processEvent (c.envs 1) event (lib.dumps event)
            [("x-confirmation-idempotency-key", c.idempotencyKey)]) db := by
  obtain ⟨hactive, provider, hlookup, hcapabilities⟩ := hconfirms
  have hrequire : service.providers.require service.activeProvider "payment.confirm"
      = .ok provider := by
    have hable : "payment.confirm" ∈ provider.capabilities := by
      rw [hcapabilities]
      decide
    simp [ProviderRegistry.require, hactive, hlookup, orRaise, ensure, hable, bind, Except.bind,
      pure, Except.pure]
  simp only [confirm, confirmPayment, hfound, hprovider, hamount, hunpaid, hrequire, ne_eq,
    not_true_eq_false, or_self, if_false]

/-- A confirmation changes nothing, or it hands an event of Toss to the store. -/
theorem confirm_cases (lib : TossLib) (adapter : TossAdapter) (hconfirms : service.Confirms)
    (c : Confirmation) (db : Database) :
    (service.confirm lib adapter c db).2 = db ∨ ∃ event, event.provider = Toss.providerId ∧
      (service.confirm lib adapter c db).2 = LocalRuntime.step db (c.envs 1,
        .billing (.processEvent event (lib.dumps event)
          [("x-confirmation-idempotency-key", c.idempotencyKey)])) := by
  cases hfound : db.order? c.orderId with
  | none => exact Or.inl (by simp [confirm, confirmPayment, hfound])
  | some order =>
    by_cases hmatch : order.provider = some service.activeProvider ∧
        order.amountMinor = c.amountMinor
    · by_cases hunpaid : order.status = .succeeded
      · exact Or.inl (by simp [confirm, confirmPayment, hfound, hmatch, hunpaid])
      · rw [confirm_eq lib adapter hconfirms hfound hmatch.1 hmatch.2 hunpaid]
        cases hevent : Toss.confirmPaymentEvent lib adapter c.requestJson (c.envs 0) c.reference
            c.orderId c.amountMinor c.idempotencyKey with
        | error e => exact Or.inl rfl
        | ok event =>
          obtain ⟨_, _, hprovider, _⟩ := Toss.confirmPaymentEvent_eq_ok hevent
          exact Or.inr ⟨event, hprovider,
            (snd_atomically_map BillingStore.Answer.processed _ db).symm⟩
    · rw [not_and_or] at hmatch
      exact Or.inl (by simp [confirm, confirmPayment, hfound, hmatch])

/-- **The refinement is kept** by confirmations as by every other call. -/
theorem refines_confirmStep (lib : TossLib) (adapter : TossAdapter)
    (hconfirms : service.Confirms) (db : Database) (call : Call) (hplain : Plain db call) (hr : BillingStore.Refines db) :
    BillingStore.Refines (service.confirmStep lib adapter db call) := by
  cases call with
  | runtime call => exact LocalRuntime.refines_step db call hplain hr
  | confirm c =>
    rcases confirm_cases lib adapter hconfirms c db with
      hsame | ⟨event, hprovider, hstep⟩
    · rwa [confirmStep, hsame]
    · rw [confirmStep, hstep]
      refine LocalRuntime.refines_step db _ ⟨?_, hplain.1⟩ hr
      rw [hprovider]
      decide

/-! ### A confirmation that hears DONE -/

/-- DONE is a success. -/
theorem status_done {text : String} (h : lib.upper text = "DONE") :
    Toss.status lib text = .succeeded := by
  simp [Toss.status, h]

/-- The event a confirmation hands to the store is filed already exactly when an
event is filed under its id or its key. -/
theorem duplicate?_eq_none_iff_unfiled (hprovider : event.provider = Toss.providerId)
    (hid : event.providerEventId = Toss.eventId c.reference)
    (hkey : event.idempotencyKey = Toss.inboxKey c.reference c.idempotencyKey) :
    BillingStore.duplicate? event db = none ↔ Unfiled c db := by
  simp only [BillingStore.duplicate?_eq_none, BillingStore.Matches, Unfiled, hprovider, hid, hkey,
    not_and, not_or, ne_eq]

/-- The order of a call that hears DONE has a name. -/
theorem HearsDone.orderId_ne (h : HearsDone service lib adapter c db order value) :
    c.orderId ≠ "" := by
  have hname := order.nonblank order.orderId (by simp)
  rw [BillingStore.order?_orderId h.found] at hname
  rintro hempty
  rw [hempty] at hname
  exact absurd hname (by decide)

/-- An open order that is not paid takes a success. -/
theorem effect_of_open (hopen : Open order) (hunpaid : order.status ≠ .succeeded) :
    Payment.effect order.status .succeeded = some .grant := by
  obtain ⟨hfailed, hcancelled, hrefunded⟩ := hopen
  cases hs : order.status <;> simp_all [Payment.effect]

/-- An order whose success was accepted is paid. -/
theorem paid_of_accepted {env : Env} {rawBody : List UInt8} {headers : List (String × String)}
    (h : BillingStore.Accepted env event rawBody headers order db db')
    (hr : BillingStore.Refines db') (hstatus : event.status = .succeeded)
    (heffect : Payment.effect order.status .succeeded = some .grant) :
    Paid db' event.orderId := by
  have hnext : Payment.next order.status .succeeded = .succeeded := by
    cases hs : order.status <;> simp_all [Payment.effect, Payment.next]
  have hafter := h.order event.orderId
  rw [if_pos rfl, hstatus, hnext] at hafter
  refine ⟨_, hafter, rfl, ?_⟩
  rcases hr.grants_refunds_cases hafter with ⟨-, -, hs⟩ | ⟨g, hg, -, hposting, -⟩ |
      ⟨g, r, -, -, -, -, -, hs⟩
  · exact absurd rfl hs
  · rw [hg, List.map_singleton, hposting]
  · cases hs

/-- **A confirmation that hears DONE** for an open order returns exactly when its
answer is legible; and then it leaves the order paid exactly when no earlier event
is taken for it. -/
theorem confirm_step (hconfirms : service.Confirms) (hr : BillingStore.Refines db)
    (hfresh : Fresh db (c.envs 1)) (h : HearsDone service lib adapter c db order value)
    (hopen : Open order) :
    ((service.confirm lib adapter c db).1.isOk = true ↔ Legible lib c value) ∧
      (Legible lib c value →
        (Paid (service.confirm lib adapter c db).2 c.orderId ↔ Unfiled c db)) := by
  have hcall := confirm_eq lib adapter hconfirms h.found h.provider h.amount h.unpaid
  have hmade : (∃ event, Toss.confirmPaymentEvent lib adapter c.requestJson (c.envs 0) c.reference
      c.orderId c.amountMinor c.idempotencyKey = .ok event) ↔ Legible lib c value :=
    Toss.confirmPaymentEvent_isOk_iff h.secret h.answered h.matched h.orderId_ne
  cases hevent : Toss.confirmPaymentEvent lib adapter c.requestJson (c.envs 0) c.reference
      c.orderId c.amountMinor c.idempotencyKey with
  | error e =>
    -- the adapter raises, so the answer is not legible
    have hillegible : ¬ Legible lib c value := by
      intro hlegible
      obtain ⟨event, hok⟩ := hmade.mpr hlegible
      rw [hevent] at hok
      cases hok
    rw [hcall, hevent]
    exact ⟨⟨fun hok => (nomatch hok), fun hl => absurd hl hillegible⟩,
      fun hl => absurd hl hillegible⟩
  | ok event =>
    have hlegible : Legible lib c value := hmade.mp ⟨event, hevent⟩
    obtain ⟨value', hvalue', hprovider, hid, hstatus, horder, hamount, hkey⟩ :=
      Toss.confirmPaymentEvent_eq_ok hevent
    obtain rfl : value = value' := Except.ok.inj (h.answered.symm.trans hvalue')
    have hstatus : event.status = .succeeded := hstatus.trans (status_done h.done)
    have hunfiled : BillingStore.duplicate? event db = none ↔ Unfiled c db :=
      duplicate?_eq_none_iff_unfiled hprovider hid hkey
    have hfound : db.order? event.orderId = some order := by rw [horder]; exact h.found
    have heffect := effect_of_open hopen h.unpaid
    rw [hcall, hevent]
    simp only
    cases hdup : BillingStore.duplicate? event db with
    | some row =>
      -- an earlier event is taken for the confirmation, and the order stays as it is
      have hbody : BillingStore.processEvent (c.envs 1) event (lib.dumps event)
          [("x-confirmation-idempotency-key", c.idempotencyKey)] db
            = .ok (⟨event.provider, event.providerEventId, false, row.status⟩, db) := by
        simp [BillingStore.processEvent, hdup, pure, Except.pure]
      rw [atomically_of_ok hbody]
      refine ⟨⟨fun _ => hlegible, fun _ => rfl⟩, fun _ => ⟨?_, ?_⟩⟩
      · rintro ⟨after, hafter, hpaid, -⟩
        obtain rfl := Option.some.inj (h.found.symm.trans hafter)
        exact absurd hpaid h.unpaid
      · intro hnone
        rw [hunfiled.mpr hnone] at hdup
        cases hdup
    | none =>
      have hcovered : ∀ e, Payment.effect order.status event.status = some e →
          0 ≤ db.balance order.accountId + BillingStore.amountOf order e := by
        have hgrant := order.grant_nonneg
        have hbalance := db.balance_nonneg order.accountId
        intro e he
        rw [hstatus, heffect] at he
        obtain rfl := Option.some.inj he
        simp only [BillingStore.amountOf]
        omega
      have hamounts : ∀ n ∈ event.amountMinor, n = order.amountMinor := by
        rw [hamount, h.amount]
        intro n hn
        exact (Option.mem_some_iff.mp hn).symm
      obtain ⟨result, db', hbody⟩ : ∃ result db',
          BillingStore.processEvent (c.envs 1) event (lib.dumps event)
            [("x-confirmation-idempotency-key", c.idempotencyKey)] db = .ok (result, db') :=
        BillingStore.processEvent_ok_of hdup hfound hamounts hcovered hfresh.2
      rw [atomically_of_ok hbody]
      refine ⟨⟨fun _ => hlegible, fun _ => rfl⟩, fun _ =>
        ⟨fun _ => hunfiled.mp hdup, fun _ => ?_⟩⟩
      rcases BillingStore.processEvent_eq_ok hbody with ⟨row, hrow, -⟩ | ⟨before, haccepted, -⟩
      · rw [hdup] at hrow
        cases hrow
      · obtain rfl := Option.some.inj (hfound.symm.trans haccepted.found)
        have hplain : ':' ∉ event.provider.toList := by rw [hprovider]; decide
        rw [← horder]
        exact paid_of_accepted haccepted (haccepted.refines hr hplain hfresh.1) hstatus heffect

/-- **When confirmations make progress.**  In every run of confirmations and other
calls of the stores, each confirmation that hears DONE for an open order returns and
leaves it paid exactly when each has a legible answer and finds no event filed under
its id or its key; and each leaves it paid if it returns exactly when each with a
legible answer finds none. -/
theorem confirmations_progress_iff (lib : TossLib) (adapter : TossAdapter)
    (hconfirms : service.Confirms) {balances : List (String × ℤ)} {opened : Database}
    (hopen : CreditLedger.openLedger balances .empty = .ok opened)
    {calls : List Call}
    (hplain : Runs.Along (service.confirmStep lib adapter) Plain opened calls) :
    (Runs.Along (service.confirmStep lib adapter) (service.Progresses lib adapter) opened calls ↔
        Runs.Along (service.confirmStep lib adapter) (service.HeardFirst lib adapter) opened
          calls) ∧
      (Runs.Along (service.confirmStep lib adapter) (service.ProgressesOnReturn lib adapter) opened
          calls ↔
        Runs.Along (service.confirmStep lib adapter) (service.HeardFirstIfLegible lib adapter)
          opened calls) := by
  obtain ⟨creditAccounts, rfl⟩ := CreditLedger.openLedger_eq_ok hopen
  have hstart : BillingStore.Refines { Database.empty with creditAccounts } := .empty_of rfl rfl rfl
  have hkept := refines_confirmStep lib adapter hconfirms
  constructor
  · refine hplain.congr_invariant hstart hkept ?_
    rintro db (c | call) hr hfresh
    · refine forall₄_congr fun order value h ho => ?_
      obtain ⟨hreturns, hpaid⟩ := confirm_step hconfirms hr hfresh h ho
      rw [hreturns]
      exact and_congr_right hpaid
    · rfl
  · refine hplain.congr_invariant hstart hkept ?_
    rintro db (c | call) hr hfresh
    · refine forall₄_congr fun order value h ho => ?_
      obtain ⟨hreturns, hpaid⟩ := confirm_step hconfirms hr hfresh h ho
      rw [hreturns]
      exact forall_congr' hpaid
    · rfl

end BillingService

/-! ### An answer that comes later -/

namespace Sample

/-- The standard library of the sample confirmations. -/
def tossLib : TossLib where
  toStdlib := lib
  b64encode _ := ""
  truncate _ := .error .typeError
  dumps _ := []

/-- An adapter with a secret key. -/
def tossAdapter : TossAdapter where
  secretKey := "test_sk"
  baseUrl := "https://api.tosspayments.com"
  testMode := true

/-- The service of an environment with Toss. -/
def tossService : BillingService where
  providers := ⟨[("toss", ⟨Toss.capabilities, fun _ _ => .error .typeError,
    fun _ _ _ => .error .typeError⟩)], by simp [knownProviders]⟩
  activeProvider := "toss"
  enabled := by decide

theorem tossService_confirms : tossService.Confirms := ⟨rfl, _, rfl, rfl⟩

/-- A confirmation of the sample order that Toss answers with a status. -/
def tossCall (tag status : String) : BillingService.Confirmation where
  envs _ := env tag
  orderId := "order-1"
  reference := "pay-1"
  amountMinor := 1200
  idempotencyKey := "toss-confirm-pay-1"
  requestJson _ _ _ _ := .ok [("orderId", .str "order-1"), ("totalAmount", .int 1200),
    ("status", .str status)]

/-- The sample order, and then the confirmations with these answers. -/
def tossCalls (answers : List (String × String)) : List BillingService.Call :=
  .runtime (env "o", .billing (.createPendingOrder order "toss")) ::
    answers.map fun a => .confirm (tossCall a.1 a.2)

/-- A payment that is DONE at once. -/
theorem confirmed_at_once : ∃ db, CreditLedger.openLedger [] .empty = .ok db ∧
    Runs.Along (tossService.confirmStep tossLib tossAdapter)
      (tossService.Progresses tossLib tossAdapter) db (tossCalls [("a", "DONE")]) := by
  have hopen : CreditLedger.openLedger [] .empty = .ok _ := rfl
  have hplain : Runs.Along (tossService.confirmStep tossLib tossAdapter) BillingService.Plain .empty
      (tossCalls [("a", "DONE")]) := by decide
  have hprogress := BillingService.confirmations_progress_iff tossLib tossAdapter
    tossService_confirms hopen hplain
  refine ⟨_, hopen, hprogress.1.mpr ⟨trivial, ?_, trivial⟩⟩
  rintro order value h -
  obtain rfl := Except.ok.inj h.answered
  exact ⟨⟨⟨_, rfl⟩, by decide⟩, by decide⟩

/-- A payment that is READY at first and DONE later stays pending: the later answer
is taken for a repeat of the first, and no credits are granted. -/
theorem done_swallowed : ∃ db, CreditLedger.openLedger [] .empty = .ok db ∧
    Runs.Along (tossService.confirmStep tossLib tossAdapter) BillingService.Plain db
      (tossCalls [("a", "READY"), ("b", "DONE")]) ∧
    let db₁ := Runs.final (tossService.confirmStep tossLib tossAdapter) db
      (tossCalls [("a", "READY")])
    (∃ order value, BillingService.HearsDone tossService tossLib tossAdapter (tossCall "b" "DONE")
      db₁ order value ∧ BillingService.Open order) ∧
    (tossService.confirm tossLib tossAdapter (tossCall "b" "DONE") db₁).1
      = .ok ⟨"toss", "confirm-pay-1", false, .processed .pending⟩ ∧
    let db₂ := (tossService.confirm tossLib tossAdapter (tossCall "b" "DONE") db₁).2
    (db₂.order? "order-1").map (·.status) = some .pending ∧ db₂.grantsOf "order-1" = [] ∧
      db₂.balance "account-1" = 0 := by
  refine ⟨_, rfl, by decide, ⟨_, _, ⟨rfl, ?_, ?_, ?_, ?_, rfl, ?_, ?_⟩, ?_⟩, ?_, ?_, ?_, ?_⟩
  all_goals decide

end Sample

end AiSaas
