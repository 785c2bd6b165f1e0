import AiSaas.Pricing.Settlement

/-!
# What settlements have done

What a call has done whenever it charges an order or stores one: it has read the order as
pending, the provider has confirmed a payment of this order and amount, and a subscription
is recorded before its order is settled.

## Main definitions

* `Taken`, `Confirmed`, `Recorded` — the order was read, paid, its subscription stored.
* `Does` — what a call has done before each statement and each request.

## Main results

* `approveTossBilling_trail`, `confirmTossPayment_trail` — a payment that is accepted was made.
* `call_trail` — every call does what it should.
-/

namespace AiSaas
namespace Pricing
namespace Settlement

open Relational Transaction Processes Catalog

abbrev SettlementEntry := Entry SettlementOp SettlementOp.Ans String

abbrev SettlementPast := List SettlementEntry

variable (js : Runtime)

/-- A payload is for an order of an amount, and done. -/
structure Accepts (payload : JsonText.Value) (orderId : String) (amount : ℤ) : Prop where
  orderId : js.text payload "orderId" "" = .ok orderId
  amount : js.amount payload "totalAmount" = .ok (some amount)
  done : js.text payload "status" "" = .ok "DONE"

/-- The order and the amount that the body of a request charges. -/
def charge : JsonText.Value → Option (String × ℤ)
  | .obj members =>
    match members.lookup "orderId", members.lookup "amount" with
    | some (.str orderId), some (.int amount) => some (orderId, amount)
    | _, _ => none
  | _ => none

/-- The path that a one-time payment is confirmed on, and that of a billing key. -/
def confirmPath : String := "/v1/payments/confirm"

def billingPath (billingKey : String) : String := "/v1/billing/" ++ js.encodeURIComponent billingKey

/-- The provider was asked on a path to charge an order an amount, and says that it has. -/
def Confirmed (past : SettlementPast) (path orderId : String) (amount : ℤ) : Prop :=
  ∃ base auth key body payload,
    (⟨.request (base ++ path) auth key body, .ok (true, payload)⟩ : SettlementEntry) ∈ past ∧
      charge body = some (orderId, amount) ∧ Accepts js payload orderId amount

/-- A callback has read the order of its request. -/
inductive Found (call : Call) (past : SettlementPast) (order : PaymentOrder) : Prop
  | oneTime {env : TossEnv} {paymentKey orderId : String}
      (call_eq : call = .oneTime env paymentKey orderId order.amountMinor)
      (mode : order.mode = .oneTime)
      (read : (⟨.findOrder orderId, .ok (some order)⟩ : SettlementEntry) ∈ past)
  | subscription {env : TossEnv} {customerKey authKey : String}
      (call_eq : call = .subscription env customerKey authKey) (mode : order.mode = .subscription)
      (read : (⟨.findOrderByCustomerKey customerKey, .ok (some order)⟩ : SettlementEntry) ∈ past)

/-- The order of a callback, which waits for its payment. -/
structure Taken (call : Call) (past : SettlementPast) (order : PaymentOrder) : Prop where
  found : Found call past order
  provider : order.provider = .toss
  pending : order.status = .pending

/-- A subscription was recorded for an order, with a billing key. -/
def Recorded (past : SettlementPast) (order : PaymentOrder) (billingKey : String) : Prop :=
  ∃ customerKey start finish,
    (⟨.insertSubscription (subscriptionOf order customerKey billingKey start finish), .ok ()⟩ :
      SettlementEntry) ∈ past ∨
    (⟨.updateSubscription (subscriptionOf order customerKey billingKey start finish), .ok ()⟩ :
      SettlementEntry) ∈ past

/-- What has been done before the order of a callback is updated: it is settled once it is paid,
and a subscription's once it is recorded. -/
inductive Updates (past : SettlementPast) (order : PaymentOrder) : OrderPatch → Prop
  | oneTime (mode : order.mode = .oneTime)
      (confirmed : Confirmed js past confirmPath order.id order.amountMinor) (ref : Option String) :
      Updates past order ⟨some .succeeded, some ref, none⟩
  | billingKey (mode : order.mode = .subscription) (metadata : Metadata) :
      Updates past order ⟨none, none, some metadata⟩
  | subscription {billingKey : String} (mode : order.mode = .subscription)
      (confirmed : Confirmed js past (billingPath js billingKey) order.id order.amountMinor)
      (recorded : Recorded past order billingKey) (ref : Option String) (metadata : Metadata) :
      Updates past order ⟨some .succeeded, some ref, some metadata⟩

/-- What a call has done before it stores a subscription. -/
def Records (call : Call) (past : SettlementPast) (values : SubscriptionRecord) : Prop :=
  ∃ order customerKey billingKey start finish, Taken call past order ∧ order.mode = .subscription ∧
    Confirmed js past (billingPath js billingKey) order.id order.amountMinor ∧
    values = subscriptionOf order customerKey billingKey start finish

/-- What a call has done before a statement or a request. -/
def Does (call : Call) (past : SettlementPast) : SettlementOp → Prop
  | .insertOrder row => ∃ input : NewOrder, row = input.row
  | .updateOrder orderId patch => ∃ order, orderId = order.id ∧ Taken call past order ∧
      Updates js past order patch
  | .insertSubscription values => Records js call past values
  | .updateSubscription values => Records js call past values ∧
      (⟨.findSubscription values.id, .ok true⟩ : SettlementEntry) ∈ past
  | .request _ _ key body => ∀ c, charge body = some c → ∃ order, Taken call past order ∧
      c = (order.id, order.amountMinor) ∧ key = (some order.idempotencyKey).filter (· ≠ "")
  | _ => True

variable {js} {call : Call} {past past' : SettlementPast} {order : PaymentOrder}

/-! ### More of a past -/

theorem Taken.mono (h : Taken call past order) (hsub : past ⊆ past') : Taken call past' order := by
  obtain ⟨hfound, hprovider, hpending⟩ := h
  cases hfound with
  | oneTime call_eq mode read => exact ⟨.oneTime call_eq mode (hsub read), hprovider, hpending⟩
  | subscription call_eq mode read =>
    exact ⟨.subscription call_eq mode (hsub read), hprovider, hpending⟩

theorem Confirmed.mono {path orderId : String} {amount : ℤ} (h : Confirmed js past path orderId amount)
    (hsub : past ⊆ past') : Confirmed js past' path orderId amount := by
  obtain ⟨base, auth, key, body, payload, hmem, hrest⟩ := h
  exact ⟨base, auth, key, body, payload, hsub hmem, hrest⟩

/-! ### Rules -/

section Rules

variable {α β : Type} {Q : SettlementPast → Except String β → Prop}

/-- More has been done, and there is a fact about it where a value is returned. -/
def Leaves (past : SettlementPast) (F : SettlementPast → α → Prop) (past' : SettlementPast)
    (r : Except String α) : Prop := past ⊆ past' ∧ ∀ a, r = .ok a → F past' a

theorem leaves_error {F : SettlementPast → α → Prop} {e : String} (h : past ⊆ past') :
    Leaves past F past' (.error e) := ⟨h, fun _ ha => by cases ha⟩

theorem leaves_ok {F : SettlementPast → α → Prop} {a : α} (h : past ⊆ past') (hF : F past' a) :
    Leaves past F past' (.ok a) := by
  refine ⟨h, ?_⟩
  intro b hb
  obtain rfl := Except.ok.inj hb
  exact hF

/-- One operation, then the rest. -/
theorem trail_op_bind {op : SettlementOp} {next : op.Ans → Flow β} (hop : Does js call past op)
    (hnext : ∀ a, (next a).Trail (Does js call) Q (⟨op, .ok a⟩ :: past))
    (herror : ∀ past' e, past ⊆ past' → Q past' (.error e)) :
    (perform op >>= next).Trail (Does js call) Q past := by
  refine ⟨hop, ?_⟩
  intro r
  cases r with
  | ok a => exact hnext a
  | error e => exact herror _ e (List.subset_cons_self _ _)

/-- A refusal, then the rest. -/
theorem trail_refuse_bind {c : Bool} {message : String} {next : Unit → Flow β}
    (hnext : c = false → (next ()).Trail (Does js call) Q past)
    (herror : ∀ e, Q past (.error e)) :
    (refuse c message >>= next).Trail (Does js call) Q past := by
  unfold refuse
  cases c with
  | true => exact herror _
  | false => exact hnext rfl

/-- A computation, then the rest. -/
theorem trail_value_bind {x : Except String α} {next : α → Flow β}
    (hnext : ∀ a, x = .ok a → (next a).Trail (Does js call) Q past) (herror : ∀ e, Q past (.error e)) :
    (ofExcept x >>= next).Trail (Does js call) Q past := by
  cases x with
  | ok a => exact hnext a rfl
  | error e => exact herror e

/-- What leaves a fact, then the rest. -/
theorem trail_leaves_bind {p : Flow α} {next : α → Flow β} {F : SettlementPast → α → Prop}
    (h : p.Trail (Does js call) (Leaves past F) past)
    (hnext : ∀ past' a, past ⊆ past' → F past' a → (next a).Trail (Does js call) Q past')
    (herror : ∀ past' e, past ⊆ past' → Q past' (.error e)) :
    (p >>= next).Trail (Does js call) Q past :=
  h.bind (fun past' a hleaves => hnext past' a hleaves.1 (hleaves.2 a rfl))
    fun past' e hleaves => herror past' e hleaves.1

end Rules

/-! ### The provider -/

section Provider

variable {env : TossEnv} {path : String} {body : JsonText.Value} {key : Option String}

@[simp] theorem charge_issue (authKey customerKey : String) :
    charge (.obj [("authKey", .str authKey), ("customerKey", .str customerKey)]) = none := rfl

@[simp] theorem charge_confirm (paymentKey orderId : String) (amount : ℤ) :
    charge (.obj [("paymentKey", .str paymentKey), ("orderId", .str orderId), ("amount", .int amount)])
      = some (orderId, amount) := rfl

@[simp] theorem charge_approve (customerKey orderId orderName : String) (amount : ℤ) :
    charge (.obj [("customerKey", .str customerKey), ("orderId", .str orderId),
      ("orderName", .str orderName), ("amount", .int amount)]) = some (orderId, amount) := rfl

/-- A payload that is returned was in a response that was ok. -/
theorem tossRequest_trail
    (hbody : ∀ past', past ⊆ past' → ∀ c, charge body = some c → ∃ order, Taken call past' order ∧
      c = (order.id, order.amountMinor) ∧ key.filter (· ≠ "") = (some order.idempotencyKey).filter (· ≠ "")) :
    (tossRequest env path body key).Trail (Does js call)
      (Leaves past fun past' payload => ∃ base auth key,
        (⟨.request (base ++ path) auth key body, .ok (true, payload)⟩ : SettlementEntry) ∈ past') past := by
  unfold tossRequest
  refine trail_value_bind (fun secretKey _ => ?_) fun _ => leaves_error (List.Subset.refl _)
  refine trail_op_bind (hbody past (List.Subset.refl _)) (fun response => ?_) fun _ _ h => leaves_error h
  obtain ⟨ok, payload⟩ := response
  cases ok with
  | true => exact leaves_ok (List.subset_cons_self _ _) ⟨_, _, _, List.mem_cons_self⟩
  | false =>
    refine trail_value_bind (fun code _ => ?_) fun _ => leaves_error (List.subset_cons_self _ _)
    exact leaves_error (List.subset_cons_self _ _)

/-- A new billing key is not empty. -/
theorem issueTossBillingKey_trail {authKey customerKey : String} :
    (issueTossBillingKey js env authKey customerKey).Trail (Does js call)
      (Leaves past fun _ _ => True) past := by
  unfold issueTossBillingKey
  refine trail_refuse_bind (fun _ => ?_) fun _ => leaves_error (List.Subset.refl _)
  refine trail_leaves_bind (tossRequest_trail ?_) (fun past₁ payload hsub _ => ?_)
    fun _ _ h => leaves_error h
  · -- a new billing key charges nothing
    intro past' _ c hc
    simp at hc
  · refine trail_value_bind (fun returned _ => ?_) fun _ => leaves_error hsub
    refine trail_value_bind (fun billingKey _ => ?_) fun _ => leaves_error hsub
    refine trail_refuse_bind (fun _ => ?_) fun _ => leaves_error hsub
    exact leaves_ok hsub trivial

theorem accepts_of_ok {payload : JsonText.Value} {orderId mismatch incomplete : String} {amount : ℤ}
    (h : accepts js payload orderId amount mismatch incomplete = .ok ()) :
    Accepts js payload orderId amount := by
  simp only [accepts, bind_eq_ok, ensure_eq_ok, Bool.not_eq_true', Bool.or_eq_false_iff, bne_eq_false_iff_eq,
    beq_iff_eq] at h
  obtain ⟨returned, hreturned, total, htotal, ⟨⟩, ⟨rfl, rfl⟩, status, hstatus, rfl⟩ := h
  exact ⟨hreturned, htotal, hstatus⟩

/-- **A payment that is confirmed was made.** -/
theorem confirmTossPayment_trail {paymentKey : String} (htaken : Taken call past order) :
    (confirmTossPayment js env paymentKey order.id order.amountMinor order.idempotencyKey).Trail
      (Does js call)
      (Leaves past fun past' _ => Confirmed js past' confirmPath order.id order.amountMinor) past := by
  unfold confirmTossPayment
  refine trail_refuse_bind (fun _ => ?_) fun _ => leaves_error (List.Subset.refl _)
  refine trail_leaves_bind (tossRequest_trail ?_) (fun past₁ payload hsub h => ?_)
    fun _ _ h => leaves_error h
  · intro past' hsub c hc
    obtain rfl : (order.id, order.amountMinor) = c := by simpa using hc
    exact ⟨order, htaken.mono hsub, rfl, rfl⟩
  · obtain ⟨base, auth, key, hmem⟩ := h
    refine trail_value_bind (fun u haccepts => ?_) fun _ => leaves_error hsub
    exact leaves_ok hsub ⟨base, auth, key, _, payload, hmem, charge_confirm .., accepts_of_ok haccepts⟩

/-- **A billing that is approved was made.** -/
theorem approveTossBilling_trail {billingKey customerKey orderName : String}
    (htaken : Taken call past order) :
    (approveTossBilling js env billingKey customerKey order.id orderName order.amountMinor
      order.idempotencyKey).Trail (Does js call)
      (Leaves past fun past' _ =>
        Confirmed js past' (billingPath js billingKey) order.id order.amountMinor) past := by
  unfold approveTossBilling
  refine trail_refuse_bind (fun _ => ?_) fun _ => leaves_error (List.Subset.refl _)
  refine trail_leaves_bind (tossRequest_trail ?_) (fun past₁ payload hsub h => ?_)
    fun _ _ h => leaves_error h
  · intro past' hsub c hc
    obtain rfl : (order.id, order.amountMinor) = c := by simpa using hc
    exact ⟨order, htaken.mono hsub, rfl, rfl⟩
  · obtain ⟨base, auth, key, hmem⟩ := h
    refine trail_value_bind (fun u haccepts => ?_) fun _ => leaves_error hsub
    exact leaves_ok hsub ⟨base, auth, key, _, payload, hmem, charge_approve .., accepts_of_ok haccepts⟩

end Provider

/-! ### The repository -/

section Repository

variable {Q : SettlementPast → Except String PaymentOrder → Prop}

theorem updatePaymentOrder_trail {patch : OrderPatch} (htaken : Taken call past order)
    (h : Updates js past order patch) :
    (updatePaymentOrder order.id patch).Trail (Does js call) (Leaves past fun _ _ => True) past := by
  unfold updatePaymentOrder
  refine trail_op_bind ⟨order, rfl, htaken, h⟩ (fun u => ?_) fun _ _ h => leaves_error h
  refine ⟨trivial, ?_⟩
  intro r
  exact ⟨fun e he => List.mem_cons_of_mem _ (List.mem_cons_of_mem _ he), fun _ _ => trivial⟩

/-- **A subscription is recorded** for an order that was paid. -/
theorem recordTossSubscription_trail {customerKey billingKey : String} {patch : OrderPatch}
    (htaken : Taken call past order) (hmode : order.mode = .subscription)
    (hconfirmed : Confirmed js past (billingPath js billingKey) order.id order.amountMinor) :
    (recordTossSubscription js (patch.apply order) customerKey billingKey).Trail (Does js call)
      (Leaves past fun past' _ => Recorded past' order billingKey) past := by
  have hrecords : ∀ past' start finish, past ⊆ past' →
      Records js call past' (subscriptionOf order customerKey billingKey start finish) :=
    fun past' start finish hsub => ⟨order, customerKey, billingKey, start, finish, htaken.mono hsub,
      hmode, hconfirmed.mono hsub, rfl⟩
  unfold recordTossSubscription
  refine trail_op_bind trivial (fun now => ?_) fun _ _ h => leaves_error h
  refine trail_op_bind trivial (fun start => ?_) fun _ _ h => leaves_error fun e he => h (List.mem_cons_of_mem _ he)
  refine trail_op_bind trivial (fun existing => ?_)
    fun _ _ h => leaves_error fun e he => h (List.mem_cons_of_mem _ (List.mem_cons_of_mem _ he))
  have hsub : ∀ e ∈ past, ∀ e₁ e₂ e₃ : SettlementEntry, e ∈ e₁ :: e₂ :: e₃ :: past :=
    fun e he e₁ e₂ e₃ => List.mem_cons_of_mem _ (List.mem_cons_of_mem _ (List.mem_cons_of_mem _ he))
  cases existing with
  | true =>
    -- the row is there, and its values are written over
    refine ⟨⟨hrecords _ _ _ fun e he => hsub e he _ _ _, List.mem_cons_self⟩, ?_⟩
    intro r
    refine ⟨fun e he => List.mem_cons_of_mem _ (hsub e he _ _ _), ?_⟩
    rintro u rfl
    exact ⟨customerKey, _, _, Or.inr List.mem_cons_self⟩
  | false =>
    refine ⟨hrecords _ _ _ fun e he => hsub e he _ _ _, ?_⟩
    intro r
    refine ⟨fun e he => List.mem_cons_of_mem _ (hsub e he _ _ _), ?_⟩
    rintro u rfl
    exact ⟨customerKey, _, _, Or.inl List.mem_cons_self⟩

end Repository

/-! ### The settlements -/

section Settlements

variable {env : TossEnv}

/-- An order that goes on is of the provider and the mode. -/
theorem requireTossOrder_trail {found : Option PaymentOrder} {mode : BillingMode} :
    (requireTossOrder found mode).Trail (Does js call)
      (Leaves past fun _ order => found = some order ∧ order.provider = .toss ∧ order.mode = mode) past := by
  unfold requireTossOrder
  cases found with
  | none => exact leaves_error (List.Subset.refl _)
  | some order =>
    refine trail_refuse_bind (fun hmine => ?_) fun _ => leaves_error (List.Subset.refl _)
    refine trail_refuse_bind (fun _ => ?_) fun _ => leaves_error (List.Subset.refl _)
    rw [Bool.or_eq_false_iff, decide_eq_false_iff_not, decide_eq_false_iff_not, not_not, not_not] at hmine
    exact leaves_ok (List.Subset.refl _) ⟨rfl, hmine.1, hmine.2⟩

/-- What an update is answered, and then the order or an error. -/
theorem updated_trail {message : String} {patch : OrderPatch} (htaken : Taken call past order)
    (h : Updates js past order patch) :
    (do
      let updated ← updatePaymentOrder order.id patch
      match updated with
      | some updated => return updated
      | none => Prog.raise message : Flow PaymentOrder).Trail (Does js call) (fun _ _ => True) past := by
  refine trail_leaves_bind (updatePaymentOrder_trail htaken h) (fun past₁ updated _ _ => ?_) fun _ _ _ => trivial
  cases updated with
  | none => exact trivial
  | some updated => exact trivial

theorem settleOneTime_trail {paymentKey orderId : String} {amount : ℤ}
    (hcall : call = .oneTime env paymentKey orderId amount) (hprovider : order.provider = .toss)
    (hmode : order.mode = .oneTime)
    (hread : (⟨.findOrder orderId, .ok (some order)⟩ : SettlementEntry) ∈ past) :
    (settleOneTime js env order paymentKey amount).Trail (Does js call) (fun _ _ => True) past := by
  unfold settleOneTime
  refine trail_refuse_bind (fun hpending => ?_) fun _ => trivial
  refine trail_refuse_bind (fun hamount => ?_) fun _ => trivial
  rw [decide_eq_false_iff_not, not_not] at hpending hamount
  have htaken : Taken call past order :=
    ⟨.oneTime (hcall.trans (by rw [hamount])) hmode hread, hprovider, hpending⟩
  refine trail_leaves_bind (confirmTossPayment_trail htaken) (fun past₁ payload hsub hconfirmed => ?_)
    fun _ _ _ => trivial
  refine trail_value_bind (fun paid _ => ?_) fun _ => trivial
  exact updated_trail (htaken.mono hsub) (.oneTime hmode hconfirmed _)

theorem settleTossOneTimePayment_trail {paymentKey orderId : String} {amount : ℤ}
    (hcall : call = .oneTime env paymentKey orderId amount) :
    (settleTossOneTimePayment js env paymentKey orderId amount).Trail (Does js call)
      (fun _ _ => True) past := by
  unfold settleTossOneTimePayment
  refine trail_op_bind trivial (fun found => ?_) fun _ _ _ => trivial
  refine trail_leaves_bind requireTossOrder_trail (fun past₁ order hsub hrequired => ?_) fun _ _ _ => trivial
  obtain ⟨rfl, hprovider, hmode⟩ := hrequired
  refine Prog.Trail.ite (fun _ => trivial) fun _ => ?_
  exact settleOneTime_trail hcall hprovider hmode (hsub List.mem_cons_self)

/-- **A new billing key is stored** with its order. -/
theorem billingKeyFor_trail {customerKey authKey : String} (htaken : Taken call past order)
    (hmode : order.mode = .subscription) :
    (billingKeyFor js env order customerKey authKey).Trail (Does js call)
      (Leaves past fun _ _ => True) past := by
  unfold billingKeyFor
  refine Prog.Trail.ite (fun _ => leaves_ok (List.Subset.refl _) trivial) fun _ => ?_
  refine trail_leaves_bind issueTossBillingKey_trail (fun past₁ billingKey hsub _ => ?_)
    fun _ _ h => leaves_error h
  refine trail_leaves_bind (updatePaymentOrder_trail (htaken.mono hsub) (.billingKey hmode _))
    (fun past₂ _ hsub₂ _ => ?_) fun _ _ h => leaves_error (List.Subset.trans hsub h)
  exact leaves_ok (List.Subset.trans hsub hsub₂) trivial

theorem settleSubscription_trail {customerKey authKey : String}
    (hcall : call = .subscription env customerKey authKey) (hprovider : order.provider = .toss)
    (hmode : order.mode = .subscription)
    (hread : (⟨.findOrderByCustomerKey customerKey, .ok (some order)⟩ : SettlementEntry) ∈ past) :
    (settleSubscription js env order customerKey authKey).Trail (Does js call) (fun _ _ => True) past := by
  unfold settleSubscription
  refine trail_refuse_bind (fun hpending => ?_) fun _ => trivial
  rw [decide_eq_false_iff_not, not_not] at hpending
  have htaken : Taken call past order := ⟨.subscription hcall hmode hread, hprovider, hpending⟩
  refine trail_leaves_bind (billingKeyFor_trail htaken hmode) (fun past₁ billingKey hsub₁ _ => ?_)
    fun _ _ _ => trivial
  have htaken₁ := htaken.mono hsub₁
  refine trail_leaves_bind (approveTossBilling_trail htaken₁) (fun past₂ payload hsub₂ hconfirmed => ?_)
    fun _ _ _ => trivial
  have htaken₂ := htaken₁.mono hsub₂
  refine trail_value_bind (fun ref _ => ?_) fun _ => trivial
  -- the subscription comes first, then the status of the order
  refine trail_leaves_bind (recordTossSubscription_trail htaken₂ hmode hconfirmed)
    (fun past₃ _ hsub₃ hrecorded => ?_) fun _ _ _ => trivial
  exact updated_trail (htaken₂.mono hsub₃)
    (.subscription hmode (hconfirmed.mono hsub₃) hrecorded _ _)

theorem settleTossSubscription_trail {customerKey authKey : String}
    (hcall : call = .subscription env customerKey authKey) :
    (settleTossSubscription js env customerKey authKey).Trail (Does js call) (fun _ _ => True) past := by
  unfold settleTossSubscription
  refine trail_op_bind trivial (fun found => ?_) fun _ _ _ => trivial
  refine trail_leaves_bind requireTossOrder_trail (fun past₁ order hsub hrequired => ?_) fun _ _ _ => trivial
  obtain ⟨rfl, hprovider, hmode⟩ := hrequired
  refine Prog.Trail.ite (fun _ => trivial) fun _ => ?_
  exact settleSubscription_trail hcall hprovider hmode (hsub List.mem_cons_self)

end Settlements

theorem createPaymentOrder_trail {input : NewOrder} :
    (createPaymentOrder input).Trail (Does js call) (fun _ _ => True) past := by
  unfold createPaymentOrder
  refine trail_op_bind trivial (fun existing => ?_) fun _ _ _ => trivial
  cases existing with
  | some order => exact trivial
  | none => exact trail_op_bind ⟨input, rfl⟩ (fun _ => trivial) fun _ _ _ => trivial

/-- **Every call does what it should.** -/
theorem call_trail (js : Runtime) (call : Call) :
    ((settlementSystem js).program call).Trail (Does js call) (fun _ _ => True) [] := by
  cases call with
  | checkout input => exact createPaymentOrder_trail
  | oneTime env paymentKey orderId amount => exact settleTossOneTimePayment_trail rfl
  | subscription env customerKey authKey => exact settleTossSubscription_trail rfl

end Settlement
end Pricing
end AiSaas
