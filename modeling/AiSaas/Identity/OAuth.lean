import AiSaas.Identity.Boundary
import AiSaas.Kernel.Values
import AiSaas.Lib.Processes

/-!
# OAuth transactions and callbacks

`OAuthTransactionStore` and `GoogleOAuthCallbackValidator` of
`services/identity_tenant/boundary.py`.  A callback is checked against its
transaction, the code is exchanged, and only then the transaction is consumed, so
that two callbacks may both have passed the check.  Each access of the
transactions is one operation, and between two of them any other call may step, or
start: calls that an exchange makes before it returns are among them.

## Main definitions

* `OAuthTransactionStore.begin`, `peek`, `consume` — the store.
* `GoogleOAuthCallbackValidator.validate`, `validateAndExchange` — the validator.
* `OAuth.Justified` — what has been checked for a call that succeeds.
* `OAuth.begun`, `OAuth.redeemed` — how many calls for a state have succeeded.

## Main results

* `oauth_state_single_use` — in any interleaving, no more successes than begun
  transactions for a state, and each of them justified.
-/

namespace AiSaas

open Transaction Processes Prog
open Kernel (Moment)

/-! ### Transactions and callbacks -/

/-- `OAuthTransaction`. -/
structure OAuthTransaction where
  state : String
  issuer : String
  redirectUri : String
  expiresAt : ℤ
  deriving DecidableEq, Repr

/-- `GoogleOAuthCallback`; `none` is a value that is no text, and what is no callback
has no text at all. -/
structure GoogleOAuthCallback where
  state : Option String
  code : Option String
  issuer : Option String
  redirectUri : Option String

/-- What `begin` is told as the time a transaction expires. -/
inductive ExpiryValue where
  | datetime (value : Moment)
  | text (value : String)
  | other

/-- `astimezone(timezone.utc)` of a moment whose time in UTC is known. -/
def astimezone (t : ℤ) : Except Denied ℤ := do
  ensure (decide (-62135596800000000 ≤ t ∧ t < 253402300800000000)) .overflowError
  return t

/-- The moment an expiry stands for, if it stands for one. -/
def parsedExpiry (fromisoformat : String → Option Moment) : ExpiryValue → Option Moment
  | .datetime value => some value
  | .text value => fromisoformat (value.replace "Z" "+00:00")
  | .other => none

/-- `_parse_expiry`; a time without a zone is in UTC. -/
def parseExpiry (fromisoformat : String → Option Moment) (value : ExpiryValue) : Except Denied ℤ := do
  let parsed ← orRaise (parsedExpiry fromisoformat value) (.authenticationRequired "unauthenticated")
  match parsed with
  | .naive t => astimezone t
  | .aware t => astimezone t

/-- `hmac.compare_digest` of two texts, which takes ASCII only. -/
def compareDigest (a b : String) : Except Denied Bool := do
  ensure (a.toList.all (·.toNat < 128) && b.toList.all (·.toNat < 128)) .typeError
  return decide (a = b)

/-! ### Operations -/

/-- One access of the transactions, of the clock or of the provider. -/
inductive OAuthOp where
  | contains (state : String)
  | store (transaction : OAuthTransaction)
  | get (state : String)
  | pop (state : String)
  | clock
  | exchange (code redirectUri : String)

/-- What an operation answers.  A provider may answer with what is no identity. -/
def OAuthOp.Answer : OAuthOp → Type
  | contains _ => Bool
  | store _ => Unit
  | get _ | pop _ => Option OAuthTransaction
  | clock => ℤ
  | exchange _ _ => Option GoogleIdentity

/-- What an operation draws from outside. -/
structure OAuthDraw where
  now : Except Denied ℤ
  exchanged : Except Denied (Option GoogleIdentity)

/-- `_transactions`. -/
abbrev OAuthTransactions := Dict OAuthTransaction

/-- One operation on the transactions. -/
def OAuthOp.exec (d : OAuthDraw) (op : OAuthOp) (transactions : OAuthTransactions) :
    Except Denied op.Answer × OAuthTransactions :=
  match op with
  | contains state => (.ok (transactions.lookup state).isSome, transactions)
  | store transaction => (.ok (), transactions.insert transaction.state transaction)
  | get state => (.ok (transactions.lookup state), transactions)
  | pop state => (.ok (transactions.lookup state), transactions.erase state)
  | clock => (d.now, transactions)
  | exchange _ _ => (d.exchanged, transactions)

/-- A program of the store or of the validator. -/
abbrev OAuthProg := Prog OAuthOp OAuthOp.Answer Denied

namespace OAuthTransactionStore

/-- The transaction `begin` stores. -/
def newTransaction (fromisoformat : String → Option Moment) (state redirectUri : String)
    (expiresAt : ExpiryValue) (issuer : String) : Except Denied OAuthTransaction := do
  let issuer ← requiredText issuer "issuer"
  let redirectUri ← requiredText redirectUri "redirect_uri"
  let expiresAt ← parseExpiry fromisoformat expiresAt
  return ⟨state, issuer, redirectUri, expiresAt⟩

/-- `begin`. -/
def begin (fromisoformat : String → Option Moment) (state redirectUri : String)
    (expiresAt : ExpiryValue) (issuer : String) : OAuthProg Unit := do
  let state ← done (requiredText state "state")
  let taken : Bool ← perform (OAuthOp.contains state)
  if taken = true then raise (.oauthCallbackError "oauth transaction already exists")
  else do
    let transaction ← done (newTransaction fromisoformat state redirectUri expiresAt issuer)
    perform (OAuthOp.store transaction)

/-- `peek`. -/
def peek (state : Option String) : OAuthProg (Option OAuthTransaction) :=
  match state.filter (· ≠ "") with
  | none => pure none
  | some state => perform (OAuthOp.get state)

/-- `consume`. -/
def consume (state : Option String) : OAuthProg (Option OAuthTransaction) :=
  match state.filter (· ≠ "") with
  | none => pure none
  | some state => perform (OAuthOp.pop state)

end OAuthTransactionStore

open OAuthTransactionStore

/-! ### The validator -/

/-- `GoogleOAuthCallbackValidator`, less the transactions it shares. -/
structure GoogleOAuthCallbackValidator where
  allowedRedirectUris : List String

namespace GoogleOAuthCallbackValidator

/-- The texts of a callback that has them: its code, issuer and redirect URI. -/
def callbackTexts (callback : GoogleOAuthCallback) : Except Denied (String × String × String) := do
  let invalid := Denied.oauthCallbackError "invalid oauth callback"
  let code ← orRaise (callback.code.filter fun code => !blank code) invalid
  let issuer ← orRaise callback.issuer invalid
  let redirectUri ← orRaise callback.redirectUri invalid
  return (code, issuer, redirectUri)

/-- The checks of a callback against its transaction. -/
def checkTransaction (validator : GoogleOAuthCallbackValidator) (issuer redirectUri : String)
    (transaction : OAuthTransaction) : Except Denied Unit := do
  let sameIssuer ← compareDigest issuer transaction.issuer
  ensure sameIssuer (.oauthCallbackError "oauth issuer mismatch")
  ensure (decide (redirectUri ∈ validator.allowedRedirectUris))
    (.oauthCallbackError "oauth redirect uri is not allowed")
  let sameUri ← compareDigest redirectUri transaction.redirectUri
  ensure sameUri (.oauthCallbackError "oauth redirect uri mismatch")

/-- `_validate_callback`: the transaction, with the code to exchange. -/
def validateCallback (validator : GoogleOAuthCallbackValidator) (callback : GoogleOAuthCallback) :
    OAuthProg (String × OAuthTransaction) := do
  let (code, issuer, redirectUri) ← done (callbackTexts callback)
  let found ← peek callback.state
  let transaction ← done (orRaise found (.oauthCallbackError "invalid or replayed oauth state"))
  let now : ℤ ← perform OAuthOp.clock
  if transaction.expiresAt ≤ now then do
    let _ ← consume callback.state
    raise (.oauthCallbackError "expired oauth transaction")
  else do
    done (validator.checkTransaction issuer redirectUri transaction)
    return (code, transaction)

/-- `_validate_identity`; `none` is no identity, or has a field of another type. -/
def validateIdentity (identity : Option GoogleIdentity) : Except Denied GoogleIdentity := do
  let identity ← orRaise identity (.oauthCallbackError "invalid provider identity")
  ensure (decide (identity.issuer = googleIssuer)) (.oauthCallbackError "provider issuer mismatch")
  ensure (!(blank identity.providerSubject || blank identity.email))
    (.oauthCallbackError "provider identity is incomplete")
  ensure identity.emailVerified (.oauthCallbackError "provider email is not verified")
  return identity

/-- The end of both methods: the transaction is consumed, or was already. -/
def redeem (callback : GoogleOAuthCallback) (identity : GoogleIdentity) : OAuthProg GoogleIdentity := do
  let consumed ← consume callback.state
  done (ensure consumed.isSome (.oauthCallbackError "invalid or replayed oauth state"))
  return identity

/-- `validate`. -/
def validate (validator : GoogleOAuthCallbackValidator) (callback : GoogleOAuthCallback)
    (identity : Option GoogleIdentity) : OAuthProg GoogleIdentity := do
  let _ ← validator.validateCallback callback
  let identity ← done (validateIdentity identity)
  redeem callback identity

/-- `validate_and_exchange`. -/
def validateAndExchange (validator : GoogleOAuthCallbackValidator) (callback : GoogleOAuthCallback) :
    OAuthProg GoogleIdentity := do
  let (code, transaction) ← validator.validateCallback callback
  let exchanged ← attempt (perform (OAuthOp.exchange code transaction.redirectUri))
  let answer : Option GoogleIdentity ← done
    (exchanged.mapError fun _ => .oauthCallbackError "provider exchange failed")
  let identity ← done (validateIdentity answer)
  redeem callback identity

end GoogleOAuthCallbackValidator

open GoogleOAuthCallbackValidator

namespace OAuth

/-! ### Calls -/

/-- A call of the store or of the validator. -/
inductive Call where
  | begin (state redirectUri : String) (expiresAt : ExpiryValue) (issuer : String)
  | validate (callback : GoogleOAuthCallback) (identity : Option GoogleIdentity)
  | validateAndExchange (callback : GoogleOAuthCallback)

variable (fromisoformat : String → Option Moment) (validator : GoogleOAuthCallbackValidator)

namespace Call

/-- The program of a call; `begin` returns nothing. -/
def program : Call → OAuthProg (Option GoogleIdentity)
  | begin state redirectUri expiresAt issuer => do
    OAuthTransactionStore.begin fromisoformat state redirectUri expiresAt issuer
    return none
  | validate callback identity => do
    let identity ← validator.validate callback identity
    return some identity
  | validateAndExchange callback => do
    let identity ← validator.validateAndExchange callback
    return some identity

/-- The call begins a transaction for a state, which is stored without blanks around it. -/
def begins (state : String) : Call → Bool
  | begin text _ _ _ => decide (strip text = state)
  | _ => false

/-- The call presents a callback. -/
def isCallback : Call → Bool
  | begin _ _ _ _ => false
  | _ => true

/-- The state the call presents, where it is a callback. -/
def state? : Call → Option String
  | begin _ _ _ _ => none
  | validate callback _ => callback.state
  | validateAndExchange callback => callback.state

/-- The transaction the call stores, where it stores one. -/
def transaction? : Call → Option OAuthTransaction
  | begin state redirectUri expiresAt issuer =>
    ((requiredText state "state").bind fun state =>
      newTransaction fromisoformat state redirectUri expiresAt issuer).toOption
  | _ => none

end Call

/-- Any number of calls over one store. -/
def system : System Call OAuthOp OAuthOp.Answer Denied (Option GoogleIdentity) OAuthTransactions
    OAuthDraw where
  program := Call.program fromisoformat validator
  exec := OAuthOp.exec

/-- Calls under way, and those that have ended. -/
abbrev OAuthPool := Pool Call OAuthOp OAuthOp.Answer Denied (Option GoogleIdentity) OAuthTransactions

/-- How many calls that begin a transaction for a state have succeeded. -/
def begun (pool : OAuthPool) (state : String) : ℕ :=
  pool.ended fun call r => call.begins state && r.isOk

/-- How many callbacks that present a state have succeeded. -/
def redeemed (pool : OAuthPool) (state : String) : ℕ :=
  pool.ended fun call r => decide (call.state? = some state) && r.isOk

/-! ### What has been checked -/

/-- A callback that matches an unexpired transaction. -/
structure Checked (callback : GoogleOAuthCallback) (transaction : OAuthTransaction) (now : ℤ) :
    Prop where
  unexpired : now < transaction.expiresAt
  issuer : callback.issuer = some transaction.issuer
  redirectUri : callback.redirectUri = some transaction.redirectUri
  allowed : transaction.redirectUri ∈ validator.allowedRedirectUris

/-- An identity that Google has verified. -/
structure Verified (identity : GoogleIdentity) : Prop where
  issuer : identity.issuer = googleIssuer
  providerSubject : blank identity.providerSubject = false
  email : blank identity.email = false
  emailVerified : identity.emailVerified = true

/-- What a callback has done when it succeeds, newest first: its transaction was read
and checked, and at the end a transaction was consumed. -/
inductive Justified : Call → List (Entry OAuthOp OAuthOp.Answer Denied) → GoogleIdentity →
    String → OAuthTransaction → OAuthTransaction → Prop
  | validate {callback : GoogleOAuthCallback} {identity : GoogleIdentity} {state : String}
      {transaction consumed : OAuthTransaction} {now : ℤ} (stated : callback.state = some state)
      (checked : Checked validator callback transaction now) (verified : Verified identity) :
      Justified (.validate callback (some identity))
        [⟨.pop state, .ok (some consumed)⟩, ⟨.clock, .ok now⟩, ⟨.get state, .ok (some transaction)⟩]
        identity state transaction consumed
  | exchanged {callback : GoogleOAuthCallback} {identity : GoogleIdentity} {state code : String}
      {transaction consumed : OAuthTransaction} {now : ℤ} (stated : callback.state = some state)
      (checked : Checked validator callback transaction now) (verified : Verified identity) :
      Justified (.validateAndExchange callback)
        [⟨.pop state, .ok (some consumed)⟩,
          ⟨.exchange code transaction.redirectUri, .ok (some identity)⟩, ⟨.clock, .ok now⟩,
          ⟨.get state, .ok (some transaction)⟩]
        identity state transaction consumed

/-- A transaction that a call which has succeeded stored. -/
def Begun (pool : OAuthPool) (transaction : OAuthTransaction) : Prop :=
  ∃ p ∈ pool.procs, p.task.transaction? fromisoformat = some transaction ∧
    ∃ answer, p.prog = .done (.ok answer)

/-! ### What the programs do -/

/-- The operation stores a transaction. -/
def stores : OAuthOp → Bool
  | .store _ => true
  | _ => false

/-- Nothing was stored. -/
def Unstored (past : List (Entry OAuthOp OAuthOp.Answer Denied)) : Prop :=
  ∀ e ∈ past, stores e.op = false

/-- What a call may ask for: a callback reads and consumes its own state, and `begin`
stores its transaction once. -/
def Asks (call : Call) (past : List (Entry OAuthOp OAuthOp.Answer Denied)) (op : OAuthOp) : Prop :=
  Unstored past ∧
    match op with
    | .store transaction => call.transaction? fromisoformat = some transaction
    | .get state | .pop state => call.state? = some state
    | _ => True

/-- What a call has done when it ends. -/
inductive Came : Call → List (Entry OAuthOp OAuthOp.Answer Denied) →
    Except Denied (Option GoogleIdentity) → Prop
  | refused {call : Call} {past : List (Entry OAuthOp OAuthOp.Answer Denied)} {e : Denied}
      (h : ∀ transaction, ⟨.store transaction, .ok ()⟩ ∉ past) : Came call past (.error e)
  | begun {call : Call} {past : List (Entry OAuthOp OAuthOp.Answer Denied)}
      {transaction : OAuthTransaction} (h : call.transaction? fromisoformat = some transaction) :
      Came call (⟨.store transaction, .ok ()⟩ :: past) (.ok none)
  | redeemed {call : Call} {past : List (Entry OAuthOp OAuthOp.Answer Denied)}
      {identity : GoogleIdentity} {state : String} {transaction consumed : OAuthTransaction}
      (h : Justified validator call past identity state transaction consumed) :
      Came call past (.ok (some identity))

section Trails

variable {fromisoformat : String → Option Moment} {validator : GoogleOAuthCallbackValidator}
  {call : Call} {callback : GoogleOAuthCallback} {identity : GoogleIdentity} {state : String}
  {transaction : OAuthTransaction} {past : List (Entry OAuthOp OAuthOp.Answer Denied)}
  {op : OAuthOp}

theorem unstored_nil : Unstored [] := fun _ he => absurd he List.not_mem_nil

theorem Unstored.cons {answer : Except Denied op.Answer} (h : Unstored past)
    (hop : stores op = false) : Unstored (⟨op, answer⟩ :: past) := by
  intro e he
  rcases List.mem_cons.mp he with rfl | he
  · exact hop
  · exact h e he

theorem Unstored.refused {e : Denied} (h : Unstored past) :
    Came fromisoformat validator call past (.error e) :=
  .refused fun _ hmem => absurd (h _ hmem) nofun

theorem compareDigest_eq_ok {a b : String} {same : Bool} (h : compareDigest a b = .ok same) :
    same = decide (a = b) := by
  simp only [compareDigest, bind_eq_ok, ensure_eq_ok] at h
  obtain ⟨-, -, h⟩ := h
  exact (Except.ok.inj h).symm

theorem callbackTexts_eq_ok {texts : String × String × String}
    (h : callbackTexts callback = .ok texts) :
    callback.issuer = some texts.2.1 ∧ callback.redirectUri = some texts.2.2 := by
  simp only [callbackTexts, bind_eq_ok, orRaise_eq_ok] at h
  obtain ⟨code, -, issuer, hissuer, redirectUri, hredirect, h⟩ := h
  obtain rfl := Except.ok.inj h
  exact ⟨hissuer, hredirect⟩

theorem checkTransaction_eq_ok {issuer redirectUri : String}
    (h : validator.checkTransaction issuer redirectUri transaction = .ok ()) :
    issuer = transaction.issuer ∧ redirectUri = transaction.redirectUri ∧
      redirectUri ∈ validator.allowedRedirectUris := by
  simp only [checkTransaction, bind_eq_ok, ensure_eq_ok, decide_eq_true_eq] at h
  obtain ⟨sameIssuer, hissuer, -, htrue, -, hallowed, sameUri, huri, htrue'⟩ := h
  have hissuer := compareDigest_eq_ok hissuer
  have huri := compareDigest_eq_ok huri
  rw [htrue, eq_comm, decide_eq_true_eq] at hissuer
  rw [htrue', eq_comm, decide_eq_true_eq] at huri
  exact ⟨hissuer, huri, hallowed⟩

theorem validateIdentity_eq_ok {answer : Option GoogleIdentity}
    (h : validateIdentity answer = .ok identity) : answer = some identity ∧ Verified identity := by
  simp only [validateIdentity, bind_eq_ok, ensure_eq_ok, orRaise_eq_ok, decide_eq_true_eq,
    Bool.not_eq_true', Bool.or_eq_false_iff] at h
  obtain ⟨given, hgiven, -, hissuer, -, ⟨hsubject, hemail⟩, -, hverified, h⟩ := h
  obtain rfl := Except.ok.inj h
  exact ⟨hgiven, hissuer, hsubject, hemail, hverified⟩

theorem peek_of_ne (h : state ≠ "") : peek (some state) = perform (OAuthOp.get state) := by
  unfold peek
  rw [Option.filter_some, if_pos (decide_eq_true h)]

theorem consume_of_ne (h : state ≠ "") : consume (some state) = perform (OAuthOp.pop state) := by
  unfold consume
  rw [Option.filter_some, if_pos (decide_eq_true h)]

/-- `begin` stores its transaction, or nothing. -/
theorem begin_trail {text redirectUri issuer : String} {expiresAt : ExpiryValue} :
    (Call.program fromisoformat validator (.begin text redirectUri expiresAt issuer)).Trail
      (Asks fromisoformat (.begin text redirectUri expiresAt issuer))
      (Came fromisoformat validator (.begin text redirectUri expiresAt issuer)) [] := by
  refine Trail.bind (M := fun past r => Came fromisoformat validator
    (.begin text redirectUri expiresAt issuer) past (r.map fun _ => none)) ?_ (fun _ _ h => h)
    fun _ _ h => h
  refine trail_done_bind (fun _ _ => unstored_nil.refused) fun state hstate => ?_
  have hpast : ∀ answer, Unstored [⟨OAuthOp.contains state, answer⟩] :=
    fun _ => unstored_nil.cons rfl
  refine trail_perform_bind.mpr ⟨⟨unstored_nil, trivial⟩, fun _ => (hpast _).refused, ?_⟩
  intro (taken : Bool)
  refine Trail.ite (fun _ => (hpast _).refused) fun _ => ?_
  refine trail_done_bind (fun _ _ => (hpast _).refused) fun transaction hnew => ?_
  have htransaction : Call.transaction? fromisoformat (.begin text redirectUri expiresAt issuer)
      = some transaction := by
    rw [Call.transaction?, hstate]
    exact congrArg Except.toOption hnew
  refine trail_perform.mpr ⟨⟨hpast _, htransaction⟩, fun r => ?_⟩
  cases r with
  | ok _ => exact .begun htransaction
  | error e =>
    refine .refused fun transaction hmem => ?_
    rcases List.mem_cons.mp hmem with heq | hmem
    · cases heq
    · exact absurd (hpast _ _ hmem) nofun

/-- A callback that passes has read its transaction and then the clock. -/
def Passed (validator : GoogleOAuthCallbackValidator) (callback : GoogleOAuthCallback)
    (past : List (Entry OAuthOp OAuthOp.Answer Denied)) :
    Except Denied (String × OAuthTransaction) → Prop
  | .ok (_, transaction) => ∃ state now, callback.state = some state ∧ state ≠ "" ∧
      past = [⟨.clock, .ok now⟩, ⟨.get state, .ok (some transaction)⟩] ∧
      Checked validator callback transaction now
  | .error _ => Unstored past

theorem validateCallback_trail (hcall : call.state? = callback.state) :
    (validator.validateCallback callback).Trail (Asks fromisoformat call)
      (Passed validator callback) [] := by
  refine trail_done_bind (fun _ _ => unstored_nil) fun texts htexts => ?_
  obtain ⟨code, issuer, redirectUri⟩ := texts
  obtain ⟨hissuer, hredirect⟩ := callbackTexts_eq_ok htexts
  by_cases hstate : ∃ state, callback.state = some state ∧ state ≠ ""
  · obtain ⟨state, hstate, hne⟩ := hstate
    have hget : ∀ answer, Unstored [⟨OAuthOp.get state, answer⟩] := fun _ => unstored_nil.cons rfl
    rw [hstate, peek_of_ne hne, consume_of_ne hne]
    refine trail_perform_bind.mpr ⟨⟨unstored_nil, hcall.trans hstate⟩, fun _ => hget _, ?_⟩
    intro (found : Option OAuthTransaction)
    refine trail_done_bind (fun _ _ => hget _) fun transaction hfound => ?_
    obtain rfl := orRaise_eq_ok.mp hfound
    have hclock : ∀ answer, Unstored [⟨OAuthOp.clock, answer⟩, ⟨OAuthOp.get state, .ok (some transaction)⟩] :=
      fun _ => (hget _).cons rfl
    refine trail_perform_bind.mpr ⟨⟨hget _, trivial⟩, fun _ => hclock _, ?_⟩
    intro (now : ℤ)
    refine Trail.ite (fun _ => ?_) fun hnow => ?_
    · -- an expired transaction is consumed and refused
      exact trail_perform_bind.mpr ⟨⟨hclock _, hcall.trans hstate⟩,
        fun _ => (hclock _).cons rfl, fun _ => (hclock _).cons rfl⟩
    · refine trail_done_bind (fun _ _ => hclock _) fun _ hchecked => ?_
      obtain ⟨rfl, rfl, hallowed⟩ := checkTransaction_eq_ok hchecked
      exact ⟨state, now, hstate, hne, rfl, not_le.mp hnow, hissuer, hredirect, hallowed⟩
  · have hnone : peek callback.state = pure none := by
      unfold peek
      cases htext : callback.state with
      | none => rfl
      | some state =>
        rw [Option.filter_some, if_neg]
        exact fun hne => hstate ⟨state, htext, of_decide_eq_true hne⟩
    rw [hnone]
    exact unstored_nil

/-- The end of a callback consumes a transaction, or is refused. -/
theorem redeem_trail (hcall : call.state? = some state) (hstate : callback.state = some state)
    (hne : state ≠ "") (hpast : Unstored past)
    (hjustified : ∀ consumed, Justified validator call (⟨.pop state, .ok (some consumed)⟩ :: past)
      identity state transaction consumed) :
    (redeem callback identity).Trail (Asks fromisoformat call)
      (fun past r => Came fromisoformat validator call past (r.map some)) past := by
  have hpop : ∀ answer : Except Denied (Option OAuthTransaction),
      Unstored (⟨OAuthOp.pop state, answer⟩ :: past) := fun _ => hpast.cons rfl
  unfold redeem
  rw [hstate, consume_of_ne hne]
  refine trail_perform_bind.mpr ⟨⟨hpast, hcall⟩, fun _ => (hpop _).refused, ?_⟩
  intro (found : Option OAuthTransaction)
  cases found with
  | none => exact (hpop _).refused
  | some consumed => exact .redeemed (hjustified consumed)

theorem validate_trail {answer : Option GoogleIdentity} :
    (Call.program fromisoformat validator (.validate callback answer)).Trail
      (Asks fromisoformat (.validate callback answer))
      (Came fromisoformat validator (.validate callback answer)) [] := by
  refine Trail.bind (M := fun past r => Came fromisoformat validator (.validate callback answer)
    past (r.map some)) ?_ (fun _ _ h => h) fun _ _ h => h
  refine Trail.bind (validateCallback_trail rfl) (fun past passed hpassed => ?_)
    fun _ _ h => Unstored.refused h
  obtain ⟨state, now, hstate, hne, rfl, hchecked⟩ := hpassed
  have hpast : Unstored [⟨OAuthOp.clock, .ok now⟩, ⟨OAuthOp.get state, .ok (some passed.2)⟩] :=
    (unstored_nil.cons rfl).cons rfl
  refine trail_done_bind (fun _ _ => hpast.refused) fun identity hidentity => ?_
  obtain ⟨rfl, hverified⟩ := validateIdentity_eq_ok hidentity
  exact redeem_trail hstate hstate hne hpast fun _ => .validate hstate hchecked hverified

theorem validateAndExchange_trail :
    (Call.program fromisoformat validator (.validateAndExchange callback)).Trail
      (Asks fromisoformat (.validateAndExchange callback))
      (Came fromisoformat validator (.validateAndExchange callback)) [] := by
  refine Trail.bind (M := fun past r => Came fromisoformat validator (.validateAndExchange callback)
    past (r.map some)) ?_ (fun _ _ h => h) fun _ _ h => h
  refine Trail.bind (validateCallback_trail rfl) (fun past passed hpassed => ?_)
    fun _ _ h => Unstored.refused h
  obtain ⟨state, now, hstate, hne, rfl, hchecked⟩ := hpassed
  have hpast : ∀ answer : Except Denied (Option GoogleIdentity),
      Unstored [⟨OAuthOp.exchange passed.1 passed.2.redirectUri, answer⟩,
        ⟨OAuthOp.clock, .ok now⟩, ⟨OAuthOp.get state, .ok (some passed.2)⟩] :=
    fun _ => ((unstored_nil.cons rfl).cons rfl).cons rfl
  refine trail_attempt_bind.mpr ⟨⟨(unstored_nil.cons rfl).cons rfl, trivial⟩, ?_⟩
  intro (exchanged : Except Denied (Option GoogleIdentity))
  refine trail_done_bind (fun _ _ => (hpast _).refused) fun answer hanswer => ?_
  refine trail_done_bind (fun _ _ => (hpast _).refused) fun identity hidentity => ?_
  obtain ⟨rfl, hverified⟩ := validateIdentity_eq_ok hidentity
  cases exchanged with
  | error e => cases hanswer
  | ok found =>
    obtain rfl := Except.ok.inj hanswer
    exact redeem_trail hstate hstate hne (hpast _) fun _ => .exchanged hstate hchecked hverified

/-- **What a call does**: it asks for what it may, and comes to what it has done. -/
theorem program_trail (call : Call) : (call.program fromisoformat validator).Trail
    (Asks fromisoformat call) (Came fromisoformat validator call) [] := by
  cases call with
  | begin => exact begin_trail
  | validate => exact validate_trail
  | validateAndExchange => exact validateAndExchange_trail

end Trails

/-! ### Pools -/

section Pools

variable {fromisoformat : String → Option Moment} {validator : GoogleOAuthCallbackValidator}
  {pool pool' : OAuthPool} {transaction : OAuthTransaction} {state : String}

/-- Every call is where its own past has led it. -/
abbrev Traced (fromisoformat : String → Option Moment) (validator : GoogleOAuthCallbackValidator)
    (pool : OAuthPool) : Prop :=
  System.Traced (Asks fromisoformat) (Came fromisoformat validator) pool

/-- The transactions that are there and the callbacks that have succeeded are no more than
the calls that have begun one, and what was read was begun. -/
structure Counted (fromisoformat : String → Option Moment) (pool : OAuthPool) : Prop where
  redeemed_le : ∀ state, redeemed pool state + (if (pool.state.lookup state).isSome then 1 else 0)
    ≤ begun pool state
  begun_stored : ∀ state transaction, pool.state.lookup state = some transaction →
    transaction.state = state ∧ Begun fromisoformat pool transaction
  begun_answered : ∀ e ∈ pool.log, ∀ state transaction,
    e.2 = ⟨.get state, .ok (some transaction)⟩ ∨ e.2 = ⟨.pop state, .ok (some transaction)⟩ →
      transaction.state = state ∧ Begun fromisoformat pool transaction

theorem Begun.act {a : Action Call OAuthDraw} (h : Begun fromisoformat pool transaction)
    (hacts : System.Acts (system fromisoformat validator) pool a pool') :
    Begun fromisoformat pool' transaction := by
  obtain ⟨p, hp, htransaction, answer, hdone⟩ := h
  obtain ⟨p', hp', htask, hprog⟩ := hacts.done_mem hp hdone
  exact ⟨p', hp', htask ▸ htransaction, answer, hprog.trans hdone⟩

/-- The call of a transaction begins its state. -/
theorem begins_of_transaction {call : Call} (h : call.transaction? fromisoformat = some transaction) :
    call.begins transaction.state = true ∧ call.state? = none := by
  cases call with
  | begin text redirectUri expiresAt issuer =>
    simp only [Call.transaction?] at h
    cases hstate : requiredText text "state" with
    | error e => rw [hstate] at h; cases h
    | ok trimmed =>
      rw [hstate] at h
      change (newTransaction fromisoformat trimmed redirectUri expiresAt issuer).toOption = _ at h
      cases hnew : newTransaction fromisoformat trimmed redirectUri expiresAt issuer with
      | error e => rw [hnew] at h; cases h
      | ok new =>
        rw [hnew] at h
        obtain rfl := Option.some.inj h
        simp only [newTransaction, bind_eq_ok] at hnew
        obtain ⟨_, -, _, -, _, -, hnew⟩ := hnew
        obtain rfl := Except.ok.inj hnew
        exact ⟨decide_eq_true (Boundary.requiredText_eq_ok hstate).1.symm, rfl⟩
  | validate => cases h
  | validateAndExchange => cases h

/-- A call that has come to an end after an operation has stored its transaction, or has
consumed one of its own state. -/
theorem ended_step {call : Call} {past : List (Entry OAuthOp OAuthOp.Answer Denied)}
    {op : OAuthOp} {answer : Except Denied op.Answer} {prog : OAuthProg (Option GoogleIdentity)}
    (htrail : prog.Trail (Asks fromisoformat call) (Came fromisoformat validator call)
      (⟨op, answer⟩ :: past)) {result : Option GoogleIdentity} (hdone : prog = done (.ok result)) :
    (∃ transaction, op = .store transaction ∧ call.transaction? fromisoformat = some transaction) ∨
      ∃ state consumed, call.state? = some state ∧
        (⟨op, answer⟩ : Entry OAuthOp OAuthOp.Answer Denied) = ⟨.pop state, .ok (some consumed)⟩ := by
  subst hdone
  cases htrail with
  | begun h => exact .inl ⟨_, rfl, h⟩
  | redeemed h =>
    cases h with
    | validate stated => exact .inr ⟨_, _, stated, rfl⟩
    | exchanged stated => exact .inr ⟨_, _, stated, rfl⟩

/-- A call that has stored its transaction has come to its end. -/
theorem done_of_stored {call : Call} {past : List (Entry OAuthOp OAuthOp.Answer Denied)}
    {prog : OAuthProg (Option GoogleIdentity)}
    (htrail : prog.Trail (Asks fromisoformat call) (Came fromisoformat validator call)
      (⟨.store transaction, .ok ()⟩ :: past)) : ∃ answer, prog = done (.ok answer) := by
  cases prog with
  | done r =>
    cases htrail with
    | refused h => exact absurd List.mem_cons_self (h transaction)
    | begun => exact ⟨_, rfl⟩
    | redeemed => exact ⟨_, rfl⟩
  | call op next => exact absurd (htrail.1.1 _ List.mem_cons_self) nofun

/-- A program that has not succeeded is not counted. -/
theorem not_counted {prog : OAuthProg (Option GoogleIdentity)} {b : Bool}
    (h : ∀ result, prog ≠ done (.ok result)) :
    (prog.result?.any fun r => b && r.isOk) = false := by
  rcases prog with (e | result) | ⟨op, next⟩
  · exact Bool.and_false b
  · exact absurd rfl (h result)
  · rfl

theorem counted_start {call : Call} (h : Counted fromisoformat pool) :
    Counted fromisoformat { pool with procs := pool.procs ++
      [⟨call, (system fromisoformat validator).program call, true⟩] } := by
  have hnone : ∀ result, call.program fromisoformat validator ≠ done (.ok result) := by
    intro result hdone
    have htrail : (call.program fromisoformat validator).Trail (Asks fromisoformat call)
      (Came fromisoformat validator call) [] := program_trail call
    rw [hdone] at htrail
    cases htrail with
    | redeemed h => cases h
  have hacts : System.Acts (system fromisoformat validator) pool (.start call : Action Call OAuthDraw)
    { pool with procs := pool.procs ++ [⟨call, (system fromisoformat validator).program call, true⟩] } :=
      .start call
  refine ⟨fun state => ?_, fun state transaction hfound => ?_, fun e he state transaction hread => ?_⟩
  · have hcount : ∀ b : Call → Bool, Pool.ended { pool with procs := pool.procs ++
        [⟨call, (system fromisoformat validator).program call, true⟩] } (fun call r => b call && r.isOk)
          = pool.ended fun call r => b call && r.isOk :=
      fun b => System.ended_start (not_counted hnone)
    rw [redeemed, begun, hcount, hcount]
    exact h.redeemed_le state
  · exact (h.begun_stored state transaction hfound).imp_right fun hbegun => hbegun.act hacts
  · exact (h.begun_answered e he state transaction hread).imp_right fun hbegun => hbegun.act hacts

theorem counted_stop {i : ℕ} (h : Counted fromisoformat pool) :
    Counted fromisoformat
      { pool with procs := pool.procs.modify i fun p => { p with live := false } } := by
  have hacts : System.Acts (system fromisoformat ⟨[]⟩) pool (.stop i : Action Call OAuthDraw)
    { pool with procs := pool.procs.modify i fun p => { p with live := false } } := .stop i
  refine ⟨fun state => ?_, fun state transaction hfound => ?_, fun e he state transaction hread => ?_⟩
  · rw [redeemed, begun, System.ended_stop, System.ended_stop]
    exact h.redeemed_le state
  · exact (h.begun_stored state transaction hfound).imp_right fun hbegun => hbegun.act hacts
  · exact (h.begun_answered e he state transaction hread).imp_right fun hbegun => hbegun.act hacts

/-- **One operation keeps the count**: storing counts a call that has begun, and consuming
takes a transaction away for the callback it counts. -/
theorem counted_step {i : ℕ} {drawn : OAuthDraw} {call : Call} {op : OAuthOp}
    {next : Except Denied op.Answer → OAuthProg (Option GoogleIdentity)}
    (htraced : Traced fromisoformat validator pool) (h : Counted fromisoformat pool)
    (found : pool.procs[i]? = some ⟨call, .call op next, true⟩) :
    Counted fromisoformat ((system fromisoformat validator).after pool i drawn call op next) := by
  obtain ⟨-, hasks⟩ : Unstored (pool.past i) ∧ _ := (htraced.1 i _ found).1
  have htrail := (htraced.1 i _ found).2 (op.exec drawn pool.state).1
  have hacts : System.Acts (system fromisoformat validator) pool (.step i drawn)
    ((system fromisoformat validator).after pool i drawn call op next) := .step drawn found
  have hredeemed : ∀ state, redeemed ((system fromisoformat validator).after pool i drawn call op next)
      state = redeemed pool state + if ((next (op.exec drawn pool.state).1).result?.any fun r =>
        decide (call.state? = some state) && r.isOk) then 1 else 0 :=
    fun state => System.ended_after found
  have hbegun : ∀ state, begun ((system fromisoformat validator).after pool i drawn call op next)
      state = begun pool state + if ((next (op.exec drawn pool.state).1).result?.any fun r =>
        call.begins state && r.isOk) then 1 else 0 :=
    fun state => System.ended_after found
  have hbegun_le : ∀ state, begun pool state ≤
      begun ((system fromisoformat validator).after pool i drawn call op next) state :=
    fun state => (hbegun state).symm ▸ Nat.le_add_right _ _
  -- what was begun stays begun
  have hstored : ∀ state transaction, pool.state.lookup state = some transaction →
      transaction.state = state ∧ Begun fromisoformat
        ((system fromisoformat validator).after pool i drawn call op next) transaction :=
    fun state transaction hfound =>
      (h.begun_stored state transaction hfound).imp_right fun hbegun => hbegun.act hacts
  have hanswered : ∀ e ∈ pool.log, ∀ state transaction,
      e.2 = ⟨.get state, .ok (some transaction)⟩ ∨ e.2 = ⟨.pop state, .ok (some transaction)⟩ →
        transaction.state = state ∧ Begun fromisoformat
          ((system fromisoformat validator).after pool i drawn call op next) transaction :=
    fun e he state transaction hread =>
      (h.begun_answered e he state transaction hread).imp_right fun hbegun => hbegun.act hacts
  -- an operation that only reads
  have hreads : (∀ result, next (op.exec drawn pool.state).1 ≠ done (.ok result)) →
      (op.exec drawn pool.state).2 = pool.state →
      (∀ state transaction, (⟨op, (op.exec drawn pool.state).1⟩ : Entry OAuthOp OAuthOp.Answer Denied)
          = ⟨.get state, .ok (some transaction)⟩ ∨
        (⟨op, (op.exec drawn pool.state).1⟩ : Entry OAuthOp OAuthOp.Answer Denied)
          = ⟨.pop state, .ok (some transaction)⟩ → pool.state.lookup state = some transaction) →
      Counted fromisoformat ((system fromisoformat validator).after pool i drawn call op next) := by
    intro hquiet hsame hread
    refine ⟨fun state => ?_, ?_, ?_⟩
    · rw [hredeemed, not_counted hquiet]
      change redeemed pool state + 0 +
        (if ((op.exec drawn pool.state).2.lookup state).isSome then 1 else 0) ≤ _
      rw [hsame]
      exact (h.redeemed_le state).trans (hbegun_le state)
    · change ∀ state transaction, (op.exec drawn pool.state).2.lookup state = some transaction → _
      rw [hsame]
      exact hstored
    · intro e he state transaction hentry
      rcases List.mem_cons.mp he with rfl | he
      · exact hstored state transaction (hread state transaction hentry)
      · exact hanswered e he state transaction hentry
  have hquiet : (∀ transaction, op ≠ .store transaction) → (∀ state, op ≠ .pop state) →
      ∀ result, next (op.exec drawn pool.state).1 ≠ done (.ok result) := by
    intro hstore hpop result hdone
    rcases ended_step htrail hdone with ⟨transaction, rfl, -⟩ | ⟨state, consumed, -, hentry⟩
    · exact hstore transaction rfl
    · exact hpop state (congrArg Entry.op hentry)
  cases op with
  | contains state => exact hreads (hquiet nofun nofun) rfl nofun
  | clock => exact hreads (hquiet nofun nofun) rfl nofun
  | exchange code redirectUri => exact hreads (hquiet nofun nofun) rfl nofun
  | get state =>
    refine hreads (hquiet nofun nofun) rfl ?_
    rintro _ transaction (hentry | hentry)
    · obtain ⟨hop, hanswer⟩ := Entry.mk.inj hentry
      obtain rfl := OAuthOp.get.inj hop
      exact Except.ok.inj (eq_of_heq hanswer)
    · cases hentry
  | store transaction =>
    have hcall : call.transaction? fromisoformat = some transaction := hasks
    obtain ⟨hbegins, hnostate⟩ := begins_of_transaction hcall
    obtain ⟨answer, hdone⟩ := done_of_stored htrail
    have hlookup : ∀ state, (pool.state.insert transaction.state transaction).lookup state
        = if state = transaction.state then some transaction else pool.state.lookup state := by
      intro state
      split
      · next heq => exact heq ▸ AList.lookup_insert _
      · next hne => exact AList.lookup_insert_ne hne
    refine ⟨fun state => ?_, ?_, ?_⟩
    · rw [hredeemed, hnostate]
      change redeemed pool state + _ +
        (if ((pool.state.insert transaction.state transaction).lookup state).isSome then 1 else 0) ≤ _
      have hle := h.redeemed_le state
      have hnone : ((next (OAuthOp.exec drawn (.store transaction) pool.state).1).result?.any
          fun r => decide (none = some state) && r.isOk) = false := by
        rw [hdone]
        rfl
      rw [hnone, hlookup, hbegun, hdone]
      by_cases heq : state = transaction.state
      · -- the call that stores is counted
        subst heq
        have hcounted : ((done (.ok answer) : OAuthProg (Option GoogleIdentity)).result?.any
            fun r => call.begins transaction.state && r.isOk) = true := by
          rw [hbegins]
          rfl
        rw [if_pos rfl, hcounted]
        simp only [Bool.false_eq_true, if_false, if_true, Option.isSome_some]
        omega
      · rw [if_neg heq]
        simp only [Bool.false_eq_true, if_false]
        omega
    · intro state found hfound
      change (pool.state.insert transaction.state transaction).lookup state = some found at hfound
      rw [hlookup] at hfound
      split at hfound
      · next heq =>
        obtain rfl := Option.some.inj hfound
        refine ⟨heq.symm, ⟨call, _, true⟩, List.mem_iff_getElem?.mpr ⟨i, ?_⟩, hcall, answer, hdone⟩
        exact List.getElem?_set_self (List.getElem?_eq_some_iff.mp ‹_›).1
      · exact hstored state found hfound
    · intro e he state found hentry
      rcases List.mem_cons.mp he with rfl | he
      · rcases hentry with hentry | hentry <;> cases hentry
      · exact hanswered e he state found hentry
  | pop state =>
    have hcall : call.state? = some state := hasks
    have hlookup : ∀ other, (pool.state.erase state).lookup other
        = if other = state then none else pool.state.lookup other := by
      intro other
      split
      · next heq => exact heq ▸ AList.lookup_erase _ _
      · next hne => exact AList.lookup_erase_ne hne
    refine ⟨fun other => ?_, ?_, ?_⟩
    · rw [hredeemed]
      change redeemed pool other + _ +
        (if ((pool.state.erase state).lookup other).isSome then 1 else 0) ≤ _
      have hle := h.redeemed_le other
      have hge := hbegun_le other
      rw [hlookup]
      by_cases heq : other = state
      · subst heq
        rw [if_pos rfl]
        cases hfound : pool.state.lookup other with
        | none =>
          have hquiet : ∀ result, next (OAuthOp.exec drawn (.pop other) pool.state).1
              ≠ done (.ok result) := by
            intro result hdone
            rcases ended_step htrail hdone with ⟨_, hstore, -⟩ | ⟨_, consumed, -, hentry⟩
            · cases hstore
            · obtain ⟨hop, hanswer⟩ := Entry.mk.inj hentry
              obtain rfl := OAuthOp.pop.inj hop
              have hnone : (.ok (pool.state.lookup other) : Except Denied (Option OAuthTransaction))
                  = .ok (some consumed) := eq_of_heq hanswer
              rw [hfound] at hnone
              cases hnone
          rw [not_counted hquiet]
          rw [hfound] at hle
          simp only [Option.isSome_none, Bool.false_eq_true, if_false] at hle ⊢
          omega
        | some consumed =>
          -- the transaction is gone, and at most this callback is counted for it
          rw [hfound] at hle
          simp only [Option.isSome_none, Option.isSome_some, Bool.false_eq_true, if_false,
            if_true] at hle ⊢
          split <;> omega
      · have hother : ((next (OAuthOp.exec drawn (.pop state) pool.state).1).result?.any
            fun r => decide (call.state? = some other) && r.isOk) = false := by
          rw [hcall, decide_eq_false fun h => heq (Option.some.inj h).symm]
          simp
        rw [if_neg heq, hother]
        simp only [Bool.false_eq_true, if_false]
        omega
    · intro other found hfound
      change (pool.state.erase state).lookup other = some found at hfound
      rw [hlookup] at hfound
      split at hfound
      · cases hfound
      · exact hstored other found hfound
    · intro e he other found hentry
      rcases List.mem_cons.mp he with rfl | he
      · rcases hentry with hentry | hentry
        · cases hentry
        · obtain ⟨hop, hanswer⟩ := Entry.mk.inj hentry
          obtain rfl := OAuthOp.pop.inj hop
          exact hstored state found (Except.ok.inj (eq_of_heq hanswer))
      · exact hanswered e he other found hentry

/-- **A run keeps the count.** -/
theorem traced_counted (fromisoformat : String → Option Moment)
    (validator : GoogleOAuthCallbackValidator) (actions : List (Action Call OAuthDraw)) :
    Traced fromisoformat validator
        (Runs.final (system fromisoformat validator).act (Pool.init ∅) actions) ∧
      Counted fromisoformat
        (Runs.final (system fromisoformat validator).act (Pool.init ∅) actions) := by
  have hempty : Counted fromisoformat (Pool.init ∅) := by
    refine ⟨fun state => Nat.zero_le _, fun state transaction hfound => ?_,
      fun e he => absurd he List.not_mem_nil⟩
    cases hfound
  refine System.invariant program_trail ?_
    (Runs.along_of_forall (P := fun _ _ => True) (fun _ _ => trivial) _ actions) (System.traced_init _) hempty
  intro pool a pool' _ htraced hcounted hacts
  cases hacts with
  | start => exact counted_start hcounted
  | stop => exact counted_stop hcounted
  | idle => exact hcounted
  | step drawn found => exact counted_step htraced hcounted found

/-- What a justified callback has read and consumed. -/
theorem Justified.mem_past {call : Call} {past : List (Entry OAuthOp OAuthOp.Answer Denied)}
    {identity : GoogleIdentity} {consumed : OAuthTransaction}
    (h : Justified validator call past identity state transaction consumed) :
    ⟨.get state, .ok (some transaction)⟩ ∈ past ∧ ⟨.pop state, .ok (some consumed)⟩ ∈ past := by
  cases h <;> simp

/-- Where one call has begun a state, there is one transaction for it. -/
theorem begun_unique {other : OAuthTransaction} (hone : begun pool transaction.state ≤ 1)
    (h : Begun fromisoformat pool transaction) (hother : Begun fromisoformat pool other)
    (hstate : other.state = transaction.state) : other = transaction := by
  obtain ⟨p, hp, htransaction, answer, hdone⟩ := h
  obtain ⟨p', hp', htransaction', answer', hdone'⟩ := hother
  have hcounted : ∀ {p : Proc Call OAuthOp OAuthOp.Answer Denied (Option GoogleIdentity)}
      {found : OAuthTransaction} {answer : Option GoogleIdentity}, p ∈ pool.procs →
      p.task.transaction? fromisoformat = some found → found.state = transaction.state →
      p.prog = done (.ok answer) → p ∈ pool.procs.filter fun p => p.prog.result?.any fun r =>
        p.task.begins transaction.state && r.isOk := by
    intro p found answer hp hfound hstate hdone
    rw [List.mem_filter, hdone, ← hstate]
    refine ⟨hp, ?_⟩
    change (p.task.begins found.state && true) = true
    rw [Bool.and_true]
    exact (begins_of_transaction hfound).1
  have hmem := hcounted hp htransaction rfl hdone
  have hmem' := hcounted hp' htransaction' hstate hdone'
  rw [begun, Pool.ended, List.countP_eq_length_filter] at hone
  obtain ⟨q, hq⟩ := List.length_eq_one_iff.mp
    (le_antisymm hone (List.length_pos_of_mem hmem))
  rw [hq, List.mem_singleton] at hmem hmem'
  rw [hmem] at htransaction
  rw [hmem', htransaction] at htransaction'
  exact (Option.some.inj htransaction').symm

end Pools

end OAuth

open OAuth

/-- **A state is used once, and bound.**  In any interleaving of calls, no more callbacks
for a state succeed than transactions were begun for it.  Each success has read a
transaction that was there at that moment, unexpired and matching, and has a verified
identity; where the state was begun once, that transaction is the one it consumed. -/
theorem oauth_state_single_use (fromisoformat : String → Option Moment)
    (validator : GoogleOAuthCallbackValidator) (actions : List (Action Call OAuthDraw)) :
    let final := Runs.final (system fromisoformat validator).act (Pool.init ∅)
    (∀ state, redeemed (final actions) state ≤ begun (final actions) state) ∧
      ∀ i p answer, (final actions).procs[i]? = some p → p.task.isCallback = true →
        p.prog = done (.ok answer) → ∃ identity state transaction consumed,
          answer = some identity ∧
          Justified validator p.task ((final actions).past i) identity state transaction consumed ∧
          (∃ before, before <+: actions ∧ (final before).state.lookup state = some transaction) ∧
          Begun fromisoformat (final actions) transaction ∧
          (begun (final actions) state ≤ 1 → consumed = transaction) := by
  intro final
  obtain ⟨htraced, hcounted⟩ := traced_counted fromisoformat validator actions
  refine ⟨fun state => (Nat.le_add_right _ _).trans (hcounted.redeemed_le state), ?_⟩
  intro i p answer hp hcallback hdone
  have htrail := htraced.1 i p hp
  rw [hdone] at htrail
  have hcame : Came fromisoformat validator p.task ((final actions).past i) (.ok answer) := htrail
  generalize hpast : (final actions).past i = past at hcame
  cases hcame with
  | begun h =>
    cases htask : p.task with
    | begin => rw [htask] at hcallback; cases hcallback
    | validate => rw [htask] at h; cases h
    | validateAndExchange => rw [htask] at h; cases h
  | @redeemed _ identity state transaction consumed h =>
    rw [← hpast] at h ⊢
    obtain ⟨hget, hpop⟩ := h.mem_past
    have hread := hcounted.begun_answered _ (Pool.mem_past.mp hget) state transaction (.inl rfl)
    have htaken := hcounted.begun_answered _ (Pool.mem_past.mp hpop) state consumed (.inr rfl)
    obtain ⟨before, drawn, hbefore, hanswer⟩ := System.answered _ actions _ (Pool.mem_past.mp hget)
    refine ⟨identity, state, transaction, consumed, rfl, h,
      ⟨before, hbefore, (Except.ok.inj hanswer).symm⟩, hread.2, fun hone => ?_⟩
    rw [← hread.1] at hone
    exact begun_unique hone hread.2 htaken.2 (htaken.1.trans hread.1.symm)

/-- A callback of the state "s". -/
def signInCallback : GoogleOAuthCallback := ⟨some "s", some "c", some googleIssuer, some "u"⟩

/-- A transaction is begun and then redeemed, a microsecond before it expires. -/
def signInActions : List (Action Call OAuthDraw) :=
  let d : OAuthDraw := ⟨.ok 0, .ok none⟩
  [.start (.begin "s" "u" (.datetime (.naive 1)) googleIssuer), .step 0 d, .step 0 d,
    .start (.validate signInCallback (some ⟨"1", "a@example.com", true, googleIssuer, none⟩)),
    .step 1 d, .step 1 d, .step 1 d]

/-- The transaction that was checked is the one that is consumed. -/
theorem sign_in_consumes :
    let pool := Runs.final (system (fun _ => none) ⟨["u"]⟩).act (Pool.init ∅) signInActions
    ∃ call identity transaction, pool.task 1 = some call ∧
      Justified ⟨["u"]⟩ call (pool.past 1) identity "s" transaction transaction := by
  obtain ⟨-, hsuccess⟩ := oauth_state_single_use (fun _ => none) ⟨["u"]⟩ signInActions
  obtain ⟨identity, state, transaction, consumed, -, h, -, -, hsame⟩ :=
    hsuccess 1 _ _ rfl rfl rfl
  have hstate : state = "s" := by
    cases h with
    | validate stated => exact (Option.some.inj stated).symm
  subst hstate
  obtain rfl := hsame (by decide +kernel)
  exact ⟨_, identity, _, rfl, h⟩

end AiSaas
