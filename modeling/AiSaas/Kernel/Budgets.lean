import AiSaas.Lib.Runs
import Mathlib.Algebra.BigOperators.Fin
import Mathlib.Tactic.FinCases

/-!
# The token budget ledger

A ledger reserves the tokens of model calls against the limits of its policy and the
tenant's quota.  A call is asked for with its phase and its token counts; the ledger
answers with a decision, and keeps the accounts of what it allowed.

* `TokenBudgetLedger.reserve` — the guards in their order.
* `TokenBudgetLedger.Within` — the accounts are inside every limit.
* `reserve_cases` — what a call can do to a ledger.
* `accounts_exact` — the accounts after any calls, and why a call is refused.
-/

namespace AiSaas

/-! ### Policies and accounts -/

inductive BudgetStatus where
  | allowed
  | quotaPaused
  | budgetExceeded
deriving DecidableEq

structure BudgetDecision where
  allowed : Bool
  status : BudgetStatus
  reason : String
  totalUsed : ℤ
  totalLimit : ℤ
  primaryCalls : ℤ
  retries : ℤ
deriving DecidableEq

structure BudgetPolicy where
  mode : String
  phaseLimits : Fin 3 → ℤ
  totalLimit : ℤ
  perCallInputLimit : ℤ := 8000
  maxPrimaryCalls : ℤ := 5
  maxRetries : ℤ := 1

def BudgetPolicy.localLite (mode : String) : Except String BudgetPolicy :=
  if mode = "plan_only" then
    .ok { mode := mode, phaseLimits := ![2000, 9000, 9000], totalLimit := 20000 }
  else if mode = "verify" then
    .ok { mode := mode, phaseLimits := ![20000, 16000, 5000], totalLimit := 41000 }
  else .error "mode must be plan_only or verify"

structure TokenBudgetLedger where
  policy : BudgetPolicy
  quotaLimit : Option ℤ
  totalUsed : ℤ
  primaryCalls : ℤ
  retries : ℤ
  decisions : List BudgetDecision
  phaseUsed : Fin 3 → ℤ

/-- The arguments of a call; any integer may be given for the phase and the counts. -/
structure Reservation where
  phase : ℤ
  inputTokens : ℤ
  outputTokens : ℤ
  retry : Bool
deriving DecidableEq

def Reservation.amount (c : Reservation) : ℤ := c.inputTokens + c.outputTokens

namespace TokenBudgetLedger

def new (policy : BudgetPolicy) (quotaLimit : Option ℤ) : TokenBudgetLedger where
  policy := policy
  quotaLimit := quotaLimit
  totalUsed := 0
  primaryCalls := 0
  retries := 0
  decisions := []
  phaseUsed := fun _ => 0

/-- `_decision`: the answer shows the accounts, and is kept. -/
def decision (l : TokenBudgetLedger) (allowed : Bool) (status : BudgetStatus) (reason : String) :
    Except String BudgetDecision × TokenBudgetLedger :=
  let d : BudgetDecision :=
    ⟨allowed, status, reason, l.totalUsed, l.policy.totalLimit, l.primaryCalls, l.retries⟩
  (.ok d, { l with decisions := l.decisions ++ [d] })

/-- The tokens and the call on the accounts. -/
def charge (l : TokenBudgetLedger) (phase : Fin 3) (c : Reservation) : TokenBudgetLedger :=
  { l with
    totalUsed := l.totalUsed + c.amount
    phaseUsed := fun p => if p = phase then l.phaseUsed p + c.amount else l.phaseUsed p
    retries := if c.retry then l.retries + 1 else l.retries
    primaryCalls := if c.retry then l.primaryCalls else l.primaryCalls + 1 }

/-- `phase in range(3)`. -/
def phase? (phase : ℤ) : Option (Fin 3) :=
  if phase = 0 then some 0 else if phase = 1 then some 1 else if phase = 2 then some 2 else none

def reserve (l : TokenBudgetLedger) (c : Reservation) :
    Except String BudgetDecision × TokenBudgetLedger :=
  match phase? c.phase with
  | none => (.error "phase must be 0, 1, or 2", l)
  | some phase =>
    if c.inputTokens > l.policy.perCallInputLimit then
      l.decision false .budgetExceeded "per-call input limit exceeded"
    else if c.inputTokens < 0 ∨ c.outputTokens < 0 then
      l.decision false .budgetExceeded "negative token usage"
    else if c.retry ∧ l.retries ≥ l.policy.maxRetries then
      l.decision false .budgetExceeded "retry limit exceeded"
    else if !c.retry ∧ l.primaryCalls ≥ l.policy.maxPrimaryCalls then
      l.decision false .budgetExceeded "primary model-call limit exceeded"
    else if l.quotaLimit.any fun quota => l.totalUsed + c.amount > quota then
      l.decision false .quotaPaused "tenant quota exhausted"
    else if l.totalUsed + c.amount > l.policy.totalLimit then
      l.decision false .budgetExceeded "total token budget exhausted"
    else if l.phaseUsed phase + c.amount > l.policy.phaseLimits phase then
      l.decision false .budgetExceeded "phase token budget exhausted"
    else (l.charge phase c).decision true .allowed "within Local Lite budget"

/-- The ledger after a call. -/
def step (l : TokenBudgetLedger) (c : Reservation) : TokenBudgetLedger := (l.reserve c).2

/-- The call is allowed. -/
def Allows (l : TokenBudgetLedger) (c : Reservation) : Prop :=
  ∃ d, (l.reserve c).1 = .ok d ∧ d.allowed = true

/-- The call is answered, and not allowed. -/
def Refuses (l : TokenBudgetLedger) (c : Reservation) : Prop :=
  ∃ d, (l.reserve c).1 = .ok d ∧ d.allowed = false

instance (l : TokenBudgetLedger) (c : Reservation) : Decidable (l.Allows c) :=
  match h : (l.reserve c).1 with
  | .error _ => isFalse fun ⟨_, hd, _⟩ => by rw [h] at hd; cases hd
  | .ok d =>
    if ha : d.allowed = true then isTrue ⟨d, h, ha⟩
    else isFalse fun ⟨_, hd, ha'⟩ => ha (by rw [h] at hd; cases hd; exact ha')

/-- The calls of a run that were allowed, in order. -/
def allowedCalls (l : TokenBudgetLedger) : List Reservation → List Reservation
  | [] => []
  | c :: cs => (if l.Allows c then [c] else []) ++ (l.step c).allowedCalls cs

/-! ### Limits -/

/-- No limit is negative. -/
structure NonNegative (policy : BudgetPolicy) (quotaLimit : Option ℤ) : Prop where
  total : 0 ≤ policy.totalLimit
  quota : ∀ q ∈ quotaLimit, 0 ≤ q
  phases : ∀ p, 0 ≤ policy.phaseLimits p
  primary : 0 ≤ policy.maxPrimaryCalls
  retries : 0 ≤ policy.maxRetries

/-- The accounts are inside every limit. -/
structure Within (l : TokenBudgetLedger) : Prop where
  total : l.totalUsed ≤ l.policy.totalLimit
  quota : ∀ q ∈ l.quotaLimit, l.totalUsed ≤ q
  phases : ∀ p, l.phaseUsed p ≤ l.policy.phaseLimits p
  primary : l.primaryCalls ≤ l.policy.maxPrimaryCalls
  retries : l.retries ≤ l.policy.maxRetries

/-- The call asks for too much input, or counts below zero. -/
def Malformed (l : TokenBudgetLedger) (c : Reservation) : Prop :=
  c.inputTokens > l.policy.perCallInputLimit ∨ c.inputTokens < 0 ∨ c.outputTokens < 0

/-- The accounts of two ledgers agree. -/
structure SameAccounts (l l' : TokenBudgetLedger) : Prop where
  policy : l'.policy = l.policy
  quota : l'.quotaLimit = l.quotaLimit
  total : l'.totalUsed = l.totalUsed
  phases : l'.phaseUsed = l.phaseUsed
  primary : l'.primaryCalls = l.primaryCalls
  retries : l'.retries = l.retries

variable {l l' : TokenBudgetLedger} {c : Reservation}

theorem sameAccounts_refl (l : TokenBudgetLedger) : l.SameAccounts l := ⟨rfl, rfl, rfl, rfl, rfl, rfl⟩

theorem sameAccounts_decision (l : TokenBudgetLedger) (allowed : Bool) (status : BudgetStatus)
    (reason : String) : l.SameAccounts (l.decision allowed status reason).2 :=
  ⟨rfl, rfl, rfl, rfl, rfl, rfl⟩

theorem within_congr (h : l.SameAccounts l') : l'.Within ↔ l.Within := by
  constructor
  · rintro ⟨ht, hq, hp, hc, hr⟩
    rw [h.total, h.policy] at ht
    rw [h.quota, h.total] at hq
    rw [h.phases, h.policy] at hp
    rw [h.primary, h.policy] at hc
    rw [h.retries, h.policy] at hr
    exact ⟨ht, hq, hp, hc, hr⟩
  · rintro ⟨ht, hq, hp, hc, hr⟩
    refine ⟨?_, ?_, ?_, ?_, ?_⟩
    · rwa [h.total, h.policy]
    · rwa [h.quota, h.total]
    · rwa [h.phases, h.policy]
    · rwa [h.primary, h.policy]
    · rwa [h.retries, h.policy]

/-! ### What a call does -/

theorem charge_phaseUsed_sum (l : TokenBudgetLedger) (phase : Fin 3) (c : Reservation) :
    ∑ p, (l.charge phase c).phaseUsed p = (∑ p, l.phaseUsed p) + c.amount := by
  simp only [Fin.sum_univ_three, charge]
  fin_cases phase <;> simp <;> omega

theorem of_decision {status : BudgetStatus} {reason : String}
    (h : l.reserve c = l.decision false status reason) :
    l.Refuses c ∧ l.SameAccounts (l.step c) := by
  refine ⟨⟨_, by rw [h]; rfl, rfl⟩, ?_⟩
  rw [step, h]
  exact sameAccounts_decision l false status reason

/-- **The cases of a call.**  It raises and leaves the ledger; or it is refused, the accounts
stay, and it was malformed or would have put them outside a limit; or it is allowed,
well formed, and charged to accounts that stay inside. -/
theorem reserve_cases (l : TokenBudgetLedger) (c : Reservation) :
    (phase? c.phase = none ∧ l.reserve c = (.error "phase must be 0, 1, or 2", l)) ∨
      (∃ phase, phase? c.phase = some phase ∧ l.Refuses c ∧ l.SameAccounts (l.step c) ∧
        (l.Malformed c ∨ ¬ (l.charge phase c).Within)) ∨
      ∃ phase, phase? c.phase = some phase ∧ l.Allows c ∧
        (l.charge phase c).SameAccounts (l.step c) ∧ ¬ l.Malformed c ∧
        (l.Within → (l.charge phase c).Within) := by
  cases hphase : phase? c.phase with
  | none => exact Or.inl ⟨rfl, by simp [reserve, hphase]⟩
  | some phase =>
    refine Or.inr ?_
    -- a guard that answers leaves its decision and nothing else
    have hrefused : ∀ status reason, l.reserve c = l.decision false status reason →
        (l.Malformed c ∨ ¬ (l.charge phase c).Within) →
        ∃ p, some phase = some p ∧ l.Refuses c ∧ l.SameAccounts (l.step c) ∧
          (l.Malformed c ∨ ¬ (l.charge p c).Within) := fun _ _ h hwhy =>
      ⟨phase, rfl, (of_decision h).1, (of_decision h).2, hwhy⟩
    by_cases hinput : c.inputTokens > l.policy.perCallInputLimit
    · refine Or.inl (hrefused .budgetExceeded "per-call input limit exceeded" ?_ (Or.inl (Or.inl hinput)))
      rw [reserve, hphase]
      exact if_pos hinput
    by_cases hneg : c.inputTokens < 0 ∨ c.outputTokens < 0
    · refine Or.inl (hrefused .budgetExceeded "negative token usage" ?_ (Or.inl (Or.inr hneg)))
      rw [reserve, hphase]
      dsimp only
      rw [if_neg hinput, if_pos hneg]
    by_cases hretry : c.retry = true ∧ l.retries ≥ l.policy.maxRetries
    · refine Or.inl (hrefused .budgetExceeded "retry limit exceeded" ?_ (Or.inr fun h => ?_))
      · rw [reserve, hphase]
        dsimp only
        rw [if_neg hinput, if_neg hneg, if_pos hretry]
      · have hmore : l.retries + 1 ≤ l.policy.maxRetries := by
          simpa [charge, hretry.1] using h.retries
        omega
    by_cases hprimary : (!c.retry) = true ∧ l.primaryCalls ≥ l.policy.maxPrimaryCalls
    · have hnot : c.retry = false := by simpa using hprimary.1
      refine Or.inl (hrefused .budgetExceeded "primary model-call limit exceeded" ?_ (Or.inr fun h => ?_))
      · rw [reserve, hphase]
        dsimp only
        rw [if_neg hinput, if_neg hneg, if_neg hretry, if_pos hprimary]
      · have hmore : l.primaryCalls + 1 ≤ l.policy.maxPrimaryCalls := by
          simpa [charge, hnot] using h.primary
        omega
    by_cases hquota : (l.quotaLimit.any fun quota => l.totalUsed + c.amount > quota) = true
    · refine Or.inl (hrefused .quotaPaused "tenant quota exhausted" ?_ (Or.inr fun h => ?_))
      · rw [reserve, hphase]
        dsimp only
        rw [if_neg hinput, if_neg hneg, if_neg hretry, if_neg hprimary, if_pos hquota]
      · obtain ⟨quota, hq, hover⟩ := (Option.any_eq_true _ _).mp hquota
        exact absurd (h.quota quota hq) (not_le.mpr (of_decide_eq_true hover))
    by_cases htotal : l.totalUsed + c.amount > l.policy.totalLimit
    · refine Or.inl (hrefused .budgetExceeded "total token budget exhausted" ?_ (Or.inr fun h => ?_))
      · rw [reserve, hphase]
        dsimp only
        rw [if_neg hinput, if_neg hneg, if_neg hretry, if_neg hprimary, if_neg hquota, if_pos htotal]
      · exact absurd h.total (not_le.mpr htotal)
    by_cases hused : l.phaseUsed phase + c.amount > l.policy.phaseLimits phase
    · refine Or.inl (hrefused .budgetExceeded "phase token budget exhausted" ?_ (Or.inr fun h => ?_))
      · rw [reserve, hphase]
        dsimp only
        rw [if_neg hinput, if_neg hneg, if_neg hretry, if_neg hprimary, if_neg hquota,
          if_neg htotal, if_pos hused]
      · have hmore : l.phaseUsed phase + c.amount ≤ l.policy.phaseLimits phase := by
          simpa [charge] using h.phases phase
        omega
    refine Or.inr ⟨phase, rfl, ?_⟩
    have hallowed : l.reserve c = (l.charge phase c).decision true .allowed "within Local Lite budget" := by
      rw [reserve, hphase]
      dsimp only
      rw [if_neg hinput, if_neg hneg, if_neg hretry, if_neg hprimary, if_neg hquota,
        if_neg htotal, if_neg hused]
    refine ⟨⟨_, by rw [hallowed]; rfl, rfl⟩, ?_, ?_, fun h => ⟨?_, ?_, ?_, ?_, ?_⟩⟩
    · rw [step, hallowed]
      exact sameAccounts_decision _ true .allowed _
    · rintro (h | h)
      · exact hinput h
      · exact hneg h
    · exact not_lt.mp htotal
    · intro q hq
      have hle : ¬ l.totalUsed + c.amount > q := by
        intro hover
        exact hquota ((Option.any_eq_true _ _).mpr ⟨q, hq, decide_eq_true hover⟩)
      exact not_lt.mp hle
    · intro p
      by_cases hp : p = phase
      · subst hp
        simpa [charge] using not_lt.mp hused
      · simpa [charge, hp] using h.phases p
    · show (if c.retry then l.primaryCalls else l.primaryCalls + 1) ≤ l.policy.maxPrimaryCalls
      split
      · exact h.primary
      · next hr =>
        have := not_and.mp hprimary (by simpa using hr)
        omega
    · show (if c.retry then l.retries + 1 else l.retries) ≤ l.policy.maxRetries
      split
      · next hr =>
        have := not_and.mp hretry hr
        omega
      · exact h.retries

theorem sameAccounts_of_not_allows (h : ¬ l.Allows c) : l.SameAccounts (l.step c) := by
  obtain ⟨-, hraised⟩ | ⟨_, -, -, hsame, -⟩ | ⟨_, -, hallowed, -⟩ := l.reserve_cases c
  · rw [step, hraised]
    exact sameAccounts_refl l
  · exact hsame
  · exact absurd hallowed h

theorem charged_of_allows (h : l.Allows c) : ∃ phase,
    (l.charge phase c).SameAccounts (l.step c) ∧ (l.Within → (l.charge phase c).Within) := by
  obtain ⟨d, hd, hallowed⟩ := h
  obtain ⟨-, hraised⟩ | ⟨_, -, ⟨d', hd', hnot⟩, -⟩ | ⟨phase, -, -, hsame, -, hwithin⟩ :=
    l.reserve_cases c
  · rw [hraised] at hd
    cases hd
  · rw [hd] at hd'
    cases hd'
    rw [hallowed] at hnot
    cases hnot
  · exact ⟨phase, hsame, hwithin⟩

/-- The tokens of a call count when it is allowed. -/
theorem totalUsed_step (l : TokenBudgetLedger) (c : Reservation) :
    (l.step c).totalUsed = l.totalUsed + if l.Allows c then c.amount else 0 := by
  split
  · next h =>
    obtain ⟨phase, hsame, -⟩ := charged_of_allows h
    exact hsame.total
  · next h => rw [(sameAccounts_of_not_allows h).total, add_zero]

/-- A call counts, as a primary one or as a retry, when it is allowed. -/
theorem calls_step (l : TokenBudgetLedger) (c : Reservation) :
    (l.step c).primaryCalls + (l.step c).retries
      = l.primaryCalls + l.retries + if l.Allows c then 1 else 0 := by
  split
  · next h =>
    obtain ⟨phase, hsame, -⟩ := charged_of_allows h
    rw [hsame.primary, hsame.retries]
    cases hr : c.retry <;> simp [charge, hr] <;> omega
  · next h =>
    have hsame := sameAccounts_of_not_allows h
    rw [hsame.primary, hsame.retries, add_zero]

/-- The total is what the phases add up to. -/
def Balanced (l : TokenBudgetLedger) : Prop := l.totalUsed = ∑ p, l.phaseUsed p

theorem balanced_step (c : Reservation) (h : l.Balanced) : (l.step c).Balanced := by
  unfold Balanced at h ⊢
  by_cases ha : l.Allows c
  · obtain ⟨phase, hsame, -⟩ := charged_of_allows ha
    rw [hsame.total, hsame.phases, charge_phaseUsed_sum, ← h]
    rfl
  · have hsame := sameAccounts_of_not_allows ha
    rw [hsame.total, hsame.phases, h]

theorem within_step (c : Reservation) (h : l.Within) : (l.step c).Within := by
  by_cases ha : l.Allows c
  · obtain ⟨phase, hsame, hwithin⟩ := charged_of_allows ha
    exact (within_congr hsame).mpr (hwithin h)
  · exact (within_congr (sameAccounts_of_not_allows ha)).mpr h

theorem limits_step (l : TokenBudgetLedger) (c : Reservation) :
    (l.step c).policy = l.policy ∧ (l.step c).quotaLimit = l.quotaLimit := by
  by_cases ha : l.Allows c
  · obtain ⟨phase, hsame, -⟩ := charged_of_allows ha
    exact ⟨hsame.policy, hsame.quota⟩
  · exact ⟨(sameAccounts_of_not_allows ha).policy, (sameAccounts_of_not_allows ha).quota⟩

/-! ### Runs of calls -/

theorem totalUsed_final (l : TokenBudgetLedger) (calls : List Reservation) :
    (Runs.final step l calls).totalUsed
      = l.totalUsed + ((l.allowedCalls calls).map Reservation.amount).sum := by
  induction calls generalizing l with
  | nil => simp [allowedCalls]
  | cons c calls ih =>
    rw [Runs.final_cons, ih, totalUsed_step, allowedCalls, add_assoc]
    split <;> simp

theorem calls_final (l : TokenBudgetLedger) (calls : List Reservation) :
    (Runs.final step l calls).primaryCalls + (Runs.final step l calls).retries
      = l.primaryCalls + l.retries + (l.allowedCalls calls).length := by
  induction calls generalizing l with
  | nil => simp [allowedCalls]
  | cons c calls ih =>
    rw [Runs.final_cons, ih, calls_step, allowedCalls, add_assoc]
    split
    · simp only [List.length_append, List.length_singleton]
      omega
    · simp

theorem within_new {policy : BudgetPolicy} {quotaLimit : Option ℤ} (h : NonNegative policy quotaLimit) :
    (new policy quotaLimit).Within :=
  ⟨h.total, h.quota, h.phases, h.primary, h.retries⟩

/-- **The ledger.**  After any calls the total is what the phases add up to, and the tokens of
the calls that were allowed; the counted calls are those; the accounts are inside the
limits, where no limit is negative; a call that is not allowed leaves the accounts; and
one that is refused was malformed or would have put them outside a limit. -/
theorem accounts_exact (policy : BudgetPolicy) (quotaLimit : Option ℤ) (calls : List Reservation) :
    let l := Runs.final step (new policy quotaLimit) calls
    (l.policy = policy ∧ l.quotaLimit = quotaLimit) ∧
      l.totalUsed = ∑ p, l.phaseUsed p ∧
      l.totalUsed = (((new policy quotaLimit).allowedCalls calls).map Reservation.amount).sum ∧
      l.primaryCalls + l.retries = ((new policy quotaLimit).allowedCalls calls).length ∧
      (NonNegative policy quotaLimit → l.Within) ∧
      (∀ c, ¬ l.Allows c → l.SameAccounts (l.step c)) ∧
      ∀ c, l.Refuses c → ∃ phase, phase? c.phase = some phase ∧
        (l.Malformed c ∨ ¬ (l.charge phase c).Within) := by
  intro l
  have hlimits : l.policy = policy ∧ l.quotaLimit = quotaLimit :=
    Runs.invariant (I := fun l => l.policy = policy ∧ l.quotaLimit = quotaLimit) ⟨rfl, rfl⟩
      (fun l c h => ⟨(limits_step l c).1.trans h.1, (limits_step l c).2.trans h.2⟩) calls
  have htotal := totalUsed_final (new policy quotaLimit) calls
  have hcalls := calls_final (new policy quotaLimit) calls
  refine ⟨hlimits, ?_, ?_, ?_, ?_, fun c => sameAccounts_of_not_allows, ?_⟩
  · exact Runs.invariant (I := Balanced) (by simp [Balanced, new]) (fun l c h => balanced_step c h) calls
  · rw [show (new policy quotaLimit).totalUsed = 0 from rfl, zero_add] at htotal
    exact htotal
  · rw [show (new policy quotaLimit).primaryCalls = 0 from rfl,
      show (new policy quotaLimit).retries = 0 from rfl, add_zero, zero_add] at hcalls
    exact hcalls
  · intro hnonneg
    exact Runs.invariant (I := Within) (within_new hnonneg) (fun l c h => within_step c h) calls
  · rintro c ⟨d, hd, hnot⟩
    obtain ⟨-, hraised⟩ | ⟨phase, hphase, -, -, hwhy⟩ | ⟨phase, -, ⟨d', hd', hallowed⟩, -⟩ :=
      l.reserve_cases c
    · rw [hraised] at hd
      cases hd
    · exact ⟨phase, hphase, hwhy⟩
    · rw [hd] at hd'
      cases hd'
      rw [hnot] at hallowed
      cases hallowed

example : ((new { mode := "plan_only", phaseLimits := ![2000, 9000, 9000], totalLimit := 20000 } none).allowedCalls
    [⟨0, 1500, 400, false⟩, ⟨0, 100, 1, false⟩, ⟨3, 1, 1, false⟩, ⟨1, 8000, 900, true⟩]).length = 2 := by
  decide

end TokenBudgetLedger

end AiSaas
