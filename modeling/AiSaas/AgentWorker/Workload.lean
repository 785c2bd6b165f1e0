import AiSaas.RunService.Operations

/-!
# What an execution comes to

Away from checkpoints, clocks and keys, what a worker makes of a run is a function of
what the model answers at each step, of the run's limits, and of the units its
reservation can pay: the state it leaves the run in, the texts it puts out, and the
units it charges.

## Main definitions

* `Outcome` — what is seen of a run from outside.
* `Workload` — the answers, the step limit and the units that can be paid.
* `Workload.outcome` — what the loop comes to from a step on.
* `Workload.Ends` — the answers, or the step limit, end the loop within so many calls.

## Main results

* `Workload.Ends.outcome_eq` — more model calls change nothing for answers that end.
-/

namespace AiSaas

/-! ### Outcomes -/

/-- What is seen of a run: its state, the texts that were put out, in order, and the
units that were charged. -/
structure Outcome where
  state : RunState
  tokens : List Json
  committed : ℤ

/-- An outcome with texts before its own. -/
def Outcome.after (tokens : List Json) (o : Outcome) : Outcome :=
  { o with tokens := tokens ++ o.tokens }

theorem Outcome.after_append (tokens tokens' : List Json) (o : Outcome) :
    o.after (tokens ++ tokens') = (o.after tokens').after tokens := by
  rw [after, List.append_assoc]
  rfl

/-- A text as an event holds it. -/
def tokenOf (text : String) : Json := .str (redactText text)

/-! ### Workloads -/

/-- What a worker meets: the model's answers by step, the step limit, and which units
the run's reservation can pay. -/
structure Workload where
  answer : ℤ → ModelResult
  maxSteps : ℤ
  payable : ℤ → Bool

namespace Workload

variable {load : Workload} {left left' : ℕ} {n u : ℤ}

/-- The units that are charged at the end of a run that fails. -/
def charge (load : Workload) (u : ℤ) : ℤ := if load.payable u then u else 0

/-- A run out of steps or of model calls. -/
def exhausted (load : Workload) (u : ℤ) : Outcome := ⟨.failed, [], load.charge u⟩

/-- A run whose last step is done. -/
def finished (load : Workload) (text : Json) (u : ℤ) : Outcome :=
  if load.payable u then ⟨.completed, [text], u⟩ else ⟨.failed, [text], 0⟩

/-- What the loop comes to from a step on, with units used before and model calls left. -/
def outcome (load : Workload) : ℕ → ℤ → ℤ → Outcome
  | 0, _, u => load.exhausted u
  | left + 1, n, u =>
    if n < load.maxSteps then
      match present (load.answer n).approvalId with
      | some _ => ⟨.waitingApproval, [tokenOf "[approval required]"], 0⟩
      | none =>
        if (load.answer n).done then
          load.finished (tokenOf (load.answer n).output) (u + (load.answer n).usageUnits)
        else (load.outcome left (n + 1) (u + (load.answer n).usageUnits)).after
          [tokenOf (load.answer n).output]
    else load.exhausted u

/-- Within so many calls from a step on, an answer is the last or asks for approval,
or the steps run out. -/
def Ends (load : Workload) : ℕ → ℤ → Prop
  | 0, n => load.maxSteps ≤ n
  | left + 1, n => load.maxSteps ≤ n ∨ (present (load.answer n).approvalId).isSome = true ∨
    (load.answer n).done = true ∨ load.Ends left (n + 1)

instance decidableEnds (load : Workload) : ∀ (left : ℕ) (n : ℤ), Decidable (load.Ends left n)
  | 0, n => inferInstanceAs (Decidable (load.maxSteps ≤ n))
  | left + 1, n => @instDecidableOr _ _ _ (@instDecidableOr _ _ _
    (@instDecidableOr _ _ _ (decidableEnds load left (n + 1))))

/-! ### One turn -/

theorem outcome_over (h : left = 0 ∨ load.maxSteps ≤ n) :
    load.outcome left n u = load.exhausted u := by
  rcases left with - | left
  · rfl
  · have hover : ¬ n < load.maxSteps := by omega
    rw [outcome, if_neg hover]

theorem outcome_asks {id : String} (hlt : n < load.maxSteps)
    (hasks : present (load.answer n).approvalId = some id) : load.outcome (left + 1) n u
      = ⟨.waitingApproval, [tokenOf "[approval required]"], 0⟩ := by
  simp only [outcome, if_pos hlt, hasks]

theorem outcome_done (hlt : n < load.maxSteps) (hasks : present (load.answer n).approvalId = none)
    (hdone : (load.answer n).done = true) : load.outcome (left + 1) n u
      = load.finished (tokenOf (load.answer n).output) (u + (load.answer n).usageUnits) := by
  simp only [outcome, if_pos hlt, hasks, hdone, if_true]

theorem outcome_next (hlt : n < load.maxSteps) (hasks : present (load.answer n).approvalId = none)
    (hdone : (load.answer n).done = false) : load.outcome (left + 1) n u
      = (load.outcome left (n + 1) (u + (load.answer n).usageUnits)).after
        [tokenOf (load.answer n).output] := by
  simp only [outcome, if_pos hlt, hasks, hdone, Bool.false_eq_true, if_false]

/-! ### The limit of model calls -/

theorem Ends.next (h : load.Ends (left + 1) n) (hlt : n < load.maxSteps)
    (hasks : present (load.answer n).approvalId = none) (hdone : (load.answer n).done = false) :
    load.Ends left (n + 1) := by
  rcases h with hover | hsome | hlast | hrest
  · omega
  · rw [hasks] at hsome
    cases hsome
  · rw [hdone] at hlast
    cases hlast
  · exact hrest

theorem Ends.mono (h : load.Ends left n) (hle : left ≤ left') : load.Ends left' n := by
  induction left' generalizing left n with
  | zero =>
    obtain rfl : left = 0 := by omega
    exact h
  | succ left' ih =>
    rcases left with - | left
    · exact Or.inl h
    · rcases h with hover | hsome | hlast | hrest
      · exact Or.inl hover
      · exact Or.inr (Or.inl hsome)
      · exact Or.inr (Or.inr (Or.inl hlast))
      · exact Or.inr (Or.inr (Or.inr (ih hrest (by omega))))

/-- **Answers that end within the calls that are left** come to the same with more. -/
theorem Ends.outcome_eq (h : load.Ends left n) (hle : left ≤ left') (u : ℤ) :
    load.outcome left' n u = load.outcome left n u := by
  induction left generalizing left' n u with
  | zero => rw [outcome_over (Or.inr h), outcome_over (Or.inr h)]
  | succ left ih =>
    obtain ⟨left', rfl⟩ : ∃ m, left' = m + 1 := ⟨left' - 1, by omega⟩
    by_cases hlt : n < load.maxSteps
    · cases hasks : present (load.answer n).approvalId with
      | some id => rw [outcome_asks hlt hasks, outcome_asks hlt hasks]
      | none =>
        cases hdone : (load.answer n).done with
        | true => rw [outcome_done hlt hasks hdone, outcome_done hlt hasks hdone]
        | false =>
          rw [outcome_next hlt hasks hdone, outcome_next hlt hasks hdone,
            ih (h.next hlt hasks hdone) (by omega)]
    · rw [outcome_over (Or.inr (Int.not_lt.mp hlt)), outcome_over (Or.inr (Int.not_lt.mp hlt))]

end Workload

end AiSaas
