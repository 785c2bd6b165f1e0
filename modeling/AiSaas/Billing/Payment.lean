import AiSaas.Billing.Models
import AiSaas.Lib.Mealy

/-!
# The life of a payment

What an order is for, apart from how it is stored: it reads the statuses of the
provider facts about it, one by one, and its own status is a function of those
read so far.  Becoming paid grants its credits, and a refund of a paid order
takes them back; nothing else has an effect.  The billing store is shown to be
this machine in `AiSaas.Billing.Payments`.

## Main definitions

* `Payment.Effect` — a grant or a refund.
* `Payment.machine` — the machine; `Payment.status` and `Payment.effects` are
  its state and output on a history.
* `Payment.lostRefund` — the histories whose refund is forgotten.

## Main results

* `Payment.effects_cases` — nothing, a grant, or a grant and then a refund; the
  order counts as paid in the second case only.
* `Payment.status_eq_succeeded_iff` — after a refund, an order counts as paid
  exactly on the histories of `lostRefund`.
-/

namespace AiSaas.Payment

/-- What a provider fact does to the credits an order paid for. -/
inductive Effect where
  | grant
  | refund
  deriving DecidableEq, Repr

/-- The status after a fact.  A pending order takes on any status; one whose
outcome is not known yet can only be found paid; a paid one can only be
refunded; the other statuses are final. -/
def next : Status → Status → Status
  | .pending, e => e
  | .unknown, .succeeded => .succeeded
  | .succeeded, .refunded => .refunded
  | s, _ => s

/-- The effect of a fact. -/
def effect : Status → Status → Option Effect
  | .pending, .succeeded => some .grant
  | .unknown, .succeeded => some .grant
  | .succeeded, .refunded => some .refund
  | _, _ => none

/-- A grant leaves the order paid, and finds it pending or of unknown outcome. -/
theorem effect_eq_grant {s e : Status} :
    effect s e = some .grant ↔ e = .succeeded ∧ (s = .pending ∨ s = .unknown) := by
  cases s <;> cases e <;> simp [effect]

/-- A refund finds the order paid. -/
theorem effect_eq_refund {s e : Status} :
    effect s e = some .refund ↔ e = .refunded ∧ s = .succeeded := by
  cases s <;> cases e <;> simp [effect]

/-- Without an effect, a pending order takes on the status and another keeps its own. -/
theorem next_of_effect_eq_none {s e : Status} (h : effect s e = none) :
    next s e = if s = .pending then e else s := by
  cases s <;> cases e <;> first | rfl | simp [effect] at h

/-- Without an effect, an order does not start or stop counting as paid. -/
theorem next_eq_succeeded_iff {s e : Status} (h : effect s e = none) :
    next s e = .succeeded ↔ s = .succeeded := by
  cases s <;> cases e <;> first | decide | simp [effect] at h

/-- The life of a payment as a machine. -/
def machine : Mealy Status Status Effect := ⟨next, effect⟩

/-- The status of an order with the given history. -/
def status (h : List Status) : Status := machine.stateAfter .pending h

/-- The effects of a history. -/
def effects (h : List Status) : List Effect := machine.output .pending h

@[simp] theorem status_nil : status [] = .pending := rfl

@[simp] theorem effects_nil : effects [] = [] := rfl

theorem status_concat (h : List Status) (e : Status) :
    status (h ++ [e]) = next (status h) e := machine.stateAfter_concat _ h e

theorem effects_concat (h : List Status) (e : Status) :
    effects (h ++ [e]) = effects h ++ (effect (status h) e).toList :=
  machine.output_concat _ h e

/-- **The effects of a history**: none on an unpaid order, a grant on a paid
one, and a grant and its refund once that is paid back. -/
theorem effects_cases (h : List Status) :
    (effects h = [] ∧ status h ≠ .succeeded) ∨
      (effects h = [.grant] ∧ status h = .succeeded) ∨
        (effects h = [.grant, .refund] ∧ status h = .refunded) := by
  refine machine.induction_on_word (R := fun s out =>
    (out = [] ∧ s ≠ .succeeded) ∨ (out = [.grant] ∧ s = .succeeded) ∨
      (out = [.grant, .refund] ∧ s = .refunded)) (Or.inl ⟨rfl, by decide⟩) ?_ h
  rintro s out e (⟨rfl, hs⟩ | ⟨rfl, rfl⟩ | ⟨rfl, rfl⟩)
  · cases s <;> cases e <;> simp_all [machine, next, effect]
  · cases e <;> simp [machine, next, effect]
  · cases e <;> simp [machine, next, effect]

/-! ### Refunds that are forgotten -/

/-- The histories that start, but for pending facts, with an unknown outcome,
see a refund before the first success and none after it. -/
def lostRefund (h : List Status) : Bool :=
  match h.dropWhile (· == .pending) with
  | .unknown :: rest =>
    (rest.takeWhile (· != .succeeded)).contains .refunded &&
      (rest.dropWhile (· != .succeeded)).contains .succeeded &&
        !(rest.dropWhile (· != .succeeded)).contains .refunded
  | _ => false

/-- A paid order stays paid exactly until a refund. -/
theorem stateAfter_succeeded (h : List Status) :
    machine.stateAfter .succeeded h = .succeeded ↔ .refunded ∉ h := by
  induction h with
  | nil => simp
  | cons e h ih =>
    have hdone : machine.stateAfter .refunded h = .refunded :=
      machine.stateAfter_of_absorbing (fun e => by cases e <;> rfl) h
    cases e <;> simp [machine, next] at ih hdone ⊢ <;> simp [ih, hdone]

/-- An order of unknown outcome counts as paid exactly when a success comes and
no refund follows the first one. -/
theorem stateAfter_unknown (h : List Status) :
    machine.stateAfter .unknown h = .succeeded ↔
      .succeeded ∈ h.dropWhile (· != .succeeded) ∧ .refunded ∉ h.dropWhile (· != .succeeded) := by
  induction h with
  | nil => simp
  | cons e h ih =>
    cases e with
    | succeeded =>
      have hpaid := stateAfter_succeeded h
      simpa [machine, next] using hpaid
    | pending => simpa [machine, next] using ih
    | failed => simpa [machine, next] using ih
    | cancelled => simpa [machine, next] using ih
    | refunded => simpa [machine, next] using ih
    | unknown => simpa [machine, next] using ih

/-- A final status other than paid is never left. -/
theorem stateAfter_final {s : Status} (hs : s = .failed ∨ s = .cancelled ∨ s = .refunded)
    (h : List Status) : machine.stateAfter s h = s := by
  apply machine.stateAfter_of_absorbing
  intro e
  rcases hs with rfl | rfl | rfl <;> cases e <;> rfl

/-- **When a refund is forgotten.**  An order that has seen a refund counts as
paid exactly on the histories of `lostRefund`. -/
theorem status_eq_succeeded_iff {h : List Status} (href : .refunded ∈ h) :
    status h = .succeeded ↔ lostRefund h = true := by
  induction h with
  | nil => simp at href
  | cons e h ih =>
    have hfinal := fun s hs => stateAfter_final (s := s) hs h
    simp only [machine] at hfinal
    cases e with
    | pending =>
      -- a pending fact changes neither side
      have hrest : .refunded ∈ h := by simpa using href
      simpa [status, machine, next, lostRefund] using ih hrest
    | succeeded =>
      have hrest : .refunded ∈ h := by simpa using href
      have hpaid := stateAfter_succeeded h
      simp [status, machine, next, lostRefund] at hpaid ⊢
      simp [hpaid, hrest]
    | unknown =>
      have hrest : .refunded ∈ h := by simpa using href
      have hunk := stateAfter_unknown h
      -- a refund that is not after the first success is before it
      have hsplit : .refunded ∈ h.takeWhile (· != .succeeded) ∨
          .refunded ∈ h.dropWhile (· != .succeeded) := by
        rw [← List.mem_append, List.takeWhile_append_dropWhile]
        exact hrest
      simp only [status, Mealy.stateAfter_cons]
      rw [show machine.next .pending .unknown = .unknown from rfl, hunk]
      simp only [lostRefund, List.dropWhile_cons_of_neg (p := (· == Status.pending))
        (a := Status.unknown) (l := h) (by decide), Bool.and_eq_true, List.contains_iff_mem,
        Bool.not_eq_true', ← Bool.not_eq_true]
      tauto
    | failed => simp [status, machine, next, lostRefund, hfinal .failed (by simp)]
    | cancelled => simp [status, machine, next, lostRefund, hfinal .cancelled (by simp)]
    | refunded => simp [status, machine, next, lostRefund, hfinal .refunded (by simp)]

end AiSaas.Payment
