import Mathlib.Algebra.Group.Pi.Basic
import Mathlib.Algebra.Order.Group.Defs
import Mathlib.Algebra.Order.Group.Unbundled.Basic

/-!
# Escrow

Accounts that hold part of their balance back for purchases that are not
settled yet.  An escrow is solvent when every account covers what it holds.

## Main definitions

* `Escrow.deposit`, `Escrow.hold` — move an account's balance, its held part.
* `Escrow.settle` — end a hold and pay for what was used of it.
* `Escrow.Solvent` — every account covers its holds.

## Main results

* `Escrow.Solvent.deposit_iff`, `Escrow.Solvent.hold_iff` — a move keeps a
  solvent escrow solvent exactly when the account covers its holds afterwards.
* `Escrow.Solvent.settle` — a settlement within its hold always does.
-/

/-- What every account owns, and what part of it is held back. -/
@[ext] structure Escrow (α M : Type*) where
  /-- What the account owns. -/
  balance : α → M
  /-- What of it is held back. -/
  held : α → M

namespace Escrow

variable {α M : Type*} [DecidableEq α] [AddCommGroup M] {e : Escrow α M} {a x : α} {m u : M}

/-- What an account can still spend. -/
def available (e : Escrow α M) (a : α) : M := e.balance a - e.held a

/-- An account's balance moves by `m`. -/
def deposit (e : Escrow α M) (a : α) (m : M) : Escrow α M :=
  { e with balance := e.balance + Pi.single a m }

/-- An account's held part moves by `u`. -/
def hold (e : Escrow α M) (a : α) (u : M) : Escrow α M :=
  { e with held := e.held + Pi.single a u }

/-- A hold of `u` ends and `used` is paid. -/
def settle (e : Escrow α M) (a : α) (u used : M) : Escrow α M :=
  (e.hold a (-u)).deposit a (-used)

@[simp] theorem held_deposit : (e.deposit a m).held = e.held := rfl

@[simp] theorem balance_hold : (e.hold a u).balance = e.balance := rfl

theorem balance_deposit : (e.deposit a m).balance x = e.balance x + if x = a then m else 0 := by
  simp [deposit, Pi.single_apply]

theorem held_hold : (e.hold a u).held x = e.held x + if x = a then u else 0 := by
  simp [hold, Pi.single_apply]

/-! ### Solvency -/

variable [PartialOrder M] [IsOrderedAddMonoid M]

/-- Every account covers what it holds. -/
def Solvent (e : Escrow α M) : Prop := ∀ a, e.held a ≤ e.balance a

omit [DecidableEq α] in
theorem Solvent.available_nonneg (h : e.Solvent) (a : α) : 0 ≤ e.available a :=
  sub_nonneg.mpr (h a)

omit [IsOrderedAddMonoid M] in
/-- A deposit, or a withdrawal, keeps the escrow solvent exactly when the
account covers its holds afterwards. -/
theorem Solvent.deposit_iff (h : e.Solvent) :
    (e.deposit a m).Solvent ↔ e.held a ≤ e.balance a + m := by
  constructor
  · intro h'
    simpa [balance_deposit] using h' a
  · intro hcover x
    rw [held_deposit, balance_deposit]
    by_cases hx : x = a
    · rw [hx, if_pos rfl]
      exact hcover
    · simpa [hx] using h x

/-- A hold keeps the escrow solvent exactly when the account covers it. -/
theorem Solvent.hold_iff (h : e.Solvent) :
    (e.hold a u).Solvent ↔ u ≤ e.available a := by
  rw [available, le_sub_iff_add_le']
  constructor
  · intro h'
    simpa [held_hold] using h' a
  · intro hcover x
    rw [balance_hold, held_hold]
    by_cases hx : x = a
    · rw [hx, if_pos rfl]
      exact hcover
    · simpa [hx] using h x

/-- The end of a hold frees what it held. -/
theorem Solvent.free (h : e.Solvent) (hu : 0 ≤ u) : (e.hold a (-u)).Solvent := by
  rw [h.hold_iff]
  exact (neg_nonpos.mpr hu).trans (h.available_nonneg a)

/-- **A settlement within its hold keeps the escrow solvent.** -/
theorem Solvent.settle {used : M} (h : e.Solvent) (hu : 0 ≤ u) (hused : used ≤ u) :
    (e.settle a u used).Solvent := by
  have hfree : (e.hold a (-u)).Solvent := h.free hu
  rw [Escrow.settle, hfree.deposit_iff, held_hold, if_pos rfl, balance_hold]
  exact add_le_add (h a) (neg_le_neg hused)

end Escrow
