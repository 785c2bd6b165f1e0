import Mathlib.Data.List.Induction

/-!
# Machines with occasional output

A machine reads a word letter by letter, moves between states and now and then
emits a symbol.  It is the abstract form of a record whose status is derived
from the events it has seen and whose effects are what some of them triggered.

* `Mealy.stateAfter`, `Mealy.output` — the state after a word, and what was
  emitted along it.
* `Mealy.stateAfter_concat`, `Mealy.output_concat` — one more letter.
* `Mealy.induction_on_word` — an invariant of state and output together.
-/

/-- A machine over states `σ`, input letters `ι` and output symbols `o`. -/
structure Mealy (σ ι o : Type*) where
  /-- The state after a letter. -/
  next : σ → ι → σ
  /-- The symbol emitted on a letter, if any. -/
  emit : σ → ι → Option o

namespace Mealy

variable {σ ι o : Type*} (m : Mealy σ ι o)

/-- The state a word leads to. -/
def stateAfter (s : σ) (w : List ι) : σ := w.foldl m.next s

/-- The symbols emitted along a word, in order. -/
def output : σ → List ι → List o
  | _, [] => []
  | s, i :: w => (m.emit s i).toList ++ output (m.next s i) w

@[simp] theorem stateAfter_nil (s : σ) : m.stateAfter s [] = s := rfl

@[simp] theorem output_nil (s : σ) : m.output s [] = [] := rfl

@[simp] theorem stateAfter_cons (s : σ) (i : ι) (w : List ι) :
    m.stateAfter s (i :: w) = m.stateAfter (m.next s i) w := rfl

theorem stateAfter_append (s : σ) (w w' : List ι) :
    m.stateAfter s (w ++ w') = m.stateAfter (m.stateAfter s w) w' := List.foldl_append

theorem output_append (s : σ) (w w' : List ι) :
    m.output s (w ++ w') = m.output s w ++ m.output (m.stateAfter s w) w' := by
  induction w generalizing s with
  | nil => rfl
  | cons i w ih => simp [output, ih]

theorem stateAfter_concat (s : σ) (w : List ι) (i : ι) :
    m.stateAfter s (w ++ [i]) = m.next (m.stateAfter s w) i := m.stateAfter_append s w [i]

theorem output_concat (s : σ) (w : List ι) (i : ι) :
    m.output s (w ++ [i]) = m.output s w ++ (m.emit (m.stateAfter s w) i).toList := by
  rw [output_append, output, output_nil, List.append_nil]

/-- A relation between state and output that holds at the start and is kept by
every letter holds after every word. -/
theorem induction_on_word {R : σ → List o → Prop} {s : σ} (h0 : R s [])
    (hstep : ∀ t out i, R t out → R (m.next t i) (out ++ (m.emit t i).toList)) (w : List ι) :
    R (m.stateAfter s w) (m.output s w) := by
  induction w using List.reverseRecOn with
  | nil => exact h0
  | append_singleton w i ih =>
    rw [stateAfter_concat, output_concat]
    exact hstep _ _ i ih

/-- A state every letter keeps is never left. -/
theorem stateAfter_of_absorbing {s : σ} (h : ∀ i, m.next s i = s) (w : List ι) :
    m.stateAfter s w = s := by
  induction w with
  | nil => rfl
  | cons i w ih => rw [stateAfter_cons, h, ih]

end Mealy
