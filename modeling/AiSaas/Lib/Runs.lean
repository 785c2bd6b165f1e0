import Mathlib.Data.List.Infix

/-!
# Runs of a transition system

A transition system is a function `step : σ → κ → σ`: the state after a call.
A run is a list of calls, and its states are the states its prefixes lead to.
Three kinds of property are carried along runs: what holds of every state
reached (an invariant), what is assumed of every call in the state it is made
in (`Along`), and what relates an earlier state to every later one.

## Main definitions

* `final step s cs` — the state the calls `cs` lead to from `s`.
* `Along step P s cs` — each call of the run meets `P` where it is made.

## Main results

* `Along.invariant` — the induction rule for invariants of conditioned runs.
* `rel_final` — the induction rule for relations between earlier and later states.
-/

namespace Runs

variable {σ κ : Type*} {step : σ → κ → σ} {P Q : σ → κ → Prop} {I : σ → Prop}

/-- The state a list of calls leads to. -/
def final (step : σ → κ → σ) (s : σ) (cs : List κ) : σ := cs.foldl step s

/-- Every call of the run from `s` meets `P` in the state it is made in. -/
def Along (step : σ → κ → σ) (P : σ → κ → Prop) : σ → List κ → Prop
  | _, [] => True
  | s, c :: cs => P s c ∧ Along step P (step s c) cs

instance decidableAlong [∀ s c, Decidable (P s c)] :
    ∀ (s : σ) (cs : List κ), Decidable (Along step P s cs)
  | _, [] => isTrue trivial
  | s, c :: cs => @instDecidableAnd _ _ _ (decidableAlong (step s c) cs)

@[simp] theorem final_nil (s : σ) : final step s [] = s := rfl

@[simp] theorem final_cons (s : σ) (c : κ) (cs : List κ) :
    final step s (c :: cs) = final step (step s c) cs := rfl

theorem final_append (s : σ) (cs cs' : List κ) :
    final step s (cs ++ cs') = final step (final step s cs) cs' := List.foldl_append

/-- A run that goes on by one call. -/
theorem final_take_succ {s : σ} {cs : List κ} {n : ℕ} {c : κ} (h : cs[n]? = some c) :
    final step s (cs.take (n + 1)) = step (final step s (cs.take n)) c := by
  rw [List.take_add_one, h, final_append]
  rfl

@[simp] theorem along_nil (s : σ) : Along step P s [] := trivial

@[simp] theorem along_cons (s : σ) (c : κ) (cs : List κ) :
    Along step P s (c :: cs) ↔ P s c ∧ Along step P (step s c) cs := Iff.rfl

theorem Along.mono (hPQ : ∀ s c, P s c → Q s c) {s : σ} {cs : List κ}
    (h : Along step P s cs) : Along step Q s cs := by
  induction cs generalizing s with
  | nil => trivial
  | cons c cs ih => exact ⟨hPQ s c h.1, ih h.2⟩

/-- Conditions that agree on every call agree on every run. -/
theorem along_congr (hPQ : ∀ s c, P s c ↔ Q s c) {s : σ} {cs : List κ} :
    Along step P s cs ↔ Along step Q s cs :=
  ⟨Along.mono fun s c => (hPQ s c).mp, Along.mono fun s c => (hPQ s c).mpr⟩

/-- A condition that every call meets holds along every run. -/
theorem along_of_forall (h : ∀ s c, P s c) (s : σ) (cs : List κ) : Along step P s cs := by
  induction cs generalizing s with
  | nil => trivial
  | cons c cs ih => exact ⟨h s c, ih (step s c)⟩

theorem Along.mono_of_mem {s : σ} {cs : List κ} (h : Along step P s cs)
    (hPQ : ∀ c ∈ cs, ∀ s, P s c → Q s c) : Along step Q s cs := by
  induction cs generalizing s with
  | nil => trivial
  | cons c cs ih =>
    exact ⟨hPQ c List.mem_cons_self s h.1, ih h.2 fun c' hc => hPQ c' (List.mem_cons_of_mem c hc)⟩

/-- A condition that the calls of a run meet in every state holds along the run. -/
theorem along_of_mem {s : σ} {cs : List κ} (h : ∀ c ∈ cs, ∀ s, P s c) : Along step P s cs :=
  (along_of_forall (P := fun _ _ => True) (fun _ _ => trivial) s cs).mono_of_mem
    fun c hc s _ => h c hc s

theorem along_append {s : σ} {cs cs' : List κ} : Along step P s (cs ++ cs') ↔
    Along step P s cs ∧ Along step P (final step s cs) cs' := by
  induction cs generalizing s with
  | nil => simp
  | cons c cs ih =>
    rw [List.cons_append, along_cons, along_cons, ih, and_assoc]
    rfl

/-- **The invariant rule.**  What holds at the start and is kept by every call
that meets the run's condition holds where the run ends. -/
theorem Along.invariant {s : σ} {cs : List κ} (h : Along step P s cs) (h0 : I s)
    (hstep : ∀ s c, P s c → I s → I (step s c)) : I (final step s cs) := by
  induction cs generalizing s with
  | nil => exact h0
  | cons c cs ih => exact ih h.2 (hstep s c h.1 h0)

/-- The invariant rule for runs without a condition. -/
theorem invariant {s : σ} (h0 : I s) (hstep : ∀ s c, I s → I (step s c)) (cs : List κ) :
    I (final step s cs) :=
  (along_of_forall (P := fun _ _ => True) (fun _ _ => trivial) s cs).invariant h0
    fun s c _ => hstep s c

/-- Along a run whose states meet an invariant, a condition gives another. -/
theorem Along.mono_invariant {s : σ} {cs : List κ} (h : Along step P s cs) (h0 : I s)
    (hstep : ∀ s c, I s → I (step s c)) (hPQ : ∀ s c, I s → P s c → Q s c) :
    Along step Q s cs := by
  induction cs generalizing s with
  | nil => trivial
  | cons c cs ih => exact ⟨hPQ s c h0 h.1, ih h.2 (hstep s c h0)⟩

/-- Along a run whose states meet an invariant, conditions that agree under the
invariant agree on the run. -/
theorem Along.congr_invariant {R : σ → κ → Prop} {s : σ} {cs : List κ} (h : Along step P s cs)
    (h0 : I s) (hstep : ∀ s c, P s c → I s → I (step s c))
    (hQR : ∀ s c, I s → P s c → (Q s c ↔ R s c)) : Along step Q s cs ↔ Along step R s cs := by
  induction cs generalizing s with
  | nil => rfl
  | cons c cs ih =>
    rw [along_cons, along_cons, hQR s c h0 h.1, ih h.2 (hstep s c h.1 h0)]

/-- Conditions that agree under an invariant, which a call that meets them keeps, agree
on every run. -/
theorem along_iff_of_invariant {s : σ} {cs : List κ} (h0 : I s)
    (hstep : ∀ s c, I s → P s c → I (step s c)) (hPQ : ∀ s c, I s → (P s c ↔ Q s c)) :
    Along step P s cs ↔ Along step Q s cs := by
  induction cs generalizing s with
  | nil => rfl
  | cons c cs ih =>
    rw [along_cons, along_cons, ← hPQ s c h0]
    exact and_congr_right fun hc => ih (hstep s c h0 hc)

/-- **The relation rule.**  A reflexive and transitive relation between each
state and the next, in states that meet an invariant, relates every state to
every later one. -/
theorem rel_final {R : σ → σ → Prop} (hrefl : ∀ s, R s s)
    (htrans : ∀ {s t u}, R s t → R t u → R s u) (hI : ∀ s c, I s → I (step s c))
    (hR : ∀ s c, I s → R s (step s c)) {s : σ} (h0 : I s) (cs : List κ) :
    R s (final step s cs) := by
  induction cs generalizing s with
  | nil => exact hrefl s
  | cons c cs ih => exact htrans (hR s c h0) (ih (hI s c h0))

end Runs
