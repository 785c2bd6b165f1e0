import Mathlib.Tactic.Common

/-!
# Transactions

The body of a transaction reads a state and either raises or returns a value
with a new state.  `atomically` runs a body to its end: it commits the state of
a body that returns and rolls back to the state before a body that raises.

## Main definitions

* `Tx ε σ α` — the body of a transaction.
* `Tx.map` — a body with its value passed on through a function.
* `atomically` — commit on return, roll back on raise.
* `ensure`, `orRaise` — raise unless a condition holds, unless a value is there.
* `Alike R` — two computations that raise the same, or return what `R` relates.

## Main results

* `bind_eq_ok` — peeling one statement off a body that returned.
* `snd_atomically_of_error` — a call that raises changes nothing.
* `snd_atomically_of` — what a returning body keeps, the transaction keeps.
* `Alike.atomically` — bodies that are alike leave states that are related.
-/

namespace Transaction

universe u

variable {ε σ : Type*} {α β : Type u}

/-- The body of a transaction over the state `σ`. -/
abbrev Tx (ε σ α : Type*) := σ → Except ε (α × σ)

/-- Run a body as one transaction: the outcome, and the state afterwards. -/
def atomically (body : Tx ε σ α) (s : σ) : Except ε α × σ :=
  match body s with
  | .ok (a, s') => (.ok a, s')
  | .error e => (.error e, s)

/-- The body with its value passed on through `f`. -/
def Tx.map (f : α → β) (body : Tx ε σ α) : Tx ε σ β := fun s =>
  (body s).map fun p => (f p.1, p.2)

/-- Raise `e` unless `c` holds. -/
def ensure (c : Bool) (e : ε) : Except ε Unit := if c then .ok () else .error e

/-- The value, or raise `e` when there is none. -/
def orRaise (x : Option α) (e : ε) : Except ε α := x.elim (.error e) .ok

/-- A sequence of two statements returns when both do. -/
theorem bind_eq_ok {x : Except ε α} {f : α → Except ε β} {b : β} :
    x >>= f = .ok b ↔ ∃ a, x = .ok a ∧ f a = .ok b := by
  rcases x with e | a <;> simp [bind, Except.bind]

/-- A value that is passed on through a function is returned when it is there. -/
theorem map_eq_ok {x : Except ε α} {f : α → β} {b : β} :
    x.map f = .ok b ↔ ∃ a, x = .ok a ∧ f a = b := by
  rcases x with e | a <;> simp [Except.map]

/-- Two values that may be missing are passed on alike if they are when they are there. -/
theorem map_eq_map {γ : Type*} {f f' : α → β} {g g' : α → γ} (hfg : ∀ a b, f a = f' b → g a = g' b)
    {x y : Except ε α} (h : x.map f = y.map f') : x.map g = y.map g' := by
  cases x with
  | error e =>
    cases y with
    | error e' => exact congrArg Except.error (Except.error.inj h)
    | ok b => cases h
  | ok a =>
    cases y with
    | error e => cases h
    | ok b => exact congrArg Except.ok (hfg a b (Except.ok.inj h))

@[simp] theorem ensure_eq_ok {c : Bool} {e : ε} {u : Unit} : ensure c e = .ok u ↔ c = true := by
  cases c <;> simp [ensure]

@[simp] theorem orRaise_eq_ok {x : Option α} {e : ε} {a : α} :
    orRaise x e = .ok a ↔ x = some a := by
  cases x <;> simp [orRaise]

/-- Values that are all returned, one after the other. -/
theorem mapM_cons_eq_ok {f : α → Except ε β} {a : α} {l : List α} {results : List β} :
    (a :: l).mapM f = .ok results ↔ ∃ b rest, f a = .ok b ∧ l.mapM f = .ok rest ∧ results = b :: rest := by
  rw [List.mapM_cons]
  simp only [bind_eq_ok]
  constructor
  · rintro ⟨b, hb, rest, hrest, h⟩
    exact ⟨b, rest, hb, hrest, (Except.ok.inj h).symm⟩
  · rintro ⟨b, rest, hb, hrest, rfl⟩
    exact ⟨b, hb, rest, hrest, rfl⟩

/-- A list of values that are all returned, one after the other. -/
theorem mapM_eq_ok_iff {f : α → Except ε β} {l : List α} {results : List β} :
    l.mapM f = .ok results ↔ List.Forall₂ (fun a b => f a = .ok b) l results := by
  induction l generalizing results with
  | nil =>
    constructor
    · intro h
      obtain rfl := Except.ok.inj h
      exact .nil
    · intro h
      cases h
      rfl
  | cons a l ih =>
    rw [mapM_cons_eq_ok]
    constructor
    · rintro ⟨b, rest, hb, hrest, rfl⟩
      exact .cons hb (ih.mp hrest)
    · intro h
      cases h with
      | cons hb hrest => exact ⟨_, _, hb, ih.mpr hrest, rfl⟩

/-- A list each of whose members has a result has them all. -/
theorem exists_mapM_eq_ok {f : α → Except ε β} {l : List α}
    (h : ∀ a ∈ l, ∃ b, f a = .ok b) : ∃ results, l.mapM f = .ok results := by
  induction l with
  | nil => exact ⟨[], rfl⟩
  | cons a l ih =>
    obtain ⟨b, hb⟩ := h a List.mem_cons_self
    obtain ⟨rest, hrest⟩ := ih fun a' ha => h a' (List.mem_cons_of_mem a ha)
    exact ⟨b :: rest, mapM_cons_eq_ok.mpr ⟨b, rest, hb, hrest, rfl⟩⟩

theorem exists_of_mapM {f : α → Except ε β} {l : List α} {results : List β}
    (h : l.mapM f = .ok results) : (∀ a ∈ l, ∃ b ∈ results, f a = .ok b) ∧
      ∀ b ∈ results, ∃ a ∈ l, f a = .ok b := by
  induction l generalizing results with
  | nil =>
    obtain rfl : [] = results := Except.ok.inj h
    exact ⟨fun _ ha => absurd ha List.not_mem_nil, fun _ hb => absurd hb List.not_mem_nil⟩
  | cons a l ih =>
    obtain ⟨b, rest, hb, hrest, rfl⟩ := mapM_cons_eq_ok.mp h
    obtain ⟨hleft, hright⟩ := ih hrest
    constructor
    · intro x hx
      rcases List.mem_cons.mp hx with rfl | hx
      · exact ⟨b, List.mem_cons_self, hb⟩
      · obtain ⟨y, hy, hxy⟩ := hleft x hx
        exact ⟨y, List.mem_cons_of_mem _ hy, hxy⟩
    · intro y hy
      rcases List.mem_cons.mp hy with rfl | hy
      · exact ⟨a, List.mem_cons_self, hb⟩
      · obtain ⟨x, hx, hxy⟩ := hright y hy
        exact ⟨x, List.mem_cons_of_mem _ hx, hxy⟩

theorem Tx.map_eq_ok {f : α → β} {body : Tx ε σ α} {s s' : σ} {b : β} :
    Tx.map f body s = .ok (b, s') ↔ ∃ a, body s = .ok (a, s') ∧ f a = b := by
  cases hb : body s with
  | error e => simp [Tx.map, hb, Except.map]
  | ok p => simp [Tx.map, hb, Except.map, Prod.ext_iff]; tauto

theorem Tx.map_eq_error {f : α → β} {body : Tx ε σ α} {s : σ} {e : ε} :
    Tx.map f body s = .error e ↔ body s = .error e := by
  cases hb : body s <;> simp [Tx.map, hb, Except.map]

theorem atomically_of_ok {body : Tx ε σ α} {s s' : σ} {a : α} (h : body s = .ok (a, s')) :
    atomically body s = (.ok a, s') := by simp [atomically, h]

theorem atomically_of_error {body : Tx ε σ α} {s : σ} {e : ε} (h : body s = .error e) :
    atomically body s = (.error e, s) := by simp [atomically, h]

/-- A transaction returns what its body does, or raises and changes nothing. -/
theorem atomically_cases (body : Tx ε σ α) (s : σ) :
    (∃ a s', body s = .ok (a, s') ∧ atomically body s = (.ok a, s')) ∨
      ∃ e, body s = .error e ∧ atomically body s = (.error e, s) := by
  cases hb : body s with
  | error e => exact Or.inr ⟨e, rfl, atomically_of_error hb⟩
  | ok p => exact Or.inl ⟨p.1, p.2, rfl, atomically_of_ok hb⟩

/-- **A call that raises changes nothing.** -/
theorem snd_atomically_of_error {body : Tx ε σ α} {s : σ} {e : ε}
    (h : (atomically body s).1 = .error e) : (atomically body s).2 = s := by
  cases hb : body s with
  | error e' => rw [atomically_of_error hb]
  | ok p =>
    obtain ⟨a, s'⟩ := p
    rw [atomically_of_ok hb] at h
    simp at h

/-- **What a returning body keeps, the transaction keeps**: a property of the
state that holds before and after every body that returns holds after the
transaction, raised or not. -/
theorem snd_atomically_of {body : Tx ε σ α} {s : σ} {I : σ → Prop} (h0 : I s)
    (h : ∀ a s', body s = .ok (a, s') → I s') : I (atomically body s).2 := by
  cases hb : body s with
  | error e => rw [atomically_of_error hb]; exact h0
  | ok p =>
    obtain ⟨a, s'⟩ := p
    rw [atomically_of_ok hb]
    exact h a s' hb

/-- Passing the value on leaves the same state. -/
theorem snd_atomically_map (f : α → β) (body : Tx ε σ α) (s : σ) :
    (atomically (Tx.map f body) s).2 = (atomically body s).2 := by
  cases hb : body s with
  | error e => rw [atomically_of_error hb, atomically_of_error (Tx.map_eq_error.mpr hb)]
  | ok p =>
    obtain ⟨a, s'⟩ := p
    rw [atomically_of_ok hb, atomically_of_ok (Tx.map_eq_ok.mpr ⟨a, hb, rfl⟩)]

/-! ### Two computations -/

/-- Two computations raise the same, or return what is related. -/
inductive Alike {γ : Type u} {δ : Type u} (R : γ → δ → Prop) : Except ε γ → Except ε δ → Prop
  | error (e : ε) : Alike R (.error e) (.error e)
  | ok {a : γ} {b : δ} (h : R a b) : Alike R (.ok a) (.ok b)

section Alike

variable {γ δ : Type u}

theorem Alike.bind {R : α → β → Prop} {T : γ → δ → Prop} {x : Except ε α} {y : Except ε β}
    {f : α → Except ε γ} {g : β → Except ε δ} (h : Alike R x y)
    (hfg : ∀ a b, R a b → Alike T (f a) (g b)) : Alike T (x >>= f) (y >>= g) := by
  cases h with
  | error e => exact .error e
  | ok hab => exact hfg _ _ hab

/-- What two computations begin with alike, they are alike behind. -/
theorem alike_bind {T : γ → δ → Prop} {x : Except ε α} {f : α → Except ε γ} {g : α → Except ε δ}
    (h : ∀ a, Alike T (f a) (g a)) : Alike T (x >>= f) (x >>= g) := by
  cases x with
  | error e => exact .error e
  | ok a => exact h a

/-- **Bodies that are alike leave states that are related.** -/
theorem Alike.atomically {body : Tx ε σ α} {body' : Tx ε σ β} {T : σ → σ → Prop} {s : σ}
    (hs : T s s) (h : Alike (fun p q => T p.2 q.2) (body s) (body' s)) :
    T (atomically body s).2 (Transaction.atomically body' s).2 := by
  rw [Transaction.atomically, Transaction.atomically]
  generalize body s = x, body' s = y at h
  cases h with
  | error e => exact hs
  | ok hab => exact hab

end Alike

end Transaction
