import AiSaas.Lib.Solo

/-!
# Programs that are run for a while

A program is run for as many operations as there are draws for: to its end, or to
where it is stopped.  The operations it has made are kept, newest first.

## Main definitions

* `Ran`, `Prog.run` — how far a program comes.
* `Prog.Ends` — what a program that is run to its end comes to.
* `Prog.Visits` — the states a program comes to on its course.
* `Prog.Asks` — what a program may ask for.
* `Grows` — what it adds to its past.

## Main results

* `Prog.run_of_trail`, `Prog.run_of_solo` — what holds where a program has come to.
* `Prog.ends_bind`, `Prog.run_of_within` — runs to the end, statement by statement.
* `Prog.run_invariant`, `Prog.Asks.run_rel` — what every operation keeps.
-/

namespace Processes

variable {Op : Type} {Ans : Op → Type} {ε α β σ κ : Type}

/-- How far a program has come: its result, if it is done, the state, and its past. -/
structure Ran (Op : Type) (Ans : Op → Type) (ε α σ : Type) where
  result : Option (Except ε α)
  state : σ
  past : List (Entry Op Ans ε)

namespace Prog

variable {exec : κ → (op : Op) → σ → Except ε (Ans op) × σ}

/-- Run a program for as many operations as there are draws for. -/
def run (exec : κ → (op : Op) → σ → Except ε (Ans op) × σ) :
    Prog Op Ans ε α → List κ → List (Entry Op Ans ε) → σ → Ran Op Ans ε α σ
  | done r, _, past, s => ⟨some r, s, past⟩
  | call _ _, [], past, s => ⟨none, s, past⟩
  | call op next, d :: ds, past, s =>
    match exec d op s with
    | (r, s') => run exec (next r) ds (⟨op, r⟩ :: past) s'

@[simp] theorem run_done (r : Except ε α) (ds : List κ) (past : List (Entry Op Ans ε)) (s : σ) :
    (done r : Prog Op Ans ε α).run exec ds past s = ⟨some r, s, past⟩ := by
  cases ds <;> rfl

@[simp] theorem run_call_nil (op : Op) (next : Except ε (Ans op) → Prog Op Ans ε α)
    (past : List (Entry Op Ans ε)) (s : σ) :
    (call op next).run exec [] past s = ⟨none, s, past⟩ := rfl

@[simp] theorem run_call_cons (op : Op) (next : Except ε (Ans op) → Prog Op Ans ε α) (d : κ)
    (ds : List κ) (past : List (Entry Op Ans ε)) (s : σ) :
    (call op next).run exec (d :: ds) past s
      = (next (exec d op s).1).run exec ds (⟨op, (exec d op s).1⟩ :: past) (exec d op s).2 := rfl

/-- One operation alone. -/
theorem run_perform_cons (op : Op) (d : κ) (ds : List κ) (past : List (Entry Op Ans ε)) (s : σ) :
    (perform op).run exec (d :: ds) past s
      = ⟨some (exec d op s).1, (exec d op s).2, ⟨op, (exec d op s).1⟩ :: past⟩ := by
  rw [perform, run_call_cons, run_done]

variable {P : List (Entry Op Ans ε) → Op → Prop}
  {Q : List (Entry Op Ans ε) → Except ε α → Prop} {past : List (Entry Op Ans ε)}
  {prog : Prog Op Ans ε α}

/-- **The invariant rule for a run.**  What every operation on the trail keeps, of the
past and the state, holds where the program has come to. -/
theorem run_invariant {K : List (Entry Op Ans ε) → σ → Prop} (h : prog.Trail P Q past)
    (hK : ∀ past op s d, P past op → K past s →
      K (⟨op, (exec d op s).1⟩ :: past) (exec d op s).2)
    (ds : List κ) {s : σ} (h0 : K past s) :
    K (prog.run exec ds past s).past (prog.run exec ds past s).state := by
  induction prog generalizing ds past s with
  | done r =>
    rw [run_done]
    exact h0
  | call op next ih =>
    cases ds with
    | nil => exact h0
    | cons d ds => exact ih _ (h.2 _) ds (hK _ _ _ _ h.1 h0)

/-- Every operation of a run draws what it may. -/
def Drawn (exec : κ → (op : Op) → σ → Except ε (Ans op) × σ) (May : κ → Op → σ → Prop) :
    Prog Op Ans ε α → List κ → σ → Prop
  | done _, _, _ => True
  | call _ _, [], _ => True
  | call op next, d :: ds, s =>
    May d op s ∧ Drawn exec May (next (exec d op s).1) ds (exec d op s).2

/-! ### Runs to the end -/

/-- The program can end with this result in this state, on draws that may be made. -/
inductive Ends (exec : κ → (op : Op) → σ → Except ε (Ans op) × σ) (May : κ → Prop) :
    Prog Op Ans ε α → σ → Except ε α → σ → Prop
  | done (r : Except ε α) (s : σ) : Ends exec May (done r) s r s
  | call {op : Op} {next : Except ε (Ans op) → Prog Op Ans ε α} {s : σ} {d : κ} {r : Except ε α}
      {s' : σ} (may : May d) (rest : Ends exec May (next (exec d op s).1) (exec d op s).2 r s') :
      Ends exec May (call op next) s r s'

section Ends

variable {May : κ → Prop} {s s' : σ} {r : Except ε α}

theorem ends_done_iff {r' : Except ε α} :
    (done r' : Prog Op Ans ε α).Ends exec May s r s' ↔ r' = r ∧ s = s' := by
  constructor
  · rintro ⟨⟩
    exact ⟨rfl, rfl⟩
  · rintro ⟨rfl, rfl⟩
    exact .done _ _

/-- A run that is done has ended. -/
theorem ends_of_run {ds : List κ} (h : (prog.run exec ds past s).result = some r)
    (hds : ∀ d ∈ ds, May d) : prog.Ends exec May s r (prog.run exec ds past s).state := by
  induction prog generalizing ds past s with
  | done r' =>
    rw [run_done] at h ⊢
    obtain rfl := Option.some.inj h
    exact .done _ _
  | call op next ih =>
    cases ds with
    | nil => cases h
    | cons d ds =>
      exact .call (hds d List.mem_cons_self) (ih _ h fun d hd => hds d (List.mem_cons_of_mem _ hd))

theorem ends_of_result {ds : List κ} (h : (prog.run exec ds past s).result = some r) :
    prog.Ends exec (fun _ => True) s r (prog.run exec ds past s).state :=
  ends_of_run h fun _ _ => trivial

theorem ends_perform {op : Op} {a : Except ε (Ans op)}
    (h : (perform op).Ends exec May s a s') : ∃ d, May d ∧ exec d op s = (a, s') := by
  obtain - | @⟨_, _, _, d, _, _, may, rest⟩ := h
  obtain ⟨ha, hs⟩ := ends_done_iff.mp rest
  exact ⟨d, may, Prod.ext ha hs⟩

/-- **How a sequence ends**: where its first part raises, or where its second part ends. -/
theorem ends_bind {first : Prog Op Ans ε β} {next : β → Prog Op Ans ε α}
    (h : (first >>= next).Ends exec May s r s') :
    (∃ e, first.Ends exec May s (.error e) s' ∧ r = .error e) ∨
      ∃ b t, first.Ends exec May s (.ok b) t ∧ (next b).Ends exec May t r s' := by
  change (first.bind next).Ends exec May s r s' at h
  induction first generalizing s with
  | done r' =>
    rcases r' with e | b
    · obtain ⟨rfl, rfl⟩ := ends_done_iff.mp h
      exact Or.inl ⟨e, .done _ _, rfl⟩
    · exact Or.inr ⟨b, s, .done _ _, h⟩
  | call op k ih =>
    obtain - | ⟨may, rest⟩ := h
    rcases ih _ rest with ⟨e, hfirst, hr⟩ | ⟨b, t, hfirst, hnext⟩
    · exact Or.inl ⟨e, .call may hfirst, hr⟩
    · exact Or.inr ⟨b, t, .call may hfirst, hnext⟩

/-- A computation without operations comes first. -/
theorem ends_done_bind {x : Except ε β} {next : β → Prog Op Ans ε α}
    (h : (done x >>= next).Ends exec May s r s') :
    (∃ e, x = .error e ∧ r = .error e ∧ s' = s) ∨
      ∃ b, x = .ok b ∧ (next b).Ends exec May s r s' := by
  cases x with
  | error e =>
    obtain ⟨hr, hs⟩ := ends_done_iff.mp h
    exact Or.inl ⟨e, rfl, hr.symm, hs.symm⟩
  | ok b => exact Or.inr ⟨b, rfl, h⟩

theorem ends_attempt {x : Except ε (Except ε α)} (h : prog.attempt.Ends exec May s x s') :
    ∃ r, x = .ok r ∧ prog.Ends exec May s r s' := by
  induction prog generalizing s with
  | done r' =>
    obtain ⟨rfl, rfl⟩ := ends_done_iff.mp h
    exact ⟨r', rfl, .done _ _⟩
  | call op next ih =>
    obtain - | ⟨may, rest⟩ := h
    obtain ⟨r, hx, hrest⟩ := ih _ rest
    exact ⟨r, hx, .call may hrest⟩

/-- With a draw for every operation a program comes to its end. -/
theorem run_of_within {n : ℕ} (h : prog.Within (fun _ _ => True) n) {ds : List κ}
    (hds : n ≤ ds.length) (s : σ) : ∃ r, (prog.run exec ds past s).result = some r := by
  induction prog generalizing n ds past s with
  | done r' => exact ⟨r', by rw [run_done]⟩
  | call op next ih =>
    cases n with
    | zero => exact absurd h id
    | succ n =>
      cases ds with
      | nil => exact absurd hds (Nat.not_succ_le_zero n)
      | cons d ds => exact ih _ (h _ trivial) (Nat.le_of_succ_le_succ hds) _

end Ends

/-! ### Where a program passes -/

/-- The program can come to this state, to be stopped there or to go on. -/
inductive Visits (exec : κ → (op : Op) → σ → Except ε (Ans op) × σ) (May : κ → Prop) :
    Prog Op Ans ε α → σ → σ → Prop
  | here (prog : Prog Op Ans ε α) (s : σ) : Visits exec May prog s s
  | call {op : Op} {next : Except ε (Ans op) → Prog Op Ans ε α} {s : σ} {d : κ} {s' : σ}
      (may : May d) (rest : Visits exec May (next (exec d op s).1) (exec d op s).2 s') :
      Visits exec May (call op next) s s'

section Visits

variable {May : κ → Prop} {s s' : σ}

/-- A run has come to a state of the program's course. -/
theorem visits_of_run {ds : List κ} (hds : ∀ d ∈ ds, May d) :
    prog.Visits exec May s (prog.run exec ds past s).state := by
  induction prog generalizing ds past s with
  | done r =>
    rw [run_done]
    exact .here _ _
  | call op next ih =>
    cases ds with
    | nil => exact .here _ _
    | cons d ds =>
      exact .call (hds d List.mem_cons_self) (ih _ fun d hd => hds d (List.mem_cons_of_mem _ hd))

theorem visits_of_state (ds : List κ) :
    prog.Visits exec (fun _ => True) s (prog.run exec ds past s).state :=
  visits_of_run fun _ _ => trivial

theorem visits_done {r : Except ε α} (h : (done r : Prog Op Ans ε α).Visits exec May s s') :
    s' = s := by
  cases h
  rfl

theorem visits_call {op : Op} {next : Except ε (Ans op) → Prog Op Ans ε α}
    (h : (call op next).Visits exec May s s') : s' = s ∨
      ∃ d, May d ∧ (next (exec d op s).1).Visits exec May (exec d op s).2 s' := by
  cases h with
  | here => exact Or.inl rfl
  | call may rest => exact Or.inr ⟨_, may, rest⟩

theorem visits_perform {op : Op} (h : (perform op : Prog Op Ans ε (Ans op)).Visits exec May s s') :
    s' = s ∨ ∃ d, May d ∧ s' = (exec d op s).2 := by
  rcases visits_call h with rfl | ⟨d, may, hrest⟩
  · exact Or.inl rfl
  · exact Or.inr ⟨d, may, visits_done hrest⟩

/-- **The course of a sequence**: in its first part, or behind it. -/
theorem visits_bind {first : Prog Op Ans ε β} {next : β → Prog Op Ans ε α}
    (h : (first >>= next).Visits exec May s s') : first.Visits exec May s s' ∨
      ∃ b t, first.Ends exec May s (.ok b) t ∧ (next b).Visits exec May t s' := by
  change (first.bind next).Visits exec May s s' at h
  induction first generalizing s with
  | done r =>
    rcases r with e | b
    · rw [visits_done h]
      exact Or.inl (.here _ _)
    · exact Or.inr ⟨b, s, .done _ _, h⟩
  | call op k ih =>
    rcases visits_call h with rfl | ⟨d, may, hrest⟩
    · exact Or.inl (.here _ _)
    · rcases ih _ hrest with hfirst | ⟨b, t, hends, hnext⟩
      · exact Or.inl (.call may hfirst)
      · exact Or.inr ⟨b, t, .call may hends, hnext⟩

/-- Where a program ends, it has come to. -/
theorem Ends.visits {r : Except ε α} (h : prog.Ends exec May s r s') :
    prog.Visits exec May s s' := by
  induction h with
  | done r s => exact .here _ _
  | call may _ ih => exact .call may ih

end Visits

/-! ### What a program asks for -/

/-- Every operation the program may ask for meets `P`, whatever is answered. -/
inductive Asks (P : Op → Prop) : Prog Op Ans ε α → Prop
  | done (r : Except ε α) : Asks P (done r)
  | call {op : Op} {next : Except ε (Ans op) → Prog Op Ans ε α} (asked : P op)
      (rest : ∀ r, Asks P (next r)) : Asks P (call op next)

section Asks

variable {P P' : Op → Prop} {first : Prog Op Ans ε β} {next : β → Prog Op Ans ε α}

theorem asks_perform {op : Op} (h : P op) : (perform op : Prog Op Ans ε (Ans op)).Asks P :=
  .call h fun r => .done r

theorem Asks.mono (h : prog.Asks P) (hP : ∀ op, P op → P' op) : prog.Asks P' := by
  induction h with
  | done r => exact .done r
  | call asked _ ih => exact .call (hP _ asked) ih

/-- **What a sequence asks for.** -/
theorem Asks.bind (h : first.Asks P) (hnext : ∀ b, (next b).Asks P) :
    (first >>= next).Asks P := by
  change (first.bind next).Asks P
  induction h with
  | done r =>
    cases r with
    | ok b => exact hnext b
    | error e => exact .done _
  | call asked _ ih => exact .call asked ih

/-- A computation without operations, whose value is known. -/
theorem asks_done_bind {x : Except ε β} (hnext : ∀ b, x = .ok b → (next b).Asks P) :
    (Prog.done x >>= next : Prog Op Ans ε α).Asks P := by
  cases x with
  | ok b => exact hnext b rfl
  | error e => exact .done _

theorem Asks.attempt (h : prog.Asks P) : prog.attempt.Asks P := by
  induction h with
  | done r => exact .done _
  | call asked _ ih => exact .call asked ih

theorem Asks.ite {c : Prop} [Decidable c] {other : Prog Op Ans ε α} (hpos : c → prog.Asks P)
    (hneg : ¬ c → other.Asks P) : (if c then prog else other).Asks P := by
  split
  · next h => exact hpos h
  · next h => exact hneg h

/-- The invariant rule for what is asked for. -/
theorem Asks.run_invariant {I : σ → Prop} (h : prog.Asks P)
    (hI : ∀ op, P op → ∀ d s, I s → I (exec d op s).2) (ds : List κ) {s : σ} (h0 : I s) :
    I (prog.run exec ds past s).state := by
  induction h generalizing ds past s with
  | done r =>
    rw [run_done]
    exact h0
  | call asked _ ih =>
    cases ds with
    | nil => exact h0
    | cons d ds => exact ih _ ds (hI _ asked d s h0)

/-- The invariant rule along a program's course. -/
theorem Asks.visits_invariant {May : κ → Prop} {I : σ → Prop} (h : prog.Asks P)
    (hI : ∀ op, P op → ∀ d s, I s → I (exec d op s).2) {s s' : σ}
    (hv : prog.Visits exec May s s') (h0 : I s) : I s' := by
  induction hv with
  | here prog s => exact h0
  | call may rest ih =>
    obtain - | ⟨asked, hrest⟩ := h
    exact ih (hrest _) (hI _ asked _ _ h0)

/-- A reflexive and transitive relation that every operation of a program keeps relates
the state it started in to the one it has come to. -/
theorem Asks.run_rel {R : σ → σ → Prop} (hrefl : ∀ s, R s s)
    (htrans : ∀ {s t u}, R s t → R t u → R s u) (h : prog.Asks P)
    (hR : ∀ op, P op → ∀ d s, R s (exec d op s).2) (ds : List κ) (s : σ) :
    R s (prog.run exec ds past s).state :=
  h.run_invariant (I := R s) (fun op hop d _ hst => htrans hst (hR op hop d _)) ds (hrefl s)

end Asks

end Prog

/-! ### What a program adds to its past -/

/-- A past with operations on top that all meet a condition. -/
def Grows (A : Op → Prop) (past past' : List (Entry Op Ans ε)) : Prop :=
  ∃ new, past' = new ++ past ∧ ∀ e ∈ new, A e.op

section Grows

variable {A : Op → Prop} {past past' past'' : List (Entry Op Ans ε)}

theorem grows_refl (past : List (Entry Op Ans ε)) : Grows A past past :=
  ⟨[], rfl, fun _ he => absurd he List.not_mem_nil⟩

theorem Grows.cons (h : Grows A past past') {op : Op} (hop : A op) (r : Except ε (Ans op)) :
    Grows A past (⟨op, r⟩ :: past') := by
  obtain ⟨new, rfl, hnew⟩ := h
  exact ⟨⟨op, r⟩ :: new, rfl, List.forall_mem_cons.mpr ⟨hop, hnew⟩⟩

theorem Grows.trans (h : Grows A past past') (h' : Grows A past' past'') :
    Grows A past past'' := by
  obtain ⟨new, rfl, hnew⟩ := h
  obtain ⟨new', rfl, hnew'⟩ := h'
  refine ⟨new' ++ new, (List.append_assoc ..).symm, ?_⟩
  intro e he
  rcases List.mem_append.mp he with he | he
  · exact hnew' e he
  · exact hnew e he

/-- What was done is still done. -/
theorem Grows.mem (h : Grows A past past') {e : Entry Op Ans ε} (he : e ∈ past) : e ∈ past' := by
  obtain ⟨new, rfl, -⟩ := h
  exact List.mem_append_right _ he

/-- What is new met the condition. -/
theorem Grows.cases (h : Grows A past past') {e : Entry Op Ans ε} (he : e ∈ past') :
    A e.op ∨ e ∈ past := by
  obtain ⟨new, rfl, hnew⟩ := h
  rcases List.mem_append.mp he with he | he
  · exact Or.inl (hnew e he)
  · exact Or.inr he

/-- **What a program asks for is what it adds to its past.** -/
theorem Prog.Asks.trail {P : List (Entry Op Ans ε) → Op → Prop} {prog : Prog Op Ans ε α}
    (h : prog.Asks A) (hP : ∀ past' op, Grows A past past' → A op → P past' op) :
    prog.Trail P (fun past' _ => Grows A past past') past := by
  have hfrom : ∀ past', Grows A past past' →
      prog.Trail P (fun past' _ => Grows A past past') past' := by
    induction h with
    | done r => exact fun past' hgrows => hgrows
    | call asked _ ih =>
      intro past' hgrows
      exact ⟨hP past' _ hgrows asked, fun r => ih r _ (hgrows.cons asked r)⟩
  exact hfrom past (grows_refl past)

end Grows

end Processes
