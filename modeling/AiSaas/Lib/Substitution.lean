import Mathlib.Data.List.Basic
import Mathlib.Data.List.Forall2
import Mathlib.Data.List.TakeWhile
import Mathlib.Tactic.Common

/-!
# Substitution of patterns at word boundaries

`re.sub` for patterns that start at a word boundary: a pattern looks at a text from
some place on and knows whether what is in front of that place is a word character.
The leftmost match is replaced by a token and the search goes on behind it.

When the token holds no match and closes off what it stands between, a substitution
done twice is the substitution done once; and a later substitution does not bring
back a match of an earlier pattern, if that pattern cannot look through the token.

## Main definitions

* `Pattern` — what is matched at the front of a text.
* `substitute` — `re.sub`.
* `Rewrites` — how a text becomes its substitution, character by character.
* `Clear`, `ClearIn` — a text in which a pattern matches nowhere, or not in its first part.
* `spell`, `many`, `many1`, `runTail`, `seq`, `alternatives`, `atBoundary` — the pieces
  patterns are made of.
* `Bars` — a character that no match passes.

## Main results

* `substitute_eq` — a substitution is the one way to rewrite a text.

* `substitute_of_clear` — a text without a match stays as it is.
* `clear_substitute` — after a substitution its own pattern matches nowhere.
* `Clear.substitute` — an earlier pattern matches nowhere afterwards either.
-/

namespace Substitution

variable {α : Type*}

/-- What a pattern matches at the front of a text, given whether a word character is in
front: whether the match ends in one, and what follows. -/
abbrev Pattern (α : Type*) := Bool → List α → Option (Bool × List α)

/-- `re.sub` from some place on, within a number of steps. -/
def substituteWithin (word : α → Bool) (p : Pattern α) (token : List α) :
    ℕ → Bool → List α → List α
  | 0, _, s => s
  | _ + 1, _, [] => []
  | fuel + 1, b, c :: s =>
    match p b (c :: s) with
    | some (b', rest) => token ++ substituteWithin word p token fuel b' rest
    | none => c :: substituteWithin word p token fuel (word c) s

/-- `re.sub`. -/
def substitute (word : α → Bool) (p : Pattern α) (token s : List α) : List α :=
  substituteWithin word p token s.length false s

/-- How a text becomes its substitution. -/
inductive Rewrites (word : α → Bool) (p : Pattern α) (token : List α) :
    Bool → List α → List α → Prop
  | nil (b : Bool) : Rewrites word p token b [] []
  | keep {b : Bool} {c : α} {s t : List α} (none : p b (c :: s) = none)
      (rest : Rewrites word p token (word c) s t) : Rewrites word p token b (c :: s) (c :: t)
  | swap {b b' : Bool} {s rest t : List α} (found : p b s = some (b', rest))
      (next : Rewrites word p token b' rest t) : Rewrites word p token b s (token ++ t)

/-- The pattern matches nowhere. -/
def Clear (word : α → Bool) (p : Pattern α) : Bool → List α → Prop
  | _, [] => True
  | b, c :: s => p b (c :: s) = none ∧ Clear word p (word c) s

/-- The pattern matches nowhere in the first part of a text. -/
def ClearIn (word : α → Bool) (p : Pattern α) : Bool → List α → List α → Prop
  | _, [], _ => True
  | b, c :: u, t => p b (c :: u ++ t) = none ∧ ClearIn word p (word c) u t

/-- A pattern that starts and ends at word boundaries, with a word character first. -/
structure Lawful (word : α → Bool) (p : Pattern α) : Prop where
  head : ∀ ⦃b s r⦄, p b s = some r → b = false ∧ ∃ c s', s = c :: s' ∧ word c = true
  consumes : ∀ ⦃b s b' rest⦄, p b s = some (b', rest) → ∃ u c, s = u ++ c :: rest ∧ b' = word c
  tail : ∀ ⦃b s rest⦄, p b s = some (true, rest) → ∀ c ∈ rest.head?, word c = false

/-- What `p` matches in front of a rewritten text, it matches in front of the text. -/
def Local (word : α → Bool) (p q : Pattern α) (token : List α) : Prop :=
  ∀ ⦃b : Bool⦄ ⦃c : α⦄ ⦃s t : List α⦄, Rewrites word q token b (c :: s) (c :: t) →
    q b (c :: s) = none → (p b (c :: t)).isSome = true → (p b (c :: s)).isSome = true

/-- No match begins inside the token, whatever is around it. -/
def Sealed (word : α → Bool) (p : Pattern α) (token : List α) : Prop :=
  ∀ ⦃b : Bool⦄ ⦃t : List α⦄, Clear word p false t → Clear word p b (token ++ t)

variable {word : α → Bool} {p q : Pattern α} {token : List α} {b : Bool} {s t : List α}

theorem Clear.of_append {u : List α} {c : α} (h : Clear word p b (u ++ c :: s)) :
    Clear word p (word c) s := by
  induction u generalizing b with
  | nil => exact h.2
  | cons x u ih => exact ih h.2

/-- A text without a match stays as it is. -/
theorem substitute_of_clear (h : Clear word p false s) : substitute word p token s = s := by
  have hwithin : ∀ (fuel : ℕ) (b : Bool) (s : List α), Clear word p b s →
      substituteWithin word p token fuel b s = s := by
    intro fuel
    induction fuel with
    | zero => exact fun b s _ => rfl
    | succ fuel ih =>
      intro b s hs
      cases s with
      | nil => rfl
      | cons c s => rw [substituteWithin, hs.1, ih (word c) s hs.2]
  exact hwithin _ _ _ h

/-- A match leaves less of the text. -/
theorem Lawful.length_lt (hp : Lawful word p) {b' : Bool} {rest : List α}
    (h : p b s = some (b', rest)) : rest.length < s.length := by
  obtain ⟨u, c, rfl, -⟩ := hp.consumes h
  rw [List.length_append, List.length_cons]
  omega

theorem rewrites_substitute (hp : Lawful word p) (s : List α) :
    Rewrites word p token false s (substitute word p token s) := by
  have hwithin : ∀ (fuel : ℕ) (b : Bool) (s : List α), s.length ≤ fuel →
      Rewrites word p token b s (substituteWithin word p token fuel b s) := by
    intro fuel
    induction fuel with
    | zero =>
      intro b s hs
      obtain rfl := List.length_eq_zero_iff.mp (Nat.le_zero.mp hs)
      exact .nil b
    | succ fuel ih =>
      intro b s hs
      cases s with
      | nil => exact .nil b
      | cons c s =>
        rw [substituteWithin]
        split
        · next b' rest hfound =>
          have hless := hp.length_lt hfound
          exact .swap hfound (ih b' rest (by omega))
        · next hnone => exact .keep hnone (ih _ s (Nat.le_of_succ_le_succ hs))
  exact hwithin _ _ _ (Nat.le_refl _)

/-- A match is found at a word character. -/
theorem Lawful.none_of_head (hp : Lawful word p) (hs : ∀ c ∈ s.head?, word c = false) (b : Bool) :
    p b s = none := by
  refine Option.eq_none_iff_forall_ne_some.mpr fun r hr => ?_
  obtain ⟨-, c, s', rfl, hc⟩ := hp.head hr
  rw [hs c rfl] at hc
  cases hc

/-- A text is rewritten in one way. -/
theorem Rewrites.unique (hp : Lawful word p) (h : Rewrites word p token b s t) {t' : List α}
    (h' : Rewrites word p token b s t') : t = t' := by
  induction h generalizing t' with
  | nil b =>
    cases h' with
    | nil => rfl
    | swap hfound hnext =>
      rw [hp.none_of_head (by simp)] at hfound
      cases hfound
  | keep hnone hrest ih =>
    cases h' with
    | keep hnone' hrest' => rw [ih hrest']
    | swap hfound' hnext' =>
      rw [hnone] at hfound'
      cases hfound'
  | swap hfound hnext ih =>
    cases h' with
    | nil =>
      rw [hp.none_of_head (by simp)] at hfound
      cases hfound
    | keep hnone' hrest' =>
      rw [hfound] at hnone'
      cases hnone'
    | swap hfound' hnext' =>
      rw [hfound] at hfound'
      obtain ⟨rfl, rfl⟩ := Prod.mk.inj (Option.some.inj hfound')
      rw [ih hnext']

/-- A substitution is the one way to rewrite a text. -/
theorem substitute_eq (hp : Lawful word p) (h : Rewrites word p token false s t) :
    substitute word p token s = t :=
  (rewrites_substitute hp s).unique hp h

/-- A text whose first character is no word character is rewritten in the same way behind
every text. -/
theorem Rewrites.behind (hp : Lawful word p) (hs : ∀ c ∈ s.head?, word c = false)
    (h : Rewrites word p token b s t) (b' : Bool) : Rewrites word p token b' s t := by
  cases h with
  | nil => exact .nil b'
  | keep hnone hrest => exact .keep (hp.none_of_head hs b') hrest
  | swap hfound hnext =>
    rw [hp.none_of_head hs] at hfound
    cases hfound

/-- What a text does not begin with, of characters among which are those of words, its
rewriting does not begin with either. -/
theorem Rewrites.head (hp : Lawful word p) {f : α → Bool} (hf : ∀ c, word c = true → f c = true)
    (h : Rewrites word p token b s t) (hs : ∀ c ∈ s.head?, f c = false) :
    ∀ c ∈ t.head?, f c = false := by
  cases h with
  | nil => exact hs
  | keep hnone hrest => exact hs
  | swap hfound hnext =>
    obtain ⟨-, c, s', rfl, hc⟩ := hp.head hfound
    have hno := hs c rfl
    rw [hf c hc] at hno
    cases hno

/-- The rewriting of a text in which `p` matches nowhere, or of its own matches, has no
match.  Behind a token a text may be read as if nothing were in front of it. -/
theorem Rewrites.clear (hp : Lawful word p) (hq : Lawful word q) (hlocal : Local word p q token)
    (hsealed : Sealed word p token) (h : Rewrites word q token b s t)
    (hclear : p = q ∨ Clear word p b s) {b' : Bool}
    (hb : b' = b ∨ b' = false ∧ ∀ c ∈ s.head?, word c = false) : Clear word p b' t := by
  induction h generalizing b' with
  | nil => trivial
  | @keep b c s t hnone hrest ih =>
    have hkept : p b (c :: s) = none := by
      rcases hclear with rfl | hclear
      · exact hnone
      · exact hclear.1
    refine ⟨?_, ih (hclear.imp_right And.right) (Or.inl rfl)⟩
    refine Option.eq_none_iff_forall_ne_some.mpr fun r hr => ?_
    obtain ⟨-, d, t', hd, hword⟩ := hp.head hr
    obtain ⟨rfl, rfl⟩ := List.cons.inj hd
    rcases hb with rfl | ⟨-, hb⟩
    · have hlook := hlocal (.keep hnone hrest) hnone (Option.isSome_of_eq_some hr)
      rw [hkept] at hlook
      cases hlook
    · rw [hb c rfl] at hword
      cases hword
  | @swap b b₁ s rest t hfound hnext ih =>
    apply hsealed
    apply ih
    · refine hclear.imp_right fun hclear => ?_
      obtain ⟨u, c, rfl, rfl⟩ := hq.consumes hfound
      exact hclear.of_append
    · cases b₁ with
      | false => exact Or.inl rfl
      | true => exact Or.inr ⟨rfl, hq.tail hfound⟩

/-- **After a substitution its pattern matches nowhere.** -/
theorem clear_substitute (hp : Lawful word p) (hlocal : Local word p p token)
    (hsealed : Sealed word p token) (s : List α) :
    Clear word p false (substitute word p token s) :=
  (rewrites_substitute hp s).clear hp hp hlocal hsealed (Or.inl rfl) (Or.inl rfl)

/-- **A later substitution brings back no match** of a pattern that is local to it. -/
theorem Clear.substitute (hp : Lawful word p) (hq : Lawful word q) (hlocal : Local word p q token)
    (hsealed : Sealed word p token) (h : Clear word p false s) :
    Clear word p false (substitute word q token s) :=
  (rewrites_substitute hq s).clear hp hq hlocal hsealed (Or.inr h) (Or.inl rfl)

/-! ### The pieces of patterns -/

/-- One character of each class, in order. -/
def spell (word : α → Bool) : List (α → Bool) → Pattern α
  | [], b, s => some (b, s)
  | _ :: _, _, [] => none
  | f :: l, _, c :: s => if f c then spell word l (word c) s else none

/-- Whether the last of some characters, behind what is known to be in front, is a word
character. -/
def after (word : α → Bool) (b : Bool) (u : List α) : Bool := u.foldl (fun _ c => word c) b

/-- `f*`, where nothing that follows could do with less. -/
def many (word f : α → Bool) : Pattern α := fun b s =>
  some (after word b (s.takeWhile f), s.dropWhile f)

/-- `f+`, where nothing that follows could do with less. -/
def many1 (word f : α → Bool) : Pattern α := fun b s =>
  match s with
  | c :: _ => if f c then many word f b s else none
  | [] => none

/-- `f{least,}\b` behind the first `n` of the run: as far as there is a boundary. -/
def runTail (word f : α → Bool) (least : ℕ) : ℕ → Pattern α
  | n, b, [] => if least ≤ n ∧ b = true then some (b, []) else none
  | n, b, c :: s =>
    ((if f c then runTail word f least (n + 1) (word c) s else none)).or
      (if least ≤ n ∧ b ≠ word c then some (b, c :: s) else none)

/-- One pattern behind another. -/
def seq (p q : Pattern α) : Pattern α := fun b s => (p b s).bind fun r => q r.1 r.2

/-- The first of several patterns that matches. -/
def alternatives (ps : List (Pattern α)) : Pattern α := fun b s => ps.findSome? fun p => p b s

/-- `\b` in front of a pattern that starts with a word character. -/
def atBoundary (p : Pattern α) : Pattern α := fun b s => if b then none else p b s

/-- A pattern says what it has passed. -/
def Eats (word : α → Bool) (p : Pattern α) : Prop :=
  ∀ ⦃b s b' rest⦄, p b s = some (b', rest) → ∃ u, s = u ++ rest ∧ b' = after word b u

/-- A pattern matches a word character at least. -/
def Starts (word : α → Bool) (p : Pattern α) : Prop :=
  ∀ ⦃b s r⦄, p b s = some r → ∃ c s', s = c :: s' ∧ word c = true ∧ r.2.length ≤ s'.length

/-- A match that ends in a word character is not followed by another. -/
def Stops (word : α → Bool) (p : Pattern α) : Prop :=
  ∀ ⦃b s rest⦄, p b s = some (true, rest) → ∀ c ∈ rest.head?, word c = false

/-- A match in a rewritten text is a match in the text, and leaves it rewritten. -/
def Exact (word : α → Bool) (q : Pattern α) (token : List α) (p : Pattern α) : Prop :=
  ∀ ⦃b s t b' t'⦄, Rewrites word q token b s t → p b t = some (b', t') →
    ∃ s', p b s = some (b', s') ∧ Rewrites word q token b' s' t'

/-- Where a rewritten text matches, the text does. -/
def Looks (word : α → Bool) (q : Pattern α) (token : List α) (p : Pattern α) : Prop :=
  ∀ ⦃b s t⦄, Rewrites word q token b s t → (p b t).isSome = true → (p b s).isSome = true

theorem after_append (b : Bool) (u v : List α) :
    after word b (u ++ v) = after word (after word b u) v := List.foldl_append

/-! ### What the pieces match -/

section Pieces

variable {f : α → Bool} {b' : Bool} {rest : List α}

/-- A text is cut in one way into characters of a class and what does not begin with one. -/
theorem append_unique {u u' t' : List α} (hu : ∀ c ∈ u, f c = true) (hu' : ∀ c ∈ u', f c = true)
    (ht : ∀ c ∈ t.head?, f c = false) (ht' : ∀ c ∈ t'.head?, f c = false)
    (h : u ++ t = u' ++ t') : u = u' ∧ t = t' := by
  have hstop : ∀ {w : List α}, (∀ c ∈ w.head?, f c = false) → w.takeWhile f = [] := by
    intro w hw
    cases w with
    | nil => rfl
    | cons c w => exact List.takeWhile_cons_of_neg (by simp [hw c rfl])
  have htake := congrArg (List.takeWhile f) h
  rw [List.takeWhile_append_of_pos hu, List.takeWhile_append_of_pos hu', hstop ht, hstop ht',
    List.append_nil, List.append_nil] at htake
  subst htake
  exact ⟨rfl, List.append_cancel_left h⟩

theorem seq_eq_some {r : Bool × List α} :
    seq p q b s = some r ↔ ∃ b₁ s₁, p b s = some (b₁, s₁) ∧ q b₁ s₁ = some r := by
  rw [seq, Option.bind_eq_some_iff, Prod.exists]

theorem spell_eq_some {l : List (α → Bool)} : spell word l b s = some (b', rest) ↔
    ∃ u, s = u ++ rest ∧ List.Forall₂ (fun f c => f c = true) l u ∧ b' = after word b u := by
  induction l generalizing b s with
  | nil =>
    constructor
    · intro h
      obtain ⟨rfl, rfl⟩ := Prod.mk.inj (Option.some.inj h)
      exact ⟨[], rfl, .nil, rfl⟩
    · rintro ⟨u, rfl, hu, rfl⟩
      cases hu
      rfl
  | cons f l ih =>
    cases s with
    | nil =>
      constructor
      · intro h
        cases h
      · rintro ⟨u, hs, hu, -⟩
        cases hu
        cases hs
    | cons c s =>
      rw [spell]
      constructor
      · intro h
        split at h
        · next hc =>
          obtain ⟨u, rfl, hu, rfl⟩ := ih.mp h
          exact ⟨c :: u, rfl, .cons hc hu, rfl⟩
        · cases h
      · rintro ⟨u, hs, hu, rfl⟩
        cases hu with
        | cons hc hu =>
          obtain ⟨rfl, rfl⟩ := List.cons.inj hs
          rw [if_pos hc]
          exact ih.mpr ⟨_, rfl, hu, rfl⟩

theorem many_eq_some : many word f b s = some (b', rest) ↔ ∃ u, s = u ++ rest ∧
    (∀ c ∈ u, f c = true) ∧ (∀ c ∈ rest.head?, f c = false) ∧ b' = after word b u := by
  have hends : ∀ c ∈ (s.dropWhile f).head?, f c = false := by
    intro c hc
    have hhead := List.head?_dropWhile_not f s
    rw [Option.mem_def.mp hc] at hhead
    exact hhead
  constructor
  · intro h
    obtain ⟨rfl, rfl⟩ := Prod.mk.inj (Option.some.inj h)
    exact ⟨s.takeWhile f, List.takeWhile_append_dropWhile.symm, fun c hc => List.mem_takeWhile_imp hc,
      hends, rfl⟩
  · rintro ⟨u, hs, hu, hrest, rfl⟩
    obtain ⟨htake, hdrop⟩ := append_unique (fun c hc => List.mem_takeWhile_imp hc) hu hends hrest
      (List.takeWhile_append_dropWhile.trans hs)
    rw [many, htake, hdrop]

theorem many1_eq_some : many1 word f b s = some (b', rest) ↔ ∃ u, s = u ++ rest ∧ u ≠ [] ∧
    (∀ c ∈ u, f c = true) ∧ (∀ c ∈ rest.head?, f c = false) ∧ b' = after word b u := by
  constructor
  · intro h
    unfold many1 at h
    split at h
    · next c s =>
      split at h
      · next hc =>
        obtain ⟨u, hs, hu, hrest, rfl⟩ := many_eq_some.mp h
        refine ⟨u, hs, ?_, hu, hrest, rfl⟩
        rintro rfl
        rw [hrest c (by rw [← List.nil_append rest, ← hs]; rfl)] at hc
        cases hc
      · cases h
    · cases h
  · rintro ⟨u, rfl, hne, hu, hrest, rfl⟩
    obtain ⟨c, u, rfl⟩ := List.exists_cons_of_ne_nil hne
    rw [List.cons_append, many1, if_pos (hu c List.mem_cons_self)]
    exact many_eq_some.mpr ⟨c :: u, rfl, hu, hrest, rfl⟩

/-- A run is of characters of its class. -/
theorem runTail_chars {least n : ℕ} (h : runTail word f least n b s = some (b', rest)) :
    ∃ u, s = u ++ rest ∧ ∀ c ∈ u, f c = true := by
  induction s generalizing n b with
  | nil =>
    rw [runTail] at h
    split at h
    · obtain ⟨-, rfl⟩ := Prod.mk.inj (Option.some.inj h)
      exact ⟨[], rfl, by simp⟩
    · cases h
  | cons c s ih =>
    rw [runTail, Option.or_eq_some_iff] at h
    rcases h with h | ⟨-, h⟩
    · split at h
      · next hc =>
        obtain ⟨u, rfl, hu⟩ := ih h
        exact ⟨c :: u, rfl, List.forall_mem_cons.mpr ⟨hc, hu⟩⟩
      · cases h
    · split at h
      · obtain ⟨-, rfl⟩ := Prod.mk.inj (Option.some.inj h)
        exact ⟨[], rfl, by simp⟩
      · cases h

end Pieces

/-! ### Lawful patterns -/

/-- The first part of a text stays, where nothing matches in it. -/
theorem Rewrites.append {u : List α} (hu : ClearIn word p b u s)
    (h : Rewrites word p token (after word b u) s t) :
    Rewrites word p token b (u ++ s) (u ++ t) := by
  induction u generalizing b with
  | nil => exact h
  | cons c u ih => exact .keep hu.1 (ih hu.2 h)

theorem ClearIn.clear {u : List α} (hu : ClearIn word p b u t)
    (h : Clear word p (after word b u) t) : Clear word p b (u ++ t) := by
  induction u generalizing b with
  | nil => exact h
  | cons c u ih => exact ⟨hu.1, ih hu.2 h⟩

theorem ClearIn.append {u v : List α} (hu : ClearIn word p b u (v ++ t))
    (hv : ClearIn word p (after word b u) v t) : ClearIn word p b (u ++ v) t := by
  induction u generalizing b with
  | nil => exact hv
  | cons c u ih =>
    refine ⟨?_, ih hu.2 hv⟩
    change p b (c :: (u ++ v ++ t)) = none
    rw [List.append_assoc]
    exact hu.1

/-- Nothing is found at characters that are no word characters. -/
theorem clearIn_of_not_word (hp : Lawful word p) {u : List α} (hu : ∀ c ∈ u, word c = false)
    (b : Bool) (t : List α) : ClearIn word p b u t := by
  induction u generalizing b with
  | nil => trivial
  | cons c u ih =>
    refine ⟨hp.none_of_head ?_ b, ih (fun x hx => hu x (List.mem_cons_of_mem c hx)) _⟩
    intro x hx
    obtain rfl := Option.some.inj hx
    exact hu c List.mem_cons_self

theorem eats_spell (l : List (α → Bool)) : Eats word (spell word l) := by
  intro b s b' rest h
  obtain ⟨u, hs, -, hb⟩ := spell_eq_some.mp h
  exact ⟨u, hs, hb⟩

theorem eats_many (f : α → Bool) : Eats word (many word f) := by
  intro b s b' rest h
  obtain ⟨u, hs, -, -, hb⟩ := many_eq_some.mp h
  exact ⟨u, hs, hb⟩

theorem eats_many1 (f : α → Bool) : Eats word (many1 word f) := by
  intro b s b' rest h
  obtain ⟨u, hs, -, -, -, hb⟩ := many1_eq_some.mp h
  exact ⟨u, hs, hb⟩

theorem eats_runTail (f : α → Bool) (least n : ℕ) : Eats word (runTail word f least n) := by
  intro b s b' rest h
  induction s generalizing n b with
  | nil =>
    rw [runTail] at h
    split at h
    · obtain ⟨rfl, rfl⟩ := Prod.mk.inj (Option.some.inj h)
      exact ⟨[], rfl, rfl⟩
    · cases h
  | cons c s ih =>
    rw [runTail, Option.or_eq_some_iff] at h
    rcases h with h | ⟨-, h⟩
    · split at h
      · obtain ⟨u, rfl, rfl⟩ := ih (n + 1) h
        exact ⟨c :: u, rfl, rfl⟩
      · cases h
    · split at h
      · obtain ⟨rfl, rfl⟩ := Prod.mk.inj (Option.some.inj h)
        exact ⟨[], rfl, rfl⟩
      · cases h

theorem Eats.seq (hp : Eats word p) (hq : Eats word q) : Eats word (seq p q) := by
  intro b s b' rest h
  obtain ⟨⟨b₁, s₁⟩, hfirst, hsecond⟩ := Option.bind_eq_some_iff.mp h
  obtain ⟨u, rfl, rfl⟩ := hp hfirst
  obtain ⟨v, rfl, rfl⟩ := hq hsecond
  exact ⟨u ++ v, (List.append_assoc u v rest).symm, (after_append b u v).symm⟩

theorem eats_alternatives {ps : List (Pattern α)} (h : ∀ p ∈ ps, Eats word p) :
    Eats word (alternatives ps) := by
  intro b s b' rest hfound
  obtain ⟨p, hp, hmatch⟩ := List.exists_of_findSome?_eq_some hfound
  exact h p hp hmatch

theorem Eats.length_le (hp : Eats word p) {r : Bool × List α} (h : p b s = some r) :
    r.2.length ≤ s.length := by
  obtain ⟨u, rfl, -⟩ := hp h
  rw [List.length_append]
  omega

theorem starts_spell {f : α → Bool} {l : List (α → Bool)} (hf : ∀ c, f c = true → word c = true) :
    Starts word (spell word (f :: l)) := by
  intro b s r h
  cases s with
  | nil => cases h
  | cons c s =>
    rw [spell] at h
    split at h
    · next hc => exact ⟨c, s, rfl, hf c hc, (eats_spell l).length_le h⟩
    · cases h

theorem Starts.seq (hp : Starts word p) (hq : Eats word q) : Starts word (seq p q) := by
  intro b s r h
  obtain ⟨r₁, hfirst, hsecond⟩ := Option.bind_eq_some_iff.mp h
  obtain ⟨c, s', hs, hc, hle⟩ := hp hfirst
  exact ⟨c, s', hs, hc, Nat.le_trans (hq.length_le hsecond) hle⟩

theorem starts_alternatives {ps : List (Pattern α)} (h : ∀ p ∈ ps, Starts word p) :
    Starts word (alternatives ps) := by
  intro b s r hfound
  obtain ⟨p, hp, hmatch⟩ := List.exists_of_findSome?_eq_some hfound
  exact h p hp hmatch

theorem stops_runTail (f : α → Bool) (least n : ℕ) : Stops word (runTail word f least n) := by
  intro b s rest h c hc
  induction s generalizing n b with
  | nil =>
    rw [runTail] at h
    split at h
    · obtain ⟨-, rfl⟩ := Prod.mk.inj (Option.some.inj h)
      cases hc
    · cases h
  | cons x s ih =>
    rw [runTail, Option.or_eq_some_iff] at h
    rcases h with h | ⟨-, h⟩
    · split at h
      · exact ih (n + 1) h
      · cases h
    · split at h
      · next hcond =>
        obtain ⟨rfl, rfl⟩ := Prod.mk.inj (Option.some.inj h)
        obtain rfl := Option.some.inj hc
        simpa using hcond.2
      · cases h

theorem stops_many1 {f : α → Bool} (hf : ∀ c, word c = true → f c = true) :
    Stops word (many1 word f) := by
  intro b s rest h c hc
  obtain ⟨u, -, -, -, hrest, -⟩ := many1_eq_some.mp h
  by_contra hword
  have hno := hrest c hc
  rw [hf c (by simpa using hword)] at hno
  cases hno

theorem Stops.seq (hq : Stops word q) : Stops word (seq p q) := by
  intro b s rest h
  obtain ⟨r₁, -, hsecond⟩ := Option.bind_eq_some_iff.mp h
  exact hq hsecond

theorem stops_alternatives {ps : List (Pattern α)} (h : ∀ p ∈ ps, Stops word p) :
    Stops word (alternatives ps) := by
  intro b s rest hfound
  obtain ⟨p, hp, hmatch⟩ := List.exists_of_findSome?_eq_some hfound
  exact h p hp hmatch

/-- **A pattern made of pieces is lawful.** -/
theorem lawful_atBoundary (heats : Eats word p) (hstarts : Starts word p) (hstops : Stops word p) :
    Lawful word (atBoundary p) where
  head := by
    intro b s r h
    cases b with
    | true => cases h
    | false =>
      obtain ⟨c, s', hs, hc, -⟩ := hstarts h
      exact ⟨rfl, c, s', hs, hc⟩
  consumes := by
    intro b s b' rest h
    cases b with
    | true => cases h
    | false =>
      obtain ⟨c, s', hs, -, hle⟩ := hstarts h
      have hlength := congrArg List.length hs
      rw [List.length_cons] at hlength
      change rest.length ≤ s'.length at hle
      obtain ⟨u, rfl, rfl⟩ := heats h
      rcases List.eq_nil_or_concat u with rfl | ⟨v, c, rfl⟩
      · rw [List.nil_append] at hlength
        omega
      · refine ⟨v, c, by simp, ?_⟩
        rw [List.concat_eq_append, after_append]
        rfl
  tail := by
    intro b s rest h
    cases b with
    | true => cases h
    | false => exact hstops h

/-! ### Looking through a token -/

section Token

variable {o : α} {body : List α} {f : α → Bool}

/-- A character of a rewritten text that is not the token's first is one of the text. -/
theorem Rewrites.uncons {x : α} (h : Rewrites word q (o :: body) b s (x :: t)) (hx : x ≠ o) :
    ∃ s', s = x :: s' ∧ Rewrites word q (o :: body) (word x) s' t := by
  generalize ht : x :: t = t₀ at h
  cases h with
  | nil => cases ht
  | keep hnone hrest =>
    obtain ⟨rfl, rfl⟩ := List.cons.inj ht
    exact ⟨_, rfl, hrest⟩
  | swap hfound hnext => exact absurd (List.cons.inj ht).1 hx

theorem exact_spell {l : List (α → Bool)} (hl : ∀ f ∈ l, f o = false) :
    Exact word q (o :: body) (spell word l) := by
  intro b s t b' t' hrewrites h
  induction l generalizing b s t with
  | nil =>
    obtain ⟨rfl, rfl⟩ := Prod.mk.inj (Option.some.inj h)
    exact ⟨s, rfl, hrewrites⟩
  | cons f l ih =>
    cases t with
    | nil => cases h
    | cons x t =>
      rw [spell] at h
      split at h
      · next hfx =>
        have hx : x ≠ o := by
          rintro rfl
          rw [hl f List.mem_cons_self] at hfx
          cases hfx
        obtain ⟨s', rfl, hrest⟩ := hrewrites.uncons hx
        rw [spell, if_pos hfx]
        exact ih (fun g hg => hl g (List.mem_cons_of_mem f hg)) hrest h
      · cases h

theorem exact_many (hq : Lawful word q) (ho : f o = false)
    (hword : ∀ c, word c = true → f c = false) : Exact word q (o :: body) (many word f) := by
  intro b s t b' t' hrewrites h
  obtain ⟨rfl, rfl⟩ := Prod.mk.inj (Option.some.inj h)
  clear h
  induction hrewrites with
  | nil b => exact ⟨[], rfl, .nil b⟩
  | @keep b c s t hnone hrest ih =>
    by_cases hc : f c = true
    · obtain ⟨s', hs', hnext⟩ := ih
      refine ⟨s', ?_, ?_⟩
      · rw [List.takeWhile_cons_of_pos hc]
        simp only [many, List.takeWhile_cons_of_pos hc, List.dropWhile_cons_of_pos hc]
        exact hs'
      · rw [List.takeWhile_cons_of_pos hc, List.dropWhile_cons_of_pos hc]
        exact hnext
    · refine ⟨c :: s, ?_, ?_⟩
      · simp only [many, List.takeWhile_cons_of_neg hc, List.dropWhile_cons_of_neg hc]
      · rw [List.takeWhile_cons_of_neg hc, List.dropWhile_cons_of_neg hc]
        exact .keep hnone hrest
  | @swap b b' s rest t hfound hnext ih =>
    obtain ⟨-, c, s', rfl, hc⟩ := hq.head hfound
    have hc' : ¬ f c = true := by rw [hword c hc]; exact Bool.false_ne_true
    have ho' : ¬ f o = true := by rw [ho]; exact Bool.false_ne_true
    refine ⟨c :: s', ?_, ?_⟩
    · rw [List.cons_append, List.takeWhile_cons_of_neg ho']
      simp only [many, List.takeWhile_cons_of_neg hc', List.dropWhile_cons_of_neg hc']
    · rw [List.cons_append, List.takeWhile_cons_of_neg ho', List.dropWhile_cons_of_neg ho']
      exact .swap hfound hnext

theorem Exact.seq {p' : Pattern α} (hp : Exact word q token p) (hp' : Exact word q token p') :
    Exact word q token (seq p p') := by
  intro b s t b' t' hrewrites h
  obtain ⟨⟨b₁, t₁⟩, hfirst, hsecond⟩ := Option.bind_eq_some_iff.mp h
  obtain ⟨s₁, hs₁, hrewrites₁⟩ := hp hrewrites hfirst
  obtain ⟨s', hs', hrewrites'⟩ := hp' hrewrites₁ hsecond
  refine ⟨s', ?_, hrewrites'⟩
  rw [Substitution.seq, hs₁]
  exact hs'

theorem looks_many1 (hq : Lawful word q) (hword : ∀ c, word c = true → f c = true) :
    Looks word q (o :: body) (many1 word f) := by
  intro b s t hrewrites h
  cases hrewrites with
  | nil => exact h
  | @keep _ c s t hnone hrest =>
    rw [many1] at h ⊢
    split at h
    · next hc =>
      rw [if_pos hc]
      rfl
    · cases h
  | swap hfound hnext =>
    obtain ⟨-, c, s', rfl, hc⟩ := hq.head hfound
    rw [many1, if_pos (hword c hc)]
    rfl

theorem looks_runTail (hq : Lawful word q) (ho : f o = false) (howord : word o = false)
    (least n : ℕ) : Looks word q (o :: body) (runTail word f least n) := by
  intro b s t hrewrites h
  induction hrewrites generalizing n with
  | nil => exact h
  | @keep b c s t hnone hrest ih =>
    rw [runTail, Option.isSome_or, Bool.or_eq_true] at h ⊢
    rcases h with h | h
    · left
      split at h
      · next hc =>
        rw [if_pos hc]
        exact ih (n + 1) h
      · cases h
    · right
      split at h
      · next hcond =>
        rw [if_pos hcond]
        rfl
      · cases h
  | @swap b b' s rest t hfound hnext ih =>
    -- the run ends at the token, and there is no boundary in front of it
    obtain ⟨rfl, -⟩ := hq.head hfound
    rw [List.cons_append, runTail, if_neg (by rw [ho]; exact Bool.false_ne_true), Option.none_or,
      if_neg (by rw [howord]; exact fun h => h.2 rfl)] at h
    cases h

theorem Exact.looks {p' : Pattern α} (hp : Exact word q token p) (hp' : Looks word q token p') :
    Looks word q token (Substitution.seq p p') := by
  intro b s t hrewrites h
  obtain ⟨r, hr⟩ := Option.isSome_iff_exists.mp h
  obtain ⟨⟨b₁, t₁⟩, hfirst, hsecond⟩ := Option.bind_eq_some_iff.mp hr
  obtain ⟨s₁, hs₁, hrewrites₁⟩ := hp hrewrites hfirst
  have hlook := hp' hrewrites₁ (by rw [hsecond]; rfl)
  rw [Substitution.seq, hs₁]
  exact hlook

theorem looks_alternatives {ps : List (Pattern α)} (h : ∀ p ∈ ps, Looks word q token p) :
    Looks word q token (alternatives ps) := by
  intro b s t hrewrites hsome
  obtain ⟨r, hr⟩ := Option.isSome_iff_exists.mp hsome
  obtain ⟨p, hp, hmatch⟩ := List.exists_of_findSome?_eq_some hr
  have hlook := h p hp hrewrites (by rw [hmatch]; rfl)
  rw [alternatives, List.findSome?_isSome_iff]
  exact ⟨p, hp, hlook⟩

theorem Looks.local (h : Looks word q token p) : Local word (atBoundary p) q token := by
  intro b c s t hrewrites hnone hsome
  cases b with
  | true => cases hsome
  | false => exact h hrewrites hsome

/-- A token that begins with no word character, and goes on with word characters the first of
which the pattern does not start with, holds no match. -/
theorem clearIn_body {r z : α} (hstarts : Starts word p) (ho : word o = false)
    (hbody : ∀ c ∈ r :: body, word c = true) (hr : ∀ s, p false (r :: s) = none) (b : Bool)
    (t : List α) :
    ClearIn word (atBoundary p) b (o :: r :: body ++ [z]) t := by
  have hnone : ∀ {x : α}, word x = false → ∀ (b : Bool) (s : List α),
      atBoundary p b (x :: s) = none := by
    intro x hx b s
    cases b with
    | true => rfl
    | false =>
      refine Option.eq_none_iff_forall_ne_some.mpr fun r hr => ?_
      obtain ⟨c, s', hs, hc, -⟩ := hstarts hr
      obtain ⟨rfl, -⟩ := List.cons.inj hs
      rw [hx] at hc
      cases hc
  have hinner : ∀ l : List α, (∀ c ∈ l, word c = true) →
      ClearIn word (atBoundary p) true (l ++ [z]) t := by
    intro l hl
    induction l with
    | nil => exact ⟨rfl, trivial⟩
    | cons c l ih =>
      refine ⟨rfl, ?_⟩
      rw [hl c List.mem_cons_self]
      exact ih fun x hx => hl x (List.mem_cons_of_mem c hx)
  refine ⟨hnone ho b _, ?_⟩
  rw [ho]
  refine ⟨hr _, ?_⟩
  rw [hbody r List.mem_cons_self]
  exact hinner body fun c hc => hbody c (List.mem_cons_of_mem r hc)

/-- A token that holds no match and ends in no word character is sealed. -/
theorem sealed_of_clearIn (hclear : ∀ (b : Bool) (t : List α), ClearIn word p b token t)
    (hlast : ∀ b, after word b token = false) : Sealed word p token := by
  intro b t ht
  refine (hclear b t).clear ?_
  rw [hlast]
  exact ht

end Token

/-! ### Characters that no match passes -/

/-- No match passes the character, and none asks what is behind it. -/
def Bars (p : Pattern α) (z : α) : Prop := ∀ (b : Bool) (l : List α),
  (∀ t, p b (l ++ z :: t) = none) ∨ ∃ b' l', ∀ t, p b (l ++ z :: t) = some (b', l' ++ z :: t)

section Bars

variable {z : α} {f : α → Bool}

theorem bars_spell {l : List (α → Bool)} (hl : ∀ f ∈ l, f z = false) :
    Bars (spell word l) z := by
  intro b u
  induction l generalizing b u with
  | nil => exact Or.inr ⟨b, u, fun t => rfl⟩
  | cons f l ih =>
    cases u with
    | nil =>
      refine Or.inl fun t => ?_
      rw [List.nil_append, spell, if_neg (by simp [hl f List.mem_cons_self])]
    | cons c u =>
      by_cases hc : f c = true
      · simp only [List.cons_append, spell, if_pos hc]
        exact ih (fun g hg => hl g (List.mem_cons_of_mem f hg)) (word c) u
      · refine Or.inl fun t => ?_
        rw [List.cons_append, spell, if_neg hc]

theorem bars_many (hz : f z = false) : Bars (many word f) z := by
  intro b u
  refine Or.inr ⟨after word b (u.takeWhile f), u.dropWhile f, fun t => ?_⟩
  induction u generalizing b with
  | nil => simp [many, hz]
  | cons c u ih =>
    by_cases hc : f c = true
    · have hrest := ih (word c)
      simp only [many, List.cons_append, List.takeWhile_cons_of_pos hc,
        List.dropWhile_cons_of_pos hc] at hrest ⊢
      exact hrest
    · simp only [many, List.cons_append, List.takeWhile_cons_of_neg hc,
        List.dropWhile_cons_of_neg hc]

theorem bars_runTail (hz : f z = false) (least n : ℕ) : Bars (runTail word f least n) z := by
  intro b u
  induction u generalizing n b with
  | nil =>
    simp only [List.nil_append, runTail, hz, Bool.false_eq_true, if_false, Option.none_or]
    by_cases hcond : least ≤ n ∧ b ≠ word z
    · exact Or.inr ⟨b, [], fun t => if_pos hcond⟩
    · exact Or.inl fun t => if_neg hcond
  | cons c u ih =>
    have hend : (∀ t, runTail word f least n b (c :: u ++ z :: t) =
        if least ≤ n ∧ b ≠ word c then some (b, c :: u ++ z :: t) else none) →
        (∀ t, runTail word f least n b (c :: u ++ z :: t) = none) ∨
          ∃ b' l', ∀ t, runTail word f least n b (c :: u ++ z :: t) = some (b', l' ++ z :: t) := by
      intro heq
      by_cases hcond : least ≤ n ∧ b ≠ word c
      · exact Or.inr ⟨b, c :: u, fun t => (heq t).trans (if_pos hcond)⟩
      · exact Or.inl fun t => (heq t).trans (if_neg hcond)
    by_cases hc : f c = true
    · rcases ih (n + 1) (word c) with hnone | ⟨b', l', hsome⟩
      · refine hend fun t => ?_
        rw [List.cons_append, runTail, if_pos hc, hnone, Option.none_or]
      · refine Or.inr ⟨b', l', fun t => ?_⟩
        rw [List.cons_append, runTail, if_pos hc, hsome, Option.some_or]
    · refine hend fun t => ?_
      rw [List.cons_append, runTail, if_neg hc, Option.none_or]

theorem Bars.seq (hp : Bars p z) (hq : Bars q z) : Bars (seq p q) z := by
  intro b u
  rcases hp b u with hnone | ⟨b', l', hsome⟩
  · refine Or.inl fun t => ?_
    rw [Substitution.seq, hnone, Option.bind_none]
  · rcases hq b' l' with hnone | ⟨b'', l'', hsome'⟩
    · refine Or.inl fun t => ?_
      rw [Substitution.seq, hsome, Option.bind_some, hnone]
    · refine Or.inr ⟨b'', l'', fun t => ?_⟩
      rw [Substitution.seq, hsome, Option.bind_some, hsome']

theorem bars_alternatives {ps : List (Pattern α)} (h : ∀ p ∈ ps, Bars p z) :
    Bars (alternatives ps) z := by
  intro b u
  induction ps with
  | nil => exact Or.inl fun t => rfl
  | cons p ps ih =>
    rcases h p List.mem_cons_self b u with hnone | ⟨b', l', hsome⟩
    · have hrest := ih fun q hq => h q (List.mem_cons_of_mem p hq)
      simpa only [alternatives, List.findSome?_cons, hnone] using hrest
    · refine Or.inr ⟨b', l', fun t => ?_⟩
      rw [alternatives, List.findSome?_cons, hsome]

theorem Bars.atBoundary (hp : Bars p z) : Bars (atBoundary p) z := by
  intro b u
  cases b with
  | true => exact Or.inl fun t => rfl
  | false => exact hp false u

/-- Behind such a character a text may go on. -/
theorem Bars.extend (hp : Bars p z) (b : Bool) (l t : List α) :
    p b (l ++ z :: t) = (p b (l ++ [z])).map fun r => (r.1, r.2 ++ t) := by
  rcases hp b l with hnone | ⟨b', l', hsome⟩
  · rw [hnone, hnone, Option.map_none]
  · rw [hsome, hsome, Option.map_some, List.append_assoc, List.singleton_append]

/-- A last character that no match passes stays the last one. -/
theorem Rewrites.last (hp : Bars p z) (hlawful : Lawful word p) {l : List α}
    (h : Rewrites word p token b (l ++ [z]) t) : ∃ t', t = t' ++ [z] := by
  generalize hs : l ++ [z] = s at h
  induction h generalizing l with
  | nil => simp at hs
  | @keep b c s t hnone hrest ih =>
    cases l with
    | nil =>
      obtain ⟨rfl, rfl⟩ := List.cons.inj hs
      obtain rfl := hrest.unique hlawful (.nil _)
      exact ⟨[], rfl⟩
    | cons d l =>
      obtain ⟨rfl, hl⟩ := List.cons.inj hs
      obtain ⟨t', rfl⟩ := ih hl
      exact ⟨d :: t', rfl⟩
  | @swap b b' s rest t hfound hnext ih =>
    subst hs
    rcases hp b l with hnone | ⟨b₁, l', hsome⟩
    · rw [hnone] at hfound
      cases hfound
    · rw [hsome] at hfound
      obtain ⟨rfl, hrest⟩ := Prod.mk.inj (Option.some.inj hfound)
      obtain ⟨t', rfl⟩ := ih hrest
      exact ⟨token ++ t', (List.append_assoc token t' [z]).symm⟩

end Bars

end Substitution
