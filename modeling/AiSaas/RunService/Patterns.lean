import AiSaas.RunService.Redaction
import Mathlib.Data.List.Basic

/-!
# Substituting patterns

How `re.sub` goes through a text, for patterns that are functions of what is in front
of them.  A text in which a pattern matches nowhere stays as it is, and a substitution
brings back no match of a pattern that cannot look through the replacements.

* `substitute_cons` — one step of `re.sub`.
* `Wall`, `substitute_wall` — a character that no match of a pattern crosses.
* `Rewritten` — how a text becomes its substitution, character by character.
* `Clear`, `Rewritten.clear` — texts without a match, before and after a substitution.
* `afterWord_eq_some`, `Rewritten.afterWord`, `Rewritten.dropWhile` — the pieces of a
  pattern, in a text and in its substitution.
-/

namespace AiSaas

namespace Redaction

/-- What a pattern finds at the front of a text: a replacement, and what follows. -/
abbrev Finds := List Char → Option (List Char × List Char)

variable {p q : Finds} {c d o : Char} {s t u v rest r : List Char} {word : List Char}

/-- A property of the characters of a list, checked along the list. -/
theorem forall_mem_of_all {f : Char → Prop} [DecidablePred f] {l : List Char}
    (h : l.all (fun c => decide (f c)) = true) : ∀ c ∈ l, f c :=
  fun c hc => of_decide_eq_true (List.all_eq_true.mp h c hc)

/-! ### `re.sub`, step by step -/

/-- A match takes a character at least. -/
def Shrinks (p : Finds) : Prop := ∀ c s r rest, p (c :: s) = some (r, rest) → rest <:+ s

theorem substituteWithin_eq (hp : Shrinks p) : ∀ {fuel : ℕ} {s : List Char}, s.length ≤ fuel →
    substituteWithin p fuel s = substitute p s := by
  have hall : ∀ n, ∀ fuel fuel' s, s.length ≤ n → s.length ≤ fuel → s.length ≤ fuel' →
      substituteWithin p fuel s = substituteWithin p fuel' s := by
    intro n
    induction n with
    | zero =>
      intro fuel fuel' s hn _ _
      have hs : s = [] := List.length_eq_zero_iff.mp (by omega)
      subst hs
      cases fuel <;> cases fuel' <;> rfl
    | succ n ih =>
      intro fuel fuel' s hn hfuel hfuel'
      cases s with
      | nil => cases fuel <;> cases fuel' <;> rfl
      | cons c s =>
        simp only [List.length_cons] at hn hfuel hfuel'
        obtain ⟨fuel, rfl⟩ : ∃ k, fuel = k + 1 := ⟨fuel - 1, by omega⟩
        obtain ⟨fuel', rfl⟩ : ∃ k, fuel' = k + 1 := ⟨fuel' - 1, by omega⟩
        rw [substituteWithin, substituteWithin]
        cases hmatch : p (c :: s) with
        | none =>
          dsimp only
          rw [ih fuel fuel' s (by omega) (by omega) (by omega)]
        | some found =>
          obtain ⟨r, rest⟩ := found
          have hrest := (hp c s r rest hmatch).length_le
          dsimp only
          rw [ih fuel fuel' rest (by omega) (by omega) (by omega)]
  exact fun {fuel s} h => hall s.length fuel s.length s le_rfl h le_rfl

@[simp] theorem substitute_nil (p : Finds) : substitute p [] = [] := rfl

/-- One step: a match is replaced, and the search goes on behind it. -/
theorem substitute_cons (hp : Shrinks p) (c : Char) (s : List Char) :
    substitute p (c :: s) = match p (c :: s) with
      | some (r, rest) => r ++ substitute p rest
      | none => c :: substitute p s := by
  rw [substitute, List.length_cons, substituteWithin]
  cases hmatch : p (c :: s) with
  | none => rfl
  | some found =>
    obtain ⟨r, rest⟩ := found
    dsimp only
    rw [substituteWithin_eq hp (hp c s r rest hmatch).length_le]

/-- A character that is in no match: what is before it is searched as if it ended there. -/
structure Wall (p : Finds) (c : Char) : Prop where
  start : ∀ t, p (c :: t) = none
  before : ∀ x s t, p (x :: s ++ c :: t) = (p (x :: s)).map fun f => (f.1, f.2 ++ c :: t)

theorem substitute_wall (hp : Shrinks p) (hc : Wall p c) (s t : List Char) :
    substitute p (s ++ c :: t) = substitute p s ++ c :: substitute p t := by
  induction hn : s.length using Nat.strong_induction_on generalizing s with
  | h n ih =>
    cases s with
    | nil => rw [List.nil_append, substitute_cons hp, hc.start, substitute_nil, List.nil_append]
    | cons x s =>
      have hbefore := hc.before x s t
      rw [List.cons_append, substitute_cons hp, substitute_cons hp, ← List.cons_append, hbefore]
      cases hmatch : p (x :: s) with
      | none =>
        simp only [Option.map_none, List.cons_append]
        rw [ih s.length (by rw [← hn]; simp) s rfl]
      | some found =>
        obtain ⟨r, rest⟩ := found
        have hrest := (hp x s r rest hmatch).length_le
        simp only [Option.map_some, List.append_assoc]
        rw [ih rest.length (by rw [← hn, List.length_cons]; omega) rest rfl]


theorem dropWhile_append_stop {f : Char → Bool} (hc : f c = false) (s t : List Char) :
    (s ++ c :: t).dropWhile f = s.dropWhile f ++ c :: t := by
  induction s with
  | nil => exact List.dropWhile_cons_of_neg (by simp [hc])
  | cons x s ih =>
    rw [List.cons_append, List.dropWhile_cons, List.dropWhile_cons, ih]
    split <;> rfl

/-- How a text becomes its substitution. -/
inductive Rewritten (q : Finds) : List Char → List Char → Prop
  | nil : Rewritten q [] []
  | keep {c : Char} {s t : List Char} (none : q (c :: s) = none) (rest : Rewritten q s t) :
      Rewritten q (c :: s) (c :: t)
  | swap {c : Char} {s r rest t : List Char} (found : q (c :: s) = some (r, rest))
      (next : Rewritten q rest t) : Rewritten q (c :: s) (r ++ t)

theorem rewritten_substitute (hq : Shrinks q) (s : List Char) : Rewritten q s (substitute q s) := by
  induction hn : s.length using Nat.strong_induction_on generalizing s with
  | h n ih =>
    cases s with
    | nil => exact .nil
    | cons c s =>
      rw [substitute_cons hq]
      cases hmatch : q (c :: s) with
      | none => exact .keep hmatch (ih s.length (by rw [← hn]; simp) s rfl)
      | some found =>
        obtain ⟨r, rest⟩ := found
        have hlength := (hq c s r rest hmatch).length_le
        exact .swap hmatch (ih rest.length (by rw [← hn, List.length_cons]; omega) rest rfl)

/-! ### Texts without a match -/

/-- The pattern matches nowhere. -/
def Clear (p : Finds) : List Char → Prop
  | [] => True
  | c :: s => p (c :: s) = none ∧ Clear p s

theorem Clear.suffix (h : Clear p s) (hsuffix : t <:+ s) : Clear p t := by
  obtain ⟨u, rfl⟩ := hsuffix
  induction u with
  | nil => exact h
  | cons c u ih => exact ih h.2

/-- A text without a match stays as it is. -/
theorem substitute_of_clear (hp : Shrinks p) (h : Clear p s) : substitute p s = s := by
  induction s with
  | nil => rfl
  | cons c s ih => rw [substitute_cons hp, h.1, ih h.2]

/-- A text whose characters no match starts with adds none in front of another. -/
theorem Clear.append {letter : Char}
    (hp : ∀ c s, sameLetter letter c = false → p (c :: s) = none) {l : List Char}
    (hl : ∀ c ∈ l, sameLetter letter c = false) (h : Clear p t) : Clear p (l ++ t) := by
  induction l with
  | nil => exact h
  | cons c l ih =>
    exact ⟨hp c _ (hl c List.mem_cons_self), ih fun x hx => hl x (List.mem_cons_of_mem c hx)⟩

/-- What `p` matches at a kept character of a rewritten text, it matches in the text. -/
def Local (p q : Finds) : Prop := ∀ ⦃c s t⦄, Rewritten q s t → (p (c :: t)).isSome = true →
  (p (c :: s)).isSome = true

/-- No match of `p` begins inside a replacement by `q`. -/
def Sealed (p q : Finds) : Prop := ∀ ⦃s r rest⦄, q s = some (r, rest) → ∀ t, Clear p t →
  Clear p (r ++ t)

/-- The rewriting of a text in which `p` matches nowhere, or of its own matches, has no
match. -/
theorem Rewritten.clear (hq : Shrinks q) (hlocal : Local p q) (hsealed : Sealed p q)
    (h : Rewritten q s t) (hclear : p = q ∨ Clear p s) : Clear p t := by
  induction h with
  | nil => trivial
  | @keep c s t hnone hrest ih =>
    refine ⟨?_, ih (hclear.imp_right And.right)⟩
    have hkept : p (c :: s) = none := by
      rcases hclear with rfl | hclear
      · exact hnone
      · exact hclear.1
    by_contra hsome
    rw [← Ne, Option.ne_none_iff_isSome] at hsome
    have hlook := hlocal hrest hsome
    rw [hkept] at hlook
    cases hlook
  | @swap c s r rest t hfound hnext ih =>
    apply hsealed hfound
    refine ih (hclear.imp_right fun hclear => ?_)
    exact hclear.2.suffix (hq c s r rest hfound)

/-! ### Words -/

/-- A text begins with a word when it is the word's letters and a rest. -/
theorem afterWord_eq_some : afterWord word s = some rest ↔
    ∃ u, s = u ++ rest ∧ List.Forall₂ (fun p c => sameLetter p c = true) word u := by
  induction word generalizing s with
  | nil =>
    simp only [afterWord, Option.some.injEq]
    constructor
    · rintro rfl
      exact ⟨[], rfl, .nil⟩
    · rintro ⟨u, hu, hnil⟩
      cases hnil
      exact hu
  | cons q word ih =>
    cases s with
    | nil =>
      simp only [afterWord, reduceCtorEq, false_iff, not_exists, not_and]
      intro u hu hforall
      cases u with
      | nil => cases hforall
      | cons x u => simp at hu
    | cons x s =>
      rw [afterWord]
      constructor
      · intro h
        split at h
        · next hx =>
          obtain ⟨u, rfl, hu⟩ := ih.mp h
          exact ⟨x :: u, rfl, List.Forall₂.cons hx hu⟩
        · cases h
      · rintro ⟨u, hu, hforall⟩
        cases hforall with
        | cons hx hrest =>
          next y u' =>
          obtain ⟨rfl, rfl⟩ := List.cons.inj hu
          rw [if_pos hx]
          exact ih.mpr ⟨u', rfl, hrest⟩

/-- A character that is no letter of the word stays behind it. -/
theorem afterWord_append (hword : ∀ q ∈ word, sameLetter q d = false) (s t : List Char) :
    afterWord word (s ++ d :: t) = (afterWord word s).map fun rest => rest ++ d :: t := by
  induction word generalizing s with
  | nil => rfl
  | cons q word ih =>
    cases s with
    | nil => simp [afterWord, hword q List.mem_cons_self]
    | cons x s =>
      rw [List.cons_append, afterWord, afterWord]
      split
      · exact ih (fun q' hq' => hword q' (List.mem_cons_of_mem q hq')) s
      · rfl

/-- What is behind a word is the end of what the word is in front of. -/
theorem suffix_of_afterWord {letter : Char} (h : afterWord (letter :: word) (c :: s) = some rest) :
    rest <:+ s := by
  obtain ⟨u, hu, hforall⟩ := afterWord_eq_some.mp h
  cases hforall
  exact ⟨_, (List.cons.inj hu).2.symm⟩

/-! ### The pieces of a pattern in a rewritten text -/

/-- The replacements by `q` start with `o`. -/
def Opens (q : Finds) (o : Char) : Prop := ∀ ⦃s r rest⦄, q s = some (r, rest) → ∃ body, r = o :: body

/-- A character that no replacement starts with was there. -/
theorem Rewritten.cons (ho : Opens q o) (hc : c ≠ o) (h : Rewritten q s (c :: t)) :
    ∃ s', s = c :: s' ∧ Rewritten q s' t := by
  generalize hw : c :: t = w at h
  cases h with
  | nil => cases hw
  | keep hnone hrest =>
    obtain ⟨rfl, rfl⟩ := List.cons.inj hw
    exact ⟨_, rfl, hrest⟩
  | swap hfound hnext =>
    obtain ⟨body, rfl⟩ := ho hfound
    exact absurd (List.cons.inj hw).1 hc

/-- The first character of a rewritten text is of a class when the text's is, if matches
start with that class as soon as replacements do. -/
theorem Rewritten.head {f : Char → Bool} (ho : Opens q o)
    (hf : f o = true → ∀ x s, (q (x :: s)).isSome = true → f x = true) (hc : f c = true)
    (h : Rewritten q s (c :: t)) : ∃ x s', s = x :: s' ∧ f x = true := by
  generalize hw : c :: t = w at h
  cases h with
  | nil => cases hw
  | keep hnone hrest =>
    obtain ⟨rfl, rfl⟩ := List.cons.inj hw
    exact ⟨_, _, rfl, hc⟩
  | swap hfound hnext =>
    obtain ⟨body, rfl⟩ := ho hfound
    obtain ⟨rfl, -⟩ := List.cons.inj hw
    exact ⟨_, _, rfl, hf hc _ _ (by rw [hfound]; rfl)⟩

/-- A word is read in a rewritten text as in the text. -/
theorem Rewritten.afterWord (ho : Opens q o) (hword : ∀ letter ∈ word, sameLetter letter o = false)
    (h : Rewritten q s t) (ht : afterWord word t = some v) :
    ∃ u, Redaction.afterWord word s = some u ∧ Rewritten q u v := by
  induction word generalizing s t with
  | nil =>
    obtain rfl := Option.some.inj ht
    exact ⟨s, rfl, h⟩
  | cons letter word ih =>
    cases t with
    | nil => cases ht
    | cons c t =>
      rw [Redaction.afterWord] at ht
      split at ht
      · next hc =>
        have hne : c ≠ o := by
          rintro rfl
          rw [hword letter List.mem_cons_self] at hc
          cases hc
        obtain ⟨s', rfl, hrest⟩ := h.cons ho hne
        obtain ⟨u, hu, hrewritten⟩ := ih (fun x hx => hword x (List.mem_cons_of_mem _ hx)) hrest ht
        refine ⟨u, ?_, hrewritten⟩
        rw [Redaction.afterWord, if_pos hc]
        exact hu
      · cases ht

/-- A run of a class is skipped in a rewritten text as in the text. -/
theorem Rewritten.dropWhile {f : Char → Bool} (ho : Opens q o) (hfo : f o = false)
    (hstart : ∀ x s, (q (x :: s)).isSome = true → f x = false) (h : Rewritten q s t) :
    Rewritten q (s.dropWhile f) (t.dropWhile f) := by
  induction h with
  | nil => exact .nil
  | @keep c s t hnone hrest ih =>
    by_cases hc : f c = true
    · rw [List.dropWhile_cons_of_pos hc, List.dropWhile_cons_of_pos hc]
      exact ih
    · rw [List.dropWhile_cons_of_neg hc, List.dropWhile_cons_of_neg hc]
      exact .keep hnone hrest
  | @swap c s r rest t hfound hnext ih =>
    obtain ⟨body, rfl⟩ := ho hfound
    have hc := hstart c s (by rw [hfound]; rfl)
    rw [List.cons_append, List.dropWhile_cons_of_neg (by simp [hc]),
      List.dropWhile_cons_of_neg (by simp [hfo]), ← List.cons_append]
    exact .swap hfound hnext

theorem shrinks_matchKey : Shrinks matchKey := by
  intro c s r rest h
  unfold matchKey at h
  split at h
  · next x tail hword =>
    split at h
    · obtain ⟨rfl, rfl⟩ := Prod.mk.inj (Option.some.inj h)
      have hsuffix := suffix_of_afterWord hword
      exact ((List.dropWhile_suffix keyChar).trans (List.suffix_cons x tail)).trans hsuffix
    · cases h
  · cases h

end Redaction

end AiSaas
