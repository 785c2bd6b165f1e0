import AiSaas.Kernel.Redaction
import AiSaas.RunService.Patterns
import Mathlib.Data.List.Forall2

/-!
# Secret words

What `redact_text` finds of the secret words of a text.  Its first pattern takes the API
keys, and with them the words in their tails; the second one finds the words that are left,
and takes the values behind them.

## Main definitions

* `Delimiter`, `SecretValue`, `Suffix` — what is in front of a value, a value, and what is
  behind it.
* `Named` — a text is a secret word, in any case.
* `Front`, `Reaches` — a secret word whose value runs into what follows the text.
* `Open`, `Guarded` — a text in front of the tail of a key; a word that no key swallows.

## Main results

* `matchSecret_append` — what the second pattern matches.
* `substitute_of_reaches`, `substitute_of_not_reaches` — what it does at a delimiter.
* `reaches_iff_guarded` — the words that the first pattern leaves.
-/

namespace AiSaas

namespace Redaction

variable {c d sep : Char} {s t u w rest run r : List Char}

/-! ### Letters -/

/-- The letter a character stands for under `(?i)`. -/
def folded (c : Char) : Char :=
  if c = '\u017f' then 's' else if c = '\u212a' then 'k'
  else if c = '\u0130' ∨ c = '\u0131' then 'i' else c.toLower

/-- A lower-case letter, or a sign that joins words. -/
def spelling (p : Char) : Bool := (97 ≤ p.toNat && p.toNat ≤ 122) || p == '_' || p == '-'

/-- A separator of a secret word and its value. -/
def isSep (c : Char) : Bool := c == '=' || c == ':'

theorem sameLetter_iff {q : Char} (hq : spelling q = true) :
    sameLetter q c = true ↔ folded c = q := by
  have hascii : q.toNat ≤ 122 := by
    simp only [spelling, Bool.or_eq_true, Bool.and_eq_true, decide_eq_true_eq, beq_iff_eq] at hq
    rcases hq with (hq | rfl) | rfl
    · exact hq.2
    all_goals decide
  simp only [sameLetter, folded, Bool.or_eq_true, Bool.and_eq_true, beq_iff_eq]
  split
  · next hc =>
    subst hc
    have hne : q ≠ '\u017f' := by
      rintro rfl
      exact absurd hascii (by decide)
    simp [hne.symm, eq_comm]
  · split
    · next hc =>
      subst hc
      have hne : q ≠ '\u212a' := by
        rintro rfl
        exact absurd hascii (by decide)
      simp [hne.symm, eq_comm]
    · split
      · next h₁ h₂ hc =>
        have hne : Char.toLower c ≠ q := by
          rintro rfl
          rcases hc with rfl | rfl <;> exact absurd hascii (by decide)
        simp [hne, hc, h₁, h₂, eq_comm]
      · next h₁ h₂ hc =>
        simp [hc, h₁, h₂]

theorem toLower_cases (c : Char) :
    (97 ≤ c.toLower.toNat ∧ c.toLower.toNat ≤ 122) ∨ c.toLower = c := by
  by_cases hupper : 65 ≤ c.toNat ∧ c.toNat ≤ 90
  · refine Or.inl ?_
    have hval : c.toLower.toNat = c.toNat + 32 := by
      have hle : c.val ≥ 65 ∧ c.val ≤ 90 := by
        simp only [UInt32.le_iff_toNat_le, ge_iff_le]
        exact hupper
      unfold Char.toLower
      rw [dif_pos (show c.val ≥ 'A'.val ∧ c.val ≤ 'Z'.val from hle)]
      change (c.val + 32).toNat = c.val.toNat + 32
      rw [UInt32.toNat_add]
      have hc : c.val.toNat ≤ 90 := hupper.2
      have h32 : UInt32.toNat 32 = 32 := rfl
      omega
    omega
  · refine Or.inr ?_
    unfold Char.toLower
    rw [dif_neg]
    simp only [UInt32.le_iff_toNat_le, ge_iff_le]
    exact hupper

theorem keyChar_of_folded (h : spelling (folded c) = true) : keyChar c = true := by
  unfold folded at h
  split at h
  · next hc => rw [hc]; rfl
  · split at h
    · next hc => rw [hc]; rfl
    · split at h
      · next hc => rcases hc with rfl | rfl <;> rfl
      · rcases toLower_cases c with hrange | hsame
        · exact Kernel.keyChar_of_toNat (Kernel.toNat_of_toLower rfl hrange)
        · rw [hsame] at h
          simp only [spelling, Bool.or_eq_true, Bool.and_eq_true, decide_eq_true_eq,
            beq_iff_eq] at h
          rcases h with (hrange | rfl) | rfl
          · exact Kernel.keyChar_of_toNat (Or.inr hrange)
          all_goals rfl

/-- A character of a key is one of a value, and neither a separator nor a bracket. -/
theorem valueChar_of_keyChar (h : keyChar c = true) :
    valueChar c = true ∧ isSep c = false ∧ c ≠ '[' ∧ c ≠ ']' := by
  have hn := Kernel.toNat_of_keyChar h
  have hspace : isSpace c = false := by
    rw [Bool.eq_false_iff, Ne, Kernel.isSpace_iff]
    omega
  have hne : ∀ x : Char, x.toNat ∈ [44, 59, 125, 61, 58, 91, 93] → c ≠ x := by
    rintro x hx rfl
    simp only [List.mem_cons, List.not_mem_nil, or_false] at hx
    omega
  refine ⟨?_, ?_, hne _ (by decide), hne _ (by decide)⟩
  · simp [valueChar, hspace, hne ',' (by decide), hne ';' (by decide), hne '\x7d' (by decide)]
  · simp [isSep, hne '=' (by decide), hne ':' (by decide)]

theorem valueChar_of_isSep (h : isSep c = true) : valueChar c = true := by
  simp only [isSep, Bool.or_eq_true, beq_iff_eq] at h
  rcases h with rfl | rfl <;> rfl

/-! ### Values -/

/-- What stands between a secret word and its value. -/
inductive Delimiter
  | equals
  | colon

/-- The character of a delimiter. -/
def Delimiter.char : Delimiter → Char
  | equals => '='
  | colon => ':'

/-- A value: not empty, and without comma, semicolon, closing brace and blank characters. -/
structure SecretValue where
  text : String
  ne : text ≠ ""
  chars : ∀ c ∈ text.toList, valueChar c = true

/-- What stands behind a value: nothing, or what begins with a character of no value. -/
structure Suffix where
  text : String
  ends : ∀ c ∈ text.toList.head?, valueChar c = false

theorem Delimiter.isSep (d : Delimiter) : isSep d.char = true := by cases d <;> rfl

theorem Delimiter.keyChar (d : Delimiter) : keyChar d.char = false := by cases d <;> rfl

/-! ### Words -/

/-- A text is a secret word, in any case. -/
def Named (u : List Char) : Prop := u.map folded ∈ secretWords

instance (u : List Char) : Decidable (Named u) := inferInstanceAs (Decidable (_ ∈ _))

theorem spelling_of_mem_secretWords : ∀ word ∈ secretWords, ∀ q ∈ word, spelling q = true := by
  have hall : ∀ word ∈ secretWords, word.all (fun q => decide (spelling q = true)) = true := by
    decide +kernel
  exact fun word hword => forall_mem_of_all (hall word hword)

theorem forall₂_sameLetter {word : List Char} (hword : ∀ q ∈ word, spelling q = true) :
    List.Forall₂ (fun q c => sameLetter q c = true) word u ↔ u.map folded = word := by
  induction word generalizing u with
  | nil => rw [List.forall₂_nil_left_iff, List.map_eq_nil_iff]
  | cons q word ih =>
    cases u with
    | nil => simp
    | cons c u =>
      rw [List.forall₂_cons, List.map_cons, List.cons.injEq, sameLetter_iff (hword q
        List.mem_cons_self), ih fun x hx => hword x (List.mem_cons_of_mem q hx)]

/-- A text begins with a word when its letters are the word's, up to case. -/
theorem afterWord_iff {word : List Char} (hword : ∀ q ∈ word, spelling q = true) :
    afterWord word s = some rest ↔ ∃ u, s = u ++ rest ∧ u.map folded = word := by
  rw [afterWord_eq_some]
  exact exists_congr fun u => and_congr_right fun _ => forall₂_sameLetter hword

theorem Named.keyChar (h : Named u) (hc : c ∈ u) : keyChar c = true :=
  keyChar_of_folded (spelling_of_mem_secretWords _ h _ (List.mem_map_of_mem hc))

theorem Named.noSep (h : Named u) : ∀ c ∈ u, isSep c = false :=
  fun _ hc => (valueChar_of_keyChar (h.keyChar hc)).2.1

theorem Named.ne_nil (h : Named u) : u ≠ [] := by
  rintro rfl
  exact absurd h (by decide +kernel)

/-! ### The second pattern -/

/-- The first answer of a list where a single item answers. -/
theorem findSome?_of_eq {α β : Type} [DecidableEq α] {f : α → Option β} {l : List α} (a : α)
    (hne : ∀ b ∈ l, b ≠ a → f b = none) : l.findSome? f = if a ∈ l then f a else none := by
  induction l with
  | nil => rfl
  | cons b l ih =>
    have hrest := ih fun x hx => hne x (List.mem_cons_of_mem b hx)
    rw [List.findSome?_cons, hrest]
    by_cases hb : b = a
    · subst hb
      rw [if_pos List.mem_cons_self]
      cases f b with
      | none => exact ite_self none
      | some _ => rfl
    · rw [hne b List.mem_cons_self hb]
      simp only [List.mem_cons, Ne.symm hb, false_or]

/-- What is in front of the first separator. -/
theorem eq_of_append_sep {x : Char} {y : List Char} (hu : ∀ c ∈ u, isSep c = false)
    (hw : ∀ c ∈ w, isSep c = false) (hsep : isSep sep = true) (hx : isSep x = true)
    (h : u ++ sep :: t = w ++ x :: y) : u = w := by
  have htake := congrArg (List.takeWhile fun c => !isSep c) h
  rwa [List.takeWhile_append_of_pos (by simpa using hu), List.takeWhile_append_of_pos
    (by simpa using hw), List.takeWhile_cons_of_neg (by simp [hsep]),
    List.takeWhile_cons_of_neg (by simp [hx]), List.append_nil, List.append_nil] at htake

/-- What is behind a value at the front of a text. -/
def behindValue : List Char → Option (List Char)
  | c :: rest => if valueChar c then some (rest.dropWhile valueChar) else none
  | [] => none

theorem behindValue_append {v : List Char} (hv : v ≠ []) (hall : ∀ c ∈ v, valueChar c = true)
    (ht : t.dropWhile valueChar = t) : behindValue (v ++ t) = some t := by
  obtain ⟨c, v, rfl⟩ := List.exists_cons_of_ne_nil hv
  rw [List.cons_append, behindValue, if_pos (hall c List.mem_cons_self),
    List.dropWhile_append_of_pos fun x hx => hall x (List.mem_cons_of_mem c hx), ht]

/-- A secret word stands in front of the first separator and a value behind it, or nothing
matches. -/
theorem matchSecret_append (hu : ∀ c ∈ u, isSep c = false) (hsep : isSep sep = true)
    (t : List Char) : matchSecret (u ++ sep :: t) = if Named u then
      (behindValue t).map fun rest => (u ++ "=[REDACTED]".toList, rest) else none := by
  have hother : ∀ word ∈ secretWords, word ≠ u.map folded → ∀ x y, isSep x = true →
      afterWord word (u ++ sep :: t) ≠ some (x :: y) := by
    intro word hmem hne x y hx hafter
    obtain ⟨u', hu', hfolded⟩ := (afterWord_iff (spelling_of_mem_secretWords word hmem)).mp hafter
    have hnamed : Named u' := by
      rw [Named, hfolded]
      exact hmem
    exact hne (hfolded.symm.trans (congrArg _ (eq_of_append_sep hu hnamed.noSep hsep hx hu').symm))
  rw [matchSecret, findSome?_of_eq (u.map folded)]
  · by_cases hnamed : Named u
    · have hafter : afterWord (u.map folded) (u ++ sep :: t) = some (sep :: t) :=
        (afterWord_iff (spelling_of_mem_secretWords _ hnamed)).mpr ⟨u, rfl, rfl⟩
      have hequals : (sep == '=' || sep == ':') = true := hsep
      rw [if_pos hnamed, if_pos (show u.map folded ∈ secretWords from hnamed), hafter]
      cases t with
      | nil => rfl
      | cons c rest =>
        simp only [hequals, Bool.true_and, List.length_map, List.take_left, behindValue]
        split <;> rfl
    · exact (if_neg hnamed).trans (if_neg hnamed).symm
  · intro word hmem hne
    split
    · next x c rest hafter =>
      split
      · next hx =>
        rw [Bool.and_eq_true] at hx
        exact absurd hafter (hother word hmem hne x (c :: rest) hx.1)
      · rfl
    · rfl

/-- A text without a separator is in front of one, or has one. -/
theorem sep_cases (s : List Char) : (∀ c ∈ s, isSep c = false) ∨
    ∃ u sep run, s = u ++ sep :: run ∧ (∀ c ∈ u, isSep c = false) ∧ isSep sep = true := by
  induction s with
  | nil => exact Or.inl fun c hc => absurd hc List.not_mem_nil
  | cons x s ih =>
    by_cases hx : isSep x = true
    · exact Or.inr ⟨[], x, s, rfl, fun c hc => absurd hc List.not_mem_nil, hx⟩
    · rw [Bool.not_eq_true] at hx
      rcases ih with hall | ⟨u, sep, run, rfl, hu, hsep⟩
      · exact Or.inl (List.forall_mem_cons.mpr ⟨hx, hall⟩)
      · exact Or.inr ⟨x :: u, sep, run, rfl, List.forall_mem_cons.mpr ⟨hx, hu⟩, hsep⟩

/-- A secret word is searched at the front of a text, and its value runs up to the end. -/
def Front (s : List Char) : Prop := ∃ u, Named u ∧
  (s = u ∨ ∃ sep run, s = u ++ sep :: run ∧ isSep sep = true ∧ ∀ c ∈ run, valueChar c = true)

/-- A search for secret words runs into what follows the text. -/
def Reaches (s : List Char) : Prop := ∃ t, t <:+ s ∧ Front t

theorem Front.valueChars (h : Front s) : ∀ c ∈ s, valueChar c = true := by
  obtain ⟨u, hu, rfl | ⟨sep, run, rfl, hsep, hrun⟩⟩ := h
  · exact fun c hc => (valueChar_of_keyChar (hu.keyChar hc)).1
  · intro c hc
    rcases List.mem_append.mp hc with hc | hc
    · exact (valueChar_of_keyChar (hu.keyChar hc)).1
    · rcases List.mem_cons.mp hc with rfl | hc
      · exact valueChar_of_isSep hsep
      · exact hrun c hc

theorem Front.ne_nil (h : Front s) : s ≠ [] := by
  obtain ⟨u, hu, rfl | ⟨sep, run, rfl, -⟩⟩ := h
  · exact hu.ne_nil
  · simp

theorem Reaches.mono (h : Reaches t) (hsuffix : t <:+ s) : Reaches s := by
  obtain ⟨b, hb, hfront⟩ := h
  exact ⟨b, hb.trans hsuffix, hfront⟩

theorem reaches_cons : Reaches (c :: s) ↔ Front (c :: s) ∨ Reaches s := by
  constructor
  · rintro ⟨b, hb, hfront⟩
    rcases List.suffix_cons_iff.mp hb with rfl | hb
    · exact Or.inl hfront
    · exact Or.inr ⟨b, hb, hfront⟩
  · rintro (hfront | ⟨b, hb, hfront⟩)
    · exact ⟨_, List.suffix_rfl, hfront⟩
    · exact ⟨b, hb.trans (List.suffix_cons c s), hfront⟩

/-- The value behind a word ends in the text: only what is behind it runs into what
follows. -/
theorem Reaches.of_append {x : List Char} (hc : valueChar c = false)
    (h : Reaches (x ++ c :: s)) : Reaches s := by
  induction x with
  | nil =>
    rcases reaches_cons.mp h with hfront | hrest
    · have hvalue := hfront.valueChars c List.mem_cons_self
      rw [hc] at hvalue
      cases hvalue
    · exact hrest
  | cons y x ih =>
    rcases reaches_cons.mp h with hfront | hrest
    · have hvalue := hfront.valueChars c (by simp)
      rw [hc] at hvalue
      cases hvalue
    · exact ih hrest

theorem shrinks_matchSecret : Shrinks matchSecret := by
  intro c s r rest h
  unfold matchSecret at h
  obtain ⟨word, hmem, hword⟩ := List.exists_of_findSome?_eq_some h
  split at hword
  · next sep x tail hafter =>
    split at hword
    · obtain ⟨rfl, rfl⟩ := Prod.mk.inj (Option.some.inj hword)
      obtain ⟨u, hu, hfolded⟩ := (afterWord_iff (spelling_of_mem_secretWords word hmem)).mp hafter
      have hne : u ≠ [] := Named.ne_nil (by rw [Named, hfolded]; exact hmem)
      obtain ⟨z, u, rfl⟩ := List.exists_cons_of_ne_nil hne
      rw [(List.cons.inj hu).2]
      exact (List.dropWhile_suffix valueChar).trans ⟨u ++ [sep, x], by simp⟩
    · cases hword
  · cases hword

/-- A text that is no value has a first character that ends it. -/
theorem exists_stop (h : ¬ ∀ c ∈ s, valueChar c = true) :
    ∃ x c y, s = x ++ c :: y ∧ (∀ z ∈ x, valueChar z = true) ∧ valueChar c = false := by
  induction s with
  | nil => exact absurd (fun c hc => absurd hc List.not_mem_nil) h
  | cons z s ih =>
    cases hz : valueChar z with
    | false => exact ⟨[], z, s, rfl, fun c hc => absurd hc List.not_mem_nil, hz⟩
    | true =>
      obtain ⟨x, c, y, rfl, hx, hc⟩ := ih fun hall => h (List.forall_mem_cons.mpr ⟨hz, hall⟩)
      exact ⟨z :: x, c, y, rfl, List.forall_mem_cons.mpr ⟨hz, hx⟩, hc⟩

/-- What the second pattern does at the front of a text with a separator behind it: it finds
nothing, a value that ends in the text, or one that runs up to its end. -/
theorem matchSecret_cases (hd : isSep d = true) (s : List Char) :
    (¬ Front s ∧ ∀ t, matchSecret (s ++ d :: t) = none) ∨
    (∃ r x c y, s = x ++ c :: y ∧ x ≠ [] ∧ valueChar c = false ∧
      ∀ t, matchSecret (s ++ d :: t) = some (r, c :: y ++ d :: t)) ∨
    (Front s ∧ ∃ r, ∀ v t, v ≠ [] → (∀ c ∈ v, valueChar c = true) → t.dropWhile valueChar = t →
      matchSecret (s ++ d :: (v ++ t)) = some (r, t)) := by
  rcases sep_cases s with hs | ⟨u, sep, run, rfl, hu, hsep⟩
  · by_cases hnamed : Named s
    · refine Or.inr (Or.inr ⟨⟨s, hnamed, Or.inl rfl⟩, s ++ "=[REDACTED]".toList, ?_⟩)
      intro v t hv hall ht
      rw [matchSecret_append hs hd, if_pos hnamed, behindValue_append hv hall ht, Option.map_some]
    · refine Or.inl ⟨?_, fun t => by rw [matchSecret_append hs hd, if_neg hnamed]⟩
      rintro ⟨u, hu, rfl | ⟨sep, run, rfl, hsep, -⟩⟩
      · exact hnamed hu
      · rw [hs sep (by simp)] at hsep
        cases hsep
  · have happend : ∀ t, u ++ sep :: run ++ d :: t = u ++ sep :: (run ++ d :: t) := by simp
    by_cases hnamed : Named u
    · by_cases hrun : ∀ c ∈ run, valueChar c = true
      · refine Or.inr (Or.inr ⟨⟨u, hnamed, Or.inr ⟨sep, run, rfl, hsep, hrun⟩⟩,
          u ++ "=[REDACTED]".toList, ?_⟩)
        intro v t hv hall ht
        -- the value begins with what is left of the text, and the delimiter
        have hvalue : ∀ c ∈ run ++ d :: v, valueChar c = true := by
          intro c hc
          rcases List.mem_append.mp hc with hc | hc
          · exact hrun c hc
          · rcases List.mem_cons.mp hc with rfl | hc
            · exact valueChar_of_isSep hd
            · exact hall c hc
        have hbehind := behindValue_append (by simp) hvalue ht
        rw [happend, matchSecret_append hu hsep, if_pos hnamed, ← List.cons_append,
          ← List.append_assoc, hbehind, Option.map_some]
      · obtain ⟨x, c, y, rfl, hx, hc⟩ : ∃ x c y, run = x ++ c :: y ∧
            (∀ z ∈ x, valueChar z = true) ∧ valueChar c = false := exists_stop hrun
        have hfront : ¬ Front (u ++ sep :: (x ++ c :: y)) := by
          intro hfront
          have hvalue := hfront.valueChars c (by simp)
          rw [hc] at hvalue
          cases hvalue
        have hstop : ∀ t, (c :: t).dropWhile valueChar = c :: t := fun t =>
          List.dropWhile_cons_of_neg (by simp [hc])
        cases hnil : x with
        | nil =>
          subst hnil
          refine Or.inl ⟨hfront, fun t => ?_⟩
          rw [happend, matchSecret_append hu hsep, if_pos hnamed]
          simp [behindValue, hc]
        | cons z x' =>
          rw [← hnil]
          refine Or.inr (Or.inl ⟨u ++ "=[REDACTED]".toList, u ++ sep :: x, c, y, by simp, by simp,
            hc, fun t => ?_⟩)
          have hbehind := behindValue_append (by rw [hnil]; simp) hx (hstop (y ++ d :: t))
          rw [happend, matchSecret_append hu hsep, if_pos hnamed, List.append_assoc, List.cons_append,
            hbehind, Option.map_some]
    · refine Or.inl ⟨?_, fun t => by rw [happend, matchSecret_append hu hsep, if_neg hnamed]⟩
      rintro ⟨w, hw, h | ⟨x, y, h, hx, -⟩⟩
      · have hnone := hw.noSep sep (h ▸ by simp)
        rw [hsep] at hnone
        cases hnone
      · exact hnamed (eq_of_append_sep hu hw.noSep hsep hx h ▸ hw)

/-- Behind a text that no search runs out of, the second pattern starts anew. -/
theorem substitute_of_not_reaches (hd : isSep d = true) (h : ¬ Reaches s) :
    ∃ w, ∀ t, substitute matchSecret (s ++ d :: t) = w ++ d :: substitute matchSecret t := by
  induction hn : s.length using Nat.strong_induction_on generalizing s with
  | h n ih =>
    cases s with
    | nil =>
      refine ⟨[], fun t => ?_⟩
      have hnone := matchSecret_append (u := []) (fun c hc => absurd hc List.not_mem_nil) hd t
      rw [if_neg fun hnamed => hnamed.ne_nil rfl, List.nil_append] at hnone
      rw [List.nil_append, substitute_cons shrinks_matchSecret, hnone, List.nil_append]
    | cons c s =>
      rcases matchSecret_cases hd (c :: s) with ⟨-, hnone⟩ | ⟨r, x, e, y, hs, hx, he, hfound⟩ |
        ⟨hfront, -⟩
      · obtain ⟨w, hw⟩ := ih s.length (by rw [← hn]; simp) (fun hs => h (reaches_cons.mpr (Or.inr hs)))
          rfl
        refine ⟨c :: w, fun t => ?_⟩
        rw [List.cons_append, substitute_cons shrinks_matchSecret, ← List.cons_append, hnone]
        dsimp only
        rw [hw, List.cons_append]
      · have hlength : (e :: y).length < n := by
          rw [← hn, hs, List.length_append]
          have := List.length_pos_of_ne_nil hx
          omega
        obtain ⟨w, hw⟩ := ih _ hlength (fun hreaches => h (hreaches.mono ⟨x, hs.symm⟩)) rfl
        refine ⟨r ++ w, fun t => ?_⟩
        rw [List.cons_append, substitute_cons shrinks_matchSecret, ← List.cons_append, hfound]
        dsimp only
        rw [hw, List.append_assoc]
      · exact absurd (reaches_cons.mpr (Or.inl hfront)) h

/-- A search that runs out of the text takes the value behind it. -/
theorem substitute_of_reaches (hd : isSep d = true) (h : Reaches s) :
    ∃ w, ∀ v t, v ≠ [] → (∀ c ∈ v, valueChar c = true) → t.dropWhile valueChar = t →
      substitute matchSecret (s ++ d :: (v ++ t)) = w ++ substitute matchSecret t := by
  induction hn : s.length using Nat.strong_induction_on generalizing s with
  | h n ih =>
    cases s with
    | nil =>
      obtain ⟨b, hb, hfront⟩ := h
      exact absurd (List.suffix_nil.mp hb) hfront.ne_nil
    | cons c s =>
      rcases matchSecret_cases hd (c :: s) with ⟨hfront, hnone⟩ | ⟨r, x, e, y, hs, hx, he, hfound⟩ |
        ⟨-, r, hfound⟩
      · obtain ⟨w, hw⟩ := ih s.length (by rw [← hn]; simp)
          ((reaches_cons.mp h).resolve_left hfront) rfl
        refine ⟨c :: w, fun v t hv hall ht => ?_⟩
        rw [List.cons_append, substitute_cons shrinks_matchSecret, ← List.cons_append, hnone]
        dsimp only
        rw [hw v t hv hall ht, List.cons_append]
      · have hlength : (e :: y).length < n := by
          rw [← hn, hs, List.length_append]
          have := List.length_pos_of_ne_nil hx
          omega
        have hbehind : Reaches (e :: y) := by
          rw [hs] at h
          exact reaches_cons.mpr (Or.inr (h.of_append he))
        obtain ⟨w, hw⟩ := ih _ hlength hbehind rfl
        refine ⟨r ++ w, fun v t hv hall ht => ?_⟩
        rw [List.cons_append, substitute_cons shrinks_matchSecret, ← List.cons_append, hfound]
        dsimp only
        rw [hw v t hv hall ht, List.append_assoc]
      · refine ⟨r, fun v t hv hall ht => ?_⟩
        rw [List.cons_append, substitute_cons shrinks_matchSecret, ← List.cons_append,
          hfound v t hv hall ht]

/-! ### The first pattern -/

theorem sameLetter_of_not_keyChar {q : Char} (hc : keyChar c = false) (hq : spelling q = true) :
    sameLetter q c = false := by
  rw [Bool.eq_false_iff]
  intro hsame
  rw [keyChar_of_folded (by rwa [(sameLetter_iff hq).mp hsame])] at hc
  cases hc

theorem wall_matchKey (hc : keyChar c = false) : Wall matchKey c where
  start t := by
    have hs := sameLetter_of_not_keyChar hc (show spelling 's' = true from rfl)
    simp [matchKey, afterWord, hs]
  before x s t := by
    have hword : ∀ q ∈ ['s', 'k', '-'], sameLetter q c = false := fun q hq =>
      sameLetter_of_not_keyChar hc (List.all_eq_true.mp (show ['s', 'k', '-'].all spelling = true
        from rfl) q hq)
    rw [matchKey, matchKey, afterWord_append hword]
    cases afterWord ['s', 'k', '-'] (x :: s) with
    | none => rfl
    | some rest =>
      cases rest with
      | nil => simp [hc]
      | cons y rest =>
        simp only [Option.map_some, List.cons_append]
        split
        · rw [dropWhile_append_stop hc, Option.map_some]
        · rfl

/-- What an API key is made of: its mark, and all the characters of a key behind it. -/
theorem matchKey_eq_some (h : matchKey s = some (r, rest)) :
    r = "[REDACTED_KEY".toList ++ [']'] ∧ ∃ mark body, s = mark ++ body ++ rest ∧
      mark.map folded = ['s', 'k', '-'] ∧ (∀ c ∈ body, keyChar c = true) ∧
      ∀ c ∈ rest.head?, keyChar c = false := by
  unfold matchKey at h
  split at h
  · next x tail hword =>
    split at h
    · next hx =>
      obtain ⟨rfl, rfl⟩ := Prod.mk.inj (Option.some.inj h)
      obtain ⟨mark, rfl, hmark⟩ := (afterWord_iff (forall_mem_of_all (by decide))).mp hword
      refine ⟨rfl, mark, x :: tail.takeWhile keyChar, ?_, hmark, ?_, ?_⟩
      · rw [List.append_assoc, List.cons_append, List.takeWhile_append_dropWhile]
      · exact List.forall_mem_cons.mpr ⟨hx, fun c hc => List.mem_takeWhile_imp hc⟩
      · intro c hc
        have hhead := List.head?_dropWhile_not keyChar tail
        rw [Option.mem_def.mp hc] at hhead
        simpa using hhead
    · cases h
  · cases h

/-- The mark of an API key consists of characters of one. -/
theorem keyChar_of_mark {mark : List Char} (h : mark.map folded = ['s', 'k', '-']) :
    ∀ c ∈ mark, keyChar c = true := by
  intro c hc
  have hmem : folded c ∈ ['s', 'k', '-'] := h ▸ List.mem_map_of_mem hc
  exact keyChar_of_folded (List.all_eq_true.mp (show ['s', 'k', '-'].all spelling = true from rfl)
    _ hmem)

theorem not_infix_secretWords : ∀ word ∈ secretWords, ¬ ['s', 'k'] <:+: word := by decide +kernel

theorem head_secretWords : ∀ word ∈ secretWords, word.head? ≠ some 'k' ∧ word.head? ≠ some '-' := by
  decide +kernel

/-- No API key begins within a secret word. -/
theorem matchKey_of_named {u₁ u₂ : List Char} (hu : Named (u₁ ++ u₂)) (hne : u₂ ≠ [])
    (hw : ∀ c ∈ w.head?, isSep c = true) : matchKey (u₂ ++ w) = none := by
  by_contra hsome
  obtain ⟨⟨r, rest⟩, hfound⟩ := Option.ne_none_iff_exists'.mp hsome
  obtain ⟨-, mark, body, hsplit, hmark, -⟩ := matchKey_eq_some hfound
  have hkey := keyChar_of_mark hmark
  obtain ⟨c₁, c₂, c₃, rfl⟩ : ∃ c₁ c₂ c₃, mark = [c₁, c₂, c₃] :=
    List.length_eq_three.mp (by rw [← List.length_map, hmark]; rfl)
  obtain ⟨x, u₂, rfl⟩ := List.exists_cons_of_ne_nil hne
  simp only [List.cons_append, List.nil_append, List.cons.injEq] at hsplit
  obtain ⟨rfl, hsplit⟩ := hsplit
  cases u₂ with
  | nil =>
    rw [List.nil_append] at hsplit
    have hsep := hw c₂ (by rw [hsplit]; rfl)
    rw [(valueChar_of_keyChar (hkey c₂ (by simp))).2.1] at hsep
    cases hsep
  | cons y u₂ =>
    obtain ⟨rfl, -⟩ := List.cons.inj hsplit
    simp only [List.map_cons, List.map_nil, List.cons.injEq, and_true] at hmark
    refine not_infix_secretWords _ hu ⟨u₁.map folded, u₂.map folded, ?_⟩
    simp [hmark.1, hmark.2.1]

/-- A secret word with a value that runs up to the end: what is behind the word. -/
theorem front_iff : Front s ↔ ∃ u w, s = u ++ w ∧ Named u ∧ (∀ c ∈ w.head?, isSep c = true) ∧
    ∀ c ∈ w, valueChar c = true := by
  constructor
  · rintro ⟨u, hu, rfl | ⟨sep, run, rfl, hsep, hrun⟩⟩
    · exact ⟨s, [], (List.append_nil s).symm, hu, by simp, by simp⟩
    · refine ⟨u, sep :: run, rfl, hu, by simpa using hsep, ?_⟩
      exact List.forall_mem_cons.mpr ⟨valueChar_of_isSep hsep, hrun⟩
  · rintro ⟨u, w, rfl, hu, hw, hall⟩
    cases w with
    | nil => exact ⟨u, hu, Or.inl (List.append_nil u)⟩
    | cons sep run =>
      exact ⟨u, hu, Or.inr ⟨sep, run, rfl, by simpa using hw, (List.forall_mem_cons.mp hall).2⟩⟩

theorem opens_matchKey : Opens matchKey '[' := fun _ _ _ h => ⟨_, (matchKey_eq_some h).1⟩

/-- A secret word is left as it is. -/
theorem rewritten_named_append {u₁ u₂ : List Char} (hu : Named (u₁ ++ u₂))
    (hw : ∀ c ∈ w.head?, isSep c = true) (h : Rewritten matchKey (u₂ ++ w) t) :
    ∃ w', t = u₂ ++ w' ∧ Rewritten matchKey w w' := by
  induction u₂ generalizing u₁ t with
  | nil => exact ⟨t, rfl, h⟩
  | cons x u₂ ih =>
    have hnone := matchKey_of_named hu (List.cons_ne_nil x u₂) hw
    cases h with
    | keep _ hrest =>
      have hshift : Named ((u₁ ++ [x]) ++ u₂) := by simpa using hu
      obtain ⟨w', rfl, hw'⟩ := ih hshift hrest
      exact ⟨w', rfl, hw'⟩
    | swap hfound _ =>
      exact absurd (hnone.symm.trans hfound) (by simp)

/-- A secret word was there as it is. -/
theorem rewritten_of_named (hu : ∀ c ∈ u, keyChar c = true)
    (h : Rewritten matchKey s (u ++ w)) : ∃ v, s = u ++ v ∧ Rewritten matchKey v w := by
  induction u generalizing s with
  | nil => exact ⟨s, rfl, h⟩
  | cons x u ih =>
    have hx := (valueChar_of_keyChar (hu x List.mem_cons_self)).2.2.1
    obtain ⟨s, rfl, hrest⟩ := h.cons opens_matchKey hx
    obtain ⟨v, rfl, hv⟩ := ih (fun c hc => hu c (List.mem_cons_of_mem x hc)) hrest
    exact ⟨v, rfl, hv⟩

/-- The characters of values are those of values behind a substitution. -/
theorem rewritten_valueChars (h : Rewritten matchKey s t) :
    (∀ c ∈ s, valueChar c = true) ↔ ∀ c ∈ t, valueChar c = true := by
  induction h with
  | nil => rfl
  | keep hnone hrest ih => rw [List.forall_mem_cons, List.forall_mem_cons, ih]
  | swap hfound hnext ih =>
    obtain ⟨rfl, mark, body, hsplit, hmark, hbody, -⟩ := matchKey_eq_some hfound
    have hmarked : ∀ c ∈ mark, valueChar c = true := fun c hc =>
      (valueChar_of_keyChar (keyChar_of_mark hmark c hc)).1
    have hkey : ∀ c ∈ body, valueChar c = true := fun c hc => (valueChar_of_keyChar (hbody c hc)).1
    rw [hsplit, List.forall_mem_append, List.forall_mem_append, List.forall_mem_append, ih]
    have htoken : ∀ c ∈ "[REDACTED_KEY".toList ++ [']'], valueChar c = true :=
      List.all_eq_true.mp (show ("[REDACTED_KEY".toList ++ [']']).all valueChar = true by decide +kernel)
    exact ⟨fun hall => ⟨htoken, hall.2⟩, fun hall => ⟨⟨hmarked, hkey⟩, hall.2⟩⟩

/-- What is behind a word is behind it when the text is rewritten. -/
theorem rewritten_head_sep (h : Rewritten matchKey w t) :
    (∀ c ∈ w.head?, isSep c = true) ↔ ∀ c ∈ t.head?, isSep c = true := by
  cases h with
  | nil => rfl
  | keep hnone hrest => rfl
  | swap hfound hnext =>
    obtain ⟨rfl, mark, body, hsplit, hmark, -⟩ := matchKey_eq_some hfound
    refine iff_of_false ?_ ?_
    · intro hsep
      have hkey := keyChar_of_mark hmark
      cases mark with
      | nil => cases hmark
      | cons x mark =>
        have hx : isSep x = true := hsep x (by rw [hsplit]; rfl)
        rw [(valueChar_of_keyChar (hkey x List.mem_cons_self)).2.1] at hx
        cases hx
    · intro hsep
      exact absurd (hsep '[' rfl) (by decide)

theorem rewritten_front (h : Rewritten matchKey s t) : Front s ↔ Front t := by
  rw [front_iff, front_iff]
  constructor
  · rintro ⟨u, w, rfl, hu, hw, hall⟩
    have hwhole : Named ([] ++ u) := hu
    obtain ⟨w', rfl, hw'⟩ := rewritten_named_append hwhole hw h
    exact ⟨u, w', rfl, hu, (rewritten_head_sep hw').mp hw, (rewritten_valueChars hw').mp hall⟩
  · rintro ⟨u, w', rfl, hu, hw', hall⟩
    obtain ⟨w, rfl, hw⟩ := rewritten_of_named (fun c hc => hu.keyChar hc) h
    exact ⟨u, w, rfl, hu, (rewritten_head_sep hw).mpr hw', (rewritten_valueChars hw).mpr hall⟩

/-! ### Words that no key swallows -/

/-- A text that ends within an API key, or right behind the mark of one. -/
def Open (a : List Char) : Prop := ∃ mark body, mark ++ body <:+ a ∧
  mark.map folded = ['s', 'k', '-'] ∧ ∀ c ∈ body, keyChar c = true

/-- A secret word that no API key swallows is searched, and its value runs up to the end. -/
def Guarded (s : List Char) : Prop := ∃ a b, s = a ++ b ∧ ¬ Open a ∧ Front b

theorem Front.exists_head (h : Front s) : ∃ c s', s = c :: s' ∧ keyChar c = true := by
  obtain ⟨u, w, rfl, hu, -⟩ := front_iff.mp h
  obtain ⟨c, u, rfl⟩ := List.exists_cons_of_ne_nil hu.ne_nil
  exact ⟨c, u ++ w, rfl, hu.keyChar List.mem_cons_self⟩

theorem guarded_cons (hnone : matchKey (c :: s) = none) :
    Guarded (c :: s) ↔ Front (c :: s) ∨ Guarded s := by
  constructor
  · rintro ⟨a, b, hsplit, hopen, hb⟩
    cases a with
    | nil =>
      rw [List.nil_append] at hsplit
      exact Or.inl (hsplit ▸ hb)
    | cons x a =>
      obtain ⟨rfl, rfl⟩ := List.cons.inj hsplit
      refine Or.inr ⟨a, b, rfl, ?_, hb⟩
      rintro ⟨mark, body, hsuffix, hopened⟩
      exact hopen ⟨mark, body, hsuffix.trans (List.suffix_cons c a), hopened⟩
  · rintro (hfront | ⟨a, b, rfl, hopen, hb⟩)
    · refine ⟨[], c :: s, rfl, ?_, hfront⟩
      rintro ⟨mark, body, hsuffix, hmark, -⟩
      obtain ⟨rfl, -⟩ := List.append_eq_nil_iff.mp (List.suffix_nil.mp hsuffix)
      cases hmark
    · refine ⟨c :: a, b, rfl, ?_, hb⟩
      rintro ⟨mark, body, hsuffix, hmark, hbody⟩
      rcases List.suffix_cons_iff.mp hsuffix with heq | hsuffix
      · -- the key would have gone on into the word
        obtain ⟨x, b, rfl, hx⟩ := hb.exists_head
        have hword : afterWord ['s', 'k', '-'] (c :: (a ++ x :: b)) = some (body ++ x :: b) :=
          (afterWord_iff (forall_mem_of_all (by decide))).mpr ⟨mark, by rw [← List.cons_append, ← heq,
            List.append_assoc], hmark⟩
        rw [matchKey, hword] at hnone
        cases body with
        | nil => simp [hx] at hnone
        | cons y body => simp [hbody y List.mem_cons_self] at hnone
      · exact hopen ⟨mark, body, hsuffix, hmark, hbody⟩

/-- No secret word begins within the mark of a key. -/
theorem not_front_of_mark {a y : List Char} (hmark : (a ++ y).map folded = ['s', 'k', '-'])
    (hopen : ¬ Open a) (hfound : matchKey (a ++ y ++ w ++ rest) = some (r, t)) :
    ¬ Front (y ++ w ++ rest) := by
  intro hb
  obtain ⟨u, v, hsplit, hu, hv, -⟩ := front_iff.mp hb
  cases a with
  | nil =>
    have hwhole : Named ([] ++ u) := hu
    rw [List.nil_append, hsplit, matchKey_of_named hwhole hu.ne_nil hv] at hfound
    cases hfound
  | cons x a =>
    cases y with
    | nil => exact hopen ⟨x :: a, [], by simp, by simpa using hmark, by simp⟩
    | cons z y =>
      obtain ⟨z', u, rfl⟩ := List.exists_cons_of_ne_nil hu.ne_nil
      obtain ⟨rfl, -⟩ := List.cons.inj hsplit
      have hhead := head_secretWords _ hu
      simp only [List.map_cons, List.head?_cons, ne_eq, Option.some.injEq] at hhead
      have hmem : folded z ∈ ['k', '-'] := by
        simp only [List.cons_append, List.map_cons, List.cons.injEq] at hmark
        rw [← hmark.2]
        simp
      simp [hhead] at hmem

/-- A word that a key swallows is not searched. -/
theorem guarded_of_found (hfound : matchKey s = some (r, rest)) : Guarded s ↔ Guarded rest := by
  obtain ⟨-, mark, body, rfl, hmark, hbody, hrest⟩ := matchKey_eq_some hfound
  constructor
  · rintro ⟨a, b, hsplit, hopen, hb⟩
    rcases List.append_eq_append_iff.mp hsplit with ⟨a, rfl, rfl⟩ | ⟨x, hinside, rfl⟩
    · refine ⟨a, b, rfl, ?_, hb⟩
      rintro ⟨mark', body', hsuffix, hopened⟩
      exact hopen ⟨mark', body', hsuffix.trans (List.suffix_append _ a), hopened⟩
    · exfalso
      rcases List.append_eq_append_iff.mp hinside with ⟨y, rfl, rfl⟩ | ⟨y, rfl, rfl⟩
      · exact hopen ⟨mark, y, List.suffix_rfl, hmark, fun c hc => hbody c (by simp [hc])⟩
      · -- the word would begin within the mark
        exact not_front_of_mark hmark hopen hfound hb
  · rintro ⟨a, b, rfl, hopen, hb⟩
    refine ⟨mark ++ body ++ a, b, (List.append_assoc _ a b).symm, ?_, hb⟩
    rintro ⟨mark', body', hsuffix, hmark', hbody'⟩
    rcases List.suffix_or_suffix_of_suffix hsuffix (List.suffix_append (mark ++ body) a) with
      hinside | hacross
    · exact hopen ⟨mark', body', hinside, hmark', hbody'⟩
    · -- the key would have gone on
      have hkey : ∀ c ∈ a, keyChar c = true := by
        intro c hc
        rcases List.mem_append.mp (hacross.mem hc) with hc | hc
        · exact keyChar_of_mark hmark' c hc
        · exact hbody' c hc
      obtain ⟨x, b, rfl, hx⟩ := hb.exists_head
      cases a with
      | nil =>
        rw [hrest x rfl] at hx
        cases hx
      | cons y a =>
        have hy := hkey y List.mem_cons_self
        rw [hrest y rfl] at hy
        cases hy

/-- No secret word begins in a token. -/
theorem reaches_token : ∀ {l : List Char}, (∀ c ∈ l, isSep c = false) →
    (Reaches (l ++ ']' :: t) ↔ Reaches t) := by
  have hfront : ∀ {l : List Char}, (∀ c ∈ l, isSep c = false) → ¬ Front (l ++ ']' :: t) := by
    intro l hl h
    obtain ⟨u, w, hsplit, hu, hw, -⟩ := front_iff.mp h
    rcases List.append_eq_append_iff.mp hsplit with ⟨x, rfl, hx⟩ | ⟨x, rfl, rfl⟩
    · cases x with
      | nil =>
        rw [List.nil_append] at hx
        exact absurd (hw ']' (by rw [← hx]; rfl)) (by decide)
      | cons y x =>
        obtain ⟨rfl, -⟩ := List.cons.inj hx
        exact (valueChar_of_keyChar (hu.keyChar (c := ']') (by simp))).2.2.2 rfl
    · cases x with
      | nil => exact absurd (hw ']' rfl) (by decide)
      | cons y x =>
        have hy := hw y rfl
        rw [hl y (by simp)] at hy
        cases hy
  intro l hl
  induction l with
  | nil =>
    rw [List.nil_append, reaches_cons]
    exact or_iff_right (hfront (l := []) hl)
  | cons c l ih =>
    rw [List.cons_append, reaches_cons, ih (List.forall_mem_cons.mp hl).2]
    exact or_iff_right (hfront hl)

/-- **The second pattern searches the words that no key swallows.** -/
theorem reaches_iff_guarded (h : Rewritten matchKey s t) : Reaches t ↔ Guarded s := by
  induction h with
  | nil =>
    refine iff_of_false ?_ ?_
    · rintro ⟨b, hb, hfront⟩
      exact hfront.ne_nil (List.suffix_nil.mp hb)
    · rintro ⟨a, b, hsplit, -, hfront⟩
      exact hfront.ne_nil (List.append_eq_nil_iff.mp hsplit.symm).2
  | keep hnone hrest ih =>
    rw [reaches_cons, guarded_cons hnone, ih, rewritten_front (.keep hnone hrest)]
  | swap hfound hnext ih =>
    rw [guarded_of_found hfound, ← ih, (matchKey_eq_some hfound).1, List.append_assoc,
      List.singleton_append]
    exact reaches_token (forall_mem_of_all (by decide +kernel))

end Redaction

end AiSaas
