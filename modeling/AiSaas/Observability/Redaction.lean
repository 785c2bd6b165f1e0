import AiSaas.Kernel.Redaction
import AiSaas.RunService.Patterns

/-!
# Redaction of trace texts

`_redact_string` of `services/observability/otel.py`: API keys, bearer tokens and card
numbers are replaced, one pattern after the other.

## Main definitions

* `matchBearer`, `matchCard` — the patterns beside `matchKey`, which `store.py` shares.
* `redactString` — `_redact_string`.

## Main results

* `redactString_redactString` — redacting twice is redacting once.
-/

namespace AiSaas.Observability

open Redaction

/-- `[A-Za-z0-9._~-]` under `(?i)`. -/
def bearerChar (c : Char) : Bool := keyChar c || c == '.' || c == '~'

/-- `bearer` -/
def bearerWord : List Char := ['b', 'e', 'a', 'r', 'e', 'r']

/-- `(?i)bearer\s+[A-Za-z0-9._~-]+` -/
def matchBearer (s : List Char) : Option (List Char × List Char) :=
  match afterWord bearerWord s with
  | some (x :: rest) =>
    if isSpace x then
      match rest.dropWhile isSpace with
      | c :: rest => if bearerChar c then some ("Bearer [REDACTED]".toList, rest.dropWhile bearerChar)
        else none
      | [] => none
    else none
  | _ => none

/-- `card(?:_number)?` -/
def cardWords : List (List Char) := ["card_number", "card"].map String.toList

/-- `[=:]\s*\d+` behind the word. -/
def matchNumber (s : List Char) : Option (List Char) :=
  match s with
  | sep :: rest =>
    if sep == '=' || sep == ':' then
      match rest.dropWhile isSpace with
      | c :: rest => if (decimal c).isSome then some (rest.dropWhile fun c => (decimal c).isSome)
        else none
      | [] => none
    else none
  | [] => none

/-- `(?i)card(?:_number)?[=:]\s*\d+` -/
def matchCard (s : List Char) : Option (List Char × List Char) :=
  (cardWords.findSome? fun word => (afterWord word s).bind matchNumber).map fun rest =>
    ("card=[REDACTED]".toList, rest)

/-- `_redact_string`. -/
def redactString (value : String) : String :=
  String.ofList (substitute matchCard (substitute matchBearer (substitute matchKey value.toList)))

example : redactString "sk-abc Bearer  xyz; card_number: 42, card=x" =
    "[REDACTED_KEY] Bearer [REDACTED]; card=[REDACTED], card=x" := by decide +kernel

/-! ### What the patterns match -/

variable {q : Finds} {c o : Char} {s t r rest : List Char}

theorem matchKey_eq_some (h : matchKey s = some (r, rest)) :
    r = "[REDACTED_KEY]".toList ∧ ∃ tail, afterWord ['s', 'k', '-'] s = some tail := by
  unfold matchKey at h
  split at h
  · next x tail hword =>
    split at h
    · exact ⟨(Prod.mk.inj (Option.some.inj h)).1.symm, _, hword⟩
    · cases h
  · cases h

theorem matchBearer_eq_some (h : matchBearer s = some (r, rest)) :
    r = "Bearer [REDACTED]".toList ∧
      ∃ tail, afterWord bearerWord s = some tail ∧ rest <:+ tail := by
  unfold matchBearer at h
  split at h
  · next x tail hword =>
    split at h
    · split at h
      · next c rest' hdrop =>
        split at h
        · obtain ⟨rfl, rfl⟩ := Prod.mk.inj (Option.some.inj h)
          have hspaces : c :: rest' <:+ tail := hdrop ▸ List.dropWhile_suffix isSpace
          have hrest := (List.dropWhile_suffix bearerChar).trans (List.suffix_cons c rest')
          exact ⟨rfl, _, hword, (hrest.trans hspaces).trans (List.suffix_cons x tail)⟩
        · cases h
      · cases h
    · cases h
  · cases h

theorem suffix_of_matchNumber (h : matchNumber s = some rest) : rest <:+ s := by
  unfold matchNumber at h
  split at h
  · next sep tail =>
    split at h
    · split at h
      · next c rest' hdrop =>
        split at h
        · obtain rfl := Option.some.inj h
          have hspaces : c :: rest' <:+ tail := hdrop ▸ List.dropWhile_suffix isSpace
          have hrest := (List.dropWhile_suffix fun c => (decimal c).isSome).trans
            (List.suffix_cons c rest')
          exact (hrest.trans hspaces).trans (List.suffix_cons sep tail)
        · cases h
      · cases h
    · cases h
  · cases h

theorem matchCard_eq_some (h : matchCard s = some (r, rest)) : r = "card=[REDACTED]".toList ∧
    ∃ word ∈ cardWords, ∃ tail, afterWord word s = some tail ∧ rest <:+ tail := by
  obtain ⟨rest', hfound, heq⟩ := Option.map_eq_some_iff.mp h
  obtain ⟨rfl, rfl⟩ := Prod.mk.inj heq
  obtain ⟨word, hword, hmatch⟩ := List.exists_of_findSome?_eq_some hfound
  obtain ⟨tail, htail, hnumber⟩ := Option.bind_eq_some_iff.mp hmatch
  exact ⟨rfl, word, hword, tail, htail, suffix_of_matchNumber hnumber⟩

theorem shrinks_matchBearer : Shrinks matchBearer := by
  intro c s r rest h
  obtain ⟨-, tail, hword, hrest⟩ := matchBearer_eq_some h
  exact hrest.trans (suffix_of_afterWord hword)

theorem cardWords_cases {word : List Char} (h : word ∈ cardWords) :
    ∃ letters, word = 'c' :: letters := by
  simp only [cardWords, List.map_cons, List.map_nil, List.mem_cons, List.not_mem_nil, or_false] at h
  rcases h with rfl | rfl
  · exact ⟨_, rfl⟩
  · exact ⟨_, rfl⟩

theorem shrinks_matchCard : Shrinks matchCard := by
  intro c s r rest h
  obtain ⟨-, word, hword, tail, htail, hrest⟩ := matchCard_eq_some h
  obtain ⟨letters, rfl⟩ := cardWords_cases hword
  exact hrest.trans (suffix_of_afterWord htail)

/-- What replaces a match starts with a character that tells which pattern matched. -/
theorem opens_matchKey : Opens matchKey '[' := fun _ _ _ h => ⟨_, (matchKey_eq_some h).1⟩

theorem opens_matchBearer : Opens matchBearer 'B' := fun _ _ _ h => ⟨_, (matchBearer_eq_some h).1⟩

theorem opens_matchCard : Opens matchCard 'c' := fun _ _ _ h => ⟨_, (matchCard_eq_some h).1⟩

/-- The first letter of a word stands at the front. -/
theorem head_of_afterWord {letter : Char} {word : List Char}
    (h : afterWord (letter :: word) (c :: s) = some rest) : sameLetter letter c = true := by
  rw [afterWord] at h
  split at h
  · assumption
  · cases h

/-- A letter other than `i`, `k` and `s` is in two cases. -/
theorem sameLetter_cases {letter : Char} (hletter : letter ∈ ['b', 'c'])
    (h : sameLetter letter c = true) : keyChar c = true ∧ isSpace c = false := by
  have hrange : letter ≠ 's' ∧ letter ≠ 'k' ∧ letter ≠ 'i' ∧ 97 ≤ letter.toNat ∧
      letter.toNat ≤ 122 := by
    rcases List.mem_pair.mp hletter with rfl | rfl <;> decide
  simp only [sameLetter, Bool.or_eq_true, Bool.and_eq_true, beq_iff_eq, hrange.1, hrange.2.1,
    hrange.2.2.1, false_and, or_false] at h
  have hn := Kernel.toNat_of_toLower (congrArg Char.toNat h) hrange.2.2.2
  refine ⟨Kernel.keyChar_of_toNat hn, ?_⟩
  rw [Bool.eq_false_iff, Ne, Kernel.isSpace_iff]
  omega

/-! ### A pattern in what another has rewritten -/

/-- Replacements start with `o`, and what they replace with an ASCII letter or a relative. -/
structure Marks (q : Finds) (o : Char) : Prop where
  opens : Opens q o
  head : ∀ x s, (q (x :: s)).isSome = true → keyChar x = true ∧ isSpace x = false
  mark : o ∈ ['[', 'B', 'c']

theorem marks_matchKey : Marks matchKey '[' where
  opens := opens_matchKey
  head x s h := by
    obtain ⟨⟨r, rest⟩, hfound⟩ := Option.isSome_iff_exists.mp h
    obtain ⟨-, tail, hword⟩ := matchKey_eq_some hfound
    have hs := head_of_afterWord hword
    simp only [sameLetter, Bool.or_eq_true, Bool.and_eq_true, beq_iff_eq] at hs
    rcases hs with ((hs | ⟨-, rfl⟩) | ⟨hk, -⟩) | ⟨hi, -⟩
    · have hn := Kernel.toNat_of_toLower (congrArg Char.toNat hs) (by decide)
      refine ⟨Kernel.keyChar_of_toNat hn, ?_⟩
      rw [Bool.eq_false_iff, Ne, Kernel.isSpace_iff]
      omega
    · decide
    · exact absurd hk (by decide)
    · exact absurd hi (by decide)
  mark := by decide

theorem marks_matchBearer : Marks matchBearer 'B' where
  opens := opens_matchBearer
  head x s h := by
    obtain ⟨⟨r, rest⟩, hfound⟩ := Option.isSome_iff_exists.mp h
    obtain ⟨-, tail, hword, -⟩ := matchBearer_eq_some hfound
    exact sameLetter_cases (by decide) (head_of_afterWord hword)
  mark := by decide

theorem marks_matchCard : Marks matchCard 'c' where
  opens := opens_matchCard
  head x s h := by
    obtain ⟨⟨r, rest⟩, hfound⟩ := Option.isSome_iff_exists.mp h
    obtain ⟨-, word, hmem, tail, hword, -⟩ := matchCard_eq_some hfound
    obtain ⟨letters, rfl⟩ := cardWords_cases hmem
    exact sameLetter_cases (by decide) (head_of_afterWord hword)
  mark := by decide

/-- A word whose first letter was kept is read as before. -/
theorem Marks.afterWord (hq : Marks q o) {letter : Char} {word : List Char}
    (hword : ∀ x ∈ word, sameLetter x o = false) (h : Rewritten q s t) {v : List Char}
    (ht : afterWord (letter :: word) (c :: t) = some v) :
    ∃ u, Redaction.afterWord (letter :: word) (c :: s) = some u ∧ Rewritten q u v := by
  rw [Redaction.afterWord] at ht ⊢
  split at ht
  · next hc =>
    rw [if_pos hc]
    exact h.afterWord hq.opens hword ht
  · cases ht

theorem Marks.spaces (hq : Marks q o) (h : Rewritten q s t) :
    Rewritten q (s.dropWhile isSpace) (t.dropWhile isSpace) := by
  have ho : isSpace o = false := by
    have hmark := hq.mark
    simp only [List.mem_cons, List.not_mem_nil, or_false] at hmark
    rcases hmark with rfl | rfl | rfl <;> rfl
  exact h.dropWhile hq.opens ho fun x s hx => (hq.head x s hx).2

theorem local_matchKey (hq : Marks q o) : Local matchKey q := by
  intro c s t hrewritten hsome
  have hletters : ∀ x ∈ ['k', '-'], sameLetter x o = false := by
    have hmark := hq.mark
    simp only [List.mem_cons, List.not_mem_nil, or_false] at hmark
    rcases hmark with rfl | rfl | rfl <;> exact forall_mem_of_all (by decide)
  rw [matchKey] at hsome
  split at hsome
  · next x v hword =>
    split at hsome
    · next hx =>
      obtain ⟨u, hu, hrest⟩ := hq.afterWord hletters hrewritten hword
      obtain ⟨y, u, rfl, hy⟩ := hrest.head (f := keyChar) hq.opens
        (fun _ x s h => (hq.head x s h).1) hx
      rw [matchKey]
      simp only [hu, hy, if_true, Option.isSome_some]
    · cases hsome
  · cases hsome

theorem local_matchBearer (hq : Marks q o) : Local matchBearer q := by
  intro c s t hrewritten hsome
  have hletters : ∀ x ∈ ['e', 'a', 'r', 'e', 'r'], sameLetter x o = false := by
    have hmark := hq.mark
    simp only [List.mem_cons, List.not_mem_nil, or_false] at hmark
    rcases hmark with rfl | rfl | rfl <;> exact forall_mem_of_all (by decide)
  have hspace : isSpace o = false := by
    have hmark := hq.mark
    simp only [List.mem_cons, List.not_mem_nil, or_false] at hmark
    rcases hmark with rfl | rfl | rfl <;> rfl
  rw [matchBearer] at hsome
  split at hsome
  · next x v hword =>
    split at hsome
    · next hx =>
      split at hsome
      · next y v' hdrop =>
        split at hsome
        · next hy =>
          obtain ⟨u, hu, hrest⟩ := hq.afterWord hletters hrewritten hword
          have hne : x ≠ o := by
            rintro rfl
            rw [hspace] at hx
            cases hx
          obtain ⟨u, rfl, hbehind⟩ := hrest.cons hq.opens hne
          have hspaces := hq.spaces hbehind
          rw [hdrop] at hspaces
          obtain ⟨z, u', hz, hclass⟩ := hspaces.head (f := bearerChar) hq.opens
            (fun _ x s h => by simp [bearerChar, (hq.head x s h).1]) hy
          rw [matchBearer]
          have hu' : afterWord bearerWord (c :: s) = some (x :: u) := hu
          simp only [hu', hx, hz, hclass, if_true, Option.isSome_some]
        · cases hsome
      · cases hsome
    · cases hsome
  · cases hsome

theorem isSome_matchNumber (hq : Marks q 'c') (h : Rewritten q s t)
    (hsome : (matchNumber t).isSome = true) : (matchNumber s).isSome = true := by
  rw [matchNumber.eq_def] at hsome
  split at hsome
  · next sep t =>
    split at hsome
    · next hsep =>
      split at hsome
      · next y t' hdrop =>
        split at hsome
        · next hy =>
          have hne : sep ≠ 'c' := by
            rintro rfl
            revert hsep
            decide
          obtain ⟨s, rfl, hrest⟩ := h.cons hq.opens hne
          have hspaces := hq.spaces hrest
          rw [hdrop] at hspaces
          obtain ⟨z, s', hz, hclass⟩ := hspaces.head (f := fun c => (decimal c).isSome) hq.opens
            (fun hc => absurd hc (by decide)) hy
          rw [matchNumber]
          simp only [hsep, hz, hclass, if_true, Option.isSome_some]
        · cases hsome
      · cases hsome
    · cases hsome
  · cases hsome

theorem local_matchCard (hq : Marks q 'c') : Local matchCard q := by
  intro c s t hrewritten hsome
  rw [matchCard, Option.isSome_map, List.findSome?_isSome_iff] at hsome ⊢
  obtain ⟨word, hword, hmatch⟩ := hsome
  obtain ⟨letters, hletters, rfl⟩ : ∃ letters, (∀ x ∈ letters, sameLetter x 'c' = false) ∧
      word = 'c' :: letters := by
    simp only [cardWords, List.map_cons, List.map_nil, List.mem_cons, List.not_mem_nil,
      or_false] at hword
    rcases hword with rfl | rfl
    · exact ⟨"ard_number".toList, forall_mem_of_all (by decide), rfl⟩
    · exact ⟨"ard".toList, forall_mem_of_all (by decide), rfl⟩
  refine ⟨_, hword, ?_⟩
  obtain ⟨rest, hrest⟩ := Option.isSome_iff_exists.mp hmatch
  obtain ⟨v, hv, hnumber⟩ := Option.bind_eq_some_iff.mp hrest
  obtain ⟨u, hu, hrewritten'⟩ := hq.afterWord hletters hrewritten hv
  rw [hu]
  exact isSome_matchNumber hq hrewritten' (by rw [hnumber]; rfl)

/-! ### The replacements hold no match -/

theorem matchKey_eq_none (c : Char) (s : List Char) (h : sameLetter 's' c = false) :
    matchKey (c :: s) = none := by
  simp [matchKey, Redaction.afterWord, h]

theorem matchBearer_eq_none (c : Char) (s : List Char) (h : sameLetter 'b' c = false) :
    matchBearer (c :: s) = none := by
  simp [matchBearer, bearerWord, Redaction.afterWord, h]

theorem sealed_matchKey : Sealed matchKey matchKey ∧ Sealed matchKey matchBearer ∧
    Sealed matchKey matchCard := by
  refine ⟨?_, ?_, ?_⟩
  · intro s r rest h t ht
    obtain ⟨rfl, -⟩ := matchKey_eq_some h
    exact ht.append matchKey_eq_none (forall_mem_of_all (by decide))
  · intro s r rest h t ht
    obtain ⟨rfl, -⟩ := matchBearer_eq_some h
    exact ht.append matchKey_eq_none (forall_mem_of_all (by decide))
  · intro s r rest h t ht
    obtain ⟨rfl, -⟩ := matchCard_eq_some h
    exact ht.append matchKey_eq_none (forall_mem_of_all (by decide))

theorem sealed_matchBearer : Sealed matchBearer matchBearer ∧ Sealed matchBearer matchCard := by
  refine ⟨?_, ?_⟩
  · intro s r rest h t ht
    obtain ⟨rfl, -⟩ := matchBearer_eq_some h
    -- the word is there, but the bracket behind the space is in no token
    exact ⟨rfl, ht.append (l := "earer [REDACTED]".toList) matchBearer_eq_none (forall_mem_of_all (by decide))⟩
  · intro s r rest h t ht
    obtain ⟨rfl, -⟩ := matchCard_eq_some h
    exact ht.append matchBearer_eq_none (forall_mem_of_all (by decide))

theorem matchCard_eq_none (c : Char) (s : List Char) (h : sameLetter 'c' c = false) :
    matchCard (c :: s) = none := by
  rw [matchCard, Option.map_eq_none_iff, List.findSome?_eq_none_iff]
  intro word hword
  obtain ⟨letters, rfl⟩ := cardWords_cases hword
  simp [Redaction.afterWord, h]

theorem sealed_matchCard : Sealed matchCard matchCard := by
  intro s r rest h t ht
  obtain ⟨rfl, -⟩ := matchCard_eq_some h
  have htail := ht.append (l := "TED]".toList) matchCard_eq_none (forall_mem_of_all (by decide))
  have hmark := Clear.append (l := "ard=[REDA".toList) matchCard_eq_none (forall_mem_of_all (by decide))
    (show Clear matchCard ('C' :: ("TED]".toList ++ t)) from ⟨rfl, htail⟩)
  exact ⟨rfl, hmark⟩

/-- **Redacting twice is redacting once.** -/
theorem redactString_redactString (value : String) :
    redactString (redactString value) = redactString value := by
  set first := substitute matchKey value.toList with hfirst
  set second := substitute matchBearer first with hsecond
  set third := substitute matchCard second with hthird
  have hkey₁ : Clear matchKey first :=
    (rewritten_substitute shrinks_matchKey _).clear shrinks_matchKey
      (local_matchKey marks_matchKey) sealed_matchKey.1 (Or.inl rfl)
  have hkey₂ : Clear matchKey second :=
    (rewritten_substitute shrinks_matchBearer _).clear shrinks_matchBearer
      (local_matchKey marks_matchBearer) sealed_matchKey.2.1 (Or.inr hkey₁)
  have hkey : Clear matchKey third :=
    (rewritten_substitute shrinks_matchCard _).clear shrinks_matchCard
      (local_matchKey marks_matchCard) sealed_matchKey.2.2 (Or.inr hkey₂)
  have hbearer₂ : Clear matchBearer second :=
    (rewritten_substitute shrinks_matchBearer _).clear shrinks_matchBearer
      (local_matchBearer marks_matchBearer) sealed_matchBearer.1 (Or.inl rfl)
  have hbearer : Clear matchBearer third :=
    (rewritten_substitute shrinks_matchCard _).clear shrinks_matchCard
      (local_matchBearer marks_matchCard) sealed_matchBearer.2 (Or.inr hbearer₂)
  have hcard : Clear matchCard third :=
    (rewritten_substitute shrinks_matchCard _).clear shrinks_matchCard
      (local_matchCard marks_matchCard) sealed_matchCard (Or.inl rfl)
  have honce : redactString value = String.ofList third := rfl
  rw [honce, redactString, String.toList_ofList, substitute_of_clear shrinks_matchKey hkey,
    substitute_of_clear shrinks_matchBearer hbearer, substitute_of_clear shrinks_matchCard hcard]

end AiSaas.Observability
