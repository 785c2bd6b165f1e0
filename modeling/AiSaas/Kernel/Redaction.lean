import AiSaas.Lib.Ascii
import AiSaas.Lib.Substitution
import AiSaas.RunService.Redaction

/-!
# Redaction at the kernel's boundaries

`redact_text` of `agent_platform/redaction.py`: three patterns, each of which starts
at a word boundary, are replaced one after the other.  Which characters beyond ASCII
are word characters is a table of the interpreter.

## Main definitions

* `wordChar` — `\w`.
* `keyPattern`, `credentialPattern`, `sensitivePattern` — `_PATTERNS`.
* `redactText` — `redact_text`.

## Main results

* `redactText_redactText` — redacting twice is redacting once.
-/

namespace AiSaas.Kernel

open Redaction Substitution

variable (alnum : Char → Bool)

/-- `\w`; beyond ASCII `alnum` is `str.isalnum`. -/
def wordChar (c : Char) : Bool :=
  (keyChar c && c != '-') || (decimal c).isSome || (decide (128 ≤ c.toNat) && !isSpace c && alnum c)

/-- A word in any case. -/
def spellWord (text : List Char) : Pattern Char := spell (wordChar alnum) (text.map sameLetter)

/-- `\s*[:=]\s*` -/
def separator : Pattern Char :=
  seq (many (wordChar alnum) isSpace)
    (seq (spell (wordChar alnum) [fun c => c == ':' || c == '=']) (many (wordChar alnum) isSpace))

/-- `(?i)\b(?:…)` of some words, and what is behind them. -/
def behindWords (words : List (List Char)) (rest : Pattern Char) : Pattern Char :=
  atBoundary (alternatives (words.map fun text => seq (spellWord alnum text) rest))

/-- `(sk|pk)-` -/
def keyWords : List (List Char) := [['s', 'k', '-'], ['p', 'k', '-']]

/-- `(?i)\b(sk|pk)-[A-Za-z0-9_-]{8,}\b` -/
def keyPattern : Pattern Char :=
  behindWords alnum keyWords (runTail (wordChar alnum) keyChar 8 0)

/-- `authorization|password|passwd|secret|token|api[_-]?key` -/
def credentialWords : List (List Char) :=
  ["authorization", "password", "passwd", "secret", "token", "api_key", "api-key", "apikey"].map
    String.toList

/-- `(?i)\b(?:…)\s*[:=]\s*[^\s,;\x7d]+` -/
def credentialPattern : Pattern Char :=
  behindWords alnum credentialWords (seq (separator alnum) (many1 (wordChar alnum) valueChar))

/-- `card(?:_number)?|ssn` -/
def sensitiveWords : List (List Char) := ["card_number", "card", "ssn"].map String.toList

/-- `(?i)\b(?:…)\s*[:=]\s*\d{4,}\b` -/
def sensitivePattern : Pattern Char :=
  behindWords alnum sensitiveWords
    (seq (separator alnum) (runTail (wordChar alnum) (fun c => (decimal c).isSome) 4 0))

/-- `[REDACTED_KEY]` -/
def keyToken : List Char := '[' :: 'R' :: "EDACTED_KEY".toList ++ [']']

/-- `[REDACTED_CREDENTIAL]` -/
def credentialToken : List Char := '[' :: 'R' :: "EDACTED_CREDENTIAL".toList ++ [']']

/-- `[REDACTED_SENSITIVE]` -/
def sensitiveToken : List Char := '[' :: 'R' :: "EDACTED_SENSITIVE".toList ++ [']']

/-- `redact_text`, on characters. -/
def redactChars (s : List Char) : List Char :=
  substitute (wordChar alnum) (sensitivePattern alnum) sensitiveToken
    (substitute (wordChar alnum) (credentialPattern alnum) credentialToken
      (substitute (wordChar alnum) (keyPattern alnum) keyToken s))

/-- `redact_text`. -/
def redactText (value : String) : String := String.ofList (redactChars alnum value.toList)

example : redactText (fun _ => false) "sk-12345678 PassWord : hunter2; card=4242x ssn: 4242" =
    "[REDACTED_KEY] [REDACTED_CREDENTIAL]; card=4242x [REDACTED_SENSITIVE]" := by decide +kernel

/-! ### Characters -/

variable {alnum} {c : Char}

theorem toNat_of_keyChar (h : keyChar c = true) :
    (48 ≤ c.toNat ∧ c.toNat ≤ 57) ∨ (65 ≤ c.toNat ∧ c.toNat ≤ 90) ∨
      (97 ≤ c.toNat ∧ c.toNat ≤ 122) ∨ c.toNat = 95 ∨ c.toNat = 45 ∨ c.toNat = 0x130 ∨
      c.toNat = 0x131 ∨ c.toNat = 0x17f ∨ c.toNat = 0x212a := by
  simp only [keyChar, Bool.or_eq_true, beq_iff_eq, Ascii.isAlphanum_iff] at h
  rcases h with ((((((h | rfl) | rfl) | rfl) | rfl) | rfl) | rfl)
  · omega
  all_goals decide

theorem isSpace_iff : isSpace c = true ↔ (9 ≤ c.toNat ∧ c.toNat ≤ 13) ∨
    (28 ≤ c.toNat ∧ c.toNat ≤ 32) ∨ c.toNat = 0x85 ∨ c.toNat = 0xA0 ∨ c.toNat = 0x1680 ∨
    (0x2000 ≤ c.toNat ∧ c.toNat ≤ 0x200A) ∨ c.toNat = 0x2028 ∨ c.toNat = 0x2029 ∨
    c.toNat = 0x202F ∨ c.toNat = 0x205F ∨ c.toNat = 0x3000 := by
  simp only [isSpace, Bool.or_eq_true, Bool.and_eq_true, decide_eq_true_eq, beq_iff_eq]
  omega

/-- The blocks of digits hold no blank character. -/
theorem decimalZeros_bounds : ∀ start ∈ decimalZeros, (start = 48 ∨ 0x660 ≤ start) ∧
    (start + 10 ≤ 0x1680 ∨ 0x1680 < start) ∧ (start + 10 ≤ 0x2000 ∨ 0x3000 < start) := by decide

theorem toNat_of_decimal (h : (decimal c).isSome = true) :
    ∃ start ∈ decimalZeros, start ≤ c.toNat ∧ c.toNat < start + 10 := by
  rw [decimal, Option.isSome_map, List.find?_isSome] at h
  simpa using h

theorem toNat_of_toLower {n : ℕ} (h : c.toLower.toNat = n) (hn : 97 ≤ n ∧ n ≤ 122) :
    (65 ≤ c.toNat ∧ c.toNat ≤ 90) ∨ (97 ≤ c.toNat ∧ c.toNat ≤ 122) := by
  unfold Char.toLower at h
  split at h
  · next hc =>
    simp only [UInt32.le_iff_toNat_le, ge_iff_le] at hc
    change 65 ≤ c.toNat ∧ c.toNat ≤ 90 at hc
    omega
  · omega

theorem keyChar_of_toNat
    (h : (65 ≤ c.toNat ∧ c.toNat ≤ 90) ∨ (97 ≤ c.toNat ∧ c.toNat ≤ 122)) : keyChar c = true := by
  have hletter : c.isAlphanum = true := Ascii.isAlphanum_iff.mpr (Or.inl h)
  simp [keyChar, hletter]

theorem wordChar_of_keyChar (hc : keyChar c = true) (hminus : c ≠ '-') :
    wordChar alnum c = true := by
  simp [wordChar, hc, hminus]

/-- A word character is no blank one, and no delimiter of a value. -/
theorem valueChar_of_wordChar (hc : wordChar alnum c = true) : valueChar c = true := by
  have hparts : isSpace c = false ∧ c.toNat ≠ 44 ∧ c.toNat ≠ 59 ∧ c.toNat ≠ 125 := by
    simp only [wordChar, Bool.or_eq_true, Bool.and_eq_true, bne_iff_ne, decide_eq_true_eq,
      Bool.not_eq_true'] at hc
    rcases hc with (⟨hkey, -⟩ | hdecimal) | ⟨⟨hascii, hspace⟩, -⟩
    · have hn := toNat_of_keyChar hkey
      rw [Bool.eq_false_iff, Ne, isSpace_iff]
      omega
    · obtain ⟨start, hstart, hle, hlt⟩ := toNat_of_decimal hdecimal
      have hbounds := decimalZeros_bounds start hstart
      rw [Bool.eq_false_iff, Ne, isSpace_iff]
      omega
    · exact ⟨hspace, by omega, by omega, by omega⟩
  obtain ⟨hspace, hcomma, hsemicolon, hbrace⟩ := hparts
  simp only [valueChar, hspace, Bool.or_false, Bool.not_eq_true', Bool.or_eq_false_iff,
    beq_eq_false_iff_ne]
  refine ⟨⟨?_, ?_⟩, ?_⟩
  · rintro rfl
    exact hcomma rfl
  · rintro rfl
    exact hsemicolon rfl
  · rintro rfl
    exact hbrace rfl

theorem isSpace_of_wordChar (hc : wordChar alnum c = true) : isSpace c = false := by
  have hvalue := valueChar_of_wordChar hc
  simp only [valueChar, Bool.not_eq_true', Bool.or_eq_false_iff] at hvalue
  exact hvalue.1.2

/-- The letters the patterns start with are word characters, in any case. -/
theorem wordChar_of_sameLetter {p : Char} (hp : p ∈ ['a', 'c', 'p', 's', 't'])
    (hc : sameLetter p c = true) : wordChar alnum c = true := by
  have hletters : ∀ p ∈ ['a', 'c', 'p', 's', 't'],
      97 ≤ p.toNat ∧ p.toNat ≤ 122 ∧ p ≠ 'k' ∧ p ≠ 'i' := by simp
  have hrange := hletters p hp
  simp only [sameLetter, Bool.or_eq_true, Bool.and_eq_true, beq_iff_eq] at hc
  rcases hc with ((hc | ⟨-, rfl⟩) | ⟨hk, -⟩) | ⟨hi, -⟩
  · have hn := toNat_of_toLower (congrArg Char.toNat hc) ⟨hrange.1, hrange.2.1⟩
    apply wordChar_of_keyChar (keyChar_of_toNat hn)
    rintro rfl
    revert hn
    decide
  · exact wordChar_of_keyChar (by decide) (by decide)
  · exact absurd hk hrange.2.2.1
  · exact absurd hi hrange.2.2.2

/-! ### The patterns -/

/-- A pattern behind words is as good as what is behind them. -/
structure Behind (alnum : Char → Bool) (words : List (List Char)) (rest : Pattern Char) : Prop where
  head : ∀ text ∈ words, text.headD ' ' ∈ ['a', 'c', 'p', 's', 't']
  bracket : ∀ text ∈ words, ∀ p ∈ text, sameLetter p '[' = false
  eats : Eats (wordChar alnum) rest
  stops : Stops (wordChar alnum) rest
  looks : ∀ ⦃q : Pattern Char⦄ ⦃body : List Char⦄, Lawful (wordChar alnum) q →
    Looks (wordChar alnum) q ('[' :: body) rest

variable {words : List (List Char)} {rest : Pattern Char}

theorem Behind.exists_cons (h : Behind alnum words rest) {text : List Char} (htext : text ∈ words) :
    ∃ p l, text = p :: l ∧ p ∈ ['a', 'c', 'p', 's', 't'] := by
  have hmem := h.head text htext
  cases text with
  | nil => exact absurd hmem (by decide)
  | cons p l => exact ⟨p, l, rfl, hmem⟩

theorem Behind.starts (h : Behind alnum words rest) : Starts (wordChar alnum)
    (alternatives (words.map fun text => seq (spellWord alnum text) rest)) := by
  apply starts_alternatives
  intro p hp
  obtain ⟨text, htext, rfl⟩ := List.mem_map.mp hp
  obtain ⟨letter, l, rfl, hletter⟩ := h.exists_cons htext
  exact Starts.seq (starts_spell fun _ hc => wordChar_of_sameLetter hletter hc) h.eats

theorem Behind.lawful (h : Behind alnum words rest) :
    Lawful (wordChar alnum) (behindWords alnum words rest) := by
  refine lawful_atBoundary ?_ h.starts ?_
  · apply eats_alternatives
    intro p hp
    obtain ⟨text, -, rfl⟩ := List.mem_map.mp hp
    exact Eats.seq (eats_spell _) h.eats
  · apply stops_alternatives
    intro p hp
    obtain ⟨text, -, rfl⟩ := List.mem_map.mp hp
    exact Stops.seq h.stops

theorem Behind.local (h : Behind alnum words rest) {q : Pattern Char}
    (hq : Lawful (wordChar alnum) q) (body : List Char) :
    Local (wordChar alnum) (behindWords alnum words rest) q ('[' :: body) := by
  apply Looks.local
  apply looks_alternatives
  intro p hp
  obtain ⟨text, htext, rfl⟩ := List.mem_map.mp hp
  refine Exact.looks (exact_spell ?_) (h.looks hq)
  intro f hf
  obtain ⟨letter, hletter, rfl⟩ := List.mem_map.mp hf
  exact h.bracket text htext letter hletter

/-- A token of word characters in brackets holds no match. -/
theorem Behind.clearIn (h : Behind alnum words rest) {body : List Char}
    (hbody : ∀ c ∈ body, keyChar c = true ∧ c ≠ '-') (b : Bool) (t : List Char) :
    ClearIn (wordChar alnum) (behindWords alnum words rest) b ('[' :: 'R' :: body ++ [']']) t := by
  refine clearIn_body h.starts rfl ?_ ?_ b t
  · intro c hc
    rcases List.mem_cons.mp hc with rfl | hc
    · rfl
    · exact wordChar_of_keyChar (hbody c hc).1 (hbody c hc).2
  · intro s
    have hletters : ∀ p ∈ ['a', 'c', 'p', 's', 't'], sameLetter p 'R' = false := by
      simp [sameLetter]
    rw [alternatives, List.findSome?_eq_none_iff]
    intro p hp
    obtain ⟨text, htext, rfl⟩ := List.mem_map.mp hp
    obtain ⟨letter, l, rfl, hletter⟩ := h.exists_cons htext
    rw [seq, spellWord, List.map_cons, spell, hletters letter hletter]
    rfl

theorem after_token (body : List Char) (b : Bool) :
    after (wordChar alnum) b ('[' :: 'R' :: body ++ [']']) = false := by
  rw [after_append]
  rfl

/-- No match begins in a token of word characters in brackets. -/
theorem Behind.sealed (h : Behind alnum words rest) {body : List Char}
    (hbody : ∀ c ∈ body, keyChar c = true ∧ c ≠ '-') :
    Sealed (wordChar alnum) (behindWords alnum words rest) ('[' :: 'R' :: body ++ [']']) :=
  sealed_of_clearIn (h.clearIn hbody) (after_token body)

theorem looks_separator {q last : Pattern Char} {body : List Char}
    (hq : Lawful (wordChar alnum) q) (hlast : Looks (wordChar alnum) q ('[' :: body) last) :
    Looks (wordChar alnum) q ('[' :: body) (seq (separator alnum) last) := by
  have hspaces : Exact (wordChar alnum) q ('[' :: body) (many (wordChar alnum) isSpace) :=
    exact_many hq rfl fun _ hc => isSpace_of_wordChar hc
  refine Exact.looks (hspaces.seq (Exact.seq (exact_spell ?_) hspaces)) hlast
  simp

theorem eats_separator : Eats (wordChar alnum) (separator alnum) :=
  Eats.seq (eats_many _) (Eats.seq (eats_spell _) (eats_many _))

theorem behind_key :
    Behind alnum keyWords (runTail (wordChar alnum) keyChar 8 0) where
  head := by decide
  bracket := by simp [keyWords, sameLetter]
  eats := eats_runTail _ _ _
  stops := stops_runTail _ _ _
  looks _ _ hq := looks_runTail hq rfl rfl _ _

theorem behind_credential :
    Behind alnum credentialWords (seq (separator alnum) (many1 (wordChar alnum) valueChar)) where
  head := by decide
  bracket := by simp [credentialWords, sameLetter]
  eats := Eats.seq eats_separator (eats_many1 _)
  stops := Stops.seq (stops_many1 fun _ hc => valueChar_of_wordChar hc)
  looks _ _ hq := looks_separator hq (looks_many1 hq fun _ hc => valueChar_of_wordChar hc)

theorem behind_sensitive : Behind alnum sensitiveWords
    (seq (separator alnum) (runTail (wordChar alnum) (fun c => (decimal c).isSome) 4 0)) where
  head := by decide
  bracket := by simp [sensitiveWords, sameLetter]
  eats := Eats.seq eats_separator (eats_runTail _ _ _)
  stops := Stops.seq (stops_runTail _ _ _)
  looks _ _ hq := looks_separator hq (looks_runTail hq rfl rfl _ _)

/-! ### Redacting twice -/

/-- The letters of the tokens are word characters. -/
theorem token_letters : ∀ c ∈ "EDACTED_KEY".toList ++ "EDACTED_CREDENTIAL".toList ++
    "EDACTED_SENSITIVE".toList, keyChar c = true ∧ c ≠ '-' := by
  have hall : ("EDACTED_KEY".toList ++ "EDACTED_CREDENTIAL".toList ++
      "EDACTED_SENSITIVE".toList).all (fun c => Decidable.decide (keyChar c = true ∧ c ≠ '-')) = true := by
    decide +kernel
  exact fun c hc => of_decide_eq_true (List.all_eq_true.mp hall c hc)

/-- **Nothing is left to redact** in a redacted text: each substitution leaves none of
its own matches, and the later ones bring back none. -/
theorem redactChars_redactChars (s : List Char) :
    redactChars alnum (redactChars alnum s) = redactChars alnum s := by
  have hletters := token_letters
  simp only [List.mem_append] at hletters
  have hkey := @behind_key alnum
  have hcredential := @behind_credential alnum
  have hsensitive := @behind_sensitive alnum
  have hkeyBody : ∀ c ∈ "EDACTED_KEY".toList, keyChar c = true ∧ c ≠ '-' :=
    fun c hc => hletters c (Or.inl (Or.inl hc))
  have hcredentialBody : ∀ c ∈ "EDACTED_CREDENTIAL".toList, keyChar c = true ∧ c ≠ '-' :=
    fun c hc => hletters c (Or.inl (Or.inr hc))
  have hsensitiveBody : ∀ c ∈ "EDACTED_SENSITIVE".toList, keyChar c = true ∧ c ≠ '-' :=
    fun c hc => hletters c (Or.inr hc)
  set first := substitute (wordChar alnum) (keyPattern alnum) keyToken s with hfirst
  set second := substitute (wordChar alnum) (credentialPattern alnum) credentialToken first
    with hsecond
  set third := substitute (wordChar alnum) (sensitivePattern alnum) sensitiveToken second
    with hthird
  have hthird' : redactChars alnum s = third := rfl
  have h1 : Clear (wordChar alnum) (keyPattern alnum) false third := by
    apply Clear.substitute hkey.lawful hsensitive.lawful (hkey.local hsensitive.lawful _)
      (hkey.sealed hsensitiveBody)
    apply Clear.substitute hkey.lawful hcredential.lawful (hkey.local hcredential.lawful _)
      (hkey.sealed hcredentialBody)
    exact clear_substitute hkey.lawful (hkey.local hkey.lawful _) (hkey.sealed hkeyBody) s
  have h2 : Clear (wordChar alnum) (credentialPattern alnum) false third := by
    apply Clear.substitute hcredential.lawful hsensitive.lawful
      (hcredential.local hsensitive.lawful _) (hcredential.sealed hsensitiveBody)
    exact clear_substitute hcredential.lawful (hcredential.local hcredential.lawful _)
      (hcredential.sealed hcredentialBody) first
  have h3 : Clear (wordChar alnum) (sensitivePattern alnum) false third :=
    clear_substitute hsensitive.lawful (hsensitive.local hsensitive.lawful _)
      (hsensitive.sealed hsensitiveBody) second
  rw [hthird', redactChars, substitute_of_clear h1, substitute_of_clear h2, substitute_of_clear h3]

/-- **Redacting twice is redacting once.** -/
theorem redactText_redactText (value : String) :
    redactText alnum (redactText alnum value) = redactText alnum value := by
  rw [redactText, redactText, String.toList_ofList, redactChars_redactChars]

end AiSaas.Kernel
