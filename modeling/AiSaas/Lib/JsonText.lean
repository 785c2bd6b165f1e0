import Mathlib.Data.Int.Notation
import Mathlib.Data.List.Basic
import Mathlib.Data.List.TakeWhile
import Mathlib.Tactic.Common
import Mathlib.Tactic.IntervalCases

/-!
# JSON texts

A writer and a reader of JSON texts, for values whose numbers are unbounded
integers or floats given by the text that is written for them.  The writer uses
ASCII only and the separators `, ` and `: `; the reader takes any text of the
grammar, white space included.  Integers are limited in the number of digits that
is read, and a value that stays below the limit is read back as it was written.

## Main definitions

* `Value` — values; an object is the list of its members.
* `write` — the text of a value.
* `read` — the value of a text, if it is one.
* `Value.Short` — every integer has at most as many digits as are read.

## Main results

* `read_write` — what is written reads back.
* `write_injective` — different values have different texts.
-/

namespace JsonText

/-! ### Numbers -/

/-- What is in front of a text while `p` holds, and what follows. -/
def spanOf (p : Char → Bool) (s : List Char) : List Char × List Char :=
  (s.takeWhile p, s.dropWhile p)

/-- `0|[1-9]\d*` -/
def scanNatural (s : List Char) : Option (List Char × List Char) :=
  match s with
  | '0' :: rest => some (['0'], rest)
  | c :: rest => if c.isDigit then some (spanOf Char.isDigit (c :: rest)) else none
  | [] => none

/-- `-?(0|[1-9]\d*)` -/
def scanInteger (s : List Char) : Option (List Char × List Char) :=
  match s with
  | '-' :: rest => (scanNatural rest).map fun p => ('-' :: p.1, p.2)
  | _ => scanNatural s

/-- `(\.\d+)?` -/
def scanFraction (s : List Char) : List Char × List Char :=
  match s with
  | '.' :: rest =>
    if (rest.takeWhile Char.isDigit).isEmpty then ([], s)
    else ('.' :: rest.takeWhile Char.isDigit, rest.dropWhile Char.isDigit)
  | _ => ([], s)

/-- A sign, if there is one. -/
def scanSign (s : List Char) : List Char × List Char :=
  match s with
  | c :: rest => if c = '+' ∨ c = '-' then ([c], rest) else ([], s)
  | [] => ([], [])

/-- `([eE][-+]?\d+)?` -/
def scanExponent (s : List Char) : List Char × List Char :=
  match s with
  | c :: rest =>
    if (c = 'e' ∨ c = 'E') ∧ ((scanSign rest).2.takeWhile Char.isDigit).isEmpty = false then
      (c :: (scanSign rest).1 ++ (scanSign rest).2.takeWhile Char.isDigit,
        (scanSign rest).2.dropWhile Char.isDigit)
    else ([], s)
  | [] => ([], [])

/-- A number at the front of a text: its integer, the rest of it, and what follows. -/
def scanNumber (s : List Char) : Option ((List Char × List Char) × List Char) :=
  (scanInteger s).map fun p =>
    ((p.1, (scanFraction p.2).1 ++ (scanExponent (scanFraction p.2).2).1),
      (scanExponent (scanFraction p.2).2).2)

/-- The text of a float: it has a fraction or an exponent. -/
def isFloatText (s : List Char) : Bool :=
  match scanNumber s with
  | some ((_, tail), rest) => !tail.isEmpty && rest.isEmpty
  | none => false

/-- A float, by the text that is written for it. -/
inductive FloatText where
  | nan
  | infinity
  | negInfinity
  | finite (text : List Char) (valid : isFloatText text = true)
  deriving DecidableEq

/-- The text of a float. -/
def FloatText.text : FloatText → List Char
  | nan => ['N', 'a', 'N']
  | infinity => ['I', 'n', 'f', 'i', 'n', 'i', 't', 'y']
  | negInfinity => ['-', 'I', 'n', 'f', 'i', 'n', 'i', 't', 'y']
  | finite text _ => text

/-! ### Values -/

/-- A value. -/
inductive Value where
  | null
  | bool (b : Bool)
  | int (n : ℤ)
  | float (x : FloatText)
  | str (s : String)
  | arr (items : List Value)
  | obj (members : List (String × Value))
  deriving Inhabited

/-! ### Writing -/

/-- A hexadecimal digit. -/
def hexDigit (n : ℕ) : Char := (Nat.digitChar n)

/-- Four hexadecimal digits. -/
def hex4 (n : ℕ) : List Char :=
  [hexDigit (n / 4096 % 16), hexDigit (n / 256 % 16), hexDigit (n / 16 % 16), hexDigit (n % 16)]

/-- The letters that stand for a character behind a backslash. -/
def shortEscapes : List (Char × Char) :=
  [('"', '"'), ('\\', '\\'), ('\n', 'n'), ('\r', 'r'), ('\t', 't'), ('\x0c', 'f'), ('\x08', 'b')]

/-- The first of the two surrogates of a code point beyond sixteen bits. -/
def highSurrogate (n : ℕ) : ℕ := 0xd800 + (n - 0x10000) / 1024

/-- The second of them. -/
def lowSurrogate (n : ℕ) : ℕ := 0xdc00 + (n - 0x10000) % 1024

/-- The code point of two surrogates. -/
def ofSurrogates (high low : ℕ) : ℕ := 0x10000 + 1024 * (high - 0xd800) + (low - 0xdc00)

/-- A character inside a string. -/
def writeChar (c : Char) : List Char :=
  match shortEscapes.lookup c with
  | some letter => ['\\', letter]
  | none =>
    if 32 ≤ c.toNat ∧ c.toNat < 127 then [c]
    else if c.toNat < 0x10000 then '\\' :: 'u' :: hex4 c.toNat
    else '\\' :: 'u' :: hex4 (highSurrogate c.toNat) ++ '\\' :: 'u' :: hex4 (lowSurrogate c.toNat)

/-- A string with its quotes. -/
def writeString (s : String) : List Char := '"' :: s.toList.flatMap writeChar ++ ['"']

/-- An integer. -/
def writeInt (n : ℤ) : List Char :=
  if n < 0 then '-' :: Nat.toDigits 10 n.natAbs else Nat.toDigits 10 n.natAbs

mutual

/-- The text of a value. -/
def write : Value → List Char
  | .null => ['n', 'u', 'l', 'l']
  | .bool true => ['t', 'r', 'u', 'e']
  | .bool false => ['f', 'a', 'l', 's', 'e']
  | .int n => writeInt n
  | .float x => x.text
  | .str s => writeString s
  | .arr [] => ['[', ']']
  | .arr (v :: items) => '[' :: write v ++ writeItems items
  | .obj [] => ['\x7b', '\x7d']
  | .obj ((key, v) :: members) =>
    '\x7b' :: writeString key ++ ':' :: ' ' :: write v ++ writeMembers members

/-- The items of an array behind its first, and its end. -/
def writeItems : List Value → List Char
  | [] => [']']
  | v :: items => ',' :: ' ' :: write v ++ writeItems items

/-- The members of an object behind its first, and its end. -/
def writeMembers : List (String × Value) → List Char
  | [] => ['\x7d']
  | (key, v) :: members =>
    ',' :: ' ' :: writeString key ++ ':' :: ' ' :: write v ++ writeMembers members

end

/-! ### Reading -/

/-- White space between tokens. -/
def isBlank (c : Char) : Bool := c == ' ' || c == '\t' || c == '\n' || c == '\r'

/-- What follows white space. -/
def skip (s : List Char) : List Char := s.dropWhile isBlank

/-- The value of a hexadecimal digit. -/
def hexValue (c : Char) : Option ℕ :=
  if '0' ≤ c ∧ c ≤ '9' then some (c.toNat - 48)
  else if 'a' ≤ c ∧ c ≤ 'f' then some (c.toNat - 87)
  else if 'A' ≤ c ∧ c ≤ 'F' then some (c.toNat - 55)
  else none

/-- The value of four hexadecimal digits. -/
def readHex4 : List Char → Option (ℕ × List Char)
  | a :: b :: c :: d :: s =>
    match hexValue a, hexValue b, hexValue c, hexValue d with
    | some a, some b, some c, some d => some (4096 * a + 256 * b + 16 * c + d, s)
    | _, _, _, _ => none
  | _ => none

/-- The character of `\uXXXX`; two surrogates make one, and one alone is none. -/
def readUnicode (s : List Char) : Option (Char × List Char) :=
  match readHex4 s with
  | some (n, rest) =>
    if 0xd800 ≤ n ∧ n < 0xdc00 then
      match rest with
      | '\\' :: 'u' :: rest =>
        match readHex4 rest with
        | some (m, rest) =>
          if 0xdc00 ≤ m ∧ m < 0xe000 then
            some (Char.ofNat (ofSurrogates n m), rest)
          else none
        | none => none
      | _ => none
    else if 0xdc00 ≤ n ∧ n < 0xe000 then none
    else some (Char.ofNat n, rest)
  | none => none

/-- The characters that a letter behind a backslash stands for. -/
def escaped : List (Char × Char) :=
  [('"', '"'), ('\\', '\\'), ('/', '/'), ('n', '\n'), ('r', '\r'), ('t', '\t'), ('f', '\x0c'),
    ('b', '\x08')]

/-- The character behind a backslash. -/
def readEscape : List Char → Option (Char × List Char)
  | [] => none
  | 'u' :: s => readUnicode s
  | c :: s => (escaped.lookup c).map fun x => (x, s)

/-- The characters of a string and what follows its closing quote, within a number of
steps; every step consumes a character. -/
def readChars : ℕ → List Char → Option (List Char × List Char)
  | 0, _ => none
  | _, [] => none
  | _ + 1, '"' :: s => some ([], s)
  | fuel + 1, '\\' :: s =>
    match readEscape s with
    | some (c, rest) => (readChars fuel rest).map fun p => (c :: p.1, p.2)
    | none => none
  | fuel + 1, c :: s =>
    if c.toNat < 32 then none else (readChars fuel s).map fun p => (c :: p.1, p.2)

/-- A string behind its opening quote. -/
def readString (s : List Char) : Option (String × List Char) :=
  (readChars (s.length + 1) s).map fun p => (String.ofList p.1, p.2)

/-- The most digits an integer is read with. -/
def digitLimit : ℕ := 4300

/-- The integer of a text of `scanInteger`. -/
def readInteger : List Char → ℤ
  | '-' :: s => -(Nat.ofDigitChars 10 s 0 : ℤ)
  | s => Nat.ofDigitChars 10 s 0

/-- A text that starts with `word`, and what follows. -/
def afterConstant (word : List Char) (s : List Char) : Option (List Char) :=
  if word.isPrefixOf s then some (s.drop word.length) else none

/-- A number. -/
def readNumber (s : List Char) : Option (Value × List Char) :=
  match scanNumber s with
  | some ((integer, tail), rest) =>
    if h : isFloatText (integer ++ tail) = true then
      some (.float (.finite (integer ++ tail) h), rest)
    else if (integer.dropWhile (· == '-')).length ≤ digitLimit then
      some (.int (readInteger integer), rest)
    else none
  | none =>
    match afterConstant ['N', 'a', 'N'] s, afterConstant ['I', 'n', 'f', 'i', 'n', 'i', 't', 'y'] s,
      afterConstant ['-', 'I', 'n', 'f', 'i', 'n', 'i', 't', 'y'] s with
    | some rest, _, _ => some (.float .nan, rest)
    | _, some rest, _ => some (.float .infinity, rest)
    | _, _, some rest => some (.float .negInfinity, rest)
    | _, _, _ => none

mutual

/-- A value at the front of a text, within a depth. -/
def readValue : ℕ → List Char → Option (Value × List Char)
  | 0, _ => none
  | fuel + 1, s =>
    match s with
    | '"' :: rest => (readString rest).map fun p => (.str p.1, p.2)
    | '[' :: rest =>
      match skip rest with
      | ']' :: rest => some (.arr [], rest)
      | rest => (readItems fuel rest).map fun p => (.arr p.1, p.2)
    | '\x7b' :: rest =>
      match skip rest with
      | '\x7d' :: rest => some (.obj [], rest)
      | rest => (readMembers fuel rest).map fun p => (.obj p.1, p.2)
    | 'n' :: 'u' :: 'l' :: 'l' :: rest => some (.null, rest)
    | 't' :: 'r' :: 'u' :: 'e' :: rest => some (.bool true, rest)
    | 'f' :: 'a' :: 'l' :: 's' :: 'e' :: rest => some (.bool false, rest)
    | s => readNumber s

/-- The items of an array, one at least, and its end. -/
def readItems : ℕ → List Char → Option (List Value × List Char)
  | 0, _ => none
  | fuel + 1, s =>
    match readValue fuel s with
    | none => none
    | some (v, rest) =>
      match skip rest with
      | ']' :: rest => some ([v], rest)
      | ',' :: rest => (readItems fuel (skip rest)).map fun p => (v :: p.1, p.2)
      | _ => none

/-- The members of an object, one at least, and its end. -/
def readMembers : ℕ → List Char → Option (List (String × Value) × List Char)
  | 0, _ => none
  | fuel + 1, s =>
    match s with
    | '"' :: s =>
      match readString s with
      | none => none
      | some (key, rest) =>
        match skip rest with
        | ':' :: rest =>
          match readValue fuel (skip rest) with
          | none => none
          | some (v, rest) =>
            match skip rest with
            | '\x7d' :: rest => some ([(key, v)], rest)
            | ',' :: rest => (readMembers fuel (skip rest)).map fun p => ((key, v) :: p.1, p.2)
            | _ => none
        | _ => none
    | _ => none

end

/-- The value of a text; nothing but white space may follow it. -/
def read (s : List Char) : Option Value :=
  match readValue (2 * s.length + 2) (skip s) with
  | some (v, rest) => if (skip rest).isEmpty then some v else none
  | none => none


/-! ### Strings read back -/

theorem hexValue_hexDigit : ∀ n < 16, hexValue (hexDigit n) = some n := by decide

theorem readHex4_hex4 {n : ℕ} (hn : n < 0x10000) (s : List Char) :
    readHex4 (hex4 n ++ s) = some (n, s) := by
  have h := fun k => hexValue_hexDigit (k % 16) (Nat.mod_lt k (by omega))
  have hsum : 4096 * (n / 4096 % 16) + 256 * (n / 256 % 16) + 16 * (n / 16 % 16) + n % 16 = n := by
    omega
  simp only [hex4, List.cons_append, List.nil_append, readHex4, h, hsum]

/-- A character is no surrogate. -/
theorem toNat_lt_or (c : Char) : c.toNat < 0xd800 ∨ 0xe000 ≤ c.toNat ∧ c.toNat < 0x110000 := by
  have h := c.valid
  simp only [UInt32.isValidChar, Nat.isValidChar] at h
  change c.toNat < 0xd800 ∨ _
  change c.toNat < 0xd800 ∨ 0xdfff < c.toNat ∧ c.toNat < 0x110000 at h
  omega

theorem readUnicode_hex4 {c : Char} (hc : c.toNat < 0x10000) (s : List Char) :
    readUnicode (hex4 c.toNat ++ s) = some (c, s) := by
  have hvalid := toNat_lt_or c
  have hhigh : ¬ (0xd800 ≤ c.toNat ∧ c.toNat < 0xdc00) := by omega
  have hlow : ¬ (0xdc00 ≤ c.toNat ∧ c.toNat < 0xe000) := by omega
  simp only [readUnicode, readHex4_hex4 hc, hhigh, hlow, if_false, Char.ofNat_toNat]

theorem surrogates {n : ℕ} (hn : 0x10000 ≤ n) (hn' : n < 0x110000) :
    (0xd800 ≤ highSurrogate n ∧ highSurrogate n < 0xdc00) ∧
      (0xdc00 ≤ lowSurrogate n ∧ lowSurrogate n < 0xe000) ∧
      ofSurrogates (highSurrogate n) (lowSurrogate n) = n := by
  unfold ofSurrogates highSurrogate lowSurrogate
  omega

theorem readUnicode_pair {n m : ℕ} (hn : 0xd800 ≤ n ∧ n < 0xdc00) (hm : 0xdc00 ≤ m ∧ m < 0xe000)
    (s : List Char) : readUnicode (hex4 n ++ '\\' :: 'u' :: (hex4 m ++ s))
      = some (Char.ofNat (ofSurrogates n m), s) := by
  simp only [readUnicode, readHex4_hex4 (show n < 0x10000 by omega),
    readHex4_hex4 (show m < 0x10000 by omega), hn, hm, and_self, if_true]

/-- A character beyond sixteen bits is read from its two surrogates. -/
theorem readUnicode_surrogates {c : Char} (hc : 0x10000 ≤ c.toNat) (s : List Char) :
    readUnicode (hex4 (highSurrogate c.toNat) ++
      '\\' :: 'u' :: (hex4 (lowSurrogate c.toNat) ++ s)) = some (c, s) := by
  have hvalid := toNat_lt_or c
  obtain ⟨hhigh, hlow, hsum⟩ := surrogates hc (by omega)
  rw [readUnicode_pair hhigh hlow, hsum, Char.ofNat_toNat]

/-- Every letter behind a backslash is read as the character it was written for. -/
theorem readEscape_of_mem :
    ∀ p ∈ shortEscapes, p.2 ≠ 'u' ∧ escaped.lookup p.2 = some p.1 := by decide

theorem mem_of_lookup {α β : Type} [BEq α] [LawfulBEq α] {k : α} {v : β} {l : List (α × β)}
    (h : l.lookup k = some v) : (k, v) ∈ l := by
  induction l with
  | nil => cases h
  | cons p l ih =>
    obtain ⟨k', v'⟩ := p
    rw [List.lookup_cons] at h
    split at h
    · next heq =>
      obtain rfl := Option.some.inj h
      rw [beq_iff_eq.mp heq]
      exact List.mem_cons_self
    · exact List.mem_cons_of_mem _ (ih h)

theorem readEscape_short {c letter : Char} (h : shortEscapes.lookup c = some letter)
    (s : List Char) : readEscape (letter :: s) = some (c, s) := by
  obtain ⟨hu, hlookup⟩ := readEscape_of_mem _ (mem_of_lookup h)
  unfold readEscape
  split
  · next heq => cases heq
  · next heq => exact absurd (List.cons.inj heq).1 hu
  · next heq =>
    obtain ⟨rfl, rfl⟩ := List.cons.inj heq
    rw [hlookup]
    rfl

theorem readEscape_unicode (s : List Char) : readEscape ('u' :: s) = readUnicode s := rfl

theorem readChars_backslash {fuel : ℕ} {c : Char} {s rest : List Char}
    (h : readEscape s = some (c, rest)) :
    readChars (fuel + 1) ('\\' :: s) = (readChars fuel rest).map fun p => (c :: p.1, p.2) := by
  simp only [readChars, h]

theorem readChars_cons {fuel : ℕ} {c : Char} (hquote : c ≠ '"') (hback : c ≠ '\\')
    (hc : 32 ≤ c.toNat) (s : List Char) :
    readChars (fuel + 1) (c :: s) = (readChars fuel s).map fun p => (c :: p.1, p.2) := by
  rw [readChars, if_neg (by omega)]
  · exact fun h => hquote h
  · exact fun h => hback h

/-- **A character inside a string reads back.** -/
theorem readChars_writeChar (fuel : ℕ) (c : Char) (s : List Char) :
    readChars (fuel + 1) (writeChar c ++ s)
      = (readChars fuel s).map fun p => (c :: p.1, p.2) := by
  unfold writeChar
  split
  · next letter hletter => exact readChars_backslash (readEscape_short hletter s)
  · next hnone =>
    split
    · next hascii =>
      refine readChars_cons ?_ ?_ hascii.1 s
      · rintro rfl
        cases hnone
      · rintro rfl
        cases hnone
    · split
      · next hlt =>
        apply readChars_backslash
        rw [← readUnicode_hex4 hlt s]
        exact readEscape_unicode _
      · next hge =>
        rw [List.append_assoc]
        apply readChars_backslash
        rw [← readUnicode_surrogates (Nat.le_of_not_lt hge) s]
        exact readEscape_unicode _

theorem readChars_flatMap {fuel : ℕ} {cs : List Char} (h : cs.length < fuel) (s : List Char) :
    readChars fuel (cs.flatMap writeChar ++ '"' :: s) = some (cs, s) := by
  induction cs generalizing fuel with
  | nil =>
    obtain ⟨fuel, rfl⟩ : ∃ k, fuel = k + 1 := ⟨fuel - 1, by simp at h; omega⟩
    rfl
  | cons c cs ih =>
    obtain ⟨fuel, rfl⟩ : ∃ k, fuel = k + 1 := ⟨fuel - 1, by simp at h; omega⟩
    rw [List.flatMap_cons, List.append_assoc, readChars_writeChar,
      ih (by simpa using h)]
    rfl

theorem length_le_flatMap (cs : List Char) : cs.length ≤ (cs.flatMap writeChar).length := by
  induction cs with
  | nil => exact Nat.le_refl _
  | cons c cs ih =>
    have hpos : 1 ≤ (writeChar c).length := by
      unfold writeChar
      split
      · simp
      · split
        · simp
        · split <;> simp
    rw [List.flatMap_cons, List.length_append, List.length_cons]
    omega

/-- **A string reads back.** -/
theorem readString_write (str : String) (s : List Char) :
    readString (str.toList.flatMap writeChar ++ '"' :: s) = some (str, s) := by
  have hlen : str.toList.length
      < (str.toList.flatMap writeChar ++ '"' :: s).length + 1 := by
    have := length_le_flatMap str.toList
    rw [List.length_append]
    omega
  rw [readString, readChars_flatMap hlen]
  simp

/-! ### Numbers read back -/

/-- A character that a number may go on with. -/
def isNumberChar (c : Char) : Bool :=
  c.isDigit || c == '.' || c == 'e' || c == 'E' || c == '+' || c == '-'

/-- A text that no number in front of it goes on into. -/
def Ends (rest : List Char) : Prop := ∀ c ∈ rest.head?, isNumberChar c = false

theorem ends_nil : Ends [] := fun c hc => by cases hc

theorem ends_cons {c : Char} {s : List Char} (hc : isNumberChar c = false) : Ends (c :: s) := by
  intro x hx
  obtain rfl := Option.some.inj hx
  exact hc

variable {rest : List Char}

theorem Ends.takeWhile (h : Ends rest) (s : List Char) :
    (s ++ rest).takeWhile Char.isDigit = s.takeWhile Char.isDigit := by
  induction s with
  | nil =>
    cases rest with
    | nil => rfl
    | cons c rest =>
      have hc := h c rfl
      have hdigit : c.isDigit = false := by grind [isNumberChar]
      simp [hdigit]
  | cons c s ih => by_cases hc : c.isDigit <;> simp [hc, ih]

theorem Ends.dropWhile (h : Ends rest) (s : List Char) :
    (s ++ rest).dropWhile Char.isDigit = s.dropWhile Char.isDigit ++ rest := by
  induction s with
  | nil =>
    cases rest with
    | nil => rfl
    | cons c rest =>
      have hc := h c rfl
      have hdigit : c.isDigit = false := by grind [isNumberChar]
      simp [hdigit]
  | cons c s ih => by_cases hc : c.isDigit <;> simp [hc, ih]

theorem scanNatural_cons {c : Char} (hc : c ≠ '0') (s : List Char) :
    scanNatural (c :: s) = if c.isDigit then some (spanOf Char.isDigit (c :: s)) else none := by
  unfold scanNatural
  split
  · next heq => exact absurd (List.cons.inj heq).1 hc
  · next heq =>
    obtain ⟨rfl, rfl⟩ := List.cons.inj heq
    rfl
  · next heq => cases heq

theorem Ends.scanNatural (h : Ends rest) (s : List Char) :
    scanNatural (s ++ rest) = (scanNatural s).map fun p => (p.1, p.2 ++ rest) := by
  cases s with
  | nil =>
    cases rest with
    | nil => rfl
    | cons c rest =>
      have hc := h c rfl
      have hdigit : c.isDigit = false := by grind [isNumberChar]
      have hzero : c ≠ '0' := by rintro rfl; cases hdigit
      rw [List.nil_append, scanNatural_cons hzero, hdigit]
      rfl
  | cons c s =>
    by_cases hzero : c = '0'
    · subst hzero
      rfl
    · rw [List.cons_append, scanNatural_cons hzero, scanNatural_cons hzero]
      by_cases hdigit : c.isDigit
      · simp only [hdigit, if_true, Option.map_some, spanOf]
        rw [← List.cons_append, h.takeWhile, h.dropWhile]
      · simp [hdigit]

theorem Ends.scanInteger (h : Ends rest) (s : List Char) :
    scanInteger (s ++ rest) = (scanInteger s).map fun p => (p.1, p.2 ++ rest) := by
  by_cases hminus : ∃ t, s = '-' :: t
  · obtain ⟨t, rfl⟩ := hminus
    simp only [List.cons_append, JsonText.scanInteger, h.scanNatural, Option.map_map]
    rfl
  · have hleft : JsonText.scanInteger (s ++ rest) = JsonText.scanNatural (s ++ rest) := by
      unfold JsonText.scanInteger
      split
      · next t heq =>
        cases s with
        | nil =>
          have hc := h '-' (by rw [List.nil_append] at heq; rw [heq]; rfl)
          cases hc
        | cons c s =>
          obtain ⟨rfl, -⟩ := List.cons.inj heq
          exact absurd ⟨s, rfl⟩ hminus
      · rfl
    have hright : JsonText.scanInteger s = JsonText.scanNatural s := by
      unfold JsonText.scanInteger
      split
      · next t => exact absurd ⟨t, rfl⟩ hminus
      · rfl
    rw [hleft, hright, h.scanNatural]

theorem Ends.scanFraction (h : Ends rest) (s : List Char) :
    scanFraction (s ++ rest) = ((scanFraction s).1, (scanFraction s).2 ++ rest) := by
  cases s with
  | nil =>
    cases rest with
    | nil => rfl
    | cons c rest =>
      have hdot : c ≠ '.' := by rintro rfl; cases h '.' rfl
      simp only [List.nil_append, JsonText.scanFraction]
      split <;> simp_all
  | cons c s =>
    by_cases hdot : c = '.'
    · subst hdot
      simp only [List.cons_append, JsonText.scanFraction, h.takeWhile, h.dropWhile]
      split <;> rfl
    · simp only [List.cons_append, JsonText.scanFraction]
      split <;> simp_all

theorem Ends.scanSign (h : Ends rest) (s : List Char) :
    scanSign (s ++ rest) = ((scanSign s).1, (scanSign s).2 ++ rest) := by
  cases s with
  | nil =>
    cases rest with
    | nil => rfl
    | cons c rest =>
      have hc := h c rfl
      have hsign : ¬ (c = '+' ∨ c = '-') := by grind [isNumberChar]
      simp [JsonText.scanSign, hsign]
  | cons c s =>
    simp only [List.cons_append, JsonText.scanSign]
    split <;> rfl

theorem Ends.scanExponent (h : Ends rest) (s : List Char) :
    scanExponent (s ++ rest) = ((scanExponent s).1, (scanExponent s).2 ++ rest) := by
  cases s with
  | nil =>
    cases rest with
    | nil => rfl
    | cons c rest =>
      have hc := h c rfl
      have hletter : ¬ (c = 'e' ∨ c = 'E') := by grind [isNumberChar]
      simp [JsonText.scanExponent, hletter]
  | cons c s =>
    simp only [List.cons_append, JsonText.scanExponent, h.scanSign, h.takeWhile, h.dropWhile]
    split <;> rfl

/-- **A number is the same number** in front of a text it does not go on into. -/
theorem Ends.scanNumber (h : Ends rest) (s : List Char) :
    scanNumber (s ++ rest) = (scanNumber s).map fun p => (p.1, p.2 ++ rest) := by
  simp only [JsonText.scanNumber, h.scanInteger, Option.map_map]
  congr 1
  funext p
  simp only [Function.comp, h.scanFraction, h.scanExponent]

theorem scanNatural_toDigits (n : ℕ) :
    scanNatural (Nat.toDigits 10 n) = some (Nat.toDigits 10 n, []) := by
  have hdigits : ∀ c ∈ Nat.toDigits 10 n, c.isDigit = true := fun c hc =>
    Nat.isDigit_of_mem_toDigits (by omega) (by omega) hc
  have hzero : ∀ n : ℕ, 0 < n → (Nat.toDigits 10 n).head? ≠ some '0' := by
    intro n
    induction n using Nat.strong_induction_on with
    | _ n ih =>
      intro hn
      rcases Nat.lt_or_ge n 10 with hlt | hge
      · rw [Nat.toDigits_of_lt_base hlt]
        interval_cases n <;> decide
      · rw [Nat.toDigits_of_base_le (by omega) hge, List.head?_append_of_ne_nil _ Nat.toDigits_ne_nil]
        exact ih (n / 10) (by omega) (by omega)
  rcases Nat.eq_zero_or_pos n with rfl | hn
  · rfl
  · have hfirst := hzero n hn
    cases hl : Nat.toDigits 10 n with
    | nil => exact absurd hl Nat.toDigits_ne_nil
    | cons c l =>
      rw [hl] at hdigits hfirst
      have hc : c ≠ '0' := fun h => hfirst (by rw [h]; rfl)
      rw [scanNatural_cons hc, if_pos (hdigits c List.mem_cons_self), spanOf, List.takeWhile_eq_self_iff.mpr hdigits,
        List.dropWhile_eq_nil_iff.mpr hdigits]

/-- What a scan has passed and what it leaves are the text. -/
theorem scanNatural_append {s : List Char} {p : List Char × List Char}
    (h : scanNatural s = some p) : p.1 ++ p.2 = s := by
  unfold scanNatural at h
  split at h
  · obtain rfl := Option.some.inj h
    rfl
  · split at h
    · obtain rfl := Option.some.inj h
      exact List.takeWhile_append_dropWhile
    · cases h
  · cases h

theorem scanInteger_append {s : List Char} {p : List Char × List Char}
    (h : scanInteger s = some p) : p.1 ++ p.2 = s := by
  unfold scanInteger at h
  split at h
  · obtain ⟨q, hq, rfl⟩ := Option.map_eq_some_iff.mp h
    rw [List.cons_append, scanNatural_append hq]
  · exact scanNatural_append h

theorem scanFraction_append (s : List Char) : (scanFraction s).1 ++ (scanFraction s).2 = s := by
  unfold scanFraction
  split
  · split
    · rfl
    · rw [List.cons_append, List.takeWhile_append_dropWhile]
  · rfl

theorem scanSign_append (s : List Char) : (scanSign s).1 ++ (scanSign s).2 = s := by
  unfold scanSign
  split
  · split <;> rfl
  · rfl

theorem scanExponent_append (s : List Char) : (scanExponent s).1 ++ (scanExponent s).2 = s := by
  unfold scanExponent
  split
  · split
    · rw [List.append_assoc, List.takeWhile_append_dropWhile, List.cons_append, scanSign_append]
    · rfl
  · rfl

theorem scanNumber_append {s rest : List Char} {p : List Char × List Char}
    (h : scanNumber s = some (p, rest)) : p.1 ++ p.2 ++ rest = s := by
  obtain ⟨q, hq, heq⟩ := Option.map_eq_some_iff.mp h
  obtain ⟨rfl, rfl⟩ := Prod.mk.inj heq
  rw [List.append_assoc, List.append_assoc, scanExponent_append, scanFraction_append,
    scanInteger_append hq]

/-- A number starts with a digit or a sign. -/
theorem scanNumber_head {s : List Char} (h : (scanNumber s).isSome = true) :
    ∃ c t, s = c :: t ∧ (c = '-' ∨ c.isDigit = true) := by
  rw [scanNumber, Option.isSome_map] at h
  cases s with
  | nil => cases h
  | cons c t =>
    refine ⟨c, t, rfl, ?_⟩
    by_cases hminus : c = '-'
    · exact Or.inl hminus
    · right
      by_contra hdigit
      have hzero : c ≠ '0' := by rintro rfl; exact hdigit rfl
      have hnone : scanInteger (c :: t) = none := by
        unfold scanInteger
        split
        · next heq => exact absurd (List.cons.inj heq).1 hminus
        · rw [scanNatural_cons hzero, if_neg hdigit]
      rw [hnone] at h
      cases h

theorem scanNumber_writeInt (n : ℤ) : scanNumber (writeInt n) = some ((writeInt n, []), []) := by
  have hinteger : scanInteger (writeInt n) = some (writeInt n, []) := by
    unfold writeInt
    split
    · rw [scanInteger, scanNatural_toDigits]
      rfl
    · unfold scanInteger
      split
      · next heq =>
        have hdigit : '-'.isDigit = true := Nat.isDigit_of_mem_toDigits (b := 10) (by omega) (by omega)
          (heq ▸ List.mem_cons_self)
        cases hdigit
      · exact scanNatural_toDigits _
  rw [scanNumber, hinteger]
  rfl

theorem readInteger_writeInt (n : ℤ) : readInteger (writeInt n) = n := by
  unfold writeInt
  split
  · next hn =>
    rw [readInteger, Nat.ofDigitChars_ten_toDigits]
    omega
  · next hn =>
    unfold readInteger
    split
    · next heq =>
      have hdigit : '-'.isDigit = true := Nat.isDigit_of_mem_toDigits (b := 10) (by omega) (by omega)
        (heq ▸ List.mem_cons_self)
      cases hdigit
    · rw [Nat.ofDigitChars_ten_toDigits]
      omega

/-- An integer that is read. -/
def ShortInt (n : ℤ) : Prop := (Nat.toDigits 10 n.natAbs).length ≤ digitLimit

instance (n : ℤ) : Decidable (ShortInt n) :=
  inferInstanceAs (Decidable ((Nat.toDigits 10 n.natAbs).length ≤ digitLimit))

theorem dropWhile_writeInt (n : ℤ) :
    (writeInt n).dropWhile (· == '-') = Nat.toDigits 10 n.natAbs := by
  have hdigits : (Nat.toDigits 10 n.natAbs).dropWhile (· == '-') = Nat.toDigits 10 n.natAbs := by
    cases hl : Nat.toDigits 10 n.natAbs with
    | nil => exact absurd hl Nat.toDigits_ne_nil
    | cons c l =>
      have hdigit : c.isDigit = true := Nat.isDigit_of_mem_toDigits (b := 10) (by omega) (by omega)
        (hl ▸ List.mem_cons_self)
      have hminus : (c == '-') = false := by
        by_contra h
        rw [Bool.not_eq_false, beq_iff_eq] at h
        rw [h] at hdigit
        cases hdigit
      rw [List.dropWhile_cons_of_neg (by simpa using hminus)]
  unfold writeInt
  split
  · rw [List.dropWhile_cons_of_pos (by rfl), hdigits]
  · exact hdigits

theorem readNumber_writeInt {n : ℤ} (hn : ShortInt n) (h : Ends rest) :
    readNumber (writeInt n ++ rest) = some (.int n, rest) := by
  have hscan : scanNumber (writeInt n ++ rest) = some ((writeInt n, []), rest) := by
    rw [h.scanNumber, scanNumber_writeInt]
    rfl
  have hfloat : ¬ isFloatText (writeInt n ++ []) = true := by
    rw [List.append_nil, isFloatText, scanNumber_writeInt]
    simp
  unfold readNumber
  rw [hscan]
  dsimp only
  rw [dif_neg hfloat, dropWhile_writeInt, if_pos (show _ ≤ digitLimit from hn), readInteger_writeInt]

theorem exists_of_isFloatText {s : List Char} (h : isFloatText s = true) :
    ∃ integer tail, scanNumber s = some ((integer, tail), []) ∧ integer ++ tail = s := by
  unfold isFloatText at h
  split at h
  · next integer tail rest' hscan =>
    have hrest : rest' = [] := List.isEmpty_iff.mp (Bool.and_eq_true_iff.mp h).2
    have htext := scanNumber_append hscan
    rw [hrest] at hscan htext
    rw [List.append_nil] at htext
    exact ⟨integer, tail, hscan, htext⟩
  · cases h

theorem readNumber_finite {text : List Char} (valid : isFloatText text = true) (h : Ends rest) :
    readNumber (text ++ rest) = some (.float (.finite text valid), rest) := by
  obtain ⟨integer, tail, hscan, htext⟩ := exists_of_isFloatText valid
  have hscan' : scanNumber (text ++ rest) = some ((integer, tail), rest) := by
    rw [h.scanNumber, hscan]
    rfl
  unfold readNumber
  rw [hscan']
  dsimp only
  rw [dif_pos (htext ▸ valid)]
  simp only [htext]

theorem readNumber_text (x : FloatText) (h : Ends rest) :
    readNumber (x.text ++ rest) = some (.float x, rest) := by
  cases x with
  | nan => rfl
  | infinity => rfl
  | negInfinity => rfl
  | finite text valid => exact readNumber_finite valid h

/-- The text of a number is read by `readNumber`. -/
theorem readValue_number {fuel : ℕ} {c : Char} (hc : c ∉ ['"', '[', '\x7b', 'n', 't', 'f'])
    (s : List Char) : readValue (fuel + 1) (c :: s) = readNumber (c :: s) := by
  simp only [List.mem_cons, not_or] at hc
  obtain ⟨h1, h2, h3, h4, h5, h6, -⟩ := hc
  rw [readValue]
  · exact fun _ h => h1 (List.cons.inj h).1
  · exact fun _ h => h2 (List.cons.inj h).1
  · exact fun _ h => h3 (List.cons.inj h).1
  · exact fun _ h => h4 (List.cons.inj h).1
  · exact fun _ h => h5 (List.cons.inj h).1
  · exact fun _ h => h6 (List.cons.inj h).1

/-! ### Values read back -/

mutual

/-- Every integer of a value is read. -/
def Value.Short : Value → Prop
  | .int n => ShortInt n
  | .arr items => ShortItems items
  | .obj members => ShortMembers members
  | _ => True

/-- Every integer of an array is read. -/
def ShortItems : List Value → Prop
  | [] => True
  | v :: items => v.Short ∧ ShortItems items

/-- Every integer of an object is read. -/
def ShortMembers : List (String × Value) → Prop
  | [] => True
  | (_, v) :: members => v.Short ∧ ShortMembers members

end

mutual

/-- Whether every integer of a value is read. -/
def Value.decShort : (v : Value) → Decidable v.Short
  | .null => isTrue trivial
  | .bool _ => isTrue trivial
  | .int n => inferInstanceAs (Decidable (ShortInt n))
  | .float _ => isTrue trivial
  | .str _ => isTrue trivial
  | .arr items => decShortItems items
  | .obj members => decShortMembers members

/-- Whether every integer of an array is read. -/
def decShortItems : (items : List Value) → Decidable (ShortItems items)
  | [] => isTrue trivial
  | v :: items => @instDecidableAnd _ _ v.decShort (decShortItems items)

/-- Whether every integer of an object is read. -/
def decShortMembers : (members : List (String × Value)) → Decidable (ShortMembers members)
  | [] => isTrue trivial
  | (_, v) :: members => @instDecidableAnd _ _ v.decShort (decShortMembers members)

end

instance (v : Value) : Decidable v.Short := v.decShort

/-- A character that a value may start with. -/
def opens (c : Char) : Bool :=
  c.isDigit || c ∈ ['-', '"', '[', '\x7b', 'n', 't', 'f', 'N', 'I']

theorem opens_ne {c : Char} (hc : opens c = true) : isBlank c = false ∧ c ≠ ']' ∧ c ≠ '\x7d' := by
  refine ⟨?_, ?_, ?_⟩
  · by_contra hblank
    simp only [isBlank, Bool.not_eq_false, Bool.or_eq_true, beq_iff_eq] at hblank
    rcases hblank with ((rfl | rfl) | rfl) | rfl <;> cases hc
  · rintro rfl
    cases hc
  · rintro rfl
    cases hc

/-- The text of a value starts with a character of its own. -/
theorem write_head (v : Value) : ∃ c t, write v = c :: t ∧ opens c = true := by
  have hnumber : ∀ s : List Char, (scanNumber s).isSome = true → ∃ c t, s = c :: t ∧ opens c = true := by
    intro s hs
    obtain ⟨c, t, rfl, hc⟩ := scanNumber_head hs
    refine ⟨c, t, rfl, ?_⟩
    rcases hc with rfl | hc
    · rfl
    · rw [opens, hc]
      simp
  cases v with
  | null => exact ⟨_, _, rfl, rfl⟩
  | bool b => cases b <;> exact ⟨_, _, rfl, rfl⟩
  | int n =>
    apply hnumber
    rw [write, scanNumber_writeInt]
    rfl
  | float x =>
    rw [write]
    cases x with
    | nan => exact ⟨_, _, rfl, rfl⟩
    | infinity => exact ⟨_, _, rfl, rfl⟩
    | negInfinity => exact ⟨_, _, rfl, rfl⟩
    | finite text valid =>
      obtain ⟨integer, tail, hscan, -⟩ := exists_of_isFloatText valid
      apply hnumber
      rw [FloatText.text, hscan]
      rfl
  | str s => exact ⟨_, _, rfl, rfl⟩
  | arr items => cases items <;> exact ⟨_, _, rfl, rfl⟩
  | obj members => cases members <;> exact ⟨_, _, rfl, rfl⟩

theorem skip_cons {c : Char} (hc : isBlank c = false) (s : List Char) : skip (c :: s) = c :: s :=
  List.dropWhile_cons_of_neg (by simpa using hc)

theorem skip_write (v : Value) (s : List Char) : skip (write v ++ s) = write v ++ s := by
  obtain ⟨c, t, hv, hc⟩ := write_head v
  rw [hv]
  exact skip_cons (opens_ne hc).1 _

theorem skip_blank (s : List Char) : skip (' ' :: s) = skip s := rfl

theorem ends_writeItems (items : List Value) (s : List Char) : Ends (writeItems items ++ s) := by
  cases items with
  | nil => exact ends_cons (by decide)
  | cons v items => exact ends_cons (by decide)

theorem ends_writeMembers (members : List (String × Value)) (s : List Char) :
    Ends (writeMembers members ++ s) := by
  cases members with
  | nil => exact ends_cons (by decide)
  | cons m members => exact ends_cons (by decide)

theorem length_writeItems_pos (items : List Value) : 1 ≤ (writeItems items).length := by
  cases items <;> simp [writeItems]

theorem length_writeMembers_pos (members : List (String × Value)) :
    1 ≤ (writeMembers members).length := by
  cases members <;> simp [writeMembers]

/-- The number behind a text's first character is what it starts with. -/
theorem readValue_of_scanNumber {fuel : ℕ} {s : List Char} {r : Value × List Char}
    (hs : (scanNumber s).isSome = true) (h : readNumber s = some r) :
    readValue (fuel + 1) s = some r := by
  obtain ⟨c, t, rfl, hc⟩ := scanNumber_head hs
  rw [readValue_number ?_, h]
  rcases hc with rfl | hc
  · decide
  · intro hmem
    simp only [List.mem_cons, List.not_mem_nil, or_false] at hmem
    rcases hmem with rfl | rfl | rfl | rfl | rfl | rfl <;> cases hc

/-- An array whose first item is there. -/
theorem readValue_items {fuel : ℕ} {s : List Char} {items : List Value} {v : Value}
    (h : readItems fuel (write v ++ s) = some (items, rest)) :
    readValue (fuel + 1) ('[' :: (write v ++ s)) = some (.arr items, rest) := by
  obtain ⟨c, t, hv, hc⟩ := write_head v
  rw [readValue]
  rw [skip_write]
  split
  · next heq =>
    rw [hv] at heq
    exact absurd (List.cons.inj heq).1 (opens_ne hc).2.1
  · rw [h]
    rfl

/-- An object whose first member is there. -/
theorem readValue_members {fuel : ℕ} {s : List Char} {members : List (String × Value)}
    (h : readMembers fuel ('"' :: s) = some (members, rest)) :
    readValue (fuel + 1) ('\x7b' :: '"' :: s) = some (.obj members, rest) := by
  rw [readValue, skip_cons (by decide)]
  change (readMembers fuel ('"' :: s)).map _ = _
  rw [h]
  rfl

/-- A member whose value is read behind its colon, and what follows it. -/
theorem readMembers_of_value {fuel : ℕ} {key : String} {v : Value} {s : List Char}
    (h : readValue fuel (skip s) = some (v, rest)) :
    readMembers (fuel + 1) (writeString key ++ ':' :: s)
      = match skip rest with
        | '\x7d' :: rest => some ([(key, v)], rest)
        | ',' :: rest => (readMembers fuel (skip rest)).map fun p => ((key, v) :: p.1, p.2)
        | _ => none := by
  rw [writeString, List.append_assoc, List.cons_append, List.singleton_append, readMembers,
    readString_write]
  dsimp only
  rw [skip_cons (by decide)]
  simp only [h]

/-- A member as it is written, and what follows it. -/
theorem readMembers_value {fuel : ℕ} {key : String} {v : Value} {s : List Char}
    (h : readValue fuel (write v ++ s) = some (v, rest)) :
    readMembers (fuel + 1) (writeString key ++ ':' :: ' ' :: (write v ++ s))
      = match skip rest with
        | '\x7d' :: rest => some ([(key, v)], rest)
        | ',' :: rest => (readMembers fuel (skip rest)).map fun p => ((key, v) :: p.1, p.2)
        | _ => none :=
  readMembers_of_value (by rw [skip_blank, skip_write, h])

mutual

theorem readValue_write : ∀ (v : Value) (fuel : ℕ) (rest : List Char), v.Short → Ends rest →
    2 * (write v).length ≤ fuel → readValue fuel (write v ++ rest) = some (v, rest)
  | .null, fuel, rest, _, _, hfuel => by
    obtain ⟨fuel, rfl⟩ : ∃ k, fuel = k + 1 := ⟨fuel - 1, by simp [write] at hfuel; omega⟩
    rfl
  | .bool b, fuel, rest, _, _, hfuel => by
    obtain ⟨fuel, rfl⟩ : ∃ k, fuel = k + 1 :=
      ⟨fuel - 1, by cases b <;> simp [write] at hfuel <;> omega⟩
    cases b <;> rfl
  | .int n, fuel, rest, hshort, hends, hfuel => by
    have hscan := hends.scanNumber (writeInt n)
    have hpos : 0 < (writeInt n).length := by
      obtain ⟨c, t, hv, -⟩ := write_head (.int n)
      rw [write] at hv
      rw [hv]
      exact Nat.succ_pos _
    obtain ⟨fuel, rfl⟩ : ∃ k, fuel = k + 1 := ⟨fuel - 1, by rw [write] at hfuel; omega⟩
    rw [write]
    apply readValue_of_scanNumber
    · rw [hscan, scanNumber_writeInt]
      rfl
    · exact readNumber_writeInt hshort hends
  | .float x, fuel, rest, _, hends, hfuel => by
    have hpos : 0 < x.text.length := by
      obtain ⟨c, t, hv, -⟩ := write_head (.float x)
      rw [write] at hv
      rw [hv]
      exact Nat.succ_pos _
    obtain ⟨fuel, rfl⟩ : ∃ k, fuel = k + 1 := ⟨fuel - 1, by rw [write] at hfuel; omega⟩
    rw [write]
    cases x with
    | nan => rfl
    | infinity => rfl
    | negInfinity => rfl
    | finite text valid =>
      obtain ⟨integer, tail, hscan, -⟩ := exists_of_isFloatText valid
      apply readValue_of_scanNumber
      · rw [FloatText.text, hends.scanNumber, hscan]
        rfl
      · exact readNumber_text _ hends
  | .str s, fuel, rest, _, _, hfuel => by
    obtain ⟨fuel, rfl⟩ : ∃ k, fuel = k + 1 :=
      ⟨fuel - 1, by simp [write, writeString] at hfuel; omega⟩
    rw [write, writeString, List.append_assoc, List.cons_append, readValue, List.singleton_append,
      readString_write]
    rfl
  | .arr [], fuel, rest, _, _, hfuel => by
    obtain ⟨fuel, rfl⟩ : ∃ k, fuel = k + 1 := ⟨fuel - 1, by simp [write] at hfuel; omega⟩
    rfl
  | .arr (v :: items), fuel, rest, hshort, _, hfuel => by
    have hlength : (write (.arr (v :: items))).length
        = (write v).length + (writeItems items).length + 1 := by
      simp only [write, List.length_append, List.length_cons]
      omega
    obtain ⟨fuel, rfl⟩ : ∃ k, fuel = k + 1 := ⟨fuel - 1, by omega⟩
    rw [write, List.append_assoc, List.cons_append]
    exact readValue_items (readItems_write v items fuel rest hshort.1 hshort.2 (by omega))
  | .obj [], fuel, rest, _, _, hfuel => by
    obtain ⟨fuel, rfl⟩ : ∃ k, fuel = k + 1 := ⟨fuel - 1, by simp [write] at hfuel; omega⟩
    rfl
  | .obj ((key, v) :: members), fuel, rest, hshort, _, hfuel => by
    have hlength : (write (.obj ((key, v) :: members))).length
        = (writeString key).length + (write v).length + (writeMembers members).length + 3 := by
      simp only [write, List.length_append, List.length_cons]
      omega
    obtain ⟨fuel, rfl⟩ : ∃ k, fuel = k + 1 := ⟨fuel - 1, by omega⟩
    have hmembers := readMembers_write key v members fuel rest hshort.1 hshort.2 (by omega)
    rw [writeString, List.append_assoc, List.cons_append] at hmembers
    rw [write, writeString]
    simp only [List.append_assoc, List.cons_append] at hmembers ⊢
    exact readValue_members hmembers
termination_by v => sizeOf v
decreasing_by all_goals (simp_wf; omega)

theorem readItems_write : ∀ (v : Value) (items : List Value) (fuel : ℕ) (rest : List Char),
    v.Short → ShortItems items →
    2 * ((write v).length + (writeItems items).length) ≤ fuel →
    readItems fuel (write v ++ (writeItems items ++ rest)) = some (v :: items, rest)
  | v, [], fuel, rest, hv, _, hfuel => by
    have hpos := length_writeItems_pos []
    obtain ⟨fuel, rfl⟩ : ∃ k, fuel = k + 1 := ⟨fuel - 1, by omega⟩
    have hread := readValue_write v fuel (writeItems [] ++ rest) hv (ends_writeItems [] rest)
      (by omega)
    rw [readItems, hread]
    rfl
  | v, w :: items, fuel, rest, hv, hitems, hfuel => by
    have hlength : (writeItems (w :: items)).length
        = (write w).length + (writeItems items).length + 2 := by
      simp only [writeItems, List.length_append, List.length_cons]
      omega
    obtain ⟨fuel, rfl⟩ : ∃ k, fuel = k + 1 := ⟨fuel - 1, by omega⟩
    have hread := readValue_write v fuel (writeItems (w :: items) ++ rest) hv
      (ends_writeItems _ rest) (by omega)
    have hrest := readItems_write w items fuel rest hitems.1 hitems.2 (by omega)
    rw [readItems, hread, writeItems]
    simp only [List.append_assoc, List.cons_append]
    rw [skip_cons (by decide)]
    simp only [skip_blank, skip_write, hrest]
    rfl
termination_by v items => sizeOf v + sizeOf items
decreasing_by all_goals (simp_wf <;> omega)

theorem readMembers_write : ∀ (key : String) (v : Value) (members : List (String × Value))
    (fuel : ℕ) (rest : List Char), v.Short → ShortMembers members →
    2 * ((writeString key).length + (write v).length + (writeMembers members).length) ≤ fuel →
    readMembers fuel (writeString key ++ ':' :: ' ' :: (write v ++ (writeMembers members ++ rest)))
      = some ((key, v) :: members, rest)
  | key, v, [], fuel, rest, hv, _, hfuel => by
    have hpos := length_writeMembers_pos []
    obtain ⟨fuel, rfl⟩ : ∃ k, fuel = k + 1 := ⟨fuel - 1, by omega⟩
    have hread := readValue_write v fuel (writeMembers [] ++ rest) hv (ends_writeMembers [] rest)
      (by omega)
    rw [readMembers_value hread]
    rfl
  | key, v, (key', w) :: members, fuel, rest, hv, hmembers, hfuel => by
    have hlength : (writeMembers ((key', w) :: members)).length
        = (writeString key').length + (write w).length + (writeMembers members).length + 4 := by
      simp only [writeMembers, List.length_append, List.length_cons]
      omega
    obtain ⟨fuel, rfl⟩ : ∃ k, fuel = k + 1 := ⟨fuel - 1, by omega⟩
    have hread := readValue_write v fuel (writeMembers ((key', w) :: members) ++ rest) hv
      (ends_writeMembers _ rest) (by omega)
    have hrest := readMembers_write key' w members fuel rest hmembers.1 hmembers.2 (by omega)
    have hquote : skip (writeString key' ++ ':' :: ' ' :: (write w ++ (writeMembers members ++ rest)))
        = writeString key' ++ ':' :: ' ' :: (write w ++ (writeMembers members ++ rest)) :=
      skip_cons (by decide) _
    rw [readMembers_value hread, writeMembers]
    simp only [List.append_assoc, List.cons_append]
    rw [skip_cons (by decide)]
    simp only [skip_blank, hquote, hrest]
    rfl
termination_by _ v members => sizeOf v + sizeOf members
decreasing_by all_goals (simp_wf <;> omega)

end

/-- **What is written reads back**, if its integers are short enough to be read. -/
theorem read_write {v : Value} (h : v.Short) : read (write v) = some v := by
  have hread := readValue_write v (2 * (write v).length + 2) [] h ends_nil (by omega)
  have hskip := skip_write v []
  rw [List.append_nil] at hread hskip
  rw [read, hskip, hread]
  rfl

/-- **Different values have different texts.** -/
theorem write_injective {v w : Value} (hv : v.Short) (hw : w.Short) (h : write v = write w) :
    v = w := by
  have hread := read_write hv
  rw [h, read_write hw] at hread
  exact (Option.some.inj hread).symm

end JsonText
