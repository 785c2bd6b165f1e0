import Mathlib.Data.List.Basic
import Mathlib.Tactic.IntervalCases

/-!
# Base64

Bytes as text of sixty-four digits, three bytes to four digits, and the strict
reader of such text.  Where the last group is short the reader ignores the bits
that carry no byte, and it passes over padding behind a full group.

* `Base64.encode` — the text of bytes.
* `Base64.decode` — the bytes of a text; nothing where it is malformed.
* `Base64.decode_encode` — **the text of bytes reads back as these bytes.**
* `Base64.length_encode` — how long it is.
* `Base64.mem_alphabet_of_decode` — only digits and padding can be read.
* `Base64.looseDecode`, `Base64.looseDecode_encode` — the lenient reader, which passes
  over other characters, and its round trip.
* `Base64.decodeUrl_encodeUrl` — the round trip of the alphabet for URLs, without padding.
-/

namespace Base64

/-- The sixty-four digits. -/
def alphabet : List Char :=
  "ABCDEFGHIJKLMNOPQRSTUVWXYZabcdefghijklmnopqrstuvwxyz0123456789+/".toList

/-- The digit of six bits. -/
def digit (n : ℕ) : Char := alphabet.getD n '='

/-- The six bits of a digit. -/
def value (c : Char) : Option ℕ := alphabet.idxOf? c

/-! ### Writing -/

/-- The text of bytes. -/
def encode : List UInt8 → List Char
  | [] => []
  | [x] => [digit (x.toNat / 4), digit (x.toNat % 4 * 16), '=', '=']
  | [x, y] =>
    [digit (x.toNat / 4), digit (x.toNat % 4 * 16 + y.toNat / 16), digit (y.toNat % 16 * 4), '=']
  | x :: y :: z :: rest =>
    digit (x.toNat / 4) :: digit (x.toNat % 4 * 16 + y.toNat / 16) ::
      digit (y.toNat % 16 * 4 + z.toNat / 64) :: digit (z.toNat % 64) :: encode rest

/-! ### Reading -/

/-- The byte of two digits. -/
def oneByte (a b : Char) : Option (List UInt8) := do
  let a ← value a
  let b ← value b
  return [.ofNat (a * 4 + b / 16)]

/-- The bytes of three digits. -/
def twoBytes (a b c : Char) : Option (List UInt8) := do
  let a ← value a
  let b ← value b
  let c ← value c
  return [.ofNat (a * 4 + b / 16), .ofNat (b % 16 * 16 + c / 4)]

/-- The bytes of four digits. -/
def threeBytes (a b c d : Char) : Option (List UInt8) := do
  let a ← value a
  let b ← value b
  let c ← value c
  let d ← value d
  return [.ofNat (a * 4 + b / 16), .ofNat (b % 16 * 16 + c / 4), .ofNat (c % 4 * 64 + d)]

/-- The bytes of a text whose first group is full or the last. -/
def groups : List Char → Option (List UInt8)
  | a :: b :: c :: d :: rest =>
    if (a :: b :: c :: d :: rest).all (· = '=') then some []
    else if rest = [] ∧ d = '=' then if c = '=' then oneByte a b else twoBytes a b c
    else do
      let first ← threeBytes a b c d
      let others ← groups rest
      return first ++ others
  | l => if l.all (· = '=') then some [] else none

/-- The bytes of a text: padding may stand at its end, but not at its start. -/
def decode (text : List Char) : Option (List UInt8) :=
  if text.head? = some '=' then none else groups text

/-! ### Digits -/

theorem value_digit {n : ℕ} (h : n < 64) : value (digit n) = some n := by
  have hall : ∀ m : Fin 64, value (digit m) = some m.val := by decide +kernel
  exact hall ⟨n, h⟩

theorem digit_ne_pad {n : ℕ} (h : n < 64) : digit n ≠ '=' := by
  have hall : ∀ m : Fin 64, digit m ≠ '=' := by decide +kernel
  exact hall ⟨n, h⟩

theorem mem_alphabet_of_value {c : Char} {n : ℕ} (h : value c = some n) : c ∈ alphabet := by
  by_contra hc
  rw [value, List.idxOf?_eq_none_iff.mpr hc] at h
  cases h

/-! ### The round trip -/

section

variable {x y z : UInt8}

theorem oneByte_digits :
    oneByte (digit (x.toNat / 4)) (digit (x.toNat % 4 * 16)) = some [x] := by
  have hx := x.toNat_lt
  have hsame : x.toNat / 4 * 4 + x.toNat % 4 * 16 / 16 = x.toNat := by omega
  rw [oneByte, value_digit (by omega), value_digit (by omega)]
  simp only [Option.bind_eq_bind, Option.bind_some, Option.pure_def, hsame, UInt8.ofNat_toNat]

theorem twoBytes_digits :
    twoBytes (digit (x.toNat / 4)) (digit (x.toNat % 4 * 16 + y.toNat / 16))
      (digit (y.toNat % 16 * 4)) = some [x, y] := by
  have hx := x.toNat_lt
  have hy := y.toNat_lt
  have hfirst : x.toNat / 4 * 4 + (x.toNat % 4 * 16 + y.toNat / 16) / 16 = x.toNat := by omega
  have hsecond : (x.toNat % 4 * 16 + y.toNat / 16) % 16 * 16 + y.toNat % 16 * 4 / 4
      = y.toNat := by omega
  rw [twoBytes, value_digit (by omega), value_digit (by omega), value_digit (by omega)]
  simp only [Option.bind_eq_bind, Option.bind_some, Option.pure_def, hfirst, hsecond,
    UInt8.ofNat_toNat]

theorem threeBytes_digits :
    threeBytes (digit (x.toNat / 4)) (digit (x.toNat % 4 * 16 + y.toNat / 16))
      (digit (y.toNat % 16 * 4 + z.toNat / 64)) (digit (z.toNat % 64)) = some [x, y, z] := by
  have hx := x.toNat_lt
  have hy := y.toNat_lt
  have hz := z.toNat_lt
  have hfirst : x.toNat / 4 * 4 + (x.toNat % 4 * 16 + y.toNat / 16) / 16 = x.toNat := by omega
  have hsecond : (x.toNat % 4 * 16 + y.toNat / 16) % 16 * 16
      + (y.toNat % 16 * 4 + z.toNat / 64) / 4 = y.toNat := by omega
  have hthird : (y.toNat % 16 * 4 + z.toNat / 64) % 4 * 64 + z.toNat % 64 = z.toNat := by omega
  rw [threeBytes, value_digit (by omega), value_digit (by omega), value_digit (by omega),
    value_digit (by omega)]
  simp only [Option.bind_eq_bind, Option.bind_some, Option.pure_def, hfirst, hsecond, hthird,
    UInt8.ofNat_toNat]

end

theorem groups_encode (bytes : List UInt8) : groups (encode bytes) = some bytes := by
  induction bytes using encode.induct with
  | case1 => rfl
  | case2 x =>
    have hpad := digit_ne_pad (n := x.toNat / 4) (by have := x.toNat_lt; omega)
    simp [encode, groups, hpad, oneByte_digits]
  | case3 x y =>
    have hpad := digit_ne_pad (n := x.toNat / 4) (by have := x.toNat_lt; omega)
    have hlast := digit_ne_pad (n := y.toNat % 16 * 4) (by omega)
    simp [encode, groups, hpad, hlast, twoBytes_digits]
  | case4 x y z rest ih =>
    have hpad := digit_ne_pad (n := x.toNat / 4) (by have := x.toNat_lt; omega)
    have hlast := digit_ne_pad (n := z.toNat % 64) (by omega)
    simp [encode, groups, hpad, hlast, threeBytes_digits, ih]

theorem head?_encode_ne (bytes : List UInt8) : (encode bytes).head? ≠ some '=' := by
  have hdigit : ∀ x : UInt8, digit (x.toNat / 4) ≠ '=' := fun x =>
    digit_ne_pad (by have := x.toNat_lt; omega)
  match bytes with
  | [] => simp [encode]
  | [x] => simp [encode, hdigit]
  | [x, y] => simp [encode, hdigit]
  | x :: y :: z :: rest => simp [encode, hdigit]

/-- **The text of bytes reads back as these bytes.** -/
theorem decode_encode (bytes : List UInt8) : decode (encode bytes) = some bytes := by
  rw [decode, if_neg (head?_encode_ne bytes), groups_encode]

/-- Four characters for every three bytes begun. -/
theorem length_encode (bytes : List UInt8) : (encode bytes).length = (bytes.length + 2) / 3 * 4 := by
  induction bytes using encode.induct with
  | case1 => rfl
  | case2 => simp [encode]
  | case3 => simp [encode]
  | case4 x y z rest ih =>
    simp only [encode, List.length_cons, ih]
    omega

/-! ### What can be read -/

theorem mem_alphabet_of_oneByte {a b : Char} {bytes : List UInt8} (h : oneByte a b = some bytes) :
    a ∈ alphabet ∧ b ∈ alphabet := by
  simp only [oneByte, Option.bind_eq_bind, Option.bind_eq_some_iff] at h
  obtain ⟨_, ha, _, hb, -⟩ := h
  exact ⟨mem_alphabet_of_value ha, mem_alphabet_of_value hb⟩

theorem mem_alphabet_of_twoBytes {a b c : Char} {bytes : List UInt8}
    (h : twoBytes a b c = some bytes) : a ∈ alphabet ∧ b ∈ alphabet ∧ c ∈ alphabet := by
  simp only [twoBytes, Option.bind_eq_bind, Option.bind_eq_some_iff] at h
  obtain ⟨_, ha, _, hb, _, hc, -⟩ := h
  exact ⟨mem_alphabet_of_value ha, mem_alphabet_of_value hb, mem_alphabet_of_value hc⟩

theorem mem_alphabet_of_threeBytes {a b c d : Char} {bytes : List UInt8}
    (h : threeBytes a b c d = some bytes) :
    a ∈ alphabet ∧ b ∈ alphabet ∧ c ∈ alphabet ∧ d ∈ alphabet := by
  simp only [threeBytes, Option.bind_eq_bind, Option.bind_eq_some_iff] at h
  obtain ⟨_, ha, _, hb, _, hc, _, hd, -⟩ := h
  exact ⟨mem_alphabet_of_value ha, mem_alphabet_of_value hb, mem_alphabet_of_value hc,
    mem_alphabet_of_value hd⟩

theorem mem_alphabet_of_groups {text : List Char} {bytes : List UInt8}
    (h : groups text = some bytes) : ∀ x ∈ text, x = '=' ∨ x ∈ alphabet := by
  fun_induction groups text generalizing bytes with
  | case1 a b c d rest hall => exact fun x hx => .inl (by simpa using List.all_eq_true.mp hall x hx)
  | case2 a b d rest hlast =>
    obtain ⟨ha, hb⟩ := mem_alphabet_of_oneByte h
    simp [hlast, ha, hb]
  | case3 a b c d rest hall hlast hpad =>
    obtain ⟨ha, hb, hc⟩ := mem_alphabet_of_twoBytes h
    simp [hlast, ha, hb, hc]
  | case4 a b c d rest hall hlast ih =>
    simp only [Option.bind_eq_bind, Option.bind_eq_some_iff] at h
    obtain ⟨first, hfirst, others, hothers, -⟩ := h
    obtain ⟨ha, hb, hc, hd⟩ := mem_alphabet_of_threeBytes hfirst
    simpa [ha, hb, hc, hd] using ih hothers
  | case5 l hshort hall => exact fun x hx => .inl (by simpa using List.all_eq_true.mp hall x hx)
  | case6 => cases h

/-- **Only digits and padding can be read.** -/
theorem mem_alphabet_of_decode {text : List Char} {bytes : List UInt8}
    (h : decode text = some bytes) : ∀ x ∈ text, x = '=' ∨ x ∈ alphabet := by
  unfold decode at h
  split at h
  · cases h
  · exact mem_alphabet_of_groups h

/-! ### The lenient reader -/

/-- The bytes of a text from the digit `quad` of a group on, with the bits left over and the
padding seen: characters that are not digits are passed over, and padding that fills
its group ends the text. -/
def looseFrom : ℕ → ℕ → ℕ → List Char → Option (List UInt8)
  | quad, _, _, [] => if quad = 0 then some [] else none
  | quad, left, pads, c :: cs =>
    if c = '=' then
      if 2 ≤ quad ∧ 4 ≤ quad + (pads + 1) then some []
      else looseFrom quad left (if 2 ≤ quad then pads + 1 else pads) cs
    else
      match value c with
      | none => looseFrom quad left pads cs
      | some v =>
        match quad with
        | 0 => looseFrom 1 v 0 cs
        | 1 => (looseFrom 2 (v % 16) 0 cs).map fun bytes => .ofNat (left * 4 + v / 16) :: bytes
        | 2 => (looseFrom 3 (v % 4) 0 cs).map fun bytes => .ofNat (left * 16 + v / 4) :: bytes
        | _ => (looseFrom 0 0 0 cs).map fun bytes => .ofNat (left * 64 + v) :: bytes

/-- The bytes the lenient reader finds. -/
def looseDecode (text : List Char) : Option (List UInt8) := looseFrom 0 0 0 text

theorem looseFrom_digit {quad left pads n : ℕ} (hn : n < 64) (cs : List Char) :
    looseFrom quad left pads (digit n :: cs) = match quad with
      | 0 => looseFrom 1 n 0 cs
      | 1 => (looseFrom 2 (n % 16) 0 cs).map fun bytes => .ofNat (left * 4 + n / 16) :: bytes
      | 2 => (looseFrom 3 (n % 4) 0 cs).map fun bytes => .ofNat (left * 16 + n / 4) :: bytes
      | _ => (looseFrom 0 0 0 cs).map fun bytes => .ofNat (left * 64 + n) :: bytes := by
  rw [looseFrom, if_neg (digit_ne_pad hn), value_digit hn]

/-- The first two digits of a group give its first byte. -/
theorem looseFrom_two {x : UInt8} {n : ℕ} (hn : n < 16) (cs : List Char) :
    looseFrom 0 0 0 (digit (x.toNat / 4) :: digit (x.toNat % 4 * 16 + n) :: cs)
      = (looseFrom 2 n 0 cs).map fun bytes => x :: bytes := by
  have hx := x.toNat_lt
  have hsame : x.toNat / 4 * 4 + (x.toNat % 4 * 16 + n) / 16 = x.toNat := by omega
  have hleft : (x.toNat % 4 * 16 + n) % 16 = n := by omega
  rw [looseFrom_digit (by omega), looseFrom_digit (by omega), hsame, hleft, UInt8.ofNat_toNat]
  rfl

/-- The third digit gives the second byte. -/
theorem looseFrom_third {y : UInt8} {n : ℕ} (hn : n < 4) (cs : List Char) :
    looseFrom 2 (y.toNat / 16) 0 (digit (y.toNat % 16 * 4 + n) :: cs)
      = (looseFrom 3 n 0 cs).map fun bytes => y :: bytes := by
  have hy := y.toNat_lt
  have hsame : y.toNat / 16 * 16 + (y.toNat % 16 * 4 + n) / 4 = y.toNat := by omega
  have hleft : (y.toNat % 16 * 4 + n) % 4 = n := by omega
  rw [looseFrom_digit (by omega), hsame, hleft, UInt8.ofNat_toNat]
  rfl

theorem looseDecode_encode (bytes : List UInt8) : looseDecode (encode bytes) = some bytes := by
  unfold looseDecode
  induction bytes using encode.induct with
  | case1 => rfl
  | case2 x =>
    have h := looseFrom_two (x := x) (n := 0) (by omega) ['=', '=']
    rw [Nat.add_zero] at h
    rw [encode, h]
    rfl
  | case3 x y =>
    have hy := y.toNat_lt
    have h := looseFrom_third (y := y) (n := 0) (by omega) ['=']
    rw [Nat.add_zero] at h
    rw [encode, looseFrom_two (by omega), h]
    rfl
  | case4 x y z rest ih =>
    have hy := y.toNat_lt
    have hz := z.toNat_lt
    have hlast : z.toNat / 64 * 64 + z.toNat % 64 = z.toNat := by omega
    rw [encode, looseFrom_two (by omega), looseFrom_third (by omega),
      looseFrom_digit (by omega), ih, hlast, UInt8.ofNat_toNat]
    rfl

/-! ### Padding -/

/-- The text without the padding at its end. -/
def strip : List Char → List Char
  | [] => []
  | c :: cs => if strip cs = [] ∧ c = '=' then [] else c :: strip cs

/-- The text with as much padding as its length asks for. -/
def pad (text : List Char) : List Char :=
  text ++ List.replicate ((4 - text.length % 4) % 4) '='

theorem strip_of_ne {c : Char} (hc : c ≠ '=') (cs : List Char) : strip (c :: cs) = c :: strip cs := by
  rw [strip, if_neg fun h => hc h.2]

theorem strip_cons {c : Char} {cs : List Char} (h : strip cs ≠ []) : strip (c :: cs) = c :: strip cs := by
  rw [strip, if_neg fun h' => h h'.1]

/-- **What was stripped is put back**, whatever the length leaves over. -/
theorem pad_strip_encode (bytes : List UInt8) : pad (strip (encode bytes)) = encode bytes := by
  induction bytes using encode.induct with
  | case1 => rfl
  | case2 x =>
    have h : strip (encode [x]) = [digit (x.toNat / 4), digit (x.toNat % 4 * 16)] := by
      have hlast := digit_ne_pad (n := x.toNat % 4 * 16) (by omega)
      have htail : strip [digit (x.toNat % 4 * 16), '=', '='] = [digit (x.toNat % 4 * 16)] :=
        strip_of_ne hlast _
      rw [encode, strip_cons (by rw [htail]; exact List.cons_ne_nil _ _), htail]
    rw [h]
    rfl
  | case3 x y =>
    have h : strip (encode [x, y]) = [digit (x.toNat / 4), digit (x.toNat % 4 * 16 + y.toNat / 16),
        digit (y.toNat % 16 * 4)] := by
      have hlast := digit_ne_pad (n := y.toNat % 16 * 4) (by omega)
      have htail : strip [digit (y.toNat % 16 * 4), '='] = [digit (y.toNat % 16 * 4)] :=
        strip_of_ne hlast _
      have htwo := strip_cons (c := digit (x.toNat % 4 * 16 + y.toNat / 16))
        (by rw [htail]; exact List.cons_ne_nil _ _)
      rw [encode, strip_cons (by rw [htwo]; exact List.cons_ne_nil _ _), htwo, htail]
    rw [h]
    rfl
  | case4 x y z rest ih =>
    have hlast := digit_ne_pad (n := z.toNat % 64) (by omega)
    have htail := strip_of_ne hlast (encode rest)
    have htwo := strip_cons (c := digit (y.toNat % 16 * 4 + z.toNat / 64))
      (by rw [htail]; exact List.cons_ne_nil _ _)
    have hthree := strip_cons (c := digit (x.toNat % 4 * 16 + y.toNat / 16))
      (by rw [htwo]; exact List.cons_ne_nil _ _)
    rw [encode, strip_cons (by rw [hthree]; exact List.cons_ne_nil _ _), hthree, htwo, htail]
    unfold pad at ih ⊢
    simp only [List.length_cons, List.cons_append]
    rw [show (strip (encode rest)).length + 1 + 1 + 1 + 1 = (strip (encode rest)).length + 4 from rfl,
      Nat.add_mod_right, ih]

/-! ### The alphabet for URLs -/

def toUrl (c : Char) : Char := if c = '+' then '-' else if c = '/' then '_' else c

def fromUrl (c : Char) : Char := if c = '-' then '+' else if c = '_' then '/' else c

/-- The text of bytes for a URL, without padding. -/
def encodeUrl (bytes : List UInt8) : List Char := strip ((encode bytes).map toUrl)

/-- The bytes of such a text, with the padding restored. -/
def decodeUrl (text : List Char) : Option (List UInt8) := looseDecode ((pad text).map fromUrl)

theorem mem_encode {bytes : List UInt8} {c : Char} (h : c ∈ encode bytes) : c = '=' ∨ c ∈ alphabet :=
  mem_alphabet_of_groups (groups_encode bytes) c h

theorem fromUrl_toUrl {c : Char} (h : c = '=' ∨ c ∈ alphabet) : fromUrl (toUrl c) = c := by
  have hall : ('=' :: alphabet).all (fun c => fromUrl (toUrl c) == c) = true := by decide +kernel
  exact beq_iff_eq.mp (List.all_eq_true.mp hall c (List.mem_cons.mpr h))

theorem toUrl_eq_pad {c : Char} : toUrl c = '=' ↔ c = '=' := by
  unfold toUrl
  split
  · next h => simp [h]
  · split
    · next h => simp [h]
    · rfl

theorem strip_map_toUrl (text : List Char) : strip (text.map toUrl) = (strip text).map toUrl := by
  induction text with
  | nil => rfl
  | cons c cs ih =>
    rw [List.map_cons, strip, strip, ih]
    simp only [List.map_eq_nil_iff, toUrl_eq_pad]
    split <;> rfl

/-- **The text for a URL reads back**, for every length. -/
theorem decodeUrl_encodeUrl (bytes : List UInt8) : decodeUrl (encodeUrl bytes) = some bytes := by
  have hpad : pad ((strip (encode bytes)).map toUrl) = (encode bytes).map toUrl := by
    have h := congrArg (List.map toUrl) (pad_strip_encode bytes)
    rw [← h, pad, pad, List.map_append, List.length_map, List.map_replicate]
    rfl
  have hback : ((encode bytes).map toUrl).map fromUrl = encode bytes := by
    conv_rhs => rw [← List.map_id (encode bytes)]
    rw [List.map_map]
    exact List.map_congr_left fun c hc => fromUrl_toUrl (mem_encode hc)
  rw [decodeUrl, encodeUrl, strip_map_toUrl, hpad, hback, looseDecode_encode]

theorem mem_of_mem_strip {c : Char} {text : List Char} (h : c ∈ strip text) : c ∈ text := by
  induction text with
  | nil => exact h
  | cons d cs ih =>
    unfold strip at h
    split at h
    · cases h
    · rcases List.mem_cons.mp h with rfl | h
      · exact List.mem_cons_self
      · exact List.mem_cons_of_mem d (ih h)

/-- What a text for a URL is made of. -/
theorem mem_encodeUrl {bytes : List UInt8} {c : Char} (h : c ∈ encodeUrl bytes) :
    c ∈ '=' :: '-' :: '_' :: alphabet := by
  obtain ⟨d, hd, rfl⟩ := List.mem_map.mp (mem_of_mem_strip h)
  have hall : ('=' :: alphabet).all (fun d => toUrl d ∈ '=' :: '-' :: '_' :: alphabet) = true := by
    decide +kernel
  exact of_decide_eq_true (List.all_eq_true.mp hall d (List.mem_cons.mpr (mem_encode hd)))

end Base64
