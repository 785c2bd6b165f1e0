import Mathlib.Data.Int.Notation
import Mathlib.Data.List.Basic
import Mathlib.Data.List.TakeWhile
import Mathlib.Data.List.Infix

/-!
# Python values

The parts of Python's built-in types that the services compute with: blank
strings, JSON values as `json.loads` returns them, and the exceptions the
modelled code raises.  Strings are compared and measured as Lean's; letter case
is the Unicode tables of the interpreter, which the functions that need it take
as a parameter.

## Main definitions

* `strip`, `blank`, `contains`, `replaceChar`, `isAscii` — methods and tests of `str`.
* `pyInt` — `int` of a text.
* `Json`, `Json.get`, `Json.update`, `Json.truthy`, `Json.orElse`, `Json.pyStr` — values,
  `dict.get`, `{**fields, **extra}`, truth value testing, `or` and `str`.
* `Error`, `Error.isValueError` — the exceptions.
* `Env` — what one call draws from the clock and from `uuid4`.
-/

namespace AiSaas

/-! ### Strings -/

/-- `str.isspace` of one character. -/
def isSpace (c : Char) : Bool :=
  let n := c.toNat
  (9 ≤ n && n ≤ 13) || (28 ≤ n && n ≤ 32) || n == 0x85 || n == 0xA0 || n == 0x1680 ||
    (0x2000 ≤ n && n ≤ 0x200A) || n == 0x2028 || n == 0x2029 || n == 0x202F || n == 0x205F ||
    n == 0x3000

/-- `str.strip`. -/
def strip (s : String) : String :=
  String.ofList ((s.toList.dropWhile isSpace).reverse.dropWhile isSpace).reverse

/-- `not value.strip()`. -/
def blank (s : String) : Bool := s.toList.all isSpace

/-- `part in s`. -/
def contains (s part : String) : Bool := decide (part.toList <:+: s.toList)

/-- `s.replace(c, by)` of one character. -/
def replaceChar (s : String) (c : Char) (by' : String) : String :=
  String.ofList (s.toList.flatMap fun x => if x = c then by'.toList else [x])

/-- `s.isascii()`. -/
def isAscii (s : String) : Bool := s.toUTF8.data.toList.all fun byte => decide (byte < 128)

/-! ### Integers in text -/

/-- The code points of the digits zero; each begins a block of ten (Unicode 14). -/
def decimalZeros : List ℕ :=
  [0x30, 0x660, 0x6f0, 0x7c0, 0x966, 0x9e6, 0xa66, 0xae6, 0xb66, 0xbe6, 0xc66, 0xce6, 0xd66, 0xde6,
    0xe50, 0xed0, 0xf20, 0x1040, 0x1090, 0x17e0, 0x1810, 0x1946, 0x19d0, 0x1a80, 0x1a90, 0x1b50,
    0x1bb0, 0x1c40, 0x1c50, 0xa620, 0xa8d0, 0xa900, 0xa9d0, 0xa9f0, 0xaa50, 0xabf0, 0xff10, 0x104a0,
    0x10d30, 0x11066, 0x110f0, 0x11136, 0x111d0, 0x112f0, 0x11450, 0x114d0, 0x11650, 0x116c0,
    0x11730, 0x118e0, 0x11950, 0x11c50, 0x11d50, 0x11da0, 0x16a60, 0x16ac0, 0x16b50, 0x1d7ce,
    0x1d7d8, 0x1d7e2, 0x1d7ec, 0x1d7f6, 0x1e140, 0x1e2f0, 0x1e950, 0x1fbf0]

/-- `unicodedata.decimal`. -/
def decimal (c : Char) : Option ℕ :=
  (decimalZeros.find? fun start => start ≤ c.toNat && c.toNat < start + 10).map fun start =>
    c.toNat - start

/-- Digits with single underscores between them. -/
def digits : List Char → Option (List ℕ)
  | [] => none
  | [c] => (decimal c).map fun d => [d]
  | c :: '_' :: rest => (decimal c).bind fun d => (digits rest).map fun ds => d :: ds
  | c :: rest => (decimal c).bind fun d => (digits rest).map fun ds => d :: ds

/-- An unsigned number; more than 4300 digits are refused. -/
def natural (s : List Char) : Option ℤ :=
  (digits s).bind fun ds =>
    if ds.length ≤ 4300 then some (ds.foldl (fun n d => 10 * n + (d : ℤ)) 0) else none

/-- What `int` skips around a number: white space, but not the ASCII separators. -/
def intSpace (c : Char) : Bool := isSpace c && !(28 ≤ c.toNat && c.toNat ≤ 31)

/-- `int(s)`; nothing where it raises `ValueError`. -/
def pyInt (s : String) : Option ℤ :=
  match ((s.toList.dropWhile intSpace).reverse.dropWhile intSpace).reverse with
  | '-' :: rest => (natural rest).map fun n => -n
  | '+' :: rest => natural rest
  | rest => natural rest

/-- Trimming leaves a text that starts with something else its first character. -/
theorem exists_trim_eq_cons {p : Char → Bool} {c : Char} (hc : p c = false) (l : List Char) :
    ∃ l', (((c :: l).dropWhile p).reverse.dropWhile p).reverse = c :: l' := by
  have hend : ∀ r : List Char, ∃ r', (r ++ [c]).dropWhile p = r' ++ [c] := by
    intro r
    induction r with
    | nil => exact ⟨[], by simp [hc]⟩
    | cons x r ih =>
      by_cases hx : p x
      · obtain ⟨r', hr'⟩ := ih
        exact ⟨r', by simp [hx, hr']⟩
      · exact ⟨x :: r, by simp [hx]⟩
  obtain ⟨r', hr'⟩ := hend l.reverse
  refine ⟨r'.reverse, ?_⟩
  rw [List.dropWhile_cons_of_neg (by simp [hc]), List.reverse_cons, hr', List.reverse_append]
  rfl

/-- A text without blanks is trimmed to itself. -/
theorem strip_eq_self {s : String} (h : ∀ c ∈ s.toList, isSpace c = false) : strip s = s := by
  have hkeep : ∀ l : List Char, (∀ c ∈ l, isSpace c = false) → l.dropWhile isSpace = l := by
    intro l hl
    cases l with
    | nil => rfl
    | cons c l => rw [List.dropWhile_cons_of_neg (by simp [hl c List.mem_cons_self])]
  have hreverse : ∀ c ∈ s.toList.reverse, isSpace c = false := fun c hc => h c (List.mem_reverse.mp hc)
  rw [strip, hkeep _ h, hkeep _ hreverse, List.reverse_reverse, String.ofList_toList]

/-- A text is blank with the blanks around it or without them. -/
theorem blank_strip (s : String) : blank (strip s) = blank s := by
  have hdrop : ∀ l : List Char, (l.dropWhile isSpace).all isSpace = l.all isSpace := by
    intro l
    induction l with
    | nil => rfl
    | cons c l ih => by_cases hc : isSpace c <;> simp [hc, ih]
  simp only [blank, strip, String.toList_ofList, List.all_reverse, hdrop]

/-- A text that is not blank is not trimmed away. -/
theorem strip_ne_empty {s : String} (h : blank s = false) : strip s ≠ "" := by
  obtain ⟨x, hx, hspace⟩ : ∃ x ∈ s.toList, isSpace x = false := by
    simpa [blank] using h
  cases hdrop : s.toList.dropWhile isSpace with
  | nil =>
    have hall := List.dropWhile_eq_nil_iff.mp hdrop x hx
    exact absurd hall (by simp [hspace])
  | cons c l =>
    have hc : isSpace c = false := by
      have hhead := List.head?_dropWhile_not isSpace s.toList
      rw [hdrop] at hhead
      simpa using hhead
    obtain ⟨l', hl'⟩ := exists_trim_eq_cons hc l
    rw [List.dropWhile_cons_of_neg (by simp [hc])] at hl'
    intro hempty
    have hlist := congrArg String.toList hempty
    rw [strip, String.toList_ofList, hdrop, hl'] at hlist
    cases hlist

/-- A text that starts with a letter is no number. -/
theorem pyInt_eq_none {c : Char} {l : List Char} {s : String} (hs : s.toList = c :: l)
    (hspace : intSpace c = false) (hdigit : decimal c = none) (hminus : c ≠ '-') (hplus : c ≠ '+') :
    pyInt s = none := by
  obtain ⟨l', hl'⟩ := exists_trim_eq_cons hspace l
  have hdigits : digits (c :: l') = none := by
    match l' with
    | [] => simp [digits, hdigit]
    | '_' :: rest => simp [digits, hdigit]
    | x :: rest =>
      unfold digits
      split <;> simp_all
  rw [pyInt, hs, hl']
  split
  · next heq => exact absurd (List.cons.inj heq).1 hminus
  · next heq => exact absurd (List.cons.inj heq).1 hplus
  · simp [natural, hdigits]

/-! ### JSON values -/

/-- A value `json.loads` returns.  A float is its `repr`; an object has distinct
keys. -/
inductive Json where
  | null
  | bool (b : Bool)
  | int (n : ℤ)
  | float (repr : String)
  | str (s : String)
  | arr (items : List Json)
  | obj (fields : List (String × Json))
  deriving Inhabited

namespace Json

/-- `value.get(key)` of a `dict`; `None` where the key is missing. -/
def get (fields : List (String × Json)) (key : String) : Json :=
  (fields.lookup key).getD .null

/-- `{**fields, **extra}`.  The order of the keys is not the dict's, which nothing
depends on: `json.dumps` sorts them. -/
def update (fields extra : List (String × Json)) : List (String × Json) :=
  extra ++ fields.filter fun field => (extra.lookup field.1).isNone

/-- `value if isinstance(value, dict) else {}`. -/
def asDict : Json → List (String × Json)
  | .obj fields => fields
  | _ => []

/-- Truth value testing. -/
def truthy : Json → Bool
  | .null => false
  | .bool b => b
  | .int n => decide (n ≠ 0)
  | .float repr => decide (repr ≠ "0.0" ∧ repr ≠ "-0.0")
  | .str s => decide (s ≠ "")
  | .arr items => !items.isEmpty
  | .obj fields => !fields.isEmpty

/-- `a or b`. -/
def orElse (a b : Json) : Json := if a.truthy then a else b

/-- `value if isinstance(value, int) else None`; `bool` is a subclass of `int`. -/
def asInt : Json → Option ℤ
  | .int n => some n
  | .bool b => some (if b then 1 else 0)
  | _ => none

/-- `str(value)`; `repr` is Python's for the values that hold others. -/
def pyStr (repr : Json → String) : Json → String
  | .null => "None"
  | .bool b => if b then "True" else "False"
  | .int n => toString n
  | .float r => r
  | .str s => s
  | v => repr v

end Json

/-! ### Exceptions -/

/-- The exceptions of the modelled code. -/
inductive Error where
  | valueError (message : String)
  | keyError (key : String)
  | typeError
  | runtimeError (message : String)
  /-- `sqlite3.IntegrityError`: a write broke a constraint of its table. -/
  | integrityError
  | reservationConflict (message : String)
  | insufficientCredits (accountId : String)
  | orderConflict (message : String)
  | unknownOrder (orderId : String)
  | invalidWebhook (message : String)
  | unknownProvider (providerId : String)
  | providerConfiguration (message : String)
  /-- `QuotaExceeded`, with its dimension and limit. -/
  | quotaExceeded (dimension : String) (limit : ℤ)
  /-- `OverflowError`: an integer beyond SQLite's 64 bits. -/
  | overflowError
  | runNotFound (runId : String)
  | tenantMismatch (runId : String)
  | idempotencyConflict (message : String)
  | invalidTransition (message : String)
  deriving DecidableEq, Repr

/-- `isinstance(error, ValueError)`. -/
def Error.isValueError : Error → Bool
  | .keyError _ | .typeError | .runtimeError _ | .integrityError | .quotaExceeded _ _
  | .overflowError => false
  | .valueError _ | .reservationConflict _ | .insufficientCredits _ | .orderConflict _
  | .unknownOrder _ | .invalidWebhook _ | .unknownProvider _ | .providerConfiguration _
  | .runNotFound _ | .tenantMismatch _ | .idempotencyConflict _ | .invalidTransition _ => true

/-! ### What a call draws from outside -/

/-- The successive readings of the clock and the successive values of
`uuid.uuid4().hex` within one call. -/
structure Env where
  /-- `_now()`, as ISO text. -/
  now : ℕ → String
  /-- `uuid.uuid4().hex`. -/
  uuid : ℕ → String

end AiSaas
