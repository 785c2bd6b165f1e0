import AiSaas.Lib.Backtracking
import Mathlib.Data.Nat.Notation

/-!
# Questions as texts

`normalize`, `redact` and `isSensitive` of `apps/web/lib/faq/matcher.ts`.  A text of
JavaScript is its code units, which its expressions match one by one, but for those with the
flag `u`.

## Main definitions

* `JsText`, `units`, `codePoints` — texts.
* `replaceAll` — `replace` of an expression with the flag `g`.
* `normalize`, `redact`, `isSensitive` — the functions of the same names.

## Main results

* `normalize_congr`, `redact_congr` — two spellings of one compatibility form are normalized
  and redacted alike.
* `isSensitive_eq_iff` — and are told sensitive alike unless one of them alone has a keyword.
-/

namespace AiSaas
namespace Faq

open Backtracking Regex

/-! ### Texts -/

/-- A text, by its code units. -/
abbrev JsText := List UInt16

/-- The code units of a character. -/
def unitsOf (c : Char) : JsText :=
  let n := c.toNat
  if n < 0x10000 then [n.toUInt16]
  else [(0xd800 + (n - 0x10000) / 1024).toUInt16, (0xdc00 + (n - 0x10000) % 1024).toUInt16]

/-- The code units of a literal. -/
def units (s : String) : JsText := s.toList.flatMap unitsOf

def highSurrogate (u : UInt16) : Bool := 0xd800 ≤ u && u ≤ 0xdbff

def lowSurrogate (u : UInt16) : Bool := 0xdc00 ≤ u && u ≤ 0xdfff

/-- The code points of a text; a surrogate without its partner is one. -/
def codePoints : JsText → List JsText
  | [] => []
  | [u] => [[u]]
  | u :: v :: rest =>
    if highSurrogate u && lowSurrogate v then [u, v] :: codePoints rest
    else [u] :: codePoints (v :: rest)

/-! ### Classes -/

/-- `\s` -/
def space (u : UInt16) : Bool :=
  (9 ≤ u && u ≤ 13) || (0x2000 ≤ u && u ≤ 0x200a) ||
    [0x20, 0xa0, 0x1680, 0x2028, 0x2029, 0x202f, 0x205f, 0x3000, 0xfeff].contains u

/-- What `.` does not match. -/
def lineTerminator (u : UInt16) : Bool := [10, 13, 0x2028, 0x2029].contains u

/-- `\d` -/
def digit (u : UInt16) : Bool := 48 ≤ u && u ≤ 57

/-- `[a-z]` under the flag `i`. -/
def letter (u : UInt16) : Bool := (65 ≤ u && u ≤ 90) || (97 ≤ u && u ≤ 122)

/-- `\w` -/
def wordUnit (u : UInt16) : Bool := letter u || digit u || u == 95

/-- A unit of a pattern that is written in lower case, under the flag `i`. -/
def sameUnit (p u : UInt16) : Bool := p == u || (65 ≤ u && u ≤ 90 && p == u + 32)

/-- A text under the flag `i`. -/
def spelled (s : String) : Regex UInt16 := all ((units s).map fun p => one (sameUnit p))

/-- `.` -/
def dot : Regex UInt16 := one fun u => !lineTerminator u

/-- `\b` -/
def boundary : Regex UInt16 := look fun before behind => before.any wordUnit != behind.any wordUnit

/-- `$` under the flag `m`. -/
def lineEnd : Regex UInt16 := look fun _ behind => behind.all lineTerminator

/-- One of some units. -/
def oneOf (s : String) : Regex UInt16 := one fun u => (units s).contains u

/-! ### Replacement -/

/-- The matches of an expression, one behind the other, are replaced; none of them is empty. -/
def replaceWithin (r : Regex UInt16) (token : JsText) : ℕ → Option UInt16 → JsText → JsText
  | 0, _, s => s
  | _ + 1, _, [] => []
  | n + 1, before, u :: s =>
    match matchAt r before (u :: s) with
    | some q => token ++ replaceWithin r token n q.before q.rest
    | none => u :: replaceWithin r token n (some u) s

/-- `s.replace(/…/g, token)` -/
def replaceAll (r : Regex UInt16) (token s : JsText) : JsText := replaceWithin r token s.length none s

/-- `s.trim()` -/
def trim (s : JsText) : JsText := ((s.dropWhile space).reverse.dropWhile space).reverse

/-! ### The matcher's texts -/

/-- What the matcher relies on of the interpreter. -/
structure TextHost where
  /-- `s.normalize('NFKC')` -/
  nfkc : JsText → JsText
  /-- `s.toLowerCase()` -/
  toLowerCase : JsText → JsText
  /-- `/[\p{L}\p{N}]/u` of a code point. -/
  letterOrNumber : JsText → Bool

variable (host : TextHost)

/-- `/[^\p{L}\p{N}\s]/gu` is replaced by a blank. -/
def blankOthers (s : JsText) : JsText :=
  (codePoints s).flatMap fun point =>
    if host.letterOrNumber point || point.all space then point else units " "

/-- `normalize` -/
def normalize (text : JsText) : JsText :=
  trim (replaceAll (plus (one space)) (units " ") (blankOthers host (host.toLowerCase (host.nfkc text))))

/-- `/\b(?:token|password|secret|bearer|api[_ -]?key)\b.*$/gim` -/
def secretLine : Regex UInt16 := all [boundary,
  any [spelled "token", spelled "password", spelled "secret", spelled "bearer",
    all [spelled "api", opt (oneOf "_ -"), spelled "key"]],
  boundary, star true dot, lineEnd]

/-- `/https?:\/\/\S+|[\w.+-]+@[\w.-]+\.[a-z]+/gi` -/
def address : Regex UInt16 := either
  (all [spelled "http", opt (spelled "s"), spelled "://", plus (one fun u => !space u)])
  (all [plus (one fun u => wordUnit u || (units ".+-").contains u), spelled "@",
    plus (one fun u => wordUnit u || (units ".-").contains u), spelled ".", plus (one letter)])

/-- `/\b[\w-]*\d[\w-]*\b/g` -/
def numbered : Regex UInt16 :=
  let part := star true (one fun u => wordUnit u || (units "-").contains u)
  all [boundary, part, one digit, part, boundary]

/-- `redact` -/
def redact (text : JsText) : JsText :=
  let token := units "[redacted]"
  (replaceAll numbered token (replaceAll address token (replaceAll secretLine token
    (host.nfkc text)))).take 500

/-- The keywords of `isSensitive`. -/
def keyword : Regex UInt16 := any [spelled "account", spelled "tenant", spelled "payment",
  spelled "refund", spelled "billing", spelled "card", spelled "auth", spelled "password",
  spelled "secret", spelled "token", spelled "bearer", all [spelled "api", opt dot, spelled "key"],
  spelled "conversation", spelled "history", spelled "계정", spelled "결제", spelled "비밀번호",
  spelled "환불", spelled "인증"]

/-- The text as it is has a keyword. -/
def hasKeyword (text : JsText) : Bool := (search keyword none text).isSome

/-- Redaction changes the text. -/
def redacts (text : JsText) : Bool := redact host text != (host.nfkc text).take 500

/-- `isSensitive` -/
def isSensitive (text : JsText) : Bool := hasKeyword text || redacts host text

variable {host} {text text' : JsText}

/-- Two spellings of one compatibility form are normalized alike. -/
theorem normalize_congr (h : host.nfkc text = host.nfkc text') :
    normalize host text = normalize host text' := by
  rw [normalize, normalize, h]

theorem redact_congr (h : host.nfkc text = host.nfkc text') : redact host text = redact host text' := by
  rw [redact, redact, h]

theorem redacts_congr (h : host.nfkc text = host.nfkc text') : redacts host text = redacts host text' := by
  rw [redacts, redacts, redact_congr h, h]

/-- **Two spellings of one compatibility form are told sensitive alike** exactly when both or
neither has a keyword as it is, or redaction changes them. -/
theorem isSensitive_eq_iff (h : host.nfkc text = host.nfkc text') :
    isSensitive host text = isSensitive host text' ↔
      hasKeyword text = hasKeyword text' ∨ redacts host text = true := by
  rw [isSensitive, isSensitive, ← redacts_congr h]
  cases hasKeyword text <;> cases hasKeyword text' <;> cases redacts host text <;> decide

end Faq
end AiSaas
