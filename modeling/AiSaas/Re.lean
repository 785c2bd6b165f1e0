import AiSaas.Lib.Backtracking
import AiSaas.RunService.Redaction

/-!
# Expressions of `re`

The pieces of Python's regular expressions that several services write.

* `literal`, `spelled` — a text, and a text in any case.
* `space`, `digit` — `\s` and `\d`.
* `wordChar`, `boundary` — `\w` and `\b`.
* `groupText` — a group of a match, as a text.
-/

namespace AiSaas.Re

open Backtracking Regex
open Redaction (sameLetter)

/-- A literal. -/
def literal (s : String) : Regex Char := all (s.toList.map fun c => one (· == c))

/-- A literal in lower case under `(?i)`. -/
def spelled (s : String) : Regex Char := all (s.toList.map fun c => one (sameLetter c))

/-- `\s` -/
def space : Regex Char := one isSpace

/-- `\d` -/
def digit : Regex Char := one fun c => (decimal c).isSome

/-- `\w`; beyond ASCII `alnum` is `str.isalnum`. -/
def wordChar (alnum : Char → Bool) (c : Char) : Bool :=
  c.isAlphanum || c == '_' || (decide (128 ≤ c.toNat) && alnum c)

/-- `\b` -/
def boundary (alnum : Char → Bool) : Regex Char := look fun before behind =>
  before.any (wordChar alnum) != behind.any (wordChar alnum)

/-- A group of a match, as a text. -/
def groupText (m : Place Char) (name : String) : Option String := (m.group? name).map String.ofList

end AiSaas.Re
