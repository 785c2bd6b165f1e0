import AiSaas.Python

/-!
# Redaction

`redact_text` of `services/run_service/store.py` replaces what looks like a key,
a password or a card number before a text enters an event.  Each of its three
patterns is a function that matches at the front of a text, and `substitute` is
`re.sub`: the leftmost match is replaced and the search goes on behind it.

## Main definitions

* `substitute` — `re.sub`, given what a pattern matches at the front.
* `matchKey`, `matchSecret`, `matchCard` — the three patterns.
* `redactText`, `redactState` — `redact_text` and `_redact_state`.
-/

namespace AiSaas

namespace Redaction

/-- `c` matches the lower-case letter `p` under `(?i)`; three letters have
relatives outside ASCII. -/
def sameLetter (p c : Char) : Bool :=
  c.toLower == p || (p == 's' && c == '\u017f') || (p == 'k' && c == '\u212a') ||
    (p == 'i' && (c == '\u0130' || c == '\u0131'))

/-- What follows a word at the front of a text, in any case. -/
def afterWord : List Char → List Char → Option (List Char)
  | [], s => some s
  | _ :: _, [] => none
  | p :: word, c :: s => if sameLetter p c then afterWord word s else none

/-- `[A-Za-z0-9_-]` under `(?i)`. -/
def keyChar (c : Char) : Bool :=
  c.isAlphanum || c == '_' || c == '-' || c == '\u0130' || c == '\u0131' || c == '\u017f' ||
    c == '\u212a'

/-- `[^,;\s\x7d]`. -/
def valueChar (c : Char) : Bool := !(c == ',' || c == ';' || isSpace c || c == '\x7d')

/-- `(?i)(sk-[A-Za-z0-9_-]+)`: the replacement, and what follows the match. -/
def matchKey (s : List Char) : Option (List Char × List Char) :=
  match afterWord ['s', 'k', '-'] s with
  | some (c :: rest) =>
    if keyChar c then some ("[REDACTED_KEY]".toList, rest.dropWhile keyChar) else none
  | _ => none

/-- `password|passwd|secret|token|api[_-]?key|card(?:_number)?`, in the order in
which the alternatives are tried. -/
def secretWords : List (List Char) :=
  ["password", "passwd", "secret", "token", "api_key", "api-key", "apikey", "card_number",
    "card"].map String.toList

/-- `(?i)(…)[=:][^,;\s\x7d]+`: the word stays, in the case it was written in. -/
def matchSecret (s : List Char) : Option (List Char × List Char) :=
  secretWords.findSome? fun word =>
    match afterWord word s with
    | some (sep :: c :: rest) =>
      if (sep == '=' || sep == ':') && valueChar c then
        some (s.take word.length ++ "=[REDACTED]".toList, rest.dropWhile valueChar)
      else none
    | _ => none

/-- `(?i)card=\d+`. -/
def matchCard (s : List Char) : Option (List Char × List Char) :=
  match afterWord ['c', 'a', 'r', 'd', '='] s with
  | some (c :: rest) =>
    if (decimal c).isSome then
      some ("card=[REDACTED]".toList, rest.dropWhile fun c => (decimal c).isSome)
    else none
  | _ => none

/-- `re.sub`, within a number of steps; every step consumes a character. -/
def substituteWithin (pattern : List Char → Option (List Char × List Char)) :
    ℕ → List Char → List Char
  | 0, s => s
  | _, [] => []
  | fuel + 1, c :: s =>
    match pattern (c :: s) with
    | some (replacement, rest) => replacement ++ substituteWithin pattern fuel rest
    | none => c :: substituteWithin pattern fuel s

/-- `re.sub`. -/
def substitute (pattern : List Char → Option (List Char × List Char)) (s : List Char) :
    List Char := substituteWithin pattern s.length s

end Redaction

open Redaction in
/-- `redact_text`. -/
def redactText (value : String) : String :=
  String.ofList (substitute matchCard (substitute matchSecret (substitute matchKey value.toList)))

mutual

/-- `_redact_state`. -/
def redactState : Json → Json
  | .str s => .str (redactText s)
  | .obj fields => .obj (redactFields fields)
  | .arr items => .arr (redactItems items)
  | value => value

/-- The values of an object, redacted. -/
def redactFields : List (String × Json) → List (String × Json)
  | [] => []
  | (key, value) :: fields => (key, redactState value) :: redactFields fields

/-- The items of a list, redacted. -/
def redactItems : List Json → List Json
  | [] => []
  | value :: items => redactState value :: redactItems items

end

example : redactText "use sk-abc1, Token:hunter2; card=42" =
    "use [REDACTED_KEY], Token=[REDACTED]; card=[REDACTED]" := by decide +kernel

end AiSaas
