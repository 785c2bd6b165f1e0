import AiSaas.Migrations.Common
import Mathlib.Data.List.Basic
import Mathlib.Tactic.Common

/-!
# Comments in SQL

A text of SQL as the server reads it, with its literals, quoted identifiers and comments, and
as `findDestructiveStatements` of `scripts/migration-preflight.mjs` strips it: first of line
comments, then of block comments, wherever their marks are.

## Main definitions

* `SqlState`, `scan` — the server's reading: what is in no comment, each character with
  whether it is quoted.
* `complete` — a text that leaves none of them open.
* `blanked`, `masked` — the text with a blank for each comment; and with the quoted characters
  blotted out, too.
* `stripLine`, `stripBlock` — the two replacements.
* `plain` — no quotation and no block comment holds the mark of a comment.

## Main results

* `strip_eq_blanked` — a plain text is stripped of its comments and of nothing else.
-/

namespace AiSaas
namespace Migrations

/-! ### The server's reading -/

/-- A character of an identifier. -/
def identChar (c : Char) : Bool := c.isAlphanum || c == '_' || c == '$' || 128 ≤ c.toNat

/-- A text with its letters small. -/
def lowered (s : List Char) : List Char := s.map Char.toLower

/-- Where the server is in a literal or a quoted identifier. -/
inductive Quotation where
  | quoted (mark : Char)
  /-- `E'…'`, and whether the next character is escaped. -/
  | escape (escaped : Bool)
  /-- Between two marks, behind some more characters of the first. -/
  | dollar (opening : ℕ) (mark : List Char)
  /-- In the second mark, before some more characters of it and the last. -/
  | closing (more : ℕ)
  deriving DecidableEq, Repr

/-- The quotation behind a character, unless it has ended. -/
def Quotation.next (c : Char) (following : List Char) : Quotation → Option Quotation
  | quoted mark => if c = mark then none else some (quoted mark)
  | escape true => some (escape false)
  | escape false =>
    if c = '\\' then some (escape true)
    else if c = '\x27' then
      -- a mark that is doubled is a character of the literal
      if following.head? = some '\x27' then some (escape true) else none
    else some (escape false)
  | dollar 0 mark =>
    if mark.isPrefixOf (c :: following) then some (closing (mark.length - 2)) else some (dollar 0 mark)
  | dollar (opening + 1) mark => some (dollar opening mark)
  | closing 0 => none
  | closing (more + 1) => some (closing more)

/-- The mark of a literal between dollars that is at the front of a text. -/
def dollarMark (s : List Char) : Option (List Char) :=
  match s with
  | '$' :: s =>
    let tag := s.takeWhile fun c => identChar c && c != '$'
    if (s.drop tag.length).head? = some '$' && !(tag.head?.any Char.isDigit) then some ('$' :: tag ++ ['$'])
    else none
  | _ => none

/-- Where the server is in a text. -/
inductive SqlState where
  /-- Behind a word that has not ended; its last character is first. -/
  | code (word : List Char)
  | literal (quotation : Quotation)
  | line
  /-- At the second character of a mark that opens a block comment. -/
  | opening (depth : ℕ)
  | block (depth : ℕ)
  /-- At the second character of a mark that closes one. -/
  | closing (depth : ℕ)
  deriving DecidableEq, Repr

/-- Two characters in a row. -/
def pair (a b c : Char) (following : Option Char) : Bool := c == a && following == some b

/-- A line ends in a line feed, or in a carriage return that has none behind it. -/
def endsLine (c : Char) (following : Option Char) : Bool :=
  c == '\n' || (c == '\r' && following != some '\n')

/-- The state behind a character of the code that begins no comment. -/
def afterCode (word : List Char) (c : Char) (following : List Char) : SqlState :=
  if c = '\x22' then .literal (.quoted c)
  else if c = '\x27' then .literal (if lowered word = ['e'] then .escape false else .quoted c)
  else
    match if word.isEmpty then dollarMark (c :: following) else none with
    | some mark => .literal (.dollar (mark.length - 1) mark)
    | none => .code (if identChar c then c :: word else [])

/-- The state behind a character. -/
def SqlState.next (c : Char) (following : List Char) : SqlState → SqlState
  | code word =>
    if pair '-' '-' c following.head? then line
    else if pair '/' '*' c following.head? then opening 0
    else afterCode word c following
  | literal quotation => (quotation.next c following).elim (code []) literal
  | line => if endsLine c following.head? then code [] else line
  | opening depth => block depth
  | block depth =>
    if pair '*' '/' c following.head? then closing depth
    else if pair '/' '*' c following.head? then opening (depth + 1)
    else block depth
  | closing 0 => code []
  | closing (depth + 1) => block depth

/-- What is left of a character, and whether it is quoted. -/
def SqlState.emit (c : Char) (following : List Char) : SqlState → List (Char × Bool)
  | code _ =>
    if pair '-' '-' c following.head? || pair '/' '*' c following.head? then [(' ', false)]
    else [(c, false)]
  | literal quotation => [(c, (quotation.next c following).isSome)]
  | line => if endsLine c following.head? then [(c, false)] else []
  | _ => []

/-- The text without its comments. -/
def scan : SqlState → List Char → List (Char × Bool)
  | _, [] => []
  | st, c :: s => st.emit c s ++ scan (st.next c s) s

/-- The state behind a text. -/
def endState : SqlState → List Char → SqlState
  | st, [] => st
  | st, c :: s => endState (st.next c s) s

/-- No quotation and no block comment is left open. -/
def complete (s : List Char) : Bool :=
  match endState (.code []) s with
  | .code _ | .line => true
  | _ => false

/-- The text with a blank for each comment. -/
def blanked (s : List Char) : List Char := (scan (.code []) s).map Prod.fst

/-- A quoted character is blotted out. -/
def blot (c : Char × Bool) : Char := if c.2 then '_' else c.1

/-- The text with a blank for each comment and the quoted characters blotted out. -/
def masked (s : List Char) : List Char := (scan (.code []) s).map blot

/-! ### The replacements -/

/-- A line comment is replaced by a blank; whether one is being read. -/
def stripLine : Bool → List Char → List Char
  | _, [] => []
  | false, c :: s => if pair '-' '-' c s.head? then ' ' :: stripLine true s else c :: stripLine false s
  | true, c :: s => if c = '\n' then '\n' :: stripLine false s else stripLine true s

/-- The mark that closes a block comment is there. -/
def closes : List Char → Bool
  | [] => false
  | c :: s => pair '*' '/' c s.head? || closes s

/-- Where the replacement of block comments is. -/
inductive BlockState where
  | outside
  | opening
  | inside
  | closing
  deriving DecidableEq, Repr

/-- A block comment that is closed is replaced by a blank. -/
def stripBlock : BlockState → List Char → List Char
  | _, [] => []
  | .outside, c :: s =>
    if pair '/' '*' c s.head? && closes s.tail then ' ' :: stripBlock .opening s
    else c :: stripBlock .outside s
  | .opening, _ :: s => stripBlock .inside s
  | .inside, c :: s => stripBlock (if pair '*' '/' c s.head? then .closing else .inside) s
  | .closing, _ :: s => stripBlock .outside s

/-! ### Plain texts -/

/-- A character that is no obstacle where the server is. -/
def plainAt (c : Char) (following : Option Char) : SqlState → Bool
  | .code _ => true
  | .literal _ | .block _ => !pair '-' '-' c following && !pair '/' '*' c following
  | .line => !(c == '\r' && following != some '\n')
  | .opening _ => c == '*'
  | .closing _ => c == '/'

/-- No quotation and no block comment holds the mark of a comment, no line comment ends
without a line feed, and every block comment is closed. -/
def plain : SqlState → List Char → Bool
  | .code _, [] | .literal _, [] | .line, [] => true
  | _, [] => false
  | st, c :: s => plainAt c s.head? st && plain (st.next c s) s

/-- No block comment is in another one. -/
def SqlState.shallow : SqlState → Bool
  | opening depth | block depth | closing depth => depth == 0
  | _ => true

/-- Where the replacements are. -/
def SqlState.side : SqlState → BlockState × Bool
  | code _ | literal _ => (.outside, false)
  | line => (.outside, true)
  | opening _ => (.opening, false)
  | block _ => (.inside, false)
  | closing _ => (.closing, false)

variable {s : List Char} {c x : Char} {st : SqlState}

theorem plain_cons : plain st (c :: s) = (plainAt c s.head? st && plain (st.next c s) s) := by
  cases st <;> rfl

theorem pair_of_ne {a b : Char} {following : Option Char} (h : c ≠ a) : pair a b c following = false := by
  rw [pair, beq_false_of_ne h, Bool.false_and]

/-- What is no mark of a line comment stays. -/
theorem stripLine_cons (h : pair '-' '-' c s.head? = false) :
    stripLine false (c :: s) = c :: stripLine false s := by
  rw [stripLine, h, if_neg Bool.false_ne_true]

/-- The first character behind the replacement of line comments, where it is none of theirs. -/
theorem head?_stripLine (hx : x ≠ '-') (hblank : x ≠ ' ') :
    (stripLine false s).head? = some x ↔ s.head? = some x := by
  cases s with
  | nil => rfl
  | cons c s =>
    cases hpair : pair '-' '-' c s.head? with
    | false => rw [stripLine_cons hpair]; rfl
    | true =>
      rw [stripLine, hpair, if_pos rfl]
      rw [pair, Bool.and_eq_true, beq_iff_eq] at hpair
      obtain ⟨rfl, -⟩ := hpair
      exact iff_of_false (fun h => hblank (Option.some.inj h).symm) fun h => hx (Option.some.inj h).symm

theorem pair_stripLine (a : Char) (hx : x ≠ '-') (hblank : x ≠ ' ') :
    pair a x c (stripLine false s).head? = pair a x c s.head? := by
  rw [pair, pair]
  congr 1
  exact Bool.eq_iff_iff.mpr (by simpa using head?_stripLine hx hblank)

/-- A block comment of a plain text is closed. -/
theorem closes_stripLine (h : plain (.block 0) s = true) : closes (stripLine false s) = true := by
  induction s with
  | nil => cases h
  | cons c s ih =>
    rw [plain_cons, plainAt, Bool.and_eq_true, Bool.and_eq_true] at h
    obtain ⟨⟨hdash, hopen⟩, hrest⟩ := h
    rw [Bool.not_eq_true'] at hdash hopen
    rw [stripLine_cons hdash, closes, pair_stripLine _ (by decide) (by decide), Bool.or_eq_true]
    by_cases hclose : pair '*' '/' c s.head? = true
    · exact Or.inl hclose
    · rw [SqlState.next, if_neg hclose, hopen, if_neg Bool.false_ne_true] at hrest
      exact Or.inr (ih hrest)

/-- Behind a character of the code that begins no comment is code or a quotation. -/
theorem afterCode_cases (word : List Char) (c : Char) (s : List Char) :
    (∃ quotation, afterCode word c s = .literal quotation) ∨ ∃ word', afterCode word c s = .code word' := by
  unfold afterCode
  split
  · exact Or.inl ⟨_, rfl⟩
  · split
    · exact Or.inl ⟨_, rfl⟩
    · split
      · exact Or.inl ⟨_, rfl⟩
      · exact Or.inr ⟨_, rfl⟩

/-- A character that is in no comment is one of the server's, too. -/
theorem stripBlock_cons {r : List Char} (h : pair '/' '*' c r.head? = false) :
    stripBlock .outside (c :: r) = c :: stripBlock .outside r := by
  rw [stripBlock, h, Bool.false_and, if_neg Bool.false_ne_true]

/-- **Of a plain text, the replacements leave what the server reads.** -/
theorem strip_eq (hshallow : st.shallow = true) (h : plain st s = true) :
    stripBlock st.side.1 (stripLine st.side.2 s) = (scan st s).map Prod.fst := by
  induction s generalizing st with
  | nil => cases st <;> rfl
  | cons c s ih =>
    rw [plain_cons, Bool.and_eq_true] at h
    obtain ⟨hat, hrest⟩ := h
    rw [scan, List.map_append]
    cases st with
    | code word =>
      rw [SqlState.emit, SqlState.side]
      rw [SqlState.next] at hrest ⊢
      cases hdash : pair '-' '-' c s.head? with
      | true =>
        rw [hdash, if_pos rfl] at hrest
        have hline : stripBlock .outside (stripLine true s) = (scan .line s).map Prod.fst := ih rfl hrest
        rw [stripLine, hdash, if_pos rfl, stripBlock_cons (pair_of_ne (by decide)), hline]
        rfl
      | false =>
        rw [hdash, if_neg Bool.false_ne_true] at hrest
        rw [stripLine_cons hdash, Bool.false_or, if_neg Bool.false_ne_true]
        cases hopen : pair '/' '*' c s.head? with
        | true =>
          rw [hopen, if_pos rfl] at hrest
          rw [if_pos rfl, if_pos rfl, ← ih rfl hrest]
          -- the comment is closed, so that it is replaced
          rw [pair, Bool.and_eq_true, beq_iff_eq, beq_iff_eq] at hopen
          obtain ⟨rfl, hstar⟩ := hopen
          obtain ⟨s, rfl⟩ := List.head?_eq_some_iff.mp hstar
          rw [plain_cons, Bool.and_eq_true] at hrest
          rw [stripLine_cons (pair_of_ne (by decide)), stripBlock, List.tail_cons,
            closes_stripLine hrest.2, SqlState.side, stripLine_cons (pair_of_ne (by decide))]
          rfl
        | false =>
          rw [hopen, if_neg Bool.false_ne_true] at hrest
          have hcode : stripBlock .outside (stripLine false s)
              = (scan (afterCode word c s) s).map Prod.fst := by
            rcases afterCode_cases word c s with ⟨quotation, heq⟩ | ⟨word', heq⟩ <;> rw [heq] at hrest ⊢
            · exact ih rfl hrest
            · exact ih rfl hrest
          rw [stripBlock_cons (by rwa [pair_stripLine _ (by decide) (by decide)]),
            if_neg Bool.false_ne_true, if_neg Bool.false_ne_true, hcode]
          rfl
    | literal quotation =>
      rw [plainAt, Bool.and_eq_true, Bool.not_eq_true', Bool.not_eq_true'] at hat
      have hnext : stripBlock .outside (stripLine false s)
          = (scan ((quotation.next c s).elim (.code []) .literal) s).map Prod.fst := by
        rw [SqlState.next] at hrest
        cases hquotation : quotation.next c s with
        | none =>
          rw [hquotation] at hrest
          exact ih rfl hrest
        | some quotation =>
          rw [hquotation] at hrest
          exact ih rfl hrest
      rw [SqlState.side, stripLine_cons hat.1,
        stripBlock_cons (by rw [pair_stripLine _ (by decide) (by decide), hat.2]), hnext]
      rfl
    | line =>
      rw [plainAt, Bool.not_eq_true'] at hat
      rw [SqlState.emit, SqlState.side, stripLine, endsLine, hat, Bool.or_false]
      rw [SqlState.next, endsLine, hat, Bool.or_false] at hrest ⊢
      by_cases hfeed : c = '\n'
      · subst hfeed
        have hcode : stripBlock .outside (stripLine false s) = (scan (.code []) s).map Prod.fst :=
          ih rfl hrest
        rw [if_pos rfl, stripBlock_cons (pair_of_ne (by decide)), hcode]
        rfl
      · have hne : (c == '\n') = false := beq_false_of_ne hfeed
        rw [hne, if_neg Bool.false_ne_true] at hrest
        rw [if_neg hfeed, hne, if_neg Bool.false_ne_true, if_neg Bool.false_ne_true, ← ih rfl hrest]
        rfl
    | opening depth =>
      obtain rfl : depth = 0 := by simpa [SqlState.shallow] using hshallow
      obtain rfl : c = '*' := by simpa [plainAt] using hat
      rw [SqlState.side, stripLine_cons (pair_of_ne (by decide)), stripBlock]
      exact ih rfl hrest
    | block depth =>
      obtain rfl : depth = 0 := by simpa [SqlState.shallow] using hshallow
      rw [plainAt, Bool.and_eq_true, Bool.not_eq_true', Bool.not_eq_true'] at hat
      rw [SqlState.side, stripLine_cons hat.1, stripBlock, pair_stripLine _ (by decide) (by decide)]
      rw [SqlState.next, hat.2, if_neg Bool.false_ne_true] at hrest ⊢
      cases hclose : pair '*' '/' c s.head? with
      | true =>
        rw [hclose] at hrest
        exact ih rfl hrest
      | false =>
        rw [hclose] at hrest
        exact ih rfl hrest
    | closing depth =>
      obtain rfl : depth = 0 := by simpa [SqlState.shallow] using hshallow
      obtain rfl : c = '/' := by simpa [plainAt] using hat
      rw [SqlState.side, stripLine_cons (pair_of_ne (by decide)), stripBlock]
      exact ih rfl hrest

/-- A plain text is stripped of its comments and of nothing else. -/
theorem strip_eq_blanked (h : plain (.code []) s = true) :
    stripBlock .outside (stripLine false s) = blanked s := strip_eq rfl h

end Migrations
end AiSaas
