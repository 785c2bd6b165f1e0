import AiSaas.Lib.Ascii
import AiSaas.Lib.Occurrences
import AiSaas.Migrations.Statements
import Mathlib.Data.List.TakeWhile

/-!
# The search for destructive statements

`findDestructiveStatements` of `scripts/migration-preflight.mjs`, and the check of the
preflight that it is for.  It looks for words in what is left of a piece of the text without
comments, and does not read the text as the server does.

## Main definitions

* `pieces` — the text, split at the statement breakpoints.
* `normalized`, `finding`, `findDestructiveStatements` — the search.
* `destructiveCheck`, `passes` — the check, and whether the preflight passes.
* `evident` — a piece whose comments are plain has a destructive statement that the search
  has words for.

## Main results

* `upholds_of_evident` — a text with an evident piece has a finding, and fails the preflight
  unless the override is its target.
-/

namespace AiSaas
namespace Migrations

open Backtracking Regex

/-! ### The pieces of a text -/

/-- What is behind a breakpoint that is at the front. -/
def behindMarker : List Char → Option (List Char)
  | '-' :: '-' :: '>' :: s =>
    let s := s.dropWhile whiteSpace
    if "statement-breakpoint".toList.isPrefixOf s then some (s.drop "statement-breakpoint".length) else none
  | _ => none

/-- The pieces from behind some characters on. -/
def piecesFrom : ℕ → List Char → List (List Char)
  | _, [] => [[]]
  | skipped + 1, _ :: s => piecesFrom skipped s
  | 0, c :: s =>
    match behindMarker (c :: s) with
    | some rest => [] :: piecesFrom (s.length - rest.length) s
    | none => (piecesFrom 0 s).modifyHead (c :: ·)

/-- `sql.split(…)` at each `-->\s*statement-breakpoint`. -/
def pieces (sql : String) : List (List Char) := piecesFrom 0 sql.toList

/-! ### The search -/

/-- `replace(/\s+/gu, " ")` -/
def collapse : List Char → List Char
  | [] => []
  | c :: s =>
    if whiteSpace c then if s.head?.any whiteSpace then collapse s else ' ' :: collapse s
    else c :: collapse s

def normalized (statement : List Char) : List Char :=
  trim (collapse (stripBlock .outside (stripLine false statement)))

/-- A small letter of a pattern, under the flags `i` and `u`. -/
def foldedLetter (p c : Char) : Bool :=
  c.toLower == p || (p == 's' && c == '\u017f') || (p == 'k' && c == '\u212a')

/-- `\w`, under the same flags. -/
def wordChar (c : Char) : Bool := c.isAlphanum || c == '_' || c == '\u017f' || c == '\u212a'

def spelled (s : String) : Regex Char := all ((s.toList.map foldedLetter).map one)

/-- `\b` -/
def edge : Regex Char := look fun before behind => before.any wordChar != behind.any wordChar

/-- `\s+` -/
def blanks : Regex Char := plus (one whiteSpace)

/-- `/\bALTER\s+TABLE\b[\s\S]*\bDROP\s+COLUMN\b/iu` -/
def dropColumn : Regex Char := all [edge, spelled "alter", blanks, spelled "table", edge,
  star true (one fun _ => true), edge, spelled "drop", blanks, spelled "column", edge]

/-- `(?:TABLE|VIEW|…|DATABASE)` -/
def objects : List (Regex Char) := [spelled "table", spelled "view", spelled "index",
  spelled "function", spelled "trigger", spelled "procedure", spelled "extension", spelled "sequence",
  all [spelled "materialized", blanks, spelled "view"], spelled "policy", spelled "type",
  spelled "schema", spelled "database"]

/-- `/\bDROP\s+(?:IF\s+EXISTS\s+)?(?:TABLE|VIEW|…|DATABASE)\b/iu` -/
def dropStatement : Regex Char := all [edge, spelled "drop", blanks,
  opt (all [spelled "if", blanks, spelled "exists", blanks]), any objects, edge]

/-- `/\bTRUNCATE\b/iu` -/
def truncate : Regex Char := all [edge, spelled "truncate", edge]

/-- `/\bDELETE\s+FROM\b/iu` -/
def deleteFrom : Regex Char := all [edge, spelled "delete", blanks, spelled "from", edge]

/-- `/\bWHERE\b/iu` -/
def whereWord : Regex Char := all [edge, spelled "where", edge]

/-- `pattern.test(s)` -/
def test (pattern : Regex Char) (s : List Char) : Bool := (search pattern none s).isSome

/-- What is found in a piece. -/
def finding (statement : List Char) : Option String :=
  let normalized := normalized statement
  if test dropColumn normalized then some "DROP COLUMN statement"
  else if test dropStatement normalized then some "DROP statement"
  else if test truncate normalized then some "TRUNCATE statement"
  else if test deleteFrom normalized && !test whereWord normalized then some "DELETE without WHERE"
  else none

def findDestructiveStatements (sql : String) : List String := (pieces sql).filterMap finding

/-! ### The check -/

/-- A check of the preflight. -/
structure PreflightCheck where
  name : String
  ok : Bool
  detail : String
  severity : String

/-- `resultCheck(name, ok, detail)` -/
def resultCheck (name : String) (ok : Bool) (detail : String) : PreflightCheck := ⟨name, ok, detail, "error"⟩

def failedChecks (checks : List PreflightCheck) : List PreflightCheck :=
  checks.filter fun check => !check.ok && check.severity == "error"

/-- The check of the migrations, which are files with their texts; `allow` is
`ALLOW_DESTRUCTIVE_MIGRATION`. -/
def destructiveCheck (target : String) (allow : Option String) (migrations : List (String × String)) :
    PreflightCheck :=
  let found := migrations.flatMap fun (file, sql) =>
    (findDestructiveStatements sql).map fun finding => file ++ " (" ++ finding ++ ")"
  resultCheck "destructive-migrations" (found.isEmpty || allow == some target)
    (if found.isEmpty then "no destructive SQL detected"
    else "review required: " ++ ", ".intercalate found)

/-- The preflight passes; `databaseOk` tells of the checks of the database. -/
def passes (checks : List PreflightCheck) (databaseOk : Bool) : Bool :=
  (failedChecks checks).isEmpty && databaseOk

/-! ### What the search is for -/

/-- A text of complete pieces has a destructive statement. -/
def destructiveText (sql : String) : Bool :=
  (pieces sql).all complete && (pieces sql).any fun piece => (statements piece).any destructive

/-- A text with a destructive statement has a finding, and the preflight of a target with it
fails unless the override is that target. -/
def Upholds (sql : String) : Prop := destructiveText sql = true →
  findDestructiveStatements sql ≠ [] ∧ ∀ target allow migrations before after databaseOk,
    (∃ file, (file, sql) ∈ migrations) → allow ≠ some target →
      passes (before ++ destructiveCheck target allow migrations :: after) databaseOk = false

/-- A statement of a piece drops or truncates in words that are looked for, or deletes where
the piece has no word `WHERE` outside its comments. -/
def evidentStatement (piece statement : List Char) : Bool :=
  let ts := tokens statement
  dropsObject ts || altersTable (isWord "column") ts || truncates ts ||
    (deletesAll ts && !test whereWord (blanked piece))

/-- The comments of a piece are plain, and one of its statements is evident. -/
def evident (piece : List Char) : Bool :=
  plain (.code []) piece && (statements piece).any (evidentStatement piece)

variable {c : Char} {o before : Option Char} {s u v x rest : List Char} {word : String}
  {words : List String} {phrases : List (List String)} {rs : List (Regex Char)}

/-! ### Characters -/

theorem toNat_of_whiteSpace (h : whiteSpace c = true) : c.toNat ≤ 32 ∨ c.toNat = 0xa0 ∨
    (0x1680 ≤ c.toNat ∧ c.toNat ≤ 0x205f) ∨ 0x3000 ≤ c.toNat := by
  rw [whiteSpace, Bool.or_eq_true, List.contains_iff_mem] at h
  rcases h with h | h
  · simp only [List.mem_cons, List.not_mem_nil, or_false] at h
    rcases h with rfl | rfl | rfl | rfl | rfl | rfl | rfl | rfl | rfl | rfl | rfl | rfl | rfl | rfl <;> decide
  · simp only [Bool.and_eq_true, decide_eq_true_eq] at h
    omega

theorem toNat_of_wordChar (h : wordChar c = true) :
    (48 ≤ c.toNat ∧ c.toNat ≤ 122) ∨ c.toNat = 0x17f ∨ c.toNat = 0x212a := by
  simp only [wordChar, Bool.or_eq_true, beq_iff_eq] at h
  rcases h with ((h | rfl) | rfl) | rfl
  · rw [Ascii.isAlphanum_iff] at h
    omega
  · decide
  · decide
  · decide

theorem wordChar_of_whiteSpace (h : whiteSpace c = true) : wordChar c = false := by
  by_contra hne
  have hspace := toNat_of_whiteSpace h
  have hword := toNat_of_wordChar (Bool.eq_true_of_not_eq_false hne)
  omega

theorem wordChar_of_isAlpha (h : c.isAlpha = true) : wordChar c = true := by
  simp [wordChar, Char.isAlphanum, h]

theorem whiteSpace_of_isAlpha (h : c.isAlpha = true) : whiteSpace c = false := by
  by_contra hne
  have hspace := wordChar_of_whiteSpace (Bool.eq_true_of_not_eq_false hne)
  rw [wordChar_of_isAlpha h] at hspace
  cases hspace

/-- A word ends for the expressions wherever an identifier ends. -/
theorem identChar_of_wordChar (c : Char) (h : wordChar c = true) : identChar c = true := by
  simp only [wordChar, Bool.or_eq_true, beq_iff_eq] at h
  rcases h with ((h | rfl) | rfl) | rfl
  · simp [identChar, h]
  · decide
  · decide
  · decide

/-- A phrase ends with a letter. -/
theorem Spells.last (h : Spells words u) : ∃ c, u.getLast? = some c ∧ c.isAlpha = true := by
  induction h with
  | word hword hu =>
    have hne := ne_nil_of_keyword hword hu
    exact ⟨_, List.getLast?_eq_getLast_of_ne_nil hne,
      isAlpha_of_keyword hword hu _ (List.getLast_mem hne)⟩
  | more hword hu hne hg hv ih =>
    obtain ⟨c, hc, halpha⟩ := ih
    exact ⟨c, by rw [List.getLast?_append, List.getLast?_append, hc]; rfl, halpha⟩

/-! ### Blanks that are collapsed -/

/-- What a character at an end becomes. -/
def squash (c : Char) : Char := if whiteSpace c then ' ' else c

theorem apart_squash : Apart wordChar (o.map squash) ↔ Apart wordChar o := by
  cases o with
  | none => exact iff_of_true Apart.none Apart.none
  | some c =>
    rw [Option.map_some, apart_some, apart_some, squash]
    split
    · next hspace => exact iff_of_true (by decide) (wordChar_of_whiteSpace hspace)
    · rfl

theorem collapse_of_false (h : whiteSpace c = false) : collapse (c :: s) = c :: collapse s := by
  rw [collapse, h, if_neg Bool.false_ne_true]

theorem head?_collapse : (collapse s).head? = s.head?.map squash := by
  induction s with
  | nil => rfl
  | cons c s ih =>
    rw [collapse, List.head?_cons, Option.map_some, squash]
    cases hspace : whiteSpace c with
    | false => rfl
    | true =>
      rw [if_pos rfl, if_pos rfl]
      cases s with
      | nil => rfl
      | cons d s =>
        rw [List.head?_cons, Option.any_some] at *
        cases hspace' : whiteSpace d with
        | false => rfl
        | true => rw [if_pos rfl, ih, Option.map_some, squash, hspace', if_pos rfl]

theorem getLast?_collapse : (collapse s).getLast? = s.getLast?.map squash := by
  induction s with
  | nil => rfl
  | cons c s ih =>
    have hcons : ∀ d, (d :: collapse s).getLast? = some ((s.getLast?.map squash).getD d) := by
      intro d
      rw [List.getLast?_cons, ih]
    rw [collapse, List.getLast?_cons]
    cases s with
    | nil => cases hspace : whiteSpace c <;> simp [collapse, squash, hspace]
    | cons d s =>
      rw [List.getLast?_eq_getLast_of_ne_nil (List.cons_ne_nil d s)] at *
      split
      · split
        · exact ih
        · exact hcons ' '
      · exact hcons c

/-- In front of what is no blank a text can be cut. -/
theorem collapse_append (h : ∀ c ∈ x.head?, whiteSpace c = false) :
    collapse (v ++ x) = collapse v ++ collapse x := by
  induction v with
  | nil => rfl
  | cons c v ih =>
    have hhead : (v ++ x).head?.any whiteSpace = v.head?.any whiteSpace := by
      cases v with
      | nil =>
        cases hx : x.head? with
        | none => rw [List.nil_append, hx]; rfl
        | some d => rw [List.nil_append, hx, Option.any_some, h d hx]; rfl
      | cons d v => rfl
    rw [List.cons_append, collapse, collapse, hhead, ih]
    split
    · split <;> rfl
    · rfl

/-- And behind what is none. -/
theorem collapse_append_of_last (h : ∀ c ∈ v.getLast?, whiteSpace c = false) :
    collapse (v ++ x) = collapse v ++ collapse x := by
  induction v with
  | nil => rfl
  | cons c v ih =>
    cases v with
    | nil =>
      have hc : whiteSpace c = false := h c rfl
      rw [List.singleton_append, collapse_of_false hc, collapse_of_false hc]
      rfl
    | cons d v =>
      have hhead : (d :: v ++ x).head?.any whiteSpace = (d :: v).head?.any whiteSpace := rfl
      rw [List.cons_append, collapse, collapse, hhead, ih h]
      split
      · split <;> rfl
      · rfl

theorem collapse_of_letters (h : ∀ c ∈ u, c.isAlpha = true) : collapse u = u := by
  induction u with
  | nil => rfl
  | cons c u ih =>
    rw [collapse_of_false (whiteSpace_of_isAlpha (h c List.mem_cons_self)),
      ih fun d hd => h d (List.mem_cons_of_mem c hd)]

theorem collapse_of_blanks (hne : u ≠ []) (h : ∀ c ∈ u, whiteSpace c = true) : collapse u = [' '] := by
  induction u with
  | nil => exact absurd rfl hne
  | cons c u ih =>
    rw [collapse, h c List.mem_cons_self, if_pos rfl]
    cases u with
    | nil => rfl
    | cons d u =>
      rw [List.head?_cons, Option.any_some, h d (by simp), if_pos rfl]
      exact ih (List.cons_ne_nil d u) fun x hx => h x (List.mem_cons_of_mem c hx)

theorem Spells.whiteSpace_head (h : Spells words u) : ∀ c ∈ (u ++ rest).head?, whiteSpace c = false := by
  obtain ⟨c, r, rfl, hc⟩ := h.head
  intro d hd
  obtain rfl : c = d := Option.some.inj hd
  exact whiteSpace_of_isAlpha hc

theorem Spells.whiteSpace_last (h : Spells words u) : ∀ c ∈ u.getLast?, whiteSpace c = false := by
  obtain ⟨c, hlast, hc⟩ := h.last
  intro d hd
  obtain rfl : c = d := Option.some.inj (hlast.symm.trans hd)
  exact whiteSpace_of_isAlpha hc

/-- A phrase stays one. -/
theorem Spells.collapse (h : Spells words u) : Spells words (collapse u) := by
  induction h with
  | word hword hu =>
    rw [collapse_of_letters (isAlpha_of_keyword hword hu)]
    exact Spells.word hword hu
  | @more word words u g v hword hu hne hg hv ih =>
    have hletters := isAlpha_of_keyword hword hu
    have hlast : ∀ c ∈ u.getLast?, whiteSpace c = false :=
      fun c hc => whiteSpace_of_isAlpha (hletters c (List.mem_of_mem_getLast? hc))
    have hhead : ∀ c ∈ v.head?, whiteSpace c = false := by
      simpa using @Spells.whiteSpace_head v [] words hv
    rw [collapse_append_of_last hlast, collapse_append hhead, collapse_of_letters hletters,
      collapse_of_blanks hne hg]
    exact Spells.more hword hu (List.cons_ne_nil _ _) (List.forall_mem_singleton.mpr rfl) ih

/-- **Phrases stay** where the blanks are collapsed. -/
theorem Stands.collapse (h : Stands wordChar phrases before s) :
    Stands wordChar phrases (before.map squash) (collapse s) := by
  induction phrases generalizing before s with
  | nil => trivial
  | cons words phrases ih =>
    obtain ⟨v, u, rest, rfl, hu, hleft, hright, hrest⟩ := h
    have hrest' := ih hrest
    rw [← getLast?_collapse] at hrest'
    refine ⟨Migrations.collapse v, Migrations.collapse u, Migrations.collapse rest, ?_, hu.collapse, ?_, ?_, hrest'⟩
    · rw [collapse_append hu.whiteSpace_head, collapse_append_of_last hu.whiteSpace_last]
    · rw [getLast?_collapse, ← Option.map_or]
      exact apart_squash.mpr hleft
    · rw [head?_collapse]
      exact apart_squash.mpr hright

/-- A cut of the collapsed text in front of what is no blank is one of the text. -/
theorem exists_of_collapse_append (hx : ∃ c r, x = c :: r ∧ whiteSpace c = false)
    (h : collapse s = v ++ x) : ∃ v' x', s = v' ++ x' ∧ collapse v' = v ∧ collapse x' = x := by
  obtain ⟨d, r, rfl, hd⟩ := hx
  induction s generalizing v with
  | nil => exact absurd h.symm (by simp [collapse])
  | cons c s ih =>
    cases v with
    | nil => exact ⟨[], c :: s, rfl, rfl, h⟩
    | cons a v =>
      rw [collapse] at h
      split at h
      · next hspace =>
        split at h
        · next hnext =>
          obtain ⟨v', x', rfl, hv', hx'⟩ := ih h
          -- the blank is before another one, which is in the first part
          cases v' with
          | nil => cases hv'
          | cons b v' =>
            rw [List.cons_append, List.head?_cons] at hnext
            refine ⟨c :: b :: v', x', rfl, ?_, hx'⟩
            rw [← hv', collapse, hspace, if_pos rfl, List.head?_cons, hnext, if_pos rfl]
        · next hnext =>
          obtain ⟨rfl, htail⟩ := List.cons.inj h
          obtain ⟨v', x', rfl, rfl, hx'⟩ := ih htail
          refine ⟨c :: v', x', rfl, ?_, hx'⟩
          rw [collapse, hspace, if_pos rfl, if_neg]
          intro hblank
          cases v' with
          | nil => cases hblank
          | cons b v' => exact hnext hblank
      · next hspace =>
        obtain ⟨rfl, htail⟩ := List.cons.inj h
        obtain ⟨v', x', rfl, rfl, hx'⟩ := ih htail
        exact ⟨c :: v', x', rfl, by rw [collapse, if_neg hspace], hx'⟩

/-- Letters of the collapsed text are letters of the text. -/
theorem exists_of_collapse_letters (hu : ∀ c ∈ u, c.isAlpha = true) (h : collapse s = u ++ rest) :
    ∃ rest', s = u ++ rest' ∧ collapse rest' = rest := by
  induction u generalizing s with
  | nil => exact ⟨s, rfl, h⟩
  | cons c u ih =>
    have hc := hu c List.mem_cons_self
    cases s with
    | nil => cases h
    | cons d s =>
      have hhead := @head?_collapse (d :: s)
      rw [h, List.cons_append, List.head?_cons, List.head?_cons, Option.map_some, Option.some.injEq] at hhead
      cases hspace : whiteSpace d with
      | true =>
        rw [squash, hspace, if_pos rfl] at hhead
        subst hhead
        cases hc
      | false =>
        rw [squash, hspace, if_neg Bool.false_ne_true] at hhead
        subst hhead
        rw [collapse_of_false hspace, List.cons_append] at h
        obtain ⟨rest', rfl, hrest'⟩ := ih (fun x hx => hu x (List.mem_cons_of_mem c hx)) (List.cons.inj h).2
        exact ⟨rest', rfl, hrest'⟩

/-- A word of the collapsed text is one of the text. -/
theorem Stands.of_collapse (h : Stands wordChar [[word]] none (Migrations.collapse s)) :
    Stands wordChar [[word]] none s := by
  obtain ⟨v, u, rest, heq, hu, hleft, hright, -⟩ := h
  obtain ⟨c, r, hhead, hc⟩ := hu.head
  obtain ⟨v', x', rfl, rfl, hx'⟩ := exists_of_collapse_append
    ⟨c, r ++ rest, by rw [hhead, List.cons_append], whiteSpace_of_isAlpha hc⟩ heq
  have hletters : ∀ c ∈ u, c.isAlpha = true := by
    cases hu with
    | word hword hu => exact isAlpha_of_keyword hword hu
    | more hword hu hne hg hv => cases hv
  obtain ⟨rest', rfl, rfl⟩ := exists_of_collapse_letters hletters hx'
  refine ⟨v', u, rest', rfl, hu, ?_, ?_, trivial⟩
  · rw [getLast?_collapse, Option.or_none] at hleft
    rw [Option.or_none]
    exact apart_squash.mp hleft
  · rw [head?_collapse] at hright
    exact apart_squash.mp hright

/-! ### Blanks at the ends -/

/-- A blank in front is no part of a phrase. -/
theorem Stands.of_cons (hc : whiteSpace c = true) (h : Stands wordChar phrases before (c :: s)) :
    Stands wordChar phrases none s := by
  cases phrases with
  | nil => trivial
  | cons words phrases =>
    obtain ⟨v, u, rest, heq, hu, hleft, hright, hrest⟩ := h
    cases v with
    | nil =>
      have hhead := @Spells.whiteSpace_head u rest words hu c (by rw [← List.nil_append (u ++ rest), ← heq]; rfl)
      rw [hc] at hhead
      cases hhead
    | cons d v =>
      obtain ⟨rfl, rfl⟩ := List.cons.inj heq
      refine ⟨v, u, rest, rfl, hu, ?_, hright, hrest⟩
      cases v with
      | nil => exact Apart.none
      | cons d v =>
        rw [List.getLast?_eq_getLast_of_ne_nil (List.cons_ne_nil d v)]
        exact hleft

/-- Nor is one behind. -/
theorem Stands.of_concat (hc : whiteSpace c = true) (h : Stands wordChar phrases before (s ++ [c])) :
    Stands wordChar phrases before s := by
  induction phrases generalizing before s with
  | nil => trivial
  | cons words phrases ih =>
    obtain ⟨v, u, rest, heq, hu, hleft, hright, hrest⟩ := h
    rcases List.eq_nil_or_concat rest with rfl | ⟨rest, d, rfl⟩
    · have hlast := congrArg List.getLast? heq
      obtain ⟨d, hd, halpha⟩ := hu.last
      rw [List.getLast?_append, List.append_nil, List.getLast?_append, hd] at hlast
      obtain rfl : c = d := Option.some.inj hlast
      rw [whiteSpace_of_isAlpha halpha] at hc
      cases hc
    · rw [List.concat_eq_append] at heq hright hrest
      rw [← List.append_assoc, ← List.append_assoc] at heq
      obtain ⟨rfl, hcd⟩ := List.append_inj' heq rfl
      obtain rfl := (List.cons.inj hcd).1
      refine ⟨v, u, rest, by rw [List.append_assoc], hu, hleft, ?_, ih hrest⟩
      cases rest with
      | nil => exact Apart.none
      | cons d rest => exact hright

/-- What no blank in front changes is so behind all of them. -/
theorem dropWhile_of_step {p : List Char → Prop} (hstep : ∀ c s, whiteSpace c = true → p (c :: s) → p s)
    (h : p s) : p (s.dropWhile whiteSpace) := by
  induction s with
  | nil => exact h
  | cons c s ih =>
    rw [List.dropWhile_cons]
    split
    · next hspace => exact ih (hstep c s hspace h)
    · exact h

/-- **Phrases stay** where the blanks at the ends are gone. -/
theorem Stands.trim (h : Stands wordChar phrases none s) : Stands wordChar phrases none (trim s) := by
  have hfront : Stands wordChar phrases none (s.dropWhile whiteSpace) :=
    dropWhile_of_step (fun c s hc h => h.of_cons hc) h
  rw [Migrations.trim]
  refine @dropWhile_of_step _ (fun r => Stands wordChar phrases none r.reverse) ?_ ?_
  · intro c r hc h
    rw [List.reverse_cons] at h
    exact h.of_concat hc
  · rwa [List.reverse_reverse]

/-- Around what is left are blanks. -/
theorem exists_of_trim (s : List Char) : ∃ v w, s = v ++ (trim s ++ w) ∧
    (∀ c ∈ v, whiteSpace c = true) ∧ ∀ c ∈ w, whiteSpace c = true := by
  have htake : ∀ {s : List Char}, ∀ c ∈ s.takeWhile whiteSpace, whiteSpace c = true :=
    fun _ hc => List.mem_takeWhile_imp hc
  refine ⟨s.takeWhile whiteSpace, ((s.dropWhile whiteSpace).reverse.takeWhile whiteSpace).reverse, ?_,
    htake, fun c hc => htake c (List.mem_reverse.mp hc)⟩
  rw [trim, ← List.reverse_append, List.takeWhile_append_dropWhile, List.reverse_reverse,
    List.takeWhile_append_dropWhile]

theorem Stands.of_trim (h : Stands wordChar phrases none (Migrations.trim s)) :
    Stands wordChar phrases none s := by
  obtain ⟨v, w, heq, hv, hw⟩ := exists_of_trim s
  rw [heq]
  refine (h.append_right fun c hc => ?_).append_left fun c hc => ?_
  · exact wordChar_of_whiteSpace (hw c (List.mem_of_mem_head? hc))
  · rw [Option.or_none] at hc
    exact wordChar_of_whiteSpace (hv c (List.mem_of_mem_getLast? hc))

/-! ### What the expressions take -/

/-- Keywords one behind another, with blanks between them, in an expression. -/
def phrase : List String → List (Regex Char)
  | [] => []
  | [word] => [spelled word]
  | word :: words => spelled word :: blanks :: phrase words

theorem takes_spelled (hu : lowered u = word.toList) : Takes (spelled word) before u rest := by
  refine Takes.classes ?_
  rw [← hu, lowered, List.forall₂_map_left_iff, List.forall₂_map_left_iff, List.forall₂_same]
  intro c _
  rw [foldedLetter, beq_self_eq_true, Bool.true_or, Bool.true_or]

/-- An edge is before a phrase. -/
theorem edge_before (hleft : Apart wordChar before) (hu : Spells words u) :
    (before.any wordChar != (u ++ rest).head?.any wordChar) = true := by
  obtain ⟨c, r, rfl, hc⟩ := hu.head
  rw [List.cons_append, List.head?_cons, Option.any_some, wordChar_of_isAlpha hc]
  cases before with
  | none => rfl
  | some d => rw [Option.any_some, apart_some.mp hleft]; rfl

/-- And behind it. -/
theorem edge_behind (hu : Spells words u) (hright : Apart wordChar rest.head?) :
    ((u.getLast?.or before).any wordChar != rest.head?.any wordChar) = true := by
  obtain ⟨c, hlast, hc⟩ := hu.last
  rw [hlast, Option.some_or, Option.any_some, wordChar_of_isAlpha hc]
  cases hhead : rest.head? with
  | none => rfl
  | some d =>
    rw [hhead, apart_some] at hright
    rw [Option.any_some, hright]
    rfl

theorem takes_phrase (hu : Spells words u) (hrs : Takes (all rs) (u.getLast?.or before) v rest) :
    Takes (all (phrase words ++ rs)) before (u ++ v) rest := by
  induction hu generalizing before with
  | word hword hu => exact Takes.all_cons (takes_spelled hu) hrs
  | @more word words u g v' hword hu hne hg hv ih =>
    cases words with
    | nil => cases hv
    | cons word' words =>
      rw [getLast?_append_or, getLast?_append_or] at hrs
      rw [List.append_assoc, List.append_assoc]
      exact Takes.all_cons (takes_spelled hu) (Takes.all_cons (Takes.plus hne hg) (ih hrs))

/-- A phrase is taken up to its edge. -/
theorem takes_phrase_edge (hu : Spells words u) (hright : Apart wordChar rest.head?) :
    Takes (all (phrase words ++ [edge])) before u rest := by
  have h : Takes (all (phrase words ++ [edge])) before (u ++ []) rest :=
    takes_phrase hu (Takes.all_look (edge_behind hu hright) Takes.all_nil)
  rwa [List.append_nil] at h

/-- An expression of one phrase is found where the phrase stands. -/
theorem test_of_stands (h : Stands wordChar [words] none s) :
    test (all (edge :: (phrase words ++ [edge]))) s = true := by
  obtain ⟨v, u, rest, rfl, hu, hleft, hright, -⟩ := h
  exact Takes.isSome_search (Takes.all_look (edge_before hleft hu) (takes_phrase_edge hu hright))

theorem test_dropColumn (h : Stands wordChar [["alter", "table"], ["drop", "column"]] none s) :
    test dropColumn s = true := by
  obtain ⟨v, u, rest, rfl, hu, hleft, hright, v', u', rest', rfl, hu', hleft', hright', -⟩ := h
  have hlast : ∀ before : Option Char, u.getLast?.or before = u.getLast? := by
    obtain ⟨c, hc, -⟩ := hu.last
    intro before
    rw [hc, Option.some_or]
  have hdrop : Takes (all (edge :: (phrase ["drop", "column"] ++ [edge])))
      (v'.getLast?.or (u.getLast?.or (v.getLast?.or none))) u' rest' := by
    rw [hlast]
    exact Takes.all_look (edge_before hleft' hu') (takes_phrase_edge hu' hright')
  have hbetween : Takes (all (edge :: star true (one fun _ => true) :: edge ::
      (phrase ["drop", "column"] ++ [edge]))) (u.getLast?.or (v.getLast?.or none)) (v' ++ u') rest' := by
    refine Takes.all_look ?_ (Takes.all_cons (Takes.star fun _ _ => rfl) hdrop)
    rw [List.append_assoc]
    exact edge_behind hu hright
  have halter : Takes dropColumn (v.getLast?.or none) (u ++ (v' ++ u')) rest' := by
    refine Takes.all_look ?_ (@takes_phrase _ _ _ _ ["alter", "table"] _ hu hbetween)
    rw [List.append_assoc]
    exact edge_before hleft hu
  have hfound := halter.isSome_search
  rwa [List.append_assoc, List.append_assoc] at hfound

/-- What is dropped is one of the alternatives. -/
theorem takes_object {object : List String} (hobject : object ∈ droppedObjects) (hu : Spells object u) :
    Takes (any objects) before u rest := by
  have hword : ∀ {word : String}, spelled word ∈ objects → Spells [word] u →
      Takes (any objects) before u rest := by
    intro word hmem hu
    cases hu with
    | word hword hu => exact Takes.any hmem (takes_spelled hu)
    | more hword hu hne hg hv => cases hv
  simp only [droppedObjects, List.mem_cons, List.not_mem_nil, or_false] at hobject
  rcases hobject with rfl | rfl | rfl | rfl | rfl | rfl
  · exact hword (by simp [objects]) hu
  · exact hword (by simp [objects]) hu
  · have hview := @takes_phrase before u [] rest _ [] hu Takes.all_nil
    rw [List.append_nil, List.append_nil] at hview
    have hmem : all (phrase ["materialized", "view"]) ∈ objects := by simp [objects, phrase]
    exact Takes.any hmem hview
  · exact hword (by simp [objects]) hu
  · exact hword (by simp [objects]) hu
  · exact hword (by simp [objects]) hu

theorem test_dropStatement {object : List String} (hobject : object ∈ droppedObjects)
    (h : Stands wordChar ["drop" :: object] none s) : test dropStatement s = true := by
  obtain ⟨v, u, rest, rfl, hu, hleft, hright, -⟩ := h
  have hedge := @edge_before (v.getLast?.or none) u rest _ hleft hu
  cases hu with
  | word hword hu => exact absurd hobject (by decide)
  | @more _ _ u₁ g u₂ hword hu hne hg hv =>
    have hobjectEdge : ∀ before, Takes (all [any objects, edge]) before u₂ rest := by
      intro before
      have h : Takes (all [any objects, edge]) before (u₂ ++ []) rest :=
        Takes.all_cons (takes_object hobject hv) (Takes.all_look (edge_behind hv hright) Takes.all_nil)
      rwa [List.append_nil] at h
    have hopt : ∀ before, Takes (all [opt (all [spelled "if", blanks, spelled "exists", blanks]),
        any objects, edge]) before u₂ rest :=
      fun before => @Takes.all_cons _ _ before [] u₂ rest _ (Takes.right Takes.nothing) (hobjectEdge _)
    exact Takes.isSome_search (Takes.all_look hedge
      (Takes.all_cons (takes_spelled hu) (Takes.all_cons (Takes.plus hne hg) (hopt _))))

/-- Letters without another spelling are spelled by themselves. -/
theorem lowered_of_folded {ps : List Char} (hps : ps.all (fun p => p != 's' && p != 'k') = true)
    (h : List.Forall₂ (fun p c => foldedLetter p c = true) ps u) : lowered u = ps := by
  induction h with
  | nil => rfl
  | @cons p c ps u hc _ ih =>
    rw [List.all_cons, Bool.and_eq_true, Bool.and_eq_true, bne_iff_ne, bne_iff_ne] at hps
    simp only [foldedLetter, beq_false_of_ne hps.1.1, beq_false_of_ne hps.1.2, Bool.false_and,
      Bool.or_false, beq_iff_eq] at hc
    rw [lowered, List.map_cons, hc, ← lowered, ih hps.2]

/-- The word `WHERE` is found only where it stands. -/
theorem stands_of_test_whereWord (h : test whereWord s = true) : Stands wordChar [["where"]] none s := by
  obtain ⟨v, w, rfl, hways⟩ := isSome_search_iff.mp h
  obtain ⟨q, hq⟩ := List.exists_mem_of_ne_nil _ hways
  obtain ⟨p, hp, hq⟩ := List.mem_flatMap.mp hq
  obtain ⟨o, ho, hq⟩ := List.mem_flatMap.mp hq
  obtain ⟨q', hq', -⟩ := List.mem_flatMap.mp hq
  obtain ⟨hbefore, rfl⟩ := of_way_look hp
  obtain ⟨hbehind, -⟩ := of_way_look hq'
  obtain ⟨u, hw, hlast, hall⟩ := forall₂_of_way ho
  obtain rfl : w = u ++ o.rest := hw
  rw [List.forall₂_map_left_iff] at hall
  have hu : Spells ["where"] u := Spells.word (by decide) (lowered_of_folded (by decide) hall)
  refine ⟨v, u, o.rest, rfl, hu, ?_, ?_, trivial⟩
  · obtain ⟨c, r, rfl, hc⟩ := hu.head
    intro d hd
    rw [Option.mem_def.mp hd, List.cons_append, List.head?_cons, Option.any_some, Option.any_some,
      wordChar_of_isAlpha hc, bne_iff_ne] at hbefore
    exact Bool.eq_false_of_not_eq_true hbefore
  · obtain ⟨c, hc, halpha⟩ := hu.last
    intro d hd
    rw [hlast, hc, Option.some_or, Option.mem_def.mp hd, Option.any_some, Option.any_some,
      wordChar_of_isAlpha halpha, bne_iff_ne] at hbehind
    exact Bool.eq_false_of_not_eq_true fun h => hbehind h.symm

/-! ### Evident statements are found -/

theorem isSome_finding_iff {piece : List Char} : (finding piece).isSome = true ↔
    test dropColumn (normalized piece) = true ∨ test dropStatement (normalized piece) = true ∨
      test truncate (normalized piece) = true ∨
      (test deleteFrom (normalized piece) = true ∧ test whereWord (normalized piece) = false) := by
  rw [finding]
  split
  · next h => exact iff_of_true rfl (Or.inl h)
  · next hcolumn =>
    rw [or_iff_right hcolumn]
    split
    · next h => exact iff_of_true rfl (Or.inl h)
    · next hstatement =>
      rw [or_iff_right hstatement]
      split
      · next h => exact iff_of_true rfl (Or.inl h)
      · next htruncate =>
        rw [or_iff_right htruncate, ← Bool.not_eq_true', ← Bool.and_eq_true]
        split
        · next h => exact iff_of_true rfl h
        · next h => exact iff_of_false (fun hsome => nomatch hsome) h

/-- **What stands in a statement of a plain piece stands in what is searched.** -/
theorem stands_normalized {piece statement : List Char} (hplain : plain (.code []) piece = true)
    (hmem : statement ∈ statements piece) (h : Stands identChar phrases none statement) :
    Stands wordChar phrases none (normalized piece) := by
  rw [normalized, strip_eq_blanked hplain]
  have hblanked := (stands_blanked hmem h).mono identChar_of_wordChar
  exact hblanked.collapse.trim

/-- A piece without the word `WHERE` is searched as one. -/
theorem test_whereWord_normalized {piece : List Char} (hplain : plain (.code []) piece = true)
    (h : test whereWord (blanked piece) = false) : test whereWord (normalized piece) = false := by
  by_contra hne
  have hstands := stands_of_test_whereWord (Bool.eq_true_of_not_eq_false hne)
  rw [normalized, strip_eq_blanked hplain] at hstands
  have hfound : test whereWord (blanked piece) = true := @test_of_stands _ ["where"] hstands.of_trim.of_collapse
  rw [h] at hfound
  cases hfound

theorem isSome_finding_of_evident {piece : List Char} (h : evident piece = true) :
    (finding piece).isSome = true := by
  rw [evident, Bool.and_eq_true, List.any_eq_true] at h
  obtain ⟨hplain, statement, hmem, hevident⟩ := h
  rw [evidentStatement, Bool.or_eq_true, Bool.or_eq_true, Bool.or_eq_true, Bool.and_eq_true,
    Bool.not_eq_true'] at hevident
  rw [isSome_finding_iff]
  rcases hevident with ((hdrops | halters) | htruncates) | ⟨hdeletes, hwhere⟩
  · obtain ⟨object, hobject, hbegins⟩ := List.any_eq_true.mp hdrops
    have hkeywords : ∀ word ∈ "drop" :: object, keyword word = true := by
      have hall : (droppedObjects.all fun object => ("drop" :: object).all keyword) = true := by decide
      exact List.all_eq_true.mp (List.all_eq_true.mp hall object hobject)
    have hstands := stands_of_beginsWith hkeywords (List.cons_ne_nil _ _) (List.nil_append _).symm hbegins
    exact Or.inr (Or.inl (test_dropStatement hobject (stands_normalized hplain hmem hstands)))
  · have hstands := stands_of_altersTable halters
    exact Or.inl (test_dropColumn (stands_normalized hplain hmem hstands))
  · have hstands := stands_of_beginsWith (by decide) (List.cons_ne_nil _ _) (List.nil_append _).symm htruncates
    exact Or.inr (Or.inr (Or.inl (@test_of_stands _ ["truncate"] (stands_normalized hplain hmem hstands))))
  · obtain ⟨ts₁, ts₂, hts, hbegins⟩ := exists_of_deletes hdeletes
    have hstands := stands_of_beginsWith (by decide) (List.cons_ne_nil _ _) hts hbegins
    exact Or.inr (Or.inr (Or.inr
      ⟨@test_of_stands _ ["delete", "from"] (stands_normalized hplain hmem hstands),
        test_whereWord_normalized hplain hwhere⟩))

/-- A failed check fails the preflight. -/
theorem passes_of_failed {check : PreflightCheck} {checks : List PreflightCheck} {databaseOk : Bool}
    (hmem : check ∈ checks) (hok : check.ok = false) (hseverity : check.severity = "error") :
    passes checks databaseOk = false := by
  have hfailed : check ∈ failedChecks checks :=
    List.mem_filter.mpr ⟨hmem, by rw [hok, hseverity]; rfl⟩
  rw [passes, List.isEmpty_eq_false_iff.mpr (List.ne_nil_of_mem hfailed), Bool.false_and]

/-- With a finding, the check of the migrations fails for every other override. -/
theorem destructiveCheck_ok {target : String} {allow : Option String} {migrations : List (String × String)}
    {file sql : String} (hmem : (file, sql) ∈ migrations) (hfound : findDestructiveStatements sql ≠ [])
    (hallow : allow ≠ some target) : (destructiveCheck target allow migrations).ok = false := by
  obtain ⟨found, hfound⟩ := List.exists_mem_of_ne_nil _ hfound
  have hne : (migrations.flatMap fun (file, sql) =>
      (findDestructiveStatements sql).map fun finding => file ++ " (" ++ finding ++ ")") ≠ [] :=
    List.ne_nil_of_mem (List.mem_flatMap.mpr ⟨_, hmem, List.mem_map_of_mem hfound⟩)
  rw [destructiveCheck, resultCheck]
  dsimp only
  rw [List.isEmpty_eq_false_iff.mpr hne, Bool.false_or, beq_eq_false_iff_ne]
  exact hallow

example : ¬ Upholds "DELETE FROM a; SELECT 1 FROM b WHERE c;" :=
  fun h => (h (by decide +kernel)).1 (by decide +kernel)

example : ¬ Upholds "ALTER TABLE a DROP b;" :=
  fun h => (h (by decide +kernel)).1 (by decide +kernel)

end Migrations
end AiSaas
