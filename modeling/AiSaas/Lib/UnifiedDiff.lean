import Mathlib.Data.List.Basic
import Mathlib.Data.Nat.Notation
import Mathlib.Tactic.Common

/-!
# Unified diffs

A unified diff is written from two lists of lines and groups of opcodes, as `difflib` does,
and read line by line: the header of a hunk says how many old and new lines it has, and each
of its lines is kept, taken away or added.

## Main definitions

* `lfLines` — the lines of a text, each with its line feed.
* `Opcode`, `Aligned` — groups of opcodes that lead from one list of lines to another.
* `unifiedDiff` — the lines of a diff.
* `Patching`, `readLine`, `applyPatch` — the reading of a diff.

## Main results

* `lfLines_flatten` — lines that end in a line feed are read as they were written.
* `readHeader_header` — the header of a hunk is read as it was written.
* `applyPatch_unifiedDiff` — **a diff of aligned lists of such lines leads from the one text to
  the other**.
-/

namespace UnifiedDiff

/-! ### Lines -/

abbrev Line := List Char

/-- The lines of a text, each with its line feed. -/
def lfLines : List Char → List Line
  | [] => []
  | c :: s =>
    if c = '\n' then ['\n'] :: lfLines s else
      match lfLines s with
      | [] => [[c]]
      | line :: lines => (c :: line) :: lines

/-- A line that ends in its only line feed. -/
def Whole (line : Line) : Prop := ∃ u, line = u ++ ['\n'] ∧ '\n' ∉ u

/-! ### Writing -/

inductive Tag where
  | equal
  | replace
  | delete
  | insert
  deriving DecidableEq, Repr

/-- What becomes of the old lines from `i1` to `i2` and the new ones from `j1` to `j2`. -/
structure Opcode where
  tag : Tag
  i1 : ℕ
  i2 : ℕ
  j1 : ℕ
  j2 : ℕ
  deriving DecidableEq, Repr

def slice (l : List Line) (i j : ℕ) : List Line := (l.take j).drop i

def digits (n : ℕ) : List Char := Nat.toDigits 10 n

/-- `_format_range_unified` -/
def formatRange (start stop : ℕ) : List Char :=
  if stop - start = 1 then digits (start + 1)
  else if stop - start = 0 then digits start ++ ',' :: digits 0
  else digits (start + 1) ++ ',' :: digits (stop - start)

/-- The header of a hunk. -/
def header (i i' j j' : ℕ) : Line :=
  "@@ -".toList ++ (formatRange i i' ++ (" +".toList ++ (formatRange j j' ++ " @@\n".toList)))

/-- The lines of an opcode. -/
def opLines (a b : List Line) (op : Opcode) : List Line :=
  match op.tag with
  | .equal => (slice a op.i1 op.i2).map (' ' :: ·)
  | .replace => (slice a op.i1 op.i2).map ('-' :: ·) ++ (slice b op.j1 op.j2).map ('+' :: ·)
  | .delete => (slice a op.i1 op.i2).map ('-' :: ·)
  | .insert => (slice b op.j1 op.j2).map ('+' :: ·)

/-- The lines of a hunk; without opcodes there is none. -/
def hunkLines (a b : List Line) (ops : List Opcode) : List Line :=
  match ops.head?, ops.getLast? with
  | some first, some last => header first.i1 last.i2 first.j1 last.j2 :: ops.flatMap (opLines a b)
  | _, _ => []

/-- `difflib.unified_diff`, of groups of opcodes. -/
def unifiedDiff (a b : List Line) (fromFile toFile : List Char) (groups : List (List Opcode)) :
    List Line :=
  if groups.isEmpty then []
  else ("--- ".toList ++ (fromFile ++ ['\n'])) :: ("+++ ".toList ++ (toFile ++ ['\n'])) ::
    groups.flatMap (hunkLines a b)

/-- The opcode is about lines that are there, and says the truth about them. -/
structure Matches (a b : List Line) (op : Opcode) : Prop where
  old : op.i1 ≤ op.i2 ∧ op.i2 ≤ a.length
  new : op.j1 ≤ op.j2 ∧ op.j2 ≤ b.length
  equal : op.tag = .equal → slice a op.i1 op.i2 = slice b op.j1 op.j2
  delete : op.tag = .delete → op.j1 = op.j2
  insert : op.tag = .insert → op.i1 = op.i2

/-- Opcodes lead from some lines to later ones. -/
inductive Follows (a b : List Line) : ℕ → ℕ → List Opcode → ℕ → ℕ → Prop where
  | nil (i j : ℕ) : Follows a b i j [] i j
  | cons {op : Opcode} {ops : List Opcode} {i' j' : ℕ} : Matches a b op →
      Follows a b op.i2 op.j2 ops i' j' → Follows a b op.i1 op.j1 (op :: ops) i' j'

/-- Groups of opcodes lead from some lines to the ends; what they leave out is the same. -/
inductive Aligned (a b : List Line) : ℕ → ℕ → List (List Opcode) → Prop where
  | nil {i j : ℕ} : a.drop i = b.drop j → Aligned a b i j []
  | cons {i j k i' j' : ℕ} {ops : List Opcode} {groups : List (List Opcode)} : ops ≠ [] →
      i + k ≤ a.length → (a.drop i).take k = (b.drop j).take k →
      Follows a b (i + k) (j + k) ops i' j' → Aligned a b i' j' groups →
      Aligned a b i j (ops :: groups)

/-! ### Reading -/

/-- What is behind a literal. -/
def after (literal s : List Char) : Option (List Char) :=
  if literal.isPrefixOf s then some (s.drop literal.length) else none

/-- A number, and what is behind it. -/
def readNumber (s : List Char) : Option (ℕ × List Char) :=
  if (s.takeWhile Char.isDigit).isEmpty then none
  else some (Nat.ofDigitChars 10 (s.takeWhile Char.isDigit) 0, s.dropWhile Char.isDigit)

/-- A range, by its start and its length, and what is behind it. -/
def readRange (s : List Char) : Option (ℕ × ℕ × List Char) :=
  match readNumber s with
  | none => none
  | some (start, ',' :: rest) => (readNumber rest).map fun length => (start, length.1, length.2)
  | some (start, rest) => some (start, 1, rest)

/-- The old range of a hunk and the length of its new one. -/
def readHeader (line : Line) : Option (ℕ × ℕ × ℕ) :=
  (after "@@ -".toList line).bind fun s => (readRange s).bind fun old =>
    (after " +".toList old.2.2).bind fun s => (readRange s).bind fun new =>
      (after " @@".toList new.2.2).map fun _ => (old.1, old.2.1, new.2.1)

/-- Where the reading has come to: the old lines that are left, the number of those before
them, the new lines, and how many old and new lines are left of the hunk. -/
structure Patching where
  old : List Line
  place : ℕ
  out : List Line
  oldLeft : ℕ
  newLeft : ℕ

/-- The hunk of a header begins. -/
def Patching.start (p : Patching) : ℕ × ℕ × ℕ → Option Patching
  | (start, oldCount, newCount) =>
    let place := if oldCount = 0 then start else start - 1
    if p.place ≤ place ∧ place ≤ p.place + p.old.length then
      some ⟨p.old.drop (place - p.place), place, p.out ++ p.old.take (place - p.place), oldCount, newCount⟩
    else none

/-- A line is kept. -/
def Patching.keep (p : Patching) (line : Line) : Option Patching :=
  match p.old, p.oldLeft, p.newLeft with
  | l :: old, oldLeft + 1, newLeft + 1 =>
    if l = line then some ⟨old, p.place + 1, p.out ++ [line], oldLeft, newLeft⟩ else none
  | _, _, _ => none

/-- A line is taken away. -/
def Patching.drop (p : Patching) (line : Line) : Option Patching :=
  match p.old, p.oldLeft with
  | l :: old, oldLeft + 1 =>
    if l = line then some { p with old, place := p.place + 1, oldLeft } else none
  | _, _ => none

/-- A line is added. -/
def Patching.add (p : Patching) (line : Line) : Option Patching :=
  match p.newLeft with
  | newLeft + 1 => some { p with out := p.out ++ [line], newLeft }
  | 0 => none

/-- A line of a hunk. -/
def Patching.body (p : Patching) : Line → Option Patching
  | ' ' :: l => p.keep l
  | '-' :: l => p.drop l
  | '+' :: l => p.add l
  | _ => none

/-- A line of a diff is read. -/
def readLine (p : Patching) (line : Line) : Option Patching :=
  if p.oldLeft = 0 ∧ p.newLeft = 0 then (readHeader line).bind p.start else p.body line

/-- The text that a diff makes of another one. -/
def applyPatch (patch before : List Char) : Option (List Char) :=
  match lfLines patch with
  | [] => some before
  | first :: second :: lines =>
    if "--- ".toList.isPrefixOf first && "+++ ".toList.isPrefixOf second then
      (lines.foldlM readLine ⟨lfLines before, 0, [], 0, 0⟩).bind fun p =>
        if p.oldLeft = 0 ∧ p.newLeft = 0 then some (p.out ++ p.old).flatten else none
    else none
  | [_] => none

variable {a b lines rest : List Line} {line : Line} {s u v : List Char} {i j k i' j' m n : ℕ}
  {op : Opcode} {ops : List Opcode} {groups : List (List Opcode)} {p : Patching}

/-! ### Lines -/

theorem lfLines_append (h : Whole line) (s : List Char) : lfLines (line ++ s) = line :: lfLines s := by
  obtain ⟨u, rfl, hu⟩ := h
  induction u with
  | nil => rw [List.nil_append, List.singleton_append, lfLines, if_pos rfl]
  | cons c u ih =>
    have hc : c ≠ '\n' := fun heq => hu (heq ▸ List.mem_cons_self)
    have hrest := ih fun hmem => hu (List.mem_cons_of_mem c hmem)
    rw [List.cons_append, List.cons_append, lfLines, if_neg hc, hrest]

/-- **Lines that end in a line feed** are read as they were written. -/
theorem lfLines_flatten (h : ∀ line ∈ lines, Whole line) : lfLines lines.flatten = lines := by
  induction lines with
  | nil => rfl
  | cons line lines ih =>
    rw [List.flatten_cons, lfLines_append (h line List.mem_cons_self),
      ih fun l hl => h l (List.mem_cons_of_mem line hl)]

theorem Whole.append (h : Whole line) (hu : '\n' ∉ u) : Whole (u ++ line) := by
  obtain ⟨v, rfl, hv⟩ := h
  exact ⟨u ++ v, (List.append_assoc _ _ _).symm, fun hmem => (List.mem_append.mp hmem).elim hu hv⟩

/-! ### Headers -/

theorem after_append (literal s : List Char) : after literal (literal ++ s) = some s := by
  simp [after]

theorem isDigit_of_mem_digits {c : Char} (h : c ∈ digits n) : c.isDigit = true :=
  Nat.isDigit_of_mem_toDigits (by omega) (by omega) h

/-- A number is read as it was written. -/
theorem readNumber_digits (n : ℕ) (hs : ∀ c ∈ s.head?, c.isDigit = false) :
    readNumber (digits n ++ s) = some (n, s) := by
  have hall : ∀ c ∈ digits n, Char.isDigit c = true := fun c hc => isDigit_of_mem_digits hc
  have htake : s.takeWhile Char.isDigit = [] := by
    cases s with
    | nil => rfl
    | cons c s => rw [List.takeWhile_cons_of_neg (by simp [hs c rfl])]
  have hdrop : s.dropWhile Char.isDigit = s := by
    cases s with
    | nil => rfl
    | cons c s => rw [List.dropWhile_cons_of_neg (by simp [hs c rfl])]
  have hne : digits n ≠ [] := Nat.toDigits_ne_nil
  rw [readNumber, List.takeWhile_append_of_pos hall, List.dropWhile_append_of_pos hall, htake, hdrop,
    List.append_nil, if_neg (by simpa using hne), digits, Nat.ofDigitChars_ten_toDigits]

/-- **A range is read as it was written**, by its start and its length. -/
theorem readRange_formatRange (start stop : ℕ) (hs : ∀ c ∈ s.head?, c.isDigit = false ∧ c ≠ ',') :
    readRange (formatRange start stop ++ s) =
      some (if stop - start = 0 then start else start + 1, stop - start, s) := by
  have hdigit : ∀ c ∈ s.head?, c.isDigit = false := fun c hc => (hs c hc).1
  have hcomma : ∀ (t : List Char), ∀ c ∈ (',' :: t).head?, c.isDigit = false := by
    intro t c hc
    obtain rfl := Option.some.inj hc
    rfl
  rw [formatRange]
  split
  · next hone =>
    rw [hone, readRange, readNumber_digits _ hdigit, if_neg Nat.one_ne_zero]
    cases s with
    | nil => rfl
    | cons c s =>
      have hc : c ≠ ',' := (hs c rfl).2
      split
      · next heq => cases heq
      · next heq => exact absurd (List.cons.inj (Prod.mk.inj (Option.some.inj heq)).2).1 hc
      · next heq =>
        cases heq
        rfl
  · split
    · next hzero =>
      rw [List.append_assoc, List.cons_append, readRange, readNumber_digits _ (hcomma _)]
      simp only [readNumber_digits 0 hdigit, Option.map_some, hzero]
    · next hzero =>
      rw [List.append_assoc, List.cons_append, readRange, readNumber_digits _ (hcomma _)]
      simp only [readNumber_digits _ hdigit, Option.map_some]

/-- **A header is read as it was written.** -/
theorem readHeader_header (i i' j j' : ℕ) :
    readHeader (header i i' j j') = some (if i' - i = 0 then i else i + 1, i' - i, j' - j) := by
  have hplus : ∀ t : List Char, ∀ c ∈ (" +".toList ++ t).head?, c.isDigit = false ∧ c ≠ ',' := by
    intro t c hc
    obtain rfl := Option.some.inj hc
    decide
  have hend : ∀ c ∈ " @@\n".toList.head?, c.isDigit = false ∧ c ≠ ',' := by
    intro c hc
    obtain rfl := Option.some.inj hc
    decide
  rw [readHeader, header, after_append, Option.bind_some, readRange_formatRange _ _ (hplus _),
    Option.bind_some, after_append, Option.bind_some, readRange_formatRange _ _ hend, Option.bind_some]
  rfl

/-! ### Hunks -/

theorem length_slice (h : j ≤ a.length) : (slice a i j).length = j - i := by
  rw [slice, List.length_drop, List.length_take, Nat.min_eq_left h]

/-- What is there is a slice and what comes behind it. -/
theorem drop_eq_slice (h : i ≤ j) : a.drop i = slice a i j ++ a.drop j := by
  have hdrop : a.drop j = (a.drop i).drop (j - i) := by rw [List.drop_drop, Nat.add_sub_cancel' h]
  rw [slice, List.drop_take, hdrop, List.take_append_drop]

theorem take_eq_slice (h : i ≤ j) : b.take j = b.take i ++ slice b i j := by
  have htake : b.take i = (b.take j).take i := by rw [List.take_take, Nat.min_eq_left h]
  rw [slice, htake, List.take_append_drop]

/-- Lines that are kept. -/
theorem foldlM_keep (ls old out : List Line) (place m n : ℕ) :
    (ls.map (' ' :: ·)).foldlM readLine ⟨ls ++ old, place, out, ls.length + m, ls.length + n⟩ =
      some ⟨old, place + ls.length, out ++ ls, m, n⟩ := by
  induction ls generalizing place out with
  | nil => simp
  | cons l ls ih =>
    have hm : (l :: ls).length + m = ls.length + m + 1 := by rw [List.length_cons]; omega
    have hn : (l :: ls).length + n = ls.length + n + 1 := by rw [List.length_cons]; omega
    have hplace : place + (l :: ls).length = place + 1 + ls.length := by rw [List.length_cons]; omega
    have hread : readLine ⟨l :: ls ++ old, place, out, ls.length + m + 1, ls.length + n + 1⟩ (' ' :: l) =
        some ⟨ls ++ old, place + 1, out ++ [l], ls.length + m, ls.length + n⟩ := by
      rw [readLine, if_neg (by simp), List.cons_append]
      exact if_pos rfl
    rw [hm, hn, hplace, List.map_cons, List.foldlM_cons, hread]
    refine (ih (out ++ [l]) (place + 1)).trans ?_
    rw [List.append_assoc, List.singleton_append]

/-- Lines that are taken away. -/
theorem foldlM_drop (ls old out : List Line) (place m n : ℕ) :
    (ls.map ('-' :: ·)).foldlM readLine ⟨ls ++ old, place, out, ls.length + m, n⟩ =
      some ⟨old, place + ls.length, out, m, n⟩ := by
  induction ls generalizing place with
  | nil => simp
  | cons l ls ih =>
    have hm : (l :: ls).length + m = ls.length + m + 1 := by rw [List.length_cons]; omega
    have hplace : place + (l :: ls).length = place + 1 + ls.length := by rw [List.length_cons]; omega
    have hread : readLine ⟨l :: ls ++ old, place, out, ls.length + m + 1, n⟩ ('-' :: l) =
        some ⟨ls ++ old, place + 1, out, ls.length + m, n⟩ := by
      rw [readLine, if_neg (by simp), List.cons_append]
      exact if_pos rfl
    rw [hm, hplace, List.map_cons, List.foldlM_cons, hread]
    exact ih (place + 1)

/-- Lines that are added. -/
theorem foldlM_add (ls old out : List Line) (place m n : ℕ) :
    (ls.map ('+' :: ·)).foldlM readLine ⟨old, place, out, m, ls.length + n⟩ =
      some ⟨old, place, out ++ ls, m, n⟩ := by
  induction ls generalizing out with
  | nil => simp
  | cons l ls ih =>
    have hn : (l :: ls).length + n = ls.length + n + 1 := by rw [List.length_cons]; omega
    have hread : readLine ⟨old, place, out, m, ls.length + n + 1⟩ ('+' :: l) =
        some ⟨old, place, out ++ [l], m, ls.length + n⟩ := by
      rw [readLine, if_neg (by simp)]
      rfl
    rw [hn, List.map_cons, List.foldlM_cons, hread]
    refine (ih (out ++ [l])).trans ?_
    rw [List.append_assoc, List.singleton_append]

/-- The reading at some lines of both texts, with so many left of the hunk. -/
def at' (a b : List Line) (i j m n : ℕ) : Patching := ⟨a.drop i, i, b.take j, m, n⟩

/-- **An opcode is read as it was written.** -/
theorem foldlM_opLines (h : Matches a b op) (m n : ℕ) :
    (opLines a b op).foldlM readLine (at' a b op.i1 op.j1 (op.i2 - op.i1 + m) (op.j2 - op.j1 + n)) =
      some (at' a b op.i2 op.j2 m n) := by
  have hold := length_slice (a := a) (i := op.i1) h.old.2
  have hnew := length_slice (a := b) (i := op.j1) h.new.2
  have hplace : op.i1 + (slice a op.i1 op.i2).length = op.i2 := by rw [hold]; have := h.old.1; omega
  rw [at', at', drop_eq_slice h.old.1, take_eq_slice h.new.1, ← hold, ← hnew, opLines]
  cases htag : op.tag with
  | equal =>
    have hsame := h.equal htag
    dsimp only
    rw [← hsame, foldlM_keep, hplace]
  | replace =>
    dsimp only
    rw [List.foldlM_append, foldlM_drop, hplace]
    exact foldlM_add _ _ _ _ _ _
  | delete =>
    have hnone : slice b op.j1 op.j2 = [] := by
      rw [← List.length_eq_zero_iff, hnew, h.delete htag, Nat.sub_self]
    dsimp only
    rw [hnone, foldlM_drop, hplace, List.length_nil, Nat.zero_add, List.append_nil]
  | insert =>
    have hnone : slice a op.i1 op.i2 = [] := by
      rw [← List.length_eq_zero_iff, hold, h.insert htag, Nat.sub_self]
    dsimp only
    rw [hnone, List.length_nil, Nat.zero_add, List.nil_append, foldlM_add, h.insert htag]

theorem Follows.le (h : Follows a b i j ops i' j') : i ≤ i' ∧ j ≤ j' := by
  induction h with
  | nil i j => exact ⟨Nat.le_refl i, Nat.le_refl j⟩
  | cons hop _ ih => exact ⟨Nat.le_trans hop.old.1 ih.1, Nat.le_trans hop.new.1 ih.2⟩

/-- The opcodes of a hunk are read as they were written. -/
theorem foldlM_ops (h : Follows a b i j ops i' j') :
    (ops.flatMap (opLines a b)).foldlM readLine (at' a b i j (i' - i) (j' - j)) =
      some (at' a b i' j' 0 0) := by
  induction h with
  | nil i j => rw [Nat.sub_self, Nat.sub_self]; rfl
  | @cons op ops i' j' hop hrest ih =>
    have hle := hrest.le
    have hi : i' - op.i1 = op.i2 - op.i1 + (i' - op.i2) := by have := hop.old.1; omega
    have hj : j' - op.j1 = op.j2 - op.j1 + (j' - op.j2) := by have := hop.new.1; omega
    rw [List.flatMap_cons, List.foldlM_append, hi, hj, foldlM_opLines hop]
    exact ih

theorem Follows.eq_of_nil (h : Follows a b i j ops i' j') (hops : ops = []) : i = i' ∧ j = j' := by
  cases h with
  | nil => exact ⟨rfl, rfl⟩
  | cons => cases hops

/-- The opcodes of a hunk begin and end where it does. -/
theorem Follows.ends (h : Follows a b i j ops i' j') (hne : ops ≠ []) :
    ∃ first last, ops.head? = some first ∧ ops.getLast? = some last ∧ first.i1 = i ∧ first.j1 = j ∧
      last.i2 = i' ∧ last.j2 = j' := by
  induction h with
  | nil i j => exact absurd rfl hne
  | @cons op ops i' j' hop hrest ih =>
    cases ops with
    | nil =>
      obtain ⟨hi, hj⟩ := hrest.eq_of_nil rfl
      exact ⟨op, op, rfl, rfl, rfl, rfl, hi, hj⟩
    | cons op' ops =>
      obtain ⟨first, last, -, hlast, -, -, hi, hj⟩ := ih (List.cons_ne_nil _ _)
      exact ⟨op, last, rfl, by rw [List.getLast?_cons_cons, hlast], rfl, rfl, hi, hj⟩

/-- **A hunk is read as it was written**, behind lines that are the same. -/
theorem foldlM_hunkLines (hne : ops ≠ []) (hk : i + k ≤ a.length)
    (hsame : (a.drop i).take k = (b.drop j).take k) (h : Follows a b (i + k) (j + k) ops i' j') :
    (hunkLines a b ops).foldlM readLine (at' a b i j 0 0) = some (at' a b i' j' 0 0) := by
  obtain ⟨first, last, hfirst, hlast, hi, hj, hi', hj'⟩ := h.ends hne
  have hle := h.le
  have hplace : (if i' - (i + k) = 0 then (if i' - (i + k) = 0 then i + k else i + k + 1)
      else (if i' - (i + k) = 0 then i + k else i + k + 1) - 1) = i + k := by
    split <;> simp_all
  have hstart : readLine (at' a b i j 0 0) (header (i + k) i' (j + k) j') =
      some (at' a b (i + k) (j + k) (i' - (i + k)) (j' - (j + k))) := by
    rw [readLine, if_pos ⟨rfl, rfl⟩, readHeader_header, Option.bind_some, Patching.start]
    simp only [hplace, at', List.length_drop]
    rw [if_pos (by omega), Nat.add_sub_cancel_left, List.drop_drop, hsame, ← List.take_add]
  rw [hunkLines, hfirst, hlast]
  dsimp only
  rw [hi, hj, hi', hj', List.foldlM_cons, hstart]
  exact foldlM_ops h

/-- The hunks are read as they were written. -/
theorem foldlM_groups (h : Aligned a b i j groups) :
    ∃ i' j', (groups.flatMap (hunkLines a b)).foldlM readLine (at' a b i j 0 0) =
      some (at' a b i' j' 0 0) ∧ a.drop i' = b.drop j' := by
  induction h with
  | @nil i j hsame => exact ⟨i, j, rfl, hsame⟩
  | cons hne hk hsame hfollows _ ih =>
    obtain ⟨i', j', hread, hrest⟩ := ih
    refine ⟨i', j', ?_, hrest⟩
    rw [List.flatMap_cons, List.foldlM_append, foldlM_hunkLines hne hk hsame hfollows]
    exact hread

/-! ### Diffs -/

theorem Whole.slice (h : ∀ line ∈ a, Whole line) : ∀ line ∈ slice a i j, Whole line := fun line hline =>
  h line (List.mem_of_mem_take (List.mem_of_mem_drop hline))

theorem Whole.map {c : Char} (hc : c ≠ '\n') (h : ∀ line ∈ lines, Whole line) :
    ∀ line ∈ lines.map (c :: ·), Whole line := by
  intro line hline
  obtain ⟨l, hl, rfl⟩ := List.mem_map.mp hline
  exact (h l hl).append (u := [c]) fun hmem => hc (List.mem_singleton.mp hmem).symm

theorem whole_opLines (ha : ∀ line ∈ a, Whole line) (hb : ∀ line ∈ b, Whole line) :
    ∀ line ∈ opLines a b op, Whole line := by
  intro line hline
  rw [opLines] at hline
  split at hline
  · exact Whole.map (by decide) (Whole.slice ha) line hline
  · rcases List.mem_append.mp hline with hline | hline
    · exact Whole.map (by decide) (Whole.slice ha) line hline
    · exact Whole.map (by decide) (Whole.slice hb) line hline
  · exact Whole.map (by decide) (Whole.slice ha) line hline
  · exact Whole.map (by decide) (Whole.slice hb) line hline

theorem not_mem_formatRange (i j : ℕ) : '\n' ∉ formatRange i j := by
  have hdigits : ∀ n, '\n' ∉ digits n := fun n hmem => absurd (isDigit_of_mem_digits hmem) (by decide)
  rw [formatRange]
  split
  · exact hdigits _
  · split <;> simp [hdigits]

theorem whole_header (i i' j j' : ℕ) : Whole (header i i' j j') := by
  have hend : Whole " @@\n".toList := ⟨" @@".toList, rfl, by decide⟩
  exact (((hend.append (not_mem_formatRange j j')).append (by decide)).append
    (not_mem_formatRange i i')).append (by decide)

theorem whole_hunkLines (ha : ∀ line ∈ a, Whole line) (hb : ∀ line ∈ b, Whole line) :
    ∀ line ∈ hunkLines a b ops, Whole line := by
  intro line hline
  rw [hunkLines] at hline
  split at hline
  · rcases List.mem_cons.mp hline with rfl | hline
    · exact whole_header _ _ _ _
    · obtain ⟨op, -, hop⟩ := List.mem_flatMap.mp hline
      exact whole_opLines ha hb line hop
  · cases hline

/-- **A diff of aligned lists of lines leads from the one text to the other**, where each of
the lines ends in its only line feed, and the names of the files have none. -/
theorem applyPatch_unifiedDiff {fromFile toFile : List Char} (h : Aligned a b 0 0 groups)
    (ha : ∀ line ∈ a, Whole line) (hb : ∀ line ∈ b, Whole line) (hfrom : '\n' ∉ fromFile)
    (hto : '\n' ∉ toFile) :
    applyPatch (unifiedDiff a b fromFile toFile groups).flatten a.flatten = some b.flatten := by
  have hend : Whole ['\n'] := ⟨[], rfl, List.not_mem_nil⟩
  have hwhole : ∀ line ∈ unifiedDiff a b fromFile toFile groups, Whole line := by
    intro line hline
    rw [unifiedDiff] at hline
    split at hline
    · cases hline
    · rcases List.mem_cons.mp hline with rfl | hline
      · exact (hend.append hfrom).append (by decide)
      · rcases List.mem_cons.mp hline with rfl | hline
        · exact (hend.append hto).append (by decide)
        · obtain ⟨ops, -, hops⟩ := List.mem_flatMap.mp hline
          exact whole_hunkLines ha hb line hops
  rw [applyPatch, lfLines_flatten hwhole, unifiedDiff]
  cases groups with
  | nil =>
    cases h with
    | nil hsame =>
      rw [List.drop_zero, List.drop_zero] at hsame
      rw [hsame]
      rfl
  | cons ops groups =>
    obtain ⟨i', j', hread, hrest⟩ := foldlM_groups h
    rw [if_neg (by simp)]
    dsimp only
    rw [if_pos (by simp), lfLines_flatten ha]
    have hstart : (⟨a, 0, [], 0, 0⟩ : Patching) = at' a b 0 0 0 0 := rfl
    rw [hstart, hread, Option.bind_some]
    refine (if_pos ⟨rfl, rfl⟩).trans ?_
    rw [at', hrest, List.take_append_drop]

end UnifiedDiff
