import AiSaas.Lib.Greedy
import AiSaas.Lines
import AiSaas.Re
import Mathlib.Data.List.Chain

/-!
# Documents of text

`parse_document` and `_parse_text` of `document_parser.py`.  The parsers of HTML and PDF and
the decoding of UTF-8 are parameters.

## Main definitions

* `words`, `joined`, `respaced` — `split`, `" ".join` and both.
* `DocumentSection`, `ProposalDocument` — what is parsed.
* `parseText`, `parseDocument` — the functions.
* `blocks`, `blockText` — the lines between headings, and their text.
* `Tidy` — a text with single blanks between its words.

## Main results

* `texts_parseText` — the sections' texts are those of the blocks that are not blank.
* `tidy_blockText` — they are tidy.
-/

namespace AiSaas
namespace Documents

open Backtracking Regex

/-! ### Words -/

/-- `s.split()` -/
def words (s : List Char) : List (List Char) := (s.splitOnP isSpace).filter fun w => !w.isEmpty

/-- `" ".join(ws)` -/
def joined (ws : List (List Char)) : List Char := [' '].intercalate ws

/-- `" ".join(s.split())` -/
def respaced (s : List Char) : List Char := joined (words s)

/-! ### Documents -/

structure DocumentSection where
  title : List Char
  text : List Char
  source : String

structure ProposalDocument where
  name : String
  mediaType : String
  sections : List DocumentSection

/-- The interpreter, with the parsers of the other formats. -/
structure DocumentHost where
  /-- `data.decode("utf-8", errors="replace")` -/
  decode : List UInt8 → List Char
  /-- `s.lower()` -/
  lower : List Char → List Char
  /-- `str.isalnum` beyond ASCII. -/
  alnum : Char → Bool
  parseHtml : List UInt8 → Except String (List DocumentSection)
  parsePdf : List UInt8 → Except String (List DocumentSection)

/-- `.` -/
def dot : Regex Char := one (· != '\n')

/-- `^\s{0,3}#{1,6}\s+(.+?)\s*$` of a text without a line break. -/
def headingPattern : Regex Char := all [look fun before _ => before.isNone, upTo 3 Re.space,
  one (· == '#'), upTo 5 (one (· == '#')), plus Re.space, group "1" (seq dot (star false dot)),
  star true Re.space, look fun _ behind => behind.isNone]

/-- `text.strip()` -/
def stripped (s : List Char) : List Char :=
  ((s.dropWhile isSpace).reverse.dropWhile isSpace).reverse

/-- The heading of a line. -/
def headingOf (line : List Char) : Option (List Char) :=
  (matchAt headingPattern none line).map fun m =>
    let title := stripped ((m.group? "1").getD [])
    if title.isEmpty then "Untitled section".toList else title

/-- What the parser has read. -/
structure Reading where
  sections : List DocumentSection
  heading : List Char
  current : List (List Char)

/-- The text of some lines. -/
def content (lines : List (List Char)) : List Char := respaced (joined lines)

/-- The sections, with the one that is being read. -/
def flush (source : String) (r : Reading) : List DocumentSection :=
  if (content r.current).isEmpty then r.sections
  else r.sections ++ [⟨r.heading.take 180, (content r.current).take 12000, source⟩]

/-- A line is read. -/
def readLine (source : String) (r : Reading) (line : List Char) : Reading :=
  match headingOf line with
  | some heading => ⟨flush source r, heading, []⟩
  | none => { r with current := r.current ++ [line] }

/-- `_parse_text`, of a decoded text. -/
def parseText (source : String) (text : List Char) : List DocumentSection :=
  flush source ((splitChars text).foldl (readLine source) ⟨[], "Document".toList, []⟩)

/-- `Path(name).name` -/
def fileName (name : String) : List Char :=
  ((name.toList.splitOn '/').filter fun part => part ≠ [] && part ≠ ['.']).getLast?.getD []

/-- `suffix` of a file name. -/
def suffix (name : List Char) : List Char :=
  let ending := (name.reverse.takeWhile (· != '.')).reverse
  if name.contains '.' && !ending.isEmpty && decide (ending.length + 1 < name.length) then '.' :: ending
  else []

/-- What is raised about a format that is not known. -/
def formatMessage : String := "proposal must be an HTML, Markdown, PDF, or text file"

/-- The media type of a suffix and the sections of the data. -/
def parseAs (host : DocumentHost) (ending : String) (data : List UInt8) :
    Except String (String × List DocumentSection) :=
  if ending ∈ [".html", ".htm"] then (host.parseHtml data).map fun sections => ("text/html", sections)
  else if ending ∈ [".md", ".markdown"] then
    .ok ("text/markdown", parseText "markdown" (host.decode data))
  else if ending ∈ [".txt", ".text"] then .ok ("text/plain", parseText "text" (host.decode data))
  else if ending = ".pdf" then (host.parsePdf data).map fun sections => ("application/pdf", sections)
  else .error formatMessage

/-- The default of `max_bytes`. -/
def maxBytes : ℕ := 12 * 1024 * 1024

/-- `parse_document` -/
def parseDocument (host : DocumentHost) (name : String) (data : List UInt8) (most : ℕ) :
    Except String ProposalDocument :=
  if name.isEmpty || data.isEmpty || decide (most < data.length) then
    .error "proposal file is empty or too large"
  else
    match parseAs host (String.ofList (host.lower (suffix (fileName name)))) data with
    | .error message => .error message
    | .ok (mediaType, sections) =>
      if sections.isEmpty then .error "proposal contains no extractable text"
      else .ok ⟨name, mediaType, sections⟩

/-! ### Blocks -/

/-- The lines between headings. -/
def blocks : List (List Char) → List (List (List Char))
  | [] => [[]]
  | line :: lines =>
    match (headingOf line).isSome, blocks lines with
    | true, rest => [] :: rest
    | false, block :: rest => (line :: block) :: rest
    | false, [] => [[line]]

/-- The text of a block. -/
def blockText (block : List (List Char)) : List Char := (content block).take 12000

/-- A text with single blanks between its words. -/
structure Tidy (s : List Char) : Prop where
  blanks : ∀ c ∈ s, isSpace c = true → c = ' '
  first : ∀ c ∈ s.head?, isSpace c = false
  single : s.IsChain fun a b => isSpace a = true → isSpace b = false

variable {s u v w : List Char} {ws lines block : List (List Char)} {line : List Char} {source : String}

/-! ### Tidy texts -/

theorem Tidy.initial (h : Tidy s) (hu : u <+: s) : Tidy u where
  blanks c hc := h.blanks c (hu.subset hc)
  first c hc := by
    obtain ⟨v, rfl⟩ := hu
    cases u with
    | nil => cases hc
    | cons x u => exact h.first c hc
  single := List.IsChain.prefix h.single hu

theorem Tidy.not_mem (h : Tidy s) : '\n' ∉ s := fun hmem =>
  absurd (h.blanks '\n' hmem (by decide)) (by decide)

/-- Behind a blank comes no other one. -/
theorem Tidy.of_blank {c : Char} (h : Tidy s) (hs : u ++ c :: v = s) (hc : isSpace c = true) :
    ∀ x ∈ v.head?, isSpace x = false := by
  intro x hx
  cases v with
  | nil => cases hx
  | cons y v =>
    obtain rfl := Option.some.inj hx
    have hchain := (List.isChain_append.mp (hs ▸ h.single)).2.1
    exact (List.isChain_cons_cons.mp hchain).1 hc

theorem isSpace_of_mem_words (h : w ∈ words s) : w ≠ [] ∧ ∀ c ∈ w, isSpace c = false := by
  obtain ⟨hmem, hne⟩ := List.mem_filter.mp h
  refine ⟨by simpa using hne, ?_⟩
  clear h hne
  induction s generalizing w with
  | nil =>
    obtain rfl := List.mem_singleton.mp hmem
    exact fun c hc => nomatch hc
  | cons x s ih =>
    rw [List.splitOnP_cons_eq_if_modifyHead] at hmem
    split at hmem
    · rcases List.mem_cons.mp hmem with rfl | hmem
      · exact fun c hc => nomatch hc
      · exact ih hmem
    · next hx =>
      cases hlines : s.splitOnP isSpace with
      | nil => exact absurd hlines (List.splitOnP_ne_nil _ _)
      | cons first rest =>
        rw [hlines, List.modifyHead_cons] at hmem
        rw [hlines] at ih
        rcases List.mem_cons.mp hmem with rfl | hmem
        · intro c hc
          rcases List.mem_cons.mp hc with rfl | hc
          · simpa using hx
          · exact ih List.mem_cons_self c hc
        · exact ih (List.mem_cons_of_mem _ hmem)

theorem tidy_joined (h : ∀ w ∈ ws, w ≠ [] ∧ ∀ c ∈ w, isSpace c = false) : Tidy (joined ws) := by
  induction ws with
  | nil => exact ⟨fun c hc => absurd hc List.not_mem_nil, fun c hc => absurd hc (by simp [joined]),
      List.IsChain.nil⟩
  | cons w ws ih =>
    obtain ⟨hne, hw⟩ := h w List.mem_cons_self
    have hws := ih fun w hw => h w (List.mem_cons_of_mem _ hw)
    have hchain : w.IsChain fun a b => isSpace a = true → isSpace b = false :=
      List.Pairwise.isChain (List.pairwise_of_forall_mem_list fun a ha b _ hspace =>
        absurd hspace (by simp [hw a ha]))
    have hword : Tidy w := ⟨fun c hc hspace => absurd hspace (by simp [hw c hc]),
      fun c hc => hw c (List.mem_of_mem_head? hc), hchain⟩
    cases ws with
    | nil => rwa [joined, List.intercalate_singleton]
    | cons w' ws =>
      obtain ⟨hne', hw'⟩ := h w' (List.mem_cons_of_mem _ List.mem_cons_self)
      have heq : joined (w :: w' :: ws) = w ++ ' ' :: joined (w' :: ws) := by
        rw [joined, List.intercalate_cons_cons, List.append_assoc]
        rfl
      rw [heq]
      refine ⟨fun c hc hspace => ?_, fun c hc => ?_, ?_⟩
      · rcases List.mem_append.mp hc with hc | hc
        · exact hword.blanks c hc hspace
        · rcases List.mem_cons.mp hc with rfl | hc
          · rfl
          · exact hws.blanks c hc hspace
      · rw [List.head?_append_of_ne_nil _ hne] at hc
        exact hword.first c hc
      · refine List.isChain_append.mpr ⟨hchain, ?_, fun a ha b _ hspace => ?_⟩
        · exact List.isChain_cons.mpr ⟨fun b hb _ => hws.first b hb, hws.single⟩
        · exact absurd hspace (by simp [hw a (List.mem_of_mem_getLast? ha)])

/-- **A respaced text is tidy.** -/
theorem tidy_respaced (s : List Char) : Tidy (respaced s) := tidy_joined fun _ => isSpace_of_mem_words

theorem tidy_blockText (block : List (List Char)) : Tidy (blockText block) :=
  (tidy_respaced _).initial (List.take_prefix _ _)

/-! ### Blocks -/

/-- The sections of some blocks. -/
def texts (bs : List (List (List Char))) : List (List Char) :=
  (bs.map blockText).filter fun text => !text.isEmpty

/-- Some lines are put in front of the first block. -/
def inFront (lines : List (List Char)) : List (List (List Char)) → List (List (List Char))
  | [] => [lines]
  | block :: rest => (lines ++ block) :: rest

theorem blocks_ne_nil (lines : List (List Char)) : blocks lines ≠ [] := by
  cases lines with
  | nil => exact List.cons_ne_nil _ _
  | cons line lines =>
    unfold blocks
    split <;> exact List.cons_ne_nil _ _

theorem blocks_cons_of_heading (h : (headingOf line).isSome = true) :
    blocks (line :: lines) = [] :: blocks lines := by
  rw [blocks, h]

theorem blocks_cons (h : headingOf line = none) : blocks (line :: lines) = inFront [line] (blocks lines) := by
  cases hblocks : blocks lines with
  | nil => exact absurd hblocks (blocks_ne_nil lines)
  | cons block rest =>
    rw [blocks, h, hblocks]
    rfl

theorem flush_texts (r : Reading) :
    (flush source r).map DocumentSection.text = r.sections.map DocumentSection.text ++ texts [r.current] := by
  rw [flush, texts, List.map_singleton, blockText]
  cases hcontent : content r.current with
  | nil => simp
  | cons c rest => simp

theorem texts_cons (block : List (List Char)) (bs : List (List (List Char))) :
    texts (block :: bs) = texts [block] ++ texts bs := by
  rw [texts, texts, texts, ← List.filter_append, ← List.map_append]
  rfl

/-- **The sections' texts** are those of the blocks that are not blank. -/
theorem texts_foldl (r : Reading) :
    (flush source (lines.foldl (readLine source) r)).map DocumentSection.text =
      r.sections.map DocumentSection.text ++ texts (inFront r.current (blocks lines)) := by
  induction lines generalizing r with
  | nil =>
    rw [List.foldl_nil, flush_texts, blocks, inFront, List.append_nil]
  | cons line lines ih =>
    rw [List.foldl_cons, ih, readLine]
    cases hheading : headingOf line with
    | some heading =>
      rw [blocks_cons_of_heading (by rw [hheading]; rfl), inFront, texts_cons, List.append_nil,
        flush_texts, List.append_assoc]
      refine congrArg _ (congrArg _ (congrArg texts ?_))
      cases hblocks : blocks lines with
      | nil => exact absurd hblocks (blocks_ne_nil lines)
      | cons block rest => rfl
    | none =>
      rw [blocks_cons hheading]
      cases hblocks : blocks lines with
      | nil => exact absurd hblocks (blocks_ne_nil lines)
      | cons block rest => simp [inFront]

theorem texts_parseText (source : String) (text : List Char) :
    (parseText source text).map DocumentSection.text = texts (blocks (splitChars text)) := by
  rw [parseText, texts_foldl]
  cases hblocks : blocks (splitChars text) with
  | nil => exact absurd hblocks (blocks_ne_nil _)
  | cons block rest => rfl

/-- The formats that are texts are parsed as such. -/
theorem texts_parseAs {host : DocumentHost} {ending media : String} {data : List UInt8}
    {sections : List DocumentSection} (h : parseAs host ending data = .ok (media, sections))
    (hmedia : media ∈ ["text/markdown", "text/plain"]) :
    sections.map DocumentSection.text = texts (blocks (splitChars (host.decode data))) := by
  unfold parseAs at h
  split at h
  · cases hhtml : host.parseHtml data with
    | error message => rw [hhtml] at h; cases h
    | ok found =>
      rw [hhtml] at h
      cases h
      exact absurd hmedia (by decide)
  · split at h
    · cases h
      exact texts_parseText _ _
    · split at h
      · cases h
        exact texts_parseText _ _
      · split at h
        · cases hpdf : host.parsePdf data with
          | error message => rw [hpdf] at h; cases h
          | ok found =>
            rw [hpdf] at h
            cases h
            exact absurd hmedia (by decide)
        · cases h

/-- **The sections of Markdown or of a plain text** are its blocks that are not blank. -/
theorem texts_parseDocument {host : DocumentHost} {name : String} {data : List UInt8} {most : ℕ}
    {document : ProposalDocument} (h : parseDocument host name data most = .ok document)
    (hmedia : document.mediaType ∈ ["text/markdown", "text/plain"]) :
    document.sections.map DocumentSection.text = texts (blocks (splitChars (host.decode data))) := by
  unfold parseDocument at h
  split at h
  · cases h
  · cases hparsed : parseAs host (String.ofList (host.lower (suffix (fileName name)))) data with
    | error message => rw [hparsed] at h; cases h
    | ok found =>
      rw [hparsed] at h
      dsimp only at h
      split at h
      · cases h
      · cases h
        exact texts_parseAs hparsed hmedia

end Documents
end AiSaas
