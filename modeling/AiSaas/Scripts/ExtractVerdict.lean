import AiSaas.Lib.JsonText
import AiSaas.Lib.Transactions
import AiSaas.Lines
import AiSaas.Re

/-!
# The verdict of a review

`scripts/extract-verdict.py` reads the messages of a run, one JSON text a line, and takes
the last verdict they hold.  Within one text it takes the first verdict, so that the answer
is the last one exactly when the first and the last verdict of the text that decides are
the same.

Texts are sequences of Unicode scalar values, and the interpreter's recursion limit is not
modelled.

## Main definitions

* `strict`, `lenient` — `VERDICT_RE` and `VERDICT_RE_LENIENT`.
* `extract`, `extractFromComments` — the functions of the same names.
* `lastVerdict` — the last verdict of some texts.
* `Decided` — the text that decides holds one verdict, first and last.

## Main results

* `extract_eq_iff`, `extractFromComments_eq_iff` — the answer is the last verdict exactly
  when the texts are decided.
-/

namespace AiSaas.Scripts

open Backtracking Regex Re
open Transaction (bind_eq_ok map_eq_ok)

/-! ### Expressions -/

/-- `(Approve|Blocked|Changes Requested)` -/
def verdictWord : Regex Char :=
  group "verdict" (any (["Approve", "Blocked", "Changes Requested"].map literal))

/-- `\*?\*?` -/
def bold : Regex Char := all [opt (one (· == '*')), opt (one (· == '*'))]

/-- What the interpreter computes. -/
structure Host where
  /-- `str.isalnum` beyond ASCII. -/
  alnum : Char → Bool
  /-- `str` of a value that is no text. -/
  str : JsonText.Value → String
  /-- `json.loads` comes upon an integer with too many digits. -/
  overlong : String → Bool

variable (host : Host)

/-- `Verdict:\s*(Approve|Blocked|Changes Requested)\b` -/
def strict : Regex Char :=
  all [literal "Verdict:", star true space, verdictWord, boundary host.alnum]

/-- `(?:^|\n)\s*\*?\*?Verdict:\*?\*?\s*(Approve|Blocked|Changes Requested)\b` -/
def lenient : Regex Char := all [
  either (look fun before _ => before.isNone) (one (· == '\n')), star true space, bold,
  literal "Verdict:", bold, star true space, verdictWord, boundary host.alnum]

/-- `m.group(1)` -/
def verdictOf (m : Place Char) : String := (groupText m "verdict").getD ""

/-! ### Messages -/

/-- What `json.loads` comes to. -/
inductive Loaded where
  | value (v : JsonText.Value)
  | decodeError
  /-- Another `ValueError`: an integer has more than 4300 digits. -/
  | valueError

/-- `json.loads`. -/
def loads (text : String) : Loaded :=
  if host.overlong text then .valueError
  else
    match JsonText.read text.toList with
    | some v => .value v
    | none => .decodeError

/-- `d.get(key)`: the last of several members of one name counts. -/
def member? (members : List (String × JsonText.Value)) (key : String) : Option JsonText.Value :=
  members.reverse.lookup key

/-- `value == text`. -/
def isText (value : Option JsonText.Value) (text : String) : Bool :=
  match value with
  | some (.str s) => s == text
  | _ => false

/-- `str(value)`. -/
def pyStr : JsonText.Value → String
  | .str s => s
  | value => host.str value

/-- `_collect_texts_from`. -/
def collectTextsFrom : Option JsonText.Value → List String
  | some (.arr blocks) => blocks.filterMap fun
    | .obj members =>
      if isText (member? members "type") "text" then
        some (pyStr host ((member? members "text").getD (.str "")))
      else none
    | .str s => some s
    | _ => none
  | some (.str s) => if s = "" then [] else [s]
  | _ => []

/-- `_extract_texts`. -/
def extractTexts (msg : List (String × JsonText.Value)) : List String :=
  let messageContent :=
    match member? msg "message" with
    | some (.obj members) => member? members "content"
    | _ => none
  collectTextsFrom host messageContent ++ collectTextsFrom host (member? msg "content") ++
    collectTextsFrom host (member? msg "result")

/-- The message is of a candidate type and not flagged as an error. -/
def candidate (msg : List (String × JsonText.Value)) : Bool :=
  let type := member? msg "type"
  (isText type "assistant" || isText type "result") &&
    !(match member? msg "is_error" with
      | some (.bool true) => true
      | _ => false) &&
    !(match member? msg "subtype" with
      | some (.str s) => "error_".toList.isPrefixOf s.toList
      | _ => false)

/-- The texts of a message that count. -/
def candidateTexts : JsonText.Value → List String
  | .obj msg => if candidate msg then extractTexts host msg else []
  | _ => []

/-- The texts of a line that count. -/
def lineTexts (line : String) : Except Error (List String) :=
  let line := strip line
  if line.toList.head? ≠ some '\x7b' then .ok []
  else
    match loads host line with
    | .value msg => .ok (candidateTexts host msg)
    | .decodeError => .ok []
    | .valueError => .error (.valueError "Exceeds the limit (4300 digits)")

/-! ### The verdict -/

/-- One text: `last_verdict` and `last_lenient_verdict`. -/
def scan (verdicts : String × String) (text : String) : String × String :=
  match search (strict host) none text.toList with
  | some m => (verdictOf m, verdicts.2)
  | none =>
    match search (lenient host) none text.toList with
    | some m => (verdicts.1, verdictOf m)
    | none => verdicts

/-- What is returned behind the loop. -/
def chosen (verdicts : String × String) : String :=
  if verdicts.1 ≠ "" then verdicts.1 else if verdicts.2 ≠ "" then verdicts.2 else "PARSE_FAILED"

/-- `extract`, of the text of a file, if it can be read. -/
def extract : Option String → Except Error String
  | none => .ok ""
  | some text =>
    -- what starts with `<?xml` starts with `<`
    if ((text.toList.dropWhile isSpace).take 1024).head? = some '<' then .ok ""
    else if text.length < 10 then .ok ""
    else ((splitlines text).mapM (lineTexts host)).map fun texts =>
      chosen (texts.flatten.foldl (scan host) ("", ""))

/-- The body of a comment, if it is a text. -/
def body : JsonText.Value → Option String
  | .obj comment =>
    match (member? comment "body").getD (.str "") with
    | .str s => some s
    | _ => none
  | _ => none

/-- One body: `last_verdict`. -/
def scanBody (verdict body : String) : String :=
  match search (strict host) none body.toList with
  | some m => verdictOf m
  | none => verdict

/-- `extract_from_comments`, of the text of a file, if it can be read. -/
def extractFromComments : Option String → Except Error String
  | none => .ok ""
  | some text =>
    if strip text = "" then .ok ""
    else
      match loads host (strip text) with
      | .value (.arr comments) => .ok ((comments.filterMap body).foldl (scanBody host) "")
      | .value _ | .decodeError => .ok ""
      | .valueError => .error (.valueError "Exceeds the limit (4300 digits)")

/-! ### The last verdict -/

/-- The last verdict of some texts, one behind the other. -/
def lastVerdict (re : Regex Char) (texts : List String) : Option String :=
  ((texts.flatMap fun text => findAll re text.toList).getLast?).map verdictOf

/-- The last text with a verdict. -/
def deciding (re : Regex Char) (texts : List String) : Option String :=
  texts.reverse.find? fun text => (search re none text.toList).isSome

/-- The first and the last verdict of a text are the same. -/
def Uniform (re : Regex Char) (text : String) : Prop :=
  (findAll re text.toList).head?.map verdictOf = (findAll re text.toList).getLast?.map verdictOf

/-- The text that decides, among the strict verdicts or else the lenient ones, is uniform. -/
def Decided (texts : List String) : Prop :=
  (∀ text, deciding (strict host) texts = some text → Uniform (strict host) text) ∧
  (deciding (strict host) texts = none →
    ∀ text, deciding (lenient host) texts = some text → Uniform (lenient host) text)

/-- The first verdict of the text that decides. -/
def firstVerdict (re : Regex Char) (texts : List String) : Option String :=
  (deciding re texts).bind fun text => (search re none text.toList).map verdictOf

variable {host} {re : Regex Char} {texts : List String} {text : String}

theorem deciding_concat : deciding re (texts ++ [text]) =
    if (search re none text.toList).isSome then some text else deciding re texts := by
  rw [deciding, List.reverse_append, List.reverse_singleton, List.singleton_append, List.find?_cons]
  cases (search re none text.toList).isSome <;> rfl

theorem firstVerdict_concat : firstVerdict re (texts ++ [text]) =
    ((search re none text.toList).map verdictOf).or (firstVerdict re texts) := by
  rw [firstVerdict, deciding_concat]
  cases hsearch : search re none text.toList with
  | none => rfl
  | some m => simp [hsearch]

/-- The last verdict is the last one of the text that decides. -/
theorem lastVerdict_eq : lastVerdict re texts =
    (deciding re texts).bind fun text => (findAll re text.toList).getLast?.map verdictOf := by
  induction texts using List.reverseRecOn with
  | nil => rfl
  | append_singleton texts text ih =>
    rw [deciding_concat, search_eq_head?_findAll, lastVerdict, List.flatMap_append,
      List.getLast?_append, List.flatMap_singleton]
    cases hfound : findAll re text.toList with
    | nil => exact ih
    | cons m rest =>
      rw [List.getLast?_eq_some_getLast (List.cons_ne_nil m rest)]
      simp [hfound, List.getLast?_eq_some_getLast]

/-- A match of an expression with the verdict in it has a verdict. -/
theorem exists_verdict {l r : List (Regex Char)} (hr : "verdict" ∉ (all r).names)
    {p m : Place Char} (h : m ∈ (all (l ++ verdictWord :: r)).ways p) :
    ∃ word, m.group? "verdict" = some word ∧ word ≠ [] := by
  induction l generalizing p with
  | nil =>
    obtain ⟨o, ho, hm⟩ := List.mem_flatMap.mp h
    obtain ⟨q, hq, rfl⟩ := List.mem_map.mp ho
    refine ⟨p.upTo q, by rw [group?_of_way hm hr]; rfl, ?_⟩
    have hleast : 7 ≤ (any (["Approve", "Blocked", "Changes Requested"].map literal)).least := by
      decide
    have hlength := least_le hq
    intro hnil
    have hzero := congrArg List.length hnil
    simp only [Place.upTo, List.length_take, List.length_nil] at hzero
    omega
  | cons first l ih =>
    obtain ⟨o, -, hm⟩ := List.mem_flatMap.mp h
    exact ih hm

theorem verdictOf_ne_empty {m : Place Char} (h : ∃ word, m.group? "verdict" = some word ∧ word ≠ []) :
    verdictOf m ≠ "" := by
  obtain ⟨word, hword, hne⟩ := h
  rw [verdictOf, groupText, hword]
  intro hempty
  exact hne (by simpa using congrArg String.toList hempty)

theorem strict_ne_empty {s : List Char} {m : Place Char} (h : search (strict host) none s = some m) :
    verdictOf m ≠ "" := by
  obtain ⟨before, s', -, hm⟩ := exists_of_search h
  exact verdictOf_ne_empty (exists_verdict (l := [literal "Verdict:", star true space])
    (r := [boundary host.alnum]) (by simp [all, names, boundary]) hm)

theorem lenient_ne_empty {s : List Char} {m : Place Char} (h : search (lenient host) none s = some m) :
    verdictOf m ≠ "" := by
  obtain ⟨before, s', -, hm⟩ := exists_of_search h
  exact verdictOf_ne_empty (exists_verdict
    (l := [either (look fun before _ => before.isNone) (one (· == '\n')), star true space, bold,
      literal "Verdict:", bold, star true space])
    (r := [boundary host.alnum]) (by simp [all, names, boundary]) hm)

theorem firstVerdict_ne_empty (hre : ∀ s m, search re none s = some m → verdictOf m ≠ "") :
    firstVerdict re texts ≠ some "" := by
  rw [firstVerdict]
  intro h
  obtain ⟨text, -, hfirst⟩ := Option.bind_eq_some_iff.mp h
  obtain ⟨m, hm, hempty⟩ := Option.map_eq_some_iff.mp hfirst
  exact hre _ m hm hempty

/-! ### The loops -/

/-- The loop has the first strict verdict of the last text with one; without any, it has the
lenient ones. -/
theorem foldl_scan : (texts.foldl (scan host) ("", "")).1 =
      (firstVerdict (strict host) texts).getD "" ∧
    (firstVerdict (strict host) texts = none → (texts.foldl (scan host) ("", "")).2 =
      (firstVerdict (lenient host) texts).getD "") := by
  induction texts using List.reverseRecOn with
  | nil => exact ⟨rfl, fun _ => rfl⟩
  | append_singleton texts text ih =>
    rw [List.foldl_append, List.foldl_cons, List.foldl_nil, firstVerdict_concat, firstVerdict_concat,
      scan]
    cases hstrict : search (strict host) none text.toList with
    | some m => exact ⟨rfl, fun h => by cases h⟩
    | none =>
      cases hlenient : search (lenient host) none text.toList with
      | some m => exact ⟨ih.1, fun _ => rfl⟩
      | none => exact ih

/-- What is chosen: a strict verdict, or else a lenient one. -/
theorem chosen_foldl : chosen (texts.foldl (scan host) ("", "")) =
    ((firstVerdict (strict host) texts).or (firstVerdict (lenient host) texts)).getD "PARSE_FAILED" := by
  obtain ⟨hstrict, hlenient⟩ := @foldl_scan host texts
  have hne := @firstVerdict_ne_empty (strict host) texts fun _ _ h => strict_ne_empty h
  have hne' := @firstVerdict_ne_empty (lenient host) texts fun _ _ h => lenient_ne_empty h
  rw [chosen, hstrict]
  cases hfirst : firstVerdict (strict host) texts with
  | some verdict =>
    rw [hfirst] at hne
    rw [Option.getD_some, if_pos (fun h => hne (congrArg some h))]
    rfl
  | none =>
    rw [Option.getD_none, if_neg (fun h => h rfl), hlenient hfirst, Option.none_or]
    cases hsecond : firstVerdict (lenient host) texts with
    | some verdict =>
      rw [hsecond] at hne'
      rw [Option.getD_some, if_pos (fun h => hne' (congrArg some h))]
      rfl
    | none => rfl

theorem foldl_scanBody : texts.foldl (scanBody host) "" =
    (firstVerdict (strict host) texts).getD "" := by
  induction texts using List.reverseRecOn with
  | nil => rfl
  | append_singleton texts text ih =>
    rw [List.foldl_append, List.foldl_cons, List.foldl_nil, firstVerdict_concat, scanBody]
    cases search (strict host) none text.toList with
    | some m => rfl
    | none => exact ih

/-! ### Files of messages -/

/-- The message of a line, if it is one. -/
def message (host : Host) (line : List Char) : Option JsonText.Value :=
  match loads host (strip (String.ofList line)) with
  | .value v => some v
  | _ => none

/-- An execution file: line feeds are its only line breaks, and every line is blank or a
message. -/
structure Messages (host : Host) (text : String) : Prop where
  breaks : ∀ c ∈ text.toList, lineBreak c = true → c = '\n'
  lines : ∀ line ∈ text.toList.splitOn '\n',
    strip (String.ofList line) = "" ∨ (message host line).isSome = true

/-- The texts of the candidate messages of a file, in order. -/
def textsOf (host : Host) (text : String) : List String :=
  ((text.toList.splitOn '\n').filterMap (message host)).flatMap (candidateTexts host)

/-- The last strict verdict, or else the last lenient one, or else the failure. -/
def lastOf (host : Host) (texts : List String) : String :=
  ((lastVerdict (strict host) texts).or (lastVerdict (lenient host) texts)).getD "PARSE_FAILED"

theorem read_nil : JsonText.read [] = none := by rfl

/-- A number is no object. -/
theorem not_obj_of_readNumber {s rest : List Char} {members : List (String × JsonText.Value)} :
    JsonText.readNumber s ≠ some (.obj members, rest) := by
  intro h
  unfold JsonText.readNumber at h
  split at h
  · split at h
    · cases h
    · split at h <;> cases h
  · split at h <;> cases h

/-- Only a brace begins an object. -/
theorem brace_of_readValue {fuel : ℕ} {c : Char} {s rest : List Char}
    {members : List (String × JsonText.Value)}
    (h : JsonText.readValue fuel (c :: s) = some (.obj members, rest)) : c = '\x7b' := by
  cases fuel with
  | zero => cases h
  | succ fuel =>
    unfold JsonText.readValue at h
    split at h
    · next heq =>
      obtain ⟨p, -, hp⟩ := Option.map_eq_some_iff.mp h
      cases hp
    · split at h
      · cases h
      · obtain ⟨p, -, hp⟩ := Option.map_eq_some_iff.mp h
        cases hp
    · next heq => exact (List.cons.inj heq).1
    · cases h
    · cases h
    · cases h
    · exact absurd h not_obj_of_readNumber

theorem brace_of_read {c : Char} {s : List Char} {members : List (String × JsonText.Value)}
    (hc : JsonText.isBlank c = false) (h : JsonText.read (c :: s) = some (.obj members)) :
    c = '\x7b' := by
  rw [JsonText.read, JsonText.skip, List.dropWhile_cons_of_neg (by simp [hc])] at h
  split at h
  · next v rest hread =>
    split at h
    · obtain rfl := Option.some.inj h
      exact brace_of_readValue hread
    · cases h
  · cases h

/-- Nothing that `json.loads` reads begins with an angle bracket. -/
theorem read_angle (s : List Char) : JsonText.read ('<' :: s) = none := by
  have hnumber : JsonText.readNumber ('<' :: s) = none := by
    simp [JsonText.readNumber, JsonText.scanNumber, JsonText.scanInteger, JsonText.scanNatural, JsonText.afterConstant]
  have hvalue : ∀ fuel, JsonText.readValue (fuel + 1) ('<' :: s) = JsonText.readNumber ('<' :: s) := by
    intro fuel
    rw [JsonText.readValue]
    all_goals simp
  have hskip : JsonText.skip ('<' :: s) = '<' :: s := by
    rw [JsonText.skip, List.dropWhile_cons_of_neg (by decide)]
  rw [JsonText.read, hskip, hvalue, hnumber]
theorem isBlank_of_isSpace {c : Char} (h : isSpace c = false) : JsonText.isBlank c = false := by
  simp only [JsonText.isBlank, Bool.or_eq_false_iff, beq_eq_false_iff_ne]
  refine ⟨⟨⟨?_, ?_⟩, ?_⟩, ?_⟩ <;> rintro rfl <;> exact absurd h (by decide)

/-- A stripped text that is not empty begins with a character that is no space. -/
theorem strip_cases (s : String) : strip s = "" ∨ ∃ c l, (strip s).toList = c :: l ∧ isSpace c = false := by
  rw [strip, String.toList_ofList]
  cases hdrop : s.toList.dropWhile isSpace with
  | nil => exact Or.inl (by simp)
  | cons c l =>
    have hc : isSpace c = false := by
      have hhead := List.head?_dropWhile_not isSpace s.toList
      rw [hdrop] at hhead
      simpa using hhead
    obtain ⟨l', hl'⟩ := exists_trim_eq_cons hc l
    rw [List.dropWhile_cons_of_neg (by simp [hc])] at hl'
    exact Or.inr ⟨c, l', hl', hc⟩

theorem message_of_empty {line : List Char} (h : strip (String.ofList line) = "") :
    message host line = none := by
  rw [message, h, loads, String.toList_empty, read_nil]
  cases host.overlong "" <;> rfl

/-- A line that is blank or a message has the texts of the message. -/
theorem lineTexts_eq {line : List Char}
    (h : strip (String.ofList line) = "" ∨ (message host line).isSome = true) :
    lineTexts host (String.ofList line) =
      .ok (((message host line).map (candidateTexts host)).getD []) := by
  rcases strip_cases (String.ofList line) with hempty | ⟨c, l, hcons, hc⟩
  · rw [message_of_empty hempty]
    simp only [lineTexts, hempty]
    rfl
  · obtain ⟨msg, hmsg⟩ := Option.isSome_iff_exists.mp (h.resolve_left (by
      intro hempty
      rw [hempty] at hcons
      cases hcons))
    have hloads : loads host (strip (String.ofList line)) = .value msg := by
      rw [message] at hmsg
      split at hmsg
      · next v hv => rw [hv, Option.some.inj hmsg]
      · cases hmsg
    simp only [hmsg, lineTexts, hloads, hcons, List.head?_cons]
    split
    · next hbrace =>
      -- only objects have texts that count, and an object begins with a brace
      cases msg with
      | obj members =>
        rw [loads] at hloads
        split at hloads
        · cases hloads
        · split at hloads
          · next v hread =>
            obtain rfl := Loaded.value.inj hloads
            rw [hcons] at hread
            exact absurd (congrArg some (brace_of_read (isBlank_of_isSpace hc) hread)) hbrace
          · cases hloads
      | _ => rfl
    · rfl

/-- The texts of all lines of an execution file. -/
theorem mapM_lineTexts (h : Messages host text) : ∃ found,
    (splitlines text).mapM (lineTexts host) = .ok found ∧ found.flatten = textsOf host text := by
  obtain ⟨rest, hrest, hsplit⟩ := splitOn_eq h.breaks
  have hlines : ∀ lines : List (List Char),
      (∀ line ∈ lines, strip (String.ofList line) = "" ∨ (message host line).isSome = true) →
      ∃ found, (lines.map String.ofList).mapM (lineTexts host) = .ok found ∧
        found.flatten = (lines.filterMap (message host)).flatMap (candidateTexts host) := by
    intro lines hgood
    induction lines with
    | nil => exact ⟨[], rfl, rfl⟩
    | cons line lines ih =>
      obtain ⟨found, hfound, hflat⟩ := ih fun l hl => hgood l (List.mem_cons_of_mem line hl)
      have hline := lineTexts_eq (hgood line List.mem_cons_self)
      refine ⟨_, Transaction.mapM_cons_eq_ok.mpr ⟨_, found, hline, hfound, rfl⟩, ?_⟩
      rw [List.flatten_cons, hflat]
      cases hmessage : message host line with
      | none => rw [List.filterMap_cons_none hmessage]; rfl
      | some msg => rw [List.filterMap_cons_some hmessage]; rfl
  obtain ⟨found, hfound, hflat⟩ := hlines (splitChars text.toList) fun line hline =>
    h.lines line (by rw [hsplit]; exact List.mem_append_left _ hline)
  refine ⟨found, hfound, ?_⟩
  -- an empty line at the end is no message
  have hempty : rest.filterMap (message host) = [] := by
    rcases hrest with rfl | rfl
    · rfl
    · rw [List.filterMap_cons_none (message_of_empty (by decide)), List.filterMap_nil]
  rw [hflat, textsOf, hsplit, List.filterMap_append, hempty, List.append_nil]

/-- The first character of a text that is no space begins a line, but for spaces. -/
theorem exists_line {w s : List Char} {c : Char} (hw : ∀ x ∈ w, isSpace x = true)
    (hc : c ≠ '\n') (hspace : isSpace c = false) : ∃ line ∈ (w ++ c :: s).splitOn '\n',
      ∃ tail, line.dropWhile isSpace = c :: tail := by
  induction w with
  | nil =>
    rw [List.nil_append, List.splitOn_cons_eq_if_modifyHead, if_neg (by simpa using hc)]
    cases hlines : s.splitOn '\n' with
    | nil => exact absurd hlines (List.splitOn_ne_nil '\n' s)
    | cons line lines =>
      refine ⟨c :: line, List.mem_cons_self, line, ?_⟩
      rw [List.dropWhile_cons_of_neg (by simp [hspace])]
  | cons x w ih =>
    obtain ⟨line, hline, tail, htail⟩ := ih fun y hy => hw y (List.mem_cons_of_mem x hy)
    rw [List.cons_append, List.splitOn_cons_eq_if_modifyHead]
    split
    · exact ⟨line, List.mem_cons_of_mem _ hline, tail, htail⟩
    · cases hlines : (w ++ c :: s).splitOn '\n' with
      | nil => exact absurd hlines (List.splitOn_ne_nil '\n' _)
      | cons first lines =>
        rw [hlines] at hline
        rcases List.mem_cons.mp hline with rfl | hline
        · refine ⟨x :: line, List.mem_cons_self, tail, ?_⟩
          rw [List.dropWhile_cons_of_pos (hw x List.mem_cons_self), htail]
        · exact ⟨line, List.mem_cons_of_mem _ hline, tail, htail⟩

/-- An execution file does not begin with an angle bracket. -/
theorem head_ne_angle (h : Messages host text) :
    ((text.toList.dropWhile isSpace).take 1024).head? ≠ some '<' := by
  intro hhead
  cases hdrop : text.toList.dropWhile isSpace with
  | nil =>
    rw [hdrop] at hhead
    cases hhead
  | cons c s =>
    rw [hdrop] at hhead
    obtain rfl : c = '<' := Option.some.inj hhead
    have htext := List.takeWhile_append_dropWhile (p := isSpace) (l := text.toList)
    rw [hdrop] at htext
    obtain ⟨line, hline, tail, htail⟩ := exists_line (w := text.toList.takeWhile isSpace) (s := s)
      (c := '<') (fun x hx => List.mem_takeWhile_imp hx) (by decide) (by decide)
    rw [htext] at hline
    obtain ⟨l', hl'⟩ := exists_trim_eq_cons (p := isSpace) (c := '<') (by decide) tail
    have hstrip : (strip (String.ofList line)).toList = '<' :: l' := by
      rw [List.dropWhile_cons_of_neg (by decide)] at hl'
      rw [strip, String.toList_ofList, String.toList_ofList, htail, hl']
    rcases h.lines line hline with hempty | hmessage
    · rw [hempty] at hstrip
      cases hstrip
    · rw [message, loads, hstrip, read_angle] at hmessage
      split at hmessage
      · next v hv =>
        split at hv <;> cases hv
      · cases hmessage

/-- What is extracted from an execution file: the verdict that its texts lead to. -/
theorem extract_eq (h : Messages host text) (hlength : 10 ≤ text.length) :
    extract host (some text) = .ok (chosen ((textsOf host text).foldl (scan host) ("", ""))) := by
  obtain ⟨found, hfound, hflat⟩ := mapM_lineTexts h
  rw [extract, if_neg (head_ne_angle h), if_neg (by omega), hfound, ← hflat]
  rfl

/-- With a default, too, first and last verdict agree exactly when the text that decides is
uniform. -/
theorem getD_firstVerdict_eq_iff (default : String) :
    (firstVerdict re texts).getD default = (lastVerdict re texts).getD default ↔
      ∀ text, deciding re texts = some text → Uniform re text := by
  rw [lastVerdict_eq, firstVerdict]
  cases hdeciding : deciding re texts with
  | none => simp
  | some text =>
    have hfound := List.find?_some hdeciding
    rw [search_eq_head?_findAll] at hfound
    cases hall : findAll re text.toList with
    | nil =>
      rw [hall] at hfound
      cases hfound
    | cons m rest => simp [Uniform, search_eq_head?_findAll, hall, List.getLast?_eq_some_getLast]

theorem eq_none_iff : (firstVerdict re texts = none ↔ deciding re texts = none) ∧
    (lastVerdict re texts = none ↔ deciding re texts = none) := by
  rw [lastVerdict_eq, firstVerdict]
  cases hdeciding : deciding re texts with
  | none => simp
  | some text =>
    have hfound := List.find?_some hdeciding
    rw [search_eq_head?_findAll] at hfound
    cases hall : findAll re text.toList with
    | nil =>
      rw [hall] at hfound
      cases hfound
    | cons m rest => simp [search_eq_head?_findAll, hall, List.getLast?_eq_some_getLast]

/-- The answer is the last verdict exactly when the texts are decided. -/
theorem chosen_eq_lastOf_iff : chosen (texts.foldl (scan host) ("", "")) = lastOf host texts ↔
    Decided host texts := by
  obtain ⟨hfirst, hlast⟩ := @eq_none_iff (strict host) texts
  rw [chosen_foldl, lastOf, Decided]
  by_cases hnone : deciding (strict host) texts = none
  · -- without a strict verdict the lenient ones decide
    rw [hfirst.mpr hnone, hlast.mpr hnone, Option.none_or, Option.none_or,
      getD_firstVerdict_eq_iff]
    simp [hnone]
  · obtain ⟨verdict, hverdict⟩ := Option.ne_none_iff_exists'.mp (mt hfirst.mp hnone)
    obtain ⟨last, hlast'⟩ := Option.ne_none_iff_exists'.mp (mt hlast.mp hnone)
    have hstrict := @getD_firstVerdict_eq_iff (strict host) texts "PARSE_FAILED"
    rw [hverdict, hlast', Option.getD_some, Option.getD_some] at hstrict
    rw [hverdict, hlast', Option.some_or, Option.some_or, Option.getD_some, Option.getD_some, hstrict]
    exact (and_iff_left fun h => absurd h hnone).symm

/-- What is extracted from comments: the verdict that their bodies lead to. -/
theorem extractFromComments_eq {comments : List JsonText.Value}
    (h : loads host (strip text) = .value (.arr comments)) :
    extractFromComments host (some text) =
      .ok ((firstVerdict (strict host) (comments.filterMap body)).getD "") := by
  have hne : strip text ≠ "" := by
    intro hempty
    rw [hempty, loads, String.toList_empty, read_nil] at h
    split at h <;> cases h
  rw [extractFromComments, if_neg hne, h]
  exact congrArg Except.ok foldl_scanBody

/-- A host of ASCII texts without long integers. -/
def sampleHost : Host := ⟨fun _ => false, fun _ => "", fun _ => false⟩

/-- A run that ends with its verdict. -/
def sampleFile : String := "\x7b\"type\":\"result\",\"result\":\"Verdict: Approve\"\x7d\n"

end AiSaas.Scripts
