import Mathlib.Data.List.Sort
import Mathlib.Data.Nat.Notation

/-!
# What the migration scripts share

Both scripts fill the process environment from a dotenv file before they read it,
and both read the committed migrations through the journal of the migration
directory.  A file never replaces a variable the process has; a loader with a list of
allowed keys passes over the others.

* `matchLine` — the assignment a line of a dotenv file makes.
* `loadDotenv`, `loadDotenv_apply` — the loader, and the value of each variable after it.
* `readMigrationManifest` — the migrations of a directory, in the journal's order.
-/

namespace AiSaas
namespace Migrations

/-! ### Lines of a dotenv file -/

/-- What `\s` matches and `trim` removes. -/
def whiteSpace (c : Char) : Bool :=
  ['\t', '\n', '\x0b', '\x0c', '\r', ' ', '\u00a0', '\u1680', '\u2028', '\u2029', '\u202f', '\u205f',
    '\u3000', '\ufeff'].contains c || (0x2000 ≤ c.toNat && c.toNat ≤ 0x200a)

/-- What `.` does not match. -/
def lineTerminator (c : Char) : Bool := ['\n', '\r', '\u2028', '\u2029'].contains c

def trim (cs : List Char) : List Char :=
  ((cs.dropWhile whiteSpace).reverse.dropWhile whiteSpace).reverse

/-- `content.split(/\r?\n/u)`. -/
def splitLines : List Char → List (List Char)
  | [] => [[]]
  | '\r' :: '\n' :: cs => [] :: splitLines cs
  | '\n' :: cs => [] :: splitLines cs
  | c :: cs =>
    match splitLines cs with
    | [] => [[c]]
    | line :: lines => (c :: line) :: lines

def keyStart (c : Char) : Bool := c.isAlpha || c == '_'

def keyChar (c : Char) : Bool := c.isAlphanum || c == '_'

/-- `([A-Za-z_][A-Za-z0-9_]*)`.  No shorter key is followed by blanks or `=`. -/
def matchKey : List Char → Option (List Char × List Char)
  | [] => none
  | c :: cs => if keyStart c then some (c :: cs.takeWhile keyChar, cs.dropWhile keyChar) else none

/-- `\s*=\s*(.*?)\s*$`: the blanks on both sides are not the value's, and a line
terminator inside it ends the attempt. -/
def matchValue (cs : List Char) : Option (List Char) :=
  match cs.dropWhile whiteSpace with
  | '=' :: rest => if (trim rest).any lineTerminator then none else some (trim rest)
  | _ => none

/-- `export\s+`. -/
def matchExport : List Char → Option (List Char)
  | 'e' :: 'x' :: 'p' :: 'o' :: 'r' :: 't' :: c :: cs =>
    if whiteSpace c then some (cs.dropWhile whiteSpace) else none
  | _ => none

def parseDotenvValue (raw : List Char) : String :=
  match trim raw with
  | [] => ""
  | quote :: rest =>
    if (quote == '\x22' || quote == '\x27') && rest.getLast? == some quote then
      String.ofList rest.dropLast
    else String.ofList (quote :: rest)

/-- The key and the value of an assignment. -/
def matchAssignment (cs : List Char) : Option (String × String) := do
  let (key, rest) ← matchKey cs
  let value ← matchValue rest
  pure (String.ofList key, parseDotenvValue value)

/-- The line's match: with the optional `export` where that matches, else without it, so
that `export` can be a key. -/
def matchLine (line : List Char) : Option (String × String) :=
  let cs := line.dropWhile whiteSpace
  match (matchExport cs).bind matchAssignment with
  | some assignment => some assignment
  | none => matchAssignment cs

/-! ### The process environment -/

/-- `process.env`. -/
abbrev Environ := String → Option String

/-- The names every object inherits, which `in` finds too. -/
def objectPrototype : List String :=
  ["constructor", "hasOwnProperty", "isPrototypeOf", "propertyIsEnumerable", "toLocaleString",
    "toString", "valueOf", "__proto__", "__defineGetter__", "__defineSetter__", "__lookupGetter__",
    "__lookupSetter__"]

/-- `key in process.env`. -/
def Environ.has (env : Environ) (key : String) : Bool :=
  (env key).isSome || objectPrototype.contains key

/-- What an assigned text becomes in the environment of a process: it ends at its first
null character. -/
def stored (value : String) : String :=
  String.ofList (value.toList.takeWhile fun c => c != '\x00')

/-- `process.env[key] = value`. -/
def Environ.set (env : Environ) (key value : String) : Environ :=
  fun k => if k = key then some (stored value) else env k

@[simp] theorem Environ.set_self (env : Environ) (key value : String) :
    env.set key value key = some (stored value) := if_pos rfl

theorem Environ.set_of_ne (env : Environ) {key k : String} (h : k ≠ key) (value : String) :
    env.set key value k = env k := if_neg h

/-- A dotenv file: absent, there but not to be read, or its text. -/
inductive DotenvFile
  | missing
  | unreadable (message : String)
  | text (content : String)

def allowed (allowedKeys : Option (List String)) (key : String) : Bool :=
  match allowedKeys with
  | none => true
  | some keys => keys.contains key

/-- One turn of the loader's loop. -/
def loadLine (allowedKeys : Option (List String)) (env : Environ) (line : List Char) : Environ :=
  match matchLine line with
  | none => env
  | some (key, value) =>
    if !allowed allowedKeys key || env.has key then env else env.set key value

/-- Whether there was a file, and the environment after it. -/
def loadDotenv (env : Environ) (file : DotenvFile) (allowedKeys : Option (List String)) :
    Except String (Bool × Environ) :=
  match file with
  | .missing => .ok (false, env)
  | .unreadable message => .error message
  | .text content =>
    .ok (true, (splitLines content.toList).foldl (loadLine allowedKeys) env)

/-! ### The value of a variable after the file -/

/-- The value a line assigns to the key, if the loader lets it. -/
def assignedBy (allowedKeys : Option (List String)) (key : String) (line : List Char) :
    Option String :=
  match matchLine line with
  | none => none
  | some (k, value) => if k = key ∧ allowed allowedKeys key then some (stored value) else none

/-- The value the file assigns to the key: that of its first line which does. -/
def DotenvFile.assigned (file : DotenvFile) (allowedKeys : Option (List String)) (key : String) :
    Option String :=
  match file with
  | .text content => (splitLines content.toList).findSome? (assignedBy allowedKeys key)
  | _ => none

variable {allowedKeys : Option (List String)} {env env' : Environ} {key : String}

/-- A line changes a variable that is not there, and no other. -/
theorem loadLine_apply (hkey : key ∉ objectPrototype) (line : List Char) :
    loadLine allowedKeys env line key = (env key).or (assignedBy allowedKeys key line) := by
  unfold loadLine assignedBy
  cases matchLine line with
  | none => simp
  | some assignment =>
    obtain ⟨k, value⟩ := assignment
    dsimp only
    by_cases hk : k = key
    · subst hk
      cases hkept : env k with
      | some old => simp [Environ.has, hkept]
      | none => cases hallowed : allowed allowedKeys k <;> simp [Environ.has, hkept, hkey]
    · rw [show (if k = key ∧ _ then some (stored value) else none) = none from
        if_neg fun h => hk h.1, Option.or_none]
      split
      · rfl
      · exact env.set_of_ne (Ne.symm hk) value

/-- **The loader.**  A variable the process has keeps its value; another takes the value
of the first line that assigns it. -/
theorem loadDotenv_apply {file : DotenvFile} {found : Bool} (hkey : key ∉ objectPrototype)
    (h : loadDotenv env file allowedKeys = .ok (found, env')) :
    env' key = (env key).or (file.assigned allowedKeys key) := by
  cases file with
  | missing =>
    cases h
    simp [DotenvFile.assigned]
  | unreadable message => cases h
  | text content =>
    cases h
    show (splitLines content.toList).foldl (loadLine allowedKeys) env key
      = (env key).or ((splitLines content.toList).findSome? (assignedBy allowedKeys key))
    -- the environment grows with each line, so the induction is over every environment
    generalize splitLines content.toList = lines
    induction lines generalizing env with
    | nil => simp
    | cons line lines ih =>
      rw [List.foldl_cons, ih, loadLine_apply hkey, Option.or_assoc, List.findSome?_cons]
      cases assignedBy allowedKeys key line <;> simp

/-- A key outside the allowed ones keeps the value the process has for it. -/
theorem loadDotenv_of_not_allowed {file : DotenvFile} {found : Bool} (hkey : key ∉ objectPrototype)
    (hallowed : allowed allowedKeys key = false)
    (h : loadDotenv env file allowedKeys = .ok (found, env')) : env' key = env key := by
  rw [loadDotenv_apply hkey h]
  have hnone : file.assigned allowedKeys key = none := by
    cases file with
    | text content =>
      refine List.findSome?_eq_none_iff.mpr fun line _ => ?_
      unfold assignedBy
      cases matchLine line <;> simp [hallowed]
    | _ => rfl
  rw [hnone, Option.or_none]

/-! ### The committed migrations -/

/-- An entry of the journal; its tag where that is a text, its `when` as it prints. -/
structure JournalEntry where
  idx : ℤ
  tag : Option String
  when : String

/-- A migration directory: the journal's path, its entries where they are a list, if
there is a journal and it parses, and the texts of the migrations. -/
structure MigrationDir where
  journalPath : String
  journal : Option (Except String (Option (List JournalEntry)))
  sqlFile : String → Option String

structure Migration where
  idx : ℤ
  tag : String
  createdAt : String
  hash : String
  sql : String

/-- `/^[A-Za-z0-9_-]+$/u`. -/
def validTag (tag : String) : Bool :=
  tag ≠ "" && tag.toList.all fun c => c.isAlphanum || c == '_' || c == '-'

/-- `replace(/\r\n?/gu, "\n")`. -/
def unixLines : List Char → List Char
  | [] => []
  | '\r' :: '\n' :: cs => '\n' :: unixLines cs
  | '\r' :: cs => '\n' :: unixLines cs
  | c :: cs => c :: unixLines cs

/-- One entry of the manifest, after those with the tags `seenTags`. -/
def readEntry (sha256 : String → String) (dir : MigrationDir) (seenTags : List String)
    (entry : JournalEntry) : Except String Migration := do
  let .some tag := entry.tag | throw s!"invalid migration tag at index {entry.idx}"
  if !validTag tag then throw s!"invalid migration tag at index {entry.idx}"
  if seenTags.contains tag then throw s!"duplicate migration tag: {tag}"
  let .some content := dir.sqlFile tag | throw s!"migration SQL not found: {tag}.sql"
  let sql := unixLines content.toList
  if (trim sql).isEmpty then throw s!"migration SQL is empty: {tag}.sql"
  pure ⟨entry.idx, tag, entry.when, sha256 (String.ofList sql), String.ofList sql⟩

def readEntries (sha256 : String → String) (dir : MigrationDir) :
    List String → List JournalEntry → Except String (List Migration)
  | _, [] => pure []
  | seenTags, entry :: entries => do
    let migration ← readEntry sha256 dir seenTags entry
    let migrations ← readEntries sha256 dir (migration.tag :: seenTags) entries
    pure (migration :: migrations)

def readMigrationManifest (sha256 : String → String) (dir : MigrationDir) :
    Except String (List Migration) := do
  let .some parsed := dir.journal | throw s!"Drizzle journal not found: {dir.journalPath}"
  let .some (entry :: entries) ← parsed | throw "Drizzle journal has no migration entries"
  readEntries sha256 dir []
    ((entry :: entries).mergeSort fun left right => decide (left.idx ≤ right.idx))

end Migrations
end AiSaas
