import AiSaas.Lines
import AiSaas.Lib.Dicts
import Mathlib.Data.List.Sort
import Mathlib.Data.List.Lex
import Mathlib.Data.String.Basic

/-!
# The repository index

`RepositoryIndex` of `project_packs/proposal_to_verified_change/index.py`: the files below
a root that an allowlist names, read once into an index, and read again when a hash is
checked.  What the operating system answers about the paths below the root is a
`Checkout`; it does not change while one method runs, and what is listed may be examined.

## Main definitions

* `PurePath`, `purePath`, `asPosix` — `pathlib.Path` as a text.
* `Checkout` — the answers of the operating system.
* `RepositoryIndex`, `build`, `get`, `evidence`, `currentEvidence` — the index.
-/

namespace AiSaas.ProjectPacks

/-! ### Paths -/

/-- A POSIX path: its root and its parts. -/
structure PurePath where
  root : String
  parts : List String
  deriving DecidableEq

/-- `Path(path)`: empty parts and dots are dropped; two slashes in front are kept. -/
def purePath (path : String) : PurePath where
  root :=
    match path.toList with
    | '/' :: '/' :: '/' :: _ => "/"
    | '/' :: '/' :: _ => "//"
    | '/' :: _ => "/"
    | _ => ""
  parts := ((path.toList.splitOn '/').filter fun part => part ≠ [] ∧ part ≠ ['.']).map String.ofList

/-- `"/".join(parts)`. -/
def joinParts (parts : List String) : String :=
  String.ofList (List.intercalate ['/'] (parts.map String.toList))

/-- A path of names has them as its parts. -/
theorem purePath_joinParts {parts : List String}
    (h : ∀ part ∈ parts, part ≠ "" ∧ '/' ∉ part.toList ∧ part ≠ "." ∧ part ≠ "..")
    (hne : parts ≠ []) : (purePath (joinParts parts)).parts = parts := by
  have hslash : ∀ l ∈ parts.map String.toList, '/' ∉ l := by
    intro l hl
    obtain ⟨part, hpart, rfl⟩ := List.mem_map.mp hl
    exact (h part hpart).2.1
  have hkept : (parts.map String.toList).filter (fun part => part ≠ [] ∧ part ≠ ['.']) =
      parts.map String.toList := by
    rw [List.filter_eq_self]
    intro l hl
    obtain ⟨part, hpart, rfl⟩ := List.mem_map.mp hl
    have hnot := h part hpart
    refine decide_eq_true ⟨?_, ?_⟩
    · intro hnil
      exact hnot.1 (String.toList_inj.mp hnil)
    · intro hdot
      exact hnot.2.2.1 (String.toList_inj.mp hdot)
  rw [purePath, joinParts, String.toList_ofList, List.splitOn_intercalate '/' hslash (by simpa using hne),
    hkept, List.map_map]
  simp [Function.comp_def]

/-- `Path(path).as_posix()`. -/
def asPosix (path : String) : String :=
  if (purePath path).root = "" ∧ (purePath path).parts = [] then "."
  else (purePath path).root ++ joinParts (purePath path).parts

/-- `s.strip("/")`. -/
def stripSlashes (s : String) : String :=
  String.ofList ((s.toList.dropWhile (· == '/')).reverse.dropWhile (· == '/')).reverse

/-- `Path(name).suffix`. -/
def suffix (name : String) : String :=
  let tail := name.toList.reverse.takeWhile (· != '.')
  if tail.length + 1 < name.length ∧ tail ≠ [] then
    String.ofList ('.' :: tail.reverse)
  else ""

/-! ### The operating system -/

/-- Where a path leads. -/
inductive Target where
  /-- A path below the root, or the root. -/
  | inside (parts : List String)
  | outside
  deriving DecidableEq

/-- The exceptions of the index and of what uses it. -/
inductive Raised where
  | valueError (message : String)
  | promptInjectionDetected
  | unauthorizedPath (path : String)
  | fileNotFound (path : String)
  /-- Another `OSError`: `NotADirectoryError`, a loop of links, a name that is too long. -/
  | osError
  deriving DecidableEq

/-- `except (UnauthorizedPath, FileNotFoundError, ValueError)`. -/
def Raised.caught : Raised → Bool
  | .osError => false
  | _ => true

/-- What the operating system answers about the paths below the root. -/
structure Checkout where
  /-- `root.rglob("*")`, which follows no links. -/
  listing : List (List String)
  /-- `is_symlink()`. -/
  isSymlink : List String → Bool
  /-- `is_file()`, which follows links. -/
  isFile : List String → Bool
  /-- `resolve(strict=True)`. -/
  resolve : List String → Except Raised Target
  /-- `read_text(encoding="utf-8")`; nothing where it raises `OSError` or
  `UnicodeDecodeError`. -/
  read : List String → Option String
  /-- Names are not empty and have no slash, and none is a dot or two. -/
  named : ∀ path ∈ listing, path ≠ [] ∧
    ∀ part ∈ path, part ≠ "" ∧ '/' ∉ part.toList ∧ part ≠ "." ∧ part ≠ ".."
  /-- No link is on the way to a path that is listed. -/
  resolve_listed : ∀ path ∈ listing, isSymlink path = false → resolve path = .ok (.inside path)
  /-- A path is what it leads to. -/
  resolved : ∀ path target, resolve path = .ok (.inside target) →
    isFile target = isFile path ∧ read target = read path ∧ isSymlink target = false
  /-- What goes wrong on the way is an `OSError`. -/
  resolve_error : ∀ path e, resolve path = .error e → e = .osError ∨ ∃ p, e = .fileNotFound p

/-! ### The index -/

/-- `IndexedFile`. -/
structure IndexedFile where
  path : String
  content : String
  lines : List String
  deriving DecidableEq

/-- The settings of a `RepositoryIndex`, with the prefixes stripped of slashes. -/
structure RepositoryIndex where
  allowlistedPaths : List String
  maxFiles : ℤ
  maxDepth : ℤ

/-- What the interpreter computes. -/
structure Host where
  /-- `str.lower` and `str.upper`. -/
  lower : String → String
  upper : String → String
  lower_empty : lower "" = ""
  /-- `hashlib.sha256(text.encode()).hexdigest()`. -/
  sha256 : String → String
  sha256_digits : ∀ text, blank (sha256 text) = false

variable (host : Host) (index : RepositoryIndex)

namespace RepositoryIndex

/-- `RepositoryIndex.__init__`. -/
def ofPaths (paths : List String) (maxFiles maxDepth : ℤ) : RepositoryIndex :=
  ⟨paths.map stripSlashes, maxFiles, maxDepth⟩

/-- `is_authorized`. -/
def isAuthorized (path : String) : Bool :=
  let normalized := asPosix path
  if normalized.toList.head? = some '/' ∨
      ((purePath normalized).parts.any fun part => part = ".." ∨ part = ".") = true then false
  else index.allowlistedPaths.any fun pre =>
    normalized = pre ∨ (pre.toList ++ ['/']).isPrefixOf normalized.toList

/-- The suffixes of the files that are read. -/
def suffixes : List String := [".py", ".js", ".ts", ".tsx", ".json", ".md", ".yaml", ".yml"]

/-- One candidate of `build`: the file that is indexed, if it is. -/
def indexed (checkout : Checkout) (candidate : List String) : Option IndexedFile :=
  if index.maxDepth < candidate.length ∨ checkout.isSymlink candidate = true ∨
      checkout.isFile candidate = false ∨
      (candidate.any fun part => part.toList.head? = some '.') = true then none
  else
    match checkout.resolve candidate with
    | .ok (.inside _) =>
      let relative := joinParts candidate
      if index.isAuthorized relative = false ∨
          host.lower (suffix (candidate.getLastD "")) ∉ suffixes then none
      else (checkout.read candidate).map fun content => ⟨relative, content, splitlines content⟩
    | _ => none

/-- The loop of `build`. -/
def buildFrom (checkout : Checkout) :
    List (List String) → List (String × IndexedFile) → List (String × IndexedFile)
  | [], files => files
  | candidate :: rest, files =>
    match index.indexed host checkout candidate with
    | some file =>
      let files := Dicts.assign file.path file files
      if index.maxFiles ≤ files.length then files else buildFrom checkout rest files
    | none => buildFrom checkout rest files

/-- The order of paths. -/
def partsLe (a b : List String) : Bool := decide (a ≤ b)

/-- `build`. -/
def build (checkout : Checkout) : List (String × IndexedFile) :=
  index.buildFrom host checkout (checkout.listing.mergeSort partsLe) []

/-- `files`. -/
def files (built : List (String × IndexedFile)) : List IndexedFile :=
  (built.mergeSort fun a b => decide (a.1 ≤ b.1)).map Prod.snd

/-- `get`. -/
def get (built : List (String × IndexedFile)) (path : String) : Except Raised IndexedFile :=
  if index.isAuthorized path = false then .error (.unauthorizedPath path)
  else
    match built.lookup (asPosix path) with
    | some file => .ok file
    | none => .error (.fileNotFound (asPosix path))

/-- `"\n".join(lines[start_line - 1 : end])`. -/
def selected (lines : List String) (startLine endLine : ℤ) : String :=
  joinLines ((lines.take endLine.toNat).drop (startLine - 1).toNat)

/-- The bounds and the hash of a range of lines. -/
def hashRange (lines : List String) (startLine endLine : ℤ) : Except Raised (ℤ × ℤ × String) :=
  if startLine < 1 ∨ endLine < startLine ∨ lines.length < endLine then
    .error (.valueError "line range is outside indexed file")
  else .ok (startLine, endLine, host.sha256 (selected lines startLine endLine))

/-- `evidence`, of a range with an end. -/
def evidence (built : List (String × IndexedFile)) (path : String) (startLine endLine : ℤ) :
    Except Raised (ℤ × ℤ × String) :=
  (index.get built path).bind fun file => hashRange host file.lines startLine endLine

/-- `current_evidence`, of a range with an end. -/
def currentEvidence (checkout : Checkout) (path : String) (startLine endLine : ℤ) :
    Except Raised (ℤ × ℤ × String) :=
  if index.isAuthorized path = false then .error (.unauthorizedPath path)
  else (checkout.resolve (purePath (asPosix path)).parts).bind fun
    | .outside => .error (.unauthorizedPath path)
    | .inside candidate =>
      if checkout.isFile candidate = false ∨ checkout.isSymlink candidate = true then
        .error (.unauthorizedPath path)
      else
        match checkout.read candidate with
        | some content => hashRange host (splitlines content) startLine endLine
        | none => .error (.fileNotFound (asPosix path))

end RepositoryIndex

end AiSaas.ProjectPacks
