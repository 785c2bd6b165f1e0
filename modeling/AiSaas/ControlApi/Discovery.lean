import AiSaas.ControlApi.RepositoryCatalog
import AiSaas.Lib.Dicts
import AiSaas.Lib.Search
import AiSaas.ProjectPacks.Repository
import AiSaas.Python

/-!
# Repositories below the configured roots

`LocalRepositoryCatalog` of `services/control_api/repository_catalog.py` finds the Git
repositories below some directories in two ways.  `_walk` goes down from a root, past names
that start with a dot and to a limited depth, up to the first `.git`; `resolve` takes a path
and goes up to the root.

## Main definitions

* `FileSystem`, `Host` — the answers of the operating system, of Git and of the interpreter.
* `LocalRepositoryCatalog`, `make` — a catalog, and how one is configured.
* `listRepositories`, `get` — what is found from above.
* `resolve`, `authorizeRead`, `authorizeWrite` — what is found from a path, and scopes for it.
* `Agrees` — both find the same.
-/

namespace AiSaas
namespace Discovery

open Transaction
open ProjectPacks (PurePath purePath joinParts)

/-! ### The operating system -/

/-- The parts of a path that leads through directories only. -/
abbrev Path := List String

/-- What a path leads to. -/
inductive Kind where
  | directory
  | file
  | symlink
  | other
  deriving DecidableEq, Repr

/-- What the operating system answers about its files. -/
structure FileSystem where
  /-- What a path leads to, if there is something: links are not followed. -/
  kind : Path → Option Kind
  /-- `os.scandir`: the names in a directory; nothing where it raises. -/
  scandir : Path → Option (List String)
  /-- `Path.resolve(strict=True)`; nothing where it raises. -/
  resolve : PurePath → Option Path
  isSymlink : PurePath → Bool
  /-- What has a name is in a directory. -/
  kind_parent : ∀ path name, (kind (path ++ [name])).isSome = true → kind path = some .directory
  named : ∀ path name, (kind (path ++ [name])).isSome = true →
    name ≠ "" ∧ '/' ∉ name.toList ∧ name ≠ "." ∧ name ≠ ".."
  mem_scandir : ∀ path names, scandir path = some names →
    ∀ name, name ∈ names ↔ (kind (path ++ [name])).isSome = true
  nodup_scandir : ∀ path names, scandir path = some names → names.Nodup
  /-- A directory that is reached through directories is its own path. -/
  resolve_directory : ∀ path, kind path = some .directory → resolve ⟨"/", path⟩ = some path

/-- What the catalog raises. -/
inductive Raised where
  /-- `RepositoryCatalogError`, with its code. -/
  | catalog (code : String)
  /-- What the store of scopes raises. -/
  | scope (e : CatalogError)
  | osError
  /-- `expanduser` knows no home directory. -/
  | runtimeError
  deriving DecidableEq

/-- The arguments Git is called with. -/
inductive GitOperation where
  /-- `rev-parse --show-toplevel` -/
  | topLevel
  /-- `rev-parse --abbrev-ref HEAD` -/
  | branch
  /-- `rev-parse HEAD` -/
  | head
  /-- `status --porcelain=v1 --untracked-files=normal` -/
  | status
  deriving DecidableEq, Repr

/-- What Git and the interpreter compute. -/
structure Host where
  /-- `hashlib.sha256(value.encode("utf-8")).hexdigest()` -/
  sha256 : String → String
  /-- The home directory that a first part with a tilde stands for. -/
  home : String → Option String
  /-- `_git`, or the code of what it raises. -/
  git : Path → GitOperation → Except String String

variable (host : Host) (fs : FileSystem)

/-! ### Paths -/

/-- `_path_inside`, below `/`. -/
def inside (path root : Path) : Bool := root.isPrefixOf path

/-- `_path_inside` -/
def pureInside (path root : PurePath) : Bool := path.root == root.root && root.parts.isPrefixOf path.parts

/-- `str(path)` -/
def pathText (path : Path) : String := "/" ++ joinParts path

/-- `Path.expanduser()` -/
def expandUser (path : PurePath) : Except Raised PurePath :=
  match path.root, path.parts with
  | "", first :: rest =>
    if first.toList.head? == some '~' then do
      let home ← orRaise (host.home first) .runtimeError
      return ⟨(purePath home).root, (purePath home).parts ++ rest⟩
    else .ok path
  | _, _ => .ok path

/-- `os.path.abspath` of an absolute path: two dots take a part away. -/
def abspath (path : PurePath) : PurePath :=
  ⟨path.root, path.parts.foldl (fun parts part => if part = ".." then parts.dropLast else parts ++ [part]) []⟩

/-- `_has_symlink_component` -/
def hasSymlinkComponent (path : PurePath) : Bool :=
  path.parts.inits.tail.any fun parts => fs.isSymlink ⟨path.root, parts⟩

/-- `_stable_id` -/
def stableId (start value : String) (length : ℕ) : String :=
  start ++ "-" ++ String.ofList ((host.sha256 value).toList.take length)

/-! ### Catalogs -/

/-- A text that names a repository elsewhere. -/
def remote (text : String) : Bool := contains text "://" || "git@".toList.isPrefixOf text.toList

/-- `_configured_root_aliases`, behind those that were seen. -/
def configuredRootAliases : List String → List PurePath → Except Raised (List PurePath)
  | [], aliases => .ok aliases
  | raw :: rest, aliases =>
    if strip raw = "" then configuredRootAliases rest aliases
    else do
      let candidate ← expandUser host (purePath (strip raw))
      if candidate.root ≠ "" ∧ candidate ∉ aliases then configuredRootAliases rest (aliases ++ [candidate])
      else configuredRootAliases rest aliases

/-- The loop of `parse_repository_roots`, behind those that were seen. -/
def parseRoots : List String → List Path → Except Raised (List Path)
  | [], roots => .ok roots
  | raw :: rest, roots =>
    if strip raw = "" then parseRoots rest roots
    else do
      ensure (!(remote (strip raw) || "-".toList.isPrefixOf (strip raw).toList))
        (.catalog "repository_remote_unsupported")
      let candidate ← expandUser host (purePath (strip raw))
      ensure (candidate.root != "") (.catalog "repository_root_not_absolute")
      let canonical ← orRaise (fs.resolve candidate) (.catalog "repository_root_unavailable")
      ensure (fs.kind canonical == some .directory) (.catalog "repository_root_not_directory")
      parseRoots rest (if canonical ∈ roots then roots else roots ++ [canonical])

/-- Roots of which none is inside another. -/
def Apart (roots : List Path) : Prop := roots.Pairwise fun left right => ¬ left <+: right ∧ ¬ right <+: left

instance (roots : List Path) : Decidable (Apart roots) := inferInstanceAs (Decidable (List.Pairwise _ _))

/-- `LocalRepositoryCatalog` -/
structure LocalRepositoryCatalog where
  roots : List Path
  rootAliases : List PurePath
  maxDepth : ℕ
  maxRepositories : ℕ
  directory : ∀ root ∈ roots, fs.kind root = some .directory
  apart : Apart roots
  /-- Each root has an alias at its place. -/
  aliased : roots.length ≤ rootAliases.length

/-- Each root has an alias that leads to it. -/
theorem roots_aliased {items : List String} {aliases aliases' : List PurePath} {roots roots' : List Path}
    (haliases : configuredRootAliases host items aliases = .ok aliases')
    (hroots : parseRoots host fs items roots = .ok roots') (hlength : roots.length ≤ aliases.length)
    (hleads : ∀ candidate ∈ aliases, ∃ root ∈ roots, fs.resolve candidate = some root)
    (hdirectory : ∀ root ∈ roots, fs.kind root = some .directory) :
    roots'.length ≤ aliases'.length ∧ ∀ root ∈ roots', fs.kind root = some .directory := by
  induction items generalizing aliases roots with
  | nil =>
    obtain rfl := Except.ok.inj haliases
    obtain rfl := Except.ok.inj hroots
    exact ⟨hlength, hdirectory⟩
  | cons raw rest ih =>
    rw [configuredRootAliases] at haliases
    rw [parseRoots] at hroots
    split at haliases
    · next hblank => exact ih haliases (by rwa [if_pos hblank] at hroots) hlength hleads hdirectory
    · next hblank =>
      rw [if_neg hblank] at hroots
      simp only [bind_eq_ok, ensure_eq_ok, orRaise_eq_ok] at haliases hroots
      obtain ⟨candidate, hcandidate, haliases⟩ := haliases
      obtain ⟨-, -, candidate', hcandidate', -, habsolute, canonical, hcanonical, -, hkind, hroots⟩ := hroots
      rw [hcandidate'] at hcandidate
      obtain rfl := Except.ok.inj hcandidate
      have hkind : fs.kind canonical = some .directory := by simpa using hkind
      have hadded : ∀ root ∈ roots ++ [canonical], fs.kind root = some .directory :=
        List.forall_mem_append.mpr ⟨hdirectory, List.forall_mem_singleton.mpr hkind⟩
      split at haliases
      · split at hroots
        · next hmem =>
          refine ih haliases hroots (by rw [List.length_append]; omega) ?_ hdirectory
          exact List.forall_mem_append.mpr
            ⟨hleads, List.forall_mem_singleton.mpr ⟨canonical, hmem, hcanonical⟩⟩
        · refine ih haliases hroots (by simpa using hlength) ?_ hadded
          refine List.forall_mem_append.mpr ⟨fun a ha => ?_, List.forall_mem_singleton.mpr ?_⟩
          · obtain ⟨root, hroot, hresolve⟩ := hleads a ha
            exact ⟨root, List.mem_append_left _ hroot, hresolve⟩
          · exact ⟨canonical, List.mem_append_right _ (List.mem_singleton_self canonical), hcanonical⟩
      · next hseen =>
        -- an alias that was seen leads to a root that was seen
        have hmem : candidate' ∈ aliases := by
          by_contra hnew
          exact hseen ⟨by simpa using habsolute, hnew⟩
        obtain ⟨root, hroot, hresolve⟩ := hleads candidate' hmem
        obtain rfl := Option.some.inj (hcanonical.symm.trans hresolve)
        rw [if_pos hroot] at hroots
        exact ih haliases hroots hlength hleads hdirectory

/-- `LocalRepositoryCatalog(roots, max_depth=…, max_repositories=…)` -/
def make (items : List String) (maxDepth maxRepositories : ℤ) : Except Raised (LocalRepositoryCatalog fs) :=
  if 0 ≤ maxDepth ∧ maxDepth ≤ 8 ∧ 1 ≤ maxRepositories ∧ maxRepositories ≤ 128 then
    match haliases : configuredRootAliases host items [] with
    | .error e => .error e
    | .ok rootAliases =>
      match hroots : parseRoots host fs items [] with
      | .error e => .error e
      | .ok roots =>
        have hmade := roots_aliased host fs haliases hroots le_rfl
          (fun _ h => absurd h List.not_mem_nil) fun _ h => absurd h List.not_mem_nil
        if apart : Apart roots then
          .ok {
            roots
            rootAliases
            maxDepth := maxDepth.toNat
            maxRepositories := maxRepositories.toNat
            directory := hmade.2
            apart
            aliased := hmade.1 }
        else .error (.catalog "repository_root_ambiguous")
  else .error (.catalog "discovery_limit_invalid")

variable {fs} (catalog : LocalRepositoryCatalog fs)

/-! ### From above -/

/-- What a directory has under the name `.git`. -/
inductive Marker where
  | symlink
  | repository
  | none
  deriving DecidableEq, Repr

/-- `(path / ".git").is_symlink()`, and whether it is a directory or a file. -/
def markerOf (fs : FileSystem) (path : Path) : Marker :=
  match fs.kind (path ++ [".git"]) with
  | some .symlink => .symlink
  | some .directory | some .file => .repository
  | _ => .none

/-- `name.startswith(".")` -/
def hidden (name : String) : Bool := name.toList.head? == some '.'

/-- The directories in a directory that are searched. -/
def subdirectories (fs : FileSystem) (path : Path) : List String :=
  match fs.scandir path with
  | none => []
  | some names => (names.mergeSort fun a b => decide (a ≤ b)).filter fun name =>
    !hidden name && fs.kind (path ++ [name]) == some .directory

/-- One turn of the loop of `_walk`: what is yielded, and what is appended to the queue. -/
def visit (fs : FileSystem) (maxDepth : ℕ) : Path × ℕ → List Path × List (Path × ℕ)
  | (current, depth) =>
    match markerOf fs current with
    | .symlink => ([], [])
    | .repository => ([current], [])
    | .none =>
      if maxDepth ≤ depth then ([], [])
      else ([], (subdirectories fs current).map fun name => (current ++ [name], depth + 1))

/-- `_walk`: what is yielded, and whether it raises in the end, where it would visit more than
`MAX_DISCOVERY_DIRECTORIES`. -/
def walk (root : Path) : List Path × Bool := Search.search (visit fs catalog.maxDepth) 4096 [(root, 0)]

structure RepositoryRecord where
  repositoryId : String
  rootId : String
  canonicalPath : String
  name : String
  branch : String
  headCommit : String
  dirty : Bool
  capabilities : List Permission
  deriving DecidableEq

/-- `_git` -/
def git (path : Path) (operation : GitOperation) : Except Raised String :=
  match host.git path operation with
  | .ok text => .ok text
  | .error code => .error (.catalog code)

/-- `_git_metadata` -/
def gitMetadata (fs : FileSystem) (path : Path) : Except Raised (Path × String × String × Bool) := do
  let text ← git host path .topLevel
  let topLevel ← orRaise (fs.resolve (purePath text)) (.catalog "repository_metadata_unavailable")
  let branch ← git host path .branch
  let head ← git host path .head
  let status ← git host path .status
  return (topLevel, if branch = "" then "HEAD" else branch, head, status != "")

/-- The last part of a path. -/
def pathName (path : Path) : String := path.getLast?.getD ""

/-- `_record` -/
def record (fs : FileSystem) (path root : Path) : Except Raised RepositoryRecord := do
  let canonical ← orRaise (fs.resolve ⟨"/", path⟩) .osError
  ensure (inside canonical root) (.catalog "repository_symlink_escape")
  let (topLevel, branch, headCommit, dirty) ← gitMetadata host fs canonical
  ensure (topLevel == canonical) (.catalog "repository_root_ambiguous")
  return {
    repositoryId := stableId host "repo" (pathText canonical) 24
    rootId := stableId host "root" (pathText root) 16
    canonicalPath := pathText canonical
    name := pathName canonical
    branch
    headCommit
    dirty
    capabilities := [.readAnalysis, .writePatch] }

/-- A candidate that is yielded is put among the records. -/
def include? (name : Option String) (root : Path) (records : List (String × RepositoryRecord))
    (candidate : Path) : Except Raised (List (String × RepositoryRecord)) :=
  if name.any fun wanted => decide (pathName candidate ≠ wanted) then .ok records
  else
    match record host fs candidate root with
    | .error (.catalog code) => if name.isSome then .error (.catalog code) else .ok records
    | .error e => .error e
    | .ok found => do
      ensure ((records.lookup found.repositoryId).all fun other => decide (other = found))
        (.catalog "repository_root_ambiguous")
      let records := Dicts.assign found.repositoryId found records
      ensure (decide (records.length ≤ catalog.maxRepositories)) (.catalog "repository_discovery_limit")
      return records

/-- The candidates of one root. -/
def includeRoot (name : Option String) (records : List (String × RepositoryRecord)) (root : Path) :
    Except Raised (List (String × RepositoryRecord)) := do
  let records ← (walk catalog root).1.foldlM (include? host catalog name root) records
  ensure (!(walk catalog root).2) (.catalog "repository_discovery_limit")
  return records

/-- `list_repositories` -/
def listRepositories (name : Option String) : Except Raised (List RepositoryRecord) := do
  ensure (!name.any blank) (.catalog "repository_name_invalid")
  let records ← catalog.roots.foldlM (includeRoot host catalog name) []
  return (records.mergeSort fun a b => decide (a.1 ≤ b.1)).map Prod.snd

/-- `get` -/
def get (repositoryId : String) : Except Raised RepositoryRecord := do
  let records ← listRepositories host catalog none
  orRaise (records.find? fun found => decide (found.repositoryId = repositoryId))
    (.catalog "repository_not_found")

/-! ### From a path -/

/-- `_git_ancestors`, of the path with its parts backwards. -/
def gitAncestors (fs : FileSystem) (root : Path) : List String → Except Raised (List Path)
  | [] => ascend [] (.ok [])
  | name :: above => ascend (name :: above) (gitAncestors fs root above)
where
  /-- One turn of the loop, and those above. -/
  ascend (backwards : List String) (above : Except Raised (List Path)) : Except Raised (List Path) :=
    let current := backwards.reverse
    if inside current root then
      match markerOf fs current with
      | .symlink => .error (.catalog "repository_symlink_escape")
      | marker => do
        let result := if marker = .repository then [current] else []
        if current = root then return result
        let more ← above
        return result ++ more
    else .ok []

/-- `resolve` -/
def resolve (rawPath : String) : Except Raised RepositoryRecord := do
  ensure (!blank rawPath) (.catalog "repository_path_required")
  ensure (!remote rawPath) (.catalog "repository_remote_unsupported")
  let candidate ← expandUser host (purePath rawPath)
  ensure (candidate.root != "") (.catalog "repository_path_invalid")
  let lexical := abspath candidate
  ensure ((catalog.roots.zip catalog.rootAliases).any fun (root, alias') =>
    pureInside lexical ⟨"/", root⟩ || pureInside lexical alias') (.catalog "repository_path_outside_root")
  let canonical ← orRaise (fs.resolve lexical) (.catalog "repository_path_not_found")
  match catalog.roots.filter (inside canonical) with
  | [] =>
    if fs.isSymlink lexical || hasSymlinkComponent fs lexical then
      .error (.catalog "repository_symlink_escape")
    else .error (.catalog "repository_path_outside_root")
  | [root] =>
    ensure (fs.kind canonical == some .directory) (.catalog "repository_path_not_directory")
    match ← gitAncestors fs root canonical.reverse with
    | [] => .error (.catalog "repository_not_git")
    | [marked] => record host fs marked root
    | _ => .error (.catalog "repository_root_ambiguous")
  | _ => .error (.catalog "repository_root_ambiguous")

/-- `_select`, of texts that may be empty. -/
def select (repositoryId path : Option String) : Except Raised RepositoryRecord :=
  match repositoryId.filter (· ≠ ""), path.filter (· ≠ "") with
  | some repositoryId, some path => do
    let resolved ← resolve host catalog path
    ensure (decide (resolved.repositoryId = repositoryId)) (.catalog "repository_identity_mismatch")
    return resolved
  | some repositoryId, none => get host catalog repositoryId
  | none, some path => resolve host catalog path
  | none, none => .error (.catalog "repository_identity_required")

/-- What the store of scopes raises is raised. -/
def raising {α : Type} : Except CatalogError α → Except Raised α
  | .ok a => .ok a
  | .error e => .error (.scope e)

variable (iso : IsoTime)

/-- `authorize_read` -/
def authorizeRead (now : ℤ) (uuid tenantId : String) (repositoryId path : Option String) :
    Tx Raised RepositoryScopes RepositoryScope := fun scopes => do
  let found ← select host catalog repositoryId path
  raising (RepositoryScopes.issueRead iso now uuid tenantId found.repositoryId 1800 scopes)

/-- `authorize_write` -/
def authorizeWrite (now issued : ℤ) (uuid tenantId readScopeId : String)
    (repositoryId path : Option String) : Tx Raised RepositoryScopes RepositoryScope := fun scopes => do
  let found ← select host catalog repositoryId path
  raising (RepositoryScopes.issueWrite iso now issued uuid tenantId found.repositoryId readScopeId 1800 scopes)

/-! ### Both ways -/

/-- There are fewer than 4096 directories below the roots. -/
def Small : Prop := ∃ paths : List Path, paths.length < 4096 ∧
  ∀ root ∈ catalog.roots, ∀ path, root <+: path → fs.kind path = some .directory → path ∈ paths

/-- What `resolve` finds `get` finds too, and what `list_repositories` lists `resolve` finds. -/
def Agrees : Prop :=
  (∀ path found, resolve host catalog path = .ok found → get host catalog found.repositoryId = .ok found) ∧
  ∀ name records, listRepositories host catalog name = .ok records →
    ∀ found ∈ records, resolve host catalog found.canonicalPath = .ok found

end Discovery
end AiSaas
