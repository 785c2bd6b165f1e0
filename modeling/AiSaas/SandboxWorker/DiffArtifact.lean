import AiSaas.Lib.Dicts
import AiSaas.Lib.UnifiedDiff
import AiSaas.Lines
import Mathlib.Data.List.Dedup
import Mathlib.Order.Basic
import Mathlib.Algebra.GroupWithZero.Nat

/-!
# The diff artifact

`create` and `diff` of `IsolatedRepositoryWorkspace`, with `_extract`, `_manifest` and
`_unified_patch`, of `services/sandbox_worker/sandbox.py`.  An archive is the list of its
members, a workspace the list of what `sorted(root.rglob("*"))` finds in it.

## Main definitions

* `extract`, `manifest`, `create` — the files of an archive, and of a workspace.
* `unifiedPatch`, `diff` — the artifact.
* `Faithful` — what is said of an artifact, of the texts for which a patch is to be read.
* `Upholds` — what is said of a call: it raises for a path outside of the allowlist or is
  excused, or its artifact is faithful.
* `Fed` — a listed file whose lines all end in a line feed.

## Main results

* `lookup_baseline` — the files of a created workspace are those of the archive.
* `manifest_cases` — a manifest holds the regular files, or there are too many of them.
* `applyPatch_unifiedPatch` — a patch leads from the one text to the other.
* `upholds_diff` — every call upholds what is said of it.
-/

namespace AiSaas
namespace DiffArtifact

open Dicts UnifiedDiff

abbrev Bytes := List UInt8

structure SandboxFailure where
  code : String
  detail : String
  deriving DecidableEq

structure DiffPolicy where
  allowlistedPaths : List String := ["agent_platform", "services", "project_packs", "tests"]
  maxFiles : ℕ := 2048
  maxArchiveBytes : ℕ := 64 * 1024 * 1024

inductive MemberKind where
  | directory
  | file
  /-- A link, a device. -/
  | other
  deriving DecidableEq, Repr

structure Member where
  name : String
  kind : MemberKind
  content : Bytes

/-- A tar archive, with its length in bytes. -/
structure Archive where
  length : ℕ
  members : List Member

/-- What the worker relies on of the interpreter and the operating system. -/
structure Host where
  /-- `hashlib.sha256(content).hexdigest()` -/
  digest : Bytes → String
  /-- `value.decode("utf-8")`, if it is UTF-8. -/
  decode : Bytes → Option (List Char)
  /-- The opcodes of `difflib.SequenceMatcher`, in groups. -/
  groups : List Line → List Line → List (List Opcode)
  aligned : ∀ a b, Aligned a b 0 0 (groups a b)
  /-- A path cannot be written beside these files. -/
  refuses : List (String × Bytes) → String → Bool

/-! ### Files -/

/-- The parts of `Path(path)`, but for its root. -/
def pathParts (path : String) : List (List Char) :=
  (path.toList.splitOn '/').filter fun part => part ≠ [] && part ≠ ['.']

/-- `Path(path).as_posix()` -/
def asPosix (path : String) : String :=
  let text := ['/'].intercalate (pathParts path)
  if ['/'].isPrefixOf path.toList then String.ofList ('/' :: text)
  else if text.isEmpty then "." else String.ofList text

/-- `_safe_relative` -/
def safeRelative (path : String) : Except SandboxFailure String :=
  let normalized := asPosix path
  if ['/'].isPrefixOf normalized.toList ||
      (pathParts normalized).any fun part => [[], ['.'], ['.', '.']].contains part then
    .error ⟨"unsafe_archive_path", path⟩
  else .ok normalized

/-- `_extract`, with the number of files, their bytes and the files so far. -/
def extract (host : Host) (policy : DiffPolicy) :
    ℕ → ℕ → List (String × Bytes) → List Member → Except SandboxFailure (List (String × Bytes))
  | _, _, written, [] => .ok written
  | files, total, written, member :: rest =>
    if member.kind = .directory then extract host policy files total written rest
    else
      match safeRelative member.name with
      | .error e => .error e
      | .ok path =>
        if member.kind ≠ .file then .error ⟨"unsafe_archive_entry", path⟩
        else if 16 < (pathParts path).length then
          .error ⟨"workspace_limit_exceeded", "archive path depth exceeded"⟩
        else if policy.maxFiles < files + 1 then
          .error ⟨"workspace_limit_exceeded", "archive file count exceeded"⟩
        else if policy.maxArchiveBytes < total + member.content.length then
          .error ⟨"workspace_limit_exceeded", "archive content exceeded limit"⟩
        else if host.refuses written path then
          .error ⟨"workspace_create_failed", "approved commit could not be safely extracted"⟩
        else
          extract host policy (files + 1) (total + member.content.length)
            (assign path (member.content.take (policy.maxArchiveBytes + 1)) written) rest

/-- What a path is. -/
inductive Node where
  | regular (data : Bytes)
  /-- A directory, a link. -/
  | other

/-- `_manifest`, with the manifest and its bytes so far. -/
def manifestFrom (policy : DiffPolicy) : List (String × Bytes) → ℕ → List (String × Node) →
    Except SandboxFailure (List (String × Bytes))
  | found, _, [] => .ok found
  | found, total, (_, .other) :: rest => manifestFrom policy found total rest
  | found, total, (path, .regular data) :: rest =>
    if policy.maxFiles ≤ found.length then
      .error ⟨"workspace_limit_exceeded", "workspace file count exceeded"⟩
    else if policy.maxArchiveBytes < total + data.length then
      .error ⟨"workspace_limit_exceeded", "workspace content exceeded limit"⟩
    else manifestFrom policy (assign path data found) (total + data.length) rest

def manifest (policy : DiffPolicy) (entries : List (String × Node)) :
    Except SandboxFailure (List (String × Bytes)) :=
  manifestFrom policy [] 0 entries

/-- A path comes no later than another one, part by part. -/
def pathLe (p q : String × Bytes) : Bool :=
  !(pathParts q.1).lex (pathParts p.1) fun a b => decide (a < b)

/-- What is found in a workspace of some files, but for its directories. -/
def found (files : List (String × Bytes)) : List (String × Node) :=
  (files.mergeSort pathLe).map fun file => (file.1, .regular file.2)

/-- The baseline of `create`, of an approved commit. -/
def create (host : Host) (policy : DiffPolicy) (archive : Archive) :
    Except SandboxFailure (List (String × Bytes)) :=
  if policy.maxArchiveBytes < archive.length then
    .error ⟨"workspace_limit_exceeded", "approved repository archive is too large"⟩
  else
    match extract host policy 0 0 [] archive.members with
    | .error e => .error e
    | .ok files => manifest policy (found files)

/-- A workspace that was created. -/
structure Workspace (host : Host) where
  policy : DiffPolicy
  archive : Archive
  baseCommit : String
  baseline : List (String × Bytes)
  created : create host policy archive = .ok baseline

/-- What is found in a workspace, each path once. -/
structure Tree where
  entries : List (String × Node)
  nodup : (entries.map Prod.fst).Nodup

/-! ### The artifact -/

/-- `_path_allowed` -/
def pathAllowed (path : String) (allowlisted : List String) : Bool :=
  allowlisted.any fun front => path == front || (front ++ "/").toList.isPrefixOf path.toList

/-- `value.splitlines(keepends=True)` -/
def splitKeep : List Char → List Line
  | [] => []
  | '\r' :: '\n' :: s => ['\r', '\n'] :: splitKeep s
  | c :: s =>
    if lineBreak c then [c] :: splitKeep s else
      match splitKeep s with
      | [] => [[c]]
      | line :: lines => (c :: line) :: lines

/-- `lines` of `_unified_patch`. -/
def linesOf (host : Host) : Option Bytes → List Line
  | none => []
  | some value =>
    match host.decode value with
    | some text => splitKeep text
    | none => [("[binary content: " ++ host.digest value ++ "]\n").toList]

/-- `_unified_patch` -/
def unifiedPatch (host : Host) (path : String) (before after : Option Bytes) : List Char :=
  (unifiedDiff (linesOf host before) (linesOf host after) ("a/" ++ path).toList ("b/" ++ path).toList
    (host.groups (linesOf host before) (linesOf host after))).flatten

structure FileDiff where
  path : String
  status : String
  beforeHash : Option String
  afterHash : Option String
  patch : List Char
  deriving DecidableEq

structure Artifact where
  schemaVersion : String
  kind : String
  baseCommit : String
  changedFiles : List String
  files : List FileDiff
  sourceUnchanged : Bool
  deriving DecidableEq

/-- `"added" if before is None else "deleted" if after is None else "modified"` -/
def statusOf : Option Bytes → Option Bytes → String
  | none, _ => "added"
  | some _, none => "deleted"
  | some _, some _ => "modified"

def fileDiff (host : Host) (path : String) (before after : Option Bytes) : FileDiff :=
  ⟨path, statusOf before after, before.map host.digest, after.map host.digest,
    unifiedPatch host path before after⟩

/-- `sorted(set(baseline) | set(current))` -/
def pathsOf (baseline current : List (String × Bytes)) : List String :=
  (baseline.map Prod.fst ++ current.map Prod.fst).dedup.mergeSort fun p q => decide (p ≤ q)

/-- The files of `diff` that changed, path by path. -/
def changes (host : Host) (policy : DiffPolicy) (baseline current : List (String × Bytes)) :
    List String → Except SandboxFailure (List FileDiff)
  | [] => .ok []
  | path :: rest =>
    let before := baseline.lookup path
    let after := current.lookup path
    if before = after then changes host policy baseline current rest
    else if !pathAllowed path policy.allowlistedPaths then .error ⟨"path_not_allowlisted", path⟩
    else (changes host policy baseline current rest).map (fileDiff host path before after :: ·)

/-- `diff` -/
def diff {host : Host} (ws : Workspace host) (sourceUnchanged : Bool) (tree : Tree) :
    Except SandboxFailure Artifact :=
  if !sourceUnchanged then
    .error ⟨"source_changed", "source checkout changed during isolated execution"⟩
  else
    match manifest ws.policy tree.entries with
    | .error e => .error e
    | .ok current =>
      (changes host ws.policy ws.baseline current (pathsOf ws.baseline current)).map fun files =>
        ⟨"1.0", "repository_diff", ws.baseCommit, files.map FileDiff.path, files, true⟩

/-! ### What is said of an artifact -/

/-- The regular file of an archive that is written for a member. -/
def fileOf (member : Member) : Option (String × Bytes) :=
  if member.kind = .file then (safeRelative member.name).toOption.map fun path => (path, member.content)
  else none

/-- The content of a path in an archive; of two members of one path the last one counts. -/
def Archive.content (archive : Archive) (path : String) : Option Bytes :=
  (archive.members.filterMap fileOf).reverse.lookup path

def regularOf : String × Node → Option (String × Bytes)
  | (path, .regular data) => some (path, data)
  | (_, .other) => none

/-- The regular files of a tree. -/
def Tree.files (tree : Tree) : List (String × Bytes) := tree.entries.filterMap regularOf

/-- The content of a regular file. -/
def Tree.content (tree : Tree) (path : String) : Option Bytes := tree.files.lookup path

/-- The text of a file; a file that is not there has no lines. -/
def textOf (host : Host) : Option Bytes → Option (List Char)
  | none => some []
  | some value => host.decode value

/-- An artifact that lists the paths whose bytes differ, in order and with what became of
them; its patches for the texts in question lead from what was to what is. -/
structure Faithful (host : Host) (InQuestion : String → List Char → List Char → Prop)
    (before after : String → Option Bytes) (artifact : Artifact) : Prop where
  paths : artifact.changedFiles = artifact.files.map FileDiff.path
  sorted : artifact.changedFiles.Pairwise (· < ·)
  exact : ∀ path, path ∈ artifact.changedFiles ↔ before path ≠ after path
  files : ∀ file ∈ artifact.files, file.status = statusOf (before file.path) (after file.path) ∧
    file.beforeHash = (before file.path).map host.digest ∧
    file.afterHash = (after file.path).map host.digest
  patches : ∀ file ∈ artifact.files, ∀ s s', textOf host (before file.path) = some s →
    textOf host (after file.path) = some s' → InQuestion file.path s s' →
    applyPatch file.patch s = some s'

/-- A call raises for a path that changed outside of the allowlist, or for what is excused, or
its artifact is faithful. -/
def Upholds {host : Host} (InQuestion : String → List Char → List Char → Prop)
    (Excused : SandboxFailure → Prop) (ws : Workspace host) (tree : Tree) : Prop :=
  match diff ws true tree with
  | .error e => (∃ path, e = ⟨"path_not_allowlisted", path⟩ ∧
      ws.archive.content path ≠ tree.content path ∧
      pathAllowed path ws.policy.allowlistedPaths = false) ∨ Excused e
  | .ok artifact => Faithful host InQuestion ws.archive.content tree.content artifact

/-- The workspace has too many files, or too many bytes in them. -/
def Exceeded (policy : DiffPolicy) (tree : Tree) (e : SandboxFailure) : Prop :=
  e.code = "workspace_limit_exceeded" ∧ (policy.maxFiles < tree.files.length ∨
    policy.maxArchiveBytes < (tree.files.map fun file => file.2.length).sum)

/-- A text whose lines all end in a line feed. -/
def LineFed (s : List Char) : Prop := ∀ line ∈ splitKeep s, line.getLast? = some '\n'

/-- A file whose name has no line feed, and whose lines all end in one. -/
def Fed (path : String) (s s' : List Char) : Prop := '\n' ∉ path.toList ∧ LineFed s ∧ LineFed s'

variable {host : Host} {policy : DiffPolicy} {baseline current written written' : List (String × Bytes)}
  {entries : List (String × Node)} {members : List Member} {files total : ℕ} {path : String}
  {paths : List String} {s : List Char} {line : Line} {value : Option Bytes}

/-! ### Manifests -/

/-- What is extracted are the files of the archive, each written where it belongs. -/
theorem extract_eq (h : extract host policy files total written members = .ok written') :
    written' = update written (members.filterMap fileOf) := by
  induction members generalizing files total written with
  | nil =>
    cases h
    rfl
  | cons member members ih =>
    unfold extract at h
    split at h
    · next hdirectory =>
      have hnone : fileOf member = none := if_neg (by rw [hdirectory]; decide)
      rw [List.filterMap_cons_none hnone]
      exact ih h
    · split at h
      · cases h
      · next path hpath =>
        split at h
        · cases h
        · next hfile =>
          split at h
          · cases h
          · split at h
            · cases h
            · split at h
              · cases h
              · next htotal =>
                split at h
                · cases h
                · have hsome : fileOf member = some (path, member.content) := by
                    rw [fileOf, if_pos (not_not.mp hfile), hpath]
                    rfl
                  rw [List.take_of_length_le (by omega)] at h
                  rw [List.filterMap_cons_some hsome]
                  exact ih h

/-- **A manifest** holds the regular files, or there are too many of them. -/
theorem manifestFrom_cases {found : List (String × Bytes)}
    (h : (found.map Prod.fst ++ entries.map Prod.fst).Nodup) :
    manifestFrom policy found total entries = .ok (found ++ entries.filterMap regularOf) ∨
      ∃ e, manifestFrom policy found total entries = .error e ∧ e.code = "workspace_limit_exceeded" ∧
        (policy.maxFiles < found.length + (entries.filterMap regularOf).length ∨
          policy.maxArchiveBytes <
            total + ((entries.filterMap regularOf).map fun file => file.2.length).sum) := by
  induction entries generalizing found total with
  | nil => exact Or.inl (by rw [List.filterMap_nil, List.append_nil]; rfl)
  | cons entry entries ih =>
    obtain ⟨path, node⟩ := entry
    cases node with
    | other =>
      have hrest := h.sublist (List.Sublist.append_left (List.sublist_cons_self _ _) _)
      exact ih hrest
    | regular data =>
      have hregular : ((path, Node.regular data) :: entries).filterMap regularOf =
          (path, data) :: entries.filterMap regularOf := rfl
      rw [manifestFrom, hregular, List.length_cons, List.map_cons, List.sum_cons]
      dsimp only
      by_cases hfiles : policy.maxFiles ≤ found.length
      · rw [if_pos hfiles]
        exact Or.inr ⟨_, rfl, rfl, Or.inl (by omega)⟩
      · rw [if_neg hfiles]
        by_cases hbytes : policy.maxArchiveBytes < total + data.length
        · rw [if_pos hbytes]
          exact Or.inr ⟨_, rfl, rfl, Or.inr (by omega)⟩
        · rw [if_neg hbytes]
          have hnew : path ∉ found.map Prod.fst := fun hmem =>
            (List.nodup_append.mp h).2.2 path hmem path List.mem_cons_self rfl
          have hstep : ((assign path data found).map Prod.fst ++ entries.map Prod.fst).Nodup := by
            rw [assign_of_notMem hnew, List.map_append, List.append_assoc]
            exact h
          rw [assign_of_notMem hnew] at hstep ⊢
          rcases ih hstep with hok | ⟨e, herror, hcode, hmore⟩
          · exact Or.inl (by rw [hok, List.append_assoc]; rfl)
          · refine Or.inr ⟨e, herror, hcode, ?_⟩
            rw [List.length_append, List.length_singleton] at hmore
            omega

theorem manifest_cases (h : (entries.map Prod.fst).Nodup) :
    manifest policy entries = .ok (entries.filterMap regularOf) ∨
      ∃ e, manifest policy entries = .error e ∧ e.code = "workspace_limit_exceeded" ∧
        (policy.maxFiles < (entries.filterMap regularOf).length ∨
          policy.maxArchiveBytes < ((entries.filterMap regularOf).map fun file => file.2.length).sum) := by
  have hcases := @manifestFrom_cases policy entries 0 [] h
  simpa only [manifest, List.nil_append, List.length_nil, Nat.zero_add] using hcases

theorem regularOf_found (files : List (String × Bytes)) :
    (found files).filterMap regularOf = files.mergeSort pathLe := by
  rw [found, List.filterMap_map]
  exact List.filterMap_some

theorem keys_found (files : List (String × Bytes)) :
    (found files).map Prod.fst = (files.mergeSort pathLe).map Prod.fst := by
  rw [found, List.map_map]
  rfl

/-- **The files of a created workspace** are those of the archive. -/
theorem lookup_baseline (ws : Workspace host) (path : String) :
    ws.baseline.lookup path = ws.archive.content path := by
  have hcreated := ws.created
  unfold create at hcreated
  split at hcreated
  · cases hcreated
  · split at hcreated
    · cases hcreated
    · next files hextract =>
      have hfiles : files = dictOf (ws.archive.members.filterMap fileOf) := extract_eq hextract
      have hperm := List.mergeSort_perm files pathLe
      have hnodup : (files.map Prod.fst).Nodup := hfiles ▸ nodup_dictOf _
      have hkeys : ((found files).map Prod.fst).Nodup := by
        rw [keys_found]
        exact (hperm.map Prod.fst).nodup_iff.mpr hnodup
      rcases manifest_cases hkeys with hok | ⟨e, herror, -⟩
      · rw [hok, regularOf_found] at hcreated
        rw [← Except.ok.inj hcreated, ← lookup_perm hnodup hperm.symm, hfiles, lookup_dictOf]
        rfl
      · rw [herror] at hcreated
        cases hcreated

/-! ### Changes -/

/-- The changed paths are listed, or one of them is outside of the allowlist. -/
theorem changes_cases (host : Host) (policy : DiffPolicy) (baseline current : List (String × Bytes))
    (paths : List String) :
    (∃ path, changes host policy baseline current paths = .error ⟨"path_not_allowlisted", path⟩ ∧
        baseline.lookup path ≠ current.lookup path ∧
        pathAllowed path policy.allowlistedPaths = false) ∨
      changes host policy baseline current paths =
        .ok ((paths.filter fun path => decide (baseline.lookup path ≠ current.lookup path)).map
          fun path => fileDiff host path (baseline.lookup path) (current.lookup path)) := by
  induction paths with
  | nil => exact Or.inr rfl
  | cons path paths ih =>
    rw [changes]
    by_cases hsame : baseline.lookup path = current.lookup path
    · rw [if_pos hsame, List.filter_cons_of_neg (by simpa using hsame)]
      exact ih
    · rw [if_neg hsame, List.filter_cons_of_pos (by simpa using hsame)]
      cases hallowed : pathAllowed path policy.allowlistedPaths with
      | false => exact Or.inl ⟨path, rfl, hsame, hallowed⟩
      | true =>
        rcases ih with ⟨path', herror, hdiffer⟩ | hok
        · refine Or.inl ⟨path', ?_, hdiffer⟩
          rw [herror]
          rfl
        · refine Or.inr ?_
          rw [hok]
          rfl

theorem mem_pathsOf : path ∈ pathsOf baseline current ↔
    path ∈ baseline.map Prod.fst ∨ path ∈ current.map Prod.fst := by
  rw [pathsOf, List.mem_mergeSort, List.mem_dedup, List.mem_append]

/-- The paths are in order, each once. -/
theorem pairwise_pathsOf (baseline current : List (String × Bytes)) :
    (pathsOf baseline current).Pairwise (· < ·) := by
  have hsorted : (pathsOf baseline current).Pairwise fun p q => decide (p ≤ q) = true := by
    refine List.pairwise_mergeSort (fun p q r hpq hqr => ?_) (fun p q => ?_) _
    · rw [decide_eq_true_eq] at hpq hqr ⊢
      exact String.le_trans hpq hqr
    · rw [Bool.or_eq_true, decide_eq_true_eq, decide_eq_true_eq]
      exact String.le_total p q
  have hnodup : (pathsOf baseline current).Nodup :=
    (List.mergeSort_perm _ _).nodup_iff.mpr (List.nodup_dedup _)
  refine (hsorted.and hnodup).imp fun {p q} h => ?_
  have hle : p ≤ q := of_decide_eq_true h.1
  exact String.not_le.mp fun hge => h.2 (String.le_antisymm hle hge)

/-! ### Patches -/

theorem flatten_splitKeep (s : List Char) : (splitKeep s).flatten = s := by
  induction s using splitKeep.induct with
  | case1 => rfl
  | case2 s ih => rw [splitKeep, List.flatten_cons, ih]; rfl
  | case3 c s hcr hbreak ih => rw [splitKeep.eq_3 _ _ hcr, if_pos hbreak, List.flatten_cons, ih]; rfl
  | case4 c s hcr hbreak hnil ih =>
    rw [hnil] at ih
    rw [splitKeep.eq_3 _ _ hcr, if_neg hbreak, hnil, ← ih]
    rfl
  | case5 c s hcr hbreak first lines hcons ih =>
    rw [hcons] at ih
    rw [splitKeep.eq_3 _ _ hcr, if_neg hbreak, hcons, ← ih]
    rfl

/-- A line has no line feed but at its end. -/
theorem not_mem_dropLast (h : line ∈ splitKeep s) : '\n' ∉ line.dropLast := by
  induction s using splitKeep.induct generalizing line with
  | case1 => cases h
  | case2 s ih =>
    rw [splitKeep] at h
    rcases List.mem_cons.mp h with rfl | h
    · decide
    · exact ih h
  | case3 c s hcr hbreak ih =>
    rw [splitKeep.eq_3 _ _ hcr, if_pos hbreak] at h
    rcases List.mem_cons.mp h with rfl | h
    · exact List.not_mem_nil
    · exact ih h
  | case4 c s hcr hbreak hnil ih =>
    rw [splitKeep.eq_3 _ _ hcr, if_neg hbreak, hnil] at h
    obtain rfl := List.mem_singleton.mp h
    exact List.not_mem_nil
  | case5 c s hcr hbreak first lines hcons ih =>
    rw [splitKeep.eq_3 _ _ hcr, if_neg hbreak, hcons] at h
    rcases List.mem_cons.mp h with rfl | h
    · have hfirst := ih (hcons ▸ List.mem_cons_self)
      cases first with
      | nil => exact List.not_mem_nil
      | cons x first =>
        rw [List.dropLast_cons_cons, List.mem_cons, not_or]
        refine ⟨?_, hfirst⟩
        rintro rfl
        exact hbreak (by decide)
    · exact ih (hcons ▸ List.mem_cons_of_mem first h)

theorem LineFed.whole (h : LineFed s) : ∀ line ∈ splitKeep s, Whole line := fun line hline =>
  ⟨line.dropLast, (List.dropLast_append_getLast? _ (h line hline)).symm, not_mem_dropLast hline⟩

theorem linesOf_eq (h : textOf host value = some s) : linesOf host value = splitKeep s := by
  cases value with
  | none =>
    obtain rfl := Option.some.inj h
    rfl
  | some value =>
    rw [textOf] at h
    rw [linesOf, h]

/-- **A patch** leads from the one text to the other. -/
theorem applyPatch_unifiedPatch {before after : Option Bytes} {s' : List Char}
    (h : textOf host before = some s) (h' : textOf host after = some s') (hfed : Fed path s s') :
    applyPatch (unifiedPatch host path before after) s = some s' := by
  obtain ⟨hpath, hs, hs'⟩ := hfed
  have hname : ∀ front : String, '\n' ∉ front.toList → '\n' ∉ (front ++ path).toList := by
    intro front hfront
    rw [String.toList_append, List.mem_append, not_or]
    exact ⟨hfront, hpath⟩
  have happly := applyPatch_unifiedDiff (host.aligned (splitKeep s) (splitKeep s')) hs.whole hs'.whole
    (hname "a/" (by decide)) (hname "b/" (by decide))
  rwa [flatten_splitKeep, flatten_splitKeep, ← linesOf_eq h, ← linesOf_eq h'] at happly

/-- The listed files are faithful to what was and what is. -/
theorem faithful_changes (ws : Workspace host) (tree : Tree) {listed : List String}
    {items : List FileDiff}
    (hlisted : listed = (pathsOf ws.baseline tree.files).filter fun path =>
      decide (ws.baseline.lookup path ≠ tree.files.lookup path))
    (hitems : items = listed.map fun path =>
      fileDiff host path (ws.baseline.lookup path) (tree.files.lookup path)) :
    Faithful host Fed ws.archive.content tree.content
      ⟨"1.0", "repository_diff", ws.baseCommit, items.map FileDiff.path, items, true⟩ := by
  have hpaths : items.map FileDiff.path = listed := by
    rw [hitems, List.map_map]
    exact List.map_id'' (fun path => rfl) listed
  have hbaseline : ∀ path, ws.archive.content path = ws.baseline.lookup path := fun path =>
    (lookup_baseline ws path).symm
  refine ⟨rfl, ?_, fun path => ?_, fun file hfile => ?_, fun file hfile s s' hs hs' hfed => ?_⟩
  · rw [hpaths, hlisted]
    exact (pairwise_pathsOf _ _).sublist List.filter_sublist
  · rw [hpaths, hlisted, List.mem_filter, decide_eq_true_eq, hbaseline, mem_pathsOf]
    refine ⟨And.right, fun hdiffer => ⟨?_, hdiffer⟩⟩
    by_contra habsent
    obtain ⟨hbefore, hafter⟩ := not_or.mp habsent
    exact hdiffer ((lookup_eq_none_of_notMem hbefore).trans (lookup_eq_none_of_notMem hafter).symm)
  · rw [hitems] at hfile
    obtain ⟨path, -, rfl⟩ := List.mem_map.mp hfile
    rw [hbaseline]
    exact ⟨rfl, rfl, rfl⟩
  · rw [hitems] at hfile
    obtain ⟨path, -, rfl⟩ := List.mem_map.mp hfile
    rw [hbaseline] at hs
    exact applyPatch_unifiedPatch hs hs' hfed

/-- One replacement of all lines, where the lines differ. -/
def replaceAll (a b : List Line) : List (List Opcode) :=
  if a = b then [] else [[⟨.replace, 0, a.length, 0, b.length⟩]]

theorem aligned_replaceAll (a b : List Line) : Aligned a b 0 0 (replaceAll a b) := by
  rw [replaceAll]
  split
  · next heq =>
    rw [heq]
    exact .nil rfl
  · have hop : Matches a b ⟨.replace, 0, a.length, 0, b.length⟩ :=
      ⟨⟨Nat.zero_le _, le_refl _⟩, ⟨Nat.zero_le _, le_refl _⟩, fun h => (nomatch h),
        fun h => (nomatch h), fun h => (nomatch h)⟩
    refine .cons (k := 0) (List.cons_ne_nil _ _) (Nat.zero_le _) rfl (.cons hop (.nil _ _)) (.nil ?_)
    rw [List.drop_length, List.drop_length]

/-- ASCII, and differences that replace everything. -/
def asciiHost : Host where
  digest _ := "0"
  decode value := some (value.map fun byte => Char.ofNat byte.toNat)
  groups := replaceAll
  aligned := aligned_replaceAll
  refuses _ _ := false

/-- A workspace of one file without a line feed. -/
def oneFile : Workspace asciiHost where
  policy := { maxFiles := 1 }
  archive := ⟨10240, [⟨"services/a", .file, [97]⟩]⟩
  baseCommit := "c0ffee"
  baseline := [("services/a", [97])]
  created := by decide +kernel

/-- Another file is added. -/
def twoFiles : Tree := ⟨[("services/a", .regular [97]), ("services/b", .regular [98])], by decide⟩

/-- The file is changed. -/
def changed : Tree := ⟨[("services/a", .regular [98])], by decide⟩

end DiffArtifact
end AiSaas
