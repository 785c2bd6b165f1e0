import AiSaas.Lib.Transactions
import Mathlib.Data.List.Basic
import Mathlib.Data.List.Infix
import Mathlib.Data.Nat.Notation

/-!
# Imported snapshots

`LocalRepositoryCatalog.import_snapshot` of `services/control_api/repository_catalog.py`.
The paths are checked, the directory that has the name is removed, the files are written
into a temporary directory, Git is initialized there, and the directory is renamed.  What
was there before is gone as soon as it is removed, whatever comes after.

A directory is known by its regular files outside `.git`, and by whether it has Git's own.
Two paths of which one goes on from the other pass the checks and cannot both be written.

## Main definitions

* `validate` — the checks of a name and of some files.
* `populate` — the files are written, one after the other.
* `importSnapshot` — the import, in an environment where each step may fail.
* `Faithful` — an import that raises leaves the repository of the name with its files; one
  that returns leaves the files that were given.
* `Spared` — nothing fails once the repository of the name is removed.

## Main results

* `populate_eq_ok_iff` — the files that can be written.
* `faithful_iff` — an import is faithful exactly when what it replaces is spared.
-/

namespace AiSaas
namespace ImportSnapshot

open Transaction

/-! ### Checks -/

/-- The parts of a relative path. -/
abbrev Path := List String

abbrev Bytes := List UInt8

/-- `Path(raw).parts`, but for the root of an absolute path. -/
def pathParts (raw : String) : Path :=
  ((raw.toList.splitOn '/').map String.ofList).filter fun part => part ≠ "" && part ≠ "."

/-- `_REPOSITORY_NAME_PATTERN.fullmatch` -/
def nameMatches (name : String) : Bool :=
  match name.toList with
  | [] => false
  | c :: rest => c.isAlphanum && decide (rest.length ≤ 127) &&
      rest.all fun x => x.isAlphanum || decide (x ∈ ['.', '_', '-'])

/-- A path that is refused. -/
def refusedPath (raw : String) : Bool :=
  let parts := pathParts raw
  raw.toList.head? == some '/' || parts.isEmpty || parts.contains ".." || parts.contains ".git" ||
    parts.any fun part => ".env".toList.isPrefixOf part.toList

/-- What an import raises. -/
inductive ImportError where
  /-- `RepositoryCatalogError`, with its code. -/
  | catalog (code : String)
  | osError
  | valueError
  deriving DecidableEq, Repr

/-- The checks of the files: those that were seen have `total` bytes. -/
def validateFiles : List (String × Bytes) → List Path → ℕ → Except ImportError Unit
  | [], _, _ => .ok ()
  | (raw, content) :: rest, seen, total => do
    ensure (!refusedPath raw) (.catalog "repository_import_path_invalid")
    ensure (!(seen.contains (pathParts raw))) (.catalog "repository_import_duplicate_path")
    ensure (decide (total + content.length ≤ 25 * 1024 * 1024)) (.catalog "repository_import_size_limit")
    validateFiles rest (pathParts raw :: seen) (total + content.length)

/-- The files under their paths. -/
def normalized (files : List (String × Bytes)) : List (Path × Bytes) :=
  files.map fun file => (pathParts file.1, file.2)

/-- All checks of an import. -/
def validate (name : String) (files : List (String × Bytes)) : Except ImportError Unit := do
  ensure (nameMatches name) (.catalog "repository_name_invalid")
  ensure (!files.isEmpty && decide (files.length ≤ 20000)) (.catalog "repository_import_file_limit")
  validateFiles files [] 0

/-! ### Files -/

/-- A directory: its files, and whether it has Git's metadata. -/
structure Snapshot where
  files : List (Path × Bytes)
  git : Bool
  deriving DecidableEq

/-- What an import root has under a name. -/
inductive Entry where
  | directory (snapshot : Snapshot)
  | file
  | symlink
  deriving DecidableEq

/-- An import root. -/
abbrev Root := String → Option Entry

/-- The root with something else under a name. -/
def Root.set (root : Root) (name : String) (entry : Option Entry) : Root :=
  fun other => if other = name then entry else root other

/-- One of the paths goes on from the other. -/
def conflicts (p q : Path) : Bool := p ≠ q && (p.isPrefixOf q || q.isPrefixOf p)

/-- What an operation of the system fails with. -/
inductive Fault where
  | osError
  | valueError
  deriving DecidableEq, Repr

/-- What the system does in one import; `ρ` is what `_record` returns. -/
structure ImportEnv (ρ : Type) where
  /-- What a removal that raises leaves; nothing where it is done. -/
  removal : Option Snapshot
  /-- The end of the temporary directory's name, if one is made. -/
  mkdtemp : Option String
  /-- What the directories or the content of a file fail with, by its place. -/
  write : ℕ → Option Fault
  gitFails : Bool
  renameFails : Bool
  /-- What the cleanup leaves of the temporary directory. -/
  leftover : Option Entry
  /-- `_record(destination, import_root)` -/
  record : Except ImportError ρ

variable {ρ : Type} (env : ImportEnv ρ)

/-- The files are written behind those that are; a path on the way that is a file, or a file
that is a directory, is no place to write. -/
def populate : ℕ → List (Path × Bytes) → List (Path × Bytes) →
    Except (Fault × List (Path × Bytes)) (List (Path × Bytes))
  | _, written, [] => .ok written
  | i, written, file :: rest =>
    match env.write i with
    | some fault => .error (fault, written)
    | none =>
      if written.any fun other => conflicts file.1 other.1 then .error (.osError, written)
      else populate (i + 1) (written ++ [file]) rest

/-- What has the name is removed. -/
def removed (root : Root) (name : String) : Except (ImportError × Root) Root :=
  match root name with
  | none => .ok root
  | some .symlink => .error (.catalog "repository_import_path_invalid", root)
  | some .file => .error (.osError, root)
  | some (.directory _) =>
    match env.removal with
    | some left => .error (.osError, root.set name (some (.directory left)))
    | none => .ok (root.set name none)

/-- The name of a temporary directory. -/
def temporary (name suffix : String) : String := "." ++ name ++ "-" ++ suffix

/-- The files are written, and the directory gets its name. -/
def install (root : Root) (name suffix : String) (files : List (Path × Bytes)) :
    Except ImportError ρ × Root :=
  match populate env 0 [] files with
  | .error (.osError, _) =>
    (.error (.catalog "repository_import_failed"), root.set (temporary name suffix) env.leftover)
  | .error (.valueError, written) =>
    (.error .valueError, root.set (temporary name suffix) (some (.directory ⟨written, false⟩)))
  | .ok written =>
    if env.gitFails || env.renameFails then
      (.error (.catalog "repository_import_failed"), root.set (temporary name suffix) env.leftover)
    else (env.record, root.set name (some (.directory ⟨written, true⟩)))

/-- `import_snapshot` into an import root. -/
def importSnapshot (root : Root) (name : String) (files : List (String × Bytes)) :
    Except ImportError ρ × Root :=
  match validate name files with
  | .error e => (.error e, root)
  | .ok () =>
    match removed env root name with
    | .error (e, root) => (.error e, root)
    | .ok root =>
      match env.mkdtemp with
      | none => (.error .osError, root)
      | some suffix => install env root name suffix (normalized files)

/-! ### What an import keeps -/

/-- The same files have the same bytes. -/
def SameFiles (files files' : List (Path × Bytes)) : Prop := ∀ path, files.lookup path = files'.lookup path

/-- **A failed import leaves the repository of the name with its files**, and one that returns
leaves the given files and Git's metadata. -/
def Faithful (root : Root) (name : String) (files : List (String × Bytes)) : Prop :=
  let (result, after) := importSnapshot env root name files
  match result with
  | .error _ => ∀ old, root name = some (.directory old) →
      ∃ now, after name = some (.directory now) ∧ SameFiles now.files old.files
  | .ok _ => after name = some (.directory ⟨normalized files, true⟩)

/-- All files can be written: no step of it fails, and no path goes on from another. -/
def Writable (files : List (Path × Bytes)) : Prop :=
  (∀ i < files.length, env.write i = none) ∧
    files.Pairwise fun file file' => conflicts file'.1 file.1 = false

/-- Once a repository of the name is removed nothing fails; where its removal fails, or its
successor cannot be read, its files are there. -/
def Spared (root : Root) (name : String) (files : List (String × Bytes)) : Prop :=
  ∀ old, root name = some (.directory old) → validate name files = .ok () →
    match env.removal with
    | some left => SameFiles left.files old.files
    | none => env.mkdtemp.isSome = true ∧ Writable env (normalized files) ∧
        env.gitFails = false ∧ env.renameFails = false ∧
        (env.record.toOption.isSome = true ∨ SameFiles (normalized files) old.files)

variable {env} {root : Root} {name suffix : String} {files : List (String × Bytes)}

/-! ### Names -/

@[simp] theorem Root.set_self (root : Root) (name : String) (entry : Option Entry) :
    root.set name entry name = entry := if_pos rfl

/-- A temporary directory is not in the place of a repository. -/
theorem Root.set_temporary (root : Root) (name suffix : String) (entry : Option Entry) :
    root.set (temporary name suffix) entry name = root name := by
  refine if_neg fun h => ?_
  have hlength := congrArg String.length h
  simp only [temporary, String.length_append] at hlength
  have hdot : ".".length = 1 := rfl
  omega

/-! ### Writing -/

/-- The files that can be written behind others. -/
theorem populate_eq_ok_iff {i : ℕ} {written todo result : List (Path × Bytes)} :
    populate env i written todo = .ok result ↔ result = written ++ todo ∧
      (∀ j < todo.length, env.write (i + j) = none) ∧
      (∀ file ∈ todo, ∀ other ∈ written, conflicts file.1 other.1 = false) ∧
      todo.Pairwise fun file file' => conflicts file'.1 file.1 = false := by
  induction todo generalizing i written with
  | nil =>
    rw [populate, Except.ok.injEq, List.append_nil]
    exact ⟨fun h => ⟨h.symm, by simp, by simp, List.Pairwise.nil⟩, fun h => h.1.symm⟩
  | cons file todo ih =>
    rw [populate]
    cases hwrite : env.write i with
    | some fault =>
      refine iff_of_false (fun h => by cases h) fun h => ?_
      have hfirst := h.2.1 0 (Nat.succ_pos _)
      rw [Nat.add_zero, hwrite] at hfirst
      cases hfirst
    | none =>
      dsimp only
      by_cases hany : (written.any fun other => conflicts file.1 other.1) = true
      · rw [if_pos hany]
        refine iff_of_false (fun h => by cases h) fun h => ?_
        obtain ⟨other, hother, hconflict⟩ := List.any_eq_true.mp hany
        rw [h.2.2.1 file List.mem_cons_self other hother] at hconflict
        cases hconflict
      · rw [if_neg hany, ih]
        have hfree : ∀ other ∈ written, conflicts file.1 other.1 = false := by simpa using hany
        rw [List.append_assoc, List.singleton_append, List.pairwise_cons]
        constructor
        · rintro ⟨hresult, hwrites, hbehind, hpairs⟩
          refine ⟨hresult, ?_, ?_, fun other hother => ?_, hpairs⟩
          · intro j hj
            cases j with
            | zero => exact hwrite
            | succ j =>
              rw [Nat.add_succ, ← Nat.succ_add]
              exact hwrites j (by simpa using hj)
          · intro other hother written' hwritten
            rcases List.mem_cons.mp hother with rfl | hother
            · exact hfree written' hwritten
            · exact hbehind other hother written' (List.mem_append_left _ hwritten)
          · exact hbehind other hother file (List.mem_append_right _ List.mem_cons_self)
        · rintro ⟨hresult, hwrites, hbehind, hfirst, hpairs⟩
          refine ⟨hresult, fun j hj => ?_, fun other hother written' hwritten => ?_, hpairs⟩
          · have hnext := hwrites (j + 1) (by simpa using hj)
            rwa [Nat.add_succ, ← Nat.succ_add] at hnext
          · rcases List.mem_append.mp hwritten with hwritten | hwritten
            · exact hbehind other (List.mem_cons_of_mem _ hother) written' hwritten
            · rw [List.mem_singleton.mp hwritten]
              exact hfirst other hother

/-- **The files of an import can be written** exactly when no step fails and no path goes on
from another. -/
theorem populate_eq_ok {todo result : List (Path × Bytes)} :
    populate env 0 [] todo = .ok result ↔ result = todo ∧ Writable env todo := by
  rw [populate_eq_ok_iff, Writable]
  simp

/-! ### An import -/

/-- What is under the name when the files were given their place, or were not. -/
theorem install_cases (root : Root) (name suffix : String) (files : List (Path × Bytes)) :
    (Writable env files ∧ env.gitFails = false ∧ env.renameFails = false ∧
        install env root name suffix files =
          (env.record, root.set name (some (.directory ⟨files, true⟩)))) ∨
      ¬ (Writable env files ∧ env.gitFails = false ∧ env.renameFails = false) ∧
        ∃ e after, install env root name suffix files = (.error e, after) ∧ after name = root name := by
  unfold install
  cases hpopulate : populate env 0 [] files with
  | error fault =>
    have hnot : ¬ Writable env files := by
      intro h
      rw [populate_eq_ok.mpr ⟨rfl, h⟩] at hpopulate
      cases hpopulate
    refine Or.inr ⟨fun h => hnot h.1, ?_⟩
    obtain ⟨_ | _, written⟩ := fault
    · exact ⟨_, _, rfl, root.set_temporary name suffix _⟩
    · exact ⟨_, _, rfl, root.set_temporary name suffix _⟩
  | ok written =>
    obtain ⟨rfl, hwritable⟩ := populate_eq_ok.mp hpopulate
    dsimp only
    by_cases hfails : (env.gitFails || env.renameFails) = true
    · rw [if_pos hfails]
      refine Or.inr ⟨fun h => ?_, _, _, rfl, root.set_temporary name suffix _⟩
      rw [h.2.1, h.2.2] at hfails
      cases hfails
    · rw [if_neg hfails]
      rw [Bool.not_eq_true, Bool.or_eq_false_iff] at hfails
      exact Or.inl ⟨hwritable, hfails.1, hfails.2, rfl⟩

theorem SameFiles.refl (files : List (Path × Bytes)) : SameFiles files files := fun _ => rfl

/-- An import that raises is faithful where it leaves what was there, and no other is that
leaves nothing of it. -/
theorem faithful_iff_of_error {e : ImportError} {after : Root}
    (h : importSnapshot env root name files = (.error e, after)) : Faithful env root name files ↔
      ∀ old, root name = some (.directory old) →
        ∃ now, after name = some (.directory now) ∧ SameFiles now.files old.files := by
  rw [Faithful, h]

theorem faithful_of_ok {record : ρ} {after : Root}
    (h : importSnapshot env root name files = (.ok record, after))
    (hafter : after name = some (.directory ⟨normalized files, true⟩)) : Faithful env root name files := by
  rw [Faithful, h]
  exact hafter

/-- An import over no repository is faithful. -/
theorem faithful_of_free (h : ∀ old, root name ≠ some (.directory old)) : Faithful env root name files := by
  cases hresult : importSnapshot env root name files with
  | mk result after =>
    cases result with
    | error e => exact (faithful_iff_of_error hresult).mpr fun old hold => absurd hold (h old)
    | ok record =>
      refine faithful_of_ok hresult ?_
      unfold importSnapshot at hresult
      cases hvalid : validate name files with
      | error e =>
        rw [hvalid] at hresult
        cases hresult
      | ok _ =>
        rw [hvalid] at hresult
        dsimp only at hresult
        cases hremoved : removed env root name with
        | error fault =>
          rw [hremoved] at hresult
          cases hresult
        | ok root' =>
          rw [hremoved] at hresult
          dsimp only at hresult
          cases hmkdtemp : env.mkdtemp with
          | none =>
            rw [hmkdtemp] at hresult
            cases hresult
          | some suffix =>
            rw [hmkdtemp] at hresult
            dsimp only at hresult
            rcases @install_cases _ env root' name suffix (normalized files) with
              ⟨-, -, -, hinstall⟩ | ⟨-, e, after', hinstall, -⟩
            · rw [hinstall] at hresult
              obtain ⟨-, rfl⟩ := Prod.mk.inj hresult
              exact root'.set_self name _
            · rw [hinstall] at hresult
              cases hresult

/-- **An import is faithful** exactly when the repository that it replaces is spared. -/
theorem faithful_iff (env : ImportEnv ρ) (root : Root) (name : String) (files : List (String × Bytes)) :
    Faithful env root name files ↔ Spared env root name files := by
  by_cases hold : ∃ old, root name = some (.directory old)
  · obtain ⟨old, hold⟩ := hold
    have hspared : Spared env root name files ↔ (validate name files = .ok () →
        match env.removal with
        | some left => SameFiles left.files old.files
        | none => env.mkdtemp.isSome = true ∧ Writable env (normalized files) ∧
            env.gitFails = false ∧ env.renameFails = false ∧
            (env.record.toOption.isSome = true ∨ SameFiles (normalized files) old.files)) := by
      refine ⟨fun h => h old hold, fun h old' hold' => ?_⟩
      obtain rfl := Entry.directory.inj (Option.some.inj (hold.symm.trans hold'))
      exact h
    rw [hspared]
    -- what the name has behind an import that raises
    have herror : ∀ {e : ImportError} {after : Root} {entry : Option Entry},
        importSnapshot env root name files = (.error e, after) → after name = entry →
        (Faithful env root name files ↔
          ∃ now, entry = some (.directory now) ∧ SameFiles now.files old.files) := by
      rintro e after _ himport rfl
      rw [faithful_iff_of_error himport]
      refine ⟨fun h => h old hold, fun h old' hold' => ?_⟩
      obtain rfl := Entry.directory.inj (Option.some.inj (hold.symm.trans hold'))
      exact h
    cases hvalid : validate name files with
    | error e =>
      have himport : importSnapshot env root name files = (.error e, root) := by
        rw [importSnapshot, hvalid]
      rw [herror himport hold]
      exact iff_of_true ⟨old, rfl, .refl _⟩ fun h => by cases h
    | ok _ =>
      rw [forall_prop_of_true rfl]
      cases hremoval : env.removal with
      | some left =>
        have himport : importSnapshot env root name files =
            (.error .osError, root.set name (some (.directory left))) := by
          rw [importSnapshot, hvalid]
          simp only [removed, hold, hremoval]
        rw [herror himport (root.set_self name _)]
        constructor
        · rintro ⟨now, hnow, hsame⟩
          obtain rfl := Entry.directory.inj (Option.some.inj hnow)
          exact hsame
        · exact fun h => ⟨left, rfl, h⟩
      | none =>
        have hremoved : removed env root name = .ok (root.set name none) := by
          simp only [removed, hold, hremoval]
        cases hmkdtemp : env.mkdtemp with
        | none =>
          have himport : importSnapshot env root name files = (.error .osError, root.set name none) := by
            rw [importSnapshot, hvalid]
            simp only [hremoved, hmkdtemp]
          rw [herror himport (root.set_self name _)]
          exact iff_of_false (fun ⟨now, hnow, _⟩ => by cases hnow) fun h => by cases h.1
        | some suffix =>
          have himport : importSnapshot env root name files =
              install env (root.set name none) name suffix (normalized files) := by
            rw [importSnapshot, hvalid]
            simp only [hremoved, hmkdtemp]
          rcases @install_cases _ env (root.set name none) name suffix (normalized files) with
            ⟨hwritable, hgit, hrename, hinstall⟩ | ⟨hnot, e, after, hinstall, hafter⟩
          · rw [hinstall] at himport
            have hname := (root.set name none).set_self name (some (.directory ⟨normalized files, true⟩))
            cases hrecord : env.record with
            | error e =>
              rw [hrecord] at himport
              rw [herror himport hname]
              constructor
              · rintro ⟨now, hnow, hsame⟩
                obtain rfl := Entry.directory.inj (Option.some.inj hnow)
                exact ⟨rfl, hwritable, hgit, hrename, Or.inr hsame⟩
              · rintro ⟨-, -, -, -, hnone | hsame⟩
                · cases hnone
                · exact ⟨_, rfl, hsame⟩
            | ok record =>
              rw [hrecord] at himport
              exact iff_of_true (faithful_of_ok himport hname) ⟨rfl, hwritable, hgit, hrename, Or.inl rfl⟩
          · rw [hinstall] at himport
            rw [herror himport (hafter.trans (root.set_self name none))]
            refine iff_of_false (fun ⟨now, hnow, _⟩ => by cases hnow) fun h => ?_
            exact hnot ⟨h.2.1, h.2.2.1, h.2.2.2.1⟩
  · have hfree : ∀ old, root name ≠ some (.directory old) := fun old h => hold ⟨old, h⟩
    exact iff_of_true (faithful_of_free hfree) fun old h => absurd h (hfree old)

/-! ### Files that cannot both be written -/

/-- A system on which nothing fails. -/
def steadyEnv : ImportEnv Unit where
  removal := none
  mkdtemp := some "x1"
  write _ := none
  gitFails := false
  renameFails := false
  leftover := none
  record := .ok ()

/-- An import root with one repository. -/
def demoRoot : Root := fun name =>
  if name = "demo" then some (.directory ⟨[(["README.md"], [104, 105])], true⟩) else none

/-- A file, and a file below it. -/
def clashingFiles : List (String × Bytes) := [("a", [49]), ("a/b", [50])]

/-- **A repository is lost** to an import of files that pass the checks and cannot both be
written. -/
theorem clashingFiles_lost :
    importSnapshot steadyEnv demoRoot "demo" clashingFiles =
      (.error (.catalog "repository_import_failed"),
        (demoRoot.set "demo" none).set (temporary "demo" "x1") none) ∧
      ¬ Faithful steadyEnv demoRoot "demo" clashingFiles := by
  have himport : importSnapshot steadyEnv demoRoot "demo" clashingFiles =
      (.error (.catalog "repository_import_failed"),
        (demoRoot.set "demo" none).set (temporary "demo" "x1") none) := by rfl
  refine ⟨himport, fun h => ?_⟩
  obtain ⟨now, hnow, -⟩ := (faithful_iff_of_error himport).mp h _ rfl
  cases hnow

end ImportSnapshot
end AiSaas
