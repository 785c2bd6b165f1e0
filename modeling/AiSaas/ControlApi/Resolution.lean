import AiSaas.ControlApi.Discovery
import Mathlib.Data.List.Pairwise

/-!
# What is found both ways

A repository that is listed is found from its path.  One that is found from a path is listed
when the search goes down to it.

## Main definitions

* `InReach` — the search from a root goes down to a path.
* `Reached` — a repository the search finds, with its record.
* `Listable` — the repositories that are found can be listed.

## Main results

* `mem_walk` — what a search finds.
* `resolve_eq_ok`, `resolve_listed` — what is found from a path.
* `resolve_discovers` — when both ways agree on a repository.
-/

namespace AiSaas
namespace Discovery

open Transaction
open ProjectPacks (PurePath purePath joinParts purePath_joinParts)

variable {host : Host} {fs : FileSystem} {catalog : LocalRepositoryCatalog fs}
  {path path' root d : Path} {name : String}

/-! ### Paths -/

/-- Parts that a path of the system can have. -/
def Named (path : Path) : Prop := ∀ part ∈ path, part ≠ "" ∧ '/' ∉ part.toList ∧ part ≠ "." ∧ part ≠ ".."

theorem named_of_kind (h : (fs.kind path).isSome = true) : Named path := by
  induction path using List.reverseRecOn with
  | nil => exact fun part hpart => absurd hpart List.not_mem_nil
  | append_singleton path name ih =>
    have hparent := fs.kind_parent path name h
    have habove : Named path := ih (by rw [hparent]; rfl)
    exact List.forall_mem_append.mpr ⟨habove, List.forall_mem_singleton.mpr (fs.named path name h)⟩

/-- What is above a directory is a directory. -/
theorem directory_of_above (h : fs.kind path = some .directory) (hd : d <+: path) :
    fs.kind d = some .directory := by
  induction path using List.reverseRecOn with
  | nil => rw [List.prefix_nil.mp hd, h]
  | append_singleton path name ih =>
    rcases List.prefix_concat_iff.mp hd with rfl | hd
    · exact h
    · exact ih (fs.kind_parent path name (by rw [h]; rfl)) hd

/-- A path as its names, each behind a slash. -/
theorem toList_pathText (hne : path ≠ []) :
    (pathText path).toList = path.flatMap fun part => '/' :: part.toList := by
  have hjoin : ∀ names : List (List Char), names ≠ [] →
      '/' :: List.intercalate ['/'] names = names.flatMap fun name => '/' :: name := by
    intro names hne
    induction names with
    | nil => exact absurd rfl hne
    | cons name names ih =>
      cases names with
      | nil => simp [List.intercalate]
      | cons other names =>
        rw [List.flatMap_cons, ← ih (List.cons_ne_nil _ _)]
        simp [List.intercalate]
  rw [pathText, String.toList_append, joinParts]
  have hnames : path.map String.toList ≠ [] := by simpa using hne
  rw [← List.flatMap_map, ← hjoin _ hnames]
  exact congrArg _ String.toList_ofList

theorem head_pathText (path : Path) : ∃ rest, (pathText path).toList = '/' :: rest :=
  ⟨(joinParts path).toList, String.toList_append ..⟩

/-- No two slashes follow one another. -/
theorem not_slashes (h : Named path) : ¬ ['/', '/'] <:+: (pathText path).toList := by
  have hskip : ∀ (name rest : List Char), '/' ∉ name → ['/', '/'] <:+: name ++ rest → ['/', '/'] <:+: rest := by
    intro name rest hname hinfix
    induction name with
    | nil => exact hinfix
    | cons c name ih =>
      rcases List.infix_cons_iff.mp hinfix with hfirst | hinfix
      · obtain ⟨rfl, -⟩ := List.cons_prefix_cons.mp hfirst
        exact absurd List.mem_cons_self hname
      · exact ih (fun hmem => hname (List.mem_cons_of_mem c hmem)) hinfix
  cases path with
  | nil => decide
  | cons part path =>
    rw [toList_pathText (List.cons_ne_nil part path)]
    generalize part :: path = path at h
    induction path with
    | nil => simp
    | cons part path ih =>
      obtain ⟨hpart, h⟩ := List.forall_mem_cons.mp h
      rw [List.flatMap_cons, List.cons_append]
      intro hinfix
      rcases List.infix_cons_iff.mp hinfix with hfirst | hinfix
      · have hsecond := (List.cons_prefix_cons.mp hfirst).2
        cases hchars : part.toList with
        | nil => exact hpart.1 (String.toList_inj.mp hchars)
        | cons c chars =>
          rw [hchars, List.cons_append] at hsecond
          obtain ⟨rfl, -⟩ := List.cons_prefix_cons.mp hsecond
          exact hpart.2.1 (hchars ▸ List.mem_cons_self)
      · exact ih h (hskip _ _ hpart.2.1 hinfix)

/-- **A path is read as it is written.** -/
theorem purePath_pathText (h : Named path) : purePath (pathText path) = ⟨"/", path⟩ := by
  have hslashes := not_slashes h
  obtain ⟨rest, hrest⟩ := head_pathText path
  have hroot : (purePath (pathText path)).root = "/" := by
    rw [purePath, hrest]
    rw [hrest] at hslashes
    cases rest with
    | nil => rfl
    | cons c rest =>
      have hc : c ≠ '/' := fun hc => hslashes ⟨[], rest, by rw [hc]; rfl⟩
      simp [hc]
  have hparts : (purePath (pathText path)).parts = path := by
    cases path with
    | nil => decide
    | cons part path =>
      refine (?_ : _ = (purePath (joinParts (part :: path))).parts).trans
        (purePath_joinParts h (List.cons_ne_nil part path))
      have hsplit : (pathText (part :: path)).toList.splitOn '/' =
          [] :: (joinParts (part :: path)).toList.splitOn '/' := by
        rw [pathText, String.toList_append]
        exact List.splitOn_append_cons_self [] _
      rw [purePath, purePath, hsplit]
      rfl
  calc purePath (pathText path) = ⟨(purePath (pathText path)).root, (purePath (pathText path)).parts⟩ := rfl
    _ = ⟨"/", path⟩ := by rw [hroot, hparts]

theorem pathText_inj (h : Named path) (h' : Named path') (heq : pathText path = pathText path') : path = path' := by
  have hpure := congrArg PurePath.parts (congrArg purePath heq)
  rwa [purePath_pathText h, purePath_pathText h'] at hpure

theorem not_remote (h : Named path) : remote (pathText path) = false := by
  obtain ⟨rest, hrest⟩ := head_pathText path
  rw [remote, Bool.or_eq_false_iff, contains, decide_eq_false_iff_not, hrest]
  refine ⟨fun hinfix => not_slashes h ?_, rfl⟩
  rw [hrest]
  exact List.IsInfix.trans ⟨[':'], [], rfl⟩ hinfix

theorem not_blank (path : Path) : blank (pathText path) = false := by
  obtain ⟨rest, hrest⟩ := head_pathText path
  rw [blank, hrest]
  rfl

theorem abspath_named (h : Named path) : abspath ⟨"/", path⟩ = ⟨"/", path⟩ := by
  have hfold : ∀ (l parts : List String), Named l →
      l.foldl (fun parts part => if part = ".." then parts.dropLast else parts ++ [part]) parts = parts ++ l := by
    intro l
    induction l with
    | nil => exact fun parts _ => (List.append_nil parts).symm
    | cons part l ih =>
      intro parts hl
      obtain ⟨hpart, hl⟩ := List.forall_mem_cons.mp hl
      rw [List.foldl_cons, if_neg hpart.2.2.2, ih _ hl, List.append_assoc, List.singleton_append]
  exact congrArg _ (hfold path [] h)

/-! ### Up from a path -/

/-- A repository below a root: it is marked, and nothing above it is. -/
structure Standing (fs : FileSystem) (root : Path) (below : List String) : Prop where
  directory : fs.kind (root ++ below) = some .directory
  marked : markerOf fs (root ++ below) = .repository
  clear : ∀ above, above <+: below → above ≠ below → markerOf fs (root ++ above) = .none

/-- What one turn upwards adds. -/
def own (fs : FileSystem) (path : Path) : List Path := if markerOf fs path = .repository then [path] else []

theorem mem_own : path' ∈ own fs path ↔ path' = path ∧ markerOf fs path = .repository := by
  rw [own]
  split
  · next h => rw [List.mem_singleton, and_iff_left h]
  · next h => exact iff_of_false List.not_mem_nil fun hown => h hown.2

theorem ascend_eq_ok {backwards : List String} {above : Except Raised (List Path)} {result : List Path}
    (hroot : root <+: backwards.reverse) :
    gitAncestors.ascend fs root backwards above = .ok result ↔ markerOf fs backwards.reverse ≠ .symlink ∧
      if backwards.reverse = root then own fs backwards.reverse = result
      else ∃ more, above = .ok more ∧ own fs backwards.reverse ++ more = result := by
  have hinside : inside backwards.reverse root = true := List.isPrefixOf_iff_prefix.mpr hroot
  rw [gitAncestors.ascend]
  dsimp only
  rw [if_pos hinside]
  split
  · next hmarker => exact iff_of_false (fun h => nomatch h) fun h => h.1 hmarker
  · next hmarker =>
    rw [and_iff_right fun h => hmarker h, ← own]
    split
    · exact ⟨Except.ok.inj, fun h => by rw [h]; rfl⟩
    · simp only [bind_eq_ok, pure, Except.pure, Except.ok.injEq]

theorem gitAncestors_root {result : List Path} : gitAncestors fs root root.reverse = .ok result ↔
    markerOf fs root ≠ .symlink ∧ own fs root = result := by
  have hascend : ∃ above, gitAncestors fs root root.reverse =
      gitAncestors.ascend fs root root.reverse above := by
    cases root.reverse with
    | nil => exact ⟨_, rfl⟩
    | cons name above => exact ⟨_, rfl⟩
  obtain ⟨above, heq⟩ := hascend
  rw [heq, ascend_eq_ok (by rw [List.reverse_reverse]), List.reverse_reverse, if_pos rfl]

theorem gitAncestors_below {below : List String} {result : List Path} :
    gitAncestors fs root (root ++ (below ++ [name])).reverse = .ok result ↔
      markerOf fs (root ++ (below ++ [name])) ≠ .symlink ∧
      ∃ more, gitAncestors fs root (root ++ below).reverse = .ok more ∧
        own fs (root ++ (below ++ [name])) ++ more = result := by
  have hbackwards : (root ++ (below ++ [name])).reverse = name :: (root ++ below).reverse := by simp
  rw [hbackwards, gitAncestors, ← hbackwards, ascend_eq_ok (by rw [List.reverse_reverse]; exact List.prefix_append _ _),
    List.reverse_reverse, if_neg (by simp)]

/-- What is found on the way up to the root, where no link is met. -/
theorem gitAncestors_eq_ok {below : List String} {result : List Path}
    (h : gitAncestors fs root (root ++ below).reverse = .ok result) :
    (∀ above, above <+: below → markerOf fs (root ++ above) ≠ .symlink) ∧
      ∀ path, path ∈ result ↔ ∃ above, above <+: below ∧ path = root ++ above ∧
        markerOf fs (root ++ above) = .repository := by
  induction below using List.reverseRecOn generalizing result with
  | nil =>
    rw [List.append_nil] at h
    obtain ⟨hmarker, rfl⟩ := gitAncestors_root.mp h
    simp only [List.prefix_nil, forall_eq, exists_eq_left, List.append_nil]
    exact ⟨hmarker, fun path => mem_own⟩
  | append_singleton below name ih =>
    obtain ⟨hmarker, more, hmore, rfl⟩ := gitAncestors_below.mp h
    obtain ⟨hlinks, hmem⟩ := ih hmore
    simp only [List.prefix_concat_iff]
    refine ⟨?_, fun path => ?_⟩
    · rintro above (rfl | habove)
      · exact hmarker
      · exact hlinks above habove
    · rw [List.mem_append, mem_own, hmem]
      constructor
      · rintro (⟨rfl, hown⟩ | ⟨above, habove, hpath⟩)
        · exact ⟨below ++ [name], Or.inl rfl, rfl, hown⟩
        · exact ⟨above, Or.inr habove, hpath⟩
      · rintro ⟨above, rfl | habove, hpath, hown⟩
        · exact Or.inl ⟨hpath, hown⟩
        · exact Or.inr ⟨above, habove, hpath, hown⟩

/-- Where nothing is marked nothing is found. -/
theorem gitAncestors_clear {below : List String} (h : ∀ above, above <+: below → markerOf fs (root ++ above) = .none) :
    gitAncestors fs root (root ++ below).reverse = .ok [] := by
  have hown : ∀ above, above <+: below → own fs (root ++ above) = [] := by
    intro above habove
    rw [own, if_neg (by rw [h above habove]; decide)]
  induction below using List.reverseRecOn with
  | nil =>
    have hnone := h [] (List.prefix_refl [])
    have hempty := hown [] (List.prefix_refl [])
    rw [List.append_nil] at hnone hempty ⊢
    exact gitAncestors_root.mpr ⟨by rw [hnone]; decide, hempty⟩
  | append_singleton below name ih =>
    have hself := List.prefix_refl (below ++ [name])
    have hup : ∀ above, above <+: below → above <+: below ++ [name] := fun above habove =>
      habove.trans (List.prefix_append below [name])
    refine gitAncestors_below.mpr ⟨by rw [h _ hself]; decide, [], ?_, by rw [hown _ hself]; rfl⟩
    exact ih (fun above habove => h above (hup above habove)) fun above habove => hown above (hup above habove)

/-- From a repository itself only the repository is found. -/
theorem Standing.gitAncestors_eq {below : List String} (h : Standing fs root below) :
    gitAncestors fs root (root ++ below).reverse = .ok [root ++ below] := by
  have hself : own fs (root ++ below) = [root ++ below] := if_pos h.marked
  have hlink : markerOf fs (root ++ below) ≠ .symlink := by rw [h.marked]; decide
  cases below using List.reverseRecOn with
  | nil =>
    rw [List.append_nil] at hself hlink ⊢
    exact gitAncestors_root.mpr ⟨hlink, hself⟩
  | append_singleton below name =>
    refine gitAncestors_below.mpr ⟨hlink, [], gitAncestors_clear fun above habove => ?_, by rw [hself]; rfl⟩
    refine h.clear above (habove.trans (List.prefix_append below [name])) fun heq => ?_
    have hlength := congrArg List.length heq
    have hle := habove.length_le
    rw [List.length_append, List.length_singleton] at hlength
    omega

/-- What is found alone from a directory is a repository above it. -/
theorem standing_of_gitAncestors {below : List String} {marked : Path}
    (hdirectory : fs.kind (root ++ below) = some .directory)
    (h : gitAncestors fs root (root ++ below).reverse = .ok [marked]) :
    ∃ above, marked = root ++ above ∧ Standing fs root above := by
  obtain ⟨hlinks, hmem⟩ := gitAncestors_eq_ok h
  obtain ⟨above, habove, rfl, hmarked⟩ := (hmem marked).mp (List.mem_singleton_self marked)
  refine ⟨above, rfl, directory_of_above hdirectory ((List.prefix_append_right_inj root).mpr habove), hmarked, ?_⟩
  intro higher hhigher hne
  have hup := hhigher.trans habove
  cases hmarker : markerOf fs (root ++ higher) with
  | symlink => exact absurd hmarker (hlinks higher hup)
  | repository =>
    have hsame := List.mem_singleton.mp ((hmem _).mpr ⟨higher, hup, rfl, hmarker⟩)
    exact absurd (List.append_cancel_left hsame) hne
  | none => rfl

/-! ### Down from a root -/

/-- The search from a root goes down to a path below it. -/
structure InReach (catalog : LocalRepositoryCatalog fs) (root : Path) (below : List String) : Prop where
  shallow : below.length ≤ catalog.maxDepth
  shown : ∀ name ∈ below, hidden name = false
  listed : ∀ above, above <+: below → above ≠ below → (fs.scandir (root ++ above)).isSome = true

theorem mem_subdirectories : name ∈ subdirectories fs path ↔ (fs.scandir path).isSome = true ∧
    hidden name = false ∧ fs.kind (path ++ [name]) = some .directory := by
  unfold subdirectories
  cases hscan : fs.scandir path with
  | none => exact iff_of_false List.not_mem_nil fun h => nomatch h.1
  | some names =>
    dsimp only
    rw [List.mem_filter, List.mem_mergeSort, fs.mem_scandir path names hscan, Bool.and_eq_true,
      Bool.not_eq_true', beq_iff_eq]
    constructor
    · rintro ⟨-, hname, hkind⟩
      exact ⟨rfl, hname, hkind⟩
    · rintro ⟨-, hname, hkind⟩
      exact ⟨by rw [hkind]; rfl, hname, hkind⟩

theorem nodup_subdirectories (path : Path) : (subdirectories fs path).Nodup := by
  unfold subdirectories
  cases hscan : fs.scandir path with
  | none => exact List.nodup_nil
  | some names => exact ((List.mergeSort_perm _ _).nodup_iff.mpr (fs.nodup_scandir path names hscan)).filter _

/-- The names by which a search goes down from a directory to a repository. -/
def Trail (fs : FileSystem) (maxDepth : ℕ) : Path → ℕ → List String → Prop
  | d, _, [] => markerOf fs d = .repository
  | d, depth, name :: below => markerOf fs d = .none ∧ depth < maxDepth ∧ name ∈ subdirectories fs d ∧
    Trail fs maxDepth (d ++ [name]) (depth + 1) below

theorem trail_of_shows {maxDepth : ℕ} {entry : Path × ℕ} (h : Search.Shows (visit fs maxDepth) entry path) :
    ∃ below, path = entry.1 ++ below ∧ Trail fs maxDepth entry.1 entry.2 below := by
  induction h with
  | @here entry path h =>
    obtain ⟨d, depth⟩ := entry
    rw [visit] at h
    split at h
    · cases h
    · next hmarker => exact ⟨[], by rw [List.mem_singleton.mp h, List.append_nil], hmarker⟩
    · split at h <;> cases h
  | @further entry entry' path h _ ih =>
    obtain ⟨d, depth⟩ := entry
    rw [visit] at h
    split at h
    · cases h
    · cases h
    · next hmarker =>
      split at h
      · cases h
      · next hdepth =>
        obtain ⟨name, hname, rfl⟩ := List.mem_map.mp h
        obtain ⟨below, rfl, htrail⟩ := ih
        refine ⟨name :: below, by simp, hmarker, Nat.not_le.mp hdepth, hname, htrail⟩

theorem shows_of_trail {maxDepth depth : ℕ} {below : List String} (h : Trail fs maxDepth d depth below) :
    Search.Shows (visit fs maxDepth) (d, depth) (d ++ below) := by
  induction below generalizing d depth with
  | nil =>
    refine .here ?_
    rw [visit, show markerOf fs d = .repository from h, List.append_nil]
    exact List.mem_singleton_self d
  | cons name below ih =>
    obtain ⟨hmarker, hdepth, hname, htrail⟩ := h
    refine .further (?_ : (d ++ [name], depth + 1) ∈ _) ?_
    · rw [visit, hmarker]
      dsimp only
      rw [if_neg (Nat.not_le.mpr hdepth)]
      exact List.mem_map_of_mem hname
    · rw [show d ++ name :: below = d ++ [name] ++ below by simp]
      exact ih htrail

/-- **A trail leads to a repository** with nothing marked above it, past shown names, down to
the limited depth, through directories that can be listed. -/
theorem trail_iff {maxDepth depth : ℕ} {below : List String} (hdepth : depth ≤ maxDepth)
    (hd : fs.kind d = some .directory) : Trail fs maxDepth d depth below ↔
      Standing fs d below ∧ depth + below.length ≤ maxDepth ∧ (∀ name ∈ below, hidden name = false) ∧
        ∀ above, above <+: below → above ≠ below → (fs.scandir (d ++ above)).isSome = true := by
  induction below generalizing d depth with
  | nil =>
    have hnone : ∀ above : List String, above <+: [] → above ≠ [] → False := fun above habove hne =>
      hne (List.prefix_nil.mp habove)
    have hself : d ++ [] = d := List.append_nil d
    constructor
    · intro h
      refine ⟨⟨by rw [hself, hd], by rw [hself]; exact h, fun above habove hne => (hnone above habove hne).elim⟩,
        hdepth, fun name hname => absurd hname List.not_mem_nil,
        fun above habove hne => (hnone above habove hne).elim⟩
    · rintro ⟨hstanding, -⟩
      have hmarked := hstanding.marked
      rwa [hself] at hmarked
  | cons name below ih =>
    have hbelow : d ++ name :: below = d ++ [name] ++ below := by simp
    have habove : ∀ P : List String → Prop, (∀ above, above <+: name :: below → above ≠ name :: below → P above) ↔
        P [] ∧ ∀ above, above <+: below → above ≠ below → P (name :: above) := by
      intro P
      constructor
      · intro h
        refine ⟨h [] List.nil_prefix (List.cons_ne_nil _ _).symm, fun above habove hne => ?_⟩
        exact h _ (List.cons_prefix_cons.mpr ⟨rfl, habove⟩) fun heq => hne (List.cons.inj heq).2
      · rintro ⟨hnil, hcons⟩ above habove hne
        cases above with
        | nil => exact hnil
        | cons other above =>
          obtain ⟨rfl, hrest⟩ := List.cons_prefix_cons.mp habove
          exact hcons above hrest fun heq => hne (by rw [heq])
    have hcons : ∀ above : List String, d ++ name :: above = d ++ [name] ++ above := fun above => by simp
    rw [Trail, mem_subdirectories, habove]
    constructor
    · rintro ⟨hmarker, hlt, ⟨hscan, hname, hkind⟩, htrail⟩
      obtain ⟨hstanding, hlength, hshown, hlisted⟩ := (ih hlt hkind).mp htrail
      refine ⟨⟨hbelow ▸ hstanding.directory, hbelow ▸ hstanding.marked, (habove _).mpr ⟨?_, ?_⟩⟩, ?_,
        List.forall_mem_cons.mpr ⟨hname, hshown⟩, ?_, ?_⟩
      · rw [List.append_nil, hmarker]
      · intro above hup hne
        rw [hcons]
        exact hstanding.clear above hup hne
      · rw [List.length_cons]
        omega
      · rw [List.append_nil, hscan]
      · intro above hup hne
        rw [hcons]
        exact hlisted above hup hne
    · rintro ⟨⟨hdirectory, hmarked, hclear⟩, hlength, hshown, hscan, hlisted⟩
      obtain ⟨hname, hshown⟩ := List.forall_mem_cons.mp hshown
      obtain ⟨hmarker, hclear⟩ := (habove _).mp hclear
      rw [List.length_cons] at hlength
      rw [List.append_nil] at hmarker hscan
      rw [hbelow] at hdirectory hmarked
      have hclear : ∀ above, above <+: below → above ≠ below → markerOf fs (d ++ [name] ++ above) = .none :=
        fun above hup hne => hcons above ▸ hclear above hup hne
      have hlisted : ∀ above, above <+: below → above ≠ below → (fs.scandir (d ++ [name] ++ above)).isSome = true :=
        fun above hup hne => hcons above ▸ hlisted above hup hne
      have hkind : fs.kind (d ++ [name]) = some .directory :=
        directory_of_above hdirectory (List.prefix_append _ _)
      exact ⟨hmarker, by omega, ⟨hscan, hname, hkind⟩,
        (ih (by omega) hkind).mpr ⟨⟨hdirectory, hmarked, hclear⟩, by omega, hshown, hlisted⟩⟩

/-- A search ends where there are few directories. -/
theorem walk_ends (hsmall : Small catalog) (hroot : root ∈ catalog.roots) : (walk catalog root).2 = false := by
  obtain ⟨paths, hlength, hpaths⟩ := hsmall
  have hmem := hpaths root hroot
  refine Search.search_ends (fun entry => root <+: entry.1 ∧ fs.kind entry.1 = some .directory)
    (fun entry => Search.extensions paths entry.1) ?_ ?_ ?_
  · rintro ⟨d, depth⟩ ⟨hd, hkind⟩
    have hpos : 0 < Search.extensions paths d :=
      List.countP_pos_iff.mpr ⟨d, hmem d hd hkind, decide_eq_true (List.prefix_refl d)⟩
    rw [visit]
    split
    · exact ⟨fun _ h => absurd h List.not_mem_nil, hpos⟩
    · exact ⟨fun _ h => absurd h List.not_mem_nil, hpos⟩
    · split
      · exact ⟨fun _ h => absurd h List.not_mem_nil, hpos⟩
      · refine ⟨fun entry hentry => ?_, ?_⟩
        · obtain ⟨name, hname, rfl⟩ := List.mem_map.mp hentry
          exact ⟨hd.trans (List.prefix_append d [name]), (mem_subdirectories.mp hname).2.2⟩
        · rw [List.map_map]
          exact Search.sum_extensions_lt (nodup_subdirectories d) (hmem d hd hkind)
  · exact List.forall_mem_singleton.mpr ⟨List.prefix_refl root, catalog.directory root hroot⟩
  · rw [List.map_singleton, List.sum_singleton]
    exact (List.countP_le_length).trans (Nat.le_of_lt hlength)

/-- **What a search finds**: the repositories it goes down to. -/
theorem mem_walk (hends : (walk catalog root).2 = false) (hroot : root ∈ catalog.roots) :
    path ∈ (walk catalog root).1 ↔ ∃ below, path = root ++ below ∧ Standing fs root below ∧
      InReach catalog root below := by
  have htrail : ∀ below, Trail fs catalog.maxDepth root 0 below ↔
      Standing fs root below ∧ InReach catalog root below := by
    intro below
    rw [trail_iff (Nat.zero_le _) (catalog.directory root hroot), Nat.zero_add]
    exact and_congr_right fun _ => ⟨fun h => ⟨h.1, h.2.1, h.2.2⟩, fun h => ⟨h.1, h.2, h.3⟩⟩
  rw [walk, Search.mem_search hends]
  constructor
  · rintro ⟨entry, hentry, hshows⟩
    obtain rfl := List.mem_singleton.mp hentry
    obtain ⟨below, hpath, h⟩ := trail_of_shows hshows
    exact ⟨below, hpath, (htrail below).mp h⟩
  · rintro ⟨below, rfl, h⟩
    exact ⟨(root, 0), List.mem_singleton_self _, shows_of_trail ((htrail below).mpr h)⟩

/-! ### Records -/

/-- Of two roots none is inside the other. -/
theorem eq_of_apart (hroot : root ∈ catalog.roots) {root' : Path} (hroot' : root' ∈ catalog.roots)
    (h : root <+: path) (h' : root' <+: path) : root = root' := by
  by_contra hne
  have hsymm : Std.Symm fun left right : Path => ¬ left <+: right ∧ ¬ right <+: left := ⟨fun _ _ h => ⟨h.2, h.1⟩⟩
  obtain ⟨hleft, hright⟩ := catalog.apart.forall hroot hroot' hne
  exact (List.prefix_or_prefix_of_prefix h h').elim hleft hright

/-- What is raised is a `RepositoryCatalogError`. -/
def Caught {α : Type} (x : Except Raised α) : Prop := ∀ e, x = .error e → ∃ code, e = .catalog code

theorem caught_ok {α : Type} (a : α) : Caught (.ok a : Except Raised α) := fun _ h => nomatch h

theorem Caught.bind {α β : Type} {x : Except Raised α} {f : α → Except Raised β} (hx : Caught x)
    (hf : ∀ a, Caught (f a)) : Caught (x >>= f) := by
  intro e h
  cases x with
  | error e' => exact hx e (congrArg _ (Except.error.inj h))
  | ok a => exact hf a e h

theorem caught_ensure (c : Bool) (code : String) : Caught (ensure c (.catalog code)) := by
  intro e h
  cases c with
  | true => cases h
  | false => exact ⟨code, (Except.error.inj h).symm⟩

theorem caught_orRaise {α : Type} (x : Option α) (code : String) : Caught (orRaise x (.catalog code)) := by
  intro e h
  cases x with
  | some a => cases h
  | none => exact ⟨code, (Except.error.inj h).symm⟩

theorem caught_git (path : Path) (operation : GitOperation) : Caught (git host path operation) := by
  intro e h
  unfold git at h
  split at h
  · cases h
  · next code _ => exact ⟨code, (Except.error.inj h).symm⟩

theorem caught_gitMetadata (path : Path) : Caught (gitMetadata host fs path) :=
  (caught_git path .topLevel).bind fun _ => (caught_orRaise _ _).bind fun _ => (caught_git path .branch).bind
    fun _ => (caught_git path .head).bind fun _ => (caught_git path .status).bind fun _ => caught_ok _

/-- What a record of a directory says. -/
theorem record_eq_ok {found : RepositoryRecord} (hkind : fs.kind path = some .directory)
    (h : record host fs path root = .ok found) : found.canonicalPath = pathText path ∧ found.name = pathName path := by
  unfold record at h
  rw [fs.resolve_directory path hkind] at h
  obtain ⟨canonical, hcanonical, h⟩ := bind_eq_ok.mp h
  obtain rfl := Except.ok.inj hcanonical
  obtain ⟨-, -, h⟩ := bind_eq_ok.mp h
  obtain ⟨metadata, -, h⟩ := bind_eq_ok.mp h
  obtain ⟨-, -, h⟩ := bind_eq_ok.mp h
  obtain rfl := Except.ok.inj h
  exact ⟨rfl, rfl⟩

/-- What a record of a directory raises is caught. -/
theorem caught_record (hkind : fs.kind path = some .directory) : Caught (record host fs path root) := by
  unfold record
  rw [fs.resolve_directory path hkind]
  exact (caught_ok path).bind fun _ => (caught_ensure _ _).bind fun _ => (caught_gitMetadata _).bind
    fun _ => (caught_ensure _ _).bind fun _ => caught_ok _

/-! ### What is listed -/

/-- A repository that a search goes down to, with its record. -/
def Found (host : Host) (catalog : LocalRepositoryCatalog fs) (found : RepositoryRecord) : Prop :=
  ∃ root ∈ catalog.roots, ∃ below, Standing fs root below ∧ InReach catalog root below ∧
    record host fs (root ++ below) root = .ok found

/-- The repositories that are found can be listed: they have different ids, and they are not
too many. -/
structure Listable (host : Host) (catalog : LocalRepositoryCatalog fs) : Prop where
  distinct : ∀ found other, Found host catalog found → Found host catalog other →
    found.repositoryId = other.repositoryId → found = other
  few : ∀ records : List RepositoryRecord, records.Nodup → (∀ found ∈ records, Found host catalog found) →
    records.length ≤ catalog.maxRepositories

/-- Records by their ids, not too many. -/
structure Gathered (catalog : LocalRepositoryCatalog fs) (records : List (String × RepositoryRecord)) : Prop where
  nodup : (records.map Prod.fst).Nodup
  keyed : ∀ entry ∈ records, entry.2.repositoryId = entry.1
  few : records.length ≤ catalog.maxRepositories

variable {records records' : List (String × RepositoryRecord)} {found : RepositoryRecord}
  {wanted : Option String} {candidate : Path} {pairs : List (Path × Path)}

/-- The candidate has the name that is asked for. -/
def Wanted (wanted : Option String) (candidate : Path) : Prop := ∀ name ∈ wanted, pathName candidate = name

/-- **What one candidate adds**: its record, if it is asked for and has one. -/
theorem include?_eq_ok (h : include? host catalog wanted root records candidate = .ok records')
    (hgathered : Gathered catalog records) : Gathered catalog records' ∧ ∀ entry, entry ∈ records' ↔
      entry ∈ records ∨ Wanted wanted candidate ∧ ∃ found, record host fs candidate root = .ok found ∧
        entry = (found.repositoryId, found) := by
  have hnone : (¬ ∃ found, Wanted wanted candidate ∧ record host fs candidate root = .ok found) →
      ∀ entry, entry ∈ records ↔ entry ∈ records ∨ Wanted wanted candidate ∧
        ∃ found, record host fs candidate root = .ok found ∧ entry = (found.repositoryId, found) := by
    intro hnone entry
    refine (or_iff_left ?_).symm
    rintro ⟨hwanted, found, hfound, -⟩
    exact hnone ⟨found, hwanted, hfound⟩
  unfold include? at h
  split at h
  · next hname =>
    obtain rfl := Except.ok.inj h
    refine ⟨hgathered, hnone ?_⟩
    rintro ⟨found, hwanted, -⟩
    cases wanted with
    | none => cases hname
    | some name => exact of_decide_eq_true hname (hwanted name rfl)
  · next hname =>
    split at h
    · next code hrecord =>
      split at h
      · cases h
      · obtain rfl := Except.ok.inj h
        refine ⟨hgathered, hnone ?_⟩
        rintro ⟨found, -, hfound⟩
        rw [hrecord] at hfound
        cases hfound
    · cases h
    · next found hrecord =>
      simp only [bind_eq_ok, ensure_eq_ok, decide_eq_true_eq, pure, Except.pure, Except.ok.injEq] at h
      obtain ⟨-, hsame, -, hfew, rfl⟩ := h
      have hwanted : Wanted wanted candidate := by
        rintro name hmem
        by_contra hne
        refine hname ?_
        rw [Option.mem_def.mp hmem]
        exact decide_eq_true hne
      have hmem : ∀ entry, entry ∈ Dicts.assign found.repositoryId found records ↔
          entry ∈ records ∨ entry = (found.repositoryId, found) := by
        rintro ⟨id, other⟩
        rw [Dicts.mem_assign hgathered.nodup]
        constructor
        · rintro (⟨rfl, rfl⟩ | ⟨-, hentry⟩)
          · exact Or.inr rfl
          · exact Or.inl hentry
        · rintro (hentry | heq)
          · by_cases hid : id = found.repositoryId
            · subst hid
              have hlookup := (Dicts.lookup_eq_some_iff_mem hgathered.nodup).mpr hentry
              rw [hlookup] at hsame
              exact Or.inl ⟨rfl, of_decide_eq_true hsame⟩
            · exact Or.inr ⟨hid, hentry⟩
          · obtain ⟨rfl, rfl⟩ := Prod.mk.inj heq
            exact Or.inl ⟨rfl, rfl⟩
      refine ⟨⟨Dicts.nodup_assign hgathered.nodup, fun entry hentry => ?_, hfew⟩, fun entry => ?_⟩
      · rcases (hmem entry).mp hentry with hentry | rfl
        · exact hgathered.keyed entry hentry
        · rfl
      · rw [hmem, and_iff_right hwanted]
        refine or_congr_right ⟨fun heq => ⟨found, hrecord, heq⟩, ?_⟩
        rintro ⟨other, hother, heq⟩
        rw [hrecord] at hother
        obtain rfl := Except.ok.inj hother
        exact heq

/-- The candidates of all searches, with their roots. -/
def candidates (catalog : LocalRepositoryCatalog fs) : List (Path × Path) :=
  catalog.roots.flatMap fun root => (walk catalog root).1.map fun candidate => (candidate, root)

/-- One candidate after the other. -/
def includeAll (host : Host) (catalog : LocalRepositoryCatalog fs) (wanted : Option String)
    (pairs : List (Path × Path)) (records : List (String × RepositoryRecord)) :
    Except Raised (List (String × RepositoryRecord)) :=
  pairs.foldlM (fun records pair => include? host catalog wanted pair.2 records pair.1) records

/-- Root after root is candidate after candidate. -/
theorem foldlM_includeRoot (hsmall : Small catalog) : catalog.roots.foldlM (includeRoot host catalog wanted) records =
    includeAll host catalog wanted (candidates catalog) records := by
  have hroots : ∀ roots : List Path, (∀ root ∈ roots, root ∈ catalog.roots) → ∀ records,
      roots.foldlM (includeRoot host catalog wanted) records = includeAll host catalog wanted
        (roots.flatMap fun root => (walk catalog root).1.map fun candidate => (candidate, root)) records := by
    intro roots
    induction roots with
    | nil => exact fun _ _ => rfl
    | cons root roots ih =>
      intro hmem records
      obtain ⟨hroot, hmem⟩ := List.forall_mem_cons.mp hmem
      have hone : includeRoot host catalog wanted records root =
          (walk catalog root).1.foldlM (include? host catalog wanted root) records := by
        rw [includeRoot, walk_ends hsmall hroot]
        exact bind_pure _
      rw [List.foldlM_cons, List.flatMap_cons, includeAll, List.foldlM_append, List.foldlM_map, hone]
      exact bind_congr fun records => ih hmem records
  exact hroots catalog.roots (fun _ h => h) records

theorem mem_candidates (hsmall : Small catalog) : (candidate, root) ∈ candidates catalog ↔
    root ∈ catalog.roots ∧ ∃ below, candidate = root ++ below ∧ Standing fs root below ∧
      InReach catalog root below := by
  rw [candidates, List.mem_flatMap]
  constructor
  · rintro ⟨root', hroot', hmem⟩
    obtain ⟨candidate', hcandidate', heq⟩ := List.mem_map.mp hmem
    obtain ⟨rfl, rfl⟩ := Prod.mk.inj heq
    exact ⟨hroot', (mem_walk (walk_ends hsmall hroot') hroot').mp hcandidate'⟩
  · rintro ⟨hroot, h⟩
    exact ⟨root, hroot, List.mem_map_of_mem ((mem_walk (walk_ends hsmall hroot) hroot).mpr h)⟩

theorem found_iff (hsmall : Small catalog) : Found host catalog found ↔
    ∃ pair ∈ candidates catalog, record host fs pair.1 pair.2 = .ok found := by
  constructor
  · rintro ⟨root, hroot, below, hstanding, hreach, hrecord⟩
    exact ⟨(root ++ below, root), (mem_candidates hsmall).mpr ⟨hroot, below, rfl, hstanding, hreach⟩, hrecord⟩
  · rintro ⟨⟨candidate, root⟩, hpair, hrecord⟩
    obtain ⟨hroot, below, rfl, hstanding, hreach⟩ := (mem_candidates hsmall).mp hpair
    exact ⟨root, hroot, below, hstanding, hreach, hrecord⟩

/-- **What all candidates leave**: the records of those that are asked for. -/
theorem includeAll_eq_ok (h : includeAll host catalog wanted pairs records = .ok records')
    (hgathered : Gathered catalog records) : Gathered catalog records' ∧ ∀ entry, entry ∈ records' ↔
      entry ∈ records ∨ ∃ pair ∈ pairs, Wanted wanted pair.1 ∧ ∃ found,
        record host fs pair.1 pair.2 = .ok found ∧ entry = (found.repositoryId, found) := by
  induction pairs generalizing records with
  | nil =>
    obtain rfl := Except.ok.inj h
    exact ⟨hgathered, fun entry => by simp⟩
  | cons pair pairs ih =>
    rw [includeAll, List.foldlM_cons] at h
    obtain ⟨middle, hmiddle, h⟩ := bind_eq_ok.mp h
    obtain ⟨hgathered, hmem⟩ := include?_eq_ok hmiddle hgathered
    obtain ⟨hgathered', hmem'⟩ := ih h hgathered
    refine ⟨hgathered', fun entry => ?_⟩
    rw [hmem', hmem, List.exists_mem_cons_iff, or_assoc]

/-- **Listable repositories are listed.** -/
theorem exists_includeAll (hlistable : Listable host catalog)
    (hpairs : ∀ pair ∈ pairs, fs.kind pair.1 = some .directory ∧
      ∀ found, record host fs pair.1 pair.2 = .ok found → Found host catalog found)
    (hgathered : Gathered catalog records) (hrecords : ∀ entry ∈ records, Found host catalog entry.2) :
    ∃ records', includeAll host catalog none pairs records = .ok records' := by
  induction pairs generalizing records with
  | nil => exact ⟨records, rfl⟩
  | cons pair pairs ih =>
    obtain ⟨⟨hkind, hfound⟩, hpairs⟩ := List.forall_mem_cons.mp hpairs
    have hstep : ∃ middle, include? host catalog none pair.2 records pair.1 = .ok middle := by
      unfold include?
      rw [Option.any_none, if_neg Bool.false_ne_true]
      cases hrecord : record host fs pair.1 pair.2 with
      | error e =>
        obtain ⟨code, rfl⟩ := caught_record hkind e hrecord
        exact ⟨records, rfl⟩
      | ok found =>
        have hsame : ((records.lookup found.repositoryId).all fun other => decide (other = found)) = true := by
          refine (Option.all_eq_true _ _).mpr fun other hother => decide_eq_true ?_
          have hentry := (Dicts.lookup_eq_some_iff_mem hgathered.nodup).mp hother
          exact hlistable.distinct other found (hrecords _ hentry) (hfound found hrecord) (hgathered.keyed _ hentry)
        have hnodup : ((Dicts.assign found.repositoryId found records).map Prod.fst).Nodup :=
          Dicts.nodup_assign hgathered.nodup
        have hmem : ∀ entry ∈ Dicts.assign found.repositoryId found records,
            Found host catalog entry.2 ∧ entry.2.repositoryId = entry.1 := by
          rintro ⟨id, other⟩ hentry
          rcases (Dicts.mem_assign hgathered.nodup).mp hentry with ⟨rfl, rfl⟩ | ⟨-, hentry⟩
          · exact ⟨hfound other hrecord, rfl⟩
          · exact ⟨hrecords _ hentry, hgathered.keyed _ hentry⟩
        have hfew : (Dicts.assign found.repositoryId found records).length ≤ catalog.maxRepositories := by
          have hids : ((Dicts.assign found.repositoryId found records).map Prod.snd).map
              RepositoryRecord.repositoryId = (Dicts.assign found.repositoryId found records).map Prod.fst := by
            rw [List.map_map]
            exact List.map_congr_left fun entry hentry => (hmem entry hentry).2
          rw [← List.length_map Prod.snd]
          refine hlistable.few _ (List.Nodup.of_map RepositoryRecord.repositoryId (hids ▸ hnodup)) ?_
          rintro other hother
          obtain ⟨entry, hentry, rfl⟩ := List.mem_map.mp hother
          exact (hmem entry hentry).1
        refine ⟨Dicts.assign found.repositoryId found records, ?_⟩
        simp only [bind_eq_ok, ensure_eq_ok, decide_eq_true_eq]
        exact ⟨(), hsame, (), hfew, rfl⟩
    obtain ⟨middle, hmiddle⟩ := hstep
    obtain ⟨hgathered', hmem⟩ := include?_eq_ok hmiddle hgathered
    have hmiddles : ∀ entry ∈ middle, Found host catalog entry.2 := by
      intro entry hentry
      rcases (hmem entry).mp hentry with hentry | ⟨-, found, hrecord, rfl⟩
      · exact hrecords entry hentry
      · exact hfound found hrecord
    obtain ⟨records', hrecords'⟩ := ih hpairs hgathered' hmiddles
    exact ⟨records', by rw [includeAll, List.foldlM_cons, hmiddle]; exact hrecords'⟩

theorem gathered_nil : Gathered catalog [] :=
  ⟨List.nodup_nil, fun _ h => absurd h List.not_mem_nil, Nat.zero_le _⟩

/-- A list of repositories is what the candidates leave. -/
theorem listRepositories_eq_ok (hsmall : Small catalog) {listed : List RepositoryRecord}
    (h : listRepositories host catalog wanted = .ok listed) : ∃ records,
      includeAll host catalog wanted (candidates catalog) [] = .ok records ∧
      ∀ found, found ∈ listed ↔ (found.repositoryId, found) ∈ records := by
  unfold listRepositories at h
  rw [foldlM_includeRoot hsmall] at h
  simp only [bind_eq_ok, pure, Except.pure, Except.ok.injEq] at h
  obtain ⟨-, -, records, hrecords, rfl⟩ := h
  refine ⟨records, hrecords, fun found => ?_⟩
  rw [List.mem_map]
  constructor
  · rintro ⟨entry, hentry, rfl⟩
    have hmem := List.mem_mergeSort.mp hentry
    rw [(includeAll_eq_ok hrecords gathered_nil).1.keyed entry hmem]
    exact hmem
  · exact fun hmem => ⟨_, List.mem_mergeSort.mpr hmem, rfl⟩

/-- **What is listed was found.** -/
theorem found_of_listed (hsmall : Small catalog) {listed : List RepositoryRecord}
    (h : listRepositories host catalog wanted = .ok listed) (hfound : found ∈ listed) : Found host catalog found := by
  obtain ⟨records, hrecords, hmem⟩ := listRepositories_eq_ok hsmall h
  rcases ((includeAll_eq_ok hrecords gathered_nil).2 _).mp ((hmem found).mp hfound) with hnil | hpair
  · exact absurd hnil List.not_mem_nil
  · obtain ⟨pair, hpair, -, other, hrecord, heq⟩ := hpair
    obtain ⟨-, rfl⟩ := Prod.mk.inj heq
    exact (found_iff hsmall).mpr ⟨pair, hpair, hrecord⟩

/-- What is found is listed, where a list is returned. -/
theorem listed_of_found (hsmall : Small catalog) {listed : List RepositoryRecord}
    (h : listRepositories host catalog none = .ok listed) (hfound : Found host catalog found) : found ∈ listed := by
  obtain ⟨records, hrecords, hmem⟩ := listRepositories_eq_ok hsmall h
  obtain ⟨pair, hpair, hrecord⟩ := (found_iff hsmall).mp hfound
  exact (hmem found).mpr (((includeAll_eq_ok hrecords gathered_nil).2 _).mpr
    (Or.inr ⟨pair, hpair, fun _ hname => (Option.not_mem_none _ hname).elim, found, hrecord, rfl⟩))

/-- **All repositories can be listed** exactly when they are listable. -/
theorem exists_listRepositories (hsmall : Small catalog) :
    (∃ listed, listRepositories host catalog none = .ok listed) ↔ Listable host catalog := by
  constructor
  · rintro ⟨listed, h⟩
    obtain ⟨records, hrecords, hmem⟩ := listRepositories_eq_ok hsmall h
    have hgathered := (includeAll_eq_ok hrecords gathered_nil).1
    have hentry : ∀ found, Found host catalog found → (found.repositoryId, found) ∈ records := fun found hfound =>
      (hmem found).mp (listed_of_found hsmall h hfound)
    refine ⟨fun found other hfound hother hid => ?_, fun founds hnodup hfounds => ?_⟩
    · have hlookup := (Dicts.lookup_eq_some_iff_mem hgathered.nodup).mpr (hentry found hfound)
      rw [hid, (Dicts.lookup_eq_some_iff_mem hgathered.nodup).mpr (hentry other hother)] at hlookup
      exact (Option.some.inj hlookup).symm
    · have hinj : Function.Injective fun found : RepositoryRecord => (found.repositoryId, found) :=
        fun _ _ heq => (Prod.mk.inj heq).2
      have hsub : founds.map (fun found => (found.repositoryId, found)) ⊆ records := by
        intro entry hmapped
        obtain ⟨found, hfound, rfl⟩ := List.mem_map.mp hmapped
        exact hentry found (hfounds found hfound)
      have hle := (List.subperm_of_subset (hnodup.map hinj) hsub).length_le
      rw [List.length_map] at hle
      exact hle.trans hgathered.few
  · intro hlistable
    have hpairs : ∀ pair ∈ candidates catalog, fs.kind pair.1 = some .directory ∧
        ∀ found, record host fs pair.1 pair.2 = .ok found → Found host catalog found := by
      rintro ⟨candidate, root⟩ hpair
      obtain ⟨-, below, rfl, hstanding, -⟩ := (mem_candidates hsmall).mp hpair
      exact ⟨hstanding.directory, fun found hrecord => (found_iff hsmall).mpr ⟨_, hpair, hrecord⟩⟩
    obtain ⟨records, hrecords⟩ := exists_includeAll hlistable hpairs gathered_nil fun _ h => absurd h List.not_mem_nil
    refine ⟨(records.mergeSort fun a b => decide (a.1 ≤ b.1)).map Prod.snd, ?_⟩
    unfold listRepositories
    rw [foldlM_includeRoot hsmall, hrecords]
    rfl

/-- **What `get` returns**: what is found and has the id, where all can be listed. -/
theorem get_eq_ok (hsmall : Small catalog) {repositoryId : String} : get host catalog repositoryId = .ok found ↔
    Listable host catalog ∧ Found host catalog found ∧ found.repositoryId = repositoryId := by
  unfold get
  rw [bind_eq_ok]
  constructor
  · rintro ⟨listed, hlisted, hfind⟩
    have hfind := orRaise_eq_ok.mp hfind
    exact ⟨(exists_listRepositories hsmall).mp ⟨listed, hlisted⟩,
      found_of_listed hsmall hlisted (List.mem_of_find?_eq_some hfind), by simpa using List.find?_some hfind⟩
  · rintro ⟨hlistable, hfound, rfl⟩
    obtain ⟨listed, hlisted⟩ := (exists_listRepositories hsmall).mpr hlistable
    refine ⟨listed, hlisted, orRaise_eq_ok.mpr ?_⟩
    cases hfind : listed.find? fun other => decide (other.repositoryId = found.repositoryId) with
    | none =>
      have hnone := List.find?_eq_none.mp hfind found (listed_of_found hsmall hlisted hfound)
      exact absurd (decide_eq_true rfl) hnone
    | some other =>
      have hother := found_of_listed hsmall hlisted (List.mem_of_find?_eq_some hfind)
      rw [hlistable.distinct other found hother hfound (by simpa using List.find?_some hfind)]

/-! ### What is found from a path -/

/-- **What a path is resolved to** is a repository below a root. -/
theorem resolve_eq_ok {rawPath : String} (h : resolve host catalog rawPath = .ok found) :
    ∃ root ∈ catalog.roots, ∃ below, Standing fs root below ∧ record host fs (root ++ below) root = .ok found := by
  simp only [resolve, bind_eq_ok] at h
  obtain ⟨-, -, -, -, candidate, -, -, -, -, -, canonical, -, h⟩ := h
  split at h
  · split at h <;> cases h
  · next root hroots =>
    have hmem : root ∈ catalog.roots.filter (inside canonical) := hroots ▸ List.mem_singleton_self root
    obtain ⟨hroot, hinside⟩ := List.mem_filter.mp hmem
    obtain ⟨below, rfl⟩ := List.isPrefixOf_iff_prefix.mp hinside
    simp only [bind_eq_ok, ensure_eq_ok, beq_iff_eq] at h
    obtain ⟨-, hkind, marked, hmarked, h⟩ := h
    split at h
    · cases h
    · next marked =>
      obtain ⟨above, rfl, hstanding⟩ := standing_of_gitAncestors hkind hmarked
      exact ⟨root, hroot, above, hstanding, h⟩
    · cases h
  · cases h

theorem expandUser_absolute (path : Path) : expandUser host ⟨"/", path⟩ = .ok ⟨"/", path⟩ := by
  cases path <;> rfl

/-- **A repository is what its path is resolved to.** -/
theorem Standing.resolve_eq {below : List String} (h : Standing fs root below) (hroot : root ∈ catalog.roots)
    (hrecord : record host fs (root ++ below) root = .ok found) :
    resolve host catalog (pathText (root ++ below)) = .ok found := by
  have hnamed : Named (root ++ below) := named_of_kind (by rw [h.directory]; rfl)
  have hinside : inside (root ++ below) root = true := List.isPrefixOf_iff_prefix.mpr (List.prefix_append root below)
  have halias : ((catalog.roots.zip catalog.rootAliases).any fun pair =>
      pureInside ⟨"/", root ++ below⟩ ⟨"/", pair.1⟩ || pureInside ⟨"/", root ++ below⟩ pair.2) = true := by
    obtain ⟨i, hi, hget⟩ := List.mem_iff_getElem.mp hroot
    have hi' : i < catalog.rootAliases.length := lt_of_lt_of_le hi catalog.aliased
    refine List.any_eq_true.mpr ⟨(root, catalog.rootAliases[i]), ?_, ?_⟩
    · have hzip : i < (catalog.roots.zip catalog.rootAliases).length := by
        rw [List.length_zip]
        omega
      have hpair : (catalog.roots.zip catalog.rootAliases)[i] = (root, catalog.rootAliases[i]) := by
        rw [List.getElem_zip, hget]
      exact hpair ▸ List.getElem_mem hzip
    · exact Bool.or_eq_true_iff.mpr (Or.inl hinside)
  have hroots : catalog.roots.filter (inside (root ++ below)) = [root] := by
    have hmem : ∀ other ∈ catalog.roots.filter (inside (root ++ below)), other = root := by
      intro other hother
      obtain ⟨hother, hin⟩ := List.mem_filter.mp hother
      exact eq_of_apart hother hroot (List.isPrefixOf_iff_prefix.mp hin) (List.prefix_append root below)
    have hnodup : (catalog.roots.filter (inside (root ++ below))).Nodup := by
      refine (catalog.apart.imp fun {left right} hne heq => ?_).filter _
      exact hne.1 (heq ▸ List.prefix_refl left)
    have hself : root ∈ catalog.roots.filter (inside (root ++ below)) := List.mem_filter.mpr ⟨hroot, hinside⟩
    refine List.perm_singleton.mp ((List.perm_ext_iff_of_nodup hnodup (List.nodup_singleton root)).mpr fun other => ?_)
    rw [List.mem_singleton]
    exact ⟨hmem other, fun heq => heq ▸ hself⟩
  unfold resolve
  refine bind_eq_ok.mpr ⟨(), by rw [not_blank]; rfl, ?_⟩
  refine bind_eq_ok.mpr ⟨(), by rw [not_remote hnamed]; rfl, ?_⟩
  refine bind_eq_ok.mpr ⟨⟨"/", root ++ below⟩, by rw [purePath_pathText hnamed, expandUser_absolute], ?_⟩
  refine bind_eq_ok.mpr ⟨(), rfl, ?_⟩
  dsimp only
  rw [abspath_named hnamed]
  refine bind_eq_ok.mpr ⟨(), ensure_eq_ok.mpr halias, ?_⟩
  refine bind_eq_ok.mpr ⟨root ++ below, orRaise_eq_ok.mpr (fs.resolve_directory _ h.directory), ?_⟩
  rw [hroots]
  refine bind_eq_ok.mpr ⟨(), by rw [h.directory]; rfl, ?_⟩
  exact bind_eq_ok.mpr ⟨[root ++ below], h.gitAncestors_eq, hrecord⟩

/-! ### Both ways -/

/-- The search goes down to the directory with a path. -/
def PathInReach (catalog : LocalRepositoryCatalog fs) (text : String) : Prop :=
  ∃ root ∈ catalog.roots, ∃ below, text = pathText (root ++ below) ∧
    fs.kind (root ++ below) = some .directory ∧ InReach catalog root below

/-- A scope that is issued for a path, to read or to write. -/
def Authorised (host : Host) (catalog : LocalRepositoryCatalog fs) (path : String) (scope : RepositoryScope) : Prop :=
  path ≠ "" ∧ ∃ iso scopes scopes' uuid tenantId repositoryId,
    (∃ now, authorizeRead host catalog iso now uuid tenantId repositoryId (some path) scopes = .ok (scope, scopes')) ∨
    ∃ now issued readScopeId, authorizeWrite host catalog iso now issued uuid tenantId readScopeId repositoryId
      (some path) scopes = .ok (scope, scopes')

/-- What a path is resolved to is found again where the search goes down to it. -/
structure Agreement (host : Host) (catalog : LocalRepositoryCatalog fs) : Prop where
  listed : ∀ name records, listRepositories host catalog name = .ok records →
    ∀ found ∈ records, resolve host catalog found.canonicalPath = .ok found
  resolved : ∀ path found, resolve host catalog path = .ok found →
    (get host catalog found.repositoryId = .ok found ↔
      PathInReach catalog found.canonicalPath ∧ Listable host catalog)
  authorised : ∀ path scope, Authorised host catalog path scope →
    ∃ found, resolve host catalog path = .ok found ∧ scope.repositoryId = found.repositoryId ∧
      (get host catalog scope.repositoryId = .ok found ↔
        PathInReach catalog found.canonicalPath ∧ Listable host catalog)

/-- A repository that a path is resolved to is found from above where it is in reach. -/
theorem get_resolved (hsmall : Small catalog) {rawPath : String} (h : resolve host catalog rawPath = .ok found) :
    get host catalog found.repositoryId = .ok found ↔
      PathInReach catalog found.canonicalPath ∧ Listable host catalog := by
  obtain ⟨root, hroot, below, hstanding, hrecord⟩ := resolve_eq_ok h
  have hpath := (record_eq_ok hstanding.directory hrecord).1
  have hnamed : Named (root ++ below) := named_of_kind (by rw [hstanding.directory]; rfl)
  rw [get_eq_ok hsmall, and_iff_left rfl, and_comm, and_congr_left_iff]
  intro _
  constructor
  · rintro ⟨root', hroot', below', hstanding', hreach, hrecord'⟩
    exact ⟨root', hroot', below', (record_eq_ok hstanding'.directory hrecord').1, hstanding'.directory, hreach⟩
  · rintro ⟨root', hroot', below', htext, hkind, hreach⟩
    have heq : root ++ below = root' ++ below' :=
      pathText_inj hnamed (named_of_kind (by rw [hkind]; rfl)) (hpath.symm.trans htext)
    obtain rfl := eq_of_apart hroot hroot' (List.prefix_append root below) (heq ▸ List.prefix_append root' below')
    obtain rfl := List.append_cancel_left heq
    exact ⟨root, hroot, below, hstanding, hreach, hrecord⟩

theorem raising_eq_ok {α : Type} {x : Except CatalogError α} {a : α} : raising x = .ok a ↔ x = .ok a := by
  cases x <;> simp [raising]

/-- A scope for a path is one of the repository the path is resolved to. -/
theorem Authorised.resolves {path : String} {scope : RepositoryScope} (h : Authorised host catalog path scope) :
    ∃ found, resolve host catalog path = .ok found ∧ scope.repositoryId = found.repositoryId := by
  obtain ⟨hne, iso, scopes, scopes', uuid, tenantId, repositoryId, hscope⟩ := h
  have hselect : ∀ found, select host catalog repositoryId (some path) = .ok found →
      resolve host catalog path = .ok found := by
    intro found hfound
    have hpath : (some path).filter (· ≠ "") = some path := by simp [Option.filter, hne]
    unfold select at hfound
    rw [hpath] at hfound
    split at hfound
    · next heq =>
      obtain rfl := Option.some.inj heq
      obtain ⟨resolved, hresolved, hfound⟩ := bind_eq_ok.mp hfound
      obtain ⟨-, -, hfound⟩ := bind_eq_ok.mp hfound
      obtain rfl := Except.ok.inj hfound
      exact hresolved
    · next heq => cases heq
    · next heq =>
      obtain rfl := Option.some.inj heq
      exact hfound
    · next heq => cases heq
  rcases hscope with ⟨now, hread⟩ | ⟨now, issued, readScopeId, hwrite⟩
  · obtain ⟨found, hfound, hissue⟩ := bind_eq_ok.mp hread
    obtain ⟨-, -, rfl⟩ := RepositoryScopes.issue_eq_ok (raising_eq_ok.mp hissue)
    exact ⟨found, hselect found hfound, rfl⟩
  · obtain ⟨found, hfound, hissue⟩ := bind_eq_ok.mp hwrite
    have hissue := raising_eq_ok.mp hissue
    simp only [RepositoryScopes.issueWrite, bind_eq_ok] at hissue
    obtain ⟨readScope, -, readIssued, -, -, -, hissue⟩ := hissue
    obtain ⟨-, -, rfl⟩ := RepositoryScopes.issue_eq_ok hissue
    exact ⟨found, hselect found hfound, rfl⟩

/-- The directories of a disk with one repository, in a hidden directory. -/
def sampleDirectories : List Path :=
  [[], ["srv"], ["srv", "repos"], ["srv", "repos", ".tools"], ["srv", "repos", ".tools", "lint"],
    ["srv", "repos", ".tools", "lint", ".git"]]

/-- The names in a directory of the disk. -/
def sampleNames (path : Path) : List String :=
  (sampleDirectories.filter fun p => decide (p ≠ [] ∧ p.dropLast = path)).map fun p => p.getLast?.getD ""

theorem mem_sampleNames : name ∈ sampleNames path ↔ path ++ [name] ∈ sampleDirectories := by
  rw [sampleNames, List.mem_map]
  constructor
  · rintro ⟨p, hp, rfl⟩
    obtain ⟨hmem, hcondition⟩ := List.mem_filter.mp hp
    obtain ⟨hne, rfl⟩ := of_decide_eq_true hcondition
    rwa [List.getLast?_eq_getLast_of_ne_nil hne, Option.getD_some, List.dropLast_append_getLast hne]
  · intro hmem
    refine ⟨path ++ [name], List.mem_filter.mpr ⟨hmem, decide_eq_true ⟨by simp, List.dropLast_concat⟩⟩, ?_⟩
    rw [List.getLast?_concat, Option.getD_some]

theorem sample_parent : ∀ path ∈ sampleDirectories, path.dropLast ∈ sampleDirectories := by decide

theorem sample_nodup : ∀ path ∈ sampleDirectories, (sampleNames path).Nodup := by decide

theorem sample_named : ∀ path ∈ sampleDirectories, ∀ part ∈ path,
    part ≠ "" ∧ '/' ∉ part.toList ∧ part ≠ "." ∧ part ≠ ".." := by decide

theorem isSome_ite {c : Prop} [Decidable c] {α : Type} {a : α} : (if c then some a else none).isSome = true ↔ c := by
  split <;> simp_all

theorem lawfulBEq_parts : LawfulBEq (List String) := inferInstance

instance (path : List String) : Decidable (path ∈ sampleDirectories) :=
  @List.instDecidableMemOfLawfulBEq _ _ lawfulBEq_parts path sampleDirectories

/-- A disk of directories. -/
def sampleDisk : FileSystem where
  kind path := if path ∈ sampleDirectories then some .directory else none
  scandir path := if path ∈ sampleDirectories then some (sampleNames path) else none
  resolve path := if path.root = "/" ∧ path.parts ∈ sampleDirectories then some path.parts else none
  isSymlink _ := false
  kind_parent path name h := by
    have hparent := sample_parent _ (isSome_ite.mp h)
    rw [List.dropLast_concat] at hparent
    exact if_pos hparent
  named path name h := sample_named _ (isSome_ite.mp h) name (by simp)
  mem_scandir path names h name := by
    split at h
    · obtain rfl := Option.some.inj h
      rw [isSome_ite, mem_sampleNames]
    · cases h
  nodup_scandir path names h := by
    split at h
    · next hmem =>
      obtain rfl := Option.some.inj h
      exact sample_nodup path hmem
    · cases h
  resolve_directory path h := by
    have hmem : path ∈ sampleDirectories := isSome_ite.mp (by rw [h]; rfl)
    exact if_pos ⟨rfl, hmem⟩

def sampleHost : Host where
  sha256 text :=
    if text = "/srv/repos" then "0b1ef67117ee71ad7a006c5c97c1c057dba3c6242bec8e84fc64521eb7ea8db1"
    else "9f5761c49799524d1bcbac15c1a6ad57b0a823ce56cc4b5df9811d7cb4992d63"
  home _ := none
  git path
    | .topLevel => .ok (pathText path)
    | .branch => .ok "main"
    | .head => .ok "2fd4e1c67a2d28fced849ee1bb76e7391b93eb12"
    | .status => .ok ""

/-- The catalog of the directory `/srv/repos`. -/
def sampleCatalog : LocalRepositoryCatalog sampleDisk where
  roots := [["srv", "repos"]]
  rootAliases := [⟨"/", ["srv", "repos"]⟩]
  maxDepth := 8
  maxRepositories := 128
  directory := by decide
  apart := by decide
  aliased := le_rfl

theorem sample_small : Small sampleCatalog := by
  refine ⟨sampleDirectories, by decide, fun root _ path _ h => ?_⟩
  exact isSome_ite.mp (by rw [show (if path ∈ sampleDirectories then some Kind.directory else none) = _ from h]; rfl)

/-- The repository. -/
def sampleRepository : Path := ["srv", "repos", ".tools", "lint"]

def sampleRecord : RepositoryRecord where
  repositoryId := "repo-9f5761c49799524d1bcbac15"
  rootId := "root-0b1ef67117ee71ad"
  canonicalPath := "/srv/repos/.tools/lint"
  name := "lint"
  branch := "main"
  headCommit := "2fd4e1c67a2d28fced849ee1bb76e7391b93eb12"
  dirty := false
  capabilities := [.readAnalysis, .writePatch]

/-- What the repository is resolved to. -/
theorem sample_resolved : resolve sampleHost sampleCatalog (pathText sampleRepository) = .ok sampleRecord := by
  have hstanding : Standing sampleDisk ["srv", "repos"] [".tools", "lint"] := by
    refine ⟨by decide, by decide, fun above habove hne => ?_⟩
    have hclear : ∀ above ∈ [".tools", "lint"].inits, above ≠ [".tools", "lint"] →
        markerOf sampleDisk (["srv", "repos"] ++ above) = .none := by decide
    exact hclear above ((List.mem_inits above _).mpr habove) hne
  exact hstanding.resolve_eq List.mem_cons_self (by decide +kernel)

/-- The search does not go down to it. -/
theorem sample_not_inReach : ¬ PathInReach sampleCatalog sampleRecord.canonicalPath := by
  rintro ⟨root, hroot, below, htext, hkind, hreach⟩
  obtain rfl := List.mem_singleton.mp hroot
  have hsample : pathText sampleRepository = pathText (["srv", "repos"] ++ below) := by
    rw [← htext]
    decide +kernel
  have heq : ["srv", "repos"] ++ [".tools", "lint"] = ["srv", "repos"] ++ below :=
    pathText_inj (sample_named _ (by decide)) (named_of_kind (by rw [hkind]; rfl)) hsample
  obtain rfl := List.append_cancel_left heq
  exact absurd (hreach.shown ".tools" List.mem_cons_self) (by decide)

end Discovery
end AiSaas
