import AiSaas.ProjectPacks.Evidence

/-!
# Evidence that is checked again

Items of evidence are collected on one state of a repository and checked again on a later
one.  The lines of an item are compared by their hash, and the answer is exact wherever
the check returns.  It raises when the path of an item can no longer be followed for
another reason than that something is missing: a directory that became a file, a loop of
links, a name that is too long.

## Main definitions

* `FileAt` — a path leads to a readable file inside the root.
* `Unchanged` — the lines of an item are those that were hashed.
* `Revalidated` — what the later check promises.

## Main results

* `revalidated_iff` — the promise is kept exactly when every authorised path can be
  followed or is missing.
-/

namespace AiSaas.ProjectPacks

open Transaction (bind_eq_ok)

variable {host : Host} {index : RepositoryIndex} {before later : Checkout} {proposal : String}
  {items : List EvidenceReference} {found : EvidenceReference}

/-! ### Lines -/

/-- Lines of texts that are joined to one text are the same lines. -/
theorem joinLines_inj {lines lines' : List String} (hne : lines ≠ []) (hne' : lines' ≠ [])
    (h : ∀ line ∈ lines, '\n' ∉ line.toList) (h' : ∀ line ∈ lines', '\n' ∉ line.toList)
    (heq : joinLines lines = joinLines lines') : lines = lines' := by
  have hchars := congrArg String.toList heq
  rw [joinLines, joinLines, String.toList_ofList, String.toList_ofList] at hchars
  have hsplit : lines.map String.toList = lines'.map String.toList :=
    calc lines.map String.toList
      _ = (List.intercalate ['\n'] (lines.map String.toList)).splitOn '\n' :=
        (List.splitOn_intercalate '\n' (by simpa using h) (by simpa using hne)).symm
      _ = (List.intercalate ['\n'] (lines'.map String.toList)).splitOn '\n' := by rw [hchars]
      _ = lines'.map String.toList :=
        List.splitOn_intercalate '\n' (by simpa using h') (by simpa using hne')
  exact List.map_injective_iff.mpr (fun _ _ h => String.toList_inj.mp h) hsplit

/-- The lines `startLine` to `endLine`. -/
def slice (lines : List String) (startLine endLine : ℤ) : List String :=
  (lines.take endLine.toNat).drop (startLine - 1).toNat

/-- Ranges of the lines of two texts have one hash when they have the same lines. -/
theorem sha256_selected_inj (hinj : Function.Injective host.sha256) {content content' : String}
    {startLine endLine : ℤ} (hstart : 1 ≤ startLine) (hle : startLine ≤ endLine)
    (hlength : endLine ≤ (splitlines content).length)
    (hlength' : endLine ≤ (splitlines content').length) :
    host.sha256 (RepositoryIndex.selected (splitlines content) startLine endLine) =
        host.sha256 (RepositoryIndex.selected (splitlines content') startLine endLine) ↔
      slice (splitlines content) startLine endLine = slice (splitlines content') startLine endLine := by
  have hlines : ∀ (text : String), ∀ line ∈ slice (splitlines text) startLine endLine,
      '\n' ∉ line.toList := by
    intro text line hline
    obtain ⟨chars, hchars, rfl⟩ := List.mem_map.mp (List.mem_of_mem_take (List.mem_of_mem_drop hline))
    rw [String.toList_ofList]
    exact not_mem_of_mem_splitChars hchars
  have hne : ∀ text : String, endLine ≤ (splitlines text).length →
      slice (splitlines text) startLine endLine ≠ [] := by
    intro text hlength hnil
    have hzero := congrArg List.length hnil
    simp only [slice, List.length_drop, List.length_take, List.length_nil] at hzero
    omega
  constructor
  · intro h
    exact joinLines_inj (hne _ hlength) (hne _ hlength') (hlines _) (hlines _) (hinj h)
  · intro h
    rw [RepositoryIndex.selected, RepositoryIndex.selected]
    exact congrArg (fun lines => host.sha256 (joinLines lines)) h

/-! ### Paths -/

/-- The parts of a path below the root. -/
def partsOf (path : String) : List String := (purePath (asPosix path)).parts

/-- A path leads to a readable file inside the root. -/
def FileAt (checkout : Checkout) (parts : List String) (content : String) : Prop :=
  (∃ target, checkout.resolve parts = .ok (.inside target)) ∧ checkout.isFile parts = true ∧
    checkout.read parts = some content

/-! ### The live reading -/

/-- A range of an authorised file is read and hashed. -/
theorem currentEvidence_of_fileAt {path content : String} {startLine endLine : ℤ}
    (hauth : index.isAuthorized path = true) (hfile : FileAt later (partsOf path) content)
    (hstart : 1 ≤ startLine) (hle : startLine ≤ endLine)
    (hlength : endLine ≤ (splitlines content).length) :
    index.currentEvidence host later path startLine endLine = .ok (startLine, endLine,
      host.sha256 (RepositoryIndex.selected (splitlines content) startLine endLine)) := by
  obtain ⟨⟨target, hresolve⟩, hisFile, hread⟩ := hfile
  obtain ⟨htargetFile, htargetRead, hsymlink⟩ := later.resolved _ target hresolve
  rw [partsOf] at hresolve
  have hok : ¬ (later.isFile target = false ∨ later.isSymlink target = true) := by
    rw [htargetFile, hisFile, hsymlink]
    decide
  rw [RepositoryIndex.currentEvidence, if_neg (by rw [hauth]; decide), hresolve]
  simp only [Except.bind, if_neg hok, htargetRead, hread]
  exact hashRange_eq hstart hle hlength

/-- Otherwise it raises: what is caught, unless the path cannot be followed. -/
theorem currentEvidence_error {path : String} {startLine endLine : ℤ}
    (h : ¬ (index.isAuthorized path = true ∧ ∃ content, FileAt later (partsOf path) content ∧
      1 ≤ startLine ∧ startLine ≤ endLine ∧ endLine ≤ (splitlines content).length)) :
    ∃ e, index.currentEvidence host later path startLine endLine = .error e ∧
      (e.caught = false ↔ index.isAuthorized path = true ∧
        later.resolve (partsOf path) = .error .osError) := by
  rw [RepositoryIndex.currentEvidence]
  cases hauth : index.isAuthorized path with
  | false => exact ⟨.unauthorizedPath path, rfl, by simp [Raised.caught]⟩
  | true =>
    rw [if_neg (by decide), ← partsOf]
    cases hresolve : later.resolve (partsOf path) with
    | error e =>
      refine ⟨e, rfl, ?_⟩
      rcases later.resolve_error _ e hresolve with rfl | ⟨p, rfl⟩ <;> simp [Raised.caught]
    | ok target =>
      cases target with
      | outside => exact ⟨.unauthorizedPath path, rfl, by simp [Raised.caught]⟩
      | inside target =>
        obtain ⟨htargetFile, htargetRead, hsymlink⟩ := later.resolved _ target hresolve
        simp only [Except.bind]
        split
        · exact ⟨.unauthorizedPath path, rfl, by simp [Raised.caught]⟩
        · next hnot =>
          have hisFile : later.isFile (partsOf path) = true := by
            rw [← htargetFile]
            simpa using (not_or.mp hnot).1
          cases hread : later.read target with
          | none => exact ⟨.fileNotFound (asPosix path), rfl, by simp [Raised.caught]⟩
          | some content =>
            refine ⟨.valueError "line range is outside indexed file", ?_, by simp [Raised.caught]⟩
            refine hashRange_error fun hrange => h ⟨hauth, content, ?_, hrange⟩
            exact ⟨⟨target, hresolve⟩, hisFile, by rw [← htargetRead, hread]⟩

/-! ### One item -/

/-- An item can be read again. -/
def Readable (index : RepositoryIndex) (later : Checkout) (found : EvidenceReference)
    (content : String) : Prop :=
  index.isAuthorized found.path = true ∧ FileAt later (partsOf found.path) content ∧
    found.endLine ≤ (splitlines content).length

/-- An item is checked against what is read. -/
theorem revalidate_of_readable {content : String} (h : Readable index later found content) :
    ∃ checked, revalidate host index later found = .ok checked ∧
      checked.requirementId = found.requirementId ∧ checked.path = found.path ∧
      checked.symbol = found.symbol ∧ checked.startLine = found.startLine ∧
      checked.endLine = found.endLine ∧ checked.authorized = found.authorized ∧
      checked.valid = (found.authorized && host.sha256 (RepositoryIndex.selected (splitlines content)
        found.startLine found.endLine) == found.contentHash) := by
  obtain ⟨hauth, hfile, hlength⟩ := h
  have hcurrent := @currentEvidence_of_fileAt host index later _ _ _ _ hauth hfile found.range.1 found.range.2
    hlength
  set currentHash := host.sha256 (RepositoryIndex.selected (splitlines content) found.startLine
    found.endLine) with hhash
  let checked : EvidenceReference := ⟨found.requirementId, found.path, found.startLine,
    found.endLine, currentHash, found.symbol, found.authorized,
    found.authorized && currentHash == found.contentHash, found.requirementId_required,
    found.path_required, found.range, host.sha256_digits _⟩
  have htry : tryRevalidate host index later found = .ok checked := by
    rw [tryRevalidate, hcurrent]
    exact make_eq_ok found.requirementId_required found.path_required found.range
      (host.sha256_digits _)
  refine ⟨checked, ?_, rfl, rfl, rfl, rfl, rfl, rfl, rfl⟩
  unfold revalidate
  rw [htry]

/-- An item that cannot be read is refused, or the check raises. -/
theorem revalidate_of_unreadable (h : ¬ ∃ content, Readable index later found content) :
    (¬ (index.isAuthorized found.path = true ∧
        later.resolve (partsOf found.path) = .error .osError) →
      ∃ checked, revalidate host index later found = .ok checked ∧
        checked.requirementId = found.requirementId ∧ checked.path = found.path ∧
        checked.symbol = found.symbol ∧ checked.startLine = found.startLine ∧
        checked.endLine = found.endLine ∧ checked.authorized = false ∧ checked.valid = false) ∧
    (index.isAuthorized found.path = true ∧
        later.resolve (partsOf found.path) = .error .osError →
      ∀ checked, revalidate host index later found ≠ .ok checked) := by
  obtain ⟨e, hcurrent, hcaught⟩ := @currentEvidence_error host index later found.path
    found.startLine found.endLine (by
      rintro ⟨hauth, content, hfile, -, -, hlength⟩
      exact h ⟨content, hauth, hfile, hlength⟩)
  have htry : tryRevalidate host index later found = .error e := by
    rw [tryRevalidate, hcurrent]
    rfl
  constructor
  · intro hfollow
    have hcatch : e.caught = true := by
      rw [← Bool.not_eq_false]
      exact fun hnot => hfollow (hcaught.mp hnot)
    refine ⟨⟨found.requirementId, found.path, found.startLine, found.endLine, found.contentHash,
      found.symbol, false, false, found.requirementId_required, found.path_required, found.range,
      found.contentHash_required⟩, ?_, rfl, rfl, rfl, rfl, rfl, rfl, rfl⟩
    unfold revalidate
    rw [htry]
    dsimp only
    rw [if_pos hcatch]
    exact make_eq_ok _ _ _ _
  · intro hstuck checked hchecked
    unfold revalidate at hchecked
    rw [htry] at hchecked
    dsimp only at hchecked
    rw [if_neg (by rw [hcaught.mpr hstuck]; decide)] at hchecked
    cases hchecked

/-! ### The items of a collection -/

/-- A file that was indexed could be read at its path. -/
theorem fileAt_of_get {path : String} {file : IndexedFile}
    (h : index.get (index.build host before) path = .ok file) :
    index.isAuthorized path = true ∧ FileAt before (partsOf path) file.content ∧
      file.lines = splitlines file.content := by
  rw [RepositoryIndex.get] at h
  split at h
  · cases h
  · next hauth =>
    split at h
    · next file' hlookup =>
      obtain rfl := Except.ok.inj h
      obtain ⟨l, r, hbuilt, -⟩ := List.lookup_eq_some_iff.mp hlookup
      obtain ⟨hkey, candidate, hlisting, hindexed⟩ :=
        fromListing_build (asPosix path) file' (by rw [hbuilt]; simp)
      have hnamed := before.named candidate hlisting
      rw [RepositoryIndex.indexed] at hindexed
      split at hindexed
      · cases hindexed
      · next hcandidate =>
        simp only [not_or, Bool.not_eq_true, Bool.not_eq_false] at hcandidate
        obtain ⟨-, hsymlink, hisFile, -⟩ := hcandidate
        have hresolve := before.resolve_listed candidate hlisting hsymlink
        rw [hresolve] at hindexed
        dsimp only at hindexed
        split at hindexed
        · cases hindexed
        · obtain ⟨content, hread, rfl⟩ := Option.map_eq_some_iff.mp hindexed
          have hparts : partsOf path = candidate := by
            rw [partsOf, hkey]
            exact purePath_joinParts hnamed.2 hnamed.1
          rw [hparts]
          exact ⟨by simpa using hauth, ⟨⟨candidate, hresolve⟩, hisFile, hread⟩, rfl⟩
    · cases h

/-- Every item of a collection describes a requirement and a reference. -/
theorem exists_describes (h : evidence host index before proposal = .ok items)
    (hfound : found ∈ items) :
    ∃ pair, Describes host index (index.build host before) pair found := by
  obtain ⟨parsed, hparsed, hitems⟩ := bind_eq_ok.mp h
  obtain ⟨⟨requirement, ref⟩, hpair, hitem⟩ := (Transaction.exists_of_mapM hitems).2 found hfound
  exact ⟨_, describes_of_item (path_of_lookedUp hparsed (mem_pairs.mp hpair).2) hitem⟩

/-- The path of an item is still an authorised readable file, whose lines are those that
were hashed. -/
def Unchanged (host : Host) (index : RepositoryIndex) (before later : Checkout)
    (found : EvidenceReference) : Prop :=
  ∃ file content, index.get (index.build host before) found.path = .ok file ∧
    Readable index later found content ∧
    slice (splitlines content) found.startLine found.endLine =
      slice file.lines found.startLine found.endLine

/-- What the later check makes of an item. -/
structure Rechecked (host : Host) (index : RepositoryIndex) (before later : Checkout)
    (found checked : EvidenceReference) : Prop where
  requirementId : checked.requirementId = found.requirementId
  path : checked.path = found.path
  symbol : checked.symbol = found.symbol
  range : checked.startLine = found.startLine ∧ checked.endLine = found.endLine
  valid : found.authorized = true → (checked.valid = true ↔ Unchanged host index before later found)
  same : later = before → checked.authorized = found.authorized ∧ checked.valid = found.valid

/-- An authorised item has the lines of an indexed file. -/
theorem exists_file_of_authorized (h : evidence host index before proposal = .ok items)
    (hfound : found ∈ items) (hauth : found.authorized = true) :
    ∃ file, index.get (index.build host before) found.path = .ok file ∧
      found.endLine ≤ file.lines.length ∧ found.contentHash =
        host.sha256 (RepositoryIndex.selected file.lines found.startLine found.endLine) := by
  obtain ⟨pair, hdescribes⟩ := exists_describes h hfound
  have hinside := hdescribes.authorized.mp hauth
  obtain ⟨file, hget, -, -, hend⟩ := id hinside
  have hrange := hdescribes.range hinside
  refine ⟨file, by rw [hdescribes.path, hget], by rw [hrange.2]; exact hend, ?_⟩
  exact hdescribes.contentHash file hget hinside

theorem valid_eq_authorized (h : evidence host index before proposal = .ok items)
    (hfound : found ∈ items) : found.valid = found.authorized := by
  obtain ⟨pair, hdescribes⟩ := exists_describes h hfound
  rw [Bool.eq_iff_iff, hdescribes.valid, hdescribes.authorized]

/-- An item of a collection that can be followed, or is missing, is checked exactly. -/
theorem exists_rechecked (hinj : Function.Injective host.sha256)
    (h : evidence host index before proposal = .ok items) (hfound : found ∈ items)
    (hfollow : index.isAuthorized found.path = true →
      later.resolve (partsOf found.path) ≠ .error .osError) :
    ∃ checked, revalidate host index later found = .ok checked ∧
      Rechecked host index before later found checked := by
  by_cases hreadable : ∃ content, Readable index later found content
  · obtain ⟨content, hreadable⟩ := hreadable
    obtain ⟨checked, hchecked, hid, hpath, hsymbol, hstart, hend, hauthorized, hvalid⟩ :=
      @revalidate_of_readable host index later found content hreadable
    have hexact : found.authorized = true →
        (checked.valid = true ↔ Unchanged host index before later found) := by
      intro hauth
      obtain ⟨file, hget, hlength, hhash⟩ := exists_file_of_authorized h hfound hauth
      have hfile := (fileAt_of_get hget).2.2
      have hlines : host.sha256 (RepositoryIndex.selected (splitlines content) found.startLine
          found.endLine) = found.contentHash ↔
          slice (splitlines content) found.startLine found.endLine =
            slice file.lines found.startLine found.endLine := by
        rw [hhash, hfile]
        exact sha256_selected_inj hinj found.range.1 found.range.2 hreadable.2.2 (hfile ▸ hlength)
      rw [hvalid, hauth, Bool.true_and, beq_iff_eq, hlines]
      constructor
      · exact fun hslice => ⟨file, content, hget, hreadable, hslice⟩
      · rintro ⟨file', content', hget', hreadable', hslice⟩
        rw [hget] at hget'
        obtain rfl := Except.ok.inj hget'
        have hcontent : content' = content := by
          have hread := hreadable'.2.1.2.2
          rw [hreadable.2.1.2.2] at hread
          exact (Option.some.inj hread).symm
        rw [← hcontent]
        exact hslice
    refine ⟨checked, hchecked, hid, hpath, hsymbol, ⟨hstart, hend⟩, hexact, ?_⟩
    rintro rfl
    refine ⟨hauthorized, ?_⟩
    rw [valid_eq_authorized h hfound]
    cases hauth : found.authorized with
    | false => rw [hvalid, hauth, Bool.false_and]
    | true =>
      obtain ⟨file, hget, -, -⟩ := exists_file_of_authorized h hfound hauth
      obtain ⟨-, hfileAt, hfile⟩ := fileAt_of_get hget
      refine (hexact hauth).mpr ⟨file, content, hget, hreadable, ?_⟩
      have hread := hfileAt.2.2
      rw [hreadable.2.1.2.2] at hread
      rw [hfile, Option.some.inj hread]
  · have hnot : ¬ (index.isAuthorized found.path = true ∧
        later.resolve (partsOf found.path) = .error .osError) := fun hstuck => hfollow hstuck.1 hstuck.2
    obtain ⟨checked, hchecked, hid, hpath, hsymbol, hstart, hend, hauthorized, hvalid⟩ :=
      (@revalidate_of_unreadable host index later found hreadable).1 hnot
    refine ⟨checked, hchecked, hid, hpath, hsymbol, ⟨hstart, hend⟩, ?_, ?_⟩
    · intro _
      rw [hvalid]
      refine iff_of_false Bool.false_ne_true ?_
      rintro ⟨file, content, -, hread, -⟩
      exact hreadable ⟨content, hread⟩
    · rintro rfl
      rw [hauthorized, hvalid, valid_eq_authorized h hfound, and_self, eq_comm]
      by_contra hauth
      rw [Bool.not_eq_false] at hauth
      obtain ⟨file, hget, hlength, -⟩ := exists_file_of_authorized h hfound hauth
      obtain ⟨hpathAuth, hfileAt, hfile⟩ := fileAt_of_get hget
      exact hreadable ⟨file.content, hpathAuth, hfileAt, hfile ▸ hlength⟩

/-- The later check returns an item for each item, in order, and is exact. -/
def Revalidated (host : Host) (index : RepositoryIndex) (before later : Checkout)
    (items : List EvidenceReference) : Prop :=
  ∃ checked, revalidateEvidence host index later items = .ok checked ∧
    List.Forall₂ (Rechecked host index before later) items checked

/-- **Evidence is checked again exactly when its paths can be followed**: no authorised path
of an item runs into another error than that something is missing. -/
theorem revalidated_iff (hinj : Function.Injective host.sha256)
    (h : evidence host index before proposal = .ok items) :
    Revalidated host index before later items ↔ ∀ found ∈ items,
      index.isAuthorized found.path = true → later.resolve (partsOf found.path) ≠ .error .osError := by
  constructor
  · rintro ⟨checked, hchecked, -⟩ found hfound hauth hstuck
    obtain ⟨checked', -, hok⟩ := (Transaction.exists_of_mapM hchecked).1 found hfound
    have hunreadable : ¬ ∃ content, Readable index later found content := by
      rintro ⟨content, -, ⟨⟨target, htarget⟩, -⟩, -⟩
      rw [hstuck] at htarget
      cases htarget
    exact (@revalidate_of_unreadable host index later found hunreadable).2 ⟨hauth, hstuck⟩ checked' hok
  · intro hfollow
    have hall : ∀ found ∈ items, ∃ checked, revalidate host index later found = .ok checked := by
      intro found hfound
      obtain ⟨checked, hchecked, -⟩ := exists_rechecked hinj h hfound (hfollow found hfound)
      exact ⟨checked, hchecked⟩
    obtain ⟨checked, hchecked⟩ := Transaction.exists_mapM_eq_ok hall
    refine ⟨checked, hchecked, ?_⟩
    have hpaired := Transaction.mapM_eq_ok_iff.mp hchecked
    refine ((List.forall₂_and_left _ _).mpr ⟨fun found hfound => hfound, hpaired⟩).imp ?_
    rintro found checked' ⟨hfound, hok⟩
    obtain ⟨checked'', hchecked'', hexact⟩ := exists_rechecked hinj h hfound (hfollow found hfound)
    rw [hok] at hchecked''
    obtain rfl := Except.ok.inj hchecked''
    exact hexact

namespace Sample

/-- The names below a root that a checkout may list. -/
def Named (listing : List (List String)) : Prop := ∀ path ∈ listing, path ≠ [] ∧
  ∀ part ∈ path, part ≠ "" ∧ '/' ∉ part.toList ∧ part ≠ "." ∧ part ≠ ".."

instance (listing : List (List String)) : Decidable (Named listing) :=
  inferInstanceAs (Decidable (∀ path ∈ listing, path ≠ [] ∧
    ∀ part ∈ path, part ≠ "" ∧ '/' ∉ part.toList ∧ part ≠ "." ∧ part ≠ ".."))

/-- A repository without links: a path below a file is no path, another one is missing. -/
def plainCheckout (directories : List (List String)) (files : List (List String × String))
    (named : Named (directories ++ files.map Prod.fst)) : Checkout where
  listing := directories ++ files.map Prod.fst
  isSymlink _ := false
  isFile path := (files.lookup path).isSome
  resolve path :=
    if (directories ++ files.map Prod.fst).contains path then .ok (.inside path)
    else if files.any (fun file => file.1.isPrefixOf path) = true then .error .osError
    else .error (.fileNotFound (joinParts path))
  read path := files.lookup path
  named
  resolve_listed path hpath _ := if_pos (List.contains_iff_mem.mpr hpath)
  resolved path target h := by
    split at h
    · obtain rfl := Target.inside.inj (Except.ok.inj h)
      exact ⟨rfl, rfl, rfl⟩
    · split at h
      · cases h
      · cases h
  resolve_error path e h := by
    split at h
    · cases h
    · split at h
      · exact Or.inl (Except.error.inj h).symm
      · exact Or.inr ⟨_, (Except.error.inj h).symm⟩

/-- One file in a directory. -/
def oneFile : Checkout :=
  plainCheckout [["tests"]] [(["tests", "a.py"], "x = 1\n")] (by decide +kernel)

/-- The same file, edited behind its first line. -/
def edited : Checkout :=
  plainCheckout [["tests"]] [(["tests", "a.py"], "x = 1\ny = 2\n")] (by decide +kernel)

/-- A file in place of the directory. -/
def fileForDirectory : Checkout := plainCheckout [] [(["tests"], "")] (by decide +kernel)

theorem requirement_named : blank "REQ-1" = false := by decide +kernel

/-- The evidence of the first line of the file. -/
def firstLine : EvidenceReference where
  requirementId := "REQ-1"
  path := "tests/a.py"
  startLine := 1
  endLine := 1
  contentHash := "hx = 1"
  symbol := none
  authorized := true
  valid := true
  requirementId_required := requirement_named
  path_required := by decide +kernel
  range := by decide
  contentHash_required := by decide +kernel

theorem evidence_oneFile :
    evidence asciiHost defaultIndex oneFile "REQ-1: fix tests/a.py:1" = .ok [firstLine] := by
  have hsorted : oneFile.listing.mergeSort RepositoryIndex.partsLe = [["tests"], ["tests", "a.py"]] :=
    List.mergeSort_of_pairwise (by decide +kernel)
  have hbuilt : defaultIndex.build asciiHost oneFile =
      [("tests/a.py", ⟨"tests/a.py", "x = 1\n", ["x = 1"]⟩)] := by
    rw [RepositoryIndex.build, hsorted]
    decide +kernel
  have hparsed : parseProposal asciiHost "REQ-1: fix tests/a.py:1" = .ok
      ⟨[stated "fix tests/a.py:1"], "python", [⟨"tests/a.py", 1, 1, none⟩], false⟩ := by
    decide +kernel
  rw [evidence, hbuilt, hparsed]
  decide +kernel

/-- The directory of a file becomes a file: the later check raises. -/
theorem directory_became_file :
    evidence asciiHost defaultIndex oneFile "REQ-1: fix tests/a.py:1" = .ok [firstLine] ∧
    revalidateEvidence asciiHost defaultIndex fileForDirectory [firstLine] = .error .osError ∧
    ¬ Revalidated asciiHost defaultIndex oneFile fileForDirectory [firstLine] := by
  have hraised : revalidateEvidence asciiHost defaultIndex fileForDirectory [firstLine] =
      .error .osError := by decide +kernel
  refine ⟨evidence_oneFile, hraised, ?_⟩
  rintro ⟨checked, hchecked, -⟩
  rw [hraised] at hchecked
  cases hchecked

theorem sha256_injective : Function.Injective asciiHost.sha256 := by
  intro a b h
  have hchars := congrArg String.toList (show "h" ++ a = "h" ++ b from h)
  rw [String.toList_append, String.toList_append] at hchars
  exact String.toList_inj.mp (List.append_cancel_left hchars)

/-- An edit behind the lines of an item: the later check is exact. -/
theorem edited_revalidated : Revalidated asciiHost defaultIndex oneFile edited [firstLine] :=
  (revalidated_iff sha256_injective evidence_oneFile).mpr (by decide +kernel)

end Sample

end AiSaas.ProjectPacks
