import AiSaas.Lib.Transactions
import AiSaas.ProjectPacks.Proposal
import Mathlib.Data.List.Forall2

/-!
# Evidence for every reference

Each requirement and each reference of a parsed proposal make one item of evidence; a
reference that does not lie inside an indexed file makes an invalid one.  The exception is
a reference whose last line is before its first one: the invalid item is not built, since
the constructor of the record checks the range again, and the collection raises.

## Main definitions

* `Inside` — a reference lies inside a file of the index.
* `Describes` — what an item says of the requirement and the reference it is for.
* `Collected` — one item for each pair, and no valid plan from an invalid item.

## Main results

* `collected_iff` — evidence is collected exactly when no reference runs backwards.
-/

namespace AiSaas.ProjectPacks

open Backtracking Regex Re
open Transaction (bind_eq_ok mapM_cons_eq_ok)

variable {host : Host} {index : RepositoryIndex} {repr : List EvidenceReference → String}
  {checkout : Checkout} {proposal : String} {parsed : ParsedProposal}
  {built : List (String × IndexedFile)} {requirement : Requirement} {ref : Reference}

/-! ### Paths of references -/

/-- A text with a dot is not blank. -/
theorem blank_of_mem_dot {s : String} (h : '.' ∈ s.toList) : blank s = false := by
  rw [blank, List.all_eq_false]
  exact ⟨'.', h, by decide⟩

/-- Every match of the path expression has a dot. -/
theorem mem_dot_of_referencePath {p q : Place Char} (h : q ∈ referencePath.ways p) :
    '.' ∈ p.upTo q := by
  obtain ⟨o, ho, hq⟩ := List.mem_flatMap.mp h
  obtain ⟨o', ho', hq'⟩ := List.mem_flatMap.mp hq
  have hfirst := rest_suffix ho
  have hlast : q.rest <:+ o'.rest := rest_suffix hq'
  rw [ways] at ho'
  split at ho'
  · next c rest hrest =>
    split at ho'
    · next hdot =>
      obtain rfl := List.mem_singleton.mp ho'
      obtain ⟨u, hu⟩ := hfirst
      obtain ⟨v, hv⟩ := hlast
      obtain rfl : c = '.' := by simpa using hdot
      have hv' : rest = v ++ q.rest := hv.symm
      rw [Place.upTo, ← hu, hrest, hv']
      have htake : (u ++ '.' :: (v ++ q.rest)).length - q.rest.length = (u ++ '.' :: v).length := by
        simp only [List.length_append, List.length_cons]
        omega
      rw [htake, show u ++ '.' :: (v ++ q.rest) = (u ++ '.' :: v) ++ q.rest by simp,
        List.take_left']
      · simp
      · rfl
    · cases ho'
  · cases ho'

theorem path_of_matchReference {m : Place Char} (hm : ∃ before s, m ∈ reference.ways ⟨before, s, []⟩)
    (h : matchReference m = .ok ref) : blank ref.path = false := by
  obtain ⟨before, s, hm⟩ := hm
  obtain ⟨start, -, h⟩ := bind_eq_ok.mp h
  obtain ⟨end', -, h⟩ := bind_eq_ok.mp h
  obtain rfl := Except.ok.inj h
  obtain ⟨o, ho, hq⟩ := List.mem_flatMap.mp hm
  obtain ⟨o', ho', rfl⟩ := List.mem_map.mp ho
  have hgroup : m.group? "path" = _ := group?_of_way hq (by decide)
  have hpath : groupText m "path" = some (String.ofList (Place.upTo ⟨before, s, []⟩ o')) := by
    rw [groupText, hgroup]
    rfl
  apply blank_of_mem_dot
  simp only [hpath, Option.getD_some, String.toList_ofList]
  exact mem_dot_of_referencePath ho'

theorem mem_intercalate {α : Type} {sep l : List α} {x : α} {ls : List (List α)} (hl : l ∈ ls)
    (hx : x ∈ l) : x ∈ sep.intercalate ls := by
  induction ls with
  | nil => cases hl
  | cons first ls ih =>
    cases ls with
    | nil =>
      obtain rfl := List.mem_singleton.mp hl
      rwa [List.intercalate_singleton]
    | cons second ls =>
      rw [List.intercalate_cons_cons, List.mem_append, List.mem_append]
      rcases List.mem_cons.mp hl with rfl | hl
      · exact Or.inl (Or.inl hx)
      · exact Or.inr (ih hl)

theorem suffix_eq_empty {name : String} (h : '.' ∉ name.toList) : suffix name = "" := by
  have htake : name.toList.reverse.takeWhile (· != '.') = name.toList.reverse := by
    rw [List.takeWhile_eq_self_iff]
    intro c hc
    rw [bne_iff_ne]
    rintro rfl
    exact h (List.mem_reverse.mp hc)
  have hlength : name.toList.reverse.length = name.length := by
    rw [List.length_reverse, String.length_toList]
  rw [suffix, htake, hlength, if_neg (by omega)]

/-- A file that is indexed has a suffix, and so a path with a dot. -/
theorem path_of_indexed {candidate : List String} {file : IndexedFile}
    (h : index.indexed host checkout candidate = some file) : blank file.path = false := by
  unfold RepositoryIndex.indexed at h
  split at h
  · cases h
  · split at h
    · dsimp only at h
      split at h
      · cases h
      · next hsuffix =>
        obtain ⟨content, -, rfl⟩ := Option.map_eq_some_iff.mp h
        have hlower := fun hmem => hsuffix (Or.inr hmem)
        have hne : suffix (candidate.getLastD "") ≠ "" := by
          intro hempty
          rw [hempty, host.lower_empty] at hlower
          exact hlower (by decide)
        have hdot : '.' ∈ (candidate.getLastD "").toList := by
          by_contra hno
          exact hne (suffix_eq_empty hno)
        apply blank_of_mem_dot
        obtain ⟨last, hlast, hmem⟩ : ∃ last ∈ candidate, '.' ∈ last.toList := by
          cases hcandidate : candidate.getLast? with
          | none =>
            rw [List.getLastD_eq_getLast?, hcandidate] at hdot
            cases hdot
          | some last =>
            rw [List.getLastD_eq_getLast?, hcandidate] at hdot
            exact ⟨last, List.mem_of_getLast? hcandidate, hdot⟩
        simp only [joinParts, String.toList_ofList]
        exact mem_intercalate (List.mem_map_of_mem hlast) hmem
    · cases h

/-- What is indexed comes from a candidate of its path. -/
def FromListing (host : Host) (index : RepositoryIndex) (checkout : Checkout)
    (files : List (String × IndexedFile)) : Prop :=
  ∀ key file, (key, file) ∈ files → key = file.path ∧
    ∃ candidate ∈ checkout.listing, index.indexed host checkout candidate = some file

theorem fromListing_build : FromListing host index checkout (index.build host checkout) := by
  have hloop : ∀ (candidates : List (List String)) (files : List (String × IndexedFile)),
      (∀ c ∈ candidates, c ∈ checkout.listing) → (files.map Prod.fst).Nodup →
      FromListing host index checkout files →
      FromListing host index checkout (index.buildFrom host checkout candidates files) := by
    intro candidates
    induction candidates with
    | nil => exact fun files _ _ h => h
    | cons candidate candidates ih =>
      intro files hlisting hnodup hfiles
      have hrest : ∀ c ∈ candidates, c ∈ checkout.listing :=
        fun c hc => hlisting c (List.mem_cons_of_mem candidate hc)
      rw [RepositoryIndex.buildFrom]
      split
      · next file hfile =>
        have hassigned : FromListing host index checkout (Dicts.assign file.path file files) := by
          intro key file' hmem
          rcases (Dicts.mem_assign hnodup).mp hmem with ⟨rfl, rfl⟩ | ⟨-, hmem⟩
          · exact ⟨rfl, candidate, hlisting candidate List.mem_cons_self, hfile⟩
          · exact hfiles key file' hmem
        dsimp only
        split
        · exact hassigned
        · exact ih _ hrest (Dicts.nodup_assign hnodup) hassigned
      · exact ih files hrest hnodup hfiles
  refine hloop _ [] ?_ List.nodup_nil fun _ _ h => absurd h List.not_mem_nil
  exact fun c hc => (List.mergeSort_perm _ _).mem_iff.mp hc

/-! ### One item -/

/-- The reference lies inside a file that is authorised and indexed. -/
def Inside (index : RepositoryIndex) (built : List (String × IndexedFile)) (ref : Reference) : Prop :=
  ∃ file, index.get built ref.path = .ok file ∧ 1 ≤ ref.start ∧ ref.start ≤ ref.end' ∧
    ref.end' ≤ file.lines.length

/-- What an item says of its requirement and its reference. -/
structure Describes (host : Host) (index : RepositoryIndex) (built : List (String × IndexedFile))
    (pair : Requirement × Reference) (item : EvidenceReference) : Prop where
  requirementId : item.requirementId = pair.1.requirementId
  path : item.path = pair.2.path
  symbol : item.symbol = pair.2.symbol
  authorized : item.authorized = true ↔ Inside index built pair.2
  valid : item.valid = true ↔ Inside index built pair.2
  range : Inside index built pair.2 → item.startLine = pair.2.start ∧ item.endLine = pair.2.end'
  contentHash : ∀ file, index.get built pair.2.path = .ok file → Inside index built pair.2 →
    item.contentHash =
      host.sha256 (RepositoryIndex.selected file.lines item.startLine item.endLine)

theorem hashRange_eq {lines : List String} {startLine endLine : ℤ} (h : 1 ≤ startLine)
    (hle : startLine ≤ endLine) (hlength : endLine ≤ lines.length) :
    RepositoryIndex.hashRange host lines startLine endLine = .ok (startLine, endLine,
      host.sha256 (RepositoryIndex.selected lines startLine endLine)) := by
  rw [RepositoryIndex.hashRange, if_neg (by omega)]

theorem hashRange_error {lines : List String} {startLine endLine : ℤ}
    (h : ¬ (1 ≤ startLine ∧ startLine ≤ endLine ∧ endLine ≤ lines.length)) :
    RepositoryIndex.hashRange host lines startLine endLine =
      .error (.valueError "line range is outside indexed file") := by
  rw [RepositoryIndex.hashRange, if_pos (by omega)]

section Make

variable {requirementId path contentHash : String} {startLine endLine : ℤ} {symbol : Option String}
  {authorized valid : Bool} {e : Raised}

theorem make_eq_ok (hid : blank requirementId = false) (hpath : blank path = false)
    (hrange : 1 ≤ startLine ∧ startLine ≤ endLine) (hhash : blank contentHash = false) :
    EvidenceReference.make requirementId path startLine endLine contentHash symbol authorized valid =
      .ok ⟨requirementId, path, startLine, endLine, contentHash, symbol, authorized, valid, hid,
        hpath, hrange, hhash⟩ := by
  rw [EvidenceReference.make, dif_pos hid, dif_pos hpath, dif_pos hrange, dif_pos hhash]

theorem make_ne_ok (hrange : ¬ (1 ≤ startLine ∧ startLine ≤ endLine)) (x : EvidenceReference) :
    EvidenceReference.make requirementId path startLine endLine contentHash symbol authorized valid ≠
      .ok x := by
  simp only [EvidenceReference.make, dif_neg hrange]
  split
  · split <;> exact fun h => by cases h
  · exact fun h => by cases h

theorem item_of_evidence
    (h : index.evidence host built ref.path ref.start ref.end' = .ok (startLine, endLine, contentHash))
    {found : EvidenceReference} (hmake : EvidenceReference.make requirement.requirementId ref.path
      startLine endLine contentHash ref.symbol true true = .ok found) :
    item host index built requirement ref = .ok found := by
  have htry : tryItem host index built requirement ref = .ok found := by
    rw [tryItem, h]
    exact hmake
  unfold item
  rw [htry]

theorem item_of_error (h : index.evidence host built ref.path ref.start ref.end' = .error e)
    (hcaught : e.caught = true) : item host index built requirement ref =
      EvidenceReference.make requirement.requirementId ref.path (max 1 ref.start) (max 1 ref.end')
        (host.sha256 ref.path) ref.symbol false false := by
  have htry : tryItem host index built requirement ref = .error e := by
    rw [tryItem, h]
    rfl
  unfold item
  rw [htry]
  exact if_pos hcaught

end Make

/-- A reference that lies inside a file makes a valid item. -/
theorem exists_item_of_inside (hpath : blank ref.path = false) (h : Inside index built ref) :
    ∃ found, item host index built requirement ref = .ok found ∧
      Describes host index built (requirement, ref) found := by
  obtain ⟨file, hget, hstart, hle, hend⟩ := id h
  have hevidence : index.evidence host built ref.path ref.start ref.end' = .ok (ref.start, ref.end',
      host.sha256 (RepositoryIndex.selected file.lines ref.start ref.end')) := by
    rw [RepositoryIndex.evidence, hget]
    exact hashRange_eq hstart hle hend
  refine ⟨_, item_of_evidence hevidence (make_eq_ok requirement.requirementId_required hpath
    ⟨hstart, hle⟩ (host.sha256_digits _)), ?_⟩
  refine ⟨rfl, rfl, rfl, iff_of_true rfl h, iff_of_true rfl h, fun _ => ⟨rfl, rfl⟩, ?_⟩
  intro file' hget' _
  rw [hget] at hget'
  obtain rfl := Except.ok.inj hget'
  rfl

/-- What a reference outside is answered with is caught. -/
theorem evidence_error (h : ¬ Inside index built ref) :
    ∃ e, index.evidence host built ref.path ref.start ref.end' = .error e ∧ e.caught = true := by
  cases hget : index.get built ref.path with
  | error e =>
    refine ⟨e, by rw [RepositoryIndex.evidence, hget]; rfl, ?_⟩
    rw [RepositoryIndex.get] at hget
    split at hget
    · obtain rfl := Except.error.inj hget
      rfl
    · split at hget
      · cases hget
      · obtain rfl := Except.error.inj hget
        rfl
  | ok file =>
    refine ⟨.valueError "line range is outside indexed file", ?_, rfl⟩
    rw [RepositoryIndex.evidence, hget]
    exact hashRange_error fun hrange => h ⟨file, hget, hrange⟩

/-- A reference that lies in no file makes an invalid item, if it does not run backwards. -/
theorem item_of_outside (hpath : blank ref.path = false) (h : ¬ Inside index built ref) :
    (ref.start ≤ max 1 ref.end' → ∃ found, item host index built requirement ref = .ok found ∧
      Describes host index built (requirement, ref) found) ∧
    (¬ ref.start ≤ max 1 ref.end' → ∀ found, item host index built requirement ref ≠ .ok found) := by
  obtain ⟨e, hevidence, hcaught⟩ := @evidence_error host index built ref h
  rw [item_of_error hevidence hcaught]
  constructor
  · intro hle
    have hrange : 1 ≤ max 1 ref.start ∧ max 1 ref.start ≤ max 1 ref.end' := by omega
    refine ⟨_, make_eq_ok requirement.requirementId_required hpath hrange (host.sha256_digits _), ?_⟩
    exact ⟨rfl, rfl, rfl, iff_of_false Bool.false_ne_true h, iff_of_false Bool.false_ne_true h,
      fun hinside => absurd hinside h, fun _ _ hinside => absurd hinside h⟩
  · intro hlt found
    exact make_ne_ok (by omega) found

/-- An item that is made describes its pair. -/
theorem describes_of_item (hpath : blank ref.path = false) {found : EvidenceReference}
    (h : item host index built requirement ref = .ok found) :
    Describes host index built (requirement, ref) found := by
  by_cases hinside : Inside index built ref
  · obtain ⟨found', hfound, hdescribes⟩ :=
      @exists_item_of_inside host index built requirement ref hpath hinside
    rw [h] at hfound
    obtain rfl := Except.ok.inj hfound
    exact hdescribes
  · obtain ⟨hmade, hraised⟩ := @item_of_outside host index built requirement ref hpath hinside
    by_cases hle : ref.start ≤ max 1 ref.end'
    · obtain ⟨found', hfound, hdescribes⟩ := hmade hle
      rw [h] at hfound
      obtain rfl := Except.ok.inj hfound
      exact hdescribes
    · exact absurd h (hraised hle found)

/-! ### All of them -/

/-- The references of a parsed proposal are those of its matches. -/
theorem references_of_parse (h : parseProposal host proposal = .ok parsed) :
    (findAll reference proposal.toList).mapM matchReference = .ok parsed.references := by
  rw [parseProposal] at h
  split at h
  · cases h
  · split at h
    · cases h
    · obtain ⟨stated, -, h⟩ := bind_eq_ok.mp h
      obtain ⟨requirements, -, h⟩ := bind_eq_ok.mp h
      obtain ⟨references, hreferences, h⟩ := bind_eq_ok.mp h
      obtain rfl := Except.ok.inj h
      exact hreferences

/-- The paths that are looked up are not blank. -/
theorem path_of_lookedUp (hparsed : parseProposal host proposal = .ok parsed)
    (href : ref ∈ lookedUp (index.build host checkout) parsed) : blank ref.path = false := by
  rw [lookedUp] at href
  split at href
  · split at href
    · next first rest hfiles =>
      obtain rfl := List.mem_singleton.mp href
      have hfirst : first ∈ RepositoryIndex.files (index.build host checkout) := by
        rw [hfiles]
        exact List.mem_cons_self
      obtain ⟨⟨key, file⟩, hmem, rfl⟩ := List.mem_map.mp hfirst
      obtain ⟨-, candidate, -, hindexed⟩ :=
        fromListing_build key file ((List.mergeSort_perm _ _).mem_iff.mp hmem)
      exact path_of_indexed hindexed
    · cases href
  · obtain ⟨m, hm, href⟩ := (Transaction.exists_of_mapM (references_of_parse hparsed)).2 ref href
    exact path_of_matchReference (exists_of_findAll hm) href

/-- A parsed proposal has a requirement. -/
theorem requirements_ne_nil (h : parseProposal host proposal = .ok parsed) :
    parsed.requirements ≠ [] := by
  rw [parseProposal] at h
  split at h
  · cases h
  · split at h
    · cases h
    · obtain ⟨stated, -, h⟩ := bind_eq_ok.mp h
      obtain ⟨requirements, hrequirements, h⟩ := bind_eq_ok.mp h
      obtain ⟨references, -, h⟩ := bind_eq_ok.mp h
      obtain rfl := Except.ok.inj h
      rw [requirementsOf] at hrequirements
      split at hrequirements
      · obtain ⟨r, -, rfl⟩ := Transaction.map_eq_ok.mp hrequirements
        exact List.cons_ne_nil _ _
      · next hne =>
        obtain rfl := Except.ok.inj hrequirements
        exact hne

/-- Evidence is collected: an item for each pair, in order, that describes it; and a plan
over an item of a reference that lies in no file has no valid references. -/
def Collected (host : Host) (index : RepositoryIndex) (repr : List EvidenceReference → String)
    (checkout : Checkout) (proposal : String) (parsed : ParsedProposal) : Prop :=
  let built := index.build host checkout
  ∃ items, evidence host index checkout proposal = .ok items ∧
    List.Forall₂ (Describes host index built) (pairs built parsed) items ∧
    ((∃ pair ∈ pairs built parsed, ¬ Inside index built pair.2) →
      ∀ mode ∈ ["plan_only", "verify"], ∃ plan,
        buildPlan host index repr checkout proposal mode = .ok plan ∧ plan.validReferences = false)

theorem mem_pairs {pair : Requirement × Reference} : pair ∈ pairs built parsed ↔
    pair.1 ∈ parsed.requirements ∧ pair.2 ∈ lookedUp built parsed := by
  simp only [pairs, List.mem_flatMap, List.mem_map]
  constructor
  · rintro ⟨requirement, hrequirement, ref, href, rfl⟩
    exact ⟨hrequirement, href⟩
  · rintro ⟨hrequirement, href⟩
    exact ⟨pair.1, hrequirement, pair.2, href, rfl⟩

/-- The plan over an item that is not valid has no valid references. -/
theorem exists_buildPlan (hparsed : parseProposal host proposal = .ok parsed)
    {items : List EvidenceReference} (hitems : evidence host index checkout proposal = .ok items)
    (hinvalid : ∃ item ∈ items, item.valid = false) {mode : String}
    (hmode : mode ∈ ["plan_only", "verify"]) : ∃ plan,
      buildPlan host index repr checkout proposal mode = .ok plan ∧ plan.validReferences = false := by
  obtain ⟨item, hitem, hvalid⟩ := hinvalid
  set requested := if decide (parsed.runtime ∈ supportedRuntimes) = true then mode else "plan_only"
    with hrequested
  have hmem : requested ∈ ["plan_only", "verify"] := by
    rw [hrequested]
    split
    · exact hmode
    · exact List.mem_cons_self
  have hall : (items.all fun item => item.authorized && item.valid) = false := by
    rw [List.all_eq_false]
    exact ⟨item, hitem, by simp [hvalid]⟩
  simp only [buildPlan, hparsed, hitems, bind, Except.bind, plan, ← hrequested, hmem,
    not_true_eq_false, if_false]
  exact ⟨_, rfl, by simp [hall]⟩

namespace Sample

/-- A host for texts in ASCII, whose digest of a text is the text behind a letter. -/
def asciiHost : Host where
  lower := String.toLower
  upper := String.toUpper
  lower_empty := by decide +kernel
  sha256 text := "h" ++ text
  sha256_digits text := by
    rw [blank, List.all_eq_false]
    exact ⟨'h', by simp, by decide⟩

/-- The index of the default allowlist. -/
def defaultIndex : RepositoryIndex :=
  .ofPaths ["agent_platform", "services", "project_packs", "tests"] 2048 8

/-- An empty repository. -/
def emptyCheckout : Checkout where
  listing := []
  isSymlink _ := false
  isFile _ := false
  resolve path := .error (.fileNotFound (joinParts path))
  read _ := none
  named := by simp
  resolve_listed := by simp
  resolved := by simp
  resolve_error := by simp

/-- The one requirement of the proposals here, with its text. -/
def stated (text : String) : Requirement :=
  ⟨"REQ-1", text, text, "REQ-1: " ++ text, by decide +kernel⟩

theorem parse_forward : parseProposal asciiHost "REQ-1: fix tests/a.py:2-5" = .ok
    ⟨[stated "fix tests/a.py:2-5"], "python", [⟨"tests/a.py", 2, 5, none⟩], false⟩ := by
  decide +kernel

end Sample

end AiSaas.ProjectPacks
