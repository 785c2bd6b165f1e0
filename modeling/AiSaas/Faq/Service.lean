import AiSaas.Faq.Text
import Mathlib.Data.List.Lex
import Mathlib.Data.List.Nodup
import Mathlib.Data.Rat.Defs
import Mathlib.Algebra.Order.Ring.Unbundled.Rat

/-!
# Answers to questions

`answerFaq` of `apps/web/lib/faq/service.ts`, with `matchFaq` of `matcher.ts`, the schemas of
`contracts.ts` and the decision of `parseOpenAi` of `openai.ts`.

## Main definitions

* `Catalog`, `Question` — what the schemas accept.
* `matchFaq` — the entry that matches exactly, and the five closest ones.
* `parseOpenAi` — the selection of a model's decision.
* `answerFaq` — the response.
* `Dependable` — what is said of the responses to two questions.
* `Guarded` — where the code does what is said.

## Main results

* `matchFaq_perm` — neither part of a match depends on the order of the entries.
* `answerFaq_eq` — a response is the fallback of a sensitive question, or settled by what is
  the same for two spellings.
* `dependable_iff` — the responses are dependable exactly where they are guarded.
-/

namespace AiSaas
namespace Faq

/-! ### Schemas -/

structure FaqEntry where
  id : JsText
  category : JsText
  question : JsText
  aliases : List JsText
  answer : JsText
  deriving DecidableEq

/-- A text with so many units, and one at least. -/
def bounded (most : ℕ) (text : JsText) : Bool := 1 ≤ text.length && text.length ≤ most

/-- `/^[a-z][a-z0-9-]{0,39}$/` -/
def validId : JsText → Bool
  | [] => false
  | u :: rest => (97 ≤ u && u ≤ 122) && rest.length ≤ 39 &&
      rest.all fun v => (97 ≤ v && v ≤ 122) || digit v || v == 45

/-- `entrySchema` -/
def entrySchema (row : FaqEntry) : Bool :=
  validId row.id && bounded 40 row.category && bounded 200 row.question &&
    (row.aliases.all (bounded 200) && row.aliases.length ≤ 10) && bounded 2000 row.answer

/-- `catalogSchema` -/
def catalogSchema (rows : List FaqEntry) : Bool :=
  rows.all entrySchema && rows.length ≤ 50 && decide (rows.map FaqEntry.id).Nodup

/-- A valid catalog. -/
structure Catalog where
  entries : List FaqEntry
  valid : catalogSchema entries = true

/-- The question of `requestSchema`. -/
def requestSchema (text : JsText) : Option JsText :=
  if bounded 500 (trim text) then some (trim text) else none

/-- A question that is accepted. -/
structure Question where
  text : JsText
  accepted : ∃ raw, requestSchema raw = some text

inductive Outcome where
  | clarify
  | handoff
  deriving DecidableEq, Repr

/-- A response, but for its version and support, which are those of all. -/
inductive FaqResponse where
  | answer (faqId answer : JsText)
  | fallback (outcome : Outcome) (message : String)
  deriving DecidableEq

/-- `fallback` -/
def fallback (outcome : Outcome) : FaqResponse :=
  .fallback outcome <| match outcome with
    | .clarify => "Please choose a preset question or rephrase without personal details."
    | .handoff => "Please use the support guide for further help."

/-! ### Matching -/

/-- The interpreter, with `a.localeCompare(b) <= 0`, which orders ids. -/
structure FaqHost extends TextHost where
  localeLe : JsText → JsText → Bool
  nfkc_nfkc : ∀ s, nfkc (nfkc s) = nfkc s
  localeLe_total : ∀ a b, (localeLe a b || localeLe b a) = true
  localeLe_trans : ∀ a b c, localeLe a b = true → localeLe b c = true → localeLe a c = true
  localeLe_antisymm : ∀ a b, validId a = true → validId b = true → localeLe a b = true →
    localeLe b a = true → a = b

variable (host : FaqHost)

/-- The question of an entry or one of its aliases is the query. -/
def matchesQuery (query : JsText) (row : FaqEntry) : Bool :=
  (row.question :: row.aliases).any fun x => normalize host.toTextHost x == query

/-- How many words of an entry are words of the query. -/
def score (query : JsText) (row : FaqEntry) : ℕ :=
  let words := query.splitOn 0x20
  let own := normalize host.toTextHost ((units " ").intercalate (row.question :: row.aliases))
  ((own.splitOn 0x20).filter fun w => words.contains w).length

/-- An entry comes no later than another one. -/
def before (query : JsText) (a b : FaqEntry) : Bool :=
  decide (score host query b < score host query a) ||
    (score host query a == score host query b && host.localeLe a.id b.id)

/-- What `matchFaq` finds. -/
structure FaqMatch where
  exact : Option FaqEntry
  candidates : List FaqEntry

/-- `exact.length === 1 ? exact[0] : undefined` -/
def theOnly : List FaqEntry → Option FaqEntry
  | [row] => some row
  | _ => none

/-- `matchFaq` -/
def matchFaq (text : JsText) (entries : List FaqEntry) : FaqMatch :=
  let query := normalize host.toTextHost text
  { exact := theOnly (entries.filter (matchesQuery host query))
    candidates := (entries.mergeSort (before host query)).take 5 }

/-! ### Providers -/

/-- A number of JavaScript. -/
inductive JsNumber where
  | nan
  | infinity
  | negInfinity
  | finite (q : ℚ)
  deriving DecidableEq

structure Selection where
  faqId : JsText
  category : JsText
  confidence : JsNumber
  answerable : JsNumber
  deriving DecidableEq

/-- A provider, by what it selects for a text among some candidates; without a result it
throws. -/
abbrev FaqProvider := JsText → List FaqEntry → Option (Option Selection)

/-- What a model decides, as `decisionSchema` reads it. -/
structure Decision where
  faqId : JsText
  category : JsText
  answerable : Bool
  confidence : JsNumber

/-- `z.number().min(0).max(1)` -/
def probability : JsNumber → Bool
  | .finite q => 0 ≤ q && q ≤ 1
  | _ => false

/-- `parseOpenAi`, from the decision on. -/
def parseOpenAi (decision : Decision) (candidates : List FaqEntry) : Option Selection :=
  let known := candidates.map FaqEntry.id ++ [units "none"]
  let categories := candidates.map FaqEntry.category ++ [units "none"]
  if bounded 40 decision.faqId && bounded 40 decision.category && probability decision.confidence &&
      known.contains decision.faqId && categories.contains decision.category then
    some ⟨decision.faqId, decision.category, decision.confidence,
      .finite (if decision.answerable then 1 else 0)⟩
  else none

/-- The provider of `createOpenAiProvider` while its circuit is closed; `reply` is what the
model decides, if it does. -/
def openAiProvider (reply : JsText → List FaqEntry → Option Decision) : FaqProvider :=
  fun text candidates =>
    if candidates.isEmpty || decide (5 < candidates.length) || isSensitive host.toTextHost text then some none
    else do
      let decision ← reply (normalize host.toTextHost (redact host.toTextHost text)) candidates
      let selection ← parseOpenAi decision candidates
      some (some selection)

/-! ### Answers -/

/-- The double next to `0.85`. -/
def least : ℚ := 7656119366529843 / 9007199254740992

/-- A finite number from `0.85` to `1`. -/
def confident : JsNumber → Bool
  | .finite q => least ≤ q && q ≤ 1
  | _ => false

def answer (row : FaqEntry) : FaqResponse := .answer row.id row.answer

/-- The candidate of a selection. -/
def selected (candidates : List FaqEntry) (selection : Selection) : Option FaqEntry :=
  candidates.find? fun x => x.id == selection.faqId && x.category == selection.category

/-- What is said of a selection. -/
def decided (candidates : List FaqEntry) (selection : Selection) : FaqResponse :=
  match selected candidates selection with
  | none => fallback .clarify
  | some row =>
    if confident selection.confidence && confident selection.answerable then answer row
    else fallback .clarify

/-- What the provider selects for a question. -/
def selection? (provider : FaqProvider) (text : JsText) (candidates : List FaqEntry) :
    Option (Option Selection) :=
  provider (normalize host.toTextHost (redact host.toTextHost text)) candidates

/-- The response to a question that is not sensitive. -/
def settled (provider : FaqProvider) (text : JsText) : FaqMatch → FaqResponse
  | ⟨some row, _⟩ => answer row
  | ⟨none, candidates⟩ =>
    if candidates.isEmpty then fallback .handoff
    else
      match selection? host provider text candidates with
      | none => fallback .handoff
      | some none => fallback .clarify
      | some (some selection) => decided candidates selection

/-- `answerFaq`; `repository` is what it lists, if it does. -/
def answerFaq (question : JsText) (repository : Option (List FaqEntry)) (provider : FaqProvider) :
    FaqResponse :=
  match repository with
  | none => fallback .handoff
  | some entries =>
    if catalogSchema entries then
      if isSensitive host.toTextHost question then fallback .handoff
      else settled host provider question (matchFaq host question entries)
    else fallback .handoff

/-! ### What is said of the responses -/

/-- The response to a question over a catalog. -/
def respond (provider : FaqProvider) (catalog : Catalog) (question : Question) : FaqResponse :=
  answerFaq host question.text (some catalog.entries) provider

/-- The match of a question. -/
def matchOf (catalog : Catalog) (question : Question) : FaqMatch :=
  matchFaq host question.text catalog.entries

/-- The entry is the only one that matches the question. -/
def OnlyMatch (catalog : Catalog) (question : Question) (row : FaqEntry) : Prop :=
  ∀ r, r ∈ catalog.entries ∧ matchesQuery host (normalize host.toTextHost question.text) r = true ↔
    r = row

/-- The entry is a candidate that the provider chose with confidence. -/
def Chosen (provider : FaqProvider) (catalog : Catalog) (question : Question) (row : FaqEntry) : Prop :=
  row ∈ (matchOf host catalog question).candidates ∧
    ∃ selection, selection? host provider question.text (matchOf host catalog question).candidates =
        some (some selection) ∧ selection.faqId = row.id ∧ selection.category = row.category ∧
      confident selection.confidence = true ∧ confident selection.answerable = true

/-- The provider is asked about the question. -/
def Asked (catalog : Catalog) (question : Question) : Prop :=
  isSensitive host.toTextHost question.text = false ∧ (matchOf host catalog question).exact = none ∧
    catalog.entries ≠ []

/-- What is said of the responses to two questions. -/
structure Dependable (provider : FaqProvider) (catalog : Catalog) (q q' : Question) : Prop where
  /-- An answer is one of the catalog, matched by no other entry or chosen with confidence. -/
  sound : ∀ id text, respond host provider catalog q = .answer id text →
    ∃ row ∈ catalog.entries, row.id = id ∧ row.answer = text ∧
      (OnlyMatch host catalog q row ∨ Chosen host provider catalog q row)
  /-- A selection of `none` answers nothing. -/
  none : Asked host catalog q → ∀ selection, selection.faqId = units "none" →
    selection? host provider q.text (matchOf host catalog q).candidates = some (some selection) →
    ∀ id text, respond host provider catalog q ≠ .answer id text
  /-- Two spellings of one question have one response. -/
  spelling : host.nfkc q.text = host.nfkc q'.text →
    respond host provider catalog q = respond host provider catalog q'
  /-- The order of the catalog does not matter. -/
  order : ∀ catalog' : Catalog, catalog'.entries.Perm catalog.entries →
    respond host provider catalog' q = respond host provider catalog q

/-- Where the provider is asked and selects `none` with confidence, no candidate with that id
has the selected category.  Of two spellings of one question both have a keyword or neither
has, or redaction changes them, or there is no exact match and the provider, if it is asked,
throws. -/
structure Guarded (provider : FaqProvider) (catalog : Catalog) (q q' : Question) : Prop where
  none : Asked host catalog q → ∀ selection, selection.faqId = units "none" →
    selection? host provider q.text (matchOf host catalog q).candidates = some (some selection) →
    confident selection.confidence = true → confident selection.answerable = true →
    ∀ row ∈ (matchOf host catalog q).candidates, row.id = units "none" →
      row.category ≠ selection.category
  spelling : host.nfkc q.text = host.nfkc q'.text →
    hasKeyword q.text = hasKeyword q'.text ∨ redacts host.toTextHost q.text = true ∨
      ((matchOf host catalog q).exact = .none ∧ (catalog.entries = [] ∨
        selection? host provider q.text (matchOf host catalog q).candidates = .none))

variable {host} {provider : FaqProvider} {catalog catalog' : Catalog} {q q' : Question}
  {row : FaqEntry} {query text text' : JsText} {entries entries' : List FaqEntry}
  {candidates : List FaqEntry} {selection : Selection}

/-! ### Catalogs -/

theorem Catalog.validId_of_mem (h : row ∈ catalog.entries) : validId row.id = true := by
  have hvalid := catalog.valid
  simp only [catalogSchema, Bool.and_eq_true] at hvalid
  have hrow := List.all_eq_true.mp hvalid.1.1 row h
  simp only [entrySchema, Bool.and_eq_true] at hrow
  exact hrow.1.1.1.1

theorem Catalog.nodup_ids (catalog : Catalog) : (catalog.entries.map FaqEntry.id).Nodup := by
  have hvalid := catalog.valid
  simp only [catalogSchema, Bool.and_eq_true] at hvalid
  exact of_decide_eq_true hvalid.2

/-- An entry is known by its id. -/
theorem Catalog.eq_of_id {row' : FaqEntry} (h : row ∈ catalog.entries) (h' : row' ∈ catalog.entries)
    (hid : row.id = row'.id) : row = row' :=
  List.inj_on_of_nodup_map catalog.nodup_ids h h' hid

/-! ### Matching -/

theorem theOnly_eq_some_iff {l : List FaqEntry} : theOnly l = some row ↔ l = [row] := by
  constructor
  · intro h
    unfold theOnly at h
    split at h
    · rw [Option.some.inj h]
    · cases h
  · rintro rfl
    rfl

theorem theOnly_perm {l l' : List FaqEntry} (h : l.Perm l') : theOnly l = theOnly l' := by
  refine Option.ext fun row => ?_
  rw [theOnly_eq_some_iff, theOnly_eq_some_iff]
  constructor
  · rintro rfl
    exact (List.singleton_perm.mp h).symm
  · rintro rfl
    exact List.perm_singleton.mp h

theorem before_total (a b : FaqEntry) : (before host query a b || before host query b a) = true := by
  have htotal := host.localeLe_total a.id b.id
  simp only [before, Bool.or_eq_true, Bool.and_eq_true, decide_eq_true_eq, beq_iff_eq] at htotal ⊢
  rcases lt_trichotomy (score host query a) (score host query b) with hlt | heq | hgt
  · exact Or.inr (Or.inl hlt)
  · exact htotal.elim (fun h => Or.inl (Or.inr ⟨heq, h⟩)) fun h => Or.inr (Or.inr ⟨heq.symm, h⟩)
  · exact Or.inl (Or.inl hgt)

theorem before_trans (a b c : FaqEntry) (hab : before host query a b = true)
    (hbc : before host query b c = true) : before host query a c = true := by
  simp only [before, Bool.or_eq_true, Bool.and_eq_true, decide_eq_true_eq, beq_iff_eq] at hab hbc ⊢
  rcases hab with hab | ⟨hab, hle⟩
  · exact hbc.elim (fun h => Or.inl (by omega)) fun h => Or.inl (by omega)
  · exact hbc.elim (fun h => Or.inl (by omega)) fun h =>
      Or.inr ⟨by omega, host.localeLe_trans _ _ _ hle h.2⟩

/-- Entries of a catalog that come no later than each other are the same. -/
theorem eq_of_before {row' : FaqEntry} (h : row ∈ catalog.entries) (h' : row' ∈ catalog.entries)
    (hle : before host query row row' = true) (hge : before host query row' row = true) :
    row = row' := by
  simp only [before, Bool.or_eq_true, Bool.and_eq_true, decide_eq_true_eq, beq_iff_eq] at hle hge
  refine Catalog.eq_of_id h h' ?_
  rcases hle with hlt | ⟨heq, hle⟩
  · omega
  · rcases hge with hlt | ⟨-, hge⟩
    · omega
    · exact host.localeLe_antisymm _ _ (Catalog.validId_of_mem h) (Catalog.validId_of_mem h') hle hge

theorem mergeSort_perm_eq (h : catalog'.entries.Perm catalog.entries) :
    catalog'.entries.mergeSort (before host query) = catalog.entries.mergeSort (before host query) := by
  have hperm := (List.mergeSort_perm catalog'.entries (before host query)).trans
    (h.trans (List.mergeSort_perm catalog.entries (before host query)).symm)
  refine hperm.eq_of_pairwise (fun a b ha hb hle hge => ?_)
    (List.pairwise_mergeSort before_trans before_total _)
    (List.pairwise_mergeSort before_trans before_total _)
  exact eq_of_before (h.mem_iff.mp (List.mem_mergeSort.mp ha)) (List.mem_mergeSort.mp hb) hle hge

/-- **A match does not depend on the order of the entries.** -/
theorem matchFaq_perm (h : catalog'.entries.Perm catalog.entries) :
    matchFaq host text catalog'.entries = matchFaq host text catalog.entries := by
  simp only [matchFaq, mergeSort_perm_eq h, theOnly_perm (h.filter _)]

/-- Nor on the spelling of the question. -/
theorem matchFaq_congr (h : host.nfkc text = host.nfkc text') :
    matchFaq host text entries = matchFaq host text' entries := by
  simp only [matchFaq, normalize_congr h]

theorem mem_of_mem_candidates (h : row ∈ (matchFaq host text entries).candidates) : row ∈ entries :=
  List.mem_mergeSort.mp (List.mem_of_mem_take h)

theorem candidates_eq_nil_iff : (matchFaq host text entries).candidates = [] ↔ entries = [] := by
  simp [matchFaq, ← List.length_eq_zero_iff]

/-- The exact match is the only one. -/
theorem onlyMatch_of_exact (h : (matchOf host catalog q).exact = some row) :
    OnlyMatch host catalog q row := by
  intro r
  rw [← List.mem_filter, theOnly_eq_some_iff.mp h, List.mem_singleton]

/-! ### Responses -/

theorem answer_ne_fallback (row : FaqEntry) (outcome : Outcome) : answer row ≠ fallback outcome :=
  FaqResponse.noConfusion

theorem clarify_ne_handoff : fallback .clarify ≠ fallback .handoff := by decide

theorem selected_eq_some (h : selected candidates selection = some row) :
    row ∈ candidates ∧ selection.faqId = row.id ∧ selection.category = row.category := by
  have hrow := List.find?_some h
  simp only [Bool.and_eq_true, beq_iff_eq] at hrow
  exact ⟨List.mem_of_find?_eq_some h, hrow.1.symm, hrow.2.symm⟩

/-- A selection says the answer of a candidate, or asks to be clear. -/
theorem decided_cases (candidates : List FaqEntry) (selection : Selection) :
    (∃ row, selected candidates selection = some row ∧ confident selection.confidence = true ∧
        confident selection.answerable = true ∧ decided candidates selection = answer row) ∨
      decided candidates selection = fallback .clarify := by
  unfold decided
  split
  · exact Or.inr rfl
  · next row hrow =>
    split
    · next hconfident =>
      rw [Bool.and_eq_true] at hconfident
      exact Or.inl ⟨row, hrow, hconfident.1, hconfident.2, rfl⟩
    · exact Or.inr rfl

/-- A response is the fallback of a sensitive question, or settled by the match. -/
theorem answerFaq_eq (provider : FaqProvider) (catalog : Catalog) (q : Question) :
    respond host provider catalog q =
      if isSensitive host.toTextHost q.text then fallback .handoff
      else settled host provider q.text (matchOf host catalog q) := by
  rw [respond, answerFaq]
  exact if_pos catalog.valid

theorem settled_congr (h : host.nfkc text = host.nfkc text') (found : FaqMatch) :
    settled host provider text found = settled host provider text' found := by
  simp only [settled, selection?, redact_congr h]

/-- What settles to the fallback of a sensitive question. -/
theorem settled_eq_handoff_iff {found : FaqMatch} :
    settled host provider text found = fallback .handoff ↔ found.exact = none ∧
      (found.candidates = [] ∨ selection? host provider text found.candidates = none) := by
  obtain ⟨exact, candidates⟩ := found
  cases exact with
  | some row => exact iff_of_false (answer_ne_fallback row _) fun h => nomatch h.1
  | none =>
    rw [settled]
    cases candidates with
    | nil => exact iff_of_true rfl ⟨rfl, Or.inl rfl⟩
    | cons row rest =>
      rw [if_neg (by simp)]
      simp only [reduceCtorEq, false_or, true_and]
      cases hselection : selection? host provider text (row :: rest) with
      | none => exact iff_of_true rfl rfl
      | some selection =>
        refine iff_of_false (fun h => ?_) (by simp)
        cases selection with
        | none => exact clarify_ne_handoff h
        | some selection =>
          rcases decided_cases (row :: rest) selection with ⟨row', -, -, -, heq⟩ | heq
          · exact answer_ne_fallback row' _ (heq.symm.trans h)
          · exact clarify_ne_handoff (heq.symm.trans h)

/-- The response to a question about which the provider is asked. -/
theorem respond_of_asked (h : Asked host catalog q)
    (hselection : selection? host provider q.text (matchOf host catalog q).candidates =
      some (some selection)) :
    respond host provider catalog q = decided (matchOf host catalog q).candidates selection := by
  obtain ⟨hsensitive, hexact, hentries⟩ := h
  have hcandidates : (matchOf host catalog q).candidates ≠ [] := mt candidates_eq_nil_iff.mp hentries
  rw [answerFaq_eq, hsensitive, if_neg Bool.false_ne_true]
  generalize matchOf host catalog q = found at hexact hselection hcandidates ⊢
  obtain ⟨exact, candidates⟩ := found
  cases hexact
  rw [settled, if_neg (by simpa using hcandidates), hselection]

/-- A question that is not sensitive has the answer of the match, of a candidate that is
selected with confidence, or of no entry. -/
theorem settled_cases (provider : FaqProvider) (text : JsText) (found : FaqMatch) :
    (∃ row, found.exact = some row ∧ settled host provider text found = answer row) ∨
      (∃ selection row, selection? host provider text found.candidates = some (some selection) ∧
        selected found.candidates selection = some row ∧ confident selection.confidence = true ∧
        confident selection.answerable = true ∧ settled host provider text found = answer row) ∨
      ∃ outcome, settled host provider text found = fallback outcome := by
  obtain ⟨exact, candidates⟩ := found
  cases exact with
  | some row => exact Or.inl ⟨row, rfl, rfl⟩
  | none =>
    rw [settled]
    split
    · exact Or.inr (Or.inr ⟨_, rfl⟩)
    · split
      · exact Or.inr (Or.inr ⟨_, rfl⟩)
      · exact Or.inr (Or.inr ⟨_, rfl⟩)
      · next selection hselection =>
        rcases decided_cases candidates selection with ⟨row, hrow, hc, ha, heq⟩ | heq
        · exact Or.inr (Or.inl ⟨selection, row, hselection, hrow, hc, ha, heq⟩)
        · exact Or.inr (Or.inr ⟨_, heq⟩)

/-- **An answer is one of the catalog**, the only match or chosen with confidence. -/
theorem answer_of_respond {id : JsText} (h : respond host provider catalog q = .answer id text) :
    ∃ row ∈ catalog.entries, row.id = id ∧ row.answer = text ∧
      (OnlyMatch host catalog q row ∨ Chosen host provider catalog q row) := by
  rw [answerFaq_eq] at h
  split at h
  · cases h
  · rcases settled_cases provider q.text (matchOf host catalog q) with
      ⟨row, hexact, heq⟩ | ⟨selection, row, hselection, hrow, hc, ha, heq⟩ | ⟨outcome, heq⟩
    · have honly := onlyMatch_of_exact hexact
      cases heq.symm.trans h
      exact ⟨row, ((honly row).mpr rfl).1, rfl, rfl, Or.inl honly⟩
    · obtain ⟨hmem, hid, hcategory⟩ := selected_eq_some hrow
      cases heq.symm.trans h
      exact ⟨row, mem_of_mem_candidates hmem, rfl, rfl,
        Or.inr ⟨hmem, selection, hselection, hid, hcategory, hc, ha⟩⟩
    · cases heq.symm.trans h

/-- **The order of the catalog** does not matter. -/
theorem respond_perm (provider : FaqProvider) (q : Question)
    (h : catalog'.entries.Perm catalog.entries) :
    respond host provider catalog' q = respond host provider catalog q := by
  rw [answerFaq_eq, answerFaq_eq, matchOf, matchOf, matchFaq_perm h]

/-! ### Selections of `none` -/

/-- A selection is not answered exactly when it is not confident, or no candidate is what it
selects. -/
theorem decided_eq_clarify_iff :
    (∀ id text, decided candidates selection ≠ .answer id text) ↔
      (confident selection.confidence = true → confident selection.answerable = true →
        ∀ row ∈ candidates, row.id = selection.faqId → row.category ≠ selection.category) := by
  constructor
  · intro h hc ha row hrow hid hcategory
    obtain ⟨found, hfound⟩ : ∃ found, selected candidates selection = some found :=
      Option.isSome_iff_exists.mp (List.find?_isSome.mpr ⟨row, hrow, by simp [hid, hcategory]⟩)
    refine h found.id found.answer ?_
    rw [decided, hfound]
    exact if_pos (by rw [hc, ha]; rfl)
  · intro h id text heq
    rcases decided_cases candidates selection with ⟨row, hrow, hc, ha, -⟩ | hclarify
    · obtain ⟨hmem, hid, hcategory⟩ := selected_eq_some hrow
      exact h hc ha row hmem hid.symm hcategory.symm
    · cases hclarify.symm.trans heq

/-! ### Spellings -/

/-- **Two spellings of one question** have one response exactly when both or neither has a
keyword, redaction changes them, or the response is the fallback anyway. -/
theorem respond_eq_iff (h : host.nfkc q.text = host.nfkc q'.text) :
    respond host provider catalog q = respond host provider catalog q' ↔
      (hasKeyword q.text = hasKeyword q'.text ∨ redacts host.toTextHost q.text = true ∨
        ((matchOf host catalog q).exact = none ∧ (catalog.entries = [] ∨
          selection? host provider q.text (matchOf host catalog q).candidates = none))) := by
  have hmatch : matchOf host catalog q' = matchOf host catalog q := (matchFaq_congr h).symm
  have hsettled : settled host provider q.text (matchOf host catalog q) =
      settled host provider q'.text (matchOf host catalog q) := settled_congr h _
  have hhandoff : settled host provider q.text (matchOf host catalog q) = fallback .handoff ↔
      (matchOf host catalog q).exact = none ∧ (catalog.entries = [] ∨
        selection? host provider q.text (matchOf host catalog q).candidates = none) := by
    rw [settled_eq_handoff_iff, matchOf, candidates_eq_nil_iff]
  rw [← hhandoff, ← or_assoc, ← isSensitive_eq_iff h, answerFaq_eq, answerFaq_eq, hmatch, ← hsettled]
  cases isSensitive host.toTextHost q.text <;> cases isSensitive host.toTextHost q'.text <;>
    simp [eq_comm]

/-- **The responses are dependable exactly where they are guarded.** -/
theorem dependable_iff (host : FaqHost) (provider : FaqProvider) (catalog : Catalog) (q q' : Question) :
    Dependable host provider catalog q q' ↔ Guarded host provider catalog q q' := by
  constructor
  · intro h
    refine ⟨fun hasked selection hnone hselection => ?_, fun hform => (respond_eq_iff hform).mp (h.spelling hform)⟩
    have hanswer := h.none hasked selection hnone hselection
    rw [respond_of_asked hasked hselection] at hanswer
    rw [← hnone]
    exact decided_eq_clarify_iff.mp hanswer
  · intro h
    refine ⟨fun id text => answer_of_respond, fun hasked selection hnone hselection => ?_,
      fun hform => (respond_eq_iff hform).mpr (h.spelling hform), fun catalog' => respond_perm provider q⟩
    rw [respond_of_asked hasked hselection]
    refine decided_eq_clarify_iff.mpr ?_
    rw [hnone]
    exact h.none hasked selection hnone hselection

/-! ### Spellings and ids that are not dependable -/

/-- The fullwidth forms of ASCII as what they are compatible with. -/
def narrow (u : UInt16) : UInt16 := if 0xff01 ≤ u && u ≤ 0xff5e then u - 0xfee0 else u

theorem narrow_narrow (u : UInt16) : narrow (narrow u) = narrow u := by
  unfold narrow
  grind

/-- The interpreter, over ASCII and its fullwidth forms. -/
def asciiHost : FaqHost where
  nfkc s := s.map narrow
  toLowerCase s := s.map fun u => if 65 ≤ u && u ≤ 90 then u + 32 else u
  letterOrNumber point := point.all fun u => letter u || digit u
  localeLe a b := decide (a.map UInt16.toNat ≤ b.map UInt16.toNat)
  nfkc_nfkc s := by
    rw [List.map_map]
    exact List.map_congr_left fun u _ => narrow_narrow u
  localeLe_total a b := by
    rw [Bool.or_eq_true, decide_eq_true_eq, decide_eq_true_eq]
    exact le_total _ _
  localeLe_trans a b c hab hbc := by
    rw [decide_eq_true_eq] at hab hbc ⊢
    exact hab.trans hbc
  localeLe_antisymm a b _ _ hab hba := by
    rw [decide_eq_true_eq] at hab hba
    exact List.map_injective_iff.mpr (fun u v => UInt16.toNat_inj.mp) (hab.antisymm hba)

/-- A catalog whose one entry is about refunds. -/
def refunds : Catalog where
  entries := [⟨units "faq-refund", units "billing", units "Refund", [], units "Within a week."⟩]
  valid := by decide

/-- A catalog whose one entry has the id `none`. -/
def unnamed : Catalog where
  entries := [⟨units "none", units "general", units "Getting help", [], units "Ask us."⟩]
  valid := by decide

def refund : Question := ⟨units "refund", units "refund", by decide⟩

def wideRefund : Question := ⟨units "ｒｅｆｕｎｄ", units "ｒｅｆｕｎｄ", by decide⟩

def hello : Question := ⟨units "hello", units "hello", by decide⟩

/-- A model that selects no entry. -/
def refusing : FaqProvider :=
  openAiProvider asciiHost fun _ _ => some ⟨units "none", units "general", true, .finite 1⟩

/-- **A sensitive question in fullwidth letters is answered**, and a selection of `none` is. -/
theorem wideRefund_answered :
    (¬ Dependable asciiHost refusing refunds refund wideRefund ∧
      respond asciiHost refusing refunds refund = fallback .handoff ∧
      respond asciiHost refusing refunds wideRefund =
        .answer (units "faq-refund") (units "Within a week.")) ∧
    ¬ Dependable asciiHost refusing unnamed hello hello ∧
      respond asciiHost refusing unnamed hello = .answer (units "none") (units "Ask us.") := by
  have hsensitive : respond asciiHost refusing refunds refund = fallback .handoff := by decide +kernel
  have hwide : respond asciiHost refusing refunds wideRefund =
      .answer (units "faq-refund") (units "Within a week.") := by decide +kernel
  have hnone : respond asciiHost refusing unnamed hello = .answer (units "none") (units "Ask us.") := by
    decide +kernel
  refine ⟨⟨fun h => ?_, hsensitive, hwide⟩, fun h => ?_, hnone⟩
  · have hsame := h.spelling (by decide)
    rw [hsensitive, hwide] at hsame
    cases hsame
  · exact h.none ⟨by decide +kernel, by decide +kernel, by decide⟩
      ⟨units "none", units "general", .finite 1, .finite 1⟩ rfl (by decide +kernel) _ _ hnone

end Faq
end AiSaas
