import AiSaas.Lib.Ascii
import AiSaas.Migrations.SqlText
import Mathlib.Data.List.SplitOn

/-!
# Destructive statements

The statements of a text of SQL, by their tokens, and which of them destroy data.

## Main definitions

* `statements` — what is between the semicolons of a text, outside its quotations and
  comments.
* `tokens` — the words and the other characters of a statement.
* `dropsObject`, `dropsColumn`, `truncates`, `deletesAll` — the destructive ones.
* `StandsIn` — some words stand in a text one behind another.

## Main results

* `standsIn_of_tokens` — the words of consecutive tokens do.
-/

namespace AiSaas
namespace Migrations

/-- A blank of SQL. -/
def sqlSpace (c : Char) : Bool := [' ', '\t', '\n', '\r', '\x0b', '\x0c'].contains c

/-- The statements of a text. -/
def statements (s : List Char) : List (List Char) := (masked s).splitOn ';'

/-- The tokens of a statement: its words, and every other character but a blank. -/
def tokens : List Char → List (List Char)
  | [] => []
  | c :: s =>
    if sqlSpace c then tokens s
    else if identChar c && s.head?.any identChar then (tokens s).modifyHead (c :: ·)
    else [c] :: tokens s

/-! ### The destructive statements -/

/-- A token is a keyword. -/
def isWord (word : String) (token : List Char) : Bool := lowered token == word.toList

/-- The tokens begin with some keywords. -/
def beginsWith : List String → List (List Char) → Bool
  | [], _ => true
  | _ :: _, [] => false
  | word :: words, token :: ts => isWord word token && beginsWith words ts

/-- What a `DROP` drops. -/
def droppedObjects : List (List String) :=
  [["table"], ["view"], ["materialized", "view"], ["index"], ["type"], ["schema"]]

def dropsObject (ts : List (List Char)) : Bool := droppedObjects.any fun object => beginsWith ("drop" :: object) ts

def truncates (ts : List (List Char)) : Bool := beginsWith ["truncate"] ts

/-- The depth of the parentheses behind a token. -/
def depthAfter (token : List Char) (depth : ℕ) : ℕ :=
  if token = ['('] then depth + 1 else if token = [')'] then depth - 1 else depth

/-- The words behind which another one is a name. -/
def naming : List String := ["table", "exists", "only", "add", "column", "alter", "rename", "to"]

/-- What else an `ALTER TABLE` can drop. -/
def otherDrops : List String := ["constraint", "default", "not", "identity", "expression"]

/-- A token is a name, or begins one. -/
def beginsName (token : List Char) : Bool := token.head?.any fun c => identChar c || c == '\x22'

/-- In front of the tokens is one, and outside parentheses a `DROP` of what `dropped` tells. -/
def drops (dropped : List Char → Bool) : ℕ → List Char → List (List Char) → Bool
  | depth, before, token :: next :: ts =>
    (depth == 0 && isWord "drop" token && !(naming.any (isWord · before)) && dropped next) ||
      drops dropped (depthAfter token depth) token (next :: ts)
  | _, _, _ => false

/-- An `ALTER TABLE` with a `DROP` of what `dropped` tells. -/
def altersTable (dropped : List Char → Bool) (ts : List (List Char)) : Bool :=
  beginsWith ["alter", "table"] ts && drops dropped 0 "table".toList (ts.drop 2)

/-- The word `COLUMN` is optional. -/
def dropsColumn (ts : List (List Char)) : Bool :=
  altersTable (fun next => beginsName next && !(otherDrops.any (isWord · next))) ts

/-- Behind a `DELETE FROM` is a `WHERE`, in the same parentheses. -/
def ownWhere : ℕ → List (List Char) → Bool
  | _, [] => false
  | depth, token :: ts =>
    (depth == 0 && isWord "where" token) ||
      (!(depth == 0 && token == [')']) && ownWhere (depthAfter token depth) ts)

/-- There is a `DELETE FROM` without a `WHERE` of its own, be it a part of the statement;
what is before the tokens tells whether they can begin one. -/
def deletes : Bool → List (List Char) → Bool
  | begins, token :: next :: ts =>
    (begins && isWord "delete" token && isWord "from" next && !ownWhere 0 ts) ||
      deletes (token == ['('] || token == [')']) (next :: ts)
  | _, _ => false

def deletesAll (ts : List (List Char)) : Bool := deletes true ts

/-- A statement destroys a table, a view, an index, a type, a schema, a column or rows. -/
def destructive (statement : List Char) : Bool :=
  let ts := tokens statement
  dropsObject ts || dropsColumn ts || truncates ts || deletesAll ts

example : destructive "alter table a add b int, drop \x22_\x22".toList = true := by decide +kernel

example : destructive "alter table a alter b drop default".toList = false := by decide +kernel

example : destructive "with b as (delete from a) select 1 from b where c".toList = true := by decide +kernel

/-! ### Phrases -/

/-- A keyword, in small letters. -/
def keyword (word : String) : Bool := !word.toList.isEmpty && word.toList.all Char.isLower

/-- Keywords one behind another, with blanks between them. -/
inductive Spells : List String → List Char → Prop
  | word {word : String} {u : List Char} (hword : keyword word = true) (hu : lowered u = word.toList) :
      Spells [word] u
  | more {word : String} {words : List String} {u g v : List Char} (hword : keyword word = true)
      (hu : lowered u = word.toList) (hne : g ≠ []) (hg : ∀ c ∈ g, whiteSpace c = true)
      (hv : Spells words v) : Spells (word :: words) (u ++ (g ++ v))

/-- No character of a kind is there. -/
def Apart (kind : Char → Bool) (c : Option Char) : Prop := ∀ x ∈ c, kind x = false

/-- Behind `before`, the phrases are in a text in this order, each of them apart from
characters of a kind. -/
def Stands (kind : Char → Bool) : List (List String) → Option Char → List Char → Prop
  | [], _, _ => True
  | words :: phrases, before, s => ∃ v u rest, s = v ++ (u ++ rest) ∧ Spells words u ∧
      Apart kind (v.getLast?.or before) ∧ Apart kind rest.head? ∧ Stands kind phrases u.getLast? rest

variable {kind : Char → Bool} {c : Char} {o before : Option Char} {s u v rest : List Char}
  {word : String} {words : List String} {phrases : List (List String)}

theorem Apart.none : Apart kind none := fun _ h => nomatch h

theorem apart_some : Apart kind (some c) ↔ kind c = false :=
  ⟨fun h => h c rfl, fun h _ hx => Option.some.inj hx ▸ h⟩

theorem Apart.or {o' : Option Char} (h : Apart kind o) (h' : Apart kind o') : Apart kind (o.or o') := by
  cases o with
  | none => exact h'
  | some c => exact h

theorem Apart.mono {kind' : Char → Bool} (hkind : ∀ c, kind' c = true → kind c = true)
    (h : Apart kind o) : Apart kind' o := by
  intro x hx
  by_contra hne
  exact absurd (hkind x (Bool.eq_true_of_not_eq_false hne)) (by rw [h x hx]; exact Bool.false_ne_true)

theorem Stands.mono {kind' : Char → Bool} (hkind : ∀ c, kind' c = true → kind c = true)
    (h : Stands kind phrases before s) : Stands kind' phrases before s := by
  induction phrases generalizing before s with
  | nil => trivial
  | cons words phrases ih =>
    obtain ⟨v, u, rest, rfl, hu, hleft, hright, hrest⟩ := h
    exact ⟨v, u, rest, rfl, hu, hleft.mono hkind, hright.mono hkind, ih hrest⟩

/-- Phrases stay where something is put behind them. -/
theorem Stands.append_right {w : List Char} (hw : Apart kind w.head?) (h : Stands kind phrases before s) :
    Stands kind phrases before (s ++ w) := by
  induction phrases generalizing before s with
  | nil => trivial
  | cons words phrases ih =>
    obtain ⟨v, u, rest, rfl, hu, hleft, hright, hrest⟩ := h
    refine ⟨v, u, rest ++ w, by simp only [List.append_assoc], hu, hleft, ?_, ih hrest⟩
    rw [List.head?_append]
    exact hright.or hw

/-- And where something is put before them. -/
theorem Stands.append_left {w : List Char} (hw : Apart kind (w.getLast?.or before))
    (h : Stands kind phrases none s) : Stands kind phrases before (w ++ s) := by
  cases phrases with
  | nil => trivial
  | cons words phrases =>
    obtain ⟨v, u, rest, rfl, hu, hleft, hright, hrest⟩ := h
    rw [Option.or_none] at hleft
    refine ⟨w ++ v, u, rest, by rw [List.append_assoc], hu, ?_, hright, hrest⟩
    rw [List.getLast?_append, Option.or_assoc]
    exact hleft.or hw

/-! ### Letters of keywords -/

theorem isAlpha_of_toLower (h : c.toLower.isLower = true) : c.isAlpha = true := by
  unfold Char.toLower at h
  rw [Ascii.isAlpha_iff]
  split at h
  · next hupper => exact Or.inl hupper
  · exact Or.inr (Ascii.isLower_iff.mp h)

theorem identChar_of_isAlpha (h : c.isAlpha = true) : identChar c = true := by
  simp [identChar, Char.isAlphanum, h]

theorem identChar_of_sqlSpace (h : sqlSpace c = true) : identChar c = false := by
  simp only [sqlSpace, List.contains_eq_mem, List.mem_cons, List.not_mem_nil, or_false,
    decide_eq_true_eq] at h
  rcases h with rfl | rfl | rfl | rfl | rfl | rfl <;> decide

theorem whiteSpace_of_sqlSpace (h : sqlSpace c = true) : whiteSpace c = true := by
  simp only [sqlSpace, List.contains_eq_mem, List.mem_cons, List.not_mem_nil, or_false,
    decide_eq_true_eq] at h
  rcases h with rfl | rfl | rfl | rfl | rfl | rfl <;> decide

/-- A spelled keyword has letters only. -/
theorem isAlpha_of_keyword (hword : keyword word = true) (hu : lowered u = word.toList) :
    ∀ c ∈ u, c.isAlpha = true := by
  intro c hc
  rw [keyword, Bool.and_eq_true, List.all_eq_true] at hword
  exact isAlpha_of_toLower (hword.2 _ (hu ▸ List.mem_map_of_mem hc))

theorem ne_nil_of_keyword (hword : keyword word = true) (hu : lowered u = word.toList) : u ≠ [] := by
  rintro rfl
  rw [keyword, ← hu] at hword
  cases hword

/-- A phrase begins with a letter. -/
theorem Spells.head (h : Spells words u) : ∃ c r, u = c :: r ∧ c.isAlpha = true := by
  have hfirst : ∀ {word : String} {u : List Char}, keyword word = true → lowered u = word.toList →
      ∃ c r, u = c :: r ∧ c.isAlpha = true := by
    intro word u hword hu
    obtain ⟨c, r, rfl⟩ := List.exists_cons_of_ne_nil (ne_nil_of_keyword hword hu)
    exact ⟨c, r, rfl, isAlpha_of_keyword hword hu c List.mem_cons_self⟩
  cases h with
  | word hword hu => exact hfirst hword hu
  | more hword hu hne hg hv =>
    obtain ⟨c, r, rfl, hc⟩ := hfirst hword hu
    exact ⟨c, _, rfl, hc⟩

/-! ### Tokens -/

/-- The first token of a statement is behind its first blanks. -/
theorem tokens_eq_cons {t : List Char} {ts : List (List Char)} (h : tokens s = t :: ts) :
    ∃ g rest, s = g ++ (t ++ rest) ∧ (∀ c ∈ g, sqlSpace c = true) ∧ tokens rest = ts ∧ t ≠ [] ∧
      ∀ c ∈ t.getLast?, identChar c = true → Apart identChar rest.head? := by
  induction s generalizing t with
  | nil => cases h
  | cons c s ih =>
    rw [tokens] at h
    split at h
    · next hspace =>
      obtain ⟨g, rest, rfl, hg, hrest⟩ := ih h
      exact ⟨c :: g, rest, rfl, List.forall_mem_cons.mpr ⟨hspace, hg⟩, hrest⟩
    · next hspace =>
      split at h
      · next hident =>
        rw [Bool.and_eq_true] at hident
        -- the first token behind the character is glued to it
        cases htokens : tokens s with
        | nil => rw [htokens] at h; cases h
        | cons t' ts' =>
          rw [htokens, List.modifyHead_cons] at h
          obtain ⟨rfl, rfl⟩ := List.cons.inj h
          obtain ⟨g, rest, rfl, hg, hrest, hne, hlast⟩ := ih htokens
          cases g with
          | nil =>
            refine ⟨[], rest, rfl, hg, hrest, List.cons_ne_nil _ _, ?_⟩
            rw [List.getLast?_cons, List.getLast?_eq_getLast_of_ne_nil hne]
            rw [List.getLast?_eq_getLast_of_ne_nil hne] at hlast
            exact hlast
          | cons d g =>
            have hd := identChar_of_sqlSpace (hg d List.mem_cons_self)
            rw [List.cons_append, List.head?_cons, Option.any_some, hd] at hident
            cases hident.2
      · next hident =>
        obtain ⟨rfl, rfl⟩ := List.cons.inj h
        refine ⟨[], s, rfl, fun x hx => absurd hx List.not_mem_nil, rfl, List.cons_ne_nil _ _, ?_⟩
        intro x hx hx'
        obtain rfl : c = x := Option.some.inj hx
        intro d hd
        rw [hx', Bool.true_and, Option.mem_def.mp hd, Option.any_some, Bool.not_eq_true] at hident
        exact hident

/-- The words of the first tokens stand behind the first blanks. -/
theorem spells_of_tokens (hwords : ∀ word ∈ words, keyword word = true) (hne : words ≠ [])
    (h : beginsWith words (tokens s) = true) :
    ∃ g u rest, s = g ++ (u ++ rest) ∧ (∀ c ∈ g, sqlSpace c = true) ∧ Spells words u ∧
      Apart identChar rest.head? ∧ tokens rest = (tokens s).drop words.length := by
  induction words generalizing s with
  | nil => exact absurd rfl hne
  | cons word words ih =>
    cases htokens : tokens s with
    | nil => rw [htokens] at h; cases h
    | cons t ts =>
      rw [htokens, beginsWith, Bool.and_eq_true, isWord, beq_iff_eq] at h
      obtain ⟨g, rest, rfl, hg, hrest, htne, hlast⟩ := tokens_eq_cons htokens
      have hword := hwords word List.mem_cons_self
      have hapart : Apart identChar rest.head? := by
        refine hlast _ (List.getLast?_eq_getLast_of_ne_nil htne) ?_
        exact identChar_of_isAlpha (isAlpha_of_keyword hword h.1 _ (List.getLast_mem htne))
      cases words with
      | nil => exact ⟨g, t, rest, rfl, hg, Spells.word hword h.1, hapart, hrest⟩
      | cons word' words =>
        have hwords' : ∀ word ∈ word' :: words, keyword word = true :=
          fun w hw => hwords w (List.mem_cons_of_mem word hw)
        rw [← hrest] at h
        obtain ⟨g', v, rest', rfl, hg', hv, hapart', hrest'⟩ := ih hwords' (List.cons_ne_nil _ _) h.2
        have hg'ne : g' ≠ [] := by
          rintro rfl
          obtain ⟨c, r, rfl, hc⟩ := hv.head
          have hc' := hapart c rfl
          rw [identChar_of_isAlpha hc] at hc'
          cases hc'
        refine ⟨g, t ++ (g' ++ v), rest', by simp only [List.append_assoc], hg,
          Spells.more hword h.1 hg'ne (fun c hc => whiteSpace_of_sqlSpace (hg' c hc)) hv, hapart', ?_⟩
        rw [hrest', hrest]
        rfl

/-- Later tokens are those of a rest that is apart from what is before it. -/
theorem tokens_eq_append {ts ts' : List (List Char)} (h : tokens s = ts ++ ts') :
    ∃ v rest, s = v ++ rest ∧ tokens rest = ts' ∧
      ∀ c ∈ v.getLast?, identChar c = true → Apart identChar rest.head? := by
  induction ts generalizing s with
  | nil => exact ⟨[], s, rfl, h, fun c hc => nomatch hc⟩
  | cons t ts ih =>
    obtain ⟨g, rest, rfl, hg, hrest, hne, hlast⟩ := tokens_eq_cons h
    obtain ⟨v, rest', rfl, hrest', hlast'⟩ := ih hrest
    refine ⟨g ++ (t ++ v), rest', by simp only [List.append_assoc], hrest', ?_⟩
    rw [List.getLast?_append, List.getLast?_append, List.getLast?_eq_getLast_of_ne_nil hne]
    cases v with
    | nil =>
      rw [List.getLast?_eq_getLast_of_ne_nil hne] at hlast
      exact hlast
    | cons c v =>
      rw [List.getLast?_eq_getLast_of_ne_nil (List.cons_ne_nil c v)] at hlast' ⊢
      exact hlast'

/-- **The words of consecutive tokens** stand one behind another. -/
theorem stands_of_tokens {ts ts' : List (List Char)} (hwords : ∀ word ∈ words, keyword word = true)
    (hne : words ≠ []) (htokens : tokens s = ts ++ ts') (h : beginsWith words ts' = true) :
    ∃ v u rest, s = v ++ (u ++ rest) ∧ Spells words u ∧ Apart identChar v.getLast? ∧
      Apart identChar rest.head? ∧ tokens rest = ts'.drop words.length := by
  obtain ⟨v, s, rfl, rfl, hlast⟩ := tokens_eq_append htokens
  obtain ⟨g, u, rest, rfl, hg, hu, hapart, hrest⟩ := spells_of_tokens hwords hne h
  refine ⟨v ++ g, u, rest, by rw [List.append_assoc], hu, ?_, hapart, hrest⟩
  rw [List.getLast?_append]
  cases g with
  | nil =>
    -- a letter is behind what is before, so that it is no character of an identifier
    intro c hc
    by_contra hident
    obtain ⟨d, r, rfl, hd⟩ := hu.head
    have hd' := hlast c hc (Bool.eq_true_of_not_eq_false hident) d rfl
    rw [identChar_of_isAlpha hd] at hd'
    cases hd'
  | cons c g =>
    rw [List.getLast?_eq_getLast_of_ne_nil (List.cons_ne_nil c g)]
    exact apart_some.mpr (identChar_of_sqlSpace (hg _ (List.getLast_mem _)))

/-! ### Destructive statements as phrases -/

/-- A dropped thing is behind the word `DROP`. -/
theorem exists_of_drops {dropped : List Char → Bool} {depth : ℕ} {token : List Char}
    {ts : List (List Char)} (h : drops dropped depth token ts = true) :
    ∃ ts₁ next ts₂ drop, ts = ts₁ ++ drop :: next :: ts₂ ∧ isWord "drop" drop = true ∧
      dropped next = true := by
  induction ts generalizing depth token with
  | nil => cases h
  | cons t ts ih =>
    cases ts with
    | nil => cases h
    | cons next ts =>
      rw [drops, Bool.or_eq_true] at h
      rcases h with h | h
      · rw [Bool.and_eq_true, Bool.and_eq_true, Bool.and_eq_true] at h
        exact ⟨[], next, ts, t, rfl, h.1.1.2, h.2⟩
      · obtain ⟨ts₁, next', ts₂, drop, heq, hdrop⟩ := ih h
        exact ⟨t :: ts₁, next', ts₂, drop, congrArg (t :: ·) heq, hdrop⟩

theorem exists_of_deletes {begins : Bool} {ts : List (List Char)} (h : deletes begins ts = true) :
    ∃ ts₁ ts₂, ts = ts₁ ++ ts₂ ∧ beginsWith ["delete", "from"] ts₂ = true := by
  induction ts generalizing begins with
  | nil => cases h
  | cons t ts ih =>
    cases ts with
    | nil => cases h
    | cons next ts =>
      rw [deletes, Bool.or_eq_true] at h
      rcases h with h | h
      · rw [Bool.and_eq_true, Bool.and_eq_true, Bool.and_eq_true] at h
        exact ⟨[], t :: next :: ts, rfl, by simp [beginsWith, h.1.1.2, h.1.2]⟩
      · obtain ⟨ts₁, ts₂, heq, hbegins⟩ := ih h
        exact ⟨t :: ts₁, ts₂, congrArg (t :: ·) heq, hbegins⟩

theorem stands_of_beginsWith {ts ts' : List (List Char)} (hwords : ∀ word ∈ words, keyword word = true)
    (hne : words ≠ []) (htokens : tokens s = ts ++ ts') (h : beginsWith words ts' = true) :
    Stands identChar [words] none s := by
  obtain ⟨v, u, rest, rfl, hu, hleft, hright, -⟩ := stands_of_tokens hwords hne htokens h
  exact ⟨v, u, rest, rfl, hu, by rwa [Option.or_none], hright, trivial⟩

/-- In an `ALTER TABLE` that drops by the word `COLUMN`, both phrases stand. -/
theorem stands_of_altersTable (h : altersTable (isWord "column") (tokens s) = true) :
    Stands identChar [["alter", "table"], ["drop", "column"]] none s := by
  rw [altersTable, Bool.and_eq_true] at h
  obtain ⟨v, u, rest, rfl, hu, hleft, hright, hrest⟩ :=
    stands_of_tokens (by decide) (List.cons_ne_nil _ _) (List.nil_append _).symm h.1
  obtain ⟨ts₁, next, ts₂, drop, hts, hdrop, hnext⟩ := exists_of_drops h.2
  obtain ⟨v', u', rest', rfl, hu', hleft', hright', -⟩ := stands_of_tokens (by decide)
    (List.cons_ne_nil _ _) (hrest.trans hts) (by simp [beginsWith, hdrop, hnext] :
      beginsWith ["drop", "column"] (drop :: next :: ts₂) = true)
  refine ⟨v, u, v' ++ (u' ++ rest'), rfl, hu, by rwa [Option.or_none], hright, v', u', rest', rfl, hu',
    ?_, hright', trivial⟩
  cases v' with
  | nil =>
    obtain ⟨c, r, rfl, hc⟩ := hu'.head
    have hc' := hright c rfl
    rw [identChar_of_isAlpha hc] at hc'
    cases hc'
  | cons c v' =>
    rw [List.getLast?_eq_getLast_of_ne_nil (List.cons_ne_nil c v')] at hleft' ⊢
    exact hleft'

/-! ### From a statement to the text -/

/-- A part of a separated list is between separators, or at an end. -/
theorem exists_of_mem_parts {x : Char} {parts : List (List Char)} (hs : s ∈ parts) :
    ∃ v w, [x].intercalate parts = v ++ (s ++ w) ∧ (∀ c ∈ v.getLast?, c = x) ∧ ∀ c ∈ w.head?, c = x := by
  induction parts with
  | nil => cases hs
  | cons part parts ih =>
    cases parts with
    | nil =>
      obtain rfl := List.mem_singleton.mp hs
      exact ⟨[], [], by simp, (fun c hc => nomatch hc), (fun c hc => nomatch hc)⟩
    | cons part' parts =>
      rw [List.intercalate_cons_cons]
      rcases List.mem_cons.mp hs with rfl | hs
      · exact ⟨[], [x] ++ [x].intercalate (part' :: parts), by simp, (fun c hc => nomatch hc),
          fun c hc => (Option.some.inj hc).symm⟩
      · obtain ⟨v, w, heq, hv, hw⟩ := ih hs
        refine ⟨part ++ [x] ++ v, w, by rw [heq]; simp only [List.append_assoc], ?_, hw⟩
        intro c hc
        rw [List.append_assoc, List.getLast?_append, List.getLast?_append] at hc
        cases v with
        | nil => exact (Option.some.inj hc).symm
        | cons d v =>
          rw [List.getLast?_eq_getLast_of_ne_nil (List.cons_ne_nil d v)] at hc hv
          exact hv c hc

/-- A blotted character is one of an identifier. -/
theorem apart_of_blot {x : Option (Char × Bool)} (h : Apart identChar (x.map blot)) :
    Apart identChar (x.map Prod.fst) := by
  cases x with
  | none => exact Apart.none
  | some x =>
    rw [Option.map_some, apart_some] at h ⊢
    rw [blot] at h
    split at h
    · cases h
    · exact h

theorem ne_underscore_of_isAlpha (h : c.isAlpha = true) : c ≠ '_' := by
  rintro rfl
  cases h

theorem ne_underscore_of_whiteSpace (h : whiteSpace c = true) : c ≠ '_' := by
  rintro rfl
  revert h
  decide

/-- No character of a phrase is blotted out. -/
theorem Spells.ne_underscore (h : Spells words u) : ∀ c ∈ u, c ≠ '_' := by
  induction h with
  | word hword hu => exact fun c hc => ne_underscore_of_isAlpha (isAlpha_of_keyword hword hu c hc)
  | more hword hu hne hg hv ih =>
    intro c hc
    rcases List.mem_append.mp hc with hc | hc
    · exact ne_underscore_of_isAlpha (isAlpha_of_keyword hword hu c hc)
    · exact (List.mem_append.mp hc).elim (fun hc => ne_underscore_of_whiteSpace (hg c hc)) (ih c)

theorem map_fst_of_blot {l : List (Char × Bool)} (h : ∀ c ∈ l.map blot, c ≠ '_') :
    l.map Prod.fst = l.map blot := by
  refine List.map_congr_left fun x hx => ?_
  have hne := h _ (List.mem_map_of_mem hx)
  rw [blot] at hne ⊢
  split
  · next hquoted => rw [if_pos hquoted] at hne; exact absurd rfl hne
  · rfl

/-- What stands where the quoted characters are blotted out stands where they are not. -/
theorem stands_of_blot {x : Option (Char × Bool)} {l : List (Char × Bool)}
    (h : Stands identChar phrases (x.map blot) (l.map blot)) :
    Stands identChar phrases (x.map Prod.fst) (l.map Prod.fst) := by
  induction phrases generalizing x l with
  | nil => trivial
  | cons words phrases ih =>
    obtain ⟨v, u, rest, heq, hu, hleft, hright, hrest⟩ := h
    obtain ⟨v, l', rfl, rfl, heq'⟩ := List.map_eq_append_iff.mp heq
    obtain ⟨u, rest, rfl, rfl, rfl⟩ := List.map_eq_append_iff.mp heq'
    rw [List.getLast?_map, ← Option.map_or] at hleft
    rw [List.head?_map] at hright
    rw [List.getLast?_map] at hrest
    refine ⟨v.map Prod.fst, u.map Prod.fst, rest.map Prod.fst, by simp only [List.map_append], ?_, ?_, ?_, ?_⟩
    · rwa [map_fst_of_blot hu.ne_underscore]
    · rw [List.getLast?_map, ← Option.map_or]
      exact apart_of_blot hleft
    · rw [List.head?_map]
      exact apart_of_blot hright
    · rw [List.getLast?_map]
      exact ih hrest

/-- **What stands in a statement stands in its text**, without the comments. -/
theorem stands_blanked {statement : List Char} (hmem : statement ∈ statements s)
    (h : Stands identChar phrases none statement) : Stands identChar phrases none (blanked s) := by
  obtain ⟨v, w, heq, hv, hw⟩ := @exists_of_mem_parts statement ';' _ hmem
  rw [statements, List.intercalate_splitOn] at heq
  have hapart : ∀ {x : Option Char}, (∀ c ∈ x, c = ';') → Apart identChar x :=
    fun hx c hc => hx c hc ▸ (by decide)
  have hmasked : Stands identChar phrases none (masked s) := by
    rw [heq]
    exact (h.append_right (hapart hw)).append_left (by rw [Option.or_none]; exact hapart hv)
  exact @stands_of_blot phrases none _ hmasked

end Migrations
end AiSaas
