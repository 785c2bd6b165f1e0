import Mathlib.Data.List.Basic
import Mathlib.Data.List.Infix
import Mathlib.Tactic.Common

/-!
# Backtracking regular expressions

Regular expressions as a backtracking matcher takes them: all the ways to match at a
place, in the order in which they are tried, of which the first is the match.

## Main definitions

* `Regex` — classes, sequences, alternatives, repetitions, groups and assertions.
* `Place`, `Regex.ways` — where a match has come to, and the ways to match from a place on.
* `search`, `findAll` — the leftmost match of a text, and the matches one behind the other.

## Main results

* `Regex.rest_suffix` — a match takes the front of what is there.
* `Regex.least_le` — and as many characters as it must.
* `Regex.groups_of_way` — a match adds groups of its own names only.
* `search_eq_head?_findAll` — the leftmost match is the first of all.
-/

namespace Backtracking

variable {α : Type}

/-- A regular expression over the characters `α`. -/
inductive Regex (α : Type) where
  /-- Nothing. -/
  | nothing
  /-- A character of a class. -/
  | one (f : α → Bool)
  | seq (r s : Regex α)
  /-- `r|s` -/
  | either (r s : Regex α)
  /-- `r*`, or `r*?` where it is not greedy. -/
  | star (greedy : Bool) (r : Regex α)
  /-- `(?P<name>r)` -/
  | group (name : String) (r : Regex α)
  /-- An assertion about the characters before and behind a place. -/
  | look (f : Option α → Option α → Bool)

/-- Where a match has come to. -/
structure Place (α : Type) where
  before : Option α
  rest : List α
  groups : List (String × List α)

/-- The text a named group matched last. -/
def Place.group? (p : Place α) (name : String) : Option (List α) := p.groups.lookup name

/-- What is between a place and a later one. -/
def Place.upTo (p q : Place α) : List α := p.rest.take (p.rest.length - q.rest.length)

/-- Repetitions, within a number of them; each takes a character at least. -/
def repeatWithin (greedy : Bool) (ways : Place α → List (Place α)) : ℕ → Place α → List (Place α)
  | 0, p => [p]
  | n + 1, p =>
    let more := ((ways p).filter fun q => q.rest.length < p.rest.length).flatMap
      (repeatWithin greedy ways n)
    if greedy then more ++ [p] else p :: more

namespace Regex

/-- The ways to match from a place on, in the order in which they are tried. -/
def ways : Regex α → Place α → List (Place α)
  | nothing, p => [p]
  | one f, p =>
    match p.rest with
    | c :: rest => if f c then [{ p with before := some c, rest }] else []
    | [] => []
  | seq r s, p => (r.ways p).flatMap s.ways
  | either r s, p => r.ways p ++ s.ways p
  | star greedy r, p => repeatWithin greedy r.ways p.rest.length p
  | group name r, p => (r.ways p).map fun q => { q with groups := (name, p.upTo q) :: q.groups }
  | look f, p => if f p.before p.rest.head? then [p] else []

/-- `r+` -/
def plus (r : Regex α) : Regex α := seq r (star true r)

/-- `r?` -/
def opt (r : Regex α) : Regex α := either r nothing

/-- One expression behind another. -/
def all (rs : List (Regex α)) : Regex α := rs.foldr seq nothing

/-- One of several expressions; the first is tried first. -/
def any : List (Regex α) → Regex α
  | [] => look fun _ _ => false
  | [r] => r
  | r :: rs => either r (any rs)

/-- The names of the groups. -/
def names : Regex α → List String
  | nothing | one _ | look _ => []
  | seq r s | either r s => r.names ++ s.names
  | star _ r => r.names
  | group name r => name :: r.names

end Regex

/-- The match at the front of a text. -/
def matchAt (r : Regex α) (before : Option α) (s : List α) : Option (Place α) :=
  (r.ways ⟨before, s, []⟩).head?

/-- `re.search`. -/
def search (r : Regex α) : Option α → List α → Option (Place α)
  | before, [] => matchAt r before []
  | before, c :: s => (matchAt r before (c :: s)).or (search r (some c) s)

/-- `re.finditer` of an expression that matches no empty text, within a number of matches. -/
def findWithin (r : Regex α) : ℕ → Option α → List α → List (Place α)
  | 0, _, _ => []
  | n + 1, before, s =>
    match search r before s with
    | some q => q :: findWithin r n q.before q.rest
    | none => []

/-- `re.finditer` of an expression that matches no empty text. -/
def findAll (r : Regex α) (s : List α) : List (Place α) := findWithin r (s.length + 1) none s

/-! ### Where matches end -/

variable {r s : Regex α} {p q : Place α}

theorem repeatWithin_suffix {ways : Place α → List (Place α)} {greedy : Bool}
    (h : ∀ p, ∀ q ∈ ways p, q.rest <:+ p.rest) {n : ℕ} {p q : Place α}
    (hq : q ∈ repeatWithin greedy ways n p) : q.rest <:+ p.rest := by
  induction n generalizing p with
  | zero =>
    obtain rfl := List.mem_singleton.mp hq
    exact List.suffix_refl _
  | succ n ih =>
    have hmem : q = p ∨ q ∈ ((ways p).filter fun q => q.rest.length < p.rest.length).flatMap
        (repeatWithin greedy ways n) := by
      cases greedy <;> simpa [repeatWithin, or_comm] using hq
    rcases hmem with rfl | hmore
    · exact List.suffix_refl _
    · obtain ⟨o, ho, hqo⟩ := List.mem_flatMap.mp hmore
      exact (ih hqo).trans (h p o (List.mem_of_mem_filter ho))

/-- **A match takes the front of what is there.** -/
theorem Regex.rest_suffix (h : q ∈ r.ways p) : q.rest <:+ p.rest := by
  induction r generalizing p q with
  | nothing =>
    obtain rfl := List.mem_singleton.mp h
    exact List.suffix_refl _
  | one f =>
    rw [ways] at h
    split at h
    · next c rest hrest =>
      split at h
      · obtain rfl := List.mem_singleton.mp h
        rw [hrest]
        exact List.suffix_cons c rest
      · cases h
    · cases h
  | seq r s ihr ihs =>
    obtain ⟨o, ho, hq⟩ := List.mem_flatMap.mp h
    exact (ihs hq).trans (ihr ho)
  | either r s ihr ihs => exact (List.mem_append.mp h).elim ihr ihs
  | star greedy r ih => exact repeatWithin_suffix (fun p q hq => ih hq) h
  | group name r ih =>
    obtain ⟨o, ho, rfl⟩ := List.mem_map.mp h
    exact @ih p o ho
  | look f =>
    rw [ways] at h
    split at h
    · obtain rfl := List.mem_singleton.mp h
      exact List.suffix_refl _
    · cases h

/-- The fewest characters of a match. -/
def Regex.least : Regex α → ℕ
  | nothing | look _ | star _ _ => 0
  | one _ => 1
  | seq r s => r.least + s.least
  | either r s => min r.least s.least
  | group _ r => r.least

/-- A match takes as many characters as it must. -/
theorem Regex.least_le (h : q ∈ r.ways p) : q.rest.length + r.least ≤ p.rest.length := by
  induction r generalizing p q with
  | nothing | star _ _ _ | look _ => exact (rest_suffix h).length_le
  | one f =>
    rw [ways] at h
    split at h
    · next c rest hrest =>
      split at h
      · obtain rfl := List.mem_singleton.mp h
        rw [hrest, List.length_cons, least]
      · cases h
    · cases h
  | seq r s ihr ihs =>
    obtain ⟨o, ho, hq⟩ := List.mem_flatMap.mp h
    have hfirst := ihr ho
    have hsecond := ihs hq
    rw [least]
    omega
  | either r s ihr ihs =>
    rw [least]
    rcases List.mem_append.mp h with h | h
    · have hleft := ihr h
      omega
    · have hright := ihs h
      omega
  | group name r ih =>
    obtain ⟨o, ho, rfl⟩ := List.mem_map.mp h
    exact @ih p o ho

/-! ### Groups -/

theorem repeatWithin_groups {ways : Place α → List (Place α)} {greedy : Bool} {names : List String}
    (h : ∀ p, ∀ q ∈ ways p, ∃ new, q.groups = new ++ p.groups ∧ ∀ g ∈ new, g.1 ∈ names)
    {n : ℕ} {p q : Place α} (hq : q ∈ repeatWithin greedy ways n p) :
    ∃ new, q.groups = new ++ p.groups ∧ ∀ g ∈ new, g.1 ∈ names := by
  induction n generalizing p with
  | zero =>
    obtain rfl := List.mem_singleton.mp hq
    exact ⟨[], rfl, by simp⟩
  | succ n ih =>
    have hmem : q = p ∨ q ∈ ((ways p).filter fun q => q.rest.length < p.rest.length).flatMap
        (repeatWithin greedy ways n) := by
      cases greedy <;> simpa [repeatWithin, or_comm] using hq
    rcases hmem with rfl | hmore
    · exact ⟨[], rfl, by simp⟩
    · obtain ⟨o, ho, hqo⟩ := List.mem_flatMap.mp hmore
      obtain ⟨new, hnew, hnames⟩ := ih hqo
      obtain ⟨new', hnew', hnames'⟩ := h p o (List.mem_of_mem_filter ho)
      refine ⟨new ++ new', by rw [hnew, hnew', List.append_assoc], ?_⟩
      intro g hg
      exact (List.mem_append.mp hg).elim (hnames g) (hnames' g)

/-- **A match adds groups of its own names.** -/
theorem Regex.groups_of_way (h : q ∈ r.ways p) :
    ∃ new, q.groups = new ++ p.groups ∧ ∀ g ∈ new, g.1 ∈ r.names := by
  induction r generalizing p q with
  | nothing =>
    obtain rfl := List.mem_singleton.mp h
    exact ⟨[], rfl, by simp⟩
  | one f =>
    rw [ways] at h
    split at h
    · split at h
      · obtain rfl := List.mem_singleton.mp h
        exact ⟨[], rfl, by simp⟩
      · cases h
    · cases h
  | seq r s ihr ihs =>
    obtain ⟨o, ho, hq⟩ := List.mem_flatMap.mp h
    obtain ⟨new, hnew, hnames⟩ := ihs hq
    obtain ⟨new', hnew', hnames'⟩ := ihr ho
    refine ⟨new ++ new', by rw [hnew, hnew', List.append_assoc], ?_⟩
    intro g hg
    rw [names, List.mem_append]
    exact (List.mem_append.mp hg).elim (fun hg => Or.inr (hnames g hg)) fun hg => Or.inl (hnames' g hg)
  | either r s ihr ihs =>
    rcases List.mem_append.mp h with h | h
    · obtain ⟨new, hnew, hnames⟩ := ihr h
      exact ⟨new, hnew, fun g hg => List.mem_append_left _ (hnames g hg)⟩
    · obtain ⟨new, hnew, hnames⟩ := ihs h
      exact ⟨new, hnew, fun g hg => List.mem_append_right _ (hnames g hg)⟩
  | star greedy r ih => exact repeatWithin_groups (fun p q hq => ih hq) h
  | group name r ih =>
    obtain ⟨o, ho, rfl⟩ := List.mem_map.mp h
    obtain ⟨new, hnew, hnames⟩ := @ih p o ho
    refine ⟨(name, p.upTo o) :: new, by rw [hnew]; rfl, ?_⟩
    intro g hg
    rcases List.mem_cons.mp hg with rfl | hg
    · exact List.mem_cons_self
    · exact List.mem_cons_of_mem _ (hnames g hg)
  | look f =>
    rw [ways] at h
    split at h
    · obtain rfl := List.mem_singleton.mp h
      exact ⟨[], rfl, by simp⟩
    · cases h

/-- A group that is not matched again stays. -/
theorem Regex.group?_of_way {name : String} (h : q ∈ r.ways p) (hname : name ∉ r.names) :
    q.group? name = p.group? name := by
  obtain ⟨new, hnew, hnames⟩ := groups_of_way h
  rw [Place.group?, Place.group?, hnew, List.lookup_append]
  have hnone : new.lookup name = none := by
    rw [List.lookup_eq_none_iff]
    intro g hg
    rw [bne_iff_ne]
    rintro rfl
    exact hname (hnames g hg)
  rw [hnone, Option.none_or]

/-! ### Searching -/

/-- A match that is found is a match at some place of the text. -/
theorem exists_of_search {before : Option α} {s : List α} (h : search r before s = some q) :
    ∃ before' s', s' <:+ s ∧ q ∈ r.ways ⟨before', s', []⟩ := by
  induction s generalizing before with
  | nil => exact ⟨before, [], List.suffix_refl _, List.mem_of_mem_head? h⟩
  | cons c s ih =>
    rw [search, Option.or_eq_some_iff] at h
    rcases h with h | ⟨-, h⟩
    · exact ⟨before, c :: s, List.suffix_refl _, List.mem_of_mem_head? h⟩
    · obtain ⟨before', s', hs', hq⟩ := ih h
      exact ⟨before', s', hs'.trans (List.suffix_cons c s), hq⟩

theorem exists_of_findAll {s : List α} (h : q ∈ findAll r s) :
    ∃ before' s', q ∈ r.ways ⟨before', s', []⟩ := by
  have hwithin : ∀ (n : ℕ) (before : Option α) (s : List α), q ∈ findWithin r n before s →
      ∃ before' s', q ∈ r.ways ⟨before', s', []⟩ := by
    intro n
    induction n with
    | zero => exact fun _ _ h => absurd h List.not_mem_nil
    | succ n ih =>
      intro before s h
      rw [findWithin] at h
      split at h
      · next q' hq' =>
        rcases List.mem_cons.mp h with rfl | h
        · obtain ⟨before', s', -, hq⟩ := exists_of_search hq'
          exact ⟨before', s', hq⟩
        · exact ih _ _ h
      · cases h
  exact hwithin _ _ _ h

/-- **The leftmost match is the first of all.** -/
theorem search_eq_head?_findAll (r : Regex α) (s : List α) :
    search r none s = (findAll r s).head? := by
  rw [findAll, findWithin]
  cases search r none s with
  | none => rfl
  | some q => rfl

end Backtracking
