import AiSaas.Lib.Backtracking

/-!
# Greedy repetitions

A repetition of a class takes all the characters of the class that are there, if nothing
behind it can start with one of them; a bounded one takes as many as it may.

## Main definitions

* `Place.next`, `Place.past`, `Place.skip` — the place behind a character, behind the
  characters of a class, and behind a number of characters.
* `times`, `upTo` — `r{n}` and `r{0,n}`.

## Main results

* `ways_star_seq` — a repetition that is not given back.
* `head?_ways_upTo` — a bounded one.
* `before_of_way` — a match leaves one of the characters it took before it.
* `findAll_eq_matchAt` — an expression that matches at the front only is found once.
-/

namespace Backtracking

variable {α : Type} {f : α → Bool} {r s t : Regex α} {p q : Place α}

namespace Regex

/-- `r{n}` -/
def times : ℕ → Regex α → Regex α
  | 0, _ => nothing
  | n + 1, r => seq r (times n r)

/-- `r{0,n}` -/
def upTo : ℕ → Regex α → Regex α
  | 0, _ => nothing
  | n + 1, r => opt (seq r (upTo n r))

end Regex

open Regex

/-- The place behind a character, with what is there. -/
def Place.next (p : Place α) (c : α) (rest : List α) : Place α := { p with before := some c, rest }

/-- The place behind the characters of a class. -/
def Place.past (f : α → Bool) (p : Place α) : Place α :=
  { p with before := (p.rest.takeWhile f).getLast?.or p.before, rest := p.rest.dropWhile f }

/-- The place behind some characters, or at the end. -/
def Place.skip (p : Place α) (n : ℕ) : Place α :=
  { p with before := (p.rest.take n).getLast?.or p.before, rest := p.rest.drop n }

@[simp] theorem Place.past_rest : (p.past f).rest = p.rest.dropWhile f := rfl
@[simp] theorem Place.past_groups : (p.past f).groups = p.groups := rfl
@[simp] theorem Place.skip_rest {n : ℕ} : (p.skip n).rest = p.rest.drop n := rfl
@[simp] theorem Place.skip_groups {n : ℕ} : (p.skip n).groups = p.groups := rfl

theorem Place.past_next {c : α} {rest : List α} (h : p.rest = c :: rest) (hc : f c = true) :
    (p.next c rest).past f = p.past f := by
  simp [Place.past, Place.next, h, hc, List.getLast?_cons]

theorem Place.past_eq_self (h : ∀ c ∈ p.rest.head?, f c = false) : p.past f = p := by
  obtain ⟨before, rest, groups⟩ := p
  cases rest with
  | nil => rfl
  | cons c rest => simp [Place.past, h c rfl]

theorem Place.skip_next {c : α} {rest : List α} {n : ℕ} (h : p.rest = c :: rest) :
    (p.next c rest).skip n = p.skip (n + 1) := by
  simp [Place.skip, Place.next, h, List.getLast?_cons]

@[simp] theorem Place.skip_zero : p.skip 0 = p := rfl

/-! ### Classes and sequences -/

theorem ways_one_cons {c : α} {rest : List α} (h : p.rest = c :: rest) :
    (one f).ways p = if f c then [p.next c rest] else [] := by
  rw [ways, h]
  rfl

theorem ways_one_nil (h : p.rest = []) : (one f).ways p = [] := by rw [ways, h]

/-- A class does not match in front of other characters. -/
theorem ways_one_eq_nil (h : ∀ c ∈ p.rest.head?, f c = false) : (one f).ways p = [] := by
  cases hrest : p.rest with
  | nil => exact ways_one_nil hrest
  | cons c rest =>
    have hc : f c = false := h c (by rw [hrest]; rfl)
    rw [ways_one_cons hrest, hc, if_neg Bool.false_ne_true]

theorem ways_seq (r s : Regex α) (p : Place α) : (seq r s).ways p = (r.ways p).flatMap s.ways := rfl

theorem ways_seq_of_eq_nil (h : r.ways p = []) : (seq r s).ways p = [] := by
  rw [ways_seq, h, List.flatMap_nil]

theorem ways_seq_of_eq (h : r.ways p = [q]) : (seq r s).ways p = s.ways q := by
  rw [ways_seq, h, List.flatMap_singleton]

theorem ways_seq_assoc : (seq (seq r s) t).ways p = (seq r (seq s t)).ways p := by
  rw [ways_seq, ways_seq, ways_seq, List.flatMap_assoc]
  rfl

theorem ways_seq_nothing : (seq r nothing).ways p = r.ways p := by
  rw [ways_seq]
  exact List.flatMap_singleton' _

/-! ### Repetitions -/

theorem ways_star_cons {c : α} {rest : List α} (h : p.rest = c :: rest) (hc : f c = true) :
    (star true (one f)).ways p = (star true (one f)).ways (p.next c rest) ++ [p] := by
  rw [ways, h, List.length_cons, repeatWithin, ways_one_cons h, hc, if_pos rfl, if_pos rfl,
    List.filter_cons_of_pos (by simp [h, Place.next]), List.filter_nil, List.flatMap_singleton]
  rfl

/-- A repetition takes nothing in front of other characters. -/
theorem ways_star_eq_self (h : ∀ c ∈ p.rest.head?, f c = false) : (star true (one f)).ways p = [p] := by
  rw [ways]
  cases hlength : p.rest.length with
  | zero => rfl
  | succ n => rw [repeatWithin, ways_one_eq_nil h]; rfl

/-- **A repetition is not given back** where nothing behind it starts with its class. -/
theorem ways_star_seq (hs : ∀ q : Place α, ∀ c ∈ q.rest.head?, f c = true → s.ways q = []) (p : Place α) :
    (seq (star true (one f)) s).ways p = s.ways (p.past f) := by
  obtain ⟨before, rest, groups⟩ := p
  induction rest generalizing before with
  | nil =>
    have hnone : ∀ c ∈ (⟨before, [], groups⟩ : Place α).rest.head?, f c = false := fun c hc => nomatch hc
    rw [ways_seq_of_eq (ways_star_eq_self hnone), Place.past_eq_self hnone]
  | cons c rest ih =>
    cases hc : f c with
    | false =>
      have hfirst : ∀ x ∈ (⟨before, c :: rest, groups⟩ : Place α).rest.head?, f x = false := by
        intro x hx
        obtain rfl := Option.some.inj hx
        exact hc
      rw [ways_seq_of_eq (ways_star_eq_self hfirst), Place.past_eq_self hfirst]
    | true =>
      rw [ways_seq, ways_star_cons rfl hc, List.flatMap_append, List.flatMap_singleton,
        hs _ c rfl hc, List.append_nil, ← Place.past_next rfl hc]
      exact ih (some c)

/-- As many times as it must. -/
theorem ways_times {n : ℕ} (h : ∀ c ∈ p.rest, f c = true) :
    (times n (one f)).ways p = if n ≤ p.rest.length then [p.skip n] else [] := by
  induction n generalizing p with
  | zero => rw [if_pos (Nat.zero_le _)]; rfl
  | succ n ih =>
    cases hrest : p.rest with
    | nil => rw [times, ways_seq_of_eq_nil (ways_one_nil hrest)]; rfl
    | cons c rest =>
      rw [hrest] at h
      have hone : (one f).ways p = [p.next c rest] := by
        rw [ways_one_cons hrest, h c List.mem_cons_self, if_pos rfl]
      rw [times, ways_seq_of_eq hone, ih fun x hx => h x (List.mem_cons_of_mem c hx),
        Place.skip_next hrest, List.length_cons]
      exact if_congr Nat.add_le_add_iff_right.symm rfl rfl

/-- **A bounded repetition takes as many as it may.** -/
theorem head?_ways_upTo {n : ℕ} (h : ∀ c ∈ p.rest, f c = true) :
    ((upTo n (one f)).ways p).head? = some (p.skip n) := by
  induction n generalizing p with
  | zero => rfl
  | succ n ih =>
    rw [upTo, opt, ways, List.head?_append]
    cases hrest : p.rest with
    | nil =>
      rw [ways_seq_of_eq_nil (ways_one_nil hrest)]
      simp [ways, Place.skip, hrest]
      obtain ⟨before, rest, groups⟩ := p
      simpa using hrest
    | cons c rest =>
      rw [hrest] at h
      have hone : (one f).ways p = [p.next c rest] := by
        rw [ways_one_cons hrest, h c List.mem_cons_self, if_pos rfl]
      rw [ways_seq_of_eq hone, ih fun x hx => h x (List.mem_cons_of_mem c hx), Place.skip_next hrest]
      rfl

/-! ### What is before a place -/

/-- A place that is reached from another one is the same, or behind one of the characters
there. -/
def Reached (p q : Place α) : Prop :=
  (q.before = p.before ∧ q.rest = p.rest) ∨ ∃ c ∈ p.rest, q.before = some c

theorem Reached.refl (p : Place α) : Reached p p := Or.inl ⟨rfl, rfl⟩

theorem Reached.trans {o : Place α} (ho : Reached p o) (hq : Reached o q) (hrest : o.rest <:+ p.rest) :
    Reached p q := by
  rcases hq with ⟨hbefore, heq⟩ | ⟨c, hc, hbefore⟩
  · rcases ho with ⟨hbefore', heq'⟩ | ⟨c, hc, hbefore'⟩
    · exact Or.inl ⟨hbefore.trans hbefore', heq.trans heq'⟩
    · exact Or.inr ⟨c, hc, hbefore.trans hbefore'⟩
  · exact Or.inr ⟨c, hrest.subset hc, hbefore⟩

theorem reached_of_repeatWithin {ways : Place α → List (Place α)} {greedy : Bool}
    (h : ∀ p, ∀ q ∈ ways p, Reached p q ∧ q.rest <:+ p.rest) {n : ℕ} {p q : Place α}
    (hq : q ∈ repeatWithin greedy ways n p) : Reached p q := by
  induction n generalizing p with
  | zero =>
    obtain rfl := List.mem_singleton.mp hq
    exact Reached.refl _
  | succ n ih =>
    have hmem : q = p ∨ q ∈ ((ways p).filter fun q => q.rest.length < p.rest.length).flatMap
        (repeatWithin greedy ways n) := by
      cases greedy <;> simpa [repeatWithin, or_comm] using hq
    rcases hmem with rfl | hmore
    · exact Reached.refl _
    · obtain ⟨o, ho, hqo⟩ := List.mem_flatMap.mp hmore
      obtain ⟨hreached, hsuffix⟩ := h p o (List.mem_of_mem_filter ho)
      exact hreached.trans (ih hqo) hsuffix

theorem reached_of_way (h : q ∈ r.ways p) : Reached p q := by
  induction r generalizing p q with
  | nothing =>
    obtain rfl := List.mem_singleton.mp h
    exact Reached.refl _
  | one f =>
    rw [ways] at h
    split at h
    · next c rest hrest =>
      split at h
      · obtain rfl := List.mem_singleton.mp h
        exact Or.inr ⟨c, hrest ▸ List.mem_cons_self, rfl⟩
      · cases h
    · cases h
  | seq r s ihr ihs =>
    obtain ⟨o, ho, hq⟩ := List.mem_flatMap.mp h
    exact (ihr ho).trans (ihs hq) (rest_suffix ho)
  | either r s ihr ihs => exact (List.mem_append.mp h).elim ihr ihs
  | star greedy r ih => exact reached_of_repeatWithin (fun p q hq => ⟨ih hq, rest_suffix hq⟩) h
  | group name r ih =>
    obtain ⟨o, ho, rfl⟩ := List.mem_map.mp h
    exact @ih p o ho
  | look f =>
    rw [ways] at h
    split at h
    · obtain rfl := List.mem_singleton.mp h
      exact Reached.refl _
    · cases h

/-- **A match that takes a character** leaves one of those that were there before it. -/
theorem before_of_way (h : q ∈ r.ways p) (hr : 0 < r.least) : ∃ c ∈ p.rest, q.before = some c := by
  rcases reached_of_way h with ⟨-, heq⟩ | hbefore
  · have hleast := least_le h
    rw [heq] at hleast
    omega
  · exact hbefore

/-! ### Expressions that match at the front -/

/-- An expression that matches nowhere behind a character is not found there. -/
theorem search_eq_none {P : α → Prop} (h : ∀ c s groups, P c → (∀ x ∈ s, P x) →
    r.ways ⟨some c, s, groups⟩ = []) {c : α} {rest : List α} (hc : P c) (hrest : ∀ x ∈ rest, P x) :
    search r (some c) rest = none := by
  induction rest generalizing c with
  | nil => rw [search, matchAt, h c [] [] hc hrest]; rfl
  | cons x rest ih =>
    rw [search, matchAt, h c (x :: rest) [] hc hrest,
      ih (hrest x List.mem_cons_self) fun y hy => hrest y (List.mem_cons_of_mem x hy)]
    rfl

/-- **An expression that matches at the front only** is found there or not at all. -/
theorem findAll_eq_matchAt {P : α → Prop} (h : ∀ c s groups, P c → (∀ x ∈ s, P x) →
    r.ways ⟨some c, s, groups⟩ = []) (hr : 0 < r.least) {u : List α} (hu : ∀ x ∈ u, P x) :
    findAll r u = (matchAt r none u).toList := by
  have hfront : search r none u = matchAt r none u := by
    cases u with
    | nil => rfl
    | cons c u =>
      rw [search, search_eq_none h (hu c List.mem_cons_self) fun x hx => hu x (List.mem_cons_of_mem c hx),
        Option.or_none]
  rw [findAll, findWithin, hfront]
  cases hmatch : matchAt r none u with
  | none => rfl
  | some q =>
    have hway := List.mem_of_mem_head? (Option.mem_def.mpr hmatch)
    obtain ⟨c, hc, hbefore⟩ := before_of_way hway hr
    have hrest : ∀ x ∈ q.rest, P x := fun x hx => hu x ((rest_suffix hway).subset hx)
    cases hlength : u.length with
    | zero =>
      rw [List.length_eq_zero_iff.mp hlength] at hc
      cases hc
    | succ n =>
      have hnone : findWithin r (n + 1) q.before q.rest = [] := by
        rw [findWithin, hbefore, search_eq_none h (hu c hc) hrest]
      exact congrArg (q :: ·) hnone

end Backtracking
