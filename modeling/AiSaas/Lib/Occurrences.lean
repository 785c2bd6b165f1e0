import AiSaas.Lib.Greedy

/-!
# Occurrences of an expression

What an expression without groups can take at a place, piece by piece, and that a search
finds it wherever it is.

## Main definitions

* `Regex.Takes` — a way to match some characters behind others and in front of others.

## Main results

* `Takes.seq`, `Takes.star`, `Takes.any` and others — how the pieces of an expression take.
* `isSome_search_iff` — a search succeeds exactly when there is a place with a match.
* `Takes.isSome_search` — which there is where the expression takes something.
-/

namespace Backtracking

variable {α : Type} {f : α → Bool} {r s : Regex α} {before : Option α} {u v rest : List α}

/-- Behind `before`, the expression can take `u` in front of `rest`. -/
def Regex.Takes (r : Regex α) (before : Option α) (u rest : List α) : Prop :=
  ∀ groups, ⟨u.getLast?.or before, rest, groups⟩ ∈ r.ways ⟨before, u ++ rest, groups⟩

open Regex

theorem getLast?_append_or (u v : List α) (before : Option α) :
    (u ++ v).getLast?.or before = v.getLast?.or (u.getLast?.or before) := by
  rw [List.getLast?_append, Option.or_assoc]

namespace Regex.Takes

theorem nothing : Takes (.nothing : Regex α) before [] rest := fun _ => List.mem_singleton_self _

theorem one {c : α} (h : f c = true) : Takes (.one f) before [c] rest := by
  intro groups
  have hways : (Regex.one f).ways ⟨before, c :: rest, groups⟩ = _ := ways_one_cons rfl
  rw [List.singleton_append, hways, h]
  exact List.mem_singleton_self _

theorem seq (hr : Takes r before u (v ++ rest)) (hs : Takes s (u.getLast?.or before) v rest) :
    Takes (.seq r s) before (u ++ v) rest := by
  intro groups
  rw [ways_seq, List.mem_flatMap, getLast?_append_or, List.append_assoc]
  exact ⟨_, hr groups, hs groups⟩

theorem left (h : Takes r before u rest) : Takes (.either r s) before u rest :=
  fun groups => List.mem_append_left _ (h groups)

theorem right (h : Takes s before u rest) : Takes (.either r s) before u rest :=
  fun groups => List.mem_append_right _ (h groups)

theorem look {f : Option α → Option α → Bool} (h : f before rest.head? = true) :
    Takes (.look f) before [] rest := by
  intro groups
  rw [ways, List.nil_append, h]
  exact List.mem_singleton_self _

/-- A repetition of a class takes any number of its characters. -/
theorem star (h : ∀ c ∈ u, f c = true) : Takes (.star true (.one f)) before u rest := by
  intro groups
  induction u generalizing before with
  | nil =>
    cases hrest : rest with
    | nil => exact List.mem_singleton_self _
    | cons c rest =>
      rw [ways, List.nil_append, List.length_cons, repeatWithin]
      exact List.mem_append_right _ (List.mem_singleton_self _)
  | cons c u ih =>
    have hmore := @ih (some c) fun x hx => h x (List.mem_cons_of_mem c hx)
    rw [List.cons_append, ways_star_cons rfl (h c List.mem_cons_self), List.getLast?_cons]
    refine List.mem_append_left _ ?_
    cases hlast : u.getLast? with
    | none => rw [hlast] at hmore; exact hmore
    | some x => rw [hlast] at hmore; exact hmore

theorem plus (hu : u ≠ []) (h : ∀ c ∈ u, f c = true) : Takes (.plus (.one f)) before u rest := by
  obtain ⟨c, u, rfl⟩ := List.exists_cons_of_ne_nil hu
  exact seq (u := [c]) (one (h c List.mem_cons_self)) (star fun x hx => h x (List.mem_cons_of_mem c hx))

/-- An alternative that takes is one of several. -/
theorem any {rs : List (Regex α)} (hr : r ∈ rs) (h : Takes r before u rest) :
    Takes (.any rs) before u rest := by
  induction rs with
  | nil => cases hr
  | cons r' rs ih =>
    cases rs with
    | nil => exact List.mem_singleton.mp hr ▸ h
    | cons r'' rs =>
      rcases List.mem_cons.mp hr with rfl | hr
      · exact left h
      · exact right (ih hr)

theorem all_nil : Takes (.all ([] : List (Regex α))) before [] rest := nothing

theorem all_cons {rs : List (Regex α)} (hr : Takes r before u (v ++ rest))
    (hrs : Takes (.all rs) (u.getLast?.or before) v rest) : Takes (.all (r :: rs)) before (u ++ v) rest :=
  seq hr hrs

theorem all_look {f : Option α → Option α → Bool} {rs : List (Regex α)}
    (h : f before (u ++ rest).head? = true) (hrs : Takes (.all rs) before u rest) :
    Takes (.all (.look f :: rs)) before u rest := @all_cons _ _ _ [] u rest rs (look h) hrs

/-- One class behind another takes a character of each. -/
theorem classes {fs : List (α → Bool)} (h : List.Forall₂ (fun f c => f c = true) fs u) :
    Takes (.all (fs.map .one)) before u rest := by
  induction h generalizing before with
  | nil => exact nothing
  | cons hc _ ih => exact seq (u := [_]) (one hc) ih

end Regex.Takes

/-- An assertion takes nothing. -/
theorem of_way_look {f : Option α → Option α → Bool} {p q : Place α} (h : q ∈ (look f).ways p) :
    f p.before p.rest.head? = true ∧ q = p := by
  rw [ways] at h
  split at h
  · next hf => exact ⟨hf, List.mem_singleton.mp h⟩
  · cases h

/-- One class behind another takes one character of each, and nothing else. -/
theorem forall₂_of_way {fs : List (α → Bool)} {p q : Place α} (h : q ∈ (all (fs.map one)).ways p) :
    ∃ u, p.rest = u ++ q.rest ∧ q.before = u.getLast?.or p.before ∧
      List.Forall₂ (fun f c => f c = true) fs u := by
  induction fs generalizing p with
  | nil =>
    obtain rfl := List.mem_singleton.mp h
    exact ⟨[], rfl, rfl, List.Forall₂.nil⟩
  | cons f fs ih =>
    obtain ⟨o, ho, hq⟩ := List.mem_flatMap.mp h
    rw [ways] at ho
    split at ho
    · next c rest hrest =>
      split at ho
      · next hc =>
        obtain rfl := List.mem_singleton.mp ho
        obtain ⟨u, hu, hbefore, hall⟩ := ih hq
        refine ⟨c :: u, by rw [hrest, List.cons_append, ← hu], ?_, List.Forall₂.cons hc hall⟩
        rw [hbefore, List.getLast?_cons]
        cases u.getLast? <;> rfl
      · cases ho
    · cases ho

/-! ### Searching -/

/-- **A search succeeds** exactly when the text has a place with a match. -/
theorem isSome_search_iff : (search r before u).isSome = true ↔
    ∃ v w, u = v ++ w ∧ r.ways ⟨v.getLast?.or before, w, []⟩ ≠ [] := by
  have hhead : ∀ before w, (matchAt r before w).isSome = true ↔ r.ways ⟨before, w, []⟩ ≠ [] := by
    intro before w
    rw [matchAt, List.isSome_head?]
  induction u generalizing before with
  | nil =>
    rw [search, hhead]
    constructor
    · intro h
      exact ⟨[], [], rfl, h⟩
    · rintro ⟨v, w, huv, h⟩
      obtain ⟨rfl, rfl⟩ := List.append_eq_nil_iff.mp huv.symm
      exact h
  | cons c u ih =>
    have hrest : (search r (some c) u).isSome = true ↔
        ∃ v w, u = v ++ w ∧ r.ways ⟨v.getLast?.or (some c), w, []⟩ ≠ [] := ih
    rw [search, Option.isSome_or, Bool.or_eq_true, hhead, hrest]
    constructor
    · rintro (h | ⟨v, w, rfl, h⟩)
      · exact ⟨[], c :: u, rfl, h⟩
      · refine ⟨c :: v, w, rfl, ?_⟩
        rw [List.getLast?_cons]
        cases hlast : v.getLast? with
        | none => rw [hlast] at h; exact h
        | some x => rw [hlast] at h; exact h
    · rintro ⟨v, w, huv, h⟩
      cases v with
      | nil =>
        obtain rfl : c :: u = w := huv
        exact Or.inl h
      | cons d v =>
        obtain ⟨rfl, rfl⟩ := List.cons.inj huv
        refine Or.inr ⟨v, w, rfl, ?_⟩
        rw [List.getLast?_cons] at h
        cases hlast : v.getLast? with
        | none => rw [hlast] at h; exact h
        | some x => rw [hlast] at h; exact h

/-- **What an expression takes is found.** -/
theorem Regex.Takes.isSome_search (h : Takes r (v.getLast?.or before) u rest) :
    (search r before (v ++ (u ++ rest))).isSome = true :=
  isSome_search_iff.mpr ⟨v, u ++ rest, rfl, List.ne_nil_of_mem (h [])⟩

end Backtracking
