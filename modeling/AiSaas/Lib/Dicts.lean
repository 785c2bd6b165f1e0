import Mathlib.Data.List.Induction
import Mathlib.Tactic.Common

/-!
# Dictionaries in insertion order

A dictionary is the list of its items; an assignment to a key that is there replaces the
value where it stands, another one adds an item at the end.

## Main definitions

* `assign`, `dictOf`, `update` — one assignment, the dictionary a list of assignments
  builds, and the assignments of one dictionary made in another.

## Main results

* `mem_dictOf` — the last assignment to a key counts.
* `dictOf_of_nodup`, `dictOf_map` — distinct keys are kept as they stand, and values may be
  computed before or after.
* `lookup_dictOf`, `lookup_perm` — the last assignment is looked up, whatever the order.
-/

namespace Dicts

variable {α β γ : Type*} [DecidableEq α]

/-- `d[key] = value`: an assigned key stays where it is. -/
def assign (key : α) (value : β) : List (α × β) → List (α × β)
  | [] => [(key, value)]
  | (k, v) :: rest => if k = key then (key, value) :: rest else (k, v) :: assign key value rest

/-- `{key: value for …}`. -/
def dictOf (items : List (α × β)) : List (α × β) :=
  items.foldl (fun d item => assign item.1 item.2 d) []

/-- `d.update(items)`, of a mapping's items. -/
def update (d items : List (α × β)) : List (α × β) :=
  items.foldl (fun d item => assign item.1 item.2 d) d

variable {key k : α} {value v : β} {items d : List (α × β)}

theorem keys_assign : (assign key value d).map Prod.fst =
    if key ∈ d.map Prod.fst then d.map Prod.fst else d.map Prod.fst ++ [key] := by
  induction d with
  | nil => rfl
  | cons item d ih =>
    obtain ⟨k, v⟩ := item
    rw [assign]
    by_cases hk : k = key
    · simp [hk]
    · rw [if_neg hk, List.map_cons, ih]
      by_cases hmem : key ∈ d.map Prod.fst
      · simp [hmem]
      · rw [if_neg hmem, if_neg (by simp only [List.map_cons, List.mem_cons]; tauto)]
        rfl

theorem nodup_assign (h : (d.map Prod.fst).Nodup) : ((assign key value d).map Prod.fst).Nodup := by
  rw [keys_assign]
  split
  · exact h
  · next hmem =>
    rw [List.nodup_append]
    refine ⟨h, by simp, ?_⟩
    intro a ha b hb heq
    obtain rfl := List.mem_singleton.mp hb
    exact hmem (heq ▸ ha)

/-- An assignment is there, and what was under other keys. -/
theorem mem_assign (h : (d.map Prod.fst).Nodup) : (k, v) ∈ assign key value d ↔
    (k = key ∧ v = value) ∨ (k ≠ key ∧ (k, v) ∈ d) := by
  induction d with
  | nil => simp [assign]
  | cons item d ih =>
    obtain ⟨k', v'⟩ := item
    rw [List.map_cons, List.nodup_cons] at h
    rw [assign]
    by_cases hk : k' = key
    · subst hk
      rw [if_pos rfl, List.mem_cons, List.mem_cons, Prod.mk.injEq, Prod.mk.injEq]
      constructor
      · rintro (⟨rfl, rfl⟩ | hmem)
        · exact Or.inl ⟨rfl, rfl⟩
        · refine Or.inr ⟨?_, Or.inr hmem⟩
          rintro rfl
          exact h.1 (List.mem_map.mpr ⟨_, hmem, rfl⟩)
      · rintro (⟨rfl, rfl⟩ | ⟨hne, ⟨rfl, -⟩ | hmem⟩)
        · exact Or.inl ⟨rfl, rfl⟩
        · exact absurd rfl hne
        · exact Or.inr hmem
    · rw [if_neg hk, List.mem_cons, List.mem_cons, ih h.2, Prod.mk.injEq]
      constructor
      · rintro (⟨rfl, rfl⟩ | hassign | ⟨hne, hmem⟩)
        · exact Or.inr ⟨hk, Or.inl ⟨rfl, rfl⟩⟩
        · exact Or.inl hassign
        · exact Or.inr ⟨hne, Or.inr hmem⟩
      · rintro (hassign | ⟨hne, hfirst | hmem⟩)
        · exact Or.inr (Or.inl hassign)
        · exact Or.inl hfirst
        · exact Or.inr (Or.inr ⟨hne, hmem⟩)

theorem dictOf_concat : dictOf (items ++ [(key, value)]) = assign key value (dictOf items) := by
  rw [dictOf, List.foldl_append]
  rfl

theorem nodup_dictOf (items : List (α × β)) : ((dictOf items).map Prod.fst).Nodup := by
  induction items using List.reverseRecOn with
  | nil => exact List.nodup_nil
  | append_singleton items item ih =>
    obtain ⟨key, value⟩ := item
    rw [dictOf_concat]
    exact nodup_assign ih

/-- The last assignment to a key counts. -/
theorem mem_dictOf : (k, v) ∈ dictOf items ↔
    ∃ l r, items = l ++ (k, v) :: r ∧ k ∉ r.map Prod.fst := by
  induction items using List.reverseRecOn with
  | nil => simp [dictOf]
  | append_singleton items item ih =>
    obtain ⟨key, value⟩ := item
    rw [dictOf_concat, mem_assign (nodup_dictOf items), ih]
    constructor
    · rintro (⟨rfl, rfl⟩ | ⟨hne, l, r, rfl, hr⟩)
      · exact ⟨items, [], rfl, by simp⟩
      · refine ⟨l, r ++ [(key, value)], by simp, ?_⟩
        simp only [List.map_append, List.map_cons, List.map_nil, List.mem_append,
          List.mem_singleton]
        rintro (hmem | rfl)
        · exact hr hmem
        · exact hne rfl
    · rintro ⟨l, r, hitems, hr⟩
      induction r using List.reverseRecOn with
      | nil =>
        obtain ⟨-, hlast⟩ := List.append_inj' hitems rfl
        obtain ⟨rfl, rfl⟩ := Prod.mk.inj (List.cons.inj hlast).1
        exact Or.inl ⟨rfl, rfl⟩
      | append_singleton r last _ =>
        rw [← List.cons_append, ← List.append_assoc] at hitems
        obtain ⟨hinit, hlast⟩ := List.append_inj' hitems rfl
        obtain rfl := (List.cons.inj hlast).1
        rw [List.map_append, List.mem_append, not_or] at hr
        refine Or.inr ⟨?_, l, r, hinit, hr.1⟩
        rintro rfl
        exact hr.2 (by simp)

/-- A new key is added at the end. -/
theorem assign_of_notMem (h : key ∉ d.map Prod.fst) : assign key value d = d ++ [(key, value)] := by
  induction d with
  | nil => rfl
  | cons item d ih =>
    simp only [List.map_cons, List.mem_cons, not_or] at h
    rw [assign, if_neg (Ne.symm h.1), ih h.2, List.cons_append]

/-- A mapping of distinct keys is built as it stands. -/
theorem dictOf_of_nodup (h : (items.map Prod.fst).Nodup) : dictOf items = items := by
  induction items using List.reverseRecOn with
  | nil => rfl
  | append_singleton items item ih =>
    obtain ⟨key, value⟩ := item
    rw [List.map_append, List.nodup_append] at h
    rw [dictOf_concat, ih h.1]
    exact assign_of_notMem fun hmem => h.2.2 key hmem key (by simp) rfl

/-- Values may be computed before or after the mapping is built. -/
theorem dictOf_map (f : α → β → γ) (items : List (α × β)) :
    dictOf (items.map fun item => (item.1, f item.1 item.2)) =
      (dictOf items).map fun item => (item.1, f item.1 item.2) := by
  induction items using List.reverseRecOn with
  | nil => rfl
  | append_singleton items item ih =>
    obtain ⟨key, value⟩ := item
    have hassign : ∀ d : List (α × β),
        assign key (f key value) (d.map fun item => (item.1, f item.1 item.2)) =
          (assign key value d).map fun item => (item.1, f item.1 item.2) := by
      intro d
      induction d with
      | nil => rfl
      | cons item d ihd =>
        rw [List.map_cons, assign, assign]
        by_cases hk : item.1 = key
        · rw [if_pos hk, if_pos hk, List.map_cons]
        · rw [if_neg hk, if_neg hk, List.map_cons, ihd]
    rw [List.map_append, List.map_cons, List.map_nil, dictOf_concat, ih, hassign, dictOf_concat]

/-! ### Looking up -/

theorem lookup_cons_if {k' : α} {v' : β} :
    ((k', v') :: d).lookup k = if k = k' then some v' else d.lookup k := by
  rw [List.lookup_cons]
  by_cases h : k = k'
  · rw [if_pos h, beq_iff_eq.mpr h]
  · rw [if_neg h, beq_eq_false_iff_ne.mpr h]

theorem lookup_assign : (assign key value d).lookup k = if k = key then some value else d.lookup k := by
  induction d with
  | nil => rw [assign, lookup_cons_if]
  | cons item d ih =>
    obtain ⟨k', v'⟩ := item
    rw [assign]
    by_cases hk : k' = key
    · subst hk
      rw [if_pos rfl, lookup_cons_if, lookup_cons_if]
      split <;> rfl
    · rw [if_neg hk, lookup_cons_if, lookup_cons_if, ih]
      by_cases heq : k = k'
      · subst heq
        rw [if_pos rfl, if_pos rfl, if_neg hk]
      · rw [if_neg heq, if_neg heq]

/-- The last assignment to a key is looked up. -/
theorem lookup_dictOf : (dictOf items).lookup k = items.reverse.lookup k := by
  induction items using List.reverseRecOn with
  | nil => rfl
  | append_singleton items item ih =>
    obtain ⟨key, value⟩ := item
    rw [dictOf_concat, lookup_assign, ih, List.reverse_append, List.reverse_singleton,
      List.singleton_append, lookup_cons_if]

/-- Under distinct keys, what is there is looked up. -/
theorem lookup_eq_some_iff_mem (h : (d.map Prod.fst).Nodup) : d.lookup k = some v ↔ (k, v) ∈ d := by
  induction d with
  | nil => simp
  | cons item d ih =>
    obtain ⟨k', v'⟩ := item
    rw [List.map_cons, List.nodup_cons] at h
    rw [lookup_cons_if, List.mem_cons, Prod.mk.injEq, ← ih h.2]
    by_cases heq : k = k'
    · subst heq
      have hnone : d.lookup k ≠ some v := fun hmem =>
        h.1 (List.mem_map.mpr ⟨(k, v), (ih h.2).mp hmem, rfl⟩)
      simp [hnone, eq_comm]
    · simp [heq]

theorem lookup_eq_none_of_notMem (h : k ∉ d.map Prod.fst) : d.lookup k = none := by
  induction d with
  | nil => rfl
  | cons item d ih =>
    obtain ⟨k', v'⟩ := item
    rw [List.map_cons, List.mem_cons, not_or] at h
    rw [lookup_cons_if, if_neg h.1, ih h.2]

/-- The order of the items does not matter for what is looked up. -/
theorem lookup_perm {d' : List (α × β)} (h : (d.map Prod.fst).Nodup) (hperm : d.Perm d') :
    d.lookup k = d'.lookup k := by
  have h' : (d'.map Prod.fst).Nodup := (hperm.map Prod.fst).nodup_iff.mp h
  refine Option.ext fun v => ?_
  rw [lookup_eq_some_iff_mem h, lookup_eq_some_iff_mem h', hperm.mem_iff]

end Dicts
