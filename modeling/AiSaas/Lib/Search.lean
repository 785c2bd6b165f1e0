import Mathlib.Algebra.BigOperators.Group.List.Basic
import Mathlib.Algebra.Order.BigOperators.Group.List
import Mathlib.Data.List.Infix
import Mathlib.Data.List.Nodup
import Mathlib.Algebra.GroupWithZero.Nat

/-!
# Searching breadth-first

A search takes the first node of a queue, keeps what the node shows, and puts the nodes it
leads to behind the others.  It visits a bounded number of nodes.  Where the nodes are the
paths of a tree, it comes to an end when the tree has no more paths than that.

## Main definitions

* `search` — what is found, and whether nodes are left.
* `Shows` — what a node shows, itself or further on.
* `extensions` — the number of paths of a tree that go on from one.

## Main results

* `mem_search` — a search that comes to its end finds what its nodes show.
* `search_ends` — a search ends that may visit as many nodes as there are.
* `sum_extensions_lt` — the paths that go on from a node's children are fewer than those that
  go on from the node.
-/

namespace Search

variable {α β : Type*} (step : α → List β × List α)

/-- What is found with `n` visits, and whether nodes are left. -/
def search : ℕ → List α → List β × Bool
  | _, [] => ([], false)
  | 0, _ :: _ => ([], true)
  | n + 1, a :: queue =>
    let rest := search n (queue ++ (step a).2)
    ((step a).1 ++ rest.1, rest.2)

/-- What a node shows, itself or further on. -/
inductive Shows : α → β → Prop
  | here {a : α} {b : β} (h : b ∈ (step a).1) : Shows a b
  | further {a a' : α} {b : β} (h : a' ∈ (step a).2) (hfurther : Shows a' b) : Shows a b

variable {step} {n : ℕ} {queue : List α} {a : α} {b : β}

theorem shows_iff : Shows step a b ↔ b ∈ (step a).1 ∨ ∃ a' ∈ (step a).2, Shows step a' b := by
  constructor
  · intro h
    cases h with
    | here h => exact .inl h
    | further h hfurther => exact .inr ⟨_, h, hfurther⟩
  · rintro (h | ⟨a', h, hfurther⟩)
    · exact .here h
    · exact .further h hfurther

/-- **A search that comes to its end finds what its nodes show.** -/
theorem mem_search (h : (search step n queue).2 = false) :
    b ∈ (search step n queue).1 ↔ ∃ a ∈ queue, Shows step a b := by
  induction n generalizing queue with
  | zero =>
    cases queue with
    | nil => simp [search]
    | cons a queue => cases h
  | succ n ih =>
    cases queue with
    | nil => simp [search]
    | cons a queue =>
      rw [search] at h ⊢
      rw [List.mem_append, ih h, List.exists_mem_cons_iff, shows_iff (a := a), or_assoc]
      refine or_congr_right ?_
      simp only [List.mem_append, or_and_right, exists_or]
      exact or_comm

/-- **A search ends that may visit as many nodes as there are**: each node weighs more than
those it leads to. -/
theorem search_ends (I : α → Prop) (weight : α → ℕ)
    (hstep : ∀ a, I a → (∀ a' ∈ (step a).2, I a') ∧ ((step a).2.map weight).sum < weight a)
    (hqueue : ∀ a ∈ queue, I a) (hn : (queue.map weight).sum ≤ n) : (search step n queue).2 = false := by
  induction n generalizing queue with
  | zero =>
    cases queue with
    | nil => rfl
    | cons a queue =>
      have hpos := (hstep a (hqueue a List.mem_cons_self)).2
      rw [List.map_cons, List.sum_cons] at hn
      omega
  | succ n ih =>
    cases queue with
    | nil => rfl
    | cons a queue =>
      obtain ⟨ha, hqueue⟩ := List.forall_mem_cons.mp hqueue
      obtain ⟨hnext, hweight⟩ := hstep a ha
      refine ih (fun a' ha' => (List.mem_append.mp ha').elim (hqueue a') (hnext a')) ?_
      rw [List.map_cons, List.sum_cons] at hn
      rw [List.map_append, List.sum_append]
      omega

/-! ### Trees -/

variable {κ : Type*} [DecidableEq κ] {paths : List (List κ)} {path : List κ} {names : List κ}

/-- The number of paths that go on from one. -/
def extensions (paths : List (List κ)) (path : List κ) : ℕ := paths.countP fun p => decide (path <+: p)

/-- A path goes on from one child at most. -/
theorem countP_children_le (hnames : names.Nodup) (p : List κ) :
    (names.countP fun name => decide (path ++ [name] <+: p)) ≤
      if decide (path <+: p ∧ p ≠ path) then 1 else 0 := by
  by_cases hp : ∃ name rest, p = path ++ name :: rest
  · obtain ⟨name, rest, rfl⟩ := hp
    have hchild : ∀ x, path ++ [x] <+: path ++ name :: rest ↔ x = name := by
      intro x
      rw [List.prefix_append_right_inj, List.cons_prefix_cons, and_iff_left List.nil_prefix]
    have hone : (names.countP fun x => decide (path ++ [x] <+: path ++ name :: rest)) = names.count name := by
      rw [List.count]
      refine List.countP_congr fun x _ => ?_
      rw [decide_eq_true_eq, hchild, beq_iff_eq]
    rw [hone, if_pos (decide_eq_true ⟨List.prefix_append _ _, by simp⟩)]
    exact List.nodup_iff_count_le_one.mp hnames name
  · have hnone : (names.countP fun name => decide (path ++ [name] <+: p)) = 0 := by
      refine List.countP_eq_zero.mpr fun name _ hchild => hp ?_
      obtain ⟨rest, rfl⟩ := of_decide_eq_true hchild
      exact ⟨name, rest, by simp⟩
    rw [hnone]
    exact Nat.zero_le _

/-- The paths that go on from the children of a path are other ones that go on from it. -/
theorem sum_extensions_le (hnames : names.Nodup) (paths : List (List κ)) :
    (names.map fun name => extensions paths (path ++ [name])).sum ≤
      paths.countP fun p => decide (path <+: p ∧ p ≠ path) := by
  induction paths with
  | nil => simp [extensions]
  | cons p paths ih =>
    have hsplit : ∀ l : List κ, (l.map fun name => extensions (p :: paths) (path ++ [name])).sum =
        (l.map fun name => extensions paths (path ++ [name])).sum +
          l.countP fun name => decide (path ++ [name] <+: p) := by
      intro l
      induction l with
      | nil => rfl
      | cons name l ihl =>
        rw [List.map_cons, List.sum_cons, ihl, List.map_cons, List.sum_cons, List.countP_cons, extensions,
          List.countP_cons, ← extensions]
        omega
    rw [hsplit, List.countP_cons]
    exact Nat.add_le_add ih (countP_children_le hnames p)

/-- **Fewer paths go on from the children of a path than from the path.** -/
theorem sum_extensions_lt (hnames : names.Nodup) (hpath : path ∈ paths) :
    (names.map fun name => extensions paths (path ++ [name])).sum < extensions paths path := by
  refine (sum_extensions_le hnames paths).trans_lt ?_
  obtain ⟨before, after, rfl⟩ := List.append_of_mem hpath
  have hle : ∀ l : List (List κ), (l.countP fun p => decide (path <+: p ∧ p ≠ path)) ≤
      l.countP fun p => decide (path <+: p) := by
    intro l
    refine List.countP_mono_left fun p _ hp => ?_
    exact decide_eq_true (of_decide_eq_true hp).1
  have hbefore := hle before
  have hafter := hle after
  rw [extensions, List.countP_append, List.countP_append, List.countP_cons, List.countP_cons,
    if_neg (by simp), if_pos (decide_eq_true (List.prefix_refl path))]
  omega

end Search
