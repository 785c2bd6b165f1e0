import Mathlib.Data.List.Basic
import Mathlib.Data.List.Infix
import Mathlib.Data.List.Nodup
import Mathlib.Tactic.Common
import Mathlib.Algebra.GroupWithZero.Nat

/-!
# Taking turns, and packing

Queues that are served in turns: one item of each, then the next one of each, until
nothing is left.  And a list that is packed into a budget: every item is taken that fits
beside those taken before it, and the first one in any case.

## Main definitions

* `turn`, `serve` — one turn, and turns until nothing is left.
* `Served` — what is served when turns are taken until nothing is left.
* `turns` — the items in the order of their turns.
* `room`, `after`, `pack` — packing a list.

## Main results

* `serve_eq_turns` — serving in turns is the order of the turns.
* `served_serve` — serving comes to an end, also where a queue has several places in a turn.
* `Served.filter_eq`, `Served.fair` — each queue is served whole and in its order, and with
  one place each, of two queues with items left neither is ahead by more than one.
* `exists_turns_first` — every queue has its first item served in the first turn.
* `mem_pack_iff` — what is taken: what has room when it comes.
* `room_of_sum_le` — what fits beside all before it has room.
-/

namespace Turns

variable {ι α : Type} {order : List ι} {queues queues' : ι → List α} {i : ι} {x : α} {n : ℕ}

/-! ### Turns -/

/-- The items in the order of their turns: the first ones of all queues, the second ones,
and so on for `n` turns. -/
def turns (order : List ι) (queues : ι → List α) (n : ℕ) : List α :=
  (List.range n).flatMap fun k => order.filterMap fun i => (queues i)[k]?

@[simp] theorem turns_zero (order : List ι) (queues : ι → List α) : turns order queues 0 = [] := rfl

theorem turns_succ (order : List ι) (queues : ι → List α) (n : ℕ) :
    turns order queues (n + 1) =
      (order.filterMap fun i => (queues i).head?) ++ turns order (fun i => (queues i).tail) n := by
  rw [turns, List.range_succ_eq_map, List.flatMap_cons, List.flatMap_map, turns]
  simp only [List.head?_eq_getElem?, List.getElem?_tail]

theorem turns_congr (h : ∀ i ∈ order, queues i = queues' i) :
    turns order queues n = turns order queues' n := by
  have hturn : ∀ k : ℕ, (order.filterMap fun i => (queues i)[k]?) =
      order.filterMap fun i => (queues' i)[k]? := fun k =>
    List.filterMap_congr fun i hi => by rw [h i hi]
  simp only [turns, hturn]

theorem turns_eq_nil (h : ∀ i ∈ order, queues i = []) : turns order queues n = [] := by
  rw [turns, List.flatMap_eq_nil_iff]
  intro k _
  rw [List.filterMap_eq_nil_iff]
  intro i hi
  rw [h i hi, List.getElem?_nil]

theorem mem_turns (h : x ∈ turns order queues n) : ∃ i ∈ order, x ∈ queues i := by
  obtain ⟨k, -, hk⟩ := List.mem_flatMap.mp h
  obtain ⟨i, hi, hx⟩ := List.mem_filterMap.mp hk
  exact ⟨i, hi, List.mem_of_getElem? hx⟩

/-- **Every queue has its first item served in the first turn**, behind the first items of
the queues before it. -/
theorem exists_turns_first (before after : List ι) (hx : (queues i).head? = some x) (hn : 0 < n) :
    ∃ back, turns (before ++ i :: after) queues n =
      (before.filterMap fun j => (queues j).head?) ++ x :: back := by
  obtain ⟨n, rfl⟩ := Nat.exists_eq_add_one_of_ne_zero hn.ne'
  refine ⟨(after.filterMap fun j => (queues j).head?) ++
    turns (before ++ i :: after) (fun j => (queues j).tail) n, ?_⟩
  have hfirst : ((i :: after).filterMap fun j => (queues j).head?) =
      x :: after.filterMap fun j => (queues j).head? := by rw [List.filterMap_cons, hx]
  rw [turns_succ, List.filterMap_append, hfirst, List.append_assoc, List.cons_append]

/-! ### Serving -/

variable [DecidableEq ι]

/-- One turn: the first item of each queue, and the queues that are left. -/
def turn (order : List ι) (queues : ι → List α) : List α × (ι → List α) :=
  order.foldl (fun (taken, queues) i =>
    match queues i with
    | [] => (taken, queues)
    | x :: rest => (taken ++ [x], fun j => if j = i then rest else queues j))
    ([], queues)

/-- Turns until nothing is left, `n` at most. -/
def serve (order : List ι) : ℕ → (ι → List α) → List α
  | 0, _ => []
  | n + 1, queues =>
    if order.any fun i => !(queues i).isEmpty then
      (turn order queues).1 ++ serve order n (turn order queues).2
    else []

theorem turn_eq (hnodup : order.Nodup) (queues : ι → List α) :
    turn order queues = (order.filterMap fun i => (queues i).head?,
      fun i => if i ∈ order then (queues i).tail else queues i) := by
  have hfold : ∀ (taken : List α) (left : ι → List α), (∀ i ∈ order, left i = queues i) →
      order.foldl (fun (taken, queues) i =>
        match queues i with
        | [] => (taken, queues)
        | x :: rest => (taken ++ [x], fun j => if j = i then rest else queues j)) (taken, left) =
      (taken ++ order.filterMap fun i => (queues i).head?,
        fun i => if i ∈ order then (queues i).tail else left i) := by
    induction order with
    | nil => simp
    | cons i order ih =>
      intro taken left hleft
      obtain ⟨hi, hnodup⟩ := List.nodup_cons.mp hnodup
      have hfirst := hleft i List.mem_cons_self
      rw [List.foldl_cons]
      cases hqueue : queues i with
      | nil =>
        rw [hqueue] at hfirst
        simp only [hfirst]
        rw [ih hnodup taken left fun j hj => hleft j (List.mem_cons_of_mem i hj)]
        simp only [List.filterMap_cons, hqueue, List.head?_nil, Prod.mk.injEq, true_and]
        funext j
        by_cases hj : j = i
        · subst hj
          simp [hi, hfirst, hqueue]
        · simp [hj]
      | cons x rest =>
        rw [hqueue] at hfirst
        simp only [hfirst]
        rw [ih hnodup (taken ++ [x]) _ fun j hj => ?_]
        · simp only [List.filterMap_cons, hqueue, List.head?_cons, List.append_assoc,
            List.singleton_append, Prod.mk.injEq, true_and]
          funext j
          by_cases hj : j = i
          · subst hj
            simp [hi, hqueue]
          · simp [hj]
        · have hne : j ≠ i := fun heq => hi (heq ▸ hj)
          rw [if_neg hne]
          exact hleft j (List.mem_cons_of_mem i hj)
  exact hfold [] queues fun i _ => rfl

/-- **Serving in turns is the order of the turns**, with as many turns as the longest queue
needs. -/
theorem serve_eq_turns (hnodup : order.Nodup) (hlength : ∀ i ∈ order, (queues i).length ≤ n) :
    serve order n queues = turns order queues n := by
  induction n generalizing queues with
  | zero => rfl
  | succ n ih =>
    rw [serve]
    by_cases hany : order.any fun i => !(queues i).isEmpty
    · have hleft : ∀ i ∈ order, ((turn order queues).2 i).length ≤ n := by
        intro i hi
        rw [turn_eq hnodup]
        simp only [if_pos hi, List.length_tail]
        have := hlength i hi
        omega
      rw [if_pos hany, ih hleft, turn_eq hnodup, turns_succ]
      refine congrArg _ (turns_congr fun i hi => ?_)
      exact if_pos hi
    · rw [if_neg hany, eq_comm]
      refine turns_eq_nil fun i hi => ?_
      by_contra hne
      exact hany (List.any_eq_true.mpr ⟨i, hi, by simpa using hne⟩)

/-! ### Serving to the end -/

/-- What is served when turns are taken until nothing is left. -/
inductive Served (order : List ι) : (ι → List α) → List α → Prop
  | done {queues : ι → List α} (h : (order.any fun i => !(queues i).isEmpty) = false) :
    Served order queues []
  | turn {queues : ι → List α} {rest : List α} (h : (order.any fun i => !(queues i).isEmpty) = true)
    (hrest : Served order (Turns.turn order queues).2 rest) :
    Served order queues ((Turns.turn order queues).1 ++ rest)

/-- The items of a queue have its label. -/
def Labelled (label : α → ι) (queues : ι → List α) : Prop := ∀ i, ∀ x ∈ queues i, label x = i

variable {label : α → ι} {l front back : List α} {j : ι}

/-- The items of a label in a list. -/
def ofLabel (label : α → ι) (i : ι) (l : List α) : List α := l.filter fun x => decide (label x = i)

theorem ofLabel_append : ofLabel label i (front ++ back) = ofLabel label i front ++ ofLabel label i back :=
  List.filter_append ..

/-- **What a turn takes of a queue, and leaves**: as many items as the queue has places. -/
theorem turn_queue (hlabel : Labelled label queues) (i : ι) :
    ofLabel label i (turn order queues).1 = (queues i).take (order.count i) ∧
      (turn order queues).2 i = (queues i).drop (order.count i) := by
  have hfold : ∀ (taken : List α) (queues : ι → List α), Labelled label queues →
      let served := order.foldl (fun (taken, queues) i =>
        match queues i with
        | [] => (taken, queues)
        | x :: rest => (taken ++ [x], fun j => if j = i then rest else queues j)) (taken, queues)
      ofLabel label i served.1 = ofLabel label i taken ++ (queues i).take (order.count i) ∧
        served.2 i = (queues i).drop (order.count i) := by
    induction order with
    | nil => simp
    | cons k order ih =>
      intro taken queues hlabel
      dsimp only at ih ⊢
      rw [List.foldl_cons]
      cases hqueue : queues k with
      | nil =>
        simp only [hqueue]
        obtain ⟨htaken, hleft⟩ := ih taken queues hlabel
        rw [htaken, hleft]
        by_cases hk : k = i
        · subst hk
          simp [hqueue]
        · rw [List.count_cons_of_ne hk]
          exact ⟨rfl, rfl⟩
      | cons x rest =>
        simp only [hqueue]
        have hx : label x = k := hlabel k x (hqueue ▸ List.mem_cons_self)
        have hrest : Labelled label fun j => if j = k then rest else queues j := by
          intro j y hy
          dsimp only at hy
          split at hy
          · next hj => exact hj ▸ hlabel k y (hqueue ▸ List.mem_cons_of_mem x hy)
          · exact hlabel j y hy
        obtain ⟨htaken, hleft⟩ := ih (taken ++ [x]) _ hrest
        rw [htaken, hleft, ofLabel_append]
        by_cases hk : k = i
        · subst hk
          simp [hqueue, ofLabel, hx]
        · rw [List.count_cons_of_ne hk, if_neg (Ne.symm hk)]
          simp [ofLabel, hx, hk]
  exact hfold [] queues hlabel

theorem Labelled.turn (h : Labelled label queues) : Labelled label (Turns.turn order queues).2 := by
  intro i x hx
  rw [(turn_queue h i).2] at hx
  exact h i x (List.mem_of_mem_drop hx)

/-- **Serving comes to an end** after as many turns as the longest queue has items. -/
theorem served_serve (hlabel : Labelled label queues) (hlength : ∀ i ∈ order, (queues i).length ≤ n) :
    Served order queues (serve order n queues) := by
  induction n generalizing queues with
  | zero =>
    refine .done (List.any_eq_false.mpr fun i hi => ?_)
    rw [List.eq_nil_of_length_eq_zero (Nat.le_zero.mp (hlength i hi))]
    exact Bool.false_ne_true
  | succ n ih =>
    rw [serve]
    split
    · next h =>
      refine .turn h (ih hlabel.turn fun i hi => ?_)
      -- a queue of the order has a place, so a turn takes something of it
      have hplace : 0 < order.count i := List.count_pos_iff.mpr hi
      have hle := hlength i hi
      rw [(turn_queue hlabel i).2, List.length_drop]
      omega
    · next h => exact .done ((Bool.not_eq_true _).mp h)

omit [DecidableEq ι] in
theorem eq_nil_of_done (h : (order.any fun i => !(queues i).isEmpty) = false) (hi : i ∈ order) :
    queues i = [] := by
  have hempty := List.any_eq_false.mp h i hi
  simpa using hempty

/-- **Each queue is served whole, in its order.** -/
theorem Served.filter_eq (h : Served order queues l) (hlabel : Labelled label queues) (hi : i ∈ order) :
    ofLabel label i l = queues i := by
  induction h with
  | done h => rw [eq_nil_of_done h hi]; rfl
  | turn h hrest ih =>
    rw [ofLabel_append, (turn_queue hlabel i).1, ih hlabel.turn, (turn_queue hlabel i).2,
      List.take_append_drop]

/-- Nothing else is served. -/
theorem Served.label_mem (h : Served order queues l) (hlabel : Labelled label queues) (hx : x ∈ l) :
    label x ∈ order := by
  induction h with
  | done h => exact absurd hx List.not_mem_nil
  | turn h hrest ih =>
    rcases List.mem_append.mp hx with hx | hx
    · have htaken : x ∈ ofLabel label (label x) (Turns.turn order _).1 :=
        List.mem_filter.mpr ⟨hx, decide_eq_true rfl⟩
      rw [(turn_queue hlabel (label x)).1] at htaken
      by_contra hout
      rw [List.count_eq_zero_of_not_mem hout] at htaken
      exact absurd htaken List.not_mem_nil
    · exact ih hlabel.turn hx

/-- A queue with items left after a turn had one for each of its places. -/
theorem Served.length_first (hrest : Served order (Turns.turn order queues).2 l)
    (hlabel : Labelled label queues) (hnodup : order.Nodup) (hx : x ∈ l) :
    (ofLabel label (label x) (Turns.turn order queues).1).length = 1 := by
  have hi := hrest.label_mem hlabel.turn hx
  have hleft : x ∈ (queues (label x)).drop (order.count (label x)) := by
    rw [← (turn_queue hlabel (label x)).2, ← hrest.filter_eq hlabel.turn hi]
    exact List.mem_filter.mpr ⟨hx, decide_eq_true rfl⟩
  have hone : order.count (label x) = 1 := List.count_eq_one_of_mem hnodup hi
  rw [(turn_queue hlabel (label x)).1, List.length_take]
  rw [hone] at hleft ⊢
  have hpos := List.length_pos_of_mem hleft
  rw [List.length_drop] at hpos
  omega

/-- **Turns are fair**: with one place for each queue, of two queues that have items left
neither is ahead by more than one. -/
theorem Served.fair (h : Served order queues l) (hlabel : Labelled label queues) (hnodup : order.Nodup)
    (hl : l = front ++ back) {x y : α} (hx : x ∈ back) (hy : y ∈ back) :
    (ofLabel label (label x) front).length ≤ (ofLabel label (label y) front).length + 1 := by
  induction h generalizing front with
  | done h =>
    obtain ⟨rfl, -⟩ := List.append_eq_nil_iff.mp hl.symm
    exact Nat.zero_le _
  | @turn queues rest h hrest ih =>
    rcases List.append_eq_append_iff.mp hl with ⟨front', rfl, hback⟩ | ⟨mid, hfirst, -⟩
    · have hmem : ∀ {z}, z ∈ back → z ∈ rest := fun hz => hback ▸ List.mem_append_right front' hz
      rw [ofLabel_append, ofLabel_append, List.length_append, List.length_append,
        hrest.length_first hlabel hnodup (hmem hx), hrest.length_first hlabel hnodup (hmem hy)]
      have hle := ih hlabel.turn hback
      omega
    · -- within the first turn a queue has been served once at most
      have hle : (ofLabel label (label x) front).length ≤ order.count (label x) := by
        have htaken := congrArg (fun l => (ofLabel label (label x) l).length) hfirst
        simp only [(turn_queue hlabel (label x)).1, ofLabel_append, List.length_append,
          List.length_take] at htaken
        omega
      have hone := List.nodup_iff_count_le_one.mp hnodup (label x)
      omega

/-- Lists with the same items of each label, in their order, are permutations. -/
theorem perm_of_ofLabel (h : ∀ i, ofLabel label i front = ofLabel label i back) : front.Perm back := by
  classical
  refine List.perm_iff_count.mpr fun x => ?_
  have hcount : ∀ l : List α, (ofLabel label (label x) l).count x = l.count x := fun l =>
    List.count_filter (decide_eq_true rfl)
  rw [← hcount front, ← hcount back, h]

end Turns

namespace Packing

variable {α : Type} {budget : ℕ} {size : α → ℕ} {x : α} {l : List α} {used : Option ℕ}

/-- There is room for an item: nothing was taken so far, or it fits beside what was. -/
def room (budget : ℕ) (size : α → ℕ) (used : Option ℕ) (x : α) : Bool :=
  used.all fun total => decide (total + size x ≤ budget)

/-- What is used when an item has come. -/
def use (budget : ℕ) (size : α → ℕ) (used : Option ℕ) (x : α) : Option ℕ :=
  if room budget size used x then some (used.getD 0 + size x) else used

/-- What is used when the items of a list have come. -/
def after (budget : ℕ) (size : α → ℕ) (used : Option ℕ) (l : List α) : Option ℕ :=
  l.foldl (use budget size) used

/-- The items that are taken. -/
def pack (budget : ℕ) (size : α → ℕ) : Option ℕ → List α → List α
  | _, [] => []
  | used, x :: l =>
    if room budget size used x then x :: pack budget size (use budget size used x) l
    else pack budget size (use budget size used x) l

/-- **An item is taken exactly when there is room for it as it comes.** -/
theorem mem_pack_iff : x ∈ pack budget size used l ↔ ∃ front back, l = front ++ x :: back ∧
    room budget size (after budget size used front) x = true := by
  induction l generalizing used with
  | nil => simp [pack]
  | cons y l ih =>
    have hcons : (∃ front back, y :: l = front ++ x :: back ∧
        room budget size (after budget size used front) x = true) ↔
        (x = y ∧ room budget size used y = true) ∨ x ∈ pack budget size (use budget size used y) l := by
      rw [ih]
      constructor
      · rintro ⟨front, back, hsplit, hroom⟩
        cases front with
        | nil =>
          obtain ⟨rfl, rfl⟩ := List.cons.inj hsplit
          exact Or.inl ⟨rfl, hroom⟩
        | cons z front =>
          obtain ⟨rfl, rfl⟩ := List.cons.inj hsplit
          exact Or.inr ⟨front, back, rfl, hroom⟩
      · rintro (⟨rfl, hroom⟩ | ⟨front, back, rfl, hroom⟩)
        · exact ⟨[], l, rfl, hroom⟩
        · exact ⟨y :: front, back, rfl, hroom⟩
    rw [hcons, pack]
    by_cases hroom : room budget size used y = true
    · rw [if_pos hroom, List.mem_cons]
      simp [hroom]
    · rw [if_neg hroom]
      simp [hroom]

theorem after_le (used : Option ℕ) (l : List α) :
    (after budget size used l).getD 0 ≤ used.getD 0 + (l.map size).sum := by
  induction l generalizing used with
  | nil => simp [after]
  | cons x l ih =>
    have hstep : (use budget size used x).getD 0 ≤ used.getD 0 + size x := by
      rw [use]
      split
      · simp
      · omega
    have hrest := ih (use budget size used x)
    rw [List.map_cons, List.sum_cons]
    exact hrest.trans (by omega)

/-- **What fits beside everything before it has room.** -/
theorem room_of_sum_le {front : List α} (h : (front.map size).sum + size x ≤ budget) :
    room budget size (after budget size none front) x = true := by
  have hle := @after_le α budget size none front
  rw [room, Option.all_eq_true]
  intro total htotal
  rw [htotal] at hle
  simp only [Option.getD_some, Option.getD_none, Nat.zero_add] at hle
  exact decide_eq_true (by omega)

end Packing
