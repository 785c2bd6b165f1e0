import Mathlib.Algebra.Order.BigOperators.Group.List
import Mathlib.Data.List.Nodup

/-!
# Relational tables

A table is a list of rows in the order of their insertion, together with the
constraints its schema declares: a primary key, one further unique key and a
row check.  The constraints are fields of the structure, so a table that breaks
one of them cannot be built, and a write either respects all three or yields no
table at all.  A table without a second unique key repeats its primary key.

## Main definitions

* `setWhere p f l`, `sumWhere p f l` — `UPDATE … SET … WHERE` and
  `SELECT SUM(…) … WHERE` on a list of rows.
* `Persist f l l'` — rows that are still there.
* `Table.Every` — a condition that every row meets.
* `Table pk uk check` — rows under a schema.
* `Table.find?`, `Table.findBy?` — the row with a given primary or unique key.
* `Table.insert?`, `Table.insertOrIgnore`, `Table.update`, `Table.update?`,
  `Table.upsert`, `Table.replace`, `Table.delete` — the writes.

## Main results

* `sumWhere_setWhere` — a keyed update moves a sum by its row's contributions.
* `Table.eq_of_pk`, `Table.eq_of_uk` — a key has one row.
* `Table.find?_eq_some`, `Table.findBy?_eq_some` — a lookup is membership.
* `Table.find?_insert`, `Table.find?_update` — lookups after a write.
* `Table.modify?_key` — when the update of one row by its key succeeds.
-/

namespace Relational

variable {α κ υ M : Type*}

/-! ### Rows -/

/-- The rows after `UPDATE … SET f WHERE p`. -/
def setWhere (p : α → Bool) (f : α → α) (l : List α) : List α :=
  l.map fun r => if p r then f r else r

/-- `SELECT SUM(f) … WHERE p`, zero over no rows. -/
def sumWhere [AddMonoid M] (p : α → Bool) (f : α → M) (l : List α) : M :=
  ((l.filter p).map f).sum

@[simp] theorem setWhere_nil (p : α → Bool) (f : α → α) : setWhere p f [] = [] := rfl

@[simp] theorem setWhere_cons (p : α → Bool) (f : α → α) (r : α) (l : List α) :
    setWhere p f (r :: l) = (if p r then f r else r) :: setWhere p f l := rfl

theorem setWhere_append (p : α → Bool) (f : α → α) (l l' : List α) :
    setWhere p f (l ++ l') = setWhere p f l ++ setWhere p f l' := List.map_append

theorem mem_setWhere {p : α → Bool} {f : α → α} {l : List α} {x : α} :
    x ∈ setWhere p f l ↔ ∃ r ∈ l, (if p r then f r else r) = x := List.mem_map

/-- An update that matches no row changes nothing. -/
theorem setWhere_eq_self {p : α → Bool} {f : α → α} {l : List α}
    (h : ∀ r ∈ l, p r = false) : setWhere p f l = l := by
  refine (List.map_congr_left ?_).trans (List.map_id l)
  intro r hr
  simp [h r hr]

/-- The first row an update matches is the first it matched before. -/
theorem find?_setWhere {p : α → Bool} {f : α → α} (hf : ∀ r, p (f r) = p r) (l : List α) :
    (setWhere p f l).find? p = (l.find? p).map f := by
  induction l with
  | nil => rfl
  | cons r l ih =>
    change ((if p r then f r else r) :: setWhere p f l).find? p = _
    cases hr : p r with
    | true => simp [hr, hf]
    | false => simp [hr, ih]

/-- A column the assignment keeps is the same list of values afterwards. -/
theorem map_setWhere {p : α → Bool} {f : α → α} {g : α → κ} (hf : ∀ r, g (f r) = g r)
    (l : List α) : (setWhere p f l).map g = l.map g := by
  rw [setWhere, List.map_map]
  apply List.map_congr_left
  intro r _
  by_cases hp : p r <;> simp [hp, hf]

/-! ### Rows that stay -/

/-- Every row is still there, up to the columns that `f` leaves out. -/
def Persist {β : Type*} (f : α → β) (l l' : List α) : Prop := ∀ ⦃r⦄, r ∈ l → ∃ r' ∈ l', f r' = f r

section Persist

variable {β : Type*} {f : α → β} {l l' l'' : List α}

theorem persist_refl (l : List α) : Persist f l l := fun r hr => ⟨r, hr, rfl⟩

theorem Persist.trans (h : Persist f l l') (h' : Persist f l' l'') : Persist f l l'' := by
  intro r hr
  obtain ⟨r', hr', heq⟩ := h hr
  obtain ⟨r'', hr'', heq'⟩ := h' hr'
  exact ⟨r'', hr'', heq'.trans heq⟩

theorem persist_append (l l' : List α) : Persist f l (l ++ l') := fun r hr =>
  ⟨r, List.mem_append_left _ hr, rfl⟩

theorem persist_setWhere {p : α → Bool} {g : α → α} (hg : ∀ r, f (g r) = f r) (l : List α) :
    Persist f l (setWhere p g l) := by
  intro r hr
  refine ⟨_, mem_setWhere.mpr ⟨r, hr, rfl⟩, ?_⟩
  split
  · exact hg r
  · rfl

end Persist

section SumWhere

variable [AddCommMonoid M]

@[simp] theorem sumWhere_nil (p : α → Bool) (f : α → M) : sumWhere p f [] = 0 := rfl

@[simp] theorem sumWhere_cons (p : α → Bool) (f : α → M) (r : α) (l : List α) :
    sumWhere p f (r :: l) = (if p r then f r else 0) + sumWhere p f l := by
  by_cases hp : p r <;> simp [sumWhere, hp]

theorem sumWhere_append (p : α → Bool) (f : α → M) (l l' : List α) :
    sumWhere p f (l ++ l') = sumWhere p f l + sumWhere p f l' := by
  simp [sumWhere]

theorem sumWhere_concat (p : α → Bool) (f : α → M) (l : List α) (r : α) :
    sumWhere p f (l ++ [r]) = sumWhere p f l + if p r then f r else 0 := by
  simp [sumWhere_append]

/-- **A keyed update moves a sum by its row's contributions**: what the row
added before is taken away, what the updated row adds is put in. -/
theorem sumWhere_setWhere [DecidableEq κ] {pk : α → κ} {g : α → α} (p : α → Bool)
    (f : α → M) : ∀ {l : List α} {r : α}, (l.map pk).Nodup → r ∈ l →
      sumWhere p f (setWhere (fun x => decide (pk x = pk r)) g l) + (if p r then f r else 0)
        = sumWhere p f l + if p (g r) then f (g r) else 0 := by
  intro l
  induction l with
  | nil => intro r _ hr; simp at hr
  | cons x l ih =>
    intro r hnd hr
    rw [List.map_cons, List.nodup_cons] at hnd
    rcases List.mem_cons.mp hr with rfl | hr
    · -- the row itself: no later row carries its key
      have hrest : setWhere (fun x => decide (pk x = pk r)) g l = l := by
        apply setWhere_eq_self
        intro y hy
        have hne : pk y ≠ pk r := fun h => hnd.1 (h ▸ List.mem_map_of_mem hy)
        simp [hne]
      simp only [setWhere_cons, decide_true, if_true, hrest, sumWhere_cons]
      ac_rfl
    · have hne : pk x ≠ pk r := fun h => hnd.1 (h ▸ List.mem_map_of_mem hr)
      have hih := ih hnd.2 hr
      simp only [setWhere_cons, hne, decide_false, Bool.false_eq_true, if_false, sumWhere_cons,
        add_assoc, hih]

end SumWhere

section Order

variable [AddCommMonoid M] [PartialOrder M] [IsOrderedAddMonoid M]

theorem sumWhere_nonneg {p : α → Bool} {f : α → M} {l : List α}
    (h : ∀ r ∈ l, p r = true → 0 ≤ f r) : 0 ≤ sumWhere p f l := by
  apply List.sum_nonneg
  intro x hx
  obtain ⟨r, hr, rfl⟩ := List.mem_map.mp hx
  exact h r (List.mem_of_mem_filter hr) (List.of_mem_filter hr)

/-- One row of a sum of non-negative terms is at most the sum. -/
theorem le_sumWhere {p : α → Bool} {f : α → M} {l : List α}
    (h : ∀ r ∈ l, p r = true → 0 ≤ f r) {r : α} (hr : r ∈ l) (hp : p r = true) :
    f r ≤ sumWhere p f l := by
  refine List.single_le_sum (fun x hx => ?_) _ (List.mem_map_of_mem (List.mem_filter.mpr ⟨hr, hp⟩))
  obtain ⟨y, hy, rfl⟩ := List.mem_map.mp hx
  exact h y (List.mem_of_mem_filter hy) (List.of_mem_filter hy)

end Order

/-! ### Tables -/

/-- Rows under a schema: `pk` is the primary key, `uk` a further unique key and
`check` the row check. -/
@[ext] structure Table (pk : α → κ) (uk : α → υ) (check : α → Bool) where
  /-- The rows, oldest first. -/
  rows : List α
  /-- `PRIMARY KEY`. -/
  pk_nodup : (rows.map pk).Nodup
  /-- `UNIQUE`. -/
  uk_nodup : (rows.map uk).Nodup
  /-- `CHECK`. -/
  checked : ∀ r ∈ rows, check r = true

/-- An assignment to columns outside both keys that respects the row check. -/
structure Keeps (pk : α → κ) (uk : α → υ) (check : α → Bool) (f : α → α) : Prop where
  pk_eq : ∀ r, pk (f r) = pk r
  uk_eq : ∀ r, uk (f r) = uk r
  check_of : ∀ r, check r = true → check (f r) = true

namespace Table

variable {pk : α → κ} {uk : α → υ} {check : α → Bool}

instance : Inhabited (Table pk uk check) := ⟨⟨[], by simp, by simp, by simp⟩⟩

/-- The table `CREATE TABLE` makes. -/
def empty : Table pk uk check := default

@[simp] theorem rows_empty : (empty : Table pk uk check).rows = [] := rfl

instance [DecidableEq α] : DecidableEq (Table pk uk check) := fun s t =>
  decidable_of_iff (s.rows = t.rows) Table.ext_iff.symm

/-- The row with primary key `k`. -/
def find? [DecidableEq κ] (t : Table pk uk check) (k : κ) : Option α :=
  t.rows.find? fun r => decide (pk r = k)

/-- The row with unique key `u`. -/
def findBy? [DecidableEq υ] (t : Table pk uk check) (u : υ) : Option α :=
  t.rows.find? fun r => decide (uk r = u)

/-- Among rows with distinct keys, looking a key up finds exactly its row. -/
private theorem find?_key_eq_some [DecidableEq κ] {g : α → κ} {r : α} {k : κ} :
    ∀ {l : List α}, (l.map g).Nodup →
      (l.find? (fun x => decide (g x = k)) = some r ↔ r ∈ l ∧ g r = k) := by
  intro l
  induction l with
  | nil => simp
  | cons x l ih =>
    intro hnd
    rw [List.map_cons, List.nodup_cons] at hnd
    by_cases hx : g x = k
    · simp only [List.find?_cons, hx, decide_true, Option.some.injEq, List.mem_cons]
      constructor
      · rintro rfl; exact ⟨Or.inl rfl, hx⟩
      · rintro ⟨rfl | hr, hk⟩
        · rfl
        · exact absurd (hx ▸ hk ▸ List.mem_map_of_mem hr) hnd.1
    · simp only [List.find?_cons, hx, decide_false, ih hnd.2, List.mem_cons]
      constructor
      · rintro ⟨hr, hk⟩; exact ⟨Or.inr hr, hk⟩
      · rintro ⟨rfl | hr, hk⟩
        · exact absurd hk hx
        · exact ⟨hr, hk⟩

variable {t t' : Table pk uk check}

/-- A table has one row of each primary key. -/
theorem eq_of_pk {r r' : α} (hr : r ∈ t.rows) (hr' : r' ∈ t.rows) (h : pk r = pk r') : r = r' :=
  List.inj_on_of_nodup_map t.pk_nodup hr hr' h

/-- A table has one row of each unique key. -/
theorem eq_of_uk {r r' : α} (hr : r ∈ t.rows) (hr' : r' ∈ t.rows) (h : uk r = uk r') : r = r' :=
  List.inj_on_of_nodup_map t.uk_nodup hr hr' h

section PrimaryKey

variable [DecidableEq κ]

theorem find?_eq_some {k : κ} {r : α} : t.find? k = some r ↔ r ∈ t.rows ∧ pk r = k :=
  find?_key_eq_some t.pk_nodup

theorem find?_eq_none {k : κ} : t.find? k = none ↔ ∀ r ∈ t.rows, pk r ≠ k := by
  simp [find?]

theorem find?_of_mem {r : α} (hr : r ∈ t.rows) : t.find? (pk r) = some r :=
  find?_eq_some.mpr ⟨hr, rfl⟩

/-- Looking a key up after an update that keeps it. -/
theorem find?_of_rows_eq_setWhere {p : α → Bool} {f : α → α} (hpk : ∀ r, pk (f r) = pk r)
    (h : t'.rows = setWhere p f t.rows) (k : κ) :
    t'.find? k = (t.find? k).map fun x => if p x then f x else x := by
  rw [find?, find?, h, setWhere, List.find?_map]
  refine congrArg _ (congrArg (List.find? · t.rows) (funext fun x => ?_))
  by_cases hp : p x <;> simp [hp, hpk]

end PrimaryKey

section UniqueKey

variable [DecidableEq υ]

theorem findBy?_eq_some {u : υ} {r : α} : t.findBy? u = some r ↔ r ∈ t.rows ∧ uk r = u :=
  find?_key_eq_some t.uk_nodup

theorem findBy?_eq_none {u : υ} : t.findBy? u = none ↔ ∀ r ∈ t.rows, uk r ≠ u := by
  simp [findBy?]

end UniqueKey

/-! ### Writes -/

/-- The number of rows a `WHERE` matches. -/
def rowcount (t : Table pk uk check) (p : α → Bool) : ℕ := t.rows.countP p

/-- `UPDATE … SET f WHERE p` for an assignment that respects the schema. -/
def update (t : Table pk uk check) (p : α → Bool) (f : α → α) (hf : Keeps pk uk check f) :
    Table pk uk check where
  rows := setWhere p f t.rows
  pk_nodup := by rw [map_setWhere hf.pk_eq]; exact t.pk_nodup
  uk_nodup := by rw [map_setWhere hf.uk_eq]; exact t.uk_nodup
  checked := by
    intro x hx
    obtain ⟨r, hr, rfl⟩ := mem_setWhere.mp hx
    by_cases hp : p r
    · simpa [hp] using hf.check_of r (t.checked r hr)
    · simpa [hp] using t.checked r hr

/-- `UPDATE … SET f WHERE p` for an assignment to columns outside both keys:
no table when a matched row fails its check. -/
def update? (t : Table pk uk check) (p : α → Bool) (f : α → α) (hpk : ∀ r, pk (f r) = pk r)
    (huk : ∀ r, uk (f r) = uk r) : Option (Table pk uk check) :=
  if h : ∀ r ∈ t.rows, p r = true → check (f r) = true then
    some
      { rows := setWhere p f t.rows
        pk_nodup := by rw [map_setWhere hpk]; exact t.pk_nodup
        uk_nodup := by rw [map_setWhere huk]; exact t.uk_nodup
        checked := by
          intro x hx
          obtain ⟨r, hr, rfl⟩ := mem_setWhere.mp hx
          by_cases hp : p r
          · simpa [hp] using h r hr hp
          · simpa [hp] using t.checked r hr }
  else none

/-- `UPDATE … SET f WHERE p` for an assignment to any columns: no table when a
constraint breaks. -/
def modify? [DecidableEq κ] [DecidableEq υ] (t : Table pk uk check) (p : α → Bool) (f : α → α) :
    Option (Table pk uk check) :=
  if h : ((setWhere p f t.rows).map pk).Nodup ∧ ((setWhere p f t.rows).map uk).Nodup ∧
      ∀ r ∈ setWhere p f t.rows, check r = true then
    some ⟨setWhere p f t.rows, h.1, h.2.1, h.2.2⟩
  else none

@[simp] theorem rows_update {p : α → Bool} {f : α → α} (hf : Keeps pk uk check f) :
    (t.update p f hf).rows = setWhere p f t.rows := rfl

theorem rows_update? {p : α → Bool} {f : α → α} {hpk : ∀ r, pk (f r) = pk r}
    {huk : ∀ r, uk (f r) = uk r} (h : t.update? p f hpk huk = some t') :
    t'.rows = setWhere p f t.rows := by
  unfold update? at h
  split at h
  · rw [← Option.some.inj h]
  · simp at h

section Keyed

variable [DecidableEq κ]

theorem find?_update {p : α → Bool} {f : α → α} (hf : Keeps pk uk check f) (k : κ) :
    (t.update p f hf).find? k = (t.find? k).map fun x => if p x then f x else x :=
  find?_of_rows_eq_setWhere hf.pk_eq rfl k

/-- A `WHERE` on the primary key and a guard matches one row exactly when the
key is there and its row meets the guard. -/
theorem rowcount_key_eq_one {k : κ} {guard : α → Bool} :
    t.rowcount (fun x => decide (pk x = k) && guard x) = 1 ↔
      ∃ r, t.find? k = some r ∧ guard r = true := by
  have hle : ∀ l : List α, (l.map pk).Nodup →
      (l.countP (fun x => decide (pk x = k) && guard x) = 1 ↔
        ∃ r, r ∈ l ∧ pk r = k ∧ guard r = true) := by
    intro l
    induction l with
    | nil => simp
    | cons x l ih =>
      intro hnd
      rw [List.map_cons, List.nodup_cons] at hnd
      by_cases hx : pk x = k
      · -- no later row carries the key, so the head decides
        have hrest : l.countP (fun x => decide (pk x = k) && guard x) = 0 := by
          apply List.countP_eq_zero.mpr
          intro y hy
          have hne : pk y ≠ k := fun h => hnd.1 (hx ▸ h ▸ List.mem_map_of_mem hy)
          simp [hne]
        rw [List.countP_cons, hrest]
        constructor
        · intro h
          refine ⟨x, List.mem_cons_self, hx, ?_⟩
          by_contra hg
          simp [hg] at h
        · rintro ⟨r, hr, hk, hg⟩
          rcases List.mem_cons.mp hr with rfl | hr
          · simp [hx, hg]
          · exact absurd (hx ▸ hk ▸ List.mem_map_of_mem hr) hnd.1
      · rw [List.countP_cons_of_neg (by simp [hx]), ih hnd.2]
        constructor
        · rintro ⟨r, hr, h⟩; exact ⟨r, List.mem_cons_of_mem _ hr, h⟩
        · rintro ⟨r, hr, hk, hg⟩
          rcases List.mem_cons.mp hr with rfl | hr
          · exact absurd hk hx
          · exact ⟨r, hr, hk, hg⟩
  rw [rowcount, hle t.rows t.pk_nodup]
  simp only [find?_eq_some, and_assoc]

/-- One row of a key takes the place of the row that has it. -/
theorem mem_setWhere_key {r x : α} (hr : ∃ y ∈ t.rows, pk y = pk r) :
    x ∈ setWhere (fun y => decide (pk y = pk r)) (fun _ => r) t.rows ↔ x = r ∨ (x ∈ t.rows ∧ pk x ≠ pk r) := by
  rw [mem_setWhere]
  constructor
  · rintro ⟨y, hy, rfl⟩
    by_cases hkey : pk y = pk r
    · exact Or.inl (if_pos (decide_eq_true hkey))
    · rw [if_neg (by simpa using hkey)]
      exact Or.inr ⟨hy, hkey⟩
  · rintro (rfl | ⟨hx, hkey⟩)
    · obtain ⟨y, hy, hkey⟩ := hr
      exact ⟨y, hy, if_pos (decide_eq_true hkey)⟩
    · exact ⟨x, hx, if_neg (by simpa using hkey)⟩

end Keyed

section Writes

variable [DecidableEq κ] [DecidableEq υ]

/-- `INSERT`: the row is appended, unless it breaks a constraint. -/
def insert? (t : Table pk uk check) (r : α) : Option (Table pk uk check) :=
  if h : check r = true ∧ pk r ∉ t.rows.map pk ∧ uk r ∉ t.rows.map uk then
    some
      { rows := t.rows ++ [r]
        pk_nodup := by
          rw [List.map_append, List.map_singleton]
          exact List.nodup_append.mpr ⟨t.pk_nodup, List.nodup_singleton _,
            fun a ha b hb => by rintro rfl; exact h.2.1 (List.mem_singleton.mp hb ▸ ha)⟩
        uk_nodup := by
          rw [List.map_append, List.map_singleton]
          exact List.nodup_append.mpr ⟨t.uk_nodup, List.nodup_singleton _,
            fun a ha b hb => by rintro rfl; exact h.2.2 (List.mem_singleton.mp hb ▸ ha)⟩
        checked := by
          intro x hx
          rcases List.mem_append.mp hx with hx | hx
          · exact t.checked x hx
          · exact List.mem_singleton.mp hx ▸ h.1 }
  else none

/-- `INSERT OR IGNORE`: the table afterwards, and whether the row went in. -/
def insertOrIgnore (t : Table pk uk check) (r : α) : Table pk uk check × Bool :=
  match t.insert? r with
  | some t' => (t', true)
  | none => (t, false)

/-- `INSERT … ON CONFLICT(pk) DO UPDATE SET f`. -/
def upsert (t : Table pk uk check) (r : α) (f : α → α) (hf : Keeps pk uk check f) :
    Table pk uk check :=
  match t.insert? r with
  | some t' => t'
  | none => t.update (fun x => decide (pk x = pk r)) f hf

variable {r : α}

/-- **The update of one row by its key** succeeds exactly when the new row fits its check and
no other row has its unique key. -/
theorem modify?_key (hr : ∃ y ∈ t.rows, pk y = pk r) :
    (t.modify? (fun y => decide (pk y = pk r)) fun _ => r).isSome = true ↔
      check r = true ∧ ∀ x ∈ t.rows, pk x ≠ pk r → uk x ≠ uk r := by
  have hpk : ((setWhere (fun y => decide (pk y = pk r)) (fun _ => r) t.rows).map pk) = t.rows.map pk := by
    rw [setWhere, List.map_map]
    refine List.map_congr_left fun y _ => ?_
    by_cases hkey : pk y = pk r
    · rw [Function.comp_apply, if_pos (decide_eq_true hkey), hkey]
    · rw [Function.comp_apply, if_neg (by simpa using hkey)]
  have hnodup : t.rows.Nodup := t.pk_nodup.of_map
  have hinj := (List.nodup_map_iff_inj_on hnodup).mp t.uk_nodup
  have hpinj := (List.nodup_map_iff_inj_on hnodup).mp t.pk_nodup
  have hsome : (t.modify? (fun y => decide (pk y = pk r)) fun _ => r).isSome = true ↔
      ((setWhere (fun y => decide (pk y = pk r)) (fun _ => r) t.rows).map uk).Nodup ∧
        ∀ x ∈ setWhere (fun y => decide (pk y = pk r)) (fun _ => r) t.rows, check x = true := by
    unfold modify?
    split
    · next h => exact iff_of_true rfl h.2
    · next h =>
      rw [hpk] at h
      exact iff_of_false (fun hsome => nomatch hsome) fun hboth => h ⟨t.pk_nodup, hboth⟩
  rw [hsome, setWhere, List.map_map, List.nodup_map_iff_inj_on hnodup]
  constructor
  · rintro ⟨huk, hcheck⟩
    refine ⟨hcheck r ((mem_setWhere_key hr).mpr (Or.inl rfl)), fun x hx hkey heq => ?_⟩
    obtain ⟨y, hy, hykey⟩ := hr
    have hxy := huk x hx y hy (by
      rw [Function.comp_apply, Function.comp_apply, if_neg (by simpa using hkey),
        if_pos (decide_eq_true hykey), heq])
    exact hkey (hxy ▸ hykey)
  · rintro ⟨hcheck, huk⟩
    constructor
    · intro x hx y hy heq
      rw [Function.comp_apply, Function.comp_apply] at heq
      by_cases hxkey : pk x = pk r <;> by_cases hykey : pk y = pk r
      · exact hpinj x hx y hy (hxkey.trans hykey.symm)
      · rw [if_pos (decide_eq_true hxkey), if_neg (by simpa using hykey)] at heq
        exact absurd heq.symm (huk y hy hykey)
      · rw [if_neg (by simpa using hxkey), if_pos (decide_eq_true hykey)] at heq
        exact absurd heq (huk x hx hxkey)
      · rw [if_neg (by simpa using hxkey), if_neg (by simpa using hykey)] at heq
        exact hinj x hx y hy heq
    · intro x hx
      rcases (mem_setWhere_key hr).mp hx with rfl | ⟨hx, -⟩
      · exact hcheck
      · exact t.checked x hx

theorem rows_modify? {p : α → Bool} {f : α → α} (h : t.modify? p f = some t') :
    t'.rows = setWhere p f t.rows := by
  unfold modify? at h
  split at h
  · rw [← Option.some.inj h]
  · cases h

/-- What a successful insert did, and what it found. -/
theorem insert?_eq_some (h : t.insert? r = some t') :
    t'.rows = t.rows ++ [r] ∧ check r = true ∧ (∀ x ∈ t.rows, pk x ≠ pk r) ∧
      ∀ x ∈ t.rows, uk x ≠ uk r := by
  unfold insert? at h
  split at h
  · next hc =>
    obtain ⟨hchk, hpk, huk⟩ := hc
    refine ⟨by rw [← Option.some.inj h], hchk, ?_, ?_⟩
    · intro x hx he
      exact hpk (he ▸ List.mem_map_of_mem hx)
    · intro x hx he
      exact huk (he ▸ List.mem_map_of_mem hx)
  · simp at h

/-- A row that breaks no constraint goes in. -/
theorem exists_insert?_eq_some (hchk : check r = true) (hpk : ∀ x ∈ t.rows, pk x ≠ pk r)
    (huk : ∀ x ∈ t.rows, uk x ≠ uk r) : ∃ t', t.insert? r = some t' := by
  have hc : check r = true ∧ pk r ∉ t.rows.map pk ∧ uk r ∉ t.rows.map uk := by
    refine ⟨hchk, ?_, ?_⟩
    · intro hm
      obtain ⟨x, hx, he⟩ := List.mem_map.mp hm
      exact hpk x hx he
    · intro hm
      obtain ⟨x, hx, he⟩ := List.mem_map.mp hm
      exact huk x hx he
  exact ⟨_, dif_pos hc⟩

theorem find?_insert (h : t.insert? r = some t') (k : κ) :
    t'.find? k = if pk r = k then some r else t.find? k := by
  obtain ⟨hrows, -, hpk, -⟩ := insert?_eq_some h
  by_cases hk : pk r = k
  · rw [if_pos hk, find?_eq_some, hrows]
    exact ⟨List.mem_append_right _ List.mem_cons_self, hk⟩
  · simp [find?, hrows, List.find?_append, hk]

theorem findBy?_insert (h : t.insert? r = some t') (u : υ) :
    t'.findBy? u = if uk r = u then some r else t.findBy? u := by
  obtain ⟨hrows, -, -, huk⟩ := insert?_eq_some h
  by_cases hu : uk r = u
  · rw [if_pos hu, findBy?_eq_some, hrows]
    exact ⟨List.mem_append_right _ List.mem_cons_self, hu⟩
  · simp [findBy?, hrows, List.find?_append, hu]

/-- `INSERT OR IGNORE` fills a key that is free. -/
theorem find?_insertOrIgnore (hchk : check r = true)
    (huk : ∀ x ∈ t.rows, uk x = uk r → pk x = pk r) (k : κ) :
    (t.insertOrIgnore r).1.find? k = (t.find? k).or (if pk r = k then some r else none) := by
  unfold insertOrIgnore
  cases hi : t.insert? r with
  | some t' =>
    simp only [find?_insert hi]
    by_cases hk : pk r = k
    · have hnone : t.find? k = none := find?_eq_none.mpr (hk ▸ (insert?_eq_some hi).2.2.1)
      simp [hk, hnone]
    · simp [hk]
  | none =>
    by_cases hk : pk r = k
    · -- a refused row's key is taken
      cases hf : t.find? k with
      | some x => simp
      | none =>
        have hpk := find?_eq_none.mp hf
        obtain ⟨t', ht'⟩ := exists_insert?_eq_some (t := t) (r := r) hchk (hk ▸ hpk)
          fun x hx he => hpk x hx (hk ▸ huk x hx he)
        rw [ht'] at hi
        cases hi
    · simp [hk]

/-- An upsert leaves its row at its key, or the row that was there updated. -/
theorem find?_upsert {f : α → α} (hf : Keeps pk uk check f) (hchk : check r = true)
    (huk : ∀ x ∈ t.rows, uk x = uk r → pk x = pk r) (k : κ) :
    (t.upsert r f hf).find? k
      = if pk r = k then some (((t.find? k).map f).getD r) else t.find? k := by
  cases hk : t.find? (pk r) with
  | none =>
    have hpk := find?_eq_none.mp hk
    obtain ⟨t', ht'⟩ := exists_insert?_eq_some (t := t) hchk hpk
      fun x hx he => hpk x hx (huk x hx he)
    by_cases hkr : pk r = k
    · subst hkr
      simp [upsert, ht', find?_insert ht', hk]
    · simp [upsert, ht', find?_insert ht', hkr]
  | some x =>
    obtain ⟨hx, hxk⟩ := find?_eq_some.mp hk
    have hno : t.insert? r = none := by
      cases hi : t.insert? r with
      | none => rfl
      | some t' => exact absurd hxk ((insert?_eq_some hi).2.2.1 x hx)
    simp only [upsert, hno, find?_update]
    by_cases hkr : pk r = k
    · subst hkr
      simp [hk, hxk]
    · cases hy : t.find? k with
      | none => simp [hkr]
      | some y =>
        have hyk := (find?_eq_some.mp hy).2
        simp [hyk, hkr, Ne.symm hkr]

end Writes

/-- `DELETE … WHERE p`. -/
def delete (t : Table pk uk check) (p : α → Bool) : Table pk uk check where
  rows := t.rows.filter fun x => !p x
  pk_nodup := t.pk_nodup.sublist (List.filter_sublist.map pk)
  uk_nodup := t.uk_nodup.sublist (List.filter_sublist.map uk)
  checked := fun x hx => t.checked x (List.mem_of_mem_filter hx)

theorem mem_delete {p : α → Bool} {x : α} : x ∈ (t.delete p).rows ↔ x ∈ t.rows ∧ p x = false := by
  simp [delete]

section Replace

variable [DecidableEq κ] [DecidableEq υ]

/-- `INSERT OR REPLACE`: the rows that hold one of the new row's keys go. -/
def replace (t : Table pk uk check) (r : α) (hchk : check r = true) : Table pk uk check where
  rows := t.rows.filter (fun x => decide (pk x ≠ pk r ∧ uk x ≠ uk r)) ++ [r]
  pk_nodup := by
    rw [List.map_append, List.map_singleton]
    refine List.nodup_append.mpr ⟨t.pk_nodup.sublist (List.filter_sublist.map pk),
      List.nodup_singleton _, ?_⟩
    intro a ha b hb hab
    obtain ⟨x, hx, rfl⟩ := List.mem_map.mp ha
    have hne := of_decide_eq_true (List.mem_filter.mp hx).2
    exact hne.1 (hab.trans (List.mem_singleton.mp hb))
  uk_nodup := by
    rw [List.map_append, List.map_singleton]
    refine List.nodup_append.mpr ⟨t.uk_nodup.sublist (List.filter_sublist.map uk),
      List.nodup_singleton _, ?_⟩
    intro a ha b hb hab
    obtain ⟨x, hx, rfl⟩ := List.mem_map.mp ha
    have hne := of_decide_eq_true (List.mem_filter.mp hx).2
    exact hne.2 (hab.trans (List.mem_singleton.mp hb))
  checked := by
    intro x hx
    rcases List.mem_append.mp hx with hx | hx
    · exact t.checked x (List.mem_of_mem_filter hx)
    · rw [List.mem_singleton.mp hx]
      exact hchk

theorem mem_replace {r x : α} {hchk : check r = true} :
    x ∈ (t.replace r hchk).rows ↔ (x ∈ t.rows ∧ pk x ≠ pk r ∧ uk x ≠ uk r) ∨ x = r := by
  simp [replace, List.mem_append]

/-- Of two replacements at one key the second counts. -/
theorem replace_replace {r r' : α} {hchk : check r = true} {hchk' : check r' = true}
    (hpk : pk r = pk r') (huk : uk r = uk r') : (t.replace r hchk).replace r' hchk' = t.replace r' hchk' := by
  apply Table.ext
  simp only [replace, List.filter_append, List.filter_filter, hpk, huk, Bool.and_self]
  simp [hpk]

/-- A replaced row is at its key; the others stay. -/
theorem find?_replace {r : α} {hchk : check r = true}
    (huk : ∀ x ∈ t.rows, uk x = uk r → pk x = pk r) (k : κ) :
    (t.replace r hchk).find? k = if pk r = k then some r else t.find? k := by
  by_cases hk : pk r = k
  · rw [if_pos hk]
    exact find?_eq_some.mpr ⟨mem_replace.mpr (Or.inr rfl), hk⟩
  · rw [if_neg hk]
    cases hf : t.find? k with
    | none =>
      have hnone := find?_eq_none.mp hf
      apply find?_eq_none.mpr
      intro x hx
      rcases mem_replace.mp hx with ⟨hx, -⟩ | rfl
      · exact hnone x hx
      · exact hk
    | some x =>
      obtain ⟨hx, hxk⟩ := find?_eq_some.mp hf
      have hne : pk x ≠ pk r := fun h => hk (h.symm.trans hxk)
      exact find?_eq_some.mpr ⟨mem_replace.mpr (Or.inl ⟨hx, hne, fun h => hne (huk x hx h)⟩), hxk⟩

end Replace

/-! ### What every row meets -/

/-- Every row meets a condition. -/
def Every (t : Table pk uk check) (Q : α → Prop) : Prop := ∀ r ∈ t.rows, Q r

section Every

variable {Q : α → Prop}

theorem Every.update {p : α → Bool} {f : α → α} (h : t.Every Q) (hf : Keeps pk uk check f)
    (hQ : ∀ r, p r = true → Q r → Q (f r)) : (t.update p f hf).Every Q := by
  intro r hr
  obtain ⟨x, hx, rfl⟩ := mem_setWhere.mp hr
  split
  · next hp => exact hQ x hp (h x hx)
  · exact h x hx

theorem Every.delete (h : t.Every Q) (p : α → Bool) : (t.delete p).Every Q :=
  fun r hr => h r (mem_delete.mp hr).1

variable [DecidableEq κ] [DecidableEq υ] {r : α}

theorem Every.insert (h : t.Every Q) (hins : t.insert? r = some t') (hr : Q r) : t'.Every Q := by
  intro x hx
  rw [(insert?_eq_some hins).1] at hx
  rcases List.mem_append.mp hx with hx | hx
  · exact h x hx
  · exact List.mem_singleton.mp hx ▸ hr

theorem Every.replace (h : t.Every Q) (hchk : check r = true) (hr : Q r) :
    (t.replace r hchk).Every Q := by
  intro x hx
  rcases mem_replace.mp hx with ⟨hx, -⟩ | rfl
  · exact h x hx
  · exact hr

theorem Every.upsert {f : α → α} (h : t.Every Q) (hf : Keeps pk uk check f) (hr : Q r)
    (hQ : ∀ x, Q x → Q (f x)) : (t.upsert r f hf).Every Q := by
  unfold Table.upsert
  split
  · next hins => exact h.insert hins hr
  · exact h.update hf fun x _ => hQ x

end Every

end Table

end Relational
