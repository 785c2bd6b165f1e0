import AiSaas.Lib.Tables

/-!
# Rows and their owners

Every row of a table has an owner.  A write in the name of one owner leaves the rows of the
others as they were, in their order, where the rows that it changes or replaces are that
owner's own.

## Main definitions

* `share` — the rows of one owner.

## Main results

* `Table.share_insert`, `Table.share_update`, `Table.share_delete`, `Table.share_replace`,
  `Table.share_upsert` — what a write leaves alone.
* `Table.mem_replace_of_own` — the others get nothing new.
* `persist_insert`, `persist_replace` — an insert leaves every row, a replacement a row at
  every key.
-/

namespace Relational

variable {α κ υ ω : Type*} [DecidableEq ω] {own : α → ω} {a : ω} {l : List α} {r : α}
  {p : α → Bool} {f : α → α}

/-- The rows of one owner. -/
def share (own : α → ω) (a : ω) (l : List α) : List α := l.filter fun r => decide (own r = a)

theorem mem_share : r ∈ share own a l ↔ r ∈ l ∧ own r = a := by simp [share]

@[simp] theorem share_append (l l' : List α) :
    share own a (l ++ l') = share own a l ++ share own a l' := List.filter_append ..

/-- The rows of others do not count. -/
theorem share_eq_nil (h : ∀ r ∈ l, own r ≠ a) : share own a l = [] := by
  apply List.filter_eq_nil_iff.mpr
  intro r hr hown
  exact h r hr (of_decide_eq_true hown)

theorem share_concat (hr : own r ≠ a) : share own a (l ++ [r]) = share own a l := by
  have hnil : share own a [r] = [] := share_eq_nil fun x hx => List.mem_singleton.mp hx ▸ hr
  rw [share_append, hnil, List.append_nil]

/-- An update of rows of others. -/
theorem share_setWhere (hf : ∀ r, own (f r) = own r) (hp : ∀ r ∈ l, p r = true → own r ≠ a) :
    share own a (setWhere p f l) = share own a l := by
  induction l with
  | nil => rfl
  | cons x l ih =>
    have hrest := ih fun r hr => hp r (List.mem_cons_of_mem _ hr)
    rw [setWhere_cons]
    unfold share at hrest ⊢
    by_cases hx : p x = true
    · have hne : own x ≠ a := hp x List.mem_cons_self hx
      simp [hx, hf, hne, hrest]
    · simp [hx, List.filter_cons, hrest]

/-- A selection that drops rows of others only. -/
theorem share_filter (h : ∀ r ∈ l, own r = a → p r = true) :
    share own a (l.filter p) = share own a l := by
  unfold share
  rw [List.filter_filter]
  apply List.filter_congr
  intro r hr
  by_cases hown : own r = a
  · simp [hown, h r hr hown]
  · simp [hown]

namespace Table

variable {pk : α → κ} {uk : α → υ} {check : α → Bool} {t t' : Table pk uk check}

theorem share_update (hf : Keeps pk uk check f) (hown : ∀ r, own (f r) = own r)
    (hp : ∀ r ∈ t.rows, p r = true → own r ≠ a) :
    share own a (t.update p f hf).rows = share own a t.rows := share_setWhere hown hp

theorem share_delete (hp : ∀ r ∈ t.rows, p r = true → own r ≠ a) :
    share own a (t.delete p).rows = share own a t.rows := by
  refine share_filter fun r hr hown => ?_
  cases hpr : p r with
  | true => exact absurd hown (hp r hr hpr)
  | false => rfl

variable [DecidableEq κ] [DecidableEq υ]

theorem share_insert (h : t.insert? r = some t') (hr : own r ≠ a) :
    share own a t'.rows = share own a t.rows := by
  rw [(insert?_eq_some h).1]
  exact share_concat hr

/-- A replacement of a row of another owner, if any. -/
theorem share_replace (hchk : check r = true) (hr : own r ≠ a)
    (hold : ∀ x ∈ t.rows, own x = a → pk x ≠ pk r ∧ uk x ≠ uk r) :
    share own a (t.replace r hchk).rows = share own a t.rows := by
  refine (share_concat hr).trans (share_filter fun x hx hown => ?_)
  exact decide_eq_true (hold x hx hown)

theorem share_upsert (hf : Keeps pk uk check f) (hr : own r ≠ a) (hown : ∀ x, own (f x) = own x)
    (hold : ∀ x ∈ t.rows, pk x = pk r → own x ≠ a) :
    share own a (t.upsert r f hf).rows = share own a t.rows := by
  unfold upsert
  split
  · next hins => exact share_insert hins hr
  · exact share_update hf hown fun x hx hkey => hold x hx (of_decide_eq_true hkey)

omit [DecidableEq ω] in
/-- A replacement whatever it replaces: the other owners get nothing new. -/
theorem mem_replace_of_own (hchk : check r = true) (hr : own r ≠ a) {x : α}
    (hx : x ∈ (t.replace r hchk).rows) (hown : own x = a) : x ∈ t.rows := by
  rcases mem_replace.mp hx with ⟨hx, -⟩ | rfl
  · exact hx
  · exact absurd hown hr

end Table

section Persist

variable {β : Type*} [DecidableEq κ] {pk : α → κ} {check : α → Bool}

/-- An insert leaves every row. -/
theorem mem_insert_of_mem [DecidableEq υ] {uk : α → υ} {t t' : Table pk uk check}
    (h : t.insert? r = some t') {x : α} (hx : x ∈ t.rows) : x ∈ t'.rows := by
  rw [(Table.insert?_eq_some h).1]
  exact List.mem_append_left _ hx

theorem persist_insert [DecidableEq υ] {uk : α → υ} {t t' : Table pk uk check}
    (h : t.insert? r = some t') (g : α → β) : Persist g t.rows t'.rows :=
  fun x hx => ⟨x, mem_insert_of_mem h hx, rfl⟩

/-- A replacement leaves a row at every key. -/
theorem persist_replace (t : Table pk pk check) (r : α) (hchk : check r = true) :
    Persist pk t.rows (t.replace r hchk).rows := by
  intro x hx
  by_cases hkey : pk x = pk r
  · exact ⟨r, Table.mem_replace.mpr (Or.inr rfl), hkey.symm⟩
  · exact ⟨x, Table.mem_replace.mpr (Or.inl ⟨hx, hkey, hkey⟩), rfl⟩

end Persist

end Relational
