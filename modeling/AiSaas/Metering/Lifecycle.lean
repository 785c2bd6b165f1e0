import AiSaas.LocalRuntime

/-!
# The life of a reservation

A reservation is held until it is committed or released, and then stays as it
is.  What it was charged stands in `run_credit_ledger`: one row for a committed
reservation, none for another.  Every call leaves a record of its key, and the
record is what a repeated call finds.

## Main definitions

* `entriesOf` — the ledger rows of a reservation.
* `Later` — what holds between a state of the ledger and a later one.
* `Settled` — rows and statuses agree.
* `Done`, `Conflicts` — the record of a call is there; a call reuses its key for
  something else.

## Main results

* `later_step`, `settled_step` — what one call preserves.
* `perform_of_done`, `perform_of_conflicts` — a repeated call changes nothing,
  one that reuses a key raises.
* `reservation_lifecycle` — all of it, for every run.
-/

namespace AiSaas

open Relational Transaction

namespace CreditLedger

/-- The rows of `run_credit_ledger` with a reservation's id. -/
def entriesOf (db : Database) (reservationId : String) : List RunLedgerRow :=
  db.runLedger.rows.filter fun e => decide (e.reservationId = reservationId)

/-- A status stays, or a held reservation is closed. -/
def Moves (s s' : ReservationStatus) : Prop :=
  s' = s ∨ s = .reserved ∧ (s' = .committed ∨ s' = .released)

/-- Reservations only move through their statuses; ledger rows and adjustments
are never changed or taken back. -/
structure Later (db db' : Database) : Prop where
  reservations : ∀ id row, db.reservations.find? id = some row →
    ∃ row', db'.reservations.find? id = some row' ∧ Moves row.status row'.status ∧
      row'.toCreditReservation = { row.toCreditReservation with status := row'.status }
  runLedger : db.runLedger.rows <+: db'.runLedger.rows
  adjustments : db.adjustments.rows <+: db'.adjustments.rows

/-- The rows that charge a reservation: one for at most its units when it is
committed, none otherwise. -/
def Charges (row : ReservationRow) (entries : List RunLedgerRow) : Prop :=
  (row.status = .committed → ∃ e, entries = [e] ∧ 0 ≤ -e.amount ∧ -e.amount ≤ row.units) ∧
    (row.status ≠ .committed → entries = [])

/-- Every reservation is charged by its rows, and every row charges a reservation. -/
structure Settled (db : Database) : Prop where
  charges : ∀ id row, db.reservations.find? id = some row → Charges row (entriesOf db id)
  known : ∀ e ∈ db.runLedger.rows, ∃ row, db.reservations.find? e.reservationId = some row

variable {env : Env} {db db' db'' : Database} {call call' : Call} {id now : String}

/-! ### What one call preserves -/

theorem Moves.trans {s s' s'' : ReservationStatus} (h : Moves s s') (h' : Moves s' s'') :
    Moves s s'' := by
  rcases h with rfl | ⟨rfl, rfl | rfl⟩
  · exact h'
  · rcases h' with rfl | ⟨h', -⟩
    · exact Or.inr ⟨rfl, Or.inl rfl⟩
    · cases h'
  · rcases h' with rfl | ⟨h', -⟩
    · exact Or.inr ⟨rfl, Or.inr rfl⟩
    · cases h'

theorem Later.refl (db : Database) : Later db db :=
  ⟨fun _ row h => ⟨row, h, Or.inl rfl, rfl⟩, List.prefix_rfl, List.prefix_rfl⟩

theorem Later.trans (h : Later db db') (h' : Later db' db'') : Later db db'' where
  reservations id row hrow := by
    obtain ⟨row', hrow', hmove, hsame⟩ := h.reservations id row hrow
    obtain ⟨row'', hrow'', hmove', hsame'⟩ := h'.reservations id row' hrow'
    exact ⟨row'', hrow'', hmove.trans hmove', by rw [hsame', hsame]⟩
  runLedger := h.runLedger.trans h'.runLedger
  adjustments := h.adjustments.trans h'.adjustments

theorem find?_setStatus {status : ReservationStatus} (x : String) :
    (setStatus id status now db).reservations.find? x
      = (db.reservations.find? x).map fun r =>
          if x = id then { r with status := status, updatedAt := now } else r := by
  unfold setStatus
  rw [Table.find?_update]
  cases hx : db.reservations.find? x with
  | none => rfl
  | some row => simp [(Table.find?_eq_some.mp hx).2]

/-- Closing a held reservation moves it and no other. -/
theorem later_setStatus {row : ReservationRow} {status : ReservationStatus}
    (hrow : db.reservations.find? id = some row) (hs : row.status = .reserved)
    (hstatus : status = .committed ∨ status = .released) :
    Later db (setStatus id status now db) where
  reservations x other hother := by
    rw [find?_setStatus, hother]
    by_cases hx : x = id
    · subst hx
      obtain rfl := Option.some.inj (hrow.symm.trans hother)
      exact ⟨_, rfl, Or.inr ⟨hs, by simpa using hstatus⟩, by simp⟩
    · exact ⟨other, by simp [hx], Or.inl rfl, rfl⟩
  runLedger := List.prefix_rfl
  adjustments := List.prefix_rfl

/-- **A write only adds records and closes held reservations.** -/
theorem Writes.later (h : Writes env db call db') : Later db db' := by
  cases h with
  | @reserve t a r u k account reservations _ _ _ _ insert =>
    refine ⟨?_, List.prefix_rfl, List.prefix_rfl⟩
    intro id row hrow
    -- the id of the new row is no old one, so every old lookup survives
    have hid : (newReservation env t a r u k).reservationId ≠ id := by
      intro he
      obtain ⟨hmem, hpk⟩ := Table.find?_eq_some.mp hrow
      exact (Table.insert?_eq_some insert).2.2.1 row hmem (hpk.trans he.symm)
    have hrow' : reservations.find? id = some row := by
      rw [Table.find?_insert insert, if_neg hid]
      exact hrow
    exact ⟨row, hrow', Or.inl rfl, rfl⟩
  | release found reserved => exact later_setStatus found reserved (Or.inr rfl)
  | @commit id used k row db₁ runLedger _ found reserved _ _ debit insert =>
    obtain ⟨account, creditAccounts, -, -, rfl, -⟩ := Database.updateBalance_eq_ok debit
    -- debit and ledger row first, then the status
    have hbefore : Later db { db with creditAccounts, runLedger } := by
      refine ⟨?_, ⟨_, (Table.insert?_eq_some insert).1.symm⟩, List.prefix_rfl⟩
      intro id row hrow
      exact ⟨row, hrow, Or.inl rfl, rfl⟩
    exact hbefore.trans (later_setStatus found reserved (Or.inl rfl))
  | @adjust a amount k reason db₁ adjustments _ _ move insert =>
    obtain ⟨account, creditAccounts, -, -, rfl, -⟩ := Database.updateBalance_eq_ok move
    refine ⟨?_, List.prefix_rfl, ⟨_, (Table.insert?_eq_some insert).1.symm⟩⟩
    intro id row hrow
    exact ⟨row, hrow, Or.inl rfl, rfl⟩

theorem later_step (db : Database) (call : Env × Call) : Later db (step db call) := by
  rcases step_cases call.1 call.2 db with hsame | hwrites
  · rw [show step db call = db from hsame]
    exact Later.refl db
  · exact hwrites.later

/-- A closed reservation is charged by what it is closed with. -/
theorem settled_setStatus {row : ReservationRow} {status : ReservationStatus}
    (hrow : db.reservations.find? id = some row)
    (hcharges : ∀ x other, x ≠ id → db.reservations.find? x = some other →
      Charges other (entriesOf db x))
    (hknown : ∀ e ∈ db.runLedger.rows, ∃ row, db.reservations.find? e.reservationId = some row)
    (hclosed : Charges { row with status := status } (entriesOf db id)) :
    Settled (setStatus id status now db) where
  charges x other hother := by
    rw [find?_setStatus, Option.map_eq_some_iff] at hother
    obtain ⟨before, hbefore, rfl⟩ := hother
    by_cases hx : x = id
    · subst hx
      obtain rfl := Option.some.inj (hrow.symm.trans hbefore)
      simp only [if_pos]
      exact hclosed
    · simp only [if_neg hx]
      exact hcharges x before hx hbefore
  known e he := by
    obtain ⟨before, hbefore⟩ := hknown e he
    exact ⟨_, by rw [find?_setStatus, hbefore, Option.map_some]⟩

/-- **A write keeps rows and statuses in agreement.** -/
theorem Writes.settled (h : Writes env db call db') (hs : Settled db) : Settled db' := by
  cases h with
  | @reserve t a r u k account reservations _ _ _ _ insert =>
    have hfind := fun x => Table.find?_insert insert x
    constructor
    · intro id row hrow
      have hlookup : reservations.find? id = some row := hrow
      rw [hfind id] at hlookup
      by_cases hid : (newReservation env t a r u k).reservationId = id
      · -- the id is new, so no row charges it
        rw [if_pos hid] at hlookup
        obtain rfl := Option.some.inj hlookup
        have hnone : entriesOf db id = [] := by
          apply List.filter_eq_nil_iff.mpr
          intro e he heid
          obtain ⟨row, hrow⟩ := hs.known e he
          obtain ⟨hmem, hpk⟩ := Table.find?_eq_some.mp hrow
          refine (Table.insert?_eq_some insert).2.2.1 row hmem (hpk.trans ?_)
          rw [of_decide_eq_true heid, hid]
        exact ⟨fun hcom => (by cases hcom), fun _ => hnone⟩
      · rw [if_neg hid] at hlookup
        exact hs.charges id row hlookup
    · intro e he
      obtain ⟨row, hrow⟩ := hs.known e he
      by_cases hid : (newReservation env t a r u k).reservationId = e.reservationId
      · exact ⟨_, (hfind _).trans (if_pos hid)⟩
      · exact ⟨row, (hfind _).trans ((if_neg hid).trans hrow)⟩
  | @release id k row found reserved =>
    have hbefore := hs.charges id row found
    exact settled_setStatus found (fun x other _ => hs.charges x other) hs.known
      ⟨fun hcom => (by cases hcom), fun _ => hbefore.2 (by simp [reserved])⟩
  | @commit id used k row db₁ runLedger nonneg found reserved _ within debit insert =>
    obtain ⟨account, creditAccounts, -, -, rfl, -⟩ := Database.updateBalance_eq_ok debit
    obtain ⟨hrows, -⟩ := Table.insert?_eq_some insert
    have hid := (Table.find?_eq_some.mp found).2
    have hentries : ∀ x, entriesOf { db with creditAccounts, runLedger } x
        = entriesOf db x ++ if row.reservationId = x then [newEntry env row used k] else [] := by
      intro x
      unfold entriesOf
      rw [hrows, List.filter_append]
      by_cases hx : row.reservationId = x <;> simp [newEntry, hx]
    -- a held reservation has no row yet, so the new one is its only row
    have hnone := (hs.charges id row found).2 (by simp [reserved])
    change Settled (setStatus id .committed (env.now 1) { db with creditAccounts, runLedger })
    refine settled_setStatus found ?_ ?_ ?_
    · intro x other hx hother
      rw [hentries, if_neg (hid ▸ Ne.symm hx), List.append_nil]
      exact hs.charges x other hother
    · intro e he
      rw [hrows, List.mem_append, List.mem_singleton] at he
      rcases he with he | rfl
      · exact hs.known e he
      · exact ⟨row, by rw [← found, ← hid]; rfl⟩
    · refine ⟨fun _ => ⟨newEntry env row used k, ?_, ?_, ?_⟩, fun hne => absurd rfl hne⟩
      · rw [hentries, if_pos hid, hnone, List.nil_append]
      · change 0 ≤ - -used
        omega
      · change - -used ≤ row.units
        omega
  | @adjust a amount k reason db₁ adjustments _ _ move _ =>
    obtain ⟨account, creditAccounts, -, -, rfl, -⟩ := Database.updateBalance_eq_ok move
    exact ⟨hs.charges, hs.known⟩

theorem settled_step (db : Database) (call : Env × Call) (hs : Settled db) :
    Settled (step db call) := by
  rcases step_cases call.1 call.2 db with hsame | hwrites
  · rwa [show step db call = db from hsame]
  · exact hwrites.settled hs

/-! ### New reservations -/

/-- Only `reserve` makes a reservation. -/
theorem Writes.new_reservation {x : ReservationRow} (h : Writes env db call db')
    (hnone : db.reservations.find? id = none) (hx : db'.reservations.find? id = some x) :
    ∃ t a r u k, call = .reserve t a r u k ∧ db.reservations.findBy? k = none ∧
      x = newReservation env t a r u k := by
  cases h with
  | @reserve t a r u k account reservations _ fresh _ _ insert =>
    change reservations.find? id = some x at hx
    rw [Table.find?_insert insert] at hx
    split_ifs at hx with hid
    · exact ⟨t, a, r, u, k, rfl, fresh, (Option.some.inj hx).symm⟩
    · rw [hnone] at hx
      cases hx
  | release found reserved =>
    rw [find?_setStatus, hnone] at hx
    cases hx
  | @commit id' used k row db₁ runLedger _ found reserved _ _ debit insert =>
    obtain ⟨account, creditAccounts, -, -, rfl, -⟩ := Database.updateBalance_eq_ok debit
    rw [find?_setStatus] at hx
    change (db.reservations.find? id).map _ = _ at hx
    rw [hnone] at hx
    cases hx
  | @adjust a amount k reason db₁ adjustments _ _ move insert =>
    obtain ⟨account, creditAccounts, -, -, rfl, -⟩ := Database.updateBalance_eq_ok move
    change db.reservations.find? id = some x at hx
    rw [hnone] at hx
    cases hx

/-- No reservation is without an id. -/
def Named (db : Database) : Prop := ∀ id x, db.reservations.find? id = some x → id ≠ ""

theorem named_step (db : Database) (call : Env × Call) (h : Named db) : Named (step db call) := by
  intro id x hx
  cases hbefore : db.reservations.find? id with
  | some before => exact h id before hbefore
  | none =>
    rcases step_cases call.1 call.2 db with hsame | hwrites
    · change step db call = db at hsame
      rw [hsame, hbefore] at hx
      cases hx
    · obtain ⟨t, a, r, u, k, -, -, rfl⟩ := hwrites.new_reservation hbefore hx
      obtain ⟨-, rfl⟩ := Table.find?_eq_some.mp hx
      intro hempty
      have hlength := congrArg String.length hempty
      simp [newReservation] at hlength

/-- A reservation keeps its run and its key, and is not held again. -/
theorem Later.reserved {x x' : ReservationRow} (h : Later db db')
    (hx : db.reservations.find? id = some x) (hx' : db'.reservations.find? id = some x') :
    x'.runId = x.runId ∧ x'.idempotencyKey = x.idempotencyKey ∧
      (x'.status = .reserved → x.status = .reserved) := by
  obtain ⟨y, hy, hmoves, hsame⟩ := h.reservations id x hx
  obtain rfl := Option.some.inj (hy.symm.trans hx')
  refine ⟨(congrArg CreditReservation.runId hsame :),
    (congrArg CreditReservation.idempotencyKey hsame :), ?_⟩
  intro hreserved
  rcases hmoves with hstays | ⟨hwas, -⟩
  · exact hstays.symm.trans hreserved
  · exact hwas

/-- The release of a reservation that is there goes through. -/
theorem exists_release_eq_ok {x : ReservationRow} (env : Env) (key : String)
    (hx : db.reservations.find? id = some x) :
    ∃ res db', release env id key db = .ok (res, db') := by
  by_cases hs : x.status = .reserved
  · have hstored : ∃ y, (setStatus id .released (env.now 0) db).reservations.find? id = some y := by
      rw [find?_setStatus, hx]
      exact ⟨_, rfl⟩
    obtain ⟨y, hy⟩ := hstored
    exact ⟨y.toCreditReservation, setStatus id .released (env.now 0) db,
      by simp [release, hx, hs, hy, orRaise, bind, Except.bind, pure, Except.pure]⟩
  · exact ⟨_, _, release_replay hx hs⟩

/-! ### Repeated calls -/

/-- The record a call that returned leaves behind. -/
def Done (db : Database) : Call → Prop
  | .reserve t a r u k => reserveChecks t a r u k = .ok () ∧
      ∃ row, db.reservations.findBy? k = some row ∧
        (row.tenantId, row.accountId, row.runId, row.units) = (t, a, r, u)
  | .release id _ => ∃ row, db.reservations.find? id = some row ∧ row.status ≠ .reserved
  | .commit id used k => 0 ≤ used ∧ (∃ row, db.reservations.find? id = some row) ∧
      ∃ e, db.runLedger.findBy? k = some e ∧ e.reservationId = id ∧ e.amount = -used
  | .adjust a amount k reason => adjustChecks a amount k reason = .ok () ∧
      ∃ e, db.adjustments.findBy? k = some e ∧ e.accountId = a ∧ e.amount = amount

/-- The second call reuses the key of the first for something else.  The key of
`release` is not looked at. -/
def Conflicts : Call → Call → Prop
  | .reserve t a r u k, .reserve t' a' r' u' k' => k' = k ∧ (t', a', r', u') ≠ (t, a, r, u)
  | .commit id used k, .commit id' used' k' => k' = k ∧ (id', used') ≠ (id, used)
  | .adjust a amount k _, .adjust a' amount' k' _ => k' = k ∧ (a', amount') ≠ (a, amount)
  | _, _ => False

/-- A row of a table is found by its unique key in every table that extends it. -/
private theorem findBy?_of_prefix {α κ υ : Type} [DecidableEq υ] {pk : α → κ} {uk : α → υ}
    {check : α → Bool} {t t' : Table pk uk check} (h : t.rows <+: t'.rows) {u : υ} {r : α}
    (hr : t.findBy? u = some r) : t'.findBy? u = some r := by
  obtain ⟨hmem, hu⟩ := Table.findBy?_eq_some.mp hr
  exact Table.findBy?_eq_some.mpr ⟨h.subset hmem, hu⟩

/-- **A record is never lost.** -/
theorem Later.done (h : Later db db') (hdone : Done db call) : Done db' call := by
  cases call with
  | reserve t a r u k =>
    obtain ⟨hchk, row, hrow, hsame⟩ := hdone
    obtain ⟨hmem, hk⟩ := Table.findBy?_eq_some.mp hrow
    obtain ⟨row', hrow', -, hkept⟩ := h.reservations _ row (Table.find?_of_mem hmem)
    have hkey : row'.idempotencyKey = k := by rw [← hk]; exact congrArg (·.idempotencyKey) hkept
    refine ⟨hchk, row', Table.findBy?_eq_some.mpr ⟨(Table.find?_eq_some.mp hrow').1, hkey⟩, ?_⟩
    rw [← hsame]
    exact congrArg (fun r => (r.tenantId, r.accountId, r.runId, r.units)) hkept
  | release id k =>
    obtain ⟨row, hrow, hs⟩ := hdone
    obtain ⟨row', hrow', hmove, -⟩ := h.reservations id row hrow
    refine ⟨row', hrow', ?_⟩
    rcases hmove with hmove | ⟨hmove, -⟩
    · rwa [hmove]
    · exact absurd hmove hs
  | commit id used k =>
    obtain ⟨hused, ⟨row, hrow⟩, e, he, hsame⟩ := hdone
    obtain ⟨row', hrow', -, -⟩ := h.reservations id row hrow
    exact ⟨hused, ⟨row', hrow'⟩, e, findBy?_of_prefix h.runLedger he, hsame⟩
  | adjust a amount k reason =>
    obtain ⟨hchk, e, he, hsame⟩ := hdone
    exact ⟨hchk, e, findBy?_of_prefix h.adjustments he, hsame⟩

/-- A call that returned left its record. -/
theorem done_of_body_ok {answer : Answer} (h : call.body env db = .ok (answer, db')) :
    Done db' call := by
  cases call with
  | reserve t a r u k =>
    obtain ⟨res, hres, -⟩ := Tx.map_eq_ok.mp h
    obtain ⟨hchk, ⟨row, hk, rfl, hsame⟩ | ⟨account, reservations, -, -, -, hins, rfl⟩⟩ :=
      reserve_eq_ok hres
    · exact ⟨hchk, row, hk, hsame⟩
    · exact ⟨hchk, _, (Table.findBy?_insert hins k).trans (if_pos rfl), rfl⟩
  | release id k =>
    obtain ⟨res, hres, -⟩ := Tx.map_eq_ok.mp h
    obtain ⟨row, hrow, ⟨hs, rfl⟩ | ⟨hs, rfl⟩⟩ := release_eq_ok hres
    · exact ⟨row, hrow, hs⟩
    · exact ⟨_, by rw [find?_setStatus, hrow, Option.map_some, if_pos rfl], by simp⟩
  | commit id used k =>
    obtain ⟨com, hcom, -⟩ := Tx.map_eq_ok.mp h
    obtain ⟨hused, row, hrow, ⟨e, hk, hres, hamt, rfl⟩ | ⟨db₁, runLedger, -, -, -, hupd, hins, rfl⟩⟩ :=
      commit_eq_ok hcom
    · exact ⟨hused, ⟨row, hrow⟩, e, hk, hres, hamt⟩
    · obtain ⟨account, creditAccounts, -, -, rfl, -⟩ := Database.updateBalance_eq_ok hupd
      have hfind : (setStatus id .committed (env.now 1)
          { db with creditAccounts, runLedger }).reservations.find? id = _ := find?_setStatus id
      refine ⟨hused, ⟨_, hfind.trans (by rw [hrow, Option.map_some])⟩, newEntry env row used k,
        (Table.findBy?_insert hins k).trans (if_pos rfl), ?_, rfl⟩
      exact (Table.find?_eq_some.mp hrow).2
  | adjust a amount k reason =>
    obtain ⟨n, hn, -⟩ := Tx.map_eq_ok.mp h
    obtain ⟨hchk, ⟨e, hk, hacc, hamt, rfl⟩ | ⟨db₁, adjustments, -, -, hins, rfl⟩⟩ := adjust_eq_ok hn
    · exact ⟨hchk, e, hk, hacc, hamt⟩
    · exact ⟨hchk, _, (Table.findBy?_insert hins k).trans (if_pos rfl), rfl, rfl⟩

theorem done_step {answer : Answer} (h : (perform env call db).1 = .ok answer) :
    Done (step db (env, call)) call := by
  cases hbody : call.body env db with
  | error e =>
    rw [perform, atomically_of_error hbody] at h
    cases h
  | ok p =>
    obtain ⟨answer', db'⟩ := p
    rw [step, perform, atomically_of_ok hbody]
    exact done_of_body_ok hbody

/-- **A call whose record is there changes nothing.** -/
theorem perform_of_done (hdone : Done db call) (env : Env) :
    ∃ answer, perform env call db = (.ok answer, db) := by
  cases call with
  | reserve t a r u k =>
    obtain ⟨hchk, row, hk, hsame⟩ := hdone
    exact ⟨_, atomically_of_ok (Tx.map_eq_ok.mpr ⟨_, reserve_replay hchk hk hsame, rfl⟩)⟩
  | release id k =>
    obtain ⟨row, hrow, hs⟩ := hdone
    exact ⟨_, atomically_of_ok (Tx.map_eq_ok.mpr ⟨_, release_replay hrow hs, rfl⟩)⟩
  | commit id used k =>
    obtain ⟨hused, ⟨row, hrow⟩, e, hk, hres, hamt⟩ := hdone
    exact ⟨_, atomically_of_ok (Tx.map_eq_ok.mpr ⟨_, commit_replay hused hrow hk hres hamt, rfl⟩)⟩
  | adjust a amount k reason =>
    obtain ⟨hchk, e, hk, hacc, hamt⟩ := hdone
    exact ⟨_, atomically_of_ok (Tx.map_eq_ok.mpr ⟨_, adjust_replay hchk hk hacc hamt, rfl⟩)⟩

/-- **A call that reuses a recorded key for something else raises.** -/
theorem perform_of_conflicts (hdone : Done db call) (hconf : Conflicts call call') (env : Env) :
    ∃ e, perform env call' db = (.error e, db) := by
  have hraise : ∀ {α : Type} {f : α → Answer} {body : Tx Error Database α},
      (∃ e, body db = .error e) → ∃ e, atomically (Tx.map f body) db = (.error e, db) := by
    intro α f body ⟨e, he⟩
    exact ⟨e, atomically_of_error (Tx.map_eq_error.mpr he)⟩
  cases call with
  | reserve t a r u k =>
    obtain ⟨-, row, hk, hsame⟩ := hdone
    cases call' with
    | reserve t' a' r' u' k' =>
      obtain ⟨rfl, hne⟩ := hconf
      exact hraise (reserve_conflict hk (hsame ▸ Ne.symm hne))
    | _ => exact hconf.elim
  | release id k => cases call' <;> exact hconf.elim
  | commit id used k =>
    obtain ⟨-, -, e, hk, hres, hamt⟩ := hdone
    cases call' with
    | commit id' used' k' =>
      obtain ⟨rfl, hne⟩ := hconf
      refine hraise (commit_conflict hk fun ⟨hres', hamt'⟩ => hne ?_)
      rw [← hres, ← hres', Prod.mk.injEq]
      exact ⟨rfl, by omega⟩
    | _ => exact hconf.elim
  | adjust a amount k reason =>
    obtain ⟨-, e, hk, hacc, hamt⟩ := hdone
    cases call' with
    | adjust a' amount' k' reason' =>
      obtain ⟨rfl, hne⟩ := hconf
      refine hraise (adjust_conflict hk fun ⟨hacc', hamt'⟩ => hne ?_)
      rw [← hacc, ← hacc', ← hamt, ← hamt']
    | _ => exact hconf.elim

/-- **The life of a reservation, and repeated calls.**  Along every run of
ledger calls, statuses move from `reserved` only; a committed reservation has one
ledger row, for at most its units, and another none; a call that returned changes
nothing when it is repeated later; and one that reuses its key for another
account, units or amount raises and changes nothing, except for `release`. -/
theorem reservation_lifecycle {balances : List (String × ℤ)} {db : Database}
    (hopen : openLedger balances .empty = .ok db) :
    (∀ pre post, Later (Runs.final step db pre) (Runs.final step db (pre ++ post))) ∧
      (∀ calls, ∀ row ∈ (Runs.final step db calls).reservations.rows,
        let entries := entriesOf (Runs.final step db calls) row.reservationId
        (row.status = .committed ↔ ∃ e, entries = [e]) ∧
          (∀ e ∈ entries, 0 ≤ -e.amount ∧ -e.amount ≤ row.units) ∧
          (row.status = .reserved ∨ row.status = .released → entries = [])) ∧
      ∀ pre env call post answer, (perform env call (Runs.final step db pre)).1 = .ok answer →
        let db' := Runs.final step db (pre ++ (env, call) :: post)
        (∀ env', ∃ answer', perform env' call db' = (.ok answer', db')) ∧
          ∀ env' call', Conflicts call call' → ∃ e, perform env' call' db' = (.error e, db') := by
  have hlater : ∀ s calls, Later s (Runs.final step s calls) := by
    intro s calls
    exact Runs.rel_final (I := fun _ => True) Later.refl Later.trans (fun _ _ _ => trivial)
      (fun s c _ => later_step s c) trivial calls
  refine ⟨?_, ?_, ?_⟩
  · intro pre post
    rw [Runs.final_append]
    exact hlater _ post
  · intro calls row hrow
    have hempty : Settled db := by
      obtain ⟨creditAccounts, rfl⟩ := openLedger_eq_ok hopen
      exact ⟨fun id row hrow => (by cases hrow), fun e he => (by cases he)⟩
    have hsettled : Settled (Runs.final step db calls) :=
      Runs.invariant (I := Settled) hempty settled_step calls
    obtain ⟨hcom, hopen'⟩ := hsettled.charges _ row (Table.find?_of_mem hrow)
    by_cases hs : row.status = .committed
    · obtain ⟨e, he, hnonneg, hwithin⟩ := hcom hs
      simp only [he, hs]
      simp only [List.mem_singleton, forall_eq, reduceCtorEq, or_self, false_implies, and_true]
      exact ⟨iff_of_true trivial ⟨e, rfl⟩, hnonneg, hwithin⟩
    · simp only [hopen' hs]
      simp [hs]
  · intro pre env call post answer hok
    -- the record the call left is still there after `post`
    have hdone : Done (Runs.final step db (pre ++ (env, call) :: post)) call := by
      rw [Runs.final_append, Runs.final_cons]
      exact (hlater _ post).done (done_step hok)
    exact ⟨perform_of_done hdone, fun env' call' hconf => perform_of_conflicts hdone hconf env'⟩

/-- A commit that is repeated after another run's reservation, and its key for
other units. -/
theorem reservation_lifecycle_commit : ∃ db, openLedger [("account-1", 10)] .empty = .ok db ∧
    let db' := Runs.final step db
      [(Sample.env "a", .reserve "tenant-1" "account-1" "run-1" 6 "reserve-1"),
        (Sample.env "b", .commit "reservation-a-0" 4 "commit-1"),
        (Sample.env "c", .reserve "tenant-1" "account-1" "run-2" 5 "reserve-2")]
    (∃ answer, perform (Sample.env "d") (.commit "reservation-a-0" 4 "commit-1") db'
        = (.ok answer, db')) ∧
      ∃ e, perform (Sample.env "d") (.commit "reservation-c-0" 5 "commit-1") db'
        = (.error e, db') := by
  have hopen : openLedger [("account-1", 10)] .empty = .ok _ := rfl
  have hreplay := (reservation_lifecycle hopen).2.2
    [(Sample.env "a", .reserve "tenant-1" "account-1" "run-1" 6 "reserve-1")] (Sample.env "b")
    (.commit "reservation-a-0" 4 "commit-1")
    [(Sample.env "c", .reserve "tenant-1" "account-1" "run-2" 5 "reserve-2")]
    (.committed ⟨"reservation-a-0", "account-1", 4, "commit-1"⟩) (by decide)
  exact ⟨_, hopen, hreplay.1 _, hreplay.2 _ _ ⟨rfl, by decide⟩⟩

/-- Two held reservations of different accounts and units, and the release of the
first. -/
def firstReleased : List (Env × Call) :=
  [(Sample.env "a", .reserve "tenant-1" "account-1" "run-1" 6 "reserve-1"),
    (Sample.env "b", .reserve "tenant-1" "account-2" "run-2" 3 "reserve-2"),
    (Sample.env "c", .release "reservation-a-0" "release-1")]

/-- `release` does not look at its key: the key of one release goes through for a
reservation of another account and other units, and releases it. -/
theorem release_key_reused : ∃ db,
    openLedger [("account-1", 10), ("account-2", 10)] .empty = .ok db ∧
      (Runs.final step db firstReleased).held "account-1" = 0 ∧
      (Runs.final step db firstReleased).held "account-2" = 3 ∧
      (perform (Sample.env "d") (.release "reservation-b-0" "release-1")
        (Runs.final step db firstReleased)).1
          = .ok (.reservation ⟨"reservation-b-0", "tenant-1", "account-2", "run-2", 3, "reserve-2",
            .released⟩) ∧
      (step (Runs.final step db firstReleased)
        (Sample.env "d", .release "reservation-b-0" "release-1")).held "account-2" = 0 :=
  ⟨_, rfl, by decide, by decide, by decide, by decide⟩

end CreditLedger

end AiSaas
