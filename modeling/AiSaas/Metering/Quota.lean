import AiSaas.Lib.Runs
import AiSaas.Lib.Tables
import AiSaas.Lib.Transactions
import AiSaas.Python
import Mathlib.Algebra.Group.Prod
import Mathlib.Data.Rat.Floor

/-!
# The quota counter

`SQLiteQuotaCounter` of `services/metering_billing/quota.py`: runs are admitted
to the window their clock reading falls in, and each window keeps a count of its
runs and of their units beside the admissions.  A clock reading is the rational
number its float stands for.

## Main definitions

* `QuotaPolicy` — the limits, with the checks of `__post_init__`.
* `QuotaDatabase` — the buckets and the admissions.
* `QuotaCounter.reserve`, `release`, `snapshot` — the operations.
* `QuotaCounter.Call`, `perform`, `step` — a call as one transaction.
* `QuotaDatabase.tally` — what the counted admissions of a window add up to.
* `QuotaCounter.Exact` — every bucket shows its tally, within the policy.

## Main results

* `QuotaCounter.exact_step` — what one call preserves.
* `QuotaCounter.release_of_counted` — a release takes one run out of its bucket.
* `QuotaCounter.quota_exact` — all of it, for every run of calls.
-/

namespace AiSaas

open Relational Transaction

/-! ### Policy and rows -/

/-- The limits of a counter. -/
structure QuotaPolicy where
  maxRuns : ℤ
  maxUnits : ℤ
  periodSeconds : ℤ
  positive : ∀ value ∈ [maxRuns, maxUnits, periodSeconds], 0 < value
  ceiling : maxRuns ≤ 1000000 ∧ maxUnits ≤ 10000000 ∧ periodSeconds ≤ 31536000
  deriving DecidableEq

/-- `QuotaPolicy.__post_init__`. -/
def QuotaPolicy.make (maxRuns maxUnits periodSeconds : ℤ) : Except Error QuotaPolicy :=
  match h : [("max_runs", maxRuns), ("max_units", maxUnits), ("period_seconds", periodSeconds)].find?
      fun field => decide (field.2 ≤ 0) with
  | some (name, _) => .error (.valueError (name ++ " must be a positive integer"))
  | none =>
    if hc : maxRuns ≤ 1000000 ∧ maxUnits ≤ 10000000 ∧ periodSeconds ≤ 31536000 then
      .ok ⟨maxRuns, maxUnits, periodSeconds, by simp_all, hc⟩
    else .error (.valueError "quota policy exceeds the low-cost safety ceiling")

/-- A row of `quota_buckets`. -/
structure Bucket where
  scopeId : String
  periodKey : ℤ
  runCount : ℤ
  unitCount : ℤ
  deriving DecidableEq, Repr

/-- The window a bucket counts. -/
def Bucket.key (b : Bucket) : String × ℤ := (b.scopeId, b.periodKey)

/-- `run_count = run_count + ?, unit_count = unit_count + ?`. -/
def Bucket.add (b : Bucket) (runs units : ℤ) : Bucket :=
  { b with runCount := b.runCount + runs, unitCount := b.unitCount + units }

/-- The statuses of an admission. -/
inductive AdmissionStatus where
  | counted
  | released
  deriving DecidableEq, Repr

/-- A row of `quota_admissions`. -/
structure Admission where
  runId : String
  scopeId : String
  periodKey : ℤ
  units : ℤ
  status : AdmissionStatus
  deriving DecidableEq, Repr

/-- The window an admission was made to. -/
def Admission.key (a : Admission) : String × ℤ := (a.scopeId, a.periodKey)

/-- The counter's tables. -/
structure QuotaDatabase where
  buckets : Table Bucket.key Bucket.key fun b => decide (0 ≤ b.runCount) && decide (0 ≤ b.unitCount)
  admissions : Table Admission.runId Admission.runId fun a => decide (0 < a.units)

/-- What `reserve` and `snapshot` return. -/
structure QuotaSnapshot where
  scopeId : String
  periodKey : ℤ
  runCount : ℤ
  unitCount : ℤ
  maxRuns : ℤ
  maxUnits : ℤ
  deriving DecidableEq, Repr

namespace QuotaDatabase

/-- The freshly created file. -/
def empty : QuotaDatabase := ⟨.empty, .empty⟩

/-- The admissions that count in a window. -/
def counted (q : QuotaDatabase) (key : String × ℤ) : List Admission :=
  q.admissions.rows.filter fun a => decide (a.status = .counted ∧ a.key = key)

/-- How many runs the counted admissions of a window are, and how many units. -/
def tally (q : QuotaDatabase) (key : String × ℤ) : ℤ × ℤ :=
  sumWhere (fun a : Admission => decide (a.status = .counted ∧ a.key = key))
    (fun a => (1, a.units)) q.admissions.rows

theorem tally_eq (q : QuotaDatabase) (key : String × ℤ) :
    q.tally key = (((q.counted key).length : ℤ), ((q.counted key).map Admission.units).sum) := by
  unfold tally counted sumWhere
  induction q.admissions.rows.filter fun a => decide (a.status = .counted ∧ a.key = key) with
  | nil => rfl
  | cons a l ih =>
    rw [List.map_cons, List.sum_cons, ih]
    simp [add_comm]

end QuotaDatabase

namespace QuotaCounter

/-! ### The operations -/

/-- `_period_key`. -/
def periodKey (policy : QuotaPolicy) (reading : ℚ) : ℤ := ⌊reading / policy.periodSeconds⌋

/-- `_bucket`: the window's row, made empty where it is missing. -/
def bucket (scopeId : String) (periodKey : ℤ) : Tx Error QuotaDatabase Bucket := fun q => do
  let buckets := (q.buckets.insertOrIgnore ⟨scopeId, periodKey, 0, 0⟩).1
  let row ← orRaise (buckets.find? (scopeId, periodKey))
    (.runtimeError "quota bucket was not created")
  return (row, { q with buckets })

/-- `snapshot`, with its reading of the clock. -/
def snapshot (policy : QuotaPolicy) (reading : ℚ) (scopeId : String) :
    Tx Error QuotaDatabase QuotaSnapshot := fun q => do
  let key := periodKey policy reading
  let (row, q) ← bucket scopeId key q
  return (⟨scopeId, key, row.runCount, row.unitCount, policy.maxRuns, policy.maxUnits⟩, q)

/-- `UPDATE quota_buckets SET run_count = run_count + ?, unit_count = unit_count + ?
WHERE scope_id = ? AND period_key = ?`. -/
def addToBucket (key : String × ℤ) (runs units : ℤ) (q : QuotaDatabase) :
    Except Error QuotaDatabase := do
  let buckets ← orRaise
    (q.buckets.update? (fun b => decide (b.key = key)) (fun b => b.add runs units)
      (fun _ => rfl) fun _ => rfl)
    .integrityError
  return { q with buckets }

/-- `reserve`; the clock is read once for the window and once more by `snapshot`. -/
def reserve (policy : QuotaPolicy) (clock : ℕ → ℚ) (scopeId runId : String) (units : ℤ) :
    Tx Error QuotaDatabase QuotaSnapshot := fun q => do
  ensure (!blank scopeId && !blank runId)
    (.valueError "quota scope and run identity must be non-empty")
  ensure (0 < units) (.valueError "quota units must be a positive integer")
  let key := periodKey policy (clock 0)
  match q.admissions.find? runId with
  | some existing => do
    ensure ((existing.scopeId, existing.periodKey, existing.units, existing.status)
        = (scopeId, key, units, AdmissionStatus.counted))
      (.valueError "quota run identity was reused with different admission data")
    snapshot policy (clock 1) scopeId q
  | none => do
    let (row, q) ← bucket scopeId key q
    ensure (¬ policy.maxRuns < row.runCount + 1) (.quotaExceeded "runs" policy.maxRuns)
    ensure (¬ policy.maxUnits < row.unitCount + units) (.quotaExceeded "units" policy.maxUnits)
    let q ← addToBucket (scopeId, key) 1 units q
    let admissions ← orRaise (q.admissions.insert? ⟨runId, scopeId, key, units, .counted⟩)
      .integrityError
    snapshot policy (clock 1) scopeId { q with admissions }

/-- `UPDATE quota_admissions SET status = 'released' WHERE run_id = ?`. -/
def setReleased (runId : String) (q : QuotaDatabase) : QuotaDatabase :=
  { q with
    admissions := q.admissions.update (fun a => decide (a.runId = runId))
      (fun a => { a with status := .released }) ⟨fun _ => rfl, fun _ => rfl, fun _ h => h⟩ }

/-- `release`. -/
def release (runId : String) : Tx Error QuotaDatabase Unit := fun q =>
  match q.admissions.find? runId with
  | none => return ((), q)
  | some admission =>
    if admission.status = .released then return ((), q)
    else do
      let q ← addToBucket admission.key (-1) (-admission.units) q
      return ((), setReleased runId q)

/-! ### Calls -/

/-- A call of the counter. -/
inductive Call where
  | reserve (scopeId runId : String) (units : ℤ)
  | release (runId : String)
  | snapshot (scopeId : String)
  deriving DecidableEq, Repr

/-- What a call answers. -/
def Call.Answer : Call → Type
  | .reserve _ _ _ => QuotaSnapshot
  | .release _ => Unit
  | .snapshot _ => QuotaSnapshot

/-- The body of a call, with its readings of the clock. -/
def Call.body (policy : QuotaPolicy) (clock : ℕ → ℚ) :
    (call : Call) → Tx Error QuotaDatabase call.Answer
  | .reserve s r u => QuotaCounter.reserve policy clock s r u
  | .release r => QuotaCounter.release r
  | .snapshot s => QuotaCounter.snapshot policy (clock 0) s

/-- A call as one transaction.  `snapshot` opens none of its own, but its one
write is its last chance to fail. -/
def perform (policy : QuotaPolicy) (clock : ℕ → ℚ) (call : Call) (q : QuotaDatabase) :
    Except Error call.Answer × QuotaDatabase := atomically (call.body policy clock) q

/-- The tables after a call. -/
def step (policy : QuotaPolicy) (q : QuotaDatabase) (call : (ℕ → ℚ) × Call) : QuotaDatabase :=
  (perform policy call.1 call.2 q).2

/-! ### What the statements do -/

variable {policy : QuotaPolicy} {clock : ℕ → ℚ} {q q' : QuotaDatabase} {key : String × ℤ}
  {s r : String} {k u : ℤ} {reading : ℚ} {b : Bucket} {a : Admission}

/-- Looking at a window leaves its bucket there, empty where there was none. -/
theorem bucket_eq_ok (h : bucket s k q = .ok (b, q')) :
    q'.admissions = q.admissions ∧ q'.buckets.find? (s, k) = some b ∧
      ∀ x, q'.buckets.find? x
        = (q.buckets.find? x).or (if (s, k) = x then some ⟨s, k, 0, 0⟩ else none) := by
  simp only [bucket, bind_eq_ok, orRaise_eq_ok] at h
  obtain ⟨row, hrow, h⟩ := h
  obtain ⟨rfl, rfl⟩ := Prod.mk.inj (Except.ok.inj h)
  exact ⟨rfl, hrow, Table.find?_insertOrIgnore rfl fun _ _ he => he⟩

/-- A window can always be looked at. -/
theorem exists_bucket_eq_ok (s : String) (k : ℤ) (q : QuotaDatabase) :
    ∃ b q', bucket s k q = .ok (b, q') := by
  have hfind := Table.find?_insertOrIgnore (t := q.buckets) (r := ⟨s, k, 0, 0⟩) rfl
    (fun _ _ he => he) (s, k)
  have hrow : ∃ b, (q.buckets.insertOrIgnore ⟨s, k, 0, 0⟩).1.find? (s, k) = some b := by
    rw [hfind]
    cases q.buckets.find? (s, k) with
    | none => exact ⟨_, if_pos rfl⟩
    | some b => exact ⟨b, rfl⟩
  obtain ⟨b, hb⟩ := hrow
  refine ⟨b, { q with buckets := (q.buckets.insertOrIgnore ⟨s, k, 0, 0⟩).1 }, ?_⟩
  simp only [bucket, bind_eq_ok, orRaise_eq_ok]
  exact ⟨b, hb, rfl⟩

theorem addToBucket_eq_ok {runs units : ℤ} (h : addToBucket key runs units q = .ok q') :
    q'.admissions = q.admissions ∧ ∀ x, q'.buckets.find? x
      = (q.buckets.find? x).map fun b => if x = key then b.add runs units else b := by
  simp only [addToBucket, bind_eq_ok, orRaise_eq_ok] at h
  obtain ⟨buckets, hupd, h⟩ := h
  obtain rfl := Except.ok.inj h
  refine ⟨rfl, ?_⟩
  intro x
  have hfind := Table.find?_of_rows_eq_setWhere (f := fun b : Bucket => b.add runs units)
    (fun _ => rfl) (Table.rows_update? hupd) x
  change buckets.find? x = _
  rw [hfind]
  cases hx : q.buckets.find? x with
  | none => rfl
  | some b => simp [(Table.find?_eq_some.mp hx).2, Bucket.add]

/-- Counts that stay non-negative can be written. -/
theorem exists_addToBucket_eq_ok {runs units : ℤ}
    (h : ∀ b, q.buckets.find? key = some b → 0 ≤ b.runCount + runs ∧ 0 ≤ b.unitCount + units) :
    ∃ q', addToBucket key runs units q = .ok q' := by
  have hchk : ∀ b ∈ q.buckets.rows, decide (b.key = key) = true →
      (decide (0 ≤ b.runCount + runs) && decide (0 ≤ b.unitCount + units)) = true := by
    intro b hb hk
    obtain ⟨hruns, hunits⟩ := h b (Table.find?_eq_some.mpr ⟨hb, of_decide_eq_true hk⟩)
    simp [hruns, hunits]
  simp only [addToBucket, bind_eq_ok, orRaise_eq_ok]
  exact ⟨_, _, dif_pos hchk, rfl⟩

theorem snapshot_eq_ok {shown : QuotaSnapshot} (h : snapshot policy reading s q = .ok (shown, q')) :
    ∃ b, bucket s (periodKey policy reading) q = .ok (b, q') ∧ shown.scopeId = s ∧
      shown.periodKey = periodKey policy reading ∧ shown.runCount = b.runCount ∧
      shown.unitCount = b.unitCount := by
  simp only [snapshot, bind_eq_ok] at h
  obtain ⟨⟨b, q₁⟩, hb, h⟩ := h
  obtain ⟨rfl, rfl⟩ := Prod.mk.inj (Except.ok.inj h)
  exact ⟨b, hb, rfl, rfl, rfl, rfl⟩

/-- **What `reserve` did**: it found the run's own admission and changed none, or
it admitted a run to a window that had room for it. -/
theorem reserve_eq_ok {shown : QuotaSnapshot} (h : reserve policy clock s r u q = .ok (shown, q')) :
    0 < u ∧ ((∃ a, q.admissions.find? r = some a ∧
        (a.scopeId, a.periodKey, a.units, a.status)
          = (s, periodKey policy (clock 0), u, AdmissionStatus.counted) ∧
        snapshot policy (clock 1) s q = .ok (shown, q')) ∨
      ∃ b q₁ q₂ admissions, q.admissions.find? r = none ∧
        bucket s (periodKey policy (clock 0)) q = .ok (b, q₁) ∧
        b.runCount + 1 ≤ policy.maxRuns ∧ b.unitCount + u ≤ policy.maxUnits ∧
        addToBucket (s, periodKey policy (clock 0)) 1 u q₁ = .ok q₂ ∧
        q₂.admissions.insert? ⟨r, s, periodKey policy (clock 0), u, .counted⟩ = some admissions ∧
        snapshot policy (clock 1) s { q₂ with admissions } = .ok (shown, q')) := by
  simp only [reserve, bind_eq_ok, ensure_eq_ok, decide_eq_true_eq] at h
  obtain ⟨-, -, -, hu, h⟩ := h
  refine ⟨hu, ?_⟩
  cases hr : q.admissions.find? r with
  | some a =>
    simp only [hr, bind_eq_ok, ensure_eq_ok, decide_eq_true_eq] at h
    obtain ⟨-, hsame, hshown⟩ := h
    exact Or.inl ⟨a, rfl, hsame, hshown⟩
  | none =>
    simp only [hr, bind_eq_ok, ensure_eq_ok, orRaise_eq_ok, decide_eq_true_eq] at h
    obtain ⟨⟨b, q₁⟩, hb, -, hruns, -, hunits, q₂, hadd, admissions, hins, hshown⟩ := h
    exact Or.inr ⟨b, q₁, q₂, admissions, rfl, hb, Int.not_lt.mp hruns, Int.not_lt.mp hunits, hadd,
      hins, hshown⟩

/-! ### Exact counts -/

/-- Every bucket shows what the counted admissions of its window add up to and
stays within the policy, and every counted admission has its bucket. -/
structure Exact (policy : QuotaPolicy) (q : QuotaDatabase) : Prop where
  tally : ∀ key b, q.buckets.find? key = some b → (b.runCount, b.unitCount) = q.tally key
  within : ∀ key b, q.buckets.find? key = some b →
    b.runCount ≤ policy.maxRuns ∧ b.unitCount ≤ policy.maxUnits
  home : ∀ a ∈ q.admissions.rows, a.status = .counted → ∃ b, q.buckets.find? a.key = some b

theorem exact_empty (policy : QuotaPolicy) : Exact policy .empty :=
  ⟨fun _ _ h => (by cases h), fun _ _ h => (by cases h), fun _ h => (by cases h)⟩

/-- A window without a bucket counts nothing. -/
theorem Exact.tally_eq_zero (h : Exact policy q) (hnone : q.buckets.find? key = none) :
    q.tally key = 0 := by
  have hempty : q.counted key = [] := by
    apply List.filter_eq_nil_iff.mpr
    intro a ha hcount
    obtain ⟨hstatus, hkey⟩ := of_decide_eq_true hcount
    obtain ⟨b, hb⟩ := h.home a ha hstatus
    rw [hkey, hnone] at hb
    cases hb
  rw [QuotaDatabase.tally_eq, hempty]
  rfl

/-- Looking at a window keeps the counts exact. -/
theorem Exact.of_bucket (h : Exact policy q) (hb : bucket s k q = .ok (b, q')) :
    Exact policy q' := by
  obtain ⟨hadm, -, hfind⟩ := bucket_eq_ok hb
  have htally : ∀ key, q'.tally key = q.tally key := by
    intro key
    rw [QuotaDatabase.tally, QuotaDatabase.tally, hadm]
  -- a bucket of `q'` is one of `q`, or an empty one of a window without a bucket
  have hcases : ∀ key b, q'.buckets.find? key = some b →
      q.buckets.find? key = some b ∨ q.buckets.find? key = none ∧ b.runCount = 0 ∧ b.unitCount = 0 := by
    intro key b hb
    rw [hfind] at hb
    cases hq : q.buckets.find? key with
    | some b' =>
      rw [hq, Option.some_or] at hb
      exact Or.inl hb
    | none =>
      rw [hq, Option.none_or] at hb
      split_ifs at hb
      obtain rfl := Option.some.inj hb
      exact Or.inr ⟨rfl, rfl, rfl⟩
  constructor
  · intro key b hb
    rw [htally]
    rcases hcases key b hb with hold | ⟨hnone, hruns, hunits⟩
    · exact h.tally key b hold
    · rw [h.tally_eq_zero hnone, hruns, hunits]
      rfl
  · intro key b hb
    rcases hcases key b hb with hold | ⟨-, hruns, hunits⟩
    · exact h.within key b hold
    · have hpos := policy.positive
      simp only [List.mem_cons, List.not_mem_nil, or_false, forall_eq_or_imp, forall_eq] at hpos
      omega
  · intro a ha hstatus
    rw [hadm] at ha
    obtain ⟨b, hb⟩ := h.home a ha hstatus
    exact ⟨b, by rw [hfind, hb, Option.some_or]⟩

theorem Exact.of_snapshot {shown : QuotaSnapshot} (h : Exact policy q)
    (hs : snapshot policy reading s q = .ok (shown, q')) : Exact policy q' := by
  obtain ⟨b, hb, -⟩ := snapshot_eq_ok hs
  exact h.of_bucket hb

/-- **Putting a run on the bucket of its window and filing its admission keeps
the counts exact**, where the window has room. -/
theorem Exact.admitted {q₁ q₂ : QuotaDatabase}
    {admissions : Table Admission.runId Admission.runId fun a => decide (0 < a.units)}
    (h : Exact policy q₁) (hb : q₁.buckets.find? (s, k) = some b)
    (hruns : b.runCount + 1 ≤ policy.maxRuns) (hunits : b.unitCount + u ≤ policy.maxUnits)
    (hadd : addToBucket (s, k) 1 u q₁ = .ok q₂)
    (hins : q₂.admissions.insert? ⟨r, s, k, u, .counted⟩ = some admissions) :
    Exact policy { q₂ with admissions } := by
  obtain ⟨hadm, hfind⟩ := addToBucket_eq_ok hadd
  obtain ⟨hrows, -⟩ := Table.insert?_eq_some hins
  have htally : ∀ key, QuotaDatabase.tally { q₂ with admissions } key
      = q₁.tally key + if key = (s, k) then (1, u) else 0 := by
    intro key
    change sumWhere _ _ admissions.rows = sumWhere _ _ q₁.admissions.rows + _
    rw [hrows, hadm, sumWhere_concat]
    by_cases hk : key = (s, k)
    · subst hk
      simp [Admission.key]
    · simp [Admission.key, hk, Ne.symm hk]
  constructor
  · intro key b' hb'
    change q₂.buckets.find? key = some b' at hb'
    rw [hfind, Option.map_eq_some_iff] at hb'
    obtain ⟨before, hbefore, rfl⟩ := hb'
    have hold := h.tally key before hbefore
    rw [htally, ← hold]
    by_cases hk : key = (s, k)
    · simp [hk, Bucket.add]
    · simp [hk]
  · intro key b' hb'
    change q₂.buckets.find? key = some b' at hb'
    rw [hfind, Option.map_eq_some_iff] at hb'
    obtain ⟨before, hbefore, rfl⟩ := hb'
    by_cases hk : key = (s, k)
    · obtain rfl := Option.some.inj (hb.symm.trans (hk ▸ hbefore))
      simp only [hk, if_true, Bucket.add]
      exact ⟨hruns, hunits⟩
    · simp only [hk, if_false]
      exact h.within key before hbefore
  · intro a ha hstatus
    change a ∈ admissions.rows at ha
    rw [hrows, hadm, List.mem_append, List.mem_singleton] at ha
    have hhome : ∃ before, q₁.buckets.find? a.key = some before := by
      rcases ha with ha | rfl
      · exact h.home a ha hstatus
      · exact ⟨b, hb⟩
    obtain ⟨before, hbefore⟩ := hhome
    exact ⟨_, by change q₂.buckets.find? a.key = _; rw [hfind, hbefore, Option.map_some]⟩

theorem find?_setReleased (x : String) : (setReleased r q).admissions.find? x
    = (q.admissions.find? x).map fun a => if x = r then { a with status := .released } else a := by
  unfold setReleased
  rw [Table.find?_update]
  cases hx : q.admissions.find? x with
  | none => rfl
  | some a => simp [(Table.find?_eq_some.mp hx).2]

/-- A released admission counts nowhere, the others where they did. -/
theorem tally_setReleased (ha : q.admissions.find? r = some a) (hcounted : a.status = .counted)
    (key : String × ℤ) :
    (setReleased r q).tally key + (if key = a.key then (1, a.units) else 0) = q.tally key := by
  obtain ⟨hmem, rfl⟩ := Table.find?_eq_some.mp ha
  have hmoved := sumWhere_setWhere (g := fun x : Admission => { x with status := .released })
    (fun x => decide (x.status = .counted ∧ x.key = key)) (fun x => ((1 : ℤ), x.units))
    q.admissions.pk_nodup hmem
  simp only [hcounted, true_and, reduceCtorEq, false_and, decide_false, Bool.false_eq_true, if_false,
    decide_eq_true_eq, add_zero, eq_comm (a := a.key)] at hmoved
  exact hmoved

/-- The count of a run that is counted is on its bucket. -/
theorem Exact.one_le (h : Exact policy q) (ha : q.admissions.find? r = some a)
    (hcounted : a.status = .counted) (hb : q.buckets.find? a.key = some b) :
    1 ≤ b.runCount ∧ a.units ≤ b.unitCount := by
  obtain ⟨hmem, -⟩ := Table.find?_eq_some.mp ha
  have hin : a ∈ q.counted a.key := List.mem_filter.mpr ⟨hmem, by simp [hcounted]⟩
  have htally := h.tally _ b hb
  rw [QuotaDatabase.tally_eq, Prod.mk.injEq] at htally
  have hlen : 0 < (q.counted a.key).length := List.length_pos_of_mem hin
  have hunits : a.units ≤ ((q.counted a.key).map Admission.units).sum := by
    refine List.single_le_sum (fun x hx => ?_) _ (List.mem_map_of_mem hin)
    obtain ⟨y, hy, rfl⟩ := List.mem_map.mp hx
    have hpos := q.admissions.checked y (List.mem_of_mem_filter hy)
    simp only [decide_eq_true_eq] at hpos
    omega
  omega

/-- **A release takes a counted run out of the bucket it was admitted to**, and
the CHECKs never refuse it. -/
theorem Exact.release (h : Exact policy q) (ha : q.admissions.find? r = some a)
    (hcounted : a.status = .counted) :
    ∃ q₁ b, addToBucket a.key (-1) (-a.units) q = .ok q₁ ∧ q.buckets.find? a.key = some b ∧
      QuotaCounter.release r q = .ok ((), setReleased r q₁) ∧ Exact policy (setReleased r q₁) := by
  obtain ⟨b, hb⟩ := h.home a (Table.find?_eq_some.mp ha).1 hcounted
  obtain ⟨hruns, hunits⟩ := h.one_le ha hcounted hb
  have hwrite : ∃ q₁, addToBucket a.key (-1) (-a.units) q = .ok q₁ := by
    apply exists_addToBucket_eq_ok
    intro b' hb'
    obtain rfl := Option.some.inj (hb.symm.trans hb')
    omega
  obtain ⟨q₁, hadd⟩ := hwrite
  obtain ⟨hadm, hfind⟩ := addToBucket_eq_ok hadd
  have ha₁ : q₁.admissions.find? r = some a := hadm ▸ ha
  have htally : ∀ key, (setReleased r q₁).tally key + (if key = a.key then (1, a.units) else 0)
      = q.tally key := by
    intro key
    rw [tally_setReleased ha₁ hcounted, QuotaDatabase.tally, QuotaDatabase.tally, hadm]
  refine ⟨q₁, b, hadd, hb, ?_, ?_, ?_, ?_⟩
  · simp [QuotaCounter.release, ha, hcounted, hadd, bind, Except.bind, pure, Except.pure]
  · intro key b' hb'
    change q₁.buckets.find? key = some b' at hb'
    rw [hfind, Option.map_eq_some_iff] at hb'
    obtain ⟨before, hbefore, rfl⟩ := hb'
    have hold := h.tally key before hbefore
    rw [← htally key] at hold
    by_cases hk : key = a.key
    · simp only [hk, if_true, Bucket.add, Prod.ext_iff, Prod.fst_add, Prod.snd_add] at hold ⊢
      omega
    · simpa [hk] using hold
  · intro key b' hb'
    change q₁.buckets.find? key = some b' at hb'
    rw [hfind, Option.map_eq_some_iff] at hb'
    obtain ⟨before, hbefore, rfl⟩ := hb'
    have hold := h.within key before hbefore
    have hpos := q.admissions.checked a (Table.find?_eq_some.mp ha).1
    simp only [decide_eq_true_eq] at hpos
    by_cases hk : key = a.key
    · simp only [hk, if_true, Bucket.add]
      omega
    · simpa [hk] using hold
  · intro x hx hstatus
    change x ∈ setWhere _ _ q₁.admissions.rows at hx
    obtain ⟨before, hbefore, rfl⟩ := mem_setWhere.mp hx
    have hcount : before.status = .counted := by
      split_ifs at hstatus
      exact hstatus
    obtain ⟨b', hb'⟩ := h.home before (hadm ▸ hbefore) hcount
    have hkey : (if decide (before.runId = r) = true then { before with status := .released }
        else before).key = before.key := by split_ifs <;> rfl
    rw [hkey]
    exact ⟨_, by change q₁.buckets.find? before.key = _; rw [hfind, hb', Option.map_some]⟩

/-! ### Runs of calls -/

/-- **One call keeps the counts exact**, whether it returns or raises. -/
theorem exact_step (policy : QuotaPolicy) (q : QuotaDatabase) (call : (ℕ → ℚ) × Call)
    (h : Exact policy q) : Exact policy (step policy q call) := by
  obtain ⟨clock, call⟩ := call
  apply snd_atomically_of h
  intro answer q' hbody
  cases call with
  | reserve s r u =>
    obtain ⟨-, ⟨a, -, -, hshown⟩ | ⟨b, q₁, q₂, admissions, -, hb, hruns, hunits, hadd, hins, hshown⟩⟩ :=
      reserve_eq_ok hbody
    · exact h.of_snapshot hshown
    · have hfound := (bucket_eq_ok hb).2.1
      exact ((h.of_bucket hb).admitted hfound hruns hunits hadd hins).of_snapshot hshown
  | release r =>
    change release r q = .ok (answer, q') at hbody
    cases ha : q.admissions.find? r with
    | none =>
      simp only [release, ha] at hbody
      exact (Prod.mk.inj (Except.ok.inj hbody)).2 ▸ h
    | some a =>
      cases hstatus : a.status with
      | released =>
        simp only [release, ha, hstatus, if_true] at hbody
        exact (Prod.mk.inj (Except.ok.inj hbody)).2 ▸ h
      | counted =>
        obtain ⟨q₁, b, -, -, hrel, hexact⟩ := h.release ha hstatus
        rw [hrel] at hbody
        exact (Prod.mk.inj (Except.ok.inj hbody)).2 ▸ hexact
  | snapshot s => exact h.of_snapshot hbody

/-- A release that finds no counted admission changes nothing. -/
theorem release_of_not_counted (clock : ℕ → ℚ)
    (h : ∀ a, q.admissions.find? r = some a → a.status = .released) :
    step policy q (clock, .release r) = q := by
  have hrel : release r q = .ok ((), q) := by
    cases ha : q.admissions.find? r with
    | none => simp [release, ha, pure, Except.pure]
    | some a => simp [release, ha, h a ha, pure, Except.pure]
  exact congrArg Prod.snd (atomically_of_ok hrel)

/-- **A release of a counted run** takes it and its units out of its own bucket,
leaves the other buckets and marks the admission. -/
theorem release_of_counted (clock : ℕ → ℚ) (h : Exact policy q)
    (ha : q.admissions.find? r = some a)
    (hcounted : a.status = .counted) :
    (∃ b, q.buckets.find? a.key = some b ∧
      ∀ key, (step policy q (clock, .release r)).buckets.find? key
        = if key = a.key then some (b.add (-1) (-a.units)) else q.buckets.find? key) ∧
      (step policy q (clock, .release r)).admissions.find? r
        = some { a with status := .released } := by
  obtain ⟨q₁, b, hadd, hb, hrel, -⟩ := h.release ha hcounted
  obtain ⟨hadm, hfind⟩ := addToBucket_eq_ok hadd
  have hstep : step policy q (clock, .release r) = setReleased r q₁ :=
    congrArg Prod.snd (atomically_of_ok hrel)
  rw [hstep]
  refine ⟨⟨b, hb, ?_⟩, ?_⟩
  · intro key
    change q₁.buckets.find? key = _
    rw [hfind]
    by_cases hk : key = a.key
    · simp [hk, hb]
    · simp [hk]
  · rw [find?_setReleased, hadm, ha, Option.map_some, if_pos rfl]

/-- A released run stays released: no call counts it again. -/
theorem released_step (call : (ℕ → ℚ) × Call) (ha : q.admissions.find? r = some a)
    (hreleased : a.status = .released) : (step policy q call).admissions.find? r = some a := by
  obtain ⟨clock, call⟩ := call
  refine snd_atomically_of (I := fun q' : QuotaDatabase => q'.admissions.find? r = some a) ha ?_
  intro answer q' hbody
  have hsnapshot : ∀ {q₁ s reading shown}, snapshot policy reading s q₁ = .ok (shown, q') →
      q'.admissions = q₁.admissions := by
    intro q₁ s reading shown hs
    obtain ⟨b, hb, -⟩ := snapshot_eq_ok hs
    exact (bucket_eq_ok hb).1
  cases call with
  | reserve s r' u =>
    obtain ⟨-, ⟨a', -, -, hshown⟩ | ⟨b, q₁, q₂, admissions, -, hb, -, -, hadd, hins, hshown⟩⟩ :=
      reserve_eq_ok hbody
    · rw [hsnapshot hshown]
      exact ha
    · -- the new admission is another run's
      have hadm : q₂.admissions = q.admissions :=
        (addToBucket_eq_ok hadd).1.trans (bucket_eq_ok hb).1
      have hne : r' ≠ r := by
        intro he
        obtain ⟨hmem, hid⟩ := Table.find?_eq_some.mp ha
        exact (Table.insert?_eq_some hins).2.2.1 a (hadm ▸ hmem) (hid.trans he.symm)
      rw [hsnapshot hshown]
      change admissions.find? r = some a
      rw [Table.find?_insert hins, if_neg hne, hadm]
      exact ha
  | release r' =>
    change release r' q = .ok (answer, q') at hbody
    cases ha' : q.admissions.find? r' with
    | none =>
      simp only [release, ha'] at hbody
      exact (Prod.mk.inj (Except.ok.inj hbody)).2 ▸ ha
    | some a' =>
      simp only [release, ha'] at hbody
      split_ifs at hbody with hstatus
      · exact (Prod.mk.inj (Except.ok.inj hbody)).2 ▸ ha
      · obtain ⟨q₁, hadd, hbody⟩ := bind_eq_ok.mp hbody
        obtain rfl := (Prod.mk.inj (Except.ok.inj hbody)).2
        have hne : r ≠ r' := by
          rintro rfl
          rw [ha] at ha'
          exact hstatus (Option.some.inj ha' ▸ hreleased)
        rw [find?_setReleased, (addToBucket_eq_ok hadd).1, ha, Option.map_some, if_neg hne]
  | snapshot s =>
    rw [hsnapshot hbody]
    exact ha

/-- A bucket counts a run: one of its counted admissions is the run's. -/
def Counts (q : QuotaDatabase) (b : Bucket) (runId : String) : Prop :=
  ∃ a ∈ q.counted b.key, a.runId = runId

/-- **Quota accounting is exact.**  After any calls on a fresh counter: every
bucket counts the runs and units of its window's counted admissions, within the
policy; every counted admission has a bucket, and no run is counted in two; and
a release takes a run out of the bucket it was admitted to and of no other, once. -/
theorem quota_exact (policy : QuotaPolicy) (calls : List ((ℕ → ℚ) × Call)) :
    let q := Runs.final (step policy) .empty calls
    (∀ b ∈ q.buckets.rows, b.runCount = (q.counted b.key).length ∧
        b.unitCount = ((q.counted b.key).map Admission.units).sum ∧
        0 ≤ b.runCount ∧ b.runCount ≤ policy.maxRuns ∧
        0 ≤ b.unitCount ∧ b.unitCount ≤ policy.maxUnits) ∧
      (∀ a ∈ q.admissions.rows, a.status = .counted → ∃ b ∈ q.buckets.rows, b.key = a.key) ∧
      (∀ b ∈ q.buckets.rows, ∀ b' ∈ q.buckets.rows, ∀ runId,
        Counts q b runId → Counts q b' runId → b = b') ∧
      ∀ runId clock, let q' := step policy q (clock, .release runId)
        ((∀ a, q.admissions.find? runId = some a → a.status = .released) → q' = q) ∧
        ∀ a, q.admissions.find? runId = some a → a.status = .counted →
          (∃ b, q.buckets.find? a.key = some b ∧ ∀ key, q'.buckets.find? key
            = if key = a.key then some (b.add (-1) (-a.units)) else q.buckets.find? key) ∧
          ∀ calls' clock', let q'' := Runs.final (step policy) q' calls'
            q''.admissions.find? runId = some { a with status := .released } ∧
              step policy q'' (clock', .release runId) = q'' := by
  intro q
  have hexact : Exact policy q := Runs.invariant (exact_empty policy) (exact_step policy) calls
  refine ⟨?_, ?_, ?_, ?_⟩
  · intro b hb
    have hfind : q.buckets.find? b.key = some b := Table.find?_of_mem hb
    have htally := hexact.tally b.key b hfind
    rw [QuotaDatabase.tally_eq, Prod.mk.injEq] at htally
    obtain ⟨hruns, hunits⟩ := hexact.within b.key b hfind
    have hchk := q.buckets.checked b hb
    simp only [Bool.and_eq_true, decide_eq_true_eq] at hchk
    exact ⟨htally.1, htally.2, hchk.1, hruns, hchk.2, hunits⟩
  · intro a ha hcounted
    obtain ⟨b, hb⟩ := hexact.home a ha hcounted
    exact ⟨b, Table.find?_eq_some.mp hb⟩
  · rintro b hb b' hb' runId ⟨a, ha, hrun⟩ ⟨a', ha', hrun'⟩
    obtain ⟨hmem, hkey⟩ := List.mem_filter.mp ha
    obtain ⟨hmem', hkey'⟩ := List.mem_filter.mp ha'
    -- the run has one admission, so both buckets have its key
    have hsame : a = a' := Table.eq_of_pk hmem hmem' (hrun.trans hrun'.symm)
    have hkeys : b.key = b'.key :=
      (of_decide_eq_true hkey).2.symm.trans (hsame ▸ (of_decide_eq_true hkey').2)
    exact Table.eq_of_pk hb hb' hkeys
  · intro runId clock q'
    refine ⟨release_of_not_counted clock, ?_⟩
    intro a ha hcounted
    obtain ⟨hbucket, hreleased⟩ := release_of_counted clock hexact ha hcounted
    refine ⟨hbucket, ?_⟩
    intro calls' clock' q''
    have hstays : q''.admissions.find? runId = some { a with status := .released } :=
      Runs.invariant (I := fun q : QuotaDatabase =>
        q.admissions.find? runId = some { a with status := .released }) hreleased
        (fun q call h => released_step call h rfl) calls'
    refine ⟨hstays, release_of_not_counted clock' ?_⟩
    intro a' ha'
    rw [hstays] at ha'
    exact Option.some.inj ha' ▸ rfl

end QuotaCounter

end AiSaas
