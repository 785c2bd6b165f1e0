import AiSaas.Pricing.Catalog
import Mathlib.Tactic.Linarith

/-!
# Where both catalogs agree

When `updatePricingPlan` leaves the same catalog in memory and in the database, and when a plan
can be given back as it is listed.

## Main definitions

* `Accepted` — a call that passes the checks of both branches.
* `InTurn` — the options can be written one after another.
* `Carries` — the database takes an update as the memory does.
* `Settled` — a plan is as it would be stored, with options of its own mode.

## Main results

* `transaction_isSome_iff` — when the transaction of an update goes through.
* `agree_iff`, `readsBack_iff` — when the branches agree, and when plans can be given back.
* `catalogs_agree_iff` — both.
-/

namespace AiSaas
namespace Pricing
namespace Catalog

open Relational

/-! ### The conditions -/

/-- A call that passes the checks of both branches for a plan. -/
structure Accepted (db : Database) (call : PlanCall) (current : PricingPlan) : Prop where
  input : validatePlanInput call.input call.reason = .ok ()
  found : findPlan (listed db) call.planId = some current
  editable : assertBillingModeIsEditable current call.input call.policy = .ok ()
  options : validatePlanOptions (givenOptions call.input current) call.input.billingMode = .ok ()

/-- The rows an update writes for the options. -/
def newRows (host : Host) (call : PlanCall) (current : PricingPlan) : List PricingOption :=
  optionRows host call.planId (givenOptions call.input current)

/-- Each row has the id of an option of the plan, or one that is not taken; and its mode,
interval and provider are neither those of an earlier row nor those that an option which is
still to be written has until then. -/
def InTurn (db : Database) (current : PricingPlan) (rows : List PricingOption) : Prop :=
  ∀ earlier o later, rows = earlier ++ o :: later →
    ((∃ c ∈ current.options, c.id = o.id) ∨
      (∀ c ∈ db.options.rows, c.id ≠ o.id) ∧ ∀ x ∈ earlier, x.id ≠ o.id) ∧
    (∀ x ∈ earlier, x.id ≠ o.id → x.identity ≠ o.identity) ∧
    ∀ c ∈ current.options, (∃ x ∈ rows, x.id = c.id) → (∀ x ∈ earlier, x.id ≠ c.id) → c.id ≠ o.id →
      c.identity ≠ o.identity

/-- The database takes an accepted update as the memory does. -/
structure Carries (host : Host) (db : Database) (call : PlanCall) (current : PricingPlan) : Prop where
  /-- The plan stays one of the platform. -/
  platform : (toPlanRow call.planId call.input).tenantId = "platform"
  /-- No option that is left out has an order or a subscription. -/
  kept : ∀ c ∈ current.options, db.referenced c.id = true → ∃ x ∈ newRows host call current, x.id = c.id
  /-- No option is given twice with different values. -/
  single : ∀ x ∈ newRows host call current, ∀ y ∈ newRows host call current, x.id = y.id → x = y
  /-- The code is no other plan's. -/
  code : ∀ r ∈ db.plans.rows, r.id ≠ call.planId →
    (r.tenantId, r.code) ≠ ("platform", trimText call.input.code)
  inTurn : InTurn db current (newRows host call current)
  /-- The columns can hold the values. -/
  plan : (toPlanRow call.planId call.input).storable = true
  options : ∀ x ∈ newRows host call current, x.storable = true
  audit : (auditTexts call (normalizedOptions host (givenOptions call.input current))).all storableText = true

/-- A plan is as an update would store it, with valid options of its own mode. -/
structure Settled (host : Host) (plan : PricingPlan) : Prop where
  code : trimText plan.row.code = plan.row.code ∧ plan.row.code ≠ ""
  name : trimText plan.row.name = plan.row.name ∧ plan.row.name ≠ ""
  description : trimText plan.row.description = plan.row.description
  options : ∀ o ∈ plan.options, host.toUpperCase o.currency = o.currency ∧
    o.mode = plan.row.billingMode ∧ validateOption o.input = .ok ()

variable {host : Host} {db db' : Database} {call : PlanCall} {current next plan : PricingPlan}
  {plans : List PricingPlan} {t t' : OptionTable} {rows : List PricingOption} {o x row : PricingOption}

/-! ### Lists of plans -/

theorem mem_displayed : plan ∈ displayed plans ↔ plan ∈ plans := (List.mergeSort_perm _ _).mem_iff

theorem mem_listed : plan ∈ listed db ↔ ∃ r ∈ db.plans.rows, r.tenantId = "platform" ∧
    plan = ⟨r, db.options.rows.filter fun o => decide (o.planId = r.id)⟩ := by
  rw [listed, mem_displayed, mapRows, List.mem_map]
  constructor
  · rintro ⟨r, hr, rfl⟩
    rw [List.mem_filter, decide_eq_true_eq] at hr
    exact ⟨r, hr.1, hr.2, rfl⟩
  · rintro ⟨r, hr, htenant, rfl⟩
    exact ⟨r, List.mem_filter.mpr ⟨hr, decide_eq_true htenant⟩, rfl⟩

/-- No two listed plans have one id. -/
theorem eq_of_listed (h : plan ∈ listed db) (hnext : next ∈ listed db) (hid : plan.row.id = next.row.id) :
    plan = next := by
  obtain ⟨r, hr, -, rfl⟩ := mem_listed.mp h
  obtain ⟨r', hr', -, rfl⟩ := mem_listed.mp hnext
  rw [Table.eq_of_pk hr hr' hid]

theorem findPlan_eq_some {planId : String} :
    findPlan (listed db) planId = some plan ↔ plan ∈ listed db ∧ plan.row.id = planId := by
  constructor
  · intro h
    exact ⟨List.mem_of_find?_eq_some h, by simpa using List.find?_some h⟩
  · rintro ⟨hmem, rfl⟩
    cases hfound : findPlan (listed db) plan.row.id with
    | none =>
      have hnone := List.find?_eq_none.mp hfound plan hmem
      exact absurd (decide_eq_true rfl) hnone
    | some plan' =>
      have hid : plan'.row.id = plan.row.id := by simpa using List.find?_some hfound
      rw [eq_of_listed (List.mem_of_find?_eq_some hfound) hmem hid]

/-- The options of a listed plan are the rows with its id. -/
theorem mem_options (h : plan ∈ listed db) :
    o ∈ plan.options ↔ o ∈ db.options.rows ∧ o.planId = plan.row.id := by
  obtain ⟨r, -, -, rfl⟩ := mem_listed.mp h
  rw [List.mem_filter, decide_eq_true_eq]

theorem mem_replaced {planId : String} (hmem : ∃ p ∈ plans, p.row.id = planId) :
    plan ∈ replaced plans planId next ↔ plan = next ∨ (plan ∈ plans ∧ plan.row.id ≠ planId) := by
  rw [replaced, mem_displayed, List.mem_map]
  constructor
  · rintro ⟨p, hp, rfl⟩
    by_cases hid : p.row.id = planId
    · exact Or.inl (if_pos hid)
    · rw [if_neg hid]
      exact Or.inr ⟨hp, hid⟩
  · rintro (rfl | ⟨hp, hid⟩)
    · obtain ⟨p, hp, hid⟩ := hmem
      exact ⟨p, hp, if_pos hid⟩
    · exact ⟨plan, hp, if_neg hid⟩

/-! ### The checks of both branches -/

theorem validatePlanOptions_cons (option : PricingOptionInput) (options : List PricingOptionInput)
    (mode : BillingMode) : validatePlanOptions (option :: options) mode =
      (validateOptionOf mode option >>= fun _ => validatePlanOptions options mode) := rfl

/-- The check passes exactly when it does for each option. -/
theorem validatePlanOptions_eq_ok {options : List PricingOptionInput} {mode : BillingMode} :
    validatePlanOptions options mode = .ok () ↔ ∀ option ∈ options, validateOptionOf mode option = .ok () := by
  induction options with
  | nil => exact iff_of_true rfl fun _ h => absurd h List.not_mem_nil
  | cons option options ih =>
    rw [validatePlanOptions_cons, List.forall_mem_cons, ← ih]
    cases validateOptionOf mode option with
    | error message => exact iff_of_false (fun h => nomatch h) fun h => nomatch h.1
    | ok u => exact (and_iff_right rfl).symm

/-- The options that are checked in memory are those that are given. -/
theorem validatePlanOptions_rows (planId : String) (options : List PricingOptionInput) (mode : BillingMode) :
    validatePlanOptions ((optionRows host planId options).map PricingOption.input) mode =
      validatePlanOptions options mode := by
  have hfrom : ∀ n, validatePlanOptions (((options.zipIdx n).map fun placed =>
      (toOptionRow host planId (placed.1.id.getD (host.freshId placed.2)) placed.1).input)) mode =
      validatePlanOptions options mode := by
    induction options with
    | nil => exact fun _ => rfl
    | cons option options ih =>
      intro n
      rw [List.zipIdx_cons, List.map_cons, validatePlanOptions_cons, validatePlanOptions_cons, ih]
      rfl
  rw [optionRows, normalizedOptions, List.map_map, List.map_map]
  exact hfrom 0

/-- **The branches make the same checks**: both raise, both find no plan, or the call is
accepted. -/
theorem update_cases (host : Host) (db : Database) (call : PlanCall) :
    (∃ message, updateLocal host (listed db) call = (.error message, listed db) ∧
      updateDatabase host db call = (.error message, db)) ∨
    (findPlan (listed db) call.planId = none ∧ updateLocal host (listed db) call = (.ok none, listed db) ∧
      updateDatabase host db call = (.ok none, db)) ∨
    ∃ current, Accepted db call current := by
  rw [updateLocal, updateDatabase]
  cases hinput : validatePlanInput call.input call.reason with
  | error message => exact Or.inl ⟨message, rfl, rfl⟩
  | ok u =>
    dsimp only
    cases hfound : findPlan (listed db) call.planId with
    | none => exact Or.inr (Or.inl ⟨rfl, rfl, rfl⟩)
    | some current =>
      dsimp only
      cases heditable : assertBillingModeIsEditable current call.input call.policy with
      | error message => exact Or.inl ⟨message, rfl, rfl⟩
      | ok u =>
        dsimp only [toLocalPlan]
        rw [validatePlanOptions_rows]
        cases hoptions : validatePlanOptions (givenOptions call.input current) call.input.billingMode with
        | error message => exact Or.inl ⟨message, rfl, rfl⟩
        | ok u => exact Or.inr (Or.inr ⟨current, ⟨hinput, hfound, heditable, hoptions⟩⟩)

/-! ### The writes -/

/-- The row of an option is one of the plan's. -/
theorem planId_of_newRows (hx : x ∈ newRows host call current) : x.planId = call.planId := by
  obtain ⟨entry, -, rfl⟩ := List.mem_map.mp hx
  rfl

theorem mem_withdraw {referenced : String → Bool} {stale : List PricingOption} :
    o ∈ (t.withdraw referenced stale).rows ↔
      (o ∈ t.rows ∧ ∀ c ∈ stale, c.id ≠ o.id) ∨
        ∃ x ∈ t.rows, (∃ c ∈ stale, c.id = x.id) ∧ referenced x.id = true ∧ o = x.inactive := by
  have hstale : ∀ {o : PricingOption}, (stale.map PricingOption.id).contains o.id = true ↔ ∃ c ∈ stale, c.id = o.id := by
    intro o
    rw [List.contains_iff_mem, List.mem_map]
  rw [OptionTable.withdraw, Table.rows_update, mem_setWhere]
  constructor
  · rintro ⟨x, hx, rfl⟩
    obtain ⟨hmem, hkept⟩ := Table.mem_delete.mp hx
    split
    · next h =>
      rw [Bool.and_eq_true, hstale] at h
      exact Or.inr ⟨x, hmem, h.1, h.2, rfl⟩
    · next h =>
      refine Or.inl ⟨hmem, fun c hc heq => h ?_⟩
      rw [Bool.and_eq_true]
      have hcontains := hstale.mpr ⟨c, hc, heq⟩
      rw [hcontains, Bool.true_and, Bool.not_eq_false'] at hkept
      exact ⟨hcontains, hkept⟩
  · rintro (⟨hmem, hnone⟩ | ⟨x, hmem, hex, hreferenced, rfl⟩)
    · have hcontains : (stale.map PricingOption.id).contains o.id = false := by
        refine Bool.eq_false_of_not_eq_true fun h => ?_
        obtain ⟨c, hc, heq⟩ := hstale.mp h
        exact hnone c hc heq
      refine ⟨o, Table.mem_delete.mpr ⟨hmem, by rw [hcontains, Bool.false_and]⟩, ?_⟩
      rw [hcontains, Bool.false_and, if_neg Bool.false_ne_true]
    · have hcontains := hstale.mpr hex
      refine ⟨x, Table.mem_delete.mpr ⟨hmem, by rw [hreferenced, Bool.not_true, Bool.and_false]⟩, ?_⟩
      rw [hcontains, hreferenced, Bool.and_self, if_pos rfl]

/-- The plan has an option with the id of a row. -/
def Known (current : PricingPlan) (row : PricingOption) : Prop := ∃ c ∈ current.options, c.id = row.id

theorem known_iff : (current.options.any fun option => decide (option.id = row.id)) = true ↔ Known current row := by
  simp [Known]

/-- **What a write needs**: that the row has an option of the plan or a new id, and that no
other row has its identity. -/
theorem isSome_writeOption (hpresent : Known current row → ∃ y ∈ t.rows, y.id = row.id) :
    (writeOption current t row).isSome = true ↔ row.storable = true ∧
      (Known current row ∨ ∀ y ∈ t.rows, y.id ≠ row.id) ∧
      ∀ y ∈ t.rows, y.id ≠ row.id → y.identity ≠ row.identity := by
  rw [writeOption]
  split
  · next h =>
    have hknown := known_iff.mp h
    rw [Table.modify?_key (hpresent hknown)]
    exact and_congr_right' (by rw [and_iff_right (Or.inl hknown)])
  · next h =>
    have hnew : ¬ Known current row := fun hknown => h (known_iff.mpr hknown)
    rw [or_iff_right hnew]
    constructor
    · intro hsome
      obtain ⟨t', ht'⟩ := Option.isSome_iff_exists.mp hsome
      obtain ⟨-, hstorable, hid, hidentity⟩ := Table.insert?_eq_some ht'
      exact ⟨hstorable, hid, fun y hy _ => hidentity y hy⟩
    · rintro ⟨hstorable, hid, hidentity⟩
      obtain ⟨t', ht'⟩ := Table.exists_insert?_eq_some hstorable hid fun y hy => hidentity y hy (hid y hy)
      rw [ht']
      rfl

/-- What a write leaves. -/
theorem mem_writeOption (hpresent : Known current row → ∃ y ∈ t.rows, y.id = row.id)
    (h : writeOption current t row = some t') : x ∈ t'.rows ↔ x = row ∨ (x ∈ t.rows ∧ x.id ≠ row.id) := by
  rw [writeOption] at h
  split at h
  · next hany =>
    rw [Table.rows_modify? h]
    exact Table.mem_setWhere_key (hpresent (known_iff.mp hany))
  · obtain ⟨hrows, -, hid, -⟩ := Table.insert?_eq_some h
    rw [hrows, List.mem_append, List.mem_singleton, or_comm]
    exact or_congr_right (and_iff_left_of_imp (hid x)).symm

/-- The last row with an id. -/
def lastRow (rows : List PricingOption) (id : String) : Option PricingOption :=
  rows.reverse.find? fun row => decide (row.id = id)

theorem lastRow_cons (row : PricingOption) (rows : List PricingOption) (id : String) :
    lastRow (row :: rows) id = (lastRow rows id).or (if row.id = id then some row else none) := by
  rw [lastRow, List.reverse_cons, List.find?_append, lastRow]
  congr 1
  rw [List.find?_singleton]
  simp

theorem lastRow_eq_none {id : String} : lastRow rows id = none ↔ ∀ row ∈ rows, row.id ≠ id := by
  rw [lastRow, List.find?_eq_none]
  simp

theorem of_lastRow {id : String} (h : lastRow rows id = some x) : x ∈ rows ∧ x.id = id := by
  refine ⟨List.mem_reverse.mp (List.mem_of_find?_eq_some h), ?_⟩
  simpa using List.find?_some h

/-- The ids that are there stay there. -/
theorem present_writeOption (hpresent : Known current row → ∃ y ∈ t.rows, y.id = row.id)
    (h : writeOption current t row = some t') {id : String} (hid : ∃ y ∈ t.rows, y.id = id) :
    ∃ y ∈ t'.rows, y.id = id := by
  obtain ⟨y, hy, rfl⟩ := hid
  by_cases heq : y.id = row.id
  · exact ⟨row, (mem_writeOption hpresent h).mpr (Or.inl rfl), heq.symm⟩
  · exact ⟨y, (mem_writeOption hpresent h).mpr (Or.inr ⟨hy, heq⟩), rfl⟩

/-- **What the writes leave**: the last row of each id, and what has no id of theirs. -/
theorem mem_writes (hpresent : ∀ row ∈ rows, Known current row → ∃ y ∈ t.rows, y.id = row.id)
    (h : rows.foldlM (writeOption current) t = some t') : x ∈ t'.rows ↔
      lastRow rows x.id = some x ∨ (x ∈ t.rows ∧ lastRow rows x.id = none) := by
  induction rows generalizing t with
  | nil =>
    obtain rfl := Option.some.inj h
    exact ⟨fun hx => Or.inr ⟨hx, rfl⟩, fun hx => hx.elim (fun hnone => nomatch hnone) And.left⟩
  | cons row rows ih =>
    obtain ⟨hrow, hrows⟩ := List.forall_mem_cons.mp hpresent
    rw [List.foldlM_cons, Option.bind_eq_bind, Option.bind_eq_some_iff] at h
    obtain ⟨t₁, ht₁, h⟩ := h
    have hstep := ih (fun row' hrow' hknown => present_writeOption hrow ht₁ (hrows row' hrow' hknown)) h
    rw [hstep, mem_writeOption hrow ht₁, lastRow_cons]
    cases lastRow rows x.id with
    | some y => simp
    | none =>
      rw [Option.none_or]
      by_cases hid : row.id = x.id
      · rw [if_pos hid]
        simp only [reduceCtorEq, false_or, and_true, Option.some.injEq, and_false, or_false]
        constructor
        · rintro (rfl | ⟨-, hne⟩)
          · rfl
          · exact absurd hid.symm hne
        · exact fun heq => Or.inl heq.symm
      · rw [if_neg hid]
        simp only [reduceCtorEq, false_or, and_true]
        constructor
        · rintro (rfl | ⟨hx, -⟩)
          · exact absurd rfl hid
          · exact hx
        · exact fun hx => Or.inr ⟨hx, Ne.symm hid⟩

/-- A row can be written behind earlier ones to what is stored. -/
def Writable (current : PricingPlan) (stored earlier : List PricingOption) (o : PricingOption) : Prop :=
  o.storable = true ∧
    (Known current o ∨ (∀ y ∈ stored, y.id ≠ o.id) ∧ ∀ y ∈ earlier, y.id ≠ o.id) ∧
    (∀ y ∈ earlier, y.id ≠ o.id → y.identity ≠ o.identity) ∧
    ∀ y ∈ stored, (∀ z ∈ earlier, z.id ≠ y.id) → y.id ≠ o.id → y.identity ≠ o.identity

/-- A row that is written is an earlier one for those behind it. -/
theorem writable_after {earlier stored stored' : List PricingOption}
    (hstored : ∀ x, x ∈ stored' ↔ x = row ∨ (x ∈ stored ∧ x.id ≠ row.id))
    (hsingle : ∀ y ∈ earlier, y.id = row.id → y = row) :
    Writable current stored' earlier o ↔ Writable current stored (row :: earlier) o := by
  have hids : (∀ y ∈ stored', y.id ≠ o.id) ↔ (∀ y ∈ stored, y.id ≠ o.id) ∧ row.id ≠ o.id := by
    constructor
    · intro h
      have hrow := h row ((hstored row).mpr (Or.inl rfl))
      refine ⟨fun y hy => ?_, hrow⟩
      by_cases heq : y.id = row.id
      · exact heq ▸ hrow
      · exact h y ((hstored y).mpr (Or.inr ⟨hy, heq⟩))
    · rintro ⟨h, hrow⟩ y hy
      rcases (hstored y).mp hy with rfl | ⟨hy, -⟩
      · exact hrow
      · exact h y hy
  rw [Writable, Writable, hids, List.forall_mem_cons, List.forall_mem_cons]
  refine and_congr_right' (and_congr (or_congr_right and_assoc) ?_)
  constructor
  · rintro ⟨hearlier, hrest⟩
    refine ⟨⟨fun hne => ?_, hearlier⟩, fun y hy hall hne => ?_⟩
    · by_cases hagain : ∃ z ∈ earlier, z.id = row.id
      · -- the row is written once more before the other one
        obtain ⟨z, hz, hzid⟩ := hagain
        exact hsingle z hz hzid ▸ hearlier z hz (hzid ▸ hne)
      · exact hrest row ((hstored row).mpr (Or.inl rfl)) (fun z hz heq => hagain ⟨z, hz, heq⟩) hne
    · obtain ⟨hrow, hall⟩ := List.forall_mem_cons.mp hall
      exact hrest y ((hstored y).mpr (Or.inr ⟨hy, Ne.symm hrow⟩)) hall hne
  · rintro ⟨⟨hrow, hearlier⟩, hrest⟩
    refine ⟨hearlier, fun y hy hall hne => ?_⟩
    rcases (hstored y).mp hy with rfl | ⟨hy, hid⟩
    · exact hrow hne
    · exact hrest y hy (List.forall_mem_cons.mpr ⟨Ne.symm hid, hall⟩) hne

/-- **When the writes go through**: each row can be written behind those before it. -/
theorem isSome_writes (hpresent : ∀ row ∈ rows, Known current row → ∃ y ∈ t.rows, y.id = row.id)
    (hsingle : ∀ x ∈ rows, ∀ y ∈ rows, x.id = y.id → x = y) :
    (rows.foldlM (writeOption current) t).isSome = true ↔
      ∀ earlier o later, rows = earlier ++ o :: later → Writable current t.rows earlier o := by
  induction rows generalizing t with
  | nil =>
    refine iff_of_true rfl fun earlier o later heq => ?_
    cases earlier <;> cases heq
  | cons row rows ih =>
    obtain ⟨hrow, hrows⟩ := List.forall_mem_cons.mp hpresent
    have hfirst : Writable current t.rows [] row ↔ (writeOption current t row).isSome = true := by
      rw [isSome_writeOption hrow, Writable]
      simp
    have hrest : ∀ {t₁ : OptionTable}, writeOption current t row = some t₁ →
        ((rows.foldlM (writeOption current) t₁).isSome = true ↔ ∀ earlier o later,
          rows = earlier ++ o :: later → Writable current t.rows (row :: earlier) o) := by
      intro t₁ ht₁
      rw [ih (fun row' hrow' hknown => present_writeOption hrow ht₁ (hrows row' hrow' hknown))
        fun x hx y hy => hsingle x (List.mem_cons_of_mem _ hx) y (List.mem_cons_of_mem _ hy)]
      refine forall₃_congr fun earlier o later => ?_
      refine imp_congr_right fun heq => writable_after (fun x => mem_writeOption hrow ht₁) ?_
      intro y hy hid
      have hmem : y ∈ rows := by rw [heq]; exact List.mem_append_left _ hy
      exact hsingle y (List.mem_cons_of_mem _ hmem) row List.mem_cons_self hid
    rw [List.foldlM_cons, Option.bind_eq_bind]
    constructor
    · intro hsome earlier o later heq
      cases hwrite : writeOption current t row with
      | none => rw [hwrite] at hsome; cases hsome
      | some t₁ =>
        rw [hwrite] at hsome
        cases earlier with
        | nil =>
          obtain ⟨rfl, -⟩ := List.cons.inj heq
          exact hfirst.mpr (by rw [hwrite]; rfl)
        | cons y earlier =>
          obtain ⟨rfl, htail⟩ := List.cons.inj heq
          exact (hrest hwrite).mp hsome earlier o later htail
    · intro hall
      obtain ⟨t₁, ht₁⟩ := Option.isSome_iff_exists.mp (hfirst.mp (hall [] row rows rfl))
      rw [ht₁]
      exact (hrest ht₁).mpr fun earlier o later heq => hall (row :: earlier) o later (congrArg (row :: ·) heq)

/-- A row that is written has an option of the plan or no other one's id. -/
theorem known_or_new (hpresent : ∀ row ∈ rows, Known current row → ∃ y ∈ t.rows, y.id = row.id)
    (h : (rows.foldlM (writeOption current) t).isSome = true) (ho : o ∈ rows) :
    Known current o ∨ ∀ y ∈ t.rows, y.id ≠ o.id := by
  induction rows generalizing t with
  | nil => cases ho
  | cons row rows ih =>
    obtain ⟨hrow, hrows⟩ := List.forall_mem_cons.mp hpresent
    rw [List.foldlM_cons, Option.bind_eq_bind] at h
    cases hwrite : writeOption current t row with
    | none => rw [hwrite] at h; cases h
    | some t₁ =>
      rw [hwrite] at h
      rcases List.mem_cons.mp ho with rfl | ho
      · exact ((isSome_writeOption hrow).mp (by rw [hwrite]; rfl)).2.1
      · refine (ih (fun row' hrow' hknown => present_writeOption hrow hwrite (hrows row' hrow' hknown))
          h ho).imp_right fun hnew y hy => ?_
        obtain ⟨y', hy', hid⟩ := present_writeOption hrow hwrite ⟨y, hy, rfl⟩
        exact hid ▸ hnew y' hy'

/-! ### The transaction -/

/-- The options of the plan that are not given any more. -/
def staleOptions (current : PricingPlan) (rows : List PricingOption) : List PricingOption :=
  current.options.filter fun option => !rows.any fun row => decide (row.id = option.id)

theorem mem_staleOptions : o ∈ staleOptions current rows ↔ o ∈ current.options ∧ lastRow rows o.id = none := by
  rw [staleOptions, List.mem_filter, lastRow_eq_none]
  simp

theorem transaction_eq_some : transaction host db call current = some db' ↔
    ∃ plans options, db.plans.modify? (fun r => decide (r.id = call.planId))
        (fun _ => toPlanRow call.planId call.input) = some plans ∧
      (newRows host call current).foldlM (writeOption current)
        (db.options.withdraw db.referenced (staleOptions current (newRows host call current))) = some options ∧
      (auditTexts call (normalizedOptions host (givenOptions call.input current))).all storableText = true ∧
      db' = { db with plans, options } := by
  simp only [transaction, Option.bind_eq_bind, Option.bind_eq_some_iff]
  constructor
  · rintro ⟨plans, hplans, options, hoptions, h⟩
    split at h
    · next haudit => exact ⟨plans, options, hplans, hoptions, haudit, (Option.some.inj h).symm⟩
    · cases h
  · rintro ⟨plans, options, hplans, hoptions, haudit, rfl⟩
    exact ⟨plans, hplans, options, hoptions, if_pos haudit⟩

/-- A row of the plan's option finds it where the others are withdrawn. -/
theorem present_withdraw (hcurrent : current ∈ listed db) (hrow : row ∈ rows) (hknown : Known current row) :
    ∃ y ∈ (db.options.withdraw db.referenced (staleOptions current rows)).rows, y.id = row.id := by
  obtain ⟨c, hc, hid⟩ := hknown
  refine ⟨c, mem_withdraw.mpr (Or.inl ⟨((mem_options hcurrent).mp hc).1, fun s hs heq => ?_⟩), hid⟩
  exact lastRow_eq_none.mp (mem_staleOptions.mp hs).2 row hrow (hid.symm.trans heq.symm)

/-- What the transaction leaves of the plans. -/
theorem mem_plans_of_transaction (hcurrent : current ∈ listed db) (hid : current.row.id = call.planId)
    (h : transaction host db call current = some db') {r : PlanRow} :
    r ∈ db'.plans.rows ↔ r = toPlanRow call.planId call.input ∨ (r ∈ db.plans.rows ∧ r.id ≠ call.planId) := by
  obtain ⟨plans, options, hplans, -, -, rfl⟩ := transaction_eq_some.mp h
  obtain ⟨r', hr', -, rfl⟩ := mem_listed.mp hcurrent
  rw [Table.rows_modify? hplans]
  exact @Table.mem_setWhere_key _ _ _ PlanRow.id _ _ db.plans _ (toPlanRow call.planId call.input) r ⟨r', hr', hid⟩

/-- The options of other plans stay. -/
theorem mem_others_of_transaction (hcurrent : current ∈ listed db) (hid : current.row.id = call.planId)
    (h : transaction host db call current = some db') (hother : o.planId ≠ call.planId) :
    o ∈ db'.options.rows ↔ o ∈ db.options.rows := by
  obtain ⟨plans, options, -, hoptions, -, rfl⟩ := transaction_eq_some.mp h
  have hpresent : ∀ row ∈ newRows host call current, Known current row → ∃ y ∈ (db.options.withdraw
      db.referenced (staleOptions current (newRows host call current))).rows, y.id = row.id :=
    fun row hrow => present_withdraw hcurrent hrow
  have hforeign : ∀ c ∈ current.options, c.id = o.id → o ∉ db.options.rows := by
    intro c hc heq ho
    obtain ⟨hmem, hplan⟩ := (mem_options hcurrent).mp hc
    exact hother ((Table.eq_of_pk hmem ho heq) ▸ hplan.trans hid)
  rw [mem_writes hpresent hoptions, mem_withdraw]
  constructor
  · rintro (hlast | ⟨⟨ho, -⟩ | ⟨x, hx, ⟨c, hc, heq⟩, -, rfl⟩, -⟩)
    · exact absurd (planId_of_newRows (of_lastRow hlast).1) hother
    · exact ho
    · obtain ⟨hmem, hplan⟩ := (mem_options hcurrent).mp (mem_staleOptions.mp hc).1
      exact absurd ((Table.eq_of_pk hmem hx heq) ▸ hplan.trans hid) hother
  · intro ho
    have hstays : o ∈ (db.options.withdraw db.referenced
        (staleOptions current (newRows host call current))).rows :=
      mem_withdraw.mpr (Or.inl ⟨ho, fun c hc heq => hforeign c (mem_staleOptions.mp hc).1 heq ho⟩)
    refine Or.inr ⟨mem_withdraw.mp hstays, ?_⟩
    cases hlast : lastRow (newRows host call current) o.id with
    | none => rfl
    | some y =>
      obtain ⟨hy, hyid⟩ := of_lastRow hlast
      rcases known_or_new hpresent (by rw [hoptions]; rfl) hy with ⟨c, hc, heq⟩ | hnew
      · exact absurd ho (hforeign c hc (heq.trans hyid))
      · exact absurd hyid.symm (hnew o hstays)

/-- **The plan's own options** are the last rows of their ids, and those that are kept inactive. -/
theorem mem_own_of_transaction (hcurrent : current ∈ listed db) (hid : current.row.id = call.planId)
    (h : transaction host db call current = some db') (hown : o.planId = call.planId) :
    o ∈ db'.options.rows ↔ lastRow (newRows host call current) o.id = some o ∨
      ∃ c ∈ current.options, db.referenced c.id = true ∧ lastRow (newRows host call current) c.id = none ∧
        o = c.inactive := by
  obtain ⟨plans, options, -, hoptions, -, rfl⟩ := transaction_eq_some.mp h
  rw [mem_writes (fun row hrow => present_withdraw hcurrent hrow) hoptions, mem_withdraw]
  refine or_congr_right ?_
  constructor
  · rintro ⟨⟨ho, hstale⟩ | ⟨x, hx, ⟨c, hc, heq⟩, hreferenced, rfl⟩, hnone⟩
    · have hmem : o ∈ current.options := (mem_options hcurrent).mpr ⟨ho, hown.trans hid.symm⟩
      exact absurd rfl (hstale o (mem_staleOptions.mpr ⟨hmem, hnone⟩))
    · obtain ⟨hmem, hlast⟩ := mem_staleOptions.mp hc
      obtain rfl := Table.eq_of_pk ((mem_options hcurrent).mp hmem).1 hx heq
      exact ⟨c, hmem, hreferenced, hlast, rfl⟩
  · rintro ⟨c, hc, hreferenced, hlast, rfl⟩
    exact ⟨Or.inr ⟨c, ((mem_options hcurrent).mp hc).1, ⟨c, mem_staleOptions.mpr ⟨hc, hlast⟩, rfl⟩,
      hreferenced, rfl⟩, hlast⟩

/-- The plan as an update leaves it in memory. -/
def nextPlan (host : Host) (call : PlanCall) (current : PricingPlan) : PricingPlan :=
  ⟨toPlanRow call.planId call.input, newRows host call current⟩

/-- After the transaction, the options of the plan are the given ones exactly when none is kept
and none is given in two ways. -/
theorem own_options_iff (hcurrent : current ∈ listed db) (hid : current.row.id = call.planId)
    (h : transaction host db call current = some db') :
    (∀ o, (o ∈ db'.options.rows ∧ o.planId = call.planId) ↔ o ∈ newRows host call current) ↔
      (∀ c ∈ current.options, db.referenced c.id = true → ∃ x ∈ newRows host call current, x.id = c.id) ∧
        ∀ x ∈ newRows host call current, ∀ y ∈ newRows host call current, x.id = y.id → x = y := by
  constructor
  · intro hown
    constructor
    · intro c hc hreferenced
      by_contra hnone
      have hlast : lastRow (newRows host call current) c.id = none :=
        lastRow_eq_none.mpr fun row hrow heq => hnone ⟨row, hrow, heq⟩
      -- the option is kept as an inactive one
      have hplan : c.inactive.planId = call.planId := ((mem_options hcurrent).mp hc).2.trans hid
      have hkept : c.inactive ∈ newRows host call current :=
        (hown _).mp ⟨(mem_own_of_transaction hcurrent hid h hplan).mpr
          (Or.inr ⟨c, hc, hreferenced, hlast, rfl⟩), hplan⟩
      exact hnone ⟨_, hkept, rfl⟩
    · have hlast : ∀ x ∈ newRows host call current, lastRow (newRows host call current) x.id = some x := by
        intro x hx
        rcases (mem_own_of_transaction hcurrent hid h (planId_of_newRows hx)).mp ((hown x).mpr hx).1 with
          hlast | ⟨c, -, -, hnone, rfl⟩
        · exact hlast
        · exact absurd rfl (lastRow_eq_none.mp hnone c.inactive hx)
      intro x hx y hy heq
      have hx' := hlast x hx
      rw [heq, hlast y hy] at hx'
      exact (Option.some.inj hx').symm
  · rintro ⟨hkept, hsingle⟩ o
    constructor
    · rintro ⟨ho, hplan⟩
      rcases (mem_own_of_transaction hcurrent hid h hplan).mp ho with hlast | ⟨c, hc, hreferenced, hnone, -⟩
      · exact (of_lastRow hlast).1
      · obtain ⟨x, hx, heq⟩ := hkept c hc hreferenced
        exact absurd heq (lastRow_eq_none.mp hnone x hx)
    · intro ho
      refine ⟨(mem_own_of_transaction hcurrent hid h (planId_of_newRows ho)).mpr (Or.inl ?_),
        planId_of_newRows ho⟩
      cases hlast : lastRow (newRows host call current) o.id with
      | none => exact absurd rfl (lastRow_eq_none.mp hlast o ho)
      | some y => rw [hsingle y (of_lastRow hlast).1 o ho (of_lastRow hlast).2]

/-- The catalogs are the same after the transaction exactly when the plan is listed with the
given options. -/
theorem sameCatalog_iff (hcurrent : current ∈ listed db) (hid : current.row.id = call.planId)
    (h : transaction host db call current = some db') :
    SameCatalog (replaced (listed db) call.planId (nextPlan host call current)) (listed db') ↔
      (toPlanRow call.planId call.input).tenantId = "platform" ∧
        ∀ o, (o ∈ db'.options.rows ∧ o.planId = call.planId) ↔ o ∈ newRows host call current := by
  have hthere : ∃ p ∈ listed db, p.row.id = call.planId := ⟨current, hcurrent, hid⟩
  constructor
  · rintro ⟨hwithin, -⟩
    obtain ⟨plan', hplan', hrow, hoptions⟩ := hwithin _ ((mem_replaced hthere).mpr (Or.inl rfl))
    have hplanId : plan'.row.id = call.planId := congrArg PlanRow.id hrow
    constructor
    · obtain ⟨r, -, htenant, rfl⟩ := mem_listed.mp hplan'
      rw [← htenant]
      exact (congrArg PlanRow.tenantId hrow).symm
    · intro o
      rw [← hplanId, ← mem_options hplan', hoptions o]
      rfl
  · rintro ⟨htenant, hown⟩
    have hother : ∀ r : PlanRow, r.id ≠ call.planId → ∀ o, (o ∈ db'.options.rows ∧ o.planId = r.id) ↔
        (o ∈ db.options.rows ∧ o.planId = r.id) := by
      intro r hr o
      exact and_congr_left fun heq => mem_others_of_transaction hcurrent hid h (heq ▸ hr)
    constructor
    · intro plan hplan
      rcases (mem_replaced hthere).mp hplan with rfl | ⟨hplan, hne⟩
      · refine ⟨_, mem_listed.mpr ⟨_, (mem_plans_of_transaction hcurrent hid h).mpr (Or.inl rfl), htenant, rfl⟩,
          rfl, fun o => ?_⟩
        rw [List.mem_filter, decide_eq_true_eq]
        exact hown o
      · obtain ⟨r, hr, hplatform, rfl⟩ := mem_listed.mp hplan
        refine ⟨_, mem_listed.mpr ⟨r, (mem_plans_of_transaction hcurrent hid h).mpr (Or.inr ⟨hr, hne⟩),
          hplatform, rfl⟩, rfl, fun o => ?_⟩
        rw [List.mem_filter, List.mem_filter, decide_eq_true_eq]
        exact hother r hne o
    · intro plan hplan
      obtain ⟨r, hr, hplatform, rfl⟩ := mem_listed.mp hplan
      rcases (mem_plans_of_transaction hcurrent hid h).mp hr with rfl | ⟨hr, hne⟩
      · refine ⟨_, (mem_replaced hthere).mpr (Or.inl rfl), rfl, fun o => ?_⟩
        rw [List.mem_filter, decide_eq_true_eq]
        exact (hown o).symm
      · refine ⟨_, (mem_replaced hthere).mpr (Or.inr ⟨mem_listed.mpr ⟨r, hr, hplatform, rfl⟩, hne⟩), rfl,
          fun o => ?_⟩
        rw [List.mem_filter, List.mem_filter, decide_eq_true_eq]
        exact (hother r hne o).symm

/-- Where every option that is left out is deleted, these are the options that stay. -/
theorem mem_withdraw_of_kept
    (hkept : ∀ c ∈ current.options, db.referenced c.id = true → ∃ x ∈ rows, x.id = c.id) :
    x ∈ (db.options.withdraw db.referenced (staleOptions current rows)).rows ↔
      x ∈ db.options.rows ∧ ∀ c ∈ staleOptions current rows, c.id ≠ x.id := by
  rw [mem_withdraw]
  refine or_iff_left ?_
  rintro ⟨y, -, ⟨c, hc, heq⟩, hreferenced, -⟩
  obtain ⟨hmem, hnone⟩ := mem_staleOptions.mp hc
  obtain ⟨z, hz, hid⟩ := hkept c hmem (heq ▸ hreferenced)
  exact lastRow_eq_none.mp hnone z hz hid

/-- A row can be written to what stays exactly when it is its turn. -/
theorem writable_iff (hcurrent : current ∈ listed db)
    (hkept : ∀ c ∈ current.options, db.referenced c.id = true → ∃ x ∈ rows, x.id = c.id)
    (hplan : ∀ x ∈ rows, x.planId = current.row.id) {earlier : List PricingOption} (ho : o ∈ rows) :
    Writable current (db.options.withdraw db.referenced (staleOptions current rows)).rows earlier o ↔
      o.storable = true ∧
      ((∃ c ∈ current.options, c.id = o.id) ∨
        (∀ c ∈ db.options.rows, c.id ≠ o.id) ∧ ∀ x ∈ earlier, x.id ≠ o.id) ∧
      (∀ x ∈ earlier, x.id ≠ o.id → x.identity ≠ o.identity) ∧
      ∀ c ∈ current.options, (∃ x ∈ rows, x.id = c.id) → (∀ x ∈ earlier, x.id ≠ c.id) → c.id ≠ o.id →
        c.identity ≠ o.identity := by
  have hstays : ∀ {c : PricingOption}, c ∈ db.options.rows → (∃ x ∈ rows, x.id = c.id) →
      c ∈ (db.options.withdraw db.referenced (staleOptions current rows)).rows := by
    rintro c hc ⟨x, hx, hid⟩
    refine (mem_withdraw_of_kept hkept).mpr ⟨hc, fun s hs heq => ?_⟩
    exact lastRow_eq_none.mp (mem_staleOptions.mp hs).2 x hx (hid.trans heq.symm)
  have hids : (∀ y ∈ (db.options.withdraw db.referenced (staleOptions current rows)).rows, y.id ≠ o.id) ↔
      ∀ c ∈ db.options.rows, c.id ≠ o.id := by
    constructor
    · intro h c hc heq
      exact h c (hstays hc ⟨o, ho, heq.symm⟩) heq
    · exact fun h y hy => h y ((mem_withdraw_of_kept hkept).mp hy).1
  rw [Writable, hids]
  refine and_congr_right' (and_congr_right' (and_congr_right' ?_))
  constructor
  · intro h c hc hrow hearlier hne
    exact h c (hstays ((mem_options hcurrent).mp hc).1 hrow) hearlier hne
  · intro h y hy hearlier hne
    obtain ⟨hmem, hstale⟩ := (mem_withdraw_of_kept hkept).mp hy
    by_cases hown : y.planId = current.row.id
    · have hoption : y ∈ current.options := (mem_options hcurrent).mpr ⟨hmem, hown⟩
      cases hlast : lastRow rows y.id with
      | none => exact absurd rfl (hstale y (mem_staleOptions.mpr ⟨hoption, hlast⟩))
      | some x => exact h y hoption ⟨x, of_lastRow hlast⟩ hearlier hne
    · -- options of different plans have different identities
      exact fun heq => hown ((congrArg Prod.fst heq).trans (hplan o ho))

/-- The writes go through exactly when the columns can hold the options and each is in turn. -/
theorem isSome_writes_iff (hcurrent : current ∈ listed db)
    (hkept : ∀ c ∈ current.options, db.referenced c.id = true → ∃ x ∈ rows, x.id = c.id)
    (hsingle : ∀ x ∈ rows, ∀ y ∈ rows, x.id = y.id → x = y)
    (hplan : ∀ x ∈ rows, x.planId = current.row.id) :
    (rows.foldlM (writeOption current)
      (db.options.withdraw db.referenced (staleOptions current rows))).isSome = true ↔
      (∀ x ∈ rows, x.storable = true) ∧ InTurn db current rows := by
  rw [isSome_writes (fun row hrow => present_withdraw hcurrent hrow) hsingle]
  have hmem : ∀ {earlier o later}, rows = earlier ++ o :: later → o ∈ rows := by
    rintro earlier o later rfl
    exact List.mem_append_right _ List.mem_cons_self
  constructor
  · intro h
    constructor
    · intro x hx
      obtain ⟨earlier, later, heq⟩ := List.append_of_mem hx
      exact (h earlier x later heq).1
    · intro earlier o later heq
      exact ((writable_iff hcurrent hkept hplan (hmem heq)).mp (h earlier o later heq)).2
  · rintro ⟨hstorable, hturn⟩ earlier o later heq
    exact (writable_iff hcurrent hkept hplan (hmem heq)).mpr ⟨hstorable o (hmem heq), hturn earlier o later heq⟩

/-- **When the transaction goes through.** -/
theorem transaction_isSome_iff (hcurrent : current ∈ listed db) (hid : current.row.id = call.planId)
    (hplatform : (toPlanRow call.planId call.input).tenantId = "platform")
    (hkept : ∀ c ∈ current.options, db.referenced c.id = true →
      ∃ x ∈ newRows host call current, x.id = c.id)
    (hsingle : ∀ x ∈ newRows host call current, ∀ y ∈ newRows host call current, x.id = y.id → x = y) :
    (transaction host db call current).isSome = true ↔ Carries host db call current := by
  have hplans : (db.plans.modify? (fun r => decide (r.id = call.planId))
      fun _ => toPlanRow call.planId call.input).isSome = true ↔
      (toPlanRow call.planId call.input).storable = true ∧ ∀ r ∈ db.plans.rows, r.id ≠ call.planId →
        (r.tenantId, r.code) ≠ ("platform", trimText call.input.code) := by
    obtain ⟨r, hr, -, rfl⟩ := mem_listed.mp hcurrent
    have hkey := @Table.modify?_key _ _ _ PlanRow.id (fun r : PlanRow => (r.tenantId, r.code))
      PlanRow.storable db.plans _ _ (toPlanRow call.planId call.input) ⟨r, hr, hid⟩
    rw [hplatform] at hkey
    exact hkey
  have hwrites := isSome_writes_iff hcurrent hkept hsingle
    (fun x hx => (planId_of_newRows hx).trans hid.symm)
  rw [Option.isSome_iff_exists] at hplans hwrites ⊢
  constructor
  · rintro ⟨db', h⟩
    obtain ⟨plans, options, hmodify, hoptions, haudit, -⟩ := transaction_eq_some.mp h
    obtain ⟨hplan, hcode⟩ := hplans.mp ⟨plans, hmodify⟩
    obtain ⟨hstorable, hturn⟩ := hwrites.mp ⟨options, hoptions⟩
    exact ⟨hplatform, hkept, hsingle, hcode, hturn, hplan, hstorable, haudit⟩
  · intro h
    obtain ⟨plans, hmodify⟩ := hplans.mpr ⟨h.plan, h.code⟩
    obtain ⟨options, hoptions⟩ := hwrites.mpr ⟨h.options, h.inTurn⟩
    exact ⟨_, transaction_eq_some.mpr ⟨plans, options, hmodify, hoptions, h.audit, rfl⟩⟩

/-! ### Agreement -/

theorem Accepted.mem (h : Accepted db call current) : current ∈ listed db ∧ current.row.id = call.planId :=
  findPlan_eq_some.mp h.found

/-- What an accepted call does in memory. -/
theorem Accepted.updateLocal_eq (h : Accepted db call current) (host : Host) :
    updateLocal host (listed db) call =
      (.ok (some (nextPlan host call current)), replaced (listed db) call.planId (nextPlan host call current)) := by
  rw [updateLocal, h.input]
  dsimp only
  rw [h.found]
  dsimp only
  rw [h.editable]
  dsimp only [toLocalPlan]
  rw [validatePlanOptions_rows, h.options]
  rfl

/-- And on the database. -/
theorem Accepted.updateDatabase_eq (h : Accepted db call current) (host : Host) :
    updateDatabase host db call =
      match transaction host db call current with
      | none => (.error "the transaction failed", db)
      | some db' => (.ok (findPlan (listed db') call.planId), db') := by
  rw [updateDatabase, h.input]
  dsimp only
  rw [h.found]
  dsimp only
  rw [h.editable]
  dsimp only
  rw [h.options]
  all_goals rfl

theorem SameCatalog.refl (plans : List PricingPlan) : SameCatalog plans plans := by
  have hwithin : Within plans plans := fun plan hplan => ⟨plan, hplan, rfl, fun _ => Iff.rfl⟩
  exact ⟨hwithin, hwithin⟩

/-- An accepted call is carried exactly when both branches agree on it. -/
theorem Accepted.agree_iff (h : Accepted db call current) :
    Agree host db call ↔ Carries host db call current := by
  obtain ⟨hcurrent, hid⟩ := h.mem
  rw [Agree, h.updateLocal_eq, h.updateDatabase_eq]
  cases htransaction : transaction host db call current with
  | none =>
    dsimp only
    refine iff_of_false not_false fun hcarries => ?_
    have hsome := (transaction_isSome_iff hcurrent hid hcarries.platform hcarries.kept hcarries.single).mpr hcarries
    rw [htransaction] at hsome
    cases hsome
  | some db' =>
    dsimp only
    rw [sameCatalog_iff hcurrent hid htransaction, own_options_iff hcurrent hid htransaction]
    constructor
    · rintro ⟨hplatform, hkept, hsingle⟩
      exact (transaction_isSome_iff hcurrent hid hplatform hkept hsingle).mp (by rw [htransaction]; rfl)
    · exact fun hcarries => ⟨hcarries.platform, hcarries.kept, hcarries.single⟩

/-- **Both branches agree** exactly when the database carries what is accepted. -/
theorem agree_iff : Agree host db call ↔ ∀ current, Accepted db call current → Carries host db call current := by
  constructor
  · exact fun hagree current h => h.agree_iff.mp hagree
  · intro h
    rcases update_cases host db call with ⟨message, hlocal, hdatabase⟩ | ⟨-, hlocal, hdatabase⟩ | ⟨current, haccepted⟩
    · rw [Agree, hlocal, hdatabase]
      trivial
    · rw [Agree, hlocal, hdatabase]
      exact SameCatalog.refl _
    · exact haccepted.agree_iff.mpr (h current haccepted)

/-! ### A plan that is given back -/

theorem validatePlanInput_eq_ok {input : PricingPlanInput} {reason : String} :
    validatePlanInput input reason = .ok () ↔
      (trimText input.code ≠ "" ∧ trimText input.name ≠ "") ∧ trimText reason ≠ "" := by
  unfold validatePlanInput
  by_cases hnamed : trimText input.code ≠ "" ∧ trimText input.name ≠ ""
  · rw [if_neg (by simp [hnamed.1, hnamed.2]), and_iff_right hnamed]
    by_cases hreason : trimText reason = ""
    · rw [if_pos hreason]
      exact iff_of_false (fun h => nomatch h) fun h => h hreason
    · rw [if_neg hreason]
      exact iff_of_true rfl hreason
  · rw [if_pos (by simpa [or_iff_not_imp_left] using hnamed)]
    exact iff_of_false (fun h => nomatch h) fun h => hnamed h.1

theorem validateOptionOf_eq_ok {option : PricingOptionInput} {mode : BillingMode} :
    validateOptionOf mode option = .ok () ↔ validateOption option = .ok () ∧ option.mode = mode := by
  unfold validateOptionOf
  cases validateOption option with
  | error message => exact iff_of_false (fun h => nomatch h) fun h => nomatch h.1
  | ok u =>
    by_cases hmode : option.mode = mode
    · simp [hmode]
    · refine iff_of_false (fun h => ?_) fun h => hmode h.2
      rw [if_pos hmode] at h
      cases h

/-- Listed options have their ids. -/
theorem normalizedOptions_input (options : List PricingOption) :
    normalizedOptions host (options.map PricingOption.input) = options.map fun o => (o.id, o.input) := by
  have hfrom : ∀ n, ((options.map PricingOption.input).zipIdx n).map
      (fun placed => (placed.1.id.getD (host.freshId placed.2), placed.1)) =
      options.map fun o => (o.id, o.input) := by
    induction options with
    | nil => exact fun _ => rfl
    | cons o options ih =>
      intro n
      rw [List.map_cons, List.zipIdx_cons, List.map_cons, ih]
      rfl
  exact hfrom 0

/-- The row that is written for an option that is given back. -/
def restored (host : Host) (planId : String) (o : PricingOption) : PricingOption :=
  { o with planId, currency := host.toUpperCase o.currency }

theorem newRows_back : newRows host (call.back plan) plan = plan.options.map (restored host plan.row.id) := by
  have hgiven : givenOptions (call.back plan).input plan = plan.options.map PricingOption.input := rfl
  rw [newRows, hgiven, optionRows, normalizedOptions_input, List.map_map]
  rfl

theorem Settled.newRows_back (h : Settled host plan) (hplan : plan ∈ listed db) :
    newRows host (call.back plan) plan = plan.options := by
  rw [Catalog.newRows_back]
  refine (List.map_congr_left fun o ho => ?_).trans (List.map_id _)
  rw [restored, (h.options o ho).1, ← ((mem_options hplan).mp ho).2]
  rfl

theorem Settled.toPlanRow_back (h : Settled host plan) : toPlanRow plan.row.id plan.input = plan.row := by
  have hrow : toPlanRow plan.row.id plan.input = { plan.row with
      code := trimText plan.row.code, name := trimText plan.row.name
      description := trimText plan.row.description } := rfl
  rw [hrow, h.code.1, h.name.1, h.description]

/-- A settled plan passes the checks. -/
theorem Settled.accepted (h : Settled host plan) (hplan : plan ∈ listed db) (hreason : trimText call.reason ≠ "") :
    Accepted db (call.back plan) plan where
  input := by
    refine validatePlanInput_eq_ok.mpr ⟨⟨?_, ?_⟩, hreason⟩
    · exact h.code.1.symm ▸ h.code.2
    · exact h.name.1.symm ▸ h.name.2
  found := findPlan_eq_some.mpr ⟨hplan, rfl⟩
  editable := if_neg fun hmode => hmode.1 rfl
  options := by
    refine validatePlanOptions_eq_ok.mpr fun option hoption => ?_
    obtain ⟨o, ho, rfl⟩ := List.mem_map.mp hoption
    exact validateOptionOf_eq_ok.mpr ⟨(h.options o ho).2.2, (h.options o ho).2.1⟩

/-- What is written down of a plan that is given back are its texts. -/
theorem audit_back (hplan : plan ∈ listed db) (hactor : storableText call.actorUserId = true)
    (hreason : storableText (trimText call.reason) = true) :
    (auditTexts (call.back plan) (normalizedOptions host (givenOptions (call.back plan).input plan))).all
      storableText = true := by
  have hgiven : givenOptions (call.back plan).input plan = plan.options.map PricingOption.input := rfl
  obtain ⟨r, hr, -, rfl⟩ := mem_listed.mp hplan
  have hrow := db.plans.checked r hr
  rw [PlanRow.storable, Bool.and_eq_true, List.all_append, List.all_append, Bool.and_eq_true,
    Bool.and_eq_true] at hrow
  obtain ⟨⟨⟨htexts, hfeatures⟩, hquotas⟩, -⟩ := hrow
  have hoptions : ∀ o ∈ db.options.rows, ([o.id, o.currency] ++ o.providerProductRef.toList ++
      o.providerPriceRef.toList).all storableText = true := by
    intro o ho
    have hstorable := db.options.checked o ho
    simp only [PricingOption.storable, List.all_append, List.all_cons, Bool.and_eq_true] at hstorable ⊢
    exact ⟨⟨⟨hstorable.1.1.1.1.1, hstorable.1.1.1.1.2.2⟩, hstorable.1.1.1.2⟩, hstorable.1.1.2⟩
  rw [hgiven, normalizedOptions_input]
  simp only [List.all_cons, Bool.and_eq_true] at htexts
  simp only [auditTexts, List.all_append, Bool.and_eq_true, List.all_flatMap, List.flatMap_map]
  refine ⟨⟨⟨⟨⟨?_, ?_⟩, ?_⟩, hfeatures⟩, hquotas⟩, ?_⟩
  · simp only [List.all_cons, Bool.and_eq_true]
    exact ⟨hactor, htexts.1, hreason, htexts.2.2.1, htexts.2.2.2.1, rfl⟩
  · exact (Bool.and_true _).trans htexts.2.1
  · exact (Bool.and_true _).trans htexts.2.2.2.2.1
  · refine List.all_eq_true.mpr fun o ho => ?_
    have ho := hoptions o (List.mem_filter.mp ho).1
    rw [List.all_append, List.all_append] at ho
    exact ho

/-- The database carries a settled plan that is given back. -/
theorem Settled.carries (h : Settled host plan) (hplan : plan ∈ listed db)
    (hactor : storableText call.actorUserId = true) (hreason : storableText (trimText call.reason) = true) :
    Carries host db (call.back plan) plan := by
  have hrows : newRows host (call.back plan) plan = plan.options := h.newRows_back hplan
  have hrow : toPlanRow (call.back plan).planId (call.back plan).input = plan.row := h.toPlanRow_back
  have hmem : ∀ {o}, o ∈ plan.options → o ∈ db.options.rows := fun ho => ((mem_options hplan).mp ho).1
  obtain ⟨r, hr, htenant, hplan'⟩ := mem_listed.mp hplan
  have hr' : plan.row = r := by rw [hplan']
  refine ⟨?_, ?_, ?_, ?_, ?_, ?_, ?_, audit_back hplan hactor hreason⟩
  · rw [hrow, hr', htenant]
  · intro c hc _
    exact ⟨c, hrows ▸ hc, rfl⟩
  · rw [hrows]
    exact fun x hx y hy heq => Table.eq_of_pk (hmem hx) (hmem hy) heq
  · intro r' hr'' hne heq
    have hcode : (r'.tenantId, r'.code) = (r.tenantId, r.code) := by
      rw [heq, htenant, ← hr']
      exact congrArg _ h.code.1
    have hsame : r' = r := Table.eq_of_uk hr'' hr hcode
    exact hne ((congrArg PlanRow.id hsame).trans (congrArg PlanRow.id hr'.symm))
  · rw [hrows]
    intro earlier o later heq
    have ho : o ∈ plan.options := heq ▸ List.mem_append_right _ List.mem_cons_self
    have hdistinct : ∀ {x}, x ∈ plan.options → x.id ≠ o.id → x.identity ≠ o.identity := by
      intro x hx hne hidentity
      exact hne (congrArg PricingOption.id (Table.eq_of_uk (hmem hx) (hmem ho) hidentity))
    refine ⟨Or.inl ⟨o, ho, rfl⟩, fun x hx => hdistinct ?_, fun c hc _ _ => hdistinct hc⟩
    rw [heq]
    exact List.mem_append_left _ hx
  · rw [hrow, hr']
    exact db.plans.checked r hr
  · rw [hrows]
    exact fun x hx => db.options.checked x (hmem hx)

theorem SameCatalog.congr {plans' plans'' : List PricingPlan} (hmem : ∀ p, p ∈ plans ↔ p ∈ plans')
    (h : SameCatalog plans plans'') : SameCatalog plans'' plans' := by
  refine ⟨fun plan hplan => ?_, fun plan hplan => h.1 plan ((hmem plan).mpr hplan)⟩
  obtain ⟨plan', hplan', hsame⟩ := h.2 plan hplan
  exact ⟨plan', (hmem plan').mp hplan', hsame⟩

/-- A settled plan can be given back. -/
theorem Settled.readsBack (h : Settled host plan) (hplan : plan ∈ listed db)
    (hgiven : trimText call.reason ≠ "") (hactor : storableText call.actorUserId = true)
    (hreason : storableText (trimText call.reason) = true) :
    ((updateLocal host (listed db) (call.back plan)).1.isOk = true ∧
      SameCatalog (updateLocal host (listed db) (call.back plan)).2 (listed db)) ∧
    (updateDatabase host db (call.back plan)).1.isOk = true ∧
      SameCatalog (listed (updateDatabase host db (call.back plan)).2) (listed db) := by
  have haccepted : Accepted db (call.back plan) plan := h.accepted hplan hgiven
  have hcarries := h.carries hplan hactor hreason
  have hnext : nextPlan host (call.back plan) plan = plan := by
    rw [nextPlan, h.newRows_back hplan, show toPlanRow (call.back plan).planId (call.back plan).input = plan.row
      from h.toPlanRow_back]
  have hmem : ∀ p, p ∈ replaced (listed db) (call.back plan).planId plan ↔ p ∈ listed db := by
    intro p
    have hpresent : ∃ p ∈ listed db, p.row.id = (call.back plan).planId := ⟨plan, hplan, rfl⟩
    rw [mem_replaced hpresent]
    constructor
    · rintro (rfl | ⟨hp, -⟩)
      · exact hplan
      · exact hp
    · intro hp
      by_cases hid : p.row.id = plan.row.id
      · exact Or.inl (eq_of_listed hp hplan hid)
      · exact Or.inr ⟨hp, hid⟩
  have hlocal := haccepted.updateLocal_eq host
  have hdatabase := haccepted.updateDatabase_eq host
  obtain ⟨db', hdb'⟩ := Option.isSome_iff_exists.mp
    ((transaction_isSome_iff hplan rfl hcarries.platform hcarries.kept hcarries.single).mpr hcarries)
  have hagree := haccepted.agree_iff.mpr hcarries
  rw [hdb'] at hdatabase
  rw [Agree, hlocal, hdatabase, hnext] at hagree
  rw [hlocal, hdatabase, hnext]
  refine ⟨⟨rfl, ?_⟩, rfl, hagree.congr hmem⟩
  exact (SameCatalog.refl _).congr hmem

/-- A call that returns from memory passed the checks. -/
theorem accepted_of_isOk (hplan : plan ∈ listed db)
    (h : (updateLocal host (listed db) (call.back plan)).1.isOk = true) :
    Accepted db (call.back plan) plan := by
  have hfound : findPlan (listed db) (call.back plan).planId = some plan := findPlan_eq_some.mpr ⟨hplan, rfl⟩
  rcases update_cases host db (call.back plan) with ⟨message, hlocal, -⟩ | ⟨hnone, -, -⟩ | ⟨current, haccepted⟩
  · rw [hlocal] at h
    cases h
  · rw [hfound] at hnone
    cases hnone
  · have heq := haccepted.found.symm.trans hfound
    obtain rfl := Option.some.inj heq
    exact haccepted

/-- A plan that leaves the catalog in memory what it was is settled. -/
theorem settled_of_sameCatalog (hplan : plan ∈ listed db)
    (hok : (updateLocal host (listed db) (call.back plan)).1.isOk = true)
    (hsame : SameCatalog (updateLocal host (listed db) (call.back plan)).2 (listed db)) : Settled host plan := by
  have haccepted := accepted_of_isOk hplan hok
  rw [haccepted.updateLocal_eq] at hsame
  have hpresent : ∃ p ∈ listed db, p.row.id = (call.back plan).planId := ⟨plan, hplan, rfl⟩
  obtain ⟨plan', hplan', hrow, hoptions⟩ := hsame.1 _ ((mem_replaced hpresent).mpr (Or.inl rfl))
  have hid : plan'.row.id = plan.row.id := by rw [hrow]; rfl
  obtain rfl := eq_of_listed hplan' hplan hid
  have hnamed := (validatePlanInput_eq_ok.mp haccepted.input).1
  have hcode : trimText plan'.row.code = plan'.row.code := (congrArg PlanRow.code hrow).symm
  have hname : trimText plan'.row.name = plan'.row.name := (congrArg PlanRow.name hrow).symm
  refine ⟨⟨hcode, hcode ▸ hnamed.1⟩, ⟨hname, hname ▸ hnamed.2⟩,
    (congrArg PlanRow.description hrow).symm, fun o ho => ?_⟩
  have hvalid := validateOptionOf_eq_ok.mp
    (validatePlanOptions_eq_ok.mp haccepted.options o.input (List.mem_map_of_mem ho))
  have hrestored : restored host plan'.row.id o ∈ plan'.options := by
    rw [hoptions, nextPlan, newRows_back]
    exact List.mem_map_of_mem ho
  have heq : restored host plan'.row.id o = o :=
    Table.eq_of_pk ((mem_options hplan).mp hrestored).1 ((mem_options hplan).mp ho).1 rfl
  exact ⟨congrArg PricingOption.currency heq, hvalid.2, hvalid.1⟩

/-- **Plans can be given back** exactly when they are settled and the actor and the reason can
be written down. -/
theorem readsBack_iff : ReadsBack host db call ↔ (trimText call.reason ≠ "" → ∀ plan ∈ listed db,
    Settled host plan ∧ storableText call.actorUserId = true ∧ storableText (trimText call.reason) = true) := by
  refine imp_congr_right fun hgiven => forall₂_congr fun plan hplan => ?_
  constructor
  · rintro ⟨⟨hok, hsame⟩, hdatabase, -⟩
    have hsettled := settled_of_sameCatalog hplan hok hsame
    refine ⟨hsettled, ?_⟩
    rw [(accepted_of_isOk hplan hok).updateDatabase_eq] at hdatabase
    cases htransaction : transaction host db (call.back plan) plan with
    | none => rw [htransaction] at hdatabase; cases hdatabase
    | some db' =>
      obtain ⟨-, -, -, -, haudit, -⟩ := transaction_eq_some.mp htransaction
      simp only [auditTexts, List.all_append, List.all_cons, Bool.and_eq_true] at haudit
      exact ⟨haudit.1.1.1.1.1.1, haudit.1.1.1.1.1.2.2.1⟩
  · rintro ⟨hsettled, hactor, hreason⟩
    exact hsettled.readsBack hplan hgiven hactor hreason

/-- An option of the plan `"starter"`. -/
def sampleOption (id : String) (interval : PricingInterval) : PricingOption where
  id
  planId := "starter"
  mode := .subscription
  interval
  provider := .mock
  currency := "KRW"
  amountMinor := 9900
  compareAtAmountMinor := none
  providerProductRef := none
  providerPriceRef := none
  active := true

/-- A plan with options by the month and by the year. -/
def samplePlan : PricingPlan where
  row := {
    id := "starter"
    tenantId := "platform"
    code := "starter"
    name := "Starter"
    description := ""
    billingMode := .subscription
    active := true
    isDefault := true
    displayOrder := 0
    features := []
    quotas := [] }
  options := [sampleOption "monthly" .month, sampleOption "yearly" .year]

/-- The plan is stored, and there is an order for its option by the month. -/
def sampleDb : Database where
  plans := ⟨[samplePlan.row], by decide, by decide, by decide +kernel⟩
  options := ⟨samplePlan.options, by decide, by decide, by decide +kernel⟩
  referenced := fun id => decide (id = "monthly")

def sampleHost : Host where
  toUpperCase := fun s => String.ofList (s.toList.map Char.toUpper)
  freshId := fun place => "option-" ++ Nat.repr place

/-- The plan is to have the option by the year only. -/
def sampleCall : PlanCall where
  planId := "starter"
  input := { samplePlan.input with options := some [(sampleOption "yearly" .year).input] }
  actorUserId := "admin"
  reason := "yearly only"
  policy := .subscription

end Catalog
end Pricing
end AiSaas
