import AiSaas.Pricing.Providers
import Mathlib.Data.Rat.Defs

/-!
# The pricing catalog

`listPricingCatalog` and `updatePricingPlan` of `apps/web/lib/pricing/repository.ts`.  Without
a database the catalog is a list of plans in memory, of which one is replaced.  With a
database the plans and their options are rows; an update deletes the options that are not
given any more, keeps those that an order or a subscription is for as inactive ones, and
writes the given options one by one.  Its statements are one transaction.

## Main definitions

* `PricingPlan`, `PricingPlanInput` — a plan with its options, and what an update sets.
* `updateLocal`, `updateDatabase` — the two branches of `updatePricingPlan`.
* `SameCatalog` — the same plans with the same sets of options.
* `Agree`, `ReadsBack`, `Upholds` — both branches do the same, and a plan as it is listed can
  be given back.
-/

namespace AiSaas
namespace Pricing
namespace Catalog

open Relational

/-! ### Plans and options -/

/-- A mode of billing, also of an option. -/
inductive BillingMode where
  | oneTime
  | subscription
  deriving DecidableEq, Repr

/-- The text of a mode. -/
def BillingMode.text : BillingMode → String
  | oneTime => "one_time"
  | subscription => "subscription"

inductive PricingInterval where
  | oneTime
  | month
  | year
  deriving DecidableEq, Repr

/-- An option as it is stored and listed. -/
structure PricingOption where
  id : String
  planId : String
  mode : BillingMode
  interval : PricingInterval
  provider : PricingProvider
  currency : String
  amountMinor : ℚ
  compareAtAmountMinor : Option ℚ
  providerProductRef : Option String
  providerPriceRef : Option String
  active : Bool
  deriving DecidableEq

/-- A plan without its options. -/
structure PlanRow where
  id : String
  tenantId : String
  code : String
  name : String
  description : String
  billingMode : BillingMode
  active : Bool
  isDefault : Bool
  displayOrder : ℚ
  features : List String
  quotas : List (String × ℚ)
  deriving DecidableEq

structure PricingPlan where
  row : PlanRow
  options : List PricingOption
  deriving DecidableEq

structure PricingOptionInput where
  id : Option String
  mode : BillingMode
  interval : PricingInterval
  provider : PricingProvider
  currency : String
  amountMinor : ℚ
  compareAtAmountMinor : Option ℚ
  providerProductRef : Option String
  providerPriceRef : Option String
  active : Option Bool

structure PricingPlanInput where
  tenantId : Option String
  code : String
  name : String
  description : Option String
  billingMode : BillingMode
  active : Option Bool
  isDefault : Option Bool
  displayOrder : Option ℚ
  features : Option (List String)
  quotas : Option (List (String × ℚ))
  options : Option (List PricingOptionInput)

/-- A call of `updatePricingPlan` under the billing policy `policy`. -/
structure PlanCall where
  planId : String
  input : PricingPlanInput
  actorUserId : String
  reason : String
  policy : BillingMode

/-- What an update relies on of the interpreter. -/
structure Host where
  /-- `s.toUpperCase()` -/
  toUpperCase : String → String
  /-- The id that is made for the option of a place that has none. -/
  freshId : ℕ → String

/-! ### Checks -/

/-- `s.trim()` -/
def trimText (s : String) : String := String.ofList (Migrations.trim s.toList)

def validatePlanInput (input : PricingPlanInput) (reason : String) : Except String Unit := do
  if trimText input.code = "" || trimText input.name = "" then throw "plan code and name are required"
  if trimText reason = "" then throw "reason is required for pricing changes"

def assertBillingModeIsEditable (current : PricingPlan) (next : PricingPlanInput) (policy : BillingMode) :
    Except String Unit :=
  if next.billingMode ≠ current.row.billingMode ∧ next.billingMode ≠ policy then
    throw ("plan billingMode change to " ++ next.billingMode.text ++
      " requires the active catalog mode to also be " ++ next.billingMode.text ++
      "; current policy is " ++ policy.text)
  else pure ()

def validateOption (option : PricingOptionInput) : Except String Unit := do
  if option.mode = .oneTime ∧ option.interval ≠ .oneTime then
    throw "one_time options must use interval one_time"
  if option.mode = .subscription ∧ option.interval = .oneTime then
    throw "subscription options must use interval month or year"
  if option.amountMinor.den ≠ 1 ∨ option.amountMinor ≤ 0 then
    throw "amountMinor must be a positive integer"

/-- What is checked of each option of a plan. -/
def validateOptionOf (billingMode : BillingMode) (option : PricingOptionInput) : Except String Unit := do
  validateOption option
  if option.mode ≠ billingMode then
    throw ("pricing option mode must match plan billingMode: " ++ billingMode.text)

def validatePlanOptions (options : List PricingOptionInput) (billingMode : BillingMode) :
    Except String Unit := options.forM (validateOptionOf billingMode)

/-! ### Rows -/

def toPlanRow (id : String) (input : PricingPlanInput) : PlanRow where
  id
  tenantId := input.tenantId.getD "platform"
  code := trimText input.code
  name := trimText input.name
  description := (input.description.map trimText).getD ""
  billingMode := input.billingMode
  active := input.active.getD true
  isDefault := input.isDefault.getD false
  displayOrder := input.displayOrder.getD 0
  features := input.features.getD []
  quotas := input.quotas.getD []

/-- `toOptionRow`, and what `toLocalPlan` makes of an option. -/
def toOptionRow (host : Host) (planId : String) (id : String) (option : PricingOptionInput) :
    PricingOption where
  id
  planId
  mode := option.mode
  interval := option.interval
  provider := option.provider
  currency := host.toUpperCase option.currency
  amountMinor := option.amountMinor
  compareAtAmountMinor := option.compareAtAmountMinor
  providerProductRef := option.providerProductRef
  providerPriceRef := option.providerPriceRef
  active := option.active.getD true

/-- An option that is listed, as one that is given. -/
def PricingOption.input (option : PricingOption) : PricingOptionInput where
  id := some option.id
  mode := option.mode
  interval := option.interval
  provider := option.provider
  currency := option.currency
  amountMinor := option.amountMinor
  compareAtAmountMinor := option.compareAtAmountMinor
  providerProductRef := option.providerProductRef
  providerPriceRef := option.providerPriceRef
  active := some option.active

/-- A plan that is listed, as one that is given. -/
def PricingPlan.input (plan : PricingPlan) : PricingPlanInput where
  tenantId := some plan.row.tenantId
  code := plan.row.code
  name := plan.row.name
  description := some plan.row.description
  billingMode := plan.row.billingMode
  active := some plan.row.active
  isDefault := some plan.row.isDefault
  displayOrder := some plan.row.displayOrder
  features := some plan.row.features
  quotas := some plan.row.quotas
  options := some (plan.options.map PricingOption.input)

/-- `input.options ?? current.options` -/
def givenOptions (input : PricingPlanInput) (current : PricingPlan) : List PricingOptionInput :=
  input.options.getD (current.options.map PricingOption.input)

/-- The options with their ids. -/
def normalizedOptions (host : Host) (options : List PricingOptionInput) : List (String × PricingOptionInput) :=
  options.zipIdx.map fun (option, place) => (option.id.getD (host.freshId place), option)

/-- The rows of the options of a plan. -/
def optionRows (host : Host) (planId : String) (options : List PricingOptionInput) : List PricingOption :=
  (normalizedOptions host options).map fun (id, option) => toOptionRow host planId id option

/-! ### In memory -/

def toLocalPlan (host : Host) (id : String) (input : PricingPlanInput) (options : List PricingOptionInput) :
    PricingPlan := ⟨toPlanRow id input, optionRows host id options⟩

/-- Plans in the order in which they are displayed. -/
def displayed (plans : List PricingPlan) : List PricingPlan :=
  plans.mergeSort fun a b => decide (a.row.displayOrder ≤ b.row.displayOrder)

def findPlan (plans : List PricingPlan) (planId : String) : Option PricingPlan :=
  plans.find? fun plan => decide (plan.row.id = planId)

/-- The plans with one of them replaced. -/
def replaced (plans : List PricingPlan) (planId : String) (next : PricingPlan) : List PricingPlan :=
  displayed (plans.map fun plan => if plan.row.id = planId then next else plan)

/-- `updatePricingPlan` without a database. -/
def updateLocal (host : Host) (plans : List PricingPlan) (call : PlanCall) :
    Except String (Option PricingPlan) × List PricingPlan :=
  match validatePlanInput call.input call.reason with
  | .error message => (.error message, plans)
  | .ok () =>
    match findPlan plans call.planId with
    | none => (.ok none, plans)
    | some current =>
      match assertBillingModeIsEditable current call.input call.policy with
      | .error message => (.error message, plans)
      | .ok () =>
        let next := toLocalPlan host call.planId call.input (givenOptions call.input current)
        match validatePlanOptions (next.options.map PricingOption.input) call.input.billingMode with
        | .error message => (.error message, plans)
        | .ok () => (.ok (some next), replaced plans call.planId next)

/-! ### In the database -/

/-- A text that a column of the server can hold. -/
def storableText (s : String) : Bool := !s.toList.contains '\x00'

/-- A number that an integer column can hold. -/
def storableNumber (q : ℚ) : Bool := q.den == 1 && (-2147483648 ≤ q && q ≤ 2147483647)

/-- The columns of a plan can hold it. -/
def PlanRow.storable (r : PlanRow) : Bool :=
  ([r.id, r.tenantId, r.code, r.name, r.description] ++ r.features ++ r.quotas.map Prod.fst).all
    storableText && storableNumber r.displayOrder

/-- The columns of an option can hold it. -/
def PricingOption.storable (o : PricingOption) : Bool :=
  ([o.id, o.planId, o.currency] ++ o.providerProductRef.toList ++ o.providerPriceRef.toList).all
    storableText && storableNumber o.amountMinor && o.compareAtAmountMinor.all storableNumber

/-- `pricing_options_identity_idx` -/
def PricingOption.identity (o : PricingOption) : String × BillingMode × PricingInterval × PricingProvider :=
  (o.planId, o.mode, o.interval, o.provider)

abbrev PlanTable := Table PlanRow.id (fun r : PlanRow => (r.tenantId, r.code)) PlanRow.storable

abbrev OptionTable := Table PricingOption.id PricingOption.identity PricingOption.storable

structure Database where
  plans : PlanTable
  options : OptionTable
  /-- The options that an order or a subscription is for. -/
  referenced : String → Bool

/-- `mapRows` -/
def mapRows (plans : List PlanRow) (options : List PricingOption) : List PricingPlan :=
  plans.map fun row => ⟨row, options.filter fun option => decide (option.planId = row.id)⟩

/-- `listPricingCatalog(false)` -/
def listed (db : Database) : List PricingPlan :=
  displayed (mapRows (db.plans.rows.filter fun row => decide (row.tenantId = "platform")) db.options.rows)

/-- The texts of what is written down of an update. -/
def auditTexts (call : PlanCall) (options : List (String × PricingOptionInput)) : List String :=
  [call.actorUserId, call.planId, trimText call.reason, call.input.code, call.input.name] ++
    call.input.tenantId.toList ++ call.input.description.toList ++ call.input.features.getD [] ++
    (call.input.quotas.getD []).map Prod.fst ++
    options.flatMap fun (id, option) => [id, option.currency] ++ option.providerProductRef.toList ++
      option.providerPriceRef.toList

/-- `set({ active: false })` -/
def PricingOption.inactive (o : PricingOption) : PricingOption := { o with active := false }

/-- The options without those that nothing is for, and with the others inactive, of `stale`. -/
def OptionTable.withdraw (t : OptionTable) (referenced : String → Bool) (stale : List PricingOption) :
    OptionTable :=
  let staleIds := stale.map PricingOption.id
  (t.delete fun o => staleIds.contains o.id && !referenced o.id).update
    (fun o => staleIds.contains o.id && referenced o.id) PricingOption.inactive
    ⟨fun _ => rfl, fun _ => rfl, fun _ h => h⟩

/-- One option is written: the row it has, or a new one. -/
def writeOption (current : PricingPlan) (t : OptionTable) (row : PricingOption) : Option OptionTable :=
  if current.options.any fun option => decide (option.id = row.id) then
    t.modify? (fun o => decide (o.id = row.id)) fun _ => row
  else t.insert? row

/-- The transaction of an update. -/
def transaction (host : Host) (db : Database) (call : PlanCall) (current : PricingPlan) : Option Database := do
  let given := givenOptions call.input current
  let rows := optionRows host call.planId given
  let plans ← db.plans.modify? (fun r => decide (r.id = call.planId)) fun _ => toPlanRow call.planId call.input
  let stale := current.options.filter fun option => !rows.any fun row => decide (row.id = option.id)
  let options ← rows.foldlM (writeOption current) (db.options.withdraw db.referenced stale)
  if (auditTexts call (normalizedOptions host given)).all storableText then
    some { db with plans, options }
  else none

/-- `updatePricingPlan` with a database. -/
def updateDatabase (host : Host) (db : Database) (call : PlanCall) :
    Except String (Option PricingPlan) × Database :=
  match validatePlanInput call.input call.reason with
  | .error message => (.error message, db)
  | .ok () =>
    match findPlan (listed db) call.planId with
    | none => (.ok none, db)
    | some current =>
      match assertBillingModeIsEditable current call.input call.policy with
      | .error message => (.error message, db)
      | .ok () =>
        match validatePlanOptions (givenOptions call.input current) call.input.billingMode with
        | .error message => (.error message, db)
        | .ok () =>
          match transaction host db call current with
          | none => (.error "the transaction failed", db)
          | some db' => (.ok (findPlan (listed db') call.planId), db')

/-! ### What is said of a call -/

/-- Each plan of the first catalog is one of the second, with the same set of options. -/
def Within (plans plans' : List PricingPlan) : Prop :=
  ∀ plan ∈ plans, ∃ plan' ∈ plans', plan'.row = plan.row ∧ ∀ o, o ∈ plan'.options ↔ o ∈ plan.options

/-- The same plans, with the same sets of options. -/
def SameCatalog (plans plans' : List PricingPlan) : Prop := Within plans plans' ∧ Within plans' plans

/-- From the same catalog, both branches raise or both leave the same one. -/
def Agree (host : Host) (db : Database) (call : PlanCall) : Prop :=
  match updateLocal host (listed db) call, updateDatabase host db call with
  | (.ok _, plans), (.ok _, db') => SameCatalog plans (listed db')
  | (.error _, _), (.error _, _) => True
  | _, _ => False

/-- The call with a plan as it is listed. -/
def PlanCall.back (call : PlanCall) (plan : PricingPlan) : PlanCall :=
  { call with planId := plan.row.id, input := plan.input }

/-- A plan as it is listed can be given back, for a reason: both branches return, and the
catalogs stay what they were. -/
def ReadsBack (host : Host) (db : Database) (call : PlanCall) : Prop :=
  trimText call.reason ≠ "" → ∀ plan ∈ listed db,
    ((updateLocal host (listed db) (call.back plan)).1.isOk = true ∧
      SameCatalog (updateLocal host (listed db) (call.back plan)).2 (listed db)) ∧
    (updateDatabase host db (call.back plan)).1.isOk = true ∧
      SameCatalog (listed (updateDatabase host db (call.back plan)).2) (listed db)

/-- Both. -/
def Upholds (host : Host) (db : Database) (call : PlanCall) : Prop :=
  Agree host db call ∧ ReadsBack host db call

end Catalog
end Pricing
end AiSaas
