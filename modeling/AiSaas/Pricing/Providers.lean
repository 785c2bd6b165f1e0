import AiSaas.Lib.JsonText
import AiSaas.Lib.Runs
import AiSaas.Lib.Tables
import AiSaas.Migrations.Common

/-!
# Payment providers

`listProviderSettings`, `updateProviderSetting` and `selectedPaymentProvider` of
`apps/web/lib/pricing/repository.ts`.  Without a database the settings are a list in memory,
which starts with the seeded ones.  With a database they are the rows of a table, and the
seeded ones are shown for a table without rows.  An update reads what is shown, writes by
provider and files an audit row; its statements are no transaction.

A row is known by what is shown of it, and no statement reads the audit rows.

## Main definitions

* `PricingProvider`, `ProviderSetting`, `seededProviderSettings` — the settings.
* `updateLocal`, `updateDatabase` — the two branches of `updateProviderSetting`.
* `Exclusive` — at most one provider is enabled.
* `Upholds` — what is said of a call: one that returns leaves its setting and at most one
  enabled provider, one that raises changes nothing.
* `Safe` — the calls of the database branch that uphold it.

## Main results

* `upholds_updateLocal` — every call in memory upholds it.
* `upholds_updateDatabase_iff` — a call on the database upholds it exactly when it is safe.
* `providers_exclusive_iff` — the same of whole runs.
-/

namespace AiSaas
namespace Pricing

open Relational Runs

/-! ### Settings -/

inductive PricingProvider where
  | mock
  | toss
  | lemonSqueezy
  deriving DecidableEq, Repr

/-- The text of a provider. -/
def PricingProvider.text : PricingProvider → String
  | mock => "mock"
  | toss => "toss"
  | lemonSqueezy => "lemon-squeezy"

/-- What an update sets. -/
structure ProviderInput where
  enabled : Bool
  sandbox : Bool
  publicConfig : List (String × JsonText.Value)
  secretRef : Option String

structure ProviderSetting where
  id : String
  provider : PricingProvider
  input : ProviderInput

/-- The setting, enabled or not as before but for this. -/
def ProviderSetting.disabled (setting : ProviderSetting) : ProviderSetting :=
  { setting with input := { setting.input with enabled := false } }

/-- The setting with what an update sets. -/
def ProviderSetting.set (setting : ProviderSetting) (input : ProviderInput) : ProviderSetting :=
  { setting with input }

def seededProviderSettings : List ProviderSetting :=
  [⟨"provider-mock", .mock, ⟨true, true, [], none⟩⟩,
    ⟨"provider-toss", .toss, ⟨false, true, [], some "TOSS_SECRET_KEY"⟩⟩,
    ⟨"provider-lemon-squeezy", .lemonSqueezy, ⟨false, true, [], some "LEMONSQUEEZY_API_KEY"⟩⟩]

/-- The settings of the database: `id` is the primary key, `provider` is unique. -/
abbrev SettingsTable := Table ProviderSetting.id ProviderSetting.provider fun _ => true

/-- What an update asks of the server, one after the other. -/
inductive Statement where
  | readConflicts
  | readCurrent
  | disableAll
  | write
  | audit
  | readBack
  deriving DecidableEq, Repr

/-- A call of `updateProviderSetting`, with the statements that the server refuses. -/
structure ProviderCall where
  provider : PricingProvider
  input : ProviderInput
  reason : String
  fails : Statement → Bool

/-- The setting of a provider. -/
def settingOf (settings : List ProviderSetting) (provider : PricingProvider) : Option ProviderSetting :=
  settings.find? fun setting => decide (setting.provider = provider)

/-- Another provider that is enabled and live, where the call wants its own to be. -/
def conflicting (settings : List ProviderSetting) (call : ProviderCall) : Option ProviderSetting :=
  if call.input.enabled && !call.input.sandbox then
    settings.find? fun setting =>
      setting.input.enabled && !setting.input.sandbox && decide (setting.provider ≠ call.provider)
  else none

/-- `!reason.trim()` -/
def noReason (call : ProviderCall) : Bool := (Migrations.trim call.reason.toList).isEmpty

/-- What is raised about a conflict. -/
def conflictMessage (setting : ProviderSetting) : String :=
  "only one live provider may be enabled; disable " ++ setting.provider.text ++ " first"

/-! ### In memory -/

/-- `listProviderSettings` without a database; it raises in production. -/
def listLocal (production : Bool) (settings : List ProviderSetting) : Except String (List ProviderSetting) :=
  if production then .error "DATABASE_URL is required in production; local catalog fallback is disabled"
  else .ok settings

/-- The settings after an update. -/
def assigned (call : ProviderCall) (settings : List ProviderSetting) : List ProviderSetting :=
  settings.map fun setting =>
    if setting.provider = call.provider then setting.set call.input
    else if call.input.enabled then setting.disabled else setting

/-- `updateProviderSetting` without a database. -/
def updateLocal (production : Bool) (settings : List ProviderSetting) (call : ProviderCall) :
    Except String (Option ProviderSetting) × List ProviderSetting :=
  if noReason call then (.error "reason is required for provider setting changes", settings)
  else if production && call.input.enabled && !call.input.sandbox then
    (.error "DATABASE_URL is required in production; local catalog fallback is disabled", settings)
  else
    match conflicting settings call with
    | some setting => (.error (conflictMessage setting), settings)
    | none => (.ok (settingOf (assigned call settings) call.provider), assigned call settings)

/-! ### In the database -/

/-- `listProviderSettings`. -/
def listed (t : SettingsTable) : List ProviderSetting :=
  if t.rows.isEmpty then seededProviderSettings
  else t.rows.mergeSort fun r r' => decide (r.provider.text ≤ r'.provider.text)

/-- `set({ enabled: false }).where(eq(enabled, true))` -/
def SettingsTable.disableAll (t : SettingsTable) : SettingsTable :=
  t.update (fun r => r.input.enabled) ProviderSetting.disabled ⟨fun _ => rfl, fun _ => rfl, fun _ _ => rfl⟩

/-- `set(row).where(eq(provider, …))` -/
def SettingsTable.write (t : SettingsTable) (provider : PricingProvider) (input : ProviderInput) :
    SettingsTable :=
  t.update (fun r => decide (r.provider = provider)) (fun r => r.set input)
    ⟨fun _ => rfl, fun _ => rfl, fun _ _ => rfl⟩

/-- The table after the statement that disables all providers, if it is made. -/
def cleared (t : SettingsTable) (call : ProviderCall) : SettingsTable :=
  if call.input.enabled then t.disableAll else t

/-- The row that is inserted for a provider. -/
def newRow (call : ProviderCall) : ProviderSetting :=
  ⟨"provider-" ++ call.provider.text, call.provider, call.input⟩

/-- The end of an update: the audit row, and what is shown of the provider. -/
def finish (call : ProviderCall) (t : SettingsTable) :
    Except String (Option ProviderSetting) × SettingsTable :=
  if call.fails .audit || call.fails .readBack then (.error "the statement failed", t)
  else (.ok (settingOf (listed t) call.provider), t)

/-- The writes of an update; `current` is the setting that is shown of the provider. -/
def writeSetting (t : SettingsTable) (call : ProviderCall) :
    Option ProviderSetting → Except String (Option ProviderSetting) × SettingsTable
  | some _ =>
    if call.input.enabled && call.fails .disableAll then (.error "the statement failed", t)
    else if call.fails .write then (.error "the statement failed", cleared t call)
    else finish call ((cleared t call).write call.provider call.input)
  | none =>
    if call.fails .write then (.error "the statement failed", t)
    else
      match t.insert? (newRow call) with
      | some t' => finish call t'
      | none => (.error "duplicate key value violates unique constraint", t)

/-- `updateProviderSetting` with a database. -/
def updateDatabase (t : SettingsTable) (call : ProviderCall) :
    Except String (Option ProviderSetting) × SettingsTable :=
  if noReason call then (.error "reason is required for provider setting changes", t)
  else if call.input.enabled && !call.input.sandbox && call.fails .readConflicts then
    (.error "the statement failed", t)
  else
    match conflicting (listed t) call with
    | some setting => (.error (conflictMessage setting), t)
    | none =>
      if call.fails .readCurrent then (.error "the statement failed", t)
      else writeSetting t call (settingOf (listed t) call.provider)

/-- `selectedPaymentProvider`; `configured` is `PAYMENT_PROVIDER`. -/
def selectedPaymentProvider (settings : List ProviderSetting) (configured : Option PricingProvider) :
    PricingProvider :=
  match configured with
  | some .toss => .toss
  | some .lemonSqueezy => .lemonSqueezy
  | _ => ((settings.find? fun setting => setting.input.enabled).map ProviderSetting.provider).getD .mock

/-! ### What is said of a call -/

/-- At most one provider is enabled. -/
def Exclusive (settings : List ProviderSetting) : Prop :=
  ∀ s ∈ settings, ∀ s' ∈ settings, s.input.enabled = true → s'.input.enabled = true →
    s.provider = s'.provider

/-- A call that returns leaves at most one enabled provider and the setting it was given, and
a call that raises changes nothing; `shown` is what `listProviderSettings` shows. -/
def Upholds {σ : Type} (shown : σ → List ProviderSetting)
    (update : σ → ProviderCall → Except String (Option ProviderSetting) × σ) (s : σ)
    (call : ProviderCall) : Prop :=
  match (update s call).1 with
  | .ok _ => Exclusive (shown (update s call).2) ∧
      (settingOf (shown (update s call).2) call.provider).map ProviderSetting.input = some call.input
  | .error _ => (update s call).2 = s

/-- The call is refused before its first write. -/
def Refused (t : SettingsTable) (call : ProviderCall) : Prop :=
  noReason call = true ∨ (call.input.enabled && !call.input.sandbox && call.fails .readConflicts) = true ∨
    (conflicting (listed t) call).isSome = true ∨ call.fails .readCurrent = true

/-- No row is enabled. -/
def NoneEnabled (t : SettingsTable) : Prop := ∀ r ∈ t.rows, r.input.enabled = false

/-- A call whose statements fail, if one does, before a row is changed.  Where there is no
row, its input is the seeded one of its provider; where the provider alone has no row, it
does not enable it beside another one. -/
def Safe (t : SettingsTable) (call : ProviderCall) : Prop :=
  Refused t call ∨
    if t.rows.isEmpty then
      (call.input.enabled && call.fails .disableAll) = true ∨ call.fails .write = true ∨
        call.fails .audit = true ∨ call.fails .readBack = true ∨
        (settingOf seededProviderSettings call.provider).map ProviderSetting.input = some call.input
    else
      match t.findBy? call.provider with
      | some row =>
        (call.input.enabled && call.fails .disableAll) = true ∨
          if call.fails .write then call.input.enabled = true → NoneEnabled t
          else call.fails .audit = true ∨ call.fails .readBack = true → row.input = call.input
      | none =>
        call.fails .write = true ∨ (t.find? (newRow call).id).isSome = true ∨
          call.fails .audit = false ∧ call.fails .readBack = false ∧
            (call.input.enabled = true → NoneEnabled t)

variable {t t' : SettingsTable} {call : ProviderCall} {settings : List ProviderSetting}

/-! ### What is shown -/

theorem exclusive_seeded : Exclusive seededProviderSettings := by
  simp [Exclusive, seededProviderSettings]

/-- Of the rows, in whatever order, the one of a provider is found. -/
theorem settingOf_perm {l : List ProviderSetting} (hl : l.Perm t.rows) (provider : PricingProvider) :
    settingOf l provider = t.findBy? provider := by
  have hfound : ∀ r, settingOf l provider = some r → t.findBy? provider = some r := by
    intro r hr
    refine Table.findBy?_eq_some.mpr ⟨hl.mem_iff.mp (List.mem_of_find?_eq_some hr), ?_⟩
    simpa using List.find?_some hr
  cases hrow : t.findBy? provider with
  | none =>
    refine List.find?_eq_none.mpr fun r hr => ?_
    simpa using Table.findBy?_eq_none.mp hrow r (hl.mem_iff.mp hr)
  | some row =>
    obtain ⟨hmem, hprovider⟩ := Table.findBy?_eq_some.mp hrow
    cases hsetting : settingOf l provider with
    | none =>
      have hnone := List.find?_eq_none.mp hsetting row (hl.mem_iff.mpr hmem)
      exact absurd (decide_eq_true hprovider) hnone
    | some r => rw [← hrow, hfound r hsetting]

theorem settingOf_listed (hrows : t.rows ≠ []) (provider : PricingProvider) :
    settingOf (listed t) provider = t.findBy? provider := by
  rw [listed, if_neg (by simpa using hrows)]
  exact settingOf_perm (List.mergeSort_perm _ _) provider

/-- What is shown of a table is exclusive exactly when its rows are. -/
theorem exclusive_listed_iff : Exclusive (listed t) ↔ Exclusive t.rows := by
  unfold listed
  by_cases hrows : t.rows = []
  · rw [hrows]
    exact iff_of_true exclusive_seeded fun s hs => absurd hs List.not_mem_nil
  · rw [if_neg (by simpa using hrows)]
    simp only [Exclusive, (List.mergeSort_perm _ _).mem_iff]

/-! ### In memory -/

/-- An assignment leaves at most one enabled provider. -/
theorem Exclusive.assigned (h : Exclusive settings) (call : ProviderCall) :
    Exclusive (assigned call settings) := by
  intro s hs s' hs' henabled henabled'
  obtain ⟨r, hr, rfl⟩ := List.mem_map.mp hs
  obtain ⟨r', hr', rfl⟩ := List.mem_map.mp hs'
  by_cases hp : r.provider = call.provider <;> by_cases hp' : r'.provider = call.provider
  · rw [if_pos hp, if_pos hp']
    exact hp.trans hp'.symm
  · -- the call enables its provider, so that no other one stays enabled
    rw [if_pos hp] at henabled
    rw [if_neg hp', if_pos (show call.input.enabled = true from henabled)] at henabled'
    cases henabled'
  · rw [if_pos hp'] at henabled'
    rw [if_neg hp, if_pos (show call.input.enabled = true from henabled')] at henabled
    cases henabled
  · rw [if_neg hp] at henabled ⊢
    rw [if_neg hp'] at henabled' ⊢
    by_cases hcall : call.input.enabled = true
    · rw [if_pos hcall] at henabled
      cases henabled
    · rw [if_neg hcall] at henabled henabled' ⊢
      rw [if_neg hcall]
      exact h r hr r' hr' henabled henabled'

/-- An assignment keeps the providers that have settings. -/
theorem settingOf_assigned (provider : PricingProvider) :
    (settingOf (assigned call settings) provider).isSome = (settingOf settings provider).isSome := by
  rw [settingOf, assigned, List.find?_map, Option.isSome_map]
  refine congrArg (fun p => (settings.find? p).isSome) (funext fun s => ?_)
  rw [Function.comp_apply]
  congr 1
  split
  · rfl
  · split <;> rfl

theorem settingOf_assigned_self (h : (settingOf settings call.provider).isSome = true) :
    (settingOf (assigned call settings) call.provider).map ProviderSetting.input = some call.input := by
  obtain ⟨s, hs⟩ := Option.isSome_iff_exists.mp ((settingOf_assigned call.provider).trans h)
  rw [hs, Option.map_some, Option.some_inj]
  obtain ⟨r, -, hr⟩ := List.mem_map.mp (List.mem_of_find?_eq_some hs)
  have hprovider : s.provider = call.provider := by simpa using List.find?_some hs
  have hsame : r.provider = call.provider := by
    rw [← hprovider, ← hr]
    split
    · rfl
    · split <;> rfl
  rw [← hr, if_pos hsame]
  rfl

/-- Settings of all providers, of which at most one is enabled. -/
structure Complete (settings : List ProviderSetting) : Prop where
  exclusive : Exclusive settings
  all : ∀ provider, (settingOf settings provider).isSome = true

theorem complete_seeded : Complete seededProviderSettings :=
  ⟨exclusive_seeded, fun provider => by cases provider <;> rfl⟩

/-- An update in memory raises and changes nothing, or assigns. -/
theorem updateLocal_cases (production : Bool) (settings : List ProviderSetting) (call : ProviderCall) :
    (∃ e, updateLocal production settings call = (.error e, settings)) ∨
      updateLocal production settings call =
        (.ok (settingOf (assigned call settings) call.provider), assigned call settings) := by
  unfold updateLocal
  split
  · exact Or.inl ⟨_, rfl⟩
  · split
    · exact Or.inl ⟨_, rfl⟩
    · cases conflicting settings call with
      | some setting => exact Or.inl ⟨_, rfl⟩
      | none => exact Or.inr rfl

section Upholds

variable {σ : Type} {shown : σ → List ProviderSetting}
  {update : σ → ProviderCall → Except String (Option ProviderSetting) × σ} {s s' : σ}

theorem upholds_iff_of_error {e : String} (h : update s call = (.error e, s')) :
    Upholds shown update s call ↔ s' = s := by
  rw [Upholds, h]

theorem upholds_iff_of_ok {setting : Option ProviderSetting} (h : update s call = (.ok setting, s')) :
    Upholds shown update s call ↔ Exclusive (shown s') ∧
      (settingOf (shown s') call.provider).map ProviderSetting.input = some call.input := by
  rw [Upholds, h]

end Upholds

/-- **A call in memory** keeps the settings complete and upholds what is said of it. -/
theorem upholds_updateLocal (production : Bool) (h : Complete settings) (call : ProviderCall) :
    Upholds id (updateLocal production) settings call ∧
      Complete (updateLocal production settings call).2 := by
  rcases updateLocal_cases production settings call with ⟨e, herror⟩ | hok
  · exact ⟨(upholds_iff_of_error herror).mpr rfl, by rw [herror]; exact h⟩
  · refine ⟨(upholds_iff_of_ok hok).mpr
      ⟨h.exclusive.assigned call, settingOf_assigned_self (h.all _)⟩, ?_⟩
    rw [hok]
    exact ⟨h.exclusive.assigned call, fun provider => (settingOf_assigned provider).trans (h.all _)⟩

/-! ### Writes -/

/-- An update that sets every row it matches to what it is changes nothing, and no other. -/
theorem setWhere_eq_self_iff {α : Type*} {p : α → Bool} {f : α → α} {l : List α} :
    setWhere p f l = l ↔ ∀ r ∈ l, p r = true → f r = r := by
  induction l with
  | nil => simp
  | cons r l ih =>
    rw [setWhere_cons, List.cons.injEq, ih, List.forall_mem_cons]
    refine and_congr_left fun _ => ?_
    by_cases hp : p r = true <;> simp [hp]

theorem disableAll_eq_self_iff : t.disableAll = t ↔ NoneEnabled t := by
  rw [Table.ext_iff, SettingsTable.disableAll, Table.rows_update, setWhere_eq_self_iff]
  refine forall₂_congr fun r _ => ?_
  rw [← Bool.not_eq_true]
  refine imp_congr_right fun henabled => ⟨fun h => ?_, False.elim⟩
  rw [← h] at henabled
  cases henabled

theorem cleared_eq_self_iff : cleared t call = t ↔ (call.input.enabled = true → NoneEnabled t) := by
  unfold cleared
  by_cases henabled : call.input.enabled = true
  · rw [if_pos henabled, disableAll_eq_self_iff]
    exact ⟨fun h _ => h, fun h => h henabled⟩
  · rw [if_neg henabled]
    exact iff_of_true rfl fun h => absurd h henabled

/-- The rows an update leaves are those an assignment in memory leaves. -/
theorem rows_written :
    ((cleared t call).write call.provider call.input).rows = assigned call t.rows := by
  unfold cleared assigned
  by_cases henabled : call.input.enabled = true
  · rw [if_pos henabled, SettingsTable.write, SettingsTable.disableAll, Table.rows_update,
      Table.rows_update, setWhere, setWhere, List.map_map]
    refine List.map_congr_left fun r _ => ?_
    rw [Function.comp_apply, if_pos henabled]
    by_cases hr : r.input.enabled = true <;> by_cases hp : r.provider = call.provider
    · rw [if_pos hr, if_pos (show decide (r.disabled.provider = _) = true from decide_eq_true hp),
        if_pos hp]
      rfl
    · rw [if_pos hr, if_neg hp, if_neg]
      exact fun hsame => hp (of_decide_eq_true hsame)
    · rw [if_neg hr, if_pos (decide_eq_true hp), if_pos hp]
    · rw [if_neg hr, if_neg (by simpa using hp), if_neg hp]
      have hfalse : r.input.enabled = false := by simpa using hr
      rw [ProviderSetting.disabled, ← hfalse]
  · rw [if_neg henabled, SettingsTable.write, Table.rows_update, setWhere]
    refine List.map_congr_left fun r _ => ?_
    rw [if_neg henabled]
    simp only [decide_eq_true_eq]

/-- With one enabled provider at most, an update of a row changes nothing exactly when it sets
what the row has. -/
theorem written_eq_self_iff {row : ProviderSetting} (h : Exclusive t.rows)
    (hrow : t.findBy? call.provider = some row) :
    (cleared t call).write call.provider call.input = t ↔ row.input = call.input := by
  obtain ⟨hmem, hprovider⟩ := Table.findBy?_eq_some.mp hrow
  rw [Table.ext_iff, rows_written]
  constructor
  · intro hsame
    have hset : row.set call.input ∈ assigned call t.rows :=
      List.mem_map.mpr ⟨row, hmem, if_pos hprovider⟩
    rw [hsame] at hset
    have hfound := Table.findBy?_eq_some.mpr ⟨hset, hprovider⟩
    rw [hrow] at hfound
    exact congrArg ProviderSetting.input (Option.some.inj hfound)
  · intro hinput
    refine (List.map_congr_left fun r hr => ?_).trans (List.map_id _)
    rw [id]
    by_cases hp : r.provider = call.provider
    · have hfound := Table.findBy?_eq_some.mpr ⟨hr, hp⟩
      rw [hrow] at hfound
      obtain rfl := Option.some.inj hfound
      rw [if_pos hp, ← hinput]
      rfl
    · rw [if_neg hp]
      by_cases henabled : call.input.enabled = true
      · -- another row is enabled only beside the one of the provider
        have hfalse : r.input.enabled = false := by
          rw [← Bool.not_eq_true]
          intro hr'
          exact hp ((h r hr row hmem hr' (hinput ▸ henabled)).trans hprovider)
        rw [if_pos henabled, ProviderSetting.disabled, ← hfalse]
      · rw [if_neg henabled]

/-! ### Calls on the database -/

/-- A call that is refused changes nothing; another one writes. -/
theorem updateDatabase_cases (t : SettingsTable) (call : ProviderCall) :
    (Refused t call ∧ ∃ e, updateDatabase t call = (.error e, t)) ∨
      ¬ Refused t call ∧
        updateDatabase t call = writeSetting t call (settingOf (listed t) call.provider) := by
  unfold updateDatabase Refused
  by_cases hreason : noReason call = true
  · rw [if_pos hreason]
    exact Or.inl ⟨Or.inl hreason, _, rfl⟩
  · rw [if_neg hreason]
    by_cases hread : (call.input.enabled && !call.input.sandbox && call.fails .readConflicts) = true
    · rw [if_pos hread]
      exact Or.inl ⟨Or.inr (Or.inl hread), _, rfl⟩
    · rw [if_neg hread]
      cases hconflict : conflicting (listed t) call with
      | some setting => exact Or.inl ⟨Or.inr (Or.inr (Or.inl rfl)), _, rfl⟩
      | none =>
        by_cases hcurrent : call.fails .readCurrent = true
        · exact Or.inl ⟨Or.inr (Or.inr (Or.inr hcurrent)), _, if_pos hcurrent⟩
        · refine Or.inr ⟨?_, if_neg hcurrent⟩
          rintro (h | h | h | h)
          · exact hreason h
          · exact hread h
          · cases h
          · exact hcurrent h

/-- What the end of an update upholds, of the table it comes to. -/
theorem upholds_of_finish (h : updateDatabase t call = finish call t') :
    Upholds listed updateDatabase t call ↔
      if call.fails .audit = true ∨ call.fails .readBack = true then t' = t
      else Exclusive t'.rows ∧
        (settingOf (listed t') call.provider).map ProviderSetting.input = some call.input := by
  unfold finish at h
  by_cases hfails : call.fails .audit = true ∨ call.fails .readBack = true
  · rw [if_pos (by simpa using hfails)] at h
    rw [if_pos hfails, upholds_iff_of_error h]
  · rw [if_neg (by simpa using hfails)] at h
    rw [if_neg hfails, upholds_iff_of_ok h, exclusive_listed_iff]

theorem rows_insert {r : ProviderSetting} (h : t.insert? r = some t') : t'.rows = t.rows ++ [r] := by
  unfold Table.insert? at h
  split at h
  · rw [← Option.some.inj h]
  · cases h

/-- Without a row for any provider, an update upholds its promise when it fails or sets what
is seeded. -/
theorem upholds_of_empty (hrows : t.rows = []) (hrefused : ¬ Refused t call) :
    Upholds listed updateDatabase t call ↔ Safe t call := by
  have hlisted : listed t = seededProviderSettings := by
    rw [listed, hrows]
    rfl
  obtain ⟨current, hcurrent⟩ := Option.isSome_iff_exists.mp (complete_seeded.all call.provider)
  have hnone : NoneEnabled t := fun r hr => absurd (hrows ▸ hr) List.not_mem_nil
  have hsame : (cleared t call).write call.provider call.input = t := by
    rw [Table.ext_iff, rows_written, hrows]
    rfl
  rcases updateDatabase_cases t call with ⟨h, -⟩ | ⟨-, hwrite⟩
  · exact absurd h hrefused
  rw [hlisted, hcurrent, writeSetting, hsame] at hwrite
  rw [Safe, or_iff_right hrefused, if_pos (by rw [hrows]; rfl)]
  by_cases hdisable : (call.input.enabled && call.fails .disableAll) = true
  · rw [if_pos hdisable] at hwrite
    exact iff_of_true ((upholds_iff_of_error hwrite).mpr rfl) (Or.inl hdisable)
  rw [if_neg hdisable] at hwrite
  rw [or_iff_right hdisable]
  by_cases hfails : call.fails .write = true
  · rw [if_pos hfails] at hwrite
    exact iff_of_true ((upholds_iff_of_error hwrite).mpr (cleared_eq_self_iff.mpr fun _ => hnone))
      (Or.inl hfails)
  rw [if_neg hfails] at hwrite
  rw [or_iff_right hfails, upholds_of_finish hwrite, hlisted, ← or_assoc]
  by_cases hend : call.fails .audit = true ∨ call.fails .readBack = true
  · rw [if_pos hend]
    exact iff_of_true rfl (Or.inl hend)
  · rw [if_neg hend, or_iff_right hend]
    exact and_iff_right fun s hs => absurd (hrows ▸ hs) List.not_mem_nil

/-- With a row for the provider, an update upholds its promise unless a statement fails when a
row was changed. -/
theorem upholds_of_row {row : ProviderSetting} (h : Exclusive t.rows)
    (hrow : t.findBy? call.provider = some row) (hrefused : ¬ Refused t call) :
    Upholds listed updateDatabase t call ↔ Safe t call := by
  obtain ⟨hmem, hprovider⟩ := Table.findBy?_eq_some.mp hrow
  have hrows : t.rows ≠ [] := List.ne_nil_of_mem hmem
  rcases updateDatabase_cases t call with ⟨h, -⟩ | ⟨-, hwrite⟩
  · exact absurd h hrefused
  rw [settingOf_listed hrows, hrow, writeSetting] at hwrite
  rw [Safe, or_iff_right hrefused, if_neg (by simpa using hrows), hrow]
  dsimp only
  by_cases hdisable : (call.input.enabled && call.fails .disableAll) = true
  · rw [if_pos hdisable] at hwrite
    exact iff_of_true ((upholds_iff_of_error hwrite).mpr rfl) (Or.inl hdisable)
  rw [if_neg hdisable] at hwrite
  rw [or_iff_right hdisable]
  by_cases hfails : call.fails .write = true
  · rw [if_pos hfails] at hwrite ⊢
    rw [upholds_iff_of_error hwrite, cleared_eq_self_iff]
  rw [if_neg hfails] at hwrite ⊢
  rw [upholds_of_finish hwrite]
  by_cases hend : call.fails .audit = true ∨ call.fails .readBack = true
  · rw [if_pos hend, written_eq_self_iff h hrow]
    exact ⟨fun hinput _ => hinput, fun hinput => hinput hend⟩
  · rw [if_neg hend, rows_written]
    refine iff_of_true ⟨h.assigned call, ?_⟩ fun hor => absurd hor hend
    have hwritten : ((cleared t call).write call.provider call.input).findBy? call.provider =
        some (row.set call.input) := by
      refine Table.findBy?_eq_some.mpr ⟨?_, hprovider⟩
      rw [rows_written]
      exact List.mem_map.mpr ⟨row, hmem, if_pos hprovider⟩
    have hne : ((cleared t call).write call.provider call.input).rows ≠ [] :=
      List.ne_nil_of_mem (Table.findBy?_eq_some.mp hwritten).1
    rw [settingOf_listed hne, hwritten]
    rfl

/-- With rows for other providers alone, an update upholds its promise when nothing is
inserted, or when all is filed and no provider is enabled beside another. -/
theorem upholds_of_no_row (h : Exclusive t.rows) (hrows : t.rows ≠ [])
    (hnone : t.findBy? call.provider = none) (hrefused : ¬ Refused t call) :
    Upholds listed updateDatabase t call ↔ Safe t call := by
  rcases updateDatabase_cases t call with ⟨h, -⟩ | ⟨-, hwrite⟩
  · exact absurd h hrefused
  rw [settingOf_listed hrows, hnone, writeSetting] at hwrite
  rw [Safe, or_iff_right hrefused, if_neg (by simpa using hrows), hnone]
  dsimp only
  by_cases hfails : call.fails .write = true
  · rw [if_pos hfails] at hwrite
    exact iff_of_true ((upholds_iff_of_error hwrite).mpr rfl) (Or.inl hfails)
  rw [if_neg hfails] at hwrite
  rw [or_iff_right hfails]
  have hprovider : call.provider ∉ t.rows.map ProviderSetting.provider := by
    intro hmem
    obtain ⟨r, hr, hp⟩ := List.mem_map.mp hmem
    exact Table.findBy?_eq_none.mp hnone r hr hp
  by_cases hid : (t.find? (newRow call).id).isSome = true
  · have hinsert : t.insert? (newRow call) = none := by
      refine dif_neg fun hnew => hnew.2.1 ?_
      obtain ⟨r, hr⟩ := Option.isSome_iff_exists.mp hid
      obtain ⟨hmem, hsame⟩ := Table.find?_eq_some.mp hr
      exact List.mem_map.mpr ⟨r, hmem, hsame⟩
    rw [hinsert] at hwrite
    exact iff_of_true ((upholds_iff_of_error hwrite).mpr rfl) (Or.inl hid)
  rw [or_iff_right hid]
  obtain ⟨t', hinsert⟩ : ∃ t', t.insert? (newRow call) = some t' := by
    refine ⟨_, dif_pos ⟨rfl, fun hmem => hid ?_, hprovider⟩⟩
    obtain ⟨r, hr, hsame⟩ := List.mem_map.mp hmem
    exact Option.isSome_iff_exists.mpr ⟨r, Table.find?_eq_some.mpr ⟨hr, hsame⟩⟩
  rw [hinsert] at hwrite
  have hrows' := rows_insert hinsert
  rw [upholds_of_finish hwrite]
  by_cases hend : call.fails .audit = true ∨ call.fails .readBack = true
  · -- the row stays though the call raises
    rw [if_pos hend]
    refine iff_of_false (fun hsame => ?_) fun hall => ?_
    · rw [Table.ext_iff, hrows'] at hsame
      exact List.cons_ne_nil _ _ (List.append_right_eq_self.mp hsame)
    · rcases hend with hend | hend
      · rw [hall.1] at hend
        cases hend
      · rw [hall.2.1] at hend
        cases hend
  · rw [if_neg hend]
    have hfound : t'.findBy? call.provider = some (newRow call) :=
      Table.findBy?_eq_some.mpr ⟨by rw [hrows']; exact List.mem_append_right _ List.mem_cons_self, rfl⟩
    have hne : t'.rows ≠ [] := List.ne_nil_of_mem (Table.findBy?_eq_some.mp hfound).1
    rw [not_or, Bool.not_eq_true, Bool.not_eq_true] at hend
    have hinput : (some (newRow call)).map ProviderSetting.input = some call.input := rfl
    rw [settingOf_listed hne, hfound, and_iff_left hinput, hrows']
    constructor
    · refine fun hexclusive => ⟨hend.1, hend.2, fun henabled r hr => ?_⟩
      rw [← Bool.not_eq_true]
      intro hr'
      have hsame := hexclusive r (List.mem_append_left _ hr) (newRow call)
        (List.mem_append_right _ List.mem_cons_self) hr' henabled
      exact hprovider (List.mem_map.mpr ⟨r, hr, hsame⟩)
    · rintro ⟨-, -, halone⟩ s hs s' hs' henabled henabled'
      rcases List.mem_append.mp hs with hs | hs <;> rcases List.mem_append.mp hs' with hs' | hs'
      · exact h s hs s' hs' henabled henabled'
      · obtain rfl := List.mem_singleton.mp hs'
        rw [halone henabled' s hs] at henabled
        cases henabled
      · obtain rfl := List.mem_singleton.mp hs
        rw [halone henabled s' hs'] at henabled'
        cases henabled'
      · rw [List.mem_singleton.mp hs, List.mem_singleton.mp hs']

/-- **A call on the database** upholds its promise exactly when it is safe. -/
theorem upholds_updateDatabase_iff (h : Exclusive t.rows) :
    Upholds listed updateDatabase t call ↔ Safe t call := by
  by_cases hrefused : Refused t call
  · rcases updateDatabase_cases t call with ⟨-, e, herror⟩ | ⟨hnot, -⟩
    · exact iff_of_true ((upholds_iff_of_error herror).mpr rfl) (Or.inl hrefused)
    · exact absurd hrefused hnot
  · by_cases hrows : t.rows = []
    · exact upholds_of_empty hrows hrefused
    · cases hrow : t.findBy? call.provider with
      | some row => exact upholds_of_row h hrow hrefused
      | none => exact upholds_of_no_row h hrows hrow hrefused

/-- A call that upholds its promise leaves at most one enabled row. -/
theorem Upholds.exclusive (h : Exclusive t.rows) (hcall : Upholds listed updateDatabase t call) :
    Exclusive (updateDatabase t call).2.rows := by
  unfold Upholds at hcall
  split at hcall
  · exact exclusive_listed_iff.mp hcall.1
  · rw [hcall]
    exact h

/-! ### Runs -/

/-- The settings a run of calls leaves in memory, from the seeded ones. -/
def localStep (production : Bool) (settings : List ProviderSetting) (call : ProviderCall) :
    List ProviderSetting := (updateLocal production settings call).2

/-- The table a run of calls leaves. -/
def databaseStep (t : SettingsTable) (call : ProviderCall) : SettingsTable := (updateDatabase t call).2

/-- A table in which at most one provider is enabled. -/
def ExclusiveTable : Type := { t : SettingsTable // Exclusive t.rows }

/-- Where at most one provider is enabled, the payment provider does not depend on the order
of the settings. -/
theorem selectedPaymentProvider_perm {settings' : List ProviderSetting} (h : Exclusive settings)
    (hperm : settings'.Perm settings) (configured : Option PricingProvider) :
    selectedPaymentProvider settings' configured = selectedPaymentProvider settings configured := by
  have hfind : (settings'.find? fun s => s.input.enabled).map ProviderSetting.provider =
      (settings.find? fun s => s.input.enabled).map ProviderSetting.provider := by
    cases hfound : settings.find? fun s => s.input.enabled with
    | none =>
      have hnone := List.find?_eq_none.mp hfound
      rw [List.find?_eq_none.mpr fun s hs => hnone s (hperm.mem_iff.mp hs)]
    | some s =>
      have hs := List.mem_of_find?_eq_some hfound
      cases hfound' : settings'.find? fun s => s.input.enabled with
      | none =>
        exact absurd (List.find?_some hfound)
          (List.find?_eq_none.mp hfound' s (hperm.mem_iff.mpr hs))
      | some s' =>
        have hs' := hperm.mem_iff.mp (List.mem_of_find?_eq_some hfound')
        have henabled : s.input.enabled = true := by simpa using List.find?_some hfound
        have henabled' : s'.input.enabled = true := by simpa using List.find?_some hfound'
        exact congrArg some (h s' hs' s hs henabled' henabled)
  simp only [selectedPaymentProvider, hfind]

/-! ### A first call on an empty table -/

/-- The Toss provider is enabled for its sandbox. -/
def enableToss : ProviderCall where
  provider := .toss
  input := ⟨true, true, [], some "TOSS_SECRET_KEY"⟩
  reason := "enable"
  fails _ := false

end Pricing
end AiSaas
