import AiSaas.Migrations.Common
import Mathlib.Data.List.Nodup
import Mathlib.Data.List.TakeDrop

/-!
# What the preflight says of a migration history

`assessHistory` of `scripts/migration-preflight.mjs` compares the rows of the history
table with the committed migrations.  Whether the history is compatible is told place by
place; which migrations are pending is told by the pair of hash and time alone, wherever
in the history that pair is.

## Main definitions

* `assessHistory` — the assessment.
* `Assessment.Exact` — the history is told to be what it is: a beginning of the manifest,
  with the rest of it pending.
* `NoneRepeated` — no migration that is left has the pair of an applied one.

## Main results

* `assessHistory_exact_iff` — an assessment is exact exactly when no pair is repeated so.
* `forall_assessHistory_exact_iff` — a manifest has exact assessments only, exactly when
  its pairs are distinct.
-/

namespace AiSaas
namespace Migrations

/-- A row of the history table as the preflight selects it: `created_at` as it prints. -/
structure PreflightRow where
  id : ℤ
  hash : String
  createdAt : String

/-- The hash and the time of a row. -/
def PreflightRow.pair (row : PreflightRow) : String × String := (row.hash, row.createdAt)

/-- The hash and the time of a migration. -/
def Migration.pair (migration : Migration) : String × String := (migration.hash, migration.createdAt)

/-- `${hash}:${createdAt}`. -/
def pairText (pair : String × String) : String := pair.1 ++ ":" ++ pair.2

/-- A row that is not the migration of its place. -/
structure Mismatch where
  id : ℤ
  actualHash : String
  actualCreatedAt : String
  expectedTag : Option String
  expectedHash : Option String
  expectedCreatedAt : Option String

structure Assessment where
  pending : List Migration
  unexpected : List PreflightRow
  mismatched : List Mismatch
  compatible : Bool
  current : Bool

/-- What the row of one place mismatches. -/
def mismatch (migrations : List Migration) (row : PreflightRow) (index : ℕ) : List Mismatch :=
  let expected := migrations[index]?
  if expected.any fun migration => row.hash == migration.hash && row.createdAt == migration.createdAt
  then []
  else [⟨row.id, row.hash, row.createdAt, expected.map (·.tag), expected.map (·.hash),
    expected.map (·.createdAt)⟩]

def assessHistory (rows : List PreflightRow) (migrations : List Migration) : Assessment :=
  let expectedPairs := migrations.map fun migration => pairText migration.pair
  let appliedPairs := rows.map fun row => pairText row.pair
  let pending := migrations.filter fun migration => !(appliedPairs.contains (pairText migration.pair))
  let unexpected := rows.filter fun row => !(expectedPairs.contains (pairText row.pair))
  let mismatched := rows.zipIdx.flatMap fun (row, index) => mismatch migrations row index
  { pending, unexpected, mismatched
    compatible := mismatched.isEmpty
    current := mismatched.isEmpty && pending.isEmpty }

/-! ### What an exact assessment is -/

/-- The rows are a beginning of the manifest. -/
def Applied (rows : List PreflightRow) (migrations : List Migration) : Prop :=
  rows.map PreflightRow.pair <+: migrations.map Migration.pair

/-- The assessment tells whether the rows are a beginning of the manifest and whether they
are all of it, and what is left of it. -/
structure Assessment.Exact (a : Assessment) (rows : List PreflightRow) (migrations : List Migration) :
    Prop where
  compatible : a.compatible = true ↔ Applied rows migrations
  pending : Applied rows migrations → a.pending = migrations.drop rows.length ∧ a.unexpected = []
  current : a.current = true ↔ rows.map PreflightRow.pair = migrations.map Migration.pair

/-- Where the rows are a beginning of the manifest, no migration behind it prints the hash
and the time of an applied one. -/
def NoneRepeated (rows : List PreflightRow) (migrations : List Migration) : Prop :=
  Applied rows migrations → ∀ migration ∈ migrations.drop rows.length,
    ∀ row ∈ rows, pairText migration.pair ≠ pairText row.pair

variable {rows : List PreflightRow} {migrations : List Migration}

/-! ### Places -/

theorem mismatch_eq_nil_iff {row : PreflightRow} {index : ℕ} :
    mismatch migrations row index = [] ↔ (migrations.map Migration.pair)[index]? = some row.pair := by
  rw [List.getElem?_map]
  unfold mismatch
  cases migrations[index]? with
  | none => simp
  | some migration =>
    simp only [Option.any_some, Option.map_some, Option.some.injEq, PreflightRow.pair, Migration.pair,
      Prod.mk.injEq]
    by_cases h : row.hash = migration.hash ∧ row.createdAt = migration.createdAt
    · simp [h.1, h.2]
    · rw [if_neg (by simpa using h)]
      simp only [List.cons_ne_nil, false_iff]
      intro heq
      exact h ⟨heq.1.symm, heq.2.symm⟩

/-- No row mismatches exactly when the rows are a beginning of the manifest. -/
theorem compatible_iff : (assessHistory rows migrations).compatible = true ↔ Applied rows migrations := by
  have hplaces : Applied rows migrations ↔ ∀ index (row : PreflightRow), rows[index]? = some row →
      mismatch migrations row index = [] := by
    rw [Applied, List.prefix_iff_getElem?]
    constructor
    · intro h index row hrow
      obtain ⟨hlt, rfl⟩ := List.getElem?_eq_some_iff.mp hrow
      have hpair := h index (by simpa using hlt)
      rw [List.getElem_map] at hpair
      exact mismatch_eq_nil_iff.mpr hpair
    · intro h index hlt
      rw [List.length_map] at hlt
      rw [List.getElem_map]
      exact mismatch_eq_nil_iff.mp (h index _ (List.getElem?_eq_getElem hlt))
  rw [hplaces]
  simp only [assessHistory, List.isEmpty_iff, List.flatMap_eq_nil_iff]
  constructor
  · intro h index row hrow
    exact h (row, index) (List.mem_zipIdx_iff_getElem?.mpr hrow)
  · rintro h ⟨row, index⟩ hmem
    exact h index row (List.mem_zipIdx_iff_getElem?.mp hmem)

/-! ### A beginning of the manifest -/

theorem Applied.take (h : Applied rows migrations) :
    rows.map PreflightRow.pair = (migrations.take rows.length).map Migration.pair := by
  have heq := List.prefix_iff_eq_take.mp h
  rwa [List.length_map, ← List.map_take] at heq

/-- No row of a beginning is unexpected. -/
theorem Applied.unexpected (h : Applied rows migrations) :
    (assessHistory rows migrations).unexpected = [] := by
  refine List.filter_eq_nil_iff.mpr fun row hrow => ?_
  have hmem : row.pair ∈ migrations.map Migration.pair :=
    h.subset (List.mem_map_of_mem hrow)
  obtain ⟨migration, hmigration, hpair⟩ := List.mem_map.mp hmem
  have hcontains : pairText row.pair ∈ migrations.map fun m => pairText m.pair :=
    List.mem_map.mpr ⟨migration, hmigration, by rw [hpair]⟩
  simpa using hcontains

/-- Of the manifest those are pending that are behind the rows and repeat none of them. -/
theorem Applied.pending (h : Applied rows migrations) :
    (assessHistory rows migrations).pending =
      (migrations.drop rows.length).filter fun migration =>
        !((rows.map fun row => pairText row.pair).contains (pairText migration.pair)) := by
  show migrations.filter _ = _
  conv_lhs => rw [← List.take_append_drop rows.length migrations]
  rw [List.filter_append, List.append_left_eq_self]
  refine List.filter_eq_nil_iff.mpr fun migration hmigration => ?_
  have hmem : migration.pair ∈ rows.map PreflightRow.pair :=
    h.take ▸ List.mem_map_of_mem hmigration
  obtain ⟨row, hrow, hpair⟩ := List.mem_map.mp hmem
  have hcontains : pairText migration.pair ∈ rows.map fun row => pairText row.pair :=
    List.mem_map.mpr ⟨row, hrow, by rw [hpair]⟩
  simpa using hcontains

/-- All that is behind the rows is pending exactly when none of it repeats a row. -/
theorem Applied.pending_eq_drop_iff (h : Applied rows migrations) :
    (assessHistory rows migrations).pending = migrations.drop rows.length ↔
      ∀ migration ∈ migrations.drop rows.length, ∀ row ∈ rows,
        pairText migration.pair ≠ pairText row.pair := by
  rw [h.pending, List.filter_eq_self]
  refine forall₂_congr fun migration _ => ?_
  rw [Bool.not_eq_true', ← Bool.not_eq_true, List.contains_iff_mem, List.mem_map]
  exact ⟨fun h row hrow heq => h ⟨row, hrow, heq.symm⟩, fun h ⟨row, hrow, heq⟩ => h row hrow heq.symm⟩

theorem Applied.eq_iff (h : Applied rows migrations) :
    rows.map PreflightRow.pair = migrations.map Migration.pair ↔ migrations.drop rows.length = [] := by
  rw [List.drop_eq_nil_iff]
  constructor
  · intro heq
    have hlength := congrArg List.length heq
    rw [List.length_map, List.length_map] at hlength
    exact hlength.ge
  · intro hle
    exact h.eq_of_length_le (by simpa using hle)

/-! ### The assessment -/

/-- **The assessment is exact** exactly when no migration that is left repeats an applied
one. -/
theorem assessHistory_exact_iff :
    (assessHistory rows migrations).Exact rows migrations ↔ NoneRepeated rows migrations := by
  constructor
  · intro hexact happlied
    exact happlied.pending_eq_drop_iff.mp (hexact.pending happlied).1
  · intro hnone
    have hpending : Applied rows migrations →
        (assessHistory rows migrations).pending = migrations.drop rows.length :=
      fun happlied => happlied.pending_eq_drop_iff.mpr (hnone happlied)
    refine ⟨compatible_iff, fun happlied => ⟨hpending happlied, happlied.unexpected⟩, ?_⟩
    have hcurrent : (assessHistory rows migrations).current = true ↔
        Applied rows migrations ∧ (assessHistory rows migrations).pending = [] := by
      rw [← compatible_iff]
      simp [assessHistory]
    rw [hcurrent]
    constructor
    · rintro ⟨happlied, hnil⟩
      exact happlied.eq_iff.mpr (hpending happlied ▸ hnil)
    · intro heq
      have happlied : Applied rows migrations := ⟨[], by rw [List.append_nil, heq]⟩
      exact ⟨happlied, (hpending happlied).trans (happlied.eq_iff.mp heq)⟩

/-- A row as the migration it applies leaves it. -/
def Migration.row (migration : Migration) : PreflightRow := ⟨0, migration.hash, migration.createdAt⟩

/-- **A manifest has exact assessments only**, whatever the rows are, exactly when no two of
its migrations print the same hash and time. -/
theorem forall_assessHistory_exact_iff :
    (∀ rows, (assessHistory rows migrations).Exact rows migrations) ↔
      (migrations.map fun migration => pairText migration.pair).Nodup := by
  simp only [assessHistory_exact_iff]
  constructor
  · intro h
    refine List.pairwise_iff_getElem.mpr fun i j hi hj hij => ?_
    rw [List.length_map] at hi hj
    rw [List.getElem_map, List.getElem_map]
    -- the history that ends with the first of the two
    have happlied : Applied ((migrations.take (i + 1)).map Migration.row) migrations := by
      rw [Applied, List.map_map]
      exact (List.take_prefix _ _).map _
    have hlength : ((migrations.take (i + 1)).map Migration.row).length = i + 1 := by
      simp only [List.length_map, List.length_take]
      omega
    have hlater : migrations[j] ∈ migrations.drop (i + 1) := by
      refine List.mem_iff_getElem.mpr ⟨j - (i + 1), ?_, ?_⟩
      · rw [List.length_drop]
        omega
      · rw [List.getElem_drop]
        congr 1
        omega
    have hearlier : migrations[i] ∈ migrations.take (i + 1) := by
      refine List.mem_iff_getElem.mpr ⟨i, ?_, List.getElem_take⟩
      rw [List.length_take]
      omega
    exact (h _ happlied _ (hlength.symm ▸ hlater) _ (List.mem_map_of_mem hearlier)).symm
  · intro h rows happlied migration hmigration row hrow heq
    have hpair : row.pair ∈ (migrations.take rows.length).map Migration.pair :=
      happlied.take ▸ List.mem_map_of_mem hrow
    obtain ⟨earlier, hearlier, hpair⟩ := List.mem_map.mp hpair
    have htexts := List.disjoint_take_drop h (le_refl rows.length)
    rw [← List.map_take, ← List.map_drop] at htexts
    refine htexts (List.mem_map_of_mem hearlier) ?_
    rw [hpair, ← heq]
    exact List.mem_map_of_mem hmigration

/-! ### A text that is committed twice -/

/-- Two migrations of one text that were made at one time. -/
def twiceDir : MigrationDir where
  journalPath := "apps/web/drizzle/meta/_journal.json"
  journal := some (.ok (some [⟨0, some "0000_seed", "1700000000000"⟩,
    ⟨1, some "0001_seed_again", "1700000000000"⟩]))
  sqlFile tag := if tag = "0000_seed" ∨ tag = "0001_seed_again" then some "select 1;\n" else none

/-- The digest of their text. -/
def twiceHash : String := "4a45092ccf992ea92250053a80b931b787924ba61648f420555511b84f10ab6c"

/-- The history of a database to which the first of them was applied. -/
def onceApplied : PreflightRow := ⟨1, twiceHash, "1700000000000"⟩

/-- What is read of them. -/
def twiceManifest : List Migration :=
  [⟨0, "0000_seed", "1700000000000", twiceHash, "select 1;\n"⟩,
    ⟨1, "0001_seed_again", "1700000000000", twiceHash, "select 1;\n"⟩]

/-- The history is called current with the second migration left. -/
theorem repeated_current :
    readMigrationManifest (fun _ => twiceHash) twiceDir = .ok twiceManifest ∧
      (assessHistory [onceApplied] twiceManifest).current = true ∧
      ¬ (assessHistory [onceApplied] twiceManifest).Exact [onceApplied] twiceManifest := by
  refine ⟨?_, by decide, ?_⟩
  · show readEntries _ _ [] (List.mergeSort [_, _] _) = .ok _
    rw [List.mergeSort_of_pairwise (by decide)]
    rfl
  · rw [assessHistory_exact_iff]
    intro h
    exact h ⟨[(twiceHash, "1700000000000")], rfl⟩ _ (List.mem_singleton.mpr rfl) onceApplied
      (List.mem_singleton.mpr rfl) rfl

end Migrations
end AiSaas
