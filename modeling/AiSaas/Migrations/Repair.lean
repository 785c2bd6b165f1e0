import AiSaas.Lib.Processes
import AiSaas.Lib.Tables
import AiSaas.Lib.Transactions
import AiSaas.Migrations.Confirmation
import AiSaas.Migrations.Destructive
import Mathlib.Algebra.GroupWithZero.Nat

/-!
# Repair of the migration history

`scripts/migration-history-repair.mjs` from its first query on.  The script reads the history
and the tables it is going to check, decides from what it read whether it may write, and
writes in one transaction.  Between its queries, and before it writes, others may change the
history and the public tables.

* `collectState` — what it reads, one query at a time.
* `validateCandidate`, `validateLegacyCleanup` — what a repair and a cleanup refuse.
* `applyRepair`, `cleanupLegacyFaq` — what they write.
* `main` — the script.
-/

namespace AiSaas
namespace Migrations

open Relational Transaction Processes

/-! ### The database -/

/-- A row of `drizzle.__drizzle_migrations`. -/
structure HistoryRow where
  id : ℤ
  hash : String
  createdAt : Option ℤ
deriving DecidableEq

abbrev History := Table HistoryRow.id HistoryRow.id fun _ => true

/-- A row of `public.faq_entries`; its timestamps in microseconds. -/
structure FaqRow where
  id : String
  slug : String
  locale : String
  category : String
  question : String
  answer : String
  aliases : List String
  active : Bool
  displayOrder : ℤ
  createdAt : ℤ
  updatedAt : ℤ
deriving DecidableEq

abbrev Faq := Table FaqRow.id (fun r => (r.locale, r.slug)) fun _ => true

/-- A FAQ row as the driver hands it over and as it is filed: a `Date` has milliseconds. -/
structure FiledFaq where
  id : String
  slug : String
  locale : String
  category : String
  question : String
  answer : String
  aliases : List String
  active : Bool
  displayOrder : ℤ
  createdAt : ℤ
  updatedAt : ℤ
deriving DecidableEq

def FaqRow.filed (r : FaqRow) : FiledFaq :=
  ⟨r.id, r.slug, r.locale, r.category, r.question, r.answer, r.aliases, r.active, r.displayOrder,
    r.createdAt / 1000, r.updatedAt / 1000⟩

/-- The row that is put back from a filed one. -/
def FiledFaq.restored (a : FiledFaq) : FaqRow :=
  ⟨a.id, a.slug, a.locale, a.category, a.question, a.answer, a.aliases, a.active, a.displayOrder,
    a.createdAt * 1000, a.updatedAt * 1000⟩

/-- What a conflict is filed as. -/
structure FaqConflict where
  id : String
  slug : String
  locale : String
deriving DecidableEq

/-- A row of `drizzle.__drizzle_migrations_repair_backup`; a column that is not there yet
reads as its default. -/
structure BackupRow where
  repairKey : String
  target : String
  neonBranch : String
  repairedAt : ℤ
  originalRows : List HistoryRow
  originalFaqRows : List FaqConflict
  legacyFaqRows : List FiledFaq
deriving DecidableEq

abbrev Backup := Table BackupRow.repairKey BackupRow.repairKey fun _ => true

/-- The public tables a repair looks at, where they are there; of the pricing tables the
currency of each row. -/
structure Public where
  faq : Option Faq
  pricing : Option (List String)
  catalog : Option (List String)

structure Database where
  history : History
  data : Public
  backup : Option Backup

/-! ### What a run goes by -/

/-- The server: how it reads a `bigint`, its order of texts, and the statements it runs on
the public tables. -/
structure Server where
  bigint : String → Option ℤ
  textLe : String → String → Bool
  execute : String → Public → Except String Public

def repairKeyFor (target : String) : String := s!"{target}-canonical-v1"

def legacyHistory : List (ℤ × String × String) :=
  [(1, "19d877e52b3a5780ba6e4146c5fa08510b5b0c53e9c3a09c506f3cbebf7bb1e3", "1789779671842"),
    (2, "a4511550b760a7b552a6407563d01a4480b21db42fb1afc4d1f7dde39108931b", "1789780992501"),
    (3, "c05dca8eb9e077cd4fce512e7801e90c76568636c4db86946822185d591808ed", "1789784587150"),
    (4, "c2ec2bdfd4a8cffd0810cfd6724f773e8f0e2d3c6051b556fbd0956c6fe1f57d", "1789895455546"),
    (5, "b412411652ff5c21daddebeaf718a84b152cbde3e120e315aab7e6aea47b6cc8", "1789908105531"),
    (6, "8f051805da143cc1fe5072e3a1992e5c7e59bc6c753a856e0fd3884d87a71d1a", "1789915678999"),
    (7, "ca15976228b72e97c66f7e326b076479605e079e46f056cf099f6c30eabdb27f", "1789987873381")]

def requiredFaqIds : List String :=
  ["faq-getting-started", "faq-google-login", "faq-local-development", "faq-pricing-billing",
    "faq-support"]

def requiredFaqSlugs : List String :=
  ["getting-started", "google-login", "local-development", "agent-run", "pricing-billing", "support"]

def legacyFaqIds : List String := ["guides", "workspace", "support"]

/-! ### The reading -/

/-- `[Number(row.id), row.hash, String(row.created_at)]`. -/
def rowTuple (row : HistoryRow) : ℤ × String × String :=
  (row.id, row.hash, match row.createdAt with
    | none => "null"
    | some createdAt => toString createdAt)

def sameRows (actual : List HistoryRow) (expected : List (ℤ × String × String)) : Bool :=
  decide (actual.map rowTuple = expected)

/-- `select … order by id`. -/
def History.ordered (history : History) : List HistoryRow :=
  history.rows.mergeSort fun r r' => decide (r.id ≤ r'.id)

/-- The error for a table that is not there. -/
def missing (table : String) : String := s!"relation \"{table}\" does not exist"

/-- The rows of the FAQ that meet a condition, in the order of their ids. -/
def selectFaq (server : Server) (p : FaqRow → Bool) (db : Database) : Except String (List FaqRow) := do
  let faq ← orRaise db.data.faq (missing "public.faq_entries")
  return (faq.rows.filter p).mergeSort fun r r' => server.textLe r.id r'.id

/-- `select currency, count(*) … group by currency order by currency`. -/
def countByCurrency (server : Server) (rows : List String) : List (String × ℕ) :=
  (rows.dedup.mergeSort server.textLe).map fun currency => (currency, rows.count currency)

/-- `[index + 1, migration.hash, migration.createdAt]`, counting from `id`. -/
def expectedFrom : ℤ → List Migration → List (ℤ × String × String)
  | _, [] => []
  | id, migration :: migrations =>
    (id, migration.hash, migration.createdAt) :: expectedFrom (id + 1) migrations

structure State where
  history : List HistoryRow
  expected : List (ℤ × String × String)
  faqTable : Bool
  pricingTable : Bool
  catalogTable : Bool
  faqRows : List FaqRow
  faqConflicts : List FaqConflict
  legacyFaqRows : List FiledFaq
  repairBackup : Bool
  currencies : List (String × ℕ)
  catalogCurrencies : List (String × ℕ)

structure Check where
  name : String
  ok : Bool
  detail : String
deriving DecidableEq

def validateLegacyCleanup (state : State) : List Check :=
  [⟨"canonical-history", sameRows state.history state.expected, "migration history is current"⟩,
    ⟨"repair-backup", state.repairBackup, "repair backup table exists"⟩,
    ⟨"legacy-faq-rows", true, s!"{state.legacyFaqRows.length} legacy FAQ rows found"⟩,
    ⟨"legacy-faq-scope", state.legacyFaqRows.all fun row => legacyFaqIds.contains row.id,
      "cleanup is limited to known legacy FAQ ids"⟩]

/-- The signature of the drift is known for the staging history alone. -/
def validateCandidate (state : State) (target : String) : List Check :=
  [if target = "staging" then
      ⟨"legacy-history-signature", sameRows state.history legacyHistory,
        s!"{state.history.length} history rows"⟩
    else ⟨"legacy-history-signature", true,
      s!"skipped (target={target}; staging signature is not applicable)"⟩,
    ⟨"faq-table", state.faqTable, "public.faq_entries exists"⟩,
    ⟨"pricing-table", state.pricingTable, "public.pricing_options exists"⟩,
    ⟨"catalog-table", state.catalogTable, "public.pricing_catalog_settings exists"⟩,
    ⟨"faq-baseline", state.faqRows.length == requiredFaqIds.length,
      s!"{state.faqRows.length}/{requiredFaqIds.length} canonical FAQ rows exist"⟩,
    ⟨"faq-conflicts", state.faqConflicts.all fun row => row.id ≠ "" && row.slug ≠ "",
      s!"{state.faqConflicts.length} legacy FAQ slug conflicts will be preserved"⟩,
    ⟨"pricing-baseline", (state.currencies.map (·.2)).sum == 5, "five pricing options exist"⟩,
    ⟨"catalog-baseline", (state.catalogCurrencies.map (·.2)).sum == 1,
      "platform catalog setting exists"⟩]

/-! ### What is written -/

section Writing

variable (server : Server) (session : RepairSession) (state : State) (now : ℤ)

/-- The conflict's row gets a slug of its own, unless another English row has it. -/
def preserveConflict (faq : Faq) (row : FaqConflict) : Except String Faq := do
  let legacySlug := s!"legacy-{row.id}"
  ensure (!(faq.rows.any fun r => r.locale == "en" && r.slug == legacySlug && r.id != row.id))
    s!"cannot preserve FAQ slug conflict for {row.id}: {legacySlug} is already used"
  orRaise (faq.modify? (fun r => r.id == row.id) fun r => { r with slug := legacySlug, updatedAt := now })
    "duplicate key value violates unique constraint"

/-- The loop over the conflicts; the table is needed where there are any. -/
def preserveConflicts (data : Public) : Except String Public :=
  if state.faqConflicts.isEmpty then .ok data
  else do
    let faq ← orRaise data.faq (missing "public.faq_entries")
    let faq ← state.faqConflicts.foldlM (preserveConflict now) faq
    return { data with faq := some faq }

/-- The statements of two migrations that are not blank. -/
def statementsOf (toss english : Migration) : List String :=
  (([toss.sql, english.sql].flatMap pieces).filter fun piece => !(trim piece).isEmpty).map String.ofList

theorem keeps_rewrite (hash : String) (createdAt : ℤ) : Keeps HistoryRow.id HistoryRow.id (fun _ => true)
    fun r => { r with hash, createdAt := some createdAt } where
  pk_eq _ := rfl
  uk_eq _ := rfl
  check_of _ _ := rfl

/-- `update drizzle.__drizzle_migrations set … where id = …`. -/
def rewriteRow (history : History) (row : ℤ × String × String) : Except String History := do
  let createdAt ← orRaise (server.bigint row.2.2) "invalid input syntax for type bigint"
  return history.update (fun r => r.id == row.1) _ (keeps_rewrite row.2.1 createdAt)

/-- The history with its rows rewritten, and none behind the expected ones. -/
def rewriteHistory (history : History) : Except String History := do
  let history ← state.expected.foldlM (rewriteRow server) history
  return history.delete fun r => decide ((state.expected.length : ℤ) < r.id)

/-- What a repair files of the history and the conflicts. -/
def backupOf : BackupRow :=
  ⟨repairKeyFor session.args.target, session.args.target, (session.env "NEON_BRANCH").getD "", now,
    state.history, state.faqConflicts, []⟩

/-- The counts behind the statements. -/
def verifyData (data : Public) : Except String Unit := do
  let pricing ← orRaise data.pricing (missing "public.pricing_options")
  let catalog ← orRaise data.catalog (missing "public.pricing_catalog_settings")
  let faq ← orRaise data.faq (missing "public.faq_entries")
  ensure (pricing.count "KRW" == 5 && catalog.count "KRW" == 1 &&
      (faq.rows.countP fun r => requiredFaqIds.contains r.id && r.locale == "en") == requiredFaqIds.length)
    "post-repair data verification failed"

/-- `applyRepair`; `granted` says whether the lock was free in time. -/
def applyRepair (granted : Bool) : Tx String Database Unit := fun db => do
  let missingMigrations := "canonical 0003/0005 migrations are required"
  let toss ← orRaise (session.migrations.find? fun m => m.tag == "0003_toss_catalog_krw") missingMigrations
  let english ← orRaise (session.migrations.find? fun m => m.tag == "0005_faq_english") missingMigrations
  ensure granted "canceling statement due to lock timeout"
  let backup := ((db.backup.getD .empty).insertOrIgnore (backupOf session state now)).1
  let data ← preserveConflicts state now db.data
  let data ← (statementsOf toss english).foldlM (fun data statement => server.execute statement data) data
  let history ← rewriteHistory server state db.history
  ensure (sameRows history.ordered state.expected) "post-repair history does not match canonical journal"
  verifyData data
  return ((), ⟨history, data, some backup⟩)

theorem keeps_archive (rows : List FiledFaq) : Keeps BackupRow.repairKey BackupRow.repairKey
    (fun _ => true) fun r => { r with legacyFaqRows := rows } where
  pk_eq _ := rfl
  uk_eq _ := rfl
  check_of _ _ := rfl

/-- `cleanupLegacyFaq`. -/
def cleanupLegacyFaq (granted : Bool) : Tx String Database Unit := fun db => do
  let faq ← orRaise db.data.faq (missing "public.faq_entries")
  ensure granted "canceling statement due to lock timeout"
  let backup ← orRaise db.backup (missing "drizzle.__drizzle_migrations_repair_backup")
  let backup := backup.update (fun r => r.repairKey == repairKeyFor session.args.target) _
    (keeps_archive state.legacyFaqRows)
  let faq := faq.delete fun r => legacyFaqIds.contains r.id
  ensure ((faq.rows.countP fun r => legacyFaqIds.contains r.id) == 0)
    "legacy FAQ cleanup verification failed"
  return ((), { db with data := { db.data with faq := some faq }, backup := some backup })

end Writing

/-! ### The script -/

/-- A query of the script, one of its transactions, or what others do to the history and the
public tables. -/
inductive RepairOp where
  | look
  | repair (session : RepairSession) (state : State)
  | cleanup (session : RepairSession) (state : State)
  | others (change : History × Public → History × Public)

abbrev RepairOp.Ans : RepairOp → Type
  | look => Database
  | _ => Unit

/-- The time, and whether a lock is free in time. -/
structure Circumstance where
  now : ℤ
  granted : Bool

def RepairOp.exec (server : Server) (c : Circumstance) :
    (op : RepairOp) → Database → Except String op.Ans × Database
  | look, db => (.ok db, db)
  | repair session state, db => atomically (applyRepair server session state c.now c.granted) db
  | cleanup session state, db => atomically (cleanupLegacyFaq session state c.granted) db
  | others change, db =>
    (.ok (), { db with history := (change (db.history, db.data)).1, data := (change (db.history, db.data)).2 })

abbrev Script (α : Type) := Prog RepairOp RepairOp.Ans String α

/-- One query. -/
def query {α : Type} (f : Database → Except String α) : Script α := do
  let db ← (Prog.perform RepairOp.look : Script Database)
  Prog.done (f db)

/-- A query of a table that was there. -/
def queryIf {α : Type} (found : Bool) (f : Database → Except String (List α)) : Script (List α) :=
  if found then query f else return []

/-- `collectState`. -/
def collectState (server : Server) (migrations : List Migration) : Script State := do
  let history ← query fun db => .ok db.history.ordered
  let faqTable ← query fun db => .ok db.data.faq.isSome
  let pricingTable ← query fun db => .ok db.data.pricing.isSome
  let catalogTable ← query fun db => .ok db.data.catalog.isSome
  let faqRows ← queryIf faqTable (selectFaq server fun r => requiredFaqIds.contains r.id)
  let faqConflicts ← queryIf faqTable (selectFaq server fun r =>
    r.locale == "en" && requiredFaqSlugs.contains r.slug && !requiredFaqIds.contains r.id)
  let legacyFaqRows ← queryIf faqTable (selectFaq server fun r => legacyFaqIds.contains r.id)
  let repairBackup ← query fun db => .ok db.backup.isSome
  let currencies ← queryIf pricingTable fun db =>
    (orRaise db.data.pricing (missing "public.pricing_options")).map (countByCurrency server)
  let catalogCurrencies ← queryIf catalogTable fun db =>
    (orRaise db.data.catalog (missing "public.pricing_catalog_settings")).map (countByCurrency server)
  return ⟨history, expectedFrom 1 migrations, faqTable, pricingTable, catalogTable, faqRows,
    faqConflicts.map fun r => ⟨r.id, r.slug, r.locale⟩, legacyFaqRows.map FaqRow.filed, repairBackup,
    currencies, catalogCurrencies⟩

/-- What is printed; the exit code is `0` where it is well. -/
structure RepairResult where
  ok : Bool
  target : String
  branch : String
  mode : String
  checks : List Check

def RepairResult.exitCode (result : RepairResult) : ℕ := if result.ok then 0 else 1

section Script

variable (server : Server) (session : RepairSession)

def resultOf (checks : List Check) : RepairResult :=
  ⟨checks.all Check.ok, session.args.target, session.branch,
    if session.args.apply then "apply" else "plan", checks⟩

def RepairResult.and (result : RepairResult) (checks : List Check) : RepairResult :=
  { result with checks := result.checks ++ checks }

/-- `main` from `collectState` on. -/
def main : Script RepairResult := do
  let state ← collectState server session.migrations
  if session.args.cleanupLegacy then
    let result := resultOf session (validateLegacyCleanup state)
    if !result.ok || !session.args.apply then return result
    else do
      Prog.perform (RepairOp.cleanup session state)
      return result.and [⟨"legacy-faq-cleanup", true, "known legacy FAQ rows removed and archived"⟩]
  else if sameRows state.history state.expected then
    return resultOf session [⟨"canonical-history", true,
      s!"{session.migrations.length} rows already current; no repair needed"⟩]
  else do
    let result := resultOf session (validateCandidate state session.args.target)
    if !result.ok || !session.args.apply then return result
    else do
      Prog.perform (RepairOp.repair session state)
      return result.and [⟨"canonical-history", true, s!"{session.migrations.length} rows restored"⟩,
        ⟨"data-verification", true, "KRW catalog and English FAQ verified"⟩]

end Script

/-! ### Processes -/

/-- A run of the script, or somebody else. -/
inductive RepairTask where
  | script (session : RepairSession)
  | others (change : History × Public → History × Public)

/-- Any number of runs of the script, and of others, on one database.  The backup table is
the script's own. -/
def repairSystem (server : Server) :
    System RepairTask RepairOp RepairOp.Ans String (Option RepairResult) Database Circumstance where
  program
    | .script session => do
      let result ← main server session
      return some result
    | .others change => do
      Prog.perform (RepairOp.others change)
      return none
  exec := RepairOp.exec server

end Migrations
end AiSaas
