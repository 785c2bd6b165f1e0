import AiSaas.Migrations.Common

/-!
# Confirmations of the migration scripts

A repair of the production history is asked to run in the workflow alone: the script
wants `GITHUB_ACTIONS` and, before it writes, two confirmations in its environment.
It reads them after it has loaded the dotenv file of the checkout, with every key
allowed, so a variable the process does not have is the file's to set.  The release
script takes its confirmations before it loads a file.

* `repairStart` — the repair script up to its first statement of SQL.
* `releaseStart` — the release script up to its first preflight.
* `Confined` — an unconfirmed production repair issues no SQL.
* `confined_iff` — this is so unless the file supplies what the process lacks.
* `release_confirmed` — an apply of the release script was confirmed at its start.
-/

namespace AiSaas
namespace Migrations

/-- The dotenv file a script reads: the one it is given, or one at the root. -/
inductive EnvPath
  | given (fromFile : String)
  | atRoot (name : String)

/-- What the scripts find around them: the dotenv files and their paths, the migration
directories (`none` is the default one), the digest and the driver's constructor. -/
structure Checkout where
  files : EnvPath → DotenvFile
  resolve : EnvPath → String
  migrations : Option String → MigrationDir
  sha256 : String → String
  postgres : String → Except String Unit

/-! ### The repair script -/

structure RepairArgs where
  target : String
  fromFile : String
  migrationDir : Option String
  apply : Bool
  cleanupLegacy : Bool
  json : Bool
deriving DecidableEq

/-- The loop over the arguments; an option at the end takes the empty text. -/
def readRepairArgs (args : RepairArgs) : List String → Except String RepairArgs
  | [] => .ok args
  | [value] =>
    if value = "--" then .ok args
    else if value = "--target" then .ok { args with target := "" }
    else if value = "--from-file" then .ok { args with fromFile := "" }
    else if value = "--migration-dir" then .ok { args with migrationDir := some "" }
    else if value = "--apply" then .ok { args with apply := true }
    else if value = "--cleanup-legacy" then .ok { args with cleanupLegacy := true }
    else if value = "--json" then .ok { args with json := true }
    else .error s!"unknown argument: {value}"
  | value :: next :: rest =>
    if value = "--" then readRepairArgs args (next :: rest)
    else if value = "--target" then readRepairArgs { args with target := next } rest
    else if value = "--from-file" then readRepairArgs { args with fromFile := next } rest
    else if value = "--migration-dir" then readRepairArgs { args with migrationDir := some next } rest
    else if value = "--apply" then readRepairArgs { args with apply := true } (next :: rest)
    else if value = "--cleanup-legacy" then
      readRepairArgs { args with cleanupLegacy := true } (next :: rest)
    else if value = "--json" then readRepairArgs { args with json := true } (next :: rest)
    else .error s!"unknown argument: {value}"

def parseRepairArgs (argv : List String) : Except String RepairArgs :=
  match readRepairArgs ⟨"", "", none, false, false, false⟩ argv with
  | .error message => .error message
  | .ok args =>
    if !(["staging", "production"].contains args.target) then
      .error "history repair is limited to --target staging or --target production"
    else if args.target = "production" && args.cleanupLegacy then
      .error "--cleanup-legacy is limited to --target staging"
    else .ok args

def protectedBranches : List String := ["production", "prod", "main", "master"]

/-- The lower case of a character, as far as the result is an ASCII letter: the Kelvin
sign is the one other character whose lower case is. -/
def lowerChar (c : Char) : Char := if c = '\u212a' then 'k' else c.toLower

/-- `(process.env[key] ?? "").trim().toLowerCase()`. -/
def label (value : Option String) : String :=
  String.ofList ((trim (value.getD "").toList).map lowerChar)

/-- A variable that is there and not empty. -/
def truthy (value : Option String) : Bool := value.getD "" ≠ ""

/-- What each mode of the production repair wants to find in the environment. -/
def confirmations (apply : Bool) : List (String × String) :=
  ("GITHUB_ACTIONS", "true") ::
    if apply then [("CONFIRM_PRODUCTION_DB", "production"), ("CONFIRM_HISTORY_REPAIR", "prod-repair-v1")]
    else []

def checkEnvironment (args : RepairArgs) (env : Environ) : Except String String :=
  let branch := label (env "NEON_BRANCH")
  let appEnv := label (env "APP_ENV")
  if !truthy (env "DATABASE_URL_UNPOOLED") then .error "DATABASE_URL_UNPOOLED is required"
  else if args.target = "production" then
    if appEnv ≠ "production" then .error "APP_ENV must be production"
    else if branch ≠ "production" then .error "NEON_BRANCH must be production"
    else if env "GITHUB_ACTIONS" ≠ some "true" then
      .error "production target is allowed only from GitHub Actions"
    else if args.apply ∧ env "CONFIRM_PRODUCTION_DB" ≠ some "production" then
      .error "set CONFIRM_PRODUCTION_DB=production"
    else if args.apply ∧ env "CONFIRM_HISTORY_REPAIR" ≠ some "prod-repair-v1" then
      .error "set CONFIRM_HISTORY_REPAIR=prod-repair-v1"
    else .ok branch
  else if appEnv ≠ "staging" then .error "APP_ENV must be staging"
  else if branch = "" ∨ branch ∈ protectedBranches then
    .error "NEON_BRANCH must be a non-production branch"
  else if args.apply ∧ env "CONFIRM_STAGING_DB" ≠ some "staging" then
    .error "set CONFIRM_STAGING_DB=staging"
  else if args.apply ∧ args.cleanupLegacy ∧ env "CONFIRM_LEGACY_CLEANUP" ≠ some "stage2" then
    .error "set CONFIRM_LEGACY_CLEANUP=stage2"
  else if args.apply ∧ !args.cleanupLegacy ∧ env "CONFIRM_HISTORY_REPAIR" ≠ some "stage2" then
    .error "set CONFIRM_HISTORY_REPAIR=stage2"
  else .ok branch

def RepairArgs.envFile (args : RepairArgs) : EnvPath :=
  if args.fromFile ≠ "" then .given args.fromFile
  else .atRoot (if args.target = "production" then ".env.production" else ".env.staging")

/-- What the repair script goes to the database with. -/
structure RepairSession where
  args : RepairArgs
  branch : String
  migrations : List Migration
  env : Environ

/-- `main` up to `collectState`: the file is loaded before the environment is checked. -/
def repairStart (checkout : Checkout) (argv : List String) (env : Environ) :
    Except String RepairSession := do
  let args ← parseRepairArgs argv
  let (_, env) ← loadDotenv env (checkout.files args.envFile) none
  if !truthy (env "DATABASE_URL_UNPOOLED") then
    throw s!"environment file not found and DATABASE_URL_UNPOOLED not set: {checkout.resolve args.envFile}"
  let branch ← checkEnvironment args env
  let migrations ← readMigrationManifest checkout.sha256 (checkout.migrations args.migrationDir)
  checkout.postgres ((env "DATABASE_URL_UNPOOLED").getD "")
  pure ⟨args, branch, migrations, env⟩

/-! ### The release script -/

structure ReleaseArgs where
  target : String
  mode : String
  fromFile : String
  staticOnly : Bool
deriving DecidableEq

/-- One mode, and only once. -/
def ReleaseArgs.choose (args : ReleaseArgs) (mode : String) : Except String ReleaseArgs :=
  if args.mode ≠ "" then .error "choose exactly one of --plan or --apply"
  else .ok { args with mode := mode }

def readReleaseArgs (args : ReleaseArgs) : List String → Except String ReleaseArgs
  | [] => .ok args
  | [value] =>
    if value = "--" then .ok args
    else if value = "--target" then .ok { args with target := "" }
    else if value = "--plan" then args.choose "plan"
    else if value = "--apply" then args.choose "apply"
    else if value = "--from-file" then .ok { args with fromFile := "" }
    else if value = "--static-only" then .ok { args with staticOnly := true }
    else .error s!"unknown argument: {value}"
  | value :: next :: rest =>
    if value = "--" then readReleaseArgs args (next :: rest)
    else if value = "--target" then readReleaseArgs { args with target := next } rest
    else if value = "--plan" then
      (args.choose "plan").bind fun args => readReleaseArgs args (next :: rest)
    else if value = "--apply" then
      (args.choose "apply").bind fun args => readReleaseArgs args (next :: rest)
    else if value = "--from-file" then readReleaseArgs { args with fromFile := next } rest
    else if value = "--static-only" then
      readReleaseArgs { args with staticOnly := true } (next :: rest)
    else .error s!"unknown argument: {value}"

def parseReleaseArgs (argv : List String) : Except String ReleaseArgs :=
  match readReleaseArgs ⟨"", "", "", false⟩ argv with
  | .error message => .error message
  | .ok args =>
    if !(["staging", "production"].contains args.target) then
      .error "--target must be staging or production"
    else if !(["plan", "apply"].contains args.mode) then
      .error "choose exactly one of --plan or --apply"
    else .ok args

/-- The keys a file may set for the preflight. -/
def envFileKeys : List String :=
  ["APP_ENV", "NEON_BRANCH", "DATABASE_URL", "DATABASE_URL_UNPOOLED", "REQUIRE_PGVECTOR"]

/-- The first of the candidates that is there is loaded. -/
def loadFirst (checkout : Checkout) (env : Environ) : List String → Except String Environ
  | [] => .ok env
  | candidate :: rest => do
    let (found, env') ← loadDotenv env (checkout.files (.atRoot candidate)) (some envFileKeys)
    if found then pure env' else loadFirst checkout env' rest

def loadDefaultEnv (checkout : Checkout) (env : Environ) (target fromFile : String) :
    Except String Environ := do
  if fromFile ≠ "" then
    let (found, env') ← loadDotenv env (checkout.files (.given fromFile)) (some envFileKeys)
    if !found then throw s!"environment file not found: {fromFile}"
    pure env'
  else if target = "production" then loadFirst checkout env [".env.production"]
  else loadFirst checkout env [".env.staging", ".env.local"]

/-- The confirmations as the process had them when it started. -/
structure ExplicitEnvironment where
  confirmStaging : Option String
  confirmProduction : Option String
  githubActions : Option String

def explicitEnvironment (env : Environ) : ExplicitEnvironment :=
  ⟨env "CONFIRM_STAGING_DB", env "CONFIRM_PRODUCTION_DB", env "GITHUB_ACTIONS"⟩

def assertApplyConfirmation (target : String) (explicit : ExplicitEnvironment) : Except String Unit :=
  if target = "staging" ∧ explicit.confirmStaging ≠ some "staging" then
    .error "staging apply requires CONFIRM_STAGING_DB=staging"
  else if target = "production" ∧ explicit.confirmProduction ≠ some "production" then
    .error "production apply requires CONFIRM_PRODUCTION_DB=production"
  else if target = "production" ∧ explicit.githubActions ≠ some "true" then
    .error "production apply is allowed only from GitHub Actions"
  else .ok ()

/-- `main` up to its first `runPreflight`, with the environment the child is given. -/
def releaseStart (checkout : Checkout) (argv : List String) (env : Environ) :
    Except String (ReleaseArgs × Environ) := do
  let args ← parseReleaseArgs argv
  let explicit := explicitEnvironment env
  let env ← loadDefaultEnv checkout env args.target args.fromFile
  if args.mode = "plan" then pure (args, env)
  else
    assertApplyConfirmation args.target explicit
    if args.staticOnly then throw "--static-only cannot be combined with --apply"
    pure (args, env)

/-! ### When the repair script goes on -/

/-- The environment has every confirmation of the mode. -/
def Confirmed (apply : Bool) (env : Environ) : Prop :=
  ∀ gate ∈ confirmations apply, env gate.1 = some gate.2

/-- A repair of the production history that was not confirmed when it started does not
go to the database. -/
def Confined (checkout : Checkout) (argv : List String) (env : Environ) : Prop :=
  ∀ args, parseRepairArgs argv = .ok args → args.target = "production" →
    ¬ Confirmed args.apply env → ∀ session, repairStart checkout argv env ≠ .ok session

/-- What a variable is once the file is loaded. -/
def loaded (env : Environ) (file : DotenvFile) (key : String) : Option String :=
  (env key).or (file.assigned none key)

/-- The process does not have the confirmation, and the file gives it. -/
def Supplies (env : Environ) (file : DotenvFile) (gate : String × String) : Prop :=
  env gate.1 = none ∧ file.assigned none gate.1 = some gate.2

/-- What a production repair needs apart from its confirmations, from the process, the
file and the directory. -/
structure Ready (checkout : Checkout) (env : Environ) (args : RepairArgs) : Prop where
  readable : ∀ message, checkout.files args.envFile ≠ .unreadable message
  url : truthy (loaded env (checkout.files args.envFile) "DATABASE_URL_UNPOOLED")
  appEnv : label (loaded env (checkout.files args.envFile) "APP_ENV") = "production"
  branch : label (loaded env (checkout.files args.envFile) "NEON_BRANCH") = "production"
  manifest : ∃ migrations,
    readMigrationManifest checkout.sha256 (checkout.migrations args.migrationDir) = .ok migrations
  client : checkout.postgres
    ((loaded env (checkout.files args.envFile) "DATABASE_URL_UNPOOLED").getD "") = .ok ()

/-- The file confirms a production repair in the place of the process: it supplies a
confirmation, and the others are there or supplied. -/
def FileConfirms (checkout : Checkout) (argv : List String) (env : Environ) : Prop :=
  ∃ args, parseRepairArgs argv = .ok args ∧ args.target = "production" ∧ Ready checkout env args ∧
    (∃ gate ∈ confirmations args.apply, Supplies env (checkout.files args.envFile) gate) ∧
    ∀ gate ∈ confirmations args.apply,
      env gate.1 = some gate.2 ∨ Supplies env (checkout.files args.envFile) gate

variable {checkout : Checkout} {argv : List String} {env : Environ} {args : RepairArgs}

theorem checkEnvironment_production (hargs : args.target = "production") :
    (∃ branch, checkEnvironment args env = .ok branch) ↔
      truthy (env "DATABASE_URL_UNPOOLED") ∧ label (env "APP_ENV") = "production" ∧
        label (env "NEON_BRANCH") = "production" ∧ Confirmed args.apply env := by
  unfold checkEnvironment Confirmed confirmations
  cases args.apply <;> simp [hargs] <;> split_ifs <;> simp_all

/-- The steps of the script that can stop it before its first statement. -/
theorem exists_repairStart : (∃ session, repairStart checkout argv env = .ok session) ↔
    ∃ args, parseRepairArgs argv = .ok args ∧ ∃ found later,
      loadDotenv env (checkout.files args.envFile) none = .ok (found, later) ∧
        truthy (later "DATABASE_URL_UNPOOLED") ∧ (∃ branch, checkEnvironment args later = .ok branch) ∧
        (∃ migrations, readMigrationManifest checkout.sha256 (checkout.migrations args.migrationDir)
          = .ok migrations) ∧
        checkout.postgres ((later "DATABASE_URL_UNPOOLED").getD "") = .ok () := by
  unfold repairStart
  cases parseRepairArgs argv with
  | error message => simp [bind, Except.bind]
  | ok args =>
    cases hload : loadDotenv env (checkout.files args.envFile) none with
    | error message => simp [bind, Except.bind, hload]
    | ok read =>
      obtain ⟨found, later⟩ := read
      cases hurl : truthy (later "DATABASE_URL_UNPOOLED") with
      | false => simp [bind, Except.bind, hload, hurl, throw, throwThe, MonadExceptOf.throw]
      | true =>
        cases hcheck : checkEnvironment args later with
        | error message => simp [bind, Except.bind, hload, hurl, hcheck]
        | ok branch =>
          cases hread : readMigrationManifest checkout.sha256 (checkout.migrations args.migrationDir) with
          | error message => simp [bind, Except.bind, hload, hurl, hcheck, hread]
          | ok migrations =>
            cases hclient : checkout.postgres ((later "DATABASE_URL_UNPOOLED").getD "") <;>
              simp [bind, Except.bind, hload, hurl, hcheck, hread, hclient, pure, Except.pure]

theorem not_mem_objectPrototype {apply : Bool} {gate : String × String}
    (hgate : gate ∈ confirmations apply) : gate.1 ∉ objectPrototype := by
  have hall : ∀ b, ∀ g ∈ confirmations b, g.1 ∉ objectPrototype := by decide
  exact hall apply gate hgate

theorem loaded_eq_some {file : DotenvFile} {gate : String × String} :
    loaded env file gate.1 = some gate.2 ↔ env gate.1 = some gate.2 ∨ Supplies env file gate := by
  rw [loaded, Option.or_eq_some_iff, Supplies]

/-- A production repair goes on when it is ready and finds each confirmation in the
process or in the file. -/
theorem repairStart_production (hparse : parseRepairArgs argv = .ok args)
    (htarget : args.target = "production") :
    (∃ session, repairStart checkout argv env = .ok session) ↔ Ready checkout env args ∧
      ∀ gate ∈ confirmations args.apply,
        loaded env (checkout.files args.envFile) gate.1 = some gate.2 := by
  have hkeys : "DATABASE_URL_UNPOOLED" ∉ objectPrototype ∧ "APP_ENV" ∉ objectPrototype ∧
      "NEON_BRANCH" ∉ objectPrototype := by decide
  rw [exists_repairStart]
  constructor
  · rintro ⟨args', hparse', found, later, hload, hurl, hcheck, hmanifest, hclient⟩
    cases hparse.symm.trans hparse'
    obtain ⟨-, happ, hbranch, hgates⟩ := (checkEnvironment_production htarget).mp hcheck
    rw [loadDotenv_apply hkeys.1 hload] at hurl hclient
    rw [loadDotenv_apply hkeys.2.1 hload] at happ
    rw [loadDotenv_apply hkeys.2.2 hload] at hbranch
    refine ⟨⟨fun message hfile => ?_, hurl, happ, hbranch, hmanifest, hclient⟩, fun gate hgate => ?_⟩
    · rw [hfile] at hload
      cases hload
    · rw [loaded, ← loadDotenv_apply (not_mem_objectPrototype hgate) hload]
      exact hgates gate hgate
  · rintro ⟨hready, hgates⟩
    obtain ⟨found, later, hload⟩ : ∃ found later,
        loadDotenv env (checkout.files args.envFile) none = .ok (found, later) := by
      cases hfile : checkout.files args.envFile with
      | missing => exact ⟨_, _, rfl⟩
      | unreadable message => exact absurd hfile (hready.readable message)
      | text content => exact ⟨_, _, rfl⟩
    have hurl := hready.url
    have hclient := hready.client
    have happ := hready.appEnv
    have hbranch := hready.branch
    rw [loaded, ← loadDotenv_apply hkeys.1 hload] at hurl hclient
    rw [loaded, ← loadDotenv_apply hkeys.2.1 hload] at happ
    rw [loaded, ← loadDotenv_apply hkeys.2.2 hload] at hbranch
    refine ⟨args, hparse, found, later, hload, hurl, ?_, hready.manifest, hclient⟩
    refine (checkEnvironment_production htarget).mpr ⟨hurl, happ, hbranch, fun gate hgate => ?_⟩
    rw [loadDotenv_apply (not_mem_objectPrototype hgate) hload]
    exact hgates gate hgate

/-- **Confirmation.**  An unconfirmed production repair issues no SQL, unless the file
supplies what the process lacks. -/
theorem confined_iff (checkout : Checkout) (argv : List String) (env : Environ) :
    Confined checkout argv env ↔ ¬ FileConfirms checkout argv env := by
  constructor
  · rintro hconfined ⟨args, hparse, htarget, hready, ⟨gate, hgate, hsupplied⟩, hgates⟩
    have hunconfirmed : ¬ Confirmed args.apply env := fun hconfirmed => by
      have hkept := hconfirmed gate hgate
      rw [hsupplied.1] at hkept
      cases hkept
    obtain ⟨session, hgoes⟩ := (repairStart_production hparse htarget).mpr
      ⟨hready, fun g hg => loaded_eq_some.mpr (hgates g hg)⟩
    exact hconfined args hparse htarget hunconfirmed session hgoes
  · intro hfile args hparse htarget hunconfirmed session hgoes
    obtain ⟨hready, hgates⟩ := (repairStart_production hparse htarget).mp ⟨session, hgoes⟩
    have hgates' := fun g hg => loaded_eq_some.mp (hgates g hg)
    refine hfile ⟨args, hparse, htarget, hready, ?_, hgates'⟩
    -- a confirmation that the process lacks can only come from the file
    by_contra hnone
    exact hunconfirmed fun gate hgate => (hgates' gate hgate).resolve_right fun hsupplied =>
      hnone ⟨gate, hgate, hsupplied⟩

namespace Sample

/-- A dotenv file with everything the script looks for. -/
def dotenv : String :=
  "DATABASE_URL_UNPOOLED=u\nAPP_ENV=production\nexport NEON_BRANCH = 'production'\r\nGITHUB_ACTIONS=true\nCONFIRM_PRODUCTION_DB=production\nCONFIRM_HISTORY_REPAIR=\x22prod-repair-v1\x22\n"

/-- A checkout with that file, one migration and a driver that takes any URL. -/
def workingCopy : Checkout where
  files := fun _ => .text dotenv
  resolve := fun _ => ".env.production"
  migrations := fun _ => ⟨"meta/_journal.json", some (.ok (some [⟨0, some "0000_init", "1"⟩])),
    fun _ => some "select 1"⟩
  sha256 := id
  postgres := fun _ => .ok ()

def applying : RepairArgs := ⟨"production", "", none, true, false, false⟩

theorem assigned_dotenv : ["DATABASE_URL_UNPOOLED", "APP_ENV", "NEON_BRANCH", "GITHUB_ACTIONS",
      "CONFIRM_PRODUCTION_DB", "CONFIRM_HISTORY_REPAIR"].map (DotenvFile.assigned (.text dotenv) none)
    = [some "u", some "production", some "production", some "true", some "production",
        some "prod-repair-v1"] := by
  decide +kernel

theorem loaded_workingCopy (key : String) :
    loaded (fun _ => none) (workingCopy.files applying.envFile) key
      = DotenvFile.assigned (.text dotenv) none key := Option.none_or

/-- An empty environment, and a file that confirms: the repair goes to the production
database. -/
theorem file_confirms_production :
    ¬ Confined workingCopy ["--target", "production", "--apply"] fun _ => none := by
  have hassigned := assigned_dotenv
  simp only [List.map_cons, List.map_nil, List.cons.injEq, and_true] at hassigned
  obtain ⟨hurl, happ, hbranch, hactions, hdb, hrepair⟩ := hassigned
  have hparse : parseRepairArgs ["--target", "production", "--apply"] = .ok applying := by decide
  intro hconfined
  have hready : Ready workingCopy (fun _ => none) applying := by
    refine ⟨fun _ h => (by cases h), ?_, ?_, ?_,
      ⟨[⟨0, "0000_init", "1", "select 1", "select 1"⟩], ?_⟩, rfl⟩
    · rw [loaded_workingCopy, hurl]
      decide
    · rw [loaded_workingCopy, happ]
      decide +kernel
    · rw [loaded_workingCopy, hbranch]
      decide +kernel
    · show readEntries id _ [] (List.mergeSort [_] _) = .ok _
      rw [List.mergeSort_singleton]
      rfl
  obtain ⟨session, hgoes⟩ := (repairStart_production hparse rfl).mpr ⟨hready, fun gate hgate => by
    rw [loaded_workingCopy]
    rcases List.mem_cons.mp hgate with rfl | hgate
    · rw [hactions]
    · rcases List.mem_cons.mp hgate with rfl | hgate
      · rw [hdb]
      · rw [List.mem_singleton.mp hgate, hrepair]⟩
  have hunconfirmed : ¬ Confirmed applying.apply fun _ => none := fun h => by
    cases h ("GITHUB_ACTIONS", "true") List.mem_cons_self
  exact hconfined applying hparse rfl hunconfirmed session hgoes

end Sample

/-! ### The release script keeps to its process -/

/-- What the release script wants before it applies to a target. -/
def releaseConfirmations (target : String) : List (String × String) :=
  if target = "production" then [("CONFIRM_PRODUCTION_DB", "production"), ("GITHUB_ACTIONS", "true")]
  else [("CONFIRM_STAGING_DB", "staging")]

/-- Loading a file for the preflight leaves the other variables as they are. -/
theorem loadFirst_apply {key : String} (hkey : key ∉ objectPrototype) (hallowed : key ∉ envFileKeys)
    {env env' : Environ} {candidates : List String}
    (h : loadFirst checkout env candidates = .ok env') : env' key = env key := by
  have hnot : allowed (some envFileKeys) key = false := by simpa [allowed] using hallowed
  induction candidates generalizing env with
  | nil =>
    cases h
    rfl
  | cons candidate rest ih =>
    rw [loadFirst] at h
    cases hload : loadDotenv env (checkout.files (.atRoot candidate)) (some envFileKeys) with
    | error message => simp [hload, bind, Except.bind] at h
    | ok read =>
      obtain ⟨found, env₁⟩ := read
      have hkept := loadDotenv_of_not_allowed hkey hnot hload
      cases found with
      | true =>
        simp [hload, bind, Except.bind, pure, Except.pure] at h
        rw [← h, hkept]
      | false =>
        simp [hload, bind, Except.bind] at h
        rw [ih h, hkept]

theorem loadDefaultEnv_apply {key : String} (hkey : key ∉ objectPrototype)
    (hallowed : key ∉ envFileKeys) {env env' : Environ} {target fromFile : String}
    (h : loadDefaultEnv checkout env target fromFile = .ok env') : env' key = env key := by
  unfold loadDefaultEnv at h
  split_ifs at h with hfile htarget
  · have hnot : allowed (some envFileKeys) key = false := by simpa [allowed] using hallowed
    cases hload : loadDotenv env (checkout.files (.given fromFile)) (some envFileKeys) with
    | error message => simp [hload, bind, Except.bind] at h
    | ok read =>
      obtain ⟨found, env₁⟩ := read
      have hkept := loadDotenv_of_not_allowed hkey hnot hload
      cases found with
      | true =>
        simp [hload, bind, Except.bind, pure, Except.pure] at h
        rw [← h, hkept]
      | false => simp [hload, bind, Except.bind, throw, throwThe, MonadExceptOf.throw] at h
  · exact loadFirst_apply hkey hallowed h
  · exact loadFirst_apply hkey hallowed h

theorem assertApplyConfirmation_eq_ok {target : String} (htarget : target = "staging" ∨ target = "production")
    (h : assertApplyConfirmation target (explicitEnvironment env) = .ok ()) :
    ∀ gate ∈ releaseConfirmations target, env gate.1 = some gate.2 := by
  unfold assertApplyConfirmation explicitEnvironment at h
  rcases htarget with rfl | rfl <;> simp [releaseConfirmations] at h ⊢
  · exact h
  · split_ifs at h with hdb hactions
    exact ⟨hdb, hactions⟩

/-- An apply of the release script that comes to its preflight was confirmed by the
process at its start, and the preflight's environment has the same confirmations. -/
theorem release_confirmed {result : ReleaseArgs × Environ}
    (h : releaseStart checkout argv env = .ok result) (hmode : result.1.mode ≠ "plan") :
    ∀ gate ∈ releaseConfirmations result.1.target,
      env gate.1 = some gate.2 ∧ result.2 gate.1 = some gate.2 := by
  unfold releaseStart at h
  cases hparse : parseReleaseArgs argv with
  | error message => simp [hparse, bind, Except.bind] at h
  | ok args =>
    cases hload : loadDefaultEnv checkout env args.target args.fromFile with
    | error message => simp [hparse, hload, bind, Except.bind] at h
    | ok env' =>
      by_cases hplan : args.mode = "plan"
      · simp [hparse, hload, hplan, bind, Except.bind, pure, Except.pure] at h
        rw [← h] at hmode
        exact absurd hplan hmode
      · cases hassert : assertApplyConfirmation args.target (explicitEnvironment env) with
        | error message => simp [hparse, hload, hplan, hassert, bind, Except.bind] at h
        | ok _ =>
          cases hstatic : args.staticOnly with
          | true =>
            simp [hparse, hload, hplan, hassert, hstatic, bind, Except.bind, throw, throwThe,
              MonadExceptOf.throw] at h
          | false =>
            simp [hparse, hload, hplan, hassert, hstatic, bind, Except.bind, pure, Except.pure] at h
            rw [← h]
            have htarget : args.target = "staging" ∨ args.target = "production" := by
              unfold parseReleaseArgs at hparse
              split at hparse
              · cases hparse
              · split_ifs at hparse with hknown
                cases hparse
                simpa [or_iff_not_imp_left] using hknown
            intro gate hgate
            have hset := assertApplyConfirmation_eq_ok htarget hassert gate hgate
            have hkeys : ∀ t, gate ∈ releaseConfirmations t →
                gate.1 ∉ objectPrototype ∧ gate.1 ∉ envFileKeys := by
              intro t ht
              unfold releaseConfirmations at ht
              split_ifs at ht
              · rcases List.mem_pair.mp ht with rfl | rfl <;> decide
              · rw [List.mem_singleton.mp ht]
                decide
            exact ⟨hset, (loadDefaultEnv_apply (hkeys _ hgate).1 (hkeys _ hgate).2 hload).trans hset⟩

end Migrations
end AiSaas
