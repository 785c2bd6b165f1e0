import AiSaas.Lib.Runs
import AiSaas.Lib.Tables
import AiSaas.Lib.Transactions

/-!
# Repository scopes

`RepositoryAuthorizationStore` of `services/control_api/repository_catalog.py` and
the methods of `LocalRepositoryCatalog` that answer whether a tenant may read or
write a repository.  A write scope is issued under a read scope; enforcement asks
for both of them to be unexpired, the advertised state for the write scope alone.

## Main definitions

* `RepositoryScopes` — the table of scopes.
* `RepositoryScopes.require`, `state`, `issueRead`, `issueWrite` — the store.
* `requireRead`, `requireWrite`, `authorizationState` — the catalog.
* `Agrees` — what is advertised is what is enforced.
* `Nested` — a live write scope has company whose read scope lives.

## Main results

* `agrees_iff` — after any calls, at any instant, when the two agree.
* `nested_of_within` — no write scope that outlives its read scope, no difference.
-/

namespace AiSaas

open Relational Transaction Runs

/-- `READ_ANALYSIS` and `WRITE_PATCH`. -/
inductive Permission where
  | readAnalysis
  | writePatch
  deriving DecidableEq, Repr

/-- What the catalog raises. -/
inductive CatalogError where
  /-- `RepositoryCatalogError`, with its code. -/
  | catalog (code : String)
  /-- A time that cannot be read. -/
  | valueError
  /-- `sqlite3.IntegrityError`. -/
  | integrityError
  deriving DecidableEq, Repr

/-- A row of `repository_scopes`. -/
structure RepositoryScope where
  scopeId : String
  tenantId : String
  repositoryId : String
  permission : Permission
  parentScopeId : Option String
  issuedAt : String
  expiresAt : String
  revoked : Bool
  deriving DecidableEq

/-- The table `repository_scopes`. -/
abbrev RepositoryScopes := Table RepositoryScope.scopeId RepositoryScope.scopeId fun _ => true

/-- Instants in microseconds, and their ISO texts in UTC. -/
structure IsoTime where
  /-- `_timestamp`. -/
  timestamp : ℤ → String
  /-- `datetime.fromisoformat`; nothing where it raises. -/
  fromIsoFormat : String → Option ℤ
  fromIsoFormat_timestamp : ∀ t, fromIsoFormat (timestamp t) = some t

/-- `_TENANT_PATTERN.fullmatch`. -/
def tenantMatches (tenantId : String) : Bool :=
  match tenantId.toList with
  | [] => false
  | c :: rest => c.isAlphanum && decide (rest.length ≤ 127) &&
      rest.all fun x => x.isAlphanum || decide (x ∈ ['.', '_', ':', '-'])

/-- `_validate_tenant`. -/
def validateTenant (tenantId : String) : Except CatalogError Unit :=
  ensure (tenantMatches tenantId) (.catalog "tenant_invalid")

variable (iso : IsoTime)

/-- A scope's time has not run out. -/
def RepositoryScope.unexpired (now : ℤ) (scope : RepositoryScope) : Bool :=
  (iso.fromIsoFormat scope.expiresAt).any fun expires => decide (now < expires)

namespace RepositoryScopes

/-! ### The store -/

/-- `require`. -/
def require (now : ℤ) (scopeId tenantId repositoryId : String) (permission : Permission)
    (scopes : RepositoryScopes) : Except CatalogError RepositoryScope := do
  validateTenant tenantId
  ensure (scopeId ≠ "") (.catalog "scope_invalid")
  let row ← orRaise (scopes.find? scopeId) (.catalog "scope_invalid")
  ensure (!row.revoked) (.catalog "scope_invalid")
  ensure (row.tenantId = tenantId ∧ row.repositoryId = repositoryId ∧ row.permission = permission)
    (.catalog "scope_mismatch")
  ensure (row.unexpired iso now) (.catalog "scope_expired")
  return row

/-- The result of `state`. -/
structure Authorization where
  readAnalysis : Bool
  writePatch : Bool
  deriving DecidableEq, Repr

/-- `result[permission]`. -/
def Authorization.get (result : Authorization) : Permission → Bool
  | .readAnalysis => result.readAnalysis
  | .writePatch => result.writePatch

/-- `result[permission] = result[permission] or active`. -/
def Authorization.mark (result : Authorization) (active : Bool) : Permission → Authorization
  | .readAnalysis => { result with readAnalysis := result.readAnalysis || active }
  | .writePatch => { result with writePatch := result.writePatch || active }

/-- One turn of the loop of `state`; the clock is read for every row anew. -/
def Authorization.visit (now : ℕ → ℤ) (result : Authorization) (entry : RepositoryScope × ℕ) :
    Authorization :=
  if entry.1.revoked then result
  else result.mark (entry.1.unexpired iso (now entry.2)) entry.1.permission

/-- `state`. -/
def state (now : ℕ → ℤ) (tenantId repositoryId : String) (scopes : RepositoryScopes) :
    Except CatalogError Authorization := do
  validateTenant tenantId
  let rows := scopes.rows.filter fun row =>
    decide (row.tenantId = tenantId ∧ row.repositoryId = repositoryId)
  return rows.zipIdx.foldl (Authorization.visit iso now) ⟨false, false⟩

/-- `_issue` at an instant; `uuid` is drawn for the scope. -/
def issue (tenantId repositoryId : String) (permission : Permission)
    (parentScopeId : Option String) (ttlSeconds issued : ℤ) (uuid : String) :
    Tx CatalogError RepositoryScopes RepositoryScope := fun scopes => do
  validateTenant tenantId
  ensure (repositoryId ≠ "") (.catalog "scope_invalid")
  ensure (1 ≤ ttlSeconds ∧ ttlSeconds ≤ 3600) (.catalog "scope_ttl_invalid")
  let scope : RepositoryScope :=
    { scopeId := "scope-" ++ uuid, tenantId, repositoryId, permission, parentScopeId
      issuedAt := iso.timestamp issued
      expiresAt := iso.timestamp (issued + ttlSeconds * 1000000)
      revoked := false }
  let scopes' ← orRaise (scopes.insert? scope) .integrityError
  return (scope, scopes')

/-- `issue_read`. -/
def issueRead (now : ℤ) (uuid tenantId repositoryId : String) (ttlSeconds : ℤ) :
    Tx CatalogError RepositoryScopes RepositoryScope :=
  issue iso tenantId repositoryId .readAnalysis none ttlSeconds now uuid

/-- `issue_write`; the clock is read for the read scope and then for the write scope. -/
def issueWrite (now issued : ℤ) (uuid tenantId repositoryId readScopeId : String)
    (ttlSeconds : ℤ) : Tx CatalogError RepositoryScopes RepositoryScope := fun scopes => do
  let readScope ← require iso now readScopeId tenantId repositoryId .readAnalysis scopes
  let readIssued ← orRaise (iso.fromIsoFormat readScope.issuedAt) .valueError
  ensure (readIssued < issued) (.catalog "write_scope_not_later")
  issue iso tenantId repositoryId .writePatch (some readScope.scopeId) ttlSeconds issued uuid scopes

/-- A call that issues a scope, with what it draws. -/
inductive Call where
  | issueRead (now : ℤ) (uuid tenantId repositoryId : String) (ttlSeconds : ℤ)
  | issueWrite (now issued : ℤ) (uuid tenantId repositoryId readScopeId : String) (ttlSeconds : ℤ)
  deriving DecidableEq

/-- The body of a call. -/
def Call.body : Call → Tx CatalogError RepositoryScopes RepositoryScope
  | .issueRead now uuid tenantId repositoryId ttlSeconds =>
    RepositoryScopes.issueRead iso now uuid tenantId repositoryId ttlSeconds
  | .issueWrite now issued uuid tenantId repositoryId readScopeId ttlSeconds =>
    RepositoryScopes.issueWrite iso now issued uuid tenantId repositoryId readScopeId ttlSeconds

/-- The table after a call. -/
def step (scopes : RepositoryScopes) (call : Call) : RepositoryScopes :=
  (atomically (call.body iso) scopes).2

end RepositoryScopes

/-! ### The catalog

What `get` finds on the disk is a parameter. -/

section Catalog

variable {ρ : Type} (get : String → Except CatalogError ρ)

/-- `require_read`. -/
def requireRead (now : ℤ) (tenantId repositoryId scopeId : String) (scopes : RepositoryScopes) :
    Except CatalogError RepositoryScope := do
  let _ ← get repositoryId
  scopes.require iso now scopeId tenantId repositoryId .readAnalysis

/-- `require_write`; the clock is read for either scope. -/
def requireWrite (now : ℕ → ℤ) (tenantId repositoryId scopeId : String)
    (scopes : RepositoryScopes) : Except CatalogError RepositoryScope := do
  let _ ← get repositoryId
  let scope ← scopes.require iso (now 0) scopeId tenantId repositoryId .writePatch
  let parentScopeId ← orRaise (scope.parentScopeId.filter fun id => decide (id ≠ ""))
    (.catalog "write_scope_missing_read_parent")
  let _ ← scopes.require iso (now 1) parentScopeId tenantId repositoryId .readAnalysis
  return scope

/-- `authorization_state`. -/
def authorizationState (now : ℕ → ℤ) (tenantId repositoryId : String) (scopes : RepositoryScopes) :
    Except CatalogError RepositoryScopes.Authorization := do
  let _ ← get repositoryId
  scopes.state iso now tenantId repositoryId

/-- At an instant a permission is advertised. -/
def Advertised (now : ℤ) (tenantId repositoryId : String) (scopes : RepositoryScopes)
    (permission : Permission) : Prop :=
  ∃ result, authorizationState iso get (fun _ => now) tenantId repositoryId scopes = .ok result ∧
    result.get permission = true

/-- What is advertised at an instant is what is enforced. -/
def Agrees (now : ℤ) (tenantId repositoryId : String) (scopes : RepositoryScopes) : Prop :=
  (Advertised iso get now tenantId repositoryId scopes .readAnalysis ↔
    ∃ scopeId scope, requireRead iso get now tenantId repositoryId scopeId scopes = .ok scope) ∧
  (Advertised iso get now tenantId repositoryId scopes .writePatch ↔
    ∃ scopeId scope, requireWrite iso get (fun _ => now) tenantId repositoryId scopeId scopes
      = .ok scope)

end Catalog

/-! ### What the store answers -/

/-- A scope that gives a tenant a permission for a repository at an instant. -/
structure RepositoryScope.Live (now : ℤ) (tenantId repositoryId : String) (permission : Permission)
    (scope : RepositoryScope) : Prop where
  tenant : scope.tenantId = tenantId
  repository : scope.repositoryId = repositoryId
  permits : scope.permission = permission
  standing : scope.revoked = false
  unexpired : scope.unexpired iso now = true

/-- A live write scope comes with a live write scope whose read scope lives. -/
def Nested (now : ℤ) (tenantId repositoryId : String) (scopes : RepositoryScopes) : Prop :=
  (∃ scope ∈ scopes.rows, scope.Live iso now tenantId repositoryId .writePatch) →
    ∃ scope ∈ scopes.rows, scope.Live iso now tenantId repositoryId .writePatch ∧
      ∃ parent ∈ scopes.rows, scope.parentScopeId = some parent.scopeId ∧
        parent.Live iso now tenantId repositoryId .readAnalysis

section Answers

variable {iso} {now : ℤ} {tenantId repositoryId : String} {permission : Permission}
  {scopes : RepositoryScopes} {scope : RepositoryScope}

theorem validateTenant_eq_ok {u : Unit} :
    validateTenant tenantId = .ok u ↔ tenantMatches tenantId = true := ensure_eq_ok

/-- **When a scope is accepted.** -/
theorem require_eq_ok {scopeId : String} :
    scopes.require iso now scopeId tenantId repositoryId permission = .ok scope ↔
      tenantMatches tenantId = true ∧ scopeId ≠ "" ∧ scope ∈ scopes.rows ∧
        scope.scopeId = scopeId ∧ scope.Live iso now tenantId repositoryId permission := by
  simp only [RepositoryScopes.require, bind_eq_ok, validateTenant_eq_ok, ensure_eq_ok,
    orRaise_eq_ok, Table.find?_eq_some, decide_eq_true_eq, pure, Except.pure, Except.ok.injEq,
    Bool.not_eq_true']
  constructor
  · rintro ⟨-, htenant, -, hid, row, ⟨hrow, hkey⟩, -, hstanding, -, ⟨ht, hr, hp⟩, -, hlive, rfl⟩
    exact ⟨htenant, hid, hrow, hkey, ht, hr, hp, hstanding, hlive⟩
  · rintro ⟨htenant, hid, hrow, hkey, ht, hr, hp, hstanding, hlive⟩
    exact ⟨(), htenant, (), hid, scope, ⟨hrow, hkey⟩, (), hstanding, (), ⟨ht, hr, hp⟩, (), hlive, rfl⟩

@[simp] theorem RepositoryScopes.Authorization.get_mark (result : RepositoryScopes.Authorization)
    (active : Bool) (p q : Permission) :
    (result.mark active p).get q = (result.get q || (decide (p = q) && active)) := by
  cases p <;> cases q <;> simp [RepositoryScopes.Authorization.mark,
    RepositoryScopes.Authorization.get]

theorem RepositoryScopes.Authorization.get_visit (clock : ℕ → ℤ)
    (result : RepositoryScopes.Authorization) (entry : RepositoryScope × ℕ) :
    (result.visit iso clock entry).get permission = true ↔
      result.get permission = true ∨ entry.1.revoked = false ∧
        entry.1.permission = permission ∧ entry.1.unexpired iso (clock entry.2) = true := by
  unfold visit
  split
  · next hrevoked => simp [hrevoked]
  · next hrevoked => simp [hrevoked]

/-- A permission is marked by a row that stands and has not run out. -/
theorem RepositoryScopes.Authorization.get_foldl_visit (clock : ℕ → ℤ)
    (entries : List (RepositoryScope × ℕ)) (result : RepositoryScopes.Authorization) :
    (entries.foldl (visit iso clock) result).get permission = true ↔
      result.get permission = true ∨ ∃ entry ∈ entries, entry.1.revoked = false ∧
        entry.1.permission = permission ∧ entry.1.unexpired iso (clock entry.2) = true := by
  induction entries generalizing result with
  | nil => simp
  | cons entry entries ih =>
    rw [List.foldl_cons, ih, get_visit, or_assoc, List.exists_mem_cons_iff]

/-- **When a permission is shown**: some scope that stands gives it. -/
theorem state_shows :
    (∃ result, scopes.state iso (fun _ => now) tenantId repositoryId = .ok result ∧
        result.get permission = true) ↔
      tenantMatches tenantId = true ∧
        ∃ scope ∈ scopes.rows, scope.Live iso now tenantId repositoryId permission := by
  simp only [RepositoryScopes.state, bind_eq_ok, validateTenant_eq_ok, pure, Except.pure,
    Except.ok.injEq]
  constructor
  · rintro ⟨_, ⟨-, htenant, rfl⟩, hshown⟩
    obtain hnone | ⟨entry, hentry, hstanding, hp, hlive⟩ := (RepositoryScopes.Authorization.get_foldl_visit _ _ _).mp hshown
    · cases permission <;> cases hnone
    · obtain ⟨hrow, hof⟩ := List.mem_filter.mp (List.fst_mem_of_mem_zipIdx hentry)
      obtain ⟨ht, hr⟩ := of_decide_eq_true hof
      exact ⟨htenant, entry.1, hrow, ht, hr, hp, hstanding, hlive⟩
  · rintro ⟨htenant, scope, hrow, ht, hr, hp, hstanding, hlive⟩
    refine ⟨_, ⟨(), htenant, rfl⟩, (RepositoryScopes.Authorization.get_foldl_visit _ _ _).mpr (.inr ?_)⟩
    have hmem : scope ∈ scopes.rows.filter fun row =>
        decide (row.tenantId = tenantId ∧ row.repositoryId = repositoryId) :=
      List.mem_filter.mpr ⟨hrow, decide_eq_true ⟨ht, hr⟩⟩
    obtain ⟨i, hi⟩ := List.mem_iff_getElem?.mp hmem
    exact ⟨(scope, i), List.mk_mem_zipIdx_iff_getElem?.mpr hi, hstanding, hp, hlive⟩

end Answers

/-! ### What the calls leave behind -/

/-- A row as the calls write it: it has a name and belongs to a tenant. -/
def RepositoryScope.Issued (scope : RepositoryScope) : Prop :=
  scope.scopeId ≠ "" ∧ tenantMatches scope.tenantId = true

namespace RepositoryScopes

section Runs

variable {iso} {scopes scopes' : RepositoryScopes} {scope : RepositoryScope}

/-- **What an issue did.** -/
theorem issue_eq_ok {tenantId repositoryId uuid : String} {permission : Permission}
    {parentScopeId : Option String} {ttlSeconds issued : ℤ}
    (h : issue iso tenantId repositoryId permission parentScopeId ttlSeconds issued uuid scopes
      = .ok (scope, scopes')) :
    tenantMatches tenantId = true ∧ scopes.insert? scope = some scopes' ∧
      scope = ⟨"scope-" ++ uuid, tenantId, repositoryId, permission, parentScopeId,
        iso.timestamp issued, iso.timestamp (issued + ttlSeconds * 1000000), false⟩ := by
  simp only [issue, bind_eq_ok, validateTenant_eq_ok, orRaise_eq_ok, pure, Except.pure,
    Except.ok.injEq, Prod.mk.injEq] at h
  obtain ⟨-, htenant, -, -, -, -, table, hinsert, rfl, rfl⟩ := h
  exact ⟨htenant, hinsert, rfl⟩

/-- A call that issues nothing changes nothing; else it adds the scope it returns. -/
theorem step_cases (iso : IsoTime) (scopes : RepositoryScopes) (call : Call) :
    step iso scopes call = scopes ∨
      ∃ scope, call.body iso scopes = .ok (scope, step iso scopes call) := by
  unfold step atomically
  cases hbody : call.body iso scopes with
  | error e => exact .inl rfl
  | ok result => exact .inr ⟨result.1, rfl⟩

theorem Call.issued {call : Call} (h : call.body iso scopes = .ok (scope, scopes')) :
    scopes.insert? scope = some scopes' ∧ scope.Issued := by
  have hnamed : ∀ uuid : String, "scope-" ++ uuid ≠ "" := fun uuid => by simp [String.ext_iff]
  cases call with
  | issueRead now uuid tenantId repositoryId ttlSeconds =>
    obtain ⟨htenant, hinsert, rfl⟩ := issue_eq_ok h
    exact ⟨hinsert, hnamed uuid, htenant⟩
  | issueWrite now issued uuid tenantId repositoryId readScopeId ttlSeconds =>
    simp only [Call.body, RepositoryScopes.issueWrite, bind_eq_ok] at h
    obtain ⟨readScope, -, readIssued, -, -, -, h⟩ := h
    obtain ⟨htenant, hinsert, rfl⟩ := issue_eq_ok h
    exact ⟨hinsert, hnamed uuid, htenant⟩

theorem step_issued (h : scopes.Every RepositoryScope.Issued) (call : Call) :
    (step iso scopes call).Every RepositoryScope.Issued := by
  obtain hsame | ⟨scope, hbody⟩ := step_cases iso scopes call
  · rwa [hsame]
  · obtain ⟨hinsert, hissued⟩ := Call.issued hbody
    exact h.insert hinsert hissued

theorem run_issued (iso : IsoTime) (calls : List Call) :
    (final (step iso) (Table.empty : RepositoryScopes) calls).Every RepositoryScope.Issued :=
  Runs.invariant (I := fun scopes : RepositoryScopes => scopes.Every RepositoryScope.Issued)
    (fun _ hrow => absurd hrow List.not_mem_nil) (fun _ call h => step_issued h call) calls

end Runs

end RepositoryScopes

/-! ### What is advertised and what is enforced -/

section Agreement

variable {iso} {ρ : Type} {get : String → Except CatalogError ρ} {now : ℤ}
  {tenantId repositoryId : String} {scopes : RepositoryScopes}

theorem advertised_iff {permission : Permission} :
    Advertised iso get now tenantId repositoryId scopes permission ↔
      (∃ record, get repositoryId = .ok record) ∧ tenantMatches tenantId = true ∧
        ∃ scope ∈ scopes.rows, scope.Live iso now tenantId repositoryId permission := by
  rw [← state_shows, Advertised]
  simp only [authorizationState, bind_eq_ok]
  constructor
  · rintro ⟨result, ⟨record, hrecord, hresult⟩, hshown⟩
    exact ⟨⟨record, hrecord⟩, result, hresult, hshown⟩
  · rintro ⟨⟨record, hrecord⟩, result, hresult, hshown⟩
    exact ⟨result, ⟨record, hrecord, hresult⟩, hshown⟩

theorem requireRead_iff (h : scopes.Every RepositoryScope.Issued) :
    (∃ scopeId scope, requireRead iso get now tenantId repositoryId scopeId scopes = .ok scope) ↔
      (∃ record, get repositoryId = .ok record) ∧ tenantMatches tenantId = true ∧
        ∃ scope ∈ scopes.rows, scope.Live iso now tenantId repositoryId .readAnalysis := by
  simp only [requireRead, bind_eq_ok, require_eq_ok]
  constructor
  · rintro ⟨scopeId, scope, record, hrecord, htenant, -, hrow, -, hlive⟩
    exact ⟨⟨record, hrecord⟩, htenant, scope, hrow, hlive⟩
  · rintro ⟨⟨record, hrecord⟩, htenant, scope, hrow, hlive⟩
    exact ⟨scope.scopeId, scope, record, hrecord, htenant, (h scope hrow).1, hrow, rfl, hlive⟩

theorem requireWrite_iff (h : scopes.Every RepositoryScope.Issued) :
    (∃ scopeId scope, requireWrite iso get (fun _ => now) tenantId repositoryId scopeId scopes
        = .ok scope) ↔
      (∃ record, get repositoryId = .ok record) ∧ tenantMatches tenantId = true ∧
        ∃ scope ∈ scopes.rows, scope.Live iso now tenantId repositoryId .writePatch ∧
          ∃ parent ∈ scopes.rows, scope.parentScopeId = some parent.scopeId ∧
            parent.Live iso now tenantId repositoryId .readAnalysis := by
  simp only [requireWrite, bind_eq_ok, require_eq_ok, orRaise_eq_ok, Option.filter_eq_some_iff,
    decide_eq_true_eq, pure, Except.pure, Except.ok.injEq]
  constructor
  · rintro ⟨scopeId, _, record, hrecord, scope, ⟨htenant, -, hrow, -, hlive⟩, parentId,
      ⟨hparentId, -⟩, parent, ⟨-, -, hparent, rfl, hparentLive⟩, rfl⟩
    exact ⟨⟨record, hrecord⟩, htenant, scope, hrow, hlive, parent, hparent, hparentId, hparentLive⟩
  · rintro ⟨⟨record, hrecord⟩, htenant, scope, hrow, hlive, parent, hparent, hparentId, hparentLive⟩
    exact ⟨scope.scopeId, scope, record, hrecord, scope,
      ⟨htenant, (h scope hrow).1, hrow, rfl, hlive⟩, parent.scopeId,
      ⟨hparentId, (h parent hparent).1⟩, parent,
      ⟨htenant, (h parent hparent).1, hparent, rfl, hparentLive⟩, rfl⟩

end Agreement

/-- **When what is advertised is enforced**: after any calls that issue scopes, at any
instant, exactly when the catalog does not know the repository, or a live write
scope comes with one whose read scope lives. -/
theorem agrees_iff {ρ : Type} (get : String → Except CatalogError ρ)
    (calls : List RepositoryScopes.Call) (now : ℤ) (tenantId repositoryId : String) :
    Agrees iso get now tenantId repositoryId
        (final (RepositoryScopes.step iso) Table.empty calls) ↔
      ((∃ record, get repositoryId = .ok record) →
        Nested iso now tenantId repositoryId
          (final (RepositoryScopes.step iso) Table.empty calls)) := by
  have hissued := RepositoryScopes.run_issued iso calls
  generalize final (RepositoryScopes.step iso) Table.empty calls = scopes at hissued ⊢
  have hread : Advertised iso get now tenantId repositoryId scopes .readAnalysis ↔
      ∃ scopeId scope, requireRead iso get now tenantId repositoryId scopeId scopes = .ok scope :=
    advertised_iff.trans (requireRead_iff hissued).symm
  rw [Agrees, and_iff_right hread, advertised_iff, requireWrite_iff hissued, Nested]
  constructor
  · intro hsame hrecord hlive
    obtain ⟨scope, hrow, hscope⟩ := hlive
    have htenant := hscope.tenant ▸ (hissued scope hrow).2
    exact (hsame.mp ⟨hrecord, htenant, scope, hrow, hscope⟩).2.2
  · intro hnested
    constructor
    · rintro ⟨hrecord, htenant, hlive⟩
      exact ⟨hrecord, htenant, hnested hrecord hlive⟩
    · rintro ⟨hrecord, htenant, scope, hrow, hscope, -⟩
      exact ⟨hrecord, htenant, scope, hrow, hscope⟩

/-! ### Write scopes within their read scopes -/

/-- A call asks for no write scope that outlives its read scope. -/
def RepositoryScopes.Call.Within (scopes : RepositoryScopes) : RepositoryScopes.Call → Prop
  | .issueRead .. => True
  | .issueWrite _ issued _ _ _ readScopeId ttlSeconds =>
    ∀ parent ∈ scopes.rows, parent.scopeId = readScopeId →
      ∀ expires, iso.fromIsoFormat parent.expiresAt = some expires →
        issued + ttlSeconds * 1000000 ≤ expires

/-- A write scope has a read scope among the rows that lives as long as it does. -/
def RepositoryScope.Sheltered (scopes : RepositoryScopes) (scope : RepositoryScope) : Prop :=
  scope.permission = .writePatch → ∃ parent ∈ scopes.rows,
    scope.parentScopeId = some parent.scopeId ∧ ∀ now tenantId repositoryId,
      scope.Live iso now tenantId repositoryId .writePatch →
        parent.Live iso now tenantId repositoryId .readAnalysis

section Within

variable {iso} {scopes : RepositoryScopes}

/-- A scope that is written within its read scope is sheltered. -/
theorem sheltered_issued {call : RepositoryScopes.Call} {scopes' : RepositoryScopes}
    {scope : RepositoryScope} (hwithin : call.Within iso scopes)
    (h : call.body iso scopes = .ok (scope, scopes')) : scope.Sheltered iso scopes := by
  intro hpermission
  cases call with
  | issueRead now uuid tenantId repositoryId ttlSeconds =>
    obtain ⟨-, -, rfl⟩ := RepositoryScopes.issue_eq_ok h
    cases hpermission
  | issueWrite now issued uuid tenantId repositoryId readScopeId ttlSeconds =>
    simp only [RepositoryScopes.Call.body, RepositoryScopes.issueWrite, bind_eq_ok,
      require_eq_ok] at h
    obtain ⟨parent, ⟨-, -, hparent, hkey, hread⟩, readIssued, -, -, -, h⟩ := h
    obtain ⟨-, -, rfl⟩ := RepositoryScopes.issue_eq_ok h
    refine ⟨parent, hparent, rfl, fun later tenantId' repositoryId' hlive => ?_⟩
    obtain ⟨rfl, rfl, -, -, hunexpired⟩ := hlive
    refine ⟨hread.tenant, hread.repository, hread.permits, hread.standing, ?_⟩
    -- the read scope can be read, so its end is known
    have hread' := hread.unexpired
    simp only [RepositoryScope.unexpired, Option.any_eq_true, decide_eq_true_eq,
      iso.fromIsoFormat_timestamp, Option.some.injEq, exists_eq_left'] at hunexpired hread' ⊢
    obtain ⟨expires, hexpires, -⟩ := hread'
    exact ⟨expires, hexpires, hunexpired.trans_le (hwithin parent hparent hkey expires hexpires)⟩

theorem run_sheltered {calls : List RepositoryScopes.Call}
    (h : Along (RepositoryScopes.step iso) (fun scopes call => call.Within iso scopes) Table.empty
      calls) :
    (final (RepositoryScopes.step iso) Table.empty calls).Every
      (RepositoryScope.Sheltered iso (final (RepositoryScopes.step iso) Table.empty calls)) := by
  refine h.invariant (I := fun scopes => scopes.Every (RepositoryScope.Sheltered iso scopes))
    (fun _ hrow => absurd hrow List.not_mem_nil) fun scopes call hwithin hall => ?_
  obtain hsame | ⟨scope, hbody⟩ := RepositoryScopes.step_cases iso scopes call
  · rwa [hsame]
  · obtain ⟨hinsert, -⟩ := RepositoryScopes.Call.issued hbody
    have hgrows : ∀ row ∈ scopes.rows, row ∈ (RepositoryScopes.step iso scopes call).rows := by
      intro row hrow
      rw [(Table.insert?_eq_some hinsert).1]
      exact List.mem_append_left _ hrow
    have hkept : ∀ row : RepositoryScope, row.Sheltered iso scopes →
        row.Sheltered iso (RepositoryScopes.step iso scopes call) := by
      intro row hrow hpermission
      obtain ⟨parent, hparent, hshelter⟩ := hrow hpermission
      exact ⟨parent, hgrows parent hparent, hshelter⟩
    exact Table.Every.insert (fun row hrow => hkept row (hall row hrow)) hinsert
      (hkept scope (sheltered_issued hwithin hbody))

/-- **Where no write scope outlives its read scope, the two agree at every instant.** -/
theorem nested_of_within {calls : List RepositoryScopes.Call}
    (h : Along (RepositoryScopes.step iso) (fun scopes call => call.Within iso scopes) Table.empty
      calls) (now : ℤ) (tenantId repositoryId : String) :
    Nested iso now tenantId repositoryId
      (final (RepositoryScopes.step iso) Table.empty calls) := by
  rintro ⟨scope, hrow, hlive⟩
  obtain ⟨parent, hparent, hid, hshelter⟩ := run_sheltered h scope hrow hlive.permits
  exact ⟨scope, hrow, hlive, parent, hparent, hid, hshelter now tenantId repositoryId hlive⟩

end Within

/-! ### A write scope that outlives its read scope -/

namespace Sample

/-- A number as marks. -/
def marks (n : ℤ) : List Char := List.replicate n.toNat '+' ++ List.replicate (-n).toNat '-'

/-- The number of marks. -/
def countMarks (l : List Char) : ℤ := l.count '+' - l.count '-'

theorem countMarks_marks (n : ℤ) : countMarks (marks n) = n := by
  simp only [countMarks, marks, List.count_append, List.count_replicate]
  simp only [beq_self_eq_true, if_true, Char.reduceBEq, Bool.false_eq_true, if_false]
  omega

/-- Instants as marks for their seconds, or for their microseconds where they have some. -/
def isoTime : IsoTime where
  timestamp t := String.ofList
    (if t % 1000000 = 0 then 's' :: marks (t / 1000000) else 'u' :: marks t)
  fromIsoFormat s :=
    match s.toList with
    | 's' :: rest => some (countMarks rest * 1000000)
    | 'u' :: rest => some (countMarks rest)
    | _ => none
  fromIsoFormat_timestamp t := by
    rw [String.toList_ofList]
    by_cases hwhole : t % 1000000 = 0
    · have hsame : t / 1000000 * 1000000 = t := by omega
      simp [hwhole, countMarks_marks, hsame]
    · simp [hwhole, countMarks_marks]

/-- A read scope of ten seconds, and five seconds later a write scope of a minute. -/
def outlivingCalls : List RepositoryScopes.Call :=
  [.issueRead 0 "r" "tenant-a" "repo-1" 10,
    .issueWrite 5000000 5000000 "w" "tenant-a" "repo-1" "scope-r" 60]

/-- The repository is on the disk. -/
def onDisk (_ : String) : Except CatalogError Unit := .ok ()

/-- **Write access is advertised where every write scope is refused.** -/
theorem write_advertised_refused :
    ¬ Agrees isoTime onDisk 20000000 "tenant-a" "repo-1"
      (final (RepositoryScopes.step isoTime) Table.empty outlivingCalls) := by
  rintro ⟨-, hwrite⟩
  have hshown : Advertised isoTime onDisk 20000000 "tenant-a" "repo-1"
      (final (RepositoryScopes.step isoTime) Table.empty outlivingCalls) .writePatch :=
    advertised_iff.mpr ⟨⟨(), rfl⟩, by decide +kernel, by
      refine ⟨⟨"scope-w", "tenant-a", "repo-1", .writePatch, some "scope-r",
        isoTime.timestamp 5000000, isoTime.timestamp 65000000, false⟩, by decide +kernel, ?_⟩
      exact ⟨rfl, rfl, rfl, rfl, by decide +kernel⟩⟩
  obtain ⟨-, -, -, -, -, parent, hparent, -, hlive⟩ :=
    (requireWrite_iff (RepositoryScopes.run_issued isoTime outlivingCalls)).mp (hwrite.mp hshown)
  have hended : ∀ row ∈ (final (RepositoryScopes.step isoTime) Table.empty outlivingCalls).rows,
      row.permission = .readAnalysis → row.unexpired isoTime 20000000 = false := by
    decide +kernel
  have hgone := hended parent hparent hlive.permits
  rw [hlive.unexpired] at hgone
  cases hgone

end Sample

end AiSaas
