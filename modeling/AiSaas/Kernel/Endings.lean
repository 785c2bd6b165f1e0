import AiSaas.Kernel.Calls

/-!
# How programs of the store end

A program that is run to its end is taken apart statement by statement: what each
statement raised or returned, and the database after it.

## Main definitions

* `Registrable` — what a repository is registered with.

## Main results

* `ends_ofExcept`, `ends_look`, `ends_now`, `ends_uuid`, `ends_write` — the statements.
* `visits_ofExcept`, `visits_look`, … — the states between them.
* `registerRepository_ends` — how a registration ends.
-/

namespace AiSaas.Kernel

open Relational Transaction Processes Store

section Statements

variable {host : Host} {May : Draw → Prop} {α β : Type} {db db' : Database} {r : Except Raised α}

theorem ends_ofExcept {x : Except Raised β} {next : β → Store α}
    (h : (ofExcept x >>= next).Ends (StoreOp.exec host) May db r db') :
    (∃ e, x = .error e ∧ r = .error e ∧ db' = db) ∨
      ∃ b, x = .ok b ∧ (next b).Ends (StoreOp.exec host) May db r db' :=
  Prog.ends_done_bind h

theorem ends_pure {a : α} (h : (pure a : Store α).Ends (StoreOp.exec host) May db r db') :
    r = .ok a ∧ db' = db := by
  obtain ⟨rfl, rfl⟩ := Prog.ends_done_iff.mp h
  exact ⟨rfl, rfl⟩

theorem ends_raise {e : Raised} (h : (Prog.raise e : Store α).Ends (StoreOp.exec host) May db r db') :
    r = .error e ∧ db' = db := by
  obtain ⟨rfl, rfl⟩ := Prog.ends_done_iff.mp h
  exact ⟨rfl, rfl⟩

theorem ends_look {next : Database → Store α}
    (h : (look >>= next).Ends (StoreOp.exec host) May db r db') :
    (next db).Ends (StoreOp.exec host) May db r db' := by
  obtain - | ⟨may, rest⟩ := h
  exact rest

theorem ends_now {next : String → Store α}
    (h : (now >>= next).Ends (StoreOp.exec host) May db r db') :
    ∃ d, May d ∧ (next (host.isoformat (d.now 0))).Ends (StoreOp.exec host) May db r db' := by
  obtain - | ⟨may, rest⟩ := h
  exact ⟨_, may, rest⟩

theorem ends_uuid {next : String → Store α}
    (h : (uuid >>= next).Ends (StoreOp.exec host) May db r db') :
    ∃ d, May d ∧ (next (d.uuid 0)).Ends (StoreOp.exec host) May db r db' := by
  obtain - | ⟨may, rest⟩ := h
  exact ⟨_, may, rest⟩

/-- One write raises and changes nothing, or is made. -/
theorem exec_write {statement : Database → Except Raised Database} {d : Draw}
    {x : Except Raised Unit} (h : (StoreOp.write statement).exec host d db = (x, db')) :
    (∃ e, statement db = .error e ∧ x = .error e ∧ db' = db) ∨
      statement db = .ok db' ∧ x = .ok () := by
  obtain ⟨u, db₁, hbody, hall⟩ | ⟨e, hbody, hall⟩ :=
    atomically_cases (fun db => (statement db).map fun db => ((), db)) db
  · obtain ⟨rfl, rfl⟩ := Prod.mk.inj (hall.symm.trans h)
    obtain ⟨db₂, hs, hpair⟩ := map_eq_ok.mp hbody
    obtain ⟨-, rfl⟩ := Prod.mk.inj hpair
    exact Or.inr ⟨hs, rfl⟩
  · obtain ⟨rfl, rfl⟩ := Prod.mk.inj (hall.symm.trans h)
    cases hs : statement db with
    | error e' =>
      have he : e' = e := Except.error.inj ((congrArg (Except.map _) hs).symm.trans hbody)
      exact Or.inl ⟨e', rfl, congrArg _ he.symm, rfl⟩
    | ok db₂ => cases (congrArg (Except.map _) hs).symm.trans hbody

theorem ends_lastWrite {statement : Database → Except Raised Database} {x : Except Raised Unit}
    (h : (write statement).Ends (StoreOp.exec host) May db x db') :
    (∃ e, statement db = .error e ∧ x = .error e ∧ db' = db) ∨
      statement db = .ok db' ∧ x = .ok () := by
  obtain ⟨d, -, hexec⟩ := Prog.ends_perform h
  exact exec_write hexec

theorem ends_write {statement : Database → Except Raised Database} {next : Unit → Store α}
    (h : (write statement >>= next).Ends (StoreOp.exec host) May db r db') :
    (∃ e, statement db = .error e ∧ r = .error e ∧ db' = db) ∨
      ∃ db₁, statement db = .ok db₁ ∧ (next ()).Ends (StoreOp.exec host) May db₁ r db' := by
  rcases Prog.ends_bind h with ⟨e, hfirst, hr⟩ | ⟨u, t, hfirst, hnext⟩
  · rcases ends_lastWrite hfirst with ⟨e', hs, he, hdb⟩ | ⟨-, he⟩
    · cases he
      exact Or.inl ⟨e, hs, hr, hdb⟩
    · cases he
  · rcases ends_lastWrite hfirst with ⟨e', -, he, -⟩ | ⟨hs, -⟩
    · cases he
    · exact Or.inr ⟨t, hs, hnext⟩

/-! ### Courses -/

theorem visits_ofExcept {x : Except Raised β} {next : β → Store α}
    (h : (ofExcept x >>= next).Visits (StoreOp.exec host) May db db') :
    db' = db ∨ ∃ b, x = .ok b ∧ (next b).Visits (StoreOp.exec host) May db db' := by
  cases x with
  | error e => exact Or.inl (Prog.visits_done h)
  | ok b => exact Or.inr ⟨b, rfl, h⟩

theorem visits_look {next : Database → Store α}
    (h : (look >>= next).Visits (StoreOp.exec host) May db db') :
    db' = db ∨ (next db).Visits (StoreOp.exec host) May db db' := by
  rcases Prog.visits_call h with hdb | ⟨d, -, hrest⟩
  · exact Or.inl hdb
  · exact Or.inr hrest

theorem visits_now {next : String → Store α}
    (h : (now >>= next).Visits (StoreOp.exec host) May db db') :
    db' = db ∨ ∃ d, May d ∧
      (next (host.isoformat (d.now 0))).Visits (StoreOp.exec host) May db db' := by
  rcases Prog.visits_call h with hdb | ⟨d, may, hrest⟩
  · exact Or.inl hdb
  · exact Or.inr ⟨d, may, hrest⟩

theorem visits_uuid {next : String → Store α}
    (h : (uuid >>= next).Visits (StoreOp.exec host) May db db') :
    db' = db ∨ ∃ d, May d ∧ (next (d.uuid 0)).Visits (StoreOp.exec host) May db db' := by
  rcases Prog.visits_call h with hdb | ⟨d, may, hrest⟩
  · exact Or.inl hdb
  · exact Or.inr ⟨d, may, hrest⟩

theorem visits_lastWrite {statement : Database → Except Raised Database}
    (h : (write statement).Visits (StoreOp.exec host) May db db') :
    db' = db ∨ statement db = .ok db' := by
  rcases Prog.visits_perform h with hdb | ⟨d, -, hdb⟩
  · exact Or.inl hdb
  · rcases exec_write (rfl : (StoreOp.write statement).exec host d db = (_, _)) with
      ⟨e, -, -, hsame⟩ | ⟨hs, -⟩
    · exact Or.inl (hdb.trans hsame)
    · exact Or.inr (hdb ▸ hs)

theorem visits_write {statement : Database → Except Raised Database} {next : Unit → Store α}
    (h : (write statement >>= next).Visits (StoreOp.exec host) May db db') :
    db' = db ∨ ∃ db₁, statement db = .ok db₁ ∧
      (next ()).Visits (StoreOp.exec host) May db₁ db' := by
  rcases Prog.visits_bind h with hfirst | ⟨u, t, hfirst, hnext⟩
  · rcases visits_lastWrite hfirst with hdb | hs
    · exact Or.inl hdb
    · exact Or.inr ⟨_, hs, .here _ _⟩
  · rcases ends_lastWrite hfirst with ⟨e', -, he, -⟩ | ⟨hs, -⟩
    · cases he
    · exact Or.inr ⟨t, hs, hnext⟩

end Statements

/-- The result of a new run is loaded. -/
theorem loads_empty : loads "\x7b\x7d" = .ok (.obj []) := @loads_dumps (.dict []) _ rfl

/-! ### What raises no conflict -/

/-- A computation that raises no conflict. -/
def Spares {α : Type} (x : Except Raised α) : Prop :=
  ∀ ⦃e⦄, x = .error e → e.kind ≠ .idempotencyConflict

section Spares

variable {host : Host} {α β : Type} {x : Except Raised α}

theorem spares_ok (a : α) : Spares (.ok a : Except Raised α) := fun _ h => by cases h

theorem spares_error {e : Raised} (h : e.kind ≠ .idempotencyConflict) :
    Spares (.error e : Except Raised α) := by
  rintro _ ⟨⟩
  exact h

theorem Spares.bind {f : α → Except Raised β} (h : Spares x) (hf : ∀ a, Spares (f a)) :
    Spares (x >>= f) := by
  cases x with
  | error e => exact spares_error (h rfl)
  | ok a => exact hf a

theorem Spares.map {f : α → β} (h : Spares x) : Spares (x.map f) := by
  cases x with
  | error e => exact spares_error (h rfl)
  | ok a => exact spares_ok (f a)

theorem spares_orRaise {v : Option α} {e : Raised} (h : e.kind ≠ .idempotencyConflict) :
    Spares (orRaise v e) := by
  cases v with
  | none => exact spares_error h
  | some a => exact spares_ok a

theorem spares_required (text : Option String) : Spares (required text) :=
  spares_orRaise (by decide)

theorem spares_bindText (v : Value) : Spares (bindText host v) := by
  cases v with
  | int n =>
    rw [bindText]
    split
    · exact spares_ok _
    · exact spares_error (by decide)
  | none | bool | float | str => exact spares_ok _
  | list | tuple | dict | other => exact spares_error (by decide)

theorem spares_snapshotOf (m : Option Mapping) : Spares (snapshotOf host m) := by
  apply Spares.map
  unfold iterated
  split
  · split <;> first | exact spares_ok _ | exact spares_error (by decide)
  · exact spares_ok _

theorem spares_loads (text : String) : Spares (loads text) := by
  unfold loads
  split
  · exact spares_ok _
  · exact spares_error (by decide)

theorem spares_requestHash (v : Value) : Spares (requestHash host v) := by
  apply Spares.map
  apply Spares.map
  unfold dumps
  split
  · exact spares_ok _
  · exact spares_error (by decide)

theorem spares_upsertRepository (t : String) (s : Snapshot) (root : Value) (caps stamp : String)
    (db : Database) : Spares (upsertRepository host t s root caps stamp db) := by
  unfold upsertRepository
  iterate 6 refine Spares.bind (spares_bindText _) fun _ => ?_
  iterate 5 refine Spares.bind (spares_required _) fun _ => ?_
  exact spares_ok _

theorem spares_repository (t id : String) (db : Database) : Spares (repository t id db) := by
  unfold repository
  refine Spares.bind (spares_orRaise (by decide)) fun row => ?_
  exact Spares.bind (spares_loads _) fun _ => spares_ok _

end Spares

/-! ### Registrations -/

/-- What a repository is registered with: an identifier, and fields that can be bound. -/
structure Registrable (host : Host) (repo : Mapping) (snapshot : Snapshot) (id : String) : Prop where
  taken : snapshotOf host (some repo) = .ok snapshot
  named : snapshot.repositoryId.truthy = true
  repositoryId : bindText host snapshot.repositoryId = .ok (some id)
  rootId : ∃ t, bindText host (repo.get "root_id") = .ok t
  canonicalPath : ∃ t, bindText host (orEmpty snapshot.canonicalPath) = .ok (some t)
  name : ∃ t, bindText host (orEmpty snapshot.name) = .ok (some t)
  branch : ∃ t, bindText host (orEmpty snapshot.branch) = .ok (some t)
  commit : ∃ t, bindText host (orEmpty snapshot.commit) = .ok (some t)

/-- The capabilities of a repository as they are stored. -/
def Snapshot.capabilityList (s : Snapshot) : Value := .list (s.capabilities.map .str)

/-- A registered repository can be read back. -/
def Shown (host : Host) (tenantId : String) (snapshot : Snapshot) (id : String) (db : Database) : Prop :=
  if pyStr host snapshot.repositoryId = id then Fits host snapshot.capabilityList
  else ∃ record, repository tenantId (pyStr host snapshot.repositoryId) db = .ok record

section Registrations

variable {host : Host} {May : Draw → Prop} {db db' : Database} {repo : Mapping} {snapshot : Snapshot}
  {id tenantId : String}

theorem required_eq_ok {text : Option String} {s : String} :
    required text = .ok s ↔ text = some s := orRaise_eq_ok

/-- The statement of a registration is made exactly where its fields can be bound. -/
theorem upsertRepository_eq_ok {rootId : Value} {capabilities now : String}
    (h : upsertRepository host tenantId snapshot rootId capabilities now db = .ok db') :
    (∃ t, bindText host rootId = .ok t) ∧
      (∃ t, bindText host (orEmpty snapshot.canonicalPath) = .ok (some t)) ∧
      (∃ t, bindText host (orEmpty snapshot.name) = .ok (some t)) ∧
      (∃ t, bindText host (orEmpty snapshot.branch) = .ok (some t)) ∧
      (∃ t, bindText host (orEmpty snapshot.commit) = .ok (some t)) ∧
      ∃ id repositories, bindText host snapshot.repositoryId = .ok (some id) ∧
        (∃ row, repositories.find? (tenantId, id) = some row ∧ row.capabilitiesJson = capabilities) ∧
        (∀ key, key ≠ (tenantId, id) → repositories.find? key = db.repositories.find? key) ∧
        db' = { db with repositories } := by
  simp only [upsertRepository, bind_eq_ok, required_eq_ok] at h
  obtain ⟨_, hid, root, hroot, _, hpath, _, hname, _, hbranch, _, hcommit, id, rfl, path, rfl, name,
    rfl, branch, rfl, commit, rfl, h⟩ := h
  refine ⟨⟨root, hroot⟩, ⟨path, hpath⟩, ⟨name, hname⟩, ⟨branch, hbranch⟩, ⟨commit, hcommit⟩, id,
    _, hid, ?_, ?_, (Except.ok.inj h).symm⟩
  · rw [Table.find?_upsert _ rfl fun _ _ he => he]
    split
    · cases db.repositories.find? (tenantId, id) <;> exact ⟨_, rfl, rfl⟩
    · next hne => exact absurd rfl hne
  · intro key hkey
    rw [Table.find?_upsert _ rfl fun _ _ he => he]
    exact if_neg (Ne.symm hkey)

/-- The statement of a registration, where the fields can be bound. -/
theorem exists_upsertRepository {capabilities now : String}
    (h : Registrable host repo snapshot id) (db : Database) : ∃ db',
      upsertRepository host tenantId snapshot (repo.get "root_id") capabilities now db = .ok db' := by
  obtain ⟨root, hroot⟩ := h.rootId
  obtain ⟨path, hpath⟩ := h.canonicalPath
  obtain ⟨name, hname⟩ := h.name
  obtain ⟨branch, hbranch⟩ := h.branch
  obtain ⟨commit, hcommit⟩ := h.commit
  rw [upsertRepository, h.repositoryId, hroot, hpath, hname, hbranch, hcommit]
  exact ⟨_, rfl⟩

theorem short_items (texts : List String) : JsonText.ShortItems (toItems (redactItems host (texts.map .str))) := by
  induction texts with
  | nil => trivial
  | cons text texts ih => exact ⟨trivial, ih⟩

/-- Capabilities are always encoded. -/
theorem exists_safeJson_capabilities (snapshot : Snapshot) :
    ∃ text, safeJson host snapshot.capabilityList = .ok text := by
  have hshort : (toJson (redact host snapshot.capabilityList)).Short := short_items snapshot.capabilities
  rw [safeJson, dumps, if_pos hshort]
  exact ⟨_, rfl⟩

/-- The row of a registration is read back where it is shown. -/
theorem repository_registered {repositories : Table RepositoryRow.key RepositoryRow.key fun _ => true}
    {row : RepositoryRow} {text : String} (htext : safeJson host snapshot.capabilityList = .ok text)
    (hrow : repositories.find? (tenantId, id) = some row) (hcaps : row.capabilitiesJson = text)
    (hrest : ∀ key, key ≠ (tenantId, id) → repositories.find? key = db.repositories.find? key) :
    (∃ record, repository tenantId (pyStr host snapshot.repositoryId) { db with repositories }
      = .ok record) ↔ Shown host tenantId snapshot id db := by
  unfold Shown
  split
  · next hid =>
    rw [repository, hid, hrow]
    simp only [bind_eq_ok, orRaise_eq_ok, Option.some.injEq, exists_eq_left', hcaps]
    by_cases hfits : Fits host snapshot.capabilityList
    · have hload := loads_safeJson hfits htext
      have hne : text ≠ "" := by
        rintro rfl
        cases hload
      have hcapabilities : loads (textOr text "[]") = .ok (toJson (redact host snapshot.capabilityList)) := by
        rw [textOr, if_neg hne, hload]
      exact iff_of_true ⟨_, _, hcapabilities, rfl⟩ hfits
    · obtain ⟨hne, hload⟩ := loads_cut hfits htext
      refine iff_of_false ?_ hfits
      rintro ⟨record, v, hv, -⟩
      rw [textOr, if_neg hne, hload] at hv
      cases hv
  · next hid =>
    have hkey : (tenantId, pyStr host snapshot.repositoryId) ≠ (tenantId, id) := fun h =>
      hid (Prod.mk.inj h).2
    rw [repository, hrest _ hkey]
    rfl

/-- **How a registration ends**: it raises and changes nothing, or writes the repository's
row and reads it back, which fails unless it is shown. -/
theorem registerRepository_ends {r : Except Raised RepositoryRecord}
    (h : (registerRepository host tenantId repo).Ends (StoreOp.exec host) May db r db') :
    (∃ e, r = .error e ∧ e.kind ≠ .idempotencyConflict ∧ db' = db ∧
        ¬ ∃ snapshot id, Registrable host repo snapshot id) ∨
      ∃ snapshot id repositories, Registrable host repo snapshot id ∧ db' = { db with repositories } ∧
        ((∃ record, r = .ok record ∧ Shown host tenantId snapshot id db) ∨
          ∃ e, r = .error e ∧ e.kind ≠ .idempotencyConflict ∧ ¬ Shown host tenantId snapshot id db) := by
  unfold registerRepository at h
  rcases ends_ofExcept h with ⟨e, he, hr, hdb⟩ | ⟨snapshot, htaken, h⟩
  · refine Or.inl ⟨e, hr, spares_snapshotOf _ he, hdb, ?_⟩
    rintro ⟨snapshot, id, hreg⟩
    cases he.symm.trans hreg.taken
  by_cases hnamed : snapshot.repositoryId.truthy = true
  swap
  · rw [if_neg hnamed] at h
    obtain ⟨rfl, hdb⟩ := ends_raise h
    refine Or.inl ⟨_, rfl, by decide, hdb, ?_⟩
    rintro ⟨snapshot', id, hreg⟩
    obtain rfl := Except.ok.inj (htaken.symm.trans hreg.taken)
    exact hnamed hreg.named
  rw [if_pos hnamed] at h
  obtain ⟨d, -, h⟩ := ends_now h
  obtain ⟨text, htext⟩ := @exists_safeJson_capabilities host snapshot
  rcases ends_ofExcept h with ⟨e, he, -, -⟩ | ⟨text', htext', h⟩
  · cases he.symm.trans htext
  obtain rfl := Except.ok.inj (htext'.symm.trans htext)
  rcases ends_write h with ⟨e, he, hr, hdb⟩ | ⟨db₁, hmade, h⟩
  · refine Or.inl ⟨e, hr, spares_upsertRepository _ _ _ _ _ _ he, hdb, ?_⟩
    rintro ⟨snapshot', id, hreg⟩
    obtain rfl := Except.ok.inj (htaken.symm.trans hreg.taken)
    obtain ⟨db₁, hok⟩ := @exists_upsertRepository host _ _ _ tenantId text'
      (host.isoformat (d.now 0)) hreg db
    cases he.symm.trans hok
  obtain ⟨hroot, hpath, hname, hbranch, hcommit, id, repositories, hid, ⟨row, hrow, hcaps⟩, hrest, rfl⟩ :=
    upsertRepository_eq_ok hmade
  have h := ends_look h
  obtain ⟨rfl, rfl⟩ := Prog.ends_done_iff.mp h
  have hshown := repository_registered htext hrow hcaps hrest
  refine Or.inr ⟨snapshot, id, repositories, ⟨htaken, hnamed, hid, hroot, hpath, hname, hbranch,
    hcommit⟩, rfl, ?_⟩
  cases hread : repository tenantId (pyStr host snapshot.repositoryId) { db with repositories } with
  | ok record => exact Or.inl ⟨record, rfl, hshown.mp ⟨record, hread⟩⟩
  | error e =>
    refine Or.inr ⟨e, rfl, spares_repository _ _ _ hread, fun hs => ?_⟩
    obtain ⟨record, hrecord⟩ := hshown.mpr hs
    cases hread.symm.trans hrecord

end Registrations

end AiSaas.Kernel
