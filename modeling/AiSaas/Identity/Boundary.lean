import AiSaas.Python
import AiSaas.Lib.Runs
import AiSaas.Lib.Transactions
import Mathlib.Data.List.AList

/-!
# The tenant boundary

`TenantBoundary` of `services/identity_tenant/boundary.py`: users, tenants and
memberships, the index of users by their email, and the Google identities that are
linked to users.  Letter case is the interpreter's, a parameter `lower`.

## Main definitions

* `Boundary` — the five maps.
* `Boundary.addUser`, `addTenant`, `addMembership`, `linkGoogleIdentity` — the operations.
* `Boundary.requireAdmin`, `membershipsForTenant`, `user` — the reads of admin operations.
* `Boundary.Sound` — memberships, emails and links refer to users that are there.
* `BoundaryCall.Spelled` — the email of a known user is spelled without blanks around it.

## Main results

* `identities_sound` — every run keeps the boundary sound, remaps no identity, and links a
  known email only with its user's consent.
-/

namespace AiSaas

open Transaction

/-! ### Records -/

/-- What the boundary raises. -/
inductive Denied where
  | valueError (message : String)
  | accountCollision (message : String)
  | authorizationDenied (message : String)
  | authenticationRequired (message : String)
  | oauthCallbackError (message : String)
  /-- `TypeError` of a call that the standard library refuses. -/
  | typeError
  /-- `OverflowError` of a time outside the calendar. -/
  | overflowError
  | reasonRequired (message : String)
  deriving DecidableEq, Repr

/-- `Role`. -/
inductive Role where
  | owner
  | admin
  | member
  deriving DecidableEq, Repr

/-- `Role(value)`. -/
def Role.ofText? : String → Option Role
  | "owner" => some .owner
  | "admin" => some .admin
  | "member" => some .member
  | _ => none

/-- `ROLE_PERMISSIONS`. -/
def Role.permissions : Role → List String
  | .owner => ["tenant.read", "tenant.member.read", "tenant.member.manage", "admin.users.read",
      "admin.plans.write", "admin.credits.write"]
  | .admin => ["tenant.read", "tenant.member.read", "admin.users.read", "admin.plans.write",
      "admin.credits.write"]
  | .member => ["tenant.read"]

/-- `SUPER_ADMIN`. -/
def superAdmin : String := "super_admin"

/-- `GOOGLE_ISSUER`. -/
def googleIssuer : String := "https://accounts.google.com"

/-- `GoogleIdentity`. -/
structure GoogleIdentity where
  providerSubject : String
  email : String
  emailVerified : Bool
  issuer : String
  displayName : Option String
  deriving DecidableEq, Repr

/-- The key an identity is linked by. -/
def GoogleIdentity.key (identity : GoogleIdentity) : String × String :=
  (identity.issuer, identity.providerSubject)

/-- `UserRecord`. -/
structure UserRecord where
  userId : String
  email : String
  displayName : Option String
  status : String
  globalRoles : List String
  deriving DecidableEq, Repr

/-- `TenantRecord`. -/
structure TenantRecord where
  tenantId : String
  name : String
  deriving DecidableEq, Repr

/-- `Membership`. -/
structure Membership where
  userId : String
  tenantId : String
  role : Role
  deriving DecidableEq, Repr

/-- `RequestContext`. -/
structure RequestContext where
  userId : String
  sessionId : String
  activeTenantId : Option String
  globalRoles : List String

/-- `uuid.uuid4().hex`. -/
structure Uuid where
  hex : String
  digits : ∀ c ∈ hex.toList, isSpace c = false

/-- `_required_text`. -/
def requiredText (value field : String) : Except Denied String :=
  if blank value then .error (.valueError (field ++ " is required")) else .ok (strip value)

/-! ### The boundary -/

/-- A `dict` with text keys. -/
abbrev Dict (β : Type) := AList fun _ : String => β

/-- The maps of the boundary. -/
structure Boundary where
  users : Dict UserRecord
  tenants : Dict TenantRecord
  memberships : AList fun _ : String × String => Membership
  googleSubjects : AList fun _ : String × String => String
  emailUsers : Dict String

namespace Boundary

/-- A boundary nobody was added to. -/
def empty : Boundary := ⟨∅, ∅, ∅, ∅, ∅⟩

variable (lower : String → String)

/-- `add_user`. -/
def addUser (userId email : String) (displayName : Option String) (globalRoles : List String) :
    Tx Denied Boundary UserRecord := fun b => do
  let userId ← requiredText userId "user_id"
  let email ← (requiredText email "email").map lower
  ensure (!((b.users.lookup userId).isSome || (b.emailUsers.lookup email).isSome))
    (.valueError "user already exists")
  let user : UserRecord := ⟨userId, email, displayName, "active", globalRoles⟩
  return (user, { b with
    users := b.users.insert userId user
    emailUsers := b.emailUsers.insert email userId })

/-- `add_tenant`. -/
def addTenant (tenantId name : String) : Tx Denied Boundary TenantRecord := fun b => do
  let tenantId ← requiredText tenantId "tenant_id"
  let name ← requiredText name "name"
  ensure (b.tenants.lookup tenantId).isNone (.valueError "tenant already exists")
  let tenant : TenantRecord := ⟨tenantId, name⟩
  return (tenant, { b with tenants := b.tenants.insert tenantId tenant })

/-- `add_membership`. -/
def addMembership (userId tenantId role : String) : Tx Denied Boundary Membership := fun b => do
  ensure ((b.users.lookup userId).isSome && (b.tenants.lookup tenantId).isSome)
    (.valueError "membership references unknown identity or tenant")
  let role ← orRaise (Role.ofText? role) (.valueError "not a valid Role")
  let membership : Membership := ⟨userId, tenantId, role⟩
  return (membership, { b with memberships := b.memberships.insert (userId, tenantId) membership })

/-- An entry of a `dict` that counts: `if value:`. -/
def entry {κ : Type} [DecidableEq κ] (m : AList fun _ : κ => String) (key : κ) : Option String :=
  (m.lookup key).filter fun value => decide (value ≠ "")

/-- `link_google_identity`. -/
def linkGoogleIdentity (identity : GoogleIdentity) (authenticatedUserId : Option String)
    (confirm : Bool) (fresh : Uuid) : Tx Denied Boundary String := fun b =>
  match entry b.googleSubjects identity.key with
  | some linked => .ok (linked, b)
  | none =>
    match entry b.emailUsers (lower identity.email) with
    | some existing => do
      ensure (decide (authenticatedUserId = some existing) && confirm)
        (.accountCollision "explicit authenticated account linking is required")
      return (existing, { b with googleSubjects := b.googleSubjects.insert identity.key existing })
    | none => do
      let userId := "google-" ++ fresh.hex
      let (_, b) ← addUser lower userId identity.email identity.displayName [] b
      return (userId, { b with googleSubjects := b.googleSubjects.insert identity.key userId })

/-! ### Reads -/

/-- `require_tenant`. -/
def requireTenant (b : Boundary) (context : RequestContext) (tenantId : String) :
    Except Denied Membership := do
  ensure (b.tenants.lookup tenantId).isSome (.authorizationDenied "tenant access denied")
  ensure (!(context.activeTenantId.any fun active => decide (active ≠ "" ∧ active ≠ tenantId)) ||
    decide (superAdmin ∈ context.globalRoles)) (.authorizationDenied "tenant access denied")
  match b.memberships.lookup (context.userId, tenantId) with
  | some membership => return membership
  | none => do
    ensure (decide (superAdmin ∈ context.globalRoles)) (.authorizationDenied "tenant access denied")
    return ⟨context.userId, tenantId, .owner⟩

/-- `require_permission`. -/
def requirePermission (b : Boundary) (context : RequestContext) (tenantId permission : String) :
    Except Denied Membership := do
  let membership ← b.requireTenant context tenantId
  ensure (decide (superAdmin ∈ context.globalRoles) ||
    decide (permission ∈ membership.role.permissions)) (.authorizationDenied "permission denied")
  return membership

/-- `require_admin`. -/
def requireAdmin (b : Boundary) (context : RequestContext) (tenantId permission : String) :
    Except Denied Membership := do
  ensure ("admin.".toList.isPrefixOf permission.toList)
    (.valueError "admin permission must use the admin namespace")
  b.requirePermission context tenantId permission

/-- `user`. -/
def user (b : Boundary) (userId : String) : Except Denied UserRecord :=
  orRaise (b.users.lookup userId) (.authorizationDenied "user access denied")

/-- `memberships_for_tenant`. -/
def membershipsForTenant (b : Boundary) (tenantId : String) : Except Denied (List Membership) := do
  ensure (b.tenants.lookup tenantId).isSome (.authorizationDenied "tenant access denied")
  return (b.memberships.entries.map Sigma.snd).filter fun m => decide (m.tenantId = tenantId)

end Boundary

/-! ### Calls -/

/-- A call of an operation that writes. -/
inductive BoundaryCall where
  | addUser (userId email : String) (displayName : Option String) (globalRoles : List String)
  | addTenant (tenantId name : String)
  | addMembership (userId tenantId role : String)
  | linkGoogleIdentity (identity : GoogleIdentity) (authenticatedUserId : Option String)
      (confirm : Bool) (fresh : Uuid)

namespace BoundaryCall

variable (lower : String → String)

/-- The boundary after a call. -/
def step (b : Boundary) : BoundaryCall → Boundary
  | addUser userId email displayName globalRoles =>
    (atomically (Boundary.addUser lower userId email displayName globalRoles) b).2
  | addTenant tenantId name => (atomically (Boundary.addTenant tenantId name) b).2
  | addMembership userId tenantId role =>
    (atomically (Boundary.addMembership userId tenantId role) b).2
  | linkGoogleIdentity identity authenticatedUserId confirm fresh =>
    (atomically (Boundary.linkGoogleIdentity lower identity authenticatedUserId confirm fresh) b).2

/-- The user whose stored email is an identity's, where the identity is linked to none. -/
def Known (b : Boundary) (identity : GoogleIdentity) (userId : String) : Prop :=
  (∃ u, b.users.lookup userId = some u ∧ u.email = lower (strip identity.email)) ∧
    b.googleSubjects.lookup identity.key = none

/-- A known email is refused, or its user was passed and has confirmed. -/
def Consented (b : Boundary) : BoundaryCall → Prop
  | linkGoogleIdentity identity authenticatedUserId confirm fresh =>
    ∀ userId, Known lower b identity userId →
      (∃ message, atomically (Boundary.linkGoogleIdentity lower identity authenticatedUserId confirm
        fresh) b = (.error (.accountCollision message), b)) ∨
      authenticatedUserId = some userId ∧ confirm = true
  | _ => True

/-- A known email, whose user was not passed or has not confirmed, is spelled without
blanks around it. -/
def Spelled (b : Boundary) : BoundaryCall → Prop
  | linkGoogleIdentity identity authenticatedUserId confirm _ =>
    ∀ userId, Known lower b identity userId → ¬ (authenticatedUserId = some userId ∧ confirm = true) →
      lower identity.email = lower (strip identity.email)
  | _ => True

end BoundaryCall

/-! ### What the operations do -/

namespace Boundary

variable {lower : String → String} {b b' : Boundary}

theorem requiredText_eq_ok {value field text : String} (h : requiredText value field = .ok text) :
    text = strip value ∧ text ≠ "" := by
  unfold requiredText at h
  split at h
  · cases h
  · next hblank =>
    obtain rfl := Except.ok.inj h
    exact ⟨rfl, strip_ne_empty (Bool.eq_false_iff.mpr hblank)⟩

/-- A boundary with one more user. -/
def withUser (b : Boundary) (user : UserRecord) : Boundary :=
  { b with
    users := b.users.insert user.userId user
    emailUsers := b.emailUsers.insert user.email user.userId }

/-- A boundary with one more link. -/
def withLink (b : Boundary) (key : String × String) (userId : String) : Boundary :=
  { b with googleSubjects := b.googleSubjects.insert key userId }

/-- **What `add_user` did.** -/
theorem addUser_eq_ok {userId email : String} {displayName : Option String} {roles : List String}
    {user : UserRecord} (h : addUser lower userId email displayName roles b = .ok (user, b')) :
    user.userId = strip userId ∧ user.userId ≠ "" ∧ user.email = lower (strip email) ∧
      b.users.lookup user.userId = none ∧ b.emailUsers.lookup user.email = none ∧
      b' = b.withUser user := by
  simp only [addUser, bind_eq_ok, ensure_eq_ok, map_eq_ok] at h
  obtain ⟨id, hid, address, ⟨trimmed, htrimmed, rfl⟩, -, hnew, h⟩ := h
  obtain ⟨rfl, hne⟩ := requiredText_eq_ok hid
  obtain ⟨rfl, -⟩ := requiredText_eq_ok htrimmed
  obtain ⟨rfl, rfl⟩ := Prod.mk.inj (Except.ok.inj h)
  simp only [Bool.not_eq_true', Bool.or_eq_false_iff, Option.isSome_eq_false_iff,
    Option.isNone_iff_eq_none] at hnew
  exact ⟨rfl, hne, rfl, hnew.1, hnew.2, rfl⟩

theorem addTenant_eq_ok {tenantId name : String} {tenant : TenantRecord}
    (h : addTenant tenantId name b = .ok (tenant, b')) :
    b' = { b with tenants := b.tenants.insert tenant.tenantId tenant } := by
  simp only [addTenant, bind_eq_ok] at h
  obtain ⟨id, -, text, -, -, -, h⟩ := h
  obtain ⟨rfl, rfl⟩ := Prod.mk.inj (Except.ok.inj h)
  rfl

theorem addMembership_eq_ok {userId tenantId role : String} {membership : Membership}
    (h : addMembership userId tenantId role b = .ok (membership, b')) :
    (∃ u, b.users.lookup userId = some u) ∧ (∃ t, b.tenants.lookup tenantId = some t) ∧
      membership.userId = userId ∧ membership.tenantId = tenantId ∧
      b' = { b with memberships := b.memberships.insert (userId, tenantId) membership } := by
  simp only [addMembership, bind_eq_ok, ensure_eq_ok, Bool.and_eq_true, Option.isSome_iff_exists] at h
  obtain ⟨-, ⟨huser, htenant⟩, r, -, h⟩ := h
  obtain ⟨rfl, rfl⟩ := Prod.mk.inj (Except.ok.inj h)
  exact ⟨huser, htenant, rfl, rfl, rfl⟩

theorem entry_eq_some {κ : Type} [DecidableEq κ] {m : AList fun _ : κ => String} {key : κ}
    {value : String} (h : entry m key = some value) : m.lookup key = some value :=
  (Option.filter_eq_some_iff.mp h).1

/-- **What `link_google_identity` did**: it found the link, linked a known email that was
confirmed, or made a user. -/
theorem linkGoogleIdentity_eq_ok {identity : GoogleIdentity} {authenticated : Option String}
    {confirm : Bool} {fresh : Uuid} {userId : String}
    (h : linkGoogleIdentity lower identity authenticated confirm fresh b = .ok (userId, b')) :
    (b.googleSubjects.lookup identity.key = some userId ∧ b' = b) ∨
      entry b.googleSubjects identity.key = none ∧
        ((entry b.emailUsers (lower identity.email) = some userId ∧ authenticated = some userId ∧
            confirm = true ∧ b' = b.withLink identity.key userId) ∨
          ∃ user : UserRecord, user.userId = userId ∧ user.userId ≠ "" ∧
            user.email = lower (strip identity.email) ∧ b.users.lookup user.userId = none ∧
            b.emailUsers.lookup user.email = none ∧
            b' = (b.withUser user).withLink identity.key userId) := by
  unfold linkGoogleIdentity at h
  split at h
  · next linked hlinked =>
    obtain ⟨rfl, rfl⟩ := Prod.mk.inj (Except.ok.inj h)
    exact Or.inl ⟨entry_eq_some hlinked, rfl⟩
  · next hfree =>
    refine Or.inr ⟨hfree, ?_⟩
    split at h
    · next existing hexisting =>
      simp only [bind_eq_ok, ensure_eq_ok, Bool.and_eq_true, decide_eq_true_eq] at h
      obtain ⟨-, ⟨hpassed, hconfirm⟩, h⟩ := h
      obtain ⟨rfl, rfl⟩ := Prod.mk.inj (Except.ok.inj h)
      exact Or.inl ⟨hexisting, hpassed, hconfirm, rfl⟩
    · simp only [bind_eq_ok] at h
      obtain ⟨⟨user, b₁⟩, hadd, h⟩ := h
      obtain ⟨hid, hne, hemail, huser, hindex, rfl⟩ := addUser_eq_ok hadd
      obtain ⟨rfl, rfl⟩ := Prod.mk.inj (Except.ok.inj h)
      refine Or.inr ⟨user, ?_, hne, hemail, huser, hindex, rfl⟩
      rw [hid, strip_eq_self]
      intro c hc
      rw [String.toList_append, List.mem_append] at hc
      rcases hc with hc | hc
      · exact List.all_eq_true.mp (by decide : "google-".toList.all fun c => isSpace c == false) c hc
          |> beq_iff_eq.mp
      · exact fresh.digits c hc

/-! ### Soundness -/

/-- Memberships and links refer to users that are there, and the index of emails is the
inverse of the users' emails. -/
structure Sound (b : Boundary) : Prop where
  memberships : ∀ key m, b.memberships.lookup key = some m →
    (∃ u, b.users.lookup m.userId = some u) ∧ ∃ t, b.tenants.lookup m.tenantId = some t
  named : ∀ id u, b.users.lookup id = some u → u.userId = id ∧ id ≠ ""
  emails : ∀ email id, b.emailUsers.lookup email = some id ↔
    ∃ u, b.users.lookup id = some u ∧ u.email = email
  linked : ∀ key id, b.googleSubjects.lookup key = some id → ∃ u, b.users.lookup id = some u

theorem sound_empty : Sound empty := by
  constructor <;> simp [empty]

/-- Looking a user up after one was added. -/
theorem lookup_withUser {user : UserRecord} {id : String} : (b.withUser user).users.lookup id
    = if id = user.userId then some user else b.users.lookup id := by
  split
  · next h =>
    rw [h]
    exact AList.lookup_insert _
  · next h => exact AList.lookup_insert_ne h

theorem Sound.withUser (h : Sound b) {user : UserRecord} (hne : user.userId ≠ "")
    (hnew : b.users.lookup user.userId = none) (hindex : b.emailUsers.lookup user.email = none) :
    Sound (b.withUser user) := by
  have hkeep : ∀ {id}, (∃ u, b.users.lookup id = some u) →
      ∃ u, (b.withUser user).users.lookup id = some u := by
    intro id hid
    rw [lookup_withUser]
    split
    · exact ⟨user, rfl⟩
    · exact hid
  refine ⟨fun key m hm => ?_, fun id u hu => ?_, fun email id => ?_, fun key id hid => ?_⟩
  · obtain ⟨hu, ht⟩ := h.memberships key m hm
    exact ⟨hkeep hu, ht⟩
  · rw [lookup_withUser] at hu
    split at hu
    · next hid =>
      obtain rfl := Option.some.inj hu
      exact ⟨hid.symm, hid ▸ hne⟩
    · exact h.named id u hu
  · rw [lookup_withUser]
    by_cases hemail : email = user.email
    · -- the new email: no user had it
      subst hemail
      have hlookup : (b.withUser user).emailUsers.lookup user.email = some user.userId :=
        AList.lookup_insert _
      rw [hlookup, Option.some.injEq]
      constructor
      · rintro rfl
        rw [if_pos rfl]
        exact ⟨user, rfl, rfl⟩
      · rintro ⟨u, hu, hmail⟩
        by_contra hid
        rw [if_neg (Ne.symm hid)] at hu
        have hold := (h.emails user.email id).mpr ⟨u, hu, hmail⟩
        rw [hindex] at hold
        cases hold
    · have hlookup : (b.withUser user).emailUsers.lookup email = b.emailUsers.lookup email :=
        AList.lookup_insert_ne hemail
      rw [hlookup, h.emails email id]
      by_cases hid : id = user.userId
      · rw [if_pos hid, hid, hnew]
        simp [Ne.symm hemail]
      · rw [if_neg hid]
  · exact hkeep (h.linked key id hid)

theorem Sound.withLink (h : Sound b) {key : String × String} {id : String}
    (hid : ∃ u, b.users.lookup id = some u) : Sound (b.withLink key id) := by
  refine ⟨h.memberships, h.named, h.emails, fun key' id' hlookup => ?_⟩
  by_cases hkey : key' = key
  · subst hkey
    obtain rfl := Option.some.inj ((AList.lookup_insert _).symm.trans hlookup)
    exact hid
  · exact h.linked key' id' ((AList.lookup_insert_ne hkey).symm.trans hlookup)

/-- In a sound boundary every entry counts. -/
theorem Sound.entry_subjects (h : Sound b) (key : String × String) :
    entry b.googleSubjects key = b.googleSubjects.lookup key := by
  unfold entry
  cases hlookup : b.googleSubjects.lookup key with
  | none => rfl
  | some id =>
    obtain ⟨u, hu⟩ := h.linked key id hlookup
    simp [(h.named id u hu).2]

theorem Sound.entry_emails (h : Sound b) (email : String) :
    entry b.emailUsers email = b.emailUsers.lookup email := by
  unfold entry
  cases hlookup : b.emailUsers.lookup email with
  | none => rfl
  | some id =>
    obtain ⟨u, hu, -⟩ := (h.emails email id).mp hlookup
    simp [(h.named id u hu).2]

/-- Links stay, with their users. -/
def LinksStay (b b' : Boundary) : Prop :=
  ∀ key id, b.googleSubjects.lookup key = some id → b'.googleSubjects.lookup key = some id

theorem linksStay_refl (b : Boundary) : LinksStay b b := fun _ _ h => h

theorem LinksStay.trans {b'' : Boundary} (h : LinksStay b b') (h' : LinksStay b' b'') :
    LinksStay b b'' := fun key id hlink => h' key id (h key id hlink)

/-- A link for an identity that had none leaves the others. -/
theorem linksStay_withLink {key : String × String} {id : String}
    (hfree : b.googleSubjects.lookup key = none) : LinksStay b (b.withLink key id) := by
  intro key' id' hlink
  have hne : key' ≠ key := by
    rintro rfl
    rw [hfree] at hlink
    cases hlink
  exact (AList.lookup_insert_ne hne).trans hlink

end Boundary

namespace BoundaryCall

open Boundary

variable {lower : String → String} {b : Boundary}

/-- **Every call** keeps a boundary sound, and its links. -/
theorem sound_step (hb : Sound b) (c : BoundaryCall) :
    Sound (c.step lower b) ∧ LinksStay b (c.step lower b) := by
  have hrefl : Sound b ∧ LinksStay b b := ⟨hb, linksStay_refl b⟩
  cases c with
  | addUser userId email displayName globalRoles =>
    refine snd_atomically_of (I := fun b' => Sound b' ∧ LinksStay b b') hrefl fun user b' hok => ?_
    obtain ⟨-, hne, -, huser, hindex, rfl⟩ := addUser_eq_ok hok
    exact ⟨hb.withUser hne huser hindex, linksStay_refl b⟩
  | addTenant tenantId name =>
    refine snd_atomically_of (I := fun b' => Sound b' ∧ LinksStay b b') hrefl fun tenant b' hok => ?_
    obtain rfl := addTenant_eq_ok hok
    refine ⟨⟨fun key m hm => ?_, hb.named, hb.emails, hb.linked⟩, linksStay_refl b⟩
    obtain ⟨hu, t, ht⟩ := hb.memberships key m hm
    refine ⟨hu, ?_⟩
    by_cases hid : m.tenantId = tenant.tenantId
    · rw [hid]
      exact ⟨tenant, AList.lookup_insert _⟩
    · exact ⟨t, (AList.lookup_insert_ne hid).trans ht⟩
  | addMembership userId tenantId role =>
    refine snd_atomically_of (I := fun b' => Sound b' ∧ LinksStay b b') hrefl fun member b' hok => ?_
    obtain ⟨huser, htenant, rfl, rfl, rfl⟩ := addMembership_eq_ok hok
    refine ⟨⟨fun key m hm => ?_, hb.named, hb.emails, hb.linked⟩, linksStay_refl b⟩
    by_cases hkey : key = (member.userId, member.tenantId)
    · subst hkey
      obtain rfl := Option.some.inj ((AList.lookup_insert _).symm.trans hm)
      exact ⟨huser, htenant⟩
    · exact hb.memberships key m ((AList.lookup_insert_ne hkey).symm.trans hm)
  | linkGoogleIdentity identity authenticated confirm fresh =>
    refine snd_atomically_of (I := fun b' => Sound b' ∧ LinksStay b b') hrefl fun id b' hok => ?_
    obtain ⟨-, rfl⟩ | ⟨hfree, ⟨hknown, -, -, rfl⟩ | ⟨user, rfl, hne, -, huser, hindex, rfl⟩⟩ :=
      linkGoogleIdentity_eq_ok hok
    · exact hrefl
    · rw [hb.entry_subjects] at hfree
      obtain ⟨u, hu, -⟩ := (hb.emails _ _).mp (entry_eq_some hknown)
      exact ⟨hb.withLink ⟨u, hu⟩, linksStay_withLink hfree⟩
    · rw [hb.entry_subjects] at hfree
      have hadded : (b.withUser user).users.lookup user.userId = some user := AList.lookup_insert _
      exact ⟨(hb.withUser hne huser hindex).withLink ⟨user, hadded⟩, linksStay_withLink hfree⟩

/-- **A known email** that is spelled without blanks is refused, or its user was passed and
has confirmed. -/
theorem consented_of_spelled (hb : Sound b) {c : BoundaryCall} (hc : c.Spelled lower b) :
    c.Consented lower b := by
  cases c with
  | addUser | addTenant | addMembership => trivial
  | linkGoogleIdentity identity authenticated confirm fresh =>
    intro userId hknown
    by_cases hpassed : authenticated = some userId ∧ confirm = true
    · exact Or.inr hpassed
    · have hspelled := hc userId hknown hpassed
      obtain ⟨⟨u, hu, hemail⟩, hfree⟩ := hknown
      have hfound : entry b.emailUsers (lower identity.email) = some userId := by
        rw [hb.entry_emails, hspelled]
        exact (hb.emails _ _).mpr ⟨u, hu, hemail⟩
      refine Or.inl ⟨"explicit authenticated account linking is required", ?_⟩
      apply atomically_of_error
      have hrefused : (decide (authenticated = some userId) && confirm) = false := by
        simpa using hpassed
      rw [Boundary.linkGoogleIdentity, hb.entry_subjects, hfree]
      dsimp only
      rw [hfound]
      dsimp only
      rw [hrefused]
      rfl

end BoundaryCall

/-! ### Runs of calls -/

/-- **Identities.**  After any calls the boundary is sound; a link that was made is there
after any further calls; and where known emails are spelled without blanks, each of them
was refused, or its user was passed and had confirmed. -/
theorem identities_sound (lower : String → String) (calls : List BoundaryCall)
    (hspelled : Runs.Along (BoundaryCall.step lower) (BoundaryCall.Spelled lower) Boundary.empty calls) :
    (Runs.final (BoundaryCall.step lower) Boundary.empty calls).Sound ∧
      (∀ before after, calls = before ++ after →
        (Runs.final (BoundaryCall.step lower) Boundary.empty before).LinksStay
          (Runs.final (BoundaryCall.step lower) Boundary.empty calls)) ∧
      Runs.Along (BoundaryCall.step lower) (BoundaryCall.Consented lower) Boundary.empty calls := by
  have hsound : ∀ cs, (Runs.final (BoundaryCall.step lower) Boundary.empty cs).Sound := fun cs =>
    Runs.invariant Boundary.sound_empty (fun b c hb => (BoundaryCall.sound_step hb c).1) cs
  refine ⟨hsound calls, ?_, ?_⟩
  · rintro before after rfl
    rw [Runs.final_append]
    exact Runs.rel_final (I := Boundary.Sound) Boundary.linksStay_refl Boundary.LinksStay.trans
      (fun b c hb => (BoundaryCall.sound_step hb c).1)
      (fun b c hb => (BoundaryCall.sound_step hb c).2) (hsound before) after
  · exact hspelled.mono_invariant Boundary.sound_empty
      (fun b c hb => (BoundaryCall.sound_step hb c).1)
      fun b c hb hc => BoundaryCall.consented_of_spelled hb hc

/-- A user, and an attempt to link an identity with its email. -/
def linkingCalls (email : String) : List BoundaryCall :=
  [.addUser "user-1" "a@example.com" none [],
    .linkGoogleIdentity ⟨"subject-1", email, true, googleIssuer, none⟩ none false ⟨"0", by simp [isSpace]⟩]

/-- An identity with the email as it is stored. -/
theorem spelled_identities_sound :
    (Runs.final (BoundaryCall.step id) Boundary.empty (linkingCalls "a@example.com")).Sound ∧
      (∀ before after, linkingCalls "a@example.com" = before ++ after →
        (Runs.final (BoundaryCall.step id) Boundary.empty before).LinksStay
          (Runs.final (BoundaryCall.step id) Boundary.empty (linkingCalls "a@example.com"))) ∧
      Runs.Along (BoundaryCall.step id) (BoundaryCall.Consented id) Boundary.empty
        (linkingCalls "a@example.com") := by
  refine identities_sound id (linkingCalls "a@example.com") ⟨trivial, ?_, trivial⟩
  intro userId _ _
  decide

/-- With a blank before it, the email of a user is neither refused as a collision nor
linked with consent. -/
theorem blank_email_unlinkable : ¬ Runs.Along (BoundaryCall.step id) (BoundaryCall.Consented id)
    Boundary.empty (linkingCalls " a@example.com") := by
  rintro ⟨-, hconsented, -⟩
  have hknown : BoundaryCall.Known id (BoundaryCall.step id Boundary.empty
      (.addUser "user-1" "a@example.com" none [])) ⟨"subject-1", " a@example.com", true, googleIssuer, none⟩
      "user-1" := ⟨⟨⟨"user-1", "a@example.com", none, "active", []⟩, by decide, by decide⟩, by decide⟩
  rcases hconsented "user-1" hknown with ⟨message, hraised⟩ | ⟨hpassed, -⟩
  · have hexists : (atomically (Boundary.linkGoogleIdentity id
        ⟨"subject-1", " a@example.com", true, googleIssuer, none⟩ none false ⟨"0", by simp [isSpace]⟩)
        (BoundaryCall.step id Boundary.empty (.addUser "user-1" "a@example.com" none []))).1
          = .error (.valueError "user already exists") := rfl
    cases hexists.symm.trans (congrArg Prod.fst hraised)
  · cases hpassed

end AiSaas
