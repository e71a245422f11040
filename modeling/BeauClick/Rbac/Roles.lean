import BeauClick.Commerce.Order
import BeauClick.Lib.Journal
import BeauClick.Lib.Removable
import BeauClick.Lib.Transactions
import Mathlib.Data.List.Sort

/-!
# Granting and revoking roles

`RoleService` (`services/identity/src/rbac/role.service.ts`): any number of `grant`, `revoke` and
`assignOwnerRole` calls at the same time, statement by statement, on the tables of
`services/identity/src/entities/role.entities.ts`.
-/

namespace BeauClick.Rbac

open ReadCommitted Transactions List

/-! ## The catalogue -/

/-- A row of `identity.roles`. -/
structure RoleEntity where
  slug : String
  name : String
  isPrivileged : Bool
  deriving DecidableEq

/-- `identity.roles` and `identity.role_capabilities`. -/
structure Catalogue where
  roles : List RoleEntity
  /-- The role and the capability that it confers. -/
  roleCapabilities : List (String × String)

namespace Catalogue

/-- The role with a slug. -/
def findRole (c : Catalogue) (slug : String) : Option RoleEntity := c.roles.find? (·.slug = slug)

/-- The capabilities that the links of some roles name. -/
def linked (c : Catalogue) (roles : List String) : List String :=
  (c.roleCapabilities.filter fun link => link.1 ∈ roles).map (·.2)

def capabilitiesForRole (c : Catalogue) (roleSlug : String) : List String :=
  (c.linked [roleSlug]).insertionSort fun a b => a ≤ b

variable {c : Catalogue} {slug : String} {roles : List String} {capability : String}

theorem findRole_some {role : RoleEntity} (h : c.findRole slug = some role) :
    role ∈ c.roles ∧ role.slug = slug :=
  ⟨mem_of_find?_eq_some h, by simpa using find?_some h⟩

theorem mem_linked : capability ∈ c.linked roles ↔
    ∃ slug ∈ roles, (slug, capability) ∈ c.roleCapabilities := by
  simp only [linked, mem_map, mem_filter, decide_eq_true_eq]
  constructor
  · rintro ⟨⟨slug, _⟩, ⟨hlink, hslug⟩, rfl⟩
    exact ⟨slug, hslug, hlink⟩
  · rintro ⟨slug, hslug, hlink⟩
    exact ⟨(slug, capability), ⟨hlink, hslug⟩, rfl⟩

theorem mem_capabilitiesForRole : capability ∈ c.capabilitiesForRole slug ↔
    (slug, capability) ∈ c.roleCapabilities := by
  rw [capabilitiesForRole, mem_insertionSort, mem_linked]
  simp

end Catalogue

/-- The rows that the migrations of `database/migrations/identity` leave. -/
def migrated : Catalogue where
  roles :=
    [⟨"customer", "مشتری", false⟩, ⟨"professional", "متخصص", false⟩,
      ⟨"business", "کسب‌وکار", false⟩, ⟨"moderator", "ناظر محتوا", true⟩,
      ⟨"platform_operator", "اپراتور پلتفرم", true⟩, ⟨"administrator", "مدیر ارشد", true⟩]
  roleCapabilities :=
    [("customer", "bc_book_service"), ("customer", "bc_use_ai_assistant"),
      ("customer", "bc_view_own_orders"),
      ("professional", "bc_manage_own_profile"), ("professional", "bc_manage_own_services"),
      ("professional", "bc_view_own_bookings"), ("professional", "bc_manage_own_availability"),
      ("professional", "bc_view_own_finance"),
      ("business", "bc_manage_own_profile"), ("business", "bc_manage_own_services"),
      ("business", "bc_view_own_bookings"), ("business", "bc_manage_business_staff"),
      ("business", "bc_manage_own_availability"), ("business", "bc_view_own_finance"),
      ("moderator", "bc_moderate_verification"), ("moderator", "bc_moderate_reviews"),
      ("platform_operator", "bc_manage_platform"),
      ("platform_operator", "bc_moderate_verification"),
      ("administrator", "bc_manage_platform"), ("administrator", "bc_moderate_verification"),
      ("administrator", "bc_moderate_reviews"), ("administrator", "bc_manage_own_profile"),
      -- `20260828100002_add_media_moderation_capability`
      ("moderator", "bc_moderate_media"), ("administrator", "bc_moderate_media"),
      -- `20260830500002_add_chat_capabilities`
      ("customer", "bc_use_chat"), ("professional", "bc_use_chat"), ("business", "bc_use_chat"),
      ("moderator", "bc_moderate_chat"), ("administrator", "bc_moderate_chat"),
      -- `20260902800002_add_commercial_plan_capability`
      ("administrator", "bc_manage_commercial_plans"),
      -- `20260904800001_add_seller_subscription_capability`
      ("professional", "bc_manage_own_subscription"), ("business", "bc_manage_own_subscription"),
      -- `20260907800002_add_collection_policy_capability`
      ("professional", "bc_manage_own_collection_policy"),
      ("business", "bc_manage_own_collection_policy")]

/-! ## The tables -/

/-- A row of `identity.user_roles`, by user and role. -/
structure UserRoleEntity where
  grantedBy : Option Uuid
  reason : Option String

/-- `actor_user_id`, or `actor_label`. -/
inductive AuditActor where
  | user (userId : Uuid)
  | label (actorLabel : String)

/-- A row of `admin.admin_audit_log`, with the fields of its snapshots. -/
structure AdminAuditLogEntity where
  actor : AuditActor
  action : String
  targetType : String
  targetId : Uuid
  /-- `before.roles`. -/
  beforeRoles : Option String
  /-- `after.roles`. -/
  afterRoles : String
  /-- `after.role`. -/
  afterRole : String
  reason : String

/-- The tables of the roles. -/
structure RoleDb where
  userRoles : Removable ℕ (Uuid × String) UserRoleEntity
  /-- `identity.users.roles`, the denormalized column. -/
  users : Versioned ℕ Uuid (List String)
  audit : Journal ℕ AdminAuditLogEntity

namespace RoleDb

/-- Transaction `pid` commits. -/
def commit (db : RoleDb) (pid : ℕ) : RoleDb :=
  ⟨db.userRoles.commit pid, db.users.commit pid, db.audit.commit pid⟩

/-- Transaction `pid` rolls back. -/
def rollback (db : RoleDb) (pid : ℕ) : RoleDb :=
  ⟨db.userRoles.rollback pid, db.users.rollback pid, db.audit.rollback pid⟩

/-- The committed rows, and no transaction at work. -/
def settle (db : RoleDb) : RoleDb :=
  ⟨db.userRoles.settle, db.users.settle, ⟨db.audit.committed, fun _ => []⟩⟩

/-- The user is assigned the role. -/
def HasRole (db : RoleDb) (userId : Uuid) (roleSlug : String) : Prop :=
  db.userRoles.there (userId, roleSlug) ≠ none

/-- The roles that a transaction sees of a user. -/
def rolesForUser (db : RoleDb) (pid : ℕ) (userId : Uuid) : List String :=
  (((db.userRoles.rows pid).filter fun row => row.1.1 = userId).map (·.1.2)).insertionSort
    fun a b => a ≤ b

theorem mem_rolesForUser {db : RoleDb} {pid : ℕ} {userId : Uuid} {slug : String} :
    slug ∈ db.rolesForUser pid userId ↔ ∃ x, db.userRoles.find pid (userId, slug) = some x := by
  simp only [rolesForUser, mem_insertionSort, mem_map, mem_filter, decide_eq_true_eq,
    Removable.mem_rows]
  constructor
  · rintro ⟨⟨⟨_, _⟩, x⟩, ⟨hfind, rfl⟩, rfl⟩
    exact ⟨x, hfind⟩
  · rintro ⟨x, hfind⟩
    exact ⟨((userId, slug), x), ⟨hfind, rfl⟩, rfl⟩

end RoleDb

/-- The roles and capabilities of a user. -/
structure ResolvedAccess where
  roles : List String
  capabilities : List String
  deriving DecidableEq

/-- The roles, and all that they allow. -/
def resolveAccess (catalogue : Catalogue) (db : RoleDb) (pid : ℕ) (userId : Uuid) :
    ResolvedAccess :=
  let roles := db.rolesForUser pid userId
  if roles = [] then ⟨[], []⟩
  else ⟨roles, (catalogue.linked roles).dedup.insertionSort fun a b => a ≤ b⟩

theorem mem_resolveAccess {catalogue : Catalogue} {db : RoleDb} {pid : ℕ} {userId : Uuid}
    {capability : String} : capability ∈ (resolveAccess catalogue db pid userId).capabilities ↔
      ∃ slug x, db.userRoles.find pid (userId, slug) = some x ∧
        (slug, capability) ∈ catalogue.roleCapabilities := by
  unfold resolveAccess
  dsimp only
  split_ifs with hroles
  · refine iff_of_false not_mem_nil ?_
    rintro ⟨slug, x, hfind, -⟩
    have hmem := RoleDb.mem_rolesForUser.2 ⟨x, hfind⟩
    rw [hroles] at hmem
    cases hmem
  · rw [mem_insertionSort, mem_dedup, Catalogue.mem_linked]
    constructor
    · rintro ⟨slug, hslug, hlink⟩
      obtain ⟨x, hfind⟩ := RoleDb.mem_rolesForUser.1 hslug
      exact ⟨slug, x, hfind, hlink⟩
    · rintro ⟨slug, x, hfind, hlink⟩
      exact ⟨slug, RoleDb.mem_rolesForUser.2 ⟨x, hfind⟩, hlink⟩

/-! ## The calls -/

/-- What `mutate` and `assignOwnerRole` are refused with; the texts are left out. -/
inductive RoleError where
  | roleNotFound
  | neverGrantable
  | notASubset (roleName : String)
  | selfEscalation
  | targetUserNotFound
  deriving DecidableEq

/-- The roles that the API never grants. -/
def neverGrantableViaApi : List String := ["administrator"]

/-- A grant or a revocation. -/
inductive MutateMode where
  | grant
  | revoke
  deriving DecidableEq

/-- What `mutate` is given. -/
structure MutateInput where
  actorUserId : Uuid
  targetUserId : Uuid
  roleSlug : String
  reason : String
  mode : MutateMode
  deriving DecidableEq

/-- The roles of owners. -/
inductive OwnerRoleSlug where
  | professional
  | business
  deriving DecidableEq

/-- The slug itself. -/
def OwnerRoleSlug.slug : OwnerRoleSlug → String
  | .professional => "professional"
  | .business => "business"

/-- `OWNER_ROLE_AUDIT_REASONS`. -/
def OwnerRoleSlug.reason : OwnerRoleSlug → String
  | .professional => "professional role granted automatically on professional ownership creation"
  | .business => "business role granted automatically on business ownership creation"

/-- `OWNER_ROLE_AUDIT_ACTIONS`. -/
def OwnerRoleSlug.action : OwnerRoleSlug → String
  | .professional => "identity.professional_owner_role_granted"
  | .business => "identity.business_owner_role_granted"

/-- What a call is asked for; `assignOwnerRole` runs in the transaction of its caller. -/
inductive RoleRequest where
  | mutate (input : MutateInput)
  | assignOwnerRole (userId : Uuid) (roleSlug : OwnerRoleSlug)

/-- Where a call stands. -/
inductive RolePlace where
  | idle
  | failed
  | refused (e : RoleError)
  | mutated (i : MutateInput) (access : ResolvedAccess)
  | assigned
  | findRole (i : MutateInput)
  | findTarget (i : MutateInput) (role : RoleEntity)
  | actorAccess (i : MutateInput) (role : RoleEntity)
  | before (i : MutateInput) (role : RoleEntity)
  | write (i : MutateInput) (role : RoleEntity) (before : List String)
  | after (i : MutateInput) (role : RoleEntity) (before : List String)
  | column (i : MutateInput) (role : RoleEntity) (before after : List String)
  | record (i : MutateInput) (role : RoleEntity) (before after : List String)
  | access (i : MutateInput) (role : RoleEntity)
  | commit (i : MutateInput) (role : RoleEntity) (access : ResolvedAccess)
  | findOwnerRole (userId : Uuid) (roleSlug : OwnerRoleSlug)
  | insertOwner (userId : Uuid) (roleSlug : OwnerRoleSlug) (role : RoleEntity)
  | ownerAfter (userId : Uuid) (roleSlug : OwnerRoleSlug) (role : RoleEntity)
  | ownerColumn (userId : Uuid) (roleSlug : OwnerRoleSlug) (role : RoleEntity)
      (after : List String)
  | recordOwner (userId : Uuid) (roleSlug : OwnerRoleSlug) (role : RoleEntity)
      (after : List String)
  | commitOwner (userId : Uuid) (role : RoleEntity)
  deriving DecidableEq

/-- `join(',')`. -/
def joined (roles : List String) : String := String.intercalate "," roles

/-- The row that `mutate` records. -/
def MutateInput.auditRow (i : MutateInput) (role : RoleEntity) (before after : List String) :
    AdminAuditLogEntity where
  actor := .user i.actorUserId
  action := match i.mode with
    | .grant => "identity.role_granted"
    | .revoke => "identity.role_revoked"
  targetType := "user"
  targetId := i.targetUserId
  beforeRoles := some (joined before)
  afterRoles := joined after
  afterRole := role.slug
  reason := i.reason

/-- The row that `assignOwnerRole` records. -/
def OwnerRoleSlug.auditRow (roleSlug : OwnerRoleSlug) (userId : Uuid) (role : RoleEntity)
    (after : List String) : AdminAuditLogEntity where
  actor := .label "system"
  action := roleSlug.action
  targetType := "identity.user_role"
  targetId := userId
  beforeRoles := none
  afterRoles := joined after
  afterRole := role.slug
  reason := roleSlug.reason

section Statement

variable (catalogue : Catalogue) (db : RoleDb) (pid : ℕ)

/-- `mutate`. -/
def mutateStatement : RolePlace → Next RoleDb Unit RolePlace
  | .findRole i =>
    match catalogue.findRole i.roleSlug with
    | none => .throws (.refused .roleNotFound)
    | some role =>
      if role.slug ∈ neverGrantableViaApi then .throws (.refused .neverGrantable)
      else .goes db (.findTarget i role)
  | .findTarget i role =>
    match db.users.get pid i.targetUserId with
    | none => .throws (.refused .targetUserNotFound)
    | some _ =>
      if role.isPrivileged ∧ i.actorUserId = i.targetUserId then .throws (.refused .selfEscalation)
      else if role.isPrivileged then .goes db (.actorAccess i role)
      else .goes db (.before i role)
  | .actorAccess i role =>
    let actorAccess := resolveAccess catalogue db pid i.actorUserId
    let granted := catalogue.capabilitiesForRole role.slug
    let missing := granted.filter fun c => c ∉ actorAccess.capabilities
    if missing ≠ [] then .throws (.refused (.notASubset role.name)) else .goes db (.before i role)
  | .before i role => .goes db (.write i role (db.rolesForUser pid i.targetUserId))
  | .write i role before =>
    match i.mode with
    | .grant =>
      match db.userRoles.insertOrIgnore pid (i.targetUserId, role.slug)
          ⟨some i.actorUserId, some i.reason⟩ with
      | .waits => .waits
      | .ignored => .goes db (.after i role before)
      | .done t => .goes { db with userRoles := t } (.after i role before)
    | .revoke =>
      match db.userRoles.remove pid (i.targetUserId, role.slug) with
      | .waits => .waits
      | .ignored => .goes db (.after i role before)
      | .done t => .goes { db with userRoles := t } (.after i role before)
  | .after i role before => .goes db (.column i role before (db.rolesForUser pid i.targetUserId))
  | .column i role before after =>
    match db.users.update pid i.targetUserId (fun _ => True) fun _ => after with
    | .waits => .waits
    | .done _ t => .goes { db with users := t } (.record i role before after)
    | _ => .goes db (.record i role before after)
  | .record i role before after =>
    .goes { db with audit := db.audit.append pid (i.auditRow role before after) } (.access i role)
  | .access i role => .goes db (.commit i role (resolveAccess catalogue db pid i.targetUserId))
  | .commit i _ access => .commits (.mutated i access)
  | _ => .waits

/-- `assignOwnerRole`. -/
def ownerStatement : RolePlace → Next RoleDb Unit RolePlace
  | .findOwnerRole userId roleSlug =>
    match catalogue.findRole roleSlug.slug with
    | none => .throws (.refused .roleNotFound)
    | some role => .goes db (.insertOwner userId roleSlug role)
  | .insertOwner userId roleSlug role =>
    -- the foreign key to `identity.users`
    if db.users.get pid userId = none then .throws .failed
    else
      match db.userRoles.insertOrIgnore pid (userId, role.slug) ⟨none, some roleSlug.reason⟩ with
      | .waits => .waits
      -- the `identifiers` of the insert are the caller's key, also where there was a conflict
      | .ignored => .goes db (.ownerAfter userId roleSlug role)
      | .done t => .goes { db with userRoles := t } (.ownerAfter userId roleSlug role)
  | .ownerAfter userId roleSlug role =>
    .goes db (.ownerColumn userId roleSlug role (db.rolesForUser pid userId))
  | .ownerColumn userId roleSlug role after =>
    match db.users.update pid userId (fun _ => True) fun _ => after with
    | .waits => .waits
    | .done _ t => .goes { db with users := t } (.recordOwner userId roleSlug role after)
    | _ => .goes db (.recordOwner userId roleSlug role after)
  | .recordOwner userId roleSlug role after =>
    .goes { db with audit := db.audit.append pid (roleSlug.auditRow userId role after) }
      (.commitOwner userId role)
  | .commitOwner .. => .commits .assigned
  | _ => .waits

/-- The statement of a call at its place. -/
def statement : RolePlace → Next RoleDb Unit RolePlace
  | .findOwnerRole userId roleSlug =>
    ownerStatement catalogue db pid (.findOwnerRole userId roleSlug)
  | .insertOwner userId roleSlug role =>
    ownerStatement catalogue db pid (.insertOwner userId roleSlug role)
  | .ownerAfter userId roleSlug role =>
    ownerStatement catalogue db pid (.ownerAfter userId roleSlug role)
  | .ownerColumn userId roleSlug role after =>
    ownerStatement catalogue db pid (.ownerColumn userId roleSlug role after)
  | .recordOwner userId roleSlug role after =>
    ownerStatement catalogue db pid (.recordOwner userId roleSlug role after)
  | .commitOwner userId role => ownerStatement catalogue db pid (.commitOwner userId role)
  | place => mutateStatement catalogue db pid place

end Statement

/-- A call there still runs. -/
def RolePlace.running : RolePlace → Bool
  | .idle | .failed | .refused _ | .mutated .. | .assigned => false
  | _ => true

/-- Where a call starts. -/
def RoleRequest.first : RoleRequest → RolePlace
  | .mutate i => .findRole i
  | .assignOwnerRole userId roleSlug => .findOwnerRole userId roleSlug

/-- The calls on the tables, with the roles that a catalogue has. -/
def roleService (catalogue : Catalogue) : Service RoleDb Unit RolePlace RoleRequest Unit where
  commit := RoleDb.commit
  rollback := RoleDb.rollback
  idle := .idle
  failed := .failed
  running := RolePlace.running
  first := RoleRequest.first
  statement := fun _ => statement catalogue

end BeauClick.Rbac
