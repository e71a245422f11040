import BeauClick.Rbac.Roles

/-!
# Roles give nobody more than there was

Roles are granted within the rank and the capabilities of the actor.

* `RoleSound` — who has a role had it at the start, or it may have been granted since.
* `givenByAnother` — a privileged role that a step gives is one that somebody else commits.
* `still_run` — a call that is refused changes nothing.
* `noEscalation_run` — every run, with any number of calls at once.
-/

namespace BeauClick.Rbac

open Locks ReadCommitted ReadCommitted.Versioned Runs Transactions Removable

variable {catalogue : Catalogue} {start db db' : RoleDb} {p q : ℕ} {place place' : RolePlace}
  {slug : String} {userId : Uuid} {o : Option UserRoleEntity} {s s' : System RoleDb Unit RolePlace}
  {role : RoleEntity} {roles : List String} {key : Uuid × String} {e : Step RoleRequest Unit}
  {es : List (Step RoleRequest Unit)}

/-! ## The catalogue -/

/-- The roles that are only granted by those who have their capabilities confer none that another
role does, and the owners' roles are not among them. -/
structure Bounded (c : Catalogue) : Prop where
  /-- The primary key of `identity.roles`. -/
  slug : ∀ r ∈ c.roles, ∀ r' ∈ c.roles, r.slug = r'.slug → r = r'
  /-- The foreign key of `identity.role_capabilities`. -/
  link : ∀ l ∈ c.roleCapabilities, ∃ r ∈ c.roles, r.slug = l.1
  owner : ∀ s : OwnerRoleSlug, ∀ r ∈ c.roles, r.slug = s.slug →
    r.isPrivileged = false ∧ r.slug ∉ neverGrantableViaApi
  apart : ∀ r ∈ c.roles, r.isPrivileged = true → r.slug ∉ neverGrantableViaApi →
    ∀ r' ∈ c.roles, r'.isPrivileged = false →
      ∀ l ∈ c.roleCapabilities, l.1 = r.slug → (r'.slug, l.2) ∉ c.roleCapabilities

theorem bounded_migrated : Bounded migrated where
  slug := by decide +kernel
  link := by decide +kernel
  owner := by
    intro s
    cases s <;> decide +kernel
  apart := by decide +kernel

/-! ## What holds of the roles -/

/-- Some user has the capability at the start. -/
def HeldAt (catalogue : Catalogue) (start : RoleDb) (capability : String) : Prop :=
  ∃ userId slug, start.HasRole userId slug ∧ (slug, capability) ∈ catalogue.roleCapabilities

/-- The role may have been granted since the start: it is not `administrator`, and when it is
privileged, all it confers was held by somebody. -/
structure Lawful (catalogue : Catalogue) (start : RoleDb) (slug : String) : Prop where
  grantable : slug ∉ neverGrantableViaApi
  held : ∀ r ∈ catalogue.roles, r.slug = slug → r.isPrivileged = true →
    ∀ c, (slug, c) ∈ catalogue.roleCapabilities → HeldAt catalogue start c

/-- A user who has a role had it at the start, or it may have been granted since. -/
def RoleSound (catalogue : Catalogue) (start db : RoleDb) : Prop :=
  ∀ userId slug x, (db.userRoles.row (userId, slug)).Version (some x) →
    start.HasRole userId slug ∨ Lawful catalogue start slug

section

variable (hs : RoleSound catalogue start db)
include hs

theorem RoleSound.held (hb : Bounded catalogue) (hrole : role ∈ catalogue.roles)
    (hpriv : role.isPrivileged = true) (hgrant : role.slug ∉ neverGrantableViaApi)
    {capability : String} (hlink : (role.slug, capability) ∈ catalogue.roleCapabilities)
    {x : UserRoleEntity} (hfind : db.userRoles.find p (userId, slug) = some x)
    (hother : (slug, capability) ∈ catalogue.roleCapabilities) :
    HeldAt catalogue start capability := by
  have hver := version_of_get (get_of_find hfind)
  rcases hs userId slug x hver with hstart | hlawful
  · exact ⟨userId, slug, hstart, hother⟩
  · obtain ⟨r, hr, hslug⟩ := hb.link _ hother
    cases hpriv' : r.isPrivileged with
    | true => exact hlawful.held r hr hslug hpriv' capability hother
    | false =>
      refine absurd ?_ (hb.apart role hrole hpriv hgrant r hr hpriv' _ hlink rfl)
      rw [hslug]
      exact hother

theorem RoleSound.write (ho : o ≠ none → Lawful catalogue start slug) :
    RoleSound catalogue start { db with userRoles := db.userRoles.write p (userId, slug) o } := by
  intro u r x hver
  rcases version_write hver with hold | ⟨heq, rfl⟩
  · exact hs u r x hold
  · cases heq
    exact Or.inr (ho (by simp))

theorem RoleSound.commit :
    RoleSound catalogue start (db.commit p) :=
  fun u r x hver => hs u r x (Row.version_of_commit hver)

theorem RoleSound.rollback :
    RoleSound catalogue start (db.rollback p) :=
  fun u r x hver => hs u r x (Row.version_of_rollback hver)

end

/-! ## What a call has written -/

/-- The call has written nothing. -/
structure Unwritten (db : RoleDb) (p : ℕ) : Prop where
  userRoles : db.userRoles.Untouched p
  users : db.users.Untouched p
  audit : db.audit.pending p = []

theorem unwritten_commit : Unwritten (db.commit p) p :=
  ⟨untouched_commit, untouched_commit, Journal.pending_commit_self⟩

theorem unwritten_rollback : Unwritten (db.rollback p) p :=
  ⟨untouched_rollback, untouched_rollback, Journal.pending_rollback_self⟩

theorem Unwritten.rollback_eq (h : Unwritten db p) : db.rollback p = db := by
  unfold RoleDb.rollback
  rw [h.userRoles.rollback_eq, h.users.rollback_eq,
    Journal.rollback_of_nil h.audit]

/-- What the step of another call leaves to a call. -/
structure Beside (q : ℕ) (db db' : RoleDb) : Prop where
  userRoles : Others q db.userRoles db'.userRoles
  users : Others q db.users db'.users
  audit : db'.audit.pending q = db.audit.pending q

theorem beside_refl : Beside q db db := ⟨.refl, .refl, rfl⟩

theorem Unwritten.beside (h : Unwritten db q) (hb : Beside q db db') : Unwritten db' q :=
  ⟨hb.userRoles.untouched h.userRoles, hb.users.untouched h.users, hb.audit.trans h.audit⟩

/-- The role that a call has found, and checked. -/
structure Cleared (catalogue : Catalogue) (start : RoleDb) (i : MutateInput) (role : RoleEntity) :
    Prop where
  known : role ∈ catalogue.roles
  lawful : Lawful catalogue start role.slug
  self : role.isPrivileged = true → i.actorUserId ≠ i.targetUserId

/-- The role of an owner. -/
structure Owned (catalogue : Catalogue) (role : RoleEntity) : Prop where
  known : role ∈ catalogue.roles
  ordinary : role.isPrivileged = false
  grantable : role.slug ∉ neverGrantableViaApi

/-- What a call has checked and written at its place. -/
def RoleWork (catalogue : Catalogue) (start db : RoleDb) (p : ℕ) : RolePlace → Prop
  | .findTarget _ role => Unwritten db p ∧ role ∈ catalogue.roles ∧
      role.slug ∉ neverGrantableViaApi
  | .actorAccess i role => Unwritten db p ∧ role ∈ catalogue.roles ∧
      role.slug ∉ neverGrantableViaApi ∧ i.actorUserId ≠ i.targetUserId
  | .before i role | .write i role _ => Unwritten db p ∧ Cleared catalogue start i role
  | .after i role _ | .column i role _ _ | .record i role _ _ | .access i role | .commit i role _ =>
      Cleared catalogue start i role ∧ db.userRoles.OnlyAt p (i.targetUserId, role.slug)
  | .insertOwner _ _ role => Unwritten db p ∧ Owned catalogue role
  | .ownerAfter userId _ role | .ownerColumn userId _ role _ | .recordOwner userId _ role _
  | .commitOwner userId role => Owned catalogue role ∧ db.userRoles.OnlyAt p (userId, role.slug)
  | _ => Unwritten db p

theorem roleWork_beside (h : RoleWork catalogue start db q place) (hb : Beside q db db') :
    RoleWork catalogue start db' q place := by
  cases place with
  | findTarget i role | actorAccess i role | before i role | write i role before
  | insertOwner => exact ⟨h.1.beside hb, h.2⟩
  | after i role before | column i role before after | record i role before after | access i role
  | commit i role access | ownerAfter userId roleSlug role | ownerColumn userId roleSlug role after
  | recordOwner userId roleSlug role after | commitOwner userId role =>
    exact ⟨h.1, hb.userRoles.onlyAt h.2⟩
  | _ => exact Unwritten.beside h hb

/-- What holds of the tables, and what a call relies on. -/
def roleOutline (catalogue : Catalogue) (start : RoleDb) : Outline RoleDb Unit RolePlace Unit where
  Assumes := fun _ _ _ _ => True
  Sound := RoleSound catalogue start
  Guarantee := fun _ _ => True
  Work := RoleWork catalogue start
  holds := fun _ _ _ => False

theorem keeps_of_beside (hs : RoleSound catalogue start db') (hb : ∀ q ≠ p, Beside q db db') :
    (roleOutline catalogue start).Keeps db p place db' where
  sound := hs
  guarantee := trivial
  others := fun q _ hq _ hw => roleWork_beside hw (hb q hq)

section

variable (hs : RoleSound catalogue start db)
include hs

theorem keeps_commit :
    (roleOutline catalogue start).Keeps db p place (db.commit p) :=
  keeps_of_beside hs.commit fun _ hq =>
    ⟨others_commit hq, others_commit hq, Journal.pending_commit_ne hq⟩

theorem keeps_rollback :
    (roleOutline catalogue start).Keeps db p place (db.rollback p) :=
  keeps_of_beside hs.rollback fun _ hq =>
    ⟨others_rollback hq, others_rollback hq, Journal.pending_rollback_ne hq⟩

theorem keeps_refl :
    (roleOutline catalogue start).Keeps db p place db :=
  keeps_of_beside hs fun _ _ => beside_refl

theorem keeps_userRoles (ho : o ≠ none → Lawful catalogue start slug)
    (hlock : ¬(db.userRoles.row (userId, slug)).Locked p) :
    (roleOutline catalogue start).Keeps db p place
      { db with userRoles := db.userRoles.write p (userId, slug) o } :=
  keeps_of_beside (hs.write ho) fun _ hq => ⟨others_write hq hlock, .refl, rfl⟩

theorem keeps_users (hlock : ¬(db.users.row userId).Locked p) :
    (roleOutline catalogue start).Keeps db p place
      { db with users := db.users.write p userId roles } :=
  keeps_of_beside (fun u r x h => hs u r x h) fun _ hq => ⟨.refl, others_write hq hlock, rfl⟩

theorem keeps_audit {row : AdminAuditLogEntity} :
    (roleOutline catalogue start).Keeps db p place { db with audit := db.audit.append p row } :=
  keeps_of_beside (fun u r x h => hs u r x h) fun _ hq =>
    ⟨.refl, .refl, Journal.pending_append_ne hq⟩

/-! ## The statements -/

/-- What a statement keeps. -/
structure Passes (catalogue : Catalogue) (start db : RoleDb) (p : ℕ) (place : RolePlace)
    (db' : RoleDb) (place' : RolePlace) : Prop where
  keeps : (roleOutline catalogue start).Keeps db p place db'
  work : RoleWork catalogue start db' p place'

/-- The call has passed its checks, or has ended otherwise than by a refusal. -/
def RolePlace.Passed : RolePlace → Prop
  | .idle | .refused _ | .findRole _ | .findTarget .. | .actorAccess .. | .before ..
  | .findOwnerRole .. => False
  | _ => True

/-- What a statement that goes on has done: it commits nothing, and the checks only read. -/
structure Goes (catalogue : Catalogue) (start db : RoleDb) (p : ℕ) (place : RolePlace)
    (db' : RoleDb) (place' : RolePlace) : Prop
    extends Passes catalogue start db p place db' place' where
  hasRole : ∀ userId slug, db'.HasRole userId slug ↔ db.HasRole userId slug
  passed : place.Passed → place'.Passed
  still : ¬place.Passed → db' = db

/-- What is shown of a statement: two of them commit, and a call that has passed its checks is not
refused any more. -/
abbrev Shown (catalogue : Catalogue) (start db : RoleDb) (p : ℕ) (place : RolePlace) :
    Next RoleDb Unit RolePlace → Prop :=
  Next.Ends (Goes catalogue start db p place)
    (fun place' => place'.Passed ∧ RoleWork catalogue start (db.commit p) p place' ∧
      ((∃ i role access, place = .commit i role access) ∨
        ∃ userId role, place = .commitOwner userId role))
    (fun place' => (place.Passed → place'.Passed) ∧
      RoleWork catalogue start (db.rollback p) p place')

theorem goes_read (hw : RoleWork catalogue start db p place')
    (hpassed : place.Passed → place'.Passed) : Goes catalogue start db p place db place' :=
  ⟨⟨keeps_refl hs, hw⟩, fun _ _ => .rfl, hpassed, fun _ => rfl⟩

theorem goes_userRoles
    (ho : o ≠ none → Lawful catalogue start slug)
    (hlock : ¬(db.userRoles.row (userId, slug)).Locked p) (hw : RoleWork catalogue start
      { db with userRoles := db.userRoles.write p (userId, slug) o } p place')
    (hpassed : place.Passed) (hpassed' : place'.Passed) :
    Goes catalogue start db p place
      { db with userRoles := db.userRoles.write p (userId, slug) o } place' := by
  refine ⟨⟨keeps_userRoles hs ho hlock, hw⟩, fun u r => ?_, fun _ => hpassed',
    fun hnot => absurd hpassed hnot⟩
  unfold RoleDb.HasRole
  rw [there_write]

theorem shown_users (hw : ∀ t, RoleWork catalogue start { db with users := t } p place')
    (hpassed : place.Passed) (hpassed' : place'.Passed) :
    Shown catalogue start db p place
      (match db.users.update p userId (fun _ => True) fun _ => roles with
      | .waits => .waits
      | .done _ t => .goes { db with users := t } place'
      | _ => .goes db place') := by
  split
  · trivial
  · rename_i hupd
    obtain ⟨_, -, -, hlock, -, rfl⟩ := update_eq_done hupd
    exact ⟨⟨keeps_users hs hlock, hw _⟩, fun _ _ => .rfl, fun _ => hpassed',
      fun hnot => absurd hpassed hnot⟩
  · exact goes_read hs (hw _) fun _ => hpassed'

end

theorem onlyAt_write (h : Unwritten db p) : (db.userRoles.write p key o).OnlyAt p key :=
  h.userRoles.onlyAt.write

section

variable (hb : Bounded catalogue)
include hb

theorem shown_mutate (hs : RoleSound catalogue start db)
    (hw : RoleWork catalogue start db p place) :
    Shown catalogue start db p place (mutateStatement catalogue db p place) := by
  cases place with
  | findRole =>
    simp only [mutateStatement]
    split
    · exact ⟨id, unwritten_rollback⟩
    · rename_i role hfind
      split
      · exact ⟨id, unwritten_rollback⟩
      · rename_i hgrant
        exact goes_read hs ⟨hw, (Catalogue.findRole_some hfind).1, hgrant⟩ id
  | findTarget i role =>
    obtain ⟨hunwr, hknown, hgrant⟩ := hw
    simp only [mutateStatement]
    split
    · exact ⟨id, unwritten_rollback⟩
    · split
      · exact ⟨id, unwritten_rollback⟩
      · rename_i hself
        split
        · rename_i hpriv
          exact goes_read hs ⟨hunwr, hknown, hgrant, fun heq => hself ⟨hpriv, heq⟩⟩ id
        · rename_i hordinary
          refine goes_read hs ⟨hunwr, hknown, ⟨hgrant, ?_⟩, ?_⟩ id
          · intro r hr hslug hpriv
            cases hb.slug r hr role hknown hslug
            exact absurd hpriv hordinary
          · exact fun hpriv => absurd hpriv hordinary
  | actorAccess i role =>
    obtain ⟨hunwr, hknown, hgrant, hself⟩ := hw
    simp only [mutateStatement]
    split
    · exact ⟨id, unwritten_rollback⟩
    · rename_i hmiss
      refine goes_read hs ⟨hunwr, hknown, ⟨hgrant, ?_⟩, fun _ => hself⟩ id
      intro r hr hslug hpriv c hlink
      cases hb.slug r hr role hknown hslug
      -- nothing is missing, so the actor has the capability from some role
      have hactor : c ∈ (resolveAccess catalogue db p i.actorUserId).capabilities := by
        by_contra hnot
        refine hmiss (List.ne_nil_of_mem (List.mem_filter.2 ⟨?_, decide_eq_true hnot⟩))
        exact Catalogue.mem_capabilitiesForRole.2 hlink
      obtain ⟨_, _, hfind, hother⟩ := mem_resolveAccess.1 hactor
      exact hs.held hb hknown hpriv hgrant hlink hfind hother
  | before => exact goes_read hs hw False.elim
  | write =>
    obtain ⟨hunwr, hcleared⟩ := hw
    simp only [mutateStatement]
    split
    · split
      · trivial
      · exact goes_read hs ⟨hcleared, hunwr.userRoles.onlyAt⟩ id
      · rename_i hins
        obtain ⟨rfl, hlock, -⟩ := insertOrIgnore_done hins
        exact goes_userRoles hs (fun _ => hcleared.lawful) hlock
          ⟨hcleared, onlyAt_write hunwr⟩ trivial trivial
    · split
      · trivial
      · exact goes_read hs ⟨hcleared, hunwr.userRoles.onlyAt⟩ id
      · rename_i hremove
        obtain ⟨rfl, hlock⟩ := remove_done hremove
        exact goes_userRoles hs (fun h => absurd rfl h) hlock
          ⟨hcleared, onlyAt_write hunwr⟩ trivial trivial
  | after i role before | access i role => exact goes_read hs hw id
  | column => exact shown_users hs (fun _ => hw) trivial trivial
  | record =>
    exact ⟨⟨keeps_audit hs, hw⟩, fun _ _ => .rfl, id, fun hnot => absurd trivial hnot⟩
  | commit i role access => exact ⟨trivial, unwritten_commit, Or.inl ⟨i, role, access, rfl⟩⟩
  | _ => trivial

theorem Owned.lawful (h : Owned catalogue role) :
    Lawful catalogue start role.slug := by
  refine ⟨h.grantable, ?_⟩
  intro r hr hslug hpriv
  cases hb.slug r hr role h.known hslug
  cases hpriv.symm.trans h.ordinary

theorem shown_owner (hs : RoleSound catalogue start db) (hw : RoleWork catalogue start db p place) :
    Shown catalogue start db p place (ownerStatement catalogue db p place) := by
  cases place with
  | findOwnerRole userId roleSlug =>
    simp only [ownerStatement]
    split
    · exact ⟨id, unwritten_rollback⟩
    · rename_i role hfind
      obtain ⟨hknown, hslug⟩ := Catalogue.findRole_some hfind
      obtain ⟨hordinary, hgrant⟩ := hb.owner roleSlug role hknown hslug
      exact goes_read hs ⟨hw, hknown, hordinary, hgrant⟩ False.elim
  | insertOwner =>
    obtain ⟨hunwr, howned⟩ := hw
    simp only [ownerStatement]
    split
    · exact ⟨fun _ => trivial, unwritten_rollback⟩
    · split
      · trivial
      · exact goes_read hs ⟨howned, hunwr.userRoles.onlyAt⟩ id
      · rename_i hins
        obtain ⟨rfl, hlock, -⟩ := insertOrIgnore_done hins
        exact goes_userRoles hs (fun _ => howned.lawful hb) hlock
          ⟨howned, onlyAt_write hunwr⟩ trivial trivial
  | ownerAfter => exact goes_read hs hw id
  | ownerColumn => exact shown_users hs (fun _ => hw) trivial trivial
  | recordOwner =>
    exact ⟨⟨keeps_audit hs, hw⟩, fun _ _ => .rfl, id, fun hnot => absurd trivial hnot⟩
  | commitOwner userId role =>
    exact ⟨trivial, unwritten_commit, Or.inr ⟨userId, role, rfl⟩⟩
  | _ => trivial

/-- What each statement of a call keeps. -/
theorem shown_statement (hs : RoleSound catalogue start db)
    (hw : RoleWork catalogue start db p place) :
    Shown catalogue start db p place (statement catalogue db p place) := by
  cases place with
  | findOwnerRole userId roleSlug | insertOwner userId roleSlug role
  | ownerAfter userId roleSlug role | ownerColumn userId roleSlug role after
  | recordOwner userId roleSlug role after | commitOwner userId role =>
    exact shown_owner hb hs hw
  | _ => exact shown_mutate hb hs hw

end

theorem statement_ne_locks {key : Unit} {mode : LockMode} :
    statement catalogue db p place ≠ .locks key mode place' := by
  intro hst
  cases place with
  | _ =>
    simp only [statement, mutateStatement, ownerStatement] at hst
    repeat' split at hst
    all_goals cases hst

/-- Each statement keeps the roles lawful. -/
theorem roleProof (hb : Bounded catalogue) (start : RoleDb) :
    FreeProof (roleService catalogue) (roleOutline catalogue start) where
  first := by
    intro db pid request hw
    cases request <;> exact hw
  statement := fun env db pid place _ hs hw => (shown_statement hb hs hw).mono
    (fun _ _ h => ⟨h.keeps, h.work⟩) (fun _ _ _ h => h.elim) (fun _ h => ⟨keeps_commit hs, h.2.1⟩)
    fun _ h => ⟨keeps_rollback hs, h.2⟩
  dies := fun _ _ _ _ hs _ => ⟨keeps_rollback hs, unwritten_rollback⟩

/-! ## The property -/

/-- A privileged role that a step gives to a user is one that a call of somebody else commits. -/
def GivenByAnother (catalogue : Catalogue) (s : System RoleDb Unit RolePlace)
    (e : Step RoleRequest Unit) : Prop :=
  ∀ s', (roleService catalogue).step s e = some s' → ∀ userId, ∀ role ∈ catalogue.roles,
    role.isPrivileged = true → ¬s.db.HasRole userId role.slug → s'.db.HasRole userId role.slug →
    ∃ i access, s.calls e.pid = .commit i role access ∧ i.targetUserId = userId ∧
      i.actorUserId ≠ userId

/-- Nobody comes to more than there was. -/
structure NoEscalation (catalogue : Catalogue) (start : RoleDb)
    (es : List (Step RoleRequest Unit)) (s : System RoleDb Unit RolePlace) : Prop where
  administrator : ∀ userId, s.db.HasRole userId "administrator" →
    start.HasRole userId "administrator"
  /-- No call gives its own actor a privileged role. -/
  self : Along (roleService catalogue).step (GivenByAnother catalogue)
    ((roleService catalogue).start start) es
  /-- What a privileged role confers on a user was held by some user. -/
  held : ∀ userId, ∀ role ∈ catalogue.roles, role.isPrivileged = true →
    s.db.HasRole userId role.slug → ∀ c, (role.slug, c) ∈ catalogue.roleCapabilities →
      HeldAt catalogue start c
  /-- A refused call leaves the tables as they are without it. -/
  refused : ∀ pid e, s.calls pid = .refused e → ∃ s',
    runFrom (roleService catalogue).step ((roleService catalogue).start start)
      (es.filter fun e => e.pid ≠ pid) = some s' ∧ s'.db = s.db

/-! ## The administrators and the capabilities -/

theorem RoleSound.of_hasRole (hs : RoleSound catalogue start db) (h : db.HasRole userId slug) :
    start.HasRole userId slug ∨ Lawful catalogue start slug := by
  obtain ⟨x, hx⟩ := Option.ne_none_iff_exists'.1 h
  exact hs userId slug x (Or.inl (committed_of_there hx))

theorem roleSound_start (start : RoleDb) : RoleSound catalogue start.settle start.settle := by
  intro userId slug x hver
  rcases hver with hcomm | ⟨_, hwrit⟩
  · unfold RoleDb.HasRole there
    rw [Versioned.committed, hcomm]
    simp
  · cases hwrit

theorem unwritten_start (start : RoleDb) (p : ℕ) : Unwritten start.settle p :=
  ⟨untouched_settle, untouched_settle, rfl⟩

/-! ## The calls that change the roles -/

theorem hasRole_commit (honly : db.userRoles.OnlyAt p key) (hbef : ¬db.HasRole userId slug)
    (hafter : (db.commit p).HasRole userId slug) : (userId, slug) = key := by
  by_contra hne
  refine hbef ?_
  have hnot : ¬(db.userRoles.row (userId, slug)).WrittenBy p := fun hw => hne (honly _ hw)
  have hthere : there (db.userRoles.commit p) (userId, slug) =
      db.userRoles.there (userId, slug) :=
    congrArg Option.join (committed_commit_of_not hnot)
  unfold RoleDb.HasRole at hafter ⊢
  rw [← hthere]
  exact hafter

theorem givenByAnother (hb : Bounded catalogue) (h : (roleOutline catalogue start).Holds s)
    (e : Step RoleRequest Unit) : GivenByAnother catalogue s e := by
  intro s' hstep userId role hrole hpriv hbef hafter
  have hrolled : ∀ {pid place}, s' = s.ends pid (s.db.rollback pid) place → False := by
    rintro pid place rfl
    refine hbef ?_
    unfold RoleDb.HasRole at hafter ⊢
    rwa [← there_rollback]
  cases Service.took_of_step hstep with
  | starts => exact absurd hafter hbef
  | goes pid env db place hst =>
    have hgoes := (shown_statement hb h.sound (h.work pid)).of_goes hst
    exact absurd ((hgoes.hasRole _ _).1 hafter) hbef
  | locks pid env key mode place hst => exact absurd hst statement_ne_locks
  | commits pid env place hst =>
    have hwork : RoleWork catalogue start s.db pid (s.calls pid) := h.work pid
    -- a call that commits has written one row: of its target, or of an owner
    obtain ⟨-, -, ⟨i, role', access, hat⟩ | ⟨_, role', hat⟩⟩ :=
      (shown_statement hb h.sound hwork).of_commits hst
    · rw [hat] at hwork
      obtain ⟨hcleared, honly⟩ := hwork
      obtain ⟨rfl, hslug⟩ := Prod.mk.inj (hasRole_commit honly hbef hafter)
      cases hb.slug role hrole role' hcleared.known hslug
      exact ⟨i, access, hat, rfl, hcleared.self hpriv⟩
    · rw [hat] at hwork
      obtain ⟨howned, honly⟩ := hwork
      obtain ⟨-, hslug⟩ := Prod.mk.inj (hasRole_commit honly hbef hafter)
      cases hb.slug role hrole role' howned.known hslug
      cases hpriv.symm.trans howned.ordinary
  | throws | dies => exact (hrolled rfl).elim

/-! ## The calls that are refused -/

theorem passed_step (hb : Bounded catalogue) (h : (roleOutline catalogue start).Holds s) (pid : ℕ)
    (hpassed : (s.calls pid).Passed) (hstep : (roleService catalogue).step s e = some s') :
    (s'.calls pid).Passed := by
  by_cases hpid : e.pid = pid
  · subst hpid
    have hself : ∀ place : RolePlace, place.Passed →
        (Function.update s.calls e.pid place e.pid).Passed := by
      intro place hplace
      rwa [Function.update_self]
    have shown := shown_statement hb h.sound (h.work e.pid)
    cases Service.took_of_step hstep with
    | starts p request hidle =>
      rw [hidle] at hpassed
      exact hpassed.elim
    | goes p env db place hst => exact hself _ ((shown.of_goes hst).passed hpassed)
    | locks p env key mode place hst => exact absurd hst statement_ne_locks
    | commits p env place hst => exact hself _ (shown.of_commits hst).1
    | throws p env place hst => exact hself _ ((shown.of_throws hst).1 hpassed)
    | dies => exact hself _ trivial
  · have hone : runFrom (roleService catalogue).step s [e] = some s' :=
      runFrom_cons_eq_some.2 ⟨s', hstep, rfl⟩
    have hcalls : s'.calls pid = s.calls pid :=
      Service.calls_of_not_mem pid (by simpa using hpid) hone
    rwa [hcalls]

theorem unwritten_of_not_passed (hw : RoleWork catalogue start db p place) (hnot : ¬place.Passed) :
    Unwritten db p := by
  cases place with
  | idle | refused e | findRole i | findOwnerRole userId roleSlug => exact hw
  | findTarget i role | actorAccess i role | before i role => exact hw.1
  | _ => exact absurd trivial hnot

theorem still_step (hb : Bounded catalogue) (h : (roleOutline catalogue start).Holds s)
    (hnot : ¬(s.calls e.pid).Passed) (hstep : (roleService catalogue).step s e = some s') :
    s'.db = s.db := by
  have hwork : RoleWork catalogue start s.db e.pid (s.calls e.pid) := h.work e.pid
  have hrolled : s.db.rollback e.pid = s.db := (unwritten_of_not_passed hwork hnot).rollback_eq
  have shown := shown_statement hb h.sound hwork
  cases Service.took_of_step hstep with
  | starts => rfl
  | goes pid env db place hst => exact (shown.of_goes hst).still hnot
  | locks => rfl
  | commits pid env place hst =>
    obtain ⟨-, -, ⟨_, _, _, hat⟩ | ⟨_, _, hat⟩⟩ := shown.of_commits hst
    · rw [hat] at hnot
      exact absurd trivial hnot
    · rw [hat] at hnot
      exact absurd trivial hnot
  | throws | dies => exact hrolled

theorem assumesNothing (s : System RoleDb Unit RolePlace) (e : Step RoleRequest Unit) :
    (roleOutline catalogue start).Meets s e :=
  Outline.meets (fun _ _ _ _ => trivial) s e

theorem still_run (hb : Bounded catalogue) {pid : ℕ} {t : System RoleDb Unit RolePlace}
    (h : (roleOutline catalogue start).Holds s)
    (hrun : runFrom (roleService catalogue).step s es = some t) (hnot : ¬(t.calls pid).Passed) :
    Along (roleService catalogue).step (fun s e => e.pid = pid → ∀ s',
      (roleService catalogue).step s e = some s' → s'.db = s.db) s es ∧ ¬(s.calls pid).Passed := by
  induction es generalizing s with
  | nil =>
    cases hrun
    exact ⟨trivial, hnot⟩
  | cons e es ih =>
    obtain ⟨_, hstep, hrest⟩ := runFrom_cons_eq_some.1 hrun
    obtain ⟨h', -⟩ := (roleProof hb start).proof.holds_step h (assumesNothing s e) hstep
    obtain ⟨halong, hnot'⟩ := ih h' hrest
    have hbef : ¬(s.calls pid).Passed := fun hpassed =>
      hnot' (passed_step hb h pid hpassed hstep)
    refine ⟨⟨?_, ?_⟩, hbef⟩
    · rintro rfl s'' hstep''
      cases hstep.symm.trans hstep''
      exact still_step hb h hbef hstep
    · intro s'' hstep''
      cases hstep.symm.trans hstep''
      exact halong

/-! ## Every run -/

theorem noEscalation_of_bounded (hb : Bounded catalogue)
    (hrun : runFrom (roleService catalogue).step ((roleService catalogue).start start.settle) es =
      some s) : NoEscalation catalogue start.settle es s := by
  have P := (roleProof hb start.settle).proof
  have hstart : (roleOutline catalogue start.settle).Holds
      ((roleService catalogue).start start.settle) :=
    P.holds_start (roleSound_start start) (unwritten_start start)
  have h := (P.holds_run hstart (along_meets (fun _ _ _ _ => trivial) es) hrun).1
  have hsound : RoleSound catalogue start.settle s.db := h.sound
  refine ⟨?_, ?_, ?_, ?_⟩
  · intro userId hrole
    rcases hsound.of_hasRole hrole with hbef | hlawful
    · exact hbef
    · exact absurd List.mem_cons_self hlawful.grantable
  · exact along_of_invariant (fun s e s' h hstep => (P.holds_step h (assumesNothing s e) hstep).1)
      (fun s e h => givenByAnother hb h e) hstart es
  · intro userId role hrole hpriv hhas c hlink
    rcases hsound.of_hasRole hhas with hbef | hlawful
    · exact ⟨userId, role.slug, hbef, hlink⟩
    · exact hlawful.held role hrole rfl hpriv c hlink
  · intro pid e href
    have hnot : ¬(s.calls pid).Passed := by
      rw [href]
      exact id
    exact Service.run_without pid (fun _ _ _ _ _ _ _ => statement_ne_locks) rfl (fun _ _ => rfl)
      (still_run hb hstart hrun hnot).1 hrun

/-- Whoever grants and revokes whatever at the same time, and whatever roles there are at first:
nobody comes to a role's authority that nobody had. -/
theorem noEscalation_run {start : RoleDb} {es : List (Step RoleRequest Unit)}
    {s : System RoleDb Unit RolePlace}
    (hrun : runFrom (roleService migrated).step ((roleService migrated).start start.settle) es =
      some s) : NoEscalation migrated start.settle es s :=
  noEscalation_of_bounded bounded_migrated hrun

/-! ## An administrator, a moderator and an owner -/

namespace Colluding

/-- The first user is an administrator; the other two have no role yet. -/
def founded : RoleDb where
  userRoles := Versioned.write .empty 0 (1, "administrator") (some ⟨none, none⟩) |>.commit 0
  users := (((Versioned.write .empty 0 1 ["administrator"]).write 0 2 []).write 0 3 []).commit 0
  audit := .empty

/-- The next `n` statements. -/
def takes (pid n : ℕ) : List (Step RoleRequest Unit) := List.replicate n ⟨pid, .statement ()⟩

/-- The administrator makes the second user a moderator, who then tries to grant a role to
themselves; the third one becomes an owner meanwhile. -/
def attempt : List (Step RoleRequest Unit) :=
  ⟨0, .start (.mutate ⟨1, 2, "moderator", "appointed", .grant⟩)⟩ :: takes 0 6 ++
    ⟨1, .start (.assignOwnerRole 3 .professional)⟩ :: takes 1 3 ++ takes 0 4 ++ takes 1 3 ++
    ⟨2, .start (.mutate ⟨2, 2, "platform_operator", "promoted", .grant⟩)⟩ :: takes 2 2

end Colluding

theorem noEscalation_run_attempt : ∃ s,
    runFrom (roleService migrated).step ((roleService migrated).start Colluding.founded.settle)
      Colluding.attempt = some s ∧
    NoEscalation migrated Colluding.founded.settle Colluding.attempt s := by
  have hsome : (runFrom (roleService migrated).step
      ((roleService migrated).start Colluding.founded.settle) Colluding.attempt).isSome = true := by
    decide +kernel
  obtain ⟨s, hs⟩ := Option.isSome_iff_exists.1 hsome
  exact ⟨s, hs, noEscalation_run hs⟩

end BeauClick.Rbac
