import BeauClick.Provider.Edits

/-!
# What the edits of a professional rely on

* `Phase.Work` — what a call has written: nothing, its row, its revision or its event.
* `Spares` — the columns in which a save agrees with the row.
* `Beside` — what a step leaves to the other calls.
-/

namespace BeauClick.Provider

open Locks ReadCommitted ReadCommitted.Versioned Runs Transactions

variable {db db' : ProviderDb} {p q : ℕ}
  {place : ProviderPlace} {x y : ProfessionalEntity} {v : Transition}

/-! ## What is committed -/

/-- A request is pending. -/
def PendingRequest (db : ProviderDb) (k : Uuid) : Prop :=
  ∃ r, db.requests.committed k = some r ∧ r.status = .pending

/-- The professional is there, and it is pending if a request is. -/
structure ProviderSound (db : ProviderDb) : Prop where
  there : ∃ x, db.professional.committed () = some x
  apart : Apart SamePending db.requests
  pending : ∀ x, db.professional.committed () = some x →
    (x.verificationStatus = .pending ↔ ∃ k, PendingRequest db k)

/-! ## What a call has written -/

/-- Which rows a call writes: those of its edit, or a request whose status is not moved yet. -/
inductive Kind where
  | edit (e : Edit)
  | request (v : Transition)

/-- The kind of an edit. -/
def ProfileEdit.kind (e : ProfileEdit) : Kind := .edit (.profile e)

def MediaEdit.kind (e : MediaEdit) : Kind := .edit (.media e)

/-- What the edits of a kind set of the professional's own row, with some bumps. -/
def Kind.Sets (bumps : ℕ) (x y : ProfessionalEntity) : Kind → Prop
  | .edit (.profile .profile) =>
    y = { x with
      displayName := y.displayName
      bio := y.bio
      cityId := y.cityId
      revision := x.revision + bumps }
  | .edit (.profile (.verification v)) =>
    y = { x with verificationStatus := v.toStatus, revision := x.revision + bumps } ∧
      v.toStatus ∈ x.verificationStatus.validTransitions
  | .edit (.media .profileImage) =>
    y = { x with
      avatarMediaId := y.avatarMediaId
      coverMediaId := y.coverMediaId
      revision := x.revision + bumps }
  | _ => y = { x with revision := x.revision + bumps }

/-- The call has written the request: a new one that is pending, or one that was. -/
structure Token (db : ProviderDb) (p : ℕ) (v : Transition) : Prop where
  row : ∃ o r, db.requests.row v.requestId = ⟨o, some (p, r)⟩ ∧
    (v.toStatus = .pending ∧ o = none ∧ r.status = .pending ∨
      v.toStatus ≠ .pending ∧ (∃ r₀, o = some r₀ ∧ r₀.status = .pending) ∧ r.status ≠ .pending)
  only : db.requests.OnlyAt p v.requestId

/-- Beside the professional's own row, the call has written the rows of its kind. -/
structure Only (kind : Kind) (db : ProviderDb) (p : ℕ) : Prop where
  specialties : kind = .edit (.profile .profile) ∨ Versioned.Untouched db.specialties p
  services : (∃ k, kind = .edit (.profile (.service k)) ∧ db.services.OnlyAt p k) ∨
    db.services.Untouched p
  items : kind = .edit (.media .portfolio) ∨ db.items.Untouched p
  objects : (∃ e, kind = .edit (.media e)) ∨ db.objects.Untouched p
  requests : (∃ v, (kind = .request v ∨ kind = .edit (.profile (.verification v))) ∧
    Token db p v) ∨ (∀ v, kind ≠ .request v ∧ kind ≠ .edit (.profile (.verification v))) ∧
      db.requests.Untouched p

/-- The call has written nothing. -/
structure Clean (db : ProviderDb) (p : ℕ) : Prop where
  professional : db.professional.Untouched p
  specialties : Versioned.Untouched db.specialties p
  services : db.services.Untouched p
  items : db.items.Untouched p
  objects : db.objects.Untouched p
  requests : db.requests.Untouched p
  outbox : db.outbox.pending p = []

/-- The call has written the professional's own row. -/
def Written (kind : Kind) (bumps : ℕ) (db : ProviderDb) (p : ℕ) : Prop :=
  ∃ x y, db.professional.row () = ⟨some x, some (p, y)⟩ ∧ kind.Sets bumps x y

/-- The call has written the professional's own row, or need not. -/
def Edited (kind : Kind) (db : ProviderDb) (p : ℕ) : Prop :=
  db.professional.Untouched p ∧ (∀ x, kind.Sets 0 x x) ∨ Written kind 0 db p

/-- The call has a revision of its own. -/
def Bumped (kind : Kind) (revision : ℕ) (db : ProviderDb) (p : ℕ) : Prop :=
  ∃ x y, db.professional.row () = ⟨some x, some (p, y)⟩ ∧ kind.Sets 1 x y ∧
    revision = x.revision + 1

/-- The event that goes before `ProfessionalUpdated`, if there is one. -/
def Begun (revision : ℕ) (events : List ProviderEvent) : ProfileEdit → Prop
  | .profile => events = []
  | .service k => ∃ service t, events = [.serviceOfferingUpdated revision k service t]
  | .verification v => ∃ fromStatus t, events =
      [.professionalVerificationChanged revision fromStatus v.toStatus v.actorId v.reason t]

/-- All events of an edit. -/
def Announced (revision : ℕ) (events : List ProviderEvent) : Edit → Prop
  | .profile e => ∃ first profile t, Begun revision first e ∧
      events = first ++ [.professionalUpdated revision profile t]
  | .media _ => ∃ imagery t, events = [.professionalMediaChanged revision imagery t]

/-- How far an edit has come. -/
inductive Phase where
  | clean
  | edits (kind : Kind)
  | bumped (e : Edit) (revision : ℕ)
  | begun (e : ProfileEdit) (revision : ℕ)
  | announced (e : Edit)

/-- What a call has written in a phase. -/
def Phase.Work (db : ProviderDb) (p : ℕ) : Phase → Prop
  | .clean => Clean db p
  | .edits kind => Only kind db p ∧ Edited kind db p ∧ db.outbox.pending p = []
  | .bumped e revision => Only (.edit e) db p ∧ Bumped (.edit e) revision db p ∧
      db.outbox.pending p = []
  | .begun e revision => Only e.kind db p ∧ Bumped e.kind revision db p ∧
      Begun revision (db.outbox.pending p) e
  | .announced e => Only (.edit e) db p ∧ ∃ revision, Bumped (.edit e) revision db p ∧
      Announced revision (db.outbox.pending p) e

/-- How far a call has come with its row. -/
def ProviderPlace.phase : ProviderPlace → Phase
  | .insertSpecialties .. | .writeColumns .. | .removeSpecialties _ | .readProfile
  | .bumpProfile _ => .edits ProfileEdit.profile.kind
  | .bumpService k _ | .findDeleted k => .edits (ProfileEdit.service k).kind
  | .announceService k _ revision => .bumped (.profile (.service k)) revision
  | .findObject e .. | .deleteObject e _ | .readAvatar e | .readItems e _ | .describe e ..
  | .bumpMedia e _ => .edits e.kind
  | .announceMedia e _ revision => .bumped (.media e) revision
  | .findBefore v | .compareAndSet v _ => .edits (.request v)
  | .bumpVerification v _ => .edits (ProfileEdit.verification v).kind
  | .announceVerification v _ revision => .bumped (.profile (.verification v)) revision
  | .readChanged e revision | .announceProfile e _ revision => .begun e revision
  | .finish e => .announced e
  | _ => .clean

/-- The columns that a profile edit does not own are as it has read them. -/
structure Spares (e row : ProfessionalEntity) : Prop where
  ownerId : e.ownerId = row.ownerId
  verificationStatus : e.verificationStatus = row.verificationStatus
  revision : e.revision = row.revision
  avatarMediaId : e.avatarMediaId = row.avatarMediaId
  coverMediaId : e.coverMediaId = row.coverMediaId
  deletedAt : e.deletedAt = row.deletedAt

/-- What a call has read and still goes by. -/
def HasRead (db : ProviderDb) : ProviderPlace → Prop
  | .reloadSpecialties e row _ | .insertSpecialties e row .. | .writeColumns e row _ => Spares e row
  | .compareAndSet v fromStatus => v.toStatus ∈ fromStatus.validTransitions ∧
      ∃ x, db.professional.committed () = some x ∧ x.verificationStatus = fromStatus
  | _ => True

/-- What a call has written and read at its place. -/
def ProviderWork (db : ProviderDb) (p : ℕ) (place : ProviderPlace) : Prop :=
  place.phase.Work db p ∧ HasRead db place

/-- Where a `save` loads the row again, the columns that it does not own are as they were. -/
def Unhurried (db : ProviderDb) (p : ℕ) : ProviderPlace → Prop
  | .reload e _ => ∀ row ∈ db.professional.get p (), Spares e row
  | _ => True

/-- What holds of the tables, and what a call relies on. -/
def providerOutline : Outline ProviderDb Unit ProviderPlace ProviderEnv where
  Assumes := fun _ db p place => Unhurried db p place
  Sound := ProviderSound
  Guarantee := fun _ _ => True
  Work := ProviderWork
  holds := fun _ _ _ => False

/-! ## What a step leaves to the calls beside it -/

/-- A call reads what it has read before. -/
structure SameView (q : ℕ) (db db' : ProviderDb) : Prop where
  professional : ∀ k, db'.professional.get q k = db.professional.get q k
  specialties : ∀ k, Versioned.get db'.specialties q k = Versioned.get db.specialties q k
  services : ∀ k, db'.services.get q k = db.services.get q k
  items : ∀ k, db'.items.get q k = db.items.get q k
  objects : ∀ k, db'.objects.get q k = db.objects.get q k

/-- What a call may count on when another one takes a step: what it has written, what it reads
while it has the professional's row, and the status while it has a request. -/
structure Beside (q : ℕ) (db db' : ProviderDb) : Prop where
  professional : Others q db.professional db'.professional
  specialties : Others q db.specialties db'.specialties
  services : Others q db.services db'.services
  items : Others q db.items db'.items
  objects : Others q db.objects db'.objects
  requests : Others q db.requests db'.requests
  outbox : db'.outbox.pending q = db.outbox.pending q
  view : (db.professional.row ()).WrittenBy q → SameView q db db'
  status : (∃ v, Token db q v) → ∀ x, db.professional.committed () = some x →
    ∃ x', db'.professional.committed () = some x' ∧ x'.verificationStatus = x.verificationStatus

section

variable (hb : Beside q db db')
include hb

theorem Token.beside (h : Token db q v) : Token db' q v := by
  obtain ⟨⟨o, r, hrow, hcase⟩, honly⟩ := h
  exact ⟨⟨o, r, hb.requests.row_of hrow, hcase⟩, hb.requests.onlyAt honly⟩

theorem Clean.beside (h : Clean db q) : Clean db' q :=
  ⟨hb.professional.untouched h.professional, hb.specialties.untouched h.specialties,
    hb.services.untouched h.services, hb.items.untouched h.items, hb.objects.untouched h.objects,
    hb.requests.untouched h.requests, hb.outbox.trans h.outbox⟩

theorem Only.beside {kind : Kind} (h : Only kind db q) :
    Only kind db' q where
  specialties := h.specialties.imp_right hb.specialties.untouched
  services := h.services.imp
    (fun ⟨k, hk, honly⟩ => ⟨k, hk, hb.services.onlyAt honly⟩) hb.services.untouched
  items := h.items.imp_right hb.items.untouched
  objects := h.objects.imp_right hb.objects.untouched
  requests := h.requests.imp (fun ⟨v, hv, htoken⟩ => ⟨v, hv, htoken.beside hb⟩)
    (fun ⟨hkind, hu⟩ => ⟨hkind, hb.requests.untouched hu⟩)

theorem Written.beside {kind : Kind} {bumps : ℕ} (h : Written kind bumps db q) :
    Written kind bumps db' q := by
  obtain ⟨x, y, hrow, hsets⟩ := h
  exact ⟨x, y, hb.professional.row_of hrow, hsets⟩

theorem Edited.beside {kind : Kind} (h : Edited kind db q) :
    Edited kind db' q :=
  h.imp (fun ⟨hu, hsets⟩ => ⟨hb.professional.untouched hu, hsets⟩) fun hw => hw.beside hb

theorem Bumped.beside {kind : Kind} {revision : ℕ} (h : Bumped kind revision db q) :
    Bumped kind revision db' q := by
  obtain ⟨x, y, hrow, hsets⟩ := h
  exact ⟨x, y, hb.professional.row_of hrow, hsets⟩

theorem Phase.Work.beside {phase : Phase} (h : phase.Work db q) :
    phase.Work db' q := by
  cases phase with
  | clean => exact Clean.beside hb h
  | edits =>
    obtain ⟨honly, hedited, hpend⟩ := h
    exact ⟨honly.beside hb, hedited.beside hb, hb.outbox.trans hpend⟩
  | bumped =>
    obtain ⟨honly, hbumped, hpend⟩ := h
    exact ⟨honly.beside hb, hbumped.beside hb, hb.outbox.trans hpend⟩
  | begun =>
    obtain ⟨honly, hbumped, hpend⟩ := h
    refine ⟨honly.beside hb, hbumped.beside hb, ?_⟩
    rw [hb.outbox]
    exact hpend
  | announced =>
    obtain ⟨honly, revision, hbumped, hpend⟩ := h
    refine ⟨honly.beside hb, revision, hbumped.beside hb, ?_⟩
    rw [hb.outbox]
    exact hpend

end

theorem Only.token (h : Only (.request v) db p) : Token db p v := by
  rcases h.requests with ⟨_, hkind, htoken⟩ | ⟨hkind, -⟩
  · rcases hkind with heq | heq
    · cases heq
      exact htoken
    · cases heq
  · exact absurd rfl (hkind v).1

theorem Only.token_moved (h : Only (ProfileEdit.verification v).kind db p) : Token db p v := by
  rcases h.requests with ⟨_, hkind, htoken⟩ | ⟨hkind, -⟩
  · rcases hkind with heq | heq
    · cases heq
    cases heq
    exact htoken
  · exact absurd rfl (hkind v).2

theorem providerWork_beside (h : ProviderWork db q place) (hb : Beside q db db') :
    ProviderWork db' q place := by
  refine ⟨h.1.beside hb, ?_⟩
  cases place with
  | compareAndSet v =>
    obtain ⟨⟨honly, -⟩, hval, x, hx, hstat⟩ := h
    obtain ⟨x', hx', hsame⟩ := hb.status ⟨v, honly.token⟩ x hx
    exact ⟨hval, x', hx', hsame.trans hstat⟩
  | _ => exact h.2

theorem keeps_of_beside (hs : ProviderSound db') (hb : ∀ q ≠ p, Beside q db db') :
    providerOutline.Keeps db p place db' where
  sound := hs
  guarantee := trivial
  others := fun q _ hq _ hw => providerWork_beside hw (hb q hq)

end BeauClick.Provider
