import BeauClick.Lib.Journal
import BeauClick.Lib.Removable
import BeauClick.Lib.Transactions
import BeauClick.Media.Objects
import Mathlib.Data.List.Sort

/-!
# The edits of a professional

`ProviderService.update`, `ServiceOfferingService`, `PortfolioService` and `VerificationService`
with `ProviderEventsService` (`services/provider/src`), statement by statement, on the rows of one
professional.
-/

namespace BeauClick.Provider

open ReadCommitted Transactions
open Media (MediaObjectEntity MediaPurpose)

/-! ## Rows and events -/

/-- `VERIFICATION_STATUSES`. -/
inductive VerificationStatus where
  | unverified
  | pending
  | verified
  | rejected
  | suspended
  | revoked
  deriving DecidableEq

/-- The statuses that may follow. -/
def VerificationStatus.validTransitions : VerificationStatus → List VerificationStatus
  | .unverified => [.pending]
  | .pending => [.verified, .rejected]
  | .verified => [.suspended, .revoked]
  | .rejected => [.pending]
  | .suspended => [.verified, .revoked]
  | .revoked => []

/-- A row of `provider.professionals`. -/
structure ProfessionalEntity where
  ownerId : Uuid
  displayName : String
  bio : Option String
  cityId : Option Uuid
  verificationStatus : VerificationStatus
  revision : ℕ
  avatarMediaId : Option Uuid
  coverMediaId : Option Uuid
  deletedAt : Option Instant
  deriving DecidableEq

/-- A row of `provider.services`. -/
structure ServiceOfferingEntity where
  name : String
  durationMinutes : ℕ
  priceToman : ℕ
  deletedAt : Option Instant
  deriving DecidableEq

/-- A row of `provider.portfolio_items`. -/
structure PortfolioItemEntity where
  mediaId : Uuid
  caption : Option String
  position : ℕ
  deletedAt : Option Instant

/-- `uq_portfolio_media_live` and `uq_portfolio_position_live`. -/
def SameItem (x y : PortfolioItemEntity) : Prop :=
  x.deletedAt = none ∧ y.deletedAt = none ∧ (x.mediaId = y.mediaId ∨ x.position = y.position)
  deriving Decidable

/-- `VERIFICATION_REQUEST_STATUSES`. -/
inductive VerificationRequestStatus where
  | pending
  | approved
  | rejected
  deriving DecidableEq

/-- A row of `provider.verification_requests`. -/
structure VerificationRequestEntity where
  status : VerificationRequestStatus
  note : Option String
  submittedBy : Uuid
  decidedBy : Option Uuid
  decisionReason : Option String

/-- `uq_verification_request_open`. -/
def SamePending (x y : VerificationRequestEntity) : Prop :=
  x.status = .pending ∧ y.status = .pending
  deriving Decidable

/-- What `ProfessionalUpdated` carries of the professional. -/
structure ProfileSnapshot where
  displayName : String
  bio : Option String
  cityId : Option Uuid
  cityName : Option String
  specialtyIds : List Uuid
  specialtyNames : List String
  verificationStatus : VerificationStatus
  isDeleted : Bool
  deriving DecidableEq

/-- What `ServiceOfferingUpdated` carries of the service. -/
structure ServiceSnapshot where
  name : String
  durationMinutes : ℕ
  priceToman : ℕ
  isDeleted : Bool
  deriving DecidableEq

/-- What `ProfessionalMediaChanged` carries of the imagery. -/
structure MediaSnapshot where
  avatarUrl : Option String
  avatarWidth : Option ℕ
  avatarHeight : Option ℕ
  portfolioCount : ℕ
  portfolioPreviewUrls : List String
  deriving DecidableEq

/-- The events of the professional. -/
inductive ProviderEvent where
  | professionalUpdated (revision : ℕ) (profile : ProfileSnapshot) (updatedAt : Instant)
  | professionalVerificationChanged (revision : ℕ) (fromStatus toStatus : VerificationStatus)
      (actorId : Option Uuid) (reason : Option String) (changedAt : Instant)
  | serviceOfferingUpdated (revision : ℕ) (serviceId : Uuid) (service : ServiceSnapshot)
      (updatedAt : Instant)
  | professionalMediaChanged (revision : ℕ) (imagery : MediaSnapshot) (changedAt : Instant)

/-- `revision` of an event. -/
def ProviderEvent.revision : ProviderEvent → ℕ
  | .professionalUpdated revision .. => revision
  | .professionalVerificationChanged revision .. => revision
  | .serviceOfferingUpdated revision .. => revision
  | .professionalMediaChanged revision .. => revision

/-- The rows of one professional, and the media objects. -/
structure ProviderDb where
  professional : Versioned ℕ Unit ProfessionalEntity
  /-- `provider.professional_specialties`. -/
  specialties : Removable ℕ Uuid Unit
  services : Versioned ℕ Uuid ServiceOfferingEntity
  items : Versioned ℕ Uuid PortfolioItemEntity
  objects : Versioned ℕ Uuid MediaObjectEntity
  requests : Versioned ℕ Uuid VerificationRequestEntity
  outbox : Journal ℕ ProviderEvent

namespace ProviderDb

/-- Transaction `pid` commits. -/
def commit (db : ProviderDb) (pid : ℕ) : ProviderDb where
  professional := db.professional.commit pid
  specialties := Versioned.commit db.specialties pid
  services := db.services.commit pid
  items := db.items.commit pid
  objects := db.objects.commit pid
  requests := db.requests.commit pid
  outbox := db.outbox.commit pid

/-- Transaction `pid` rolls back. -/
def rollback (db : ProviderDb) (pid : ℕ) : ProviderDb where
  professional := db.professional.rollback pid
  specialties := Versioned.rollback db.specialties pid
  services := db.services.rollback pid
  items := db.items.rollback pid
  objects := db.objects.rollback pid
  requests := db.requests.rollback pid
  outbox := db.outbox.rollback pid

end ProviderDb

/-! ## Calls -/

/-- The names of the cities and of the specialties, and `publicUrl` of the storage. -/
structure ProviderConfig where
  cityName : Uuid → Option String
  specialtyName : Uuid → Option String
  publicUrl : String → String

/-- `UpdateProfessionalDto`, and who sends it.  What is left out is not set. -/
structure UpdateInput where
  ownerId : Uuid
  displayName : Option String
  bio : Option (Option String)
  cityId : Option (Option Uuid)
  specialtyIds : Option (List Uuid)
  deriving DecidableEq

/-- `CreateServiceOfferingInput`. -/
structure ServiceInput where
  name : String
  durationMinutes : ℕ
  priceToman : ℕ
  deriving DecidableEq

/-- `Partial<CreateServiceOfferingInput>`. -/
structure ServicePatch where
  name : Option String
  durationMinutes : Option ℕ
  priceToman : Option ℕ
  deriving DecidableEq

/-- The input of `addItem`. -/
structure ItemInput where
  ownerUserId : Uuid
  mediaId : Uuid
  caption : Option String
  deriving DecidableEq

/-- `kind` of `setProfileImage`. -/
inductive ImageKind where
  | avatar
  | cover
  deriving DecidableEq

/-- The input of `setProfileImage`. -/
structure ImageInput where
  ownerUserId : Uuid
  kind : ImageKind
  mediaId : Option Uuid
  deriving DecidableEq

/-- The decisions on a request. -/
inductive VerificationDecision where
  | approve
  | reject
  deriving DecidableEq

/-- What a decision is given. -/
structure DecisionInput where
  requestId : Uuid
  decision : VerificationDecision
  actorUserId : Uuid
  reason : String
  deriving DecidableEq

/-- What `transitionVerification` is asked for, and the request that asks for it. -/
structure Transition where
  requestId : Uuid
  toStatus : VerificationStatus
  actorId : Option Uuid
  reason : Option String
  deriving DecidableEq

/-- What a call is asked for. -/
inductive ProviderRequest where
  | update (i : UpdateInput)
  | createService (input : ServiceInput)
  | updateService (serviceId : Uuid) (input : ServicePatch)
  | removeService (serviceId : Uuid)
  | addItem (i : ItemInput)
  | removeItem (ownerUserId itemId : Uuid)
  | setProfileImage (i : ImageInput)
  | submit (ownerUserId : Uuid) (note : Option String)
  | decide (i : DecisionInput)

/-- What a statement finds outside the tables: the clock, and the next `uuidv7`. -/
structure ProviderEnv where
  now : Instant
  uuid : Uuid

/-- An edit that is told by `ProfessionalUpdated`. -/
inductive ProfileEdit where
  | profile
  | service (serviceId : Uuid)
  | verification (v : Transition)
  deriving DecidableEq

/-- An edit that is told by `ProfessionalMediaChanged`. -/
inductive MediaEdit where
  | portfolio
  | profileImage
  deriving DecidableEq

/-- Which edit a call makes. -/
inductive Edit where
  | profile (edit : ProfileEdit)
  | media (edit : MediaEdit)
  deriving DecidableEq

/-- Why a call is refused. -/
inductive ProviderError where
  | notFoundOrNotYours
  | portfolioFull
  | mediaNotFoundOrNotYours
  | verificationAlreadyPending
  | verificationNotSubmittable
  | verificationRequestNotFound
  /-- `assertValidTransition`. -/
  | invalidTransition (fromStatus toStatus : VerificationStatus)
  deriving DecidableEq

/-- Where a call stands. -/
inductive ProviderPlace where
  | idle
  | failed
  | refused (e : ProviderError)
  | done (edit : Edit)
  -- `ProviderService.update`
  | findOwn (i : UpdateInput)
  | reload (e : ProfessionalEntity) (specialtyIds : List Uuid)
  | reloadSpecialties (e row : ProfessionalEntity) (specialtyIds : List Uuid)
  | insertSpecialties (e row : ProfessionalEntity) (added removed : List Uuid)
  | writeColumns (e row : ProfessionalEntity) (removed : List Uuid)
  | removeSpecialties (removed : List Uuid)
  | readProfile
  | bumpProfile (profile : ProfileSnapshot)
  -- `ServiceOfferingService`
  | insertService (input : ServiceInput)
  | findService (serviceId : Uuid) (input : ServicePatch)
  | reloadService (serviceId : Uuid) (e : ServiceOfferingEntity)
  | writeService (serviceId : Uuid) (e row : ServiceOfferingEntity)
  | deleteService (serviceId : Uuid)
  | findDeleted (serviceId : Uuid)
  | bumpService (serviceId : Uuid) (service : ServiceOfferingEntity)
  | announceService (serviceId : Uuid) (service : ServiceOfferingEntity) (revision : ℕ)
  -- `PortfolioService`
  | countItems (i : ItemInput)
  | claimItem (i : ItemInput)
  | nextPosition (i : ItemInput)
  | insertItem (i : ItemInput) (position : ℕ)
  | findItem (ownerUserId itemId : Uuid)
  | deleteItem (ownerUserId itemId mediaId : Uuid)
  | findProfessional (i : ImageInput)
  | claimImage (i : ImageInput) (previousId : Option Uuid)
  | writeImage (i : ImageInput) (previousId : Option Uuid)
  | findObject (edit : MediaEdit) (ownerUserId mediaId : Uuid)
  | deleteObject (edit : MediaEdit) (mediaId : Uuid)
  | readAvatar (edit : MediaEdit)
  | readItems (edit : MediaEdit) (avatarId : Option Uuid)
  | describe (edit : MediaEdit) (avatarId : Option Uuid) (mediaIds : List Uuid)
  | bumpMedia (edit : MediaEdit) (imagery : MediaSnapshot)
  | announceMedia (edit : MediaEdit) (imagery : MediaSnapshot) (revision : ℕ)
  -- `VerificationService`, with `transitionVerification`
  | findByOwner (ownerUserId : Uuid) (note : Option String)
  | insertRequest (ownerUserId : Uuid) (note : Option String)
  | findRequest (i : DecisionInput)
  | decideRequest (i : DecisionInput)
  | findBefore (v : Transition)
  | compareAndSet (v : Transition) (fromStatus : VerificationStatus)
  | bumpVerification (v : Transition) (fromStatus : VerificationStatus)
  | announceVerification (v : Transition) (fromStatus : VerificationStatus) (revision : ℕ)
  -- `emitProfessionalUpdated`, after a bump
  | readChanged (edit : ProfileEdit) (revision : ℕ)
  | announceProfile (edit : ProfileEdit) (profile : ProfileSnapshot) (revision : ℕ)
  | finish (edit : Edit)
  deriving DecidableEq

/-! ## What the reads find -/

section Seen

variable (config : ProviderConfig) (db : ProviderDb) (pid : ℕ)

/-- The specialties of the professional. -/
def specialtyIdsSeen : List Uuid :=
  ((db.specialties.rows pid).map Prod.fst).insertionSort fun a b => a ≤ b

/-- The professional with its specialties and its city, as `ProfessionalUpdated` carries it. -/
def profileSeen : Option ProfileSnapshot :=
  (db.professional.get pid ()).map fun x =>
    let specialtyIds := specialtyIdsSeen db pid
    { displayName := x.displayName
      bio := x.bio
      cityId := x.cityId
      cityName := x.cityId.bind config.cityName
      specialtyIds := specialtyIds
      specialtyNames := specialtyIds.filterMap config.specialtyName
      verificationStatus := x.verificationStatus
      isDeleted := x.deletedAt.isSome }

/-- The live items, `ORDER BY position`. -/
def itemsSeen : List (Uuid × PortfolioItemEntity) :=
  (db.items.keys.filterMap fun k =>
    match db.items.get pid k with
    | some x => if x.deletedAt = none then some (k, x) else none
    | none => none).insertionSort fun a b =>
      a.2.position < b.2.position ∨ a.2.position = b.2.position ∧ a.1 ≤ b.1

/-- An image as it is shown. -/
structure MediaDescriptor where
  url : Option String
  width : Option ℕ
  height : Option ℕ

/-- `MediaService.describe`, of one object. -/
def describeSeen (mediaId : Uuid) : Option MediaDescriptor :=
  match db.objects.get pid mediaId with
  | some row =>
    if row.status = .stored then
      some ⟨if row.isPublic then some (config.publicUrl row.storageKey) else none, row.width,
        row.height⟩
    else none
  | none => none

/-- The last part of `mediaSnapshot`. -/
def snapshotOf (avatarId : Option Uuid) (mediaIds : List Uuid) : MediaSnapshot :=
  let avatar := avatarId.bind (describeSeen config db pid)
  let previews := mediaIds.filterMap fun mediaId =>
    (describeSeen config db pid mediaId).bind MediaDescriptor.url
  { avatarUrl := avatar.bind MediaDescriptor.url
    avatarWidth := avatar.bind MediaDescriptor.width
    avatarHeight := avatar.bind MediaDescriptor.height
    portfolioCount := previews.length
    portfolioPreviewUrls := previews.take 4 }

/-- `mediaSnapshot`, at once. -/
def imagerySeen : MediaSnapshot :=
  snapshotOf config db pid ((db.professional.get pid ()).bind ProfessionalEntity.avatarMediaId)
    ((itemsSeen db pid).map fun kx => kx.2.mediaId)

end Seen

/-- `isDeleted` and the other fields of `ServiceOfferingUpdated`. -/
def ServiceOfferingEntity.snapshot (x : ServiceOfferingEntity) : ServiceSnapshot :=
  ⟨x.name, x.durationMinutes, x.priceToman, x.deletedAt.isSome⟩

/-! ## What the writes set -/

/-- A column that a `save` writes if it differs from what it has loaded again. -/
def pick {α : Type} [DecidableEq α] (x e row : α) : α := if e = row then x else e

/-- The columns of `e` that differ from those of `row`, set in `x`. -/
def ProfessionalEntity.assign (x e row : ProfessionalEntity) : ProfessionalEntity where
  ownerId := pick x.ownerId e.ownerId row.ownerId
  displayName := pick x.displayName e.displayName row.displayName
  bio := pick x.bio e.bio row.bio
  cityId := pick x.cityId e.cityId row.cityId
  verificationStatus := pick x.verificationStatus e.verificationStatus row.verificationStatus
  revision := pick x.revision e.revision row.revision
  avatarMediaId := pick x.avatarMediaId e.avatarMediaId row.avatarMediaId
  coverMediaId := pick x.coverMediaId e.coverMediaId row.coverMediaId
  deletedAt := pick x.deletedAt e.deletedAt row.deletedAt

/-- The same of a service. -/
def ServiceOfferingEntity.assign (x e row : ServiceOfferingEntity) : ServiceOfferingEntity where
  name := pick x.name e.name row.name
  durationMinutes := pick x.durationMinutes e.durationMinutes row.durationMinutes
  priceToman := pick x.priceToman e.priceToman row.priceToman
  deletedAt := pick x.deletedAt e.deletedAt row.deletedAt

/-- The entity with what the dto sets. -/
def UpdateInput.apply (i : UpdateInput) (e : ProfessionalEntity) : ProfessionalEntity :=
  { e with
    displayName := i.displayName.getD e.displayName
    bio := i.bio.getD e.bio
    cityId := i.cityId.getD e.cityId }

/-- The service with what the input sets. -/
def ServicePatch.apply (input : ServicePatch) (e : ServiceOfferingEntity) :
    ServiceOfferingEntity :=
  { e with
    name := input.name.getD e.name
    durationMinutes := input.durationMinutes.getD e.durationMinutes
    priceToman := input.priceToman.getD e.priceToman }

/-- `bumpRevision`. -/
def ProfessionalEntity.bump (x : ProfessionalEntity) : ProfessionalEntity :=
  { x with revision := x.revision + 1 }

/-- The row with another status. -/
def ProfessionalEntity.moved (x : ProfessionalEntity) (toStatus : VerificationStatus) :
    ProfessionalEntity :=
  { x with verificationStatus := toStatus }

/-- The row with another image. -/
def ProfessionalEntity.setImage (x : ProfessionalEntity) (kind : ImageKind)
    (mediaId : Option Uuid) : ProfessionalEntity :=
  match kind with
  | .avatar => { x with avatarMediaId := mediaId }
  | .cover => { x with coverMediaId := mediaId }

/-- The column of an image. -/
def ProfessionalEntity.image (x : ProfessionalEntity) : ImageKind → Option Uuid
  | .avatar => x.avatarMediaId
  | .cover => x.coverMediaId

/-- The purpose that `claimForAttachment` expects of an image. -/
def ImageKind.purpose : ImageKind → MediaPurpose
  | .avatar => .avatar
  | .cover => .cover

/-- The status that a decision moves the professional to. -/
def VerificationDecision.toStatus : VerificationDecision → VerificationStatus
  | .approve => .verified
  | .reject => .rejected

/-- The status that it gives the request. -/
def VerificationDecision.requestStatus : VerificationDecision → VerificationRequestStatus
  | .approve => .approved
  | .reject => .rejected

/-- What `claimForAttachment` asks of an object. -/
def Claimable (ownerUserId : Uuid) (purpose : MediaPurpose) (row : MediaObjectEntity) : Prop :=
  row.ownerUserId = ownerUserId ∧ row.status = .stored ∧ row.purpose = purpose ∧
    row.deletedAt = none

instance (ownerUserId : Uuid) (purpose : MediaPurpose) :
    DecidablePred (Claimable ownerUserId purpose) :=
  fun _ => inferInstanceAs (Decidable (_ ∧ _ ∧ _ ∧ _))

/-! ## The statements -/

section Statement

variable (config : ProviderConfig) (env : ProviderEnv) (db : ProviderDb) (pid : ℕ)

/-- `UPDATE … SET revision = revision + 1 … RETURNING revision`. -/
def bumpRevision (place : ℕ → ProviderPlace) : Next ProviderDb Unit ProviderPlace :=
  match db.professional.update pid () (fun _ => True) ProfessionalEntity.bump with
  | .waits => .waits
  | .done x t => .goes { db with professional := t } (place x.revision)
  | _ => .throws .failed

/-- An event joins the outbox. -/
def emit (event : ProviderEvent) (place : ProviderPlace) : Next ProviderDb Unit ProviderPlace :=
  .goes { db with outbox := db.outbox.append pid event } place

/-- `ProviderService.update`, up to the bump. -/
def updateStatement : ProviderPlace → Next ProviderDb Unit ProviderPlace
  | .findOwn i =>
    match db.professional.get pid () with
    | none => .throws .failed
    | some x =>
      if x.ownerId = i.ownerId ∧ x.deletedAt = none then
        let specialtyIds :=
          match i.specialtyIds with
          | some ids => ids.dedup.filter fun id => (config.specialtyName id).isSome
          | none => specialtyIdsSeen db pid
        .goes db (.reload (i.apply x) specialtyIds)
      else .throws .failed
  | .reload e specialtyIds =>
    match db.professional.get pid () with
    | none => .throws .failed
    | some row => .goes db (.reloadSpecialties e row specialtyIds)
  | .reloadSpecialties e row specialtyIds =>
    let before := specialtyIdsSeen db pid
    .goes db (.insertSpecialties e row (specialtyIds.filter (· ∉ before))
      (before.filter (· ∉ specialtyIds)))
  | .insertSpecialties e row [] removed => .goes db (.writeColumns e row removed)
  | .insertSpecialties e row (id :: added) removed =>
    match db.specialties.insertOrIgnore pid id () with
    | .waits => .waits
    | .ignored => .throws .failed
    | .done t => .goes { db with specialties := t } (.insertSpecialties e row added removed)
  | .writeColumns e row removed =>
    if e = row then .goes db (.removeSpecialties removed)
    else if e.cityId ≠ row.cityId ∧ ∃ cityId ∈ e.cityId, config.cityName cityId = none then
      .throws .failed
    else
      match db.professional.update pid () (fun _ => True) (·.assign e row) with
      | .waits => .waits
      | .done _ t => .goes { db with professional := t } (.removeSpecialties removed)
      | _ => .goes db (.removeSpecialties removed)
  | .removeSpecialties [] => .goes db .readProfile
  | .removeSpecialties (id :: removed) =>
    match db.specialties.remove pid id with
    | .waits => .waits
    | .ignored => .goes db (.removeSpecialties removed)
    | .done t => .goes { db with specialties := t } (.removeSpecialties removed)
  | .readProfile =>
    match profileSeen config db pid with
    | none => .commits (.done (.profile .profile))
    | some profile => .goes db (.bumpProfile profile)
  | .bumpProfile profile => bumpRevision db pid (.announceProfile .profile profile)
  | _ => .waits

/-- `ServiceOfferingService`, with `emitServiceUpdated`. -/
def serviceStatement : ProviderPlace → Next ProviderDb Unit ProviderPlace
  | .insertService input =>
    let service : ServiceOfferingEntity :=
      ⟨input.name, input.durationMinutes, input.priceToman, none⟩
    match db.services.insert pid env.uuid service (fun _ => False) with
    | .waits => .waits
    | .done x t => .goes { db with services := t } (.bumpService env.uuid x)
    | _ => .throws .failed
  | .findService serviceId input =>
    match db.services.get pid serviceId with
    | none => .throws (.refused .notFoundOrNotYours)
    | some x =>
      if x.deletedAt = none then .goes db (.reloadService serviceId (input.apply x))
      else .throws (.refused .notFoundOrNotYours)
  | .reloadService serviceId e =>
    match db.services.get pid serviceId with
    | none => .throws .failed
    | some row => .goes db (.writeService serviceId e row)
  | .writeService serviceId e row =>
    if e = row then .goes db (.bumpService serviceId e)
    else
      match db.services.update pid serviceId (fun _ => True) (·.assign e row) with
      | .waits => .waits
      | .done _ t => .goes { db with services := t } (.bumpService serviceId e)
      | _ => .goes db (.bumpService serviceId e)
  | .deleteService serviceId =>
    match db.services.update pid serviceId (fun x => x.deletedAt = none)
        (fun x => { x with deletedAt := some env.now }) with
    | .waits => .waits
    | .done _ t => .goes { db with services := t } (.findDeleted serviceId)
    | _ => .commits (.done (.profile (.service serviceId)))
  | .findDeleted serviceId =>
    match db.services.get pid serviceId with
    | none => .throws .failed
    | some x => .goes db (.bumpService serviceId x)
  | .bumpService serviceId service => bumpRevision db pid (.announceService serviceId service)
  | .announceService serviceId service revision =>
    emit db pid (.serviceOfferingUpdated revision serviceId service.snapshot env.now)
      (.readChanged (.service serviceId) revision)
  | _ => .waits

/-- `PortfolioService`, with `emitMediaChanged`. -/
def portfolioStatement : ProviderPlace → Next ProviderDb Unit ProviderPlace
  | .countItems i =>
    if 40 ≤ (itemsSeen db pid).length then .throws (.refused .portfolioFull)
    else .goes db (.claimItem i)
  | .claimItem i =>
    match db.objects.get pid i.mediaId with
    | none => .throws (.refused .mediaNotFoundOrNotYours)
    | some row =>
      if Claimable i.ownerUserId .portfolio row then .goes db (.nextPosition i)
      else .throws (.refused .mediaNotFoundOrNotYours)
  | .nextPosition i =>
    let positions := (itemsSeen db pid).map fun kx => kx.2.position + 1
    .goes db (.insertItem i (positions.foldl max 0))
  | .insertItem i position =>
    match db.items.insert pid env.uuid ⟨i.mediaId, i.caption, position, none⟩
        (SameItem ⟨i.mediaId, i.caption, position, none⟩) with
    | .waits => .waits
    | .done _ t => .goes { db with items := t } (.readAvatar .portfolio)
    | _ => .throws .failed
  | .findItem ownerUserId itemId =>
    match db.items.get pid itemId with
    | none => .throws (.refused .notFoundOrNotYours)
    | some x =>
      if x.deletedAt = none then .goes db (.deleteItem ownerUserId itemId x.mediaId)
      else .throws (.refused .notFoundOrNotYours)
  | .deleteItem ownerUserId itemId mediaId =>
    match db.items.update pid itemId (fun _ => True)
        (fun x => { x with deletedAt := some env.now }) with
    | .waits => .waits
    | .done _ t => .goes { db with items := t } (.findObject .portfolio ownerUserId mediaId)
    | _ => .goes db (.findObject .portfolio ownerUserId mediaId)
  | .findProfessional i =>
    match db.professional.get pid () with
    | none => .throws (.refused .notFoundOrNotYours)
    | some x =>
      match i.mediaId with
      | none => .goes db (.writeImage i (x.image i.kind))
      | some _ => .goes db (.claimImage i (x.image i.kind))
  | .claimImage i previousId =>
    match i.mediaId.bind (db.objects.get pid) with
    | none => .throws (.refused .mediaNotFoundOrNotYours)
    | some row =>
      if Claimable i.ownerUserId i.kind.purpose row then .goes db (.writeImage i previousId)
      else .throws (.refused .mediaNotFoundOrNotYours)
  | .writeImage i previousId =>
    match db.professional.update pid () (fun _ => True) (·.setImage i.kind i.mediaId) with
    | .waits => .waits
    | .done _ t =>
      match previousId with
      | none => .goes { db with professional := t } (.readAvatar .profileImage)
      | some mediaId =>
        if i.mediaId = some mediaId then
          .goes { db with professional := t } (.readAvatar .profileImage)
        else
          .goes { db with professional := t } (.findObject .profileImage i.ownerUserId mediaId)
    | _ => .throws .failed
  | .findObject edit ownerUserId mediaId =>
    match db.objects.get pid mediaId with
    | none => .goes db (.readAvatar edit)
    | some row =>
      if row.ownerUserId ≠ ownerUserId ∨ row.status = .deleted then .goes db (.readAvatar edit)
      else .goes db (.deleteObject edit mediaId)
  | .deleteObject edit mediaId =>
    match db.objects.update pid mediaId (fun _ => True)
        (·.delete env.now) with
    | .waits => .waits
    | .done _ t => .goes { db with objects := t } (.readAvatar edit)
    | _ => .goes db (.readAvatar edit)
  | .readAvatar edit =>
    .goes db (.readItems edit
      ((db.professional.get pid ()).bind ProfessionalEntity.avatarMediaId))
  | .readItems edit avatarId =>
    .goes db (.describe edit avatarId ((itemsSeen db pid).map fun kx => kx.2.mediaId))
  | .describe edit avatarId mediaIds =>
    .goes db (.bumpMedia edit (snapshotOf config db pid avatarId mediaIds))
  | .bumpMedia edit imagery => bumpRevision db pid (.announceMedia edit imagery)
  | .announceMedia edit imagery revision =>
    emit db pid (.professionalMediaChanged revision imagery env.now) (.finish (.media edit))
  | _ => .waits

/-- `VerificationService`, with `transitionVerification` and `emitVerificationChanged`. -/
def verificationStatement : ProviderPlace → Next ProviderDb Unit ProviderPlace
  | .findByOwner ownerUserId note =>
    match db.professional.get pid () with
    | none => .throws (.refused .notFoundOrNotYours)
    | some x =>
      if x.ownerId = ownerUserId ∧ x.deletedAt = none then
        match x.verificationStatus with
        | .verified => .throws (.refused .verificationNotSubmittable)
        | .pending => .throws (.refused .verificationAlreadyPending)
        | .suspended => .throws (.refused .verificationNotSubmittable)
        | .revoked => .throws (.refused .verificationNotSubmittable)
        | _ => .goes db (.insertRequest ownerUserId note)
      else .throws (.refused .notFoundOrNotYours)
  | .insertRequest ownerUserId note =>
    let request : VerificationRequestEntity := ⟨.pending, note, ownerUserId, none, none⟩
    match db.requests.insert pid env.uuid request (SamePending request) with
    | .waits => .waits
    | .done _ t =>
      .goes { db with requests := t } (.findBefore ⟨env.uuid, .pending, some ownerUserId, none⟩)
    | _ => .throws .failed
  | .findRequest i =>
    match db.requests.get pid i.requestId with
    | none => .throws (.refused .verificationRequestNotFound)
    | some _ => .goes db (.decideRequest i)
  | .decideRequest i =>
    match db.requests.update pid i.requestId (fun x => x.status = .pending) (fun x =>
        { x with
          status := i.decision.requestStatus
          decidedBy := some i.actorUserId
          decisionReason := some i.reason }) with
    | .waits => .waits
    | .done _ t =>
      .goes { db with requests := t }
        (.findBefore ⟨i.requestId, i.decision.toStatus, some i.actorUserId, some i.reason⟩)
    | _ => .throws (.refused .verificationNotSubmittable)
  | .findBefore v =>
    match db.professional.get pid () with
    | none => .throws .failed
    | some x =>
      if x.deletedAt ≠ none then .throws .failed
      else if v.toStatus ∈ x.verificationStatus.validTransitions then
        .goes db (.compareAndSet v x.verificationStatus)
      else .throws (.refused (.invalidTransition x.verificationStatus v.toStatus))
  | .compareAndSet v fromStatus =>
    match db.professional.update pid () (fun x => x.verificationStatus = fromStatus)
        (·.moved v.toStatus) with
    | .waits => .waits
    | .done _ t => .goes { db with professional := t } (.bumpVerification v fromStatus)
    | _ => .commits (.done (.profile (.verification v)))
  | .bumpVerification v fromStatus => bumpRevision db pid (.announceVerification v fromStatus)
  | .announceVerification v fromStatus revision =>
    let event := .professionalVerificationChanged revision fromStatus v.toStatus v.actorId v.reason
      env.now
    emit db pid event (.readChanged (.verification v) revision)
  | _ => .waits

/-- The end of `emitProfessionalUpdated`. -/
def announceStatement : ProviderPlace → Next ProviderDb Unit ProviderPlace
  | .readChanged edit revision =>
    match profileSeen config db pid with
    | none => .commits (.done (.profile edit))
    | some profile => .goes db (.announceProfile edit profile revision)
  | .announceProfile edit profile revision =>
    emit db pid (.professionalUpdated revision profile env.now) (.finish (.profile edit))
  | .finish edit => .commits (.done edit)
  | _ => .waits

end Statement

/-- The part of the service that takes the statement of a place. -/
inductive Part where
  | update
  | service
  | portfolio
  | verification
  | announce

/-- What a call is in the middle of. -/
def ProviderPlace.part : ProviderPlace → Part
  | .findOwn _ | .reload .. | .reloadSpecialties .. | .insertSpecialties .. | .writeColumns ..
  | .removeSpecialties _ | .readProfile | .bumpProfile _ => .update
  | .insertService _ | .findService .. | .reloadService .. | .writeService .. | .deleteService _
  | .findDeleted _ | .bumpService .. | .announceService .. => .service
  | .countItems _ | .claimItem _ | .nextPosition _ | .insertItem .. | .findItem .. | .deleteItem ..
  | .findProfessional _ | .claimImage .. | .writeImage .. | .findObject .. | .deleteObject ..
  | .readAvatar _ | .readItems .. | .describe .. | .bumpMedia .. | .announceMedia .. => .portfolio
  | .findByOwner .. | .insertRequest .. | .findRequest _ | .decideRequest _ | .findBefore _
  | .compareAndSet .. | .bumpVerification .. | .announceVerification .. => .verification
  | _ => .announce

/-- The statement of a call at its place. -/
def providerStatement (config : ProviderConfig) (env : ProviderEnv) (db : ProviderDb) (pid : ℕ)
    (place : ProviderPlace) : Next ProviderDb Unit ProviderPlace :=
  match place.part with
  | .update => updateStatement config db pid place
  | .service => serviceStatement env db pid place
  | .portfolio => portfolioStatement config env db pid place
  | .verification => verificationStatement env db pid place
  | .announce => announceStatement config env db pid place

/-- A call there still runs. -/
def ProviderPlace.running : ProviderPlace → Bool
  | .idle | .failed | .refused _ | .done _ => false
  | _ => true

/-- Where a call starts. -/
def ProviderRequest.first : ProviderRequest → ProviderPlace
  | .update i => .findOwn i
  | .createService input => .insertService input
  | .updateService serviceId input => .findService serviceId input
  | .removeService serviceId => .deleteService serviceId
  | .addItem i => .countItems i
  | .removeItem ownerUserId itemId => .findItem ownerUserId itemId
  | .setProfileImage i => .findProfessional i
  | .submit ownerUserId note => .findByOwner ownerUserId note
  | .decide i => .findRequest i

/-- Any number of edits of the professional. -/
def providerService (config : ProviderConfig) :
    Service ProviderDb Unit ProviderPlace ProviderRequest ProviderEnv where
  commit := ProviderDb.commit
  rollback := ProviderDb.rollback
  idle := .idle
  failed := .failed
  running := ProviderPlace.running
  first := ProviderRequest.first
  statement := providerStatement config

end BeauClick.Provider
