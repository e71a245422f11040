import BeauClick.Commerce.Order
import BeauClick.Lib.Keyed

/-!
# The search projection

The statements of `SearchIndexerService`
(`services/search/src/indexing/search-indexer.service.ts`) on the PostgreSQL tables of the
projection.  Columns that are written together are one record of a row.

The arithmetic of `ranking.ts` is in floating point; here it is any function of the document,
its signals and the platform's mean rating.
-/

namespace BeauClick.Search

/-! ## Rows -/

/-- A service as it is indexed. -/
structure IndexedService where
  serviceId : Uuid
  name : String
  priceToman : ℤ
  durationMinutes : ℤ
  deriving DecidableEq

/-- The columns `ProfessionalUpdated` is the source of. -/
structure ProfileColumns where
  displayName : String
  bio : Option String
  cityId : Option Uuid
  cityName : Option String
  specialtyIds : List Uuid
  specialtyNames : List String
  verificationStatus : String
  isDeleted : Bool
  sourceUpdatedAt : Instant
  deriving DecidableEq

/-- The columns `ProfessionalMediaChanged` is the source of. -/
structure ImageryColumns where
  avatarUrl : Option String
  avatarWidth : Option ℕ
  avatarHeight : Option ℕ
  portfolioCount : ℕ
  portfolioPreviewUrls : List String
  deriving DecidableEq

/-- The defaults of the imagery columns. -/
def ImageryColumns.default : ImageryColumns := ⟨none, none, none, 0, []⟩

/-- The catalogue of the professional, and the range of its prices. -/
structure CatalogueColumns where
  services : List IndexedService
  minPriceToman : Option ℤ
  maxPriceToman : Option ℤ
  deriving DecidableEq

/-- The output of the ranking. -/
structure RankingScore where
  value : ℚ
  signalKeys : List String
  deriving DecidableEq

/-- A row of `search.provider_documents`. -/
structure ProviderDocument where
  professionalId : Uuid
  revision : ℕ
  profile : ProfileColumns
  catalogue : CatalogueColumns
  imagery : ImageryColumns
  ranking : RankingScore
  indexDirtySince : Option Instant
  indexedAt : Option Instant
  deriving DecidableEq

/-- A row of `search.ranking_signals`. -/
structure RankingSignals where
  completedBookings : ℤ
  cancelledBookings : ℤ
  createdBookings : ℤ
  profileViews : ℤ
  ratingSum : ℤ
  reviewCount : ℤ
  recentActivityCount : ℤ
  lastActivityAt : Option Instant

/-- The defaults of the signals. -/
def RankingSignals.default : RankingSignals := ⟨0, 0, 0, 0, 0, 0, 0, none⟩

/-- The signals a source event may move. -/
inductive SignalName where
  | bookingCompleted
  | bookingCancelled
  | bookingCreated
  | profileView
  | reviewCreated
  | reviewHidden
  | reviewRestored
  deriving DecidableEq

/-- The primary key of `search.signal_applications`. -/
structure SignalApplication where
  eventId : Uuid
  signal : SignalName
  deriving DecidableEq

/-- The tables of the projection. -/
structure SearchStore where
  documents : Keyed Uuid ProviderDocument
  signals : Keyed Uuid RankingSignals
  applications : List SignalApplication

/-! ## The events -/

/-- `ProfessionalProjection`: what an event says of the profile, and the catalogue, if it was
fetched. -/
structure ProfessionalProjection where
  professionalId : Uuid
  revision : ℕ
  profile : ProfileColumns
  services : Option (List IndexedService)
  deriving DecidableEq

/-- The images of a professional. -/
structure ProfessionalMediaProjection where
  professionalId : Uuid
  revision : ℕ
  imagery : ImageryColumns
  deriving DecidableEq

/-- The columns that a counter signal moves by one. -/
inductive RankingSignalName where
  | bookingCompleted
  | bookingCancelled
  | bookingCreated
  | profileView
  deriving DecidableEq

/-- The name a counter signal is claimed under. -/
def RankingSignalName.signal : RankingSignalName → SignalName
  | bookingCompleted => .bookingCompleted
  | bookingCancelled => .bookingCancelled
  | bookingCreated => .bookingCreated
  | profileView => .profileView

/-- The input of `applyRatingSignal`. -/
structure RatingSignal where
  eventId : Uuid
  signalName : SignalName
  professionalId : Uuid
  ratingDelta : ℤ
  countDelta : ℤ
  deriving DecidableEq

/-- The catalogue columns of a list of services, with `priceRange`. -/
def catalogueOf (services : List IndexedService) : CatalogueColumns where
  services := services
  minPriceToman := (services.map (·.priceToman)).min?
  maxPriceToman := (services.map (·.priceToman)).max?

/-! ## Statements -/

/-- The scorer: `scoreProvider` of the signals that `rescore` puts together. -/
abbrev Scorer := ProviderDocument → RankingSignals → Option ℚ → RankingScore

namespace SearchStore

/-- The document that a first event of a professional inserts. -/
def inserted (p : ProfessionalProjection) (now : Instant) : ProviderDocument where
  professionalId := p.professionalId
  revision := p.revision
  profile := p.profile
  catalogue := match p.services with
    | none => ⟨[], none, none⟩
    | some services => catalogueOf services
  imagery := .default
  ranking := ⟨0, []⟩
  indexDirtySince := some now
  indexedAt := none

/-- The document after a newer event: without a fetched catalogue, the stored one is kept. -/
def updated (p : ProfessionalProjection) (now : Instant) (doc : ProviderDocument) :
    ProviderDocument :=
  { doc with
    revision := p.revision
    profile := p.profile
    catalogue := match p.services with
      | none => doc.catalogue
      | some services => catalogueOf services
    indexDirtySince := some now }

/-- The upsert of `applyProfessional`; `none` when no row comes back. -/
def upsertProfessional (s : SearchStore) (p : ProfessionalProjection) (now : Instant) :
    Option SearchStore :=
  match s.documents.row p.professionalId with
  | none => some { s with documents := s.documents.set p.professionalId (inserted p now) }
  | some doc =>
    if doc.revision < p.revision then
      some { s with documents := s.documents.set p.professionalId (updated p now doc) }
    else none

/-- The document after a media event: its revision never goes back. -/
def withImagery (m : ProfessionalMediaProjection) (now : Instant) (doc : ProviderDocument) :
    ProviderDocument :=
  { doc with
    revision := max doc.revision m.revision
    imagery := m.imagery
    indexDirtySince := some now }

/-- The `UPDATE` of `applyMedia`; `none` when it matches no row. -/
def updateMedia (s : SearchStore) (m : ProfessionalMediaProjection) (now : Instant) :
    Option SearchStore :=
  match s.documents.row m.professionalId with
  | none => none
  | some doc =>
    if doc.revision ≤ m.revision then
      some { s with documents := s.documents.set m.professionalId (withImagery m now doc) }
    else none

/-- The mean over the documents that have a rating. -/
def platformMeanRating (s : SearchStore) : Option ℚ :=
  let rated := s.signals.rows.filter fun r => 0 < r.reviewCount
  let count := (rated.map (·.reviewCount)).sum
  if count = 0 then none else some (((rated.map (·.ratingSum)).sum : ℚ) / count)

/-- The score of a professional, as `rescore` reads it; `none` without a document. -/
def score (scorer : Scorer) (s : SearchStore) (professionalId : Uuid) : Option RankingScore :=
  (s.documents.row professionalId).map fun doc =>
    scorer doc ((s.signals.row professionalId).getD .default) s.platformMeanRating

/-- The `UPDATE` of `rescore`. -/
def writeScore (s : SearchStore) (professionalId : Uuid) (ranking : RankingScore) (now : Instant) :
    SearchStore :=
  { s with documents := s.documents.updateRow professionalId fun doc =>
      { doc with ranking := ranking, indexDirtySince := some now } }

/-- The score of a document from what is kept of it. -/
def rescore (scorer : Scorer) (s : SearchStore) (professionalId : Uuid) (now : Instant) :
    SearchStore :=
  match s.score scorer professionalId with
  | none => s
  | some ranking => s.writeScore professionalId ranking now

/-- `applyProfessional`, whose result says whether the event was newer. -/
def applyProfessional (scorer : Scorer) (s : SearchStore) (p : ProfessionalProjection)
    (now : Instant) : Bool × SearchStore :=
  match s.upsertProfessional p now with
  | none => (false, s)
  | some s' => (true, s'.rescore scorer p.professionalId now)

/-- The images of a professional, unless newer ones are kept. -/
def applyMedia (scorer : Scorer) (s : SearchStore) (m : ProfessionalMediaProjection)
    (now : Instant) : Bool × SearchStore :=
  match s.updateMedia m now with
  | none => (false, s)
  | some s' => (true, s'.rescore scorer m.professionalId now)

/-- The claim of a source event: `insertOnce` into `signal_applications`. -/
def claimSignal (s : SearchStore) (application : SignalApplication) : Option SearchStore :=
  if application ∈ s.applications then none
  else some { s with applications := application :: s.applications }

/-- The signals of a professional, inserted when there are none. -/
def ensureSignals (s : SearchStore) (professionalId : Uuid) : SearchStore :=
  match s.signals.row professionalId with
  | none => { s with signals := s.signals.set professionalId .default }
  | some _ => s

/-- An `UPDATE` of the signals of a professional. -/
def updateSignals (s : SearchStore) (professionalId : Uuid) (f : RankingSignals → RankingSignals) :
    SearchStore :=
  { s with signals := s.signals.updateRow professionalId f }

/-- The `UPDATE` of `applySignal`.  A view of the profile is not activity of the provider. -/
def bump (signal : RankingSignalName) (occurredAt : Instant) (r : RankingSignals) :
    RankingSignals :=
  let active := { r with
    recentActivityCount :=
      r.recentActivityCount + if signal = RankingSignalName.profileView then 0 else 1
    lastActivityAt := some (max (r.lastActivityAt.getD occurredAt) occurredAt) }
  match signal with
  | .bookingCompleted => { active with completedBookings := r.completedBookings + 1 }
  | .bookingCancelled => { active with cancelledBookings := r.cancelledBookings + 1 }
  | .bookingCreated => { active with createdBookings := r.createdBookings + 1 }
  | .profileView => { active with profileViews := r.profileViews + 1 }

/-- A signal is counted once for its event. -/
def applySignal (scorer : Scorer) (s : SearchStore) (eventId : Uuid) (signal : RankingSignalName)
    (professionalId : Uuid) (occurredAt now : Instant) : Bool × SearchStore :=
  match s.claimSignal ⟨eventId, signal.signal⟩ with
  | none => (false, s)
  | some s' =>
    (true, ((s'.ensureSignals professionalId).updateSignals professionalId
      (bump signal occurredAt)).rescore scorer professionalId now)

/-- The first `UPDATE` of `applyRatingSignal`: neither counter goes below zero. -/
def moveRating (input : RatingSignal) (r : RankingSignals) : RankingSignals :=
  { r with
    ratingSum := max 0 (r.ratingSum + input.ratingDelta)
    reviewCount := max 0 (r.reviewCount + input.countDelta) }

/-- The second: no reviews, no sum. -/
def resetRating (r : RankingSignals) : RankingSignals :=
  if r.reviewCount = 0 ∧ r.ratingSum ≠ 0 then { r with ratingSum := 0 } else r

/-- A rating is counted once for its event. -/
def applyRatingSignal (scorer : Scorer) (s : SearchStore) (input : RatingSignal) (now : Instant) :
    Bool × SearchStore :=
  match s.claimSignal ⟨input.eventId, input.signalName⟩ with
  | none => (false, s)
  | some s' =>
    (true, (((s'.ensureSignals input.professionalId).updateSignals input.professionalId
      (moveRating input)).updateSignals input.professionalId resetRating).rescore scorer
        input.professionalId now)

variable {scorer : Scorer} {s : SearchStore} {id id' : Uuid} {now : Instant}

theorem row_rescore_self : ((s.rescore scorer id now).documents.row id) =
    (s.documents.row id).map fun doc =>
      { doc with
        ranking := scorer doc ((s.signals.row id).getD .default) s.platformMeanRating
        indexDirtySince := some now } := by
  unfold rescore score
  cases h : s.documents.row id with
  | none => simp [h]
  | some => simp [writeScore, h]

theorem row_rescore_of_ne (h : id' ≠ id) :
    (s.rescore scorer id now).documents.row id' = s.documents.row id' := by
  unfold rescore
  split
  · rfl
  · exact Keyed.row_updateRow_of_ne h

@[simp] theorem signals_rescore : (s.rescore scorer id now).signals = s.signals := by
  unfold rescore
  split <;> rfl

@[simp] theorem applications_rescore :
    (s.rescore scorer id now).applications = s.applications := by
  unfold rescore
  split <;> rfl

end SearchStore

end BeauClick.Search
