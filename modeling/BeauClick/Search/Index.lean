import BeauClick.Lib.Transactions
import BeauClick.Search.Documents
import Mathlib.Data.List.Sort

/-!
# The search index

The pushing half of `SearchIndexerService`
(`services/search/src/indexing/search-indexer.service.ts`): sweeps and full rebuilds at the
same time as edits of the projection, each statement and each call of the engine a step.

An index that was not made yet is one that holds nothing.  A bulk of documents is pushed one by
one, since the engine may take a part of it.
-/

namespace BeauClick.Search

open Transactions Function

/-! ## What is indexed -/

/-- `ProviderSearchDocument`, but for the time it was built at. -/
structure ProviderSearchDocument where
  professionalId : Uuid
  revision : ℕ
  displayName : String
  bio : Option String
  cityId : Option Uuid
  cityName : Option String
  specialtyIds : List Uuid
  specialtyNames : List String
  verificationStatus : String
  isVerified : Bool
  catalogue : CatalogueColumns
  serviceNames : List String
  ratingAvg : ℚ
  reviewCount : ℤ
  completedBookings : ℤ
  ranking : RankingScore
  imagery : ImageryColumns
  deriving DecidableEq

/-- One document of `toSearchDocuments`. -/
def toSearchDocument (doc : ProviderDocument) (signals : Option RankingSignals) :
    ProviderSearchDocument :=
  let s := signals.getD .default
  { professionalId := doc.professionalId
    revision := doc.revision
    displayName := doc.profile.displayName
    bio := doc.profile.bio
    cityId := doc.profile.cityId
    cityName := doc.profile.cityName
    specialtyIds := doc.profile.specialtyIds
    specialtyNames := doc.profile.specialtyNames
    verificationStatus := doc.profile.verificationStatus
    isVerified := doc.profile.verificationStatus == "verified"
    catalogue := doc.catalogue
    serviceNames := doc.catalogue.services.map (·.name)
    ratingAvg := if 0 < s.reviewCount then (s.ratingSum : ℚ) / s.reviewCount else 0
    reviewCount := s.reviewCount
    completedBookings := s.completedBookings
    ranking := doc.ranking
    imagery := doc.imagery }

/-- The name of a physical index: `physicalIndexName`, and the suffix of a rebuild. -/
structure PhysicalIndex where
  mappingVersion : ℕ
  generation : ℕ
  deriving DecidableEq

/-- The row of `search.index_state`. -/
structure IndexState where
  physicalIndex : PhysicalIndex
  mappingVersion : ℕ

/-- What an index holds of a professional, and how many edits the copy that was pushed had seen. -/
structure Entry where
  version : ℕ
  document : Option ProviderSearchDocument

/-- The projection with the number of edits of each professional, and the engine. -/
structure IndexDb where
  store : SearchStore
  version : Uuid → ℕ
  state : Option IndexState
  held : PhysicalIndex → Uuid → Option Entry
  aliased : Option PhysicalIndex

namespace IndexDb

def row (db : IndexDb) (id : Uuid) : Option ProviderDocument := db.store.documents.row id

/-- What the index should hold of a professional: nothing of one that is deleted. -/
def shown (db : IndexDb) (id : Uuid) : Option ProviderSearchDocument :=
  match db.row id with
  | none => none
  | some doc =>
    if doc.profile.isDeleted then none
    else some (toSearchDocument doc (db.store.signals.row id))

/-- What an index holds of a professional. -/
def holds (db : IndexDb) (index : PhysicalIndex) (id : Uuid) : Option ProviderSearchDocument :=
  (db.held index id).bind (·.document)

end IndexDb

/-! ## Edits -/

/-- The writes of the projection, each a transaction.  A score may have been computed from what was
read before another transaction committed, so it is given. -/
inductive Edit where
  | upsertProfessional (p : ProfessionalProjection)
  | updateMedia (m : ProfessionalMediaProjection)
  | rescore (id : Uuid) (ranking : RankingScore)
  | applySignal (eventId : Uuid) (signal : RankingSignalName) (id : Uuid) (occurredAt : Instant)
      (ranking : RankingScore)
  | applyRatingSignal (input : RatingSignal) (ranking : RankingScore)
  deriving DecidableEq

namespace Edit

/-- The professional that is edited. -/
def id : Edit → Uuid
  | upsertProfessional p => p.professionalId
  | updateMedia m => m.professionalId
  | rescore id _ => id
  | applySignal _ _ id _ _ => id
  | applyRatingSignal input _ => input.professionalId

/-- The projection after the edit; `none` when nothing is written. -/
def apply (s : SearchStore) (now : Instant) : Edit → Option SearchStore
  | upsertProfessional p => s.upsertProfessional p now
  | updateMedia m => s.updateMedia m now
  | rescore id ranking =>
    match s.documents.row id with
    | none => none
    | some _ => some (s.writeScore id ranking now)
  | applySignal eventId signal id occurredAt ranking =>
    match s.applySignal (fun _ _ _ => ranking) eventId signal id occurredAt now with
    | (true, s') => some s'
    | (false, _) => none
  | applyRatingSignal input ranking =>
    match s.applyRatingSignal (fun _ _ _ => ranking) input now with
    | (true, s') => some s'
    | (false, _) => none

end Edit

namespace IndexDb

/-- A write to a document, which raises the row's version. -/
def edit (db : IndexDb) (e : Edit) (now : Instant) : IndexDb :=
  match e.apply db.store now with
  | none => db
  | some s => { db with
      store := s
      version := update db.version e.id (db.version e.id + 1) }

/-- The engine stores or deletes a document. -/
def put (db : IndexDb) (index : PhysicalIndex) (id : Uuid) (entry : Entry) : IndexDb :=
  { db with
    held := update db.held index (update (db.held index) id (some entry)) }

/-- The alias points to another index. -/
def swapAlias (db : IndexDb) (index : PhysicalIndex) : IndexDb :=
  { db with aliased := some index }

/-- A row that is marked dirty. -/
def Dirty (doc : ProviderDocument) : Prop := doc.indexDirtySince ≠ none
  deriving Decidable

/-- The mark of a row is cleared. -/
def cleaned (now : Instant) (doc : ProviderDocument) : ProviderDocument :=
  { doc with
    indexDirtySince := none
    indexedAt := some now }

/-- The mark of one row is cleared. -/
def clearRow (db : IndexDb) (id : Uuid) (now : Instant) : IndexDb :=
  { db with store := { db.store with
      documents := db.store.documents.updateRow id (cleaned now) } }

/-- The marks of all rows are cleared. -/
def clearAll (db : IndexDb) (now : Instant) : IndexDb :=
  { db with store := { db.store with
      documents := db.store.documents.mapRows fun doc =>
        if Dirty doc then cleaned now doc else doc } }

end IndexDb

/-! ## Sweeps and rebuilds -/

/-- A row as a call has read it. -/
structure Copy where
  doc : ProviderDocument
  version : ℕ
  deriving DecidableEq

/-- The professional of the copy. -/
def Copy.id (c : Copy) : Uuid := c.doc.professionalId

/-- A document that is about to be pushed. -/
structure Built where
  version : ℕ
  document : ProviderSearchDocument
  deriving DecidableEq

/-- The professional of the document. -/
def Built.id (b : Built) : Uuid := b.document.professionalId

/-- A rebuild: where it writes, what it has read so far, and the batch of the sweep it was called
by, if it was. -/
structure Reindex where
  mappingVersion : ℕ
  target : PhysicalIndex
  seen : List Copy
  after : Option Uuid
  batch : Option (List Copy)
  deriving DecidableEq

/-- Where a call stands. -/
inductive IndexPlace where
  | idle
  | editing (e : Edit)
  | sweeping (mappingVersion batchSize : ℕ)
  | checking (mappingVersion : ℕ) (batch : List Copy)
  | locating (mappingVersion : ℕ) (batch : List Copy)
  | creating (mappingVersion : ℕ) (batch : List Copy)
  | pointing (batch : List Copy) (physical : PhysicalIndex)
  | building (batch : List Copy) (physical : PhysicalIndex)
  | pushing (batch : List Copy) (physical : PhysicalIndex) (docs : List Built)
  | deleting (batch : List Copy) (physical : PhysicalIndex) (gone : List Copy)
  | clearing (physical : PhysicalIndex) (rest : List Copy)
  | targeting (mappingVersion : ℕ) (batch : Option (List Copy))
  | starting (mappingVersion : ℕ) (batch : Option (List Copy))
  | initializing (mappingVersion : ℕ) (batch : Option (List Copy))
  | paging (r : Reindex)
  | pageBuilding (r : Reindex) (page : List Copy)
  | pagePushing (r : Reindex) (page : List Copy) (docs : List Built)
  | swapping (r : Reindex)
  | recording (r : Reindex)
  | clearingAll (r : Reindex)
  | returned
  | failed
  deriving DecidableEq

/-- A call there still runs. -/
def IndexPlace.running : IndexPlace → Bool
  | idle | returned | failed => false
  | _ => true

/-- What a call is asked: a sweep and a rebuild know the mapping version of their build. -/
inductive IndexCall where
  | edit (e : Edit)
  | flushDirty (mappingVersion batchSize : ℕ)
  | fullReindex (mappingVersion : ℕ)

/-- A `timestamptz` in microseconds, read into a `Date` in milliseconds. -/
def toDate (t : Instant) : Instant := t / 1000 * 1000

section Statements

variable (now : Instant) (db : IndexDb)

abbrev IndexNext := Next IndexDb Unit IndexPlace

def copyOf (doc : ProviderDocument) : Copy := ⟨doc, db.version doc.professionalId⟩

/-- The dirty rows, the oldest mark first. -/
def dirtyBatch (batchSize : ℕ) : List Copy :=
  (((db.store.documents.rows.filter IndexDb.Dirty).mergeSort fun a b =>
    a.indexDirtySince.getD 0 ≤ b.indexDirtySince.getD 0).take batchSize).map (copyOf db)

/-- A page of rows by id. -/
def nextPage (after : Option Uuid) : List Copy :=
  (((db.store.documents.rows.filter fun doc => ∀ id ∈ after, id < doc.professionalId).mergeSort
    fun a b => a.professionalId ≤ b.professionalId).take 200).map (copyOf db)

/-- `toSearchDocuments` of the rows of a batch that are not deleted. -/
def buildDocuments (batch : List Copy) : List Built :=
  (batch.filter fun c => ¬c.doc.profile.isDeleted).map fun c =>
    ⟨c.version, toSearchDocument c.doc (db.store.signals.row c.id)⟩

/-- The rows of a batch that are deleted. -/
def goneOf (batch : List Copy) : List Copy := batch.filter fun c => c.doc.profile.isDeleted

/-- `flushDirty` reads its batch. -/
def sweep (mappingVersion batchSize : ℕ) : IndexNext :=
  match dirtyBatch db batchSize with
  | [] => .goes db .returned
  | c :: batch => .goes db (.checking mappingVersion (c :: batch))

/-- `staleMappingVersion`. -/
def check (mappingVersion : ℕ) (batch : List Copy) : IndexNext :=
  match db.state with
  | none => .goes db (.locating mappingVersion batch)
  | some state =>
    if state.mappingVersion < mappingVersion then .goes db (.targeting mappingVersion (some batch))
    else .goes db (.locating mappingVersion batch)

/-- `currentPhysicalIndex` of a sweep. -/
def locate (mappingVersion : ℕ) (batch : List Copy) : IndexNext :=
  match db.state with
  | some state => .goes db (.pointing batch state.physicalIndex)
  | none => .goes db (.creating mappingVersion batch)

def physicalIndexName (mappingVersion : ℕ) : PhysicalIndex := ⟨mappingVersion, 0⟩

/-- The state is created, unless it has been. -/
def createState (mappingVersion : ℕ) : IndexDb :=
  match db.state with
  | some _ => db
  | none => { db with state := some ⟨physicalIndexName mappingVersion, mappingVersion⟩ }

/-- The index that a rebuild of another one writes. -/
def reindexFrom (mappingVersion : ℕ) (current : PhysicalIndex) (batch : Option (List Copy)) :
    Reindex :=
  ⟨mappingVersion, ⟨mappingVersion, current.generation + 1⟩, [], none, batch⟩

/-- `fullReindex` looks at the state. -/
def target (mappingVersion : ℕ) (batch : Option (List Copy)) : IndexNext :=
  match db.state with
  | some state => .goes db (.paging (reindexFrom mappingVersion state.physicalIndex batch))
  | none => .goes db (.starting mappingVersion batch)

/-- `currentPhysicalIndex` of a rebuild that has found no state: it looks again. -/
def startReindex (mappingVersion : ℕ) (batch : Option (List Copy)) : IndexNext :=
  match db.state with
  | some state => .goes db (.paging (reindexFrom mappingVersion state.physicalIndex batch))
  | none => .goes db (.initializing mappingVersion batch)

/-- A page is read; the last one is empty. -/
def readPage (r : Reindex) : IndexNext :=
  match nextPage db r.after with
  | [] => .goes db (.swapping r)
  | c :: page => .goes db (.pageBuilding r (c :: page))

/-- The next document of a bulk. -/
def push (index : PhysicalIndex) (b : Built) : IndexDb :=
  db.put index b.id ⟨b.version, some b.document⟩

/-- The next document of a sweep goes to the index. -/
def pushBatch (batch : List Copy) (physical : PhysicalIndex) (docs : List Built) : IndexNext :=
  match docs with
  | [] => .goes db (.deleting batch physical (goneOf batch))
  | b :: docs => .goes (push db physical b) (.pushing batch physical docs)

/-- The next document of a page goes to the index. -/
def pushPage (r : Reindex) (page : List Copy) (docs : List Built) : IndexNext :=
  match docs with
  | [] =>
    .goes db (.paging { r with
      seen := r.seen ++ page
      after := page.getLast?.map (·.id) })
  | b :: docs => .goes (push db r.target b) (.pagePushing r page docs)

/-- `deleteDocument` of the next deleted row. -/
def deleteGone (batch : List Copy) (physical : PhysicalIndex) (gone : List Copy) : IndexNext :=
  match gone with
  | [] => .goes db (.clearing physical batch)
  | c :: gone => .goes (db.put physical c.id ⟨c.version, none⟩) (.deleting batch physical gone)

/-- The mark of a row is not later than the one its copy had. -/
def Clears (c : Copy) : Prop :=
  ∃ doc, db.row c.id = some doc ∧ ∃ mark, doc.indexDirtySince = some mark ∧
    ∃ seen, c.doc.indexDirtySince = some seen ∧ mark ≤ toDate seen

instance (c : Copy) : Decidable (Clears db c) :=
  match h : db.row c.id with
  | none => isFalse (by simp [Clears, h])
  | some doc =>
    match hm : doc.indexDirtySince, hs : c.doc.indexDirtySince with
    | some mark, some seen => decidable_of_iff (mark ≤ toDate seen) (by simp [Clears, h, hm, hs])
    | none, _ => isFalse (by simp [Clears, h, hm])
    | _, none => isFalse (by simp [Clears, hs])

/-- The `UPDATE … WHERE index_dirty_since <= :seen` of the next row. -/
def clearNext (physical : PhysicalIndex) (rest : List Copy) : IndexNext :=
  match rest with
  | [] => .goes db .returned
  | c :: rest =>
    .goes (if Clears db c then db.clearRow c.id now else db) (.clearing physical rest)

/-- The state names the rebuilt index. -/
def recordState (r : Reindex) : IndexDb :=
  match db.state with
  | none => db
  | some _ => { db with state := some ⟨r.target, r.mappingVersion⟩ }

/-- Where a rebuild goes on: to the sweep it was called by. -/
def afterReindex (r : Reindex) : IndexPlace :=
  match r.batch with
  | none => .returned
  | some batch => .building batch r.target

/-- The statement of a call at its place. -/
def indexStatement (place : IndexPlace) : IndexNext :=
  match place with
  | .editing e => .goes (db.edit e now) .returned
  | .sweeping mappingVersion batchSize => sweep db mappingVersion batchSize
  | .checking mappingVersion batch => check db mappingVersion batch
  | .locating mappingVersion batch => locate db mappingVersion batch
  | .creating mappingVersion batch =>
    .goes (createState db mappingVersion) (.pointing batch (physicalIndexName mappingVersion))
  | .pointing batch physical => .goes (db.swapAlias physical) (.building batch physical)
  | .building batch physical => .goes db (.pushing batch physical (buildDocuments db batch))
  | .pushing batch physical docs => pushBatch db batch physical docs
  | .deleting batch physical gone => deleteGone db batch physical gone
  | .clearing physical rest => clearNext now db physical rest
  | .targeting mappingVersion batch => target db mappingVersion batch
  | .starting mappingVersion batch => startReindex db mappingVersion batch
  | .initializing mappingVersion batch =>
    .goes (createState db mappingVersion)
      (.paging (reindexFrom mappingVersion (physicalIndexName mappingVersion) batch))
  | .paging r => readPage db r
  | .pageBuilding r page => .goes db (.pagePushing r page (buildDocuments db page))
  | .pagePushing r page docs => pushPage db r page docs
  | .swapping r => .goes (db.swapAlias r.target) (.recording r)
  | .recording r => .goes (recordState db r) (.clearingAll r)
  | .clearingAll r => .goes (db.clearAll now) (afterReindex r)
  | _ => .waits

end Statements

/-- Where a call starts. -/
def IndexCall.place : IndexCall → IndexPlace
  | edit e => .editing e
  | flushDirty mappingVersion batchSize => .sweeping mappingVersion batchSize
  | fullReindex mappingVersion => .targeting mappingVersion none

/-- Edits, sweeps and rebuilds at work. -/
def indexer : Service IndexDb Unit IndexPlace IndexCall Instant where
  commit := fun db _ => db
  rollback := fun db _ => db
  idle := .idle
  failed := .failed
  running := IndexPlace.running
  first := IndexCall.place
  statement := fun now db _ place => indexStatement now db place

end BeauClick.Search
