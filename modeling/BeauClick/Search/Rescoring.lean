import BeauClick.Lib.ReadCommitted
import BeauClick.Lib.Transactions
import BeauClick.Search.Documents

/-!
# Who rescores a document

The four methods of `SearchIndexerService`
(`services/search/src/indexing/search-indexer.service.ts`) that end in `rescore`, statement by
statement, for the events of one professional: `applyProfessional` and `applyMedia`, each statement
of which is a transaction of its own, and `applySignal` and `applyRatingSignal`, each of which is
one transaction.

The platform's mean rating does not change, so it is left to the scorer.
-/

namespace BeauClick.Search

open ReadCommitted ReadCommitted.Versioned Runs Transactions Option Function

/-! ## Facts -/

/-- What `rescore` takes of a document: whether it is verified, and what `profileCompleteness` is
asked. -/
structure DocumentFacts where
  verified : Bool
  displayName : String
  bio : Option String
  cityId : Option Uuid
  serviceCount : ℕ
  deriving DecidableEq

/-- The facts of a document. -/
def ProviderDocument.facts (doc : ProviderDocument) : DocumentFacts where
  verified := doc.profile.verificationStatus = "verified"
  displayName := doc.profile.displayName
  bio := doc.profile.bio
  cityId := doc.profile.cityId
  serviceCount := doc.catalogue.services.length

/-- `scoreProvider` of what `rescore` puts together. -/
abbrev FactScorer := DocumentFacts → RankingSignals → RankingScore

/-- The document after the `UPDATE` of `rescore`. -/
def rescored (ranking : RankingScore) (now : Instant) (doc : ProviderDocument) :
    ProviderDocument :=
  { doc with
    ranking := ranking
    indexDirtySince := some now }

/-! ## Tables -/

/-- The rows of one professional, and the events that were claimed. -/
structure SearchDb where
  documents : Versioned ℕ Unit ProviderDocument
  signals : Versioned ℕ Unit RankingSignals
  applications : Versioned ℕ SignalApplication Instant

namespace SearchDb

/-- Transaction `pid` commits. -/
def commit (db : SearchDb) (pid : ℕ) : SearchDb where
  documents := db.documents.commit pid
  signals := db.signals.commit pid
  applications := db.applications.commit pid

/-- Transaction `pid` rolls back. -/
def rollback (db : SearchDb) (pid : ℕ) : SearchDb where
  documents := db.documents.rollback pid
  signals := db.signals.rollback pid
  applications := db.applications.rollback pid

/-- No rows yet. -/
def empty : SearchDb := ⟨.empty, .empty, .empty⟩

/-- The document that is committed. -/
def document (db : SearchDb) : Option ProviderDocument := db.documents.committed ()

/-- The signals that are committed; without a row they are the defaults. -/
def signalsRow (db : SearchDb) : RankingSignals := (db.signals.committed ()).getD .default

end SearchDb

/-! ## Calls -/

deriving instance DecidableEq for RankingSignals

/-- What moves the counters of a professional. -/
inductive SignalEvent where
  | counter (eventId : Uuid) (signal : RankingSignalName) (occurredAt : Instant)
  | rating (input : RatingSignal)
  deriving DecidableEq

namespace SignalEvent

/-- The key it is claimed under. -/
def application : SignalEvent → SignalApplication
  | counter eventId signal _ => ⟨eventId, signal.signal⟩
  | rating input => ⟨input.eventId, input.signalName⟩

/-- The `UPDATE` of the counters. -/
def move : SignalEvent → RankingSignals → RankingSignals
  | counter _ signal occurredAt => SearchStore.bump signal occurredAt
  | rating input => SearchStore.moveRating input

/-- The sum of the ratings is to be reset: there are none. -/
def drifted : SignalEvent → RankingSignals → Bool
  | counter _ _ _, _ => false
  | rating _, row => row.reviewCount = 0 && row.ratingSum ≠ 0

end SignalEvent

/-- An event of the professional. -/
inductive SearchEvent where
  | professional (projection : ProfessionalProjection)
  | media (projection : ProfessionalMediaProjection)
  | signal (event : SignalEvent)
  deriving DecidableEq

/-- Who calls `rescore`. -/
inductive Rescorer where
  | professional
  | media
  | signal
  deriving DecidableEq

/-- Where a call stands. -/
inductive SearchPlace where
  | idle
  /-- The upsert of `applyProfessional`. -/
  | upsert (projection : ProfessionalProjection)
  /-- The `UPDATE` of `applyMedia`. -/
  | store (projection : ProfessionalMediaProjection)
  /-- `insertOnce` of the claim. -/
  | claim (event : SignalEvent)
  /-- `insertOnce` of the signals. -/
  | ensure (event : SignalEvent)
  | move (event : SignalEvent)
  | reset
  /-- The first read of `rescore`. -/
  | readDocument (caller : Rescorer)
  | readSignals (caller : Rescorer) (facts : DocumentFacts)
  /-- The `UPDATE` of `rescore`. -/
  | score (caller : Rescorer) (facts : DocumentFacts) (row : RankingSignals)
  /-- The transaction of a signal has done its work; it found this document. -/
  | finish (found : Option DocumentFacts)
  | done (applied : Bool)
  | failed
  deriving DecidableEq

namespace SearchPlace

/-- The call has started and has not ended. -/
def running : SearchPlace → Bool
  | idle | done _ | failed => false
  | _ => true

/-- `applyProfessional` has written the document and has still to rescore it. -/
def owes : SearchPlace → Bool
  | readDocument .professional | readSignals .professional _ | score .professional _ _ => true
  | _ => false

end SearchPlace

/-- Where a call starts. -/
def SearchEvent.first : SearchEvent → SearchPlace
  | professional projection => .upsert projection
  | media projection => .store projection
  | signal event => .claim event

/-! ## Statements -/

/-- The upsert of `applyProfessional`. -/
def upsertStatement (now : Instant) (db : SearchDb) (pid : ℕ) (p : ProfessionalProjection) :
    Next SearchDb Empty SearchPlace :=
  if (db.documents.row ()).Locked pid then .waits
  else
    match db.documents.get pid () with
    | none =>
      .goes { db with documents := db.documents.put pid () (SearchStore.inserted p now) }
        (.readDocument .professional)
    | some doc =>
      if doc.revision < p.revision then
        .goes { db with documents := db.documents.put pid () (SearchStore.updated p now doc) }
          (.readDocument .professional)
      else .goes db (.done false)

/-- The `UPDATE` of `applyMedia`. -/
def storeStatement (now : Instant) (db : SearchDb) (pid : ℕ) (m : ProfessionalMediaProjection) :
    Next SearchDb Empty SearchPlace :=
  match db.documents.update pid () (fun doc => doc.revision ≤ m.revision)
      (SearchStore.withImagery m now) with
  | .waits => .waits
  | .done _ documents => .goes { db with documents := documents.commit pid } (.readDocument .media)
  | _ => .goes db (.done false)

/-- `insertOnce` of the claim; an event that has been claimed is left. -/
def claimStatement (now : Instant) (db : SearchDb) (pid : ℕ) (event : SignalEvent) :
    Next SearchDb Empty SearchPlace :=
  match db.applications.insert pid event.application now (fun _ => False) with
  | .waits => .waits
  | .done _ applications => .goes { db with applications := applications } (.ensure event)
  | _ => .commits (.done false)

/-- `insertOnce` of the signals. -/
def ensureStatement (db : SearchDb) (pid : ℕ) (event : SignalEvent) :
    Next SearchDb Empty SearchPlace :=
  match db.signals.insert pid () .default (fun _ => False) with
  | .waits => .waits
  | .done _ signals => .goes { db with signals := signals } (.move event)
  | _ => .goes db (.move event)

/-- The `UPDATE` of the counters. -/
def moveStatement (db : SearchDb) (pid : ℕ) (event : SignalEvent) :
    Next SearchDb Empty SearchPlace :=
  match db.signals.update pid () (fun _ => True) event.move with
  | .waits => .waits
  | .done row signals =>
    .goes { db with signals := signals }
      (if event.drifted row then .reset else .readDocument .signal)
  | _ => .goes db (.readDocument .signal)

/-- The second `UPDATE` of `applyRatingSignal`. -/
def resetStatement (db : SearchDb) (pid : ℕ) : Next SearchDb Empty SearchPlace :=
  match db.signals.update pid () (fun _ => True) fun row => { row with ratingSum := 0 } with
  | .waits => .waits
  | .done _ signals => .goes { db with signals := signals } (.readDocument .signal)
  | _ => .goes db (.readDocument .signal)

/-- Where `rescore` ends: the transaction of a signal has still to commit. -/
def Rescorer.after (caller : Rescorer) (found : Option DocumentFacts) : SearchPlace :=
  match caller with
  | .signal => .finish found
  | _ => .done true

/-- The `UPDATE` of `rescore`, which commits at once outside of a transaction. -/
def scoreStatement (scorer : FactScorer) (now : Instant) (db : SearchDb) (pid : ℕ)
    (caller : Rescorer) (facts : DocumentFacts) (row : RankingSignals) :
    Next SearchDb Empty SearchPlace :=
  match db.documents.update pid () (fun _ => True) (rescored (scorer facts row) now) with
  | .waits => .waits
  | .done _ documents =>
    .goes { db with documents := if caller = .signal then documents else documents.commit pid }
      (caller.after (some facts))
  | _ => .goes db (caller.after (some facts))

/-- The statements, by their place. -/
def searchStatement (scorer : FactScorer) (now : Instant) (db : SearchDb) (pid : ℕ) :
    SearchPlace → Next SearchDb Empty SearchPlace
  | .upsert p => upsertStatement now db pid p
  | .store m => storeStatement now db pid m
  | .claim event => claimStatement now db pid event
  | .ensure event => ensureStatement db pid event
  | .move event => moveStatement db pid event
  | .reset => resetStatement db pid
  | .readDocument caller =>
    match db.documents.get pid () with
    | none => .goes db (caller.after none)
    | some doc => .goes db (.readSignals caller doc.facts)
  | .readSignals caller facts =>
    .goes db (.score caller facts ((db.signals.get pid ()).getD .default))
  | .score caller facts row => scoreStatement scorer now db pid caller facts row
  | .finish _ => .commits (.done true)
  | .idle | .done _ | .failed => .waits

/-- The service.  Outside of a transaction a stop finds nothing to roll back. -/
def searchService (scorer : FactScorer) :
    Service SearchDb Empty SearchPlace SearchEvent Instant where
  commit := SearchDb.commit
  rollback := SearchDb.rollback
  idle := .idle
  failed := .failed
  running := SearchPlace.running
  first := SearchEvent.first
  statement := searchStatement scorer

/-! ## The property -/

/-- The stored score is the score of the stored facts. -/
def Scored (scorer : FactScorer) (db : SearchDb) : Prop :=
  ∀ doc ∈ db.document, doc.ranking = scorer doc.facts db.signalsRow

/-- No call is running, and each event that was delivered was handled. -/
structure Settled (es : List (Step SearchEvent Instant)) (s : System SearchDb Empty SearchPlace) :
    Prop where
  quiet : ∀ pid, (s.calls pid).running = false
  handled : ∀ pid event, ⟨pid, .start event⟩ ∈ es → ∃ pid' applied,
    ⟨pid', .start event⟩ ∈ es ∧ s.calls pid' = .done applied

/-! ## The condition -/

/-- What a rescoring has read is what is committed, where it is about to count: where a statement
of its own writes the score, or its transaction commits. -/
def ReadsCurrent (db : SearchDb) : SearchPlace → Prop
  | .score caller facts row => caller = .signal ∨
      db.document.map (·.facts) = some facts ∧ db.signalsRow = row
  | .finish found => db.document.map (·.facts) = found
  | _ => True

instance (db : SearchDb) : DecidablePred (ReadsCurrent db)
  | .score _ _ _ => inferInstanceAs (Decidable (_ ∨ _ ∧ _))
  | .finish _ => inferInstanceAs (Decidable (_ = _))
  | .idle | .upsert _ | .store _ | .claim _ | .ensure _ | .move _ | .reset | .readDocument _
  | .readSignals _ _ | .done _ | .failed => instDecidableTrue

/-- A call rescores from what is there, and is not stopped between its write of the document and
its rescoring. -/
def Prompt (s : System SearchDb Empty SearchPlace) (e : Step SearchEvent Instant) : Prop :=
  match e.action with
  | .start _ => True
  | .statement _ => ReadsCurrent s.db (s.calls e.pid)
  | .die => (s.calls e.pid).owes = false

instance (s : System SearchDb Empty SearchPlace) : DecidablePred (Prompt s)
  | ⟨_, .start _⟩ => instDecidableTrue
  | ⟨pid, .statement _⟩ => inferInstanceAs (Decidable (ReadsCurrent s.db (s.calls pid)))
  | ⟨pid, .die⟩ => inferInstanceAs (Decidable ((s.calls pid).owes = false))

/-- So it is, or another call has written the document and has still to rescore it. -/
def Unbroken (s : System SearchDb Empty SearchPlace) (e : Step SearchEvent Instant) : Prop :=
  Prompt s e ∨ ∃ q, q ≠ e.pid ∧ (s.calls q).owes = true

/-! ## What a call relies on -/

section Work

variable {scorer : FactScorer} {db db' : SearchDb} {p q : ℕ} {place place' : SearchPlace}
  {now : Instant} {row : RankingSignals} {event : SignalEvent} {caller : Rescorer}

/-- What a call has written at its place, and that rows it has read are there. -/
def SearchWork (scorer : FactScorer) (db : SearchDb) (pid : ℕ) : SearchPlace → Prop
  | .move _ => db.documents.Untouched pid ∧ (db.signals.get pid ()).isSome
  | .reset | .readDocument .signal | .finish none =>
    db.documents.Untouched pid ∧ ∃ row, db.signals.Wrote pid () row
  | .readSignals .signal _ =>
    db.documents.Untouched pid ∧ (∃ row, db.signals.Wrote pid () row) ∧ db.document.isSome
  | .score .signal _ row =>
    db.documents.Untouched pid ∧ db.signals.Wrote pid () row ∧ db.document.isSome
  | .finish (some facts) => ∃ doc row now,
    db.documents.row () = ⟨some doc, some (pid, rescored (scorer facts row) now doc)⟩ ∧
      db.signals.Wrote pid () row
  | .readSignals _ _ | .score _ _ _ =>
    db.documents.Untouched pid ∧ db.signals.Untouched pid ∧ db.document.isSome
  | _ => db.documents.Untouched pid ∧ db.signals.Untouched pid

/-- Rows that are committed stay. -/
structure Grows (db db' : SearchDb) : Prop where
  document : db.document.isSome → db'.document.isSome
  signals : (db.signals.committed ()).isSome → (db'.signals.committed ()).isSome

/-- What a step leaves to the call beside it. -/
structure Beside (q : ℕ) (db db' : SearchDb) : Prop where
  documents : Others q db.documents db'.documents
  signals : Others q db.signals db'.signals
  grows : Grows db db'

theorem Grows.refl (db : SearchDb) : Grows db db := ⟨id, id⟩

theorem Grows.trans {db'' : SearchDb} (h : Grows db db') (h' : Grows db' db'') : Grows db db'' :=
  ⟨h'.document ∘ h.document, h'.signals ∘ h.signals⟩

theorem searchWork_beside (h : SearchWork scorer db q place) (hb : Beside q db db') :
    SearchWork scorer db' q place := by
  have hd := hb.documents
  have hs := hb.signals
  have hwrote : (∃ row, db.signals.Wrote q () row) → ∃ row, db'.signals.Wrote q () row :=
    fun ⟨row, hrow⟩ => ⟨row, hs.wrote_iff.2 hrow⟩
  cases place with
  | move =>
    refine ⟨hd.untouched h.1, ?_⟩
    by_cases hw : (db.signals.row ()).WrittenBy q
    · rw [Versioned.get, hs.row_eq hw]
      exact h.2
    · have hget := h.2
      rw [get_of_not hw] at hget
      rw [get_of_not fun hw' => hw (hs.writtenBy_iff.1 hw')]
      exact hb.grows.signals hget
  | reset => exact ⟨hd.untouched h.1, hwrote h.2⟩
  | readDocument caller =>
    cases caller with
    | signal => exact ⟨hd.untouched h.1, hwrote h.2⟩
    | professional | media => exact ⟨hd.untouched h.1, hs.untouched h.2⟩
  | readSignals caller =>
    cases caller with
    | signal => exact ⟨hd.untouched h.1, hwrote h.2.1, hb.grows.document h.2.2⟩
    | professional | media => exact ⟨hd.untouched h.1, hs.untouched h.2.1, hb.grows.document h.2.2⟩
  | score caller =>
    cases caller with
    | signal => exact ⟨hd.untouched h.1, hs.wrote_iff.2 h.2.1, hb.grows.document h.2.2⟩
    | professional | media => exact ⟨hd.untouched h.1, hs.untouched h.2.1, hb.grows.document h.2.2⟩
  | finish found =>
    cases found with
    | none => exact ⟨hd.untouched h.1, hwrote h.2⟩
    | some =>
      obtain ⟨doc, row, now, hrow, hsig⟩ := h
      exact ⟨doc, row, now, hd.row_of hrow, hs.wrote_iff.2 hsig⟩
  | _ => exact ⟨hd.untouched h.1, hs.untouched h.2⟩

/-! ## What a statement does -/

/-- What there is to score, and the score. -/
def SearchDb.shown (db : SearchDb) : Option (DocumentFacts × RankingScore) :=
  db.document.map fun doc => (doc.facts, doc.ranking)

open SearchDb

theorem scored_iff : Scored scorer db ↔
    ∀ shown ∈ db.shown, shown.2 = scorer shown.1 db.signalsRow := by
  unfold Scored shown
  cases db.document <;> simp

theorem Scored.congr (h : Scored scorer db) (hshown : db'.shown = db.shown)
    (hrow : db'.signalsRow = db.signalsRow) : Scored scorer db' := by
  rw [scored_iff, hshown, hrow]
  exact scored_iff.1 h

/-- What a statement does to the facts and the score. -/
inductive Effect (scorer : FactScorer) (db : SearchDb) (place : SearchPlace) (db' : SearchDb)
    (place' : SearchPlace) : Prop where
  | quiet (hshown : db'.shown = db.shown) (hrow : db'.signalsRow = db.signalsRow)
    (howes : place.owes = true → place'.owes = true ∨ db.document = none)
  | upserted (howes : place'.owes = true)
  | scored (caller : Rescorer) (facts : DocumentFacts) (row : RankingSignals) (now : Instant)
    (doc : ProviderDocument) (hplace : place = .score caller facts row)
    (hcaller : caller ≠ .signal) (hdoc : db.document = some doc)
    (hdoc' : db'.document = some (rescored (scorer facts row) now doc))
    (hrow : db'.signalsRow = db.signalsRow)

/-- A statement after which its call goes on. -/
structure Goes (scorer : FactScorer) (db : SearchDb) (pid : ℕ) (place : SearchPlace)
    (db' : SearchDb) (place' : SearchPlace) : Prop where
  beside : ∀ q, q ≠ pid → Beside q db db'
  grows : Grows db db'
  work : SearchWork scorer db' pid place'
  effect : Effect scorer db place db' place'

theorem goes_of_read (hw : SearchWork scorer db p place')
    (howes : place.owes = true → place'.owes = true ∨ db.document = none) :
    Goes scorer db p place db place' :=
  ⟨fun _ _ => ⟨.refl, .refl, .refl db⟩, .refl db, hw, .quiet rfl rfl howes⟩

theorem goes_of_signals (hlock : ¬(db.signals.row ()).Locked p) (hplace : place.owes = false)
    (hw : SearchWork scorer { db with signals := db.signals.write p () row } p place') :
    Goes scorer db p place { db with signals := db.signals.write p () row } place' := by
  have hgrows : Grows db { db with signals := db.signals.write p () row } :=
    ⟨id, fun h => by rw [committed_write]; exact h⟩
  refine ⟨fun q hq => ⟨.refl, others_write hq hlock, hgrows⟩, hgrows, hw, .quiet rfl ?_ ?_⟩
  · simp only [signalsRow, committed_write]
  · rw [hplace]
    rintro ⟨⟩

theorem put_beside (doc : ProviderDocument) (hu : db.documents.Untouched p)
    (hlock : ¬(db.documents.row ()).Locked p) :
    (∀ q, q ≠ p → Beside q db { db with documents := db.documents.put p () doc }) ∧
      Grows db { db with documents := db.documents.put p () doc } ∧
      SearchDb.document { db with documents := db.documents.put p () doc } = some doc := by
  have hdoc : document { db with documents := db.documents.put p () doc } = some doc := by
    rw [document, committed_put hu, update_self]
  have hgrows : Grows db { db with documents := db.documents.put p () doc } :=
    ⟨fun _ => by rw [hdoc]; rfl, id⟩
  exact ⟨fun q hq => ⟨others_put hq hu hlock, .refl, hgrows⟩, hgrows, hdoc⟩

/-- What the proof of one statement has to give. -/
abbrev Shown (scorer : FactScorer) (db : SearchDb) (p : ℕ) (place : SearchPlace) :
    Next SearchDb Empty SearchPlace → Prop :=
  Next.Ends (Goes scorer db p place)
    (fun place' => (∃ applied, place' = .done applied) ∧
      ((∃ event, place = .claim event) ∨ ∃ found, place = .finish found))
    (fun _ => False)

theorem goes_of_upsert {projection : ProfessionalProjection}
    (hw : SearchWork scorer db p (.upsert projection)) :
    Shown scorer db p (.upsert projection) (upsertStatement now db p projection) := by
  obtain ⟨hd, hs⟩ := hw
  unfold upsertStatement
  split
  · trivial
  rename_i hlock
  split
  · obtain ⟨hbeside, hgrows, -⟩ := put_beside (SearchStore.inserted projection now) hd hlock
    exact ⟨hbeside, hgrows, ⟨untouched_put, hs⟩, .upserted rfl⟩
  · rename_i doc hget
    split
    · obtain ⟨hbeside, hgrows, -⟩ :=
        put_beside (SearchStore.updated projection now doc) hd hlock
      exact ⟨hbeside, hgrows, ⟨untouched_put, hs⟩, .upserted rfl⟩
    · exact goes_of_read ⟨hd, hs⟩ (by rintro ⟨⟩)

theorem goes_of_store {projection : ProfessionalMediaProjection}
    (hw : SearchWork scorer db p (.store projection)) :
    Shown scorer db p (.store projection) (storeStatement now db p projection) := by
  obtain ⟨hd, hs⟩ := hw
  unfold storeStatement
  split
  · trivial
  · rename_i doc documents hdone
    obtain ⟨old, hget, -, hlock, -, rfl⟩ := update_eq_done hdone
    obtain ⟨hbeside, hgrows, hdoc⟩ :=
      put_beside (SearchStore.withImagery projection now old) hd hlock
    rw [hd.get_eq] at hget
    have hold : db.document = some old := hget
    refine ⟨hbeside, hgrows, ⟨untouched_put, hs⟩, .quiet ?_ rfl (by rintro ⟨⟩)⟩
    -- the imagery is none of the facts
    show (document { db with documents := db.documents.put p () _ }).map _ =
      db.document.map _
    rw [hdoc, hold]
    rfl
  · exact goes_of_read ⟨hd, hs⟩ (by rintro ⟨⟩)

theorem goes_of_claim (hw : SearchWork scorer db p (.claim event)) :
    Shown scorer db p (.claim event) (claimStatement now db p event) := by
  unfold claimStatement
  split
  · trivial
  · rename_i row applications hdone
    exact ⟨fun _ _ => ⟨.refl, .refl, ⟨id, id⟩⟩, ⟨id, id⟩, hw, .quiet rfl rfl (by rintro ⟨⟩)⟩
  · exact ⟨⟨false, rfl⟩, Or.inl ⟨event, rfl⟩⟩

theorem isSome_of_not_inserted (hwaits : db.signals.insert p () row (fun _ => False) ≠ .waits)
    (hdone : ∀ y t, db.signals.insert p () row (fun _ => False) ≠ .done y t) :
    (db.signals.get p ()).isSome := by
  by_contra hnone
  rw [not_isSome_iff_eq_none] at hnone
  by_cases hlock : (db.signals.row ()).Locked p
  · exact hwaits (by rw [Versioned.insert, if_pos hlock])
  · refine hdone row (db.signals.write p () row) ?_
    rw [insert_eq_of_get hlock hnone, writeChecked_of_free]
    exact fun _ _ _ _ => id

theorem goes_of_ensure (hw : SearchWork scorer db p (.ensure event)) :
    Shown scorer db p (.ensure event) (ensureStatement db p event) := by
  obtain ⟨hd, -⟩ := hw
  unfold ensureStatement
  split
  · trivial
  · rename_i row signals hdone
    obtain ⟨rfl, rfl, hlock, -⟩ := insert_eq_done hdone
    refine goes_of_signals hlock rfl ⟨hd, ?_⟩
    rw [get_write_self]
    rfl
  · rename_i hwaits hdone
    exact goes_of_read ⟨hd, isSome_of_not_inserted hwaits hdone⟩ (by rintro ⟨⟩)

theorem goes_of_move (hw : SearchWork scorer db p (.move event)) :
    Shown scorer db p (.move event) (moveStatement db p event) := by
  obtain ⟨hd, hsome⟩ := hw
  obtain ⟨row, hget⟩ := isSome_iff_exists.1 hsome
  unfold moveStatement
  rcases update_waits_or_done (fun _ => True) event.move hget trivial with hwaits | hdone
  · rw [hwaits]
    trivial
  · rw [hdone]
    obtain ⟨_, _, -, hlock, -⟩ := update_eq_done hdone
    refine goes_of_signals hlock rfl ?_
    have hwork : db.documents.Untouched p ∧
        ∃ row', (db.signals.write p () (event.move row)).Wrote p () row' :=
      ⟨hd, _, wrote_write_self⟩
    split
    · exact hwork
    · exact hwork

theorem goes_of_reset (hw : SearchWork scorer db p .reset) :
    Shown scorer db p .reset (resetStatement db p) := by
  obtain ⟨hd, row, hrow⟩ := hw
  unfold resetStatement
  rcases update_waits_or_done (fun _ => True) (fun row => { row with ratingSum := 0 })
    hrow.get_eq trivial with hwaits | hdone
  · rw [hwaits]
    trivial
  · rw [hdone]
    obtain ⟨_, _, -, hlock, -⟩ := update_eq_done hdone
    exact goes_of_signals hlock rfl ⟨hd, _, wrote_write_self⟩

theorem goes_of_readDocument (hw : SearchWork scorer db p (.readDocument caller)) :
    Shown scorer db p (.readDocument caller)
      (searchStatement scorer now db p (.readDocument caller)) := by
  have hd : db.documents.Untouched p := by cases caller with | _ => exact hw.1
  dsimp only [searchStatement]
  split
  · rename_i hget
    rw [hd.get_eq] at hget
    refine goes_of_read ?_ fun _ => Or.inr hget
    cases caller with | _ => exact hw
  · rename_i doc hget
    rw [hd.get_eq] at hget
    have hsome : db.document.isSome := isSome_of_eq_some hget
    cases caller with
    | signal => exact goes_of_read ⟨hd, hw.2, hsome⟩ (by rintro ⟨⟩)
    | professional => exact goes_of_read ⟨hd, hw.2, hsome⟩ fun _ => Or.inl rfl
    | media => exact goes_of_read ⟨hd, hw.2, hsome⟩ (by rintro ⟨⟩)

theorem goes_of_readSignals {facts : DocumentFacts}
    (hw : SearchWork scorer db p (.readSignals caller facts)) :
    Shown scorer db p (.readSignals caller facts)
      (searchStatement scorer now db p (.readSignals caller facts)) := by
  cases caller with
  | signal =>
    obtain ⟨hd, ⟨row, hrow⟩, hsome⟩ := hw
    have hread : (db.signals.get p ()).getD .default = row := by rw [hrow.get_eq]; rfl
    dsimp only [searchStatement]
    rw [hread]
    exact goes_of_read ⟨hd, hrow, hsome⟩ (by rintro ⟨⟩)
  | professional => exact goes_of_read hw fun _ => Or.inl rfl
  | media => exact goes_of_read hw (by rintro ⟨⟩)

theorem goes_of_score_signal {facts : DocumentFacts}
    (hw : SearchWork scorer db p (.score .signal facts row)) :
    Shown scorer db p (.score .signal facts row)
      (scoreStatement scorer now db p .signal facts row) := by
  obtain ⟨hd, hrow, hsome⟩ := hw
  obtain ⟨doc, hdoc⟩ := isSome_iff_exists.1 hsome
  have hget : db.documents.get p () = some doc := hd.get_eq.trans hdoc
  unfold scoreStatement
  rcases update_waits_or_done (fun _ => True) (rescored (scorer facts row) now) hget trivial
    with hwaits | hdone
  · rw [hwaits]
    trivial
  · rw [hdone]
    obtain ⟨_, _, -, hlock, -⟩ := update_eq_done hdone
    have hsame : document { db with
        documents := db.documents.write p () (rescored (scorer facts row) now doc) } =
          db.document := by
      rfl
    have hgrows : Grows db { db with
        documents := db.documents.write p () (rescored (scorer facts row) now doc) } :=
      ⟨fun h => by rw [hsame]; exact h, id⟩
    refine ⟨fun q hq => ⟨others_write hq hlock, .refl, hgrows⟩, hgrows, ?_,
      .quiet (congrArg (Option.map _) hsame) rfl (by rintro ⟨⟩)⟩
    refine ⟨doc, row, now, ?_, hrow⟩
    show (db.documents.write p () _).row () = _
    rw [Versioned.row_write (hd ()), hget]

theorem goes_of_score {facts : DocumentFacts} (hcaller : caller ≠ .signal)
    (hd : db.documents.Untouched p) (hs : db.signals.Untouched p) (hsome : db.document.isSome) :
    Shown scorer db p (.score caller facts row)
      (scoreStatement scorer now db p caller facts row) := by
  obtain ⟨doc, hdoc⟩ := isSome_iff_exists.1 hsome
  have hget : db.documents.get p () = some doc := hd.get_eq.trans hdoc
  unfold scoreStatement
  rcases update_waits_or_done (fun _ => True) (rescored (scorer facts row) now) hget trivial
    with hwaits | hdone
  · rw [hwaits]
    trivial
  · rw [hdone]
    obtain ⟨_, _, -, hlock, -⟩ := update_eq_done hdone
    dsimp only
    rw [if_neg hcaller]
    obtain ⟨hbeside, hgrows, hdoc'⟩ :=
      put_beside (rescored (scorer facts row) now doc) hd hlock
    have hdone : caller.after (some facts) = .done true := by
      cases caller with
      | signal => exact absurd rfl hcaller
      | _ => rfl
    rw [hdone]
    exact ⟨hbeside, hgrows, ⟨untouched_put, hs⟩,
      .scored caller facts row now doc rfl hcaller hdoc hdoc' rfl⟩

/-- What a statement does.  Only a transaction ends by one: it commits where its event had been
claimed, and where its work is done. -/
theorem shown_searchStatement (hw : SearchWork scorer db p place) :
    Shown scorer db p place (searchStatement scorer now db p place) := by
  cases place with
  | upsert => exact goes_of_upsert hw
  | store => exact goes_of_store hw
  | claim => exact goes_of_claim hw
  | ensure => exact goes_of_ensure hw
  | move => exact goes_of_move hw
  | reset => exact goes_of_reset hw
  | readDocument => exact goes_of_readDocument hw
  | readSignals => exact goes_of_readSignals hw
  | score caller =>
    cases caller with
    | signal => exact goes_of_score_signal hw
    | professional | media => exact goes_of_score (by decide) hw.1 hw.2.1 hw.2.2
  | finish found => exact ⟨⟨true, rfl⟩, Or.inr ⟨found, rfl⟩⟩
  | idle | done | failed => trivial

/-! ## What a transaction leaves -/

theorem beside_commit (hq : q ≠ p) (hgrows : Grows db (db.commit p)) :
    Beside q db (db.commit p) :=
  ⟨others_commit hq, others_commit hq, hgrows⟩

theorem isSome_committed_commit {α : Type} {t : Versioned ℕ Unit α}
    (h : (t.committed ()).isSome) : ((t.commit p).committed ()).isSome := by
  rw [committed_commit]
  by_cases hw : (t.row ()).WrittenBy p
  · obtain ⟨_, hx⟩ := hw
    rw [Wrote.get_eq hx]
    rfl
  · rwa [get_of_not hw]

theorem grows_commit : Grows db (db.commit p) :=
  ⟨isSome_committed_commit, isSome_committed_commit⟩

theorem document_rollback : (db.rollback p).document = db.document :=
  congrFun committed_rollback ()

theorem signalsRow_rollback : (db.rollback p).signalsRow = db.signalsRow := by
  simp only [SearchDb.signalsRow, SearchDb.rollback, committed_rollback]

theorem grows_rollback : Grows db (db.rollback p) := by
  refine ⟨fun h => by rwa [document_rollback], fun h => ?_⟩
  simpa only [SearchDb.rollback, committed_rollback] using h

theorem beside_rollback (hq : q ≠ p) : Beside q db (db.rollback p) :=
  ⟨others_rollback hq, others_rollback hq, grows_rollback⟩

/-- What the calls rely on; no lock is taken beside those on rows. -/
def searchOutline (scorer : FactScorer) : Outline SearchDb Empty SearchPlace Instant where
  Assumes := fun _ _ _ _ => True
  Sound := fun _ => True
  Guarantee := Grows
  Work := SearchWork scorer
  holds := fun _ _ _ => False

/-- Each statement keeps what is projected. -/
theorem searchOutline_proof (scorer : FactScorer) :
    FreeProof (searchService scorer) (searchOutline scorer) where
  refl := Grows.refl
  trans := fun _ _ _ h h' => h.trans h'
  first := by
    intro db pid request hw
    cases request with
    | _ => exact hw
  statement := by
    intro env db pid place _ _ hw
    refine (shown_searchStatement hw).mono (fun db' place' hgoes => ?_) (fun key _ _ _ => key.elim)
      (fun place' h => ?_) fun _ h => h.elim
    · exact ⟨⟨trivial, hgoes.grows, fun q place hq _ hwq =>
        searchWork_beside hwq (hgoes.beside q hq)⟩, hgoes.work⟩
    · obtain ⟨⟨_, rfl⟩, -⟩ := h
      exact ⟨⟨trivial, grows_commit, fun q place hq _ hwq =>
        searchWork_beside hwq (beside_commit hq grows_commit)⟩,
        untouched_commit, untouched_commit⟩
  dies := by
    intro db pid place _ _ _
    exact ⟨⟨trivial, grows_rollback, fun q place hq _ hwq =>
      searchWork_beside hwq (beside_rollback hq)⟩, untouched_rollback, untouched_rollback⟩

/-! ## Scored, or to be scored -/

/-- The score is current, or a call has still to rescore the document that it has written. -/
def ScoredOrOwed (scorer : FactScorer) (s : System SearchDb Empty SearchPlace) : Prop :=
  Scored scorer s.db ∨ ∃ q, (s.calls q).owes = true

theorem scored_of_none (h : db.document = none) : Scored scorer db := by
  intro doc hdoc
  rw [h] at hdoc
  cases hdoc

theorem scored_of_rescored {doc : ProviderDocument} {facts : DocumentFacts}
    (hdoc : db'.document = some (rescored (scorer facts row) now doc)) (hfacts : doc.facts = facts)
    (hrow : db'.signalsRow = row) : Scored scorer db' := by
  intro doc' hdoc'
  cases hdoc.symm.trans hdoc'
  show scorer facts row = scorer doc.facts db'.signalsRow
  rw [hfacts, hrow]

theorem scored_goes (heff : Effect scorer db place db' place') (hreads : ReadsCurrent db place)
    (h : Scored scorer db ∨ place.owes = true) : Scored scorer db' ∨ place'.owes = true := by
  cases heff with
  | quiet hshown hrow howes =>
    rcases h with hscored | howed
    · exact Or.inl (hscored.congr hshown hrow)
    · rcases howes howed with howed' | hnone
      · exact Or.inr howed'
      · exact Or.inl ((scored_of_none hnone).congr hshown hrow)
  | upserted howes => exact Or.inr howes
  | scored caller facts row now doc hplace hcaller hdoc hdoc' hrow =>
    rw [hplace] at hreads
    obtain ⟨hfacts, hread⟩ := Or.resolve_left hreads hcaller
    rw [hdoc] at hfacts
    exact Or.inl (scored_of_rescored hdoc' (some.inj hfacts) (hrow.trans hread))

theorem scored_commits (hw : SearchWork scorer db p place)
    (hends : (∃ event, place = .claim event) ∨ ∃ found, place = .finish found)
    (hreads : ReadsCurrent db place) (h : Scored scorer db ∨ place.owes = true) :
    Scored scorer (db.commit p) := by
  rcases hends with ⟨_, rfl⟩ | ⟨found, rfl⟩
  · obtain ⟨hd, hs⟩ := hw
    have hscored : Scored scorer db := h.resolve_right (by rintro ⟨⟩)
    have hdoc : (db.commit p).document = db.document :=
      congrFun hd.committed_commit ()
    refine hscored.congr (congrArg (Option.map _) hdoc) ?_
    simp only [SearchDb.signalsRow, SearchDb.commit, hs.committed_commit]
  · cases found with
    | none =>
      refine scored_of_none ?_
      have hnone : db.document = none := map_eq_none_iff.1 hreads
      exact (congrFun hw.1.committed_commit ()).trans hnone
    | some facts =>
      obtain ⟨doc, _, _, hrow, hsig⟩ := hw
      have hdoc : db.document = some doc := committed_of_row hrow
      have hfacts : db.document.map (·.facts) = some facts := hreads
      rw [hdoc] at hfacts
      refine scored_of_rescored (wrote_of_row hrow).committed_commit
        (some.inj hfacts) ?_
      rw [SearchDb.signalsRow, SearchDb.commit, hsig.committed_commit]
      rfl

theorem scoredOrOwed_step {s s' : System SearchDb Empty SearchPlace} {e : Step SearchEvent Instant}
    (hholds : (searchOutline scorer).Holds s) (h : ScoredOrOwed scorer s) (hunbroken : Unbroken s e)
    (hstep : (searchService scorer).step s e = some s') : ScoredOrOwed scorer s' := by
  have htook := Service.took_of_step hstep
  obtain ⟨_, hcalls⟩ := htook.calls
  -- who else owes a rescoring still does
  have hothers : (∃ q, q ≠ e.pid ∧ (s.calls q).owes = true) → ScoredOrOwed scorer s' := by
    rintro ⟨q, hq, howes⟩
    refine Or.inr ⟨q, ?_⟩
    rw [hcalls, update_of_ne hq]
    exact howes
  by_cases hother : ∃ q, q ≠ e.pid ∧ (s.calls q).owes = true
  · exact hothers hother
  have hprompt : Prompt s e := hunbroken.resolve_right hother
  have hself : Scored scorer s.db ∨ (s.calls e.pid).owes = true := by
    refine h.imp_right ?_
    rintro ⟨q, howes⟩
    by_cases hq : q = e.pid
    · rwa [← hq]
    · exact absurd ⟨q, hq, howes⟩ hother
  cases htook with
  | starts pid request hidle =>
    have hscored : Scored scorer s.db := hself.resolve_right (by
      rw [hidle]
      rintro ⟨⟩)
    exact Or.inl hscored
  | goes pid env db place hst =>
    have hgoes := (shown_searchStatement (hholds.work pid)).of_goes hst
    rcases scored_goes hgoes.effect hprompt hself with hscored | howes
    · exact Or.inl hscored
    · refine Or.inr ⟨pid, ?_⟩
      show (update s.calls pid place pid).owes = true
      rw [update_self]
      exact howes
  | locks pid env key => exact key.elim
  | commits pid env place hst =>
    have hends := ((shown_searchStatement (hholds.work pid)).of_commits hst).2
    exact Or.inl (scored_commits (hholds.work pid) hends hprompt hself)
  | throws pid env place hst =>
    exact ((shown_searchStatement (hholds.work pid)).of_throws hst).elim
  | dies pid =>
    have hnot : (s.calls pid).owes = false := hprompt
    have hscored : Scored scorer s.db := hself.resolve_right (by
      rw [hnot]
      exact Bool.false_ne_true)
    exact Or.inl (hscored.congr (congrArg (Option.map _) document_rollback) signalsRow_rollback)

/-- Where the steps meet the condition, the stored score is the score of the stored facts whenever
no call is running. -/
theorem scored_run (scorer : FactScorer) {es : List (Step SearchEvent Instant)}
    (hunbroken : Along (searchService scorer).step Unbroken
      ((searchService scorer).start .empty) es) :
    Throughout (searchService scorer).step
      (fun s => (∀ pid, (s.calls pid).running = false) → Scored scorer s.db)
      ((searchService scorer).start .empty) es := by
  have hstart : (searchOutline scorer).Holds ((searchService scorer).start .empty) :=
    (searchOutline_proof scorer).proof.holds_start trivial fun _ => ⟨untouched_empty, untouched_empty⟩
  refine throughout_of_along (I := fun s => (searchOutline scorer).Holds s ∧ ScoredOrOwed scorer s)
    ?_ ?_ ⟨hstart, Or.inl (scored_of_none rfl)⟩ hunbroken
  · rintro s ⟨-, hscored | ⟨q, howes⟩⟩ hquiet
    · exact hscored
    · have hnot := hquiet q
      generalize s.calls q = place at howes hnot
      cases place with
      | readDocument | readSignals | score => cases hnot
      | _ => cases howes
  · rintro s e s' ⟨hholds, hscored⟩ hstep hs
    have hmeets := Outline.meets (O := searchOutline scorer) (fun _ _ _ _ => trivial) s e
    exact ⟨((searchOutline_proof scorer).proof.holds_step hholds hmeets hs).1,
      scoredOrOwed_step hholds hscored hstep hs⟩

end Work

namespace Stopped

/-- A scorer that looks at the verification and at the completed bookings. -/
def scorer : FactScorer := fun facts row =>
  ⟨(if facts.verified then 1 else 0) + row.completedBookings, []⟩

/-- A professional is verified. -/
def verified : SearchEvent :=
  .professional ⟨7, 1, ⟨"Sara", none, none, none, [], [], "verified", false, 0⟩, none⟩

/-- A booking of hers is completed. -/
def completed : SearchEvent := .signal (.counter 3 .bookingCompleted 20)

/-- A call takes some statements. -/
def takes (pid n : ℕ) : List (Step SearchEvent Instant) := List.replicate n ⟨pid, .statement 30⟩

/-- The booking is counted while the profile is applied, and rescored after it. -/
def together : List (Step SearchEvent Instant) :=
  [⟨0, .start verified⟩, ⟨1, .start completed⟩] ++ takes 0 1 ++ takes 1 3 ++ takes 0 3 ++ takes 1 4

/-- The process stops after the upsert, and the event is delivered again. -/
def stopped : List (Step SearchEvent Instant) :=
  [⟨0, .start verified⟩] ++ takes 0 1 ++ [⟨0, .die⟩, ⟨1, .start verified⟩] ++ takes 1 1

end Stopped

theorem scored_run_together :
    Throughout (searchService Stopped.scorer).step
      (fun s => (∀ pid, (s.calls pid).running = false) → Scored Stopped.scorer s.db)
      ((searchService Stopped.scorer).start .empty) Stopped.together := by
  have hprompt : Along (searchService Stopped.scorer).step Prompt
      ((searchService Stopped.scorer).start .empty) Stopped.together := by decide +kernel
  refine scored_run Stopped.scorer ?_
  exact hprompt.of_invariant (I := fun _ => True) (fun _ _ _ _ _ _ => trivial)
    (fun _ _ _ h => Or.inl h) trivial

/-- A stop between the upsert and the rescoring leaves the score of a new document: the event that
is delivered again is dismissed as stale. -/
theorem scored_stop_fails :
    ¬∀ scorer es s, runFrom (searchService scorer).step ((searchService scorer).start .empty) es =
      some s → Settled es s → Scored scorer s.db := by
  intro hall
  obtain ⟨s, hrun, hzero, hone, doc, hdocument, hranking⟩ :
      ∃ s ∈ runFrom (searchService Stopped.scorer).step
        ((searchService Stopped.scorer).start .empty) Stopped.stopped,
        s.calls 0 = .failed ∧ s.calls 1 = .done false ∧
        ∃ doc ∈ s.db.document, doc.ranking ≠ Stopped.scorer doc.facts s.db.signalsRow := by
    decide +kernel
  have hsettle : Settled Stopped.stopped s := by
    refine ⟨fun pid => ?_, fun pid event hev => ?_⟩
    · by_cases h0 : pid = 0
      · rw [h0, show s.calls 0 = _ from hzero]
        rfl
      · by_cases h1 : pid = 1
        · rw [h1, show s.calls 1 = _ from hone]
          rfl
        · have hothers : ∀ e ∈ Stopped.stopped, e.pid ≠ pid := by
            simp [Stopped.stopped, Stopped.takes, Ne.symm h0, Ne.symm h1]
          rw [Service.calls_of_not_mem pid hothers hrun]
          rfl
    · have hverified : event = Stopped.verified := by
        simp [Stopped.stopped, Stopped.takes] at hev
        rcases hev with h | h
        · exact h.2
        · exact h.2
      rw [hverified]
      exact ⟨1, false, by simp [Stopped.stopped], hone⟩
  exact hranking (hall Stopped.scorer Stopped.stopped s hrun hsettle doc hdocument)

end BeauClick.Search
