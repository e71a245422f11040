import BeauClick.Lib.ReadCommitted
import BeauClick.Lib.Transactions
import BeauClick.Media.Objects

/-!
# The life of a media object

`MediaService` (`libs/media/src/media.service.ts`), statement by statement, on one object: its row,
the abuse reports about it, and the bytes at its key.
-/

namespace BeauClick.Media

open ReadCommitted Transactions

/-! ## Rows and errors -/

/-- `ABUSE_REPORT_STATUSES`. -/
inductive AbuseReportStatus where
  | open
  | upheld
  | rejected
  deriving DecidableEq

/-- `ABUSE_REPORT_REASONS`. -/
inductive AbuseReportReason where
  | notOwnWork
  | explicit
  | misleading
  | personalData
  | other
  deriving DecidableEq

/-- A row of `media.abuse_reports`. -/
structure MediaAbuseReportEntity where
  reportedBy : Uuid
  reason : AbuseReportReason
  note : Option String
  status : AbuseReportStatus
  decidedBy : Option Uuid
  decidedAt : Option Instant
  decisionReason : Option String

/-- Why a call is refused. -/
inductive MediaError where
  | notFoundOrNotYours
  | notUploaded
  | tooManyBytes (maxBytes : ℕ)
  | notAnImage
  | tooSmall (minEdgePx : ℕ)
  | tooLarge (maxEdgePx : ℕ)
  | moreThanDeclared
  | alreadyDecided
  deriving DecidableEq

/-- One object.  `checked` is kept by nobody: it is what the `finalize` that has stored the object
has read. -/
structure MediaDb where
  object : Versioned ℕ Unit MediaObjectEntity
  reports : Versioned ℕ Uuid MediaAbuseReportEntity
  /-- What the store has at the key. -/
  bytes : Option Buffer
  checked : Option Buffer

namespace MediaDb

/-- Transaction `pid` commits. -/
def commit (db : MediaDb) (pid : ℕ) : MediaDb :=
  { db with object := db.object.commit pid, reports := db.reports.commit pid }

/-- Transaction `pid` rolls back. -/
def rollback (db : MediaDb) (pid : ℕ) : MediaDb :=
  { db with object := db.object.rollback pid, reports := db.reports.rollback pid }

end MediaDb

/-! ## Calls -/

/-- The driver terminates uploads at the API. -/
structure MediaConfig where
  direct : Bool

/-- The input of `reportAbuse`. -/
structure ReportInput where
  reportedBy : Uuid
  reason : AbuseReportReason
  note : Option String
  deriving DecidableEq

/-- `decision` of `decideAbuseReport`. -/
inductive AbuseDecision where
  | uphold
  | reject
  deriving DecidableEq

/-- The input of `decideAbuseReport`. -/
structure DecisionInput where
  reportId : Uuid
  decision : AbuseDecision
  actorUserId : Uuid
  reason : String
  deriving DecidableEq

/-- What a call is asked for. -/
inductive MediaRequest where
  | acceptDirectUpload (declaredBytes : ℕ) (body : Buffer)
  | finalize (ownerUserId : Uuid)
  | remove (ownerUserId : Uuid)
  | reapExpiredGrants
  | reportAbuse (i : ReportInput)
  | decideAbuseReport (i : DecisionInput)

/-- What a statement finds outside the tables: the clock, the next `uuidv7`, and whether the store
answers. -/
structure MediaEnv where
  now : Instant
  uuid : Uuid
  answers : Bool

/-- Where a call stands. -/
inductive MediaPlace where
  | idle
  | failed
  | refused (e : MediaError)
  | returned (row : MediaObjectEntity)
  | finished
  -- `acceptDirectUpload`
  | findByKey (declaredBytes : ℕ) (body : Buffer)
  | write (body : Buffer)
  -- `finalize`
  | findOne (ownerUserId : Uuid)
  | head (row : MediaObjectEntity)
  | readHeader (row : MediaObjectEntity) (byteSize : ℕ)
  /-- The header was read from `object`; the call keeps what the probe has told. -/
  | claim (row : MediaObjectEntity) (byteSize : ℕ) (probed : ProbedImage) (object : Buffer)
  | findCurrent
  | findStored
  | discardBytes (e : MediaError)
  | discardRow (e : MediaError)
  | reject (e : MediaError)
  -- `markDeletedOwnedIfLive`, within a transaction
  | findLive (ownerUserId : Uuid)
  | markDeleted
  | finishRemove
  -- `reapExpiredGrants`
  | findStale
  | reap
  -- `reportAbuse`
  | findReportable (i : ReportInput)
  | insertReport (i : ReportInput)
  -- `decideAbuseReport`, within a transaction
  | findReport (i : DecisionInput)
  | decideReport (i : DecisionInput)
  | findReported (i : DecisionInput)
  | takeDown (i : DecisionInput)
  | finishDecide (removed : Bool)
  /-- The bytes of an object whose row is marked deleted. -/
  | deleteBytes
  deriving DecidableEq

/-! ## The statements -/

/-- `finalize` sets the columns. -/
def MediaObjectEntity.store (x : MediaObjectEntity) (now : Instant) (probed : ProbedImage)
    (byteSize : ℕ) : MediaObjectEntity :=
  { x with
    status := .stored
    contentType := some probed.format
    byteSize := some byteSize
    width := some probed.width
    height := some probed.height
    finalizedAt := some now }

section Statement

variable (config : MediaConfig) (env : MediaEnv) (db : MediaDb) (pid : ℕ)

/-- `acceptDirectUpload`. -/
def uploadStatement : MediaPlace → Next MediaDb Unit MediaPlace
  | .findByKey declaredBytes body =>
    if config.direct = false then .throws (.refused .notFoundOrNotYours)
    else
      match db.object.get pid () with
      | none => .throws (.refused .notFoundOrNotYours)
      | some row =>
        if row.status ≠ .pending then .throws (.refused .notFoundOrNotYours)
        else if declaredBytes < body.length ∨ row.purpose.policy.maxBytes < body.length then
          .throws (.refused .moreThanDeclared)
        else .goes db (.write body)
  | .write body =>
    if env.answers then .goes { db with bytes := some body } .finished else .throws .failed
  | _ => .waits

/-- `finalize`, with `discard`. -/
def finalizeStatement : MediaPlace → Next MediaDb Unit MediaPlace
  | .findOne ownerUserId =>
    match db.object.get pid () with
    | none => .throws (.refused .notFoundOrNotYours)
    | some row =>
      if row.ownerUserId ≠ ownerUserId ∨ row.status = .deleted then
        .throws (.refused .notFoundOrNotYours)
      else if row.status = .stored then .goes db (.returned row)
      else .goes db (.head row)
  | .head row =>
    if env.answers then
      match db.bytes with
      | none => .throws (.refused .notUploaded)
      | some object =>
        if object.length = 0 ∨ row.purpose.policy.maxBytes < object.length then
          .goes db (.discardBytes (.tooManyBytes row.purpose.policy.maxBytes))
        else .goes db (.readHeader row object.length)
    else .throws .failed
  | .readHeader row byteSize =>
    if env.answers then
      match db.bytes with
      | none => .throws .failed
      | some object =>
        match probeImage (object.take (min imageProbeBytes byteSize)) with
        | none => .goes db (.discardBytes .notAnImage)
        | some probed =>
          let policy := row.purpose.policy
          if probed.width < policy.minEdgePx ∨ probed.height < policy.minEdgePx then
            .goes db (.discardBytes (.tooSmall policy.minEdgePx))
          else if policy.maxEdgePx < probed.width ∨ policy.maxEdgePx < probed.height then
            .goes db (.discardBytes (.tooLarge policy.maxEdgePx))
          else .goes db (.claim row byteSize probed object)
    else .throws .failed
  | .claim _ byteSize probed object =>
    match db.object.update pid () (fun x => x.status = .pending)
        (·.store env.now probed byteSize) with
    | .waits => .waits
    | .done _ t =>
      .goes { db with object := t.commit pid, checked := some object } .findStored
    | _ => .goes db .findCurrent
  | .findCurrent =>
    match db.object.get pid () with
    | none => .throws (.refused .notFoundOrNotYours)
    | some current =>
      if current.status = .stored then .goes db (.returned current)
      else .throws (.refused .notFoundOrNotYours)
  | .findStored =>
    match db.object.get pid () with
    | none => .throws .failed
    | some row => .goes db (.returned row)
  | .discardBytes e =>
    if env.answers then .goes { db with bytes := none } (.discardRow e)
    else .goes db (.discardRow e)
  | .discardRow e =>
    match db.object.update pid () (fun _ => True) (·.delete env.now) with
    | .waits => .waits
    | .done _ t => .goes { db with object := t.commit pid } (.reject e)
    | _ => .goes db (.reject e)
  | .reject e => .throws (.refused e)
  | _ => .waits

/-- `markDeletedOwnedIfLive` with `purgeBytes`, and `reapExpiredGrants`. -/
def removeStatement : MediaPlace → Next MediaDb Unit MediaPlace
  | .findLive ownerUserId =>
    match db.object.get pid () with
    | none => .commits .finished
    | some row =>
      if row.ownerUserId ≠ ownerUserId ∨ row.status = .deleted then .commits .finished
      else .goes db .markDeleted
  | .markDeleted =>
    match db.object.update pid () (fun _ => True) (·.delete env.now) with
    | .waits => .waits
    | .done _ t => .goes { db with object := t } .finishRemove
    | _ => .throws .failed
  | .finishRemove => .commits .deleteBytes
  | .findStale =>
    match db.object.get pid () with
    | none => .goes db .finished
    | some row =>
      if row.status = .pending ∧ row.createdAt < env.now - uploadGrantTtl then .goes db .reap
      else .goes db .finished
  | .reap =>
    match db.object.update pid () (fun x => x.status = .pending) (·.delete env.now) with
    | .waits => .waits
    | .done _ t => .goes { db with object := t.commit pid } .deleteBytes
    | _ => .goes db .finished
  | .deleteBytes =>
    if env.answers then .goes { db with bytes := none } .finished else .goes db .finished
  | _ => .waits

/-- `reportAbuse` and `decideAbuseReport`. -/
def reportStatement : MediaPlace → Next MediaDb Unit MediaPlace
  | .findReportable i =>
    match db.object.get pid () with
    | none => .throws (.refused .notFoundOrNotYours)
    | some row =>
      if row.status ≠ .stored ∨ row.isPublic = false then .throws (.refused .notFoundOrNotYours)
      else .goes db (.insertReport i)
  | .insertReport i =>
    match db.reports.insert pid env.uuid ⟨i.reportedBy, i.reason, i.note, .open, none, none, none⟩
        (fun _ => False) with
    | .waits => .waits
    | .done _ t => .goes { db with reports := t.commit pid } .finished
    | _ => .throws .failed
  | .findReport i =>
    match db.reports.get pid i.reportId with
    | none => .throws (.refused .notFoundOrNotYours)
    | some _ => .goes db (.decideReport i)
  | .decideReport i =>
    match db.reports.update pid i.reportId (fun r => r.status = .open) (fun r =>
        { r with
          status := if i.decision = .uphold then .upheld else .rejected
          decidedBy := some i.actorUserId
          decidedAt := some env.now
          decisionReason := some i.reason }) with
    | .waits => .waits
    | .done _ t =>
      if i.decision = .uphold then .goes { db with reports := t } (.findReported i)
      else .goes { db with reports := t } (.finishDecide false)
    | _ => .throws (.refused .alreadyDecided)
  | .findReported i =>
    match db.object.get pid () with
    | none => .goes db (.finishDecide false)
    | some removed =>
      if removed.status = .stored then .goes db (.takeDown i) else .goes db (.finishDecide true)
  | .takeDown i =>
    match db.object.update pid () (fun _ => True)
        (fun x => { x.delete env.now with takenDownBy := some i.actorUserId }) with
    | .waits => .waits
    | .done _ t => .goes { db with object := t } (.finishDecide true)
    | _ => .goes db (.finishDecide true)
  | .finishDecide true => .commits .deleteBytes
  | .finishDecide false => .commits .finished
  | _ => .waits

end Statement

/-- The part of the service that takes the statement of a place. -/
inductive Part where
  | upload
  | finalize
  | remove
  | report

/-- What a call is in the middle of. -/
def MediaPlace.part : MediaPlace → Part
  | .findByKey .. | .write _ => .upload
  | .findLive _ | .markDeleted | .finishRemove | .findStale | .reap | .deleteBytes => .remove
  | .findReportable _ | .insertReport _ | .findReport _ | .decideReport _ | .findReported _
  | .takeDown _ | .finishDecide _ => .report
  | _ => .finalize

/-- The statement of a call at its place. -/
def mediaStatement (config : MediaConfig) (env : MediaEnv) (db : MediaDb) (pid : ℕ)
    (place : MediaPlace) : Next MediaDb Unit MediaPlace :=
  match place.part with
  | .upload => uploadStatement config env db pid place
  | .finalize => finalizeStatement env db pid place
  | .remove => removeStatement env db pid place
  | .report => reportStatement env db pid place

/-- The call has statements to take. -/
def MediaPlace.running : MediaPlace → Bool
  | .idle | .failed | .refused _ | .returned _ | .finished => false
  | _ => true

/-- Where a call starts. -/
def MediaRequest.first : MediaRequest → MediaPlace
  | .acceptDirectUpload declaredBytes body => .findByKey declaredBytes body
  | .finalize ownerUserId => .findOne ownerUserId
  | .remove ownerUserId => .findLive ownerUserId
  | .reapExpiredGrants => .findStale
  | .reportAbuse i => .findReportable i
  | .decideAbuseReport i => .findReport i

/-- Any number of calls about the object. -/
def mediaService (config : MediaConfig) :
    Service MediaDb Unit MediaPlace MediaRequest MediaEnv where
  commit := MediaDb.commit
  rollback := MediaDb.rollback
  idle := .idle
  failed := .failed
  running := MediaPlace.running
  first := MediaRequest.first
  statement := mediaStatement config

end BeauClick.Media
