import BeauClick.Chat.Messages
import BeauClick.Lib.Recorded
import BeauClick.Lib.Removable

/-!
# Moderation and blocking

`ChatModerationService` (`services/chat/src/chat-moderation.service.ts`) beside `sendMessage`,
statement by statement.

Who the recipients of a counterparty are does not change.
-/

namespace BeauClick.Chat

open Locks ReadCommitted Transactions

/-! ## The contract -/

def chatMaxReportNoteCharacters : ℕ := 500

/-- `CHAT_REPORT_REASONS`. -/
inductive ChatReportReason where
  | harassment
  | spam
  | scamOrFraud
  | explicit
  | personalData
  | offPlatformPayment
  | other
  deriving DecidableEq

/-- `CHAT_REPORT_STATUSES`. -/
inductive ChatReportStatus where
  | opened
  | upheld
  | rejected
  deriving DecidableEq

/-- `CHAT_MODERATION_ACTIONS`. -/
inductive ChatModerationAction where
  | warnSender
  | closeConversation
  | restrictSender
  deriving DecidableEq

/-- The limits, and `recipientsFor` of a counterparty and a customer. -/
structure ModerationConfig extends ChatConfig where
  reportsPerDay : ℕ := 5
  recipientsFor : String → Uuid → Uuid → List Uuid

/-- No note, a blank one or a short one. -/
def ChatConfig.isAcceptableReportNote (config : ChatConfig) : Option String → Bool
  | none => true
  | some text =>
    config.trim text = "" ∨ config.chatTextLength (config.trim text) ≤ chatMaxReportNoteCharacters

/-! ## Rows -/

/-- A row of `chat.reports`; `message` is the row that `message_id` refers to. -/
structure ChatReportEntity where
  id : Uuid
  conversationId : Uuid
  customerUserId : Uuid
  message : ChatMessageEntity
  reportedBy : Uuid
  reason : ChatReportReason
  note : Option String
  status : ChatReportStatus
  decidedBy : Option Uuid
  decidedAt : Option Instant
  decisionReason : Option String
  decisionAction : Option ChatModerationAction
  createdAt : Instant
  deriving DecidableEq

/-- The report closes its conversation. -/
def ChatReportEntity.Closes (r : ChatReportEntity) : Prop :=
  r.status = .upheld ∧ r.decisionAction = some .closeConversation
  deriving Decidable

/-- The report restricts the sender of its message. -/
def ChatReportEntity.Restricts (r : ChatReportEntity) (userId : Uuid) : Prop :=
  r.status = .upheld ∧ r.decisionAction = some .restrictSender ∧ r.message.senderUserId = userId
  deriving Decidable

/-- `uq_chat_report_open_per_reporter`. -/
def SameOpen (r r' : ChatReportEntity) : Prop :=
  r.reportedBy = r'.reportedBy ∧ r.conversationId = r'.conversationId ∧ r.status = .opened ∧
    r'.status = .opened
  deriving Decidable

/-- The tables of the chat and of its moderation. -/
structure ModerationDb where
  chat : ChatDb
  reports : Versioned ℕ Uuid ChatReportEntity
  /-- `created_at`, by blocker and blocked: `uq_chat_blocks_pair`. -/
  blocks : Removable ℕ (Uuid × Uuid) Instant

namespace ModerationDb

/-- No rows yet. -/
def empty : ModerationDb := ⟨.empty, .empty, .empty⟩

/-- Transaction `pid` commits. -/
def commit (db : ModerationDb) (pid : ℕ) : ModerationDb where
  chat := db.chat.commit pid
  reports := db.reports.commit pid
  blocks := db.blocks.commit pid

/-- Transaction `pid` rolls back. -/
def rollback (db : ModerationDb) (pid : ℕ) : ModerationDb where
  chat := db.chat.rollback pid
  reports := db.reports.rollback pid
  blocks := db.blocks.rollback pid

end ModerationDb

/-- The reports that the transaction reads. -/
def ModerationDb.reportsSeen (db : ModerationDb) (pid : ℕ) : List ChatReportEntity :=
  db.reports.keys.filterMap (db.reports.get pid)

/-- A block between the two, in either direction, that the transaction reads. -/
def ModerationDb.blockSeen (db : ModerationDb) (pid : ℕ) (userId otherId : Uuid) : Bool :=
  (db.blocks.find pid (userId, otherId)).isSome || (db.blocks.find pid (otherId, userId)).isSome

/-- Some report restricts the user. -/
def isSenderRestricted (db : ModerationDb) (pid : ℕ) (userId : Uuid) : Bool :=
  (db.reportsSeen pid).any fun r => r.Restricts userId

/-! ## Calls -/

/-- What `report` is called with. -/
structure ReportInput where
  reporterUserId : Uuid
  conversationId : Uuid
  messageId : Uuid
  reason : ChatReportReason
  note : Option String
  deriving DecidableEq

/-- What `decide` is called with. -/
structure DecideInput where
  moderatorUserId : Uuid
  reportId : Uuid
  upheld : Bool
  action : Option ChatModerationAction
  reason : String
  deriving DecidableEq

/-- What a call is asked for. -/
inductive ModerationRequest where
  | chat (request : ChatRequest)
  | report (input : ReportInput)
  | decide (input : DecideInput)
  | block (callerUserId conversationId : Uuid)
  | unblock (callerUserId conversationId : Uuid)

/-- What a call is refused with; the texts are left out. -/
inductive ModerationRefusal where
  | notFoundOrNotYours
  | reportRateLimited (perDay : ℕ)
  | reportAlreadyOpen
  deriving DecidableEq

/-- Where a call stands. -/
inductive ModerationPlace where
  | idle
  | failed
  | refused (reason : ModerationRefusal)
  | reported (report : ChatReportEntity)
  /-- `null` where the report is gone. -/
  | decided (report : Option ChatReportEntity)
  | done
  | chat (place : ChatPlace)
  | report (i : ReportInput)
  | anchor (i : ReportInput) (c : ChatConversationEntity)
  | count (i : ReportInput) (c : ChatConversationEntity) (anchor : ChatMessageEntity)
  | file (i : ReportInput) (c : ChatConversationEntity) (anchor : ChatMessageEntity)
  | filed (r : ChatReportEntity)
  | decide (i : DecideInput)
  | closing (r : ChatReportEntity)
  | close (r : ChatReportEntity)
  /-- `closed` is whether the call has closed the conversation. -/
  | finish (r : ChatReportEntity) (closed : Bool)
  | block (callerUserId conversationId : Uuid)
  | blocking (callerUserId : Uuid) (now : Instant) (others : List Uuid)
  | unblock (callerUserId conversationId : Uuid)
  | unblocking (callerUserId : Uuid) (others : List Uuid)
  deriving DecidableEq

section Statement

variable (config : ModerationConfig) (env : ChatEnv) (db : ModerationDb) (pid : ℕ)

/-- Everyone on the side the user is not on. -/
def ModerationConfig.others (c : ChatConversationEntity) (userId : Uuid) : List Uuid :=
  if c.customerUserId = userId then
    config.recipientsFor c.counterpartyType c.counterpartyId c.customerUserId
  else [c.customerUserId]

/-- What a statement of a user finds for a conversation. -/
def live (userId : Uuid) (c : ChatConversationEntity) : ChatEnv :=
  { env with
    recipients := config.recipientsFor c.counterpartyType c.counterpartyId c.customerUserId
    blocked := (config.others c userId).any fun o => db.blockSeen pid userId o }

/-- What a statement of a send finds. -/
def liveEnv : ChatPlace → ChatEnv
  | .evaluate i c | .replay i c _ | .announce i c _ _ => live config env db pid i.senderUserId c
  | _ => env

/-- The conversation, for a caller on one of its sides. -/
def requireReadable (userId conversationId : Uuid) : Option ChatConversationEntity :=
  match db.chat.conversations.get pid conversationId with
  | none => none
  | some c => if sideOf env userId c = none then none else some c

/-- The row that `report` inserts. -/
def ReportInput.newReport (i : ReportInput) (c : ChatConversationEntity)
    (anchor : ChatMessageEntity) (id : Uuid) (now : Instant) : ChatReportEntity where
  id := id
  conversationId := c.id
  customerUserId := c.customerUserId
  message := anchor
  reportedBy := i.reporterUserId
  reason := i.reason
  note := (i.note.map config.trim).filter (· ≠ "")
  status := .opened
  decidedBy := none
  decidedAt := none
  decisionReason := none
  decisionAction := none
  createdAt := now

/-- What the update of `decide` sets in the row. -/
def ChatReportEntity.decide (r : ChatReportEntity) (i : DecideInput) (now : Instant) :
    ChatReportEntity :=
  { r with
    status := if i.upheld then .upheld else .rejected
    decidedBy := some i.moderatorUserId
    decidedAt := some now
    decisionReason := some i.reason
    decisionAction := if i.upheld then i.action else none }

/-- `report`. -/
def reportStatement : ModerationPlace → Next ModerationDb Uuid ModerationPlace
  | .report i =>
    if config.isAcceptableReportNote i.note then
      match requireReadable env db pid i.reporterUserId i.conversationId with
      | none => .throws (.refused .notFoundOrNotYours)
      | some c => .goes db (.anchor i c)
    else .throws (.refused (.reportRateLimited chatMaxReportNoteCharacters))
  | .anchor i c =>
    match (db.chat.messages.select pid fun m =>
        m.id = i.messageId ∧ m.conversationId = c.id).filterMap (db.chat.messages.get pid) with
    | [] => .throws (.refused .notFoundOrNotYours)
    | anchor :: _ => .goes db (.count i c anchor)
  | .count i c anchor =>
    if config.reportsPerDay ≤ (db.reportsSeen pid).countP fun r =>
        r.reportedBy = i.reporterUserId ∧ env.now - 86400000 < r.createdAt then
      .throws (.refused (.reportRateLimited config.reportsPerDay))
    else .goes db (.file i c anchor)
  | .file i c anchor =>
    let r := i.newReport config c anchor env.uuid env.now
    match db.reports.insert pid env.uuid r (SameOpen r) with
    | .waits => .waits
    | .done r t => .goes { db with reports := t } (.filed r)
    | _ => .throws (.refused .reportAlreadyOpen)
  | .filed r => .commits (.reported r)
  | _ => .waits

/-- `decide` and `closeConversation`. -/
def decideStatement : ModerationPlace → Next ModerationDb Uuid ModerationPlace
  | .decide i =>
    match db.reports.update pid i.reportId (fun r => r.status = .opened)
        (fun r => r.decide i env.now) with
    | .waits => .waits
    | .done r t =>
      .goes { db with reports := t }
        (if i.upheld ∧ i.action = some .closeConversation then .closing r else .finish r false)
    | _ => .commits (.decided none)
  | .closing r =>
    match db.chat.conversations.get pid r.conversationId with
    | none => .goes db (.finish r false)
    | some c =>
      if c.closedForSendingAt = none then .locks r.conversationId .exclusive (.close r)
      else .goes db (.finish r false)
  | .close r =>
    match db.chat.conversations.update pid r.conversationId (fun c => c.closedForSendingAt = none)
        fun c => { c with closedForSendingAt := some env.now } with
    | .waits => .waits
    | .done _ t => .goes { db with chat := { db.chat with conversations := t } } (.finish r true)
    | _ => .goes db (.finish r false)
  | .finish r _ => .commits (.decided (some r))
  | _ => .waits

/-- `block` and `unblock`: the rows one by one. -/
def blockStatement : ModerationPlace → Next ModerationDb Uuid ModerationPlace
  | .block callerUserId conversationId =>
    match requireReadable env db pid callerUserId conversationId with
    | none => .throws (.refused .notFoundOrNotYours)
    | some c =>
      .goes db (.blocking callerUserId env.now
        ((config.others c callerUserId).filter (· ≠ callerUserId)))
  | .blocking _ _ [] => .commits .done
  | .blocking callerUserId now (blockedUserId :: others) =>
    match db.blocks.insertOrIgnore pid (callerUserId, blockedUserId) now with
    | .waits => .waits
    | .ignored => .goes db (.blocking callerUserId now others)
    | .done t => .goes { db with blocks := t } (.blocking callerUserId now others)
  | .unblock callerUserId conversationId =>
    match requireReadable env db pid callerUserId conversationId with
    | none => .throws (.refused .notFoundOrNotYours)
    | some c => .goes db (.unblocking callerUserId (config.others c callerUserId))
  | .unblocking _ [] => .commits .done
  | .unblocking callerUserId (blockedUserId :: others) =>
    match db.blocks.remove pid (callerUserId, blockedUserId) with
    | .waits => .waits
    | .ignored => .goes db (.unblocking callerUserId others)
    | .done t => .goes { db with blocks := t } (.unblocking callerUserId others)
  | _ => .waits

/-- The statement of a call at its place. -/
def moderationStatement : ModerationPlace → Next ModerationDb Uuid ModerationPlace
  | .chat place =>
    (statement config.toChatConfig (liveEnv config env db pid place) db.chat pid place).map
      (fun chat => { db with chat := chat }) .chat
  | .report i => reportStatement config env db pid (.report i)
  | .anchor i c => reportStatement config env db pid (.anchor i c)
  | .count i c anchor => reportStatement config env db pid (.count i c anchor)
  | .file i c anchor => reportStatement config env db pid (.file i c anchor)
  | .filed r => reportStatement config env db pid (.filed r)
  | .decide i => decideStatement env db pid (.decide i)
  | .closing r => decideStatement env db pid (.closing r)
  | .close r => decideStatement env db pid (.close r)
  | .finish r closed => decideStatement env db pid (.finish r closed)
  | .block callerUserId conversationId =>
    blockStatement config env db pid (.block callerUserId conversationId)
  | .blocking callerUserId now others =>
    blockStatement config env db pid (.blocking callerUserId now others)
  | .unblock callerUserId conversationId =>
    blockStatement config env db pid (.unblock callerUserId conversationId)
  | .unblocking callerUserId others =>
    blockStatement config env db pid (.unblocking callerUserId others)
  | _ => .waits

end Statement

/-- A call there still runs. -/
def ModerationPlace.running : ModerationPlace → Bool
  | .idle | .failed | .refused _ | .reported _ | .decided _ | .done => false
  | .chat place => place.running
  | _ => true

/-- Where a call starts. -/
def ModerationRequest.first : ModerationRequest → ModerationPlace
  | .chat request => .chat request.first
  | .report input => .report input
  | .decide input => .decide input
  | .block callerUserId conversationId => .block callerUserId conversationId
  | .unblock callerUserId conversationId => .unblock callerUserId conversationId

/-- The calls on conversations, reports and blocks. -/
def moderationService (config : ModerationConfig) :
    Service ModerationDb Uuid ModerationPlace ModerationRequest ChatEnv where
  commit := ModerationDb.commit
  rollback := ModerationDb.rollback
  idle := .idle
  failed := .failed
  running := ModerationPlace.running
  first := ModerationRequest.first
  statement := moderationStatement config

end BeauClick.Chat
