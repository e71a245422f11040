import BeauClick.Chat.Messages
import BeauClick.Lib.Recorded

/-!
# Read watermarks

`markRead` and `unreadCount` (`services/chat/src/chat.service.ts`), with `ensureParticipant` of
`chat-access.service.ts`, beside `startConversation` and `sendMessage`.
-/

namespace BeauClick.Chat

open ReadCommitted Transactions

/-! ## Calls -/

/-- The input of `markRead`. -/
structure MarkReadInput where
  callerUserId : Uuid
  conversationId : Uuid
  upToSequence : ℕ
  deriving DecidableEq

/-- What a call is asked for. -/
inductive WatermarkRequest where
  | chat (request : ChatRequest)
  | markRead (i : MarkReadInput)
  | unreadCount (callerUserId : Uuid)

/-- What a statement finds outside the tables: what `startConversation` and `sendMessage` do, and the
counterparties and the conversations that the caller may see as a seller. -/
structure WatermarkEnv where
  chat : ChatEnv
  sellerParties : List (String × Uuid)
  grantedScopes : List (String × Uuid × Uuid)

/-- Where a call stands. -/
inductive WatermarkPlace where
  | idle
  | failed
  | refused
  | chat (place : ChatPlace)
  -- `markRead`
  | marked (i : MarkReadInput) (lastSequence : ℕ) (answer : ℕ)
  | load (i : MarkReadInput)
  | ensureReader (i : MarkReadInput) (c : ChatConversationEntity)
  | findReader (i : MarkReadInput) (c : ChatConversationEntity)
  | advance (i : MarkReadInput) (c : ChatConversationEntity)
  | readBack (i : MarkReadInput) (c : ChatConversationEntity)
  -- `unreadCount`
  | counted (callerUserId : Uuid) (total : ℕ)
  | count (callerUserId : Uuid)
  deriving DecidableEq

/-- No one has read past the last message. -/
def capped (i : MarkReadInput) (lastSequence : ℕ) : ℕ := min i.upToSequence lastSequence

/-- The conversation is in `visible`. -/
def ChatConversationEntity.Visible (env : WatermarkEnv) (callerUserId : Uuid)
    (c : ChatConversationEntity) : Prop :=
  c.customerUserId = callerUserId ∨ (c.counterpartyType, c.counterpartyId) ∈ env.sellerParties ∨
    (c.counterpartyType, c.counterpartyId, c.customerUserId) ∈ env.grantedScopes

instance (env : WatermarkEnv) (callerUserId : Uuid) (c : ChatConversationEntity) :
    Decidable (c.Visible env callerUserId) :=
  inferInstanceAs (Decidable (_ ∨ _ ∨ _))

section Statement

variable (config : ChatConfig) (env : WatermarkEnv) (db : ChatDb) (pid : ℕ)

/-- `GREATEST(last_sequence - COALESCE(last_read_sequence, 0), 0)`. -/
def unread (callerUserId : Uuid) (c : ChatConversationEntity) : ℕ :=
  c.lastSequence - (db.participants.get pid (c.id, callerUserId)).getD 0

/-- The total of `unreadCount`. -/
def unreadTotal (callerUserId : Uuid) : ℕ :=
  (((db.conversations.select pid fun c => c.Visible env callerUserId).filterMap
    (db.conversations.get pid)).map (unread db pid callerUserId)).sum

/-- `markRead`. -/
def markReadStatement : WatermarkPlace → Next ChatDb Uuid WatermarkPlace
  | .load i =>
    match db.conversations.get pid i.conversationId with
    | none => .throws .refused
    | some c =>
      if sideOf env.chat i.callerUserId c = none then .throws .refused
      else .goes db (.ensureReader i c)
  | .ensureReader i c =>
    match db.participants.insert pid (c.id, i.callerUserId) 0 fun _ => False with
    | .waits => .waits
    | .done _ t => .goes { db with participants := t } (.findReader i c)
    | _ => .goes db (.findReader i c)
  | .findReader i c =>
    match db.participants.get pid (c.id, i.callerUserId) with
    | none => .throws .refused
    | some _ => .goes db (.advance i c)
  | .advance i c =>
    match db.participants.update pid (c.id, i.callerUserId) (fun _ => True) fun n =>
        max n (capped i c.lastSequence) with
    | .waits => .waits
    | .done _ t => .goes { db with participants := t } (.readBack i c)
    | _ => .goes db (.readBack i c)
  | .readBack i c =>
    .commits (.marked i c.lastSequence ((db.participants.get pid (c.id, i.callerUserId)).getD 0))
  | _ => .waits

/-- The statement of a call at its place. -/
def watermarkStatement : WatermarkPlace → Next ChatDb Uuid WatermarkPlace
  | .chat place => (statement config env.chat db pid place).map id .chat
  | .count callerUserId => .commits (.counted callerUserId (unreadTotal env db pid callerUserId))
  | place => markReadStatement env db pid place

end Statement

/-- A call there still runs. -/
def WatermarkPlace.running : WatermarkPlace → Bool
  | .idle | .failed | .refused | .marked .. | .counted .. => false
  | .chat place => place.running
  | _ => true

/-- Where a call starts. -/
def WatermarkRequest.first : WatermarkRequest → WatermarkPlace
  | .chat request => .chat request.first
  | .markRead i => .load i
  | .unreadCount callerUserId => .count callerUserId

/-- The calls on conversations and watermarks. -/
def watermarkService (config : ChatConfig) :
    Service ChatDb Uuid WatermarkPlace WatermarkRequest WatermarkEnv where
  commit := ChatDb.commit
  rollback := ChatDb.rollback
  idle := .idle
  failed := .failed
  running := WatermarkPlace.running
  first := WatermarkRequest.first
  statement := watermarkStatement config

/-! ## What has been seen -/

/-- The user's watermark; without a row nothing has been read. -/
def watermark (db : ChatDb) (conversationId userId : Uuid) : ℕ :=
  (db.participants.committed (conversationId, userId)).getD 0

/-- The messages that a user has not seen: they come after everything that the user has marked,
as far as the conversation went then, and after the user's own last message. -/
def Unseen (s : System ChatDb Uuid WatermarkPlace) (userId : Uuid) (m : ChatMessageEntity) : Prop :=
  s.db.messages.committed (m.conversationId, m.sequence) = some m ∧
    (∀ pid i lastSequence answer, s.calls pid = .marked i lastSequence answer →
      i.conversationId = m.conversationId → i.callerUserId = userId →
        capped i lastSequence < m.sequence) ∧
    ∀ m', s.db.messages.committed (m'.conversationId, m'.sequence) = some m' →
      m'.conversationId = m.conversationId → m'.senderUserId = userId → m'.sequence < m.sequence

/-- **The counts are right.**  A watermark stays within its conversation, and `unreadCount` adds up,
for each conversation, the number of its messages that the user has not seen. -/
structure CountsUnseen (s : System ChatDb Uuid WatermarkPlace) : Prop where
  within : ∀ k c, s.db.conversations.committed k = some c → ∀ userId,
    watermark s.db k userId ≤ c.lastSequence
  unseen : ∀ k c, s.db.conversations.committed k = some c → ∀ userId,
    ∃ ms : List ChatMessageEntity, ms.Nodup ∧
      (∀ m, m ∈ ms ↔ m.conversationId = k ∧ Unseen s userId m) ∧
      c.lastSequence - watermark s.db k userId = ms.length
  counted : ∀ pid userId, s.calls pid = .count userId → ∀ c,
    unread s.db pid userId c = c.lastSequence - watermark s.db c.id userId

/-- The step lets no watermark fall. -/
def NeverFalls (config : ChatConfig) (s : System ChatDb Uuid WatermarkPlace)
    (step : Step WatermarkRequest WatermarkEnv) : Prop :=
  ∀ s', (watermarkService config).step s step = some s' → ∀ k userId,
    watermark s.db k userId ≤ watermark s'.db k userId

end BeauClick.Chat
