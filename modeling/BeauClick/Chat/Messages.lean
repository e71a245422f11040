import BeauClick.Commerce.Order
import BeauClick.Lib.Journal
import BeauClick.Lib.ReadCommitted
import BeauClick.Lib.Transactions

/-!
# Conversations and messages

`ChatService.startConversation`, `sendMessage` and `reserveSendSlot`
(`services/chat/src/chat.service.ts`), with `ensureParticipant`, `requireReadable` and `evaluate` of
`chat-access.service.ts`, statement by statement.

Who may act for a seller, blocks and bookings are other tables; what is read there is given with
each statement.
-/

namespace BeauClick.Chat

open Locks ReadCommitted Transactions

/-! ## The contract -/

def chatMaxMessageCharacters : ℕ := 2000

def chatSendWindowDays : ℤ := 90

/-- The limits, with the defaults of the contract, and what the language does with text:
`normalize('NFC')` and `trim()`. -/
structure ChatConfig where
  perMinute : ℕ := 20
  perDay : ℕ := 300
  normalizeNfc : String → String
  trim : String → String

/-- `chatTextLength`, in code points. -/
def ChatConfig.chatTextLength (config : ChatConfig) (text : String) : ℕ :=
  (config.normalizeNfc text).length

/-- Not blank, and short enough once trimmed. -/
def ChatConfig.isAcceptableChatMessage (config : ChatConfig) (text : String) : Bool :=
  let length := config.chatTextLength (config.trim text)
  0 < length ∧ length ≤ chatMaxMessageCharacters

/-- The body that is screened and stored. -/
def ChatConfig.body (config : ChatConfig) (rawBody : String) : String :=
  config.trim (config.normalizeNfc rawBody)

/-! ## Rows -/

/-- The two sides of a conversation. -/
inductive ChatSide where
  | customer
  | seller

/-- A row of `chat.conversations`. -/
structure ChatConversationEntity where
  id : Uuid
  customerUserId : Uuid
  counterpartyType : String
  counterpartyId : Uuid
  messageCount : ℕ
  lastSequence : ℕ
  lastMessageAt : Option Instant
  closedForSendingAt : Option Instant
  deriving DecidableEq

/-- A row of `chat.messages`. -/
structure ChatMessageEntity where
  id : Uuid
  conversationId : Uuid
  customerUserId : Uuid
  senderUserId : Uuid
  body : String
  sequence : ℕ
  idempotencyKey : Option String
  deriving DecidableEq

/-- The payload of `MessageSent`. -/
structure MessageSent where
  conversationId : Uuid
  messageId : Uuid
  senderUserId : Uuid
  recipientUserId : Uuid
  sequence : ℕ
  bodyLength : ℕ
  occurredAt : Instant

/-- The tables of a chat. -/
structure ChatDb where
  conversations : Versioned ℕ Uuid ChatConversationEntity
  /-- By conversation and sequence: `uq_chat_messages_sequence`. -/
  messages : Versioned ℕ (Uuid × ℕ) ChatMessageEntity
  /-- `last_read_sequence`, by conversation and user. -/
  participants : Versioned ℕ (Uuid × Uuid) ℕ
  /-- `sent_count`, by user and minute. -/
  sendCounters : Versioned ℕ (Uuid × Instant) ℕ
  outbox : Journal ℕ MessageSent

namespace ChatDb

/-- No rows yet. -/
def empty : ChatDb := ⟨.empty, .empty, .empty, .empty, .empty⟩

/-- Transaction `pid` commits. -/
def commit (db : ChatDb) (pid : ℕ) : ChatDb where
  conversations := db.conversations.commit pid
  messages := db.messages.commit pid
  participants := db.participants.commit pid
  sendCounters := db.sendCounters.commit pid
  outbox := db.outbox.commit pid

/-- Transaction `pid` rolls back. -/
def rollback (db : ChatDb) (pid : ℕ) : ChatDb where
  conversations := db.conversations.rollback pid
  messages := db.messages.rollback pid
  participants := db.participants.rollback pid
  sendCounters := db.sendCounters.rollback pid
  outbox := db.outbox.rollback pid

end ChatDb

/-- `uq_chat_conversations_pair`. -/
def SamePair (c c' : ChatConversationEntity) : Prop :=
  c.customerUserId = c'.customerUserId ∧ c.counterpartyType = c'.counterpartyType ∧
    c.counterpartyId = c'.counterpartyId
  deriving Decidable

/-- `uq_chat_messages_idempotency`. -/
def SameKey (m m' : ChatMessageEntity) : Prop :=
  m.conversationId = m'.conversationId ∧ m.senderUserId = m'.senderUserId ∧
    m.idempotencyKey ≠ none ∧ m.idempotencyKey = m'.idempotencyKey
  deriving Decidable

/-! ## Calls -/

/-- The input of `startConversation`. -/
structure StartInput where
  customerUserId : Uuid
  counterpartyType : String
  counterpartyId : Uuid
  deriving DecidableEq

/-- The input of `sendMessage`. -/
structure SendMessageInput where
  senderUserId : Uuid
  conversationId : Uuid
  rawBody : String
  idempotencyKey : Option String
  deriving DecidableEq

/-- What a call is asked for. -/
inductive ChatRequest where
  | startConversation (input : StartInput)
  | sendMessage (input : SendMessageInput)

/-- What a statement finds outside the tables: the clock, the next `uuidv7`, whether the caller may
act for the counterparty, who is told of a message, whether there is a block, the end of the last
booking that makes the two eligible, and whether the counterparty is among the caller's eligible
ones. -/
structure ChatEnv where
  now : Instant
  uuid : Uuid
  canAccessCounterparty : Bool
  recipients : List Uuid
  blocked : Bool
  lastQualifyingSlotEnd : Option Instant
  eligible : Bool := true

/-- What a call is refused with, and the data of the refusal; its text is left out. -/
inductive ChatRefusal where
  | notFoundOrNotYours
  | messageTooLong (maxCharacters : ℕ)
  | conversationClosed
  | blocked
  | notEligible
  | sendWindowClosed (windowDays : ℤ) (closedAt : Instant)
  | rateLimited (perMinute perDay : ℕ)
  deriving DecidableEq

/-- The side a caller is on, if he is on any. -/
def sideOf (env : ChatEnv) (callerUserId : Uuid) (c : ChatConversationEntity) : Option ChatSide :=
  if c.customerUserId = callerUserId then some .customer
  else if env.canAccessCounterparty then some .seller
  else none

/-- Who is told of a message. -/
def otherSideUserIds (env : ChatEnv) (c : ChatConversationEntity) (callerUserId : Uuid) :
    List Uuid :=
  if c.customerUserId = callerUserId then env.recipients else [c.customerUserId]

/-- `blockExistsBetween`: there is nobody to be blocked by where the other side is empty. -/
def blockExistsBetween (env : ChatEnv) (c : ChatConversationEntity) (callerUserId : Uuid) : Bool :=
  otherSideUserIds env c callerUserId ≠ [] ∧ env.blocked

/-- Ninety days after the last slot's end. -/
def sendWindowClosesAt (lastQualifyingSlotEnd : Instant) : Instant :=
  lastQualifyingSlotEnd + chatSendWindowDays * 86400000

/-- `evaluate`, as the exception that `sendMessage` throws for the verdict. -/
def evaluate (env : ChatEnv) (callerUserId : Uuid) (c : ChatConversationEntity) :
    Option ChatRefusal :=
  match sideOf env callerUserId c with
  | none => some .notEligible
  | some _ =>
    if c.closedForSendingAt ≠ none then some .conversationClosed
    else if blockExistsBetween env c callerUserId then some .blocked
    else
      match env.lastQualifyingSlotEnd with
      | none => some .notEligible
      | some slotEnd =>
        if sendWindowClosesAt slotEnd < env.now then
          some (.sendWindowClosed chatSendWindowDays (sendWindowClosesAt slotEnd))
        else none

def minuteBucket (instant : Instant) : Instant := instant - instant % 60000

/-- What `sendMessage` returns. -/
structure Sent where
  message : ChatMessageEntity
  conversation : ChatConversationEntity
  recipients : List Uuid
  deriving DecidableEq

/-- Where a call stands. -/
inductive ChatPlace where
  | idle
  | failed
  -- `startConversation`
  | started (conversationId : Uuid)
  | declined (i : StartInput) (reason : ChatRefusal)
  | eligible (i : StartInput)
  | insertConversation (i : StartInput)
  | findConversation (i : StartInput)
  | ensureCustomer (i : StartInput) (c : ChatConversationEntity)
  | findCustomer (i : StartInput) (c : ChatConversationEntity)
  -- `sendMessage`
  | sent (i : SendMessageInput) (answer : Sent)
  | refused (i : SendMessageInput) (reason : ChatRefusal)
  /-- The error of a unique index. -/
  | violated (i : SendMessageInput)
  | screen (i : SendMessageInput)
  | load (i : SendMessageInput)
  | evaluate (i : SendMessageInput) (c : ChatConversationEntity)
  | lookup (i : SendMessageInput) (c : ChatConversationEntity)
  | replay (i : SendMessageInput) (c : ChatConversationEntity) (existing : ChatMessageEntity)
  | lock (i : SendMessageInput) (c : ChatConversationEntity)
  | locked (i : SendMessageInput) (c : ChatConversationEntity)
  | reserve (i : SendMessageInput) (c : ChatConversationEntity) (lastSequence : ℕ)
  | daily (i : SendMessageInput) (c : ChatConversationEntity) (lastSequence : ℕ) (now : Instant)
  | insert (i : SendMessageInput) (c : ChatConversationEntity) (sequence : ℕ)
  | bump (i : SendMessageInput) (c : ChatConversationEntity) (m : ChatMessageEntity) (now : Instant)
  | watermark (i : SendMessageInput) (c : ChatConversationEntity) (m : ChatMessageEntity)
      (now : Instant)
  | announce (i : SendMessageInput) (c : ChatConversationEntity) (m : ChatMessageEntity)
      (now : Instant)
  | finish (i : SendMessageInput) (answer : Sent)
  deriving DecidableEq

/-- The row that `startConversation` inserts. -/
def StartInput.conversation (i : StartInput) (id : Uuid) : ChatConversationEntity where
  id := id
  customerUserId := i.customerUserId
  counterpartyType := i.counterpartyType
  counterpartyId := i.counterpartyId
  messageCount := 0
  lastSequence := 0
  lastMessageAt := none
  closedForSendingAt := none

/-- `where: { customerUserId, counterpartyType, counterpartyId }`. -/
def StartInput.Finds (i : StartInput) (c : ChatConversationEntity) : Bool :=
  c.customerUserId = i.customerUserId ∧ c.counterpartyType = i.counterpartyType ∧
    c.counterpartyId = i.counterpartyId

/-- `if (idempotencyKey)`: the empty string is none. -/
def SendMessageInput.lookedUp (i : SendMessageInput) : Bool :=
  match i.idempotencyKey with
  | none => false
  | some key => key ≠ ""

/-- The message is the one that was sent under the call's key. -/
def SendMessageInput.Keyed (i : SendMessageInput) (m : ChatMessageEntity) : Prop :=
  m.conversationId = i.conversationId ∧ m.senderUserId = i.senderUserId ∧
    i.idempotencyKey ≠ none ∧ m.idempotencyKey = i.idempotencyKey
  deriving Decidable

/-- The row that `save` inserts. -/
def SendMessageInput.newMessage (config : ChatConfig) (i : SendMessageInput)
    (c : ChatConversationEntity) (id : Uuid) (sequence : ℕ) : ChatMessageEntity where
  id := id
  conversationId := c.id
  customerUserId := c.customerUserId
  senderUserId := i.senderUserId
  body := config.body i.rawBody
  sequence := sequence
  idempotencyKey := i.idempotencyKey

/-- What the update sets in the row. -/
def ChatConversationEntity.bump (c : ChatConversationEntity) (sequence : ℕ) (now : Instant) :
    ChatConversationEntity :=
  { c with
    lastSequence := sequence
    messageCount := c.messageCount + 1
    lastMessageAt := some now }

/-- The total of `sent_count` over the last day. -/
def dailyTotal (t : Versioned ℕ (Uuid × Instant) ℕ) (pid : ℕ) (userId : Uuid) (now : Instant) : ℕ :=
  ((t.keys.filter fun key => key.1 = userId ∧ now - 86400000 < key.2).map
    fun key => (t.get pid key).getD 0).sum

/-- No version of any message has the id. -/
def Unused (t : Versioned ℕ (Uuid × ℕ) ChatMessageEntity) (id : Uuid) : Prop :=
  ∀ key ∈ t.keys, ¬(t.row key).HasVersion fun m => m.id = id
  deriving Decidable

section Statement

variable (config : ChatConfig) (env : ChatEnv) (db : ChatDb) (pid : ℕ)

/-- Before the lock. -/
def checkStatement : ChatPlace → Next ChatDb Uuid ChatPlace
  | .screen i =>
    if config.isAcceptableChatMessage (config.body i.rawBody) then .goes db (.load i)
    else .throws (.refused i (.messageTooLong chatMaxMessageCharacters))
  | .load i =>
    match db.conversations.get pid i.conversationId with
    | none => .throws (.refused i .notFoundOrNotYours)
    | some c =>
      if sideOf env i.senderUserId c = none then .throws (.refused i .notFoundOrNotYours)
      else .goes db (.evaluate i c)
  | .evaluate i c =>
    match evaluate env i.senderUserId c with
    | some reason => .throws (.refused i reason)
    | none => if i.lookedUp then .goes db (.lookup i c) else .goes db (.lock i c)
  | .lookup i c =>
    match (db.messages.select pid fun m => i.Keyed m).filterMap (db.messages.get pid) with
    | [] => .goes db (.lock i c)
    | existing :: _ => .goes db (.replay i c existing)
  | .replay i c existing =>
    .commits (.sent i ⟨existing, c, otherSideUserIds env c i.senderUserId⟩)
  | .lock i c => .locks c.id .exclusive (.locked i c)
  | _ => .waits

/-- `reserveSendSlot`, under the lock. -/
def reserveStatement : ChatPlace → Next ChatDb Uuid ChatPlace
  | .locked i c =>
    match db.conversations.get pid c.id with
    | none => .throws (.refused i .notFoundOrNotYours)
    | some row => .goes db (.reserve i c row.lastSequence)
  | .reserve i c lastSequence =>
    let key := (i.senderUserId, minuteBucket env.now)
    if (db.sendCounters.row key).Locked pid then .waits
    else
      match db.sendCounters.get pid key with
      | none =>
        .goes { db with sendCounters := db.sendCounters.write pid key 1 }
          (.daily i c lastSequence env.now)
      | some count =>
        if count < config.perMinute then
          .goes { db with sendCounters := db.sendCounters.write pid key (count + 1) }
            (.daily i c lastSequence env.now)
        else .throws (.refused i (.rateLimited config.perMinute config.perDay))
  | .daily i c lastSequence now =>
    if config.perDay < dailyTotal db.sendCounters pid i.senderUserId now then
      .throws (.refused i (.rateLimited config.perMinute config.perDay))
    else .goes db (.insert i c (lastSequence + 1))
  | _ => .waits

/-- The message, the conversation, the sender's watermark and the events. -/
def writeStatement : ChatPlace → Next ChatDb Uuid ChatPlace
  | .insert i c sequence =>
    let m := i.newMessage config c env.uuid sequence
    if Unused db.messages env.uuid then
      match db.messages.insert pid (c.id, sequence) m (SameKey m) with
      | .waits => .waits
      | .done _ t => .goes { db with messages := t } (.bump i c m env.now)
      | _ => .throws (.violated i)
    else .waits
  | .bump i c m now =>
    match db.conversations.update pid c.id (fun _ => True) fun row => row.bump m.sequence now with
    | .waits => .waits
    | .done _ t => .goes { db with conversations := t } (.watermark i (c.bump m.sequence now) m now)
    | _ => .goes db (.watermark i (c.bump m.sequence now) m now)
  | .watermark i c m now =>
    match db.participants.update pid (c.id, i.senderUserId) (fun _ => True) fun n =>
        max n m.sequence with
    | .waits => .waits
    | .done _ t => .goes { db with participants := t } (.announce i c m now)
    | _ => .goes db (.announce i c m now)
  | .announce i c m now =>
    let recipients := otherSideUserIds env c i.senderUserId
    let events := recipients.map fun recipientUserId =>
      { conversationId := c.id
        messageId := m.id
        senderUserId := i.senderUserId
        recipientUserId := recipientUserId
        sequence := m.sequence
        bodyLength := config.chatTextLength m.body
        occurredAt := now : MessageSent }
    .goes { db with outbox := events.foldl (fun j e => j.append pid e) db.outbox }
      (.finish i ⟨m, c, recipients⟩)
  | .finish i answer => .commits (.sent i answer)
  | _ => .waits

/-- `startConversation`: a conversation and its customer's row, `ON CONFLICT DO NOTHING`. -/
def startStatement : ChatPlace → Next ChatDb Uuid ChatPlace
  | .eligible i =>
    if env.eligible then .goes db (.insertConversation i) else .throws (.declined i .notEligible)
  | .insertConversation i =>
    let c := i.conversation env.uuid
    match db.conversations.insert pid c.id c (SamePair c) with
    | .waits => .waits
    | .done _ t => .goes { db with conversations := t } (.findConversation i)
    | _ => .goes db (.findConversation i)
  | .findConversation i =>
    match (db.conversations.select pid i.Finds).filterMap (db.conversations.get pid) with
    | [] => .throws (.declined i .notFoundOrNotYours)
    | c :: _ => .goes db (.ensureCustomer i c)
  | .ensureCustomer i c =>
    match db.participants.insert pid (c.id, i.customerUserId) 0 fun _ => False with
    | .waits => .waits
    | .done _ t => .goes { db with participants := t } (.findCustomer i c)
    | _ => .goes db (.findCustomer i c)
  | .findCustomer i c =>
    match db.participants.get pid (c.id, i.customerUserId) with
    | none => .throws (.declined i .notFoundOrNotYours)
    | some _ => .commits (.started c.id)
  | _ => .waits

/-- The statement of a call at its place. -/
def statement : ChatPlace → Next ChatDb Uuid ChatPlace
  | .eligible i => startStatement env db pid (.eligible i)
  | .insertConversation i => startStatement env db pid (.insertConversation i)
  | .findConversation i => startStatement env db pid (.findConversation i)
  | .ensureCustomer i c => startStatement env db pid (.ensureCustomer i c)
  | .findCustomer i c => startStatement env db pid (.findCustomer i c)
  | .locked i c => reserveStatement config env db pid (.locked i c)
  | .reserve i c lastSequence => reserveStatement config env db pid (.reserve i c lastSequence)
  | .daily i c lastSequence now => reserveStatement config env db pid (.daily i c lastSequence now)
  | .insert i c sequence => writeStatement config env db pid (.insert i c sequence)
  | .bump i c m now => writeStatement config env db pid (.bump i c m now)
  | .watermark i c m now => writeStatement config env db pid (.watermark i c m now)
  | .announce i c m now => writeStatement config env db pid (.announce i c m now)
  | .finish i answer => writeStatement config env db pid (.finish i answer)
  | place => checkStatement config env db pid place

end Statement

/-- A call there still runs. -/
def ChatPlace.running : ChatPlace → Bool
  | .idle | .failed | .started _ | .declined .. | .sent .. | .refused .. | .violated _ => false
  | _ => true

/-- Where a call starts. -/
def ChatRequest.first : ChatRequest → ChatPlace
  | .startConversation input => .eligible input
  | .sendMessage input => .screen input

/-- The calls on conversations. -/
def chatService (config : ChatConfig) : Service ChatDb Uuid ChatPlace ChatRequest ChatEnv where
  commit := ChatDb.commit
  rollback := ChatDb.rollback
  idle := .idle
  failed := .failed
  running := ChatPlace.running
  first := ChatRequest.first
  statement := statement config

end BeauClick.Chat
