import BeauClick.Chat.Messages

/-!
# Messages in sequence, and one message for a key

Sends are numbered under the lock of their conversation.

* `ChatSound` — what the committed messages say of the counters.
* `ChatWork` — what a call relies on, place by place.
* `shown_statement` — one statement keeps it.
* `inOrder_run` — numbers without a gap, and one message for a key.
-/

namespace BeauClick.Chat

open Locks ReadCommitted ReadCommitted.Versioned Runs Transactions Option
open Function (update update_self update_of_ne)

variable {config : ChatConfig} {env : ChatEnv} {db db' : ChatDb} {p q n sequence : ℕ}
  {place place' : ChatPlace} {i : SendMessageInput} {c : ChatConversationEntity}
  {m : ChatMessageEntity} {k : Uuid} {now : Instant} {s : System ChatDb Uuid ChatPlace}
  {keyed : Prop}

/-! ## What is committed -/

/-- The conversations and the messages in them. -/
structure ChatSound (db : ChatDb) : Prop where
  id : ∀ k c, db.conversations.committed k = some c → c.id = k
  count : ∀ k c, db.conversations.committed k = some c → c.lastSequence = c.messageCount
  sequence : ∀ k c, db.conversations.committed k = some c → ∀ sequence,
    db.messages.committed (k, sequence) ≠ none ↔ 1 ≤ sequence ∧ sequence ≤ c.lastSequence
  known : ∀ k sequence m, db.messages.committed (k, sequence) = some m →
    m.conversationId = k ∧ m.sequence = sequence ∧ db.conversations.committed k ≠ none
  key : Apart SameKey db.messages

/-- A message has been sent under the call's key. -/
def Used (db : ChatDb) (i : SendMessageInput) : Prop :=
  ∃ key ∈ db.messages.keys, ∃ m ∈ db.messages.committed key, i.Keyed m
  deriving Decidable

theorem used_iff : Used db i ↔ ∃ key m, db.messages.committed key = some m ∧ i.Keyed m := by
  constructor
  · rintro ⟨key, -, m, hm, hkeyed⟩
    exact ⟨key, m, hm, hkeyed⟩
  · rintro ⟨key, m, hm, hkeyed⟩
    exact ⟨key, mem_keys_of_committed hm, m, hm, hkeyed⟩

/-- The call has written no conversation and no message. -/
structure Clean (db : ChatDb) (p : ℕ) : Prop where
  conversations : db.conversations.Untouched p
  messages : db.messages.Untouched p

/-- The message is the call's own, and committed. -/
structure Answered (db : ChatDb) (i : SendMessageInput) (m : ChatMessageEntity) : Prop where
  committed : db.messages.committed (m.conversationId, m.sequence) = some m
  conversation : m.conversationId = i.conversationId
  sender : m.senderUserId = i.senderUserId
  key : m.idempotencyKey = i.idempotencyKey

/-- The conversation's next place in sequence. -/
def NextIs (db : ChatDb) (conversationId : Uuid) (sequence : ℕ) : Prop :=
  ∃ row, db.conversations.committed conversationId = some row ∧ row.lastSequence + 1 = sequence

/-- The message that the call has written, and nothing else is written of any message. -/
structure Written (db : ChatDb) (p : ℕ) (i : SendMessageInput) (m : ChatMessageEntity) : Prop where
  message : db.messages.Wrote p (m.conversationId, m.sequence) m
  only : db.messages.OnlyAt p (m.conversationId, m.sequence)
  conversation : m.conversationId = i.conversationId
  sender : m.senderUserId = i.senderUserId
  key : m.idempotencyKey = i.idempotencyKey

/-- The conversation is written too. -/
structure Bumped (db : ChatDb) (p : ℕ) (i : SendMessageInput) (m : ChatMessageEntity) : Prop
    extends Written db p i m where
  row : ∃ row now, db.conversations.row m.conversationId =
    ⟨some row, some (p, row.bump m.sequence now)⟩ ∧ row.lastSequence + 1 = m.sequence
  onlyRow : db.conversations.OnlyAt p m.conversationId

/-- The call has inserted a conversation, or none. -/
def Opened (db : ChatDb) (p : ℕ) : Prop :=
  db.conversations.Untouched p ∨
    ∃ c, (c.lastSequence = 0 ∧ c.messageCount = 0 ∧ c.closedForSendingAt = none) ∧
      db.conversations.row c.id = ⟨none, some (p, c)⟩ ∧ db.conversations.OnlyAt p c.id

/-- A conversation that is there, or that the call has inserted. -/
def Known (db : ChatDb) (p : ℕ) (k : Uuid) : Prop :=
  db.conversations.committed k ≠ none ∨ (db.conversations.row k).WrittenBy p

/-- What a call has read and written at its place; `keyed` is whether keys are known not to be used
twice. -/
def ChatWork (keyed : Prop) (db : ChatDb) (p : ℕ) : ChatPlace → Prop
  | .sent i answer => Clean db p ∧ Answered db i answer.message
  | .violated _ => Clean db p ∧ ¬keyed
  | .findConversation _ => Opened db p ∧ db.messages.Untouched p
  | .ensureCustomer _ c | .findCustomer _ c =>
    Opened db p ∧ db.messages.Untouched p ∧ Known db p c.id
  | .evaluate i c | .lookup i c | .lock i c => Clean db p ∧ c.id = i.conversationId ∧
      db.conversations.committed i.conversationId ≠ none
  | .replay i _ m => Clean db p ∧ Answered db i m
  | .locked i c => Clean db p ∧ c.id = i.conversationId ∧
      db.conversations.committed i.conversationId ≠ none ∧ (keyed → ¬Used db i)
  | .reserve i c lastSequence | .daily i c lastSequence _ => Clean db p ∧
      c.id = i.conversationId ∧ NextIs db i.conversationId (lastSequence + 1) ∧
      (keyed → ¬Used db i)
  | .insert i c sequence => Clean db p ∧ c.id = i.conversationId ∧
      NextIs db i.conversationId sequence ∧ (keyed → ¬Used db i)
  | .bump i c m _ => db.conversations.Untouched p ∧ c.id = i.conversationId ∧ Written db p i m ∧
      NextIs db i.conversationId m.sequence
  | .watermark i c m _ | .announce i c m _ => c.id = i.conversationId ∧ Bumped db p i m
  | .finish i answer => Bumped db p i answer.message
  | _ => Clean db p

/-- The conversation that a call has locked. -/
def ChatHolds : ChatPlace → Uuid → LockMode → Prop
  | .locked i _, k, mode | .reserve i _ _, k, mode | .daily i _ _ _, k, mode
  | .insert i _ _, k, mode | .bump i _ _ _, k, mode | .watermark i _ _ _, k, mode
  | .announce i _ _ _, k, mode | .finish i _, k, mode => k = i.conversationId ∧ mode = .exclusive
  | _, _, _ => False

/-- The condition on a statement: a key that has been used is not refused, and its call does not
come to take the lock. -/
def PromptAt (config : ChatConfig) (env : ChatEnv) (db : ChatDb) (p : ℕ) : ChatPlace → Prop
  | .screen i => Used db i → config.isAcceptableChatMessage (config.body i.rawBody) = true
  | .load i => Used db i → ∃ c ∈ db.conversations.get p i.conversationId,
      sideOf env i.senderUserId c ≠ none
  | .evaluate i c => Used db i → evaluate env i.senderUserId c = none
  | .lock i _ => ¬Used db i
  | _ => True

/-- What holds of the tables, and what a call relies on. -/
def chatOutline (config : ChatConfig) : Outline ChatDb Uuid ChatPlace ChatEnv where
  Assumes := PromptAt config
  Sound := ChatSound
  Guarantee := fun _ _ => True
  Work := ChatWork True
  holds := ChatHolds

/-! ## What a step leaves to the calls beside it -/

/-- The conversation and its messages are as they were. -/
def Same (k : Uuid) (db db' : ChatDb) : Prop :=
  db'.conversations.committed k = db.conversations.committed k ∧
    ∀ sequence, db'.messages.committed (k, sequence) = db.messages.committed (k, sequence)

/-- What the step of another call leaves to a call. -/
structure Beside (q : ℕ) (db db' : ChatDb) : Prop where
  conversations : Others q db.conversations db'.conversations
  messages : Others q db.messages db'.messages
  grows : ∀ key m, db.messages.committed key = some m → db'.messages.committed key = some m
  stays : ∀ k, db.conversations.committed k ≠ none → db'.conversations.committed k ≠ none

theorem Opened.others (h : Opened db q) (hothers : Others q db.conversations db'.conversations) :
    Opened db' q := by
  rcases h with hunt | ⟨c, hnew, hrow, honly⟩
  · exact Or.inl (hothers.untouched hunt)
  · exact Or.inr ⟨c, hnew, hothers.row_of hrow, hothers.onlyAt honly⟩

section

variable (hb : Beside q db db')
include hb

theorem Clean.beside (h : Clean db q) : Clean db' q :=
  ⟨hb.conversations.untouched h.conversations, hb.messages.untouched h.messages⟩

theorem Answered.beside (h : Answered db i m) : Answered db' i m :=
  ⟨hb.grows _ _ h.committed, h.conversation, h.sender, h.key⟩

theorem Known.beside (h : Known db q k) : Known db' q k := by
  rcases h with hcomm | ⟨x, hwrit⟩
  · exact Or.inl (hb.stays k hcomm)
  · exact Or.inr ⟨x, hb.conversations.wrote_iff.2 hwrit⟩

theorem Written.beside (h : Written db q i m) : Written db' q i m :=
  ⟨hb.messages.wrote_iff.2 h.message, hb.messages.onlyAt h.only, h.conversation, h.sender, h.key⟩

theorem Bumped.beside (h : Bumped db q i m) : Bumped db' q i m := by
  obtain ⟨row, now, hrow, hnext⟩ := h.row
  exact ⟨h.toWritten.beside hb, ⟨row, now, hb.conversations.row_of hrow, hnext⟩,
    hb.conversations.onlyAt h.onlyRow⟩

end

theorem NextIs.same (h : NextIs db k n) (hsame : Same k db db') : NextIs db' k n := by
  obtain ⟨row, hrow, hn⟩ := h
  exact ⟨row, hsame.1.trans hrow, hn⟩

theorem not_used_same (hs' : ChatSound db') (hsame : Same i.conversationId db db')
    (h : ¬Used db i) : ¬Used db' i := by
  rw [used_iff] at h ⊢
  rintro ⟨⟨k, n⟩, m, hm, hkeyed⟩
  have hk : k = i.conversationId := (hs'.known k n m hm).1.symm.trans hkeyed.1
  subst hk
  rw [hsame.2] at hm
  exact h ⟨_, m, hm, hkeyed⟩

theorem chatWork_beside (hs' : ChatSound db') (h : ChatWork keyed db q place) (hb : Beside q db db')
    (hlocked : ∀ k mode, ChatHolds place k mode → Same k db db') : ChatWork keyed db' q place := by
  cases place with
  | sent => exact ⟨h.1.beside hb, h.2.beside hb⟩
  | violated => exact ⟨h.1.beside hb, h.2⟩
  | findConversation => exact ⟨h.1.others hb.conversations, hb.messages.untouched h.2⟩
  | ensureCustomer | findCustomer =>
    exact ⟨h.1.others hb.conversations, hb.messages.untouched h.2.1, h.2.2.beside hb⟩
  | evaluate | lookup | lock => exact ⟨h.1.beside hb, h.2.1, hb.stays _ h.2.2⟩
  | replay => exact ⟨h.1.beside hb, h.2.beside hb⟩
  | locked =>
    have hsame := hlocked _ _ ⟨rfl, rfl⟩
    exact ⟨h.1.beside hb, h.2.1, hb.stays _ h.2.2.1,
      fun hkeyed => not_used_same hs' hsame (h.2.2.2 hkeyed)⟩
  | reserve | daily | insert =>
    have hsame := hlocked _ _ ⟨rfl, rfl⟩
    exact ⟨h.1.beside hb, h.2.1, h.2.2.1.same hsame,
      fun hkeyed => not_used_same hs' hsame (h.2.2.2 hkeyed)⟩
  | bump =>
    have hsame := hlocked _ _ ⟨rfl, rfl⟩
    exact ⟨hb.conversations.untouched h.1, h.2.1, h.2.2.1.beside hb, h.2.2.2.same hsame⟩
  | watermark | announce => exact ⟨h.1, h.2.beside hb⟩
  | finish => exact Bumped.beside hb h
  | _ => exact Clean.beside hb h

theorem keeps_of_beside (hs : ChatSound db') (hb : ∀ q ≠ p, Beside q db db')
    (hlocked : ∀ q ≠ p, ∀ place', Together ChatHolds place place' → ChatWork True db q place' →
      ∀ k mode, ChatHolds place' k mode → Same k db db') :
    (chatOutline config).Keeps db p place db' where
  sound := hs
  guarantee := trivial
  others := fun q place' hq htog hw =>
    chatWork_beside hs hw (hb q hq) (hlocked q hq place' htog hw)

/-- The call commits nothing. -/
structure Quiet (p : ℕ) (db db' : ChatDb) : Prop where
  conversations : db'.conversations.committed = db.conversations.committed
  messages : db'.messages.committed = db.messages.committed
  key : Apart SameKey db.messages → Apart SameKey db'.messages
  others : ∀ q ≠ p, Others q db.conversations db'.conversations ∧
    Others q db.messages db'.messages

theorem quiet_of_eq (hconvs : db'.conversations = db.conversations)
    (hmessages : db'.messages = db.messages) : Quiet p db db' := by
  refine ⟨by rw [hconvs], by rw [hmessages], ?_, fun q _ => ?_⟩
  · rw [hmessages]
    exact id
  · rw [hconvs, hmessages]
    exact ⟨.refl, .refl⟩

theorem quiet_rollback : Quiet p db (db.rollback p) where
  conversations := committed_rollback
  messages := committed_rollback
  key := fun h => h.rollback
  others := fun _ hq => ⟨others_rollback hq, others_rollback hq⟩

section Quiet

variable (h : Quiet p db db')
include h

theorem Quiet.beside (hq : q ≠ p) : Beside q db db' := by
  refine ⟨(h.others q hq).1, (h.others q hq).2, ?_, ?_⟩
  · rw [h.messages]
    exact fun _ _ h => h
  · rw [h.conversations]
    exact fun _ h => h

theorem Quiet.same : Same k db db' :=
  ⟨congrFun h.conversations k, fun sequence => congrFun h.messages (k, sequence)⟩

theorem Quiet.sound (hs : ChatSound db) : ChatSound db' := by
  refine ⟨?_, ?_, ?_, ?_, h.key hs.key⟩
  · rw [h.conversations]
    exact hs.id
  · rw [h.conversations]
    exact hs.count
  · rw [h.conversations, h.messages]
    exact hs.sequence
  · rw [h.conversations, h.messages]
    exact hs.known

theorem Quiet.keeps (hs : ChatSound db) : (chatOutline config).Keeps db p place db' :=
  keeps_of_beside (h.sound hs) (fun _ hq => h.beside hq) fun _ _ _ _ _ _ _ _ => h.same

end Quiet

theorem clean_commit : Clean (db.commit p) p := ⟨untouched_commit, untouched_commit⟩

theorem clean_rollback : Clean (db.rollback p) p := ⟨untouched_rollback, untouched_rollback⟩

/-! ## The statements -/

/-- A statement that goes on commits nothing. -/
structure Passes (keyed : Prop) (db : ChatDb) (p : ℕ) (place : ChatPlace) (db' : ChatDb)
    (place' : ChatPlace) : Prop where
  quiet : Quiet p db db'
  work : ChatWork keyed db' p place'
  holds : ∀ k mode, ChatHolds place' k mode → ChatHolds place k mode
  running : place'.running = true

/-- From where a call commits, and where it comes to. -/
inductive Ends : ChatPlace → ChatPlace → Prop where
  | starts (i : StartInput) (c : ChatConversationEntity) : Ends (.findCustomer i c) (.started c.id)
  | replays (i : SendMessageInput) (c : ChatConversationEntity) (m : ChatMessageEntity)
    (others : List Uuid) : Ends (.replay i c m) (.sent i ⟨m, c, others⟩)
  | sends (i : SendMessageInput) (answer : Sent) : Ends (.finish i answer) (.sent i answer)

/-- How a call fails: its key has not been used. -/
inductive Fails (keyed : Prop) (db : ChatDb) : ChatPlace → Prop where
  | declined (i : StartInput) (reason : ChatRefusal) : Fails keyed db (.declined i reason)
  | refused (i : SendMessageInput) (reason : ChatRefusal) (hunused : keyed → ¬Used db i) :
    Fails keyed db (.refused i reason)
  | violated (i : SendMessageInput) (hkeyed : ¬keyed) : Fails keyed db (.violated i)

theorem quiet_refl : Quiet p db db := quiet_of_eq rfl rfl

theorem answered_of_lookup (hs : ChatSound db) (hclean : Clean db p) {rest : List ChatMessageEntity}
    (hfound : (db.messages.select p fun m => i.Keyed m).filterMap (db.messages.get p) = m :: rest) :
    Answered db i m := by
  have hmem : m ∈ (db.messages.select p fun m => i.Keyed m).filterMap (db.messages.get p) := by
    rw [hfound]
    exact List.mem_cons_self
  obtain ⟨⟨k, n⟩, hkey, hget⟩ := List.mem_filterMap.1 hmem
  obtain ⟨_, hm', hkeyed⟩ := (mem_select hclean.messages).1 hkey
  rw [hclean.messages.get_eq] at hget
  cases hm'.symm.trans hget
  obtain ⟨hconv, hsender, -, hkey'⟩ := of_decide_eq_true hkeyed
  obtain ⟨rfl, rfl, -⟩ := hs.known k n m hget
  exact ⟨hget, hconv, hsender, hkey'⟩

/-- What is shown of a statement. -/
abbrev Shown (keyed : Prop) (db : ChatDb) (p : ℕ) (place : ChatPlace) :
    Next ChatDb Uuid ChatPlace → Prop :=
  Next.Meets (Passes keyed db p place)
    (fun key mode place' => ChatWork keyed db p place' ∧
      (∀ k m, ChatHolds place' k m → k = key ∧ m = mode) ∧ place'.running = true)
    (Ends place) (Fails keyed db)

theorem shown_check (config : ChatConfig) (env : ChatEnv) (hs : ChatSound db)
    (hm : keyed → PromptAt config env db p place) (hw : ChatWork keyed db p place) :
    Shown keyed db p place (checkStatement config env db p place) := by
  cases place with
  | screen i =>
    dsimp only [checkStatement]
    split
    · exact ⟨quiet_refl, hw, fun _ _ h => h, rfl⟩
    · rename_i hunacceptable
      exact .refused i _ fun hkeyed hused => hunacceptable (hm hkeyed hused)
  | load i =>
    have hclean : Clean db p := hw
    dsimp only [checkStatement]
    split
    · rename_i hget
      refine .refused i _ fun hkeyed hused => ?_
      obtain ⟨c, hc, -⟩ := hm hkeyed hused
      cases hget.symm.trans hc
    · rename_i c hget
      split
      · rename_i hside
        refine .refused i _ fun hkeyed hused => ?_
        obtain ⟨_, hc', hside'⟩ := hm hkeyed hused
        cases hget.symm.trans hc'
        exact hside' hside
      · rw [hclean.conversations.get_eq] at hget
        refine ⟨quiet_refl, ⟨hw, hs.id _ c hget, ?_⟩, fun _ _ h => h, rfl⟩
        rw [hget]
        simp
  | evaluate i =>
    dsimp only [checkStatement]
    split
    · rename_i hreason
      refine .refused i _ fun hkeyed hused => ?_
      cases hreason.symm.trans (hm hkeyed hused)
    · split
      · exact ⟨quiet_refl, hw, fun _ _ h => h, rfl⟩
      · exact ⟨quiet_refl, hw, fun _ _ h => h, rfl⟩
  | lookup =>
    dsimp only [checkStatement]
    split
    · exact ⟨quiet_refl, hw, fun _ _ h => h, rfl⟩
    · rename_i hfound
      exact ⟨quiet_refl, ⟨hw.1, answered_of_lookup hs hw.1 hfound⟩, fun _ _ h => h, rfl⟩
  | replay i c existing => exact .replays i c existing _
  | lock =>
    -- the lock is taken by a call whose key has not been used
    obtain ⟨hclean, hid, hknown⟩ := hw
    refine ⟨⟨hclean, hid, hknown, hm⟩, ?_, rfl⟩
    rintro k m ⟨rfl, rfl⟩
    exact ⟨hid.symm, rfl⟩
  | _ => trivial

theorem shown_reserve (config : ChatConfig) (env : ChatEnv) (hw : ChatWork keyed db p place) :
    Shown keyed db p place (reserveStatement config env db p place) := by
  cases place with
  | locked i =>
    obtain ⟨hclean, hid, -, hunused⟩ := hw
    dsimp only [reserveStatement]
    split
    · exact .refused i _ hunused
    · rename_i row hget
      rw [hclean.conversations.get_eq, hid] at hget
      exact ⟨quiet_refl, ⟨hclean, hid, ⟨row, hget, rfl⟩, hunused⟩, fun _ _ h => h, rfl⟩
  | reserve i =>
    have hclean : Clean db p := hw.1
    have hcounts : ∀ t, Clean { db with sendCounters := t } p :=
      fun _ => ⟨hclean.conversations, hclean.messages⟩
    dsimp only [reserveStatement]
    split
    · trivial
    · split
      · exact ⟨quiet_of_eq rfl rfl, ⟨hcounts _, hw.2⟩, fun _ _ h => h, rfl⟩
      · split
        · exact ⟨quiet_of_eq rfl rfl, ⟨hcounts _, hw.2⟩, fun _ _ h => h, rfl⟩
        · exact .refused i _ hw.2.2.2
  | daily i =>
    dsimp only [reserveStatement]
    split
    · exact .refused i _ hw.2.2.2
    · exact ⟨quiet_refl, hw, fun _ _ h => h, rfl⟩
  | _ => trivial

theorem insert_ne_violated (config : ChatConfig) (id : Uuid) (hs : ChatSound db)
    (hclean : Clean db p) (hid : c.id = i.conversationId)
    (hnext : NextIs db i.conversationId sequence) (hunused : ¬Used db i) :
    db.messages.insert p (c.id, sequence) (i.newMessage config c id sequence)
      (SameKey (i.newMessage config c id sequence)) ≠ .violated := by
  intro hviol
  unfold Versioned.insert at hviol
  split_ifs at hviol with hlock hsome
  · obtain ⟨row, hrow, _⟩ := hnext
    rw [hclean.messages.get_eq, hid, isSome_iff_ne_none] at hsome
    have hle := ((hs.sequence _ row hrow sequence).1 hsome).2
    omega
  · obtain ⟨k', -, hlock', y, hy, hsame⟩ := writeChecked_eq_violated hviol
    -- a version that is there to stay is committed, for the call has written none
    have hcomm : db.messages.committed k' = some y := by
      rcases hy with hy | ⟨q, hy⟩
      · exact hy
      · by_cases hqp : q = p
        · subst hqp
          exact absurd ⟨y, hy⟩ (hclean.messages k')
        · exact absurd ⟨q, y, hy, hqp⟩ hlock'
    obtain ⟨hconv, hsender, hkey, hkey'⟩ := hsame
    exact hunused (used_iff.2 ⟨k', y, hcomm, hconv.symm.trans hid, hsender.symm,
      hkey, hkey'.symm⟩)

theorem apart_insert {key : Uuid × ℕ} (h : Apart SameKey db.messages)
    (hfree : ∀ k' ≠ key, ∀ v, (db.messages.row k').Version v → ¬SameKey m v) :
    Apart SameKey (db.messages.write p key m) := by
  refine h.write (fun m m' h => ⟨h.1.symm, h.2.1.symm, ?_, h.2.2.2.symm⟩) hfree
  rw [← h.2.2.2]
  exact h.2.2.1

theorem written_insert (hclean : Clean db p) (hid : c.id = i.conversationId)
    (hm : m = i.newMessage config c env.uuid sequence) :
    Written { db with messages := db.messages.write p (c.id, sequence) m } p i m := by
  subst hm
  exact ⟨wrote_write_self, hclean.messages.onlyAt.write, hid, rfl, rfl⟩

theorem update_bump (hw : ChatWork keyed db p (.bump i c m now)) :
    db.conversations.update p c.id (fun _ => True) (fun row => row.bump m.sequence now) = .waits ∨
      ∃ row, db.conversations.committed m.conversationId = some row ∧
        row.lastSequence + 1 = m.sequence ∧ ¬(db.conversations.row m.conversationId).Locked p ∧
        db.conversations.update p c.id (fun _ => True) (fun row => row.bump m.sequence now) =
          .done (row.bump m.sequence now)
            (db.conversations.write p m.conversationId (row.bump m.sequence now)) := by
  obtain ⟨hunt, hid, hwrit, row, hrow, hnext⟩ := hw
  rw [hwrit.conversation, ← hid]
  rw [← hid] at hrow
  have hget : db.conversations.get p c.id = some row := by
    rw [hunt.get_eq, hrow]
  rcases update_waits_or_done (fun _ => True) (fun row => row.bump m.sequence now) hget trivial
    with hwaits | hdone
  · exact Or.inl hwaits
  · obtain ⟨_, -, -, hlock, -, -⟩ := update_eq_done hdone
    exact Or.inr ⟨row, hrow, hnext, hlock, hdone⟩

theorem bumped_write {row : ChatConversationEntity} (hunt : db.conversations.Untouched p)
    (hwrit : Written db p i m) (hrow : db.conversations.committed m.conversationId = some row)
    (hnext : row.lastSequence + 1 = m.sequence) :
    Bumped { db with
      conversations := db.conversations.write p m.conversationId (row.bump m.sequence now) } p i
        m := by
  refine ⟨⟨hwrit.message, hwrit.only, hwrit.conversation, hwrit.sender, hwrit.key⟩,
    ⟨row, now, ?_, hnext⟩, hunt.onlyAt.write⟩
  rw [row_write (hunt _), hunt.get_eq, hrow]

theorem Bumped.of_eq (h : Bumped db p i m) (hconvs : db'.conversations = db.conversations)
    (hmessages : db'.messages = db.messages) : Bumped db' p i m := by
  obtain ⟨⟨hwrote, honly, hconv, hsender, hkey⟩, hrow, honlyRow⟩ := h
  rw [← hconvs] at hrow honlyRow
  rw [← hmessages] at hwrote honly
  exact ⟨⟨hwrote, honly, hconv, hsender, hkey⟩, hrow, honlyRow⟩

theorem NextIs.known (h : NextIs db k n) : db.conversations.committed k ≠ none := by
  obtain ⟨_, hrow, -⟩ := h
  simp [hrow]

theorem Bumped.known (h : Bumped db p i m) :
    db.conversations.committed i.conversationId ≠ none := by
  obtain ⟨row, _, hrow, -⟩ := h.row
  rw [← h.conversation, committed_of_row hrow]
  simp

theorem work_known {mode : LockMode} (hw : ChatWork keyed db q place) (hholds : ChatHolds place k mode) :
    db.conversations.committed k ≠ none := by
  cases place with
  | locked =>
    obtain ⟨rfl, -⟩ := hholds
    exact hw.2.2.1
  | reserve | daily | insert =>
    obtain ⟨rfl, -⟩ := hholds
    exact hw.2.2.1.known
  | bump =>
    obtain ⟨rfl, -⟩ := hholds
    exact hw.2.2.2.known
  | watermark | announce =>
    obtain ⟨rfl, -⟩ := hholds
    exact hw.2.known
  | finish =>
    obtain ⟨rfl, -⟩ := hholds
    exact Bumped.known hw
  | _ => exact hholds.elim

theorem ChatSound.of_new (hs : ChatSound db) (hnone : db.conversations.committed c.id = none)
    (hnew : c.lastSequence = 0 ∧ c.messageCount = 0)
    (hconvs : db'.conversations.committed =
      update db.conversations.committed c.id (some c))
    (hmessages : db'.messages.committed = db.messages.committed)
    (hkey : Apart SameKey db'.messages) : ChatSound db' := by
  have hcases : ∀ k c', db'.conversations.committed k = some c' →
      k = c.id ∧ c' = c ∨ db.conversations.committed k = some c' := by
    intro k c' hc
    rw [hconvs] at hc
    by_cases hk : k = c.id
    · rw [hk, update_self] at hc
      exact Or.inl ⟨hk, (some.inj hc).symm⟩
    · rw [update_of_ne hk] at hc
      exact Or.inr hc
  refine ⟨?_, ?_, ?_, ?_, hkey⟩
  · intro k c' hc
    rcases hcases k c' hc with ⟨rfl, rfl⟩ | hc
    · rfl
    · exact hs.id k c' hc
  · intro k c' hc
    rcases hcases k c' hc with ⟨rfl, rfl⟩ | hc
    · exact hnew.1.trans hnew.2.symm
    · exact hs.count k c' hc
  · intro k c' hc sequence
    rw [hmessages]
    rcases hcases k c' hc with ⟨rfl, rfl⟩ | hc
    · refine iff_of_false ?_ (by omega)
      intro hsome
      obtain ⟨m, hm⟩ := ne_none_iff_exists'.1 hsome
      exact (hs.known _ _ m hm).2.2 hnone
    · exact hs.sequence k c' hc sequence
  · intro k sequence m hm
    rw [hmessages] at hm
    obtain ⟨hconv, hseq, hknown⟩ := hs.known k sequence m hm
    refine ⟨hconv, hseq, ?_⟩
    rw [hconvs, update_of_ne]
    · exact hknown
    · rintro rfl
      exact hknown hnone

theorem known_of_found {rest : List ChatConversationEntity} {P : ChatConversationEntity → Bool}
    (hs : ChatSound db) (hopened : Opened db p)
    (hfound : (db.conversations.select p P).filterMap (db.conversations.get p) = c :: rest) :
    Known db p c.id := by
  have hmem : c ∈ (db.conversations.select p P).filterMap (db.conversations.get p) := by
    rw [hfound]
    exact List.mem_cons_self
  obtain ⟨k, -, hget⟩ := List.mem_filterMap.1 hmem
  by_cases hwrit : (db.conversations.row k).WrittenBy p
  · rcases hopened with hunt | ⟨_, -, hrow, honly⟩
    · exact absurd hwrit (hunt k)
    obtain rfl := honly k hwrit
    rw [(wrote_of_row hrow).get_eq] at hget
    cases hget
    exact Or.inr hwrit
  · rw [get_of_not hwrit] at hget
    rw [hs.id k c hget]
    exact Or.inl (by simp [hget])

theorem shown_start (env : ChatEnv) (hs : ChatSound db) (hw : ChatWork keyed db p place) :
    Shown keyed db p place (startStatement env db p place) := by
  cases place with
  | eligible i =>
    dsimp only [startStatement]
    split
    · exact ⟨quiet_refl, hw, fun _ _ h => h, rfl⟩
    · exact .declined i _
  | insertConversation =>
    have hclean : Clean db p := hw
    dsimp only [startStatement]
    split
    · trivial
    · rename_i hins
      obtain ⟨-, rfl, hlock, hget, -⟩ := insert_eq_done hins
      refine ⟨⟨committed_write, rfl, id, fun q hq => ⟨others_write hq hlock, .refl⟩⟩,
        ⟨Or.inr ⟨_, ⟨rfl, rfl, rfl⟩, ?_, hclean.conversations.onlyAt.write⟩, hclean.messages⟩,
        fun _ _ h => h, rfl⟩
      rw [row_write (hclean.conversations _), hget]
    · exact ⟨quiet_refl, ⟨Or.inl hclean.conversations, hclean.messages⟩, fun _ _ h => h, rfl⟩
  | findConversation i =>
    dsimp only [startStatement]
    split
    · exact .declined i _
    · rename_i hfound
      exact ⟨quiet_refl, ⟨hw.1, hw.2, known_of_found hs hw.1 hfound⟩, fun _ _ h => h, rfl⟩
  | ensureCustomer =>
    dsimp only [startStatement]
    split
    · trivial
    · exact ⟨quiet_of_eq rfl rfl, hw, fun _ _ h => h, rfl⟩
    · exact ⟨quiet_refl, hw, fun _ _ h => h, rfl⟩
  | findCustomer i c =>
    dsimp only [startStatement]
    split
    · exact .declined i _
    · exact .starts i c
  | _ => trivial

/-! ## The commit of a conversation -/

/-- The conversations are as they were, or there is one more. -/
theorem Opened.committed (h : Opened db p) :
    (db.commit p).conversations.committed = db.conversations.committed ∨
      ∃ c, (c.lastSequence = 0 ∧ c.messageCount = 0) ∧ db.conversations.committed c.id = none ∧
        (db.commit p).conversations.committed =
          update db.conversations.committed c.id (some c) := by
  rcases h with hunt | ⟨c, hnew, hrow, honly⟩
  · exact Or.inl hunt.committed_commit
  · exact Or.inr ⟨c, ⟨hnew.1, hnew.2.1⟩, committed_of_row hrow,
      committed_commit_of_onlyAt (wrote_of_row hrow) honly⟩

/-- What the call reads is what is committed, or the conversation that it has inserted. -/
theorem Opened.get (h : Opened db p) (k : Uuid) :
    db.conversations.get p k = db.conversations.committed k ∨
      db.conversations.committed k = none ∧ ∃ c, db.conversations.get p k = some c ∧ c.id = k := by
  rcases h with hunt | ⟨c, -, hrow, honly⟩
  · exact Or.inl hunt.get_eq
  · by_cases hk : k = c.id
    · subst hk
      exact Or.inr ⟨committed_of_row hrow, c, (wrote_of_row hrow).get_eq, rfl⟩
    · exact Or.inl (get_of_not fun hwrit => hk (honly k hwrit))

section Opened

variable (hopened : Opened db p) (hmessages : db.messages.Untouched p)

include hopened in
theorem Opened.kept (hk : db.conversations.committed k ≠ none) :
    (db.commit p).conversations.committed k = db.conversations.committed k :=
  committed_commit.trans ((hopened.get k).resolve_right fun h => hk h.1)

include hopened hmessages

theorem Opened.sound (hs : ChatSound db) : ChatSound (db.commit p) := by
  have hcomm : (db.commit p).messages.committed = db.messages.committed :=
    hmessages.committed_commit
  rcases hopened.committed with hsame | ⟨_, hnew, hnone, hupd⟩
  · have hquiet : Quiet p db (db.commit p) := ⟨hsame, hcomm, fun h => h.commit,
      fun q hq => ⟨others_commit hq, others_commit hq⟩⟩
    exact hquiet.sound hs
  · exact hs.of_new hnone hnew hupd hcomm hs.key.commit

theorem Opened.beside_commit (hq : q ≠ p) : Beside q db (db.commit p) := by
  refine ⟨others_commit hq, others_commit hq, ?_, ?_⟩
  · intro key m hm
    exact (congrFun hmessages.committed_commit key).trans hm
  · intro k hk
    rw [hopened.kept hk]
    exact hk

theorem Opened.same (hk : db.conversations.committed k ≠ none) : Same k db (db.commit p) :=
  ⟨hopened.kept hk, fun _ => congrFun hmessages.committed_commit _⟩

theorem Opened.keeps (hs : ChatSound db) : (chatOutline config).Keeps db p place (db.commit p) :=
  keeps_of_beside (hopened.sound hmessages hs) (fun _ hq => hopened.beside_commit hmessages hq)
    fun _ _ _ _ hw _ _ hholds => hopened.same hmessages (work_known hw hholds)

end Opened

/-! ## The commit of a message -/

section Commit

variable (hs : ChatSound db) (h : Bumped db p i m)

include h in
theorem Bumped.conversations_commit : ∃ row now,
    db.conversations.committed m.conversationId = some row ∧ row.lastSequence + 1 = m.sequence ∧
      (db.commit p).conversations.committed = update db.conversations.committed
        m.conversationId (some (row.bump m.sequence now)) := by
  obtain ⟨row, now, hrow, hnext⟩ := h.row
  exact ⟨row, now, committed_of_row hrow, hnext,
    committed_commit_of_onlyAt (wrote_of_row hrow) h.onlyRow⟩

include h in
theorem Bumped.messages_commit : (db.commit p).messages.committed =
    update db.messages.committed (m.conversationId, m.sequence) (some m) :=
  committed_commit_of_onlyAt h.message h.only

include hs h in
theorem Bumped.committed_eq_none :
    db.messages.committed (m.conversationId, m.sequence) = none := by
  obtain ⟨row, -, hold, _, -⟩ := h.conversations_commit
  by_contra hsome
  have hle := ((hs.sequence _ row hold m.sequence).1 hsome).2
  omega

include h in
theorem Bumped.same {k : Uuid} (hk : k ≠ m.conversationId) : Same k db (db.commit p) := by
  obtain ⟨_, _, -, -, hconvs⟩ := h.conversations_commit
  refine ⟨?_, ?_⟩
  · rw [hconvs, update_of_ne hk]
  · intro sequence
    rw [h.messages_commit, update_of_ne (fun heq => hk (Prod.mk.inj heq).1)]

include hs h in
theorem Bumped.sound_commit : ChatSound (db.commit p) := by
  obtain ⟨row, now, hold, hnext, hconvs⟩ := h.conversations_commit
  have hmessages := h.messages_commit
  refine ⟨?_, ?_, ?_, ?_, hs.key.commit⟩
  · intro k c hc
    rw [hconvs] at hc
    by_cases hk : k = m.conversationId
    · rw [hk, update_self] at hc
      cases hc
      rw [hk]
      exact hs.id _ row hold
    · rw [update_of_ne hk] at hc
      exact hs.id k c hc
  · intro k c hc
    rw [hconvs] at hc
    by_cases hk : k = m.conversationId
    · rw [hk, update_self] at hc
      cases hc
      have hcnt := hs.count _ row hold
      show m.sequence = row.messageCount + 1
      omega
    · rw [update_of_ne hk] at hc
      exact hs.count k c hc
  · intro k c hc sequence
    rw [hconvs] at hc
    rw [hmessages]
    by_cases hk : k = m.conversationId
    · subst hk
      rw [update_self] at hc
      cases hc
      have hseq := hs.sequence _ row hold sequence
      by_cases hlast : sequence = m.sequence
      · rw [hlast, update_self]
        refine iff_of_true (by simp) ⟨by omega, ?_⟩
        exact le_refl m.sequence
      · rw [update_of_ne (by simpa using hlast), hseq]
        show _ ↔ 1 ≤ sequence ∧ sequence ≤ m.sequence
        omega
    · rw [update_of_ne hk] at hc
      rw [update_of_ne (fun heq => hk (Prod.mk.inj heq).1)]
      exact hs.sequence k c hc sequence
  · intro k sequence m' hm'
    rw [hmessages] at hm'
    rw [hconvs]
    by_cases hkey' : (k, sequence) = (m.conversationId, m.sequence)
    · cases hkey'
      rw [update_self] at hm'
      cases hm'
      rw [update_self]
      exact ⟨rfl, rfl, by simp⟩
    · rw [update_of_ne hkey'] at hm'
      obtain ⟨hconv', hseq', hknown⟩ := hs.known k sequence m' hm'
      refine ⟨hconv', hseq', ?_⟩
      by_cases hk : k = m.conversationId
      · rw [hk, update_self]
        simp
      · rw [update_of_ne hk]
        exact hknown

include hs h in
theorem Bumped.beside_commit (hq : q ≠ p) : Beside q db (db.commit p) := by
  refine ⟨others_commit hq, others_commit hq, ?_, ?_⟩
  · intro key' m' hm'
    rw [h.messages_commit, update_of_ne, hm']
    rintro rfl
    cases (h.committed_eq_none hs).symm.trans hm'
  · intro k hk
    obtain ⟨_, _, -, -, hconvs⟩ := h.conversations_commit
    rw [hconvs]
    by_cases hkm : k = m.conversationId
    · rw [hkm, update_self]
      simp
    · rw [update_of_ne hkm]
      exact hk

end Commit

theorem shown_write (config : ChatConfig) (env : ChatEnv) (hs : ChatSound db)
    (hw : ChatWork keyed db p place) :
    Shown keyed db p place (writeStatement config env db p place) := by
  cases place with
  | insert i =>
    obtain ⟨hclean, hid, hnext, hunused⟩ := hw
    dsimp only [writeStatement]
    split
    · split
      · trivial
      · rename_i hins
        obtain ⟨-, rfl, hlock, -, hfree⟩ := insert_eq_done hins
        exact ⟨⟨rfl, committed_write, fun h => apart_insert h hfree,
          fun q hq => ⟨.refl, others_write hq hlock⟩⟩,
          ⟨hclean.conversations, hid, written_insert hclean hid rfl, hnext⟩, fun _ _ h => h, rfl⟩
      · rename_i hne hdone
        -- an insert that neither waits nor is done is refused by an index
        exact .violated i fun hkeyed => absurd (insert_eq_violated hne hdone)
          (insert_ne_violated config env.uuid hs hclean hid hnext (hunused hkeyed))
    · trivial
  | bump =>
    dsimp only [writeStatement]
    rcases update_bump hw with hwaits | ⟨_, hrow, hnext, hlock, hdone⟩
    · rw [hwaits]
      trivial
    · rw [hdone]
      obtain ⟨hunt, hid, hwrit, -⟩ := hw
      exact ⟨⟨committed_write, rfl, id, fun q hq => ⟨others_write hq hlock, .refl⟩⟩,
        ⟨hid, bumped_write hunt hwrit hrow hnext⟩, fun _ _ h => h, rfl⟩
  | watermark =>
    dsimp only [writeStatement]
    split
    · trivial
    · exact ⟨quiet_of_eq rfl rfl, ⟨hw.1, hw.2.of_eq rfl rfl⟩, fun _ _ h => h, rfl⟩
    · exact ⟨quiet_refl, hw, fun _ _ h => h, rfl⟩
  | announce =>
    exact ⟨quiet_of_eq rfl rfl, hw.2.of_eq rfl rfl, fun _ _ h => h, rfl⟩
  | finish i answer => exact .sends i answer
  | _ => trivial

/-- What each statement of a send keeps. -/
theorem shown_statement (env : ChatEnv) (hs : ChatSound db)
    (hm : keyed → PromptAt config env db p place) (hw : ChatWork keyed db p place) :
    Shown keyed db p place (statement config env db p place) := by
  cases place with
  | eligible | insertConversation | findConversation | ensureCustomer | findCustomer =>
    exact shown_start env hs hw
  | locked | reserve | daily => exact shown_reserve config env hw
  | insert | bump | watermark | announce | finish => exact shown_write config env hs hw
  | _ => exact shown_check config env hs hm hw

/-! ## How a call ends -/

theorem Bumped.keeps_commit {answer : Sent} (hs : ChatSound db)
    (h : Bumped db p i answer.message) :
    (chatOutline config).Keeps db p (.finish i answer) (db.commit p) := by
  refine keeps_of_beside (h.sound_commit hs) (fun q hq => h.beside_commit hs hq) ?_
  -- whoever holds a conversation holds another one
  intro q _ place' htog _ k mode hholds
  refine h.same ?_
  rintro rfl
  have hshared := (htog answer.message.conversationId .exclusive mode
    ⟨h.conversation, rfl⟩ hholds).1
  cases hshared

theorem work_ends (hw : ChatWork keyed db p place) (h : Ends place place') :
    ChatWork keyed (db.commit p) p place' := by
  cases h with
  | starts => exact clean_commit
  | replays =>
    obtain ⟨hclean, hanswered⟩ := hw
    refine ⟨clean_commit, ?_, hanswered.conversation, hanswered.sender, hanswered.key⟩
    exact (congrFun hclean.messages.committed_commit _).trans hanswered.committed
  | sends i answer =>
    have hbumped : Bumped db p i answer.message := hw
    refine ⟨clean_commit, ?_, hbumped.conversation, hbumped.sender, hbumped.key⟩
    rw [hbumped.messages_commit, update_self]

theorem keeps_ends (hs : ChatSound db) (hw : ChatWork True db p place) (h : Ends place place') :
    (chatOutline config).Keeps db p place (db.commit p) := by
  cases h with
  | starts => exact hw.1.keeps hw.2.1 hs
  | replays =>
    exact Opened.keeps (Or.inl hw.1.conversations) hw.1.messages hs
  | sends => exact Bumped.keeps_commit hs hw

theorem work_fails (h : Fails keyed db place') : ChatWork keyed (db.rollback p) p place' := by
  cases h with
  | declined | refused => exact clean_rollback
  | violated i hkeyed => exact ⟨clean_rollback, hkeyed⟩

theorem Ends.not_holds (h : Ends place place') (k : Uuid) (mode : LockMode) :
    ¬ChatHolds place' k mode := by
  cases h with
  | _ => exact id

theorem Fails.not_holds (h : Fails keyed db place') (k : Uuid) (mode : LockMode) :
    ¬ChatHolds place' k mode := by
  cases h with
  | _ => exact id

/-- Each statement of a send keeps the sequence. -/
theorem chatProof (config : ChatConfig) : Proof (chatService config) (chatOutline config) where
  first := by
    intro db p request hw
    cases request with
    | _ => exact ⟨hw, fun _ _ h => h⟩
  goes := fun env db p place db' place' hm hs hw hst =>
    have h := (shown_statement env hs (fun _ => hm) hw).of_goes hst
    ⟨h.quiet.keeps hs, h.work, h.holds⟩
  locks := by
    intro env db p place key mode place' hm hs hw hst
    obtain ⟨hwork, hholds, -⟩ := (shown_statement env hs (fun _ => hm) hw).of_locks hst
    exact ⟨hwork, fun k m h => Or.inr (hholds k m h)⟩
  commits := fun env db p place place' hm hs hw hst =>
    have h := (shown_statement env hs (fun _ => hm) hw).of_commits hst
    ⟨keeps_ends hs hw h, work_ends hw h, h.not_holds⟩
  throws := fun env db p place place' hm hs hw hst =>
    have h := (shown_statement env hs (fun _ => hm) hw).of_throws hst
    ⟨quiet_rollback.keeps hs, work_fails h, h.not_holds⟩
  dies := fun db p place _ hs _ => ⟨quiet_rollback.keeps hs, clean_rollback, fun _ _ h => h⟩

/-! ## Every run -/

/-- The messages are in sequence and counted, there is one for each key, and a call has returned
the one of its own. -/
structure InOrder (s : System ChatDb Uuid ChatPlace) : Prop where
  sequence : ∀ k c, s.db.conversations.committed k = some c → ∀ n,
    s.db.messages.committed (k, n) ≠ none ↔ 1 ≤ n ∧ n ≤ c.lastSequence
  count : ∀ k c, s.db.conversations.committed k = some c → c.lastSequence = c.messageCount
  known : ∀ k n m, s.db.messages.committed (k, n) = some m →
    m.conversationId = k ∧ m.sequence = n ∧ s.db.conversations.committed k ≠ none
  once : ∀ key key' m m', s.db.messages.committed key = some m →
    s.db.messages.committed key' = some m' → SameKey m m' → key = key'
  returned : ∀ pid i answer, s.calls pid = .sent i answer → Answered s.db i answer.message
  noViolation : ∀ pid i, s.calls pid ≠ .violated i

/-- A call that the step refuses does not carry a key that has been used. -/
def ReturnsUsed (config : ChatConfig) (s : System ChatDb Uuid ChatPlace)
    (e : Step ChatRequest ChatEnv) : Prop :=
  ∀ s', (chatService config).step s e = some s' →
    ∀ i reason, s'.calls e.pid = .refused i reason → ¬Used s.db i

theorem inOrder_of_holds (h : (chatOutline config).Holds s) : InOrder s where
  sequence := h.sound.sequence
  count := h.sound.count
  known := h.sound.known
  once := fun _ _ _ _ hm hm' hsame => h.sound.key.committed hm hm' hsame
  returned := by
    intro pid i answer hsent
    have hw : ChatWork True s.db pid (s.calls pid) := h.work pid
    rw [hsent] at hw
    exact hw.2
  noViolation := by
    intro pid i hviol
    have hw : ChatWork True s.db pid (s.calls pid) := h.work pid
    rw [hviol] at hw
    exact hw.2 trivial

theorem returnsUsed_of_holds {e : Step ChatRequest ChatEnv} (h : (chatOutline config).Holds s)
    (hm : (chatOutline config).Meets s e) : ReturnsUsed config s e := by
  intro s' hstep i reason href
  have hplace : ∀ {pid place}, update s.calls pid place pid = .refused i reason →
      place = .refused i reason := by
    intro pid place hat
    rw [update_self] at hat
    exact hat
  have shown : ∀ {env pid}, PromptAt config env s.db pid (s.calls pid) →
      Shown True s.db pid (s.calls pid) (statement config env s.db pid (s.calls pid)) :=
    fun hm => shown_statement _ h.sound (fun _ => hm) (h.work _)
  have hended : ∀ {place : ChatPlace}, place.running = true → place ≠ .refused i reason := by
    rintro _ hrun rfl
    cases hrun
  cases Service.took_of_step hstep with
  | starts pid request =>
    have hfirst : request.first = .refused i reason := hplace href
    cases request with
    | _ => cases hfirst
  | goes pid env db place hst =>
    exact absurd (hplace href) (hended ((shown hm).of_goes hst).running)
  | locks pid env key mode place hst =>
    exact absurd (hplace href) (hended ((shown hm).of_locks hst).2.2)
  | commits pid env place hst =>
    have hends := (shown hm).of_commits hst
    rw [hplace href] at hends
    have hnever : ∀ place, ¬Ends place (.refused i reason) := nofun
    exact absurd hends (hnever _)
  | throws pid env place hst =>
    have hfails := (shown hm).of_throws hst
    rw [hplace href] at hfails
    cases hfails with
    | refused _ _ hunused => exact hunused trivial
  | dies => cases hplace href

theorem holds_start (config : ChatConfig) :
    (chatOutline config).Holds ((chatService config).start .empty) := by
  refine (chatProof config).holds_start ⟨?_, ?_, ?_, ?_, apart_empty⟩ fun p => ?_
  · intro k c hc
    cases hc
  · intro k c hc
    cases hc
  · intro k c hc
    cases hc
  · intro k n m hm
    cases hm
  · exact ⟨untouched_empty, untouched_empty⟩

/-- Whoever sends whatever at the same time: as long as no call takes the lock after its key has
been used, and none whose key has been used is refused before it, the messages are in order and a
used key is answered with its message. -/
theorem inOrder_run {es : List (Step ChatRequest ChatEnv)}
    (hprompt : Along (chatService config).step (chatOutline config).Meets
      ((chatService config).start .empty) es) :
    Throughout (chatService config).step InOrder ((chatService config).start .empty) es ∧
      Along (chatService config).step (ReturnsUsed config) ((chatService config).start .empty)
        es := by
  have hkeep : ∀ s e s', (chatOutline config).Holds s → (chatOutline config).Meets s e →
      (chatService config).step s e = some s' → (chatOutline config).Holds s' :=
    fun s e s' h hm hstep => ((chatProof config).holds_step h hm hstep).1
  constructor
  · exact throughout_of_along (fun s h => inOrder_of_holds h) hkeep (holds_start config) hprompt
  · exact hprompt.of_invariant hkeep (fun s e h hm => returnsUsed_of_holds h hm)
      (holds_start config)

/-! ## One key, twice -/

instance : (place : ChatPlace) → Decidable (PromptAt config env db p place) := by
  rintro ⟨⟩ <;> (unfold PromptAt; infer_instance)

instance (place : ChatPlace) : Decidable ((chatOutline config).Assumes env db p place) :=
  inferInstanceAs (Decidable (PromptAt config env db p place))

namespace Retried

/-- Text as it comes. -/
def asItComes : ChatConfig where
  normalizeNfc := id
  trim := id

/-- The customer is the first user, and the booking has just ended. -/
def eligible (uuid : Uuid) : ChatEnv := ⟨0, uuid, false, [2], false, some 0, true⟩

/-- A message with its key. -/
def input : SendMessageInput := ⟨1, 0, "hello", some "key"⟩

/-- The next `n` statements. -/
def takes (pid n : ℕ) : List (Step ChatRequest ChatEnv) :=
  List.replicate n ⟨pid, .statement (eligible pid)⟩

/-- A conversation, and two calls that are about to send the same message. -/
def begun : List (Step ChatRequest ChatEnv) :=
  [⟨0, .start (.startConversation ⟨1, "professional", 2⟩)⟩] ++ takes 0 5 ++
    [⟨1, .start (.sendMessage input)⟩, ⟨2, .start (.sendMessage input)⟩]

/-- The second call comes after the first one has ended. -/
def afterwards : List (Step ChatRequest ChatEnv) := begun ++ takes 1 13 ++ takes 2 5

/-- Both have looked for the key before either takes the lock. -/
def twoRetries : List (Step ChatRequest ChatEnv) :=
  begun ++ takes 1 4 ++ takes 2 4 ++ takes 1 9 ++ takes 2 5

end Retried

theorem inOrder_run_afterwards :
    Throughout (chatService Retried.asItComes).step InOrder
        ((chatService Retried.asItComes).start .empty) Retried.afterwards ∧
      Along (chatService Retried.asItComes).step (ReturnsUsed Retried.asItComes)
        ((chatService Retried.asItComes).start .empty) Retried.afterwards :=
  inOrder_run (by decide +kernel)

/-- The second call dies on the unique index. -/
theorem inOrder_twoRetries_fails : ∃ s,
    runFrom (chatService Retried.asItComes).step ((chatService Retried.asItComes).start .empty)
      Retried.twoRetries = some s ∧ ¬InOrder s := by
  obtain ⟨s, hs, hviol⟩ : ∃ s ∈ runFrom (chatService Retried.asItComes).step
      ((chatService Retried.asItComes).start .empty) Retried.twoRetries,
        s.calls 2 = .violated Retried.input := by
    decide +kernel
  exact ⟨s, hs, fun h => h.noViolation 2 _ hviol⟩

end BeauClick.Chat
