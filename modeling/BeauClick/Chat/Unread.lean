import BeauClick.Chat.Sequence
import BeauClick.Chat.Watermarks

/-!
# What is unread

A watermark is at the last thing that its user has marked or sent: what a call has written of it is
`Raised` by a message and `Marked` by a reader, and committed watermarks only rise (`Rises`).
-/

namespace BeauClick.Chat

open Locks ReadCommitted ReadCommitted.Versioned Runs Transactions List Option
open Function (update update_self update_of_ne)

namespace Watermark

variable {config : ChatConfig} {env : WatermarkEnv} {db db' : ChatDb} {p q w : ℕ}
  {place place' : WatermarkPlace} {chatPlace : ChatPlace} {i : SendMessageInput} {c : ChatConversationEntity}
  {m : ChatMessageEntity} {key : Uuid × Uuid} {k : Uuid}

/-! ## The condition -/

/-- The update of the sender's watermark has found a row. -/
def FoundAt (_ : WatermarkEnv) (db : ChatDb) (p : ℕ) : WatermarkPlace → Prop
  | .chat (.finish i _) => (db.participants.row (i.conversationId, i.senderUserId)).WrittenBy p
  | _ => True

/-- **The condition.**  A message is committed by a call that has updated its sender's watermark:
there was a row to update. -/
def FoundRow (s : System ChatDb Uuid WatermarkPlace) (step : Step WatermarkRequest WatermarkEnv) :
    Prop :=
  match step.action with
  | .statement env => FoundAt env s.db step.pid (s.calls step.pid)
  | _ => True

/-! ## Watermarks rise -/

/-- No watermark falls. -/
def Rises (t t' : Versioned ℕ (Uuid × Uuid) ℕ) : Prop :=
  ∀ key w, t.committed key = some w → ∃ w', t'.committed key = some w' ∧ w ≤ w'

section Rises

variable {t t' t'' : Versioned ℕ (Uuid × Uuid) ℕ}

theorem Rises.of_eq (h : t'.committed = t.committed) : Rises t t' := by
  intro key w hw
  exact ⟨w, by rw [h]; exact hw, le_refl w⟩

theorem Rises.trans (h : Rises t t') (h' : Rises t' t'') : Rises t t'' := by
  intro key w hw
  obtain ⟨w', hw', hle⟩ := h key w hw
  obtain ⟨w'', hw'', hle'⟩ := h' key w' hw'
  exact ⟨w'', hw'', hle.trans hle'⟩

theorem Rises.of_update {w' : ℕ} (h : t'.committed = update t.committed key (some w'))
    (hle : ∀ w, t.committed key = some w → w ≤ w') : Rises t t' := by
  intro key' w hw
  rw [h]
  by_cases hkey : key' = key
  · subst hkey
    exact ⟨w', update_self .., hle w hw⟩
  · exact ⟨w, by rw [update_of_ne hkey]; exact hw, le_refl w⟩

end Rises

theorem watermark_le (h : Rises db.participants db'.participants) (k userId : Uuid) :
    watermark db k userId ≤ watermark db' k userId := by
  rw [watermark, watermark]
  cases hw : db.participants.committed (k, userId) with
  | none => exact Nat.zero_le _
  | some w =>
    obtain ⟨_, hw', hle⟩ := h _ w hw
    rw [hw']
    exact hle

/-! ## What a call has read and written -/

/-- The call has written nothing. -/
structure Fresh (db : ChatDb) (p : ℕ) : Prop extends Clean db p where
  participants : db.participants.Untouched p

/-- The sender's watermark is raised to a message, if there is one. -/
def Raised (db : ChatDb) (p : ℕ) (key : Uuid × Uuid) (sequence : ℕ) : Prop :=
  db.participants.Untouched p ∨
    (∃ w, db.participants.row key = ⟨some w, some (p, max w sequence)⟩) ∧
      db.participants.OnlyAt p key

/-- The call has inserted a row with nothing read, or none. -/
def Seated (db : ChatDb) (p : ℕ) (key : Uuid × Uuid) : Prop :=
  db.participants.Untouched p ∨
    db.participants.row key = ⟨none, some (p, 0)⟩ ∧ db.participants.OnlyAt p key

/-- What a call that starts or sends has written of the watermarks at its place. -/
def SeatWork (db : ChatDb) (p : ℕ) : ChatPlace → Prop
  | .findCustomer i c => Seated db p (c.id, i.customerUserId)
  | .announce i _ m _ => Raised db p (i.conversationId, i.senderUserId) m.sequence
  | .finish i answer => Raised db p (i.conversationId, i.senderUserId) answer.message.sequence
  | _ => db.participants.Untouched p

/-- The conversation as it was read. -/
def ReadAs (db : ChatDb) (i : MarkReadInput) (c : ChatConversationEntity) : Prop :=
  c.id = i.conversationId ∧ ∃ row, db.conversations.committed i.conversationId = some row ∧
    c.lastSequence ≤ row.lastSequence

/-- The reader has a row. -/
def Reader (db : ChatDb) (p : ℕ) (key : Uuid × Uuid) : Prop :=
  db.participants.row key = ⟨none, some (p, 0)⟩ ∧ db.participants.OnlyAt p key ∨
    db.participants.Untouched p ∧ db.participants.committed key ≠ none

/-- The reader's watermark is raised to what they have marked. -/
def Marked (db : ChatDb) (p : ℕ) (key : Uuid × Uuid) (upTo : ℕ) : Prop :=
  (∃ w, db.participants.row key = ⟨w, some (p, max (w.getD 0) upTo)⟩) ∧
    db.participants.OnlyAt p key

/-- What a call has read and written at its place; keys may be used twice here. -/
def WatermarkWork (db : ChatDb) (p : ℕ) : WatermarkPlace → Prop
  | .chat place => ChatWork False db p place ∧ SeatWork db p place
  | .ensureReader i c => Fresh db p ∧ ReadAs db i c
  | .findReader i c => Clean db p ∧ ReadAs db i c ∧
      Seated db p (i.conversationId, i.callerUserId)
  | .advance i c => Clean db p ∧ ReadAs db i c ∧ Reader db p (i.conversationId, i.callerUserId)
  | .readBack i c => Clean db p ∧ ReadAs db i c ∧
      Marked db p (i.conversationId, i.callerUserId) (capped i c.lastSequence)
  | .marked i lastSequence _ => Fresh db p ∧
      capped i lastSequence ≤ watermark db i.conversationId i.callerUserId
  | _ => Fresh db p

/-- The conversation that a call has locked. -/
def WatermarkHolds : WatermarkPlace → Uuid → LockMode → Prop
  | .chat place, k, mode => ChatHolds place k mode
  | _, _, _ => False

/-- What is committed: the messages in sequence, and watermarks within their conversations and not
before their users' own messages. -/
structure WatermarkSound (db : ChatDb) : Prop extends ChatSound db where
  within : ∀ k userId w, db.participants.committed (k, userId) = some w →
    ∃ c, db.conversations.committed k = some c ∧ w ≤ c.lastSequence
  own : ∀ k sequence m, db.messages.committed (k, sequence) = some m →
    sequence ≤ watermark db k m.senderUserId

/-- What holds of the tables, what a call relies on, and that no watermark falls. -/
def watermarkOutline : Outline ChatDb Uuid WatermarkPlace WatermarkEnv where
  Assumes := FoundAt
  Sound := WatermarkSound
  Guarantee := fun db db' => Rises db.participants db'.participants
  Work := WatermarkWork
  holds := WatermarkHolds

/-! ## What a step leaves to the calls beside it -/

/-- What a step leaves to the calls around it. -/
structure Around (q : ℕ) (db db' : ChatDb) : Prop extends Beside q db db' where
  participants : Others q db.participants db'.participants
  rises : Rises db.participants db'.participants
  longer : ∀ k c, db.conversations.committed k = some c →
    ∃ c', db'.conversations.committed k = some c' ∧ c.lastSequence ≤ c'.lastSequence

section

variable (hb : Around q db db')
include hb

theorem Fresh.around (h : Fresh db q) : Fresh db' q :=
  ⟨h.toClean.beside hb.toBeside, hb.participants.untouched h.participants⟩

theorem Raised.around {sequence : ℕ} (h : Raised db q key sequence) :
    Raised db' q key sequence := by
  rcases h with hunt | ⟨⟨w, hw⟩, honly⟩
  · exact Or.inl (hb.participants.untouched hunt)
  · exact Or.inr ⟨⟨w, hb.participants.row_of hw⟩, hb.participants.onlyAt honly⟩

theorem Seated.around (h : Seated db q key) : Seated db' q key := by
  rcases h with hunt | ⟨hrow, honly⟩
  · exact Or.inl (hb.participants.untouched hunt)
  · exact Or.inr ⟨hb.participants.row_of hrow, hb.participants.onlyAt honly⟩

theorem ReadAs.around {i : MarkReadInput} (h : ReadAs db i c) :
    ReadAs db' i c := by
  obtain ⟨hid, row, hrow, hle⟩ := h
  obtain ⟨row', hrow', hle'⟩ := hb.longer _ row hrow
  exact ⟨hid, row', hrow', hle.trans hle'⟩

theorem Reader.around (h : Reader db q key) : Reader db' q key := by
  rcases h with ⟨hrow, honly⟩ | ⟨hunt, hsome⟩
  · exact Or.inl ⟨hb.participants.row_of hrow, hb.participants.onlyAt honly⟩
  · obtain ⟨w, hw⟩ := ne_none_iff_exists'.1 hsome
    obtain ⟨_, hw', -⟩ := hb.rises key w hw
    exact Or.inr ⟨hb.participants.untouched hunt, by simp [hw']⟩

theorem Marked.around {upTo : ℕ} (h : Marked db q key upTo) :
    Marked db' q key upTo := by
  obtain ⟨⟨w, hw⟩, honly⟩ := h
  exact ⟨⟨w, hb.participants.row_of hw⟩, hb.participants.onlyAt honly⟩

theorem seatWork_around (h : SeatWork db q chatPlace) : SeatWork db' q chatPlace := by
  cases chatPlace with
  | findCustomer => exact Seated.around hb h
  | announce | finish => exact Raised.around hb h
  | _ => exact hb.participants.untouched h

theorem work_around (hs' : ChatSound db') (h : WatermarkWork db q place)
    (hlocked : ∀ k mode, WatermarkHolds place k mode → Same k db db') :
    WatermarkWork db' q place := by
  cases place with
  | chat => exact ⟨chatWork_beside hs' h.1 hb.toBeside hlocked, seatWork_around hb h.2⟩
  | ensureReader => exact ⟨h.1.around hb, h.2.around hb⟩
  | findReader | advance | readBack =>
    exact ⟨h.1.beside hb.toBeside, h.2.1.around hb, h.2.2.around hb⟩
  | marked =>
    exact ⟨h.1.around hb, h.2.trans (watermark_le hb.rises _ _)⟩
  | _ => exact Fresh.around hb h

end

/-! ## The statements -/

theorem keeps_of_around (hs : WatermarkSound db') (hrises : Rises db.participants db'.participants)
    (hb : ∀ q ≠ p, Around q db db')
    (hlocked : ∀ q ≠ p, ∀ place', Together WatermarkHolds place place' →
      WatermarkWork db q place' → ∀ k mode, WatermarkHolds place' k mode → Same k db db') :
    watermarkOutline.Keeps db p place db' where
  sound := hs
  guarantee := hrises
  others := fun q place' hq htog hw =>
    work_around (hb q hq) hs.toChatSound hw (hlocked q hq place' htog hw)

/-- The call commits nothing, and no watermark. -/
structure Still (p : ℕ) (db db' : ChatDb) : Prop extends Quiet p db db' where
  participants : db'.participants.committed = db.participants.committed
  seats : ∀ q ≠ p, Others q db.participants db'.participants

theorem Still.keeps (hs : WatermarkSound db) (h : Still p db db') :
    watermarkOutline.Keeps db p place db' := by
  have hwatermark : watermark db' = watermark db := by
    funext k userId
    rw [watermark, h.participants, watermark]
  refine keeps_of_around ⟨h.toQuiet.sound hs.toChatSound, ?_, ?_⟩ (.of_eq h.participants) ?_
    fun _ _ _ _ _ _ _ _ => h.toQuiet.same
  · rw [h.participants, h.conversations]
    exact hs.within
  · rw [h.messages, hwatermark]
    exact hs.own
  · intro q hq
    refine ⟨h.toQuiet.beside hq, h.seats q hq, .of_eq h.participants, ?_⟩
    rw [h.conversations]
    exact fun _ c hc => ⟨c, hc, le_refl _⟩

theorem still_refl : Still p db db := ⟨quiet_refl, rfl, fun _ _ => .refl⟩

theorem still_rollback : Still p db (db.rollback p) :=
  ⟨quiet_rollback, committed_rollback, fun _ hq => others_rollback hq⟩

theorem still_participants (hlock : ¬(db.participants.row key).Locked p) :
    Still p db { db with participants := db.participants.write p key w } :=
  ⟨quiet_of_eq rfl rfl, committed_write, fun _ hq => others_write hq hlock⟩

theorem seated_insert {t : Versioned ℕ (Uuid × Uuid) ℕ} (h : db.participants.Untouched p)
    (hins : db.participants.insert p key 0 (fun _ => False) = .done w t) :
    Still p db { db with participants := t } ∧ Seated { db with participants := t } p key := by
  obtain ⟨-, rfl, hlock, hget, -⟩ := insert_eq_done hins
  refine ⟨still_participants hlock, Or.inr ⟨?_, h.onlyAt.write⟩⟩
  rw [row_write (h key), hget]

/-- What one statement of a call keeps. -/
structure Moves (db : ChatDb) (p : ℕ) (place : WatermarkPlace) (db' : ChatDb)
    (place' : WatermarkPlace) : Prop where
  still : Still p db db'
  work : WatermarkWork db' p place'
  holds : ∀ k mode, WatermarkHolds place' k mode → WatermarkHolds place k mode

/-- From where a call commits, and where it comes to. -/
inductive Commits : WatermarkPlace → WatermarkPlace → Prop where
  | chat {place place' : ChatPlace} (h : Ends place place') : Commits (.chat place) (.chat place')
  | counted (userId : Uuid) (total : ℕ) : Commits (.count userId) (.counted userId total)
  | marked (i : MarkReadInput) (c : ChatConversationEntity) (answer : ℕ) :
    Commits (.readBack i c) (.marked i c.lastSequence answer)

/-- What is shown of a statement: one that goes on commits nothing, and a call that throws has
nothing left to do. -/
abbrev Shown (db : ChatDb) (p : ℕ) (place : WatermarkPlace) :
    Next ChatDb Uuid WatermarkPlace → Prop :=
  Next.Meets (Moves db p place)
    (fun key mode place' => WatermarkWork db p place' ∧
      ∀ k m, WatermarkHolds place' k m → k = key ∧ m = mode)
    (Commits place)
    (fun place' => WatermarkWork (db.rollback p) p place' ∧ ∀ k mode, ¬WatermarkHolds place' k mode)

theorem fresh_rollback : Fresh (db.rollback p) p := ⟨clean_rollback, untouched_rollback⟩

theorem fresh_commit : Fresh (db.commit p) p := ⟨clean_commit, untouched_commit⟩

/-! ## The watermarks of those who start and send -/

/-- A statement that goes on commits no watermark. -/
structure Seats (db : ChatDb) (p : ℕ) (db' : ChatDb) (chatPlace' : ChatPlace) : Prop where
  committed : db'.participants.committed = db.participants.committed
  others : ∀ q ≠ p, Others q db.participants db'.participants
  work : SeatWork db' p chatPlace'

theorem seats_of_eq (hparticipants : db'.participants = db.participants)
    (hwork : SeatWork db' p chatPlace) : Seats db p db' chatPlace := by
  refine ⟨by rw [hparticipants], fun q _ => ?_, hwork⟩
  rw [hparticipants]
  exact .refl

theorem Still.seated (h : Still p db db') (hwork : SeatWork db' p chatPlace) :
    Seats db p db' chatPlace :=
  ⟨h.participants, h.seats, hwork⟩

theorem seats_statement (env : ChatEnv) (hw : ChatWork False db p chatPlace)
    (hseat : SeatWork db p chatPlace) :
    (statement config env db p chatPlace).Meets (Seats db p) (fun _ _ => SeatWork db p)
      (fun _ => True) fun _ => True := by
  cases chatPlace with
  | ensureCustomer =>
    dsimp only [statement, startStatement]
    split
    · trivial
    · rename_i hins
      obtain ⟨hstill, hseated⟩ := seated_insert hseat hins
      exact hstill.seated hseated
    · exact seats_of_eq rfl (Or.inl hseat)
  | watermark =>
    have hunt : db.participants.Untouched p := hseat
    dsimp only [statement, writeStatement]
    split
    · trivial
    · rename_i hupd
      obtain ⟨n, hget, -, hlock, -, rfl⟩ := update_eq_done hupd
      rw [hw.1] at hget hlock ⊢
      refine (still_participants hlock).seated (Or.inr ⟨⟨n, ?_⟩, hunt.onlyAt.write⟩)
      rw [row_write (hunt _), hget]
    · exact seats_of_eq rfl (Or.inl hunt)
  | eligible | insertConversation | findConversation | findCustomer =>
    dsimp only [statement, startStatement]
    split <;> first | trivial | exact seats_of_eq rfl hseat
  | locked | reserve | daily =>
    dsimp only [statement, reserveStatement]
    repeat' split
    all_goals first | trivial | exact seats_of_eq rfl hseat
  | insert =>
    dsimp only [statement, writeStatement]
    repeat' split
    all_goals first | trivial | exact seats_of_eq rfl hseat
  | bump =>
    dsimp only [statement, writeStatement]
    split <;> first | trivial | exact seats_of_eq rfl hseat
  | announce => exact seats_of_eq rfl hseat
  | finish | replay => trivial
  | lock => exact hseat
  | _ =>
    dsimp only [statement, checkStatement]
    repeat' split
    all_goals first | trivial | exact seats_of_eq rfl hseat

theorem shown_chat (env : ChatEnv) (hs : ChatSound db) (hw : WatermarkWork db p (.chat chatPlace)) :
    Shown db p (.chat chatPlace) ((statement config env db p chatPlace).map id .chat) := by
  have hshown : (statement config env db p chatPlace).Meets _ _ _ _ :=
    (Chat.shown_statement env hs False.elim hw.1).and (seats_statement env hw.1 hw.2)
  refine Next.Meets.map (hshown.mono ?_ ?_ ?_ ?_)
  · rintro db' place' ⟨hpasses, hseats⟩
    exact ⟨⟨hpasses.quiet, hseats.committed, hseats.others⟩, ⟨hpasses.work, hseats.work⟩,
      hpasses.holds⟩
  · rintro key mode place' ⟨⟨hwork, hholds, -⟩, hseat⟩
    exact ⟨⟨hwork, hseat⟩, hholds⟩
  · rintro place' ⟨hends, -⟩
    exact .chat hends
  · rintro place' ⟨hfails, -⟩
    refine ⟨⟨work_fails hfails, ?_⟩, hfails.not_holds⟩
    cases hfails with
    | _ => exact untouched_rollback

/-! ## Readers -/

theorem reader_of_seated (h : Seated db p key) (hget : db.participants.get p key = some w) :
    Reader db p key := by
  rcases h with hunt | hseated
  · rw [hunt.get_eq] at hget
    exact Or.inr ⟨hunt, by simp [hget]⟩
  · exact Or.inl hseated

theorem marked_update (upTo : ℕ) (h : Reader db p key) :
    ∃ w, db.participants.get p key = some w ∧
      Marked { db with participants := db.participants.write p key (max w upTo) } p key upTo := by
  rcases h with ⟨hrow, honly⟩ | ⟨hunt, hsome⟩
  · refine ⟨0, (wrote_of_row hrow).get_eq, ⟨none, ?_⟩, honly.write⟩
    rw [row_write_self, hrow]
    rfl
  · obtain ⟨w, hw⟩ := ne_none_iff_exists'.1 hsome
    have hget : db.participants.get p key = some w := by
      rw [hunt.get_eq, hw]
    refine ⟨w, hget, ⟨some w, ?_⟩, hunt.onlyAt.write⟩
    rw [row_write (hunt key), hget]
    rfl

theorem shown_markRead (env : WatermarkEnv) (hs : ChatSound db) (hw : WatermarkWork db p place) :
    Shown db p place (markReadStatement env db p place) := by
  cases place with
  | load =>
    have hfresh : Fresh db p := hw
    dsimp only [markReadStatement]
    split
    · exact ⟨fresh_rollback, fun _ _ h => h⟩
    · rename_i c hget
      split
      · exact ⟨fresh_rollback, fun _ _ h => h⟩
      · rw [hfresh.conversations.get_eq] at hget
        exact ⟨still_refl, ⟨hfresh, hs.id _ c hget, c, hget, le_refl _⟩, fun _ _ h => h⟩
  | ensureReader =>
    obtain ⟨hfresh, hread⟩ := hw
    have hid := hread.1
    dsimp only [markReadStatement]
    split
    · trivial
    · rename_i hins
      obtain ⟨hquiet, hseated⟩ := seated_insert hfresh.participants hins
      rw [hid] at hseated
      exact ⟨hquiet, ⟨⟨hfresh.conversations, hfresh.messages⟩, hread, hseated⟩, fun _ _ h => h⟩
    · exact ⟨still_refl, ⟨hfresh.toClean, hread, Or.inl hfresh.participants⟩, fun _ _ h => h⟩
  | findReader =>
    obtain ⟨hclean, hread, hseated⟩ := hw
    dsimp only [markReadStatement]
    split
    · exact ⟨fresh_rollback, fun _ _ h => h⟩
    · rename_i w hget
      rw [hread.1] at hget
      exact ⟨still_refl, ⟨hclean, hread, reader_of_seated hseated hget⟩, fun _ _ h => h⟩
  | advance i c =>
    obtain ⟨hclean, hread, hreader⟩ := hw
    obtain ⟨_, hget, hmarked⟩ := marked_update (capped i c.lastSequence) hreader
    dsimp only [markReadStatement]
    rw [hread.1]
    rcases update_waits_or_done (fun _ => True) (fun n => max n (capped i c.lastSequence)) hget
      trivial with hwaits | hdone
    · rw [hwaits]
      trivial
    · rw [hdone]
      obtain ⟨_, -, -, hlock, -⟩ := update_eq_done hdone
      exact ⟨still_participants hlock, ⟨⟨hclean.conversations, hclean.messages⟩, hread, hmarked⟩,
        fun _ _ h => h⟩
  | readBack i c => exact .marked i c _
  | _ => trivial

/-- What each statement of a call keeps. -/
theorem shown_statement (env : WatermarkEnv) (hs : ChatSound db) (hw : WatermarkWork db p place) :
    Shown db p place (watermarkStatement config env db p place) := by
  cases place with
  | chat => exact shown_chat env.chat hs hw
  | count callerUserId => exact .counted callerUserId _
  | _ => exact shown_markRead env hs hw

/-! ## What a commit does -/

/-- One watermark at most has changed: it has risen, within its conversation. -/
def Advanced (db db' : ChatDb) : Prop :=
  db'.participants.committed = db.participants.committed ∨
    ∃ k userId w, db'.participants.committed =
        update db.participants.committed (k, userId) (some w) ∧
      watermark db k userId ≤ w ∧
        ∃ c, db'.conversations.committed k = some c ∧ w ≤ c.lastSequence

theorem Advanced.rises (h : Advanced db db') : Rises db.participants db'.participants := by
  rcases h with heq | ⟨_, _, _, hupd, hle, -⟩
  · exact .of_eq heq
  · refine .of_update hupd ?_
    intro w₀ hw₀
    rw [watermark, hw₀] at hle
    exact hle

/-- No conversation gets shorter. -/
def Longer (db db' : ChatDb) : Prop :=
  ∀ k c, db.conversations.committed k = some c →
    ∃ c', db'.conversations.committed k = some c' ∧ c.lastSequence ≤ c'.lastSequence

/-- What is sound after a commit, where one watermark at most has risen and a message that is new
is not after its sender's. -/
theorem sound_of_advanced (hs : WatermarkSound db) (hchat : ChatSound db')
    (hadv : Advanced db db') (hlonger : Longer db db')
    (hown : ∀ k sequence m, db'.messages.committed (k, sequence) = some m →
      db.messages.committed (k, sequence) = some m ∨ sequence ≤ watermark db' k m.senderUserId) :
    WatermarkSound db' := by
  have hold : ∀ k userId w, db.participants.committed (k, userId) = some w →
      ∃ c, db'.conversations.committed k = some c ∧ w ≤ c.lastSequence := by
    intro k userId w hw
    obtain ⟨c, hc, hle⟩ := hs.within k userId w hw
    obtain ⟨c', hc', hle'⟩ := hlonger k c hc
    exact ⟨c', hc', hle.trans hle'⟩
  refine ⟨hchat, ?_, ?_⟩
  · intro k userId w hw
    rcases hadv with heq | ⟨k₀, userId₀, _, hupd, -, hwithin⟩
    · rw [heq] at hw
      exact hold k userId w hw
    · rw [hupd] at hw
      by_cases hkey : (k, userId) = (k₀, userId₀)
      · cases hkey
        rw [update_self] at hw
        cases hw
        exact hwithin
      · rw [update_of_ne hkey] at hw
        exact hold k userId w hw
  · intro k sequence m hm
    rcases hown k sequence m hm with hm | hle
    · exact (hs.own k sequence m hm).trans (watermark_le hadv.rises k m.senderUserId)
    · exact hle

theorem watermarkWork_known {mode : LockMode} (hw : WatermarkWork db q place)
    (hholds : WatermarkHolds place k mode) : db.conversations.committed k ≠ none := by
  cases place with
  | chat => exact work_known hw.1 hholds
  | _ => exact hholds.elim

theorem keeps_opened (hs : WatermarkSound db) (hopened : Opened db p)
    (hmsgs : db.messages.Untouched p) (hadv : Advanced db (db.commit p)) :
    watermarkOutline.Keeps db p place (db.commit p) := by
  have hlonger : Longer db (db.commit p) := by
    intro k c hc
    exact ⟨c, (hopened.kept (by simp [hc])).trans hc, le_refl _⟩
  have hsound := sound_of_advanced hs (hopened.sound hmsgs hs.toChatSound) hadv hlonger
    fun k sequence m hm =>
      Or.inl ((congrFun hmsgs.committed_commit _).symm.trans hm)
  refine keeps_of_around hsound hadv.rises ?_ ?_
  · intro q hq
    exact ⟨hopened.beside_commit hmsgs hq, others_commit hq, hadv.rises, hlonger⟩
  · intro q _ place' _ hwork k mode hholds
    exact hopened.same hmsgs (watermarkWork_known hwork hholds)

theorem keeps_sent (hs : WatermarkSound db) (hbumped : Bumped db p i m)
    (hadv : Advanced db (db.commit p))
    (hraised : m.sequence ≤ watermark (db.commit p) m.conversationId m.senderUserId)
    (hlocked : ∀ k mode, k = i.conversationId ∧ mode = LockMode.exclusive →
      WatermarkHolds place k mode) :
    watermarkOutline.Keeps db p place (db.commit p) := by
  obtain ⟨row, now, hold, _, hconvs⟩ := hbumped.conversations_commit
  have hlonger : Longer db (db.commit p) := by
    intro k c hc
    rw [hconvs]
    by_cases hk : k = m.conversationId
    · subst hk
      cases hold.symm.trans hc
      refine ⟨row.bump m.sequence now, update_self .., ?_⟩
      show row.lastSequence ≤ m.sequence
      omega
    · exact ⟨c, by rw [update_of_ne hk]; exact hc, le_refl _⟩
  have hsound := sound_of_advanced hs (hbumped.sound_commit hs.toChatSound) hadv hlonger
  refine keeps_of_around (hsound ?_) hadv.rises ?_ ?_
  · intro k sequence m' hm'
    rw [hbumped.messages_commit] at hm'
    by_cases hkey : (k, sequence) = (m.conversationId, m.sequence)
    · cases hkey
      rw [update_self] at hm'
      cases hm'
      exact Or.inr hraised
    · rw [update_of_ne hkey] at hm'
      exact Or.inl hm'
  · intro q hq
    exact ⟨hbumped.beside_commit hs.toChatSound hq, others_commit hq, hadv.rises, hlonger⟩
  · -- whoever holds a conversation holds another one
    intro q _ place' htog _ k mode hholds
    refine hbumped.same ?_
    rintro rfl
    have hshared := (htog m.conversationId .exclusive mode
      (hlocked _ _ ⟨hbumped.conversation, rfl⟩) hholds).1
    cases hshared

/-! ## The watermark that a commit changes -/

theorem advanced_untouched (h : db.participants.Untouched p) : Advanced db (db.commit p) :=
  Or.inl h.committed_commit

theorem participants_commit {w₀ : Option ℕ} (hrow : db.participants.row key = ⟨w₀, some (p, w)⟩)
    (honly : db.participants.OnlyAt p key) :
    (db.commit p).participants.committed =
      update db.participants.committed key (some w) ∧
      watermark (db.commit p) key.1 key.2 = w ∧ watermark db key.1 key.2 = w₀.getD 0 := by
  have hupd : (db.commit p).participants.committed =
      update db.participants.committed key (some w) :=
    committed_commit_of_onlyAt (wrote_of_row hrow) honly
  refine ⟨hupd, ?_, ?_⟩
  · rw [watermark, hupd, update_self]
    rfl
  · rw [watermark, committed_of_row hrow]

theorem advanced_seated {userId : Uuid} (h : Seated db p (k, userId))
    (hthere : (db.commit p).conversations.committed k ≠ none) : Advanced db (db.commit p) := by
  rcases h with hunt | ⟨hrow, honly⟩
  · exact advanced_untouched hunt
  · obtain ⟨hupd, -, hbef⟩ := participants_commit hrow honly
    obtain ⟨c, hc⟩ := ne_none_iff_exists'.1 hthere
    exact Or.inr ⟨k, userId, 0, hupd, le_of_eq hbef, c, hc, Nat.zero_le _⟩

theorem known_commit (h : Known db p k) : (db.commit p).conversations.committed k ≠ none := by
  by_cases hwrit : (db.conversations.row k).WrittenBy p
  · obtain ⟨c, hc⟩ := hwrit
    have hcomm : (db.commit p).conversations.committed k = some c :=
      (Wrote.committed_commit hc)
    simp [hcomm]
  · have hcomm : (db.commit p).conversations.committed k = db.conversations.committed k :=
      committed_commit_of_not hwrit
    rw [hcomm]
    exact h.resolve_right hwrit

theorem advanced_marked (hs : WatermarkSound db) {i : MarkReadInput}
    (h : Marked db p (i.conversationId, i.callerUserId) (capped i c.lastSequence))
    (hread : ReadAs db i c) (hclean : Clean db p) :
    Advanced db (db.commit p) ∧
      capped i c.lastSequence ≤ watermark (db.commit p) i.conversationId i.callerUserId := by
  obtain ⟨⟨w, hrow⟩, honly⟩ := h
  obtain ⟨-, row, hconv, hle⟩ := hread
  obtain ⟨hupd, hafter, hbef⟩ := participants_commit hrow honly
  have hcapped : capped i c.lastSequence ≤ c.lastSequence := min_le_right _ _
  have hwithin : w.getD 0 ≤ row.lastSequence := by
    cases hw : w with
    | none => exact Nat.zero_le _
    | some n =>
      rw [hw] at hrow
      obtain ⟨_, hrow', hn⟩ := hs.within _ _ n (committed_of_row hrow)
      cases hconv.symm.trans hrow'
      exact hn
  have hrow' : (db.commit p).conversations.committed i.conversationId = some row :=
    (congrFun hclean.conversations.committed_commit _).trans hconv
  refine ⟨Or.inr ⟨_, _, _, hupd, ?_, row, hrow', ?_⟩, ?_⟩
  · rw [hbef]
    exact le_max_left _ _
  · exact max_le hwithin (hcapped.trans hle)
  · rw [hafter]
    exact le_max_right _ _

theorem advanced_raised (hs : WatermarkSound db) (hbumped : Bumped db p i m)
    (hraised : Raised db p (i.conversationId, i.senderUserId) m.sequence)
    (hfound : (db.participants.row (i.conversationId, i.senderUserId)).WrittenBy p) :
    Advanced db (db.commit p) ∧
      m.sequence ≤ watermark (db.commit p) m.conversationId m.senderUserId := by
  rcases hraised with hunt | ⟨⟨w, hrow⟩, honly⟩
  · exact absurd hfound (hunt _)
  obtain ⟨hupd, hafter, hbef⟩ := participants_commit hrow honly
  obtain ⟨row, now, hold, _, hconvs⟩ := hbumped.conversations_commit
  rw [hbumped.conversation] at hold hconvs
  rw [hbumped.conversation, hbumped.sender]
  have hwithin : w ≤ row.lastSequence := by
    obtain ⟨_, hrow', hw⟩ := hs.within _ _ w (committed_of_row hrow)
    cases hold.symm.trans hrow'
    exact hw
  refine ⟨Or.inr ⟨_, _, _, hupd, ?_, row.bump m.sequence now, ?_, ?_⟩, ?_⟩
  · rw [hbef]
    exact le_max_left _ _
  · rw [hconvs, update_self]
  · show max w m.sequence ≤ m.sequence
    omega
  · rw [hafter]
    exact le_max_right _ _

/-! ## How a call ends -/

theorem keeps_commits (env : WatermarkEnv) (hs : WatermarkSound db) (hm : FoundAt env db p place)
    (hw : WatermarkWork db p place) (h : Commits place place') :
    watermarkOutline.Keeps db p place (db.commit p) ∧ WatermarkWork (db.commit p) p place' ∧
      ∀ k mode, ¬WatermarkHolds place' k mode := by
  have hquiet : ∀ {place}, Clean db p → db.participants.Untouched p →
      watermarkOutline.Keeps db p place (db.commit p) := fun hclean hunt =>
    keeps_opened hs (Or.inl hclean.conversations) hclean.messages (advanced_untouched hunt)
  cases h with
  | chat h =>
    have hwork := work_ends hw.1 h
    have hholds := h.not_holds
    cases h with
    | starts =>
      obtain ⟨⟨hopened, hmsgs, hknown⟩, hseated⟩ := hw
      exact ⟨keeps_opened hs hopened hmsgs (advanced_seated hseated (known_commit hknown)),
        ⟨hwork, untouched_commit⟩, hholds⟩
    | replays =>
      obtain ⟨⟨hclean, -⟩, hunt⟩ := hw
      exact ⟨hquiet hclean hunt, ⟨hwork, untouched_commit⟩, hholds⟩
    | sends =>
      obtain ⟨hbumped, hraised⟩ := hw
      obtain ⟨hadv, hle⟩ := advanced_raised hs hbumped hraised hm
      exact ⟨keeps_sent hs hbumped hadv hle fun _ _ h => h, ⟨hwork, untouched_commit⟩, hholds⟩
  | counted =>
    have hfresh : Fresh db p := hw
    exact ⟨hquiet hfresh.toClean hfresh.participants, fresh_commit, fun _ _ h => h⟩
  | marked =>
    obtain ⟨hclean, hread, hmarked⟩ := hw
    obtain ⟨hadv, hle⟩ := advanced_marked hs hmarked hread hclean
    exact ⟨keeps_opened hs (Or.inl hclean.conversations) hclean.messages hadv,
      ⟨fresh_commit, hle⟩, fun _ _ h => h⟩

/-- Each statement keeps the watermarks. -/
theorem watermarkProof (config : ChatConfig) :
    Proof (watermarkService config) watermarkOutline where
  refl := fun _ => .of_eq rfl
  trans := fun _ _ _ h h' => Rises.trans h h'
  first := by
    intro db p request hw
    cases request with
    | chat request =>
      cases request with
      | _ => exact ⟨⟨Fresh.toClean hw, Fresh.participants hw⟩, fun _ _ h => h⟩
    | _ => exact ⟨hw, fun _ _ h => h⟩
  goes := by
    intro env db p place db' place' _ hs hw hst
    have h := (shown_statement env hs.toChatSound hw).of_goes hst
    exact ⟨h.still.keeps hs, h.work, h.holds⟩
  locks := by
    intro env db p place key mode place' _ hs hw hst
    obtain ⟨hwork, hholds⟩ := (shown_statement env hs.toChatSound hw).of_locks hst
    exact ⟨hwork, fun k m h => Or.inr (hholds k m h)⟩
  commits := fun env db p place place' hm hs hw hst =>
    keeps_commits env hs hm hw ((shown_statement env hs.toChatSound hw).of_commits hst)
  throws := fun env db p place place' _ hs hw hst => ⟨still_rollback.keeps hs,
    (shown_statement env hs.toChatSound hw).of_throws hst⟩
  dies := fun db p place _ hs _ => ⟨still_rollback.keeps hs, fresh_rollback, fun _ _ h => h⟩

/-! ## Every run -/

/-- What a watermark stands for: nothing, a message of the user's, or what the user has marked. -/
def Reached (s : System ChatDb Uuid WatermarkPlace) (k userId : Uuid) (w : ℕ) : Prop :=
  w = 0 ∨ (∃ m, s.db.messages.committed (k, w) = some m ∧ m.senderUserId = userId) ∨
    ∃ pid i lastSequence answer, s.calls pid = .marked i lastSequence answer ∧
      i.conversationId = k ∧ i.callerUserId = userId ∧ capped i lastSequence = w

/-- What holds after every step: every watermark stands for something. -/
structure Steady (s : System ChatDb Uuid WatermarkPlace) : Prop where
  holds : watermarkOutline.Holds s
  reached : ∀ k userId w, s.db.participants.committed (k, userId) = some w → Reached s k userId w

section Reached

variable {s s' : System ChatDb Uuid WatermarkPlace} {k userId : Uuid} {w : ℕ}

theorem Reached.later (h : Reached s k userId w)
    (hmsgs : ∀ key m, s.db.messages.committed key = some m →
      s'.db.messages.committed key = some m)
    (hcalls : ∀ pid i lastSequence answer, s.calls pid = .marked i lastSequence answer →
      s'.calls pid = .marked i lastSequence answer) : Reached s' k userId w := by
  rcases h with hzero | ⟨m, hm, hsender⟩ | ⟨pid, i, lastSequence, answer, hmarked, hi⟩
  · exact Or.inl hzero
  · exact Or.inr (Or.inl ⟨m, hmsgs _ m hm, hsender⟩)
  · exact Or.inr (Or.inr ⟨pid, i, lastSequence, answer, hcalls _ _ _ _ hmarked, hi⟩)

section

variable (hcalls : ∀ pid i lastSequence answer, s.calls pid = .marked i lastSequence answer →
  s'.calls pid = .marked i lastSequence answer)
include hcalls

theorem reached_of_same (h : Steady s)
    (hparticipants : s'.db.participants.committed = s.db.participants.committed)
    (hmsgs : s'.db.messages.committed = s.db.messages.committed) :
    ∀ k userId w, s'.db.participants.committed (k, userId) = some w → Reached s' k userId w := by
  intro k userId w hw
  rw [hparticipants] at hw
  refine (h.reached k userId w hw).later ?_ hcalls
  rw [hmsgs]
  exact fun _ _ hm => hm

theorem reached_of_update (h : Steady s)
    (hupd : s'.db.participants.committed =
      update s.db.participants.committed (k, userId) (some w))
    (hmsgs : ∀ key m, s.db.messages.committed key = some m →
      s'.db.messages.committed key = some m)
    (hnew : Reached s' k userId w) :
    ∀ k userId w, s'.db.participants.committed (k, userId) = some w → Reached s' k userId w := by
  intro k' userId' w' hw'
  rw [hupd] at hw'
  by_cases hkey : (k', userId') = (k, userId)
  · cases hkey
    rw [update_self] at hw'
    cases hw'
    exact hnew
  · rw [update_of_ne hkey] at hw'
    exact (h.reached k' userId' w' hw').later hmsgs hcalls

end

end Reached

section Run

variable {s s' : System ChatDb Uuid WatermarkPlace} {e : Step WatermarkRequest WatermarkEnv}

theorem marked_step (hstep : (watermarkService config).step s e = some s') (pid : ℕ)
    (i : MarkReadInput) (lastSequence : ℕ) (answer : ℕ)
    (hmarked : s.calls pid = .marked i lastSequence answer) :
    s'.calls pid = .marked i lastSequence answer := by
  rw [← hmarked]
  refine (Service.took_of_step hstep).calls_of_ended ?_
  rw [hmarked]
  exact ⟨by rintro ⟨⟩, rfl, fun _ _ _ => rfl⟩

theorem reached_commits (env : WatermarkEnv) {pid : ℕ} (h : Steady s)
    (hm : FoundAt env s.db pid (s.calls pid)) (hends : Commits (s.calls pid) place')
    (hs' : s' = s.ends pid (s.db.commit pid) place')
    (hcalls : ∀ q i lastSequence answer, s.calls q = .marked i lastSequence answer →
      s'.calls q = .marked i lastSequence answer) :
    ∀ k userId w, s'.db.participants.committed (k, userId) = some w → Reached s' k userId w := by
  have hdb : s'.db = s.db.commit pid := by rw [hs', System.ends]
  have hwork : WatermarkWork s.db pid (s.calls pid) := h.holds.work pid
  have hgrows : s.db.messages.Untouched pid → ∀ key m, s.db.messages.committed key = some m →
      s'.db.messages.committed key = some m := by
    intro hunt key m hm
    rw [hdb]
    exact (congrFun hunt.committed_commit key).trans hm
  have hsame : s.db.participants.Untouched pid → s.db.messages.Untouched pid →
      ∀ k userId w, s'.db.participants.committed (k, userId) = some w →
        Reached s' k userId w := by
    intro hparticipants hmsgs
    refine reached_of_same hcalls h ?_ ?_
    · rw [hdb]
      exact hparticipants.committed_commit
    · rw [hdb]
      exact hmsgs.committed_commit
  generalize hplace : s.calls pid = place at hwork hends hm
  cases hends with
  | counted =>
    have hfresh : Fresh s.db pid := hwork
    exact hsame hfresh.participants hfresh.messages
  | chat hends =>
    cases hends with
    | starts =>
      obtain ⟨⟨-, hmsgs, -⟩, hseated⟩ := hwork
      rcases hseated with hunt | ⟨hrow, honly⟩
      · exact hsame hunt hmsgs
      · obtain ⟨hupd, -⟩ := participants_commit hrow honly
        rw [← hdb] at hupd
        exact reached_of_update hcalls h hupd (hgrows hmsgs) (Or.inl rfl)
    | replays =>
      obtain ⟨⟨hclean, -⟩, hunt⟩ := hwork
      exact hsame hunt hclean.messages
    | sends i answer =>
      obtain ⟨hbumped, hraised⟩ := hwork
      have hbeside : Beside (pid + 1) s.db s'.db := by
        rw [hdb]
        exact Bumped.beside_commit h.holds.sound.toChatSound hbumped (by omega)
      rcases hraised with hunt | ⟨⟨w, hrow⟩, honly⟩
      · exact absurd hm (hunt _)
      obtain ⟨hupd, -⟩ := participants_commit hrow honly
      rw [← hdb] at hupd
      refine reached_of_update hcalls h hupd hbeside.grows ?_
      rcases max_choice w answer.message.sequence with hmax | hmax
      · rw [hmax]
        exact (h.reached _ _ w (committed_of_row hrow)).later hbeside.grows hcalls
      · rw [hmax]
        refine Or.inr (Or.inl ⟨answer.message, ?_, hbumped.sender⟩)
        rw [hdb, Bumped.messages_commit hbumped, hbumped.conversation, update_self]
  | marked i c answer =>
    obtain ⟨hclean, -, ⟨w, hrow⟩, honly⟩ := hwork
    obtain ⟨hupd, -⟩ := participants_commit hrow honly
    rw [← hdb] at hupd
    refine reached_of_update hcalls h hupd (hgrows hclean.messages) ?_
    rcases max_choice (w.getD 0) (capped i c.lastSequence) with hmax | hmax
    · rw [hmax]
      cases hw : w with
      | none => exact Or.inl rfl
      | some n =>
        rw [hw] at hrow
        exact (h.reached _ _ n (committed_of_row hrow)).later (hgrows hclean.messages) hcalls
    · rw [hmax]
      refine Or.inr (Or.inr ⟨pid, i, c.lastSequence, answer, ?_, rfl, rfl, rfl⟩)
      rw [hs']
      exact update_self ..

theorem meets_of_found (h : FoundRow s e) : watermarkOutline.Meets s e := by
  obtain ⟨_, action⟩ := e
  cases action with
  | _ => exact h

/-- A step keeps what every watermark stands for. -/
theorem steady_step (h : Steady s) (hm : FoundRow s e)
    (hstep : (watermarkService config).step s e = some s') : Steady s' := by
  refine ⟨((watermarkProof config).holds_step h.holds (meets_of_found hm) hstep).1, ?_⟩
  have shown : ∀ pid env, Shown s.db pid (s.calls pid)
      (watermarkStatement config env s.db pid (s.calls pid)) :=
    fun pid env => shown_statement env h.holds.sound.toChatSound (h.holds.work pid)
  have hcalls := marked_step hstep
  cases Service.took_of_step hstep with
  | starts => exact reached_of_same hcalls h rfl rfl
  | goes pid env db place hst =>
    have hstill := ((shown pid env).of_goes hst).still
    exact reached_of_same hcalls h hstill.participants hstill.messages
  | locks => exact reached_of_same hcalls h rfl rfl
  | commits pid env place hst =>
    exact reached_commits env h hm ((shown pid env).of_commits hst) rfl hcalls
  | throws =>
    exact reached_of_same hcalls h committed_rollback committed_rollback
  | dies => exact reached_of_same hcalls h committed_rollback committed_rollback

theorem unseen_iff (h : Steady s) {userId : Uuid} :
    Unseen s userId m ↔ s.db.messages.committed (m.conversationId, m.sequence) = some m ∧
      watermark s.db m.conversationId userId < m.sequence := by
  constructor
  · rintro ⟨hm, hmarked, hown⟩
    refine ⟨hm, ?_⟩
    rw [watermark]
    cases hw : s.db.participants.committed (m.conversationId, userId) with
    | none =>
      obtain ⟨c, hc⟩ := ne_none_iff_exists'.1 (h.holds.sound.known _ _ m hm).2.2
      exact ((h.holds.sound.sequence _ c hc m.sequence).1 (by simp [hm])).1
    | some w =>
      rcases h.reached _ userId w hw with rfl | ⟨m', hm', hsender⟩ |
        ⟨pid, i, lastSequence, answer, hat, hconv, hcaller, hcapped⟩
      · obtain ⟨c, hc⟩ := ne_none_iff_exists'.1 (h.holds.sound.known _ _ m hm).2.2
        exact ((h.holds.sound.sequence _ c hc m.sequence).1 (by simp [hm])).1
      · obtain ⟨hconv, hseq, -⟩ := h.holds.sound.known _ _ m' hm'
        rw [← hconv, ← hseq] at hm'
        have hlt := hown m' hm' hconv hsender
        rw [hseq] at hlt
        exact hlt
      · have hlt := hmarked pid i lastSequence answer hat hconv hcaller
        rw [hcapped] at hlt
        exact hlt
  · rintro ⟨hm, hlt⟩
    refine ⟨hm, ?_, ?_⟩
    · intro pid i lastSequence answer hat hconv hcaller
      have hwork : WatermarkWork s.db pid (s.calls pid) := h.holds.work pid
      rw [hat] at hwork
      have hle := hwork.2
      rw [hconv, hcaller] at hle
      exact hle.trans_lt hlt
    · intro m' hm' hconv hsender
      have hle := h.holds.sound.own _ _ m' hm'
      rw [hconv, hsender] at hle
      exact hle.trans_lt hlt

theorem exists_messages_after (h : ChatSound db) {k : Uuid}
    (hc : db.conversations.committed k = some c) (w : ℕ) : ∃ ms : List ChatMessageEntity, ms.Nodup ∧
      (∀ m, m ∈ ms ↔ m.conversationId = k ∧ w < m.sequence ∧
        db.messages.committed (m.conversationId, m.sequence) = some m) ∧
      ms.length = c.lastSequence - w := by
  have hsome : ∀ n ∈ List.range' (w + 1) (c.lastSequence - w),
      (db.messages.committed (k, n)).isSome = true := by
    intro n hn
    rw [mem_range'_1] at hn
    rw [isSome_iff_ne_none, h.sequence k c hc]
    omega
  refine ⟨(List.range' (w + 1) (c.lastSequence - w)).filterMap fun n =>
    db.messages.committed (k, n), ?_, ?_, ?_⟩
  · refine List.Nodup.filterMap ?_ nodup_range'
    intro n n' m hm hm'
    exact (h.known k n m hm).2.1.symm.trans (h.known k n' m hm').2.1
  · intro m
    rw [mem_filterMap]
    constructor
    · rintro ⟨n, hn, hm⟩
      rw [mem_range'_1] at hn
      obtain ⟨rfl, rfl, -⟩ := h.known k n m hm
      exact ⟨rfl, hn.1, hm⟩
    · rintro ⟨rfl, _, hm⟩
      refine ⟨m.sequence, ?_, hm⟩
      have hle := ((h.sequence _ c hc m.sequence).1 (by simp [hm])).2
      rw [mem_range'_1]
      omega
  · rw [filterMap_length_eq_length.2 hsome, length_range']

theorem countsUnseen_of_steady (h : Steady s) : CountsUnseen s where
  within := by
    intro k c hc userId
    rw [watermark]
    cases hw : s.db.participants.committed (k, userId) with
    | none => exact Nat.zero_le _
    | some w =>
      obtain ⟨_, hc', hle⟩ := h.holds.sound.within k userId w hw
      cases hc.symm.trans hc'
      exact hle
  unseen := by
    intro k c hc userId
    obtain ⟨ms, hnodup, hmem, hlen⟩ :=
      exists_messages_after h.holds.sound.toChatSound hc (watermark s.db k userId)
    refine ⟨ms, hnodup, fun m => ?_, hlen.symm⟩
    rw [hmem, unseen_iff h]
    constructor
    · rintro ⟨rfl, hlt, hm⟩
      exact ⟨rfl, hm, hlt⟩
    · rintro ⟨rfl, hm, hlt⟩
      exact ⟨rfl, hlt, hm⟩
  counted := by
    intro pid userId hcnt c
    have hfresh : WatermarkWork s.db pid (s.calls pid) := h.holds.work pid
    rw [hcnt] at hfresh
    rw [unread, (Fresh.participants hfresh).get_eq, watermark]

theorem neverFalls_of_steady (h : Steady s) (hm : FoundRow s e) : NeverFalls config s e :=
  fun _ hstep => watermark_le
    ((watermarkProof config).holds_step h.holds (meets_of_found hm) hstep).2

theorem watermark_of_missing (h : Steady s) {pid : ℕ} (hbumped : Bumped s.db pid i m)
    (hunt : s.db.participants.Untouched pid) :
    watermark (s.db.commit pid) m.conversationId i.senderUserId < m.sequence := by
  obtain ⟨row, -, hold, _, -⟩ := hbumped.conversations_commit
  have hsame : (s.db.commit pid).participants.committed = s.db.participants.committed :=
    hunt.committed_commit
  have hle := (countsUnseen_of_steady h).within _ row hold i.senderUserId
  rw [watermark, hsame]
  rw [watermark] at hle
  omega

theorem last_of_bumped (hs : ChatSound db) (hbumped : Bumped db p i m) :
    (∃ c, (db.commit p).conversations.committed m.conversationId = some c ∧
      c.lastSequence = m.sequence) ∧
      ∀ m', (db.commit p).messages.committed (m'.conversationId, m'.sequence) = some m' →
        m'.conversationId = m.conversationId → m'.sequence ≤ m.sequence := by
  obtain ⟨row, now, -, -, hconvs⟩ := hbumped.conversations_commit
  have hnow : (db.commit p).conversations.committed m.conversationId =
      some (row.bump m.sequence now) := by
    rw [hconvs, update_self]
  refine ⟨⟨_, hnow, rfl⟩, ?_⟩
  intro m' hm' hk
  rw [hk] at hm'
  exact (((hbumped.sound_commit hs).sequence _ _ hnow m'.sequence).1 (by simp [hm'])).2

theorem not_countsUnseen_of_missing (h : Steady s) {pid : ℕ} (hbumped : Bumped s.db pid i m)
    (hunt : s.db.participants.Untouched pid) :
    ¬CountsUnseen (s.ends pid (s.db.commit pid) place') := by
  intro hcounts
  obtain ⟨⟨c, hc, _⟩, hlater⟩ := last_of_bumped h.holds.sound.toChatSound hbumped
  obtain ⟨ms, -, hmem, hlen⟩ := hcounts.unseen _ c hc i.senderUserId
  have hown : (s.db.commit pid).messages.committed (m.conversationId, m.sequence) = some m := by
    rw [hbumped.messages_commit, update_self]
  have hnil : ms = [] := by
    rw [eq_nil_iff_forall_not_mem]
    intro m' hm'
    obtain ⟨hk, hcomm, -, hafter⟩ := (hmem m').1 hm'
    exact absurd (hafter m hown hk.symm hbumped.sender) (not_lt.2 (hlater m' hcomm hk))
  have hlt := watermark_of_missing h hbumped hunt
  rw [hnil] at hlen
  have hzero : c.lastSequence - watermark (s.db.commit pid) m.conversationId i.senderUserId = 0 :=
    hlen
  omega

theorem found_of_countsUnseen (h : Steady s)
    (hafter : ∀ s', (watermarkService config).step s e = some s' → CountsUnseen s') :
    FoundRow s e := by
  obtain ⟨pid, action⟩ := e
  cases action with
  | start | die => trivial
  | statement env =>
    have hwork : WatermarkWork s.db pid (s.calls pid) := h.holds.work pid
    show FoundAt env s.db pid (s.calls pid)
    by_cases hfinish : ∃ i answer, s.calls pid = .chat (.finish i answer)
    · obtain ⟨i, answer, hplace⟩ := hfinish
      rw [hplace] at hwork ⊢
      obtain ⟨hbumped, hunt | ⟨⟨_, hrow⟩, -⟩⟩ := hwork
      · have hst : (watermarkService config).statement env s.db pid (s.calls pid) =
            .commits (.chat (.sent i answer)) := by
          rw [hplace]
          rfl
        exact absurd (hafter _ (Service.Took.commits pid env _ hst).step)
          (not_countsUnseen_of_missing h hbumped hunt)
      · exact ⟨_, by rw [hrow]⟩
    · generalize s.calls pid = place at hfinish
      cases place with
      | chat place =>
        cases place with
        | finish i answer => exact absurd ⟨i, answer, rfl⟩ hfinish
        | _ => trivial
      | _ => trivial

theorem steady_start (config : ChatConfig) : Steady ((watermarkService config).start .empty) where
  holds := by
    refine (watermarkProof config).holds_start ⟨(Chat.holds_start config).sound, ?_, ?_⟩ fun p => ?_
    · intro k userId w hw
      cases hw
    · intro k sequence m hm
      cases hm
    · exact ⟨⟨untouched_empty, untouched_empty⟩, untouched_empty⟩
  reached := by
    intro k userId w hw
    cases hw

end Run

end Watermark

/-- Whoever starts, sends, marks and counts whatever at the same time: what is counted is what the
user has not seen, and no watermark falls, exactly when every message is committed by a call that
has found a row of its sender's to update. -/
theorem countsUnseen_run (config : ChatConfig) (es : List (Step WatermarkRequest WatermarkEnv)) :
    Throughout (watermarkService config).step CountsUnseen
        ((watermarkService config).start .empty) es ∧
      Along (watermarkService config).step (NeverFalls config)
        ((watermarkService config).start .empty) es ↔
      Along (watermarkService config).step Watermark.FoundRow
        ((watermarkService config).start .empty) es :=
  throughout_and_along_iff (I := Watermark.Steady)
    (fun _ h => Watermark.countsUnseen_of_steady h)
    (fun _ _ _ h hm hstep => Watermark.steady_step h hm hstep)
    (fun _ _ h hm => Watermark.neverFalls_of_steady h hm)
    (fun _ _ h _ hafter => Watermark.found_of_countsUnseen h hafter)
    (Watermark.steady_start config) es

/-! ## A seller who answers -/

namespace Answering

/-- The customer is the first user, and the second one acts for the seller. -/
def finds (userId uuid : Uuid) : WatermarkEnv where
  chat := ⟨0, uuid, userId = 2, [2], false, some 0, true⟩
  sellerParties := if userId = 2 then [("professional", 9)] else []
  grantedScopes := []

/-- A call, to its end. -/
def calls (pid : ℕ) (userId uuid : Uuid) (request : WatermarkRequest) (n : ℕ) :
    List (Step WatermarkRequest WatermarkEnv) :=
  ⟨pid, .start request⟩ :: List.replicate n ⟨pid, .statement (finds userId uuid)⟩

/-- The customer starts a conversation, and the seller answers before reading anything. -/
def beforeReading : List (Step WatermarkRequest WatermarkEnv) :=
  calls 0 1 7 (.chat (.startConversation ⟨1, "professional", 9⟩)) 5 ++
    calls 1 2 8 (.chat (.sendMessage ⟨2, 7, "hello", none⟩)) 12

end Answering

/-- The seller's own message is counted. -/
theorem countsUnseen_beforeReading_fails : ∃ s,
    runFrom (watermarkService Retried.asItComes).step
      ((watermarkService Retried.asItComes).start .empty) Answering.beforeReading = some s ∧
        ¬CountsUnseen s := by
  obtain ⟨s, hs, hkeys, ⟨m, hm, hsender⟩, ⟨c, hc, hlast⟩, hwatermark⟩ :
      ∃ s ∈ runFrom (watermarkService Retried.asItComes).step
        ((watermarkService Retried.asItComes).start .empty) Answering.beforeReading,
        s.db.messages.keys = [(7, 1)] ∧
        (∃ m ∈ s.db.messages.committed (7, 1), m.senderUserId = 2) ∧
        (∃ c ∈ s.db.conversations.committed 7, c.lastSequence = 1) ∧ watermark s.db 7 2 = 0 := by
    decide +kernel
  refine ⟨s, hs, fun h => ?_⟩
  obtain ⟨ms, -, hmem, _⟩ := h.unseen 7 c hc 2
  obtain ⟨m', hm'⟩ : ∃ m', m' ∈ ms := exists_mem_of_length_pos (by omega)
  obtain ⟨_, hcomm, -, hown⟩ := (hmem m').1 hm'
  -- the only message is the seller's own
  have hkey := mem_keys_of_committed hcomm
  rw [hkeys, mem_singleton] at hkey
  rw [hkey] at hcomm
  cases hm.symm.trans hcomm
  exact absurd (hown m (hkey ▸ hm) rfl hsender) (lt_irrefl _)

end BeauClick.Chat
