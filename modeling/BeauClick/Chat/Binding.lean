import BeauClick.Chat.Moderation
import BeauClick.Chat.Sequence

/-!
# What binds a send

Which of the reports and blocks that are committed a message is accepted against.
-/

namespace BeauClick.Chat

open Locks ReadCommitted ReadCommitted.Versioned Runs Transactions Removable List

/-! ## What is committed, and what a call reads -/

/-- A send that has been evaluated: its sender, and everyone on the other side. -/
structure Judged where
  pid : ℕ
  senderUserId : Uuid
  others : List Uuid

/-- A send is recorded where it is evaluated, until it ends. -/
def judged (config : ModerationConfig) :
    Recorder ModerationDb (List Judged) ModerationPlace ChatEnv where
  goes _ _ pid place record :=
    match place with
    | .chat (.evaluate i c) =>
      ⟨pid, i.senderUserId, config.others c i.senderUserId⟩ :: record
    | _ => record
  commit record pid := record.filter fun j => j.pid ≠ pid
  rollback record pid := record.filter fun j => j.pid ≠ pid

/-- The tables, and the sends that have been evaluated. -/
abbrev JudgedDb := ModerationDb × List Judged

/-- Any number of calls, with the sends that have been evaluated. -/
def judgedService (config : ModerationConfig) :
    Service JudgedDb Uuid ModerationPlace ModerationRequest ChatEnv :=
  (moderationService config).recorded (judged config)

/-- The reports that are committed. -/
def ModerationDb.reportsStanding (db : ModerationDb) : List ChatReportEntity :=
  db.reports.keys.filterMap db.reports.committed

/-- A block between the two, in either direction, that is committed. -/
def ModerationDb.blockStanding (db : ModerationDb) (userId otherId : Uuid) : Bool :=
  (db.blocks.there (userId, otherId)).isSome || (db.blocks.there (otherId, userId)).isSome

/-- Among the reports none restricts the sender, and there is no block. -/
def Admits (reports : List ChatReportEntity) (block : Uuid → Uuid → Bool) (userId : Uuid)
    (others : List Uuid) : Prop :=
  (∀ r ∈ reports, ¬r.Restricts userId) ∧ ∀ o ∈ others, block userId o = false
  deriving Decidable

/-- The property, where a call that sends a message commits. -/
def BindsAt (config : ModerationConfig) (db : JudgedDb) : ModerationPlace → Prop
  | .chat (.finish i answer) =>
    (∀ r ∈ db.1.reportsStanding, r.Closes → r.conversationId ≠ answer.conversation.id) ∧
      Admits db.1.reportsStanding db.1.blockStanding i.senderUserId
        (config.others answer.conversation i.senderUserId)
  | _ => True

/-- The condition on a statement: the sender is not restricted where a send is evaluated, its
conversation has not been closed where it takes the lock, and what a decision or a block has
written is not about a send that has been evaluated already. -/
def GuardedAt (db : JudgedDb) (pid : ℕ) : ModerationPlace → Prop
  | .chat (.evaluate i _) => isSenderRestricted db.1 pid i.senderUserId = false
  | .chat (.locked _ c) =>
    ∀ row ∈ db.1.chat.conversations.get pid c.id, row.closedForSendingAt = none
  | .finish _ _ | .blocking _ _ [] =>
    ∀ j ∈ db.2, Admits (db.1.reportsSeen pid) (db.1.blockSeen pid) j.senderUserId j.others
  | _ => True

/-- The property of a step. -/
def Binds (config : ModerationConfig) (s : System JudgedDb Uuid ModerationPlace)
    (e : Step ModerationRequest ChatEnv) : Prop :=
  match e.action with
  | .statement _ => BindsAt config s.db (s.calls e.pid)
  | _ => True

variable {config : ModerationConfig} {env : ChatEnv} {db db' : ModerationDb} {chat chat' : ChatDb}
  {record record' : List Judged} {p q : ℕ} {userId : Uuid} {others : List Uuid} {k : Uuid}
  {r : ChatReportEntity} {c : ChatConversationEntity} {place : ModerationPlace}
  {t : Versioned ℕ Uuid ChatConversationEntity} {now : Instant}

theorem mem_reportsStanding :
    r ∈ db.reportsStanding ↔ ∃ k, db.reports.committed k = some r := by
  constructor
  · intro h
    obtain ⟨k, -, hk⟩ := mem_filterMap.1 h
    exact ⟨k, hk⟩
  · rintro ⟨k, hk⟩
    exact mem_filterMap.2 ⟨k, mem_keys_of_committed hk, hk⟩

theorem mem_reportsSeen : r ∈ db.reportsSeen p ↔ ∃ k, db.reports.get p k = some r := by
  constructor
  · intro h
    obtain ⟨k, -, hk⟩ := mem_filterMap.1 h
    exact ⟨k, hk⟩
  · rintro ⟨k, hk⟩
    exact mem_filterMap.2 ⟨k, mem_keys (version_of_get hk), hk⟩

theorem reportsStanding_commit : (db.commit p).reportsStanding = db.reportsSeen p := by
  show (db.reports.keys.filterMap fun k => (db.reports.commit p).committed k) = _
  simp only [committed_commit]
  rfl

open ModerationDb

theorem blockStanding_commit : (db.commit p).blockStanding = db.blockSeen p := by
  funext userId otherId
  simp only [ModerationDb.blockStanding, ModerationDb.commit, there_commit,
    ModerationDb.blockSeen]

theorem reportsSeen_of_untouched (h : db.reports.Untouched p) :
    db.reportsSeen p = db.reportsStanding := by
  unfold reportsSeen reportsStanding
  congr 1
  funext k
  exact h.get_eq

theorem blockSeen_of_untouched (h : db.blocks.Untouched p) :
    db.blockSeen p = db.blockStanding := by
  funext userId otherId
  simp only [blockSeen, blockStanding, find, there,
    h.get_eq]

/-! ## Where a send is with its checks -/

/-- A send has not been evaluated, has been, has the lock, has found its conversation open under
it, or has written the conversation; a call that starts a conversation has inserted it. -/
inductive Gate where
  | before
  | opened
  | judged (userId : Uuid) (others : List Uuid)
  | locked (userId : Uuid) (others : List Uuid) (conversationId : Uuid)
  | admitted (userId : Uuid) (others : List Uuid) (conversationId : Uuid)
  | written (userId : Uuid) (others : List Uuid) (conversationId : Uuid)

/-- What a call has checked on its way to a place. -/
def ModerationConfig.gate (config : ModerationConfig) : ChatPlace → Gate
  | .findConversation _ | .ensureCustomer _ _ | .findCustomer _ _ => .opened
  | .lookup i c | .replay i c _ | .lock i c =>
    .judged i.senderUserId (config.others c i.senderUserId)
  | .locked i c => .locked i.senderUserId (config.others c i.senderUserId) c.id
  | .reserve i c _ | .daily i c _ _ | .insert i c _ | .bump i c _ _ =>
    .admitted i.senderUserId (config.others c i.senderUserId) c.id
  | .watermark i c _ _ | .announce i c _ _ =>
    .written i.senderUserId (config.others c i.senderUserId) c.id
  | .finish i answer =>
    .written i.senderUserId (config.others answer.conversation i.senderUserId)
      answer.conversation.id
  | _ => .before

/-- The conversation that the send has locked. -/
def Gate.Holds : Gate → Uuid → LockMode → Prop
  | .locked _ _ k', k, mode | .admitted _ _ k', k, mode | .written _ _ k', k, mode =>
    k = k' ∧ mode = .exclusive
  | _, _, _ => False

/-- The send has been evaluated, and is admitted as things stand. -/
structure JudgedWork (db : JudgedDb) (p : ℕ) (userId : Uuid) (others : List Uuid) : Prop where
  mem : ⟨p, userId, others⟩ ∈ db.2
  admits : Admits db.1.reportsStanding db.1.blockStanding userId others

/-- The conversation is open, and so is the version that the call has written. -/
structure OpenWritten (t : Versioned ℕ Uuid ChatConversationEntity) (p : ℕ) (k : Uuid) : Prop where
  row : ∃ c c', t.row k = ⟨some c, some (p, c')⟩ ∧ c.closedForSendingAt = none ∧
    c'.closedForSendingAt = none ∧ c'.id = k
  only : t.OnlyAt p k

/-- What a call that starts or sends has read and written. -/
def GateWork (db : JudgedDb) (p : ℕ) : Gate → Prop
  | .before => db.1.chat.conversations.Untouched p
  | .opened => Opened db.1.chat p
  | .judged userId others | .locked userId others _ =>
    db.1.chat.conversations.Untouched p ∧ JudgedWork db p userId others
  | .admitted userId others k => db.1.chat.conversations.Untouched p ∧
      JudgedWork db p userId others ∧
      ∃ c, db.1.chat.conversations.committed k = some c ∧ c.closedForSendingAt = none
  | .written userId others k => JudgedWork db p userId others ∧
      OpenWritten db.1.chat.conversations p k

/-- The conversation is committed. -/
def Stands (db : ModerationDb) (k : Uuid) : Prop := db.chat.conversations.committed k ≠ none

/-- The conversation is committed and closed. -/
def Shut (db : ModerationDb) (k : Uuid) : Prop :=
  ∃ c, db.chat.conversations.committed k = some c ∧ c.closedForSendingAt ≠ none

/-- The call has written one report, which is about a conversation that is there. -/
def WroteReport (db : ModerationDb) (p : ℕ) (r : ChatReportEntity) : Prop :=
  (∃ key, db.reports.Wrote p key r ∧ db.reports.OnlyAt p key) ∧ Stands db r.conversationId

/-- What a call has read and written, place by place. -/
def BindWork (config : ModerationConfig) (db : JudgedDb) (p : ℕ) : ModerationPlace → Prop
  | .chat place => db.1.reports.Untouched p ∧ db.1.blocks.Untouched p ∧
      GateWork db p (config.gate place)
  | .anchor _ c | .count _ c _ | .file _ c _ => db.1.reports.Untouched p ∧
      db.1.blocks.Untouched p ∧ db.1.chat.conversations.Untouched p ∧ Stands db.1 c.id
  | .filed r => WroteReport db.1 p r ∧ db.1.blocks.Untouched p ∧
      db.1.chat.conversations.Untouched p ∧ r.status = .opened
  | .closing r | .close r => WroteReport db.1 p r ∧ db.1.blocks.Untouched p ∧
      db.1.chat.conversations.Untouched p
  | .finish r false => WroteReport db.1 p r ∧ db.1.blocks.Untouched p ∧
      db.1.chat.conversations.Untouched p ∧ (r.Closes → Shut db.1 r.conversationId)
  | .finish r true => WroteReport db.1 p r ∧ db.1.blocks.Untouched p ∧
      db.1.chat.conversations.OnlyAt p r.conversationId ∧
      ∃ c, db.1.chat.conversations.Wrote p r.conversationId c ∧ c.closedForSendingAt ≠ none ∧
        c.id = r.conversationId
  | .blocking .. => db.1.reports.Untouched p ∧ db.1.chat.conversations.Untouched p
  | .unblocking .. => db.1.reports.Untouched p ∧ db.1.chat.conversations.Untouched p ∧
      ∀ key x, db.1.blocks.Wrote p key x → x = none
  | _ => db.1.reports.Untouched p ∧ db.1.blocks.Untouched p ∧
      db.1.chat.conversations.Untouched p

/-- The conversation that a call has locked. -/
def BindHolds (config : ModerationConfig) : ModerationPlace → Uuid → LockMode → Prop
  | .chat place, k, mode => (config.gate place).Holds k mode
  | .close r, k, mode | .finish r true, k, mode => k = r.conversationId ∧ mode = .exclusive
  | _, _, _ => False

/-- The reports are about conversations that are there, and those they close are closed. -/
structure BindSound (reports : Uuid → Option ChatReportEntity)
    (conversations : Uuid → Option ChatConversationEntity) : Prop where
  id : ∀ k c, conversations k = some c → c.id = k
  known : ∀ k r, reports k = some r → conversations r.conversationId ≠ none
  closes : ∀ k r, reports k = some r → r.Closes →
    ∃ c, conversations r.conversationId = some c ∧ c.closedForSendingAt ≠ none

/-- What holds of the tables, and what a call relies on. -/
def bindOutline (config : ModerationConfig) : Outline JudgedDb Uuid ModerationPlace ChatEnv where
  Assumes := fun _ => GuardedAt
  Sound := fun db => BindSound db.1.reports.committed db.1.chat.conversations.committed
  Guarantee := fun _ _ => True
  Work := BindWork config
  holds := BindHolds config

/-! ## What a step leaves to the calls beside it -/

/-- What a step leaves to the calls beside it. -/
structure BindBeside (q : ℕ) (db db' : JudgedDb) : Prop where
  conversations : Others q db.1.chat.conversations db'.1.chat.conversations
  reports : Others q db.1.reports db'.1.reports
  blocks : Others q db.1.blocks db'.1.blocks
  stays : ∀ j ∈ db.2, j.pid = q → j ∈ db'.2
  admits : ∀ j ∈ db.2, j.pid = q →
    Admits db.1.reportsStanding db.1.blockStanding j.senderUserId j.others →
    Admits db'.1.reportsStanding db'.1.blockStanding j.senderUserId j.others
  known : ∀ k, Stands db.1 k → Stands db'.1 k
  shut : ∀ k, Shut db.1 k → Shut db'.1 k

section Beside

variable {db db' : JudgedDb}

theorem JudgedWork.beside (h : JudgedWork db q userId others) (hb : BindBeside q db db') :
    JudgedWork db' q userId others :=
  ⟨hb.stays _ h.mem rfl, hb.admits _ h.mem rfl h.admits⟩

theorem WroteReport.beside (h : WroteReport db.1 q r) (hb : BindBeside q db db') :
    WroteReport db'.1 q r := by
  obtain ⟨⟨key, hwrote, honly⟩, hknown⟩ := h
  exact ⟨⟨key, hb.reports.wrote_iff.2 hwrote, hb.reports.onlyAt honly⟩, hb.known _ hknown⟩

theorem gateWork_beside {gate : Gate} (h : GateWork db q gate) (hb : BindBeside q db db')
    (hlocked : ∀ k mode, gate.Holds k mode → Stands db.1 k →
      db'.1.chat.conversations.committed k = db.1.chat.conversations.committed k) :
    GateWork db' q gate := by
  cases gate with
  | before => exact hb.conversations.untouched h
  | opened => exact Opened.others h hb.conversations
  | judged | locked => exact ⟨hb.conversations.untouched h.1, h.2.beside hb⟩
  | admitted userId others k =>
    obtain ⟨hunt, hjudged, c, hc, hopen⟩ := h
    refine ⟨hb.conversations.untouched hunt, hjudged.beside hb, c, ?_, hopen⟩
    rw [hlocked k .exclusive ⟨rfl, rfl⟩ (by rw [Stands, hc]; exact Option.some_ne_none _), hc]
  | written =>
    obtain ⟨hjudged, ⟨c, c', hrow, hopen⟩, honly⟩ := h
    exact ⟨hjudged.beside hb, ⟨c, c', hb.conversations.row_of hrow, hopen⟩,
      hb.conversations.onlyAt honly⟩

theorem bindWork_beside (h : BindWork config db q place) (hb : BindBeside q db db')
    (hlocked : ∀ k mode, BindHolds config place k mode → Stands db.1 k →
      db'.1.chat.conversations.committed k = db.1.chat.conversations.committed k) :
    BindWork config db' q place := by
  cases place with
  | chat =>
    exact ⟨hb.reports.untouched h.1, hb.blocks.untouched h.2.1, gateWork_beside h.2.2 hb hlocked⟩
  | anchor | count | file =>
    exact ⟨hb.reports.untouched h.1, hb.blocks.untouched h.2.1,
      hb.conversations.untouched h.2.2.1, hb.known _ h.2.2.2⟩
  | filed =>
    exact ⟨WroteReport.beside h.1 hb, hb.blocks.untouched h.2.1,
      hb.conversations.untouched h.2.2.1, h.2.2.2⟩
  | closing | close =>
    exact ⟨WroteReport.beside h.1 hb, hb.blocks.untouched h.2.1,
      hb.conversations.untouched h.2.2⟩
  | finish r closed =>
    cases closed with
    | false =>
      exact ⟨WroteReport.beside h.1 hb, hb.blocks.untouched h.2.1,
        hb.conversations.untouched h.2.2.1, fun hcloses => hb.shut _ (h.2.2.2 hcloses)⟩
    | true =>
      obtain ⟨hreport, hblocks, honly, c, hwrote, hshut⟩ := h
      exact ⟨hreport.beside hb, hb.blocks.untouched hblocks, hb.conversations.onlyAt honly, c,
        hb.conversations.wrote_iff.2 hwrote, hshut⟩
  | blocking =>
    exact ⟨hb.reports.untouched h.1, hb.conversations.untouched h.2⟩
  | unblocking =>
    exact ⟨hb.reports.untouched h.1, hb.conversations.untouched h.2.1,
      fun key x hx => h.2.2 key x (hb.blocks.wrote_iff.1 hx)⟩
  | _ =>
    exact ⟨hb.reports.untouched h.1, hb.blocks.untouched h.2.1,
      hb.conversations.untouched h.2.2⟩

theorem bind_keeps_of_committed (hs : (bindOutline config).Sound db) (hconversations :
      db'.1.chat.conversations.committed = db.1.chat.conversations.committed)
    (hreps : db'.1.reports.committed = db.1.reports.committed)
    (hblocks : db'.1.blocks.committed = db.1.blocks.committed)
    (hstays : ∀ q ≠ p, ∀ j ∈ db.2, j.pid = q → j ∈ db'.2)
    (hothers : ∀ q ≠ p, Others q db.1.chat.conversations db'.1.chat.conversations ∧
      Others q db.1.reports db'.1.reports ∧ Others q db.1.blocks db'.1.blocks) :
    (bindOutline config).Keeps db p place db' where
  sound := by
    show BindSound db'.1.reports.committed db'.1.chat.conversations.committed
    rw [hreps, hconversations]
    exact hs
  guarantee := trivial
  others := by
    intro q place' hq _ hw
    refine bindWork_beside hw ?_ fun k _ _ _ => by rw [hconversations]
    refine ⟨(hothers q hq).1, (hothers q hq).2.1, (hothers q hq).2.2, hstays q hq, ?_, ?_, ?_⟩
    · rintro j - - ⟨hunrestricted, hunblocked⟩
      refine ⟨fun r hr => hunrestricted r ?_, fun o ho => ?_⟩
      · obtain ⟨k, hk⟩ := mem_reportsStanding.1 hr
        exact mem_reportsStanding.2 ⟨k, by rw [← hreps, hk]⟩
      · have hblock : db'.1.blockStanding = db.1.blockStanding := by
          funext userId otherId
          simp only [blockStanding, there, hblocks]
        rw [hblock]
        exact hunblocked o ho
    · intro k hk
      rw [Stands, hconversations]
      exact hk
    · intro k hk
      rw [Shut, hconversations]
      exact hk

end Beside

/-! ## Sending -/

theorem unblocked_of_evaluate (h : evaluate (live config env db p userId c) userId c = none) :
    ∀ o ∈ config.others c userId, db.blockSeen p userId o = false := by
  intro o ho
  by_contra hblocked
  have hblock : blockExistsBetween (live config env db p userId c) c userId = true := by
    have hany : ((config.others c userId).any fun o => db.blockSeen p userId o) = true :=
      any_eq_true.2 ⟨o, ho, Bool.eq_true_of_not_eq_false hblocked⟩
    exact decide_eq_true ⟨ne_nil_of_mem ho, hany⟩
  unfold evaluate at h
  split at h
  · cases h
  split at h
  all_goals cases h

/-! ## Statements -/

section Passes

variable {db db' : JudgedDb}

section

variable (hconversations : db'.1.chat.conversations = db.1.chat.conversations)
include hconversations

theorem bindBeside_of_eq
    (hreps : db'.1.reports = db.1.reports) (hblocks : db'.1.blocks = db.1.blocks)
    (hrec : ∀ j ∈ db.2, j ∈ db'.2) : BindBeside q db db' where
  conversations := by
    rw [hconversations]
    exact .refl
  reports := by
    rw [hreps]
    exact .refl
  blocks := by
    rw [hblocks]
    exact .refl
  stays := fun j hj _ => hrec j hj
  admits := by
    intro j _ _ h
    have hreport : db'.1.reportsStanding = db.1.reportsStanding := by
      unfold reportsStanding
      rw [hreps]
    have hblock : db'.1.blockStanding = db.1.blockStanding := by
      unfold blockStanding
      rw [hblocks]
    rw [hreport, hblock]
    exact h
  known := by
    intro k hk
    rw [Stands, hconversations]
    exact hk
  shut := by
    intro k hk
    rw [Shut, hconversations]
    exact hk

theorem bind_keeps_of_eq (hs : (bindOutline config).Sound db)
    (hreps : db'.1.reports = db.1.reports) (hblocks : db'.1.blocks = db.1.blocks)
    (hrec : ∀ j ∈ db.2, j ∈ db'.2) : (bindOutline config).Keeps db p place db' := by
  refine bind_keeps_of_committed hs (by rw [hconversations]) (by rw [hreps]) (by rw [hblocks])
    (fun q _ j hj _ => hrec j hj) fun q _ => ?_
  rw [hconversations, hreps, hblocks]
  exact ⟨.refl, .refl, .refl⟩

end

end Passes

theorem judged_goes_subset (config : ModerationConfig) (env : ChatEnv) (db : ModerationDb) (p : ℕ)
    (place : ModerationPlace) (record : List Judged) :
    ∀ j ∈ record, j ∈ (judged config).goes env db p place record := by
  intro j hj
  unfold judged
  dsimp only
  split
  · exact mem_cons_of_mem _ hj
  · exact hj

theorem judgedWork_evaluate (hreps : db.reports.Untouched p) (hblocks : db.blocks.Untouched p)
    (hrestricted : isSenderRestricted db p userId = false)
    (hevaluate : evaluate (live config env db p userId c) userId c = none) :
    JudgedWork (db, ⟨p, userId, config.others c userId⟩ :: record) p userId
      (config.others c userId) where
  mem := mem_cons_self
  admits := by
    constructor
    · intro r hr hrestricts
      rw [← reportsSeen_of_untouched hreps] at hr
      rw [isSenderRestricted, any_eq_false] at hrestricted
      exact hrestricted r hr (decide_eq_true hrestricts)
    · intro o ho
      rw [← blockSeen_of_untouched hblocks]
      exact unblocked_of_evaluate hevaluate o ho

theorem openWritten_bump {t' : Versioned ℕ Uuid ChatConversationEntity}
    {c' : ChatConversationEntity} {sequence : ℕ} (hu : t.Untouched p)
    (hid : ∀ k c, t.committed k = some c → c.id = k) (hc : t.committed k = some c)
    (hopen : c.closedForSendingAt = none)
    (h : t.update p k (fun _ => True) (fun row => row.bump sequence now) = .done c' t') :
    OpenWritten t' p k ∧ t'.committed = t.committed ∧ ∀ q ≠ p, Others q t t' := by
  obtain ⟨_, hx, -, hlock, -, rfl⟩ := update_eq_done h
  rw [hu.get_eq, hc] at hx
  cases hx
  refine ⟨⟨⟨c, c.bump sequence now, ?_, hopen, hopen, hid k c hc⟩, hu.onlyAt.write⟩,
    committed_write, fun q hq => others_write hq hlock⟩
  rw [row_write (hu k), hu.get_eq, hc]

section

variable (hs : (bindOutline config).Sound (db, record))
include hs

/-! ## Reporting, deciding and blocking -/

theorem writes_report {key : Uuid} {t : Versioned ℕ Uuid ChatReportEntity}
    (hu : db.reports.Untouched p) (hlock : ¬(db.reports.row key).Locked p)
    (ht : t = db.reports.write p key r) (hknown : Stands db r.conversationId) :
    (bindOutline config).Keeps (db, record) p place ({ db with reports := t }, record) ∧
      WroteReport { db with reports := t } p r := by
  subst ht
  refine ⟨bind_keeps_of_committed hs rfl committed_write rfl (fun _ _ j hj _ => hj) ?_,
    ⟨key, wrote_write_self, hu.onlyAt.write⟩, hknown⟩
  exact fun q hq => ⟨.refl, others_write hq hlock, .refl⟩

theorem known_of_readable {conversationId : Uuid} (hu : db.chat.conversations.Untouched p)
    (h : requireReadable env db p userId conversationId = some c) : Stands db c.id := by
  unfold requireReadable at h
  split at h
  · cases h
  rename_i c' hget
  split at h
  · cases h
  cases h
  rw [hu.get_eq] at hget
  rw [Stands, hs.id _ _ hget, hget]
  exact Option.some_ne_none _

end

theorem not_closes_decide {i : DecideInput}
    (h : ¬(i.upheld = true ∧ i.action = some .closeConversation)) : ¬(r.decide i now).Closes := by
  rintro ⟨hstat, hact⟩
  by_cases hupheld : i.upheld = true
  · refine h ⟨hupheld, ?_⟩
    simpa [ChatReportEntity.decide, hupheld] using hact
  · simp [ChatReportEntity.decide, hupheld] at hstat

theorem keeps_block {key : Uuid × Uuid} {x : Option Instant}
    (hs : (bindOutline config).Sound (db, record)) (hlock : ¬(db.blocks.row key).Locked p) :
    (bindOutline config).Keeps (db, record) p place
      ({ db with blocks := db.blocks.write p key x }, record) :=
  bind_keeps_of_committed hs rfl rfl committed_write (fun _ _ _ hj _ => hj)
    fun _ hq => ⟨.refl, .refl, others_write hq hlock⟩

/-! ## The end of a transaction -/

theorem bind_keeps_rollback (hs : (bindOutline config).Sound (db, record)) :
    (bindOutline config).Keeps (db, record) p place
      (db.rollback p, record.filter fun j => j.pid ≠ p) := by
  refine bind_keeps_of_committed hs committed_rollback committed_rollback committed_rollback ?_
    fun q hq => ⟨others_rollback hq, others_rollback hq, others_rollback hq⟩
  intro q hq j hj hpid
  exact mem_filter.2 ⟨hj, decide_eq_true (hpid ▸ hq)⟩

theorem bind_keeps_commit (hsound : BindSound (db.reports.get p) (db.chat.conversations.get p))
    (hadmits : ∀ j ∈ record, Admits db.reportsStanding db.blockStanding j.senderUserId j.others →
      Admits (db.reportsSeen p) (db.blockSeen p) j.senderUserId j.others)
    (hkept : ∀ k c, db.chat.conversations.committed k = some c →
      ∃ c', db.chat.conversations.get p k = some c' ∧
        (c.closedForSendingAt ≠ none → c'.closedForSendingAt ≠ none))
    (hlocked : ∀ k, ¬BindHolds config place k .exclusive → Stands db k →
      db.chat.conversations.get p k = db.chat.conversations.committed k) :
    (bindOutline config).Keeps (db, record) p place
      (db.commit p, record.filter fun j => j.pid ≠ p) where
  sound := by
    have hreps : (db.commit p).reports.committed = db.reports.get p :=
      funext fun _ => committed_commit
    have hconversations : (db.commit p).chat.conversations.committed =
        db.chat.conversations.get p := funext fun _ => committed_commit
    show BindSound (db.commit p).reports.committed (db.commit p).chat.conversations.committed
    rw [hreps, hconversations]
    exact hsound
  guarantee := trivial
  others := by
    intro q place' hq htog hw
    have hcomm : ∀ k, (db.commit p).chat.conversations.committed k =
        db.chat.conversations.get p k := fun _ => committed_commit
    refine bindWork_beside hw ?_ ?_
    · refine ⟨others_commit hq, others_commit hq, others_commit hq, ?_, ?_, ?_, ?_⟩
      · intro j hj hpid
        exact mem_filter.2 ⟨hj, decide_eq_true (hpid ▸ hq)⟩
      · intro j hj _ hj_admits
        rw [reportsStanding_commit, blockStanding_commit]
        exact hadmits j hj hj_admits
      · intro k hk
        obtain ⟨c, hc⟩ := Option.ne_none_iff_exists'.1 hk
        obtain ⟨c', hc', -⟩ := hkept k c hc
        rw [Stands, hcomm, hc']
        exact Option.some_ne_none _
      · rintro k ⟨c, hc, hclosed⟩
        obtain ⟨c', hc', hclosed'⟩ := hkept k c hc
        exact ⟨c', (hcomm k).trans hc', hclosed' hclosed⟩
    · intro k mode hholds hstands
      rw [hcomm]
      refine hlocked k (fun hholds' => ?_) hstands
      -- the other call has the lock
      exact absurd (htog k .exclusive mode hholds' hholds).1 (by decide)

theorem bind_untouched_commit : (db.commit p).reports.Untouched p ∧
    (db.commit p).blocks.Untouched p ∧ (db.commit p).chat.conversations.Untouched p :=
  ⟨untouched_commit, untouched_commit, untouched_commit⟩

theorem bind_untouched_rollback : (db.rollback p).reports.Untouched p ∧
    (db.rollback p).blocks.Untouched p ∧ (db.rollback p).chat.conversations.Untouched p :=
  ⟨untouched_rollback, untouched_rollback, untouched_rollback⟩

theorem bind_keeps_commit_of_untouched (hu : db.chat.conversations.Untouched p)
    (hsound : BindSound (db.reports.get p) db.chat.conversations.committed)
    (hadmits : ∀ j ∈ record, Admits db.reportsStanding db.blockStanding j.senderUserId j.others →
      Admits (db.reportsSeen p) (db.blockSeen p) j.senderUserId j.others) :
    (bindOutline config).Keeps (db, record) p place
      (db.commit p, record.filter fun j => j.pid ≠ p) := by
  have hget : db.chat.conversations.get p = db.chat.conversations.committed :=
    funext fun _ => hu.get_eq
  refine bind_keeps_commit (by rwa [hget]) hadmits ?_ fun k _ _ => congrFun hget k
  intro k c hc
  exact ⟨c, (congrFun hget k).trans hc, id⟩

theorem bindSound_report {conversations : Uuid → Option ChatConversationEntity}
    (hs : BindSound db.reports.committed conversations)
    (hwrote : ∃ key, db.reports.Wrote p key r ∧ db.reports.OnlyAt p key)
    (hknown : conversations r.conversationId ≠ none)
    (hcloses : r.Closes → ∃ c, conversations r.conversationId = some c ∧
      c.closedForSendingAt ≠ none) :
    BindSound (db.reports.get p) conversations := by
  obtain ⟨key, hkey, honly⟩ := hwrote
  have hget : ∀ k r', db.reports.get p k = some r' →
      r' = r ∨ db.reports.committed k = some r' := by
    intro k r' hr'
    by_cases hk : k = key
    · subst hk
      exact Or.inl (Option.some.inj (hr'.symm.trans hkey.get_eq))
    · rw [get_of_not fun hw => hk (honly k hw)] at hr'
      exact Or.inr hr'
  refine ⟨hs.id, ?_, ?_⟩
  · intro k r' hr'
    rcases hget k r' hr' with rfl | hr'
    · exact hknown
    · exact hs.known k r' hr'
  · intro k r' hr' hr'_closes
    rcases hget k r' hr' with rfl | hr'
    · exact hcloses hr'_closes
    · exact hs.closes k r' hr' hr'_closes

theorem admits_of_untouched (hreps : db.reports.Untouched p) (hblocks : db.blocks.Untouched p)
    (j : Judged) (h : Admits db.reportsStanding db.blockStanding j.senderUserId j.others) :
    Admits (db.reportsSeen p) (db.blockSeen p) j.senderUserId j.others := by
  rw [reportsSeen_of_untouched hreps, blockSeen_of_untouched hblocks]
  exact h

theorem admits_of_filed (hwrote : ∃ key, db.reports.Wrote p key r ∧ db.reports.OnlyAt p key)
    (hopened : r.status = .opened) (hblocks : db.blocks.Untouched p) (j : Judged)
    (h : Admits db.reportsStanding db.blockStanding j.senderUserId j.others) :
    Admits (db.reportsSeen p) (db.blockSeen p) j.senderUserId j.others := by
  obtain ⟨key, hkey, honly⟩ := hwrote
  refine ⟨fun r' hr' hrestricts => ?_, ?_⟩
  · obtain ⟨k, hk⟩ := mem_reportsSeen.1 hr'
    by_cases hkk : k = key
    · subst hkk
      rw [hkey.get_eq] at hk
      cases hk
      cases hopened.symm.trans hrestricts.1
    · rw [get_of_not fun hw => hkk (honly k hw)] at hk
      exact h.1 r' (mem_reportsStanding.2 ⟨k, hk⟩) hrestricts
  · rw [blockSeen_of_untouched hblocks]
    exact h.2

theorem admits_of_unblocked (hreps : db.reports.Untouched p)
    (hblocks : ∀ key x, db.blocks.Wrote p key x → x = none) (j : Judged)
    (h : Admits db.reportsStanding db.blockStanding j.senderUserId j.others) :
    Admits (db.reportsSeen p) (db.blockSeen p) j.senderUserId j.others := by
  have hfind : ∀ key, (db.blocks.find p key).isSome = true →
      (db.blocks.there key).isSome = true := by
    intro key hkey
    by_cases hw : (db.blocks.row key).WrittenBy p
    · obtain ⟨x, hx⟩ := hw
      rw [hblocks key x hx] at hx
      rw [find, Wrote.get_eq hx] at hkey
      cases hkey
    · rwa [find, get_of_not hw] at hkey
  rw [reportsSeen_of_untouched hreps]
  refine ⟨h.1, fun o ho => ?_⟩
  have hstand := h.2 o ho
  simp only [blockStanding, Bool.or_eq_false_iff] at hstand
  simp only [blockSeen, Bool.or_eq_false_iff]
  refine ⟨Bool.eq_false_of_not_eq_true fun hsome => ?_,
    Bool.eq_false_of_not_eq_true fun hsome => ?_⟩
  · exact absurd (hfind _ hsome) (by rw [hstand.1]; decide)
  · exact absurd (hfind _ hsome) (by rw [hstand.2]; decide)

theorem get_reports_of_untouched (h : db.reports.Untouched p) :
    db.reports.get p = db.reports.committed := funext fun _ => h.get_eq

section

variable (hs : (bindOutline config).Sound (db, record))
include hs

theorem bind_keeps_commit_written {place : ChatPlace} (hreps : db.reports.Untouched p)
    (hblocks : db.blocks.Untouched p) (hgate : config.gate place = .written userId others k)
    (hwrit : OpenWritten db.chat.conversations p k) :
    (bindOutline config).Keeps (db, record) p (.chat place)
      (db.commit p, record.filter fun j => j.pid ≠ p) := by
  obtain ⟨⟨c, c', hrow, hopen, -, hid⟩, honly⟩ := hwrit
  have hcomm : db.chat.conversations.committed k = some c := committed_of_row hrow
  have hat : db.chat.conversations.get p k = some c' := (wrote_of_row hrow).get_eq
  have hoff : ∀ k' ≠ k, db.chat.conversations.get p k' = db.chat.conversations.committed k' :=
    fun k' hk' => get_of_not fun hw => hk' (honly k' hw)
  refine bind_keeps_commit ⟨?_, ?_, ?_⟩ (fun j _ => admits_of_untouched hreps hblocks j) ?_ ?_
  · intro k' x hx
    by_cases hk' : k' = k
    · subst hk'
      rw [hat] at hx
      cases hx
      exact hid
    · rw [hoff k' hk'] at hx
      exact hs.id k' x hx
  · intro k' r hr
    rw [get_reports_of_untouched hreps] at hr
    by_cases hk' : r.conversationId = k
    · rw [hk', hat]
      exact Option.some_ne_none _
    · rw [hoff _ hk']
      exact hs.known k' r hr
  · intro k' r hr hcloses
    rw [get_reports_of_untouched hreps] at hr
    obtain ⟨x, hx, hclosed⟩ := hs.closes k' r hr hcloses
    have hk' : r.conversationId ≠ k := by
      intro hk'
      rw [hk', hcomm] at hx
      cases hx
      exact hclosed hopen
    exact ⟨x, (hoff _ hk').trans hx, hclosed⟩
  · intro k' x hx
    by_cases hk' : k' = k
    · subst hk'
      rw [hcomm] at hx
      cases hx
      exact ⟨c', hat, fun h => absurd hopen h⟩
    · exact ⟨x, (hoff k' hk').trans hx, id⟩
  · intro k' hholds _
    refine hoff k' ?_
    rintro rfl
    refine hholds ?_
    show (config.gate place).Holds k' .exclusive
    rw [hgate]
    exact ⟨rfl, rfl⟩

theorem bind_keeps_commit_opened (hreps : db.reports.Untouched p)
    (hblocks : db.blocks.Untouched p) (hopened : Opened db.chat p) :
    (bindOutline config).Keeps (db, record) p place
      (db.commit p, record.filter fun j => j.pid ≠ p) := by
  -- what is there already stays
  have hkept : ∀ k, Stands db k →
      db.chat.conversations.get p k = db.chat.conversations.committed k :=
    fun k hk => (hopened.get k).resolve_right fun h => hk h.1
  refine bind_keeps_commit ⟨?_, ?_, ?_⟩ (fun j _ => admits_of_untouched hreps hblocks j) ?_
    fun k _ => hkept k
  · intro k c hc
    rcases hopened.get k with hsame | ⟨-, _, hc', hid⟩
    · exact hs.id k c (hsame.symm.trans hc)
    · cases hc.symm.trans hc'
      exact hid
  · intro k r hr
    rw [get_reports_of_untouched hreps] at hr
    rw [hkept _ (hs.known k r hr)]
    exact hs.known k r hr
  · intro k r hr hcloses
    rw [get_reports_of_untouched hreps] at hr
    obtain ⟨c, hc, hclosed⟩ := hs.closes k r hr hcloses
    exact ⟨c, (hkept _ (hs.known k r hr)).trans hc, hclosed⟩
  · intro k c hc
    exact ⟨c, (hkept k (by rw [Stands, hc]; exact Option.some_ne_none _)).trans hc, id⟩

theorem bind_keeps_commit_closed (hw : BindWork config (db, record) p (.finish r true))
    (hadmits : ∀ j ∈ record, Admits (db.reportsSeen p) (db.blockSeen p) j.senderUserId j.others) :
    (bindOutline config).Keeps (db, record) p (.finish r true)
      (db.commit p, record.filter fun j => j.pid ≠ p) := by
  obtain ⟨⟨hwrote, -⟩, -, honly, c, hc, hclosed, hid⟩ := hw
  have hat : db.chat.conversations.get p r.conversationId = some c := hc.get_eq
  have hoff : ∀ k' ≠ r.conversationId,
      db.chat.conversations.get p k' = db.chat.conversations.committed k' :=
    fun k' hk' => get_of_not fun hw => hk' (honly k' hw)
  have hsound : BindSound db.reports.committed (db.chat.conversations.get p) := by
    refine ⟨?_, ?_, ?_⟩
    · intro k' x hx
      by_cases hk' : k' = r.conversationId
      · rw [hk', hat] at hx
        cases hx
        exact hid.trans hk'.symm
      · rw [hoff k' hk'] at hx
        exact hs.id k' x hx
    · intro k' r' hr'
      by_cases hk' : r'.conversationId = r.conversationId
      · rw [hk', hat]
        exact Option.some_ne_none _
      · rw [hoff _ hk']
        exact hs.known k' r' hr'
    · intro k' r' hr' hcloses
      by_cases hk' : r'.conversationId = r.conversationId
      · exact ⟨c, hk' ▸ hat, hclosed⟩
      · obtain ⟨x, hx, hx_closed⟩ := hs.closes k' r' hr' hcloses
        exact ⟨x, (hoff _ hk').trans hx, hx_closed⟩
  refine bind_keeps_commit (bindSound_report hsound hwrote ?_ fun _ => ⟨c, hat, hclosed⟩)
    (fun j hj _ => hadmits j hj) ?_ ?_
  · rw [hat]
    exact Option.some_ne_none _
  · intro k' x hx
    by_cases hk' : k' = r.conversationId
    · exact ⟨c, hk' ▸ hat, fun _ => hclosed⟩
    · exact ⟨x, (hoff k' hk').trans hx, id⟩
  · intro k' hholds _
    refine hoff k' ?_
    rintro rfl
    exact hholds ⟨rfl, rfl⟩

end

/-! ## Every call -/

/-- What the proof of one statement has to give. -/
abbrev BindShown (config : ModerationConfig) (env : ChatEnv) (db : ModerationDb)
    (record : List Judged) (p : ℕ) (place : ModerationPlace) :
    Next ModerationDb Uuid ModerationPlace → Prop :=
  Next.Meets
    (fun db' place' =>
      (bindOutline config).Keeps (db, record) p place
          (db', (judged config).goes env db p place record) ∧
        BindWork config (db', (judged config).goes env db p place record) p place' ∧
        ∀ k mode, BindHolds config place' k mode → BindHolds config place k mode)
    (fun key mode place' => BindWork config (db, record) p place' ∧
      ∀ k m, BindHolds config place' k m → k = key ∧ m = mode)
    (fun place' =>
      (bindOutline config).Keeps (db, record) p place
          (db.commit p, record.filter fun j => j.pid ≠ p) ∧
        BindWork config (db.commit p, record.filter fun j => j.pid ≠ p) p place' ∧
        ∀ k mode, ¬BindHolds config place' k mode)
    (fun place' => BindWork config (db.rollback p, record.filter fun j => j.pid ≠ p) p place' ∧
      ∀ k mode, ¬BindHolds config place' k mode)

section Shown

variable (env : ChatEnv) {place : ModerationPlace}

theorem shown_same {place place' : ChatPlace} (hs : (bindOutline config).Sound (db, record))
    (hw : BindWork config (db, record) p (.chat place))
    (hconversations : chat'.conversations = db.chat.conversations)
    (hgate : config.gate place' = config.gate place) :
    BindShown config env db record p (.chat place)
      (.goes { db with chat := chat' } (.chat place')) := by
  have hrec := judged_goes_subset config env db p (.chat place) record
  have hbeside : BindBeside p (db, record)
      ({ db with chat := chat' }, (judged config).goes env db p (.chat place) record) :=
    bindBeside_of_eq hconversations rfl rfl hrec
  refine ⟨bind_keeps_of_eq hconversations hs rfl rfl hrec, ⟨hw.1, hw.2.1, ?_⟩, ?_⟩
  · rw [hgate]
    refine gateWork_beside hw.2.2 hbeside fun k _ _ _ => ?_
    rw [hconversations]
  · intro k mode h
    have h : (config.gate place').Holds k mode := h
    rwa [hgate] at h

theorem bind_refused {place : ChatPlace} (hgate : config.gate place = .before) :
    BindWork config (db.rollback p, record.filter fun j => j.pid ≠ p) p (.chat place) ∧
      ∀ k mode, ¬BindHolds config (.chat place) k mode := by
  refine ⟨⟨untouched_rollback, untouched_rollback, ?_⟩, fun k mode h => ?_⟩
  · rw [hgate]
    exact untouched_rollback
  · have h : (config.gate place).Holds k mode := h
    rw [hgate] at h
    exact h

section Chat

variable {place : ChatPlace} (hs : (bindOutline config).Sound (db, record))
  (hw : BindWork config (db, record) p (.chat place))
include hs hw

theorem binds_start (finds : ChatEnv) :
    BindShown config env db record p (.chat place)
      ((startStatement finds db.chat p place).map (fun chat => { db with chat := chat }) .chat) := by
  cases place with
  | eligible =>
    dsimp only [startStatement]
    split
    · exact shown_same env hs hw rfl rfl
    · exact bind_refused rfl
  | insertConversation =>
    obtain ⟨hreps, hblocks, hunt⟩ := id hw
    dsimp only [startStatement]
    split
    · trivial
    · rename_i hins
      obtain ⟨-, rfl, hlock, hget, -⟩ := insert_eq_done hins
      refine ⟨bind_keeps_of_committed hs committed_write rfl rfl (fun _ _ j hj _ => hj)
        fun q hq => ⟨others_write hq hlock, .refl, .refl⟩, ⟨hreps, hblocks, ?_⟩,
        fun _ _ h => h.elim⟩
      refine Or.inr ⟨_, ⟨rfl, rfl, rfl⟩, ?_, hunt.onlyAt.write⟩
      exact (row_write (hunt _)).trans (by rw [hget])
    · exact ⟨bind_keeps_of_eq rfl hs rfl rfl fun _ hj => hj, ⟨hreps, hblocks, Or.inl hunt⟩,
        fun _ _ h => h.elim⟩
  | findConversation =>
    dsimp only [startStatement]
    split
    · exact bind_refused rfl
    · exact shown_same env hs hw rfl rfl
  | ensureCustomer =>
    dsimp only [startStatement]
    split
    · trivial
    · exact shown_same env hs hw rfl rfl
    · exact shown_same env hs hw rfl rfl
  | findCustomer =>
    dsimp only [startStatement]
    split
    · exact bind_refused rfl
    · exact ⟨bind_keeps_commit_opened hs hw.1 hw.2.1 hw.2.2, bind_untouched_commit, fun _ _ h => h⟩
  | _ => trivial

theorem binds_check (hm : GuardedAt (db, record) p (.chat place)) :
    BindShown config env db record p (.chat place)
      ((checkStatement config.toChatConfig (liveEnv config env db p place) db.chat p place).map
        (fun chat => { db with chat := chat }) .chat) := by
  obtain ⟨hreps, hblocks, hgate⟩ := id hw
  cases place with
  | evaluate i c =>
    dsimp only [checkStatement]
    split
    · exact bind_refused rfl
    · rename_i hevaluate
      have hjudged : JudgedWork (db, _ :: record) p i.senderUserId _ :=
        judgedWork_evaluate hreps hblocks hm hevaluate
      have hrec := judged_goes_subset config env db p (.chat (.evaluate i c)) record
      split
      all_goals exact ⟨bind_keeps_of_eq rfl hs rfl rfl hrec,
        ⟨hreps, hblocks, hgate, hjudged⟩, fun _ _ h => h.elim⟩
  | lock => exact ⟨⟨hreps, hblocks, hgate⟩, fun _ _ h => h⟩
  | replay =>
    refine ⟨bind_keeps_commit_of_untouched hgate.1 ?_ fun j _ => admits_of_untouched hreps
      hblocks j, bind_untouched_commit, fun _ _ h => h⟩
    rw [get_reports_of_untouched hreps]
    exact hs
  | screen =>
    dsimp only [checkStatement]
    split
    · exact shown_same env hs hw rfl rfl
    · exact bind_refused rfl
  | load =>
    dsimp only [checkStatement]
    split
    · exact bind_refused rfl
    · split
      · exact bind_refused rfl
      · exact shown_same env hs hw rfl rfl
  | lookup =>
    dsimp only [checkStatement]
    split
    · exact shown_same env hs hw rfl rfl
    · exact shown_same env hs hw rfl rfl
  | _ => trivial

theorem binds_reserve (finds : ChatEnv) (hm : GuardedAt (db, record) p (.chat place)) :
    BindShown config env db record p (.chat place)
      ((reserveStatement config.toChatConfig finds db.chat p place).map
        (fun chat => { db with chat := chat }) .chat) := by
  cases place with
  | locked =>
    obtain ⟨hreps, hblocks, hunt, hjudged⟩ := id hw
    dsimp only [reserveStatement]
    split
    · exact bind_refused rfl
    · rename_i row hrow
      exact ⟨bind_keeps_of_eq rfl hs rfl rfl fun _ hj => hj, ⟨hreps, hblocks, hunt, hjudged,
        row, hunt.get_eq.symm.trans hrow, hm row hrow⟩, fun _ _ h => h⟩
  | daily =>
    dsimp only [reserveStatement]
    split
    · exact bind_refused rfl
    · exact shown_same env hs hw rfl rfl
  | reserve =>
    dsimp only [reserveStatement]
    split
    · trivial
    split
    · exact shown_same env hs hw rfl rfl
    · split
      · exact shown_same env hs hw rfl rfl
      · exact bind_refused rfl
  | _ => trivial

theorem binds_write :
    BindShown config env db record p (.chat place)
      ((writeStatement config.toChatConfig (liveEnv config env db p place) db.chat p place).map
        (fun chat => { db with chat := chat }) .chat) := by
  have hs' : BindSound db.reports.committed db.chat.conversations.committed := hs
  cases place with
  | insert =>
    dsimp only [writeStatement]
    split
    · split
      · trivial
      · exact shown_same env hs hw rfl rfl
      · exact bind_refused rfl
    · trivial
  | bump i c m now =>
    obtain ⟨hreps, hblocks, hunt, hjudged, c₀, hc₀, hopen⟩ := id hw
    have hget : db.chat.conversations.get p c.id = some c₀ :=
      hunt.get_eq.trans hc₀
    dsimp only [writeStatement]
    -- an update without a condition matches the row, which is there
    rcases update_waits_or_done (fun _ => True) (fun row => row.bump m.sequence now) hget trivial
      with hwaits | hdone
    · rw [hwaits]
      trivial
    · rw [hdone]
      obtain ⟨hwrit, hcomm, hothers⟩ := openWritten_bump hunt hs'.id hc₀ hopen hdone
      exact ⟨bind_keeps_of_committed hs hcomm rfl rfl (fun _ _ j hj _ => hj)
        fun q hq => ⟨hothers q hq, .refl, .refl⟩,
        ⟨hreps, hblocks, ⟨hjudged.mem, hjudged.admits⟩, hwrit⟩, fun _ _ h => h⟩
  | watermark =>
    dsimp only [writeStatement]
    split
    · trivial
    · exact shown_same env hs hw rfl rfl
    · exact shown_same env hs hw rfl rfl
  | announce => exact shown_same env hs hw rfl rfl
  | finish =>
    exact ⟨bind_keeps_commit_written hs hw.1 hw.2.1 rfl hw.2.2.2, bind_untouched_commit,
      fun _ _ h => h⟩
  | _ => trivial

theorem shown_chat (hm : GuardedAt (db, record) p (.chat place)) :
    BindShown config env db record p (.chat place)
      (moderationStatement config env db p (.chat place)) := by
  cases place with
  | eligible | insertConversation | findConversation | ensureCustomer | findCustomer =>
    exact binds_start env hs hw env
  | locked | reserve | daily => exact binds_reserve env hs hw env hm
  | insert | bump | watermark | announce | finish => exact binds_write env hs hw
  | _ => exact binds_check env hs hw hm

end Chat

theorem shown_report (hs : (bindOutline config).Sound (db, record))
    (hw : BindWork config (db, record) p place) :
    BindShown config env db record p place (reportStatement config env db p place) := by
  have href : BindWork config (db.rollback p, record.filter fun j => j.pid ≠ p) p .failed ∧
      ∀ k mode, ¬BindHolds config .failed k mode := ⟨bind_untouched_rollback, fun _ _ h => h⟩
  cases place with
  | report =>
    simp only [reportStatement]
    split
    · split
      · exact href
      · rename_i c hreadable
        exact ⟨bind_keeps_of_eq rfl hs rfl rfl fun _ hj => hj,
          ⟨hw.1, hw.2.1, hw.2.2, known_of_readable hs hw.2.2 hreadable⟩, fun _ _ h => h⟩
    · exact href
  | anchor | count =>
    simp only [reportStatement]
    split
    · exact href
    · exact ⟨bind_keeps_of_eq rfl hs rfl rfl fun _ hj => hj, hw, fun _ _ h => h⟩
  | file =>
    obtain ⟨hreps, hblocks, hconversations, hknown⟩ := hw
    simp only [reportStatement]
    split
    · trivial
    · rename_i r t hdone
      obtain ⟨rfl, ht, hlock, -, -⟩ := insert_eq_done hdone
      obtain ⟨hkeeps, hwrote⟩ := writes_report hs hreps hlock ht hknown
      exact ⟨hkeeps, ⟨hwrote, hblocks, hconversations, rfl⟩, fun _ _ h => h.elim⟩
    · exact href
  | filed =>
    have hs' : BindSound db.reports.committed db.chat.conversations.committed := hs
    obtain ⟨⟨hwrote, hknown⟩, hblocks, hconversations, hopened⟩ := hw
    refine ⟨bind_keeps_commit_of_untouched hconversations ?_
      fun j _ => admits_of_filed hwrote hopened hblocks j, bind_untouched_commit, fun _ _ h => h⟩
    refine bindSound_report hs' hwrote hknown fun hcloses => ?_
    cases hopened.symm.trans hcloses.1
  | _ => trivial

theorem shown_close {r : ChatReportEntity} (hs : (bindOutline config).Sound (db, record))
    (hw : BindWork config (db, record) p (.close r)) :
    BindShown config env db record p (.close r) (decideStatement env db p (.close r)) := by
  have hs' : BindSound db.reports.committed db.chat.conversations.committed := hs
  obtain ⟨hwrote, hblocks, hconversations⟩ := hw
  have hget : db.chat.conversations.get p r.conversationId =
      db.chat.conversations.committed r.conversationId := hconversations.get_eq
  simp only [decideStatement]
  split
  · trivial
  · rename_i c t hdone
    obtain ⟨_, hc₀, -, hlock, rfl, rfl⟩ := update_eq_done hdone
    rw [hget] at hc₀
    have hid := hs'.id _ _ hc₀
    refine ⟨bind_keeps_of_committed hs committed_write rfl rfl (fun _ _ j hj _ => hj)
        fun q hq => ⟨others_write hq hlock, .refl, .refl⟩,
      ⟨hwrote.imp id (fun h => ?_), hblocks, hconversations.onlyAt.write, _, wrote_write_self,
        Option.some_ne_none _, hid⟩, fun _ _ h => h⟩
    show (db.chat.conversations.write p r.conversationId _).committed r.conversationId ≠ none
    rw [committed_write]
    exact h
  · rename_i hwaits hdone
    refine ⟨bind_keeps_of_eq rfl hs rfl rfl fun _ hj => hj,
      ⟨hwrote, hblocks, hconversations, fun _ => ?_⟩, fun _ _ h => h.elim⟩
    -- the conversation has been closed before the lock was granted
    obtain ⟨c, hc⟩ := Option.ne_none_iff_exists'.1 hwrote.2
    refine ⟨c, hc, fun hopen => ?_⟩
    generalize hupd : db.chat.conversations.update p r.conversationId
      (fun c => c.closedForSendingAt = none)
      (fun c => { c with closedForSendingAt := some env.now }) = outcome at hwaits hdone
    cases outcome with
    | waits => exact absurd rfl hwaits
    | done c t => exact absurd rfl (hdone c t)
    | unmatched => exact update_eq_unmatched hupd c (hget.trans hc) hopen
    | violated => exact absurd hupd update_ne_violated

section

variable (hm : GuardedAt (db, record) p place)
include hm

section

variable (hs : (bindOutline config).Sound (db, record))
include hs

section

variable (hw : BindWork config (db, record) p place)
include hw

theorem shown_decide :
    BindShown config env db record p place (decideStatement env db p place) := by
  have hs' : BindSound db.reports.committed db.chat.conversations.committed := hs
  cases place with
  | decide i =>
    obtain ⟨hreps, hblocks, hconversations⟩ := hw
    simp only [decideStatement]
    split
    · trivial
    · rename_i r t hdone
      obtain ⟨r₀, hr₀, -, hlock, rfl, ht⟩ := update_eq_done hdone
      rw [hreps.get_eq] at hr₀
      have hknown : Stands db r₀.conversationId := hs'.known _ _ hr₀
      obtain ⟨hkeeps, hwrote⟩ :=
        writes_report (r := r₀.decide i env.now) hs hreps hlock ht hknown
      refine ⟨hkeeps, ?_⟩
      split
      · exact ⟨⟨hwrote, hblocks, hconversations⟩, fun _ _ h => h.elim⟩
      · rename_i hcloses
        exact ⟨⟨hwrote, hblocks, hconversations,
          fun h => absurd h (not_closes_decide hcloses)⟩, fun _ _ h => h.elim⟩
    · refine ⟨bind_keeps_commit_of_untouched hconversations ?_
        fun j _ => admits_of_untouched hreps hblocks j, bind_untouched_commit, fun _ _ h => h⟩
      rw [get_reports_of_untouched hreps]
      exact hs'
  | closing r =>
    obtain ⟨hwrote, hblocks, hconversations⟩ := id hw
    have hget : db.chat.conversations.get p r.conversationId =
        db.chat.conversations.committed r.conversationId := hconversations.get_eq
    simp only [decideStatement]
    split
    · rename_i hnone
      exact absurd (hget.symm.trans hnone) hwrote.2
    · rename_i c hc
      split
      · exact ⟨hw, fun _ _ h => h⟩
      · rename_i hclosed
        exact ⟨bind_keeps_of_eq rfl hs rfl rfl fun _ hj => hj,
          ⟨hwrote, hblocks, hconversations, fun _ => ⟨c, hget.symm.trans hc, hclosed⟩⟩,
          fun _ _ h => h.elim⟩
  | close => exact shown_close env hs hw
  | finish r closed =>
    cases closed with
    | true => exact ⟨bind_keeps_commit_closed hs hw hm, bind_untouched_commit, fun _ _ h => h⟩
    | false =>
      obtain ⟨⟨hwrote, hknown⟩, -, hconversations, hshut⟩ := hw
      exact ⟨bind_keeps_commit_of_untouched hconversations
        (bindSound_report hs' hwrote hknown hshut) fun j hj _ => hm j hj, bind_untouched_commit,
        fun _ _ h => h⟩
  | _ => trivial

theorem shown_block :
    BindShown config env db record p place (blockStatement config env db p place) := by
  have hs' : BindSound db.reports.committed db.chat.conversations.committed := hs
  cases place with
  | block =>
    simp only [blockStatement]
    split
    · exact ⟨bind_untouched_rollback, fun _ _ h => h⟩
    · exact ⟨bind_keeps_of_eq rfl hs rfl rfl fun _ hj => hj, ⟨hw.1, hw.2.2⟩, fun _ _ h => h⟩
  | blocking callerUserId now others =>
    cases others with
    | nil =>
      obtain ⟨hreps, hconversations⟩ := hw
      refine ⟨bind_keeps_commit_of_untouched hconversations ?_ fun j hj _ => hm j hj,
        bind_untouched_commit, fun _ _ h => h⟩
      rw [get_reports_of_untouched hreps]
      exact hs'
    | cons =>
      simp only [blockStatement]
      split
      · trivial
      · exact ⟨bind_keeps_of_eq rfl hs rfl rfl fun _ hj => hj, hw, fun _ _ h => h⟩
      · rename_i t hdone
        obtain ⟨rfl, hlock, -⟩ := insertOrIgnore_done hdone
        exact ⟨keeps_block hs hlock, hw, fun _ _ h => h⟩
  | unblock =>
    simp only [blockStatement]
    split
    · exact ⟨bind_untouched_rollback, fun _ _ h => h⟩
    · exact ⟨bind_keeps_of_eq rfl hs rfl rfl fun _ hj => hj,
        ⟨hw.1, hw.2.2, fun key x hx => absurd ⟨x, hx⟩ (hw.2.1 key)⟩, fun _ _ h => h⟩
  | unblocking callerUserId others =>
    cases others with
    | nil =>
      obtain ⟨hreps, hconversations, hblocks⟩ := hw
      refine ⟨bind_keeps_commit_of_untouched hconversations ?_
        fun j _ => admits_of_unblocked hreps hblocks j, bind_untouched_commit, fun _ _ h => h⟩
      rw [get_reports_of_untouched hreps]
      exact hs'
    | cons blockedUserId =>
      simp only [blockStatement]
      split
      · trivial
      · exact ⟨bind_keeps_of_eq rfl hs rfl rfl fun _ hj => hj, hw, fun _ _ h => h⟩
      · rename_i t hdone
        obtain ⟨rfl, hlock⟩ := remove_done hdone
        refine ⟨keeps_block hs hlock, ⟨hw.1, hw.2.1, ?_⟩, fun _ _ h => h⟩
        intro key x hx
        by_cases hkey : key = (callerUserId, blockedUserId)
        · subst hkey
          exact hx.unique wrote_write_self
        · refine hw.2.2 key x ?_
          have hrow := row_write_ne (t := db.blocks) (p := p) (x := none) hkey
          exact (congrArg Row.written hrow).symm.trans hx
  | _ => trivial

theorem shown_bind :
    BindShown config env db record p place (moderationStatement config env db p place) := by
  cases place with
  | chat => exact shown_chat env hs hw hm
  | report | anchor | count | file | filed => exact shown_report env hs hw
  | decide | closing | close | finish => exact shown_decide env hm hs hw
  | block | blocking | unblock | unblocking => exact shown_block env hm hs hw
  | _ => trivial

end

end

end

end Shown

/-- Each statement of the chat and of its moderation keeps it. -/
theorem bindProof (config : ModerationConfig) :
    Proof (judgedService config) (bindOutline config) where
  first := by
    intro db p request hw
    cases request with
    | chat request =>
      cases request with
      | _ => exact ⟨hw, fun _ _ h => h⟩
    | report | decide | block | unblock => exact ⟨hw, fun _ _ h => h⟩
  goes := by
    rintro env ⟨db, record⟩ p place ⟨_, _⟩ place' hm hs hw hst
    obtain ⟨hst, hrec⟩ := Next.record_eq_goes hst
    cases hrec
    exact (shown_bind env hm hs hw).of_goes hst
  locks := by
    rintro env ⟨db, record⟩ p place key mode place' hm hs hw hst
    obtain ⟨hwork, hholds⟩ := (shown_bind env hm hs hw).of_locks (Next.record_eq_locks hst)
    exact ⟨hwork, fun k m h => Or.inr (hholds k m h)⟩
  commits := by
    rintro env ⟨db, record⟩ p place place' hm hs hw hst
    exact (shown_bind env hm hs hw).of_commits (Next.record_eq_commits hst)
  throws := by
    rintro env ⟨db, record⟩ p place place' hm hs hw hst
    exact ⟨bind_keeps_rollback hs,
      (shown_bind env hm hs hw).of_throws (Next.record_eq_throws hst)⟩
  dies := by
    rintro ⟨db, record⟩ p place _ hs _
    have hfree : BindWork config (db.rollback p, record.filter fun j => j.pid ≠ p) p .failed :=
      bind_untouched_rollback
    exact ⟨bind_keeps_rollback hs, hfree, fun _ _ h => h⟩

/-! ## Every run -/

theorem binds_of_holds {s : System JudgedDb Uuid ModerationPlace}
    {e : Step ModerationRequest ChatEnv} (h : (bindOutline config).Holds s) :
    Binds config s e := by
  obtain ⟨pid, action⟩ := e
  cases action with
  | start | die => trivial
  | statement =>
    show BindsAt config s.db (s.calls pid)
    have hs : BindSound s.db.1.reports.committed s.db.1.chat.conversations.committed := h.sound
    have hw : BindWork config s.db pid (s.calls pid) := h.work pid
    generalize s.calls pid = place at hw
    cases place with
    | chat place =>
      cases place with
      | finish =>
        obtain ⟨-, -, hjudged, ⟨_, _, hrow, hopen, -⟩, -⟩ := hw
        refine ⟨fun r hr hcloses hconv => ?_, hjudged.admits⟩
        -- the conversation of a report that closes it is closed, and this one is open
        obtain ⟨k, hk⟩ := mem_reportsStanding.1 hr
        obtain ⟨_, hx, hclosed⟩ := hs.closes k r hk hcloses
        rw [hconv, committed_of_row hrow] at hx
        cases hx
        exact hclosed hopen
      | _ => trivial
    | _ => trivial

theorem holds_empty (config : ModerationConfig) :
    (bindOutline config).Holds ((judgedService config).start (.empty, [])) := by
  refine (bindProof config).holds_start ⟨?_, ?_, ?_⟩ fun p =>
    ⟨untouched_empty, untouched_empty, untouched_empty⟩
  · intro k c hc
    cases hc
  · intro k r hr
    cases hr
  · intro k r hr
    cases hr

instance (db : JudgedDb) (p : ℕ) (place : ModerationPlace) : Decidable (GuardedAt db p place) := by
  cases place with
  | chat place => cases place <;> (unfold GuardedAt; infer_instance)
  | blocking callerUserId now others => cases others <;> (unfold GuardedAt; infer_instance)
  | _ => unfold GuardedAt; infer_instance

instance (config : ModerationConfig) (db : JudgedDb) (place : ModerationPlace) :
    Decidable (BindsAt config db place) := by
  cases place with
  | chat place => cases place <;> (unfold BindsAt; infer_instance)
  | _ => unfold BindsAt; infer_instance

instance (env : ChatEnv) (db : JudgedDb) (p : ℕ) (place : ModerationPlace) :
    Decidable ((bindOutline config).Assumes env db p place) :=
  inferInstanceAs (Decidable (GuardedAt db p place))

instance (s : System JudgedDb Uuid ModerationPlace) (e : Step ModerationRequest ChatEnv) :
    Decidable (Binds config s e) :=
  match e with
  | ⟨_, .start _⟩ => isTrue trivial
  | ⟨pid, .statement _⟩ => inferInstanceAs (Decidable (BindsAt config s.db (s.calls pid)))
  | ⟨_, .die⟩ => isTrue trivial

namespace Moderated

/-- The second user is the professional. -/
def ports : ModerationConfig where
  normalizeNfc := id
  trim := id
  recipientsFor _ _ _ := [2]

/-- The statements of a call, by somebody who may act for the professional. -/
def takes (pid n : ℕ) : List (Step ModerationRequest ChatEnv) :=
  List.replicate n ⟨pid, .statement ⟨0, pid, true, [], false, some 0, true⟩⟩

def calls (pid : ℕ) (request : ModerationRequest) : Step ModerationRequest ChatEnv :=
  ⟨pid, .start request⟩

/-- A conversation, and a message in it. -/
def begun : List (Step ModerationRequest ChatEnv) :=
  [calls 0 (.chat (.startConversation ⟨1, "professional", 2⟩))] ++ takes 0 5 ++
    [calls 1 (.chat (.sendMessage ⟨1, 0, "hello", none⟩))] ++ takes 1 12

/-- The professional reports it, and the report is upheld. -/
def reported (action : ChatModerationAction) : List (Step ModerationRequest ChatEnv) :=
  [calls 2 (.report ⟨2, 0, 1, .spam, none⟩)] ++ takes 2 5 ++
    [calls 3 (.decide ⟨9, 2, true, some action, "spam"⟩)]

/-- The customer sends another message. -/
def another : Step ModerationRequest ChatEnv :=
  calls 4 (.chat (.sendMessage ⟨1, 0, "again", none⟩))

/-- A closure that has been committed before the next message: the message is refused. -/
def closedBefore : List (Step ModerationRequest ChatEnv) :=
  begun ++ reported .closeConversation ++ takes 3 4 ++ [another] ++ takes 4 3

/-- A restriction that has been committed before the next message. -/
def restrictedBefore : List (Step ModerationRequest ChatEnv) :=
  begun ++ reported .restrictSender ++ takes 3 2 ++ [another] ++ takes 4 12

/-- A closure that is committed after the next message has been evaluated. -/
def closedMeanwhile : List (Step ModerationRequest ChatEnv) :=
  begun ++ reported .closeConversation ++ [another] ++ takes 4 3 ++ takes 3 4 ++ takes 4 9

/-- A block that is committed after the next message has been evaluated. -/
def blockedMeanwhile : List (Step ModerationRequest ChatEnv) :=
  begun ++ [another] ++ takes 4 3 ++ [calls 5 (.block 2 0)] ++ takes 5 3 ++ takes 4 9

end Moderated

end BeauClick.Chat
