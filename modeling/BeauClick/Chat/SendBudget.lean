import Mathlib.Algebra.Order.BigOperators.Group.List
import BeauClick.Chat.Messages
import BeauClick.Lib.Recorded
import BeauClick.Lib.Totals

/-!
# The send budget

`ChatService.reserveSendSlot` under any number of sends: what the two limits bound.
-/

namespace BeauClick.Chat

open Locks ReadCommitted ReadCommitted.Versioned Runs Transactions List Function

/-! ## Clock readings -/

/-- The milliseconds of the daily window. -/
def dayMilliseconds : ℤ := 86400000

theorem day_lt_minuteBucket (now : Instant) : now - dayMilliseconds < minuteBucket now := by
  have hminute := Int.emod_lt_of_pos now (by decide : (0 : ℤ) < 60000)
  exact Int.sub_lt_sub_left (hminute.trans (by decide)) now

/-! ## Charges -/

/-- A message that has passed both limits, and the clock reading it was charged at. -/
structure Charge where
  senderUserId : Uuid
  reservedAt : Instant
  deriving DecidableEq

/-- The key of the row that counts the charge. -/
def Charge.key (c : Charge) : Uuid × Instant := (c.senderUserId, minuteBucket c.reservedAt)

/-- A charge is written where a call passes the daily limit. -/
def charges : Recorder ChatDb (Journal ℕ Charge) ChatPlace ChatEnv where
  goes _ _ pid place record :=
    match place with
    | .daily i _ _ now => record.append pid ⟨i.senderUserId, now⟩
    | _ => record
  commit record pid := record.commit pid
  rollback record pid := record.rollback pid

/-- The tables, and the charges of the messages. -/
abbrev BudgetDb := ChatDb × Journal ℕ Charge

/-- Any number of sends, with their charges. -/
def budgetService (config : ChatConfig) :
    Service BudgetDb Uuid ChatPlace ChatRequest ChatEnv :=
  (chatService config).recorded charges

/-- The accepted messages of a user that were charged at some readings. -/
def accepted (record : Journal ℕ Charge) (userId : Uuid) (when : Instant → Bool) : ℕ :=
  record.committed.countP fun c => c.senderUserId = userId ∧ when c.reservedAt

/-- No user has more messages accepted in a minute than the limit. -/
def MinuteBound (config : ChatConfig) (record : Journal ℕ Charge) : Prop :=
  ∀ userId bucket, accepted record userId (fun t => minuteBucket t = bucket) ≤ config.perMinute

/-- No user has more messages accepted in 24 hours than the limit, whenever they end. -/
def DayBound (config : ChatConfig) (record : Journal ℕ Charge) : Prop :=
  ∀ userId last, accepted record userId (fun t => last - dayMilliseconds < t ∧ t ≤ last) ≤
    config.perDay

/-- The condition on a send that reads the daily total: no other send of its user is between its
reservation and its end, and every message accepted in the last 24 hours is in a minute that
begins in them. -/
def CountedAt (db : BudgetDb) (pid : ℕ) : ChatPlace → Prop
  | .daily i _ _ now =>
    (∀ key ∈ db.1.sendCounters.keys, key.1 = i.senderUserId →
      ¬(db.1.sendCounters.row key).Locked pid) ∧
    ∀ c ∈ db.2.committed, c.senderUserId = i.senderUserId → now - dayMilliseconds < c.reservedAt →
      now - dayMilliseconds < minuteBucket c.reservedAt
  | _ => True

/-- The condition on a step. -/
def Counted (s : System BudgetDb Uuid ChatPlace) (e : Step ChatRequest ChatEnv) : Prop :=
  match e.action with
  | .statement _ => CountedAt s.db e.pid (s.calls e.pid)
  | _ => True

variable {config : ChatConfig} {env : ChatEnv} {db db' : ChatDb} {record record' : Journal ℕ Charge}
  {p q : ℕ} {place place' : ChatPlace} {userId : Uuid} {now : Instant} {daily : Prop}

/-! ## Where a call is with its charge -/

/-- A call has not reserved, has reserved at a clock reading, or has been charged. -/
inductive Stage where
  | before
  | reserved (userId : Uuid) (now : Instant)
  | charged (userId : Uuid)

/-- How far a call has come with the sender's counters. -/
def ChatPlace.stage : ChatPlace → Stage
  | .daily i _ _ now => .reserved i.senderUserId now
  | .insert i .. | .bump i .. | .watermark i .. | .announce i .. | .finish i _ =>
    .charged i.senderUserId
  | _ => .before

/-- The call has counted one more message in the row of its minute, within the limit. -/
structure Reserved (config : ChatConfig) (db : ChatDb) (p : ℕ) (userId : Uuid) (now : Instant) :
    Prop where
  wrote : db.sendCounters.Wrote p (userId, minuteBucket now)
    ((db.sendCounters.committed (userId, minuteBucket now)).getD 0 + 1)
  only : db.sendCounters.OnlyAt p (userId, minuteBucket now)
  bound : (db.sendCounters.committed (userId, minuteBucket now)).getD 0 + 1 ≤ config.perMinute

/-- There is room for the call's message in the day, and no other call of its user is charged. -/
structure Room (config : ChatConfig) (record : Journal ℕ Charge) (p : ℕ) (userId : Uuid)
    (now : Instant) : Prop where
  fits : accepted record userId (fun t => now - dayMilliseconds < t) + 1 ≤ config.perDay
  alone : ∀ q ≠ p, ∀ c ∈ record.pending q, c.senderUserId ≠ userId

/-- What a call has written; `daily` is whether the daily total is known to count everything. -/
def BudgetWork (config : ChatConfig) (daily : Prop) (db : BudgetDb) (p : ℕ) : Stage → Prop
  | .before => db.1.sendCounters.Untouched p ∧ db.2.pending p = []
  | .reserved userId now => Reserved config db.1 p userId now ∧ db.2.pending p = []
  | .charged userId => ∃ now, Reserved config db.1 p userId now ∧
      db.2.pending p = [⟨userId, now⟩] ∧ (daily → Room config db.2 p userId now)

/-- The counters count the charges. -/
structure BudgetSound (config : ChatConfig) (daily : Prop) (db : BudgetDb) : Prop where
  count : ∀ userId bucket, accepted db.2 userId (fun t => minuteBucket t = bucket) =
    (db.1.sendCounters.committed (userId, bucket)).getD 0
  bound : ∀ key, (db.1.sendCounters.committed key).getD 0 ≤ config.perMinute
  pending : ∀ q, ∀ c ∈ db.2.pending q, (db.1.sendCounters.row c.key).WrittenBy q
  day : daily → DayBound config db.2

/-- What holds of the counters and charges, and what a call relies on. -/
def budgetOutline (config : ChatConfig) (daily : Prop) :
    Outline BudgetDb Uuid ChatPlace ChatEnv where
  Assumes := fun _ db pid place => daily → CountedAt db pid place
  Sound := BudgetSound config daily
  Guarantee := fun _ _ => True
  Work := fun db pid place => BudgetWork config daily db pid place.stage
  holds := fun _ _ _ => False

/-! ## What a step leaves to the calls beside it -/

theorem Reserved.beside (h : Reserved config db q userId now)
    (ho : Others q db.sendCounters db'.sendCounters) : Reserved config db' q userId now := by
  have hrow := ho.row_eq h.wrote.writtenBy
  have hcomm : db'.sendCounters.committed (userId, minuteBucket now) =
      db.sendCounters.committed (userId, minuteBucket now) := congrArg Row.committed hrow
  refine ⟨?_, ho.onlyAt h.only, ?_⟩
  · rw [hcomm]
    exact ho.wrote_iff.2 h.wrote
  · rw [hcomm]
    exact h.bound

/-- What a call has written it may rely on, when the counters and charges it has written are
left and there is still room for its message. -/
theorem budgetWork_beside {db db' : BudgetDb} {stage : Stage}
    (h : BudgetWork config daily db q stage)
    (ho : Others q db.1.sendCounters db'.1.sendCounters)
    (hpend : db'.2.pending q = db.2.pending q)
    (hroom : ∀ userId now, daily → stage = .charged userId → Reserved config db.1 q userId now →
      Room config db.2 q userId now → Room config db'.2 q userId now) :
    BudgetWork config daily db' q stage := by
  cases stage with
  | before => exact ⟨ho.untouched h.1, hpend.trans h.2⟩
  | reserved => exact ⟨h.1.beside ho, hpend.trans h.2⟩
  | charged userId =>
    obtain ⟨now, hreserved, hcharge, hfits⟩ := h
    exact ⟨now, hreserved.beside ho, hpend.trans hcharge,
      fun hdaily => hroom userId now hdaily rfl hreserved (hfits hdaily)⟩

theorem keeps_left {db db' : BudgetDb} (hs : BudgetSound config daily db)
    (hctrs : db'.1.sendCounters = db.1.sendCounters) (hrec : db'.2 = db.2) :
    (budgetOutline config daily).Keeps db p place db' where
  sound := by
    obtain ⟨db', _⟩ := db'
    cases hrec
    refine ⟨?_, ?_, ?_, hs.day⟩
    · rw [hctrs]
      exact hs.count
    · rw [hctrs]
      exact hs.bound
    · rw [hctrs]
      exact hs.pending
  guarantee := trivial
  others := by
    intro q place' hq _ hw
    refine budgetWork_beside hw ?_ (by rw [hrec]) ?_
    · rw [hctrs]
      exact .refl
    · intro userId now _ _ _ hroom
      rw [hrec]
      exact hroom

theorem work_left {db db' : BudgetDb} {stage : Stage} (hw : BudgetWork config daily db p stage)
    (hctrs : db'.1.sendCounters = db.1.sendCounters) (hrec : db'.2 = db.2) :
    BudgetWork config daily db' p stage := by
  refine budgetWork_beside hw ?_ (by rw [hrec]) ?_
  · rw [hctrs]
    exact .refl
  · intro userId now _ _ _ hroom
    rw [hrec]
    exact hroom

/-! ## Reserving -/

section Reserve

variable {key : Uuid × Instant} {n : ℕ}

theorem keeps_write (hs : BudgetSound config daily (db, record))
    (hlock : ¬(db.sendCounters.row key).Locked p)
    (hctrs : db'.sendCounters = db.sendCounters.write p key n) :
    (budgetOutline config daily).Keeps (db, record) p place (db', record) where
  sound := by
    refine ⟨?_, ?_, ?_, hs.day⟩
    · intro userId bucket
      rw [hctrs, committed_write]
      exact hs.count userId bucket
    · intro key'
      rw [hctrs, committed_write]
      exact hs.bound key'
    · intro q c hc
      rw [hctrs]
      have hwrit := hs.pending q c hc
      by_cases hkey : c.key = key
      · -- the row of a charge is its call's own
        have hqp : q = p := by
          by_contra hq
          exact Row.not_writtenBy_of_not_locked hlock hq (hkey ▸ hwrit)
        rw [hkey, hqp]
        exact wrote_write_self.writtenBy
      · rw [row_write_ne hkey]
        exact hwrit
  guarantee := trivial
  others := by
    intro q place' hq _ hw
    refine budgetWork_beside hw ?_ rfl fun _ _ _ _ _ hroom => hroom
    rw [hctrs]
    exact others_write hq hlock

theorem reserved_write (hu : db.sendCounters.Untouched p)
    (hn : n = (db.sendCounters.committed (userId, minuteBucket now)).getD 0 + 1)
    (hbound : n ≤ config.perMinute)
    (hctrs : db'.sendCounters = db.sendCounters.write p (userId, minuteBucket now) n) :
    Reserved config db' p userId now := by
  subst hn
  refine ⟨?_, ?_, ?_⟩
  · rw [hctrs, committed_write]
    exact wrote_write_self
  · rw [hctrs]
    exact hu.onlyAt.write
  · rw [hctrs, committed_write]
    exact hbound

end Reserve

/-! ## The daily total -/

theorem countP_le_sum (cs : List Charge) (keys : List (Uuid × Instant)) (when : Charge → Bool)
    (hkeys : ∀ c ∈ cs, when c = true → c.key ∈ keys) :
    cs.countP when ≤ (keys.map fun key => cs.countP fun c => c.key = key).sum := by
  induction cs with
  | nil => simp
  | cons c cs ih =>
    have hrest := ih fun c' hc' => hkeys c' (mem_cons_of_mem c hc')
    have hsum : (keys.map fun key => (c :: cs).countP fun c' => c'.key = key).sum =
        (keys.map fun key => cs.countP fun c' => c'.key = key).sum +
          (keys.map fun key => if c.key = key then 1 else 0).sum := by
      simp [countP_cons]
    rw [countP_cons]
    by_cases hc : when c = true
    · -- the row of the message is in the list
      have hmem : (if c.key = c.key then 1 else 0) ∈
          keys.map fun key => if c.key = key then 1 else 0 :=
        mem_map_of_mem (hkeys c mem_cons_self hc)
      have hone := single_le_sum (fun _ _ => Nat.zero_le _) _ hmem
      rw [if_pos rfl] at hone
      rw [if_pos hc]
      omega
    · rw [if_neg hc]
      omega

section

variable (hs : BudgetSound config daily (db, record))
include hs

section

variable (hreserved : Reserved config db p userId now)
include hreserved

/-- The daily total counts the accepted messages that are in a minute of the last day, and the
call's own. -/
theorem accepted_lt_dailyTotal
    (hminutes : ∀ c ∈ record.committed, c.senderUserId = userId →
      now - dayMilliseconds < c.reservedAt → now - dayMilliseconds < minuteBucket c.reservedAt) :
    accepted record userId (fun t => now - dayMilliseconds < t) + 1 ≤
      dailyTotal db.sendCounters p userId now := by
  have hcnt : ∀ key : Uuid × Instant, record.committed.countP (fun c => c.key = key) =
      (db.sendCounters.committed key).getD 0 := by
    intro key
    rw [← hs.count key.1 key.2]
    refine countP_congr fun c _ => ?_
    simp [Charge.key, Prod.ext_iff]
  set keys := db.sendCounters.keys.filter fun key => key.1 = userId ∧ now - 86400000 < key.2
    with hkeys
  have hown : (userId, minuteBucket now) ∈ keys := by
    have hday : now - 86400000 < minuteBucket now := day_lt_minuteBucket now
    rw [mem_filter]
    exact ⟨mem_keys (Or.inr ⟨p, hreserved.wrote⟩), by simpa using hday⟩
  -- the call reads one more than is committed in the row of its minute
  have htot : dailyTotal db.sendCounters p userId now =
      (keys.map fun key => (db.sendCounters.committed key).getD 0).sum + 1 := by
    have hnodup : keys.Nodup := db.sendCounters.nodup.filter _
    have hsum := sum_of_eq_off (f := fun key => (db.sendCounters.get p key).getD 0)
      (g := fun key => (db.sendCounters.committed key).getD 0) hnodup hown ?_
    · simp only [hreserved.wrote.get_eq, Option.getD_some] at hsum
      rw [dailyTotal, ← hkeys]
      omega
    · intro key hkey
      rw [get_of_not fun hw => hkey (hreserved.only key hw)]
  rw [htot]
  simp only [← hcnt]
  refine Nat.add_le_add_right (countP_le_sum _ _ _ ?_) 1
  intro c hc hwhen
  simp only [Bool.decide_and, Bool.and_eq_true, decide_eq_true_eq] at hwhen
  have hpos : 0 < (db.sendCounters.committed c.key).getD 0 := by
    rw [← hcnt]
    exact countP_pos_iff.2 ⟨c, hc, by simp⟩
  obtain ⟨n, hn⟩ : ∃ n, db.sendCounters.committed c.key = some n := by
    cases hrow : db.sendCounters.committed c.key with
    | none => simp [hrow] at hpos
    | some n => exact ⟨n, rfl⟩
  rw [mem_filter]
  refine ⟨mem_keys_of_committed hn, ?_⟩
  have hbucket : now - 86400000 < minuteBucket c.reservedAt := hminutes c hc hwhen.1 hwhen.2
  simpa [Charge.key, hwhen.1] using hbucket

/-! ## Charging, and the end of a transaction -/

theorem keeps_charge (hnone : record.pending p = [])
    (halone : daily → ∀ key ∈ db.sendCounters.keys, key.1 = userId →
      ¬(db.sendCounters.row key).Locked p) :
    (budgetOutline config daily).Keeps (db, record) p place
      (db, record.append p ⟨userId, now⟩) where
  sound := by
    refine ⟨hs.count, hs.bound, ?_, hs.day⟩
    intro q c hc
    by_cases hq : q = p
    · subst hq
      rw [Journal.pending_append_self, hnone] at hc
      rw [mem_singleton.1 hc]
      exact hreserved.wrote.writtenBy
    · rw [Journal.pending_append_ne hq] at hc
      exact hs.pending q c hc
  guarantee := trivial
  others := by
    intro q place' hq _ hw
    refine budgetWork_beside hw .refl (Journal.pending_append_ne hq) ?_
    intro userId' now' hdaily _ hresv' hroom
    refine ⟨hroom.fits, ?_⟩
    intro q' hq' c hc
    by_cases hp : q' = p
    · subst hp
      rw [Journal.pending_append_self, hnone] at hc
      rw [mem_singleton.1 hc]
      -- the other call of the user has written the row of its minute
      rintro rfl
      obtain ⟨n, hn⟩ := hresv'.wrote.writtenBy
      exact halone hdaily _ (mem_keys (Or.inr ⟨q, hn⟩)) rfl ⟨q, n, hn, hq⟩
    · rw [Journal.pending_append_ne hp] at hc
      exact hroom.alone q' hq' c hc

theorem charged_charge (hnone : record.pending p = [])
    (halone : daily → ∀ key ∈ db.sendCounters.keys, key.1 = userId →
      ¬(db.sendCounters.row key).Locked p)
    (hfits : daily → accepted record userId (fun t => now - dayMilliseconds < t) + 1 ≤
      config.perDay) :
    BudgetWork config daily (db, record.append p ⟨userId, now⟩) p (.charged userId) := by
  refine ⟨now, hreserved, ?_, fun hdaily => ⟨hfits hdaily, ?_⟩⟩
  · rw [Journal.pending_append_self, hnone, nil_append]
  · intro q hq c hc
    rw [Journal.pending_append_ne hq] at hc
    rintro rfl
    -- a charge of another call is counted in a row that this call would wait for
    obtain ⟨n, hn⟩ := hs.pending q c hc
    exact halone hdaily _ (mem_keys (Or.inr ⟨q, hn⟩)) rfl ⟨q, n, hn, hq⟩

end

theorem keeps_end {db' : ChatDb}
    (hcnt : ∀ userId bucket, accepted record' userId (fun t => minuteBucket t = bucket) =
      (db'.sendCounters.committed (userId, bucket)).getD 0)
    (hbound : ∀ key, (db'.sendCounters.committed key).getD 0 ≤ config.perMinute)
    (hday : daily → DayBound config record')
    (hothers : ∀ q ≠ p, Others q db.sendCounters db'.sendCounters)
    (hnone : record'.pending p = []) (hpend : ∀ q ≠ p, record'.pending q = record.pending q)
    (hroom : ∀ userId now q, q ≠ p → Room config record q userId now →
      accepted record' userId (fun t => now - dayMilliseconds < t) =
        accepted record userId fun t => now - dayMilliseconds < t) :
    (budgetOutline config daily).Keeps (db, record) p place (db', record') where
  sound := by
    refine ⟨hcnt, hbound, ?_, hday⟩
    intro q c hc
    by_cases hq : q = p
    · rw [hq, hnone] at hc
      cases hc
    · rw [hpend q hq] at hc
      exact (hothers q hq).writtenBy_iff.2 (hs.pending q c hc)
  guarantee := trivial
  others := by
    intro q place' hq _ hw
    refine budgetWork_beside hw (hothers q hq) (hpend q hq) ?_
    intro userId now _ _ _ hq_room
    refine ⟨?_, ?_⟩
    · rw [hroom userId now q hq hq_room]
      exact hq_room.fits
    · intro q' hq' c hc
      by_cases hp : q' = p
      · rw [hp, hnone] at hc
        cases hc
      · rw [hpend q' hp] at hc
        exact hq_room.alone q' hq' c hc

theorem keeps_rollback_budget :
    (budgetOutline config daily).Keeps (db, record) p place
      (db.rollback p, record.rollback p) := by
  refine keeps_end hs ?_ ?_ hs.day (fun q hq => others_rollback hq)
    Journal.pending_rollback_self (fun q hq => Journal.pending_rollback_ne hq)
    (fun _ _ _ _ _ => rfl)
  · intro userId bucket
    exact (hs.count userId bucket).trans (by rw [ChatDb.rollback, committed_rollback])
  · intro key
    rw [ChatDb.rollback, committed_rollback]
    exact hs.bound key

end

theorem before_rollback :
    BudgetWork config daily (db.rollback p, record.rollback p) p .before :=
  ⟨untouched_rollback, Journal.pending_rollback_self⟩

theorem before_commit : BudgetWork config daily (db.commit p, record.commit p) p .before :=
  ⟨untouched_commit, Journal.pending_commit_self⟩

theorem keeps_commit_before (hs : BudgetSound config daily (db, record))
    (hw : BudgetWork config daily (db, record) p .before) :
    (budgetOutline config daily).Keeps (db, record) p place (db.commit p, record.commit p) := by
  have hcomm : (record.commit p).committed = record.committed := by
    rw [Journal.committed_commit, hw.2, append_nil]
  have hctrs : (db.commit p).sendCounters.committed = db.sendCounters.committed :=
    hw.1.committed_commit
  refine keeps_end hs ?_ ?_ ?_ (fun q hq => others_commit hq)
    Journal.pending_commit_self (fun q hq => Journal.pending_commit_ne hq) ?_
  · intro userId bucket
    rw [accepted, hcomm, hctrs]
    exact hs.count userId bucket
  · rw [hctrs]
    exact hs.bound
  · intro hdaily userId last
    rw [accepted, hcomm]
    exact hs.day hdaily userId last
  · intro userId now q _ _
    rw [accepted, hcomm, accepted]

theorem accepted_commit {when : Instant → Bool} (hcharge : record.pending p = [⟨userId, now⟩])
    (userId' : Uuid) :
    accepted (record.commit p) userId' when =
      accepted record userId' when + if userId = userId' ∧ when now then 1 else 0 := by
  rw [accepted, Journal.committed_commit, hcharge, accepted]
  simp [countP_cons]

theorem keeps_commit_charged (hs : BudgetSound config daily (db, record))
    (hw : BudgetWork config daily (db, record) p (.charged userId)) :
    (budgetOutline config daily).Keeps (db, record) p place (db.commit p, record.commit p) := by
  obtain ⟨now, hreserved, hcharge, hfits⟩ := hw
  have hctrs := committed_commit_of_onlyAt hreserved.wrote hreserved.only
  refine keeps_end hs ?_ ?_ ?_ (fun q hq => others_commit hq)
    Journal.pending_commit_self (fun q hq => Journal.pending_commit_ne hq) ?_
  · intro userId' bucket
    rw [accepted_commit hcharge, hs.count, ChatDb.commit, hctrs]
    by_cases hkey : (userId', bucket) = (userId, minuteBucket now)
    · cases hkey
      simp
    · rw [update_of_ne hkey, if_neg, Nat.add_zero]
      rintro ⟨rfl, hbucket⟩
      exact hkey (by rw [of_decide_eq_true hbucket])
  · intro key
    rw [ChatDb.commit, hctrs]
    by_cases hkey : key = (userId, minuteBucket now)
    · rw [hkey, update_self]
      exact hreserved.bound
    · rw [update_of_ne hkey]
      exact hs.bound key
  · -- a period that takes the new message in lies in the day that the call has counted
    intro hdaily userId' last
    rw [accepted_commit hcharge]
    split
    · rename_i hin
      obtain ⟨rfl, hwhen⟩ := hin
      simp only [Bool.decide_and, Bool.and_eq_true, decide_eq_true_eq] at hwhen
      refine (Nat.add_le_add_right ?_ 1).trans (hfits hdaily).fits
      refine countP_mono_left fun c _ hc => ?_
      simp only [Bool.decide_and, Bool.and_eq_true, decide_eq_true_eq] at hc ⊢
      exact ⟨hc.1, (Int.sub_le_sub_right hwhen.2 _).trans_lt hc.2.1⟩
    · exact hs.day hdaily userId' last
  · intro userId' now' q hq hroom
    rw [accepted_commit hcharge, if_neg, Nat.add_zero]
    rintro ⟨rfl, -⟩
    exact hroom.alone p hq.symm ⟨userId, now⟩ (by rw [hcharge]; exact mem_singleton_self _) rfl

/-! ## Statements -/

/-- What a statement that goes on does to the counters. -/
inductive Counts (config : ChatConfig) (env : ChatEnv) (db : ChatDb) (p : ℕ) :
    ChatPlace → ChatDb → ChatPlace → Prop where
  | reserves (i : SendMessageInput) (c : ChatConversationEntity) (lastSequence n : ℕ)
    (hlock : ¬(db.sendCounters.row (i.senderUserId, minuteBucket env.now)).Locked p)
    (hn : n = (db.sendCounters.get p (i.senderUserId, minuteBucket env.now)).getD 0)
    (hlt : n = 0 ∨ n < config.perMinute) :
    Counts config env db p (.reserve i c lastSequence)
      { db with sendCounters :=
        db.sendCounters.write p (i.senderUserId, minuteBucket env.now) (n + 1) }
      (.daily i c lastSequence env.now)
  | passes (i : SendMessageInput) (c : ChatConversationEntity) (lastSequence : ℕ) (now : Instant)
    (hle : dailyTotal db.sendCounters p i.senderUserId now ≤ config.perDay) :
    Counts config env db p (.daily i c lastSequence now) db (.insert i c (lastSequence + 1))
  | leaves {place place' : ChatPlace} {db' : ChatDb}
    (hne : ∀ userId now, place.stage ≠ .reserved userId now) (hstage : place'.stage = place.stage)
    (hcounters : db'.sendCounters = db.sendCounters) : Counts config env db p place db' place'

/-- A lock is taken before the reservation, and a call returns what it has found, or what it has
been charged for. -/
theorem counts_statement : (statement config env db p place).Meets (Counts config env db p place)
    (fun _ _ place' => place'.stage = place.stage)
    (fun place' => place'.stage = .before ∧
      (place.stage = .before ∨ ∃ userId, place.stage = .charged userId))
    fun place' => place'.stage = .before := by
  have hne : ∀ userId now, Stage.before ≠ .reserved userId now := fun _ _ h => by cases h
  have hne' : ∀ userId userId' now, Stage.charged userId ≠ .reserved userId' now :=
    fun _ _ _ h => by cases h
  cases place with
  | reserve i c lastSequence =>
    simp only [statement, reserveStatement]
    split
    · trivial
    rename_i hlock
    split
    · rename_i hget
      exact .reserves i c lastSequence 0 hlock (by rw [hget]; rfl) (Or.inl rfl)
    · rename_i count hget
      split
      · rename_i hlt
        exact .reserves i c lastSequence count hlock (by rw [hget]; rfl) (Or.inr hlt)
      · rfl
  | daily i c lastSequence now =>
    simp only [statement, reserveStatement]
    split
    · rfl
    rename_i hle
    exact .passes i c lastSequence now (not_lt.1 hle)
  | insert | bump | watermark | announce =>
    simp only [statement, writeStatement]
    repeat' split
    all_goals first
      | trivial
      | exact .leaves (hne' _) rfl rfl
  | finish => exact ⟨rfl, Or.inr ⟨_, rfl⟩⟩
  | _ =>
    simp only [statement, checkStatement, reserveStatement, startStatement]
    repeat' split
    all_goals first
      | trivial
      | exact .leaves hne rfl rfl
      | exact ⟨rfl, Or.inl rfl⟩

theorem charges_goes_of_ne (h : ∀ userId now, place.stage ≠ .reserved userId now) :
    charges.goes env db p place record = record := by
  cases place with
  | daily => exact absurd rfl (h _ _)
  | _ => rfl

theorem passes_budget (hpos : 0 < config.perMinute)
    (hm : daily → CountedAt (db, record) p place) (hs : BudgetSound config daily (db, record))
    (hw : BudgetWork config daily (db, record) p place.stage)
    (hst : statement config env db p place = .goes db' place') :
    (budgetOutline config daily).Keeps (db, record) p place
        (db', charges.goes env db p place record) ∧
      BudgetWork config daily (db', charges.goes env db p place record) p place'.stage := by
  cases counts_statement.of_goes hst with
  | reserves i c lastSequence n hlock hn hlt =>
    rw [hw.1.get_eq] at hn
    refine ⟨keeps_write hs hlock rfl, reserved_write hw.1 (by rw [hn]) ?_ rfl, hw.2⟩
    rcases hlt with rfl | hlt
    · exact hpos
    · exact hlt
  | passes i c lastSequence now hle =>
    have hreserved : Reserved config db p i.senderUserId now := hw.1
    have hnone : record.pending p = [] := hw.2
    have halone : daily → ∀ key ∈ db.sendCounters.keys, key.1 = i.senderUserId →
        ¬(db.sendCounters.row key).Locked p := fun hdaily => (hm hdaily).1
    exact ⟨keeps_charge hs hreserved hnone halone,
      charged_charge hs hreserved hnone halone fun hdaily =>
        (accepted_lt_dailyTotal hs hreserved (hm hdaily).2).trans hle⟩
  | leaves hne hstage hctrs =>
    rw [charges_goes_of_ne hne, hstage]
    exact ⟨keeps_left hs hctrs rfl, work_left hw hctrs rfl⟩

/-- Each statement keeps the counters and the record. -/
theorem budgetProof (hpos : 0 < config.perMinute) (daily : Prop) :
    Proof (budgetService config) (budgetOutline config daily) where
  first := by
    intro db p request hw
    cases request with
    | _ => exact ⟨hw, fun _ _ h => h⟩
  goes := by
    rintro env ⟨db, record⟩ p place ⟨_, _⟩ place' hm hs hw hst
    obtain ⟨hst, hrec⟩ := Next.record_eq_goes hst
    cases hrec
    obtain ⟨hkeeps, hwork⟩ := passes_budget hpos hm hs hw hst
    exact ⟨hkeeps, hwork, fun _ _ h => h⟩
  locks := by
    rintro env ⟨db, record⟩ p place key mode place' _ _ hw hst
    have hstage := counts_statement.of_locks (Next.record_eq_locks hst)
    refine ⟨?_, fun _ _ h => h.elim⟩
    show BudgetWork config daily (db, record) p place'.stage
    rw [hstage]
    exact hw
  commits := by
    rintro env ⟨db, record⟩ p place place' _ hs hw hst
    obtain ⟨hstage', hstage⟩ := counts_statement.of_commits (Next.record_eq_commits hst)
    refine ⟨?_, ?_, fun _ _ h => h⟩
    · have hw : BudgetWork config daily (db, record) p place.stage := hw
      rcases hstage with hbef | ⟨_, hcharge⟩
      · rw [hbef] at hw
        exact keeps_commit_before hs hw
      · rw [hcharge] at hw
        exact keeps_commit_charged hs hw
    · show BudgetWork config daily (db.commit p, record.commit p) p place'.stage
      rw [hstage']
      exact before_commit
  throws := by
    rintro env ⟨db, record⟩ p place place' _ hs _ hst
    have hstage := counts_statement.of_throws (Next.record_eq_throws hst)
    refine ⟨keeps_rollback_budget hs, ?_, fun _ _ h => h⟩
    show BudgetWork config daily (db.rollback p, record.rollback p) p place'.stage
    rw [hstage]
    exact before_rollback
  dies := by
    rintro ⟨db, record⟩ p place _ hs _
    have hbef : BudgetWork config daily (db.rollback p, record.rollback p) p .before :=
      before_rollback
    exact ⟨keeps_rollback_budget hs, hbef, fun _ _ h => h⟩

/-! ## Every run -/

/-- Nothing has been counted. -/
def unspent (db : ChatDb) : BudgetDb := ({ db with sendCounters := .empty }, .empty)

theorem holds_unspent (hpos : 0 < config.perMinute) (db : ChatDb) :
    (budgetOutline config daily).Holds ((budgetService config).start (unspent db)) := by
  refine (budgetProof hpos daily).holds_start ⟨?_, ?_, ?_, ?_⟩ fun p => ?_
  · intro userId bucket
    rfl
  · intro key
    exact Nat.zero_le _
  · intro q c hc
    cases hc
  · intro _ userId last
    exact Nat.zero_le _
  · exact ⟨untouched_empty, rfl⟩

theorem minuteBound_of_sound {db : BudgetDb} (hs : BudgetSound config daily db) :
    MinuteBound config db.2 := by
  intro userId bucket
  rw [hs.count]
  exact hs.bound _

/-- Whoever sends whatever at the same time, the limit of a minute bounds the messages accepted in
it; and the limit of a day bounds those accepted in 24 hours, as long as each daily total has
counted every message that is accepted before its own. -/
theorem budget_bounds (config : ChatConfig) (hpositive : 0 < config.perMinute) (db : ChatDb)
    (es : List (Step ChatRequest ChatEnv)) :
    Throughout (budgetService config).step (fun s => MinuteBound config s.db.2)
        ((budgetService config).start (unspent db)) es ∧
      (Along (budgetService config).step Counted
          ((budgetService config).start (unspent db)) es →
        Throughout (budgetService config).step (fun s => DayBound config s.db.2)
          ((budgetService config).start (unspent db)) es) := by
  have hkeep : ∀ (daily : Prop) s e s', (budgetOutline config daily).Holds s →
      (budgetOutline config daily).Meets s e → (budgetService config).step s e = some s' →
      (budgetOutline config daily).Holds s' :=
    fun daily s e s' h hm hstep => ((budgetProof hpositive daily).holds_step h hm hstep).1
  constructor
  · refine throughout_of_along (fun s h => minuteBound_of_sound h.sound) (hkeep False)
      (holds_unspent hpositive db) ?_
    refine along_of_invariant (I := fun _ => True) (fun _ _ _ _ _ => trivial) ?_ trivial es
    rintro s ⟨pid, action⟩ -
    cases action with
    | statement => exact fun h => h.elim
    | start | die => trivial
  · intro hcnt
    have hmeets : Along (budgetService config).step (budgetOutline config True).Meets
        ((budgetService config).start (unspent db)) es := by
      refine hcnt.of_invariant (I := fun _ => True) (fun _ _ _ _ _ _ => trivial) ?_ trivial
      rintro s ⟨_, action⟩ - hm
      cases action with
      | statement => exact fun _ => hm
      | start | die => trivial
    exact throughout_of_along (fun s h => h.sound.day trivial) (hkeep True)
      (holds_unspent hpositive db) hmeets

/-! ## One message a day -/

instance (db : BudgetDb) (p : ℕ) : (place : ChatPlace) → Decidable (CountedAt db p place) := by
  rintro ⟨⟩ <;> (unfold CountedAt; infer_instance)

instance (s : System BudgetDb Uuid ChatPlace) (e : Step ChatRequest ChatEnv) :
    Decidable (Counted s e) :=
  match e with
  | ⟨_, .start _⟩ => isTrue trivial
  | ⟨pid, .statement _⟩ => inferInstanceAs (Decidable (CountedAt s.db pid (s.calls pid)))
  | ⟨_, .die⟩ => isTrue trivial

namespace OneADay

/-- One message a day. -/
def limits : ChatConfig where
  perDay := 1
  normalizeNfc := id
  trim := id

/-- A statement at a clock reading, where the customer is eligible. -/
def takes (pid n : ℕ) (now : Instant) : List (Step ChatRequest ChatEnv) :=
  List.replicate n ⟨pid, .statement ⟨now, pid, false, [2], false, some 0, true⟩⟩

/-- Two conversations of the first user, and a message about to be sent in each. -/
def begun : List (Step ChatRequest ChatEnv) :=
  [⟨0, .start (.startConversation ⟨1, "professional", 2⟩)⟩] ++ takes 0 5 0 ++
    [⟨3, .start (.startConversation ⟨1, "professional", 3⟩)⟩] ++ takes 3 5 0 ++
    [⟨1, .start (.sendMessage ⟨1, 0, "hello", none⟩)⟩,
      ⟨2, .start (.sendMessage ⟨1, 3, "hello", none⟩)⟩]

/-- One after the other: the second is refused. -/
def afterwards : List (Step ChatRequest ChatEnv) :=
  begun ++ takes 1 12 59999 ++ takes 2 7 60001

/-- Both have read the daily total before either ends, one in each of two minutes. -/
def twoMinutes : List (Step ChatRequest ChatEnv) :=
  begun ++ takes 1 7 59999 ++ takes 2 7 60001 ++ takes 1 5 59999 ++ takes 2 5 60001

end OneADay

theorem budget_bounds_afterwards :
    Throughout (budgetService OneADay.limits).step (fun s => MinuteBound OneADay.limits s.db.2)
        ((budgetService OneADay.limits).start (unspent .empty)) OneADay.afterwards ∧
      Throughout (budgetService OneADay.limits).step (fun s => DayBound OneADay.limits s.db.2)
        ((budgetService OneADay.limits).start (unspent .empty)) OneADay.afterwards := by
  obtain ⟨hminute, hday⟩ := budget_bounds OneADay.limits (by decide) .empty OneADay.afterwards
  exact ⟨hminute, hday (by decide +kernel)⟩

/-- Neither of the two sends counts the other. -/
theorem dayBound_twoMinutes_fails : ∃ s,
    runFrom (budgetService OneADay.limits).step
      ((budgetService OneADay.limits).start (unspent .empty)) OneADay.twoMinutes = some s ∧
      ¬DayBound OneADay.limits s.db.2 := by
  obtain ⟨s, hs, hcomm⟩ : ∃ s ∈ runFrom (budgetService OneADay.limits).step
      ((budgetService OneADay.limits).start (unspent .empty)) OneADay.twoMinutes,
        s.db.2.committed = [⟨1, 59999⟩, ⟨1, 60001⟩] := by
    decide +kernel
  refine ⟨s, hs, fun h => ?_⟩
  have hbound := h 1 60001
  rw [accepted, hcomm] at hbound
  exact absurd hbound (by decide)

end BeauClick.Chat
