import BeauClick.Commerce.Order

/-!
# When a conversation is old enough to be destroyed

`retentionCutoff` (`services/chat/src/chat-clock.ts`) and `ChatRetentionService.sweepOnce`
(`chat-retention.service.ts`).

* `sweepOnce_iff` — nothing is destroyed early and no later cutoff lies earlier, exactly when the
  day of the month on which the sweep runs does not run over the end of the month it counts back to.
-/

namespace BeauClick.Chat

/-! ## The calendar -/

/-- A leap year of the Gregorian calendar. -/
def leapYear (year : ℤ) : Bool := year % 4 = 0 ∧ (year % 100 ≠ 0 ∨ year % 400 = 0)

/-- The days of a month; months are counted from January of the year zero. -/
def monthLength (month : ℤ) : ℤ :=
  if month % 12 = 1 then if leapYear (month / 12) then 29 else 28
  else if month % 12 ∈ [3, 5, 8, 10] then 30 else 31

theorem monthLength_bounds (month : ℤ) : 28 ≤ monthLength month ∧ monthLength month ≤ 31 := by
  unfold monthLength
  split_ifs <;> omega

/-- An instant, by its fields in UTC; `time` is in microseconds of the day. -/
structure Moment where
  month : ℤ
  day : ℤ
  time : ℤ
  day_pos : 1 ≤ day
  day_le : day ≤ monthLength month
  time_nonneg : 0 ≤ time

namespace Moment

/-- Instants are compared by month, then day, then time. -/
instance : LT Moment where
  lt a b := a.month < b.month ∨
    a.month = b.month ∧ (a.day < b.day ∨ a.day = b.day ∧ a.time < b.time)

theorem lt_def {a b : Moment} : a < b ↔ a.month < b.month ∨
    a.month = b.month ∧ (a.day < b.day ∨ a.day = b.day ∧ a.time < b.time) := Iff.rfl

instance (a b : Moment) : Decidable (a < b) := decidable_of_iff _ lt_def.symm

instance : LE Moment where
  le a b := ¬b < a

/-- `setUTCMonth`: days that the month does not have run on into the next one. -/
def setUTCMonth (t : Moment) (month : ℤ) : Moment :=
  if h : t.day ≤ monthLength month then ⟨month, t.day, t.time, t.day_pos, h, t.time_nonneg⟩
  else
    { month := month + 1
      day := t.day - monthLength month
      time := t.time
      day_pos := by omega
      day_le := by
        have := t.day_le
        have := monthLength_bounds month
        have := monthLength_bounds (month + 1)
        have := monthLength_bounds t.month
        omega
      time_nonneg := t.time_nonneg }

/-- So many calendar months after an instant: on a day that the month does not have, its last. -/
def addMonths (t : Moment) (months : ℕ) : Moment where
  month := t.month + months
  day := min t.day (monthLength (t.month + months))
  time := t.time
  day_pos := le_min t.day_pos (by have := monthLength_bounds (t.month + months); omega)
  day_le := min_le_right ..
  time_nonneg := t.time_nonneg

end Moment

/-! ## The sweep -/

/-- Messages before it are purged. -/
def retentionCutoff (now : Moment) (retentionMonths : ℕ) : Moment :=
  now.setUTCMonth (now.month - retentionMonths)

/-- What the sweep reads of a row of `chat.conversations`. -/
structure RetainedConversation where
  id : Uuid
  lastMessageAt : Option Moment
  createdAt : Moment

/-- `COALESCE(last_message_at, created_at)`. -/
def RetainedConversation.lastActivity (c : RetainedConversation) : Moment :=
  c.lastMessageAt.getD c.createdAt

/-- `retentionMonths` and `batchSize`; whatever is configured, a batch is not empty. -/
structure RetentionConfig where
  retentionMonths : ℕ := 24
  batchSize : ℕ := 500
  batchSize_pos : 0 < batchSize := by decide

/-- `sweepOnce`: the conversations that are destroyed.  Rows that others have locked are skipped. -/
def sweepOnce (config : RetentionConfig) (now : Moment) (locked : Uuid → Bool)
    (conversations : List RetainedConversation) : List RetainedConversation :=
  let cutoff := retentionCutoff now config.retentionMonths
  let expired := conversations.filter fun c => c.lastActivity < cutoff ∧ !locked c.id
  (expired.mergeSort fun a b => ¬b.lastActivity < a.lastActivity).take config.batchSize

theorem lt_cutoff_of_mem {config : RetentionConfig} {now : Moment} {locked : Uuid → Bool}
    {conversations : List RetainedConversation} {c : RetainedConversation}
    (hc : c ∈ sweepOnce config now locked conversations) :
    c.lastActivity < retentionCutoff now config.retentionMonths := by
  have hexp := List.mem_mergeSort.1 (List.mem_of_mem_take hc)
  simp only [List.mem_filter, decide_eq_true_eq] at hexp
  exact hexp.2.1

/-- The day does not run over the end of the month that the sweep counts back to: at most to the
midnight at which that month ends. -/
def Moment.FitsBack (now : Moment) (months : ℕ) : Prop :=
  now.day ≤ monthLength (now.month - months) ∨
    now.day = monthLength (now.month - months) + 1 ∧ now.time = 0

theorem retentionCutoff_sound {now : Moment} {months : ℕ} (h : now.FitsBack months) :
    (∀ t, t < retentionCutoff now months → t.addMonths months ≤ now) ∧
      ∀ later, now ≤ later → retentionCutoff now months ≤ retentionCutoff later months := by
  constructor
  · intro t ht
    have hday := t.day_le
    have hfirst := t.day_pos
    have htime := t.time_nonneg
    have hmonth : t.month = now.month - months →
        monthLength t.month = monthLength (now.month - months) := congrArg monthLength
    unfold retentionCutoff Moment.setUTCMonth at ht
    show ¬_ < _
    rw [Moment.lt_def, Moment.addMonths]
    split at ht
    · rw [Moment.lt_def] at ht
      dsimp only at ht ⊢
      omega
    · -- the cutoff is the midnight at which the month ends
      obtain ⟨_, _⟩ := h.resolve_left ‹_›
      rw [Moment.lt_def] at ht
      dsimp only at ht ⊢
      omega
  · intro later hlater
    have hfirst := later.day_pos
    have htime := later.time_nonneg
    have hmonth : later.month = now.month →
        monthLength (later.month - months) = monthLength (now.month - months) := fun h => by rw [h]
    change ¬_ < _ at hlater
    show ¬_ < _
    unfold Moment.FitsBack at h
    unfold retentionCutoff Moment.setUTCMonth
    rw [Moment.lt_def] at *
    split_ifs <;> dsimp only <;> omega

/-- The conversations destroyed are old enough, and no later sweep uses an earlier cutoff, exactly
when the day of the sweep fits the month that it counts back to. -/
theorem sweepOnce_iff (config : RetentionConfig) (now : Moment) :
    ((∀ locked conversations, ∀ c ∈ sweepOnce config now locked conversations,
        c.lastActivity.addMonths config.retentionMonths ≤ now) ∧
      ∀ later, now ≤ later →
        retentionCutoff now config.retentionMonths ≤ retentionCutoff later config.retentionMonths) ↔
      now.FitsBack config.retentionMonths := by
  refine ⟨fun ⟨hold, _⟩ => ?_, fun h => ?_⟩
  · by_contra hnot
    have hfirst := monthLength_bounds (now.month - config.retentionMonths + 1)
    have htime := now.time_nonneg
    unfold Moment.FitsBack at hnot
    -- a conversation whose last activity was when the next month began
    let first : Moment := ⟨now.month - config.retentionMonths + 1, 1, 0, le_rfl, by omega, le_rfl⟩
    have hlt : first < retentionCutoff now config.retentionMonths := by
      rw [retentionCutoff, Moment.setUTCMonth, dif_neg (by omega), Moment.lt_def]
      dsimp only [first]
      omega
    refine hold (fun _ => false) [⟨1, none, first⟩] ⟨1, none, first⟩ ?_ ?_
    · simp [sweepOnce, RetainedConversation.lastActivity, hlt, List.take_of_length_le,
        Nat.one_le_iff_ne_zero.2 config.batchSize_pos.ne']
    · rw [Moment.lt_def]
      dsimp only [RetainedConversation.lastActivity, Option.getD, Moment.addMonths, first]
      omega
  · obtain ⟨hold, hlater⟩ := retentionCutoff_sound h
    exact ⟨fun _ _ _ hc => hold _ (lt_cutoff_of_mem hc), hlater⟩

/-- A sweep at noon of a leap day destroys a conversation that is old enough the morning after. -/
theorem destroyed_on_leap_day : ¬∀ config now locked conversations,
    ∀ c ∈ sweepOnce config now locked conversations,
      c.lastActivity.addMonths config.retentionMonths ≤ now := by
  intro h
  -- noon of 29 February 2028, and six in the morning of 1 March 2026
  let noon : Moment := ⟨2028 * 12 + 1, 29, 43200000000, by decide, by decide, by decide⟩
  let morning : Moment := ⟨2026 * 12 + 2, 1, 21600000000, by decide, by decide, by decide⟩
  have hlt : morning < retentionCutoff noon 24 := by decide
  refine h {} noon (fun _ => false) [⟨1, some morning, morning⟩] ⟨1, some morning, morning⟩ ?_
    (by decide)
  simp [sweepOnce, RetainedConversation.lastActivity, hlt]

end BeauClick.Chat
