import BeauClick.Identity.Otp

/-!
# Lockout and single use of a one-time code

A wrong guess is compared before it is subtracted, and the row does not show it in between.
A code lets one call through whatever the order of the calls.
-/

namespace BeauClick.Identity

open Runs Transactions OtpDb List Option
open Function (update update_self update_of_ne)

/-- No code is guessed more often than it was issued for, lets a guess through that was submitted
when it was exhausted or expired, or lets two through; and no row counts below zero. -/
structure Guarded (cfg : OtpConfig) (s : System OtpDb Unit OtpPlace) : Prop where
  compared : ∀ id, s.db.compared id ≤ cfg.maxAttempts
  refused : ∀ pid sub id, s.calls pid = .verified sub (.ok id) →
    id ∉ sub.exhausted ∧ ∀ r, s.db.codes.row id = some r → sub.submittedAt ≤ r.expiresAt
  once : ∀ id, (s.db.accepted id).length ≤ 1
  nonneg : ∀ id r, s.db.codes.row id = some r → 0 ≤ r.attemptsRemaining

/-- The guesses that a row shows as left are more than the wrong ones in flight. -/
def Left (db : OtpDb) (r : OtpRequest) : Prop :=
  ((db.pending r.id).length : ℤ) < r.attemptsRemaining

/-- A call reads a row that shows no guess left, or more than are in flight; and it compares a
wrong guess only while the row shows more than are in flight. -/
def InTurn (cfg : OtpConfig) (env : OtpEnv) (db : OtpDb) : OtpPlace → Prop
  | .looking sub => ∀ r, db.findOne sub.guess.phone sub.guess.purpose = some r →
      r.attemptsRemaining ≤ 0 ∨ Left db r
  | .comparing sub candidate => ∀ id, compare cfg candidate sub.guess env.now = .wrong id →
      ∀ r, db.codes.row id = some r → Left db r
  | _ => True

instance (db : OtpDb) (r : OtpRequest) : Decidable (Left db r) :=
  inferInstanceAs (Decidable (_ < _))

instance (cfg : OtpConfig) (env : OtpEnv) (db : OtpDb) :
    (place : OtpPlace) → Decidable (InTurn cfg env db place)
  | .looking sub =>
    match h : db.findOne sub.guess.phone sub.guess.purpose with
    | none => isTrue fun r hr => by rw [h] at hr; cases hr
    | some r => decidable_of_iff (r.attemptsRemaining ≤ 0 ∨ Left db r) (by simp [InTurn, h])
  | .comparing sub candidate =>
    match h : compare cfg candidate sub.guess env.now with
    | .wrong id =>
      match hr : db.codes.row id with
      | none => isTrue (by simp [InTurn, h, hr])
      | some r => decidable_of_iff (Left db r) (by simp [InTurn, h, hr])
    | .right _ | .refused _ => isTrue fun _ hid => by rw [h] at hid; cases hid
  | .idle | .counting _ | .saving _ | .issued | .limited _ | .arriving _ | .decrementing _ _
  | .consuming _ _ | .verified _ _ | .failed => isTrue trivial

/-! ## What holds of the codes -/

/-- What holds of the table, whatever the calls do. -/
structure OtpRows (db : OtpDb) : Prop where
  ids : ∀ id r, db.codes.row id = some r → r.id = id
  unused : ∀ id, db.codes.row id = none → db.accepted id = []
  once : ∀ id, (db.accepted id).length ≤ 1
  consumed : ∀ id r, db.codes.row id = some r → r.consumedAt = none → db.accepted id = []

/-- What holds of it when the calls are in turn: a row shows what is left, and the guesses in
flight. -/
structure OtpSound (cfg : OtpConfig) (db : OtpDb) : Prop extends OtpRows db where
  fresh : ∀ id, db.codes.row id = none → db.compared id = 0 ∧ db.pending id = []
  balance : ∀ id r, db.codes.row id = some r →
    r.attemptsRemaining + db.compared id = cfg.maxAttempts + (db.pending id).length
  within : ∀ id r, db.codes.row id = some r → ((db.pending id).length : ℤ) ≤ r.attemptsRemaining

/-- Rows stay, with their expiry; guesses are used up. -/
structure OtpProgress (db db' : OtpDb) : Prop where
  rows : ∀ id r, db.codes.row id = some r → ∃ r', db'.codes.row id = some r' ∧
    r'.expiresAt = r.expiresAt ∧ r'.attemptsRemaining ≤ r.attemptsRemaining
  compared : ∀ id, db.compared id ≤ db'.compared id

/-- A code that was neither exhausted nor expired when the guess was submitted. -/
def Timely (db : OtpDb) (sub : Submission) (id : Uuid) : Prop :=
  id ∉ sub.exhausted ∧ ∃ r, db.codes.row id = some r ∧ sub.submittedAt ≤ r.expiresAt

/-- What a call has read and written, place by place. -/
def OtpWork (cfg : OtpConfig) (db : OtpDb) (pid : ℕ) : OtpPlace → Prop
  | .looking sub => ∀ id ∈ sub.exhausted, OtpDb.Exhausted cfg db id
  | .comparing sub candidate => ∀ r, candidate = some r →
      (r.id ∈ sub.exhausted → r.attemptsRemaining ≤ 0) ∧
        ∃ r', db.codes.row r.id = some r' ∧ r'.expiresAt = r.expiresAt
  | .decrementing _ id => pid ∈ db.pending id ∧ ∃ r, db.codes.row id = some r
  | .consuming sub id => Timely db sub id
  | .verified sub (.ok id) => Timely db sub id
  | _ => True

variable {cfg : OtpConfig} {env : OtpEnv} {db db' db'' : OtpDb} {pid : ℕ} {id id' : Uuid}
  {place place' : OtpPlace} {sub : Submission} {r : OtpRequest} {now : Instant}
  {candidate : Option OtpRequest}

theorem OtpProgress.refl (db : OtpDb) : OtpProgress db db :=
  ⟨fun _ r h => ⟨r, h, rfl, le_rfl⟩, fun _ => le_rfl⟩

section

variable (h : OtpProgress db db')
include h

theorem OtpProgress.trans (h' : OtpProgress db' db'') :
    OtpProgress db db'' := by
  refine ⟨?_, fun id => (h.compared id).trans (h'.compared id)⟩
  intro id r hr
  obtain ⟨r', hr', hexp, hle⟩ := h.rows id r hr
  obtain ⟨r'', hr'', hexp', hle'⟩ := h'.rows id r' hr'
  exact ⟨r'', hr'', hexp'.trans hexp, hle'.trans hle⟩

theorem OtpProgress.exhausted (he : OtpDb.Exhausted cfg db id) :
    OtpDb.Exhausted cfg db' id := by
  rcases he with hle | ⟨r, hr, hle⟩
  · exact Or.inl (hle.trans (h.compared id))
  · obtain ⟨r', hr', -, hle'⟩ := h.rows id r hr
    exact Or.inr ⟨r', hr', hle'.trans hle⟩

theorem OtpProgress.timely (ht : Timely db sub id) :
    Timely db' sub id := by
  obtain ⟨hnot, r, hr, hle⟩ := ht
  obtain ⟨r', hr', hexp, -⟩ := h.rows id r hr
  exact ⟨hnot, r', hr', hexp ▸ hle⟩

theorem OtpProgress.work
    (hp : ∀ id, pid ∈ db.pending id → pid ∈ db'.pending id) (hw : OtpWork cfg db pid place) :
    OtpWork cfg db' pid place := by
  cases place with
  | looking => exact fun id hid => h.exhausted (hw id hid)
  | comparing =>
    intro r hr
    obtain ⟨hle, r', hr', hexp⟩ := hw r hr
    obtain ⟨r'', hr'', hexp', -⟩ := h.rows _ r' hr'
    exact ⟨hle, r'', hr'', hexp'.trans hexp⟩
  | decrementing sub id =>
    obtain ⟨hmem, r, hr⟩ := hw
    obtain ⟨r', hr', -⟩ := h.rows id r hr
    exact ⟨hp id hmem, r', hr'⟩
  | consuming => exact h.timely hw
  | verified sub result =>
    cases result with
    | ok => exact h.timely hw
    | invalidOrExpired | tooManyAttempts => trivial
  | idle | counting | saving | issued | limited | arriving | failed => trivial

end

/-! ## The writes -/

theorem row_insertRow :
    (db.insertRow r).codes.row id' = if id' = r.id then some r else db.codes.row id' := by
  by_cases h : id' = r.id
  · rw [if_pos h, h]
    exact Keyed.row_set_self
  · rw [if_neg h]
    exact Keyed.row_set_of_ne h

theorem row_subtractWrong : (db.subtractWrong id pid).codes.row id' =
    if id' = id then (db.codes.row id).map OtpDb.decrementRow else db.codes.row id' := by
  by_cases h : id' = id
  · rw [if_pos h, h]
    exact Keyed.row_updateRow_self
  · rw [if_neg h]
    exact Keyed.row_updateRow_of_ne h

theorem row_accept : (db.accept id pid now).codes.row id' =
    if id' = id then (db.codes.row id).map (fun r => { r with consumedAt := some now })
    else db.codes.row id' := by
  by_cases h : id' = id
  · rw [if_pos h, h]
    exact Keyed.row_updateRow_self
  · rw [if_neg h]
    exact Keyed.row_updateRow_of_ne h

theorem progress_insertRow (h : db.codes.row r.id = none) : OtpProgress db (db.insertRow r) := by
  refine ⟨?_, fun _ => le_rfl⟩
  intro id r' hr'
  refine ⟨r', ?_, rfl, le_rfl⟩
  rw [row_insertRow, if_neg]
  · exact hr'
  · rintro rfl
    rw [h] at hr'
    cases hr'

theorem progress_recordWrong : OtpProgress db (db.recordWrong id pid) := by
  refine ⟨fun _ r hr => ⟨r, hr, rfl, le_rfl⟩, ?_⟩
  intro id'
  by_cases h : id' = id
  · subst h
    simp [recordWrong]
  · simp [recordWrong, h]

theorem progress_subtractWrong : OtpProgress db (db.subtractWrong id pid) := by
  refine ⟨?_, fun _ => le_rfl⟩
  intro id' r hr
  rw [row_subtractWrong]
  by_cases h : id' = id
  · subst h
    rw [if_pos rfl, hr]
    exact ⟨_, rfl, rfl, by simp [decrementRow]⟩
  · rw [if_neg h]
    exact ⟨r, hr, rfl, le_rfl⟩

theorem progress_accept : OtpProgress db (db.accept id pid now) := by
  refine ⟨?_, fun _ => le_rfl⟩
  intro id' r hr
  rw [row_accept]
  by_cases h : id' = id
  · subst h
    rw [if_pos rfl, hr]
    exact ⟨_, rfl, rfl, le_rfl⟩
  · rw [if_neg h]
    exact ⟨r, hr, rfl, le_rfl⟩

/-! ## What the writes keep -/

theorem OtpRows.insertRow (h : OtpRows db) (hfree : db.codes.row r.id = none) :
    OtpRows (db.insertRow r) := by
  refine ⟨?_, ?_, h.once, ?_⟩
  · intro id' r' hr'
    rw [row_insertRow] at hr'
    split at hr'
    · rename_i heq
      cases hr'
      exact heq.symm
    · exact h.ids id' r' hr'
  · intro id' hnone
    rw [row_insertRow] at hnone
    split at hnone
    · cases hnone
    exact h.unused id' hnone
  · intro id' r' hr' hcons
    rw [row_insertRow] at hr'
    split at hr'
    · rename_i heq
      rw [heq]
      exact h.unused r.id hfree
    · exact h.consumed id' r' hr' hcons

theorem OtpRows.subtractWrong (h : OtpRows db) : OtpRows (db.subtractWrong id pid) := by
  refine ⟨?_, ?_, h.once, ?_⟩
  · intro id' r' hr'
    rw [row_subtractWrong] at hr'
    split at hr'
    · rename_i heq
      obtain ⟨r, hr, rfl⟩ := map_eq_some_iff.1 hr'
      exact heq ▸ h.ids id r hr
    · exact h.ids id' r' hr'
  · intro id' hnone
    rw [row_subtractWrong] at hnone
    split at hnone
    · rename_i heq
      exact heq ▸ h.unused id (map_eq_none_iff.1 hnone)
    · exact h.unused id' hnone
  · intro id' r' hr' hcons
    rw [row_subtractWrong] at hr'
    split at hr'
    · rename_i heq
      obtain ⟨r, hr, rfl⟩ := map_eq_some_iff.1 hr'
      exact heq ▸ h.consumed id r hr hcons
    · exact h.consumed id' r' hr' hcons

theorem OtpRows.accept (h : OtpRows db) (hr : db.codes.row id = some r)
    (hcons : r.consumedAt = none) : OtpRows (db.accept id pid now) := by
  have hnone : db.accepted id = [] := h.consumed id r hr hcons
  refine ⟨?_, ?_, ?_, ?_⟩
  · intro id' r' hr'
    rw [row_accept] at hr'
    split at hr'
    · rename_i heq
      obtain ⟨r, hr, rfl⟩ := map_eq_some_iff.1 hr'
      exact heq ▸ h.ids id r hr
    · exact h.ids id' r' hr'
  · intro id' hnone'
    rw [row_accept] at hnone'
    split at hnone'
    · rw [hr] at hnone'
      cases hnone'
    · rename_i hne
      show update db.accepted id (pid :: db.accepted id) id' = []
      rw [update_of_ne hne]
      exact h.unused id' hnone'
  · intro id'
    show (update db.accepted id (pid :: db.accepted id) id').length ≤ 1
    by_cases hid : id' = id
    · rw [hid, update_self, hnone]
      exact le_rfl
    · rw [update_of_ne hid]
      exact h.once id'
  · intro id' r' hr' hcons'
    rw [row_accept] at hr'
    split at hr'
    · obtain ⟨_, -, rfl⟩ := map_eq_some_iff.1 hr'
      cases hcons'
    · rename_i hne
      show update db.accepted id (pid :: db.accepted id) id' = []
      rw [update_of_ne hne]
      exact h.consumed id' r' hr' hcons'

section

variable (h : OtpSound cfg db)
include h

theorem OtpSound.insertRow (hfree : db.codes.row r.id = none)
    (hatts : r.attemptsRemaining = cfg.maxAttempts) : OtpSound cfg (db.insertRow r) := by
  obtain ⟨hcompared, hpend⟩ := h.fresh r.id hfree
  refine ⟨h.toOtpRows.insertRow hfree, ?_, ?_, ?_⟩
  · intro id' hnone
    rw [row_insertRow] at hnone
    split at hnone
    · cases hnone
    exact h.fresh id' hnone
  · intro id' r' hr'
    rw [row_insertRow] at hr'
    split at hr'
    · rename_i heq
      cases hr'
      simp [OtpDb.insertRow, heq, hatts, hcompared, hpend]
    · exact h.balance id' r' hr'
  · intro id' r' hr'
    rw [row_insertRow] at hr'
    split at hr'
    · rename_i heq
      cases hr'
      simp [OtpDb.insertRow, heq, hatts, hpend]
    · exact h.within id' r' hr'

theorem OtpSound.recordWrong (hr : db.codes.row id = some r)
    (hleft : Left db r) : OtpSound cfg (db.recordWrong id pid) := by
  have hid : r.id = id := h.ids id r hr
  rw [Left, hid] at hleft
  refine ⟨⟨h.ids, h.unused, h.once, h.consumed⟩, ?_, ?_, ?_⟩
  · intro id' hnone
    have hne : id' ≠ id := by
      rintro rfl
      exact absurd (hr.symm.trans hnone) (by simp)
    simp only [OtpDb.recordWrong, update_of_ne hne]
    exact h.fresh id' hnone
  · intro id' r' hr'
    have hbal := h.balance id' r' hr'
    by_cases hid' : id' = id
    · subst hid'
      simp only [OtpDb.recordWrong, update_self, length_cons]
      omega
    · simpa only [OtpDb.recordWrong, update_of_ne hid'] using hbal
  · intro id' r' hr'
    by_cases hid' : id' = id
    · subst hid'
      cases hr.symm.trans hr'
      simp only [OtpDb.recordWrong, update_self, length_cons]
      omega
    · simpa only [OtpDb.recordWrong, update_of_ne hid'] using h.within id' r' hr'

theorem OtpSound.subtractWrong (hmem : pid ∈ db.pending id) :
    OtpSound cfg (db.subtractWrong id pid) := by
  have hpos : 0 < (db.pending id).length := length_pos_of_mem hmem
  have hlen : ((db.pending id).erase pid).length = (db.pending id).length - 1 :=
    length_erase_of_mem hmem
  refine ⟨h.toOtpRows.subtractWrong, ?_, ?_, ?_⟩
  · intro id' hnone
    rw [row_subtractWrong] at hnone
    split at hnone
    · rename_i heq
      rw [(h.fresh id (map_eq_none_iff.1 hnone)).2] at hmem
      cases hmem
    · rename_i hne
      simp only [OtpDb.subtractWrong, update_of_ne hne]
      exact h.fresh id' hnone
  · intro id' r' hr'
    rw [row_subtractWrong] at hr'
    split at hr'
    · rename_i heq
      subst heq
      obtain ⟨r, hr, rfl⟩ := map_eq_some_iff.1 hr'
      have hbal := h.balance id' r hr
      simp only [OtpDb.subtractWrong, OtpDb.decrementRow, update_self, hlen]
      omega
    · rename_i hne
      simpa only [OtpDb.subtractWrong, update_of_ne hne] using h.balance id' r' hr'
  · intro id' r' hr'
    rw [row_subtractWrong] at hr'
    split at hr'
    · rename_i heq
      subst heq
      obtain ⟨r, hr, rfl⟩ := map_eq_some_iff.1 hr'
      have hwithin := h.within id' r hr
      simp only [OtpDb.subtractWrong, OtpDb.decrementRow, update_self, hlen]
      omega
    · rename_i hne
      simpa only [OtpDb.subtractWrong, update_of_ne hne] using h.within id' r' hr'

theorem OtpSound.accept (hr : db.codes.row id = some r)
    (hcons : r.consumedAt = none) : OtpSound cfg (db.accept id pid now) := by
  refine ⟨h.toOtpRows.accept hr hcons, ?_, ?_, ?_⟩
  · intro id' hnone
    rw [row_accept] at hnone
    split at hnone
    · rw [hr] at hnone
      cases hnone
    · exact h.fresh id' hnone
  · intro id' r' hr'
    rw [row_accept] at hr'
    split at hr'
    · rename_i heq
      obtain ⟨r, hr, rfl⟩ := map_eq_some_iff.1 hr'
      exact heq ▸ h.balance id r hr
    · exact h.balance id' r' hr'
  · intro id' r' hr'
    rw [row_accept] at hr'
    split at hr'
    · rename_i heq
      obtain ⟨r, hr, rfl⟩ := map_eq_some_iff.1 hr'
      exact heq ▸ h.within id r hr
    · exact h.within id' r' hr'

end

/-! ## The statements -/

/-- The calls on the codes, in turn. -/
def otpOutline (cfg : OtpConfig) : Outline OtpDb Unit OtpPlace OtpEnv where
  Assumes := fun env db _ place => InTurn cfg env db place
  Sound := OtpSound cfg
  Guarantee := OtpProgress
  Work := OtpWork cfg
  holds := fun _ _ _ => False

theorem otpKeeps (hsound : OtpSound cfg db') (hprog : OtpProgress db db')
    (hpend : ∀ q id, q ≠ pid → q ∈ db.pending id → q ∈ db'.pending id) :
    (otpOutline cfg).Keeps db pid place db' :=
  ⟨hsound, hprog, fun q _ hq _ hw => hprog.work (fun id => hpend q id hq) hw⟩

theorem otpKeeps_refl (hsound : OtpSound cfg db) : (otpOutline cfg).Keeps db pid place db :=
  otpKeeps hsound (OtpProgress.refl db) fun _ _ _ h => h

theorem row_findOne {phone : String} {purpose : OtpPurpose} (hrows : OtpRows db)
    (h : db.findOne phone purpose = some r) : db.codes.row r.id = some r := by
  have hmem : r ∈ db.codes.rows := by
    unfold findOne at h
    split at h
    · cases h
    rename_i r₀ rs hfilter
    cases h
    have hfold : ∀ (l : List OtpRequest) (a : OtpRequest), l.foldl later a ∈ a :: l := by
      intro l
      induction l with
      | nil => exact fun a => mem_singleton_self a
      | cons b l ih =>
        intro a
        have hlater : later a b = a ∨ later a b = b := by
          unfold later
          split
          · exact Or.inr rfl
          · exact Or.inl rfl
        rcases mem_cons.1 (ih (later a b)) with heq | hmem
        · rw [foldl_cons, heq]
          rcases hlater with h | h
          · rw [h]
            exact mem_cons_self
          · rw [h]
            exact mem_cons_of_mem _ mem_cons_self
        · exact mem_cons_of_mem _ (mem_cons_of_mem _ hmem)
    have hmem := hfold rs r₀
    rw [← hfilter] at hmem
    exact (mem_filter.1 hmem).1
  obtain ⟨id, hid⟩ := Keyed.mem_rows.1 hmem
  rwa [hrows.ids id r hid]

theorem compare_right {guess : OtpGuess} (h : compare cfg candidate guess now = .right id) :
    ∃ r, candidate = some r ∧ r.id = id ∧ now ≤ r.expiresAt ∧ 0 < r.attemptsRemaining := by
  unfold compare at h
  split at h
  · cases h
  rename_i r
  split_ifs at h with hlive hsession hatts hmatch
  obtain rfl := Comparison.right.inj h
  rw [not_or, not_lt] at hlive
  exact ⟨r, rfl, rfl, hlive.2, not_le.1 hatts⟩

theorem compare_wrong {guess : OtpGuess} (h : compare cfg candidate guess now = .wrong id) :
    ∃ r, candidate = some r ∧ r.id = id := by
  unfold compare at h
  split at h
  · cases h
  rename_i r
  split_ifs at h with hlive hsession hatts hmatch
  exact ⟨r, rfl, Comparison.wrong.inj h⟩

section

variable (hsound : OtpSound cfg db)
include hsound

theorem work_findOne (hw : OtpWork cfg db pid (.looking sub))
    (hturn : InTurn cfg env db (.looking sub)) :
    OtpWork cfg db pid (.comparing sub (db.findOne sub.guess.phone sub.guess.purpose)) := by
  intro r hr
  have hrow := row_findOne hsound.toOtpRows hr
  refine ⟨?_, r, hrow, rfl⟩
  intro hmem
  rcases hw r.id hmem with hle | ⟨_, hr', hle⟩
  · have hbal := hsound.balance r.id r hrow
    rcases hturn r hr with hnone | hleft
    · exact hnone
    · unfold Left at hleft
      omega
  · cases hrow.symm.trans hr'
    exact hle

theorem keeps_compareCandidate (hw : OtpWork cfg db pid (.comparing sub candidate))
    (hturn : InTurn cfg env db (.comparing sub candidate))
    (h : compareCandidate cfg env db pid sub candidate = .goes db' place') :
    (otpOutline cfg).Keeps db pid place db' ∧ OtpWork cfg db' pid place' := by
  unfold compareCandidate at h
  split at h
  · cases h
  rename_i hclock
  split at h
  · rename_i result hres
    cases h
    refine ⟨otpKeeps_refl hsound, ?_⟩
    -- a refusal is not an acceptance
    cases result with
    | ok =>
      unfold compare at hres
      split at hres
      · cases hres
      split_ifs at hres <;> cases hres
    | invalidOrExpired | tooManyAttempts => trivial
  · rename_i id hwrong
    cases h
    obtain ⟨r, hr, hid⟩ := compare_wrong hwrong
    obtain ⟨-, r', hr', -⟩ := hw r hr
    rw [hid] at hr'
    have hrec : OtpSound cfg (db.recordWrong id pid) :=
      hsound.recordWrong hr' (hturn id hwrong r' hr')
    refine ⟨otpKeeps hrec progress_recordWrong ?_, ?_⟩
    · intro q id' _ hq
      by_cases h : id' = id
      · subst h
        simp [recordWrong, hq]
      · simpa [recordWrong, h] using hq
    · exact ⟨by simp [recordWrong], r', hr'⟩
  · rename_i id hright
    cases h
    obtain ⟨r, hr, hid, hexpires, hpos⟩ := compare_right hright
    obtain ⟨hle, r', hr', hexp⟩ := hw r hr
    rw [hid] at hle hr'
    refine ⟨otpKeeps_refl hsound, ?_, r', hr', ?_⟩
    · exact fun hmem => absurd (hle hmem) (not_le.2 hpos)
    · rw [hexp]
      exact (not_lt.1 hclock).trans hexpires

theorem keeps_consume (hw : OtpWork cfg db pid (.consuming sub id))
    (h : consume env db pid sub id = .goes db' place') :
    (otpOutline cfg).Keeps db pid place db' ∧ OtpWork cfg db' pid place' := by
  unfold consume at h
  split at h
  · cases h
    exact ⟨otpKeeps_refl hsound, trivial⟩
  · rename_i r hr
    split_ifs at h with hcons
    · cases h
      exact ⟨otpKeeps_refl hsound, trivial⟩
    · cases h
      rw [not_not] at hcons
      exact ⟨otpKeeps (hsound.accept hr hcons) progress_accept fun _ _ _ hq => hq,
        progress_accept.timely hw⟩

theorem keeps_otpStatement (hw : OtpWork cfg db pid place)
    (hturn : InTurn cfg env db place) (h : otpStatement cfg env db pid place = .goes db' place') :
    (otpOutline cfg).Keeps db pid place db' ∧ OtpWork cfg db' pid place' := by
  cases place with
  | counting =>
    simp only [otpStatement] at h
    split at h
    · cases h
      exact ⟨otpKeeps_refl hsound, trivial⟩
    · cases h
      exact ⟨otpKeeps_refl hsound, trivial⟩
  | saving =>
    simp only [otpStatement, save] at h
    split at h
    · cases h
    rename_i hfree
    cases h
    exact ⟨otpKeeps (hsound.insertRow hfree rfl) (progress_insertRow hfree) fun _ _ _ hq => hq,
      trivial⟩
  | arriving =>
    cases h
    refine ⟨otpKeeps_refl hsound, ?_⟩
    intro id hid
    simpa using (mem_filter.1 hid).2
  | looking =>
    cases h
    exact ⟨otpKeeps_refl hsound, work_findOne hsound hw hturn⟩
  | comparing => exact keeps_compareCandidate hsound hw hturn h
  | decrementing sub id =>
    cases h
    refine ⟨otpKeeps (hsound.subtractWrong hw.1) progress_subtractWrong ?_, trivial⟩
    intro q id' hq hmem
    by_cases hid : id' = id
    · subst hid
      simp only [subtractWrong, update_self]
      exact (mem_erase_of_ne hq).2 hmem
    · simpa only [subtractWrong, update_of_ne hid] using hmem
  | consuming => exact keeps_consume hsound hw h
  | idle | issued | limited | verified | failed => cases h

end

theorem otpStatement_goes :
    otpStatement cfg env db pid place = .waits ∨
      ∃ db' place', otpStatement cfg env db pid place = .goes db' place' := by
  unfold otpStatement
  split
  · split
    · exact Or.inr ⟨_, _, rfl⟩
    · exact Or.inr ⟨_, _, rfl⟩
  · unfold save
    split
    · exact Or.inl rfl
    · exact Or.inr ⟨_, _, rfl⟩
  · exact Or.inr ⟨_, _, rfl⟩
  · exact Or.inr ⟨_, _, rfl⟩
  · unfold compareCandidate
    split
    · exact Or.inl rfl
    · split
      · exact Or.inr ⟨_, _, rfl⟩
      · exact Or.inr ⟨_, _, rfl⟩
      · exact Or.inr ⟨_, _, rfl⟩
  · exact Or.inr ⟨_, _, rfl⟩
  · unfold consume
    split
    · exact Or.inr ⟨_, _, rfl⟩
    · split
      · exact Or.inr ⟨_, _, rfl⟩
      · exact Or.inr ⟨_, _, rfl⟩
  · exact Or.inl rfl

/-- Each statement keeps the guesses. -/
theorem otpProof (cfg : OtpConfig) : FreeProof (otpService cfg) (otpOutline cfg) where
  refl := OtpProgress.refl
  trans := fun _ _ _ => OtpProgress.trans
  first := by
    intro db pid request _
    cases request <;> trivial
  statement := by
    intro env db pid place hturn hsound hw
    show (otpStatement cfg env db pid place).Meets _ _ _ _
    rcases otpStatement_goes with h | ⟨_, _, h⟩
    · rw [h]
      trivial
    · obtain ⟨hkeeps, hw'⟩ := keeps_otpStatement hsound hw hturn h
      rw [h]
      exact ⟨hkeeps, hw'⟩
  dies := fun _ _ _ _ hsound _ => ⟨otpKeeps_refl hsound, trivial⟩

/-! ## Runs -/

theorem otpSound_empty (cfg : OtpConfig) : OtpSound cfg .empty where
  ids := by simp [empty]
  unused := fun _ _ => rfl
  once := by simp [empty]
  consumed := by simp [empty]
  fresh := fun _ _ => ⟨rfl, rfl⟩
  balance := by simp [empty]
  within := by simp [empty]

theorem guarded_of_holds {s : System OtpDb Unit OtpPlace} (h : (otpOutline cfg).Holds s) :
    Guarded cfg s := by
  have hsound : OtpSound cfg s.db := h.sound
  refine ⟨?_, ?_, hsound.once, ?_⟩
  · intro id
    cases hrow : s.db.codes.row id with
    | none =>
      rw [(hsound.fresh id hrow).1]
      exact Nat.zero_le _
    | some r =>
      have hbal := hsound.balance id r hrow
      have hwithin := hsound.within id r hrow
      omega
  · intro pid sub id hat
    have hw : OtpWork cfg s.db pid (s.calls pid) := h.work pid
    rw [hat] at hw
    obtain ⟨hnot, r, hr, hle⟩ := hw
    refine ⟨hnot, ?_⟩
    intro r' hr'
    cases hr.symm.trans hr'
    exact hle
  · intro id r hr
    exact le_trans (by omega) (hsound.within id r hr)

/-- The calls are in turn. -/
def CallsInTurn (cfg : OtpConfig) (s : System OtpDb Unit OtpPlace) (e : Step OtpCall OtpEnv) :
    Prop :=
  ∀ env, e.action = .statement env → InTurn cfg env s.db (s.calls e.pid)

instance (cfg : OtpConfig) (s : System OtpDb Unit OtpPlace) (e : Step OtpCall OtpEnv) :
    Decidable (CallsInTurn cfg s e) :=
  match h : e.action with
  | .statement env => decidable_of_iff (InTurn cfg env s.db (s.calls e.pid)) (by
      simp [CallsInTurn, h])
  | .start _ | .die => isTrue fun env he => by rw [h] at he; cases he

theorem meets_of_inTurn {s : System OtpDb Unit OtpPlace} {e : Step OtpCall OtpEnv}
    (h : CallsInTurn cfg s e) : (otpOutline cfg).Meets s e := by
  obtain ⟨_, action⟩ := e
  cases action with
  | start | die => trivial
  | statement env => exact h env rfl

/-- Every state of a run whose calls are in turn guards its codes. -/
theorem guarded_run {es : List (Step OtpCall OtpEnv)}
    (h : Along (otpService cfg).step (CallsInTurn cfg) ((otpService cfg).start .empty) es) :
    Throughout (otpService cfg).step (Guarded cfg) ((otpService cfg).start .empty) es := by
  have hstart : (otpOutline cfg).Holds ((otpService cfg).start .empty) :=
    (otpProof cfg).proof.holds_start (otpSound_empty cfg) fun _ => trivial
  refine throughout_of_along (I := (otpOutline cfg).Holds) (fun s => guarded_of_holds) ?_ hstart h
  intro s e s' hs hturn hstep
  exact ((otpProof cfg).proof.holds_step hs (meets_of_inTurn hturn) hstep).1

/-! ## Guesses at the same time -/

namespace Guesses

/-- Codes that are stored as they are. -/
def plain : OtpConfig where
  hash := fun code _ _ => code

/-- The next `n` statements. -/
def takes (pid n : ℕ) (now : Instant) : List (Step OtpCall OtpEnv) :=
  List.replicate n ⟨pid, .statement ⟨now, 1, "271828"⟩⟩

/-- A guess at the code of a phone. -/
def guess (pid : ℕ) (code : String) : Step OtpCall OtpEnv :=
  ⟨pid, .start (.verifyOtp ⟨"0912", code, .login, none⟩)⟩

def issue : List (Step OtpCall OtpEnv) :=
  ⟨0, .start (.requestOtp ⟨"0912", .login, "10.0.0.1", none⟩)⟩ :: takes 0 2 0

/-- A wrong guess, then the right one. -/
def inOrder : List (Step OtpCall OtpEnv) :=
  issue ++ guess 1 "000000" :: takes 1 4 10 ++ guess 2 "271828" :: takes 2 4 20

/-- Six wrong guesses are compared before the first is subtracted, then the right one comes. -/
def atOnce : List (Step OtpCall OtpEnv) :=
  issue ++ guess 1 "000001" :: takes 1 3 10 ++ guess 2 "000002" :: takes 2 3 10 ++
    guess 3 "000003" :: takes 3 3 10 ++ guess 4 "000004" :: takes 4 3 10 ++
    guess 5 "000005" :: takes 5 3 10 ++ guess 6 "000006" :: takes 6 3 10 ++
    guess 7 "271828" :: takes 7 4 20

end Guesses

theorem guarded_run_inOrder :
    Throughout (otpService Guesses.plain).step (Guarded Guesses.plain)
      ((otpService Guesses.plain).start .empty) Guesses.inOrder :=
  guarded_run (by decide +kernel)

/-- The sixth wrong guess is compared, and the right one is let through after it. -/
theorem guarded_run_atOnce_fails :
    ¬ ∀ (cfg : OtpConfig) (es : List (Step OtpCall OtpEnv)),
      Throughout (otpService cfg).step (Guarded cfg) ((otpService cfg).start .empty) es := by
  intro h
  obtain ⟨s, hs, hcompared, -⟩ : ∃ s ∈ runFrom (otpService Guesses.plain).step
      ((otpService Guesses.plain).start .empty) Guesses.atOnce,
      s.db.compared 1 = 6 ∧ s.db.accepted 1 = [7] := by
    decide +kernel
  have hguarded := (h Guesses.plain Guesses.atOnce).last hs
  have hle := hguarded.compared 1
  rw [hcompared] at hle
  exact absurd hle (by decide)

end BeauClick.Identity
