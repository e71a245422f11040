import BeauClick.Identity.RefreshTokens

/-!
# Revoking all sessions of a user

A rotation that has claimed its token stores the replacement in a later transaction.  A
revocation that starts before that does not see the replacement, and leaves it live.
-/

namespace BeauClick.Identity

open ReadCommitted Runs Transactions Versioned List Option
open Function (update update_self update_of_ne)

/-- No token is live that descends from one that a committed revocation was about. -/
def Final (s : System TokenDb Unit TokenPlace) : Prop :=
  ∀ ids ∈ s.db.revocations, ∀ id ∈ ids, ∀ id', Descends s.db id' id →
    ∀ r, s.db.row id' = some r → ∀ now, ¬r.Live now

/-- The tokens of the revocations that have started, whether or not they are committed. -/
def TokenDb.seen (db : TokenDb) : List (List Uuid) := db.started.map (·.2) ++ db.revocations

/-- A replacement is stored for a token that no revocation has seen. -/
def StoredInTime (db : TokenDb) : TokenPlace → Prop
  | .storing issue => ∀ claim, issue.from' = some claim → ∀ ids ∈ db.seen, claim.id ∉ ids
  | _ => True

instance (db : TokenDb) : (place : TokenPlace) → Decidable (StoredInTime db place)
  | .storing issue =>
    match h : issue.from' with
    | none => isTrue (by simp [StoredInTime, h])
    | some claim => decidable_of_iff (∀ ids ∈ db.seen, claim.id ∉ ids) (by simp [StoredInTime, h])
  | .idle | .claiming _ _ _ | .unclaimable _ | .finding _ _ _ | .linking _ _ | .revoking _
  | .revokingId _ | .revokingAll _ _ | .revokingRows _ _ _ _ | .returned _ | .failed =>
    isTrue trivial

/-! ## What holds of the tokens -/

/-- A row as a transaction sees it is revoked. -/
def Gone (o : Option RefreshToken) : Prop := ∃ r, o = some r ∧ r.revokedAt ≠ none

/-- What the rows and the transactions say of one another. -/
structure TokenSound (db : TokenDb) : Prop where
  /-- What is written and not committed is a revocation of a committed row. -/
  written : ∀ id pid r, db.tokens.Wrote pid id r → r.revokedAt ≠ none ∧
    ∃ r', db.row id = some r' ∧ r'.userId = r.userId
  /-- A token and the one it was rotated from are one user's. -/
  family : ∀ id parent, db.parent id = some parent →
    ∃ r r', db.row id = some r ∧ db.row parent = some r' ∧ r.userId = r'.userId
  /-- A revocation that has seen a token has seen what descends from it. -/
  closed : ∀ ids ∈ db.seen, ∀ id parent, db.parent id = some parent → parent ∈ ids → id ∈ ids
  /-- A committed revocation has revoked what it saw. -/
  revoked : ∀ ids ∈ db.revocations, ∀ id ∈ ids, Gone (db.row id)

/-- Tokens stay, with their users, and stay revoked. -/
def TokenProgress (db db' : TokenDb) : Prop :=
  ∀ id r, db.row id = some r → ∃ r', db'.row id = some r' ∧ r'.userId = r.userId ∧
    (r.revokedAt ≠ none → r'.revokedAt ≠ none)

/-- What a step leaves to another transaction. -/
structure TokenLeaves (pid : ℕ) (db db' : TokenDb) : Prop where
  progress : TokenProgress db db'
  rows : db.tokens.Others pid db'.tokens
  started : ∀ ids, (pid, ids) ∈ db.started ↔ (pid, ids) ∈ db'.started

/-- A transaction that has written nothing, and is not a revocation at work. -/
structure Resting (db : TokenDb) (pid : ℕ) : Prop where
  untouched : db.tokens.Untouched pid
  started : ∀ ids, (pid, ids) ∉ db.started

/-- The claimed row is there. -/
def Claimed (db : TokenDb) (claim : Claim) : Prop :=
  ∃ r, db.row claim.id = some r ∧ r.userId = claim.userId

/-- What a call has read and written, place by place. -/
def TokenWork (db : TokenDb) (pid : ℕ) : TokenPlace → Prop
  | .finding claim _ _ => Resting db pid ∧ Claimed db claim
  | .storing issue => Resting db pid ∧
      ∀ claim, issue.from' = some claim → Claimed db claim ∧ claim.userId = issue.userId
  | .revokingRows userId _ rest _ =>
      ∀ ids, (pid, ids) ∈ db.started → ∀ id ∈ ids,
        (∃ r, db.row id = some r ∧ r.userId = userId) ∧
          (id ∈ rest ∨ Gone (db.tokens.get pid id))
  | _ => Resting db pid

variable {db db' db'' : TokenDb} {pid q : ℕ} {id userId : Uuid} {place : TokenPlace}
  {r r' : RefreshToken} {parent : Option Uuid} {ids : List Uuid}

theorem TokenProgress.refl (db : TokenDb) : TokenProgress db db :=
  fun _ r h => ⟨r, h, rfl, fun h => h⟩

section

variable (h : TokenProgress db db')
include h

theorem TokenProgress.trans (h' : TokenProgress db' db'') :
    TokenProgress db db'' := by
  intro id r hr
  obtain ⟨r', hr', huser, hrev⟩ := h id r hr
  obtain ⟨r'', hr'', huser', hrev'⟩ := h' id r' hr'
  exact ⟨r'', hr'', huser'.trans huser, fun hr => hrev' (hrev hr)⟩

theorem TokenProgress.gone (hg : Gone (db.row id)) :
    Gone (db'.row id) := by
  obtain ⟨r, hr, hrev⟩ := hg
  obtain ⟨r', hr', -, hrev'⟩ := h id r hr
  exact ⟨r', hr', hrev' hrev⟩

theorem TokenProgress.claimed {claim : Claim} (hc : Claimed db claim) :
    Claimed db' claim := by
  obtain ⟨r, hr, huser⟩ := hc
  obtain ⟨r', hr', huser', -⟩ := h claim.id r hr
  exact ⟨r', hr', huser'.trans huser⟩

end

section

variable (h : TokenLeaves pid db db')
include h

theorem TokenLeaves.resting (hr : Resting db pid) : Resting db' pid :=
  ⟨h.rows.untouched hr.untouched, fun ids hids => hr.started ids ((h.started ids).2 hids)⟩

theorem TokenLeaves.gone (hg : Gone (db.tokens.get pid id)) :
    Gone (db'.tokens.get pid id) := by
  by_cases hw : (db.tokens.row id).WrittenBy pid
  · have hrow := h.rows.row_eq hw
    have hget : db'.tokens.get pid id = db.tokens.get pid id := by
      rw [Versioned.get, hrow, Versioned.get]
    rwa [hget]
  · have hw' : ¬(db'.tokens.row id).WrittenBy pid := fun hw' => hw (h.rows.writtenBy_iff.1 hw')
    rw [Versioned.get_of_not hw] at hg
    rw [Versioned.get_of_not hw']
    exact h.progress.gone hg

theorem TokenLeaves.work (hw : TokenWork db pid place) :
    TokenWork db' pid place := by
  cases place with
  | finding => exact ⟨h.resting hw.1, h.progress.claimed hw.2⟩
  | storing =>
    refine ⟨h.resting hw.1, ?_⟩
    intro claim hclaim
    obtain ⟨hclaimed, huser⟩ := hw.2 claim hclaim
    exact ⟨h.progress.claimed hclaimed, huser⟩
  | revokingRows =>
    intro ids hids id hid
    obtain ⟨⟨r, hr, huser⟩, hgone⟩ := hw ids ((h.started ids).2 hids) id hid
    obtain ⟨r', hr', huser', -⟩ := h.progress id r hr
    exact ⟨⟨r', hr', huser'.trans huser⟩, hgone.imp_right h.gone⟩
  | idle | claiming | unclaimable | linking | revoking | revokingId | revokingAll | returned
  | failed => exact h.resting hw

end

/-! ## Transactions of one statement -/

section

variable (h : Resting db pid)
include h

theorem row_put :
    (db.put pid id r).row = update db.row id (some r) :=
  committed_put h.untouched

theorem row_store :
    (db.store pid id r parent).row = update db.row id (some r) :=
  committed_put h.untouched

theorem wrote_put {id' : Uuid} (hw : (db.tokens.put pid id r).Wrote q id' r') :
    db.tokens.Wrote q id' r' := by
  by_cases hid : id' = id
  · rw [Versioned.Wrote, hid, row_put_self] at hw
    cases hw
  · rwa [Versioned.Wrote, row_put_ne h.untouched hid] at hw

theorem leaves_put (hq : q ≠ pid) (hlock : ¬(db.tokens.row id).Locked pid)
    (hprog : TokenProgress db (db.put pid id r)) : TokenLeaves q db (db.put pid id r) :=
  ⟨hprog, others_put hq h.untouched hlock, fun _ => Iff.rfl⟩

theorem resting_put : Resting (db.put pid id r) pid :=
  ⟨untouched_put, h.started⟩

theorem progress_put (hr : db.row id = some r) (huser : r'.userId = r.userId)
    (hrev : r.revokedAt ≠ none → r'.revokedAt ≠ none) :
    TokenProgress db (db.put pid id r') := by
  intro id' x hx
  rw [row_put h]
  by_cases hid : id' = id
  · subst hid
    cases hr.symm.trans hx
    exact ⟨r', update_self .., huser, hrev⟩
  · exact ⟨x, by rw [update_of_ne hid, hx], rfl, fun h => h⟩

end

section

variable (h : Resting db pid)
include h

theorem TokenSound.put (hs : TokenSound db)
    (hprog : TokenProgress db (db.put pid id r')) : TokenSound (db.put pid id r') where
  written := by
    intro id' q x hw
    obtain ⟨hrev, y, hy, huser⟩ := hs.written id' q x (wrote_put h hw)
    obtain ⟨y', hy', huser', -⟩ := hprog id' y hy
    exact ⟨hrev, y', hy', huser'.trans huser⟩
  family := by
    intro id' parent hpar
    obtain ⟨x, y, hx, hy, huser⟩ := hs.family id' parent hpar
    obtain ⟨x', hx', hux, -⟩ := hprog id' x hx
    obtain ⟨y', hy', huy, -⟩ := hprog parent y hy
    exact ⟨x', y', hx', hy', by rw [hux, huy, huser]⟩
  closed := hs.closed
  revoked := fun ids hids id' hid => hprog.gone (hs.revoked ids hids id' hid)

theorem progress_store (hfree : db.row id = none) :
    TokenProgress db (db.store pid id r parent) := by
  intro id' x hx
  rw [row_store h]
  by_cases hid : id' = id
  · rw [hid, hfree] at hx
    cases hx
  · exact ⟨x, by rw [update_of_ne hid, hx], rfl, fun h => h⟩

theorem TokenSound.store (hs : TokenSound db) (hfree : db.row id = none)
    (hpar : ∀ p, parent = some p → (∃ x, db.row p = some x ∧ x.userId = r.userId) ∧
      ∀ ids ∈ db.seen, p ∉ ids) : TokenSound (db.store pid id r parent) where
  written := by
    intro id' q x hw
    obtain ⟨hrev, y, hy, huser⟩ := hs.written id' q x (wrote_put h hw)
    obtain ⟨y', hy', huser', -⟩ := progress_store h hfree id' y hy
    exact ⟨hrev, y', hy', huser'.trans huser⟩
  family := by
    intro id' p hp
    change update db.parent id parent id' = some p at hp
    by_cases hid : id' = id
    · subst hid
      rw [update_self] at hp
      obtain ⟨⟨x, hx, huser⟩, -⟩ := hpar p hp
      obtain ⟨x', hx', huser', -⟩ := progress_store (r := r) h hfree p x hx
      exact ⟨r, x', by rw [row_store h, update_self], hx', by rw [huser', huser]⟩
    · rw [update_of_ne hid] at hp
      obtain ⟨x, y, hx, hy, huser⟩ := hs.family id' p hp
      obtain ⟨x', hx', hux, -⟩ := progress_store (r := r) h hfree id' x hx
      obtain ⟨y', hy', huy, -⟩ := progress_store (r := r) h hfree p y hy
      exact ⟨x', y', hx', hy', by rw [hux, huy, huser]⟩
  closed := by
    intro ids hids id' p hp hmem
    change update db.parent id parent id' = some p at hp
    by_cases hid : id' = id
    · subst hid
      rw [update_self] at hp
      exact absurd hmem ((hpar p hp).2 ids hids)
    · rw [update_of_ne hid] at hp
      exact hs.closed ids hids id' p hp hmem
  revoked := fun ids hids id' hid =>
    (progress_store h hfree).gone (hs.revoked ids hids id' hid)

theorem leaves_store (hq : q ≠ pid) (hlock : ¬(db.tokens.row id).Locked pid)
    (hfree : db.row id = none) : TokenLeaves q db (db.store pid id r parent) :=
  ⟨progress_store h hfree, others_put hq h.untouched hlock, fun _ => Iff.rfl⟩

end

/-! ## The revocation of all tokens -/

theorem TokenSound.startRevocation (hs : TokenSound db) (h : Resting db pid) :
    TokenSound (db.startRevocation pid (db.tokens.select pid fun r => r.userId = userId)) where
  written := hs.written
  family := hs.family
  closed := by
    intro ids hids id parent hpar hmem
    rcases mem_cons.1 hids with rfl | hids
    · obtain ⟨x, _, hx, hy, huser⟩ := hs.family id parent hpar
      obtain ⟨_, hy', huser'⟩ := (mem_select h.untouched).1 hmem
      cases hy.symm.trans hy'
      refine (mem_select h.untouched).2 ⟨x, hx, ?_⟩
      rw [huser]
      exact huser'
    · exact hs.closed ids hids id parent hpar hmem
  revoked := hs.revoked

open TokenProgress

theorem leaves_startRevocation (hq : q ≠ pid) : TokenLeaves q db (db.startRevocation pid ids) where
  progress := refl db
  rows := Versioned.Others.refl
  started := by
    intro ids'
    constructor
    · exact mem_cons_of_mem _
    · intro hmem
      rcases mem_cons.1 hmem with heq | hmem
      · exact absurd (Prod.mk.inj heq).1 hq
      · exact hmem

theorem TokenSound.row_of_live (hs : TokenSound db) (hget : db.tokens.get pid id = some r)
    (hlive : r.revokedAt = none) : db.row id = some r := by
  by_cases hw : (db.tokens.row id).WrittenBy pid
  · obtain ⟨x, hx⟩ := hw
    rw [Wrote.get_eq hx] at hget
    obtain rfl := some.inj hget
    exact absurd hlive (hs.written id pid x hx).1
  · rwa [get_of_not hw] at hget

theorem TokenSound.write (hs : TokenSound db) (hr : db.row id = some r)
    (huser : r'.userId = r.userId) (hrev : r'.revokedAt ≠ none) :
    TokenSound { db with tokens := db.tokens.write pid id r' } where
  written := by
    intro id' q x hw
    change _ ∧ ∃ y, (db.tokens.write pid id r').committed id' = some y ∧ _
    rw [committed_write]
    by_cases hid : id' = id
    · subst hid
      rw [Versioned.Wrote, row_write_self] at hw
      obtain ⟨-, rfl⟩ := Prod.mk.inj (some.inj hw)
      exact ⟨hrev, r, hr, huser.symm⟩
    · rw [Versioned.Wrote, row_write_ne hid] at hw
      exact hs.written id' q x hw
  family := by
    intro id' parent hpar
    obtain ⟨x, y, hx, hy, huser⟩ := hs.family id' parent hpar
    refine ⟨x, y, ?_, ?_, huser⟩
    · exact (congrFun committed_write id').trans hx
    · exact (congrFun committed_write parent).trans hy
  closed := hs.closed
  revoked := by
    intro ids hids id' hid
    obtain ⟨x, hx, hgone⟩ := hs.revoked ids hids id' hid
    exact ⟨x, (congrFun committed_write id').trans hx, hgone⟩

theorem leaves_write (hq : q ≠ pid) (hlock : ¬(db.tokens.row id).Locked pid) :
    TokenLeaves q db { db with tokens := db.tokens.write pid id r' } where
  progress := by
    intro id' x hx
    exact ⟨x, (congrFun committed_write id').trans hx, rfl, fun h => h⟩
  rows := others_write hq hlock
  started := fun _ => Iff.rfl

/-! ## The ends of transactions -/

theorem TokenSound.progress_commit (hs : TokenSound db) (pid : ℕ) :
    TokenProgress db (db.commit pid) := by
  intro id r hr
  by_cases hw : (db.tokens.row id).WrittenBy pid
  · obtain ⟨x, hx⟩ := hw
    obtain ⟨hrev, _, hy, huser⟩ := hs.written id pid x hx
    cases hr.symm.trans hy
    exact ⟨x, Wrote.committed_commit hx, huser.symm, fun _ => hrev⟩
  · exact ⟨r, (committed_commit_of_not hw).trans hr, rfl, fun h => h⟩

theorem mem_started_commit (hq : q ≠ pid) :
    (q, ids) ∈ db.started ↔ (q, ids) ∈ db.started.filter (·.1 ≠ pid) := by
  simp [hq]

theorem TokenSound.leaves_commit (hs : TokenSound db) (hq : q ≠ pid) :
    TokenLeaves q db (db.commit pid) :=
  ⟨hs.progress_commit pid, others_commit hq, fun _ => mem_started_commit hq⟩

theorem resting_commit : Resting (db.commit pid) pid := by
  refine ⟨untouched_commit, ?_⟩
  intro ids hids
  have hne := (mem_filter.1 hids).2
  simp at hne

theorem seen_commit (h : ids ∈ (db.commit pid).seen) : ids ∈ db.seen := by
  rcases mem_append.1 h with h | h
  · obtain ⟨x, hx, rfl⟩ := mem_map.1 h
    exact mem_append_left _ (mem_map_of_mem (mem_filter.1 hx).1)
  · rcases mem_append.1 h with h | h
    · obtain ⟨_, hx, rfl⟩ := mem_map.1 h
      exact mem_append_left _ (mem_map_of_mem (mem_filter.1 hx).1)
    · exact mem_append_right _ h

theorem wrote_commit (h : (db.tokens.commit pid).Wrote q id r') : db.tokens.Wrote q id r' := by
  by_cases hw : (db.tokens.row id).WrittenBy pid
  · obtain ⟨_, hx⟩ := hw
    rw [Versioned.Wrote, row_commit, Row.commit_of_written hx] at h
    cases h
  · rwa [Versioned.Wrote, row_commit, Row.commit_of_not hw] at h

theorem TokenSound.commit (hs : TokenSound db)
    (hgone : ∀ ids, (pid, ids) ∈ db.started → ∀ id ∈ ids, Gone (db.tokens.get pid id)) :
    TokenSound (db.commit pid) where
  written := by
    intro id q r hw
    obtain ⟨hrev, x, hx, huser⟩ := hs.written id q r (wrote_commit hw)
    obtain ⟨x', hx', huser', -⟩ := hs.progress_commit pid id x hx
    exact ⟨hrev, x', hx', huser'.trans huser⟩
  family := by
    intro id parent hpar
    obtain ⟨x, y, hx, hy, huser⟩ := hs.family id parent hpar
    obtain ⟨x', hx', hux, -⟩ := hs.progress_commit pid id x hx
    obtain ⟨y', hy', huy, -⟩ := hs.progress_commit pid parent y hy
    exact ⟨x', y', hx', hy', by rw [hux, huy, huser]⟩
  closed := fun ids hids => hs.closed ids (seen_commit hids)
  revoked := by
    intro ids hids id hid
    rcases mem_append.1 hids with hids | hids
    · obtain ⟨x, hx, rfl⟩ := mem_map.1 hids
      obtain ⟨hmem, hpid⟩ := mem_filter.1 hx
      have hstarted : (pid, x.2) ∈ db.started := by
        have heq : x.1 = pid := by simpa using hpid
        rw [← heq]
        exact hmem
      obtain ⟨r, hr, hrev⟩ := hgone x.2 hstarted id hid
      exact ⟨r, committed_commit.trans hr, hrev⟩
    · exact (hs.progress_commit pid).gone (hs.revoked ids hids id hid)

theorem row_rollback (db : TokenDb) (pid : ℕ) : (db.rollback pid).row = db.row :=
  committed_rollback

theorem leaves_rollback (hq : q ≠ pid) : TokenLeaves q db (db.rollback pid) := by
  refine ⟨?_, others_rollback hq, fun _ => mem_started_commit hq⟩
  intro id r hr
  exact ⟨r, by rw [row_rollback, hr], rfl, fun h => h⟩

theorem resting_rollback : Resting (db.rollback pid) pid := by
  refine ⟨untouched_rollback, ?_⟩
  intro ids hids
  have hne := (mem_filter.1 hids).2
  simp at hne

theorem TokenSound.rollback (hs : TokenSound db) : TokenSound (db.rollback pid) where
  written := by
    intro id q r hw
    rw [row_rollback]
    refine hs.written id q r ?_
    by_cases h : (db.tokens.row id).WrittenBy pid
    · obtain ⟨x, hx⟩ := h
      change (db.tokens.rollback pid).Wrote q id r at hw
      rw [Versioned.Wrote, Versioned.row_rollback, Row.rollback_of_written hx] at hw
      cases hw
    · change (db.tokens.rollback pid).Wrote q id r at hw
      rwa [Versioned.Wrote, Versioned.row_rollback, Row.rollback_of_not h] at hw
  family := by
    rw [row_rollback]
    exact hs.family
  closed := by
    intro ids hids
    refine hs.closed ids ?_
    rcases mem_append.1 hids with h | h
    · obtain ⟨_, hx, rfl⟩ := mem_map.1 h
      exact mem_append_left _ (mem_map_of_mem (mem_filter.1 hx).1)
    · exact mem_append_right _ h
  revoked := by
    rw [row_rollback]
    exact hs.revoked

/-! ## The statements -/

/-- The calls on the tokens, replacements stored in time. -/
def tokenOutline : Outline TokenDb Unit TokenPlace TokenEnv where
  Assumes := fun _ db _ place => StoredInTime db place
  Sound := TokenSound
  Guarantee := TokenProgress
  Work := TokenWork
  holds := fun _ _ _ => False

variable {days : ℕ} {env : TokenEnv} {place' : TokenPlace}

theorem tokenKeeps (hsound : TokenSound db') (hprog : TokenProgress db db')
    (hleaves : ∀ q, q ≠ pid → TokenLeaves q db db') : tokenOutline.Keeps db pid place db' :=
  ⟨hsound, hprog, fun q _ hq _ hw => (hleaves q hq).work hw⟩

section

variable (hsound : TokenSound db)
include hsound

theorem tokenKeeps_refl : tokenOutline.Keeps db pid place db :=
  tokenKeeps hsound (refl db) fun _ _ =>
    ⟨refl db, Versioned.Others.refl, fun _ => Iff.rfl⟩

theorem keeps_put {where' : RefreshToken → Prop} [DecidablePred where']
    {f : RefreshToken → RefreshToken} {tokens : Versioned ℕ Uuid RefreshToken} (h : Resting db pid)
    (hupd : db.tokens.update pid id where' f = .done r tokens)
    (huser : ∀ x, (f x).userId = x.userId)
    (hrev : ∀ x, x.revokedAt ≠ none → (f x).revokedAt ≠ none) :
    tokenOutline.Keeps db pid place (db.put pid id r) ∧ Resting (db.put pid id r) pid := by
  obtain ⟨x, hget, -, hlock, rfl, -⟩ := update_eq_done hupd
  rw [h.untouched.get_eq] at hget
  have hprog := progress_put h hget (huser x) (hrev x)
  exact ⟨tokenKeeps (hsound.put h hprog) hprog fun q hq => leaves_put h hq hlock hprog,
    resting_put h⟩

/-- What is shown of a statement that goes on. -/
abbrev TokenShown (db : TokenDb) (pid : ℕ) (place : TokenPlace) :
    Next TokenDb Unit TokenPlace → Prop :=
  Next.Meets
    (fun db' place' => tokenOutline.Keeps db pid place db' ∧ TokenWork db' pid place')
    (fun _ _ _ => True) (fun _ => True) (fun _ => True)

theorem keeps_claim {tokenHash : String} {deviceLabel userAgent : Option String}
    (h : Resting db pid) :
    TokenShown db pid place (claim env db pid tokenHash deviceLabel userAgent) := by
  unfold claim
  split
  · exact ⟨tokenKeeps_refl hsound, h⟩
  · split
    · trivial
    · rename_i id _ _ r tokens hupd
      have hkeeps : tokenOutline.Keeps db pid place (db.put pid id r) ∧
          Resting (db.put pid id r) pid :=
        keeps_put hsound h hupd (fun _ => rfl) fun _ _ => some_ne_none _
      refine ⟨hkeeps.1, hkeeps.2, r, ?_, rfl⟩
      rw [row_put h]
      exact update_self ..
    · exact ⟨tokenKeeps_refl hsound, h⟩
    · exact ⟨tokenKeeps_refl hsound, h⟩

theorem keeps_handleUnclaimable {tokenHash : String} (h : Resting db pid) :
    TokenShown db pid place (handleUnclaimable env db pid tokenHash) := by
  unfold handleUnclaimable
  split
  · exact ⟨tokenKeeps_refl hsound, h⟩
  · split
    · split <;> exact ⟨tokenKeeps_refl hsound, h⟩
    · exact ⟨tokenKeeps_refl hsound, h⟩

theorem keeps_storeToken {issue : Issue}
    (hw : TokenWork db pid (.storing issue)) (htime : StoredInTime db (.storing issue)) :
    TokenShown db pid place (storeToken days env db pid issue) := by
  obtain ⟨h, hclaim⟩ := hw
  unfold storeToken
  split
  · trivial
  · rename_i r tokens hins
    obtain ⟨rfl, -, hlock, hnone, -⟩ := insert_eq_done hins
    rw [h.untouched.get_eq] at hnone
    have hpar : ∀ p, issue.from'.map (·.id) = some p →
        (∃ x, db.row p = some x ∧ x.userId = (issue.token days env).userId) ∧
          ∀ ids ∈ db.seen, p ∉ ids := by
      intro p hp
      obtain ⟨claim, hfrom, rfl⟩ := map_eq_some_iff.1 hp
      obtain ⟨⟨x, hx, huser⟩, hissue⟩ := hclaim claim hfrom
      exact ⟨⟨x, hx, huser.trans hissue⟩, htime claim hfrom⟩
    refine ⟨tokenKeeps (hsound.store h hnone hpar) (progress_store h hnone)
      fun q hq => leaves_store h hq hlock hnone, ?_⟩
    have hresting : ∀ parent, Resting (db.store pid env.newId (issue.token days env) parent) pid :=
      fun _ => ⟨untouched_put, h.started⟩
    split
    · exact hresting _
    · exact hresting _
  · exact ⟨tokenKeeps_refl hsound, h⟩
  · exact ⟨tokenKeeps_refl hsound, h⟩

theorem keeps_link {claim : Claim} {refreshTokenId : Uuid} (h : Resting db pid) :
    TokenShown db pid place (link db pid claim refreshTokenId) := by
  unfold link
  split
  · trivial
  · rename_i r tokens hupd
    exact keeps_put hsound h hupd (fun _ => rfl) (fun _ hr => hr)
  · exact ⟨tokenKeeps_refl hsound, h⟩
  · exact ⟨tokenKeeps_refl hsound, h⟩

theorem keeps_revokeRow (h : Resting db pid) :
    TokenShown db pid place (revokeRow env db pid id) := by
  unfold revokeRow
  split
  · trivial
  · rename_i r tokens hupd
    exact keeps_put hsound h hupd (fun _ => rfl) (fun _ _ => some_ne_none _)
  · exact ⟨tokenKeeps_refl hsound, h⟩
  · exact ⟨tokenKeeps_refl hsound, h⟩

theorem keeps_revokeAll {after : TokenResult} (h : Resting db pid) :
    TokenShown db pid place (revokeAll env db pid userId after) := by
  refine ⟨tokenKeeps (hsound.startRevocation h) (refl db)
    fun q hq => leaves_startRevocation hq, ?_⟩
  intro ids hids id hid
  rcases mem_cons.1 hids with heq | hids
  · obtain ⟨-, rfl⟩ := Prod.mk.inj heq
    obtain ⟨r, hr, huser⟩ := (mem_select h.untouched).1 hid
    refine ⟨⟨r, hr, by simpa using huser⟩, ?_⟩
    by_cases hlive : r.revokedAt = none
    · refine Or.inl ((mem_select h.untouched).2 ⟨r, hr, ?_⟩)
      simpa [hlive] using huser
    · refine Or.inr ⟨r, ?_, hlive⟩
      exact h.untouched.get_eq.trans hr
  · exact absurd hids (h.started ids)

theorem TokenSound.gone_of_unmatched (hrow : ∃ r, db.row id = some r ∧ r.userId = userId)
    (hnot : ∀ x, db.tokens.get pid id = some x → ¬(x.userId = userId ∧ x.revokedAt = none)) :
    Gone (db.tokens.get pid id) := by
  obtain ⟨r, hr, huser⟩ := hrow
  by_cases hw : (db.tokens.row id).WrittenBy pid
  · obtain ⟨x, hx⟩ := hw
    exact ⟨x, Wrote.get_eq hx, (hsound.written id pid x hx).1⟩
  · have hget : db.tokens.get pid id = some r := (get_of_not hw).trans hr
    exact ⟨r, hget, fun hlive => hnot r hget ⟨huser, hlive⟩⟩

theorem keeps_revokeNext {revokedAt : Instant} {rest : List Uuid} {after : TokenResult}
    (hw : TokenWork db pid (.revokingRows userId revokedAt rest after)) :
    TokenShown db pid place (revokeNext db pid userId revokedAt rest after) := by
  cases rest with
  | nil => trivial
  | cons id rest =>
    have hunmatched : (∀ x, db.tokens.get pid id = some x →
        ¬(x.userId = userId ∧ x.revokedAt = none)) →
        TokenWork db pid (.revokingRows userId revokedAt rest after) := by
      intro hnot ids hids id' hid
      obtain ⟨hrow, hmem⟩ := hw ids hids id' hid
      refine ⟨hrow, ?_⟩
      rcases hmem with hmem | hgone
      · rcases mem_cons.1 hmem with rfl | hmem
        · exact Or.inr (hsound.gone_of_unmatched hrow hnot)
        · exact Or.inl hmem
      · exact Or.inr hgone
    simp only [revokeNext]
    split
    · trivial
    · rename_i r tokens hupd
      obtain ⟨_, hget, ⟨-, hlive⟩, hlock, rfl, rfl⟩ := Versioned.update_eq_done hupd
      have hrow := hsound.row_of_live hget hlive
      refine ⟨tokenKeeps (hsound.write hrow rfl (some_ne_none _)) ?_
        fun q hq => leaves_write hq hlock, ?_⟩
      · intro id' y hy
        exact ⟨y, (congrFun Versioned.committed_write id').trans hy, rfl, fun h => h⟩
      · intro ids hids id' hid
        obtain ⟨⟨y, hy, hyuser⟩, hmem⟩ := hw ids hids id' hid
        refine ⟨⟨y, (congrFun Versioned.committed_write id').trans hy, hyuser⟩, ?_⟩
        by_cases hid' : id' = id
        · subst hid'
          exact Or.inr ⟨_, Versioned.wrote_write_self.get_eq,
            some_ne_none _⟩
        · rcases hmem with hmem | hgone
          · exact Or.inl ((mem_cons.1 hmem).resolve_left hid')
          · right
            rwa [Versioned.get, Versioned.row_write_ne hid']
    · rename_i hupd
      exact ⟨tokenKeeps_refl hsound, hunmatched (Versioned.update_eq_unmatched hupd)⟩
    · rename_i hupd
      exact absurd hupd Versioned.update_ne_violated

theorem keeps_tokenStatement (hw : TokenWork db pid place) (htime : StoredInTime db place) :
    TokenShown db pid place (tokenStatement days env db pid place) := by
  cases place with
  | claiming => exact keeps_claim hsound hw
  | unclaimable => exact keeps_handleUnclaimable hsound hw
  | finding =>
    simp only [tokenStatement, findUser]
    split
    · refine ⟨tokenKeeps_refl hsound, hw.1, ?_⟩
      rintro claim' ⟨⟩
      exact ⟨hw.2, rfl⟩
    · exact ⟨tokenKeeps_refl hsound, hw.1⟩
  | storing => exact keeps_storeToken hsound hw htime
  | linking => exact keeps_link hsound hw
  | revoking =>
    simp only [tokenStatement, revokeHash]
    split
    · exact ⟨tokenKeeps_refl hsound, hw⟩
    · exact keeps_revokeRow hsound hw
  | revokingId => exact keeps_revokeRow hsound hw
  | revokingAll => exact keeps_revokeAll hsound hw
  | revokingRows => exact keeps_revokeNext hsound hw
  | idle | returned | failed => trivial

end

theorem tokenStatement_ends :
    (tokenStatement days env db pid place).Ends (fun _ _ => True)
      (fun place' => ∃ userId revokedAt after,
        place = .revokingRows userId revokedAt [] after ∧ place' = .returned after)
      (fun _ => False) := by
  unfold tokenStatement
  split
  · unfold claim
    split
    · trivial
    split <;> trivial
  · unfold handleUnclaimable
    split
    · trivial
    split
    · split <;> trivial
    · trivial
  · unfold findUser
    split <;> trivial
  · unfold storeToken
    split <;> trivial
  · unfold link
    split <;> trivial
  · unfold revokeHash revokeRow
    split
    · trivial
    split <;> trivial
  · unfold revokeRow
    split <;> trivial
  · trivial
  · rename_i userId revokedAt rest after
    cases rest with
    | nil => exact ⟨userId, revokedAt, after, rfl, rfl⟩
    | cons =>
      simp only [revokeNext]
      split <;> trivial
  · trivial

/-- Each statement keeps the tokens. -/
theorem tokenProof (days : ℕ) : FreeProof (tokenService days) tokenOutline where
  refl := refl
  trans := fun _ _ _ => trans
  first := by
    intro db pid request hw
    cases request with
    | issuePair =>
      refine ⟨hw, ?_⟩
      rintro claim ⟨⟩
    | rotate | revoke | revokeById | revokeAllForUser => exact hw
  statement := by
    intro env db pid place htime hsound hw
    refine ((keeps_tokenStatement hsound hw htime).and tokenStatement_ends).mono
      (fun db' place' h => ⟨h.1.1, h.1.2⟩) (fun _ _ _ h => h.2.elim) (fun place' h => ?_)
      fun _ h => h.2.elim
    obtain ⟨-, _, _, _, rfl, rfl⟩ := h
    have hgone : ∀ ids, (pid, ids) ∈ db.started → ∀ id ∈ ids, Gone (db.tokens.get pid id) := by
      intro ids hids id hid
      exact ((hw ids hids id hid).2).resolve_left (not_mem_nil)
    exact ⟨tokenKeeps (hsound.commit hgone) (hsound.progress_commit pid)
      fun q hq => hsound.leaves_commit hq, resting_commit⟩
  dies := by
    intro db pid place _ hsound _
    have hprog : TokenProgress db (db.rollback pid) := by
      intro id r hr
      exact ⟨r, by rw [row_rollback, hr], rfl, fun h => h⟩
    exact ⟨tokenKeeps hsound.rollback hprog fun q hq => leaves_rollback hq, resting_rollback⟩

/-! ## Runs -/

theorem tokenSound_empty : TokenSound .empty where
  written := by simp [TokenDb.empty, Versioned.Wrote, empty, Row.empty]
  family := by simp [TokenDb.empty]
  closed := by simp [TokenDb.seen, TokenDb.empty]
  revoked := by simp [TokenDb.empty]

theorem resting_empty (pid : ℕ) : Resting .empty pid :=
  ⟨untouched_empty, fun _ => not_mem_nil⟩

theorem final_of_holds {s : System TokenDb Unit TokenPlace} (h : tokenOutline.Holds s) :
    Final s := by
  have hsound : TokenSound s.db := h.sound
  intro ids hids id hid id' hdesc r hr now hlive
  have hseen : ids ∈ s.db.seen := mem_append_right _ hids
  have hmem : id' ∈ ids := by
    clear hr
    induction hdesc using Relation.ReflTransGen.head_induction_on with
    | refl => exact hid
    | head hpar _ ih => exact hsound.closed ids hseen _ _ hpar ih
  obtain ⟨_, hr', hrev⟩ := hsound.revoked ids hids id' hmem
  cases hr.symm.trans hr'
  exact hrev hlive.1

/-- Replacements are stored in time. -/
def ReplacesInTime (s : System TokenDb Unit TokenPlace) (e : Step TokenCall TokenEnv) : Prop :=
  match e.action with
  | .statement _ => StoredInTime s.db (s.calls e.pid)
  | _ => True

instance (s : System TokenDb Unit TokenPlace) (e : Step TokenCall TokenEnv) :
    Decidable (ReplacesInTime s e) := by
  unfold ReplacesInTime
  split <;> infer_instance

/-- Revocations are final in every state of a run whose replacements are stored in time. -/
theorem final_run {days : ℕ} {es : List (Step TokenCall TokenEnv)}
    (h : Along (tokenService days).step ReplacesInTime ((tokenService days).start .empty) es) :
    Throughout (tokenService days).step Final ((tokenService days).start .empty) es := by
  have hstart : tokenOutline.Holds ((tokenService days).start .empty) :=
    (tokenProof days).proof.holds_start tokenSound_empty resting_empty
  refine throughout_of_along (I := tokenOutline.Holds) (fun s => final_of_holds) ?_ hstart h
  intro s e s' hs htime hstep
  have hmeets : tokenOutline.Meets s e := by
    unfold Outline.Meets
    unfold ReplacesInTime at htime
    split
    · rename_i env hact
      rw [hact] at htime
      exact htime
    · trivial
  exact ((tokenProof days).proof.holds_step hs hmeets hstep).1

/-! ## A rotation in flight -/

namespace Rotations

/-- The next `n` statements. -/
def takes (pid n : ℕ) (now : Instant) (newId : Uuid) (newHash : String) :
    List (Step TokenCall TokenEnv) :=
  List.replicate n ⟨pid, .statement ⟨now, newId, newHash, true⟩⟩

/-- A sign-in, a rotation of its token, and then the revocation of all tokens. -/
def inOrder : List (Step TokenCall TokenEnv) :=
  ⟨0, .start (.issuePair 7 none none)⟩ :: takes 0 1 0 1 "first" ++
    ⟨1, .start (.rotate "first" none none)⟩ :: takes 1 4 10 2 "second" ++
    ⟨2, .start (.revokeAllForUser 7)⟩ :: takes 2 3 20 3 "unused"

/-- The token is claimed, then all tokens are revoked, then the replacement is stored. -/
def inFlight : List (Step TokenCall TokenEnv) :=
  ⟨0, .start (.issuePair 7 none none)⟩ :: takes 0 1 0 1 "first" ++
    ⟨1, .start (.rotate "first" none none)⟩ :: takes 1 2 10 2 "second" ++
    ⟨2, .start (.revokeAllForUser 7)⟩ :: takes 2 2 20 3 "unused" ++ takes 1 2 30 2 "second"

end Rotations

theorem final_run_inOrder :
    Throughout (tokenService 30).step Final ((tokenService 30).start .empty) Rotations.inOrder :=
  final_run (by decide +kernel)

/-- The replacement is live after all tokens were revoked. -/
theorem final_run_inFlight_fails :
    ¬ ∀ (days : ℕ) (es : List (Step TokenCall TokenEnv)),
      Throughout (tokenService days).step Final ((tokenService days).start .empty) es := by
  intro h
  obtain ⟨s, hs, hrevocations, hpar, r, hr, hlive⟩ : ∃ s ∈ runFrom (tokenService 30).step
      ((tokenService 30).start .empty) Rotations.inFlight,
      s.db.revocations = [[1]] ∧ s.db.parent 2 = some 1 ∧ ∃ r ∈ s.db.row 2, r.Live 40 := by
    decide +kernel
  have hfinal := (h 30 Rotations.inFlight).last hs
  refine hfinal [1] ?_ 1 (mem_singleton_self 1) 2 (Relation.ReflTransGen.single hpar) r hr
    40 hlive
  rw [hrevocations]
  exact mem_singleton_self _

end BeauClick.Identity
