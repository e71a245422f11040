import BeauClick.Identity.Revocation

/-!
# One token after the other

A refresh token is claimed by one update, and its successor inserted after it.

* `ChainSound`, `Steady` — the chain of a sign-in, and which call extends it.
* `steady_goes` — one step keeps them.
* `recoverable_iff` — when a rotation leaves a live descendant.
* `rotation_run` — one live token in every run, and a rotation that is not cut off.
-/

namespace BeauClick.Identity

namespace Rotating

open ReadCommitted Runs Transactions Versioned List Option
open Function (update update_self update_of_ne)

variable {days : ℕ} {env : TokenEnv} {db db' : TokenDb} {p q : ℕ} {id id' parent : Uuid}
  {place place' : TokenPlace} {r r' x : RefreshToken} {tokenHash : String}

/-! ## What is to hold -/

/-- A rotation with the token would be accepted. -/
def Accepts (db : TokenDb) (tokenHash : String) (now : Instant) : Prop :=
  ∃ id r, db.row id = some r ∧ r.tokenHash = tokenHash ∧ r.Live now

/-- A live token was rotated from another one. -/
def LiveDescendant (db : TokenDb) (now : Instant) (id old : Uuid) : Prop :=
  Relation.TransGen (fun id parent => db.parent id = some parent) id old ∧
    ∃ r, db.row id = some r ∧ r.Live now

/-- Of two tokens that were rotated from one, no more than one is live. -/
def OneLive (s : System TokenDb Unit TokenPlace) : Prop :=
  ∀ id id' root r r' now, Descends s.db id root → Descends s.db id' root →
    s.db.row id = some r → s.db.row id' = some r' → r.Live now → r'.Live now → id = id'

/-- As long as the token is not past its expiry it is accepted, or the caller has been given the
one live token that was rotated from it. -/
def Recoverable (t : System TokenDb Unit TokenPlace) (pid : ℕ) (id : Uuid) (r : RefreshToken) :
    Prop :=
  ∀ now < r.expiresAt, Accepts t.db r.tokenHash now ∨
    ∃ new, t.calls pid = .returned (.pair new) ∧ ∀ id', LiveDescendant t.db now id' id ↔ id' = new

/-- A rotation, taken up to its end: it presents a token that is not revoked and does not expire
meanwhile. -/
structure Rotation (days : ℕ) (s t : System TokenDb Unit TokenPlace) (pid : ℕ)
    (steps : List (Step TokenCall TokenEnv)) (id : Uuid) (r : RefreshToken) : Prop where
  presents : ∃ deviceLabel userAgent, s.calls pid = .claiming r.tokenHash deviceLabel userAgent
  row : s.db.row id = some r
  unrevoked : r.revokedAt = none
  own : ∀ e ∈ steps, e.pid = pid
  unexpired : ∀ e ∈ steps, ∀ env, e.action = .statement env → env.now < r.expiresAt
  runs : runFrom (tokenService days).step s steps = some t
  ended : (t.calls pid).running = false

/-! ## The condition -/

/-- The id and the hash that are drawn are nobody's. -/
def Fresh (db : TokenDb) (env : TokenEnv) : Prop :=
  db.row env.newId = none ∧ ∀ id r, db.row id = some r → r.tokenHash ≠ env.newHash

/-- Once a rotation has claimed its token it is not stopped: it finds the user, draws what is
fresh, and stores a token that lives as long as the one that it replaces. -/
def Unbroken (days : ℕ) (r : RefreshToken) (s : System TokenDb Unit TokenPlace)
    (e : Step TokenCall TokenEnv) : Prop :=
  match s.calls e.pid, e.action with
  | .finding .., .statement env => env.userFound = true
  | .storing _, .statement env =>
    Fresh s.db env ∧ r.expiresAt ≤ env.now + days * 24 * 60 * 60 * 1000
  | .linking .., .statement _ => True
  | .finding .., _ => False
  | .storing _, _ => False
  | .linking .., _ => False
  | _, _ => True

/-! ## What holds of the tokens -/

/-- Hashes are unique, a token has one replacement at most, and none before it is revoked. -/
structure ChainSound (db : TokenDb) : Prop where
  /-- What is written and not committed is a revocation of a committed row. -/
  written : ∀ id pid r, db.tokens.Wrote pid id r → r.revokedAt ≠ none ∧
    ∃ x, db.row id = some x ∧ r.tokenHash = x.tokenHash
  apart : ∀ id id' r r', db.row id = some r → db.row id' = some r' → r.tokenHash = r'.tokenHash →
    id = id'
  family : ∀ id parent, db.parent id = some parent →
    (∃ r, db.row id = some r) ∧ Gone (db.row parent)
  single : ∀ id id' parent, db.parent id = some parent → db.parent id' = some parent → id = id'

/-- A row is there with its hash, and stays revoked. -/
def KeepsRow (x r : RefreshToken) : Prop :=
  r.tokenHash = x.tokenHash ∧ (x.revokedAt ≠ none → r.revokedAt ≠ none)

/-- The tokens are the same ones, and stay revoked. -/
structure Aged (db db' : TokenDb) : Prop where
  rows : ∀ id, Option.Rel KeepsRow (db.row id) (db'.row id)
  parent : db'.parent = db.parent

theorem keepsRow_refl (x : RefreshToken) : KeepsRow x x := ⟨rfl, fun h => h⟩

theorem rel_refl (o : Option RefreshToken) : Option.Rel KeepsRow o o := by
  cases o with
  | none => exact .none
  | some x => exact .some (keepsRow_refl x)

theorem Aged.refl (db : TokenDb) : Aged db db := ⟨fun _ => rel_refl _, rfl⟩

theorem Aged.of_row (h : db'.row = db.row) (hpar : db'.parent = db.parent) : Aged db db' := by
  refine ⟨fun id => ?_, hpar⟩
  rw [h]
  exact rel_refl _

section

variable (h : Aged db db')
include h

theorem Aged.before (hr : db'.row id = some r) :
    ∃ x, db.row id = some x ∧ KeepsRow x r := by
  have hrow := h.rows id
  rw [hr] at hrow
  generalize db.row id = o at hrow
  cases hrow with
  | some hkeeps => exact ⟨_, rfl, hkeeps⟩

theorem Aged.after (hx : db.row id = some x) :
    ∃ r, db'.row id = some r ∧ KeepsRow x r := by
  have hrow := h.rows id
  rw [hx] at hrow
  generalize db'.row id = o at hrow
  cases hrow with
  | some hkeeps => exact ⟨_, rfl, hkeeps⟩

theorem Aged.gone (hr : Gone (db.row id)) : Gone (db'.row id) := by
  obtain ⟨_, hx, hrev⟩ := hr
  obtain ⟨r, hr, hkeeps⟩ := h.after hx
  exact ⟨r, hr, hkeeps.2 hrev⟩

theorem ChainSound.aged (hs : ChainSound db)
    (hwrit : ∀ id pid r, db'.tokens.Wrote pid id r → r.revokedAt ≠ none ∧
      ∃ x, db.row id = some x ∧ r.tokenHash = x.tokenHash) : ChainSound db' where
  written := by
    intro id pid r hw
    obtain ⟨hrev, x, hx, hhash⟩ := hwrit id pid r hw
    obtain ⟨x', hx', hkeeps⟩ := h.after hx
    exact ⟨hrev, x', hx', hhash.trans hkeeps.1.symm⟩
  apart := by
    intro id id' r r' hr hr' heq
    obtain ⟨x, hx, hkeeps⟩ := h.before hr
    obtain ⟨x', hx', hkeeps'⟩ := h.before hr'
    exact hs.apart id id' x x' hx hx' (hkeeps.1.symm.trans (heq.trans hkeeps'.1))
  family := by
    intro id parent hpar
    rw [h.parent] at hpar
    obtain ⟨⟨_, hx⟩, hrev⟩ := hs.family id parent hpar
    obtain ⟨r, hr, -⟩ := h.after hx
    exact ⟨⟨r, hr⟩, h.gone hrev⟩
  single := by
    intro id id' parent hid hid'
    rw [h.parent] at hid hid'
    exact hs.single id id' parent hid hid'

end

/-! ## What a call is in the middle of -/

/-- The token that a rotation has claimed and not replaced yet. -/
def claims : TokenPlace → Option Uuid
  | .finding claim _ _ => some claim.id
  | .storing issue => issue.from'.map (·.id)
  | _ => none

/-- The call has no transaction open. -/
def rests : TokenPlace → Bool
  | .revokingRows .. => false
  | _ => true

/-- What holds of the tokens and of the calls: a claimed token is revoked and not replaced, and
nobody else has claimed it. -/
structure Steady (db : TokenDb) (calls : ℕ → TokenPlace) : Prop where
  sound : ChainSound db
  resting : ∀ pid, rests (calls pid) = true → Resting db pid
  claimed : ∀ pid id, claims (calls pid) = some id →
    Gone (db.row id) ∧ ∀ id', db.parent id' ≠ some id
  alone : ∀ p q id, claims (calls p) = some id → claims (calls q) = some id → p = q

/-- The token that a call has claimed when it has taken a step. -/
def ClaimsAfter (db : TokenDb) (db' : TokenDb) (place place' : TokenPlace) : Prop :=
  claims place' = none ∨ claims place' = claims place ∨
    ∃ id x, claims place' = some id ∧ db.row id = some x ∧ x.revokedAt = none ∧ Gone (db'.row id)

variable {calls : ℕ → TokenPlace}

theorem Steady.free (h : Steady db calls) (hx : db.row id = some x) (hlive : x.revokedAt = none) :
    (∀ id', db.parent id' ≠ some id) ∧ ∀ q, claims (calls q) ≠ some id := by
  have hnot : ¬Gone (db.row id) := by
    rintro ⟨_, hy, hrev⟩
    cases hx.symm.trans hy
    exact hrev hlive
  exact ⟨fun id' hid' => hnot (h.sound.family id' id hid').2,
    fun q hq => hnot (h.claimed q id hq).1⟩

theorem Steady.aged (h : Steady db calls) (haged : Aged db db')
    (hwrit : ∀ id pid r, db'.tokens.Wrote pid id r → r.revokedAt ≠ none ∧
      ∃ x, db.row id = some x ∧ r.tokenHash = x.tokenHash)
    (hothers : ∀ q ≠ p, Resting db q → Resting db' q) (hself : rests place' = true → Resting db' p)
    (hclaims : ClaimsAfter db db' (calls p) place') :
    Steady db' (update calls p place') where
  sound := h.sound.aged haged hwrit
  resting := by
    intro q hq
    by_cases hqp : q = p
    · rw [hqp] at hq ⊢
      rw [update_self] at hq
      exact hself hq
    · rw [update_of_ne hqp] at hq
      exact hothers q hqp (h.resting q hq)
  claimed := by
    intro q id hq
    rw [haged.parent]
    by_cases hqp : q = p
    · rw [hqp, update_self] at hq
      rcases hclaims with hnone | hsame | ⟨_, _, hsome, hx, hlive, hgone⟩
      · rw [hnone] at hq
        cases hq
      · obtain ⟨hgone, hnot⟩ := h.claimed p id (hsame.symm.trans hq)
        exact ⟨haged.gone hgone, hnot⟩
      · cases hsome.symm.trans hq
        exact ⟨hgone, (h.free hx hlive).1⟩
    · rw [update_of_ne hqp] at hq
      obtain ⟨hgone, hnot⟩ := h.claimed q id hq
      exact ⟨haged.gone hgone, hnot⟩
  alone := by
    refine alone_update (R := fun place id => claims place = some id) h.alone ?_
    intro id hid q hqp hq
    rcases hclaims with hnone | hsame | ⟨_, _, hsome, hx, hlive, -⟩
    · rw [hnone] at hid
      cases hid
    · exact hqp (h.alone q p id hq (hsame.symm.trans hid))
    · cases hsome.symm.trans hid
      exact (h.free hx hlive).2 q hq

/-- A parent is one that was there, or the claimed token of the new one. -/
theorem parent_store {from' : Option Uuid} {id' q : Uuid}
    (hq : (db.store p id r from').parent id' = some q) :
    (id' = id ∧ from' = some q) ∨ db.parent id' = some q := by
  change update db.parent id from' id' = some q at hq
  by_cases hid : id' = id
  · rw [hid, update_self] at hq
    exact Or.inl ⟨hid, hq⟩
  · rw [update_of_ne hid] at hq
    exact Or.inr hq

theorem row_store_of_eq_some {o : Option Uuid} (hrests : Resting db p) (hnone : db.row id = none)
    (hx : db.row id' = some x) : (db.store p id r o).row id' = some x := by
  rw [row_store hrests, update_of_ne]
  · exact hx
  · rintro rfl
    cases hnone.symm.trans hx

theorem gone_store {o : Option Uuid} (hrests : Resting db p) (hnone : db.row id = none)
    (h : Gone (db.row id')) : Gone ((db.store p id r o).row id') := by
  obtain ⟨x, hx, hrev⟩ := h
  exact ⟨x, row_store_of_eq_some hrests hnone hx, hrev⟩

theorem Steady.sound_store (h : Steady db calls) (hrests : Resting db p)
    (hnone : db.row id = none)
    (hfresh : ∀ id' x, db.row id' = some x → x.tokenHash ≠ r.tokenHash) :
    ChainSound (db.store p id r (claims (calls p))) where
  written := by
    intro id' q x hw
    obtain ⟨hrev, y, hy, hhash⟩ := h.sound.written id' q x (wrote_put hrests hw)
    exact ⟨hrev, y, row_store_of_eq_some hrests hnone hy, hhash⟩
  apart := by
    intro a b x y hx hy hhash
    rw [row_store hrests] at hx hy
    by_cases ha : a = id <;> by_cases hb : b = id
    · rw [ha, hb]
    · rw [ha, update_self] at hx
      rw [update_of_ne hb] at hy
      cases hx
      exact absurd hhash.symm (hfresh b y hy)
    · rw [hb, update_self] at hy
      rw [update_of_ne ha] at hx
      cases hy
      exact absurd hhash (hfresh a x hx)
    · rw [update_of_ne ha] at hx
      rw [update_of_ne hb] at hy
      exact h.sound.apart a b x y hx hy hhash
  family := by
    intro id' q hq
    rcases parent_store hq with ⟨rfl, hclaim⟩ | hold
    · refine ⟨⟨r, ?_⟩, gone_store hrests hnone (h.claimed p q hclaim).1⟩
      rw [row_store hrests, update_self]
    · obtain ⟨⟨x, hx⟩, hrev⟩ := h.sound.family id' q hold
      exact ⟨⟨x, row_store_of_eq_some hrests hnone hx⟩, gone_store hrests hnone hrev⟩
  single := by
    intro a b q ha hb
    rcases parent_store ha with ⟨rfl, hclaim⟩ | hold <;>
      rcases parent_store hb with ⟨rfl, hclaim'⟩ | hold'
    · rfl
    · exact absurd hold' ((h.claimed p q hclaim).2 b)
    · exact absurd hold ((h.claimed p q hclaim').2 a)
    · exact h.sound.single a b q hold hold'

theorem Steady.store (h : Steady db calls) (hrests : Resting db p)
    (hnone : db.row id = none) (hfresh : ∀ id' x, db.row id' = some x → x.tokenHash ≠ r.tokenHash)
    (hlock : ¬(db.tokens.row id).Locked p) (hclaims : claims place' = none) :
    Steady (db.store p id r (claims (calls p))) (update calls p place') := by
  refine ⟨h.sound_store hrests hnone hfresh, ?_, ?_, ?_⟩
  · intro q hq
    by_cases hqp : q = p
    · rw [hqp]
      exact ⟨untouched_put, hrests.started⟩
    · rw [update_of_ne hqp] at hq
      have hrests' := h.resting q hq
      have hothers := others_put (x := r) hqp hrests.untouched hlock
      exact ⟨hothers.untouched hrests'.untouched, hrests'.started⟩
  · intro q id' hq
    by_cases hqp : q = p
    · rw [hqp, update_self, hclaims] at hq
      cases hq
    · rw [update_of_ne hqp] at hq
      obtain ⟨hrev, hnot⟩ := h.claimed q id' hq
      refine ⟨gone_store hrests hnone hrev, ?_⟩
      intro a ha
      rcases parent_store ha with ⟨rfl, hclaim⟩ | hold
      · exact hqp (h.alone q p id' hq hclaim)
      · exact hnot a hold
  · refine alone_update (R := fun place id => claims place = some id) h.alone ?_
    intro id' hid
    rw [hclaims] at hid
    cases hid

/-! ## The statements -/

theorem Steady.moves (h : Steady db calls) (hrests : rests place' = true → Resting db p)
    (hclaims : claims place' = none ∨ claims place' = claims (calls p)) :
    Steady db (update calls p place') :=
  h.aged (.refl db) h.sound.written (fun _ _ h => h) hrests
    (hclaims.elim Or.inl fun hsame => Or.inr (Or.inl hsame))

theorem aged_put (h : Resting db p) (hx : db.row id = some x) (hkeeps : KeepsRow x r) :
    Aged db (db.put p id r) := by
  refine ⟨fun id' => ?_, rfl⟩
  rw [row_put h]
  by_cases hid : id' = id
  · rw [hid, hx, update_self]
    exact .some hkeeps
  · rw [update_of_ne hid]
    exact rel_refl _

section

variable (h : Steady db calls)
include h

section

variable (hrests : Resting db p)
include hrests

theorem Steady.put {where' : RefreshToken → Prop} [DecidablePred where']
    {f : RefreshToken → RefreshToken} {tokens : Versioned ℕ Uuid RefreshToken}
    (hupd : db.tokens.update p id where' f = .done r tokens) (hkeeps : ∀ x, KeepsRow x (f x))
    (hclaims : claims place' = none ∨ claims place' = some id ∧
      ∀ x, where' x → x.revokedAt = none ∧ (f x).revokedAt ≠ none) :
    Steady (db.put p id r) (update calls p place') := by
  obtain ⟨x, hget, hwhere, hlock, rfl, -⟩ := update_eq_done hupd
  have hx : db.row id = some x := hrests.untouched.get_eq.symm.trans hget
  refine h.aged (aged_put hrests hx (hkeeps x)) ?_ ?_ (fun _ => resting_put hrests) ?_
  · exact fun id' q y hw => h.sound.written id' q y (wrote_put hrests hw)
  · intro q hq hrests'
    exact ⟨(others_put hq hrests.untouched hlock).untouched hrests'.untouched,
      hrests'.started⟩
  · rcases hclaims with hnone | ⟨hsome, hlive⟩
    · exact Or.inl hnone
    · refine Or.inr (Or.inr ⟨id, x, hsome, hx, (hlive x hwhere).1, f x, ?_, (hlive x hwhere).2⟩)
      rw [row_put hrests, update_self]

/-- A statement that goes on keeps what rotations rely on. -/
abbrev Steadies (calls : ℕ → TokenPlace) (p : ℕ) : Next TokenDb Unit TokenPlace → Prop :=
  Next.Meets (fun db' place' => Steady db' (update calls p place'))
    (fun _ _ _ => True) (fun _ => True) (fun _ => True)

theorem steady_claim {deviceLabel userAgent : Option String} :
    Steadies calls p (claim env db p tokenHash deviceLabel userAgent) := by
  unfold claim
  split
  · exact h.moves (fun _ => hrests) (Or.inl rfl)
  · split
    · trivial
    · rename_i hupd
      refine h.put hrests hupd (fun x => ⟨rfl, fun _ => some_ne_none _⟩)
        (Or.inr ⟨rfl, ?_⟩)
      exact fun x hx => ⟨hx.1, some_ne_none _⟩
    · exact h.moves (fun _ => hrests) (Or.inl rfl)
    · exact h.moves (fun _ => hrests) (Or.inl rfl)

theorem steady_handleUnclaimable :
    Steadies calls p (handleUnclaimable env db p tokenHash) := by
  unfold handleUnclaimable
  split
  · exact h.moves (fun _ => hrests) (Or.inl rfl)
  · split
    · split <;> exact h.moves (fun _ => hrests) (Or.inl rfl)
    · exact h.moves (fun _ => hrests) (Or.inl rfl)

theorem steady_storeToken {issue : Issue} (hat : claims (calls p) = issue.from'.map (·.id)) :
    Steadies calls p (storeToken days env db p issue) := by
  unfold storeToken
  split
  · trivial
  · rename_i hins
    obtain ⟨rfl, -, hlock, hnone, hfree⟩ := insert_eq_done hins
    rw [hrests.untouched.get_eq] at hnone
    rw [← hat]
    refine h.store hrests hnone ?_ hlock ?_
    · intro id' x hx
      refine hfree id' ?_ x (Or.inl hx)
      rintro rfl
      cases hnone.symm.trans hx
    · split <;> rfl
  · exact h.moves (fun _ => hrests) (Or.inl rfl)
  · exact h.moves (fun _ => hrests) (Or.inl rfl)

theorem steady_link {claim : Claim} {refreshTokenId : Uuid} :
    Steadies calls p (link db p claim refreshTokenId) := by
  unfold link
  split
  · trivial
  · rename_i hupd
    exact h.put hrests hupd (fun x => ⟨rfl, fun h => h⟩) (Or.inl rfl)
  · exact h.moves (fun _ => hrests) (Or.inl rfl)
  · exact h.moves (fun _ => hrests) (Or.inl rfl)

theorem steady_revokeRow :
    Steadies calls p (revokeRow env db p id) := by
  unfold revokeRow
  split
  · trivial
  · rename_i hupd
    exact h.put hrests hupd (fun x => ⟨rfl, fun _ => some_ne_none _⟩) (Or.inl rfl)
  · exact h.moves (fun _ => hrests) (Or.inl rfl)
  · exact h.moves (fun _ => hrests) (Or.inl rfl)

end

theorem Steady.startRevocation {ids : List Uuid}
    (hplace : rests place' = false) (hclaims : claims place' = none) :
    Steady (db.startRevocation p ids) (update calls p place') := by
  refine h.aged (.of_row rfl rfl) h.sound.written ?_ ?_ (Or.inl hclaims)
  · intro q hq hrests
    refine ⟨hrests.untouched, ?_⟩
    intro ids' hids
    rcases mem_cons.1 hids with heq | hids
    · exact hq (Prod.mk.inj heq).1
    · exact hrests.started ids' hids
  · intro hrests
    rw [hplace] at hrests
    cases hrests

theorem Steady.write {revokedAt : Instant} (hget : db.tokens.get p id = some x)
    (hlive : x.revokedAt = none) (hlock : ¬(db.tokens.row id).Locked p)
    (hplace : rests place' = false) (hclaims : claims place' = none) :
    Steady { db with tokens := db.tokens.write p id { x with revokedAt := some revokedAt } }
      (update calls p place') := by
  have hx : db.row id = some x := by
    by_cases hw : (db.tokens.row id).WrittenBy p
    · obtain ⟨y, hy⟩ := hw
      obtain rfl := some.inj ((Wrote.get_eq hy).symm.trans hget)
      exact absurd hlive (h.sound.written id p y hy).1
    · exact (get_of_not hw).symm.trans hget
  refine h.aged (.of_row committed_write rfl) ?_ ?_ ?_ (Or.inl hclaims)
  · intro id' q y hw
    by_cases hid : id' = id
    · subst hid
      rw [Versioned.Wrote, row_write_self] at hw
      obtain ⟨-, rfl⟩ := Prod.mk.inj (some.inj hw)
      exact ⟨some_ne_none _, x, hx, rfl⟩
    · rw [Versioned.Wrote, row_write_ne hid] at hw
      exact h.sound.written id' q y hw
  · intro q hq hrests
    exact ⟨(others_write hq hlock).untouched hrests.untouched, hrests.started⟩
  · intro hrests
    rw [hplace] at hrests
    cases hrests

theorem steady_revokeNext {userId : Uuid} {revokedAt : Instant} {rest : List Uuid}
    {after : TokenResult} :
    Steadies calls p (revokeNext db p userId revokedAt rest after) := by
  have hstill : ∀ rest', rests (.revokingRows userId revokedAt rest' after) = true →
      Resting db p := by
    rintro rest' ⟨⟩
  cases rest with
  | nil => trivial
  | cons id rest =>
    dsimp only [revokeNext]
    split
    · trivial
    · rename_i hupd
      obtain ⟨_, hget, ⟨-, hlive⟩, hlock, rfl, rfl⟩ := update_eq_done hupd
      exact h.write hget hlive hlock rfl rfl
    · exact h.moves (hstill rest) (Or.inl rfl)
    · exact h.moves (hstill rest) (Or.inl rfl)

theorem steady_goes :
    Steadies calls p (tokenStatement days env db p (calls p)) := by
  have hrests := h.resting p
  generalize hat : calls p = place at hrests ⊢
  cases place with
  | claiming => exact steady_claim h (hrests rfl)
  | unclaimable => exact steady_handleUnclaimable h (hrests rfl)
  | finding =>
    dsimp only [tokenStatement, findUser]
    split
    · refine h.moves (fun _ => hrests rfl) (Or.inr ?_)
      rw [hat]
      rfl
    · exact h.moves (fun _ => hrests rfl) (Or.inl rfl)
  | storing => exact steady_storeToken h (hrests rfl) (by rw [hat]; rfl)
  | linking => exact steady_link h (hrests rfl)
  | revoking =>
    dsimp only [tokenStatement, revokeHash]
    split
    · exact h.moves (fun _ => hrests rfl) (Or.inl rfl)
    · exact steady_revokeRow h (hrests rfl)
  | revokingId => exact steady_revokeRow h (hrests rfl)
  | revokingAll =>
    exact h.startRevocation rfl rfl
  | revokingRows => exact steady_revokeNext h
  | idle | returned | failed => trivial

theorem steady_commit (hclaims : claims place' = none) :
    Steady (db.commit p) (update calls p place') := by
  refine h.aged ⟨fun id => ?_, rfl⟩ ?_ ?_ (fun _ => resting_commit) (Or.inl hclaims)
  · show Option.Rel KeepsRow (db.row id) ((db.tokens.commit p).committed id)
    by_cases hw : (db.tokens.row id).WrittenBy p
    · obtain ⟨x, hx⟩ := hw
      obtain ⟨hrev, _, hy, hhash⟩ := h.sound.written id p x hx
      rw [Wrote.committed_commit hx, hy]
      exact .some ⟨hhash, fun _ => hrev⟩
    · rw [committed_commit_of_not hw]
      exact rel_refl _
  · exact fun id q r hw => h.sound.written id q r (wrote_commit hw)
  · intro q hq hrests
    exact ⟨(others_commit hq).untouched hrests.untouched,
      fun ids hids => hrests.started ids ((mem_started_commit hq).2 hids)⟩

end

theorem wrote_rollback (hw : (db.tokens.rollback p).Wrote q id r) : db.tokens.Wrote q id r := by
  by_cases h : (db.tokens.row id).WrittenBy p
  · obtain ⟨_, hx⟩ := h
    rw [Versioned.Wrote, Versioned.row_rollback, Row.rollback_of_written hx] at hw
    cases hw
  · rwa [Versioned.Wrote, Versioned.row_rollback, Row.rollback_of_not h] at hw

theorem steady_rollback (h : Steady db calls) (hclaims : claims place' = none) :
    Steady (db.rollback p) (update calls p place') := by
  refine h.aged (.of_row (row_rollback db p) rfl) ?_ ?_ (fun _ => resting_rollback)
    (Or.inl hclaims)
  · exact fun id q r hw => h.sound.written id q r (wrote_rollback hw)
  · intro q hq hrests
    exact ⟨(others_rollback hq).untouched hrests.untouched,
      fun ids hids => hrests.started ids ((mem_started_commit hq).2 hids)⟩

/-! ## Runs -/

section Run

variable {s s' t : System TokenDb Unit TokenPlace} {e : Step TokenCall TokenEnv}
  {steps : List (Step TokenCall TokenEnv)} {pid : ℕ}

/-- A step keeps the chains, and which call extends them. -/
theorem steady_step (h : Steady s.db s.calls) (hstep : (tokenService days).step s e = some s') :
    Steady s'.db s'.calls := by
  cases Service.took_of_step hstep with
  | starts pid request hidle =>
    have hrests : Resting s.db pid := h.resting pid (by rw [hidle]; rfl)
    refine h.moves (fun _ => hrests) (Or.inl ?_)
    cases request <;> rfl
  | goes pid env db place hst => exact (steady_goes h).of_goes hst
  | locks pid env key mode place hst => exact (tokenStatement_ends.of_locks hst).elim
  | commits pid env place hst =>
    obtain ⟨-, -, _, -, rfl⟩ := tokenStatement_ends.of_commits hst
    exact steady_commit h rfl
  | throws pid env place hst => exact (tokenStatement_ends.of_throws hst).elim
  | dies => exact steady_rollback h rfl

theorem steady_start (days : ℕ) :
    Steady ((tokenService days).start .empty).db ((tokenService days).start .empty).calls := by
  refine ⟨⟨?_, ?_, ?_, ?_⟩, ?_, ?_, ?_⟩
  · rintro id pid r ⟨⟩
  · rintro id id' r r' ⟨⟩
  · rintro id parent ⟨⟩
  · rintro id id' parent ⟨⟩
  · exact fun pid _ => ⟨untouched_empty, fun ids hids => by cases hids⟩
  · rintro pid id ⟨⟩
  · rintro p q id ⟨⟩

theorem oneLive_of_steady (h : Steady s.db s.calls) : OneLive s := by
  have hstep : ∀ {id id'}, Relation.ReflTransGen (fun p c => s.db.parent c = some p) id id' →
      id = id' ∨ Gone (s.db.row id) := by
    intro id id' hchain
    rcases hchain.cases_head with rfl | ⟨child, hchild, -⟩
    · exact Or.inl rfl
    · exact Or.inr (h.sound.family child id hchild).2
  have hlive : ∀ {id r now}, s.db.row id = some r → r.Live now → ¬Gone (s.db.row id) := by
    rintro id r now hr hlive ⟨_, hx, hrev⟩
    cases hr.symm.trans hx
    exact hrev hlive.1
  intro id id' root r r' now hid hid' hr hr' hnow hnow'
  have hunique : Relator.RightUnique fun p c => s.db.parent c = some p :=
    fun p c c' hc hc' => h.sound.single c c' p hc hc'
  rcases Relation.ReflTransGen.total_of_right_unique hunique
    (Relation.reflTransGen_swap.1 hid) (Relation.reflTransGen_swap.1 hid') with hchain | hchain
  · exact (hstep hchain).resolve_right (hlive hr hnow)
  · exact ((hstep hchain).resolve_right (hlive hr' hnow')).symm

/-! ## One rotation -/

/-- Of the calls only one takes steps. -/
structure Alone (days : ℕ) (s t : System TokenDb Unit TokenPlace) (pid : ℕ)
    (steps : List (Step TokenCall TokenEnv)) : Prop where
  own : ∀ e ∈ steps, e.pid = pid
  runs : runFrom (tokenService days).step s steps = some t
  ended : (t.calls pid).running = false

theorem Alone.cons (h : Alone days s t pid (e :: steps)) :
    e.pid = pid ∧ ∃ s', (tokenService days).step s e = some s' ∧ Alone days s' t pid steps := by
  obtain ⟨s', hstep, hrest⟩ := runFrom_cons_eq_some.1 h.runs
  exact ⟨h.own e mem_cons_self, s', hstep,
    fun e he => h.own e (mem_cons_of_mem _ he), hrest, h.ended⟩

theorem Alone.stuck (h : Alone days s t pid steps) (hended : (s.calls pid).running = false)
    (hidle : s.calls pid ≠ .idle) : steps = [] ∧ t = s := by
  cases steps with
  | nil =>
    cases h.runs
    exact ⟨rfl, rfl⟩
  | cons e =>
    obtain ⟨rfl, _, hstep, -⟩ := h.cons
    refine absurd ⟨hidle, hended, fun env db pid => ?_⟩ (Service.took_of_step hstep).not_ended
    generalize s.calls e.pid = place at hended hidle
    cases place with
    | idle => exact absurd rfl hidle
    | returned | failed => rfl
    | _ => cases hended

theorem along_cons {G : System TokenDb Unit TokenPlace → Step TokenCall TokenEnv → Prop}
    (hstep : (tokenService days).step s e = some s') :
    Along (tokenService days).step G s (e :: steps) ↔
      G s e ∧ Along (tokenService days).step G s' steps := by
  constructor
  · exact fun h => ⟨h.1, h.2 s' hstep⟩
  · rintro ⟨hG, hrest⟩
    refine ⟨hG, fun s'' hs => ?_⟩
    cases hs.symm.trans hstep
    exact hrest

/-- The presented token is revoked. -/
def Spent (db : TokenDb) (id : Uuid) (r : RefreshToken) : Prop :=
  ∃ x, db.row id = some x ∧ x.tokenHash = r.tokenHash ∧ x.revokedAt ≠ none

theorem Spent.not_accepts (h : Spent db id r) (hs : ChainSound db) (now : Instant) :
    ¬Accepts db r.tokenHash now := by
  obtain ⟨x, hx, hhash, hrev⟩ := h
  rintro ⟨id', y, hy, hhash', hlive⟩
  obtain rfl := hs.apart id id' x y hx hy (hhash.trans hhash'.symm)
  cases hx.symm.trans hy
  exact hrev hlive.1

theorem Spent.not_recoverable (h : Spent t.db id r) (hs : ChainSound t.db)
    (hnot : ∀ new, t.calls pid ≠ .returned (.pair new)) : ¬Recoverable t pid id r := by
  intro hrecoverable
  rcases hrecoverable (r.expiresAt - 1) (Int.sub_one_lt_of_le (le_refl _)) with
    haccepts | ⟨new, hret, -⟩
  · exact h.not_accepts hs _ haccepts
  · exact hnot new hret

/-- The replacement is stored. -/
def Stored (db : TokenDb) (id new : Uuid) (expiresAt : Instant) : Prop :=
  db.parent new = some id ∧
    ∃ x, db.row new = some x ∧ x.revokedAt = none ∧ x.expiresAt = expiresAt

theorem recoverable_of_stored {new : Uuid} {expiresAt : Instant} (h : Steady t.db t.calls)
    (hspent : Spent t.db id r) (hstored : Stored t.db id new expiresAt)
    (hat : t.calls pid = .returned (.pair new)) :
    Recoverable t pid id r ↔ r.expiresAt ≤ expiresAt := by
  obtain ⟨hpar, x, hx, hlive, rfl⟩ := hstored
  have hdesc : Relation.TransGen (fun id parent => t.db.parent id = some parent) new id :=
    .single hpar
  constructor
  · intro hrecoverable
    by_contra hlt
    rcases hrecoverable x.expiresAt (not_le.1 hlt) with haccepts | ⟨_, hret, hone⟩
    · exact hspent.not_accepts h.sound _ haccepts
    · cases hat.symm.trans hret
      obtain ⟨-, y, hy, hnow⟩ := (hone new).2 rfl
      cases hx.symm.trans hy
      exact lt_irrefl _ hnow.2
  · intro hle now hnow
    refine Or.inr ⟨new, hat, fun id' => ?_⟩
    have hnew : x.Live now := ⟨hlive, hnow.trans_le hle⟩
    constructor
    · rintro ⟨hdesc', y, hy, hlive'⟩
      exact oneLive_of_steady h id' new id y x now hdesc'.to_reflTransGen
        hdesc.to_reflTransGen hy hx hlive' hnew
    · rintro rfl
      exact ⟨hdesc, x, hx, hnew⟩

/-- What a rotation does at its place: it goes on, or dies. -/
inductive Turns (days : ℕ) (s : System TokenDb Unit TokenPlace) (pid : ℕ) :
    Step TokenCall TokenEnv → System TokenDb Unit TokenPlace → Prop where
  | goes (env : TokenEnv) (db : TokenDb) (place : TokenPlace)
    (hst : tokenStatement days env s.db pid (s.calls pid) = .goes db place) :
    Turns days s pid ⟨pid, .statement env⟩ (s.goes pid db place)
  | dies : Turns days s pid ⟨pid, .die⟩ (s.ends pid (s.db.rollback pid) .failed)

theorem turns_of_step (hpid : e.pid = pid) (hidle : s.calls pid ≠ .idle)
    (hrests : rests (s.calls pid) = true) (hstep : (tokenService days).step s e = some s') :
    Turns days s pid e s' := by
  subst hpid
  cases Service.took_of_step hstep with
  | starts pid request hat => exact absurd hat hidle
  | goes pid env db place hst => exact .goes env db place hst
  | locks pid env key mode place hst => exact (tokenStatement_ends.of_locks hst).elim
  | commits pid env place hst =>
    obtain ⟨_, _, _, hat, -⟩ := tokenStatement_ends.of_commits hst
    rw [hat] at hrests
    cases hrests
  | throws pid env place hst => exact (tokenStatement_ends.of_throws hst).elim
  | dies => exact .dies

theorem row_of_put {id' : Uuid} (h : Resting db p) (hne : id' ≠ id) :
    (db.put p id r).row id' = db.row id' := by
  rw [row_put h, update_of_ne hne]

theorem Alone.not_recoverable (h : Alone days s t pid steps) (hs : Steady s.db s.calls)
    (hspent : Spent s.db id r) (hended : s.calls pid = .failed ∨
      s.calls pid = .returned .unauthorized) : ¬Recoverable t pid id r := by
  have hstuck : t = s := by
    rcases hended with hat | hat
    · exact (h.stuck (by rw [hat]; rfl) (by rw [hat]; simp)).2
    · exact (h.stuck (by rw [hat]; rfl) (by rw [hat]; simp)).2
  rw [hstuck]
  refine hspent.not_recoverable hs.sound ?_
  intro new hret
  rcases hended with hat | hat
  · cases hat.symm.trans hret
  · cases hat.symm.trans hret

theorem Alone.turns (h : Alone days s t pid steps) (hs : Steady s.db s.calls)
    (hidle : s.calls pid ≠ .idle) (hrests : rests (s.calls pid) = true)
    (hrun : (s.calls pid).running = true) :
    ∃ e rest s', e ∈ steps ∧ Alone days s' t pid rest ∧ Steady s'.db s'.calls ∧
      Turns days s pid e s' ∧
        ∀ G, Along (tokenService days).step G s steps ↔
          G s e ∧ Along (tokenService days).step G s' rest := by
  cases steps with
  | nil =>
    cases h.runs
    cases hrun.symm.trans h.ended
  | cons e steps =>
    obtain ⟨hpid, s', hstep, hrest⟩ := h.cons
    exact ⟨e, steps, s', mem_cons_self, hrest, steady_step hs hstep,
      turns_of_step hpid hidle hrests hstep, fun _ => along_cons hstep⟩

theorem Alone.not_recoverable_dies
    (h : Alone days (s.ends pid (s.db.rollback pid) .failed) t pid steps)
    (hs : Steady (s.db.rollback pid) (s.ends pid (s.db.rollback pid) .failed).calls)
    (hspent : Spent s.db id r) : ¬Recoverable t pid id r := by
  obtain ⟨x, hx, hhash⟩ := hspent
  exact h.not_recoverable hs ⟨x, (congrFun (row_rollback s.db pid) id).trans hx, hhash⟩
    (Or.inl (update_self ..))

theorem Spent.store (h : Spent db id r) (hrests : Resting db p) (hnone : db.row id' = none)
    {o : Option Uuid} : Spent (db.store p id' r' o) id r := by
  obtain ⟨x, hx, hhash⟩ := h
  exact ⟨x, row_store_of_eq_some hrests hnone hx, hhash⟩

theorem stored_store (hrests : Resting db p) (hlive : r.revokedAt = none) :
    Stored (db.store p id' r (some id)) id id' r.expiresAt := by
  refine ⟨update_self .., r, ?_, hlive, rfl⟩
  rw [row_store hrests, update_self]

theorem fresh_of_done {tokens : Versioned ℕ Uuid RefreshToken} (hrests : Resting db p)
    (hins : db.tokens.insert p env.newId x (fun r => r.tokenHash = env.newHash) = .done r tokens) :
    Fresh db env := by
  obtain ⟨-, -, -, hnone, hfree⟩ := Versioned.insert_eq_done hins
  rw [hrests.untouched.get_eq] at hnone
  refine ⟨hnone, fun k y hy => hfree k ?_ y (Or.inl hy)⟩
  rintro rfl
  cases hnone.symm.trans hy

theorem not_fresh_of_violated (hs : ChainSound db) (hrests : Resting db p)
    (hins : db.tokens.insert p env.newId x (fun r => r.tokenHash = env.newHash) = .violated) :
    ¬Fresh db env := by
  rintro ⟨hnone, hfresh⟩
  unfold Versioned.insert at hins
  split_ifs at hins with hlock hsome
  · rw [hrests.untouched.get_eq, show db.tokens.committed env.newId = none from hnone] at hsome
    cases hsome
  · obtain ⟨k, -, -, v, hv | ⟨q, hv⟩, hconfl⟩ := Versioned.writeChecked_eq_violated hins
    · exact hfresh k v hv hconfl
    · obtain ⟨-, y, hy, hhash⟩ := hs.written k q v hv
      exact hfresh k y hy (hhash.symm.trans hconfl)

section

variable (h : Alone days s t pid steps)
include h

section

variable (hs : Steady s.db s.calls)
include hs

theorem rotation_linking {claim : Claim} {new : Uuid} {expiresAt : Instant}
    (hat : s.calls pid = .linking claim new) (hid : claim.id = id) (hspent : Spent s.db id r)
    (hstored : Stored s.db id new expiresAt) :
    Recoverable t pid id r ↔
      r.expiresAt ≤ expiresAt ∧ Along (tokenService days).step (Unbroken days r) s steps := by
  obtain ⟨_, _, _, -, hrest, hs', hturns, halong⟩ :=
    h.turns hs (by rw [hat]; simp) (by rw [hat]; rfl) (by rw [hat]; rfl)
  rw [halong]
  have hrests : Resting s.db pid := hs.resting pid (by rw [hat]; rfl)
  cases hturns with
  | dies =>
    refine iff_of_false (hrest.not_recoverable_dies hs' hspent) ?_
    rintro ⟨-, hunbroken, -⟩
    simp only [Unbroken, hat] at hunbroken
  | goes env db place hst =>
    rw [hat] at hst
    dsimp only [tokenStatement, link] at hst
    -- the row that is linked is there
    obtain ⟨x, hx, hhash, hrev⟩ := hspent
    have hget : s.db.tokens.get pid claim.id = some x := by
      rw [hid]
      exact hrests.untouched.get_eq.trans hx
    rcases update_waits_or_done (fun _ : RefreshToken => True)
      (fun r => { r with replacedByTokenId := some new }) hget trivial with hwaits | hdone
    · rw [hwaits] at hst
      cases hst
    · rw [hdone] at hst
      cases hst
      obtain ⟨hpar, y, hy, hlive, hexpires⟩ := hstored
      have hne : new ≠ claim.id := by
        rintro rfl
        rw [hid] at hy
        cases hx.symm.trans hy
        exact hrev hlive
      have hspent' : Spent
          (s.db.put pid claim.id { x with replacedByTokenId := some new }) id r := by
        refine ⟨{ x with replacedByTokenId := some new }, ?_, hhash, hrev⟩
        rw [row_put hrests, hid, update_self]
      have hstored' : Stored
          (s.db.put pid claim.id { x with replacedByTokenId := some new }) id new expiresAt :=
        ⟨hpar, y, (row_of_put hrests hne).trans hy, hlive, hexpires⟩
      have hret :
          (s.goes pid (s.db.put pid claim.id { x with replacedByTokenId := some new })
            (.returned (.pair new))).calls pid = .returned (.pair new) :=
        update_self ..
      obtain ⟨rfl, rfl⟩ := hrest.stuck (by rw [hret]; rfl) (by rw [hret]; simp)
      rw [recoverable_of_stored hs' hspent' hstored' hret]
      refine (and_iff_left ⟨?_, trivial⟩).symm
      simp only [Unbroken, hat]

theorem rotation_storing {issue : Issue} {claim : Claim} (hat : s.calls pid = .storing issue)
    (hfrom : issue.from' = some claim) (hid : claim.id = id) (hspent : Spent s.db id r) :
    Recoverable t pid id r ↔ Along (tokenService days).step (Unbroken days r) s steps := by
  obtain ⟨_, _, _, -, hrest, hs', hturns, halong⟩ :=
    h.turns hs (by rw [hat]; simp) (by rw [hat]; rfl) (by rw [hat]; rfl)
  rw [halong]
  have hrests : Resting s.db pid := hs.resting pid (by rw [hat]; rfl)
  cases hturns with
  | dies =>
    refine iff_of_false (hrest.not_recoverable_dies hs' hspent) ?_
    rintro ⟨hunbroken, -⟩
    simp only [Unbroken, hat] at hunbroken
  | goes env db place hst =>
    have hunbroken : Unbroken days r s ⟨pid, .statement env⟩ ↔
        Fresh s.db env ∧ r.expiresAt ≤ env.now + days * 24 * 60 * 60 * 1000 := by
      simp only [Unbroken, hat]
    rw [hunbroken]
    rw [hat] at hst
    dsimp only [tokenStatement, storeToken] at hst
    split at hst
    · cases hst
    · rename_i hins
      cases hst
      obtain ⟨rfl, -⟩ := Versioned.insert_eq_done hins
      have hfresh : Fresh s.db env := fresh_of_done hrests hins
      have hparent : issue.from'.map (·.id) = some id := by
        rw [hfrom, ← hid]
        rfl
      rw [rotation_linking hrest hs' (by rw [hfrom]; exact update_self ..) hid
        (hspent.store hrests hfresh.1) (by rw [hparent]; exact stored_store hrests rfl)]
      exact ⟨fun h => ⟨⟨hfresh, h.1⟩, h.2⟩, fun h => ⟨h.1.2, h.2⟩⟩
    · rename_i hins
      exact absurd hins Versioned.insert_ne_unmatched
    · rename_i hins
      cases hst
      have hnot : ¬Recoverable t pid id r :=
        hrest.not_recoverable hs' hspent (Or.inl (update_self ..))
      exact iff_of_false hnot fun h => not_fresh_of_violated hs.sound hrests hins h.1.1

theorem rotation_finding {claim : Claim} {deviceLabel userAgent : Option String}
    (hat : s.calls pid = .finding claim deviceLabel userAgent) (hid : claim.id = id)
    (hspent : Spent s.db id r) :
    Recoverable t pid id r ↔ Along (tokenService days).step (Unbroken days r) s steps := by
  obtain ⟨_, _, _, -, hrest, hs', hturns, halong⟩ :=
    h.turns hs (by rw [hat]; simp) (by rw [hat]; rfl) (by rw [hat]; rfl)
  rw [halong]
  cases hturns with
  | dies =>
    refine iff_of_false (hrest.not_recoverable_dies hs' hspent) ?_
    rintro ⟨hunbroken, -⟩
    simp only [Unbroken, hat] at hunbroken
  | goes env db place hst =>
    have hunbroken : Unbroken days r s ⟨pid, .statement env⟩ ↔ env.userFound = true := by
      simp only [Unbroken, hat]
    rw [hunbroken]
    rw [hat] at hst
    dsimp only [tokenStatement, findUser] at hst
    split at hst
    · rename_i hfound
      cases hst
      rw [rotation_storing hrest hs' (update_self ..) rfl hid hspent]
      exact (and_iff_right hfound).symm
    · rename_i hmiss
      cases hst
      have hnot : ¬Recoverable t pid id r :=
        hrest.not_recoverable hs' hspent (Or.inr (update_self ..))
      exact iff_of_false hnot fun h => hmiss h.1

end

end

theorem findByHash_eq (hs : ChainSound db) (hrests : Resting db p) (hx : db.row id = some x) :
    db.findByHash p x.tokenHash = some id := by
  have hmem : ∀ k, k ∈ (db.tokens.select p fun r => r.tokenHash = x.tokenHash) ↔
      ∃ y, db.row k = some y ∧ y.tokenHash = x.tokenHash := by
    intro k
    rw [mem_select hrests.untouched]
    simp [TokenDb.row]
  unfold TokenDb.findByHash
  cases hhead : (db.tokens.select p fun r => r.tokenHash = x.tokenHash).head? with
  | none =>
    have hempty := head?_eq_none_iff.1 hhead
    have hid := (hmem id).2 ⟨x, hx, rfl⟩
    rw [hempty] at hid
    cases hid
  | some k =>
    obtain ⟨y, hy, hhash⟩ := (hmem k).1 (mem_of_head? hhead)
    rw [hs.apart k id y x hy hx hhash]

/-- An accepted token is claimed by the rotation that presents it, unless another transaction has
its row. -/
theorem claim_of_accepts {deviceLabel userAgent : Option String} (hs : ChainSound db)
    (hrests : Resting db p) (hx : db.row id = some x) (hlive : x.Live env.now) :
    claim env db p x.tokenHash deviceLabel userAgent = .waits ∨
      claim env db p x.tokenHash deviceLabel userAgent =
        .goes (db.put p id { x with revokedAt := some env.now, lastUsedAt := some env.now })
          (.finding ⟨id, x.userId, x.deviceLabel, x.userAgent, x.sessionStartedAt⟩ deviceLabel
            userAgent) := by
  have hget : db.tokens.get p id = some x :=
    hrests.untouched.get_eq.trans hx
  unfold claim
  rw [findByHash_eq hs hrests hx]
  rcases update_waits_or_done (fun r : RefreshToken => r.Live env.now)
    (fun r => { r with revokedAt := some env.now, lastUsedAt := some env.now }) hget hlive with
    hwaits | hdone
  · left
    simp only [hwaits]
  · right
    simp only [hdone]

theorem recoverable_iff (h : Rotation days s t pid steps id r) (hs : Steady s.db s.calls) :
    Recoverable t pid id r ↔ Along (tokenService days).step (Unbroken days r) s steps := by
  obtain ⟨⟨_, _, hat⟩, hrow, hlive, hown, hunexpired, hruns, hended⟩ := h
  have halone : Alone days s t pid steps := ⟨hown, hruns, hended⟩
  obtain ⟨_, _, _, hmem, hrest, hs', hturns, halong⟩ :=
    halone.turns hs (by rw [hat]; simp) (by rw [hat]; rfl) (by rw [hat]; rfl)
  rw [halong]
  have hrests : Resting s.db pid := hs.resting pid (by rw [hat]; rfl)
  cases hturns with
  | dies =>
    -- nothing is claimed yet
    have hfailed : (s.ends pid (s.db.rollback pid) .failed).calls pid = .failed :=
      update_self ..
    obtain ⟨rfl, rfl⟩ := hrest.stuck (by rw [hfailed]; rfl) (by rw [hfailed]; simp)
    refine iff_of_true ?_ ⟨by simp only [Unbroken, hat], trivial⟩
    intro now hnow
    exact Or.inl ⟨id, r, (congrFun (row_rollback s.db pid) id).trans hrow, rfl, hlive, hnow⟩
  | goes env db place hst =>
    have hnow : env.now < r.expiresAt := hunexpired _ hmem env rfl
    rw [hat] at hst
    rcases claim_of_accepts hs.sound hrests hrow ⟨hlive, hnow⟩ with hwaits | hclaim
    · cases hwaits.symm.trans hst
    · cases hclaim.symm.trans hst
      have hspent : Spent (s.db.put pid id
          { r with revokedAt := some env.now, lastUsedAt := some env.now }) id r := by
        refine ⟨{ r with revokedAt := some env.now, lastUsedAt := some env.now }, ?_, rfl,
          some_ne_none _⟩
        rw [row_put hrests, update_self]
      rw [rotation_finding hrest hs' (update_self ..) rfl hspent]
      refine (and_iff_right ?_).symm
      simp only [Unbroken, hat]

end Run

end Rotating

open Rotating Runs Transactions

/-- Whoever rotates and revokes at the same time, no chain has two live tokens; and a rotation
leaves its token accepted, or its caller with the one live descendant, exactly when nothing stops
it once it has claimed its token. -/
theorem rotation_run (days : ℕ) (es : List (Step TokenCall TokenEnv)) :
    Throughout (tokenService days).step OneLive ((tokenService days).start .empty) es ∧
      ∀ s t pid steps id r,
        runFrom (tokenService days).step ((tokenService days).start .empty) es = some s →
          Rotation days s t pid steps id r →
            (Recoverable t pid id r ↔
              Along (tokenService days).step (Unbroken days r) s steps) := by
  have hkeep : ∀ s e s', Steady s.db s.calls → (tokenService days).step s e = some s' →
      Steady s'.db s'.calls := fun _ _ _ h hstep => steady_step h hstep
  constructor
  · have hall : Along (tokenService days).step (fun _ _ => True)
        ((tokenService days).start .empty) es :=
      along_of_invariant (I := fun _ => True) (fun _ _ _ _ _ => trivial) (fun _ _ _ => trivial)
        trivial es
    exact throughout_of_along (I := fun s => Steady s.db s.calls)
      (fun _ h => oneLive_of_steady h) (fun s e s' h _ hstep => hkeep s e s' h hstep)
      (steady_start days) hall
  · intro s t pid steps id r hrun h
    exact recoverable_iff h
      (runFrom_invariant (I := fun s => Steady s.db s.calls) hkeep (steady_start days) hrun)

/-! ## Cut short -/

instance (db : TokenDb) (env : TokenEnv) : Decidable (Fresh db env) :=
  decidable_of_iff ((db.row env.newId).isNone = true ∧
      ∀ id ∈ db.tokens.keys, (db.row id).map (·.tokenHash) ≠ some env.newHash) <| by
    refine and_congr Option.isNone_iff_eq_none ⟨?_, ?_⟩
    · intro h id r hr heq
      refine h id (ReadCommitted.Versioned.mem_keys_of_committed hr) ?_
      rw [hr]
      exact congrArg some heq
    · intro h id _ heq
      obtain ⟨r, hr, hhash⟩ := Option.map_eq_some_iff.1 heq
      exact h id r hr hhash

/-- `Unbroken`, computed. -/
def unbroken (days : ℕ) (r : RefreshToken) (db : TokenDb) :
    TokenPlace → Action TokenCall TokenEnv → Bool
  | .finding .., .statement env => env.userFound
  | .storing _, .statement env =>
    decide (Fresh db env) && decide (r.expiresAt ≤ env.now + days * 24 * 60 * 60 * 1000)
  | .linking .., .statement _ => true
  | .finding .., _ => false
  | .storing _, _ => false
  | .linking .., _ => false
  | _, _ => true

theorem unbroken_iff {days : ℕ} {r : RefreshToken} {s : System TokenDb Unit TokenPlace}
    {e : Step TokenCall TokenEnv} :
    unbroken days r s.db (s.calls e.pid) e.action = true ↔ Unbroken days r s e := by
  unfold Unbroken unbroken
  split
  · exact Iff.rfl
  · rw [Bool.and_eq_true, decide_eq_true_eq, decide_eq_true_eq]
  · exact iff_of_true rfl trivial
  · exact iff_of_false Bool.false_ne_true id
  · exact iff_of_false Bool.false_ne_true id
  · exact iff_of_false Bool.false_ne_true id
  · exact iff_of_true rfl trivial

instance (days : ℕ) (r : RefreshToken) (s : System TokenDb Unit TokenPlace)
    (e : Step TokenCall TokenEnv) : Decidable (Unbroken days r s e) :=
  decidable_of_iff _ unbroken_iff

namespace CutShort

/-- A sign-in, and a rotation that is about to present its token. -/
def signedIn : List (Step TokenCall TokenEnv) :=
  ⟨0, .start (.issuePair 7 none none)⟩ :: Rotations.takes 0 1 0 1 "first" ++
    [⟨1, .start (.rotate "first" none none)⟩]

def token : RefreshToken where
  userId := 7
  tokenHash := "first"
  deviceLabel := none
  userAgent := none
  replacedByTokenId := none
  revokedAt := none
  expiresAt := 30 * 24 * 60 * 60 * 1000
  lastUsedAt := none
  sessionStartedAt := some 0

/-- The token is claimed, and the process stops. -/
def stopped : List (Step TokenCall TokenEnv) := Rotations.takes 1 1 10 2 "second" ++ [⟨1, .die⟩]

theorem unexpired {n : ℕ} (e : Step TokenCall TokenEnv) (he : e ∈ Rotations.takes 1 n 10 2 "second")
    (env : TokenEnv) (hact : e.action = .statement env) : env.now < token.expiresAt := by
  rw [List.eq_of_mem_replicate he] at hact
  cases hact
  decide

end CutShort

/-- A rotation that nothing stops. -/
theorem rotation_run_unbroken :
    ∃ s t, runFrom (tokenService 30).step ((tokenService 30).start .empty) CutShort.signedIn =
      some s ∧ Rotation 30 s t 1 (Rotations.takes 1 4 10 2 "second") 1 CutShort.token ∧
        Recoverable t 1 1 CutShort.token := by
  obtain ⟨s, hs, hat, hrow⟩ : ∃ s, runFrom (tokenService 30).step
      ((tokenService 30).start .empty) CutShort.signedIn = some s ∧
        s.calls 1 = .claiming "first" none none ∧ s.db.row 1 = some CutShort.token :=
    ⟨_, rfl, rfl, rfl⟩
  obtain ⟨t, ht, hended⟩ : ∃ t, runFrom (tokenService 30).step s
      (Rotations.takes 1 4 10 2 "second") = some t ∧ t.calls 1 = .returned (.pair 2) := by
    cases hs
    exact ⟨_, rfl, rfl⟩
  have hrotation : Rotation 30 s t 1 (Rotations.takes 1 4 10 2 "second") 1 CutShort.token :=
    ⟨⟨none, none, hat⟩, hrow, rfl, by decide, CutShort.unexpired, ht, by rw [hended]; rfl⟩
  refine ⟨s, t, hs, hrotation, ((rotation_run 30 CutShort.signedIn).2 s t 1 _ 1 CutShort.token hs
    hrotation).2 ?_⟩
  cases hs
  decide +kernel

/-- A rotation that is stopped when it has claimed its token is not recoverable. -/
theorem rotation_stopped_fails :
    ¬ ∀ (days : ℕ) (es : List (Step TokenCall TokenEnv)) s t pid steps id r,
      runFrom (tokenService days).step ((tokenService days).start .empty) es = some s →
        Rotation days s t pid steps id r → Recoverable t pid id r := by
  intro h
  obtain ⟨s, hs, hat, hrow⟩ : ∃ s, runFrom (tokenService 30).step
      ((tokenService 30).start .empty) CutShort.signedIn = some s ∧
        s.calls 1 = .claiming "first" none none ∧ s.db.row 1 = some CutShort.token :=
    ⟨_, rfl, rfl, rfl⟩
  obtain ⟨t, ht, hended, r, hr, hhash, hrev⟩ : ∃ t, runFrom (tokenService 30).step
      s CutShort.stopped = some t ∧ t.calls 1 = .failed ∧
        ∃ r, t.db.row 1 = some r ∧ r.tokenHash = "first" ∧ r.revokedAt = some 10 := by
    cases hs
    exact ⟨_, rfl, rfl, _, rfl, rfl, rfl⟩
  have hrotation : Rotation 30 s t 1 CutShort.stopped 1 CutShort.token := by
    refine ⟨⟨none, none, hat⟩, hrow, rfl, by decide, ?_, ht, by rw [hended]; rfl⟩
    intro e he env hact
    rcases List.mem_append.1 he with he | he
    · exact CutShort.unexpired e he env hact
    · rw [List.mem_singleton.1 he] at hact
      cases hact
  have hsteady : Steady t.db t.calls := by
    refine runFrom_invariant (I := fun s => Steady s.db s.calls)
      (fun _ _ _ h hstep => steady_step h hstep) ?_ ht
    exact runFrom_invariant (I := fun s => Steady s.db s.calls)
      (fun _ _ _ h hstep => steady_step h hstep) (steady_start 30) hs
  have hspent : Spent t.db 1 CutShort.token := ⟨r, hr, hhash, by rw [hrev]; simp⟩
  refine hspent.not_recoverable hsteady.sound ?_ (h 30 _ s t 1 _ 1 CutShort.token hs hrotation)
  intro new hret
  cases hended.symm.trans hret

end BeauClick.Identity
