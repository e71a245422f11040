import BeauClick.Identity.Rotation

/-!
# Replayed tokens

`handleUnclaimableToken` goes by the last revocation of a token, and takes one that has merely
expired for replayed.  (`revokeAndIdentify` is a `revokeById` of the row that it finds.)

* `gone_step` — a token that is revoked stays so.
* `detected_iff` — when the last revocation tells what the first one would.
* `claimedOnce_run` — a token is rotated at most once.
-/

namespace BeauClick.Identity.Rotating

open ReadCommitted Runs Transactions Versioned Option Function

variable {days : ℕ} {env : TokenEnv} {db : TokenDb} {p : ℕ} {id id' : Uuid} {r : RefreshToken}
  {calls : ℕ → TokenPlace}

/-! ## The first revocation -/

/-- The time at which a run comes to a first revocation of the token: its rotation, a logout, or
one of all tokens of the user. -/
def firstRevoked (days : ℕ) (id : Uuid) (s : System TokenDb Unit TokenPlace) :
    List (Step TokenCall TokenEnv) → Option Instant
  | [] => (s.db.row id).bind (·.revokedAt)
  | e :: es => ((s.db.row id).bind (·.revokedAt)).or
    (((tokenService days).step s e).bind fun s' => firstRevoked days id s' es)

/-- The call that has presented the token goes on to revoke all of the user's, exactly if the token
was first revoked longer ago than the grace. -/
def Detected (days : ℕ) (es : List (Step TokenCall TokenEnv)) (env : TokenEnv)
    (s : System TokenDb Unit TokenPlace) (pid : ℕ) (id : Uuid) (r : RefreshToken) : Prop :=
  tokenStatement days env s.db pid (s.calls pid) =
      .goes s.db (.revokingAll r.userId .unauthorized) ↔
    ∃ first, firstRevoked days id ((tokenService days).start .empty) es = some first ∧
      replayGraceMs < env.now - first

/-- The token was revoked, and its first and its last revocation are on one side of the grace. -/
def OneSided (days : ℕ) (es : List (Step TokenCall TokenEnv)) (now : Instant) (id : Uuid)
    (r : RefreshToken) : Prop :=
  ∃ first last, firstRevoked days id ((tokenService days).start .empty) es = some first ∧
    r.revokedAt = some last ∧ (replayGraceMs < now - first ↔ replayGraceMs ≤ now - last)

/-! ## What is revoked stays so -/

theorem gone_put {where' : RefreshToken → Prop} [DecidablePred where']
    {f : RefreshToken → RefreshToken} {tokens : Versioned ℕ Uuid RefreshToken}
    (hrests : Resting db p) (hupd : db.tokens.update p id where' f = .done r tokens)
    (hkeeps : ∀ x, KeepsRow x (f x)) (hg : Gone (db.row id')) : Gone ((db.put p id r).row id') := by
  obtain ⟨x, hget, -, -, rfl, -⟩ := update_eq_done hupd
  have hx : db.row id = some x := hrests.untouched.get_eq.symm.trans hget
  exact (aged_put hrests hx (hkeeps x)).gone hg

/-- A statement that goes on takes no revocation back. -/
abbrev Retains (db : TokenDb) (id : Uuid) : Next TokenDb Unit TokenPlace → Prop :=
  Next.Meets (fun db' _ => Gone (db.row id) → Gone (db'.row id)) (fun _ _ _ => True)
    (fun _ => True) (fun _ => True)

theorem retains_statement (h : Steady db calls) :
    Retains db id (tokenStatement days env db p (calls p)) := by
  have hrests := h.resting p
  generalize calls p = place at hrests ⊢
  cases place with
  | storing =>
    dsimp only [tokenStatement, storeToken]
    split
    · trivial
    · rename_i hins
      obtain ⟨rfl, -, -, hnone, -⟩ := insert_eq_done hins
      rw [(hrests rfl).untouched.get_eq] at hnone
      exact (progress_store (hrests rfl) hnone).gone
    · exact fun h => h
    · exact fun h => h
  | revokingAll => exact fun h => h
  | revokingRows userId revokedAt rest =>
    cases rest with
    | nil => trivial
    | cons id =>
      dsimp only [tokenStatement, revokeNext]
      split
      · trivial
      · rename_i hupd
        obtain ⟨x, -, -, -, rfl, rfl⟩ := update_eq_done hupd
        intro hg
        show Gone ((db.tokens.write p id _).committed _)
        rwa [committed_write]
      · exact fun h => h
      · exact fun h => h
  | idle | returned | failed => trivial
  | _ =>
    -- a row is updated in a transaction of its own, or nothing is written
    dsimp only [tokenStatement, claim, handleUnclaimable, findUser, link, revokeHash, revokeRow]
    repeat' split
    all_goals first
      | trivial
      | exact fun h => h
      | rename_i hupd
        exact gone_put (hrests rfl) hupd fun x => ⟨rfl, by simp⟩

section Run

variable {s s' : System TokenDb Unit TokenPlace} {e : Step TokenCall TokenEnv}
  {es : List (Step TokenCall TokenEnv)}

theorem gone_step (h : Steady s.db s.calls) (hstep : (tokenService days).step s e = some s')
    (hg : Gone (s.db.row id)) : Gone (s'.db.row id) := by
  cases Service.took_of_step hstep with
  | starts => exact hg
  | goes pid env db place hst => exact (retains_statement h).of_goes hst hg
  | locks pid env key mode place hst => exact (tokenStatement_ends.of_locks hst).elim
  | commits pid =>
    show Gone ((s.db.tokens.commit pid).committed id)
    by_cases hw : (s.db.tokens.row id).WrittenBy pid
    · obtain ⟨x, hx⟩ := hw
      exact ⟨x, Wrote.committed_commit hx, (h.sound.written id pid x hx).1⟩
    · rwa [committed_commit_of_not hw]
  | throws pid env place hst => exact (tokenStatement_ends.of_throws hst).elim
  | dies pid =>
    show Gone ((s.db.rollback pid).row id)
    rwa [row_rollback]

theorem firstRevoked_isSome (h : Steady s.db s.calls)
    (hrun : runFrom (tokenService days).step s es = some s') :
    (firstRevoked days id s es).isSome ↔ Gone (s'.db.row id) := by
  have hgone : ∀ t : System TokenDb Unit TokenPlace,
      ((t.db.row id).bind (·.revokedAt)).isSome ↔ Gone (t.db.row id) := by
    intro t
    cases ht : t.db.row id <;> simp [Gone, isSome_iff_ne_none]
  induction es generalizing s with
  | nil =>
    cases hrun
    exact hgone _
  | cons e es ih =>
    obtain ⟨t, hstep, hrest⟩ := runFrom_cons_eq_some.1 hrun
    have hsteady := steady_step h hstep
    have hafter := ih hsteady hrest
    rw [firstRevoked, hstep, isSome_or, Bool.or_eq_true, hgone]
    refine ⟨fun hor => hor.elim (fun hg => ?_) hafter.1, fun hg => Or.inr (hafter.2 hg)⟩
    -- what is revoked now is so after the rest of the run
    exact (runFrom_invariant (I := fun t => Steady t.db t.calls ∧ Gone (t.db.row id))
      (fun _ _ _ hI hstep => ⟨steady_step hI.1 hstep, gone_step hI.1 hstep hI.2⟩)
      ⟨hsteady, gone_step h hstep hg⟩ hrest).2

/-- A presented token is taken for replayed when it was, and only then, exactly if its first and its
last revocation are on one side of the grace. -/
theorem detected_iff {pid : ℕ}
    (hrun : runFrom (tokenService days).step ((tokenService days).start .empty) es = some s)
    (hat : s.calls pid = .unclaimable r.tokenHash) (hrow : s.db.row id = some r) :
    Detected days es env s pid id r ↔ OneSided days es env.now id r := by
  have hsteady : Steady s.db s.calls :=
    runFrom_invariant (I := fun s => Steady s.db s.calls)
      (fun _ _ _ h hstep => steady_step h hstep) (steady_start days) hrun
  have hrests : Resting s.db pid := hsteady.resting pid (by rw [hat]; rfl)
  have hfirst : (firstRevoked days id ((tokenService days).start .empty) es).isSome ↔
      Gone (s.db.row id) := firstRevoked_isSome (steady_start days) hrun
  have hstmt : tokenStatement days env s.db pid (s.calls pid) =
      if ∃ last ∈ r.revokedAt, env.now - last < replayGraceMs then
        .goes s.db (.returned .unauthorized)
      else .goes s.db (.revokingAll r.userId .unauthorized) := by
    rw [hat]
    dsimp only [tokenStatement, handleUnclaimable]
    rw [findByHash_eq hsteady.sound hrests hrow, bind_some,
      hrests.untouched.get_eq]
    change s.db.tokens.committed id = some r at hrow
    simp only [hrow]
    cases r.revokedAt with
    | none => simp
    | some => simp
  have hrevokes : tokenStatement days env s.db pid (s.calls pid) =
      .goes s.db (.revokingAll r.userId .unauthorized) ↔
        ¬∃ last ∈ r.revokedAt, env.now - last < replayGraceMs := by
    rw [hstmt]
    split
    · rename_i hrecent
      exact iff_of_false (by simp) (not_not.2 hrecent)
    · rename_i hlong
      exact iff_of_true rfl hlong
  rw [Detected, hrevokes]
  cases hlast : r.revokedAt with
  | none =>
    have hnone : firstRevoked days id ((tokenService days).start .empty) es = none := by
      rw [← not_isSome_iff_eq_none, hfirst]
      rintro ⟨_, hx, hrev⟩
      cases hrow.symm.trans hx
      exact hrev hlast
    simp [OneSided, hnone]
  | some =>
    obtain ⟨_, hsome⟩ := isSome_iff_exists.1
      (hfirst.2 ⟨r, hrow, by rw [hlast]; exact some_ne_none _⟩)
    simp [OneSided, hsome, hlast, iff_comm]

/-- A sign-in, and the token presented when it has expired. -/
def expired : List (Step TokenCall TokenEnv) :=
  ⟨0, .start (.issuePair 7 none none)⟩ :: Rotations.takes 0 1 0 1 "first" ++
    ⟨1, .start (.rotate "first" none none)⟩ ::
      Rotations.takes 1 1 2592000000 2 "second"

theorem expired_run : ∃ s, runFrom (tokenService 30).step ((tokenService 30).start .empty) expired =
    some s ∧ s.calls 1 = .unclaimable "first" ∧ s.db.row 1 = some CutShort.token :=
  ⟨_, rfl, rfl, rfl⟩

/-- The token at the time of its expiry. -/
theorem detected_iff_expired : ∃ s, runFrom (tokenService 30).step
    ((tokenService 30).start .empty) expired = some s ∧
      (Detected 30 expired ⟨2592000000, 2, "second", true⟩ s 1 1 CutShort.token ↔
        OneSided 30 expired 2592000000 1 CutShort.token) := by
  obtain ⟨s, hs, hat, hrow⟩ := expired_run
  exact ⟨s, hs, detected_iff hs hat hrow⟩

/-- A token that has merely expired ends all sessions. -/
theorem detected_expired_fails : ¬ ∀ days es env s pid id r,
    runFrom (tokenService days).step ((tokenService days).start .empty) es = some s →
      s.calls pid = .unclaimable r.tokenHash → s.db.row id = some r →
        Detected days es env s pid id r := by
  intro h
  obtain ⟨s, hs, hat, hrow⟩ := expired_run
  have hdetected := h 30 expired ⟨2592000000, 2, "second", true⟩ s 1 1 CutShort.token hs hat hrow
  obtain ⟨_, hfirst, -⟩ := hdetected.1 (by cases hs; rfl)
  cases hfirst

/-! ## One rotation of a token -/

/-- In the step a rotation claims the token. -/
def Claims (s s' : System TokenDb Unit TokenPlace) (pid : ℕ) (id : Uuid) : Prop :=
  (∃ hash label agent, s.calls pid = .claiming hash label agent) ∧
    ∃ claim label agent, s'.calls pid = .finding claim label agent ∧ claim.id = id

theorem gone_of_claims (h : Steady s.db s.calls) (hstep : (tokenService days).step s e = some s')
    (hclaims : Claims s s' e.pid id) : ¬Gone (s.db.row id) ∧ Gone (s'.db.row id) := by
  obtain ⟨⟨hash, label, agent, hat⟩, c, label', agent', hnext, rfl⟩ := hclaims
  have hrests : Resting s.db e.pid := h.resting e.pid (by rw [hat]; rfl)
  cases Service.took_of_step hstep with
  | starts pid request hidle => cases hidle.symm.trans hat
  | goes pid env db place hst =>
    obtain rfl : place = .finding c label' agent' := (update_self ..).symm.trans hnext
    rw [show s.calls pid = _ from hat] at hst
    simp only [tokenService, tokenStatement, claim] at hst
    split at hst
    · cases hst
    rename_i id hfound
    split at hst
    · cases hst
    · rename_i hupd
      cases hst
      obtain ⟨x, hget, hlive, -, rfl, -⟩ := update_eq_done hupd
      refine ⟨?_, _, (congrFun (row_put hrests) id).trans (update_self ..),
        some_ne_none _⟩
      rintro ⟨r, hr, hrev⟩
      cases (hrests.untouched.get_eq.symm.trans hget).symm.trans hr
      exact hrev hlive.1
    · cases hst
    · cases hst
  | locks pid env key mode place hst hgrants => exact (tokenStatement_ends.of_locks hst).elim
  | commits pid env place hst =>
    obtain ⟨_, _, _, hplace, -⟩ := tokenStatement_ends.of_commits hst
    cases hplace.symm.trans hat
  | throws pid env place hst => exact (tokenStatement_ends.of_throws hst).elim
  | dies pid hrun =>
    have hfailed : TokenPlace.failed = .finding c label' agent' :=
      (update_self ..).symm.trans hnext
    cases hfailed

/-- Whatever calls are at work, a token that a rotation has claimed is revoked ever after, and no
rotation claims it again. -/
theorem claimedOnce_run {es' : List (Step TokenCall TokenEnv)} {t : System TokenDb Unit TokenPlace}
    (hrun : runFrom (tokenService days).step ((tokenService days).start .empty) es = some s)
    (hstep : (tokenService days).step s e = some s') (hclaims : Claims s s' e.pid id)
    (hrest : runFrom (tokenService days).step s' es' = some t) :
    Gone (t.db.row id) ∧ ∀ e' t', (tokenService days).step t e' = some t' →
      ¬Claims t t' e'.pid id := by
  have hsteady : Steady s.db s.calls :=
    runFrom_invariant (I := fun s => Steady s.db s.calls)
      (fun _ _ _ h hstep => steady_step h hstep) (steady_start days) hrun
  obtain ⟨ht, hgone⟩ := runFrom_invariant (I := fun t => Steady t.db t.calls ∧ Gone (t.db.row id))
    (fun _ _ _ hI hstep => ⟨steady_step hI.1 hstep, gone_step hI.1 hstep hI.2⟩)
    ⟨steady_step hsteady hstep, (gone_of_claims hsteady hstep hclaims).2⟩ hrest
  exact ⟨hgone, fun e' t' hstep' hclaims' => (gone_of_claims ht hstep' hclaims').1 hgone⟩

theorem claimedOnce_run_twice : ∃ s s' t,
    runFrom (tokenService 30).step ((tokenService 30).start .empty)
      (CutShort.signedIn ++ [⟨2, .start (.rotate "first" none none)⟩]) = some s ∧
    (tokenService 30).step s ⟨1, .statement ⟨10, 2, "second", true⟩⟩ = some s' ∧
    runFrom (tokenService 30).step s' (Rotations.takes 2 1 11 3 "third") = some t ∧
    Gone (t.db.row 1) ∧ ∀ e' t', (tokenService 30).step t e' = some t' →
      ¬Claims t t' e'.pid 1 := by
  obtain ⟨s, s', t, hs, hstep, ht, hclaims⟩ : ∃ s s' t,
      runFrom (tokenService 30).step ((tokenService 30).start .empty)
        (CutShort.signedIn ++ [⟨2, .start (.rotate "first" none none)⟩]) = some s ∧
      (tokenService 30).step s ⟨1, .statement ⟨10, 2, "second", true⟩⟩ = some s' ∧
      runFrom (tokenService 30).step s' (Rotations.takes 2 1 11 3 "third") = some t ∧
      Claims s s' 1 1 :=
    ⟨_, _, _, rfl, rfl, rfl, ⟨_, _, _, rfl⟩, _, _, _, rfl, rfl⟩
  exact ⟨s, s', t, hs, hstep, ht, claimedOnce_run hs hstep hclaims ht⟩

end Run

end BeauClick.Identity.Rotating
