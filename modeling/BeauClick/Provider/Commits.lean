import BeauClick.Provider.Statements

/-!
# The commits of the edits

* `Takes` — what a step keeps, commits included.
* `beside_commit`, `sound_commit` — the commit of an edit.
* `providerProof` — every step is one.
-/

namespace BeauClick.Provider

open Locks ReadCommitted ReadCommitted.Versioned Runs Transactions Function

variable {config : ProviderConfig} {env : ProviderEnv} {db db' : ProviderDb} {p q : ℕ}
  {place place' : ProviderPlace} {x y : ProfessionalEntity} {v : Transition} {kind : Kind}
  {e : Edit} {revision : ℕ}

/-- What a step keeps. -/
structure Takes (db : ProviderDb) (p : ℕ) (db' : ProviderDb) (place' : ProviderPlace) : Prop where
  sound : ProviderSound db'
  beside : ∀ q ≠ p, Beside q db db'
  work : ProviderWork db' p place'

theorem Passes.takes (h : Passes db p db' place') (hs : ProviderSound db) :
    Takes db p db' place' :=
  ⟨hs.of_same h.same h.apart, fun q hq => (h.leaves q hq).beside h.same, h.work⟩

/-! ## The end of a transaction -/

theorem leaves_commit (hq : q ≠ p) : Leaves q db (db.commit p) :=
  ⟨others_commit hq, others_commit hq, others_commit hq, others_commit hq,
    others_commit hq, others_commit hq, Journal.pending_commit_ne hq⟩

theorem leaves_rollback (hq : q ≠ p) : Leaves q db (db.rollback p) :=
  ⟨others_rollback hq, others_rollback hq, others_rollback hq,
    others_rollback hq, others_rollback hq, others_rollback hq,
    Journal.pending_rollback_ne hq⟩

theorem clean_commit : Clean (db.commit p) p :=
  ⟨untouched_commit, untouched_commit, untouched_commit, untouched_commit, untouched_commit,
    untouched_commit, Journal.pending_commit_self⟩

theorem clean_rollback : Clean (db.rollback p) p :=
  ⟨untouched_rollback, untouched_rollback, untouched_rollback, untouched_rollback,
    untouched_rollback, untouched_rollback, Journal.pending_rollback_self⟩

theorem same_rollback : SameCommitted db (db.rollback p) :=
  ⟨committed_rollback, committed_rollback, committed_rollback, committed_rollback,
    committed_rollback, committed_rollback, rfl⟩

theorem Clean.same_commit (h : Clean db p) : SameCommitted db (db.commit p) where
  professional := h.professional.committed_commit
  specialties := h.specialties.committed_commit
  services := h.services.committed_commit
  items := h.items.committed_commit
  objects := h.objects.committed_commit
  requests := h.requests.committed_commit
  outbox := by
    show (db.outbox.commit p).committed = _
    rw [Journal.committed_commit, h.outbox, List.append_nil]

theorem takes_rollback (hs : ProviderSound db) (hphase : place'.phase = .clean)
    (hread : ∀ db', HasRead db' place') : Takes db p (db.rollback p) place' := by
  refine ⟨hs.of_same same_rollback hs.apart.rollback, fun q hq =>
    (leaves_rollback hq).beside same_rollback, ?_, hread _⟩
  rw [hphase]
  exact clean_rollback

theorem takes_nothing (hs : ProviderSound db) (hclean : Clean db p) (e : Edit) :
    Takes db p (db.commit p) (.done e) :=
  ⟨hs.of_same hclean.same_commit hs.apart.commit, fun _ hq =>
    (leaves_commit hq).beside hclean.same_commit, clean_commit, trivial⟩

/-! ## The commit of an edit -/

theorem Token.version (h : Token db p v) :
    ∃ r, (db.requests.row v.requestId).Version r ∧ r.status = .pending := by
  obtain ⟨_, r, hrow, ⟨-, -, hpend⟩ | ⟨-, ⟨r₀, rfl, hpend⟩, -⟩⟩ := h.row
  · exact ⟨r, Or.inr ⟨p, by rw [hrow]⟩, hpend⟩
  · exact ⟨r₀, Or.inl (by rw [hrow]), hpend⟩

theorem Token.writtenBy (h : Token db p v) : (db.requests.row v.requestId).WrittenBy p := by
  obtain ⟨_, r, hrow, -⟩ := h.row
  exact ⟨r, by rw [hrow]⟩

theorem Token.unique {w : Transition} (h : Token db p v) (h' : Token db q w)
    (hs : ProviderSound db) : p = q := by
  obtain ⟨r, hr, hpend⟩ := h.version
  obtain ⟨r', hr', hpend'⟩ := h'.version
  have hsame := hs.apart _ _ r r' hr hr' ⟨hpend, hpend'⟩
  have hwrit := h'.writtenBy
  rw [← hsame] at hwrit
  exact Row.writtenBy_unique h.writtenBy hwrit

theorem Kind.Sets.status {bumps : ℕ} (h : kind.Sets bumps x y)
    (hkind : ∀ v, kind ≠ .edit (.profile (.verification v))) :
    y.verificationStatus = x.verificationStatus := by
  unfold Kind.Sets at h
  split at h
  · rw [h]
  · rename_i v
    exact absurd rfl (hkind v)
  · rw [h]
  · rw [h]

theorem Bumped.committed (h : Bumped kind revision db p) :
    ∃ x y, db.professional.committed () = some x ∧
      (db.commit p).professional.committed () = some y ∧ kind.Sets 1 x y ∧
      revision = x.revision + 1 := by
  obtain ⟨x, y, hrow, hsets, hrevision⟩ := h
  exact ⟨x, y, committed_of_row hrow, (wrote_of_row hrow).committed_commit, hsets,
    hrevision⟩

theorem Token.pending (h : Token db p v) (hs : ProviderSound db) :
    v.toStatus = .pending ↔ ∃ k, PendingRequest (db.commit p) k := by
  obtain ⟨_, r, hrow, hcase⟩ := h.row
  have hcomm : (db.commit p).requests.committed =
      update db.requests.committed v.requestId (some r) :=
    committed_commit_of_onlyAt (wrote_of_row hrow) h.only
  unfold PendingRequest
  rw [hcomm]
  constructor
  · intro hto
    rcases hcase with ⟨-, -, hpend⟩ | ⟨hne, -⟩
    · exact ⟨v.requestId, r, update_self .., hpend⟩
    · exact absurd hto hne
  · rintro ⟨k, _, hz, hpend⟩
    rcases hcase with ⟨hto, -⟩ | ⟨-, ⟨_, rfl, hpending₀⟩, hdec⟩
    · exact hto
    · exfalso
      by_cases hk : k = v.requestId
      · rw [hk, update_self] at hz
        cases hz
        exact hdec hpend
      · -- it would be a second one
        rw [update_of_ne hk] at hz
        exact hk (hs.apart.committed hz (committed_of_row hrow) ⟨hpend, hpending₀⟩)

section

variable (hs : ProviderSound db)
include hs

theorem sound_commit (honly : Only (.edit e) db p)
    (hbumped : Bumped (.edit e) revision db p) : ProviderSound (db.commit p) := by
  obtain ⟨x, y, hx, hy, hsets, -⟩ := hbumped.committed
  refine ⟨⟨y, hy⟩, hs.apart.commit, ?_⟩
  intro z hz
  cases hy.symm.trans hz
  rcases honly.requests with ⟨v, hkind, htoken⟩ | ⟨hkind, hunt⟩
  · rcases hkind with heq | heq
    · cases heq
    cases heq
    rw [hsets.1]
    exact htoken.pending hs
  · rw [hsets.status fun v => (hkind v).2]
    have hreqs : (db.commit p).requests.committed = db.requests.committed :=
      hunt.committed_commit
    unfold PendingRequest
    rw [hreqs]
    exact hs.pending x hx

theorem beside_commit (honly : Only (.edit e) db p)
    (hbumped : Bumped (.edit e) revision db p) (hq : q ≠ p) : Beside q db (db.commit p) := by
  have hleaves : Leaves q db (db.commit p) := leaves_commit hq
  refine ⟨hleaves.professional, hleaves.specialties, hleaves.services, hleaves.items,
    hleaves.objects, hleaves.requests, hleaves.outbox, ?_, ?_⟩
  · -- the row is the call's own
    intro hwrit
    obtain ⟨x, y, hrow, -⟩ := hbumped
    exact absurd (Row.writtenBy_unique (wrote_of_row hrow).writtenBy hwrit) hq.symm
  · rintro ⟨_, htoken⟩ x hx
    obtain ⟨_, y, hx', hy, hsets, -⟩ := hbumped.committed
    cases hx.symm.trans hx'
    refine ⟨y, hy, hsets.status ?_⟩
    rintro v heq
    cases heq
    exact hq (htoken.unique honly.token_moved hs)

theorem takes_finish (hw : ProviderWork db p (.finish e)) :
    Takes db p (db.commit p) (.done e) := by
  obtain ⟨⟨honly, _, hbumped, -⟩, -⟩ := hw
  exact ⟨sound_commit hs honly hbumped, fun _ hq => beside_commit hs honly hbumped hq,
    clean_commit, trivial⟩

/-! ## Every statement -/

theorem takes_commits (hw : ProviderWork db p place)
    (h : ∃ e, place' = .done e ∧ (place = .finish e ∨ Clean db p)) :
    Takes db p (db.commit p) place' := by
  obtain ⟨e, rfl, rfl | hclean⟩ := h
  · exact takes_finish hs hw
  · exact takes_nothing hs hclean e

theorem takes_throws (h : Threw place') :
    Takes db p (db.rollback p) place' := by
  cases place' with
  | failed | refused refusal => exact takes_rollback hs rfl fun _ => trivial
  | _ => exact h.elim

end

theorem first_phase (request : ProviderRequest) :
    request.first.phase = .clean ∧ ∀ db, HasRead db request.first := by
  cases request <;> exact ⟨rfl, fun _ => trivial⟩

theorem Takes.moves (h : Takes db p db' place') : providerOutline.Moves db p place db' place' :=
  ⟨keeps_of_beside h.sound h.beside, h.work⟩

/-- Each statement of an edit keeps the columns. -/
theorem providerProof (config : ProviderConfig) :
    FreeProof (providerService config) providerOutline where
  first db pid request hidle := by
    obtain ⟨hphase, hread⟩ := first_phase request
    refine ⟨?_, hread db⟩
    show request.first.phase.Work db pid
    rw [hphase]
    exact hidle.1
  statement env db pid place hm hs hw := (shown_statement config env hs hm hw).mono
    (fun _ _ h => (h.takes hs).moves) (fun _ _ _ h => h.elim)
    (fun _ h => (takes_commits hs hw h).moves) fun _ h => (takes_throws hs h).moves
  dies db pid _ _ hs _ :=
    have htakes : Takes db pid (db.rollback pid) .failed := takes_rollback hs rfl fun _ => trivial
    htakes.moves

end BeauClick.Provider
