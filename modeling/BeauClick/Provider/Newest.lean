import BeauClick.Provider.Columns
import BeauClick.Provider.Views

/-!
# The newest event carries what is committed

The revision is bumped in the transaction that writes the event.

* `NewestCarries` — of a topic the newest event tells what is committed.
* `Timely` — what an edit has read is what it would read where it takes its revision.
* `newest_commit` — the commit of such an edit.
* `newestCarries_run` — every run of them.
-/

namespace BeauClick.Provider

open Locks ReadCommitted ReadCommitted.Versioned Runs Transactions List

variable {config : ProviderConfig} {env : ProviderEnv} {db db' : ProviderDb} {p q : ℕ}
  {place place' : ProviderPlace} {x y : ProfessionalEntity} {e : Edit} {event : ProviderEvent}
  {revision : ℕ} {kind : Kind}

/-! ## The property -/

/-- Of the events about one thing, the one with the highest revision tells what is committed. -/
def NewestTells (config : ProviderConfig) (db : ProviderDb) : Prop :=
  ∀ event ∈ db.outbox.committed,
    (∀ other ∈ db.outbox.committed, other.topic = event.topic → other.revision ≤ event.revision) →
      Tells config db event

/-- The event is followed by the profile under the same revision. -/
def Topic.leads : Topic → Prop
  | .verification => True
  | .service _ => True
  | _ => False

/-- Two events share a revision only where one edit emits them one after the other. -/
def Shared (events : List ProviderEvent) : Prop :=
  ∀ i j a b, i < j → events[i]? = some a → events[j]? = some b → a.revision = b.revision →
    j = i + 1 ∧ a.topic.leads ∧ b.topic = .profile

/-- What the events of the professional carry. -/
structure NewestCarries (config : ProviderConfig) (db : ProviderDb) : Prop where
  newest : NewestTells config db
  shared : Shared db.outbox.committed

/-- No event has a revision that the professional has not had. -/
def Bounded (db : ProviderDb) : Prop :=
  ∀ event ∈ db.outbox.committed, ∀ x ∈ db.professional.committed (), event.revision ≤ x.revision

/-! ## What an edit tells -/

/-- What a call has read, it still reads. -/
def Reads (config : ProviderConfig) (db : ProviderDb) (p : ℕ) : ProviderPlace → Prop
  | .announceService k service _ =>
    (db.services.get p k).map ServiceOfferingEntity.snapshot = some service.snapshot
  | .announceMedia _ imagery _ => imagerySeen config db p = imagery
  | .announceProfile _ profile _ => profileSeen config db p = some profile
  | _ => True

/-- What a call has emitted tells what it reads. -/
structure Truthful (config : ProviderConfig) (db : ProviderDb) (p : ℕ) (place : ProviderPlace) :
    Prop where
  pending : ∀ event ∈ db.outbox.pending p, Carries config db p event
  reads : Reads config db p place

/-- Where an edit takes its revision, what it has read is what it would read. -/
def Timely (config : ProviderConfig) (db : ProviderDb) (p : ℕ) : ProviderPlace → Prop
  | .bumpProfile profile => profileSeen config db p = some profile
  | .bumpService k service =>
    (db.services.get p k).map ServiceOfferingEntity.snapshot = some service.snapshot
  | .bumpMedia _ imagery => imagerySeen config db p = imagery
  | _ => True

/-- What holds of the tables, and what a call relies on, where the edits are timely. -/
def announcingOutline (config : ProviderConfig) :
    Outline ProviderDb Unit ProviderPlace ProviderEnv where
  Assumes := fun _ db p place => Unhurried db p place ∧ Timely config db p place
  Sound := fun db => ProviderSound db ∧ NewestCarries config db ∧ Bounded db
  Guarantee := fun _ _ => True
  Work := fun db p place => ProviderWork db p place ∧ Truthful config db p place
  holds := fun _ _ _ => False

/-! ## A call that has no revision yet -/

/-- The call has no revision yet. -/
def ProviderPlace.silent (place : ProviderPlace) : Prop :=
  match place.phase with
  | .clean => True
  | .edits _ => True
  | _ => False

open ProviderPlace

theorem pending_of_silent (hw : ProviderWork db p place) (h : place.silent) :
    db.outbox.pending p = [] := by
  obtain ⟨hphase, -⟩ := hw
  unfold silent at h
  cases hp : place.phase with
  | clean =>
    rw [hp] at hphase
    exact Clean.outbox hphase
  | edits =>
    rw [hp] at hphase
    exact hphase.2.2
  | _ =>
    rw [hp] at h
    exact absurd h id

theorem reads_of_silent (h : place.silent) : Reads config db p place := by
  cases place with
  | announceService | announceMedia | announceProfile => exact absurd h id
  | _ => trivial

theorem truthful_of_silent (hw : ProviderWork db p place) (h : place.silent) :
    Truthful config db p place := by
  refine ⟨?_, reads_of_silent h⟩
  rw [pending_of_silent hw h]
  simp

theorem writtenBy_of_not_silent (hw : ProviderWork db p place) (h : ¬place.silent) :
    (db.professional.row ()).WrittenBy p := by
  obtain ⟨hphase, -⟩ := hw
  have hbumped : ∀ {kind revision}, Bumped kind revision db p →
      (db.professional.row ()).WrittenBy p := by
    rintro kind revision ⟨_, _, hrow, -⟩
    exact (wrote_of_row hrow).writtenBy
  unfold silent at h
  cases hp : place.phase with
  | clean | edits =>
    rw [hp] at h
    exact absurd trivial h
  | bumped | begun =>
    rw [hp] at hphase
    exact hbumped hphase.2.1
  | announced =>
    rw [hp] at hphase
    obtain ⟨-, _, hb, -⟩ := hphase
    exact hbumped hb

theorem Reads.alike (h : Reads config db p place) (ha : Alike db p db' p) :
    Reads config db' p place := by
  cases place with
  | announceService k =>
    show (db'.services.get p k).map _ = _
    rw [ha.services]
    exact h
  | announceMedia e imagery => exact ha.imagery.trans h
  | announceProfile e profile => exact ha.profile.trans h
  | _ => trivial

theorem Truthful.beside (h : Truthful config db q place) (hw : ProviderWork db q place)
    (hb : Beside q db db') : Truthful config db' q place := by
  by_cases hsilent : place.silent
  · exact truthful_of_silent (providerWork_beside hw hb) hsilent
  · have hwrit := writtenBy_of_not_silent hw hsilent
    obtain ⟨y, hy⟩ := hwrit
    have halike : Alike db q db' q := (hb.view ⟨y, hy⟩).alike (Wrote.get_eq hy)
    refine ⟨?_, h.reads.alike halike⟩
    rw [hb.outbox]
    exact fun event hev => (h.pending event hev).alike halike

/-! ## The statements -/

theorem bumpRevision_goes {next : ℕ → ProviderPlace}
    (hst : bumpRevision db p next = .goes db' place') :
    ∃ revision, place' = next revision ∧ Alike db p db' p ∧ db'.outbox = db.outbox := by
  unfold bumpRevision at hst
  split at hst
  · cases hst
  · rename_i hupd
    cases hst
    obtain ⟨x, hget, -, -, rfl, rfl⟩ := update_eq_done hupd
    exact ⟨_, rfl, ⟨⟨x, x.bump, hget, get_write_self, rfl⟩, fun _ => rfl, fun _ => rfl,
      fun _ => rfl, fun _ => rfl⟩, rfl⟩
  · cases hst

theorem truthful_bump {next : ℕ → ProviderPlace} (hw : ProviderWork db p place)
    (hsilent : place.silent) (hst : bumpRevision db p next = .goes db' place')
    (hreads : ∀ revision, Alike db p db' p → Reads config db' p (next revision)) :
    Truthful config db' p place' := by
  obtain ⟨revision, rfl, halike, hout⟩ := bumpRevision_goes hst
  refine ⟨?_, hreads revision halike⟩
  rw [hout, pending_of_silent hw hsilent]
  simp

theorem truthful_emit {next : ProviderPlace} (hst : emit db p event next = .goes db' place')
    (hx : db.professional.get p () = some x) (ht : Truthful config db p place)
    (hev : Carries config db p event) (hnext : ∀ db', Reads config db' p next) :
    Truthful config db' p place' := by
  cases hst
  have halike : Alike db p { db with outbox := db.outbox.append p event } p :=
    ⟨⟨x, x, hx, hx, rfl⟩, fun _ => rfl, fun _ => rfl, fun _ => rfl, fun _ => rfl⟩
  refine ⟨?_, hnext _⟩
  intro told htold
  rw [Journal.pending_append_self] at htold
  rcases mem_append.1 htold with hold | hnew
  · exact (ht.pending told hold).alike halike
  · rw [mem_singleton.1 hnew]
    exact hev.alike halike

theorem truthful_statement (config : ProviderConfig) (env : ProviderEnv)
    (hm : Timely config db p place) (hw : ProviderWork db p place) (ht : Truthful config db p place)
    (hw' : ProviderWork db' p place')
    (hst : providerStatement config env db p place = .goes db' place') :
    Truthful config db' p place' := by
  have hrow : ¬place.silent → ∃ x, db.professional.get p () = some x := by
    intro h
    obtain ⟨y, hy⟩ := writtenBy_of_not_silent hw h
    exact ⟨y, Wrote.get_eq hy⟩
  cases place with
  | bumpProfile profile =>
    exact truthful_bump hw trivial hst fun _ halike => halike.profile.trans hm
  | bumpService k =>
    refine truthful_bump hw trivial hst fun _ halike => ?_
    show (db'.services.get p k).map _ = _
    rw [halike.services]
    exact hm
  | bumpMedia e imagery =>
    exact truthful_bump hw trivial hst fun _ halike => halike.imagery.trans hm
  | bumpVerification => exact truthful_bump hw trivial hst fun _ _ => trivial
  | announceService | announceMedia =>
    obtain ⟨x, hx⟩ := hrow id
    exact truthful_emit hst hx ht ht.reads fun _ => trivial
  | announceVerification =>
    obtain ⟨x, hx⟩ := hrow id
    exact truthful_emit hst hx ht trivial fun _ => trivial
  | announceProfile =>
    obtain ⟨_, hx⟩ := hrow id
    exact truthful_emit hst hx ht ht.reads fun _ => trivial
  | readChanged =>
    simp only [providerStatement, part, announceStatement] at hst
    split at hst
    · cases hst
    rename_i profile hprof
    cases hst
    exact ⟨ht.pending, hprof⟩
  | insertSpecialties e row added =>
    refine truthful_of_silent hw' ?_
    cases added with
    | nil =>
      cases hst
      trivial
    | cons =>
      simp only [providerStatement, part, updateStatement] at hst
      split at hst
      all_goals cases hst
      trivial
  | removeSpecialties removed =>
    refine truthful_of_silent hw' ?_
    cases removed with
    | nil =>
      cases hst
      trivial
    | cons =>
      simp only [providerStatement, part, updateStatement] at hst
      split at hst
      all_goals
        cases hst
        try trivial
  | _ =>
    refine truthful_of_silent hw' ?_
    simp only [providerStatement, part, updateStatement, serviceStatement,
      portfolioStatement, verificationStatement, announceStatement] at hst
    repeat' split at hst
    all_goals
      cases hst
      try trivial

/-! ## The commit of an edit -/

/-- What the events of an edit are about. -/
def Edit.topics : Edit → List Topic
  | .profile .profile => [.profile]
  | .profile (.service k) => [.service k, .profile]
  | .profile (.verification _) => [.verification, .profile]
  | .media _ => [.imagery]

theorem Announced.events {events : List ProviderEvent} (h : Announced revision events e) :
    events.map ProviderEvent.topic = e.topics ∧ (∀ event ∈ events, event.revision = revision) ∧
      Shared events := by
  have hone : ∀ a : ProviderEvent, Shared [a] := by
    intro a i j b c hij hi hj
    have hi' := (List.getElem?_eq_some_iff.1 hi).1
    have hj' := (List.getElem?_eq_some_iff.1 hj).1
    simp only [List.length_singleton] at hi' hj'
    omega
  have htwo : ∀ a b : ProviderEvent, a.topic.leads → b.topic = .profile → Shared [a, b] := by
    intro a b ha hb i j c d hij hi hj _
    have hj' := (List.getElem?_eq_some_iff.1 hj).1
    simp only [List.length_cons, List.length_nil] at hj'
    obtain ⟨rfl, rfl⟩ : i = 0 ∧ j = 1 := by omega
    cases hi
    cases hj
    exact ⟨rfl, ha, hb⟩
  rcases e with (_ | k | v) | _
  · obtain ⟨first, profile, t, rfl, rfl⟩ := h
    exact ⟨rfl, by simp [ProviderEvent.revision], hone _⟩
  · obtain ⟨first, profile, t, ⟨_, t', rfl⟩, rfl⟩ := h
    exact ⟨rfl, by simp [ProviderEvent.revision], htwo _ _ trivial rfl⟩
  · obtain ⟨_, _, t, ⟨_, _, rfl⟩, rfl⟩ := h
    exact ⟨rfl, by simp [ProviderEvent.revision], htwo _ _ trivial rfl⟩
  · obtain ⟨_, _, rfl⟩ := h
    exact ⟨rfl, by simp [ProviderEvent.revision], hone _⟩

theorem Shared.append {events news : List ProviderEvent} (h : Shared events) (hn : Shared news)
    (hlt : ∀ a ∈ events, ∀ b ∈ news, a.revision < b.revision) : Shared (events ++ news) := by
  intro i j a b hij ha hb hrevision
  by_cases hj : j < events.length
  · rw [getElem?_append_left hj] at hb
    rw [getElem?_append_left (hij.trans hj)] at ha
    exact h i j a b hij ha hb hrevision
  · rw [not_lt] at hj
    rw [getElem?_append_right hj] at hb
    by_cases hi : i < events.length
    · rw [getElem?_append_left hi] at ha
      have hbelow := hlt a (mem_of_getElem? ha) b (mem_of_getElem? hb)
      omega
    · rw [not_lt] at hi
      rw [getElem?_append_right hi] at ha
      obtain ⟨_, hleads⟩ := hn _ _ a b (by omega) ha hb hrevision
      exact ⟨by omega, hleads⟩

theorem Kind.Sets.profile {e : MediaEdit} (h : e.kind.Sets 1 x y) :
    y.displayName = x.displayName ∧ y.bio = x.bio ∧ y.cityId = x.cityId ∧
      y.verificationStatus = x.verificationStatus ∧ y.deletedAt = x.deletedAt := by
  cases e with
  | portfolio =>
    have hy : y = { x with revision := x.revision + 1 } := h
    rw [hy]
    exact ⟨rfl, rfl, rfl, rfl, rfl⟩
  | profileImage =>
    have hy : y = { x with
      avatarMediaId := y.avatarMediaId
      coverMediaId := y.coverMediaId
      revision := x.revision + 1 } := h
    rw [hy]
    exact ⟨rfl, rfl, rfl, rfl, rfl⟩

theorem Kind.Sets.avatar {e : ProfileEdit} (h : e.kind.Sets 1 x y) :
    y.avatarMediaId = x.avatarMediaId := by
  have hleaves := h.leaves.images
  by_contra hne
  exact hleaves (Or.inl hne)

theorem Only.untold (honly : Only (.edit e) db p) (hbumped : Bumped (.edit e) revision db p)
    (htopic : event.topic ∉ e.topics) (h : Tells config db event) :
    Tells config (db.commit p) event := by
  obtain ⟨x, y, hx, hy, hsets, -⟩ := hbumped.committed
  have hx' : db.settle.professional.get 0 () = some x := get_settle.trans hx
  have hy' : (db.commit p).settle.professional.get 0 () = some y := get_settle.trans hy
  cases event with
  | professionalUpdated r profile =>
    cases e with
    | profile e => cases e <;> exact absurd htopic (by simp [Edit.topics, ProviderEvent.topic])
    | media =>
      have hsame : (db.commit p).specialties.committed = db.specialties.committed :=
        (honly.specialties.resolve_left (by simp)).committed_commit
      have hseen : profileSeen config (db.commit p).settle 0 = profileSeen config db.settle 0 :=
        profileSeen_congr hx' hy' hsets.profile fun k =>
          get_settle.trans ((congrFun hsame k).trans get_settle.symm)
      exact hseen.trans h
  | professionalVerificationChanged => trivial
  | serviceOfferingUpdated r k =>
    have hsame : (db.commit p).services.committed k = db.services.committed k := by
      rcases honly.services with ⟨_, hkind, hat⟩ | hunt
      · cases hkind
        refine committed_commit_of_not fun hwrit => htopic ?_
        rw [← hat k hwrit]
        exact mem_cons_self
      · exact congrFun hunt.committed_commit k
    show ((db.commit p).settle.services.get 0 k).map _ = _
    have hget : (db.commit p).settle.services.get 0 k = db.settle.services.get 0 k :=
      get_settle.trans (hsame.trans get_settle.symm)
    rw [hget]
    exact h
  | professionalMediaChanged =>
    cases e with
    | media => exact absurd htopic (by simp [Edit.topics, ProviderEvent.topic])
    | profile =>
      have hitems : (db.commit p).items.committed = db.items.committed :=
        (honly.items.resolve_left (by simp)).committed_commit
      have hobjs : (db.commit p).objects.committed = db.objects.committed :=
        (honly.objects.resolve_left (by simp)).committed_commit
      have hseen : imagerySeen config (db.commit p).settle 0 = imagerySeen config db.settle 0 :=
        imagerySeen_congr hx' hy' hsets.avatar
          (fun k => get_settle.trans ((congrFun hitems k).trans get_settle.symm))
          fun k => get_settle.trans ((congrFun hobjs k).trans get_settle.symm)
      exact hseen.trans h

theorem newest_commit (hn : NewestCarries config db) (hb : Bounded db)
    (hw : ProviderWork db p (.finish e)) (ht : Truthful config db p (.finish e)) :
    NewestCarries config (db.commit p) ∧ Bounded (db.commit p) := by
  obtain ⟨⟨honly, revision, hbumped, hannounced⟩, -⟩ := hw
  obtain ⟨htopics, hrevision, hshared⟩ := hannounced.events
  obtain ⟨x, _, hx, hy, hsets, heq⟩ := hbumped.committed
  have hlt : ∀ a ∈ db.outbox.committed, ∀ b ∈ db.outbox.pending p, a.revision < b.revision := by
    intro a ha b hpend
    rw [hrevision b hpend, heq]
    exact Nat.lt_succ_of_le (hb a ha x hx)
  refine ⟨⟨?_, ?_⟩, ?_⟩
  · intro event hev hnewest
    rcases mem_append.1 hev with hold | hnew
    · -- no new event is about the same thing
      refine honly.untold hbumped ?_ (hn.newest event hold fun other hother =>
        hnewest other (mem_append_left _ hother))
      intro htopic
      rw [← htopics] at htopic
      obtain ⟨other, hother, hsame⟩ := mem_map.1 htopic
      have hle := hnewest other (mem_append_right _ hother) hsame
      exact absurd (hlt event hold other hother) (not_lt.2 hle)
    · obtain ⟨z, _, hrow, -⟩ := hbumped
      exact (ht.pending event hnew).alike (alike_commit (wrote_of_row hrow).get_eq)
  · exact hn.shared.append hshared hlt
  · intro event hev z hz
    cases hy.symm.trans hz
    rw [hsets.revision]
    rcases mem_append.1 hev with hold | hnew
    · exact (hb event hold x hx).trans (Nat.le_succ _)
    · rw [hrevision event hnew, heq]

theorem newest_of_same (hs : ProviderSound db) (hc : SameCommitted db db')
    (hn : NewestCarries config db ∧ Bounded db) : NewestCarries config db' ∧ Bounded db' := by
  obtain ⟨_, hx⟩ := hs.there
  obtain ⟨⟨hnewest, hshared⟩, hbounded⟩ := hn
  refine ⟨⟨?_, ?_⟩, ?_⟩
  · unfold NewestTells
    rw [hc.outbox]
    exact fun event hev hall => (hnewest event hev hall).alike (hc.alike hx)
  · rw [hc.outbox]
    exact hshared
  · unfold Bounded
    rw [hc.outbox, hc.professional]
    exact hbounded

/-! ## Every run -/

theorem Takes.announcing (h : Takes db p db' place') (hn : NewestCarries config db' ∧ Bounded db') :
    (announcingOutline config).Keeps db p place db' where
  sound := ⟨h.sound, hn⟩
  guarantee := trivial
  others := fun q _ hq _ hw =>
    ⟨providerWork_beside hw.1 (h.beside q hq), hw.2.beside hw.1 (h.beside q hq)⟩

theorem announcing_rollback (hs : (announcingOutline config).Sound db)
    (htakes : Takes db p (db.rollback p) place') (hsilent : place'.silent) :
    (announcingOutline config).Moves db p place (db.rollback p) place' :=
  ⟨htakes.announcing (newest_of_same hs.1 same_rollback hs.2), htakes.work,
    truthful_of_silent htakes.work hsilent⟩

theorem first_silent (request : ProviderRequest) : request.first.silent := by
  cases request <;> trivial

/-- Each statement of an edit keeps the newest events. -/
theorem announcingProof (config : ProviderConfig) :
    FreeProof (providerService config) (announcingOutline config) where
  first db pid request hidle :=
    have hwork := (providerProof config).first db pid request hidle.1
    ⟨hwork, truthful_of_silent hwork (first_silent request)⟩
  statement env db pid place hm hs hw := by
    have hshown := shown_statement config env hs.1 hm.1 hw.1
    show (providerStatement config env db pid place).Meets _ _ _ _
    cases hst : providerStatement config env db pid place with
    | waits => trivial
    | goes =>
      have hpasses := hshown.of_goes hst
      have htakes := hpasses.takes hs.1
      exact ⟨htakes.announcing (newest_of_same hs.1 hpasses.same hs.2),
        htakes.work, truthful_statement config env hm.2 hw.1 hw.2 htakes.work hst⟩
    | locks => exact (hshown.of_locks hst).elim
    | commits =>
      have hcmt := hshown.of_commits hst
      have htakes := takes_commits hs.1 hw.1 hcmt
      have hnewest : NewestCarries config (db.commit pid) ∧ Bounded (db.commit pid) := by
        obtain ⟨e, rfl, rfl | hclean⟩ := hcmt
        · exact newest_commit hs.2.1 hs.2.2 hw.1 hw.2
        · exact newest_of_same hs.1 hclean.same_commit hs.2
      obtain ⟨_, rfl, -⟩ := hcmt
      exact ⟨htakes.announcing hnewest, htakes.work, truthful_of_silent htakes.work trivial⟩
    | throws place' =>
      have hthrew := hshown.of_throws hst
      have hsilent : place'.silent := by
        cases place' with
        | failed | refused refusal => trivial
        | _ => exact hthrew.elim
      exact announcing_rollback hs (takes_throws hs.1 hthrew) hsilent
  dies db pid _ _ hs _ :=
    have htakes : Takes db pid (db.rollback pid) .failed :=
      takes_rollback hs.1 rfl fun _ => trivial
    announcing_rollback hs htakes trivial

/-- However many edits there are at the same time: as long as every `save` finds the columns that
it does not own as it has read them, and every edit has read what it would read where it takes its
revision, the newest events carry what is committed, and two of them share a revision only where
one edit emits them one after the other. -/
theorem newestCarries_run (hopening : Opening db) (hnewest : NewestCarries config db)
    (hbounded : Bounded db) {es : List (Step ProviderRequest ProviderEnv)}
    (htimely : Along (providerService config).step (announcingOutline config).Meets
      ((providerService config).start db) es) :
    Throughout (providerService config).step (fun s => NewestCarries config s.db)
      ((providerService config).start db) es := by
  have P := (announcingProof config).proof
  have hstart : (announcingOutline config).Holds ((providerService config).start db) := by
    refine P.holds_start ⟨hopening.sound, hnewest, hbounded⟩ fun q => ?_
    have hwork : ProviderWork db q .idle := ⟨hopening.clean q, trivial⟩
    exact ⟨hwork, truthful_of_silent hwork trivial⟩
  refine throughout_of_along ?_ ?_ hstart htimely
  · exact fun s h => h.sound.2.1
  · exact fun s e s' h hm hstep => (P.holds_step h hm hstep).1

/-! ## Edits that read too early -/

instance : Decidable (Carries config db p event) := by
  unfold Carries
  split <;> infer_instance

instance : Decidable (Timely config db p place) := by
  unfold Timely
  split <;> infer_instance

instance (env : ProviderEnv) : Decidable ((announcingOutline config).Assumes env db p place) :=
  inferInstanceAs (Decidable (Unhurried db p place ∧ Timely config db p place))

instance : Decidable (NewestTells config db) :=
  inferInstanceAs (Decidable (∀ event ∈ db.outbox.committed,
    (∀ other ∈ db.outbox.committed, other.topic = event.topic → other.revision ≤ event.revision) →
      Carries config db.settle 0 event))

namespace OneProfessional

/-- One specialty, and no city. -/
def hair : ProviderConfig :=
  ⟨fun _ => none, fun id => if id = 3 then some "hair" else none, fun key => key⟩

/-- The user sets the specialty. -/
def specialize : ProviderRequest := .update ⟨7, none, none, none, some [3]⟩

/-- A service is created while the specialty is set, and before the profile is read; then the
image is set. -/
def timely : List (Step ProviderRequest ProviderEnv) :=
  starts 1 specialize :: takes 1 0 4 ++ starts 2 (.createService ⟨"cut", 30, 100⟩) ::
    takes 2 20 6 ++ takes 1 0 7 ++ starts 3 (.setProfileImage ⟨7, .avatar, some 5⟩) :: takes 3 0 9

def created : List (Step ProviderRequest ProviderEnv) :=
  starts 2 (.createService ⟨"cut", 30, 100⟩) :: takes 2 20 6

/-- A request is submitted after the profile is read, and before it takes its revision. -/
def outdated : List (Step ProviderRequest ProviderEnv) :=
  starts 1 specialize :: takes 1 0 8 ++ starts 2 (.submit 7 none) :: takes 2 20 9 ++ takes 1 0 3

/-- Two items are removed, and each edit reads the imagery before the other one commits. -/
def both : List (Step ProviderRequest ProviderEnv) :=
  starts 1 (.removeItem 7 30) :: takes 1 0 7 ++ starts 2 (.removeItem 7 31) :: takes 2 0 7 ++
    takes 1 0 3 ++ takes 2 0 3

/-- The professional with two items. -/
def portfolio : ProviderDb where
  professional := .ofRows [((), professional)]
  specialties := .ofRows []
  services := .ofRows []
  items := .ofRows [(30, ⟨5, none, 0, none⟩), (31, ⟨6, none, 1, none⟩)]
  objects := .ofRows [(5, image .portfolio "a"),
    (6, image .portfolio "b")]
  requests := .ofRows []
  outbox := .empty

end OneProfessional

theorem newestCarries_empty (h : db.outbox.committed = []) : NewestCarries config db := by
  refine ⟨?_, ?_⟩
  · unfold NewestTells
    rw [h]
    simp
  · rw [h]
    intro i j a b _ ha
    cases ha

theorem bounded_empty (h : db.outbox.committed = []) : Bounded db := by
  unfold Bounded
  rw [h]
  simp

theorem newestCarries_run_timely :
    Throughout (providerService OneProfessional.hair).step
      (fun s => NewestCarries OneProfessional.hair s.db)
      ((providerService OneProfessional.hair).start OneProfessional.tables)
      OneProfessional.timely :=
  newestCarries_run OneProfessional.opening (newestCarries_empty rfl) (bounded_empty rfl)
    (by decide +kernel)

theorem not_throughout_of_untold {es : List (Step ProviderRequest ProviderEnv)}
    (h : ∃ s ∈ runFrom (providerService config).step ((providerService config).start db) es,
      ¬NewestTells config s.db) :
    ¬Throughout (providerService config).step (fun s => NewestTells config s.db)
      ((providerService config).start db) es := by
  obtain ⟨_, hs, huntold⟩ := h
  exact fun htells => huntold (htells.last hs)

/-- A service edit emits two events under one revision; a profile and an imagery are out of date
under the highest one. -/
theorem newestCarries_stale_fails :
    (∃ s ∈ runFrom (providerService OneProfessional.hair).step
        ((providerService OneProfessional.hair).start OneProfessional.tables)
        OneProfessional.created,
      s.db.outbox.committed.map ProviderEvent.revision = [1, 1]) ∧
      ¬Throughout (providerService OneProfessional.hair).step
        (fun s => NewestTells OneProfessional.hair s.db)
        ((providerService OneProfessional.hair).start OneProfessional.tables)
        OneProfessional.outdated ∧
      ¬Throughout (providerService OneProfessional.hair).step
        (fun s => NewestTells OneProfessional.hair s.db)
        ((providerService OneProfessional.hair).start OneProfessional.portfolio)
        OneProfessional.both := by
  refine ⟨by decide +kernel, ?_, ?_⟩
  · exact not_throughout_of_untold (by decide +kernel)
  · exact not_throughout_of_untold (by decide +kernel)

end BeauClick.Provider
