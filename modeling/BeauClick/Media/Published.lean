import BeauClick.Media.Work

/-!
# Published media is the media that was checked

Direct uploads go on while a call checks the bytes.

* `Kept`, `Takes` — what a step keeps of the row, the bytes and the checked bytes.
* `shown_finalize` — the claim of the row is conditional on its status.
* `published_run` — the published bytes are those that were checked, where no step is disturbed.
-/

namespace BeauClick.Media

open Locks ReadCommitted ReadCommitted.Versioned Runs Transactions Function

variable {config : MediaConfig} {env : MediaEnv} {db db' : MediaDb} {p q : ℕ}
  {place place' : MediaPlace} {x y row : MediaObjectEntity} {object : Buffer}
  {probed : ProbedImage} {byteSize : ℕ}

/-! ## What a step keeps -/

/-- The call is about to commit that the object is removed or taken down. -/
def MediaPlace.removes : MediaPlace → Prop
  | .finishRemove => True
  | .finishDecide _ => True
  | _ => False

/-- What is stored stays, unless it is removed or taken down, and what is deleted is deleted. -/
structure Kept (place : MediaPlace) (db db' : MediaDb) : Prop where
  stored : HasStatus db .stored → HasStatus db' .stored ∨ place.removes
  deleted : HasStatus db .deleted → HasStatus db' .deleted

/-- What a step keeps. -/
structure Takes (db : MediaDb) (p : ℕ) (place : MediaPlace) (db' : MediaDb) (place' : MediaPlace) :
    Prop where
  sound : MediaSound db'
  beside : ∀ q ≠ p, Beside q db db'
  work : MediaWork db' p place'
  kept : Kept place db db'

theorem hasStatus_of_same {status : MediaObjectStatus}
    (h : db'.object.committed = db.object.committed) :
    HasStatus db' status ↔ HasStatus db status := by
  unfold HasStatus
  rw [h]

theorem takes_same (hs : MediaSound db) (hobj : db'.object.committed = db.object.committed)
    (hpub : Published db')
    (hreported : ∀ k r, (db'.reports.row k).Version r → ¬HasStatus db .pending)
    (hothers : ∀ q ≠ p, Others q db.object db'.object ∧ Others q db.reports db'.reports)
    (hw : MediaWork db' p place') : Takes db p place db' place' where
  sound := by
    refine ⟨?_, hpub, fun k r hr => ?_⟩
    · rw [hobj]
      exact hs.there
    · rw [hasStatus_of_same hobj]
      exact hreported k r hr
  beside := fun q hq => ⟨(hothers q hq).1, (hothers q hq).2, .of_same hobj⟩
  work := hw
  kept :=
    ⟨fun h => Or.inl ((hasStatus_of_same hobj).2 h), (hasStatus_of_same hobj).2⟩

theorem takes_refl (hs : MediaSound db) (hw : MediaWork db p place') :
    Takes db p place db place' :=
  takes_same hs rfl hs.published hs.reported (fun _ _ => ⟨.refl, .refl⟩) hw

theorem takes_bytes {bytes : Option Buffer} (hs : MediaSound db)
    (hpub : HasStatus db .stored → bytes = db.bytes)
    (hw : MediaWork { db with bytes := bytes } p place') :
    Takes db p place { db with bytes := bytes } place' := by
  refine takes_same hs rfl ?_ hs.reported (fun _ _ => ⟨.refl, .refl⟩) hw
  intro x hx hstored
  rw [hpub ⟨x, hx, hstored⟩]
  exact hs.published x hx hstored

theorem takes_put {checked : Option Buffer} (hclean : Clean db p)
    (hlock : ¬(db.object.row ()).Locked p) (hx : x ∈ db.object.committed ())
    (hpurp : y.purpose = x.purpose) (hpend : y.status ≠ .pending)
    (hdel : x.status = .deleted → y.status = .deleted)
    (hstored : x.status = .stored → y.status = .stored)
    (hpub : y.status = .stored →
      ∃ object, db.bytes = some object ∧ checked = some object ∧ Describes y object)
    (hw : ∀ db' : MediaDb, Clean db' p → db'.object.committed () = some y → MediaWork db' p place') :
    Takes db p place { db with object := db.object.put p () y, checked := checked } place' := by
  have hcomm : (db.object.put p () y).committed () = some y := by
    rw [committed_put hclean.object, update_self]
  refine ⟨⟨⟨y, hcomm⟩, ?_, ?_⟩, ?_, hw _ ⟨untouched_put, hclean.reports⟩ hcomm, ?_, ?_⟩
  · intro z hz hstat
    cases hcomm.symm.trans hz
    exact hpub hstat
  · rintro k r - ⟨z, hz, hstat⟩
    cases hcomm.symm.trans hz
    exact hpend hstat
  · intro q hq
    refine ⟨others_put hq hclean.object hlock, .refl, ?_⟩
    intro z hz
    cases hx.symm.trans hz
    exact ⟨y, hcomm, hpurp, fun _ => hpend, hdel⟩
  · rintro ⟨z, hz, hstat⟩
    cases hx.symm.trans hz
    exact Or.inl ⟨y, hcomm, hstored hstat⟩
  · rintro ⟨_, hz, hstat⟩
    cases hx.symm.trans hz
    exact ⟨y, hcomm, hdel hstat⟩

theorem Clean.mem (h : Clean db p) (hget : db.object.get p () = some x) :
    x ∈ db.object.committed () := by
  rw [h.object.get_eq] at hget
  exact hget

/-! ## The end of a transaction -/

theorem clean_commit : Clean (db.commit p) p := ⟨untouched_commit, untouched_commit⟩

theorem clean_rollback : Clean (db.rollback p) p := ⟨untouched_rollback, untouched_rollback⟩

theorem takes_commit_same (hs : MediaSound db) (hu : db.object.Untouched p)
    (hw : MediaWork (db.commit p) p place') : Takes db p place (db.commit p) place' := by
  have hobj : (db.commit p).object.committed = db.object.committed :=
    hu.committed_commit
  refine takes_same hs hobj ?_ ?_ (fun q hq => ⟨others_commit hq, others_commit hq⟩) hw
  · unfold Published
    rw [hobj]
    exact hs.published
  · exact fun k r hr => hs.reported k r (Row.version_of_commit hr)

theorem Removes.committed (h : Removes db p) : HasStatus (db.commit p) .deleted := by
  obtain ⟨_, y, hrow, -, hdel⟩ := h
  exact ⟨y, (wrote_of_row hrow).committed_commit, hdel⟩

theorem takes_commit_removes (hr : Removes db p) (hplace : place.removes)
    (hw : MediaWork (db.commit p) p place') : Takes db p place (db.commit p) place' := by
  obtain ⟨x, y, hrow, hpurp, hstat⟩ := hr
  have hx : db.object.committed () = some x := committed_of_row hrow
  have hy : (db.commit p).object.committed () = some y :=
    (wrote_of_row hrow).committed_commit
  have hages : Ages db (db.commit p) := by
    intro z hz
    cases hx.symm.trans hz
    refine ⟨y, hy, hpurp, ?_, fun _ => hstat⟩
    rw [hstat]
    simp
  refine ⟨⟨⟨y, hy⟩, ?_, ?_⟩, fun q hq => ⟨others_commit hq, others_commit hq, hages⟩, hw,
    fun _ => Or.inr hplace, hages.deleted⟩
  · intro z hz hstored
    cases hy.symm.trans hz
    cases hstat.symm.trans hstored
  · rintro k r - ⟨_, hz, hpend⟩
    cases hy.symm.trans hz
    cases hstat.symm.trans hpend

theorem takes_rollback (hs : MediaSound db) (hw : MediaWork (db.rollback p) p place') :
    Takes db p place (db.rollback p) place' := by
  have hobj : (db.rollback p).object.committed = db.object.committed := committed_rollback
  refine takes_same hs hobj ?_ ?_
    (fun q hq => ⟨others_rollback hq, others_rollback hq⟩) hw
  · unfold Published
    rw [hobj]
    exact hs.published
  · exact fun k r hr => hs.reported k r (Row.version_of_rollback hr)

/-- The call is refused or has failed. -/
def Threw : MediaPlace → Prop
  | .failed | .refused _ => True
  | _ => False

/-- What is shown of a statement: none takes a lock. -/
abbrev Shown (db : MediaDb) (p : ℕ) (place : MediaPlace) : Next MediaDb Unit MediaPlace → Prop :=
  Next.Ends (Takes db p place) (Takes db p place (db.commit p)) Threw

theorem takes_throws (hs : MediaSound db) (h : Threw place') :
    Takes db p place (db.rollback p) place' := by
  cases place' with
  | failed | refused e => exact takes_rollback hs clean_rollback
  | _ => exact h.elim

/-! ## Uploads -/

theorem shown_upload (config : MediaConfig) (env : MediaEnv) (hs : MediaSound db)
    (hm : Undisturbed env db p place) (hw : MediaWork db p place) :
    Shown db p place (uploadStatement config env db p place) := by
  cases place with
  | findByKey =>
    simp only [uploadStatement]
    repeat' split
    all_goals first | trivial | exact takes_refl hs hw
  | write =>
    simp only [uploadStatement]
    split
    · rename_i hans
      have hclean : Clean db p := hw
      exact takes_bytes hs (fun hstored => (hm hans hstored).symm)
        ⟨hclean.object, hclean.reports⟩
    · trivial
  | _ => trivial

/-! ## `finalize` -/

theorem accepted_of_header {purpose : MediaPurpose} (hpos : 0 < byteSize)
    (hle : byteSize ≤ purpose.policy.maxBytes)
    (hprobe : probeImage (object.take (min imageProbeBytes byteSize)) = some probed)
    (hmin : ¬(probed.width < purpose.policy.minEdgePx ∨ probed.height < purpose.policy.minEdgePx))
    (hmax : ¬(purpose.policy.maxEdgePx < probed.width ∨ purpose.policy.maxEdgePx < probed.height))
    (hlen : object.length = byteSize) : Accepted purpose object probed := by
  subst hlen
  rw [← List.take_take, List.take_length] at hprobe
  rw [not_or, not_lt, not_lt] at hmin hmax
  exact ⟨hpos, hle, hprobe, hmin, hmax⟩

theorem shown_claim {row : MediaObjectEntity} {byteSize : ℕ} {probed : ProbedImage} {object : Buffer}
    (env : MediaEnv) (hm : Undisturbed env db p (.claim row byteSize probed object))
    (hs : MediaSound db) (hw : MediaWork db p (.claim row byteSize probed object)) :
    Shown db p (.claim row byteSize probed object)
      (finalizeStatement env db p (.claim row byteSize probed object)) := by
  obtain ⟨hclean, ⟨z, hz, hpurp⟩, hacc⟩ := hw
  simp only [finalizeStatement]
  split
  · trivial
  · rename_i hupd
    obtain ⟨_, hget, hpend, hlock, -, rfl⟩ := update_eq_done hupd
    have hx := hclean.mem hget
    cases hz.symm.trans hx
    obtain ⟨hbytes, hlen⟩ := hm ⟨z, hz, hpend⟩ hlock
    refine takes_put hclean hlock hx rfl (by simp [MediaObjectEntity.store]) ?_ ?_ ?_ ?_
    · intro hdel
      cases hpend.symm.trans hdel
    · exact fun _ => rfl
    · intro _
      have hdescribes : Accepted z.purpose object probed := hpurp ▸ hacc hlen
      refine ⟨object, hbytes, rfl, probed, hdescribes, ?_, rfl, rfl, rfl⟩
      rw [hlen]
      rfl
    · exact fun _ hclean' _ => hclean'
  · exact takes_refl hs hclean

theorem shown_finalize (env : MediaEnv) (hs : MediaSound db) (hm : Undisturbed env db p place)
    (hw : MediaWork db p place) :
    Shown db p place (finalizeStatement env db p place) := by
  cases place with
  | findOne =>
    have hclean : Clean db p := hw
    simp only [finalizeStatement]
    split
    · trivial
    rename_i row hget
    split
    · trivial
    split
    · exact takes_refl hs hclean
    · exact takes_refl hs ⟨hclean, row, hclean.mem hget, rfl⟩
  | head =>
    obtain ⟨hclean, hpurp⟩ := hw
    simp only [finalizeStatement]
    split
    · split
      · trivial
      split
      · exact takes_refl hs hclean
      · rename_i hsize
        rw [not_or, not_lt] at hsize
        exact takes_refl hs ⟨hclean, hpurp, Nat.pos_of_ne_zero hsize.1, hsize.2⟩
    · trivial
  | readHeader =>
    obtain ⟨hclean, hpurp, hpos, hle⟩ := hw
    simp only [finalizeStatement]
    split
    · split
      · trivial
      split
      · exact takes_refl hs hclean
      · rename_i hprobe
        split
        · exact takes_refl hs hclean
        · rename_i hmin
          split
          · exact takes_refl hs hclean
          · rename_i hmax
            exact takes_refl hs ⟨hclean, hpurp, accepted_of_header hpos hle hprobe hmin hmax⟩
    · trivial
  | claim => exact shown_claim env hm hs hw
  | findCurrent | findStored =>
    simp only [finalizeStatement]
    repeat' split
    all_goals first | trivial | exact takes_refl hs hw
  | discardBytes =>
    have hclean : Clean db p := hw
    simp only [finalizeStatement]
    split
    · rename_i hans
      exact takes_bytes hs (fun hstored => absurd hstored (hm hans))
        ⟨hclean.object, hclean.reports⟩
    · exact takes_refl hs hclean
  | discardRow =>
    have hclean : Clean db p := hw
    simp only [finalizeStatement]
    split
    · trivial
    · rename_i hupd
      obtain ⟨x, hget, -, hlock, -, rfl⟩ := update_eq_done hupd
      have hx := hclean.mem hget
      refine takes_put hclean hlock hx rfl (by simp [MediaObjectEntity.delete])
        (fun _ => rfl) ?_ ?_ ?_
      · exact fun hstored => absurd (hm ⟨x, hx, hstored⟩) hlock
      · rintro ⟨⟩
      · exact fun _ hclean' _ => hclean'
    · exact takes_refl hs hclean
  | reject | _ => trivial

/-! ## Removals, the reaper and reports -/

theorem takes_mark (hs : MediaSound db) (hu : db.object.Untouched p)
    (hlock : ¬(db.object.row ()).Locked p) (hget : db.object.get p () = some x)
    (hpurp : y.purpose = x.purpose) (hdel : y.status = .deleted)
    (hw : ∀ db' : MediaDb, Removes db' p → db'.reports = db.reports → MediaWork db' p place') :
    Takes db p place { db with object := db.object.write p () y } place' := by
  refine takes_same hs committed_write ?_ hs.reported
    (fun q hq => ⟨others_write hq hlock, .refl⟩) (hw _ ⟨x, y, ?_, hpurp, hdel⟩ rfl)
  · exact hs.published
  · rw [row_write (hu ()), hget]

theorem shown_remove (env : MediaEnv) (hs : MediaSound db) (hw : MediaWork db p place) :
    Shown db p place (removeStatement env db p place) := by
  cases place with
  | findLive =>
    have hclean : Clean db p := hw
    simp only [removeStatement]
    repeat' split
    all_goals
      first
      | exact takes_refl hs hw
      | exact takes_commit_same (p := p) hs hclean.object clean_commit
  | markDeleted =>
    have hclean : Clean db p := hw
    simp only [removeStatement]
    split
    · trivial
    · rename_i hupd
      obtain ⟨x, hget, -, hlock, -, rfl⟩ := update_eq_done hupd
      refine takes_mark hs hclean.object hlock hget rfl rfl ?_
      intro db' hremoves hreps
      refine ⟨hremoves, ?_⟩
      rw [hreps]
      exact hclean.reports
    · trivial
  | findStale =>
    simp only [removeStatement]
    split
    · exact takes_refl hs hw
    · split
      · exact takes_refl hs hw
      · exact takes_refl hs hw
  | reap =>
    have hclean : Clean db p := hw
    simp only [removeStatement]
    split
    · trivial
    · rename_i hupd
      obtain ⟨x, hget, hpend, hlock, -, rfl⟩ := update_eq_done hupd
      refine takes_put hclean hlock (hclean.mem hget) rfl (by simp [MediaObjectEntity.delete])
        (fun _ => rfl) ?_ ?_ ?_
      · intro hstored
        cases hpend.symm.trans hstored
      · rintro ⟨⟩
      · exact fun _ hclean' hcomm => ⟨hclean', x.delete env.now, hcomm, rfl⟩
    · exact takes_refl hs hclean
  | deleteBytes =>
    obtain ⟨hclean, _, hx, hdel⟩ := hw
    simp only [removeStatement]
    split
    · refine takes_bytes hs ?_ ⟨hclean.object, hclean.reports⟩
      rintro ⟨_, hz, hstored⟩
      cases hx.symm.trans hz
      cases hdel.symm.trans hstored
    · exact takes_refl hs hclean
  | finishRemove =>
    exact takes_commit_removes hw.1 trivial ⟨clean_commit, hw.1.committed⟩
  | _ => trivial

theorem takes_reports {k : Uuid} {r : MediaAbuseReportEntity} (hs : MediaSound db)
    (hlock : ¬(db.reports.row k).Locked p) (hpend : ¬HasStatus db .pending)
    (hw : MediaWork { db with reports := db.reports.write p k r } p place') :
    Takes db p place { db with reports := db.reports.write p k r } place' :=
  takes_same hs rfl hs.published (fun _ _ _ => hpend)
    (fun _ hq => ⟨.refl, others_write hq hlock⟩) hw

theorem shown_takeDown {i : DecisionInput} (env : MediaEnv) (hs : MediaSound db)
    (hu : db.object.Untouched p) :
    Shown db p (.takeDown i) (reportStatement env db p (.takeDown i)) := by
  simp only [reportStatement]
  cases hupd : db.object.update p () (fun _ => True)
      (fun x => { x.delete env.now with takenDownBy := some i.actorUserId }) with
  | waits => trivial
  | done z t =>
    obtain ⟨x, hget, -, hlock, -, rfl⟩ := update_eq_done hupd
    exact takes_mark hs hu hlock hget rfl rfl fun _ hremoves _ => Or.inr hremoves
  | unmatched =>
    obtain ⟨_, hx⟩ := hs.there
    have hnone := get_eq_none_of_unmatched hupd
    rw [hu.get_eq, hx] at hnone
    cases hnone
  | violated => exact absurd hupd update_ne_violated

theorem shown_report (env : MediaEnv) (hs : MediaSound db) (hw : MediaWork db p place) :
    Shown db p place (reportStatement env db p place) := by
  cases place with
  | findReportable =>
    have hclean : Clean db p := hw
    simp only [reportStatement]
    split
    · trivial
    rename_i x hget
    split
    · trivial
    rename_i hreportable
    rw [not_or, not_not] at hreportable
    refine takes_refl hs ⟨hclean, ?_⟩
    rintro ⟨_, hz, hpend⟩
    cases (hclean.mem hget).symm.trans hz
    cases hreportable.1.symm.trans hpend
  | insertReport =>
    obtain ⟨hclean, hpend⟩ := hw
    simp only [reportStatement]
    split
    · trivial
    · rename_i hins
      obtain ⟨-, rfl, hlock, -⟩ := insert_eq_done hins
      exact takes_same hs rfl hs.published (fun _ _ _ => hpend)
        (fun q hq => ⟨.refl, others_put hq hclean.reports hlock⟩)
        ⟨hclean.object, untouched_put⟩
    · trivial
  | findReport =>
    simp only [reportStatement]
    split
    · trivial
    exact takes_refl hs hw
  | decideReport =>
    have hclean : Clean db p := hw
    simp only [reportStatement]
    split
    · trivial
    · rename_i hupd
      obtain ⟨r, hget, -, hlock, -, rfl⟩ := update_eq_done hupd
      have hpend : ¬HasStatus db .pending := hs.reported _ r (version_of_get hget)
      split
      · exact takes_reports hs hlock hpend ⟨hclean.object, hpend⟩
      · exact takes_reports hs hlock hpend hclean.object
    · trivial
  | findReported =>
    obtain ⟨hu, hpend⟩ := hw
    simp only [reportStatement]
    split
    · exact takes_refl hs hu
    · rename_i x hget
      split
      · exact takes_refl hs hu
      · rename_i hstored
        rw [hu.get_eq] at hget
        refine takes_refl hs (Or.inl ⟨hu, x, hget, ?_⟩)
        cases hstat : x.status with
        | pending => exact absurd ⟨x, hget, hstat⟩ hpend
        | stored => exact absurd hstat hstored
        | deleted => rfl
  | takeDown => exact shown_takeDown env hs hw
  | finishDecide removed =>
    cases removed with
    | true =>
      rcases hw with ⟨hu, hdel⟩ | hremoves
      · refine takes_commit_same hs hu ⟨clean_commit, ?_⟩
        rw [hasStatus_of_same hu.committed_commit]
        exact hdel
      · exact takes_commit_removes hremoves trivial ⟨clean_commit, hremoves.committed⟩
    | false => exact takes_commit_same hs hw clean_commit
  | _ => trivial

/-! ## Every statement -/

/-- What each statement about the object keeps. -/
theorem shown_statement (config : MediaConfig) (env : MediaEnv) (hs : MediaSound db)
    (hm : Undisturbed env db p place) (hw : MediaWork db p place) :
    Shown db p place (mediaStatement config env db p place) := by
  unfold mediaStatement
  split
  · exact shown_upload config env hs hm hw
  · exact shown_finalize env hs hm hw
  · exact shown_remove env hs hw
  · exact shown_report env hs hw

theorem first_work (request : MediaRequest) (h : Clean db p) : MediaWork db p request.first := by
  cases request <;> exact h

theorem Takes.moves (hs : MediaSound db) (h : Takes db p place db' place') :
    mediaOutline.Moves db p place db' place' where
  keeps := ⟨h.sound, trivial, fun q _ hq _ hw => mediaWork_beside hs hw (h.beside q hq)⟩
  work := h.work

/-- Each statement keeps what is published. -/
theorem mediaProof (config : MediaConfig) : FreeProof (mediaService config) mediaOutline where
  first _ _ := first_work
  statement env _ _ _ hm hs hw := (shown_statement config env hs hm hw).mono
    (fun _ _ h => h.moves hs) (fun _ _ _ h => h.elim) (fun _ h => h.moves hs)
    fun _ h => (takes_throws hs h).moves hs
  dies db pid place _ hs _ :=
    have htakes : Takes db pid place (db.rollback pid) .failed := takes_rollback hs clean_rollback
    htakes.moves hs

/-! ## Every run -/

/-- The step keeps the status of the object, unless it is removed or taken down. -/
def KeepsStatus (config : MediaConfig) (s : System MediaDb Unit MediaPlace)
    (e : Step MediaRequest MediaEnv) : Prop :=
  ∀ s' ∈ (mediaService config).step s e, Kept (s.calls e.pid) s.db s'.db

theorem Kept.refl : Kept place db db := ⟨Or.inl, id⟩

theorem keepsStatus_of_holds {s : System MediaDb Unit MediaPlace}
    {e : Step MediaRequest MediaEnv} (h : mediaOutline.Holds s) (hm : mediaOutline.Meets s e) :
    KeepsStatus config s e := by
  intro s' hstep
  have shown : ∀ {pid env}, Undisturbed env s.db pid (s.calls pid) →
      Shown s.db pid (s.calls pid) (mediaStatement config env s.db pid (s.calls pid)) :=
    fun hm => shown_statement config _ h.sound hm (h.work _)
  cases Service.took_of_step hstep with
  | starts => exact .refl
  | goes pid env db place hst => exact ((shown hm).of_goes hst).kept
  | locks => exact .refl
  | commits pid env place hst => exact ((shown hm).of_commits hst).kept
  | throws pid env place hst =>
    exact (takes_throws (p := pid) h.sound ((shown hm).of_throws hst)).kept
  | dies pid =>
    have htakes : Takes s.db pid (s.calls pid) (s.db.rollback pid) .failed :=
      takes_rollback h.sound clean_rollback
    exact htakes.kept

theorem undisturbed_of_kept (config : MediaConfig) {env : MediaEnv} (hs : MediaSound db)
    (hw : MediaWork db p place)
    (hafter : ∀ db' place', mediaStatement config env db p place = .goes db' place' →
      Kept place db db' ∧ Published db') : Undisturbed env db p place := by
  cases place with
  | write body =>
    rintro hans ⟨x, hx, hstored⟩
    obtain ⟨object, hbytes, hchk, -⟩ := hs.published x hx hstored
    have hst : mediaStatement config env db p (.write body) =
        .goes { db with bytes := some body } .finished := if_pos hans
    obtain ⟨object', hbytes', hchk', -⟩ := (hafter _ _ hst).2 x hx hstored
    rw [hbytes, ← hchk, hchk', ← hbytes']
  | claim row byteSize probed object =>
    rintro ⟨x, hx, hpend⟩ hlock
    obtain ⟨hclean, -, -⟩ := hw
    have hget : db.object.get p () = some x := hclean.object.get_eq.trans hx
    have hupd : db.object.update p () (fun x => x.status = .pending)
        (·.store env.now probed byteSize) = .done (x.store env.now probed byteSize)
          (db.object.write p () (x.store env.now probed byteSize)) :=
      update_eq_of_get hget hpend hlock
    have hst : mediaStatement config env db p (.claim row byteSize probed object) =
        .goes { db with
          object := db.object.put p () (x.store env.now probed byteSize)
          checked := some object } .findStored := by
      simp only [mediaStatement, MediaPlace.part, finalizeStatement, hupd]
      rfl
    have hcomm : (db.object.put p () (x.store env.now probed byteSize)).committed () =
        some (x.store env.now probed byteSize) := by
      rw [committed_put hclean.object, update_self]
    obtain ⟨_, hbytes, hchk, _, -, hsize, -⟩ :=
      (hafter _ _ hst).2 _ hcomm rfl
    cases hchk
    exact ⟨hbytes, (Option.some.inj hsize).symm⟩
  | discardBytes e =>
    rintro hans ⟨x, hx, hstored⟩
    have hst : mediaStatement config env db p (.discardBytes e) =
        .goes { db with bytes := none } (.discardRow e) := if_pos hans
    obtain ⟨object, hbytes, -⟩ := (hafter _ _ hst).2 x hx hstored
    cases hbytes
  | discardRow e =>
    rintro ⟨x, hx, hstored⟩
    by_contra hlock
    have hclean : Clean db p := hw
    have hget : db.object.get p () = some x := hclean.object.get_eq.trans hx
    have hupd : db.object.update p () (fun _ => True) (·.delete env.now) =
        .done (x.delete env.now) (db.object.write p () (x.delete env.now)) :=
      update_eq_of_get hget trivial hlock
    have hst : mediaStatement config env db p (.discardRow e) =
        .goes { db with object := db.object.put p () (x.delete env.now) } (.reject e) := by
      simp only [mediaStatement, MediaPlace.part, finalizeStatement, hupd]
      rfl
    rcases (hafter _ _ hst).1.stored ⟨x, hx, hstored⟩ with ⟨_, hz, hstat⟩ | hremoves
    · have hcomm : (db.object.put p () (x.delete env.now)).committed () =
          some (x.delete env.now) := by
        rw [committed_put hclean.object, update_self]
      cases hcomm.symm.trans hz
      cases hstat
    · exact hremoves
  | _ => trivial

/-- Nobody is at work. -/
structure Opening (db : MediaDb) : Prop where
  sound : MediaSound db
  clean : ∀ q, Clean db q

/-- However many calls there are at the same time: what is stored is, byte for byte, what the
`finalize` that has stored it has checked, and stays so until it is removed or taken down, in the
runs where no upload writes other bytes over it, where every `finalize` that claims the pending row
finds what it has read, and where none discards what is stored; and in no other run. -/
theorem published_run (hopening : Opening db) (es : List (Step MediaRequest MediaEnv)) :
    Throughout (mediaService config).step (fun s => Published s.db)
        ((mediaService config).start db) es ∧
      Along (mediaService config).step (KeepsStatus config) ((mediaService config).start db) es ↔
    Along (mediaService config).step mediaOutline.Meets ((mediaService config).start db) es := by
  have P := (mediaProof config).proof
  have hstart : mediaOutline.Holds ((mediaService config).start db) :=
    P.holds_start hopening.sound fun q => hopening.clean q
  refine throughout_and_along_iff (fun s h => h.sound.published)
    (fun s e s' h hm hstep => (P.holds_step h hm hstep).1)
    (fun s e h hm => keepsStatus_of_holds h hm) ?_ hstart es
  rintro s ⟨pid, action⟩ h hkept hafter
  cases action with
  | start | die => trivial
  | statement env =>
    refine undisturbed_of_kept config h.sound (h.work pid) ?_
    intro db' place' hst
    have hstep := (Service.Took.goes (S := mediaService config) pid env db' place' hst).step
    exact ⟨hkept _ hstep, hafter _ hstep⟩

/-! ## An avatar -/

instance (status : MediaObjectStatus) : Decidable (HasStatus db status) :=
  inferInstanceAs (Decidable (∃ _ ∈ _, _))

instance (env : MediaEnv) : Decidable (Undisturbed env db p place) := by
  unfold Undisturbed
  split <;> infer_instance

instance : Decidable (mediaOutline.Assumes env db p place) :=
  inferInstanceAs (Decidable (Undisturbed env db p place))

instance : Decidable place.removes := by
  unfold MediaPlace.removes
  split <;> infer_instance

instance : Decidable (Kept place db db') :=
  decidable_of_iff
    ((HasStatus db .stored → HasStatus db' .stored ∨ place.removes) ∧
      (HasStatus db .deleted → HasStatus db' .deleted))
    ⟨fun ⟨h₁, h₂⟩ => ⟨h₁, h₂⟩, fun ⟨h₁, h₂⟩ => ⟨h₁, h₂⟩⟩

instance (s : System MediaDb Unit MediaPlace) (e : Step MediaRequest MediaEnv) :
    Decidable (KeepsStatus config s e) :=
  inferInstanceAs (Decidable (∀ _ ∈ _, _))

namespace Avatar

/-- A grant for an avatar of the user 7. -/
def granted : MediaObjectEntity :=
  ⟨7, .avatar, true, .pending, "public/avatar/1", none, none, none, none, none, none, none, 0⟩

/-- Nothing is uploaded yet. -/
def tables : MediaDb := ⟨.ofRows [((), granted)], .ofRows [], none, none⟩

/-- The API takes uploads. -/
def direct : MediaConfig := ⟨true⟩

/-- The beginning of an image, 256 pixels wide. -/
def image (height : UInt8) : Buffer :=
  [0x89, 0x50, 0x4e, 0x47, 0x0d, 0x0a, 0x1a, 0x0a, 0, 0, 0, 13, 0x49, 0x48, 0x44, 0x52,
    0, 0, 1, 0, 0, 0, 1, height]

/-- No image. -/
def text : Buffer := [0x68, 0x69]

/-- A call starts on a request. -/
def starts (pid : ℕ) (request : MediaRequest) : Step MediaRequest MediaEnv := ⟨pid, .start request⟩

/-- The next `n` statements. -/
def takes (pid n : ℕ) : List (Step MediaRequest MediaEnv) :=
  List.replicate n ⟨pid, .statement ⟨1, 50, true⟩⟩

/-- The image is uploaded over the text while a `finalize` has only read the row, and stored by
another one; then it is reported and taken down. -/
def replaced : List (Step MediaRequest MediaEnv) :=
  starts 1 (.acceptDirectUpload 24 text) :: takes 1 2 ++ starts 2 (.finalize 7) :: takes 2 1 ++
    starts 3 (.acceptDirectUpload 24 (image 0)) :: takes 3 2 ++ starts 4 (.finalize 7) ::
      takes 4 5 ++ takes 2 4 ++ starts 5 .reapExpiredGrants :: takes 5 1 ++
        starts 6 (.reportAbuse ⟨8, .notOwnWork, none⟩) :: takes 6 2 ++
          starts 7 (.decideAbuseReport ⟨50, .uphold, 9, "copied"⟩) :: takes 7 6 ++
            starts 8 (.finalize 7) :: takes 8 1

/-- The text is written by an upload that has found the row pending, after the image is stored. -/
def overwritten : List (Step MediaRequest MediaEnv) :=
  starts 1 (.acceptDirectUpload 24 text) :: takes 1 1 ++
    starts 2 (.acceptDirectUpload 24 (image 0)) :: takes 2 2 ++ starts 3 (.finalize 7) ::
      takes 3 5 ++ takes 1 1

/-- The object is replaced after `finalize` has read its header. -/
def swapped : List (Step MediaRequest MediaEnv) :=
  starts 1 (.acceptDirectUpload 24 (image 0)) :: takes 1 2 ++ starts 2 (.finalize 7) :: takes 2 3 ++
    starts 3 (.acceptDirectUpload 24 text) :: takes 3 2 ++ takes 2 2

/-- A `finalize` that has read the text discards the image that another one has stored. -/
def discarded : List (Step MediaRequest MediaEnv) :=
  starts 1 (.acceptDirectUpload 24 text) :: takes 1 2 ++ starts 2 (.finalize 7) :: takes 2 3 ++
    starts 3 (.acceptDirectUpload 24 (image 0)) :: takes 3 2 ++ starts 4 (.finalize 7) ::
      takes 4 5 ++ takes 2 3

theorem opening : Opening tables where
  sound := by
    refine ⟨⟨granted, rfl⟩, ?_, ?_⟩
    · intro x hx hstored
      cases hx
      cases hstored
    · intro k r hr
      rcases hr with hcomm | ⟨q, hwrit⟩
      · cases hcomm
      cases hwrit
  clean := fun q => ⟨untouched_ofRows, untouched_ofRows⟩

end Avatar

theorem published_run_replaced :
    Throughout (mediaService Avatar.direct).step (fun s => Published s.db)
        ((mediaService Avatar.direct).start Avatar.tables) Avatar.replaced ∧
      Along (mediaService Avatar.direct).step (KeepsStatus Avatar.direct)
        ((mediaService Avatar.direct).start Avatar.tables) Avatar.replaced :=
  (published_run Avatar.opening Avatar.replaced).2 (by decide +kernel)

/-- The object is stored, and what is there is not what was checked. -/
def Differs (db : MediaDb) : Prop := HasStatus db .stored ∧ db.bytes ≠ db.checked
  deriving Decidable

theorem not_published_of_differs (h : Differs db) : ¬Published db := by
  obtain ⟨⟨x, hx, hstored⟩, hne⟩ := h
  intro hpub
  obtain ⟨_, hbytes, hchk, -⟩ := hpub x hx hstored
  exact hne (hbytes.trans hchk.symm)

theorem not_throughout_of_differs {es : List (Step MediaRequest MediaEnv)}
    (h : ∃ s ∈ runFrom (mediaService config).step ((mediaService config).start db) es,
      Differs s.db) :
    ¬Throughout (mediaService config).step (fun s => Published s.db)
      ((mediaService config).start db) es := by
  obtain ⟨_, hs, hdiffers⟩ := h
  exact fun hpub => not_published_of_differs hdiffers (hpub.last hs)

/-- What a call has checked is overwritten, swapped or discarded. -/
theorem published_disturbed_fails :
    ¬Throughout (mediaService Avatar.direct).step (fun s => Published s.db)
        ((mediaService Avatar.direct).start Avatar.tables) Avatar.overwritten ∧
      ¬Throughout (mediaService Avatar.direct).step (fun s => Published s.db)
        ((mediaService Avatar.direct).start Avatar.tables) Avatar.swapped ∧
      ¬Along (mediaService Avatar.direct).step (KeepsStatus Avatar.direct)
        ((mediaService Avatar.direct).start Avatar.tables) Avatar.discarded := by
  refine ⟨?_, ?_, by decide +kernel⟩
  · exact not_throughout_of_differs (by decide +kernel)
  · exact not_throughout_of_differs (by decide +kernel)

end BeauClick.Media
