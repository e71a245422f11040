import BeauClick.Provider.Commits

/-!
# Columns that a profile edit does not own

A profile edit saves the whole row that it has read.

* `RevertsNothing` — the property of a step.
* `revertsNothing_run` — where the columns are as they were when the save loads the row again.
* `Lost` — what a save takes back otherwise.
-/

namespace BeauClick.Provider

open Locks ReadCommitted ReadCommitted.Versioned Runs Transactions

variable {config : ProviderConfig} {env : ProviderEnv} {db db' : ProviderDb} {p q : ℕ}
  {place : ProviderPlace} {x y : ProfessionalEntity} {e : Edit}

/-! ## The property -/

/-- The call is about to commit this transition. -/
def ProviderPlace.transition : ProviderPlace → Option Transition
  | .finish (.profile (.verification v)) => some v
  | _ => none

/-- The call is about to commit a profile image. -/
def ProviderPlace.setsImage : ProviderPlace → Prop
  | .finish (.media .profileImage) => True
  | _ => False

/-- What a step of a call leaves of the columns that `update` does not own. -/
structure LeavesColumns (place : ProviderPlace) (x x' : ProfessionalEntity) : Prop where
  revision : x.revision ≤ x'.revision
  status : x'.verificationStatus ≠ x.verificationStatus →
    ∃ v ∈ place.transition, v.toStatus ∈ x.verificationStatus.validTransitions ∧
      x'.verificationStatus = v.toStatus
  images : x'.avatarMediaId ≠ x.avatarMediaId ∨ x'.coverMediaId ≠ x.coverMediaId →
    place.setsImage

/-- The step reverts nothing that its call does not own. -/
def RevertsNothing (config : ProviderConfig) (s : System ProviderDb Unit ProviderPlace)
    (e : Step ProviderRequest ProviderEnv) : Prop :=
  ∀ s' ∈ (providerService config).step s e, ∀ x ∈ s.db.professional.committed (),
    ∀ x' ∈ s'.db.professional.committed (), LeavesColumns (s.calls e.pid) x x'

/-- The professional is pending iff exactly one request is. -/
def PendingMatches (db : ProviderDb) : Prop :=
  ∀ x ∈ db.professional.committed (),
    (x.verificationStatus = .pending ↔ ∃! k, PendingRequest db k)

/-- Nobody is at work. -/
structure Opening (db : ProviderDb) : Prop where
  sound : ProviderSound db
  clean : ∀ q, Clean db q

/-! ## What a step leaves -/

theorem LeavesColumns.refl : LeavesColumns place x x :=
  ⟨le_refl _, fun h => absurd rfl h, fun h => absurd rfl (h.elim id fun h' => absurd rfl h')⟩

theorem Kind.Sets.leaves (h : (Kind.edit e).Sets 1 x y) : LeavesColumns (.finish e) x y := by
  have hrevision : x.revision ≤ y.revision := by
    rw [h.revision]
    exact Nat.le_succ _
  have hsame : y.avatarMediaId = x.avatarMediaId → y.coverMediaId = x.coverMediaId →
      (y.avatarMediaId ≠ x.avatarMediaId ∨ y.coverMediaId ≠ x.coverMediaId → False) := by
    rintro havatar hcover (hne | hne)
    · exact hne havatar
    · exact hne hcover
  rcases e with (_ | k | v) | (_ | _)
  · have hy : y = { x with
        displayName := y.displayName
        bio := y.bio
        cityId := y.cityId
        revision := x.revision + 1 } := h
    refine ⟨hrevision, fun hne => absurd (h.status (by simp)) hne, hsame ?_ ?_⟩ <;> rw [hy]
  · have hy : y = { x with revision := x.revision + 1 } := h
    refine ⟨hrevision, fun hne => absurd (h.status (by simp)) hne, hsame ?_ ?_⟩ <;> rw [hy]
  · obtain ⟨hy, hval⟩ := h
    refine ⟨hrevision, fun _ => ⟨v, rfl, hval, ?_⟩, hsame ?_ ?_⟩ <;> rw [hy]
  · have hy : y = { x with revision := x.revision + 1 } := h
    refine ⟨hrevision, fun hne => absurd (h.status (by simp)) hne, hsame ?_ ?_⟩ <;> rw [hy]
  · exact ⟨hrevision, fun hne => absurd (h.status (by simp)) hne, fun _ => trivial⟩

theorem leaves_of_same (hsame : db'.professional.committed = db.professional.committed)
    (hx : x ∈ db.professional.committed ()) (hy : y ∈ db'.professional.committed ()) :
    LeavesColumns place x y := by
  rw [hsame, Option.mem_def.1 hx] at hy
  cases hy
  exact .refl

theorem revertsNothing_of_holds {s : System ProviderDb Unit ProviderPlace}
    {step : Step ProviderRequest ProviderEnv} (h : providerOutline.Holds s)
    (hm : providerOutline.Meets s step) : RevertsNothing config s step := by
  intro s' hstep x hx x' hx'
  cases Service.took_of_step hstep with
  | starts => exact leaves_of_same rfl hx hx'
  | goes pid env db place hst =>
    have hpasses := (shown_statement config env h.sound hm (h.work pid)).of_goes hst
    exact leaves_of_same hpasses.same.professional hx hx'
  | locks => exact leaves_of_same rfl hx hx'
  | commits pid env place hst =>
    have hwork := h.work pid
    obtain ⟨_, rfl, hplace | hclean⟩ :=
      (shown_statement config env h.sound hm hwork).of_commits hst
    · rw [hplace] at hwork ⊢
      obtain ⟨⟨-, _, hbumped, -⟩, -⟩ := hwork
      obtain ⟨_, _, hz, hz', hsets, -⟩ := hbumped.committed
      cases hz.symm.trans hx
      cases hz'.symm.trans hx'
      exact hsets.leaves
    · exact leaves_of_same hclean.same_commit.professional hx hx'
  | throws | dies => exact leaves_of_same same_rollback.professional hx hx'

theorem ProviderSound.matches (h : ProviderSound db) : PendingMatches db := by
  intro x hx
  rw [h.pending x hx]
  constructor
  · rintro ⟨k, hk⟩
    refine ⟨k, hk, ?_⟩
    intro k' hk'
    obtain ⟨_, hr, hpend⟩ := hk
    obtain ⟨_, hr', hpend'⟩ := hk'
    exact h.apart.committed hr' hr ⟨hpend', hpend⟩
  · rintro ⟨k, hk, -⟩
    exact ⟨k, hk⟩

/-! ## Every run -/

/-- However many edits there are at the same time: as long as every `save` finds the columns that
it does not own as they were when it has read them, no edit reverts what it does not own, and the
professional is pending iff exactly one request is. -/
theorem revertsNothing_run (hopening : Opening db) {es : List (Step ProviderRequest ProviderEnv)}
    (hunhurried : Along (providerService config).step providerOutline.Meets
      ((providerService config).start db) es) :
    Along (providerService config).step (RevertsNothing config)
        ((providerService config).start db) es ∧
      Throughout (providerService config).step (fun s => PendingMatches s.db)
        ((providerService config).start db) es := by
  have P := (providerProof config).proof
  have hstart : providerOutline.Holds ((providerService config).start db) :=
    P.holds_start hopening.sound fun q => ⟨hopening.clean q, trivial⟩
  have hkeep : ∀ s e s', providerOutline.Holds s → providerOutline.Meets s e →
      (providerService config).step s e = some s' → providerOutline.Holds s' :=
    fun s e s' h hm hstep => (P.holds_step h hm hstep).1
  constructor
  · exact hunhurried.of_invariant hkeep (fun s e h hm => revertsNothing_of_holds h hm) hstart
  · exact throughout_of_along (fun s h => h.sound.matches) hkeep hstart hunhurried

/-! ## A professional with an image -/

instance (e row : ProfessionalEntity) : Decidable (Spares e row) :=
  decidable_of_iff
    (e.ownerId = row.ownerId ∧ e.verificationStatus = row.verificationStatus ∧
      e.revision = row.revision ∧ e.avatarMediaId = row.avatarMediaId ∧
      e.coverMediaId = row.coverMediaId ∧ e.deletedAt = row.deletedAt)
    ⟨fun ⟨h₁, h₂, h₃, h₄, h₅, h₆⟩ => ⟨h₁, h₂, h₃, h₄, h₅, h₆⟩,
      fun ⟨h₁, h₂, h₃, h₄, h₅, h₆⟩ => ⟨h₁, h₂, h₃, h₄, h₅, h₆⟩⟩

instance : Decidable (Unhurried db p place) := by
  unfold Unhurried
  split <;> infer_instance

instance (env : ProviderEnv) : Decidable (providerOutline.Assumes env db p place) :=
  inferInstanceAs (Decidable (Unhurried db p place))

instance : Decidable place.setsImage := by
  unfold ProviderPlace.setsImage
  split <;> infer_instance

instance : Decidable (LeavesColumns place x y) :=
  decidable_of_iff
    (x.revision ≤ y.revision ∧
      (y.verificationStatus ≠ x.verificationStatus →
        ∃ v ∈ place.transition, v.toStatus ∈ x.verificationStatus.validTransitions ∧
          y.verificationStatus = v.toStatus) ∧
      (y.avatarMediaId ≠ x.avatarMediaId ∨ y.coverMediaId ≠ x.coverMediaId → place.setsImage))
    ⟨fun ⟨h₁, h₂, h₃⟩ => ⟨h₁, h₂, h₃⟩, fun ⟨h₁, h₂, h₃⟩ => ⟨h₁, h₂, h₃⟩⟩

instance (s : System ProviderDb Unit ProviderPlace) (e : Step ProviderRequest ProviderEnv) :
    Decidable (RevertsNothing config s e) := by
  unfold RevertsNothing
  infer_instance

namespace OneProfessional

/-- An unverified professional of the user 7. -/
def professional : ProfessionalEntity := ⟨7, "Sara", none, none, .unverified, 0, none, none, none⟩

/-- An image of the same user. -/
def image (purpose : Media.MediaPurpose) (key : String) : Media.MediaObjectEntity :=
  ⟨7, purpose, true, .stored, key, some .png, some 24, some 256, some 256, some 0, none, none, 0⟩

/-- The professional, and an image. -/
def tables : ProviderDb where
  professional := .ofRows [((), professional)]
  specialties := .ofRows []
  services := .ofRows []
  items := .ofRows []
  objects := .ofRows [(5, image .avatar "a")]
  requests := .ofRows []
  outbox := .empty

/-- No city and no specialty. -/
def bare : ProviderConfig := ⟨fun _ => none, fun _ => none, fun key => key⟩

/-- The user renames the professional. -/
def rename : ProviderRequest := .update ⟨7, some "Sara A.", none, none, none⟩

/-- A call starts on a request. -/
def starts (pid : ℕ) (request : ProviderRequest) : Step ProviderRequest ProviderEnv :=
  ⟨pid, .start request⟩

/-- The statements of a call; `uuid` is the id that it is given next. -/
def takes (pid : ℕ) (uuid : Uuid) (n : ℕ) : List (Step ProviderRequest ProviderEnv) :=
  List.replicate n ⟨pid, .statement ⟨0, uuid⟩⟩

/-- The professional is renamed while a request is submitted, but not before the rename has
loaded the row; the request is approved, and an image is set. -/
def unhurried : List (Step ProviderRequest ProviderEnv) :=
  starts 1 rename :: takes 1 0 2 ++ starts 2 (.submit 7 none) :: takes 2 20 9 ++ takes 1 0 8 ++
    starts 3 (.decide ⟨20, .approve, 1, "ok"⟩) :: takes 3 0 9 ++
      starts 4 (.setProfileImage ⟨7, .avatar, some 5⟩) :: takes 4 0 9

/-- The request is submitted after the rename has read the row, and before it loads it again. -/
def submitted : List (Step ProviderRequest ProviderEnv) :=
  starts 1 rename :: takes 1 0 1 ++ starts 2 (.submit 7 none) :: takes 2 20 9 ++ takes 1 0 9

/-- The image is set then. -/
def imaged : List (Step ProviderRequest ProviderEnv) :=
  starts 1 rename :: takes 1 0 1 ++ starts 2 (.setProfileImage ⟨7, .avatar, some 5⟩) ::
    takes 2 0 9 ++ takes 1 0 9

/-- Two services are created then. -/
def twice : List (Step ProviderRequest ProviderEnv) :=
  starts 1 rename :: takes 1 0 1 ++ starts 2 (.createService ⟨"cut", 30, 100⟩) :: takes 2 20 6 ++
    starts 3 (.createService ⟨"dye", 60, 200⟩) :: takes 3 21 6 ++ takes 1 0 9

end OneProfessional

theorem OneProfessional.opening : Opening OneProfessional.tables where
  sound := by
    refine ⟨⟨OneProfessional.professional, rfl⟩, ?_, ?_⟩
    · intro k k' r r' hr
      rcases hr with hcomm | ⟨q, hwrit⟩
      · cases hcomm
      cases hwrit
    · intro x hx
      cases hx
      constructor
      · rintro ⟨⟩
      · rintro ⟨_, _, hr, -⟩
        cases hr
  clean := fun q => ⟨untouched_ofRows, untouched_ofRows, untouched_ofRows, untouched_ofRows,
    untouched_ofRows, untouched_ofRows, rfl⟩

theorem revertsNothing_run_unhurried :
    Along (providerService OneProfessional.bare).step (RevertsNothing OneProfessional.bare)
        ((providerService OneProfessional.bare).start OneProfessional.tables)
        OneProfessional.unhurried ∧
      Throughout (providerService OneProfessional.bare).step (fun s => PendingMatches s.db)
        ((providerService OneProfessional.bare).start OneProfessional.tables)
        OneProfessional.unhurried :=
  revertsNothing_run OneProfessional.opening (by decide +kernel)

/-- The professional is not pending, and a request is. -/
def Lost (db : ProviderDb) (k : Uuid) : Prop :=
  (∃ x ∈ db.professional.committed (), x.verificationStatus ≠ .pending) ∧
    (∃ r ∈ db.requests.committed k, r.status = .pending) ∧ ∀ k' ∈ db.requests.keys, k' = k
  deriving Decidable

theorem not_matches_of_lost {k : Uuid} (h : Lost db k) : ¬PendingMatches db := by
  obtain ⟨⟨x, hx, hstat⟩, ⟨r, hr, hpend⟩, honly⟩ := h
  intro hmatches
  refine hstat ((hmatches x hx).2 ⟨k, ⟨r, hr, hpend⟩, ?_⟩)
  rintro k' ⟨_, hr', -⟩
  exact honly k' (mem_keys_of_committed hr')

/-- The rename writes the status, the image and the revision back. -/
theorem revertsNothing_hurried_fails :
    ¬Along (providerService OneProfessional.bare).step (RevertsNothing OneProfessional.bare)
        ((providerService OneProfessional.bare).start OneProfessional.tables)
        OneProfessional.submitted ∧
      ¬Along (providerService OneProfessional.bare).step (RevertsNothing OneProfessional.bare)
        ((providerService OneProfessional.bare).start OneProfessional.tables)
        OneProfessional.imaged ∧
      ¬Along (providerService OneProfessional.bare).step (RevertsNothing OneProfessional.bare)
        ((providerService OneProfessional.bare).start OneProfessional.tables)
        OneProfessional.twice ∧
      ¬Throughout (providerService OneProfessional.bare).step (fun s => PendingMatches s.db)
        ((providerService OneProfessional.bare).start OneProfessional.tables)
        OneProfessional.submitted := by
  refine ⟨by decide +kernel, by decide +kernel, by decide +kernel, ?_⟩
  have hlost : ∃ s ∈ runFrom (providerService OneProfessional.bare).step
      ((providerService OneProfessional.bare).start OneProfessional.tables)
      OneProfessional.submitted, Lost s.db 20 := by decide +kernel
  obtain ⟨_, hs, hlost⟩ := hlost
  intro hmatches
  exact not_matches_of_lost hlost (hmatches.last hs)

end BeauClick.Provider
