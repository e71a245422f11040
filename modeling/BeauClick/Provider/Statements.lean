import BeauClick.Provider.Work

/-!
# The statements of the edits

* `Passes` — a statement commits nothing and leaves the rows of the others.
* `shown_update`, `shown_service`, `shown_verification` — the edits, one by one.
* `shown_statement` — all of them.
-/

namespace BeauClick.Provider

open Locks ReadCommitted ReadCommitted.Versioned Runs Transactions
open Media (MediaObjectEntity)

variable {config : ProviderConfig} {env : ProviderEnv} {db db' : ProviderDb} {p q : ℕ}
  {place place' : ProviderPlace} {x y : ProfessionalEntity} {v : Transition} {kind : Kind}
  {k id : Uuid} {o : MediaObjectEntity} {s : ServiceOfferingEntity} {i : PortfolioItemEntity}
  {r : VerificationRequestEntity}

/-! ## Statements that commit nothing -/

/-- Nothing is committed. -/
structure SameCommitted (db db' : ProviderDb) : Prop where
  professional : db'.professional.committed = db.professional.committed
  specialties : Versioned.committed db'.specialties = Versioned.committed db.specialties
  services : db'.services.committed = db.services.committed
  items : db'.items.committed = db.items.committed
  objects : db'.objects.committed = db.objects.committed
  requests : db'.requests.committed = db.requests.committed
  outbox : db'.outbox.committed = db.outbox.committed

/-- What a call writes is nobody else's. -/
structure Leaves (q : ℕ) (db db' : ProviderDb) : Prop where
  professional : Others q db.professional db'.professional
  specialties : Others q db.specialties db'.specialties
  services : Others q db.services db'.services
  items : Others q db.items db'.items
  objects : Others q db.objects db'.objects
  requests : Others q db.requests db'.requests
  outbox : db'.outbox.pending q = db.outbox.pending q

theorem SameCommitted.refl : SameCommitted db db := ⟨rfl, rfl, rfl, rfl, rfl, rfl, rfl⟩

theorem Leaves.refl : Leaves q db db := ⟨.refl, .refl, .refl, .refl, .refl, .refl, rfl⟩

section

variable (hc : SameCommitted db db')
include hc

theorem Leaves.sameView (h : Leaves q db db') : SameView q db db' :=
  ⟨fun _ => h.professional.get_eq hc.professional, fun _ => h.specialties.get_eq hc.specialties,
    fun _ => h.services.get_eq hc.services, fun _ => h.items.get_eq hc.items,
    fun _ => h.objects.get_eq hc.objects⟩

theorem Leaves.beside (h : Leaves q db db') : Beside q db db' where
  professional := h.professional
  specialties := h.specialties
  services := h.services
  items := h.items
  objects := h.objects
  requests := h.requests
  outbox := h.outbox
  view := fun _ => h.sameView hc
  status := by
    intro _ x hx
    refine ⟨x, ?_, rfl⟩
    rw [hc.professional]
    exact hx

theorem ProviderSound.of_same (h : ProviderSound db)
    (hapart : Apart SamePending db'.requests) : ProviderSound db' where
  there := by
    rw [hc.professional]
    exact h.there
  apart := hapart
  pending := by
    unfold PendingRequest
    rw [hc.professional, hc.requests]
    exact h.pending

end

/-- What a statement keeps. -/
structure Passes (db : ProviderDb) (p : ℕ) (db' : ProviderDb) (place' : ProviderPlace) : Prop where
  same : SameCommitted db db'
  apart : Apart SamePending db'.requests
  leaves : ∀ q ≠ p, Leaves q db db'
  work : ProviderWork db' p place'

/-- The call is refused or has failed. -/
def Threw : ProviderPlace → Prop
  | .failed | .refused _ => True
  | _ => False

/-- What is shown of a statement: none takes a lock, and a call commits when it has announced its
edit, and else without having written anything. -/
abbrev Shown (db : ProviderDb) (p : ℕ) (place : ProviderPlace) :
    Next ProviderDb Unit ProviderPlace → Prop :=
  Next.Ends (Passes db p)
    (fun place' => ∃ e, place' = .done e ∧ (place = .finish e ∨ Clean db p)) Threw

section

variable (hs : ProviderSound db)
include hs

theorem passes_refl (hw : ProviderWork db p place') :
    Passes db p db place' :=
  ⟨.refl, hs.apart, fun _ _ => .refl, hw⟩

theorem passes_professional (hlock : ¬(db.professional.row ()).Locked p)
    (hw : ProviderWork { db with professional := db.professional.write p () y } p place') :
    Passes db p { db with professional := db.professional.write p () y } place' :=
  ⟨⟨committed_write, rfl, rfl, rfl, rfl, rfl, rfl⟩, hs.apart, fun _ hq =>
    ⟨others_write hq hlock, .refl, .refl, .refl, .refl, .refl, rfl⟩, hw⟩

theorem passes_specialties {o : Option Unit} (hlock : ¬(db.specialties.row id).Locked p)
    (hw : ProviderWork { db with specialties := db.specialties.write p id o } p place') :
    Passes db p { db with specialties := db.specialties.write p id o } place' :=
  ⟨⟨rfl, committed_write, rfl, rfl, rfl, rfl, rfl⟩, hs.apart, fun _ hq =>
    ⟨.refl, others_write hq hlock, .refl, .refl, .refl, .refl, rfl⟩, hw⟩

theorem passes_services (hlock : ¬(db.services.row k).Locked p)
    (hw : ProviderWork { db with services := db.services.write p k s } p place') :
    Passes db p { db with services := db.services.write p k s } place' :=
  ⟨⟨rfl, rfl, committed_write, rfl, rfl, rfl, rfl⟩, hs.apart, fun _ hq =>
    ⟨.refl, .refl, others_write hq hlock, .refl, .refl, .refl, rfl⟩, hw⟩

theorem passes_items (hlock : ¬(db.items.row k).Locked p)
    (hw : ProviderWork { db with items := db.items.write p k i } p place') :
    Passes db p { db with items := db.items.write p k i } place' :=
  ⟨⟨rfl, rfl, rfl, committed_write, rfl, rfl, rfl⟩, hs.apart, fun _ hq =>
    ⟨.refl, .refl, .refl, others_write hq hlock, .refl, .refl, rfl⟩, hw⟩

theorem passes_objects (hlock : ¬(db.objects.row k).Locked p)
    (hw : ProviderWork { db with objects := db.objects.write p k o } p place') :
    Passes db p { db with objects := db.objects.write p k o } place' :=
  ⟨⟨rfl, rfl, rfl, rfl, committed_write, rfl, rfl⟩, hs.apart, fun _ hq =>
    ⟨.refl, .refl, .refl, .refl, others_write hq hlock, .refl, rfl⟩, hw⟩

end

theorem passes_requests (hlock : ¬(db.requests.row k).Locked p)
    (hapart : Apart SamePending (db.requests.write p k r))
    (hw : ProviderWork { db with requests := db.requests.write p k r } p place') :
    Passes db p { db with requests := db.requests.write p k r } place' :=
  ⟨⟨rfl, rfl, rfl, rfl, rfl, committed_write, rfl⟩, hapart, fun _ hq =>
    ⟨.refl, .refl, .refl, .refl, .refl, others_write hq hlock, rfl⟩, hw⟩

theorem passes_append {event : ProviderEvent} (hs : ProviderSound db)
    (hw : ProviderWork { db with outbox := db.outbox.append p event } p place') :
    Passes db p { db with outbox := db.outbox.append p event } place' :=
  ⟨⟨rfl, rfl, rfl, rfl, rfl, rfl, rfl⟩, hs.apart, fun _ hq =>
    ⟨.refl, .refl, .refl, .refl, .refl, .refl, Journal.pending_append_ne hq⟩, hw⟩

/-! ## What the call has written -/

theorem Clean.only (h : Clean db p)
    (hkind : ∀ v, kind ≠ .request v ∧ kind ≠ .edit (.profile (.verification v))) :
    Only kind db p :=
  ⟨Or.inr h.specialties, Or.inr h.services, Or.inr h.items, Or.inr h.objects,
    Or.inr ⟨hkind, h.requests⟩⟩

theorem Only.of_eq (h : Only kind db p) (hspecialties : db'.specialties = db.specialties)
    (hservices : db'.services = db.services) (hitems : db'.items = db.items)
    (hobjs : db'.objects = db.objects) (hreqs : db'.requests = db.requests) :
    Only kind db' p := by
  refine ⟨?_, ?_, ?_, ?_, ?_⟩
  · rw [hspecialties]
    exact h.specialties
  · rw [hservices]
    exact h.services
  · rw [hitems]
    exact h.items
  · rw [hobjs]
    exact h.objects
  · exact h.requests.imp
      (fun ⟨v, hv, ⟨hrow, honly⟩⟩ => ⟨v, hv, hreqs ▸ hrow, hreqs ▸ honly⟩)
      fun ⟨hkind, hu⟩ => ⟨hkind, hreqs ▸ hu⟩

theorem Edited.of_eq (h : Edited kind db p) (hprof : db'.professional = db.professional) :
    Edited kind db' p := by
  unfold Edited Written
  rw [hprof]
  exact h

theorem Bumped.of_eq {revision : ℕ} (h : Bumped kind revision db p)
    (hprof : db'.professional = db.professional) : Bumped kind revision db' p := by
  unfold Bumped
  rw [hprof]
  exact h

theorem edited_of_untouched (h : db.professional.Untouched p) (hkind : ∀ x, kind.Sets 0 x x) :
    Edited kind db p := Or.inl ⟨h, hkind⟩

theorem Edited.read (h : Edited kind db p) (hs : ProviderSound db) :
    ∃ x y, db.professional.committed () = some x ∧ db.professional.get p () = some y ∧
      kind.Sets 0 x y ∧ ∀ z, ¬(db.professional.row ()).Locked p →
        (db.professional.write p () z).row () = ⟨some x, some (p, z)⟩ := by
  rcases h with ⟨hu, hsets⟩ | ⟨x, y, hrow, hsets⟩
  · obtain ⟨x, hx⟩ := hs.there
    refine ⟨x, x, hx, hu.get_eq.trans hx, hsets x, ?_⟩
    intro z _
    rw [row_write (hu ()), hu.get_eq, hx]
  · refine ⟨x, y, committed_of_row hrow, (wrote_of_row hrow).get_eq, hsets, ?_⟩
    intro z _
    rw [row_write_self, hrow]
    rfl

theorem Kind.Sets.bump (h : kind.Sets 0 x y) : kind.Sets 1 x y.bump := by
  unfold Kind.Sets at h ⊢
  split at h
  · rw [h]
    rfl
  · obtain ⟨rfl, hval⟩ := h
    exact ⟨rfl, hval⟩
  · rw [h]
    rfl
  · rw [h]
    rfl

theorem Kind.Sets.revision {bumps : ℕ} (h : kind.Sets bumps x y) :
    y.revision = x.revision + bumps := by
  unfold Kind.Sets at h
  split at h
  · rw [h]
  · rw [h.1]
  · rw [h]
  · rw [h]

variable (config : ProviderConfig)

theorem profileSeen_ne_none
    (h : db.professional.get p () = some x) : profileSeen config db p ≠ none := by
  unfold profileSeen
  rw [h]
  simp

theorem shown_bump {e : Edit} {next : ℕ → ProviderPlace} (hs : ProviderSound db)
    (h : Phase.Work db p (.edits (.edit e)))
    (hnext : ∀ db' revision, Only (.edit e) db' p → Bumped (.edit e) revision db' p →
      db'.outbox.pending p = [] → ProviderWork db' p (next revision)) :
    Shown db p place (bumpRevision db p next) := by
  obtain ⟨honly, hedited, hpend⟩ := h
  unfold bumpRevision
  split
  · trivial
  · rename_i hupd
    obtain ⟨z, hget, -, hlock, rfl, rfl⟩ := update_eq_done hupd
    obtain ⟨x, _, -, hy, hsets, hrow⟩ := hedited.read hs
    cases hget.symm.trans hy
    refine passes_professional hs hlock (hnext _ _ (honly.of_eq rfl rfl rfl rfl rfl) ?_ hpend)
    refine ⟨x, z.bump, hrow _ hlock, hsets.bump, ?_⟩
    show z.revision + 1 = _
    rw [hsets.revision]
  · trivial

/-! ## A profile edit -/

theorem pick_of_eq {α : Type} [DecidableEq α] {x e row : α} (h : e = row) : pick x e row = x :=
  if_pos h

theorem Spares.sets {e row z : ProfessionalEntity} (h : Spares e row)
    (hsets : ProfileEdit.profile.kind.Sets 0 x z) :
    ProfileEdit.profile.kind.Sets 0 x (z.assign e row) := by
  have hz : z = { x with
      displayName := z.displayName
      bio := z.bio
      cityId := z.cityId
      revision := x.revision + 0 } := hsets
  show z.assign e row = _
  unfold ProfessionalEntity.assign
  rw [pick_of_eq h.ownerId, pick_of_eq h.verificationStatus, pick_of_eq h.revision,
    pick_of_eq h.avatarMediaId, pick_of_eq h.coverMediaId, pick_of_eq h.deletedAt]
  rw [hz]

theorem sets_profile : ProfileEdit.profile.kind.Sets 0 x x := rfl

theorem not_verification_profile (v : Transition) :
    ProfileEdit.profile.kind ≠ .request v ∧
      ProfileEdit.profile.kind ≠ .edit (.profile (.verification v)) := by
  constructor <;> rintro ⟨⟩

theorem passes_specialty {o : Option Unit} (hs : ProviderSound db)
    (hlock : ¬(db.specialties.row id).Locked p)
    (h : Phase.Work db p (.edits ProfileEdit.profile.kind))
    (hphase : place'.phase = .edits ProfileEdit.profile.kind)
    (hread : HasRead { db with specialties := db.specialties.write p id o } place') :
    Passes db p { db with specialties := db.specialties.write p id o } place' := by
  obtain ⟨honly, hedited, hpend⟩ := h
  refine passes_specialties hs hlock ⟨?_, hread⟩
  rw [hphase]
  exact ⟨⟨Or.inl rfl, honly.services, honly.items, honly.objects, honly.requests.imp
    (fun ⟨v, hv, htoken⟩ => ⟨v, hv, ⟨htoken.row, htoken.only⟩⟩) fun hu => hu⟩,
    hedited.of_eq rfl, hpend⟩

theorem shown_update (hs : ProviderSound db) (hm : Unhurried db p place)
    (hw : ProviderWork db p place) :
    Shown db p place (updateStatement config db p place) := by
  obtain ⟨hphase, hread⟩ := hw
  cases place with
  | findOwn =>
    simp only [updateStatement]
    split
    · trivial
    split
    · exact passes_refl hs ⟨hphase, trivial⟩
    · trivial
  | reload =>
    simp only [updateStatement]
    split
    · trivial
    rename_i row hget
    exact passes_refl hs ⟨hphase, hm row hget⟩
  | reloadSpecialties =>
    have hclean : Clean db p := hphase
    exact passes_refl hs ⟨⟨hclean.only not_verification_profile,
      edited_of_untouched hclean.professional fun _ => sets_profile, hclean.outbox⟩, hread⟩
  | insertSpecialties e row added =>
    cases added with
    | nil =>
      exact passes_refl hs ⟨hphase, hread⟩
    | cons =>
      simp only [updateStatement]
      split
      · trivial
      · trivial
      rename_i hins
      obtain ⟨rfl, hlock, -⟩ := Removable.insertOrIgnore_done hins
      exact passes_specialty hs hlock hphase rfl hread
  | writeColumns =>
    simp only [updateStatement]
    split
    · exact passes_refl hs ⟨hphase, trivial⟩
    · split
      · trivial
      split
      · trivial
      · rename_i hupd
        obtain ⟨_, hget, -, hlock, -, rfl⟩ := update_eq_done hupd
        obtain ⟨honly, hedited, hpend⟩ := hphase
        obtain ⟨x, y, -, hy, hsets, hrow⟩ := hedited.read hs
        cases hget.symm.trans hy
        exact passes_professional hs hlock ⟨⟨honly.of_eq rfl rfl rfl rfl rfl,
          Or.inr ⟨x, _, hrow _ hlock, hread.sets hsets⟩, hpend⟩, trivial⟩
      · exact passes_refl hs ⟨hphase, trivial⟩
  | removeSpecialties removed =>
    cases removed with
    | nil =>
      exact passes_refl hs ⟨hphase, trivial⟩
    | cons =>
      simp only [updateStatement]
      split
      · trivial
      · exact passes_refl hs ⟨hphase, trivial⟩
      · rename_i hremove
        obtain ⟨rfl, hlock⟩ := Removable.remove_done hremove
        exact passes_specialty hs hlock hphase rfl trivial
  | readProfile =>
    obtain ⟨_, _, -, hget, -⟩ := hphase.2.1.read hs
    simp only [updateStatement]
    split
    · rename_i hnone
      exact absurd hnone (profileSeen_ne_none config hget)
    · exact passes_refl hs ⟨hphase, trivial⟩
  | bumpProfile =>
    exact shown_bump hs hphase fun db' revision honly hbumped hpend =>
      ⟨⟨honly, hbumped, hpend⟩, trivial⟩
  | _ => trivial

/-! ## A service -/

theorem not_verification_service (k : Uuid) (v : Transition) :
    (ProfileEdit.service k).kind ≠ .request v ∧
      (ProfileEdit.service k).kind ≠ .edit (.profile (.verification v)) := by
  constructor <;> rintro ⟨⟩

theorem passes_serviceRow (hs : ProviderSound db) (hlock : ¬(db.services.row k).Locked p)
    (hclean : Clean db p) (hphase : place'.phase = .edits (ProfileEdit.service k).kind)
    (hread : HasRead { db with services := db.services.write p k s } place') :
    Passes db p { db with services := db.services.write p k s } place' := by
  refine passes_services hs hlock ⟨?_, hread⟩
  rw [hphase]
  exact ⟨⟨Or.inr hclean.specialties, Or.inl ⟨k, rfl, hclean.services.onlyAt.write⟩,
    Or.inr hclean.items, Or.inr hclean.objects,
    Or.inr ⟨not_verification_service k, hclean.requests⟩⟩,
    edited_of_untouched hclean.professional fun _ => rfl, hclean.outbox⟩

variable (env : ProviderEnv)

theorem shown_service (hs : ProviderSound db) (hw : ProviderWork db p place) :
    Shown db p place (serviceStatement env db p place) := by
  obtain ⟨hphase, -⟩ := hw
  cases place with
  | insertService =>
    have hclean : Clean db p := hphase
    simp only [serviceStatement]
    split
    · trivial
    · rename_i hins
      obtain ⟨rfl, rfl, hlock, -⟩ := insert_eq_done hins
      exact passes_serviceRow hs hlock hclean rfl trivial
    · trivial
  | findService =>
    simp only [serviceStatement]
    split
    · trivial
    split
    · exact passes_refl hs ⟨hphase, trivial⟩
    · trivial
  | reloadService =>
    simp only [serviceStatement]
    split
    · trivial
    exact passes_refl hs ⟨hphase, trivial⟩
  | writeService k e =>
    have hclean : Clean db p := hphase
    have hedits : ProviderWork db p (.bumpService k e) :=
      ⟨⟨hclean.only (not_verification_service k),
        edited_of_untouched hclean.professional fun _ => rfl, hclean.outbox⟩, trivial⟩
    simp only [serviceStatement]
    split
    · exact passes_refl hs hedits
    · split
      · trivial
      · rename_i hupd
        obtain ⟨z, -, -, hlock, -, rfl⟩ := update_eq_done hupd
        exact passes_serviceRow hs hlock hclean rfl trivial
      · exact passes_refl hs hedits
  | deleteService =>
    simp only [serviceStatement]
    split
    · trivial
    · rename_i hupd
      obtain ⟨_, -, -, hlock, -, rfl⟩ := update_eq_done hupd
      exact passes_serviceRow hs hlock hphase rfl trivial
    · exact ⟨_, rfl, Or.inr hphase⟩
  | findDeleted =>
    simp only [serviceStatement]
    split
    · trivial
    exact passes_refl hs ⟨hphase, trivial⟩
  | bumpService =>
    exact shown_bump hs hphase fun db' revision honly hbumped hpend =>
      ⟨⟨honly, hbumped, hpend⟩, trivial⟩
  | announceService k s =>
    obtain ⟨honly, hbumped, hpend⟩ := hphase
    refine passes_append hs ⟨⟨honly.of_eq rfl rfl rfl rfl rfl, hbumped.of_eq rfl,
      s.snapshot, env.now, ?_⟩, trivial⟩
    rw [Journal.pending_append_self, hpend]
    rfl
  | _ => trivial

/-! ## The portfolio and the images -/

theorem not_verification_media (e : MediaEdit) (v : Transition) :
    e.kind ≠ .request v ∧ e.kind ≠ .edit (.profile (.verification v)) := by
  constructor <;> rintro ⟨⟩

theorem sets_portfolio : MediaEdit.portfolio.kind.Sets 0 x x := rfl

theorem sets_image (kind : ImageKind) (mediaId : Option Uuid) :
    MediaEdit.profileImage.kind.Sets 0 x (x.setImage kind mediaId) := by
  cases kind <;> rfl

section

variable (hs : ProviderSound db)
include hs

theorem passes_item (hlock : ¬(db.items.row k).Locked p)
    (hclean : Clean db p) (hphase : place'.phase = .edits MediaEdit.portfolio.kind)
    (hread : HasRead { db with items := db.items.write p k i } place') :
    Passes db p { db with items := db.items.write p k i } place' := by
  refine passes_items hs hlock ⟨?_, hread⟩
  rw [hphase]
  exact ⟨⟨Or.inr hclean.specialties, Or.inr hclean.services, Or.inl rfl,
    Or.inr hclean.objects, Or.inr ⟨not_verification_media .portfolio, hclean.requests⟩⟩,
    edited_of_untouched hclean.professional fun _ => sets_portfolio, hclean.outbox⟩

theorem passes_object {e : MediaEdit} (hlock : ¬(db.objects.row k).Locked p)
    (h : Phase.Work db p (.edits e.kind)) :
    Passes db p { db with objects := db.objects.write p k o } (.readAvatar e) := by
  obtain ⟨honly, hedited, hpend⟩ := h
  exact passes_objects hs hlock ⟨⟨⟨honly.specialties, honly.services, honly.items,
    Or.inl ⟨e, rfl⟩, honly.requests.imp
      (fun ⟨v, hv, htoken⟩ => ⟨v, hv, ⟨htoken.row, htoken.only⟩⟩) fun hu => hu⟩,
    hedited.of_eq rfl, hpend⟩, trivial⟩

theorem passes_image {i : ImageInput} (hlock : ¬(db.professional.row ()).Locked p)
    (hclean : Clean db p) (hget : db.professional.get p () = some x)
    (hphase : place'.phase = .edits MediaEdit.profileImage.kind)
    (hread : ∀ db', HasRead db' place') :
    Passes db p
      { db with professional := db.professional.write p () (x.setImage i.kind i.mediaId) }
      place' := by
  have hrow : (db.professional.write p () (x.setImage i.kind i.mediaId)).row () =
      ⟨some x, some (p, x.setImage i.kind i.mediaId)⟩ := by
    rw [row_write (hclean.professional ()), hget]
  refine passes_professional hs hlock ⟨?_, hread _⟩
  rw [hphase]
  exact ⟨(hclean.only (not_verification_media .profileImage)).of_eq rfl rfl rfl rfl rfl,
    Or.inr ⟨x, _, hrow, sets_image i.kind i.mediaId⟩, hclean.outbox⟩

theorem shown_portfolio (hw : ProviderWork db p place) :
    Shown db p place (portfolioStatement config env db p place) := by
  obtain ⟨hphase, -⟩ := hw
  cases place with
  | countItems | claimItem | nextPosition | findItem | findProfessional | claimImage | findObject
  | readAvatar | readItems | describe =>
    simp only [portfolioStatement]
    repeat' split
    all_goals first | trivial | exact passes_refl hs ⟨hphase, trivial⟩
  | insertItem =>
    have hclean : Clean db p := hphase
    simp only [portfolioStatement]
    split
    · trivial
    · rename_i hins
      obtain ⟨-, rfl, hlock, -⟩ := insert_eq_done hins
      exact passes_item hs hlock hclean rfl trivial
    · trivial
  | deleteItem =>
    have hclean : Clean db p := hphase
    simp only [portfolioStatement]
    split
    · trivial
    · rename_i hupd
      obtain ⟨z, -, -, hlock, -, rfl⟩ := update_eq_done hupd
      exact passes_item hs hlock hclean rfl trivial
    · exact passes_refl hs ⟨⟨hclean.only (not_verification_media .portfolio),
        edited_of_untouched hclean.professional fun _ => sets_portfolio, hclean.outbox⟩, trivial⟩
  | writeImage =>
    have hclean : Clean db p := hphase
    simp only [portfolioStatement]
    split
    · trivial
    · rename_i hupd
      obtain ⟨_, hget, -, hlock, -, rfl⟩ := update_eq_done hupd
      repeat' split
      all_goals exact passes_image hs hlock hclean hget rfl fun _ => trivial
    · trivial
  | deleteObject =>
    simp only [portfolioStatement]
    split
    · trivial
    · rename_i hupd
      obtain ⟨_, -, -, hlock, -, rfl⟩ := update_eq_done hupd
      exact passes_object hs hlock hphase
    · exact passes_refl hs ⟨hphase, trivial⟩
  | bumpMedia =>
    exact shown_bump hs hphase fun db' revision honly hbumped hpend =>
      ⟨⟨honly, hbumped, hpend⟩, trivial⟩
  | announceMedia e imagery revision =>
    obtain ⟨honly, hbumped, hpend⟩ := hphase
    refine passes_append hs ⟨⟨honly.of_eq rfl rfl rfl rfl rfl, revision, hbumped.of_eq rfl,
      imagery, env.now, ?_⟩, trivial⟩
    rw [Journal.pending_append_self, hpend]
    rfl
  | _ => trivial

end

/-! ## A verification -/

theorem samePending_symm (r r' : VerificationRequestEntity) (h : SamePending r r') :
    SamePending r' r := ⟨h.2, h.1⟩

theorem sets_request : (Kind.request v).Sets 0 x x := rfl

theorem toStatus_ne (d : VerificationDecision) : d.toStatus ≠ .pending := by
  cases d <;> simp [VerificationDecision.toStatus]

theorem requestStatus_ne (d : VerificationDecision) : d.requestStatus ≠ .pending := by
  cases d <;> simp [VerificationDecision.requestStatus]

theorem passes_request (hlock : ¬(db.requests.row v.requestId).Locked p) (hclean : Clean db p)
    (hapart : Apart SamePending (db.requests.write p v.requestId r))
    (hcase : v.toStatus = .pending ∧ db.requests.get p v.requestId = none ∧ r.status = .pending ∨
      v.toStatus ≠ .pending ∧
        (∃ r₀, db.requests.get p v.requestId = some r₀ ∧ r₀.status = .pending) ∧
        r.status ≠ .pending) :
    Passes db p { db with requests := db.requests.write p v.requestId r } (.findBefore v) := by
  have htoken : Token { db with requests := db.requests.write p v.requestId r } p v :=
    ⟨⟨db.requests.get p v.requestId, r, row_write (hclean.requests v.requestId), hcase⟩,
      hclean.requests.onlyAt.write⟩
  exact passes_requests hlock hapart ⟨⟨⟨Or.inr hclean.specialties, Or.inr hclean.services,
    Or.inr hclean.items, Or.inr hclean.objects, Or.inl ⟨v, Or.inl rfl, htoken⟩⟩,
    edited_of_untouched hclean.professional fun _ => sets_request, hclean.outbox⟩, trivial⟩

theorem passes_compareAndSet {fromStatus : VerificationStatus} (hs : ProviderSound db)
    (hlock : ¬(db.professional.row ()).Locked p)
    (hw : ProviderWork db p (.compareAndSet v fromStatus))
    (hget : db.professional.get p () = some y) :
    Passes db p { db with professional := db.professional.write p () (y.moved v.toStatus) }
      (.bumpVerification v fromStatus) := by
  obtain ⟨⟨honly, hedited, hpend⟩, hval, x, hx, hstat⟩ := hw
  obtain ⟨_, _, hx', hy, hsets, hrow⟩ := hedited.read hs
  cases hget.symm.trans hy
  cases hx.symm.trans hx'
  have hy' : y = { x with revision := x.revision + 0 } := hsets
  have hmoved : (ProfileEdit.verification v).kind.Sets 0 x (y.moved v.toStatus) := by
    refine ⟨?_, hstat ▸ hval⟩
    rw [hy']
    rfl
  refine passes_professional hs hlock ⟨⟨?_, Or.inr ⟨x, _, hrow _ hlock, hmoved⟩, hpend⟩, trivial⟩
  refine ⟨Or.inr ?_, Or.inr ?_, Or.inr ?_, Or.inr ?_, Or.inl ⟨v, Or.inr rfl, honly.token.row,
    honly.token.only⟩⟩
  · exact honly.specialties.resolve_left (by simp)
  · exact honly.services.resolve_left (by simp)
  · exact honly.items.resolve_left (by simp)
  · exact honly.objects.resolve_left (by simp)

theorem shown_verification (hs : ProviderSound db) (hw : ProviderWork db p place) :
    Shown db p place (verificationStatement env db p place) := by
  cases place with
  | findByOwner =>
    simp only [verificationStatement]
    split
    · trivial
    split
    · split
      all_goals first | trivial | exact passes_refl hs ⟨hw.1, trivial⟩
    · trivial
  | insertRequest ownerUserId =>
    have hclean : Clean db p := hw.1
    simp only [verificationStatement]
    split
    · trivial
    · rename_i hins
      obtain ⟨-, rfl, hlock, hget, hfree⟩ := insert_eq_done hins
      refine passes_request (v := ⟨env.uuid, .pending, some ownerUserId, none⟩) hlock hclean
        (hs.apart.write samePending_symm hfree) ?_
      exact Or.inl ⟨rfl, hget, rfl⟩
    · trivial
  | findRequest =>
    simp only [verificationStatement]
    split
    · trivial
    exact passes_refl hs ⟨hw.1, trivial⟩
  | decideRequest i =>
    have hclean : Clean db p := hw.1
    simp only [verificationStatement]
    split
    · trivial
    · rename_i hupd
      obtain ⟨r, hget, hpend, hlock, -, rfl⟩ := update_eq_done hupd
      refine passes_request
        (v := ⟨i.requestId, i.decision.toStatus, some i.actorUserId, some i.reason⟩) hlock hclean
        (hs.apart.write samePending_symm ?_) ?_
      · rintro k - z - ⟨hsame, -⟩
        exact requestStatus_ne i.decision hsame
      · exact Or.inr ⟨toStatus_ne i.decision, ⟨r, hget, hpend⟩, requestStatus_ne i.decision⟩
    · trivial
  | findBefore =>
    obtain ⟨⟨honly, hedited, hpend⟩, -⟩ := hw
    simp only [verificationStatement]
    split
    · trivial
    rename_i z hget
    split
    · trivial
    split
    · rename_i hval
      obtain ⟨x, y, hx, hy, hsets, -⟩ := hedited.read hs
      cases hget.symm.trans hy
      have hz : z = { x with revision := x.revision + 0 } := hsets
      refine passes_refl hs ⟨⟨honly, hedited, hpend⟩, hval, x, hx, ?_⟩
      rw [hz]
    · trivial
  | compareAndSet v fromStatus =>
    obtain ⟨⟨-, hedited, -⟩, -, x, hx, hstat⟩ := id hw
    obtain ⟨_, y, hx', hget, hsets, -⟩ := hedited.read hs
    cases hx.symm.trans hx'
    have hy : y = { x with revision := x.revision + 0 } := hsets
    have hmatches : y.verificationStatus = fromStatus := by
      rw [hy]
      exact hstat
    simp only [verificationStatement]
    cases hupd : db.professional.update p () (fun x => x.verificationStatus = fromStatus)
        (·.moved v.toStatus) with
    | waits => trivial
    | unmatched => exact absurd hmatches (update_eq_unmatched hupd y hget)
    | violated => exact absurd hupd update_ne_violated
    | done z t =>
      obtain ⟨_, hget', -, hlock, -, rfl⟩ := update_eq_done hupd
      exact passes_compareAndSet hs hlock hw hget'
  | bumpVerification =>
    exact shown_bump hs hw.1 fun db' revision honly hbumped hpend =>
      ⟨⟨honly, hbumped, hpend⟩, trivial⟩
  | announceVerification v fromStatus =>
    obtain ⟨⟨honly, hbumped, hpend⟩, -⟩ := hw
    simp only [verificationStatement, emit]
    refine passes_append hs ⟨⟨honly.of_eq rfl rfl rfl rfl rfl, hbumped.of_eq rfl,
      fromStatus, env.now, ?_⟩, trivial⟩
    show (db.outbox.append p _).pending p = _
    rw [Journal.pending_append_self, hpend]
    rfl
  | _ => trivial

/-! ## `emitProfessionalUpdated`, and all of them -/

theorem shown_announce (hs : ProviderSound db) (hw : ProviderWork db p place) :
    Shown db p place (announceStatement config env db p place) := by
  cases place with
  | readChanged =>
    obtain ⟨⟨-, ⟨_, _, hrow, -⟩, -⟩, -⟩ := id hw
    simp only [announceStatement]
    split
    · rename_i hnone
      exact absurd hnone (profileSeen_ne_none config (wrote_of_row hrow).get_eq)
    · exact passes_refl hs ⟨hw.1, trivial⟩
  | announceProfile e profile revision =>
    obtain ⟨⟨honly, hbumped, hbegun⟩, -⟩ := hw
    simp only [announceStatement, emit]
    refine passes_append hs ⟨⟨honly.of_eq rfl rfl rfl rfl rfl, revision, hbumped.of_eq rfl,
      db.outbox.pending p, profile, env.now, hbegun, ?_⟩, trivial⟩
    show (db.outbox.append p _).pending p = _
    rw [Journal.pending_append_self]
  | finish e => exact ⟨e, rfl, Or.inl rfl⟩
  | _ => trivial

/-- What each statement of an edit keeps. -/
theorem shown_statement (hs : ProviderSound db)
    (hm : Unhurried db p place) (hw : ProviderWork db p place) :
    Shown db p place (providerStatement config env db p place) := by
  unfold providerStatement
  split
  · exact shown_update config hs hm hw
  · exact shown_service env hs hw
  · exact shown_portfolio config env hs hw
  · exact shown_verification env hs hw
  · exact shown_announce config env hs hw

end BeauClick.Provider
