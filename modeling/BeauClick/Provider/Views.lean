import BeauClick.Provider.Commits

/-!
# What the events tell

* `Tells` — an event carries what is committed.
* `Alike` — two calls that read the same write the same event.
* `alike_commit` — a commit shows to all what its call has read.
-/

namespace BeauClick.Provider

open Locks ReadCommitted ReadCommitted.Versioned Runs Transactions List

variable {config : ProviderConfig} {db db' : ProviderDb} {p q : ℕ}
  {x y : ProfessionalEntity} {event : ProviderEvent}

/-- What an event is about. -/
inductive Topic where
  | profile
  | verification
  | service (serviceId : Uuid)
  | imagery
  deriving DecidableEq

/-- What an event is about. -/
def ProviderEvent.topic : ProviderEvent → Topic
  | .professionalUpdated .. => .profile
  | .professionalVerificationChanged .. => .verification
  | .serviceOfferingUpdated _ serviceId .. => .service serviceId
  | .professionalMediaChanged .. => .imagery

/-- The event tells what the call reads. -/
def Carries (config : ProviderConfig) (db : ProviderDb) (p : ℕ) : ProviderEvent → Prop
  | .professionalUpdated _ profile _ => profileSeen config db p = some profile
  | .professionalVerificationChanged .. => True
  | .serviceOfferingUpdated _ serviceId service _ =>
    (db.services.get p serviceId).map ServiceOfferingEntity.snapshot = some service
  | .professionalMediaChanged _ imagery _ => imagerySeen config db p = imagery

/-- The tables when every transaction at work is rolled back. -/
def ProviderDb.settle (db : ProviderDb) : ProviderDb where
  professional := db.professional.settle
  specialties := Versioned.settle db.specialties
  services := db.services.settle
  items := db.items.settle
  objects := db.objects.settle
  requests := db.requests.settle
  outbox := ⟨db.outbox.committed, fun _ => []⟩

/-- The event tells what is committed. -/
def Tells (config : ProviderConfig) (db : ProviderDb) (event : ProviderEvent) : Prop :=
  Carries config db.settle 0 event

/-! ## Reads of the same rows -/

theorem insertionSort_congr {α : Type} {r : α → α → Prop} [DecidableRel r]
    (htot : ∀ a b, r a b ∨ r b a) (htrans : ∀ a b c, r a b → r b c → r a c) {l l' : List α}
    (hanti : ∀ a ∈ l, ∀ b ∈ l', r a b → r b a → a = b) (hperm : l.Perm l') :
    l.insertionSort r = l'.insertionSort r := by
  have : Std.Total r := ⟨htot⟩
  have : IsTrans α r := ⟨htrans⟩
  have hsort : (l.insertionSort r).Perm (l'.insertionSort r) :=
    (perm_insertionSort r l).trans (hperm.trans (perm_insertionSort r l').symm)
  refine hsort.eq_of_pairwise ?_ (pairwise_insertionSort r l)
    (pairwise_insertionSort r l')
  intro a b ha hb
  exact hanti a ((mem_insertionSort r).1 ha) b ((mem_insertionSort r).1 hb)

theorem specialtyIdsSeen_congr
    (h : ∀ k, Versioned.get db'.specialties q k = Versioned.get db.specialties p k) :
    specialtyIdsSeen db' q = specialtyIdsSeen db p := by
  have hnodup : ∀ (db : ProviderDb) (p : ℕ), ((db.specialties.rows p).map Prod.fst).Nodup := by
    intro db p
    rw [Removable.rows, map_filterMap]
    refine db.specialties.nodup.filterMap ?_
    intro k k' j hk hk'
    simp only [Option.map_map, Option.mem_def, Option.map_eq_some_iff, Function.comp] at hk hk'
    obtain ⟨-, -, rfl⟩ := hk
    obtain ⟨-, -, rfl⟩ := hk'
    rfl
  refine insertionSort_congr le_total (fun _ _ _ => le_trans) (fun _ _ _ _ => le_antisymm) ?_
  refine (perm_ext_iff_of_nodup (hnodup db' q) (hnodup db p)).2 ?_
  intro k
  simp only [mem_map, Prod.exists, exists_and_right, exists_eq_right, Removable.mem_rows,
    Removable.find, h]

theorem before_total (m n i j : ℕ) : (m < n ∨ m = n ∧ i ≤ j) ∨ (n < m ∨ n = m ∧ j ≤ i) := by
  omega

theorem before_trans {m n l i j k : ℕ} (h : m < n ∨ m = n ∧ i ≤ j) (h' : n < l ∨ n = l ∧ j ≤ k) :
    m < l ∨ m = l ∧ i ≤ k := by
  omega

theorem before_antisymm {m n i j : ℕ} (h : m < n ∨ m = n ∧ i ≤ j) (h' : n < m ∨ n = m ∧ j ≤ i) :
    i = j := by
  omega

theorem mem_itemsSeen {kx : Uuid × PortfolioItemEntity} :
    kx ∈ (db.items.keys.filterMap fun k =>
      match db.items.get p k with
      | some x => if x.deletedAt = none then some (k, x) else none
      | none => none) ↔ db.items.get p kx.1 = some kx.2 ∧ kx.2.deletedAt = none := by
  obtain ⟨k, x⟩ := kx
  rw [mem_filterMap]
  constructor
  · rintro ⟨_, -, hk'⟩
    split at hk'
    · rename_i x' hget
      split at hk'
      · rename_i hlive
        cases hk'
        exact ⟨hget, hlive⟩
      · cases hk'
    · cases hk'
  · rintro ⟨hget, hlive⟩
    have hget' : db.items.get p k = some x := hget
    refine ⟨k, mem_keys (version_of_get hget'), ?_⟩
    rw [hget']
    exact if_pos hlive

theorem itemsSeen_congr (h : ∀ k, db'.items.get q k = db.items.get p k) :
    itemsSeen db' q = itemsSeen db p := by
  have hnodup : ∀ (db : ProviderDb) (p : ℕ), (db.items.keys.filterMap fun k =>
      match db.items.get p k with
      | some x => if x.deletedAt = none then some (k, x) else none
      | none => none).Nodup := by
    intro db p
    refine db.items.nodup.filterMap ?_
    intro k k' kx hk hk'
    have hfst : ∀ j, kx ∈ (match db.items.get p j with
        | some x => if x.deletedAt = none then some (j, x) else none
        | none => none) → kx.1 = j := by
      intro j hj
      split at hj
      · split at hj
        · cases hj
          rfl
        · cases hj
      · cases hj
    exact (hfst k hk).symm.trans (hfst k' hk')
  refine insertionSort_congr ?_ ?_ ?_ ((perm_ext_iff_of_nodup (hnodup db' q)
    (hnodup db p)).2 ?_)
  · intro a b
    exact before_total _ _ _ _
  · intro a b c hab hbc
    exact before_trans hab hbc
  · intro a ha b hb hab hba
    have hk : a.1 = b.1 := before_antisymm hab hba
    have ha' := (mem_itemsSeen.1 ha).1
    have hb' := (mem_itemsSeen.1 hb).1
    rw [h, hk, hb'] at ha'
    exact Prod.ext hk (Option.some.inj ha').symm
  · intro kx
    rw [mem_itemsSeen, mem_itemsSeen, h]

theorem describeSeen_congr (h : ∀ k, db'.objects.get q k = db.objects.get p k) :
    describeSeen config db' q = describeSeen config db p := by
  funext mediaId
  unfold describeSeen
  rw [h]

theorem profileSeen_congr (hx : db.professional.get p () = some x)
    (hy : db'.professional.get q () = some y)
    (hsame : y.displayName = x.displayName ∧ y.bio = x.bio ∧ y.cityId = x.cityId ∧
      y.verificationStatus = x.verificationStatus ∧ y.deletedAt = x.deletedAt)
    (hspecialties : ∀ k, Versioned.get db'.specialties q k = Versioned.get db.specialties p k) :
    profileSeen config db' q = profileSeen config db p := by
  obtain ⟨hname, hbio, hcity, hstat, hdel⟩ := hsame
  unfold profileSeen
  rw [hx, hy, specialtyIdsSeen_congr hspecialties, Option.map_some, Option.map_some, hname, hbio,
    hcity, hstat, hdel]

theorem imagerySeen_congr (hx : db.professional.get p () = some x)
    (hy : db'.professional.get q () = some y) (hsame : y.avatarMediaId = x.avatarMediaId)
    (hitems : ∀ k, db'.items.get q k = db.items.get p k)
    (hobjs : ∀ k, db'.objects.get q k = db.objects.get p k) :
    imagerySeen config db' q = imagerySeen config db p := by
  unfold imagerySeen snapshotOf
  rw [hx, hy, itemsSeen_congr hitems, describeSeen_congr hobjs, Option.bind_some,
    Option.bind_some, hsame]

/-! ## Calls that read the same -/

/-- The one reads what the other reads, up to the revision. -/
structure Alike (db : ProviderDb) (p : ℕ) (db' : ProviderDb) (q : ℕ) : Prop where
  professional : ∃ x y, db.professional.get p () = some x ∧ db'.professional.get q () = some y ∧
    y = { x with revision := y.revision }
  specialties : ∀ k, Versioned.get db'.specialties q k = Versioned.get db.specialties p k
  services : ∀ k, db'.services.get q k = db.services.get p k
  items : ∀ k, db'.items.get q k = db.items.get p k
  objects : ∀ k, db'.objects.get q k = db.objects.get p k

theorem Alike.profile (h : Alike db p db' q) :
    profileSeen config db' q = profileSeen config db p := by
  obtain ⟨_, _, hx, hy, hsame⟩ := h.professional
  refine profileSeen_congr hx hy ?_ h.specialties
  rw [hsame]
  exact ⟨rfl, rfl, rfl, rfl, rfl⟩

theorem Alike.imagery (h : Alike db p db' q) :
    imagerySeen config db' q = imagerySeen config db p := by
  obtain ⟨_, _, hx, hy, hsame⟩ := h.professional
  refine imagerySeen_congr hx hy ?_ h.items h.objects
  rw [hsame]

theorem Carries.alike (h : Carries config db p event) (ha : Alike db p db' q) :
    Carries config db' q event := by
  cases event with
  | professionalUpdated revision profile => exact ha.profile.trans h
  | professionalVerificationChanged => trivial
  | serviceOfferingUpdated revision serviceId =>
    show (db'.services.get q serviceId).map _ = _
    rw [ha.services]
    exact h
  | professionalMediaChanged revision imagery => exact ha.imagery.trans h

theorem SameView.alike (h : SameView q db db') (hx : db.professional.get q () = some x) :
    Alike db q db' q :=
  ⟨⟨x, x, hx, (h.professional ()).trans hx, rfl⟩, h.specialties, h.services, h.items, h.objects⟩

theorem alike_commit (hx : db.professional.get p () = some x) :
    Alike db p (db.commit p).settle 0 :=
  ⟨⟨x, x, hx, get_settle.trans (committed_commit.trans hx), rfl⟩,
    fun _ => get_settle.trans committed_commit, fun _ => get_settle.trans committed_commit,
    fun _ => get_settle.trans committed_commit, fun _ => get_settle.trans committed_commit⟩

theorem SameCommitted.alike (h : SameCommitted db db')
    (hx : db.professional.committed () = some x) : Alike db.settle 0 db'.settle 0 where
  professional := by
    refine ⟨x, x, get_settle.trans hx, get_settle.trans ?_, rfl⟩
    rw [h.professional]
    exact hx
  specialties _ := get_settle.trans ((congrFun h.specialties _).trans get_settle.symm)
  services _ := get_settle.trans ((congrFun h.services _).trans get_settle.symm)
  items _ := get_settle.trans ((congrFun h.items _).trans get_settle.symm)
  objects _ := get_settle.trans ((congrFun h.objects _).trans get_settle.symm)

end BeauClick.Provider
