import BeauClick.Lib.RevisionGuard
import BeauClick.Search.Documents

/-!
# The projection under reordering

The handlers of `apps/api/src/events/search-projection.handlers.ts` for the events of a
professional, delivered in any order and any number of times.

The two kinds of event share one revision.  An edit of the profile that is delivered after a
later change of the imagery is dropped, and the other way round, although they write different
columns; and a change of the imagery is dropped while there is no document.
-/

namespace BeauClick.Search

open Revision SearchStore List

/-! ## Events and handlers -/

/-- The payload of `ProfessionalUpdated`. -/
structure ProfessionalUpdated where
  professionalId : Uuid
  revision : ℕ
  profile : ProfileColumns
  deriving DecidableEq

/-- The events of a professional that share the revision. -/
inductive ProfessionalEvent where
  | updated (payload : ProfessionalUpdated)
  | mediaChanged (payload : ProfessionalMediaProjection)
  deriving DecidableEq

namespace ProfessionalEvent

def professionalId : ProfessionalEvent → Uuid
  | updated payload => payload.professionalId
  | mediaChanged payload => payload.professionalId

def revision : ProfessionalEvent → ℕ
  | updated payload => payload.revision
  | mediaChanged payload => payload.revision

def profile? : ProfessionalEvent → Option ProfileColumns
  | updated payload => some payload.profile
  | mediaChanged _ => none

def imagery? : ProfessionalEvent → Option ImageryColumns
  | updated _ => none
  | mediaChanged payload => some payload.imagery

end ProfessionalEvent

/-- A delivery, the catalogue that the handler fetches then, and the time of it. -/
structure ProfessionalDelivery where
  event : ProfessionalEvent
  offerings : List IndexedService
  now : Instant

/-- `ProfessionalUpdatedSearchHandler.handle` and `ProfessionalMediaSearchHandler.handle`. -/
def handleProfessional (scorer : Scorer) (s : SearchStore) (d : ProfessionalDelivery) :
    SearchStore :=
  match d.event with
  | .updated payload =>
    (s.applyProfessional scorer
      ⟨payload.professionalId, payload.revision, payload.profile, some d.offerings⟩ d.now).2
  | .mediaChanged payload => (s.applyMedia scorer payload d.now).2

/-- The store after some deliveries. -/
def handleAll (scorer : Scorer) (s : SearchStore) (ds : List ProfessionalDelivery) : SearchStore :=
  ds.foldl (handleProfessional scorer) s

/-! ## The columns as a record under a revision -/

/-- What an event changes. -/
def ProfessionalEvent.change : ProfessionalEvent → Revision.Change ProfileColumns ImageryColumns
  | updated payload => ⟨payload.revision, .inl payload.profile⟩
  | mediaChanged payload => ⟨payload.revision, .inr payload.imagery⟩

/-- The columns of a document that the two kinds of event own. -/
def ProviderDocument.columns (doc : ProviderDocument) :
    Revision.Record ProfileColumns ImageryColumns :=
  ⟨doc.revision, doc.profile, doc.imagery⟩

/-- The columns of the document of a professional. -/
def columnsOf (s : SearchStore) (id : Uuid) :
    Option (Revision.Record ProfileColumns ImageryColumns) :=
  (s.documents.row id).map (·.columns)

variable {scorer : Scorer} {s : SearchStore} {id : Uuid} {now : Instant}

@[simp] theorem columnsOf_rescore : columnsOf (s.rescore scorer id now) id = columnsOf s id := by
  unfold columnsOf
  rw [row_rescore_self, Option.map_map]
  rfl

theorem columnsOf_set {doc : ProviderDocument} :
    columnsOf { s with documents := s.documents.set id doc } id = some doc.columns := by
  simp [columnsOf]

theorem columnsOf_applyProfessional {p : ProfessionalProjection} :
    columnsOf (s.applyProfessional scorer p now).2 p.professionalId =
      Revision.deliver .default (columnsOf s p.professionalId) ⟨p.revision, .inl p.profile⟩ := by
  unfold applyProfessional upsertProfessional
  cases hdoc : s.documents.row p.professionalId with
  | none =>
    have hcol : columnsOf s p.professionalId = none := by simp [columnsOf, hdoc]
    simp only [columnsOf_rescore, columnsOf_set, hcol, deliver]
    rfl
  | some doc =>
    have hcol : columnsOf s p.professionalId = some doc.columns := by simp [columnsOf, hdoc]
    by_cases hlt : doc.revision < p.revision
    · have hrev : doc.columns.revision < p.revision := hlt
      simp only [if_pos hlt, columnsOf_rescore, columnsOf_set, hcol, deliver, if_pos hrev]
      rfl
    · have hrev : ¬ doc.columns.revision < p.revision := hlt
      simp only [if_neg hlt, hcol, deliver, if_neg hrev]

theorem columnsOf_applyMedia {m : ProfessionalMediaProjection} :
    columnsOf (s.applyMedia scorer m now).2 m.professionalId =
      Revision.deliver .default (columnsOf s m.professionalId) ⟨m.revision, .inr m.imagery⟩ := by
  unfold applyMedia updateMedia
  cases hdoc : s.documents.row m.professionalId with
  | none =>
    have hcol : columnsOf s m.professionalId = none := by simp [columnsOf, hdoc]
    simp only [hcol, deliver]
  | some doc =>
    have hcol : columnsOf s m.professionalId = some doc.columns := by simp [columnsOf, hdoc]
    by_cases hle : doc.revision ≤ m.revision
    · have hrev : doc.columns.revision ≤ m.revision := hle
      simp only [if_pos hle, columnsOf_rescore, columnsOf_set, hcol, deliver, if_pos hrev]
      rfl
    · have hrev : ¬ doc.columns.revision ≤ m.revision := hle
      simp only [if_neg hle, hcol, deliver, if_neg hrev]

theorem columnsOf_handle {d : ProfessionalDelivery} (hid : d.event.professionalId = id) :
    columnsOf (handleProfessional scorer s d) id =
      Revision.deliver .default (columnsOf s id) d.event.change := by
  subst hid
  unfold handleProfessional
  cases d.event with
  | updated => exact columnsOf_applyProfessional
  | mediaChanged => exact columnsOf_applyMedia

theorem columnsOf_handleAll {ds : List ProfessionalDelivery}
    (hid : ∀ d ∈ ds, d.event.professionalId = id) :
    columnsOf (handleAll scorer s ds) id =
      (ds.map (·.event.change)).foldl (Revision.deliver .default) (columnsOf s id) := by
  induction ds generalizing s with
  | nil => rfl
  | cons d ds ih =>
    show columnsOf (handleAll scorer (handleProfessional scorer s d) ds) id = _
    rw [ih fun d' h => hid d' (mem_cons_of_mem d h),
      columnsOf_handle (hid d mem_cons_self)]
    rfl

/-! ## Convergence -/

/-- The profile of the latest event that carries one. -/
def latestProfile (history : List ProfessionalEvent) : Option ProfileColumns :=
  (history.filterMap (·.profile?)).getLast?

/-- The imagery of the latest event that carries one. -/
def latestImagery (history : List ProfessionalEvent) : Option ImageryColumns :=
  (history.filterMap (·.imagery?)).getLast?

/-- The document has the columns of the latest event of each kind. -/
structure Converged (s : SearchStore) (id : Uuid) (history : List ProfessionalEvent) : Prop where
  profile : ∀ p, latestProfile history = some p →
    ∃ doc, s.documents.row id = some doc ∧ doc.profile = p
  imagery : ∀ m, latestImagery history = some m →
    ∃ doc, s.documents.row id = some doc ∧ doc.imagery = m

/-- Deliveries as changes under the revision. -/
def changes (ds : List ProfessionalDelivery) :
    List (Revision.Change ProfileColumns ImageryColumns) := ds.map (·.event.change)

/-- Of the profiles delivered in time, the newest is `p`. -/
def TimelyProfile (ds : List ProfessionalDelivery) (p : ProfileColumns) : Prop :=
  ∃ c, Revision.Newest (changes ds) c ∧ c.content = .inl p

/-- Of the imageries delivered in time, the newest is `m`; or none is, a profile was delivered,
and `m` is what a new document has. -/
def TimelyImagery (ds : List ProfessionalDelivery) (m : ImageryColumns) : Prop :=
  (∃ c, Revision.Newest (changes ds) c ∧ c.content = .inr m) ∨
    (∃ d ∈ ds, d.event.profile?.isSome) ∧
      (∀ c, Revision.InTime (changes ds) c → c.content.isLeft) ∧ m = .default

variable {history : List ProfessionalEvent} {ds : List ProfessionalDelivery}

@[simp] theorem ProfessionalEvent.revision_change (e : ProfessionalEvent) :
    e.change.revision = e.revision := by
  cases e <;> rfl

open ProfessionalEvent

theorem distinct_changes (hsort : history.Pairwise fun e f => e.revision < f.revision)
    (hfrom : ∀ d ∈ ds, d.event ∈ history) : Revision.Distinct (changes ds) := by
  have hnodup : (history.map (·.revision)).Nodup := by
    rw [List.Nodup, pairwise_map]
    exact hsort.imp fun h => Nat.ne_of_lt h
  intro x hx y hy hrev
  obtain ⟨d, hd, rfl⟩ := mem_map.1 hx
  obtain ⟨d', hd', rfl⟩ := mem_map.1 hy
  simp only [revision_change] at hrev
  rw [inj_on_of_nodup_map hnodup (hfrom d hd) (hfrom d' hd') hrev]

theorem columnsOf_new (scorer : Scorer) (hnew : s.documents.row id = none)
    (hid : ∀ d ∈ ds, d.event.professionalId = id) :
    columnsOf (handleAll scorer s ds) id = Revision.delivered .default (changes ds) := by
  rw [columnsOf_handleAll hid]
  have hnone : columnsOf s id = none := by rw [columnsOf, hnew]; rfl
  rw [hnone]
  rfl

theorem profile_delivered_iff :
    (∃ d ∈ ds, d.event.profile?.isSome) ↔ Revision.live (changes ds) ≠ [] := by
  rw [live_ne_nil_iff, changes]
  simp only [mem_map, exists_exists_and_eq_and]
  refine exists_congr fun d => and_congr_right fun _ => ?_
  cases d.event <;> simp [profile?, change]

section

variable (hid : ∀ d ∈ ds, d.event.professionalId = id)
include hid

theorem profile_iff (hcs : Revision.Distinct (changes ds)) (hnew : s.documents.row id = none)
    {p : ProfileColumns} :
    (∃ doc, (handleAll scorer s ds).documents.row id = some doc ∧ doc.profile = p) ↔
      TimelyProfile ds p := by
  have hcol := columnsOf_new scorer hnew hid
  rcases reflects ImageryColumns.default hcs with
    ⟨hnone, hlive⟩ | ⟨g, hg, hrefl⟩
  · rw [hnone] at hcol
    constructor
    · rintro ⟨doc, hdoc, -⟩
      rw [columnsOf, hdoc] at hcol
      cases hcol
    · rintro ⟨c, hc, -⟩
      exact absurd hlive (ne_nil_of_mem hc.1.mem_live)
  · rw [hg] at hcol
    obtain ⟨doc, hdoc, rfl⟩ := Option.map_eq_some_iff.1 hcol
    obtain ⟨e, he, hleft⟩ := hrefl.left
    constructor
    · rintro ⟨_, hdoc', rfl⟩
      cases hdoc.symm.trans hdoc'
      exact ⟨e, he, hleft⟩
    · rintro ⟨_, hc, hcont⟩
      refine ⟨doc, hdoc, ?_⟩
      obtain rfl := hc.eq hcs he (by rw [hcont, hleft]; rfl)
      exact Sum.inl.inj (hleft.symm.trans hcont)

theorem imagery_iff (hcs : Revision.Distinct (changes ds)) (hnew : s.documents.row id = none)
    {m : ImageryColumns} :
    (∃ doc, (handleAll scorer s ds).documents.row id = some doc ∧ doc.imagery = m) ↔
      TimelyImagery ds m := by
  have hcol := columnsOf_new scorer hnew hid
  rcases reflects ImageryColumns.default hcs with
    ⟨hnone, hlive⟩ | ⟨g, hg, hrefl⟩
  · rw [hnone] at hcol
    constructor
    · rintro ⟨doc, hdoc, -⟩
      rw [columnsOf, hdoc] at hcol
      cases hcol
    · rintro (⟨c, hc, -⟩ | ⟨hmade, -, -⟩)
      · exact absurd hlive (ne_nil_of_mem hc.1.mem_live)
      · exact absurd hlive (profile_delivered_iff.1 hmade)
  · rw [hg] at hcol
    obtain ⟨doc, hdoc, rfl⟩ := Option.map_eq_some_iff.1 hcol
    constructor
    · rintro ⟨_, hdoc', rfl⟩
      cases hdoc.symm.trans hdoc'
      rcases hrefl.right with ⟨e, he, hright⟩ | ⟨hleft, hdefault⟩
      · exact Or.inl ⟨e, he, hright⟩
      · exact Or.inr ⟨profile_delivered_iff.2 hrefl.live_ne_nil, hleft, hdefault⟩
    · intro hm
      refine ⟨doc, hdoc, ?_⟩
      rcases hrefl.right with ⟨e, he, hright⟩ | ⟨hleft, hdefault⟩
      · rcases hm with ⟨c, hc, hcont⟩ | ⟨-, hnone, -⟩
        · obtain rfl := hc.eq hcs he (by rw [hcont, hright]; rfl)
          exact Sum.inr.inj (hright.symm.trans hcont)
        · have hkind := hnone e he.1
          rw [hright] at hkind
          cases hkind
      · rcases hm with ⟨c, hc, hcont⟩ | ⟨-, -, hm⟩
        · have hkind := hleft c hc.1
          rw [hcont] at hkind
          cases hkind
        · exact hdefault.trans hm.symm

end

/-- The document of a professional ends with the columns of the latest event of each kind
exactly when these are also the newest that were delivered in time. -/
theorem projection_converges_iff (hnew : s.documents.row id = none)
    (hsorted : history.Pairwise fun e f => e.revision < f.revision)
    (hown : ∀ e ∈ history, e.professionalId = id) (hfrom : ∀ d ∈ ds, d.event ∈ history) :
    Converged (handleAll scorer s ds) id history ↔
      (∀ p, latestProfile history = some p → TimelyProfile ds p) ∧
        ∀ m, latestImagery history = some m → TimelyImagery ds m := by
  have hcs := distinct_changes hsorted hfrom
  have hid : ∀ d ∈ ds, d.event.professionalId = id := fun d hd => hown _ (hfrom d hd)
  constructor
  · intro h
    refine ⟨?_, ?_⟩
    · exact fun p hp => (profile_iff hid hcs hnew).1 (h.profile p hp)
    · exact fun m hm => (imagery_iff hid hcs hnew).1 (h.imagery m hm)
  · rintro ⟨hprof, himagery⟩
    refine ⟨?_, ?_⟩
    · exact fun p hp => (profile_iff hid hcs hnew).2 (hprof p hp)
    · exact fun m hm => (imagery_iff hid hcs hnew).2 (himagery m hm)

/-! ## An edit delivered late -/

namespace LateEdit

def studio : ProfileColumns :=
  ⟨"Studio", none, none, none, [], [], "verified", false, 100⟩

def renamed : ProfileColumns :=
  ⟨"Salon", none, none, none, [], [], "verified", false, 200⟩

def portrait : ImageryColumns := ⟨some "portrait", some 640, some 640, 0, []⟩

/-- A profile is made and renamed, then the portrait is changed. -/
def edits : List ProfessionalEvent :=
  [.updated ⟨1, 1, studio⟩, .updated ⟨1, 2, renamed⟩, .mediaChanged ⟨1, 3, portrait⟩]

/-- The new name is delivered after the portrait. -/
def deliveries : List ProfessionalDelivery :=
  [⟨.updated ⟨1, 1, studio⟩, [], 110⟩, ⟨.mediaChanged ⟨1, 3, portrait⟩, [], 310⟩,
    ⟨.updated ⟨1, 2, renamed⟩, [], 320⟩]

/-- The portrait is delivered too early, and again at the end. -/
def redelivered : List ProfessionalDelivery :=
  [⟨.mediaChanged ⟨1, 3, portrait⟩, [], 305⟩, ⟨.updated ⟨1, 2, renamed⟩, [], 310⟩,
    ⟨.updated ⟨1, 1, studio⟩, [], 320⟩, ⟨.mediaChanged ⟨1, 3, portrait⟩, [], 330⟩]

/-- The tables before any event. -/
def store : SearchStore := ⟨.empty, .empty, []⟩

def flat : Scorer := fun _ _ _ => ⟨0, []⟩

theorem timelyProfile : TimelyProfile redelivered renamed := by
  refine ⟨⟨2, .inl renamed⟩, ⟨⟨[⟨3, .inr portrait⟩], [⟨1, .inl studio⟩, ⟨3, .inr portrait⟩], rfl,
    ?_, ?_⟩, ?_⟩, rfl⟩
  · rintro ⟨⟩
  · intro f hf
    cases hf
  · intro f hf hkind
    have hmem : f ∈ changes redelivered := hf.mem
    simp only [changes, redelivered, change, map_cons, map_nil,
      mem_cons, not_mem_nil, or_false] at hmem
    rcases hmem with rfl | rfl | rfl | rfl
    · cases hkind
    · exact le_rfl
    · exact Nat.le_succ 1
    · cases hkind

theorem timelyImagery : TimelyImagery redelivered portrait := by
  refine Or.inl ⟨⟨3, .inr portrait⟩, ⟨⟨[⟨3, .inr portrait⟩, ⟨2, .inl renamed⟩, ⟨1, .inl studio⟩],
    [], rfl, ?_, ?_⟩, ?_⟩, rfl⟩
  · rintro -
    exact cons_ne_nil _ _
  · intro f hf
    rcases mem_pair.1 hf with rfl | rfl
    · exact Nat.lt_succ_self 2
    · exact Nat.lt_of_succ_le (Nat.le_succ 2)
  · intro f hf _
    have hmem : f ∈ changes redelivered := hf.mem
    simp only [changes, redelivered, change, map_cons, map_nil,
      mem_cons, not_mem_nil, or_false] at hmem
    rcases hmem with rfl | rfl | rfl | rfl <;> decide

end LateEdit

/-- Two changes lost once each, and both made up for by a redelivery. -/
theorem projection_converges_redelivered :
    Converged (handleAll LateEdit.flat LateEdit.store LateEdit.redelivered) 1 LateEdit.edits := by
  refine (projection_converges_iff rfl (by decide) (by decide) (by decide)).2 ⟨?_, ?_⟩
  · rintro p ⟨⟩
    exact LateEdit.timelyProfile
  · rintro m ⟨⟩
    exact LateEdit.timelyImagery

/-- The new name, older than the portrait, is never shown. -/
theorem projection_converges_lateEdit_fails :
    ¬ ∀ (scorer : Scorer) (s : SearchStore) (id : Uuid) (history : List ProfessionalEvent)
      (ds : List ProfessionalDelivery), s.documents.row id = none →
      (history.Pairwise fun e f => e.revision < f.revision) →
      (∀ e ∈ history, e.professionalId = id) → (∀ d ∈ ds, d.event ∈ history) →
      (∀ e ∈ history, ∃ d ∈ ds, d.event = e) → Converged (handleAll scorer s ds) id history := by
  intro h
  have hconverged := h LateEdit.flat LateEdit.store 1 LateEdit.edits LateEdit.deliveries rfl
    (by decide) (by decide) (by decide) (by decide)
  obtain ⟨_, hdoc, hprof⟩ := hconverged.profile LateEdit.renamed rfl
  have hshown : ((handleAll LateEdit.flat LateEdit.store LateEdit.deliveries).documents.row 1).map
      (·.profile) = some LateEdit.studio := by decide +kernel
  rw [hdoc, Option.map_some, hprof] at hshown
  exact absurd hshown (by decide)

end BeauClick.Search
