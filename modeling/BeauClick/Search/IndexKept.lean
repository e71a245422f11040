import BeauClick.Search.Index

/-!
# No index update is lost

A sweep clears a mark by comparing it with the one it has read, but a rebuild clears all marks,
those of the edits included that it did not see; and several sweeps at the same time may push an
older copy after a newer one, or point the alias back.
-/

namespace BeauClick.Search

open Runs Transactions IndexDb SearchStore Keyed Option Function

/-- Between sweeps and rebuilds every row is marked dirty, or the index behind the alias holds
what it should. -/
def NoUpdateLost (s : System IndexDb Unit IndexPlace) : Prop :=
  (∀ pid, (s.calls pid).running = false) → ∀ id doc, s.db.row id = some doc →
    Dirty doc ∨ ∃ index, s.db.aliased = some index ∧ s.db.holds index id = s.db.shown id

/-- A copy may be pushed to an index: the index holds no newer one, and the copy is the row as it
is, or the row is dirty. -/
def Pushable (db : IndexDb) (index : PhysicalIndex) (id : Uuid) (version : ℕ) : Prop :=
  (∀ e, db.held index id = some e → e.version ≤ version) ∧
    (version = db.version id ∨ ∃ doc, db.row id = some doc ∧ Dirty doc)

/-- A rebuild has read the row as it is, and has not left a deleted one in its index. -/
def ReadAsIs (db : IndexDb) (r : Reindex) (doc : ProviderDocument) : Prop :=
  (∃ c ∈ r.seen, c.id = doc.professionalId ∧ c.version = db.version doc.professionalId) ∧
    (doc.profile.isDeleted = true → db.holds r.target doc.professionalId = none)

/-- The step is not overtaken by an edit, nor by another sweep or rebuild. -/
def Undisturbed (db : IndexDb) : IndexPlace → Prop
  | .pushing _ physical (b :: _) => Pushable db physical b.id b.version
  | .pagePushing r _ (b :: _) => Pushable db r.target b.id b.version
  | .deleting _ physical (c :: _) => Pushable db physical c.id c.version
  | .pointing _ physical => db.aliased = none ∨ db.aliased = some physical
  | .clearing physical (c :: _) =>
    Clears db c → db.aliased = some physical ∧ c.version = db.version c.id
  | .swapping r => ∀ doc ∈ db.store.documents.rows, ¬Dirty doc → ReadAsIs db r doc
  | .clearingAll r => db.aliased = some r.target ∧
      ∀ doc ∈ db.store.documents.rows, Dirty doc → ReadAsIs db r doc
  | _ => True

/-! ## What holds of the projection and the indexes -/

/-- The columns that are indexed, and those beside them; not the mark. -/
def core (doc : ProviderDocument) : ProviderDocument :=
  { doc with
    indexDirtySince := none
    indexedAt := none }

/-- The index holds the row as it is; or it holds nothing of a deleted one. -/
def Indexed (db : IndexDb) (index : PhysicalIndex) (id : Uuid) : Prop :=
  (∃ e, db.held index id = some e ∧ e.version = db.version id) ∨
    db.shown id = none ∧ db.holds index id = none

/-- What holds of the rows and the indices. -/
structure IndexSound (db : IndexDb) : Prop where
  keyed : ∀ id doc, db.row id = some doc → doc.professionalId = id
  /-- What an index holds is of a row, and what it should hold if nothing was edited since. -/
  entries : ∀ index id e, db.held index id = some e → (∃ doc, db.row id = some doc) ∧
    e.version ≤ db.version id ∧ (e.version = db.version id → e.document = db.shown id)
  clean : ∀ id doc, db.row id = some doc → ¬Dirty doc →
    ∃ index, db.aliased = some index ∧ Indexed db index id

/-- Rows stay; one that was not edited is as it was; no index gets an older copy. -/
structure IndexProgress (db db' : IndexDb) : Prop where
  version : ∀ id, db.version id ≤ db'.version id
  rows : ∀ id doc, db.row id = some doc → ∃ doc', db'.row id = some doc' ∧
    (db'.version id = db.version id → core doc' = core doc ∧
      db'.store.signals.row id = db.store.signals.row id)
  held : ∀ index id e, db.held index id = some e →
    ∃ e', db'.held index id = some e' ∧ e.version ≤ e'.version

/-- A copy of a row that is what the row is if nothing was edited since. -/
def CopyOk (db : IndexDb) (c : Copy) : Prop :=
  c.version ≤ db.version c.id ∧ ∃ doc, db.row c.id = some doc ∧
    (c.version = db.version c.id → core c.doc = core doc)

/-- A document that is what the index should hold if nothing was edited since. -/
def BuiltOk (db : IndexDb) (b : Built) : Prop :=
  b.version ≤ db.version b.id ∧ (∃ doc, db.row b.id = some doc) ∧
    (b.version = db.version b.id → db.shown b.id = some b.document)

/-- The index has had this copy, or a newer one. -/
def Pushed (db : IndexDb) (index : PhysicalIndex) (c : Copy) : Prop :=
  ∃ e, db.held index c.id = some e ∧ c.version ≤ e.version

/-- The documents of a batch are in the index, or about to be pushed. -/
structure Pushing (db : IndexDb) (index : PhysicalIndex) (batch : List Copy) (docs : List Built) :
    Prop where
  copies : ∀ c ∈ batch, CopyOk db c
  built : ∀ b ∈ docs, BuiltOk db b
  pushed : ∀ c ∈ batch, c.doc.profile.isDeleted = false →
    Pushed db index c ∨ ∃ b ∈ docs, b.id = c.id ∧ b.version = c.version

/-- What a rebuild has read, and pushed. -/
structure ReindexOk (db : IndexDb) (r : Reindex) : Prop where
  copies : ∀ c ∈ r.seen, CopyOk db c
  pushed : ∀ c ∈ r.seen, c.doc.profile.isDeleted = false → Pushed db r.target c
  batch : ∀ batch, r.batch = some batch → ∀ c ∈ batch, CopyOk db c

/-- What a call has read, place by place. -/
def IndexWork (db : IndexDb) : IndexPlace → Prop
  | .checking _ batch | .locating _ batch | .creating _ batch | .pointing batch _
  | .building batch _ => ∀ c ∈ batch, CopyOk db c
  | .pushing batch physical docs => Pushing db physical batch docs
  | .deleting batch physical gone => (∀ c ∈ gone, CopyOk db c ∧ c.doc.profile.isDeleted = true) ∧
      ∀ c ∈ batch, CopyOk db c ∧ (c ∈ gone ∨ Pushed db physical c)
  | .clearing physical rest => ∀ c ∈ rest, CopyOk db c ∧ Pushed db physical c
  | .targeting _ batch | .starting _ batch | .initializing _ batch =>
    ∀ b, batch = some b → ∀ c ∈ b, CopyOk db c
  | .paging r | .swapping r | .recording r | .clearingAll r => ReindexOk db r
  | .pageBuilding r page => ReindexOk db r ∧ ∀ c ∈ page, CopyOk db c
  | .pagePushing r page docs => ReindexOk db r ∧ Pushing db r.target page docs
  | _ => True

variable {db db' db'' : IndexDb} {id : Uuid} {doc doc' : ProviderDocument} {index : PhysicalIndex}
  {c : Copy} {b : Built} {place : IndexPlace} {now : Instant}

/-! ## Progress -/

theorem toSearchDocument_core {signals : Option RankingSignals} (h : core doc = core doc') :
    toSearchDocument doc signals = toSearchDocument doc' signals := by
  have hcore : ∀ d : ProviderDocument,
      toSearchDocument d signals = toSearchDocument (core d) signals := fun _ => rfl
  rw [hcore, h, ← hcore]

theorem isDeleted_core (h : core doc = core doc') :
    doc.profile.isDeleted = doc'.profile.isDeleted :=
  congrArg (fun d => d.profile.isDeleted) h

theorem shown_of_row (h : db.row id = some doc) : db.shown id =
    if doc.profile.isDeleted then none
    else some (toSearchDocument doc (db.store.signals.row id)) := by
  rw [IndexDb.shown, h]

theorem IndexProgress.refl (db : IndexDb) : IndexProgress db db :=
  ⟨fun _ => le_rfl, fun _ doc h => ⟨doc, h, fun _ => ⟨rfl, rfl⟩⟩, fun _ _ e h => ⟨e, h, le_rfl⟩⟩

section

variable (h : IndexProgress db db')
include h

theorem IndexProgress.trans (h' : IndexProgress db' db'') :
    IndexProgress db db'' := by
  refine ⟨fun id => (h.version id).trans (h'.version id), ?_, ?_⟩
  · intro id doc hdoc
    obtain ⟨doc', hdoc', hsame⟩ := h.rows id doc hdoc
    obtain ⟨doc'', hdoc'', hsame'⟩ := h'.rows id doc' hdoc'
    refine ⟨doc'', hdoc'', ?_⟩
    intro hver
    have hle := h.version id
    have hle' := h'.version id
    obtain ⟨hcore, hsig⟩ := hsame (by omega)
    obtain ⟨hcore', hsig'⟩ := hsame' (by omega)
    exact ⟨hcore'.trans hcore, hsig'.trans hsig⟩
  · intro index id e he
    obtain ⟨e', he', hle⟩ := h.held index id e he
    obtain ⟨e'', he'', hle'⟩ := h'.held index id e' he'
    exact ⟨e'', he'', hle.trans hle'⟩

theorem IndexProgress.shown (hdoc : db.row id = some doc)
    (hver : db'.version id = db.version id) : db'.shown id = db.shown id := by
  obtain ⟨_, hdoc', hsame⟩ := h.rows id doc hdoc
  obtain ⟨hcore, hsig⟩ := hsame hver
  rw [shown_of_row hdoc, shown_of_row hdoc', isDeleted_core hcore, hsig,
    toSearchDocument_core hcore]

theorem IndexProgress.copyOk (hc : CopyOk db c) : CopyOk db' c := by
  obtain ⟨hle, doc, hdoc, hsame⟩ := hc
  obtain ⟨doc', hdoc', hsame'⟩ := h.rows c.id doc hdoc
  have hle' := h.version c.id
  refine ⟨hle.trans hle', doc', hdoc', ?_⟩
  intro hver
  rw [hsame (by omega), (hsame' (by omega)).1]

theorem IndexProgress.builtOk (hb : BuiltOk db b) : BuiltOk db' b := by
  obtain ⟨hle, ⟨doc, hdoc⟩, hshown⟩ := hb
  obtain ⟨doc', hdoc', -⟩ := h.rows b.id doc hdoc
  have hle' := h.version b.id
  refine ⟨hle.trans hle', ⟨doc', hdoc'⟩, ?_⟩
  intro hver
  rw [h.shown hdoc (by omega), hshown (by omega)]

theorem IndexProgress.pushed (hp : Pushed db index c) :
    Pushed db' index c := by
  obtain ⟨e, he, hle⟩ := hp
  obtain ⟨e', he', hle'⟩ := h.held index c.id e he
  exact ⟨e', he', hle.trans hle'⟩

theorem IndexProgress.pushing {batch : List Copy} {docs : List Built}
    (hp : Pushing db index batch docs) : Pushing db' index batch docs :=
  ⟨fun c hc => h.copyOk (hp.copies c hc), fun b hb => h.builtOk (hp.built b hb),
    fun c hc hlive => (hp.pushed c hc hlive).imp_left h.pushed⟩

theorem IndexProgress.reindexOk {r : Reindex} (hr : ReindexOk db r) :
    ReindexOk db' r :=
  ⟨fun c hc => h.copyOk (hr.copies c hc), fun c hc hlive => h.pushed (hr.pushed c hc hlive),
    fun batch hbatch c hc => h.copyOk (hr.batch batch hbatch c hc)⟩

theorem IndexProgress.work (hw : IndexWork db place) :
    IndexWork db' place := by
  cases place with
  | checking | locating | creating | pointing | building => exact fun c hc => h.copyOk (hw c hc)
  | pushing => exact h.pushing hw
  | deleting =>
    exact ⟨fun c hc => ⟨h.copyOk (hw.1 c hc).1, (hw.1 c hc).2⟩,
      fun c hc => ⟨h.copyOk (hw.2 c hc).1, (hw.2 c hc).2.imp_right h.pushed⟩⟩
  | clearing => exact fun c hc => ⟨h.copyOk (hw c hc).1, h.pushed (hw c hc).2⟩
  | targeting | starting | initializing => exact fun b hb c hc => h.copyOk (hw b hb c hc)
  | paging | swapping | recording | clearingAll => exact h.reindexOk hw
  | pageBuilding => exact ⟨h.reindexOk hw.1, fun c hc => h.copyOk (hw.2 c hc)⟩
  | pagePushing => exact ⟨h.reindexOk hw.1, h.pushing hw.2⟩
  | idle | editing | sweeping | returned | failed => trivial

end

/-! ## Edits -/

/-- What an edit of a professional does to the projection. -/
structure Edited (id : Uuid) (s s' : SearchStore) : Prop where
  others : ∀ id', id' ≠ id → s'.documents.row id' = s.documents.row id' ∧
    s'.signals.row id' = s.signals.row id'
  stays : ∀ doc, s.documents.row id = some doc → ∃ doc', s'.documents.row id = some doc'
  row : ∀ doc', s'.documents.row id = some doc' → Dirty doc' ∧
    (doc'.professionalId = id ∨ ∃ doc, s.documents.row id = some doc ∧
      doc'.professionalId = doc.professionalId)

section Edits

variable {s s' x : SearchStore} {id' : Uuid}

theorem edited_upsert {p : ProfessionalProjection} (h : s.upsertProfessional p now = some s') :
    Edited p.professionalId s s' := by
  unfold upsertProfessional at h
  split at h
  · rename_i hnone
    cases h
    refine ⟨fun id' hne => ⟨row_set_of_ne hne, rfl⟩, ?_, ?_⟩
    · intro doc hdoc
      exact absurd (hnone.symm.trans hdoc) (by simp)
    · intro doc' hdoc'
      cases row_set_self.symm.trans hdoc'
      exact ⟨some_ne_none _, Or.inl rfl⟩
  · rename_i doc hdoc
    split_ifs at h
    cases h
    refine ⟨fun id' hne => ⟨row_set_of_ne hne, rfl⟩, ?_, ?_⟩
    · exact fun _ _ => ⟨_, row_set_self⟩
    · intro doc' hdoc'
      cases row_set_self.symm.trans hdoc'
      exact ⟨some_ne_none _, Or.inr ⟨doc, hdoc, rfl⟩⟩

theorem edited_updateMedia {m : ProfessionalMediaProjection} (h : s.updateMedia m now = some s') :
    Edited m.professionalId s s' := by
  unfold updateMedia at h
  split at h
  · cases h
  rename_i doc hdoc
  split_ifs at h
  cases h
  refine ⟨fun id' hne => ⟨row_set_of_ne hne, rfl⟩, ?_, ?_⟩
  · exact fun _ _ => ⟨_, row_set_self⟩
  · intro doc' hdoc'
    cases row_set_self.symm.trans hdoc'
    exact ⟨some_ne_none _, Or.inr ⟨doc, hdoc, rfl⟩⟩

theorem edited_rescore {scorer : Scorer} (hdocs : x.documents = s.documents)
    (hsig : ∀ id', id' ≠ id → x.signals.row id' = s.signals.row id') :
    Edited id s (x.rescore scorer id now) := by
  refine ⟨?_, ?_, ?_⟩
  · intro id' hne
    rw [row_rescore_of_ne hne, signals_rescore, hdocs]
    exact ⟨rfl, hsig id' hne⟩
  · intro doc hdoc
    rw [row_rescore_self, hdocs, hdoc]
    exact ⟨_, rfl⟩
  · intro doc' hdoc'
    rw [row_rescore_self, hdocs] at hdoc'
    obtain ⟨doc, hdoc, rfl⟩ := map_eq_some_iff.1 hdoc'
    exact ⟨some_ne_none _, Or.inr ⟨doc, hdoc, rfl⟩⟩

theorem claimSignal_eq {application : SignalApplication} (h : s.claimSignal application = some x) :
    x.documents = s.documents ∧ x.signals = s.signals := by
  unfold claimSignal at h
  split at h
  · cases h
  cases h
  exact ⟨rfl, rfl⟩

theorem signals_ensure_of_ne (h : id' ≠ id) :
    (x.ensureSignals id).signals.row id' = x.signals.row id' := by
  unfold ensureSignals
  split
  · exact row_set_of_ne h
  · rfl

theorem signals_update_of_ne {f : RankingSignals → RankingSignals} (h : id' ≠ id) :
    (x.updateSignals id f).signals.row id' = x.signals.row id' :=
  row_updateRow_of_ne h

theorem documents_ensure : (x.ensureSignals id).documents = x.documents := by
  unfold ensureSignals
  split <;> rfl

theorem edited_apply {e : Edit} (h : e.apply s now = some s') : Edited e.id s s' := by
  cases e with
  | upsertProfessional => exact edited_upsert h
  | updateMedia => exact edited_updateMedia h
  | rescore id ranking =>
    simp only [Edit.apply] at h
    split at h
    · cases h
    rename_i doc hdoc
    cases h
    have heq : s.writeScore id ranking now = s.rescore (fun _ _ _ => ranking) id now := by
      rw [rescore, score, hdoc]
      rfl
    rw [heq]
    exact edited_rescore rfl fun _ _ => rfl
  | applySignal eventId signal id =>
    simp only [Edit.apply, applySignal] at h
    split at h
    · rename_i heq
      cases h
      split at heq
      · cases heq
      rename_i x hclaim
      obtain ⟨-, rfl⟩ := Prod.mk.inj heq
      obtain ⟨hdocs, hsig⟩ := claimSignal_eq hclaim
      refine edited_rescore ?_ ?_
      · exact documents_ensure.trans hdocs
      · intro id' hne
        have hne' : id' ≠ id := hne
        rw [signals_update_of_ne hne', signals_ensure_of_ne hne', hsig]
    · cases h
  | applyRatingSignal input =>
    simp only [Edit.apply, applyRatingSignal] at h
    split at h
    · rename_i heq
      cases h
      split at heq
      · cases heq
      rename_i x hclaim
      obtain ⟨-, rfl⟩ := Prod.mk.inj heq
      obtain ⟨hdocs, hsig⟩ := claimSignal_eq hclaim
      refine edited_rescore ?_ ?_
      · exact documents_ensure.trans hdocs
      · intro id' hne
        have hne' : id' ≠ input.professionalId := hne
        rw [signals_update_of_ne hne', signals_update_of_ne hne', signals_ensure_of_ne hne',
          hsig]
    · cases h

end Edits

theorem keeps_edit (hs : IndexSound db) (e : Edit) :
    IndexSound (db.edit e now) ∧ IndexProgress db (db.edit e now) := by
  unfold IndexDb.edit
  split
  · exact ⟨hs, IndexProgress.refl db⟩
  · rename_i s' happly
    have hedited := edited_apply happly
    have hprog : IndexProgress db { db with
        store := s'
        version := update db.version e.id (db.version e.id + 1) } := by
      refine ⟨?_, ?_, fun _ _ e h => ⟨e, h, le_rfl⟩⟩
      · intro id
        by_cases hid : id = e.id
        · simp [hid]
        · simp [hid]
      · intro id doc hdoc
        by_cases hid : id = e.id
        · subst hid
          obtain ⟨doc', hdoc'⟩ := hedited.stays doc hdoc
          refine ⟨doc', hdoc', ?_⟩
          simp
        · obtain ⟨hrow, hsig⟩ := hedited.others id hid
          exact ⟨doc, hrow.trans hdoc, fun _ => ⟨rfl, hsig⟩⟩
    refine ⟨⟨?_, ?_, ?_⟩, hprog⟩
    · intro id doc hdoc
      by_cases hid : id = e.id
      · subst hid
        rcases (hedited.row doc hdoc).2 with heq | ⟨doc₀, hdoc₀, heq⟩
        · exact heq
        · exact heq.trans (hs.keyed e.id doc₀ hdoc₀)
      · exact hs.keyed id doc ((hedited.others id hid).1.symm.trans hdoc)
    · intro index id entry hentry
      obtain ⟨⟨doc, hdoc⟩, hle, hshown⟩ := hs.entries index id entry hentry
      obtain ⟨doc', hdoc', -⟩ := hprog.rows id doc hdoc
      refine ⟨⟨doc', hdoc'⟩, hle.trans (hprog.version id), ?_⟩
      intro hver
      by_cases hid : id = e.id
      · subst hid
        simp only [update_self] at hver
        omega
      · have hsame : update db.version e.id (db.version e.id + 1) id = db.version id :=
          update_of_ne hid ..
        rw [hprog.shown hdoc hsame]
        exact hshown (hver.trans hsame)
    · intro id doc hdoc hclean
      by_cases hid : id = e.id
      · subst hid
        exact absurd (hedited.row doc hdoc).1 hclean
      · have hrow : db.row id = some doc := (hedited.others id hid).1.symm.trans hdoc
        have hsame : update db.version e.id (db.version e.id + 1) id = db.version id :=
          update_of_ne hid ..
        obtain ⟨index, halias, hidx⟩ := hs.clean id doc hrow hclean
        refine ⟨index, halias, hidx.imp ?_ ?_⟩
        · rintro ⟨entry, hentry, hver⟩
          exact ⟨entry, hentry, hver.trans hsame.symm⟩
        · rintro ⟨hnone, hheld⟩
          exact ⟨(hprog.shown hrow hsame).trans hnone, hheld⟩

/-! ## The engine -/

theorem held_put {index' : PhysicalIndex} {id' : Uuid} {entry : Entry} :
    (db.put index id entry).held index' id' =
      if index' = index ∧ id' = id then some entry else db.held index' id' := by
  unfold IndexDb.put
  by_cases hindex : index' = index
  · subst hindex
    by_cases hid : id' = id
    · simp [hid]
    · simp [hid]
  · simp [hindex]

theorem keeps_put {version : ℕ} {document : Option ProviderSearchDocument} (hs : IndexSound db)
    (hpush : Pushable db index id version) (hrow : ∃ doc, db.row id = some doc)
    (hle : version ≤ db.version id) (hshown : version = db.version id → document = db.shown id) :
    IndexSound (db.put index id ⟨version, document⟩) ∧
      IndexProgress db (db.put index id ⟨version, document⟩) := by
  refine ⟨⟨hs.keyed, ?_, ?_⟩, fun _ => le_rfl, fun _ doc h => ⟨doc, h, fun _ => ⟨rfl, rfl⟩⟩, ?_⟩
  · intro index' id' e he
    rw [held_put] at he
    split_ifs at he with h
    · cases he
      rw [h.2]
      exact ⟨hrow, hle, hshown⟩
    · exact hs.entries index' id' e he
  · intro id' doc hdoc hclean
    obtain ⟨index', halias, hidx⟩ := hs.clean id' doc hdoc hclean
    refine ⟨index', halias, ?_⟩
    by_cases h : index' = index ∧ id' = id
    · -- the row is clean, so the copy is the row as it is
      obtain ⟨rfl, rfl⟩ := h
      have hcur : version = db.version id' := by
        rcases hpush.2 with heq | ⟨_, hdoc', hdirty⟩
        · exact heq
        · cases hdoc.symm.trans hdoc'
          exact absurd hdirty hclean
      refine Or.inl ⟨⟨version, document⟩, ?_, hcur⟩
      rw [held_put, if_pos ⟨rfl, rfl⟩]
    · have hheld : (db.put index id ⟨version, document⟩).held index' id' = db.held index' id' := by
        rw [held_put, if_neg h]
      refine hidx.imp ?_ ?_
      · rintro ⟨e, he, hver⟩
        exact ⟨e, hheld.trans he, hver⟩
      · rintro ⟨hnone, hholds⟩
        refine ⟨hnone, ?_⟩
        rw [IndexDb.holds, hheld]
        exact hholds
  · intro index' id' e he
    rw [held_put]
    split_ifs with h
    · obtain ⟨rfl, rfl⟩ := h
      exact ⟨_, rfl, hpush.1 e he⟩
    · exact ⟨e, he, le_rfl⟩

theorem keeps_swapAlias (hs : IndexSound db)
    (hclean : ∀ id doc, db.row id = some doc → ¬Dirty doc → Indexed db index id) :
    IndexSound (db.swapAlias index) ∧ IndexProgress db (db.swapAlias index) :=
  ⟨⟨hs.keyed, hs.entries, fun id doc hdoc h => ⟨index, rfl, hclean id doc hdoc h⟩⟩,
    fun _ => le_rfl, fun _ doc h => ⟨doc, h, fun _ => ⟨rfl, rfl⟩⟩, fun _ _ e h => ⟨e, h, le_rfl⟩⟩

/-! ## Marks -/

theorem keeps_clear (now : Instant) {documents : Keyed Uuid ProviderDocument} (hs : IndexSound db)
    (hrows : ∀ id, documents.row id = db.row id ∨ ∃ doc, db.row id = some doc ∧
      documents.row id = some (cleaned now doc) ∧
        ∃ index, db.aliased = some index ∧ Indexed db index id) :
    IndexSound { db with store := { db.store with documents := documents } } ∧
      IndexProgress db { db with store := { db.store with documents := documents } } := by
  have hprog : IndexProgress db
      { db with store := { db.store with documents := documents } } := by
    refine ⟨fun _ => le_rfl, ?_, fun _ _ e h => ⟨e, h, le_rfl⟩⟩
    intro id doc hdoc
    rcases hrows id with heq | ⟨doc', hdoc', hcleaned, -⟩
    · exact ⟨doc, heq.trans hdoc, fun _ => ⟨rfl, rfl⟩⟩
    · cases hdoc.symm.trans hdoc'
      exact ⟨_, hcleaned, fun _ => ⟨rfl, rfl⟩⟩
  refine ⟨⟨?_, ?_, ?_⟩, hprog⟩
  · intro id doc hdoc
    rcases hrows id with heq | ⟨doc', hdoc', hcleaned, -⟩
    · exact hs.keyed id doc (heq.symm.trans hdoc)
    · cases hcleaned.symm.trans hdoc
      exact hs.keyed id doc' hdoc'
  · intro index id e he
    obtain ⟨⟨doc, hdoc⟩, hle, hshown⟩ := hs.entries index id e he
    obtain ⟨doc', hdoc', -⟩ := hprog.rows id doc hdoc
    refine ⟨⟨doc', hdoc'⟩, hle, ?_⟩
    rw [hprog.shown hdoc rfl]
    exact hshown
  · intro id doc hdoc hclean
    have hidx : ∃ doc', db.row id = some doc' ∧
        ∃ index, db.aliased = some index ∧ Indexed db index id := by
      rcases hrows id with heq | ⟨doc', hdoc', -, hidx⟩
      · have hrow : db.row id = some doc := heq.symm.trans hdoc
        exact ⟨doc, hrow, hs.clean id doc hrow hclean⟩
      · exact ⟨doc', hdoc', hidx⟩
    obtain ⟨_, hdoc', index, halias, hidx⟩ := hidx
    refine ⟨index, halias, hidx.imp_right ?_⟩
    rintro ⟨hnone, hholds⟩
    exact ⟨(hprog.shown hdoc' rfl).trans hnone, hholds⟩

end BeauClick.Search
