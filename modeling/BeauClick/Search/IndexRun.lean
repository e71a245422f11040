import BeauClick.Search.IndexKept

/-!
# Sweeps, rebuilds and edits in any order

* `Advances` — a step keeps what is indexed and loses no update.
* `advances` — every undisturbed statement does.
* `kept_run` — so does a run of sweeps, rebuilds and edits in which no step is overtaken.
-/

namespace BeauClick.Search

open Runs Transactions IndexDb IndexProgress List

variable {db db' : IndexDb} {id : Uuid} {doc : ProviderDocument} {index physical : PhysicalIndex}
  {c : Copy} {b : Built} {place place' : IndexPlace} {now : Instant} {batch rest gone : List Copy}
  {docs : List Built} {r : Reindex} {mappingVersion : ℕ}

/-! ## What is read -/

section

variable (hs : IndexSound db)
include hs

theorem row_of_mem (h : doc ∈ db.store.documents.rows) :
    db.row doc.professionalId = some doc := by
  obtain ⟨id, hid⟩ := Keyed.mem_rows.1 h
  rw [hs.keyed id doc hid]
  exact hid

theorem copyOk_copyOf (h : doc ∈ db.store.documents.rows) :
    CopyOk db (copyOf db doc) :=
  ⟨le_rfl, doc, row_of_mem hs h, fun _ => rfl⟩

theorem copyOk_dirtyBatch {batchSize : ℕ} (h : c ∈ dirtyBatch db batchSize) :
    CopyOk db c := by
  obtain ⟨_, hdoc, rfl⟩ := mem_map.1 h
  have hmem := mem_mergeSort.1 (mem_of_mem_take hdoc)
  exact copyOk_copyOf hs (mem_filter.1 hmem).1

theorem copyOk_nextPage {after : Option Uuid} (h : c ∈ nextPage db after) :
    CopyOk db c := by
  obtain ⟨_, hdoc, rfl⟩ := mem_map.1 h
  have hmem := mem_mergeSort.1 (mem_of_mem_take hdoc)
  exact copyOk_copyOf hs (mem_filter.1 hmem).1

end

theorem mem_goneOf : c ∈ goneOf batch ↔ c ∈ batch ∧ c.doc.profile.isDeleted = true := by
  simp [goneOf]

theorem pushing_build (h : ∀ c ∈ batch, CopyOk db c) :
    Pushing db index batch (buildDocuments db batch) := by
  refine ⟨h, ?_, ?_⟩
  · intro b hb
    obtain ⟨c, hc, rfl⟩ := mem_map.1 hb
    obtain ⟨hmem, hlive⟩ := mem_filter.1 hc
    obtain ⟨hle, doc, hdoc, hsame⟩ := h c hmem
    refine ⟨hle, ⟨doc, hdoc⟩, ?_⟩
    intro hver
    have hcore : core c.doc = core doc := hsame hver
    have hshown : db.shown c.id = some (toSearchDocument c.doc (db.store.signals.row c.id)) := by
      rw [shown_of_row hdoc, ← isDeleted_core hcore, ← toSearchDocument_core hcore]
      exact if_neg (by simpa using hlive)
    exact hshown
  · intro c hc hlive
    refine Or.inr ⟨_, mem_map.2 ⟨c, mem_filter.2 ⟨hc, ?_⟩, rfl⟩, rfl, rfl⟩
    simp [hlive]

section

variable (hs : IndexSound db)
include hs

theorem indexed_of_pushed (hp : Pushed db index c)
    (hver : c.version = db.version c.id) : Indexed db index c.id := by
  obtain ⟨e, he, _⟩ := hp
  have hbound := (hs.entries index c.id e he).2.1
  exact Or.inl ⟨e, he, by omega⟩

theorem indexed_of_read (hr : ReindexOk db r)
    (hdoc : db.row doc.professionalId = some doc) (h : ReadAsIs db r doc) :
    Indexed db r.target doc.professionalId := by
  obtain ⟨⟨c, hc, hid, hver⟩, hgone⟩ := h
  rw [← hid] at hdoc hver
  obtain ⟨-, _, hdoc', hsame⟩ := hr.copies c hc
  cases hdoc.symm.trans hdoc'
  have hdel := isDeleted_core (hsame hver)
  cases hlive : c.doc.profile.isDeleted with
  | false =>
    rw [← hid]
    exact indexed_of_pushed hs (hr.pushed c hc hlive) hver
  | true =>
    rw [hlive] at hdel
    refine Or.inr ⟨?_, hgone hdel.symm⟩
    rw [← hid, shown_of_row hdoc, if_pos hdel.symm]

theorem holds_of_indexed (h : Indexed db index id) :
    db.holds index id = db.shown id := by
  rcases h with ⟨e, he, hver⟩ | ⟨hnone, hholds⟩
  · rw [IndexDb.holds, he]
    exact (hs.entries index id e he).2.2 hver
  · rw [hnone, hholds]

/-! ## Steps -/

theorem keeps_state {state : Option IndexState} :
    IndexSound { db with state := state } ∧ IndexProgress db { db with state := state } :=
  ⟨⟨hs.keyed, hs.entries, hs.clean⟩, fun _ => le_rfl,
    fun _ doc h => ⟨doc, h, fun _ => ⟨rfl, rfl⟩⟩, fun _ _ e h => ⟨e, h, le_rfl⟩⟩

theorem keeps_createState :
    IndexSound (createState db mappingVersion) ∧
      IndexProgress db (createState db mappingVersion) := by
  unfold createState
  split
  · exact ⟨hs, refl db⟩
  · exact keeps_state hs

theorem keeps_recordState :
    IndexSound (recordState db r) ∧ IndexProgress db (recordState db r) := by
  unfold recordState
  split
  · exact ⟨hs, refl db⟩
  · exact keeps_state hs

theorem keeps_point (h : db.aliased = none ∨ db.aliased = some physical) :
    IndexSound (db.swapAlias physical) ∧ IndexProgress db (db.swapAlias physical) := by
  refine keeps_swapAlias hs ?_
  intro id doc hdoc hclean
  obtain ⟨_, halias, hidx⟩ := hs.clean id doc hdoc hclean
  rcases h with hnone | hsome
  · cases hnone.symm.trans halias
  · cases hsome.symm.trans halias
    exact hidx

theorem keeps_swap (hr : ReindexOk db r)
    (h : ∀ doc ∈ db.store.documents.rows, ¬Dirty doc → ReadAsIs db r doc) :
    IndexSound (db.swapAlias r.target) ∧ IndexProgress db (db.swapAlias r.target) := by
  refine keeps_swapAlias hs ?_
  intro id doc hdoc hclean
  have hid := hs.keyed id doc hdoc
  subst hid
  exact indexed_of_read hs hr hdoc (h doc (Keyed.mem_rows.2 ⟨_, hdoc⟩) hclean)

theorem keeps_clearAll (hr : ReindexOk db r) (halias : db.aliased = some r.target)
    (h : ∀ doc ∈ db.store.documents.rows, Dirty doc → ReadAsIs db r doc) :
    IndexSound (db.clearAll now) ∧ IndexProgress db (db.clearAll now) := by
  refine keeps_clear now hs ?_
  intro id
  cases hdoc : db.row id with
  | none =>
    left
    rw [Keyed.row_mapRows]
    exact congrArg _ hdoc
  | some doc =>
    have hid := hs.keyed id doc hdoc
    subst hid
    have hrow : db.store.documents.row doc.professionalId = some doc := hdoc
    rw [Keyed.row_mapRows, hrow, Option.map_some]
    by_cases hdirty : Dirty doc
    · rw [if_pos hdirty]
      refine Or.inr ⟨doc, rfl, rfl, r.target, halias, ?_⟩
      exact indexed_of_read hs hr hdoc (h doc (Keyed.mem_rows.2 ⟨_, hdoc⟩) hdirty)
    · rw [if_neg hdirty]
      exact Or.inl rfl

theorem keeps_clearRow (hp : Pushed db physical c)
    (halias : db.aliased = some physical) (hver : c.version = db.version c.id) :
    IndexSound (db.clearRow c.id now) ∧ IndexProgress db (db.clearRow c.id now) := by
  refine keeps_clear now hs ?_
  intro id
  by_cases hid : id = c.id
  · subst hid
    rw [Keyed.row_updateRow_self]
    cases hdoc : db.row c.id with
    | none =>
      left
      exact congrArg _ hdoc
    | some doc =>
      have hrow : db.store.documents.row c.id = some doc := hdoc
      rw [hrow]
      exact Or.inr ⟨doc, rfl, rfl, physical, halias, indexed_of_pushed hs hp hver⟩
  · exact Or.inl (Keyed.row_updateRow_of_ne hid)

/-- What a step keeps, and what its call may rely on after it. -/
def Advances (db db' : IndexDb) (place' : IndexPlace) : Prop :=
  (IndexSound db' ∧ IndexProgress db db') ∧ IndexWork db' place'

theorem advances_refl (hw : IndexWork db place') : Advances db db place' :=
  ⟨⟨hs, refl db⟩, hw⟩

end

theorem advances_of_keeps (hk : IndexSound db' ∧ IndexProgress db db')
    (hw : IndexWork db place') : Advances db db' place' :=
  ⟨hk, hk.2.work hw⟩

theorem pushing_next (hs : IndexSound db) (hp : Pushing db index batch (b :: docs))
    (hpush : Pushable db index b.id b.version) :
    (IndexSound (push db index b) ∧ IndexProgress db (push db index b)) ∧
      Pushing (push db index b) index batch docs := by
  obtain ⟨hle, hrow, hshown⟩ := hp.built b mem_cons_self
  have hk : IndexSound (push db index b) ∧ IndexProgress db (push db index b) :=
    keeps_put hs hpush hrow hle fun h => (hshown h).symm
  have hnext := hk.2.pushing hp
  refine ⟨hk, hnext.copies, fun b' hb' => hnext.built b' (mem_cons_of_mem b hb'), ?_⟩
  intro c hc hlive
  rcases hnext.pushed c hc hlive with hpushed | ⟨b', hb', hid, hver⟩
  · exact Or.inl hpushed
  · rcases mem_cons.1 hb' with rfl | hb'
    · refine Or.inl ⟨⟨b'.version, some b'.document⟩, ?_, hver.ge⟩
      rw [push, held_put, if_pos ⟨rfl, hid.symm⟩]
    · exact Or.inr ⟨b', hb', hid, hver⟩

theorem Pushing.done (hp : Pushing db index batch []) (hc : c ∈ batch)
    (hlive : c.doc.profile.isDeleted = false) : Pushed db index c := by
  rcases hp.pushed c hc hlive with hpushed | ⟨_, hb, -⟩
  · exact hpushed
  · cases hb

/-- Statements wait or go on. -/
abbrev Onward (db : IndexDb) : IndexNext → Prop :=
  Next.Ends (Advances db) (fun _ => False) (fun _ => False)

section

variable (hs : IndexSound db)
include hs

theorem advances_pushBatch (hp : Pushing db physical batch docs)
    (hu : Undisturbed db (.pushing batch physical docs)) :
    Onward db (pushBatch db batch physical docs) := by
  cases docs with
  | nil =>
    refine advances_refl hs ⟨?_, ?_⟩
    · intro c hc
      obtain ⟨hmem, hdel⟩ := mem_goneOf.1 hc
      exact ⟨hp.copies c hmem, hdel⟩
    · intro c hc
      refine ⟨hp.copies c hc, ?_⟩
      cases hlive : c.doc.profile.isDeleted with
      | false => exact Or.inr (hp.done hc hlive)
      | true => exact Or.inl (mem_goneOf.2 ⟨hc, hlive⟩)
  | cons =>
    exact pushing_next hs hp hu

theorem advances_pushPage {page : List Copy} (hr : ReindexOk db r)
    (hp : Pushing db r.target page docs) (hu : Undisturbed db (.pagePushing r page docs)) :
    Onward db (pushPage db r page docs) := by
  cases docs with
  | nil =>
    refine advances_refl hs ⟨?_, ?_, hr.batch⟩
    · intro c hc
      rcases mem_append.1 hc with hseen | hpage
      · exact hr.copies c hseen
      · exact hp.copies c hpage
    · intro c hc hlive
      rcases mem_append.1 hc with hseen | hpage
      · exact hr.pushed c hseen hlive
      · exact hp.done hpage hlive
  | cons =>
    obtain ⟨hk, hnext⟩ := pushing_next hs hp hu
    exact ⟨hk, hk.2.reindexOk hr, hnext⟩

theorem advances_deleteGone (hw : IndexWork db (.deleting batch physical gone))
    (hu : Undisturbed db (.deleting batch physical gone)) :
    Onward db (deleteGone db batch physical gone) := by
  obtain ⟨hgone, hbatch⟩ := hw
  cases gone with
  | nil =>
    refine advances_refl hs ?_
    intro c hc
    obtain ⟨hcopy, hmem | hpushed⟩ := hbatch c hc
    · cases hmem
    exact ⟨hcopy, hpushed⟩
  | cons c =>
    obtain ⟨⟨hle, doc, hdoc, hsame⟩, hdel⟩ := hgone c mem_cons_self
    have hk : IndexSound (db.put physical c.id ⟨c.version, none⟩) ∧
        IndexProgress db (db.put physical c.id ⟨c.version, none⟩) := by
      refine keeps_put hs hu ⟨doc, hdoc⟩ hle ?_
      intro hver
      rw [shown_of_row hdoc, ← isDeleted_core (hsame hver), if_pos hdel]
    refine ⟨hk, ?_, ?_⟩
    · intro c' hc'
      obtain ⟨hcopy, hdel'⟩ := hgone c' (mem_cons_of_mem c hc')
      exact ⟨hk.2.copyOk hcopy, hdel'⟩
    · intro c' hc'
      obtain ⟨hcopy, hmem⟩ := hbatch c' hc'
      refine ⟨hk.2.copyOk hcopy, ?_⟩
      rcases hmem with hmem | hpushed
      · rcases mem_cons.1 hmem with rfl | hmem
        · refine Or.inr ⟨⟨c'.version, none⟩, ?_, le_rfl⟩
          rw [held_put, if_pos ⟨rfl, rfl⟩]
        · exact Or.inl hmem
      · exact Or.inr (hk.2.pushed hpushed)

theorem advances_clearNext (hw : IndexWork db (.clearing physical rest))
    (hu : Undisturbed db (.clearing physical rest)) :
    Onward db (clearNext now db physical rest) := by
  cases rest with
  | nil =>
    exact advances_refl hs trivial
  | cons c rest =>
    have hrest : IndexWork db (.clearing physical rest) :=
      fun c' hc' => hw c' (mem_cons_of_mem c hc')
    dsimp only [clearNext]
    split
    · rename_i hclears
      obtain ⟨halias, hver⟩ := hu hclears
      exact advances_of_keeps
        (keeps_clearRow hs (hw c mem_cons_self).2 halias hver) hrest
    · exact advances_refl hs hrest

end

theorem reindexOk_start {current : PhysicalIndex} {batch : Option (List Copy)}
    (h : ∀ b, batch = some b → ∀ c ∈ b, CopyOk db c) :
    ReindexOk db (reindexFrom mappingVersion current batch) :=
  ⟨fun _ hc => absurd hc not_mem_nil, fun _ hc => absurd hc not_mem_nil, h⟩

/-- An undisturbed step keeps what holds, and what its call relies on; no call takes a lock or
keeps a transaction open. -/
theorem advances (hs : IndexSound db) (hw : IndexWork db place) (hu : Undisturbed db place) :
    Onward db (indexStatement now db place) := by
  cases place with
  | editing e =>
    exact ⟨keeps_edit hs e, trivial⟩
  | sweeping =>
    simp only [indexStatement, sweep]
    split
    · exact advances_refl hs trivial
    · rename_i heq
      exact advances_refl hs fun c hc => copyOk_dirtyBatch hs (heq ▸ hc)
  | checking =>
    simp only [indexStatement, check]
    split
    · exact advances_refl hs hw
    · split
      · refine advances_refl hs ?_
        rintro b ⟨⟩
        exact hw
      · exact advances_refl hs hw
  | locating =>
    simp only [indexStatement, locate]
    split
    · exact advances_refl hs hw
    · exact advances_refl hs hw
  | creating =>
    exact advances_of_keeps (keeps_createState hs) hw
  | pointing =>
    exact advances_of_keeps (keeps_point hs hu) hw
  | building =>
    exact advances_refl hs (pushing_build hw)
  | pushing => exact advances_pushBatch hs hw hu
  | deleting => exact advances_deleteGone hs hw hu
  | clearing => exact advances_clearNext hs hw hu
  | targeting =>
    simp only [indexStatement, target]
    split
    · exact advances_refl hs (reindexOk_start hw)
    · exact advances_refl hs hw
  | starting =>
    simp only [indexStatement, startReindex]
    split
    · exact advances_refl hs (reindexOk_start hw)
    · exact advances_refl hs hw
  | initializing =>
    exact advances_of_keeps (keeps_createState hs) (reindexOk_start hw)
  | paging =>
    simp only [indexStatement, readPage]
    split
    · exact advances_refl hs hw
    · rename_i heq
      exact advances_refl hs ⟨hw, fun c hc => copyOk_nextPage hs (heq ▸ hc)⟩
  | pageBuilding =>
    exact advances_refl hs ⟨hw.1, pushing_build hw.2⟩
  | pagePushing => exact advances_pushPage hs hw.1 hw.2 hu
  | swapping =>
    exact advances_of_keeps (keeps_swap hs hw hu) hw
  | recording =>
    exact advances_of_keeps (keeps_recordState hs) hw
  | clearingAll =>
    obtain ⟨halias, hread⟩ := hu
    refine advances_of_keeps (keeps_clearAll hs hw halias hread) ?_
    unfold afterReindex
    split
    · trivial
    rename_i batch hbatch
    exact hw.batch batch hbatch
  | idle | returned | failed => trivial

/-! ## Runs -/

/-- What a call may rely on: no step takes back what another one has written. -/
def indexOutline : Outline IndexDb Unit IndexPlace Instant where
  Assumes := fun _ db _ place => Undisturbed db place
  Sound := IndexSound
  Guarantee := IndexProgress
  Work := fun db _ place => IndexWork db place
  holds := fun _ _ _ => False

theorem indexKeeps {pid : ℕ} (hk : IndexSound db' ∧ IndexProgress db db') :
    indexOutline.Keeps db pid place db' :=
  ⟨hk.1, hk.2, fun _ _ _ _ hw => hk.2.work hw⟩

/-- Each undisturbed statement keeps the indices. -/
theorem indexProof : FreeProof indexer indexOutline where
  refl := refl
  trans := fun _ _ _ h h' => h.trans h'
  first := by
    intro db pid request _
    cases request with
    | fullReindex =>
      rintro b ⟨⟩
    | edit | flushDirty => trivial
  statement := fun now db pid place hu hs hw => (advances hs hw hu).mono
    (fun db' place' h => ⟨indexKeeps h.1, h.2⟩) (fun _ _ _ h => h.elim) (fun _ h => h.elim)
    fun _ h => h.elim
  dies := fun db _ _ _ hs _ => ⟨indexKeeps ⟨hs, refl db⟩, trivial⟩

/-- An empty projection, and no index. -/
def IndexDb.empty : IndexDb where
  store := ⟨.empty, .empty, []⟩
  version := fun _ => 0
  state := none
  held := fun _ _ => none
  aliased := none

theorem indexSound_empty : IndexSound .empty where
  keyed := by simp [IndexDb.row, IndexDb.empty]
  entries := by simp [IndexDb.empty]
  clean := by simp [IndexDb.row, IndexDb.empty]

instance (db : IndexDb) (index : PhysicalIndex) (id : Uuid) (version : ℕ) :
    Decidable (Pushable db index id version) :=
  inferInstanceAs (Decidable ((∀ e ∈ db.held index id, e.version ≤ version) ∧
    (version = db.version id ∨ ∃ doc ∈ db.row id, Dirty doc)))

instance (db : IndexDb) (r : Reindex) (doc : ProviderDocument) : Decidable (ReadAsIs db r doc) :=
  inferInstanceAs (Decidable (_ ∧ _))

instance (db : IndexDb) (place : IndexPlace) : Decidable (Undisturbed db place) := by
  unfold Undisturbed
  split <;> infer_instance

/-- A step that is not overtaken. -/
def UndisturbedStep (s : System IndexDb Unit IndexPlace) (e : Step IndexCall Instant) : Prop :=
  match e.action with
  | .statement _ => Undisturbed s.db (s.calls e.pid)
  | _ => True

instance (s : System IndexDb Unit IndexPlace) (e : Step IndexCall Instant) :
    Decidable (UndisturbedStep s e) := by
  unfold UndisturbedStep
  split <;> infer_instance

theorem noUpdateLost_of_sound {s : System IndexDb Unit IndexPlace} (hs : IndexSound s.db) :
    NoUpdateLost s := by
  intro _ id doc hdoc
  by_cases hdirty : Dirty doc
  · exact Or.inl hdirty
  · obtain ⟨index, halias, hidx⟩ := hs.clean id doc hdoc hdirty
    exact Or.inr ⟨index, halias, holds_of_indexed hs hidx⟩

/-- When no step is overtaken, every row is dirty, or indexed as it is. -/
theorem kept_run {es : List (Step IndexCall Instant)}
    (h : Along indexer.step UndisturbedStep (indexer.start .empty) es) :
    Throughout indexer.step NoUpdateLost (indexer.start .empty) es := by
  have hstart : indexOutline.Holds (indexer.start .empty) :=
    indexProof.proof.holds_start indexSound_empty fun _ => trivial
  refine throughout_of_along (I := indexOutline.Holds)
    (fun s hs => noUpdateLost_of_sound hs.sound) ?_ hstart h
  intro s e s' hs hu hstep
  have hmeets : indexOutline.Meets s e := by
    unfold Outline.Meets
    unfold UndisturbedStep at hu
    split
    · rename_i now hact
      rw [hact] at hu
      exact hu
    · trivial
  exact (indexProof.proof.holds_step hs hmeets hstep).1

/-! ## An edit during a rebuild -/

namespace Rebuild

/-- The next `n` statements. -/
def takes (pid n : ℕ) (now : Instant) : List (Step IndexCall Instant) :=
  List.replicate n ⟨pid, .statement now⟩

/-- A revision of a profile is projected. -/
def projects (pid revision : ℕ) (displayName : String) (now : Instant) :
    List (Step IndexCall Instant) :=
  ⟨pid, .start (.edit (.upsertProfessional
    ⟨1, revision, ⟨displayName, none, none, none, [], [], "verified", false, now⟩, none⟩))⟩ ::
      takes pid 1 now

/-- A rebuild of one row, a second revision, and a sweep. -/
def inOrder : List (Step IndexCall Instant) :=
  projects 0 1 "Studio" 1000 ++ ⟨1, .start (.fullReindex 1)⟩ :: takes 1 11 2000 ++
    projects 2 2 "Salon" 3000 ++ ⟨3, .start (.flushDirty 1 200)⟩ :: takes 3 10 4000

/-- The second revision is projected after the rebuild has read its page. -/
def overtaken : List (Step IndexCall Instant) :=
  projects 0 1 "Studio" 1000 ++ ⟨1, .start (.fullReindex 1)⟩ :: takes 1 5 2000 ++
    projects 2 2 "Salon" 3000 ++ takes 1 6 4000

end Rebuild

theorem kept_run_inOrder :
    Throughout indexer.step NoUpdateLost (indexer.start .empty) Rebuild.inOrder :=
  kept_run (by decide +kernel)

/-- The rebuild clears the mark of a revision it has not read. -/
theorem kept_run_overtaken_fails :
    ¬ ∀ es : List (Step IndexCall Instant),
      Throughout indexer.step NoUpdateLost (indexer.start .empty) es := by
  intro h
  obtain ⟨s, hs, ⟨h0, h1, h2⟩, halias, ⟨doc, hdoc, hclean⟩, hheld⟩ :
      ∃ s ∈ runFrom indexer.step (indexer.start .empty) Rebuild.overtaken,
        ((s.calls 0).running = false ∧ (s.calls 1).running = false ∧
          (s.calls 2).running = false) ∧ s.db.aliased = some ⟨1, 1⟩ ∧
        (∃ doc ∈ s.db.row 1, doc.indexDirtySince = none) ∧
        (s.db.holds ⟨1, 1⟩ 1).map (·.displayName) ≠ (s.db.shown 1).map (·.displayName) := by
    decide +kernel
  have hended : ∀ pid, (s.calls pid).running = false := by
    intro pid
    by_cases hpid : pid = 0 ∨ pid = 1 ∨ pid = 2
    · rcases hpid with rfl | rfl | rfl
      · exact h0
      · exact h1
      · exact h2
    · have hpids : ∀ e ∈ Rebuild.overtaken, e.pid = 0 ∨ e.pid = 1 ∨ e.pid = 2 := by decide +kernel
      rw [Service.calls_of_not_mem pid (fun e he heq => hpid (heq ▸ hpids e he)) hs]
      rfl
  rcases (h Rebuild.overtaken).last hs hended 1 doc hdoc with hdirty | ⟨_, hat, heq⟩
  · exact hdirty hclean
  · cases halias.symm.trans hat
    exact hheld (congrArg _ heq)

end BeauClick.Search
