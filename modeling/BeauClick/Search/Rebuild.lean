import BeauClick.Search.Projection

/-!
# The projection rebuilt from its source

`rebuildProjectionFromSource` (`services/search/src/indexing/search-indexer.service.ts`).

* `rebuild_restores_iff` — every document is as the source has it, exactly when none stood at the
  revision of the source with another profile or catalogue.
-/

namespace BeauClick.Search

open SearchStore LateEdit

/-- A row of `fetchProfessionalsForReindex`. -/
structure ReindexRow where
  professionalId : Uuid
  revision : ℕ
  profile : ProfileColumns
  services : List IndexedService
  media : ImageryColumns

/-- What the pages of the source hand over: one row for each professional. -/
structure ReindexSource where
  rows : List ReindexRow
  nodup : (rows.map (·.professionalId)).Nodup

/-- What the rebuild does with a row. -/
def rebuildRow (scorer : Scorer) (s : SearchStore) (row : ReindexRow) (now : Instant) :
    SearchStore :=
  ((s.applyProfessional scorer
    ⟨row.professionalId, row.revision, row.profile, some row.services⟩ now).2.applyMedia scorer
      ⟨row.professionalId, row.revision, row.media⟩ now).2

/-- The document is as the source has it. -/
def Restored (s : SearchStore) (row : ReindexRow) : Prop :=
  ∃ doc, s.documents.row row.professionalId = some doc ∧ doc.revision = row.revision ∧
    doc.profile = row.profile ∧ doc.catalogue = catalogueOf row.services ∧ doc.imagery = row.media

/-- A document is older than the source, or has its profile and catalogue already. -/
def Restorable (s : SearchStore) (row : ReindexRow) : Prop :=
  ∀ doc, s.documents.row row.professionalId = some doc → doc.revision < row.revision ∨
    doc.revision = row.revision ∧ doc.profile = row.profile ∧
      doc.catalogue = catalogueOf row.services

variable {scorer : Scorer} {s : SearchStore} {row : ReindexRow} {id : Uuid} {now : Instant}

theorem restored_rebuildRow_iff :
    Restored (rebuildRow scorer s row now) row ↔ Restorable s row := by
  unfold Restored Restorable rebuildRow applyProfessional applyMedia
    upsertProfessional updateMedia
  cases hdoc : s.documents.row row.professionalId with
  | none => simp [row_rescore_self, inserted, withImagery]
  | some doc =>
    rcases lt_trichotomy doc.revision row.revision with h | h | h
    · simp [h, row_rescore_self, updated, withImagery]
    · simp [h, hdoc, row_rescore_self, withImagery]
    · simp [h.not_gt, h.not_ge, h.ne', hdoc]

theorem row_rebuildRow_of_ne (h : id ≠ row.professionalId) :
    (rebuildRow scorer s row now).documents.row id = s.documents.row id := by
  have hmedia : ∀ t : SearchStore, (t.applyMedia scorer ⟨row.professionalId, row.revision,
      row.media⟩ now).2.documents.row id = t.documents.row id := by
    intro t
    unfold applyMedia updateMedia
    cases t.documents.row row.professionalId with
    | none => rfl
    | some doc =>
      by_cases hle : doc.revision ≤ row.revision
      · simp [hle, row_rescore_of_ne h, Keyed.row_set_of_ne h]
      · simp [hle]
  rw [rebuildRow, hmedia]
  unfold applyProfessional upsertProfessional
  cases s.documents.row row.professionalId with
  | none => simp [row_rescore_of_ne h, Keyed.row_set_of_ne h]
  | some doc =>
    by_cases hlt : doc.revision < row.revision
    · simp [hlt, row_rescore_of_ne h, Keyed.row_set_of_ne h]
    · simp [hlt]

/-- `rebuildProjectionFromSource`: the rows of the pages, one after another. -/
def rebuildProjectionFromSource (scorer : Scorer) (clock : Uuid → Instant)
    (rows : List ReindexRow) (s : SearchStore) : SearchStore :=
  rows.foldl (fun s row => rebuildRow scorer s row (clock row.professionalId)) s

theorem row_rebuild {clock : Uuid → Instant} {rows : List ReindexRow}
    (h : id ∉ rows.map (·.professionalId)) :
    (rebuildProjectionFromSource scorer clock rows s).documents.row id = s.documents.row id := by
  induction rows generalizing s with
  | nil => rfl
  | cons r rows ih =>
    obtain ⟨hne, hrest⟩ := not_or.1 (mt List.mem_cons.2 h)
    exact (ih hrest).trans (row_rebuildRow_of_ne hne)

theorem restored_rebuild_iff {clock : Uuid → Instant} {rows : List ReindexRow}
    (hnodup : (rows.map (·.professionalId)).Nodup) (hrow : row ∈ rows) :
    Restored (rebuildProjectionFromSource scorer clock rows s) row ↔ Restorable s row := by
  induction rows generalizing s with
  | nil => cases hrow
  | cons r rows ih =>
    obtain ⟨hfresh, hnodup⟩ := List.nodup_cons.1 hnodup
    show Restored (rebuildProjectionFromSource scorer clock rows (rebuildRow scorer s r _)) row ↔ _
    rcases List.mem_cons.1 hrow with rfl | hmem
    · rw [← @restored_rebuildRow_iff scorer s row (clock row.professionalId)]
      unfold Restored
      rw [row_rebuild hfresh]
    · rw [ih hnodup hmem]
      unfold Restorable
      rw [row_rebuildRow_of_ne fun heq => hfresh (List.mem_map.2 ⟨row, hmem, heq⟩)]

/-- The rebuild leaves every document as the source has it exactly when none of them stands at the
revision of the source, or beyond it, with a profile or a catalogue that is not the source's. -/
theorem rebuild_restores_iff (scorer : Scorer) (clock : Uuid → Instant) (source : ReindexSource)
    (s : SearchStore) : (∀ row ∈ source.rows,
      Restored (rebuildProjectionFromSource scorer clock source.rows s) row) ↔
        ∀ row ∈ source.rows, Restorable s row :=
  forall₂_congr fun _ hrow => restored_rebuild_iff source.nodup hrow

/-- A new name that came late is not recovered when the portrait, which is newer, was applied. -/
theorem rebuild_lateEdit_fails : ¬∀ (scorer : Scorer) (clock : Uuid → Instant)
    (source : ReindexSource) (history : List ProfessionalEvent) (ds : List ProfessionalDelivery),
    (∀ d ∈ ds, d.event ∈ history) → ∀ row ∈ source.rows, latestProfile history = some row.profile →
      latestImagery history = some row.media → history.getLast?.map (·.revision) = row.revision →
        Restored (rebuildProjectionFromSource scorer clock source.rows
          (handleAll scorer LateEdit.store ds)) row := by
  intro h
  let source : ReindexSource := ⟨[⟨1, 3, renamed, [], portrait⟩], by decide⟩
  obtain ⟨_, hdoc, -, hprof, -⟩ := h flat (fun _ => 400) source edits
    deliveries (by decide) _ List.mem_cons_self rfl rfl rfl
  have hshown : ((rebuildProjectionFromSource flat (fun _ => 400) source.rows
      (handleAll flat store deliveries)).documents.row 1).map
        (·.profile) = some studio := by decide +kernel
  rw [hdoc, Option.map_some, hprof] at hshown
  exact absurd hshown (by decide)

end BeauClick.Search
