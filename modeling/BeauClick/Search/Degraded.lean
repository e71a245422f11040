import BeauClick.Lib.Pages
import BeauClick.Search.Index

/-!
# Search without its engine

`SearchService.degradedSearch` (`services/search/src/search.service.ts`) next to the filters of
`OpenSearchAdapter.buildQuery` (`opensearch/opensearch.adapter.ts`), for criteria without a text.
-/

namespace BeauClick.Search

open Pages List

/-- `ProviderSearchCriteria`, less its text, its order and the number of the page; no specialty
is asked for by an empty list. -/
structure ProviderSearchCriteria where
  cityId : Option Uuid
  specialtyIds : List Uuid
  minPriceToman : Option ℤ
  maxPriceToman : Option ℤ
  minRating : Option ℚ
  verifiedOnly : Bool
  pageSize : ℕ
  pageSize_pos : 0 < pageSize

/-- The filters of `buildQuery`: a range does not match a field that is missing. -/
def buildQuery (c : ProviderSearchCriteria) (doc : ProviderSearchDocument) : Prop :=
  (∀ id ∈ c.cityId, doc.cityId = some id) ∧
  (c.specialtyIds ≠ [] → ∃ id ∈ c.specialtyIds, id ∈ doc.specialtyIds) ∧
  (c.verifiedOnly → doc.isVerified = true) ∧
  (∀ rating ∈ c.minRating, rating ≤ doc.ratingAvg) ∧
  (∀ price ∈ c.minPriceToman, ∃ n ∈ doc.catalogue.maxPriceToman, price ≤ n) ∧
  ∀ price ∈ c.maxPriceToman, ∃ n ∈ doc.catalogue.minPriceToman, n ≤ price

/-- The `WHERE` of `degradedSearch`: a comparison with `NULL` is not true. -/
def degradedWhere (c : ProviderSearchCriteria) (d : ProviderDocument) : Prop :=
  d.profile.isDeleted = false ∧
  (∀ id ∈ c.cityId, d.profile.cityId = some id) ∧
  (c.verifiedOnly → d.profile.verificationStatus = "verified") ∧
  (c.specialtyIds ≠ [] → ∃ id ∈ c.specialtyIds, id ∈ d.profile.specialtyIds) ∧
  (∀ price ∈ c.minPriceToman, ∃ n ∈ d.catalogue.maxPriceToman, price ≤ n) ∧
  ∀ price ∈ c.maxPriceToman, ∃ n ∈ d.catalogue.minPriceToman, n ≤ price

instance (c : ProviderSearchCriteria) : DecidablePred (buildQuery c) := fun _ =>
  inferInstanceAs (Decidable (_ ∧ _))

instance (c : ProviderSearchCriteria) : DecidablePred (degradedWhere c) := fun _ =>
  inferInstanceAs (Decidable (_ ∧ _))

/-- The projection, its documents under their primary key. -/
structure KeyedStore extends SearchStore where
  keyed : ∀ id d, documents.row id = some d → d.professionalId = id

namespace KeyedStore

variable (s : KeyedStore) (c : ProviderSearchCriteria)

/-- The document that the engine has of a row. -/
def indexed (d : ProviderDocument) : ProviderSearchDocument :=
  toSearchDocument d (s.signals.row d.professionalId)

/-- What the engine finds in an index that is in sync. -/
def engineHits : List ProviderSearchDocument :=
  ((s.documents.rows.filter fun d => d.profile.isDeleted = false).map s.indexed).filter
    (buildQuery c)

/-- The rows of `degradedSearch`, over all pages, and with their number its `total`. -/
def degradedRows : List ProviderDocument := s.documents.rows.filter (degradedWhere c)

/-- The total is that of the engine; and whatever order the database puts the rows of each page's
query in, the professionals on all pages are those that the engine finds. -/
def Honours : Prop :=
  (s.degradedRows c).length = (s.engineHits c).length ∧
  ∀ order : ℕ → List ProviderDocument,
    (∀ p, Sorts (·.ranking.value) (s.degradedRows c) (order p)) →
      ∀ id, (∃ p, ∃ d ∈ page c.pageSize p (order p), d.professionalId = id) ↔
        ∃ doc ∈ s.engineHits c, doc.professionalId = id

/-- Every professional that passes the other filters has the rating that is asked for. -/
def Rated : Prop :=
  ∀ d ∈ s.degradedRows c, ∀ rating ∈ c.minRating, rating ≤ (s.indexed d).ratingAvg

variable {s c}

theorem eq_of_id {d d' : ProviderDocument} (hd : d ∈ s.degradedRows c)
    (hd' : d' ∈ s.degradedRows c) (h : d.professionalId = d'.professionalId) : d = d' := by
  obtain ⟨k, hk⟩ := Keyed.mem_rows.1 (mem_of_mem_filter hd)
  obtain ⟨k', hk'⟩ := Keyed.mem_rows.1 (mem_of_mem_filter hd')
  rw [← s.keyed k d hk, h, s.keyed k' d' hk', hk'] at hk
  exact (Option.some.inj hk).symm

theorem nodup_degradedRows (s : KeyedStore) (c : ProviderSearchCriteria) :
    (s.degradedRows c).Nodup := by
  refine (List.Nodup.filterMap ?_ s.documents.nodup).filter _
  intro k k' d hk hk'
  exact (s.keyed k d hk).symm.trans (s.keyed k' d hk')

theorem engineHits_eq (s : KeyedStore) (c : ProviderSearchCriteria) : s.engineHits c =
    ((s.degradedRows c).filter fun d => ∀ rating ∈ c.minRating, rating ≤ (s.indexed d).ratingAvg).map
      s.indexed := by
  rw [engineHits, degradedRows, filter_map, filter_filter, filter_filter]
  refine congrArg _ (filter_congr fun d _ => ?_)
  rw [Function.comp_apply, ← Bool.decide_and, ← Bool.decide_and]
  refine decide_eq_decide.2 ?_
  simp only [buildQuery, degradedWhere, indexed, toSearchDocument, beq_iff_eq]
  tauto

theorem rated_iff : s.Rated c ↔ (s.degradedRows c).length = (s.engineHits c).length := by
  rw [engineHits_eq, length_map, eq_comm, length_filter_eq_length_iff]
  simp only [Rated, decide_eq_true_eq]

/-- The engine's filters are honoured exactly when none of the professionals found has too low a
rating, and no page ends between two professionals of one score. -/
theorem honours_iff (s : KeyedStore) (c : ProviderSearchCriteria) :
    s.Honours c ↔ s.Rated c ∧ Untied (·.ranking.value) c.pageSize (s.degradedRows c) := by
  rw [Honours, ← rated_iff, and_congr_right_iff]
  intro hrated
  rw [← pages_iff (nodup_degradedRows s c) c.pageSize_pos]
  have hhits (id : Uuid) : (∃ doc ∈ s.engineHits c, doc.professionalId = id) ↔
      ∃ d ∈ s.degradedRows c, d.professionalId = id := by
    rw [engineHits_eq, filter_eq_self.2 fun d hd => decide_eq_true (hrated d hd)]
    simp only [mem_map, exists_exists_and_eq_and]
    rfl
  refine forall₂_congr fun order hsorts => ?_
  have hmem {p d} (hd : d ∈ page c.pageSize p (order p)) : d ∈ s.degradedRows c :=
    (hsorts p).1.mem_iff.1 (mem_of_mem_drop (mem_of_mem_take hd))
  simp only [hhits]
  constructor
  · intro h d hd
    obtain ⟨p, _, hd', hid⟩ := (h d.professionalId).2 ⟨d, hd, rfl⟩
    exact ⟨p, eq_of_id (hmem hd') hd hid ▸ hd'⟩
  · refine fun h id => ⟨fun ⟨p, d, hd, hid⟩ => ⟨d, hmem hd, hid⟩, fun ⟨d, hd, hid⟩ => ?_⟩
    obtain ⟨p, hp⟩ := h d hd
    exact ⟨p, d, hp, hid⟩

/-- One professional without a review, and a search from four stars. -/
theorem honours_unrated_fails :
    ¬ Honours
      ⟨⟨Keyed.empty.set 1 ⟨1, 1, ⟨"Sara", none, none, none, [], [], "verified", false, 0⟩,
          ⟨[], none, none⟩, .default, ⟨0, []⟩, none, some 0⟩, .empty, []⟩, by
        intro id d h
        by_cases hid : id = 1
        · subst hid
          rw [← Option.some.inj h]
        · rw [Keyed.row_set_of_ne hid] at h
          cases h⟩
      ⟨none, [], none, none, some 4, false, 20, by decide⟩ :=
  fun h => absurd h.1 (by decide)

end KeyedStore

end BeauClick.Search
