import BeauClick.Commerce.Order
import Mathlib.Data.List.Induction
import Mathlib.Data.List.Sort

/-!
# Tiers

`TierService` (`services/loyalty/src/tier.service.ts`): a tier is never stored, it is read off the
lifetime points.
-/

namespace BeauClick.Loyalty

open List

/-- A row of `loyalty.tiers`. -/
structure TierEntity where
  id : Uuid
  slug : String
  name : String
  thresholdPoints : ℕ
  sortOrder : ℤ
  isActive : Bool

/-- A tier as it is shown. -/
structure TierView where
  id : Uuid
  slug : String
  name : String
  thresholdPoints : ℕ
  sortOrder : ℤ

/-- What `activeTiers` makes of a row. -/
def TierEntity.view (r : TierEntity) : TierView where
  id := r.id
  slug := r.slug
  name := r.name
  thresholdPoints := r.thresholdPoints
  sortOrder := r.sortOrder

/-- `loyalty.tiers`, with its primary key and `UNIQUE (slug)`. -/
structure TierTable where
  rows : List TierEntity
  id : (rows.map (·.id)).Nodup
  slug : (rows.map (·.slug)).Nodup

namespace TierTable

/-- The tiers in use, the lowest threshold first. -/
def activeTiers (tiers : TierTable) : List TierView :=
  ((tiers.rows.filter (·.isActive)).insertionSort
    fun a b => a.thresholdPoints ≤ b.thresholdPoints).map TierEntity.view

/-- The tier that the loop of `tierForPoints` ends with. -/
def qualifying (lifetimePoints : ℕ) (tiers : List TierView) : Option TierView :=
  tiers.foldl
    (fun qualifying tier =>
      if tier.thresholdPoints ≤ lifetimePoints then some tier else qualifying) none

/-- The highest tier whose threshold is reached. -/
def tierForPoints (tiers : TierTable) (lifetimePoints : ℕ) : Option TierView :=
  qualifying lifetimePoints tiers.activeTiers

def tierSlugForPoints (tiers : TierTable) (lifetimePoints : ℕ) : Option String :=
  (tiers.tierForPoints lifetimePoints).map (·.slug)

/-- `findOne({ where: { slug } })`. -/
def findBySlug (tiers : TierTable) (slug : String) : Option TierEntity :=
  tiers.rows.find? fun r => r.slug = slug

variable (tiers : TierTable)

theorem nodup_activeTiers : (tiers.activeTiers.map (·.slug)).Nodup := by
  unfold activeTiers
  rw [map_map]
  have hperm := perm_insertionSort
    (fun a b : TierEntity => a.thresholdPoints ≤ b.thresholdPoints) (tiers.rows.filter (·.isActive))
  refine (hperm.map (·.slug)).nodup_iff.2 ?_
  exact tiers.slug.sublist (filter_sublist.map _)

variable {lifetimePoints a b : ℕ} {ts : List TierView} {t : TierView}

theorem qualifying_concat :
    qualifying lifetimePoints (ts ++ [t]) =
      if t.thresholdPoints ≤ lifetimePoints then some t else qualifying lifetimePoints ts := by
  simp [qualifying]

theorem mem_of_qualifying (h : qualifying lifetimePoints ts = some t) : t ∈ ts := by
  induction ts using List.reverseRecOn with
  | nil => cases h
  | append_singleton ts u ih =>
    rw [qualifying_concat] at h
    split at h
    · cases h
      exact mem_append_right ts mem_cons_self
    · exact mem_append_left _ (ih h)

theorem qualifying_eq_iff (hab : a ≤ b)
    (hsort : ts.Pairwise fun t u => t.thresholdPoints ≤ u.thresholdPoints)
    (hnodup : (ts.map (·.slug)).Nodup) :
    (qualifying a ts).map (·.slug) = (qualifying b ts).map (·.slug) ↔
      ∀ t ∈ ts, a < t.thresholdPoints → b < t.thresholdPoints := by
  induction ts using List.reverseRecOn with
  | nil => simp [qualifying]
  | append_singleton ts t ih =>
    rw [map_append] at hnodup
    obtain ⟨hts, -, hdisj⟩ := nodup_append.1 hnodup
    obtain ⟨hsort, -, hlast⟩ := pairwise_append.1 hsort
    rw [qualifying_concat, qualifying_concat, forall_mem_append, forall_mem_singleton]
    by_cases hb : t.thresholdPoints ≤ b
    · rw [if_pos hb]
      by_cases ha : t.thresholdPoints ≤ a
      · rw [if_pos ha]
        refine iff_of_true rfl ⟨fun u hu hlt => ?_, fun hlt => absurd hlt (not_lt.2 ha)⟩
        exact absurd hlt (not_lt.2 ((hlast u hu t mem_cons_self).trans ha))
      · -- the last tier is the one of `b`, and not of `a`
        rw [if_neg ha]
        refine iff_of_false (fun h => ?_) fun h => absurd (h.2 (not_le.1 ha)) (not_lt.2 hb)
        obtain ⟨u, hu, hslug⟩ := Option.map_eq_some_iff.1 h
        have hmem : u.slug ∈ ts.map (·.slug) := mem_map_of_mem (mem_of_qualifying hu)
        exact absurd hslug (hdisj u.slug hmem t.slug (by simp))
    · rw [if_neg hb, if_neg fun ha => hb (ha.trans hab), ih hsort hts]
      exact (and_iff_left fun _ => not_le.1 hb).symm

theorem pairwise_activeTiers :
    tiers.activeTiers.Pairwise fun t u => t.thresholdPoints ≤ u.thresholdPoints := by
  unfold activeTiers
  rw [pairwise_map]
  exact pairwise_insertionSort _ _

theorem tierSlugForPoints_eq_iff (hab : a ≤ b) :
    tiers.tierSlugForPoints a = tiers.tierSlugForPoints b ↔
      ∀ t ∈ tiers.activeTiers, a < t.thresholdPoints → b < t.thresholdPoints :=
  qualifying_eq_iff hab tiers.pairwise_activeTiers tiers.nodup_activeTiers

theorem tierSlugForPoints_between {c : ℕ} (hab : a ≤ b) (hbc : b ≤ c)
    (h : tiers.tierSlugForPoints a = tiers.tierSlugForPoints c) :
    tiers.tierSlugForPoints b = tiers.tierSlugForPoints a := by
  have hnone := (tiers.tierSlugForPoints_eq_iff (hab.trans hbc)).1 h
  refine ((tiers.tierSlugForPoints_eq_iff hab).2 fun t ht hlt => ?_).symm
  exact hbc.trans_lt (hnone t ht hlt)

end TierTable

end BeauClick.Loyalty
