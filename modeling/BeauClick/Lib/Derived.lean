import Mathlib.Data.List.Induction

/-!
# Derived values that are refreshed

A system keeps values that are derived from its other data, one for each index.  Some operations
disturb the value of an index and some refresh it; where every disturbance is followed by a
refresh, the value is settled at the end.

* `Refreshed` — every operation that disturbs the index is followed by one that refreshes it.
* `settled_of_refreshed` — the value is settled after any such operations.
-/

namespace Derived

universe u v w

variable {σ : Type u} {ω : Type v} {ι : Type w}

/-- The state after operations. -/
def after (step : σ → ω → σ) (s : σ) (ops : List ω) : σ := ops.foldl step s

theorem after_append {step : σ → ω → σ} {s : σ} {ops ops' : List ω} :
    after step s (ops ++ ops') = after step (after step s ops) ops' := by
  rw [after, List.foldl_append, after, after]

/-- Every operation that disturbs the value of the index is followed by one that refreshes it. -/
def Refreshed (step : σ → ω → σ) (Disturbs : σ → ω → ι → Prop) (Refreshes : ω → ι → Prop) (s : σ)
    (ops : List ω) (i : ι) : Prop :=
  ∀ pre op post, ops = pre ++ op :: post → Disturbs (after step s pre) op i →
    ∃ op' ∈ post, Refreshes op' i

section

variable {step : σ → ω → σ} {Disturbs : σ → ω → ι → Prop} {Refreshes : ω → ι → Prop} {s : σ}
  {ops : List ω} {i : ι}

/-- After operations that invariant `Inv` holds along, the value of an index is settled if every
disturbance of it is followed by a refresh. -/
theorem settled_of_refreshed (Inv : σ → Prop) (Settled : σ → ι → Prop)
    (hrefresh : ∀ s op, Inv s → Inv (step s op) → Refreshes op i → Settled (step s op) i)
    (hkeep : ∀ s op, Inv s → Inv (step s op) → ¬Disturbs s op i → Settled s i →
      Settled (step s op) i)
    (hinv : ∀ pre, pre <+: ops → Inv (after step s pre)) (hstart : Settled s i)
    (h : Refreshed step Disturbs Refreshes s ops i) : Settled (after step s ops) i := by
  classical
  induction ops using List.reverseRecOn with
  | nil => exact hstart
  | append_singleton ops op ih =>
    have hbef : Inv (after step s ops) := hinv ops (List.prefix_append ops [op])
    have hnow : Inv (step (after step s ops) op) := by
      have hall := hinv (ops ++ [op]) List.prefix_rfl
      rwa [after_append] at hall
    rw [after_append]
    by_cases hr : Refreshes op i
    · exact hrefresh _ op hbef hnow hr
    · have hnot : ¬Disturbs (after step s ops) op i := by
        intro hd
        obtain ⟨op', hop', -⟩ := h ops op [] rfl hd
        cases hop'
      refine hkeep _ op hbef hnow hnot (ih ?_ ?_)
      · exact fun pre hpre => hinv pre (hpre.trans (List.prefix_append ops [op]))
      · -- What refreshes the value after an earlier operation is not the last one.
        intro pre op' post hsplit hd
        obtain ⟨x, hx, hrefreshes⟩ := h pre op' (post ++ [op]) (by rw [hsplit]; simp) hd
        rcases List.mem_append.1 hx with hx | hx
        · exact ⟨x, hx, hrefreshes⟩
        · rw [List.mem_singleton.1 hx] at hrefreshes
          exact absurd hrefreshes hr

end

end Derived
