import Mathlib.Data.List.Basic
import Mathlib.Data.List.Count

/-!
# A queue served from its head in batches

Entries wait in a queue.  One round serves the first `b` of them: those that are not
stuck leave, the stuck ones keep their places.  New entries join at the end.

* `serve` — one round.
* `serve_behind` — what stands ahead of an entry that the batch does not reach.
* `Behind` — the entry waits, and so many stuck ones stand ahead of it.
* `behind_serve_of_lt` — fewer stuck ones than a batch: the entry leaves, or comes nearer.
* `behind_serve_of_le` — a batch of stuck ones: it stays where it is for ever.
-/

namespace BatchQueue

open List

universe u

variable {α : Type u} {b : ℕ} {stuck : α → Bool} {a : α} {l pre post : List α}

/-- One round: of the first `b` entries those stay that are stuck. -/
def serve (b : ℕ) (stuck : α → Bool) (l : List α) : List α :=
  (l.take b).filter stuck ++ l.drop b

/-- A batch that does not reach the entry serves what stands ahead of it. -/
theorem serve_behind (h : b ≤ pre.length) :
    serve b stuck (pre ++ a :: post) = serve b stuck pre ++ a :: post := by
  rw [serve, serve, take_append_of_le_length h, drop_append_of_le_length h,
    append_assoc]

/-- The stuck entries stay. -/
theorem countP_serve : (serve b stuck l).countP stuck = l.countP stuck := by
  have hsplit : l.countP stuck = (l.take b).countP stuck + (l.drop b).countP stuck := by
    rw [← countP_append, take_append_drop]
  rw [serve, hsplit]
  simp [countP_filter]

/-- A round shortens the queue by the entries of the batch that are not stuck. -/
theorem length_serve :
    (serve b stuck l).length + (l.take b).length = l.length + (l.take b).countP stuck := by
  have hsplit : l.length = (l.take b).length + (l.drop b).length := by
    rw [← length_append, take_append_drop]
  rw [serve, length_append, ← countP_eq_length_filter]
  omega

/-- The entry waits, and `n` stuck ones stand ahead of it among `k`. -/
def Behind (stuck : α → Bool) (a : α) (n k : ℕ) (l : List α) : Prop :=
  ∃ pre post, l = pre ++ a :: post ∧ pre.countP stuck = n ∧ pre.length = k

theorem behind_of_mem (stuck : α → Bool) (h : a ∈ l) : ∃ n k, Behind stuck a n k l := by
  obtain ⟨pre, post, rfl⟩ := append_of_mem h
  exact ⟨_, _, pre, post, rfl, rfl, rfl⟩

theorem Behind.mem {n k : ℕ} (h : Behind stuck a n k l) : a ∈ l := by
  obtain ⟨_, _, rfl, -, -⟩ := h
  simp

/-- Entries that join change nothing for those that wait. -/
theorem Behind.append {n k : ℕ} (h : Behind stuck a n k l) (l' : List α) :
    Behind stuck a n k (l ++ l') := by
  obtain ⟨pre, post, rfl, hn, hk⟩ := h
  exact ⟨pre, post ++ l', by simp, hn, hk⟩

/-- What a round does to an entry: the batch reaches it, or it stays behind the same
stuck ones. -/
theorem Behind.serve {n k : ℕ} (h : Behind stuck a n k l) :
    (k < b ∧ a ∈ l.take b) ∨
      ∃ k', Behind stuck a n k' (BatchQueue.serve b stuck l) ∧ b ≤ k ∧ k' + b ≤ k + n := by
  obtain ⟨pre, post, rfl, hn, hk⟩ := h
  by_cases hb : k < b
  · refine Or.inl ⟨hb, ?_⟩
    rw [take_append, mem_append]
    refine Or.inr ?_
    have hpos : b - pre.length = (b - pre.length - 1) + 1 := by omega
    rw [hpos]
    exact mem_cons_self
  · have hle : b ≤ pre.length := by omega
    have hlen : (BatchQueue.serve b stuck pre).length + (pre.take b).length =
        pre.length + (pre.take b).countP stuck := length_serve
    have htake : (pre.take b).length = b := length_take_of_le hle
    have hcnt : (pre.take b).countP stuck ≤ n := by
      rw [← hn]
      exact (take_sublist b pre).countP_le
    refine Or.inr ⟨(BatchQueue.serve b stuck pre).length, ⟨_, post, serve_behind hle, ?_, rfl⟩,
      by omega, ?_⟩
    · rw [countP_serve, hn]
    · omega

/-- Fewer stuck ones ahead than a batch has places: the entry leaves, or comes nearer. -/
theorem behind_serve_of_lt {n k : ℕ} (h : Behind stuck a n k l) (hn : n < b) :
    a ∈ l.take b ∨ ∃ k', k' < k ∧ Behind stuck a n k' (serve b stuck l) := by
  rcases h.serve (b := b) with ⟨-, hmem⟩ | ⟨k', hbehind, -, _⟩
  · exact Or.inl hmem
  · exact Or.inr ⟨k', by omega, hbehind⟩

/-- A batch of stuck ones ahead: no round reaches the entry. -/
theorem behind_serve_of_le {n k : ℕ} (h : Behind stuck a n k l) (hn : b ≤ n) :
    ∃ k', Behind stuck a n k' (serve b stuck l) := by
  rcases h.serve (b := b) with ⟨_, -⟩ | ⟨k', hbehind, -, -⟩
  · obtain ⟨pre, _, rfl, _, _⟩ := h
    have hle : pre.countP stuck ≤ pre.length := countP_le_length
    omega
  · exact ⟨k', hbehind⟩

/-- A round as a filter, when no entry waits twice. -/
theorem serve_eq_filter [DecidableEq α] (h : l.Nodup) :
    serve b stuck l = l.filter fun x => decide (x ∈ l.take b) → stuck x := by
  have hsplit : l = l.take b ++ l.drop b := (take_append_drop b l).symm
  have hdisj : ∀ x ∈ l.drop b, x ∉ l.take b := by
    rw [hsplit, nodup_append] at h
    intro x hx hmem
    exact h.2.2 x hmem x hx rfl
  have hfilter : ∀ p : α → Bool, l.filter p = (l.take b).filter p ++ (l.drop b).filter p := by
    intro p
    rw [← filter_append, take_append_drop]
  rw [serve, hfilter]
  congr 1
  · refine filter_congr ?_
    intro x hx
    simp [hx]
  · refine (filter_eq_self.2 ?_).symm
    intro x hx
    simp [hdisj x hx]

end BatchQueue
