import Mathlib.Data.List.Basic

/-!
# Runs of a labelled transition function

A system is a partial function `step : σ → ε → Option σ`: the event says which
action is taken and carries every choice the system does not make itself (a
clock reading, an answer from outside), and `none` means that the action is not
enabled.  A run is a list of events replayed from a state.

* `runFrom` — replay; `runFrom_cons_eq_some` takes its first step.
* `Along G` — every step of the run meets the condition `G`, judged on the state
  the step starts from.
* `runFrom_append`, `Along.last` — a run and what comes after it.
* `Throughout P` — every state the run passes through has the property `P`.
* `runFrom_invariant`, `runFrom_invariant_along` — the two invariant rules.
* `along_of_invariant`, `Along.of_invariant` — what follows from an invariant holds of every step.
* `throughout_of_along`, `Throughout.last` — a run along `G` keeps what its steps keep, and ends
  in it; `Throughout.along` — its steps start from it.
* `throughout_and_along_iff`, `throughout_iff_along` — when one step keeps `P` exactly if it meets
  `G`, a whole run keeps `P` exactly if all of its steps meet `G`.
* `exists_before` — what a run comes to has come about in some step.
* `Throughout.at_append`, `Along.of_append` — the first part of a run.
* `alone_update` — of several parties, one moves on to what no other one holds.
-/

namespace Runs

open Function

universe u v

variable {σ : Type u} {ε : Type v} {step : σ → ε → Option σ} {s t : σ} {es : List ε}
  {G : σ → ε → Prop} {I P : σ → Prop}

/-! ## Replay -/

/-- Replay a list of events; `none` as soon as one of them is not enabled. -/
def runFrom (step : σ → ε → Option σ) (s : σ) : List ε → Option σ
  | [] => some s
  | e :: es =>
    match step s e with
    | none => none
    | some s' => runFrom step s' es

/-- Every step of the run meets `G` in the state it starts from. -/
def Along (step : σ → ε → Option σ) (G : σ → ε → Prop) (s : σ) : List ε → Prop
  | [] => True
  | e :: es => G s e ∧ ∀ s', step s e = some s' → Along step G s' es

/-- Every state the run passes through, its first and its last one included,
has the property `P`. -/
def Throughout (step : σ → ε → Option σ) (P : σ → Prop) (s : σ) : List ε → Prop
  | [] => P s
  | e :: es => P s ∧ ∀ s', step s e = some s' → Throughout step P s' es

/-- A condition that can be decided of one step can be decided of a run. -/
instance Along.decidable {G : σ → ε → Prop} [∀ s e, Decidable (G s e)] :
    ∀ s es, Decidable (Along step G s es)
  | _, [] => inferInstanceAs (Decidable True)
  | s, e :: es =>
    match h : step s e with
    | none => decidable_of_iff (G s e) (by simp [Along, h])
    | some s' =>
      haveI := Along.decidable (G := G) s' es
      decidable_of_iff (G s e ∧ Along step G s' es) (by simp [Along, h])

@[simp] theorem runFrom_nil (s : σ) : runFrom step s [] = some s := rfl

theorem runFrom_cons (s : σ) (e : ε) (es : List ε) :
    runFrom step s (e :: es) = (step s e).bind (fun s' => runFrom step s' es) := by
  rw [runFrom]
  cases step s e <;> rfl

/-- A run that starts with `e` takes that step first. -/
theorem runFrom_cons_eq_some {e : ε} :
    runFrom step s (e :: es) = some t ↔ ∃ s', step s e = some s' ∧ runFrom step s' es = some t := by
  rw [runFrom_cons, Option.bind_eq_some_iff]

/-- A run goes on where its first part ends. -/
theorem runFrom_append (h : runFrom step s es = some t) (es' : List ε) :
    runFrom step s (es ++ es') = runFrom step t es' := by
  induction es generalizing s with
  | nil =>
    cases h
    rfl
  | cons e es ih =>
    obtain ⟨_, hs, hrest⟩ := runFrom_cons_eq_some.1 h
    rw [List.cons_append, runFrom_cons, hs]
    exact ih hrest

/-- The last step of a run meets what all of its steps meet. -/
theorem Along.last {e : ε} (h : Along step G s (es ++ [e])) (hrun : runFrom step s es = some t) :
    G t e := by
  induction es generalizing s with
  | nil =>
    cases hrun
    exact h.1
  | cons e' es ih =>
    obtain ⟨s', hs, hrest⟩ := runFrom_cons_eq_some.1 hrun
    exact ih (h.2 s' hs) hrest

/-! ## The invariant rules -/

/-- What every step keeps, every run keeps. -/
theorem runFrom_invariant (hstep : ∀ s e s', I s → step s e = some s' → I s') (h0 : I s)
    (h : runFrom step s es = some t) : I t := by
  induction es generalizing s with
  | nil => cases h; exact h0
  | cons e es ih =>
    obtain ⟨s', hs, hrun⟩ := runFrom_cons_eq_some.1 h
    exact ih (hstep s e s' h0 hs) hrun

/-- What every step that meets `G` keeps, every run along `G` keeps. -/
theorem runFrom_invariant_along (hstep : ∀ s e s', I s → G s e → step s e = some s' → I s')
    (h0 : I s) (hG : Along step G s es) (h : runFrom step s es = some t) : I t := by
  induction es generalizing s with
  | nil => cases h; exact h0
  | cons e es ih =>
    obtain ⟨s', hs, hrun⟩ := runFrom_cons_eq_some.1 h
    exact ih (hstep s e s' h0 hG.1 hs) (hG.2 s' hs) hrun

/-- A run whose steps meet `G` stays in what an invariant of these steps contains. -/
theorem throughout_of_along (hP : ∀ s, I s → P s)
    (hkeep : ∀ s e s', I s → G s e → step s e = some s' → I s') (h0 : I s)
    (hG : Along step G s es) : Throughout step P s es := by
  induction es generalizing s with
  | nil => exact hP s h0
  | cons e es ih =>
    refine ⟨hP s h0, ?_⟩
    intro s' hs
    exact ih (hkeep s e s' h0 hG.1 hs) (hG.2 s' hs)

/-- What follows from an invariant holds of every step. -/
theorem along_of_invariant (hstep : ∀ s e s', I s → step s e = some s' → I s')
    (hG : ∀ s e, I s → G s e) (h0 : I s) (es : List ε) : Along step G s es := by
  induction es generalizing s with
  | nil => trivial
  | cons e es ih => exact ⟨hG s e h0, fun s' hs => ih (hstep s e s' h0 hs)⟩

/-- What follows of a step from an invariant and what it meets holds of every step. -/
theorem Along.of_invariant {G' : σ → ε → Prop} (h : Along step G s es)
    (hkeep : ∀ s e s', I s → G s e → step s e = some s' → I s') (hG : ∀ s e, I s → G s e → G' s e)
    (h0 : I s) : Along step G' s es := by
  induction es generalizing s with
  | nil => trivial
  | cons e es ih =>
    refine ⟨hG s e h0 h.1, ?_⟩
    intro s' hs
    exact ih (h.2 s' hs) (hkeep s e s' h0 h.1 hs)

/-- What holds throughout a run holds in the state it ends in. -/
theorem Throughout.last (h : Throughout step P s es) (hrun : runFrom step s es = some t) : P t := by
  induction es generalizing s with
  | nil =>
    cases hrun
    exact h
  | cons e es ih =>
    obtain ⟨s', hs, hrest⟩ := runFrom_cons_eq_some.1 hrun
    exact ih (h.2 s' hs) hrest

/-- Suppose that along a run an invariant is kept by the steps that meet `G`, that
it contains `P`, that these steps meet `K`, and that a step that meets `K` and stays in `P` meets
`G`.  Then a run stays in `P`, and its steps meet `K`, exactly when all of its steps meet `G`. -/
theorem throughout_and_along_iff {K : σ → ε → Prop} (hP : ∀ s, I s → P s)
    (hkeep : ∀ s e s', I s → G s e → step s e = some s' → I s') (hK : ∀ s e, I s → G s e → K s e)
    (hback : ∀ s e, I s → K s e → (∀ s', step s e = some s' → P s') → G s e) (h0 : I s)
    (es : List ε) : Throughout step P s es ∧ Along step K s es ↔ Along step G s es := by
  induction es generalizing s with
  | nil => exact ⟨fun _ => trivial, fun _ => ⟨hP s h0, trivial⟩⟩
  | cons e es ih =>
    constructor
    · rintro ⟨⟨-, hrest⟩, hat, hlater⟩
      have hG : G s e := by
        refine hback s e h0 hat ?_
        intro s' hs
        have hfrom := hrest s' hs
        cases es with
        | nil => exact hfrom
        | cons => exact hfrom.1
      exact ⟨hG, fun s' hs => (ih (hkeep s e s' h0 hG hs)).1 ⟨hrest s' hs, hlater s' hs⟩⟩
    · rintro ⟨hG, hrest⟩
      have hlater : ∀ s', step s e = some s' → Throughout step P s' es ∧ Along step K s' es :=
        fun s' hs => (ih (hkeep s e s' h0 hG hs)).2 (hrest s' hs)
      exact ⟨⟨hP s h0, fun s' hs => (hlater s' hs).1⟩, hK s e h0 hG, fun s' hs => (hlater s' hs).2⟩

/-- Where nothing is asked of the steps themselves, a run stays in `P` exactly when all of its
steps meet `G`. -/
theorem throughout_iff_along (hP : ∀ s, I s → P s)
    (hkeep : ∀ s e s', I s → G s e → step s e = some s' → I s')
    (hleave : ∀ s e s', I s → step s e = some s' → P s' → G s e)
    (hstuck : ∀ s e, I s → step s e = none → G s e) (h0 : I s) (es : List ε) :
    Throughout step P s es ↔ Along step G s es := by
  have hall : Along step (fun _ _ => True) s es :=
    along_of_invariant (fun _ _ _ _ _ => trivial) (fun _ _ _ => trivial) trivial es
  rw [← throughout_and_along_iff hP hkeep (fun _ _ _ _ => trivial) ?_ h0 es, and_iff_left hall]
  intro s e hs _ hafter
  cases hstep : step s e with
  | none => exact hstuck s e hs hstep
  | some s' => exact hleave s e s' hs hstep (hafter s' hstep)

/-- What a run comes to that it did not start from has come about in some step. -/
theorem exists_before {Q M : σ → Prop} (hkeep : ∀ s e s', I s → step s e = some s' → I s')
    (hcomes : ∀ s e s', I s → G s e → step s e = some s' → Q s' → Q s ∨ M s) (h0 : I s)
    (hnot : ¬Q s) (hG : Along step G s es) (hrun : runFrom step s es = some t) (hQ : Q t) :
    ∃ sooner later u, es = sooner ++ later ∧ runFrom step s sooner = some u ∧ M u := by
  induction es generalizing s with
  | nil =>
    cases hrun
    exact absurd hQ hnot
  | cons e es ih =>
    obtain ⟨s', hs, hrest⟩ := runFrom_cons_eq_some.1 hrun
    by_cases hQ' : Q s'
    · have hM := (hcomes s e s' h0 hG.1 hs hQ').resolve_left hnot
      exact ⟨[], e :: es, s, rfl, rfl, hM⟩
    · obtain ⟨sooner, later, u, hsplit, hsooner, hM⟩ :=
        ih (hkeep s e s' h0 hs) hQ' (hG.2 s' hs) hrest
      exact ⟨e :: sooner, later, u, by rw [hsplit, List.cons_append],
        runFrom_cons_eq_some.2 ⟨s', hs, hsooner⟩, hM⟩

/-- What holds throughout a run holds wherever one of its steps starts from. -/
theorem Throughout.along (h : Throughout step P s es) : Along step (fun s _ => P s) s es := by
  induction es generalizing s with
  | nil => trivial
  | cons e es ih => exact ⟨h.1, fun s' hs => ih (h.2 s' hs)⟩

/-- What holds throughout a run holds where a first part of it ends. -/
theorem Throughout.at_append {es' : List ε} (h : Throughout step P s (es ++ es'))
    (hrun : runFrom step s es = some t) : P t := by
  induction es generalizing s with
  | nil =>
    cases hrun
    cases es' with
    | nil => exact h
    | cons => exact h.1
  | cons e es ih =>
    obtain ⟨s', hs, hrest⟩ := runFrom_cons_eq_some.1 hrun
    exact ih (h.2 s' hs) hrest

/-- The first part of a run meets what the run meets. -/
theorem Along.of_append {es' : List ε} (h : Along step G s (es ++ es')) : Along step G s es := by
  induction es generalizing s with
  | nil => trivial
  | cons e es ih => exact ⟨h.1, fun s' hs => ih (h.2 s' hs)⟩

/-- The rest of a run meets what the run meets. -/
theorem Along.at_append {es' : List ε} (h : Along step G s (es ++ es'))
    (hrun : runFrom step s es = some t) : Along step G t es' := by
  induction es generalizing s with
  | nil =>
    cases hrun
    exact h
  | cons e es ih =>
    obtain ⟨s', hs, hrest⟩ := runFrom_cons_eq_some.1 hrun
    exact ih (h.2 s' hs) hrest

/-! ## Several parties -/

section Parties

variable {ι : Type u} {α : Type v} {κ : Type*} [DecidableEq ι] {R : α → κ → Prop} {f : ι → α}
  {p : ι} {a : α}

/-- No two parties hold the same thing after one of them has moved on, when they did not
before and what it holds now is held by no other one. -/
theorem alone_update (h : ∀ q r x, R (f q) x → R (f r) x → q = r)
    (hnew : ∀ x, R a x → ∀ q, q ≠ p → ¬R (f q) x) :
    ∀ q r x, R (update f p a q) x → R (update f p a r) x → q = r := by
  intro q r x hq hr
  by_cases hqp : q = p <;> by_cases hrp : r = p
  · rw [hqp, hrp]
  · rw [hqp, update_self] at hq
    rw [update_of_ne hrp] at hr
    exact absurd hr (hnew x hq r hrp)
  · rw [hrp, update_self] at hr
    rw [update_of_ne hqp] at hq
    exact absurd hq (hnew x hr q hqp)
  · rw [update_of_ne hqp] at hq
    rw [update_of_ne hrp] at hr
    exact h q r x hq hr

end Parties

end Runs
