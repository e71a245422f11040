import BeauClick.Subscriptions.Lifecycle
import Mathlib.Data.List.Chain

/-!
# The chain of a party's subscriptions

* `Follows` — a subscription begins where the one before it ends.
* `OneChain` — the rows of a party in one line, the last of them active.
* The lemmas say how the rows of a party may be replaced.
-/

namespace BeauClick.Subscriptions

open List

/-- What an activation writes, and no transition changes. -/
def SellerSubscription.terms (x : SellerSubscription) : SellerSubscription :=
  { x with
    lifecycleState := .active
    supersededAt := none
    supersededById := none
    cancelledAt := none
    cancelledByUserId := none
    cancelledByLabel := none }

/-- A superseded subscription names the next one; after a cancelled one the platform restores the
base workspace. -/
def Follows (x y : SellerSubscription) : Prop :=
  x.lifecycleState = .superseded ∧ x.supersededById = some y.id ∨
    x.lifecycleState = .cancelled ∧ x.supersededById = none ∧ y.createdByUserId = none ∧
      y.createdByLabel = some systemActorLabel

/-- The subscriptions of a party in a row. -/
structure OneChain (rows : List SellerSubscription) (party : OwnedSubscriberParty)
    (chain : List SellerSubscription) : Prop where
  mem : ∀ x, x ∈ chain ↔ x ∈ rows ∧ x.subscriber = party
  nodup : chain.Nodup
  follows : chain.IsChain Follows
  active : ∀ x ∈ chain.getLast?, x.lifecycleState = .active

variable {rows rows' chain l : List SellerSubscription} {party : OwnedSubscriberParty}
  {x y e e' : SellerSubscription}

theorem Follows.ended (h : Follows x y) : x.lifecycleState ≠ .active := by
  rcases h with ⟨hstate, -⟩ | ⟨hstate, -⟩
  · rw [hstate]
    decide
  · rw [hstate]
    decide

theorem eq_of_terms (h : x.terms = y.terms) : x.id = y.id ∧ x.subscriber = y.subscriber ∧
    x.snapshot = y.snapshot ∧ x.createdByUserId = y.createdByUserId ∧
      x.createdByLabel = y.createdByLabel := by
  simp only [SellerSubscription.terms, SellerSubscription.mk.injEq] at h
  obtain ⟨hid, hsubscriber, -, -, hsnap, -, huser, hlabel, -⟩ := h
  exact ⟨hid, hsubscriber, hsnap, huser, hlabel⟩

theorem Follows.congr (h : Follows x e) (hterms : e'.terms = e.terms) : Follows x e' := by
  obtain ⟨hid, -, -, huser, hlabel⟩ := eq_of_terms hterms
  unfold Follows
  rw [hid, huser, hlabel]
  exact h

theorem exists_follows (h : (l ++ [e]).IsChain Follows) (hx : x ∈ l) :
    ∃ y ∈ l ++ [e], Follows x y := by
  obtain ⟨_, after, rfl⟩ := append_of_mem hx
  rw [append_assoc] at h
  have htail := (isChain_split.1 h).2
  cases after with
  | nil => exact ⟨e, by simp, (isChain_cons_cons.1 htail).1⟩
  | cons y => exact ⟨y, by simp, (isChain_cons_cons.1 htail).1⟩

namespace OneChain

section

variable (h : OneChain rows party chain)
include h

theorem congr
    (hrows : ∀ x, x.subscriber = party → (x ∈ rows' ↔ x ∈ rows)) : OneChain rows' party chain := by
  refine ⟨?_, h.nodup, h.follows, h.active⟩
  intro x
  rw [h.mem]
  constructor
  · rintro ⟨hx, hparty⟩
    exact ⟨(hrows x hparty).2 hx, hparty⟩
  · rintro ⟨hx, hparty⟩
    exact ⟨(hrows x hparty).1 hx, hparty⟩

theorem eq_nil
    (hnone : ∀ x ∈ rows, x.subscriber = party → x.lifecycleState ≠ .active) : chain = [] := by
  rcases eq_nil_or_concat chain with hnil | ⟨_, e, rfl⟩
  · exact hnil
  · obtain ⟨he, hparty⟩ := (h.mem e).1 (by simp)
    exact absurd (h.active e (by simp)) (hnone e he hparty)

theorem eq_concat (he : e ∈ rows) (hparty : e.subscriber = party)
    (hact : e.lifecycleState = .active) : ∃ l, chain = l ++ [e] := by
  have hmem : e ∈ chain := (h.mem e).2 ⟨he, hparty⟩
  rcases eq_nil_or_concat chain with rfl | ⟨l, _, rfl⟩
  · cases hmem
  rw [concat_eq_append] at h hmem ⊢
  rcases mem_append.1 hmem with hl | hlast
  · obtain ⟨_, -, hfoll⟩ := exists_follows h.follows hl
    exact absurd hact hfoll.ended
  · rw [mem_singleton.1 hlast]
    exact ⟨l, rfl⟩

end

theorem singleton (hact : x.lifecycleState = .active)
    (hrows : ∀ y, y ∈ rows ∧ y.subscriber = party ↔ y = x) : OneChain rows party [x] := by
  refine ⟨?_, nodup_singleton x, isChain_singleton x, ?_⟩
  · intro y
    rw [mem_singleton, hrows]
  · rintro y ⟨⟩
    exact hact

theorem replace (h : l.IsChain Follows) (hnodup : l.Nodup)
    (hlast : ∀ y ∈ l.getLast?, Follows y e') (hended : ∀ y ∈ l, y.lifecycleState ≠ .active)
    (hnew : e' ∉ l) (hfoll : Follows e' x) (hact : x.lifecycleState = .active)
    (hrows : ∀ y, y ∈ rows ∧ y.subscriber = party ↔ y ∈ l ∨ y = e' ∨ y = x) :
    OneChain rows party (l ++ [e', x]) := by
  have hended' : e'.lifecycleState ≠ .active := hfoll.ended
  refine ⟨?_, ?_, ?_, ?_⟩
  · intro y
    rw [hrows]
    simp
  · rw [nodup_append]
    refine ⟨hnodup, ?_, ?_⟩
    · rw [nodup_cons, mem_singleton]
      refine ⟨?_, nodup_singleton x⟩
      rintro rfl
      exact hended' hact
    · intro y hy z hz heq
      subst heq
      rcases mem_pair.1 hz with rfl | rfl
      · exact hnew hy
      · exact hended y hy hact
  · rw [isChain_append]
    refine ⟨h, ?_, ?_⟩
    · rw [isChain_cons_cons]
      exact ⟨hfoll, isChain_singleton x⟩
    · rintro y hy z ⟨⟩
      exact hlast y hy
  · intro y hy
    simp at hy
    rw [← hy]
    exact hact

end OneChain

end BeauClick.Subscriptions
