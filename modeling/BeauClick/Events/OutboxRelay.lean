import BeauClick.Commerce.Order
import BeauClick.Lib.BatchQueue
import BeauClick.Lib.Runs
import BeauClick.Lib.Utf16
import Mathlib.Algebra.Order.BigOperators.Group.List
import Mathlib.Data.List.Nodup

/-!
# The outbox relay

`libs/events/src/outbox.relay.ts`.  `drain` takes the oldest unpublished rows of every
outbox table, a batch of them, and hands each to its handlers.  A row whose handlers
return is marked published; a row one of whose handlers throws stays where it is, and the
next drain takes it again.

A handler is a function of its event: it throws on it at every delivery, or at none.  The
correlation id, which only follows an event through the logs, is left out.
-/

namespace BeauClick.Events

open BatchQueue Runs List

universe u

variable {π : Type u}

/-! ## Rows -/

/-- An event as it is stored. -/
structure EventEnvelope (π : Type u) where
  id : Uuid
  aggregateType : String
  aggregateId : Uuid
  eventType : String
  eventVersion : ℕ
  payload : π
  occurredAt : Instant
  deriving DecidableEq

/-- `OutboxEventEntityBase`: the event, and what the relay writes on its row. -/
structure OutboxEvent (π : Type u) where
  event : EventEnvelope π
  publishedAt : Option Instant
  attempts : ℕ
  lastError : Option String

/-- `DomainEventHandler`; `handle` gives the message of what it throws. -/
structure DomainEventHandler (π : Type u) where
  eventType : String
  handle : EventEnvelope π → Option String

/-- `handlersByType`: the handlers of a type, as they were registered. -/
def handlersByType (handlers : List (DomainEventHandler π)) (eventType : String) :
    List (DomainEventHandler π) :=
  handlers.filter fun h => h.eventType = eventType

/-- The handlers of an event one after the other, up to the first that throws. -/
def dispatch (handlers : List (DomainEventHandler π)) (envelope : EventEnvelope π) :
    Option String :=
  (handlersByType handlers envelope.eventType).findSome? fun h => h.handle envelope

/-- One of the handlers of the event throws. -/
def throws (handlers : List (DomainEventHandler π)) (envelope : EventEnvelope π) : Bool :=
  (dispatch handlers envelope).isSome

/-- An outbox table in the order of its primary key. -/
structure Outbox (π : Type u) where
  rows : List (OutboxEvent π)
  sorted : rows.Pairwise fun x y => x.event.id < y.event.id

/-- The row is not published. -/
def OutboxEvent.Pending (x : OutboxEvent π) : Prop := x.publishedAt = none
  deriving Decidable

namespace Outbox

/-- `UPDATE`: the event of a row is never written. -/
def update (box : Outbox π) (f : OutboxEvent π → OutboxEvent π)
    (hf : ∀ x, (f x).event = x.event) : Outbox π where
  rows := box.rows.map f
  sorted := by
    rw [pairwise_map]
    simp only [hf]
    exact box.sorted

/-- The `UPDATE` of a dispatched row: a row that was marked meanwhile is left alone. -/
def markPublished (now : Instant) (id : Uuid) (x : OutboxEvent π) : OutboxEvent π :=
  if x.event.id = id ∧ x.Pending then { x with publishedAt := some now } else x

/-- The `UPDATE` of a row whose dispatch failed. -/
def recordFailure (row : OutboxEvent π) (message : String) (x : OutboxEvent π) : OutboxEvent π :=
  if x.event.id = row.event.id then
    { x with
      attempts := row.attempts + 1
      lastError := some (String.ofList (Utf16.slice 1000 message.toList)) }
  else x

/-- What the relay writes after a row was dispatched. -/
def settle (handlers : List (DomainEventHandler π)) (clock : Uuid → Instant)
    (row x : OutboxEvent π) : OutboxEvent π :=
  match dispatch handlers row.event with
  | none => markPublished (clock row.event.id) row.event.id x
  | some message => recordFailure row message x

theorem settle_event {handlers : List (DomainEventHandler π)} {clock : Uuid → Instant}
    {row x : OutboxEvent π} : (settle handlers clock row x).event = x.event := by
  unfold settle
  split
  · unfold markPublished
    split <;> rfl
  · unfold recordFailure
    split <;> rfl

end Outbox

/-- What `drain` answers. -/
structure DrainResult where
  dispatched : ℕ
  failed : ℕ

/-- One row of the batch. -/
def drainRow (handlers : List (DomainEventHandler π)) (clock : Uuid → Instant)
    (acc : Outbox π × DrainResult) (row : OutboxEvent π) : Outbox π × DrainResult :=
  (acc.1.update (Outbox.settle handlers clock row) fun _ => Outbox.settle_event,
    if throws handlers row.event then { acc.2 with failed := acc.2.failed + 1 }
    else { acc.2 with dispatched := acc.2.dispatched + 1 })

namespace Outbox

/-- The batch: the oldest rows that are not published. -/
def batch (batchSize : ℕ) (box : Outbox π) : List (OutboxEvent π) :=
  (box.rows.filter fun x => x.Pending).take batchSize

/-- One batch of one outbox. -/
def drainSource (handlers : List (DomainEventHandler π)) (batchSize : ℕ) (clock : Uuid → Instant)
    (box : Outbox π) : Outbox π × DrainResult :=
  (box.batch batchSize).foldl (drainRow handlers clock) (box, ⟨0, 0⟩)

end Outbox

def defaultBatchSize : ℕ := 100

/-- `drain`: every registered table once.  While a drain is running, another one returns at
once, so drains do not overlap. -/
def drain (handlers : List (DomainEventHandler π)) (batchSize : ℕ) (clock : Uuid → Instant)
    (sources : List (Outbox π)) : List (Outbox π) × DrainResult :=
  let drained := sources.map (Outbox.drainSource handlers batchSize clock)
  (drained.map Prod.fst,
    ⟨(drained.map fun r => r.2.dispatched).sum, (drained.map fun r => r.2.failed).sum⟩)

/-! ## A drain serves a queue -/

section Drain

variable {handlers : List (DomainEventHandler π)} {batchSize : ℕ} {clock : Uuid → Instant}
  {box : Outbox π} {x : OutboxEvent π}

open Outbox

theorem settled (handlers : List (DomainEventHandler π)) (clock : Uuid → Instant)
    (batch : List (OutboxEvent π)) (x : OutboxEvent π) :
    (batch.foldl (fun x row => Outbox.settle handlers clock row x) x).event = x.event ∧
      ((batch.foldl (fun x row => Outbox.settle handlers clock row x) x).Pending ↔
        x.Pending ∧ ∀ row ∈ batch, row.event.id = x.event.id → throws handlers row.event) := by
  induction batch generalizing x with
  | nil => simp
  | cons row rows ih =>
    have hev : (settle handlers clock row x).event = x.event := settle_event
    have hpend : (settle handlers clock row x).Pending ↔
        x.Pending ∧ (row.event.id = x.event.id → throws handlers row.event) := by
      unfold settle throws
      cases hd : dispatch handlers row.event with
      | none =>
        by_cases hx : x.event.id = row.event.id ∧ x.Pending
        · have hp : x.publishedAt = none := hx.2
          simp [markPublished, hx, hp, OutboxEvent.Pending]
        · have hne : x.Pending → row.event.id ≠ x.event.id := fun hp he => hx ⟨he.symm, hp⟩
          simp only [markPublished, if_neg hx]
          exact ⟨fun hp => ⟨hp, fun he => absurd he (hne hp)⟩, And.left⟩
      | some =>
        by_cases hx : x.event.id = row.event.id
        · simp [recordFailure, hx, OutboxEvent.Pending]
        · simp [recordFailure, hx]
    obtain ⟨hev', hpend'⟩ := ih (settle handlers clock row x)
    rw [foldl_cons]
    refine ⟨hev'.trans hev, ?_⟩
    rw [hpend', hev]
    simp only [forall_mem_cons]
    tauto

theorem foldl_drainRow_rows (batch : List (OutboxEvent π)) (acc : Outbox π × DrainResult) :
    (batch.foldl (drainRow handlers clock) acc).1.rows =
      acc.1.rows.map fun x => batch.foldl (fun x row => Outbox.settle handlers clock row x) x := by
  induction batch generalizing acc with
  | nil => simp
  | cons row rows ih =>
    rw [foldl_cons, ih]
    simp [drainRow, update]

theorem drainSource_rows :
    (box.drainSource handlers batchSize clock).1.rows = box.rows.map fun x =>
      (box.batch batchSize).foldl (fun x row => Outbox.settle handlers clock row x) x :=
  foldl_drainRow_rows _ _

/-- The events that wait to be published, the oldest first. -/
def Outbox.waiting (box : Outbox π) : List (EventEnvelope π) :=
  (box.rows.filter fun x => x.Pending).map (·.event)

theorem mem_waiting {e : EventEnvelope π} :
    e ∈ box.waiting ↔ ∃ x ∈ box.rows, x.Pending ∧ x.event = e := by
  simp [waiting, and_assoc]

theorem waiting_sorted (box : Outbox π) : box.waiting.Pairwise fun e f => e.id < f.id := by
  rw [waiting, pairwise_map]
  exact box.sorted.filter _

theorem waiting_nodup (box : Outbox π) : box.waiting.Nodup := by
  refine (waiting_sorted box).imp ?_
  intro e f hlt heq
  rw [heq] at hlt
  exact lt_irrefl _ hlt

theorem Outbox.eq_of_id {y : OutboxEvent π} (hx : x ∈ box.rows) (hy : y ∈ box.rows)
    (h : x.event.id = y.event.id) : x = y := by
  have hnodup : (box.rows.map fun x => x.event.id).Nodup := by
    rw [List.Nodup, pairwise_map]
    exact box.sorted.imp fun hlt => hlt.ne
  exact inj_on_of_nodup_map hnodup hx hy h

theorem waiting_drainSource :
    (box.drainSource handlers batchSize clock).1.waiting =
      serve batchSize (throws handlers) box.waiting := by
  classical
  rw [serve_eq_filter (waiting_nodup box), waiting, drainSource_rows, filter_map,
    map_map, waiting, filter_map, filter_filter]
  have hmap : (fun x : OutboxEvent π => x.event) ∘ (fun x =>
      (box.batch batchSize).foldl (fun x row => settle handlers clock row x) x) =
      fun x => x.event := by
    funext x
    exact (settled handlers clock (box.batch batchSize) x).1
  congr 1
  refine filter_congr ?_
  intro x hx
  have hbatch : x.event ∈ ((box.rows.filter fun x => x.Pending).map (·.event)).take batchSize ↔
      ∃ row ∈ box.batch batchSize, row.event = x.event := by
    rw [← map_take, mem_map]
    rfl
  have hiff : (∀ row ∈ box.batch batchSize, row.event.id = x.event.id → throws handlers row.event) ↔
      (x.event ∈ ((box.rows.filter fun x => x.Pending).map (·.event)).take batchSize →
        throws handlers x.event) := by
    rw [hbatch]
    constructor
    · rintro h ⟨row, hrow, heq⟩
      rw [← heq]
      exact h row hrow (by rw [heq])
    · intro h row hrow hid
      have hmem : row ∈ box.rows := (mem_filter.1 (mem_of_mem_take hrow)).1
      have heq : row = x := eq_of_id hmem hx hid
      rw [heq]
      exact h ⟨row, hrow, by rw [heq]⟩
  have hpend := (settled handlers clock (box.batch batchSize) x).2
  simp only [Function.comp_apply]
  by_cases hp : x.Pending <;> simp_all

end Drain

/-! ## Runs -/

/-- A transaction commits an event: its id is the youngest. -/
def Outbox.append (box : Outbox π) (event : EventEnvelope π)
    (h : ∀ x ∈ box.rows, x.event.id < event.id) : Outbox π where
  rows := box.rows ++ [⟨event, none, 0, none⟩]
  sorted := by
    rw [pairwise_append]
    exact ⟨box.sorted, pairwise_singleton _ _, fun x hx y hy => by
      rw [mem_singleton.1 hy]
      exact h x hx⟩

/-- What happens to the outbox tables. -/
inductive RelayStep (π : Type u) where
  | drain (clock : Uuid → Instant)
  /-- A transaction commits an event to one of the tables. -/
  | commit (source : ℕ) (event : EventEnvelope π)

/-- A pass of the relay over every outbox. -/
def relayStep (handlers : List (DomainEventHandler π)) (s : List (Outbox π)) :
    RelayStep π → Option (List (Outbox π))
  | .drain clock => some (drain handlers defaultBatchSize clock s).1
  | .commit source event =>
    match s[source]? with
    | none => none
    | some box =>
      if h : ∀ x ∈ box.rows, x.event.id < event.id then some (s.set source (box.append event h))
      else none

/-- The drains among the steps. -/
def drains : List (RelayStep π) → ℕ
  | [] => 0
  | .drain _ :: es => drains es + 1
  | .commit _ _ :: es => drains es

/-- The event is on a published row of the table. -/
def Published (source : ℕ) (event : EventEnvelope π) (s : List (Outbox π)) : Prop :=
  ∃ box, s[source]? = some box ∧ ∃ x ∈ box.rows, x.event = event ∧ ¬x.Pending

/-- The event waits in the table, behind `n` that cannot be published among `k`. -/
def Waits (handlers : List (DomainEventHandler π)) (source : ℕ) (event : EventEnvelope π)
    (n k : ℕ) (s : List (Outbox π)) : Prop :=
  ∃ box, s[source]? = some box ∧ Behind (throws handlers) event n k box.waiting

section Steps

variable {handlers : List (DomainEventHandler π)} {clock : Uuid → Instant} {source : ℕ}
  {event : EventEnvelope π} {s s' : List (Outbox π)} {n k : ℕ} {box : Outbox π}
  {es : List (RelayStep π)}

theorem getElem?_drain (h : s[source]? = some box) :
    (drain handlers defaultBatchSize clock s).1[source]? =
      some (box.drainSource handlers defaultBatchSize clock).1 := by
  simp [drain, h]

theorem mem_drainSource (handlers : List (DomainEventHandler π)) (clock : Uuid → Instant)
    {x : OutboxEvent π} (hx : x ∈ box.rows) :
    ∃ y ∈ (box.drainSource handlers defaultBatchSize clock).1.rows,
      y.event = x.event ∧ (y.Pending → x.Pending) := by
  obtain ⟨hev, hpend⟩ := settled handlers clock (box.batch defaultBatchSize) x
  refine ⟨_, ?_, hev, fun hy => (hpend.1 hy).1⟩
  rw [drainSource_rows]
  exact mem_map_of_mem hx

theorem Published.step {e : RelayStep π} (h : Published source event s)
    (hs : relayStep handlers s e = some s') : Published source event s' := by
  obtain ⟨box, hbox, x, hx, hev, hpub⟩ := h
  cases e with
  | drain clock =>
    obtain rfl : _ = s' := Option.some.inj hs
    obtain ⟨y, hy, hyx, hpend⟩ := mem_drainSource handlers clock hx
    exact ⟨_, getElem?_drain hbox, y, hy, hyx.trans hev, fun hp => hpub (hpend hp)⟩
  | commit at' =>
    simp only [relayStep] at hs
    split at hs
    · cases hs
    rename_i box' hbox'
    split at hs
    · cases hs
      by_cases hat : at' = source
      · subst hat
        obtain rfl : box = box' := Option.some.inj (hbox.symm.trans hbox')
        refine ⟨_, List.getElem?_set_self (List.getElem?_eq_some_iff.1 hbox).1, x, ?_, hev,
          hpub⟩
        exact List.mem_append_left _ hx
      · exact ⟨box, by rw [List.getElem?_set_ne hat, hbox], x, hx, hev, hpub⟩
    · cases hs

theorem Published.run (h : Published source event s)
    (hs : runFrom (relayStep handlers) s es = some s') : Published source event s' :=
  runFrom_invariant (fun _ _ _ hI hstep => hI.step hstep) h hs

theorem Waits.commit {source' : ℕ} {event' : EventEnvelope π}
    (h : Waits handlers source event n k s)
    (hs : relayStep handlers s (.commit source' event') = some s') :
    Waits handlers source event n k s' := by
  obtain ⟨box, hbox, hbehind⟩ := h
  simp only [relayStep] at hs
  split at hs
  · cases hs
  rename_i box' hbox'
  split at hs
  · cases hs
    by_cases hat : source' = source
    · subst hat
      obtain rfl : box = box' := Option.some.inj (hbox.symm.trans hbox')
      refine ⟨_, List.getElem?_set_self (List.getElem?_eq_some_iff.1 hbox).1, ?_⟩
      have hwait : (box.append event' ‹_›).waiting = box.waiting ++ [event'] := by
        simp [Outbox.waiting, Outbox.append, OutboxEvent.Pending]
      rw [hwait]
      exact hbehind.append _
    · exact ⟨box, by rw [List.getElem?_set_ne hat, hbox], hbehind⟩
  · cases hs

theorem published_of_left (hbox : s[source]? = some box) (hmem : event ∈ box.waiting)
    (hleft : event ∉ (box.drainSource handlers defaultBatchSize clock).1.waiting) :
    Published source event (drain handlers defaultBatchSize clock s).1 := by
  obtain ⟨_, hx, -, rfl⟩ := mem_waiting.1 hmem
  obtain ⟨y, hy, hyx, -⟩ := mem_drainSource handlers clock hx
  exact ⟨_, getElem?_drain hbox, y, hy, hyx,
    fun hp => hleft (mem_waiting.2 ⟨y, hy, hp, hyx⟩)⟩

variable (clock : Uuid → Instant)

section

variable (h : Waits handlers source event n k s)
include h

theorem Waits.drain_of_lt (hok : throws handlers event = false) (hn : n < defaultBatchSize) :
    Published source event (drain handlers defaultBatchSize clock s).1 ∨
      ∃ k', k' < k ∧
        Waits handlers source event n k' (drain handlers defaultBatchSize clock s).1 := by
  obtain ⟨box, hbox, hbehind⟩ := h
  rcases behind_serve_of_lt hbehind hn with htake | ⟨k', hk', hbehind'⟩
  · refine Or.inl (published_of_left hbox hbehind.mem ?_)
    rw [waiting_drainSource, serve, mem_append, not_or]
    constructor
    · simp [hok]
    · have hnodup := waiting_nodup box
      rw [← take_append_drop defaultBatchSize box.waiting, nodup_append] at hnodup
      exact fun hdrop => hnodup.2.2 event htake event hdrop rfl
  · refine Or.inr ⟨k', hk', _, getElem?_drain hbox, ?_⟩
    rw [waiting_drainSource]
    exact hbehind'

theorem Waits.drain_of_le (hn : defaultBatchSize ≤ n) :
    ∃ k', Waits handlers source event n k' (drain handlers defaultBatchSize clock s).1 := by
  obtain ⟨_, hbox, hbehind⟩ := h
  obtain ⟨k', hbehind'⟩ := behind_serve_of_le hbehind hn
  refine ⟨k', _, getElem?_drain hbox, ?_⟩
  rw [waiting_drainSource]
  exact hbehind'

/-- Once it waits behind fewer than a batch of stuck ones, as many drains as there are entries
up to it publish the event, whatever is committed meanwhile. -/
theorem Waits.published_of_run
    (hok : throws handlers event = false) (hn : n < defaultBatchSize) (hdrains : k < drains es)
    (hs : runFrom (relayStep handlers) s es = some s') : Published source event s' := by
  induction es generalizing s k with
  | nil => simp [drains] at hdrains
  | cons e es ih =>
    obtain ⟨t, ht, hrun⟩ := runFrom_cons_eq_some.1 hs
    cases e with
    | drain clock =>
      obtain rfl : _ = t := Option.some.inj ht
      rcases h.drain_of_lt clock hok hn with hpub | ⟨_, _, hwaits⟩
      · exact hpub.run hrun
      · refine ih hwaits ?_ hrun
        simp only [drains] at hdrains
        omega
    | commit => exact ih (h.commit ht) hdrains hrun

theorem Waits.replicate (hn : defaultBatchSize ≤ n) (m : ℕ) :
    ∃ s' k', runFrom (relayStep handlers) s (List.replicate m (.drain clock)) = some s' ∧
      Waits handlers source event n k' s' := by
  induction m generalizing s k with
  | zero => exact ⟨s, k, rfl, h⟩
  | succ m ih =>
    obtain ⟨_, hwaits⟩ := h.drain_of_le clock hn
    exact ih hwaits

theorem Waits.not_published :
    ¬Published source event s := by
  rintro ⟨box, hbox, x, hx, hev, hpub⟩
  obtain ⟨box', hbox', hbehind⟩ := h
  obtain rfl : box = box' := Option.some.inj (hbox.symm.trans hbox')
  obtain ⟨y, hy, hpend, heq⟩ := mem_waiting.1 hbehind.mem
  have hxy : x = y := Outbox.eq_of_id hx hy (by rw [hev, heq])
  exact hpub (hxy ▸ hpend)

end

end Steps

/-! ## Which events are published -/

/-- The rows ahead of an event that no drain can publish. -/
def Outbox.blockers (handlers : List (DomainEventHandler π)) (box : Outbox π)
    (event : EventEnvelope π) : List (OutboxEvent π) :=
  box.rows.filter fun x => x.Pending ∧ throws handlers x.event ∧ x.event.id < event.id

/-- No event that can be published has a batch of rows ahead of it that cannot. -/
def NoneBlocked (handlers : List (DomainEventHandler π)) (s : List (Outbox π)) : Prop :=
  ∀ box ∈ s, ∀ x ∈ box.rows, x.Pending → throws handlers x.event = false →
    (box.blockers handlers x.event).length < defaultBatchSize

/-- Every event of the tables whose handlers all return has been published. -/
def PublishesAll (handlers : List (DomainEventHandler π)) (s s' : List (Outbox π)) : Prop :=
  ∀ source box, s[source]? = some box → ∀ x ∈ box.rows, throws handlers x.event = false →
    Published source x.event s'

section Publishes

variable {handlers : List (DomainEventHandler π)} {box : Outbox π} {event : EventEnvelope π}
  {n k : ℕ} {s : List (Outbox π)}

theorem behind_blockers (h : Behind (throws handlers) event n k box.waiting) :
    (box.blockers handlers event).length = n := by
  obtain ⟨pre, post, hwait, hn, -⟩ := h
  have hsort := waiting_sorted box
  rw [hwait, pairwise_append, pairwise_cons] at hsort
  obtain ⟨-, ⟨hpost, -⟩, hpre⟩ := hsort
  have hcnt : (box.blockers handlers event).length =
      box.waiting.countP fun e => throws handlers e && decide (e.id < event.id) := by
    rw [Outbox.blockers, Outbox.waiting, countP_map, ← countP_eq_length_filter,
      countP_filter]
    refine countP_congr ?_
    intro x _
    simp [and_comm]
  have hahead : pre.countP (fun e => throws handlers e && decide (e.id < event.id)) =
      pre.countP (throws handlers) := by
    refine countP_congr ?_
    intro e he
    simp [hpre e he event mem_cons_self]
  have hbehind : post.countP (fun e => throws handlers e && decide (e.id < event.id)) = 0 := by
    refine countP_eq_zero.2 ?_
    intro e he
    simp [(hpost e he).le]
  rw [hcnt, hwait, countP_append, countP_cons, hahead, hbehind, hn]
  simp

theorem waits_of_mem (handlers : List (DomainEventHandler π)) {source : ℕ} {x : OutboxEvent π}
    (hbox : s[source]? = some box) (hx : x ∈ box.rows) (hpend : x.Pending) :
    ∃ k, k < box.rows.length ∧
      Waits handlers source x.event (box.blockers handlers x.event).length k s := by
  obtain ⟨_, k, hbehind⟩ := behind_of_mem (throws handlers)
    (mem_waiting.2 ⟨x, hx, hpend, rfl⟩)
  refine ⟨k, ?_, box, hbox, ?_⟩
  · obtain ⟨_, _, hwait, -, rfl⟩ := hbehind
    have hle : box.waiting.length ≤ box.rows.length := by
      rw [Outbox.waiting, length_map]
      exact length_filter_le _ _
    rw [hwait] at hle
    simp only [length_append, length_cons] at hle
    omega
  · rw [behind_blockers hbehind]
    exact hbehind

/-- When a batch of rows that cannot be published stands ahead of one that can, no number of
drains publishes it. -/
theorem noneBlocked_of_publishes
    (h : ∃ n, ∀ es s', n ≤ drains es → runFrom (relayStep handlers) s es = some s' →
      PublishesAll handlers s s') : NoneBlocked handlers s := by
  obtain ⟨n, hn⟩ := h
  intro box hmem x hx hpend hok
  by_contra hblocked
  obtain ⟨source, hbox⟩ := mem_iff_getElem?.1 hmem
  obtain ⟨_, -, hwaits⟩ := waits_of_mem handlers hbox hx hpend
  obtain ⟨s', _, hrun, hwaits'⟩ := hwaits.replicate (fun _ => 0) (not_lt.1 hblocked) n
  have hdrains : ∀ m, drains (List.replicate m (RelayStep.drain (π := π) fun _ => 0)) = m := by
    intro m
    induction m with
    | zero => rfl
    | succ m ih => rw [replicate_succ, drains, ih]
  exact hwaits'.not_published (hn _ s' (hdrains n).ge hrun source box hbox x hx hok)

/-- After finitely many drains every event whose handlers all return has been published, whatever
is committed between them: exactly when none of these events has a batch of rows ahead of it
that cannot be published. -/
theorem publishes_iff (handlers : List (DomainEventHandler π)) (s : List (Outbox π)) :
    (∃ n, ∀ es s', n ≤ drains es → runFrom (relayStep handlers) s es = some s' →
      PublishesAll handlers s s') ↔ NoneBlocked handlers s := by
  refine ⟨noneBlocked_of_publishes, fun h => ⟨(s.map fun box => box.rows.length).sum, ?_⟩⟩
  intro es s' hdrains hrun source box hbox x hx hok
  by_cases hpend : x.Pending
  · obtain ⟨_, _, hwaits⟩ := waits_of_mem handlers hbox hx hpend
    have hmem : box ∈ s := mem_iff_getElem?.2 ⟨source, hbox⟩
    have hle : box.rows.length ≤ (s.map fun box => box.rows.length).sum :=
      le_sum_of_mem (mem_map_of_mem hmem)
    exact hwaits.published_of_run hok (h box hmem x hx hpend hok) (by omega) hrun
  · have hpub : Published source x.event s := ⟨box, hbox, x, hx, rfl, hpend⟩
    exact hpub.run hrun

end Publishes

/-! ## A batch of poison messages -/

/-- A handler that throws on every event of its type. -/
def poisonHandler : DomainEventHandler Unit where
  eventType := "Poison"
  handle := fun _ => some "handler blew up"

/-- An event of an order. -/
def orderEvent (eventType : String) (id : Uuid) : EventEnvelope Unit :=
  ⟨id, "order", 1, eventType, 1, (), 0⟩

/-- A batch of events that cannot be handled, and one nobody consumes after them. -/
def poisonedOutbox : Outbox Unit where
  rows := (List.range defaultBatchSize).map (fun id => ⟨orderEvent "Poison" id, none, 0, none⟩) ++
    [⟨orderEvent "NobodyCares" defaultBatchSize, none, 0, none⟩]
  sorted := by
    rw [pairwise_append, pairwise_map]
    refine ⟨?_, pairwise_singleton _ _, ?_⟩
    · exact pairwise_lt_range.imp fun h => h
    · intro x hx y hy
      obtain ⟨id, hid, rfl⟩ := mem_map.1 hx
      rw [mem_singleton.1 hy]
      exact mem_range.1 hid

/-- The event after a batch of poison messages is never published. -/
theorem publishes_headOfLine_fails :
    ¬∃ n, ∀ es s', n ≤ drains es →
      runFrom (relayStep [poisonHandler]) [poisonedOutbox] es = some s' →
      PublishesAll [poisonHandler] [poisonedOutbox] s' := by
  intro h
  have hlast : (⟨orderEvent "NobodyCares" defaultBatchSize, none, 0, none⟩ : OutboxEvent Unit) ∈
      poisonedOutbox.rows := by
    simp [poisonedOutbox]
  have hblocked :=
    noneBlocked_of_publishes h poisonedOutbox mem_cons_self _ hlast rfl (by decide)
  exact absurd hblocked (by decide +kernel)

end BeauClick.Events
