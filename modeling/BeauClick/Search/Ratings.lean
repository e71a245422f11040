import BeauClick.Lib.Clamped
import BeauClick.Lib.Delivery
import BeauClick.Search.Documents

/-!
# The rating counters

The reviews of a professional with their moderation (`services/provider/src/review.service.ts`)
and the handlers of `apps/api/src/events/review.handlers.ts` that move the rating counters.

The counters are clamped at zero by each event, so a review hidden before it was counted is
counted for good.
-/

namespace BeauClick.Search

open SearchStore List

/-! ## Reviews -/

/-- The states of a review. -/
inductive ReviewStatus where
  | published
  | hidden
  deriving DecidableEq

/-- The decisions on a review. -/
inductive ModerationDecision where
  | hide
  | publish

/-- The status that `moderate` writes. -/
def ModerationDecision.toStatus : ModerationDecision → ReviewStatus
  | hide => .hidden
  | publish => .published

/-- The payloads of `ReviewCreated` and `ReviewModerated`. -/
inductive ReviewEvent where
  | created (reviewId professionalId : Uuid) (rating : ℤ)
  | moderated (reviewId professionalId : Uuid) (rating : ℤ) (toStatus : ReviewStatus)
  deriving DecidableEq

/-- An event under the id of its outbox row. -/
structure ReviewEnvelope where
  id : Uuid
  event : ReviewEvent
  deriving DecidableEq

/-- A review, and the decisions on it, each with the id that its event has if there is one. -/
structure ReviewHistory where
  reviewId : Uuid
  professionalId : Uuid
  rating : ℤ
  createdEventId : Uuid
  decisions : List (ModerationDecision × Uuid)

namespace ReviewHistory

/-- The events of `moderate`: one when the visibility changed. -/
def moderated (r : ReviewHistory) : ReviewStatus → List (ModerationDecision × Uuid) →
    List ReviewEnvelope
  | _, [] => []
  | fromStatus, (decision, eventId) :: rest =>
    if fromStatus = decision.toStatus then r.moderated fromStatus rest
    else ⟨eventId, .moderated r.reviewId r.professionalId r.rating decision.toStatus⟩ ::
      r.moderated decision.toStatus rest

/-- All events of a review. -/
def events (r : ReviewHistory) : List ReviewEnvelope :=
  ⟨r.createdEventId, .created r.reviewId r.professionalId r.rating⟩ ::
    r.moderated .published r.decisions

/-- The status that the decisions leave. -/
def statusAfter : ReviewStatus → List (ModerationDecision × Uuid) → ReviewStatus
  | status, [] => status
  | _, (decision, _) :: rest => statusAfter decision.toStatus rest

/-- A review that is shown. -/
def Visible (r : ReviewHistory) : Prop := statusAfter .published r.decisions = .published
  deriving Decidable

end ReviewHistory

/-- The reviews that are shown. -/
def visible (reviews : List ReviewHistory) : List ReviewHistory := reviews.filter (·.Visible)

/-- The events of all reviews. -/
def eventsOf (reviews : List ReviewHistory) : List ReviewEnvelope := reviews.flatMap (·.events)

/-! ## Handlers -/

/-- What `ReviewCreatedSearchHandler` and `ReviewModeratedSearchHandler` ask for. -/
def ReviewEnvelope.signal (e : ReviewEnvelope) : RatingSignal :=
  match e.event with
  | .created _ professionalId rating => ⟨e.id, .reviewCreated, professionalId, rating, 1⟩
  | .moderated _ professionalId rating toStatus =>
    if toStatus = .hidden then ⟨e.id, .reviewHidden, professionalId, -rating, -1⟩
    else ⟨e.id, .reviewRestored, professionalId, rating, 1⟩

/-- What one delivery does to the search store. -/
def handleReview (scorer : Scorer) (s : SearchStore) (d : ReviewEnvelope × Instant) : SearchStore :=
  (s.applyRatingSignal scorer d.1.signal d.2).2

/-- The store after some deliveries. -/
def handleReviews (scorer : Scorer) (s : SearchStore) (ds : List (ReviewEnvelope × Instant)) :
    SearchStore :=
  ds.foldl (handleReview scorer) s

/-! ## Counters -/

/-- The rating counters of a row. -/
def RankingSignals.counters (r : RankingSignals) : Clamped.Counters := ⟨r.reviewCount, r.ratingSum⟩

/-- The rating counters of a professional. -/
def countersOf (s : SearchStore) (id : Uuid) : Clamped.Counters :=
  ((s.signals.row id).getD .default).counters

/-- The change of the counters an event stands for. -/
def ReviewEnvelope.change (e : ReviewEnvelope) : Clamped.Change :=
  ⟨e.signal.countDelta, e.signal.ratingDelta⟩

variable {scorer : Scorer} {s : SearchStore} {id : Uuid} {now : Instant} {input : RatingSignal}

theorem counters_moveRating (r : RankingSignals) :
    (SearchStore.resetRating (SearchStore.moveRating input r)).counters =
      Clamped.apply r.counters ⟨input.countDelta, input.ratingDelta⟩ := by
  unfold resetRating moveRating Clamped.apply RankingSignals.counters
  by_cases hcnt : max 0 (r.reviewCount + input.countDelta) = 0
  · by_cases hsum : max 0 (r.ratingSum + input.ratingDelta) = 0
    · simp [hcnt, hsum]
    · simp [hcnt, hsum]
  · simp [hcnt]

theorem countersOf_applyRatingSignal {s' : SearchStore}
    (h : s.claimSignal ⟨input.eventId, input.signalName⟩ = some s') :
    countersOf (s.applyRatingSignal scorer input now).2 input.professionalId =
      Clamped.apply (countersOf s input.professionalId) ⟨input.countDelta, input.ratingDelta⟩ := by
  have hsig : s'.signals = s.signals := by
    unfold claimSignal at h
    split at h
    · cases h
    cases h
    rfl
  have hensured : (s'.ensureSignals input.professionalId).signals.row input.professionalId =
      some ((s.signals.row input.professionalId).getD .default) := by
    unfold ensureSignals
    rw [hsig]
    cases hrow : s.signals.row input.professionalId with
    | none => simp
    | some => simp [hsig, hrow]
  have happlied : s.applyRatingSignal scorer input now =
      (true, (((s'.ensureSignals input.professionalId).updateSignals input.professionalId
        (moveRating input)).updateSignals input.professionalId
          resetRating).rescore scorer input.professionalId now) := by
    rw [applyRatingSignal, h]
  rw [happlied, countersOf, signals_rescore]
  simp only [updateSignals, Keyed.row_updateRow_self, hensured, Option.map_some,
    Option.getD_some]
  exact counters_moveRating _

theorem applications_applyRatingSignal :
    (s.applyRatingSignal scorer input now).2.applications =
      if (⟨input.eventId, input.signalName⟩ : SignalApplication) ∈ s.applications then
        s.applications
      else ⟨input.eventId, input.signalName⟩ :: s.applications := by
  have hensure : ∀ s' : SearchStore,
      (s'.ensureSignals input.professionalId).applications = s'.applications := by
    intro s'
    unfold ensureSignals
    split <;> rfl
  unfold applyRatingSignal claimSignal
  split_ifs with h
  · rfl
  · simp only [applications_rescore, updateSignals, hensure]

/-! ## Deliveries -/

/-- What an event is claimed under. -/
def ReviewEnvelope.application (e : ReviewEnvelope) : SignalApplication :=
  ⟨e.signal.eventId, e.signal.signalName⟩

/-- The events delivered, in the order of their first deliveries. -/
def firsts (ds : List (ReviewEnvelope × Instant)) : List ReviewEnvelope :=
  ds.foldl (fun seen d => Delivery.remember d.1 seen) []

/-- The events delivered, as changes of the counters. -/
def changesOf (ds : List (ReviewEnvelope × Instant)) : List Clamped.Change :=
  (firsts ds).map (·.change)

variable {reviews : List ReviewHistory} {ds : List (ReviewEnvelope × Instant)}
  {d : ReviewEnvelope × Instant} {e : ReviewEnvelope}

@[simp] theorem firsts_concat : firsts (ds ++ [d]) = Delivery.remember d.1 (firsts ds) := by
  simp [firsts]

theorem mem_firsts : e ∈ firsts ds ↔ ∃ d ∈ ds, d.1 = e := by
  induction ds using List.reverseRecOn with
  | nil => simp [firsts]
  | append_singleton ds d ih =>
    rw [firsts_concat, Delivery.mem_remember, ih]
    constructor
    · rintro (⟨d', hd', rfl⟩ | rfl)
      · exact ⟨d', mem_append_left _ hd', rfl⟩
      · exact ⟨d, by simp, rfl⟩
    · rintro ⟨d', hd', rfl⟩
      rcases mem_append.1 hd' with hd' | hd'
      · exact Or.inl ⟨d', hd', rfl⟩
      · rw [mem_singleton.1 hd']
        exact Or.inr rfl

theorem nodup_firsts : (firsts ds).Nodup := by
  induction ds using List.reverseRecOn with
  | nil => exact nodup_nil
  | append_singleton ds d ih =>
    rw [firsts_concat]
    exact Delivery.nodup_remember ih

open ReviewEnvelope

@[simp] theorem ReviewEnvelope.eventId_signal (e : ReviewEnvelope) : e.signal.eventId = e.id := by
  unfold signal
  split
  · rfl
  · split <;> rfl

theorem counters_handle (hid : d.1.signal.professionalId = id) :
    countersOf (handleReview scorer s d) id =
      if d.1.application ∈ s.applications then countersOf s id
      else Clamped.apply (countersOf s id) d.1.change := by
  subst hid
  by_cases h : d.1.application ∈ s.applications
  · rw [if_pos h, handleReview, applyRatingSignal, claimSignal]
    have hclaim : (⟨d.1.signal.eventId, d.1.signal.signalName⟩ : SignalApplication) ∈
        s.applications := h
    rw [if_pos hclaim]
  · rw [if_neg h]
    exact countersOf_applyRatingSignal (if_neg h)

/-- What the deliveries so far have done to the store. -/
structure Counted (reviews : List ReviewHistory) (id : Uuid) (s : SearchStore)
    (ds : List (ReviewEnvelope × Instant)) : Prop where
  claimed : ∀ e ∈ eventsOf reviews, e.application ∈ s.applications ↔ e ∈ firsts ds
  counters : countersOf s id = Clamped.run (changesOf ds)

section

variable (hids : ((eventsOf reviews).map (·.id)).Nodup)
include hids

theorem application_inj {e' : ReviewEnvelope} (he : e ∈ eventsOf reviews)
    (he' : e' ∈ eventsOf reviews) (h : e.application = e'.application) : e = e' := by
  have hid : e.id = e'.id := by
    rw [← e.eventId_signal, ← e'.eventId_signal]
    exact congrArg SignalApplication.eventId h
  exact inj_on_of_nodup_map hids he he' hid

theorem Counted.handle (h : Counted reviews id s ds)
    (hd : d.1 ∈ eventsOf reviews) (hid : d.1.signal.professionalId = id) :
    Counted reviews id (handleReview scorer s d) (ds ++ [d]) := by
  refine ⟨?_, ?_⟩
  · intro e he
    rw [firsts_concat, Delivery.mem_remember, ← h.claimed e he, handleReview,
      applications_applyRatingSignal]
    constructor
    · intro hmem
      split at hmem
      · exact Or.inl hmem
      · rcases mem_cons.1 hmem with heq | hmem
        · exact Or.inr (application_inj hids he hd heq)
        · exact Or.inl hmem
    · rintro (hmem | rfl)
      · split
        · exact hmem
        · exact mem_cons_of_mem _ hmem
      · split
        · assumption
        · exact mem_cons_self
  · rw [counters_handle hid, changesOf, firsts_concat]
    by_cases hmem : d.1 ∈ firsts ds
    · rw [if_pos ((h.claimed d.1 hd).2 hmem), Delivery.remember_of_mem hmem]
      exact h.counters
    · rw [if_neg (fun hc => hmem ((h.claimed d.1 hd).1 hc)), Delivery.remember_of_notMem hmem,
        map_append, map_singleton, Clamped.run_concat, h.counters]
      rfl

theorem counted_handleReviews
    (hown : ∀ e ∈ eventsOf reviews, e.signal.professionalId = id) (hzero : countersOf s id = ⟨0, 0⟩)
    (hunclaimed : ∀ e ∈ eventsOf reviews, e.application ∉ s.applications)
    (hfrom : ∀ d ∈ ds, d.1 ∈ eventsOf reviews) :
    Counted reviews id (handleReviews scorer s ds) ds := by
  induction ds using List.reverseRecOn with
  | nil =>
    refine ⟨fun e he => iff_of_false (hunclaimed e he) ?_, hzero⟩
    simp [firsts]
  | append_singleton ds d ih =>
    have hd : d.1 ∈ eventsOf reviews := hfrom d (by simp)
    have hrun := ih fun d' h => hfrom d' (mem_append_left _ h)
    have hstep : handleReviews scorer s (ds ++ [d]) =
        handleReview scorer (handleReviews scorer s ds) d := by
      simp [handleReviews]
    rw [hstep]
    exact hrun.handle hids hd (hown d.1 hd)

end

/-! ## What the events weigh -/

/-- A published review counts once. -/
def ReviewStatus.weight : ReviewStatus → ℤ
  | published => 1
  | hidden => 0

theorem ReviewStatus.eq_hidden {status : ReviewStatus} (h : status ≠ .published) :
    status = .hidden := by
  cases status
  · exact absurd rfl h
  rfl

theorem change_moderated {fromStatus toStatus : ReviewStatus} (h : fromStatus ≠ toStatus)
    (eventId reviewId professionalId : Uuid) (rating : ℤ) :
    (⟨eventId, .moderated reviewId professionalId rating toStatus⟩ : ReviewEnvelope).change =
      ⟨toStatus.weight - fromStatus.weight, rating * (toStatus.weight - fromStatus.weight)⟩ := by
  cases fromStatus <;> cases toStatus
  · exact absurd rfl h
  · simp [change, signal, ReviewStatus.weight]
  · simp [change, signal, ReviewStatus.weight]
  · exact absurd rfl h

open ReviewHistory

theorem sum_moderated (r : ReviewHistory) (fromStatus : ReviewStatus)
    (decisions : List (ModerationDecision × Uuid)) :
    ((r.moderated fromStatus decisions).map (·.change.count)).sum =
        (ReviewHistory.statusAfter fromStatus decisions).weight - fromStatus.weight ∧
      ((r.moderated fromStatus decisions).map (·.change.total)).sum =
        r.rating * ((ReviewHistory.statusAfter fromStatus decisions).weight -
          fromStatus.weight) := by
  induction decisions generalizing fromStatus with
  | nil => simp [moderated, statusAfter]
  | cons decided rest ih =>
    obtain ⟨decision, _⟩ := decided
    rw [moderated, statusAfter]
    by_cases h : fromStatus = decision.toStatus
    · rw [if_pos h, ← h]
      exact ih fromStatus
    · obtain ⟨hcnt, htot⟩ := ih decision.toStatus
      rw [if_neg h]
      simp only [map_cons, sum_cons, hcnt, htot, change_moderated h]
      constructor
      · ring
      · ring

theorem sum_events (r : ReviewHistory) :
    (r.events.map (·.change.count)).sum = (if r.Visible then 1 else 0) ∧
      (r.events.map (·.change.total)).sum = if r.Visible then r.rating else 0 := by
  obtain ⟨hcnt, htot⟩ := sum_moderated r .published r.decisions
  rw [events, map_cons, map_cons, sum_cons, sum_cons, hcnt,
    htot]
  by_cases h : r.Visible
  · have hstat : statusAfter .published r.decisions = .published := h
    rw [if_pos h, if_pos h, hstat]
    simp [change, signal]
  · have hstat : statusAfter .published r.decisions = .hidden :=
      ReviewStatus.eq_hidden h
    rw [if_neg h, if_neg h, hstat]
    simp [change, signal, ReviewStatus.weight]

theorem sum_eventsOf (reviews : List ReviewHistory) :
    ((eventsOf reviews).map (·.change.count)).sum = (visible reviews).length ∧
      ((eventsOf reviews).map (·.change.total)).sum =
        ((visible reviews).map (·.rating)).sum := by
  induction reviews with
  | nil => exact ⟨rfl, rfl⟩
  | cons r reviews ih =>
    obtain ⟨hcnt, htot⟩ := sum_events r
    obtain ⟨ihcount, ihtotal⟩ := ih
    have hsplit : eventsOf (r :: reviews) = r.events ++ eventsOf reviews := rfl
    rw [hsplit]
    simp only [map_append, sum_append, hcnt, htot, ihcount, ihtotal]
    by_cases h : r.Visible
    · have hvis : visible (r :: reviews) = r :: visible reviews := by simp [visible, h]
      rw [hvis, if_pos h, if_pos h]
      exact ⟨by push_cast [length_cons]; ring, rfl⟩
    · have hvis : visible (r :: reviews) = visible reviews := by simp [visible, h]
      rw [hvis, if_neg h, if_neg h]
      exact ⟨zero_add _, zero_add _⟩

theorem true_counters (hids : ((eventsOf reviews).map (·.id)).Nodup)
    (hfrom : ∀ d ∈ ds, d.1 ∈ eventsOf reviews)
    (hcover : ∀ e ∈ eventsOf reviews, ∃ d ∈ ds, d.1 = e) :
    Clamped.count (changesOf ds) = (visible reviews).length ∧
      Clamped.total (changesOf ds) = ((visible reviews).map (·.rating)).sum := by
  have hsub : ∀ e ∈ firsts ds, e ∈ eventsOf reviews := by
    intro e he
    obtain ⟨d, hd, rfl⟩ := mem_firsts.1 he
    exact hfrom d hd
  have hall : ∀ e ∈ eventsOf reviews, e ∈ firsts ds := fun e he => mem_firsts.2 (hcover e he)
  have hevents : (eventsOf reviews).Nodup := List.Nodup.of_map _ hids
  have hsum : ∀ f : ReviewEnvelope → ℤ,
      ((firsts ds).map f).sum = ((eventsOf reviews).map f).sum := fun f =>
    Delivery.sum_eq_of_covers nodup_firsts hevents hsub hall
  obtain ⟨hcnt, htot⟩ := sum_eventsOf reviews
  rw [← hcnt, ← htot, ← hsum, ← hsum]
  simp only [Clamped.count, Clamped.total, changesOf, map_map]
  exact ⟨rfl, rfl⟩

theorem professionalId_signal (hown : ∀ r ∈ reviews, r.professionalId = id) :
    ∀ e ∈ eventsOf reviews, e.signal.professionalId = id := by
  have hmoderated : ∀ (r : ReviewHistory) (decisions : List (ModerationDecision × Uuid))
      (fromStatus : ReviewStatus), ∀ e ∈ r.moderated fromStatus decisions,
        e.signal.professionalId = r.professionalId := by
    intro r decisions
    induction decisions with
    | nil => simp [moderated]
    | cons decided rest ih =>
      intro fromStatus e he
      rw [moderated] at he
      split at he
      · exact ih fromStatus e he
      · rcases mem_cons.1 he with rfl | he
        · unfold signal
          split
          · rename_i h
            cases h
          · rename_i h
            cases h
            split <;> rfl
        · exact ih _ e he
  intro e he
  obtain ⟨r, hr, he⟩ := mem_flatMap.1 he
  rw [← hown r hr]
  rcases mem_cons.1 he with rfl | he
  · rfl
  · exact hmoderated r r.decisions .published e he

/-- The counters end at the visible reviews exactly when no delivery takes the count below zero
and, since the deliveries last cancelled out, the total of the ratings was zero at its lowest. -/
theorem rating_counters_iff (hids : ((eventsOf reviews).map (·.id)).Nodup)
    (hown : ∀ r ∈ reviews, r.professionalId = id) (hzero : countersOf s id = ⟨0, 0⟩)
    (hunclaimed : ∀ e ∈ eventsOf reviews, e.application ∉ s.applications)
    (hfrom : ∀ d ∈ ds, d.1 ∈ eventsOf reviews)
    (hcover : ∀ e ∈ eventsOf reviews, ∃ d ∈ ds, d.1 = e) :
    countersOf (handleReviews scorer s ds) id =
        ⟨(visible reviews).length, ((visible reviews).map (·.rating)).sum⟩ ↔
      Clamped.NeverNegative (changesOf ds) ∧ Clamped.Lowest (changesOf ds) 0 := by
  obtain ⟨hcnt, htot⟩ := true_counters hids hfrom hcover
  rw [(counted_handleReviews hids (professionalId_signal hown) hzero hunclaimed hfrom).counters,
    ← hcnt, ← htot]
  exact Clamped.exact_iff

/-! ## A review hidden before it is counted -/

namespace HiddenFirst

/-- A review of four stars that was hidden, and one of five stars that was not. -/
def pair : List ReviewHistory := [⟨1, 7, 4, 11, [(.hide, 12)]⟩, ⟨2, 7, 5, 21, []⟩]

def created : ReviewEnvelope := ⟨11, .created 1 7 4⟩

def hidden : ReviewEnvelope := ⟨12, .moderated 1 7 4 .hidden⟩

def other : ReviewEnvelope := ⟨21, .created 2 7 5⟩

def store : SearchStore := ⟨.empty, .empty, []⟩

def flat : Scorer := fun _ _ _ => ⟨0, []⟩

end HiddenFirst

/-- In the order of the events, with one delivered twice, nothing is clamped. -/
theorem rating_counters_inOrder :
    Clamped.NeverNegative (changesOf [(HiddenFirst.created, 1), (HiddenFirst.other, 2),
        (HiddenFirst.created, 3), (HiddenFirst.hidden, 4)]) ∧
      Clamped.Lowest (changesOf [(HiddenFirst.created, 1), (HiddenFirst.other, 2),
        (HiddenFirst.created, 3), (HiddenFirst.hidden, 4)]) 0 :=
  (@rating_counters_iff HiddenFirst.flat HiddenFirst.store 7 HiddenFirst.pair _ (by decide)
    (by decide) rfl (by decide) (by decide) (by decide)).1 (by decide +kernel)

/-- Hidden before it is counted, the review is counted for good. -/
theorem rating_counters_hiddenFirst_fails :
    ¬ ∀ (scorer : Scorer) (s : SearchStore) (id : Uuid) (reviews : List ReviewHistory)
      (ds : List (ReviewEnvelope × Instant)), ((eventsOf reviews).map (·.id)).Nodup →
      (∀ r ∈ reviews, r.professionalId = id) → countersOf s id = ⟨0, 0⟩ →
      (∀ e ∈ eventsOf reviews, e.application ∉ s.applications) →
      (∀ d ∈ ds, d.1 ∈ eventsOf reviews) → (∀ e ∈ eventsOf reviews, ∃ d ∈ ds, d.1 = e) →
      countersOf (handleReviews scorer s ds) id =
        ⟨(visible reviews).length, ((visible reviews).map (·.rating)).sum⟩ := by
  intro h
  have hctrs := h HiddenFirst.flat HiddenFirst.store 7 HiddenFirst.pair
    [(HiddenFirst.hidden, 1), (HiddenFirst.created, 2), (HiddenFirst.other, 3)] (by decide)
    (by decide) rfl (by decide) (by decide) (by decide)
  exact absurd hctrs (by decide)

end BeauClick.Search
