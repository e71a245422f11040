import BeauClick.Referral.Statements

/-!
# The referral rewards keep their outline

* `keeps_commit` — a commit keeps what the tables say.
* `shown_statement` — every statement, and what it ends with.
* The service's proof is assembled from the two.
-/

namespace BeauClick.Referral

open Commerce Locks ReadCommitted ReadCommitted.Versioned Transactions Function

variable {month : Instant → Option Period} {customer : Uuid → Uuid} {env : ReferralEnv}
  {db db' : ReferralDb} {p : ℕ} {place place' : ReferralPlace}

/-! ## The ends of transactions -/

theorem clean_commit : Clean (db.commit p) p :=
  ⟨⟨untouched_commit, untouched_commit, untouched_commit, untouched_commit, untouched_commit,
    Journal.pending_commit_self⟩, untouched_commit⟩

theorem clean_rollback : Clean (db.rollback p) p :=
  ⟨⟨untouched_rollback, untouched_rollback, untouched_rollback, untouched_rollback,
    untouched_rollback, Journal.pending_rollback_self⟩, untouched_rollback⟩

theorem Work.apt (hw : Work month customer db p place) : Apt db p := by
  have howns : ∀ {k c x}, Owns db p k c x → Apt db p := fun h => Or.inr ⟨_, _, _, h⟩
  have hqualifying : ∀ {q pending stage}, Qualifying month customer db p q pending stage →
      Apt db p := by
    rintro q pending stage ⟨-, -, -, -, c, -, -, h, -⟩
    exact howns h
  have hreversing : ∀ {h v events stage}, ReversingWork month customer db p h v events stage →
      Apt db p := by
    rintro h v events stage ⟨c, _, _, -, -, -, -, -, -, -, -, -, -, h, -⟩
    exact howns h
  cases place with
  | done => exact Or.inl hw.1.toQuiet
  | «nothing» event => exact Or.inl hw.1.toQuiet
  | orderWritten => exact Or.inl hw.1
  | qualify => exact Or.inl hw.1.toQuiet
  | charge =>
    obtain ⟨-, -, -, _, -, -, -, -, h, -⟩ := hw
    exact howns h
  | grant => exact hqualifying hw
  | award => exact hqualifying hw.2
  | emitQualified | findBookingOrder => exact hqualifying hw
  | readBookingOrder | rewarded => exact hqualifying hw.1
  | findOrder | readOrder => exact Or.inl hw.1.toQuiet
  | reverse h =>
    cases h with
    | completed => exact hqualifying hw.2.2.2
    | refunded => exact Or.inl hw.2.2.1.toQuiet
  | sideGrant | sideOriginal | sideClawback | sideRecord | emitReversed => exact hreversing hw
  | reversed =>
    obtain ⟨_, hw⟩ := hw
    exact hreversing hw
  | _ => exact Or.inl (Clean.toQuiet hw)

section

variable (hs : Sound month customer db)
include hs

theorem keeps_rollback (hw : Work month customer db p place) :
    (rewarding month customer).Keeps db p place (db.rollback p) := by
  refine keeps_of_beside ?_ (fun q hq => beside_rollback hq hw.apt hs.id) ?_
  · exact hs.of_committed committed_rollback committed_rollback committed_rollback
      committed_rollback committed_rollback Journal.committed_rollback committed_rollback
      hs.id.rollback hs.source.rollback
  · intro _ _ o _ _ s hsome
    exact (congrFun committed_rollback o).trans hsome

theorem keeps_commit (hs' : Sound month customer (db.commit p))
    (hapt : Apt db p) (hgrows : Grows db (db.commit p))
    (hsettle : ∀ orderId, Settled db orderId → Settled (db.commit p) orderId)
    (hlocked : ∀ place', Together Holds place place' → ∀ o m, Holds place' o m → ∀ s,
      db.orders.committed o = some s → (db.commit p).orders.committed o = some s) :
    (rewarding month customer).Keeps db p place (db.commit p) :=
  keeps_of_beside hs' (fun _ hq => beside_commit hq hapt hs.id hgrows hsettle) hlocked

theorem keeps_commit_clean (hclean : Clean db p) :
    (rewarding month customer).Keeps db p place (db.commit p) := by
  have hords : (db.commit p).orders.committed = db.orders.committed :=
    hclean.orders.committed_commit
  have hrefls : (db.commit p).referrals.committed = db.referrals.committed :=
    hclean.referrals.committed_commit
  refine keeps_commit hs ?_ (Or.inl hclean.toQuiet) (.of_eq hords)
    (fun _ h => h.orders (.of_eq hords) hrefls) ?_
  · refine hs.of_committed hrefls hclean.referrerCounters.committed_commit
      hclean.rewardGrants.committed_commit
      hclean.pointsEntries.committed_commit
      hclean.rewardReversals.committed_commit ?_ hords hs.id.commit
      hs.source.commit
    show db.outbox.committed ++ db.outbox.pending p = db.outbox.committed
    rw [hclean.outbox, List.append_nil]
  · intro _ _ o _ _ s hsome
    rwa [hords]

theorem ends_orderWritten {orderId : Uuid} (hw : Work month customer db p (.orderWritten orderId)) :
    (rewarding month customer).Keeps db p (.orderWritten orderId) (db.commit p) := by
  obtain ⟨hquiet, honly, s, s', hrow, hsound, hprog⟩ := hw
  have hords : (db.commit p).orders.committed =
      update db.orders.committed orderId (some s') :=
    committed_commit_of_onlyAt (wrote_of_row hrow) honly
  have hrefls : (db.commit p).referrals.committed = db.referrals.committed :=
    hquiet.referrals.committed_commit
  have hself : db.orders.committed orderId = some s := committed_of_row hrow
  have hgrows : Grows db (db.commit p) := by
    refine ⟨?_, ?_⟩
    · intro o s₁ hs₁
      rw [hords]
      by_cases ho : o = orderId
      · subst ho
        cases hself.symm.trans hs₁
        exact ⟨s', update_self .., hprog⟩
      · exact ⟨s₁, by rw [update_of_ne ho, hs₁], .refl s₁⟩
    · intro o s₁ hs₁ hnone
      rw [hords, update_of_ne, hnone] at hs₁
      · cases hs₁
      rintro rfl
      cases hself.symm.trans hnone
  refine keeps_commit hs ?_ (Or.inl hquiet) hgrows (fun _ h => h.orders hgrows hrefls) ?_
  · refine hs.orders hrefls hquiet.referrerCounters.committed_commit
      (fun id side => ((hquiet.unwritten id).commit).side side) ?_ hgrows ?_ hs.id.commit
      hs.source.commit
    · rw [qualifications_commit, hquiet.outbox]
      exact List.append_nil _
    · intro o s₁ hs₁
      rw [hords] at hs₁
      by_cases ho : o = orderId
      · rw [ho, update_self] at hs₁
        cases hs₁
        exact hsound
      · rw [update_of_ne ho] at hs₁
        exact hs.order o s₁ hs₁
  · -- whoever relies on a locked order relies on another one
    intro place' htog o m hholds s₁ hs₁
    rw [hords, update_of_ne, hs₁]
    rintro rfl
    cases (htog o .exclusive m ⟨rfl, rfl⟩ hholds).1

theorem ends_rewarded {q : Qualification} {orderId : Option Uuid}
    (hw : Work month customer db p (.rewarded q orderId)) :
    (rewarding month customer).Keeps db p (.rewarded q orderId) (db.commit p) := by
  have hapt := Work.apt hw
  obtain ⟨hqualifying, hopen⟩ := hw
  obtain ⟨-, -, -, -, _, -, -, howns, -⟩ := id hqualifying
  refine keeps_commit hs (sound_rewarded hs hqualifying) hapt (.of_eq howns.orders_commit) ?_ ?_
  · refine fun o hsettle => hsettle.commit howns ?_
    intro s b hs₁ hfull hsrc hb
    cases hb
    cases orderId with
    | none => exact absurd hsrc (hopen o s hs₁)
    | some =>
      obtain ⟨_, hs', hsrc', hunrefunded⟩ := hopen
      obtain rfl := hs.source.committed hs₁ hs' ⟨_, _, hsrc, hsrc'⟩
      cases hs₁.symm.trans hs'
      exact absurd hfull hunrefunded
  · intro _ _ o _ _ s hsome
    rwa [howns.orders_commit]

theorem ends_reversed {h : Handling} {v : Reversing}
    (hw : Work month customer db p (.reversed h v)) :
    (rewarding month customer).Keeps db p (.reversed h v) (db.commit p) ∧
      Handled (db.commit p) h.delivery := by
  have hapt := Work.apt hw
  obtain ⟨_, hreversing⟩ := hw
  have hs' := sound_reversed hs hreversing
  obtain ⟨_, x, _, -, -, hbegun, habout, -, -, hrefd, -, -, hx, howns, -⟩ := hreversing
  have hreversed : x.state.IsReversed := by
    rw [hx]
    trivial
  refine ⟨keeps_commit hs hs' hapt (.of_eq howns.orders_commit)
    (fun o hsettle => hsettle.commit howns fun _ _ _ _ _ _ => hreversed) ?_, ?_⟩
  · intro _ _ o _ _ s hsome
    rwa [howns.orders_commit]
  · cases h with
    | completed => trivial
    | refunded orderId =>
      cases habout
      obtain ⟨-, -, -, s, hsome, hlt⟩ := hbegun
      obtain ⟨_, hs₁, ⟨_, ho, -, hsrc⟩, hfull⟩ := hrefd
      cases hsome.symm.trans hs₁
      have hcomm : (db.commit p).orders.committed v.orderId = some s := by
        rwa [howns.orders_commit]
      refine ⟨s, hcomm, hlt, fun _ => ⟨s, hcomm, hfull, ?_⟩⟩
      -- the referrals of the booking are those of its customer
      rintro b ⟨_, ho', -, rfl⟩ k y hy hb
      cases ho.symm.trans ho'
      have hk := hs'.booking k y _ hy hb
      rw [hsrc] at hk
      rw [howns.referrals_commit, hk, update_self] at hy
      cases hy
      exact hreversed

end

/-! ## The service -/

theorem work_first {event : Delivery} (hclean : Clean db p) (hemitted : event.Emitted db) :
    Work month customer db p event.first := by
  cases event with
  | bookingCompleted => exact ⟨hclean, hemitted⟩
  | orderRefunded =>
    obtain ⟨s, hs, _, he, -⟩ := hemitted
    exact ⟨hclean, s, hs, (List.getElem?_eq_some_iff.1 he).1⟩

theorem not_holds_first {event : Delivery} (k : Uuid) (m : LockMode) : ¬Holds event.first k m := by
  cases event <;> exact id

/-- What each statement of a handler keeps. -/
theorem shown_statement (hs : Sound month customer db) (hw : Work month customer db p place) :
    Shown month customer db p place (statement month customer env db p place) := by
  cases place with
  | idle | failed | ended | done => trivial
  | «attribute» x => exact shown_attribute hs hw
  | placeOrder => exact shown_placeOrder hs hw
  | completeBooking => exact shown_completeBooking hs hw
  | order =>
    simp only [statement, orderStatement]
    split
    · trivial
    split
    · trivial
    split
    · exact ⟨keeps_commit_clean hs hw, clean_commit, fun _ _ => id⟩
    · exact ⟨hw, fun _ _ h => h⟩
  | orderLocked => exact shown_orderLocked hs hw
  | orderWritten => exact ⟨ends_orderWritten hs hw, clean_commit, fun _ _ => id⟩
  | deliver =>
    simp only [statement]
    split
    · rename_i hemitted
      exact ⟨keeps_refl hs, work_first hw hemitted, fun k m h => absurd h (not_holds_first k m)⟩
    · trivial
  | qualify => exact shown_qualify hs hw
  | charge => exact shown_charge hs hw
  | grant => exact shown_grant hs env hw
  | award => exact shown_award hs hw
  | emitQualified => exact shown_emitQualified env hs hw
  | findBookingOrder => exact shown_findBookingOrder hs hw
  | readBookingOrder => exact shown_readBookingOrder hs hw
  | findOrder => exact shown_findOrder hw
  | readOrder => exact shown_readOrder hs hw
  | reverse h =>
    cases h with
    | completed => exact shown_reverse_completed hs hw
    | refunded => exact shown_reverse_refunded hs hw
  | sideGrant => exact shown_sideGrant env hs hw
  | sideOriginal => exact shown_sideOriginal env hs hw
  | sideClawback => exact shown_sideClawback env hs hw
  | sideRecord => exact shown_sideRecord env hs hw
  | emitReversed => exact shown_emitReversed env hs hw
  | «nothing» event =>
    obtain ⟨hclean, hhandled⟩ := hw
    refine ⟨keeps_commit_clean hs hclean, ⟨clean_commit, ?_⟩, fun _ _ => id⟩
    have hords : (db.commit p).orders.committed = db.orders.committed :=
      hclean.orders.committed_commit
    have hrefls : (db.commit p).referrals.committed = db.referrals.committed :=
      hclean.referrals.committed_commit
    cases event with
    | bookingCompleted => trivial
    | orderRefunded =>
      unfold Handled Settled
      rw [hords, hrefls]
      exact hhandled
  | rewarded => exact ⟨ends_rewarded hs hw, ⟨clean_commit, trivial⟩, fun _ _ => id⟩
  | reversed =>
    obtain ⟨hkeeps, hhandled⟩ := ends_reversed hs hw
    exact ⟨hkeeps, ⟨clean_commit, hhandled⟩, fun _ _ => id⟩

/-- Each statement of a handler keeps the rewards. -/
theorem rewarding_proof (wallClockIn : Instant → ZonedWallClock) (customer : Uuid → Uuid) :
    Proof (referralRewards wallClockIn customer)
      (rewarding (tehranCalendarMonth wallClockIn) customer) where
  first := by
    intro db pid request hw
    cases request <;> exact ⟨hw, fun _ _ => id⟩
  goes := by
    intro env db pid place db' place' _ hs hw hst
    obtain ⟨hkeeps, hwork, hholds⟩ := (shown_statement hs hw).of_goes hst
    exact ⟨hkeeps, hwork, hholds⟩
  locks := by
    intro env db pid place key mode place' _ hs hw hst
    obtain ⟨hwork, hholds⟩ := (shown_statement hs hw).of_locks hst
    exact ⟨hwork, fun k m h => Or.inr (hholds k m h)⟩
  commits := fun env db pid place place' _ hs hw hst => (shown_statement hs hw).of_commits hst
  throws := by
    intro env db pid place place' _ hs hw hst
    have hfailed := (shown_statement hs hw).of_throws hst
    cases place' with
    | failed => exact ⟨keeps_rollback hs hw, clean_rollback, fun _ _ => id⟩
    | _ => exact hfailed.elim
  dies := fun db pid place _ hs hw => ⟨keeps_rollback hs hw, clean_rollback, fun _ _ => id⟩

end BeauClick.Referral
