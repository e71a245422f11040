import BeauClick.Subscriptions.Drafts

/-!
# One active subscription per party

* `kept_commit` — the commit of a draft keeps one chain for each party.
* `subscriptionProof` — the partial unique index admits no second row.
* `oneActive_run` — each party has one active subscription, with its included grants.
-/

namespace BeauClick.Subscriptions

open Mvcc Runs Transactions Heap List Option

/-- The active subscriptions of a party. -/
def activeRows (db : SubscriptionDb) (party : OwnedSubscriberParty) : List SellerSubscription :=
  db.subscriptions.rows.filter fun x => x.subscriber = party ∧ x.lifecycleState = .active

/-- The grants that were included in a subscription. -/
def includedGrants (db : SubscriptionDb) (subscriptionId : Uuid) : List BookingCreditGrant :=
  db.grants.rows.filter fun g => g.subscriptionId = subscriptionId ∧ g.source = .planIncluded

/-- What holds of the committed tables, and of the calls that have ended. -/
structure OneActive (s : System SubscriptionDb Unit SubscriptionPlace) : Prop where
  atMostOne : ∀ party, (activeRows s.db party).length ≤ 1
  /-- From the first ensure or selection on that is committed. -/
  exactlyOne : ∀ pid party outcome subscription,
    s.calls pid = .returned party outcome subscription → ∃ x, activeRows s.db party = [x]
  successor : ∀ x ∈ s.db.subscriptions.rows, x.lifecycleState = .superseded →
    ∃ y ∈ s.db.subscriptions.rows, y.subscriber = x.subscriber ∧ x.supersededById = some y.id
  chain : ∀ party, ∃ chain, OneChain s.db.subscriptions.rows party chain
  granted : ∀ x ∈ s.db.subscriptions.rows, ∃ g, includedGrants s.db x.id = [g] ∧
    g.quantity = x.snapshot.includedBookingCredits
  translated : ∀ pid, s.calls pid ≠ .threw .uniqueViolation

variable {db db' : SubscriptionDb} {pid q : ℕ} {party : OwnedSubscriberParty} {id : Uuid}
  {x y e e' : SellerSubscription} {draft : Draft} {granted : List SellerSubscription}
  {place place' : SubscriptionPlace} {env : SubscriptionEnv} {t : Tuple ℕ SellerSubscription}
  {where' : SellerSubscription → Prop} {now : Instant}

/-! ## Commits -/

theorem mem_rows_committed (hd : Drafts db pid party draft granted) :
    y ∈ (db.commit pid).subscriptions.rows ↔
      (∃ t ∈ db.subscriptions.tuples, t.insertedBy = none ∧ t ∉ draft.tuples pid ∧ t.row = y) ∨
        ∃ t ∈ draft.tuples pid, t.deletedBy ≠ some pid ∧ t.row = y := by
  have hrows : y ∈ (db.commit pid).subscriptions.rows ↔ y ∈ db.subscriptions.sees pid :=
    mem_rows_commit
  rw [hrows, mem_sees_iff, hd.subscriptions]

theorem Draft.subscriber_of_mem (hok : draft.Ok party) (ht : t ∈ draft.tuples pid) :
    t.row.subscriber = party := by
  have hends : ∀ {e e'}, Draft.Ends party e e' → e'.subscriber = party :=
    fun h => (eq_of_terms h.terms).2.1.trans h.subscriber
  cases draft with
  | nothing => cases ht
  | assigned =>
    obtain rfl := ht
    exact hok.1
  | ended =>
    rcases ht with rfl | rfl
    · exact hends hok
    · exact hok.subscriber
  | replaced =>
    rcases ht with rfl | rfl | rfl
    · exact hok.2.1
    · exact hends hok.1
    · exact hok.1.subscriber

theorem mem_rows_other (hd : Drafts db pid party draft granted) (hne : y.subscriber ≠ party) :
    y ∈ (db.commit pid).subscriptions.rows ↔ y ∈ db.subscriptions.rows := by
  rw [mem_rows_committed hd, mem_rows]
  constructor
  · rintro (⟨t, ht, hcomm, -, rfl⟩ | ⟨t, ht, -, rfl⟩)
    · exact ⟨t, ht, hcomm, rfl⟩
    · exact absurd (Draft.subscriber_of_mem hd.ok ht) hne
  · rintro ⟨t, ht, hcomm, rfl⟩
    exact Or.inl ⟨t, ht, hcomm, fun hmem => hne (Draft.subscriber_of_mem hd.ok hmem), rfl⟩

section

variable (hs : SubscriptionSound db)
include hs

theorem none_committed {u : Tuple ℕ SellerSubscription} (hu : u ∈ db.subscriptions.tuples)
    (hown : u.insertedBy = some pid) (hact : u.row.lifecycleState = .active)
    (hall : ∀ t ∈ db.subscriptions.touched pid, t.insertedBy = some pid)
    (hy : y ∈ db.subscriptions.rows) : y.subscriber ≠ u.row.subscriber := by
  intro hparty
  obtain ⟨chain, hchain⟩ := hs.chain u.row.subscriber
  have hnil : chain = [] := by
    refine hchain.eq_nil ?_
    intro z hz hzparty hzactive
    obtain ⟨t, ht, hcomm, rfl⟩ := mem_rows.1 hz
    have hne : t ≠ u := by
      rintro rfl
      cases hcomm.symm.trans hown
    obtain ⟨r, ⟨hdel, hins⟩ | ⟨-, hins⟩⟩ := db.subscriptions.apart_of_mem ht hu hne
      (shares_subscription.2 (Or.inr ⟨hzactive, hact, hzparty⟩))
    · have hr : r = pid := some.inj (hins.symm.trans hown)
      have htouch := hall t ⟨ht, Or.inr (hr ▸ hdel)⟩
      cases hcomm.symm.trans htouch
    · cases hcomm.symm.trans hins
  have hmem : y ∈ chain := (hchain.mem y).2 ⟨hy, hparty⟩
  rw [hnil] at hmem
  cases hmem

theorem chain_other (hd : Drafts db pid party draft granted)
    (hchain : ∃ chain, OneChain (db.commit pid).subscriptions.rows party chain)
    (party' : OwnedSubscriberParty) :
    ∃ chain, OneChain (db.commit pid).subscriptions.rows party' chain := by
  by_cases hparty : party' = party
  · rw [hparty]
    exact hchain
  · obtain ⟨chain, hchain'⟩ := hs.chain party'
    refine ⟨chain, hchain'.congr ?_⟩
    intro y hy
    exact mem_rows_other hd (hy ▸ hparty)

theorem chain_assigned (hd : Drafts db pid party (.assigned x) granted) :
    ∃ chain, OneChain (db.commit pid).subscriptions.rows party chain := by
  have hx : (⟨x, some pid, none⟩ : Tuple ℕ SellerSubscription) ∈ db.subscriptions.touched pid := by
    rw [hd.subscriptions]
    rfl
  have hnone : ∀ y ∈ db.subscriptions.rows, y.subscriber ≠ party := by
    intro y hy
    rw [← hd.ok.1]
    refine none_committed hs hx.1 rfl hd.ok.2 ?_ hy
    intro t ht
    rw [hd.subscriptions] at ht
    obtain rfl := ht
    rfl
  refine ⟨[x], OneChain.singleton hd.ok.2 ?_⟩
  intro y
  rw [mem_rows_committed hd]
  constructor
  · rintro ⟨⟨t, ht, hcomm, -, rfl⟩ | ⟨t, rfl, -, rfl⟩, hparty⟩
    · exact absurd hparty (hnone t.row (mem_rows.2 ⟨t, ht, hcomm, rfl⟩))
    · rfl
  · rintro rfl
    exact ⟨Or.inr ⟨_, rfl, by simp, rfl⟩, hd.ok.1⟩

theorem chain_replaced_own (hd : Drafts db pid party (.replaced true e e' x) granted) :
    ∃ chain, OneChain (db.commit pid).subscriptions.rows party chain := by
  obtain ⟨hends, hparty, hact, hfoll⟩ := hd.ok
  have he : Draft.before pid true e ∈ db.subscriptions.touched pid := by
    rw [hd.subscriptions]
    exact Or.inr (Or.inr rfl)
  have hnone : ∀ y ∈ db.subscriptions.rows, y.subscriber ≠ party := by
    intro y hy
    rw [← hends.subscriber]
    refine none_committed hs he.1 rfl hends.active ?_ hy
    intro t ht
    rw [hd.subscriptions] at ht
    rcases ht with rfl | rfl | rfl <;> rfl
  refine ⟨[] ++ [e', x], OneChain.replace isChain_nil nodup_nil (by simp) (by simp)
    not_mem_nil hfoll hact ?_⟩
  intro y
  rw [mem_rows_committed hd]
  constructor
  · rintro ⟨⟨t, ht, hcomm, -, rfl⟩ | ⟨t, rfl | rfl | rfl, hdel, rfl⟩, hy⟩
    · exact absurd hy (hnone t.row (mem_rows.2 ⟨t, ht, hcomm, rfl⟩))
    · exact Or.inr (Or.inr rfl)
    · exact Or.inr (Or.inl rfl)
    · exact absurd rfl hdel
  · rintro (hnil | rfl | rfl)
    · cases hnil
    · exact ⟨Or.inr ⟨⟨y, some pid, none⟩, Or.inr (Or.inl rfl), by simp, rfl⟩,
        (eq_of_terms hends.terms).2.1.trans hends.subscriber⟩
    · exact ⟨Or.inr ⟨⟨y, some pid, none⟩, Or.inl rfl, by simp, rfl⟩, hparty⟩

theorem chain_replaced (hd : Drafts db pid party (.replaced false e e' x) granted) :
    ∃ chain, OneChain (db.commit pid).subscriptions.rows party chain := by
  obtain ⟨hends, hparty, hact, hfoll⟩ := hd.ok
  have he : Draft.before pid false e ∈ db.subscriptions.touched pid := by
    rw [hd.subscriptions]
    exact Or.inr (Or.inr rfl)
  have herow : e ∈ db.subscriptions.rows := mem_rows.2 ⟨_, he.1, rfl, rfl⟩
  obtain ⟨chain, hchain⟩ := hs.chain party
  obtain ⟨l, rfl⟩ := hchain.eq_concat herow hends.subscriber hends.active
  have hnodup := nodup_append.1 hchain.nodup
  have heid : ∀ y ∈ db.subscriptions.rows, y.id = e.id → y = e := by
    intro y hy hid
    obtain ⟨t, ht, hcomm, rfl⟩ := mem_rows.1 hy
    have heq := eq_of_committed ht he.1 (shares_subscription.2 (Or.inl hid)) hcomm rfl
    rw [heq]
    rfl
  have hl : ∀ y, y ∈ l ↔ (y ∈ db.subscriptions.rows ∧ y.subscriber = party) ∧ y ≠ e := by
    intro y
    rw [← hchain.mem y, mem_append, mem_singleton]
    constructor
    · intro hy
      exact ⟨Or.inl hy, hnodup.2.2 y hy e (mem_singleton_self e)⟩
    · rintro ⟨hy | hy, hne⟩
      · exact hy
      · exact absurd hy hne
  refine ⟨l ++ [e', x], OneChain.replace (isChain_append.1 hchain.follows).1 hnodup.1 ?_ ?_ ?_
    hfoll hact ?_⟩
  · intro y hy
    exact ((isChain_append.1 hchain.follows).2.2 y hy e rfl).congr hends.terms
  · intro y hy
    obtain ⟨_, -, hz⟩ := exists_follows hchain.follows hy
    exact hz.ended
  · intro hmem
    obtain ⟨⟨hrow, -⟩, hne⟩ := (hl e').1 hmem
    exact hne (heid e' hrow (eq_of_terms hends.terms).1)
  · intro y
    rw [mem_rows_committed hd, hl]
    constructor
    · rintro ⟨⟨t, ht, hcomm, hnot, rfl⟩ | ⟨t, rfl | rfl | rfl, hdel, rfl⟩, hy⟩
      · refine Or.inl ⟨⟨mem_rows.2 ⟨t, ht, hcomm, rfl⟩, hy⟩, ?_⟩
        intro hrow
        have hid : t.row.id = (Draft.before pid false e).row.id := congrArg SellerSubscription.id hrow
        have heq := eq_of_committed ht he.1 (shares_subscription.2 (Or.inl hid)) hcomm rfl
        exact hnot (heq ▸ Or.inr (Or.inr rfl))
      · exact Or.inr (Or.inr rfl)
      · exact Or.inr (Or.inl rfl)
      · exact absurd rfl hdel
    · rintro (⟨⟨hrow, hy⟩, hne⟩ | rfl | rfl)
      · obtain ⟨t, ht, hcomm, rfl⟩ := mem_rows.1 hrow
        refine ⟨Or.inl ⟨t, ht, hcomm, ?_, rfl⟩, hy⟩
        rintro (rfl | rfl | rfl)
        · cases hcomm
        · cases hcomm
        · exact hne rfl
      · exact ⟨Or.inr ⟨⟨y, some pid, none⟩, Or.inr (Or.inl rfl), by simp, rfl⟩,
          (eq_of_terms hends.terms).2.1.trans hends.subscriber⟩
      · exact ⟨Or.inr ⟨⟨y, some pid, none⟩, Or.inl rfl, by simp, rfl⟩, hparty⟩

end

/-- Where a row comes from that a transaction leaves: it is new, or the next version of a committed
one. -/
theorem Draft.origin (hok : draft.Ok party) (ht : t ∈ draft.tuples pid)
    (hdel : t.deletedBy ≠ some pid) :
    ∃ e, t.row.terms = e.terms ∧ (e ∈ draft.fresh ∨ before pid false e ∈ draft.tuples pid) := by
  cases draft with
  | nothing => cases ht
  | assigned x =>
    obtain rfl := ht
    exact ⟨x, rfl, Or.inl (mem_singleton_self x)⟩
  | ended own e =>
    rcases ht with rfl | rfl
    · refine ⟨e, hok.terms, ?_⟩
      cases own with
      | true => exact Or.inl (mem_singleton_self e)
      | false => exact Or.inr (Or.inr rfl)
    · exact absurd rfl hdel
  | replaced own e e' x =>
    rcases ht with rfl | rfl | rfl
    · exact ⟨x, rfl, Or.inl mem_cons_self⟩
    · refine ⟨e, hok.1.terms, ?_⟩
      cases own with
      | true => exact Or.inl (mem_cons_of_mem x (mem_singleton_self e))
      | false => exact Or.inr (Or.inr (Or.inr rfl))
    · exact absurd rfl hdel

theorem Draft.next (hok : draft.Ok party) (ht : t ∈ draft.tuples pid)
    (hcomm : t.insertedBy = none) :
    ∃ t' ∈ draft.tuples pid, t'.deletedBy ≠ some pid ∧ t'.row.terms = t.row.terms := by
  cases draft with
  | nothing => cases ht
  | assigned =>
    obtain rfl := ht
    cases hcomm
  | ended own e e' =>
    rcases ht with rfl | rfl
    · cases hcomm
    exact ⟨⟨e', some pid, none⟩, Or.inl rfl, by simp, hok.terms⟩
  | replaced own e e' =>
    rcases ht with rfl | rfl | rfl
    · cases hcomm
    · cases hcomm
    · exact ⟨⟨e', some pid, none⟩, Or.inr (Or.inl rfl), by simp, hok.1.terms⟩

theorem kept_commit (hs : SubscriptionSound db) (hd : Drafts db pid party draft draft.fresh)
    (hchain : ∃ chain, OneChain (db.commit pid).subscriptions.rows party chain) :
    SubscriptionKept pid db (db.commit pid) := by
  have hgrants : ∀ g ∈ db.grants.rows, g ∈ (db.commit pid).grants.rows := by
    intro g hg
    obtain ⟨t, ht, hcomm, rfl⟩ := mem_rows.1 hg
    refine mem_rows_commit.2 (mem_sees.2 ⟨t, ht, ⟨Or.inl hcomm, ?_⟩, rfl⟩)
    intro hdel
    cases hcomm.symm.trans (hd.grants t ⟨ht, Or.inr hdel⟩).1
  have hnew : ∀ t ∈ db.grants.touched pid, t.row ∈ (db.commit pid).grants.rows := by
    intro t ht
    obtain ⟨hins, hdel⟩ := hd.grants t ht
    refine mem_rows_commit.2 (mem_sees.2 ⟨t, ht.1, ⟨Or.inr hins, ?_⟩, rfl⟩)
    rw [hdel]
    exact (some_ne_none pid).symm
  have hprog : SubscriptionProgress db (db.commit pid) := by
    refine ⟨?_, fun _ _ h => h⟩
    intro y hy
    obtain ⟨t, ht, hcomm, rfl⟩ := mem_rows.1 hy
    by_cases hmem : t ∈ draft.tuples pid
    · obtain ⟨t', ht', hdel, hterms⟩ := Draft.next hd.ok hmem hcomm
      exact ⟨t'.row, (mem_rows_committed hd).2 (Or.inr ⟨t', ht', hdel, rfl⟩), hterms⟩
    · exact ⟨t.row, (mem_rows_committed hd).2 (Or.inl ⟨t, ht, hcomm, hmem, rfl⟩), rfl⟩
  refine kept_of_versions hs rfl ?_ ?_ hprog
    (fun q hq => ⟨touched_commit_of_ne hq, touched_commit_of_ne hq⟩) (chain_other hs hd hchain) ?_
  · intro t ht
    obtain ⟨u, hu, -, rfl⟩ := mem_commit.1 ht
    exact ⟨u, hu, rfl⟩
  · intro t ht
    obtain ⟨u, hu, -, rfl⟩ := mem_commit.1 ht
    exact ⟨u, hu, rfl⟩
  · intro y hy
    rcases (mem_rows_committed hd).1 hy with ⟨t, ht, hcomm, -, rfl⟩ | ⟨t, ht, hdel, rfl⟩
    · obtain ⟨g, hg, hcovers⟩ := hs.granted t.row (mem_rows.2 ⟨t, ht, hcomm, rfl⟩)
      exact ⟨g, hgrants g hg, hcovers⟩
    · obtain ⟨e, hterms, horigin⟩ := Draft.origin hd.ok ht hdel
      have hcovered : ∃ g ∈ (db.commit pid).grants.rows, Covers g e := by
        rcases horigin with hfresh | hbef
        · obtain ⟨u, hu, hcovers⟩ := hd.covered e hfresh
          exact ⟨u.row, hnew u hu, hcovers⟩
        · rw [← hd.subscriptions] at hbef
          obtain ⟨g, hg, hcovers⟩ := hs.granted e (mem_rows.2 ⟨_, hbef.1, rfl, rfl⟩)
          exact ⟨g, hgrants g hg, hcovers⟩
      obtain ⟨g, hg, hid, hqty⟩ := hcovered
      obtain ⟨heid, -, hsnap, -⟩ := eq_of_terms hterms
      exact ⟨g, hg, hid.trans heid.symm, by rw [hqty, hsnap]⟩

theorem kept_complete (hs : SubscriptionSound db) (hc : Complete db pid party) :
    SubscriptionKept pid db (db.commit pid) ∧
      ∃ y ∈ (db.commit pid).subscriptions.rows, y.subscriber = party := by
  cases hc with
  | nothing h hrow =>
    have hd : Drafts db pid party .nothing [] := by
      refine ⟨h.1, trivial, ?_, ?_, ?_⟩
      · rintro x ⟨⟩
      · intro t ht
        rw [h.2] at ht
        cases ht
      · rintro x ⟨⟩
    obtain ⟨chain, hchain⟩ := hs.chain party
    have hkept := kept_commit hs hd ⟨chain, hchain.congr fun y _ => by
      rw [mem_rows_committed hd, mem_rows]
      simp [Draft.tuples]⟩
    exact ⟨hkept, hkept.progress.row hrow⟩
  | assigned x hd =>
    refine ⟨kept_commit hs hd (chain_assigned hs hd), x, ?_, hd.ok.1⟩
    exact (mem_rows_committed hd).2 (Or.inr ⟨_, rfl, by simp, rfl⟩)
  | replaced own e e' x hd =>
    have hchain : ∃ chain, OneChain (db.commit pid).subscriptions.rows party chain := by
      cases own with
      | true => exact chain_replaced_own hs hd
      | false => exact chain_replaced hs hd
    refine ⟨kept_commit hs hd hchain, x, ?_, hd.ok.2.1⟩
    exact (mem_rows_committed hd).2 (Or.inr ⟨_, Or.inl rfl, by simp, rfl⟩)

/-! ## Statements -/

theorem known_of_findActive (hn : Nothing db pid) (hfind : db.findActive pid party = some x) :
    Known db party x := by
  have hmem := mem_of_find?_eq_some hfind
  have hact := find?_some hfind
  have hparty : x.subscriber = party := (of_decide_eq_true hact).1
  refine ⟨hparty, x, ?_, rfl⟩
  rcases mem_sees_iff.1 hmem with ⟨t, ht, hcomm, -, rfl⟩ | ⟨t, ht, -, rfl⟩
  · exact mem_rows.2 ⟨t, ht, hcomm, rfl⟩
  · rw [hn.1] at ht
    cases ht

theorem Known.row (h : Known db party x) : ∃ y ∈ db.subscriptions.rows, y.subscriber = party := by
  obtain ⟨hparty, y, hy, hterms⟩ := h
  exact ⟨y, hy, (eq_of_terms hterms).2.1.trans hparty⟩

theorem Ensured.complete (h : Ensured db pid party x) : Complete db pid party := by
  rcases h with ⟨hn, hknown⟩ | hd
  · exact .nothing hn hknown.row
  · exact .assigned x hd

theorem work_afterEnsure {purpose : Purpose} (hn : Nothing db pid) (h : Known db party x) :
    SubscriptionWork db pid (afterEnsure party x purpose) := by
  cases purpose with
  | ensure => exact .nothing hn h.row
  | select => exact Or.inl ⟨hn, h⟩

section

variable (h : ∀ x, where' x → x.lifecycleState = .active)
include h

theorem kept_supersede {successorId : Uuid} :
    Transition where' (SellerSubscription.supersede successorId now) where
  active := h
  ended := fun _ => by simp [SellerSubscription.supersede]
  terms := fun _ => rfl
  named := fun _ _ hstate => absurd rfl hstate

theorem kept_cancel {actorUserId : Uuid} :
    Transition where' (SellerSubscription.cancel actorUserId now) where
  active := h
  ended := fun _ => by simp [SellerSubscription.cancel]
  terms := fun _ => rfl
  named := fun _ hnone _ => hnone

end

/-- What each statement on a subscription keeps. -/
theorem shown_statement (env : SubscriptionEnv) (hs : SubscriptionSound db)
    (hw : SubscriptionWork db pid place) :
    Shown db pid place (subscriptionStatement env db pid place) := by
  have hrefl : SubscriptionKept pid db db := .refl hs
  cases place with
  | findingActive =>
    simp only [subscriptionStatement, findExisting]
    split
    · rename_i hfind
      exact ⟨hrefl, work_afterEnsure hw (known_of_findActive hw hfind)⟩
    · exact ⟨hrefl, hw⟩
  | checkingEligible party purpose | selecting party planKey version actorUserId =>
    simp only [subscriptionStatement]
    split_ifs
    · exact ⟨hrefl, hw⟩
    · exact translated (by decide)
  | resolvingBase => exact shown_resolveBase hs fun _ => hw
  | insertingBase => exact shown_insertBase hs hw
  | rereading =>
    simp only [subscriptionStatement, reread]
    split
    · rename_i hfind
      exact ⟨hrefl, work_afterEnsure hw (known_of_findActive hw hfind)⟩
    · exact translated (by rintro ⟨⟩)
  | findingExisting => exact ⟨hrefl, hw⟩
  | targeting =>
    simp only [subscriptionStatement, resolveTarget]
    split
    · rename_i hver
      unfold Catalogue.requireSelectableVersion at hver
      split at hver
      · cases hver
      cases hver
      exact translated (by decide)
    · split
      · exact ⟨hrefl, hw.complete⟩
      · split_ifs with hnew
        · trivial
        rw [not_not] at hnew
        exact ⟨kept_generate hs hnew, (leaves_generate hnew).ensured hw, newId_generate hs hnew⟩
  | superseding party current target actorUserId successorId =>
    refine shown_transition hs hw.1 (kept_supersede fun _ h => h.2) ?_
    rintro db' hnew ⟨own, e, e', ⟨e₀, -, rfl⟩, hd⟩
    exact ⟨⟨own, e, _, ⟨rfl, rfl⟩, hd⟩, hnew successorId hw.2⟩
  | insertingSuccessor =>
    obtain ⟨⟨own, e, e', ⟨hstate, hsuccessor⟩, hd⟩, hid⟩ := hw
    exact shown_insertActive hrefl hd hid fun _ => Or.inl ⟨hstate, hsuccessor⟩
  | findingCurrent =>
    simp only [subscriptionStatement]
    split
    · rename_i hfind
      exact ⟨hrefl, hw, known_of_findActive hw hfind⟩
    · exact translated (by decide)
  | checkingBase =>
    simp only [subscriptionStatement]
    split_ifs
    · exact ⟨hrefl, .nothing hw.1 hw.2.row⟩
    · exact ⟨hrefl, hw⟩
  | cancelling party actorUserId =>
    refine shown_transition hs (Or.inl hw) (kept_cancel fun _ h => h.2) ?_
    rintro db' - ⟨own, e, e', ⟨e₀, hnone, rfl⟩, hd⟩
    exact ⟨own, e, e₀.cancel actorUserId env.now, ⟨rfl, hnone⟩, hd⟩
  | resolvingRestored => exact shown_resolveBase hs fun _ => hw
  | insertingRestored =>
    simp only [subscriptionStatement, insertRestored]
    split_ifs with hnew
    · trivial
    rw [not_not] at hnew
    obtain ⟨_, _, _, ⟨hstate, hnone⟩, hd⟩ := hw
    exact shown_insertActive (kept_generate hs hnew) ((leaves_generate hnew).drafts hd)
      (newId_generate hs hnew) fun _ => Or.inr ⟨hstate, hnone, rfl, rfl⟩
  | findingGrant =>
    simp only [subscriptionStatement, findGrant]
    split
    · rename_i g hfind
      obtain ⟨t, ht, -, hrow⟩ := mem_sees.1 (mem_of_find?_eq_some hfind)
      have hgrant := find?_some hfind
      rw [← hrow] at hgrant
      exact absurd (of_decide_eq_true hgrant).1 (hw.2 t ht)
    · exact ⟨hrefl, hw⟩
  | insertingGrant => exact shown_insertGrant hs hw
  | committing party outcome subscription =>
    simp only [subscriptionStatement]
    split_ifs
    · exact ⟨party, outcome, subscription, rfl, rfl⟩
    · exact translated (by decide)
  | idle | returned | threw => trivial

/-! ## Runs -/

/-- What holds of the tables, and what a call may rely on. -/
def subscriptionOutline : Outline SubscriptionDb Unit SubscriptionPlace SubscriptionEnv where
  Assumes := fun _ _ _ _ => True
  Sound := SubscriptionSound
  Guarantee := SubscriptionProgress
  Work := SubscriptionWork
  holds := fun _ _ _ => False

theorem subscriptionKeeps (h : SubscriptionKept pid db db') :
    subscriptionOutline.Keeps db pid place db' :=
  ⟨h.sound, h.progress, fun q _ hq _ hw => (h.leaves q hq).work hw⟩

/-- Each statement keeps one chain for each party. -/
theorem subscriptionProof : FreeProof subscriptionService subscriptionOutline where
  refl := SubscriptionProgress.refl
  trans := fun _ _ _ h h' => h.trans h'
  first := by
    intro db pid request hw
    cases request <;> exact hw
  statement := by
    intro env db pid place _ hs hw
    refine (shown_statement env hs hw).mono (fun db' place' h => ⟨subscriptionKeeps h.1, h.2⟩)
      (fun _ _ _ h => h.elim) (fun place' h => ?_) fun place' h => ?_
    · obtain ⟨_, _, _, rfl, rfl⟩ := h
      obtain ⟨hkept, hrow⟩ := kept_complete hs hw
      exact ⟨subscriptionKeeps hkept, nothing_commit, hrow⟩
    · obtain ⟨_, rfl, hfailure⟩ := h
      exact ⟨subscriptionKeeps (kept_rollback hs), nothing_rollback, hfailure⟩
  dies := fun _ _ _ _ hs _ => ⟨subscriptionKeeps (kept_rollback hs), nothing_rollback, by decide⟩

theorem subscriptionSound_empty : SubscriptionSound .empty where
  ids := by rintro t ⟨⟩
  grantIds := by rintro t ⟨⟩
  initial := by rintro t ⟨⟩
  frozen := by rintro t ⟨⟩
  named := by rintro t ⟨⟩
  chain := by
    intro party
    refine ⟨[], ?_, nodup_nil, isChain_nil, by simp⟩
    intro x
    simp [SubscriptionDb.empty, rows, empty]
  granted := by rintro x ⟨⟩

theorem nothing_empty (pid : ℕ) : Nothing .empty pid := by
  constructor <;> ext t <;> simp [SubscriptionDb.empty, empty, touched]

theorem mem_activeRows :
    x ∈ activeRows db party ↔ x ∈ db.subscriptions.rows ∧ x.subscriber = party ∧
      x.lifecycleState = .active := by
  simp [activeRows]

theorem atMostOne (db : SubscriptionDb) (party : OwnedSubscriberParty) :
    (activeRows db party).length ≤ 1 := by
  refine length_filter_rows_le_one db.subscriptions ?_
  rintro x - y - ⟨hx, hxactive⟩ ⟨hy, hyactive⟩
  exact shares_subscription.2 (Or.inr ⟨hxactive, hyactive, hx.trans hy.symm⟩)

theorem eq_singleton {α : Type} {l : List α} {a : α} (hle : l.length ≤ 1) (ha : a ∈ l) :
    l = [a] := by
  match l, hle, ha with
  | [_], _, ha => rw [mem_singleton.1 ha]

section

variable (hs : SubscriptionSound db)
include hs

theorem SubscriptionSound.exactlyOne (hrow : ∃ y ∈ db.subscriptions.rows, y.subscriber = party) :
    ∃ x, activeRows db party = [x] := by
  obtain ⟨chain, hchain⟩ := hs.chain party
  obtain ⟨y, hy, hparty⟩ := hrow
  rcases eq_nil_or_concat chain with rfl | ⟨_, x, rfl⟩
  · cases (hchain.mem y).2 ⟨hy, hparty⟩
  · rw [concat_eq_append] at hchain
    obtain ⟨hx, hxparty⟩ := (hchain.mem x).1 (by simp)
    have hact := hchain.active x (by simp)
    exact ⟨x, eq_singleton (atMostOne db party) (mem_activeRows.2 ⟨hx, hxparty, hact⟩)⟩

theorem SubscriptionSound.successor (hx : x ∈ db.subscriptions.rows)
    (hstate : x.lifecycleState = .superseded) :
    ∃ y ∈ db.subscriptions.rows, y.subscriber = x.subscriber ∧ x.supersededById = some y.id := by
  obtain ⟨chain, hchain⟩ := hs.chain x.subscriber
  have hmem : x ∈ chain := (hchain.mem x).2 ⟨hx, rfl⟩
  rcases eq_nil_or_concat chain with rfl | ⟨_, e, rfl⟩
  · cases hmem
  rw [concat_eq_append] at hchain hmem
  rcases mem_append.1 hmem with hl | hlast
  · obtain ⟨y, hy, hfoll⟩ := exists_follows hchain.follows hl
    obtain ⟨hyrow, hyparty⟩ := (hchain.mem y).1 hy
    rcases hfoll with ⟨-, hid⟩ | ⟨hcanc, -⟩
    · exact ⟨y, hyrow, hyparty, hid⟩
    · rw [hstate] at hcanc
      cases hcanc
  · rw [mem_singleton.1 hlast, hchain.active e (by simp)] at hstate
    cases hstate

theorem SubscriptionSound.includedGrant
    (hx : x ∈ db.subscriptions.rows) : ∃ g, includedGrants db x.id = [g] ∧
      g.quantity = x.snapshot.includedBookingCredits := by
  obtain ⟨g, hg, hid, hqty⟩ := hs.granted x hx
  have hle : (includedGrants db x.id).length ≤ 1 := by
    refine length_filter_rows_le_one db.grants ?_
    rintro g₁ hg₁ g₂ hg₂ ⟨hid₁, hsource₁⟩ ⟨hid₂, hsource₂⟩
    obtain ⟨t₁, ht₁, -, rfl⟩ := mem_rows.1 hg₁
    obtain ⟨t₂, ht₂, -, rfl⟩ := mem_rows.1 hg₂
    exact shares_grant.2 (Or.inr ⟨hid₁.trans hid₂.symm, hsource₁.trans hsource₂.symm,
      (hs.initial t₁ ht₁).trans (hs.initial t₂ ht₂).symm⟩)
  refine ⟨g, eq_singleton hle ?_, hqty⟩
  simp [includedGrants, hg, hid]

end

/-- Every interleaving of ensures, selections and cancellations keeps one active subscription of
each party. -/
theorem oneActive_run {es : List (Step SubscriptionCall SubscriptionEnv)}
    {s : System SubscriptionDb Unit SubscriptionPlace}
    (hrun : runFrom subscriptionService.step (subscriptionService.start .empty) es = some s) :
    OneActive s := by
  have hstart : subscriptionOutline.Holds (subscriptionService.start .empty) :=
    subscriptionProof.proof.holds_start subscriptionSound_empty nothing_empty
  obtain ⟨h, -⟩ := subscriptionProof.proof.holds_run hstart (along_meets (fun _ _ _ _ => trivial) es) hrun
  have hsound : SubscriptionSound s.db := h.sound
  refine ⟨atMostOne s.db, ?_, fun x hx => hsound.successor hx, hsound.chain,
    fun x hx => hsound.includedGrant hx, ?_⟩
  · intro pid party outcome subscription hat
    have hwork : SubscriptionWork s.db pid (s.calls pid) := h.work pid
    rw [hat] at hwork
    exact hsound.exactlyOne hwork.2
  · intro pid hat
    have hwork : SubscriptionWork s.db pid (s.calls pid) := h.work pid
    rw [hat] at hwork
    exact hwork.2 rfl

/-! ## Two first selections -/

namespace FirstSelections

def seller : OwnedSubscriberParty := ⟨.professional, 1⟩

/-- A base plan version, and one to select, both for nothing. -/
def catalogue : Catalogue where
  versions :=
    [⟨10, "base", 1, .published, none, 0, 1, 1, [], 30, none, true, 0, none⟩,
      ⟨20, "pro", 1, .published, none, 50, 5, 1, [], 30, none, false, 0, none⟩]
  scheduleVersions := [⟨30, "IRT"⟩]
  tiers := [⟨30, 1, some 1, 0⟩]

/-- The statements of a call, one after the other, each with an id of its own. -/
def takes (pid first n : ℕ) : List (Step SubscriptionCall SubscriptionEnv) :=
  (List.range' first n).map fun id => ⟨pid, .statement ⟨100, id, catalogue, true⟩⟩

/-- Both read that the party has no subscription; the second one loses the race for the base
workspace.  Then the party cancels. -/
def race : List (Step SubscriptionCall SubscriptionEnv) :=
  ⟨0, .start (.applyPlanSelection seller "pro" 1 7)⟩ :: takes 0 100 5 ++
    ⟨1, .start (.applyPlanSelection seller "pro" 1 8)⟩ :: takes 1 200 5 ++ takes 0 105 9 ++
      takes 1 205 4 ++ ⟨2, .start (.applyCancellation seller 7)⟩ :: takes 2 300 8

end FirstSelections

theorem oneActive_run_firstSelections : ∃ s,
    runFrom subscriptionService.step (subscriptionService.start .empty) FirstSelections.race =
      some s ∧ OneActive s := by
  have hsome : (runFrom subscriptionService.step (subscriptionService.start .empty)
      FirstSelections.race).isSome = true := by decide +kernel
  obtain ⟨s, hs⟩ := isSome_iff_exists.1 hsome
  exact ⟨s, hs, oneActive_run hs⟩

end BeauClick.Subscriptions
