import BeauClick.Subscriptions.Chain

/-!
# What a transaction on the subscriptions has written

* `Draft` — what a transaction has written: nothing, a new row, an ended row, or both.
* `SubscriptionWork` — what a call relies on, place by place.
* `kept_insert`, `kept_update` — a statement goes from draft to draft.
-/

namespace BeauClick.Subscriptions

open Mvcc Runs Transactions Heap List Option

/-! ## What holds of the tables -/

/-- The grant of an activation. -/
def Covers (g : BookingCreditGrant) (x : SellerSubscription) : Prop :=
  g.subscriptionId = x.id ∧ g.quantity = x.snapshot.includedBookingCredits

/-- What the rows say of one another. -/
structure SubscriptionSound (db : SubscriptionDb) : Prop where
  ids : ∀ t ∈ db.subscriptions.tuples, db.generated t.row.id ≠ none
  grantIds : ∀ t ∈ db.grants.tuples,
    db.generated t.row.id ≠ none ∧ db.generated t.row.subscriptionId ≠ none
  initial : ∀ t ∈ db.grants.tuples, t.row.periodIndex = initialGrantPeriodIndex
  frozen : ∀ t ∈ db.subscriptions.tuples, ∀ t' ∈ db.subscriptions.tuples,
    t.row.id = t'.row.id → t.row.terms = t'.row.terms
  named : ∀ t ∈ db.subscriptions.tuples, t.row.lifecycleState ≠ .superseded →
    t.row.supersededById = none
  chain : ∀ party, ∃ chain, OneChain db.subscriptions.rows party chain
  granted : ∀ x ∈ db.subscriptions.rows, ∃ g ∈ db.grants.rows, Covers g x

/-- Committed subscriptions stay, with their terms, and ids are not given back. -/
structure SubscriptionProgress (db db' : SubscriptionDb) : Prop where
  rows : ∀ x ∈ db.subscriptions.rows, ∃ x' ∈ db'.subscriptions.rows, x'.terms = x.terms
  generated : ∀ id pid, db.generated id = some pid → db'.generated id = some pid

/-- What a step of another call leaves to a call. -/
structure SubscriptionLeaves (pid : ℕ) (db db' : SubscriptionDb) : Prop where
  progress : SubscriptionProgress db db'
  subscriptions : db'.subscriptions.touched pid = db.subscriptions.touched pid
  grants : db'.grants.touched pid = db.grants.touched pid
  unused : ∀ id, db.generated id = some pid →
    (∀ t ∈ db.subscriptions.tuples, t.row.id ≠ id) → ∀ t ∈ db'.subscriptions.tuples, t.row.id ≠ id
  ungranted : ∀ id, db.generated id = some pid →
    (∀ t ∈ db.grants.tuples, t.row.subscriptionId ≠ id) →
      ∀ t ∈ db'.grants.tuples, t.row.subscriptionId ≠ id

/-! ## What a transaction has written -/

/-- What a transaction has written to the subscriptions; `own` tells whether it had inserted the
row itself that it has ended. -/
inductive Draft where
  | nothing
  | assigned (x : SellerSubscription)
  | ended (own : Bool) (e e' : SellerSubscription)
  | replaced (own : Bool) (e e' x : SellerSubscription)

namespace Draft

/-- The version that is ended. -/
def before (pid : ℕ) (own : Bool) (e : SellerSubscription) : Tuple ℕ SellerSubscription :=
  ⟨e, if own then some pid else none, some pid⟩

/-- The versions of a draft. -/
def tuples (pid : ℕ) : Draft → Set (Tuple ℕ SellerSubscription)
  | nothing => ∅
  | assigned x => {⟨x, some pid, none⟩}
  | ended own e e' => {⟨e', some pid, none⟩, before pid own e}
  | replaced own e e' x => {⟨x, some pid, none⟩, ⟨e', some pid, none⟩, before pid own e}

/-- The rows that are new. -/
def fresh : Draft → List SellerSubscription
  | nothing => []
  | assigned x => [x]
  | ended own e _ => if own then [e] else []
  | replaced own e _ x => x :: if own then [e] else []

/-- An active subscription of the party was ended. -/
structure Ends (party : OwnedSubscriberParty) (e e' : SellerSubscription) : Prop where
  subscriber : e.subscriber = party
  active : e.lifecycleState = .active
  ended : e'.lifecycleState ≠ .active
  terms : e'.terms = e.terms

/-- A draft is about one party. -/
def Ok (party : OwnedSubscriberParty) : Draft → Prop
  | nothing => True
  | assigned x => x.subscriber = party ∧ x.lifecycleState = .active
  | ended _ e e' => Ends party e e'
  | replaced _ e e' x =>
    Ends party e e' ∧ x.subscriber = party ∧ x.lifecycleState = .active ∧ Follows e' x

end Draft

/-- What a transaction has written: its draft, and the grants of some of the new rows. -/
structure Drafts (db : SubscriptionDb) (pid : ℕ) (party : OwnedSubscriberParty) (draft : Draft)
    (granted : List SellerSubscription) : Prop where
  subscriptions : db.subscriptions.touched pid = draft.tuples pid
  ok : draft.Ok party
  ids : ∀ x ∈ draft.fresh, db.generated x.id = some pid
  grants : ∀ t ∈ db.grants.touched pid, t.insertedBy = some pid ∧ t.deletedBy = none
  covered : ∀ x ∈ granted, ∃ t ∈ db.grants.touched pid, Covers t.row x

/-- The transaction has written nothing. -/
def Nothing (db : SubscriptionDb) (pid : ℕ) : Prop :=
  db.subscriptions.touched pid = ∅ ∧ db.grants.touched pid = ∅

/-- An id that the call has made, and nobody has used. -/
structure NewId (db : SubscriptionDb) (pid : ℕ) (id : Uuid) : Prop where
  generated : db.generated id = some pid
  unused : ∀ t ∈ db.subscriptions.tuples, t.row.id ≠ id
  ungranted : ∀ t ∈ db.grants.tuples, t.row.subscriptionId ≠ id

/-- A committed subscription of the party, but for transitions since. -/
def Known (db : SubscriptionDb) (party : OwnedSubscriberParty) (x : SellerSubscription) : Prop :=
  x.subscriber = party ∧ ∃ y ∈ db.subscriptions.rows, y.terms = x.terms

/-- What `ensureBaseSubscriptionWithin` has returned. -/
def Ensured (db : SubscriptionDb) (pid : ℕ) (party : OwnedSubscriberParty)
    (x : SellerSubscription) : Prop :=
  Nothing db pid ∧ Known db party x ∨ Drafts db pid party (.assigned x) [x]

/-- The current subscription is ended, and its successor not yet inserted. -/
def Ending (db : SubscriptionDb) (pid : ℕ) (party : OwnedSubscriberParty)
    (P : SellerSubscription → Prop) : Prop :=
  ∃ own e e', P e' ∧ Drafts db pid party (.ended own e e') (Draft.ended own e e').fresh

/-- A subscription is inserted, and its grant is not. -/
def Pending (db : SubscriptionDb) (pid : ℕ) (party : OwnedSubscriberParty)
    (x : SellerSubscription) : Activation → Prop
  | .base _ => Drafts db pid party (.assigned x) []
  | .change _ => ∃ own e e', Drafts db pid party (.replaced own e e' x) (if own then [e] else [])

/-- What a transaction has written at its commit. -/
inductive Complete (db : SubscriptionDb) (pid : ℕ) (party : OwnedSubscriberParty) : Prop where
  | nothing (h : Nothing db pid) (hrow : ∃ y ∈ db.subscriptions.rows, y.subscriber = party)
  | assigned (x : SellerSubscription) (h : Drafts db pid party (.assigned x) [x])
  | replaced (own : Bool) (e e' x : SellerSubscription)
      (h : Drafts db pid party (.replaced own e e' x) (Draft.replaced own e e' x).fresh)

/-- What a call has read and written, place by place. -/
def SubscriptionWork (db : SubscriptionDb) (pid : ℕ) : SubscriptionPlace → Prop
  | .checkingBase party _ current | .cancelling party _ current =>
    Nothing db pid ∧ Known db party current
  | .targeting party _ _ _ _ current => Ensured db pid party current
  | .superseding party current _ _ successorId =>
    Ensured db pid party current ∧ NewId db pid successorId
  | .insertingSuccessor party _ _ successorId =>
    Ending db pid party (fun e' => e'.lifecycleState = .superseded ∧
      e'.supersededById = some successorId) ∧ NewId db pid successorId
  | .resolvingRestored party | .insertingRestored party _ =>
    Ending db pid party fun e' => e'.lifecycleState = .cancelled ∧ e'.supersededById = none
  | .findingGrant party x activation | .insertingGrant party x activation =>
    Pending db pid party x activation ∧ ∀ t ∈ db.grants.tuples, t.row.subscriptionId ≠ x.id
  | .committing party _ _ => Complete db pid party
  | .returned party _ _ => Nothing db pid ∧ ∃ y ∈ db.subscriptions.rows, y.subscriber = party
  | .threw failure => Nothing db pid ∧ failure ≠ .uniqueViolation
  | _ => Nothing db pid

variable {db db' db'' : SubscriptionDb} {pid q : ℕ} {party : OwnedSubscriberParty} {id : Uuid}
  {x y e e' : SellerSubscription} {draft : Draft} {granted : List SellerSubscription}
  {place place' : SubscriptionPlace} {env : SubscriptionEnv} {where' : SellerSubscription → Prop}
  {patch : SellerSubscription → SellerSubscription} {g : BookingCreditGrant} {own : Bool}
  {version : PlanVersion} {failure : SubscriptionFailure} {hfree : db.grants.Free pid g}
  {t : Tuple ℕ SellerSubscription} {catalogue : Catalogue} {activation : Activation}

/-! ## What stays -/

theorem SubscriptionProgress.refl (db : SubscriptionDb) : SubscriptionProgress db db :=
  ⟨fun x hx => ⟨x, hx, rfl⟩, fun _ _ h => h⟩

theorem SubscriptionProgress.trans (h : SubscriptionProgress db db')
    (h' : SubscriptionProgress db' db'') : SubscriptionProgress db db'' := by
  refine ⟨?_, fun id pid hid => h'.generated id pid (h.generated id pid hid)⟩
  intro x hx
  obtain ⟨x', hx', hterms⟩ := h.rows x hx
  obtain ⟨x'', hx'', hterms'⟩ := h'.rows x' hx'
  exact ⟨x'', hx'', hterms'.trans hterms⟩

theorem SubscriptionProgress.known (h : SubscriptionProgress db db') (hx : Known db party x) :
    Known db' party x := by
  obtain ⟨hparty, y, hy, hterms⟩ := hx
  obtain ⟨y', hy', hterms'⟩ := h.rows y hy
  exact ⟨hparty, y', hy', hterms'.trans hterms⟩

theorem SubscriptionProgress.row (h : SubscriptionProgress db db')
    (hrow : ∃ y ∈ db.subscriptions.rows, y.subscriber = party) :
    ∃ y ∈ db'.subscriptions.rows, y.subscriber = party := by
  obtain ⟨y, hy, hparty⟩ := hrow
  obtain ⟨y', hy', hterms⟩ := h.rows y hy
  exact ⟨y', hy', (eq_of_terms hterms).2.1.trans hparty⟩

namespace SubscriptionLeaves

section

variable (h : SubscriptionLeaves pid db db')
include h

theorem nothing (hn : Nothing db pid) : Nothing db' pid :=
  ⟨h.subscriptions.trans hn.1, h.grants.trans hn.2⟩

theorem drafts (hd : Drafts db pid party draft granted) :
    Drafts db' pid party draft granted where
  subscriptions := h.subscriptions.trans hd.subscriptions
  ok := hd.ok
  ids := fun x hx => h.progress.generated x.id pid (hd.ids x hx)
  grants := by
    rw [h.grants]
    exact hd.grants
  covered := by
    rw [h.grants]
    exact hd.covered

theorem newId (hid : NewId db pid id) : NewId db' pid id :=
  ⟨h.progress.generated id pid hid.generated, h.unused id hid.generated hid.unused,
    h.ungranted id hid.generated hid.ungranted⟩

theorem ensured (hx : Ensured db pid party x) :
    Ensured db' pid party x :=
  hx.imp (fun hx => ⟨h.nothing hx.1, h.progress.known hx.2⟩) h.drafts

theorem ending {P : SellerSubscription → Prop}
    (he : Ending db pid party P) : Ending db' pid party P := by
  obtain ⟨own, e, e', hP, hd⟩ := he
  exact ⟨own, e, e', hP, h.drafts hd⟩

theorem pending {activation : Activation}
    (hp : Pending db pid party x activation ∧ ∀ t ∈ db.grants.tuples, t.row.subscriptionId ≠ x.id) :
    Pending db' pid party x activation ∧
      ∀ t ∈ db'.grants.tuples, t.row.subscriptionId ≠ x.id := by
  obtain ⟨hp, hgrants⟩ := hp
  cases activation with
  | base =>
    have hid : db.generated x.id = some pid := hp.ids x (mem_singleton_self x)
    exact ⟨h.drafts hp, h.ungranted x.id hid hgrants⟩
  | change =>
    obtain ⟨own, e, e', hd⟩ := hp
    have hid : db.generated x.id = some pid := hd.ids x mem_cons_self
    exact ⟨⟨own, e, e', h.drafts hd⟩, h.ungranted x.id hid hgrants⟩

theorem complete (hc : Complete db pid party) :
    Complete db' pid party := by
  cases hc with
  | nothing hn hrow => exact .nothing (h.nothing hn) (h.progress.row hrow)
  | assigned x hd => exact .assigned x (h.drafts hd)
  | replaced own e e' x hd => exact .replaced own e e' x (h.drafts hd)

theorem work (hw : SubscriptionWork db pid place) :
    SubscriptionWork db' pid place := by
  cases place with
  | checkingBase | cancelling => exact ⟨h.nothing hw.1, h.progress.known hw.2⟩
  | targeting => exact h.ensured hw
  | superseding => exact ⟨h.ensured hw.1, h.newId hw.2⟩
  | insertingSuccessor => exact ⟨h.ending hw.1, h.newId hw.2⟩
  | resolvingRestored | insertingRestored => exact h.ending hw
  | findingGrant | insertingGrant => exact h.pending hw
  | committing => exact h.complete hw
  | returned => exact ⟨h.nothing hw.1, h.progress.row hw.2⟩
  | threw => exact ⟨h.nothing hw.1, hw.2⟩
  | idle | findingActive | checkingEligible | resolvingBase | insertingBase | rereading | selecting
  | findingExisting | findingCurrent => exact h.nothing hw

end

end SubscriptionLeaves

/-! ## What a call writes -/

/-- What a statement of a call keeps. -/
structure SubscriptionKept (pid : ℕ) (db db' : SubscriptionDb) : Prop where
  sound : SubscriptionSound db'
  progress : SubscriptionProgress db db'
  leaves : ∀ q, q ≠ pid → SubscriptionLeaves q db db'

theorem SubscriptionKept.refl (hs : SubscriptionSound db) : SubscriptionKept pid db db :=
  ⟨hs, .refl db, fun _ _ => ⟨.refl db, rfl, rfl, fun _ _ h => h, fun _ _ h => h⟩⟩

theorem SubscriptionLeaves.trans (h : SubscriptionLeaves pid db db')
    (h' : SubscriptionLeaves pid db' db'') : SubscriptionLeaves pid db db'' where
  progress := h.progress.trans h'.progress
  subscriptions := h'.subscriptions.trans h.subscriptions
  grants := h'.grants.trans h.grants
  unused := fun id hid hunused =>
    h'.unused id (h.progress.generated id pid hid) (h.unused id hid hunused)
  ungranted := fun id hid hungranted =>
    h'.ungranted id (h.progress.generated id pid hid) (h.ungranted id hid hungranted)

theorem SubscriptionKept.trans (h : SubscriptionKept pid db db')
    (h' : SubscriptionKept pid db' db'') : SubscriptionKept pid db db'' :=
  ⟨h'.sound, h.progress.trans h'.progress, fun q hq => (h.leaves q hq).trans (h'.leaves q hq)⟩

theorem leaves_generate (hid : db.generated id = none) :
    SubscriptionLeaves q db (db.generate pid id) := by
  refine ⟨⟨fun x hx => ⟨x, hx, rfl⟩, ?_⟩, rfl, rfl, fun _ _ h => h, fun _ _ h => h⟩
  intro id' q hq
  have hne : id' ≠ id := by
    rintro rfl
    cases hid.symm.trans hq
  exact (Function.update_of_ne hne ..).trans hq

theorem kept_generate (hs : SubscriptionSound db) (hid : db.generated id = none) :
    SubscriptionKept pid db (db.generate pid id) := by
  have hprog : SubscriptionProgress db (db.generate pid id) :=
    (leaves_generate (q := pid) hid).progress
  have hmade : ∀ id', db.generated id' ≠ none → (db.generate pid id).generated id' ≠ none := by
    intro id' hid'
    obtain ⟨q, hq⟩ := ne_none_iff_exists'.1 hid'
    rw [hprog.generated id' q hq]
    exact some_ne_none q
  refine ⟨⟨fun t ht => hmade _ (hs.ids t ht), ?_, hs.initial, hs.frozen, hs.named, hs.chain,
    hs.granted⟩, hprog, fun q _ => leaves_generate hid⟩
  exact fun t ht => ⟨hmade _ (hs.grantIds t ht).1, hmade _ (hs.grantIds t ht).2⟩

theorem newId_generate (hs : SubscriptionSound db) (hid : db.generated id = none) :
    NewId (db.generate pid id) pid id := by
  refine ⟨Function.update_self .., ?_, ?_⟩
  · rintro t ht rfl
    exact hs.ids t ht hid
  · rintro t ht rfl
    exact (hs.grantIds t ht).2 hid

theorem kept_insert (hs : SubscriptionSound db) {hfree : db.subscriptions.Free pid x}
    (hid : NewId db pid x.id) (hnamed : x.supersededById = none) :
    SubscriptionKept pid db { db with subscriptions := db.subscriptions.add pid x hfree } := by
  have hprog : SubscriptionProgress db
      { db with subscriptions := db.subscriptions.add pid x hfree } :=
    ⟨fun y hy => ⟨y, (mem_rows_add hfree).2 hy, rfl⟩, fun _ _ h => h⟩
  refine ⟨⟨?_, hs.grantIds, hs.initial, ?_, ?_, ?_, ?_⟩, hprog,
    fun q hq => ⟨hprog, touched_add_of_ne hfree hq, rfl, ?_, fun _ _ h => h⟩⟩
  · intro t ht
    rcases (mem_add hfree).1 ht with rfl | ht
    · rw [hid.generated]
      exact some_ne_none pid
    · exact hs.ids t ht
  · intro t ht t' ht' heq
    rcases (mem_add hfree).1 ht with rfl | ht <;> rcases (mem_add hfree).1 ht' with rfl | ht'
    · rfl
    · exact absurd heq.symm (hid.unused t' ht')
    · exact absurd heq (hid.unused t ht)
    · exact hs.frozen t ht t' ht' heq
  · intro t ht hstate
    rcases (mem_add hfree).1 ht with rfl | ht
    · exact hnamed
    · exact hs.named t ht hstate
  · intro party
    obtain ⟨chain, hchain⟩ := hs.chain party
    exact ⟨chain, hchain.congr fun _ _ => (mem_rows_add hfree)⟩
  · exact fun y hy => hs.granted y ((mem_rows_add hfree).1 hy)
  · intro id' hid' hunused t ht
    rcases (mem_add hfree).1 ht with rfl | ht
    · rintro rfl
      exact hq (some.inj (hid'.symm.trans hid.generated))
    · exact hunused t ht

/-- A transition of active subscriptions. -/
structure Transition (where' : SellerSubscription → Prop)
    (patch : SellerSubscription → SellerSubscription) : Prop where
  active : ∀ x, where' x → x.lifecycleState = .active
  ended : ∀ x, (patch x).lifecycleState ≠ .active
  terms : ∀ x, (patch x).terms = x.terms
  named : ∀ x, x.supersededById = none → (patch x).lifecycleState ≠ .superseded →
    (patch x).supersededById = none

theorem terms_of_mem_replace [DecidablePred where'] (htrans : Transition where' patch)
    (hkeys : ∀ x, subscriptionKeys (patch x) ⊆ subscriptionKeys x)
    (hnone : ∀ t ∈ db.subscriptions.matched pid where', t.deletedBy = none)
    (ht : t ∈ (db.subscriptions.replace pid where' patch hkeys hnone).tuples) :
    ∃ u ∈ db.subscriptions.tuples, t.row.terms = u.row.terms := by
  rcases (mem_replace hkeys hnone).1 ht with ⟨u, hu, rfl⟩ | ⟨u, hu, rfl⟩
  · exact ⟨u, (mem_matched.1 hu).1, htrans.terms u.row⟩
  · exact ⟨u, hu, by rw [row_mark]⟩

theorem kept_update (hs : SubscriptionSound db) [DecidablePred where']
    (htrans : Transition where' patch)
    (hkeys : ∀ x, subscriptionKeys (patch x) ⊆ subscriptionKeys x)
    (hnone : ∀ t ∈ db.subscriptions.matched pid where', t.deletedBy = none) :
    SubscriptionKept pid db
      { db with subscriptions := db.subscriptions.replace pid where' patch hkeys hnone } := by
  have hprog : SubscriptionProgress db
      { db with subscriptions := db.subscriptions.replace pid where' patch hkeys hnone } :=
    ⟨fun y hy => ⟨y, (mem_rows_replace hkeys hnone).2 hy, rfl⟩, fun _ _ h => h⟩
  refine ⟨⟨?_, hs.grantIds, hs.initial, ?_, ?_, ?_, ?_⟩, hprog,
    fun q hq => ⟨hprog, touched_replace_of_ne hnone hkeys hq, rfl, ?_, fun _ _ h => h⟩⟩
  · intro t ht
    obtain ⟨u, hu, heq⟩ := terms_of_mem_replace htrans hkeys hnone ht
    rw [(eq_of_terms heq).1]
    exact hs.ids u hu
  · intro t ht t' ht' heq
    obtain ⟨u, hu, hterms⟩ := terms_of_mem_replace htrans hkeys hnone ht
    obtain ⟨u', hu', hterms'⟩ := terms_of_mem_replace htrans hkeys hnone ht'
    rw [hterms, hterms']
    refine hs.frozen u hu u' hu' ?_
    rw [← (eq_of_terms hterms).1, ← (eq_of_terms hterms').1, heq]
  · intro t ht hstate
    rcases (mem_replace hkeys hnone).1 ht with ⟨u, hu, rfl⟩ | ⟨u, hu, rfl⟩
    · obtain ⟨hmem, -, hwhere⟩ := mem_matched.1 hu
      refine htrans.named u.row (hs.named u hmem ?_) hstate
      rw [htrans.active u.row hwhere]
      decide
    · rw [row_mark] at hstate ⊢
      exact hs.named u hu hstate
  · intro party
    obtain ⟨chain, hchain⟩ := hs.chain party
    exact ⟨chain, hchain.congr fun _ _ => (mem_rows_replace hkeys hnone)⟩
  · exact fun y hy => hs.granted y ((mem_rows_replace hkeys hnone).1 hy)
  · intro id' _ hunused t ht
    obtain ⟨u, hu, heq⟩ := terms_of_mem_replace htrans hkeys hnone ht
    rw [(eq_of_terms heq).1]
    exact hunused u hu

theorem kept_grant (hs : SubscriptionSound db) (hid : db.generated g.id ≠ none)
    (hsubscription : db.generated g.subscriptionId = some pid)
    (hperiod : g.periodIndex = initialGrantPeriodIndex) :
    SubscriptionKept pid db { db with grants := db.grants.add pid g hfree } := by
  have hprog : SubscriptionProgress db { db with grants := db.grants.add pid g hfree } :=
    ⟨fun y hy => ⟨y, hy, rfl⟩, fun _ _ h => h⟩
  refine ⟨⟨hs.ids, ?_, ?_, hs.frozen, hs.named, hs.chain, ?_⟩, hprog,
    fun q hq => ⟨hprog, rfl, touched_add_of_ne hfree hq, fun _ _ h => h, ?_⟩⟩
  · intro t ht
    rcases (mem_add hfree).1 ht with rfl | ht
    · refine ⟨hid, ?_⟩
      rw [hsubscription]
      exact some_ne_none pid
    · exact hs.grantIds t ht
  · intro t ht
    rcases (mem_add hfree).1 ht with rfl | ht
    · exact hperiod
    · exact hs.initial t ht
  · intro y hy
    obtain ⟨g', hg', hcovers⟩ := hs.granted y hy
    exact ⟨g', (mem_rows_add hfree).2 hg', hcovers⟩
  · intro id' hid' hungranted t ht
    rcases (mem_add hfree).1 ht with rfl | ht
    · rintro rfl
      exact hq (some.inj (hid'.symm.trans hsubscription))
    · exact hungranted t ht

/-- A transaction that ends leaves the versions that there were, and those of the others. -/
theorem kept_of_versions (hs : SubscriptionSound db) (hgenerated : db'.generated = db.generated)
    (hold : ∀ t ∈ db'.subscriptions.tuples, ∃ u ∈ db.subscriptions.tuples, t.row = u.row)
    (holdGrants : ∀ t ∈ db'.grants.tuples, ∃ u ∈ db.grants.tuples, t.row = u.row)
    (hprog : SubscriptionProgress db db')
    (htouch : ∀ q ≠ pid, db'.subscriptions.touched q = db.subscriptions.touched q ∧
      db'.grants.touched q = db.grants.touched q)
    (hchain : ∀ party, ∃ chain, OneChain db'.subscriptions.rows party chain)
    (hgrant : ∀ y ∈ db'.subscriptions.rows, ∃ g ∈ db'.grants.rows, Covers g y) :
    SubscriptionKept pid db db' := by
  refine ⟨⟨?_, ?_, ?_, ?_, ?_, hchain, hgrant⟩, hprog, fun q hq => ⟨hprog,
    (htouch q hq).1, (htouch q hq).2, ?_, ?_⟩⟩
  · intro t ht
    obtain ⟨u, hu, heq⟩ := hold t ht
    rw [heq, hgenerated]
    exact hs.ids u hu
  · intro t ht
    obtain ⟨u, hu, heq⟩ := holdGrants t ht
    rw [heq, hgenerated]
    exact hs.grantIds u hu
  · intro t ht
    obtain ⟨u, hu, heq⟩ := holdGrants t ht
    rw [heq]
    exact hs.initial u hu
  · intro t ht t' ht'
    obtain ⟨u, hu, heq⟩ := hold t ht
    obtain ⟨u', hu', heq'⟩ := hold t' ht'
    rw [heq, heq']
    exact hs.frozen u hu u' hu'
  · intro t ht
    obtain ⟨u, hu, heq⟩ := hold t ht
    rw [heq]
    exact hs.named u hu
  · intro id _ hunused t ht
    obtain ⟨u, hu, heq⟩ := hold t ht
    rw [heq]
    exact hunused u hu
  · intro id _ hungranted t ht
    obtain ⟨u, hu, heq⟩ := holdGrants t ht
    rw [heq]
    exact hungranted u hu

theorem kept_rollback (hs : SubscriptionSound db) : SubscriptionKept pid db (db.rollback pid) := by
  refine kept_of_versions hs rfl ?_ ?_
    ⟨fun y hy => ⟨y, mem_rows_rollback.2 hy, rfl⟩, fun _ _ h => h⟩
    (fun q hq => ⟨touched_rollback_of_ne hq, touched_rollback_of_ne hq⟩) ?_ ?_
  · intro t ht
    obtain ⟨u, hu, -, rfl⟩ := mem_rollback.1 ht
    exact ⟨u, hu, rfl⟩
  · intro t ht
    obtain ⟨u, hu, -, rfl⟩ := mem_rollback.1 ht
    exact ⟨u, hu, rfl⟩
  · intro party
    obtain ⟨chain, hchain⟩ := hs.chain party
    exact ⟨chain, hchain.congr fun _ _ => mem_rows_rollback⟩
  · intro y hy
    obtain ⟨g, hg, hcovers⟩ := hs.granted y (mem_rows_rollback.1 hy)
    exact ⟨g, mem_rows_rollback.2 hg, hcovers⟩

theorem nothing_rollback : Nothing (db.rollback pid) pid :=
  ⟨touched_rollback, touched_rollback⟩

theorem nothing_commit : Nothing (db.commit pid) pid := ⟨touched_commit, touched_commit⟩

/-! ## Statements -/

theorem shares_subscription : Shares subscriptionKeys x y ↔ x.id = y.id ∨
    x.lifecycleState = .active ∧ y.lifecycleState = .active ∧ x.subscriber = y.subscriber := by
  unfold Shares subscriptionKeys
  cases hx : x.lifecycleState <;> cases hy : y.lifecycleState <;> simp [eq_comm]

theorem shares_grant {g' : BookingCreditGrant} : Shares grantKeys g g' ↔ g.id = g'.id ∨
    g.subscriptionId = g'.subscriptionId ∧ g.source = g'.source ∧
      g.periodIndex = g'.periodIndex := by
  unfold Shares grantKeys
  simp

theorem not_active_of_ended (hd : Drafts db pid party (.ended own e e') granted)
    (ht : t ∈ db.subscriptions.tuples) (hvis : t.Visible pid) (hnone : t.deletedBy = none)
    (hparty : t.row.subscriber = party) : t.row.lifecycleState ≠ .active := by
  intro hact
  have hbef : Draft.before pid own e ∈ db.subscriptions.touched pid := by
    rw [hd.subscriptions]
    exact Or.inr rfl
  rcases hvis.1 with hcomm | hown
  · have hne : t ≠ Draft.before pid own e := by
      rintro rfl
      cases hnone
    have hshares : Shares subscriptionKeys t.row (Draft.before pid own e).row :=
      shares_subscription.2 (Or.inr ⟨hact, hd.ok.active, hparty.trans hd.ok.subscriber.symm⟩)
    obtain ⟨_, ⟨hdel, -⟩ | ⟨-, hins⟩⟩ :=
      db.subscriptions.apart_of_mem ht hbef.1 hne hshares
    · cases hnone.symm.trans hdel
    · cases hcomm.symm.trans hins
  · have htouch : t ∈ db.subscriptions.touched pid := ⟨ht, Or.inl hown⟩
    rw [hd.subscriptions] at htouch
    rcases htouch with rfl | rfl
    · exact hd.ok.ended hact
    · cases hnone

theorem not_blocked_of_ended (hd : Drafts db pid party (.ended own e e') granted)
    (hid : NewId db pid x.id) (hparty : x.subscriber = party) :
    ¬db.subscriptions.Blocked pid x := by
  rintro ⟨t, ht, hshares, hvis, hnone⟩
  rcases shares_subscription.1 hshares with heq | ⟨-, hact, heq⟩
  · exact hid.unused t ht heq.symm
  · exact not_active_of_ended hd ht hvis hnone (heq.symm.trans hparty) hact

theorem snapshotPriceOf_error (h : catalogue.snapshotPriceOf version = .error failure) :
    failure ≠ .uniqueViolation := by
  unfold Catalogue.snapshotPriceOf at h
  split at h
  · cases h
    rintro ⟨⟩
  · dsimp only at h
    split at h
    · split_ifs at h
      cases h
      rintro ⟨⟩
    · cases h
      rintro ⟨⟩

theorem requireAutoAssignableVersion_error {now : Instant}
    (h : catalogue.requireAutoAssignableVersion now = .error failure) :
    failure ≠ .uniqueViolation := by
  unfold Catalogue.requireAutoAssignableVersion at h
  split at h
  · cases h
  cases h
  rintro ⟨⟩

/-- The failure of a call is not a unique violation. -/
def Translated (place : SubscriptionPlace) : Prop :=
  ∃ failure, place = .threw failure ∧ failure ≠ .uniqueViolation

theorem translated (h : failure ≠ .uniqueViolation) :
    Translated (.threw failure) := ⟨failure, rfl, h⟩

/-- What is shown of a statement: none takes a lock, and only a call that has come to its commit
commits. -/
abbrev Shown (db : SubscriptionDb) (pid : ℕ) (place : SubscriptionPlace) : SubscriptionNext → Prop :=
  Next.Ends (fun db' place' => SubscriptionKept pid db db' ∧ SubscriptionWork db' pid place')
    (fun place' => ∃ party outcome subscription,
      place = .committing party outcome subscription ∧
        place' = .returned party outcome subscription) Translated

theorem shown_resolveBase {next : PlanVersion → SubscriptionPlace} (hs : SubscriptionSound db)
    (hw : ∀ version, SubscriptionWork db pid (next version)) :
    Shown db pid place (resolveBase env db next) := by
  unfold resolveBase
  split
  · exact ⟨.refl hs, hw _⟩
  · rename_i hver
    exact translated (requireAutoAssignableVersion_error hver)

theorem shown_insertBase {purpose : Purpose} (hs : SubscriptionSound db) (hw : Nothing db pid) :
    Shown db pid place (insertBase env db pid party purpose version) := by
  unfold insertBase
  split
  · rename_i hprice
    exact translated (snapshotPriceOf_error hprice)
  · rename_i price _
    split_ifs with hnew
    · trivial
    rw [not_not] at hnew
    have hkept : SubscriptionKept pid db (db.generate pid env.newId) := kept_generate hs hnew
    have hid : NewId (db.generate pid env.newId) pid env.newId := newId_generate hs hnew
    dsimp only
    split
    · trivial
    · exact ⟨hkept, hw⟩
    · rename_i hins
      obtain ⟨hfree, rfl⟩ := insertRow_eq_done hins
      refine ⟨hkept.trans (kept_insert hkept.sound hid rfl), ?_, hid.ungranted⟩
      refine ⟨?_, ⟨rfl, rfl⟩, ?_, ?_, ?_⟩
      · rw [touched_add hfree]
        have hnone : db.subscriptions.touched pid = ∅ := hw.1
        rw [hnone]
        exact insert_empty_eq _
      · intro x hx
        rw [mem_singleton.1 hx]
        exact hid.generated
      · intro t ht
        have hnone : t ∈ db.grants.touched pid := ht
        rw [hw.2] at hnone
        cases hnone
      · intro x hx
        cases hx

theorem matched_singleton [DecidablePred where']
    (h : (db.subscriptions.matched pid where').length = 1) :
    ∃ u, ∀ t, t ∈ db.subscriptions.matched pid where' ↔ t = u := by
  obtain ⟨u, hu⟩ := length_eq_one_iff.1 h
  refine ⟨u, ?_⟩
  intro t
  rw [hu, mem_singleton]

theorem shown_transition {next : SubscriptionPlace}
    {hkeys : ∀ x, subscriptionKeys (patch x) ⊆ subscriptionKeys x} (hs : SubscriptionSound db)
    (hw : Ensured db pid party x)
    (htrans : Transition (fun y => y.id = x.id ∧ y.lifecycleState = .active) patch)
    (hnext : ∀ db', (∀ id, NewId db pid id → NewId db' pid id) →
      Ending db' pid party (fun e' => ∃ e, e.supersededById = none ∧ e' = patch e) →
        SubscriptionWork db' pid next) :
    Shown db pid place (transition db pid x patch hkeys next) := by
  unfold transition
  split
  · trivial
  · rename_i hupd
    exact absurd hupd update_ne_violated
  · rename_i hupd
    split_ifs with haffected
    swap
    · exact translated (by decide)
    obtain ⟨heq, hnone, rfl⟩ := update_eq_done hupd
    rw [haffected] at heq
    obtain ⟨u, hone⟩ := matched_singleton heq.symm
    obtain ⟨hu, hvis, hid, hact⟩ := mem_matched.1 ((hone u).2 rfl)
    have hnamed : u.row.supersededById = none := by
      refine hs.named u hu ?_
      rw [hact]
      decide
    refine ⟨kept_update hs htrans hkeys hnone, hnext _ ?_ ?_⟩
    · intro id hnew
      refine ⟨hnew.generated, ?_, hnew.ungranted⟩
      intro t ht
      obtain ⟨u, hu, heq⟩ := terms_of_mem_replace htrans hkeys hnone ht
      rw [(eq_of_terms heq).1]
      exact hnew.unused u hu
    have htouch := touched_replace hnone hkeys hone
    rcases hw with ⟨hnothing, hparty, _, hy, hyterms⟩ | hd
    · have hcomm : u.insertedBy = none := by
        rcases hvis.1 with hcomm | hown
        · exact hcomm
        · have hmem : u ∈ db.subscriptions.touched pid := ⟨hu, Or.inl hown⟩
          rw [hnothing.1] at hmem
          cases hmem
      have hsubscriber : u.row.subscriber = party := by
        obtain ⟨t, ht, -, rfl⟩ := mem_rows.1 hy
        have hsame := hs.frozen u hu t ht (hid.trans (eq_of_terms hyterms).1.symm)
        exact ((eq_of_terms (hsame.trans hyterms)).2.1).trans hparty
      refine ⟨false, u.row, patch u.row, ⟨u.row, hnamed, rfl⟩, ?_, ?_, ?_, ?_, ?_⟩
      · rw [htouch, hnothing.1, Set.empty_sdiff, insert_empty_eq]
        obtain ⟨_, _, _⟩ := u
        cases hcomm
        rfl
      · exact ⟨hsubscriber, hact, htrans.ended _, htrans.terms _⟩
      · intro x hx
        cases hx
      · intro t ht
        have hmem : t ∈ db.grants.touched pid := ht
        rw [hnothing.2] at hmem
        cases hmem
      · intro x hx
        cases hx
    · have hmem : (⟨x, some pid, none⟩ : Tuple ℕ SellerSubscription) ∈
          db.subscriptions.touched pid := by
        rw [hd.subscriptions]
        rfl
      have hux : u = ⟨x, some pid, none⟩ :=
        eq_of_visible hu hmem.1 (shares_subscription.2 (Or.inl hid)) hvis
          ⟨Or.inr rfl, by simp⟩
      subst hux
      refine ⟨true, x, patch x, ⟨x, hnamed, rfl⟩, ?_, ?_, hd.ids, hd.grants, hd.covered⟩
      · rw [htouch, hd.subscriptions]
        simp only [Draft.tuples, Set.sdiff_self, insert_empty_eq]
        rfl
      · exact ⟨hd.ok.1, hd.ok.2, htrans.ended _, htrans.terms _⟩

theorem shown_insertActive {actorUserId : Option Uuid} {outcome : SubscriptionOutcome}
    (hkept : SubscriptionKept pid db db')
    (hd : Drafts db' pid party (.ended own e e') (Draft.ended own e e').fresh)
    (hid : NewId db' pid id) (hfoll : ∀ price, Follows e'
      (SellerSubscription.activated id party version price actorUserId env.now)) :
    Shown db pid place (insertActive env db' pid id party version actorUserId outcome) := by
  unfold insertActive
  split
  · rename_i hprice
    exact translated (snapshotPriceOf_error hprice)
  · rename_i price _
    dsimp only
    split
    · trivial
    · rename_i hins
      exact absurd (insertRow_eq_violated hins) (not_blocked_of_ended hd hid rfl)
    · rename_i hins
      obtain ⟨hfree, rfl⟩ := insertRow_eq_done hins
      refine ⟨hkept.trans (kept_insert hkept.sound hid rfl), ⟨own, e, e', ?_,
        ⟨hd.ok, rfl, rfl, hfoll price⟩, ?_, hd.grants, hd.covered⟩, hid.ungranted⟩
      · rw [touched_add hfree, hd.subscriptions]
        rfl
      · intro x hx
        rcases mem_cons.1 hx with rfl | hx
        · exact hid.generated
        · exact hd.ids x hx

theorem work_afterGrant (hp : Pending db pid party x activation) (hcovers : Covers g x) :
    SubscriptionWork { db with grants := db.grants.add pid g hfree } pid
      (afterGrant party x activation) := by
  have hdrafts : ∀ draft granted, Drafts db pid party draft granted →
      Drafts { db with grants := db.grants.add pid g hfree } pid party draft (x :: granted) := by
    intro draft granted hd
    have htouch := touched_add hfree
    refine ⟨hd.subscriptions, hd.ok, hd.ids, ?_, ?_⟩
    · intro t ht
      rw [htouch] at ht
      rcases ht with rfl | ht
      · exact ⟨rfl, rfl⟩
      · exact hd.grants t ht
    · intro y hy
      rw [htouch]
      rcases mem_cons.1 hy with rfl | hy
      · exact ⟨⟨g, some pid, none⟩, Or.inl rfl, hcovers⟩
      · obtain ⟨t, ht, hcovers'⟩ := hd.covered y hy
        exact ⟨t, Or.inr ht, hcovers'⟩
  cases activation with
  | base purpose =>
    cases purpose with
    | ensure => exact .assigned x (hdrafts _ _ hp)
    | select => exact Or.inr (hdrafts _ _ hp)
  | change =>
    obtain ⟨own, e, e', hd⟩ := hp
    exact .replaced own e e' x (hdrafts _ _ hd)

theorem not_blocked_grant (hs : SubscriptionSound db) (hnew : db.generated id = none)
    (hungranted : ∀ t ∈ db.grants.tuples, t.row.subscriptionId ≠ x.id) :
    ¬db.grants.Blocked pid (.included id x env.now) := by
  rintro ⟨t, ht, hshares, -⟩
  rcases shares_grant.1 hshares with heq | ⟨heq, -⟩
  · exact (hs.grantIds t ht).1 (heq ▸ hnew)
  · exact hungranted t ht heq.symm

theorem shown_insertGrant (hs : SubscriptionSound db)
    (hw : SubscriptionWork db pid (.insertingGrant party x activation)) :
    Shown db pid place (insertGrant env db pid party x activation) := by
  unfold insertGrant
  split_ifs with hnew
  · trivial
  rw [not_not] at hnew
  split
  · trivial
  · rename_i hins
    exact absurd (insertRow_eq_violated hins) (not_blocked_grant hs hnew hw.2)
  · rename_i hins
    obtain ⟨-, rfl⟩ := insertRow_eq_done hins
    have hkept : SubscriptionKept pid db (db.generate pid env.newId) := kept_generate hs hnew
    have hid : NewId (db.generate pid env.newId) pid env.newId := newId_generate hs hnew
    have hx : db.generated x.id = some pid := by
      obtain ⟨hp, -⟩ := hw
      cases activation with
      | base => exact hp.ids x (mem_singleton_self x)
      | change =>
        obtain ⟨_, _, _, hd⟩ := hp
        exact hd.ids x mem_cons_self
    have hp : Pending (db.generate pid env.newId) pid party x activation :=
      ((leaves_generate hnew).pending hw).1
    have hmade : (db.generate pid env.newId).generated env.newId ≠ none := by
      rw [hid.generated]
      exact some_ne_none pid
    exact ⟨hkept.trans (kept_grant hkept.sound hmade (hkept.progress.generated _ _ hx) rfl),
      work_afterGrant hp ⟨rfl, rfl⟩⟩

end BeauClick.Subscriptions
