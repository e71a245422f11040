import BeauClick.Wishlist.SavedItems

/-!
# The cap, and who is refused

The cap is counted before the insert, and the unique index decides.

* `savedProof` — the subject's advisory lock keeps the cap.
* `returnsSaved_run` — a save of what is there returns it.
* `refusedWhenFull_run` — only a list that is full without the target refuses.
* `saving_run` — the three together.
-/

namespace BeauClick.Wishlist

open Locks ReadCommitted ReadCommitted.Versioned Runs Transactions Removable List
open Function (update_self update_of_ne)

variable {hashtext : Uuid → ℤ} {env : WishlistEnv} {db db' : WishlistDb} {p q : ℕ}
  {place place' : SavePlace} {i : WishlistInput} {userId : Uuid} {key : Uuid × WishlistTargetRef}
  {o : Option WishlistSavedItemEntity}

/-! ## The condition -/

/-- A save that counts a full list does not find its target in it. -/
def CountsApart (s : System WishlistDb ℤ SavePlace) (e : Step WishlistRequest WishlistEnv) : Prop :=
  match e.action, s.calls e.pid with
  | .statement _, .count i =>
    wishlistMaxSavedItems ≤ held s.db e.pid i.userId → s.db.items.there i.key = none
  | _, _ => True

/-! ## What a call relies on -/

/-- The items are under their keys, and no user has too many. -/
structure SavedSound (db : WishlistDb) : Prop where
  key : ∀ k x, (db.items.row k).Version (some x) → x.key = k
  cap : ∀ userId, (savedBy db userId).encard ≤ wishlistMaxSavedItems

/-- There is a place left. -/
def Room (db : WishlistDb) (userId : Uuid) : Prop :=
  (savedBy db userId).encard < wishlistMaxSavedItems

/-- What a call has read and written, place by place. -/
def SaveWork (db : WishlistDb) (p : ℕ) : SavePlace → Prop
  | .check i | .insert i => db.items.Untouched p ∧ Room db i.userId
  | .readBack i _ | .finish i _ => db.items.OnlyAt p i.key ∧
      (db.items.Untouched p ∨ Room db i.userId)
  | .deleted i => db.items.OnlyAt p i.key ∧ ∀ x, ¬db.items.Wrote p i.key (some x)
  | _ => db.items.Untouched p

/-- The lock that a call has taken. -/
def SaveHolds (hashtext : Uuid → ℤ) : SavePlace → ℤ → LockMode → Prop
  | .count i, k, mode | .check i, k, mode | .insert i, k, mode | .raced i, k, mode
  | .readBack i _, k, mode | .finish i _, k, mode =>
    k = hashtext i.userId ∧ mode = .exclusive
  | _, _, _ => False

/-- What holds of the items, and what a call relies on. -/
def savedOutline (hashtext : Uuid → ℤ) : Outline WishlistDb ℤ SavePlace WishlistEnv where
  Assumes := fun _ _ _ _ => True
  Sound := SavedSound
  Guarantee := fun _ _ => True
  Work := SaveWork
  holds := SaveHolds hashtext

/-! ## What a step leaves to the calls beside it -/

theorem Room.mono (h : Room db userId) (hsub : savedBy db' userId ⊆ savedBy db userId) :
    Room db' userId := (Set.encard_le_encard hsub).trans_lt h

/-- The user whose place a call has found free, under the lock. -/
def SavePlace.counting : SavePlace → Option Uuid
  | .check i | .insert i | .readBack i _ | .finish i _ => some i.userId
  | _ => none

theorem saveWork_beside (h : SaveWork db q place) (ho : Others q db.items db'.items)
    (hroom : ∀ userId, place.counting = some userId → Room db userId → Room db' userId) :
    SaveWork db' q place := by
  cases place with
  | check | insert => exact ⟨ho.untouched h.1, hroom _ rfl h.2⟩
  | readBack | finish => exact ⟨ho.onlyAt h.1, h.2.imp ho.untouched (hroom _ rfl)⟩
  | deleted => exact ⟨ho.onlyAt h.1, fun x hx => h.2 x (ho.wrote_iff.1 hx)⟩
  | _ => exact ho.untouched h

theorem keeps_of_subset (hs : SavedSound db)
    (hkey : ∀ k x, (db'.items.row k).Version (some x) → x.key = k)
    (ho : ∀ q ≠ p, Others q db.items db'.items)
    (hsub : ∀ userId, savedBy db' userId ⊆ savedBy db userId) :
    (savedOutline hashtext).Keeps db p place db' where
  sound := ⟨hkey, fun userId => (Set.encard_le_encard (hsub userId)).trans (hs.cap userId)⟩
  guarantee := trivial
  others := fun q _ hq _ hw =>
    saveWork_beside hw (ho q hq) fun userId _ hroom => hroom.mono (hsub userId)

theorem savedBy_congr (h : db'.items.committed = db.items.committed) (userId : Uuid) :
    savedBy db' userId = savedBy db userId := by
  unfold savedBy there
  rw [h]

theorem savedBy_write (userId : Uuid) :
    savedBy ⟨db.items.write p key o⟩ userId = savedBy db userId := by
  simp only [savedBy, there_write]

theorem keeps_refl (hs : SavedSound db) : (savedOutline hashtext).Keeps db p place db :=
  keeps_of_subset hs hs.key (fun _ _ => .refl) fun _ => subset_rfl

theorem keeps_rollback (hs : SavedSound db) :
    (savedOutline hashtext).Keeps db p place (db.rollback p) := by
  have hcomm : (db.rollback p).items.committed = db.items.committed := committed_rollback
  refine keeps_of_subset hs (fun k x hx => hs.key k x (Row.version_of_rollback hx))
    (fun q hq => others_rollback hq) fun userId => ?_
  rw [savedBy_congr hcomm]

theorem keeps_write (hs : SavedSound db) (hlock : ¬(db.items.row key).Locked p)
    (ho : ∀ x, o = some x → x.key = key) :
    (savedOutline hashtext).Keeps db p place ⟨db.items.write p key o⟩ := by
  refine keeps_of_subset hs ?_ (fun q hq => others_write hq hlock) fun userId => ?_
  · intro k x hx
    rcases version_write hx with hx | ⟨hk, heq⟩
    · exact hs.key k x hx
    · rw [hk]
      exact ho x heq.symm
  · rw [savedBy_write]

/-! ## The count -/

theorem held_eq (hkey : ∀ k x, (db.items.row k).Version (some x) → x.key = k)
    (hu : db.items.Untouched p) (userId : Uuid) :
    (held db p userId : ℕ∞) = (savedBy db userId).encard := by
  have hmem : ∀ k x, (k, x) ∈ db.items.rows p ↔ db.items.there k = some x := by
    intro k x
    rw [mem_rows, find_of_untouched hu]
  have huser : ∀ k x, db.items.there k = some x → x.userId = k.1 := by
    intro k x hx
    rw [← hkey k x (Or.inl (committed_of_there hx))]
    rfl
  have hnodup := (nodup_rows db.items p).sublist
    (filter_sublist (p := fun row => row.2.userId = userId) |>.map Prod.fst)
  have heq : savedBy db userId =
      {k | k ∈ ((db.items.rows p).filter fun row => row.2.userId = userId).map Prod.fst} := by
    ext k
    constructor
    · rintro ⟨hk, hthere⟩
      obtain ⟨x, hx⟩ := Option.ne_none_iff_exists'.1 hthere
      refine mem_map.2 ⟨(k, x), mem_filter.2 ⟨(hmem k x).2 hx, ?_⟩, rfl⟩
      simpa [huser k x hx] using hk
    · intro hk
      obtain ⟨⟨k', x⟩, hrow, rfl⟩ := mem_map.1 hk
      obtain ⟨hrow, hat⟩ := mem_filter.1 hrow
      have hx := (hmem k' x).1 hrow
      refine ⟨(huser k' x hx).symm.trans (of_decide_eq_true hat), ?_⟩
      rw [hx]
      exact Option.some_ne_none x
  rw [heq, ← coe_toFinset, Set.encard_coe_eq_coe_finsetCard,
    toFinset_card_of_nodup hnodup, length_map, held, countP_eq_length_filter]

/-! ## The statements -/

/-- What a statement that goes on has kept. -/
structure Onward (hashtext : Uuid → ℤ) (db : WishlistDb) (p : ℕ) (place : SavePlace)
    (db' : WishlistDb) (place' : SavePlace) : Prop where
  keeps : (savedOutline hashtext).Keeps db p place db'
  work : SaveWork db' p place'
  holds : ∀ k mode, SaveHolds hashtext place' k mode → SaveHolds hashtext place k mode

theorem Onward.reads (hs : SavedSound db) (hw : SaveWork db p place')
    (hholds : ∀ k mode, SaveHolds hashtext place' k mode → SaveHolds hashtext place k mode) :
    Onward hashtext db p place db place' := ⟨keeps_refl hs, hw, hholds⟩

theorem room_of_held (hs : SavedSound db) (hu : db.items.Untouched p)
    (h : held db p userId < wishlistMaxSavedItems) : Room db userId := by
  unfold Room
  rw [← held_eq hs.key hu userId]
  exact_mod_cast h

/-- How a call commits. -/
inductive Commits : SavePlace → SavePlace → Prop where
  | answer (i : WishlistInput) (view : WishlistItemView) :
    Commits (.answer i view) (.saved i view)
  | finish (i : WishlistInput) (view : WishlistItemView) :
    Commits (.finish i view) (.saved i view)
  | deleted (i : WishlistInput) : Commits (.deleted i) (.removed i)

/-- How a call throws: only the count throws for the limit. -/
inductive Throws (db : WishlistDb) (p : ℕ) : SavePlace → SavePlace → Prop where
  | limit (i : WishlistInput) (hfull : wishlistMaxSavedItems ≤ held db p i.userId) :
    Throws db p (.count i) (.threw i .limitReached)
  | check (i : WishlistInput) : Throws db p (.check i) (.threw i .notFoundOrNotYours)
  | raced (i : WishlistInput) : Throws db p (.raced i) (.threw i .entityNotFound)
  | readBack (i : WishlistInput) (id : Uuid) :
    Throws db p (.readBack i id) (.threw i .entityNotFound)

/-- What is shown of a statement: a call that goes on has not ended, and a save waits for its
subject's lock. -/
abbrev Shown (hashtext : Uuid → ℤ) (db : WishlistDb) (p : ℕ) (place : SavePlace) :
    Next WishlistDb ℤ SavePlace → Prop :=
  Next.Meets
    (fun db' place' => Onward hashtext db p place db' place' ∧ place'.running = true)
    (fun k mode place' => ∃ i, place = .lock i ∧ place' = .count i ∧ k = hashtext i.userId ∧
      mode = .exclusive)
    (Commits place) (Throws db p place)

/-- What each statement of a call keeps. -/
theorem shown_statement (env : WishlistEnv) (hs : SavedSound db) (hw : SaveWork db p place) :
    Shown hashtext db p place (saveStatement hashtext env db p place) := by
  cases place with
  | find =>
    dsimp only [saveStatement]
    split
    · exact ⟨.reads hs hw fun _ _ h => h, rfl⟩
    · exact ⟨.reads hs hw fun _ _ h => h, rfl⟩
  | existing => exact ⟨.reads hs hw fun _ _ h => h, rfl⟩
  | answer i view => exact .answer i view
  | lock i => exact ⟨i, rfl, rfl, rfl, rfl⟩
  | count i =>
    dsimp only [saveStatement]
    split
    · rename_i hfull
      exact .limit i hfull
    · rename_i hroom
      exact ⟨.reads hs ⟨hw, room_of_held hs hw (not_le.1 hroom)⟩ fun _ _ h => h, rfl⟩
  | check i =>
    dsimp only [saveStatement]
    split
    · exact ⟨.reads hs hw fun _ _ h => h, rfl⟩
    · exact .check i
  | insert i =>
    obtain ⟨hu, hroom⟩ := hw
    dsimp only [saveStatement]
    split
    · trivial
    · rename_i t hins
      obtain ⟨rfl, hlock, -⟩ := insertOrIgnore_done hins
      have hkeeps : (savedOutline hashtext).Keeps db p (.insert i)
          ⟨db.items.write p i.key (some (i.item env))⟩ := by
        refine keeps_write hs hlock ?_
        rintro x ⟨⟩
        rfl
      refine ⟨⟨hkeeps, ⟨hu.onlyAt.write, Or.inr ?_⟩, fun _ _ h => h⟩, rfl⟩
      unfold Room
      rw [savedBy_write]
      exact hroom
    · exact ⟨.reads hs hu fun _ _ h => h, rfl⟩
  | raced i =>
    have hu : db.items.Untouched p := hw
    dsimp only [saveStatement]
    split
    · exact ⟨.reads hs ⟨hu.onlyAt, Or.inl hu⟩ fun _ _ h => h, rfl⟩
    · exact .raced i
  | readBack i id =>
    dsimp only [saveStatement]
    split
    · exact ⟨.reads hs hw fun _ _ h => h, rfl⟩
    · exact .readBack i id
  | finish i view => exact .finish i view
  | delete =>
    have hu : db.items.Untouched p := hw
    dsimp only [saveStatement]
    split
    · trivial
    · rename_i t hremove
      obtain ⟨rfl, hlock⟩ := remove_done hremove
      refine ⟨⟨keeps_write hs hlock ?_, ⟨hu.onlyAt.write, ?_⟩, fun _ _ h => h⟩, rfl⟩
      · rintro x ⟨⟩
      · intro x hx
        cases hx.unique wrote_write_self
    · exact ⟨.reads hs ⟨hu.onlyAt, fun x hx => hu _ hx.writtenBy⟩ fun _ _ h => h, rfl⟩
  | deleted i => exact .deleted i
  | _ => trivial

/-! ## Commits -/

section

variable (honly : db.items.OnlyAt p key)
include honly

theorem savedBy_commit (userId : Uuid) :
    savedBy (db.commit p) userId ⊆ insert key (savedBy db userId) := by
  rintro k ⟨hk, _⟩
  by_cases hkey : k = key
  · exact Or.inl hkey
  · refine Or.inr ⟨hk, ?_⟩
    have hcomm : (db.items.commit p).committed k = db.items.committed k :=
      committed_commit_of_not fun hw => hkey (honly k hw)
    have hsame : (db.commit p).items.there k = db.items.there k := congrArg Option.join hcomm
    rwa [← hsame]

theorem savedBy_commit_ne (hne : key.1 ≠ userId) :
    savedBy (db.commit p) userId ⊆ savedBy db userId := by
  intro k hk
  refine (savedBy_commit honly userId hk).resolve_left ?_
  rintro rfl
  exact hne hk.1

theorem savedBy_commit_of_not (hnot : ∀ x, ¬db.items.Wrote p key (some x)) (userId : Uuid) :
    savedBy (db.commit p) userId ⊆ savedBy db userId := by
  intro k hk
  rcases savedBy_commit honly userId hk with rfl | hold
  · by_cases hw : (db.items.row k).WrittenBy p
    · obtain ⟨o, ho⟩ := hw
      cases o with
      | some x => exact absurd ho (hnot x)
      | none =>
        have hthere : (db.commit p).items.there k = none :=
          congrArg Option.join (Wrote.committed_commit ho)
        exact absurd hthere hk.2
    · have hthere : (db.commit p).items.there k = db.items.there k :=
        congrArg Option.join (committed_commit_of_not hw)
      refine ⟨hk.1, ?_⟩
      rw [← hthere]
      exact hk.2
  · exact hold

theorem keeps_commit_of_not (hs : SavedSound db) (hnot : ∀ x, ¬db.items.Wrote p key (some x)) :
    (savedOutline hashtext).Keeps db p place (db.commit p) :=
  keeps_of_subset hs (fun k x hx => hs.key k x (Row.version_of_commit hx))
    (fun _ hq => others_commit hq) (savedBy_commit_of_not honly hnot)

end

theorem saveHolds_of_counting (h : place.counting = some userId) :
    SaveHolds hashtext place (hashtext userId) .exclusive := by
  cases place with
  | check | insert | readBack | finish =>
    cases h
    exact ⟨rfl, rfl⟩
  | _ => cases h

theorem keeps_finish {view : WishlistItemView} (hs : SavedSound db)
    (honly : db.items.OnlyAt p i.key) (hroom : Room db i.userId) :
    (savedOutline hashtext).Keeps db p (.finish i view) (db.commit p) where
  sound := by
    refine ⟨fun k x hx => hs.key k x (Row.version_of_commit hx), ?_⟩
    intro userId
    by_cases huser : i.userId = userId
    · subst huser
      calc (savedBy (db.commit p) i.userId).encard
          ≤ (insert i.key (savedBy db i.userId)).encard :=
            Set.encard_le_encard (savedBy_commit honly i.userId)
        _ ≤ (savedBy db i.userId).encard + 1 := Set.encard_insert_le _ _
        _ ≤ wishlistMaxSavedItems := Order.add_one_le_of_lt hroom
    · exact (Set.encard_le_encard (savedBy_commit_ne honly huser)).trans (hs.cap userId)
  guarantee := trivial
  others := by
    intro q place' hq htog hw
    refine saveWork_beside hw (others_commit hq) ?_
    intro userId hcounting hroom'
    refine hroom'.mono (savedBy_commit_ne honly ?_)
    rintro rfl
    have hshared := htog (hashtext i.userId) .exclusive .exclusive ⟨rfl, rfl⟩
      (saveHolds_of_counting hcounting)
    cases hshared.1

theorem keeps_commits (hs : SavedSound db) (hw : SaveWork db p place) (h : Commits place place') :
    (savedOutline hashtext).Keeps db p place (db.commit p) := by
  cases h with
  | answer i =>
    have hu : db.items.Untouched p := hw
    have honly : db.items.OnlyAt p i.key := hu.onlyAt
    exact keeps_commit_of_not honly hs fun x hx => hu _ hx.writtenBy
  | finish =>
    obtain ⟨honly, hu | hroom⟩ := hw
    · exact keeps_commit_of_not honly hs fun x hx => hu _ hx.writtenBy
    · exact keeps_finish hs honly hroom
  | deleted => exact keeps_commit_of_not hw.1 hs hw.2

/-- Each statement keeps the cap. -/
theorem savedProof (hashtext : Uuid → ℤ) :
    Proof (wishlistService hashtext) (savedOutline hashtext) where
  first := by
    intro db pid request hw
    cases request with
    | save | remove => exact ⟨hw, fun _ _ h => h⟩
  goes := by
    intro env db pid place db' place' _ hs hw hst
    have honward := ((shown_statement env hs hw).of_goes hst).1
    exact ⟨honward.keeps, honward.work, honward.holds⟩
  locks := by
    intro env db pid place key mode place' _ hs hw hst
    obtain ⟨_, rfl, rfl, rfl, rfl⟩ := (shown_statement env hs hw).of_locks hst
    exact ⟨hw, fun _ _ h => Or.inr h⟩
  commits := by
    intro env db pid place place' _ hs hw hst
    have hcmt := (shown_statement env hs hw).of_commits hst
    refine ⟨keeps_commits hs hw hcmt, ?_⟩
    cases hcmt with
    | _ => exact ⟨untouched_commit, fun _ _ h => h⟩
  throws := by
    intro env db pid place place' _ hs hw hst
    refine ⟨keeps_rollback hs, ?_⟩
    cases (shown_statement env hs hw).of_throws hst with
    | _ => exact ⟨untouched_rollback, fun _ _ h => h⟩
  dies := fun db pid place _ hs _ => ⟨keeps_rollback hs, untouched_rollback, fun _ _ h => h⟩

/-! ## Runs -/

section Run

variable {s s' : System WishlistDb ℤ SavePlace} {e : Step WishlistRequest WishlistEnv}
  {x : WishlistSavedItemEntity} {l : SavedList} {pid : ℕ}

theorem holds_step (h : (savedOutline hashtext).Holds s)
    (hstep : (wishlistService hashtext).step s e = some s') : (savedOutline hashtext).Holds s' :=
  ((savedProof hashtext).holds_step h (Outline.meets (fun _ _ _ _ => trivial) s e) hstep).1

theorem mem_of_there_stored {k : Uuid × WishlistTargetRef}
    (h : (WishlistDb.stored l).items.there k = some x) : x ∈ l.items ∧ x.key = k := by
  have hmem : (k, some x) ∈ l.items.map fun x => (x.key, some x) :=
    mem_of_committed_ofRows (committed_of_there h)
  obtain ⟨_, hy, heq⟩ := mem_map.1 hmem
  cases heq
  exact ⟨hy, rfl⟩

theorem there_stored_of_mem (h : x ∈ l.items) : (WishlistDb.stored l).items.there x.key ≠ none := by
  intro hnone
  have hcomm : (WishlistDb.stored l).items.committed x.key ≠ none := by
    intro hnone
    rw [WishlistDb.stored, committed_ofRows_eq_none] at hnone
    exact hnone (x.key, some x) (mem_map_of_mem h) rfl
  obtain ⟨o, ho⟩ := Option.ne_none_iff_exists'.1 hcomm
  obtain ⟨y, -, heq⟩ := mem_map.1 (mem_of_committed_ofRows ho)
  have ho' : o = some y := (congrArg Prod.snd heq).symm
  rw [there, ho, ho'] at hnone
  cases hnone

theorem encard_stored_le (l : SavedList) (userId : Uuid) :
    (savedBy (.stored l) userId).encard ≤ l.items.countP fun x => x.userId = userId := by
  have hsub : savedBy (.stored l) userId ⊆
      ((l.items.filter fun x => x.userId = userId).map WishlistSavedItemEntity.key).toFinset := by
    rintro k ⟨hk, hthere⟩
    obtain ⟨x, hx⟩ := Option.ne_none_iff_exists'.1 hthere
    obtain ⟨hmem, rfl⟩ := mem_of_there_stored hx
    exact mem_toFinset.2
      (mem_map.2 ⟨x, mem_filter.2 ⟨hmem, decide_eq_true hk⟩, rfl⟩)
  refine (Set.encard_le_encard hsub).trans ?_
  rw [Set.encard_coe_eq_coe_finsetCard]
  refine Nat.cast_le.2 ((toFinset_card_le _).trans ?_)
  rw [length_map, ← countP_eq_length_filter]

theorem savedSound_stored (l : SavedList) : SavedSound (.stored l) where
  key := by
    rintro k x (hx | ⟨_, hx⟩)
    · exact (mem_of_there_stored (congrArg Option.join hx)).2
    · cases hx
  cap := fun userId => (encard_stored_le l userId).trans (Nat.cast_le.2 (l.cap userId))

theorem holds_start (hashtext : Uuid → ℤ) (l : SavedList) :
    (savedOutline hashtext).Holds ((wishlistService hashtext).start (.stored l)) :=
  (savedProof hashtext).holds_start (savedSound_stored l) fun _ => untouched_ofRows

section

variable (h : (savedOutline hashtext).Holds s)
include h

theorem withinCap_of_holds : WithinCap s where
  cap := h.sound.cap
  once := by
    intro k k' x x' hx hx' huser htarget
    have hkey : k = k' := by
      rw [← h.sound.key k x (Or.inl (committed_of_there hx)),
        ← h.sound.key k' x' (Or.inl (committed_of_there hx'))]
      exact Prod.ext huser htarget
    rw [hkey, hx'] at hx
    exact (Option.some.inj hx).symm

theorem limit_of_step (hG : CountsApart s e) (hstep : (wishlistService hashtext).step s e = some s')
    (hthrew : s'.calls pid = .threw i .limitReached) :
    s.calls pid = .threw i .limitReached ∨ (s.calls pid).Saving i ∧ FullWithout s.db i := by
  obtain ⟨place, hcalls⟩ := (Service.took_of_step hstep).calls
  by_cases hpid : pid = e.pid
  · subst hpid
    refine Or.inr ?_
    cases Service.took_of_step hstep with
    | starts pid request =>
      rw [show (s.goes pid s.db _).calls pid = _ from update_self ..] at hthrew
      cases request <;> cases hthrew
    | goes pid env db place hst =>
      rw [show (s.goes pid db place).calls pid = _ from update_self ..] at hthrew
      have hrun := ((shown_statement env h.sound (h.work pid)).of_goes hst).2
      rw [hthrew] at hrun
      cases hrun
    | locks pid env key mode place hst hgrants =>
      rw [show (s.locked pid _ hgrants place).calls pid = _ from update_self ..] at hthrew
      obtain ⟨_, -, hplace, -⟩ := (shown_statement env h.sound (h.work pid)).of_locks hst
      cases hplace.symm.trans hthrew
    | commits pid env place hst =>
      rw [show (s.ends pid _ place).calls pid = _ from update_self ..] at hthrew
      subst hthrew
      have hcmt := (shown_statement env h.sound (h.work pid)).of_commits hst
      generalize s.calls pid = at' at hcmt
      cases hcmt
    | throws pid env place hst =>
      rw [show (s.ends pid _ place).calls pid = _ from update_self ..] at hthrew
      subst hthrew
      have hwork := h.work pid
      have happart := hG
      simp only [CountsApart] at happart
      generalize s.calls pid = at' at hst hwork happart
      cases (shown_statement env h.sound hwork).of_throws hst with
      | limit i hfull =>
        refine ⟨rfl, ?_, happart hfull⟩
        rw [← held_eq h.sound.key hwork]
        exact_mod_cast hfull
    | dies pid =>
      rw [show (s.ends pid _ _).calls pid = _ from update_self ..] at hthrew
      cases hthrew
  · left
    rwa [hcalls, update_of_ne hpid] at hthrew

/-- A save that has found its item. -/
def SavePlace.Finds (i : WishlistInput) (x : WishlistSavedItemEntity) : SavePlace → Prop
  | .find i' => i' = i
  | .existing i' row => i' = i ∧ row = x
  | .answer i' view | .saved i' view => i' = i ∧ ∃ state, view = toView x state
  | .failed => True
  | _ => False

theorem finds_step (hx : s.db.items.there i.key = some x)
    (hfinds : (s.calls pid).Finds i x) (hstep : (wishlistService hashtext).step s e = some s') :
    (s'.calls pid).Finds i x := by
  obtain ⟨place, hcalls⟩ := (Service.took_of_step hstep).calls
  by_cases hpid : pid = e.pid
  · subst hpid
    cases Service.took_of_step hstep with
    | starts pid request hidle =>
      rw [show s.calls pid = _ from hidle] at hfinds
      exact hfinds.elim
    | goes pid env db place hst =>
      rw [show (s.goes pid db place).calls pid = _ from update_self ..]
      have hwork := h.work pid
      generalize s.calls pid = at' at hst hwork hfinds
      cases at' with
      | find =>
        cases hfinds
        have hfind : s.db.items.find pid i.key = some x :=
          (find_of_untouched hwork).trans hx
        dsimp only [wishlistService, saveStatement] at hst
        rw [hfind] at hst
        cases hst
        exact ⟨rfl, rfl⟩
      | existing =>
        obtain ⟨rfl, rfl⟩ := hfinds
        cases hst
        exact ⟨rfl, _, rfl⟩
      | answer | saved | failed => cases hst
      | _ => exact hfinds.elim
    | locks pid env key mode place hst =>
      obtain ⟨_, hlock, -⟩ := (shown_statement env h.sound (h.work pid)).of_locks hst
      rw [show s.calls pid = _ from hlock] at hfinds
      exact hfinds.elim
    | commits pid env place hst =>
      rw [show (s.ends pid _ place).calls pid = _ from update_self ..]
      have hcmt := (shown_statement env h.sound (h.work pid)).of_commits hst
      generalize s.calls pid = at' at hcmt hfinds
      cases hcmt with
      | answer => exact hfinds
      | finish | deleted => exact hfinds.elim
    | throws pid env place hst =>
      have hthrows := (shown_statement env h.sound (h.work pid)).of_throws hst
      generalize s.calls pid = at' at hthrows hfinds
      cases hthrows with
      | _ => exact hfinds.elim
    | dies pid =>
      rw [show (s.ends pid _ _).calls pid = _ from update_self ..]
      trivial
  · rwa [hcalls, update_of_ne hpid]

end

theorem returnsSaved_run (es : List (Step WishlistRequest WishlistEnv))
    (h : (savedOutline hashtext).Holds s) : ReturnsSaved hashtext es s := by
  intro before during after s₁ t pid i x _ hbef hat hthere hduring hended
  have hholds : (savedOutline hashtext).Holds s₁ :=
    runFrom_invariant (fun _ _ _ h hstep => holds_step h hstep) h hbef
  have hfinds : (s₁.calls pid).Finds i x := by
    rw [hat]
    rfl
  have hafter := (runFrom_invariant_along
    (I := fun u => (savedOutline hashtext).Holds u ∧ (u.calls pid).Finds i x)
    (fun u e u' hu hx hstep => ⟨holds_step hu.1 hstep, finds_step hu.1 hx hu.2 hstep⟩)
    ⟨hholds, hfinds⟩ hthere.along hduring).2
  generalize t.calls pid = place at hended hafter
  cases place with
  | saved =>
    obtain ⟨rfl, state, rfl⟩ := hafter
    exact Or.inr ⟨state, rfl⟩
  | failed => exact Or.inl rfl
  | find | existing | answer => cases hended
  | _ => exact hafter.elim

theorem refusedWhenFull_run {es : List (Step WishlistRequest WishlistEnv)}
    (h : (savedOutline hashtext).Holds s) (hidle : ∀ pid, s.calls pid = .idle)
    (hG : Along (wishlistService hashtext).step CountsApart s es) :
    RefusedWhenFull hashtext es s := by
  intro before after t pid i hsplit hrun hthrew
  rw [hsplit] at hG
  refine exists_before (I := (savedOutline hashtext).Holds)
    (Q := fun u => u.calls pid = .threw i .limitReached)
    (fun _ _ _ h hstep => holds_step h hstep)
    (fun _ _ _ h hG hstep hthrew => limit_of_step h hG hstep hthrew) h ?_ hG.of_append hrun hthrew
  rw [hidle]
  rintro ⟨⟩

end Run

/-- Whoever saves and removes at the same time: as long as no save counts a full list with its
target in it, the caps are kept, a save is refused only when the list is full without its target,
and a target that is saved throughout a save is what the save returns. -/
theorem saving_run (hashtext : Uuid → ℤ) (l : SavedList)
    (es : List (Step WishlistRequest WishlistEnv))
    (hapart : Along (wishlistService hashtext).step CountsApart
      ((wishlistService hashtext).start (.stored l)) es) :
    Throughout (wishlistService hashtext).step WithinCap
        ((wishlistService hashtext).start (.stored l)) es ∧
      RefusedWhenFull hashtext es ((wishlistService hashtext).start (.stored l)) ∧
      ReturnsSaved hashtext es ((wishlistService hashtext).start (.stored l)) :=
  ⟨throughout_of_along (I := (savedOutline hashtext).Holds) (fun _ h => withinCap_of_holds h)
    (fun _ _ _ h _ hstep => holds_step h hstep) (holds_start hashtext l) hapart,
    refusedWhenFull_run (holds_start hashtext l) (fun _ => rfl) hapart,
    returnsSaved_run es (holds_start hashtext l)⟩

/-! ## Two saves of one item -/

namespace Same

def subjectHash (userId : Uuid) : ℤ := userId

/-- The item that both save. -/
def input : WishlistInput := ⟨1, ⟨.service, 500⟩⟩

/-- What a call finds: its own id for an item. -/
def sees (pid : ℕ) : WishlistEnv := ⟨0, 1000 + pid, true⟩

/-- The next `n` statements. -/
def takes (pid n : ℕ) : List (Step WishlistRequest WishlistEnv) :=
  List.replicate n ⟨pid, .statement (sees pid)⟩

/-- Both calls find nothing, and the second one waits for the first. -/
def run : List (Step WishlistRequest WishlistEnv) :=
  [⟨0, .start (.save input)⟩, ⟨1, .start (.save input)⟩] ++ takes 0 1 ++ takes 1 1 ++ takes 0 6 ++
    takes 1 2

end Same

/-! ## A full list -/

namespace Full

open Same

/-- An item saved before. -/
def item (n : ℕ) : WishlistSavedItemEntity := ⟨n, 1, ⟨.service, n⟩, 0⟩

/-- As many items as a user may have. -/
def list : SavedList where
  items := (List.range 500).map item
  cap := by
    intro userId
    refine countP_le_length.trans ?_
    rw [length_map, length_range, wishlistMaxSavedItems]

/-- Distinct items that are there have distinct keys. -/
theorem card_le_encard {ns : Finset ℕ} (h : ∀ n ∈ ns, db.items.there (item n).key ≠ none) :
    (ns.card : ℕ∞) ≤ (savedBy db input.userId).encard := by
  have hinjective : Function.Injective fun n => (item n).key :=
    fun m n h => congrArg (fun k => k.2.targetId) h
  have hsub : (fun n => (item n).key) '' (ns : Set ℕ) ⊆ savedBy db input.userId := by
    rintro k ⟨n, hn, rfl⟩
    exact ⟨rfl, h n (Finset.mem_coe.1 hn)⟩
  refine le_trans ?_ (Set.encard_le_encard hsub)
  rw [hinjective.encard_image, Set.encard_coe_eq_coe_finsetCard]

theorem mem_list {x : WishlistSavedItemEntity} : x ∈ list.items ↔ ∃ n < 500, item n = x := by
  simp only [list, mem_map, mem_range]

theorem there_input : (WishlistDb.stored list).items.there input.key = none := by
  by_contra hne
  obtain ⟨_, hx⟩ := Option.ne_none_iff_exists'.1 hne
  obtain ⟨hmem, hkey⟩ := mem_of_there_stored hx
  obtain ⟨n, _, rfl⟩ := mem_list.1 hmem
  have hn' : n = 500 := congrArg (fun k => k.2.targetId) hkey
  omega

theorem full : wishlistMaxSavedItems ≤ held (.stored list) 0 input.userId := by
  have hthere : ∀ n ∈ Finset.range 500, (WishlistDb.stored list).items.there (item n).key ≠ none :=
    fun n hn => there_stored_of_mem (mem_list.2 ⟨n, Finset.mem_range.1 hn, rfl⟩)
  have hcard := card_le_encard hthere
  rw [← held_eq (savedSound_stored list).key (untouched_ofRows (p := 0)), Finset.card_range]
    at hcard
  exact_mod_cast hcard

/-- An item of the list. -/
def listed : WishlistInput := ⟨1, ⟨.service, 7⟩⟩

/-- One call saves an item more, another one an item of the list. -/
def run : List (Step WishlistRequest WishlistEnv) :=
  [⟨0, .start (.save input)⟩, ⟨1, .start (.save listed)⟩] ++ takes 0 1 ++ takes 1 1 ++
    takes 0 2 ++ takes 1 2

theorem apart_cons {s s' : System WishlistDb ℤ SavePlace} {e : Step WishlistRequest WishlistEnv}
    {es : List (Step WishlistRequest WishlistEnv)}
    (hstep : (wishlistService subjectHash).Took s e s') (hapart : CountsApart s e)
    (h : Along (wishlistService subjectHash).step CountsApart s' es) :
    Along (wishlistService subjectHash).step CountsApart s (e :: es) := by
  refine ⟨hapart, fun s'' hs => ?_⟩
  cases hs.symm.trans hstep.step
  exact h

/-- The steps of `run` are known by what the two calls find. -/
theorem run_apart_of {db : WishlistDb} {row : WishlistSavedItemEntity}
    (hnone : db.items.find 0 input.key = none) (hsome : db.items.find 1 listed.key = some row)
    (hfull : wishlistMaxSavedItems ≤ held db 0 input.userId)
    (hthere : db.items.there input.key = none) :
    Along (wishlistService subjectHash).step CountsApart
      ((wishlistService subjectHash).start db) run := by
  have hlock : ∀ env, saveStatement subjectHash env db 0 (.find input) = .goes db (.lock input) := by
    intro env
    simp only [saveStatement, hnone]
  have hexisting : ∀ env,
      saveStatement subjectHash env db 1 (.find listed) = .goes db (.existing listed row) := by
    intro env
    simp only [saveStatement, hsome]
  have hlimit : ∀ env, saveStatement subjectHash env db 0 (.count input) =
      .throws (.threw input .limitReached) := by
    intro env
    simp only [saveStatement, if_pos hfull]
  refine apart_cons (.starts 0 _ rfl) trivial ?_
  refine apart_cons (.starts 1 _ rfl) trivial ?_
  refine apart_cons (.goes 0 _ db _ (hlock (sees 0))) trivial ?_
  refine apart_cons (.goes 1 _ db _ (hexisting (sees 1))) trivial ?_
  refine apart_cons (.locks 0 (sees 0) 1 .exclusive (.count input) rfl ?_) trivial ?_
  · rintro a ⟨⟩
  refine apart_cons (.throws 0 _ _ (hlimit (sees 0))) (fun _ => hthere) ?_
  refine apart_cons (.goes 1 (sees 1) _ _ rfl) trivial ?_
  exact apart_cons (.commits 1 (sees 1) _ rfl) trivial trivial

end Full

theorem saving_run_full :
    Throughout (wishlistService Same.subjectHash).step WithinCap
        ((wishlistService Same.subjectHash).start (.stored Full.list)) Full.run ∧
      RefusedWhenFull Same.subjectHash Full.run
        ((wishlistService Same.subjectHash).start (.stored Full.list)) ∧
      ReturnsSaved Same.subjectHash Full.run
        ((wishlistService Same.subjectHash).start (.stored Full.list)) := by
  refine saving_run Same.subjectHash Full.list Full.run ?_
  have hmem : Full.item 7 ∈ Full.list.items := Full.mem_list.2 ⟨7, by decide, rfl⟩
  have hlisted := there_stored_of_mem hmem
  obtain ⟨_, hrow⟩ := Option.ne_none_iff_exists'.1 hlisted
  exact Full.run_apart_of ((find_of_untouched untouched_ofRows).trans Full.there_input)
    ((find_of_untouched untouched_ofRows).trans hrow) Full.full Full.there_input

/-! ## The last place -/

namespace LastPlace

open Same
open Full (item card_le_encard)

/-- There is one place left. -/
def list : SavedList where
  items := (List.range 499).map item
  cap := by
    intro userId
    refine countP_le_length.trans ?_
    rw [length_map, length_range]
    decide

theorem mem_list {x : WishlistSavedItemEntity} : x ∈ list.items ↔ ∃ n < 499, item n = x := by
  simp only [list, mem_map, mem_range]

/-- The item that the first call inserts. -/
def added : WishlistSavedItemEntity := input.item (sees 0)

/-- Before the first call inserts its item, after, and when it has committed. -/
def before : WishlistDb := .stored list

def inserted : WishlistDb := ⟨before.items.write 0 input.key (some added)⟩

def saved : WishlistDb := inserted.commit 0

theorem there_before : before.items.there input.key = none := by
  by_contra hne
  obtain ⟨_, hx⟩ := Option.ne_none_iff_exists'.1 hne
  obtain ⟨hmem, hkey⟩ := mem_of_there_stored hx
  obtain ⟨n, _, rfl⟩ := mem_list.1 hmem
  have hn' : n = 500 := congrArg (fun k => k.2.targetId) hkey
  omega

theorem there_saved : saved.items.there input.key = some added := by
  have hfind : inserted.items.find 0 input.key = some added :=
    congrArg Option.join get_write_self
  exact there_commit.trans hfind

theorem untouched_before : before.items.Untouched p := untouched_ofRows

theorem untouched_inserted : inserted.items.Untouched 1 := by
  rintro k hk
  by_cases hkey : k = input.key
  · subst hkey
    obtain ⟨_, ho⟩ := hk
    cases ho
  · rw [inserted, row_write_ne hkey] at hk
    exact untouched_before k hk

theorem find_before : before.items.find p input.key = none :=
  (find_of_untouched untouched_before).trans there_before

theorem sound_inserted : SavedSound inserted := by
  have hkeeps : (savedOutline subjectHash).Keeps before 0 (.insert input) inserted := by
    refine keeps_write (savedSound_stored list) ?_ ?_
    · rintro ⟨_, o, ho, -⟩
      exact untouched_before _ ⟨o, ho⟩
    · rintro x ⟨⟩
      rfl
  exact hkeeps.sound

theorem encard_before : (savedBy before input.userId).encard ≤ 499 := by
  refine (encard_stored_le list input.userId).trans (Nat.cast_le.2 ?_)
  refine countP_le_length.trans ?_
  rw [list, length_map, length_range]

theorem sound_before : SavedSound before := savedSound_stored list

theorem not_full_before : ¬wishlistMaxSavedItems ≤ held before p input.userId := by
  intro hfull
  have hle : (held before p input.userId : ℕ∞) ≤ 499 := by
    rw [held_eq sound_before.key untouched_before]
    exact encard_before
  have hle' : held before p input.userId ≤ 499 := by exact_mod_cast hle
  exact absurd (hfull.trans hle') (by decide)

theorem encard_saved : (500 : ℕ∞) ≤ (savedBy saved input.userId).encard := by
  have hitem : ∀ n < 499, saved.items.there (item n).key ≠ none := by
    intro n hn
    have hne : (item n).key ≠ input.key := by
      intro heq
      have hn' : n = 500 := congrArg (fun k => k.2.targetId) heq
      omega
    have hsame : saved.items.there (item n).key = before.items.there (item n).key := by
      refine congrArg Option.join (committed_commit_of_not ?_) |>.trans ?_
      · rw [inserted, row_write_ne hne]
        exact untouched_before _
      · exact there_write
    rw [hsame]
    exact there_stored_of_mem (mem_list.2 ⟨n, hn, rfl⟩)
  have hall : ∀ n ∈ insert 500 (Finset.range 499), saved.items.there (item n).key ≠ none := by
    intro n hn
    rcases Finset.mem_insert.1 hn with rfl | hn
    · exact there_saved ▸ Option.some_ne_none added
    · exact hitem n (Finset.mem_range.1 hn)
  have hcard := card_le_encard hall
  rwa [Finset.card_insert_of_notMem (fun h => absurd (Finset.mem_range.1 h) (by norm_num)),
    Finset.card_range] at hcard

theorem full_saved : wishlistMaxSavedItems ≤ held saved 1 input.userId := by
  have hkey : ∀ k x, (saved.items.row k).Version (some x) → x.key = k :=
    fun k x hx => sound_inserted.key k x (Row.version_of_commit hx)
  have hunt : saved.items.Untouched 1 :=
    (others_commit (by decide)).untouched untouched_inserted
  have hle : (500 : ℕ∞) ≤ (held saved 1 input.userId : ℕ∞) := by
    rw [held_eq hkey hunt]
    exact encard_saved
  exact_mod_cast hle

/-- The list is not full without the target. -/
def Spared (s : System WishlistDb ℤ SavePlace) : Prop := ¬FullWithout s.db input

theorem spared_of_before (h : (savedBy db input.userId).encard ≤ 499) : ¬FullWithout db input := by
  rintro ⟨hfull, -⟩
  have hle : (500 : ℕ∞) ≤ 499 := hfull.trans h
  exact absurd hle (by decide)

theorem spared_before : ¬FullWithout before input := spared_of_before encard_before

theorem spared_inserted : ¬FullWithout inserted input := by
  refine spared_of_before ?_
  rw [inserted, savedBy_write]
  exact encard_before

theorem spared_saved : ¬FullWithout saved input := by
  rintro ⟨-, hnone⟩
  cases hnone

theorem spared_rollback (h : ¬FullWithout db input) : ¬FullWithout (db.rollback p) input := by
  have hcomm : (db.rollback p).items.committed = db.items.committed := committed_rollback
  have hthere : (db.rollback p).items.there input.key = db.items.there input.key :=
    there_rollback
  rintro ⟨hfull, hnone⟩
  rw [savedBy_congr hcomm] at hfull
  exact h ⟨hfull, hthere.symm.trans hnone⟩

theorem spared_step {s s' : System WishlistDb ℤ SavePlace} {e : Step WishlistRequest WishlistEnv}
    {es : List (Step WishlistRequest WishlistEnv)} (hspared : Spared s)
    (hstep : (wishlistService subjectHash).Took s e s')
    (h : Throughout (wishlistService subjectHash).step Spared s' es ∧
      ∃ t, runFrom (wishlistService subjectHash).step s' es = some t ∧
        t.calls 1 = .threw input .limitReached) :
    Throughout (wishlistService subjectHash).step Spared s (e :: es) ∧
      ∃ t, runFrom (wishlistService subjectHash).step s (e :: es) = some t ∧
        t.calls 1 = .threw input .limitReached := by
  obtain ⟨hlater, t, hrun, hthrew⟩ := h
  refine ⟨⟨hspared, ?_⟩, t, runFrom_cons_eq_some.2 ⟨s', hstep.step, hrun⟩, hthrew⟩
  intro s'' hs
  cases hs.symm.trans hstep.step
  exact hlater

theorem grants_of_nil {locks : LockTable ℕ ℤ} {lock : Lock ℕ ℤ} (h : locks.held = []) :
    locks.Grants lock := by
  intro a ha
  rw [h] at ha
  cases ha

theorem spared_statements {db₀ db₁ : WishlistDb} (view : WishlistItemView)
    (h₀ : ¬FullWithout db₀ input) (h₁ : ¬FullWithout db₁ input)
    (h₂ : ¬FullWithout (db₁.commit 0) input)
    (hfind : ∀ p env, saveStatement subjectHash env db₀ p (.find input) = .goes db₀ (.lock input))
    (hcnt : ∀ env, saveStatement subjectHash env db₀ 0 (.count input) = .goes db₀ (.check input))
    (hins : saveStatement subjectHash (sees 0) db₀ 0 (.insert input) =
      .goes db₁ (.readBack input 1000))
    (hreadBack : saveStatement subjectHash (sees 0) db₁ 0 (.readBack input 1000) =
      .goes db₁ (.finish input view))
    (hlimit : ∀ env, saveStatement subjectHash env (db₁.commit 0) 1 (.count input) =
      .throws (.threw input .limitReached)) :
    Throughout (wishlistService subjectHash).step Spared
        ((wishlistService subjectHash).start db₀) run ∧
      ∃ t, runFrom (wishlistService subjectHash).step ((wishlistService subjectHash).start db₀)
          run = some t ∧ t.calls 1 = .threw input .limitReached := by
  refine spared_step h₀ (.starts 0 _ rfl) ?_
  refine spared_step h₀ (.starts 1 _ rfl) ?_
  refine spared_step h₀ (.goes 0 _ db₀ _ (hfind 0 (sees 0))) ?_
  refine spared_step h₀ (.goes 1 _ db₀ _ (hfind 1 (sees 1))) ?_
  refine spared_step h₀ (.locks 0 (sees 0) 1 .exclusive (.count input) rfl (grants_of_nil rfl)) ?_
  refine spared_step h₀ (.goes 0 _ db₀ _ (hcnt (sees 0))) ?_
  refine spared_step h₀ (.goes 0 (sees 0) db₀ (.insert input) rfl) ?_
  refine spared_step h₀ (.goes 0 _ db₁ _ hins) ?_
  refine spared_step h₁ (.goes 0 _ db₁ _ hreadBack) ?_
  refine spared_step h₁ (.commits 0 (sees 0) (.saved input view) rfl) ?_
  refine spared_step h₂ (.locks 1 (sees 1) 1 .exclusive (.count input) rfl (grants_of_nil rfl)) ?_
  refine spared_step h₂ (.throws 1 _ _ (hlimit (sees 1))) ?_
  exact ⟨spared_rollback h₂, _, rfl, rfl⟩

theorem readBack_of_find {id : Uuid} {row : (Uuid × WishlistTargetRef) × WishlistSavedItemEntity}
    (h : ((db.items.rows p).find? fun row => row.2.id = id) = some row) :
    saveStatement hashtext env db p (.readBack i id) =
      .goes db (.finish i (toView row.2 .available)) := by
  simp only [saveStatement, h]

theorem spared_run :
    Throughout (wishlistService subjectHash).step Spared
        ((wishlistService subjectHash).start before) run ∧
      ∃ t, runFrom (wishlistService subjectHash).step ((wishlistService subjectHash).start before)
          run = some t ∧ t.calls 1 = .threw input .limitReached := by
  have hdone : before.items.insertOrIgnore 0 input.key (input.item (sees 0)) =
      .done inserted.items := by
    have hlock : ¬(before.items.row input.key).Locked 0 := by
      rintro ⟨_, o, ho, -⟩
      exact untouched_before _ ⟨o, ho⟩
    unfold insertOrIgnore
    rw [find_before]
    rfl
  have hmem : (input.key, added) ∈ inserted.items.rows 0 :=
    mem_rows.2 (congrArg Option.join get_write_self)
  obtain ⟨row, hrow⟩ :
      ∃ row, ((inserted.items.rows 0).find? fun row => row.2.id = 1000) = some row :=
    Option.isSome_iff_exists.1 (find?_isSome.2 ⟨(input.key, added), hmem, rfl⟩)
  refine spared_statements (toView row.2 .available) spared_before spared_inserted spared_saved
    ?_ ?_ ?_ ?_ ?_
  · intro p env
    simp only [saveStatement, find_before]
  · intro env
    simp only [saveStatement, if_neg not_full_before]
  · simp only [saveStatement, hdone]
    rfl
  · exact readBack_of_find hrow
  · intro env
    have hfull : wishlistMaxSavedItems ≤ held (inserted.commit 0) 1 input.userId := full_saved
    simp only [saveStatement, if_pos hfull]

end LastPlace

/-- Two calls save one item at the last place: the second one is refused, and at no moment is the
list full without the item. -/
theorem refusedWhenFull_lastPlace_fails :
    ¬RefusedWhenFull Same.subjectHash Same.run
      ((wishlistService Same.subjectHash).start (.stored LastPlace.list)) := by
  obtain ⟨hspared, t, hrun, hthrew⟩ := LastPlace.spared_run
  intro href
  obtain ⟨_, _, _, hsplit, hsooner, -, hfull⟩ :=
    href Same.run [] t 1 Same.input (append_nil _).symm hrun hthrew
  rw [hsplit] at hspared
  exact hspared.at_append hsooner hfull

end BeauClick.Wishlist
