import Mathlib.Data.Set.Card
import BeauClick.Commerce.Order
import BeauClick.Lib.Removable
import BeauClick.Lib.Transactions

/-!
# Saved items

`WishlistService.save` and `remove` (`services/wishlist/src/wishlist.service.ts`), statement by
statement.
-/

namespace BeauClick.Wishlist

open Locks ReadCommitted Transactions

def wishlistMaxSavedItems : ℕ := 500

/-! ## Items -/

/-- The kinds of a target. -/
inductive WishlistTargetType where
  | professional
  | service
  deriving DecidableEq

/-- What is saved. -/
structure WishlistTargetRef where
  targetType : WishlistTargetType
  targetId : Uuid
  deriving DecidableEq

/-- A row of `wishlist.saved_items`. -/
structure WishlistSavedItemEntity where
  id : Uuid
  userId : Uuid
  target : WishlistTargetRef
  createdAt : Instant
  deriving DecidableEq

/-- `uq_wishlist_saved_items_user_target`. -/
def WishlistSavedItemEntity.key (x : WishlistSavedItemEntity) : Uuid × WishlistTargetRef :=
  (x.userId, x.target)

/-- What a target is shown as. -/
inductive WishlistTargetState where
  | available
  | unavailable
  deriving DecidableEq

/-- An item as it is shown. -/
structure WishlistItemView where
  target : WishlistTargetRef
  savedAt : Instant
  state : WishlistTargetState
  deriving DecidableEq

def toView (row : WishlistSavedItemEntity) (state : WishlistTargetState) : WishlistItemView :=
  ⟨row.target, row.createdAt, state⟩

def stateOf (available : Bool) : WishlistTargetState :=
  if available then .available else .unavailable

/-- Stored items: no user has more than the maximum. -/
structure SavedList where
  items : List WishlistSavedItemEntity
  cap : ∀ userId, items.countP (fun x => x.userId = userId) ≤ wishlistMaxSavedItems

/-- The table, by user and target. -/
structure WishlistDb where
  items : Removable ℕ (Uuid × WishlistTargetRef) WishlistSavedItemEntity

namespace WishlistDb

/-- The stored items, and nothing else. -/
def stored (l : SavedList) : WishlistDb := ⟨.ofRows (l.items.map fun x => (x.key, some x))⟩

/-- Transaction `pid` commits. -/
def commit (db : WishlistDb) (pid : ℕ) : WishlistDb := ⟨Versioned.commit db.items pid⟩

/-- Transaction `pid` rolls back. -/
def rollback (db : WishlistDb) (pid : ℕ) : WishlistDb := ⟨Versioned.rollback db.items pid⟩

end WishlistDb

/-! ## Calls -/

/-- The input of `save` and of `remove`. -/
structure WishlistInput where
  userId : Uuid
  target : WishlistTargetRef
  deriving DecidableEq

def WishlistInput.key (i : WishlistInput) : Uuid × WishlistTargetRef := (i.userId, i.target)

/-- What a call is asked for. -/
inductive WishlistRequest where
  | save (i : WishlistInput)
  | remove (i : WishlistInput)

/-- What a statement finds outside the table: the clock, the next `uuidv7`, and whether the target
may be shown. -/
structure WishlistEnv where
  now : Instant
  uuid : Uuid
  available : Bool

/-- Why a call is refused. -/
inductive WishlistError where
  | limitReached
  | notFoundOrNotYours
  | entityNotFound
  deriving DecidableEq

/-- Where a call stands. -/
inductive SavePlace where
  | idle
  | failed
  | saved (i : WishlistInput) (view : WishlistItemView)
  | threw (i : WishlistInput) (error : WishlistError)
  | removed (i : WishlistInput)
  -- `save`
  | find (i : WishlistInput)
  | existing (i : WishlistInput) (row : WishlistSavedItemEntity)
  | answer (i : WishlistInput) (view : WishlistItemView)
  | lock (i : WishlistInput)
  | count (i : WishlistInput)
  | check (i : WishlistInput)
  | insert (i : WishlistInput)
  | raced (i : WishlistInput)
  | readBack (i : WishlistInput) (id : Uuid)
  | finish (i : WishlistInput) (view : WishlistItemView)
  -- `remove`
  | delete (i : WishlistInput)
  | deleted (i : WishlistInput)
  deriving DecidableEq

/-- The row that a call inserts. -/
def WishlistInput.item (i : WishlistInput) (env : WishlistEnv) : WishlistSavedItemEntity :=
  ⟨env.uuid, i.userId, i.target, env.now⟩

section Statement

variable (hashtext : Uuid → ℤ) (env : WishlistEnv) (db : WishlistDb) (pid : ℕ)

/-- How many items of a user the transaction counts. -/
def held (userId : Uuid) : ℕ := (db.items.rows pid).countP fun row => row.2.userId = userId

/-- What a call does at its place; `lockSubject` is a lock on the hash of the user's id. -/
def saveStatement : SavePlace → Next WishlistDb ℤ SavePlace
  | .find i =>
    match db.items.find pid i.key with
    | some row => .goes db (.existing i row)
    | none => .goes db (.lock i)
  | .existing i row => .goes db (.answer i (toView row (stateOf env.available)))
  | .answer i view => .commits (.saved i view)
  | .lock i => .locks (hashtext i.userId) .exclusive (.count i)
  | .count i =>
    if wishlistMaxSavedItems ≤ held db pid i.userId then .throws (.threw i .limitReached)
    else .goes db (.check i)
  | .check i =>
    if env.available then .goes db (.insert i) else .throws (.threw i .notFoundOrNotYours)
  | .insert i =>
    match db.items.insertOrIgnore pid i.key (i.item env) with
    | .waits => .waits
    | .done t => .goes ⟨t⟩ (.readBack i env.uuid)
    | .ignored => .goes db (.raced i)
  | .raced i =>
    match db.items.find pid i.key with
    | some row => .goes db (.finish i (toView row .available))
    | none => .throws (.threw i .entityNotFound)
  | .readBack i id =>
    match (db.items.rows pid).find? fun row => row.2.id = id with
    | some row => .goes db (.finish i (toView row.2 .available))
    | none => .throws (.threw i .entityNotFound)
  | .finish i view => .commits (.saved i view)
  | .delete i =>
    match db.items.remove pid i.key with
    | .waits => .waits
    | .done t => .goes ⟨t⟩ (.deleted i)
    | .ignored => .goes db (.deleted i)
  | .deleted i => .commits (.removed i)
  | _ => .waits

end Statement

/-- A call there still runs. -/
def SavePlace.running : SavePlace → Bool
  | .idle | .failed | .saved .. | .threw .. | .removed _ => false
  | _ => true

/-- Where a call starts. -/
def WishlistRequest.first : WishlistRequest → SavePlace
  | .save i => .find i
  | .remove i => .delete i

/-- Any number of calls on the table. -/
def wishlistService (hashtext : Uuid → ℤ) :
    Service WishlistDb ℤ SavePlace WishlistRequest WishlistEnv where
  commit := WishlistDb.commit
  rollback := WishlistDb.rollback
  idle := .idle
  failed := .failed
  running := SavePlace.running
  first := WishlistRequest.first
  statement := saveStatement hashtext

/-! ## What is to hold -/

/-- What a user has saved. -/
def savedBy (db : WishlistDb) (userId : Uuid) : Set (Uuid × WishlistTargetRef) :=
  {k | k.1 = userId ∧ db.items.there k ≠ none}

/-- A user has at most the maximum of items, and one for a target. -/
structure WithinCap (s : System WishlistDb ℤ SavePlace) : Prop where
  cap : ∀ userId, (savedBy s.db userId).encard ≤ wishlistMaxSavedItems
  once : ∀ k k' x x', s.db.items.there k = some x → s.db.items.there k' = some x' →
    x.userId = x'.userId → x.target = x'.target → x = x'

/-- The call is a save that has not ended. -/
def SavePlace.Saving (i : WishlistInput) : SavePlace → Prop
  | .find i' | .existing i' _ | .answer i' _ | .lock i' | .count i' | .check i' | .insert i'
  | .raced i' | .readBack i' _ | .finish i' _ => i' = i
  | _ => False

/-- The list is full, and the target is not in it. -/
def FullWithout (db : WishlistDb) (i : WishlistInput) : Prop :=
  wishlistMaxSavedItems ≤ (savedBy db i.userId).encard ∧ db.items.there i.key = none

/-- A save is refused for the limit only if at some moment of the call the list was full, without
the target. -/
def RefusedWhenFull (hashtext : Uuid → ℤ) (es : List (Step WishlistRequest WishlistEnv))
    (s₀ : System WishlistDb ℤ SavePlace) : Prop :=
  ∀ before after t pid i, es = before ++ after →
    Runs.runFrom (wishlistService hashtext).step s₀ before = some t →
      t.calls pid = .threw i .limitReached →
        ∃ sooner later s, before = sooner ++ later ∧
          Runs.runFrom (wishlistService hashtext).step s₀ sooner = some s ∧
            (s.calls pid).Saving i ∧ FullWithout s.db i

/-- A save of a target that is saved throughout the call returns that item, unless the process
dies. -/
def ReturnsSaved (hashtext : Uuid → ℤ) (es : List (Step WishlistRequest WishlistEnv))
    (s₀ : System WishlistDb ℤ SavePlace) : Prop :=
  ∀ before during after s t pid i x, es = before ++ during ++ after →
    Runs.runFrom (wishlistService hashtext).step s₀ before = some s → s.calls pid = .find i →
      Runs.Throughout (wishlistService hashtext).step (fun u => u.db.items.there i.key = some x) s
        during →
      Runs.runFrom (wishlistService hashtext).step s during = some t →
        (t.calls pid).running = false →
          t.calls pid = .failed ∨ ∃ state, t.calls pid = .saved i (toView x state)

end BeauClick.Wishlist
