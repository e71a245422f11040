import BeauClick.Lib.Transactions
import BeauClick.Referral.Schema

/-!
# Codes and claims

`ReferralService.codeFor`, `create`, `claim` and `chargeClaimAttempt`
(`services/referral/src/referral.service.ts`), statement by statement.
-/

namespace BeauClick.Referral

open Locks ReadCommitted Transactions

/-! ## The contract -/

/-- No `0`, `I`, `L`, `O` or `U`. -/
def referralCodeAlphabet : String := "123456789ABCDEFGHJKMNPQRSTVWXYZ"

def referralCodeLength : ℕ := 10

def referralClaimMaxAccountAgeDays : ℤ := 30

def referralPendingAttributionExpiryDays : ℤ := 90

def referralClaimAttemptsPerHour : ℕ := 10

def maxCodeAttempts : ℕ := 5

/-- Ten characters of the alphabet. -/
def isReferralCodeShape (value : String) : Bool :=
  value.length = referralCodeLength ∧ value.toList.all fun c => c ∈ referralCodeAlphabet.toList

/-- Younger accounts may still claim. -/
def accountAgeCutoff (now : Instant) (maxAgeDays : ℤ) : Instant := now - maxAgeDays * 86400000

def pendingAttributionExpiry (attributedAt : Instant) (expiryDays : ℤ) : Instant :=
  attributedAt + expiryDays * 86400000

def hourBucket (instant : Instant) : Instant := instant - instant % 3600000

/-- One slash at the origin's end is dropped. -/
def buildReferralInviteUrl (origin code : String) : String :=
  let base := if origin.toList.getLast? = some '/' then String.ofList origin.toList.dropLast
    else origin
  base ++ "/invite/" ++ code

def buildReferralShareText (code : String) : String :=
  "با کد دعوت " ++ code ++ " در بیوکلیک ثبت‌نام کنید."

/-- A code as it is shown. -/
structure ReferralCodeView where
  code : String
  inviteUrl : String
  shareText : String
  shareChannels : List String
  deriving DecidableEq

/-- What a claim answers. -/
structure ReferralClaimResult where
  attributedAt : Instant
  expiresAt : Instant
  deriving DecidableEq

/-- What `claim` throws; whatever else the database reports is `queryFailed`. -/
inductive ReferralClaimError where
  | refused
  | throttled (attemptsPerHour : ℕ)
  | queryFailed
  deriving DecidableEq

/-! ## The tables -/

/-- A row of `referral.referral_codes`. -/
structure ReferralCodeEntity where
  id : Uuid
  ownerUserId : Uuid
  code : String
  deriving DecidableEq

/-- A row of `referral.referrals` with the code that was claimed. -/
structure ClaimedAttribution extends ReferralAttributionEntity where
  referralCodeId : Uuid
  deriving DecidableEq

/-- What the calls share: three tables, the customers of completed bookings and the clock. -/
structure ClaimDb where
  /-- By owner: `uq_referral_codes_owner`. -/
  codes : Versioned ℕ Uuid ReferralCodeEntity
  /-- By referee: `uq_referrals_referee`. -/
  referrals : Versioned ℕ Uuid ClaimedAttribution
  /-- `attempt_count`, by claimant and hour. -/
  claimAttempts : Versioned ℕ (Uuid × Instant) ℕ
  completedBookings : List Uuid
  clock : Instant
  /-- A record kept beside: the calls that have passed the throttle, by claimant and hour. -/
  passes : Journal ℕ (ℕ × Uuid × Instant)

namespace ClaimDb

/-- No rows yet. -/
def empty (clock : Instant) : ClaimDb := ⟨.empty, .empty, .empty, [], clock, .empty⟩

/-- Transaction `pid` commits. -/
def commit (db : ClaimDb) (pid : ℕ) : ClaimDb where
  codes := db.codes.commit pid
  referrals := db.referrals.commit pid
  claimAttempts := db.claimAttempts.commit pid
  completedBookings := db.completedBookings
  clock := db.clock
  passes := db.passes.commit pid

/-- Transaction `pid` rolls back. -/
def rollback (db : ClaimDb) (pid : ℕ) : ClaimDb where
  codes := db.codes.rollback pid
  referrals := db.referrals.rollback pid
  claimAttempts := db.claimAttempts.rollback pid
  completedBookings := db.completedBookings
  clock := db.clock
  passes := db.passes.rollback pid

end ClaimDb

/-- `uq_referral_codes_code`. -/
def SameCode (row row' : ReferralCodeEntity) : Prop := row.code = row'.code
  deriving Decidable

/-! ## Calls -/

/-- What a claim is given. -/
structure ClaimInput where
  refereeUserId : Uuid
  code : String
  deriving DecidableEq

/-- What may be asked for; time goes on and bookings are completed, too. -/
inductive ClaimRequest where
  | codeFor (ownerUserId : Uuid)
  | claim (i : ClaimInput)
  | completeBooking (customerId : Uuid)
  | wait (milliseconds : ℕ)

/-- The unique constraints of `referral.referral_codes`. -/
inductive CodeConstraint where
  | owner
  | code
  deriving DecidableEq

/-- What a statement finds outside the tables: the next `uuidv7`, the code that is drawn, and the
constraint that is checked first. -/
structure ClaimEnv where
  uuid : Uuid
  code : String
  checkedFirst : CodeConstraint

/-- The origin of the invite link, and `identity.users.created_at`. -/
structure ClaimConfig where
  publicOrigin : String
  accountCreatedAt : Uuid → Option Instant

/-- Where a call stands. -/
inductive ClaimPlace where
  | idle
  | failed
  | ended
  | completing (customerId : Uuid)
  | waiting (milliseconds : ℕ)
  -- `codeFor`
  | returned (ownerUserId : Uuid) (view : ReferralCodeView)
  | exhausted (ownerUserId : Uuid)
  | find (ownerUserId : Uuid)
  | create (ownerUserId : Uuid) (attempt : ℕ)
  | created (row : ReferralCodeEntity)
  | findWinner (ownerUserId : Uuid) (attempt : ℕ)
  -- `claim`
  | claimed (i : ClaimInput) (result : ReferralClaimResult)
  | threw (i : ClaimInput) (error : ReferralClaimError)
  | charge (i : ClaimInput)
  | charged (i : ClaimInput)
  | transaction (i : ClaimInput)
  | lookup (i : ClaimInput)
  | prior (i : ClaimInput) (codeRow : ReferralCodeEntity)
  | account (i : ClaimInput) (codeRow : ReferralCodeEntity) (now : Instant)
  | booking (i : ClaimInput) (codeRow : ReferralCodeEntity) (now : Instant)
  | insert (i : ClaimInput) (codeRow : ReferralCodeEntity) (now : Instant)
  | attributed (i : ClaimInput) (now : Instant)
  deriving DecidableEq

def ClaimConfig.toView (config : ClaimConfig) (row : ReferralCodeEntity) : ReferralCodeView where
  code := row.code
  inviteUrl := buildReferralInviteUrl config.publicOrigin row.code
  shareText := buildReferralShareText row.code
  shareChannels := ["copy_code", "copy_link", "native_share"]

/-- The row that a claim inserts. -/
def ClaimInput.attribution (i : ClaimInput) (codeRow : ReferralCodeEntity) (id : Uuid)
    (now : Instant) : ClaimedAttribution where
  id := id
  referrerUserId := codeRow.ownerUserId
  refereeUserId := i.refereeUserId
  attributedAt := now
  expiresAt := pendingAttributionExpiry now referralPendingAttributionExpiryDays
  state := .pending
  referralCodeId := codeRow.id

/-- `ck_referrals_no_self`, `ck_referrals_expiry_after_attribution`. -/
def ClaimedAttribution.Allowed (x : ClaimedAttribution) : Prop :=
  x.referrerUserId ≠ x.refereeUserId ∧ x.attributedAt < x.expiresAt
  deriving Decidable

section Statement

variable (config : ClaimConfig) (env : ClaimEnv) (db : ClaimDb) (pid : ℕ)

/-- The code that `create` inserts. -/
def ClaimEnv.codeRow (ownerUserId : Uuid) : ReferralCodeEntity := ⟨env.uuid, ownerUserId, env.code⟩

/-- A row that is there to stay has the owner, or the code. -/
def Violates (row : ReferralCodeEntity) : CodeConstraint → Prop
  | .owner => (db.codes.get pid row.ownerUserId).isSome
  | .code => ∃ k ∈ db.codes.keys, ¬(db.codes.row k).Locked pid ∧
      (db.codes.row k).HasVersion (SameCode row)

instance (row : ReferralCodeEntity) : DecidablePred (Violates db pid row)
  | .owner => inferInstanceAs (Decidable (_ = true))
  | .code => inferInstanceAs (Decidable (∃ _ ∈ _, _))

/-- `uniqueViolationConstraint` of an insert that fails. -/
def uniqueViolationConstraint (row : ReferralCodeEntity) : CodeConstraint :=
  if Violates db pid row env.checkedFirst then env.checkedFirst
  else if env.checkedFirst = .code then .owner
  else .code

/-- The next turn of the loop, if there is one. -/
def nextAttempt (ownerUserId : Uuid) (attempt : ℕ) : Next ClaimDb Uuid ClaimPlace :=
  if attempt < maxCodeAttempts then .goes db (.create ownerUserId (attempt + 1))
  else .throws (.exhausted ownerUserId)

/-- `codeFor`, with `create`. -/
def codeForStatement : ClaimPlace → Next ClaimDb Uuid ClaimPlace
  | .find ownerUserId =>
    match db.codes.get pid ownerUserId with
    | some existing => .commits (.returned ownerUserId (config.toView existing))
    | none => .goes db (.create ownerUserId 1)
  | .create ownerUserId attempt =>
    let row := env.codeRow ownerUserId
    -- the generator draws well-formed codes only
    if isReferralCodeShape row.code then
      match db.codes.insert pid ownerUserId row (SameCode row) with
      | .waits => .waits
      | .done _ t => .goes { db with codes := t } (.created row)
      | _ =>
        match uniqueViolationConstraint env db pid row with
        | .code => nextAttempt db ownerUserId attempt
        | .owner => .goes db (.findWinner ownerUserId attempt)
    else .waits
  | .created row => .commits (.returned row.ownerUserId (config.toView row))
  | .findWinner ownerUserId attempt =>
    match db.codes.get pid ownerUserId with
    | some winner => .commits (.returned ownerUserId (config.toView winner))
    | none => nextAttempt db ownerUserId attempt
  | _ => .waits

/-- `chargeClaimAttempt`, a transaction of its own. -/
def chargeStatement : ClaimPlace → Next ClaimDb Uuid ClaimPlace
  | .charge i =>
    let key := (i.refereeUserId, hourBucket db.clock)
    if (db.claimAttempts.row key).Locked pid then .waits
    else
      let count := (db.claimAttempts.get pid key).getD 0
      if count < referralClaimAttemptsPerHour then
        .goes { db with
          claimAttempts := db.claimAttempts.write pid key (count + 1)
          passes := db.passes.append pid (pid, key) } (.charged i)
      else .throws (.threw i (.throttled referralClaimAttemptsPerHour))
  | .charged i => .commits (.transaction i)
  | _ => .waits

/-- The transaction of `claim`. -/
def attributeStatement : ClaimPlace → Next ClaimDb Uuid ClaimPlace
  | .transaction i =>
    if isReferralCodeShape i.code then .goes db (.lookup i) else .throws (.threw i .refused)
  | .lookup i =>
    match (db.codes.select pid fun row => row.code = i.code).filterMap (db.codes.get pid) with
    | [] => .throws (.threw i .refused)
    | codeRow :: _ =>
      if codeRow.ownerUserId = i.refereeUserId then .throws (.threw i .refused)
      else .goes db (.prior i codeRow)
  | .prior i codeRow =>
    match db.referrals.get pid i.refereeUserId with
    | some _ => .throws (.threw i .refused)
    | none => .goes db (.account i codeRow db.clock)
  | .account i codeRow now =>
    match config.accountCreatedAt i.refereeUserId with
    | none => .throws (.threw i .refused)
    | some createdAt =>
      if createdAt < accountAgeCutoff now referralClaimMaxAccountAgeDays then
        .throws (.threw i .refused)
      else .goes db (.booking i codeRow now)
  | .booking i codeRow now =>
    if i.refereeUserId ∈ db.completedBookings then .throws (.threw i .refused)
    else .goes db (.insert i codeRow now)
  | .insert i codeRow now =>
    let row := i.attribution codeRow env.uuid now
    if row.Allowed then
      match db.referrals.insert pid i.refereeUserId row fun _ => False with
      | .waits => .waits
      | .done _ t => .goes { db with referrals := t } (.attributed i now)
      -- `uq_referrals_referee`
      | _ => .throws (.threw i .refused)
    else .throws (.threw i .queryFailed)
  | .attributed i now =>
    .commits (.claimed i
      ⟨now, pendingAttributionExpiry now referralPendingAttributionExpiryDays⟩)
  | _ => .waits

/-- The statement of a call at its place. -/
def claimStatement : ClaimPlace → Next ClaimDb Uuid ClaimPlace
  | .completing customerId =>
    .goes { db with completedBookings := customerId :: db.completedBookings } .ended
  | .waiting milliseconds => .goes { db with clock := db.clock + milliseconds } .ended
  | .find ownerUserId => codeForStatement config env db pid (.find ownerUserId)
  | .create ownerUserId attempt => codeForStatement config env db pid (.create ownerUserId attempt)
  | .created row => codeForStatement config env db pid (.created row)
  | .findWinner ownerUserId attempt =>
    codeForStatement config env db pid (.findWinner ownerUserId attempt)
  | .charge i => chargeStatement db pid (.charge i)
  | .charged i => chargeStatement db pid (.charged i)
  | place => attributeStatement config env db pid place

end Statement

/-- A call there still runs. -/
def ClaimPlace.running : ClaimPlace → Bool
  | .idle | .failed | .ended | .returned .. | .exhausted _ | .claimed .. | .threw .. => false
  | _ => true

/-- Where a call starts. -/
def ClaimRequest.first : ClaimRequest → ClaimPlace
  | .codeFor ownerUserId => .find ownerUserId
  | .claim i => .charge i
  | .completeBooking customerId => .completing customerId
  | .wait milliseconds => .waiting milliseconds

/-- The calls on referral codes. -/
def claimService (config : ClaimConfig) :
    Service ClaimDb Uuid ClaimPlace ClaimRequest ClaimEnv where
  commit := ClaimDb.commit
  rollback := ClaimDb.rollback
  idle := .idle
  failed := .failed
  running := ClaimPlace.running
  first := ClaimRequest.first
  statement := claimStatement config

/-! ## What is to hold -/

/-- A drawn code collides: the insert fails, for its code. -/
def CollidesAt (env : ClaimEnv) (db : ClaimDb) (pid : ℕ) (ownerUserId : Uuid) : Prop :=
  Violates db pid (env.codeRow ownerUserId) .code ∧
    uniqueViolationConstraint env db pid (env.codeRow ownerUserId) = .code

/-- The last attempt of a call is not a collision as well. -/
def FewCollisions (s : System ClaimDb Uuid ClaimPlace) (e : Step ClaimRequest ClaimEnv) : Prop :=
  match e.action with
  | .statement env => ∀ ownerUserId, s.calls e.pid = .create ownerUserId maxCodeAttempts →
      ¬CollidesAt env s.db e.pid ownerUserId
  | _ => True

/-- The call of a claim that has passed the throttle. -/
def ClaimPlace.passed : ClaimPlace → Option ClaimInput
  | .transaction i | .lookup i | .prior i _ | .account i _ _ | .booking i _ _
  | .insert i _ _ | .attributed i _ | .claimed i _ | .threw i .refused
  | .threw i .queryFailed => some i
  | _ => none

/-- There is one code for an owner, and every call of the owner's returns it; there is one
attribution of a referee, of a claim that has succeeded, and to another user; as many attempts pass
in an hour as the limit allows; and a claim that fails after that is refused, for one reason. -/
structure SingleValued (config : ClaimConfig) (s : System ClaimDb Uuid ClaimPlace) : Prop where
  code : ∀ k k' row row', s.db.codes.committed k = some row → s.db.codes.committed k' = some row' →
    row.ownerUserId = row'.ownerUserId ∨ row.code = row'.code → row = row'
  returned : ∀ pid ownerUserId view, s.calls pid = .returned ownerUserId view →
    ∃ row, s.db.codes.committed ownerUserId = some row ∧ row.ownerUserId = ownerUserId ∧
      view = config.toView row
  noneFails : ∀ pid ownerUserId, s.calls pid ≠ .exhausted ownerUserId
  attribution : ∀ k k' x x', s.db.referrals.committed k = some x →
    s.db.referrals.committed k' = some x' → x.refereeUserId = x'.refereeUserId → x = x'
  claimed : ∀ k x, s.db.referrals.committed k = some x → x.referrerUserId ≠ x.refereeUserId ∧
    ∃ pid i result, s.calls pid = .claimed i result ∧ i.refereeUserId = x.refereeUserId
  passed : ∀ pid i, (s.calls pid).passed = some i →
    ∃ bucket, (pid, i.refereeUserId, bucket) ∈ s.db.passes.committed
  throttled : ∀ claimant bucket,
    s.db.passes.committed.countP (fun pass => pass.2 = (claimant, bucket)) ≤
      referralClaimAttemptsPerHour
  refused : ∀ pid i error, s.calls pid = .threw i error →
    error = .refused ∨ error = .throttled referralClaimAttemptsPerHour

/-- An attribution that is there is there ever after. -/
def AttributionsStay (config : ClaimConfig) (es : List (Step ClaimRequest ClaimEnv))
    (s₀ : System ClaimDb Uuid ClaimPlace) : Prop :=
  ∀ before after s t k x, es = before ++ after →
    Runs.runFrom (claimService config).step s₀ before = some s →
      Runs.runFrom (claimService config).step s after = some t →
        s.db.referrals.committed k = some x → t.db.referrals.committed k = some x

/-- The account is within the age limit, and has no completed booking. -/
def Eligible (config : ClaimConfig) (db : ClaimDb) (userId : Uuid) : Prop :=
  userId ∉ db.completedBookings ∧ ∃ createdAt, config.accountCreatedAt userId = some createdAt ∧
    accountAgeCutoff db.clock referralClaimMaxAccountAgeDays ≤ createdAt

/-- Whoever has claimed was eligible when the transaction of the claim began. -/
def EligibleAtStart (config : ClaimConfig) (es : List (Step ClaimRequest ClaimEnv))
    (s₀ : System ClaimDb Uuid ClaimPlace) : Prop :=
  ∀ before after s t pid i result, es = before ++ after →
    Runs.runFrom (claimService config).step s₀ before = some s → s.calls pid = .transaction i →
      Runs.runFrom (claimService config).step s after = some t → t.calls pid = .claimed i result →
        Eligible config s.db i.refereeUserId

end BeauClick.Referral
