import BeauClick.Commerce.Order
import BeauClick.Lib.Keyed
import BeauClick.Lib.Transactions

/-!
# One-time codes

`OtpService` (`services/identity/src/otp/otp.service.ts`): any number of `requestOtp` and
`verifyOtp` calls at the same time.  Each statement is a transaction of its own, and a guess is
compared with the copy of the row that the call has read.

The keyed hash is any function of the code, the phone and the purpose.
-/

namespace BeauClick.Identity

open Transactions Function

/-! ## Rows -/

/-- What a code is for. -/
inductive OtpPurpose where
  | login
  | changePhone
  | confirmDeletion
  deriving DecidableEq

/-- A row of `identity.otp_requests`. -/
structure OtpRequest where
  id : Uuid
  phone : String
  purpose : OtpPurpose
  codeHash : String
  expiresAt : Instant
  attemptsRemaining : ℤ
  consumedAt : Option Instant
  sessionUserId : Option Uuid
  requestIp : String
  createdAt : Instant
  deriving DecidableEq

/-- The configuration, with the defaults of the service, and the keyed hash. -/
structure OtpConfig where
  expirySeconds : ℕ := 120
  maxAttempts : ℕ := 5
  resendCooldownSeconds : ℕ := 60
  maxPerPhonePerHour : ℕ := 5
  maxPerIpPerHour : ℕ := 10
  hash : String → String → OtpPurpose → String

/-- The table, and what has been done with the codes on it: the wrong guesses compared with a
code, the calls whose wrong guess is still to be subtracted, and the calls that a code let
through. -/
structure OtpDb where
  codes : Keyed Uuid OtpRequest
  compared : Uuid → ℕ
  pending : Uuid → List ℕ
  accepted : Uuid → List ℕ

namespace OtpDb

/-- No rows yet. -/
def empty : OtpDb := ⟨.empty, fun _ => 0, fun _ => [], fun _ => []⟩

/-- No guess is left: the row says so, or as many wrong ones as it was issued for have been
compared. -/
def Exhausted (cfg : OtpConfig) (db : OtpDb) (id : Uuid) : Prop :=
  cfg.maxAttempts ≤ db.compared id ∨ ∃ r, db.codes.row id = some r ∧ r.attemptsRemaining ≤ 0

instance (cfg : OtpConfig) (db : OtpDb) (id : Uuid) : Decidable (Exhausted cfg db id) := by
  unfold Exhausted
  match h : db.codes.row id with
  | none => exact decidable_of_iff (cfg.maxAttempts ≤ db.compared id) (by simp)
  | some r =>
    exact decidable_of_iff (cfg.maxAttempts ≤ db.compared id ∨ r.attemptsRemaining ≤ 0) (by simp)

/-- The latest of two rows. -/
def later (a b : OtpRequest) : OtpRequest := if a.createdAt < b.createdAt then b else a

/-- The latest row of a phone and purpose.  The condition on `consumedAt` is `undefined`, which
is no condition. -/
def findOne (db : OtpDb) (phone : String) (purpose : OtpPurpose) : Option OtpRequest :=
  match db.codes.rows.filter fun r => r.phone = phone ∧ r.purpose = purpose with
  | [] => none
  | r :: rs => some (rs.foldl later r)

/-- `decrement({ id }, 'attemptsRemaining', 1)`. -/
def decrementRow (r : OtpRequest) : OtpRequest :=
  { r with attemptsRemaining := r.attemptsRemaining - 1 }

/-- A call has compared a wrong guess. -/
def recordWrong (db : OtpDb) (id : Uuid) (pid : ℕ) : OtpDb :=
  { db with
    compared := update db.compared id (db.compared id + 1)
    pending := update db.pending id (pid :: db.pending id) }

/-- The wrong guess of a call is subtracted. -/
def subtractWrong (db : OtpDb) (id : Uuid) (pid : ℕ) : OtpDb :=
  { db with
    codes := db.codes.updateRow id decrementRow
    pending := update db.pending id ((db.pending id).erase pid) }

/-- A code lets a call through. -/
def accept (db : OtpDb) (id : Uuid) (pid : ℕ) (now : Instant) : OtpDb :=
  { db with
    codes := db.codes.updateRow id fun r => { r with consumedAt := some now }
    accepted := update db.accepted id (pid :: db.accepted id) }

/-- The row of a code, committed at once. -/
def insertRow (db : OtpDb) (r : OtpRequest) : OtpDb :=
  { db with codes := db.codes.set r.id r }

end OtpDb

/-! ## `requestOtp` -/

/-- The arguments of `requestOtp`. -/
structure OtpIssue where
  phone : String
  purpose : OtpPurpose
  ip : String
  sessionUserId : Option Uuid
  deriving DecidableEq

/-- `RateLimitedException`, with the seconds to wait where they are known. -/
structure RateLimited where
  retryAfterSeconds : Option ℤ
  deriving DecidableEq

/-- The counts and the latest code that `requestOtp` reads. -/
def rateLimit (cfg : OtpConfig) (db : OtpDb) (req : OtpIssue) (now : Instant) :
    Option RateLimited :=
  let oneHourAgo := now - 60 * 60 * 1000
  let phoneCount := db.codes.rows.countP fun r =>
    r.phone = req.phone ∧ r.purpose = req.purpose ∧ oneHourAgo < r.createdAt
  let ipCount := db.codes.rows.countP fun r => r.requestIp = req.ip ∧ oneHourAgo < r.createdAt
  if cfg.maxPerPhonePerHour ≤ phoneCount ∨ cfg.maxPerIpPerHour ≤ ipCount then some ⟨none⟩
  else
    match db.findOne req.phone req.purpose with
    | none => none
    | some r =>
      let sinceLast := now - r.createdAt
      let cooldown : ℤ := cfg.resendCooldownSeconds * 1000
      -- the seconds left, rounded up
      if sinceLast < cooldown then some ⟨some (-((sinceLast - cooldown) / 1000))⟩ else none

/-- The row that `requestOtp` stores. -/
def issuedCode (cfg : OtpConfig) (req : OtpIssue) (id : Uuid) (code : String) (now : Instant) :
    OtpRequest where
  id := id
  phone := req.phone
  purpose := req.purpose
  codeHash := cfg.hash code req.phone req.purpose
  expiresAt := now + cfg.expirySeconds * 1000
  attemptsRemaining := cfg.maxAttempts
  consumedAt := none
  sessionUserId := req.sessionUserId
  requestIp := req.ip
  createdAt := now

/-! ## `verifyOtp` -/

/-- The arguments of `verifyOtp`. -/
structure OtpGuess where
  phone : String
  code : String
  purpose : OtpPurpose
  sessionUserId : Option Uuid
  deriving DecidableEq

/-- `OtpVerifyResult`; an acceptance names the code it was won with. -/
inductive OtpResult where
  | ok (id : Uuid)
  | invalidOrExpired
  | tooManyAttempts
  deriving DecidableEq

/-- What the checks on the copy come to. -/
inductive Comparison where
  | refused (result : OtpResult)
  | wrong (id : Uuid)
  | right (id : Uuid)

/-- The checks of `verifyOtp` on the row that was found. -/
def compare (cfg : OtpConfig) (candidate : Option OtpRequest) (guess : OtpGuess) (now : Instant) :
    Comparison :=
  match candidate with
  | none => .refused .invalidOrExpired
  | some r =>
    if r.consumedAt ≠ none ∨ r.expiresAt < now then .refused .invalidOrExpired
    else if r.sessionUserId ≠ none ∧ r.sessionUserId ≠ guess.sessionUserId then
      .refused .invalidOrExpired
    else if r.attemptsRemaining ≤ 0 then .refused .tooManyAttempts
    else if cfg.hash guess.code guess.phone guess.purpose = r.codeHash then .right r.id
    else .wrong r.id

/-- A guess, when it was submitted, and the codes that were exhausted then. -/
structure Submission where
  guess : OtpGuess
  submittedAt : Instant
  exhausted : List Uuid
  deriving DecidableEq

/-- Where a call stands. -/
inductive OtpPlace where
  | idle
  | counting (req : OtpIssue)
  | saving (req : OtpIssue)
  | issued
  | limited (reason : RateLimited)
  | arriving (guess : OtpGuess)
  | looking (sub : Submission)
  | comparing (sub : Submission) (candidate : Option OtpRequest)
  | decrementing (sub : Submission) (id : Uuid)
  | consuming (sub : Submission) (id : Uuid)
  | verified (sub : Submission) (result : OtpResult)
  | failed
  deriving DecidableEq

/-- A call there still runs. -/
def OtpPlace.running : OtpPlace → Bool
  | idle | issued | limited _ | verified _ _ | failed => false
  | _ => true

/-- What a call is asked for. -/
inductive OtpCall where
  | requestOtp (req : OtpIssue)
  | verifyOtp (guess : OtpGuess)

/-- What a statement is given: the clock, and the id and the code that are drawn. -/
structure OtpEnv where
  now : Instant
  newId : Uuid
  newCode : String

section Statements

variable (cfg : OtpConfig) (env : OtpEnv) (db : OtpDb) (pid : ℕ)

/-- A place that a statement moves a call to. -/
abbrev OtpNext := Next OtpDb Unit OtpPlace

/-- The new row is inserted; the id is not one that is in use. -/
def save (req : OtpIssue) : OtpNext :=
  match db.codes.row env.newId with
  | some _ => .waits
  | none =>
    .goes (db.insertRow (issuedCode cfg req env.newId env.newCode env.now)) .issued

/-- A guess is taken up; the exhausted codes are noted. -/
def submit (guess : OtpGuess) : OtpNext :=
  .goes db (.looking ⟨guess, env.now, db.codes.keys.filter (OtpDb.Exhausted cfg db)⟩)

/-- The copy is checked.  The clock has not gone back since the guess was submitted. -/
def compareCandidate (sub : Submission) (candidate : Option OtpRequest) : OtpNext :=
  if env.now < sub.submittedAt then .waits
  else
    match compare cfg candidate sub.guess env.now with
    | .refused result => .goes db (.verified sub result)
    | .wrong id => .goes (db.recordWrong id pid) (.decrementing sub id)
    | .right id => .goes db (.consuming sub id)

/-- The wrong guess is subtracted, whatever is left. -/
def decrement (sub : Submission) (id : Uuid) : OtpNext :=
  .goes (db.subtractWrong id pid) (.verified sub .invalidOrExpired)

/-- The `UPDATE … WHERE id = :id AND consumed_at IS NULL`. -/
def consume (sub : Submission) (id : Uuid) : OtpNext :=
  match db.codes.row id with
  | none => .goes db (.verified sub .invalidOrExpired)
  | some r =>
    if r.consumedAt ≠ none then .goes db (.verified sub .invalidOrExpired)
    else .goes (db.accept id pid env.now) (.verified sub (.ok id))

/-- The statement of a call at its place. -/
def otpStatement (place : OtpPlace) : OtpNext :=
  match place with
  | .counting req =>
    match rateLimit cfg db req env.now with
    | some reason => .goes db (.limited reason)
    | none => .goes db (.saving req)
  | .saving req => save cfg env db req
  | .arriving guess => submit cfg env db guess
  | .looking sub => .goes db (.comparing sub (db.findOne sub.guess.phone sub.guess.purpose))
  | .comparing sub candidate => compareCandidate cfg env db pid sub candidate
  | .decrementing sub id => decrement db pid sub id
  | .consuming sub id => consume env db pid sub id
  | _ => .waits

end Statements

/-- Where a call starts. -/
def OtpCall.place : OtpCall → OtpPlace
  | requestOtp req => .counting req
  | verifyOtp guess => .arriving guess

/-- Calls at work on the codes.  A statement that has been taken is committed. -/
def otpService (cfg : OtpConfig) : Service OtpDb Unit OtpPlace OtpCall OtpEnv where
  commit := fun db _ => db
  rollback := fun db _ => db
  idle := .idle
  failed := .failed
  running := OtpPlace.running
  first := OtpCall.place
  statement := otpStatement cfg

end BeauClick.Identity
