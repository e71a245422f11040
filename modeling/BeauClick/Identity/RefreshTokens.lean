import BeauClick.Commerce.Order
import BeauClick.Lib.ReadCommitted
import BeauClick.Lib.Transactions

/-!
# Refresh tokens

`TokenService` (`services/identity/src/token/token.service.ts`): any number of sign-ins,
rotations and revocations at the same time.  A rotation claims its token, stores the
replacement and links the two in three transactions; a revocation of all tokens of a user is
one transaction on the rows that it sees when it starts.
-/

namespace BeauClick.Identity

open ReadCommitted Transactions

/-! ## Rows -/

/-- A row of `identity.refresh_tokens`. -/
structure RefreshToken where
  userId : Uuid
  tokenHash : String
  deviceLabel : Option String
  userAgent : Option String
  replacedByTokenId : Option Uuid
  revokedAt : Option Instant
  expiresAt : Instant
  lastUsedAt : Option Instant
  sessionStartedAt : Option Instant

/-- The token can be rotated. -/
def RefreshToken.Live (r : RefreshToken) (now : Instant) : Prop :=
  r.revokedAt = none ∧ now < r.expiresAt
  deriving Decidable

/-- The table, the token that each token was rotated from, and the revocations of all tokens of a
user: those at work and those committed, each with the tokens that the user had when it started. -/
structure TokenDb where
  tokens : Versioned ℕ Uuid RefreshToken
  parent : Uuid → Option Uuid
  started : List (ℕ × List Uuid)
  revocations : List (List Uuid)

namespace TokenDb

/-- No rows yet. -/
def empty : TokenDb := ⟨.empty, fun _ => none, [], []⟩

def row (db : TokenDb) (id : Uuid) : Option RefreshToken := db.tokens.committed id

/-- A transaction of one statement has written a row. -/
def put (db : TokenDb) (pid : ℕ) (id : Uuid) (r : RefreshToken) : TokenDb :=
  { db with tokens := db.tokens.put pid id r }

/-- A transaction of one statement has stored a token. -/
def store (db : TokenDb) (pid : ℕ) (id : Uuid) (r : RefreshToken) (parent : Option Uuid) :
    TokenDb :=
  { db with
    tokens := db.tokens.put pid id r
    parent := Function.update db.parent id parent }

/-- A revocation starts with what it sees. -/
def startRevocation (db : TokenDb) (pid : ℕ) (ids : List Uuid) : TokenDb :=
  { db with started := (pid, ids) :: db.started }

/-- The end of a transaction: its revocation is committed. -/
def commit (db : TokenDb) (pid : ℕ) : TokenDb :=
  { db with
    tokens := db.tokens.commit pid
    started := db.started.filter (·.1 ≠ pid)
    revocations := (db.started.filter (·.1 = pid)).map (·.2) ++ db.revocations }

/-- Transaction `pid` rolls back. -/
def rollback (db : TokenDb) (pid : ℕ) : TokenDb :=
  { db with
    tokens := db.tokens.rollback pid
    started := db.started.filter (·.1 ≠ pid) }

/-- The row of a hash, which is unique. -/
def findByHash (db : TokenDb) (pid : ℕ) (tokenHash : String) : Option Uuid :=
  (db.tokens.select pid fun r => r.tokenHash = tokenHash).head?

end TokenDb

/-- A token was rotated, in any number of steps, from another. -/
def Descends (db : TokenDb) : Uuid → Uuid → Prop :=
  Relation.ReflTransGen fun id parent => db.parent id = some parent

/-! ## Calls -/

/-- The row that a rotation has claimed. -/
structure Claim where
  id : Uuid
  userId : Uuid
  deviceLabel : Option String
  userAgent : Option String
  sessionStartedAt : Option Instant
  deriving DecidableEq

/-- What `issuePair` is given, and the claim that it continues. -/
structure Issue where
  userId : Uuid
  deviceLabel : Option String
  userAgent : Option String
  sessionStartedAt : Option Instant
  from' : Option Claim
  deriving DecidableEq

/-- What a call answers. -/
inductive TokenResult where
  | pair (refreshTokenId : Uuid)
  | unauthorized
  | revoked
  deriving DecidableEq

/-- Where a call stands. -/
inductive TokenPlace where
  | idle
  | claiming (tokenHash : String) (deviceLabel userAgent : Option String)
  | unclaimable (tokenHash : String)
  | finding (claim : Claim) (deviceLabel userAgent : Option String)
  | storing (issue : Issue)
  | linking (claim : Claim) (refreshTokenId : Uuid)
  | revoking (tokenHash : String)
  | revokingId (id : Uuid)
  | revokingAll (userId : Uuid) (after : TokenResult)
  | revokingRows (userId : Uuid) (revokedAt : Instant) (rest : List Uuid) (after : TokenResult)
  | returned (result : TokenResult)
  | failed
  deriving DecidableEq

/-- A call there still runs. -/
def TokenPlace.running : TokenPlace → Bool
  | idle | returned _ | failed => false
  | _ => true

/-- What a call is asked: a sign-in's `issuePair`, and the methods of the service. -/
inductive TokenCall where
  | issuePair (userId : Uuid) (deviceLabel userAgent : Option String)
  | rotate (tokenHash : String) (deviceLabel userAgent : Option String)
  | revoke (tokenHash : String)
  | revokeById (id : Uuid)
  | revokeAllForUser (userId : Uuid)

/-- What a statement is given: the clock, the id and the hash of a token that is drawn, and whether
the user is found. -/
structure TokenEnv where
  now : Instant
  newId : Uuid
  newHash : String
  userFound : Bool

/-- A replay within it is a retry, not a theft. -/
def replayGraceMs : ℤ := 10000

section Statements

variable (refreshTtlDays : ℕ) (env : TokenEnv) (db : TokenDb) (pid : ℕ)

abbrev TokenNext := Next TokenDb Unit TokenPlace

/-- The `UPDATE … RETURNING` of `rotate`. -/
def claim (tokenHash : String) (deviceLabel userAgent : Option String) : TokenNext :=
  match db.findByHash pid tokenHash with
  | none => .goes db (.unclaimable tokenHash)
  | some id =>
    match db.tokens.update pid id (fun r => r.Live env.now)
      fun r => { r with revokedAt := some env.now, lastUsedAt := some env.now } with
    | .waits => .waits
    | .done r _ =>
      .goes (db.put pid id r)
        (.finding ⟨id, r.userId, r.deviceLabel, r.userAgent, r.sessionStartedAt⟩ deviceLabel
          userAgent)
    | .unmatched | .violated => .goes db (.unclaimable tokenHash)

/-- `handleUnclaimableToken`: an old token that is not fresh from a rotation ends every session. -/
def handleUnclaimable (tokenHash : String) : TokenNext :=
  match (db.findByHash pid tokenHash).bind fun id => db.tokens.get pid id with
  | none => .goes db (.returned .unauthorized)
  | some existing =>
    match existing.revokedAt with
    | some revokedAt =>
      if env.now - revokedAt < replayGraceMs then .goes db (.returned .unauthorized)
      else .goes db (.revokingAll existing.userId .unauthorized)
    | none => .goes db (.revokingAll existing.userId .unauthorized)

/-- The user of the claim is looked up. -/
def findUser (claim : Claim) (deviceLabel userAgent : Option String) : TokenNext :=
  if env.userFound then
    .goes db (.storing ⟨claim.userId, deviceLabel <|> claim.deviceLabel,
      userAgent <|> claim.userAgent, claim.sessionStartedAt, some claim⟩)
  else .goes db (.returned .unauthorized)

/-- The row that `issuePair` saves. -/
def Issue.token (issue : Issue) : RefreshToken where
  userId := issue.userId
  tokenHash := env.newHash
  deviceLabel := issue.deviceLabel
  userAgent := issue.userAgent
  replacedByTokenId := none
  revokedAt := none
  expiresAt := env.now + refreshTtlDays * 24 * 60 * 60 * 1000
  lastUsedAt := none
  sessionStartedAt := issue.sessionStartedAt <|> some env.now

/-- `issuePair`: the row is stored, under the unique index on the hash. -/
def storeToken (issue : Issue) : TokenNext :=
  match db.tokens.insert pid env.newId (issue.token refreshTtlDays env)
    (fun r => r.tokenHash = env.newHash) with
  | .waits => .waits
  | .done r _ =>
    .goes (db.store pid env.newId r (issue.from'.map (·.id)))
      (match issue.from' with
      | none => .returned (.pair env.newId)
      | some claim => .linking claim env.newId)
  | .unmatched | .violated => .goes db .failed

/-- The claimed row is pointed at its replacement. -/
def link (claim : Claim) (refreshTokenId : Uuid) : TokenNext :=
  match db.tokens.update pid claim.id (fun _ => True)
    fun r => { r with replacedByTokenId := some refreshTokenId } with
  | .waits => .waits
  | .done r _ => .goes (db.put pid claim.id r) (.returned (.pair refreshTokenId))
  | .unmatched | .violated => .goes db (.returned (.pair refreshTokenId))

/-- `revokeById`, and `revoke` once the row is found. -/
def revokeRow (id : Uuid) : TokenNext :=
  match db.tokens.update pid id (fun _ => True) fun r => { r with revokedAt := some env.now } with
  | .waits => .waits
  | .done r _ => .goes (db.put pid id r) (.returned .revoked)
  | .unmatched | .violated => .goes db (.returned .revoked)

/-- `revoke`. -/
def revokeHash (tokenHash : String) : TokenNext :=
  match db.findByHash pid tokenHash with
  | none => .goes db (.returned .revoked)
  | some id => revokeRow env db pid id

/-- The `UPDATE` of `revokeAllForUser` takes its snapshot. -/
def revokeAll (userId : Uuid) (after : TokenResult) : TokenNext :=
  .goes (db.startRevocation pid (db.tokens.select pid fun r => r.userId = userId))
    (.revokingRows userId env.now
      (db.tokens.select pid fun r => r.userId = userId ∧ r.revokedAt = none) after)

/-- It comes to a row: one that another transaction has is waited for, and looked at again. -/
def revokeNext (userId : Uuid) (revokedAt : Instant) (rest : List Uuid) (after : TokenResult) :
    TokenNext :=
  match rest with
  | [] => .commits (.returned after)
  | id :: rest =>
    match db.tokens.update pid id (fun r => r.userId = userId ∧ r.revokedAt = none)
      fun r => { r with revokedAt := some revokedAt } with
    | .waits => .waits
    | .done _ tokens =>
      .goes { db with tokens := tokens } (.revokingRows userId revokedAt rest after)
    | .unmatched | .violated => .goes db (.revokingRows userId revokedAt rest after)

/-- The statement of a call at its place. -/
def tokenStatement (place : TokenPlace) : TokenNext :=
  match place with
  | .claiming tokenHash deviceLabel userAgent => claim env db pid tokenHash deviceLabel userAgent
  | .unclaimable tokenHash => handleUnclaimable env db pid tokenHash
  | .finding claim deviceLabel userAgent => findUser env db claim deviceLabel userAgent
  | .storing issue => storeToken refreshTtlDays env db pid issue
  | .linking claim refreshTokenId => link db pid claim refreshTokenId
  | .revoking tokenHash => revokeHash env db pid tokenHash
  | .revokingId id => revokeRow env db pid id
  | .revokingAll userId after => revokeAll env db pid userId after
  | .revokingRows userId revokedAt rest after => revokeNext db pid userId revokedAt rest after
  | _ => .waits

end Statements

/-- Where a call starts. -/
def TokenCall.place : TokenCall → TokenPlace
  | issuePair userId deviceLabel userAgent =>
    .storing ⟨userId, deviceLabel, userAgent, none, none⟩
  | rotate tokenHash deviceLabel userAgent => .claiming tokenHash deviceLabel userAgent
  | revoke tokenHash => .revoking tokenHash
  | revokeById id => .revokingId id
  | revokeAllForUser userId => .revokingAll userId .revoked

/-- Calls at work on the tokens. -/
def tokenService (refreshTtlDays : ℕ) : Service TokenDb Unit TokenPlace TokenCall TokenEnv where
  commit := TokenDb.commit
  rollback := TokenDb.rollback
  idle := .idle
  failed := .failed
  running := TokenPlace.running
  first := TokenCall.place
  statement := tokenStatement refreshTtlDays

end BeauClick.Identity
