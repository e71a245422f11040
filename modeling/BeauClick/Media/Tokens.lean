import BeauClick.Lib.Base64url
import BeauClick.Lib.Json
import BeauClick.Media.Lifecycle
import BeauClick.Rbac.Roles

/-!
# Media tokens

The tokens of `libs/media/src`: `signUploadToken` and `verifyUploadToken`
(`storage/upload-grant.token.ts`), and the download tokens of `MediaService`.
-/

namespace BeauClick.Media

open Json (Scalar)
open Rbac (Catalogue)

/-! ## Tables and configuration -/

def uuidText (id : Uuid) : String := toString id

/-- A row of `media.abuse_reports`: its object and its status. -/
structure ReportRow where
  mediaObjectId : String
  status : AbuseReportStatus

/-- What a request finds: tables, keyed by the texts of ids, and the bytes that are stored. -/
structure World where
  objects : List (String × MediaObjectEntity)
  reports : List (String × ReportRow)
  /-- `identity.user_roles`: a user and a role. -/
  userRoles : List (String × String)
  /-- `storage.read`. -/
  read : String → Option Buffer

namespace World

/-- `findOne({ where: { id } })`. -/
def object? (w : World) (id : String) : Option MediaObjectEntity :=
  (w.objects.find? fun o => o.1 = id).map (·.2)

/-- `findOne({ where: { storageKey } })`. -/
def objectAt? (w : World) (storageKey : String) : Option MediaObjectEntity :=
  (w.objects.find? fun o => o.2.storageKey = storageKey).map (·.2)

/-- `findOne({ where: { id } })`. -/
def report? (w : World) (id : String) : Option ReportRow :=
  (w.reports.find? fun r => r.1 = id).map (·.2)

end World

/-- The tables at each of the reads of a request. -/
structure Live where
  object : World
  report : World
  roles : World
  bytes : World

/-- How the server is set up. -/
structure TokenConfig where
  uploadTokenSecret : String
  downloadTokenSecret : String
  /-- `createHmac('sha256', secret).update(body).digest()`. -/
  hmac : String → List Char → List UInt8
  catalogue : Catalogue
  /-- `PRIVILEGED_CAPABILITY_VERIFIER` is bound. -/
  verifier : Bool
  /-- The driver has an `acceptDirectUpload`. -/
  direct : Bool

section Functions

variable (cfg : TokenConfig)

/-! ## Signing -/

/-- The claims as they are signed. -/
def base64url (fields : List (String × Scalar)) : List Char :=
  Base64url.encode (Utf8.encode (Json.stringify fields))

/-- The signature of a token's body. -/
def mac (secret : String) (body : List Char) : List Char := Base64url.encode (cfg.hmac secret body)

/-- `${body}.${mac}`. -/
def signed (secret : String) (fields : List (String × Scalar)) : List Char :=
  base64url fields ++ '.' :: mac cfg secret (base64url fields)

/-- The claims of an upload token. -/
structure UploadTokenClaims where
  k : String
  m : String
  c : String
  n : ℕ
  e : ℕ

def UploadTokenClaims.fields (claims : UploadTokenClaims) : List (String × Scalar) :=
  [("k", .str claims.k), ("m", .str claims.m), ("c", .str claims.c), ("n", .nat claims.n),
    ("e", .nat claims.e)]

/-- A body and its signature under the upload secret. -/
def signUploadToken (claims : UploadTokenClaims) : List Char :=
  signed cfg cfg.uploadTokenSecret claims.fields

/-- The claims of a download token. -/
structure DownloadClaims where
  m : String
  u : String
  e : ℕ
  r : Option String

def DownloadClaims.fields (claims : DownloadClaims) : List (String × Scalar) :=
  [("m", .str claims.m), ("u", .str claims.u), ("e", .nat claims.e)] ++
    claims.r.toList.map fun r => ("r", .str r)

/-- A body and its signature under the download secret. -/
def signDownloadToken (claims : DownloadClaims) : List Char :=
  signed cfg cfg.downloadTokenSecret claims.fields

def protectedDownloadTtlSeconds : ℕ := 5 * 60

/-- The claims of `issueProtectedDownloadUrl`. -/
def issueProtectedDownloadUrl (now : ℕ) (mediaId viewerUserId : String) : DownloadClaims :=
  ⟨mediaId, viewerUserId, now / 1000 + protectedDownloadTtlSeconds, none⟩

/-- Stored, public and not deleted. -/
def isInspectable (row : MediaObjectEntity) : Prop :=
  row.status = .stored ∧ row.isPublic = true ∧ row.deletedAt = none
  deriving Decidable

/-- The claims of `issueReportInspectionUrl`. -/
def issueReportInspectionUrl (live : Live) (now : ℕ) (reportId viewerUserId : String) :
    Option DownloadClaims := do
  let report ← live.report.report? reportId
  guard (report.status = .open)
  let row ← live.object.object? report.mediaObjectId
  guard (isInspectable row)
  guard (live.bytes.read row.storageKey).isSome
  return ⟨report.mediaObjectId, viewerUserId, now / 1000 + protectedDownloadTtlSeconds,
    some reportId⟩

/-! ## Verifying -/

/-- The body of a token whose code fits. -/
def checkedBody (secret : String) (token : List Char) : Option (List Char) :=
  match token.splitOn '.' with
  | [body, given] => if given = mac cfg secret body then some body else none
  | _ => none

/-- `JSON.parse(Buffer.from(body, 'base64url').toString('utf8'))`. -/
def parseClaims (body : List Char) : Option Json :=
  Json.parse (Utf8.decode (Base64url.decode body))

/-- `claims.e * 1000 <= now`; an absent field compares as `NaN` does.  No claims that are signed
have a value here that is no number. -/
def Expired (now : ℕ) : Option Json → Prop
  | some (.num e) => e * 1000 ≤ now
  | _ => False

instance (now : ℕ) (e : Option Json) : Decidable (Expired now e) := by
  unfold Expired
  split <;> infer_instance

/-- The claims of a token that is signed and not expired. -/
def verifyUploadToken (token : List Char) (now : ℕ) : Option Json := do
  let body ← checkedBody cfg cfg.uploadTokenSecret token
  let claims ← parseClaims body
  match claims.field? "k", claims.field? "m", claims.field? "e" with
  | some (.str _), some (.str _), some (.num e) =>
    if Expired now (some (.num e)) then none else some claims
  | _, _, _ => none

/-! ## Uploads -/

/-- `length > limit`. -/
def Exceeds (length : ℕ) : Option Json → Prop
  | some (.num limit) => limit < length
  | _ => False

instance (length : ℕ) (limit : Option Json) : Decidable (Exceeds length limit) := by
  unfold Exceeds
  split <;> infer_instance

/-- `acceptDirectUpload`: the key that is written, and its bytes. -/
def acceptDirectUpload (w : World) (objectKey : String) (declaredBytes : Option Json)
    (body : Buffer) : Option (String × Buffer) :=
  if cfg.direct then
    match w.objectAt? objectKey with
    | none => none
    | some row =>
      if row.status ≠ .pending then none
      else if Exceeds body.length declaredBytes ∨ row.purpose.policy.maxBytes < body.length then
        none
      else some (objectKey, body)
  else none

/-- `directUpload`, with `readBodyWithLimit`. -/
def directUpload (w : World) (token : List Char) (now : ℕ) (body : Buffer) :
    Option (String × Buffer) := do
  let claims ← verifyUploadToken cfg token now
  match claims.field? "k" with
  | some (.str k) =>
    if Exceeds body.length (claims.field? "n") then none
    else acceptDirectUpload cfg w k (claims.field? "n") body
  | _ => none

/-! ## Downloads -/

/-- `rolesForUser`: `find` leaves out a condition on `undefined` or on `null`, and it fails on what
is no text. -/
def rolesForUser (w : World) : Option Json → Option (List String)
  | none | some .null => some (w.userRoles.map (·.2))
  | some (.str userId) => some ((w.userRoles.filter fun r => r.1 = userId).map (·.2))
  | some _ => none

/-- The capability, read when the token is redeemed. -/
def viewerHasCapability (w : World) (userId : Option Json) (capability : String) : Bool :=
  cfg.verifier &&
    match rolesForUser w userId with
    | none => false
    | some roles => capability ∈ cfg.catalogue.linked roles

/-- Whether the viewer may see a reported image. -/
def canInspectReported (live : Live) (mediaId : String) (row : MediaObjectEntity)
    (reportId : String) (viewerUserId : Option Json) : Bool :=
  if isInspectable row then
    match live.report.report? reportId with
    | none => false
    | some report =>
      if report.status ≠ .open ∨ report.mediaObjectId ≠ mediaId then false
      else viewerHasCapability cfg live.roles viewerUserId "bc_moderate_media"
  else false

/-- `object.ownerUserId === viewerUserId`. -/
def IsOwner (row : MediaObjectEntity) : Option Json → Prop
  | some (.str userId) => uuidText row.ownerUserId = userId
  | _ => False

instance (row : MediaObjectEntity) (userId : Option Json) : Decidable (IsOwner row userId) := by
  unfold IsOwner
  split <;> infer_instance

/-- `canView` of `serveProtected`. -/
def canView (live : Live) (row : MediaObjectEntity) (viewerUserId : Option Json) : Bool :=
  if IsOwner row viewerUserId then true
  else if row.purpose = .verificationEvidence then
    viewerHasCapability cfg live.roles viewerUserId "bc_moderate_verification"
  else false

/-- `resolveProtectedDownload` once the claims are read: the bytes that are returned. -/
def serveClaims (live : Live) (requestedMediaId : String) (now : ℕ) (claims : Json) :
    Option Buffer :=
  if Expired now (claims.field? "e") then none
  else
    match claims.field? "m" with
    | some (.str m) =>
      if m ≠ requestedMediaId then none
      else do
        let row ← live.object.object? m
        match claims.field? "r" with
        | some (.str r) =>
          if canInspectReported cfg live m row r (claims.field? "u") then
            live.bytes.read row.storageKey
          else none
        | none =>
          if row.status ≠ .stored ∨ row.isPublic = true then none
          else if canView cfg live row (claims.field? "u") then live.bytes.read row.storageKey
          else none
        | some _ => none
    | _ => none

/-- The object that a token opens. -/
def resolveProtectedDownload (live : Live) (requestedMediaId : String) (token : List Char)
    (now : ℕ) : Option Buffer := do
  let body ← checkedBody cfg cfg.downloadTokenSecret token
  let claims ← parseClaims body
  serveClaims cfg live requestedMediaId now claims

/-! ## Codes that cannot be forged -/

/-- A token that the server has signed. -/
inductive Minted where
  | upload (claims : UploadTokenClaims)
  | download (claims : DownloadClaims)

namespace Minted

def fields : Minted → List (String × Scalar)
  | .upload claims => claims.fields
  | .download claims => claims.fields

def secret : Minted → String
  | .upload _ => cfg.uploadTokenSecret
  | .download _ => cfg.downloadTokenSecret

end Minted

/-- A token with a code that fits one of the two secrets has a body that the server has signed with
that secret. -/
def Unforged (minted : List Minted) (token : List Char) : Prop :=
  ∀ secret ∈ [cfg.uploadTokenSecret, cfg.downloadTokenSecret], ∀ body given,
    token.splitOn '.' = [body, given] → given = mac cfg secret body →
      ∃ x ∈ minted, x.secret cfg = secret ∧ base64url x.fields = body

end Functions

end BeauClick.Media
