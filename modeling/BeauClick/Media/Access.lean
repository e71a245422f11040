import BeauClick.Media.Tokens

/-!
# What media tokens open

Both routes read the claims of a token that the server has signed (`minted_of_checkedBody`); what is
left is which fields the two kinds of claims have.
-/

namespace BeauClick.Media

open List

open Json (Scalar)
open Rbac (Catalogue)

namespace Access

variable {cfg : TokenConfig} {minted : List Minted} {token : List Char} {secret : String}
  {fields : List (String × Scalar)}

/-! ## A signed token is read back -/

theorem dot_notMem_base64url : '.' ∉ base64url fields := Base64url.dot_notMem_encode _

theorem dot_notMem_mac {body : List Char} : '.' ∉ mac cfg secret body :=
  Base64url.dot_notMem_encode _

theorem splitOn_signed :
    (signed cfg secret fields).splitOn '.' =
      [base64url fields, mac cfg secret (base64url fields)] := by
  rw [signed, splitOn_append_cons_self, splitOn_eq_singleton dot_notMem_base64url,
    splitOn_eq_singleton dot_notMem_mac]
  rfl

theorem checkedBody_signed :
    checkedBody cfg secret (signed cfg secret fields) = some (base64url fields) := by
  rw [checkedBody, splitOn_signed]
  exact if_pos rfl

/-- The claims that are read from the fields of a token. -/
def claimsOf (fields : List (String × Scalar)) : Json := .obj (fields.map fun f => (f.1, f.2.json))

theorem parseClaims_base64url (hne : fields ≠ []) :
    parseClaims (base64url fields) = some (claimsOf fields) := by
  rw [parseClaims, base64url, Base64url.decode_encode, Utf8.decode_encode,
    Json.parse_stringify hne]
  rfl

theorem fields_ne_nil (x : Minted) : x.fields ≠ [] := by
  cases x <;> exact cons_ne_nil _ _

theorem minted_of_checkedBody (hunforged : Unforged cfg minted token)
    (hsecret : secret ∈ [cfg.uploadTokenSecret, cfg.downloadTokenSecret]) {body : List Char}
    (h : checkedBody cfg secret token = some body) :
    ∃ x ∈ minted, x.secret cfg = secret ∧ body = base64url x.fields ∧
      token = signed cfg secret x.fields := by
  rw [checkedBody] at h
  split at h
  · rename_i body' given hsplit
    split at h
    · rename_i hgiven
      cases h
      obtain ⟨x, hx, hxsecret, hbody⟩ := hunforged secret hsecret body given hsplit hgiven
      refine ⟨x, hx, hxsecret, hbody.symm, ?_⟩
      have htoken : ['.'].intercalate (token.splitOn '.') = token := intercalate_splitOn '.'
      rw [hsplit] at htoken
      rw [← htoken, signed, hbody, ← hgiven]
      simp
    · cases h
  · cases h

/-! ## The fields of the two kinds -/

section Fields

variable (c : UploadTokenClaims) (d : DownloadClaims)

theorem upload_k : (claimsOf c.fields).field? "k" = some (.str c.k) := rfl

theorem upload_m : (claimsOf c.fields).field? "m" = some (.str c.m) := rfl

theorem upload_n : (claimsOf c.fields).field? "n" = some (.num c.n) := rfl

theorem upload_e : (claimsOf c.fields).field? "e" = some (.num c.e) := rfl

theorem upload_u : (claimsOf c.fields).field? "u" = none := rfl

theorem download_k : (claimsOf d.fields).field? "k" = none := by
  obtain ⟨_, _, _, r⟩ := d
  cases r <;> rfl

theorem download_m : (claimsOf d.fields).field? "m" = some (.str d.m) := by
  obtain ⟨_, _, _, r⟩ := d
  cases r <;> rfl

theorem download_u : (claimsOf d.fields).field? "u" = some (.str d.u) := by
  obtain ⟨_, _, _, r⟩ := d
  cases r <;> rfl

theorem download_e : (claimsOf d.fields).field? "e" = some (.num d.e) := by
  obtain ⟨_, _, _, r⟩ := d
  cases r <;> rfl

theorem download_r : (claimsOf d.fields).field? "r" = d.r.map .str := by
  obtain ⟨_, _, _, r⟩ := d
  cases r <;> rfl

theorem base64url_kind_ne : base64url c.fields ≠ base64url d.fields := by
  intro heq
  have hupload : parseClaims (base64url c.fields) = some (claimsOf c.fields) :=
    parseClaims_base64url (fields_ne_nil (.upload c))
  have hdownload : parseClaims (base64url d.fields) = some (claimsOf d.fields) :=
    parseClaims_base64url (fields_ne_nil (.download d))
  have hparse := congrArg parseClaims heq
  rw [hupload, hdownload] at hparse
  have hk := congrArg (Json.field? "k") (Option.some.inj hparse)
  rw [download_k] at hk
  cases hk

end Fields

/-! ## Capabilities -/

/-- The user has the capability. -/
def Holds (cfg : TokenConfig) (w : World) (userId capability : String) : Prop :=
  ∃ role, (userId, role) ∈ w.userRoles ∧ (role, capability) ∈ cfg.catalogue.roleCapabilities

section Capabilities

variable {w : World} {userId capability : String}

theorem viewerHasCapability_str :
    viewerHasCapability cfg w (some (.str userId)) capability = true ↔
      cfg.verifier = true ∧ Holds cfg w userId capability := by
  simp only [viewerHasCapability, rolesForUser, Bool.and_eq_true, decide_eq_true_eq,
    Catalogue.mem_linked, mem_map, mem_filter, Holds]
  refine and_congr_right fun _ => ⟨?_, ?_⟩
  · rintro ⟨_, ⟨⟨_, role⟩, ⟨hmem, rfl⟩, rfl⟩, hlink⟩
    exact ⟨role, hmem, hlink⟩
  · rintro ⟨role, hmem, hlink⟩
    exact ⟨role, ⟨(userId, role), ⟨hmem, rfl⟩, rfl⟩, hlink⟩

theorem viewerHasCapability_undefined :
    viewerHasCapability cfg w none capability = true ↔
      cfg.verifier = true ∧ ∃ u, Holds cfg w u capability := by
  simp only [viewerHasCapability, rolesForUser, Bool.and_eq_true, decide_eq_true_eq,
    Catalogue.mem_linked, mem_map, Holds]
  refine and_congr_right fun _ => ⟨?_, ?_⟩
  · rintro ⟨_, ⟨⟨u, role⟩, hmem, rfl⟩, hlink⟩
    exact ⟨u, role, hmem, hlink⟩
  · rintro ⟨u, role, hmem, hlink⟩
    exact ⟨role, ⟨(u, role), hmem, rfl⟩, hlink⟩

end Capabilities

/-! ## Downloads -/

/-- Who may see the object with a download token. -/
def Authorized (cfg : TokenConfig) (live : Live) (d : DownloadClaims) (row : MediaObjectEntity) :
    Prop :=
  match d.r with
  | none => row.status = .stored ∧ row.isPublic = false ∧
      (uuidText row.ownerUserId = d.u ∨
        row.purpose = .verificationEvidence ∧ Holds cfg live.roles d.u "bc_moderate_verification")
  | some r => row.status = .stored ∧ row.isPublic = true ∧
      (∃ report, live.report.report? r = some report ∧ report.status = .open ∧
        report.mediaObjectId = d.m) ∧
      Holds cfg live.roles d.u "bc_moderate_media"

/-- An upload token that is taken for a download token: it is one for a stored verification
document, nobody's name is in it, and somebody may moderate verifications. -/
def Undefined (cfg : TokenConfig) (live : Live) (row : MediaObjectEntity) : Prop :=
  row.status = .stored ∧ row.isPublic = false ∧ row.purpose = .verificationEvidence ∧
    cfg.verifier = true ∧ ∃ u, Holds cfg live.roles u "bc_moderate_verification"

section Serving

variable {live : Live} {requestedMediaId : String} {now : ℕ} {bytes : Buffer}
  {row : MediaObjectEntity}

theorem acceptDirectUpload_eq {w : World} {objectKey key : String} {declaredBytes : Option Json}
    {body : Buffer}
    (h : acceptDirectUpload cfg w objectKey declaredBytes body = some (key, bytes)) :
    key = objectKey ∧ bytes = body ∧
      ∃ row, w.objectAt? objectKey = some row ∧ row.status = .pending := by
  rw [acceptDirectUpload] at h
  split at h
  · split at h
    · cases h
    rename_i row hrow
    split at h
    · cases h
    rename_i hpend
    split at h
    · cases h
    cases h
    exact ⟨rfl, rfl, row, hrow, not_not.1 hpend⟩
  · cases h

theorem canView_undefined :
    canView cfg live row none = true ↔ row.purpose = .verificationEvidence ∧
      cfg.verifier = true ∧ ∃ u, Holds cfg live.roles u "bc_moderate_verification" := by
  rw [canView, if_neg (by exact fun h => h)]
  split
  · rename_i hpurp
    rw [viewerHasCapability_undefined]
    exact (and_iff_right hpurp).symm
  · rename_i hpurp
    exact iff_of_false (by decide) fun h => hpurp h.1

theorem canView_str {u : String} (h : canView cfg live row (some (.str u)) = true) :
    uuidText row.ownerUserId = u ∨
      row.purpose = .verificationEvidence ∧ Holds cfg live.roles u "bc_moderate_verification" := by
  rw [canView] at h
  split at h
  · rename_i howner
    exact Or.inl howner
  · split at h
    · rename_i hpurp
      exact Or.inr ⟨hpurp, (viewerHasCapability_str.1 h).2⟩
    · cases h

theorem canInspectReported_str {mediaId r u : String}
    (h : canInspectReported cfg live mediaId row r (some (.str u)) = true) :
    isInspectable row ∧ (∃ report, live.report.report? r = some report ∧
      report.status = .open ∧ report.mediaObjectId = mediaId) ∧
      Holds cfg live.roles u "bc_moderate_media" := by
  rw [canInspectReported] at h
  split at h
  · rename_i hinspectable
    split at h
    · cases h
    rename_i report hreport
    split at h
    · cases h
    rename_i hopen
    obtain ⟨hstat, hmedia⟩ := not_or.1 hopen
    exact ⟨hinspectable, ⟨report, hreport, not_not.1 hstat, not_not.1 hmedia⟩,
      (viewerHasCapability_str.1 h).2⟩
  · cases h

theorem serveClaims_eq {claims : Json} {m : String} {e : ℕ}
    (hm : claims.field? "m" = some (.str m)) (he : claims.field? "e" = some (.num e))
    (h : serveClaims cfg live requestedMediaId now claims = some bytes) :
    m = requestedMediaId ∧ now < e * 1000 ∧ ∃ row, live.object.object? m = some row ∧
      live.bytes.read row.storageKey = some bytes ∧
      ((∃ r, claims.field? "r" = some (.str r) ∧
          canInspectReported cfg live m row r (claims.field? "u") = true) ∨
        claims.field? "r" = none ∧ (row.status = .stored ∧ row.isPublic = false) ∧
          canView cfg live row (claims.field? "u") = true) := by
  rw [serveClaims, hm, he] at h
  split at h
  · cases h
  rename_i hexp
  have hnow : now < e * 1000 := by
    have hlt : ¬((e : ℚ) * 1000 ≤ now) := hexp
    exact_mod_cast not_le.1 hlt
  dsimp only at h
  split at h
  · cases h
  rename_i hsame
  obtain ⟨row, hrow, hserved⟩ := Option.bind_eq_some_iff.1 h
  refine ⟨not_not.1 hsame, hnow, row, hrow, ?_⟩
  split at hserved
  · rename_i r hr
    split at hserved
    · rename_i hinspect
      exact ⟨hserved, Or.inl ⟨r, hr, hinspect⟩⟩
    · cases hserved
  · rename_i hr
    split at hserved
    · cases hserved
    rename_i hprotected
    obtain ⟨hstat, hpublic⟩ := not_or.1 hprotected
    split at hserved
    · rename_i hview
      exact ⟨hserved, Or.inr ⟨hr, ⟨not_not.1 hstat, Bool.eq_false_iff.2 hpublic⟩, hview⟩⟩
    · cases hserved
  · cases hserved

theorem authorized_of_serve {d : DownloadClaims}
    (h : serveClaims cfg live requestedMediaId now (claimsOf d.fields) = some bytes) :
    d.m = requestedMediaId ∧ now < d.e * 1000 ∧ ∃ row, live.object.object? d.m = some row ∧
      live.bytes.read row.storageKey = some bytes ∧ Authorized cfg live d row := by
  obtain ⟨hm, hnow, row, hrow, hbytes, hkind⟩ := serveClaims_eq (download_m d) (download_e d) h
  refine ⟨hm, hnow, row, hrow, hbytes, ?_⟩
  rw [download_r, download_u] at hkind
  rw [Authorized]
  cases hr : d.r with
  | none =>
    rw [hr] at hkind
    rcases hkind with ⟨_, hsome, -⟩ | ⟨-, ⟨hstored, hprotected⟩, hview⟩
    · cases hsome
    exact ⟨hstored, hprotected, canView_str hview⟩
  | some =>
    rw [hr] at hkind
    rcases hkind with ⟨_, hsome, hinspect⟩ | ⟨hnone, -⟩
    · cases hsome
      obtain ⟨⟨hstored, hpublic, -⟩, hreport, hholds⟩ := canInspectReported_str hinspect
      exact ⟨hstored, hpublic, hreport, hholds⟩
    · cases hnone

theorem serve_upload {c : UploadTokenClaims} :
    serveClaims cfg live requestedMediaId now (claimsOf c.fields) = some bytes ↔
      c.m = requestedMediaId ∧ now < c.e * 1000 ∧ ∃ row, live.object.object? c.m = some row ∧
        live.bytes.read row.storageKey = some bytes ∧ Undefined cfg live row := by
  constructor
  · intro h
    obtain ⟨hm, hnow, row, hrow, hbytes, hkind⟩ := serveClaims_eq (upload_m c) (upload_e c) h
    refine ⟨hm, hnow, row, hrow, hbytes, ?_⟩
    rcases hkind with ⟨_, hsome, -⟩ | ⟨-, ⟨hstored, hprotected⟩, hview⟩
    · cases hsome
    obtain ⟨hpurp, hverifier, hholds⟩ := canView_undefined.1 hview
    exact ⟨hstored, hprotected, hpurp, hverifier, hholds⟩
  · rintro ⟨hm, hnow, row, hrow, hbytes, hstored, hprotected, hpurp, hverifier, hholds⟩
    have hexp : ¬Expired now (some (.num c.e)) := by
      exact not_le.2 (by exact_mod_cast hnow)
    have hview : canView cfg live row none = true :=
      canView_undefined.2 ⟨hpurp, hverifier, hholds⟩
    rw [serveClaims, upload_m, upload_e, upload_u, if_neg hexp]
    dsimp only
    rw [if_neg (not_not.2 hm), hrow]
    simp only [Option.bind_eq_bind, Option.bind_some]
    rw [if_neg (by simp [hstored, hprotected]), if_pos hview]
    exact hbytes

end Serving

/-! ## Requests -/

section Requests

variable {live : Live} {requestedMediaId : String} {now : ℕ}

/-- **Downloads.**  Bytes are returned under a download token for the object that is asked for,
which has not expired, and to a viewer who may see it now. -/
def DownloadsSafe (cfg : TokenConfig) (minted : List Minted) (live : Live)
    (requestedMediaId : String) (token : List Char) (now : ℕ) : Prop :=
  ∀ bytes, resolveProtectedDownload cfg live requestedMediaId token now = some bytes →
    ∃ d, .download d ∈ minted ∧ token = signDownloadToken cfg d ∧ d.m = requestedMediaId ∧
      now < d.e * 1000 ∧ ∃ row, live.object.object? d.m = some row ∧
        live.bytes.read row.storageKey = some bytes ∧ Authorized cfg live d row

/-- **Uploads.**  Bytes are written under an upload token for the key, which has not expired, while
the object of the key is pending, and no more of them than declared. -/
def UploadsSafe (cfg : TokenConfig) (minted : List Minted) (w : World) (token : List Char) (now : ℕ)
    (body : Buffer) : Prop :=
  ∀ key bytes, directUpload cfg w token now body = some (key, bytes) →
    ∃ c, .upload c ∈ minted ∧ token = signUploadToken cfg c ∧ now < c.e * 1000 ∧ key = c.k ∧
      (∃ row, w.objectAt? c.k = some row ∧ row.status = .pending) ∧ bytes = body ∧
      bytes.length ≤ c.n

/-- An upload token for a verification document is presented while both kinds of tokens are signed
with one secret. -/
def UploadTokenOpens (cfg : TokenConfig) (minted : List Minted) (live : Live)
    (requestedMediaId : String) (token : List Char) (now : ℕ) : Prop :=
  cfg.uploadTokenSecret = cfg.downloadTokenSecret ∧
    ∃ c, .upload c ∈ minted ∧ token = signUploadToken cfg c ∧ c.m = requestedMediaId ∧
      now < c.e * 1000 ∧ ∃ row, live.object.object? c.m = some row ∧
        (live.bytes.read row.storageKey).isSome ∧ Undefined cfg live row

theorem resolve_signed (x : Minted) :
    resolveProtectedDownload cfg live requestedMediaId
        (signed cfg cfg.downloadTokenSecret x.fields) now =
      serveClaims cfg live requestedMediaId now (claimsOf x.fields) := by
  simp only [resolveProtectedDownload, checkedBody_signed, parseClaims_base64url (fields_ne_nil x),
    Option.bind_eq_bind, Option.bind_some]

section

variable (hunforged : Unforged cfg minted token)
include hunforged

theorem minted_of_resolve {bytes : Buffer}
    (h : resolveProtectedDownload cfg live requestedMediaId token now = some bytes) :
    ∃ x ∈ minted, x.secret cfg = cfg.downloadTokenSecret ∧
      token = signed cfg cfg.downloadTokenSecret x.fields ∧
      serveClaims cfg live requestedMediaId now (claimsOf x.fields) = some bytes := by
  obtain ⟨_, hbody, -⟩ := Option.bind_eq_some_iff.1 h
  obtain ⟨x, hx, hsecret, -, htoken⟩ := minted_of_checkedBody hunforged (by simp) hbody
  refine ⟨x, hx, hsecret, htoken, ?_⟩
  rw [← resolve_signed, ← htoken]
  exact h

theorem downloadsSafe_iff :
    DownloadsSafe cfg minted live requestedMediaId token now ↔
      ¬UploadTokenOpens cfg minted live requestedMediaId token now := by
  constructor
  · rintro hsafe ⟨hshared, c, -, htoken, hm, hnow, row, hrow, hread, hundefined⟩
    obtain ⟨bytes, hbytes⟩ := Option.isSome_iff_exists.1 hread
    have hserved := serve_upload.2 ⟨hm, hnow, row, hrow, hbytes, hundefined⟩
    have hsigned : token = signed cfg cfg.downloadTokenSecret c.fields := by
      rw [htoken, signUploadToken, hshared]
    have hresolved : resolveProtectedDownload cfg live requestedMediaId token now = some bytes := by
      rw [hsigned]
      exact (resolve_signed (.upload c)).trans hserved
    obtain ⟨d, -, hdownload, -⟩ := hsafe bytes hresolved
    -- the token would be of both kinds
    have hsplit := congrArg (List.splitOn '.') (hsigned.symm.trans hdownload)
    rw [signDownloadToken, splitOn_signed, splitOn_signed] at hsplit
    exact base64url_kind_ne c d (List.cons.inj hsplit).1
  · intro hnot bytes hbytes
    obtain ⟨x, hx, hsecret, htoken, hserved⟩ := minted_of_resolve hunforged hbytes
    cases x with
    | upload c =>
      obtain ⟨hm, hnow, row, hrow, hread, hundefined⟩ := serve_upload.1 hserved
      have hshared : cfg.uploadTokenSecret = cfg.downloadTokenSecret := hsecret
      refine absurd ⟨hshared, c, hx, ?_, hm, hnow, row, hrow, ?_, hundefined⟩ hnot
      · rw [htoken, signUploadToken, hshared]
        rfl
      · rw [hread]
        rfl
    | download d => exact ⟨d, hx, htoken, authorized_of_serve hserved⟩

theorem uploadsSafe (w : World) (body : Buffer) :
    UploadsSafe cfg minted w token now body := by
  intro key bytes h
  obtain ⟨_, hclaims, hwrit⟩ := Option.bind_eq_some_iff.1 h
  obtain ⟨_, htext, hverified⟩ := Option.bind_eq_some_iff.1 hclaims
  obtain ⟨x, hx, -, hbody, htoken⟩ := minted_of_checkedBody hunforged (by simp) htext
  rw [hbody, parseClaims_base64url (fields_ne_nil x)] at hverified
  simp only [Option.bind_eq_bind, Option.bind_some] at hverified
  cases x with
  | download d =>
    -- it names no key
    have hk : (claimsOf (Minted.download d).fields).field? "k" = none := download_k d
    rw [hk] at hverified
    cases hverified
  | upload c =>
    have hk : (claimsOf (Minted.upload c).fields).field? "k" = some (.str c.k) := upload_k c
    have hm : (claimsOf (Minted.upload c).fields).field? "m" = some (.str c.m) := upload_m c
    have he : (claimsOf (Minted.upload c).fields).field? "e" = some (.num c.e) := upload_e c
    rw [hk, hm, he] at hverified
    dsimp only at hverified
    split at hverified
    · cases hverified
    rename_i hexp
    cases hverified
    have hn : (claimsOf (Minted.upload c).fields).field? "n" = some (.num c.n) := upload_n c
    rw [hk] at hwrit
    dsimp only at hwrit
    split at hwrit
    · cases hwrit
    rename_i hexceeds
    have hlen : body.length ≤ c.n := by
      have hlt : ¬((c.n : ℚ) < body.length) := hexceeds
      exact_mod_cast not_lt.1 hlt
    have hnow : now < c.e * 1000 := by
      have hlt : ¬((c.e : ℚ) * 1000 ≤ now) := hexp
      exact_mod_cast not_le.1 hlt
    obtain ⟨rfl, rfl, row, hrow, hpend⟩ := acceptDirectUpload_eq hwrit
    exact ⟨c, hx, htoken, hnow, rfl, ⟨row, hrow, hpend⟩, rfl, hlen⟩

end

end Requests

end Access

open Access

/-- **Media tokens open what they were minted for, but for one kind of request.**  Suppose that the
token is not forged.  A download and an upload with it are safe exactly when it is no upload token
for a stored verification document, presented for that document before it expires, while one secret
signs both kinds of tokens and some user may moderate verifications. -/
theorem safe_iff {cfg : TokenConfig} {minted : List Minted} {token : List Char}
    (hunforged : Unforged cfg minted token) (live : Live) (requestedMediaId : String) (now : ℕ)
    (w : World) (body : Buffer) :
    DownloadsSafe cfg minted live requestedMediaId token now ∧
        UploadsSafe cfg minted w token now body ↔
      ¬UploadTokenOpens cfg minted live requestedMediaId token now := by
  rw [and_iff_left (uploadsSafe hunforged w body)]
  exact downloadsSafe_iff hunforged

/-! ## One secret -/

theorem unforged_of_mem {cfg : TokenConfig}
    (hshared : cfg.uploadTokenSecret = cfg.downloadTokenSecret) {minted : List Minted} {x : Minted}
    (hx : x ∈ minted) :
    Unforged cfg minted (signed cfg (x.secret cfg) x.fields) := by
  intro secret hsecret body given hsplit _
  rw [splitOn_signed] at hsplit
  refine ⟨x, hx, ?_, (List.cons.inj hsplit).1⟩
  cases x <;> simp_all [Minted.secret]

namespace Shared

/-- Neither media secret is set. -/
def cfg : TokenConfig where
  uploadTokenSecret := "access"
  downloadTokenSecret := "access"
  hmac := fun secret body => Utf8.encode (secret.toList ++ body)
  catalogue := Rbac.migrated
  verifier := true
  direct := true

/-- The identity document of user 7. -/
def document : MediaObjectEntity where
  ownerUserId := 7
  purpose := .verificationEvidence
  isPublic := false
  status := .stored
  storageKey := "protected/verification_evidence/1"
  contentType := some .png
  byteSize := some 2
  width := some 800
  height := some 600
  finalizedAt := some 30000
  deletedAt := none
  takenDownBy := none
  createdAt := 0

/-- User 8 is a moderator. -/
def world : World where
  objects := [("1", document)]
  reports := []
  userRoles := [("8", "moderator")]
  read := fun key => if key = document.storageKey then some [137, 80] else none

def live : Live := ⟨world, world, world, world⟩

/-- The grant that the document was uploaded with. -/
def grant : UploadTokenClaims := ⟨document.storageKey, "1", "image/png", 2, 900⟩

/-- A link for the owner. -/
def link : DownloadClaims := issueProtectedDownloadUrl 60000 "1" "7"

end Shared

theorem safe_iff_link :
    DownloadsSafe Shared.cfg [.download Shared.link] Shared.live "1"
        (signDownloadToken Shared.cfg Shared.link) 61000 ∧
      UploadsSafe Shared.cfg [.download Shared.link] Shared.world
        (signDownloadToken Shared.cfg Shared.link) 61000 [1] ↔
      ¬UploadTokenOpens Shared.cfg [.download Shared.link] Shared.live "1"
        (signDownloadToken Shared.cfg Shared.link) 61000 := by
  have hunforged : Unforged Shared.cfg [.download Shared.link]
      (signDownloadToken Shared.cfg Shared.link) :=
    unforged_of_mem (x := .download Shared.link) rfl (mem_singleton_self _)
  exact safe_iff hunforged Shared.live "1" 61000 Shared.world [1]

/-- The grant opens the document, for whoever has it. -/
theorem safe_uploadToken_fails :
    Unforged Shared.cfg [.upload Shared.grant] (signUploadToken Shared.cfg Shared.grant) ∧
      resolveProtectedDownload Shared.cfg Shared.live "1"
        (signUploadToken Shared.cfg Shared.grant) 61000 = some [137, 80] ∧
      ¬DownloadsSafe Shared.cfg [.upload Shared.grant] Shared.live "1"
        (signUploadToken Shared.cfg Shared.grant) 61000 := by
  have hresolved : resolveProtectedDownload Shared.cfg Shared.live "1"
      (signUploadToken Shared.cfg Shared.grant) 61000 = some [137, 80] := by
    decide +kernel
  have hunforged : Unforged Shared.cfg [.upload Shared.grant]
      (signUploadToken Shared.cfg Shared.grant) :=
    unforged_of_mem (x := .upload Shared.grant) rfl (mem_singleton_self _)
  refine ⟨hunforged, hresolved, fun hsafe => ?_⟩
  obtain ⟨_, hd, -⟩ := hsafe _ hresolved
  simp at hd

end BeauClick.Media
