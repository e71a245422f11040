import BeauClick.Commerce.Order
import Mathlib.Data.Nat.Bitwise

/-!
# Media objects

`MEDIA_POLICY`, the row of `media.objects` and `probeImage` (`libs/media/src`).
-/

namespace BeauClick.Media

/-! ## The policy -/

/-- `MEDIA_PURPOSES`. -/
inductive MediaPurpose where
  | portfolio
  | avatar
  | cover
  | verificationEvidence
  deriving DecidableEq

/-- What a purpose admits. -/
structure MediaPurposePolicy where
  /-- `accessClass` is `public`. -/
  isPublic : Bool
  maxBytes : ℕ
  minEdgePx : ℕ
  maxEdgePx : ℕ

/-- `MEDIA_POLICY`. -/
def MediaPurpose.policy : MediaPurpose → MediaPurposePolicy
  | .portfolio => ⟨true, 8 * 1024 * 1024, 200, 8000⟩
  | .avatar => ⟨true, 4 * 1024 * 1024, 200, 4000⟩
  | .cover => ⟨true, 8 * 1024 * 1024, 400, 8000⟩
  | .verificationEvidence => ⟨false, 8 * 1024 * 1024, 200, 8000⟩

/-- `UPLOAD_GRANT_TTL_SECONDS`, in milliseconds. -/
def uploadGrantTtl : Instant := 15 * 60 * 1000

/-! ## The probe -/

/-- The bytes of an object, or the first of them. -/
abbrev Buffer := List UInt8

/-- The formats that are recognised. -/
inductive ProbedImageFormat where
  | jpeg
  | png
  | webp
  deriving DecidableEq

/-- What the header of an image says. -/
structure ProbedImage where
  format : ProbedImageFormat
  width : ℕ
  height : ℕ
  deriving DecidableEq

/-- How much of an object is read to recognise it. -/
def imageProbeBytes : ℕ := 64 * 1024

namespace Buffer

def byte (b : Buffer) (i : ℕ) : ℕ := (b.getD i 0).toNat

def readUInt16BE (b : Buffer) (i : ℕ) : ℕ := byte b i * 256 + byte b (i + 1)

def readUInt32BE (b : Buffer) (i : ℕ) : ℕ := readUInt16BE b i * 65536 + readUInt16BE b (i + 2)

def readUInt16LE (b : Buffer) (i : ℕ) : ℕ := byte b i + byte b (i + 1) * 256

def readUInt32LE (b : Buffer) (i : ℕ) : ℕ := readUInt16LE b i + readUInt16LE b (i + 2) * 65536

/-- `toString('ascii')` of four bytes; it drops the highest bit of each. -/
def ascii (b : Buffer) (i : ℕ) : List ℕ := ((b.drop i).take 4).map fun c => c.toNat % 128

end Buffer

open Buffer

/-- The dimensions stand in the first chunk. -/
def probePng (buffer : Buffer) : Option ProbedImage :=
  if buffer.length < 24 then none
  else if buffer.take 8 ≠ [0x89, 0x50, 0x4e, 0x47, 0x0d, 0x0a, 0x1a, 0x0a] then none
  -- `IHDR`
  else if ascii buffer 12 ≠ [0x49, 0x48, 0x44, 0x52] then none
  else some ⟨.png, readUInt32BE buffer 16, readUInt32BE buffer 20⟩

/-- The marker of a frame header: neither DHT, nor JPG, nor DAC. -/
def isStartOfFrame (marker : ℕ) : Prop :=
  0xc0 ≤ marker ∧ marker ≤ 0xcf ∧ marker ≠ 0xc4 ∧ marker ≠ 0xc8 ∧ marker ≠ 0xcc
  deriving Decidable

/-- The loop of `probeJpeg`, from an offset on. -/
def probeSegments (buffer : Buffer) (offset : ℕ) : Option ProbedImage :=
  if offset + 9 < buffer.length then
    if byte buffer offset ≠ 0xff then none
    else
      let marker := byte buffer (offset + 1)
      if marker = 0xd8 ∨ marker = 0x01 ∨ 0xd0 ≤ marker ∧ marker ≤ 0xd7 then
        probeSegments buffer (offset + 2)
      else if marker = 0xda then none
      else
        let segmentLength := readUInt16BE buffer (offset + 2)
        if segmentLength < 2 then none
        else if isStartOfFrame marker then
          some ⟨.jpeg, readUInt16BE buffer (offset + 7), readUInt16BE buffer (offset + 5)⟩
        else probeSegments buffer (offset + 2 + segmentLength)
  else none
termination_by buffer.length - offset

/-- The dimensions stand in the first frame header. -/
def probeJpeg (buffer : Buffer) : Option ProbedImage :=
  if buffer.length < 4 ∨ byte buffer 0 ≠ 0xff ∨ byte buffer 1 ≠ 0xd8 then none
  else probeSegments buffer 2

/-- The dimensions, for each of the three kinds of WebP. -/
def probeWebp (buffer : Buffer) : Option ProbedImage :=
  if buffer.length < 30 then none
  -- `RIFF` and `WEBP`
  else if ascii buffer 0 ≠ [0x52, 0x49, 0x46, 0x46] then none
  else if ascii buffer 8 ≠ [0x57, 0x45, 0x42, 0x50] then none
  else
    let chunk := ascii buffer 12
    -- `VP8 `
    if chunk = [0x56, 0x50, 0x38, 0x20] then
      some ⟨.webp, readUInt16LE buffer 26 % 0x4000, readUInt16LE buffer 28 % 0x4000⟩
    -- `VP8L`
    else if chunk = [0x56, 0x50, 0x38, 0x4c] then
      let bits := readUInt32LE buffer 21
      some ⟨.webp, bits % 0x4000 + 1, bits / 0x4000 % 0x4000 + 1⟩
    -- `VP8X`
    else if chunk = [0x56, 0x50, 0x38, 0x58] then
      some ⟨.webp, 1 + (byte buffer 24 + byte buffer 25 * 256 + byte buffer 26 * 65536),
        1 + (byte buffer 27 + byte buffer 28 * 256 + byte buffer 29 * 65536)⟩
    else none

/-- The format and the dimensions, or that the bytes are not accepted. -/
def probeImage (buffer : Buffer) : Option ProbedImage :=
  match (probePng buffer <|> probeJpeg buffer) <|> probeWebp buffer with
  | none => none
  | some probed => if probed.width = 0 ∨ probed.height = 0 then none else some probed

/-! ## The row -/

/-- `MEDIA_OBJECT_STATUSES`. -/
inductive MediaObjectStatus where
  | pending
  | stored
  | deleted
  deriving DecidableEq

/-- A row of `media.objects`. -/
structure MediaObjectEntity where
  ownerUserId : Uuid
  purpose : MediaPurpose
  /-- `accessClass` is `public`. -/
  isPublic : Bool
  status : MediaObjectStatus
  storageKey : String
  contentType : Option ProbedImageFormat
  byteSize : Option ℕ
  width : Option ℕ
  height : Option ℕ
  finalizedAt : Option Instant
  deletedAt : Option Instant
  takenDownBy : Option Uuid
  createdAt : Instant
  deriving DecidableEq

/-- The row is marked deleted. -/
def MediaObjectEntity.delete (x : MediaObjectEntity) (now : Instant) : MediaObjectEntity :=
  { x with status := .deleted, deletedAt := some now }

end BeauClick.Media
