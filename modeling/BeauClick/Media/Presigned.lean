import BeauClick.Lib.Netstring

/-!
# Presigned URLs

`uriEncode`, and the host and the path of `presignS3Url` (`libs/media/src/storage/sigv4.ts`).

* `presignedTarget_identifies` — they are of one object.
-/

namespace BeauClick.Media

/-- RFC 3986 unreserved. -/
def unreserved (c : Char) : Bool :=
  'A' ≤ c && c ≤ 'Z' || 'a' ≤ c && c ≤ 'z' || '0' ≤ c && c ≤ '9' || "-_.~".toList.contains c

/-- Unreserved characters stay; the rest is percent-encoded. -/
def uriEncodeByte (encodeSlash : Bool) (b : UInt8) : List Char :=
  let c := Char.ofNat b.toNat
  if unreserved c then [c]
  else if c = '/' ∧ encodeSlash = false then ['/']
  else
    ['%', (Nat.digitChar (b.toNat / 16)).toUpper, (Nat.digitChar (b.toNat % 16)).toUpper]

/-- The encoding of a text's UTF-8. -/
def uriEncode (value : List Char) (encodeSlash : Bool) : List Char :=
  (Utf8.encode value).flatMap (uriEncodeByte encodeSlash)

/-- The host and the path of the URL of an object. -/
def presignedTarget (forcePathStyle : Bool) (endpointHost bucket objectKey : List Char) :
    List Char × List Char :=
  if forcePathStyle then
    (endpointHost, '/' :: (uriEncode bucket true ++ '/' :: uriEncode objectKey false))
  else (bucket ++ '.' :: endpointHost, '/' :: uriEncode objectKey false)

/-! ## What a server reads -/

def hexValue (c : Char) : ℕ := if c.isDigit then c.toNat - 48 else c.toNat - 55

/-- The decoder that inverts `uriEncode`. -/
def uriDecode : List Char → List UInt8
  | '%' :: high :: low :: s => .ofNat (hexValue high * 16 + hexValue low) :: uriDecode s
  | c :: s => .ofNat c.toNat :: uriDecode s
  | [] => []

/-- A byte is written as itself or in two digits. -/
def WrittenAs (b : UInt8) : List Char → Prop
  | [c] => c ≠ '%' ∧ .ofNat c.toNat = b
  | [c, high, low] => c = '%' ∧ .ofNat (hexValue high * 16 + hexValue low) = b
  | _ => False

instance (b : UInt8) (s : List Char) : Decidable (WrittenAs b s) := by
  unfold WrittenAs
  split <;> infer_instance

theorem writtenAs_uriEncodeByte (encodeSlash : Bool) (b : UInt8) :
    WrittenAs b (uriEncodeByte encodeSlash b) := by
  have hall : ∀ encodeSlash, ∀ n : Fin 256,
      WrittenAs (.ofNat n) (uriEncodeByte encodeSlash (.ofNat n)) := by decide +kernel
  simpa using hall encodeSlash ⟨b.toNat, b.toNat_lt⟩

theorem slash_notMem_uriEncode (value : List Char) : '/' ∉ uriEncode value true := by
  have hall : ∀ n : Fin 256, '/' ∉ uriEncodeByte true (.ofNat n) := by decide +kernel
  simp only [uriEncode, List.mem_flatMap, not_exists, not_and]
  intro b _
  simpa using hall ⟨b.toNat, b.toNat_lt⟩

theorem uriDecode_append {b : UInt8} {s : List Char} (h : WrittenAs b s) (rest : List Char) :
    uriDecode (s ++ rest) = b :: uriDecode rest := by
  unfold WrittenAs at h
  split at h
  · obtain ⟨hne, rfl⟩ := h
    simp [uriDecode, hne]
  · obtain ⟨rfl, rfl⟩ := h
    rfl
  · cases h

theorem decode_uriEncode (value : List Char) (encodeSlash : Bool) :
    Utf8.decode (uriDecode (uriEncode value encodeSlash)) = value := by
  have hbytes : ∀ bs, uriDecode (bs.flatMap (uriEncodeByte encodeSlash)) = bs := by
    intro bs
    induction bs with
    | nil => rfl
    | cons b bs ih =>
      rw [List.flatMap_cons, uriDecode_append (writtenAs_uriEncodeByte encodeSlash b), ih]
  rw [uriEncode, hbytes, Utf8.decode_encode]

theorem uriEncode_injective {encodeSlash : Bool} {a b : List Char}
    (h : uriEncode a encodeSlash = uriEncode b encodeSlash) : a = b := by
  rw [← decode_uriEncode a encodeSlash, h, decode_uriEncode]

/-- **One object for one URL.**  Neither the host nor the path loses anything of bucket and key. -/
theorem presignedTarget_identifies (forcePathStyle : Bool)
    (endpointHost bucket objectKey bucket' objectKey' : List Char) :
    presignedTarget forcePathStyle endpointHost bucket objectKey =
        presignedTarget forcePathStyle endpointHost bucket' objectKey' ↔
      bucket = bucket' ∧ objectKey = objectKey' := by
  refine ⟨fun h => ?_, by rintro ⟨rfl, rfl⟩; rfl⟩
  cases forcePathStyle with
  | true =>
    have hpath := (List.cons.inj (congrArg Prod.snd h)).2
    obtain ⟨hbucket, hkey⟩ := Netstring.split_unique (slash_notMem_uriEncode bucket)
      (slash_notMem_uriEncode bucket') hpath
    exact ⟨uriEncode_injective hbucket, uriEncode_injective hkey⟩
  | false =>
    obtain ⟨hhost, hpath⟩ := Prod.mk.inj h
    exact ⟨List.append_cancel_right hhost, uriEncode_injective (List.cons.inj hpath).2⟩

end BeauClick.Media
