import BeauClick.Lib.Base64url
import BeauClick.Lib.Decimal

/-!
# Fields behind their lengths

* `Netstring.join` — a label and some fields, each behind the number of its bytes.
* `join_injective` — joined texts have their labels and fields in common.
-/

namespace Netstring

open List

variable {a b x y : List Char} {fields fields' : List (List Char)}

/-- `<byteLength>:<value>`. -/
def lengthPrefixed (value : List Char) : List Char :=
  Decimal.text (Utf8.encode value).length ++ ':' :: value

/-- Some fields, each behind a bar. -/
def frames (fields : List (List Char)) : List Char :=
  fields.flatMap fun field => '|' :: lengthPrefixed field

/-- A label and some fields, joined by bars. -/
def join (label : List Char) (fields : List (List Char)) : List Char := label ++ frames fields

/-- A text is split in one way where a character is first met. -/
theorem split_unique {c : Char} (ha : c ∉ a) (hb : c ∉ b) (h : a ++ c :: x = b ++ c :: y) :
    a = b ∧ x = y := by
  rcases append_eq_append_iff.1 h with ⟨t, rfl, ht⟩ | ⟨t, rfl, ht⟩
  all_goals
    cases t with
    | nil => simpa [eq_comm] using ht
    | cons =>
      obtain ⟨rfl, -⟩ := List.cons.inj ht
      simp at ha hb

theorem lengthPrefixed_append (h : lengthPrefixed a ++ x = lengthPrefixed b ++ y) :
    a = b ∧ x = y := by
  have hcolon : ∀ n, ':' ∉ Decimal.text n := Decimal.notMem_text (by decide) (by decide)
  rw [lengthPrefixed, lengthPrefixed, append_assoc, append_assoc] at h
  obtain ⟨hlen, hrest⟩ := split_unique (hcolon _) (hcolon _) h
  have hsize : (Utf8.encode a).length = (Utf8.encode b).length := by
    have hread := congrArg Decimal.read hlen
    rw [Decimal.read_text, Decimal.read_text] at hread
    exact Int.ofNat.inj (Option.some.inj hread)
  -- the values begin alike and have as many bytes
  have hbytes : Utf8.encode a ++ Utf8.encode x = Utf8.encode b ++ Utf8.encode y := by
    unfold Utf8.encode
    rw [← flatMap_append, ← flatMap_append]
    exact congrArg _ hrest
  have hval := congrArg Utf8.decode (append_inj hbytes hsize).1
  rw [Utf8.decode_encode, Utf8.decode_encode] at hval
  subst hval
  exact ⟨rfl, append_cancel_left hrest⟩

theorem frames_injective (h : frames fields = frames fields') : fields = fields' := by
  induction fields generalizing fields' with
  | nil =>
    cases fields' with
    | nil => rfl
    | cons => cases h
  | cons field fields ih =>
    cases fields' with
    | nil => cases h
    | cons =>
      obtain ⟨rfl, hrest⟩ := lengthPrefixed_append (List.cons.inj h).2
      rw [ih hrest]

/-- Texts of some fields that are joined to the same text have the same label and fields. -/
theorem join_injective (ha : '|' ∉ a) (hb : '|' ∉ b) (hne : fields ≠ []) (hne' : fields' ≠ [])
    (h : join a fields = join b fields') : a = b ∧ fields = fields' := by
  obtain ⟨_, _, rfl⟩ := exists_cons_of_ne_nil hne
  obtain ⟨_, _, rfl⟩ := exists_cons_of_ne_nil hne'
  obtain ⟨rfl, -⟩ := split_unique ha hb h
  exact ⟨rfl, frames_injective (append_cancel_left h)⟩

end Netstring
