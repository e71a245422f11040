import Mathlib.Data.List.TakeWhile
import Mathlib.Tactic.Common

/-!
# Base64url and UTF-8

* `Base64url.encode` — three bytes are four characters of the alphabet, without padding.
* `Base64url.decode` — a reader that takes both alphabets and leaves out what is in neither.
* `decode_encode` — what is written is read back.
* `Utf8.encode`, `Utf8.decode` — characters and their bytes.
-/

namespace Base64url

open List

/-! ## The alphabet -/

/-- The character of six bits. -/
def char (n : ℕ) : Char :=
  if n < 26 then Char.ofNat (65 + n)
  else if n < 52 then Char.ofNat (71 + n)
  else if n < 62 then Char.ofNat (n - 4)
  else if n = 62 then '-'
  else '_'

/-- The six bits of a character, in either alphabet. -/
def sextet? (c : Char) : Option ℕ :=
  if 'A' ≤ c ∧ c ≤ 'Z' then some (c.toNat - 65)
  else if 'a' ≤ c ∧ c ≤ 'z' then some (c.toNat - 71)
  else if '0' ≤ c ∧ c ≤ '9' then some (c.toNat + 4)
  else if c = '-' ∨ c = '+' then some 62
  else if c = '_' ∨ c = '/' then some 63
  else none

theorem sextet?_char : ∀ n < 64, sextet? (char n) = some n := by decide

theorem char_ne_dot : ∀ n < 64, char n ≠ '.' := by decide

theorem char_ne_pad : ∀ n < 64, char n ≠ '=' := by decide

/-! ## Sextets -/

/-- The sextets of some bytes. -/
def sextets : List UInt8 → List ℕ
  | a :: b :: c :: rest =>
    a.toNat / 4 :: (a.toNat % 4 * 16 + b.toNat / 16) :: (b.toNat % 16 * 4 + c.toNat / 64) ::
      c.toNat % 64 :: sextets rest
  | [a, b] => [a.toNat / 4, a.toNat % 4 * 16 + b.toNat / 16, b.toNat % 16 * 4]
  | [a] => [a.toNat / 4, a.toNat % 4 * 16]
  | [] => []

/-- The bytes of some sextets; bits that fill no byte are dropped. -/
def bytes : List ℕ → List UInt8
  | a :: b :: c :: d :: rest =>
    UInt8.ofNat (a * 4 + b / 16) :: UInt8.ofNat (b % 16 * 16 + c / 4) ::
      UInt8.ofNat (c % 4 * 64 + d) :: bytes rest
  | [a, b, c] => [UInt8.ofNat (a * 4 + b / 16), UInt8.ofNat (b % 16 * 16 + c / 4)]
  | [a, b] => [UInt8.ofNat (a * 4 + b / 16)]
  | _ => []

variable (bs : List UInt8)

theorem sextets_lt : ∀ n ∈ sextets bs, n < 64 := by
  fun_induction sextets bs with
  | case1 a b c rest ih =>
    have ha := a.toNat_lt
    have hb := b.toNat_lt
    have hc := c.toNat_lt
    simp only [mem_cons]
    rintro n (rfl | rfl | rfl | rfl | hn)
    · omega
    · omega
    · omega
    · omega
    · exact ih n hn
  | case2 a b =>
    have ha := a.toNat_lt
    have hb := b.toNat_lt
    simp only [mem_cons, not_mem_nil, or_false]
    rintro n (rfl | rfl | rfl) <;> omega
  | case3 a =>
    have ha := a.toNat_lt
    simp only [mem_cons, not_mem_nil, or_false]
    rintro n (rfl | rfl) <;> omega
  | case4 => simp

theorem length_sextets : (sextets bs).length = (4 * bs.length + 2) / 3 := by
  fun_induction sextets bs with
  | case1 a b c rest ih =>
    simp only [length_cons, ih]
    omega
  | _ => simp

theorem ofNat_eq {a : UInt8} {n : ℕ} (h : n = a.toNat) : UInt8.ofNat n = a := by
  rw [h, UInt8.ofNat_toNat]

theorem bytes_sextets : bytes (sextets bs) = bs := by
  fun_induction sextets bs with
  | case1 a b c rest ih =>
    have hb := b.toNat_lt
    have hc := c.toNat_lt
    rw [bytes, ih, ofNat_eq (a := a) (by omega), ofNat_eq (a := b) (by omega),
      ofNat_eq (a := c) (by omega)]
  | case2 a b =>
    have hb := b.toNat_lt
    rw [bytes, ofNat_eq (a := a) (by omega), ofNat_eq (a := b) (by omega)]
  | case3 a => rw [bytes, ofNat_eq (a := a) (by omega)]
  | case4 => rfl

/-! ## Text -/

/-- The text of some bytes. -/
def encode (bs : List UInt8) : List Char := (sextets bs).map char

/-- The bytes of a text: padding ends it, and what is in no alphabet is left out. -/
def decode (cs : List Char) : List UInt8 := bytes ((cs.takeWhile (· ≠ '=')).filterMap sextet?)

theorem filterMap_sextet? {ns : List ℕ} (h : ∀ n ∈ ns, n < 64) :
    (ns.map char).filterMap sextet? = ns := by
  induction ns with
  | nil => rfl
  | cons n ns ih =>
    rw [map_cons, filterMap_cons_some (sextet?_char n (h n mem_cons_self)),
      ih fun m hm => h m (mem_cons_of_mem _ hm)]

/-- What is written is read back. -/
theorem decode_encode : decode (encode bs) = bs := by
  have hpad : (encode bs).takeWhile (· ≠ '=') = encode bs := by
    rw [takeWhile_eq_self_iff]
    intro c hc
    obtain ⟨n, hn, rfl⟩ := mem_map.1 hc
    simpa using char_ne_pad n (sextets_lt bs n hn)
  rw [decode, hpad, encode, filterMap_sextet? (sextets_lt bs), bytes_sextets]

theorem dot_notMem_encode : '.' ∉ encode bs := by
  intro h
  obtain ⟨n, hn, hdot⟩ := mem_map.1 h
  exact char_ne_dot n (sextets_lt bs n hn) hdot

end Base64url

namespace Utf8

/-- The bytes of some characters. -/
def encode (cs : List Char) : List UInt8 := cs.flatMap String.utf8EncodeChar

theorem length_encode {cs : List Char} (h : ∀ c ∈ cs, c.utf8Size = 1) :
    (encode cs).length = cs.length := by
  induction cs with
  | nil => rfl
  | cons c cs ih =>
    have hc : (String.utf8EncodeChar c).length = 1 :=
      (String.length_utf8EncodeChar c).trans (h c List.mem_cons_self)
    have hcs := ih fun d hd => h d (List.mem_cons_of_mem _ hd)
    rw [encode] at hcs ⊢
    rw [List.flatMap_cons, List.length_append, hc, hcs, List.length_cons, Nat.add_comm]

/-- The characters of the first bytes; a byte that starts none is a replacement character. -/
def decodeBytes : ℕ → List UInt8 → List Char
  | 0, _ | _, [] => []
  | n + 1, b :: bs =>
    match (b :: bs).toByteArray.utf8DecodeChar? 0 with
    | some c => c :: decodeBytes n ((b :: bs).drop c.utf8Size)
    | none => '\ufffd' :: decodeBytes n bs

/-- The characters of some bytes. -/
def decode (bs : List UInt8) : List Char := decodeBytes bs.length bs

theorem decodeBytes_encode {cs : List Char} {n : ℕ} (h : (encode cs).length ≤ n) :
    decodeBytes n (encode cs) = cs := by
  induction cs generalizing n with
  | nil => cases n <;> rfl
  | cons c cs ih =>
    have hencode : encode (c :: cs) = String.utf8EncodeChar c ++ encode cs := List.flatMap_cons
    have hsize : (String.utf8EncodeChar c).length = c.utf8Size := String.length_utf8EncodeChar c
    have hpos := c.utf8Size_pos
    rw [hencode, List.length_append] at h
    obtain ⟨m, rfl⟩ : ∃ m, n = m + 1 := ⟨n - 1, by omega⟩
    rw [hencode]
    obtain ⟨b, bs, hbs⟩ : ∃ b bs, String.utf8EncodeChar c ++ encode cs = b :: bs := by
      refine List.exists_cons_of_length_pos ?_
      rw [List.length_append]
      omega
    have hchar : (b :: bs).toByteArray.utf8DecodeChar? 0 = some c := by
      rw [← hbs, List.toByteArray_append]
      exact ByteArray.utf8DecodeChar?_utf8EncodeChar_append
    rw [hbs, decodeBytes, hchar]
    dsimp only
    rw [← hbs, ← hsize, List.drop_left, ih (by omega)]

/-- What is written is read back. -/
theorem decode_encode (cs : List Char) : decode (encode cs) = cs :=
  decodeBytes_encode (Nat.le_refl _)

end Utf8
