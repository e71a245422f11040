import Mathlib.Data.List.Basic

/-!
# Phone numbers

`canonicalizePhone` (`services/identity/src/auth/phone.util.ts`).

* `canonicalizePhone_iff` — what is accepted, and that what comes out is kept.
-/

namespace BeauClick.Identity

open List

/-- One character of `toAsciiDigits`. -/
def asciiDigit (c : Char) : Char :=
  if '۰' ≤ c ∧ c ≤ '۹' then Char.ofNat (c.toNat - 0x6f0 + 48)
  else if '٠' ≤ c ∧ c ≤ '٩' then Char.ofNat (c.toNat - 0x660 + 48)
  else c

/-- `[\s\-()]`. -/
def isSeparator (c : Char) : Bool :=
  "-()\t\n\x0b\x0c\r \u00a0\u1680\u2028\u2029\u202f\u205f\u3000\ufeff".toList.contains c ||
    '\u2000' ≤ c && c ≤ '\u200a'

def digitsOnly (input : List Char) : List Char :=
  (input.map asciiDigit).filter fun c => !isSeparator c

/-- The prefixes of the pattern, in its order. -/
def phonePrefixes : List (List Char) := ["+98", "0098", "98", "0", ""].map String.toList

/-- `9\d{9}`. -/
def Mobile (s : List Char) : Prop := s.length = 10 ∧ s.head? = some '9' ∧ ∀ c ∈ s, c.isDigit
  deriving Decidable

/-- The number in its one form, when the input is a mobile number. -/
def canonicalizePhone (input : List Char) : Option (List Char) :=
  let s := digitsOnly input
  (phonePrefixes.findSome? fun p =>
    if p <+: s ∧ Mobile (s.drop p.length) then some (s.drop p.length) else none).map
      ("+98".toList ++ ·)

variable {input phone n p : List Char}

theorem canonicalizePhone_of_eq (hp : p ∈ phonePrefixes) (hn : Mobile n)
    (h : digitsOnly input = p ++ n) : canonicalizePhone input = some ("+98".toList ++ n) := by
  rw [canonicalizePhone]
  cases hfind : phonePrefixes.findSome? fun p => if p <+: digitsOnly input ∧
      Mobile ((digitsOnly input).drop p.length) then some ((digitsOnly input).drop p.length)
      else none with
  | none =>
    have hnone := findSome?_eq_none_iff.1 hfind p hp
    simp [h, hn] at hnone
  | some n' =>
    -- another prefix may fit, but ten digits are left in one way
    obtain ⟨_, -, hp'⟩ := exists_of_findSome?_eq_some hfind
    obtain ⟨⟨⟨_, ht⟩, hmobile⟩, rfl⟩ := Option.ite_none_right_eq_some.1 hp' |>.imp_right
      Option.some.inj
    rw [← ht, drop_left] at hmobile ⊢
    rw [(append_inj' (ht.trans h) (hmobile.1.trans hn.1.symm)).2, Option.map_some]

theorem digitsOnly_eq (hn : ∀ c ∈ n, c.isDigit) : digitsOnly n = n := by
  have hall : ∀ k < 58, 48 ≤ k →
      asciiDigit (.ofNat k) = .ofNat k ∧ isSeparator (.ofNat k) = false := by decide +kernel
  have hdigit : ∀ c ∈ n, asciiDigit c = c ∧ isSeparator c = false := by
    intro c hc
    have hrange := hn c hc
    simp only [Char.isDigit, Bool.and_eq_true, decide_eq_true_eq, UInt32.le_iff_toNat_le] at hrange
    simpa using hall c.toNat (Nat.lt_succ_of_le hrange.2) hrange.1
  rw [digitsOnly, map_congr_left fun c hc => (hdigit c hc).1, map_id',
    filter_eq_self.2]
  exact fun c hc => by simp [(hdigit c hc).2]

/-- A number is accepted exactly if it is a mobile number behind one of the prefixes, in digits of
any of the three scripts and with separators anywhere; what comes out is accepted as it is. -/
theorem canonicalizePhone_iff (input phone : List Char) : canonicalizePhone input = some phone ↔
    ∃ p ∈ phonePrefixes, ∃ n, Mobile n ∧ digitsOnly input = p ++ n ∧
      phone = "+98".toList ++ n ∧ canonicalizePhone phone = some phone := by
  constructor
  · intro h
    obtain ⟨n, hfind, rfl⟩ := Option.map_eq_some_iff.1 h
    obtain ⟨p, hp, hn⟩ := exists_of_findSome?_eq_some hfind
    obtain ⟨⟨⟨_, ht⟩, hmobile⟩, rfl⟩ := Option.ite_none_right_eq_some.1 hn |>.imp_right
      Option.some.inj
    refine ⟨p, hp, _, hmobile, by rw [← ht, drop_left], rfl, ?_⟩
    refine canonicalizePhone_of_eq (p := "+98".toList) (by decide) hmobile ?_
    have hself := digitsOnly_eq hmobile.2.2
    rw [digitsOnly, map_append, filter_append]
    exact congrArg₂ (· ++ ·) (by decide) hself
  · rintro ⟨_, hp, _, hn, h, rfl, -⟩
    exact canonicalizePhone_of_eq hp hn h

end BeauClick.Identity
