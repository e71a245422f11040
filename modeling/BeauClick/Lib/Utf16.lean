import Mathlib.Data.List.Lex
import Mathlib.Order.Nat

/-!
# UTF-16

A JavaScript string is a list of 16-bit units.  Its length, its slices and its order are those of
the units, which differ from those of the characters beyond the basic plane.

* `Utf16.slice` — the first units of a text.  Half of a surrogate pair, which a cut can leave, is
  U+FFFD once the text is written as UTF-8.
* `length_slice_le` — a slice fits where that many characters fit.
-/

namespace Utf16

open List

/-- The units of a character: one in the basic plane, a surrogate pair beyond it. -/
def units (c : Char) : List ℕ :=
  if c.toNat < 0x10000 then [c.toNat]
  else [0xD800 + (c.toNat - 0x10000) / 0x400, 0xDC00 + (c.toNat - 0x10000) % 0x400]

/-- `s.length`. -/
def length (s : List Char) : ℕ := (s.flatMap units).length

/-- `a <= b`. -/
def le (a b : String) : Bool := decide (a.toList.flatMap units ≤ b.toList.flatMap units)

/-- `s.slice(0, n)`, as UTF-8 has it. -/
def slice (n : ℕ) : List Char → List Char
  | [] => []
  | c :: s =>
    if (units c).length ≤ n then c :: slice (n - (units c).length) s
    else if n = 0 then [] else ['\uFFFD']

theorem units_pos (c : Char) : 1 ≤ (units c).length := by
  unfold units
  split <;> simp

theorem length_le (s : List Char) : s.length ≤ length s := by
  induction s with
  | nil => exact Nat.le_refl 0
  | cons c s ih =>
    simp only [length, flatMap_cons, length_append, length_cons] at ih ⊢
    exact (Nat.add_le_add ih (units_pos c)).trans_eq (Nat.add_comm ..)

theorem length_eq {s : List Char} (h : ∀ c ∈ s, c.toNat < 0x10000) : length s = s.length := by
  induction s with
  | nil => rfl
  | cons c s ih =>
    have hc : units c = [c.toNat] := if_pos (h c mem_cons_self)
    have hs := ih fun d hd => h d (mem_cons_of_mem _ hd)
    rw [length] at hs ⊢
    rw [flatMap_cons, length_append, hs, hc, length_cons, length_cons,
      length_nil, Nat.add_comm]

theorem length_slice_le (n : ℕ) (s : List Char) : (slice n s).length ≤ n := by
  induction s generalizing n with
  | nil => exact Nat.zero_le n
  | cons c s ih =>
    have hpos := units_pos c
    unfold slice
    split_ifs with hfits hzero
    · have hrest := ih (n - (units c).length)
      rw [length_cons]
      omega
    · exact Nat.zero_le n
    · exact Nat.one_le_iff_ne_zero.2 hzero

end Utf16
