import Mathlib.Algebra.Ring.Nat
import Mathlib.Data.List.Basic
import Mathlib.Tactic.Common

/-!
# Numbers in columns

A text with numbers in it, each of a fixed width and behind it a separator, as dates and
identifiers are written.

* `Fields.write`, `Fields.read` — a text of columns, and the numbers of one.
* `read_write` — the numbers are read back, where each fits its column.
* `forall_mem_write` — there is nothing in a text but digits and separators.
-/

namespace Fields

open List Option

/-- A column: its width, and what follows it. -/
structure Column where
  width : ℕ
  separator : List Char

/-- The last `width` digits of a number. -/
def digits (base : ℕ) : ℕ → ℕ → List Char
  | 0, _ => []
  | width + 1, n => digits base width (n / base) ++ [Nat.digitChar (n % base)]

/-- The digit of a character, of either case. -/
def digit? (base : ℕ) (c : Char) : Option ℕ :=
  (if c.isDigit then some (c.toNat - 48)
  else if 'a' ≤ c ∧ c ≤ 'f' then some (c.toNat - 87)
  else if 'A' ≤ c ∧ c ≤ 'F' then some (c.toNat - 55)
  else none).filter (· < base)

/-- The number of some digits. -/
def number? (base : ℕ) (cs : List Char) : Option ℕ :=
  cs.foldlM (fun n c => (digit? base c).map (n * base + ·)) 0

/-- The text of some columns. -/
def write (base : ℕ) : List (Column × ℕ) → List Char
  | [] => []
  | (column, n) :: rest => digits base column.width n ++ (column.separator ++ write base rest)

/-- The numbers of a text. -/
def read (base : ℕ) : List Column → List Char → Option (List ℕ)
  | [], cs => if cs = [] then some [] else none
  | column :: rest, cs =>
    let tail := cs.drop column.width
    if column.separator <+: tail then
      match number? base (cs.take column.width), read base rest (tail.drop column.separator.length) with
      | some n, some ns => some (n :: ns)
      | _, _ => none
    else none

variable {base : ℕ}

theorem digit?_digitChar (hbase : base ≤ 16) {d : ℕ} (hd : d < base) :
    digit? base (Nat.digitChar d) = some d := by
  have hall : ∀ d < 16, digit? 16 (Nat.digitChar d) = some d := by decide
  have hdigit := hall d (Nat.lt_of_lt_of_le hd hbase)
  obtain ⟨hsome, -⟩ := filter_eq_some_iff.1 hdigit
  exact filter_eq_some_iff.2 ⟨hsome, decide_eq_true hd⟩

@[simp] theorem length_digits (width n : ℕ) : (digits base width n).length = width := by
  induction width generalizing n with
  | zero => rfl
  | succ width ih => simp [digits, ih]

theorem number?_digits (hbase : base ≤ 16) {width n : ℕ} (hn : n < base ^ width) :
    number? base (digits base width n) = some n := by
  induction width generalizing n with
  | zero =>
    obtain rfl : n = 0 := by simpa using hn
    rfl
  | succ width ih =>
    have hpos : 0 < base := by
      rcases Nat.eq_zero_or_pos base with rfl | hpos
      · simp at hn
      · exact hpos
    have hrest : n / base < base ^ width := by
      rw [Nat.div_lt_iff_lt_mul hpos]
      exact Nat.lt_of_lt_of_eq hn (Nat.pow_succ ..)
    have hlast := digit?_digitChar hbase (Nat.mod_lt n hpos)
    have hwhole := ih hrest
    unfold number? at hwhole ⊢
    rw [digits, foldlM_append, hwhole]
    simp only [bind_eq_bind, bind_some, foldlM_cons, hlast, map_some,
      foldlM_nil]
    exact congrArg some (Nat.div_add_mod' n base)

/-- What is written is read back. -/
theorem read_write (hbase : base ≤ 16) (fields : List (Column × ℕ))
    (hfits : ∀ f ∈ fields, f.2 < base ^ f.1.width) :
    read base (fields.map Prod.fst) (write base fields) = some (fields.map Prod.snd) := by
  induction fields with
  | nil => rfl
  | cons f fields ih =>
    obtain ⟨column, n⟩ := f
    have hn := number?_digits hbase (hfits _ mem_cons_self)
    have hrest := ih fun f hf => hfits f (mem_cons_of_mem _ hf)
    have hlen : (digits base column.width n).length = column.width := length_digits column.width n
    have hdrop : (write base ((column, n) :: fields)).drop column.width =
        column.separator ++ write base fields := by
      rw [write, drop_left' hlen]
    have htake : (write base ((column, n) :: fields)).take column.width =
        digits base column.width n := by
      rw [write, take_left' hlen]
    simp only [map_cons, read, hdrop, htake, prefix_append, if_true, drop_left, hn,
      hrest]

/-- A text has nothing in it but digits and separators. -/
theorem forall_mem_write (hbase : base ≤ 16) (hpos : 0 < base) {P : Char → Prop}
    (hdigit : ∀ d < 16, P (Nat.digitChar d)) {fields : List (Column × ℕ)}
    (hsep : ∀ f ∈ fields, ∀ c ∈ f.1.separator, P c) : ∀ c ∈ write base fields, P c := by
  have hdigits : ∀ width n, ∀ c ∈ digits base width n, P c := by
    intro width
    induction width with
    | zero => simp [digits]
    | succ width ih =>
      intro n c hc
      rcases mem_append.1 hc with hc | hc
      · exact ih _ c hc
      · rw [mem_singleton.1 hc]
        exact hdigit _ (Nat.lt_of_lt_of_le (Nat.mod_lt n hpos) hbase)
  induction fields with
  | nil => simp [write]
  | cons f fields ih =>
    intro c hc
    rw [write, mem_append, mem_append] at hc
    rcases hc with hc | hc | hc
    · exact hdigits _ _ c hc
    · exact hsep f mem_cons_self c hc
    · exact ih (fun f hf => hsep f (mem_cons_of_mem _ hf)) c hc

theorem length_write (fields : List (Column × ℕ)) : (write base fields).length =
    (fields.map fun f => f.1.width + f.1.separator.length).sum := by
  induction fields with
  | nil => rfl
  | cons f fields ih =>
    rw [write, length_append, length_append, length_digits, ih, map_cons,
      sum_cons, Nat.add_assoc]

end Fields
