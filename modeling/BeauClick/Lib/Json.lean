import Mathlib.Algebra.Field.Rat
import Mathlib.Data.List.TakeWhile

/-!
# JSON texts

* `Json` — values; a number is the one that its literal denotes.
* `Json.parse` — the grammar of a text, read from left to right.
* `Json.stringify` — the text of an object of strings and natural numbers.
* `parse_stringify` — what is written is read back.

The reader takes fuel for the depth of the values and the number of their members.
-/

/-- A JSON value; an object is the list of its fields. -/
inductive Json where
  | null
  | bool (b : Bool)
  | num (q : ℚ)
  | str (s : String)
  | arr (items : List Json)
  | obj (fields : List (String × Json))

namespace Json

open List

/-! ## Characters -/

def quoteMark : Char := '\x22'

def backslash : Char := '\x5c'

/-- The value of a hexadecimal digit. -/
def hexVal? (c : Char) : Option ℕ :=
  if '0' ≤ c ∧ c ≤ '9' then some (c.toNat - 48)
  else if 'a' ≤ c ∧ c ≤ 'f' then some (c.toNat - 87)
  else if 'A' ≤ c ∧ c ≤ 'F' then some (c.toNat - 55)
  else none

/-- The code unit of four hexadecimal digits. -/
def hex4? (a b c d : Char) : Option ℕ := do
  return (((← hexVal? a) * 16 + (← hexVal? b)) * 16 + (← hexVal? c)) * 16 + (← hexVal? d)

/-- The code unit of a short escape. -/
def unescape? (c : Char) : Option ℕ :=
  if c = quoteMark ∨ c = backslash ∨ c = '/' then some c.toNat
  else if c = 'b' then some 8
  else if c = 'f' then some 12
  else if c = 'n' then some 10
  else if c = 'r' then some 13
  else if c = 't' then some 9
  else none

/-- The digit of a number below sixteen. -/
def hexDigit (n : ℕ) : Char := if n < 10 then Char.ofNat (48 + n) else Char.ofNat (87 + n)

/-- A character of a string. -/
def escape (c : Char) : List Char :=
  if c = quoteMark ∨ c = backslash then [backslash, c]
  else if c.toNat = 8 then [backslash, 'b']
  else if c.toNat = 12 then [backslash, 'f']
  else if c.toNat = 10 then [backslash, 'n']
  else if c.toNat = 13 then [backslash, 'r']
  else if c.toNat = 9 then [backslash, 't']
  else if c.toNat < 32 then
    [backslash, 'u', '0', '0', hexDigit (c.toNat / 16), hexDigit (c.toNat % 16)]
  else [c]

def isSpace (c : Char) : Bool := c = ' ' ∨ c = '\n' ∨ c = '\r' ∨ c = '\t'

def skip (cs : List Char) : List Char := cs.dropWhile isSpace

/-! ## Strings -/

/-- The code units of a string, up to its quotation mark, and what comes after it. -/
def units : List Char → Option (List ℕ × List Char)
  | [] => none
  | c :: cs =>
    if c = quoteMark then some ([], cs)
    else if c = backslash then
      match cs with
      | 'u' :: w :: x :: y :: z :: rest => do
        let unit ← hex4? w x y z
        let (us, rest) ← units rest
        return (unit :: us, rest)
      | e :: rest => do
        let unit ← unescape? e
        let (us, rest) ← units rest
        return (unit :: us, rest)
      | [] => none
    else if c.toNat < 32 then none
    else do
      let (us, rest) ← units cs
      return (c.toNat :: us, rest)

/-- The characters of some code units: a pair of surrogates is one, and a lone one is replaced. -/
def ofUnits : List ℕ → List Char
  | [] => []
  | hi :: lo :: rest =>
    if 0xd800 ≤ hi ∧ hi < 0xdc00 ∧ 0xdc00 ≤ lo ∧ lo < 0xe000 then
      Char.ofNat (0x10000 + (hi - 0xd800) * 0x400 + (lo - 0xdc00)) :: ofUnits rest
    else (if 0xd800 ≤ hi ∧ hi < 0xe000 then '\ufffd' else Char.ofNat hi) :: ofUnits (lo :: rest)
  | [u] => [if 0xd800 ≤ u ∧ u < 0xe000 then '\ufffd' else Char.ofNat u]

/-- A string, after its first quotation mark. -/
def string (cs : List Char) : Option (String × List Char) :=
  (units cs).map fun (us, rest) => (String.ofList (ofUnits us), rest)

/-! ## Numbers -/

/-- Digits, of which there has to be one. -/
def digits (cs : List Char) : Option (List Char × List Char) :=
  match cs.takeWhile Char.isDigit with
  | [] => none
  | d :: ds => some (d :: ds, cs.dropWhile Char.isDigit)

/-- The digits after a point. -/
def fraction : List Char → Option (List Char × List Char)
  | '.' :: cs => digits cs
  | cs => some ([], cs)

/-- The power of ten after an `e`. -/
def exponent : List Char → Option (ℤ × List Char)
  | [] => some (0, [])
  | c :: cs =>
    if c = 'e' ∨ c = 'E' then
      match cs with
      | '-' :: cs => (digits cs).map fun (ds, rest) => (-(Nat.ofDigitChars 10 ds 0 : ℤ), rest)
      | '+' :: cs => (digits cs).map fun (ds, rest) => ((Nat.ofDigitChars 10 ds 0 : ℤ), rest)
      | cs => (digits cs).map fun (ds, rest) => ((Nat.ofDigitChars 10 ds 0 : ℤ), rest)
    else some (0, c :: cs)

/-- A number without its sign. -/
def magnitude (cs : List Char) : Option (ℚ × List Char) := do
  let (int, rest) ← digits cs
  -- a leading zero stands alone
  guard (int.head? ≠ some '0' ∨ int = ['0'])
  let (frac, rest) ← fraction rest
  let (exp, rest) ← exponent rest
  return ((Nat.ofDigitChars 10 (int ++ frac) 0 : ℚ) * (10 : ℚ) ^ (exp - frac.length), rest)

/-- A number, and the text after it. -/
def number : List Char → Option (ℚ × List Char)
  | '-' :: cs => (magnitude cs).map fun (q, rest) => (-q, rest)
  | cs => magnitude cs

/-! ## Values -/

/-- What comes after a word. -/
def word? (w : String) (cs : List Char) : Option (List Char) :=
  if w.toList <+: cs then some (cs.drop w.toList.length) else none

/-- What comes after a character, and the white space before it. -/
def expect (c : Char) (cs : List Char) : Option (List Char) :=
  match skip cs with
  | [] => none
  | d :: rest => if d = c then some rest else none

mutual

/-- A value, by fuel: its nesting is bounded by the length of the text. -/
def value : ℕ → List Char → Option (Json × List Char)
  | 0, _ => none
  | fuel + 1, cs =>
    match skip cs with
    | [] => none
    | c :: rest =>
      if c = quoteMark then (string rest).map fun (s, rest) => (.str s, rest)
      else if c = '[' then
        match expect ']' rest with
        | some rest => some (.arr [], rest)
        | none => (elements fuel rest).map fun (items, rest) => (.arr items, rest)
      else if c = '\x7b' then
        match expect '\x7d' rest with
        | some rest => some (.obj [], rest)
        | none => (members fuel rest).map fun (fields, rest) => (.obj fields, rest)
      else if c = 'n' then (word? "null" (c :: rest)).map fun rest => (.null, rest)
      else if c = 't' then (word? "true" (c :: rest)).map fun rest => (.bool true, rest)
      else if c = 'f' then (word? "false" (c :: rest)).map fun rest => (.bool false, rest)
      else (number (c :: rest)).map fun (q, rest) => (.num q, rest)

/-- The elements of an array, up to its bracket. -/
def elements : ℕ → List Char → Option (List Json × List Char)
  | 0, _ => none
  | fuel + 1, cs => do
    let (item, rest) ← value fuel cs
    match expect ',' rest with
    | some rest =>
      let (items, rest) ← elements fuel rest
      return (item :: items, rest)
    | none =>
      let rest ← expect ']' rest
      return ([item], rest)

/-- The members of an object, up to its brace. -/
def members : ℕ → List Char → Option (List (String × Json) × List Char)
  | 0, _ => none
  | fuel + 1, cs => do
    let rest ← expect quoteMark cs
    let (key, rest) ← string rest
    let rest ← expect ':' rest
    let (item, rest) ← value fuel rest
    match expect ',' rest with
    | some rest =>
      let (fields, rest) ← members fuel rest
      return ((key, item) :: fields, rest)
    | none =>
      let rest ← expect '\x7d' rest
      return ([(key, item)], rest)

end

/-- The value of a text. -/
def parse (cs : List Char) : Option Json :=
  match value (cs.length + 1) cs with
  | some (v, rest) => if skip rest = [] then some v else none
  | none => none

/-- A field of an object; of two with one name the last one counts. -/
def field? (name : String) : Json → Option Json
  | .obj fields => (fields.reverse.find? fun f => f.1 = name).map (·.2)
  | _ => none

/-! ## Objects of strings and numbers -/

/-- What a field is written from. -/
inductive Scalar where
  | str (s : String)
  | nat (n : ℕ)

def Scalar.json : Scalar → Json
  | .str s => .str s
  | .nat n => .num n

/-- A string as `JSON.stringify` writes it. -/
def quote (s : String) : List Char := quoteMark :: (s.toList.flatMap escape ++ [quoteMark])

def Scalar.text : Scalar → List Char
  | .str s => quote s
  | .nat n => Nat.toDigits 10 n

/-- A field as `JSON.stringify` writes it. -/
def memberText (f : String × Scalar) : List Char := quote f.1 ++ ':' :: f.2.text

def membersText : List (String × Scalar) → List Char
  | [] => []
  | [f] => memberText f
  | f :: fs => memberText f ++ ',' :: membersText fs

/-- The text of an object. -/
def stringify (fields : List (String × Scalar)) : List Char :=
  '\x7b' :: (membersText fields ++ ['\x7d'])

/-! ## What is written is read back -/

theorem hexVal?_hexDigit : ∀ n < 16, hexVal? (hexDigit n) = some n := by decide

theorem hex4?_hexDigit {n : ℕ} (h : n < 32) :
    hex4? '0' '0' (hexDigit (n / 16)) (hexDigit (n % 16)) = some n := by
  have hzero : hexVal? '0' = some 0 := by decide
  have hhi := hexVal?_hexDigit (n / 16) (by omega)
  have hlo := hexVal?_hexDigit (n % 16) (by omega)
  simp only [hex4?, hzero, hhi, hlo, Option.bind_eq_bind, Option.bind_some, Option.pure_def,
    Option.some.injEq]
  omega

/-- A short escape is read as the unit it stands for. -/
theorem units_short {e : Char} {n : ℕ} (he : e ≠ 'u') (hn : unescape? e = some n)
    (rest : List Char) :
    units (backslash :: e :: rest) = (units rest).map fun x => (n :: x.1, x.2) := by
  rw [units, hn]
  · cases units rest <;> rfl
  · exact fun _ _ _ _ _ h => absurd h he

variable {c : Char} {rest : List Char}

theorem units_plain (hquote : c ≠ quoteMark) (hbackslash : c ≠ backslash) (h : ¬c.toNat < 32)
    (rest : List Char) : units (c :: rest) = (units rest).map fun x => (c.toNat :: x.1, x.2) := by
  rw [units.eq_def]
  dsimp only
  rw [if_neg hquote, if_neg hbackslash, if_neg h]
  cases units rest <;> rfl

theorem units_quoteMark (rest : List Char) : units (quoteMark :: rest) = some ([], rest) := by
  rw [units.eq_def]
  exact if_pos rfl

theorem units_escape (c : Char) (rest : List Char) :
    units (escape c ++ rest) = (units rest).map fun x => (c.toNat :: x.1, x.2) := by
  rw [escape]
  split
  · rename_i hspecial
    refine units_short ?_ ?_ rest
    · rintro rfl
      revert hspecial
      decide
    · rw [unescape?, if_pos (hspecial.imp_right Or.inl)]
  · rename_i hspecial
    obtain ⟨hquote, hbackslash⟩ := not_or.1 hspecial
    split
    · rename_i h
      rw [h]
      exact units_short (by decide) rfl rest
    split
    · rename_i h
      rw [h]
      exact units_short (by decide) rfl rest
    split
    · rename_i h
      rw [h]
      exact units_short (by decide) rfl rest
    split
    · rename_i h
      rw [h]
      exact units_short (by decide) rfl rest
    split
    · rename_i h
      rw [h]
      exact units_short (by decide) rfl rest
    split
    · rename_i h
      simp only [cons_append, nil_append]
      rw [units]
      rw [hex4?_hexDigit h]
      cases units rest <;> rfl
    · rename_i h
      exact units_plain hquote hbackslash h rest

theorem units_quoted (cs rest : List Char) :
    units (cs.flatMap escape ++ quoteMark :: rest) = some (cs.map Char.toNat, rest) := by
  induction cs with
  | nil => exact units_quoteMark rest
  | cons c cs ih =>
    rw [flatMap_cons, append_assoc, units_escape, ih]
    rfl

/-- No character is a surrogate. -/
theorem ofUnits_toNat (cs : List Char) : ofUnits (cs.map Char.toNat) = cs := by
  have hval : ∀ c : Char, ¬(0xd800 ≤ c.toNat ∧ c.toNat < 0xe000) := by
    intro c hc
    have h := c.valid
    have htoNat : c.val.toNat = c.toNat := rfl
    omega
  induction cs with
  | nil => rfl
  | cons c cs ih =>
    cases cs with
    | nil => simp [ofUnits, hval c]
    | cons d =>
      have hpair : ¬(0xd800 ≤ c.toNat ∧ c.toNat < 0xdc00 ∧ 0xdc00 ≤ d.toNat ∧ d.toNat < 0xe000) :=
        fun h => hval c ⟨h.1, by omega⟩
      rw [map_cons, map_cons, ofUnits, if_neg hpair, if_neg (hval c),
        Char.ofNat_toNat, ← map_cons, ih]

theorem string_quoted (s : String) (rest : List Char) :
    string (s.toList.flatMap escape ++ quoteMark :: rest) = some (s, rest) := by
  rw [string, units_quoted, Option.map_some]
  dsimp only
  rw [ofUnits_toNat, String.ofList_toList]

/-- What stands after a number: a character that cannot go on with it. -/
def Ends (rest : List Char) : Prop := ∃ c cs, rest = c :: cs ∧ (c = ',' ∨ c = '\x7d')

theorem ends_comma (cs : List Char) : Ends (',' :: cs) := ⟨_, cs, rfl, Or.inl rfl⟩

theorem ends_brace (cs : List Char) : Ends ('\x7d' :: cs) := ⟨_, cs, rfl, Or.inr rfl⟩

theorem digits_toDigits (n : ℕ) (hends : Ends rest) :
    digits (Nat.toDigits 10 n ++ rest) = some (Nat.toDigits 10 n, rest) := by
  have hall : ∀ c ∈ Nat.toDigits 10 n, c.isDigit = true :=
    fun c hc => Nat.isDigit_of_mem_toDigits (by decide) (by decide) hc
  obtain ⟨c, cs, rfl, hc⟩ := hends
  have hcs : (c :: cs).takeWhile Char.isDigit = [] ∧
      (c :: cs).dropWhile Char.isDigit = c :: cs := by
    rcases hc with rfl | rfl <;> exact ⟨rfl, rfl⟩
  have htake : (Nat.toDigits 10 n ++ c :: cs).takeWhile Char.isDigit = Nat.toDigits 10 n := by
    rw [takeWhile_append_of_pos hall, hcs.1, append_nil]
  have hdrop : (Nat.toDigits 10 n ++ c :: cs).dropWhile Char.isDigit = c :: cs := by
    rw [dropWhile_append_of_pos hall, hcs.2]
  rw [digits, htake, hdrop]
  split
  · rename_i hnil
    exact absurd hnil Nat.toDigits_ne_nil
  · rename_i heq
    rw [heq]

/-- A number does not start with a zero, unless it is zero. -/
theorem head?_toDigits (n : ℕ) :
    (Nat.toDigits 10 n).head? ≠ some '0' ∨ Nat.toDigits 10 n = ['0'] := by
  induction n using Nat.strongRecOn with
  | ind n ih =>
    by_cases hn : n < 10
    · have hsmall : ∀ m < 10,
          (Nat.toDigits 10 m).head? ≠ some '0' ∨ Nat.toDigits 10 m = ['0'] := by
        decide
      exact hsmall n hn
    · left
      obtain ⟨d, _, hds⟩ := exists_cons_of_ne_nil
        (Nat.toDigits_ne_nil (b := 10) (n := n / 10))
      rw [Nat.toDigits_of_base_le (by decide) (by omega), hds]
      intro hzero
      have hd : d = '0' := Option.some.inj hzero
      rcases ih (n / 10) (by omega) with h | h
      · rw [hds, hd] at h
        exact h rfl
      · -- only zero is written with a zero alone
        have hval := Nat.ofDigitChars_ten_toDigits (n := n / 10)
        rw [h] at hval
        have hquotient : 0 = n / 10 := hval
        omega

theorem magnitude_toDigits (n : ℕ) (hends : Ends rest) :
    magnitude (Nat.toDigits 10 n ++ rest) = some ((n : ℚ), rest) := by
  obtain ⟨_, _, hrest, hc⟩ := id hends
  have hfraction : fraction rest = some ([], rest) := by
    rw [hrest]
    rcases hc with rfl | rfl <;> rfl
  have hexponent : exponent rest = some (0, rest) := by
    rw [hrest]
    rcases hc with rfl | rfl <;> rfl
  simp only [magnitude, digits_toDigits n hends, Option.bind_eq_bind, Option.bind_some, guard,
    if_pos (head?_toDigits n), hfraction, hexponent, Option.pure_def, append_nil,
    Nat.ofDigitChars_ten_toDigits, length_nil]
  simp

theorem skip_of_not_space (h : isSpace c = false) (cs : List Char) : skip (c :: cs) = c :: cs := by
  rw [skip]
  simp [h]

theorem expect_self (h : isSpace c = false) (rest : List Char) :
    expect c (c :: rest) = some rest := by
  rw [expect, skip_of_not_space h]
  exact if_pos rfl

theorem expect_other {d : Char} (h : isSpace d = false) (hne : d ≠ c) (rest : List Char) :
    expect c (d :: rest) = none := by
  rw [expect, skip_of_not_space h]
  exact if_neg hne

theorem value_quote (fuel : ℕ) (s : String) (rest : List Char) :
    value (fuel + 1) (quote s ++ rest) = some (.str s, rest) := by
  have hquote : quote s ++ rest = quoteMark :: (s.toList.flatMap escape ++ quoteMark :: rest) := by
    simp [quote]
  rw [hquote, value, skip_of_not_space (by decide)]
  dsimp only
  rw [string_quoted]
  rfl

theorem value_toDigits (fuel n : ℕ) (hends : Ends rest) :
    value (fuel + 1) (Nat.toDigits 10 n ++ rest) = some (.num n, rest) := by
  have hmagnitude := magnitude_toDigits n hends
  obtain ⟨d, _, hds⟩ := exists_cons_of_ne_nil (Nat.toDigits_ne_nil (b := 10) (n := n))
  have hdigit : d.isDigit = true :=
    Nat.isDigit_of_mem_toDigits (b := 10) (n := n) (by decide) (by decide) (by simp [hds])
  -- a digit starts no other value
  have hne : ∀ c : Char, c.isDigit = false → d ≠ c := by
    rintro c hc rfl
    cases hdigit.symm.trans hc
  have hspace : isSpace d = false := by
    simp [isSpace, hne ' ' rfl, hne '\n' rfl, hne '\r' rfl, hne '\t' rfl]
  rw [hds, cons_append] at hmagnitude ⊢
  rw [value, skip_of_not_space hspace]
  dsimp only
  rw [if_neg (hne _ rfl), if_neg (hne _ rfl), if_neg (hne _ rfl), if_neg (hne _ rfl),
    if_neg (hne _ rfl), if_neg (hne _ rfl), number, hmagnitude]
  · rfl
  · rintro cs hcons
    exact hne '-' rfl (List.cons.inj hcons).1

theorem value_text (fuel : ℕ) (x : Scalar) (hends : Ends rest) :
    value (fuel + 1) (x.text ++ rest) = some (x.json, rest) := by
  cases x with
  | str s => exact value_quote fuel s rest
  | nat n => exact value_toDigits fuel n hends

/-- The members up to the comma or the brace after the value of the first one. -/
theorem members_memberText (fuel : ℕ) (f : String × Scalar) (hends : Ends rest) :
    members (fuel + 2) (memberText f ++ rest) =
      match expect ',' rest with
      | some rest => (members (fuel + 1) rest).map fun x => ((f.1, f.2.json) :: x.1, x.2)
      | none => (expect '\x7d' rest).map fun rest => ([(f.1, f.2.json)], rest) := by
  have htext : memberText f ++ rest =
      quoteMark :: (f.1.toList.flatMap escape ++ quoteMark :: ':' :: (f.2.text ++ rest)) := by
    simp [memberText, quote]
  rw [htext, members, expect_self (by decide)]
  simp only [Option.bind_eq_bind, Option.bind_some, string_quoted, value_text fuel f.2 hends,
    expect_self (show isSpace ':' = false by decide)]
  cases expect ',' rest with
  | none => cases expect '\x7d' rest <;> rfl
  | some rest =>
    dsimp only
    cases members (fuel + 1) rest <;> rfl

theorem members_membersText {fs : List (String × Scalar)} (hne : fs ≠ []) {fuel : ℕ}
    (hfuel : fs.length < fuel) (rest : List Char) :
    members fuel (membersText fs ++ '\x7d' :: rest) =
      some (fs.map fun f => (f.1, f.2.json), rest) := by
  induction fs generalizing fuel with
  | nil => exact absurd rfl hne
  | cons f fs ih =>
    obtain ⟨m, rfl⟩ : ∃ m, fuel = m + 2 := by
      simp only [length_cons] at hfuel
      exact ⟨fuel - 2, by omega⟩
    cases fs with
    | nil =>
      rw [membersText, members_memberText m f (ends_brace rest)]
      rfl
    | cons g gs =>
      have htext : membersText (f :: g :: gs) ++ '\x7d' :: rest =
          memberText f ++ ',' :: (membersText (g :: gs) ++ '\x7d' :: rest) := by
        simp [membersText]
      rw [htext, members_memberText m f (ends_comma _), expect_self (by decide)]
      dsimp only
      rw [ih (cons_ne_nil g gs) (by simp only [length_cons] at hfuel ⊢; omega)]
      rfl

theorem length_le_membersText (fs : List (String × Scalar)) :
    fs.length ≤ (membersText fs).length := by
  fun_induction membersText fs with
  | case1 => exact Nat.le_refl _
  | case2 f => simp [memberText, quote]
  | case3 f fs hfs ih =>
    simp only [length_cons, length_append]
    omega

/-- What is written is read back. -/
theorem parse_stringify {fs : List (String × Scalar)} (hne : fs ≠ []) :
    parse (stringify fs) = some (.obj (fs.map fun f => (f.1, f.2.json))) := by
  have hlen := length_le_membersText fs
  have hnone : expect '\x7d' (membersText fs ++ ['\x7d']) = none := by
    obtain ⟨f, fs, rfl⟩ := exists_cons_of_ne_nil hne
    have hstart : ∃ cs, membersText (f :: fs) ++ ['\x7d'] = quoteMark :: cs := by
      cases fs <;> exact ⟨_, rfl⟩
    obtain ⟨cs, hcs⟩ := hstart
    rw [hcs]
    exact expect_other (by decide) (by decide) cs
  have hval : value ((stringify fs).length + 1) (stringify fs) =
      some (.obj (fs.map fun f => (f.1, f.2.json)), []) := by
    have hfuel : fs.length < (stringify fs).length := by
      simp only [stringify, length_cons, length_append]
      omega
    have hmems := members_membersText hne hfuel []
    rw [stringify] at hmems ⊢
    rw [value, skip_of_not_space (by decide)]
    dsimp only
    rw [hnone, hmems]
    rfl
  rw [parse, hval]
  rfl

end Json
