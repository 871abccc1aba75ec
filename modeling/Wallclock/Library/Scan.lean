import Mathlib.Algebra.Group.Nat.Defs
import Mathlib.Data.List.TakeWhile

/-!
# Scanning Unsigned Numbers

`sscanf` of the C library for formats made of `%u` and ordinary characters.

A `%u` skips white space, takes an optional sign and then as many decimal
digits as there are, of which it needs one. The number goes through `strtoul`,
which saturates at the largest 64-bit number and negates modulo 2 ^ 64 after
a minus sign, and is stored in 32 bits. An ordinary character matches itself
and nothing before it. Whatever follows the last directive is ignored.

`sscanf` runs the directives. `Numeral` is the text of a number as a grammar
has it, with the rules of the grammar as fields, and `scanUnsigned_eq_some_iff`
says that the two agree: what `%u` reads is a numeral that is not followed by
a digit. The rest is about formats one directive at a time.

## Main definitions

* `isSpace`, `decimal`, `strtoul`: The pieces of a number.
* `scanUnsigned`: One `%u`.
* `Directive`, `sscanf`: A format, and the numbers it assigns.
* `Numeral`: A number with blanks and a sign.
* `Numeral.text`, `Numeral.value`: Its text and the number stored for it.
* `Numeral.Plain`: A numeral of digits only.
* `Stops`: Text that does not begin with a digit.

## Theorems

* `takeWhile_append_stops`, `dropWhile_append_stops`: The longest prefix of
  some kind.
* `isSpace_of_isDigit`, `isSpace_sign`: Neither a digit nor a sign is a blank.
* `scanSign_append`, `scanSign_eq`: The sign of a numeral.
* `scanUnsigned_text`: A numeral is read.
* `scanUnsigned_eq_some_iff`: Nothing else is.
* `sscanf_unsigned_iff`, `sscanf_literal_iff`: The first directive of a format.
* `value_eq_decimal`: The number stored for a plain numeral in range.
-/

namespace Scan

/-- White space in the C locale: the blank and the characters 9 to 13. -/
def isSpace (c : Char) : Bool := c.toNat = 32 ∨ 9 ≤ c.toNat ∧ c.toNat ≤ 13

/-- The number that some decimal digits stand for. -/
def decimal (digits : List Char) : Nat :=
  digits.foldl (fun n c => 10 * n + (c.toNat - 48)) 0

def strtoul (negative : Bool) (digits : List Char) : BitVec 64 :=
  if decimal digits ≥ 2 ^ 64 then BitVec.allOnes 64
  else if negative then -BitVec.ofNat 64 (decimal digits)
  else BitVec.ofNat 64 (decimal digits)

/-- An optional sign: whether it is negative, and what follows it. -/
def scanSign : List Char → Bool × List Char
  | '-' :: cs => (true, cs)
  | '+' :: cs => (false, cs)
  | cs => (false, cs)

/-- One `%u`: the number that is stored, and the text after it. -/
def scanUnsigned (cs : List Char) : Option (BitVec 32 × List Char) :=
  let (negative, cs) := scanSign (cs.dropWhile isSpace)
  let digits := cs.takeWhile Char.isDigit
  if digits = [] then none
  else some ((strtoul negative digits).setWidth 32, cs.dropWhile Char.isDigit)

inductive Directive
  | unsigned
  | literal (c : Char)

/-- The numbers that are assigned before the input fails to match. -/
def sscanf : List Directive → List Char → List (BitVec 32)
  | [], _ => []
  | .unsigned :: format, cs =>
    match scanUnsigned cs with
    | none => []
    | some (value, rest) => value :: sscanf format rest
  | .literal _ :: _, [] => []
  | .literal c :: format, c' :: rest => if c' = c then sscanf format rest else []

/-- The text of a number: blanks, an optional sign, and digits. -/
structure Numeral where
  blanks : List Char
  sign : Option Char
  digits : List Char
  blank : ∀ c ∈ blanks, isSpace c
  signed : ∀ c ∈ sign, c = '+' ∨ c = '-'
  digit : ∀ c ∈ digits, c.isDigit
  nonempty : digits ≠ []

namespace Numeral

def text (n : Numeral) : List Char := n.blanks ++ n.sign.toList ++ n.digits

def value (n : Numeral) : BitVec 32 := (strtoul (n.sign = some '-') n.digits).setWidth 32

/-- There is nothing but digits. -/
def Plain (n : Numeral) : Prop := n.blanks = [] ∧ n.sign = none

end Numeral

/-- The text does not begin with a digit. -/
def Stops (cs : List Char) : Prop := ∀ c ∈ cs.head?, c.isDigit = false

section Lists

variable {p : Char → Bool} {l rest : List Char}

theorem takeWhile_append_stops (h : ∀ c ∈ l, p c) (hrest : ∀ c ∈ rest.head?, p c = false) :
    (l ++ rest).takeWhile p = l := by
  rw [List.takeWhile_append_of_pos h]
  cases rest with
  | nil => rw [List.takeWhile_nil, List.append_nil]
  | cons c rest =>
      rw [List.takeWhile_cons_of_neg, List.append_nil]
      rw [hrest c rfl]
      exact Bool.false_ne_true

theorem dropWhile_append_stops (h : ∀ c ∈ l, p c) (hrest : ∀ c ∈ rest.head?, p c = false) :
    (l ++ rest).dropWhile p = rest := by
  rw [List.dropWhile_append_of_pos h]
  cases rest with
  | nil => rfl
  | cons c rest =>
      rw [List.dropWhile_cons_of_neg]
      rw [hrest c rfl]
      exact Bool.false_ne_true

end Lists

/-- A digit is neither a blank nor a sign. -/
theorem isSpace_of_isDigit {c : Char} (h : c.isDigit) : isSpace c = false ∧ c ≠ '+' ∧ c ≠ '-' := by
  rcases Char.isDigit_iff_toNat.mp h with ⟨hlo, hhi⟩
  have hlo' : 48 ≤ c.toNat := hlo
  refine ⟨decide_eq_false (by omega), ?_, ?_⟩
  · intro hc
    rw [hc] at hlo'
    exact absurd hlo' (by decide)
  · intro hc
    rw [hc] at hlo'
    exact absurd hlo' (by decide)

/-- Nor is a sign a blank. -/
theorem isSpace_sign {c : Char} (h : c = '+' ∨ c = '-') : isSpace c = false := by
  rcases h with hc | hc
  · rw [hc]
    decide
  · rw [hc]
    decide

section Numeral

variable {cs rest : List Char} {v : BitVec 32}

/-- After the sign there is a digit, so there is no second sign. -/
theorem scanSign_append {sign : Option Char} (hsign : ∀ c ∈ sign, c = '+' ∨ c = '-')
    {c : Char} (hc : c.isDigit) :
    scanSign (sign.toList ++ c :: cs) = (decide (sign = some '-'), c :: cs) := by
  rcases isSpace_of_isDigit hc with ⟨_, hplus, hminus⟩
  cases sign with
  | none =>
      -- The digit is neither of the two signs that are matched.
      unfold scanSign
      split
      · next heq => exact absurd (List.cons.inj heq).1 hminus
      · next heq => exact absurd (List.cons.inj heq).1 hplus
      · rfl
  | some x =>
      rcases hsign x rfl with hx | hx
      · rw [hx]
        rfl
      · rw [hx]
        rfl

/-- A numeral is read, up to the digits after which something else comes. -/
theorem scanUnsigned_text (n : Numeral) (hrest : Stops rest) :
    scanUnsigned (n.text ++ rest) = some (n.value, rest) := by
  rcases hdigits : n.digits with _ | ⟨c, digits⟩
  · exact absurd hdigits n.nonempty
  have hc : c.isDigit := n.digit c (by rw [hdigits]; exact List.mem_cons_self)
  -- The blanks end where the sign or the first digit begins.
  have hhead : ∀ x ∈ (n.sign.toList ++ (c :: digits ++ rest)).head?, isSpace x = false := by
    intro x hx
    rcases hsign : n.sign with _ | y
    · rw [hsign] at hx
      rw [← Option.some.inj hx]
      exact (isSpace_of_isDigit hc).1
    · rw [hsign] at hx
      rw [← Option.some.inj hx]
      exact isSpace_sign (n.signed y hsign)
  have hblanks : (n.text ++ rest).dropWhile isSpace = n.sign.toList ++ (c :: digits ++ rest) := by
    rw [Numeral.text, hdigits, List.append_assoc, List.append_assoc]
    exact dropWhile_append_stops n.blank hhead
  have hall : ∀ x ∈ c :: digits, x.isDigit := hdigits ▸ n.digit
  have htake : (c :: digits ++ rest).takeWhile Char.isDigit = c :: digits :=
    takeWhile_append_stops hall hrest
  have hdrop : (c :: digits ++ rest).dropWhile Char.isDigit = rest :=
    dropWhile_append_stops hall hrest
  simp only [scanUnsigned, hblanks]
  rw [List.cons_append, scanSign_append n.signed hc]
  simp only
  rw [← List.cons_append, htake, hdrop, if_neg (List.cons_ne_nil c digits), Numeral.value, hdigits]

/-- What a sign is followed by, and what it was read from. -/
theorem scanSign_eq (cs : List Char) : ∃ sign : Option Char,
    (∀ c ∈ sign, c = '+' ∨ c = '-') ∧ cs = sign.toList ++ (scanSign cs).2 ∧
      (scanSign cs).1 = decide (sign = some '-') := by
  unfold scanSign
  split
  · exact ⟨some '-', fun c hc => Or.inr (Option.some.inj hc).symm, rfl, rfl⟩
  · exact ⟨some '+', fun c hc => Or.inl (Option.some.inj hc).symm, rfl, rfl⟩
  · exact ⟨none, fun c hc => absurd hc.symm (Option.some_ne_none c), rfl, rfl⟩

/-- `%u` reads exactly the numerals that no digit follows. -/
theorem scanUnsigned_eq_some_iff : scanUnsigned cs = some (v, rest) ↔
    ∃ n : Numeral, cs = n.text ++ rest ∧ n.value = v ∧ Stops rest := by
  constructor
  · intro h
    rcases scanSign_eq (cs.dropWhile isSpace) with ⟨sign, hsigned, hsplit, hnegative⟩
    simp only [scanUnsigned] at h
    generalize scanSign (cs.dropWhile isSpace) = r at h hsplit hnegative
    split_ifs at h with hnil
    rw [Option.some.injEq, Prod.mk.injEq] at h
    -- The numeral is made of the prefixes that the scan has taken.
    refine ⟨⟨cs.takeWhile isSpace, sign, r.2.takeWhile Char.isDigit, ?_, hsigned, ?_, hnil⟩, ?_,
      ?_, ?_⟩
    · exact fun c hc => List.mem_takeWhile_imp hc
    · exact fun c hc => List.mem_takeWhile_imp hc
    · rw [Numeral.text, ← h.2, List.append_assoc, List.append_assoc,
        List.takeWhile_append_dropWhile, ← hsplit, List.takeWhile_append_dropWhile]
    · rw [Numeral.value, ← h.1, hnegative]
    · rw [← h.2]
      intro c hc
      have hne := List.head?_dropWhile_not Char.isDigit r.2
      rw [hc] at hne
      exact hne
  · rintro ⟨n, hcs, hv, hrest⟩
    rw [hcs, ← hv]
    exact scanUnsigned_text n hrest

variable {format : List Directive} {vs : List (BitVec 32)}

/-- The first directive is a number. -/
theorem sscanf_unsigned_iff : sscanf (.unsigned :: format) cs = v :: vs ↔
    ∃ (n : Numeral) (rest : List Char), cs = n.text ++ rest ∧ n.value = v ∧ Stops rest ∧
      sscanf format rest = vs := by
  rw [sscanf]
  constructor
  · intro h
    rcases hscan : scanUnsigned cs with _ | ⟨w, rest⟩
    · rw [hscan] at h
      exact absurd h.symm (List.cons_ne_nil v vs)
    · rw [hscan] at h
      rcases scanUnsigned_eq_some_iff.mp hscan with ⟨n, hcs, hw, hrest⟩
      exact ⟨n, rest, hcs, hw.trans (List.cons.inj h).1, hrest, (List.cons.inj h).2⟩
  · rintro ⟨n, rest, hcs, hv, hrest, hvs⟩
    rw [hcs, scanUnsigned_text n hrest]
    simp only [hv, hvs]

/-- The first directive is an ordinary character. -/
theorem sscanf_literal_iff {c : Char} : sscanf (.literal c :: format) cs = v :: vs ↔
    ∃ rest, cs = c :: rest ∧ sscanf format rest = v :: vs := by
  cases cs with
  | nil =>
      simp only [sscanf, reduceCtorEq, false_and, exists_false]
  | cons c' cs =>
      rw [sscanf]
      split_ifs with hc
      · rw [hc]
        simp only [List.cons.injEq, true_and, exists_eq_left']
      · simp only [List.cons.injEq, hc, false_and, exists_false]

/-- A plain numeral below 2 ^ 32 is stored as it is. -/
theorem value_eq_decimal {n : Numeral} (hplain : n.Plain) (hlt : decimal n.digits < 2 ^ 32) :
    n.value.toNat = decimal n.digits := by
  have hsign : decide (n.sign = some '-') = false := by
    rw [hplain.2]
    rfl
  rw [Numeral.value, hsign, strtoul, if_neg (by omega), if_neg Bool.false_ne_true,
    BitVec.toNat_setWidth, BitVec.toNat_ofNat,
    Nat.mod_eq_of_lt (by omega : decimal n.digits < 2 ^ 64), Nat.mod_eq_of_lt hlt]

end Numeral

end Scan
