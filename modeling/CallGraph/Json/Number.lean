import CallGraph.Json.Numeral

/-!
# Numbers

The number a numeral stands for. Whole numbers within 64 bits are exact; all others are floating
point, computed from a significand that is cut where it would no longer fit 64 bits.

* `Number`: an integer or a floating-point number.
* `fill`: the number of the longest run of digits that stays within a limit.
* `Numeral.number`: the number of a numeral, or the fault that it is out of range.
* `fill_eq_of_le`: digits whose number is within the limit are all used.
-/

namespace CallGraph.Json

open Reader

/-- Integers are those from `-2 ^ 63` to `2 ^ 64 - 1`, zero with a minus sign excepted. -/
inductive Number where
  | integer (value : Int)
  | real (value : Float)

/-- A number in the words of a message. -/
def Number.found : Number → Found
  | .integer value => .integer value
  | .real value => .real value

/-! ### Digits -/

/-- The value of a decimal digit. -/
def digitValue (c : Char) : Nat := c.toNat - '0'.toNat

/-- The number that digits stand for behind the digits of `n`. -/
def natOfDigits (n : Nat) (digits : List Char) : Nat :=
  digits.foldl (fun n c => 10 * n + digitValue c) n

/-- Digits are appended to a number while it stays within the limit; the first that does not fit
and all behind it are left. -/
def fill (limit : Nat) : Nat → List Char → Nat × List Char
  | n, [] => (n, [])
  | n, c :: digits =>
    if 10 * n + digitValue c ≤ limit then fill limit (10 * n + digitValue c) digits
    else (n, c :: digits)

/-- Digits never make a number smaller. -/
theorem le_natOfDigits (n : Nat) (digits : List Char) : n ≤ natOfDigits n digits := by
  induction digits generalizing n with
  | nil => exact Nat.le_refl n
  | cons c digits ih =>
    have := ih (10 * n + digitValue c)
    simp only [natOfDigits, List.foldl_cons] at this ⊢
    omega

/-- Digits whose number is within the limit are all used. -/
theorem fill_eq_of_le {limit n : Nat} {digits : List Char}
    (h : natOfDigits n digits ≤ limit) : fill limit n digits = (natOfDigits n digits, []) := by
  induction digits generalizing n with
  | nil => rfl
  | cons c digits ih =>
    have hn := le_natOfDigits (10 * n + digitValue c) digits
    simp only [natOfDigits, List.foldl_cons] at h hn ⊢
    rw [fill, if_pos (by omega)]
    exact ih h

/-! ### Powers of ten -/

/-- The greatest significand. -/
def greatestWord : Nat := 0xFFFFFFFFFFFFFFFF

/-- The greatest size of a negative integer. -/
def greatestNegative : Nat := 0x8000000000000000

/-- The greatest size of an exponent. -/
def greatestExponent : Nat := 0x7FFFFFFF

/-- The greatest power of ten that is a finite floating-point number. -/
def greatestPower : Nat := 308

/-- A power of ten, rounded to the nearest floating-point number. -/
def power (places : Nat) : Float := Float.ofScientific 1 false places

/-- A number moved behind the point, in steps of the greatest power until it is zero or the rest is
a single power. -/
def shrink (x : Float) (places : Nat) : Float :=
  if places ≤ greatestPower then x / power places
  else if x == 0 then x
  else shrink (x / power greatestPower) (places - greatestPower)
termination_by places
decreasing_by
  unfold greatestPower at *
  omega

/-- A number moved before the point; `none` when it is no longer finite. -/
def grow? (x : Float) (places : Nat) : Option Float :=
  if places ≤ greatestPower then
    if (x * power places).isInf then none else some (x * power places)
  else if x == 0 then some x
  else none

/-- A significand times a power of ten; `none` when it is not finite. -/
def scale? (significand : Nat) (places : Int) : Option Float :=
  let x := (UInt64.ofNat significand).toFloat
  if 0 ≤ places then grow? x places.toNat else some (shrink x (-places).toNat)

/-! ### The number of a numeral -/

namespace Numeral

/-- A floating-point number with the sign of the numeral. -/
def signed (n : Numeral) (x : Float) : Number := .real (if n.negative then -x else x)

/-- The numeral's number when its digits without a sign and a scale give `significand`; behind the
numeral it is out of range when it is not finite. -/
def scaled (n : Numeral) (significand : Nat) (places : Int) : Reader Number :=
  match scale? significand places with
  | some x => pure (n.signed x)
  | none => fail .numberOutOfRange

/-- The numeral's number as a floating-point number. Whole digits that do not fit the significand
count as places; digits of the fraction that do not fit are dropped. An exponent beyond the
greatest size is out of range behind the digit that exceeds it, unless the number is zero or the
exponent negative, when it is zero. -/
def real (n : Numeral) : Reader Number :=
  let (whole, dropped) := fill greatestWord 0 n.whole
  let fraction := n.fraction.getD []
  let (significand, unused) := fill greatestWord whole fraction
  let places : Int := dropped.length - (fraction.length - unused.length : Nat)
  match n.exponent with
  | none => n.scaled significand places
  | some e =>
    match fill greatestExponent 0 e.digits with
    | (size, []) => n.scaled significand (if e.negative then places - size else places + size)
    | (_, _ :: behind) =>
      if significand ≠ 0 ∧ e.negative = false then failBefore behind .numberOutOfRange
      else pure (n.signed 0)

/-- The numeral's number, given without reading further. Without a fraction and an exponent it is
an integer if it is one of `Number`'s. -/
def number (n : Numeral) : Reader Number :=
  if n.fraction = none ∧ n.exponent = none then
    match fill greatestWord 0 n.whole, n.negative with
    | (value, []), false => pure (.integer value)
    | (value, []), true =>
      if 0 < value ∧ value ≤ greatestNegative then pure (.integer (-value)) else n.real
    | _, _ => n.real
  else n.real

end Numeral

/-- A number from its first character on. -/
def readNumber (first : Char) : Reader Number := do
  let numeral ← Numeral.read .endInValue first
  numeral.number

end CallGraph.Json
