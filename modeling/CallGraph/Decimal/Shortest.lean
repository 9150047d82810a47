/-!
# Shortest decimals

The decimal with the fewest digits that a binary floating-point number is the nearest one to.

* `Decimal`: a number `digits * 10 ^ exponent`.
* `Binary`: a positive number `mantissa * 2 ^ exponent` of the 64-bit format.
* `Binary.ofFloat?`: the parts of a finite number other than zero.
* `Binary.contains`: whether a decimal lies in the interval of the reals that round to the number.
* `Binary.shortest`: the decimal on the coarsest decimal grid with a point in that interval.

All comparisons are between natural numbers, so nothing is rounded on the way.
-/

namespace CallGraph

/-- A non-negative decimal number. -/
structure Decimal where
  digits : Nat
  exponent : Int
  deriving DecidableEq, Repr

namespace Decimal

/-- A positive number of the 64-bit binary format. -/
structure Binary where
  mantissa : Nat
  exponent : Int
  deriving DecidableEq, Repr

/-! ### The parts of a number -/

/-- The exponent of the smallest positive number of the format. -/
def leastExponent : Int := -1074

/-- The mantissa of a number whose mantissa has its leading bit set and no other. -/
def leadingBit : Nat := 0x10000000000000

/-- The bit that holds the sign. -/
def signBit : Nat := 0x8000000000000000

/-- The mantissa and exponent of a finite positive number given by its sign-free bits; `none` for
zero and for the patterns that stand for no finite number. -/
def Binary.ofBits? (bits : Nat) : Option Binary :=
  let field := bits / leadingBit % 2048
  let fraction := bits % leadingBit
  if field = 2047 then none
  else if field = 0 then
    if fraction = 0 then none else some ⟨fraction, leastExponent⟩
  else some ⟨leadingBit + fraction, leastExponent + (field - 1 : Int)⟩

/-- The parts of the magnitude of a finite number other than zero. -/
def Binary.ofFloat? (x : Float) : Option Binary :=
  Binary.ofBits? (x.toBits.toNat % signBit)

/-! ### The interval of a number -/

/-- `10 ^ e`, or one where the exponent is negative. -/
def tens (e : Int) : Nat := Nat.pow 10 e.toNat

/-- `2 ^ f`, or one where the exponent is negative. -/
def twos (f : Int) : Nat := Nat.pow 2 f.toNat

/-- `a * 10 ^ e ≤ b * 2 ^ f`, decided between natural numbers. -/
def decimalLe (a : Nat) (e : Int) (b : Nat) (f : Int) : Bool :=
  a * tens e * twos (-f) ≤ b * twos f * tens (-e)

/-- `b * 2 ^ f ≤ a * 10 ^ e`, decided between natural numbers. -/
def binaryLe (b : Nat) (f : Int) (a : Nat) (e : Int) : Bool :=
  b * twos f * tens (-e) ≤ a * tens e * twos (-f)

/-- The lower end of the interval in units of a quarter of the last place: half a place below, or a
quarter where the neighbour below is twice as near. -/
def Binary.low (x : Binary) : Nat :=
  if x.mantissa = leadingBit ∧ x.exponent ≠ leastExponent then 4 * x.mantissa - 1
  else 4 * x.mantissa - 2

/-- The upper end of the interval in units of a quarter of the last place. -/
def Binary.high (x : Binary) : Nat := 4 * x.mantissa + 2

/-- The interval holds its ends exactly when the mantissa is even, since a tie goes to the even
neighbour. -/
def Binary.contains (x : Binary) (d : Decimal) : Bool :=
  let f := x.exponent - 2
  if x.mantissa % 2 = 0 then
    binaryLe x.low f d.digits d.exponent && decimalLe d.digits d.exponent x.high f
  else
    !decimalLe d.digits d.exponent x.low f && !binaryLe x.high f d.digits d.exponent

/-! ### The search -/

/-- The largest multiple of `10 ^ e` that is at most the number, counted in that unit. -/
def Binary.floor (x : Binary) (e : Int) : Nat :=
  x.mantissa * twos x.exponent * tens (-e) / (twos (-x.exponent) * tens e)

/-- Of the two neighbours `n` and `n + 1` on the grid `10 ^ e`, the one nearer to the number; the
even one when both are equally near. -/
def Binary.nearer (x : Binary) (n : Nat) (e : Int) : Nat :=
  let half := 2 * n + 1
  let below := decimalLe half e x.mantissa (x.exponent + 1)
  let above := binaryLe x.mantissa (x.exponent + 1) half e
  match below, above with
  | true, true => if n % 2 = 0 then n else n + 1
  | true, false => n + 1
  | false, _ => n

/-- The point of the grid `10 ^ e` in the number's interval, the nearer of two. -/
def Binary.onGrid? (x : Binary) (e : Int) : Option Decimal :=
  let n := x.floor e
  match x.contains ⟨n, e⟩, x.contains ⟨n + 1, e⟩ with
  | true, true => some ⟨x.nearer n e, e⟩
  | true, false => some ⟨n, e⟩
  | false, true => some ⟨n + 1, e⟩
  | false, false => none

/-- The point on the first grid with one in the interval, from `10 ^ e` down over the given number
of grids. -/
def Binary.search (x : Binary) (e : Int) : Nat → Option Decimal
  | 0 => none
  | grids + 1 =>
    match x.onGrid? e with
    | some d => some d
    | none => x.search (e - 1) grids

/-- The exact decimal value of a number, for which the grid of its last binary place suffices. -/
def Binary.exact (x : Binary) : Decimal :=
  if 0 ≤ x.exponent then ⟨x.mantissa * twos x.exponent, 0⟩
  else ⟨x.mantissa * Nat.pow 5 (-x.exponent).toNat, x.exponent⟩

/-- The decimal with the fewest digits in the number's interval, the nearest of those. Every number
of the format has a point on a grid between `10 ^ 308` and `10 ^ (-324)`. -/
def Binary.shortest (x : Binary) : Decimal :=
  (x.search 308 633).getD x.exact

end Decimal

end CallGraph
