import CallGraph.Decimal.Shortest

/-!
# Decimal notation

How a floating-point number is written in a message.

* `Style`: which exponents are written with the point in place.
* `Style.write`: a decimal in a style.
* `written`: the shortest decimal of a number in the style of the messages.
-/

namespace CallGraph.Decimal

/-- The decimal exponents, of the leading digit, that are written with a point in place; all others
are written with an exponent. -/
structure Style where
  least : Int
  greatest : Int

/-- Messages write a leading digit from the fifth place behind the point to the sixteenth place
before it in position. -/
def messageStyle : Style := ⟨-5, 15⟩

/-- Digits around the point: `before` digits of the text stand before it and at least one behind. -/
def positional (digits : List Char) (before : Int) : String :=
  if before ≤ 0 then
    "0." ++ String.ofList (List.replicate (-before).toNat '0' ++ digits)
  else
    let whole := digits.take before.toNat
    let fraction := digits.drop before.toNat
    String.ofList (whole ++ List.replicate (before.toNat - whole.length) '0') ++ "."
      ++ (if fraction = [] then "0" else String.ofList fraction)

/-- The sign of an exponent is always written. -/
def signedExponent (e : Int) : String :=
  (if e < 0 then "-" else "+") ++ toString e.natAbs

/-- One digit, the others behind a point if there are any, and the exponent of the first. -/
def scientific (digits : List Char) (leading : Int) : String :=
  String.ofList (digits.take 1)
    ++ (if digits.drop 1 = [] then "" else "." ++ String.ofList (digits.drop 1))
    ++ "e" ++ signedExponent leading

/-- A decimal in a style; the digits are taken to have no zero at their end. -/
def Style.write (style : Style) (d : Decimal) : String :=
  let digits := Nat.toDigits 10 d.digits
  let leading := d.exponent + (digits.length : Int) - 1
  if style.least ≤ leading ∧ leading ≤ style.greatest then positional digits (leading + 1)
  else scientific digits leading

/-- The sign of a number counts for zero too. -/
def isNegative (x : Float) : Bool := x.toBits >>> 63 = 1

/-- A finite number as the messages write it: its sign, and the shortest decimal that reads back. -/
def written (x : Float) : String :=
  (if isNegative x then "-" else "")
    ++ match Binary.ofFloat? x with
      | some parts => messageStyle.write parts.shortest
      | none => "0.0"

end CallGraph.Decimal
