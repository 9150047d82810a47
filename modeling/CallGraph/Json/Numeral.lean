import CallGraph.Json.Reader

/-!
# Numerals

The parts of a JSON number as they are written: a sign, whole digits without a leading zero, and
perhaps a fraction and an exponent.

* `Numeral`: the parts.
* `Numeral.read`: reads the longest numeral from its first character on.
-/

namespace CallGraph.Json

open Reader

/-- The exponent of a numeral; a plus sign is not kept. -/
structure Exponent where
  negative : Bool
  digits : List Char
  deriving DecidableEq, Repr

/-- The parts of a number as they are written. -/
structure Numeral where
  negative : Bool
  whole : List Char
  fraction : Option (List Char)
  exponent : Option Exponent
  deriving DecidableEq, Repr

namespace Numeral

/-- A numeral begins with a digit or a minus sign. -/
def starts (c : Char) : Bool := c = '-' || c.isDigit

/-- The whole digits from the first on: a zero stands alone. -/
def readWhole (first : Char) : Reader (List Char) :=
  if first = '0' then do
    match ← peek? with
    | none => pure [first]
    | some c => if c.isDigit then failNext .invalidNumber else pure [first]
  else if first.isDigit then do
    let digits ← takeWhile Char.isDigit
    pure (first :: digits)
  else refuse first .invalidNumber

/-- The digits behind a point, if there is a point; `atEnd` is the fault where none follows it at
the end of the text. -/
def readFraction (atEnd : Cause) : Reader (Option (List Char)) := do
  match ← nextIf? (· = '.') with
  | none => pure none
  | some _ =>
    match ← takeWhile Char.isDigit with
    | digit :: digits => pure (some (digit :: digits))
    | [] =>
      match ← peek? with
      | none => fail atEnd
      | some _ => failNext .invalidNumber

/-- The sign and digits behind the letter of an exponent, if there is one. -/
def readExponent (atEnd : Cause) : Reader (Option Exponent) := do
  match ← nextIf? fun c => c = 'e' || c = 'E' with
  | none => pure none
  | some _ =>
    let sign ← nextIf? fun c => c = '+' || c = '-'
    match ← next? with
    | none => fail atEnd
    | some c =>
      if c.isDigit then do
        let digits ← takeWhile Char.isDigit
        pure (some ⟨sign = some '-', c :: digits⟩)
      else refuse c .invalidNumber

/-- The whole digits with the sign before them. -/
def readSigned (atEnd : Cause) (first : Char) : Reader (Bool × List Char) :=
  if first = '-' then do
    match ← next? with
    | none => fail atEnd
    | some c => return (true, ← readWhole c)
  else return (false, ← readWhole first)

/-- A numeral from its first character on. A text that ends in the middle of one is at fault for
the given cause. -/
def read (atEnd : Cause) (first : Char) : Reader Numeral := do
  let (negative, whole) ← readSigned atEnd first
  let fraction ← readFraction atEnd
  let exponent ← readExponent atEnd
  return ⟨negative, whole, fraction, exponent⟩

end Numeral

end CallGraph.Json
