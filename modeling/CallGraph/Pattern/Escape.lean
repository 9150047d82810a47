import CallGraph.Pattern.Modes

/-!
# Escapes in a pattern

What a backslash in a pattern and the characters behind it stand for.

* `Escaped`: what they stand for, and when modes allow for it (`Escaped.isAllowed`).
* `escaped?`: the reading of the characters behind a backslash.
-/

namespace CallGraph.Pattern

/-! ### What escapes stand for -/

/-- What a backslash and the characters behind it stand for: a character, perhaps by the number of a
byte, a class of letters or its complement, a boundary of words, or one of the ends of a text. -/
inductive Escaped where
  | char (c : Char) (byte : Bool)
  | letters (complement : Bool)
  | boundary
  | place
  deriving DecidableEq, Repr

/-- Whether modes allow for it. Letters and words are known for ASCII alone, and no byte that is not
a character of its own can be matched. -/
def Escaped.isAllowed (modes : Modes) : Escaped → Bool
  | .char c byte => modes.readsLetters && !(modes.ascii && byte && 0x80 ≤ c.toNat)
  | .letters complement => modes.ascii && !complement
  | .boundary => modes.ascii
  | .place => true

/-! ### Characters by number -/

/-- The value of a hexadecimal digit. -/
def hexValue? (c : Char) : Option Nat :=
  if c.isDigit then some (c.toNat - '0'.toNat)
  else if 'a' ≤ c.toLower ∧ c.toLower ≤ 'f' then some (c.toLower.toNat - 'a'.toNat + 10)
  else none

/-- The number that a count of hexadecimal digits makes behind another one, and what is behind
them. -/
def hexNumber? (modes : Modes) : (count n : Nat) → List Char → Option (Nat × List Char)
  | 0, n, text => some (n, modes.skip text)
  | count + 1, n, text =>
    match modes.skip text with
    | [] => none
    | c :: rest => do hexNumber? modes count (16 * n + (← hexValue? c)) rest

/-- The character whose number is written in a count of hexadecimal digits, where two are the number
of a byte. -/
def numbered? (modes : Modes) (count : Nat) (text : List Char) :
    Option (Escaped × List Char) := do
  let (n, rest) ← hexNumber? modes count 0 text
  if n.isValidChar then return (.char (Char.ofNat n) (count = 2), rest) else none

/-! ### Escapes as text -/

/-- What the characters behind a backslash stand for, and what is behind them. Signs stand for
themselves. -/
def escaped? (modes : Modes) : List Char → Option (Escaped × List Char)
  | [] => none
  | c :: rest =>
    match c with
    | 'a' => some (.char '\x07' false, rest)
    | 'f' => some (.char '\x0c' false, rest)
    | 'n' => some (.char '\n' false, rest)
    | 'r' => some (.char '\r' false, rest)
    | 't' => some (.char '\t' false, rest)
    | 'v' => some (.char '\x0b' false, rest)
    | 'A' | 'z' => some (.place, rest)
    | 'b' | 'B' | '<' | '>' => some (.boundary, rest)
    | 'd' | 's' | 'w' => some (.letters false, rest)
    | 'D' | 'S' | 'W' => some (.letters true, rest)
    | 'x' => numbered? modes 2 rest
    | 'u' => numbered? modes 4 rest
    | 'U' => numbered? modes 8 rest
    | c => if c.isAlphanum || 0x80 ≤ c.toNat then none else some (.char c false, rest)

end CallGraph.Pattern
