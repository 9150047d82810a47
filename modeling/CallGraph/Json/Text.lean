import CallGraph.Json.Reader

/-!
# Quoted texts

The characters between two double quotes, with their escapes.

* `hexNumber?`: the number of hexadecimal digits.
* `readEscape`: the character behind a backslash, where two numbered escapes may make up one
  character.
* `readText`: a text behind its opening quote, decoded.
* `skipText`: the same text passed over, with its numbered escapes unpaired.
-/

namespace CallGraph.Json

open Reader

/-! ### Escapes -/

/-- The value of a hexadecimal digit of either case. -/
def hexValue? (c : Char) : Option Nat :=
  if c.isDigit then some (c.toNat - '0'.toNat)
  else if 'a' ≤ c ∧ c ≤ 'f' then some (c.toNat - 'a'.toNat + 10)
  else if 'A' ≤ c ∧ c ≤ 'F' then some (c.toNat - 'A'.toNat + 10)
  else none

/-- The number of hexadecimal digits behind the digits of `n`. -/
def hexNumber? (n : Nat) : List Char → Option Nat
  | [] => some n
  | c :: digits => do hexNumber? (16 * n + (← hexValue? c)) digits

/-- The fault where four hexadecimal digits should stand: the text ends within four bytes, or the
escape is invalid behind them. -/
def notHex (text : List Char) : Fault :=
  if Text.byteCount (text.take 4) < 4 then ⟨.endInString, [], 0⟩ else ⟨.invalidEscape, text, 4⟩

/-- Four hexadecimal digits. -/
def readHex : Reader Nat := fun text =>
  if (text.take 4).length = 4 then
    match hexNumber? 0 (text.take 4) with
    | some n => .ok ⟨n, text.drop 4, List.drop_suffix 4 text⟩
    | none => .error (notHex text)
  else .error (notHex text)

/-- The character a letter behind a backslash stands for. -/
def shortEscape? : Char → Option Char
  | '"' => some '"'
  | '\\' => some '\\'
  | '/' => some '/'
  | 'b' => some '\x08'
  | 'f' => some '\x0c'
  | 'n' => some '\n'
  | 'r' => some '\r'
  | 't' => some '\t'
  | _ => none

/-- Numbers of the first halves of pairs. -/
def isFirstHalf (n : Nat) : Bool := 0xD800 ≤ n && n < 0xDC00

/-- Numbers of the second halves of pairs. -/
def isSecondHalf (n : Nat) : Bool := 0xDC00 ≤ n && n < 0xE000

/-- The character of a pair of halves. -/
def pairChar (first second : Nat) : Char :=
  Char.ofNat (0x10000 + (first - 0xD800) * 0x400 + (second - 0xDC00))

/-- A character that has to follow the first half of a pair. -/
def expectInPair (expected : Char) : Reader Unit := do
  match ← next? with
  | none => fail .endInString
  | some c => if c = expected then pure () else refuse c .unfinishedPair

/-- A character by its number, or by the numbers of two halves. -/
def readNumbered : Reader Char := do
  let n ← readHex
  if isSecondHalf n then fail .loneSurrogate
  else if isFirstHalf n then do
    expectInPair '\\'
    expectInPair 'u'
    let m ← readHex
    if isSecondHalf m then pure (pairChar n m) else fail .loneSurrogate
  else pure (Char.ofNat n)

/-- The character an escape stands for, behind its backslash. -/
def readEscape : Reader Char := do
  match ← next? with
  | none => fail .endInString
  | some c =>
    if c = 'u' then readNumbered
    else
      match shortEscape? c with
      | some meant => pure meant
      | none => refuse c .invalidEscape

/-- An escape passed over: the halves of pairs may stand alone. -/
def skipEscape : Reader Unit := do
  match ← next? with
  | none => fail .endInString
  | some c =>
    if c = 'u' then do
      let _ ← readHex
    else
      match shortEscape? c with
      | some _ => pure ()
      | none => refuse c .invalidEscape

/-! ### Texts -/

/-- Control characters have to be escaped. -/
def isControl (c : Char) : Bool := c.toNat < 0x20

/-- The next character of a text, or its end, given the characters before in reverse. -/
def textStep (before : List Char) (c : Char) : Reader (Turn (List Char) String) :=
  if c = '"' then pure (.done (String.ofList before.reverse))
  else if c = '\\' then do return .again ((← readEscape) :: before)
  else if isControl c then refuse c .controlCharacter
  else pure (.again (c :: before))

/-- A text behind its opening quote, up to its closing one. -/
def readText : Reader String := loop (fun _ => .endInString) textStep []

/-- The next character of a text that is passed over. -/
def skipTextStep (_ : Unit) (c : Char) : Reader (Turn Unit Unit) :=
  if c = '"' then pure (.done ())
  else if c = '\\' then do
    skipEscape
    return .again ()
  else if isControl c then failBefore [c] .controlCharacter
  else pure (.again ())

/-- A text passed over behind its opening quote, up to its closing one. -/
def skipText : Reader Unit := loop (fun _ => .endInString) skipTextStep ()

end CallGraph.Json
