import CallGraph.Decimal.Notation
import CallGraph.Text.Bytes
import CallGraph.Text.Visible

/-!
# Faults of a JSON text

Why a text is not the document it should be, and where.

* `Bracket`: the two kinds of bracketed values.
* `Found`: what stands in the place of a value of another type.
* `Cause`: why reading stops, with its wording (`Cause.message`) and class (`Cause.category`).
* `Fault`: a cause at the unread end of the text.
* `Position`: a line and a column; `Position.after` counts the bytes of the text up to it.
* `Rejection`: a cause with its position in the whole text.
-/

namespace CallGraph.Json

/-! ### Brackets -/

/-- Lists stand in square brackets, objects in curly ones. -/
inductive Bracket where
  | square
  | curly
  deriving DecidableEq, Repr

/-- The character that begins what stands in the bracket. -/
def Bracket.opener : Bracket → Char
  | .square => '['
  | .curly => '\x7b'

/-- The character that ends what the bracket begins. -/
def Bracket.closer : Bracket → Char
  | .square => ']'
  | .curly => '\x7d'

/-! ### Causes -/

/-- What stands where a value of another type is expected. -/
inductive Found where
  | null
  | boolean (value : Bool)
  | integer (value : Int)
  | real (value : Float)
  | text (value : String)
  | sequence
  | map

/-- A value in the words of a message, with the values that have a text of their own in quotes. -/
def Found.message : Found → String
  | .null => "null"
  | .boolean value => "boolean `" ++ (if value then "true" else "false") ++ "`"
  | .integer value => "integer `" ++ toString value ++ "`"
  | .real value => "floating point `" ++ Decimal.written value ++ "`"
  | .text value => "string " ++ Text.visible value
  | .sequence => "sequence"
  | .map => "map"

/-- Why reading stops. -/
inductive Cause where
  | endInList
  | endInObject
  | endInString
  | endInValue
  | expectedColon
  | expectedCommaOr (bracket : Bracket)
  | expectedIdent
  | expectedValue
  | keyMustBeString
  | trailingComma
  | trailingCharacters
  | controlCharacter
  | invalidEscape
  | loneSurrogate
  | unfinishedPair
  | invalidNumber
  | numberOutOfRange
  | invalidType (found : Found) (expected : String)
  | invalidValue (found : Found) (expected : String)
  | duplicateField (name : String)

/-- A text can end too early, break the grammar, or hold the wrong content. -/
inductive Category where
  | truncated
  | grammar
  | content
  deriving DecidableEq, Repr

/-- The four causes at the end of the text are truncation, the three about values and fields are
content, and the others are grammar. -/
def Cause.category : Cause → Category
  | .endInList | .endInObject | .endInString | .endInValue => .truncated
  | .invalidType .. | .invalidValue .. | .duplicateField .. => .content
  | _ => .grammar

/-- The wording of a cause. -/
def Cause.message : Cause → String
  | .endInList => "EOF while parsing a list"
  | .endInObject => "EOF while parsing an object"
  | .endInString => "EOF while parsing a string"
  | .endInValue => "EOF while parsing a value"
  | .expectedColon => "expected `:`"
  | .expectedCommaOr bracket => "expected `,` or `" ++ String.singleton bracket.closer ++ "`"
  | .expectedIdent => "expected ident"
  | .expectedValue => "expected value"
  | .keyMustBeString => "key must be a string"
  | .trailingComma => "trailing comma"
  | .trailingCharacters => "trailing characters"
  | .controlCharacter => "control character (\\u0000-\\u001F) found while parsing a string"
  | .invalidEscape => "invalid escape"
  | .loneSurrogate => "lone leading surrogate in hex escape"
  | .unfinishedPair => "unexpected end of hex escape"
  | .invalidNumber => "invalid number"
  | .numberOutOfRange => "number out of range"
  | .invalidType found expected => "invalid type: " ++ found.message ++ ", expected " ++ expected
  | .invalidValue found expected => "invalid value: " ++ found.message ++ ", expected " ++ expected
  | .duplicateField name => "duplicate field `" ++ name ++ "`"

/-- The end of the text inside a bracket. -/
def Bracket.endInside : Bracket → Cause
  | .square => .endInList
  | .curly => .endInObject

/-! ### Places -/

/-- A cause at the place where it shows: `past` bytes behind the beginning of the unread text. -/
structure Fault where
  cause : Cause
  unread : List Char
  past : Nat

/-- The number of bytes that stand before a fault in a text. -/
def Fault.offset (fault : Fault) (text : List Char) : Nat :=
  Text.byteCount text - Text.byteCount fault.unread + fault.past

/-- A place between two bytes: lines count from one, columns are the bytes since the last line
feed. -/
structure Position where
  line : Nat
  column : Nat
  deriving DecidableEq, Repr

/-- The position that is the given number of bytes of a text further on. -/
def Position.after (start : Position) : List Char → Nat → Position
  | [], _ => start
  | c :: rest, bytes =>
    if bytes = 0 then start
    else if c = '\n' then Position.after ⟨start.line + 1, 0⟩ rest (bytes - 1)
    else
      let step := min bytes c.utf8Size
      Position.after ⟨start.line, start.column + step⟩ rest (bytes - step)

/-- Why and where a text is rejected. -/
structure Rejection where
  cause : Cause
  position : Position

/-- A fault placed in the text it was found in. -/
def Fault.toRejection (fault : Fault) (text : List Char) : Rejection :=
  ⟨fault.cause, Position.after ⟨1, 0⟩ text (fault.offset text)⟩

/-- The wording of a rejection. -/
def Rejection.message (r : Rejection) : String :=
  r.cause.message ++ " at line " ++ toString r.position.line
    ++ " column " ++ toString r.position.column

end CallGraph.Json
