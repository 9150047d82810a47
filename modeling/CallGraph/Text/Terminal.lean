/-!
# Terminal control sequences

What is left of a text when everything is taken out that a terminal would obey instead of showing.

* `Mode`: the kind of control sequence that is open.
* `Mode.after`: the mode behind a character.
* `Mode.shows`: whether a character is shown in a mode.
* `plain`: the text that is shown.
-/

namespace CallGraph.Text

/-! ### Modes -/

/-- The kind of control sequence that is open: none, an escape sequence without and with
intermediate characters, a control sequence with parameters, the three parts of the head of a
device string, a string up to its terminator, and a title up to the bell. -/
inductive Mode where
  | ground
  | escape
  | intermediate
  | control
  | device
  | deviceParameter
  | deviceIntermediate
  | string
  | title
  deriving DecidableEq, Repr

/-- Whether the number of a character is in a range. -/
def within (low high : Nat) (c : Char) : Bool := low ≤ c.toNat && c.toNat ≤ high

/-- A string ends at the byte of its terminator, also inside the encoding of another character. -/
def endsString (c : Char) : Bool := (String.utf8EncodeChar c).contains 0x9C

/-- The mode an escape sequence goes on in behind its first character. -/
def modeOfEscape (c : Char) : Mode :=
  match c with
  | '[' => .control
  | ']' => .title
  | 'P' => .device
  | 'X' | '^' | '_' => .string
  | c =>
    if within 0x20 0x2F c then .intermediate
    else if within 0x30 0x7E c then .ground
    else .escape

/-- The mode behind a character. Escape begins anew in every mode, and two controls cancel what is
open. -/
def Mode.after (m : Mode) (c : Char) : Mode :=
  if c = '\x1b' then .escape
  else if c = '\x18' ∨ c = '\x1a' then .ground
  else
    match m with
    | .ground => .ground
    | .escape => modeOfEscape c
    | .intermediate => if within 0x30 0x7E c then .ground else .intermediate
    | .control => if within 0x40 0x7E c then .ground else .control
    | .device =>
      if within 0x20 0x2F c then .deviceIntermediate
      else if within 0x30 0x3F c then .deviceParameter
      else if within 0x40 0x7E c then .string
      else .device
    | .deviceParameter =>
      if within 0x20 0x2F c then .deviceIntermediate
      else if within 0x3C 0x7E c then .string
      else .deviceParameter
    | .deviceIntermediate => if within 0x30 0x7E c then .string else .deviceIntermediate
    | .string => if endsString c then .ground else .string
    | .title => if c = '\x07' then .ground else .title

/-! ### What is shown -/

/-- The controls that separate words and lines. -/
def isBreak (c : Char) : Bool := c = '\t' || c = '\n' || c = '\x0c' || c = '\r'

/-- What is shown outside of control sequences: breaks, and all that is no control character of
ASCII. -/
def isShown (c : Char) : Bool := isBreak c || (0x20 ≤ c.toNat && c.toNat ≠ 0x7F)

/-- Breaks are shown inside the shorter sequences too. -/
def Mode.shows : Mode → Char → Bool
  | .ground, c => isShown c
  | .escape, c | .intermediate, c | .control, c => isBreak c
  | .device, _ | .deviceParameter, _ | .deviceIntermediate, _ | .string, _ | .title, _ => false

/-- The characters that are shown. Behind a shown one, others are shown up to the first that would
not be outside of sequences, even if the break of a sequence came before; the mode is kept
meanwhile, but for a character beyond ASCII, which is always outside. -/
def plainChars : Mode → Bool → List Char → List Char
  | _, _, [] => []
  | m, showing, c :: rest =>
    if (showing && isShown c) || m.shows c then
      c :: plainChars (if c.toNat < 0x80 then m else .ground) true rest
    else plainChars (m.after c) false rest

/-- The text that is shown. -/
def plain (text : String) : String := String.ofList (plainChars .ground false text.toList)

end CallGraph.Text
