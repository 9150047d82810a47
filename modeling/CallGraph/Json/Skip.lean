import CallGraph.Json.Numeral
import CallGraph.Json.Text

/-!
# Values passed over

A value nobody asked for is checked and dropped. It may nest to any depth: the open brackets are a
list in the state of one loop, not calls inside calls.

* `Pending`: what has to come next.
* `skipStep`: one character of the value, with what belongs to it.
* `skipValue`: the whole value.
-/

namespace CallGraph.Json

open Reader

/-- The colon behind a key. -/
def readColon : Reader Unit := do
  blanks
  match ← peek? with
  | none => fail .endInObject
  | some c =>
    if c = ':' then do
      let _ ← next?
    else failNext .expectedColon

/-- What has to come next in a value whose open brackets are listed from the inside out. -/
inductive Pending where
  | value (enclosing : List Bracket)
  | separator (inner : Bracket) (enclosing : List Bracket)
  deriving DecidableEq, Repr

/-- The fault at the end of the text. -/
def Pending.atEnd : Pending → Cause
  | .value _ => .endInValue
  | .separator inner _ => inner.endInside

/-- Behind a value comes what separates it from the next in the innermost open bracket, or nothing
if no bracket is open. -/
def Pending.afterValue : List Bracket → Turn Pending Unit
  | [] => .done ()
  | inner :: enclosing => .again (.separator inner enclosing)

/-- What stands before an item's value: a key and a colon in an object, nothing in a list. -/
def Bracket.skipKey : Bracket → Reader Unit
  | .square => pure ()
  | .curly => do
    blanks
    match ← peek? with
    | none => fail .endInObject
    | some c =>
      if c = '"' then do
        let _ ← next?
        skipText
        readColon
      else failNext .keyMustBeString

/-- The front of a bracketed value behind its opening bracket, up to where its first item's value
or what follows the whole value is pending. -/
def Bracket.skipOpen (bracket : Bracket) (enclosing : List Bracket) :
    Reader (Turn Pending Unit) := do
  blanks
  match ← peek? with
  | none => fail bracket.endInside
  | some c =>
    if c = bracket.closer then do
      let _ ← next?
      return Pending.afterValue enclosing
    else do
      bracket.skipKey
      return .again (.value (bracket :: enclosing))

/-- The front of a value from its first character on. -/
def skipStart (enclosing : List Bracket) (c : Char) : Reader (Turn Pending Unit) :=
  if c = '"' then do
    skipText
    return Pending.afterValue enclosing
  else if c = Bracket.square.opener then Bracket.square.skipOpen enclosing
  else if c = Bracket.curly.opener then Bracket.curly.skipOpen enclosing
  else if Numeral.starts c then do
    let _ ← Numeral.read .invalidNumber c
    return Pending.afterValue enclosing
  else if c = 'n' then do
    nullRest
    return Pending.afterValue enclosing
  else if c = 't' then do
    trueRest
    return Pending.afterValue enclosing
  else if c = 'f' then do
    falseRest
    return Pending.afterValue enclosing
  else refuse c .expectedValue

/-- One character of a value, with what belongs to it. -/
def skipStep : Pending → Char → Reader (Turn Pending Unit)
  | .value enclosing, c =>
    if isBlank c then pure (.again (.value enclosing)) else skipStart enclosing c
  | .separator inner enclosing, c =>
    if isBlank c then pure (.again (.separator inner enclosing))
    else if c = inner.closer then pure (Pending.afterValue enclosing)
    else if c = ',' then do
      inner.skipKey
      return .again (.value (inner :: enclosing))
    else refuse c (.expectedCommaOr inner)

/-- A value of any kind and depth, passed over. -/
def skipValue : Reader Unit := loop Pending.atEnd skipStep (.value [])

end CallGraph.Json
