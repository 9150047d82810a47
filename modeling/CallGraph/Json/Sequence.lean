import CallGraph.Json.Reader

/-!
# Bracketed sequences

Items between two brackets, with commas between them and none behind the last.

* `Bracket.first`: whether there is an item at all.
* `Bracket.following`: whether there is another item, with `Bracket.separated` on the character
  behind the last.
* `Bracket.fold`: all items, each changing a state.
* `readList`: the values of all items.
-/

namespace CallGraph.Json

open Reader

/-- Whether an item follows the opening bracket; if none does, the closing bracket is taken. -/
def Bracket.first (bracket : Bracket) : Reader Bool := do
  blanks
  match ← peek? with
  | none => fail bracket.endInside
  | some c =>
    if c = bracket.closer then do
      let _ ← next?
      return false
    else return true

/-- Whether the character behind an item, which is no blank, lets another one follow. A comma does,
unless the closing bracket or nothing comes behind it. -/
def Bracket.separated (bracket : Bracket) (c : Char) : Reader Bool :=
  if c = bracket.closer then pure false
  else if c = ',' then do
    blanks
    match ← peek? with
    | none => fail .endInValue
    | some next => if next = bracket.closer then failNext .trailingComma else pure true
  else refuse c (.expectedCommaOr bracket)

/-- Whether another item follows an item; if none does, the closing bracket is taken. -/
def Bracket.following (bracket : Bracket) : Reader Bool := do
  blanks
  match ← next? with
  | none => fail bracket.endInside
  | some c => bracket.separated c

variable {σ α : Type}

/-- The rest of a sequence behind an item, from a character on. -/
def Bracket.foldStep (bracket : Bracket) (item : σ → Reader σ) (state : σ) (c : Char) :
    Reader (Turn σ σ) :=
  if isBlank c then pure (.again state)
  else do
    if ← bracket.separated c then return .again (← item state) else return .done state

/-- All items of a sequence behind its opening bracket, each changing the state, and the closing
bracket. -/
def Bracket.fold (bracket : Bracket) (item : σ → Reader σ) (state : σ) : Reader σ := do
  if ← bracket.first then
    let state ← item state
    loop (fun _ => bracket.endInside) (bracket.foldStep item) state
  else return state

/-- The items of a list behind its opening bracket, in order. -/
def readList (item : Reader α) : Reader (List α) := do
  let reversed ← Bracket.square.fold (fun before => return (← item) :: before) []
  return reversed.reverse

end CallGraph.Json
