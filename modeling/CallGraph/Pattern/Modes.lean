import CallGraph.Text.Properties

/-!
# Modes of a pattern

How the characters of a pattern are read.

* `Modes`: the modes.
* `Modes.marked?`: the modes behind marks that set them and take them back.
* `Modes.skip`, `Modes.peek?`: a text behind blanks and comments where there can be some.
-/

namespace CallGraph.Pattern

/-! ### Modes and marks -/

/-- How the characters of a pattern are read: with letters of either case, with ASCII characters
alone, with blanks and comments between them. -/
structure Modes where
  folds : Bool := false
  ascii : Bool := false
  spaced : Bool := false
  deriving DecidableEq, Repr

namespace Modes

/-- The mode a mark stands for set to a value; the other marks matter only for what is matched. -/
def mark (modes : Modes) (value : Bool) : Char → Modes
  | 'i' => { modes with folds := value }
  | 'u' => { modes with ascii := !value }
  | 'x' => { modes with spaced := value }
  | _ => modes

/-- The modes behind marks, the ones behind a dash being taken back. Each mark stands there once,
and one must stand behind the dash. -/
def marked? (modes : Modes) (marks : List Char) : Option Modes :=
  let given := marks.takeWhile (· ≠ '-')
  if marks.Nodup ∧ marks.all ("imsUuxR-".toList.contains ·) ∧ marks.getLast? ≠ some '-' then
    some ((marks.drop given.length).foldl (·.mark false) (given.foldl (·.mark true) modes))
  else none

/-- Whether letters can be read: both cases of a letter are known for those of ASCII alone. -/
def readsLetters (modes : Modes) : Bool := modes.ascii || !modes.folds

/-! ### Blanks and comments -/

/-- What is behind blanks and behind comments, which go from a number sign to the end of a line. The
first argument tells whether a comment is open. -/
def behindSpace : Bool → List Char → List Char
  | _, [] => []
  | true, c :: rest => behindSpace (c ≠ '\n') rest
  | false, c :: rest =>
    if c = '#' || Text.isBlank c then behindSpace (c = '#') rest else c :: rest

/-- What is behind the blanks and comments of a text where there can be some. -/
def skip (modes : Modes) (text : List Char) : List Char :=
  if modes.spaced then behindSpace false text else text

/-- The first character that is no blank, one number sign being passed over too. -/
def firstSolid? : (passed : Bool) → List Char → Option Char
  | _, [] => none
  | passed, c :: rest =>
    if Text.isBlank c then firstSolid? passed rest
    else if c = '#' && !passed then firstSolid? true rest
    else some c

/-- The character that a text is taken to go on with. Inside a comment that is its own first
character. -/
def peek? (modes : Modes) (text : List Char) : Option Char :=
  if modes.spaced then firstSolid? false text else text.head?

end Modes

end CallGraph.Pattern
