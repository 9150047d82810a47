import CallGraph.Pattern.Class
import CallGraph.Pattern.Group

/-!
# Patterns

Texts that the value of a field can be asked to match: numbers, and patterns of characters, classes,
groups, choices and repetitions. Only their form matters here, for they are matched inside of spans.

* `isNumber`: whether a text is a number.
* `Level`: what was read of a group.
* `isPattern`: whether a text is a pattern.
* `isMatchable`: whether the value of a field can be asked to match a text.
-/

namespace CallGraph.Pattern

/-! ### Numbers -/

/-- Whether a text is nothing or an exponent. -/
def isExponent : List Char → Bool
  | [] => true
  | c :: rest =>
    let digits :=
      match rest with
      | '+' :: digits | '-' :: digits => digits
      | digits => digits
    (c = 'e' || c = 'E') && digits ≠ [] && digits.all Char.isDigit

/-- Whether a text is a number without a sign: digits with a point before, between or behind them
and perhaps an exponent, or one of three words. -/
def isNumber (text : List Char) : Bool :=
  let whole := text.takeWhile Char.isDigit
  match text.dropWhile Char.isDigit with
  | '.' :: rest =>
    (whole ≠ [] || rest.head?.any Char.isDigit) && isExponent (rest.dropWhile Char.isDigit)
  | rest =>
    (whole ≠ [] && isExponent rest)
      || ["inf", "infinity", "nan"].contains (String.ofList (text.map Char.toLower))

/-! ### Levels -/

/-- A part of a pattern: marks, which cannot be repeated, or a piece with the depth it is nested
to. -/
inductive Part where
  | marks
  | piece (depth : Nat)
  deriving DecidableEq, Repr

/-- How deep a part is nested. -/
def Part.depth : Part → Nat
  | .marks => 0
  | .piece depth => depth

/-- What was read of a group: its modes, the parts of the present branch with the last one first,
and the depths of the branches before. -/
structure Level where
  modes : Modes := {}
  parts : List Part := []
  branches : List Nat := []
  deriving DecidableEq, Repr

namespace Level

/-- A piece more. -/
def add (level : Level) (depth : Nat) : Level :=
  { level with parts := .piece depth :: level.parts }

/-- The end of a branch. -/
def branch (level : Level) : Level :=
  { level with parts := [], branches := nesting (level.parts.map Part.depth) :: level.branches }

/-- How deep everything is nested. -/
def depth (level : Level) : Nat := nesting level.branch.branches

/-- The last part repeated, which must be a piece. -/
def repeat? (level : Level) : Option Level :=
  match level.parts with
  | .piece depth :: parts => some { level with parts := .piece (depth + 1) :: parts }
  | _ => none

end Level

/-! ### Patterns -/

/-- How deep a pattern may be nested. -/
def depthLimit : Nat := 250

/-- Whether a pattern is well formed of which a group with others around it was read, given the
names of all groups so far. There are no counts of repetitions. The fuel is enough when there is
more of it than there are characters. -/
def isRest : (fuel : Nat) → (around : List Level) → Level → (names : List (List Char)) →
    List Char → Bool
  | 0, _, _, _, _ => false
  | fuel + 1, around, level, names, text =>
    match level.modes.skip text with
    | [] => around = [] && level.depth ≤ depthLimit
    | '(' :: rest =>
      match groupHead? level.modes rest with
      | none => false
      | some (.marked, modes, rest) =>
        isRest fuel around { level with modes := modes, parts := .marks :: level.parts } names rest
      | some (.opened none, modes, rest) =>
        isRest fuel (level :: around) { modes := modes } names rest
      | some (.opened (some name), modes, rest) =>
        name ∉ names && isRest fuel (level :: around) { modes := modes } (name :: names) rest
    | ')' :: rest =>
      match around with
      | [] => false
      | outer :: around => isRest fuel around (outer.add (level.depth + 1)) names rest
    | '|' :: rest => isRest fuel around level.branch names rest
    | '*' :: rest | '+' :: rest | '?' :: rest =>
      match level.repeat? with
      | none => false
      | some level =>
        isRest fuel around level names (if rest.head? = some '?' then rest.drop 1 else rest)
    | '{' :: _ => false
    | '^' :: rest | '$' :: rest => isRest fuel around (level.add 0) names rest
    | '.' :: rest => !level.modes.ascii && isRest fuel around (level.add 0) names rest
    | '[' :: rest =>
      match behindClass? level.modes fuel rest with
      | none => false
      | some (depth, rest) => isRest fuel around (level.add depth) names rest
    | '\\' :: rest =>
      match escaped? level.modes rest with
      | none => false
      | some (escaped, rest) =>
        escaped.isAllowed level.modes && isRest fuel around (level.add 0) names rest
    | c :: rest =>
      (Escaped.char c false).isAllowed level.modes && isRest fuel around (level.add 0) names rest

/-- Whether a text is a pattern. -/
def isPattern (text : List Char) : Bool := isRest (text.length + 1) [] {} [] text

/-- Whether the value of a field can be asked to match a text. Numbers without a plus sign in front
are patterns as well. -/
def isMatchable (text : List Char) : Bool :=
  match text with
  | '+' :: number => isNumber number
  | text => isPattern text

end CallGraph.Pattern
