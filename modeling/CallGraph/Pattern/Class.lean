import CallGraph.Pattern.Escape

/-!
# Classes in a pattern

Sets of characters in brackets, which may have others in them and be joined by operators.

* `nesting`: how deep parts beside each other are nested.
* `ClassLevel`: what was read of a class.
* `behindClass?`: the reading of a class behind its bracket.
-/

namespace CallGraph.Pattern

/-! ### Nesting -/

/-- How deep parts beside each other are nested: one deeper than the deepest of them, or as deep as
the only one. -/
def nesting : List Nat → Nat
  | [] => 0
  | [depth] => depth
  | depths => depths.foldl max 0 + 1

/-- What was read of a class: the depths of the members since the last operator, and how deep
everything before it is nested. -/
structure ClassLevel where
  members : List Nat := []
  before : Option Nat := none
  deriving DecidableEq, Repr

namespace ClassLevel

/-- A member more. -/
def add (level : ClassLevel) (depth : Nat) : ClassLevel :=
  { level with members := depth :: level.members }

/-- How deep everything is nested. An operator joins what is before it with what is behind it. -/
def depth (level : ClassLevel) : Nat :=
  match level.before with
  | none => nesting level.members
  | some before => max before (nesting level.members) + 1

/-- An operator. -/
def operate (level : ClassLevel) : ClassLevel := ⟨[], some level.depth⟩

end ClassLevel

/-! ### Members -/

/-- The classes with names. -/
def namedClasses : List String :=
  ["alnum", "alpha", "ascii", "blank", "cntrl", "digit", "graph", "lower", "print", "punct",
    "space", "upper", "word", "xdigit"]

/-- Whether a named class whose bracket was read is a complement, and what is behind it. -/
def behindNamed? (text : List Char) : Option (Bool × List Char) :=
  namedClasses.findSome? fun name =>
    let ending := name.toList ++ [':', ']']
    let behind (rest : List Char) :=
      if ending.isPrefixOf rest then some (rest.drop ending.length) else none
    match text with
    | ':' :: '^' :: rest => (behind rest).map ((true, ·))
    | ':' :: rest => (behind rest).map ((false, ·))
    | _ => none

/-- A member of a class, and what is behind it. With ASCII alone it can be nothing else. -/
def member? (modes : Modes) (text : List Char) : Option (Escaped × List Char) := do
  let (member, rest) ←
    match text with
    | [] => none
    | '\\' :: rest => escaped? modes rest
    | c :: rest => some (.char c false, rest)
  if !member.isAllowed modes then none
  match member with
  | .char c _ => if modes.ascii && 0x80 ≤ c.toNat then none else return (member, modes.skip rest)
  | .letters _ => return (member, modes.skip rest)
  | .boundary | .place => none

/-- What is behind a member or a range of members, the ends of which must be characters in order. -/
def behindMembers? (modes : Modes) (text : List Char) : Option (List Char) := do
  let (first, rest) ← member? modes text
  match rest with
  | '-' :: onward =>
    if modes.peek? onward = some ']' || modes.peek? onward = some '-' then return rest
    let (last, rest) ← member? modes (modes.skip onward)
    match first, last with
    | .char first _, .char last _ => if first ≤ last then return rest else none
    | _, _ => none
  | _ => return rest

/-! ### Classes -/

/-- What is behind dashes, each of which is a member. Here and below the fuel is enough when it is
more than there are characters. -/
def behindDashes (modes : Modes) : (fuel : Nat) → ClassLevel → List Char → ClassLevel × List Char
  | fuel + 1, level, '-' :: rest => behindDashes modes fuel (level.add 0) (modes.skip rest)
  | _, level, text => (level, text)

/-- The start of a class whose bracket was read, and what is behind it: the mark of a complement,
dashes that stand for themselves, and without those a bracket that does. A complement has characters
beyond ASCII, and no member can be read where no letter can. -/
def classStart? (modes : Modes) (fuel : Nat) (text : List Char) :
    Option (ClassLevel × List Char) := do
  let text ←
    match modes.skip text with
    | '^' :: rest => if modes.ascii then none else some (modes.skip rest)
    | rest => some rest
  let (level, rest) :=
    match text with
    | ']' :: rest => (({} : ClassLevel).add 0, modes.skip rest)
    | text => behindDashes modes fuel {} text
  if level.members = [] || modes.readsLetters then return (level, rest) else none

/-- How deep a class with others around it is nested, and what is behind the outermost. -/
def behindClasses? (modes : Modes) : (fuel : Nat) → (around : List ClassLevel) → ClassLevel →
    List Char → Option (Nat × List Char)
  | 0, _, _, _ => none
  | fuel + 1, around, level, text =>
    match modes.skip text with
    | [] => none
    | '[' :: rest =>
      match behindNamed? rest with
      | some (complement, rest) =>
        if !modes.readsLetters || (modes.ascii && complement) then none
        else behindClasses? modes fuel around (level.add 0) rest
      | none => do
        let (inside, rest) ← classStart? modes fuel rest
        behindClasses? modes fuel (level :: around) inside rest
    | ']' :: rest =>
      match around with
      | [] => some (level.depth + 1, rest)
      | outer :: around => behindClasses? modes fuel around (outer.add (level.depth + 1)) rest
    | '&' :: '&' :: rest | '-' :: '-' :: rest | '~' :: '~' :: rest =>
      behindClasses? modes fuel around level.operate rest
    | text => do behindClasses? modes fuel around (level.add 0) (← behindMembers? modes text)

/-- How deep a class whose bracket was read is nested, and what is behind it. -/
def behindClass? (modes : Modes) (fuel : Nat) (text : List Char) :
    Option (Nat × List Char) := do
  let (level, rest) ← classStart? modes fuel text
  behindClasses? modes fuel [] level rest

end CallGraph.Pattern
