import CallGraph.Pattern.Modes

/-!
# Groups in a pattern

How groups in brackets begin.

* `isGroupName`: the names groups can have.
* `GroupHead`: the beginnings of groups.
* `groupHead?`: the reading of a beginning behind its bracket.
-/

namespace CallGraph.Pattern

/-- Whether a group can have a name. -/
def isGroupName : List Char → Bool
  | [] => false
  | c :: rest =>
    (c = '_' || Text.isAlphabetic c)
      && rest.all fun c => ['_', '.', '[', ']'].contains c || Text.isAlphanumeric c

/-- The beginning of a group: a group proper, perhaps with a name, or marks that hold from there
on. -/
inductive GroupHead where
  | opened (name : Option (List Char))
  | marked
  deriving DecidableEq, Repr

/-- The beginning of a group whose bracket was read, the modes from there on, and what is behind
it. -/
def groupHead? (modes : Modes) (text : List Char) : Option (GroupHead × Modes × List Char) :=
  match modes.skip text with
  | '?' :: 'P' :: '<' :: rest | '?' :: '<' :: rest =>
    let name := rest.takeWhile (· ≠ '>')
    match rest.drop name.length with
    | _ :: rest => if isGroupName name then some (.opened (some name), modes, rest) else none
    | [] => none
  | '?' :: rest => do
    let marks := rest.takeWhile fun c => c ≠ ':' && c ≠ ')'
    let marked ← modes.marked? marks
    match rest.drop marks.length with
    | ':' :: rest => return (.opened none, marked, rest)
    | ')' :: rest => if marks = [] then none else return (.marked, marked, rest)
    | _ => none
  | rest => some (.opened none, modes, rest)

end CallGraph.Pattern
