import CallGraph.Event

/-!
# Directives

Rules on the level up to which events are shown.

* `Scope`: which events of its targets a directive is about.
* `Directive`: a rule as data.
* `Directive.applies`, `Directive.allows`: what a directive says of an event.
* `Directive.isAtMost`: which of two directives is the more specific.
-/

namespace CallGraph

/-! ### Scopes -/

/-- What a directive is about: all events of its targets, those with a field of a name, or what
happens inside of spans, which no event does. -/
inductive Scope where
  | events
  | eventsWith (field : String)
  | spans
  deriving DecidableEq, Repr

/-- Whether a scope has an event in it. -/
def Scope.covers (scope : Scope) (event : Event) : Bool :=
  match scope with
  | .events => true
  | .eventsWith field => event.names.contains field
  | .spans => false

/-- Whether a scope is at most as specific as another: one that asks for a field comes behind one
that does not, and among those the order of the names decides. -/
def Scope.isAtMost : Scope → Scope → Bool
  | .eventsWith field, .eventsWith other => field ≤ other
  | .eventsWith _, _ => false
  | _, _ => true

/-! ### Directives as data -/

/-- The events of a scope whose targets begin with a text are shown up to a level, or not at
all. -/
structure Directive where
  target : List Char
  scope : Scope
  limit : Option Level
  deriving DecidableEq, Repr

namespace Directive

/-- Whether a directive applies to an event. -/
def applies (directive : Directive) (event : Event) : Bool :=
  directive.target.isPrefixOf event.target.toList && directive.scope.covers event

/-- Whether a level is within the limit of a directive. -/
def allows (directive : Directive) (level : Level) : Bool :=
  match directive.limit with
  | none => false
  | some limit => level.rank ≤ limit.rank

/-- Whether a directive is at most as specific as another, the length of the target deciding before
the scope. -/
def isAtMost (directive other : Directive) : Bool :=
  directive.target.length < other.target.length
    || (directive.target.length = other.target.length && directive.scope.isAtMost other.scope)

end Directive

end CallGraph
