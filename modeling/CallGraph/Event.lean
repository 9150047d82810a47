/-!
# Events

What the program tells about its work beside its results.

* `Level`: how much an event matters.
* `Event`: the events, each with its level, target, message and fields.
* `Event.line`: an event as a line of a log.
-/

namespace CallGraph

/-! ### Levels -/

/-- How much an event matters. -/
inductive Level where
  | error
  | warn
  | info
  | debug
  | trace
  deriving DecidableEq, Repr

/-- Levels by how much they let through: errors alone come first. -/
def Level.rank : Level → Nat
  | .error => 1
  | .warn => 2
  | .info => 3
  | .debug => 4
  | .trace => 5

/-- The name of a level, right-aligned in five columns. -/
def Level.column : Level → String
  | .error => "ERROR"
  | .warn => " WARN"
  | .info => " INFO"
  | .debug => "DEBUG"
  | .trace => "TRACE"

/-! ### Events -/

/-- What happened. -/
inductive Event where
  | loaded (path : String) (services classes methods calls chains : Nat)
  | entryUnresolved (methodId classId serviceId : String)
  | nodeSkipped (chainId : String) (level : UInt64) (methodId classId : String)
  | exported (path : String) (statements : Nat)
  deriving DecidableEq, Repr

/-- The value of a field of an event. -/
inductive Event.Value where
  | text (value : String)
  | number (value : Nat)
  deriving DecidableEq, Repr

/-- A value as it stands in a log. -/
def Event.Value.written : Event.Value → String
  | .text value => value
  | .number value => toString value

namespace Event

/-- What is read or written from outside is information, what is left out of a report is for
debugging. -/
def level : Event → Level
  | .loaded .. | .exported .. => .info
  | .entryUnresolved .. | .nodeSkipped .. => .debug

/-- The part of the program an event comes from. -/
def target : Event → String
  | .loaded .. => "callscope::core::loader"
  | .entryUnresolved .. | .nodeSkipped .. => "callscope::formatters::console"
  | .exported .. => "callscope::formatters::cypher"

/-- What happened, in words. -/
def message : Event → String
  | .loaded .. => "Loaded analysis result"
  | .entryUnresolved .. => "Entry point references unknown records"
  | .nodeSkipped .. => "Skipping call path node with unknown records"
  | .exported .. => "Exported Cypher script"

/-- The fields of an event in order. -/
def fields : Event → List (String × Value)
  | .loaded path services classes methods calls chains =>
    [("path", .text path), ("services", .number services), ("classes", .number classes),
      ("methods", .number methods), ("method_calls", .number calls),
      ("call_chains", .number chains)]
  | .entryUnresolved methodId classId serviceId =>
    [("method_id", .text methodId), ("class_id", .text classId), ("service_id", .text serviceId)]
  | .nodeSkipped chainId level methodId classId =>
    [("chain_id", .text chainId), ("level", .number level.toNat), ("method_id", .text methodId),
      ("class_id", .text classId)]
  | .exported path statements => [("path", .text path), ("statements", .number statements)]

/-- The names of what an event tells: its message and its fields. -/
def names (event : Event) : List String := "message" :: event.fields.map Prod.fst

/-- An event as a row of a log: level, target and message, and each field behind its name. -/
def line (event : Event) : String :=
  event.level.column ++ " " ++ event.target ++ ": " ++ event.message
    ++ String.join (event.fields.map fun (name, value) => " " ++ name ++ "=" ++ value.written)

end Event

end CallGraph
