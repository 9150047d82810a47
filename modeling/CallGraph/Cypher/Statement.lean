import CallGraph.Cypher.Literal
import CallGraph.Document

/-!
# Statements

The statements that rebuild a document as a graph: one node for each service, class and method, and
one relationship for each call whose target is known.

* `Statement`: nodes and relationships with their properties.
* `Statement.rows`: a statement as it is written.
* `Statement.ofService`, `ofClass`, `ofMethod`, `ofCall?`: the statement of a record.
-/

namespace CallGraph.Cypher

/-! ### Statements as data -/

/-- The value of a property. -/
inductive Value where
  | text (value : String)
  | flag (value : Bool)
  deriving DecidableEq, Repr

/-- A named property. -/
structure Property where
  name : String
  value : Value
  deriving DecidableEq, Repr

/-- A statement creates a node under a variable, or a relationship between the method nodes with two
ids. -/
inductive Statement where
  | create (name label : String) (properties : List Property)
  | connect (source target : String) (properties : List Property)
  deriving DecidableEq, Repr

/-! ### Statements as text -/

/-- Texts are written as literals, flags as words. -/
def Value.written : Value → String
  | .text value => quote value
  | .flag value => if value then "true" else "false"

/-- A property behind its name. -/
def Property.written (p : Property) : String := "  " ++ p.name ++ ": " ++ p.value.written

/-- Properties in rows of their own, with commas behind all but the last. -/
def propertyRows : List Property → List String
  | [] => []
  | [p] => [p.written]
  | p :: more => (p.written ++ ",") :: propertyRows more

/-- The row that finds the method node with an id. -/
def matchRow (name id : String) : String :=
  "MATCH (" ++ name ++ ":Method \x7bid: " ++ quote id ++ "\x7d)"

/-- A statement in rows, with an empty row behind it. -/
def Statement.rows : Statement → List String
  | .create name label properties =>
    ("CREATE (" ++ name ++ ":" ++ label ++ " \x7b") :: propertyRows properties ++ ["\x7d);", ""]
  | .connect source target properties =>
    [matchRow "m1" source, matchRow "m2" target, "CREATE (m1)-[:CALLS \x7b"]
      ++ propertyRows properties ++ ["\x7d]->(m2);", ""]

/-! ### The statements of records -/

/-- The node of a service. -/
def Statement.ofService (s : Service) : Statement :=
  .create ("s_" ++ shortId s.id) "Service"
    [⟨"id", .text s.id⟩, ⟨"name", .text s.name⟩, ⟨"artifactId", .text s.artifactId⟩]

/-- The node of a class. -/
def Statement.ofClass (c : Class) : Statement :=
  .create ("c_" ++ shortId c.id) "Class"
    [⟨"id", .text c.id⟩, ⟨"name", .text c.className⟩, ⟨"qualifiedName", .text c.qualifiedName⟩,
      ⟨"type", .text c.kind.label⟩]

/-- The node of a method. -/
def Statement.ofMethod (m : Method) : Statement :=
  .create ("m_" ++ shortId m.id) "Method"
    [⟨"id", .text m.id⟩, ⟨"name", .text m.methodName⟩, ⟨"signature", .text m.signature⟩]

/-- The relationship of a call; a call that leaves the document has none. -/
def Statement.ofCall? (c : Call) : Option Statement :=
  c.resolvedTarget.map fun target =>
    .connect c.sourceMethodId target
      [⟨"callType", .text c.kind.label⟩, ⟨"crossService", .flag c.crossService⟩]

end CallGraph.Cypher
