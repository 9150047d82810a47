import CallGraph.Document
import Std.Data.HashMap

/-!
# Lookup tables

The methods, classes and services of a document by their ids. Where an id is given twice, the last
record counts.

* `Table`: the records of one sort by id.
* `Table.ofRecords_concat`: one more record replaces those with its id.
* `Tables`: the three tables of a document.
-/

namespace CallGraph

/-! ### One table -/

/-- Records by id. -/
abbrev Table (ρ : Type) : Type := Std.HashMap String ρ

/-- The table of records, of which the last with an id counts. -/
def Table.ofRecords {ρ : Type} (id : ρ → String) (records : List ρ) : Table ρ :=
  records.foldl (fun table record => table.insert (id record) record) ∅

/-- One more record at the end is an insertion. -/
theorem Table.ofRecords_concat {ρ : Type} (id : ρ → String) (records : List ρ) (record : ρ) :
    ofRecords id (records ++ [record]) = (ofRecords id records).insert (id record) record := by
  simp [ofRecords]

/-! ### The tables of a document -/

/-- The records of a document that are referred to by id. -/
structure Tables where
  methods : Table Method
  classes : Table Class
  services : Table Service

/-- The tables of a document. -/
def Document.tables (d : Document) : Tables where
  methods := Table.ofRecords Method.id d.methods
  classes := Table.ofRecords Class.id d.classes
  services := Table.ofRecords Service.id d.services

namespace Tables

/-- The method with an id. -/
def method? (t : Tables) (id : String) : Option Method := t.methods[id]?

/-- The class with an id. -/
def class? (t : Tables) (id : String) : Option Class := t.classes[id]?

/-- The service with an id. -/
def service? (t : Tables) (id : String) : Option Service := t.services[id]?

/-- The number of methods that can be looked up. -/
def methodCount (t : Tables) : Nat := t.methods.size

/-- The number of classes that can be looked up. -/
def classCount (t : Tables) : Nat := t.classes.size

/-- The number of services that can be looked up. -/
def serviceCount (t : Tables) : Nat := t.services.size

end Tables

end CallGraph
