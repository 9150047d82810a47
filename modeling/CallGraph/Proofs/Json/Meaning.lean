import CallGraph.Json.Schema
import CallGraph.Proofs.Json.Folding

/-!
# What trees mean

A schema gives meaning to trees: which tree stands for which value.  This is said here without
readers, by recursion over the schema.

* `Schema.Means` — a tree stands for a value;
* `Column`, `Fields.columns` — the fields of a record, each with the changes that trees stand for;
* `MemberStep`, `Positions` — what members and items do to a record on the way.
-/

namespace CallGraph.Json

/-- A field of a record: its name, and which trees stand for which changes of the record. -/
structure Column (ρ : Type) where
  name : String
  Means : Tree → (ρ → ρ) → Prop

variable {ρ : Type}

/-- A member changes a record if its key names a field that was not given before; members with
unknown keys change nothing. -/
inductive MemberStep (columns : List (Column ρ)) :
    Progress ρ → List Char × Tree → Progress ρ → Prop where
  | known {p : Progress ρ} {key : List Char} {value : Tree} {name : String} {column : Column ρ}
    {change : ρ → ρ} (hkey : SpellsAll name.toList key)
    (hcolumn : columns.find? (fun column => column.name = name) = some column)
    (hnew : name ∉ p.seen) (hvalue : column.Means value change) :
    MemberStep columns p (key, value) ⟨name :: p.seen, change p.record⟩
  | unknown {p : Progress ρ} {key : List Char} {value : Tree} {name : String}
    (hkey : SpellsAll name.toList key)
    (hcolumn : columns.find? (fun column => column.name = name) = none) :
    MemberStep columns p (key, value) p

/-- Items change a record as the fields at their positions do; there are at most as many of them. -/
inductive Positions : List (Column ρ) → ρ → List Tree → ρ → Prop where
  | nil {columns : List (Column ρ)} (record : ρ) : Positions columns record [] record
  | cons {column : Column ρ} {columns : List (Column ρ)} {record result : ρ} {item : Tree}
    {items : List Tree} {change : ρ → ρ} (hitem : column.Means item change)
    (hitems : Positions columns (change record) items result) :
    Positions (column :: columns) record (item :: items) result

/-- A record stands in an object, or in a list of its first field values. -/
inductive IsRecord (columns : List (Column ρ)) (blank : ρ) : Tree → ρ → Prop where
  | keyed {members : List (List Char × Tree)} {p : Progress ρ}
    (h : Steps (MemberStep columns) ⟨[], blank⟩ members p) :
    IsRecord columns blank (.object members) p.record
  | positional {items : List Tree} {record : ρ} (h : Positions columns blank items record) :
    IsRecord columns blank (.list items) record

mutual

/-- Which trees stand for which values of a schema. -/
def Schema.Means : {α : Type} → Schema α → Tree → α → Prop
  | _, .text, tree, value => ∃ body, tree = .text body ∧ SpellsAll value.toList body
  | _, .flag, tree, value => tree = .flag value
  | _, .word _ _, tree, value => tree = .number (decimal value.val) ∧ value.val ≤ greatestWord
  | _, .list item, tree, values =>
    ∃ items, tree = .list items ∧ List.Forall₂ item.Means items values
  | _, .record _ blank fields, tree, value => IsRecord fields.columns blank tree value
  | _, .map f schema, tree, value => ∃ v, schema.Means tree v ∧ f v = value

/-- The fields of a record as columns; null stands for no change. -/
def Fields.columns : {ρ : Type} → Fields ρ → List (Column ρ)
  | _, .nil => []
  | _, .cons name schema set more =>
    ⟨name, fun tree change =>
      tree = .null ∧ change = id ∨ ∃ value, schema.Means tree value ∧ change = set value⟩
      :: more.columns

end

end CallGraph.Json
