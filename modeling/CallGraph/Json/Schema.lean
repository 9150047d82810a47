import CallGraph.Json.Number
import CallGraph.Json.Sequence
import CallGraph.Json.Skip

/-!
# Schemas

What a document has to look like, given as data. A schema says which JSON values stand for the
values of a type; reading follows it.

* `Schema`, `Fields`: texts, flags, words, lists and records, whose fields are listed in order.
* `Slot`: one field as a change to the record.
* `Schema.read`: reads a value of a schema.
* `Schema.parse`: reads a whole text.

A record is written as an object, whose members may stand in any order and may have unknown keys,
or as a list of its first field values in order. A field that is missing or null keeps the value
of the blank record.
-/

namespace CallGraph.Json

open Reader

mutual

/-- What stands for the values of a type. `Schema.word` are the natural numbers below a size, and
the words in front of records and numbers name them in messages. -/
inductive Schema : Type → Type 1 where
  | text : Schema String
  | flag : Schema Bool
  | word (expected : String) (size : Nat) : Schema (Fin size)
  | list {α : Type} (item : Schema α) : Schema (List α)
  | record {ρ : Type} (expected : String) (blank : ρ) (fields : Fields ρ) : Schema ρ
  | map {α β : Type} (f : α → β) (schema : Schema α) : Schema β

/-- The fields of a record in order, each with the change its value makes. -/
inductive Fields : Type → Type 1 where
  | nil {ρ : Type} : Fields ρ
  | cons {ρ α : Type} (name : String) (schema : Schema α) (set : α → ρ → ρ) (more : Fields ρ) :
    Fields ρ

end

/-! ### Values of the wrong type -/

/-- The fault of a value that does not begin like one of the expected type. A value that is not
bracketed is read first, and its own faults count more. -/
def mismatch {α : Type} (expected : String) (c : Char) : Reader α :=
  if c = '"' then do
    let text ← readText
    fail (.invalidType (.text text) expected)
  else if c = Bracket.square.opener then failBefore [c] (.invalidType .sequence expected)
  else if c = Bracket.curly.opener then failBefore [c] (.invalidType .map expected)
  else if Numeral.starts c then do
    let number ← readNumber c
    fail (.invalidType number.found expected)
  else if c = 'n' then do
    nullRest
    fail (.invalidType .null expected)
  else if c = 't' then do
    trueRest
    fail (.invalidType (.boolean true) expected)
  else if c = 'f' then do
    falseRest
    fail (.invalidType (.boolean false) expected)
  else refuse c .expectedValue

/-- A value whose first character, behind blanks, decides how it is read on. -/
def readTyped {α : Type} (expected : String) (start : Char → Option (Reader α)) : Reader α := do
  blanks
  match ← next? with
  | none => fail .endInValue
  | some c =>
    match start c with
    | some reader => reader
    | none => mismatch expected c

/-- A natural number below a size from its first character on. -/
def readWord (expected : String) (size : Nat) (first : Char) : Reader (Fin size) := do
  match ← readNumber first with
  | .integer value =>
    if h : 0 ≤ value ∧ value.toNat < size then pure ⟨value.toNat, h.2⟩
    else fail (.invalidValue (.integer value) expected)
  | .real value => fail (.invalidType (.real value) expected)

/-! ### Records -/

/-- A field as it is read: its name, and the reader of the change it makes to the record. -/
structure Slot (ρ : Type) where
  name : String
  read : Reader (ρ → ρ)

variable {ρ : Type}

/-- The value of a field, where null stands for no change. -/
def readField {α : Type} (value : Reader α) (set : α → ρ → ρ) : Reader (ρ → ρ) := do
  blanks
  match ← nextIf? (· = 'n') with
  | some _ => do
    nullRest
    return id
  | none => return set (← value)

/-- The end of a record written as a list, behind its last field. -/
def readListEnd : Reader Unit := do
  blanks
  match ← peek? with
  | none => fail .endInList
  | some c =>
    if c = Bracket.square.closer then do
      let _ ← next?
    else if c = ',' then do
      let _ ← next?
      blanks
      match ← peek? with
      | none => fail .trailingCharacters
      | some d =>
        if d = Bracket.square.closer then failNext .trailingComma
        else failNext .trailingCharacters
    else failNext .trailingCharacters

/-- The fields of a record written as a list, behind the first of them. -/
def readPositions : List (Slot ρ) → ρ → Reader ρ
  | [], record => do
    readListEnd
    return record
  | slot :: more, record => do
    if ← Bracket.square.following then
      let change ← slot.read
      readPositions more (change record)
    else return record

/-- A record written as a list of its field values, behind the opening bracket. -/
def readPositional (slots : List (Slot ρ)) (blank : ρ) : Reader ρ :=
  match slots with
  | [] => do
    readListEnd
    return blank
  | slot :: more => do
    if ← Bracket.square.first then
      let change ← slot.read
      readPositions more (change blank)
    else return blank

/-- The key of a member, from its opening quote on. -/
def readKey : Reader String := do
  match ← next? with
  | none => fail .endInObject
  | some c => if c = '"' then readText else refuse c .keyMustBeString

/-- A record on the way, with the names of the fields that were given. -/
structure Progress (ρ : Type) where
  seen : List String
  record : ρ

/-- The fault of a field that is given twice; a closing bracket in the place of the colon is passed
first. -/
def refuseAgain {α : Type} (name : String) : Reader α := do
  blanks
  let _ ← nextIf? (· = Bracket.curly.closer)
  fail (.duplicateField name)

/-- A member of a record: a field it does not have yet, or an unknown key with any value. -/
def readMember (slots : List (Slot ρ)) (progress : Progress ρ) : Reader (Progress ρ) := do
  let key ← readKey
  match slots.find? (·.name = key) with
  | none =>
    readColon
    skipValue
    return progress
  | some slot =>
    if key ∈ progress.seen then refuseAgain key
    else do
      readColon
      let change ← slot.read
      return ⟨key :: progress.seen, change progress.record⟩

/-- A record written as an object, behind the opening bracket. -/
def readKeyed (slots : List (Slot ρ)) (blank : ρ) : Reader ρ := do
  let progress ← Bracket.curly.fold (readMember slots) ⟨[], blank⟩
  return progress.record

/-! ### Reading by a schema -/

mutual

/-- A value of a schema, with the blanks before it. -/
def Schema.read : {α : Type} → Schema α → Reader α
  | _, .text => readTyped "a string" fun c => if c = '"' then some readText else none
  | _, .flag => readTyped "a boolean" fun c =>
    if c = 't' then some (do trueRest; return true)
    else if c = 'f' then some (do falseRest; return false)
    else none
  | _, .word expected size => readTyped expected fun c =>
    if Numeral.starts c then some (readWord expected size c) else none
  | _, .list item => readTyped "a sequence" fun c =>
    if c = Bracket.square.opener then some (readList item.read) else none
  | _, .record expected blank fields => readTyped expected fun c =>
    if c = Bracket.square.opener then some (readPositional fields.slots blank)
    else if c = Bracket.curly.opener then some (readKeyed fields.slots blank)
    else none
  | _, .map f schema => do return f (← schema.read)

/-- The fields of a record as slots. -/
def Fields.slots : {ρ : Type} → Fields ρ → List (Slot ρ)
  | _, .nil => []
  | _, .cons name schema set more => ⟨name, readField schema.read set⟩ :: more.slots

end

/-- The end of the text, behind blanks. -/
def readEnd : Reader Unit := do
  blanks
  match ← peek? with
  | none => pure ()
  | some _ => failNext .trailingCharacters

/-- A whole text of a schema, or why and where it is rejected. -/
def Schema.parse {α : Type} (schema : Schema α) (text : String) : Except Rejection α :=
  let characters := text.toList
  let whole : Reader α := do
    let value ← schema.read
    readEnd
    return value
  match whole.run characters with
  | .ok (value, _) => .ok value
  | .error fault => .error (fault.toRejection characters)

end CallGraph.Json
