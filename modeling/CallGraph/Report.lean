import CallGraph.Event
import CallGraph.Tables
import CallGraph.Text.Lines

/-!
# Reports

The call chains of a document as text for a terminal: an overview, a summary with one numbered
entry per chain, and a detail per chain. What refers to unknown records is left out of the text and
noted as an event.

* `Block`: rows of text with the events of what is missing in them.
* `overview`, `summary`, `detail`: the parts.
* `pathBlock`: the path of a chain, whose last node by position has a connector of its own.
* `indent`: the blanks before a node, which any level can be given (`toList_indent`).
* `report`: the parts together.
-/

namespace CallGraph.Report

/-! ### Blocks -/

/-- Rows of text, and the events of what was left out of them. -/
structure Block where
  rows : List String := []
  events : List Event := []
  deriving DecidableEq, Repr, Inhabited

/-- Two blocks, one below the other. -/
def Block.append (a b : Block) : Block := ⟨a.rows ++ b.rows, a.events ++ b.events⟩

instance : Append Block := ⟨Block.append⟩

/-- Blocks one below the other. -/
def Block.join (blocks : List Block) : Block :=
  ⟨blocks.flatMap Block.rows, blocks.flatMap Block.events⟩

/-- A block's text: every row ends in a line feed. -/
def Block.text (b : Block) : String := Text.unlines b.rows

@[simp] theorem Block.rows_append (a b : Block) : (a ++ b).rows = a.rows ++ b.rows := rfl

@[simp] theorem Block.events_append (a b : Block) : (a ++ b).events = a.events ++ b.events := rfl

/-- The text of two blocks is one text behind the other. -/
theorem Block.text_append (a b : Block) : (a ++ b).text = a.text ++ b.text := by
  simp only [Block.text, Block.rows_append, Text.unlines_append]

/-! ### Words and marks -/

/-- What stands for an endpoint that is not given. -/
def missing : String := "N/A"

/-- The endpoint of a node, or what stands for it. -/
def endpointText (node : Option PathNode) : String := (node.bind PathNode.endpoint).getD missing

/-- The rule above and below a title. -/
def rule : String := String.ofList (List.replicate 80 '=')

/-- A title between rules, below an empty row. -/
def banner (title : String) : List String := ["", rule, title, rule]

/-- A method of a class, as a call. -/
def callText (className methodName : String) : String := className ++ "." ++ methodName ++ "()"

/-! ### Overview -/

/-- A labelled row, unless there is nothing to show. -/
def labelled (label value : String) : List String := if value = "" then [] else [label ++ value]

/-- What is known about the project as a whole. -/
def metadataRows (m : Metadata) : List String :=
  labelled "Project: " m.projectName ++ labelled "Analysis time: " m.analysisTime

/-- The number of records of each sort. -/
def countRow (d : Document) : String :=
  "Services: " ++ toString d.services.length ++ " | Classes: " ++ toString d.classes.length
    ++ " | Methods: " ++ toString d.methods.length
    ++ " | Method calls: " ++ toString d.calls.length
    ++ " | Call chains: " ++ toString d.chains.length

/-- The overview of a document. -/
def overview (d : Document) : Block where
  rows := (d.metadata.map metadataRows).getD [] ++ [countRow d]

/-! ### Summary -/

/-- The method of an entry point in the summary, which needs its method and class. -/
def entryArrow (t : Tables) (entry : PathNode) : List String :=
  match t.method? entry.methodId, t.class? entry.classId with
  | some method, some owner => ["   → " ++ callText owner.className method.methodName]
  | _, _ => []

/-- The entry of a chain in the summary, numbered by its position. -/
def summaryEntry (t : Tables) (number : Nat) (chain : Chain) : List String :=
  ["", toString number ++ ". " ++ endpointText chain.entry]
    ++ (chain.entry.map (entryArrow t)).getD []
    ++ ["   Depth: " ++ toString chain.maxDepth.toNat ++ " | Cross-service: "
      ++ (if chain.crossService then "✓" else "✗")]

/-- The entries of chains, numbered from the given number on. -/
def summaryEntries (t : Tables) : Nat → List Chain → List String
  | _, [] => []
  | number, chain :: chains => summaryEntry t number chain ++ summaryEntries t (number + 1) chains

/-- The summary of a document: every chain once, in order. -/
def summary (t : Tables) (d : Document) : Block where
  rows := banner "Call chain summary" ++ summaryEntries t 1 d.chains

/-! ### Detail -/

/-- The entry point of a chain. Its method and service are shown when its method, class and service
are all known. -/
def entryBlock (t : Tables) (entry : PathNode) : Block :=
  let heading := ["", "📍 Entry point:", "   HTTP: " ++ endpointText (some entry)]
  match t.method? entry.methodId, t.class? entry.classId, t.service? entry.serviceId with
  | some method, some owner, some service =>
    { rows := heading ++
        ["   Method: " ++ callText owner.qualifiedName method.methodName,
          "   Service: " ++ service.name ++ " (" ++ service.artifactId ++ ")"] }
  | _, _, _ =>
    { rows := heading
      events := [.entryUnresolved entry.methodId entry.classId entry.serviceId] }

/-- Deeper nodes keep this indent. -/
def deepestIndent : UInt64 := 64

/-- Two spaces for each level, and two more. -/
def indent (level : UInt64) : String :=
  String.join (List.replicate (min level deepestIndent + 1).toNat "  ")

/-- The sum does not leave the words it is computed in, as no level counts for more than 64. -/
theorem toNat_indentSteps (level : UInt64) :
    (min level deepestIndent + 1).toNat = min level.toNat 64 + 1 := by
  have hdeepest : deepestIndent.toNat = 64 := rfl
  have hmin : (min level deepestIndent).toNat = min level.toNat 64 := by
    show (if level ≤ deepestIndent then level else deepestIndent).toNat = _
    by_cases h : level.toNat ≤ 64
    · rw [if_pos (UInt64.le_iff_toNat_le.mpr h), Nat.min_eq_left h]
    · rw [if_neg (mt UInt64.le_iff_toNat_le.mp h), Nat.min_eq_right (Nat.le_of_not_le h), hdeepest]
  have hone : (1 : UInt64).toNat = 1 := rfl
  rw [UInt64.toNat_add, hmin, hone]
  exact Nat.mod_eq_of_lt (by omega)

theorem toList_indent (level : UInt64) :
    (indent level).toList = List.replicate (2 * (min level.toNat 64 + 1)) ' ' := by
  have hjoin (n : Nat) :
      (String.join (List.replicate n "  ")).toList = List.replicate (2 * n) ' ' := by
    induction n with
    | zero => rfl
    | succ n ih =>
      rw [List.replicate_succ, String.join_cons, String.toList_append, ih]
      rfl
  rw [indent, hjoin, toNat_indentSteps]

/-- The mark before a node: the last one by position has its own. -/
def connector (isLast : Bool) : String := if isLast then "└─" else "├─"

/-- The rows of a node whose method and class are known. -/
def nodeRows (isLast : Bool) (node : PathNode) (className methodName : String) : List String :=
  [indent node.level ++ connector isLast ++ " [Level " ++ toString node.level.toNat ++ "] "
      ++ callText className methodName]
    ++ (node.endpoint.map fun endpoint => indent node.level ++ "   HTTP: " ++ endpoint).toList
    ++ (node.kind.map fun kind => indent node.level ++ "   Type: " ++ kind.label).toList

/-- A node of the path of a chain: its rows, or the event that it is left out. -/
def nodeBlock (t : Tables) (chainId : String) (isLast : Bool) (node : PathNode) : Block :=
  match t.method? node.methodId, t.class? node.classId with
  | some method, some owner => { rows := nodeRows isLast node owner.className method.methodName }
  | _, _ => { events := [.nodeSkipped chainId node.level node.methodId node.classId] }

/-- The nodes of a path. Which one is last does not depend on which ones are known. -/
def pathBlocks (t : Tables) (chainId : String) : List PathNode → List Block
  | [] => []
  | node :: nodes => nodeBlock t chainId nodes.isEmpty node :: pathBlocks t chainId nodes

/-- The path of a chain. -/
def pathBlock (t : Tables) (chain : Chain) : Block :=
  { rows := ["", "🔗 Call path:"] } ++ Block.join (pathBlocks t chain.id chain.path)

/-- The numbers of a chain. -/
def statistics (chain : Chain) : Block where
  rows :=
    ["", "📊 Statistics:", "   Max depth: " ++ toString chain.maxDepth.toNat,
      "   Services involved: " ++ toString chain.involvedServices.length,
      "   Cross-service: " ++ (if chain.crossService then "yes" else "no")]

/-- The detail of a chain. -/
def detail (t : Tables) (chain : Chain) : Block :=
  { rows := banner ("Call chain ID: " ++ chain.id) }
    ++ (chain.entry.map (entryBlock t)).getD {} ++ pathBlock t chain ++ statistics chain

/-! ### The whole report -/

/-- The report of a document with the records of some tables: the overview if it is asked for, the
summary, and the detail of every chain. -/
def report (t : Tables) (withOverview : Bool) (d : Document) : Block :=
  (if withOverview then overview d else {}) ++ summary t d ++ Block.join (d.chains.map (detail t))

end CallGraph.Report
