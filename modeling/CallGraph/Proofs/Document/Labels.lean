import CallGraph.Cypher.Script
import CallGraph.Proofs.Document.Editing
import CallGraph.Proofs.Document.Places
import CallGraph.Proofs.Report.Omissions

/-!
# Labels from texts to outputs

A label in a document's text is kept as it is: the kind that is read from it is written with it, and
it stands in the script and in the report.

* `KeepsLabels` — kinds and labels belong together one to one;
* `GivesLabel`, `label_of_fills` — the label that a tree gives, and the kind that is read from it;
* `Document.canonical_of_means` — the kinds of a document that was read are canonical;
* `Document.ShowsLabels` — where the labels of a tree are found in the outputs;
* `Document.labels_as_written` — all of this for accepted texts.
-/

namespace CallGraph

open Json

/-! ### Kinds and labels -/

/-- Every label has a kind of its own that is written with it, and a kind that is loaded is the one
of its label. -/
structure KeepsLabels {κ : Type} (ofLabel : String → κ) (label : κ → String) (loaded : κ → Prop) :
    Prop where
  label_ofLabel (text : String) : label (ofLabel text) = text
  injective : Function.Injective ofLabel
  ofLabel_label {kind : κ} (h : loaded kind) : ofLabel (label kind) = kind
  eq_iff {kind other : κ} (h : loaded kind) (hother : loaded other) :
    kind = other ↔ label kind = label other

theorem keepsLabels_of_inverse {κ : Type} {ofLabel : String → κ} {label : κ → String}
    {loaded : κ → Prop} (hlabel : ∀ text, label (ofLabel text) = text)
    (hloaded : ∀ kind, loaded kind → ofLabel (label kind) = kind) :
    KeepsLabels ofLabel label loaded where
  label_ofLabel := hlabel
  injective := Function.LeftInverse.injective hlabel
  ofLabel_label h := hloaded _ h
  eq_iff {kind other} h hother := by
    constructor
    · intro heq
      rw [heq]
    · intro heq
      rw [← hloaded kind h, heq, hloaded other hother]

/-- A kind that is read from a label is canonical: known labels have kinds of their own. -/
theorem ClassKind.canonical_ofLabel (text : String) : (ofLabel text).Canonical := by
  intro label h hknown
  have hlabel : text = label := by
    rw [← label_ofLabel text, h]
    rfl
  subst hlabel
  simp only [List.mem_cons, List.not_mem_nil, or_false] at hknown
  rcases hknown with rfl | rfl | rfl | rfl | rfl | rfl | rfl | rfl | rfl <;> cases h

theorem CallKind.canonical_ofLabel (text : String) : (ofLabel text).Canonical := by
  intro label h hknown
  have hlabel : text = label := by
    rw [← label_ofLabel text, h]
    rfl
  subst hlabel
  simp only [List.mem_cons, List.not_mem_nil, or_false] at hknown
  rcases hknown with rfl | rfl | rfl | rfl | rfl | rfl <;> cases h

/-! ### Labels in trees -/

/-- The label that is given for a field: that of a text, and none if nothing or null is given. -/
inductive GivesLabel : Option Tree → Option String → Prop where
  | missing : GivesLabel none none
  | null : GivesLabel (some .null) none
  | text {label : String} {body : List Char} (h : SpellsAll label.toList body) :
    GivesLabel (some (.text body)) (some label)

/-- At most one label is given. -/
theorem GivesLabel.unique {given : Option Tree} {label other : Option String}
    (h : GivesLabel given label) (hother : GivesLabel given other) : label = other := by
  cases h with
  | missing =>
    cases hother
    rfl
  | null =>
    cases hother
    rfl
  | text h =>
    cases hother with
    | text hother => rw [String.toList_inj.mp (h.unique hother)]

/-- A tree stands for a kind by the label that it gives. -/
theorem label_of_means {κ : Type} {ofLabel : String → κ} {tree : Tree} {kind : κ}
    (h : (Schema.map ofLabel .text).Means tree kind) :
    ∃ label, GivesLabel (some tree) (some label) ∧ kind = ofLabel label := by
  rw [Schema.Means] at h
  obtain ⟨label, htext, rfl⟩ := h
  rw [Schema.Means] at htext
  obtain ⟨body, rfl, hbody⟩ := htext
  exact ⟨label, .text hbody, rfl⟩

/-- A kind is read from the label that is given, and is unknown where there is none. -/
theorem label_of_fills {κ : Type} {ofLabel : String → κ} {given : Option Tree} {kind : κ}
    (h : (Schema.map ofLabel .text).Fills (ofLabel "UNKNOWN") given kind) :
    ∃ label, GivesLabel given label ∧ kind = ofLabel (label.getD "UNKNOWN") := by
  obtain ⟨rfl | rfl, rfl⟩ | ⟨tree, rfl, hmeans⟩ := h
  · exact ⟨none, .missing, rfl⟩
  · exact ⟨none, .null, rfl⟩
  · obtain ⟨label, hlabel, rfl⟩ := label_of_means hmeans
    exact ⟨some label, hlabel, rfl⟩

/-- Where a kind may be missing, it is missing exactly if no label is given. -/
theorem optionalLabel_of_fills {κ : Type} {ofLabel : String → κ} {given : Option Tree}
    {kind : Option κ} (h : (Schema.map some (.map ofLabel .text)).Fills none given kind) :
    ∃ label, GivesLabel given label ∧ kind = label.map ofLabel := by
  obtain ⟨rfl | rfl, rfl⟩ | ⟨tree, rfl, hmeans⟩ := h
  · exact ⟨none, .missing, rfl⟩
  · exact ⟨none, .null, rfl⟩
  · rw [Schema.Means] at hmeans
    obtain ⟨kind, hkind, rfl⟩ := hmeans
    obtain ⟨label, hlabel, rfl⟩ := label_of_means hkind
    exact ⟨some label, hlabel, rfl⟩

/-! ### Canonical documents -/

/-- The kind of a class that was read is canonical. -/
theorem Class.canonical_of_means {tree : Tree} {c : Class} (h : Layout.classRecord.Means tree c) :
    c.kind.Canonical := by
  obtain ⟨given, hfills⟩ := Layout.readBy_type.exists_fills Layout.classFields_lawful.names h
  obtain ⟨label, -, hkind⟩ := label_of_fills hfills
  rw [hkind]
  exact ClassKind.canonical_ofLabel _

theorem Call.canonical_of_means {tree : Tree} {call : Call} (h : Layout.call.Means tree call) :
    call.kind.Canonical := by
  obtain ⟨given, hfills⟩ := Layout.readBy_callType.exists_fills Layout.callFields_lawful.names h
  obtain ⟨label, -, hkind⟩ := label_of_fills hfills
  rw [hkind]
  exact CallKind.canonical_ofLabel _

theorem PathNode.canonical_of_means {tree : Tree} {node : PathNode}
    (h : Layout.pathNode.Means tree node) : node.Canonical := by
  obtain ⟨given, hfills⟩ :=
    Layout.readBy_nodeType.exists_fills Layout.pathNodeFields_lawful.names h
  obtain ⟨label, -, hkind⟩ := optionalLabel_of_fills hfills
  rw [PathNode.Canonical, hkind]
  intro kind hlabel
  obtain ⟨text, -, rfl⟩ := Option.map_eq_some_iff.mp hlabel
  exact CallKind.canonical_ofLabel text

/-- The entry point of a chain was read from a tree of its own. -/
theorem Chain.exists_means_entry {tree : Tree} {chain : Chain} (h : Layout.chain.Means tree chain)
    {node : PathNode} (hnode : chain.entry = some node) :
    ∃ entry, Layout.pathNode.Means entry node := by
  obtain ⟨given, hfills⟩ := Layout.readBy_entry.exists_fills Layout.chainFields_lawful.names h
  rw [hnode] at hfills
  obtain ⟨-, hnone⟩ | ⟨entry, -, hentry⟩ := hfills
  · cases hnone
  · rw [Schema.Means] at hentry
    obtain ⟨v, hv, hsome⟩ := hentry
    rw [Option.some.inj hsome] at hv
    exact ⟨entry, hv⟩

/-- **The kinds of a document that was read are canonical.** -/
theorem Document.canonical_of_means {tree : Tree} {d : Document}
    (h : Layout.document.Means tree d) : d.Canonical := by
  have hchain {chain : Chain} (hchain : chain ∈ d.chains) :
      ∃ item, Layout.chain.Means item chain :=
    Layout.readBy_chains.exists_means_of_mem Layout.documentFields_lawful.names h rfl hchain
  constructor
  case classes =>
    intro c hc
    obtain ⟨item, hitem⟩ :=
      Layout.readBy_classes.exists_means_of_mem Layout.documentFields_lawful.names h rfl hc
    exact Class.canonical_of_means hitem
  case calls =>
    intro call hcall
    obtain ⟨item, hitem⟩ :=
      Layout.readBy_calls.exists_means_of_mem Layout.documentFields_lawful.names h rfl hcall
    exact Call.canonical_of_means hitem
  case entries =>
    intro chain hmem node hnode
    obtain ⟨item, hitem⟩ := hchain hmem
    obtain ⟨entry, hentry⟩ := Chain.exists_means_entry hitem hnode
    exact PathNode.canonical_of_means hentry
  case nodes =>
    intro chain hmem node hnode
    obtain ⟨item, hitem⟩ := hchain hmem
    obtain ⟨entry, hentry⟩ :=
      Layout.readBy_path.exists_means_of_mem Layout.chainFields_lawful.names hitem rfl hnode
    exact PathNode.canonical_of_means hentry

/-! ### Rows of labels -/

/-- The rows that begin with a mark. -/
def Text.rowsWith (mark : String) (rows : List String) : List String :=
  rows.filter fun row => mark.toList.isPrefixOf row.toList

theorem Text.mem_rowsWith_iff {mark rest : String} {rows : List String} :
    mark ++ rest ∈ rowsWith mark rows ↔ mark ++ rest ∈ rows := by
  simp [rowsWith]

/-- What is made from one of some things stands together in what is made from all of them. -/
theorem infix_flatMap {α β : Type} {a : α} {as : List α} (h : a ∈ as) (f : α → List β) :
    f a <:+: as.flatMap f :=
  List.infix_of_mem_flatten (List.mem_map_of_mem h)

namespace Cypher

/-- The rows of a statement stand together in the script of its document. -/
theorem infix_script {d : Document} {s : Statement} (h : s ∈ statements d) :
    ∃ rows, script d = Text.unlines rows ∧ s.rows <:+: rows := by
  obtain ⟨part, hpart, hs⟩ := List.mem_flatMap.mp h
  have hstatement : s.rows <:+: part.rows :=
    (infix_flatMap hs Statement.rows).trans (List.suffix_cons ..).isInfix
  have hsection : part.rows <:+: (sections d).flatMap Section.rows :=
    infix_flatMap hpart Section.rows
  exact ⟨_, rfl, (hstatement.trans hsection).trans (List.suffix_append ..).isInfix⟩

/-- The label of a class stands in one row of its statement. -/
theorem rowsWith_ofClass (c : Class) :
    Text.rowsWith "  type: " (Statement.ofClass c).rows = ["  type: " ++ quote c.kind.label] := by
  simp [Text.rowsWith, Statement.ofClass, Statement.rows, propertyRows, Property.written,
    Value.written]

/-- The label of a call stands in one row of its statement. -/
theorem rowsWith_connect (source target : String) (kind : CallKind) (flag : Bool) :
    Text.rowsWith "  callType: " (Statement.connect source target
        [⟨"callType", .text kind.label⟩, ⟨"crossService", .flag flag⟩]).rows
      = ["  callType: " ++ quote kind.label ++ ","] := by
  simp [Text.rowsWith, Statement.rows, propertyRows, Property.written, Value.written, matchRow]

end Cypher

namespace Report

/-- What the row of a node's label begins with. -/
def typeMark (level : UInt64) : String := indent level ++ "   Type: "

/-- The label of a node stands in one row, if it has one. -/
theorem rowsWith_nodeRows (isLast : Bool) (node : PathNode) (className methodName : String) :
    Text.rowsWith (typeMark node.level) (nodeRows isLast node className methodName)
      = (node.kind.map fun kind => typeMark node.level ++ kind.label).toList := by
  unfold nodeRows connector
  cases isLast <;> cases node.endpoint <;> cases node.kind <;> simp [Text.rowsWith, typeMark]

theorem rowsWith_nodeBlock {t : Tables} {node : PathNode} (h : t.KnowsNode node) (chainId : String)
    (isLast : Bool) : Text.rowsWith (typeMark node.level) (nodeBlock t chainId isLast node).rows
      = (node.kind.map fun kind => typeMark node.level ++ kind.label).toList := by
  obtain ⟨-, className, methodName, hblock⟩ | ⟨hunknown, -⟩ := nodeBlock_cases t chainId isLast node
  · rw [hblock, rowsWith_nodeRows]
  · exact absurd h hunknown

/-- Each node of a path has its block at its position. -/
theorem getElem?_pathBlocks (t : Tables) (chainId : String) {nodes : List PathNode} {m : Nat}
    {node : PathNode} (h : nodes[m]? = some node) :
    ∃ isLast, (pathBlocks t chainId nodes)[m]? = some (nodeBlock t chainId isLast node) := by
  induction nodes generalizing m with
  | nil => cases h
  | cons first nodes ih =>
    rw [pathBlocks]
    cases m with
    | zero =>
      obtain rfl := Option.some.inj h
      exact ⟨_, rfl⟩
    | succ m => exact ih h

/-- The rows of a node's block stand together in the report. -/
theorem infix_report (t : Tables) (withOverview : Bool) {d : Document} {chain : Chain}
    (hchain : chain ∈ d.chains) {block : Block}
    (hblock : block ∈ pathBlocks t chain.id chain.path) :
    block.rows <:+: (report t withOverview d).rows := by
  have hpath : block.rows <:+: (pathBlock t chain).rows :=
    (infix_flatMap hblock Block.rows).trans (List.suffix_append ..).isInfix
  have hdetail : (pathBlock t chain).rows <:+: (detail t chain).rows := ⟨_, _, rfl⟩
  have hdetails : (detail t chain).rows <:+: (Block.join (d.chains.map (detail t))).rows :=
    infix_flatMap (List.mem_map_of_mem hchain) Block.rows
  exact ((hpath.trans hdetail).trans hdetails).trans (List.suffix_append ..).isInfix

end Report

/-! ### Labels of documents -/

namespace Document

/-- The kinds of the classes of a document. -/
def classKinds (d : Document) : List ClassKind := d.classes.map Class.kind

/-- The kinds of calls in a document: those of its calls, of its entry points and of its nodes. -/
def callKinds (d : Document) : List CallKind :=
  d.calls.map Call.kind
    ++ d.chains.flatMap fun chain => (chain.entry.toList ++ chain.path).filterMap PathNode.kind

theorem Canonical.classKinds {d : Document} (h : d.Canonical) {kind : ClassKind}
    (hkind : kind ∈ d.classKinds) : kind.Canonical := by
  obtain ⟨c, hc, rfl⟩ := List.mem_map.mp hkind
  exact h.classes c hc

theorem Canonical.callKinds {d : Document} (h : d.Canonical) {kind : CallKind}
    (hkind : kind ∈ d.callKinds) : kind.Canonical := by
  obtain hcalls | hchains := List.mem_append.mp hkind
  · obtain ⟨call, hcall, rfl⟩ := List.mem_map.mp hcalls
    exact h.calls call hcall
  · obtain ⟨chain, hchain, hnodes⟩ := List.mem_flatMap.mp hchains
    obtain ⟨node, hnode, hkind⟩ := List.mem_filterMap.mp hnodes
    obtain hentry | hpath := List.mem_append.mp hnode
    · exact h.entries chain hchain node (Option.mem_toList.mp hentry) kind hkind
    · exact h.nodes chain hchain node hpath kind hkind

/-- The labels that the tree of a document gives are found in its outputs: those of classes and of
calls with a target in one row of their statements, where a label that is not given is unknown, and
those of nodes that are known in one row of their block, which is only there where one is given. -/
structure ShowsLabels (d : Document) (tree : Tree) : Prop where
  classes {n : Nat} {around : Tree → Tree} {record : Tree} {given : Option Tree}
    (hplace : Layout.documentFields.ItemAt "classes" n around) (htree : tree = around record)
    (hgiven : Layout.classFields.Given "type" record given) :
    ∃ c label, d.classes[n]? = some c ∧ GivesLabel given label
      ∧ (∃ rows, Cypher.script d = Text.unlines rows
        ∧ (Cypher.Statement.ofClass c).rows <:+: rows)
      ∧ Text.rowsWith "  type: " (Cypher.Statement.ofClass c).rows
        = ["  type: " ++ Cypher.quote (label.getD "UNKNOWN")]
  calls {n : Nat} {around : Tree → Tree} {record : Tree} {given : Option Tree}
    (hplace : Layout.documentFields.ItemAt "methodCalls" n around) (htree : tree = around record)
    (hgiven : Layout.callFields.Given "callType" record given) :
    ∃ call label, d.calls[n]? = some call ∧ GivesLabel given label
      ∧ ∀ target, call.resolvedTarget = some target →
        ∃ statement, Cypher.Statement.ofCall? call = some statement
          ∧ (∃ rows, Cypher.script d = Text.unlines rows ∧ statement.rows <:+: rows)
          ∧ Text.rowsWith "  callType: " statement.rows
            = ["  callType: " ++ Cypher.quote (label.getD "UNKNOWN") ++ ","]
  nodes {n m : Nat} {around close : Tree → Tree} {record : Tree} {given : Option Tree}
    (hchain : Layout.documentFields.ItemAt "callChains" n around)
    (hnode : Layout.chainFields.ItemAt "chain" m close) (htree : tree = around (close record))
    (hgiven : Layout.pathNodeFields.Given "callType" record given) :
    ∃ chain node label, d.chains[n]? = some chain ∧ chain.path[m]? = some node
      ∧ GivesLabel given label
      ∧ (d.tables.KnowsNode node →
        ∃ block, (Report.pathBlocks d.tables chain.id chain.path)[m]? = some block
          ∧ (∀ withOverview, block.rows <:+: (Report.report d.tables withOverview d).rows)
          ∧ Text.rowsWith (Report.typeMark node.level) block.rows
            = (label.map fun text => Report.typeMark node.level ++ text).toList
          ∧ ∀ text, Report.typeMark node.level ++ text ∈ block.rows
            ↔ GivesLabel given (some text))

theorem showsLabels_of_means {tree : Tree} {d : Document} (h : Layout.document.Means tree d) :
    d.ShowsLabels tree := by
  constructor
  case classes =>
    rintro n around record given hplace rfl hgiven
    -- the record at the place is the one that the document has at its position
    obtain ⟨c, hc, hmeans⟩ := (Layout.locates_class hplace).found hgiven.ne_null h
    have hfills := Layout.readBy_type.fills Layout.classFields_lawful.names hgiven hmeans
    obtain ⟨label, hlabel, hkind⟩ := label_of_fills hfills
    have hstatement := Cypher.mem_statements.mpr (.inr (.inl ⟨c, List.mem_of_getElem? hc, rfl⟩))
    refine ⟨c, label, hc, hlabel, Cypher.infix_script hstatement, ?_⟩
    rw [Cypher.rowsWith_ofClass, hkind, ClassKind.label_ofLabel]
  case calls =>
    rintro n around record given hplace rfl hgiven
    obtain ⟨call, hcall, hmeans⟩ := (Layout.locates_call hplace).found hgiven.ne_null h
    have hfills := Layout.readBy_callType.fills Layout.callFields_lawful.names hgiven hmeans
    obtain ⟨label, hlabel, hkind⟩ := label_of_fills hfills
    refine ⟨call, label, hcall, hlabel, ?_⟩
    intro target htarget
    have hofCall : Cypher.Statement.ofCall? call = some (.connect call.sourceMethodId target
        [⟨"callType", .text call.kind.label⟩, ⟨"crossService", .flag call.crossService⟩]) := by
      rw [Cypher.Statement.ofCall?, htarget, Option.map_some]
    have hstatement := Cypher.mem_statements.mpr
      (.inr (.inr (.inr ⟨call, List.mem_of_getElem? hcall, hofCall⟩)))
    refine ⟨_, hofCall, Cypher.infix_script hstatement, ?_⟩
    rw [Cypher.rowsWith_connect, hkind, CallKind.label_ofLabel]
  case nodes =>
    rintro n m around close record given hchain hnode rfl hgiven
    obtain ⟨node, hfound, hmeans⟩ := (Layout.locates_node hchain hnode).found hgiven.ne_null h
    obtain ⟨chain, hfoundChain, hfoundNode⟩ := Option.bind_eq_some_iff.mp hfound
    have hfills := Layout.readBy_nodeType.fills Layout.pathNodeFields_lawful.names hgiven hmeans
    obtain ⟨label, hlabel, hkind⟩ := optionalLabel_of_fills hfills
    refine ⟨chain, node, label, hfoundChain, hfoundNode, hlabel, ?_⟩
    intro hknown
    obtain ⟨isLast, hblock⟩ := Report.getElem?_pathBlocks d.tables chain.id hfoundNode
    have hrows : Text.rowsWith (Report.typeMark node.level)
          (Report.nodeBlock d.tables chain.id isLast node).rows
        = (label.map fun text => Report.typeMark node.level ++ text).toList := by
      rw [Report.rowsWith_nodeBlock hknown, hkind, Option.map_map]
      simp only [Function.comp_def, CallKind.label_ofLabel]
    refine ⟨_, hblock, ?_, hrows, ?_⟩
    · intro withOverview
      exact Report.infix_report d.tables withOverview (List.mem_of_getElem? hfoundChain)
        (List.mem_of_getElem? hblock)
    · -- rows of the mark are counted above, and the tree gives at most one label
      intro text
      rw [← Text.mem_rowsWith_iff, hrows, Option.mem_toList, Option.map_eq_some_iff]
      constructor
      · rintro ⟨other, rfl, hrow⟩
        rwa [(String.append_right_inj _).mp hrow] at hlabel
      · intro hgives
        exact ⟨text, hlabel.unique hgives, rfl⟩

/-- **Labels survive as they are written.**  Every label has a kind of its own that is written with
it.  The kinds of an accepted document are canonical, so each is the kind of its label, and two of
them are equal exactly if their labels are.  And the labels in the one tree of an accepted text are
found in its script and in its report as they are. -/
theorem labels_as_written :
    KeepsLabels ClassKind.ofLabel ClassKind.label
      (fun kind => ∃ text d, Document.parse text = .ok d ∧ kind ∈ d.classKinds)
    ∧ KeepsLabels CallKind.ofLabel CallKind.label
      (fun kind => ∃ text d, Document.parse text = .ok d ∧ kind ∈ d.callKinds)
    ∧ ∀ text d, Document.parse text = .ok d →
      d.Canonical ∧ ∃ tree : Tree, tree.WrittenAs text ∧ d.ShowsLabels tree := by
  have hcanonical {text : String} {d : Document} (h : Document.parse text = .ok d) :
      d.Canonical := by
    obtain ⟨tree, -, hmeans⟩ := Schema.parse_eq_ok_iff.mp h
    exact canonical_of_means hmeans
  refine ⟨?_, ?_, ?_⟩
  · apply keepsLabels_of_inverse ClassKind.label_ofLabel
    rintro kind ⟨text, d, h, hkind⟩
    exact ClassKind.ofLabel_label ((hcanonical h).classKinds hkind)
  · apply keepsLabels_of_inverse CallKind.label_ofLabel
    rintro kind ⟨text, d, h, hkind⟩
    exact CallKind.ofLabel_label ((hcanonical h).callKinds hkind)
  · intro text d h
    obtain ⟨tree, htree, hmeans⟩ := Schema.parse_eq_ok_iff.mp h
    exact ⟨hcanonical h, tree, htree, showsLabels_of_means hmeans⟩

/-- A member that gives a text. -/
def textMember (name text : String) : List Char × Tree := (name.toList, .text text.toList)

theorem textMember_written (name text : String) (hname : name.toList.all isPlain = true := by rfl)
    (htext : text.toList.all isPlain = true := by rfl) :
    WrittenMember (textMember name text)
      ('"' :: (name.toList ++ '"' :: ':' :: '"' :: (text.toList ++ ['"']))) :=
  writtenMember_plain name (.text (spellsAll_self htext).isBody) hname

/-- A class with a label in which there is a quote, and a class with null instead. -/
def labelledClasses : List Tree :=
  [.object [textMember "type" "A'B"], .object [("type".toList, .null)]]

/-- A call with a label, and a call without. -/
def labelledCalls : List Tree :=
  [.object [textMember "targetMethodId" "m", textMember "callType" "RPC"],
    .object [textMember "targetMethodId" "m"]]

/-- A node with the empty label, and a node with null instead. -/
def labelledNodes : List Tree :=
  [.object [textMember "callType" ""], .object [("callType".toList, .null)]]

/-- The tree of a document with these records, and with a method.  The ids that are not given are
all the same, so the nodes are known. -/
def labelledTree : Tree :=
  .object [("classes".toList, .list labelledClasses), ("methods".toList, .list [.object []]),
    ("methodCalls".toList, .list labelledCalls),
    ("callChains".toList, .list [.object [("chain".toList, .list labelledNodes)]])]

/-- A text of that tree. -/
def labelledText : String :=
  "\x7b\"classes\":[\x7b\"type\":\"A'B\"\x7d,\x7b\"type\":null\x7d],\"methods\":[\x7b\x7d],"
    ++ "\"methodCalls\":[\x7b\"targetMethodId\":\"m\",\"callType\":\"RPC\"\x7d,"
    ++ "\x7b\"targetMethodId\":\"m\"\x7d],"
    ++ "\"callChains\":[\x7b\"chain\":[\x7b\"callType\":\"\"\x7d,"
    ++ "\x7b\"callType\":null\x7d]\x7d]\x7d"

/-- The nodes that are loaded from it. -/
def labelledPath : List PathNode := [{ kind := some (.other "") }, {}]

/-- The document that is loaded from it. -/
def labelledShop : Document where
  classes := [{ kind := .other "A'B" }, {}]
  methods := [{}]
  calls := [{ targetMethodId := some "m", kind := .other "RPC" }, { targetMethodId := some "m" }]
  chains := [{ path := labelledPath }]

theorem labelledText_parse : Document.parse labelledText = .ok labelledShop := by
  have h : (Document.parse labelledText).toOption = some labelledShop := by decide +kernel
  cases hparse : Document.parse labelledText with
  | error rejection =>
    rw [hparse] at h
    cases h
  | ok d =>
    rw [hparse] at h
    rw [Option.some.inj h]

theorem labelledTree_writtenAs : labelledTree.WrittenAs labelledText := by
  have hclasses : Sequence Written labelledClasses _ :=
    (Sequence.single (.object (Sequence.single (textMember_written "type" "A'B")))).append
      (Sequence.single (.object (Sequence.single (writtenMember_plain "type" .null))))
  have hmethods : Sequence Written [.object []] _ := Sequence.single (.emptyObject isGap_nil)
  have htarget := Sequence.single (textMember_written "targetMethodId" "m")
  have hcalls : Sequence Written labelledCalls _ :=
    (Sequence.single (.object (htarget.append
      (Sequence.single (textMember_written "callType" "RPC"))))).append
      (Sequence.single (.object htarget))
  have hnodes : Sequence Written labelledNodes _ :=
    (Sequence.single (.object (Sequence.single (textMember_written "callType" "")))).append
      (Sequence.single (.object (Sequence.single (writtenMember_plain "callType" .null))))
  have hchains := Sequence.single (Written.object
    (Sequence.single (writtenMember_plain "chain" (.list hnodes))))
  have htext := writtenAs_object
    ((Sequence.single (writtenMember_plain "classes" (.list hclasses))).append
      ((Sequence.single (writtenMember_plain "methods" (.list hmethods))).append
        ((Sequence.single (writtenMember_plain "methodCalls" (.list hcalls))).append
          (Sequence.single (writtenMember_plain "callChains" (.list hchains))))))
  exact (congrArg labelledTree.WrittenAs (by decide +kernel)).mp htext

/-- The labels that are given stand in the script and in the report as they are, also the empty one.
Where there is none, the row of a class or a call says that it is unknown, and a node has no row. -/
theorem labels_as_written_shop :
    Document.parse labelledText = .ok labelledShop
    ∧ Text.rowsWith "  type: " (Cypher.Statement.ofClass { kind := .other "A'B" }).rows
      = ["  type: 'A\\'B'"]
    ∧ Text.rowsWith "  type: " (Cypher.Statement.ofClass {}).rows = ["  type: 'UNKNOWN'"]
    ∧ (∃ statement,
      Cypher.Statement.ofCall? { targetMethodId := some "m", kind := .other "RPC" } = some statement
      ∧ Text.rowsWith "  callType: " statement.rows = ["  callType: 'RPC',"])
    ∧ (∃ statement, Cypher.Statement.ofCall? { targetMethodId := some "m" } = some statement
      ∧ Text.rowsWith "  callType: " statement.rows = ["  callType: 'UNKNOWN',"])
    ∧ (∃ block, (Report.pathBlocks labelledShop.tables "" labelledPath)[0]? = some block
      ∧ Text.rowsWith "     Type: " block.rows = ["     Type: "])
    ∧ ∃ block, (Report.pathBlocks labelledShop.tables "" labelledPath)[1]? = some block
      ∧ Text.rowsWith "     Type: " block.rows = [] := by
  obtain ⟨-, tree, htree, hshows⟩ :=
    labels_as_written.2.2 labelledText labelledShop labelledText_parse
  obtain rfl := htree.unique labelledTree_writtenAs
  have hgiven {label : String} {found : Option String} (hplain : label.toList.all isPlain = true)
      (h : GivesLabel (some (.text label.toList)) found) : found = some label :=
    h.unique (.text (spellsAll_self hplain))
  have hknown (kind : Option CallKind) : labelledShop.tables.KnowsNode { kind := kind } := by
    simp [Tables.KnowsNode, labelledShop, Document.tables, Table.ofRecords, Tables.method?,
      Tables.class?]
  have hmark : Report.typeMark 0 = "     Type: " := by decide +kernel
  refine ⟨labelledText_parse, ?_, ?_, ?_, ?_, ?_, ?_⟩
  · obtain ⟨c, label, hc, hlabel, -, hrows⟩ := hshows.classes
      (.intro [] _ (.member [] _ spellsAll_self)) rfl (.member [] [] _ spellsAll_self)
    obtain rfl := Option.some.inj hc
    rw [hrows, hgiven rfl hlabel]
    decide +kernel
  · obtain ⟨c, label, hc, hlabel, -, hrows⟩ := hshows.classes
      (.intro [_] [] (.member [] _ spellsAll_self)) rfl (.member [] [] _ spellsAll_self)
    obtain rfl := Option.some.inj hc
    rw [hrows, hlabel.unique .null]
    decide +kernel
  · obtain ⟨call, label, hcall, hlabel, hrow⟩ := hshows.calls
      (.intro [] _ (.member [_, _] _ spellsAll_self)) rfl (.member [_] [] _ spellsAll_self)
    obtain rfl := Option.some.inj hcall
    obtain ⟨statement, hstatement, -, hrows⟩ := hrow "m" rfl
    refine ⟨statement, hstatement, ?_⟩
    rw [hrows, hgiven rfl hlabel]
    decide +kernel
  · have hnone : ∀ member ∈ [textMember "targetMethodId" "m"], ¬ Spelled "callType" member := by
      intro member hmember hspelled
      obtain rfl := List.mem_singleton.mp hmember
      exact absurd (hspelled.unique spellsAll_self) (by decide)
    obtain ⟨call, label, hcall, hlabel, hrow⟩ := hshows.calls
      (.intro [_] [] (.member [_, _] _ spellsAll_self)) rfl (.absent hnone)
    obtain rfl := Option.some.inj hcall
    obtain ⟨statement, hstatement, -, hrows⟩ := hrow "m" rfl
    refine ⟨statement, hstatement, ?_⟩
    rw [hrows, hlabel.unique .missing]
    decide +kernel
  · obtain ⟨chain, node, label, hchain, hnode, hlabel, hrow⟩ := hshows.nodes
      (.intro [] [] (.member [_, _, _] [] spellsAll_self))
      (.intro [] _ (.member [] [] spellsAll_self)) rfl (.member [] [] _ spellsAll_self)
    obtain rfl := Option.some.inj hchain
    obtain rfl := Option.some.inj hnode
    obtain ⟨block, hblock, -, hrows, -⟩ := hrow (hknown _)
    refine ⟨block, hblock, ?_⟩
    rw [← hmark, hrows, hgiven rfl hlabel]
    simp
  · obtain ⟨chain, node, label, hchain, hnode, hlabel, hrow⟩ := hshows.nodes
      (.intro [] [] (.member [_, _, _] [] spellsAll_self))
      (.intro [_] [] (.member [] [] spellsAll_self)) rfl (.member [] [] _ spellsAll_self)
    obtain rfl := Option.some.inj hchain
    obtain rfl := Option.some.inj hnode
    obtain ⟨block, hblock, -, hrows, -⟩ := hrow (hknown _)
    refine ⟨block, hblock, ?_⟩
    rw [← hmark, hrows, hlabel.unique .null]
    rfl

end Document

end CallGraph
