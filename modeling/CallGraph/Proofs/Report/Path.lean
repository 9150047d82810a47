import CallGraph.Proofs.Report.Omissions
import Mathlib.Data.List.Forall2

/-!
# Paths node by node

The rows of a path are made in one pass, in which a node may be left out, may have one row or up to
three, and has a connector of its own if it is the last one.  Still the nodes do not depend on each
other, but for the question which of them is last.  That is a matter of positions: a node that is
left out keeps its place.

* `Contributes` — what a node adds to its path: rows, or the event that it is left out;
* `forall₂_pathBlocks` — the nodes of a path contribute one after the other;
* `pathBlocks_append`, `rows_pathBlocks_skip` — paths put together, and without an unknown node;
* `countP_marked` — the connectors in the rows of a path;
* `path_nodewise` — all of it.
-/

namespace CallGraph.Report

/-! ### What a node contributes -/

/-- The blanks before every row of a node: two for each level up to 64, and two more. -/
def blanks (level : UInt64) : String :=
  String.ofList (List.replicate (2 * (min level.toNat 64 + 1)) ' ')

/-- The rows of a node without their blanks. -/
def nodeTexts (mark : String) (node : PathNode) (className methodName : String) : List String :=
  (mark ++ " [Level " ++ toString node.level.toNat ++ "] " ++ className ++ "." ++ methodName ++ "()")
    :: (node.endpoint.map fun endpoint => "   HTTP: " ++ endpoint).toList
    ++ (node.kind.map fun kind => "   Type: " ++ kind.label).toList

/-- What a node adds to its path.  If its method and class are known, these are rows behind the same
blanks, the first with a mark; otherwise it is an event. -/
inductive Contributes (t : Tables) (chainId mark : String) (node : PathNode) : Block → Prop
  | shown {method : Method} {owner : Class} (hmethod : t.method? node.methodId = some method)
      (howner : t.class? node.classId = some owner) :
      Contributes t chainId mark node
        { rows := (nodeTexts mark node owner.className method.methodName).map
            (blanks node.level ++ ·) }
  | skipped (hunknown : ¬ t.KnowsNode node) :
      Contributes t chainId mark node { events := [skipEvent chainId node] }

theorem indent_eq_blanks (level : UInt64) : indent level = blanks level := by
  apply String.toList_inj.mp
  rw [toList_indent, blanks, String.toList_ofList]

theorem nodeRows_eq (isLast : Bool) (node : PathNode) (className methodName : String) :
    nodeRows isLast node className methodName
      = (nodeTexts (connector isLast) node className methodName).map (blanks node.level ++ ·) := by
  unfold nodeRows nodeTexts callText
  rw [indent_eq_blanks]
  cases node.endpoint <;> cases node.kind <;> simp [String.append_assoc]

variable (t : Tables)

theorem nodeBlock_of_unknown {node : PathNode} (h : ¬ t.KnowsNode node) (chainId : String)
    (isLast : Bool) : nodeBlock t chainId isLast node = { events := [skipEvent chainId node] } := by
  obtain ⟨hknown, -⟩ | ⟨-, hblock⟩ := nodeBlock_cases t chainId isLast node
  · exact absurd hknown h
  · exact hblock

theorem contributes_nodeBlock (chainId : String) (isLast : Bool) (node : PathNode) :
    Contributes t chainId (connector isLast) node (nodeBlock t chainId isLast node) := by
  by_cases hknown : t.KnowsNode node
  · obtain ⟨method, owner, hmethod, howner⟩ := Tables.knowsNode_iff.mp hknown
    rw [nodeBlock, hmethod, howner]
    show Contributes t chainId (connector isLast) node
      { rows := nodeRows isLast node owner.className method.methodName }
    rw [nodeRows_eq]
    exact .shown hmethod howner
  · rw [nodeBlock_of_unknown t hknown]
    exact .skipped hknown

/-! ### Nodes by position -/

/-- The mark of the node at a position of a path of some length. -/
def markAt (position length : Nat) : String := if position + 1 = length then "└─" else "├─"

/-- Each node of a path contributes once, in order, and only the last position has its own mark. -/
theorem forall₂_pathBlocks (chainId : String) (start : Nat) (nodes : List PathNode) :
    List.Forall₂ (fun place block =>
        Contributes t chainId (markAt place.2 (start + nodes.length)) place.1 block)
      (nodes.zipIdx start) (pathBlocks t chainId nodes) := by
  induction nodes generalizing start with
  | nil => exact .nil
  | cons node nodes ih =>
    -- no node behind this one is the same as the position just before the end
    have hmark : connector nodes.isEmpty = markAt start (start + (node :: nodes).length) := by
      cases nodes with
      | nil => simp [connector, markAt]
      | cons next nodes => simp [connector, markAt]
    have hlength : start + (node :: nodes).length = start + 1 + nodes.length := by
      rw [List.length_cons]
      omega
    rw [pathBlocks, List.zipIdx_cons]
    refine .cons ?_ ?_
    · rw [← hmark]
      exact contributes_nodeBlock t chainId nodes.isEmpty node
    · rw [hlength]
      exact ih (start + 1)

/-! ### Paths put together -/

theorem Block.join_append (blocks others : List Block) :
    Block.join (blocks ++ others) = Block.join blocks ++ Block.join others := by
  show Block.mk _ _ = Block.mk _ _
  rw [List.flatMap_append, List.flatMap_append]
  rfl

/-- The nodes with others behind them are none of them last. -/
theorem pathBlocks_append (chainId : String) (front : List PathNode) {back : List PathNode}
    (hback : back ≠ []) : pathBlocks t chainId (front ++ back)
      = front.map (nodeBlock t chainId false) ++ pathBlocks t chainId back := by
  induction front with
  | nil => rfl
  | cons node front ih =>
    have hmore : (front ++ back).isEmpty = false := by
      simp [hback]
    rw [List.cons_append, pathBlocks, hmore, ih, List.map_cons, List.cons_append]

/-- An unknown node that is not last adds no rows between the others. -/
theorem rows_pathBlocks_skip (chainId : String) (front : List PathNode) {node : PathNode}
    {back : List PathNode} (hback : back ≠ []) (hunknown : ¬ t.KnowsNode node) :
    (pathBlocks t chainId (front ++ node :: back)).flatMap Block.rows
      = (pathBlocks t chainId (front ++ back)).flatMap Block.rows := by
  have hnode : (nodeBlock t chainId false node).rows = [] := by
    rw [nodeBlock_of_unknown t hunknown]
  -- the nodes in front have others behind them with the unknown node and without it
  have hcons : pathBlocks t chainId (node :: back)
      = [node].map (nodeBlock t chainId false) ++ pathBlocks t chainId back :=
    pathBlocks_append t chainId [node] hback
  rw [pathBlocks_append t chainId front (List.cons_ne_nil node back), hcons,
    pathBlocks_append t chainId front hback]
  simp [hnode]

/-- The events of a chain, with an unknown node taken out of its path. -/
theorem chainEvents_skip (chain : Chain) (front back : List PathNode) {node : PathNode}
    (hunknown : ¬ t.KnowsNode node) :
    ∃ after, chainEvents t { chain with path := front ++ node :: back }
        = chainEvents t { chain with path := front } ++ skipEvent chain.id node :: after
      ∧ chainEvents t { chain with path := front ++ back }
        = chainEvents t { chain with path := front } ++ after := by
  refine ⟨(back.filter fun node => ¬ t.KnowsNode node).map (skipEvent chain.id), ?_, ?_⟩
  · simp [chainEvents, hunknown]
  · simp [chainEvents]

/-! ### Connectors -/

/-- A row shows a mark behind its blanks. -/
def marked (mark row : String) : Bool := mark.toList.isPrefixOf (row.toList.dropWhile (· = ' '))

theorem marked_blanks (mark text : String) (level : UInt64) :
    marked mark (blanks level ++ text) = marked mark text := by
  have hblanks : ∀ c ∈ (blanks level).toList, decide (c = ' ') = true := by
    simp [blanks]
  rw [marked, String.toList_append, List.dropWhile_append_of_pos hblanks, marked]

/-- A node that is known has a connector in one row, and others have none. -/
theorem countP_marked_nodeBlock (chainId : String) (isLast shownLast : Bool) (node : PathNode) :
    (nodeBlock t chainId isLast node).rows.countP (marked (connector shownLast))
      = if t.KnowsNode node ∧ isLast = shownLast then 1 else 0 := by
  obtain ⟨hknown, className, methodName, hblock⟩ | ⟨hunknown, hblock⟩ :=
    nodeBlock_cases t chainId isLast node
  · rw [hblock, nodeRows_eq, List.countP_map]
    simp only [Function.comp_def, marked_blanks, nodeTexts, connector]
    cases isLast <;> cases shownLast <;> cases node.endpoint <;> cases node.kind
      <;> simp [marked, hknown]
  · simp [hblock, hunknown]

theorem countP_marked_map (chainId : String) (isLast shownLast : Bool) (nodes : List PathNode) :
    ((nodes.map (nodeBlock t chainId isLast)).flatMap Block.rows).countP
        (marked (connector shownLast))
      = if isLast = shownLast then nodes.countP fun node => t.KnowsNode node else 0 := by
  induction nodes with
  | nil => simp
  | cons node nodes ih =>
    rw [List.map_cons, List.flatMap_cons, List.countP_append, ih, countP_marked_nodeBlock,
      List.countP_cons]
    by_cases hmark : isLast = shownLast <;> by_cases hknown : t.KnowsNode node
      <;> simp [hmark, hknown, Nat.add_comm]

/-- The rows of a path have a connector for each known node, which is the other one for the last. -/
theorem countP_marked_concat (chainId : String) (shownLast : Bool) (front : List PathNode)
    (node : PathNode) :
    ((pathBlocks t chainId (front ++ [node])).flatMap Block.rows).countP
        (marked (connector shownLast))
      = if shownLast then (if t.KnowsNode node then 1 else 0)
        else front.countP fun node => t.KnowsNode node := by
  rw [pathBlocks_append t chainId front (List.cons_ne_nil node []), List.flatMap_append,
    List.countP_append, countP_marked_map]
  show _ + ((nodeBlock t chainId true node).rows ++ []).countP _ = _
  rw [List.append_nil, countP_marked_nodeBlock]
  cases shownLast
  · simp
  · simp

/-- The mark of the last node is there once if that node is known, whatever else is known, and the
other mark once for each other node that is known. -/
theorem countP_marked (shownLast : Bool) (chain : Chain) :
    (pathBlock t chain).rows.countP (marked (connector shownLast))
      = if shownLast then (if ∃ node ∈ chain.path.getLast?, t.KnowsNode node then 1 else 0)
        else chain.path.dropLast.countP fun node => t.KnowsNode node := by
  show (["", "🔗 Call path:"] ++ (pathBlocks t chain.id chain.path).flatMap Block.rows).countP
    (marked (connector shownLast)) = _
  have hheading : ["", "🔗 Call path:"].countP (marked (connector shownLast)) = 0 := by
    revert shownLast
    decide
  rw [List.countP_append, hheading, Nat.zero_add]
  obtain hpath | ⟨front, node, hpath⟩ := List.eq_nil_or_concat' chain.path
  · simp [hpath, pathBlocks]
  · rw [hpath, countP_marked_concat]
    simp

/-! ### All of it -/

/-- **A path is made node by node.**  Each node contributes its rows or its event, in order, and no
indent leaves the words it is computed in.  The mark of the last node is there exactly if the node
at the last position is known, and all other known nodes have the other mark.  An unknown node that
is not last can be taken out of a path: the text of the detail stays and just the event of the node
goes.  A path put together of two is the rows of the first, with no node marked as its last, and the
path of the second. -/
theorem path_nodewise (chain : Chain) :
    pathBlock t chain
        = { rows := ["", "🔗 Call path:"] } ++ Block.join (pathBlocks t chain.id chain.path)
    ∧ List.Forall₂ (fun place block =>
        Contributes t chain.id (markAt place.2 chain.path.length) place.1 block)
      chain.path.zipIdx (pathBlocks t chain.id chain.path)
    ∧ ((pathBlock t chain).rows.countP (marked "└─")
        = if ∃ node ∈ chain.path.getLast?, t.KnowsNode node then 1 else 0)
    ∧ ((pathBlock t chain).rows.countP (marked "├─")
        = chain.path.dropLast.countP fun node => t.KnowsNode node)
    ∧ (∀ front node back, back ≠ [] → ¬ t.KnowsNode node →
        (detail t { chain with path := front ++ back }).text
          = (detail t { chain with path := front ++ node :: back }).text
        ∧ ∃ after, (detail t { chain with path := front ++ node :: back }).events
            = chainEvents t { chain with path := front } ++ skipEvent chain.id node :: after
          ∧ (detail t { chain with path := front ++ back }).events
            = chainEvents t { chain with path := front } ++ after)
    ∧ ∀ front back, back ≠ [] →
        ∃ branches, List.Forall₂ (Contributes t chain.id "├─") front branches
          ∧ Block.join (pathBlocks t chain.id (front ++ back))
            = Block.join branches ++ Block.join (pathBlocks t chain.id back) := by
  refine ⟨rfl, ?_, countP_marked t true chain, countP_marked t false chain, ?_, ?_⟩
  · have hnodes := forall₂_pathBlocks t chain.id 0 chain.path
    rw [Nat.zero_add] at hnodes
    exact hnodes
  · intro front node back hback hunknown
    have hrows := rows_pathBlocks_skip t chain.id front hback hunknown
    refine ⟨?_, ?_⟩
    · show Text.unlines (_ ++ (_ ++ (pathBlocks t chain.id (front ++ back)).flatMap Block.rows) ++ _)
        = Text.unlines
          (_ ++ (_ ++ (pathBlocks t chain.id (front ++ node :: back)).flatMap Block.rows) ++ _)
      rw [hrows]
      rfl
    · rw [events_detail, events_detail]
      exact chainEvents_skip t chain front back hunknown
  · intro front back hback
    refine ⟨front.map (nodeBlock t chain.id false), ?_, ?_⟩
    · rw [List.forall₂_map_right_iff, List.forall₂_same]
      intro node _
      exact contributes_nodeBlock t chain.id false node
    · rw [pathBlocks_append t chain.id front hback, Block.join_append]

/-- A known node at the deepest level that there is. -/
def deepNode : PathNode where
  level := 18446744073709551615
  methodId := "m1"
  classId := "c1"
  httpEndpoint := some "/add"

/-- A node whose method is not known. -/
def strayNode : PathNode where
  methodId := "m2"
  classId := "c1"

/-- A path with the unknown node in its middle. -/
def brokenChain : Chain where
  id := "x"
  path := [deepNode, strayNode, deepNode]

/-- Without that node the text stays the same, and both marks are there once. -/
theorem path_nodewise_broken :
    ¬ looseShop.tables.KnowsNode strayNode
    ∧ (detail looseShop.tables { brokenChain with path := [deepNode, deepNode] }).text
        = (detail looseShop.tables brokenChain).text
    ∧ (detail looseShop.tables brokenChain).events = [.nodeSkipped "x" 0 "m2" "c1"]
    ∧ (pathBlock looseShop.tables brokenChain).rows.countP (marked "└─") = 1
    ∧ (pathBlock looseShop.tables brokenChain).rows.countP (marked "├─") = 1 := by
  obtain ⟨-, -, hlast, hothers, hskip, -⟩ := path_nodewise looseShop.tables brokenChain
  have hm1 : (looseShop.tables.method? "m1").isSome := by
    simp [looseShop, Document.tables, Table.ofRecords, Tables.method?]
  have hm2 : looseShop.tables.method? "m2" = none := by
    simp [looseShop, Document.tables, Table.ofRecords, Tables.method?]
  have hc1 : (looseShop.tables.class? "c1").isSome := by
    simp [looseShop, Document.tables, Table.ofRecords, Tables.class?]
  have hdeep : looseShop.tables.KnowsNode deepNode := ⟨hm1, hc1⟩
  have hstray : ¬ looseShop.tables.KnowsNode strayNode := by
    intro h
    cases hm2 ▸ h.1
  have hevents : chainEvents looseShop.tables brokenChain = [skipEvent "x" strayNode] := by
    simp [chainEvents, brokenChain, hdeep, hstray]
  refine ⟨hstray, ?_, ?_, ?_, ?_⟩
  · exact (hskip [deepNode] strayNode [deepNode] (List.cons_ne_nil _ _) hstray).1
  · rw [events_detail, hevents]
    rfl
  · rw [hlast]
    simp [brokenChain, hdeep]
  · rw [hothers]
    simp [brokenChain, hdeep, hstray]

end CallGraph.Report
