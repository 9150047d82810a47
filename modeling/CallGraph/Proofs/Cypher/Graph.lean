import CallGraph.Cypher.Script
import Mathlib.Data.List.Nodup
import Mathlib.Data.List.ProdSigma

/-!
# What statements do to a graph

Statements are run one after the other.  One that creates a node adds it whatever the graph is; one
that creates relationships finds the nodes to join in the graph as it is at that moment.

* `Graph`, `Graph.step`, `Graph.run` — graphs, and graphs after one statement and after several;
* `run_creates`, `run_connects` — statements without relationships, and statements without nodes:
  the latter find the nodes that were there before the first of them;
* `run_creates_connects` — all nodes first;
* `mem_newLinks`, `nodup_newLinks`, `length_newLinks` — the relationships of one statement: one for
  each pair of nodes that are found.
-/

namespace CallGraph.Cypher

/-! ### Graphs -/

/-- A node. -/
structure Node where
  label : String
  properties : List Property
  deriving DecidableEq, Repr

/-- The value of a node under a name. -/
def Node.value? (node : Node) (name : String) : Option Value :=
  (node.properties.find? fun p => p.name = name).map Property.value

/-- Whether a node is a method with an id. -/
def Node.isMethod (id : String) (node : Node) : Bool :=
  node.label = "Method" ∧ node.value? "id" = some (.text id)

/-- A relationship from one node to another, which are given by their places among the nodes. -/
structure Link where
  source : Nat
  target : Nat
  kind : String
  properties : List Property
  deriving DecidableEq, Repr

/-- Nodes and relationships in the order in which they were created. -/
structure Graph where
  nodes : List Node := []
  links : List Link := []
  deriving DecidableEq, Repr

/-! ### Statements -/

/-- The places of the methods with an id. -/
def methodPlaces (nodes : List Node) (id : String) : List Nat :=
  (nodes.zipIdx.filter fun placed => placed.1.isMethod id).map Prod.snd

/-- The nodes that a statement creates. -/
def Statement.newNodes : Statement → List Node
  | .create _ label properties => [⟨label, properties⟩]
  | .connect .. => []

/-- The relationships that a statement creates among the nodes that are there: one for each pair
of a method with the first id and a method with the second. -/
def Statement.newLinks (nodes : List Node) : Statement → List Link
  | .create .. => []
  | .connect source target properties =>
    (methodPlaces nodes source ×ˢ methodPlaces nodes target).map fun (first, second) =>
      ⟨first, second, "CALLS", properties⟩

/-- A graph after one more statement. -/
def Graph.step (g : Graph) (s : Statement) : Graph where
  nodes := g.nodes ++ s.newNodes
  links := g.links ++ s.newLinks g.nodes

/-- A graph after more statements, in their order. -/
def Graph.run (g : Graph) (statements : List Statement) : Graph := statements.foldl Graph.step g

theorem run_cons (g : Graph) (s : Statement) (more : List Statement) :
    g.run (s :: more) = (g.step s).run more := rfl

theorem run_append (g : Graph) (statements more : List Statement) :
    g.run (statements ++ more) = (g.run statements).run more := List.foldl_append

/-! ### Runs -/

/-- Statements without relationships only add their nodes. -/
theorem run_creates {statements : List Statement}
    (h : ∀ s ∈ statements, ∀ nodes, s.newLinks nodes = []) (g : Graph) :
    g.run statements = ⟨g.nodes ++ statements.flatMap Statement.newNodes, g.links⟩ := by
  induction statements generalizing g with
  | nil => rw [List.flatMap_nil, List.append_nil, Graph.run, List.foldl_nil]
  | cons s statements ih =>
    obtain ⟨hs, hmore⟩ := List.forall_mem_cons.mp h
    rw [run_cons, ih hmore, Graph.step, hs, List.append_nil, List.append_assoc, List.flatMap_cons]

/-- **Relationships do not disturb each other**: statements without nodes all find the nodes that
were there before the first of them. -/
theorem run_connects {statements : List Statement} (h : ∀ s ∈ statements, s.newNodes = [])
    (g : Graph) :
    g.run statements = ⟨g.nodes, g.links ++ statements.flatMap (Statement.newLinks g.nodes)⟩ := by
  induction statements generalizing g with
  | nil => rw [List.flatMap_nil, List.append_nil, Graph.run, List.foldl_nil]
  | cons s statements ih =>
    obtain ⟨hs, hmore⟩ := List.forall_mem_cons.mp h
    rw [run_cons, ih hmore, Graph.step, hs, List.append_nil, List.append_assoc, List.flatMap_cons]

/-- Where all nodes are created first, every relationship finds its methods among all of them. -/
theorem run_creates_connects {creates connects : List Statement}
    (hcreates : ∀ s ∈ creates, ∀ nodes, s.newLinks nodes = [])
    (hconnects : ∀ s ∈ connects, s.newNodes = []) :
    Graph.run {} (creates ++ connects) = ⟨creates.flatMap Statement.newNodes,
      connects.flatMap (Statement.newLinks (creates.flatMap Statement.newNodes))⟩ := by
  rw [run_append, run_creates hcreates, run_connects hconnects]
  rfl

/-! ### The relationships of one statement -/

variable {nodes : List Node} {id source target : String} {ps : List Property}

theorem mem_methodPlaces {place : Nat} : place ∈ methodPlaces nodes id
    ↔ ∃ node, nodes[place]? = some node ∧ node.isMethod id = true := by
  simp only [methodPlaces, List.mem_map, List.mem_filter, Prod.exists, exists_eq_right,
    List.mk_mem_zipIdx_iff_getElem?]

theorem nodup_methodPlaces (nodes : List Node) (id : String) : (methodPlaces nodes id).Nodup := by
  have hplaces : (nodes.zipIdx.map Prod.snd).Nodup := by
    rw [List.zipIdx_map_snd]
    exact List.nodup_range'
  exact hplaces.sublist (List.filter_sublist.map Prod.snd)

theorem length_methodPlaces (nodes : List Node) (id : String) :
    (methodPlaces nodes id).length = nodes.countP (Node.isMethod id) := by
  have hcount : nodes.zipIdx.countP (fun placed => placed.1.isMethod id)
      = (nodes.zipIdx.map Prod.fst).countP (Node.isMethod id) := by
    rw [List.countP_map]
    rfl
  rw [methodPlaces, List.length_map, ← List.countP_eq_length_filter, hcount, List.zipIdx_map_fst]

/-- A relationship lies between a method with the first id and one with the second. -/
theorem mem_newLinks {link : Link} : link ∈ (Statement.connect source target ps).newLinks nodes
    ↔ link.kind = "CALLS" ∧ link.properties = ps
      ∧ link.source ∈ methodPlaces nodes source ∧ link.target ∈ methodPlaces nodes target := by
  obtain ⟨first, second, kind, properties⟩ := link
  simp only [Statement.newLinks, List.mem_map, Prod.exists, List.mem_product, Link.mk.injEq]
  constructor
  · rintro ⟨first, second, hpair, rfl, rfl, rfl, rfl⟩
    exact ⟨rfl, rfl, hpair⟩
  · rintro ⟨rfl, rfl, hpair⟩
    exact ⟨first, second, hpair, rfl, rfl, rfl, rfl⟩

/-- No two nodes are joined twice. -/
theorem nodup_newLinks (nodes : List Node) (s : Statement) : (s.newLinks nodes).Nodup := by
  cases s with
  | create => exact List.nodup_nil
  | connect source target ps =>
    have hpairs := (nodup_methodPlaces nodes source).product (nodup_methodPlaces nodes target)
    refine hpairs.map ?_
    intro pair other heq
    simp only [Link.mk.injEq] at heq
    exact Prod.ext heq.1 heq.2.1

/-- There are as many relationships as pairs of methods. -/
theorem length_newLinks (nodes : List Node) (source target : String) (ps : List Property) :
    ((Statement.connect source target ps).newLinks nodes).length
      = nodes.countP (Node.isMethod source) * nodes.countP (Node.isMethod target) := by
  rw [Statement.newLinks, List.length_map, List.length_product, length_methodPlaces,
    length_methodPlaces]

end CallGraph.Cypher
