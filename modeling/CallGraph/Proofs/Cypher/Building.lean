import CallGraph.Proofs.Cypher.Graph
import CallGraph.Proofs.Cypher.StatementReading

/-!
# The graph that a script builds

The statements of a script are read from its text and run one after the other, beginning with an
empty graph.  The graph at the end has a node for each record and the relationships of each call,
and a relationship finds every method of the document, because the methods come before all calls.

* `build` — the graph of a script;
* `recordNodes` — the nodes of the records of a document, with `mem_methodPlaces_recordNodes` and
  `countP_recordNodes` for the methods among them;
* `links_run_statements` — the relationships of the calls;
* `build_script` — what the graph of a script is.
-/

namespace CallGraph

/-- The number of methods of a document that have an id. -/
def Document.methodCount (d : Document) (id : String) : Nat := d.methods.countP fun m => m.id = id

namespace Cypher

/-- The graph that the statements of a text build; `none` if the text is no script. -/
def build (text : String) : Option Graph := (readStatements text).map fun ss => Graph.run {} ss

/-! ### The nodes of records -/

/-- A service with its values. -/
def Node.ofService (r : Service) : Node :=
  ⟨"Service", [⟨"id", .text r.id⟩, ⟨"name", .text r.name⟩, ⟨"artifactId", .text r.artifactId⟩]⟩

/-- A class with its values. -/
def Node.ofClass (r : Class) : Node :=
  ⟨"Class", [⟨"id", .text r.id⟩, ⟨"name", .text r.className⟩,
    ⟨"qualifiedName", .text r.qualifiedName⟩, ⟨"type", .text r.kind.label⟩]⟩

/-- A method with its values. -/
def Node.ofMethod (r : Method) : Node :=
  ⟨"Method", [⟨"id", .text r.id⟩, ⟨"name", .text r.methodName⟩, ⟨"signature", .text r.signature⟩]⟩

/-- A node for each record, services before classes before methods. -/
def recordNodes (d : Document) : List Node :=
  d.services.map Node.ofService ++ d.classes.map Node.ofClass ++ d.methods.map Node.ofMethod

@[simp] theorem isMethod_ofService (id : String) (r : Service) :
    (Node.ofService r).isMethod id = false := by
  simp [Node.isMethod, Node.ofService]

@[simp] theorem isMethod_ofClass (id : String) (r : Class) :
    (Node.ofClass r).isMethod id = false := by
  simp [Node.isMethod, Node.ofClass]

@[simp] theorem isMethod_ofMethod (id : String) (r : Method) :
    (Node.ofMethod r).isMethod id = decide (r.id = id) := by
  simp [Node.isMethod, Node.ofMethod, Node.value?]

/-- The methods with an id among the nodes are those of the document. -/
theorem countP_recordNodes (d : Document) (id : String) :
    (recordNodes d).countP (Node.isMethod id) = d.methodCount id := by
  have hservices : (d.services.map Node.ofService).countP (Node.isMethod id) = 0 := by
    simp [List.countP_eq_zero]
  have hclasses : (d.classes.map Node.ofClass).countP (Node.isMethod id) = 0 := by
    simp [List.countP_eq_zero]
  have hmethods : (d.methods.map Node.ofMethod).countP (Node.isMethod id) = d.methodCount id := by
    rw [List.countP_map, Document.methodCount]
    congr 1
    funext r
    exact isMethod_ofMethod id r
  rw [recordNodes, List.countP_append, List.countP_append, hservices, hclasses, hmethods,
    Nat.zero_add]

/-- A place is found for an id if the node there is that of a method with this id. -/
theorem mem_methodPlaces_recordNodes {d : Document} {id : String} {place : Nat} :
    place ∈ methodPlaces (recordNodes d) id
      ↔ ∃ r ∈ d.methods, r.id = id ∧ (recordNodes d)[place]? = some (.ofMethod r) := by
  rw [mem_methodPlaces]
  constructor
  · rintro ⟨node, hplace, hmethod⟩
    have hnode := List.mem_of_getElem? hplace
    simp only [recordNodes, List.mem_append, List.mem_map] at hnode
    rcases hnode with (⟨r, -, rfl⟩ | ⟨r, -, rfl⟩) | ⟨r, hr, rfl⟩
    · simp at hmethod
    · simp at hmethod
    · exact ⟨r, hr, by simpa using hmethod, hplace⟩
  · rintro ⟨r, -, hid, hplace⟩
    exact ⟨.ofMethod r, hplace, by simpa using hid⟩

/-! ### Running the statements of a document -/

/-- The statements that create nodes. -/
def nodeStatements (d : Document) : List Statement :=
  d.services.map Statement.ofService ++ d.classes.map Statement.ofClass
    ++ d.methods.map Statement.ofMethod

theorem statements_eq (d : Document) :
    statements d = nodeStatements d ++ d.calls.filterMap Statement.ofCall? := by
  simp [statements, sections, nodeStatements]

/-- The nodes of these statements are those of the records. -/
theorem flatMap_newNodes (d : Document) :
    (nodeStatements d).flatMap Statement.newNodes = recordNodes d := by
  have hservices : (d.services.map Statement.ofService).flatMap Statement.newNodes
      = d.services.map Node.ofService := by
    rw [List.flatMap_map, List.map_eq_flatMap]
    rfl
  have hclasses : (d.classes.map Statement.ofClass).flatMap Statement.newNodes
      = d.classes.map Node.ofClass := by
    rw [List.flatMap_map, List.map_eq_flatMap]
    rfl
  have hmethods : (d.methods.map Statement.ofMethod).flatMap Statement.newNodes
      = d.methods.map Node.ofMethod := by
    rw [List.flatMap_map, List.map_eq_flatMap]
    rfl
  rw [nodeStatements, List.flatMap_append, List.flatMap_append, hservices, hclasses, hmethods]
  rfl

/-- The relationships of a call among the nodes of a document. -/
def callLinks (d : Document) (call : Call) : List Link :=
  (Statement.ofCall? call).toList.flatMap (Statement.newLinks (recordNodes d))

/-- The statements of a document leave the nodes of its records and the relationships of its
calls. -/
theorem run_statements (d : Document) :
    Graph.run {} (statements d) = ⟨recordNodes d, d.calls.flatMap (callLinks d)⟩ := by
  -- all sections of nodes come before the section of calls
  have hcreates : ∀ s ∈ nodeStatements d, ∀ nodes, s.newLinks nodes = [] := by
    simp only [nodeStatements, List.forall_mem_append, List.forall_mem_map]
    exact ⟨⟨fun _ _ _ => rfl, fun _ _ _ => rfl⟩, fun _ _ _ => rfl⟩
  have hconnects : ∀ s ∈ d.calls.filterMap Statement.ofCall?, s.newNodes = [] := by
    intro s hs
    obtain ⟨call, -, hcall⟩ := List.mem_filterMap.mp hs
    obtain ⟨target, -, rfl⟩ := Option.map_eq_some_iff.mp hcall
    rfl
  have hlinks : (d.calls.filterMap Statement.ofCall?).flatMap (Statement.newLinks (recordNodes d))
      = d.calls.flatMap (callLinks d) := by
    rw [List.filterMap_eq_flatMap_toList, List.flatMap_assoc]
    rfl
  rw [statements_eq, run_creates_connects hcreates hconnects, flatMap_newNodes, hlinks]

/-- A call without a target has no relationships. -/
theorem callLinks_none (d : Document) {call : Call} (h : call.resolvedTarget = none) :
    callLinks d call = [] := by
  simp [callLinks, Statement.ofCall?, h]

theorem callLinks_some (d : Document) {call : Call} {target : String}
    (h : call.resolvedTarget = some target) :
    callLinks d call = (Statement.connect call.sourceMethodId target
      [⟨"callType", .text call.kind.label⟩, ⟨"crossService", .flag call.crossService⟩]).newLinks
      (recordNodes d) := by
  simp [callLinks, Statement.ofCall?, h]

/-- The relationships that a graph has for a call with a target: one from each method with the id of
the source to each method with the id of the target, whatever their places in the document are. -/
structure Drawn (d : Document) (g : Graph) (call : Call) (target : String) (links : List Link) :
    Prop where
  mem_iff : ∀ link, link ∈ links ↔ link.kind = "CALLS"
    ∧ link.properties = [⟨"callType", .text call.kind.label⟩,
      ⟨"crossService", .flag call.crossService⟩]
    ∧ (∃ r ∈ d.methods, r.id = call.sourceMethodId ∧ g.nodes[link.source]? = some (.ofMethod r))
    ∧ ∃ r ∈ d.methods, r.id = target ∧ g.nodes[link.target]? = some (.ofMethod r)
  nodup : links.Nodup
  length_eq : links.length = d.methodCount call.sourceMethodId * d.methodCount target
  single : d.methodCount call.sourceMethodId = 1 → d.methodCount target = 1
    → ∃ link, links = [link]

theorem drawn_callLinks (d : Document) {g : Graph} (hnodes : g.nodes = recordNodes d) {call : Call}
    {target : String} (h : call.resolvedTarget = some target) :
    Drawn d g call target (callLinks d call) := by
  have hlength : (callLinks d call).length
      = d.methodCount call.sourceMethodId * d.methodCount target := by
    rw [callLinks_some d h, length_newLinks, countP_recordNodes, countP_recordNodes]
  constructor
  case mem_iff =>
    intro link
    rw [callLinks_some d h, mem_newLinks, mem_methodPlaces_recordNodes,
      mem_methodPlaces_recordNodes, hnodes]
  case nodup =>
    rw [callLinks_some d h]
    exact nodup_newLinks (recordNodes d) _
  case length_eq => exact hlength
  case single =>
    intro hsource htarget
    rw [hsource, htarget] at hlength
    exact List.length_eq_one_iff.mp hlength

/-- **The graph of a script** has a node with its values for each service, class and method, the
relationships of each call with a target, and nothing else. -/
theorem build_script (d : Document) :
    ∃ g, build (script d) = some g
      ∧ g.nodes = d.services.map Node.ofService ++ d.classes.map Node.ofClass
        ++ d.methods.map Node.ofMethod
      ∧ ∃ linksOf : Call → List Link, g.links = d.calls.flatMap linksOf
        ∧ ∀ call, (call.resolvedTarget = none → linksOf call = [])
          ∧ ∀ target, call.resolvedTarget = some target → Drawn d g call target (linksOf call) := by
  have hbuild : build (script d) = some ⟨recordNodes d, d.calls.flatMap (callLinks d)⟩ := by
    rw [build, readStatements_script, Option.map_some, run_statements]
  refine ⟨_, hbuild, rfl, callLinks d, rfl, ?_⟩
  intro call
  constructor
  · exact callLinks_none d
  · intro target htarget
    exact drawn_callLinks d rfl htarget

/-- Two methods share an id, one call leads to no method and one has no target. -/
def sharedDocument : Document where
  methods := [{ id := "a" }, { id := "a" }, { id := "b" }]
  calls := [{ sourceMethodId := "a", targetMethodId := some "b" },
    { sourceMethodId := "b", targetMethodId := some "b", crossService := true },
    { sourceMethodId := "b", targetMethodId := some "c" }, { sourceMethodId := "a" }]

/-- The call from the shared id is drawn twice and the call within one method once. -/
theorem build_script_shared : ∃ g, build (script sharedDocument) = some g ∧ g.nodes.length = 3
    ∧ g.links.length = 3 := by
  obtain ⟨g, hbuild, hnodes, linksOf, hlinks, hcalls⟩ := build_script sharedDocument
  have htwice := (hcalls { sourceMethodId := "a", targetMethodId := some "b" }).2 "b" rfl
  have honce :=
    (hcalls { sourceMethodId := "b", targetMethodId := some "b", crossService := true }).2 "b" rfl
  have hdangling := (hcalls { sourceMethodId := "b", targetMethodId := some "c" }).2 "c" rfl
  have hleaving := (hcalls { sourceMethodId := "a" }).1 rfl
  refine ⟨g, hbuild, by rw [hnodes]; rfl, ?_⟩
  rw [hlinks]
  simp [sharedDocument, htwice.length_eq, honce.length_eq, hdangling.length_eq, hleaving,
    Document.methodCount]

end Cypher

end CallGraph
