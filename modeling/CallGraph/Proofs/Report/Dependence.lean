import CallGraph.Proofs.Tables.Lookup
import CallGraph.Report
import Mathlib.Data.List.Forall2

/-!
# What a report depends on

A report shows some fields of a document and of the records that its chains refer to.  Two documents
that agree in these have the same report, with the same events; everything else in them is
irrelevant: signatures, kinds of classes, calls, the level of an entry point, the order of records.

* `PathNode.Alike`, `PathNode.AlikeAsEntry`, `Chain.Alike`, `Document.Alike` — what is shown of them
  is the same;
* `Tables.AgreeOn` — what is shown of the records that a chain refers to is the same;
* `report_congr` — then the reports are the same block;
* `report_dependence` — for texts and events, and with records in another order.
-/

namespace CallGraph

/-! ### Alike parts of documents -/

/-- What the path of a chain shows of two nodes is the same. -/
structure PathNode.Alike (a b : PathNode) : Prop where
  level : a.level = b.level
  methodId : a.methodId = b.methodId
  classId : a.classId = b.classId
  endpoint : a.endpoint = b.endpoint
  kind : a.kind.map CallKind.label = b.kind.map CallKind.label

/-- What is shown of two entry points is the same. -/
structure PathNode.AlikeAsEntry (a b : PathNode) : Prop where
  methodId : a.methodId = b.methodId
  classId : a.classId = b.classId
  serviceId : a.serviceId = b.serviceId
  endpoint : a.endpoint = b.endpoint

/-- What is shown of two chains is the same. -/
structure Chain.Alike (a b : Chain) : Prop where
  id : a.id = b.id
  maxDepth : a.maxDepth = b.maxDepth
  crossService : a.crossService = b.crossService
  involvedServices : a.involvedServices.length = b.involvedServices.length
  entry : Option.Rel PathNode.AlikeAsEntry a.entry b.entry
  path : List.Forall₂ PathNode.Alike a.path b.path

/-- The name of the project, which is empty without metadata. -/
def Document.projectName (d : Document) : String := (d.metadata.map Metadata.projectName).getD ""

/-- The time of the analysis, which is empty without metadata. -/
def Document.analysisTime (d : Document) : String := (d.metadata.map Metadata.analysisTime).getD ""

/-- What is shown of two documents is the same, apart from the records that chains refer to. -/
structure Document.Alike (d e : Document) : Prop where
  projectName : d.projectName = e.projectName
  analysisTime : d.analysisTime = e.analysisTime
  services : d.services.length = e.services.length
  classes : d.classes.length = e.classes.length
  methods : d.methods.length = e.methods.length
  calls : d.calls.length = e.calls.length
  chains : List.Forall₂ Chain.Alike d.chains e.chains

/-! ### Tables that agree -/

/-- The method and the class of a node are unknown to both tables, or known to both under the same
displayed names. -/
structure Tables.AgreeOnNode (t u : Tables) (node : PathNode) : Prop where
  method : Option.Rel (fun a b : Method => a.methodName = b.methodName)
    (t.method? node.methodId) (u.method? node.methodId)
  owner : Option.Rel
    (fun a b : Class => a.className = b.className ∧ a.qualifiedName = b.qualifiedName)
    (t.class? node.classId) (u.class? node.classId)

/-- So are the method, the class and the service of an entry point. -/
structure Tables.AgreeOnEntry (t u : Tables) (entry : PathNode) : Prop
    extends t.AgreeOnNode u entry where
  service : Option.Rel (fun a b : Service => a.name = b.name ∧ a.artifactId = b.artifactId)
    (t.service? entry.serviceId) (u.service? entry.serviceId)

/-- So are all records that a chain refers to. -/
structure Tables.AgreeOn (t u : Tables) (chain : Chain) : Prop where
  entry : ∀ entry ∈ chain.entry, t.AgreeOnEntry u entry
  path : ∀ node ∈ chain.path, t.AgreeOnNode u node

/-- Two documents differ in nothing but the order of their services, classes and methods, and
lookups find the same records in both. -/
structure Document.Rearranged (d e : Document) : Prop where
  metadata : d.metadata = e.metadata
  services : CallGraph.Rearranged Service.id d.services e.services
  classes : CallGraph.Rearranged Class.id d.classes e.classes
  methods : CallGraph.Rearranged Method.id d.methods e.methods
  calls : d.calls = e.calls
  chains : d.chains = e.chains

/-- Related options are both absent, or both there. -/
theorem rel_cases {α β : Type} {r : α → β → Prop} {a : Option α} {b : Option β}
    (h : Option.Rel r a b) :
    (a = none ∧ b = none) ∨ ∃ x y, a = some x ∧ b = some y ∧ r x y := by
  cases h with
  | none => exact .inl ⟨rfl, rfl⟩
  | some hxy => exact .inr ⟨_, _, rfl, rfl, hxy⟩

namespace Report

variable {t u : Tables}

/-! ### The overview -/

/-- The metadata show the name of the project and the time of the analysis, whether there are any
metadata or not. -/
theorem metadataRows_eq (d : Document) :
    (d.metadata.map metadataRows).getD []
      = labelled "Project: " d.projectName ++ labelled "Analysis time: " d.analysisTime := by
  rw [Document.projectName, Document.analysisTime]
  cases d.metadata with
  | none => rfl
  | some metadata => rfl

theorem overview_congr {d e : Document} (h : d.Alike e) : overview d = overview e := by
  have hcounts : countRow d = countRow e := by
    unfold countRow
    rw [h.services, h.classes, h.methods, h.calls, h.chains.length_eq]
  unfold overview
  rw [metadataRows_eq, metadataRows_eq, h.projectName, h.analysisTime, hcounts]

/-! ### The summary -/

theorem entryArrow_congr {a b : PathNode} (hmethodId : a.methodId = b.methodId)
    (hclassId : a.classId = b.classId) (h : t.AgreeOnNode u a) :
    entryArrow t a = entryArrow u b := by
  unfold entryArrow
  rw [← hmethodId, ← hclassId]
  obtain ⟨hm, hm'⟩ | ⟨method, other, hm, hm', hname⟩ := rel_cases h.method
  · rw [hm, hm']
  · obtain ⟨hc, hc'⟩ | ⟨owner, otherOwner, hc, hc', hclass, -⟩ := rel_cases h.owner
    · rw [hm, hm', hc, hc']
    · rw [hm, hm', hc, hc']
      simp only [hname, hclass]

theorem endpointText_congr {a b : Option PathNode} (h : Option.Rel PathNode.AlikeAsEntry a b) :
    endpointText a = endpointText b := by
  cases h with
  | none => rfl
  | some hentry =>
    show (PathNode.endpoint _).getD missing = (PathNode.endpoint _).getD missing
    rw [hentry.endpoint]

theorem summaryEntry_congr {a b : Chain} (hchain : a.Alike b) (h : t.AgreeOn u a) (number : Nat) :
    summaryEntry t number a = summaryEntry u number b := by
  have harrow : (a.entry.map (entryArrow t)).getD [] = (b.entry.map (entryArrow u)).getD [] := by
    obtain ⟨ha, hb⟩ | ⟨entry, other, ha, hb, hentry⟩ := rel_cases hchain.entry
    · rw [ha, hb]
      rfl
    · rw [ha, hb]
      exact entryArrow_congr hentry.methodId hentry.classId (h.entry entry ha).toAgreeOnNode
  rw [summaryEntry, summaryEntry, harrow, endpointText_congr hchain.entry, hchain.maxDepth,
    hchain.crossService]

/-- Entries are numbered by position, so the same numbers stand before the same chains. -/
theorem summaryEntries_congr {chains others : List Chain}
    (hchains : List.Forall₂ Chain.Alike chains others) (h : ∀ chain ∈ chains, t.AgreeOn u chain)
    (number : Nat) : summaryEntries t number chains = summaryEntries u number others := by
  induction hchains generalizing number with
  | nil => rfl
  | cons hchain _ ih =>
    rw [summaryEntries, summaryEntries, summaryEntry_congr hchain (h _ List.mem_cons_self),
      ih (fun chain hmem => h chain (List.mem_cons_of_mem _ hmem))]

/-! ### The details -/

theorem entryBlock_congr {a b : PathNode} (hentry : a.AlikeAsEntry b) (h : t.AgreeOnEntry u a) :
    entryBlock t a = entryBlock u b := by
  unfold entryBlock
  rw [← hentry.methodId, ← hentry.classId, ← hentry.serviceId,
    endpointText_congr (.some hentry)]
  obtain ⟨hm, hm'⟩ | ⟨method, other, hm, hm', hname⟩ := rel_cases h.method
  · rw [hm, hm']
  obtain ⟨hc, hc'⟩ | ⟨owner, otherOwner, hc, hc', -, hclass⟩ := rel_cases h.owner
  · rw [hm, hm', hc, hc']
  obtain ⟨hs, hs'⟩ | ⟨service, otherService, hs, hs', htitle, hartifact⟩ := rel_cases h.service
  · rw [hm, hm', hc, hc', hs, hs']
  · rw [hm, hm', hc, hc', hs, hs']
    simp only [hname, hclass, htitle, hartifact]

theorem nodeRows_congr {a b : PathNode} (hnode : a.Alike b) (isLast : Bool)
    (className methodName : String) :
    nodeRows isLast a className methodName = nodeRows isLast b className methodName := by
  have hkind : (a.kind.map fun kind => indent a.level ++ "   Type: " ++ kind.label)
      = b.kind.map fun kind => indent b.level ++ "   Type: " ++ kind.label := by
    have hlabel :=
      congrArg (Option.map fun label => indent b.level ++ "   Type: " ++ label) hnode.kind
    rw [Option.map_map, Option.map_map] at hlabel
    rw [hnode.level]
    exact hlabel
  rw [nodeRows, nodeRows, hkind, hnode.level, hnode.endpoint]

theorem nodeBlock_congr {a b : PathNode} (hnode : a.Alike b) (h : t.AgreeOnNode u a)
    (chainId : String) (isLast : Bool) :
    nodeBlock t chainId isLast a = nodeBlock u chainId isLast b := by
  unfold nodeBlock
  rw [← hnode.methodId, ← hnode.classId, ← hnode.level]
  obtain ⟨hm, hm'⟩ | ⟨method, other, hm, hm', hname⟩ := rel_cases h.method
  · rw [hm, hm']
  obtain ⟨hc, hc'⟩ | ⟨owner, otherOwner, hc, hc', hclass, -⟩ := rel_cases h.owner
  · rw [hm, hm', hc, hc']
  · rw [hm, hm', hc, hc']
    simp only [hname, hclass, nodeRows_congr hnode]

/-- Paths of alike nodes have the same length, so the same node is the last one. -/
theorem pathBlocks_congr {nodes others : List PathNode}
    (hnodes : List.Forall₂ PathNode.Alike nodes others) (h : ∀ node ∈ nodes, t.AgreeOnNode u node)
    (chainId : String) : pathBlocks t chainId nodes = pathBlocks u chainId others := by
  induction hnodes with
  | nil => rfl
  | @cons node other nodes others hnode hrest ih =>
    have hlast : nodes.isEmpty = others.isEmpty := by
      cases hrest with
      | nil => rfl
      | cons => rfl
    rw [pathBlocks, pathBlocks, hlast, nodeBlock_congr hnode (h node List.mem_cons_self),
      ih (fun node hmem => h node (List.mem_cons_of_mem _ hmem))]

theorem detail_congr {a b : Chain} (hchain : a.Alike b) (h : t.AgreeOn u a) :
    detail t a = detail u b := by
  have hentry : (a.entry.map (entryBlock t)).getD {} = (b.entry.map (entryBlock u)).getD {} := by
    obtain ⟨ha, hb⟩ | ⟨entry, other, ha, hb, hentry⟩ := rel_cases hchain.entry
    · rw [ha, hb]
      rfl
    · rw [ha, hb]
      exact entryBlock_congr hentry (h.entry entry ha)
  have hpath : pathBlock t a = pathBlock u b := by
    rw [pathBlock, pathBlock, hchain.id, pathBlocks_congr hchain.path h.path]
  have hstatistics : statistics a = statistics b := by
    rw [statistics, statistics, hchain.maxDepth, hchain.involvedServices, hchain.crossService]
  rw [detail, detail, hentry, hpath, hstatistics, hchain.id]

/-! ### The report -/

/-- A report depends on nothing but what it shows. -/
theorem report_congr {d e : Document} (hd : d.Alike e) (h : ∀ chain ∈ d.chains, t.AgreeOn u chain)
    (withOverview : Bool) : report t withOverview d = report u withOverview e := by
  have hsummary : summary t d = summary u e := by
    rw [summary, summary, summaryEntries_congr hd.chains h]
  have hdetails : d.chains.map (detail t) = e.chains.map (detail u) := by
    have hchains := hd.chains
    generalize d.chains = chains, e.chains = others at h hchains
    induction hchains with
    | nil => rfl
    | @cons chain other chains others hchain hrest ih =>
      rw [List.map_cons, List.map_cons, detail_congr hchain (h chain List.mem_cons_self),
        ih (fun chain hmem => h chain (List.mem_cons_of_mem _ hmem))]
  rw [report, report, overview_congr hd, hsummary, hdetails]

/-! ### Records in another order -/

theorem rel_self {α : Type} {r : α → α → Prop} (h : ∀ a, r a a) (a : Option α) :
    Option.Rel r a a := by
  cases a with
  | none => exact .none
  | some a => exact .some (h a)

theorem alike_self (chain : Chain) : chain.Alike chain where
  id := rfl
  maxDepth := rfl
  crossService := rfl
  involvedServices := rfl
  entry := rel_self (fun _ => ⟨rfl, rfl, rfl, rfl⟩) chain.entry
  path := List.forall₂_same.mpr fun _ _ => ⟨rfl, rfl, rfl, rfl, rfl⟩

/-- Tables in which the same records are found agree on all chains. -/
theorem agreeOn_of_eq (hmethods : ∀ id, t.method? id = u.method? id)
    (hclasses : ∀ id, t.class? id = u.class? id) (hservices : ∀ id, t.service? id = u.service? id)
    (chain : Chain) : t.AgreeOn u chain := by
  have hnode (node : PathNode) : t.AgreeOnNode u node := by
    refine ⟨?_, ?_⟩
    · rw [hmethods]
      refine rel_self ?_ _
      intro method
      rfl
    · rw [hclasses]
      exact rel_self (fun _ => ⟨rfl, rfl⟩) _
  refine ⟨fun entry _ => ⟨hnode entry, ?_⟩, fun node _ => hnode node⟩
  rw [hservices]
  exact rel_self (fun _ => ⟨rfl, rfl⟩) _

/-- Records in an order in which the same ones are found give the same report. -/
theorem report_rearranged {d e : Document} (h : d.Rearranged e) (withOverview : Bool) :
    report d.tables withOverview d = report e.tables withOverview e := by
  have halike : d.Alike e := {
    projectName := by rw [Document.projectName, Document.projectName, h.metadata]
    analysisTime := by rw [Document.analysisTime, Document.analysisTime, h.metadata]
    services := (h.services.perm Service.id).length_eq
    classes := (h.classes.perm Class.id).length_eq
    methods := (h.methods.perm Method.id).length_eq
    calls := by rw [h.calls]
    chains := h.chains ▸ List.forall₂_same.mpr fun chain _ => alike_self chain }
  have hmethods : ∀ id, d.tables.method? id = e.tables.method? id := h.methods.getElem?_eq Method.id
  have hclasses : ∀ id, d.tables.class? id = e.tables.class? id := h.classes.getElem?_eq Class.id
  have hservices : ∀ id, d.tables.service? id = e.tables.service? id :=
    h.services.getElem?_eq Service.id
  exact report_congr halike (fun chain _ => agreeOn_of_eq hmethods hclasses hservices chain)
    withOverview

/-- **A report depends on nothing but what it shows.**  Documents that are alike have reports with
the same text and the same events, if the tables agree on the records that the chains refer to.  So
has a document with its records in another order, be it any order of distinct ids or one in which a
record that a later one shadows has moved to an earlier place. -/
theorem report_dependence :
    (∀ {t u : Tables} {d e : Document}, d.Alike e → (∀ chain ∈ d.chains, t.AgreeOn u chain) →
      ∀ withOverview, (report t withOverview d).text = (report u withOverview e).text
        ∧ (report t withOverview d).events = (report u withOverview e).events)
    ∧ ∀ {d e : Document}, d.Rearranged e →
      ∀ withOverview, (report d.tables withOverview d).text = (report e.tables withOverview e).text
        ∧ (report d.tables withOverview d).events = (report e.tables withOverview e).events := by
  refine ⟨?_, ?_⟩
  · intro t u d e hd h withOverview
    rw [report_congr hd h withOverview]
    exact ⟨rfl, rfl⟩
  · intro d e h withOverview
    rw [report_rearranged h withOverview]
    exact ⟨rfl, rfl⟩

/-- A document with a method whose id is there twice. -/
def cartShop : Document where
  classes := [{ id := "c1", className := "Cart", qualifiedName := "shop.Cart" }]
  methods := [{ id := "m2" }, { id := "m1", methodName := "put" },
    { id := "m1", methodName := "add" }]
  chains := [{
    id := "x"
    entry := some { methodId := "m1", classId := "c1" }
    path := [{ methodId := "m1", classId := "c1" }] }]

/-- That document with other details, none of which is shown. -/
def annotatedShop : Document where
  metadata := some {}
  classes := [{ id := "c1", className := "Cart", qualifiedName := "shop.Cart", kind := .service }]
  methods := [{ id := "m3" }, { id := "m1", methodName := "add", signature := "add()" },
    { id := "m4" }]
  chains := [{
    id := "x"
    entry := some { level := 7, methodId := "m1", classId := "c1", httpEndpoint := some "" }
    path := [{ methodId := "m1", classId := "c1", serviceId := "s1" }] }]

/-- That document with its shadowed method in front. -/
def reorderedShop : Document :=
  { cartShop with
    methods := [{ id := "m1", methodName := "put" }, { id := "m2" },
      { id := "m1", methodName := "add" }] }

/-- All three have the same report. -/
theorem report_dependence_cart :
    cartShop.Alike annotatedShop
    ∧ (∀ chain ∈ cartShop.chains, cartShop.tables.AgreeOn annotatedShop.tables chain)
    ∧ cartShop.Rearranged reorderedShop
    ∧ (report cartShop.tables true cartShop).text
        = (report annotatedShop.tables true annotatedShop).text
    ∧ (report cartShop.tables true cartShop).text
        = (report reorderedShop.tables true reorderedShop).text := by
  have halike : cartShop.Alike annotatedShop := by
    refine ⟨rfl, rfl, rfl, rfl, rfl, rfl, .cons ⟨rfl, rfl, rfl, rfl, ?_, ?_⟩ .nil⟩
    · exact .some ⟨rfl, rfl, rfl, rfl⟩
    · exact .cons ⟨rfl, rfl, rfl, rfl, rfl⟩ .nil
  have hm1 : cartShop.tables.method? "m1" = some { id := "m1", methodName := "add" } :=
    (Table.getElem?_ofRecords Method.id cartShop.methods "m1").trans rfl
  have hm1' : annotatedShop.tables.method? "m1"
      = some { id := "m1", methodName := "add", signature := "add()" } :=
    (Table.getElem?_ofRecords Method.id annotatedShop.methods "m1").trans rfl
  have hnode (node : PathNode) (hm : node.methodId = "m1") (hc : node.classId = "c1") :
      cartShop.tables.AgreeOnNode annotatedShop.tables node := by
    refine ⟨?_, ?_⟩
    · rw [hm, hm1, hm1']
      exact .some rfl
    · simp [hc, cartShop, annotatedShop, Document.tables, Table.ofRecords, Tables.class?]
  have hagree : ∀ chain ∈ cartShop.chains, cartShop.tables.AgreeOn annotatedShop.tables chain := by
    intro chain hchain
    obtain rfl := List.mem_singleton.mp hchain
    refine ⟨?_, ?_⟩
    · rintro _ ⟨⟩
      refine ⟨hnode _ rfl rfl, ?_⟩
      simp [cartShop, annotatedShop, Document.tables, Table.ofRecords, Tables.service?]
    · intro node hmem
      obtain rfl := List.mem_singleton.mp hmem
      exact hnode _ rfl rfl
  have hmoved : cartShop.Rearranged reorderedShop := {
    metadata := rfl
    services := .same _
    classes := .same _
    methods := .moved [] [({ id := "m2" } : Method)]
      [({ id := "m1", methodName := "add" } : Method)] List.mem_cons_self rfl
    calls := rfl
    chains := rfl }
  exact ⟨halike, hagree, hmoved, (report_dependence.1 halike hagree true).1,
    (report_dependence.2 hmoved true).1⟩

end Report

end CallGraph
