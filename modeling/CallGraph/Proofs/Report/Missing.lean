import CallGraph.Proofs.Text.Rows
import CallGraph.Report
import Mathlib.Data.List.Forall2

/-!
# Reports with missing records

Two sets of tables are compared: whatever the first one knows, the second one knows under the same
displayed names.  A report with the first tables is then the report with the second ones with lines
left out, and each line that is left out for a missing record is accounted for by an event.

Numbers, indents and connectors are the reason why this needs a proof.  None of them may depend on
which other records are known, so that no line is changed, only left out.

* `Tables.ShownIn` — what one set of tables shows is shown by another one in the same way;
* `Block.Within` — a block has rows of another one only, and all of its events;
* `entryBlock_within`, `nodeBlock_within`, `pathBlocks_within` — the parts of a chain;
* `report_within` — the report, the summary and the details.
-/

namespace CallGraph

/-- Every record that `t` knows has a counterpart in `u` with the same displayed names. -/
structure Tables.ShownIn (t u : Tables) : Prop where
  methods {id : String} {method : Method} (h : t.method? id = some method) :
    ∃ other, u.method? id = some other ∧ other.methodName = method.methodName
  classes {id : String} {owner : Class} (h : t.class? id = some owner) :
    ∃ other, u.class? id = some other ∧ other.className = owner.className
      ∧ other.qualifiedName = owner.qualifiedName
  services {id : String} {service : Service} (h : t.service? id = some service) :
    ∃ other, u.service? id = some other ∧ other.name = service.name
      ∧ other.artifactId = service.artifactId

namespace Report

/-! ### Blocks within blocks -/

/-- The rows of `a` are some of those of `b`, and `a` has all events of `b`. -/
structure Block.Within (a b : Block) : Prop where
  rows : a.rows.Sublist b.rows
  events : b.events.Sublist a.events

namespace Block.Within

theorem refl (a : Block) : a.Within a := ⟨.refl a.rows, .refl a.events⟩

theorem append {a b c d : Block} (h : a.Within b) (hcd : c.Within d) : (a ++ c).Within (b ++ d) :=
  ⟨h.rows.append hcd.rows, h.events.append hcd.events⟩

/-- Blocks that lie within others one by one do so together. -/
theorem join {blocks others : List Block} (h : List.Forall₂ Block.Within blocks others) :
    (Block.join blocks).Within (Block.join others) := by
  induction h with
  | nil => exact .refl _
  | cons hfirst _ ih => exact ⟨hfirst.rows.append ih.rows, hfirst.events.append ih.events⟩

/-- Lines are left out with their rows. -/
theorem lines {a b : Block} (h : a.Within b) : (Text.lines a.text).Sublist (Text.lines b.text) :=
  Text.lines_unlines_sublist h.rows

end Block.Within

variable {t u : Tables}

/-! ### The summary -/

/-- The method of an entry point is shown in the same way, or not at all. -/
theorem entryArrow_sublist (h : t.ShownIn u) (entry : PathNode) :
    (entryArrow t entry).Sublist (entryArrow u entry) := by
  unfold entryArrow
  split
  · rename_i method owner hmethod howner
    obtain ⟨otherMethod, hother, hname⟩ := h.methods hmethod
    obtain ⟨otherOwner, hotherOwner, hclass, -⟩ := h.classes howner
    rw [hother, hotherOwner]
    simp only [hname, hclass]
    exact .refl _
  · exact List.nil_sublist _

theorem summaryEntry_sublist (h : t.ShownIn u) (number : Nat) (chain : Chain) :
    (summaryEntry t number chain).Sublist (summaryEntry u number chain) := by
  have harrow : ((chain.entry.map (entryArrow t)).getD []).Sublist
      ((chain.entry.map (entryArrow u)).getD []) := by
    cases chain.entry with
    | none => exact .refl _
    | some entry => exact entryArrow_sublist h entry
  exact ((List.Sublist.refl _).append harrow).append (.refl _)

/-- Entries keep their numbers, which are positions. -/
theorem summaryEntries_sublist (h : t.ShownIn u) (number : Nat) (chains : List Chain) :
    (summaryEntries t number chains).Sublist (summaryEntries u number chains) := by
  induction chains generalizing number with
  | nil => exact .refl _
  | cons chain chains ih => exact (summaryEntry_sublist h number chain).append (ih (number + 1))

theorem summary_within (h : t.ShownIn u) (d : Document) : (summary t d).Within (summary u d) :=
  ⟨(List.Sublist.refl _).append (summaryEntries_sublist h 1 d.chains), .refl _⟩

/-! ### The details -/

/-- An entry point loses two rows at once and gains an event for them. -/
theorem entryBlock_within (h : t.ShownIn u) (entry : PathNode) :
    (entryBlock t entry).Within (entryBlock u entry) := by
  unfold entryBlock
  split
  · rename_i method owner service hmethod howner hservice
    obtain ⟨otherMethod, hotherMethod, hname⟩ := h.methods hmethod
    obtain ⟨otherOwner, hotherOwner, -, hclass⟩ := h.classes howner
    obtain ⟨otherService, hotherService, htitle, hartifact⟩ := h.services hservice
    rw [hotherMethod, hotherOwner, hotherService]
    simp only [hname, hclass, htitle, hartifact]
    exact .refl _
  · split
    · exact ⟨List.sublist_append_left _ _, List.nil_sublist _⟩
    · exact .refl _

/-- A node is shown in the same way, or an event says that it is not. -/
theorem nodeBlock_within (h : t.ShownIn u) (chainId : String) (isLast : Bool) (node : PathNode) :
    (nodeBlock t chainId isLast node).Within (nodeBlock u chainId isLast node) := by
  unfold nodeBlock
  split
  · rename_i method owner hmethod howner
    obtain ⟨otherMethod, hotherMethod, hname⟩ := h.methods hmethod
    obtain ⟨otherOwner, hotherOwner, hclass, -⟩ := h.classes howner
    rw [hotherMethod, hotherOwner]
    simp only [hname, hclass]
    exact .refl _
  · split
    · exact ⟨List.nil_sublist _, List.nil_sublist _⟩
    · exact .refl _

/-- The nodes of a path lie within each other one by one: which one is last is the same for both. -/
theorem pathBlocks_within (h : t.ShownIn u) (chainId : String) (nodes : List PathNode) :
    List.Forall₂ Block.Within (pathBlocks t chainId nodes) (pathBlocks u chainId nodes) := by
  induction nodes with
  | nil => exact .nil
  | cons node nodes ih => exact .cons (nodeBlock_within h chainId nodes.isEmpty node) ih

theorem detail_within (h : t.ShownIn u) (chain : Chain) :
    (detail t chain).Within (detail u chain) := by
  have hentry : ((chain.entry.map (entryBlock t)).getD {}).Within
      ((chain.entry.map (entryBlock u)).getD {}) := by
    cases chain.entry with
    | none => exact .refl _
    | some entry => exact entryBlock_within h entry
  have hpath : (pathBlock t chain).Within (pathBlock u chain) :=
    (Block.Within.refl _).append (.join (pathBlocks_within h chain.id chain.path))
  exact (((Block.Within.refl _).append hentry).append hpath).append (.refl _)

/-! ### The report -/

theorem report_block_within (h : t.ShownIn u) (withOverview : Bool) (d : Document) :
    (report t withOverview d).Within (report u withOverview d) := by
  have hdetails : List.Forall₂ Block.Within (d.chains.map (detail t)) (d.chains.map (detail u)) :=
    List.forall₂_map_left_iff.mpr (List.forall₂_map_right_iff.mpr
      (List.forall₂_same.mpr fun chain _ => detail_within h chain))
  exact ((Block.Within.refl _).append (summary_within h d)).append (.join hdetails)

/-- **Missing records only remove lines**: with tables that know less, the lines of a report are
some of those with the fuller tables, in the same order and unchanged, and the events are more.  The
same holds for the summary, and for the detail of every chain. -/
theorem report_within (h : t.ShownIn u) :
    (∀ d withOverview,
      (Text.lines (report t withOverview d).text).Sublist
          (Text.lines (report u withOverview d).text)
        ∧ (report u withOverview d).events.Sublist (report t withOverview d).events)
    ∧ (∀ d, (Text.lines (summary t d).text).Sublist (Text.lines (summary u d).text)
        ∧ (summary u d).events.Sublist (summary t d).events)
    ∧ ∀ chain, (Text.lines (detail t chain).text).Sublist (Text.lines (detail u chain).text)
        ∧ (detail u chain).events.Sublist (detail t chain).events := by
  refine ⟨?_, ?_, ?_⟩
  · intro d withOverview
    have hreport := report_block_within h withOverview d
    exact ⟨hreport.lines, hreport.events⟩
  · intro d
    have hsummary := summary_within h d
    exact ⟨hsummary.lines, hsummary.events⟩
  · intro chain
    have hdetail := detail_within h chain
    exact ⟨hdetail.lines, hdetail.events⟩

/-- Tables in which no class is known any more show nothing in another way. -/
theorem shownIn_without_classes (t : Tables) : Tables.ShownIn { t with classes := ∅ } t where
  methods h := ⟨_, h, rfl⟩
  classes h := by simp [Tables.class?] at h
  services h := ⟨_, h, rfl, rfl⟩

/-- A document with one chain of two nodes, the second of which no table knows. -/
def shop : Document where
  services := [{ id := "s1", name := "shop", artifactId := "shop-web" }]
  classes := [{ id := "c1", className := "Cart", qualifiedName := "shop.Cart" }]
  methods := [{ id := "m1", methodName := "add" }]
  chains := [{
    id := "x"
    entry := some { methodId := "m1", classId := "c1", serviceId := "s1" }
    path := [{ methodId := "m1", classId := "c1" }, { methodId := "m2", classId := "c1" }] }]

/-- Without its class, that document loses four lines and gains two events. -/
theorem report_within_shop :
    Tables.ShownIn { shop.tables with classes := ∅ } shop.tables
    ∧ (Text.lines (report { shop.tables with classes := ∅ } true shop).text).Sublist
        (Text.lines (report shop.tables true shop).text)
    ∧ (report shop.tables true shop).events = [.nodeSkipped "x" 0 "m2" "c1"]
    ∧ (report { shop.tables with classes := ∅ } true shop).events
        = [.entryUnresolved "m1" "c1" "s1", .nodeSkipped "x" 0 "m1" "c1",
          .nodeSkipped "x" 0 "m2" "c1"]
    ∧ (report shop.tables true shop).rows.length
        = (report { shop.tables with classes := ∅ } true shop).rows.length + 4 := by
  have hshown := shownIn_without_classes shop.tables
  have hm1 : shop.tables.method? "m1" = some { id := "m1", methodName := "add" } := by
    simp [shop, Document.tables, Table.ofRecords, Tables.method?]
  have hm2 : shop.tables.method? "m2" = none := by
    simp [shop, Document.tables, Table.ofRecords, Tables.method?]
  have hc1 : shop.tables.class? "c1"
      = some { id := "c1", className := "Cart", qualifiedName := "shop.Cart" } := by
    simp [shop, Document.tables, Table.ofRecords, Tables.class?]
  have hs1 : shop.tables.service? "s1"
      = some { id := "s1", name := "shop", artifactId := "shop-web" } := by
    simp [shop, Document.tables, Table.ofRecords, Tables.service?]
  have hforgotten (id : String) :
      ({ shop.tables with classes := ∅ } : Tables).class? id = none := by
    simp [Tables.class?]
  generalize shop.tables = t at hshown hm1 hm2 hc1 hs1 hforgotten ⊢
  refine ⟨hshown, ((report_within hshown).1 shop true).1, ?_, ?_, ?_⟩
  · simp [report, summary, overview, detail, statistics, pathBlock, Block.join, pathBlocks,
      entryBlock, nodeBlock, shop, hm1, hm2, hc1, hs1]
  · simp [report, summary, overview, detail, statistics, pathBlock, Block.join, pathBlocks,
      entryBlock, nodeBlock, shop, hforgotten]
  · simp [report, summary, overview, detail, statistics, pathBlock, Block.join, pathBlocks,
      entryBlock, nodeBlock, shop, hm1, hm2, hc1, hs1, hforgotten, summaryEntries, summaryEntry,
      entryArrow, nodeRows, PathNode.endpoint, given]
    omega

end Report

end CallGraph
