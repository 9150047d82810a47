import CallGraph.Report
import Mathlib.Algebra.GroupWithZero.Nat
import Mathlib.Data.List.Basic

/-!
# Omissions

A report leaves rows out where records are unknown.  The summary, the entry point of a detail and
the nodes of a path each ask for other records, and only the last two tell what they leave out.
Still nothing is left out in silence: what the summary needs is part of what the entry point needs.

* `Tables.KnowsNode`, `Tables.KnowsEntry` — the records that a node and an entry point need;
* `chainEvents` — the events of a chain, said without its rows;
* `rows_report`, `events_report` — the rows of a report are those of its parts, and its events are
  those of its chains in order;
* `HasRow` — a row that begins with a mark, with `hasRow_arrow_iff` and `hasRow_detail_iff` for the
  rows that depend on records;
* `report_omissions` — both together.
-/

namespace CallGraph

/-! ### Known records -/

/-- The method and the class of a node are known. -/
def Tables.KnowsNode (t : Tables) (node : PathNode) : Prop :=
  (t.method? node.methodId).isSome ∧ (t.class? node.classId).isSome

/-- The method, the class and the service of an entry point are known. -/
def Tables.KnowsEntry (t : Tables) (entry : PathNode) : Prop :=
  t.KnowsNode entry ∧ (t.service? entry.serviceId).isSome

instance (t : Tables) (node : PathNode) : Decidable (t.KnowsNode node) :=
  inferInstanceAs (Decidable (_ ∧ _))

instance (t : Tables) (entry : PathNode) : Decidable (t.KnowsEntry entry) :=
  inferInstanceAs (Decidable (_ ∧ _))

theorem Tables.knowsNode_iff {t : Tables} {node : PathNode} :
    t.KnowsNode node ↔ ∃ method owner,
      t.method? node.methodId = some method ∧ t.class? node.classId = some owner := by
  simp only [KnowsNode, Option.isSome_iff_exists, exists_and_left, exists_and_right]

namespace Report

/-! ### The events of a chain -/

/-- The event that the method and the service of an entry point are left out. -/
def entryEvent (entry : PathNode) : Event :=
  .entryUnresolved entry.methodId entry.classId entry.serviceId

/-- The event that a node of a chain is left out. -/
def skipEvent (chainId : String) (node : PathNode) : Event :=
  .nodeSkipped chainId node.level node.methodId node.classId

/-- The events of a chain: one for its entry point if that is not known with all its records, and
then one for each node of its path that is not known. -/
def chainEvents (t : Tables) (chain : Chain) : List Event :=
  (chain.entry.toList.filter fun entry => ¬ t.KnowsEntry entry).map entryEvent
    ++ (chain.path.filter fun node => ¬ t.KnowsNode node).map (skipEvent chain.id)

variable (t : Tables)

/-- The summary shows the method of an entry point that is known as a node. -/
theorem entryArrow_cases (entry : PathNode) :
    (t.KnowsNode entry ∧ ∃ className methodName,
      entryArrow t entry = ["   → " ++ callText className methodName])
    ∨ ¬ t.KnowsNode entry ∧ entryArrow t entry = [] := by
  unfold entryArrow
  split
  · rename_i method owner hmethod howner
    exact .inl ⟨Tables.knowsNode_iff.mpr ⟨method, owner, hmethod, howner⟩, _, _, rfl⟩
  · rename_i hunknown
    refine .inr ⟨?_, rfl⟩
    intro hknown
    obtain ⟨method, owner, hmethod, howner⟩ := Tables.knowsNode_iff.mp hknown
    exact hunknown method owner hmethod howner

/-- A node that is known shows its rows, and an event is all that there is of another one. -/
theorem nodeBlock_cases (chainId : String) (isLast : Bool) (node : PathNode) :
    (t.KnowsNode node ∧ ∃ className methodName,
      nodeBlock t chainId isLast node = { rows := nodeRows isLast node className methodName })
    ∨ ¬ t.KnowsNode node
      ∧ nodeBlock t chainId isLast node = { events := [skipEvent chainId node] } := by
  unfold nodeBlock
  split
  · rename_i method owner hmethod howner
    exact .inl ⟨Tables.knowsNode_iff.mpr ⟨method, owner, hmethod, howner⟩, _, _, rfl⟩
  · rename_i hunknown
    refine .inr ⟨?_, rfl⟩
    intro hknown
    obtain ⟨method, owner, hmethod, howner⟩ := Tables.knowsNode_iff.mp hknown
    exact hunknown method owner hmethod howner

/-- The rows that every entry point has. -/
def entryHeading (entry : PathNode) : List String :=
  ["", "📍 Entry point:", "   HTTP: " ++ endpointText (some entry)]

/-- An entry point that is known shows two rows more, and an event stands for them otherwise. -/
theorem entryBlock_cases (entry : PathNode) :
    (t.KnowsEntry entry ∧ ∃ className methodName service,
      entryBlock t entry = { rows := entryHeading entry
        ++ ["   Method: " ++ callText className methodName, "   Service: " ++ service] })
    ∨ ¬ t.KnowsEntry entry
      ∧ entryBlock t entry = { rows := entryHeading entry, events := [entryEvent entry] } := by
  unfold entryBlock
  split
  · rename_i method owner service hmethod howner hservice
    refine .inl ⟨⟨Tables.knowsNode_iff.mpr ⟨method, owner, hmethod, howner⟩, ?_⟩,
      owner.qualifiedName, method.methodName, service.name ++ " (" ++ service.artifactId ++ ")", ?_⟩
    · rw [hservice]
      rfl
    · simp only [entryHeading, String.append_assoc]
  · rename_i hunknown
    refine .inr ⟨?_, rfl⟩
    rintro ⟨hknown, hservice⟩
    obtain ⟨method, owner, hmethod, howner⟩ := Tables.knowsNode_iff.mp hknown
    obtain ⟨service, hservice⟩ := Option.isSome_iff_exists.mp hservice
    exact hunknown method owner service hmethod howner hservice

theorem events_pathBlocks (chainId : String) (nodes : List PathNode) :
    (pathBlocks t chainId nodes).flatMap Block.events
      = (nodes.filter fun node => ¬ t.KnowsNode node).map (skipEvent chainId) := by
  induction nodes with
  | nil => rfl
  | cons node nodes ih =>
    rw [pathBlocks, List.flatMap_cons, ih]
    obtain ⟨hknown, _, _, hblock⟩ | ⟨hunknown, hblock⟩ :=
      nodeBlock_cases t chainId nodes.isEmpty node
    · simp [hblock, hknown]
    · simp [hblock, hunknown]

theorem events_detail (chain : Chain) : (detail t chain).events = chainEvents t chain := by
  have hentry : ((chain.entry.map (entryBlock t)).getD {}).events
      = (chain.entry.toList.filter fun entry => ¬ t.KnowsEntry entry).map entryEvent := by
    cases chain.entry with
    | none => rfl
    | some entry =>
      show (entryBlock t entry).events = _
      obtain ⟨hknown, _, _, _, hblock⟩ | ⟨hunknown, hblock⟩ := entryBlock_cases t entry
      · simp [hblock, hknown]
      · simp [hblock, hunknown]
  have hpath : (pathBlock t chain).events
      = (chain.path.filter fun node => ¬ t.KnowsNode node).map (skipEvent chain.id) :=
    events_pathBlocks t chain.id chain.path
  show [] ++ ((chain.entry.map (entryBlock t)).getD {}).events ++ (pathBlock t chain).events ++ []
    = chainEvents t chain
  rw [hentry, hpath, List.append_nil, List.nil_append, chainEvents]

/-- The rows of a report are those of its parts, one below the other. -/
theorem rows_report (withOverview : Bool) (d : Document) :
    (report t withOverview d).rows = (if withOverview then overview d else {}).rows
      ++ (summary t d).rows ++ d.chains.flatMap fun chain => (detail t chain).rows := by
  rw [report, Block.rows_append, Block.rows_append, Block.join, List.flatMap_map]

/-- The events of a report are those of its chains, one chain after the other. -/
theorem events_report (withOverview : Bool) (d : Document) :
    (report t withOverview d).events = d.chains.flatMap (chainEvents t) := by
  have hopening : (if withOverview then overview d else {}).events = [] := by
    cases withOverview <;> rfl
  show (if withOverview then overview d else {}).events ++ []
      ++ (d.chains.map (detail t)).flatMap Block.events = _
  rw [hopening, List.nil_append, List.nil_append, List.flatMap_map]
  exact List.flatMap_congr fun chain _ => events_detail t chain

/-! ### How many events there are -/

/-- The entry point of a chain, if there is one, is known with all its records. -/
def EntryKnown (chain : Chain) : Prop := ∀ entry ∈ chain.entry, t.KnowsEntry entry

instance (chain : Chain) : Decidable (EntryKnown t chain) :=
  inferInstanceAs (Decidable (∀ entry ∈ chain.entry, t.KnowsEntry entry))

theorem length_chainEvents (chain : Chain) :
    (chainEvents t chain).length = (if EntryKnown t chain then 0 else 1)
      + chain.path.countP fun node => ¬ t.KnowsNode node := by
  have hentry : (chain.entry.toList.filter fun entry => ¬ t.KnowsEntry entry).length
      = if EntryKnown t chain then 0 else 1 := by
    by_cases h : EntryKnown t chain
    · rw [if_pos h, List.length_eq_zero_iff]
      simpa [EntryKnown] using h
    · obtain ⟨entry, hentry, hunknown⟩ :
          ∃ entry, chain.entry = some entry ∧ ¬ t.KnowsEntry entry := by
        simpa [EntryKnown] using h
      simp [h, hentry, hunknown]
  rw [chainEvents, List.length_append, List.length_map, List.length_map, hentry,
    List.countP_eq_length_filter]

theorem length_flatMap_chainEvents (chains : List Chain) :
    (chains.flatMap (chainEvents t)).length = (chains.countP fun chain => ¬ EntryKnown t chain)
      + (chains.map fun chain => chain.path.countP fun node => ¬ t.KnowsNode node).sum := by
  induction chains with
  | nil => rfl
  | cons chain chains ih =>
    rw [List.flatMap_cons, List.length_append, ih, length_chainEvents, List.countP_cons,
      List.map_cons, List.sum_cons]
    by_cases h : EntryKnown t chain
    · simp only [h, if_true, not_true_eq_false, decide_false, Bool.false_eq_true, if_false]
      omega
    · simp only [h, if_false, not_false_eq_true, decide_true, if_true]
      omega

theorem chainEvents_eq_nil_iff (chain : Chain) :
    chainEvents t chain = [] ↔ EntryKnown t chain ∧ ∀ node ∈ chain.path, t.KnowsNode node := by
  simp [chainEvents, EntryKnown]

/-! ### Rows that depend on records -/

/-- Some row begins with a mark. -/
def HasRow (mark : String) (rows : List String) : Prop := ∃ row ∈ rows, mark.toList <+: row.toList

@[simp] theorem hasRow_nil (mark : String) : ¬ HasRow mark [] := by
  simp [HasRow]

@[simp] theorem hasRow_cons (mark row : String) (rows : List String) :
    HasRow mark (row :: rows) ↔ mark.toList <+: row.toList ∨ HasRow mark rows := by
  simp [HasRow]

@[simp] theorem hasRow_append (mark : String) (rows more : List String) :
    HasRow mark (rows ++ more) ↔ HasRow mark rows ∨ HasRow mark more := by
  simp [HasRow, or_and_right, exists_or]

/-- A number does not begin with a blank. -/
@[simp] theorem not_blank_prefix_toDigits (mark rest : List Char) (number : Nat) :
    ¬ ' ' :: mark <+: Nat.toDigits 10 number ++ rest := by
  cases hdigits : Nat.toDigits 10 number with
  | nil => exact absurd hdigits Nat.toDigits_ne_nil
  | cons c digits =>
    have hc : c.isDigit = true :=
      Nat.isDigit_of_mem_toDigits (by decide) (by decide) (hdigits ▸ List.mem_cons_self)
    intro hprefix
    obtain ⟨rfl, -⟩ := List.cons_prefix_cons.mp hprefix
    revert hc
    decide

/-- The summary shows the method of an entry point whose method and class are known. -/
theorem hasRow_arrow_iff (number : Nat) (chain : Chain) :
    HasRow "   → " (summaryEntry t number chain) ↔ ∃ entry ∈ chain.entry, t.KnowsNode entry := by
  unfold summaryEntry
  cases chain.entry with
  | none => simp
  | some entry =>
    obtain ⟨hknown, _, _, harrow⟩ | ⟨hunknown, harrow⟩ := entryArrow_cases t entry
    · simp [harrow, hknown]
    · simp [harrow, hunknown]

/-- An indent is two blanks, or four and more. -/
theorem indent_cases (level : UInt64) :
    (indent level).toList = [' ', ' ']
      ∨ ∃ more, (indent level).toList = ' ' :: ' ' :: ' ' :: ' ' :: more := by
  rw [toList_indent]
  cases min level.toNat 64 with
  | zero => exact .inl rfl
  | succ n => exact .inr ⟨_, rfl⟩

/-- A mark of the rows that an entry point has only with all its records. -/
def IsEntryMark (mark : String) : Prop := mark = "   Method: " ∨ mark = "   Service: "

/-- No row of a path has such a mark, which begins with exactly three blanks: a row of a node begins
with two or four, or with five and more. -/
theorem not_hasRow_pathBlock {mark : String} (hmark : IsEntryMark mark) (chain : Chain) :
    ¬ HasRow mark (pathBlock t chain).rows := by
  obtain ⟨c, more, hchars, hc⟩ :
      ∃ c more, mark.toList = ' ' :: ' ' :: ' ' :: c :: more ∧ c ≠ ' ' := by
    obtain rfl | rfl := hmark
    · exact ⟨'M', _, rfl, by decide⟩
    · exact ⟨'S', _, rfl, by decide⟩
  have hnode (isLast : Bool) (node : PathNode) (className methodName : String) :
      ¬ HasRow mark (nodeRows isLast node className methodName) := by
    unfold nodeRows connector
    obtain hindent | ⟨_, hindent⟩ := indent_cases node.level <;> cases isLast
      <;> cases node.endpoint <;> cases node.kind <;> simp [hchars, hindent, hc]
  have hnodes (nodes : List PathNode) :
      ¬ HasRow mark ((pathBlocks t chain.id nodes).flatMap Block.rows) := by
    induction nodes with
    | nil => simp [pathBlocks]
    | cons node nodes ih =>
      obtain ⟨-, _, _, hblock⟩ | ⟨-, hblock⟩ := nodeBlock_cases t chain.id nodes.isEmpty node
      · simp [pathBlocks, hblock, hnode, ih]
      · simp [pathBlocks, hblock, ih]
  show ¬ HasRow mark (["", "🔗 Call path:"] ++ (pathBlocks t chain.id chain.path).flatMap Block.rows)
  simp [hchars, hnodes chain.path]

/-- The detail of a chain has the rows of its method and service exactly if its entry point is known
with all its records. -/
theorem hasRow_detail_iff {mark : String} (hmark : IsEntryMark mark) (chain : Chain) :
    HasRow mark (detail t chain).rows ↔ ∃ entry ∈ chain.entry, t.KnowsEntry entry := by
  have hpath := not_hasRow_pathBlock t hmark chain
  have hrule : rule.toList = '=' :: List.replicate 79 '=' := rfl
  have hbanner : ¬ HasRow mark (banner ("Call chain ID: " ++ chain.id)) := by
    obtain rfl | rfl := hmark <;> simp [banner, hrule]
  have hstatistics : ¬ HasRow mark (statistics chain).rows := by
    obtain rfl | rfl := hmark <;> simp [statistics]
  have hentry : HasRow mark (detail t chain).rows
      ↔ HasRow mark ((chain.entry.map (entryBlock t)).getD {}).rows := by
    show HasRow mark (banner _ ++ ((chain.entry.map (entryBlock t)).getD {}).rows
      ++ (pathBlock t chain).rows ++ (statistics chain).rows) ↔ _
    simp only [hasRow_append, hbanner, hpath, hstatistics, false_or, or_false]
  rw [hentry]
  cases chain.entry with
  | none => simp
  | some entry =>
    obtain ⟨hknown, _, _, _, hblock⟩ | ⟨hunknown, hblock⟩ := entryBlock_cases t entry
    · obtain rfl | rfl := hmark <;> simp [hblock, hknown]
    · obtain rfl | rfl := hmark <;> simp [hblock, hunknown, entryHeading]

/-! ### Rows and events together -/

/-- The event of an entry point is there exactly if the entry point is not known with all its
records. -/
theorem entryEvent_mem_iff {chain : Chain} {entry : PathNode} (h : chain.entry = some entry) :
    entryEvent entry ∈ chainEvents t chain ↔ ¬ t.KnowsEntry entry := by
  have hskipped : entryEvent entry ∉
      (chain.path.filter fun node => ¬ t.KnowsNode node).map (skipEvent chain.id) := by
    simp [entryEvent, skipEvent]
  rw [chainEvents, List.mem_append, or_iff_left hskipped, h]
  by_cases hknown : t.KnowsEntry entry
  · simp [hknown]
  · simp [hknown]

/-- The summary has the entries of the chains, numbered from one. -/
theorem summaryEntries_eq (number : Nat) (chains : List Chain) :
    summaryEntries t number chains
      = (chains.zipIdx number).flatMap fun place => summaryEntry t place.2 place.1 := by
  induction chains generalizing number with
  | nil => rfl
  | cons chain chains ih =>
    rw [summaryEntries, ih (number + 1), List.zipIdx_cons, List.flatMap_cons]

/-- **No omission is silent.**  The rows of a report are those of the overview, if it is asked for,
of the summary, and of the detail of each chain in order.  Its events are those of its chains in
order, so there is one for each entry point that is not known with all its records and one for each
node that is not known, and none exactly if all of them are known.  The summary lists each chain
with its number.  Where it does not show the method of an entry point, and where the detail does not
show its method or its service, the event of the entry point is emitted; and a method that the
detail shows is also shown by the summary. -/
theorem report_omissions (withOverview : Bool) (d : Document) :
    (report t withOverview d).rows = (if withOverview then overview d else {}).rows
        ++ (summary t d).rows ++ (d.chains.flatMap fun chain => (detail t chain).rows)
    ∧ (report t withOverview d).events = d.chains.flatMap (chainEvents t)
    ∧ (report t withOverview d).events.length
        = (d.chains.countP fun chain => ¬ EntryKnown t chain)
          + (d.chains.map fun chain => chain.path.countP fun node => ¬ t.KnowsNode node).sum
    ∧ ((report t withOverview d).events = [] ↔ ∀ chain ∈ d.chains,
        EntryKnown t chain ∧ ∀ node ∈ chain.path, t.KnowsNode node)
    ∧ (summary t d).rows = banner "Call chain summary"
        ++ (d.chains.zipIdx 1).flatMap (fun place => summaryEntry t place.2 place.1)
    ∧ ∀ chain number, (chain, number) ∈ d.chains.zipIdx 1 →
        (∀ entry ∈ chain.entry,
          (¬ HasRow "   → " (summaryEntry t number chain) → entryEvent entry ∈ chainEvents t chain)
          ∧ (¬ HasRow "   Method: " (detail t chain).rows ↔ entryEvent entry ∈ chainEvents t chain)
          ∧ (¬ HasRow "   Service: " (detail t chain).rows
            ↔ entryEvent entry ∈ chainEvents t chain))
        ∧ (HasRow "   Method: " (detail t chain).rows →
          HasRow "   → " (summaryEntry t number chain)) := by
  have hevents := events_report t withOverview d
  refine ⟨rows_report t withOverview d, hevents, ?_, ?_, ?_, ?_⟩
  · rw [hevents, length_flatMap_chainEvents]
  · rw [hevents, List.flatMap_eq_nil_iff]
    simp only [chainEvents_eq_nil_iff]
  · show _ ++ summaryEntries t 1 d.chains = _
    rw [summaryEntries_eq]
  · intro chain number _
    have hmethod := hasRow_detail_iff t (.inl rfl) chain
    have hservice := hasRow_detail_iff t (.inr rfl) chain
    have harrow := hasRow_arrow_iff t number chain
    refine ⟨?_, ?_⟩
    · intro entry hentry
      rw [hmethod, hservice, harrow, entryEvent_mem_iff t hentry, hentry]
      simp only [Option.mem_some_iff, exists_eq_left', and_self, and_true]
      intro hunknown hknown
      exact hunknown hknown.1
    · rw [hmethod, harrow]
      rintro ⟨entry, hentry, hknown⟩
      exact ⟨entry, hentry, hknown.1⟩

/-- A chain that begins at a method of an unknown service and goes on to an unknown method. -/
def looseChain : Chain where
  id := "x"
  entry := some { methodId := "m1", classId := "c1", serviceId := "s1" }
  path := [{ methodId := "m2", classId := "c1" }]

/-- A document with that chain, and with its first method. -/
def looseShop : Document where
  classes := [{ id := "c1", className := "Cart" }]
  methods := [{ id := "m1", methodName := "add" }]
  chains := [looseChain]

/-- The summary shows that method, the detail does not, and there is an event for each of the two
omissions. -/
theorem report_omissions_loose :
    (looseChain, 1) ∈ looseShop.chains.zipIdx 1
    ∧ (report looseShop.tables true looseShop).events
        = [.entryUnresolved "m1" "c1" "s1", .nodeSkipped "x" 0 "m2" "c1"]
    ∧ HasRow "   → " (summaryEntry looseShop.tables 1 looseChain)
    ∧ ¬ HasRow "   Method: " (detail looseShop.tables looseChain).rows := by
  obtain ⟨-, hevents, -, -, -, hplaces⟩ := report_omissions looseShop.tables true looseShop
  have hplace : (looseChain, 1) ∈ looseShop.chains.zipIdx 1 := List.mem_singleton.mpr rfl
  have hm1 : (looseShop.tables.method? "m1").isSome := by
    simp [looseShop, Document.tables, Table.ofRecords, Tables.method?]
  have hm2 : looseShop.tables.method? "m2" = none := by
    simp [looseShop, Document.tables, Table.ofRecords, Tables.method?]
  have hc1 : (looseShop.tables.class? "c1").isSome := by
    simp [looseShop, Document.tables, Table.ofRecords, Tables.class?]
  have hs1 : looseShop.tables.service? "s1" = none := by
    simp [looseShop, Document.tables, Table.ofRecords, Tables.service?]
  have hentry : ¬ looseShop.tables.KnowsEntry
      { methodId := "m1", classId := "c1", serviceId := "s1" } := by
    intro h
    cases hs1 ▸ h.2
  have hnode : ¬ looseShop.tables.KnowsNode { methodId := "m2", classId := "c1" } := by
    intro h
    cases hm2 ▸ h.1
  have hmethod := ((hplaces looseChain 1 hplace).1 _ rfl).2.1
  refine ⟨hplace, ?_, ?_, ?_⟩
  · rw [hevents]
    show chainEvents looseShop.tables looseChain ++ [] = _
    simp [looseChain, chainEvents, hentry, hnode, entryEvent, skipEvent]
  · exact (hasRow_arrow_iff looseShop.tables 1 looseChain).mpr ⟨_, rfl, hm1, hc1⟩
  · rw [hmethod, entryEvent_mem_iff looseShop.tables rfl]
    exact hentry

end Report

end CallGraph
