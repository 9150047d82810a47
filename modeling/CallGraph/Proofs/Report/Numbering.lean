import CallGraph.Proofs.Report.Omissions
import CallGraph.Proofs.Text.Items
import Mathlib.Data.List.Forall2

/-!
# The numbered list of the summary

The summary is read as a text here: its lines are searched for numbered ones, without knowing where
a chain begins.  Endpoints and names may look like such lines themselves.  They do no harm, because
each of them stands behind something else on its line, as long as it has no line feed.

* `SingleLined` — what the summary shows of a chain has no line feed;
* `shownEndpoint` — the endpoint of a chain, or what stands for it;
* `Describes` — what a numbered line and those up to the next one say of a chain;
* `items_summary` — the items of the summary;
* `summary_numbered` — they are the chains, numbered in their order.
-/

namespace CallGraph.Report

variable (t : Tables)

/-! ### What is shown of a chain -/

/-- Nothing that the summary shows of a chain has a line feed: not its endpoint, and not the names
of the class and the method of its entry point, if both are known. -/
def SingleLined (chain : Chain) : Prop :=
  ∀ entry ∈ chain.entry, (∀ endpoint ∈ entry.endpoint, '\n' ∉ endpoint.toList)
    ∧ ∀ method owner, t.method? entry.methodId = some method → t.class? entry.classId = some owner →
      '\n' ∉ owner.className.toList ∧ '\n' ∉ method.methodName.toList

/-- The endpoint of a chain.  There is none if the chain has no entry point, or if the endpoint of
that is absent or empty. -/
def shownEndpoint (chain : Chain) : String :=
  match chain.entry with
  | none => "N/A"
  | some entry =>
    match entry.httpEndpoint with
    | none => "N/A"
    | some endpoint => if endpoint = "" then "N/A" else endpoint

theorem endpointText_eq (chain : Chain) : endpointText chain.entry = shownEndpoint chain := by
  unfold endpointText shownEndpoint
  cases chain.entry with
  | none => rfl
  | some entry =>
    show (given entry.httpEndpoint).getD missing = match entry.httpEndpoint with
      | none => "N/A"
      | some endpoint => if endpoint = "" then "N/A" else endpoint
    cases entry.httpEndpoint with
    | none => rfl
    | some endpoint => by_cases h : endpoint = "" <;> simp [given, Option.filter, h, missing]

/-- The row of a chain that shows the method of its entry point. -/
def arrowRows (chain : Chain) : List String := (chain.entry.map (entryArrow t)).getD []

/-- The row of a chain that shows its depth and whether it crosses services. -/
def depthRow (chain : Chain) : String :=
  "   Depth: " ++ toString chain.maxDepth.toNat ++ " | Cross-service: "
    ++ (if chain.crossService then "✓" else "✗")

theorem summaryEntry_eq (number : Nat) (chain : Chain) : summaryEntry t number chain
    = "" :: (toString number ++ ". " ++ shownEndpoint chain) :: (arrowRows t chain
      ++ [depthRow chain]) := by
  rw [← endpointText_eq]
  rfl

/-- The row of the method is there if its method and class are known, and shows their names. -/
theorem arrowRows_cases (chain : Chain) :
    (∃ entry ∈ chain.entry, t.KnowsNode entry ∧ ∃ method owner,
      t.method? entry.methodId = some method ∧ t.class? entry.classId = some owner
      ∧ arrowRows t chain = ["   → " ++ callText owner.className method.methodName])
    ∨ (¬ ∃ entry ∈ chain.entry, t.KnowsNode entry) ∧ arrowRows t chain = [] := by
  unfold arrowRows
  cases chain.entry with
  | none => exact .inr ⟨by simp, rfl⟩
  | some entry =>
    by_cases hknown : t.KnowsNode entry
    · obtain ⟨method, owner, hmethod, howner⟩ := Tables.knowsNode_iff.mp hknown
      refine .inl ⟨entry, rfl, hknown, method, owner, hmethod, howner, ?_⟩
      show entryArrow t entry = _
      rw [entryArrow, hmethod, howner]
    · refine .inr ⟨by simpa using hknown, ?_⟩
      obtain ⟨h, -⟩ | ⟨-, harrow⟩ := entryArrow_cases t entry
      · exact absurd h hknown
      · exact harrow

/-! ### Lines of the summary -/

theorem not_mem_toDigits (n : Nat) : '\n' ∉ Nat.toDigits 10 n := by
  intro h
  have hdigit := Nat.isDigit_of_mem_toDigits (by decide) (by decide) h
  revert hdigit
  decide

variable {t}

/-- With texts that have no line feed, no row of a chain has one. -/
theorem SingleLined.not_mem {chain : Chain} (h : SingleLined t chain) (number : Nat) :
    ∀ row ∈ summaryEntry t number chain, '\n' ∉ row.toList := by
  have htitle : '\n' ∉ (shownEndpoint chain).toList := by
    rw [← endpointText_eq, endpointText]
    cases hendpoint : chain.entry.bind PathNode.endpoint with
    | none => decide
    | some endpoint =>
      obtain ⟨entry, hentry, hgiven⟩ := Option.bind_eq_some_iff.mp hendpoint
      exact (h entry hentry).1 endpoint hgiven
  have harrow : ∀ row ∈ arrowRows t chain, '\n' ∉ row.toList := by
    obtain ⟨entry, hentry, -, method, owner, hmethod, howner, hrows⟩ | ⟨-, hrows⟩ :=
      arrowRows_cases t chain
    · have hnames := (h entry hentry).2 method owner hmethod howner
      simp [hrows, callText, hnames]
    · simp [hrows]
  have hdepth : '\n' ∉ (depthRow chain).toList := by
    unfold depthRow
    cases chain.crossService <;> simp [not_mem_toDigits]
  rw [summaryEntry_eq]
  simp only [List.mem_cons, List.mem_append, List.not_mem_nil, or_false]
  rintro row (rfl | rfl | hrow | rfl)
  · decide
  · simp [not_mem_toDigits, htitle]
  · exact harrow row hrow
  · exact hdepth

/-- The lines of the summary are its rows, and the empty one behind the last line feed. -/
theorem lines_summary {d : Document} (h : ∀ chain ∈ d.chains, SingleLined t chain) :
    Text.lines (summary t d).text = (banner "Call chain summary").map String.toList
      ++ ((summaryEntries t 1 d.chains).map String.toList ++ [[]]) := by
  have hbanner : ∀ row ∈ banner "Call chain summary", '\n' ∉ row.toList := by decide
  have hentries : ∀ row ∈ summaryEntries t 1 d.chains, '\n' ∉ row.toList := by
    rw [summaryEntries_eq]
    intro row hrow
    obtain ⟨place, hplace, hrow⟩ := List.mem_flatMap.mp hrow
    exact (h place.1 (List.fst_mem_of_mem_zipIdx hplace)).not_mem place.2 row hrow
  show Text.lines (Text.unlines (banner _ ++ summaryEntries t 1 d.chains)) = _
  rw [Text.lines_unlines_of_not_mem, List.map_append, List.append_assoc]
  intro row hrow
  exact (List.mem_append.mp hrow).elim (hbanner row) (hentries row)

/-! ### Items of the summary -/

variable (t)

/-- The rows of a chain below its numbered one. -/
def bodyRows (chain : Chain) : List String := arrowRows t chain ++ [depthRow chain]

/-- The item of a chain with its number.  The empty row in front of the next chain is part of it. -/
def summaryItem (number : Nat) (chain : Chain) : Text.Item where
  numeral := (toString number).toList
  title := (shownEndpoint chain).toList
  body := (bodyRows t chain).map String.toList ++ [[]]

theorem numbered?_title (number : Nat) (title : String) :
    Text.numbered? (toString number ++ ". " ++ title).toList
      = some ((toString number).toList, title.toList) := by
  rw [Text.numbered?_eq_some_iff, Nat.toString_eq_ofList_toDigits, String.toList_ofList]
  refine ⟨Nat.toDigits_ne_nil, ?_, ?_⟩
  · intro c hc
    exact Nat.isDigit_of_mem_toDigits (by decide) (by decide) hc
  · simp

/-- The rows below the numbered one begin with a blank. -/
theorem not_numbered_bodyRows (chain : Chain) :
    ∀ line ∈ (bodyRows t chain).map String.toList, Text.numbered? line = none := by
  have hblank (row : String) (h : row.toList.head? = some ' ') :
      Text.numbered? row.toList = none := by
    obtain ⟨rest, hrest⟩ := List.head?_eq_some_iff.mp h
    rw [hrest]
    exact Text.numbered?_of_not_digit (by decide) rest
  have hdepth : Text.numbered? (depthRow chain).toList = none := hblank _ (by simp [depthRow])
  obtain ⟨_, -, -, method, owner, -, -, hrows⟩ | ⟨-, hrows⟩ := arrowRows_cases t chain
  · have harrow := hblank ("   → " ++ callText owner.className method.methodName) (by simp)
    simp only [bodyRows, hrows, List.map_cons, List.map_nil, List.cons_append,
      List.nil_append, List.forall_mem_cons]
    exact ⟨harrow, hdepth, nofun⟩
  · simp only [bodyRows, hrows, List.map_cons, List.map_nil, List.nil_append, List.forall_mem_cons]
    exact ⟨hdepth, nofun⟩

/-- Up to the numbered row of the next chain, or to the end, there is one more row. -/
theorem takeWhile_summaryEntries (number : Nat) (chains : List Chain) :
    ((summaryEntries t number chains).map String.toList ++ [[]]).takeWhile
      (fun line => (Text.numbered? line).isNone) = [[]] := by
  cases chains with
  | nil => rfl
  | cons chain chains =>
    have hempty : (Text.numbered? []).isNone = true := rfl
    rw [summaryEntries, summaryEntry_eq]
    simp only [List.cons_append, List.map_cons, String.toList_empty, List.takeWhile_cons, hempty,
      numbered?_title, Option.isNone_some, if_true, Bool.false_eq_true, if_false]

/-- The entries of chains are their items, numbered from the given number on. -/
theorem items_summaryEntries (number : Nat) (chains : List Chain) :
    Text.items ((summaryEntries t number chains).map String.toList ++ [[]])
      = (chains.zipIdx number).map fun place => summaryItem t place.2 place.1 := by
  induction chains generalizing number with
  | nil => rfl
  | cons chain chains ih =>
    -- the empty row that an entry begins with ends the item before it
    have hlines : (summaryEntries t number (chain :: chains)).map String.toList ++ [[]]
        = [[]] ++ (toString number ++ ". " ++ shownEndpoint chain).toList
          :: ((bodyRows t chain).map String.toList
            ++ ((summaryEntries t (number + 1) chains).map String.toList ++ [[]])) := by
      rw [summaryEntries, summaryEntry_eq, List.map_append, List.append_assoc]
      simp [bodyRows]
    rw [hlines, Text.items_append (by simp [Text.numbered?]),
      Text.items_cons_append (numbered?_title number (shownEndpoint chain))
        (not_numbered_bodyRows t chain),
      takeWhile_summaryEntries, ih (number + 1), List.zipIdx_cons, List.map_cons, summaryItem]

variable {t} in
/-- The items of the summary are the chains, numbered from one. -/
theorem items_summary {d : Document} (h : ∀ chain ∈ d.chains, SingleLined t chain) :
    Text.items (Text.lines (summary t d).text)
      = (d.chains.zipIdx 1).map fun place => summaryItem t place.2 place.1 := by
  have hbanner : ∀ line ∈ (banner "Call chain summary").map String.toList,
      Text.numbered? line = none := by decide
  rw [lines_summary h, Text.items_append hbanner, items_summaryEntries]

/-! ### The numbered list -/

/-- A line begins with a word. -/
def begins (word : String) (line : List Char) : Bool := word.toList.isPrefixOf line

/-- What an item of the summary says of a chain: its number, its endpoint, in one line its depth and
whether it crosses services, and in one line the method of its entry point if that and its class are
known. -/
structure Describes (number : Nat) (chain : Chain) (item : Text.Item) : Prop where
  numeral : item.numeral = (toString number).toList
  title : item.title = (shownEndpoint chain).toList
  depth : item.body.filter (begins "   Depth: ")
    = [("   Depth: " ++ toString chain.maxDepth.toNat ++ " | Cross-service: "
        ++ if chain.crossService then "✓" else "✗").toList]
  arrow : item.body.countP (begins "   → ")
    = if ∃ entry ∈ chain.entry, t.KnowsNode entry then 1 else 0

/-- The row of the method shows no depth. -/
theorem filter_arrowRows (chain : Chain) :
    ((arrowRows t chain).map String.toList).filter (begins "   Depth: ") = [] := by
  obtain ⟨_, -, -, method, owner, -, -, hrows⟩ | ⟨-, hrows⟩ := arrowRows_cases t chain
  · have hother : ¬ begins "   Depth: "
        ("   → " ++ callText owner.className method.methodName).toList = true := by
      simp [begins, List.isPrefixOf]
    rw [hrows, List.map_singleton, List.filter_cons_of_neg hother, List.filter_nil]
  · rw [hrows, List.map_nil, List.filter_nil]

theorem countP_arrowRows (chain : Chain) :
    ((arrowRows t chain).map String.toList).countP (begins "   → ")
      = if ∃ entry ∈ chain.entry, t.KnowsNode entry then 1 else 0 := by
  obtain ⟨entry, hentry, hknown, method, owner, -, -, hrows⟩ | ⟨hunknown, hrows⟩ :=
    arrowRows_cases t chain
  · have harrow : begins "   → " ("   → " ++ callText owner.className method.methodName).toList
        = true := by
      simp [begins]
    rw [hrows, List.map_singleton, List.countP_cons_of_pos harrow, List.countP_nil,
      if_pos ⟨entry, hentry, hknown⟩]
  · rw [hrows, List.map_nil, List.countP_nil, if_neg hunknown]

theorem describes_summaryItem (number : Nat) (chain : Chain) :
    Describes t number chain (summaryItem t number chain) := by
  have hdepth : begins "   Depth: " (depthRow chain).toList = true := by
    simp [begins, depthRow]
  have hother : ¬ begins "   → " (depthRow chain).toList = true := by
    simp [begins, depthRow, List.isPrefixOf]
  have hempty : ¬ begins "   Depth: " [] = true ∧ ¬ begins "   → " [] = true := by decide
  have hbody : (summaryItem t number chain).body
      = (arrowRows t chain).map String.toList ++ [(depthRow chain).toList, []] := by
    simp [summaryItem, bodyRows]
  refine ⟨rfl, rfl, ?_, ?_⟩
  · rw [hbody, List.filter_append, filter_arrowRows, List.filter_cons_of_pos hdepth,
      List.filter_cons_of_neg hempty.1, List.filter_nil, List.nil_append, depthRow]
  · rw [hbody, List.countP_append, countP_arrowRows, List.countP_cons_of_neg hother,
      List.countP_cons_of_neg hempty.2, List.countP_nil, Nat.add_zero]

/-- **The summary lists every chain once.**  With texts that have no line feed, the numbered lines of
the summary are numbered from one, in the order of the chains, and show the endpoint of each; and
the lines from each of them up to the next one describe the same chain. -/
theorem summary_numbered {d : Document} (h : ∀ chain ∈ d.chains, SingleLined t chain) :
    (Text.lines (summary t d).text).filterMap Text.numbered?
      = (d.chains.zipIdx 1).map (fun place =>
        ((toString place.2).toList, (shownEndpoint place.1).toList))
    ∧ List.Forall₂ (fun place item => Describes t place.2 place.1 item)
      (d.chains.zipIdx 1) (Text.items (Text.lines (summary t d).text)) := by
  refine ⟨?_, ?_⟩
  · rw [← Text.map_items, items_summary h, List.map_map]
    rfl
  · rw [items_summary h, List.forall₂_map_right_iff, List.forall₂_same]
    intro place _
    exact describes_summaryItem t place.2 place.1

/-- A document whose chains begin at a known method, at an unknown one and nowhere. -/
def listedShop : Document where
  classes := [{ id := "c1", className := "Cart" }]
  methods := [{ id := "m1", methodName := "add" }]
  chains := [
    { entry := some { methodId := "m1", classId := "c1", httpEndpoint := some "7. GET /cart" }
      maxDepth := 3
      crossService := true },
    { entry := some { methodId := "m2", classId := "c1", httpEndpoint := some "" } },
    {}]

/-- Its summary has three numbered lines, although the first endpoint looks like another one. -/
theorem summary_numbered_listed :
    (∀ chain ∈ listedShop.chains, SingleLined listedShop.tables chain)
    ∧ (Text.lines (summary listedShop.tables listedShop).text).filterMap Text.numbered?
      = [("1".toList, "7. GET /cart".toList), ("2".toList, "N/A".toList),
        ("3".toList, "N/A".toList)]
    ∧ List.Forall₂ (fun place item => Describes listedShop.tables place.2 place.1 item)
      (listedShop.chains.zipIdx 1)
      (Text.items (Text.lines (summary listedShop.tables listedShop).text)) := by
  have hm1 : listedShop.tables.method? "m1" = some { id := "m1", methodName := "add" } := by
    simp [listedShop, Document.tables, Table.ofRecords, Tables.method?]
  have hm2 : listedShop.tables.method? "m2" = none := by
    simp [listedShop, Document.tables, Table.ofRecords, Tables.method?]
  have hc1 : listedShop.tables.class? "c1" = some { id := "c1", className := "Cart" } := by
    simp [listedShop, Document.tables, Table.ofRecords, Tables.class?]
  have hlined : ∀ chain ∈ listedShop.chains, SingleLined listedShop.tables chain := by
    generalize listedShop.tables = t at hm1 hm2 hc1 ⊢
    simp [listedShop, SingleLined, PathNode.endpoint, given, Option.filter, hm1, hm2, hc1]
  obtain ⟨hnumbered, hdescribed⟩ := summary_numbered listedShop.tables hlined
  exact ⟨hlined, hnumbered.trans rfl, hdescribed⟩

end CallGraph.Report
