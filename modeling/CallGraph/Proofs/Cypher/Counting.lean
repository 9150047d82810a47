import CallGraph.Cypher.Script
import CallGraph.Proofs.Cypher.LiteralReading
import CallGraph.Proofs.Text.Breaks

/-!
# Counting the statements of scripts

The number of statements is counted on the document.  Counted on the script, as the lines that begin
with `CREATE `, it may come out higher: a value may have such lines of its own.  Nothing else can,
since neither a quote nor a backslash nor the colon behind a variable is in `CREATE `.

* `createLines`, `strays` — the lines that begin with `CREATE `, and the places in a value where one
  begins;
* `createLines_quote` — the lines of a row around a literal;
* `rowLines_statement` — a statement has one such line, and one for each such place in what it is
  made from;
* `createLines_script` — the two counts agree exactly when no value of the document has such a
  place.
-/

namespace CallGraph

/-- The texts of a document that stand in its script: those of services, classes and methods, and
of the calls with a target. -/
def Document.exportedTexts (d : Document) : List String :=
  d.services.flatMap (fun s => [s.id, s.name, s.artifactId])
    ++ d.classes.flatMap (fun c => [c.id, c.className, c.qualifiedName, c.kind.label])
    ++ d.methods.flatMap (fun m => [m.id, m.methodName, m.signature])
    ++ d.calls.flatMap fun call => call.resolvedTarget.toList.flatMap fun target =>
      [call.sourceMethodId, target, call.kind.label]

namespace Cypher

/-- What a line of a created node or relationship begins with. -/
def createWord : List Char := "CREATE ".toList

/-- The number of lines of a text that begin with `CREATE `. -/
def createLines (text : String) : Nat := Text.linesWith createWord text

/-- The number of places in a text where `CREATE ` stands behind a line feed. -/
def strays (text : String) : Nat := Text.breaks createWord text.toList

/-! ### Escaped texts -/

/-- A word without quotes and backslashes begins an escaped text if it begins the text. -/
theorem prefix_escape_iff {word text : List Char} (hquote : '\'' ∉ word) (hslash : '\\' ∉ word) :
    word <+: escape text ↔ word <+: text := by
  induction word generalizing text with
  | nil => simp
  | cons d word ih =>
    rw [List.mem_cons, not_or] at hquote hslash
    cases text with
    | nil => simp [escape]
    | cons c text =>
      by_cases hc : c = '\'' ∨ c = '\\'
      · have hdc : d ≠ c := by
          rintro rfl
          exact hc.elim (Ne.symm hquote.1) (Ne.symm hslash.1)
        simp [escape, hc, List.cons_prefix_cons, Ne.symm hslash.1, hdc]
      · simp [escape, hc, List.cons_prefix_cons, ih hquote.2 hslash.2]

/-- Escaping adds no place where a word stands behind a line feed, and takes none away. -/
theorem breaks_escape {word : List Char} (hquote : '\'' ∉ word) (hslash : '\\' ∉ word)
    (text : List Char) : Text.breaks word (escape text) = Text.breaks word text := by
  induction text with
  | nil => rfl
  | cons c text ih =>
    by_cases hc : c = '\'' ∨ c = '\\'
    · have hfeed : c ≠ '\n' := by
        rintro rfl
        revert hc
        decide
      simp [escape, hc, Text.breaks, hfeed, ih]
    · simp [escape, hc, Text.breaks, prefix_escape_iff hquote hslash, ih]

/-! ### Rows -/

theorem createLines_eq (text : String) :
    createLines text = (if createWord <+: text.toList then 1 else 0) + strays text :=
  Text.countP_splitAt (by decide) text.toList

/-- Behind a character that is not in `CREATE ` only the places behind line feeds count. -/
theorem createLines_append {text front : String} {c : Char} {more : List Char}
    (hc : c ∉ createWord) (htext : text.toList = front.toList ++ c :: more) :
    createLines text = createLines front + Text.breaks createWord (c :: more) := by
  rw [createLines_eq, createLines_eq, strays, strays, htext, Text.breaks_append_cons hc]
  simp only [Text.prefix_append_cons_iff hc]
  omega

/-- A row around a literal has the lines of what stands before it and those inside the value. -/
theorem createLines_quote (front value : String) {back : String} (hback : '\n' ∉ back.toList) :
    createLines (front ++ quote value ++ back) = createLines front + strays value := by
  have htext : (front ++ quote value ++ back).toList
      = front.toList ++ '\'' :: (escape value.toList ++ '\'' :: back.toList) := by
    simp only [String.toList_append, toList_quote, List.append_assoc, List.cons_append,
      List.nil_append]
  have hend : Text.breaks createWord ('\'' :: back.toList) = 0 :=
    Text.breaks_eq_zero_of_not_mem (by simpa using hback)
  have hvalue : Text.breaks createWord (escape value.toList) = strays value :=
    breaks_escape (by decide) (by decide) value.toList
  -- the two quotes cut the row into what stands before, inside and behind the literal
  rw [createLines_append (by decide) htext, Text.breaks, if_neg (by simp),
    Text.breaks_append_cons (by decide), hend, hvalue]
  omega

/-- A text without line feeds that begins with another character has no such line. -/
theorem createLines_eq_zero {text : String} (hfeed : '\n' ∉ text.toList)
    (hfirst : text.toList.head? ≠ some 'C') : createLines text = 0 := by
  have hword : ¬ createWord <+: text.toList := by
    rintro ⟨more, hmore⟩
    rw [← hmore] at hfirst
    exact hfirst rfl
  rw [createLines_eq, if_neg hword, strays, Text.breaks_eq_zero_of_not_mem hfeed]

/-- The lines of rows that begin with `CREATE `, row by row. -/
def rowLines (rows : List String) : Nat := (rows.map createLines).sum

theorem rowLines_cons (row : String) (rows : List String) :
    rowLines (row :: rows) = createLines row + rowLines rows := rfl

theorem rowLines_append (rows more : List String) :
    rowLines (rows ++ more) = rowLines rows + rowLines more := by
  simp [rowLines]

theorem createLines_unlines (rows : List String) :
    createLines (Text.unlines rows) = rowLines rows :=
  Text.linesWith_unlines (by decide) rows

/-! ### Statements -/

/-- The texts in a value. -/
def Value.texts : Value → List String
  | .text value => [value]
  | .flag _ => []

/-- The texts a statement is made from; a variable comes with its mark. -/
def Statement.texts : Statement → List String
  | .create name _ ps => name :: ps.flatMap fun p => p.value.texts
  | .connect source target ps => source :: target :: ps.flatMap fun p => p.value.texts

/-- The label and the property names of a statement have no line feeds. -/
def Statement.Flat : Statement → Prop
  | .create _ label ps => '\n' ∉ label.toList ∧ ∀ p ∈ ps, '\n' ∉ p.name.toList
  | .connect _ _ ps => ∀ p ∈ ps, '\n' ∉ p.name.toList

/-- The places where a line begins with `CREATE ` in any of some texts. -/
def allStrays (texts : List String) : Nat := (texts.map strays).sum

theorem allStrays_cons (text : String) (texts : List String) :
    allStrays (text :: texts) = strays text + allStrays texts := rfl

theorem allStrays_append (texts more : List String) :
    allStrays (texts ++ more) = allStrays texts + allStrays more := by
  simp [allStrays]

theorem allStrays_eq_zero_iff {texts : List String} :
    allStrays texts = 0 ↔ ∀ text ∈ texts, strays text = 0 := by
  simp [allStrays, List.sum_eq_zero_iff_forall_eq_nat]

theorem createLines_property {p : Property} (hname : '\n' ∉ p.name.toList) (comma : String)
    (hcomma : '\n' ∉ comma.toList) :
    createLines (p.written ++ comma) = allStrays p.value.texts := by
  obtain ⟨name, value⟩ := p
  have hfront : createLines ("  " ++ name ++ ": ") = 0 := by
    apply createLines_eq_zero
    · simpa using hname
    · simp
  cases value with
  | text value =>
    show createLines ("  " ++ name ++ ": " ++ quote value ++ comma) = _
    rw [createLines_quote _ _ hcomma, hfront]
    simp [allStrays, Value.texts]
  | flag b =>
    apply createLines_eq_zero
    · cases b <;> simpa [Property.written, Value.written] using ⟨hname, hcomma⟩
    · simp [Property.written]

/-- The rows of properties have the lines inside their texts. -/
theorem rowLines_properties {ps : List Property} (h : ∀ p ∈ ps, '\n' ∉ p.name.toList) :
    rowLines (propertyRows ps) = allStrays (ps.flatMap fun p => p.value.texts) := by
  induction ps with
  | nil => rfl
  | cons p ps ih =>
    obtain ⟨hp, hmore⟩ := List.forall_mem_cons.mp h
    cases ps with
    | nil =>
      have hrow := createLines_property hp "" (by decide)
      rw [String.append_empty] at hrow
      simpa [propertyRows, rowLines] using hrow
    | cons q ps =>
      have hrow := createLines_property hp "," (by decide)
      have hrows := ih hmore
      show createLines (p.written ++ ",") + rowLines (propertyRows (q :: ps))
        = allStrays (p.value.texts ++ (q :: ps).flatMap fun p => p.value.texts)
      rw [hrow, hrows, allStrays_append]

/-- The row of a created node begins with `CREATE `, and the variable may have lines of its own. -/
theorem createLines_node (name : String) {label : String} (hlabel : '\n' ∉ label.toList) :
    createLines ("CREATE (" ++ name ++ ":" ++ label ++ " \x7b") = 1 + strays name := by
  have htext : ("CREATE (" ++ name ++ ":" ++ label ++ " \x7b").toList
      = ("CREATE (" ++ name).toList ++ ':' :: (label ++ " \x7b").toList := by
    simp [String.toList_append]
  have hend : Text.breaks createWord (':' :: (label ++ " \x7b").toList) = 0 :=
    Text.breaks_eq_zero_of_not_mem (by simpa using hlabel)
  have hword : createWord <+: ("CREATE (" ++ name).toList := by
    rw [String.toList_append]
    exact List.prefix_append_of_prefix (by decide)
  have hname : strays ("CREATE (" ++ name) = strays name := by
    rw [strays, String.toList_append, Text.breaks_append_of_not_mem (by decide), strays]
  rw [createLines_append (by decide) htext, createLines_eq, if_pos hword, hname, hend]
  omega

/-- The row that finds a method node has the lines inside the id. -/
theorem createLines_match (name id : String) (hname : '\n' ∉ name.toList) :
    createLines (matchRow name id) = strays id := by
  have hfront : createLines ("MATCH (" ++ name ++ ":Method \x7bid: ") = 0 := by
    apply createLines_eq_zero
    · simpa using hname
    · simp
  rw [matchRow, createLines_quote _ _ (by decide), hfront, Nat.zero_add]

/-- **One line for each statement**: the row that creates it begins with `CREATE `, and other lines
that do lie inside the texts it is made from. -/
theorem rowLines_statement {s : Statement} (h : s.Flat) :
    rowLines s.rows = 1 + allStrays s.texts := by
  cases s with
  | create name label ps =>
    obtain ⟨hlabel, hps⟩ := h
    have hrow := createLines_node name hlabel
    have hrows := rowLines_properties hps
    have hend : createLines "\x7d);" = 0 := createLines_eq_zero (by decide) (by decide)
    have hempty : createLines "" = 0 := createLines_eq_zero (by decide) (by decide)
    have hback : rowLines ["\x7d);", ""] = 0 := by
      rw [rowLines_cons, rowLines_cons, hend, hempty]
      rfl
    rw [Statement.rows, List.cons_append, rowLines_cons, rowLines_append, hrow, hrows, hback,
      Statement.texts, allStrays_cons]
    omega
  | connect source target ps =>
    have hsource := createLines_match "m1" source (by decide)
    have htarget := createLines_match "m2" target (by decide)
    have hrow : createLines "CREATE (m1)-[:CALLS \x7b" = 1 := by decide
    have hrows := rowLines_properties h
    have hend : createLines "\x7d]->(m2);" = 0 := createLines_eq_zero (by decide) (by decide)
    have hempty : createLines "" = 0 := createLines_eq_zero (by decide) (by decide)
    have hback : rowLines ["\x7d]->(m2);", ""] = 0 := by
      rw [rowLines_cons, rowLines_cons, hend, hempty]
      rfl
    simp only [Statement.rows, List.cons_append, List.nil_append, rowLines_cons, rowLines_append,
      hsource, htarget, hrow, hrows, hback, Statement.texts, allStrays_cons]
    omega

/-- Statements have one line each, and those inside the texts they are made from. -/
theorem rowLines_statements {statements : List Statement} (h : ∀ s ∈ statements, s.Flat) :
    rowLines (statements.flatMap Statement.rows)
      = statements.length + allStrays (statements.flatMap Statement.texts) := by
  induction statements with
  | nil => rfl
  | cons s statements ih =>
    obtain ⟨hs, hmore⟩ := List.forall_mem_cons.mp h
    rw [List.flatMap_cons, rowLines_append, rowLines_statement hs, ih hmore,
      List.flatMap_cons, allStrays_append, List.length_cons]
    omega

/-! ### Scripts -/

/-- Sections have the lines of their statements, as long as their headings have none. -/
theorem rowLines_sections {sections : List Section}
    (h : ∀ s ∈ sections, createLines s.heading = 0) :
    rowLines (sections.flatMap Section.rows)
      = rowLines ((sections.flatMap Section.statements).flatMap Statement.rows) := by
  induction sections with
  | nil => rfl
  | cons s sections ih =>
    obtain ⟨hs, hmore⟩ := List.forall_mem_cons.mp h
    rw [List.flatMap_cons, List.flatMap_cons, List.flatMap_append, rowLines_append,
      rowLines_append, ih hmore, Section.rows, rowLines_cons, hs, Nat.zero_add]

theorem flat_statements (d : Document) : ∀ s ∈ statements d, s.Flat := by
  rw [forall_mem_statements]
  refine ⟨fun r _ => ?_, fun r _ => ?_, fun r _ => ?_, fun call _ s hs => ?_⟩
  · simp [Statement.ofService, Statement.Flat]
  · simp [Statement.ofClass, Statement.Flat]
  · simp [Statement.ofMethod, Statement.Flat]
  · obtain ⟨target, -, rfl⟩ := Option.map_eq_some_iff.mp hs
    simp [Statement.Flat]

/-- The lines of a script that begin with `CREATE `: one for each statement, and those inside the
texts that the statements are made from. -/
theorem createLines_eq_statementCount (d : Document) : createLines (script d)
    = statementCount d + allStrays ((statements d).flatMap Statement.texts) := by
  have htitle : rowLines titleRows = 0 := by decide
  have hheadings : ∀ s ∈ sections d, createLines s.heading = 0 := by
    simp only [sections, List.forall_mem_cons]
    decide
  have hrows := rowLines_statements (flat_statements d)
  rw [script, createLines_unlines, rowLines_append, htitle, rowLines_sections hheadings,
    ← statements, hrows, length_statements, Nat.zero_add]

/-! ### Exported texts -/

/-- The raw characters of a variable are the first of an id, so they have no line of their own if
the id has none. -/
theorem strays_variable {mark id : String} (hmark : '\n' ∉ mark.toList) (hid : strays id = 0) :
    strays (mark ++ shortId id) = 0 := by
  rw [strays, Text.breaks_eq_zero_iff] at hid
  rw [strays, String.toList_append, Text.breaks_append_of_not_mem hmark, Text.breaks_eq_zero_iff,
    toList_shortId]
  intro hshort
  exact hid (hshort.trans (List.take_prefix ..).isInfix)

/-- A node named after an id has no lines of its own if its values have none, the id among them. -/
theorem strays_node_iff {mark id label : String} {ps : List Property}
    (hmark : '\n' ∉ mark.toList) :
    allStrays (Statement.create (mark ++ shortId id) label (⟨"id", .text id⟩ :: ps)).texts = 0
      ↔ ∀ text ∈ id :: ps.flatMap fun p => p.value.texts, strays text = 0 := by
  rw [allStrays_eq_zero_iff]
  show (∀ text ∈ (mark ++ shortId id) :: id :: ps.flatMap _, strays text = 0) ↔ _
  rw [List.forall_mem_cons]
  constructor
  · intro h
    exact h.2
  · intro h
    exact ⟨strays_variable hmark (h id (List.mem_cons_self ..)), h⟩

/-- The statements of a document have no lines of their own exactly when its exported texts have
none. -/
theorem allStrays_statements_iff (d : Document) :
    allStrays ((statements d).flatMap Statement.texts) = 0
      ↔ ∀ text ∈ d.exportedTexts, strays text = 0 := by
  have hservice (r : Service) : allStrays (Statement.ofService r).texts = 0
      ↔ ∀ text ∈ [r.id, r.name, r.artifactId], strays text = 0 := strays_node_iff (by decide)
  have hclass (r : Class) : allStrays (Statement.ofClass r).texts = 0
      ↔ ∀ text ∈ [r.id, r.className, r.qualifiedName, r.kind.label], strays text = 0 :=
    strays_node_iff (by decide)
  have hmethod (r : Method) : allStrays (Statement.ofMethod r).texts = 0
      ↔ ∀ text ∈ [r.id, r.methodName, r.signature], strays text = 0 := strays_node_iff (by decide)
  have hcall (call : Call) : (∀ s, Statement.ofCall? call = some s → allStrays s.texts = 0)
      ↔ ∀ target ∈ call.resolvedTarget.toList,
        ∀ text ∈ [call.sourceMethodId, target, call.kind.label], strays text = 0 := by
    cases htarget : call.resolvedTarget with
    | none => simp [Statement.ofCall?, htarget]
    | some target =>
      simp [Statement.ofCall?, htarget, Statement.texts, Value.texts, allStrays_eq_zero_iff]
  simp only [Document.exportedTexts, List.forall_mem_append, List.forall_mem_flatMap, ← hservice,
    ← hclass, ← hmethod, ← hcall]
  simp only [allStrays_eq_zero_iff, List.forall_mem_flatMap, forall_mem_statements, and_assoc]

/-- **The two counts of statements.**  A script has no fewer lines that begin with `CREATE ` than it
has statements, and as many exactly when `CREATE ` stands behind a line feed in none of the exported
texts, so certainly when there is no line feed in them. -/
theorem createLines_script (d : Document) :
    statementCount d ≤ createLines (script d)
      ∧ (createLines (script d) = statementCount d
        ↔ ∀ text ∈ d.exportedTexts, ¬ "\nCREATE ".toList <:+: text.toList)
      ∧ ((∀ text ∈ d.exportedTexts, '\n' ∉ text.toList)
        → createLines (script d) = statementCount d) := by
  have hlines := createLines_eq_statementCount d
  have hexported := allStrays_statements_iff d
  have hstrays (text : String) : strays text = 0 ↔ ¬ "\nCREATE ".toList <:+: text.toList :=
    Text.breaks_eq_zero_iff
  refine ⟨by omega, ?_, ?_⟩
  · simp only [← hstrays, ← hexported]
    omega
  · intro hfeed
    have hzero := hexported.mpr fun text htext => Text.breaks_eq_zero_of_not_mem (hfeed text htext)
    omega

/-- A service whose id has a `CREATE ` behind a line feed. -/
def strayDocument : Document where
  services := [{ id := "\nCREATE x", name := "Orders\nCREATE" }]

/-- A call between two methods. -/
def plainDocument : Document where
  methods := [{ id := "m1" }, { id := "m2" }]
  calls := [{ sourceMethodId := "m1", targetMethodId := some "m2" }]

/-- The stray id is written twice, as a value and as a variable. -/
theorem createLines_script_stray :
    (statementCount strayDocument = 1 ∧ createLines (script strayDocument) = 3
      ∧ ¬ ∀ text ∈ strayDocument.exportedTexts, ¬ "\nCREATE ".toList <:+: text.toList)
    ∧ (∀ text ∈ plainDocument.exportedTexts, '\n' ∉ text.toList)
      ∧ createLines (script plainDocument) = statementCount plainDocument := by
  have hfeed : ∀ text ∈ plainDocument.exportedTexts, '\n' ∉ text.toList := by decide +kernel
  have hlines : createLines (script strayDocument) = 3 := by
    rw [createLines_eq_statementCount]
    decide +kernel
  refine ⟨⟨rfl, hlines, ?_⟩, hfeed, (createLines_script plainDocument).2.2 hfeed⟩
  intro h
  have hcount := (createLines_script strayDocument).2.1.mpr h
  rw [hlines] at hcount
  cases hcount

end Cypher

end CallGraph
