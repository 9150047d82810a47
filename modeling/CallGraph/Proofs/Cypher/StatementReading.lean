import CallGraph.Proofs.Cypher.Decoding

/-!
# Reading the statements of scripts

A script is read part by part, where a part is a comment, an empty row or a statement, in whatever
order they come.  The properties of a statement may have any names; literals are read as the texts
they stand for.

* `propertyMap`, `createNode`, `connectNodes` — properties and statements, as scans, each with the
  text that it reads;
* `scriptPart`, `readStatements` — one part of a script, and the statements of all parts;
* `reads_statements` — every statement of a document is read, whatever is in the records;
* `readStatements_script` — the statements of a script are read back in their order.
-/

namespace CallGraph.Cypher

variable {α : Type}

/-! ### Properties -/

/-- The characters before the first of a kind, which goes with them. -/
def textBefore (c : Char) : Scan (List Char) := fun text =>
  match text.dropWhile (· ≠ c) with
  | [] => none
  | _ :: rest => some (text.takeWhile (· ≠ c), rest)

theorem reads_textBefore {c : Char} {text : List Char} (h : c ∉ text) :
    Reads (textBefore c) (text ++ [c]) text := by
  intro rest
  have hbody : ∀ d ∈ text, decide (d ≠ c) = true := by
    intro d hd
    rw [decide_eq_true_eq]
    rintro rfl
    exact h hd
  have hend : ∀ d ∈ (c :: rest).head?, decide (d ≠ c) = false := by simp
  obtain ⟨htake, hdrop⟩ := Text.span_exact hbody hend
  rw [List.append_assoc, List.singleton_append, run_scan, textBefore, htake, hdrop]

/-- The name and the value of a property. -/
def nameAndValue : Scan Property := do
  fixed "  "
  let name ← textBefore ':'
  fixed " "
  let v ← value
  return ⟨String.ofList name, v⟩

theorem reads_nameAndValue {p : Property} (hname : ':' ∉ p.name.toList) :
    Reads nameAndValue p.written.toList p := by
  have hrow : p.written.toList = "  ".toList
      ++ ((p.name.toList ++ [':']) ++ (" ".toList ++ p.value.written.toList)) := by
    simp only [Property.written, String.toList_append, List.append_assoc]
    rfl
  have hend : Reads (pure ⟨String.ofList p.name.toList, p.value⟩ : Scan Property) [] p := by
    rw [String.ofList_toList]
    exact reads_pure p
  rw [hrow]
  exact (reads_fixed "  ").bind ((reads_textBefore hname).bind
    ((reads_fixed " ").bind ((reads_value p.value).conclude hend)))

/-- A property and what stands behind it. -/
def property (ending : String) : Scan Property := do
  let p ← nameAndValue
  fixed ending
  return p

theorem reads_property {p : Property} (hname : ':' ∉ p.name.toList) (ending : String) :
    Reads (property ending) (p.written.toList ++ ending.toList) p :=
  (reads_nameAndValue hname).bind ((reads_fixed ending).conclude (reads_pure p))

/-- A property in the last row is not read as one with a comma behind it. -/
theorem run_property_last {p : Property} (hname : ':' ∉ p.name.toList) (rest : List Char) :
    (property ",\n").run (p.written.toList ++ '\n' :: rest) = none := by
  rw [property, StateT.run_bind, reads_nameAndValue hname]
  rfl

/-- Properties in rows of their own, with commas behind all but the last. -/
def propertyMap : Scan (List Property) := do
  let front ← fun text => some (many (property ",\n") text)
  let last ← property "\n"
  return front ++ [last]

/-- The rows of properties are those with a comma and the last. -/
theorem rowText_propertyRows (ps : List Property) (last : Property) :
    rowText (propertyRows (ps ++ [last]))
      = ps.flatMap (fun p => p.written.toList ++ ",\n".toList)
        ++ (last.written.toList ++ "\n".toList) := by
  induction ps with
  | nil =>
    rw [List.nil_append, propertyRows, rowText_cons]
    rfl
  | cons p ps ih =>
    obtain ⟨q, more, hmore⟩ := List.exists_cons_of_ne_nil (List.append_ne_nil_of_right_ne_nil ps
      (List.cons_ne_nil last []))
    have hrow : rowText (propertyRows (p :: q :: more))
        = (p.written ++ ",").toList ++ (['\n'] ++ rowText (propertyRows (q :: more))) :=
      rowText_cons ..
    rw [hmore] at ih
    rw [List.cons_append, hmore, hrow, ih, String.toList_append, List.flatMap_cons]
    simp only [List.append_assoc]
    rfl

theorem reads_propertyMap {ps : List Property} (hne : ps ≠ [])
    (hnames : ∀ p ∈ ps, ':' ∉ p.name.toList) :
    Reads propertyMap (rowText (propertyRows ps)) ps := by
  obtain ⟨front, last, rfl⟩ := (List.eq_nil_or_concat' ps).resolve_left hne
  rw [List.forall_mem_append, List.forall_mem_singleton] at hnames
  have hfront (p : Property) (hp : p ∈ front) := reads_property (hnames.1 p hp) ",\n"
  have hstop (rest : List Char) :
      (property ",\n").run (last.written.toList ++ "\n".toList ++ rest) = none := by
    rw [List.append_assoc]
    exact run_property_last hnames.2 rest
  rw [rowText_propertyRows]
  refine reads_many_bind (fun p hp => ⟨by simp, hfront p hp⟩) hstop ?_
  rw [List.map_id']
  exact (reads_property hnames.2 "\n").conclude (reads_pure _)

/-! ### Statements -/

/-- The raw characters of a variable, up to the label behind them. -/
def rawVariable (label : String) : Scan String := do
  let text ← get
  variableAndLabel label
  let rest ← get
  let length := text.length - rest.length - (':' :: (label ++ " \x7b\n").toList).length
  return String.ofList (text.take length)

theorem reads_rawVariable (id label : String) (hc : ':' ∉ (label ++ " \x7b\n").toList)
    (hlen : shortLength ≤ (label ++ " \x7b\n").toList.length) :
    Reads (rawVariable label) ((shortId id).toList ++ ':' :: (label ++ " \x7b\n").toList)
      (shortId id) := by
  intro rest
  have hread := reads_variableAndLabel id label hc hlen rest
  have hlength (short ending : List Char) :
      (short ++ ending ++ rest).length - rest.length - ending.length = short.length := by
    simp only [List.length_append]
    omega
  have htake (short ending : List Char) : (short ++ ending ++ rest).take short.length = short := by
    rw [List.append_assoc, List.take_left]
  simp only [rawVariable, StateT.run_bind, StateT.run_get, Option.pure_def, Option.bind_eq_bind,
    Option.bind_some, hread, StateT.run_pure, hlength, htake, String.ofList_toList]

/-- A statement that creates a node with a label, under a variable with a mark before its raw
characters. -/
def createNode (mark label : String) : Scan Statement := do
  fixed ("CREATE (" ++ mark)
  let raw ← rawVariable label
  let properties ← propertyMap
  fixedRows ["\x7d);", ""]
  return .create (mark ++ raw) label properties

theorem reads_createNode (mark id label : String) {ps : List Property}
    (hc : ':' ∉ (label ++ " \x7b\n").toList)
    (hlen : shortLength ≤ (label ++ " \x7b\n").toList.length) (hne : ps ≠ [])
    (hnames : ∀ p ∈ ps, ':' ∉ p.name.toList) :
    Reads (createNode mark label) (rowText (Statement.create (mark ++ shortId id) label ps).rows)
      (.create (mark ++ shortId id) label ps) := by
  have hvariable := reads_rawVariable id label hc hlen
  have hproperties := reads_propertyMap hne hnames
  have hend := reads_fixedRows ["\x7d);", ""]
  rw [rowText_create]
  exact (reads_fixed _).bind (hvariable.bind (hproperties.bind (hend.conclude (reads_pure _))))

/-- A statement that creates relationships. -/
def connectNodes : Scan Statement := do
  let source ← matchedId "m1"
  let target ← matchedId "m2"
  fixedRows ["CREATE (m1)-[:CALLS \x7b"]
  let properties ← propertyMap
  fixedRows ["\x7d]->(m2);", ""]
  match source, target with
  | .text source, .text target => return .connect source target properties
  | _, _ => failure

theorem reads_connectNodes (source target : String) {ps : List Property} (hne : ps ≠ [])
    (hnames : ∀ p ∈ ps, ':' ∉ p.name.toList) :
    Reads connectNodes (rowText (Statement.connect source target ps).rows)
      (.connect source target ps) := by
  have hsource := reads_matchedId "m1" source
  have htarget := reads_matchedId "m2" target
  have hstart := reads_fixedRows ["CREATE (m1)-[:CALLS \x7b"]
  have hproperties := reads_propertyMap hne hnames
  have hend := reads_fixedRows ["\x7d]->(m2);", ""]
  rw [rowText_connect]
  exact hsource.bind (htarget.bind (hstart.bind (hproperties.bind
    (hend.conclude (reads_pure _)))))

/-! ### Parts of scripts -/

/-- Any statement: the mark of a variable tells the label of its node. -/
def anyStatement : Scan Statement :=
  createNode "s_" "Service" <|> createNode "c_" "Class" <|> createNode "m_" "Method"
    <|> connectNodes

/-- A row without a statement: a comment or nothing. -/
def remark : Scan Unit := (do fixed "//"; let _ ← textBefore '\n') <|> fixed "\n"

/-- A statement, or a row without one. -/
def scriptPart : Scan (Option Statement) := some <$> anyStatement <|> (fun _ => none) <$> remark

theorem Reads.orElse_left {scan other : Scan α} {text : List Char} {a : α}
    (h : Reads scan text a) : Reads (scan <|> other) text a := by
  intro rest
  rw [StateT.run_orElse, h rest]
  rfl

/-- A scan that fails on all texts with the same front is passed over. -/
theorem Reads.orElse_right {scan other : Scan α} {text front : List Char} {a : α}
    (h : Reads other text a) (hfront : front <+: text)
    (hscan : ∀ rest, scan.run (front ++ rest) = none) : Reads (scan <|> other) text a := by
  obtain ⟨back, rfl⟩ := hfront
  intro rest
  have hnone := hscan (back ++ rest)
  rw [← List.append_assoc] at hnone
  rw [StateT.run_orElse, hnone, h rest]
  rfl

theorem front_create (mark id label : String) (ps : List Property) :
    ("CREATE (" ++ mark).toList
      <+: rowText (Statement.create (mark ++ shortId id) label ps).rows := by
  rw [rowText_create]
  exact List.prefix_append ..

theorem front_connect (source target : String) (ps : List Property) :
    "MATCH (".toList <+: rowText (Statement.connect source target ps).rows := by
  have hrow : rowText [matchRow "m1" source] = "MATCH (".toList
      ++ (("m1" ++ ":Method \x7bid: " ++ quote source ++ "\x7d)").toList ++ ['\n']) := by
    simp only [rowText, List.flatMap_cons, List.flatMap_nil, matchRow, String.toList_append,
      List.append_assoc, List.append_nil]
  rw [rowText_connect, hrow, List.append_assoc]
  exact List.prefix_append ..

/-- The statements of a document are read, whatever is in its records. -/
theorem reads_statements (d : Document) :
    ∀ s ∈ statements d, Reads anyStatement (rowText s.rows) s := by
  rw [forall_mem_statements]
  -- the marks differ, so the alternatives before the right one fail at the front of the text
  refine ⟨fun r _ => ?_, fun r _ => ?_, fun r _ => ?_, fun call _ s hs => ?_⟩
  · have hnode : Reads (createNode "s_" "Service") (rowText (Statement.ofService r).rows)
        (.ofService r) :=
      reads_createNode "s_" r.id "Service" (by decide) (by decide) (by simp) (by simp)
    exact hnode.orElse_left
  · have hnode : Reads (createNode "c_" "Class") (rowText (Statement.ofClass r).rows)
        (.ofClass r) :=
      reads_createNode "c_" r.id "Class" (by decide) (by decide) (by simp) (by simp)
    have hfront : "CREATE (c_".toList <+: rowText (Statement.ofClass r).rows :=
      front_create "c_" r.id "Class" _
    exact hnode.orElse_left.orElse_right hfront fun _ => rfl
  · have hnode : Reads (createNode "m_" "Method") (rowText (Statement.ofMethod r).rows)
        (.ofMethod r) :=
      reads_createNode "m_" r.id "Method" (by decide) (by decide) (by simp) (by simp)
    have hfront : "CREATE (m_".toList <+: rowText (Statement.ofMethod r).rows :=
      front_create "m_" r.id "Method" _
    exact (hnode.orElse_left.orElse_right hfront fun _ => rfl).orElse_right hfront fun _ => rfl
  · obtain ⟨target, -, rfl⟩ := Option.map_eq_some_iff.mp hs
    let ps : List Property :=
      [⟨"callType", .text call.kind.label⟩, ⟨"crossService", .flag call.crossService⟩]
    have hlink : Reads connectNodes (rowText (Statement.connect call.sourceMethodId target ps).rows)
        (.connect call.sourceMethodId target ps) :=
      reads_connectNodes call.sourceMethodId target (by simp [ps]) (by simp [ps])
    have hfront := front_connect call.sourceMethodId target ps
    exact ((hlink.orElse_right hfront fun _ => rfl).orElse_right hfront fun _ => rfl).orElse_right
      hfront fun _ => rfl

/-- Rows that are no part of a statement: comments and empty rows. -/
def IsRemark (row : String) : Prop :=
  row = "" ∨ "//".toList <+: row.toList ∧ '\n' ∉ row.toList

theorem reads_remark {row : String} (h : IsRemark row) :
    Reads scriptPart (rowText [row]) none := by
  rcases h with rfl | ⟨⟨line, hline⟩, hfeed⟩
  · have hempty : Reads (fixed "\n") (rowText [""]) () := reads_fixed "\n"
    have hremark : Reads remark (rowText [""]) () :=
      hempty.orElse_right List.prefix_rfl fun _ => rfl
    exact (hremark.map _).orElse_right List.prefix_rfl fun _ => rfl
  · have hrow : rowText [row] = "//".toList ++ (line ++ ['\n']) := by
      rw [rowText_cons, ← hline, List.append_assoc]
      rfl
    have hfront : "//".toList <+: rowText [row] := by
      rw [hrow]
      exact List.prefix_append ..
    have hremark : Reads remark (rowText [row]) () := by
      have hmore : '\n' ∉ line := by
        rw [← hline] at hfeed
        simpa using hfeed
      rw [hrow]
      exact ((reads_fixed "//").bind ((reads_textBefore hmore).conclude
        (reads_pure ()))).orElse_left
    exact (hremark.map _).orElse_right hfront fun _ => rfl

/-! ### Scripts -/

/-- The rows of a section part by part, each part with its statement if it is one. -/
def Section.parts (s : Section) : List (List String × Option Statement) :=
  ([s.heading], none) :: s.statements.map fun statement => (statement.rows, some statement)

/-- The rows of a script part by part. -/
def scriptParts (d : Document) : List (List String × Option Statement) :=
  titleRows.map (fun row => ([row], none)) ++ (sections d).flatMap Section.parts

theorem flatMap_parts (s : Section) :
    s.parts.flatMap (fun part => rowText part.1) = rowText s.rows := by
  have hstatements : (s.statements.map fun statement =>
      (statement.rows, some statement)).flatMap (fun part => rowText part.1)
      = rowText (s.statements.flatMap Statement.rows) := by
    rw [List.flatMap_map, rowText, List.flatMap_assoc]
    rfl
  rw [Section.parts, List.flatMap_cons, hstatements, ← rowText_append]
  rfl

/-- The parts make up the text of the script. -/
theorem flatMap_scriptParts (d : Document) :
    (scriptParts d).flatMap (fun part => rowText part.1) = (script d).toList := by
  have hsections (sections : List Section) :
      (sections.flatMap Section.parts).flatMap (fun part => rowText part.1)
        = rowText (sections.flatMap Section.rows) := by
    rw [List.flatMap_assoc, rowText, List.flatMap_assoc]
    simp only [flatMap_parts]
    rfl
  have htitle : (titleRows.map fun row =>
      (([row], none) : List String × Option Statement)).flatMap (fun part => rowText part.1)
      = rowText titleRows := rfl
  rw [scriptParts, List.flatMap_append, hsections, htitle, ← rowText_append, script,
    Text.toList_unlines]
  rfl

/-- The statements among the parts are those of the document. -/
theorem filterMap_scriptParts (d : Document) :
    (scriptParts d).filterMap Prod.snd = statements d := by
  have hsection (s : Section) : s.parts.filterMap Prod.snd = s.statements := by
    have hstatements : (s.statements.map fun statement =>
        (statement.rows, some statement)).filterMap Prod.snd = s.statements := by
      rw [List.filterMap_map]
      exact List.filterMap_some
    rw [Section.parts, List.filterMap_cons_none rfl, hstatements]
  have htitle : (titleRows.map fun row =>
      (([row], none) : List String × Option Statement)).filterMap Prod.snd = [] := rfl
  rw [scriptParts, List.filterMap_append, htitle, List.nil_append, List.filterMap_flatMap]
  simp only [hsection]
  rfl

/-- Each part of a script is read. -/
theorem reads_scriptParts (d : Document) :
    ∀ part ∈ scriptParts d, rowText part.1 ≠ [] ∧ Reads scriptPart (rowText part.1) part.2 := by
  have hremark {row : String} (h : IsRemark row) :
      rowText [row] ≠ [] ∧ Reads scriptPart (rowText [row]) none :=
    ⟨by simp [rowText], reads_remark h⟩
  rw [scriptParts, List.forall_mem_append, List.forall_mem_map, List.forall_mem_flatMap]
  constructor
  · intro row hrow
    apply hremark
    simp only [titleRows, List.mem_cons, List.not_mem_nil, or_false] at hrow
    rcases hrow with rfl | rfl | rfl
    · exact .inr (by decide)
    · exact .inr (by decide)
    · exact .inl rfl
  · intro s hs
    have hheading : ∀ s ∈ sections d, IsRemark s.heading := by
      simp only [sections, List.forall_mem_cons]
      exact ⟨.inr (by decide), .inr (by decide), .inr (by decide), .inr (by decide), by simp⟩
    rw [Section.parts, List.forall_mem_cons, List.forall_mem_map]
    refine ⟨hremark (hheading s hs), fun statement hstatement => ?_⟩
    have hmem : statement ∈ statements d := List.mem_flatMap.mpr ⟨s, hs, hstatement⟩
    exact ⟨rowText_statement_ne_nil statement,
      ((reads_statements d statement hmem).map some).orElse_left⟩

/-- The statements of a text in their order; `none` if the text is no script. -/
def readStatements (text : String) : Option (List Statement) :=
  match many scriptPart text.toList with
  | (parts, []) => some (parts.filterMap id)
  | _ => none

/-- **Statements are read back** in the order of the script, and nothing else is. -/
theorem readStatements_script (d : Document) :
    readStatements (script d) = some (statements d) := by
  have hend : scriptPart.run [] = none := rfl
  have hmany := many_flatMap (reads_scriptParts d) hend
  rw [List.append_nil, flatMap_scriptParts] at hmany
  have hstatements : ((scriptParts d).map Prod.snd).filterMap id = statements d := by
    rw [List.filterMap_map]
    exact filterMap_scriptParts d
  rw [readStatements, hmany]
  exact congrArg some hstatements

end CallGraph.Cypher
