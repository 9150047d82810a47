import CallGraph.Cypher.Script
import CallGraph.Proofs.Cypher.LiteralReading
import CallGraph.Proofs.Text.Rows
import Mathlib.Data.List.Infix

/-!
# Decoding scripts

A script shows of a document what the graph is built from.  Nothing of that is lost in the text:
a scan from left to right gets it back.

* `Exported`, `Document.exported` — what a script shows of a document, and `Exported.script`, the
  script written from that alone;
* `Scan`, `Reads` — scans of a text, and that a scan takes exactly a text whatever follows it;
* `variableEnd` — the end of the raw characters of a node variable: they may be any eight, but the
  label behind them cannot begin among them (`variableEnd_append`);
* `decode` — the scan of a whole script, with `decode_script`;
* `script_faithful` — scripts are equal exactly when they show the same.
-/

namespace CallGraph

/-! ### What a script shows -/

/-- What a script shows of a document: its nodes with their properties, and of the calls those that
have a target. -/
structure Exported where
  services : List (String × String × String)
  classes : List (String × String × String × String)
  methods : List (String × String × String)
  calls : List (String × String × String × Bool)
  deriving DecidableEq, Repr

/-- The exported part of a document. -/
def Document.exported (d : Document) : Exported where
  services := d.services.map fun s => (s.id, s.name, s.artifactId)
  classes := d.classes.map fun c => (c.id, c.className, c.qualifiedName, c.kind.label)
  methods := d.methods.map fun m => (m.id, m.methodName, m.signature)
  calls := d.calls.filterMap fun call =>
    (call.targetMethodId.filter (· ≠ "")).map fun target =>
      (call.sourceMethodId, target, call.kind.label, call.crossService)

namespace Cypher

/-- The node of an exported service. -/
def serviceNode : String × String × String → Statement
  | (id, name, artifactId) => .create ("s_" ++ shortId id) "Service"
    [⟨"id", .text id⟩, ⟨"name", .text name⟩, ⟨"artifactId", .text artifactId⟩]

/-- The node of an exported class. -/
def classNode : String × String × String × String → Statement
  | (id, name, qualifiedName, kind) => .create ("c_" ++ shortId id) "Class"
    [⟨"id", .text id⟩, ⟨"name", .text name⟩, ⟨"qualifiedName", .text qualifiedName⟩,
      ⟨"type", .text kind⟩]

/-- The node of an exported method. -/
def methodNode : String × String × String → Statement
  | (id, name, signature) => .create ("m_" ++ shortId id) "Method"
    [⟨"id", .text id⟩, ⟨"name", .text name⟩, ⟨"signature", .text signature⟩]

/-- The relationship of an exported call. -/
def callLink : String × String × String × Bool → Statement
  | (source, target, kind, crossService) =>
    .connect source target [⟨"callType", .text kind⟩, ⟨"crossService", .flag crossService⟩]

/-- The four sections, written from what is exported. -/
def exportedSections (e : Exported) : List Section :=
  [⟨"// 1. Create service nodes", e.services.map serviceNode⟩,
    ⟨"// 2. Create class nodes", e.classes.map classNode⟩,
    ⟨"// 3. Create method nodes", e.methods.map methodNode⟩,
    ⟨"// 4. Create method call relationships", e.calls.map callLink⟩]

/-- The sections of a document depend on its exported part only. -/
theorem sections_eq (d : Document) : sections d = exportedSections d.exported := by
  have hcalls : d.calls.filterMap Statement.ofCall? = d.exported.calls.map callLink := by
    rw [Document.exported, List.map_filterMap]
    congr 1
    funext call
    show call.resolvedTarget.map _ = Option.map callLink (Option.map _ call.resolvedTarget)
    rw [Option.map_map]
    rfl
  simp only [sections, exportedSections, hcalls, Document.exported, List.map_map]
  rfl

/-! ### Scans -/

/-- What takes a value from the front of a text. -/
abbrev Scan : Type → Type := StateT (List Char) Option

/-- A scan takes exactly a text, whatever follows it. -/
def Reads {α : Type} (scan : Scan α) (text : List Char) (value : α) : Prop :=
  ∀ rest, scan.run (text ++ rest) = some (value, rest)

variable {α β : Type}

theorem run_scan (scan : Scan α) (text : List Char) : scan.run text = scan text := rfl

theorem reads_pure (value : α) : Reads (pure value) [] value := fun _ => rfl

/-- Two scans one after the other take two texts one behind the other. -/
theorem Reads.bind {scan : Scan α} {next : α → Scan β} {text more : List Char} {a : α} {b : β}
    (h : Reads scan text a) (hnext : Reads (next a) more b) :
    Reads (scan >>= next) (text ++ more) b := by
  intro rest
  rw [StateT.run_bind, List.append_assoc, h (more ++ rest)]
  exact hnext rest

/-- A scan and a conclusion from its value. -/
theorem Reads.conclude {scan : Scan α} {next : α → Scan β} {text : List Char} {a : α} {b : β}
    (h : Reads scan text a) (hnext : Reads (next a) [] b) : Reads (scan >>= next) text b := by
  rw [← List.append_nil text]
  exact h.bind hnext

theorem Reads.map {scan : Scan α} {text : List Char} {a : α} (h : Reads scan text a)
    (f : α → β) : Reads (f <$> scan) text (f a) := by
  intro rest
  rw [StateT.run_map, h rest]
  rfl

/-- A text that is known beforehand. -/
def fixed (expected : String) : Scan Unit := fun text =>
  (text.dropPrefix? expected.toList).map fun rest => ((), rest)

theorem reads_fixed (expected : String) : Reads (fixed expected) expected.toList () := by
  intro rest
  rw [run_scan, fixed, List.dropPrefix?_append_of_beq rest (BEq.refl _)]
  rfl

/-- The characters of rows. -/
def rowText (rows : List String) : List Char := rows.flatMap fun row => row.toList ++ ['\n']

theorem rowText_cons (row : String) (rows : List String) :
    rowText (row :: rows) = row.toList ++ (['\n'] ++ rowText rows) := by
  rw [rowText, List.flatMap_cons, List.append_assoc]
  rfl

theorem rowText_append (rows more : List String) :
    rowText (rows ++ more) = rowText rows ++ rowText more :=
  List.flatMap_append

/-- Rows that are known beforehand. -/
def fixedRows (expected : List String) : Scan Unit := fixed (Text.unlines expected)

theorem reads_fixedRows (expected : List String) :
    Reads (fixedRows expected) (rowText expected) () := by
  have h := reads_fixed (Text.unlines expected)
  rw [Text.toList_unlines] at h
  exact h

/-- The value of a property: a literal or a flag. -/
def value : Scan Value
  | '\'' :: text => (readBody text).map fun (body, rest) =>
    (.text (String.ofList (unescape body)), rest)
  | 't' :: 'r' :: 'u' :: 'e' :: rest => some (.flag true, rest)
  | 'f' :: 'a' :: 'l' :: 's' :: 'e' :: rest => some (.flag false, rest)
  | _ => none

theorem reads_value (v : Value) : Reads value v.written.toList v := by
  intro rest
  cases v with
  | text text =>
    have hbody := readBody_escape text.toList rest
    rw [run_scan, Value.written, toList_quote, List.cons_append, List.append_assoc,
      List.singleton_append, value, hbody]
    simp only [Option.map_some, unescape_escape, String.ofList_toList]
  | flag b => cases b <;> rfl

/-- Named values in rows, with commas behind all but the last. -/
def properties : List String → Scan (List Value)
  | [] => pure []
  | name :: more => do
    fixed ("  " ++ name ++ ": ")
    let v ← value
    fixed (if more.isEmpty then "\n" else ",\n")
    (v :: ·) <$> properties more

theorem reads_properties (ps : List Property) :
    Reads (properties (ps.map Property.name)) (rowText (propertyRows ps))
      (ps.map Property.value) := by
  induction ps with
  | nil => exact reads_pure []
  | cons p ps ih =>
    have hname := reads_fixed ("  " ++ p.name ++ ": ")
    have hrest := ih.map (p.value :: ·)
    cases ps with
    | nil =>
      have hrow : rowText (propertyRows [p]) = ("  " ++ p.name ++ ": ").toList
          ++ (p.value.written.toList ++ ("\n".toList ++ [])) := by
        rw [propertyRows, rowText_cons, Property.written, String.toList_append, List.append_assoc]
        rfl
      rw [hrow]
      exact hname.bind ((reads_value p.value).bind ((reads_fixed "\n").bind hrest))
    | cons q ps =>
      have hrow : rowText (propertyRows (p :: q :: ps)) = ("  " ++ p.name ++ ": ").toList
          ++ (p.value.written.toList ++ (",\n".toList ++ rowText (propertyRows (q :: ps)))) := by
        show rowText ((p.written ++ ",") :: propertyRows (q :: ps)) = _
        rw [rowText_cons, Property.written, String.toList_append, String.toList_append,
          List.append_assoc, List.append_assoc]
        rfl
      rw [hrow]
      exact hname.bind ((reads_value p.value).bind ((reads_fixed ",\n").bind hrest))

/-! ### Nodes -/

/-- What follows the label of a node behind the raw characters of its variable, of which there are
at most `fuel`.  The label is the first that can be found. -/
def variableEnd (label : List Char) : (fuel : Nat) → List Char → Option (List Char)
  | fuel, text =>
    match text.dropPrefix? label, fuel, text with
    | some rest, _, _ => some rest
    | none, fuel + 1, _ :: rest => variableEnd label fuel rest
    | none, _, _ => none

/-- **No label begins among the raw characters.**  A label is a colon with at least eight other
characters behind it, so where one begins too early, its second colon would be one of them. -/
theorem dropPrefix?_raw {c : Char} {raw label rest : List Char} (hc : ':' ∉ label)
    (hlen : raw.length < label.length) :
    (c :: (raw ++ ':' :: label ++ rest)).dropPrefix? (':' :: label) = none := by
  rw [Option.eq_none_iff_forall_ne_some]
  intro found hfound
  obtain ⟨_, htext, hlabel⟩ := List.dropPrefix?_eq_some_iff.mp hfound
  rw [eq_of_beq hlabel, List.cons_append, List.cons.injEq] at htext
  have hsplit : raw ++ ':' :: (label ++ rest) = label ++ found := by
    rw [← htext.2, List.append_assoc, List.cons_append]
  rcases List.append_eq_append_iff.mp hsplit with ⟨between, hl, hr⟩ | ⟨between, hl, hr⟩
  · cases between with
    | nil =>
      rw [List.append_nil] at hl
      rw [hl] at hlen
      exact Nat.lt_irrefl _ hlen
    | cons d between =>
      rw [List.cons_append, List.cons.injEq] at hr
      exact hc (by rw [hl, ← hr.1]; simp)
  · rw [hl, List.length_append] at hlen
    omega

/-- Whatever the raw characters are, they end where the label was put. -/
theorem variableEnd_append {raw label rest : List Char} {fuel : Nat} (hc : ':' ∉ label)
    (hraw : raw.length ≤ fuel) (hfuel : fuel ≤ label.length) :
    variableEnd (':' :: label) fuel (raw ++ ':' :: label ++ rest) = some rest := by
  induction raw generalizing fuel with
  | nil =>
    unfold variableEnd
    rw [List.nil_append, List.dropPrefix?_append_of_beq rest (BEq.refl _)]
  | cons c raw ih =>
    cases fuel with
    | zero => simp at hraw
    | succ fuel =>
      rw [List.length_cons] at hraw
      unfold variableEnd
      rw [List.cons_append, List.cons_append, dropPrefix?_raw hc (by omega)]
      exact ih (by omega) (by omega)

/-- The raw characters of a variable and the label behind them. -/
def variableAndLabel (label : String) : Scan Unit := fun text =>
  (variableEnd (':' :: (label ++ " \x7b\n").toList) shortLength text).map fun rest => ((), rest)

theorem reads_variableAndLabel (id label : String) (hc : ':' ∉ (label ++ " \x7b\n").toList)
    (hlen : shortLength ≤ (label ++ " \x7b\n").toList.length) :
    Reads (variableAndLabel label)
      ((shortId id).toList ++ ':' :: (label ++ " \x7b\n").toList) () := by
  intro rest
  have hraw : (shortId id).toList.length ≤ shortLength := by
    rw [toList_shortId, List.length_take]
    exact Nat.min_le_left _ _
  rw [run_scan, variableAndLabel, variableEnd_append hc hraw hlen]
  rfl

/-- A node whose variable has a mark before the raw characters, with its named values. -/
def node (mark label : String) (names : List String) : Scan (List Value) := do
  fixed ("CREATE (" ++ mark)
  variableAndLabel label
  let values ← properties names
  fixedRows ["\x7d);", ""]
  return values

/-- The text of a created node: its variable has a mark before the raw characters. -/
theorem rowText_create (mark id label : String) (ps : List Property) :
    rowText (Statement.create (mark ++ shortId id) label ps).rows
      = ("CREATE (" ++ mark).toList ++ (((shortId id).toList ++ ':' :: (label ++ " \x7b\n").toList)
        ++ (rowText (propertyRows ps) ++ rowText ["\x7d);", ""])) := by
  rw [Statement.rows, List.cons_append, rowText_cons, rowText_append]
  simp only [String.toList_append, List.append_assoc, List.cons_append]
  rfl

theorem reads_node (mark id label : String) (ps : List Property)
    (hc : ':' ∉ (label ++ " \x7b\n").toList)
    (hlen : shortLength ≤ (label ++ " \x7b\n").toList.length) :
    Reads (node mark label (ps.map Property.name))
      (rowText (Statement.create (mark ++ shortId id) label ps).rows) (ps.map Property.value) := by
  have hvariable := reads_variableAndLabel id label hc hlen
  have hproperties := reads_properties ps
  have hend := reads_fixedRows ["\x7d);", ""]
  rw [rowText_create]
  exact (reads_fixed _).bind (hvariable.bind (hproperties.bind (hend.conclude (reads_pure _))))

/-- An exported service. -/
def service : Scan (String × String × String) := do
  match ← node "s_" "Service" ["id", "name", "artifactId"] with
  | [.text id, .text name, .text artifactId] => return (id, name, artifactId)
  | _ => failure

/-- An exported class. -/
def classRecord : Scan (String × String × String × String) := do
  match ← node "c_" "Class" ["id", "name", "qualifiedName", "type"] with
  | [.text id, .text name, .text qualifiedName, .text kind] =>
    return (id, name, qualifiedName, kind)
  | _ => failure

/-- An exported method. -/
def method : Scan (String × String × String) := do
  match ← node "m_" "Method" ["id", "name", "signature"] with
  | [.text id, .text name, .text signature] => return (id, name, signature)
  | _ => failure

theorem reads_service (s : String × String × String) :
    Reads service (rowText (serviceNode s).rows) s := by
  have hnode := reads_node "s_" s.1 "Service" [⟨"id", .text s.1⟩, ⟨"name", .text s.2.1⟩,
    ⟨"artifactId", .text s.2.2⟩] (by decide) (by decide)
  exact hnode.conclude (reads_pure s)

theorem reads_classRecord (c : String × String × String × String) :
    Reads classRecord (rowText (classNode c).rows) c := by
  have hnode := reads_node "c_" c.1 "Class" [⟨"id", .text c.1⟩, ⟨"name", .text c.2.1⟩,
    ⟨"qualifiedName", .text c.2.2.1⟩, ⟨"type", .text c.2.2.2⟩] (by decide) (by decide)
  exact hnode.conclude (reads_pure c)

theorem reads_method (m : String × String × String) :
    Reads method (rowText (methodNode m).rows) m := by
  have hnode := reads_node "m_" m.1 "Method" [⟨"id", .text m.1⟩, ⟨"name", .text m.2.1⟩,
    ⟨"signature", .text m.2.2⟩] (by decide) (by decide)
  exact hnode.conclude (reads_pure m)

/-! ### Relationships -/

/-- The id in a row that finds a method node. -/
def matchedId (name : String) : Scan Value := do
  fixed ("MATCH (" ++ name ++ ":Method \x7bid: ")
  let id ← value
  fixed "\x7d)\n"
  return id

theorem reads_matchedId (name id : String) :
    Reads (matchedId name) (rowText [matchRow name id]) (.text id) := by
  have hrow : rowText [matchRow name id] = ("MATCH (" ++ name ++ ":Method \x7bid: ").toList
      ++ ((Value.text id).written.toList ++ "\x7d)\n".toList) := by
    simp only [rowText, List.flatMap_cons, List.flatMap_nil, matchRow, String.toList_append,
      List.append_assoc]
    rfl
  rw [hrow]
  have hid := reads_value (.text id)
  have hend := reads_fixed "\x7d)\n"
  exact (reads_fixed _).bind (hid.bind (hend.conclude (reads_pure _)))

/-- An exported call. -/
def call : Scan (String × String × String × Bool) := do
  let source ← matchedId "m1"
  let target ← matchedId "m2"
  fixedRows ["CREATE (m1)-[:CALLS \x7b"]
  let values ← properties ["callType", "crossService"]
  fixedRows ["\x7d]->(m2);", ""]
  match source, target, values with
  | .text source, .text target, [.text kind, .flag crossService] =>
    return (source, target, kind, crossService)
  | _, _, _ => failure

/-- The text of a created relationship. -/
theorem rowText_connect (source target : String) (ps : List Property) :
    rowText (Statement.connect source target ps).rows
      = rowText [matchRow "m1" source] ++ (rowText [matchRow "m2" target]
        ++ (rowText ["CREATE (m1)-[:CALLS \x7b"]
        ++ (rowText (propertyRows ps) ++ rowText ["\x7d]->(m2);", ""]))) := by
  rw [← rowText_append, ← rowText_append, ← rowText_append, ← rowText_append]
  rfl

theorem reads_call (c : String × String × String × Bool) :
    Reads call (rowText (callLink c).rows) c := by
  obtain ⟨source, target, kind, crossService⟩ := c
  let ps : List Property := [⟨"callType", .text kind⟩, ⟨"crossService", .flag crossService⟩]
  have hps : Reads (properties ["callType", "crossService"]) (rowText (propertyRows ps))
      [.text kind, .flag crossService] := reads_properties ps
  have hsource := reads_matchedId "m1" source
  have htarget := reads_matchedId "m2" target
  have hstart := reads_fixedRows ["CREATE (m1)-[:CALLS \x7b"]
  have hend := reads_fixedRows ["\x7d]->(m2);", ""]
  rw [callLink, rowText_connect]
  exact hsource.bind (htarget.bind (hstart.bind (hps.bind (hend.conclude (reads_pure _)))))

/-! ### Scripts -/

/-- As many values as there are one behind the other, and what follows them. -/
def many (item : Scan α) (text : List Char) : List α × List Char :=
  match item.run text with
  | none => ([], text)
  | some (a, rest) =>
    if rest.length < text.length then ((many item rest).map (a :: ·) id) else ([], text)
termination_by text.length

/-- Items are read one by one, each as the value it is written for, until none begins. -/
theorem many_flatMap {item : Scan α} {write : β → List Char} {value : β → α} {items : List β}
    {rest : List Char} (hitems : ∀ i ∈ items, write i ≠ [] ∧ Reads item (write i) (value i))
    (hrest : item.run rest = none) :
    many item (items.flatMap write ++ rest) = (items.map value, rest) := by
  induction items with
  | nil =>
    unfold many
    rw [List.flatMap_nil, List.nil_append, hrest]
    rfl
  | cons i items ih =>
    obtain ⟨⟨hne, hitem⟩, hmore⟩ := List.forall_mem_cons.mp hitems
    have hpos : 0 < (write i).length := List.length_pos_iff.mpr hne
    unfold many
    rw [List.flatMap_cons, List.append_assoc, hitem]
    simp only [List.length_append, ih hmore]
    rw [if_pos (by omega)]
    rfl

/-- What follows items that are read one by one begins none. -/
theorem reads_many_bind {γ : Type} {item : Scan α} {next : List α → Scan γ} {c : γ}
    {write : β → List Char} {value : β → α} {items : List β} {more : List Char}
    (hitems : ∀ i ∈ items, write i ≠ [] ∧ Reads item (write i) (value i))
    (hstop : ∀ rest, item.run (more ++ rest) = none)
    (hnext : Reads (next (items.map value)) more c) :
    Reads ((fun text => some (many item text) : Scan (List α)) >>= next)
      (items.flatMap write ++ more) c := by
  intro rest
  have hmany := many_flatMap hitems (hstop rest)
  rw [List.append_assoc, StateT.run_bind]
  show (some (many item _)).bind _ = _
  rw [hmany]
  exact hnext rest

/-- Values up to a heading in a row of its own. -/
def upTo (heading : String) (item : Scan α) : Scan (List α) := do
  let values ← fun text => some (many item text)
  fixedRows [heading]
  return values

theorem reads_upTo (heading : String) {item : Scan α} {write : α → List Char}
    (hitem : ∀ a, Reads item (write a) a) (hne : ∀ a, write a ≠ [])
    (hheading : ∀ rest, item.run (rowText [heading] ++ rest) = none) (as : List α) :
    Reads (upTo heading item) (as.flatMap write ++ rowText [heading]) as := by
  refine reads_many_bind (fun a _ => ⟨hne a, hitem a⟩) hheading ?_
  rw [List.map_id']
  exact (reads_fixedRows [heading]).conclude (reads_pure as)

/-- The first three sections of a script, up to the heading of the last. -/
def front : Scan (List (String × String × String) × List (String × String × String × String)
    × List (String × String × String)) := do
  fixedRows titleRows
  fixedRows ["// 1. Create service nodes"]
  let services ← upTo "// 2. Create class nodes" service
  let classes ← upTo "// 3. Create method nodes" classRecord
  let methods ← upTo "// 4. Create method call relationships" method
  return (services, classes, methods)

/-- The exported part of the document a script was written from. -/
def decode (script : String) : Option Exported := do
  let ((services, classes, methods), text) ← front.run script.toList
  match many call text with
  | (calls, []) => some ⟨services, classes, methods, calls⟩
  | _ => none

theorem rowText_section {α : Type} (heading : String) (write : α → Statement) (as : List α) :
    rowText (Section.rows ⟨heading, as.map write⟩)
      = rowText [heading] ++ as.flatMap fun a => rowText (write a).rows := by
  rw [Section.rows, ← List.singleton_append, rowText_append]
  congr 1
  rw [rowText, List.flatMap_assoc, List.flatMap_map]
  rfl

theorem rowText_statement_ne_nil (s : Statement) : rowText s.rows ≠ [] := by
  cases s <;> simp [Statement.rows, rowText]

/-- The text of the first three sections, up to the heading of the last. -/
def frontText (e : Exported) : List Char :=
  rowText titleRows ++ (rowText ["// 1. Create service nodes"]
    ++ ((e.services.flatMap (fun s => rowText (serviceNode s).rows)
      ++ rowText ["// 2. Create class nodes"])
    ++ ((e.classes.flatMap (fun c => rowText (classNode c).rows)
      ++ rowText ["// 3. Create method nodes"])
    ++ (e.methods.flatMap (fun m => rowText (methodNode m).rows)
      ++ rowText ["// 4. Create method call relationships"]))))

theorem reads_front (e : Exported) :
    Reads front (frontText e) (e.services, e.classes, e.methods) := by
  -- no node begins like a heading, so the nodes of a section end where the next heading is
  have hservices := reads_upTo "// 2. Create class nodes" reads_service
    (fun _ => rowText_statement_ne_nil _) (fun _ => rfl) e.services
  have hclasses := reads_upTo "// 3. Create method nodes" reads_classRecord
    (fun _ => rowText_statement_ne_nil _) (fun _ => rfl) e.classes
  have hmethods := reads_upTo "// 4. Create method call relationships" reads_method
    (fun _ => rowText_statement_ne_nil _) (fun _ => rfl) e.methods
  exact (reads_fixedRows _).bind ((reads_fixedRows _).bind
    (hservices.bind (hclasses.bind (hmethods.conclude (reads_pure _)))))

/-- Decoding gets back all that a script was written from. -/
theorem decode_exported (e : Exported) :
    decode (Text.unlines (titleRows ++ (exportedSections e).flatMap Section.rows)) = some e := by
  have hscript : (Text.unlines (titleRows ++ (exportedSections e).flatMap Section.rows)).toList
      = frontText e ++ (e.calls.flatMap (fun c => rowText (callLink c).rows) ++ []) := by
    rw [Text.toList_unlines]
    show rowText (titleRows ++ _) = _
    simp only [exportedSections, List.flatMap_cons, List.flatMap_nil, rowText_append,
      rowText_section, frontText, List.append_assoc, List.append_nil]
  have hcalls : many call (e.calls.flatMap (fun c => rowText (callLink c).rows) ++ [])
      = (e.calls, []) := by
    have hend : call.run [] = none := rfl
    rw [many_flatMap (fun c _ => ⟨rowText_statement_ne_nil _, reads_call c⟩) hend, List.map_id']
  rw [decode, hscript, reads_front e]
  simp only [Option.bind_eq_bind, Option.bind_some, hcalls]

/-- The script of a document is decoded to what the script shows of it. -/
theorem decode_script (d : Document) : decode (script d) = some d.exported := by
  rw [script, sections_eq]
  exact decode_exported d.exported

/-- **Scripts lose nothing and mix up nothing.**  The exported part of every document is decoded
from its script, so two scripts are equal exactly when the exported parts are, whatever characters
stand in ids and values. -/
theorem script_faithful :
    (∀ d : Document, decode (script d) = some d.exported)
      ∧ ∀ d e : Document, script d = script e ↔ d.exported = e.exported := by
  refine ⟨decode_script, ?_⟩
  intro d e
  constructor
  · intro h
    have hd := decode_script d
    rw [h, decode_script e] at hd
    exact (Option.some.inj hd).symm
  · intro h
    rw [script, script, sections_eq, sections_eq, h]

end Cypher

end CallGraph
