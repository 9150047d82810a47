import CallGraph.Cypher.Script
import CallGraph.Proofs.Cypher.Lexis
import CallGraph.Proofs.Text.Rows

/-!
# The grammar of scripts

The sentences that scripts are made of, and the lexemes that the script of a document is put
together from.

* `IsScript` — the grammar: nodes with a property map, and relationships between matched nodes;
* `scriptRows`, `scriptLexemes` — the lexemes of a script; what stands in a record is in literals
  and in the names of created nodes, and nowhere else;
* `flatMap_scriptRows` — they make up the text of the script.
-/

namespace CallGraph.Cypher

/-! ### The grammar -/

/-- The value of a property. -/
inductive IsValue : Lexeme → Prop where
  | text (body : List Char) : IsValue (.literal body)
  | flag (b : Bool) : IsValue (.word (if b then "true" else "false").toList)

/-- Named values with commas between them. -/
inductive IsMap (a : Alphabet) : List Lexeme → Prop where
  | single {name : List Char} {v : Lexeme} (hname : a.IsName name) (hv : IsValue v) :
    IsMap a [.word name, .symbol ':', v]
  | more {name : List Char} {v : Lexeme} {rest : List Lexeme} (hname : a.IsName name)
    (hv : IsValue v) (hrest : IsMap a rest) :
    IsMap a (.word name :: .symbol ':' :: v :: .symbol ',' :: rest)

/-- A node with its variable, label and properties. -/
def nodeTokens (name label : List Char) (map : List Lexeme) : List Lexeme :=
  .symbol '(' :: .word name :: .symbol ':' :: .word label :: .symbol '\x7b'
    :: (map ++ [Lexeme.symbol '\x7d', .symbol ')'])

/-- A relationship from one variable to another, with its kind and properties. -/
def linkTokens (source kind target : List Char) (map : List Lexeme) : List Lexeme :=
  .symbol '(' :: .word source :: .symbol ')' :: .symbol '-' :: .symbol '[' :: .symbol ':'
    :: .word kind :: .symbol '\x7b' :: (map ++ [Lexeme.symbol '\x7d', .symbol ']', .symbol '-',
      .symbol '>', .symbol '(', .word target, .symbol ')'])

/-- Nodes have names, labels and maps. -/
inductive IsNode (a : Alphabet) : List Lexeme → Prop where
  | intro {name label : List Char} {map : List Lexeme} (hname : a.IsName name)
    (hlabel : a.IsName label) (hmap : IsMap a map) : IsNode a (nodeTokens name label map)

/-- A node is created, or two nodes are matched and a relationship between them is created. -/
inductive IsStatement (a : Alphabet) : List Lexeme → Prop where
  | create {node : List Lexeme} (hnode : IsNode a node) :
    IsStatement a (.word "CREATE".toList :: (node ++ [Lexeme.symbol ';']))
  | connect {first second map : List Lexeme} {source kind target : List Char}
    (hfirst : IsNode a first) (hsecond : IsNode a second) (hsource : a.IsName source)
    (hkind : a.IsName kind) (htarget : a.IsName target) (hmap : IsMap a map) :
    IsStatement a (.word "MATCH".toList :: (first ++ .word "MATCH".toList :: (second
      ++ .word "CREATE".toList :: (linkTokens source kind target map ++ [Lexeme.symbol ';']))))

/-- Statements one after the other. -/
inductive IsScript (a : Alphabet) : List Lexeme → Prop where
  | nil : IsScript a []
  | cons {statement rest : List Lexeme} (hstatement : IsStatement a statement)
    (hrest : IsScript a rest) : IsScript a (statement ++ rest)

/-! ### What scripts are put together from -/

/-- A text is a literal, a flag a word. -/
def Value.lexeme : Value → Lexeme
  | .text value => .literal (escape value.toList)
  | .flag b => .word (if b then "true" else "false").toList

/-- The lexemes of a property's row. -/
def Property.lexemes (p : Property) : List Lexeme :=
  [.gap ' ', .gap ' ', .word p.name.toList, .symbol ':', .gap ' ', p.value.lexeme]

/-- The lexemes of the rows of properties. -/
def propertyLexemes : List Property → List (List Lexeme)
  | [] => []
  | [p] => [p.lexemes]
  | p :: more => (p.lexemes ++ [Lexeme.symbol ',']) :: propertyLexemes more

/-- The lexemes of the row that finds a method node. -/
def matchLexemes (name id : String) : List Lexeme :=
  [.word "MATCH".toList, .gap ' ', .symbol '(', .word name.toList, .symbol ':',
    .word "Method".toList, .gap ' ', .symbol '\x7b', .word "id".toList, .symbol ':', .gap ' ',
    .literal (escape id.toList), .symbol '\x7d', .symbol ')']

/-- The lexemes of the rows of a statement. -/
def Statement.lexemes : Statement → List (List Lexeme)
  | .create name label properties =>
    [.word "CREATE".toList, .gap ' ', .symbol '(', .word name.toList, .symbol ':',
      .word label.toList, .gap ' ', .symbol '\x7b']
      :: propertyLexemes properties ++ [[Lexeme.symbol '\x7d', .symbol ')', .symbol ';'], []]
  | .connect source target properties =>
    [matchLexemes "m1" source, matchLexemes "m2" target,
      [.word "CREATE".toList, .gap ' ', .symbol '(', .word "m1".toList, .symbol ')', .symbol '-',
        .symbol '[', .symbol ':', .word "CALLS".toList, .gap ' ', .symbol '\x7b']]
      ++ propertyLexemes properties
      ++ [[Lexeme.symbol '\x7d', .symbol ']', .symbol '-', .symbol '>', .symbol '(',
        .word "m2".toList, .symbol ')', .symbol ';'], []]

/-- The lexemes of the rows of a section: a comment and statements. -/
def Section.lexemes (s : Section) : List (List Lexeme) :=
  [.comment (s.heading.toList.drop 2)] :: s.statements.flatMap Statement.lexemes

/-- The lexemes of the rows above the first section. -/
def titleLexemes : List (List Lexeme) :=
  [[.comment " Neo4j Cypher import script".toList], [.comment " Generated by callscope".toList], []]

/-- The lexemes of the rows of a script. -/
def scriptRows (d : Document) : List (List Lexeme) :=
  titleLexemes ++ (sections d).flatMap Section.lexemes

/-- The lexemes of a script. -/
def scriptLexemes (d : Document) : List Lexeme :=
  (scriptRows d).flatMap fun row => row ++ [Lexeme.gap '\n']

/-! ### The lexemes are those of the text -/

/-- The characters of the lexemes in a row. -/
def rowChars (row : List Lexeme) : List Char := row.flatMap Lexeme.text

theorem text_lexeme (v : Value) : v.lexeme.text = v.written.toList := by
  cases v with
  | text value => exact (toList_quote value).symm
  | flag b => cases b <;> rfl

theorem rowChars_property (p : Property) : rowChars p.lexemes = p.written.toList := by
  show ' ' :: ' ' :: (p.name.toList ++ ':' :: ' ' :: (p.value.lexeme.text ++ [])) = _
  rw [text_lexeme, List.append_nil, Property.written, String.toList_append, String.toList_append,
    String.toList_append, List.append_assoc, List.append_assoc]
  rfl

theorem rowChars_properties (ps : List Property) :
    (propertyLexemes ps).map rowChars = (propertyRows ps).map String.toList := by
  induction ps with
  | nil => rfl
  | cons p ps ih =>
    have hp := rowChars_property p
    cases ps with
    | nil => exact congrArg (· :: []) hp
    | cons q ps =>
      show rowChars (p.lexemes ++ [Lexeme.symbol ',']) :: (propertyLexemes (q :: ps)).map rowChars
        = (p.written ++ ",").toList :: (propertyRows (q :: ps)).map String.toList
      rw [ih, String.toList_append, ← hp, rowChars, List.flatMap_append]
      rfl

theorem rowChars_match (name id : String) :
    rowChars (matchLexemes name id) = (matchRow name id).toList := by
  simp only [rowChars, matchLexemes, matchRow, List.flatMap_cons, List.flatMap_nil, Lexeme.text,
    String.toList_append, toList_quote, List.append_assoc, List.cons_append, List.nil_append]
  rfl

theorem rowChars_statement (s : Statement) :
    s.lexemes.map rowChars = s.rows.map String.toList := by
  cases s with
  | create name label ps =>
    have hps := rowChars_properties ps
    have hfirst : rowChars [.word "CREATE".toList, .gap ' ', .symbol '(', .word name.toList,
        .symbol ':', .word label.toList, .gap ' ', .symbol '\x7b']
        = ("CREATE (" ++ name ++ ":" ++ label ++ " \x7b").toList := by
      simp only [rowChars, List.flatMap_cons, List.flatMap_nil, Lexeme.text, String.toList_append,
        List.append_assoc]
      rfl
    rw [Statement.lexemes, Statement.rows, List.map_append, List.map_append, List.map_cons,
      List.map_cons, hps, hfirst]
    rfl
  | connect source target ps =>
    have hps := rowChars_properties ps
    rw [Statement.lexemes, Statement.rows, List.map_append, List.map_append, List.map_append,
      List.map_append, hps]
    simp only [List.map_cons, rowChars_match]
    rfl

/-- The rows of statements are those of their lexemes. -/
theorem rowChars_statements (statements : List Statement) :
    (statements.flatMap Statement.lexemes).map rowChars
      = (statements.flatMap Statement.rows).map String.toList := by
  induction statements with
  | nil => rfl
  | cons s statements ih =>
    rw [List.flatMap_cons, List.flatMap_cons, List.map_append, List.map_append,
      rowChars_statement, ih]

theorem rowChars_sections (d : Document) :
    ((sections d).flatMap Section.lexemes).map rowChars
      = ((sections d).flatMap Section.rows).map String.toList := by
  simp only [sections, List.flatMap_cons, List.flatMap_nil, List.append_nil, List.map_append,
    Section.lexemes, Section.rows, List.map_cons, rowChars_statements]
  rfl

/-- The lexemes of a script make up its text. -/
theorem flatMap_scriptRows (d : Document) :
    ((scriptRows d).flatMap fun row => row.flatMap Lexeme.text ++ ['\n'])
      = (script d).toList := by
  have htitle : titleLexemes.map rowChars = titleRows.map String.toList := rfl
  have hrows : (scriptRows d).map rowChars
      = (titleRows ++ (sections d).flatMap Section.rows).map String.toList := by
    rw [scriptRows, List.map_append, List.map_append, rowChars_sections, htitle]
  rw [script, Text.toList_unlines, ← List.flatMap_map String.toList fun row => row ++ ['\n'],
    ← hrows, List.flatMap_map]
  rfl

end CallGraph.Cypher
