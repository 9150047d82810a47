import CallGraph.Document.Layout
import CallGraph.Proofs.Cypher.Grammar

/-!
# Containment

What stands in records comes into a script in two ways: as literals, and as the raw characters of
node variables.  Literals never end early.  Variables are names only if the raw characters are
letters, digits and underscores, and then, and only then, a script is read as it was put together.

* `Contained` — a script is read from left to right as just its lexemes, and they are a sentence of
  the grammar;
* `contained_iff` — the exact condition for it;
* `variable_not_contained` — an id with a dash among its leading characters breaks a script.
-/

namespace CallGraph

/-- The ids that nodes are created for. -/
def Document.nodeIds (d : Document) : List String :=
  d.services.map Service.id ++ d.classes.map Class.id ++ d.methods.map Method.id

namespace Cypher

/-- What stands in the records of a document does not get out of literals and node variables: the
script is read as the lexemes it was put together from, and they follow the grammar. -/
def Contained (a : Alphabet) (d : Document) : Prop :=
  lex a (script d).toList = some (scriptLexemes d)
    ∧ IsScript a ((scriptLexemes d).filter Lexeme.significant)

/-! ### Named statements are read -/

variable {a : Alphabet}

/-- Properties that have names; there is at least one. -/
def PropertiesNamed (a : Alphabet) (ps : List Property) : Prop :=
  ps ≠ [] ∧ ∀ p ∈ ps, a.IsName p.name.toList

/-- A statement whose variable, label and properties have names. -/
def Statement.Named (a : Alphabet) : Statement → Prop
  | .create name label ps =>
    a.IsName name.toList ∧ a.IsName label.toList ∧ PropertiesNamed a ps
  | .connect _ _ ps => PropertiesNamed a ps

/-- Whether a lexeme is legal in every alphabet, as far as its characters show. -/
def Lexeme.plain : Lexeme → Bool
  | gap blank => blank ∈ gaps
  | comment line => '\n' ∉ line
  | word name => Alphabet.isAsciiName name
  | literal body => escape (unescape body) = body
  | symbol c => c ∈ symbols

theorem Lexeme.legal_of_plain (a : Alphabet) {l : Lexeme} (h : l.plain = true) : l.Legal a := by
  cases l with
  | gap blank =>
    show blank ∈ gaps
    exact of_decide_eq_true h
  | comment line =>
    show '\n' ∉ line
    exact of_decide_eq_true h
  | symbol c =>
    show c ∈ symbols
    exact of_decide_eq_true h
  | word => exact a.isName_of_ascii h
  | literal body =>
    rw [← of_decide_eq_true h]
    exact readBody_escape (unescape body)

theorem isRow_of_plain (a : Alphabet) {row : List Lexeme} (h : row.all Lexeme.plain = true)
    (hchain : row.IsChain Lexeme.Apart) : IsRow a row :=
  ⟨fun l hl => l.legal_of_plain a (List.all_eq_true.mp h l hl), hchain⟩

theorem legal_flag (a : Alphabet) (b : Bool) :
    a.IsName (if b then "true" else "false").toList := by
  cases b with
  | true => exact a.isName_of_ascii (by decide)
  | false => exact a.isName_of_ascii (by decide)

theorem legal_value (a : Alphabet) (v : Value) : v.lexeme.Legal a := by
  cases v with
  | text value => exact readBody_escape value.toList
  | flag b => exact legal_flag a b

theorem isRow_property {p : Property} (hname : a.IsName p.name.toList) : IsRow a p.lexemes := by
  have hgap : (Lexeme.gap ' ').Legal a := Lexeme.legal_of_plain a (by decide)
  have hcolon : (Lexeme.symbol ':').Legal a := Lexeme.legal_of_plain a (by decide)
  constructor
  · intro l hl
    simp only [Property.lexemes, List.mem_cons, List.not_mem_nil, or_false] at hl
    rcases hl with rfl | rfl | rfl | rfl | rfl | rfl
    · exact hgap
    · exact hgap
    · exact hname
    · exact hcolon
    · exact hgap
    · exact legal_value a p.value
  · simp [Property.lexemes, List.isChain_cons_cons, Lexeme.Apart]

theorem isRow_property_comma {p : Property} (hname : a.IsName p.name.toList) :
    IsRow a (p.lexemes ++ [Lexeme.symbol ',']) := by
  obtain ⟨hlegal, hchain⟩ := isRow_property hname
  constructor
  · intro l hl
    rcases List.mem_append.mp hl with hl | hl
    · exact hlegal l hl
    · obtain rfl := List.mem_singleton.mp hl
      exact Lexeme.legal_of_plain a (by decide)
  · obtain ⟨name, value⟩ := p
    cases value with
    | text | flag =>
      simp [Property.lexemes, Value.lexeme, List.isChain_cons_cons, Lexeme.Apart]

/-- The rows of named properties may be read. -/
theorem isRow_properties {ps : List Property} (h : ∀ p ∈ ps, a.IsName p.name.toList) :
    ∀ row ∈ propertyLexemes ps, IsRow a row := by
  induction ps with
  | nil => simp [propertyLexemes]
  | cons p ps ih =>
    obtain ⟨hp, hmore⟩ := List.forall_mem_cons.mp h
    have hps := ih hmore
    cases ps with
    | nil =>
      intro row hrow
      obtain rfl := List.mem_singleton.mp hrow
      exact isRow_property hp
    | cons q ps =>
      intro row hrow
      rcases List.mem_cons.mp hrow with rfl | hrow
      · exact isRow_property_comma hp
      · exact hps row hrow

theorem isRow_match {name : String} (id : String) (hname : a.IsName name.toList) :
    IsRow a (matchLexemes name id) := by
  have plain {l : Lexeme} (h : l.plain = true) : l.Legal a := l.legal_of_plain a h
  have hid : (Lexeme.literal (escape id.toList)).Legal a := readBody_escape id.toList
  constructor
  · simp only [matchLexemes, List.forall_mem_cons]
    exact ⟨plain rfl, plain rfl, plain rfl, hname, plain rfl, plain rfl, plain rfl, plain rfl,
      plain rfl, plain rfl, plain rfl, hid, plain rfl, plain rfl, by simp⟩
  · simp [matchLexemes, List.isChain_cons_cons, Lexeme.Apart]

/-- The rows of a named statement may be read. -/
theorem isRow_statement {s : Statement} (h : s.Named a) : ∀ row ∈ s.lexemes, IsRow a row := by
  have plain {l : Lexeme} (h : l.plain = true) : l.Legal a := l.legal_of_plain a h
  cases s with
  | create name label ps =>
    obtain ⟨hname, hlabel, -, hps⟩ := h
    have hfirst : IsRow a [.word "CREATE".toList, .gap ' ', .symbol '(', .word name.toList,
        .symbol ':', .word label.toList, .gap ' ', .symbol '\x7b'] := by
      constructor
      · simp only [List.forall_mem_cons]
        exact ⟨plain rfl, plain rfl, plain rfl, hname, plain rfl, hlabel, plain rfl, plain rfl,
          by simp⟩
      · simp [List.isChain_cons_cons, Lexeme.Apart]
    intro row hrow
    simp only [Statement.lexemes, List.cons_append, List.mem_cons, List.mem_append,
      List.not_mem_nil, or_false] at hrow
    rcases hrow with rfl | hrow | rfl | rfl
    · exact hfirst
    · exact isRow_properties hps row hrow
    · exact isRow_of_plain a (by decide) (by simp [List.isChain_cons_cons, Lexeme.Apart])
    · exact isRow_of_plain a rfl (by simp)
  | connect source target ps =>
    intro row hrow
    simp only [Statement.lexemes, List.cons_append, List.nil_append, List.mem_cons,
      List.mem_append, List.not_mem_nil, or_false] at hrow
    rcases hrow with rfl | rfl | rfl | hrow | rfl | rfl
    · exact isRow_match source (a.isName_of_ascii (by decide))
    · exact isRow_match target (a.isName_of_ascii (by decide))
    · exact isRow_of_plain a (by decide) (by simp [List.isChain_cons_cons, Lexeme.Apart])
    · exact isRow_properties h.2 row hrow
    · exact isRow_of_plain a (by decide) (by simp [List.isChain_cons_cons, Lexeme.Apart])
    · exact isRow_of_plain a rfl (by simp)

/-! ### Named statements follow the grammar -/

/-- What counts for the grammar in rows of lexemes. -/
def tokens (rows : List (List Lexeme)) : List Lexeme :=
  rows.flatMap (List.filter Lexeme.significant)

theorem tokens_cons (row : List Lexeme) (rows : List (List Lexeme)) :
    tokens (row :: rows) = row.filter Lexeme.significant ++ tokens rows := rfl

theorem tokens_append (rows more : List (List Lexeme)) :
    tokens (rows ++ more) = tokens rows ++ tokens more := List.flatMap_append

theorem tokens_property (p : Property) : p.lexemes.filter Lexeme.significant
    = [.word p.name.toList, .symbol ':', p.value.lexeme] := by
  obtain ⟨name, value⟩ := p
  cases value with
  | text | flag => rfl

theorem isValue_lexeme (v : Value) : IsValue v.lexeme := by
  cases v with
  | text value => exact .text _
  | flag b => exact .flag b

/-- Named properties are a map. -/
theorem isMap_properties {ps : List Property} (h : PropertiesNamed a ps) :
    IsMap a (tokens (propertyLexemes ps)) := by
  obtain ⟨hne, hnames⟩ := h
  induction ps with
  | nil => exact absurd rfl hne
  | cons p ps ih =>
    obtain ⟨hp, hmore⟩ := List.forall_mem_cons.mp hnames
    have hvalue := isValue_lexeme p.value
    cases ps with
    | nil =>
      rw [propertyLexemes, tokens_cons, tokens_property]
      exact .single hp hvalue
    | cons q ps =>
      have hrest := ih (List.cons_ne_nil q ps) hmore
      show IsMap a (tokens ((p.lexemes ++ [Lexeme.symbol ',']) :: propertyLexemes (q :: ps)))
      rw [tokens_cons, List.filter_append, tokens_property]
      exact .more hp hvalue hrest

/-- The node that a method is found by. -/
theorem isNode_match {name : List Char} (id : String) (hname : a.IsName name) :
    IsNode a (nodeTokens name "Method".toList
      [.word "id".toList, .symbol ':', .literal (escape id.toList)]) :=
  .intro hname (a.isName_of_ascii (by decide)) (.single (a.isName_of_ascii (by decide)) (.text _))

theorem tokens_match (name id : String) (rows : List (List Lexeme)) :
    tokens (matchLexemes name id :: rows) = .word "MATCH".toList :: (nodeTokens name.toList
      "Method".toList [.word "id".toList, .symbol ':', .literal (escape id.toList)]
      ++ tokens rows) := rfl

/-- A named statement follows the grammar. -/
theorem isStatement_tokens {s : Statement} (h : s.Named a) : IsStatement a (tokens s.lexemes) := by
  cases s with
  | create name label ps =>
    obtain ⟨hname, hlabel, hps⟩ := h
    have heq : tokens (Statement.create name label ps).lexemes = .word "CREATE".toList
        :: (nodeTokens name.toList label.toList (tokens (propertyLexemes ps))
          ++ [Lexeme.symbol ';']) := by
      rw [Statement.lexemes, tokens_append, nodeTokens]
      simp only [List.cons_append, List.append_assoc]
      rfl
    rw [heq]
    exact .create (.intro hname hlabel (isMap_properties hps))
  | connect source target ps =>
    have hm1 : a.IsName "m1".toList := a.isName_of_ascii (by decide)
    have hm2 : a.IsName "m2".toList := a.isName_of_ascii (by decide)
    have hkind : a.IsName "CALLS".toList := a.isName_of_ascii (by decide)
    have heq : tokens (Statement.connect source target ps).lexemes
        = .word "MATCH".toList :: (nodeTokens "m1".toList "Method".toList
            [.word "id".toList, .symbol ':', .literal (escape source.toList)]
          ++ .word "MATCH".toList :: (nodeTokens "m2".toList "Method".toList
            [.word "id".toList, .symbol ':', .literal (escape target.toList)]
          ++ .word "CREATE".toList :: (linkTokens "m1".toList "CALLS".toList "m2".toList
            (tokens (propertyLexemes ps)) ++ [Lexeme.symbol ';']))) := by
      simp only [Statement.lexemes, List.cons_append, List.nil_append, tokens_match]
      rw [tokens_cons, tokens_append, linkTokens]
      simp only [List.cons_append, List.append_assoc]
      rfl
    rw [heq]
    exact .connect (isNode_match source hm1) (isNode_match target hm2) hm1 hkind hm2
      (isMap_properties h)

/-- Named statements one after the other are a script. -/
theorem isScript_tokens {statements : List Statement} (h : ∀ s ∈ statements, s.Named a) :
    IsScript a (tokens (statements.flatMap Statement.lexemes)) := by
  induction statements with
  | nil => exact .nil
  | cons s statements ih =>
    obtain ⟨hs, hmore⟩ := List.forall_mem_cons.mp h
    rw [List.flatMap_cons, tokens_append]
    exact .cons (isStatement_tokens hs) (ih hmore)

/-! ### The exact condition -/

/-- What counts in the lexemes of a script is what counts in its rows. -/
theorem filter_scriptLexemes (d : Document) :
    (scriptLexemes d).filter Lexeme.significant
      = tokens ((statements d).flatMap Statement.lexemes) := by
  have hrow (rows : List (List Lexeme)) :
      (rows.flatMap fun row => row ++ [Lexeme.gap '\n']).filter Lexeme.significant
        = tokens rows := by
    induction rows with
    | nil => rfl
    | cons row rows ih =>
      rw [List.flatMap_cons, List.filter_append, List.filter_append, ih, tokens_cons]
      exact congrArg (· ++ tokens rows) (List.append_nil _)
  have hsections (sections : List Section) :
      tokens (sections.flatMap Section.lexemes)
        = tokens ((sections.flatMap Section.statements).flatMap Statement.lexemes) := by
    induction sections with
    | nil => rfl
    | cons s sections ih =>
      have hheading : tokens s.lexemes = tokens (s.statements.flatMap Statement.lexemes) := rfl
      rw [List.flatMap_cons, List.flatMap_cons, List.flatMap_append, tokens_append, tokens_append,
        ih, hheading]
  have htitle : tokens titleLexemes = [] := rfl
  rw [scriptLexemes, hrow, scriptRows, tokens_append, statements, ← hsections, htitle,
    List.nil_append]

theorem isName_variable {sort : String} {short : List Char} (h : ∀ c ∈ short, a.continues c = true)
    (hsort : Alphabet.isAsciiName sort.toList = true) : a.IsName (sort.toList ++ short) := by
  have hname := a.isName_of_ascii hsort
  cases hs : sort.toList with
  | nil =>
    rw [hs] at hsort
    cases hsort
  | cons c rest =>
    rw [hs] at hname
    refine ⟨hname.1, ?_⟩
    intro d hd
    rcases List.mem_append.mp hd with hd | hd
    · exact hname.2 d hd
    · exact h d hd

/-- Statements are named if the leading characters of ids may stand in names. -/
theorem named_statements {d : Document}
    (h : ∀ id ∈ d.nodeIds, ∀ c ∈ (shortId id).toList, a.continues c = true) :
    ∀ s ∈ statements d, s.Named a := by
  have hname (sort id : String) (hid : id ∈ d.nodeIds)
      (hsort : Alphabet.isAsciiName sort.toList = true) :
      a.IsName (sort ++ shortId id).toList := by
    rw [String.toList_append]
    exact isName_variable (h id hid) hsort
  have hnames (names : List String) (ps : List Property) (hps : ps.map Property.name = names)
      (hne : names ≠ []) (hall : ∀ name ∈ names, Alphabet.isAsciiName name.toList = true) :
      PropertiesNamed a ps := by
    subst hps
    constructor
    · rintro rfl
      exact hne rfl
    · intro p hp
      exact a.isName_of_ascii (hall p.name (List.mem_map_of_mem hp))
  intro s hs
  rcases mem_statements.mp hs with ⟨r, hr, rfl⟩ | ⟨r, hr, rfl⟩ | ⟨r, hr, rfl⟩ | ⟨call, -, hcall⟩
  · refine ⟨hname "s_" r.id ?_ (by decide), a.isName_of_ascii (by decide),
      hnames ["id", "name", "artifactId"] _ rfl (by decide) (by decide)⟩
    simpa [Document.nodeIds] using .inl ⟨r, hr, rfl⟩
  · refine ⟨hname "c_" r.id ?_ (by decide), a.isName_of_ascii (by decide),
      hnames ["id", "name", "qualifiedName", "type"] _ rfl (by decide) (by decide)⟩
    simpa [Document.nodeIds] using .inr (.inl ⟨r, hr, rfl⟩)
  · refine ⟨hname "m_" r.id ?_ (by decide), a.isName_of_ascii (by decide),
      hnames ["id", "name", "signature"] _ rfl (by decide) (by decide)⟩
    simpa [Document.nodeIds] using .inr (.inr ⟨r, hr, rfl⟩)
  · obtain ⟨target, -, rfl⟩ := Option.map_eq_some_iff.mp hcall
    exact hnames ["callType", "crossService"] _ rfl (by decide) (by decide)

/-- Every node has a statement that creates it under its variable. -/
theorem create_mem_statements {d : Document} {id : String} (h : id ∈ d.nodeIds) :
    ∃ sort : Char, ∃ name label ps, name.toList = sort :: '_' :: (shortId id).toList
      ∧ Statement.create name label ps ∈ statements d := by
  have hname (sort : Char) : (String.ofList [sort, '_'] ++ shortId id).toList
      = sort :: '_' :: (shortId id).toList := by
    rw [String.toList_append, String.toList_ofList]
    rfl
  simp only [Document.nodeIds, List.mem_append, List.mem_map] at h
  rcases h with (⟨r, hr, rfl⟩ | ⟨r, hr, rfl⟩) | ⟨r, hr, rfl⟩
  · exact ⟨'s', _, _, _, hname 's', mem_statements.mpr (.inl ⟨r, hr, rfl⟩)⟩
  · exact ⟨'c', _, _, _, hname 'c', mem_statements.mpr (.inr (.inl ⟨r, hr, rfl⟩))⟩
  · exact ⟨'m', _, _, _, hname 'm', mem_statements.mpr (.inr (.inr (.inl ⟨r, hr, rfl⟩)))⟩

/-- The variable of a statement is a word of the script. -/
theorem variable_mem_scriptLexemes {d : Document} {name label : String} {ps : List Property}
    (h : Statement.create name label ps ∈ statements d) :
    .word name.toList ∈ scriptLexemes d := by
  obtain ⟨sec, hsec, hs⟩ := List.mem_flatMap.mp h
  refine List.mem_flatMap.mpr ⟨_, List.mem_append_right _ (List.mem_flatMap.mpr ⟨sec, hsec,
    List.mem_cons_of_mem _ (List.mem_flatMap.mpr ⟨_, hs, List.mem_cons_self ..⟩)⟩), ?_⟩
  simp

/-- The rows of a script may be read if its statements are named. -/
theorem isRow_scriptRows {d : Document} (h : ∀ s ∈ statements d, s.Named a) :
    ∀ row ∈ scriptRows d, IsRow a row := by
  intro row hrow
  rcases List.mem_append.mp hrow with htitle | hrow
  · simp only [titleLexemes, List.mem_cons, List.not_mem_nil, or_false] at htitle
    rcases htitle with rfl | rfl | rfl
    · exact isRow_of_plain a (by decide) (by simp)
    · exact isRow_of_plain a (by decide) (by simp)
    · exact isRow_of_plain a rfl (by simp)
  · obtain ⟨sec, hsec, hrow⟩ := List.mem_flatMap.mp hrow
    rcases List.mem_cons.mp hrow with rfl | hrow
    · have hheading : ∀ sec ∈ sections d,
          (Lexeme.comment (sec.heading.toList.drop 2)).plain = true := by
        simp only [sections, List.forall_mem_cons]
        decide
      exact isRow_of_plain a (by simpa using hheading sec hsec) (by simp)
    · obtain ⟨s, hs, hrow⟩ := List.mem_flatMap.mp hrow
      exact isRow_statement (h s (List.mem_flatMap.mpr ⟨sec, hsec, hs⟩)) row hrow

/-- **The exact condition**: the records of a document stay in the literals and node variables of
its script, and the script follows the grammar, if and only if the leading characters of the ids of
services, classes and methods are letters, digits and underscores. -/
theorem contained_iff (a : Alphabet) (d : Document) :
    Contained a d ↔ ∀ id ∈ d.nodeIds, ∀ c ∈ (shortId id).toList, a.continues c = true := by
  constructor
  · rintro ⟨hlex, -⟩ id hid c hc
    obtain ⟨sort, name, label, ps, hname, hs⟩ := create_mem_statements hid
    have hlegal := (lex_sound hlex).2 _ (variable_mem_scriptLexemes hs)
    rw [hname] at hlegal
    exact hlegal.2 c (List.mem_cons_of_mem _ hc)
  · intro h
    have hnamed := named_statements h
    constructor
    · rw [← flatMap_scriptRows, lex_rows (isRow_scriptRows hnamed)]
      rfl
    · rw [filter_scriptLexemes]
      exact isScript_tokens hnamed

/-! ### A script that is broken -/

/-- Behind the variable of a created node stands a colon. -/
theorem IsScript.colon {name : List Char} {l : Lexeme} {rest : List Lexeme}
    (h : IsScript a (.word "CREATE".toList :: .symbol '(' :: .word name :: l :: rest)) :
    l = .symbol ':' := by
  generalize htext : Lexeme.word "CREATE".toList :: .symbol '(' :: .word name :: l :: rest = text
    at h
  cases h with
  | nil => cases htext
  | cons hstatement hrest =>
    cases hstatement with
    | create hnode =>
      cases hnode with
      | intro hname hlabel hmap =>
        simp only [nodeTokens, List.cons_append, List.cons.injEq] at htext
        exact htext.2.2.2.1
    | connect =>
      simp only [List.cons_append, List.cons.injEq, Lexeme.word.injEq] at htext
      exact absurd htext.1 (by decide)

/-- A class whose id has a dash at its second place. -/
def dashedClass : Class where
  id := "c-entity-01"
  className := "Order"
  qualifiedName := "com.example.Order"
  kind := .other "ENTITY"

/-- A text of a document with that class only. -/
def dashedText : String :=
  "\x7b\"classes\":[\x7b\"id\":\"c-entity-01\",\"className\":\"Order\","
    ++ "\"qualifiedName\":\"com.example.Order\",\"type\":\"ENTITY\"\x7d]\x7d"

/-- The rows of the script of that document. -/
def brokenRows : List (List Lexeme) :=
  titleLexemes ++ [[Lexeme.comment " 1. Create service nodes".toList],
    [.comment " 2. Create class nodes".toList],
    [.word "CREATE".toList, .gap ' ', .symbol '(', .word "c_c".toList, .symbol '-',
      .word "entity".toList, .symbol ':', .word "Class".toList, .gap ' ', .symbol '\x7b']]
    ++ propertyLexemes [⟨"id", .text "c-entity-01"⟩, ⟨"name", .text "Order"⟩,
      ⟨"qualifiedName", .text "com.example.Order"⟩, ⟨"type", .text "ENTITY"⟩]
    ++ [[Lexeme.symbol '\x7d', .symbol ')', .symbol ';'], [],
      [.comment " 3. Create method nodes".toList],
      [.comment " 4. Create method call relationships".toList]]

/-- **A dash breaks a script**: the text of a class is accepted, and whatever the letters beyond
ASCII are, what its script is cut into is no script. -/
theorem variable_not_contained :
    Document.parse dashedText = .ok { classes := [dashedClass] }
    ∧ ∀ a : Alphabet, ¬ Contained a { classes := [dashedClass] }
      ∧ ∃ lexemes, lex a (script { classes := [dashedClass] }).toList = some lexemes
        ∧ ¬ IsScript a (lexemes.filter Lexeme.significant) := by
  refine ⟨by cbv, fun a => ?_⟩
  have htext : (brokenRows.flatMap fun row => row.flatMap Lexeme.text ++ ['\n'])
      = (script { classes := [dashedClass] }).toList := by
    rw [← flatMap_scriptRows]
    decide +kernel
  have hrows : ∀ row ∈ brokenRows, IsRow a row := by
    have hplain : (brokenRows.all fun row => row.all Lexeme.plain) = true := by decide +kernel
    have hchain : ∀ row ∈ brokenRows, row.IsChain Lexeme.Apart := by
      simp [brokenRows, titleLexemes, propertyLexemes, Property.lexemes, Value.lexeme,
        List.isChain_cons_cons, Lexeme.Apart]
    intro row hrow
    exact isRow_of_plain a (List.all_eq_true.mp hplain row hrow) (hchain row hrow)
  have hlex := lex_rows hrows
  rw [htext] at hlex
  have hnot : ¬ IsScript a ((brokenRows.flatMap fun row => row ++ [Lexeme.gap '\n']).filter
      Lexeme.significant) := fun h => absurd h.colon (by decide)
  refine ⟨fun hd => hnot ?_, _, hlex, hnot⟩
  rw [Option.some.inj (hlex.symm.trans hd.1)]
  exact hd.2

end Cypher

end CallGraph
