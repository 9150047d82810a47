import CallGraph.Document.Layout
import CallGraph.Proofs.Document.Shape
import CallGraph.Proofs.Json.Reading

/-!
# Documents are read back from their texts

The layout of each record understands the trees of the record.  With the readers that agree with the
layout, every text of a document is read back as the document.

* `serviceFields_lawful`, … — the fields of each record do not get in each other's way;
* `Service.means`, …, `Document.means` — the trees of a record stand for it in its layout;
* `Document.parse_of_writtenAs` — every document has a text, and is read back from all of them.
-/

namespace CallGraph

open Json

/-! ### The layouts are lawful -/

namespace Layout

theorem metadataFields_lawful : metadataFields.Lawful where
  names := by decide
  commute := by simp [metadataFields]

theorem serviceFields_lawful : serviceFields.Lawful where
  names := by decide
  commute := by simp [serviceFields]

theorem classFields_lawful : classFields.Lawful where
  names := by decide
  commute := by simp [classFields]

theorem methodFields_lawful : methodFields.Lawful where
  names := by decide
  commute := by simp [methodFields]

theorem callFields_lawful : callFields.Lawful where
  names := by decide
  commute := by simp [callFields]

theorem pathNodeFields_lawful : pathNodeFields.Lawful where
  names := by decide
  commute := by simp [pathNodeFields]

theorem chainFields_lawful : chainFields.Lawful where
  names := by decide
  commute := by simp [chainFields]

theorem documentFields_lawful : documentFields.Lawful where
  names := by decide
  commute := by simp [documentFields]

/-! ### Fields understand their shapes -/

variable {α ρ : Type}

/-- The change of a field that may be missing. -/
def optionalChange (set : Option α → ρ → ρ) : Option α → ρ → ρ
  | none => id
  | some value => set (some value)

theorem understands_optional {schema : Schema (Option α)} {set : Option α → ρ → ρ}
    {shape : α → Tree → Prop} {value : Option α}
    (h : ∀ v ∈ value, ∀ tree, shape v tree → schema.Means tree (some v)) :
    Understands schema set (IsOptional shape value) (optionalChange set value) := by
  cases value with
  | none => exact .missing fun tree htree => htree
  | some v => exact .given (h v rfl)

theorem understands_text (set : String → ρ → ρ) (value : String) :
    Understands .text set (IsText value) (set value) :=
  .given fun _ => means_isText

theorem understands_optionalText (set : Option String → ρ → ρ) (value : Option String) :
    Understands optionalText set (IsOptional IsText value) (optionalChange set value) :=
  understands_optional fun _ _ _ htree => means_map (means_isText htree)

theorem understands_flag (set : Bool → ρ → ρ) (value : Bool) :
    Understands .flag set (IsFlag value) (set value) :=
  .given fun _ => means_isFlag

theorem understands_word32 (set : UInt32 → ρ → ρ) (value : UInt32) :
    Understands word32 set (IsNumber value.toNat) (set value) := by
  apply Understands.given
  intro tree htree
  have hword : (Schema.word "u32" UInt32.size).Means tree value.toFin := by
    rw [Schema.Means]
    refine ⟨htree, ?_⟩
    have := value.toNat_lt
    show value.toNat ≤ 0xFFFFFFFFFFFFFFFF
    omega
  have hvalue := means_map (f := UInt32.ofFin) hword
  rwa [UInt32.ofFin_toFin] at hvalue

theorem understands_word64 (set : UInt64 → ρ → ρ) (value : UInt64) :
    Understands word64 set (IsNumber value.toNat) (set value) := by
  apply Understands.given
  intro tree htree
  have hword : (Schema.word "usize" UInt64.size).Means tree value.toFin := by
    rw [Schema.Means]
    refine ⟨htree, ?_⟩
    have := value.toNat_lt
    show value.toNat ≤ 0xFFFFFFFFFFFFFFFF
    omega
  have hvalue := means_map (f := UInt64.ofFin) hword
  rwa [UInt64.ofFin_toFin] at hvalue

theorem means_classKind {kind : ClassKind} (h : kind.Canonical) {tree : Tree}
    (htree : IsText kind.label tree) : classKind.Means tree kind := by
  have hvalue := means_map (f := ClassKind.ofLabel) (means_isText htree)
  rwa [ClassKind.ofLabel_label h] at hvalue

theorem means_callKind {kind : CallKind} (h : kind.Canonical) {tree : Tree}
    (htree : IsText kind.label tree) : callKind.Means tree kind := by
  have hvalue := means_map (f := CallKind.ofLabel) (means_isText htree)
  rwa [CallKind.ofLabel_label h] at hvalue

theorem understands_list {schema : Schema α} (set : List α → ρ → ρ) {shape : α → Tree → Prop}
    {values : List α} (h : ∀ value ∈ values, ∀ tree, shape value tree → schema.Means tree value) :
    Understands (.list schema) set (IsList shape values) (set values) :=
  .given fun _ htree => means_isList htree h

theorem understands_texts (set : List String → ρ → ρ) (values : List String) :
    Understands (.list .text) set (IsList IsText values) (set values) :=
  understands_list set fun _ _ _ => means_isText

end Layout

/-! ### Trees of records stand for the records -/

open Layout

theorem Metadata.means {m : Metadata} {tree : Tree} (h : m.IsTree tree) : metadata.Means tree m :=
  means_isObject (.cons (understands_text _ _) (.cons (understands_text _ _) .nil))
    metadataFields_lawful rfl h

theorem Service.means {s : Service} {tree : Tree} (h : s.IsTree tree) : service.Means tree s := by
  refine means_isObject (.cons (understands_text _ _) <| .cons (understands_text _ _) <|
    .cons (understands_text _ _) <| .cons (understands_optionalText _ _) <|
    .cons (understands_optionalText _ _) <| .cons (understands_optionalText _ _) <|
    .cons (understands_optionalText _ _) .nil) serviceFields_lawful ?_ h
  obtain ⟨id, name, artifactId, groupId, version, basePackage, rootPath⟩ := s
  cases groupId <;> cases version <;> cases basePackage <;> cases rootPath <;> rfl

theorem Class.means {c : Class} (hkind : c.kind.Canonical) {tree : Tree} (h : c.IsTree tree) :
    classRecord.Means tree c := by
  refine means_isObject (.cons (understands_text _ _) <| .cons (understands_text _ _) <|
    .cons (understands_text _ _) <| .cons (.given fun _ => means_classKind hkind) <|
    .cons (understands_optionalText _ _) <| .cons (understands_optionalText _ _) <|
    .cons (understands_optionalText _ _) <| .cons (understands_texts _ _) .nil)
    classFields_lawful ?_ h
  obtain ⟨id, className, qualifiedName, kind, serviceId, packageName, filePath, annotations⟩ := c
  cases serviceId <;> cases packageName <;> cases filePath <;> rfl

theorem Method.means {m : Method} {tree : Tree} (h : m.IsTree tree) : method.Means tree m := by
  refine means_isObject (.cons (understands_text _ _) <| .cons (understands_text _ _) <|
    .cons (understands_text _ _) <| .cons (understands_optionalText _ _) <|
    .cons (understands_optionalText _ _) <| .cons (understands_word32 _ _) <|
    .cons (understands_word32 _ _) .nil) methodFields_lawful ?_ h
  obtain ⟨id, methodName, signature, classId, returnType, lineStart, lineEnd⟩ := m
  cases classId <;> cases returnType <;> rfl

theorem Call.means {c : Call} (hkind : c.kind.Canonical) {tree : Tree} (h : c.IsTree tree) :
    call.Means tree c := by
  refine means_isObject (.cons (understands_optionalText _ _) <| .cons (understands_text _ _) <|
    .cons (understands_optionalText _ _) <| .cons (understands_optionalText _ _) <|
    .cons (.given fun _ => means_callKind hkind) <| .cons (understands_word32 _ _) <|
    .cons (understands_optionalText _ _) <| .cons (understands_flag _ _) <|
    .cons (understands_optionalText _ _) .nil) callFields_lawful ?_ h
  obtain ⟨id, source, target, qualified, kind, line, expression, crossService, service⟩ := c
  cases id <;> cases target <;> cases qualified <;> cases expression <;> cases service <;> rfl

theorem PathNode.means {n : PathNode} (hkind : n.Canonical) {tree : Tree} (h : n.IsTree tree) :
    pathNode.Means tree n := by
  refine means_isObject (.cons (understands_word64 _ _) <| .cons (understands_text _ _) <|
    .cons (understands_text _ _) <| .cons (understands_text _ _) <|
    .cons (understands_optional fun kind hmem _ htree =>
      means_map (means_callKind (hkind kind hmem) htree)) <|
    .cons (understands_optionalText _ _) .nil) pathNodeFields_lawful ?_ h
  obtain ⟨level, methodId, classId, serviceId, kind, httpEndpoint⟩ := n
  cases kind <;> cases httpEndpoint <;> rfl

theorem Chain.means {c : Chain} (hentry : ∀ node ∈ c.entry, node.Canonical)
    (hpath : ∀ node ∈ c.path, node.Canonical) {tree : Tree} (h : c.IsTree tree) :
    chain.Means tree c := by
  refine means_isObject (.cons (understands_text _ _) <|
    .cons (understands_optional fun node hmem _ htree =>
      means_map (node.means (hentry node hmem) htree)) <|
    .cons (understands_list _ fun node hmem _ => PathNode.means (hpath node hmem)) <|
    .cons (understands_word64 _ _) <| .cons (understands_texts _ _) <|
    .cons (understands_flag _ _) .nil) chainFields_lawful ?_ h
  obtain ⟨id, entry, path, maxDepth, involvedServices, crossService⟩ := c
  cases entry <;> rfl

/-- The trees of a canonical document stand for it in its layout. -/
theorem Document.means {d : Document} (hcanonical : d.Canonical) {tree : Tree} (h : d.IsTree tree) :
    document.Means tree d := by
  refine means_isObject (.cons (understands_optional fun _ _ _ htree =>
      means_map (Metadata.means htree)) <|
    .cons (understands_list _ fun _ _ _ => Service.means) <|
    .cons (understands_list _ fun c hmem _ => Class.means (hcanonical.classes c hmem)) <|
    .cons (understands_list _ fun _ _ _ => Method.means) <|
    .cons (understands_list _ fun call hmem _ => Call.means (hcanonical.calls call hmem)) <|
    .cons (understands_list _ fun chain hmem _ =>
      Chain.means (hcanonical.entries chain hmem) (hcanonical.nodes chain hmem)) .nil)
    documentFields_lawful ?_ h
  obtain ⟨metadata, services, classes, methods, calls, chains⟩ := d
  cases metadata <;> rfl

/-! ### Texts of documents -/

/-- **Every document can be written as JSON and is read back exactly**: it has a text, and every
text of it, with the members of each record in any order, any blanks between tokens and any spelling
of each character, is accepted as that document, provided that no kind is kept as a label which
stands for another kind. -/
theorem Document.parse_of_writtenAs (d : Document) :
    (∃ text, d.WrittenAs text)
      ∧ (d.Canonical → ∀ text, d.WrittenAs text → Document.parse text = .ok d) := by
  refine ⟨d.exists_writtenAs, ?_⟩
  intro hcanonical text htext
  obtain ⟨tree, before, written, behind, htree, hwritten, hbefore, hbehind, rfl⟩ := htext
  exact Schema.parse_of_means (d.means hcanonical htree) hbefore hwritten hbehind

/-! ### One document -/

/-- A document with nothing but a class. -/
def note : Document where
  classes := [{ id := "c", className := "a\"b", kind := .other "ENTITY" }]

/-- A text of that document, with escapes in a key and a value, blanks, and members out of order. -/
def noteText : String :=
  " \x7b\"services\":[ ],\"metadata\":null,\"classes\":["
    ++ "\x7b\"className\":\"a\\\"b\",\"id\":\"c\",\"qualifiedName\":\"\","
    ++ "\"typ\\u0065\" : \"ENTITY\",\"serviceId\":null,\"packageName\":null,"
    ++ "\"filePath\":null,\"annotations\":[]\x7d],\"methods\":[],"
    ++ "\"methodCalls\":[],\"callChains\":[]\x7d\n"

/-- The tree of the class in that text. -/
def noteClass : Tree :=
  .object [("className".toList, .text "a\\\"b".toList), ("id".toList, .text "c".toList),
    ("qualifiedName".toList, .text []), ("typ\\u0065".toList, .text "ENTITY".toList),
    ("serviceId".toList, .null), ("packageName".toList, .null), ("filePath".toList, .null),
    ("annotations".toList, .list [])]

/-- The tree of that text. -/
def noteTree : Tree :=
  .object [("services".toList, .list []), ("metadata".toList, .null),
    ("classes".toList, .list [noteClass]), ("methods".toList, .list []),
    ("methodCalls".toList, .list []), ("callChains".toList, .list [])]

theorem spellsAll_type : SpellsAll "type".toList "typ\\u0065".toList := by
  have hhex : IsHex 0x65 ['0', '0', '6', '5'] :=
    .intro (w := 0) (x := 0) (y := 6) (z := 5) (by decide) (by decide) (by decide) (by decide) rfl
  have he : Spells 'e' ['\\', 'u', '0', '0', '6', '5'] := .numbered hhex
  exact @SpellsAll.plain_append _ _ (.cons he .nil) "typ".toList rfl

theorem spellsAll_quote : SpellsAll "a\"b".toList "a\\\"b".toList := by
  have hb : SpellsAll ['b'] ['b'] := spellsAll_self
  have hquote : Spells '"' ['\\', '"'] := .short (by decide)
  exact @SpellsAll.plain_append _ _ (.cons hquote hb) ['a'] rfl

theorem note_canonical : note.Canonical := by
  have hkind : (ClassKind.other "ENTITY").Canonical := by
    rintro label ⟨⟩
    decide
  constructor
  · intro c hc
    obtain rfl := List.mem_singleton.mp hc
    exact hkind
  all_goals
    intro _ hmem
    exact absurd hmem List.not_mem_nil

theorem note_isTree : note.IsTree noteTree := by
  have hempty {α : Type} (shape : α → Tree → Prop) : IsList shape [] (.list []) := ⟨[], rfl, .nil⟩
  have htext {text : String} (h : SpellsAll text.toList text.toList) :
      IsText text (.text text.toList) := ⟨_, rfl, h⟩
  refine ⟨_, _, rfl, .swap _ _ _, .cons ⟨spellsAll_self, rfl⟩ <|
    .cons ⟨spellsAll_self, hempty _⟩ <|
    .cons ⟨spellsAll_self, [noteClass], rfl, .cons ?_ .nil⟩ <|
    .cons ⟨spellsAll_self, hempty _⟩ <| .cons ⟨spellsAll_self, hempty _⟩ <|
    .cons ⟨spellsAll_self, hempty _⟩ .nil⟩
  exact ⟨_, _, rfl, .swap _ _ _,
    .cons ⟨spellsAll_self, htext spellsAll_self⟩ <|
    .cons ⟨spellsAll_self, _, rfl, spellsAll_quote⟩ <|
    .cons ⟨spellsAll_self, _, rfl, .nil⟩ <|
    .cons ⟨spellsAll_type, htext spellsAll_self⟩ <|
    .cons ⟨spellsAll_self, rfl⟩ <| .cons ⟨spellsAll_self, rfl⟩ <|
    .cons ⟨spellsAll_self, rfl⟩ <| .cons ⟨spellsAll_self, hempty _⟩ .nil⟩

theorem note_writtenAs : note.WrittenAs noteText := by
  have hspace : IsGap [' '] := by simp [IsGap]
  have hfeed : IsGap ['\n'] := by simp [IsGap]
  have hnone : Written (.list []) ['[', ']'] := .emptyList isGap_nil
  have hmember (name : String) {tree : Tree} {text : List Char} (htree : Written tree text)
      (hname : SpellsAll name.toList name.toList) :=
    WrittenMember.intro hname.isBody isGap_nil isGap_nil htree
  have hbody (text : String) (h : SpellsAll text.toList text.toList) :=
    Written.text h.isBody
  have hlabel := hbody "ENTITY" spellsAll_self
  have hkind := WrittenMember.intro spellsAll_type.isBody hspace hspace hlabel
  have hclass : Written noteClass _ := .object <|
    .more isGap_nil (hmember "className" (.text spellsAll_quote.isBody) spellsAll_self) isGap_nil <|
    .more isGap_nil (hmember "id" (hbody "c" spellsAll_self) spellsAll_self) isGap_nil <|
    .more isGap_nil (hmember "qualifiedName" (.text .nil) spellsAll_self) isGap_nil <|
    .more isGap_nil hkind isGap_nil <|
    .more isGap_nil (hmember "serviceId" .null spellsAll_self) isGap_nil <|
    .more isGap_nil (hmember "packageName" .null spellsAll_self) isGap_nil <|
    .more isGap_nil (hmember "filePath" .null spellsAll_self) isGap_nil <|
    .last isGap_nil (hmember "annotations" hnone spellsAll_self) isGap_nil
  have hclasses := Written.list (.last isGap_nil hclass isGap_nil)
  have hdocument : Written noteTree _ := .object <|
    .more isGap_nil (hmember "services" (.emptyList hspace) spellsAll_self) isGap_nil <|
    .more isGap_nil (hmember "metadata" .null spellsAll_self) isGap_nil <|
    .more isGap_nil (hmember "classes" hclasses spellsAll_self) isGap_nil <|
    .more isGap_nil (hmember "methods" hnone spellsAll_self) isGap_nil <|
    .more isGap_nil (hmember "methodCalls" hnone spellsAll_self) isGap_nil <|
    .last isGap_nil (hmember "callChains" hnone spellsAll_self) isGap_nil
  exact ⟨noteTree, [' '], _, ['\n'], note_isTree, hdocument, hspace, hfeed, by decide +kernel⟩

/-- Blanks, escapes and the order of members do not matter for that document. -/
theorem parse_noteText :
    note.Canonical ∧ note.WrittenAs noteText ∧ Document.parse noteText = .ok note :=
  ⟨note_canonical, note_writtenAs,
    (Document.parse_of_writtenAs note).2 note_canonical noteText note_writtenAs⟩

end CallGraph
