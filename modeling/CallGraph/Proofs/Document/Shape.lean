import CallGraph.Document
import CallGraph.Proofs.Json.Shape

/-!
# Documents as trees

How each record stands in a JSON text: all of its fields under their names, each with its value.
Labels are texts, and what is missing is null.

* `Service.IsTree`, `Class.IsTree`, …, `Document.IsTree` — the trees of records;
* `Document.WrittenAs` — the texts of a document;
* `Document.Canonical` — no kind is kept as a label that stands for another kind;
* `Document.exists_writtenAs` — every document has a text.
-/

namespace CallGraph

open Json

/-! ### Records -/

/-- The trees of what was analysed. -/
def Metadata.IsTree (m : Metadata) : Tree → Prop :=
  IsObject [("analysisTime", IsText m.analysisTime), ("projectName", IsText m.projectName)]

/-- The trees of a service. -/
def Service.IsTree (s : Service) : Tree → Prop :=
  IsObject [("id", IsText s.id), ("name", IsText s.name), ("artifactId", IsText s.artifactId),
    ("groupId", IsOptional IsText s.groupId), ("version", IsOptional IsText s.version),
    ("basePackage", IsOptional IsText s.basePackage), ("rootPath", IsOptional IsText s.rootPath)]

/-- The trees of a class; its kind is its type. -/
def Class.IsTree (c : Class) : Tree → Prop :=
  IsObject [("id", IsText c.id), ("className", IsText c.className),
    ("qualifiedName", IsText c.qualifiedName), ("type", IsText c.kind.label),
    ("serviceId", IsOptional IsText c.serviceId), ("packageName", IsOptional IsText c.packageName),
    ("filePath", IsOptional IsText c.filePath), ("annotations", IsList IsText c.annotations)]

/-- The trees of a method. -/
def Method.IsTree (m : Method) : Tree → Prop :=
  IsObject [("id", IsText m.id), ("methodName", IsText m.methodName),
    ("signature", IsText m.signature), ("classId", IsOptional IsText m.classId),
    ("returnType", IsOptional IsText m.returnType), ("lineStart", IsNumber m.lineStart.toNat),
    ("lineEnd", IsNumber m.lineEnd.toNat)]

/-- The trees of a call. -/
def Call.IsTree (c : Call) : Tree → Prop :=
  IsObject [("id", IsOptional IsText c.id), ("sourceMethodId", IsText c.sourceMethodId),
    ("targetMethodId", IsOptional IsText c.targetMethodId),
    ("targetQualifiedMethod", IsOptional IsText c.targetQualifiedMethod),
    ("callType", IsText c.kind.label), ("sourceLineNumber", IsNumber c.sourceLineNumber.toNat),
    ("callerExpression", IsOptional IsText c.callerExpression),
    ("crossService", IsFlag c.crossService), ("targetService", IsOptional IsText c.targetService)]

/-- The trees of a node. -/
def PathNode.IsTree (n : PathNode) : Tree → Prop :=
  IsObject [("level", IsNumber n.level.toNat), ("methodId", IsText n.methodId),
    ("classId", IsText n.classId), ("serviceId", IsText n.serviceId),
    ("callType", IsOptional (fun kind => IsText kind.label) n.kind),
    ("httpEndpoint", IsOptional IsText n.httpEndpoint)]

/-- The trees of a chain. -/
def Chain.IsTree (c : Chain) : Tree → Prop :=
  IsObject [("id", IsText c.id), ("entryPoint", IsOptional PathNode.IsTree c.entry),
    ("chain", IsList PathNode.IsTree c.path), ("maxDepth", IsNumber c.maxDepth.toNat),
    ("involvedServices", IsList IsText c.involvedServices),
    ("crossService", IsFlag c.crossService)]

/-- The trees of a document. -/
def Document.IsTree (d : Document) : Tree → Prop :=
  IsObject [("metadata", IsOptional Metadata.IsTree d.metadata),
    ("services", IsList Service.IsTree d.services), ("classes", IsList Class.IsTree d.classes),
    ("methods", IsList Method.IsTree d.methods), ("methodCalls", IsList Call.IsTree d.calls),
    ("callChains", IsList Chain.IsTree d.chains)]

/-- A text of a document: the text of one of its trees, with blanks around it. -/
def Document.WrittenAs (d : Document) (text : String) : Prop :=
  ∃ tree before written behind, d.IsTree tree ∧ Written tree written ∧ IsGap before
    ∧ IsGap behind ∧ text = String.ofList (before ++ (written ++ behind))

/-! ### Canonical kinds -/

/-- A kind of classes that is kept as a label has a label of its own. -/
def ClassKind.Canonical (kind : ClassKind) : Prop :=
  ∀ label, kind = .other label →
    label ∉ ["CONTROLLER", "SERVICE", "REPOSITORY", "COMPONENT", "CONFIGURATION", "INTERFACE",
      "PLAIN_CLASS", "DUBBO_SERVICE", "UNKNOWN"]

/-- A kind of calls that is kept as a label has a label of its own. -/
def CallKind.Canonical (kind : CallKind) : Prop :=
  ∀ label, kind = .other label →
    label ∉ ["INTERNAL_METHOD_CALL", "RPC_METHOD_CALL", "HTTP_METHOD_CALL", "STATIC_METHOD_CALL",
      "CONSTRUCTOR_CALL", "UNKNOWN"]

/-- The kind of a node is canonical if it is given. -/
def PathNode.Canonical (node : PathNode) : Prop := ∀ kind ∈ node.kind, kind.Canonical

/-- All kinds in a document are canonical. -/
structure Document.Canonical (d : Document) : Prop where
  classes : ∀ c ∈ d.classes, c.kind.Canonical
  calls : ∀ call ∈ d.calls, call.kind.Canonical
  entries : ∀ chain ∈ d.chains, ∀ node ∈ chain.entry, node.Canonical
  nodes : ∀ chain ∈ d.chains, ∀ node ∈ chain.path, node.Canonical

/-- A canonical kind is read back from its label. -/
theorem ClassKind.ofLabel_label {kind : ClassKind} (h : kind.Canonical) :
    ofLabel kind.label = kind := by
  cases kind with
  | other label =>
    have hlabel := h label rfl
    simp only [List.mem_cons, List.not_mem_nil, or_false, not_or] at hlabel
    show ofLabel label = _
    unfold ofLabel
    split <;> simp_all
  | _ => rfl

theorem CallKind.ofLabel_label {kind : CallKind} (h : kind.Canonical) :
    ofLabel kind.label = kind := by
  cases kind with
  | other label =>
    have hlabel := h label rfl
    simp only [List.mem_cons, List.not_mem_nil, or_false, not_or] at hlabel
    show ofLabel label = _
    unfold ofLabel
    split <;> simp_all
  | _ => rfl

/-! ### Every document has a text -/

theorem writable_optionalText (text : Option String) : Writable (IsOptional IsText text) :=
  writable_isOptional fun v _ => writable_isText v

theorem writable_texts (texts : List String) : Writable (IsList IsText texts) :=
  writable_isList fun v _ => writable_isText v

theorem Metadata.writable (m : Metadata) : Writable m.IsTree := by
  apply writable_isObject
  exact ⟨writable_isText _, writable_isText _⟩

theorem Service.writable (s : Service) : Writable s.IsTree := by
  apply writable_isObject
  exact ⟨writable_isText _, writable_isText _, writable_isText _, writable_optionalText _,
    writable_optionalText _, writable_optionalText _, writable_optionalText _⟩

theorem Class.writable (c : Class) : Writable c.IsTree := by
  apply writable_isObject
  exact ⟨writable_isText _, writable_isText _, writable_isText _, writable_isText _,
    writable_optionalText _, writable_optionalText _, writable_optionalText _, writable_texts _⟩

theorem Method.writable (m : Method) : Writable m.IsTree := by
  apply writable_isObject
  exact ⟨writable_isText _, writable_isText _, writable_isText _, writable_optionalText _,
    writable_optionalText _, writable_isNumber _, writable_isNumber _⟩

theorem Call.writable (c : Call) : Writable c.IsTree := by
  apply writable_isObject
  exact ⟨writable_optionalText _, writable_isText _, writable_optionalText _,
    writable_optionalText _, writable_isText _, writable_isNumber _, writable_optionalText _,
    writable_isFlag _, writable_optionalText _⟩

theorem PathNode.writable (n : PathNode) : Writable n.IsTree := by
  apply writable_isObject
  exact ⟨writable_isNumber _, writable_isText _, writable_isText _, writable_isText _,
    writable_isOptional fun kind _ => writable_isText kind.label, writable_optionalText _⟩

theorem Chain.writable (c : Chain) : Writable c.IsTree := by
  apply writable_isObject
  exact ⟨writable_isText _, writable_isOptional fun node _ => node.writable,
    writable_isList fun node _ => node.writable, writable_isNumber _, writable_texts _,
    writable_isFlag _⟩

theorem Document.writable (d : Document) : Writable d.IsTree := by
  apply writable_isObject
  exact ⟨writable_isOptional fun m _ => m.writable, writable_isList fun s _ => s.writable,
    writable_isList fun c _ => c.writable, writable_isList fun m _ => m.writable,
    writable_isList fun call _ => call.writable, writable_isList fun chain _ => chain.writable⟩

/-- Every document has a text. -/
theorem Document.exists_writtenAs (d : Document) : ∃ text, d.WrittenAs text := by
  obtain ⟨tree, written, htree, hwritten⟩ := d.writable
  exact ⟨_, tree, [], written, [], htree, hwritten, isGap_nil, isGap_nil, rfl⟩

end CallGraph
