import CallGraph.Proofs.Document.RoundTrip
import CallGraph.Proofs.Json.Locating

/-!
# Where the records of a document stand

The layouts of records put each value into a part of the record of its own, so the records in a
document's tree are found in the document at the same places.

* `Layout.readBy_classes`, … — the part of a record that a field puts in;
* `Layout.locates_class`, … — the classes, methods, calls, chains and nodes of a document.
-/

namespace CallGraph.Layout

open Json

/-! ### Parts of documents and chains -/

theorem readBy_classes : documentFields.ReadBy "classes" (.list classRecord) Document.classes :=
  documentFields_lawful.readBy (n := 2) rfl ⟨fun _ _ => rfl, fun _ => rfl⟩

theorem readBy_methods : documentFields.ReadBy "methods" (.list method) Document.methods :=
  documentFields_lawful.readBy (n := 3) rfl ⟨fun _ _ => rfl, fun _ => rfl⟩

theorem readBy_calls : documentFields.ReadBy "methodCalls" (.list call) Document.calls :=
  documentFields_lawful.readBy (n := 4) rfl ⟨fun _ _ => rfl, fun _ => rfl⟩

theorem readBy_chains : documentFields.ReadBy "callChains" (.list chain) Document.chains :=
  documentFields_lawful.readBy (n := 5) rfl ⟨fun _ _ => rfl, fun _ => rfl⟩

theorem readBy_entry : chainFields.ReadBy "entryPoint" (.map some pathNode) Chain.entry :=
  chainFields_lawful.readBy (n := 1) rfl ⟨fun _ _ => rfl, fun _ => rfl⟩

theorem readBy_path : chainFields.ReadBy "chain" (.list pathNode) Chain.path :=
  chainFields_lawful.readBy (n := 2) rfl ⟨fun _ _ => rfl, fun _ => rfl⟩

/-! ### Numbers -/

theorem readBy_lineStart : methodFields.ReadBy "lineStart" word32 Method.lineStart :=
  methodFields_lawful.readBy (n := 5) rfl ⟨fun _ _ => rfl, fun _ => rfl⟩

theorem readBy_lineEnd : methodFields.ReadBy "lineEnd" word32 Method.lineEnd :=
  methodFields_lawful.readBy (n := 6) rfl ⟨fun _ _ => rfl, fun _ => rfl⟩

theorem readBy_sourceLineNumber :
    callFields.ReadBy "sourceLineNumber" word32 Call.sourceLineNumber :=
  callFields_lawful.readBy (n := 5) rfl ⟨fun _ _ => rfl, fun _ => rfl⟩

theorem readBy_maxDepth : chainFields.ReadBy "maxDepth" word64 Chain.maxDepth :=
  chainFields_lawful.readBy (n := 3) rfl ⟨fun _ _ => rfl, fun _ => rfl⟩

theorem readBy_level : pathNodeFields.ReadBy "level" word64 PathNode.level :=
  pathNodeFields_lawful.readBy (n := 0) rfl ⟨fun _ _ => rfl, fun _ => rfl⟩

/-! ### Labels -/

theorem readBy_type : classFields.ReadBy "type" classKind Class.kind :=
  classFields_lawful.readBy (n := 3) rfl ⟨fun _ _ => rfl, fun _ => rfl⟩

theorem readBy_callType : callFields.ReadBy "callType" callKind Call.kind :=
  callFields_lawful.readBy (n := 4) rfl ⟨fun _ _ => rfl, fun _ => rfl⟩

theorem readBy_nodeType : pathNodeFields.ReadBy "callType" (.map some callKind) PathNode.kind :=
  pathNodeFields_lawful.readBy (n := 4) rfl ⟨fun _ _ => rfl, fun _ => rfl⟩

/-! ### Records of a document -/

variable {n m : Nat} {around close : Tree → Tree}

theorem locates_class (h : documentFields.ItemAt "classes" n around) :
    classRecord.Locates document around fun d => d.classes[n]? :=
  h.locates readBy_classes documentFields_lawful.names _ _

theorem locates_method (h : documentFields.ItemAt "methods" n around) :
    method.Locates document around fun d => d.methods[n]? :=
  h.locates readBy_methods documentFields_lawful.names _ _

theorem locates_call (h : documentFields.ItemAt "methodCalls" n around) :
    call.Locates document around fun d => d.calls[n]? :=
  h.locates readBy_calls documentFields_lawful.names _ _

theorem locates_chain (h : documentFields.ItemAt "callChains" n around) :
    chain.Locates document around fun d => d.chains[n]? :=
  h.locates readBy_chains documentFields_lawful.names _ _

/-- A node on the path of a chain. -/
theorem locates_node (h : documentFields.ItemAt "callChains" n around)
    (hpath : chainFields.ItemAt "chain" m close) :
    pathNode.Locates document (fun tree => around (close tree))
      fun d => d.chains[n]?.bind fun chain => chain.path[m]? :=
  (hpath.locates readBy_path chainFields_lawful.names _ _).trans (locates_chain h)

/-- The entry point of a chain. -/
theorem locates_entry (h : documentFields.ItemAt "callChains" n around)
    (hentry : chainFields.Spot "entryPoint" close) :
    pathNode.Locates document (fun tree => around (close tree))
      fun d => d.chains[n]?.bind Chain.entry := by
  have hspot := hentry.locates readBy_entry chainFields_lawful.names "struct CallChain" {}
  exact ((locates_some pathNode).trans hspot).trans (locates_chain h)

end CallGraph.Layout
