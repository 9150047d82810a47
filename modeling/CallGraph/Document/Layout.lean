import CallGraph.Document
import CallGraph.Json.Schema

/-!
# The layout of a document

How each record is written: the names of its fields in order, and what their values are.

* `metadata`, `service`, `class`, `method`, `call`, `pathNode`, `chain`, `document`: the schemas.
* `Document.parse`: a document from its text.
-/

namespace CallGraph.Layout

open Json

/-! ### Values -/

/-- A text that may be missing. -/
def optionalText : Schema (Option String) := .map some .text

/-- A number of 64 bits. -/
def word64 : Schema UInt64 := .map UInt64.ofFin (.word "usize" UInt64.size)

/-- A number of 32 bits. -/
def word32 : Schema UInt32 := .map UInt32.ofFin (.word "u32" UInt32.size)

/-- The kind of a class, by its label. -/
def classKind : Schema ClassKind := .map ClassKind.ofLabel .text

/-- The kind of a call, by its label. -/
def callKind : Schema CallKind := .map CallKind.ofLabel .text

/-! ### Records -/

/-- The fields of `Metadata`. -/
def metadataFields : Fields Metadata :=
  .cons "analysisTime" .text (fun v r => { r with analysisTime := v }) <|
  .cons "projectName" .text (fun v r => { r with projectName := v })
  .nil

/-- A `Metadata` record. -/
def metadata : Schema Metadata := .record "struct AnalysisMetadata" {} metadataFields

/-- The fields of `Service`. -/
def serviceFields : Fields Service :=
  .cons "id" .text (fun v r => { r with id := v }) <|
  .cons "name" .text (fun v r => { r with name := v }) <|
  .cons "artifactId" .text (fun v r => { r with artifactId := v }) <|
  .cons "groupId" optionalText (fun v r => { r with groupId := v }) <|
  .cons "version" optionalText (fun v r => { r with version := v }) <|
  .cons "basePackage" optionalText (fun v r => { r with basePackage := v }) <|
  .cons "rootPath" optionalText (fun v r => { r with rootPath := v })
  .nil

/-- A `Service` record. -/
def service : Schema Service := .record "struct Service" {} serviceFields

/-- The fields of `Class`. -/
def classFields : Fields Class :=
  .cons "id" .text (fun v r => { r with id := v }) <|
  .cons "className" .text (fun v r => { r with className := v }) <|
  .cons "qualifiedName" .text (fun v r => { r with qualifiedName := v }) <|
  .cons "type" classKind (fun v r => { r with kind := v }) <|
  .cons "serviceId" optionalText (fun v r => { r with serviceId := v }) <|
  .cons "packageName" optionalText (fun v r => { r with packageName := v }) <|
  .cons "filePath" optionalText (fun v r => { r with filePath := v }) <|
  .cons "annotations" (.list .text) (fun v r => { r with annotations := v })
  .nil

/-- A `Class` record. -/
def classRecord : Schema Class := .record "struct ClassRecord" {} classFields

/-- The fields of `Method`. -/
def methodFields : Fields Method :=
  .cons "id" .text (fun v r => { r with id := v }) <|
  .cons "methodName" .text (fun v r => { r with methodName := v }) <|
  .cons "signature" .text (fun v r => { r with signature := v }) <|
  .cons "classId" optionalText (fun v r => { r with classId := v }) <|
  .cons "returnType" optionalText (fun v r => { r with returnType := v }) <|
  .cons "lineStart" word32 (fun v r => { r with lineStart := v }) <|
  .cons "lineEnd" word32 (fun v r => { r with lineEnd := v })
  .nil

/-- A `Method` record. -/
def method : Schema Method := .record "struct Method" {} methodFields

/-- The fields of `Call`. -/
def callFields : Fields Call :=
  .cons "id" optionalText (fun v r => { r with id := v }) <|
  .cons "sourceMethodId" .text (fun v r => { r with sourceMethodId := v }) <|
  .cons "targetMethodId" optionalText (fun v r => { r with targetMethodId := v }) <|
  .cons "targetQualifiedMethod" optionalText (fun v r => { r with targetQualifiedMethod := v }) <|
  .cons "callType" callKind (fun v r => { r with kind := v }) <|
  .cons "sourceLineNumber" word32 (fun v r => { r with sourceLineNumber := v }) <|
  .cons "callerExpression" optionalText (fun v r => { r with callerExpression := v }) <|
  .cons "crossService" .flag (fun v r => { r with crossService := v }) <|
  .cons "targetService" optionalText (fun v r => { r with targetService := v })
  .nil

/-- A `Call` record. -/
def call : Schema Call := .record "struct MethodCall" {} callFields

/-- The fields of `PathNode`. -/
def pathNodeFields : Fields PathNode :=
  .cons "level" word64 (fun v r => { r with level := v }) <|
  .cons "methodId" .text (fun v r => { r with methodId := v }) <|
  .cons "classId" .text (fun v r => { r with classId := v }) <|
  .cons "serviceId" .text (fun v r => { r with serviceId := v }) <|
  .cons "callType" (.map some callKind) (fun v r => { r with kind := v }) <|
  .cons "httpEndpoint" optionalText (fun v r => { r with httpEndpoint := v })
  .nil

/-- A `PathNode` record. -/
def pathNode : Schema PathNode := .record "struct ChainNode" {} pathNodeFields

/-- The fields of `Chain`. -/
def chainFields : Fields Chain :=
  .cons "id" .text (fun v r => { r with id := v }) <|
  .cons "entryPoint" (.map some pathNode) (fun v r => { r with entry := v }) <|
  .cons "chain" (.list pathNode) (fun v r => { r with path := v }) <|
  .cons "maxDepth" word64 (fun v r => { r with maxDepth := v }) <|
  .cons "involvedServices" (.list .text) (fun v r => { r with involvedServices := v }) <|
  .cons "crossService" .flag (fun v r => { r with crossService := v })
  .nil

/-- A `Chain` record. -/
def chain : Schema Chain := .record "struct CallChain" {} chainFields

/-- The fields of `Document`. -/
def documentFields : Fields Document :=
  .cons "metadata" (.map some metadata) (fun v r => { r with metadata := v }) <|
  .cons "services" (.list service) (fun v r => { r with services := v }) <|
  .cons "classes" (.list classRecord) (fun v r => { r with classes := v }) <|
  .cons "methods" (.list method) (fun v r => { r with methods := v }) <|
  .cons "methodCalls" (.list call) (fun v r => { r with calls := v }) <|
  .cons "callChains" (.list chain) (fun v r => { r with chains := v })
  .nil

/-- A `Document`. -/
def document : Schema Document := .record "struct AnalysisDocument" {} documentFields

end CallGraph.Layout

namespace CallGraph

/-- The document a text holds, or why and where the text is rejected. -/
def Document.parse (text : String) : Except Json.Rejection Document :=
  Layout.document.parse text

end CallGraph
