import CallGraph.Label

/-!
# Documents

The result of a call-chain analysis: the services of a project, their classes and methods, the
calls between methods, and the chains of calls that start at an entry point.

* `Metadata`, `Service`, `Class`, `Method`, `Call`, `PathNode`, `Chain`: the records.
* `Document`: all of them.
* `Call.resolvedTarget`, `PathNode.endpoint`: a target or an endpoint that is given and not empty.
* `Document.append`: the records of two documents one after the other.
-/

namespace CallGraph

/-! ### Records -/

/-- What was analysed, and when. -/
structure Metadata where
  analysisTime : String := ""
  projectName : String := ""
  deriving DecidableEq, Repr, Inhabited

/-- A service of the project. -/
structure Service where
  id : String := ""
  name : String := ""
  artifactId : String := ""
  groupId : Option String := none
  version : Option String := none
  basePackage : Option String := none
  rootPath : Option String := none
  deriving DecidableEq, Repr, Inhabited

/-- A class of a service. -/
structure Class where
  id : String := ""
  className : String := ""
  qualifiedName : String := ""
  kind : ClassKind := .unknown
  serviceId : Option String := none
  packageName : Option String := none
  filePath : Option String := none
  annotations : List String := []
  deriving DecidableEq, Repr, Inhabited

/-- A method of a class. -/
structure Method where
  id : String := ""
  methodName : String := ""
  signature : String := ""
  classId : Option String := none
  returnType : Option String := none
  lineStart : UInt32 := 0
  lineEnd : UInt32 := 0
  deriving DecidableEq, Repr, Inhabited

/-- A call from one method to another. Calls that leave the analysed services have no target. -/
structure Call where
  id : Option String := none
  sourceMethodId : String := ""
  targetMethodId : Option String := none
  targetQualifiedMethod : Option String := none
  kind : CallKind := .unknown
  sourceLineNumber : UInt32 := 0
  callerExpression : Option String := none
  crossService : Bool := false
  targetService : Option String := none
  deriving DecidableEq, Repr, Inhabited

/-- A method on the path of a chain, or the entry point of one. -/
structure PathNode where
  level : UInt64 := 0
  methodId : String := ""
  classId : String := ""
  serviceId : String := ""
  kind : Option CallKind := none
  httpEndpoint : Option String := none
  deriving DecidableEq, Repr, Inhabited

/-- A chain of calls. -/
structure Chain where
  id : String := ""
  entry : Option PathNode := none
  path : List PathNode := []
  maxDepth : UInt64 := 0
  involvedServices : List String := []
  crossService : Bool := false
  deriving DecidableEq, Repr, Inhabited

/-- The whole result of an analysis. -/
structure Document where
  metadata : Option Metadata := none
  services : List Service := []
  classes : List Class := []
  methods : List Method := []
  calls : List Call := []
  chains : List Chain := []
  deriving DecidableEq, Repr, Inhabited

/-! ### What is given -/

/-- A text counts as given when it is not empty. -/
def given (text : Option String) : Option String := text.filter (· ≠ "")

/-- The target of a call whose method is known. -/
def Call.resolvedTarget (call : Call) : Option String := given call.targetMethodId

/-- The address at which a method answers requests. -/
def PathNode.endpoint (node : PathNode) : Option String := given node.httpEndpoint

/-- The number of calls whose target is known. -/
def Document.resolvedCallCount (d : Document) : Nat :=
  d.calls.countP (·.resolvedTarget.isSome)

/-! ### Two documents -/

/-- The records of two documents one after the other; the later metadata counts. -/
def Document.append (d e : Document) : Document where
  metadata := e.metadata <|> d.metadata
  services := d.services ++ e.services
  classes := d.classes ++ e.classes
  methods := d.methods ++ e.methods
  calls := d.calls ++ e.calls
  chains := d.chains ++ e.chains

instance : Append Document := ⟨Document.append⟩

end CallGraph
