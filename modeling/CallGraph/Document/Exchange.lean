import CallGraph.Cypher.Script
import CallGraph.Document.Layout
import CallGraph.Event
import CallGraph.Files

/-!
# Documents and files

Documents are loaded from files, and their scripts are written to files.

* `Failure`: why a document cannot be loaded or exported.
* `Outcome`: a result with the events on the way to it.
* `Document.load`, `Document.exportTo`: the two ways between documents and files.
-/

namespace CallGraph

/-! ### Failures -/

/-- Why a document cannot be loaded or exported. -/
inductive Failure where
  | unreadable (path : String) (fault : FileFault)
  | malformed (path : String) (rejection : Json.Rejection)
  | unwritable (path : String) (fault : FileFault)

namespace Failure

/-- What was being done. -/
def context : Failure → String
  | .unreadable path _ => "Failed to read analysis file " ++ path
  | .malformed path _ => "Failed to parse analysis file " ++ path
  | .unwritable path _ => "Failed to write Cypher script " ++ path

/-- Why it could not be done. -/
def cause : Failure → String
  | .unreadable _ fault | .unwritable _ fault => fault.message
  | .malformed _ rejection => rejection.message

/-- What could not be done, and why. -/
def message (failure : Failure) : String := failure.context ++ ": " ++ failure.cause

end Failure

/-! ### Loading and exporting -/

/-- A result with the events on the way to it. -/
structure Outcome (α : Type) where
  result : Except Failure α
  events : List Event

/-- The event that a document was loaded from a path. -/
def Document.loadedEvent (d : Document) (path : String) : Event :=
  .loaded path d.services.length d.classes.length d.methods.length d.calls.length d.chains.length

/-- The document in the text of a file that was read from a path. -/
def Document.ofContent (path : String) : Except FileFault String → Outcome Document
  | .error fault => ⟨.error (.unreadable path fault), []⟩
  | .ok text =>
    match Document.parse text with
    | .error rejection => ⟨.error (.malformed path rejection), []⟩
    | .ok d => ⟨.ok d, [d.loadedEvent path]⟩

variable {m : Type → Type} [Monad m] [FileStore m]

/-- The document in the file at a path. -/
def Document.load (path : String) : m (Outcome Document) := do
  return Document.ofContent path (← readText path)

/-- The script of a document, written to the file at a path. -/
def Document.exportTo (d : Document) (path : String) : m (Outcome Unit) := do
  match ← FileStore.writeBytes path (Cypher.script d).toUTF8 with
  | .error fault => return ⟨.error (.unwritable path fault), []⟩
  | .ok () => return ⟨.ok (), [.exported path (Cypher.statementCount d)]⟩

end CallGraph
