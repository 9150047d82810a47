import CallGraph.Command.Usage
import CallGraph.Document.Exchange
import CallGraph.Event.Filter
import CallGraph.Report

/-!
# Running the command

What the command does with its arguments: it loads a document, prints its report, and writes its
script if it is asked to.

* `Transcript`: what is printed on the way, the events, and the failure that ended it.
* `view`: a document loaded, printed and perhaps exported.
* `chosenFilter`: which events are shown.
* `run`: the whole command, whose `Reply` is its exit code and what it printed.
-/

namespace CallGraph.Command

/-! ### Viewing a document -/

/-- What happened until the end or the first failure. -/
structure Transcript where
  printed : String
  events : List Event
  failure : Option Failure

/-- The first line of the output. -/
def loadingLine (path : String) : String := "Loading: " ++ path ++ "\n"

/-- The last line of the output when the script was written. -/
def exportedLine (path : String) : String :=
  "Neo4j Cypher script exported to: " ++ path ++ "\n"

/-- The whole report of a document. -/
def reportBlock (d : Document) : Report.Block := Report.report d.tables true d

variable {m : Type → Type} [Monad m] [FileStore m]

/-- A loaded document printed, and its script written if there is a path for it. -/
def present (before : Transcript) (d : Document) (script : Option String) : m Transcript := do
  let block := reportBlock d
  let printed := before.printed ++ block.text
  let events := before.events ++ block.events
  match script with
  | none => return ⟨printed, events, none⟩
  | some path =>
    let outcome ← d.exportTo path
    match outcome.result with
    | .error failure => return ⟨printed, events ++ outcome.events, some failure⟩
    | .ok () => return ⟨printed ++ exportedLine path, events ++ outcome.events, none⟩

/-- The document at a path loaded and presented. -/
def view (input : String) (script : Option String) : m Transcript := do
  let outcome ← Document.load input
  match outcome.result with
  | .error failure => return ⟨loadingLine input, outcome.events, some failure⟩
  | .ok d => present ⟨loadingLine input, outcome.events, none⟩ d script

/-! ### Replies -/

/-- The exit code of the command and what it printed. -/
structure Reply where
  code : Nat
  output : String
  errors : String
  deriving DecidableEq, Repr

/-- The filter given by directives if they make one; otherwise warnings, or with more events asked
for those for debugging. -/
def chosenFilter (verbose : Bool) (directives : Option String) : Filter :=
  (directives.bind Filter.parse?).getD (Filter.upTo (if verbose then .debug else .warn))

/-- The lines of the events a filter shows. -/
def logText (filter : Filter) (events : List Event) : String :=
  Text.unlines ((events.filter filter.shows).map Event.line)

/-- A failure as it is printed at the end. -/
def failureText (failure : Failure) : String :=
  "Error: " ++ failure.context ++ "\n\nCaused by:\n    " ++ failure.cause ++ "\n"

/-- The reply of a transcript: its log goes before its failure. -/
def Transcript.reply (t : Transcript) (filter : Filter) : Reply where
  code := if t.failure.isSome then 1 else 0
  output := t.printed
  errors := logText filter t.events ++ (t.failure.map failureText).getD ""

/-- The reply to arguments that end early. -/
def Stop.reply : Stop → Reply
  | .help => ⟨0, helpText, ""⟩
  | .version => ⟨0, versionText, ""⟩
  | .refused reason => ⟨2, "", reason.text⟩

/-- The command with its arguments and the directives for its filter. -/
def run (arguments : List String) (directives : Option String) : m Reply :=
  match Options.parse arguments with
  | .error stop => return stop.reply
  | .ok options =>
    match options.input with
    | none => return ⟨1, usageLine ++ "\n", ""⟩
    | some input => do
      let transcript ← view input options.script.join
      return transcript.reply (chosenFilter options.verbose directives)

end CallGraph.Command
