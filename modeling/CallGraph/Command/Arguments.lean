/-!
# Arguments

What the arguments of the command ask for. They are read from left to right, and the first that
asks for help or the version, or that is refused, ends the reading.

* `Options`: what is asked for.
* `Place`, `Flag`: what arguments fill and set.
* `Refusal`: why arguments are refused; `Stop`: what ends the reading early.
* `Reading`: the options on the way. An argument that could still get a value, or that is the input,
  waits until the next one is looked at; then it is settled.
* `Options.parse`: the options of a list of arguments.
-/

namespace CallGraph.Command

/-! ### What arguments ask for -/

/-- What is asked for: the file to load, the script with or without the file to write it to, and
more events. -/
structure Options where
  input : Option String := none
  script : Option (Option String) := none
  verbose : Bool := false
  deriving DecidableEq, Repr

/-- What arguments can fill. -/
inductive Place where
  | input
  | script
  | verbose
  deriving DecidableEq, Repr

/-- What arguments can set without a value. -/
inductive Flag where
  | verbose
  | help
  | version
  deriving DecidableEq, Repr

/-- Why arguments are refused, with the places that were settled before as far as that matters. -/
inductive Refusal where
  | unexpectedValue (value : String) (flag : Flag) (settled : List Place)
  | unexpectedInput (argument : String)
  | unknownName (name : String) (settled : List Place)
  | unknownLetter (letter : Char)
  | repeated (place : Place)
  | missingValue (place : Place)
  deriving DecidableEq, Repr

/-- What ends the reading of arguments early. -/
inductive Stop where
  | help
  | version
  | refused (reason : Refusal)
  deriving DecidableEq, Repr

/-! ### Options on the way -/

/-- An argument that is not settled yet: the path of the input, or the script with the path that may
have followed it. -/
inductive Waiting where
  | input (path : String)
  | script (path : Option String)
  deriving DecidableEq, Repr

/-- The options on the way, the places that are settled in order, and what waits to be. -/
structure Reading where
  options : Options := {}
  settled : List Place := []
  waiting : Option Waiting := none
  deriving DecidableEq, Repr

namespace Reading

/-- A path for the input, which must not be empty. The place counts as settled in any case. -/
def setInput (r : Reading) (path : String) : Reading × Option Refusal :=
  let r := { r with settled := r.settled ++ [.input] }
  if path = "" then (r, some (.missingValue .input))
  else ({ r with options.input := some path }, none)

/-- The script, once, with a path that must not be empty. Asked for again it is no longer
settled. -/
def setScript (r : Reading) (path : Option String) : Reading × Option Refusal :=
  if .script ∈ r.settled then
    ({ r with settled := r.settled.erase .script }, some (.repeated .script))
  else
    let r := { r with settled := r.settled ++ [.script] }
    if path = some "" then (r, some (.missingValue .script))
    else ({ r with options.script := some path }, none)

/-- What waits is settled; a refusal comes with what is settled then. -/
def settle (r : Reading) : Reading × Option Refusal :=
  match r.waiting with
  | none => (r, none)
  | some (.input path) => { r with waiting := none }.setInput path
  | some (.script path) => { r with waiting := none }.setScript path

/-- A refusal ends the reading. -/
def orStop : Reading × Option Refusal → Except Stop Reading
  | (r, none) => .ok r
  | (_, some reason) => .error (.refused reason)

/-- More events, asked for once. -/
def setVerbose (r : Reading) : Except Stop Reading :=
  if .verbose ∈ r.settled then .error (.refused (.repeated .verbose))
  else .ok { r with options.verbose := true, settled := r.settled ++ [.verbose] }

/-- Whether there is an input already, be it settled or waiting. -/
def hasInput (r : Reading) : Bool :=
  .input ∈ r.settled ||
    match r.waiting with
    | some (.input _) => true
    | _ => false

/-! ### Single arguments -/

/-- A path for the input waits. A second one is refused, whatever waits. -/
def addInput (r : Reading) (path : String) : Except Stop Reading :=
  if r.hasInput then .error (.refused (.unexpectedInput path))
  else do return { ← orStop r.settle with waiting := some (.input path) }

/-- A flag, behind what waits. -/
def addFlag (r : Reading) (flag : Flag) : Except Stop Reading := do
  let r ← orStop r.settle
  match flag with
  | .verbose => r.setVerbose
  | .help => .error .help
  | .version => .error .version

/-- The script with a path at once, behind what waits. -/
def addScript (r : Reading) (path : String) : Except Stop Reading := do
  orStop ((← orStop r.settle).setScript (some path))

/-- The script, perhaps with a path behind it, waits. -/
def awaitScript (r : Reading) (path : Option String) : Except Stop Reading := do
  return { ← orStop r.settle with waiting := some (.script path) }

/-- The flag of a letter. -/
def flagOfLetter? : Char → Option Flag
  | 'v' => some .verbose
  | 'h' => some .help
  | 'V' => some .version
  | _ => none

/-- The flag of a name. -/
def flagOfName? : String → Option Flag
  | "verbose" => some .verbose
  | "help" => some .help
  | "version" => some .version
  | _ => none

/-- The letters behind a single dash, one after the other. -/
def addLetters (r : Reading) : List Char → Except Stop Reading
  | [] => .ok r
  | c :: more =>
    match flagOfLetter? c with
    | some flag => do addLetters (← r.addFlag flag) more
    | none => .error (.refused (.unknownLetter c))

/-- A name that is not the script's, with the value attached to it. A flag takes no value and an
unknown name is refused, whatever waits. -/
def addNamed (r : Reading) (name : String) (value : Option String) : Except Stop Reading :=
  match flagOfName? name, value with
  | some flag, none => r.addFlag flag
  | some flag, some value => .error (.refused (.unexpectedValue value flag r.settled))
  | none, _ => .error (.refused (.unknownName name r.settle.1.settled))

end Reading

/-! ### Forms of arguments -/

/-- The name and the value of what stands behind two dashes; the value is behind the first equals
sign. -/
def nameAndValue (text : List Char) : String × Option String :=
  let name := String.ofList (text.takeWhile (· ≠ '='))
  match text.dropWhile (· ≠ '=') with
  | [] => (name, none)
  | _ :: value => (name, some (String.ofList value))

/-- The forms of an argument. -/
inductive Form where
  | separator
  | named (name : String) (value : Option String)
  | letters (letters : List Char)
  | plain
  deriving DecidableEq, Repr

/-- The form of an argument; a lone dash is a plain one. -/
def form (argument : String) : Form :=
  match argument.toList with
  | ['-', '-'] => .separator
  | '-' :: '-' :: text => .named (nameAndValue text).1 (nameAndValue text).2
  | '-' :: c :: letters => .letters (c :: letters)
  | _ => .plain

/-- Whether an argument can be the value of the option before it. -/
def isValue (argument : String) : Bool := form argument = .plain

/-! ### All arguments -/

namespace Reading

/-- Arguments behind the separator are plain ones whatever their form. -/
def addInputs (r : Reading) : List String → Except Stop Reading
  | [] => .ok r
  | argument :: more => do addInputs (← r.addInput argument) more

/-- Arguments from left to right. -/
def add (r : Reading) : List String → Except Stop Reading
  | [] => .ok r
  | argument :: more =>
    match form argument with
    | .separator => r.addInputs more
    | .letters letters => do add (← r.addLetters letters) more
    | .plain => do add (← r.addInput argument) more
    | .named "cypher" (some value) => do add (← r.addScript value) more
    | .named "cypher" none =>
      match more with
      | [] => r.awaitScript none
      | next :: rest =>
        if isValue next then do add (← r.awaitScript (some next)) rest
        else do add (← r.awaitScript none) (next :: rest)
    | .named name value => do add (← r.addNamed name value) more

end Reading

/-- The options of a list of arguments, at whose end nothing waits any longer. -/
def Options.parse (arguments : List String) : Except Stop Options := do
  let r ← ({} : Reading).add arguments
  return (← Reading.orStop r.settle).options

end CallGraph.Command
