import CallGraph.Command.Arguments
import CallGraph.Text.Terminal

/-!
# Usage

What the command says about itself: its usage, its help, its version, and why it refuses arguments.

* `usageLine`, `helpText`, `versionText`.
* `Refusal.message`: why arguments are refused.
* `Refusal.usage`: how the command is called, as far as it matters for a refusal.
* `Refusal.text`: both with advice.
-/

namespace CallGraph.Command

/-! ### Usage, help and version -/

/-- How the command is called. -/
def usageLine : String := "Usage: callscope [OPTIONS] [INPUT]"

/-- The version of the command. -/
def versionText : String := "callscope 0.1.0\n"

/-- All the command can be asked for. -/
def helpText : String :=
  "Print call chains from an analysis result and optionally export them to Neo4j Cypher\n\n"
    ++ usageLine ++ "\n\n"
    ++ "Arguments:\n"
    ++ "  [INPUT]  Analysis result JSON file\n\n"
    ++ "Options:\n"
    ++ "      --cypher [<FILE>]  Also write a Neo4j Cypher import script to FILE\n"
    ++ "  -v, --verbose          Emit debug diagnostics on stderr\n"
    ++ "  -h, --help             Print help\n"
    ++ "  -V, --version          Print version\n"

/-! ### Places and flags -/

/-- A place as messages name it. -/
def Place.text : Place → String
  | .input => "[INPUT]"
  | .script => "--cypher [<FILE>]"
  | .verbose => "--verbose"

/-- A flag as messages name it. -/
def Flag.text : Flag → String
  | .verbose => "--verbose"
  | .help => "--help"
  | .version => "--version"

/-- The input in a usage, which is a must once it was given. -/
def inputText (isGiven : Bool) : String := if isGiven then "<INPUT>" else "[INPUT]"

/-- The usage of a command with the given words behind its name. -/
def usageOf (words : List String) : String := "Usage: " ++ " ".intercalate ("callscope" :: words)

/-- The usage that names the places that are settled, the input last. -/
def usageWith (settled : List Place) : String :=
  if settled = [] then usageLine
  else usageOf ((settled.filter (· ≠ .input)).map Place.text ++ [inputText (.input ∈ settled)])

/-- The choice between all places. -/
def placesText : String :=
  "<INPUT|" ++ Place.script.text ++ "|" ++ Place.verbose.text ++ ">"

/-- The usage that names a flag: alone with the input, or once a place is settled with the choice
between all of them, which has a flag that is a place in it. -/
def usageFor (flag : Flag) (settled : List Place) : String :=
  if settled = [] then usageOf [flag.text, Place.input.text]
  else if flag = .verbose then usageOf [placesText]
  else usageOf [flag.text, placesText]

/-! ### Refusals -/

namespace Refusal

/-- An argument as it is shown in a message. -/
def shown (argument : String) : String := Text.plain argument

/-- Why arguments are refused. -/
def message : Refusal → String
  | .unexpectedValue value flag _ =>
    "unexpected value '" ++ shown value ++ "' for '" ++ flag.text
      ++ "' found; no more were expected"
  | .unexpectedInput argument => "unexpected argument '" ++ shown argument ++ "' found"
  | .unknownName name _ => "unexpected argument '" ++ shown ("--" ++ name) ++ "' found"
  | .unknownLetter letter =>
    "unexpected argument '" ++ shown ("-" ++ String.singleton letter) ++ "' found"
  | .repeated place => "the argument '" ++ place.text ++ "' cannot be used multiple times"
  | .missingValue place => "a value is required for '" ++ place.text ++ "' but none was supplied"

/-- The advice to give what looks like an option behind the separator. -/
def separatorTip (option : String) : String :=
  "  tip: to pass '" ++ shown option ++ "' as a value, use '" ++ shown ("-- " ++ option) ++ "'\n\n"

/-- Advice against a refusal. -/
def tip : Refusal → String
  | .unknownName name _ => separatorTip ("--" ++ name)
  | .unknownLetter letter => separatorTip ("-" ++ String.singleton letter)
  | _ => ""

/-- How the command is called, as far as it matters for the refusal. -/
def usage : Refusal → String
  | .missingValue _ => ""
  | .unexpectedValue _ flag settled => usageFor flag settled ++ "\n\n"
  | .unknownName _ settled => usageWith settled ++ "\n\n"
  | .unexpectedInput _ | .unknownLetter _ | .repeated _ => usageLine ++ "\n\n"

/-- Why arguments are refused, with advice. -/
def text (r : Refusal) : String :=
  "error: " ++ r.message ++ "\n\n" ++ r.tip ++ r.usage
    ++ "For more information, try '--help'.\n"

end Refusal

end CallGraph.Command
