import CallGraph.Event.Directive
import CallGraph.Pattern
import CallGraph.Text.Bytes
import CallGraph.Text.Lines

/-!
# Filters

Which events are shown.

* `Filter`: directives in order.
* `Filter.decisive?`: the directive that decides on an event, the most specific that applies.
* `Filter.shows`: whether an event is shown.
* `Filter.parse?`: a filter from its text, a list separated by commas, with `directive?` for each
  of them.
-/

namespace CallGraph

/-- Directives in order. -/
abbrev Filter : Type := List Directive

namespace Filter

/-! ### Filters as data -/

/-- The directive that decides on an event: the most specific that applies, of equally specific ones
the last. -/
def decisive? (filter : Filter) (event : Event) : Option Directive :=
  filter.foldl (fun best directive =>
    if directive.applies event then
      match best with
      | none => some directive
      | some other => if other.isAtMost directive then some directive else best
    else best) none

/-- An event is shown when the directive that decides on it allows its level. -/
def shows (filter : Filter) (event : Event) : Bool :=
  match filter.decisive? event with
  | none => false
  | some directive => directive.allows event.level

/-- The filter that shows all events up to a level. -/
def upTo (level : Level) : Filter := [⟨[], .events, some level⟩]

/-! ### Limits as text -/

/-- The limits by their ranks, where zero lets nothing through. -/
def limitOfRank? : Nat → Option (Option Level)
  | 0 => some none
  | 1 => some (some .error)
  | 2 => some (some .warn)
  | 3 => some (some .info)
  | 4 => some (some .debug)
  | 5 => some (some .trace)
  | _ => none

/-- A natural number in digits, with or without a plus sign. -/
def rank? (word : List Char) : Option Nat :=
  let digits := if word.head? = some '+' then word.drop 1 else word
  if digits ≠ [] ∧ digits.all Char.isDigit then
    some (digits.foldl (fun n c => 10 * n + (c.toNat - '0'.toNat)) 0)
  else none

/-- The limit a word names: a level or off in any case of letters, or a rank. -/
def limit? (word : List Char) : Option (Option Level) :=
  match String.ofList (word.map Char.toLower) with
  | "off" => some none
  | "error" => some (some .error)
  | "warn" => some (some .warn)
  | "info" => some (some .info)
  | "debug" => some (some .debug)
  | "trace" => some (some .trace)
  | _ => (rank? word).bind limitOfRank?

/-! ### Directives as text -/

/-- A directive begins with a letter, a number, one of three marks, or the bracket of a span. -/
def startsDirective (c : Char) : Bool :=
  Text.isAlphanumeric c || c = '-' || c = ':' || c = '_' || c = '['

/-- The scope of a field, whose value can be asked to match what is behind an equals sign. Values
are matched inside of spans. -/
def fieldScope? (field : List Char) : Option Scope :=
  match field, field.dropWhile (· ≠ '=') with
  | [], _ => none
  | field, [] => some (.eventsWith (String.ofList field))
  | _, _ :: value =>
    if Pattern.isMatchable (value.takeWhile (· ≠ '=')) then some .spans else none

/-- The limit at the end of a directive, which is all there is without one. -/
def limitOrAll? (word : List Char) : Option (Option Level) :=
  if word = [] then some (some .trace) else limit? word

/-- The scope of a span whose bracket was read, and what is behind it. A span has a name, a field in
braces, or both; a field alone is also one of events. The field is read in the text that is found
for its beginning. -/
def spanScope? (textAt : List Char → List Char) (inside : List Char) :
    Option (Scope × List Char) := do
  let name := inside.takeWhile fun c => c ≠ ']' && c ≠ '\x7b'
  match inside.drop name.length with
  | [] => none
  | ']' :: rest => return (.spans, rest)
  | _ :: fieldOn =>
    let field := fieldOn.takeWhile (· ≠ '\x7d')
    let scope ← fieldScope? (Text.takeBytes (Text.byteCount field) (textAt fieldOn))
    match fieldOn.drop field.length with
    | _ :: ']' :: rest => return (if name = [] then scope else .spans, rest)
    | _ => none

/-- A directive from its text: a limit for all targets, or a target, a span in brackets, or both,
with or without a limit behind an equals sign. The places of the parts, counted in bytes, are those
in the text without the blanks around it, but the parts are taken from there in the whole text. -/
def directive? (text : List Char) : Option Directive := do
  let body := Text.trimmed text
  let textAt (rest : List Char) :=
    Text.dropBytes (Text.byteCount body - Text.byteCount rest) text
  let first ← body.head?
  if !startsDirective first then none
  let head := body.takeWhile fun c => c ≠ '=' && c ≠ '['
  let target := Text.takeBytes (Text.byteCount head) text
  match body.drop head.length with
  | '[' :: inside =>
    let (scope, rest) ← spanScope? textAt inside
    match rest with
    | [] => return ⟨target, scope, some .trace⟩
    | '=' :: word => return ⟨target, scope, ← limitOrAll? (textAt word)⟩
    | _ => none
  | _ :: word => return ⟨target, .events, ← limitOrAll? (textAt word)⟩
  | [] =>
    match limit? text with
    | some limit => return ⟨[], .events, limit⟩
    | none => return ⟨text, .events, some .trace⟩

/-- A filter from the text of its directives with commas between them; empty ones are passed over,
and a filter without any shows errors alone. -/
def parse? (text : String) : Option Filter := do
  let pieces := (Text.splitAt ',' text.toList).filter (· ≠ [])
  let directives ← pieces.mapM directive?
  if directives = [] then return upTo .error else return directives

end Filter

end CallGraph
