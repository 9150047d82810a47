import CallGraph.Proofs.Command.Outcome
import CallGraph.Proofs.Report.Omissions
import Mathlib.Data.List.Basic

/-!
# Diagnostics

A run tells of its work on the side.  What it tells is chosen by a filter, and the filter is all
that depends on the options and directives for diagnostics: exit code, output and files do not, and
neither do the events the filter chooses from.

* `Emitted` — the events of a run in the order in which they are emitted;
* `emitted_view` — viewing a document emits these;
* `filter_shows_limit` — with the name of a level, events are shown up to that level;
* `run_diagnostics` — two runs that differ in diagnostics only.
-/

namespace CallGraph.Command

/-! ### The events of a run -/

/-- The event that the script was written, if it was asked for and could be. -/
def exportEvents (before : FileTree) (script : Option String) (d : Document) : List Event :=
  match script with
  | none => []
  | some path =>
    match before.write path (Cypher.script d).toUTF8 with
    | .error _ => []
    | .ok _ => [.exported path (Cypher.statementCount d)]

/-- The events of a run in order: that its document was loaded, what is left out of the chains one
after the other, and that the script was written. -/
inductive Emitted (before : FileTree) (script : Option String) :
    Option String → List Event → Prop where
  | idle : Emitted before script none []
  | unloaded {input : String} (h : ∀ d, ¬ before.Loads input d) :
    Emitted before script (some input) []
  | loaded {input : String} {d : Document} (h : before.Loads input d) :
    Emitted before script (some input)
      ([d.loadedEvent input] ++ d.chains.flatMap (Report.chainEvents d.tables)
        ++ exportEvents before script d)

/-- A document is noted as loaded exactly if it is. -/
theorem events_ofContent (path : String) (content : Except FileFault String) :
    (Document.ofContent path content).events
      = match (Document.ofContent path content).result with
        | .error _ => []
        | .ok d => [d.loadedEvent path] := by
  cases content with
  | error fault => rfl
  | ok text =>
    rw [Document.ofContent]
    cases Document.parse text <;> rfl

/-- Viewing a document emits its events in this order, as far as it gets. -/
theorem emitted_view (before : FileTree) (input : String) (script : Option String) :
    Emitted before script (some input)
      ((view input script : StateM FileTree Transcript) before).1.events := by
  have hevents := events_ofContent input ((before.read input).bind textOf)
  have hloads (d : Document) : before.Loads input d
      ↔ (Document.ofContent input ((before.read input).bind textOf)).result = .ok d := by
    rw [FileTree.Loads, load_onFiles]
  rw [view, bind_onFiles, load_onFiles]
  dsimp only
  cases hresult : (Document.ofContent input ((before.read input).bind textOf)).result with
  | error failure =>
    rw [hresult] at hevents
    show Emitted before script (some input) (Document.ofContent input _).events
    rw [hevents]
    refine .unloaded ?_
    intro d hd
    cases hresult.symm.trans ((hloads d).mp hd)
  | ok d =>
    rw [hresult] at hevents
    have hload : before.Loads input d := (hloads d).mpr hresult
    have hpresented : ((present ⟨loadingLine input, [d.loadedEvent input], none⟩ d script :
          StateM FileTree Transcript) before).1.events
        = [d.loadedEvent input] ++ d.chains.flatMap (Report.chainEvents d.tables)
          ++ exportEvents before script d := by
      rw [← Report.events_report d.tables true d]
      cases script with
      | none => exact (List.append_nil _).symm
      | some path =>
        rw [present]
        dsimp only
        rw [bind_onFiles, exportTo_onFiles, exportEvents]
        cases before.write path (Cypher.script d).toUTF8 <;> rfl
    dsimp only
    rw [hevents, hpresented]
    exact .loaded hload

/-! ### Filters by level -/

/-- The name of a limit for all events. -/
def limitName : Option Level → String
  | none => "off"
  | some .error => "error"
  | some .warn => "warn"
  | some .info => "info"
  | some .debug => "debug"
  | some .trace => "trace"

/-- Limits by how much they let through. -/
def limitRank (limit : Option Level) : Nat := (limit.map Level.rank).getD 0

/-- The name of a limit is the filter with that limit for all events. -/
theorem chosenFilter_limitName (verbose : Bool) (limit : Option Level) :
    chosenFilter verbose (some (limitName limit)) = [⟨[], .events, limit⟩] := by
  have hparse : Filter.parse? (limitName limit) = some [⟨[], .events, limit⟩] := by
    rcases limit with _ | _ | _ | _ | _ | _ <;> decide +kernel
  rw [chosenFilter, Option.bind_some, hparse]
  rfl

/-- Such a filter shows the events up to its limit. -/
theorem shows_limit_iff (limit : Option Level) (event : Event) :
    Filter.shows [⟨[], .events, limit⟩] event = true ↔ event.level.rank ≤ limitRank limit := by
  have hdecides : Filter.shows [⟨[], .events, limit⟩] event
      = Directive.allows ⟨[], .events, limit⟩ event.level := rfl
  rw [hdecides]
  cases limit with
  | none =>
    generalize event.level = level
    cases level <;> decide
  | some limit => exact decide_eq_true_iff

/-- The name of a limit shows the events up to that limit. -/
theorem filter_shows_limit (verbose : Bool) (limit : Option Level) (events : List Event) :
    events.filter (chosenFilter verbose (some (limitName limit))).shows
      = events.filter fun event => event.level.rank ≤ limitRank limit := by
  rw [chosenFilter_limitName]
  refine List.filter_congr ?_
  intro event _
  rw [Bool.eq_iff_iff, shows_limit_iff, decide_eq_true_iff]

/-- The higher the limit, the more events are up to it. -/
theorem filter_rank_sublist {rank more : Nat} (h : rank ≤ more) (events : List Event) :
    (events.filter fun event => event.level.rank ≤ rank).Sublist
      (events.filter fun event => event.level.rank ≤ more) := by
  refine List.monotone_filter_right events ?_
  intro event hrank
  rw [decide_eq_true_iff] at hrank ⊢
  exact Nat.le_trans hrank h

/-! ### Two runs -/

/-- A run without a file to load. -/
theorem run_idle {arguments : List String} {options : Options}
    (h : Options.parse arguments = .ok options) (hinput : options.input = none)
    (directives : Option String) (before : FileTree) :
    (run arguments directives : StateM FileTree Reply) before
      = (⟨1, usageLine ++ "\n", ""⟩, before) := by
  rw [run, h]
  dsimp only
  rw [hinput]
  rfl

/-- A run with a file to load is a view of it, whose reply is all that depends on diagnostics. -/
theorem run_view {arguments : List String} {options : Options} {input : String}
    (h : Options.parse arguments = .ok options) (hinput : options.input = some input)
    (directives : Option String) (before : FileTree) :
    (run arguments directives : StateM FileTree Reply) before
      = (((view input options.script.join : StateM FileTree Transcript) before).1.reply
          (chosenFilter options.verbose directives),
        ((view input options.script.join : StateM FileTree Transcript) before).2) := by
  rw [run, h]
  dsimp only
  rw [hinput]
  rfl

/-- **Diagnostics do not leak into results.**  Two runs whose arguments ask for the same file to
load and the same one to write have the same exit code, output and files, whatever they ask for and
are given in the way of diagnostics.  What each prints beside that is a line for each of the events
that its filter shows, and behind them the same failure, which there is exactly if a file to load
was given and the exit code is not zero.  The events are the same in the same order.  With the name
of a level for a filter they are shown up to that level, and with that of a higher one none of them
is lost. -/
theorem run_diagnostics {arguments others : List String} {options otherOptions : Options}
    (h : Options.parse arguments = .ok options) (hothers : Options.parse others = .ok otherOptions)
    (hinput : options.input = otherOptions.input)
    (hscript : options.script.join = otherOptions.script.join)
    (directives otherDirectives : Option String) (before : FileTree) :
    ∃ code output after events logged otherLogged errorText, ∃ failure : Option Failure,
      (run arguments directives : StateM FileTree Reply) before
        = (⟨code, output, Text.unlines (logged.map Event.line) ++ errorText⟩, after)
      ∧ (run others otherDirectives : StateM FileTree Reply) before
        = (⟨code, output, Text.unlines (otherLogged.map Event.line) ++ errorText⟩, after)
      ∧ logged = events.filter (chosenFilter options.verbose directives).shows
      ∧ otherLogged = events.filter (chosenFilter otherOptions.verbose otherDirectives).shows
      ∧ Emitted before options.script.join options.input events
      ∧ errorText = (failure.map fun fault =>
        "Error: " ++ fault.context ++ "\n\nCaused by:\n    " ++ fault.cause ++ "\n").getD ""
      ∧ (failure = none ↔ code = 0 ∨ options.input = none)
      ∧ (∀ limit, directives = some (limitName limit) →
        logged = events.filter fun event => event.level.rank ≤ limitRank limit)
      ∧ ∀ limit more, directives = some (limitName limit) →
        otherDirectives = some (limitName more) → limitRank limit ≤ limitRank more →
        logged.Sublist otherLogged := by
  have hlevel (events : List Event) (limit : Option Level)
      (hlimit : directives = some (limitName limit)) :
      events.filter (chosenFilter options.verbose directives).shows
        = events.filter fun event => event.level.rank ≤ limitRank limit := by
    rw [hlimit, filter_shows_limit]
  have hlevels (events : List Event) (limit more : Option Level)
      (hlimit : directives = some (limitName limit))
      (hmore : otherDirectives = some (limitName more)) (hle : limitRank limit ≤ limitRank more) :
      (events.filter (chosenFilter options.verbose directives).shows).Sublist
        (events.filter (chosenFilter otherOptions.verbose otherDirectives).shows) := by
    rw [hlevel events limit hlimit, hmore, filter_shows_limit]
    exact filter_rank_sublist hle events
  cases hcases : options.input with
  | none =>
    rw [run_idle h hcases, run_idle hothers (hinput ▸ hcases)]
    exact ⟨1, _, before, [], _, _, "", none, rfl, rfl, rfl, rfl, .idle, rfl, by simp, hlevel [],
      hlevels []⟩
  | some input =>
    rw [run_view h hcases, run_view hothers (hinput ▸ hcases), ← hscript]
    have hemitted := emitted_view before input options.script.join
    generalize (view input options.script.join : StateM FileTree Transcript) before = viewed
      at hemitted
    obtain ⟨transcript, after⟩ := viewed
    refine ⟨_, transcript.printed, after, transcript.events, _, _, _, transcript.failure, rfl, rfl,
      rfl, rfl, hemitted, rfl, ?_, hlevel transcript.events, hlevels transcript.events⟩
    cases transcript.failure with
    | none => simp
    | some failure => simp

/-- Without diagnostics and with all there are for debugging, a file is viewed with the same result:
the second log has one event more, that the file was loaded. -/
theorem run_diagnostics_verbose :
    Options.parse ["a"] = .ok ⟨some "a", none, false⟩
    ∧ Options.parse ["-v", "a"] = .ok ⟨some "a", none, true⟩
    ∧ ∃ code output after logged otherLogged errorText,
      (run ["a"] (some "off") : StateM FileTree Reply) blankFile
        = (⟨code, output, Text.unlines (logged.map Event.line) ++ errorText⟩, after)
      ∧ (run ["-v", "a"] (some "debug") : StateM FileTree Reply) blankFile
        = (⟨code, output, Text.unlines (otherLogged.map Event.line) ++ errorText⟩, after)
      ∧ logged = [] ∧ otherLogged = [.loaded "a" 0 0 0 0 0] ∧ logged.Sublist otherLogged := by
  have hquiet : Options.parse ["a"] = .ok ⟨some "a", none, false⟩ := by rfl
  have hverbose : Options.parse ["-v", "a"] = .ok ⟨some "a", none, true⟩ := by rfl
  obtain ⟨code, output, after, events, logged, otherLogged, errorText, -, hrun, hother, -, hshown,
      hemitted, -, -, hlevel, hlevels⟩ :=
    run_diagnostics hquiet hverbose rfl rfl (some "off") (some "debug") blankFile
  have hevents : events = [.loaded "a" 0 0 0 0 0] := by
    cases hemitted with
    | unloaded hnone => exact absurd blankFile_loads (hnone {})
    | loaded hload =>
      obtain rfl := hload.unique blankFile_loads
      rfl
  have hlogged : logged = [] := by
    rw [hlevel none rfl, hevents]
    rfl
  have hotherLogged : otherLogged = [.loaded "a" 0 0 0 0 0] := by
    rw [hshown, hevents]
    exact filter_shows_limit true (some .debug) _
  exact ⟨hquiet, hverbose, code, output, after, logged, otherLogged, errorText, hrun, hother,
    hlogged, hotherLogged, hlevels none (some .debug) rfl rfl (by decide)⟩

end CallGraph.Command
