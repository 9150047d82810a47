import CallGraph.Command.Arguments

/-!
# Options without empty paths

Arguments may be empty, but an empty path is refused: no list of arguments gives options with one.
Each step of reading keeps this, so reading all arguments does.

* `Reading.Proper` — no path that was set is empty;
* `Reading.Keeps` — a step that leads to proper options, if it leads anywhere;
* `Options.proper_of_parse` — what all arguments lead to.
-/

namespace CallGraph.Command

/-- No path is empty. -/
structure Options.Proper (options : Options) : Prop where
  input : options.input ≠ some ""
  script : options.script ≠ some (some "")

namespace Reading

/-- No path that was set is empty. -/
def Proper (r : Reading) : Prop := r.options.Proper

/-- A step does not end with an empty path. -/
def Keeps (step : Except Stop Reading) : Prop := ∀ r, step = .ok r → r.Proper

theorem keeps_ok {r : Reading} (h : r.Proper) : Keeps (.ok r) := by
  rintro _ ⟨⟩
  exact h

theorem keeps_error (stop : Stop) : Keeps (.error stop) := by
  rintro _ ⟨⟩

/-- One step behind another. -/
theorem Keeps.bind {step : Except Stop Reading} {next : Reading → Except Stop Reading}
    (h : Keeps step) (hnext : ∀ r : Reading, r.Proper → Keeps (next r)) :
    Keeps (step >>= next) := by
  cases step with
  | error stop => exact keeps_error stop
  | ok r => exact hnext r (h r rfl)

/-! ### Single steps -/

variable {r : Reading}

theorem keeps_setInput (h : r.Proper) (path : String) : Keeps (orStop (r.setInput path)) := by
  rw [setInput]
  by_cases hpath : path = ""
  · rw [if_pos hpath]
    exact keeps_error _
  · rw [if_neg hpath]
    refine keeps_ok ⟨?_, h.script⟩
    simpa using hpath

theorem keeps_setScript (h : r.Proper) (path : Option String) :
    Keeps (orStop (r.setScript path)) := by
  rw [setScript]
  by_cases hsettled : .script ∈ r.settled
  · rw [if_pos hsettled]
    exact keeps_error _
  rw [if_neg hsettled]
  by_cases hpath : path = some ""
  · simp only [if_pos hpath]
    exact keeps_error _
  · simp only [if_neg hpath]
    refine keeps_ok ⟨h.input, ?_⟩
    simpa using hpath

/-- Whatever waits is settled without an empty path. -/
theorem keeps_settle (h : r.Proper) : Keeps (orStop r.settle) := by
  rw [settle]
  split
  · exact keeps_ok h
  · exact keeps_setInput (r := { r with waiting := none }) h _
  · exact keeps_setScript (r := { r with waiting := none }) h _

theorem keeps_addInput (h : r.Proper) (path : String) : Keeps (r.addInput path) := by
  rw [addInput]
  by_cases hinput : r.hasInput = true
  · rw [if_pos hinput]
    exact keeps_error _
  · rw [if_neg hinput]
    exact (keeps_settle h).bind fun _ hs => keeps_ok hs

theorem keeps_addFlag (h : r.Proper) (flag : Flag) : Keeps (r.addFlag flag) := by
  refine (keeps_settle h).bind ?_
  intro s hs
  cases flag with
  | verbose =>
    show Keeps s.setVerbose
    rw [setVerbose]
    by_cases hsettled : .verbose ∈ s.settled
    · rw [if_pos hsettled]
      exact keeps_error _
    · rw [if_neg hsettled]
      exact keeps_ok ⟨hs.input, hs.script⟩
  | help | version => exact keeps_error _

theorem keeps_addScript (h : r.Proper) (path : String) : Keeps (r.addScript path) :=
  (keeps_settle h).bind fun _ hs => keeps_setScript hs _

theorem keeps_awaitScript (h : r.Proper) (path : Option String) : Keeps (r.awaitScript path) :=
  (keeps_settle h).bind fun _ hs => keeps_ok hs

theorem keeps_addLetters (h : r.Proper) (letters : List Char) : Keeps (r.addLetters letters) := by
  induction letters generalizing r with
  | nil => exact keeps_ok h
  | cons c more ih =>
    rw [addLetters]
    cases flagOfLetter? c with
    | none => exact keeps_error _
    | some flag => exact (keeps_addFlag h flag).bind fun _ hs => ih hs

theorem keeps_addNamed (h : r.Proper) (name : String) (value : Option String) :
    Keeps (r.addNamed name value) := by
  unfold addNamed
  cases flagOfName? name with
  | none => exact keeps_error _
  | some flag =>
    cases value with
    | none => exact keeps_addFlag h flag
    | some value => exact keeps_error _

/-! ### All arguments -/

theorem keeps_addInputs (h : r.Proper) (arguments : List String) :
    Keeps (r.addInputs arguments) := by
  induction arguments generalizing r with
  | nil => exact keeps_ok h
  | cons argument more ih =>
    rw [addInputs]
    exact (keeps_addInput h argument).bind fun _ hs => ih hs

theorem keeps_add (h : r.Proper) (arguments : List String) : Keeps (r.add arguments) := by
  fun_induction Reading.add r arguments with
  | case1 r => exact keeps_ok h
  | case2 r argument more => exact keeps_addInputs h more
  | case3 r argument more letters _ ih =>
    exact (keeps_addLetters h letters).bind fun s hs => ih s hs
  | case4 r argument more _ ih => exact (keeps_addInput h argument).bind fun s hs => ih s hs
  | case5 r argument more value _ ih => exact (keeps_addScript h value).bind fun s hs => ih s hs
  | case6 r argument => exact keeps_awaitScript h none
  | case7 r argument _ next rest _ ih =>
    exact (keeps_awaitScript h (some next)).bind fun s hs => ih s hs
  | case8 r argument _ next rest _ ih =>
    exact (keeps_awaitScript h none).bind fun s hs => ih s hs
  | case9 r argument more name value _ _ _ ih =>
    exact (keeps_addNamed h name value).bind fun s hs => ih s hs

end Reading

/-- **No arguments give an empty path.** -/
theorem Options.proper_of_parse {arguments : List String} {options : Options}
    (h : Options.parse arguments = .ok options) : options.Proper := by
  have hstart : ({} : Reading).Proper := ⟨by simp, by simp⟩
  rw [Options.parse] at h
  cases hadd : ({} : Reading).add arguments with
  | error stop =>
    rw [hadd] at h
    cases h
  | ok r =>
    rw [hadd] at h
    have hr := Reading.keeps_add hstart arguments r hadd
    cases hsettle : Reading.orStop r.settle with
    | error stop =>
      simp only [bind, Except.bind, hsettle] at h
      cases h
    | ok s =>
      simp only [bind, Except.bind, hsettle, pure, Except.pure] at h
      obtain rfl := Except.ok.inj h
      exact Reading.keeps_settle hr s hsettle

end CallGraph.Command
