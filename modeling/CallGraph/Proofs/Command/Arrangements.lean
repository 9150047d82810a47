import CallGraph.Proofs.Command.Diagnostics
import Mathlib.Data.List.Nodup

/-!
# Arrangements of arguments

The parts of a list of arguments can be written in several ways and in any order.  What is read so
far depends on the parts alone: this is kept from part to part, so all parts that are read give
their options, and their order does not matter as long as no two of them fill the same place.  A
path that would be taken for something else stands behind an equals sign or a separator.

* `Bare` — paths that are taken for nothing else;
* `Part` — what arguments are made of, with `Part.words` for the way it is written;
* `Reading.Holds` — the parts that were read are all there is to a reading;
* `Holds.addPart`, `add_parts` — one part keeps this, and so do all;
* `parse_parts`, `optionsOf_perm` — the options of parts, in whatever order;
* `run_spellings` — the ways to load one path and to export to another.
-/

namespace CallGraph.Command

/-! ### Forms of arguments -/

/-- A path that stands for itself wherever it is: it does not begin with a dash, or is one. -/
def Bare (path : String) : Prop := path.toList.head? ≠ some '-' ∨ path = "-"

instance (path : String) : Decidable (Bare path) := inferInstanceAs (Decidable (_ ∨ _))

theorem form_of_bare {path : String} (h : Bare path) : form path = .plain := by
  rcases h with hdash | rfl
  · rw [form]
    cases hpath : path.toList with
    | nil => rfl
    | cons c more =>
      have hc : c ≠ '-' := by
        rintro rfl
        rw [hpath] at hdash
        exact hdash rfl
      split <;> simp_all
  · rfl

/-- The name of the script without a value. -/
theorem form_name : form "--cypher" = .named "cypher" none := by rfl

/-- A value behind the equals sign of the script is taken as it is. -/
theorem form_attached (value : String) :
    form ("--cypher=" ++ value) = .named "cypher" (some value) := by
  have hletters : ("--cypher=" ++ value).toList
      = '-' :: '-' :: ("cypher".toList ++ '=' :: value.toList) := by
    rw [String.toList_append]
    rfl
  have htext : nameAndValue ("cypher".toList ++ '=' :: value.toList) = ("cypher", some value) := by
    rw [nameAndValue, List.takeWhile_append_of_pos (by simp),
      List.dropWhile_append_of_pos (by simp)]
    simp
  rw [form, hletters]
  show Form.named (nameAndValue _).1 (nameAndValue _).2 = _
  rw [htext]

/-! ### Parts of arguments -/

/-- What arguments are made of: a path for the input, one for the script, attached to its name or
behind it, and more events by name or by letter. -/
inductive Part where
  | input (path : String)
  | script (path : String) (attached : Bool)
  | verbose (named : Bool)

namespace Part

/-- The arguments that a part is written as. -/
def words : Part → List String
  | .input path => [path]
  | .script path true => ["--cypher=" ++ path]
  | .script path false => ["--cypher", path]
  | .verbose true => ["--verbose"]
  | .verbose false => ["-v"]

/-- What a part fills. -/
@[simp] def place : Part → Place
  | .input _ => .input
  | .script _ _ => .script
  | .verbose _ => .verbose

/-- A part is there in options. -/
def apply (options : Options) : Part → Options
  | .input path => { options with input := some path }
  | .script path _ => { options with script := some (some path) }
  | .verbose _ => { options with verbose := true }

/-- A part is read as what it is: its path is not empty, and stands for itself unless it is
attached. -/
def Proper : Part → Prop
  | .input path => path ≠ "" ∧ Bare path
  | .script path attached => path ≠ "" ∧ (attached = true ∨ Bare path)
  | .verbose _ => True

/-- Parts that fill different places do not meet. -/
theorem apply_comm {part other : Part} (h : part.place ≠ other.place) (options : Options) :
    apply (apply options part) other = apply (apply options other) part := by
  cases part <;> cases other <;> simp [apply] at h ⊢

end Part

/-- The options that parts ask for. -/
def optionsOf (parts : List Part) : Options := parts.foldl Part.apply {}

theorem optionsOf_concat (parts : List Part) (part : Part) :
    optionsOf (parts ++ [part]) = part.apply (optionsOf parts) := by
  rw [optionsOf, List.foldl_append]
  rfl

/-- The order of parts does not matter if no two of them fill the same place. -/
theorem optionsOf_perm {parts others : List Part} (h : parts.Perm others)
    (hplaces : (parts.map Part.place).Nodup) : optionsOf parts = optionsOf others := by
  refine h.foldl_eq' ?_ ({} : Options)
  intro part hpart other hother options
  by_cases hsame : part = other
  · rw [hsame]
  · refine Part.apply_comm ?_ options
    intro hplace
    exact hsame (List.inj_on_of_nodup_map hplaces hpart hother hplace)

/-! ### Reading parts -/

namespace Reading

/-- Once what waits is settled, the parts that were read are all there is to a reading. -/
def Holds (r : Reading) (parts : List Part) : Prop :=
  orStop r.settle = .ok ⟨optionsOf parts, parts.map Part.place, none⟩

variable {r : Reading} {parts : List Part}

theorem holds_start : ({} : Reading).Holds [] := rfl

/-- There is an input exactly if there is one once what waits is settled. -/
theorem hasInput_iff {s : Reading} (h : orStop r.settle = .ok s) :
    r.hasInput = true ↔ .input ∈ s.settled := by
  obtain ⟨options, settled, waiting⟩ := r
  cases waiting with
  | none =>
    obtain rfl := Except.ok.inj h
    simp [hasInput]
  | some waiting =>
    cases waiting with
    | input path =>
      simp only [settle, setInput] at h
      split at h
      · cases h
      · obtain rfl := Except.ok.inj h
        simp [hasInput]
    | script path =>
      simp only [settle, setScript] at h
      split at h
      · cases h
      · split at h
        · cases h
        · obtain rfl := Except.ok.inj h
          simp [hasInput]

/-- A path for the input that is the first one waits. -/
theorem Holds.addInput (h : r.Holds parts) (hnew : .input ∉ parts.map Part.place) {path : String}
    (hpath : path ≠ "") :
    ∃ s : Reading, r.addInput path = .ok s ∧ s.Holds (parts ++ [.input path]) := by
  have hfirst : ¬ r.hasInput = true := mt (hasInput_iff h).mp hnew
  refine ⟨⟨optionsOf parts, parts.map Part.place, some (.input path)⟩, ?_, ?_⟩
  · rw [Reading.addInput, if_neg hfirst, h]
    rfl
  · simp only [Holds, settle, setInput, if_neg hpath, optionsOf_concat, List.map_append]
    rfl

/-- A path for the script that is the first one is set. -/
theorem setScript_new {options : Options} {settled : List Place} (hnew : .script ∉ settled)
    {path : String} (hpath : path ≠ "") :
    orStop (setScript ⟨options, settled, none⟩ (some path))
      = .ok ⟨{ options with script := some (some path) }, settled ++ [.script], none⟩ := by
  have hsome : ¬ some path = some "" := mt Option.some.inj hpath
  simp only [setScript, if_neg hnew, if_neg hsome]
  rfl

/-- One part behind the others. -/
def addPart (r : Reading) : Part → Except Stop Reading
  | .input path => r.addInput path
  | .script path true => r.addScript path
  | .script path false => r.awaitScript (some path)
  | .verbose _ => r.addFlag .verbose

/-- The words of a part are read together. -/
theorem add_words (r : Reading) {part : Part} (hproper : part.Proper) (more : List String) :
    r.add (part.words ++ more) = r.addPart part >>= fun s => s.add more := by
  rcases part with path | ⟨path, _ | _⟩ | _ | _
  · show r.add (path :: more) = _
    rw [add.eq_def]
    dsimp only
    rw [form_of_bare hproper.2]
    rfl
  · have hbare : Bare path := hproper.2.resolve_left Bool.false_ne_true
    have hvalue : isValue path = true := decide_eq_true (form_of_bare hbare)
    show r.add ("--cypher" :: path :: more) = _
    rw [add.eq_def]
    dsimp only
    rw [form_name, if_pos hvalue]
    rfl
  · show r.add (("--cypher=" ++ path) :: more) = _
    rw [add.eq_def]
    dsimp only
    rw [form_attached]
    rfl
  · have hform : form "-v" = .letters ['v'] := by rfl
    show r.add ("-v" :: more) = _
    rw [add.eq_def]
    dsimp only
    rw [hform]
    show (r.addFlag .verbose >>= fun s => .ok s) >>= _ = r.addFlag .verbose >>= _
    cases r.addFlag .verbose <;> rfl
  · have hform : form "--verbose" = .named "verbose" none := by rfl
    show r.add ("--verbose" :: more) = _
    rw [add.eq_def]
    dsimp only
    rw [hform]
    rfl

/-- One part behind others that fill other places is added to what a reading holds. -/
theorem Holds.addPart (h : r.Holds parts) {part : Part} (hproper : part.Proper)
    (hnew : part.place ∉ parts.map Part.place) :
    ∃ s : Reading, r.addPart part = .ok s ∧ s.Holds (parts ++ [part]) := by
  rcases part with path | ⟨path, _ | _⟩ | named
  · exact h.addInput hnew hproper.1
  · refine ⟨⟨optionsOf parts, parts.map Part.place, some (.script (some path))⟩, ?_, ?_⟩
    · rw [Reading.addPart, awaitScript, h]
      rfl
    · rw [Holds, optionsOf_concat, List.map_append]
      exact setScript_new hnew hproper.1
  · refine ⟨⟨{ optionsOf parts with script := some (some path) },
      parts.map Part.place ++ [.script], none⟩, ?_, ?_⟩
    · rw [Reading.addPart, addScript, h]
      exact setScript_new hnew hproper.1
    · rw [Holds, optionsOf_concat, List.map_append]
      rfl
  · refine ⟨⟨{ optionsOf parts with verbose := true },
      parts.map Part.place ++ [.verbose], none⟩, ?_, ?_⟩
    · rw [Reading.addPart, addFlag, h]
      exact if_neg hnew
    · rw [Holds, optionsOf_concat, List.map_append]
      rfl

/-- All parts are read, whatever comes behind them. -/
theorem add_parts (h : r.Holds parts) {rest : List Part} (hproper : ∀ part ∈ rest, part.Proper)
    (hplaces : ((parts ++ rest).map Part.place).Nodup) (more : List String) :
    ∃ s : Reading, r.add (rest.flatMap Part.words ++ more) = s.add more
      ∧ s.Holds (parts ++ rest) := by
  -- each part is read behind those before it, so these are generalised with the reading
  induction rest generalizing r parts with
  | nil => exact ⟨r, rfl, by rwa [List.append_nil]⟩
  | cons part rest ih =>
    have hsplit : parts ++ part :: rest = (parts ++ [part]) ++ rest := by simp
    have hnew : part.place ∉ parts.map Part.place := by
      intro hold
      rw [List.map_append] at hplaces
      exact (List.disjoint_of_nodup_append hplaces) hold (by simp)
    have hpart : part.Proper := hproper part (by simp)
    obtain ⟨s, hs, hholds⟩ := h.addPart hpart hnew
    obtain ⟨s', hs', hholds'⟩ := ih hholds (fun other hother => hproper other (by simp [hother]))
      (by rwa [← hsplit])
    refine ⟨s', ?_, by rwa [hsplit]⟩
    rw [List.flatMap_cons, List.append_assoc, add_words r hpart, hs, ← hs']
    rfl

end Reading

/-! ### The options of parts -/

section

variable {parts : List Part}

/-- What is left to read behind parts decides on their options. -/
theorem parse_behind (hproper : ∀ part ∈ parts, part.Proper)
    (hplaces : (parts.map Part.place).Nodup) (more : List String) :
    ∃ r : Reading, r.Holds parts ∧ Options.parse (parts.flatMap Part.words ++ more)
      = (do
        let s ← r.add more
        return (← Reading.orStop s.settle).options) := by
  obtain ⟨r, hr, hholds⟩ := Reading.add_parts Reading.holds_start hproper hplaces more
  refine ⟨r, hholds, ?_⟩
  rw [Options.parse, hr]

/-- Parts give their options. -/
theorem parse_parts (hproper : ∀ part ∈ parts, part.Proper)
    (hplaces : (parts.map Part.place).Nodup) :
    Options.parse (parts.flatMap Part.words) = .ok (optionsOf parts) := by
  obtain ⟨r, hholds, hparse⟩ := parse_behind hproper hplaces []
  rw [List.append_nil] at hparse
  rw [hparse, Reading.add]
  show (Reading.orStop r.settle >>= _) = _
  rw [hholds]
  rfl

/-- Behind the separator any path can be the input. -/
theorem parse_parts_separated (hproper : ∀ part ∈ parts, part.Proper)
    (hplaces : (parts.map Part.place).Nodup) (hnew : .input ∉ parts.map Part.place) {path : String}
    (hpath : path ≠ "") :
    Options.parse (parts.flatMap Part.words ++ ["--", path])
      = .ok { optionsOf parts with input := some path } := by
  obtain ⟨r, hholds, hparse⟩ := parse_behind hproper hplaces ["--", path]
  obtain ⟨s, hs, hsHolds⟩ := hholds.addInput hnew hpath
  have hform : form "--" = .separator := by rfl
  rw [hparse, Reading.add.eq_def]
  dsimp only
  rw [hform]
  show ((r.addInput path >>= _) >>= _) = _
  rw [hs]
  show (Reading.orStop s.settle >>= _) = _
  rw [hsHolds, optionsOf_concat]
  rfl

/-- The script can be asked for last without a path. -/
theorem parse_parts_awaiting (hproper : ∀ part ∈ parts, part.Proper)
    (hplaces : (parts.map Part.place).Nodup) (hnew : .script ∉ parts.map Part.place) :
    Options.parse (parts.flatMap Part.words ++ ["--cypher"])
      = .ok { optionsOf parts with script := some none } := by
  obtain ⟨r, hholds, hparse⟩ := parse_behind hproper hplaces ["--cypher"]
  have hwaits : r.awaitScript none
      = .ok ⟨optionsOf parts, parts.map Part.place, some (.script none)⟩ := by
    rw [Reading.awaitScript, hholds]
    rfl
  rw [hparse, Reading.add.eq_def]
  dsimp only
  rw [form_name]
  show (r.awaitScript none >>= _) = _
  rw [hwaits]
  show (Reading.orStop (Reading.setScript _ none) >>= _) = _
  rw [Reading.setScript, if_neg hnew]
  rfl

end

/-- A path for the input and one for the script, in either order and with or without a wish for more
events before, between or behind them, are read as what they are. -/
theorem parse_arranged {p v : String} (hp : p ≠ "") (hv : v ≠ "") (hpBare : Bare p)
    (hvBare : Bare v) {parts : List Part} {attached : Bool}
    (hparts : parts.Perm [.input p, .script v attached]) {front back : List (List String)}
    (hsplit : parts.map Part.words = front ++ back) (flag : Option Bool) :
    Options.parse
        (front.flatten ++ (flag.map Part.verbose).toList.flatMap Part.words ++ back.flatten)
      = .ok ⟨some p, some (some v), flag.isSome⟩ := by
  obtain ⟨frontParts, backParts, rfl, rfl, rfl⟩ := List.map_eq_append_iff.mp hsplit
  generalize hflag : (flag.map Part.verbose).toList = flagParts
  have hwords : (frontParts.map Part.words).flatten ++ flagParts.flatMap Part.words
      ++ (backParts.map Part.words).flatten
      = (frontParts ++ flagParts ++ backParts).flatMap Part.words := by
    rw [List.flatMap_append, List.flatMap_append, List.flatMap_def, List.flatMap_def,
      List.flatMap_def]
  -- the wish for more events may as well come last
  have hperm : (frontParts ++ flagParts ++ backParts).Perm
      ([.input p, .script v attached] ++ flagParts) := by
    rw [List.append_assoc]
    refine (List.perm_append_comm.append_left frontParts).trans ?_
    rw [← List.append_assoc]
    exact hparts.append_right flagParts
  have hplaces : ((frontParts ++ flagParts ++ backParts).map Part.place).Nodup := by
    rw [(hperm.map Part.place).nodup_iff, ← hflag]
    cases flag <;> simp
  have hproper : ∀ part ∈ frontParts ++ flagParts ++ backParts, part.Proper := by
    intro part hpart
    rw [hperm.mem_iff, ← hflag] at hpart
    cases part with
    | input path =>
      obtain rfl : path = p := by simpa using hpart
      exact ⟨hp, hpBare⟩
    | script path own =>
      obtain ⟨rfl, -⟩ : path = v ∧ own = attached := by simpa using hpart
      exact ⟨hv, .inr hvBare⟩
    | verbose named => trivial
  rw [hwords, parse_parts hproper hplaces, optionsOf_perm hperm hplaces, ← hflag]
  cases flag <;> rfl

/-! ### Outcomes -/

/-- One path is loaded, and the script is exported to another: a run is a view of just these. -/
def Exports (arguments : List String) (input path : String) : Prop :=
  ∀ (directives : Option String) (before : FileTree), ∃ transcript errors after,
    (run arguments directives : StateM FileTree Reply) before
      = (⟨if transcript.failure.isSome then 1 else 0, transcript.printed, errors⟩, after)
    ∧ Viewed before input (some path) transcript after

/-- Arguments with the same exit code, output and files. -/
def SameOutcome (arguments others : List String) : Prop :=
  ∀ (directives otherDirectives : Option String) (before : FileTree),
    ∃ code output errors otherErrors after,
      (run arguments directives : StateM FileTree Reply) before = (⟨code, output, errors⟩, after)
      ∧ (run others otherDirectives : StateM FileTree Reply) before
        = (⟨code, output, otherErrors⟩, after)

section

variable {arguments others : List String} {options otherOptions : Options} {input : String}

theorem exports_of_parse (h : Options.parse arguments = .ok options)
    (hinput : options.input = some input) {path : String}
    (hscript : options.script.join = some path) : Exports arguments input path := by
  intro directives before
  refine ⟨_, _, _, run_view h hinput directives before, ?_⟩
  rw [hscript]
  exact viewed_view before input (some path)

theorem sameOutcome_of_parse (h : Options.parse arguments = .ok options)
    (hinput : options.input = some input) (hothers : Options.parse others = .ok otherOptions)
    (hother : otherOptions.input = some input)
    (hscript : options.script.join = otherOptions.script.join) : SameOutcome arguments others := by
  intro directives otherDirectives before
  rw [run_view h hinput, run_view hothers hother, hscript]
  exact ⟨_, _, _, _, _, rfl, rfl⟩

end

/-- **Every pair of paths can be given, and all spellings agree.**  Behind the separator and the
equals sign any two paths that are not empty are loaded and exported to.  If they are taken for
nothing else, then they can be given in either order and with the second one attached or not, with a
wish for more events before, between or behind them, and the exit code, the output and the files are
the same.  A script without a path is as good as none. -/
theorem run_spellings {p v : String} (hp : p ≠ "") (hv : v ≠ "") :
    (∀ arguments ∈ [["--cypher=" ++ v, "--", p], ["--cypher=" ++ v, "-v", "--", p]],
      Exports arguments p v)
    ∧ (Bare p → Bare v →
      ∀ groups ∈ [[[p], ["--cypher", v]], [["--cypher", v], [p]], [[p], ["--cypher=" ++ v]],
        [["--cypher=" ++ v], [p]]],
      ∀ front back, groups = front ++ back → ∀ flag ∈ [[], ["-v"], ["--verbose"]],
        SameOutcome (front.flatten ++ flag ++ back.flatten) ["--cypher=" ++ v, "--", p])
    ∧ (Bare p → SameOutcome [p, "--cypher"] [p]) := by
  have hscript : Part.Proper (.script v true) := ⟨hv, .inl rfl⟩
  have hseparated : Options.parse ["--cypher=" ++ v, "--", p]
      = .ok ⟨some p, some (some v), false⟩ := by
    have hproper : ∀ part ∈ [Part.script v true], part.Proper := by simpa using hscript
    exact parse_parts_separated hproper (by simp) (by simp) hp
  have hverbose : Options.parse ["--cypher=" ++ v, "-v", "--", p]
      = .ok ⟨some p, some (some v), true⟩ := by
    have hproper : ∀ part ∈ [Part.script v true, .verbose false], part.Proper := by
      simpa [Part.Proper] using hscript
    exact parse_parts_separated hproper (by simp) (by simp) hp
  refine ⟨?_, ?_, ?_⟩
  · intro arguments harguments
    simp only [List.mem_cons, List.not_mem_nil, or_false] at harguments
    rcases harguments with rfl | rfl
    · exact exports_of_parse hseparated rfl rfl
    · exact exports_of_parse hverbose rfl rfl
  · intro hpBare hvBare groups hgroups front back hsplit flag hflag
    -- the arguments in their parts
    have hparts : ∃ parts : List Part, ∃ attached,
        parts.Perm [.input p, .script v attached] ∧ parts.map Part.words = groups := by
      simp only [List.mem_cons, List.not_mem_nil, or_false] at hgroups
      rcases hgroups with rfl | rfl | rfl | rfl
      · exact ⟨[.input p, .script v false], false, .refl _, rfl⟩
      · exact ⟨[.script v false, .input p], false, .swap .., rfl⟩
      · exact ⟨[.input p, .script v true], true, .refl _, rfl⟩
      · exact ⟨[.script v true, .input p], true, .swap .., rfl⟩
    have hflagParts : ∃ named : Option Bool,
        (named.map Part.verbose).toList.flatMap Part.words = flag := by
      simp only [List.mem_cons, List.not_mem_nil, or_false] at hflag
      rcases hflag with rfl | rfl | rfl
      · exact ⟨none, rfl⟩
      · exact ⟨some false, rfl⟩
      · exact ⟨some true, rfl⟩
    obtain ⟨parts, attached, hperm, rfl⟩ := hparts
    obtain ⟨named, rfl⟩ := hflagParts
    exact sameOutcome_of_parse (parse_arranged hp hv hpBare hvBare hperm hsplit named) rfl
      hseparated rfl rfl
  · intro hpBare
    have hproper : ∀ part ∈ [Part.input p], part.Proper := by simpa using ⟨hp, hpBare⟩
    have hparse : Options.parse [p] = .ok ⟨some p, none, false⟩ :=
      parse_parts hproper (by simp)
    have hawaiting : Options.parse [p, "--cypher"] = .ok ⟨some p, some none, false⟩ :=
      parse_parts_awaiting hproper (by simp) (by simp)
    exact sameOutcome_of_parse hawaiting rfl hparse rfl rfl

/-- Paths that look like options can be given, and a lone dash or a path with an equals sign can be
given anywhere. -/
theorem run_spellings_dashed :
    "--help" ≠ "" ∧ "-v" ≠ "" ∧ Exports ["--cypher=-v", "-v", "--", "--help"] "--help" "-v"
    ∧ "a=b" ≠ "" ∧ "-" ≠ "" ∧ Bare "a=b" ∧ Bare "-"
    ∧ SameOutcome ["a=b", "--verbose", "--cypher", "-"] ["--cypher=-", "--", "a=b"]
    ∧ SameOutcome ["a=b", "--cypher"] ["a=b"] := by
  have hhelp : "--help" ≠ "" := by decide
  have hv : "-v" ≠ "" := by decide
  have hab : "a=b" ≠ "" := by decide
  have hdash : "-" ≠ "" := by decide
  have habBare : Bare "a=b" := by decide
  have hdashBare : Bare "-" := by decide
  obtain ⟨hexports, -, -⟩ := run_spellings hhelp hv
  obtain ⟨-, hsame, hnone⟩ := run_spellings hab hdash
  exact ⟨hhelp, hv, hexports ["--cypher=-v", "-v", "--", "--help"] (by decide),
    hab, hdash, habBare, hdashBare,
    hsame habBare hdashBare [["a=b"], ["--cypher", "-"]] (by decide) [["a=b"]] [["--cypher", "-"]]
      rfl ["--verbose"] (by decide),
    hnone habBare⟩

end CallGraph.Command
