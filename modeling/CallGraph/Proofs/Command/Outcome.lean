import CallGraph.Command.Run
import CallGraph.Proofs.Command.Options
import CallGraph.Proofs.Files.Writing

/-!
# What a run does

A run loads one file, and writes one file if it is asked to.  The ways in which viewing a document
can go are told apart once; what the command replies and which files it leaves is read off them.

* `FileTree.Loads` — the document that is loaded from a path;
* `Viewed`, `viewed_view` — the ways in which viewing a document can go;
* `GivesInput`, `GivesScript` — what arguments ask for;
* `run_files` — the files, the exit code and the output of a run.
-/

namespace CallGraph

/-! ### Loading and exporting -/

/-- One action on files behind another. -/
theorem bind_onFiles {α β : Type} (action : StateM FileTree α) (next : α → StateM FileTree β)
    (t : FileTree) : (action >>= next) t = next (action t).1 (action t).2 := rfl

theorem readText_onFiles (path : String) (t : FileTree) :
    (readText path : StateM FileTree (Except FileFault String)) t
      = ((t.read path).bind textOf, t) := by
  have hread : (FileStore.readBytes path : StateM FileTree (Except FileFault ByteArray)) t
      = (t.read path, t) := rfl
  rw [readText, bind_onFiles, hread]
  cases t.read path <;> rfl

/-- Loading reads one file and changes none. -/
theorem load_onFiles (path : String) (t : FileTree) :
    (Document.load path : StateM FileTree (Outcome Document)) t
      = (Document.ofContent path ((t.read path).bind textOf), t) := by
  rw [Document.load, bind_onFiles, readText_onFiles]
  rfl

theorem writeBytes_onFiles (path : String) (content : ByteArray) (t : FileTree) :
    (FileStore.writeBytes path content : StateM FileTree (Except FileFault Unit)) t
      = match t.write path content with
        | .error fault => (.error fault, t)
        | .ok after => (.ok (), after) := by
  have hget : (get : StateM FileTree FileTree) t = (t, t) := rfl
  show ((get : StateM FileTree FileTree) >>= _) t = _
  rw [bind_onFiles, hget]
  dsimp only
  cases t.write path content <;> rfl

/-- Exporting is one write, whose fault is the failure. -/
theorem exportTo_onFiles (d : Document) (path : String) (t : FileTree) :
    (d.exportTo path : StateM FileTree (Outcome Unit)) t
      = match t.write path (Cypher.script d).toUTF8 with
        | .error fault => (⟨.error (.unwritable path fault), []⟩, t)
        | .ok after => (⟨.ok (), [.exported path (Cypher.statementCount d)]⟩, after) := by
  rw [Document.exportTo, bind_onFiles, writeBytes_onFiles]
  cases t.write path (Cypher.script d).toUTF8 <;> rfl

/-- A document is loaded from a path. -/
def FileTree.Loads (t : FileTree) (path : String) (d : Document) : Prop :=
  ((Document.load path : StateM FileTree (Outcome Document)) t).1.result = .ok d

/-- At most one document is loaded from a path. -/
theorem FileTree.Loads.unique {t : FileTree} {path : String} {d e : Document} (h : t.Loads path d)
    (he : t.Loads path e) : d = e :=
  Except.ok.inj (h.symm.trans he)

namespace Command

/-! ### Viewing a document -/

/-- The ways in which viewing a document can go: the transcript, and the files behind it. -/
inductive Viewed (t : FileTree) (input : String) :
    Option String → Transcript → FileTree → Prop where
  | unloaded {script : Option String} {events : List Event} {failure : Failure}
    (h : ∀ d, ¬ t.Loads input d) :
    Viewed t input script ⟨loadingLine input, events, some failure⟩ t
  | shown {d : Document} {events : List Event} (h : t.Loads input d) :
    Viewed t input none ⟨loadingLine input ++ (reportBlock d).text, events, none⟩ t
  | unexported {d : Document} {path : String} {events : List Event} {failure : Failure}
    (h : t.Loads input d) (hwrite : ∀ after, t.write path (Cypher.script d).toUTF8 ≠ .ok after) :
    Viewed t input (some path) ⟨loadingLine input ++ (reportBlock d).text, events, some failure⟩ t
  | exported {d : Document} {path : String} {events : List Event} {after : FileTree}
    (h : t.Loads input d) (hwrite : t.write path (Cypher.script d).toUTF8 = .ok after) :
    Viewed t input (some path)
      ⟨loadingLine input ++ (reportBlock d).text ++ exportedLine path, events, none⟩ after

/-- Viewing a document goes in one of these ways. -/
theorem viewed_view (t : FileTree) (input : String) (script : Option String) :
    Viewed t input script ((view input script : StateM FileTree Transcript) t).1
      ((view input script : StateM FileTree Transcript) t).2 := by
  rw [view, bind_onFiles]
  have hfiles : ((Document.load input : StateM FileTree (Outcome Document)) t).2 = t := by
    rw [load_onFiles]
  rw [hfiles]
  cases hload : ((Document.load input : StateM FileTree (Outcome Document)) t).1.result with
  | error failure =>
    refine .unloaded ?_
    intro d hd
    rw [FileTree.Loads, hload] at hd
    cases hd
  | ok d =>
    cases script with
    | none => exact .shown hload
    | some path =>
      dsimp only
      rw [present]
      dsimp only
      rw [bind_onFiles, exportTo_onFiles]
      cases hwrite : t.write path (Cypher.script d).toUTF8 with
      | error fault =>
        refine .unexported hload ?_
        intro after hafter
        rw [hwrite] at hafter
        cases hafter
      | ok after => exact .exported hload hwrite

/-! ### Running the command -/

/-- The arguments are accepted, and ask for a file to be loaded. -/
def GivesInput (arguments : List String) (path : String) : Prop :=
  ∃ options, Options.parse arguments = .ok options ∧ options.input = some path

/-- The arguments are accepted, and ask for the script to be written to a file. -/
def GivesScript (arguments : List String) (path : String) : Prop :=
  path ≠ "" ∧ ∃ options, Options.parse arguments = .ok options ∧ options.script = some (some path)

/-- The path that options have for the script is the one that the arguments give. -/
theorem givesScript_iff {arguments : List String} {options : Options}
    (h : Options.parse arguments = .ok options) (path : String) :
    GivesScript arguments path ↔ options.script.join = some path := by
  constructor
  · rintro ⟨-, other, hother, hscript⟩
    obtain rfl := Except.ok.inj (h.symm.trans hother)
    rw [hscript]
    rfl
  · intro hjoin
    have hscript : options.script = some (some path) := Option.join_eq_some_iff.mp hjoin
    refine ⟨?_, options, h, hscript⟩
    rintro rfl
    exact (Options.proper_of_parse h).script hscript

/-- The ways in which a run can go: its reply, and the files behind it. -/
inductive Ran (arguments : List String) (before : FileTree) : Reply → FileTree → Prop where
  | stopped {stop : Stop} (h : Options.parse arguments = .error stop) :
    Ran arguments before stop.reply before
  | idle {options : Options} (h : Options.parse arguments = .ok options)
    (hinput : options.input = none) {output errors : String} :
    Ran arguments before ⟨1, output, errors⟩ before
  | viewed {options : Options} {input : String} {transcript : Transcript} {after : FileTree}
    (h : Options.parse arguments = .ok options) (hinput : options.input = some input)
    (hview : Viewed before input options.script.join transcript after) (errors : String) :
    Ran arguments before ⟨if transcript.failure.isSome then 1 else 0, transcript.printed, errors⟩
      after

/-- A run goes in one of these ways. -/
theorem ran_run {arguments : List String} {directives : Option String} {before after : FileTree}
    {reply : Reply}
    (h : (run arguments directives : StateM FileTree Reply) before = (reply, after)) :
    Ran arguments before reply after := by
  rw [run] at h
  cases hparse : Options.parse arguments with
  | error stop =>
    rw [hparse] at h
    obtain ⟨rfl, rfl⟩ := Prod.mk.inj h
    exact .stopped hparse
  | ok options =>
    rw [hparse] at h
    dsimp only at h
    cases hinput : options.input with
    | none =>
      rw [hinput] at h
      obtain ⟨rfl, rfl⟩ := Prod.mk.inj h
      exact .idle hparse hinput
    | some input =>
      rw [hinput] at h
      dsimp only at h
      rw [bind_onFiles] at h
      obtain ⟨rfl, rfl⟩ := Prod.mk.inj h
      exact .viewed hparse hinput (viewed_view before input options.script.join) _

/-- Options are those that the arguments give. -/
theorem givesInput_iff {arguments : List String} {options : Options}
    (h : Options.parse arguments = .ok options) (path : String) :
    GivesInput arguments path ↔ options.input = some path := by
  constructor
  · rintro ⟨other, hother, hinput⟩
    obtain rfl := Except.ok.inj (h.symm.trans hother)
    exact hinput
  · intro hinput
    exact ⟨options, h, hinput⟩

/-- Files are different behind a run only if its script was written. -/
theorem Ran.written {arguments : List String} {before after : FileTree} {reply : Reply}
    (h : Ran arguments before reply after) :
    after = before ∨ reply.code = 0 ∧ ∃ path d, GivesScript arguments path
      ∧ before.write path (Cypher.script d).toUTF8 = .ok after := by
  cases h with
  | stopped | idle => exact .inl rfl
  | @viewed options _ _ _ hparse hinput hview =>
    generalize hscript : options.script.join = script at hview
    cases hview with
    | unloaded | shown | unexported => exact .inl rfl
    | exported hload hwrite =>
      exact .inr ⟨rfl, _, _, (givesScript_iff hparse _).mpr hscript, hwrite⟩

/-- A run with a file to load is a view of it. -/
theorem Ran.view {arguments : List String} {before after : FileTree} {reply : Reply}
    (h : Ran arguments before reply after) {input : String} (hinput : GivesInput arguments input) :
    ∃ script transcript, (∀ path, GivesScript arguments path ↔ script = some path)
      ∧ Viewed before input script transcript after ∧ reply.output = transcript.printed
      ∧ (reply.code = 0 ↔ transcript.failure = none) := by
  obtain ⟨options, hparse, hoptions⟩ := hinput
  cases h with
  | stopped hstop => cases hstop.symm.trans hparse
  | idle hidle hnone =>
    obtain rfl := Except.ok.inj (hidle.symm.trans hparse)
    cases hnone.symm.trans hoptions
  | @viewed other _ transcript _ hother hsome hview errors =>
    obtain rfl := Except.ok.inj (hother.symm.trans hparse)
    obtain rfl := Option.some.inj (hsome.symm.trans hoptions)
    refine ⟨_, transcript, givesScript_iff hparse, hview, rfl, ?_⟩
    cases transcript.failure with
    | none => simp
    | some failure => simp

/-! ### Files, exit codes and output -/

section

variable {arguments : List String} {before after : FileTree} {reply : Reply}

/-- Nothing is written where there is a reason not to. -/
theorem Ran.unchanged (h : Ran arguments before reply after)
    (hnothing : reply.code ≠ 0 ∨ Options.parse arguments = .error .help
      ∨ Options.parse arguments = .error .version ∨ ∀ path, ¬ GivesScript arguments path) :
    after = before := by
  rcases h.written with hsame | ⟨hcode, path, d, hscript, -⟩
  · exact hsame
  · -- the script was written, so none of the reasons holds
    obtain ⟨-, options, hparse, -⟩ := id hscript
    rcases hnothing with hfailed | hhelp | hversion | hnone
    · exact absurd hcode hfailed
    · cases hhelp.symm.trans hparse
    · cases hversion.symm.trans hparse
    · exact absurd hscript (hnone path)

/-- The script is written where it was asked for if the run succeeds. -/
theorem Ran.exported (h : Ran arguments before reply after) {input path : String}
    (hinput : GivesInput arguments input) (hpath : GivesScript arguments path)
    (hcode : reply.code = 0) :
    ∃ d, before.Loads input d ∧ before.write path (Cypher.script d).toUTF8 = .ok after := by
  obtain ⟨script, transcript, hscript, hview, -, hzero⟩ := h.view hinput
  obtain rfl := (hscript path).mp hpath
  have hfailure := hzero.mp hcode
  cases hview with
  | unloaded | unexported => cases hfailure
  | exported hload hwrite => exact ⟨_, hload, hwrite⟩

/-- A run succeeds exactly if its file is loaded and its script is written. -/
theorem Ran.code (h : Ran arguments before reply after) {input : String}
    (hinput : GivesInput arguments input) :
    reply.code = 0 ↔ ∃ d, before.Loads input d ∧ ∀ path, GivesScript arguments path →
      ∃ written, before.write path (Cypher.script d).toUTF8 = .ok written := by
  obtain ⟨script, transcript, hscript, hview, -, hzero⟩ := h.view hinput
  rw [hzero]
  cases hview with
  | unloaded hload =>
    refine iff_of_false (by simp) ?_
    rintro ⟨d, hd, -⟩
    exact hload d hd
  | shown hload =>
    refine iff_of_true rfl ⟨_, hload, ?_⟩
    intro path hpath
    cases (hscript path).mp hpath
  | unexported hload hwrite =>
    refine iff_of_false (by simp) ?_
    rintro ⟨d, hd, hwritten⟩
    obtain rfl := hd.unique hload
    obtain ⟨written, hok⟩ := hwritten _ ((hscript _).mpr rfl)
    exact hwrite written hok
  | exported hload hwrite =>
    refine iff_of_true rfl ⟨_, hload, ?_⟩
    intro path hpath
    obtain rfl := Option.some.inj ((hscript path).mp hpath)
    exact ⟨after, hwrite⟩

/-- Where nothing is loaded, nothing but the first line is printed. -/
theorem Ran.output_of_not_loads (h : Ran arguments before reply after) {input : String}
    (hinput : GivesInput arguments input) (hload : ∀ d, ¬ before.Loads input d) :
    reply.output = loadingLine input := by
  obtain ⟨script, transcript, -, hview, houtput, -⟩ := h.view hinput
  rw [houtput]
  cases hview with
  | unloaded => rfl
  | shown hd | unexported hd | exported hd => exact absurd hd (hload _)

/-- A loaded document is reported, and its script is confirmed when it was written. -/
theorem Ran.output_of_loads (h : Ran arguments before reply after) {input : String}
    (hinput : GivesInput arguments input) {d : Document} (hload : before.Loads input d) :
    (reply.code ≠ 0 ∨ (∀ path, ¬ GivesScript arguments path) →
      reply.output = loadingLine input ++ (reportBlock d).text)
    ∧ ∀ path, GivesScript arguments path → reply.code = 0 →
      reply.output = loadingLine input ++ (reportBlock d).text ++ exportedLine path := by
  obtain ⟨script, transcript, hscript, hview, houtput, hzero⟩ := h.view hinput
  rw [houtput]
  cases hview with
  | unloaded hnone => exact absurd hload (hnone d)
  | shown hd =>
    obtain rfl := hd.unique hload
    refine ⟨fun _ => rfl, ?_⟩
    intro path hpath
    cases (hscript path).mp hpath
  | unexported hd =>
    obtain rfl := hd.unique hload
    refine ⟨fun _ => rfl, ?_⟩
    intro path _ hcode
    cases hzero.mp hcode
  | exported hd =>
    obtain rfl := hd.unique hload
    refine ⟨?_, ?_⟩
    · rintro (hfailed | hnone)
      · exact absurd (hzero.mpr rfl) hfailed
      · exact absurd ((hscript _).mpr rfl) (hnone _)
    · intro path hpath _
      obtain rfl := Option.some.inj ((hscript path).mp hpath)
      rfl

end

/-- **A run is all or nothing on files, and writes exactly the script.**  It leaves all files alone
if its exit code is not zero, if the arguments ask for help or the version, or if they give no path
for a script.  With an exit code of zero the file at that path holds the script of the document that
was loaded before, and no other file is different.  With a file to load, the exit code is zero
exactly if it is loaded and the script is written where one is asked for; and what is printed ends
where the run fails. -/
theorem run_files {arguments : List String} {directives : Option String} {before after : FileTree}
    {reply : Reply}
    (h : (run arguments directives : StateM FileTree Reply) before = (reply, after)) :
    (reply.code ≠ 0 ∨ Options.parse arguments = .error .help
        ∨ Options.parse arguments = .error .version ∨ (∀ path, ¬ GivesScript arguments path) →
      after = before)
    ∧ (∀ input path, GivesInput arguments input → GivesScript arguments path → reply.code = 0 →
      ∃ d, before.Loads input d ∧ after.read path = .ok (Cypher.script d).toUTF8
        ∧ (∀ location, ¬ before.Locates path location →
          after.get? location = before.get? location)
        ∧ ∀ other, (∀ location, before.Locates path location → ¬ before.Locates other location) →
          ∀ content, after.read other = .ok content ↔ before.read other = .ok content)
    ∧ ∀ input, GivesInput arguments input →
      (reply.code = 0 ↔ ∃ d, before.Loads input d ∧ ∀ path, GivesScript arguments path →
        ∃ written, before.write path (Cypher.script d).toUTF8 = .ok written)
      ∧ ((∀ d, ¬ before.Loads input d) → reply.output = "Loading: " ++ input ++ "\n")
      ∧ ∀ d, before.Loads input d →
        (reply.code ≠ 0 ∨ (∀ path, ¬ GivesScript arguments path) →
          reply.output = "Loading: " ++ input ++ "\n" ++ (Report.report d.tables true d).text)
        ∧ ∀ path, GivesScript arguments path → reply.code = 0 →
          reply.output = "Loading: " ++ input ++ "\n" ++ (Report.report d.tables true d).text
            ++ ("Neo4j Cypher script exported to: " ++ path ++ "\n") := by
  have hran := ran_run h
  refine ⟨hran.unchanged, ?_, ?_⟩
  · intro input path hinput hpath hcode
    obtain ⟨d, hload, hwrite⟩ := hran.exported hinput hpath hcode
    exact ⟨d, hload, FileTree.read_of_write hwrite,
      fun location hlocation => FileTree.get?_of_write hwrite hlocation,
      fun other hother content => FileTree.read_of_write_of_not_locates hwrite hother content⟩
  · intro input hinput
    exact ⟨hran.code hinput, hran.output_of_not_loads hinput,
      fun d hload => hran.output_of_loads hinput hload⟩

/-- One file, with a document that has nothing in it. -/
def blankFile : FileTree := ⟨[(["a"], .file "\x7b\x7d".toUTF8)]⟩

theorem blankFile_loads : blankFile.Loads "a" {} := by
  have htext : Document.parse "\x7b\x7d" = .ok {} := rfl
  rw [FileTree.Loads, load_onFiles]
  show (Document.ofContent "a" (.ok "\x7b\x7d")).result = _
  rw [Document.ofContent, htext]

/-- The file that was loaded may be the one that is written: an empty document is replaced by its
script. -/
theorem run_files_onto_input :
    GivesInput ["a", "--cypher", "a"] "a" ∧ GivesScript ["a", "--cypher", "a"] "a"
    ∧ ∃ reply after,
      (run ["a", "--cypher", "a"] none : StateM FileTree Reply) blankFile = (reply, after)
      ∧ reply.code = 0 ∧ after.read "a" = .ok (Cypher.script {}).toUTF8 := by
  have hparse : Options.parse ["a", "--cypher", "a"]
      = .ok ⟨some "a", some (some "a"), false⟩ := by rfl
  have hinput : GivesInput ["a", "--cypher", "a"] "a" := (givesInput_iff hparse "a").mpr rfl
  have hpath : GivesScript ["a", "--cypher", "a"] "a" := (givesScript_iff hparse "a").mpr rfl
  obtain ⟨-, hexport, hrun⟩ := @run_files ["a", "--cypher", "a"] none blankFile _ _ rfl
  have hcode := (hrun "a" hinput).1.mpr ⟨{}, blankFile_loads, fun path hother => by
    obtain rfl := Option.some.inj ((givesScript_iff hparse path).mp hother)
    exact ⟨_, rfl⟩⟩
  obtain ⟨d, hd, hread, -⟩ := hexport "a" "a" hinput hpath hcode
  obtain rfl := hd.unique blankFile_loads
  exact ⟨hinput, hpath, _, _, rfl, hcode, hread⟩

end Command

end CallGraph
