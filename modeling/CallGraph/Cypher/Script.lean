import CallGraph.Cypher.Statement
import CallGraph.Text.Lines

/-!
# Scripts

The whole import script of a document. Its sections are in a fixed order, so that the nodes a
relationship refers to are created before it.

* `Section`: statements under a heading.
* `sections`: the sections of a document.
* `script`: the text.
* `statementCount`: the number of statements, counted on the document.
* `length_statements`: the script has that many statements.
* `mem_statements`, `forall_mem_statements`: they are those of the records.
-/

namespace CallGraph.Cypher

/-- Statements under a heading. -/
structure Section where
  heading : String
  statements : List Statement
  deriving DecidableEq, Repr

/-- The four sections of a document. -/
def sections (d : Document) : List Section :=
  [⟨"// 1. Create service nodes", d.services.map Statement.ofService⟩,
    ⟨"// 2. Create class nodes", d.classes.map Statement.ofClass⟩,
    ⟨"// 3. Create method nodes", d.methods.map Statement.ofMethod⟩,
    ⟨"// 4. Create method call relationships", d.calls.filterMap Statement.ofCall?⟩]

/-- The statements of a document in the order of the script. -/
def statements (d : Document) : List Statement := (sections d).flatMap Section.statements

/-- A section in rows. -/
def Section.rows (s : Section) : List String := s.heading :: s.statements.flatMap Statement.rows

/-- The rows above the first section. -/
def titleRows : List String := ["// Neo4j Cypher import script", "// Generated by callscope", ""]

/-- The text of the script of a document. -/
def script (d : Document) : String :=
  Text.unlines (titleRows ++ (sections d).flatMap Section.rows)

/-- The number of statements of the script of a document. -/
def statementCount (d : Document) : Nat :=
  d.services.length + d.classes.length + d.methods.length + d.resolvedCallCount

/-- The calls with a known target are those that have a statement. -/
theorem length_filterMap_ofCall? (calls : List Call) :
    (calls.filterMap Statement.ofCall?).length
      = calls.countP fun call => call.resolvedTarget.isSome := by
  rw [List.length_filterMap_eq_countP]
  congr 1
  funext call
  simp [Statement.ofCall?]

/-- The script has as many statements as are counted. -/
theorem length_statements (d : Document) : (statements d).length = statementCount d := by
  simp only [statements, sections, List.flatMap_cons, List.flatMap_nil, List.length_append,
    List.length_map, length_filterMap_ofCall?, List.length_nil, statementCount,
    Document.resolvedCallCount]
  omega

/-- The statements of a document are those of its records. -/
theorem mem_statements {d : Document} {s : Statement} : s ∈ statements d ↔
    (∃ r ∈ d.services, .ofService r = s) ∨ (∃ r ∈ d.classes, .ofClass r = s)
      ∨ (∃ r ∈ d.methods, .ofMethod r = s) ∨ ∃ call ∈ d.calls, Statement.ofCall? call = some s := by
  simp [statements, sections]

/-- What holds of the statements of all records holds of all statements. -/
theorem forall_mem_statements {d : Document} {P : Statement → Prop} : (∀ s ∈ statements d, P s) ↔
    (∀ r ∈ d.services, P (.ofService r)) ∧ (∀ r ∈ d.classes, P (.ofClass r))
      ∧ (∀ r ∈ d.methods, P (.ofMethod r))
      ∧ ∀ call ∈ d.calls, ∀ s, Statement.ofCall? call = some s → P s := by
  constructor
  · intro h
    exact ⟨fun r hr => h _ (mem_statements.mpr (.inl ⟨r, hr, rfl⟩)),
      fun r hr => h _ (mem_statements.mpr (.inr (.inl ⟨r, hr, rfl⟩))),
      fun r hr => h _ (mem_statements.mpr (.inr (.inr (.inl ⟨r, hr, rfl⟩)))),
      fun call hcall s hs => h s (mem_statements.mpr (.inr (.inr (.inr ⟨call, hcall, hs⟩))))⟩
  · intro ⟨hservices, hclasses, hmethods, hcalls⟩ s hs
    rcases mem_statements.mp hs with ⟨r, hr, rfl⟩ | ⟨r, hr, rfl⟩ | ⟨r, hr, rfl⟩ | ⟨call, hcall, hs⟩
    · exact hservices r hr
    · exact hclasses r hr
    · exact hmethods r hr
    · exact hcalls call hcall s hs

end CallGraph.Cypher
