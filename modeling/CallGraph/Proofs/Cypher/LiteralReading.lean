import CallGraph.Cypher.Literal

/-!
# Reading literals back

The writer puts a backslash before every quote and backslash of a text.  The reader here knows
nothing of the writer: behind an opening quote it looks for the first quote that no backslash
precedes, and a backslash makes the character behind it an ordinary one.

* `readBody` — the characters up to the closing quote, as they are written;
* `unescape` — the text that such characters stand for;
* `readBody_escape`, `unescape_escape` — what is written is found and read back, whatever follows;
* `toList_quote` — literals as lists of characters;
* `readLiteral?` — whole literals at the front of a text;
* `quote_delimited` — a literal ends where it was ended, whatever it stands for.
-/

namespace CallGraph.Cypher

/-! ### The reader -/

/-- The characters before the closing quote, and what follows it; `none` if no quote closes. -/
def readBody : List Char → Option (List Char × List Char)
  | [] => none
  | '\'' :: rest => some ([], rest)
  | '\\' :: c :: rest => (readBody rest).map fun (body, rest) => ('\\' :: c :: body, rest)
  | ['\\'] => none
  | c :: rest => (readBody rest).map fun (body, rest) => (c :: body, rest)

/-- The text of a body: each backslash goes, and the character behind it stays. -/
def unescape : List Char → List Char
  | [] => []
  | '\\' :: c :: rest => c :: unescape rest
  | c :: rest => c :: unescape rest

/-! ### The reader undoes the writer -/

/-- The closing quote of an escaped text is the one that was put there. -/
theorem readBody_escape (text rest : List Char) :
    readBody (escape text ++ '\'' :: rest) = some (escape text, rest) := by
  induction text with
  | nil => simp [escape, readBody]
  | cons c text ih =>
    by_cases h : c = '\'' ∨ c = '\\'
    · rw [escape, if_pos h, List.cons_append, List.cons_append, readBody, ih]
      rfl
    · have hc := not_or.mp h
      rw [escape, if_neg h, List.cons_append]
      simp [readBody, hc.1, hc.2, ih]

/-- An escaped text stands for the text. -/
theorem unescape_escape (text : List Char) : unescape (escape text) = text := by
  induction text with
  | nil => rfl
  | cons c text ih =>
    by_cases h : c = '\'' ∨ c = '\\'
    · rw [escape, if_pos h, unescape, ih]
    · rw [escape, if_neg h]
      simp [unescape, (not_or.mp h).2, ih]

/-! ### Literals as characters -/

/-- A literal is the escaped text between two quotes. -/
theorem toList_quote (text : String) :
    (quote text).toList = '\'' :: (escape text.toList ++ ['\'']) := by
  simp only [quote, String.toList_append, String.toList_ofList]
  rfl

/-- Escaping adds one character for each quote and backslash. -/
theorem length_escape (text : List Char) : (escape text).length
    = text.length + text.countP fun c => c = '\'' ∨ c = '\\' := by
  induction text with
  | nil => rfl
  | cons c text ih =>
    rw [escape, List.countP_cons]
    by_cases h : c = '\'' ∨ c = '\\'
    · simp only [h, if_true, decide_true, List.length_cons, ih]
      omega
    · simp only [h, if_false, decide_false, Bool.false_eq_true, List.length_cons, ih]
      omega

/-- Only texts without quotes and backslashes are their own escaped form. -/
theorem escape_eq_self_iff (text : List Char) :
    escape text = text ↔ ∀ c ∈ text, c ≠ '\'' ∧ c ≠ '\\' := by
  constructor
  · intro h
    have hlength := length_escape text
    rw [h] at hlength
    have hcount : (text.countP fun c => c = '\'' ∨ c = '\\') = 0 := by omega
    rw [List.countP_eq_zero] at hcount
    intro c hc
    simpa using hcount c hc
  · exact escape_eq_self

/-! ### Whole literals -/

/-- Reads a literal at the front of a text: what it stands for, and what follows its last quote. -/
def readLiteral? (text : String) : Option (String × String) :=
  match text.toList with
  | '\'' :: rest =>
    (readBody rest).map fun (body, rest) => (String.ofList (unescape body), String.ofList rest)
  | _ => none

/-- A literal is read back, and nothing of what follows it is touched. -/
theorem readLiteral?_quote (text rest : String) :
    readLiteral? (quote text ++ rest) = some (text, rest) := by
  have hchars : (quote text ++ rest).toList
      = '\'' :: (escape text.toList ++ '\'' :: rest.toList) := by
    rw [String.toList_append, toList_quote, List.cons_append, List.append_assoc]
    rfl
  rw [readLiteral?, hchars]
  show (readBody (escape text.toList ++ '\'' :: rest.toList)).map _ = _
  rw [readBody_escape, Option.map_some]
  show some (String.ofList (unescape (escape text.toList)), String.ofList rest.toList) = _
  rw [unescape_escape, String.ofList_toList, String.ofList_toList]

/-- **Literals are self-delimiting.**  Whatever a literal stands for and whatever follows it, reading
finds the text and leaves just what follows.  So a text can begin with one literal only; and a text
stands in its literal as it is exactly if it has no quotes and no backslashes. -/
theorem quote_delimited :
    (∀ text rest : String, readLiteral? (quote text ++ rest) = some (text, rest))
    ∧ (∀ text other rest more : String,
        quote text ++ rest = quote other ++ more ↔ text = other ∧ rest = more)
    ∧ ∀ text : String, quote text = "'" ++ text ++ "'"
        ↔ ∀ c ∈ text.toList, c ≠ '\'' ∧ c ≠ '\\' := by
  refine ⟨readLiteral?_quote, ?_, ?_⟩
  · intro text other rest more
    constructor
    · intro h
      have hread := readLiteral?_quote text rest
      rw [h, readLiteral?_quote] at hread
      obtain ⟨rfl, rfl⟩ := Prod.mk.inj (Option.some.inj hread)
      exact ⟨rfl, rfl⟩
    · rintro ⟨rfl, rfl⟩
      rfl
  · intro text
    rw [← escape_eq_self_iff, ← String.toList_inj, toList_quote]
    simp

end CallGraph.Cypher
