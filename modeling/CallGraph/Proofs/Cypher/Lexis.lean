import CallGraph.Proofs.Cypher.LiteralReading
import CallGraph.Text.Lines
import Mathlib.Data.List.Chain
import Mathlib.Data.List.TakeWhile

/-!
# The lexis of scripts

How the graph language cuts a text into words, literals, symbols, comments and blanks, from left to
right.  Which characters beyond ASCII are letters and digits is left open.

* `Alphabet` — the letters and digits of the language, the usual ones within ASCII;
* `Lexeme`, `Lexeme.text`, `Lexeme.Legal` — the parts of a text and what may be one;
* `nextLexeme`, `lex` — one lexeme from the front of a text, and all of them;
* `lex_sound` — what is found is legal and covers the text, so every character of the text lies in
  exactly one lexeme;
* `lex_rows` — rows of legal lexemes are found again, unless two words touch or something follows a
  comment in its row.
-/

namespace CallGraph.Cypher

/-! ### Alphabets -/

/-- The letters and digits that names are made of. -/
structure Alphabet where
  letter : Char → Bool
  digit : Char → Bool
  letter_ascii : ∀ c, c.toNat < 128 → letter c = c.isAlpha
  digit_ascii : ∀ c, c.toNat < 128 → digit c = c.isDigit

/-- The least alphabet has no letters and digits beyond ASCII. -/
instance : Inhabited Alphabet := ⟨⟨Char.isAlpha, Char.isDigit, fun _ _ => rfl, fun _ _ => rfl⟩⟩

namespace Alphabet

/-- What a name may begin with. -/
def begins (a : Alphabet) (c : Char) : Bool := a.letter c || c = '_'

/-- What may stand in a name behind its beginning. -/
def continues (a : Alphabet) (c : Char) : Bool := a.letter c || a.digit c || c = '_'

/-- A name is a letter or underscore with letters, digits and underscores behind it. -/
def IsName (a : Alphabet) : List Char → Prop
  | [] => False
  | c :: rest => a.begins c = true ∧ ∀ d ∈ rest, a.continues d = true

theorem continues_of_begins {a : Alphabet} {c : Char} (h : a.begins c = true) :
    a.continues c = true := by
  simp only [begins, continues, Bool.or_eq_true] at h ⊢
  rcases h with h | h
  · exact .inl (.inl h)
  · exact .inr h

theorem continues_ascii (a : Alphabet) {c : Char} (h : c.toNat < 128) :
    a.continues c = (c.isAlpha || c.isDigit || c = '_') := by
  rw [continues, a.letter_ascii c h, a.digit_ascii c h]

theorem begins_ascii (a : Alphabet) {c : Char} (h : c.toNat < 128) :
    a.begins c = (c.isAlpha || c = '_') := by
  rw [begins, a.letter_ascii c h]

/-- Whether a text is a name in ASCII, and so in every alphabet. -/
def isAsciiName (name : List Char) : Bool :=
  match name with
  | [] => false
  | c :: rest => c.toNat < 128 && (c.isAlpha || c = '_')
    && rest.all fun d => d.toNat < 128 && (d.isAlpha || d.isDigit || d = '_')

theorem isName_of_ascii (a : Alphabet) {name : List Char} (h : isAsciiName name = true) :
    a.IsName name := by
  cases name with
  | nil => simp [isAsciiName] at h
  | cons c rest =>
    simp only [isAsciiName, Bool.and_eq_true, decide_eq_true_eq, List.all_eq_true] at h
    constructor
    · rw [a.begins_ascii h.1.1]
      exact h.1.2
    · intro d hd
      rw [a.continues_ascii (h.2 d hd).1]
      exact (h.2 d hd).2

end Alphabet

/-! ### Lexemes -/

/-- A part of a text. -/
inductive Lexeme where
  | gap (blank : Char)
  | comment (line : List Char)
  | word (name : List Char)
  | literal (body : List Char)
  | symbol (c : Char)
  deriving DecidableEq, Repr

/-- The blanks between lexemes. -/
def gaps : List Char := [' ', '\n', '\t', '\r']

/-- The symbols of the language. -/
def symbols : List Char := ['(', ')', '\x7b', '\x7d', '[', ']', ':', ',', ';', '-', '>']

namespace Lexeme

/-- A lexeme as it is written. -/
def text : Lexeme → List Char
  | gap blank => [blank]
  | comment line => '/' :: '/' :: line
  | word name => name
  | literal body => '\'' :: (body ++ ['\''])
  | symbol c => [c]

/-- What may be a lexeme: comments stay in their line, and the quote behind a literal's body is the
first that closes it. -/
def Legal (a : Alphabet) : Lexeme → Prop
  | gap blank => blank ∈ gaps
  | comment line => '\n' ∉ line
  | word name => a.IsName name
  | literal body => ∀ rest, readBody (body ++ '\'' :: rest) = some (body, rest)
  | symbol c => c ∈ symbols

/-- Whether a lexeme counts for the grammar. -/
def significant : Lexeme → Bool
  | gap _ | comment _ => false
  | word _ | literal _ | symbol _ => true

/-- Whether one lexeme may be followed by another in a row. -/
def Apart : Lexeme → Lexeme → Prop
  | word _, word _ => False
  | comment _, _ => False
  | _, _ => True

end Lexeme

/-! ### The lexer -/

/-- The lexeme at the front of a text. -/
def nextLexeme (a : Alphabet) : List Char → Option (Lexeme × List Char)
  | [] => none
  | c :: rest =>
    if c ∈ gaps then some (.gap c, rest)
    else if c ∈ symbols then some (.symbol c, rest)
    else if c = '\'' then (readBody rest).map fun (body, rest) => (.literal body, rest)
    else if a.begins c then
      some (.word (c :: rest.takeWhile a.continues), rest.dropWhile a.continues)
    else if c = '/' ∧ rest.head? = some '/' then
      some (.comment (rest.tail.takeWhile (· ≠ '\n')), rest.tail.dropWhile (· ≠ '\n'))
    else none

/-- A body that is found stands before the quote that closes it, and would be found before any
other text as well. -/
theorem readBody_sound {text body rest : List Char} (h : readBody text = some (body, rest)) :
    text = body ++ '\'' :: rest ∧ ∀ more, readBody (body ++ '\'' :: more) = some (body, more) := by
  induction text using readBody.induct generalizing body with
  | case1 => simp [readBody] at h
  | case2 tail =>
    simp only [readBody, Option.some.injEq, Prod.mk.injEq] at h
    obtain ⟨rfl, rfl⟩ := h
    exact ⟨rfl, fun more => by simp [readBody]⟩
  | case3 c tail ih =>
    simp only [readBody, Option.map_eq_some_iff, Prod.exists, Prod.mk.injEq] at h
    obtain ⟨inner, _, hinner, rfl, rfl⟩ := h
    obtain ⟨htail, hmore⟩ := ih hinner
    exact ⟨by rw [htail]; rfl, fun more => by simp [readBody, hmore more]⟩
  | case4 => simp [readBody] at h
  | case5 c tail hquote hslash hend ih =>
    have hbackslash : c ≠ '\\' := by
      rintro rfl
      cases tail with
      | nil => exact hend rfl rfl
      | cons d tail => exact hslash d tail rfl rfl
    simp only [readBody, Option.map_eq_some_iff, Prod.exists, Prod.mk.injEq] at h
    obtain ⟨inner, _, hinner, rfl, rfl⟩ := h
    obtain ⟨htail, hmore⟩ := ih hinner
    exact ⟨by rw [htail]; rfl, fun more => by simp [readBody, hbackslash, hmore more]⟩

/-- A lexeme that is found is legal and stands at the front of the text. -/
theorem nextLexeme_sound {a : Alphabet} {text rest : List Char} {l : Lexeme}
    (h : nextLexeme a text = some (l, rest)) :
    text = l.text ++ rest ∧ l.Legal a ∧ l.text ≠ [] := by
  cases text with
  | nil => simp [nextLexeme] at h
  | cons c tail =>
    rw [nextLexeme] at h
    split at h
    · rename_i hgap
      cases h
      exact ⟨rfl, hgap, by simp [Lexeme.text]⟩
    split at h
    · rename_i hsymbol
      cases h
      exact ⟨rfl, hsymbol, by simp [Lexeme.text]⟩
    split at h
    · rename_i hquote
      obtain ⟨⟨body, after⟩, hbody, heq⟩ := Option.map_eq_some_iff.mp h
      cases heq
      obtain ⟨htail, hlegal⟩ := readBody_sound hbody
      exact ⟨by rw [htail, hquote]; simp [Lexeme.text], hlegal, by simp [Lexeme.text]⟩
    split at h
    · rename_i hbegins
      cases h
      refine ⟨?_, ⟨hbegins, ?_⟩, by simp [Lexeme.text]⟩
      · rw [Lexeme.text, List.cons_append, List.takeWhile_append_dropWhile]
      · intro d hd
        exact List.mem_takeWhile_imp hd
    split at h
    · rename_i hslashes
      cases h
      refine ⟨?_, ?_, by simp [Lexeme.text]⟩
      · rw [Lexeme.text, List.cons_append, List.cons_append, List.takeWhile_append_dropWhile,
          hslashes.1, List.cons_head?_tail hslashes.2]
      · intro hline
        simpa using List.mem_takeWhile_imp hline
    · cases h

theorem nextLexeme_length {a : Alphabet} {text rest : List Char} {l : Lexeme}
    (h : nextLexeme a text = some (l, rest)) : rest.length < text.length := by
  obtain ⟨htext, -, hne⟩ := nextLexeme_sound h
  have hpos := List.length_pos_iff.mpr hne
  rw [htext, List.length_append]
  omega

/-- All lexemes of a text; `none` if some character begins none. -/
def lex (a : Alphabet) (text : List Char) : Option (List Lexeme) :=
  if text = [] then some []
  else
    match h : nextLexeme a text with
    | none => none
    | some (l, rest) =>
      have := nextLexeme_length h
      (lex a rest).map (l :: ·)
termination_by text.length

theorem lex_nil (a : Alphabet) : lex a [] = some [] := by
  rw [lex, if_pos rfl]

/-- A text is cut into its first lexeme and those of what follows. -/
theorem lex_of_nextLexeme {a : Alphabet} {text rest : List Char} {l : Lexeme}
    (h : nextLexeme a text = some (l, rest)) : lex a text = (lex a rest).map (l :: ·) := by
  have hne : text ≠ [] := by
    rintro rfl
    simp [nextLexeme] at h
  rw [lex, if_neg hne]
  split
  · rename_i hnone
    rw [h] at hnone
    cases hnone
  · rename_i hsome
    rw [h] at hsome
    cases hsome
    rfl

/-- **Nothing is lost and nothing is read twice**: the lexemes of a text are legal and make it up
one after the other. -/
theorem lex_sound {a : Alphabet} {text : List Char} {lexemes : List Lexeme}
    (h : lex a text = some lexemes) :
    lexemes.flatMap Lexeme.text = text ∧ ∀ l ∈ lexemes, l.Legal a := by
  induction hn : text.length using Nat.strongRecOn generalizing text lexemes with
  | ind n ih =>
    cases hnext : nextLexeme a text with
    | none =>
      rw [lex] at h
      split at h
      · rename_i hnil
        cases h
        exact ⟨hnil.symm, by simp⟩
      · split at h
        · cases h
        · rename_i hsome
          rw [hnext] at hsome
          cases hsome
    | some found =>
      obtain ⟨l, rest⟩ := found
      rw [lex_of_nextLexeme hnext] at h
      obtain ⟨more, hmore, rfl⟩ := Option.map_eq_some_iff.mp h
      have hlt := nextLexeme_length hnext
      obtain ⟨htext, hlegal, -⟩ := nextLexeme_sound hnext
      obtain ⟨hrest, hall⟩ := ih rest.length (by omega) hmore rfl
      constructor
      · rw [List.flatMap_cons, hrest, htext]
      · intro m hm
        rcases List.mem_cons.mp hm with rfl | hm
        · exact hlegal
        · exact hall m hm

/-! ### Written lexemes are found again -/

/-- The characters that begin lexemes other than words. -/
def marks : List Char := gaps ++ symbols ++ ['\'', '/']

/-- No name begins with a mark or goes on with one. -/
theorem not_continues_mark (a : Alphabet) {c : Char} (h : c ∈ marks) : a.continues c = false := by
  have hall : (marks.all fun c => c.toNat < 128 && !(c.isAlpha || c.isDigit || c = '_')) = true :=
    by decide
  have hc := List.all_eq_true.mp hall c h
  rw [Bool.and_eq_true, decide_eq_true_eq, Bool.not_eq_true'] at hc
  rw [a.continues_ascii hc.1, hc.2]

theorem not_begins_mark (a : Alphabet) {c : Char} (h : c ∈ marks) : a.begins c = false := by
  cases hb : a.begins c with
  | false => rfl
  | true => rw [← not_continues_mark a h, Alphabet.continues_of_begins hb]

/-- Whether the text behind a lexeme does not make it longer. -/
def Lexeme.EndsBefore (a : Alphabet) (rest : List Char) : Lexeme → Prop
  | .word _ => ∀ c ∈ rest.head?, a.continues c = false
  | .comment _ => ∀ c ∈ rest.head?, c = '\n'
  | _ => True

/-- A comment is read up to the end of its line. -/
theorem nextLexeme_comment (a : Alphabet) {line rest : List Char} (hl : '\n' ∉ line)
    (hrest : ∀ c ∈ rest.head?, c = '\n') :
    nextLexeme a ((Lexeme.comment line).text ++ rest) = some (.comment line, rest) := by
  have hline : ∀ c ∈ line, decide (c ≠ '\n') = true := by
    intro c hc
    simp only [decide_eq_true_eq]
    rintro rfl
    exact hl hc
  have hend : ∀ c ∈ rest.head?, decide (c ≠ '\n') = false := by
    intro c hc
    rw [hrest c hc]
    rfl
  obtain ⟨htake, hdrop⟩ := Text.span_exact hline hend
  have hslash : '/' ∉ gaps ∧ '/' ∉ symbols := by decide
  have hbegins : ¬ a.begins '/' = true := by
    rw [not_begins_mark a (by decide)]
    decide
  rw [Lexeme.text, List.cons_append, List.cons_append, nextLexeme, if_neg hslash.1,
    if_neg hslash.2, if_neg (by decide), if_neg hbegins, if_pos ⟨rfl, rfl⟩, List.tail_cons,
    htake, hdrop]

/-- A name is read up to a character that does not continue it. -/
theorem nextLexeme_word {a : Alphabet} {name rest : List Char} (hl : a.IsName name)
    (hrest : ∀ c ∈ rest.head?, a.continues c = false) :
    nextLexeme a ((Lexeme.word name).text ++ rest) = some (.word name, rest) := by
  cases name with
  | nil => exact hl.elim
  | cons c name =>
    obtain ⟨hbegins, hcontinues⟩ := hl
    have hmark : c ∉ marks := by
      intro hc
      rw [not_begins_mark a hc] at hbegins
      cases hbegins
    simp only [marks, List.mem_append, not_or] at hmark
    obtain ⟨htake, hdrop⟩ := Text.span_exact hcontinues hrest
    have hne : c ≠ '\'' := by
      rintro rfl
      exact hmark.2 (List.mem_cons_self ..)
    rw [Lexeme.text, List.cons_append, nextLexeme, if_neg hmark.1.1, if_neg hmark.1.2,
      if_neg hne, if_pos hbegins, htake, hdrop]

/-- A legal lexeme is the next one of its text, with what follows it left over. -/
theorem nextLexeme_text {a : Alphabet} {l : Lexeme} {rest : List Char} (hl : l.Legal a)
    (hrest : l.EndsBefore a rest) : nextLexeme a (l.text ++ rest) = some (l, rest) := by
  cases l with
  | gap blank =>
    have hblank : blank ∈ gaps := hl
    rw [Lexeme.text, List.singleton_append, nextLexeme, if_pos hblank]
  | symbol c =>
    have hc : c ∈ symbols := hl
    have hall : (symbols.all fun c => c ∉ gaps) = true := by decide
    have hgap : c ∉ gaps := of_decide_eq_true (List.all_eq_true.mp hall c hc)
    rw [Lexeme.text, List.singleton_append, nextLexeme, if_neg hgap, if_pos hc]
  | literal body =>
    have hquote : '\'' ∉ gaps ∧ '\'' ∉ symbols := by decide
    rw [Lexeme.text, List.cons_append, List.append_assoc, List.singleton_append, nextLexeme,
      if_neg hquote.1, if_neg hquote.2, if_pos rfl, hl rest]
    rfl
  | comment line => exact nextLexeme_comment a hl hrest
  | word name => exact nextLexeme_word hl hrest

/-- A legal lexeme that may follow a word or comment begins with a mark. -/
theorem endsBefore_of_apart {a : Alphabet} {l m : Lexeme} {rest : List Char}
    (hm : m.Legal a) (h : l.Apart m) : l.EndsBefore a (m.text ++ rest) := by
  cases l with
  | gap | literal | symbol => trivial
  | comment => exact h.elim
  | word name =>
    intro c hc
    cases m with
    | word => exact h.elim
    | gap blank =>
      cases hc
      exact not_continues_mark a (List.mem_append_left _ (List.mem_append_left _ hm))
    | symbol d =>
      cases hc
      exact not_continues_mark a (List.mem_append_left _ (List.mem_append_right _ hm))
    | literal | comment =>
      cases hc
      exact not_continues_mark a (by decide)

/-- Rows of lexemes end before a line feed, whatever they are. -/
theorem endsBefore_newline (a : Alphabet) (l : Lexeme) (rest : List Char) :
    l.EndsBefore a ('\n' :: rest) := by
  cases l with
  | gap | literal | symbol => trivial
  | comment =>
    intro c hc
    cases hc
    rfl
  | word =>
    intro c hc
    cases hc
    exact not_continues_mark a (by decide)

/-- Lexemes that may stand in a row one after the other. -/
def IsRow (a : Alphabet) (row : List Lexeme) : Prop :=
  (∀ l ∈ row, l.Legal a) ∧ row.IsChain Lexeme.Apart

/-- A row is found again, with the line feed behind it. -/
theorem lex_row {a : Alphabet} {row : List Lexeme} (h : IsRow a row) (rest : List Char) :
    lex a (row.flatMap Lexeme.text ++ '\n' :: rest)
      = (lex a rest).map fun more => row ++ .gap '\n' :: more := by
  induction row with
  | nil =>
    have hgap : Lexeme.Legal a (.gap '\n') := by
      show '\n' ∈ gaps
      decide
    have hends : (Lexeme.gap '\n').EndsBefore a rest := trivial
    exact lex_of_nextLexeme (nextLexeme_text hgap hends)
  | cons l row ih =>
    obtain ⟨hlegal, hchain⟩ := h
    obtain ⟨hl, hrow⟩ := List.forall_mem_cons.mp hlegal
    have hends : l.EndsBefore a (row.flatMap Lexeme.text ++ '\n' :: rest) := by
      cases row with
      | nil => exact endsBefore_newline a l rest
      | cons m row =>
        rw [List.flatMap_cons, List.append_assoc]
        have hapart := (List.isChain_cons_cons.mp hchain).1
        exact endsBefore_of_apart (hrow m (List.mem_cons_self ..)) hapart
    rw [List.flatMap_cons, List.append_assoc, lex_of_nextLexeme (nextLexeme_text hl hends),
      ih ⟨hrow, hchain.tail⟩, Option.map_map]
    rfl

/-- Rows are found again one after the other. -/
theorem lex_rows {a : Alphabet} {rows : List (List Lexeme)} (h : ∀ row ∈ rows, IsRow a row) :
    lex a (rows.flatMap fun row => row.flatMap Lexeme.text ++ ['\n'])
      = some (rows.flatMap fun row => row ++ [.gap '\n']) := by
  induction rows with
  | nil => exact lex_nil a
  | cons row rows ih =>
    obtain ⟨hrow, hmore⟩ := List.forall_mem_cons.mp h
    rw [List.flatMap_cons, List.append_assoc, List.singleton_append, lex_row hrow, ih hmore,
      Option.map_some, List.flatMap_cons, List.append_assoc, List.singleton_append]

end CallGraph.Cypher
