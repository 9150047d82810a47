import CallGraph.Proofs.Text.Rows
import Mathlib.Algebra.GroupWithZero.Nat
import Mathlib.Data.List.Infix
import Mathlib.Data.List.TakeWhile

/-!
# Lines that begin with a word

A line begins with a word at the front of a text, or where the word stands behind a line feed.

* `linesWith` — the number of lines that begin with a word;
* `breaks` — the number of places where the word stands behind a line feed;
* `countP_splitAt` — the two are the same, up to the first line;
* `breaks_append_cons` — no such place goes across a character that is not in the word;
* `breaks_eq_zero_iff` — texts without such places.
-/

namespace CallGraph.Text

/-- The number of lines of a text that begin with a word. -/
def linesWith (word : List Char) (text : String) : Nat :=
  (lines text).countP fun line => word.isPrefixOf line

/-- The number of places in a text where a word stands behind a line feed. -/
def breaks (word : List Char) : List Char → Nat
  | [] => 0
  | c :: rest => (if c = '\n' ∧ word <+: rest then 1 else 0) + breaks word rest

variable {word text more : List Char} {c : Char}

/-! ### Words at the front -/

/-- A word does not go across a character that is not in it. -/
theorem prefix_append_cons_iff (hc : c ∉ word) :
    word <+: text ++ c :: more ↔ word <+: text := by
  constructor
  · intro h
    rcases List.prefix_or_prefix_of_prefix h (List.prefix_append text (c :: more)) with hw | ht
    · exact hw
    · obtain ⟨tail, rfl⟩ := ht
      rw [List.prefix_append_right_inj] at h
      cases tail with
      | nil => rw [List.append_nil]
      | cons d tail =>
        rw [List.cons_prefix_cons] at h
        rw [h.1] at hc
        simp at hc
  · intro h
    exact h.trans (List.prefix_append text (c :: more))

/-- The first piece of a text goes up to the first separator. -/
theorem splitAt_eq_cons (separator : Char) (text : List Char) :
    splitAt separator text = text.takeWhile (· ≠ separator) :: (splitAt separator text).tail := by
  induction text with
  | nil => rfl
  | cons c text ih =>
    rw [splitAt]
    by_cases h : c = separator
    · simp [h]
    · rw [if_neg h, ih]
      simp [h]

/-- A word without line feeds begins the first line if it begins the text. -/
theorem prefix_takeWhile_iff (hword : '\n' ∉ word) :
    word <+: text.takeWhile (· ≠ '\n') ↔ word <+: text := by
  induction word generalizing text with
  | nil => simp
  | cons d word ih =>
    rw [List.mem_cons, not_or] at hword
    cases text with
    | nil => simp
    | cons c text =>
      by_cases hc : c = '\n'
      · subst hc
        simp [List.cons_prefix_cons, Ne.symm hword.1]
      · have hmore : word <+: text.takeWhile (· ≠ '\n') ↔ word <+: text := ih hword.2
        simp only [ne_eq, decide_not] at hmore
        simp [hc, List.cons_prefix_cons, hmore]

/-! ### Words behind line feeds -/

/-- **Lines that begin with a word**: the first, if the text does, and one for each place where the
word stands behind a line feed. -/
theorem countP_splitAt (hword : '\n' ∉ word) (text : List Char) :
    (splitAt '\n' text).countP (fun line => word.isPrefixOf line)
      = (if word <+: text then 1 else 0) + breaks word text := by
  induction text with
  | nil => simp [splitAt, breaks, List.countP_cons]
  | cons c text ih =>
    rw [splitAt, breaks]
    by_cases hc : c = '\n'
    · -- the line feed ends an empty first line, which only the empty word begins
      have hempty : word <+: [] ++ '\n' :: text ↔ word <+: [] := prefix_append_cons_iff hword
      rw [List.nil_append] at hempty
      rw [if_pos hc, List.countP_cons, ih]
      simp only [hc, List.isPrefixOf_iff_prefix, hempty, true_and]
      omega
    · -- the character only makes the first line longer, so just the first line counts anew
      have hline : word <+: c :: text.takeWhile (· ≠ '\n') ↔ word <+: c :: text := by
        rw [← List.takeWhile_cons_of_pos (by simpa using hc)]
        exact prefix_takeWhile_iff hword
      have hfirst : word <+: text.takeWhile (· ≠ '\n') ↔ word <+: text :=
        prefix_takeWhile_iff hword
      have hbreak : ¬ (c = '\n' ∧ word <+: text) := fun h => hc h.1
      rw [if_neg hc, if_neg hbreak]
      rw [splitAt_eq_cons] at ih ⊢
      simp only [List.countP_cons, List.isPrefixOf_iff_prefix, hfirst, hline] at ih ⊢
      omega

/-- The lines of rows that begin with a word are those of each row. -/
theorem linesWith_unlines (hword : word ≠ []) (rows : List String) :
    linesWith word (unlines rows) = (rows.map (linesWith word)).sum := by
  have hend : List.countP (fun line => word.isPrefixOf line) [[]] = 0 := by
    simp [List.isPrefixOf_iff_prefix, hword]
  rw [linesWith, lines_unlines, List.countP_append, hend, List.countP_flatMap]
  rfl

/-- No place where a word stands behind a line feed goes across a character that is not in it. -/
theorem breaks_append_cons (hc : c ∉ word) (text more : List Char) :
    breaks word (text ++ c :: more) = breaks word text + breaks word (c :: more) := by
  induction text with
  | nil => simp [breaks]
  | cons d text ih =>
    rw [List.cons_append, breaks, ih]
    simp only [breaks, prefix_append_cons_iff hc]
    omega

/-- A text without line feeds adds none in front of another. -/
theorem breaks_append_of_not_mem (h : '\n' ∉ text) :
    breaks word (text ++ more) = breaks word more := by
  induction text with
  | nil => rfl
  | cons c text ih =>
    rw [List.mem_cons, not_or] at h
    have hc : ¬ (c = '\n' ∧ word <+: text ++ more) := fun hc => h.1 hc.1.symm
    rw [List.cons_append, breaks, if_neg hc, ih h.2, Nat.zero_add]

/-- A word stands behind a line feed in a text that has the two one behind the other. -/
theorem breaks_eq_zero_iff : breaks word text = 0 ↔ ¬ ('\n' :: word) <:+: text := by
  induction text with
  | nil => simp [breaks]
  | cons c text ih =>
    rw [breaks, List.infix_cons_iff, List.cons_prefix_cons, not_or, ← ih]
    by_cases h : c = '\n' ∧ word <+: text
    · simp [h]
    · have hflip : ¬ ('\n' = c ∧ word <+: text) := fun hc => h ⟨hc.1.symm, hc.2⟩
      simp [h, hflip]

/-- Nothing stands behind a line feed where there is none. -/
theorem breaks_eq_zero_of_not_mem (h : '\n' ∉ text) : breaks word text = 0 := by
  rw [breaks_eq_zero_iff]
  intro hstands
  exact h (hstands.subset (List.mem_cons_self ..))

end CallGraph.Text
