import CallGraph.Text.Lines
import Mathlib.Data.List.Flatten

/-!
# The lines of texts made of rows

A row may itself hold line feeds, so the lines of a text are not its rows.  They are the lines of
each row, one row after the other, with the empty line behind the last line feed.

* `lines` — the lines of a text;
* `toList_unlines`, `lines_unlines` — the characters and the lines of a text made of rows;
* `lines_unlines_of_not_mem` — rows without line feeds are lines;
* `lines_unlines_sublist` — with rows left out, lines are left out and nothing else happens.
-/

namespace CallGraph.Text

/-- The lines of a text, which lie between its line feeds. -/
def lines (text : String) : List (List Char) := splitAt '\n' text.toList

/-- The characters of rows are those of each row and a line feed. -/
theorem toList_unlines (rows : List String) :
    (unlines rows).toList = rows.flatMap fun row => row.toList ++ ['\n'] := by
  induction rows with
  | nil => rfl
  | cons row rows ih =>
    rw [unlines_cons, String.toList_append, String.toList_append, ih, List.flatMap_cons]
    rfl

theorem splitAt_ne_nil (separator : Char) (text : List Char) : splitAt separator text ≠ [] := by
  intro h
  have hlength := length_splitAt separator text
  rw [h] at hlength
  cases hlength

/-- A separator between two texts also lies between their pieces. -/
theorem splitAt_append (separator : Char) (text more : List Char) :
    splitAt separator (text ++ separator :: more)
      = splitAt separator text ++ splitAt separator more := by
  induction text with
  | nil => simp [splitAt]
  | cons c text ih =>
    rw [List.cons_append, splitAt, splitAt]
    by_cases h : c = separator
    · rw [if_pos h, if_pos h, ih, List.cons_append]
    · rw [if_neg h, if_neg h, ih]
      cases hs : splitAt separator text with
      | nil => exact absurd hs (splitAt_ne_nil separator text)
      | cons piece pieces => rfl

/-- The lines of rows are those of each row, and the empty one at the end. -/
theorem lines_unlines (rows : List String) :
    lines (unlines rows) = rows.flatMap lines ++ [[]] := by
  induction rows with
  | nil => rfl
  | cons row rows ih =>
    have hrow : (unlines (row :: rows)).toList = row.toList ++ '\n' :: (unlines rows).toList := by
      rw [unlines_cons, String.toList_append, String.toList_append, List.append_assoc]
      rfl
    rw [lines, hrow, splitAt_append, ← lines, ← lines, ih, List.flatMap_cons, List.append_assoc]

/-- A text without separators is one piece. -/
theorem splitAt_of_not_mem {separator : Char} {text : List Char} (h : separator ∉ text) :
    splitAt separator text = [text] := by
  induction text with
  | nil => rfl
  | cons c text ih =>
    rw [List.mem_cons, not_or] at h
    rw [splitAt, if_neg (Ne.symm h.1), ih h.2]

/-- Rows without line feeds are the lines, up to the empty one at the end. -/
theorem lines_unlines_of_not_mem {rows : List String} (h : ∀ row ∈ rows, '\n' ∉ row.toList) :
    lines (unlines rows) = rows.map String.toList ++ [[]] := by
  have hrows : rows.flatMap lines = rows.map String.toList := by
    induction rows with
    | nil => rfl
    | cons row rows ih =>
      rw [List.forall_mem_cons] at h
      rw [List.flatMap_cons, lines, splitAt_of_not_mem h.1, ih h.2, List.map_cons]
      rfl
  rw [lines_unlines, hrows]

/-- Rows that are left out take their lines with them. -/
theorem lines_unlines_sublist {rows more : List String} (h : rows.Sublist more) :
    (lines (unlines rows)).Sublist (lines (unlines more)) := by
  rw [lines_unlines, lines_unlines]
  exact (h.flatMap lines).append_right [[]]

end CallGraph.Text
