/-!
# Lines

Texts made of rows that each end in a line feed, and texts taken apart: at the places of a
character, or behind a run of characters.

* `unlines`: the text of rows, with `unlines_nil`, `unlines_cons` and `unlines_append`.
* `splitAt`: the pieces of a text between the places of a character, one more than there are places
  (`length_splitAt`).
* `span_exact`: a run is known when the character behind it is known not to belong to it.
-/

namespace CallGraph.Text

/-! ### Rows -/

/-- The text of rows that each end in a line feed. -/
def unlines (rows : List String) : String := String.join (rows.map (· ++ "\n"))

@[simp] theorem unlines_nil : unlines [] = "" := rfl

theorem unlines_cons (row : String) (rows : List String) :
    unlines (row :: rows) = row ++ "\n" ++ unlines rows := by
  simp [unlines, String.join_cons]

/-- The text of more rows is the text of the first ones and of the others behind it. -/
theorem unlines_append (rows more : List String) :
    unlines (rows ++ more) = unlines rows ++ unlines more := by
  induction rows with
  | nil => simp
  | cons row rows ih => simp only [List.cons_append, unlines_cons, ih, String.append_assoc]

/-! ### Pieces -/

/-- The pieces of a text between the places of a character. -/
def splitAt (separator : Char) : List Char → List (List Char)
  | [] => [[]]
  | c :: rest =>
    if c = separator then [] :: splitAt separator rest
    else
      match splitAt separator rest with
      | [] => [[c]]
      | piece :: pieces => (c :: piece) :: pieces

/-- There is one piece more than there are places of the character. -/
theorem length_splitAt (separator : Char) (text : List Char) :
    (splitAt separator text).length = text.count separator + 1 := by
  induction text with
  | nil => rfl
  | cons c rest ih =>
    rw [splitAt]
    by_cases h : c = separator
    · simp [h, ih]
    · rw [if_neg h, List.count_cons_of_ne h]
      cases hs : splitAt separator rest with
      | nil => simp [hs] at ih
      | cons piece pieces => simpa [hs] using ih

/-! ### Runs -/

/-- A run of characters with a property ends where one without it, or nothing, follows. -/
theorem span_exact {p : Char → Bool} {body rest : List Char} (hbody : ∀ c ∈ body, p c = true)
    (hrest : ∀ c ∈ rest.head?, p c = false) :
    (body ++ rest).takeWhile p = body ∧ (body ++ rest).dropWhile p = rest := by
  rw [List.takeWhile_append_of_pos hbody, List.dropWhile_append_of_pos hbody]
  cases rest with
  | nil => simp
  | cons c rest => simp [hrest c rfl]

end CallGraph.Text
