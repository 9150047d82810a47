import CallGraph.Proofs.Text.Rows

/-!
# Numbered lines

A line is numbered if it begins with a decimal numeral, a period and a blank.  The numbered lines of
a text divide it into items, whatever else stands on its lines.

* `numbered?` — the numeral of a line and what follows it, with `numbered?_eq_some_iff`;
* `items` — each numbered line with the lines up to the next one;
* `map_items` — there is an item for each numbered line;
* `items_append`, `items_cons_append` — items of texts made of parts.
-/

namespace CallGraph.Text

/-- The numeral that a line begins with, and what follows the period and the blank behind it. -/
def numbered? (line : List Char) : Option (List Char × List Char) :=
  match line.takeWhile Char.isDigit, line.dropWhile Char.isDigit with
  | c :: digits, '.' :: ' ' :: title => some (c :: digits, title)
  | _, _ => none

/-- A numbered line, and the lines between it and the next one. -/
structure Item where
  numeral : List Char
  title : List Char
  body : List (List Char)
  deriving DecidableEq, Repr

/-- The numbered lines of a text in order, each with the lines up to the next one. -/
def items : List (List Char) → List Item
  | [] => []
  | line :: lines =>
    match numbered? line with
    | some (numeral, title) =>
      ⟨numeral, title, lines.takeWhile fun line => (numbered? line).isNone⟩ :: items lines
    | none => items lines

variable {line : List Char} {lines front : List (List Char)}

/-! ### Numbered lines -/

/-- A line can be read as a numbered one in one way only. -/
theorem numbered?_eq_some_iff {numeral title : List Char} :
    numbered? line = some (numeral, title)
      ↔ numeral ≠ [] ∧ (∀ c ∈ numeral, c.isDigit = true)
        ∧ line = numeral ++ '.' :: ' ' :: title := by
  constructor
  · intro h
    unfold numbered? at h
    split at h
    · rename_i c digits rest hdigits hrest
      obtain ⟨rfl, rfl⟩ := Prod.mk.inj (Option.some.inj h)
      refine ⟨List.cons_ne_nil c digits, ?_, ?_⟩
      · rw [← hdigits]
        exact fun c hc => List.all_eq_true.mp (List.all_takeWhile ..) c hc
      · rw [← hdigits, ← hrest, List.takeWhile_append_dropWhile]
    · cases h
  · rintro ⟨hne, hdigits, rfl⟩
    have hperiod : ∀ c ∈ ('.' :: ' ' :: title).head?, c.isDigit = false := by simp
    have hspan := span_exact hdigits hperiod
    obtain ⟨c, digits, rfl⟩ := List.exists_cons_of_ne_nil hne
    rw [numbered?, hspan.1, hspan.2]
    rfl

/-- A line that begins with something else is not numbered. -/
theorem numbered?_of_not_digit {c : Char} (h : c.isDigit = false) (rest : List Char) :
    numbered? (c :: rest) = none := by
  rw [numbered?, List.takeWhile_cons_of_neg (by simp [h])]

/-! ### Items -/

/-- There is an item for each numbered line, in order. -/
theorem map_items (lines : List (List Char)) :
    (items lines).map (fun item => (item.numeral, item.title)) = lines.filterMap numbered? := by
  induction lines with
  | nil => rfl
  | cons line lines ih =>
    rw [items]
    cases hline : numbered? line with
    | none => rw [ih, List.filterMap_cons_none hline]
    | some parts => rw [List.map_cons, ih, List.filterMap_cons_some hline]

/-- Lines that are not numbered add no items in front of others. -/
theorem items_append (hfront : ∀ line ∈ front, numbered? line = none) :
    items (front ++ lines) = items lines := by
  induction front with
  | nil => rfl
  | cons line front ih =>
    rw [List.forall_mem_cons] at hfront
    rw [List.cons_append, items, hfront.1, ih hfront.2]

/-- A numbered line is an item together with the lines behind it up to a numbered one. -/
theorem items_cons_append {numeral title : List Char} {body : List (List Char)}
    (hline : numbered? line = some (numeral, title)) (hbody : ∀ line ∈ body, numbered? line = none) :
    items (line :: (body ++ lines))
      = ⟨numeral, title, body ++ lines.takeWhile fun line => (numbered? line).isNone⟩
        :: items lines := by
  have hall : ∀ line ∈ body, (numbered? line).isNone = true := by
    intro line hmem
    rw [hbody line hmem]
    rfl
  rw [items, hline, List.takeWhile_append_of_pos hall, items_append hbody]

end CallGraph.Text
