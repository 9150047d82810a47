import CallGraph.Json.Sequence
import CallGraph.Proofs.Json.Numerals
import CallGraph.Proofs.Json.Spelling

/-!
# Trees and their texts

A JSON text without the blanks between its tokens is a tree.  Texts between quotes stay in a tree as
they are spelled, since a value that nobody asked for need not spell a text at all.

* `Tree` — the values;
* `IsGap`, `Sequence` — blanks, and items with commas between them;
* `Written` — the texts of a tree, with any blanks between tokens;
* `BeginsItem`, `StopsNumber` facts — where the text of a tree begins, and what ends a number in it.
-/

namespace CallGraph.Json

open Reader

/-! ### Trees -/

/-- A JSON value.  Keys and texts are the characters between their quotes. -/
inductive Tree where
  | null
  | flag (value : Bool)
  | number (numeral : Numeral)
  | text (body : List Char)
  | list (items : List Tree)
  | object (members : List (List Char × Tree))

/-! ### Texts of trees -/

/-- Blanks between tokens. -/
def IsGap (gap : List Char) : Prop := ∀ c ∈ gap, c ∈ [' ', '\n', '\t', '\r']

/-- One or more items with commas between them, and blanks around each. -/
inductive Sequence {α : Type} (R : α → List Char → Prop) : List α → List Char → Prop where
  | last {a : α} {before text behind : List Char} (hbefore : IsGap before) (ha : R a text)
    (hbehind : IsGap behind) : Sequence R [a] (before ++ (text ++ behind))
  | more {a : α} {as : List α} {before text behind rest : List Char} (hbefore : IsGap before)
    (ha : R a text) (hbehind : IsGap behind) (hrest : Sequence R as rest) :
    Sequence R (a :: as) (before ++ (text ++ (behind ++ ',' :: rest)))

mutual

/-- The texts of a tree, without blanks around them. -/
inductive Written : Tree → List Char → Prop where
  | null : Written .null ['n', 'u', 'l', 'l']
  | true : Written (.flag true) ['t', 'r', 'u', 'e']
  | false : Written (.flag false) ['f', 'a', 'l', 's', 'e']
  | number {numeral : Numeral} {text : List Char} (h : numeral.Writes text) :
    Written (.number numeral) text
  | text {body : List Char} (h : IsBody body) : Written (.text body) ('"' :: (body ++ ['"']))
  | emptyList {gap : List Char} (h : IsGap gap) : Written (.list []) ('[' :: (gap ++ [']']))
  | list {items : List Tree} {text : List Char} (h : Sequence Written items text) :
    Written (.list items) ('[' :: (text ++ [']']))
  | emptyObject {gap : List Char} (h : IsGap gap) :
    Written (.object []) ('\x7b' :: (gap ++ ['\x7d']))
  | object {members : List (List Char × Tree)} {text : List Char}
    (h : Sequence WrittenMember members text) :
    Written (.object members) ('\x7b' :: (text ++ ['\x7d']))

/-- The texts of a member: its key between quotes, a colon and its value. -/
inductive WrittenMember : List Char × Tree → List Char → Prop where
  | intro {key before behind text : List Char} {value : Tree} (hkey : IsBody key)
    (hbefore : IsGap before) (hbehind : IsGap behind) (hvalue : Written value text) :
    WrittenMember (key, value) ('"' :: (key ++ '"' :: (before ++ ':' :: (behind ++ text))))

end

/-! ### Where texts begin and end -/

theorem isBlank_of_mem {c : Char} (h : c ∈ [' ', '\n', '\t', '\r']) : isBlank c = true := by
  have hall : [' ', '\n', '\t', '\r'].all isBlank = true := rfl
  exact List.all_eq_true.mp hall c h

theorem isGap_nil : IsGap [] := by simp [IsGap]

/-- Blanks are dropped from the front of a text. -/
theorem dropWhile_gap {gap : List Char} (h : IsGap gap) (rest : List Char) :
    (gap ++ rest).dropWhile isBlank = rest.dropWhile isBlank := by
  apply List.dropWhile_append_of_pos
  intro c hc
  exact isBlank_of_mem (h c hc)

/-- An item does not begin with a blank or a character that ends a bracket. -/
def BeginsItem (text : List Char) : Prop :=
  ∃ c more, text = c :: more ∧ isBlank c = false ∧ c ≠ ']' ∧ c ≠ '\x7d'

theorem BeginsItem.append {text : List Char} (h : BeginsItem text) (rest : List Char) :
    BeginsItem (text ++ rest) := by
  obtain ⟨c, more, rfl, hc⟩ := h
  exact ⟨c, more ++ rest, rfl, hc⟩

theorem BeginsItem.dropWhile {text : List Char} (h : BeginsItem text) :
    text.dropWhile isBlank = text := by
  obtain ⟨c, more, rfl, hblank, -⟩ := h
  rw [List.dropWhile_cons_of_neg (by simp [hblank])]

/-- The first character of a tree's text. -/
theorem Written.beginsItem {tree : Tree} {text : List Char} (h : Written tree text) :
    BeginsItem text := by
  cases h with
  | null | true | false => exact ⟨_, _, rfl, by decide, by decide, by decide⟩
  | text | emptyList | list | emptyObject | object =>
    exact ⟨_, _, rfl, by decide, by decide, by decide⟩
  | number h =>
    obtain ⟨c, more, rfl, hc⟩ := h.cons
    refine ⟨c, more, rfl, ?_, ?_, ?_⟩
    · cases hblank : isBlank c with
      | false => rfl
      | true =>
        simp only [isBlank, Bool.or_eq_true, decide_eq_true_eq] at hblank
        rcases hblank with ((rfl | rfl) | rfl) | rfl <;> exact absurd hc (by decide)
    · rintro rfl
      exact absurd hc (by decide)
    · rintro rfl
      exact absurd hc (by decide)

theorem WrittenMember.beginsItem {member : List Char × Tree} {text : List Char}
    (h : WrittenMember member text) : BeginsItem text := by
  cases h with
  | intro => exact ⟨_, _, rfl, by decide, by decide, by decide⟩

theorem stopsNumber_nil : StopsNumber [] := by
  intro c hc
  cases hc

theorem stopsNumber_cons {c : Char} (hc : c ∈ [' ', '\n', '\t', '\r', ',', ']', '\x7d'])
    (rest : List Char) : StopsNumber (c :: rest) := by
  intro d hd
  obtain rfl := Option.some.inj hd
  have hall : ([' ', '\n', '\t', '\r', ',', ']', '\x7d'].all fun c =>
      c.isDigit = false ∧ c ≠ '.' ∧ c ≠ 'e' ∧ c ≠ 'E') = true := by decide
  exact of_decide_eq_true (List.all_eq_true.mp hall c hc)

/-- Blanks end a number. -/
theorem stopsNumber_gap {gap rest : List Char} (h : IsGap gap) (hrest : StopsNumber rest) :
    StopsNumber (gap ++ rest) := by
  cases gap with
  | nil => exact hrest
  | cons c gap =>
    exact stopsNumber_cons (List.mem_append_left [',', ']', '\x7d'] (h c (List.mem_cons_self ..))) _

end CallGraph.Json
