import CallGraph.Text.Bytes

/-!
# Literals of the graph language

Texts between single quotes, and the names of node variables.

* `escape`: the characters of a text inside the quotes.
* `quote`: the literal of a text.
* `shortId`: the leading characters of an id, cut at a byte that never lies inside a character
  (`cutId?_eq`).
-/

namespace CallGraph.Cypher

/-! ### Texts between quotes -/

/-- Single quotes and backslashes stand behind a backslash. -/
def escape : List Char → List Char
  | [] => []
  | c :: rest => if c = '\'' ∨ c = '\\' then '\\' :: c :: escape rest else c :: escape rest

/-- The literal of a text. -/
def quote (text : String) : String := "'" ++ String.ofList (escape text.toList) ++ "'"

/-- Texts without quotes and backslashes stand in their literals as they are. -/
theorem escape_eq_self {text : List Char} (h : ∀ c ∈ text, c ≠ '\'' ∧ c ≠ '\\') :
    escape text = text := by
  induction text with
  | nil => rfl
  | cons c rest ih =>
    have hc := h c (List.mem_cons_self ..)
    rw [escape, if_neg (by simp [hc.1, hc.2]), ih fun d hd => h d (List.mem_cons_of_mem _ hd)]

/-! ### Names of node variables -/

/-- The number of characters of an id that name a node variable. -/
def shortLength : Nat := 8

/-- The byte at which an id is cut, if it has more than the leading characters. -/
def shortEnd? (id : String) : Option Nat := Text.charIndex? 0 shortLength id.toList

/-- An id cut at that byte, which fails if the byte lies inside a character. -/
def cutId? (id : String) : Option String :=
  match shortEnd? id with
  | some stop => Text.upTo? id ⟨stop⟩
  | none => some id

/-- An id is the characters before the cut and those behind it. -/
theorem take_append_drop_id (id : String) : String.ofList (id.toList.take shortLength)
    ++ String.ofList (id.toList.drop shortLength) = id := by
  rw [← String.ofList_append, List.take_append_drop, String.ofList_toList]

theorem exists_drop_eq_cons {id : String} (h : shortLength < id.toList.length) :
    ∃ c rest, id.toList.drop shortLength = c :: rest :=
  List.exists_cons_of_length_pos (by rw [List.length_drop]; omega)

/-- The cut lies behind the bytes of the leading characters. -/
theorem shortEnd?_eq (id : String) : shortEnd? id = if shortLength < id.toList.length
    then some (String.ofList (id.toList.take shortLength)).utf8ByteSize else none := by
  by_cases h : shortLength < id.toList.length
  · obtain ⟨c, rest, hdrop⟩ := exists_drop_eq_cons h
    have hlength : (id.toList.take shortLength).length = shortLength :=
      List.length_take_of_le (Nat.le_of_lt h)
    have hindex := Text.charIndex?_append 0 (id.toList.take shortLength) c rest
    rw [hlength, ← hdrop, List.take_append_drop, Nat.zero_add] at hindex
    rw [if_pos h, shortEnd?, hindex]
  · rw [if_neg h]
    exact Text.charIndex?_eq_none 0 (Nat.le_of_not_lt h)

/-- Cutting an id never fails and leaves the leading characters. -/
theorem cutId?_eq (id : String) : cutId? id = some (String.ofList (id.toList.take shortLength)) := by
  rw [cutId?, shortEnd?_eq]
  by_cases h : shortLength < id.toList.length
  · rw [if_pos h]
    exact Text.upTo?_eq_some_iff.mpr ⟨_, (take_append_drop_id id).symm, rfl⟩
  · rw [if_neg h, List.take_of_length_le (Nat.le_of_not_lt h), String.ofList_toList]

/-- The leading characters of an id. -/
def shortId (id : String) : String := (cutId? id).get (by rw [cutId?_eq]; rfl)

theorem toList_shortId (id : String) : (shortId id).toList = id.toList.take shortLength := by
  simp only [shortId, cutId?_eq, Option.get_some, String.toList_ofList]

end CallGraph.Cypher
