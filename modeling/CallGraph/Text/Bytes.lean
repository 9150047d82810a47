/-!
# Bytes

Texts measured and divided by the bytes that their characters take.

* `byteCount`: the number of bytes of a text (`byteCount_eq`).
* `takeBytes`, `dropBytes`: a text divided behind a number of bytes, or behind the character they
  end in.
* `charIndex?`: the byte at which a character begins (`charIndex?_append`, `charIndex?_eq_none`).
* `upTo?`: a text up to a byte that does not lie inside a character (`upTo?_eq_some_iff`).
-/

namespace CallGraph.Text

/-- The number of bytes a text takes. -/
def byteCount (text : List Char) : Nat :=
  text.foldl (fun count c => count + c.utf8Size) 0

/-- A text takes the bytes of its characters. -/
theorem byteCount_eq (text : List Char) :
    byteCount text = (String.ofList text).utf8ByteSize := by
  have hfold (start : Nat) : text.foldl (fun count c => count + c.utf8Size) start
      = start + (String.ofList text).utf8ByteSize := by
    induction text generalizing start with
    | nil => simp
    | cons c text ih =>
      rw [List.foldl_cons, ih, String.ofList_cons, String.utf8ByteSize_append,
        String.utf8ByteSize_singleton, Nat.add_assoc]
  rw [byteCount, hfold, Nat.zero_add]

/-- The characters that begin within a number of bytes. -/
def takeBytes : Nat → List Char → List Char
  | 0, _ | _, [] => []
  | n, c :: rest => c :: takeBytes (n - c.utf8Size) rest

/-- The characters that begin behind a number of bytes. -/
def dropBytes : Nat → List Char → List Char
  | 0, text => text
  | _, [] => []
  | n, c :: rest => dropBytes (n - c.utf8Size) rest

/-! ### Characters by their bytes -/

/-- The byte at which the character behind a number of others begins, if there is one and the text
begins at the byte `start`. -/
def charIndex? (start : Nat) : Nat → List Char → Option Nat
  | _, [] => none
  | 0, _ :: _ => some start
  | n + 1, c :: rest => charIndex? (start + c.utf8Size) n rest

/-- The text up to a byte; there is none if the byte lies inside a character or behind the text. -/
def upTo? (text : String) (stop : String.Pos.Raw) : Option String :=
  if h : stop.IsValid text then
    some (.ofByteArray (text.toByteArray.extract 0 stop.byteIdx) h.isValidUTF8_extract_zero)
  else none

/-- A character begins behind all bytes of those before it. -/
theorem charIndex?_append (start : Nat) (front : List Char) (c : Char) (rest : List Char) :
    charIndex? start front.length (front ++ c :: rest)
      = some (start + (String.ofList front).utf8ByteSize) := by
  induction front generalizing start with
  | nil => simp [charIndex?]
  | cons d front ih =>
    have hsize : (String.ofList (d :: front)).utf8ByteSize
        = d.utf8Size + (String.ofList front).utf8ByteSize := by
      rw [String.ofList_cons, String.utf8ByteSize_append, String.utf8ByteSize_singleton]
    rw [List.length_cons, List.cons_append, charIndex?, ih, hsize, Nat.add_assoc]

/-- No character begins behind all the characters of a text. -/
theorem charIndex?_eq_none {n : Nat} {text : List Char} (start : Nat) (h : text.length ≤ n) :
    charIndex? start n text = none := by
  induction text generalizing start n with
  | nil => cases n <;> rfl
  | cons c text ih =>
    cases n with
    | zero => cases h
    | succ n => exact ih _ (Nat.le_of_succ_le_succ h)

/-- A text is known up to the bytes where it can be divided, and nowhere else. -/
theorem upTo?_eq_some_iff {text front : String} {stop : String.Pos.Raw} :
    upTo? text stop = some front ↔ ∃ rest, text = front ++ rest ∧ stop = front.rawEndPos := by
  have hextract (first second : String) : (first ++ second).toByteArray.extract 0
      first.rawEndPos.byteIdx = first.toByteArray := by
    rw [String.toByteArray_append]
    exact ByteArray.extract_append_eq_left rfl
  constructor
  · intro h
    unfold upTo? at h
    split at h
    · rename_i hvalid
      obtain ⟨first, second, rfl, rfl⟩ := String.Pos.Raw.isValid_iff_exists_append.mp hvalid
      have hfront : first = front := by
        rw [← String.toByteArray_inj, ← hextract first second, ← Option.some.inj h]
      exact ⟨second, hfront ▸ ⟨rfl, rfl⟩⟩
    · cases h
  · rintro ⟨rest, rfl, rfl⟩
    have hvalid : front.rawEndPos.IsValid (front ++ rest) :=
      String.Pos.Raw.isValid_iff_exists_append.mpr ⟨front, rest, rfl, rfl⟩
    rw [upTo?, dif_pos hvalid, Option.some.injEq, ← String.toByteArray_inj]
    exact hextract front rest

end CallGraph.Text
