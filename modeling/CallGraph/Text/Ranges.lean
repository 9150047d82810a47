/-!
# Ranges

Sets of characters as tables of ranges of their numbers.

* `Ranges`: the tables.
* `Ranges.isAscending`: whether the ranges of a table are in order and apart.
* `Ranges.search`: a search that halves what is left of a table.
* `Ranges.holds`: whether a character is in a table.
* `Ranges.holds_iff`: a table in order holds the characters that its ranges have.
-/

namespace CallGraph.Text

/-- Ranges of numbers with their first and last members. -/
abbrev Ranges : Type := Array (Nat × Nat)

namespace Ranges

/-! ### Tables in order -/

/-- Whether ranges that begin at a number or later are in order and apart. -/
def isAscendingFrom : (low : Nat) → List (Nat × Nat) → Bool
  | _, [] => true
  | low, (first, last) :: rest =>
    low ≤ first && first ≤ last && isAscendingFrom (last + 1) rest

/-- Whether the ranges of a table are in order and apart. -/
def isAscending (table : Ranges) : Bool := isAscendingFrom 0 table.toList

theorem le_of_isAscendingFrom {low : Nat} {ranges : List (Nat × Nat)}
    (h : isAscendingFrom low ranges = true) :
    ∀ range ∈ ranges, low ≤ range.1 ∧ range.1 ≤ range.2 := by
  induction ranges generalizing low with
  | nil => simp
  | cons range rest ih =>
    simp only [isAscendingFrom, Bool.and_eq_true, decide_eq_true_eq] at h
    intro other hmem
    rcases List.mem_cons.mp hmem with rfl | hmem
    · exact h.1
    · have := ih h.2 other hmem
      omega

/-- Each of them ends before every later one begins. -/
theorem pairwise_of_isAscendingFrom {low : Nat} {ranges : List (Nat × Nat)}
    (h : isAscendingFrom low ranges = true) : ranges.Pairwise fun a b => a.2 < b.1 := by
  induction ranges generalizing low with
  | nil => exact .nil
  | cons range rest ih =>
    simp only [isAscendingFrom, Bool.and_eq_true] at h
    refine .cons (fun other hmem => ?_) (ih h.2)
    have := le_of_isAscendingFrom h.2 other hmem
    omega

/-! ### The search -/

/-- Whether a number is in one of the ranges from one place of the table up to another. The fuel is
enough when there is as much of it as there are places. -/
def search (table : Ranges) (n : Nat) : (fuel low high : Nat) → Bool
  | 0, _, _ => false
  | fuel + 1, low, high =>
    let middle := (low + high) / 2
    match table[middle]? with
    | none => false
    | some (first, last) =>
      if high ≤ low then false
      else if n < first then search table n fuel low middle
      else if last < n then search table n fuel (middle + 1) high
      else true

/-- Whether a character is in a table. -/
def holds (table : Ranges) (c : Char) : Bool := table.search c.toNat table.size 0 table.size

/-- What a search finds is in a range. -/
theorem exists_of_search {table : Ranges} {n fuel low high : Nat}
    (h : table.search n fuel low high = true) :
    ∃ range ∈ table, range.1 ≤ n ∧ n ≤ range.2 := by
  induction fuel generalizing low high with
  | zero => simp [search] at h
  | succ fuel ih =>
    simp only [search] at h
    split at h
    · simp at h
    · rename_i first last hrange
      split at h
      · simp at h
      · split at h
        · exact ih h
        · split at h
          · exact ih h
          · exact ⟨(first, last), Array.mem_of_getElem? hrange, by omega, by omega⟩

/-- A search in a table in order finds what is in one of the ranges it may look at. -/
theorem search_of_range {table : Ranges} (h : table.isAscending = true)
    {n i fuel low high : Nat} (hi : i < table.size) (hlow : low ≤ i) (hhigh : i < high)
    (hsize : high ≤ table.size) (hfuel : high - low ≤ fuel)
    (hrange : table[i].1 ≤ n ∧ n ≤ table[i].2) : table.search n fuel low high = true := by
  have apart := List.pairwise_iff_getElem.mp (pairwise_of_isAscendingFrom h)
  simp only [Array.length_toList, Array.getElem_toList] at apart
  induction fuel generalizing low high with
  | zero => omega
  | succ fuel ih =>
    have hmiddle : (low + high) / 2 < table.size := by omega
    have hfilled := (le_of_isAscendingFrom h _ (Array.getElem_mem_toList hmiddle)).2
    simp only [search, Array.getElem?_eq_getElem hmiddle]
    rw [if_neg (by omega)]
    rcases Nat.lt_trichotomy i ((low + high) / 2) with hlt | rfl | hgt
    · have := apart i _ hi hmiddle hlt
      rw [if_pos (by omega)]
      exact ih hlow hlt (by omega) (by omega)
    · rw [if_neg (by omega), if_neg (by omega)]
    · have := apart _ i hmiddle hi hgt
      rw [if_neg (by omega), if_pos (by omega)]
      exact ih hgt hhigh hsize (by omega)

/-- A table in order holds the characters that its ranges have. -/
theorem holds_iff {table : Ranges} (h : table.isAscending = true) (c : Char) :
    table.holds c = true ↔ ∃ range ∈ table, range.1 ≤ c.toNat ∧ c.toNat ≤ range.2 := by
  refine ⟨exists_of_search, fun ⟨range, hmem, hrange⟩ => ?_⟩
  obtain ⟨i, hi, rfl⟩ := Array.mem_iff_getElem.mp hmem
  exact search_of_range h hi (Nat.zero_le i) hi (Nat.le_refl _) (Nat.sub_le ..) hrange

end Ranges

end CallGraph.Text
