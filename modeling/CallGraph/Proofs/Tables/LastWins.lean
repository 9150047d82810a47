import CallGraph.Proofs.Tables.Lookup
import Mathlib.Data.Finset.Card

/-!
# The last record wins

What a table of records finds with an id, how many entries it has, and what becomes of both when the
records of another document are put behind the first ones.

* `Table.IsLast`, `Table.getElem?_ofRecords_iff` — the record that is found is the last with its id;
* `Table.ids`, `Table.size_ofRecords` — there are as many entries as different ids;
* `Table.getElem?_ofRecords_append`, `Table.size_ofRecords_append` — records behind other records;
* `Document.tables_last_wins` — the three tables of a document, and of two documents.
-/

namespace CallGraph

namespace Table

variable {ρ : Type} (id : ρ → String)

/-! ### What is found -/

/-- A record has an id, and none behind it has. -/
def IsLast (records : List ρ) (key : String) (record : ρ) : Prop :=
  ∃ front back, records = front ++ record :: back ∧ id record = key
    ∧ ∀ later ∈ back, id later ≠ key

/-- A lookup finds a record exactly if it is the last one with its id. -/
theorem getElem?_ofRecords_iff (records : List ρ) (key : String) (record : ρ) :
    (ofRecords id records)[key]? = some record ↔ IsLast id records key record := by
  rw [getElem?_ofRecords, List.find?_eq_some_iff_append]
  simp only [decide_eq_true_eq, Bool.not_eq_true', decide_eq_false_iff_not]
  constructor
  · rintro ⟨hid, back, front, hreverse, hback⟩
    refine ⟨front.reverse, back.reverse, ?_, hid, ?_⟩
    · rw [List.reverse_eq_iff.mp hreverse, List.reverse_append, List.reverse_cons,
        List.append_assoc, List.singleton_append]
    · intro later hlater
      exact hback later (List.mem_reverse.mp hlater)
  · rintro ⟨front, back, rfl, hid, hback⟩
    refine ⟨hid, back.reverse, front.reverse, ?_, ?_⟩
    · rw [List.reverse_append, List.reverse_cons, List.append_assoc, List.singleton_append]
    · intro later hlater
      exact hback later (List.mem_reverse.mp hlater)

/-- Something is found exactly if some record has the id. -/
theorem isSome_ofRecords_iff (records : List ρ) (key : String) :
    (ofRecords id records)[key]?.isSome ↔ ∃ record ∈ records, id record = key := by
  rw [getElem?_ofRecords, List.find?_isSome]
  simp only [List.mem_reverse, decide_eq_true_eq]

/-! ### How many entries there are -/

/-- The ids of records. -/
def ids (records : List ρ) : Finset String := (records.map id).toFinset

theorem mem_ids {records : List ρ} {key : String} :
    key ∈ ids id records ↔ ∃ record ∈ records, id record = key := by
  rw [ids, List.mem_toFinset, List.mem_map]

theorem ids_append (records more : List ρ) :
    ids id (records ++ more) = ids id records ∪ ids id more := by
  rw [ids, List.map_append, List.toFinset_append]
  rfl

/-- A table has as many entries as there are different ids. -/
theorem size_ofRecords (records : List ρ) :
    (ofRecords id records).size = (ids id records).card := by
  induction records using List.reverseRecOn with
  | nil => rfl
  | append_singleton records record ih =>
    have hids : ids id (records ++ [record]) = insert (id record) (ids id records) := by
      rw [ids_append, Finset.union_comm]
      rfl
    have hmem : id record ∈ ofRecords id records ↔ id record ∈ ids id records := by
      rw [Std.HashMap.mem_iff_isSome_getElem?, isSome_ofRecords_iff, mem_ids]
    -- an insertion makes a new entry exactly if the id was not there before
    rw [ofRecords_concat, Std.HashMap.size_insert, ih, hids]
    by_cases h : id record ∈ ids id records
    · rw [if_pos (hmem.mpr h), Finset.insert_eq_of_mem h]
    · rw [if_neg (mt hmem.mp h), Finset.card_insert_of_notMem h]

/-- There are no more different ids than records. -/
theorem card_ids_le (records : List ρ) : (ids id records).card ≤ records.length := by
  rw [← List.length_map (f := id)]
  exact List.toFinset_card_le (records.map id)

/-- There are as many different ids as records exactly if no id is there twice. -/
theorem card_ids_eq_length_iff (records : List ρ) :
    (ids id records).card = records.length ↔ (records.map id).Nodup := by
  rw [← List.length_map (f := id)]
  exact Multiset.toFinset_card_eq_card_iff_nodup (m := (records.map id : Multiset String))

/-! ### Records behind other records -/

/-- What is found is found among the later records, or else among the earlier ones. -/
theorem getElem?_ofRecords_append (records more : List ρ) (key : String) :
    (ofRecords id (records ++ more))[key]?
      = (ofRecords id more)[key]?.or (ofRecords id records)[key]? := by
  rw [getElem?_ofRecords, getElem?_ofRecords, getElem?_ofRecords, List.reverse_append,
    List.find?_append]

theorem size_ofRecords_append (records more : List ρ) :
    (ofRecords id (records ++ more)).size = (ids id records ∪ ids id more).card := by
  rw [size_ofRecords, ids_append]

/-! ### Lookups that answer for records -/

/-- A lookup finds the last record with an id if there is one, and the count is that of the
different ids. -/
structure Answers (records : List ρ) (find : String → Option ρ) (count : Nat) : Prop where
  isSome_iff (key : String) : (find key).isSome ↔ ∃ record ∈ records, id record = key
  eq_some_iff (key : String) (record : ρ) : find key = some record ↔ IsLast id records key record
  count_eq : count = (ids id records).card
  count_le : count ≤ records.length
  count_eq_length_iff : count = records.length ↔ (records.map id).Nodup

/-- A lookup finds what a later one finds, or else what an earlier one does, and the count is that
of the ids of both. -/
structure Joins (earlier later : List ρ) (find findEarlier findLater : String → Option ρ)
    (count : Nat) : Prop where
  find_eq (key : String) : find key = (findLater key).or (findEarlier key)
  count_eq : count = (ids id earlier ∪ ids id later).card

theorem answers_ofRecords (records : List ρ) :
    Answers id records (fun key => (ofRecords id records)[key]?) (ofRecords id records).size where
  isSome_iff := isSome_ofRecords_iff id records
  eq_some_iff := getElem?_ofRecords_iff id records
  count_eq := size_ofRecords id records
  count_le := by
    rw [size_ofRecords]
    exact card_ids_le id records
  count_eq_length_iff := by
    rw [size_ofRecords]
    exact card_ids_eq_length_iff id records

theorem joins_ofRecords (records more : List ρ) :
    Joins id records more (fun key => (ofRecords id (records ++ more))[key]?)
      (fun key => (ofRecords id records)[key]?) (fun key => (ofRecords id more)[key]?)
      (ofRecords id (records ++ more)).size where
  find_eq := getElem?_ofRecords_append id records more
  count_eq := size_ofRecords_append id records more

end Table

/-! ### The tables of documents -/

open Table

/-- **The last record wins, and tables compose.**  In the tables of a document a lookup finds the
last method, class or service with an id, if there is one, and each count is the number of different
ids, which is at most that of the records and reaches it where no id is there twice.  In the tables
of two documents one behind the other, a lookup finds what the later one has, or else what the
earlier one has, and each count is that of the ids of both.  Records of one sort do not matter to
lookups of another, even with the same ids. -/
theorem Document.tables_last_wins :
    (∀ d : Document,
      Answers Method.id d.methods d.tables.method? d.tables.methodCount
      ∧ Answers Class.id d.classes d.tables.class? d.tables.classCount
      ∧ Answers Service.id d.services d.tables.service? d.tables.serviceCount)
    ∧ (∀ a b : Document,
      Joins Method.id a.methods b.methods (a ++ b).tables.method? a.tables.method?
        b.tables.method? (a ++ b).tables.methodCount
      ∧ Joins Class.id a.classes b.classes (a ++ b).tables.class? a.tables.class?
        b.tables.class? (a ++ b).tables.classCount
      ∧ Joins Service.id a.services b.services (a ++ b).tables.service? a.tables.service?
        b.tables.service? (a ++ b).tables.serviceCount)
    ∧ ∀ (d : Document) (methods : List Method) (classes : List Class) (services : List Service),
      { d with classes := classes, services := services }.tables.methods = d.tables.methods
      ∧ { d with methods := methods, services := services }.tables.classes = d.tables.classes
      ∧ { d with methods := methods, classes := classes }.tables.services = d.tables.services := by
  refine ⟨?_, ?_, ?_⟩
  · intro d
    exact ⟨answers_ofRecords _ _, answers_ofRecords _ _, answers_ofRecords _ _⟩
  · intro a b
    exact ⟨joins_ofRecords _ _ _, joins_ofRecords _ _ _, joins_ofRecords _ _ _⟩
  · intro d methods classes services
    exact ⟨rfl, rfl, rfl⟩

end CallGraph
