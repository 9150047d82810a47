import CallGraph.Tables
import Mathlib.Data.List.Induction
import Mathlib.Data.List.Nodup
import Std.Data.HashMap.Lemmas

/-!
# Lookups

A table is made by one insertion after the other, so what is found with an id is the last record
that has it.  The order of records matters only among those that share an id.

* `Table.getElem?_ofRecords` — a lookup is a search from the end of the records;
* `Table.getElem?_ofRecords_eq_some_iff` — with distinct ids it finds whatever is there;
* `Rearranged` — records in another order, with `Rearranged.perm`;
* `Rearranged.getElem?_eq` — the same ones are found.
-/

namespace CallGraph

variable {ρ : Type} (id : ρ → String)

/-! ### The last record with an id -/

/-- A lookup finds the last record with its id. -/
theorem Table.getElem?_ofRecords (records : List ρ) (key : String) :
    (ofRecords id records)[key]? = records.reverse.find? fun record => id record = key := by
  induction records using List.reverseRecOn with
  | nil => simp [ofRecords]
  | append_singleton records record ih =>
    rw [ofRecords_concat, Std.HashMap.getElem?_insert, ih, List.reverse_append]
    by_cases h : id record = key
    · simp [h]
    · simp [h]

/-- Where no id is there twice, a lookup finds the record with its id wherever it stands. -/
theorem Table.getElem?_ofRecords_eq_some_iff {records : List ρ} (hids : (records.map id).Nodup)
    (key : String) (record : ρ) :
    (ofRecords id records)[key]? = some record ↔ record ∈ records ∧ id record = key := by
  rw [getElem?_ofRecords]
  constructor
  · intro hfound
    exact ⟨List.mem_reverse.mp (List.mem_of_find?_eq_some hfound),
      by simpa using List.find?_some hfound⟩
  · rintro ⟨hmem, rfl⟩
    have hsome : (records.reverse.find? fun other => id other = id record).isSome := by
      rw [List.find?_isSome]
      exact ⟨record, List.mem_reverse.mpr hmem, by simp⟩
    obtain ⟨other, hother⟩ := Option.isSome_iff_exists.mp hsome
    have hothers : other ∈ records := List.mem_reverse.mp (List.mem_of_find?_eq_some hother)
    have hid : id other = id record := by simpa using List.find?_some hother
    rw [hother, List.inj_on_of_nodup_map hids hothers hmem hid]

/-! ### Other orders -/

/-- The same records in another order, in which each id still leads to the same record: in any order
if no id is there twice, or with one record at an earlier place if a later one shadows it. -/
inductive Rearranged : List ρ → List ρ → Prop where
  | same (records : List ρ) : Rearranged records records
  | permuted {records others : List ρ} (hids : (records.map id).Nodup) (h : records.Perm others) :
    Rearranged records others
  | moved (front middle back : List ρ) {record later : ρ} (hlater : later ∈ back)
    (hid : id later = id record) :
    Rearranged (front ++ middle ++ record :: back) (front ++ record :: (middle ++ back))

/-- No record is lost and none is new. -/
theorem Rearranged.perm {records others : List ρ} (h : Rearranged id records others) :
    records.Perm others := by
  cases h with
  | same => exact .refl _
  | permuted _ hperm => exact hperm
  | moved front middle back =>
    rw [List.append_assoc]
    exact List.perm_middle.append_left front

/-- What is found does not change. -/
theorem Rearranged.getElem?_eq {records others : List ρ} (h : Rearranged id records others)
    (key : String) : (Table.ofRecords id records)[key]? = (Table.ofRecords id others)[key]? := by
  cases h with
  | same => rfl
  | permuted hids hperm =>
    have hothers : (others.map id).Nodup := (hperm.map id).nodup_iff.mp hids
    refine Option.ext fun record => ?_
    rw [Table.getElem?_ofRecords_eq_some_iff id hids,
      Table.getElem?_ofRecords_eq_some_iff id hothers, hperm.mem_iff]
  | @moved front middle back record later hlater hid =>
    rw [Table.getElem?_ofRecords, Table.getElem?_ofRecords]
    simp only [List.reverse_append, List.reverse_cons, List.find?_append, List.append_assoc]
    cases hback : back.reverse.find? fun other => id other = key with
    | some other => simp
    | none =>
      -- the later record has another id than the one looked for, so the moved one has
      have hne : id record ≠ key := by
        have hlater' := List.find?_eq_none.mp hback later (List.mem_reverse.mpr hlater)
        rw [← hid]
        simpa using hlater'
      simp [hne]

end CallGraph
