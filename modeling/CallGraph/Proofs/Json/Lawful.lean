import CallGraph.Proofs.Json.Meaning
import Mathlib.Data.List.Perm.Basic

/-!
# Members in any order

The changes that members make to a record do not depend on their order, as long as no two fields
change the same part of the record and no two fields have the same name.

* `Fields.Lawful` — the names of fields differ, and their changes can be swapped;
* `MemberChange` — what a member with a known key does, whatever came before it;
* `steps_of_changes` — members with different names make their changes one after the other;
* `means_of_perm` — members in any order stand for the record that their changes make in one order.
-/

namespace CallGraph.Json

variable {ρ : Type}

/-! ### Lawful fields -/

/-- The names of fields in order. -/
def Fields.names : {ρ : Type} → Fields ρ → List String
  | _, .nil => []
  | _, .cons name _ _ more => name :: more.names

/-- A change can be swapped with the changes of fields. -/
def Fields.CommuteWith : {ρ : Type} → Fields ρ → (ρ → ρ) → Prop
  | _, .nil, _ => True
  | _, .cons _ _ set more, change =>
    (∀ value record, change (set value record) = set value (change record))
      ∧ more.CommuteWith change

/-- The changes of any two fields can be swapped. -/
def Fields.Commute : {ρ : Type} → Fields ρ → Prop
  | _, .nil => True
  | _, .cons _ _ set more => (∀ value, more.CommuteWith (set value)) ∧ more.Commute

section

variable {α : Type} {name : String} {schema : Schema α} {set : α → ρ → ρ} {more : Fields ρ}
  {change : ρ → ρ}

theorem Fields.names_cons : (Fields.cons name schema set more).names = name :: more.names := rfl

@[simp] theorem Fields.commuteWith_nil : (Fields.nil : Fields ρ).CommuteWith change := trivial

@[simp] theorem Fields.commuteWith_cons : (Fields.cons name schema set more).CommuteWith change
    ↔ (∀ value record, change (set value record) = set value (change record))
      ∧ more.CommuteWith change := .rfl

@[simp] theorem Fields.commute_nil : (Fields.nil : Fields ρ).Commute := trivial

@[simp] theorem Fields.commute_cons : (Fields.cons name schema set more).Commute
    ↔ (∀ value, more.CommuteWith (set value)) ∧ more.Commute := .rfl

end

/-- Fields that do not get in each other's way. -/
structure Fields.Lawful (fields : Fields ρ) : Prop where
  names : fields.names.Nodup
  commute : fields.Commute

theorem Fields.names_columns (fields : Fields ρ) :
    fields.columns.map Column.name = fields.names := by
  match fields with
  | .nil => rw [Fields.columns, Fields.names, List.map_nil]
  | .cons name schema set more =>
    rw [Fields.columns, Fields.names, List.map_cons, more.names_columns]

theorem find_column {columns : List (Column ρ)} (hnodup : (columns.map Column.name).Nodup)
    {column : Column ρ} (h : column ∈ columns) :
    columns.find? (fun other => other.name = column.name) = some column := by
  induction columns with
  | nil => cases h
  | cons first columns ih =>
    rw [List.map_cons, List.nodup_cons] at hnodup
    rw [List.find?_cons]
    rcases List.mem_cons.mp h with rfl | hmem
    · simp
    · have hne : first.name ≠ column.name := by
        intro heq
        exact hnodup.1 (heq ▸ List.mem_map_of_mem hmem)
      simp only [hne, decide_false]
      exact ih hnodup.2 hmem

/-! ### Changes of members -/

/-- The change that a member makes: its key names a column, and its value stands for the change. -/
def MemberChange (columns : List (Column ρ)) (member : List Char × Tree)
    (change : String × (ρ → ρ)) : Prop :=
  SpellsAll change.1.toList member.1
    ∧ ∃ column ∈ columns, column.name = change.1 ∧ column.Means member.2 change.2

/-- The record after changes, one after the other. -/
def applyAll (changes : List (ρ → ρ)) (record : ρ) : ρ :=
  changes.foldl (fun record change => change record) record

/-- Members with different names make their changes one after the other. -/
theorem steps_of_changes {columns : List (Column ρ)} (hnodup : (columns.map Column.name).Nodup)
    {members : List (List Char × Tree)} {changes : List (String × (ρ → ρ))}
    (h : List.Forall₂ (MemberChange columns) members changes)
    (hnames : (changes.map Prod.fst).Nodup) (p : Progress ρ)
    (hnew : ∀ change ∈ changes, change.1 ∉ p.seen) :
    ∃ seen, Steps (MemberStep columns) p members
      ⟨seen, applyAll (changes.map Prod.snd) p.record⟩ := by
  induction h generalizing p with
  | nil => exact ⟨p.seen, .nil p⟩
  | @cons member change members changes hfirst _ ih =>
    obtain ⟨hkey, column, hcolumn, hname, hvalue⟩ := hfirst
    rw [List.map_cons, List.nodup_cons] at hnames
    have hfind := find_column hnodup hcolumn
    rw [hname] at hfind
    have hstep := MemberStep.known hkey hfind (hnew change (List.mem_cons_self ..)) hvalue
    -- the names that are left were not given before, and differ from the one just given
    have hlater (other : String × (ρ → ρ)) (hother : other ∈ changes) :
        other.1 ∉ change.1 :: p.seen := by
      rw [List.mem_cons, not_or]
      refine ⟨?_, hnew other (List.mem_cons_of_mem _ hother)⟩
      intro heq
      exact hnames.1 (heq ▸ List.mem_map_of_mem hother)
    obtain ⟨seen, hsteps⟩ := ih hnames.2 ⟨change.1 :: p.seen, change.2 p.record⟩ hlater
    exact ⟨seen, .cons hstep hsteps⟩

/-- Changes that can be swapped make the same record in any order. -/
theorem applyAll_perm {changes others : List (ρ → ρ)} (hperm : changes.Perm others)
    (hcommute : changes.Pairwise fun f g => ∀ record, f (g record) = g (f record)) (record : ρ) :
    applyAll changes record = applyAll others record := by
  have hflip : changes.Pairwise fun f g => ∀ record, g (f record) = f (g record) :=
    hcommute.imp fun h record => (h record).symm
  have hall := hcommute.forall_of_forall_of_flip (fun _ _ _ => rfl) hflip
  exact hperm.foldl_eq' (fun f hf g hg record => hall hg hf record) record

/-- A member in any place makes its change: members in any order stand for the record that their
changes make in one order. -/
theorem means_of_perm {fields : Fields ρ} (hnames : fields.names.Nodup)
    {members ordered : List (List Char × Tree)} {changes : List (String × (ρ → ρ))}
    (hperm : members.Perm ordered)
    (h : List.Forall₂ (MemberChange fields.columns) ordered changes)
    (hchanges : (changes.map Prod.fst).Nodup)
    (hcommute : (changes.map Prod.snd).Pairwise fun f g => ∀ record, f (g record) = g (f record))
    (expected : String) (blank : ρ) : (Schema.record expected blank fields).Means (.object members)
      (applyAll (changes.map Prod.snd) blank) := by
  obtain ⟨permuted, hmembers, hpermuted⟩ := List.perm_comp_forall₂ hperm h
  have hnodup : (fields.columns.map Column.name).Nodup := by rwa [fields.names_columns]
  have hdistinct : (permuted.map Prod.fst).Nodup :=
    (hpermuted.map Prod.fst).nodup_iff.mpr hchanges
  obtain ⟨seen, hsteps⟩ := steps_of_changes hnodup hmembers hdistinct ⟨[], blank⟩ (by simp)
  rw [applyAll_perm (hpermuted.symm.map Prod.snd) hcommute, Schema.Means]
  exact .keyed hsteps

end CallGraph.Json
