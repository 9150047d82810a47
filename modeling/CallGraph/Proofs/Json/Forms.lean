import CallGraph.Proofs.Json.Editing

/-!
# The two forms of a record

A record is written as an object, or as a list of its first field values.  The list stands for the
same record as the object that gives its items under the names of the first fields, and the fields
that are left keep the values of the blank record.

* `FirstMembers` — the members that give items under the first of some names;
* `positions_iff_steps` — items at positions do what these members do;
* `Fields.BlankFrom` — a record has the values of the blank record from some field on;
* `Schema.SwapsForm` — one form of a record in the place of the other, with `SwapsForm.means_iff`;
* `Schema.not_means_overlong` — a list with more items than fields;
* `Schema.PutsAt`, `Schema.Place.exists_blankFrom` — the record that a list of items loads.
-/

namespace CallGraph.Json

variable {α β ρ : Type}

/-! ### Members at positions -/

/-- The members that give items under the first of some names, in order. -/
inductive FirstMembers : List String → List Tree → List (List Char × Tree) → Prop where
  | nil {names : List String} : FirstMembers names [] []
  | cons {name : String} {names : List String} {key : List Char} {item : Tree} {items : List Tree}
    {members : List (List Char × Tree)} (hkey : SpellsAll name.toList key)
    (h : FirstMembers names items members) :
    FirstMembers (name :: names) (item :: items) ((key, item) :: members)

theorem positions_nil_iff {columns : List (Column ρ)} {record result : ρ} :
    Positions columns record [] result ↔ result = record := by
  constructor
  · intro h
    cases h
    rfl
  · rintro rfl
    exact .nil result

theorem positions_cons_iff {column : Column ρ} {columns : List (Column ρ)} {item : Tree}
    {items : List Tree} {record result : ρ} :
    Positions (column :: columns) record (item :: items) result
      ↔ ∃ change, column.Means item change ∧ Positions columns (change record) items result := by
  constructor
  · intro h
    cases h with
    | cons hitem hitems => exact ⟨_, hitem, hitems⟩
  · rintro ⟨change, hitem, hitems⟩
    exact .cons hitem hitems

/-- There are no more items than fields. -/
theorem Positions.length_le {columns : List (Column ρ)} {record result : ρ} {items : List Tree}
    (h : Positions columns record items result) : items.length ≤ columns.length := by
  induction h with
  | nil => exact Nat.zero_le _
  | cons _ _ ih =>
    simp only [List.length_cons]
    omega

/-- **Items at positions do what members under the names of the fields do**, as long as none of
these names was given before. -/
theorem positions_iff_steps {all columns : List (Column ρ)} (hall : (all.map Column.name).Nodup)
    (hcolumns : (columns.map Column.name).Nodup) (hsubset : columns ⊆ all) {items : List Tree}
    {members : List (List Char × Tree)}
    (h : FirstMembers (columns.map Column.name) items members) {seen : List String}
    (hseen : ∀ column ∈ columns, column.name ∉ seen) {record result : ρ} :
    Positions columns record items result
      ↔ ∃ given, Steps (MemberStep all) ⟨seen, record⟩ members ⟨given, result⟩ := by
  generalize hnames : columns.map Column.name = names at h
  induction h generalizing columns seen record with
  | nil =>
    rw [positions_nil_iff]
    constructor
    · rintro rfl
      exact ⟨seen, .nil _⟩
    · rintro ⟨given, ⟨⟩⟩
      rfl
  | cons hkey _ ih =>
    obtain ⟨column, columns, rfl, rfl, rfl⟩ := List.map_eq_cons_iff.mp hnames
    rw [List.map_cons, List.nodup_cons] at hcolumns
    obtain ⟨hmem, hrest⟩ := List.cons_subset.mp hsubset
    obtain ⟨hnew, hothers⟩ := List.forall_mem_cons.mp hseen
    -- the names of the other fields differ from the one just given
    have hlater : ∀ other ∈ columns, other.name ∉ column.name :: seen := by
      intro other hother
      rw [List.mem_cons, not_or]
      refine ⟨?_, hothers other hother⟩
      intro heq
      exact hcolumns.1 (heq ▸ List.mem_map_of_mem hother)
    rw [positions_cons_iff]
    simp only [steps_cons_iff, memberStep_known hkey (find_column hall hmem),
      ih hcolumns.2 hrest hlater rfl]
    constructor
    · rintro ⟨change, hitem, given, hsteps⟩
      exact ⟨given, _, ⟨hnew, change, hitem, rfl⟩, hsteps⟩
    · rintro ⟨given, _, ⟨-, change, hitem, rfl⟩, hsteps⟩
      exact ⟨change, hitem, given, hsteps⟩

/-- **The two forms of a record stand for the same.** -/
theorem means_forms {fields : Fields ρ} (hnames : fields.names.Nodup) {items : List Tree}
    {members : List (List Char × Tree)} (h : FirstMembers fields.names items members)
    {expected : String} {blank record : ρ} :
    (Schema.record expected blank fields).Means (.list items) record
      ↔ (Schema.record expected blank fields).Means (.object members) record := by
  rw [← fields.names_columns] at h hnames
  have hforms : Positions fields.columns blank items record
      ↔ ∃ given, Steps (MemberStep fields.columns) ⟨[], blank⟩ members ⟨given, record⟩ :=
    positions_iff_steps hnames hnames (List.Subset.refl _) h (by simp)
  rw [Schema.Means, Schema.Means]
  constructor
  · intro hlist
    cases hlist with
    | positional hpositions =>
      obtain ⟨given, hsteps⟩ := hforms.mp hpositions
      exact .keyed hsteps
  · intro hobject
    cases hobject with
    | @keyed _ p hsteps => exact .positional (hforms.mpr ⟨p.seen, hsteps⟩)

/-! ### Fields that are left -/

/-- From some field on, a record has the values of the blank record: what can be put into the blank
record without changing it can be put into the record. -/
def Fields.BlankFrom : {ρ : Type} → Fields ρ → (blank record : ρ) → Nat → Prop
  | _, .nil, _, _, _ => True
  | _, .cons _ _ set more, blank, record, 0 =>
    (∀ value, set value blank = blank → set value record = record) ∧ more.BlankFrom blank record 0
  | _, .cons _ _ _ more, blank, record, n + 1 => more.BlankFrom blank record n

theorem Fields.blankFrom_self (fields : Fields ρ) (blank : ρ) (n : Nat) :
    fields.BlankFrom blank blank n := by
  match fields, n with
  | .nil, _ =>
    rw [Fields.BlankFrom]
    trivial
  | .cons _ _ _ more, 0 =>
    rw [Fields.BlankFrom]
    exact ⟨fun value hvalue => hvalue, more.blankFrom_self blank 0⟩
  | .cons _ _ _ more, n + 1 =>
    rw [Fields.BlankFrom]
    exact more.blankFrom_self blank n

/-- A change of another field leaves values of the blank record alone. -/
theorem Fields.BlankFrom.change {fields : Fields ρ} {blank record : ρ} {change : ρ → ρ} {n : Nat}
    (h : fields.BlankFrom blank record n) (hcommute : fields.CommuteWith change) :
    fields.BlankFrom blank (change record) n := by
  match fields, n, h, hcommute with
  | .nil, _, _, _ =>
    rw [Fields.BlankFrom]
    trivial
  | .cons _ _ set more, 0, h, hcommute =>
    rw [Fields.commuteWith_cons] at hcommute
    rw [Fields.BlankFrom] at h ⊢
    refine ⟨?_, h.2.change hcommute.2⟩
    intro value hvalue
    rw [← hcommute.1, h.1 value hvalue]
  | .cons _ _ _ more, n + 1, h, hcommute =>
    rw [Fields.commuteWith_cons] at hcommute
    rw [Fields.BlankFrom] at h ⊢
    exact Fields.BlankFrom.change h hcommute.2

/-- Items leave the fields behind theirs alone. -/
theorem Positions.blankFrom {fields : Fields ρ} (hcommute : fields.Commute) {items : List Tree}
    {blank record result : ρ} (h : Positions fields.columns record items result)
    (hblank : fields.BlankFrom blank record items.length) :
    fields.BlankFrom blank result items.length := by
  match fields, items, hcommute, h, hblank with
  | _, [], _, h, hblank =>
    rwa [positions_nil_iff.mp h]
  | .nil, _ :: _, _, _, _ =>
    rw [Fields.BlankFrom]
    trivial
  | .cons _ _ set more, item :: items, hcommute, h, hblank =>
    rw [Fields.commute_cons] at hcommute
    rw [Fields.columns_cons, positions_cons_iff] at h
    rw [List.length_cons, Fields.BlankFrom] at hblank ⊢
    obtain ⟨change, hitem, hitems⟩ := h
    refine Positions.blankFrom hcommute.2 hitems ?_
    rcases hitem with ⟨-, rfl⟩ | ⟨value, -, rfl⟩
    · exact hblank
    · exact hblank.change (hcommute.1 value)

/-- A list of field values leaves the other fields of the blank record as they are. -/
theorem blankFrom_of_means {fields : Fields ρ} (hcommute : fields.Commute) {expected : String}
    {blank record : ρ} {items : List Tree}
    (h : (Schema.record expected blank fields).Means (.list items) record) :
    fields.BlankFrom blank record items.length := by
  rw [Schema.Means] at h
  cases h with
  | positional hpositions =>
    exact hpositions.blankFrom hcommute (fields.blankFrom_self blank items.length)

/-! ### Forms in their places -/

variable {schema : Schema α} {names : List String} {around : Tree → Tree} {items : List Tree}
  {value : α}

/-- One form of a record stands in the place of the other. -/
inductive Schema.SwapsForm (schema : Schema α) : Tree → Tree → Prop where
  | keyed {names : List String} {around : Tree → Tree} {items : List Tree}
    {members : List (List Char × Tree)} (place : schema.RecordPlace names around)
    (h : FirstMembers names items members) :
    SwapsForm schema (around (.list items)) (around (.object members))
  | positional {names : List String} {around : Tree → Tree} {items : List Tree}
    {members : List (List Char × Tree)} (place : schema.RecordPlace names around)
    (h : FirstMembers names items members) :
    SwapsForm schema (around (.object members)) (around (.list items))

/-- **The two forms of a record can be exchanged** wherever a record is expected. -/
theorem Schema.RecordPlace.means_forms (place : schema.RecordPlace names around)
    (hlawful : schema.Lawful) {members : List (List Char × Tree)}
    (h : FirstMembers names items members) :
    schema.Means (around (.list items)) value ↔ schema.Means (around (.object members)) value := by
  cases place with
  | intro place =>
    have hinner := place.lawful hlawful
    rw [Schema.lawful_record] at hinner
    constructor
    · intro hlist
      obtain ⟨record, put, hrecord, rfl, hput⟩ := place.means (by simp) hlist
      exact hput _ _ ((CallGraph.Json.means_forms hinner.1.names h).mp hrecord)
    · intro hobject
      obtain ⟨record, put, hrecord, rfl, hput⟩ := place.means (by simp) hobject
      exact hput _ _ ((CallGraph.Json.means_forms hinner.1.names h).mpr hrecord)

theorem Schema.SwapsForm.means_iff {tree other : Tree} (h : schema.SwapsForm tree other)
    (hlawful : schema.Lawful) : schema.Means tree value ↔ schema.Means other value := by
  cases h with
  | keyed place hmembers => exact place.means_forms hlawful hmembers
  | positional place hmembers => exact (place.means_forms hlawful hmembers).symm

/-- A list with more items than a record has fields stands for no record. -/
theorem Schema.not_means_overlong (place : schema.RecordPlace names around)
    (hlength : names.length < items.length) : ¬ schema.Means (around (.list items)) value := by
  intro h
  cases place with
  | @intro ρ expected blank fields _ place =>
    obtain ⟨record, put, hrecord, -, -⟩ := place.means (by simp) h
    rw [Schema.Means] at hrecord
    cases hrecord with
    | positional hpositions =>
      have hle := hpositions.length_le
      rw [← List.length_map (f := Column.name), fields.names_columns] at hle
      omega

/-- A function puts values in a place: the whole stands for what the function makes of the value of
the tree in the place, whatever this tree is. -/
def Schema.PutsAt (inner : Schema β) (schema : Schema α) (around : Tree → Tree) (put : β → α) :
    Prop :=
  ∀ tree w, inner.Means tree w → schema.Means (around tree) (put w)

/-- What is loaded from a list of items in the place of a record has the record there that the items
stand for, and the other fields of this record are those of the blank record. -/
theorem Schema.Place.exists_blankFrom {expected : String} {blank : ρ} {fields : Fields ρ}
    (place : (Schema.record expected blank fields).Place schema around) (hlawful : schema.Lawful)
    (h : schema.Means (around (.list items)) value) :
    ∃ record, ∃ put : ρ → α, (Schema.record expected blank fields).Means (.list items) record
      ∧ (Schema.record expected blank fields).PutsAt schema around put ∧ put record = value
      ∧ fields.BlankFrom blank record items.length := by
  have hinner := place.lawful hlawful
  rw [Schema.lawful_record] at hinner
  obtain ⟨record, put, hrecord, hvalue, hput⟩ := place.means (by simp) h
  exact ⟨record, put, hrecord, hput, hvalue, blankFrom_of_means hinner.1.commute hrecord⟩

end CallGraph.Json
