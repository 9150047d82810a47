import CallGraph.Proofs.Json.Lawful
import CallGraph.Proofs.Json.Reading

/-!
# Members of a record

What the members of an object do to a record, one after the other: which of them can be left out or
put in, and that their order does not matter.

* `memberStep_known` — a member whose key spells the name of a field;
* `Steps.transfer` — members change a record in the same way whatever it holds before;
* `steps_insert_unknown`, `steps_erase_null`, `steps_insert_null` — members that change nothing;
* `steps_perm` — members in any order;
* `not_steps_repeated` — a known name is given once.
-/

namespace CallGraph.Json

variable {ρ σ α : Type}

/-! ### Steps one after the other -/

theorem steps_cons_iff {step : σ → α → σ → Prop} {s u : σ} {a : α} {as : List α} :
    Steps step s (a :: as) u ↔ ∃ t, step s a t ∧ Steps step t as u := by
  constructor
  · intro h
    cases h with
    | cons hstep hrest => exact ⟨_, hstep, hrest⟩
  · rintro ⟨t, hstep, hrest⟩
    exact .cons hstep hrest

theorem steps_append_iff {step : σ → α → σ → Prop} {s u : σ} {front back : List α} :
    Steps step s (front ++ back) u ↔ ∃ t, Steps step s front t ∧ Steps step t back u := by
  induction front generalizing s with
  | nil =>
    constructor
    · intro h
      exact ⟨s, .nil s, h⟩
    · rintro ⟨t, hfront, hback⟩
      cases hfront
      exact hback
  | cons a front ih =>
    simp only [List.cons_append, steps_cons_iff, ih]
    constructor
    · rintro ⟨t, hstep, m, hfront, hback⟩
      exact ⟨m, ⟨t, hstep, hfront⟩, hback⟩
    · rintro ⟨m, ⟨t, hstep, hfront⟩, hback⟩
      exact ⟨t, hstep, m, hfront, hback⟩

/-! ### One member -/

section

variable {columns : List (Column ρ)} {p q : Progress ρ} {name : String} {key : List Char}
  {value : Tree}

/-- A key spells one name only. -/
theorem name_of_spellsAll {other : String} (h : SpellsAll name.toList key)
    (hother : SpellsAll other.toList key) : name = other :=
  String.toList_injective (h.unique hother)

theorem memberStep_known {column : Column ρ} (hkey : SpellsAll name.toList key)
    (hcolumn : columns.find? (fun column => column.name = name) = some column) :
    MemberStep columns p (key, value) q ↔ name ∉ p.seen ∧ ∃ change, column.Means value change
      ∧ q = ⟨name :: p.seen, change p.record⟩ := by
  constructor
  · intro h
    cases h with
    | @known _ _ found other change hfound hother hnew hvalue =>
      obtain rfl := name_of_spellsAll hkey hfound
      obtain rfl := Option.some.inj (hcolumn.symm.trans hother)
      exact ⟨hnew, change, hvalue, rfl⟩
    | unknown hfound hother =>
      obtain rfl := name_of_spellsAll hkey hfound
      rw [hcolumn] at hother
      cases hother
  · rintro ⟨hnew, change, hvalue, rfl⟩
    exact .known hkey hcolumn hnew hvalue

end

/-! ### Columns of fields -/

/-- The trees that stand for changes by a value of a schema; null stands for no change. -/
def Schema.Changes (schema : Schema α) (set : α → ρ → ρ) (tree : Tree) (change : ρ → ρ) : Prop :=
  tree = .null ∧ change = id ∨ ∃ value, schema.Means tree value ∧ change = set value

theorem Fields.columns_cons (name : String) (schema : Schema α) (set : α → ρ → ρ)
    (more : Fields ρ) :
    (Fields.cons name schema set more).columns = ⟨name, schema.Changes set⟩ :: more.columns := by
  rw [Fields.columns]
  rfl

theorem Schema.changes_null {schema : Schema α} {set : α → ρ → ρ} {change : ρ → ρ} :
    schema.Changes set .null change ↔ change = id := by
  constructor
  · rintro (⟨-, rfl⟩ | ⟨value, hvalue, -⟩)
    · rfl
    · exact absurd hvalue (schema.not_means_null value)
  · rintro rfl
    exact .inl ⟨rfl, rfl⟩

/-- Null stands for no change of a field, and for nothing else. -/
theorem Fields.means_null {fields : Fields ρ} {column : Column ρ} (h : column ∈ fields.columns)
    {change : ρ → ρ} : column.Means .null change ↔ change = id := by
  match fields, h with
  | .nil, h =>
    rw [Fields.columns] at h
    cases h
  | .cons name schema set more, h =>
    rw [Fields.columns_cons] at h
    rcases List.mem_cons.mp h with rfl | h
    · exact Schema.changes_null
    · exact more.means_null h

theorem Fields.find_eq_none {fields : Fields ρ} {name : String} (h : name ∉ fields.names) :
    fields.columns.find? (fun column => column.name = name) = none := by
  rw [List.find?_eq_none]
  intro column hcolumn
  rw [decide_eq_true_eq]
  rintro rfl
  rw [← fields.names_columns] at h
  exact h (List.mem_map_of_mem hcolumn)

theorem Fields.exists_find {fields : Fields ρ} {name : String} (h : name ∈ fields.names) :
    ∃ column ∈ fields.columns,
      fields.columns.find? (fun column => column.name = name) = some column := by
  rw [← fields.names_columns] at h
  obtain ⟨found, hfound, rfl⟩ := List.mem_map.mp h
  cases hcolumn : fields.columns.find? (fun column => column.name = found.name) with
  | some column => exact ⟨column, List.mem_of_find?_eq_some hcolumn, rfl⟩
  | none => exact absurd (List.find?_eq_none.mp hcolumn found hfound) (by simp)

/-! ### Names that were given -/

/-- A member whose key spells a name. -/
def Spelled (name : String) (member : List Char × Tree) : Prop := SpellsAll name.toList member.1

section

variable {columns : List (Column ρ)} {p q : Progress ρ} {members : List (List Char × Tree)}

/-- Names that were given stay given. -/
theorem Steps.seen_subset (h : Steps (MemberStep columns) p members q) : p.seen ⊆ q.seen := by
  induction h with
  | nil => exact List.Subset.refl _
  | cons hstep _ ih =>
    cases hstep with
    | known => exact List.Subset.trans (List.subset_cons_self ..) ih
    | unknown => exact ih

/-- Names are given by members that spell them. -/
theorem Steps.spelled (h : Steps (MemberStep columns) p members q) {name : String}
    (hname : name ∈ q.seen) : name ∈ p.seen ∨ ∃ member ∈ members, Spelled name member := by
  induction h with
  | nil => exact .inl hname
  | cons hstep _ ih =>
    rcases ih hname with hseen | ⟨member, hmember, hspelled⟩
    · cases hstep with
      | known hkey =>
        rcases List.mem_cons.mp hseen with rfl | hseen
        · exact .inr ⟨_, List.mem_cons_self .., hkey⟩
        · exact .inl hseen
      | unknown => exact .inl hseen
    · exact .inr ⟨member, List.mem_cons_of_mem _ hmember, hspelled⟩

/-- **Members change a record in one way**, whatever it holds before, and whatever names were given
before that none of them spells. -/
theorem Steps.transfer (h : Steps (MemberStep columns) p members q) :
    ∃ change : ρ → ρ, q.record = change p.record ∧ ∀ seen record,
      (∀ name ∈ seen, name ∈ p.seen ∨ ∀ member ∈ members, ¬ Spelled name member) →
        ∃ given, Steps (MemberStep columns) ⟨seen, record⟩ members ⟨given, change record⟩ := by
  induction h with
  | nil p => exact ⟨id, rfl, fun seen record _ => ⟨seen, .nil _⟩⟩
  | @cons p _ _ _ members hstep _ ih =>
    obtain ⟨change, hrecord, htransfer⟩ := ih
    have hlater {seen : List String} {member : List Char × Tree}
        (h : ∀ name ∈ seen, name ∈ p.seen ∨ ∀ other ∈ member :: members, ¬ Spelled name other) :
        ∀ name ∈ seen, name ∈ p.seen ∨ ∀ other ∈ members, ¬ Spelled name other := by
      intro name hname
      exact (h name hname).imp_right fun hnone other hother =>
        hnone other (List.mem_cons_of_mem _ hother)
    cases hstep with
    | @known key value name column first hkey hcolumn hnew hvalue =>
      refine ⟨change ∘ first, hrecord, ?_⟩
      intro seen record hseen
      have hname : name ∉ seen := by
        intro hmem
        rcases hseen name hmem with hgiven | hnone
        · exact hnew hgiven
        · exact hnone _ (List.mem_cons_self ..) hkey
      obtain ⟨given, hsteps⟩ := htransfer (name :: seen) (first record) (by
        intro other hother
        rcases List.mem_cons.mp hother with rfl | hother
        · exact .inl (List.mem_cons_self ..)
        · exact (hlater hseen other hother).imp_left (List.mem_cons_of_mem _))
      exact ⟨given, .cons (.known hkey hcolumn hname hvalue) hsteps⟩
    | unknown hkey hcolumn =>
      refine ⟨change, hrecord, ?_⟩
      intro seen record hseen
      obtain ⟨given, hsteps⟩ := htransfer seen record (hlater hseen)
      exact ⟨given, .cons (.unknown hkey hcolumn) hsteps⟩

/-- Members make the same record when other names were given before that none of them spells. -/
theorem Steps.with_seen (h : Steps (MemberStep columns) p members q) (seen : List String)
    (hseen : ∀ name ∈ seen, name ∈ p.seen ∨ ∀ member ∈ members, ¬ Spelled name member) :
    ∃ given, Steps (MemberStep columns) ⟨seen, p.record⟩ members ⟨given, q.record⟩ := by
  obtain ⟨change, hrecord, htransfer⟩ := h.transfer
  rw [hrecord]
  exact htransfer seen p.record hseen

end

/-! ### Members that change nothing -/

section

variable {fields : Fields ρ} {p q : Progress ρ} {front back : List (List Char × Tree)}
  {name : String} {key : List Char}

/-- A member with an unknown key may be put in anywhere. -/
theorem steps_insert_unknown (hkey : SpellsAll name.toList key) (hname : name ∉ fields.names)
    (value : Tree) (h : Steps (MemberStep fields.columns) p (front ++ back) q) :
    Steps (MemberStep fields.columns) p (front ++ (key, value) :: back) q := by
  obtain ⟨m, hfront, hback⟩ := steps_append_iff.mp h
  exact steps_append_iff.mpr ⟨m, hfront, .cons (.unknown hkey (fields.find_eq_none hname)) hback⟩

/-- A member of a field that is null may be left out. -/
theorem steps_erase_null (hkey : SpellsAll name.toList key) (hname : name ∈ fields.names)
    (h : Steps (MemberStep fields.columns) p (front ++ (key, .null) :: back) q) :
    ∃ given, Steps (MemberStep fields.columns) p (front ++ back) ⟨given, q.record⟩ := by
  obtain ⟨column, hmem, hcolumn⟩ := fields.exists_find hname
  obtain ⟨m, hfront, hrest⟩ := steps_append_iff.mp h
  obtain ⟨n, hstep, hback⟩ := steps_cons_iff.mp hrest
  obtain ⟨-, change, hchange, rfl⟩ := (memberStep_known hkey hcolumn).mp hstep
  obtain rfl := (fields.means_null hmem).mp hchange
  obtain ⟨given, hsteps⟩ :=
    hback.with_seen m.seen fun name hseen => .inl (List.mem_cons_of_mem _ hseen)
  exact ⟨given, steps_append_iff.mpr ⟨m, hfront, hsteps⟩⟩

/-- A member of a field that is null may be put in anywhere if the field is not given. -/
theorem steps_insert_null (hkey : SpellsAll name.toList key) (hname : name ∈ fields.names)
    (hseen : name ∉ p.seen) (hnone : ∀ member ∈ front ++ back, ¬ Spelled name member)
    (h : Steps (MemberStep fields.columns) p (front ++ back) q) :
    ∃ given, Steps (MemberStep fields.columns) p (front ++ (key, .null) :: back)
      ⟨given, q.record⟩ := by
  obtain ⟨column, hmem, hcolumn⟩ := fields.exists_find hname
  obtain ⟨m, hfront, hback⟩ := steps_append_iff.mp h
  have hnew : name ∉ m.seen := by
    intro hgiven
    rcases hfront.spelled hgiven with hbefore | ⟨member, hmember, hspelled⟩
    · exact hseen hbefore
    · exact hnone member (List.mem_append_left _ hmember) hspelled
  obtain ⟨given, hsteps⟩ := hback.with_seen (name :: m.seen) (by
    intro other hother
    rcases List.mem_cons.mp hother with rfl | hother
    · exact .inr fun member hmember => hnone member (List.mem_append_right _ hmember)
    · exact .inl hother)
  have hstep : MemberStep fields.columns m (key, .null) ⟨name :: m.seen, m.record⟩ :=
    (memberStep_known hkey hcolumn).mpr ⟨hnew, id, (fields.means_null hmem).mpr rfl, rfl⟩
  exact ⟨given, steps_append_iff.mpr ⟨m, hfront, .cons hstep hsteps⟩⟩

/-- A known name is given once, whatever the values are. -/
theorem not_steps_repeated (hname : name ∈ fields.names) (middle : List (List Char × Tree))
    {first second : List Char × Tree} (hfirst : Spelled name first)
    (hsecond : Spelled name second) :
    ¬ Steps (MemberStep fields.columns) p (front ++ first :: (middle ++ second :: back)) q := by
  intro h
  obtain ⟨column, -, hcolumn⟩ := fields.exists_find hname
  obtain ⟨m, -, hrest⟩ := steps_append_iff.mp h
  obtain ⟨n, hgiven, hrest⟩ := steps_cons_iff.mp hrest
  obtain ⟨o, hmiddle, hrest⟩ := steps_append_iff.mp hrest
  obtain ⟨_, hagain, -⟩ := steps_cons_iff.mp hrest
  obtain ⟨-, change, -, rfl⟩ := (memberStep_known hfirst hcolumn).mp hgiven
  obtain ⟨hnew, -⟩ := (memberStep_known hsecond hcolumn).mp hagain
  exact hnew (hmiddle.seen_subset (List.mem_cons_self ..))

end

/-! ### Members in any order -/

theorem Fields.CommuteWith.columns {fields : Fields ρ} {change : ρ → ρ}
    (h : fields.CommuteWith change) {column : Column ρ} (hcolumn : column ∈ fields.columns)
    {tree : Tree} {other : ρ → ρ} (hother : column.Means tree other) (record : ρ) :
    change (other record) = other (change record) := by
  match fields, h, hcolumn with
  | .nil, _, hcolumn =>
    rw [Fields.columns] at hcolumn
    cases hcolumn
  | .cons name schema set more, h, hcolumn =>
    rw [Fields.commuteWith_cons] at h
    obtain ⟨hset, hmore⟩ := h
    rw [Fields.columns_cons] at hcolumn
    rcases List.mem_cons.mp hcolumn with rfl | hcolumn
    · obtain ⟨-, rfl⟩ | ⟨value, -, rfl⟩ := hother
      · rfl
      · exact hset value record
    · exact Fields.CommuteWith.columns hmore hcolumn hother record

/-- The changes that two columns make can be swapped. -/
theorem Fields.Commute.columns {fields : Fields ρ} (h : fields.Commute) {first second : Column ρ}
    (hfirst : first ∈ fields.columns) (hsecond : second ∈ fields.columns)
    (hne : first.name ≠ second.name) {tree other : Tree} {f g : ρ → ρ} (hf : first.Means tree f)
    (hg : second.Means other g) (record : ρ) : f (g record) = g (f record) := by
  match fields, h, hfirst, hsecond with
  | .nil, _, hfirst, _ =>
    rw [Fields.columns] at hfirst
    cases hfirst
  | .cons name schema set more, h, hfirst, hsecond =>
    rw [Fields.commute_cons] at h
    obtain ⟨hset, hmore⟩ := h
    -- the change of the first field can be swapped with the changes of all others
    have hhead {tree : Tree} {f : ρ → ρ} (hf : schema.Changes set tree f) {column : Column ρ}
        (hcolumn : column ∈ more.columns) {other : Tree} {g : ρ → ρ} (hg : column.Means other g) :
        f (g record) = g (f record) := by
      obtain ⟨-, rfl⟩ | ⟨value, -, rfl⟩ := hf
      · rfl
      · exact (hset value).columns hcolumn hg record
    rw [Fields.columns_cons] at hfirst hsecond
    rcases List.mem_cons.mp hfirst with rfl | hfirst <;>
      rcases List.mem_cons.mp hsecond with rfl | hsecond
    · exact absurd rfl hne
    · exact hhead hf hsecond hg
    · exact (hhead hg hfirst hf).symm
    · exact Fields.Commute.columns hmore hfirst hsecond hne hf hg record

section

variable {fields : Fields ρ} {p q : Progress ρ}

/-- Two members may be swapped. -/
theorem memberSteps_swap (hlawful : fields.Lawful) {m : Progress ρ} {a b : List Char × Tree}
    (hfirst : MemberStep fields.columns p a m) (hsecond : MemberStep fields.columns m b q) :
    ∃ n seen, MemberStep fields.columns p b n ∧ MemberStep fields.columns n a ⟨seen, q.record⟩
      ∧ seen ⊆ q.seen := by
  have hfound {name : String} {column : Column ρ}
      (h : fields.columns.find? (fun column => column.name = name) = some column) :
      column ∈ fields.columns ∧ column.name = name :=
    ⟨List.mem_of_find?_eq_some h, by simpa using List.find?_some h⟩
  cases hfirst with
  | unknown hkey hcolumn =>
    exact ⟨q, q.seen, hsecond, .unknown hkey hcolumn, List.Subset.refl _⟩
  | @known key value name column f hkey hcolumn hnew hf =>
    cases hsecond with
    | unknown hother hnone =>
      exact ⟨p, _, .unknown hother hnone, .known hkey hcolumn hnew hf, List.Subset.refl _⟩
    | @known other tree second found g hother hfind hfresh hg =>
      rw [List.mem_cons, not_or] at hfresh
      have hagain : name ∉ second :: p.seen := by
        rw [List.mem_cons, not_or]
        exact ⟨Ne.symm hfresh.1, hnew⟩
      have hswap : g (f p.record) = f (g p.record) := by
        obtain ⟨hmem, hname⟩ := hfound hcolumn
        obtain ⟨hother, hsecond⟩ := hfound hfind
        refine hlawful.commute.columns hother hmem ?_ hg hf p.record
        rw [hname, hsecond]
        exact hfresh.1
      refine ⟨_, _, .known hother hfind hfresh.2 hg, ?_, (List.Perm.swap second name p.seen).subset⟩
      have hstep := MemberStep.known (p := ⟨second :: p.seen, g p.record⟩) hkey hcolumn hagain hf
      show MemberStep _ _ _ ⟨name :: second :: p.seen, g (f p.record)⟩
      rw [hswap]
      exact hstep

/-- **Members in any order make the same record**, if the fields do not get in each other's way. -/
theorem steps_perm (hlawful : fields.Lawful) {members others : List (List Char × Tree)}
    (hperm : members.Perm others) (h : Steps (MemberStep fields.columns) p members q) :
    ∃ given, Steps (MemberStep fields.columns) p others ⟨given, q.record⟩ := by
  induction hperm generalizing p q with
  | nil => exact ⟨q.seen, h⟩
  | cons member _ ih =>
    obtain ⟨m, hstep, hrest⟩ := steps_cons_iff.mp h
    obtain ⟨given, hsteps⟩ := ih hrest
    exact ⟨given, .cons hstep hsteps⟩
  | swap first second members =>
    obtain ⟨m, hsecond, hrest⟩ := steps_cons_iff.mp h
    obtain ⟨n, hfirst, hrest⟩ := steps_cons_iff.mp hrest
    obtain ⟨o, seen, hother, hagain, hsubset⟩ := memberSteps_swap hlawful hsecond hfirst
    obtain ⟨given, hsteps⟩ := hrest.with_seen seen fun name hname => .inl (hsubset hname)
    exact ⟨given, .cons hother (.cons hagain hsteps)⟩
  | trans _ _ ihfirst ihsecond =>
    obtain ⟨seen, hsteps⟩ := ihfirst h
    obtain ⟨given, hagain⟩ := ihsecond hsteps
    exact ⟨given, hagain⟩

end

end CallGraph.Json
