import CallGraph.Proofs.Json.Lawful

/-!
# Shapes of trees

How values stand in trees, said without a schema: texts in any spelling, numbers in decimal, null
for what is missing, and objects with the given members in any order.

* `IsText`, `IsNumber`, `IsFlag`, `IsOptional`, `IsList`, `IsObject` — the shapes;
* `Fields.Shows` — fields that understand the members of a shape, with the changes they make;
* `means_isObject` — an object of such a shape stands for the record that the changes make;
* `Writable` — trees of a shape exist and can be written.
-/

namespace CallGraph.Json

variable {α ρ : Type}

/-! ### Shapes -/

/-- A tree stands for a text. -/
def IsText (value : String) (tree : Tree) : Prop :=
  ∃ body, tree = .text body ∧ SpellsAll value.toList body

/-- A tree stands for a natural number, in decimal. -/
def IsNumber (value : Nat) (tree : Tree) : Prop := tree = .number (decimal value)

/-- A tree stands for a flag. -/
def IsFlag (value : Bool) (tree : Tree) : Prop := tree = .flag value

/-- A tree stands for a value, or is null where there is none. -/
def IsOptional (shape : α → Tree → Prop) : Option α → Tree → Prop
  | none, tree => tree = .null
  | some value, tree => shape value tree

/-- A tree is the list of trees that stand for values. -/
def IsList (shape : α → Tree → Prop) (values : List α) (tree : Tree) : Prop :=
  ∃ items, tree = .list items ∧ List.Forall₂ shape values items

/-- A member stands under a name, and its value has a shape. -/
def IsMember (entry : String × (Tree → Prop)) (member : List Char × Tree) : Prop :=
  SpellsAll entry.1.toList member.1 ∧ entry.2 member.2

/-- A tree is an object with the given members, in any order. -/
def IsObject (entries : List (String × (Tree → Prop))) (tree : Tree) : Prop :=
  ∃ members ordered, tree = .object members ∧ members.Perm ordered
    ∧ List.Forall₂ IsMember entries ordered

/-! ### Shapes that schemas understand -/

theorem means_isText {value : String} {tree : Tree} (h : IsText value tree) :
    Schema.text.Means tree value := by
  rw [Schema.Means]
  exact h

theorem means_isFlag {value : Bool} {tree : Tree} (h : IsFlag value tree) :
    Schema.flag.Means tree value := by
  rw [Schema.Means]
  exact h

theorem means_isList {schema : Schema α} {shape : α → Tree → Prop} {values : List α} {tree : Tree}
    (h : IsList shape values tree)
    (hshape : ∀ value ∈ values, ∀ tree, shape value tree → schema.Means tree value) :
    (Schema.list schema).Means tree values := by
  obtain ⟨items, rfl, hitems⟩ := h
  rw [Schema.Means]
  refine ⟨items, rfl, ?_⟩
  induction hitems with
  | nil => exact .nil
  | @cons value item values items hfirst _ ih =>
    obtain ⟨hvalue, hmore⟩ := List.forall_mem_cons.mp hshape
    exact .cons (hvalue item hfirst) (ih hmore)

theorem means_map {β : Type} {schema : Schema α} {f : α → β} {tree : Tree} {value : α}
    (h : schema.Means tree value) : (Schema.map f schema).Means tree (f value) := by
  rw [Schema.Means]
  exact ⟨value, h, rfl⟩

/-- The change that a field makes of a shape: trees of it stand for one value, or are all null. -/
inductive Understands (schema : Schema α) (set : α → ρ → ρ) (shape : Tree → Prop) :
    (ρ → ρ) → Prop where
  | given {value : α} (h : ∀ tree, shape tree → schema.Means tree value) :
    Understands schema set shape (set value)
  | missing (h : ∀ tree, shape tree → tree = .null) : Understands schema set shape id

/-- Fields that understand entries one by one, with the changes they make. -/
inductive Fields.Shows : Fields ρ → List (String × (Tree → Prop)) → List (ρ → ρ) → Prop where
  | nil : Shows .nil [] []
  | cons {β : Type} {name : String} {schema : Schema β} {set : β → ρ → ρ} {more : Fields ρ}
    {shape : Tree → Prop} {entries : List (String × (Tree → Prop))} {change : ρ → ρ}
    {changes : List (ρ → ρ)} (h : Understands schema set shape change)
    (hmore : Shows more entries changes) :
    Shows (.cons name schema set more) ((name, shape) :: entries) (change :: changes)

/-- What can be swapped with fields can be swapped with the changes they make. -/
theorem Fields.Shows.commuteWith {fields : Fields ρ} {entries : List (String × (Tree → Prop))}
    {changes : List (ρ → ρ)} (h : fields.Shows entries changes) {change : ρ → ρ}
    (hcommute : fields.CommuteWith change) :
    ∀ other ∈ changes, ∀ record, change (other record) = other (change record) := by
  induction h with
  | nil => simp
  | cons hfirst _ ih =>
    obtain ⟨hset, hmore⟩ := hcommute
    intro other hother record
    rcases List.mem_cons.mp hother with rfl | hother
    · cases hfirst with
      | given => exact hset _ record
      | missing => rfl
    · exact ih hmore other hother record

/-- The changes of lawful fields can be swapped. -/
theorem Fields.Shows.pairwise {fields : Fields ρ} {entries : List (String × (Tree → Prop))}
    {changes : List (ρ → ρ)} (h : fields.Shows entries changes) (hcommute : fields.Commute) :
    changes.Pairwise fun f g => ∀ record, f (g record) = g (f record) := by
  induction h with
  | nil => exact .nil
  | cons hfirst hmore ih =>
    obtain ⟨hset, hrest⟩ := hcommute
    refine .cons ?_ (ih hrest)
    intro other hother record
    cases hfirst with
    | given => exact hmore.commuteWith (hset _) other hother record
    | missing => rfl

/-- Members under the names of fields make the changes of those fields. -/
theorem Fields.Shows.memberChanges {fields : Fields ρ}
    {entries : List (String × (Tree → Prop))} {changes : List (ρ → ρ)}
    (h : fields.Shows entries changes) {members : List (List Char × Tree)}
    (hmembers : List.Forall₂ IsMember entries members) :
    ∃ named, List.Forall₂ (MemberChange fields.columns) members named
      ∧ named.map Prod.fst = fields.names ∧ named.map Prod.snd = changes := by
  induction h generalizing members with
  | nil =>
    cases hmembers
    exact ⟨[], .nil, rfl, rfl⟩
  | @cons β name schema set more shape entries change changes hfirst hmore ih =>
    cases hmembers with
    | @cons _ member _ members hmember hmembers =>
      obtain ⟨named, hnamed, hnames, hchanges⟩ := ih hmembers
      refine ⟨(name, change) :: named, .cons ⟨hmember.1, ?_⟩ ?_, ?_, ?_⟩
      · refine ⟨_, by rw [Fields.columns]; exact List.mem_cons_self .., rfl, ?_⟩
        cases hfirst with
        | given hgiven => exact .inr ⟨_, hgiven _ hmember.2, rfl⟩
        | missing hmissing => exact .inl ⟨hmissing _ hmember.2, rfl⟩
      · refine hnamed.imp fun _ _ hchange => ⟨hchange.1, ?_⟩
        obtain ⟨column, hcolumn, hmeans⟩ := hchange.2
        exact ⟨column, by rw [Fields.columns]; exact List.mem_cons_of_mem _ hcolumn, hmeans⟩
      · rw [List.map_cons, hnames, Fields.names_cons]
      · rw [List.map_cons, hchanges]

/-- **An object of a shape stands for the record that its members make**, in whatever order they
stand. -/
theorem means_isObject {fields : Fields ρ} {entries : List (String × (Tree → Prop))}
    {changes : List (ρ → ρ)} (h : fields.Shows entries changes) (hlawful : fields.Lawful)
    {expected : String} {blank value : ρ} (hvalue : applyAll changes blank = value) {tree : Tree}
    (htree : IsObject entries tree) : (Schema.record expected blank fields).Means tree value := by
  obtain ⟨members, ordered, rfl, hperm, hmembers⟩ := htree
  obtain ⟨named, hnamed, hnames, rfl⟩ := h.memberChanges hmembers
  rw [← hvalue]
  exact means_of_perm hlawful.names hperm hnamed (hnames ▸ hlawful.names)
    (h.pairwise hlawful.commute) expected blank

/-! ### Trees of a shape can be written -/

/-- There is a tree of a shape, and a text of it. -/
def Writable (shape : Tree → Prop) : Prop := ∃ tree text, shape tree ∧ Written tree text

theorem writable_isText (value : String) : Writable (IsText value) := by
  obtain ⟨body, hbody⟩ := exists_spellsAll value.toList
  exact ⟨.text body, _, ⟨body, rfl, hbody⟩, .text hbody.isBody⟩

theorem writable_isNumber (value : Nat) : Writable (IsNumber value) :=
  ⟨_, _, rfl, .number (writes_decimal value)⟩

theorem writable_isFlag (value : Bool) : Writable (IsFlag value) := by
  cases value with
  | true => exact ⟨_, _, rfl, .true⟩
  | false => exact ⟨_, _, rfl, .false⟩

theorem writable_isOptional {shape : α → Tree → Prop} {value : Option α}
    (h : ∀ v ∈ value, Writable (shape v)) : Writable (IsOptional shape value) := by
  cases value with
  | none => exact ⟨.null, _, rfl, .null⟩
  | some v => exact h v rfl

/-- Items that can be written can be written one after the other. -/
theorem exists_sequence {β : Type} {R : β → List Char → Prop} {items : List β} (hne : items ≠ [])
    (h : ∀ item ∈ items, ∃ text, R item text) : ∃ text, Sequence R items text := by
  induction items with
  | nil => exact absurd rfl hne
  | cons item items ih =>
    obtain ⟨⟨text, htext⟩, hothers⟩ := List.forall_mem_cons.mp h
    cases items with
    | nil => exact ⟨_, .last isGap_nil htext isGap_nil⟩
    | cons next items =>
      obtain ⟨more, hmore⟩ := ih (List.cons_ne_nil next items) hothers
      exact ⟨_, .more isGap_nil htext isGap_nil hmore⟩

/-- Values that stand in items which can be written. -/
theorem exists_forall₂ {β : Type} {S : α → β → Prop} {R : β → List Char → Prop} {values : List α}
    (h : ∀ value ∈ values, ∃ item text, S value item ∧ R item text) :
    ∃ items, List.Forall₂ S values items ∧ ∀ item ∈ items, ∃ text, R item text := by
  induction values with
  | nil => exact ⟨[], .nil, by simp⟩
  | cons value values ih =>
    obtain ⟨⟨item, text, hitem, htext⟩, hothers⟩ := List.forall_mem_cons.mp h
    obtain ⟨items, hitems, htexts⟩ := ih hothers
    refine ⟨item :: items, .cons hitem hitems, ?_⟩
    intro other hother
    rcases List.mem_cons.mp hother with rfl | hother
    · exact ⟨text, htext⟩
    · exact htexts other hother

theorem writable_isList {shape : α → Tree → Prop} {values : List α}
    (h : ∀ value ∈ values, Writable (shape value)) : Writable (IsList shape values) := by
  obtain ⟨items, hitems, htexts⟩ := exists_forall₂ (R := Written) h
  cases items with
  | nil => exact ⟨_, _, ⟨[], rfl, hitems⟩, .emptyList isGap_nil⟩
  | cons item items =>
    obtain ⟨text, htext⟩ := exists_sequence (List.cons_ne_nil item items) htexts
    exact ⟨_, _, ⟨_, rfl, hitems⟩, .list htext⟩

/-- A member can be written if its value can. -/
theorem exists_member {entry : String × (Tree → Prop)} (h : Writable entry.2) :
    ∃ member text, IsMember entry member ∧ WrittenMember member text := by
  obtain ⟨value, text, hvalue, htext⟩ := h
  obtain ⟨key, hkey⟩ := exists_spellsAll entry.1.toList
  exact ⟨(key, value), _, ⟨hkey, hvalue⟩, .intro hkey.isBody isGap_nil isGap_nil htext⟩

theorem writable_isObject {entries : List (String × (Tree → Prop))}
    (h : entries.Forall fun entry => Writable entry.2) : Writable (IsObject entries) := by
  have hmember : ∀ entry ∈ entries, ∃ member text, IsMember entry member
      ∧ WrittenMember member text := by
    intro entry hentry
    exact exists_member (List.forall_iff_forall_mem.mp h entry hentry)
  obtain ⟨members, hmembers, htexts⟩ := exists_forall₂ hmember
  cases members with
  | nil => exact ⟨_, _, ⟨[], [], rfl, .refl _, hmembers⟩, .emptyObject isGap_nil⟩
  | cons member members =>
    obtain ⟨text, htext⟩ := exists_sequence (List.cons_ne_nil member members) htexts
    exact ⟨_, _, ⟨_, _, rfl, .refl _, hmembers⟩, .object htext⟩

end CallGraph.Json
