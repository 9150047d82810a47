import CallGraph.Proofs.Json.Forms

/-!
# Where values come from

What a tree gives for a field of a record is what the record holds in that field.  So a place in a
tree belongs to a place in the value that the tree stands for.

* `Fields.ReadBy` — the part of a record that one field puts in, and no other;
* `Fields.Lawful.readBy` — the part that belongs to the field at a position;
* `Fields.Given`, `Fields.ReadBy.fills` — what a tree gives for a field, and what the record holds;
* `Fields.Spot`, `Fields.ItemAt` — the places of a field in a record, and of the items in it;
* `Schema.Place.hole_of_writtenAs` — the text around a place;
* `Schema.Locates` — what stands in a place of a tree is found by a lookup in the value;
* `Schema.Locates.exists_field_iff` — a field may hold whatever its schema accepts.
-/

namespace CallGraph.Json

variable {α β γ ρ : Type}

/-! ### Parts of records -/

/-- No change of these fields matters to a part of the record. -/
def Fields.Keep : {ρ : Type} → Fields ρ → (ρ → β) → Prop
  | _, .nil, _ => True
  | _, .cons _ _ set more, get =>
    (∀ value record, get (set value record) = get record) ∧ more.Keep get

section

variable {name : String} {schema : Schema α} {set : α → ρ → ρ} {more : Fields ρ} {get : ρ → β}

@[simp] theorem Fields.keep_nil : (Fields.nil : Fields ρ).Keep get := trivial

@[simp] theorem Fields.keep_cons : (Fields.cons name schema set more).Keep get
    ↔ (∀ value record, get (set value record) = get record) ∧ more.Keep get := .rfl

end

/-- A part of the record is what the first field of a name puts in, and no other field matters. -/
inductive Fields.ReadBy (name : String) (schema : Schema β) (get : ρ → β) : Fields ρ → Prop where
  | here {set : β → ρ → ρ} {more : Fields ρ} (hset : ∀ value record, get (set value record) = value)
    (hmore : more.Keep get) : ReadBy name schema get (.cons name schema set more)
  | there {γ : Type} {other : String} {first : Schema γ} {set : γ → ρ → ρ} {more : Fields ρ}
    (hne : other ≠ name) (hset : ∀ value record, get (set value record) = get record)
    (h : ReadBy name schema get more) : ReadBy name schema get (.cons other first set more)

/-- A part of a record belongs to the way in which a field puts it in: what is put in is read, and
what is read changes nothing when it is put in again. -/
structure IsPart (get : ρ → β) (set : β → ρ → ρ) : Prop where
  get_set (value : β) (record : ρ) : get (set value record) = value
  set_get (record : ρ) : set (get record) record = record

/-- A change that can be swapped with putting a part in leaves the part alone. -/
theorem IsPart.keep {get : ρ → β} {set : β → ρ → ρ} (h : IsPart get set) {change : ρ → ρ}
    (hcommute : ∀ value record, change (set value record) = set value (change record))
    (record : ρ) : get (change record) = get record :=
  calc get (change record)
      = get (change (set (get record) record)) := by rw [h.set_get]
    _ = get (set (get record) (change record)) := by rw [hcommute]
    _ = get record := h.get_set _ _

/-- Fields whose changes can be swapped with putting a part in leave the part alone. -/
theorem IsPart.keep_fields {get : ρ → β} {set : β → ρ → ρ} (h : IsPart get set) {fields : Fields ρ}
    (hcommute : ∀ value, fields.CommuteWith (set value)) : fields.Keep get := by
  match fields with
  | .nil => exact Fields.keep_nil
  | .cons name schema put more =>
    simp only [Fields.commuteWith_cons] at hcommute
    rw [Fields.keep_cons]
    refine ⟨?_, h.keep_fields fun value => (hcommute value).2⟩
    intro value record
    exact h.keep (fun other record => ((hcommute other).1 value record).symm) record

/-- The field at a position: its name, its schema, and how its values are put in. -/
def Fields.field? :
    {ρ : Type} → Fields ρ → Nat → Option ((β : Type) × String × Schema β × (β → ρ → ρ))
  | _, .nil, _ => none
  | _, .cons name schema set _, 0 => some ⟨_, name, schema, set⟩
  | _, .cons _ _ _ more, n + 1 => more.field? n

section

variable {name : String} {schema : Schema β} {set : β → ρ → ρ}

theorem Fields.mem_names_of_field? {fields : Fields ρ} {n : Nat}
    (h : fields.field? n = some ⟨β, name, schema, set⟩) :
    name ∈ fields.names := by
  match fields, n with
  | .nil, _ => cases h
  | .cons _ _ _ _, 0 =>
    cases h
    rw [Fields.names_cons]
    exact List.mem_cons_self
  | .cons _ _ _ more, n + 1 =>
    rw [Fields.names_cons]
    exact List.mem_cons_of_mem _ (Fields.mem_names_of_field? h)

/-- Changes that can be swapped with those of all fields can be with that of one. -/
theorem Fields.CommuteWith.at {fields : Fields ρ} {change : ρ → ρ}
    (hcommute : fields.CommuteWith change) {n : Nat}
    (h : fields.field? n = some ⟨β, name, schema, set⟩) (value : β) (record : ρ) :
    change (set value record) = set value (change record) := by
  match fields, n with
  | .nil, _ => cases h
  | .cons _ _ _ _, 0 =>
    cases h
    rw [Fields.commuteWith_cons] at hcommute
    exact hcommute.1 value record
  | .cons _ _ _ _, n + 1 =>
    rw [Fields.commuteWith_cons] at hcommute
    exact Fields.CommuteWith.at hcommute.2 h value record

/-- **A part of a record belongs to the field at a position** if it belongs to the way in which that
field puts it in: lawful fields do not get in its way. -/
theorem Fields.Lawful.readBy {fields : Fields ρ} (hlawful : fields.Lawful) {n : Nat}
    (h : fields.field? n = some ⟨β, name, schema, set⟩) {get : ρ → β} (hpart : IsPart get set) :
    fields.ReadBy name schema get := by
  obtain ⟨hnames, hcommute⟩ := hlawful
  match fields, n with
  | .nil, _ => cases h
  | .cons _ _ _ _, 0 =>
    cases h
    rw [Fields.commute_cons] at hcommute
    exact .here hpart.get_set (hpart.keep_fields hcommute.1)
  | .cons other _ put more, n + 1 =>
    rw [Fields.commute_cons] at hcommute
    rw [Fields.names_cons, List.nodup_cons] at hnames
    refine .there ?_ ?_ (Fields.Lawful.readBy ⟨hnames.2, hcommute.2⟩ h hpart)
    · rintro rfl
      exact hnames.1 (Fields.mem_names_of_field? h)
    · intro value record
      exact hpart.keep ((hcommute.1 value).at h) record

end

/-- A change by another field leaves a part of the record alone. -/
theorem Schema.Changes.keep {schema : Schema γ} {set : γ → ρ → ρ} {tree : Tree} {change : ρ → ρ}
    (h : schema.Changes set tree change) {get : ρ → β}
    (hset : ∀ value record, get (set value record) = get record) (record : ρ) :
    get (change record) = get record := by
  obtain ⟨-, rfl⟩ | ⟨value, -, rfl⟩ := h
  · rfl
  · exact hset value record

theorem Fields.Keep.column {fields : Fields ρ} {get : ρ → β} (h : fields.Keep get)
    {column : Column ρ} (hcolumn : column ∈ fields.columns) {tree : Tree} {change : ρ → ρ}
    (hchange : column.Means tree change) (record : ρ) : get (change record) = get record := by
  match fields, h, hcolumn with
  | .nil, _, hcolumn =>
    rw [Fields.columns] at hcolumn
    cases hcolumn
  | .cons other first set more, h, hcolumn =>
    rw [Fields.keep_cons] at h
    rw [Fields.columns_cons] at hcolumn
    rcases List.mem_cons.mp hcolumn with rfl | hcolumn
    · exact Schema.Changes.keep hchange h.1 record
    · exact Fields.Keep.column h.2 hcolumn hchange record

theorem Fields.Keep.positions {fields : Fields ρ} {get : ρ → β} (h : fields.Keep get)
    {items : List Tree} {record result : ρ}
    (hpositions : Positions fields.columns record items result) : get result = get record := by
  match fields, items, h, hpositions with
  | _, [], _, hpositions => rw [positions_nil_iff.mp hpositions]
  | .nil, _ :: _, _, hpositions =>
    rw [Fields.columns] at hpositions
    cases hpositions
  | .cons other first set more, item :: items, h, hpositions =>
    rw [Fields.keep_cons] at h
    rw [Fields.columns_cons, positions_cons_iff] at hpositions
    obtain ⟨change, hitem, hitems⟩ := hpositions
    rw [Fields.Keep.positions h.2 hitems]
    exact Schema.Changes.keep hitem h.1 record

section

variable {name : String} {schema : Schema β} {get : ρ → β} {fields : Fields ρ}

theorem Fields.ReadBy.mem_names (h : fields.ReadBy name schema get) : name ∈ fields.names := by
  induction h with
  | here =>
    rw [Fields.names_cons]
    exact List.mem_cons_self
  | there _ _ _ ih =>
    rw [Fields.names_cons]
    exact List.mem_cons_of_mem _ ih

theorem Fields.ReadBy.has (h : fields.ReadBy name schema get) : fields.Has name schema := by
  induction h with
  | here => exact .here
  | there hne _ _ ih => exact .there hne ih

/-- The position of a field is the one of its name. -/
theorem Fields.ReadBy.at (h : fields.ReadBy name schema get) (hnames : fields.names.Nodup)
    {n : Nat} (hname : fields.names[n]? = some name) : fields.At schema n := by
  induction h generalizing n with
  | here =>
    rw [Fields.names_cons] at hnames hname
    cases n with
    | zero => exact .here
    | succ n =>
      have hagain := List.mem_of_getElem? (List.getElem?_cons_succ ▸ hname)
      exact absurd hagain (List.nodup_cons.mp hnames).1
  | there hne _ _ ih =>
    rw [Fields.names_cons] at hnames hname
    cases n with
    | zero => exact absurd (Option.some.inj hname) hne
    | succ n => exact .there (ih (List.nodup_cons.mp hnames).2 hname)

/-- The field of the name puts the part in. -/
theorem Fields.ReadBy.column (h : fields.ReadBy name schema get) :
    ∃ set : β → ρ → ρ, (∀ value record, get (set value record) = value)
      ∧ fields.columns.find? (fun column => column.name = name)
        = some ⟨name, schema.Changes set⟩ := by
  induction h with
  | @here set more hset =>
    refine ⟨set, hset, ?_⟩
    rw [Fields.columns_cons, List.find?_cons]
    simp
  | there hne _ _ ih =>
    obtain ⟨set, hset, hcolumn⟩ := ih
    refine ⟨set, hset, ?_⟩
    rw [Fields.columns_cons, List.find?_cons]
    simp only [hne, decide_false]
    exact hcolumn

/-- Fields of other names leave the part alone. -/
theorem Fields.ReadBy.column_of_ne (h : fields.ReadBy name schema get) {column : Column ρ}
    (hcolumn : column ∈ fields.columns) (hne : column.name ≠ name) {tree : Tree} {change : ρ → ρ}
    (hchange : column.Means tree change) (record : ρ) : get (change record) = get record := by
  induction h with
  | here _ hmore =>
    rw [Fields.columns_cons] at hcolumn
    rcases List.mem_cons.mp hcolumn with rfl | hcolumn
    · exact absurd rfl hne
    · exact hmore.column hcolumn hchange record
  | there _ hset _ ih =>
    rw [Fields.columns_cons] at hcolumn
    rcases List.mem_cons.mp hcolumn with rfl | hcolumn
    · exact Schema.Changes.keep hchange hset record
    · exact ih hcolumn

/-! ### What is given for a field -/

/-- What the tree of a record gives for the field of a name: the value of its member in an object,
the item at its position in a list, or nothing. -/
inductive Fields.Given (name : String) (fields : Fields ρ) : Tree → Option Tree → Prop where
  | member (front back : List (List Char × Tree)) {key : List Char} (tree : Tree)
    (hkey : SpellsAll name.toList key) :
    Given name fields (.object (front ++ (key, tree) :: back)) (some tree)
  | absent {members : List (List Char × Tree)} (h : ∀ member ∈ members, ¬ Spelled name member) :
    Given name fields (.object members) none
  | item (items : List Tree) {n : Nat} (hname : fields.names[n]? = some name) :
    Given name fields (.list items) items[n]?

theorem Fields.Given.ne_null {tree : Tree} {given : Option Tree}
    (h : fields.Given name tree given) : tree ≠ .null := by
  intro hnull
  subst hnull
  cases h

/-- What a field holds that was blank before.  Nothing and null leave it blank, and any other tree
stands for what it holds. -/
def Schema.Fills (schema : Schema β) (blank : β) (given : Option Tree) (value : β) : Prop :=
  (given = none ∨ given = some .null) ∧ value = blank
    ∨ ∃ tree, given = some tree ∧ schema.Means tree value

theorem Schema.Fills.means {blank value : β} {tree : Tree}
    (h : schema.Fills blank (some tree) value) (hnull : tree ≠ .null) :
    schema.Means tree value := by
  obtain ⟨hnone | hgiven, -⟩ | ⟨other, hgiven, hvalue⟩ := h
  · cases hnone
  · exact absurd (Option.some.inj hgiven) hnull
  · rwa [Option.some.inj hgiven]

theorem Schema.Changes.fills {set : β → ρ → ρ} {tree : Tree} {change : ρ → ρ}
    (h : schema.Changes set tree change) (hset : ∀ value record, get (set value record) = value)
    (record : ρ) : schema.Fills (get record) (some tree) (get (change record)) := by
  obtain ⟨rfl, rfl⟩ | ⟨value, hvalue, rfl⟩ := h
  · exact .inl ⟨.inr rfl, rfl⟩
  · rw [hset]
    exact .inr ⟨tree, rfl, hvalue⟩

/-- Members leave the part alone as long as none of them is of the field. -/
theorem Fields.ReadBy.steps (h : fields.ReadBy name schema get)
    {members : List (List Char × Tree)} {p q : Progress ρ}
    (hsteps : Steps (MemberStep fields.columns) p members q)
    (hseen : name ∈ q.seen → name ∈ p.seen) : get q.record = get p.record := by
  induction hsteps with
  | nil => rfl
  | @cons p _ q _ members hstep hrest ih =>
    cases hstep with
    | unknown => exact ih hseen
    | @known _ _ other column change _ hcolumn hnew hvalue =>
      have hother : column.name = other := by simpa using List.find?_some hcolumn
      have hne : other ≠ name := by
        rintro rfl
        exact hnew (hseen (hrest.seen_subset List.mem_cons_self))
      rw [ih fun hname => List.mem_cons_of_mem _ (hseen hname)]
      exact h.column_of_ne (List.mem_of_find?_eq_some hcolumn) (hother ▸ hne) hvalue p.record

/-- Items fill the part at the position of its field. -/
theorem Fields.ReadBy.positions (h : fields.ReadBy name schema get) (hnames : fields.names.Nodup)
    {n : Nat} (hname : fields.names[n]? = some name) {items : List Tree} {record result : ρ}
    (hpositions : Positions fields.columns record items result) :
    schema.Fills (get record) items[n]? (get result) := by
  induction h generalizing n items record with
  | here hset hmore =>
    rw [Fields.names_cons] at hnames hname
    cases n with
    | succ n =>
      have hagain := List.mem_of_getElem? (List.getElem?_cons_succ ▸ hname)
      exact absurd hagain (List.nodup_cons.mp hnames).1
    | zero =>
      rw [Fields.columns_cons] at hpositions
      cases hpositions with
      | nil => exact .inl ⟨.inl rfl, rfl⟩
      | cons hitem hitems =>
        rw [hmore.positions hitems]
        exact Schema.Changes.fills hitem hset record
  | there hne hset _ ih =>
    rw [Fields.names_cons] at hnames hname
    cases n with
    | zero => exact absurd (Option.some.inj hname) hne
    | succ n =>
      rw [Fields.columns_cons] at hpositions
      cases hpositions with
      | nil => exact .inl ⟨.inl rfl, rfl⟩
      | cons hitem hitems =>
        rw [← Schema.Changes.keep hitem hset record]
        exact ih (List.nodup_cons.mp hnames).2 hname hitems

/-- **A field holds what is given for it.** -/
theorem Fields.ReadBy.fills (h : fields.ReadBy name schema get) (hnames : fields.names.Nodup)
    {tree : Tree} {given : Option Tree} (hgiven : fields.Given name tree given)
    {expected : String} {blank record : ρ}
    (hrecord : (Schema.record expected blank fields).Means tree record) :
    schema.Fills (get blank) given (get record) := by
  rw [Schema.Means] at hrecord
  cases hgiven with
  | member front back value hkey =>
    cases hrecord with
    | keyed hsteps =>
      obtain ⟨set, hset, hcolumn⟩ := h.column
      obtain ⟨m, hfront, hrest⟩ := steps_append_iff.mp hsteps
      obtain ⟨n, hstep, hback⟩ := steps_cons_iff.mp hrest
      obtain ⟨hnew, change, hchange, rfl⟩ := (memberStep_known hkey hcolumn).mp hstep
      -- the name is not given before its member, and only once
      have hbefore := h.steps hfront fun hname => absurd hname hnew
      have hbehind := h.steps hback fun _ => List.mem_cons_self
      rw [hbehind, ← hbefore]
      exact hchange.fills hset m.record
  | absent hnone =>
    cases hrecord with
    | keyed hsteps =>
      refine .inl ⟨.inl rfl, h.steps hsteps ?_⟩
      intro hname
      obtain hseen | ⟨member, hmember, hspelled⟩ := hsteps.spelled hname
      · exact hseen
      · exact absurd hspelled (hnone member hmember)
  | item items hname =>
    cases hrecord with
    | positional hpositions => exact h.positions hnames hname hpositions

/-- The tree of a record gives something or nothing for each of its fields. -/
theorem Fields.exists_given (hname : name ∈ fields.names) {tree : Tree} {expected : String}
    {blank record : ρ} (hrecord : (Schema.record expected blank fields).Means tree record) :
    ∃ given, fields.Given name tree given := by
  rw [Schema.Means] at hrecord
  cases hrecord with
  | @keyed members _ _ =>
    by_cases h : ∃ member ∈ members, Spelled name member
    · obtain ⟨⟨key, value⟩, hmember, hkey⟩ := h
      obtain ⟨front, back, rfl⟩ := List.append_of_mem hmember
      exact ⟨_, .member front back value hkey⟩
    · refine ⟨none, .absent ?_⟩
      intro member hmember hspelled
      exact h ⟨member, hmember, hspelled⟩
  | @positional items _ _ =>
    obtain ⟨n, hn⟩ := List.getElem?_of_mem hname
    exact ⟨_, .item items hn⟩

/-- A record holds in each of its fields what its tree gives for it. -/
theorem Fields.ReadBy.exists_fills (h : fields.ReadBy name schema get) (hnames : fields.names.Nodup)
    {tree : Tree} {expected : String} {blank record : ρ}
    (hrecord : (Schema.record expected blank fields).Means tree record) :
    ∃ given, schema.Fills (get blank) given (get record) := by
  obtain ⟨given, hgiven⟩ := Fields.exists_given h.mem_names hrecord
  exact ⟨given, h.fills hnames hgiven hrecord⟩

/-- Each value in a list that a record holds was read from a tree of its own. -/
theorem Fields.ReadBy.exists_means_of_mem {get : ρ → List γ} {schema : Schema γ}
    (h : fields.ReadBy name (.list schema) get) (hnames : fields.names.Nodup) {tree : Tree}
    {expected : String} {blank record : ρ}
    (hrecord : (Schema.record expected blank fields).Means tree record) (hblank : get blank = [])
    {value : γ} (hvalue : value ∈ get record) : ∃ item, schema.Means item value := by
  obtain ⟨given, hfills⟩ := h.exists_fills hnames hrecord
  obtain ⟨-, hempty⟩ | ⟨list, -, hlist⟩ := hfills
  · rw [hempty, hblank] at hvalue
    cases hvalue
  · rw [Schema.Means] at hlist
    obtain ⟨items, -, hitems⟩ := hlist
    obtain ⟨hlength, hmeans⟩ := List.forall₂_iff_get.mp hitems
    obtain ⟨n, hn, rfl⟩ := List.getElem_of_mem hvalue
    exact ⟨_, hmeans n (hlength ▸ hn) hn⟩

/-! ### Places of fields -/

/-- The place of a field in a record: the value of its member in an object, or the item at its
position in a list. -/
inductive Fields.Spot (name : String) (fields : Fields ρ) : (Tree → Tree) → Prop where
  | member (front back : List (List Char × Tree)) {key : List Char}
    (hkey : SpellsAll name.toList key) :
    Spot name fields fun tree => .object (front ++ (key, tree) :: back)
  | item (front back : List Tree) (hname : fields.names[front.length]? = some name) :
    Spot name fields fun tree => .list (front ++ tree :: back)

variable {around : Tree → Tree}

theorem Fields.Spot.given (h : fields.Spot name around) (tree : Tree) :
    fields.Given name (around tree) (some tree) := by
  cases h with
  | member front back hkey => exact .member front back tree hkey
  | item front back hname =>
    have hitem : (front ++ tree :: back)[front.length]? = some tree := by simp
    rw [← hitem]
    exact .item (front ++ tree :: back) hname

theorem Fields.Spot.place (h : fields.Spot name around) (hread : fields.ReadBy name schema get)
    (hnames : fields.names.Nodup) (expected : String) (blank : ρ) :
    schema.Place (.record expected blank fields) around := by
  cases h with
  | member front back hkey => exact .member front back hread.has hkey .here
  | item front back hname => exact .position front back (hread.at hnames hname) .here

/-- **What stands in the place of a field can be exchanged**, also where it is null. -/
theorem Fields.Spot.exchange (h : fields.Spot name around) (hread : fields.ReadBy name schema get)
    (hnames : fields.names.Nodup) {expected : String} {blank record : ρ} {tree : Tree}
    (hrecord : (Schema.record expected blank fields).Means (around tree) record) {other : Tree}
    {value : β} (hvalue : schema.Means other value) :
    ∃ changed, (Schema.record expected blank fields).Means (around other) changed := by
  rw [Schema.Means] at hrecord
  cases h with
  | member front back hkey =>
    cases hrecord with
    | keyed hsteps =>
      obtain ⟨set, _, put, -, -, hput⟩ := hread.has.steps hkey hsteps
      obtain ⟨given, hagain⟩ := hput other (set value) (.inr ⟨value, hvalue, rfl⟩)
      refine ⟨put (set value), ?_⟩
      rw [Schema.Means]
      exact .keyed hagain
  | item front back hname =>
    cases hrecord with
    | positional hpositions =>
      obtain ⟨set, _, put, -, -, hput⟩ := (hread.at hnames hname).positions rfl hpositions
      refine ⟨put (set value), ?_⟩
      rw [Schema.Means]
      exact .positional (hput other (set value) (.inr ⟨value, hvalue, rfl⟩))

end

/-! ### Places in texts -/

/-- **A whole text of a tree holds a text of what stands in a place**, and any text of what is put
there instead may stand there. -/
theorem Schema.Place.hole_of_writtenAs {inner : Schema β} {outer : Schema α} {around : Tree → Tree}
    (place : inner.Place outer around) {tree : Tree} {text : String}
    (h : (around tree).WrittenAs text) :
    ∃ before piece behind, text = String.ofList (before ++ (piece ++ behind)) ∧ Written tree piece
      ∧ ∀ other written, Written other written →
        (around other).WrittenAs (String.ofList (before ++ (written ++ behind))) := by
  obtain ⟨gap, whole, tail, hwhole, hgap, htail, rfl⟩ := h
  obtain ⟨before, piece, behind, rfl, hpiece, hput⟩ := place.hole hwhole
  refine ⟨gap ++ before, piece, behind ++ tail, ?_, hpiece, ?_⟩
  · simp only [List.append_assoc]
  · intro other written hwritten
    refine ⟨gap, _, tail, hput other written hwritten, hgap, htail, ?_⟩
    simp only [List.append_assoc]

/-! ### Places in values -/

/-- A place inside a place. -/
theorem Schema.Place.trans {inner : Schema γ} {middle : Schema β} {outer : Schema α}
    {close around : Tree → Tree} (hinner : inner.Place middle close)
    (houter : middle.Place outer around) : inner.Place outer fun tree => around (close tree) := by
  induction houter with
  | here => exact hinner
  | map _ ih => exact .map ih
  | item front back _ ih => exact .item front back ih
  | member front back hfield hkey _ ih => exact .member front back hfield hkey ih
  | position front back hfield _ ih => exact .position front back hfield ih

/-- What stands in a place of a tree is found by a lookup in the value that the tree stands for. -/
structure Schema.Locates (inner : Schema β) (outer : Schema α) (around : Tree → Tree)
    (find : α → Option β) : Prop where
  place : inner.Place outer around
  found {tree : Tree} {value : α} (hnull : tree ≠ .null) (h : outer.Means (around tree) value) :
    ∃ v, find value = some v ∧ inner.Means tree v

section

variable {inner : Schema γ} {middle : Schema β} {outer : Schema α} {close around : Tree → Tree}

/-- A lookup inside a lookup. -/
theorem Schema.Locates.trans {get : β → Option γ} {find : α → Option β}
    (hinner : inner.Locates middle close get) (houter : middle.Locates outer around find) :
    inner.Locates outer (fun tree => around (close tree)) fun value => (find value).bind get where
  place := hinner.place.trans houter.place
  found := by
    intro tree value hnull h
    obtain ⟨v, hv, hmeans⟩ := houter.found (hinner.place.ne_null hnull) h
    obtain ⟨w, hw, htree⟩ := hinner.found hnull hmeans
    refine ⟨w, ?_, htree⟩
    rw [hv, Option.bind_some, hw]

/-- A field of a record is a part of it. -/
theorem Fields.Spot.locates {name : String} {get : ρ → β} {fields : Fields ρ}
    (h : fields.Spot name around) (hread : fields.ReadBy name middle get)
    (hnames : fields.names.Nodup) (expected : String) (blank : ρ) :
    middle.Locates (.record expected blank fields) around fun record => some (get record) where
  place := h.place hread hnames expected blank
  found := by
    intro tree record hnull hrecord
    exact ⟨get record, rfl, (hread.fills hnames (h.given tree) hrecord).means hnull⟩

/-- An item of a list is found at its position. -/
theorem locates_item (schema : Schema β) (front back : List Tree) :
    schema.Locates (.list schema) (fun tree => .list (front ++ tree :: back))
      fun values => values[front.length]? where
  place := .item front back .here
  found := by
    intro tree values _ h
    rw [Schema.Means] at h
    obtain ⟨items, hitems, hvalues⟩ := h
    obtain rfl := Tree.list.inj hitems
    obtain ⟨hlength, hmeans⟩ := List.forall₂_iff_get.mp hvalues
    have hitem : front.length < (front ++ tree :: back).length := by simp
    have hvalue := hlength ▸ hitem
    refine ⟨values[front.length], List.getElem?_eq_getElem hvalue, ?_⟩
    simpa using hmeans front.length hitem hvalue

/-- The place of an item in the list that a field of a record holds. -/
inductive Fields.ItemAt (name : String) (fields : Fields ρ) : Nat → (Tree → Tree) → Prop where
  | intro {around : Tree → Tree} (front back : List Tree) (h : fields.Spot name around) :
    ItemAt name fields front.length fun tree => around (.list (front ++ tree :: back))

theorem Fields.ItemAt.locates {name : String} {schema : Schema β} {get : ρ → List β}
    {fields : Fields ρ} {n : Nat} (h : fields.ItemAt name n around)
    (hread : fields.ReadBy name (.list schema) get) (hnames : fields.names.Nodup)
    (expected : String) (blank : ρ) :
    schema.Locates (.record expected blank fields) around fun record => (get record)[n]? := by
  cases h with
  | intro front back hspot =>
    exact (locates_item schema front back).trans (hspot.locates hread hnames expected blank)

/-- What may be missing is there where it is given. -/
theorem locates_some (schema : Schema β) : schema.Locates (.map some schema) id id where
  place := .map .here
  found := by
    intro tree value _ h
    rw [Schema.Means] at h
    obtain ⟨v, hv, rfl⟩ := h
    exact ⟨v, rfl, hv⟩

/-- **A field may hold whatever its schema accepts**: with a tree in the place of a field, another
tree stands for a value exactly if the field's schema accepts that tree. -/
theorem Schema.Locates.exists_field_iff {name : String} {get : ρ → β} {fields : Fields ρ}
    {expected : String} {blank : ρ} {find : α → Option ρ}
    (h : (Schema.record expected blank fields).Locates outer around find)
    (hspot : fields.Spot name close) (hread : fields.ReadBy name middle get)
    (hnames : fields.names.Nodup) {tree : Tree} {value : α}
    (hvalue : outer.Means (around (close tree)) value) {other : Tree} (hother : other ≠ .null) :
    (∃ changed, outer.Means (around (close other)) changed) ↔ ∃ v, middle.Means other v := by
  have hclose (tree : Tree) : close tree ≠ .null := by
    intro hnull
    cases hspot <;> cases hnull
  constructor
  · rintro ⟨changed, hchanged⟩
    obtain ⟨v, -, hv⟩ := ((hspot.locates hread hnames expected blank).trans h).found hother hchanged
    exact ⟨v, hv⟩
  · rintro ⟨v, hv⟩
    obtain ⟨record, put, hrecord, -, hput⟩ := h.place.means (hclose tree) hvalue
    obtain ⟨changed, hchanged⟩ := hspot.exchange hread hnames hrecord hv
    exact ⟨put changed, hput _ _ hchanged⟩

end

end CallGraph.Json
