import CallGraph.Proofs.Json.Members
import CallGraph.Proofs.Json.Unambiguous

/-!
# Places in trees

A schema says which values stand inside others: items in lists, and field values in records, under
their names or at their positions.  A place is a way down to such a value, given as the tree around
it.  What stands in a place can be exchanged, in the tree as in its texts.

* `Fields.Has`, `Fields.At` — a field by its name, or by its position;
* `Schema.Place` — a value of one schema inside a value of another;
* `Schema.Place.means` — a value in its place may be exchanged for any other;
* `Hole`, `Schema.Place.hole` — a text of the tree holds a text of what stands in the place.
-/

namespace CallGraph.Json

variable {α β ρ : Type}

/-! ### Fields of records -/

/-- The first field of a name. -/
inductive Fields.Has {β : Type} (name : String) (schema : Schema β) :
    {ρ : Type} → Fields ρ → Prop where
  | here {ρ : Type} {set : β → ρ → ρ} {more : Fields ρ} :
      Has name schema (.cons name schema set more)
  | there {ρ γ : Type} {other : String} {first : Schema γ} {set : γ → ρ → ρ} {more : Fields ρ}
    (hne : other ≠ name) (h : Has name schema more) : Has name schema (.cons other first set more)

/-- The field at a position. -/
inductive Fields.At {β : Type} (schema : Schema β) : {ρ : Type} → Nat → Fields ρ → Prop where
  | here {ρ : Type} {name : String} {set : β → ρ → ρ} {more : Fields ρ} :
    At schema 0 (.cons name schema set more)
  | there {ρ γ : Type} {name : String} {first : Schema γ} {set : γ → ρ → ρ} {more : Fields ρ}
    {n : Nat} (h : At schema n more) : At schema (n + 1) (.cons name first set more)

/-- A field is found as a column under its name. -/
theorem Fields.Has.column {name : String} {schema : Schema β} {fields : Fields ρ}
    (h : fields.Has name schema) : ∃ set : β → ρ → ρ,
      fields.columns.find? (fun column => column.name = name)
        = some ⟨name, schema.Changes set⟩ := by
  induction h with
  | @here set more =>
    refine ⟨set, ?_⟩
    rw [Fields.columns_cons, List.find?_cons]
    simp
  | there hne _ ih =>
    obtain ⟨set, hcolumn⟩ := ih
    refine ⟨set, ?_⟩
    rw [Fields.columns_cons, List.find?_cons]
    simp only [hne, decide_false]
    exact hcolumn

/-- Items change a record in one way, whatever it holds before. -/
theorem Positions.transfer {columns : List (Column ρ)} {record result : ρ} {items : List Tree}
    (h : Positions columns record items result) :
    ∃ change : ρ → ρ, result = change record
      ∧ ∀ record, Positions columns record items (change record) := by
  induction h with
  | nil record => exact ⟨id, rfl, fun record => .nil record⟩
  | @cons column columns record result item items first hitem _ ih =>
    obtain ⟨change, hresult, htransfer⟩ := ih
    exact ⟨change ∘ first, hresult, fun record => .cons hitem (htransfer (first record))⟩

/-- The item at the position of a field makes a change of the field. -/
theorem Fields.At.positions {schema : Schema β} {fields : Fields ρ} {n : Nat}
    (h : fields.At schema n) {front back : List Tree} (hn : front.length = n) {tree : Tree}
    {record result : ρ}
    (hpositions : Positions fields.columns record (front ++ tree :: back) result) :
    ∃ (set : β → ρ → ρ) (change : ρ → ρ) (put : (ρ → ρ) → ρ), schema.Changes set tree change
      ∧ put change = result ∧ ∀ other change, schema.Changes set other change →
        Positions fields.columns record (front ++ other :: back) (put change) := by
  induction h generalizing front record with
  | here =>
    obtain rfl := List.length_eq_zero_iff.mp hn
    rw [Fields.columns_cons] at hpositions ⊢
    cases hpositions with
    | cons hitem hitems =>
      obtain ⟨after, rfl, htransfer⟩ := hitems.transfer
      exact ⟨_, _, fun change => after (change record), hitem, rfl,
        fun other change hother => .cons hother (htransfer (change record))⟩
  | there _ ih =>
    obtain ⟨first, front, rfl⟩ := List.exists_cons_of_length_eq_add_one hn
    rw [Fields.columns_cons] at hpositions ⊢
    cases hpositions with
    | cons hitem hitems =>
      obtain ⟨set, change, put, htree, hresult, hput⟩ := ih (by simpa using hn) hitems
      exact ⟨set, change, put, htree, hresult,
        fun other change hother => .cons hitem (hput other change hother)⟩

/-- The member under the name of a field makes a change of the field. -/
theorem Fields.Has.steps {name : String} {schema : Schema β} {fields : Fields ρ}
    (h : fields.Has name schema) {key : List Char} (hkey : SpellsAll name.toList key)
    {front back : List (List Char × Tree)} {tree : Tree} {p q : Progress ρ}
    (hsteps : Steps (MemberStep fields.columns) p (front ++ (key, tree) :: back) q) :
    ∃ (set : β → ρ → ρ) (change : ρ → ρ) (put : (ρ → ρ) → ρ), schema.Changes set tree change
      ∧ put change = q.record ∧ ∀ other change, schema.Changes set other change →
        ∃ given, Steps (MemberStep fields.columns) p (front ++ (key, other) :: back)
          ⟨given, put change⟩ := by
  obtain ⟨set, hcolumn⟩ := h.column
  obtain ⟨m, hfront, hrest⟩ := steps_append_iff.mp hsteps
  obtain ⟨n, hstep, hback⟩ := steps_cons_iff.mp hrest
  obtain ⟨hnew, change, hchange, rfl⟩ := (memberStep_known hkey hcolumn).mp hstep
  obtain ⟨after, hrecord, htransfer⟩ := hback.transfer
  refine ⟨set, change, fun change => after (change m.record), hchange, hrecord.symm, ?_⟩
  intro other change hother
  obtain ⟨given, hagain⟩ :=
    htransfer (name :: m.seen) (change m.record) fun name hname => .inl hname
  have hstep := (memberStep_known hkey hcolumn).mpr ⟨hnew, change, hother, rfl⟩
  exact ⟨given, steps_append_iff.mpr ⟨m, hfront, .cons hstep hagain⟩⟩

/-! ### Places -/

/-- A value of a schema inside a value of another, with the tree around it. -/
inductive Schema.Place {β : Type} (inner : Schema β) :
    {α : Type} → Schema α → (Tree → Tree) → Prop where
  | here : Place inner inner id
  | map {α γ : Type} {f : γ → α} {schema : Schema γ} {around : Tree → Tree}
    (h : Place inner schema around) : Place inner (.map f schema) around
  | item {α : Type} {schema : Schema α} {around : Tree → Tree} (front back : List Tree)
    (h : Place inner schema around) :
    Place inner (.list schema) fun tree => .list (front ++ around tree :: back)
  | member {ρ γ : Type} {expected : String} {blank : ρ} {fields : Fields ρ} {name : String}
    {schema : Schema γ} {around : Tree → Tree} {key : List Char}
    (front back : List (List Char × Tree)) (hfield : fields.Has name schema)
    (hkey : SpellsAll name.toList key) (h : Place inner schema around) :
    Place inner (.record expected blank fields) fun tree =>
      .object (front ++ (key, around tree) :: back)
  | position {ρ γ : Type} {expected : String} {blank : ρ} {fields : Fields ρ} {schema : Schema γ}
    {around : Tree → Tree} (front back : List Tree) (hfield : fields.At schema front.length)
    (h : Place inner schema around) :
    Place inner (.record expected blank fields) fun tree => .list (front ++ around tree :: back)

namespace Schema.Place

variable {inner : Schema β} {schema : Schema α} {around : Tree → Tree} {tree : Tree}

theorem ne_null (place : inner.Place schema around) (h : tree ≠ .null) : around tree ≠ .null := by
  induction place with
  | here => exact h
  | map _ ih => exact ih
  | item | member | position => nofun

/-- A list of values with a value in the middle. -/
theorem forall₂_middle {γ : Type} {M : Tree → γ → Prop} {front back : List Tree} {values : List γ}
    (h : List.Forall₂ M (front ++ tree :: back) values) :
    ∃ before value behind, values = before ++ value :: behind ∧ M tree value
      ∧ ∀ other v, M other v →
        List.Forall₂ M (front ++ other :: back) (before ++ v :: behind) := by
  induction front generalizing values with
  | nil =>
    cases h with
    | cons hvalue hback => exact ⟨[], _, _, rfl, hvalue, fun other v hv => .cons hv hback⟩
  | cons first front ih =>
    cases h with
    | cons hfirst hrest =>
      obtain ⟨before, value, behind, rfl, hvalue, hput⟩ := ih hrest
      exact ⟨_ :: before, value, behind, rfl, hvalue,
        fun other v hv => .cons hfirst (hput other v hv)⟩

/-- **What stands in a place can be exchanged in a field** as in the field's value, since the change
that the field makes is not nothing. -/
theorem changes {ρ : Type} (place : inner.Place schema around) (hnull : tree ≠ .null)
    (hvalue : ∀ {value : α}, schema.Means (around tree) value →
      ∃ (v : β) (put : β → α), inner.Means tree v ∧ put v = value
        ∧ ∀ other w, inner.Means other w → schema.Means (around other) (put w))
    {set : α → ρ → ρ} {change : ρ → ρ} (h : schema.Changes set (around tree) change) :
    ∃ (v : β) (put : β → ρ → ρ), inner.Means tree v ∧ put v = change
      ∧ ∀ other w, inner.Means other w → schema.Changes set (around other) (put w) := by
  rcases h with ⟨hnone, -⟩ | ⟨u, hu, rfl⟩
  · exact absurd hnone (place.ne_null hnull)
  · obtain ⟨v, put, hv, rfl, hput⟩ := hvalue hu
    exact ⟨v, set ∘ put, hv, rfl, fun other w hw => .inr ⟨_, hput other w hw, rfl⟩⟩

/-- **What stands in a place can be exchanged**: in a tree that stands for a value, a value stands
in the place, and any other that is put there makes the tree stand for a value again, which depends
on what was put there only. -/
theorem means (place : inner.Place schema around) (hnull : tree ≠ .null) {value : α}
    (h : schema.Means (around tree) value) :
    ∃ (v : β) (put : β → α), inner.Means tree v ∧ put v = value
      ∧ ∀ other w, inner.Means other w → schema.Means (around other) (put w) := by
  induction place with
  | here => exact ⟨value, id, h, rfl, fun other w hw => hw⟩
  | map _ ih =>
    rw [Schema.Means] at h
    obtain ⟨u, hu, rfl⟩ := h
    obtain ⟨v, put, hv, rfl, hput⟩ := ih hu
    refine ⟨v, _ ∘ put, hv, rfl, ?_⟩
    intro other w hw
    rw [Schema.Means]
    exact ⟨put w, hput other w hw, rfl⟩
  | item front back _ ih =>
    rw [Schema.Means] at h
    obtain ⟨items, hitems, hvalues⟩ := h
    obtain rfl := Tree.list.inj hitems
    obtain ⟨before, u, behind, rfl, hu, hmiddle⟩ := forall₂_middle hvalues
    obtain ⟨v, put, hv, rfl, hput⟩ := ih hu
    refine ⟨v, fun w => before ++ put w :: behind, hv, rfl, ?_⟩
    intro other w hw
    rw [Schema.Means]
    exact ⟨_, rfl, hmiddle _ _ (hput other w hw)⟩
  | member front back hhas hkey place ih =>
    rw [Schema.Means] at h
    cases h with
    | keyed hsteps =>
      obtain ⟨set, change, putChange, hchange, hrecord, hagain⟩ := hhas.steps hkey hsteps
      obtain ⟨v, put, hv, rfl, hput⟩ := place.changes hnull ih hchange
      refine ⟨v, putChange ∘ put, hv, hrecord, ?_⟩
      intro other w hw
      obtain ⟨given, hsteps⟩ := hagain _ _ (hput other w hw)
      rw [Schema.Means]
      exact .keyed hsteps
  | position front back hat place ih =>
    rw [Schema.Means] at h
    cases h with
    | positional hpositions =>
      obtain ⟨set, change, putChange, hchange, hrecord, hagain⟩ := hat.positions rfl hpositions
      obtain ⟨v, put, hv, rfl, hput⟩ := place.changes hnull ih hchange
      refine ⟨v, putChange ∘ put, hv, hrecord, ?_⟩
      intro other w hw
      rw [Schema.Means]
      exact .positional (hagain _ _ (hput other w hw))

end Schema.Place

/-! ### Texts of places -/

/-- A text of a sequence holds a text of each of its items, and any other text of an item may stand
there. -/
theorem Sequence.hole {R : α → List Char → Prop} {front back : List α} {a : α} {text : List Char}
    (h : Sequence R (front ++ a :: back) text) :
    ∃ before item behind, text = before ++ (item ++ behind) ∧ R a item
      ∧ ∀ b other, R b other → Sequence R (front ++ b :: back) (before ++ (other ++ behind)) := by
  generalize hitems : front ++ a :: back = items at h
  induction h generalizing front with
  | @last first before text behind hbefore ha hbehind =>
    cases front with
    | nil =>
      obtain ⟨rfl, rfl⟩ := List.cons.inj hitems
      exact ⟨before, text, behind, rfl, ha, fun b other hb => .last hbefore hb hbehind⟩
    | cons f front => simp at hitems
  | @more first items before text behind rest hbefore hfirst hbehind hrest ih =>
    cases front with
    | nil =>
      obtain ⟨rfl, rfl⟩ := List.cons.inj hitems
      exact ⟨before, text, behind ++ ',' :: rest, rfl, hfirst,
        fun b other hb => .more hbefore hb hbehind hrest⟩
    | cons f front =>
      obtain ⟨rfl, hrests⟩ := List.cons.inj hitems
      obtain ⟨lead, item, trail, rfl, hitem, hput⟩ := ih hrests
      refine ⟨before ++ (text ++ (behind ++ ',' :: lead)), item, trail, ?_, hitem, ?_⟩
      · simp only [List.append_assoc, List.cons_append]
      · intro b other hb
        have hmore := Sequence.more hbefore hfirst hbehind (hput b other hb)
        simpa only [List.append_assoc, List.cons_append] using hmore

/-- A text of a member holds a text of its value. -/
theorem WrittenMember.hole {key text : List Char} {tree : Tree}
    (h : WrittenMember (key, tree) text) :
    ∃ before piece, text = before ++ piece ∧ Written tree piece
      ∧ ∀ other written,
        Written other written → WrittenMember (key, other) (before ++ written) := by
  cases h with
  | @intro _ before behind piece _ hkey hbefore hbehind hvalue =>
    refine ⟨'"' :: (key ++ '"' :: (before ++ ':' :: behind)), piece, ?_, hvalue, ?_⟩
    · simp only [List.append_assoc, List.cons_append]
    · intro other written hwritten
      have hmember := WrittenMember.intro hkey hbefore hbehind hwritten
      simpa only [List.append_assoc, List.cons_append] using hmember

/-- A text holds a text of a tree, and texts of other trees may stand there in the tree around
it. -/
def Hole (around : Tree → Tree) (tree : Tree) (text : List Char) : Prop :=
  ∃ before piece behind, text = before ++ (piece ++ behind) ∧ Written tree piece
    ∧ ∀ other written,
      Written other written → Written (around other) (before ++ (written ++ behind))

/-- A text inside a text inside a text. -/
theorem Hole.inside {outer around : Tree → Tree} {tree : Tree} {text : List Char}
    (h : Hole outer (around tree) text)
    (hpiece : ∀ {piece : List Char}, Written (around tree) piece → Hole around tree piece) :
    Hole (fun tree => outer (around tree)) tree text := by
  obtain ⟨lead, middle, trail, rfl, hmiddle, hputOuter⟩ := h
  obtain ⟨before, piece, behind, rfl, hwritten, hput⟩ := hpiece hmiddle
  refine ⟨lead ++ before, piece, behind ++ trail, ?_, hwritten, ?_⟩
  · simp only [List.append_assoc]
  · intro other written hother
    have hwhole := hputOuter _ _ (hput other written hother)
    simpa only [List.append_assoc] using hwhole

/-- A text of a list holds a text of each of its items. -/
theorem Written.hole_list {front back : List Tree} {tree : Tree} {text : List Char}
    (h : Written (.list (front ++ tree :: back)) text) :
    Hole (fun tree => .list (front ++ tree :: back)) tree text := by
  generalize hlist : Tree.list (front ++ tree :: back) = whole at h
  cases h with
  | list hitems =>
    obtain rfl := Tree.list.inj hlist
    obtain ⟨before, piece, behind, rfl, hpiece, hput⟩ := hitems.hole
    refine ⟨'[' :: before, piece, behind ++ [']'], ?_, hpiece, ?_⟩
    · simp only [List.append_assoc, List.cons_append]
    · intro other written hwritten
      have hwhole := Written.list (hput other written hwritten)
      simpa only [List.append_assoc, List.cons_append] using hwhole
  | emptyList => simp at hlist
  | _ => cases hlist

/-- A text of an object holds a text of the value of each of its members. -/
theorem Written.hole_object {front back : List (List Char × Tree)} {key : List Char} {tree : Tree}
    {text : List Char} (h : Written (.object (front ++ (key, tree) :: back)) text) :
    Hole (fun tree => .object (front ++ (key, tree) :: back)) tree text := by
  generalize hobject : Tree.object (front ++ (key, tree) :: back) = whole at h
  cases h with
  | object hmembers =>
    obtain rfl := Tree.object.inj hobject
    obtain ⟨lead, member, trail, rfl, hmember, hput⟩ := hmembers.hole
    obtain ⟨before, piece, rfl, hpiece, hputValue⟩ := hmember.hole
    refine ⟨'\x7b' :: (lead ++ before), piece, trail ++ ['\x7d'], ?_, hpiece, ?_⟩
    · simp only [List.append_assoc, List.cons_append]
    · intro other written hwritten
      have hwhole := Written.object (hput _ _ (hputValue other written hwritten))
      simpa only [List.append_assoc, List.cons_append] using hwhole
  | emptyObject => simp at hobject
  | _ => cases hobject

/-- **A text of a tree holds a text of what stands in a place**, and any text of what is put there
instead may stand there. -/
theorem Schema.Place.hole {inner : Schema β} {schema : Schema α} {around : Tree → Tree}
    (place : inner.Place schema around) {tree : Tree} {text : List Char}
    (h : Written (around tree) text) : Hole around tree text := by
  induction place generalizing text with
  | here => exact ⟨[], text, [], by simp, h, fun other written hwritten => by simpa using hwritten⟩
  | map _ ih => exact ih h
  | item front back _ ih | position front back _ _ ih => exact h.hole_list.inside ih
  | member front back _ _ _ ih => exact h.hole_object.inside ih

end CallGraph.Json
