import CallGraph.Proofs.Json.Places

/-!
# Editing the records of a tree

A record object of a tree, wherever a schema expects it, may be edited in ways that do not change
what the tree stands for.  Its texts are edited with it: the text of a member is put in or taken
out, with the comma that belongs to it.

* `Schema.RecordPlace` — a place where a record is expected, with the names of its fields;
* `Schema.Lawful` — the fields of all records do not get in each other's way;
* `Schema.Gains`, `Schema.Reorders` — the edits, with the members that change nothing;
* `Schema.not_means_repeated` — a tree with a known name twice in a record stands for nothing;
* `Gains.exists_more`, `Gains.exists_less` — the texts of edited trees.
-/

namespace CallGraph.Json

variable {α β : Type}

/-! ### Lawful schemas -/

mutual

/-- The fields of every record of a schema do not get in each other's way. -/
def Schema.Lawful : {α : Type} → Schema α → Prop
  | _, .text | _, .flag | _, .word _ _ => True
  | _, .list item => item.Lawful
  | _, .record _ _ fields => fields.Lawful ∧ fields.LawfulInside
  | _, .map _ schema => schema.Lawful

/-- The schemas of all fields are lawful. -/
def Fields.LawfulInside : {ρ : Type} → Fields ρ → Prop
  | _, .nil => True
  | _, .cons _ schema _ more => schema.Lawful ∧ more.LawfulInside

end

section

variable {ρ : Type} {item : Schema α} {fields more : Fields ρ} {set : α → ρ → ρ} {name : String}

@[simp] theorem Schema.lawful_text : Schema.text.Lawful := trivial

@[simp] theorem Schema.lawful_flag : Schema.flag.Lawful := trivial

@[simp] theorem Schema.lawful_word (expected : String) (size : Nat) :
    (Schema.word expected size).Lawful := trivial

@[simp] theorem Schema.lawful_list : (Schema.list item).Lawful ↔ item.Lawful := .rfl

@[simp] theorem Schema.lawful_record {expected : String} {blank : ρ} :
    (Schema.record expected blank fields).Lawful ↔ fields.Lawful ∧ fields.LawfulInside := .rfl

@[simp] theorem Schema.lawful_map {f : α → β} : (Schema.map f item).Lawful ↔ item.Lawful := .rfl

@[simp] theorem Fields.lawfulInside_nil : (Fields.nil : Fields ρ).LawfulInside := trivial

@[simp] theorem Fields.lawfulInside_cons :
    (Fields.cons name item set more).LawfulInside ↔ item.Lawful ∧ more.LawfulInside := .rfl

end

theorem Fields.Has.lawful {ρ : Type} {name : String} {schema : Schema β} {fields : Fields ρ}
    (h : fields.Has name schema) (hlawful : fields.LawfulInside) : schema.Lawful := by
  induction h with
  | here =>
    rw [Fields.lawfulInside_cons] at hlawful
    exact hlawful.1
  | there _ _ ih =>
    rw [Fields.lawfulInside_cons] at hlawful
    exact ih hlawful.2

theorem Fields.At.lawful {ρ : Type} {n : Nat} {schema : Schema β} {fields : Fields ρ}
    (h : fields.At schema n) (hlawful : fields.LawfulInside) : schema.Lawful := by
  induction h with
  | here =>
    rw [Fields.lawfulInside_cons] at hlawful
    exact hlawful.1
  | there _ ih =>
    rw [Fields.lawfulInside_cons] at hlawful
    exact ih hlawful.2

theorem Schema.Place.lawful {inner : Schema β} {schema : Schema α} {around : Tree → Tree}
    (place : inner.Place schema around) (h : schema.Lawful) : inner.Lawful := by
  induction place with
  | here => exact h
  | map _ ih => exact ih (Schema.lawful_map.mp h)
  | item _ _ _ ih => exact ih (Schema.lawful_list.mp h)
  | member _ _ hfield _ _ ih => exact ih (hfield.lawful (Schema.lawful_record.mp h).2)
  | position _ _ hfield _ ih => exact ih (hfield.lawful (Schema.lawful_record.mp h).2)

/-! ### Places of records -/

/-- A place where a record is expected, with the names of its fields. -/
inductive Schema.RecordPlace (schema : Schema α) : List String → (Tree → Tree) → Prop where
  | intro {ρ : Type} {expected : String} {blank : ρ} {fields : Fields ρ} {around : Tree → Tree}
    (place : (Schema.record expected blank fields).Place schema around) :
    RecordPlace schema fields.names around

/-- A tree stands for a value with the record objects in its places, and any other object of the
same record may stand there. -/
theorem Schema.RecordPlace.means {schema : Schema α} {names : List String} {around : Tree → Tree}
    (place : schema.RecordPlace names around) {members : List (List Char × Tree)} {value : α}
    (h : schema.Means (around (.object members)) value) :
    ∃ (ρ : Type) (blank : ρ) (fields : Fields ρ) (q : Progress ρ), fields.names = names
      ∧ (schema.Lawful → fields.Lawful)
      ∧ Steps (MemberStep fields.columns) ⟨[], blank⟩ members q
      ∧ ∀ others given, Steps (MemberStep fields.columns) ⟨[], blank⟩ others ⟨given, q.record⟩ →
        schema.Means (around (.object others)) value := by
  cases place with
  | @intro ρ expected blank fields _ place =>
    have hnull : Tree.object members ≠ .null := nofun
    obtain ⟨record, put, hrecord, rfl, hput⟩ := place.means hnull h
    rw [Schema.Means] at hrecord
    cases hrecord with
    | @keyed _ q hsteps =>
      refine ⟨ρ, blank, fields, q, rfl, ?_, hsteps, ?_⟩
      · intro hlawful
        have hinner := place.lawful hlawful
        rw [Schema.lawful_record] at hinner
        exact hinner.1
      · intro others given hothers
        apply hput
        rw [Schema.Means]
        exact .keyed (p := ⟨given, q.record⟩) hothers

/-! ### Edits -/

/-- A record object gains a member.  Whether it may depends on the names of the record's fields and
on the other members. -/
inductive Schema.Gains (schema : Schema α)
    (allowed : List String → List (List Char × Tree) → List Char × Tree → Prop)
    (member : List Char × Tree) : Tree → Tree → Prop where
  | intro {names : List String} {around : Tree → Tree} (front back : List (List Char × Tree))
    (place : schema.RecordPlace names around) (h : allowed names (front ++ back) member) :
    Gains schema allowed member (around (.object (front ++ back)))
      (around (.object (front ++ member :: back)))

/-- A member whose key is not the name of a field. -/
def IsUnknown (names : List String) (_ : List (List Char × Tree)) (member : List Char × Tree) :
    Prop :=
  ∃ name, name ∉ names ∧ Spelled name member

/-- A member of a field that is null. -/
def IsNull (names : List String) (_ : List (List Char × Tree)) (member : List Char × Tree) : Prop :=
  member.2 = .null ∧ ∃ name, name ∈ names ∧ Spelled name member

/-- A member of a field that is null, where no other member is of that field. -/
def IsMissing (names : List String) (others : List (List Char × Tree))
    (member : List Char × Tree) : Prop :=
  member.2 = .null ∧ ∃ name, name ∈ names ∧ Spelled name member
    ∧ ∀ other ∈ others, ¬ Spelled name other

/-- A record object loses a member of a field that is null. -/
def Schema.LosesNull (schema : Schema α) (tree less : Tree) : Prop :=
  ∃ member, schema.Gains IsNull member less tree

/-- The members of a record object are put in another order. -/
inductive Schema.Reorders (schema : Schema α) : Tree → Tree → Prop where
  | intro {names : List String} {around : Tree → Tree} {members others : List (List Char × Tree)}
    (place : schema.RecordPlace names around) (hperm : members.Perm others) :
    Reorders schema (around (.object members)) (around (.object others))

section

variable {schema : Schema α} {tree edited : Tree} {member : List Char × Tree} {value : α}

/-- Unknown members do not change what a tree stands for. -/
theorem Schema.Gains.means_of_unknown (h : schema.Gains IsUnknown member tree edited)
    (hvalue : schema.Means tree value) : schema.Means edited value := by
  cases h with
  | intro front back place hunknown =>
    obtain ⟨name, hname, hkey⟩ := hunknown
    obtain ⟨ρ, blank, fields, q, rfl, -, hsteps, hput⟩ := place.means hvalue
    exact hput _ q.seen (steps_insert_unknown hkey hname member.2 hsteps)

/-- Null members of fields can be left out. -/
theorem Schema.Gains.means_of_null (h : schema.Gains IsNull member edited tree)
    (hvalue : schema.Means tree value) : schema.Means edited value := by
  cases h with
  | intro front back place hnull =>
    obtain ⟨key, _⟩ := member
    obtain ⟨rfl, name, hname, hkey⟩ := hnull
    obtain ⟨ρ, blank, fields, q, rfl, -, hsteps, hput⟩ := place.means hvalue
    obtain ⟨given, hothers⟩ := steps_erase_null hkey hname hsteps
    exact hput _ given hothers

/-- Null members of missing fields can be put in. -/
theorem Schema.Gains.means_of_missing (h : schema.Gains IsMissing member tree edited)
    (hvalue : schema.Means tree value) : schema.Means edited value := by
  cases h with
  | intro front back place hmissing =>
    obtain ⟨key, _⟩ := member
    obtain ⟨rfl, name, hname, hkey, hnone⟩ := hmissing
    obtain ⟨ρ, blank, fields, q, rfl, -, hsteps, hput⟩ := place.means hvalue
    obtain ⟨given, hothers⟩ := steps_insert_null hkey hname List.not_mem_nil hnone hsteps
    exact hput _ given hothers

/-- The order of members does not change what a tree stands for. -/
theorem Schema.Reorders.means (hlawful : schema.Lawful) (h : schema.Reorders tree edited)
    (hvalue : schema.Means tree value) : schema.Means edited value := by
  cases h with
  | intro place hperm =>
    obtain ⟨ρ, blank, fields, q, rfl, hfields, hsteps, hput⟩ := place.means hvalue
    obtain ⟨given, hothers⟩ := steps_perm (hfields hlawful) hperm hsteps
    exact hput _ given hothers

theorem Schema.Reorders.symm (h : schema.Reorders tree edited) : schema.Reorders edited tree := by
  cases h with
  | intro place hperm => exact .intro place hperm.symm

end

/-- A tree with a known name twice in a record object stands for nothing. -/
theorem Schema.not_means_repeated {schema : Schema α} {names : List String} {around : Tree → Tree}
    (place : schema.RecordPlace names around) {name : String} (hname : name ∈ names)
    {first second : List Char × Tree} (hfirst : Spelled name first) (hsecond : Spelled name second)
    (front middle back : List (List Char × Tree)) (value : α) :
    ¬ schema.Means (around (.object (front ++ first :: (middle ++ second :: back)))) value := by
  intro h
  obtain ⟨ρ, blank, fields, q, rfl, -, hsteps, -⟩ := place.means h
  exact not_steps_repeated hname middle hfirst hsecond hsteps

/-! ### Texts with another item -/

variable {R : α → List Char → Prop} {bracket : Bracket} {front back items : List α} {a : α}
  {text item : List Char}

/-- The text of an item alone, or with a comma behind or before it. -/
inductive IsPiece (item : List Char) : List Char → Prop where
  | alone : IsPiece item item
  | behind {gap : List Char} (hgap : IsGap gap) : IsPiece item (item ++ (gap ++ [',']))
  | before {gap : List Char} (hgap : IsGap gap) : IsPiece item (',' :: (gap ++ item))

theorem Sequence.single (h : R a item) : Sequence R [a] item := by
  have hlast := Sequence.last isGap_nil h isGap_nil
  rwa [List.nil_append, List.append_nil] at hlast

/-- Sequences with a comma between them are a sequence. -/
theorem Sequence.append {lead trail : List Char} (hfront : Sequence R front lead)
    (hback : Sequence R back trail) : Sequence R (front ++ back) (lead ++ ',' :: trail) := by
  induction hfront with
  | last hbefore ha hbehind =>
    have hmore := Sequence.more hbefore ha hbehind hback
    simpa only [List.append_assoc, List.cons_append, List.nil_append] using hmore
  | more hbefore ha hbehind _ ih =>
    have hmore := Sequence.more hbefore ha hbehind ih
    simpa only [List.append_assoc, List.cons_append] using hmore

/-- A sequence in two parts has a comma between them. -/
theorem Sequence.split (h : Sequence R (front ++ back) text) (hfront : front ≠ [])
    (hback : back ≠ []) :
    ∃ lead trail, text = lead ++ ',' :: trail ∧ Sequence R front lead ∧ Sequence R back trail := by
  induction front generalizing text with
  | nil => exact absurd rfl hfront
  | cons first front ih =>
    rw [List.cons_append] at h
    generalize hitems : front ++ back = items at h
    cases h with
    | last => exact absurd (List.append_eq_nil_iff.mp hitems).2 hback
    | @more _ _ before item behind rest hbefore hitem hbehind hrest =>
      obtain rfl := hitems
      cases front with
      | nil =>
        refine ⟨before ++ (item ++ behind), rest, ?_, .last hbefore hitem hbehind, hrest⟩
        simp only [List.append_assoc]
      | cons second front =>
        obtain ⟨lead, trail, rfl, hlead, htrail⟩ := ih hrest (List.cons_ne_nil second front)
        refine ⟨before ++ (item ++ (behind ++ ',' :: lead)), trail, ?_,
          .more hbefore hitem hbehind hlead, htrail⟩
        simp only [List.append_assoc, List.cons_append]

/-- Blanks may stand before a sequence. -/
theorem Sequence.after_gap (h : Sequence R items text) {gap : List Char} (hgap : IsGap gap) :
    Sequence R items (gap ++ text) := by
  cases h with
  | last hbefore ha hbehind =>
    rw [← List.append_assoc]
    exact .last (hgap.append hbefore) ha hbehind
  | more hbefore ha hbehind hrest =>
    rw [← List.append_assoc]
    exact .more (hgap.append hbefore) ha hbehind hrest

/-- Blanks may stand behind a sequence. -/
theorem Sequence.before_gap (h : Sequence R items text) {gap : List Char} (hgap : IsGap gap) :
    Sequence R items (text ++ gap) := by
  induction h with
  | last hbefore ha hbehind =>
    simp only [List.append_assoc]
    exact .last hbefore ha (hbehind.append hgap)
  | more hbefore ha hbehind _ ih =>
    simp only [List.append_assoc, List.cons_append]
    exact .more hbefore ha hbehind ih

/-- The text of an item may be put anywhere among the items between two brackets. -/
theorem Enclosed.insert (h : Enclosed R bracket (front ++ back) text) (a : α) (hitem : R a item) :
    ∃ lead piece trail, IsPiece item piece ∧ text = lead ++ trail
      ∧ Enclosed R bracket (front ++ a :: back) (lead ++ (piece ++ trail)) := by
  generalize hitems : front ++ back = items at h
  cases h with
  | @empty gap hgap =>
    obtain ⟨rfl, rfl⟩ := List.append_eq_nil_iff.mp hitems
    refine ⟨gap, item, [bracket.closer], .alone, rfl, ?_⟩
    have hlast : Enclosed R bracket [a] _ := .items ((Sequence.single hitem).after_gap hgap)
    simpa only [List.nil_append, List.append_assoc] using hlast
  | @items text _ hsequence =>
    obtain rfl := hitems
    by_cases hfront : front = []
    · subst hfront
      refine ⟨[], item ++ ([] ++ [',']), text ++ [bracket.closer], .behind isGap_nil, rfl, ?_⟩
      have hmore : Enclosed R bracket ([a] ++ back) _ :=
        .items ((Sequence.single hitem).append hsequence)
      simpa only [List.append_assoc, List.cons_append, List.nil_append] using hmore
    by_cases hback : back = []
    · subst hback
      refine ⟨text, ',' :: ([] ++ item), [bracket.closer], .before isGap_nil, rfl, ?_⟩
      rw [List.append_nil] at hsequence
      have hmore : Enclosed R bracket (front ++ [a]) _ :=
        .items (hsequence.append (Sequence.single hitem))
      simpa only [List.append_assoc, List.cons_append, List.nil_append] using hmore
    · obtain ⟨lead, trail, rfl, hlead, htrail⟩ := hsequence.split hfront hback
      refine
        ⟨lead, ',' :: ([] ++ item), ',' :: (trail ++ [bracket.closer]), .before isGap_nil, ?_, ?_⟩
      · simp only [List.append_assoc, List.cons_append]
      · have hmore : Enclosed R bracket (front ++ ([a] ++ back)) _ :=
          .items (hlead.append ((Sequence.single hitem).append htrail))
        simpa only [List.append_assoc, List.cons_append, List.nil_append] using hmore

/-- The text of an item may be taken out from between two brackets. -/
theorem Enclosed.remove (h : Enclosed R bracket (front ++ a :: back) text) :
    ∃ item lead piece trail, R a item ∧ IsPiece item piece ∧ text = lead ++ (piece ++ trail)
      ∧ Enclosed R bracket (front ++ back) (lead ++ trail) := by
  generalize hitems : front ++ a :: back = items at h
  cases h with
  | empty => simp at hitems
  | @items text _ hsequence =>
    obtain rfl := hitems
    by_cases hfront : front = []
    · subst hfront
      cases hsequence with
      | @last _ before item behind hbefore hitem hbehind =>
        refine ⟨item, before, item, behind ++ [bracket.closer], hitem, .alone, ?_, ?_⟩
        · simp only [List.append_assoc]
        · have hnone : Enclosed R bracket ([] ++ []) _ := .empty (hbefore.append hbehind)
          simpa only [List.append_assoc] using hnone
      | @more _ _ before item behind rest hbefore hitem hbehind hrest =>
        refine ⟨item, before, item ++ (behind ++ [',']), rest ++ [bracket.closer], hitem,
          .behind hbehind, ?_, ?_⟩
        · simp only [List.append_assoc, List.cons_append, List.nil_append]
        · have hleft : Enclosed R bracket ([] ++ back) _ := .items (hrest.after_gap hbefore)
          simpa only [List.append_assoc] using hleft
    · obtain ⟨lead, rest, rfl, hlead, hrest⟩ := hsequence.split hfront (List.cons_ne_nil a back)
      cases hrest with
      | @last _ before item behind hbefore hitem hbehind =>
        refine ⟨item, lead, ',' :: (before ++ item), behind ++ [bracket.closer], hitem,
          .before hbefore, ?_, ?_⟩
        · simp only [List.append_assoc, List.cons_append]
        · have hleft : Enclosed R bracket front _ := .items (hlead.before_gap hbehind)
          simpa only [List.append_nil, List.append_assoc] using hleft
      | @more _ _ before item behind rest hbefore hitem hbehind hrest =>
        refine ⟨item, lead ++ ',' :: before, item ++ (behind ++ [',']), rest ++ [bracket.closer],
          hitem, .behind hbehind, ?_, ?_⟩
        · simp only [List.append_assoc, List.cons_append, List.nil_append]
        · have hleft : Enclosed R bracket (front ++ back) _ :=
            .items (hlead.append (hrest.after_gap hbefore))
          simpa only [List.append_assoc, List.cons_append] using hleft

/-! ### Texts of edited trees -/

/-- A text with another item's text in it, and a comma unless it stands alone. -/
def WithItem (item : List Char) (text more : String) : Prop :=
  ∃ lead piece trail, IsPiece item piece ∧ text = String.ofList (lead ++ trail)
    ∧ more = String.ofList (lead ++ (piece ++ trail))

theorem Written.enclosed {members : List (List Char × Tree)} {text : List Char}
    (h : Written (.object members) text) :
    ∃ more, text = '\x7b' :: more ∧ Enclosed WrittenMember .curly members more := by
  cases h with
  | emptyObject hgap => exact ⟨_, rfl, .empty hgap⟩
  | object hmembers => exact ⟨_, rfl, .items hmembers⟩

/-- The text of a tree holds the text of the record object in a place. -/
theorem Schema.RecordPlace.writtenAs {schema : Schema α} {names : List String}
    {around : Tree → Tree} (place : schema.RecordPlace names around)
    {members : List (List Char × Tree)} {text : String}
    (h : (around (.object members)).WrittenAs text) :
    ∃ lead enclosed trail, text = String.ofList (lead ++ (enclosed ++ trail))
      ∧ Enclosed WrittenMember .curly members enclosed
      ∧ ∀ others more, Enclosed WrittenMember .curly others more →
        (around (.object others)).WrittenAs (String.ofList (lead ++ (more ++ trail))) := by
  obtain ⟨before, written, behind, hwritten, hbefore, hbehind, rfl⟩ := h
  cases place with
  | intro place =>
    obtain ⟨front, object, back, rfl, hobject, hput⟩ := place.hole hwritten
    obtain ⟨enclosed, rfl, henclosed⟩ := hobject.enclosed
    refine ⟨before ++ (front ++ ['\x7b']), enclosed, back ++ behind, ?_, henclosed, ?_⟩
    · simp only [List.append_assoc, List.cons_append, List.nil_append]
    · intro others more hmore
      refine ⟨before, _, behind, hput _ _ hmore.object, hbefore, hbehind, ?_⟩
      simp only [List.append_assoc, List.cons_append, List.nil_append]

section

variable {schema : Schema α} {tree grown : Tree} {member : List Char × Tree} {text : String}
  {allowed : List String → List (List Char × Tree) → List Char × Tree → Prop}

/-- Any text of the member may be put into a text of the tree. -/
theorem Schema.Gains.exists_more (h : schema.Gains allowed member tree grown)
    (htext : tree.WrittenAs text) {item : List Char} (hitem : WrittenMember member item) :
    ∃ more, grown.WrittenAs more ∧ WithItem item text more := by
  cases h with
  | intro front back place _ =>
    obtain ⟨lead, enclosed, trail, rfl, henclosed, hput⟩ := place.writtenAs htext
    obtain ⟨before, piece, behind, hpiece, rfl, hmore⟩ := henclosed.insert member hitem
    refine ⟨_, hput _ _ hmore, lead ++ before, piece, behind ++ trail, hpiece, ?_, ?_⟩
    · simp only [List.append_assoc]
    · simp only [List.append_assoc]

/-- The text of the member may be taken out of a text of the grown tree. -/
theorem Schema.Gains.exists_less (h : schema.Gains allowed member tree grown)
    (htext : grown.WrittenAs text) :
    ∃ item less, WrittenMember member item ∧ tree.WrittenAs less ∧ WithItem item less text := by
  cases h with
  | intro front back place _ =>
    obtain ⟨lead, enclosed, trail, rfl, henclosed, hput⟩ := place.writtenAs htext
    obtain ⟨item, before, piece, behind, hitem, hpiece, rfl, hless⟩ := henclosed.remove
    refine ⟨item, _, hitem, hput _ _ hless, lead ++ before, piece, behind ++ trail, hpiece, ?_, ?_⟩
    · simp only [List.append_assoc]
    · simp only [List.append_assoc]

end

end CallGraph.Json
