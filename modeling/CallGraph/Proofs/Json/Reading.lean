import CallGraph.Proofs.Json.Meaning
import CallGraph.Proofs.Json.Skipping
import Mathlib.Data.List.TakeWhile

/-!
# Trees are read as what they mean

Whenever a tree stands for a value of a schema, reading any text of the tree by the schema gives
that value, and takes nothing of what follows.

* `Agrees` — a reader gives the values that trees stand for;
* `run_readKeyed`, `run_readPositional` — the two forms of a record;
* `Schema.agrees`, `Fields.agrees` — the readers of a schema, by recursion over it;
* `Schema.parse_of_means` — whole texts.
-/

namespace CallGraph.Json

open Reader

/-- A reader gives the values that trees stand for, whatever stands before and behind them. -/
def Reader.Agrees {α : Type} (reader : Reader α) (M : Tree → α → Prop) : Prop :=
  ∀ {tree : Tree} {value : α} {gap text rest : List Char}, M tree value → Written tree text →
    IsGap gap → StopsNumber rest → reader.run (gap ++ (text ++ rest)) = .ok (value, rest)

theorem Reader.Agrees.run {α : Type} {reader : Reader α} {M : Tree → α → Prop}
    (h : reader.Agrees M) {tree : Tree} {value : α} {text rest : List Char} (hvalue : M tree value)
    (htext : Written tree text) (hrest : StopsNumber rest) :
    reader.run (text ++ rest) = .ok (value, rest) :=
  h hvalue htext isGap_nil hrest

/-! ### Single values -/

/-- The first character of a value behind blanks chooses its reader. -/
theorem run_readTyped {α : Type} {expected : String} {start : Char → Option (Reader α)} {c : Char}
    {reader : Reader α} (hstart : start c = some reader) {gap more : List Char} (hgap : IsGap gap)
    {tree : Tree} (htext : Written tree (c :: more)) (rest : List Char) :
    (readTyped expected start).run (gap ++ (c :: more ++ rest)) = reader.run (more ++ rest) := by
  rw [readTyped, run_bind, run_blanks, dropWhile_gap hgap, (htext.beginsItem.append rest).dropWhile]
  dsimp only
  rw [run_bind, List.cons_append, run_next?_cons]
  dsimp only
  rw [hstart]

/-- A typed value is read by the reader that its first character chooses. -/
theorem agrees_readTyped {α : Type} {expected : String} {start : Char → Option (Reader α)}
    {M : Tree → α → Prop}
    (h : ∀ {tree value text}, M tree value → Written tree text → ∃ c more reader,
      text = c :: more ∧ start c = some reader
        ∧ ∀ rest, StopsNumber rest → reader.run (more ++ rest) = .ok (value, rest)) :
    (readTyped expected start).Agrees M := by
  intro tree value gap text rest hvalue htext hgap hrest
  obtain ⟨c, more, reader, rfl, hstart, hreader⟩ := h hvalue htext
  rw [run_readTyped hstart hgap htext]
  exact hreader rest hrest

theorem agrees_text : Schema.text.read.Agrees Schema.text.Means := by
  rw [Schema.read]
  apply agrees_readTyped
  intro tree value text hvalue htext
  rw [Schema.Means] at hvalue
  obtain ⟨body, rfl, hspells⟩ := hvalue
  cases htext with
  | text hbody =>
    refine ⟨'"', _, _, rfl, rfl, ?_⟩
    intro rest _
    rw [List.append_assoc, List.singleton_append, run_readText hspells, String.ofList_toList]

theorem agrees_flag : Schema.flag.read.Agrees Schema.flag.Means := by
  rw [Schema.read]
  apply agrees_readTyped
  intro tree value text hvalue htext
  rw [Schema.Means] at hvalue
  subst hvalue
  cases htext with
  | true =>
    refine ⟨'t', _, _, rfl, rfl, ?_⟩
    intro rest _
    rw [run_bind, trueRest, run_word]
    rfl
  | false =>
    refine ⟨'f', _, _, rfl, rfl, ?_⟩
    intro rest _
    rw [run_bind, falseRest, run_word]
    rfl

theorem agrees_word (expected : String) (size : Nat) :
    (Schema.word expected size).read.Agrees (Schema.word expected size).Means := by
  rw [Schema.read]
  apply agrees_readTyped
  intro tree value text hvalue htext
  rw [Schema.Means] at hvalue
  obtain ⟨rfl, hle⟩ := hvalue
  cases htext with
  | number hwrites =>
    obtain ⟨c, more, rfl, hc⟩ := hwrites.cons
    refine ⟨c, more, _, rfl, by rw [if_pos hc], ?_⟩
    intro rest hrest
    rw [readWord, run_bind, run_readNumber_decimal hle hwrites hrest]
    have hvalue : (0 : Int) ≤ (value.val : Int) ∧ (value.val : Int).toNat < size :=
      ⟨Int.natCast_nonneg _, value.isLt⟩
    dsimp only
    rw [dif_pos hvalue]
    rfl

theorem agrees_map {α β : Type} (f : α → β) {schema : Schema α}
    (h : schema.read.Agrees schema.Means) :
    (Schema.map f schema).read.Agrees (Schema.map f schema).Means := by
  intro tree value gap text rest hvalue htext hgap hrest
  rw [Schema.Means] at hvalue
  obtain ⟨v, hv, rfl⟩ := hvalue
  rw [Schema.read, run_bind, h hv htext hgap hrest]
  rfl

theorem agrees_list {α : Type} {item : Schema α} (h : item.read.Agrees item.Means) :
    (Schema.list item).read.Agrees (Schema.list item).Means := by
  rw [Schema.read]
  apply agrees_readTyped
  intro tree value text hvalue htext
  rw [Schema.Means] at hvalue
  obtain ⟨items, rfl, hitems⟩ := hvalue
  cases htext with
  | emptyList hgap =>
    cases hitems
    refine ⟨'[', _, _, rfl, rfl, ?_⟩
    intro rest _
    rw [List.append_assoc]
    exact run_readList_empty _ hgap rest
  | list hsequence =>
    refine ⟨'[', _, _, rfl, rfl, ?_⟩
    intro rest _
    rw [List.append_assoc]
    exact run_readList (R := Written) (fun _ _ => Written.beginsItem)
      (fun hvalue htext hrest => h.run hvalue htext hrest) hitems hsequence rest

/-! ### Records in objects -/

variable {ρ : Type}

/-- A slot reads what its column says, under the same name. -/
structure Slot.Agrees (column : Column ρ) (slot : Slot ρ) : Prop where
  name : slot.name = column.name
  read : slot.read.Agrees column.Means

/-- Columns and slots with the same names are found together. -/
theorem find_of_names {S : Column ρ → Slot ρ → Prop}
    (hname : ∀ {column slot}, S column slot → slot.name = column.name)
    {columns : List (Column ρ)} {slots : List (Slot ρ)} (h : List.Forall₂ S columns slots)
    (name : String) :
    (columns.find? (fun column => column.name = name) = none
      ∧ slots.find? (fun slot => slot.name = name) = none)
    ∨ ∃ column slot, columns.find? (fun column => column.name = name) = some column
      ∧ slots.find? (fun slot => slot.name = name) = some slot ∧ S column slot := by
  induction h with
  | nil => exact .inl ⟨rfl, rfl⟩
  | @cons column slot columns slots hfirst _ ih =>
    rw [List.find?_cons, List.find?_cons, hname hfirst]
    by_cases hcolumn : column.name = name
    · simp only [hcolumn, decide_true]
      exact .inr ⟨column, slot, rfl, rfl, hfirst⟩
    · simp only [hcolumn, decide_false]
      exact ih

/-- A key is read from each of its spellings. -/
theorem run_readKey {name : String} {key : List Char} (h : SpellsAll name.toList key)
    (rest : List Char) : readKey.run ('"' :: (key ++ '"' :: rest)) = .ok (name, rest) := by
  rw [readKey, run_bind, run_next?_cons]
  dsimp only
  rw [if_pos rfl, run_readText h, String.ofList_toList]

/-- A member is read as the step that it is. -/
theorem run_readMember {columns : List (Column ρ)} {slots : List (Slot ρ)}
    (hslots : List.Forall₂ Slot.Agrees columns slots) {p q : Progress ρ}
    {member : List Char × Tree} {text rest : List Char} (hstep : MemberStep columns p member q)
    (htext : WrittenMember member text) (hrest : StopsNumber rest) :
    (readMember slots p).run (text ++ rest) = .ok (q, rest) := by
  cases htext with
  | @intro key before behind text value hbody hbefore hbehind hvalue =>
    simp only [List.cons_append, List.append_assoc]
    cases hstep with
    | @known _ _ name column change hkey hcolumn hnew hmeans =>
      rw [readMember, run_bind, run_readKey hkey]
      dsimp only
      rcases find_of_names Slot.Agrees.name hslots name with
        ⟨hnone, -⟩ | ⟨found, slot, hfound, hslot, hagrees⟩
      · rw [hnone] at hcolumn
        cases hcolumn
      · obtain rfl := Option.some.inj (hfound.symm.trans hcolumn)
        rw [hslot]
        dsimp only
        rw [if_neg hnew, run_bind, run_readColon hbefore]
        dsimp only
        rw [run_bind, hagrees.read hmeans hvalue hbehind hrest]
        rfl
    | @unknown _ _ name hkey hcolumn =>
      rw [readMember, run_bind, run_readKey hkey]
      dsimp only
      rcases find_of_names Slot.Agrees.name hslots name with
        ⟨-, hnone⟩ | ⟨found, slot, hfound, -, -⟩
      · rw [hnone]
        dsimp only
        rw [run_bind, run_readColon hbefore]
        dsimp only
        have hskip : skipValue.run (behind ++ (text ++ rest)) = .ok ((), rest) :=
          (run_skipFrom_gap hbehind _).trans (run_skipValue hvalue hrest)
        rw [run_bind, hskip]
        rfl
      · rw [hfound] at hcolumn
        cases hcolumn

theorem run_readKeyed_of_fold {slots : List (Slot ρ)} {blank : ρ} {p : Progress ρ}
    {text rest : List Char}
    (h : (Bracket.curly.fold (readMember slots) ⟨[], blank⟩).run text = .ok (p, rest)) :
    (readKeyed slots blank).run text = .ok (p.record, rest) := by
  rw [readKeyed, run_bind, h]
  rfl

/-- An object is read as the steps of its members. -/
theorem run_readKeyed {columns : List (Column ρ)} {slots : List (Slot ρ)}
    (hslots : List.Forall₂ Slot.Agrees columns slots) {blank : ρ} {p : Progress ρ}
    {members : List (List Char × Tree)} (hsteps : Steps (MemberStep columns) ⟨[], blank⟩ members p)
    {text : List Char} (htext : Written (.object members) text) :
    ∃ more, text = '\x7b' :: more
      ∧ ∀ rest, (readKeyed slots blank).run (more ++ rest) = .ok (p.record, rest) := by
  cases htext with
  | emptyObject hgap =>
    cases hsteps
    refine ⟨_, rfl, fun rest => run_readKeyed_of_fold (p := ⟨[], blank⟩) ?_⟩
    rw [List.append_assoc]
    exact run_fold_empty hgap _ rest
  | object hsequence =>
    refine ⟨_, rfl, fun rest => run_readKeyed_of_fold ?_⟩
    rw [List.append_assoc]
    exact run_fold (fun _ _ => WrittenMember.beginsItem) hsequence hsteps (run_readMember hslots)
      rest

/-! ### Records in lists -/

theorem run_readListEnd {gap : List Char} (h : IsGap gap) (rest : List Char) :
    readListEnd.run (gap ++ ']' :: rest) = .ok ((), rest) := by
  rw [readListEnd, run_bind, run_blanks, dropWhile_gap h]
  rfl

/-- Behind an item, a list of field values may end. -/
theorem run_readPositions_end {gap : List Char} (h : IsGap gap) (slots : List (Slot ρ)) (record : ρ)
    (rest : List Char) :
    (readPositions slots record).run (gap ++ ']' :: rest) = .ok (record, rest) := by
  cases slots with
  | nil =>
    rw [readPositions, run_bind, run_readListEnd h]
    rfl
  | cons slot slots =>
    rw [readPositions, run_bind, Bracket.following, run_bind, run_blanks, dropWhile_gap h]
    rfl

/-- Behind an item and a comma the next field is read. -/
theorem run_readPositions_comma {gap text : List Char} (hgap : IsGap gap) (slot : Slot ρ)
    (slots : List (Slot ρ)) (record : ρ) (h : BeginsItem (text.dropWhile isBlank)) :
    (readPositions (slot :: slots) record).run (gap ++ ',' :: text)
      = (slot.read >>= fun change => readPositions slots (change record)).run
        (text.dropWhile isBlank) := by
  rw [readPositions, run_bind, Bracket.following, run_bind, run_blanks, dropWhile_gap hgap,
    List.dropWhile_cons_of_neg (by decide)]
  dsimp only
  rw [run_bind, run_next?_cons]
  dsimp only
  rw [run_separated_comma h]
  rfl

/-- The items of a list are read as the fields at their positions. -/
theorem run_positions {items : List Tree} {text : List Char} (htext : Sequence Written items text)
    {column : Column ρ} {columns : List (Column ρ)} {slot : Slot ρ} {slots : List (Slot ρ)}
    (hslots : List.Forall₂ Slot.Agrees (column :: columns) (slot :: slots)) {record result : ρ}
    (h : Positions (column :: columns) record items result) (rest : List Char) :
    (slot.read >>= fun change => readPositions slots (change record)).run
      ((text ++ ']' :: rest).dropWhile isBlank) = .ok (result, rest) := by
  induction htext generalizing column columns slot slots record with
  | @last item before text behind hbefore hitem hbehind =>
    cases h with
    | cons hmeans hpositions =>
      cases hpositions
      cases hslots with
      | cons hslot hslots =>
        have hend : StopsNumber (behind ++ ']' :: rest) :=
          stopsNumber_gap hbehind (stopsNumber_cons (by decide) rest)
        rw [List.append_assoc, dropWhile_gap hbefore, List.append_assoc,
          (hitem.beginsItem.append _).dropWhile, run_bind,
          Reader.Agrees.run hslot.read hmeans hitem hend]
        exact run_readPositions_end hbehind slots _ rest
  | @more item items before text behind more hbefore hitem hbehind hmore ih =>
    cases h with
    | cons hmeans hpositions =>
      cases hslots with
      | cons hslot hslots =>
        have hcomma : StopsNumber (behind ++ ',' :: (more ++ ']' :: rest)) :=
          stopsNumber_gap hbehind (stopsNumber_cons (by decide) _)
        rw [List.append_assoc, dropWhile_gap hbefore, List.append_assoc,
          (hitem.beginsItem.append _).dropWhile, List.append_assoc, List.cons_append, run_bind,
          Reader.Agrees.run hslot.read hmeans hitem hcomma]
        dsimp only
        cases hslots with
        | nil =>
          -- a further item has no field at its position
          cases hpositions
          cases hmore
        | cons hnext hslots =>
          rw [run_readPositions_comma hbehind _ _ _
            (hmore.beginsItem (fun _ _ => Written.beginsItem) _)]
          exact ih (.cons hnext hslots) hpositions

/-- A list is read as the changes of the fields at its positions. -/
theorem run_readPositional {columns : List (Column ρ)} {slots : List (Slot ρ)}
    (hslots : List.Forall₂ Slot.Agrees columns slots) {blank record : ρ} {items : List Tree}
    (h : Positions columns blank items record) {text : List Char}
    (htext : Written (.list items) text) :
    ∃ more, text = '[' :: more
      ∧ ∀ rest, (readPositional slots blank).run (more ++ rest) = .ok (record, rest) := by
  cases htext with
  | emptyList hgap =>
    cases h
    refine ⟨_, rfl, ?_⟩
    intro rest
    rw [List.append_assoc]
    cases slots with
    | nil =>
      rw [readPositional, run_bind, List.singleton_append, run_readListEnd hgap]
      rfl
    | cons slot slots =>
      rw [readPositional, run_bind, Bracket.first, run_bind, run_blanks, dropWhile_gap hgap]
      rfl
  | list hsequence =>
    refine ⟨_, rfl, ?_⟩
    intro rest
    rw [List.append_assoc, List.singleton_append]
    cases hslots with
    | nil =>
      -- there is an item, and no field for it
      cases h
      cases hsequence
    | @cons column slot columns slots hslot hslots =>
      rw [readPositional, run_bind,
        run_first (hsequence.beginsItem (fun _ _ => Written.beginsItem) _)]
      exact run_positions hsequence (.cons hslot hslots) h rest

/-- A record is read in both of its forms, whatever follows it: its closing bracket ends it. -/
theorem run_record (expected : String) (blank : ρ) {fields : Fields ρ}
    (h : List.Forall₂ Slot.Agrees fields.columns fields.slots) {tree : Tree} {record : ρ}
    {gap text : List Char} (hrecord : (Schema.record expected blank fields).Means tree record)
    (htext : Written tree text) (hgap : IsGap gap) (rest : List Char) :
    (Schema.record expected blank fields).read.run (gap ++ (text ++ rest))
      = .ok (record, rest) := by
  rw [Schema.Means] at hrecord
  rw [Schema.read]
  cases hrecord with
  | keyed hsteps =>
    obtain ⟨more, rfl, hrun⟩ := run_readKeyed h hsteps htext
    exact (run_readTyped rfl hgap htext rest).trans (hrun rest)
  | positional hpositions =>
    obtain ⟨more, rfl, hrun⟩ := run_readPositional h hpositions htext
    exact (run_readTyped rfl hgap htext rest).trans (hrun rest)

theorem agrees_record (expected : String) (blank : ρ) {fields : Fields ρ}
    (h : List.Forall₂ Slot.Agrees fields.columns fields.slots) :
    (Schema.record expected blank fields).read.Agrees
      (Schema.record expected blank fields).Means := by
  intro tree record gap text rest hrecord htext hgap _
  exact run_record expected blank h hrecord htext hgap rest

/-! ### Schemas -/

/-- Null stands for no value. -/
theorem Schema.not_means_null {α : Type} (schema : Schema α) (value : α) :
    ¬ schema.Means .null value := by
  intro h
  match schema, value, h with
  | .text, _, h | .list _, _, h =>
    rw [Schema.Means] at h
    obtain ⟨_, htree, -⟩ := h
    cases htree
  | .flag, _, h =>
    rw [Schema.Means] at h
    cases h
  | .word _ _, _, h =>
    rw [Schema.Means] at h
    cases h.1
  | .record _ _ _, _, h =>
    rw [Schema.Means] at h
    cases h
  | .map _ schema, _, h =>
    rw [Schema.Means] at h
    obtain ⟨v, hv, -⟩ := h
    exact schema.not_means_null v hv

/-- Only null begins with its first letter. -/
theorem Written.ne_n {tree : Tree} {c : Char} {more : List Char} (h : Written tree (c :: more))
    (htree : tree ≠ .null) : c ≠ 'n' := by
  generalize htext : c :: more = text at h
  cases h with
  | null => exact absurd rfl htree
  | number hwrites =>
    obtain ⟨d, rest, rfl, hd⟩ := hwrites.cons
    obtain ⟨rfl, -⟩ := List.cons.inj htext
    exact Numeral.starts_ne hd rfl
  | true | false | text | emptyList | list | emptyObject | object =>
    obtain ⟨rfl, -⟩ := List.cons.inj htext
    decide

/-- A field is read as the change that it is. -/
theorem agrees_readField {α : Type} {value : Reader α} {M : Tree → α → Prop} (h : value.Agrees M)
    (hnull : ∀ v, ¬ M .null v) (set : α → ρ → ρ) :
    (readField value set).Agrees fun tree change =>
      tree = .null ∧ change = id ∨ ∃ v, M tree v ∧ change = set v := by
  intro tree change gap text rest hchange htext hgap hrest
  rw [readField, run_bind, run_blanks, dropWhile_gap hgap, (htext.beginsItem.append rest).dropWhile]
  dsimp only
  rcases hchange with ⟨rfl, rfl⟩ | ⟨v, hv, rfl⟩
  · cases htext with
    | null =>
      rw [run_bind, List.cons_append, run_nextIf?_cons, if_pos (by decide)]
      dsimp only
      rw [run_bind, nullRest, run_word]
      rfl
  · have htree : tree ≠ .null := by
      rintro rfl
      exact hnull v hv
    have hrun := h.run hv htext hrest
    obtain ⟨c, more, rfl, -⟩ := htext.beginsItem
    have hc : ¬ decide (c = 'n') = true := by simpa using htext.ne_n htree
    rw [List.cons_append] at hrun ⊢
    rw [run_bind, run_nextIf?_cons, if_neg hc]
    dsimp only
    rw [run_bind, hrun]
    rfl

mutual

/-- **Trees are read as what they mean**: reading by a schema gives the value that a tree stands
for, from any of the tree's texts. -/
theorem Schema.agrees : {α : Type} → (schema : Schema α) → schema.read.Agrees schema.Means
  | _, .text => agrees_text
  | _, .flag => agrees_flag
  | _, .word expected size => agrees_word expected size
  | _, .list item => agrees_list item.agrees
  | _, .record expected blank fields => agrees_record expected blank fields.agrees
  | _, .map f schema => agrees_map f schema.agrees

theorem Fields.agrees : {ρ : Type} → (fields : Fields ρ) →
    List.Forall₂ Slot.Agrees fields.columns fields.slots
  | _, .nil => by
    rw [Fields.columns, Fields.slots]
    exact .nil
  | _, .cons name schema set more => by
    rw [Fields.columns, Fields.slots]
    exact .cons ⟨rfl, agrees_readField schema.agrees schema.not_means_null set⟩ more.agrees

end

/-! ### Whole texts -/

/-- Nothing but blanks stands before the end. -/
theorem run_readEnd_iff {text : List Char} :
    (∃ rest, readEnd.run text = .ok ((), rest)) ↔ IsGap text := by
  rw [readEnd, run_bind, run_blanks]
  dsimp only
  rw [run_bind, run_peek?]
  constructor
  · rintro ⟨rest, h⟩
    cases hdrop : text.dropWhile isBlank with
    | nil =>
      intro c hc
      have hblank : isBlank c = true := List.dropWhile_eq_nil_iff.mp hdrop c hc
      simpa [isBlank, or_assoc] using hblank
    | cons c more =>
      rw [hdrop] at h
      cases h
  · intro hgap
    have hblank := dropWhile_gap hgap []
    rw [List.append_nil] at hblank
    rw [hblank]
    exact ⟨[], rfl⟩

/-- A text is accepted if nothing but blanks is left behind the value that is read. -/
theorem Schema.parse_eq_ok_iff_run {α : Type} {schema : Schema α} {text : String} {value : α} :
    schema.parse text = .ok value
      ↔ ∃ behind, schema.read.run text.toList = .ok (value, behind) ∧ IsGap behind := by
  rw [Schema.parse, run_bind]
  cases hread : schema.read.run text.toList with
  | error fault => simp
  | ok taken =>
    obtain ⟨found, behind⟩ := taken
    dsimp only
    rw [run_bind]
    cases hend : readEnd.run behind with
    | error fault =>
      have hgap : ¬ IsGap behind := by
        rw [← run_readEnd_iff, hend]
        simp
      simp [hgap]
    | ok taken =>
      have hgap : IsGap behind := run_readEnd_iff.mp ⟨taken.2, hend⟩
      simp [hgap]

/-- A whole text of a tree, with blanks around it, is accepted with the value that the tree stands
for. -/
theorem Schema.parse_of_means {α : Type} {schema : Schema α} {tree : Tree} {value : α}
    (h : schema.Means tree value) {before text behind : List Char} (hbefore : IsGap before)
    (htext : Written tree text) (hbehind : IsGap behind) :
    schema.parse (String.ofList (before ++ (text ++ behind))) = .ok value := by
  have hstop := stopsNumber_gap hbehind stopsNumber_nil
  rw [List.append_nil] at hstop
  rw [Schema.parse_eq_ok_iff_run, String.toList_ofList]
  exact ⟨behind, schema.agrees h htext hbefore hstop, hbehind⟩

end CallGraph.Json
