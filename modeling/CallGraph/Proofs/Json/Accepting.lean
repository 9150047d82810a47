import CallGraph.Proofs.Json.Enclosed
import CallGraph.Proofs.Json.Reading
import CallGraph.Proofs.Json.Tokens

/-!
# Whatever is accepted is written

A reader that gives a value of a schema has taken the text of a tree which stands for that value,
and whatever is passed over is the text of some tree.

* `Closes`, `takes_skipValue` — values that are passed over;
* `Reader.Sound` — a reader takes blanks and a text of a tree that stands for its value;
* `sound_readKeyed`, `sound_readPositional` — the two forms of a record;
* `Schema.sound`, `Fields.sound` — the readers of a schema, by recursion over it.
-/

namespace CallGraph.Json

open Reader

/-! ### Brackets -/

theorem Enclosed.list {items : List Tree} {text : List Char}
    (h : Enclosed Written .square items text) : Written (.list items) ('[' :: text) := by
  cases h with
  | empty hgap => exact .emptyList hgap
  | items hitems => exact .list hitems

theorem Enclosed.object {members : List (List Char × Tree)} {text : List Char}
    (h : Enclosed WrittenMember .curly members text) :
    Written (.object members) ('\x7b' :: text) := by
  cases h with
  | empty hgap => exact .emptyObject hgap
  | items hmembers => exact .object hmembers

/-- What stands behind an item of a bracket, whatever the items are. -/
def Bracket.Remains : Bracket → List Char → Prop
  | .square, tail => ∃ items, Remainder Written .square items tail
  | .curly, tail => ∃ members, Remainder WrittenMember .curly members tail

/-- What stands before the value of an item. -/
def Bracket.Key : Bracket → List Char → Prop
  | .square, text => text = []
  | .curly, text => ∃ gap key before, IsGap gap ∧ IsBody key ∧ IsGap before
    ∧ text = gap ++ '"' :: (key ++ '"' :: (before ++ [':']))

namespace Bracket.Remains

variable {bracket : Bracket} {key before written tail : List Char} {tree : Tree}

theorem gap (h : bracket.Remains tail) (hgap : IsGap before) :
    bracket.Remains (before ++ tail) := by
  cases bracket with
  | square =>
    obtain ⟨items, hitems⟩ := h
    exact ⟨items, hitems.gap hgap⟩
  | curly =>
    obtain ⟨members, hmembers⟩ := h
    exact ⟨members, hmembers.gap hgap⟩

theorem closer (bracket : Bracket) : bracket.Remains [bracket.closer] := by
  cases bracket with
  | square | curly => exact ⟨[], .close isGap_nil⟩

/-- A comma and an item stand before what stands behind the item. -/
theorem comma (h : bracket.Remains tail) (hkey : bracket.Key key) (hgap : IsGap before)
    (htree : Written tree written) :
    bracket.Remains (',' :: (key ++ (before ++ (written ++ tail)))) := by
  cases bracket with
  | square =>
    obtain ⟨items, hitems⟩ := h
    obtain rfl := hkey
    exact ⟨tree :: items, hitems.comma isGap_nil hgap htree⟩
  | curly =>
    obtain ⟨members, hmembers⟩ := h
    obtain ⟨lead, body, gap, hlead, hbody, hbefore, rfl⟩ := hkey
    have hmember := WrittenMember.intro hbody hbefore hgap htree
    refine ⟨(body, tree) :: members, ?_⟩
    have hcomma := hmembers.comma isGap_nil hlead hmember
    simpa only [List.nil_append, List.append_assoc, List.cons_append] using hcomma

/-- An opening bracket and an item before what stands behind the item make a value. -/
theorem opened (h : bracket.Remains tail) {front : List Char} (hfront : IsGap front)
    (hkey : bracket.Key key) (hgap : IsGap before) (htree : Written tree written) :
    ∃ outer,
      Written outer (bracket.opener :: (front ++ (key ++ (before ++ (written ++ tail))))) := by
  cases bracket with
  | square =>
    obtain ⟨items, hitems⟩ := h
    obtain rfl := hkey
    refine ⟨.list (tree :: items), ?_⟩
    have henclosed := (hitems.enclosed (hfront.append hgap) htree).list
    rwa [List.append_assoc] at henclosed
  | curly =>
    obtain ⟨members, hmembers⟩ := h
    obtain ⟨lead, body, gap, hlead, hbody, hbefore, rfl⟩ := hkey
    have hmember := WrittenMember.intro hbody hbefore hgap htree
    refine ⟨.object ((body, tree) :: members), ?_⟩
    have henclosed := (hmembers.enclosed (hfront.append hlead) hmember).object
    simpa only [List.append_assoc, List.cons_append, List.nil_append, Bracket.opener]
      using henclosed

end Bracket.Remains

/-! ### Values that are passed over -/

/-- What closes all open brackets behind a value. -/
def Closes : List Bracket → List Char → Prop
  | [], text => text = []
  | inner :: enclosing, text =>
    ∃ tail more, text = tail ++ more ∧ inner.Remains tail ∧ Closes enclosing more

/-- What is left to pass over in a state of the loop. -/
def Pending.Left : Pending → Unit → List Char → Prop
  | .value enclosing, _, text => ∃ tree gap written more, text = gap ++ (written ++ more)
    ∧ IsGap gap ∧ Written tree written ∧ Closes enclosing more
  | .separator inner enclosing, _, text => Closes (inner :: enclosing) text

/-- Behind a value the open brackets are left to close. -/
theorem takes_afterValue {enclosing : List Bracket} {Q : Unit → List Char → Prop}
    {front : List Char} (h : ∀ more, Closes enclosing more → Q () (front ++ more)) :
    Turn.Takes Pending.Left Q (Pending.afterValue enclosing) front := by
  cases enclosing with
  | nil =>
    have hdone := h [] rfl
    rwa [List.append_nil] at hdone
  | cons inner enclosing => exact fun _ more hmore => h more hmore

/-- A value that its first character leads through is left to pass over before that character. -/
theorem takes_written {enclosing : List Bracket} {tree : Tree} {c : Char} {front : List Char}
    (h : Written tree (c :: front)) :
    Turn.Takes Pending.Left (fun value taken => (Pending.value enclosing).Left value (c :: taken))
      (Pending.afterValue enclosing) front := by
  apply takes_afterValue
  intro more hmore
  exact ⟨tree, [], c :: front, more, rfl, isGap_nil, h, hmore⟩

theorem takes_readColon :
    readColon.Takes fun _ taken => ∃ gap, IsGap gap ∧ taken = gap ++ [':'] := by
  refine takes_blanks.bind ?_
  intro _ gap hgap
  refine takes_peek? (takes_fail _) ?_
  intro c
  dsimp only
  by_cases hc : c = ':'
  · rw [if_pos hc, hc]
    exact takesFrom_next? (takes_pure ⟨gap, hgap, rfl⟩)
  · rw [if_neg hc]
    exact (takes_failNext _).from c

theorem takes_skipKey (bracket : Bracket) :
    bracket.skipKey.Takes fun _ taken => bracket.Key taken := by
  cases bracket with
  | square => exact takes_pure rfl
  | curly =>
    refine takes_blanks.bind ?_
    intro _ gap hgap
    refine takes_peek? (takes_fail _) ?_
    intro c
    dsimp only
    by_cases hc : c = '"'
    · rw [if_pos hc, hc]
      refine takesFrom_next? (takes_skipText.bind ?_)
      rintro _ _ ⟨key, rfl, hkey⟩
      refine takes_readColon.imp ?_
      rintro _ _ ⟨before, hbefore, rfl⟩
      refine ⟨gap, key, before, hgap, hkey, hbefore, ?_⟩
      rw [List.append_assoc, List.singleton_append]
    · rw [if_neg hc]
      exact (takes_failNext _).from c

/-- Behind an opening bracket the value ends, or its first item's value is left to pass over. -/
theorem takes_skipOpen (bracket : Bracket) (enclosing : List Bracket) :
    (bracket.skipOpen enclosing).Takes (Turn.Takes Pending.Left fun value taken =>
      (Pending.value enclosing).Left value (bracket.opener :: taken)) := by
  refine takes_blanks.bind ?_
  intro _ gap hgap
  refine takes_peek? (takes_fail _) ?_
  intro c
  dsimp only
  by_cases hc : c = bracket.closer
  · rw [if_pos hc, hc]
    refine takesFrom_next? (takes_pure ?_)
    have hempty : ∃ tree, Written tree (bracket.opener :: (gap ++ [bracket.closer])) := by
      cases bracket with
      | square => exact ⟨_, .emptyList hgap⟩
      | curly => exact ⟨_, .emptyObject hgap⟩
    obtain ⟨tree, htree⟩ := hempty
    exact takes_written htree
  · rw [if_neg hc]
    refine Takes.from ?_ c
    refine (takes_skipKey bracket).bind ?_
    intro _ key hkey
    refine takes_pure ?_
    rintro _ _ ⟨tree, front, written, more, rfl, hfront, htree, hcloses⟩
    obtain ⟨tail, rest, rfl, htail, hrest⟩ := hcloses
    obtain ⟨outer, houter⟩ := htail.opened hgap hkey hfront htree
    refine ⟨outer, [], _, rest, ?_, isGap_nil, houter, hrest⟩
    simp only [List.append_assoc, List.cons_append, List.nil_append, List.append_nil]

/-- The first character of a value decides which value it is. -/
theorem takes_skipStart (enclosing : List Bracket) (c : Char) :
    (skipStart enclosing c).Takes (Turn.Takes Pending.Left fun value taken =>
      (Pending.value enclosing).Left value (c :: taken)) := by
  have hword (letters : List Char) (tree : Tree) (h : Written tree (c :: letters)) :
      (do word letters; return Pending.afterValue enclosing : Reader (Turn Pending Unit)).Takes
        (Turn.Takes Pending.Left fun value taken =>
          (Pending.value enclosing).Left value (c :: taken)) := by
    refine (takes_word letters).map ?_
    rintro _ _ rfl
    exact takes_written h
  rw [skipStart]
  by_cases hquote : c = '"'
  · rw [if_pos hquote]
    refine takes_skipText.map ?_
    rintro _ _ ⟨body, rfl, hbody⟩
    rw [hquote]
    exact takes_written (.text hbody)
  rw [if_neg hquote]
  by_cases hsquare : c = Bracket.square.opener
  · rw [if_pos hsquare, hsquare]
    exact takes_skipOpen .square enclosing
  rw [if_neg hsquare]
  by_cases hcurly : c = Bracket.curly.opener
  · rw [if_pos hcurly, hcurly]
    exact takes_skipOpen .curly enclosing
  rw [if_neg hcurly]
  by_cases hnumber : Numeral.starts c = true
  · rw [if_pos hnumber]
    refine (takes_read .invalidNumber c).map ?_
    intro numeral taken hwrites
    exact takes_written (.number hwrites)
  rw [if_neg hnumber]
  by_cases hn : c = 'n'
  · rw [if_pos hn]
    exact hword _ _ (by rw [hn]; exact .null)
  rw [if_neg hn]
  by_cases ht : c = 't'
  · rw [if_pos ht]
    exact hword _ _ (by rw [ht]; exact .true)
  rw [if_neg ht]
  by_cases hf : c = 'f'
  · rw [if_pos hf]
    exact hword _ _ (by rw [hf]; exact .false)
  · rw [if_neg hf]
    exact takes_refuse c _

/-- One character of a value, with what belongs to it. -/
theorem takes_skipStep (pending : Pending) (c : Char) :
    (skipStep pending c).Takes (Turn.Takes Pending.Left fun value taken =>
      pending.Left value (c :: taken)) := by
  cases pending with
  | value enclosing =>
    rw [skipStep]
    by_cases hblank : isBlank c = true
    · rw [if_pos hblank]
      refine takes_pure ?_
      rintro _ _ ⟨tree, gap, written, more, rfl, hgap, htree, hmore⟩
      exact ⟨tree, c :: gap, written, more, rfl, (isGap_singleton hblank).append hgap, htree, hmore⟩
    · rw [if_neg hblank]
      exact takes_skipStart enclosing c
  | separator inner enclosing =>
    rw [skipStep]
    by_cases hblank : isBlank c = true
    · rw [if_pos hblank]
      refine takes_pure ?_
      rintro _ _ ⟨tail, more, rfl, htail, hmore⟩
      exact ⟨c :: tail, more, rfl, htail.gap (isGap_singleton hblank), hmore⟩
    rw [if_neg hblank]
    by_cases hcloser : c = inner.closer
    · rw [if_pos hcloser, hcloser]
      refine takes_pure (takes_afterValue ?_)
      intro more hmore
      exact ⟨[inner.closer], more, rfl, .closer inner, hmore⟩
    rw [if_neg hcloser]
    by_cases hcomma : c = ','
    · rw [if_pos hcomma, hcomma]
      refine (takes_skipKey inner).bind ?_
      intro _ key hkey
      refine takes_pure ?_
      rintro _ _ ⟨tree, gap, written, more, rfl, hgap, htree, tail, rest, rfl, htail, hrest⟩
      refine ⟨_, rest, ?_, htail.comma hkey hgap htree, hrest⟩
      simp only [List.append_assoc, List.cons_append, List.append_nil]
    · rw [if_neg hcomma]
      exact takes_refuse c _

/-- **Whatever is passed over is the text of a tree**, with blanks before it. -/
theorem takes_skipValue : skipValue.Takes fun _ taken =>
    ∃ tree gap written, taken = gap ++ written ∧ IsGap gap ∧ Written tree written := by
  refine (takes_loop takes_skipStep (.value [])).imp ?_
  rintro _ _ ⟨tree, gap, written, more, rfl, hgap, htree, rfl⟩
  exact ⟨tree, gap, written, by rw [List.append_nil], hgap, htree⟩

/-! ### Single values -/

/-- A reader takes blanks and the text of a tree that stands for its value. -/
def Reader.Sound {α : Type} (reader : Reader α) (M : Tree → α → Prop) : Prop :=
  reader.Takes fun value taken => ∃ tree gap text, taken = gap ++ text ∧ IsGap gap
    ∧ Written tree text ∧ M tree value

/-- A reader takes something or other. -/
theorem takes_any {α : Type} (reader : Reader α) : reader.Takes fun _ _ => True := by
  intro text rest value hrun
  obtain ⟨taken, rfl⟩ := suffix_of_run hrun
  exact ⟨taken, rfl, trivial⟩

/-- A value of the wrong type is refused. -/
theorem takes_mismatch {α : Type} (expected : String) (c : Char) {P : α → List Char → Prop} :
    (mismatch expected c : Reader α).Takes P := by
  have hthen {β : Type} (reader : Reader β) (cause : β → Cause) :
      (reader >>= fun value => (fail (cause value) : Reader α)).Takes P :=
    (takes_any reader).bind fun _ _ _ => takes_fail _
  rw [mismatch]
  split
  · exact hthen _ _
  split
  · exact takes_failBefore _ _
  split
  · exact takes_failBefore _ _
  split
  · exact hthen _ _
  split
  · exact hthen _ _
  split
  · exact hthen _ _
  split
  · exact hthen _ _
  · exact takes_refuse c _

/-- A typed value is sound if it is from its first character on. -/
theorem sound_readTyped {α : Type} {expected : String} {start : Char → Option (Reader α)}
    {M : Tree → α → Prop}
    (h : ∀ c reader, start c = some reader → reader.Takes fun value taken =>
      ∃ tree, Written tree (c :: taken) ∧ M tree value) : (readTyped expected start).Sound M := by
  refine takes_blanks.bind ?_
  intro _ gap hgap
  refine takes_next? (takes_fail _) ?_
  intro c
  dsimp only
  cases hstart : start c with
  | none => exact takes_mismatch expected c
  | some reader =>
    refine (h c reader hstart).imp ?_
    rintro value taken ⟨tree, htree, hvalue⟩
    exact ⟨tree, gap, c :: taken, rfl, hgap, htree, hvalue⟩

theorem sound_text : Schema.text.read.Sound Schema.text.Means := by
  rw [Schema.read]
  apply sound_readTyped
  intro c reader hstart
  obtain ⟨rfl, ⟨⟩⟩ := Option.ite_none_right_eq_some.mp hstart
  refine takes_readText.imp ?_
  rintro value _ ⟨body, rfl, hbody⟩
  refine ⟨.text body, .text hbody.isBody, ?_⟩
  rw [Schema.Means]
  exact ⟨body, rfl, hbody⟩

theorem sound_flag : Schema.flag.read.Sound Schema.flag.Means := by
  have hword (c : Char) (letters : List Char) (flag : Bool)
      (h : Written (.flag flag) (c :: letters)) :
      (do word letters; return flag : Reader Bool).Takes fun value taken =>
        ∃ tree, Written tree (c :: taken) ∧ Schema.flag.Means tree value := by
    refine (takes_word letters).map ?_
    rintro _ _ rfl
    exact ⟨_, h, by rw [Schema.Means]⟩
  rw [Schema.read]
  apply sound_readTyped
  intro c reader hstart
  by_cases ht : c = 't'
  · rw [if_pos ht] at hstart
    obtain rfl := Option.some.inj hstart
    exact hword c _ true (ht ▸ .true)
  · rw [if_neg ht] at hstart
    obtain ⟨rfl, ⟨⟩⟩ := Option.ite_none_right_eq_some.mp hstart
    exact hword _ _ false .false

/-- Only decimal numbers below the size are accepted. -/
theorem sound_word (expected : String) (size : Nat) :
    (Schema.word expected size).read.Sound (Schema.word expected size).Means := by
  rw [Schema.read]
  apply sound_readTyped
  intro c reader hstart
  obtain ⟨-, ⟨⟩⟩ := Option.ite_none_right_eq_some.mp hstart
  rw [readWord, readNumber]
  refine ((takes_read .endInValue c).bind (Q := fun number taken => ∃ n : Numeral,
    n.Writes (c :: taken) ∧ ∀ value : Int, number = .integer value → 0 ≤ value →
      n = decimal value.toNat ∧ value.toNat ≤ greatestWord) ?_).bind ?_
  · intro numeral taken hwrites
    refine (takes_number hwrites.isWhole).imp ?_
    rintro number _ ⟨rfl, hnumber⟩
    rw [List.append_nil]
    exact ⟨numeral, hwrites, hnumber⟩
  · rintro number taken ⟨numeral, hwrites, hnumber⟩
    cases number with
    | real value => exact takes_fail _
    | integer value =>
      dsimp only
      by_cases hvalue : 0 ≤ value ∧ value.toNat < size
      · rw [dif_pos hvalue]
        obtain ⟨hdecimal, hle⟩ := hnumber value rfl hvalue.1
        refine takes_pure ⟨.number numeral, ?_, ?_⟩
        · rw [List.append_nil]
          exact .number hwrites
        · rw [Schema.Means]
          exact ⟨congrArg Tree.number hdecimal, hle⟩
      · rw [dif_neg hvalue]
        exact takes_fail _

theorem sound_map {α β : Type} (f : α → β) {schema : Schema α}
    (h : schema.read.Sound schema.Means) :
    (Schema.map f schema).read.Sound (Schema.map f schema).Means := by
  rw [Schema.read]
  refine h.map ?_
  rintro value taken ⟨tree, gap, text, htaken, hgap, htext, hvalue⟩
  refine ⟨tree, gap, text, htaken, hgap, htext, ?_⟩
  rw [Schema.Means]
  exact ⟨value, hvalue, rfl⟩

theorem sound_list {α : Type} {item : Schema α} (h : item.read.Sound item.Means) :
    (Schema.list item).read.Sound (Schema.list item).Means := by
  rw [Schema.read]
  apply sound_readTyped
  intro c reader hstart
  obtain ⟨rfl, ⟨⟩⟩ := Option.ite_none_right_eq_some.mp hstart
  refine (takes_readList h).imp ?_
  rintro values taken ⟨items, hitems, hvalues⟩
  refine ⟨.list items, hitems.list, ?_⟩
  rw [Schema.Means]
  exact ⟨items, rfl, hvalues⟩

/-! ### Records in objects -/

variable {ρ : Type}

/-- A slot reads nothing but what its column says, under the same name. -/
structure Slot.Sound (column : Column ρ) (slot : Slot ρ) : Prop where
  name : slot.name = column.name
  read : slot.read.Sound column.Means

theorem takes_readKey : readKey.Takes fun name taken =>
    ∃ key, taken = '"' :: (key ++ ['"']) ∧ SpellsAll name.toList key := by
  refine takes_next? (takes_fail _) ?_
  intro c
  dsimp only
  by_cases hc : c = '"'
  · rw [if_pos hc, hc]
    refine takes_readText.imp ?_
    rintro name _ ⟨key, rfl, hkey⟩
    exact ⟨key, rfl, hkey⟩
  · rw [if_neg hc]
    exact takes_refuse c _

theorem takes_refuseAgain {α : Type} (name : String) {P : α → List Char → Prop} :
    (refuseAgain name : Reader α).Takes P :=
  takes_blanks.bind fun _ _ _ => (takes_any _).bind fun _ _ _ => takes_fail _

/-- A member that is read is a step of the record. -/
theorem takes_readMember {columns : List (Column ρ)} {slots : List (Slot ρ)}
    (hslots : List.Forall₂ Slot.Sound columns slots) (p : Progress ρ) :
    (readMember slots p).Takes fun q taken => ∃ member gap text, taken = gap ++ text ∧ IsGap gap
      ∧ WrittenMember member text ∧ MemberStep columns p member q := by
  refine takes_readKey.bind ?_
  rintro name _ ⟨key, rfl, hkey⟩
  -- the text of the member from its parts
  have hmember {tree : Tree} {before behind text : List Char} (hbefore : IsGap before)
      (hbehind : IsGap behind) (htree : Written tree text) :
      WrittenMember (key, tree)
        ('"' :: (key ++ ['"']) ++ ((before ++ [':']) ++ (behind ++ text))) := by
    have hwritten := WrittenMember.intro hkey.isBody hbefore hbehind htree
    simpa only [List.append_assoc, List.cons_append, List.nil_append] using hwritten
  rcases find_of_names Slot.Sound.name hslots name with
    ⟨hcolumn, hslot⟩ | ⟨column, slot, hcolumn, hslot, hsound⟩
  · rw [hslot]
    refine takes_readColon.bind ?_
    rintro _ _ ⟨before, hbefore, rfl⟩
    refine takes_skipValue.map ?_
    rintro _ _ ⟨tree, behind, text, rfl, hbehind, htree⟩
    exact ⟨(key, tree), [], _, rfl, isGap_nil, hmember hbefore hbehind htree, .unknown hkey hcolumn⟩
  · rw [hslot]
    dsimp only
    by_cases hseen : name ∈ p.seen
    · rw [if_pos hseen]
      exact takes_refuseAgain name
    rw [if_neg hseen]
    refine takes_readColon.bind ?_
    rintro _ _ ⟨before, hbefore, rfl⟩
    refine hsound.read.map ?_
    rintro change _ ⟨tree, behind, text, rfl, hbehind, htree, hmeans⟩
    exact ⟨(key, tree), [], _, rfl, isGap_nil, hmember hbefore hbehind htree,
      .known hkey hcolumn hseen hmeans⟩

theorem sound_readKeyed {columns : List (Column ρ)} {slots : List (Slot ρ)}
    (hslots : List.Forall₂ Slot.Sound columns slots) (blank : ρ) :
    (readKeyed slots blank).Takes fun record taken =>
      ∃ tree, Written tree ('\x7b' :: taken) ∧ IsRecord columns blank tree record := by
  refine (takes_fold (takes_readMember hslots) _).map ?_
  rintro p taken ⟨members, hmembers, hsteps⟩
  exact ⟨.object members, hmembers.object, .keyed hsteps⟩

/-! ### Records in lists -/

theorem takes_readListEnd :
    readListEnd.Takes fun _ taken => ∃ gap, IsGap gap ∧ taken = gap ++ [']'] := by
  refine takes_blanks.bind ?_
  intro _ gap hgap
  refine takes_peek? (takes_fail _) ?_
  intro c
  dsimp only
  by_cases hc : c = Bracket.square.closer
  · rw [if_pos hc, hc]
    exact takesFrom_next? (takes_pure ⟨gap, hgap, rfl⟩)
  rw [if_neg hc]
  refine Takes.from ?_ c
  by_cases hcomma : c = ','
  · rw [if_pos hcomma]
    refine (takes_any _).bind fun _ _ _ => (takes_any _).bind fun _ _ _ => ?_
    refine takes_peek? (takes_fail _) ?_
    intro d
    refine Takes.from ?_ d
    dsimp only
    split
    · exact takes_failNext _
    · exact takes_failNext _
  · rw [if_neg hcomma]
    exact takes_failNext _

/-- Behind an item, what is read are the changes of the fields at the positions that are left. -/
theorem takes_readPositions {columns : List (Column ρ)} {slots : List (Slot ρ)}
    (hslots : List.Forall₂ Slot.Sound columns slots) (record : ρ) :
    (readPositions slots record).Takes fun result taken =>
      ∃ items, Remainder Written .square items taken ∧ Positions columns record items result := by
  induction hslots generalizing record with
  | nil =>
    rw [readPositions]
    refine takes_readListEnd.map ?_
    rintro _ _ ⟨gap, hgap, rfl⟩
    exact ⟨[], .close hgap, .nil record⟩
  | @cons column slot columns slots hslot _ ih =>
    rw [readPositions]
    refine (takes_following .square).bind ?_
    rintro found _ (⟨rfl, gap, hgap, rfl⟩ | ⟨rfl, gap, behind, hgap, hbehind, rfl⟩)
    · refine takes_pure ⟨[], ?_, .nil record⟩
      rw [List.append_nil]
      exact .close hgap
    · refine hslot.read.bind ?_
      rintro change _ ⟨tree, before, text, rfl, hbefore, htree, hmeans⟩
      refine (ih (change record)).imp ?_
      rintro result taken ⟨items, hitems, hpositions⟩
      refine ⟨tree :: items, ?_, .cons hmeans hpositions⟩
      have hcomma := hitems.comma hgap (hbehind.append hbefore) htree
      simpa only [List.append_assoc, List.cons_append] using hcomma

theorem sound_readPositional {columns : List (Column ρ)} {slots : List (Slot ρ)}
    (hslots : List.Forall₂ Slot.Sound columns slots) (blank : ρ) :
    (readPositional slots blank).Takes fun record taken =>
      ∃ tree, Written tree ('[' :: taken) ∧ IsRecord columns blank tree record := by
  cases hslots with
  | nil =>
    refine takes_readListEnd.map ?_
    rintro _ _ ⟨gap, hgap, rfl⟩
    exact ⟨.list [], .emptyList hgap, .positional (.nil blank)⟩
  | @cons column slot columns slots hslot hslots =>
    refine (takes_first .square).bind ?_
    rintro found front (⟨rfl, gap, hgap, rfl⟩ | ⟨rfl, hfront⟩)
    · refine takes_pure ⟨.list [], ?_, .positional (.nil blank)⟩
      rw [List.append_nil]
      exact .emptyList hgap
    · refine hslot.read.bind ?_
      rintro change _ ⟨tree, before, text, rfl, hbefore, htree, hmeans⟩
      refine (takes_readPositions hslots (change blank)).imp ?_
      rintro result taken ⟨items, hitems, hpositions⟩
      refine ⟨.list (tree :: items), ?_, .positional (.cons hmeans hpositions)⟩
      have henclosed := (hitems.enclosed (hfront.append hbefore) htree).list
      simpa only [List.append_assoc] using henclosed

theorem sound_record (expected : String) (blank : ρ) {fields : Fields ρ}
    (h : List.Forall₂ Slot.Sound fields.columns fields.slots) :
    (Schema.record expected blank fields).read.Sound
      (Schema.record expected blank fields).Means := by
  have hmeans (tree : Tree) (record : ρ) (hrecord : IsRecord fields.columns blank tree record) :
      (Schema.record expected blank fields).Means tree record := by
    rwa [Schema.Means]
  rw [Schema.read]
  apply sound_readTyped
  intro c reader hstart
  by_cases hsquare : c = Bracket.square.opener
  · rw [if_pos hsquare] at hstart
    obtain rfl := Option.some.inj hstart
    subst hsquare
    refine (sound_readPositional h blank).imp ?_
    rintro record taken ⟨tree, htree, hrecord⟩
    exact ⟨tree, htree, hmeans tree record hrecord⟩
  · rw [if_neg hsquare] at hstart
    obtain ⟨rfl, ⟨⟩⟩ := Option.ite_none_right_eq_some.mp hstart
    refine (sound_readKeyed h blank).imp ?_
    rintro record taken ⟨tree, htree, hrecord⟩
    exact ⟨tree, htree, hmeans tree record hrecord⟩

/-! ### Schemas -/

/-- A field is read as null, or as a value that the field's schema accepts. -/
theorem sound_readField {α : Type} {value : Reader α} {M : Tree → α → Prop} (h : value.Sound M)
    (set : α → ρ → ρ) :
    (readField value set).Sound fun tree change =>
      tree = .null ∧ change = id ∨ ∃ v, M tree v ∧ change = set v := by
  refine takes_blanks.bind ?_
  intro _ gap hgap
  refine takes_nextIf? ?_ ?_
  · refine h.map ?_
    rintro v _ ⟨tree, more, text, rfl, hmore, htext, hv⟩
    exact ⟨tree, gap ++ more, text, (List.append_assoc ..).symm, hgap.append hmore, htext,
      .inr ⟨v, hv, rfl⟩⟩
  · intro c hc
    obtain rfl := of_decide_eq_true hc
    refine (takes_word _).map ?_
    rintro _ _ rfl
    exact ⟨.null, gap, _, rfl, hgap, .null, .inl ⟨rfl, rfl⟩⟩

mutual

/-- **Whatever is accepted is written**: a value that is read by a schema is one that a tree stands
for, and a text of that tree was taken. -/
theorem Schema.sound : {α : Type} → (schema : Schema α) → schema.read.Sound schema.Means
  | _, .text => sound_text
  | _, .flag => sound_flag
  | _, .word expected size => sound_word expected size
  | _, .list item => sound_list item.sound
  | _, .record expected blank fields => sound_record expected blank fields.sound
  | _, .map f schema => sound_map f schema.sound

theorem Fields.sound : {ρ : Type} → (fields : Fields ρ) →
    List.Forall₂ Slot.Sound fields.columns fields.slots
  | _, .nil => by
    rw [Fields.columns, Fields.slots]
    exact .nil
  | _, .cons name schema set more => by
    rw [Fields.columns, Fields.slots]
    exact .cons ⟨rfl, sound_readField schema.sound set⟩ more.sound

end

end CallGraph.Json
