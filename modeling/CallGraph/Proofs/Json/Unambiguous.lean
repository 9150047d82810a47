import CallGraph.Proofs.Json.Accepting

/-!
# A text has one tree

Wherever the text of a tree ends in a longer text, the values that are passed over say where, so a
text is taken apart in one way only.  With this a schema accepts a text exactly if the tree of the
text stands for a value.

* `Delimited` — texts that end in one place only;
* `Sequence.unique`, `Written.unique` — a text has one tree;
* `Tree.WrittenAs` — the whole texts of a tree;
* `Schema.parse_eq_ok_iff`, `Tree.WrittenAs.parse_eq_ok_iff` — the texts that are accepted.
-/

namespace CallGraph.Json

open Reader

variable {α : Type}

/-! ### Where texts end -/

/-- Texts end in one place only, wherever they stand before something that ends a number. -/
def Delimited (R : α → List Char → Prop) : Prop :=
  ∀ {a b : α} {text other rest more : List Char}, R a text → R b other → StopsNumber rest →
    StopsNumber more → text ++ rest = other ++ more → text = other ∧ rest = more

/-- The texts of trees end where passing over them ends. -/
theorem delimited_written : Delimited Written := by
  intro a b text other rest more htext hother hrest hmore heq
  have hskip := run_skipValue htext hrest
  rw [heq, run_skipValue hother hmore] at hskip
  obtain rfl := (Prod.mk.inj (Except.ok.inj hskip)).2
  exact ⟨List.append_cancel_right heq, rfl⟩

/-- What may stand between quotes ends at the closing quote. -/
theorem IsBody.delimited {body other rest more : List Char} (h : IsBody body)
    (hother : IsBody other) (heq : body ++ '"' :: rest = other ++ '"' :: more) :
    body = other ∧ rest = more := by
  have hskip := run_skipText h rest
  rw [heq, run_skipText hother more] at hskip
  obtain rfl := (Prod.mk.inj (Except.ok.inj hskip)).2
  exact ⟨List.append_cancel_right heq, rfl⟩

/-- Blanks end before what is no blank. -/
theorem IsGap.delimited {gap other text more : List Char} (h : IsGap gap) (hother : IsGap other)
    (htext : text.dropWhile isBlank = text) (hmore : more.dropWhile isBlank = more)
    (heq : gap ++ text = other ++ more) : text = more := by
  have hdrop := dropWhile_gap h text
  rw [heq, dropWhile_gap hother, htext, hmore] at hdrop
  exact hdrop.symm

/-- An item behind blanks is found in one place only. -/
theorem Delimited.item {R : α → List Char → Prop} (hR : Delimited R)
    (hbegins : ∀ a text, R a text → BeginsItem text) {a b : α}
    {before gap text other rest more : List Char} (hbefore : IsGap before) (hgap : IsGap gap)
    (ha : R a text) (hb : R b other) (hrest : StopsNumber rest) (hmore : StopsNumber more)
    (heq : before ++ (text ++ rest) = gap ++ (other ++ more)) : text = other ∧ rest = more := by
  have htext := ((hbegins a text ha).append rest).dropWhile
  have hother := ((hbegins b other hb).append more).dropWhile
  exact hR ha hb hrest hmore (hbefore.delimited hgap htext hother heq)

/-- A member is taken apart in one way only. -/
theorem WrittenMember.parts {key other : List Char} {tree value : Tree}
    {text whole rest more : List Char} (h : WrittenMember (key, tree) text)
    (hother : WrittenMember (other, value) whole) (hrest : StopsNumber rest)
    (hmore : StopsNumber more) (heq : text ++ rest = whole ++ more) :
    key = other ∧ rest = more
      ∧ ∃ written, Written tree written ∧ Written value written ∧ written.length ≤ text.length := by
  have hcolon (text : List Char) : (':' :: text).dropWhile isBlank = ':' :: text :=
    List.dropWhile_cons_of_neg (by decide)
  cases h with
  | @intro _ before behind written _ hkey hbefore hbehind hwritten =>
    cases hother with
    | @intro _ gap tail found _ hbody hgap htail hfound =>
      simp only [List.cons_append, List.append_assoc, List.cons.injEq, true_and] at heq
      obtain ⟨rfl, hrests⟩ := hkey.delimited hbody heq
      obtain ⟨-, hvalues⟩ :=
        List.cons.inj (hbefore.delimited hgap (hcolon _) (hcolon _) hrests)
      obtain ⟨rfl, rfl⟩ := delimited_written.item (fun _ _ => Written.beginsItem) hbehind htail
        hwritten hfound hrest hmore hvalues
      refine ⟨rfl, rfl, written, hwritten, hfound, ?_⟩
      simp only [List.length_cons, List.length_append]
      omega

theorem delimited_writtenMember : Delimited WrittenMember := by
  rintro ⟨key, tree⟩ ⟨other, value⟩ text whole rest more htext hwhole hrest hmore heq
  obtain ⟨-, rfl, -⟩ := htext.parts hwhole hrest hmore heq
  exact ⟨List.append_cancel_right heq, rfl⟩

/-! ### Items of sequences -/

theorem IsGap.stopsNumber {gap : List Char} (h : IsGap gap) : StopsNumber gap := by
  have hstop := stopsNumber_gap h stopsNumber_nil
  rwa [List.append_nil] at hstop

theorem IsGap.not_comma {gap front more : List Char} (h : IsGap gap)
    (heq : gap = front ++ ',' :: more) : False := by
  have hmem : ',' ∈ gap := by simp [heq]
  exact absurd (h ',' hmem) (by decide)

/-- A text is a sequence of one list of items, if each of its items is one item only. -/
theorem Sequence.unique {R : α → List Char → Prop} {n : Nat} (hR : Delimited R)
    (hbegins : ∀ a text, R a text → BeginsItem text)
    (hitem : ∀ {a b : α} {text : List Char}, R a text → R b text → text.length ≤ n → a = b)
    {as bs : List α} {text other : List Char} (h : Sequence R as text)
    (hother : Sequence R bs other) (heq : text = other) (hn : text.length ≤ n) : as = bs := by
  have hcomma {gap : List Char} (hgap : IsGap gap) (rest : List Char) :
      StopsNumber (gap ++ ',' :: rest) := stopsNumber_gap hgap (stopsNumber_cons (by decide) rest)
  induction h generalizing bs other with
  | @last a before text behind hbefore ha hbehind =>
    have hlength : text.length ≤ n := by
      simp only [List.length_append] at hn
      omega
    cases hother with
    | @last b gap found tail hgap hb htail =>
      obtain ⟨rfl, -⟩ :=
        hR.item hbegins hbefore hgap ha hb hbehind.stopsNumber htail.stopsNumber heq
      rw [hitem ha hb hlength]
    | more hgap hb htail hmore =>
      obtain ⟨-, hrest⟩ :=
        hR.item hbegins hbefore hgap ha hb hbehind.stopsNumber (hcomma htail _) heq
      exact (hbehind.not_comma hrest).elim
  | @more a as before text behind rest hbefore ha hbehind hmore ih =>
    have hlength : text.length ≤ n ∧ rest.length ≤ n := by
      simp only [List.length_append, List.length_cons] at hn
      omega
    cases hother with
    | @last b gap found tail hgap hb htail =>
      obtain ⟨-, hrest⟩ :=
        hR.item hbegins hbefore hgap ha hb (hcomma hbehind _) htail.stopsNumber heq
      exact (htail.not_comma hrest.symm).elim
    | @more b bs gap found tail others hgap hb htail hothers =>
      obtain ⟨rfl, hrest⟩ :=
        hR.item hbegins hbefore hgap ha hb (hcomma hbehind _) (hcomma htail _) heq
      have hafter (more : List Char) : (',' :: more).dropWhile isBlank = ',' :: more :=
        List.dropWhile_cons_of_neg (by decide)
      obtain ⟨-, hsame⟩ := List.cons.inj (hbehind.delimited htail (hafter _) (hafter _) hrest)
      rw [hitem ha hb hlength.1, ih hothers hsame hlength.2]

/-- What stands between brackets is one list of items, if each of its items is one item only. -/
theorem Enclosed.unique {R : α → List Char → Prop} {bracket : Bracket} {n : Nat} (hR : Delimited R)
    (hbegins : ∀ a text, R a text → BeginsItem text)
    (hitem : ∀ {a b : α} {text : List Char}, R a text → R b text → text.length ≤ n → a = b)
    {as bs : List α} {text other : List Char} (h : Enclosed R bracket as text)
    (hother : Enclosed R bracket bs other) (heq : text = other) (hn : text.length ≤ n) :
    as = bs := by
  -- blanks are no sequence, since an item begins with something else
  have hblank {gap items : List Char} {as : List α} (hgap : IsGap gap) (h : Sequence R as items)
      (heq : gap = items) : False := by
    obtain ⟨c, more, hdrop, -⟩ := h.beginsItem hbegins []
    have hnil := dropWhile_gap hgap []
    rw [heq, hdrop] at hnil
    cases hnil
  cases h with
  | empty hgap =>
    cases hother with
    | empty => rfl
    | items hothers => exact (hblank hgap hothers (List.append_cancel_right heq)).elim
  | items hitems =>
    cases hother with
    | empty hgap => exact (hblank hgap hitems (List.append_cancel_right heq).symm).elim
    | items hothers =>
      refine hitems.unique hR hbegins hitem hothers (List.append_cancel_right heq) ?_
      simp only [List.length_append] at hn
      omega

/-! ### Trees -/

/-- The first character of a tree's text says which tree it is. -/
theorem Written.by_first {tree : Tree} {c : Char} {more : List Char}
    (h : Written tree (c :: more)) :
    (c = 'n' ∧ tree = .null) ∨ (c = 't' ∧ tree = .flag Bool.true)
    ∨ (c = 'f' ∧ tree = .flag Bool.false)
    ∨ (Numeral.starts c = Bool.true
      ∧ ∃ numeral, tree = .number numeral ∧ numeral.Writes (c :: more))
    ∨ (c = '"' ∧ ∃ body, tree = .text body ∧ more = body ++ ['"'])
    ∨ (c = '[' ∧ ∃ items, tree = .list items ∧ Enclosed Written .square items more)
    ∨ (c = '\x7b' ∧ ∃ members, tree = .object members
      ∧ Enclosed WrittenMember .curly members more) := by
  generalize htext : c :: more = text at h
  cases h with
  | number hwrites =>
    obtain ⟨d, rest, rfl, hd⟩ := hwrites.cons
    obtain ⟨rfl, rfl⟩ := List.cons.inj htext
    exact .inr (.inr (.inr (.inl ⟨hd, _, rfl, hwrites⟩)))
  | null | true | false | text =>
    obtain ⟨rfl, rfl⟩ := List.cons.inj htext
    simp
  | emptyList hgap =>
    obtain ⟨rfl, rfl⟩ := List.cons.inj htext
    exact .inr (.inr (.inr (.inr (.inr (.inl ⟨rfl, _, rfl, .empty hgap⟩)))))
  | list hitems =>
    obtain ⟨rfl, rfl⟩ := List.cons.inj htext
    exact .inr (.inr (.inr (.inr (.inr (.inl ⟨rfl, _, rfl, .items hitems⟩)))))
  | emptyObject hgap =>
    obtain ⟨rfl, rfl⟩ := List.cons.inj htext
    exact .inr (.inr (.inr (.inr (.inr (.inr ⟨rfl, _, rfl, .empty hgap⟩)))))
  | object hmembers =>
    obtain ⟨rfl, rfl⟩ := List.cons.inj htext
    exact .inr (.inr (.inr (.inr (.inr (.inr ⟨rfl, _, rfl, .items hmembers⟩)))))

/-- A text is the text of one numeral only. -/
theorem Numeral.Writes.unique {m n : Numeral} {text : List Char} (h : m.Writes text)
    (hother : n.Writes text) : m = n := by
  obtain ⟨c, more, rfl, -⟩ := h.cons
  have hread : (Numeral.read .endInValue c).run (more ++ []) = .ok (m, []) :=
    run_read h stopsNumber_nil .endInValue
  rw [run_read hother stopsNumber_nil] at hread
  exact (Prod.mk.inj (Except.ok.inj hread)).1.symm

/-- Trees of one text are the same, by the length of the text. -/
theorem written_unique (n : Nat) {tree other : Tree} {text : List Char} (h : Written tree text)
    (hother : Written other text) (hn : text.length ≤ n) : tree = other := by
  induction n generalizing tree other text with
  | zero =>
    obtain ⟨c, more, rfl, -⟩ := h.beginsItem
    simp at hn
  | succ n ih =>
    obtain ⟨c, more, rfl, -⟩ := h.beginsItem
    have hmore : more.length ≤ n := by simpa using hn
    have hsecond := hother.by_first
    symm
    rcases h.by_first with ⟨rfl, rfl⟩ | ⟨rfl, rfl⟩ | ⟨rfl, rfl⟩ | ⟨hc, numeral, rfl, hwrites⟩
      | ⟨rfl, body, rfl, rfl⟩ | ⟨rfl, items, rfl, hitems⟩ | ⟨rfl, members, rfl, hmembers⟩
    -- another tree with the same first character is of the same kind
    · simpa [Numeral.starts] using hsecond
    · simpa [Numeral.starts] using hsecond
    · simpa [Numeral.starts] using hsecond
    · have hne {d : Char} (hd : Numeral.starts d = false) : c ≠ d := Numeral.starts_ne hc hd
      simp only [hc, hne (d := 'n') rfl, hne (d := 't') rfl, hne (d := 'f') rfl, hne (d := '"') rfl,
        hne (d := '[') rfl, hne (d := '\x7b') rfl, false_and, or_false, false_or,
        true_and] at hsecond
      obtain ⟨found, rfl, hfound⟩ := hsecond
      rw [hfound.unique hwrites]
    · obtain ⟨found, rfl, hfound⟩ :
          ∃ found, other = .text found ∧ body ++ ['"'] = found ++ ['"'] := by
        simpa [Numeral.starts] using hsecond
      rw [List.append_cancel_right hfound]
    · obtain ⟨found, rfl, hfound⟩ : ∃ found, other = .list found
          ∧ Enclosed Written .square found more := by
        simpa [Numeral.starts] using hsecond
      rw [hfound.unique delimited_written (fun _ _ => Written.beginsItem) ih hitems rfl hmore]
    · obtain ⟨found, rfl, hfound⟩ : ∃ found, other = .object found
          ∧ Enclosed WrittenMember .curly found more := by
        simpa [Numeral.starts] using hsecond
      have hmember {a b : List Char × Tree} {text : List Char} (ha : WrittenMember a text)
          (hb : WrittenMember b text) (hn : text.length ≤ n) : a = b := by
        obtain ⟨hkey, -, written, hfirst, hsecond, hlength⟩ :=
          ha.parts hb stopsNumber_nil stopsNumber_nil rfl
        exact Prod.ext hkey (ih hfirst hsecond (hlength.trans hn))
      rw [hfound.unique delimited_writtenMember (fun _ _ => WrittenMember.beginsItem) hmember
        hmembers rfl hmore]

/-- **A text is the text of one tree only.** -/
theorem Written.unique {tree other : Tree} {text : List Char} (h : Written tree text)
    (hother : Written other text) : tree = other :=
  written_unique text.length h hother (Nat.le_refl _)

/-! ### Whole texts -/

/-- A whole text of a tree: one of its texts with blanks around it. -/
def Tree.WrittenAs (tree : Tree) (text : String) : Prop :=
  ∃ before written behind, Written tree written ∧ IsGap before ∧ IsGap behind
    ∧ text = String.ofList (before ++ (written ++ behind))

/-- A whole text has one tree. -/
theorem Tree.WrittenAs.unique {tree other : Tree} {text : String} (h : tree.WrittenAs text)
    (hother : other.WrittenAs text) : tree = other := by
  obtain ⟨before, written, behind, htree, hbefore, hbehind, rfl⟩ := h
  obtain ⟨gap, found, tail, hfound, hgap, htail, htext⟩ := hother
  have hlist := String.ofList_injective htext
  obtain ⟨rfl, -⟩ := delimited_written.item (fun _ _ => Written.beginsItem) hbefore hgap htree
    hfound hbehind.stopsNumber htail.stopsNumber hlist
  exact htree.unique hfound

/-- **Exactly the texts of trees that stand for a value are accepted**, each with that value. -/
theorem Schema.parse_eq_ok_iff {schema : Schema α} {text : String} {value : α} :
    schema.parse text = .ok value
      ↔ ∃ tree : Tree, tree.WrittenAs text ∧ schema.Means tree value := by
  constructor
  · intro h
    obtain ⟨behind, hread, hbehind⟩ := Schema.parse_eq_ok_iff_run.mp h
    obtain ⟨_, htext, tree, before, written, rfl, hbefore, htree, hvalue⟩ :=
      schema.sound _ _ _ hread
    refine ⟨tree, ⟨before, written, behind, htree, hbefore, hbehind, ?_⟩, hvalue⟩
    rw [← List.append_assoc, ← htext, String.ofList_toList]
  · rintro ⟨tree, ⟨before, written, behind, htree, hbefore, hbehind, rfl⟩, hvalue⟩
    exact Schema.parse_of_means hvalue hbefore htree hbehind

/-- A text of a tree is accepted exactly if the tree stands for a value. -/
theorem Tree.WrittenAs.parse_eq_ok_iff {schema : Schema α} {tree : Tree} {text : String} {value : α}
    (h : tree.WrittenAs text) : schema.parse text = .ok value ↔ schema.Means tree value := by
  rw [Schema.parse_eq_ok_iff]
  constructor
  · rintro ⟨other, hother, hvalue⟩
    rwa [h.unique hother]
  · intro hvalue
    exact ⟨tree, h, hvalue⟩

end CallGraph.Json
