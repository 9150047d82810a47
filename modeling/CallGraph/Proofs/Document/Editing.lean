import CallGraph.Proofs.Document.RoundTrip
import CallGraph.Proofs.Json.Editing
import Mathlib.Data.List.Permutation
import Mathlib.Logic.Relation

/-!
# Texts of documents that differ and load alike

Unknown members, null members and the order of members do not matter in any record of a document,
wherever it stands in the text.

* `Layout.document_lawful` — no two fields of any record get in each other's way;
* `Document.parse_gains_unknown` — members with unknown keys are invisible;
* `Document.parse_null_members` — a null member means the same as none;
* `Document.parse_member_order` — members may stand in any order, and none of a field twice.
-/

namespace CallGraph

open Json Relation

/-! ### The layouts are lawful throughout -/

namespace Layout

theorem pathNode_lawful : pathNode.Lawful := by
  refine ⟨pathNodeFields_lawful, ?_⟩
  simp [pathNodeFields, word64, optionalText, callKind]

theorem chain_lawful : chain.Lawful := by
  refine ⟨chainFields_lawful, ?_⟩
  simp [chainFields, word64, pathNode_lawful]

theorem metadata_lawful : metadata.Lawful := by
  refine ⟨metadataFields_lawful, ?_⟩
  simp [metadataFields]

theorem service_lawful : service.Lawful := by
  refine ⟨serviceFields_lawful, ?_⟩
  simp [serviceFields, optionalText]

theorem class_lawful : classRecord.Lawful := by
  refine ⟨classFields_lawful, ?_⟩
  simp [classFields, classKind, optionalText]

theorem method_lawful : method.Lawful := by
  refine ⟨methodFields_lawful, ?_⟩
  simp [methodFields, word32, optionalText]

theorem call_lawful : call.Lawful := by
  refine ⟨callFields_lawful, ?_⟩
  simp [callFields, word32, callKind, optionalText]

/-- No two fields of any record of a document get in each other's way. -/
theorem document_lawful : document.Lawful := by
  refine ⟨documentFields_lawful, ?_⟩
  simp [documentFields, metadata_lawful, service_lawful,
    class_lawful, method_lawful, call_lawful, chain_lawful]

end Layout

/-! ### Unknown members -/

/-- **Unknown members are invisible.**  If a text is accepted, a member may be put anywhere into any
record object of its tree, with any key that is not the name of a field of that record and any
value: every text of the new tree is accepted as the same document, and so is the old text with any
text of the member put into it. -/
theorem Document.parse_gains_unknown {text : String} {d : Document}
    (h : Document.parse text = .ok d) :
    ∃ tree : Tree, tree.WrittenAs text ∧ ∀ member grown,
      Layout.document.Gains IsUnknown member tree grown →
        (∀ more, grown.WrittenAs more → Document.parse more = .ok d)
        ∧ ∀ item, WrittenMember member item →
          ∃ more, grown.WrittenAs more ∧ WithItem item text more := by
  obtain ⟨tree, htree, hmeans⟩ := Schema.parse_eq_ok_iff.mp h
  refine ⟨tree, htree, ?_⟩
  intro member grown hgains
  refine ⟨?_, fun item hitem => hgains.exists_more htree hitem⟩
  intro more hmore
  exact hmore.parse_eq_ok_iff.mpr (hgains.means_of_unknown hmeans)

/-- A member whose key is written as it is. -/
theorem writtenMember_plain (name : String) {tree : Tree} {text : List Char} (h : Written tree text)
    (hname : name.toList.all isPlain = true := by rfl) :
    WrittenMember (name.toList, tree) ('"' :: (name.toList ++ '"' :: ':' :: text)) :=
  .intro (spellsAll_self hname).isBody isGap_nil isGap_nil h

/-- The member of a document that gives one class with some members. -/
def classesMember (members : List (List Char × Tree)) : List Char × Tree :=
  ("classes".toList, .list [.object members])

theorem classesMember_written {members : List (List Char × Tree)} {text : List Char}
    (h : Sequence WrittenMember members text) :
    WrittenMember (classesMember members)
      ("\"classes\":[\x7b".toList ++ (text ++ "\x7d]".toList)) := by
  have hmember : WrittenMember (classesMember members) _ :=
    writtenMember_plain "classes" (.list (Sequence.single (.object h)))
  simpa using hmember

theorem classesMember_recordPlace (front back : List (List Char × Tree)) :
    Layout.document.RecordPlace Layout.classFields.names
      fun tree => .object (front ++ ("classes".toList, .list [tree]) :: back) :=
  .intro (.member front back (.there (by decide) (.there (by decide) .here)) spellsAll_self
    (.item [] [] .here))

theorem writtenAs_object {members : List (List Char × Tree)} {text : List Char}
    (h : Sequence WrittenMember members text) :
    (Tree.object members).WrittenAs (String.ofList ('\x7b' :: (text ++ ['\x7d']))) :=
  ⟨[], _, [], .object h, isGap_nil, isGap_nil, by simp⟩

/-- The tree of a document with one class and nothing else. -/
def classTree (members : List (List Char × Tree)) : Tree := .object [classesMember members]

theorem classTree_writtenAs {members : List (List Char × Tree)} {text : List Char}
    (h : Sequence WrittenMember members text) :
    (classTree members).WrittenAs
      (String.ofList
        ('\x7b' :: ("\"classes\":[\x7b".toList ++ (text ++ "\x7d]".toList) ++ ['\x7d']))) :=
  writtenAs_object (Sequence.single (classesMember_written h))

/-- The member of a class that gives its identifier. -/
def idMember : List Char × Tree := ("id".toList, .text ['c'])

theorem idMember_written : WrittenMember idMember "\"id\":\"c\"".toList := by
  have hvalue : SpellsAll ['c'] ['c'] := spellsAll_self
  exact writtenMember_plain "id" (.text hvalue.isBody)

/-- An unknown member: a list with a number beyond all bounds. -/
def boundless : List Char × Tree :=
  ("x".toList, .list [.number ⟨false, ['1'], none, some ⟨false, ['9', '9', '9']⟩⟩])

theorem boundless_written : WrittenMember boundless "\"x\":[1e999]".toList := by
  have hwhole : IsWhole ['1'] := ⟨isDigits_of_all (List.cons_ne_nil _ _), by decide⟩
  have hexponent :
      WritesExponent (some ⟨false, ['9', '9', '9']⟩) ('e' :: ([] ++ ['9', '9', '9'])) :=
    .some (.inl rfl) (.inl rfl) (isDigits_of_all (List.cons_ne_nil _ _))
  have hnumber : Numeral.Writes ⟨false, ['1'], none, some ⟨false, ['9', '9', '9']⟩⟩ _ :=
    .intro hwhole .none hexponent
  exact writtenMember_plain "x" (.list (Sequence.single (.number hnumber)))

/-- A class keeps its meaning when an unknown member is put into it. -/
theorem Document.parse_gains_unknown_class :
    Document.parse "\x7b\"classes\":[\x7b\"id\":\"c\"\x7d]\x7d" = .ok { classes := [{ id := "c" }] }
    ∧ Document.parse "\x7b\"classes\":[\x7b\"id\":\"c\",\"x\":[1e999]\x7d]\x7d"
      = .ok { classes := [{ id := "c" }] } := by
  have h : Document.parse "\x7b\"classes\":[\x7b\"id\":\"c\"\x7d]\x7d"
      = .ok { classes := [{ id := "c" }] } := by cbv
  obtain ⟨tree, htree, hgains⟩ := Document.parse_gains_unknown h
  obtain rfl := htree.unique (classTree_writtenAs (Sequence.single idMember_written))
  have hgrown : Layout.document.Gains IsUnknown boundless (classTree [idMember])
      (classTree [idMember, boundless]) :=
    .intro [idMember] [] (classesMember_recordPlace [] []) ⟨"x", by decide, spellsAll_self⟩
  refine ⟨h, (hgains _ _ hgrown).1 _ ?_⟩
  exact classTree_writtenAs
    (.append (Sequence.single idMember_written) (Sequence.single boundless_written))

/-! ### Null members -/

/-- **Null and absence mean the same.**  If a text is accepted, a null member of a field may be
taken out of any record object of its tree, and put into any that has no member of that field: every
text of the new tree is accepted as the same document, and there is one that differs by a text of
the member only.  Accepted texts whose trees differ in such members only hold the same document. -/
theorem Document.parse_null_members {text : String} {d : Document}
    (h : Document.parse text = .ok d) :
    ∃ tree : Tree, tree.WrittenAs text
      ∧ (∀ member less, Layout.document.Gains IsNull member less tree →
        (∀ other, less.WrittenAs other → Document.parse other = .ok d)
        ∧ ∃ item other, WrittenMember member item ∧ less.WrittenAs other ∧ WithItem item other text)
      ∧ (∀ member grown, Layout.document.Gains IsMissing member tree grown →
        (∀ more, grown.WrittenAs more → Document.parse more = .ok d)
        ∧ ∀ item, WrittenMember member item →
          ∃ more, grown.WrittenAs more ∧ WithItem item text more)
      ∧ ∀ other second e, second.WrittenAs other → Document.parse other = .ok e →
        Join (ReflTransGen Layout.document.LosesNull) tree second → e = d := by
  -- deletions one after the other keep the meaning, and there are texts of what is left
  have hless {tree less : Tree} {text : String} {d : Document} (htext : tree.WrittenAs text)
      (hmeans : Layout.document.Means tree d)
      (hsteps : ReflTransGen Layout.document.LosesNull tree less) :
      (∃ other, less.WrittenAs other) ∧ Layout.document.Means less d := by
    induction hsteps with
    | refl => exact ⟨⟨text, htext⟩, hmeans⟩
    | tail _ hstep ih =>
      obtain ⟨⟨other, hother⟩, hmeans⟩ := ih
      obtain ⟨member, hgains⟩ := hstep
      obtain ⟨_, less, -, hless, -⟩ := hgains.exists_less hother
      exact ⟨⟨less, hless⟩, hgains.means_of_null hmeans⟩
  obtain ⟨tree, htree, hmeans⟩ := Schema.parse_eq_ok_iff.mp h
  refine ⟨tree, htree, ?_, ?_, ?_⟩
  · intro member less hgains
    refine ⟨?_, hgains.exists_less htree⟩
    intro other hother
    exact hother.parse_eq_ok_iff.mpr (hgains.means_of_null hmeans)
  · intro member grown hgains
    refine ⟨?_, fun item hitem => hgains.exists_more htree hitem⟩
    intro more hmore
    exact hmore.parse_eq_ok_iff.mpr (hgains.means_of_missing hmeans)
  · rintro other second e hsecond hother ⟨common, hfirst, hagain⟩
    obtain ⟨⟨left, hleft⟩, hcommon⟩ := hless htree hmeans hfirst
    obtain ⟨-, hsame⟩ := hless hsecond (hsecond.parse_eq_ok_iff.mp hother) hagain
    have hd := hleft.parse_eq_ok_iff.mpr hcommon
    rw [hleft.parse_eq_ok_iff.mpr hsame] at hd
    exact Except.ok.inj hd

/-- A null member of a class. -/
def nullMember : List Char × Tree := ("annotations".toList, .null)

theorem nullMember_written : WrittenMember nullMember "\"annotations\":null".toList :=
  writtenMember_plain "annotations" .null

/-- A class keeps its meaning when a null member is taken out of it. -/
theorem Document.parse_null_members_class :
    Document.parse "\x7b\"classes\":[\x7b\"id\":\"c\",\"annotations\":null\x7d]\x7d"
      = .ok { classes := [{ id := "c" }] }
    ∧ Document.parse "\x7b\"classes\":[\x7b\"id\":\"c\"\x7d]\x7d"
      = .ok { classes := [{ id := "c" }] } := by
  have h : Document.parse "\x7b\"classes\":[\x7b\"id\":\"c\",\"annotations\":null\x7d]\x7d"
      = .ok { classes := [{ id := "c" }] } := by cbv
  obtain ⟨tree, htree, hloses, -⟩ := Document.parse_null_members h
  obtain rfl := htree.unique (classTree_writtenAs
    (.append (Sequence.single idMember_written) (Sequence.single nullMember_written)))
  have hless : Layout.document.Gains IsNull nullMember (classTree [idMember])
      (classTree [idMember, nullMember]) :=
    .intro [idMember] [] (classesMember_recordPlace [] [])
      ⟨rfl, "annotations", by decide, spellsAll_self⟩
  refine ⟨h, (hloses _ _ hless).1 _ ?_⟩
  exact classTree_writtenAs (Sequence.single idMember_written)

/-! ### The order of members -/

/-- **The order of members does not matter, and no field is overwritten.**  When the members of
record objects are put in other orders, in one place after the other, texts of the trees are
accepted alike and as the same document; and no accepted text has a tree with a known name twice in
a record object. -/
theorem Document.parse_member_order :
    (∀ tree other : Tree, ReflTransGen Layout.document.Reorders tree other →
      ∀ text more, tree.WrittenAs text → other.WrittenAs more →
        ∀ d, Document.parse text = .ok d ↔ Document.parse more = .ok d)
    ∧ ∀ text d, Document.parse text = .ok d → ∃ tree : Tree, tree.WrittenAs text
      ∧ ∀ names around, Layout.document.RecordPlace names around → ∀ name ∈ names,
        ∀ front middle back first second, Spelled name first → Spelled name second →
          tree ≠ around (.object (front ++ first :: (middle ++ second :: back))) := by
  refine ⟨?_, ?_⟩
  · intro tree other hsteps text more htext hmore d
    rw [Document.parse, Document.parse, htext.parse_eq_ok_iff, hmore.parse_eq_ok_iff]
    clear hmore
    induction hsteps with
    | refl => rfl
    | tail _ hstep ih =>
      exact ih.trans ⟨hstep.means Layout.document_lawful, hstep.symm.means Layout.document_lawful⟩
  · intro text d h
    obtain ⟨tree, htree, hmeans⟩ := Schema.parse_eq_ok_iff.mp h
    refine ⟨tree, htree, ?_⟩
    rintro names around place name hname front middle back first second hfirst hsecond rfl
    exact Schema.not_means_repeated place hname hfirst hsecond front middle back d hmeans

/-- The member of a document that gives no services. -/
def noServices : List Char × Tree := ("services".toList, .list [])

theorem noServices_written : WrittenMember noServices "\"services\":[]".toList :=
  writtenMember_plain "services" (.emptyList isGap_nil)

/-- The members of a document and of its class may be put in another order at once, and no member
may be there twice. -/
theorem Document.parse_member_order_class :
    Document.parse "\x7b\"classes\":[\x7b\"annotations\":null,\"id\":\"c\"\x7d],\"services\":[]\x7d"
      = .ok { classes := [{ id := "c" }] }
    ∧ ∀ d, Document.parse "\x7b\"classes\":[\x7b\"id\":\"c\",\"id\":\"c\"\x7d]\x7d" ≠ .ok d := by
  have hid := Sequence.single idMember_written
  have hnull := Sequence.single nullMember_written
  have hservices := Sequence.single noServices_written
  refine ⟨?_, ?_⟩
  · have h : Document.parse
        "\x7b\"services\":[],\"classes\":[\x7b\"id\":\"c\",\"annotations\":null\x7d]\x7d"
          = .ok { classes := [{ id := "c" }] } := by cbv
    have hinner : Layout.document.Reorders
        (.object [noServices, classesMember [idMember, nullMember]])
        (.object [noServices, classesMember [nullMember, idMember]]) :=
      .intro (classesMember_recordPlace [noServices] []) (.swap ..)
    have houter : Layout.document.Reorders
        (.object [noServices, classesMember [nullMember, idMember]])
        (.object [classesMember [nullMember, idMember], noServices]) :=
      .intro (.intro .here) (.swap ..)
    have hbefore := hservices.append (Sequence.single (classesMember_written (hid.append hnull)))
    have hafter := (Sequence.single (classesMember_written (hnull.append hid))).append hservices
    exact (Document.parse_member_order.1 _ _ (.tail (.single hinner) houter) _ _
      (writtenAs_object hbefore) (writtenAs_object hafter) _).mp h
  · intro d h
    obtain ⟨tree, htree, hrepeated⟩ := Document.parse_member_order.2 _ d h
    have hspelled : Spelled "id" idMember := spellsAll_self
    refine hrepeated _ _ (classesMember_recordPlace [] []) "id" (by decide) [] [] []
      idMember idMember hspelled hspelled ?_
    exact htree.unique (classTree_writtenAs (hid.append hid))

end CallGraph
