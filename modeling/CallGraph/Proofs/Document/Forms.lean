import CallGraph.Proofs.Document.Editing
import CallGraph.Proofs.Json.Forms

/-!
# Documents with records in lists

Any record of a document may be written as a list of its first field values.

* `Document.parse_record_forms` — lists and objects load alike, wherever records stand, and lists
  that are too long are rejected.
-/

namespace CallGraph

open Json Relation

/-- **The two forms of a record agree.**  When records are changed from objects to lists of their
first field values or back, in one place after the other, texts of the trees are accepted alike and
as the same document.  A text with a list of more items than the record has fields is rejected.  One
with at most as many is accepted only if the items stand for a record, and the other fields of this
record are those of the blank one.  The document has the record in the place of the list: it is what
one function, which is the same for all trees in the place, makes of the record. -/
theorem Document.parse_record_forms :
    (∀ tree other : Tree, ReflTransGen Layout.document.SwapsForm tree other →
      ∀ text more, tree.WrittenAs text → other.WrittenAs more →
        ∀ d, Document.parse text = .ok d ↔ Document.parse more = .ok d)
    ∧ ∀ (ρ : Type) (expected : String) (blank : ρ) (fields : Fields ρ) (around : Tree → Tree),
      (Schema.record expected blank fields).Place Layout.document around →
        ∀ items text, (around (.list items)).WrittenAs text → ∀ d, Document.parse text = .ok d →
          items.length ≤ fields.names.length
          ∧ ∃ record, ∃ put : ρ → Document,
            (Schema.record expected blank fields).Means (.list items) record
              ∧ (Schema.record expected blank fields).PutsAt Layout.document around put
              ∧ put record = d
              ∧ fields.BlankFrom blank record items.length := by
  refine ⟨?_, ?_⟩
  · intro tree other hsteps text more htext hmore d
    rw [Document.parse, Document.parse, htext.parse_eq_ok_iff, hmore.parse_eq_ok_iff]
    clear hmore
    induction hsteps with
    | refl => rfl
    | tail _ hstep ih => exact ih.trans (hstep.means_iff Layout.document_lawful)
  · intro ρ expected blank fields around place items text htext d h
    have hmeans := htext.parse_eq_ok_iff.mp h
    refine ⟨?_, place.exists_blankFrom Layout.document_lawful hmeans⟩
    by_contra hlength
    exact Schema.not_means_overlong (.intro place) (Nat.lt_of_not_le hlength) hmeans

theorem writtenAs_list {items : List Tree} {text : List Char} (h : Sequence Written items text) :
    (Tree.list items).WrittenAs (String.ofList ('[' :: (text ++ [']']))) :=
  ⟨[], _, [], .list h, isGap_nil, isGap_nil, by simp⟩

/-- The values of the first two fields of a class. -/
def classItems : List Tree := [.text ['c'], .text ['A']]

/-- The members of a class that give these values. -/
def namedMembers : List (List Char × Tree) := [idMember, ("className".toList, .text ['A'])]

theorem classItems_written : Sequence Written classItems "\"c\",\"A\"".toList := by
  have hid : SpellsAll ['c'] ['c'] := spellsAll_self
  have hname : SpellsAll ['A'] ['A'] := spellsAll_self
  have hfirst : Written (.text ['c']) _ := .text hid.isBody
  have hsecond : Written (.text ['A']) _ := .text hname.isBody
  exact (Sequence.single hfirst).append (Sequence.single hsecond)

theorem namedMembers_written :
    Sequence WrittenMember namedMembers "\"id\":\"c\",\"className\":\"A\"".toList := by
  have hname : SpellsAll ['A'] ['A'] := spellsAll_self
  have hsecond := writtenMember_plain "className" (.text hname.isBody)
  exact (Sequence.single idMember_written).append (Sequence.single hsecond)

theorem classes_place :
    Layout.classRecord.Place Layout.document fun tree => .list [.null, .list [], .list [tree]] :=
  .position [.null, .list []] [] (.there (.there .here)) (.item [] [] .here)

theorem metadata_place : Layout.metadata.Place Layout.document fun tree => .list [tree] :=
  .position [] [] .here (.map .here)

/-- A document and its class may both be written as lists.  The two items of the class stand for a
class of no known kind, and a list of three values is no metadata. -/
theorem Document.parse_record_forms_class :
    Document.parse "[null,[],[[\"c\",\"A\"]]]"
      = .ok { classes := [{ id := "c", className := "A" }] }
    ∧ (∃ record, Layout.classRecord.Means (.list classItems) record
      ∧ record.kind = .ofLabel "UNKNOWN" ∧ Layout.classFields.BlankFrom {} record 2)
    ∧ ∀ d, Document.parse "[[null,null,null]]" ≠ .ok d := by
  have hnull : Sequence Written [.null] "null".toList := Sequence.single .null
  have hservices : Sequence Written [.list []] "[]".toList :=
    Sequence.single (.emptyList isGap_nil)
  have hlist := hnull.append (hservices.append
    (Sequence.single (.list (Sequence.single (.list classItems_written)))))
  have hclass : Document.parse "[null,[],[[\"c\",\"A\"]]]"
      = .ok { classes := [{ id := "c", className := "A" }] } := by
    let noMetadata : List Char × Tree := ("metadata".toList, .null)
    have h : Document.parse ("\x7b\"metadata\":null,\"services\":[],"
        ++ "\"classes\":[\x7b\"id\":\"c\",\"className\":\"A\"\x7d]\x7d")
          = .ok { classes := [{ id := "c", className := "A" }] } := by cbv
    have hclass : Layout.document.SwapsForm
        (.object [noMetadata, noServices, classesMember namedMembers])
        (.object [noMetadata, noServices, ("classes".toList, .list [.list classItems])]) :=
      .positional (classesMember_recordPlace [noMetadata, noServices] [])
        (.cons spellsAll_self (.cons spellsAll_self .nil))
    have hdocument : Layout.document.SwapsForm
        (.object [noMetadata, noServices, ("classes".toList, .list [.list classItems])])
        (.list [.null, .list [], .list [.list classItems]]) :=
      .positional (.intro .here)
        (.cons spellsAll_self (.cons spellsAll_self (.cons spellsAll_self .nil)))
    have hmetadata : Sequence WrittenMember [noMetadata] _ :=
      Sequence.single (writtenMember_plain "metadata" .null)
    have hobject := hmetadata.append ((Sequence.single noServices_written).append
      (Sequence.single (classesMember_written namedMembers_written)))
    exact (Document.parse_record_forms.1 _ _ (.tail (.single hclass) hdocument) _ _
      (writtenAs_object hobject) (writtenAs_list hlist) _).mp h
  refine ⟨hclass, ?_, ?_⟩
  · obtain ⟨-, record, -, hrecord, -, -, hblank⟩ := Document.parse_record_forms.2 _ _ _ _ _
      classes_place classItems _ (writtenAs_list hlist) _ hclass
    refine ⟨record, hrecord, ?_, hblank⟩
    -- the kind is the second field behind the items
    have hkind : { record with kind := .ofLabel "UNKNOWN" } = record := hblank.2.1 _ rfl
    rw [← hkind]
  · intro d h
    have htext := writtenAs_list (Sequence.single (.list (hnull.append (hnull.append hnull))))
    have hlength := (Document.parse_record_forms.2 _ _ _ _ _ metadata_place _ _ htext d h).1
    exact absurd hlength (by decide)

end CallGraph
