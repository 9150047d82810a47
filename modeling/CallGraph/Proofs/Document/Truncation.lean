import CallGraph.Document.Exchange
import CallGraph.Proofs.Json.Unambiguous

/-!
# Texts that are cut off or overrun

The closing bracket of a document ends it, so nothing but blanks may follow a text that is accepted,
and nothing but blanks may be missing from its end.

* `Schema.parse_append_iff` — what may follow an accepted text of a record;
* `Document.result_ofContent`, `exists_append_of_toUTF8` — the texts of files and of parts of them;
* `Document.parse_cut_off` — accepted texts and files that are cut off or overrun.
-/

namespace CallGraph

open Json

/-! ### Texts behind accepted texts -/

namespace Json

/-- **Only blanks may follow an accepted text of a record**, and they change nothing. -/
theorem Schema.parse_append_iff {ρ : Type} {expected : String} {blank record : ρ}
    {fields : Fields ρ} {text : String}
    (h : (Schema.record expected blank fields).parse text = .ok record) {more : String}
    {other : ρ} : (Schema.record expected blank fields).parse (text ++ more) = .ok other
      ↔ IsGap more.toList ∧ other = record := by
  obtain ⟨tree, ⟨before, written, behind, htree, hbefore, hbehind, rfl⟩, hrecord⟩ :=
    Schema.parse_eq_ok_iff.mp h
  -- the record is read up to its closing bracket, whatever stands behind it
  have hread := run_record expected blank fields.agrees hrecord htree hbefore
    (behind ++ more.toList)
  rw [Schema.parse_eq_ok_iff_run, String.toList_append, String.toList_ofList, List.append_assoc,
    List.append_assoc, hread]
  constructor
  · rintro ⟨rest, hrest, hgap⟩
    obtain ⟨rfl, rfl⟩ := Prod.mk.inj (Except.ok.inj hrest)
    exact ⟨fun c hc => hgap c (List.mem_append_right behind hc), rfl⟩
  · rintro ⟨hmore, rfl⟩
    exact ⟨_, rfl, hbehind.append hmore⟩

end Json

/-! ### Files that are cut off -/

/-- Bytes are read as the text that they encode. -/
theorem textOf_eq_ok_iff {bytes : ByteArray} {text : String} :
    textOf bytes = .ok text ↔ bytes = text.toUTF8 := by
  rw [textOf, String.fromUTF8?]
  constructor
  · intro h
    by_cases hvalid : bytes.IsValidUTF8
    · rw [dif_pos hvalid] at h
      obtain rfl := Except.ok.inj h
      rfl
    · rw [dif_neg hvalid] at h
      cases h
  · rintro rfl
    have hvalid : text.toUTF8.IsValidUTF8 := text.isValidUTF8
    rw [dif_pos hvalid]
    rfl

/-- Bytes that begin the encoding of a text, and are a text themselves, begin the text. -/
theorem exists_append_of_toUTF8 {front text : String} {rest : ByteArray}
    (h : front.toUTF8 ++ rest = text.toUTF8) :
    ∃ back, front ++ back = text ∧ rest = back.toUTF8 := by
  rw [← String.ofList_toList (s := front), ← String.ofList_toList (s := text)] at h ⊢
  rw [String.toUTF8, String.toUTF8, String.toByteArray_ofList, String.toByteArray_ofList] at h
  obtain ⟨back, hback⟩ := List.isPrefix_of_utf8Encode_append_eq_utf8Encode rest h
  refine ⟨String.ofList back, ?_, ?_⟩
  · rw [← String.ofList_append, hback]
  · rw [← hback, List.utf8Encode_append, ByteArray.append_right_inj] at h
    rw [h, String.toUTF8, String.toByteArray_ofList]

/-- A document that is loaded from bytes is the one that their text is accepted as. -/
theorem Document.result_ofContent {path : String} {bytes : ByteArray} {d : Document} :
    (Document.ofContent path (textOf bytes)).result = .ok d
      ↔ ∃ text : String, bytes = text.toUTF8 ∧ Document.parse text = .ok d := by
  simp only [← textOf_eq_ok_iff]
  cases textOf bytes with
  | error fault => simp [Document.ofContent]
  | ok text =>
    cases hparse : Document.parse text with
    | error rejection => simp [Document.ofContent, hparse]
    | ok e => simp [Document.ofContent, hparse]

/-- **A text that is cut off or overrun is not accepted.**  If a text is accepted, a part at its
front that lacks more than blanks is rejected, and so is the text with more than blanks behind it.
A file of which bytes are cut off is loaded only if they are blanks, and then as the same document,
never as one with fewer records. -/
theorem Document.parse_cut_off {text : String} {d : Document} (h : Document.parse text = .ok d) :
    (∀ front back, front ++ back = text → ¬ IsGap back.toList → ∀ e, Document.parse front ≠ .ok e)
    ∧ (∀ more e, Document.parse (text ++ more) = .ok e ↔ IsGap more.toList ∧ e = d)
    ∧ ∀ path bytes rest, bytes ++ rest = text.toUTF8 →
      ∀ e, (Document.ofContent path (textOf bytes)).result = .ok e →
        e = d ∧ ∃ gap, IsGap gap ∧ rest = (String.ofList gap).toUTF8 := by
  have hafter {front back : String} (hfront : front ++ back = text) {e : Document}
      (he : Document.parse front = .ok e) : IsGap back.toList ∧ d = e := by
    rw [← hfront] at h
    exact (Schema.parse_append_iff he).mp h
  refine ⟨?_, ?_, ?_⟩
  · intro front back hfront hback e he
    exact hback (hafter hfront he).1
  · intro more e
    exact Schema.parse_append_iff h
  · intro path bytes rest hbytes e he
    obtain ⟨front, rfl, hparse⟩ := Document.result_ofContent.mp he
    obtain ⟨back, hfront, rfl⟩ := exists_append_of_toUTF8 hbytes
    obtain ⟨hgap, rfl⟩ := hafter hfront hparse
    refine ⟨rfl, back.toList, hgap, ?_⟩
    rw [String.ofList_toList]

/-- A text with one class and a line feed is accepted neither without its last bracket nor with
another one, and a file that lacks the line feed is loaded as no other document. -/
theorem Document.parse_cut_off_class :
    Document.parse "\x7b\"classes\":[\x7b\"id\":\"c\"\x7d]\x7d\n"
      = .ok { classes := [{ id := "c" }] }
    ∧ (∀ e, Document.parse "\x7b\"classes\":[\x7b\"id\":\"c\"\x7d]" ≠ .ok e)
    ∧ (∀ e, Document.parse ("\x7b\"classes\":[\x7b\"id\":\"c\"\x7d]\x7d\n" ++ "\x7d") ≠ .ok e)
    ∧ ∀ e, (Document.ofContent "in.json"
      (textOf "\x7b\"classes\":[\x7b\"id\":\"c\"\x7d]\x7d".toUTF8)).result = .ok e
        → e = { classes := [{ id := "c" }] } := by
  have h : Document.parse "\x7b\"classes\":[\x7b\"id\":\"c\"\x7d]\x7d\n"
      = .ok { classes := [{ id := "c" }] } := by cbv
  have hbracket : ¬ IsGap ['\x7d'] := by simp [IsGap]
  obtain ⟨hcut, hover, hfile⟩ := Document.parse_cut_off h
  refine ⟨h, ?_, ?_, ?_⟩
  · exact hcut _ "\x7d\n" rfl (by simp [IsGap])
  · intro e he
    exact hbracket ((hover "\x7d" e).mp he).1
  · intro e he
    exact (hfile "in.json" _ "\n".toUTF8 String.toByteArray_append.symm e he).1

end CallGraph
