import CallGraph.Proofs.Command.Diagnostics
import CallGraph.Proofs.Document.Truncation

/-!
# Loading is parsing

A document is loaded by reading a file, decoding its bytes and parsing the text.  Each stage fails
in its own way, and only when all of them are passed is there an event.

* `textOf_eq_ok_iff_encodes`, `textOf_eq_error_iff` — which bytes are the encoding of a text;
* `Document.load_eq_map` — loading depends on the content of one file only;
* `Document.Staged` — the result, the events and the messages of loading, by the stage it reaches;
* `Document.load_stages` — loading goes like that, whatever the file holds.
-/

namespace CallGraph

/-! ### Decoding -/

/-- Bytes are the text whose characters they encode one after the other. -/
theorem textOf_eq_ok_iff_encodes {bytes : ByteArray} {text : String} :
    textOf bytes = .ok text
      ↔ bytes = (text.toList.flatMap String.utf8EncodeChar).toByteArray := by
  have hencoded : text.toUTF8 = (text.toList.flatMap String.utf8EncodeChar).toByteArray := by
    rw [← String.ofList_toList (s := text), String.toList_ofList, String.toUTF8,
      String.toByteArray_ofList]
    rfl
  rw [textOf_eq_ok_iff, hencoded]

/-- Bytes that encode no text are refused as such, and others are not. -/
theorem textOf_eq_error_iff {bytes : ByteArray} {fault : FileFault} :
    textOf bytes = .error fault ↔ fault = .notText ∧ ∀ text : String, bytes ≠ text.toUTF8 := by
  constructor
  · intro h
    refine ⟨?_, ?_⟩
    · rw [textOf] at h
      cases hdecoded : String.fromUTF8? bytes with
      | none =>
        rw [hdecoded] at h
        exact (Except.error.inj h).symm
      | some text =>
        rw [hdecoded] at h
        cases h
    · intro text hbytes
      cases h.symm.trans (textOf_eq_ok_iff.mpr hbytes)
  · rintro ⟨rfl, hnone⟩
    cases hdecoded : String.fromUTF8? bytes with
    | none => rw [textOf, hdecoded]
    | some text =>
      have hok : textOf bytes = .ok text := by rw [textOf, hdecoded]
      exact absurd (textOf_eq_ok_iff.mp hok) (hnone text)

namespace Document

/-! ### Stages -/

/-- Loading reads one file, and depends on its content only. -/
theorem load_eq_map {m : Type → Type} [Monad m] [LawfulMonad m] [FileStore m] (path : String) :
    (Document.load path : m (Outcome Document))
      = (fun content => Document.ofContent path (content.bind textOf))
          <$> FileStore.readBytes path := by
  rw [Document.load, readText, bind_assoc, map_eq_pure_bind]
  congr 1
  funext content
  cases content <;> simp [Except.bind]

/-- What loading from a path gives for the content of the file.  There is a document exactly if the
content is the encoding of a text that is accepted as the document, and one event tells how many
records of each sort it has.  Otherwise there is no event, and the failure says that the file could
not be parsed and why its text is rejected, or that it could not be read and why, which for bytes
that encode no text is just that. -/
structure Staged (path : String) (content : Except FileFault ByteArray)
    (outcome : Outcome Document) : Prop where
  result_eq_ok_iff (d : Document) : outcome.result = .ok d
    ↔ ∃ text : String, content = .ok text.toUTF8 ∧ Document.parse text = .ok d
  events_of_ok (d : Document) (h : outcome.result = .ok d) :
    outcome.events = [.loaded path d.services.length d.classes.length d.methods.length
      d.calls.length d.chains.length]
  events_of_error (failure : Failure) (h : outcome.result = .error failure) : outcome.events = []
  stage_of_error (failure : Failure) (h : outcome.result = .error failure) :
    (∃ (text : String) (rejection : Json.Rejection),
      content = .ok text.toUTF8 ∧ Document.parse text = .error rejection
      ∧ failure.context = "Failed to parse analysis file " ++ path
      ∧ failure.cause = rejection.message)
    ∨ ∃ fault : FileFault,
      (content = .error fault
        ∨ fault = .notText ∧ ∃ bytes, content = .ok bytes ∧ ∀ text : String, bytes ≠ text.toUTF8)
      ∧ failure.context = "Failed to read analysis file " ++ path
      ∧ failure.cause = fault.message

theorem staged_ofContent (path : String) (content : Except FileFault ByteArray) :
    Staged path content (Document.ofContent path (content.bind textOf)) where
  result_eq_ok_iff d := by
    cases content with
    | error fault => simp [Except.bind, Document.ofContent]
    | ok bytes =>
      simp only [Except.ok.injEq]
      exact Document.result_ofContent
  events_of_ok d h := by
    rw [Command.events_ofContent, h]
    rfl
  events_of_error failure h := by rw [Command.events_ofContent, h]
  stage_of_error failure h := by
    cases content with
    | error fault =>
      obtain rfl := Except.error.inj h
      exact .inr ⟨fault, .inl rfl, rfl, rfl⟩
    | ok bytes =>
      replace h : (Document.ofContent path (textOf bytes)).result = .error failure := h
      cases hdecoded : textOf bytes with
      | error fault =>
        rw [hdecoded] at h
        obtain rfl := Except.error.inj h
        obtain ⟨hfault, hnone⟩ := textOf_eq_error_iff.mp hdecoded
        exact .inr ⟨fault, .inr ⟨hfault, bytes, rfl, hnone⟩, rfl, rfl⟩
      | ok text =>
        obtain rfl := textOf_eq_ok_iff.mp hdecoded
        rw [hdecoded, Document.ofContent] at h
        cases hparse : Document.parse text with
        | error rejection =>
          rw [hparse] at h
          obtain rfl := Except.error.inj h
          exact .inl ⟨text, rejection, rfl, hparse, rfl, rfl⟩
        | ok d =>
          rw [hparse] at h
          cases h

/-- **Loading a file is parsing its content, with the failing stage named.**  Loading reads the file
at the path and depends on its content alone, and results, events and messages are as the stages say
whatever the content is.  Bytes are the text that they encode, character by character, and a text
that was written to a file loads as what it is parsed as. -/
theorem load_stages {m : Type → Type} [Monad m] [LawfulMonad m] [FileStore m] (path : String) :
    (Document.load path : m (Outcome Document))
        = (fun content => Document.ofContent path (content.bind textOf))
            <$> FileStore.readBytes path
    ∧ (∀ content : Except FileFault ByteArray,
      Staged path content (Document.ofContent path (content.bind textOf)))
    ∧ (∀ bytes text, textOf bytes = .ok text
      ↔ bytes = (text.toList.flatMap String.utf8EncodeChar).toByteArray)
    ∧ ∀ (files after : FileTree) (text : String), files.write path text.toUTF8 = .ok after →
      ((Document.load path : StateM FileTree (Outcome Document)) after).1.result
        = (Document.parse text).mapError (Failure.malformed path) := by
  refine ⟨load_eq_map path, staged_ofContent path, fun _ _ => textOf_eq_ok_iff_encodes, ?_⟩
  intro files after text hwrite
  rw [load_onFiles, FileTree.read_of_write hwrite]
  show (Document.ofContent path (textOf text.toUTF8)).result = _
  rw [textOf_eq_ok_iff.mpr rfl, Document.ofContent]
  cases Document.parse text <;> rfl

/-- An empty document that was written to a file is loaded from it.  Neither a zero in two bytes,
half of a pair nor a number beyond all characters is a text, and the mark of a byte order is one. -/
theorem load_stages_blank :
    (∃ after, ({} : FileTree).write "a" "\x7b\x7d".toUTF8 = .ok after
      ∧ ((Document.load "a" : StateM FileTree (Outcome Document)) after).1.result = .ok {})
    ∧ (∀ d, (Document.ofContent "a" (textOf ⟨#[0xC0, 0x80]⟩)).result ≠ .ok d)
    ∧ (∀ d, (Document.ofContent "a" (textOf ⟨#[0xED, 0xA0, 0x80]⟩)).result ≠ .ok d)
    ∧ (∀ d, (Document.ofContent "a" (textOf ⟨#[0xF4, 0x90, 0x80, 0x80]⟩)).result ≠ .ok d)
    ∧ textOf ⟨#[0xEF, 0xBB, 0xBF]⟩ = .ok "\uFEFF" := by
  obtain ⟨-, hstaged, hdecode, hwritten⟩ := load_stages (m := StateM FileTree) "a"
  have hrefused {bytes : ByteArray} (h : textOf bytes = .error .notText) (d : Document) :
      (Document.ofContent "a" (textOf bytes)).result ≠ .ok d := by
    intro hd
    obtain ⟨text, hbytes, -⟩ := ((hstaged (.ok bytes)).result_eq_ok_iff d).mp hd
    exact (textOf_eq_error_iff.mp h).2 text (Except.ok.inj hbytes)
  have hparse : Document.parse "\x7b\x7d" = .ok {} := rfl
  have hwrite : ({} : FileTree).write "a" "\x7b\x7d".toUTF8
      = .ok (({} : FileTree).put ["a"] (.file "\x7b\x7d".toUTF8)) := rfl
  refine ⟨⟨_, hwrite, ?_⟩, hrefused rfl, hrefused rfl, hrefused rfl, (hdecode _ _).mpr rfl⟩
  rw [hwritten _ _ _ hwrite, hparse]
  rfl

end Document

end CallGraph
