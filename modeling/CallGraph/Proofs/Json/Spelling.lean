import CallGraph.Json.Text

/-!
# Spellings of texts

Between two double quotes a character may be written in several ways: as it is, by a letter behind a
backslash, by its number in four hexadecimal digits, or by the numbers of two halves.  The ways are
given here on their own, and the reader of texts is shown to undo each of them.

* `Spells`, `SpellsAll` — the ways to write a character, and a text;
* `IsBody` — what may stand between two quotes at all, halves without their other half included;
* `run_readText` — a text is read back from every spelling, up to its closing quote;
* `run_skipText` — whatever may stand between quotes is passed over.
-/

namespace CallGraph.Json

open Reader

/-! ### Ways to write a character -/

/-- The hexadecimal digits with their values. -/
def hexDigits : List (Char × Nat) :=
  [('0', 0), ('1', 1), ('2', 2), ('3', 3), ('4', 4), ('5', 5), ('6', 6), ('7', 7), ('8', 8),
    ('9', 9), ('a', 10), ('b', 11), ('c', 12), ('d', 13), ('e', 14), ('f', 15), ('A', 10),
    ('B', 11), ('C', 12), ('D', 13), ('E', 14), ('F', 15)]

/-- Four hexadecimal digits of a number. -/
inductive IsHex (n : Nat) : List Char → Prop where
  | intro {a b c d : Char} {w x y z : Nat} (ha : (a, w) ∈ hexDigits) (hb : (b, x) ∈ hexDigits)
    (hc : (c, y) ∈ hexDigits) (hd : (d, z) ∈ hexDigits)
    (hn : n = ((w * 16 + x) * 16 + y) * 16 + z) : IsHex n [a, b, c, d]

/-- The letters behind a backslash with the characters they stand for. -/
def shortEscapes : List (Char × Char) :=
  [('"', '"'), ('\\', '\\'), ('/', '/'), ('b', '\x08'), ('f', '\x0c'), ('n', '\n'), ('r', '\r'),
    ('t', '\t')]

/-- The ways to write a character between quotes. -/
inductive Spells (c : Char) : List Char → Prop where
  | plain (hcontrol : 0x20 ≤ c.toNat) (hquote : c ≠ '"') (hbackslash : c ≠ '\\') : Spells c [c]
  | short {letter : Char} (h : (letter, c) ∈ shortEscapes) : Spells c ['\\', letter]
  | numbered {digits : List Char} (h : IsHex c.toNat digits) : Spells c ('\\' :: 'u' :: digits)
  | pair {first second : List Char} (hc : 0x10000 ≤ c.toNat)
    (hfirst : IsHex (0xD800 + (c.toNat - 0x10000) / 0x400) first)
    (hsecond : IsHex (0xDC00 + (c.toNat - 0x10000) % 0x400) second) :
    Spells c ('\\' :: 'u' :: (first ++ '\\' :: 'u' :: second))

/-- The ways to write a text between quotes, character by character. -/
inductive SpellsAll : List Char → List Char → Prop where
  | nil : SpellsAll [] []
  | cons {c : Char} {text piece body : List Char} (hc : Spells c piece)
    (htext : SpellsAll text body) : SpellsAll (c :: text) (piece ++ body)

/-- What may stand between quotes: characters that need no backslash, and escapes of any number. -/
inductive IsBody : List Char → Prop where
  | nil : IsBody []
  | plain {c : Char} {body : List Char} (hcontrol : 0x20 ≤ c.toNat) (hquote : c ≠ '"')
    (hbackslash : c ≠ '\\') (hbody : IsBody body) : IsBody (c :: body)
  | short {letter c : Char} {body : List Char} (h : (letter, c) ∈ shortEscapes)
    (hbody : IsBody body) : IsBody ('\\' :: letter :: body)
  | numbered {n : Nat} {digits body : List Char} (h : IsHex n digits) (hbody : IsBody body) :
    IsBody ('\\' :: 'u' :: (digits ++ body))

/-- Whether a character needs no backslash. -/
def isPlain (c : Char) : Bool := 0x20 ≤ c.toNat ∧ c ≠ '"' ∧ c ≠ '\\'

/-- Characters that need no backslash spell themselves. -/
theorem SpellsAll.plain_append {text body : List Char} (h : SpellsAll text body) {front : List Char}
    (hfront : front.all isPlain = true) : SpellsAll (front ++ text) (front ++ body) := by
  induction front with
  | nil => exact h
  | cons c front ih =>
    rw [List.all_cons, Bool.and_eq_true] at hfront
    obtain ⟨hc, hmore⟩ := hfront
    obtain ⟨hcontrol, hquote, hbackslash⟩ := of_decide_eq_true hc
    have hall := SpellsAll.cons (.plain hcontrol hquote hbackslash) (ih hmore)
    exact hall

theorem spellsAll_self {text : List Char} (h : text.all isPlain = true := by rfl) :
    SpellsAll text text := by
  have hspelled := SpellsAll.nil.plain_append h
  rwa [List.append_nil] at hspelled

/-- A spelled text may stand between quotes. -/
theorem SpellsAll.isBody {text body : List Char} (h : SpellsAll text body) : IsBody body := by
  induction h with
  | nil => exact .nil
  | cons hc _ ih =>
    cases hc with
    | plain hcontrol hquote hbackslash => exact .plain hcontrol hquote hbackslash ih
    | short h => exact .short h ih
    | numbered h => exact .numbered h ih
    | pair hc hfirst hsecond =>
      have hboth := IsBody.numbered hfirst (.numbered hsecond ih)
      simpa only [List.cons_append, List.append_assoc] using hboth

theorem exists_hexDigit {v : Nat} (h : v < 16) : ∃ c, (c, v) ∈ hexDigits := by
  have hall : ∀ v : Fin 16, ∃ p ∈ hexDigits, p.2 = v.val := by decide
  obtain ⟨⟨c, w⟩, hmem, hw⟩ := hall ⟨v, h⟩
  obtain rfl : w = v := hw
  exact ⟨c, hmem⟩

/-- Numbers below `0x10000` have four hexadecimal digits. -/
theorem exists_isHex {n : Nat} (h : n < 0x10000) : ∃ digits, IsHex n digits := by
  obtain ⟨a, ha⟩ := exists_hexDigit (show n / 0x1000 < 16 by omega)
  obtain ⟨b, hb⟩ := exists_hexDigit (show n / 0x100 % 16 < 16 by omega)
  obtain ⟨c, hc⟩ := exists_hexDigit (show n / 0x10 % 16 < 16 by omega)
  obtain ⟨d, hd⟩ := exists_hexDigit (show n % 16 < 16 by omega)
  exact ⟨[a, b, c, d], .intro ha hb hc hd (by omega)⟩

/-- Every character can be written: one that has a meaning of its own between quotes by its
number. -/
theorem exists_spells (c : Char) : ∃ piece, Spells c piece := by
  by_cases h : c.toNat < 0x10000
  · obtain ⟨digits, hdigits⟩ := exists_isHex h
    exact ⟨_, .numbered hdigits⟩
  · refine ⟨[c], .plain (by omega) ?_ ?_⟩
    · rintro rfl
      exact h (by decide)
    · rintro rfl
      exact h (by decide)

theorem exists_spellsAll (text : List Char) : ∃ body, SpellsAll text body := by
  induction text with
  | nil => exact ⟨[], .nil⟩
  | cons c text ih =>
    obtain ⟨piece, hpiece⟩ := exists_spells c
    obtain ⟨body, hbody⟩ := ih
    exact ⟨_, .cons hpiece hbody⟩

/-! ### Escapes are undone -/

theorem hexValue?_of_mem {c : Char} {v : Nat} (h : (c, v) ∈ hexDigits) : hexValue? c = some v := by
  have hall : ∀ p ∈ hexDigits, hexValue? p.1 = some p.2 := by decide
  exact hall (c, v) h

/-- The digits of a number are read as that number. -/
theorem run_readHex {n : Nat} {digits : List Char} (h : IsHex n digits) (rest : List Char) :
    readHex.run (digits ++ rest) = .ok (n, rest) := by
  cases h with
  | @intro a b c d w x y z ha hb hc hd hn =>
    have hnumber : hexNumber? 0 [a, b, c, d] = some n := by
      simp only [hexNumber?, hexValue?_of_mem ha, hexValue?_of_mem hb, hexValue?_of_mem hc,
        hexValue?_of_mem hd, Option.bind_eq_bind, Option.bind_some, hn, Option.some.injEq]
      omega
    have htake : ([a, b, c, d] ++ rest).take 4 = [a, b, c, d] := rfl
    simp only [run, readHex, htake, List.length_cons, List.length_nil, hnumber]
    rfl

theorem not_isHalf (c : Char) : isSecondHalf c.toNat = false ∧ isFirstHalf c.toNat = false := by
  have hvalid : c.toNat < 0xD800 ∨ 0xDFFF < c.toNat ∧ c.toNat < 0x110000 := c.valid
  constructor
  · simp only [isSecondHalf, Bool.and_eq_false_iff, decide_eq_false_iff_not]
    omega
  · simp only [isFirstHalf, Bool.and_eq_false_iff, decide_eq_false_iff_not]
    omega

/-- A character is read from its number. -/
theorem run_readNumbered {c : Char} {digits : List Char} (h : IsHex c.toNat digits)
    (rest : List Char) : readNumbered.run (digits ++ rest) = .ok (c, rest) := by
  rw [readNumbered, run_bind, run_readHex h]
  simp only [(not_isHalf c).1, (not_isHalf c).2, Char.ofNat_toNat, Bool.false_eq_true, if_false,
    run_pure]

/-- A character is read from the numbers of its halves. -/
theorem run_readNumbered_pair {c : Char} {first second : List Char} (hc : 0x10000 ≤ c.toNat)
    (hfirst : IsHex (0xD800 + (c.toNat - 0x10000) / 0x400) first)
    (hsecond : IsHex (0xDC00 + (c.toNat - 0x10000) % 0x400) second) (rest : List Char) :
    readNumbered.run (first ++ '\\' :: 'u' :: (second ++ rest)) = .ok (c, rest) := by
  have hvalid : c.toNat < 0xD800 ∨ 0xDFFF < c.toNat ∧ c.toNat < 0x110000 := c.valid
  have hlow : isSecondHalf (0xD800 + (c.toNat - 0x10000) / 0x400) = false := by
    simp only [isSecondHalf, Bool.and_eq_false_iff, decide_eq_false_iff_not]
    omega
  have hhigh : isFirstHalf (0xD800 + (c.toNat - 0x10000) / 0x400) = true := by
    simp only [isFirstHalf, Bool.and_eq_true, decide_eq_true_eq]
    omega
  have hsecondHalf : isSecondHalf (0xDC00 + (c.toNat - 0x10000) % 0x400) = true := by
    simp only [isSecondHalf, Bool.and_eq_true, decide_eq_true_eq]
    omega
  have hpair : pairChar (0xD800 + (c.toNat - 0x10000) / 0x400)
      (0xDC00 + (c.toNat - 0x10000) % 0x400) = c := by
    have hsum : 0x10000 + (0xD800 + (c.toNat - 0x10000) / 0x400 - 0xD800) * 0x400
        + (0xDC00 + (c.toNat - 0x10000) % 0x400 - 0xDC00) = c.toNat := by omega
    rw [pairChar, hsum, Char.ofNat_toNat]
  rw [readNumbered, run_bind, run_readHex hfirst]
  simp only [hlow, hhigh, Bool.false_eq_true, if_false, if_true, run_bind, expectInPair,
    run_next?_cons, run_pure, run_readHex hsecond, hsecondHalf, hpair]

theorem shortEscape?_of_mem {letter c : Char} (h : (letter, c) ∈ shortEscapes) :
    letter ≠ 'u' ∧ shortEscape? letter = some c := by
  have hall : ∀ p ∈ shortEscapes, p.1 ≠ 'u' ∧ shortEscape? p.1 = some p.2 := by decide
  exact hall (letter, c) h

theorem run_readEscape_short {letter c : Char} (h : (letter, c) ∈ shortEscapes)
    (rest : List Char) : readEscape.run (letter :: rest) = .ok (c, rest) := by
  obtain ⟨hletter, hmeant⟩ := shortEscape?_of_mem h
  rw [readEscape, run_bind, run_next?_cons]
  simp only [if_neg hletter, hmeant, run_pure]

theorem run_readEscape_numbered (rest : List Char) :
    readEscape.run ('u' :: rest) = readNumbered.run rest := by
  rw [readEscape, run_bind, run_next?_cons]
  rfl

/-! ### Texts are read back -/

/-- One spelled character is one turn of the loop that reads texts. -/
theorem run_loop_textStep {atEnd : List Char → Cause} {c : Char} {piece : List Char}
    (h : Spells c piece) (before rest : List Char) :
    (loop atEnd textStep before).run (piece ++ rest)
      = (loop atEnd textStep (c :: before)).run rest := by
  have hescape (piece : List Char) (hpiece : readEscape.run (piece ++ rest) = .ok (c, rest)) :
      (loop atEnd textStep before).run ('\\' :: piece ++ rest)
        = (loop atEnd textStep (c :: before)).run rest := by
    rw [List.cons_append, run_loop_cons, textStep, if_neg (by decide), if_pos rfl, run_bind, hpiece]
    rfl
  cases h with
  | plain hcontrol hquote hbackslash =>
    have hc : ¬ isControl c = true := by
      simp only [isControl, decide_eq_true_eq]
      omega
    rw [List.singleton_append, run_loop_cons, textStep, if_neg hquote, if_neg hbackslash, if_neg hc]
    rfl
  | short h => exact hescape [_] (run_readEscape_short h rest)
  | numbered h =>
    apply hescape ('u' :: _)
    rw [List.cons_append, run_readEscape_numbered, run_readNumbered h]
  | pair hc hfirst hsecond =>
    apply hescape ('u' :: _)
    rw [List.cons_append, run_readEscape_numbered, List.append_assoc, List.cons_append,
      List.cons_append, run_readNumbered_pair hc hfirst hsecond]

/-- **A text is read back from each of its spellings**, and reading stops behind the closing
quote. -/
theorem run_readText {text body : List Char} (h : SpellsAll text body) (rest : List Char) :
    readText.run (body ++ '"' :: rest) = .ok (String.ofList text, rest) := by
  have hloop (before : List Char) :
      (loop (fun _ => .endInString) textStep before).run (body ++ '"' :: rest)
        = .ok (String.ofList (before.reverse ++ text), rest) := by
    induction h generalizing before with
    | nil =>
      rw [List.nil_append, run_loop_cons, textStep, if_pos rfl, List.append_nil]
      rfl
    | @cons c text piece body hc _ ih =>
      rw [List.append_assoc, run_loop_textStep hc, ih, List.reverse_cons, List.append_assoc,
        List.singleton_append]
  exact hloop []

/-- Characters between quotes spell one text only. -/
theorem SpellsAll.unique {text other body : List Char} (h : SpellsAll text body)
    (hother : SpellsAll other body) : text = other := by
  have hread := run_readText h []
  rw [run_readText hother []] at hread
  exact (String.ofList_injective (Prod.mk.inj (Except.ok.inj hread)).1).symm

/-! ### Texts are passed over -/

/-- What may stand between quotes is passed over up to the closing quote. -/
theorem run_skipText {body : List Char} (h : IsBody body) (rest : List Char) :
    skipText.run (body ++ '"' :: rest) = .ok ((), rest) := by
  have hescape (piece more : List Char) (hpiece : skipEscape.run (piece ++ more) = .ok ((), more)) :
      skipText.run ('\\' :: piece ++ more) = skipText.run more := by
    rw [skipText, List.cons_append, run_loop_cons, skipTextStep, if_neg (by decide), if_pos rfl,
      run_bind, hpiece]
    rfl
  induction h with
  | nil =>
    rw [List.nil_append, skipText, run_loop_cons, skipTextStep, if_pos rfl]
    rfl
  | @plain c body hcontrol hquote hbackslash _ ih =>
    have hc : ¬ isControl c = true := by
      simp only [isControl, decide_eq_true_eq]
      omega
    rw [← ih, List.cons_append, skipText, run_loop_cons, skipTextStep, if_neg hquote,
      if_neg hbackslash, if_neg hc]
    rfl
  | @short letter c body h _ ih =>
    obtain ⟨hletter, hmeant⟩ := shortEscape?_of_mem h
    have hpiece : skipEscape.run ([letter] ++ (body ++ '"' :: rest))
        = .ok ((), body ++ '"' :: rest) := by
      rw [skipEscape, run_bind, List.singleton_append, run_next?_cons]
      simp only [if_neg hletter, hmeant, run_pure]
    rw [← ih]
    exact hescape [letter] _ hpiece
  | @numbered n digits body h _ ih =>
    have hpiece : skipEscape.run (('u' :: digits) ++ (body ++ '"' :: rest))
        = .ok ((), body ++ '"' :: rest) := by
      rw [skipEscape, run_bind, List.cons_append, run_next?_cons]
      simp only [if_pos, run_bind, run_readHex h, run_pure]
    rw [← ih, ← hescape ('u' :: digits) _ hpiece]
    simp only [List.cons_append, List.append_assoc]

end CallGraph.Json
