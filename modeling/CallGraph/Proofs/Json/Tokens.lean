import CallGraph.Json.Skip
import CallGraph.Proofs.Json.Taking
import Mathlib.Data.List.Induction

/-!
# What tokens are taken

Whatever is read between quotes spells the text that is given for it, and whatever is passed over
there may stand there.  Whatever is read as a numeral is written as one, and only a decimal number
within 64 bits is an integer that is not negative.

* `takes_readText`, `takes_skipText` — between quotes;
* `takes_read` — numerals;
* `takes_number` — the numerals of natural numbers.
-/

namespace CallGraph.Json

open Reader

/-! ### Escapes -/

/-- Only the hexadecimal digits have a value. -/
theorem mem_hexDigits {c : Char} {v : Nat} (h : hexValue? c = some v) : (c, v) ∈ hexDigits := by
  have hall : ∀ n < 128, (hexValue? (Char.ofNat n)).all
      (fun v => decide ((Char.ofNat n, v) ∈ hexDigits)) = true := by decide
  have hlt : c.toNat < 128 := by
    have hle {d : Char} (hd : d.toNat < 128) (hc : c ≤ d) : c.toNat < 128 :=
      Nat.lt_of_le_of_lt hc hd
    rw [hexValue?] at h
    split at h
    · rename_i hdigit
      simp only [Char.isDigit, Bool.and_eq_true, decide_eq_true_eq] at hdigit
      exact hle (d := '9') (by decide) hdigit.2
    · split at h
      · rename_i hletter
        exact hle (by decide) hletter.2
      · split at h
        · rename_i hletter
          exact hle (by decide) hletter.2
        · cases h
  have hc := hall c.toNat hlt
  rw [Char.ofNat_toNat, h] at hc
  exact of_decide_eq_true hc

theorem isHex_of_hexNumber? {n : Nat} {digits : List Char} (hlength : digits.length = 4)
    (h : hexNumber? 0 digits = some n) : IsHex n digits := by
  match digits, hlength with
  | [a, b, c, d], _ =>
    simp only [hexNumber?, Option.bind_eq_bind, Option.bind_eq_some_iff, Option.some.injEq] at h
    obtain ⟨w, hw, x, hx, y, hy, z, hz, hn⟩ := h
    exact .intro (mem_hexDigits hw) (mem_hexDigits hx) (mem_hexDigits hy) (mem_hexDigits hz)
      (by omega)

theorem takes_readHex : readHex.Takes IsHex := by
  intro text rest n hrun
  rw [run, readHex] at hrun
  by_cases hlength : (text.take 4).length = 4
  · rw [if_pos hlength] at hrun
    cases hnumber : hexNumber? 0 (text.take 4) with
    | none =>
      rw [hnumber] at hrun
      cases hrun
    | some m =>
      rw [hnumber] at hrun
      obtain ⟨rfl, rfl⟩ := Prod.mk.inj (Except.ok.inj hrun)
      exact ⟨text.take 4, (List.take_append_drop 4 text).symm, isHex_of_hexNumber? hlength hnumber⟩
  · rw [if_neg hlength] at hrun
    cases hrun

theorem IsHex.lt {n : Nat} {digits : List Char} (h : IsHex n digits) : n < 0x10000 := by
  have hall : ∀ p ∈ hexDigits, p.2 < 16 := by decide
  cases h with
  | intro ha hb hc hd hn =>
    have hw := hall _ ha
    have hx := hall _ hb
    have hy := hall _ hc
    have hz := hall _ hd
    dsimp only at hw hx hy hz
    omega

theorem toNat_ofNat {n : Nat} (h : n < 0xD800 ∨ 0xDFFF < n ∧ n < 0x110000) :
    (Char.ofNat n).toNat = n := by
  have hvalid : n.isValidChar := h
  rw [Char.ofNat, dif_pos hvalid]
  rfl

theorem takes_expectInPair (expected : Char) :
    (expectInPair expected).Takes fun _ taken => taken = [expected] := by
  refine takes_next? (takes_fail _) ?_
  intro c
  dsimp only
  by_cases hc : c = expected
  · rw [if_pos hc]
    exact takes_pure (by rw [hc])
  · rw [if_neg hc]
    exact takes_refuse c _

/-- A character is given for the numbers that it is spelled with. -/
theorem takes_readNumbered :
    readNumbered.Takes fun c digits => Spells c ('\\' :: 'u' :: digits) := by
  refine takes_readHex.bind ?_
  intro n first hfirst
  have hlt := hfirst.lt
  by_cases hsecond : isSecondHalf n = true
  · rw [if_pos hsecond]
    exact takes_fail _
  rw [if_neg hsecond]
  simp only [isSecondHalf, Bool.and_eq_true, decide_eq_true_eq] at hsecond
  by_cases hhalf : isFirstHalf n = true
  · rw [if_pos hhalf]
    simp only [isFirstHalf, Bool.and_eq_true, decide_eq_true_eq] at hhalf
    refine (takes_expectInPair _).bind ?_
    rintro _ _ rfl
    refine (takes_expectInPair _).bind ?_
    rintro _ _ rfl
    refine takes_readHex.bind ?_
    intro m second hm
    by_cases hpair : isSecondHalf m = true
    · rw [if_pos hpair]
      simp only [isSecondHalf, Bool.and_eq_true, decide_eq_true_eq] at hpair
      have hvalue : (pairChar n m).toNat = 0x10000 + (n - 0xD800) * 0x400 + (m - 0xDC00) :=
        toNat_ofNat (by omega)
      have hn : n = 0xD800 + ((pairChar n m).toNat - 0x10000) / 0x400 := by omega
      have hm' : m = 0xDC00 + ((pairChar n m).toNat - 0x10000) % 0x400 := by omega
      refine takes_pure ?_
      simp only [List.append_nil, List.cons_append, List.nil_append]
      exact .pair (by omega) (hn ▸ hfirst) (hm' ▸ hm)
    · rw [if_neg hpair]
      exact takes_fail _
  · rw [if_neg hhalf]
    simp only [isFirstHalf, Bool.and_eq_true, decide_eq_true_eq] at hhalf
    refine takes_pure ?_
    rw [List.append_nil]
    refine .numbered ?_
    rwa [toNat_ofNat (by omega)]

theorem mem_shortEscapes {letter c : Char} (h : shortEscape? letter = some c) :
    (letter, c) ∈ shortEscapes := by
  unfold shortEscape? at h
  split at h
  all_goals
    cases h
    try decide

/-- A character is given for each escape that spells it. -/
theorem takes_readEscape : readEscape.Takes fun c piece => Spells c ('\\' :: piece) := by
  refine takes_next? (takes_fail _) ?_
  intro letter
  dsimp only
  by_cases hletter : letter = 'u'
  · rw [if_pos hletter, hletter]
    exact takes_readNumbered
  · rw [if_neg hletter]
    cases hmeant : shortEscape? letter with
    | none => exact takes_refuse letter _
    | some meant => exact takes_pure (.short (mem_shortEscapes hmeant))

theorem takes_skipEscape :
    skipEscape.Takes fun _ piece => ∀ body, IsBody body → IsBody ('\\' :: (piece ++ body)) := by
  refine takes_next? (takes_fail _) ?_
  intro letter
  dsimp only
  by_cases hletter : letter = 'u'
  · rw [if_pos hletter, hletter]
    refine takes_readHex.bind ?_
    intro n digits hdigits
    refine takes_pure ?_
    intro body hbody
    rw [List.append_nil]
    exact .numbered hdigits hbody
  · rw [if_neg hletter]
    cases hmeant : shortEscape? letter with
    | none => exact takes_refuse letter _
    | some meant => exact takes_pure fun body hbody => .short (mem_shortEscapes hmeant) hbody

/-! ### Texts -/

/-- **What is read as a text spells it**, with the closing quote behind it. -/
theorem takes_readText : readText.Takes fun value taken =>
    ∃ body, taken = body ++ ['"'] ∧ SpellsAll value.toList body := by
  have hloop : (loop (fun _ => .endInString) textStep []).Takes fun value taken =>
      ∃ text body, taken = body ++ ['"'] ∧ SpellsAll text body
        ∧ value = String.ofList (([] : List Char).reverse ++ text) := by
    refine takes_loop (I := fun before value taken => ∃ text body, taken = body ++ ['"']
      ∧ SpellsAll text body ∧ value = String.ofList (before.reverse ++ text)) ?_ []
    intro before c
    -- a turn that goes on spells one character before the others
    have hgoes (d : Char) (piece : List Char) (hpiece : Spells d (c :: piece)) :
        Turn.Takes (fun before value taken => ∃ text body, taken = body ++ ['"']
            ∧ SpellsAll text body ∧ value = String.ofList (before.reverse ++ text))
          (fun value taken => ∃ text body, c :: taken = body ++ ['"'] ∧ SpellsAll text body
            ∧ value = String.ofList (before.reverse ++ text)) (.again (d :: before)) piece := by
      rintro value _ ⟨text, body, rfl, hbody, rfl⟩
      refine ⟨d :: text, c :: piece ++ body, ?_, .cons hpiece hbody, ?_⟩
      · rw [List.cons_append, List.cons_append, List.append_assoc]
      · rw [List.reverse_cons, List.append_assoc, List.singleton_append]
    rw [textStep]
    by_cases hquote : c = '"'
    · rw [if_pos hquote]
      refine takes_pure ?_
      exact ⟨[], [], by rw [hquote]; rfl, .nil, by rw [List.append_nil]⟩
    rw [if_neg hquote]
    by_cases hbackslash : c = '\\'
    · rw [if_pos hbackslash]
      refine takes_readEscape.map ?_
      intro d piece hpiece
      exact hgoes d piece (hbackslash ▸ hpiece)
    rw [if_neg hbackslash]
    by_cases hcontrol : isControl c = true
    · rw [if_pos hcontrol]
      exact takes_refuse c _
    · rw [if_neg hcontrol]
      simp only [isControl, decide_eq_true_eq] at hcontrol
      exact takes_pure (hgoes c [] (.plain (by omega) hquote hbackslash))
  refine hloop.imp ?_
  rintro value taken ⟨text, body, htaken, hbody, rfl⟩
  refine ⟨body, htaken, ?_⟩
  rwa [List.reverse_nil, List.nil_append, String.toList_ofList]

/-- **What is passed over as a text may stand between quotes.** -/
theorem takes_skipText :
    skipText.Takes fun _ taken => ∃ body, taken = body ++ ['"'] ∧ IsBody body := by
  refine takes_loop (I := fun _ _ taken => ∃ body, taken = body ++ ['"'] ∧ IsBody body) ?_ ()
  intro _ c
  rw [skipTextStep]
  by_cases hquote : c = '"'
  · rw [if_pos hquote]
    refine takes_pure ?_
    exact ⟨[], by rw [hquote]; rfl, .nil⟩
  rw [if_neg hquote]
  by_cases hbackslash : c = '\\'
  · rw [if_pos hbackslash]
    refine takes_skipEscape.bind ?_
    intro _ piece hpiece
    refine takes_pure ?_
    rintro _ _ ⟨body, rfl, hbody⟩
    refine ⟨'\\' :: (piece ++ body), ?_, hpiece body hbody⟩
    rw [hbackslash, List.append_nil, List.cons_append, List.append_assoc]
  rw [if_neg hbackslash]
  by_cases hcontrol : isControl c = true
  · rw [if_pos hcontrol]
    exact takes_failBefore [c] _
  · rw [if_neg hcontrol]
    simp only [isControl, decide_eq_true_eq] at hcontrol
    refine takes_pure ?_
    rintro _ _ ⟨body, rfl, hbody⟩
    exact ⟨c :: body, rfl, .plain (by omega) hquote hbackslash hbody⟩

/-! ### Numerals -/

theorem takes_digits : (takeWhile Char.isDigit).Takes fun digits taken =>
    digits = taken ∧ ∀ c ∈ digits, c.isDigit = true := by
  refine (takes_takeWhile Char.isDigit).imp ?_
  rintro digits taken ⟨rfl, hall⟩
  exact ⟨rfl, hall⟩

theorem takes_readWhole (first : Char) :
    (Numeral.readWhole first).Takes fun whole taken => whole = first :: taken ∧ IsWhole whole := by
  rw [Numeral.readWhole]
  by_cases hzero : first = '0'
  · rw [if_pos hzero]
    have hwhole : IsWhole [first] := by
      rw [hzero]
      exact ⟨isDigits_of_all (List.cons_ne_nil _ _), fun _ => rfl⟩
    refine takes_peek? (takes_pure ⟨rfl, hwhole⟩) ?_
    intro c
    refine Takes.from ?_ c
    dsimp only
    by_cases hc : c.isDigit = true
    · rw [if_pos hc]
      exact takes_failNext _
    · rw [if_neg hc]
      exact takes_pure ⟨rfl, hwhole⟩
  rw [if_neg hzero]
  by_cases hdigit : first.isDigit = true
  · rw [if_pos hdigit]
    refine takes_digits.map ?_
    rintro digits _ ⟨rfl, hall⟩
    refine ⟨rfl, ⟨List.cons_ne_nil first digits, ?_⟩, ?_⟩
    · exact List.forall_mem_cons.mpr ⟨hdigit, hall⟩
    · intro hhead
      exact absurd (Option.some.inj hhead) hzero
  · rw [if_neg hdigit]
    exact takes_refuse first _

theorem takes_readSigned (atEnd : Cause) (first : Char) :
    (Numeral.readSigned atEnd first).Takes fun signed taken =>
      first :: taken = (if signed.1 then ['-'] else []) ++ signed.2 ∧ IsWhole signed.2 := by
  rw [Numeral.readSigned]
  by_cases hminus : first = '-'
  · rw [if_pos hminus, hminus]
    refine takes_next? (takes_fail _) ?_
    intro c
    refine (takes_readWhole c).map ?_
    rintro whole taken ⟨rfl, hwhole⟩
    exact ⟨rfl, hwhole⟩
  · rw [if_neg hminus]
    refine (takes_readWhole first).map ?_
    rintro whole taken ⟨rfl, hwhole⟩
    exact ⟨rfl, hwhole⟩

theorem takes_readFraction (atEnd : Cause) :
    (Numeral.readFraction atEnd).Takes WritesFraction := by
  refine takes_nextIf? (takes_pure .none) ?_
  intro c hc
  obtain rfl : c = '.' := of_decide_eq_true hc
  refine takes_digits.bind ?_
  rintro digits _ ⟨rfl, hall⟩
  cases digits with
  | nil =>
    refine takes_peek? (takes_fail _) ?_
    intro d
    exact (takes_failNext _).from d
  | cons digit digits =>
    refine takes_pure ?_
    rw [List.append_nil]
    exact .some ⟨List.cons_ne_nil digit digits, hall⟩

theorem takes_readExponent (atEnd : Cause) :
    (Numeral.readExponent atEnd).Takes WritesExponent := by
  refine takes_nextIf? (takes_pure .none) ?_
  intro letter hletter
  have hletter : letter = 'e' ∨ letter = 'E' := by simpa using hletter
  -- the digits behind a sign, or without one
  have hdigits (sign : List Char) (hsign : sign = [] ∨ sign = ['+'] ∨ sign = ['-']) (c : Char) :
      (if c.isDigit then do
          let digits ← takeWhile Char.isDigit
          pure (some ⟨sign.head? = some '-', c :: digits⟩)
        else refuse c .invalidNumber : Reader (Option Exponent)).Takes
        fun exponent more => WritesExponent exponent (letter :: (sign ++ c :: more)) := by
    by_cases hc : c.isDigit = true
    · rw [if_pos hc]
      refine takes_digits.map ?_
      rintro digits _ ⟨rfl, hall⟩
      have hminus : (sign.head? = some '-') = (sign = ['-']) := by
        rcases hsign with rfl | rfl | rfl <;> simp
      simp only [hminus]
      exact .some hletter hsign ⟨List.cons_ne_nil c digits, List.forall_mem_cons.mpr ⟨hc, hall⟩⟩
    · rw [if_neg hc]
      exact takes_refuse c _
  refine takes_nextIf? (takes_next? (takes_fail _) (hdigits [] (.inl rfl))) ?_
  intro c hc
  refine takes_next? (takes_fail _) (hdigits [c] (.inr ?_))
  simpa using hc

/-- **What is read as a numeral is written as that numeral.** -/
theorem takes_read (atEnd : Cause) (first : Char) :
    (Numeral.read atEnd first).Takes fun numeral taken => numeral.Writes (first :: taken) := by
  refine (takes_readSigned atEnd first).bind ?_
  rintro ⟨negative, whole⟩ front ⟨hsigned, hwhole⟩
  refine (takes_readFraction atEnd).bind ?_
  intro fraction fractionText hfraction
  refine (takes_readExponent atEnd).map ?_
  intro exponent exponentText hexponent
  rw [← List.cons_append, hsigned, List.append_assoc]
  exact .intro hwhole hfraction hexponent

/-! ### Natural numbers -/

theorem natOfDigits_append (n : Nat) (digits more : List Char) :
    natOfDigits n (digits ++ more) = natOfDigits (natOfDigits n digits) more := by
  simp only [natOfDigits, List.foldl_append]

theorem digitValue_lt {c : Char} (h : c.isDigit = true) : digitValue c < 10 := by
  simp only [Char.isDigit, Bool.and_eq_true, decide_eq_true_eq] at h
  have hle : c.toNat ≤ '9'.toNat := h.2
  have hnine : '9'.toNat = '0'.toNat + 9 := rfl
  rw [digitValue]
  omega

theorem digitChar_digitValue {c : Char} (h : c.isDigit = true) :
    (digitValue c).digitChar = c := by
  have hlt := digitValue_lt h
  have hge : '0'.toNat ≤ c.toNat := by
    simp only [Char.isDigit, Bool.and_eq_true, decide_eq_true_eq] at h
    exact h.1
  have hall : ∀ v < 10, v.digitChar = Char.ofNat ('0'.toNat + v) := by decide
  rw [hall _ hlt, digitValue, Nat.add_sub_cancel' hge, Char.ofNat_toNat]

/-- Whole digits are those of the number that they stand for. -/
theorem eq_toDigits {digits : List Char} (h : IsWhole digits) :
    digits = Nat.toDigits 10 (natOfDigits 0 digits) := by
  induction digits using List.reverseRecOn with
  | nil => exact absurd rfl h.1.1
  | append_singleton front c ih =>
    obtain ⟨⟨-, hall⟩, hzero⟩ := h
    have hc := hall c (by simp)
    have hlast : Nat.toDigits 10 (digitValue c) = [c] := by
      rw [Nat.toDigits_of_lt_base (digitValue_lt hc), digitChar_digitValue hc]
    rw [natOfDigits_append]
    cases front with
    | nil =>
      have hvalue : natOfDigits (natOfDigits 0 []) [c] = digitValue c := by simp [natOfDigits]
      rw [hvalue, hlast]
      rfl
    | cons d more =>
      -- the digits before the last one do not begin with a zero, and so stand for a positive number
      have hd : d ≠ '0' := by
        rintro rfl
        have := hzero rfl
        simp at this
      have hfront : IsWhole (d :: more) :=
        ⟨⟨List.cons_ne_nil d more, fun e he => hall e (List.mem_append_left _ he)⟩,
          fun hhead => absurd (Option.some.inj hhead) hd⟩
      have hne : natOfDigits 0 (d :: more) ≠ 0 := by
        intro hnat
        have := ih hfront
        rw [hnat, Nat.toDigits_zero] at this
        exact hd (List.cons.inj this).1
      have happend := Nat.toDigits_append_toDigits (b := 10) (by decide)
        (Nat.pos_of_ne_zero hne) (digitValue_lt hc)
      rw [← ih hfront, hlast] at happend
      exact happend

/-- Digits that are all used stand for a number within the limit. -/
theorem fill_eq_nil {limit n value : Nat} {digits : List Char}
    (h : fill limit n digits = (value, [])) (hn : n ≤ limit) :
    value = natOfDigits n digits ∧ value ≤ limit := by
  induction digits generalizing n with
  | nil =>
    obtain ⟨rfl, -⟩ := Prod.mk.inj h
    exact ⟨rfl, hn⟩
  | cons c digits ih =>
    rw [fill] at h
    by_cases hle : 10 * n + digitValue c ≤ limit
    · rw [if_pos hle] at h
      exact ih h hle
    · rw [if_neg hle] at h
      cases (Prod.mk.inj h).2

/-- Floating-point numbers are no integers. -/
theorem takes_real (n : Numeral) :
    n.real.Takes fun number taken => taken = [] ∧ ∃ x, number = .real x := by
  have hscaled (significand : Nat) (places : Int) :
      (n.scaled significand places).Takes fun number taken =>
        taken = [] ∧ ∃ x, number = .real x := by
    rw [Numeral.scaled]
    cases scale? significand places with
    | none => exact takes_fail _
    | some x => exact takes_pure ⟨rfl, _, rfl⟩
  rw [Numeral.real]
  dsimp only
  cases n.exponent with
  | none => exact hscaled _ _
  | some e =>
    dsimp only
    split
    · exact hscaled _ _
    · split
      · exact takes_failBefore _ _
      · exact takes_pure ⟨rfl, _, rfl⟩

/-- Numerals are read no further to find their number, and only a decimal number within 64 bits is
an integer that is not negative. -/
theorem takes_number {n : Numeral} (hwhole : IsWhole n.whole) :
    n.number.Takes fun number taken => taken = [] ∧ ∀ value : Int, number = .integer value →
      0 ≤ value → n = decimal value.toNat ∧ value.toNat ≤ greatestWord := by
  have hreal : n.real.Takes fun number taken => taken = [] ∧ ∀ value : Int,
      number = .integer value → 0 ≤ value →
        n = decimal value.toNat ∧ value.toNat ≤ greatestWord := by
    refine (takes_real n).imp ?_
    rintro _ taken ⟨htaken, x, rfl⟩
    refine ⟨htaken, ?_⟩
    rintro value ⟨⟩
  obtain ⟨negative, whole, fraction, exponent⟩ := n
  rw [Numeral.number]
  by_cases hplain : fraction = none ∧ exponent = none
  · rw [if_pos hplain]
    obtain ⟨rfl, rfl⟩ := hplain
    split
    · rename_i value hfill hnegative
      dsimp only at hfill hnegative
      obtain ⟨hvalue, hle⟩ := fill_eq_nil hfill (Nat.zero_le _)
      refine takes_pure ⟨rfl, ?_⟩
      rintro _ ⟨⟩ -
      rw [Int.toNat_natCast]
      refine ⟨?_, hle⟩
      rw [decimal, toList_toString, hvalue, ← eq_toDigits hwhole, hnegative]
    · split
      · rename_i hpositive
        refine takes_pure ⟨rfl, ?_⟩
        rintro _ ⟨⟩ hnonneg
        omega
      · exact hreal
    · exact hreal
  · rw [if_neg hplain]
    exact hreal

end CallGraph.Json
