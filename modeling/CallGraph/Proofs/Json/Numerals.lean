import CallGraph.Json.Number
import CallGraph.Text.Lines

/-!
# Spellings of numbers

A numeral fixes the digits of a number; its spelling adds the letter of the exponent and perhaps a
plus sign.  Decimal numbers without a sign, a point and an exponent are those that words are read
from.

* `Numeral.Writes` — the ways to write a numeral;
* `StopsNumber` — what may follow a number without making it longer;
* `run_read` — a numeral is read back from its spellings;
* `decimal`, `run_readNumber_decimal` — the numeral of a natural number, and its number.
-/

namespace CallGraph.Json

open Reader

/-! ### Ways to write a number -/

/-- Digits, at least one. -/
def IsDigits (digits : List Char) : Prop := digits ≠ [] ∧ ∀ c ∈ digits, c.isDigit = true

theorem isDigits_of_all {digits : List Char} (hne : digits ≠ [])
    (h : digits.all Char.isDigit = true := by rfl) : IsDigits digits :=
  ⟨hne, List.all_eq_true.mp h⟩

/-- Digits that begin with a zero only if there is no other. -/
def IsWhole (digits : List Char) : Prop :=
  IsDigits digits ∧ (digits.head? = some '0' → digits = ['0'])

/-- A point and digits, or nothing. -/
inductive WritesFraction : Option (List Char) → List Char → Prop where
  | none : WritesFraction none []
  | some {digits : List Char} (h : IsDigits digits) : WritesFraction (some digits) ('.' :: digits)

/-- A letter and digits with perhaps a sign between them, or nothing. -/
inductive WritesExponent : Option Exponent → List Char → Prop where
  | none : WritesExponent none []
  | some {letter : Char} {sign digits : List Char} (hletter : letter = 'e' ∨ letter = 'E')
    (hsign : sign = [] ∨ sign = ['+'] ∨ sign = ['-']) (hdigits : IsDigits digits) :
    WritesExponent (some ⟨sign = ['-'], digits⟩) (letter :: (sign ++ digits))

/-- The ways to write a numeral. -/
inductive Numeral.Writes : Numeral → List Char → Prop where
  | intro {negative : Bool} {whole fractionText exponentText : List Char}
    {fraction : Option (List Char)} {exponent : Option Exponent} (hwhole : IsWhole whole)
    (hfraction : WritesFraction fraction fractionText)
    (hexponent : WritesExponent exponent exponentText) :
    Writes ⟨negative, whole, fraction, exponent⟩
      ((if negative then ['-'] else []) ++ (whole ++ (fractionText ++ exponentText)))

theorem Numeral.Writes.isWhole {n : Numeral} {text : List Char} (h : n.Writes text) :
    IsWhole n.whole := by
  cases h with
  | intro hwhole _ _ => exact hwhole

/-- Whether a number ends before a text. -/
def StopsNumber (rest : List Char) : Prop :=
  ∀ c ∈ rest.head?, c.isDigit = false ∧ c ≠ '.' ∧ c ≠ 'e' ∧ c ≠ 'E'

/-! ### Numerals are read back -/

theorem StopsNumber.not_digit {rest : List Char} (h : StopsNumber rest) :
    ∀ c ∈ rest.head?, c.isDigit = false := by
  intro c hc
  exact (h c hc).1

/-- No digit is taken for the sign of an exponent. -/
theorem run_sign {sign digits : List Char} (hsign : sign = [] ∨ sign = ['+'] ∨ sign = ['-'])
    (hdigits : IsDigits digits) (rest : List Char) :
    (nextIf? fun c => c = '+' || c = '-').run (sign ++ (digits ++ rest))
      = .ok (sign.head?, digits ++ rest) := by
  rcases hsign with rfl | rfl | rfl
  · obtain ⟨hne, hall⟩ := hdigits
    obtain ⟨c, digits, rfl⟩ := List.exists_cons_of_ne_nil hne
    have hc := hall c (List.mem_cons_self ..)
    have hplus : c ≠ '+' := by
      rintro rfl
      exact absurd hc (by decide)
    have hminus : c ≠ '-' := by
      rintro rfl
      exact absurd hc (by decide)
    rw [List.nil_append, List.cons_append, run_nextIf?_cons, if_neg (by simp [hplus, hminus])]
    rfl
  · rw [List.singleton_append, run_nextIf?_cons, if_pos (by decide)]
    rfl
  · rw [List.singleton_append, run_nextIf?_cons, if_pos (by decide)]
    rfl

/-- An exponent is read back, whichever of its letters and signs it is written with. -/
theorem run_readExponent {exponent : Option Exponent} {text rest : List Char}
    (h : WritesExponent exponent text) (hrest : StopsNumber rest) (atEnd : Cause) :
    (Numeral.readExponent atEnd).run (text ++ rest) = .ok (exponent, rest) := by
  rw [Numeral.readExponent, run_bind]
  cases h with
  | none =>
    rw [List.nil_append]
    cases rest with
    | nil => rfl
    | cons c rest =>
      obtain ⟨-, -, he, hE⟩ := hrest c rfl
      simp [he, hE]
  | @some letter sign digits hletter hsign hdigits =>
    have hsigned := run_sign hsign hdigits rest
    have hminus : (sign.head? = some '-') = (sign = ['-']) := by
      rcases hsign with rfl | rfl | rfl <;> simp
    obtain ⟨hne, hall⟩ := hdigits
    obtain ⟨c, digits, rfl⟩ := List.exists_cons_of_ne_nil hne
    obtain ⟨hc, hmore⟩ := List.forall_mem_cons.mp hall
    have hspan := Text.span_exact hmore hrest.not_digit
    rw [List.cons_append, run_nextIf?_cons, if_pos (by simpa using hletter), List.append_assoc]
    dsimp only
    rw [run_bind, hsigned]
    dsimp only
    rw [run_bind, List.cons_append, run_next?_cons]
    simp only [hc, if_true, run_bind, run_takeWhile, hspan.1, hspan.2,
      run_pure, hminus]

/-- A fraction is read back if what follows it is no digit, and no point where there is none. -/
theorem run_readFraction {fraction : Option (List Char)} {text rest : List Char}
    (h : WritesFraction fraction text) (hrest : ∀ c ∈ rest.head?, c.isDigit = false ∧ c ≠ '.')
    (atEnd : Cause) : (Numeral.readFraction atEnd).run (text ++ rest) = .ok (fraction, rest) := by
  rw [Numeral.readFraction, run_bind]
  cases h with
  | none =>
    rw [List.nil_append]
    cases rest with
    | nil => rfl
    | cons c rest => simp [(hrest c rfl).2]
  | @some digits hdigits =>
    obtain ⟨hne, hall⟩ := hdigits
    have hstop : ∀ c ∈ rest.head?, c.isDigit = false := by
      intro c hc
      exact (hrest c hc).1
    have hspan := Text.span_exact hall hstop
    cases digits with
    | nil => exact absurd rfl hne
    | cons c digits =>
      rw [List.cons_append, run_nextIf?_cons, if_pos (by decide)]
      dsimp only
      rw [run_bind, run_takeWhile, hspan.1, hspan.2]
      rfl

/-- Whole digits are read back from the first on. -/
theorem run_readWhole {c : Char} {digits rest : List Char} (h : IsWhole (c :: digits))
    (hrest : ∀ c ∈ rest.head?, c.isDigit = false) :
    (Numeral.readWhole c).run (digits ++ rest) = .ok (c :: digits, rest) := by
  obtain ⟨⟨-, hall⟩, hzero⟩ := h
  obtain ⟨hc, hmore⟩ := List.forall_mem_cons.mp hall
  rw [Numeral.readWhole]
  by_cases h0 : c = '0'
  · obtain rfl : digits = [] := (List.cons.inj (hzero (by rw [h0]; rfl))).2
    rw [if_pos h0, run_bind, List.nil_append, run_peek?]
    cases rest with
    | nil => rfl
    | cons d rest => simp [hrest d rfl]
  · have hspan := Text.span_exact hmore hrest
    rw [if_neg h0, if_pos hc, run_bind, run_takeWhile, hspan.1, hspan.2]
    rfl

theorem head_exponent {exponent : Option Exponent} {text rest : List Char}
    (h : WritesExponent exponent text) (hrest : StopsNumber rest) :
    ∀ c ∈ (text ++ rest).head?, c.isDigit = false ∧ c ≠ '.' := by
  cases h with
  | none =>
    intro c hc
    obtain ⟨hdigit, hpoint, -⟩ := hrest c hc
    exact ⟨hdigit, hpoint⟩
  | some hletter =>
    intro c hc
    obtain rfl := Option.some.inj hc
    rcases hletter with rfl | rfl <;> decide

theorem head_fraction {fraction : Option (List Char)} {text rest : List Char}
    (h : WritesFraction fraction text) (hrest : ∀ c ∈ rest.head?, c.isDigit = false ∧ c ≠ '.') :
    ∀ c ∈ (text ++ rest).head?, c.isDigit = false := by
  cases h with
  | none =>
    intro c hc
    exact (hrest c hc).1
  | some =>
    intro c hc
    obtain rfl := Option.some.inj hc
    decide

/-- The first character of a numeral, from which it is read on. -/
theorem Numeral.Writes.cons {n : Numeral} {text : List Char} (h : n.Writes text) :
    ∃ c more, text = c :: more ∧ Numeral.starts c = true := by
  cases h with
  | @intro negative whole fractionText exponentText fraction exponent hwhole =>
    cases negative with
    | true => exact ⟨'-', _, rfl, rfl⟩
    | false =>
      obtain ⟨⟨hne, hall⟩, -⟩ := hwhole
      cases whole with
      | nil => exact absurd rfl hne
      | cons c whole =>
        refine ⟨c, _, rfl, ?_⟩
        rw [Numeral.starts, hall c (List.mem_cons_self ..), Bool.or_true]

/-- **A numeral is read back from each of its spellings**, unless the text behind it goes on like a
number. -/
theorem run_read {n : Numeral} {c : Char} {more rest : List Char} (h : n.Writes (c :: more))
    (hrest : StopsNumber rest) (atEnd : Cause) :
    (Numeral.read atEnd c).run (more ++ rest) = .ok (n, rest) := by
  generalize htext : c :: more = text at h
  cases h with
  | @intro negative whole fractionText exponentText fraction exponent hwhole hfraction hexponent =>
    have hexponentHead := head_exponent hexponent hrest
    have hfractionHead := head_fraction hfraction hexponentHead
    have hsigned : (Numeral.readSigned atEnd c).run (more ++ rest)
        = .ok ((negative, whole), fractionText ++ (exponentText ++ rest)) := by
      obtain ⟨d, digits, rfl⟩ := List.exists_cons_of_ne_nil hwhole.1.1
      have hwholeRun := run_readWhole hwhole hfractionHead
      rw [Numeral.readSigned]
      cases negative with
      | true =>
        simp only [if_true, List.cons_append, List.nil_append, List.cons.injEq] at htext
        obtain ⟨rfl, rfl⟩ := htext
        rw [if_pos rfl, run_bind, List.cons_append, run_next?_cons, List.append_assoc,
          List.append_assoc]
        dsimp only
        rw [run_bind, hwholeRun]
        rfl
      | false =>
        simp only [Bool.false_eq_true, if_false, List.nil_append, List.cons_append,
          List.cons.injEq] at htext
        obtain ⟨rfl, rfl⟩ := htext
        have hminus : c ≠ '-' := by
          rintro rfl
          exact absurd (hwhole.1.2 '-' (List.mem_cons_self ..)) (by decide)
        rw [if_neg hminus, run_bind, List.append_assoc, List.append_assoc, hwholeRun]
        rfl
    rw [Numeral.read, run_bind, hsigned]
    dsimp only
    rw [run_bind, run_readFraction hfraction hexponentHead]
    dsimp only
    rw [run_bind, run_readExponent hexponent hrest]
    rfl

/-! ### Decimal numbers -/

/-- The numeral of a natural number. -/
def decimal (n : Nat) : Numeral := ⟨false, (toString n).toList, none, none⟩

theorem toList_toString (n : Nat) : (toString n).toList = Nat.toDigits 10 n := by
  rw [Nat.toString_eq_ofList_toDigits, String.toList_ofList]

/-- Decimal digits stand for the number they are the digits of. -/
theorem natOfDigits_toString (n : Nat) : natOfDigits 0 (toString n).toList = n := by
  have hfold : natOfDigits 0 (toString n).toList = Nat.ofDigitChars 10 (toString n).toList 0 := by
    rw [Nat.ofDigitChars_eq_foldl]
    rfl
  rw [hfold, toList_toString, Nat.ofDigitChars_ten_toDigits]

theorem toDigits_eq_zero {n : Nat} (h : (Nat.toDigits 10 n).head? = some '0') : n = 0 := by
  induction n using Nat.strongRecOn with
  | ind n ih =>
    by_cases hlt : n < 10
    · have hall : ∀ n < 10, (Nat.toDigits 10 n).head? = some '0' → n = 0 := by decide
      exact hall n hlt h
    · -- the first digit is that of `n / 10`, which is not zero
      obtain ⟨c, digits, hdigits⟩ :=
        List.exists_cons_of_ne_nil (Nat.toDigits_ne_nil (n := n / 10) (b := 10))
      rw [Nat.toDigits_of_base_le (by decide) (by omega), hdigits] at h
      have hzero := ih (n / 10) (by omega) (by rw [hdigits]; exact h)
      omega

/-- Only zero begins with a zero. -/
theorem isWhole_toString (n : Nat) : IsWhole (toString n).toList := by
  rw [toList_toString]
  refine ⟨⟨Nat.toDigits_ne_nil, ?_⟩, ?_⟩
  · intro c hc
    exact Nat.isDigit_of_mem_toDigits (by decide) (by decide) hc
  · intro h
    rw [toDigits_eq_zero h, Nat.toDigits_zero]

theorem writes_decimal (n : Nat) : (decimal n).Writes (toString n).toList := by
  have h : (decimal n).Writes ([] ++ ((toString n).toList ++ ([] ++ []))) :=
    .intro (isWhole_toString n) .none .none
  rwa [List.nil_append, List.append_nil, List.append_nil] at h

/-- The number of a decimal numeral within 64 bits is the number it is the decimal of. -/
theorem run_number_decimal {n : Nat} (h : n ≤ greatestWord) (rest : List Char) :
    (decimal n).number.run rest = .ok (.integer n, rest) := by
  have hfill : fill greatestWord 0 (decimal n).whole = (n, []) := by
    have hle : natOfDigits 0 (toString n).toList ≤ greatestWord := by
      rwa [natOfDigits_toString]
    rw [decimal, fill_eq_of_le hle, natOfDigits_toString]
  rw [Numeral.number, if_pos ⟨rfl, rfl⟩, hfill]
  rfl

/-- A decimal number within 64 bits is read as itself. -/
theorem run_readNumber_decimal {n : Nat} {c : Char} {more rest : List Char}
    (hn : n ≤ greatestWord) (h : (decimal n).Writes (c :: more)) (hrest : StopsNumber rest) :
    (readNumber c).run (more ++ rest) = .ok (.integer n, rest) := by
  rw [readNumber, run_bind, run_read h hrest]
  exact run_number_decimal hn rest

end CallGraph.Json
