import CallGraph.Proofs.Document.Editing
import CallGraph.Proofs.Document.Places

/-!
# Numbers load exactly or not at all

A number in a document is read from plain digits that stand for a value within its size, and holds
that value.  Signs, fractions, exponents and greater values are rejected, however long they are.

* `Numeral.Writes.eq_decimal_iff` — plain digits, and the numeral of a natural number;
* `Schema.Words` — which numerals a schema of numbers accepts, and as what;
* `Document.NumberAt` — the places of the numbers of a document;
* `Document.parse_number` — what becomes of a document with another number in such a place.
-/

namespace CallGraph

namespace Json

/-! ### Plain digits -/

theorem ofDigitChars_eq_natOfDigits (digits : List Char) :
    Nat.ofDigitChars 10 digits 0 = natOfDigits 0 digits := by
  rw [Nat.ofDigitChars_eq_foldl]
  rfl

/-- A numeral is that of a natural number exactly if it is written with digits only, and these stand
for the number. -/
theorem Numeral.Writes.eq_decimal_iff {numeral : Numeral} {token : List Char}
    (h : numeral.Writes token) {n : Nat} :
    numeral = decimal n ↔ (∀ c ∈ token, c.isDigit = true) ∧ Nat.ofDigitChars 10 token 0 = n := by
  rw [ofDigitChars_eq_natOfDigits]
  cases h with
  | @intro negative whole fractionText exponentText fraction exponent hwhole hfraction hexponent =>
    constructor
    · intro hdecimal
      obtain ⟨rfl, rfl, rfl, rfl⟩ := Numeral.mk.inj hdecimal
      cases hfraction
      cases hexponent
      refine ⟨?_, ?_⟩
      · simpa using hwhole.1.2
      · simpa using natOfDigits_toString n
    · rintro ⟨hdigits, rfl⟩
      -- a sign, a point or the letter of an exponent would be no digit
      cases negative with
      | true => exact absurd (hdigits '-' (by simp)) (by decide)
      | false =>
        cases hfraction with
        | some => exact absurd (hdigits '.' (by simp)) (by decide)
        | none =>
          cases hexponent with
          | @some letter sign digits hletter =>
            have hdigit := hdigits letter (by simp)
            rcases hletter with rfl | rfl <;> exact absurd hdigit (by decide)
          | none =>
            have hvalue := eq_toDigits hwhole
            simp only [Bool.false_eq_true, if_false, List.nil_append, List.append_nil]
            rw [decimal, toList_toString, ← hvalue]

/-! ### Schemas of numbers -/

variable {β : Type}

/-- A schema accepts exactly the numerals of the numbers below a size, each as its number. -/
def Schema.Words (schema : Schema β) (size : Nat) (toNat : β → Nat) : Prop :=
  ∀ numeral n, (∃ v, schema.Means (.number numeral) v ∧ toNat v = n)
    ↔ numeral = decimal n ∧ n < size

theorem words_map {size : Nat} (expected : String) {f : Fin size → β} {toNat : β → Nat}
    (hf : ∀ v, toNat (f v) = v.val) (hsize : size ≤ greatestWord + 1) :
    (Schema.map f (.word expected size)).Words size toNat := by
  intro numeral n
  constructor
  · rintro ⟨v, hmeans, rfl⟩
    rw [Schema.Means] at hmeans
    obtain ⟨w, hw, rfl⟩ := hmeans
    rw [Schema.Means] at hw
    rw [hf]
    exact ⟨Tree.number.inj hw.1, w.isLt⟩
  · rintro ⟨rfl, hn⟩
    refine ⟨f ⟨n, hn⟩, ?_, hf _⟩
    rw [Schema.Means]
    refine ⟨⟨n, hn⟩, ?_, rfl⟩
    rw [Schema.Means]
    exact ⟨rfl, Nat.le_of_lt_succ (Nat.lt_of_lt_of_le hn hsize)⟩

section

variable {schema : Schema β} {size : Nat} {toNat : β → Nat} {numeral : Numeral}
  {token : List Char}

/-- A schema of numbers accepts plain digits for a number below its size. -/
theorem Schema.Words.exists_means_iff (h : schema.Words size toNat) (htoken : numeral.Writes token) :
    (∃ v, schema.Means (.number numeral) v)
      ↔ (∀ c ∈ token, c.isDigit = true) ∧ Nat.ofDigitChars 10 token 0 < size := by
  constructor
  · rintro ⟨v, hv⟩
    obtain ⟨hdecimal, hlt⟩ := (h numeral (toNat v)).mp ⟨v, hv, rfl⟩
    obtain ⟨hdigits, hvalue⟩ := htoken.eq_decimal_iff.mp hdecimal
    exact ⟨hdigits, hvalue ▸ hlt⟩
  · rintro ⟨hdigits, hlt⟩
    have hdecimal := htoken.eq_decimal_iff.mpr ⟨hdigits, rfl⟩
    obtain ⟨v, hv, -⟩ := (h numeral _).mpr ⟨hdecimal, hlt⟩
    exact ⟨v, hv⟩

/-- It reads them as the number that they stand for. -/
theorem Schema.Words.toNat_eq (h : schema.Words size toNat) (htoken : numeral.Writes token) {v : β}
    (hv : schema.Means (.number numeral) v) : toNat v = Nat.ofDigitChars 10 token 0 := by
  obtain ⟨hdecimal, -⟩ := (h numeral (toNat v)).mp ⟨v, hv, rfl⟩
  exact (htoken.eq_decimal_iff.mp hdecimal).2.symm

end

end Json

open Json

namespace Layout

theorem words_word32 : word32.Words UInt32.size UInt32.toNat :=
  words_map "u32" (fun _ => rfl) (by decide)

theorem words_word64 : word64.Words UInt64.size UInt64.toNat :=
  words_map "usize" (fun _ => rfl) (by decide)

end Layout

/-! ### Numbers in documents -/

namespace Document

/-- The places of the numbers of a document, each with its size and what a document holds there:
the lines of a method and of a call, the depth of a chain, and the levels of the entry point and
the nodes of a chain. -/
inductive NumberAt : Nat → (Tree → Tree) → (Document → Option Nat) → Prop where
  | lineStart {n : Nat} {around close : Tree → Tree}
    (h : Layout.documentFields.ItemAt "methods" n around)
    (hspot : Layout.methodFields.Spot "lineStart" close) :
    NumberAt UInt32.size (fun tree => around (close tree))
      fun d => d.methods[n]?.map fun method => method.lineStart.toNat
  | lineEnd {n : Nat} {around close : Tree → Tree}
    (h : Layout.documentFields.ItemAt "methods" n around)
    (hspot : Layout.methodFields.Spot "lineEnd" close) :
    NumberAt UInt32.size (fun tree => around (close tree))
      fun d => d.methods[n]?.map fun method => method.lineEnd.toNat
  | sourceLineNumber {n : Nat} {around close : Tree → Tree}
    (h : Layout.documentFields.ItemAt "methodCalls" n around)
    (hspot : Layout.callFields.Spot "sourceLineNumber" close) :
    NumberAt UInt32.size (fun tree => around (close tree))
      fun d => d.calls[n]?.map fun call => call.sourceLineNumber.toNat
  | maxDepth {n : Nat} {around close : Tree → Tree}
    (h : Layout.documentFields.ItemAt "callChains" n around)
    (hspot : Layout.chainFields.Spot "maxDepth" close) :
    NumberAt UInt64.size (fun tree => around (close tree))
      fun d => d.chains[n]?.map fun chain => chain.maxDepth.toNat
  | entryLevel {n : Nat} {around entry close : Tree → Tree}
    (h : Layout.documentFields.ItemAt "callChains" n around)
    (hentry : Layout.chainFields.Spot "entryPoint" entry)
    (hspot : Layout.pathNodeFields.Spot "level" close) :
    NumberAt UInt64.size (fun tree => around (entry (close tree)))
      fun d => (d.chains[n]?.bind Chain.entry).map fun node => node.level.toNat
  | nodeLevel {n m : Nat} {around path close : Tree → Tree}
    (h : Layout.documentFields.ItemAt "callChains" n around)
    (hpath : Layout.chainFields.ItemAt "chain" m path)
    (hspot : Layout.pathNodeFields.Spot "level" close) :
    NumberAt UInt64.size (fun tree => around (path (close tree)))
      fun d => (d.chains[n]?.bind fun chain => chain.path[m]?).map fun node => node.level.toNat

/-- A text is accepted exactly if a token in it is made of digits only that stand for a number below
a size, and then the document holds that number. -/
structure TakesNumber (size : Nat) (value : Document → Option Nat) (token : List Char)
    (text : String) : Prop where
  accepted_iff : (∃ d, Document.parse text = .ok d)
    ↔ (∀ c ∈ token, c.isDigit = true) ∧ Nat.ofDigitChars 10 token 0 < size
  exact : ∀ d, Document.parse text = .ok d → value d = some (Nat.ofDigitChars 10 token 0)

/-- A place in the trees of documents that holds a number: whatever stands there in the tree of a
document, a text takes the number that is put there instead. -/
structure HoldsNumber (size : Nat) (around : Tree → Tree) (value : Document → Option Nat) :
    Prop where
  place : ∃ (β : Type) (schema : Schema β), schema.Place Layout.document around
  takes {other : Tree} {d : Document} {numeral : Numeral} {token : List Char} {text : String}
    (hd : Layout.document.Means (around other) d) (htoken : numeral.Writes token)
    (htext : (around (.number numeral)).WrittenAs text) : TakesNumber size value token text

/-- A field of numbers holds a number. -/
theorem holdsNumber_of_locates {ρ β : Type} {expected name : String} {blank : ρ}
    {fields : Fields ρ} {schema : Schema β} {get : ρ → β} {toNat : β → Nat} {size : Nat}
    {around close : Tree → Tree} {find : Document → Option ρ}
    (h : (Schema.record expected blank fields).Locates Layout.document around find)
    (hspot : fields.Spot name close) (hread : fields.ReadBy name schema get)
    (hnames : fields.names.Nodup) (hwords : schema.Words size toNat) :
    HoldsNumber size (fun tree => around (close tree))
      fun d => (find d).map fun record => toNat (get record) := by
  have hlocates := (hspot.locates hread hnames expected blank).trans h
  refine ⟨⟨β, schema, hlocates.place⟩, ?_⟩
  intro other d numeral token text hd htoken htext
  have hparse (e : Document) : Document.parse text = .ok e ↔ _ := htext.parse_eq_ok_iff
  have hnull : Tree.number numeral ≠ .null := by
    intro hnull
    cases hnull
  refine ⟨?_, ?_⟩
  · rw [exists_congr hparse]
    exact (h.exists_field_iff hspot hread hnames hd hnull).trans (hwords.exists_means_iff htoken)
  · intro e he
    obtain ⟨v, hv, hmeans⟩ := hlocates.found hnull ((hparse e).mp he)
    obtain ⟨record, hrecord, hget⟩ := Option.bind_eq_some_iff.mp hv
    rw [hrecord, Option.map_some, Option.some.inj hget, hwords.toNat_eq htoken hmeans]

theorem NumberAt.holdsNumber {size : Nat} {around : Tree → Tree} {value : Document → Option Nat}
    (h : NumberAt size around value) : HoldsNumber size around value := by
  cases h with
  | lineStart h hspot =>
    exact holdsNumber_of_locates (Layout.locates_method h) hspot Layout.readBy_lineStart
      Layout.methodFields_lawful.names Layout.words_word32
  | lineEnd h hspot =>
    exact holdsNumber_of_locates (Layout.locates_method h) hspot Layout.readBy_lineEnd
      Layout.methodFields_lawful.names Layout.words_word32
  | sourceLineNumber h hspot =>
    exact holdsNumber_of_locates (Layout.locates_call h) hspot Layout.readBy_sourceLineNumber
      Layout.callFields_lawful.names Layout.words_word32
  | maxDepth h hspot =>
    exact holdsNumber_of_locates (Layout.locates_chain h) hspot Layout.readBy_maxDepth
      Layout.chainFields_lawful.names Layout.words_word64
  | entryLevel h hentry hspot =>
    -- the two places around the field are put together before they are compared with one place
    have hholds := holdsNumber_of_locates (Layout.locates_entry h hentry) hspot Layout.readBy_level
      Layout.pathNodeFields_lawful.names Layout.words_word64
    exact hholds
  | nodeLevel h hpath hspot =>
    have hholds := holdsNumber_of_locates (Layout.locates_node h hpath) hspot Layout.readBy_level
      Layout.pathNodeFields_lawful.names Layout.words_word64
    exact hholds

/-- **Numbers load exactly or not at all.**  When a number is put into the place of a number in an
accepted document, whatever stood there, a text with it is accepted exactly if the number is written
with digits only, without a sign, a fraction or an exponent, and is below the size of the field; and
then the field holds exactly that number.  The old text with the number in that place is such a
text. -/
theorem parse_number {size : Nat} {around : Tree → Tree} {value : Document → Option Nat}
    (hplace : NumberAt size around value) {other : Tree} {text : String} {d : Document}
    (htext : (around other).WrittenAs text) (h : Document.parse text = .ok d) :
    (∀ numeral token changed, Numeral.Writes numeral token →
      (around (.number numeral)).WrittenAs changed → TakesNumber size value token changed)
    ∧ ∃ before piece behind, text = String.ofList (before ++ (piece ++ behind))
      ∧ Written other piece ∧ ∀ numeral token, Numeral.Writes numeral token →
        (around (.number numeral)).WrittenAs (String.ofList (before ++ (token ++ behind))) := by
  have hholds := hplace.holdsNumber
  refine ⟨?_, ?_⟩
  · intro numeral token changed htoken hchanged
    exact hholds.takes (htext.parse_eq_ok_iff.mp h) htoken hchanged
  · obtain ⟨β, schema, place⟩ := hholds.place
    obtain ⟨before, piece, behind, htext, hpiece, hput⟩ := place.hole_of_writtenAs htext
    refine ⟨before, piece, behind, htext, hpiece, ?_⟩
    intro numeral token htoken
    exact hput _ _ (.number htoken)

/-- The tree of a document with one chain, of which only the depth is given. -/
def depthTree (depth : Tree) : Tree :=
  .object [("callChains".toList, .list [.object [("maxDepth".toList, depth)]])]

theorem depthTree_numberAt :
    NumberAt UInt64.size depthTree fun d => d.chains[0]?.map fun chain => chain.maxDepth.toNat := by
  have hchains : Layout.documentFields.Spot "callChains"
      fun tree => .object [("callChains".toList, tree)] := .member [] [] spellsAll_self
  have hdepth : Layout.chainFields.Spot "maxDepth"
      fun tree => .object [("maxDepth".toList, tree)] := .member [] [] spellsAll_self
  have hplace := NumberAt.maxDepth (.intro [] [] hchains) hdepth
  exact hplace

theorem depthTree_writtenAs {depth : Tree} {written : List Char} (h : Written depth written) :
    (depthTree depth).WrittenAs
      (String.ofList ("\x7b\"callChains\":[\x7b\"maxDepth\":".toList
        ++ (written ++ "\x7d]\x7d".toList))) := by
  have hchain := Sequence.single (writtenMember_plain "maxDepth" h)
  have hchains := Sequence.single (Written.object hchain)
  have hdocument := Sequence.single (writtenMember_plain "callChains" (.list hchains))
  have htext := writtenAs_object hdocument
  simpa [depthTree] using htext

/-- In the place of a null, the greatest number of 64 bits is the depth of a chain, and the next one
is not, nor are a zero with a minus sign and a one with a fraction. -/
theorem parse_number_depth :
    Document.parse "\x7b\"callChains\":[\x7b\"maxDepth\":null\x7d]\x7d" = .ok { chains := [{}] }
    ∧ (∃ d,
      Document.parse "\x7b\"callChains\":[\x7b\"maxDepth\":18446744073709551615\x7d]\x7d" = .ok d
      ∧ d.chains[0]?.map (fun chain => chain.maxDepth.toNat) = some 18446744073709551615)
    ∧ (∀ d,
      Document.parse "\x7b\"callChains\":[\x7b\"maxDepth\":18446744073709551616\x7d]\x7d" ≠ .ok d)
    ∧ (∀ d, Document.parse "\x7b\"callChains\":[\x7b\"maxDepth\":-0\x7d]\x7d" ≠ .ok d)
    ∧ ∀ d, Document.parse "\x7b\"callChains\":[\x7b\"maxDepth\":1.0\x7d]\x7d" ≠ .ok d := by
  have hwhole {digits : List Char} (h : IsWhole digits) :
      Numeral.Writes ⟨false, digits, none, none⟩ digits := by
    have hwrites : Numeral.Writes ⟨false, digits, none, none⟩ _ := .intro h .none .none
    simpa using hwrites
  have hgreatest : Numeral.Writes _ "18446744073709551615".toList :=
    hwhole ⟨isDigits_of_all (List.cons_ne_nil _ _), by decide⟩
  have hnext : Numeral.Writes _ "18446744073709551616".toList :=
    hwhole ⟨isDigits_of_all (List.cons_ne_nil _ _), by decide⟩
  have hminus : Numeral.Writes ⟨true, ['0'], none, none⟩ "-0".toList :=
    .intro ⟨isDigits_of_all (List.cons_ne_nil _ _), fun _ => rfl⟩ .none .none
  have hfraction : Numeral.Writes ⟨false, ['1'], some ['0'], none⟩ "1.0".toList :=
    .intro ⟨isDigits_of_all (List.cons_ne_nil _ _), by decide⟩
      (.some (isDigits_of_all (List.cons_ne_nil _ _))) .none
  have h : Document.parse "\x7b\"callChains\":[\x7b\"maxDepth\":null\x7d]\x7d"
      = .ok { chains := [{}] } := by cbv
  obtain ⟨htakes, -⟩ := parse_number depthTree_numberAt (depthTree_writtenAs .null) h
  refine ⟨h, ?_, ?_, ?_, ?_⟩
  · have hnumber := htakes _ _ _ hgreatest (depthTree_writtenAs (.number hgreatest))
    obtain ⟨d, hd⟩ := hnumber.accepted_iff.mpr
      ⟨(isDigits_of_all (List.cons_ne_nil _ _)).2, by decide⟩
    exact ⟨d, hd, hnumber.exact d hd⟩
  · intro d hd
    have hnumber := htakes _ _ _ hnext (depthTree_writtenAs (.number hnext))
    exact absurd (hnumber.accepted_iff.mp ⟨d, hd⟩).2 (by decide)
  · intro d hd
    have hnumber := htakes _ _ _ hminus (depthTree_writtenAs (.number hminus))
    exact absurd ((hnumber.accepted_iff.mp ⟨d, hd⟩).1 '-' List.mem_cons_self) (by decide)
  · intro d hd
    have hnumber := htakes _ _ _ hfraction (depthTree_writtenAs (.number hfraction))
    exact absurd ((hnumber.accepted_iff.mp ⟨d, hd⟩).1 '.' (by simp)) (by decide)

end Document

end CallGraph
