import CallGraph.Proofs.Json.Tree
import Mathlib.Data.List.TakeWhile

/-!
# What readers take

The other direction of reading: whatever a reader accepts is of the shape that it reads.  A reader
takes some front of the text and leaves the rest, and a relation between values and fronts is all
that is said about it.  There is one rule for each way to put readers together, and with these a
reader is gone through step by step.

* `Reader.Takes`, `Takes.bind`, `takes_loop` — the relation, and its rules;
* `Reader.TakesFrom`, `takes_peek?` — a reader on a text whose first character is known;
* `takes_takeWhile`, `takes_blanks`, `takes_word` — blanks and words.
-/

namespace CallGraph.Json

namespace Reader

variable {α β σ : Type}

/-! ### Fronts of texts -/

/-- With every value that a reader gives, it takes a front that is related to the value. -/
def Takes (r : Reader α) (P : α → List Char → Prop) : Prop :=
  ∀ (text rest : List Char) (a : α), r.run text = .ok (a, rest) →
    ∃ taken, text = taken ++ rest ∧ P a taken

theorem takes_pure {a : α} {P : α → List Char → Prop} (h : P a []) :
    (pure a : Reader α).Takes P := by
  intro text rest b hrun
  rw [run_pure] at hrun
  obtain ⟨rfl, rfl⟩ := Prod.mk.inj (Except.ok.inj hrun)
  exact ⟨[], rfl, h⟩

/-- A reader that gives no value takes what one likes. -/
theorem takes_of_error {r : Reader α} {P : α → List Char → Prop}
    (h : ∀ text, ∃ fault, r.run text = .error fault) : r.Takes P := by
  intro text rest a hrun
  obtain ⟨fault, hfault⟩ := h text
  rw [hfault] at hrun
  cases hrun

theorem takes_fail (cause : Cause) {P : α → List Char → Prop} :
    (fail cause : Reader α).Takes P :=
  takes_of_error fun text => ⟨_, run_fail cause text⟩

theorem takes_failNext (cause : Cause) {P : α → List Char → Prop} :
    (failNext cause : Reader α).Takes P := by
  apply takes_of_error
  intro text
  cases text with
  | nil => exact ⟨_, rfl⟩
  | cons c rest => exact ⟨_, rfl⟩

theorem takes_refuse (c : Char) (cause : Cause) {P : α → List Char → Prop} :
    (refuse c cause : Reader α).Takes P :=
  takes_of_error fun text => ⟨_, run_refuse c cause text⟩

theorem takes_failBefore (taken : List Char) (cause : Cause) {P : α → List Char → Prop} :
    (failBefore taken cause : Reader α).Takes P :=
  takes_of_error fun text => ⟨_, run_failBefore taken cause text⟩

/-- One reader behind another: the fronts that they take stand side by side. -/
theorem Takes.bind {r : Reader α} {f : α → Reader β} {P : α → List Char → Prop}
    {Q : β → List Char → Prop} (h : r.Takes P)
    (hf : ∀ a front, P a front → (f a).Takes fun b more => Q b (front ++ more)) :
    (r >>= f).Takes Q := by
  intro text rest b hrun
  rw [run_bind] at hrun
  cases hr : r.run text with
  | error fault =>
    rw [hr] at hrun
    cases hrun
  | ok result =>
    obtain ⟨a, unread⟩ := result
    rw [hr] at hrun
    obtain ⟨front, rfl, hfront⟩ := h _ _ _ hr
    obtain ⟨more, rfl, hmore⟩ := hf a front hfront _ _ _ hrun
    exact ⟨front ++ more, (List.append_assoc ..).symm, hmore⟩

/-- What is taken may be described in another way. -/
theorem Takes.imp {r : Reader α} {P Q : α → List Char → Prop} (h : r.Takes P)
    (hpq : ∀ a taken, P a taken → Q a taken) : r.Takes Q := by
  intro text rest a hrun
  obtain ⟨taken, htext, htaken⟩ := h _ _ _ hrun
  exact ⟨taken, htext, hpq a taken htaken⟩

/-- A reader of values that are changed afterwards. -/
theorem Takes.map {r : Reader α} {f : α → β} {P : α → List Char → Prop}
    {Q : β → List Char → Prop} (h : r.Takes P) (hpq : ∀ a taken, P a taken → Q (f a) taken) :
    (do return f (← r) : Reader β).Takes Q := by
  refine h.bind ?_
  intro a front hfront
  refine takes_pure ?_
  rw [List.append_nil]
  exact hpq a front hfront

/-! ### The first character -/

/-- A reader on texts that begin with a character. -/
def TakesFrom (c : Char) (r : Reader α) (P : α → List Char → Prop) : Prop :=
  ∀ (text rest : List Char) (a : α), r.run (c :: text) = .ok (a, rest) →
    ∃ taken, c :: text = taken ++ rest ∧ P a taken

theorem Takes.from {r : Reader α} {P : α → List Char → Prop} (h : r.Takes P) (c : Char) :
    r.TakesFrom c P :=
  fun text rest a hrun => h (c :: text) rest a hrun

/-- A known first character is taken. -/
theorem takesFrom_next? {c : Char} {f : Option Char → Reader β} {Q : β → List Char → Prop}
    (h : (f (some c)).Takes fun b more => Q b (c :: more)) : (next? >>= f).TakesFrom c Q := by
  intro text rest b hrun
  rw [run_bind, run_next?_cons] at hrun
  obtain ⟨more, rfl, hmore⟩ := h _ _ _ hrun
  exact ⟨c :: more, rfl, hmore⟩

/-- A first character that was looked at is known. -/
theorem takes_peek? {f : Option Char → Reader β} {Q : β → List Char → Prop}
    (hnone : (f none).Takes Q) (hsome : ∀ c, (f (some c)).TakesFrom c Q) :
    (peek? >>= f).Takes Q := by
  intro text rest b hrun
  rw [run_bind, run_peek?] at hrun
  cases text with
  | nil => exact hnone _ _ _ hrun
  | cons c text => exact hsome c _ _ _ hrun

theorem takes_next? {f : Option Char → Reader β} {Q : β → List Char → Prop}
    (hnone : (f none).Takes Q)
    (hsome : ∀ c, (f (some c)).Takes fun b more => Q b (c :: more)) : (next? >>= f).Takes Q := by
  intro text rest b hrun
  cases text with
  | nil =>
    rw [run_bind, run_next?_nil] at hrun
    exact hnone _ _ _ hrun
  | cons c text => exact takesFrom_next? (hsome c) _ _ _ hrun

theorem takes_nextIf? {p : Char → Bool} {f : Option Char → Reader β} {Q : β → List Char → Prop}
    (hnone : (f none).Takes Q)
    (hsome : ∀ c, p c = true → (f (some c)).Takes fun b more => Q b (c :: more)) :
    (nextIf? p >>= f).Takes Q := by
  intro text rest b hrun
  rw [run_bind] at hrun
  cases text with
  | nil => exact hnone _ _ _ hrun
  | cons c text =>
    rw [run_nextIf?_cons] at hrun
    by_cases hc : p c = true
    · rw [if_pos hc] at hrun
      obtain ⟨more, rfl, hmore⟩ := hsome c hc _ _ _ hrun
      exact ⟨c :: more, rfl, hmore⟩
    · rw [if_neg hc] at hrun
      exact hnone _ _ _ hrun

theorem takes_takeWhile (p : Char → Bool) :
    (takeWhile p).Takes fun found taken => found = taken ∧ ∀ c ∈ taken, p c = true := by
  intro text rest found hrun
  rw [run_takeWhile] at hrun
  obtain ⟨rfl, rfl⟩ := Prod.mk.inj (Except.ok.inj hrun)
  refine ⟨_, List.takeWhile_append_dropWhile.symm, rfl, ?_⟩
  intro c hc
  exact List.mem_takeWhile_imp hc

/-! ### Blanks and words -/

theorem takes_blanks : blanks.Takes fun _ gap => IsGap gap := by
  refine (takes_takeWhile isBlank).bind ?_
  rintro found gap ⟨-, hgap⟩
  refine takes_pure ?_
  intro c hc
  rw [List.append_nil] at hc
  simpa [isBlank, or_assoc] using hgap c hc

theorem takes_word (letters : List Char) : (word letters).Takes fun _ taken => taken = letters := by
  induction letters with
  | nil => exact takes_pure rfl
  | cons expected letters ih =>
    refine takes_next? (takes_fail _) ?_
    intro c
    dsimp only
    by_cases hc : c = expected
    · rw [if_pos hc, hc]
      exact ih.imp fun _ _ htaken => by rw [htaken]
    · rw [if_neg hc]
      exact takes_refuse c _

/-! ### Loops -/

/-- A turn of a loop that took a front: the loop is over with it, or goes on from a state. -/
def Turn.Takes (I : σ → β → List Char → Prop) (Q : β → List Char → Prop) :
    Turn σ β → List Char → Prop
  | .done b, front => Q b front
  | .again s, front => ∀ b more, I s b more → Q b (front ++ more)

/-- What a loop takes is found turn by turn: a turn takes its character and what its step takes,
and what the loop takes from the next state on comes behind it. -/
theorem takes_loop {atEnd : σ → Cause} {step : σ → Char → Reader (Turn σ β)}
    {I : σ → β → List Char → Prop}
    (h : ∀ s c, (step s c).Takes (Turn.Takes I fun b taken => I s b (c :: taken))) (s : σ) :
    (loop atEnd step s).Takes (I s) := by
  intro text
  induction hn : text.length using Nat.strongRecOn generalizing s text with
  | ind n ih =>
    intro rest b hrun
    cases text with
    | nil =>
      rw [run_loop_nil] at hrun
      cases hrun
    | cons c text =>
      rw [run_loop_cons] at hrun
      cases hstep : (step s c).run text with
      | error fault =>
        rw [hstep] at hrun
        cases hrun
      | ok result =>
        obtain ⟨turn, unread⟩ := result
        rw [hstep] at hrun
        obtain ⟨front, rfl, hfront⟩ := h s c _ _ _ hstep
        cases turn with
        | done value =>
          obtain ⟨rfl, rfl⟩ := Prod.mk.inj (Except.ok.inj hrun)
          exact ⟨c :: front, rfl, hfront⟩
        | again next =>
          have hlt : unread.length < n := by
            simp only [List.length_cons, List.length_append] at hn
            omega
          obtain ⟨more, rfl, hmore⟩ := ih _ hlt next _ rfl _ _ hrun
          exact ⟨c :: (front ++ more), by rw [List.cons_append, List.append_assoc],
            hfront b more hmore⟩

end Reader

end CallGraph.Json
