import CallGraph.Json.Fault

/-!
# Readers

A reader takes a value from the front of a text, or finds a fault in it. What it leaves is always an
end of what it was given, so a loop over readers that take at least one character ends.

* `Taken`: a value with the text behind it.
* `Reader`: the type of readers, a monad.
* `Reader.run`: the view of a reader without the proof; `run_bind` and its siblings say what each
  operation does to it.
* `Reader.loop`: a step repeated at each next character, with `run_loop_nil` and `run_loop_cons`.
-/

namespace CallGraph.Json

/-! ### Values with the text behind them -/

/-- A value taken from the front of a text, and the end of the text that is left. -/
structure Taken (α : Type) (text : List Char) where
  value : α
  rest : List Char
  suffix : rest <:+ text

/-- What is taken from an end of a text is taken from the text. -/
def Taken.within {α : Type} {text whole : List Char} (taken : Taken α text)
    (h : text <:+ whole) : Taken α whole :=
  ⟨taken.value, taken.rest, taken.suffix.trans h⟩

/-- A reader of values of a type. -/
def Reader (α : Type) : Type := (text : List Char) → Except Fault (Taken α text)

namespace Reader

variable {α β σ : Type}

/-- The value and the unread text, or the fault. -/
def run (r : Reader α) (text : List Char) : Except Fault (α × List Char) :=
  match r text with
  | .ok taken => .ok (taken.value, taken.rest)
  | .error fault => .error fault

/-- The reader that takes nothing. -/
protected def pure (a : α) : Reader α := fun text => .ok ⟨a, text, List.suffix_refl text⟩

/-- One reader, and then another on what is left. -/
protected def bind (r : Reader α) (f : α → Reader β) : Reader β := fun text =>
  match r text with
  | .error fault => .error fault
  | .ok taken =>
    match f taken.value taken.rest with
    | .error fault => .error fault
    | .ok next => .ok (next.within taken.suffix)

instance : Monad Reader where
  pure := Reader.pure
  bind := Reader.bind

@[simp] theorem run_pure (a : α) (text : List Char) :
    (pure a : Reader α).run text = .ok (a, text) := rfl

/-- A sequence of readers runs the second on what the first leaves. -/
theorem run_bind (r : Reader α) (f : α → Reader β) (text : List Char) :
    (r >>= f).run text = match r.run text with
      | .ok (a, rest) => (f a).run rest
      | .error fault => .error fault := by
  show run (Reader.bind r f) text = _
  unfold run Reader.bind
  cases r text with
  | error fault => rfl
  | ok taken =>
    dsimp only
    cases f taken.value taken.rest <;> rfl

/-- What a reader leaves is an end of what it was given. -/
theorem suffix_of_run {r : Reader α} {text rest : List Char} {a : α}
    (h : r.run text = .ok (a, rest)) : rest <:+ text := by
  unfold run at h
  cases hr : r text with
  | error fault => rw [hr] at h; cases h
  | ok taken =>
    rw [hr] at h
    cases h
    exact taken.suffix

/-! ### Single characters -/

/-- A fault before the unread text. -/
def fail (cause : Cause) : Reader α := fun text => .error ⟨cause, text, 0⟩

/-- A fault behind the first byte of the unread text, or at its end. -/
def failNext (cause : Cause) : Reader α
  | [] => .error ⟨cause, [], 0⟩
  | c :: rest => .error ⟨cause, c :: rest, 1⟩

/-- A fault in the character that was taken last, behind its first byte. -/
def refuse (c : Char) (cause : Cause) : Reader α := fun text => .error ⟨cause, c :: text, 1⟩

/-- A fault before the characters that were taken last. -/
def failBefore (taken : List Char) (cause : Cause) : Reader α := fun text =>
  .error ⟨cause, taken ++ text, 0⟩

/-- The next character, which stays unread. -/
def peek? : Reader (Option Char) := fun text => .ok ⟨text.head?, text, List.suffix_refl text⟩

/-- The next character, taken. -/
def next? : Reader (Option Char)
  | [] => .ok ⟨none, [], List.suffix_refl []⟩
  | c :: rest => .ok ⟨some c, rest, List.suffix_cons c rest⟩

/-- The next character, taken if it has a property. -/
def nextIf? (p : Char → Bool) : Reader (Option Char)
  | [] => .ok ⟨none, [], List.suffix_refl []⟩
  | c :: rest =>
    if p c then .ok ⟨some c, rest, List.suffix_cons c rest⟩
    else .ok ⟨none, c :: rest, List.suffix_refl (c :: rest)⟩

/-- The longest run of characters with a property. -/
def takeWhile (p : Char → Bool) : Reader (List Char) := fun text =>
  .ok ⟨text.takeWhile p, text.dropWhile p, List.dropWhile_suffix p⟩

@[simp] theorem run_fail (cause : Cause) (text : List Char) :
    (fail cause : Reader α).run text = .error ⟨cause, text, 0⟩ := rfl

@[simp] theorem run_failNext_nil (cause : Cause) :
    (failNext cause : Reader α).run [] = .error ⟨cause, [], 0⟩ := rfl

@[simp] theorem run_failNext_cons (cause : Cause) (c : Char) (rest : List Char) :
    (failNext cause : Reader α).run (c :: rest) = .error ⟨cause, c :: rest, 1⟩ := rfl

@[simp] theorem run_refuse (c : Char) (cause : Cause) (text : List Char) :
    (refuse c cause : Reader α).run text = .error ⟨cause, c :: text, 1⟩ := rfl

@[simp] theorem run_failBefore (taken : List Char) (cause : Cause) (text : List Char) :
    (failBefore taken cause : Reader α).run text = .error ⟨cause, taken ++ text, 0⟩ := rfl

@[simp] theorem run_peek? (text : List Char) : peek?.run text = .ok (text.head?, text) := rfl

@[simp] theorem run_next?_nil : next?.run [] = .ok (none, []) := rfl

@[simp] theorem run_next?_cons (c : Char) (rest : List Char) :
    next?.run (c :: rest) = .ok (some c, rest) := rfl

@[simp] theorem run_nextIf?_nil (p : Char → Bool) : (nextIf? p).run [] = .ok (none, []) := rfl

@[simp] theorem run_nextIf?_cons (p : Char → Bool) (c : Char) (rest : List Char) :
    (nextIf? p).run (c :: rest)
      = if p c then .ok (some c, rest) else .ok (none, c :: rest) := by
  by_cases h : p c <;> simp [run, nextIf?, h]

@[simp] theorem run_takeWhile (p : Char → Bool) (text : List Char) :
    (takeWhile p).run text = .ok (text.takeWhile p, text.dropWhile p) := rfl

/-- JSON's blanks are the space, the line feed, the tab and the carriage return. -/
def isBlank (c : Char) : Bool := c = ' ' || c = '\n' || c = '\t' || c = '\r'

/-- The blanks at the front of the text. -/
def blanks : Reader Unit := do
  let _ ← takeWhile isBlank

@[simp] theorem run_blanks (text : List Char) :
    blanks.run text = .ok ((), text.dropWhile isBlank) := rfl

/-- The characters of a word, one after the other. -/
def word : List Char → Reader Unit
  | [] => pure ()
  | expected :: more => do
    match ← next? with
    | none => fail .endInValue
    | some c => if c = expected then word more else refuse c .expectedIdent

/-- The rest of `null` behind its first letter. -/
def nullRest : Reader Unit := word ['u', 'l', 'l']

/-- The rest of `true` behind its first letter. -/
def trueRest : Reader Unit := word ['r', 'u', 'e']

/-- The rest of `false` behind its first letter. -/
def falseRest : Reader Unit := word ['a', 'l', 's', 'e']

/-! ### Loops -/

/-- How a step of a loop ends: with a new state, or with the value of the loop. -/
inductive Turn (σ β : Type) where
  | again (state : σ)
  | done (value : β)

/-- The loop on an end of a text that was given as a whole. -/
def loopWithin (atEnd : σ → Cause) (step : σ → Char → Reader (Turn σ β)) {whole : List Char}
    (state : σ) : (text : List Char) → text <:+ whole → Except Fault (Taken β whole)
  | [], _ => .error ⟨atEnd state, [], 0⟩
  | c :: rest, h =>
    match step state c rest with
    | .error fault => .error fault
    | .ok ⟨.done value, unread, hu⟩ =>
      .ok ⟨value, unread, hu.trans ((List.suffix_cons c rest).trans h)⟩
    | .ok ⟨.again state, unread, hu⟩ =>
      loopWithin atEnd step state unread (hu.trans ((List.suffix_cons c rest).trans h))
termination_by text => text.length
decreasing_by
  have := hu.length_le
  simp only [List.length_cons]
  omega

/-- Each turn takes the next character and lets the step read on behind it; the end of the text is
a fault that depends on the state. -/
def loop (atEnd : σ → Cause) (step : σ → Char → Reader (Turn σ β)) (state : σ) : Reader β :=
  fun text => loopWithin atEnd step state text (List.suffix_refl text)

/-- The loop does not depend on the text its own text is an end of. -/
theorem loopWithin_eq (atEnd : σ → Cause) (step : σ → Char → Reader (Turn σ β))
    {whole : List Char} (state : σ) (text : List Char) (h : text <:+ whole) :
    loopWithin atEnd step state text h
      = (loop atEnd step state text).map fun taken => taken.within h := by
  induction hn : text.length using Nat.strongRecOn generalizing state text whole with
  | ind n ih =>
    unfold loop
    cases text with
    | nil =>
      unfold loopWithin
      rfl
    | cons c rest =>
      unfold loopWithin
      cases step state c rest with
      | error fault => rfl
      | ok taken =>
        obtain ⟨turn, unread, hu⟩ := taken
        cases turn with
        | done value => rfl
        | again next =>
          have hlt : unread.length < n := by
            have := hu.length_le
            simp only [List.length_cons] at hn
            omega
          simp only
          rw [ih _ hlt next unread _ rfl, ih _ hlt next unread _ rfl]
          cases loop atEnd step next unread <;> rfl

theorem run_loop_nil (atEnd : σ → Cause) (step : σ → Char → Reader (Turn σ β)) (state : σ) :
    (loop atEnd step state).run [] = .error ⟨atEnd state, [], 0⟩ := by
  unfold run loop loopWithin
  rfl

/-- A loop is its first step, and the loop again when that step says so. -/
theorem run_loop_cons (atEnd : σ → Cause) (step : σ → Char → Reader (Turn σ β)) (state : σ)
    (c : Char) (rest : List Char) :
    (loop atEnd step state).run (c :: rest)
      = match (step state c).run rest with
        | .error fault => .error fault
        | .ok (.done value, unread) => .ok (value, unread)
        | .ok (.again next, unread) => (loop atEnd step next).run unread := by
  unfold run
  rw [loop]
  unfold loopWithin
  cases step state c rest with
  | error fault => rfl
  | ok taken =>
    obtain ⟨turn, unread, hu⟩ := taken
    cases turn with
    | done value => rfl
    | again next =>
      simp only [loopWithin_eq]
      cases loop atEnd step next unread <;> rfl

end Reader

end CallGraph.Json
