import CallGraph.Json.Skip
import CallGraph.Proofs.Json.Folding

/-!
# Values of any kind are passed over

The loop that passes over a value keeps its open brackets in a list.  From a state in which a value
is pending, it reads any text of any tree and comes to the state behind that value, with the same
brackets open.

* `resume` — what the loop does behind a value;
* `run_skip` — a value within open brackets, by the length of its text;
* `run_skipValue` — a whole value.
-/

namespace CallGraph.Json

open Reader

/-- The loop from a state on. -/
def skipFrom (pending : Pending) : Reader Unit := loop Pending.atEnd skipStep pending

/-- What the loop does behind a value: it ends, or looks for what follows in the innermost open
bracket. -/
def resume : List Bracket → Reader Unit
  | [] => pure ()
  | inner :: enclosing => skipFrom (.separator inner enclosing)

/-! ### Words and blanks -/

theorem run_word (letters rest : List Char) :
    (word letters).run (letters ++ rest) = .ok ((), rest) := by
  induction letters with
  | nil => rfl
  | cons c letters ih =>
    rw [word, run_bind, List.cons_append, run_next?_cons]
    dsimp only
    rw [if_pos rfl, ih]

/-- Before a value blanks are passed over. -/
theorem run_skipFrom_gap {pending : Pending} {gap : List Char} (h : IsGap gap) (rest : List Char) :
    (skipFrom pending).run (gap ++ rest) = (skipFrom pending).run rest := by
  induction gap with
  | nil => rfl
  | cons c gap ih =>
    obtain ⟨hc, hmore⟩ := List.forall_mem_cons.mp h
    have hblank := isBlank_of_mem hc
    rw [← ih hmore, List.cons_append, skipFrom, run_loop_cons]
    cases pending with
    | value enclosing | separator inner enclosing =>
      rw [skipStep, if_pos hblank, run_pure]

/-- What the loop does when a turn is over. -/
def follow : Turn Pending Unit → Reader Unit
  | .done value => pure value
  | .again next => skipFrom next

/-- The first character of a value decides how the loop goes on. -/
theorem run_skipFrom_value {c : Char} (enclosing : List Bracket) (rest : List Char)
    (hblank : isBlank c = false) :
    (skipFrom (.value enclosing)).run (c :: rest)
      = (skipStart enclosing c >>= follow).run rest := by
  rw [skipFrom, run_loop_cons, skipStep, if_neg (by simp [hblank]), run_bind]
  cases (skipStart enclosing c).run rest with
  | error fault => rfl
  | ok taken =>
    obtain ⟨turn, unread⟩ := taken
    cases turn with
    | done value => rfl
    | again next => rfl

theorem follow_afterValue (enclosing : List Bracket) :
    follow (Pending.afterValue enclosing) = resume enclosing := by
  cases enclosing with
  | nil => rfl
  | cons inner enclosing => rfl

/-- A value that its first character leads through is followed by what comes behind it. -/
theorem run_skipFrom_done {c : Char} {text rest : List Char} {enclosing : List Bracket}
    (hblank : isBlank c = false)
    (h : (skipStart enclosing c).run text = .ok (Pending.afterValue enclosing, rest)) :
    (skipFrom (.value enclosing)).run (c :: text) = (resume enclosing).run rest := by
  rw [run_skipFrom_value enclosing text hblank, run_bind, h, ← follow_afterValue]

/-! ### Brackets -/

theorem run_readColon {gap : List Char} (h : IsGap gap) (rest : List Char) :
    readColon.run (gap ++ ':' :: rest) = .ok ((), rest) := by
  rw [readColon, run_bind, run_blanks, dropWhile_gap h]
  rfl

/-- A key is passed over with the quotes around it and the colon behind it. -/
theorem run_skipKey_curly {before key gap : List Char} (hbefore : IsGap before) (hkey : IsBody key)
    (hgap : IsGap gap) (rest : List Char) :
    Bracket.curly.skipKey.run (before ++ '"' :: (key ++ '"' :: (gap ++ ':' :: rest)))
      = .ok ((), rest) := by
  rw [Bracket.skipKey, run_bind, run_blanks, dropWhile_gap hbefore,
    List.dropWhile_cons_of_neg (by decide)]
  dsimp only
  rw [run_bind, run_peek?]
  dsimp only [List.head?_cons]
  rw [if_pos rfl, run_bind, run_next?_cons]
  dsimp only
  rw [run_bind, run_skipText hkey]
  exact run_readColon hgap rest

/-- The next item of an open bracket, from its key on. -/
def skipItem (bracket : Bracket) (enclosing : List Bracket) : Reader Unit :=
  bracket.skipKey >>= fun _ => skipFrom (.value (bracket :: enclosing))

theorem run_separator_closer (bracket : Bracket) (enclosing : List Bracket) (rest : List Char) :
    (skipFrom (.separator bracket enclosing)).run (bracket.closer :: rest)
      = (resume enclosing).run rest := by
  rw [skipFrom, run_loop_cons, skipStep, if_neg (by simp [bracket.isBlank_closer]), if_pos rfl,
    run_pure]
  cases enclosing with
  | nil => rfl
  | cons inner enclosing => rfl

theorem run_separator_comma (bracket : Bracket) (enclosing : List Bracket) (rest : List Char) :
    (skipFrom (.separator bracket enclosing)).run (',' :: rest)
      = (skipItem bracket enclosing).run rest := by
  have hcomma : ',' ≠ bracket.closer := by
    cases bracket with
    | square | curly => decide
  rw [skipFrom, run_loop_cons, skipStep, if_neg (by decide), if_neg hcomma, if_pos rfl, run_bind,
    skipItem, run_bind]
  cases bracket.skipKey.run rest <;> rfl

variable {α : Type} {R : α → List Char → Prop} {bracket : Bracket} {enclosing : List Bracket}

/-- The items of an open bracket are passed over, up to its closing bracket, if each of them is. -/
theorem run_skipItem_sequence {n : Nat}
    (hitem : ∀ {a text before rest}, R a text → text.length ≤ n → IsGap before →
      StopsNumber rest → (skipItem bracket enclosing).run (before ++ (text ++ rest))
        = (skipFrom (.separator bracket enclosing)).run rest)
    {as : List α} {text : List Char} (h : Sequence R as text) (hn : text.length ≤ n)
    (rest : List Char) : (skipItem bracket enclosing).run (text ++ bracket.closer :: rest)
      = (resume enclosing).run rest := by
  induction h with
  | @last a before text behind hbefore ha hbehind =>
    have hlength : text.length ≤ n := by
      simp only [List.length_append] at hn
      omega
    rw [List.append_assoc, List.append_assoc, hitem ha hlength hbefore
      (stopsNumber_gap hbehind (bracket.stopsNumber_closer rest)), run_skipFrom_gap hbehind,
      run_separator_closer]
  | @more a as before text behind more hbefore ha hbehind _ ih =>
    have hlength : text.length ≤ n ∧ more.length ≤ n := by
      simp only [List.length_append, List.length_cons] at hn
      omega
    have hcomma : StopsNumber (',' :: (more ++ bracket.closer :: rest)) :=
      stopsNumber_cons (by decide) _
    rw [List.append_assoc, List.append_assoc, List.append_assoc, List.cons_append,
      hitem ha hlength.1 hbefore (stopsNumber_gap hbehind hcomma), run_skipFrom_gap hbehind,
      run_separator_comma, ih hlength.2]

/-- A sequence without the blanks before it. -/
theorem Sequence.trim (hR : ∀ a text, R a text → BeginsItem text) {as : List α}
    {text : List Char} (h : Sequence R as text) :
    ∃ trimmed, Sequence R as trimmed ∧ trimmed.length ≤ text.length
      ∧ ∀ rest, (text ++ rest).dropWhile isBlank = trimmed ++ rest := by
  cases h with
  | @last a before text behind hbefore ha hbehind =>
    refine ⟨text ++ behind, .last isGap_nil ha hbehind, by simp, ?_⟩
    intro rest
    rw [List.append_assoc, dropWhile_gap hbefore, List.append_assoc,
      ((hR _ _ ha).append _).dropWhile]
  | @more a as before text behind more hbefore ha hbehind hmore =>
    refine ⟨text ++ (behind ++ ',' :: more), .more isGap_nil ha hbehind hmore, by simp, ?_⟩
    intro rest
    rw [List.append_assoc, dropWhile_gap hbefore, List.append_assoc,
      ((hR _ _ ha).append _).dropWhile]

theorem Bracket.isBlank_opener (bracket : Bracket) : isBlank bracket.opener = false := by
  cases bracket with
  | square | curly => rfl

theorem Bracket.skipStart_opener (bracket : Bracket) (enclosing : List Bracket) :
    skipStart enclosing bracket.opener = bracket.skipOpen enclosing := by
  cases bracket with
  | square | curly => rfl

/-- Behind an opening bracket an item is found. -/
theorem run_skipOpen {text : List Char} (h : BeginsItem (text.dropWhile isBlank)) :
    (bracket.skipOpen enclosing).run text
      = (bracket.skipKey >>= fun _ => pure (.again (.value (bracket :: enclosing)))).run
        (text.dropWhile isBlank) := by
  rw [Bracket.skipOpen, run_bind, run_blanks]
  dsimp only
  rw [run_bind, run_peek?]
  obtain ⟨c, more, htext, -⟩ := id h
  rw [htext] at h ⊢
  dsimp only [List.head?_cons]
  rw [if_neg (h.ne_closer bracket)]

/-- A bracketed sequence is passed over if each of its items is. -/
theorem run_skipFrom_sequence {n : Nat} (hR : ∀ a text, R a text → BeginsItem text)
    (hitem : ∀ {a text before rest}, R a text → text.length ≤ n → IsGap before →
      StopsNumber rest → (skipItem bracket enclosing).run (before ++ (text ++ rest))
        = (skipFrom (.separator bracket enclosing)).run rest)
    {as : List α} {text : List Char} (h : Sequence R as text) (hn : text.length ≤ n)
    (rest : List Char) :
    (skipFrom (.value enclosing)).run (bracket.opener :: (text ++ bracket.closer :: rest))
      = (resume enclosing).run rest := by
  obtain ⟨trimmed, htrimmed, hlength, htrim⟩ := h.trim hR
  have hitems := run_skipItem_sequence hitem htrimmed (by omega) rest
  have hopen : (bracket.skipOpen enclosing).run (text ++ bracket.closer :: rest) = _ :=
    run_skipOpen (h.beginsItem hR (bracket.closer :: rest))
  rw [run_skipFrom_value enclosing _ bracket.isBlank_opener, bracket.skipStart_opener, run_bind,
    hopen, htrim, ← hitems, skipItem, run_bind, run_bind]
  cases bracket.skipKey.run (trimmed ++ bracket.closer :: rest) <;> rfl

theorem run_skipOpen_empty {gap : List Char} (h : IsGap gap) (rest : List Char) :
    (bracket.skipOpen enclosing).run (gap ++ bracket.closer :: rest)
      = .ok (Pending.afterValue enclosing, rest) := by
  rw [Bracket.skipOpen, run_bind, run_blanks, dropWhile_gap h,
    List.dropWhile_cons_of_neg (by simp [bracket.isBlank_closer])]
  dsimp only
  rw [run_bind, run_peek?]
  dsimp only [List.head?_cons]
  rw [if_pos rfl]
  rfl

/-! ### Values -/

theorem Numeral.starts_ne {c d : Char} (hc : Numeral.starts c = true)
    (hd : Numeral.starts d = false) : c ≠ d := by
  rintro rfl
  rw [hd] at hc
  cases hc

theorem run_skipStart_word {first : Char} {letters : List Char} (enclosing : List Bracket)
    (hstart : skipStart enclosing first
      = (word letters >>= fun _ => pure (Pending.afterValue enclosing))) (rest : List Char) :
    (skipStart enclosing first).run (letters ++ rest)
      = .ok (Pending.afterValue enclosing, rest) := by
  rw [hstart, run_bind, run_word]
  rfl

theorem run_skipStart_text {body : List Char} (h : IsBody body) (enclosing : List Bracket)
    (rest : List Char) : (skipStart enclosing '"').run (body ++ '"' :: rest)
      = .ok (Pending.afterValue enclosing, rest) := by
  rw [skipStart, if_pos rfl, run_bind, run_skipText h]
  rfl

theorem run_skipStart_number {numeral : Numeral} {c : Char} {more rest : List Char}
    (h : numeral.Writes (c :: more)) (hc : Numeral.starts c = true) (enclosing : List Bracket)
    (hrest : StopsNumber rest) :
    (skipStart enclosing c).run (more ++ rest) = .ok (Pending.afterValue enclosing, rest) := by
  have hquote : c ≠ '"' := Numeral.starts_ne hc rfl
  have hsquare : c ≠ Bracket.square.opener := Numeral.starts_ne hc rfl
  have hcurly : c ≠ Bracket.curly.opener := Numeral.starts_ne hc rfl
  rw [skipStart, if_neg hquote, if_neg hsquare, if_neg hcurly, if_pos hc, run_bind,
    run_read h hrest]
  rfl

/-- Any tree is passed over, whatever brackets are open around it. -/
theorem run_skip (n : Nat) {tree : Tree} {text : List Char} (h : Written tree text)
    (hn : text.length ≤ n) (enclosing : List Bracket) {rest : List Char}
    (hrest : StopsNumber rest) :
    (skipFrom (.value enclosing)).run (text ++ rest) = (resume enclosing).run rest := by
  induction n generalizing tree text enclosing rest with
  | zero =>
    obtain ⟨c, more, rfl, -⟩ := h.beginsItem
    simp at hn
  | succ n ih =>
    cases h with
    | null | true | false => exact run_skipFrom_done rfl (run_skipStart_word enclosing rfl rest)
    | number hnumeral =>
      obtain ⟨c, more, rfl, hc⟩ := hnumeral.cons
      obtain ⟨d, _, heq, hblank, -⟩ := (Written.number hnumeral).beginsItem
      obtain ⟨rfl, -⟩ := List.cons.inj heq
      exact run_skipFrom_done hblank (run_skipStart_number hnumeral hc enclosing hrest)
    | @text body hbody =>
      rw [List.cons_append, List.append_assoc]
      exact run_skipFrom_done rfl (run_skipStart_text hbody enclosing rest)
    | emptyList hgap | emptyObject hgap =>
      rw [List.cons_append, List.append_assoc]
      exact run_skipFrom_done rfl (run_skipOpen_empty hgap rest)
    | @list items text hitems =>
      have hlength : text.length ≤ n := by
        simp only [List.length_cons, List.length_append] at hn
        omega
      rw [List.cons_append, List.append_assoc]
      show (skipFrom _).run (Bracket.square.opener :: (text ++ Bracket.square.closer :: rest)) = _
      refine run_skipFrom_sequence (fun _ _ => Written.beginsItem) ?_ hitems hlength rest
      intro item text before rest hitem hlength hbefore hrest
      rw [skipItem, run_bind, Bracket.skipKey, run_pure]
      dsimp only
      rw [run_skipFrom_gap hbefore]
      exact ih hitem hlength _ hrest
    | @object members text hmembers =>
      have hlength : text.length ≤ n := by
        simp only [List.length_cons, List.length_append] at hn
        omega
      rw [List.cons_append, List.append_assoc]
      show (skipFrom _).run (Bracket.curly.opener :: (text ++ Bracket.curly.closer :: rest)) = _
      refine run_skipFrom_sequence (fun _ _ => WrittenMember.beginsItem) ?_ hmembers hlength rest
      intro member text before rest hmember hlength hbefore hrest
      cases hmember with
      | @intro key gap behind text value hkey hgap hbehind hvalue =>
        have hlength : text.length ≤ n := by
          simp only [List.length_cons, List.length_append] at hlength
          omega
        simp only [List.cons_append, List.append_assoc]
        rw [skipItem, run_bind, run_skipKey_curly hbefore hkey hgap]
        dsimp only
        rw [run_skipFrom_gap hbehind]
        exact ih hvalue hlength _ hrest

/-- **Any value is passed over**, up to the first character behind it. -/
theorem run_skipValue {tree : Tree} {text rest : List Char} (h : Written tree text)
    (hrest : StopsNumber rest) : skipValue.run (text ++ rest) = .ok ((), rest) :=
  run_skip text.length h (Nat.le_refl _) [] hrest

end CallGraph.Json
