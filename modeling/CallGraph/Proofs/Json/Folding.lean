import CallGraph.Json.Sequence
import CallGraph.Proofs.Json.Tree
import Mathlib.Data.List.Forall2

/-!
# Bracketed sequences are read item by item

Reading a sequence changes a state with each item.  If every item is read as one step of the state,
a sequence is read as the steps of its items, one after the other.

* `Steps` — a state after some items;
* `run_fold`, `run_fold_empty` — a sequence is read up to its closing bracket;
* `run_readList` — the values of a list.
-/

namespace CallGraph.Json

open Reader

variable {σ α : Type}

/-- The states that items lead to, one after the other. -/
inductive Steps (step : σ → α → σ → Prop) : σ → List α → σ → Prop where
  | nil (s : σ) : Steps step s [] s
  | cons {s t u : σ} {a : α} {as : List α} (h : step s a t) (hrest : Steps step t as u) :
    Steps step s (a :: as) u

/-- The text of a sequence begins, behind blanks, with an item. -/
theorem Sequence.beginsItem {R : α → List Char → Prop} {as : List α} {text : List Char}
    (h : Sequence R as text) (hR : ∀ a text, R a text → BeginsItem text) (rest : List Char) :
    BeginsItem ((text ++ rest).dropWhile isBlank) := by
  cases h with
  | last hbefore ha _ | more hbefore ha _ _ =>
    have hitem := (hR _ _ ha).append
    rw [List.append_assoc, dropWhile_gap hbefore, List.append_assoc, (hitem _).dropWhile]
    exact hitem _

/-! ### Brackets -/

theorem Bracket.closer_cases (bracket : Bracket) :
    bracket.closer = ']' ∨ bracket.closer = '\x7d' := by
  cases bracket with
  | square => exact .inl rfl
  | curly => exact .inr rfl

theorem Bracket.isBlank_closer (bracket : Bracket) : isBlank bracket.closer = false := by
  cases bracket with
  | square | curly => rfl

theorem Bracket.stopsNumber_closer (bracket : Bracket) (rest : List Char) :
    StopsNumber (bracket.closer :: rest) := by
  cases bracket with
  | square | curly => exact stopsNumber_cons (by decide) rest

theorem BeginsItem.ne_closer {c : Char} {more : List Char} (h : BeginsItem (c :: more))
    (bracket : Bracket) : c ≠ bracket.closer := by
  obtain ⟨d, more, heq, -, hsquare, hcurly⟩ := h
  obtain ⟨rfl, -⟩ := List.cons.inj heq
  rcases bracket.closer_cases with hc | hc
  · rwa [hc]
  · rwa [hc]

/-- The first item of a sequence is found behind the blanks. -/
theorem run_first {bracket : Bracket} {text : List Char}
    (h : BeginsItem (text.dropWhile isBlank)) :
    bracket.first.run text = .ok (true, text.dropWhile isBlank) := by
  rw [Bracket.first, run_bind, run_blanks]
  dsimp only
  rw [run_bind, run_peek?]
  cases htext : text.dropWhile isBlank with
  | nil =>
    rw [htext] at h
    obtain ⟨c, more, hnil, -⟩ := h
    cases hnil
  | cons c more =>
    rw [htext] at h
    simp only [List.head?_cons, if_neg (h.ne_closer bracket), run_pure]

/-- Behind the comma comes the next item. -/
theorem run_separated_comma {bracket : Bracket} {text : List Char}
    (h : BeginsItem (text.dropWhile isBlank)) :
    (bracket.separated ',').run text = .ok (true, text.dropWhile isBlank) := by
  have hcomma : ',' ≠ bracket.closer := by
    cases bracket with
    | square | curly => decide
  rw [Bracket.separated, if_neg hcomma, if_pos rfl, run_bind, run_blanks]
  dsimp only
  rw [run_bind, run_peek?]
  cases htext : text.dropWhile isBlank with
  | nil =>
    rw [htext] at h
    obtain ⟨c, more, hnil, -⟩ := h
    cases hnil
  | cons c more =>
    rw [htext] at h
    simp only [List.head?_cons, if_neg (h.ne_closer bracket), run_pure]

theorem run_separated_closer (bracket : Bracket) (text : List Char) :
    (bracket.separated bracket.closer).run text = .ok (false, text) := by
  rw [Bracket.separated, if_pos rfl, run_pure]

/-! ### Folds -/

variable {bracket : Bracket} {item : σ → Reader σ}

/-- Blanks behind an item are passed over. -/
theorem run_foldStep_gap {atEnd : σ → Cause} {gap : List Char} (h : IsGap gap) (s : σ)
    (rest : List Char) : (loop atEnd (bracket.foldStep item) s).run (gap ++ rest)
      = (loop atEnd (bracket.foldStep item) s).run rest := by
  induction gap with
  | nil => rfl
  | cons c gap ih =>
    obtain ⟨hc, hmore⟩ := List.forall_mem_cons.mp h
    rw [List.cons_append, run_loop_cons, Bracket.foldStep, if_pos (isBlank_of_mem hc), run_pure]
    exact ih hmore

theorem run_foldStep_closer {atEnd : σ → Cause} (s : σ) (rest : List Char) :
    (loop atEnd (bracket.foldStep item) s).run (bracket.closer :: rest) = .ok (s, rest) := by
  rw [run_loop_cons, Bracket.foldStep, if_neg (by simp [bracket.isBlank_closer]), run_bind,
    run_separated_closer]
  rfl

/-- Behind a comma an item is read, and then the sequence goes on. -/
theorem run_foldStep_comma {atEnd : σ → Cause} {text : List Char} (s : σ)
    (h : BeginsItem (text.dropWhile isBlank)) :
    (loop atEnd (bracket.foldStep item) s).run (',' :: text)
      = (item s >>= loop atEnd (bracket.foldStep item)).run (text.dropWhile isBlank) := by
  rw [run_loop_cons, Bracket.foldStep, if_neg (by decide), run_bind, run_separated_comma h,
    run_bind]
  dsimp only
  rw [if_pos rfl, run_bind]
  cases (item s).run (text.dropWhile isBlank) <;> rfl

/-- **A sequence is read as the steps of its items**: if each item is read as a step of the state,
whatever follows that ends a number, then a whole sequence is read up to its closing bracket. -/
theorem run_fold {R : α → List Char → Prop} {step : σ → α → σ → Prop}
    (hR : ∀ a text, R a text → BeginsItem text) {as : List α} {text : List Char}
    (h : Sequence R as text) {s t : σ} (hsteps : Steps step s as t)
    (hitem : ∀ {s a t text rest}, step s a t → R a text → StopsNumber rest →
      (item s).run (text ++ rest) = .ok (t, rest))
    (rest : List Char) : (bracket.fold item s).run (text ++ bracket.closer :: rest)
      = .ok (t, rest) := by
  rw [Bracket.fold, run_bind, run_first (h.beginsItem hR _)]
  show (item s >>= loop _ (bracket.foldStep item)).run _ = _
  -- one item, and what follows it: the closing bracket, or a comma and the remaining items
  induction h generalizing s with
  | @last a before text behind hbefore ha hbehind =>
    cases hsteps with
    | cons hstep hnil =>
      cases hnil
      have hread := hitem hstep ha (stopsNumber_gap hbehind (bracket.stopsNumber_closer rest))
      rw [List.append_assoc, dropWhile_gap hbefore, List.append_assoc,
        ((hR _ _ ha).append _).dropWhile, run_bind, hread]
      dsimp only
      rw [run_foldStep_gap hbehind, run_foldStep_closer]
  | @more a as before text behind more hbefore ha hbehind hmore ih =>
    cases hsteps with
    | cons hstep hsteps =>
      have hcomma : StopsNumber (',' :: (more ++ bracket.closer :: rest)) :=
        stopsNumber_cons (by decide) _
      have hread := hitem hstep ha (stopsNumber_gap hbehind hcomma)
      rw [List.append_assoc, dropWhile_gap hbefore, List.append_assoc,
        ((hR _ _ ha).append _).dropWhile, List.append_assoc, List.cons_append, run_bind, hread]
      dsimp only
      rw [run_foldStep_gap hbehind, run_foldStep_comma _ (hmore.beginsItem hR _)]
      exact ih hsteps

/-- Nothing changes the state where there is no item. -/
theorem run_fold_empty {gap : List Char} (h : IsGap gap) (s : σ) (rest : List Char) :
    (bracket.fold item s).run (gap ++ bracket.closer :: rest) = .ok (s, rest) := by
  have hfirst : bracket.first.run (gap ++ bracket.closer :: rest) = .ok (false, rest) := by
    rw [Bracket.first, run_bind, run_blanks, dropWhile_gap h,
      List.dropWhile_cons_of_neg (by simp [bracket.isBlank_closer])]
    dsimp only
    rw [run_bind, run_peek?]
    simp only [List.head?_cons, if_true, run_bind, run_next?_cons, run_pure]
  rw [Bracket.fold, run_bind, hfirst]
  rfl

/-! ### Lists -/

theorem steps_cons {R : α → σ → Prop} {as : List α} {values : List σ}
    (h : List.Forall₂ R as values) (before : List σ) :
    Steps (fun s a t => ∃ v, R a v ∧ t = v :: s) before as (values.reverse ++ before) := by
  induction h generalizing before with
  | nil => exact .nil before
  | @cons a v as values hfirst _ ih =>
    rw [List.reverse_cons, List.append_assoc]
    exact .cons ⟨v, hfirst, rfl⟩ (ih (v :: before))

/-- A list collects its values in reverse. -/
theorem run_readList_of_fold {item : Reader σ} {text rest : List Char} {values : List σ}
    (h : (Bracket.square.fold (fun before => return (← item) :: before) []).run text
      = .ok (values.reverse, rest)) : (readList item).run text = .ok (values, rest) := by
  rw [readList, run_bind, h]
  show Except.ok (values.reverse.reverse, rest) = _
  rw [List.reverse_reverse]

/-- The values of a list are those of its items. -/
theorem run_readList {item : Reader σ} {R : α → List Char → Prop} {M : α → σ → Prop}
    (hR : ∀ a text, R a text → BeginsItem text)
    (hitem : ∀ {a v text rest}, M a v → R a text → StopsNumber rest →
      item.run (text ++ rest) = .ok (v, rest))
    {as : List α} {values : List σ} (hvalues : List.Forall₂ M as values) {text : List Char}
    (h : Sequence R as text) (rest : List Char) :
    (readList item).run (text ++ ']' :: rest) = .ok (values, rest) := by
  have hsteps := steps_cons hvalues []
  rw [List.append_nil] at hsteps
  apply run_readList_of_fold
  refine run_fold hR h hsteps ?_ rest
  intro p a q text rest hstep ha hrest
  obtain ⟨v, hv, rfl⟩ := hstep
  rw [run_bind, hitem hv ha hrest]
  rfl

theorem run_readList_empty (item : Reader σ) {gap : List Char} (h : IsGap gap) (rest : List Char) :
    (readList item).run (gap ++ ']' :: rest) = .ok ([], rest) :=
  run_readList_of_fold (run_fold_empty h [] rest)

end CallGraph.Json
