import CallGraph.Proofs.Json.Folding
import CallGraph.Proofs.Json.Taking

/-!
# Sequences that are read are written

Behind an item stands the closing bracket, or a comma with further items.  Read from the back, item
by item, this is a sequence, so whatever is read item by item is a sequence of the items' texts.

* `Remainder`, `Enclosed` — what stands behind an item, and behind an opening bracket;
* `takes_first`, `takes_separated`, `takes_following` — what stands between items;
* `takes_fold`, `takes_readList` — all items.
-/

namespace CallGraph.Json

open Reader

variable {α β σ ρ : Type}

/-! ### Bracketed sequences -/

/-- What stands behind an item: the closing bracket, or a comma and further items before it. -/
inductive Remainder (R : α → List Char → Prop) (bracket : Bracket) :
    List α → List Char → Prop where
  | close {gap : List Char} (hgap : IsGap gap) : Remainder R bracket [] (gap ++ [bracket.closer])
  | more {gap text : List Char} {as : List α} (hgap : IsGap gap) (h : Sequence R as text) :
    Remainder R bracket as (gap ++ ',' :: (text ++ [bracket.closer]))

/-- What stands behind an opening bracket, up to the closing one. -/
inductive Enclosed (R : α → List Char → Prop) (bracket : Bracket) :
    List α → List Char → Prop where
  | empty {gap : List Char} (hgap : IsGap gap) : Enclosed R bracket [] (gap ++ [bracket.closer])
  | items {text : List Char} {as : List α} (h : Sequence R as text) :
    Enclosed R bracket as (text ++ [bracket.closer])

theorem IsGap.append {gap more : List Char} (h : IsGap gap) (hmore : IsGap more) :
    IsGap (gap ++ more) := by
  intro c hc
  rcases List.mem_append.mp hc with hc | hc
  · exact h c hc
  · exact hmore c hc

variable {R : α → List Char → Prop} {bracket : Bracket}

/-- An item and what stands behind it are a sequence. -/
theorem Remainder.sequence {as : List α} {tail : List Char} (h : Remainder R bracket as tail)
    {a : α} {before text : List Char} (hbefore : IsGap before) (ha : R a text) :
    ∃ items, before ++ (text ++ tail) = items ++ [bracket.closer] ∧ Sequence R (a :: as) items := by
  cases h with
  | close hgap =>
    refine ⟨_, ?_, .last hbefore ha hgap⟩
    simp only [List.append_assoc]
  | more hgap hitems =>
    refine ⟨_, ?_, .more hbefore ha hgap hitems⟩
    simp only [List.append_assoc, List.cons_append]

theorem Remainder.enclosed {as : List α} {tail : List Char} (h : Remainder R bracket as tail)
    {a : α} {before text : List Char} (hbefore : IsGap before) (ha : R a text) :
    Enclosed R bracket (a :: as) (before ++ (text ++ tail)) := by
  obtain ⟨items, htext, hitems⟩ := h.sequence hbefore ha
  rw [htext]
  exact .items hitems

/-- A comma, an item and what stands behind it stand behind an item. -/
theorem Remainder.comma {as : List α} {tail : List Char} (h : Remainder R bracket as tail) {a : α}
    {gap before text : List Char} (hgap : IsGap gap) (hbefore : IsGap before) (ha : R a text) :
    Remainder R bracket (a :: as) (gap ++ ',' :: (before ++ (text ++ tail))) := by
  obtain ⟨items, htext, hitems⟩ := h.sequence hbefore ha
  rw [htext]
  exact .more hgap hitems

theorem Remainder.gap {as : List α} {tail : List Char} (h : Remainder R bracket as tail)
    {gap : List Char} (hgap : IsGap gap) : Remainder R bracket as (gap ++ tail) := by
  cases h with
  | close hmore =>
    rw [← List.append_assoc]
    exact .close (hgap.append hmore)
  | more hmore hitems =>
    rw [← List.append_assoc]
    exact .more (hgap.append hmore) hitems

theorem isGap_singleton {c : Char} (h : isBlank c = true) : IsGap [c] := by
  intro d hd
  obtain rfl := List.mem_singleton.mp hd
  simpa [isBlank, or_assoc] using h

/-! ### Reading sequences -/

theorem takes_first (bracket : Bracket) : bracket.first.Takes fun found taken =>
    (found = false ∧ ∃ gap, IsGap gap ∧ taken = gap ++ [bracket.closer])
      ∨ found = true ∧ IsGap taken := by
  refine takes_blanks.bind ?_
  intro _ gap hgap
  refine takes_peek? (takes_fail _) ?_
  intro c
  dsimp only
  by_cases hc : c = bracket.closer
  · rw [if_pos hc]
    refine takesFrom_next? (takes_pure (.inl ⟨rfl, gap, hgap, ?_⟩))
    rw [hc]
  · rw [if_neg hc]
    refine Takes.from (takes_pure (.inr ⟨rfl, ?_⟩)) c
    rwa [List.append_nil]

theorem takes_separated (bracket : Bracket) (c : Char) :
    (bracket.separated c).Takes fun found taken =>
    (found = false ∧ c = bracket.closer ∧ taken = []) ∨ found = true ∧ c = ',' ∧ IsGap taken := by
  rw [Bracket.separated]
  by_cases hcloser : c = bracket.closer
  · rw [if_pos hcloser]
    exact takes_pure (.inl ⟨rfl, hcloser, rfl⟩)
  rw [if_neg hcloser]
  by_cases hcomma : c = ','
  · rw [if_pos hcomma]
    refine takes_blanks.bind ?_
    intro _ gap hgap
    refine takes_peek? (takes_fail _) ?_
    intro next
    refine Takes.from ?_ next
    dsimp only
    by_cases hnext : next = bracket.closer
    · rw [if_pos hnext]
      exact takes_failNext _
    · rw [if_neg hnext]
      refine takes_pure (.inr ⟨rfl, hcomma, ?_⟩)
      rwa [List.append_nil]
  · rw [if_neg hcomma]
    exact takes_refuse c _

theorem takes_following (bracket : Bracket) : bracket.following.Takes fun found taken =>
    (found = false ∧ ∃ gap, IsGap gap ∧ taken = gap ++ [bracket.closer])
      ∨ found = true ∧ ∃ gap behind, IsGap gap ∧ IsGap behind ∧ taken = gap ++ ',' :: behind := by
  refine takes_blanks.bind ?_
  intro _ gap hgap
  refine takes_next? (takes_fail _) ?_
  intro c
  refine (takes_separated bracket c).imp ?_
  rintro found taken (⟨rfl, rfl, rfl⟩ | ⟨rfl, rfl, hbehind⟩)
  · exact .inl ⟨rfl, gap, hgap, rfl⟩
  · exact .inr ⟨rfl, gap, taken, hgap, hbehind, rfl⟩

/-- **A sequence that is read is written**, and its items are steps of the state, if each item that
is read is a step. -/
theorem takes_fold {item : σ → Reader σ} {step : σ → α → σ → Prop}
    (hitem : ∀ s, (item s).Takes fun t taken => ∃ a gap text, taken = gap ++ text ∧ IsGap gap
      ∧ R a text ∧ step s a t) (s : σ) :
    (bracket.fold item s).Takes fun t taken =>
      ∃ as, Enclosed R bracket as taken ∧ Steps step s as t := by
  have hloop : ∀ s, (loop (fun _ => bracket.endInside) (bracket.foldStep item) s).Takes
      fun t taken => ∃ as, Remainder R bracket as taken ∧ Steps step s as t := by
    refine takes_loop ?_
    intro s c
    rw [Bracket.foldStep]
    by_cases hblank : isBlank c = true
    · rw [if_pos hblank]
      refine takes_pure ?_
      rintro t more ⟨as, hmore, hsteps⟩
      exact ⟨as, hmore.gap (isGap_singleton hblank), hsteps⟩
    rw [if_neg hblank]
    refine (takes_separated bracket c).bind ?_
    rintro found behind (⟨rfl, rfl, rfl⟩ | ⟨rfl, rfl, hbehind⟩)
    · exact takes_pure ⟨[], .close isGap_nil, .nil s⟩
    · refine (hitem s).map ?_
      rintro t _ ⟨a, gap, text, rfl, hgap, ha, hstep⟩ u more ⟨as, hmore, hsteps⟩
      refine ⟨a :: as, ?_, .cons hstep hsteps⟩
      have hcomma := hmore.comma isGap_nil (hbehind.append hgap) ha
      simpa only [List.nil_append, List.append_assoc] using hcomma
  refine (takes_first bracket).bind ?_
  rintro found before (⟨rfl, gap, hgap, rfl⟩ | ⟨rfl, hbefore⟩)
  · refine takes_pure ⟨[], ?_, .nil s⟩
    rw [List.append_nil]
    exact .empty hgap
  · refine (hitem s).bind ?_
    rintro t _ ⟨a, gap, text, rfl, hgap, ha, hstep⟩
    refine (hloop t).imp ?_
    rintro u tail ⟨as, htail, hsteps⟩
    refine ⟨a :: as, ?_, .cons hstep hsteps⟩
    have henclosed := htail.enclosed (hbefore.append hgap) ha
    simpa only [List.append_assoc] using henclosed

/-! ### Lists -/

/-- Values that were collected in reverse. -/
theorem forall₂_of_steps {M : α → σ → Prop} {before after : List σ} {as : List α}
    (h : Steps (fun s a t => ∃ v, M a v ∧ t = v :: s) before as after) :
    ∃ values, List.Forall₂ M as values ∧ after = values.reverse ++ before := by
  induction h with
  | nil => exact ⟨[], .nil, rfl⟩
  | cons hstep _ ih =>
    obtain ⟨v, hv, rfl⟩ := hstep
    obtain ⟨values, hvalues, rfl⟩ := ih
    refine ⟨v :: values, .cons hv hvalues, ?_⟩
    rw [List.reverse_cons, List.append_assoc, List.singleton_append]

/-- The values of a list are those of its items. -/
theorem takes_readList {item : Reader σ} {M : α → σ → Prop}
    (hitem : item.Takes fun v taken => ∃ a gap text, taken = gap ++ text ∧ IsGap gap ∧ R a text
      ∧ M a v) :
    (readList item).Takes fun values taken =>
      ∃ as, Enclosed R .square as taken ∧ List.Forall₂ M as values := by
  have hstep (before : List σ) : (do return (← item) :: before : Reader (List σ)).Takes
      fun after taken => ∃ a gap text, taken = gap ++ text ∧ IsGap gap ∧ R a text
        ∧ ∃ v, M a v ∧ after = v :: before := by
    refine hitem.map ?_
    rintro v taken ⟨a, gap, text, htaken, hgap, ha, hv⟩
    exact ⟨a, gap, text, htaken, hgap, ha, v, hv, rfl⟩
  have hfold : (Bracket.square.fold (fun before => return (← item) :: before) []).Takes
      fun after taken => ∃ as, Enclosed R .square as taken
        ∧ Steps (fun before a after => ∃ v, M a v ∧ after = v :: before) [] as after :=
    takes_fold hstep []
  refine hfold.map ?_
  rintro reversed taken ⟨as, has, hsteps⟩
  refine ⟨as, has, ?_⟩
  obtain ⟨values, hvalues, rfl⟩ := forall₂_of_steps hsteps
  rwa [List.append_nil, List.reverse_reverse]

end CallGraph.Json
