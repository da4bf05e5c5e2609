import Mathlib.Data.List.Induction

/-!
Runs of a labelled step relation.

`Trace step s labels s'` records what happened on the way from `s` to `s'`, in
order. A trace grows at its end, so a fact about the past and the present of a run
is shown by saying what one more step does to it (`Trace.history`); a fact about
the present alone is the case where the past is not looked at (`Trace.invariant`).
-/

namespace Bbs.Interaction

variable {S L : Type}

inductive Trace (step : S → L → S → Prop) (s : S) : List L → S → Prop where
  | nil : Trace step s [] s
  | snoc {labels : List L} {middle s' : S} {x : L} :
      Trace step s labels middle → step middle x s' → Trace step s (labels ++ [x]) s'

namespace Trace

variable {step : S → L → S → Prop} {s middle s' : S} {labels l m : List L} {x : L}

theorem nil_iff : Trace step s [] s' ↔ s = s' := by
  constructor
  · intro trace
    generalize none : ([] : List L) = labels at trace
    cases trace with
    | nil => rfl
    | snoc => simp at none
  · rintro rfl
    exact .nil

theorem snoc_iff :
    Trace step s (labels ++ [x]) s' ↔ ∃ middle, Trace step s labels middle ∧ step middle x s' := by
  constructor
  · intro trace
    generalize whole : labels ++ [x] = all at trace
    cases trace with
    | nil => simp at whole
    | snoc past now =>
        obtain ⟨rfl, last⟩ := List.append_inj' whole rfl
        obtain rfl := List.singleton_inj.mp last
        exact ⟨_, past, now⟩
  · rintro ⟨middle, past, now⟩
    exact .snoc past now

/-- What holds at the start and is kept by every step holds along the whole run, where
both the labels so far and the state reached may be spoken of. -/
theorem history {J : List L → S → Prop} (trace : Trace step s labels s') (start : J [] s)
    (keeps : ∀ labels middle x s', Trace step s labels middle → J labels middle →
      step middle x s' → J (labels ++ [x]) s') : J labels s' := by
  induction trace with
  | nil => exact start
  | snoc past now ih => exact keeps _ _ _ _ past ih now

theorem invariant {I : S → Prop} (trace : Trace step s labels s') (start : I s)
    (keeps : ∀ middle x s', I middle → step middle x s' → I s') : I s' :=
  trace.history (J := fun _ state => I state) start fun _ _ _ _ _ here now => keeps _ _ _ here now

theorem mono {step' : S → L → S → Prop} (trace : Trace step s labels s')
    (weaker : ∀ s x s', step s x s' → step' s x s') : Trace step' s labels s' := by
  induction trace with
  | nil => exact .nil
  | snoc _ now ih => exact .snoc ih (weaker _ _ _ now)

theorem append (first : Trace step s l middle) (second : Trace step middle m s') :
    Trace step s (l ++ m) s' := by
  induction second with
  | nil => rwa [List.append_nil]
  | snoc _ now ih =>
      rw [← List.append_assoc]
      exact .snoc ih now

/-- Runs that end in a state with a given property, built from the front. -/
theorem exists_cons {P : S → Prop} (now : step s x middle)
    (rest : ∃ s', Trace step middle labels s' ∧ P s') : ∃ s', Trace step s (x :: labels) s' ∧ P s' := by
  obtain ⟨s', rest, holds⟩ := rest
  exact ⟨s', append (.snoc .nil now) rest, holds⟩

theorem exists_nil {P : S → Prop} (holds : P s) : ∃ s', Trace step s [] s' ∧ P s' :=
  ⟨s, .nil, holds⟩

/-- A run can be cut at any point. -/
theorem split (trace : Trace step s (l ++ m) s') :
    ∃ middle, Trace step s l middle ∧ Trace step middle m s' := by
  induction m using List.reverseRecOn generalizing s' with
  | nil =>
      rw [List.append_nil] at trace
      exact ⟨s', trace, .nil⟩
  | append_singleton m x ih =>
      rw [← List.append_assoc] at trace
      obtain ⟨before, past, now⟩ := snoc_iff.mp trace
      obtain ⟨middle, first, second⟩ := ih past
      exact ⟨middle, first, .snoc second now⟩

/-- A run can be cut around any of its steps. -/
theorem around (trace : Trace step s (l ++ x :: m) s') :
    ∃ before after, Trace step s l before ∧ step before x after ∧ Trace step after m s' := by
  obtain ⟨before, first, rest⟩ := trace.split
  rw [← List.singleton_append] at rest
  obtain ⟨after, one, last⟩ := rest.split
  obtain ⟨start, none, now⟩ := snoc_iff.mp (show Trace step before ([] ++ [x]) after from one)
  obtain rfl := nil_iff.mp none
  exact ⟨before, after, first, now, last⟩

end Trace

end Bbs.Interaction
