import Mathlib.Data.List.Basic
import Mathlib.Logic.Function.Iterate

/-!
Stamps: an epoch and a counter within it.

A sequence of stamps is kept well when each stamp after the first continues the one
before, in the same epoch with the next counter, or opens an epoch that was not used
before, with the counter at zero. An epoch is then never returned to. So two stamps
of one epoch are as many counts apart as they are places apart (`Stamped.iterate`),
and the stamps of one epoch count up from the first of them (`Stamped.counters`).
-/

namespace Bbs.Stamps

variable {E N : Type} {zero : N} {next : N → N} {l : List (E × N)}

inductive Stamped (zero : N) (next : N → N) : List (E × N) → Prop where
  | nil : Stamped zero next []
  | start (s : E × N) : Stamped zero next [s]
  | onward {l : List (E × N)} {s : E × N} :
      Stamped zero next (l ++ [s]) → Stamped zero next ((l ++ [s]) ++ [(s.1, next s.2)])
  | fresh {l : List (E × N)} {e : E} :
      Stamped zero next l → (∀ s ∈ l, s.1 ≠ e) → Stamped zero next (l ++ [(e, zero)])

theorem getElem?_snoc {α : Type} {l : List α} {x y : α} {i : Nat} (h : (l ++ [x])[i]? = some y) :
    l[i]? = some y ∨ i = l.length ∧ y = x := by
  rcases Nat.lt_trichotomy i l.length with early | rfl | late
  · rw [List.getElem?_append_left early] at h
    exact .inl h
  · simp only [List.getElem?_concat_length, Option.some.injEq] at h
    exact .inr ⟨rfl, h.symm⟩
  · rw [List.getElem?_eq_none (by simp; omega)] at h
    cases h

/-- Two stamps of one epoch are as many counts apart as places. -/
theorem Stamped.iterate (h : Stamped zero next l) {i j : Nat} (lt : i < j) {s t : E × N}
    (hs : l[i]? = some s) (ht : l[j]? = some t) (same : s.1 = t.1) : t.2 = next^[j - i] s.2 := by
  have early {l : List (E × N)} {i : Nat} {s : E × N} (h : l[i]? = some s) : i < l.length :=
    (List.getElem?_eq_some_iff.mp h).1
  induction h generalizing i j s t with
  | nil => simp at ht
  | start r =>
      have := early ht
      simp only [List.length_singleton] at this
      omega
  | @onward l r _ ih =>
      rcases getElem?_snoc ht with ht | ⟨rfl, rfl⟩
      · rw [List.getElem?_append_left (by have := early ht; omega)] at hs
        exact ih lt hs ht same
      · -- the stamp that was just added follows `r`, the last one so far
        rw [List.getElem?_append_left lt] at hs
        have last : (l ++ [r])[l.length]? = some r := List.getElem?_concat_length
        simp only [List.length_append, List.length_singleton] at lt ⊢
        rcases Nat.lt_or_ge i l.length with before | here
        · rw [ih before hs last same, ← Function.iterate_succ_apply' next]
          congr 1
          omega
        · obtain rfl : i = l.length := by omega
          obtain rfl : r = s := Option.some.inj (last.symm.trans hs)
          simp
  | @fresh l e _ new ih =>
      rcases getElem?_snoc ht with ht | ⟨rfl, rfl⟩
      · rw [List.getElem?_append_left (by have := early ht; omega)] at hs
        exact ih lt hs ht same
      · rw [List.getElem?_append_left lt] at hs
        exact absurd same (new s (List.mem_of_getElem? hs))

/-- The counters of one epoch count up from the first. -/
theorem Stamped.counters [DecidableEq E] (h : Stamped zero next l) (e : E) :
    ∃ first, (l.filter fun s => s.1 = e).map Prod.snd =
      (List.range (l.filter fun s => s.1 = e).length).map fun k => next^[k] first := by
  induction h with
  | nil => exact ⟨zero, rfl⟩
  | start s =>
      refine ⟨s.2, ?_⟩
      by_cases own : s.1 = e
      · simp [own]
      · simp [own]
  | @onward l r _ ih =>
      obtain ⟨first, ih⟩ := ih
      refine ⟨first, ?_⟩
      by_cases own : r.1 = e
      · have whole : ((l ++ [r]) ++ [(r.1, next r.2)]).filter (fun s => s.1 = e) =
            (l.filter fun s => s.1 = e) ++ [r] ++ [(r.1, next r.2)] := by
          simp [own]
        have part : (l ++ [r]).filter (fun s => s.1 = e) = (l.filter fun s => s.1 = e) ++ [r] := by
          simp [own]
        rw [part, List.map_append, List.length_append, List.length_singleton, List.range_succ,
          List.map_append] at ih
        have last : r.2 = next^[(l.filter fun s => s.1 = e).length] first := by
          simpa using (List.append_inj' ih rfl).2
        rw [whole, List.map_append, List.map_append, ih, List.length_append, List.length_append,
          List.length_singleton, List.length_singleton, List.range_succ, List.range_succ,
          List.map_append, List.map_append]
        simp [last, Function.iterate_succ_apply']
      · have same : ((l ++ [r]) ++ [(r.1, next r.2)]).filter (fun s => s.1 = e) =
            (l ++ [r]).filter (fun s => s.1 = e) := by
          simp [own]
        rw [same]
        exact ih
  | @fresh l e' _ new ih =>
      by_cases own : e' = e
      · subst own
        have none_before : l.filter (fun s => s.1 = e') = [] :=
          List.filter_eq_nil_iff.mpr fun s hs => by simpa using new s hs
        refine ⟨zero, ?_⟩
        rw [List.filter_append, none_before]
        simp
      · obtain ⟨first, ih⟩ := ih
        refine ⟨first, ?_⟩
        have same : (l ++ [(e', zero)]).filter (fun s => s.1 = e) = l.filter (fun s => s.1 = e) := by
          simp [own]
        rw [same]
        exact ih

end Bbs.Stamps
