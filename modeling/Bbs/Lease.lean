import Mathlib.Data.List.Basic

/-!
A lease on one resource.

Nobody holds it, or a holder has claimed it, or a holder is running on it. The
rules say who may do what: a claim may be overridden by anyone who runs, but a
running holder gives the lease up only by its own deed or by a deletion. The two
results follow a lease along any number of deeds.
-/

namespace Bbs.Lease

variable {κ : Type}

inductive Holder (κ : Type) where
  | nobody
  | claimed (by' : κ)
  | running (by' : κ)

inductive Deed (κ : Type) where
  | idle
  | claim (k : κ)
  | start (k : κ)
  | crash (k : κ)
  | delete

/-- The rules of the lease. -/
inductive Step : Holder κ → Deed κ → Holder κ → Prop where
  | idle (h : Holder κ) : Step h .idle h
  | claim (k : κ) : Step .nobody (.claim k) (.claimed k)
  | start (k : κ) : Step .nobody (.start k) (.running k)
  | override (j k : κ) : Step (.claimed j) (.start k) (.running k)
  | revert (k : κ) : Step (.running k) (.claim k) (.claimed k)
  | crashClaimed (k : κ) : Step (.claimed k) (.crash k) .nobody
  | crashRunning (k : κ) : Step (.running k) (.crash k) .nobody
  | delete (h : Holder κ) : Step h .delete .nobody

/-- Deeds in a row. -/
inductive Path : Holder κ → List (Deed κ) → Holder κ → Prop where
  | nil (h : Holder κ) : Path h [] h
  | cons {h h' h'' : Holder κ} {d : Deed κ} {deeds : List (Deed κ)} :
      Step h d h' → Path h' deeds h'' → Path h (d :: deeds) h''

/-- The deeds by which a running holder gives up. -/
def Yields (k : κ) (d : Deed κ) : Prop :=
  d = .claim k ∨ d = .crash k ∨ d = .delete

/-- The deeds by which a claim ends. -/
def Ends (k : κ) (d : Deed κ) : Prop :=
  (∃ j, d = .start j) ∨ d = .crash k ∨ d = .delete

/-- A holder that is running stays until it gives up or the resource is deleted. -/
theorem Path.running_or_yields {k : κ} {deeds : List (Deed κ)} {h : Holder κ}
    (path : Path (.running k) deeds h) : h = .running k ∨ ∃ d ∈ deeds, Yields k d := by
  induction deeds with
  | nil =>
      cases path
      exact .inl rfl
  | cons d deeds ih =>
      cases path with
      | cons step rest =>
          cases step with
          | idle =>
              rcases ih rest with same | ⟨d, hd, yields⟩
              · exact .inl same
              · exact .inr ⟨d, List.mem_cons_of_mem _ hd, yields⟩
          | revert => exact .inr ⟨_, List.mem_cons_self, .inl rfl⟩
          | crashRunning => exact .inr ⟨_, List.mem_cons_self, .inr (.inl rfl)⟩
          | delete => exact .inr ⟨_, List.mem_cons_self, .inr (.inr rfl)⟩

/-- A claim stays until somebody runs, its holder crashes or the resource is
deleted. -/
theorem Path.claimed_or_ends {k : κ} {deeds : List (Deed κ)} {h : Holder κ}
    (path : Path (.claimed k) deeds h) : h = .claimed k ∨ ∃ d ∈ deeds, Ends k d := by
  induction deeds with
  | nil =>
      cases path
      exact .inl rfl
  | cons d deeds ih =>
      cases path with
      | cons step rest =>
          cases step with
          | idle =>
              rcases ih rest with same | ⟨d, hd, ends⟩
              · exact .inl same
              · exact .inr ⟨d, List.mem_cons_of_mem _ hd, ends⟩
          | override _ j => exact .inr ⟨_, List.mem_cons_self, .inl ⟨j, rfl⟩⟩
          | crashClaimed => exact .inr ⟨_, List.mem_cons_self, .inr (.inl rfl)⟩
          | delete => exact .inr ⟨_, List.mem_cons_self, .inr (.inr rfl)⟩

end Bbs.Lease
