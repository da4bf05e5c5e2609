import Mathlib.Order.Defs.PartialOrder
import Mathlib.Logic.Function.Basic

/-!
A key-value store that stamps every change with a fresh index.

Each key holds at most one node, and each node carries the index of the change
that wrote it. A `Store` carries the two facts that make such stamps usable as
versions: no node is newer than the store, and no two keys share a stamp. The
preorder on stores says what a later store may look like, seen from an earlier
one: whatever it holds that is not newer than the earlier store was already
there. `Store.eq_of_version` is the consequence that compare-and-swap lives on:
finding the stamp again means finding the node again, also when the key was
deleted and written anew in between.
-/

namespace Bbs.Versioned

/-- A stored value with the index of the change that wrote it. -/
structure Node (V : Type) where
  value : V
  modifiedIndex : Nat
  deriving DecidableEq

structure Store (K V : Type) where
  index : Nat
  nodes : K → Option (Node V)
  bounded : ∀ k n, nodes k = some n → n.modifiedIndex ≤ index
  distinct : ∀ k l n m, nodes k = some n → nodes l = some m →
    n.modifiedIndex = m.modifiedIndex → k = l

namespace Store

variable {K V : Type}

/-- The store before anything was written. -/
def empty : Store K V where
  index := 0
  nodes := fun _ => none
  bounded := fun _ _ h => nomatch h
  distinct := fun _ _ _ _ h => nomatch h

@[simp] theorem empty_nodes (k : K) : (empty : Store K V).nodes k = none := rfl

variable [DecidableEq K]

/-- Put `v` at `k`, whatever was there. -/
def write (σ : Store K V) (k : K) (v : V) : Store K V where
  index := σ.index + 1
  nodes := Function.update σ.nodes k (some ⟨v, σ.index + 1⟩)
  bounded := by
    intro l n h
    by_cases hl : l = k
    · subst hl
      rw [Function.update_self] at h
      cases h
      exact Nat.le_refl _
    · rw [Function.update_of_ne hl] at h
      exact Nat.le_succ_of_le (σ.bounded l n h)
  distinct := by
    intro l m n n' hl hm same
    by_cases hlk : l = k
    · by_cases hmk : m = k
      · rw [hlk, hmk]
      · subst hlk
        rw [Function.update_self] at hl
        rw [Function.update_of_ne hmk] at hm
        cases hl
        have := σ.bounded m n' hm
        simp only at same
        omega
    · rw [Function.update_of_ne hlk] at hl
      by_cases hmk : m = k
      · subst hmk
        rw [Function.update_self] at hm
        cases hm
        have := σ.bounded l n hl
        simp only at same
        omega
      · rw [Function.update_of_ne hmk] at hm
        exact σ.distinct l m n n' hl hm same

/-- Take away what is at `k`. A deletion is a change and uses up an index too. -/
def erase (σ : Store K V) (k : K) : Store K V where
  index := σ.index + 1
  nodes := Function.update σ.nodes k none
  bounded := by
    intro l n h
    by_cases hl : l = k
    · subst hl
      simp at h
    · rw [Function.update_of_ne hl] at h
      exact Nat.le_succ_of_le (σ.bounded l n h)
  distinct := by
    intro l m n n' hl hm same
    have hlk : l ≠ k := fun h => by subst h; simp at hl
    have hmk : m ≠ k := fun h => by subst h; simp at hm
    rw [Function.update_of_ne hlk] at hl
    rw [Function.update_of_ne hmk] at hm
    exact σ.distinct l m n n' hl hm same

@[simp] theorem write_nodes_self (σ : Store K V) (k : K) (v : V) :
    (σ.write k v).nodes k = some ⟨v, σ.index + 1⟩ := by
  simp [write]

@[simp] theorem write_nodes_of_ne (σ : Store K V) {k l : K} (h : l ≠ k) (v : V) :
    (σ.write k v).nodes l = σ.nodes l := by
  simp [write, h]

@[simp] theorem erase_nodes_self (σ : Store K V) (k : K) : (σ.erase k).nodes k = none := by
  simp [erase]

@[simp] theorem erase_nodes_of_ne (σ : Store K V) {k l : K} (h : l ≠ k) :
    (σ.erase k).nodes l = σ.nodes l := by
  simp [erase, h]

/-! ### Later stores -/

omit [DecidableEq K] in
/-- `σ ≤ τ`: everything in `τ` that is not newer than `σ` was already in `σ`. -/
instance : Preorder (Store K V) where
  le σ τ := σ.index ≤ τ.index ∧
    ∀ k n, τ.nodes k = some n → n.modifiedIndex ≤ σ.index → σ.nodes k = some n
  le_refl σ := ⟨Nat.le_refl _, fun _ _ h _ => h⟩
  le_trans σ τ υ first second := by
    refine ⟨Nat.le_trans first.1 second.1, fun k n hn old => ?_⟩
    exact first.2 k n (second.2 k n hn (Nat.le_trans old first.1)) old

theorem le_write (σ : Store K V) (k : K) (v : V) : σ ≤ σ.write k v := by
  refine ⟨Nat.le_succ _, fun l n hn old => ?_⟩
  by_cases hl : l = k
  · subst hl
    rw [write_nodes_self] at hn
    cases hn
    exact absurd old (Nat.not_succ_le_self _)
  · rwa [write_nodes_of_ne σ hl] at hn

theorem le_erase (σ : Store K V) (k : K) : σ ≤ σ.erase k := by
  refine ⟨Nat.le_succ _, fun l n hn _ => ?_⟩
  by_cases hl : l = k
  · subst hl
    simp at hn
  · rwa [erase_nodes_of_ne σ hl] at hn

omit [DecidableEq K] in
/-- **A version seen again is the same node.** If a later store holds, under any
key, a node with the stamp of a node seen earlier, then it is that node under
that key. -/
theorem eq_of_version {σ τ : Store K V} (later : σ ≤ τ) {k l : K} {n m : Node V}
    (seen : σ.nodes k = some n) (found : τ.nodes l = some m)
    (same : m.modifiedIndex = n.modifiedIndex) : l = k ∧ m = n := by
  have old : m.modifiedIndex ≤ σ.index := same ▸ σ.bounded k n seen
  have back : σ.nodes l = some m := later.2 l m found old
  have key : l = k := σ.distinct l k m n back seen same
  subst key
  rw [seen] at back
  exact ⟨rfl, (Option.some.inj back).symm⟩

/-- Once a key has been written again, the node it had never comes back. -/
theorem nodes_ne_of_write {σ τ υ : Store K V} {k : K} {n : Node V} {v : V}
    (seen : σ.nodes k = some n) (before : σ ≤ τ) (after : τ.write k v ≤ υ) :
    υ.nodes k ≠ some n := by
  intro still
  have old : n.modifiedIndex ≤ τ.index := Nat.le_trans (σ.bounded k n seen) before.1
  have back := after.2 k n still (Nat.le_succ_of_le old)
  rw [write_nodes_self] at back
  cases back
  exact absurd old (Nat.not_succ_le_self _)

end Store

end Bbs.Versioned
