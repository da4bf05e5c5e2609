import Mathlib.Logic.Basic
import Mathlib.Data.List.Basic

/-!
Programs that talk to an environment, one call at a time.

A `Program C A α` has returned an `α`, or is about to make a call `c : C` and
continues with whatever answer of type `A c` it gets. Nothing here says what a
call means; that is the business of an `Environment`, a relation between the
state before a call, the call, its answer and the state after it.

* `Plays p l q`: given the answers recorded in `l`, program `p` makes exactly the
  calls of `l` and continues as `q`. It mentions no state, so one analysis of a
  program's plays serves the uninterrupted and the interleaved reading alike.
* `Traverses env s l s'`: the environment answers `l` from `s` to `s'` with
  nothing in between.
* `Executes`: an uninterrupted execution, that is both of them together.
-/

namespace Bbs.Interaction

/-- A program over the calls `C`, where call `c` is answered by an `A c`. -/
inductive Program (C : Type) (A : C → Type) (α : Type) where
  | ret : α → Program C A α
  | call : (c : C) → (A c → Program C A α) → Program C A α

variable {C : Type} {A : C → Type} {α β : Type}

namespace Program

protected def bind : Program C A α → (α → Program C A β) → Program C A β
  | .ret a, f => f a
  | .call c k, f => .call c fun answer => (k answer).bind f

instance : Monad (Program C A) where
  pure := .ret
  bind := Program.bind

@[simp] theorem pure_eq_ret (a : α) : (pure a : Program C A α) = .ret a := rfl

@[simp] theorem ret_bind (a : α) (f : α → Program C A β) : (Program.ret a >>= f) = f a := rfl

@[simp] theorem call_bind (c : C) (k : A c → Program C A α) (f : α → Program C A β) :
    (Program.call c k >>= f) = .call c fun answer => k answer >>= f := rfl

theorem bind_assoc {γ : Type} (p : Program C A α) (f : α → Program C A β)
    (g : β → Program C A γ) : (p >>= f) >>= g = p >>= fun a => f a >>= g := by
  induction p with
  | ret a => rfl
  | call c k ih =>
      rw [call_bind, call_bind, call_bind]
      congr 1
      funext answer
      exact ih answer

end Program

/-! ### Plays -/

/-- One call together with the answer it got. -/
structure Exchange (C : Type) (A : C → Type) where
  call : C
  answer : A call

/-- `Plays p l q`: program `p`, answered as `l` records, makes the calls of `l`
and continues as `q`. -/
inductive Plays : Program C A α → List (Exchange C A) → Program C A α → Prop where
  | nil (p : Program C A α) : Plays p [] p
  | cons {c : C} {k : A c → Program C A α} {answer : A c} {l : List (Exchange C A)}
      {q : Program C A α} : Plays (k answer) l q → Plays (.call c k) (⟨c, answer⟩ :: l) q

/-- A play that runs to the end. -/
abbrev Returns (p : Program C A α) (l : List (Exchange C A)) (a : α) : Prop :=
  Plays p l (.ret a)

namespace Plays

theorem ret_iff {a : α} {l : List (Exchange C A)} {q : Program C A α} :
    Plays (.ret a) l q ↔ l = [] ∧ q = .ret a := by
  constructor
  · intro h
    cases h
    exact ⟨rfl, rfl⟩
  · rintro ⟨rfl, rfl⟩
    exact .nil _

/-- Without calls nothing has happened. -/
theorem nil_iff {p q : Program C A α} : Plays p [] q ↔ p = q := by
  constructor
  · intro h
    cases h
    rfl
  · rintro rfl
    exact .nil _

theorem append {p q r : Program C A α} {l m : List (Exchange C A)}
    (first : Plays p l q) (second : Plays q m r) : Plays p (l ++ m) r := by
  induction first with
  | nil p => exact second
  | cons _ ih => exact .cons (ih second)

/-- Before its last call, a program was about to make it. -/
theorem pending {p q : Program C A α} {l : List (Exchange C A)} {x : Exchange C A}
    (h : Plays p (l ++ [x]) q) : ∃ k, Plays p l (.call x.call k) := by
  induction l generalizing p with
  | nil =>
      cases h with
      | cons rest => exact ⟨_, .nil _⟩
  | cons y l ih =>
      cases h with
      | cons rest =>
          obtain ⟨k, h'⟩ := ih rest
          exact ⟨k, .cons h'⟩

/-- A program makes its last call whatever the answer to it will be. -/
theorem reanswer {p q : Program C A α} {l : List (Exchange C A)} {x : Exchange C A}
    (h : Plays p (l ++ [x]) q) (answer : A x.call) : ∃ q', Plays p (l ++ [⟨x.call, answer⟩]) q' := by
  induction l generalizing p with
  | nil =>
      cases h with
      | cons rest => exact ⟨_, .cons (.nil _)⟩
  | cons y l ih =>
      cases h with
      | cons rest =>
          obtain ⟨q', h'⟩ := ih rest
          exact ⟨q', .cons h'⟩

end Plays

namespace Returns

@[simp] theorem ret_iff {a b : α} {l : List (Exchange C A)} :
    Returns (.ret a) l b ↔ l = [] ∧ a = b := by
  rw [Returns, Plays.ret_iff]
  constructor
  · rintro ⟨rfl, h⟩
    cases h
    exact ⟨rfl, rfl⟩
  · rintro ⟨rfl, rfl⟩
    exact ⟨rfl, rfl⟩

@[simp] theorem call_iff {c : C} {k : A c → Program C A α} {l : List (Exchange C A)} {a : α} :
    Returns (.call c k) l a ↔
      ∃ answer rest, l = ⟨c, answer⟩ :: rest ∧ Returns (k answer) rest a := by
  constructor
  · intro h
    cases h with
    | cons rest => exact ⟨_, _, rfl, rest⟩
  · rintro ⟨answer, rest, rfl, h⟩
    exact .cons h

theorem bind_iff {p : Program C A α} {f : α → Program C A β} {l : List (Exchange C A)} {b : β} :
    Returns (p >>= f) l b ↔
      ∃ first second a, l = first ++ second ∧ Returns p first a ∧ Returns (f a) second b := by
  induction p generalizing l with
  | ret a => simp
  | call c k ih =>
      simp only [Program.call_bind, call_iff, ih]
      constructor
      · rintro ⟨answer, rest, rfl, first, second, a, rfl, hp, hf⟩
        exact ⟨⟨c, answer⟩ :: first, second, a, rfl, ⟨answer, first, rfl, hp⟩, hf⟩
      · rintro ⟨_, second, a, rfl, ⟨answer, first, rfl, hp⟩, hf⟩
        exact ⟨answer, first ++ second, rfl, first, second, a, rfl, hp, hf⟩

theorem map_iff {p : Program C A α} {f : α → β} {l : List (Exchange C A)} {b : β} :
    Returns (p >>= fun a => pure (f a)) l b ↔ ∃ a, Returns p l a ∧ f a = b := by
  rw [bind_iff]
  constructor
  · rintro ⟨first, second, a, rfl, hp, hf⟩
    obtain ⟨rfl, rfl⟩ := ret_iff.mp hf
    exact ⟨a, by rwa [List.append_nil], rfl⟩
  · rintro ⟨a, hp, rfl⟩
    exact ⟨l, [], a, (List.append_nil l).symm, hp, .nil _⟩

/-- What a program returns is settled by the answers it got. -/
theorem unique {p : Program C A α} {l : List (Exchange C A)} {a b : α}
    (first : Returns p l a) (second : Returns p l b) : a = b := by
  induction p generalizing l with
  | ret c =>
      obtain ⟨-, rfl⟩ := ret_iff.mp first
      exact (ret_iff.mp second).2
  | call c k ih =>
      obtain ⟨answer, rest, rfl, returns⟩ := call_iff.mp first
      obtain ⟨answer', rest', same, returns'⟩ := call_iff.mp second
      cases same
      exact ih answer returns returns'

end Returns

/-! ### Which calls a program makes -/

/-- Every call that the program can come to make meets `P`. -/
def Program.Calls (P : C → Prop) : Program C A α → Prop
  | .ret _ => True
  | .call c k => P c ∧ ∀ answer, (k answer).Calls P

theorem Program.Calls.bind {P : C → Prop} {p : Program C A α} {f : α → Program C A β}
    (first : p.Calls P) (second : ∀ a, (f a).Calls P) : (p >>= f).Calls P := by
  induction p with
  | ret a => exact second a
  | call c k ih => exact ⟨first.1, fun answer => ih answer (first.2 answer)⟩

theorem Program.Calls.mono {P Q : C → Prop} {p : Program C A α} (calls : p.Calls P)
    (weaker : ∀ c, P c → Q c) : p.Calls Q := by
  induction p with
  | ret a => trivial
  | call c k ih => exact ⟨weaker c calls.1, fun answer => ih answer (calls.2 answer)⟩

theorem Program.Calls.of_plays {P : C → Prop} {p q : Program C A α} {l : List (Exchange C A)}
    (calls : p.Calls P) (h : Plays p l q) : ∀ x ∈ l, P x.call := by
  induction h with
  | nil p =>
      intro x hx
      cases hx
  | cons _ ih =>
      intro x hx
      rcases List.mem_cons.mp hx with rfl | hx
      · exact calls.1
      · exact ih (calls.2 _) x hx

/-- Whatever the answers are, the result meets `Q`. -/
def Program.Yields (Q : α → Prop) : Program C A α → Prop
  | .ret a => Q a
  | .call _ k => ∀ answer, (k answer).Yields Q

theorem Program.yields_true (p : Program C A α) : p.Yields fun _ => True := by
  induction p with
  | ret a => trivial
  | call c k ih => exact ih

theorem Program.Yields.bind {Q : α → Prop} {R : β → Prop} {p : Program C A α}
    {f : α → Program C A β} (first : p.Yields Q) (second : ∀ a, Q a → (f a).Yields R) :
    (p >>= f).Yields R := by
  induction p with
  | ret a => exact second a first
  | call c k ih => exact fun answer => ih answer (first answer)

theorem Program.Yields.of_returns {Q : α → Prop} {p : Program C A α} {l : List (Exchange C A)}
    {a : α} (yields : p.Yields Q) (returns : Returns p l a) : Q a := by
  induction p generalizing l with
  | ret b =>
      obtain ⟨-, rfl⟩ := Returns.ret_iff.mp returns
      exact yields
  | call c k ih =>
      obtain ⟨answer, rest, -, returns⟩ := Returns.call_iff.mp returns
      exact ih answer (yields answer) returns

/-- When every call has some answer, a play can be continued to the end. -/
theorem Plays.extends [∀ c, Nonempty (A c)] {p q : Program C A α} {l : List (Exchange C A)}
    (h : Plays p l q) : ∃ rest a, Returns p (l ++ rest) a := by
  have finish : ∃ rest a, Returns q rest a := by
    clear h
    induction q with
    | ret a => exact ⟨[], a, .nil _⟩
    | call c k ih =>
        obtain ⟨answer⟩ := (inferInstance : Nonempty (A c))
        obtain ⟨rest, a, h⟩ := ih answer
        exact ⟨⟨c, answer⟩ :: rest, a, .cons h⟩
  obtain ⟨rest, a, hq⟩ := finish
  exact ⟨rest, a, h.append hq⟩

/-! ### Programs that are stopped -/

/-- The program, but where it would make a call that is barred it ends with `r` instead. -/
def Program.barring (barred : C → Bool) (r : α) : Program C A α → Program C A α
  | .ret a => .ret a
  | .call c k => if barred c then .ret r else .call c fun answer => (k answer).barring barred r

/-- It has come to its own end, or it stood before the first barred call. -/
theorem Returns.barring_iff {barred : C → Bool} {r a : α} {p : Program C A α}
    {l : List (Exchange C A)} :
    Returns (p.barring barred r) l a ↔ (∀ x ∈ l, barred x.call = false) ∧
      (Returns p l a ∨ a = r ∧ ∃ c k, Plays p l (.call c k) ∧ barred c = true) := by
  induction p generalizing l with
  | ret b =>
      rw [Program.barring, ret_iff]
      constructor
      · rintro ⟨rfl, rfl⟩
        exact ⟨by simp, .inl ⟨rfl, rfl⟩⟩
      · rintro ⟨-, returns | ⟨-, c, k, plays, -⟩⟩
        · exact returns
        · cases plays
  | call c k ih =>
      rw [Program.barring]
      cases bar : barred c with
      | true =>
          rw [if_pos rfl, ret_iff]
          constructor
          · rintro ⟨rfl, rfl⟩
            exact ⟨by simp, .inr ⟨rfl, c, k, .nil _, bar⟩⟩
          · rintro ⟨free, returns | ⟨rfl, c', k', plays, -⟩⟩
            · obtain ⟨answer, rest, rfl, -⟩ := call_iff.mp returns
              rw [free _ List.mem_cons_self] at bar
              cases bar
            · cases plays with
              | nil => exact ⟨rfl, rfl⟩
              | cons =>
                  rw [free _ List.mem_cons_self] at bar
                  cases bar
      | false =>
          rw [if_neg (by simp), call_iff]
          constructor
          · rintro ⟨answer, rest, rfl, returns⟩
            obtain ⟨free, ends⟩ := (ih answer).mp returns
            refine ⟨List.forall_mem_cons.mpr ⟨bar, free⟩, ends.imp .cons ?_⟩
            rintro ⟨rfl, c', k', plays, bar'⟩
            exact ⟨rfl, c', k', .cons plays, bar'⟩
          · rintro ⟨free, returns | ⟨rfl, c', k', plays, bar'⟩⟩
            · obtain ⟨answer, rest, rfl, later⟩ := call_iff.mp returns
              exact ⟨answer, rest, rfl,
                (ih answer).mpr ⟨(List.forall_mem_cons.mp free).2, .inl later⟩⟩
            · cases plays with
              | nil =>
                  rw [bar] at bar'
                  cases bar'
              | @cons _ _ answer rest _ plays =>
                  exact ⟨answer, rest, rfl, (ih answer).mpr
                    ⟨(List.forall_mem_cons.mp free).2, .inr ⟨rfl, c', k', plays, bar'⟩⟩⟩

/-! ### Uninterrupted execution -/

/-- How an environment answers: `env s c answer s'` says that in state `s` the
call `c` may be answered by `answer`, leaving state `s'`. -/
abbrev Environment (S C : Type) (A : C → Type) : Type :=
  S → (c : C) → A c → S → Prop

section Execution

variable {S : Type} {env : Environment S C A}

/-- The environment answers the exchanges of `l` one after the other. -/
inductive Traverses (env : Environment S C A) : S → List (Exchange C A) → S → Prop where
  | nil (s : S) : Traverses env s [] s
  | cons {s middle s' : S} {x : Exchange C A} {l : List (Exchange C A)} :
      env s x.call x.answer middle → Traverses env middle l s' → Traverses env s (x :: l) s'

namespace Traverses

@[simp] theorem nil_iff {s s' : S} : Traverses env s [] s' ↔ s = s' := by
  constructor
  · intro h
    cases h
    rfl
  · rintro rfl
    exact .nil _

@[simp] theorem cons_iff {s s' : S} {x : Exchange C A} {l : List (Exchange C A)} :
    Traverses env s (x :: l) s' ↔
      ∃ middle, env s x.call x.answer middle ∧ Traverses env middle l s' := by
  constructor
  · intro h
    cases h with
    | cons step rest => exact ⟨_, step, rest⟩
  · rintro ⟨middle, step, rest⟩
    exact .cons step rest

@[simp] theorem append_iff {s s' : S} {l m : List (Exchange C A)} :
    Traverses env s (l ++ m) s' ↔
      ∃ middle, Traverses env s l middle ∧ Traverses env middle m s' := by
  induction l generalizing s with
  | nil => simp
  | cons x l ih =>
      simp only [List.cons_append, cons_iff, ih]
      constructor
      · rintro ⟨first, step, middle, left, right⟩
        exact ⟨middle, ⟨first, step, left⟩, right⟩
      · rintro ⟨middle, ⟨first, step, left⟩, right⟩
        exact ⟨first, step, middle, left, right⟩

/-- Exchanges that leave every state they are answered in as it is leave the
whole traversal where it started. -/
theorem eq_of_inert {s s' : S} {l : List (Exchange C A)} (h : Traverses env s l s')
    (inert : ∀ x ∈ l, ∀ t t', env t x.call x.answer t' → t' = t) : s' = s := by
  induction h with
  | nil s => rfl
  | cons step _ ih =>
      rw [ih fun x hx => inert x (List.mem_cons_of_mem _ hx)]
      exact inert _ List.mem_cons_self _ _ step

end Traverses

/-- An uninterrupted execution of `p` from `s` to `s'`, returning `a`. -/
def Executes (env : Environment S C A) (s : S) (p : Program C A α) (l : List (Exchange C A))
    (s' : S) (a : α) : Prop :=
  Returns p l a ∧ Traverses env s l s'

/-- Where every call is answered, every program can be executed. -/
theorem exists_executes (answers : ∀ s c, ∃ answer s', env s c answer s') (p : Program C A α)
    (s : S) : ∃ l s' a, Executes env s p l s' a := by
  induction p generalizing s with
  | ret a => exact ⟨[], s, a, .nil _, .nil s⟩
  | call c k ih =>
      obtain ⟨answer, middle, step⟩ := answers s c
      obtain ⟨l, s', a, returns, traverses⟩ := ih answer middle
      exact ⟨⟨c, answer⟩ :: l, s', a, .cons returns, .cons step traverses⟩

end Execution

end Bbs.Interaction
