import Mathlib.Order.Defs.PartialOrder
import Mathlib.Logic.Function.Basic
import Bbs.Interaction.Program

/-!
Interleaved runs of a pool of programs over one shared state.

A `Run` schedules any thread of the pool at every step and lets the environment
answer the call that thread is about to make. Three views of a run are proved
here, and everything about concurrency elsewhere goes through one of them.

* `Run.plays`: what one thread did is a play of its own program, so a program is
  analysed once, without states.
* `Run.ordered`: along any preorder that the environment's steps respect, every
  state of a run comes after the earlier ones.
* `Run.ensures`: the rely-guarantee rule. `Ensures` is a condition on a single
  program that tolerates interference; the rule adds the threads up.
-/

namespace Bbs.Interaction

/-- One step of a run: which thread called what, in which state, and what came
of it. -/
structure Event (ι S C : Type) (A : C → Type) where
  thread : ι
  before : S
  call : C
  answer : A call
  after : S

variable {ι S C : Type} {A : C → Type} {α : Type}

def Event.exchange (e : Event ι S C A) : Exchange C A :=
  ⟨e.call, e.answer⟩

variable [DecidableEq ι]

/-- The events of thread `t`, in the order of the run. -/
def ofThread (t : ι) (events : List (Event ι S C A)) : List (Event ι S C A) :=
  events.filter fun e => e.thread = t

/-- What thread `t` asked and was told. -/
def playOf (t : ι) (events : List (Event ι S C A)) : List (Exchange C A) :=
  (ofThread t events).map Event.exchange

/-- `Run env s pool events s' pool'`: from state `s` the pool takes the steps
`events`, in any order of its threads, and stands at `s'` and `pool'`. -/
inductive Run (env : Environment S C A) :
    S → (ι → Program C A α) → List (Event ι S C A) → S → (ι → Program C A α) → Prop where
  | nil (s : S) (pool : ι → Program C A α) : Run env s pool [] s pool
  | cons {s middle s' : S} {pool pool' : ι → Program C A α} {t : ι} {c : C}
      {k : A c → Program C A α} {answer : A c} {events : List (Event ι S C A)} :
      pool t = .call c k → env s c answer middle →
      Run env middle (Function.update pool t (k answer)) events s' pool' →
      Run env s pool (⟨t, s, c, answer, middle⟩ :: events) s' pool'

section Views

variable {env : Environment S C A} {s s' : S} {pool pool' : ι → Program C A α}
  {events : List (Event ι S C A)}

@[simp] theorem ofThread_append (t : ι) (l m : List (Event ι S C A)) :
    ofThread t (l ++ m) = ofThread t l ++ ofThread t m :=
  List.filter_append _ _

@[simp] theorem playOf_append (t : ι) (l m : List (Event ι S C A)) :
    playOf t (l ++ m) = playOf t l ++ playOf t m := by
  simp [playOf]

theorem playOf_cons_of_eq {t : ι} {e : Event ι S C A} (h : e.thread = t)
    (l : List (Event ι S C A)) : playOf t (e :: l) = e.exchange :: playOf t l := by
  simp [playOf, ofThread, h]

theorem playOf_cons_of_ne {t : ι} {e : Event ι S C A} (h : e.thread ≠ t)
    (l : List (Event ι S C A)) : playOf t (e :: l) = playOf t l := by
  simp [playOf, ofThread, h]

theorem mem_ofThread {t : ι} {e : Event ι S C A} :
    e ∈ ofThread t events ↔ e ∈ events ∧ e.thread = t := by
  simp [ofThread]

theorem mem_playOf {t : ι} {x : Exchange C A} :
    x ∈ playOf t events ↔ ∃ e ∈ events, e.thread = t ∧ e.exchange = x := by
  simp [playOf, mem_ofThread, and_assoc]

/-- Where a thread's share of the events is cut, the events are. -/
theorem exists_of_playOf_eq {t : ι} {a b : List (Exchange C A)} {x : Exchange C A}
    (h : playOf t events = a ++ x :: b) :
    ∃ l e m, events = l ++ e :: m ∧ e.thread = t ∧ e.exchange = x ∧
      playOf t l = a ∧ playOf t m = b := by
  induction events generalizing a with
  | nil => simp [playOf, ofThread] at h
  | cons e events ih =>
      by_cases own : e.thread = t
      · rw [playOf_cons_of_eq own] at h
        cases a with
        | nil =>
            obtain ⟨hx, hb⟩ := List.cons.inj h
            exact ⟨[], e, events, rfl, own, hx, rfl, hb⟩
        | cons y a =>
            obtain ⟨hy, hrest⟩ := List.cons.inj h
            obtain ⟨l, e', m, rfl, thread, exchange, hl, hm⟩ := ih hrest
            refine ⟨e :: l, e', m, rfl, thread, exchange, ?_, hm⟩
            rw [playOf_cons_of_eq own, hy, hl]
      · rw [playOf_cons_of_ne own] at h
        obtain ⟨l, e', m, rfl, thread, exchange, hl, hm⟩ := ih h
        exact ⟨e :: l, e', m, rfl, thread, exchange, by rw [playOf_cons_of_ne own, hl], hm⟩

/-- A thread's share of a run is a play of its program. -/
theorem Run.plays (run : Run env s pool events s' pool') (t : ι) :
    Plays (pool t) (playOf t events) (pool' t) := by
  induction run with
  | nil s pool => exact .nil _
  | @cons s middle s' pool pool' u c k answer events hu _ _ ih =>
      by_cases h : u = t
      · subst h
        rw [Function.update_self] at ih
        rw [hu]
        simpa [playOf, ofThread, Event.exchange] using Plays.cons ih
      · rw [Function.update_of_ne (Ne.symm h)] at ih
        simpa [playOf, ofThread, h] using ih

/-- Every event of a run is a step of the environment. -/
theorem Run.allowed (run : Run env s pool events s' pool') :
    ∀ e ∈ events, env e.before e.call e.answer e.after := by
  induction run with
  | nil s pool => intro e he; cases he
  | cons _ step _ ih =>
      intro e he
      rcases List.mem_cons.mp he with rfl | he
      · exact step
      · exact ih e he

/-- The states of consecutive events fit together. -/
def Linked : S → List (Event ι S C A) → S → Prop
  | s, [], s' => s = s'
  | s, e :: events, s' => e.before = s ∧ Linked e.after events s'

/-- A run is nothing but its threads' plays, put in some order and answered by the
environment. -/
theorem Run.of_plays (linked : Linked s events s')
    (allowed : ∀ e ∈ events, env e.before e.call e.answer e.after)
    (plays : ∀ t, Plays (pool t) (playOf t events) (pool' t)) : Run env s pool events s' pool' := by
  induction events generalizing s pool with
  | nil =>
      cases linked
      have same : pool = pool' := funext fun t => Plays.nil_iff.mp (plays t)
      subst same
      exact .nil _ _
  | cons e events ih =>
      rcases e with ⟨u, before, c, answer, middle⟩
      obtain ⟨rfl, linked⟩ := linked
      have own := plays u
      rw [playOf_cons_of_eq (t := u) rfl] at own
      generalize hp : pool u = p at own
      cases own with
      | @cons _ k _ _ _ rest =>
          refine .cons hp (allowed _ List.mem_cons_self)
            (ih linked (fun e he => allowed e (List.mem_cons_of_mem _ he)) fun t => ?_)
          by_cases h : u = t
          · subst h
            rwa [Function.update_self]
          · rw [Function.update_of_ne (Ne.symm h)]
            have other := plays t
            rwa [playOf_cons_of_ne h] at other

/-- A run can be cut at any point. -/
theorem Run.split {l m : List (Event ι S C A)} (run : Run env s pool (l ++ m) s' pool') :
    ∃ middle between, Run env s pool l middle between ∧ Run env middle between m s' pool' := by
  induction l generalizing s pool with
  | nil => exact ⟨s, pool, .nil s pool, run⟩
  | cons e l ih =>
      cases run with
      | cons hpool step rest =>
          obtain ⟨middle, between, left, right⟩ := ih rest
          exact ⟨middle, between, .cons hpool step left, right⟩

/-- Up to and including any event of a run, its thread has played its program. -/
theorem Run.plays_upto {l m : List (Event ι S C A)} {e : Event ι S C A}
    (run : Run env s pool (l ++ e :: m) s' pool') :
    ∃ q, Plays (pool e.thread) (playOf e.thread l ++ [e.exchange]) q := by
  rw [← List.singleton_append, ← List.append_assoc] at run
  obtain ⟨middle, between, left, -⟩ := run.split
  have play := left.plays e.thread
  rw [playOf_append] at play
  have last : playOf e.thread [e] = [e.exchange] := by
    simp [playOf, ofThread]
  exact ⟨_, last ▸ play⟩

theorem Run.linked (run : Run env s pool events s' pool') : Linked s events s' := by
  induction run with
  | nil s pool => rfl
  | cons _ _ _ ih => exact ⟨rfl, ih⟩

omit [DecidableEq ι] in
theorem Linked.append_iff {l m : List (Event ι S C A)} :
    Linked s (l ++ m) s' ↔ ∃ middle, Linked s l middle ∧ Linked middle m s' := by
  induction l generalizing s with
  | nil => simp [Linked]
  | cons e l ih => simp [Linked, ih, and_assoc]

omit [DecidableEq ι] in
/-- The events between two others lead from the state after the one to the state
before the other. -/
theorem Linked.between {l m r : List (Event ι S C A)} {e e' : Event ι S C A}
    (linked : Linked s ((l ++ e :: m) ++ e' :: r) s') : Linked e.after m e'.before := by
  obtain ⟨middle, first, ⟨rfl, -⟩⟩ := Linked.append_iff.mp linked
  obtain ⟨-, -, -, between⟩ := Linked.append_iff.mp first
  exact between

omit [DecidableEq ι] in
/-- An invariant of linked events. To show that an event keeps it one may use that
it held throughout the events before. -/
theorem Linked.invariant {I : S → Prop} (linked : Linked s events s') (start : I s)
    (step : ∀ l e m, events = l ++ e :: m → (∀ e' ∈ l, I e'.before ∧ I e'.after) →
      I e.before → I e.after) :
    (∀ e ∈ events, I e.before ∧ I e.after) ∧ I s' := by
  -- the events seen so far move to an accumulator, so that `step` sees the whole past
  have along : ∀ (l m : List (Event ι S C A)) (middle : S), events = l ++ m →
      Linked middle m s' → I middle → (∀ e ∈ l, I e.before ∧ I e.after) →
      (∀ e ∈ events, I e.before ∧ I e.after) ∧ I s' := by
    intro l m
    induction m generalizing l with
    | nil =>
        intro middle whole linked here past
        cases linked
        rw [whole, List.append_nil]
        exact ⟨past, here⟩
    | cons e m ih =>
        intro middle whole linked here past
        obtain ⟨rfl, linked⟩ := linked
        have next := step l e m whole past here
        refine ih (l ++ [e]) e.after (by simp [whole]) linked next ?_
        intro e' he'
        rcases List.mem_append.mp he' with he' | he'
        · exact past e' he'
        · rw [List.mem_singleton.mp he']
          exact ⟨here, next⟩
  exact along [] events s rfl linked start fun _ he => (nomatch he)

omit [DecidableEq ι] in
/-- Events that leave the state as it was can be left out. -/
theorem Linked.filter {p : Event ι S C A → Bool} (linked : Linked s events s')
    (inert : ∀ e ∈ events, p e = false → e.after = e.before) : Linked s (events.filter p) s' := by
  induction events generalizing s with
  | nil => exact linked
  | cons e events ih =>
      obtain ⟨rfl, rest⟩ := linked
      have tail := ih rest fun e' he' => inert e' (List.mem_cons_of_mem _ he')
      cases kept : p e with
      | true =>
          rw [List.filter_cons_of_pos kept]
          exact ⟨rfl, tail⟩
      | false =>
          rw [List.filter_cons_of_neg (by simp [kept])]
          rwa [inert e List.mem_cons_self kept] at tail

/-- A thread that never changes the state can be taken out of a run. -/
theorem Run.without {t : ι} (run : Run env s pool events s' pool')
    (inert : ∀ e ∈ events, e.thread = t → e.after = e.before) :
    Run env s pool (events.filter fun e => e.thread ≠ t) s' (Function.update pool' t (pool t)) := by
  refine Run.of_plays (run.linked.filter fun e he own => inert e he (by simpa using own))
    (fun e he => run.allowed e (List.mem_filter.mp he).1) fun u => ?_
  by_cases own : u = t
  · subst own
    have none_left : playOf u (events.filter fun e => e.thread ≠ u) = [] := by
      simp [playOf, ofThread, List.filter_filter]
    rw [Function.update_self, none_left]
    exact .nil _
  · have all_left : playOf u (events.filter fun e => e.thread ≠ t) = playOf u events := by
      rw [playOf, ofThread, List.filter_filter, playOf, ofThread]
      refine congrArg (List.map Event.exchange) (List.filter_congr fun e _ => ?_)
      by_cases mine : e.thread = u
      · simp [mine, own]
      · simp [mine]
    rw [Function.update_of_ne own, all_left]
    exact run.plays u

/-- A run all of whose events meet a condition is a run in the environment
restricted by that condition. -/
theorem Run.restrict (cond : Environment S C A) (run : Run env s pool events s' pool')
    (meets : ∀ e ∈ events, cond e.before e.call e.answer e.after) :
    Run (fun s c answer s' => env s c answer s' ∧ cond s c answer s') s pool events s' pool' := by
  induction run with
  | nil s pool => exact .nil s pool
  | cons hpool step _ ih =>
      exact .cons hpool ⟨step, meets _ List.mem_cons_self⟩
        (ih fun e he => meets e (List.mem_cons_of_mem _ he))

omit [DecidableEq ι] in
/-- Linked events whose steps go up a preorder go up it as a whole: the first
state is below every event, every event is below the last state, and earlier
events are below later ones. -/
theorem Linked.ordered [Preorder S] (linked : Linked s events s')
    (up : ∀ e ∈ events, e.before ≤ e.after) :
    s ≤ s' ∧ (∀ e ∈ events, s ≤ e.before ∧ e.after ≤ s') ∧
      events.Pairwise fun e e' => e.after ≤ e'.before := by
  induction events generalizing s with
  | nil =>
      cases linked
      exact ⟨le_rfl, fun _ he => (nomatch he), .nil⟩
  | cons e events ih =>
      obtain ⟨rfl, rest⟩ := linked
      have step := up e List.mem_cons_self
      obtain ⟨last, between, chain⟩ := ih rest fun e' he' => up e' (List.mem_cons_of_mem _ he')
      refine ⟨le_trans step last, ?_, .cons (fun e' he' => (between e' he').1) chain⟩
      intro e' he'
      rcases List.mem_cons.mp he' with rfl | he'
      · exact ⟨le_rfl, last⟩
      · exact ⟨le_trans step (between e' he').1, (between e' he').2⟩

end Views

/-! ### Rely and guarantee -/

section RelyGuarantee

variable {env : Environment S C A}

/-- `Ensures env rely guar post p s`: from `s` on, whatever others do within
`rely` between its calls, each call of `p` meets `guar`, and when `p` returns its
value meets `post`, then and for as long as others stay within `rely`. -/
def Ensures (env : Environment S C A) (rely : S → S → Prop) (guar : Environment S C A)
    (post : α → S → Prop) : Program C A α → S → Prop
  | .ret a, s => ∀ s', rely s s' → post a s'
  | .call c k, s => ∀ s', rely s s' → ∀ answer s'', env s' c answer s'' →
      guar s' c answer s'' ∧ Ensures env rely guar post (k answer) s''

variable {rely : S → S → Prop} {guar : Environment S C A} {post : α → S → Prop}

theorem Ensures.stable (trans : ∀ a b c, rely a b → rely b c → rely a c) {p : Program C A α}
    {s s' : S} (h : Ensures env rely guar post p s) (step : rely s s') :
    Ensures env rely guar post p s' := by
  cases p with
  | ret a => exact fun t ht => h t (trans s s' t step ht)
  | call c k => exact fun t ht => h t (trans s s' t step ht)

/-- **The rely-guarantee rule.** If every thread ensures its own condition, and
what one thread guarantees is what the others rely on, then along every run each
event meets its thread's guarantee and every thread still ensures its condition
in the state reached. -/
theorem Run.ensures {rely : ι → S → S → Prop} {guar : ι → Environment S C A}
    {post : ι → α → S → Prop} (trans : ∀ t a b c, rely t a b → rely t b c → rely t a c)
    (refl : ∀ t a, rely t a a)
    (compatible : ∀ t u, t ≠ u → ∀ s c answer s', guar t s c answer s' → rely u s s')
    {s s' : S} {pool pool' : ι → Program C A α} {events : List (Event ι S C A)}
    (run : Run env s pool events s' pool')
    (each : ∀ t, Ensures env (rely t) (guar t) (post t) (pool t) s) :
    (∀ e ∈ events, guar e.thread e.before e.call e.answer e.after) ∧
      ∀ t, Ensures env (rely t) (guar t) (post t) (pool' t) s' := by
  induction run with
  | nil s pool => exact ⟨fun _ he => (nomatch he), each⟩
  | @cons s middle s' pool pool' u c k answer events hu step _ ih =>
      have own := each u
      rw [hu] at own
      obtain ⟨hg, hk⟩ := own s (refl u s) answer middle step
      have next : ∀ t, Ensures env (rely t) (guar t) (post t)
          (Function.update pool u (k answer) t) middle := by
        intro t
        by_cases h : t = u
        · subst h
          rwa [Function.update_self]
        · rw [Function.update_of_ne h]
          have seen : rely t s middle := compatible u t (Ne.symm h) s c answer middle hg
          exact (each t).stable (trans t) seen
      obtain ⟨later, final⟩ := ih next
      refine ⟨fun e he => ?_, final⟩
      rcases List.mem_cons.mp he with rfl | he
      · exact hg
      · exact later e he

end RelyGuarantee

end Bbs.Interaction
