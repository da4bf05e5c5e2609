import Bbs.Events.Membership

/-!
What the callback is told.

`RegisterCallback`, `Subscribe`, `Emit` and `subscriberClosed` take the number of
subscribers under the hub's lock and call the callback after they have released it, so
counts can be delivered in another order than they were taken in. `Close` calls the
callback while it still holds the lock.

The counts themselves are right: the last one taken is the number of subscribers. What
can go wrong is the order of delivery, and nothing else.
-/

namespace Bbs.Events

open Bbs.Interaction
open Function (update)

variable {E κ : Type} {hub hub' : Hub E κ} {x : Label E κ} {labels : List (Label E κ)}

/-! ### Counts in the labels -/

/-- The callback and the count that the action set out to deliver. -/
def Action.counting : Action E κ → Option (κ × Nat)
  | .registerCallback reports => reports
  | .subscribe _ reports => reports
  | .emitted reports => reports
  | .closed reports => reports
  | .subscriberClosed _ reports => reports
  | _ => none

def Action.delivering : Action E κ → Option (κ × Nat)
  | .deliver cb count => some (cb, count)
  | _ => none

/-- The counts, in the order in which they were taken. -/
def counted (labels : List (Label E κ)) : List (κ × Nat) :=
  labels.filterMap fun x => x.action.counting

/-- The counts, in the order in which the callback was called with them. -/
def delivered (labels : List (Label E κ)) : List (κ × Nat) :=
  labels.filterMap fun x => x.action.delivering

theorem counted_snoc : counted (labels ++ [x]) = counted labels ++ x.action.counting.toList := by
  rw [counted, List.filterMap_append, counted]
  cases h : x.action.counting <;> simp [h]

theorem delivered_snoc : delivered (labels ++ [x]) = delivered labels ++ x.action.delivering.toList := by
  rw [delivered, List.filterMap_append, delivered]
  cases h : x.action.delivering <;> simp [h]

/-! ### What is still to be delivered -/

/-- The goroutine that is about to call the callback in `Close`. -/
def Hub.closer (hub : Hub E κ) : Option Nat :=
  match hub.lock with
  | some (t, .closed) => some t
  | _ => none

/-- The call of the callback that a goroutine has before it. -/
def Goroutine.debt : Goroutine E κ → Option (κ × Nat)
  | .notify cb count => some (cb, count)
  | _ => none

/-- The delivery that goroutine `t` has still to make. -/
def Hub.owes (hub : Hub E κ) (t : Nat) : Option (κ × Nat) :=
  if hub.closer = some t then report hub.cb 0 else (hub.goroutines t).debt

/-- A step takes a count, or delivers one, or does neither. -/
inductive Owing (hub : Hub E κ) (x : Label E κ) (hub' : Hub E κ) : Prop where
  | counts {count : κ × Nat} (counting : x.action.counting = some count)
      (delivering : x.action.delivering = none) (before : hub.owes x.goroutine = none)
      (owes : hub'.owes = update hub.owes x.goroutine (some count))
  | delivers {count : κ × Nat} (counting : x.action.counting = none)
      (delivering : x.action.delivering = some count) (before : hub.owes x.goroutine = some count)
      (owes : hub'.owes = update hub.owes x.goroutine none)
  | neither (counting : x.action.counting = none) (delivering : x.action.delivering = none)
      (owes : hub'.owes = hub.owes)

/-- A step that may take a count. -/
theorem Owing.of_update (delivering : x.action.delivering = none)
    (before : hub.owes x.goroutine = none)
    (owes : hub'.owes = update hub.owes x.goroutine x.action.counting) : Owing hub x hub' := by
  cases counting : x.action.counting with
  | some count => exact .counts counting delivering before (by rw [owes, counting])
  | none =>
      refine .neither counting delivering ?_
      rw [owes, counting, ← before, Function.update_eq_self]

theorem Goroutine.debt_finish (reports : Option (κ × Nat)) :
    (finish reports : Goroutine E κ).debt = reports := by
  rcases reports with _ | ⟨cb, count⟩ <;> rfl

theorem owes_of_closer (closer : hub.closer = none) (t : Nat) :
    hub.owes t = (hub.goroutines t).debt := by
  rw [Hub.owes, closer, if_neg (by simp)]

/-- One goroutine goes on while `Close` is not at its callback. -/
theorem owes_update {t : Nat} {g : Goroutine E κ} (before : hub.closer = none)
    (after : hub'.closer = none) (goroutines : hub'.goroutines = update hub.goroutines t g) :
    hub'.owes = update hub.owes t g.debt := by
  funext u
  rw [owes_of_closer after, goroutines]
  by_cases own : u = t
  · subst own
    rw [Function.update_self, Function.update_self]
  · rw [Function.update_of_ne own, Function.update_of_ne own, owes_of_closer before]

/-- One goroutine goes on without the hub's lock. -/
theorem owes_unlocked {t : Nat} {g : Goroutine E κ} (lock : hub'.lock = hub.lock)
    (cb : hub'.cb = hub.cb) (goroutines : hub'.goroutines = update hub.goroutines t g)
    (other : hub.closer ≠ some t) : hub'.owes = update hub.owes t g.debt := by
  have closer : hub'.closer = hub.closer := by rw [Hub.closer, Hub.closer, lock]
  funext u
  rw [Hub.owes, closer, cb, goroutines]
  by_cases own : u = t
  · subst own
    rw [if_neg other, Function.update_self, Function.update_self]
  · rw [Function.update_of_ne own, Function.update_of_ne own, Hub.owes]

theorem Hub.lock_of_closer {t : Nat} (closer : hub.closer = some t) :
    hub.lock = some (t, .closed) := by
  unfold Hub.closer at closer
  split at closer
  · rename_i locked
    cases closer
    exact locked
  · cases closer

/-- A goroutine that is not in a critical section is not the one that `Close` runs in. -/
theorem Coherent.closer_ne {t : Nat} (here : Coherent hub) (busy : hub.goroutines t ≠ .critical) :
    hub.closer ≠ some t := by
  intro closer
  exact (here.held t _ (Hub.lock_of_closer closer)).elim busy (here.calm t)

theorem owes_of_debts (lock : hub'.lock = hub.lock) (cb : hub'.cb = hub.cb)
    (debts : ∀ t, (hub'.goroutines t).debt = (hub.goroutines t).debt) : hub'.owes = hub.owes := by
  funext t
  rw [Hub.owes, Hub.owes, Hub.closer, Hub.closer, lock, cb, debts]

theorem debt_update {goroutines : Nat → Goroutine E κ} {t : Nat} {g : Goroutine E κ}
    (before : (goroutines t).debt = none) (after : g.debt = none) (u : Nat) :
    (update goroutines t g u).debt = (goroutines u).debt := by
  by_cases own : u = t
  · subst own
    rw [Function.update_self, before, after]
  · rw [Function.update_of_ne own]

/-- The holder of the lock has nothing to deliver, unless it is at the end of `Close`. -/
theorem Coherent.owes_holder {t : Nat} {work : Critical E} (here : Coherent hub)
    (locked : hub.lock = some (t, work)) (closer : hub.closer = none) : hub.owes t = none := by
  rw [owes_of_closer closer]
  rcases here.held t work locked with held | held <;> rw [held] <;> rfl

theorem owes_congr (before : hub.closer = none) (after : hub'.closer = none)
    (goroutines : hub'.goroutines = hub.goroutines) : hub'.owes = hub.owes := by
  funext t
  rw [owes_of_closer before, owes_of_closer after, goroutines]

/-- `Close` comes to its callback. -/
theorem owes_close {t : Nat} (before : hub.closer = none) (after : hub'.closer = some t)
    (cb : hub'.cb = hub.cb) (goroutines : hub'.goroutines = hub.goroutines) :
    hub'.owes = update hub.owes t (report hub.cb 0) := by
  funext u
  by_cases own : u = t
  · subst own
    rw [Function.update_self, Hub.owes, if_pos after, cb]
  · rw [Function.update_of_ne own, owes_of_closer before, Hub.owes, goroutines, if_neg]
    rw [after]
    simpa using Ne.symm own

/-- `Close` is done with its callback. -/
theorem owes_release {t : Nat} (before : hub.closer = some t) (after : hub'.closer = none)
    (goroutines : hub'.goroutines = update hub.goroutines t .done) :
    hub'.owes = update hub.owes t none := by
  funext u
  rw [owes_of_closer after, goroutines]
  by_cases own : u = t
  · subst own
    rw [Function.update_self, Function.update_self]
    rfl
  · rw [Function.update_of_ne own, Function.update_of_ne own, Hub.owes, if_neg]
    rw [before]
    simpa using Ne.symm own

theorem Step.owing (step : Step hub x hub') (here : Coherent hub) : Owing hub x hub' := by
  have free_closer (free : hub.lock = none) : hub.closer = none := by rw [Hub.closer, free]
  have calm := here.not_panic step
  cases step with
  | @call t operation idle callable =>
      refine .neither rfl rfl (owes_of_debts rfl rfl (debt_update (by rw [idle]; rfl) ?_))
      cases operation <;> first | rfl | exact callable.elim
  | subscribeRefused _ busy | closeRefused _ busy | closeSourceRefused busy | next busy =>
      exact .neither rfl rfl (owes_of_debts rfl rfl (debt_update (by rw [busy]; rfl) rfl))
  | registerCallback free busy | subscribe free busy | subscriberClosed free busy =>
      refine .of_update rfl ?_ ?_
      · rw [owes_of_closer (free_closer free), busy]
        rfl
      · rw [owes_update (free_closer free) (by simp [Hub.closer, free]) rfl, Goroutine.debt_finish]
        rfl
  | emit free busy | close free busy =>
      refine .neither rfl rfl ?_
      rw [owes_update (free_closer free) rfl rfl, Function.update_eq_self_iff,
        owes_of_closer (free_closer free), busy]
      rfl
  | sent locked | refused locked | full locked | overtaken locked | skips locked =>
      exact .neither rfl rfl (owes_congr (by rw [Hub.closer, locked]) rfl rfl)
  | slow locked _ _ idle | closes locked _ _ _ idle =>
      have closer : hub.closer = none := by rw [Hub.closer, locked]
      refine .neither rfl rfl ?_
      rw [owes_update closer rfl rfl, Function.update_eq_self_iff, owes_of_closer closer, idle]
      rfl
  | emitted locked =>
      have closer : hub.closer = none := by rw [Hub.closer, locked]
      refine .of_update rfl (here.owes_holder locked closer) ?_
      rw [owes_update closer rfl rfl, Goroutine.debt_finish]
      rfl
  | @closed t locked =>
      have closer : hub.closer = none := by rw [Hub.closer, locked]
      exact .of_update rfl (here.owes_holder locked closer) (owes_close closer rfl rfl rfl)
  | @closedDeliver t cb locked registered =>
      have closer : hub.closer = some t := by rw [Hub.closer, locked]
      refine .delivers rfl rfl ?_ (owes_release closer rfl rfl)
      rw [Hub.owes, if_pos closer, registered]
      rfl
  | @closedSilently t locked unregistered =>
      have closer : hub.closer = some t := by rw [Hub.closer, locked]
      refine .neither rfl rfl ?_
      rw [owes_release closer rfl rfl, Function.update_eq_self_iff, Hub.owes, if_pos closer,
        unregistered]
      rfl
  | @closeSource t u sub _ _ busy _ _ idle =>
      refine .neither rfl rfl (owes_of_debts rfl rfl fun v => ?_)
      have first (v : Nat) : (update hub.goroutines t .done v).debt = (hub.goroutines v).debt :=
        debt_update (by rw [busy]; rfl) rfl v
      exact (debt_update (by rw [first, idle]; rfl) rfl v).trans (first v)
  | @deliver t count cb busy =>
      have other := here.closer_ne (t := t) (by simp [busy])
      refine .delivers rfl rfl ?_ (owes_unlocked (g := .done) rfl rfl rfl other)
      rw [Hub.owes, if_neg other, busy]
      rfl
  | subscribePanics | sendPanics | slowPanics | closePanics | closeSourcePanics =>
      exact absurd rfl calm

/-- Counts that were taken are delivered or still to be delivered. -/
theorem Runs.outstanding (run : Runs labels hub) :
    ∃ owing : Finset Nat, (∀ t, t ∈ owing ↔ hub.owes t ≠ none) ∧
      (counted labels).length = (delivered labels).length + owing.card := by
  refine Trace.history run (J := fun labels hub => ∃ owing : Finset Nat,
    (∀ t, t ∈ owing ↔ hub.owes t ≠ none) ∧
      (counted labels).length = (delivered labels).length + owing.card) ⟨∅, by simp [newHub, Hub.owes, Hub.closer, Goroutine.debt], rfl⟩ ?_
  rintro labels hub x hub' run ⟨owing, support, balance⟩ step
  rw [counted_snoc, delivered_snoc, List.length_append, List.length_append]
  cases step.owing (Runs.coherent run) with
  | counts counting delivering before owes =>
      refine ⟨insert x.goroutine owing, fun t => ?_, ?_⟩
      · rw [owes, Finset.mem_insert, support]
        by_cases own : t = x.goroutine <;> simp [own]
      · have new : x.goroutine ∉ owing := by simp [support, before]
        rw [Finset.card_insert_of_notMem new, counting, delivering]
        simp only [Option.toList_some, Option.toList_none, List.length_singleton, List.length_nil]
        omega
  | delivers counting delivering before owes =>
      have old : x.goroutine ∈ owing := by simp [support, before]
      refine ⟨owing.erase x.goroutine, fun t => ?_, ?_⟩
      · rw [owes, Finset.mem_erase, support]
        by_cases own : t = x.goroutine <;> simp [own]
      · have card := Finset.card_erase_add_one old
        rw [counting, delivering]
        simp only [Option.toList_some, Option.toList_none, List.length_singleton, List.length_nil]
        omega
  | neither counting delivering owes =>
      refine ⟨owing, fun t => by rw [owes, support], ?_⟩
      rw [counting, delivering]
      simpa using balance

/-! ### The last count -/

/-- The number of subscribers as it was when the lock was free. -/
def Hub.known (hub : Hub E κ) : Nat :=
  match hub.lock with
  | some (_, .emitting _ size _) => size
  | some (_, .slow _ size _ _) => size
  | _ => hub.size

theorem getLast?_snoc {count : κ × Nat} (counting : x.action.counting = some count) :
    (counted (labels ++ [x])).getLast? = some count := by
  rw [counted_snoc, counting, Option.toList_some, List.getLast?_concat]

theorem counted_quiet (counting : x.action.counting = none) :
    counted (labels ++ [x]) = counted labels := by
  rw [counted_snoc, counting, Option.toList_none, List.append_nil]

theorem report_some {cb : κ} {current : Option κ} (registered : current = some cb) (count : Nat) :
    report current count = some (cb, count) := by
  rw [registered, report, Option.map_some]

/-- The last count that was taken is the number of subscribers. -/
theorem Runs.last_counted (run : Runs labels hub) {cb : κ} (registered : hub.cb = some cb) :
    (counted labels).getLast? = some (cb, hub.known) := by
  revert cb
  refine Trace.history run (J := fun labels (hub : Hub E κ) => ∀ {cb}, hub.cb = some cb →
    (counted labels).getLast? = some (cb, hub.known)) (by simp [newHub]) ?_
  intro labels hub x hub' run past step cb registered
  have calm := (Runs.coherent run).not_panic step
  have keep (counting : x.action.counting = none) (cbs : hub'.cb = hub.cb)
      (known : hub'.known = hub.known) : (counted (labels ++ [x])).getLast? = some (cb, hub'.known) := by
    rw [counted_quiet counting, known]
    exact past (cbs ▸ registered)
  have tell (counting : x.action.counting = report hub'.cb hub'.known) :
      (counted (labels ++ [x])).getLast? = some (cb, hub'.known) :=
    getLast?_snoc (counting.trans (report_some registered _))
  cases step with
  | registerCallback free | subscribe free =>
      exact tell (by simp [Action.counting, Hub.known, free, Hub.size, Hub.members])
  | subscriberClosed free =>
      apply tell
      cases held : hub.subscribers <;>
        simp [Action.counting, Hub.known, free, Hub.size, Hub.members, held]
  | @emitted t size event reports locked counts =>
      by_cases changed : hub.size = size
      · rw [if_neg (not_not.mpr changed)] at counts
        refine keep counts rfl ?_
        simp [Hub.known, locked, ← changed, Hub.size, Hub.members]
      · rw [if_pos changed] at counts
        exact tell counts
  | closed => exact tell rfl
  | emit free | close free => exact keep rfl rfl (by simp [Hub.known, free, Hub.size, Hub.members])
  | sent locked | refused locked | full locked | slow locked | overtaken locked | closes locked
  | skips locked | closedDeliver locked | closedSilently locked =>
      exact keep rfl rfl (by simp [Hub.known, locked, Hub.size, Hub.members])
  | call | subscribeRefused | closeRefused | closeSource | closeSourceRefused | deliver | next =>
      exact keep rfl rfl rfl
  | subscribePanics | sendPanics | slowPanics | closePanics | closeSourcePanics =>
      exact absurd rfl calm

/-! ### Quiet states -/

/-- Every operation that was started has finished; only `Next` may be waiting. -/
def Hub.Quiet (hub : Hub E κ) : Prop :=
  ∀ t, hub.goroutines t = .idle ∨ hub.goroutines t = .done ∨ ∃ s, hub.goroutines t = .next s

theorem Coherent.free_of_quiet (here : Coherent hub) (quiet : hub.Quiet) : hub.lock = none := by
  cases locked : hub.lock with
  | none => rfl
  | some holder =>
      have held := here.held holder.1 holder.2 locked
      rcases quiet holder.1 with h | h | ⟨s, h⟩ <;> simp [h] at held

theorem Coherent.owes_of_quiet (here : Coherent hub) (quiet : hub.Quiet) (t : Nat) :
    hub.owes t = none := by
  rw [owes_of_closer (by rw [Hub.closer, here.free_of_quiet quiet])]
  rcases quiet t with h | h | ⟨s, h⟩ <;> rw [h] <;> rfl

/-- **The last count delivered is the true one, as long as counts are delivered in the
order in which they were taken.** When everything that was started has finished, the
callback was last called with the number of subscribers, which is 0 once the hub is
closed; and if that was 0, no source is open. -/
theorem last_count_delivered (run : Runs labels hub) (ordered : (delivered labels).Sublist (counted labels))
    (quiet : hub.Quiet) {cb : κ} (registered : hub.cb = some cb) :
    (delivered labels).getLast? = some (cb, hub.size) ∧ (hub.closed = true → hub.size = 0) ∧
      ((delivered labels).getLast? = some (cb, 0) → ∀ s, hub.status s ≠ some false) := by
  have coherent := Runs.coherent run
  have last : (delivered labels).getLast? = some (cb, hub.size) := by
    obtain ⟨owing, support, balance⟩ := Runs.outstanding run
    have none : owing = ∅ := by
      refine Finset.eq_empty_of_forall_notMem fun t owes => ?_
      exact (support t).mp owes (coherent.owes_of_quiet quiet t)
    rw [none, Finset.card_empty, Nat.add_zero] at balance
    have known : hub.known = hub.size := by rw [Hub.known, coherent.free_of_quiet quiet]
    rw [ordered.eq_of_length balance.symm, Runs.last_counted run registered, known]
  refine ⟨last, fun closed => ?_, fun zero s isOpen => ?_⟩
  · rw [Hub.size, Hub.members, coherent.nil.mpr closed]
    rfl
  · have empty : hub.members = ∅ := by
      rw [last] at zero
      simpa [Hub.size] using zero
    cases closed : hub.closed with
    | true => exact coherent.dead closed s isOpen
    | false =>
        have member := coherent.member closed s isOpen
        rw [empty] at member
        exact Finset.notMem_empty s member

/-- A callback is registered, and a subscriber comes. -/
def promptCallback : List (Label Nat Unit) :=
  [⟨0, .call (.registerCallback (some ()))⟩, ⟨0, .registerCallback (some ((), 0))⟩,
    ⟨0, .deliver () 0⟩, ⟨1, .call .subscribe⟩, ⟨1, .subscribe 0 (some ((), 1))⟩, ⟨1, .deliver () 1⟩]

theorem last_count_delivered_promptCallback : ∃ hub, Runs promptCallback hub ∧ hub.size = 1 ∧
    (delivered promptCallback).getLast? = some ((), hub.size) := by
  have run : ∃ hub, Runs promptCallback hub ∧ hub.Quiet ∧ hub.cb = some () ∧ hub.size = 1 := by
    refine Trace.exists_cons (.call rfl trivial) ?_
    refine Trace.exists_cons (@Step.registerCallback _ _ _ 0 (some ()) rfl rfl) ?_
    refine Trace.exists_cons (.deliver rfl) ?_
    refine Trace.exists_cons (.call rfl trivial) ?_
    refine Trace.exists_cons (@Step.subscribe _ _ _ 1 0 ∅ rfl rfl rfl rfl rfl) ?_
    refine Trace.exists_cons (.deliver rfl) ?_
    refine Trace.exists_nil ⟨?_, rfl, rfl⟩
    intro t
    rcases t with _ | _ | t
    · exact .inr (.inl rfl)
    · exact .inr (.inl rfl)
    · exact .inl rfl
  obtain ⟨hub, run, quiet, registered, size⟩ := run
  exact ⟨hub, run, size, (last_count_delivered run (List.Sublist.refl _) quiet registered).1⟩

/-- Then the subscriber leaves, and another one comes before the callback is told. -/
def lateCallback : List (Label Nat Unit) :=
  promptCallback ++
    [⟨2, .call (.closeSource 0)⟩, ⟨2, .closeSource 0⟩, ⟨3, .subscriberClosed 0 (some ((), 0))⟩,
      ⟨4, .call .subscribe⟩, ⟨4, .subscribe 1 (some ((), 1))⟩, ⟨4, .deliver () 1⟩,
      ⟨3, .deliver () 0⟩]

/-- Counts that are delivered out of order can leave the callback with 0 while a source
is open. -/
theorem lateCallback_leaves_zero : ∃ hub, Runs lateCallback hub ∧ hub.Quiet ∧ hub.cb = some () ∧
    (delivered lateCallback).getLast? = some ((), 0) ∧ hub.size = 1 ∧ hub.status 1 = some false := by
  refine Trace.exists_cons (.call rfl trivial) ?_
  refine Trace.exists_cons (@Step.registerCallback _ _ _ 0 (some ()) rfl rfl) ?_
  refine Trace.exists_cons (.deliver rfl) ?_
  refine Trace.exists_cons (.call rfl trivial) ?_
  refine Trace.exists_cons (@Step.subscribe _ _ _ 1 0 ∅ rfl rfl rfl rfl rfl) ?_
  refine Trace.exists_cons (.deliver rfl) ?_
  refine Trace.exists_cons (.call rfl (by intro h; cases h)) ?_
  refine Trace.exists_cons (.closeSource (u := 3) rfl rfl rfl rfl) ?_
  refine Trace.exists_cons (.subscriberClosed rfl rfl) ?_
  refine Trace.exists_cons (.call rfl trivial) ?_
  refine Trace.exists_cons (@Step.subscribe _ _ _ 4 1 ∅ rfl rfl rfl rfl rfl) ?_
  refine Trace.exists_cons (.deliver rfl) ?_
  refine Trace.exists_cons (.deliver rfl) ?_
  refine Trace.exists_nil ⟨?_, rfl, rfl, rfl, rfl⟩
  intro t
  rcases t with _ | _ | _ | _ | _ | t
  · exact .inr (.inl rfl)
  · exact .inr (.inl rfl)
  · exact .inr (.inl rfl)
  · exact .inr (.inl rfl)
  · exact .inr (.inl rfl)
  · exact .inl rfl

end Bbs.Events
