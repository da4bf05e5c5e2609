import Mathlib.Data.List.TakeWhile
import Bbs.Events.Membership

/-!
What a subscriber gets to see.

The labels after a subscription say everything about the stream of a source: which
events the hub emitted, which of them came by this source, and what `Next` returned.
The order of the hub is the order in which `Emit` got the lock. An event counts for a
source when its `Emit` has finished with it there; with a slow source that is when it
comes to close it.
-/

namespace Bbs.Events

open Bbs.Interaction

variable {E κ : Type} {hub hub' : Hub E κ} {x : Label E κ} {labels l m : List (Label E κ)} {s : Nat}

/-! ### Streams in the labels -/

/-- The events for which `Emit` got the lock. -/
def emitted (labels : List (Label E κ)) : List E :=
  labels.filterMap fun x =>
    match x.action with
    | .emit event => some event
    | _ => none

/-- The events with which `Emit` came by `s`. -/
def visited (s : Nat) (labels : List (Label E κ)) : List E :=
  labels.filterMap fun x =>
    match x.action.visit with
    | some (sub, event) => if sub = s then some event else none
    | none => none

/-- What `Next` returned on `s`. -/
def results (s : Nat) (labels : List (Label E κ)) : List (Except HubError E) :=
  labels.filterMap fun x =>
    match x.action.returning with
    | some (sub, result) => if sub = s then some result else none
    | none => none

/-- The events that `Next` returned on `s`. -/
def returned (s : Nat) (labels : List (Label E κ)) : List E :=
  (results s labels).filterMap Except.toOption

/-- The labels up to the closing of `s`, or all of them. -/
def life (s : Nat) (labels : List (Label E κ)) : List (Label E κ) :=
  labels.takeWhile fun x => x.action.closing ≠ some s

/-- The event with which an `Emit` that is under way has still to come by `s`. -/
def awaiting (s : Nat) : Option (Nat × Critical E) → List E
  | some (_, .emitting event _ rest) => if s ∈ rest then [event] else []
  | some (_, .slow event _ rest _) => if s ∈ rest then [event] else []
  | _ => []

theorem emitted_append : emitted (l ++ m) = emitted l ++ emitted m :=
  List.filterMap_append

theorem visited_append : visited s (l ++ m) = visited s l ++ visited s m :=
  List.filterMap_append

theorem results_append : results s (l ++ m) = results s l ++ results s m :=
  List.filterMap_append

theorem returned_append : returned s (l ++ m) = returned s l ++ returned s m := by
  rw [returned, results_append, List.filterMap_append]
  rfl

theorem visited_visit {sub : Nat} {event : E} (visits : x.action.visit = some (sub, event)) :
    visited s [x] = if sub = s then [event] else [] := by
  by_cases own : sub = s <;> simp [visited, visits, own]

theorem visited_unvisited (unvisited : ∀ event, x.action.visit ≠ some (s, event)) :
    visited s [x] = [] := by
  cases visits : x.action.visit with
  | none => simp [visited, visits]
  | some visit =>
      have other : visit.1 ≠ s := by
        rintro rfl
        exact unvisited visit.2 visits
      simp [visited, visits, other]

theorem results_none (none : ∀ result, x.action.returning ≠ some (s, result)) :
    results s [x] = [] := by
  cases returns : x.action.returning with
  | none => simp [results, returns]
  | some result =>
      have other : result.1 ≠ s := by
        rintro rfl
        exact none result.2 returns
      simp [results, returns, other]

theorem life_eq_self (isOpen : ∀ y ∈ labels, y.action.closing ≠ some s) : life s labels = labels := by
  rw [life, List.takeWhile_eq_self_iff]
  simpa using isOpen

theorem life_closed (isOpen : ∀ y ∈ l, y.action.closing ≠ some s)
    (closes : x.action.closing = some s) : life s (l ++ x :: m) = l := by
  rw [life, List.takeWhile_append_of_pos (by simpa using isOpen)]
  simp [closes]

theorem awaiting_length (lock : Option (Nat × Critical E)) : (awaiting s lock).length ≤ 1 := by
  unfold awaiting
  split
  · split <;> simp
  · split <;> simp
  · simp

/-! ### One step -/

/-- Taking one member off the rest of an `Emit` is a visit to that member. -/
theorem awaiting_erase {rest : Finset Nat} {sub : Nat} (event : E) (next : sub = s → sub ∈ rest) :
    (if s ∈ rest then [event] else []) =
      (if sub = s then [event] else []) ++ if s ∈ rest.erase sub then [event] else [] := by
  by_cases own : sub = s
  · subst own
    simp [next]
  · simp [own, Ne.symm own]

/-- While a source stays open, every event that `Emit` sets out with comes by it once,
before the next `Emit` sets out. -/
theorem Coherent.awaiting_step (here : Coherent hub) (step : Step hub x hub')
    (isOpen : hub.status s = some false) (still : hub'.status s = some false) :
    awaiting s hub.lock ++ emitted [x] = visited s [x] ++ awaiting s hub'.lock := by
  cases step with
  | @emit t event free =>
      have alive : hub.closed = false := by
        cases closed : hub.closed with
        | false => rfl
        | true => exact absurd isOpen (here.dead closed s)
      simp [awaiting, free, emitted, visited, Action.visit, here.member alive s isOpen]
  | @sent t size sub event rest _ _ locked next =>
      rw [locked, visited_visit rfl]
      simpa [awaiting, emitted] using awaiting_erase event fun _ => next
  | @refused t size sub event rest _ locked next =>
      rw [locked, visited_visit rfl]
      simpa [awaiting, emitted] using awaiting_erase event fun _ => next
  | @full t size sub event rest _ locked => simp [awaiting, locked, emitted, visited, Action.visit]
  | @slow t u size sub event rest source source' locked found closes =>
      have other : sub ≠ s := by
        rintro rfl
        simp [Hub.status, (HubSource.close_closed closes).2.1] at still
      rw [locked, visited_visit rfl]
      simpa [awaiting, emitted] using awaiting_erase event fun own => absurd own other
  | @overtaken t size sub event rest source locked found closes =>
      have other : sub ≠ s := by
        rintro rfl
        rw [Hub.status_of_found found, HubSource.close_refused closes] at isOpen
        cases isOpen
      rw [locked, visited_visit rfl]
      simpa [awaiting, emitted] using awaiting_erase event fun own => absurd own other
  | emitted locked => simp [awaiting, locked, emitted, visited, Action.visit]
  | closedDeliver locked | closedSilently locked | closes locked | skips locked | closed locked =>
      simp [awaiting, locked, emitted, visited, Action.visit]
  | close free => simp [awaiting, free, emitted, visited, Action.visit]
  | _ => simp [emitted, visited, Action.visit]

/-! ### The stream of a source -/

/-- What is known of source `s` after the labels `labels`, which follow its
subscription. -/
structure Stream (s : Nat) (labels : List (Label E κ)) (hub : Hub E κ) (source : HubSource E) :
    Prop where
  found : hub.sources s = some source
  /-- what was returned and what is still buffered is what came by while `s` was open -/
  faithful : returned s labels ++ source.events.buffer = visited s (life s labels)
  /-- while `s` is open, everything that was emitted has come by or is about to -/
  current : source.closed = false →
    (∀ y ∈ labels, y.action.closing ≠ some s) ∧
      emitted labels = visited s labels ++ awaiting s hub.lock
  /-- once `s` is closed, its stream ends with the labels before the closing; an event
  that was emitted by then and has not come by is that of an `Emit` under way -/
  ended : source.closed = true →
    ∃ l y m, labels = l ++ y :: m ∧ y.action.closing = some s ∧ life s labels = l ∧
      ∃ missed, emitted l = visited s l ++ missed ∧ missed.length ≤ 1
  /-- `Next` fails only once everything has been returned, and from then on always -/
  drained : ∃ failures, results s labels =
      (returned s labels).map .ok ++ List.replicate failures (.error .readFromClosedSource) ∧
    (failures ≠ 0 → source.closed = true ∧ source.events.buffer = [])

/-- A source that no step closes any more keeps the end of its stream. -/
theorem Stream.ended_snoc {source : HubSource E} (stream : Stream s labels hub source)
    (isClosed : source.closed = true) :
    life s (labels ++ [x]) = life s labels ∧
      ∃ l y m, labels ++ [x] = l ++ y :: m ∧ y.action.closing = some s ∧
        life s (labels ++ [x]) = l ∧ ∃ missed, emitted l = visited s l ++ missed ∧ missed.length ≤ 1 := by
  obtain ⟨l, y, m, rfl, closes, ends, missed⟩ := stream.ended isClosed
  have isOpen : ∀ z ∈ l, z.action.closing ≠ some s := by
    rw [← ends, life]
    intro z hz
    simpa using List.mem_takeWhile_imp hz
  have same : life s (l ++ y :: m ++ [x]) = l := by
    rw [List.append_assoc, List.cons_append]
    exact life_closed isOpen closes
  exact ⟨same.trans ends.symm, l, y, m ++ [x], by simp, closes, same, missed⟩

theorem Stream.current_snoc {source source' : HubSource E} (stream : Stream s labels hub source)
    (here : Coherent hub) (step : Step hub x hub') (isOpen : source.closed = false)
    (found : hub'.sources s = some source') (still : source'.closed = false)
    (unclosed : x.action.closing ≠ some s) :
    (∀ y ∈ labels ++ [x], y.action.closing ≠ some s) ∧
      emitted (labels ++ [x]) = visited s (labels ++ [x]) ++ awaiting s hub'.lock := by
  obtain ⟨past, complete⟩ := stream.current isOpen
  constructor
  · intro y hy
    rcases List.mem_append.mp hy with hy | hy
    · exact past y hy
    · rwa [List.mem_singleton.mp hy]
  · have now := here.awaiting_step step (s := s) (by rw [Hub.status_of_found stream.found, isOpen])
      (by rw [Hub.status_of_found found, still])
    rw [emitted_append, visited_append, complete, List.append_assoc, now, List.append_assoc]

/-- A step that neither closes the source nor brings an event by while it is open. -/
theorem Stream.visited_snoc {source : HubSource E} (stream : Stream s labels hub source)
    (unclosed : x.action.closing ≠ some s)
    (unvisited : source.closed = false → ∀ event, x.action.visit ≠ some (s, event)) :
    visited s (life s (labels ++ [x])) = visited s (life s labels) := by
  cases flag : source.closed with
  | true => rw [(stream.ended_snoc flag).1]
  | false =>
      obtain ⟨past, -⟩ := stream.current flag
      have all : ∀ y ∈ labels ++ [x], y.action.closing ≠ some s := by
        intro y hy
        rcases List.mem_append.mp hy with hy | hy
        · exact past y hy
        · rwa [List.mem_singleton.mp hy]
      rw [life_eq_self past, life_eq_self all, visited_append, visited_unvisited (unvisited flag),
        List.append_nil]

/-- An open source has never failed a `Next`. -/
theorem Stream.results_open {source : HubSource E} (stream : Stream s labels hub source)
    (isOpen : source.closed = false) : results s labels = (returned s labels).map .ok := by
  obtain ⟨failures, split, failed⟩ := stream.drained
  have none : failures = 0 := by
    by_contra some
    simp [(failed some).1] at isOpen
  rw [split, none, List.replicate_zero, List.append_nil]

theorem Stream.step_same {source : HubSource E} (stream : Stream s labels hub source)
    (here : Coherent hub) (step : Step hub x hub') (kept : hub'.sources s = hub.sources s)
    (closing : x.action.closing ≠ some s)
    (returning : ∀ result, x.action.returning ≠ some (s, result))
    (visit : ∀ event, x.action.visit = some (s, event) →
      ∃ source, hub.sources s = some source ∧ source.closed = true) :
    Stream s (labels ++ [x]) hub' source := by
  have found : hub'.sources s = some source := kept.trans stream.found
  have results : results s (labels ++ [x]) = results s labels := by
    rw [results_append, results_none returning, List.append_nil]
  have returned : returned s (labels ++ [x]) = returned s labels := by
    rw [Events.returned, results, Events.returned]
  refine ⟨found, ?_, ?_, ?_, ?_⟩
  · rw [returned, stream.faithful, stream.visited_snoc closing]
    intro isOpen event visits
    obtain ⟨source', found', isClosed⟩ := visit event visits
    rw [stream.found] at found'
    cases found'
    rw [isOpen] at isClosed
    cases isClosed
  · intro isOpen
    exact stream.current_snoc here step isOpen found isOpen closing
  · intro isClosed
    exact (stream.ended_snoc isClosed).2
  · rw [results, returned]
    exact stream.drained

theorem Stream.step_sent {source source' : HubSource E} {event : E}
    (stream : Stream s labels hub source) (here : Coherent hub) (step : Step hub x hub')
    (action : x.action = .sent s event) (sends : source.send event = .sent source')
    (found : hub'.sources s = some source') : Stream s (labels ++ [x]) hub' source' := by
  obtain ⟨isOpen, still, -, grown⟩ := HubSource.send_sent sends
  have results : results s (labels ++ [x]) = results s labels := by
    rw [results_append, results_none (by simp [action, Action.returning]), List.append_nil]
  have returned : returned s (labels ++ [x]) = returned s labels := by
    rw [Events.returned, results, Events.returned]
  have current := stream.current_snoc here step isOpen found still (by simp [action, Action.closing])
  refine ⟨found, ?_, fun _ => current, by simp [still], 0, ?_, by simp⟩
  · have visits : x.action.visit = some (s, event) := by
      rw [action]
      rfl
    have visits : visited s [x] = [event] := by
      rw [visited_visit visits, if_pos rfl]
    rw [returned, grown, ← List.append_assoc, stream.faithful, life_eq_self current.1,
      life_eq_self (stream.current isOpen).1, visited_append, visits]
  · rw [results, returned, stream.results_open isOpen, List.replicate_zero, List.append_nil]

theorem Stream.step_closed {source source' : HubSource E} (stream : Stream s labels hub source)
    (action : x.action.closing = some s) (closes : source.close = .closed source')
    (found : hub'.sources s = some source') : Stream s (labels ++ [x]) hub' source' := by
  obtain ⟨isOpen, isClosed, -, kept⟩ := HubSource.close_closed closes
  obtain ⟨past, complete⟩ := stream.current isOpen
  have results : results s (labels ++ [x]) = results s labels := by
    rw [results_append, results_none (by simp [Action.returning_of_closing action]), List.append_nil]
  have returned : returned s (labels ++ [x]) = returned s labels := by
    rw [Events.returned, results, Events.returned]
  have ends : life s (labels ++ [x]) = labels := life_closed past action
  refine ⟨found, ?_, by simp [isClosed], fun _ => ?_, 0, ?_, by simp⟩
  · rw [returned, kept, stream.faithful, ends, life_eq_self past]
  · exact ⟨labels, x, [], rfl, action, ends, _, complete, awaiting_length _⟩
  · rw [results, returned, stream.results_open isOpen, List.replicate_zero, List.append_nil]

theorem Stream.step_took {source source' : HubSource E} {result : Except HubError E}
    (stream : Stream s labels hub source) (here : Coherent hub) (step : Step hub x hub')
    (action : x.action = .next s result) (receives : source.next = some (result, source'))
    (found : hub'.sources s = some source') : Stream s (labels ++ [x]) hub' source' := by
  obtain ⟨same, -, taken⟩ := HubSource.next_some receives
  have closing : x.action.closing ≠ some s := by simp [action, Action.closing]
  have visited : visited s (life s (labels ++ [x])) = visited s (life s labels) :=
    stream.visited_snoc closing (by simp [action, Action.visit])
  have now : results s [x] = [result] := by simp [results, action, Action.returning]
  have current (isOpen : source'.closed = false) :=
    stream.current_snoc here step (same ▸ isOpen) found isOpen closing
  have ended (isClosed : source'.closed = true) := (stream.ended_snoc (x := x) (same ▸ isClosed)).2
  rcases taken with ⟨event, rfl, buffer⟩ | ⟨rfl, closed, empty, empty'⟩
  · have returned : returned s (labels ++ [x]) = returned s labels ++ [event] := by
      rw [returned_append, Events.returned, Events.returned, now]
      rfl
    refine ⟨found, ?_, current, ended, 0, ?_, by simp⟩
    · rw [returned, visited, ← stream.faithful, buffer, List.append_assoc, List.singleton_append]
    · obtain ⟨failures, split, failed⟩ := stream.drained
      -- something was buffered, so no `Next` can have failed yet
      have none : failures = 0 := by
        by_contra some
        simp [(failed some).2] at buffer
      rw [results_append, now, returned, split, none]
      simp
  · have returned : returned s (labels ++ [x]) = returned s labels := by
      rw [returned_append, Events.returned, Events.returned, now]
      exact List.append_nil _
    refine ⟨found, ?_, current, ended, ?_⟩
    · rw [returned, visited, ← stream.faithful, empty, empty']
    · obtain ⟨failures, split, -⟩ := stream.drained
      refine ⟨failures + 1, ?_, fun _ => ⟨?_, empty'⟩⟩
      · rw [results_append, now, returned, split, List.append_assoc, List.replicate_succ']
      · rw [same, ← here.flags s source stream.found, closed]

theorem Stream.step {source : HubSource E} (stream : Stream s labels hub source)
    (here : Coherent hub) (step : Step hub x hub') :
    ∃ source', Stream s (labels ++ [x]) hub' source' := by
  cases step.source here.held (here.not_panic step) s with
  | same kept closing returning visit =>
      exact ⟨source, stream.step_same here step kept closing returning visit⟩
  | made _ fresh =>
      rw [stream.found] at fresh
      cases fresh
  | sent action found sends now =>
      rw [stream.found] at found
      cases found
      exact ⟨_, stream.step_sent here step action sends now⟩
  | closed action found closes now =>
      rw [stream.found] at found
      cases found
      exact ⟨_, stream.step_closed action closes now⟩
  | took action found receives now =>
      rw [stream.found] at found
      cases found
      exact ⟨_, stream.step_took here step action receives now⟩

/-- The state in which a subscription leaves the hub. -/
theorem Step.subscribed (step : Step hub x hub') (subscribes : x.action.subscribing = some s) :
    hub'.lock = none ∧ hub'.sources s = some newSource := by
  cases step with
  | subscribe free =>
      cases subscribes
      exact ⟨free, Function.update_self ..⟩
  | _ => cases subscribes

/-- The stream of a source from its subscription on. -/
theorem Coherent.stream (here : Coherent hub) (free : hub.lock = none)
    (made : hub.sources s = some newSource) (run : Trace Step hub labels hub') :
    ∃ source, Stream s labels hub' source := by
  suffices all : Coherent hub' ∧ ∃ source, Stream s labels hub' source from all.2
  refine run.history (J := fun labels hub' => Coherent hub' ∧ ∃ source, Stream s labels hub' source)
    ⟨here, newSource, made, rfl, fun _ => ⟨by simp, ?_⟩, fun closed => ?_, 0, rfl, by simp⟩ ?_
  · rw [free]
    rfl
  · cases closed
  · rintro labels hub x hub' - ⟨here, source, stream⟩ step
    exact ⟨here.step step, stream.step here step⟩

/-! ### Why a source is closed -/

/-- Who holds the lock does not take the steps that leave the lock alone. -/
theorem Coherent.holder_ne {t u : Nat} {work : Critical E} (here : Coherent hub)
    (locked : hub.lock = some (t, work)) (busy : hub.goroutines u ≠ .critical) : u ≠ t := by
  rintro rfl
  exact (here.held u work locked).elim busy (here.calm u)

theorem close_seen {t : Nat} {rest : Finset Nat} (free : hub.lock = none)
    (run : Trace Step hub labels hub') (locked : hub'.lock = some (t, .closing rest)) :
    ⟨t, .close⟩ ∈ labels := by
  revert t rest
  refine run.history (J := fun labels (hub' : Hub E κ) => ∀ {t rest},
    hub'.lock = some (t, Critical.closing rest) → ⟨t, .close⟩ ∈ labels) (by simp [free]) ?_
  intro labels hub x hub' _ past step t rest locked
  rw [List.mem_append, List.mem_singleton]
  cases step with
  | close => cases locked; exact .inr rfl
  | closes here | skips here => cases locked; exact .inl (past here)
  | emit | sent | refused | full | slow | overtaken | emitted | closed | closedDeliver
  | closedSilently => cases locked
  | _ => exact .inl (past locked)

/-- A `send` in this run found the buffer of `sub` full, and its goroutine has done
nothing since. -/
def FoundFull (hub : Hub E κ) (labels : List (Label E κ)) (t sub : Nat) (event : E) : Prop :=
  ∃ l m, labels = l ++ ⟨t, .full sub event⟩ :: m ∧ (∀ y ∈ m, y.goroutine ≠ t) ∧
    ∃ before source, Trace Step hub l before ∧ before.sources sub = some source ∧
      source.closed = false ∧ source.events.buffer.length = maxPendingSubscriberEvents

theorem FoundFull.snoc {t sub : Nat} {event : E} (found : FoundFull hub labels t sub event)
    (other : x.goroutine ≠ t) : FoundFull hub (labels ++ [x]) t sub event := by
  obtain ⟨l, m, rfl, idle, before⟩ := found
  refine ⟨l, m ++ [x], by simp, fun y hy => ?_, before⟩
  rcases List.mem_append.mp hy with hy | hy
  · exact idle y hy
  · rwa [List.mem_singleton.mp hy]

theorem Coherent.full_seen {t size sub : Nat} {event : E} {rest : Finset Nat} (here : Coherent hub)
    (free : hub.lock = none) (run : Trace Step hub labels hub')
    (locked : hub'.lock = some (t, .slow event size rest sub)) :
    FoundFull hub labels t sub event := by
  suffices all : Coherent hub' ∧ ∀ {t size sub event rest},
      hub'.lock = some (t, .slow event size rest sub) → FoundFull hub labels t sub event from
    all.2 locked
  refine run.history (J := fun labels (hub' : Hub E κ) => Coherent hub' ∧ ∀ {t size sub event rest},
    hub'.lock = some (t, .slow event size rest sub) → FoundFull hub labels t sub event)
    ⟨here, by simp [free]⟩ ?_
  rintro labels middle x hub' run ⟨here, past⟩ step
  refine ⟨here.step step, ?_⟩
  intro t size sub event rest locked
  cases step with
  | full _ _ found sends =>
      cases locked
      obtain ⟨isOpen, full⟩ := HubSource.send_full sends
      exact ⟨labels, [], rfl, by simp, middle, _, run, found, isOpen, full⟩
  | registerCallback free | subscribeRefused free | subscribe free | subscribePanics free
  | closeRefused free | subscriberClosed free =>
      rw [free] at locked
      cases locked
  | emit | sent | refused | slow | overtaken | emitted | close | closes | skips | closed
  | closedDeliver | closedSilently => cases locked
  | call busy | deliver busy | next busy | closeSource busy | closeSourceRefused busy
  | closeSourcePanics busy =>
      exact (past locked).snoc (here.holder_ne locked (by simp [busy]))
  | sendPanics _ _ found sends => exact absurd (here.flags _ _ found) (HubSource.send_panic sends)
  | slowPanics _ found closes => exact absurd (here.flags _ _ found) (HubSource.close_panic closes)
  | closePanics _ _ found closes => exact absurd (here.flags _ _ found) (HubSource.close_panic closes)

/-- Why the step `y`, which follows the labels `labels` from the state `hub`, closed `s`:
it was asked to, or `Close` on the hub is under way, or an `Emit` had found the buffer
full. -/
inductive Cause (s : Nat) (hub : Hub E κ) (labels : List (Label E κ)) (y : Label E κ) : Prop where
  | closeSource (action : y.action = .closeSource s)
  | close (action : y.action = .closes s) (closing : ⟨y.goroutine, .close⟩ ∈ labels)
  | slow {event : E} (action : y.action = .slow s event)
      (full : FoundFull hub labels y.goroutine s event)

theorem Coherent.cause (here : Coherent hub) (free : hub.lock = none)
    (run : Trace Step hub labels hub') {y : Label E κ} {hub'' : Hub E κ} (step : Step hub' y hub'')
    (closes : y.action.closing = some s) : Cause s hub labels y := by
  cases step with
  | closeSource => cases closes; exact .closeSource rfl
  | closes locked => cases closes; exact .close rfl (close_seen free run locked)
  | slow locked => cases closes; exact .slow rfl (here.full_seen free run locked)
  | _ => cases closes

/-! ### Streams -/

/-- A `Next` on a closed source returns: the oldest event in the buffer, or the error. -/
theorem Coherent.next_returns {source : HubSource E} {t : Nat} (here : Coherent hub)
    (found : hub.sources s = some source) (isClosed : source.closed = true)
    (waits : hub.goroutines t = .next s) :
    ∃ result hub', Step hub ⟨t, .next s result⟩ hub' ∧
      result = match source.events.buffer with
        | event :: _ => .ok event
        | [] => .error .readFromClosedSource := by
  cases receives : source.next with
  | none =>
      have isOpen := HubSource.next_none receives
      rw [here.flags s source found, isClosed] at isOpen
      cases isOpen
  | some taken =>
      refine ⟨taken.1, _, .next waits found receives, ?_⟩
      obtain ⟨-, -, ⟨event, result, buffer⟩ | ⟨result, -, buffer, -⟩⟩ := HubSource.next_some receives
      · rw [result, buffer]
      · rw [result, buffer]

/-- **Each subscriber sees a stream without gaps, repetitions or changes of order.** Let
`m` be the labels that follow the subscription of `s` in any run of the hub. What `Next`
has returned on `s` and what is buffered there are, in order, the events that came by
while `s` was open, and these are all that were emitted, up to one whose `Emit` is under
way (`Stream`). The buffer is never larger than `maxPendingSubscriberEvents`. The
stream ends with the labels before the step that closes `s`, so an `Emit` that closes
`s` does not add its event, and the hub closes `s` only in `Close` or where an `Emit`
found the buffer full (`Cause`). On a closed source `Next` empties the buffer and then
always returns the error. -/
theorem subscriber_stream (run : Runs (l ++ x :: m) hub) (subscribes : x.action.subscribing = some s) :
    ∃ source, Stream s m hub source ∧
      source.events.buffer.length ≤ maxPendingSubscriberEvents ∧
      (∃ start, Runs (l ++ [x]) start ∧
        ∀ m₁ y m₂, m = m₁ ++ y :: m₂ → y.action.closing = some s →
          life s m = m₁ ∧ Cause s start m₁ y) ∧
      (source.closed = true → ∀ t, hub.goroutines t = .next s →
        ∃ result hub', Step hub ⟨t, .next s result⟩ hub' ∧
          result = match source.events.buffer with
            | event :: _ => .ok event
            | [] => .error .readFromClosedSource) := by
  obtain ⟨before, start, first, now, last⟩ := Trace.around run
  have coherent := (Runs.coherent first).step now
  obtain ⟨free, made⟩ := now.subscribed subscribes
  obtain ⟨source, stream⟩ := coherent.stream free made last
  refine ⟨source, stream, source.events.bounded, ⟨start, .snoc first now, ?_⟩, ?_⟩
  · rintro m₁ y m₂ rfl closes
    constructor
    · refine life_closed (fun z hz closes' => ?_) closes
      -- of two closings the second would be one too many
      obtain ⟨a, b, rfl⟩ := List.append_of_mem hz
      have run' : Runs ((l ++ x :: a) ++ z :: (b ++ y :: m₂)) hub := by simpa using run
      exact (Runs.closes_once run' closes' y (by simp)).1 closes
    · obtain ⟨middle, after, past, step, -⟩ := last.around
      exact coherent.cause free past step closes
  · intro isClosed t waits
    exact (Runs.coherent run).next_returns stream.found isClosed waits

/-- One event reaches the one subscriber, who reads it. -/
def readEvent : List (Label Nat Unit) :=
  [⟨0, .call .subscribe⟩, ⟨0, .subscribe 0 none⟩, ⟨1, .call (.emit 7)⟩, ⟨1, .emit 7⟩, ⟨1, .sent 0 7⟩,
    ⟨1, .emitted none⟩, ⟨2, .call (.next 0)⟩, ⟨2, .next 0 (.ok 7)⟩]

theorem subscriber_stream_readEvent : ∃ hub, Runs readEvent hub ∧ returned 0 readEvent = [7] ∧
    ∃ source, Stream 0 (readEvent.drop 2) hub source := by
  have run : ∃ hub, Runs readEvent hub ∧ True := by
    refine Trace.exists_cons (.call rfl trivial) ?_
    refine Trace.exists_cons (@Step.subscribe _ _ _ 0 0 ∅ rfl rfl rfl rfl rfl) ?_
    refine Trace.exists_cons (.call rfl trivial) ?_
    refine Trace.exists_cons (.emit rfl rfl) ?_
    refine Trace.exists_cons (.sent rfl (Finset.mem_insert_self 0 ∅) rfl rfl) ?_
    refine Trace.exists_cons (.emitted rfl rfl) ?_
    refine Trace.exists_cons (.call rfl (by intro h; cases h)) ?_
    refine Trace.exists_cons (.next rfl rfl rfl) ?_
    exact Trace.exists_nil trivial
  obtain ⟨hub, run, -⟩ := run
  refine ⟨hub, run, rfl, ?_⟩
  obtain ⟨source, stream, -⟩ := subscriber_stream (l := readEvent.take 1) (s := 0) run rfl
  exact ⟨source, stream⟩

end Bbs.Events
