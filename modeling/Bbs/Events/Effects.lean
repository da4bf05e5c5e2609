import Bbs.Events.Hub

/-!
What a step of the hub can do.

`Step.effect` sums the steps up by what they do to the sources, to the subscribers and
to the callbacks that are pending. Everything that is said about runs of the hub goes
through it, or through `Step.source`, which looks at one source only.
-/

namespace Bbs.Events

open Function (update)

variable {E κ : Type}

/-! ### Operations on a source -/

namespace HubSource

variable {source source' : HubSource E} {event : E} {result : Except HubError E}

theorem send_sent (h : source.send event = .sent source') :
    source.closed = false ∧ source'.closed = false ∧ source'.events.closed = source.events.closed ∧
      source'.events.buffer = source.events.buffer ++ [event] := by
  unfold send at h
  split at h
  · cases h
  · rename_i isOpen
    split at h
    · rename_i sent
      obtain ⟨before, after, grown⟩ := Channel.trySend_sent sent
      cases h
      exact ⟨by simpa using isOpen, by simpa using isOpen, by rw [before, after], grown⟩
    · cases h
    · cases h

theorem send_refused (h : source.send event = .refused) : source.closed = true := by
  unfold send at h
  split at h
  · assumption
  · split at h <;> cases h

theorem send_full (h : source.send event = .full) :
    source.closed = false ∧ source.events.buffer.length = maxPendingSubscriberEvents := by
  unfold send at h
  split at h
  · cases h
  · rename_i isOpen
    split at h
    · cases h
    · rename_i full
      exact ⟨by simpa using isOpen, (Channel.trySend_full full).2⟩
    · cases h

theorem send_panic (h : source.send event = .panic) : source.events.closed ≠ source.closed := by
  unfold send at h
  split at h
  · cases h
  · rename_i isOpen
    split at h
    · cases h
    · cases h
    · rename_i panic
      rw [Channel.trySend_panic panic]
      exact Ne.symm isOpen

theorem close_closed (h : source.close = .closed source') :
    source.closed = false ∧ source'.closed = true ∧ source'.events.closed = true ∧
      source'.events.buffer = source.events.buffer := by
  unfold close at h
  split at h
  · cases h
  · rename_i isOpen
    split at h
    · cases h
    · rename_i closes
      obtain ⟨-, after, same⟩ := Channel.close_some closes
      cases h
      exact ⟨by simpa using isOpen, rfl, after, same⟩

theorem close_refused (h : source.close = .refused) : source.closed = true := by
  unfold close at h
  split at h
  · assumption
  · split at h <;> cases h

theorem close_panic (h : source.close = .panic) : source.events.closed ≠ source.closed := by
  unfold close at h
  split at h
  · cases h
  · rename_i isOpen
    split at h
    · rename_i panic
      rw [Channel.close_none panic]
      exact Ne.symm isOpen
    · cases h

/-- `Next` takes the oldest event, and fails only where the channel is closed and
nothing is left. -/
theorem next_some (h : source.next = some (result, source')) :
    source'.closed = source.closed ∧ source'.events.closed = source.events.closed ∧
      ((∃ event, result = .ok event ∧ source.events.buffer = event :: source'.events.buffer) ∨
        (result = .error .readFromClosedSource ∧ source.events.closed = true ∧
          source.events.buffer = [] ∧ source'.events.buffer = [])) := by
  unfold next at h
  split at h
  · rename_i event events received
    obtain ⟨same, taken⟩ := Channel.receive_received received
    cases h
    exact ⟨rfl, same, .inl ⟨event, rfl, taken⟩⟩
  · rename_i drained
    obtain ⟨closed, empty⟩ := Channel.receive_drained drained
    cases h
    exact ⟨rfl, rfl, .inr ⟨rfl, closed, empty, empty⟩⟩
  · cases h

theorem next_none (h : source.next = none) : source.events.closed = false := by
  unfold next at h
  split at h
  · cases h
  · cases h
  · rename_i blocked
    exact Channel.receive_blocked blocked

end HubSource

/-! ### What an action says -/

namespace Action

/-- The source that the action used or removed, if any. -/
def touches : Action E κ → Option Nat
  | .subscribe sub _ => some sub
  | .sent sub _ => some sub
  | .refused sub _ => some sub
  | .slow sub _ => some sub
  | .overtaken sub _ => some sub
  | .closes sub => some sub
  | .closeSource sub => some sub
  | .subscriberClosed sub _ => some sub
  | .next sub _ => some sub
  | _ => none

/-- The source that the action closed. -/
def closing : Action E κ → Option Nat
  | .slow sub _ => some sub
  | .closes sub => some sub
  | .closeSource sub => some sub
  | _ => none

/-- The source whose visit by an `Emit` the action completed, and the event. -/
def visit : Action E κ → Option (Nat × E)
  | .sent sub event => some (sub, event)
  | .refused sub event => some (sub, event)
  | .slow sub event => some (sub, event)
  | .overtaken sub event => some (sub, event)
  | _ => none

/-- The source whose `subscriberClosed` the action ran. -/
def dropping : Action E κ → Option Nat
  | .subscriberClosed sub _ => some sub
  | _ => none

/-- The source that the action made. -/
def subscribing : Action E κ → Option Nat
  | .subscribe sub _ => some sub
  | _ => none

/-- The source on which `Next` returned, and what. -/
def returning : Action E κ → Option (Nat × Except HubError E)
  | .next sub result => some (sub, result)
  | _ => none

theorem of_touches_none {a : Action E κ} (h : a.touches = none) :
    a.subscribing = none ∧ a.closing = none ∧ a.dropping = none ∧ a.visit = none ∧
      a.returning = none := by
  cases a <;> first | exact ⟨rfl, rfl, rfl, rfl, rfl⟩ | cases h

end Action

/-! ### Pending callbacks -/

/-- Goroutine `u` is about to run `subscriberClosed` for `sub`. -/
def Hub.Pending (hub : Hub E κ) (sub u : Nat) : Prop :=
  hub.goroutines u = .subscriberClosed sub

/-- The holder of the lock does nothing else meanwhile. -/
def Hub.Held (hub : Hub E κ) : Prop :=
  ∀ t work, hub.lock = some (t, work) → hub.goroutines t = .critical ∨ hub.goroutines t = .panicked

theorem Goroutine.finish_ne (reports : Option (κ × Nat)) (sub : Nat) :
    (finish reports : Goroutine E κ) ≠ .subscriberClosed sub := by
  intro h
  rcases reports with _ | ⟨cb, count⟩ <;> cases h

theorem Goroutine.Callable.ne {hub : Hub E κ} {operation : Goroutine E κ}
    (callable : operation.Callable hub) (sub : Nat) : operation ≠ .subscriberClosed sub := by
  rintro rfl
  exact callable

theorem pending_update {goroutines : Nat → Goroutine E κ} {t : Nat} {g : Goroutine E κ}
    (before : ∀ sub, goroutines t ≠ .subscriberClosed sub) (after : ∀ sub, g ≠ .subscriberClosed sub)
    (sub u : Nat) :
    update goroutines t g u = .subscriberClosed sub ↔ goroutines u = .subscriberClosed sub := by
  by_cases here : u = t
  · subst here
    simp [before, after]
  · rw [Function.update_of_ne here]

theorem pending_spawn {goroutines : Nat → Goroutine E κ} {v : Nat} (idle : goroutines v = .idle)
    (sub sub' u : Nat) :
    update goroutines v (.subscriberClosed sub) u = .subscriberClosed sub' ↔
      goroutines u = .subscriberClosed sub' ∨ (sub' = sub ∧ u = v) := by
  by_cases here : u = v
  · subst here
    simp [idle, eq_comm]
  · simp [here]

theorem busy_update {goroutines : Nat → Goroutine E κ} {t u : Nat} {g : Goroutine E κ}
    (busy : goroutines t = .critical ∨ goroutines t = .panicked)
    (other : goroutines u ≠ .critical ∧ goroutines u ≠ .panicked) :
    update goroutines u g t = .critical ∨ update goroutines u g t = .panicked := by
  have apart : t ≠ u := by
    rintro rfl
    exact busy.elim other.1 other.2
  rwa [Function.update_of_ne apart]

theorem Step.held {hub hub' : Hub E κ} {x : Label E κ} (step : Step hub x hub') (held : hub.Held) :
    hub'.Held := by
  intro t work locked
  cases step with
  | registerCallback free | subscribeRefused free | subscribe free | subscribePanics free
  | closeRefused free | subscriberClosed free =>
      rw [free] at locked
      cases locked
  | emitted | closedDeliver | closedSilently => cases locked
  | emit | close =>
      cases locked
      exact .inl (Function.update_self ..)
  | call here | deliver here | next here | closeSourceRefused here =>
      exact busy_update (held _ _ locked) (by simp [here])
  | closeSourcePanics here =>
      exact busy_update (held _ _ locked) (by simp [here])
  | closeSource here found closes idle =>
      refine busy_update (busy_update (held _ _ locked) (by simp [here])) ?_
      rw [Function.update_of_ne (by rintro rfl; simp [here] at idle)]
      simp [idle]
  | sent here | refused here | full here | overtaken here | skips here | closed here =>
      cases locked
      exact held _ _ here
  | slow here found closes idle | closes here next found closes idle =>
      cases locked
      exact busy_update (held _ _ here) (by simp [idle])
  | sendPanics here | slowPanics here | closePanics here =>
      cases here.symm.trans locked
      exact .inr (Function.update_self ..)

/-! ### Effects -/

/-- What a step does to the sources, the subscribers and the pending callbacks. -/
inductive Effect (hub : Hub E κ) (x : Label E κ) (hub' : Hub E κ) : Prop where
  | quiet (action : x.action.touches = none) (sources : hub'.sources = hub.sources)
      (subscribers : hub'.subscribers = hub.subscribers) (closed : hub'.closed = hub.closed)
      (pending : ∀ s u, hub'.Pending s u ↔ hub.Pending s u)
  | subscribed {sub : Nat} {reports : Option (κ × Nat)} (action : x.action = .subscribe sub reports)
      (alive : hub.closed = false) (fresh : hub.sources sub = none)
      (sources : hub'.sources = update hub.sources sub (some newSource))
      (subscribers : hub'.subscribers = some (insert sub hub.members))
      (closed : hub'.closed = hub.closed) (pending : ∀ s u, hub'.Pending s u ↔ hub.Pending s u)
  | sent {sub : Nat} {event : E} {source source' : HubSource E} (action : x.action = .sent sub event)
      (found : hub.sources sub = some source) (sends : source.send event = .sent source')
      (sources : hub'.sources = update hub.sources sub (some source'))
      (subscribers : hub'.subscribers = hub.subscribers) (closed : hub'.closed = hub.closed)
      (pending : ∀ s u, hub'.Pending s u ↔ hub.Pending s u)
  /-- a source is closed; `Emit` removes it as well -/
  | closing {sub v : Nat} {source source' : HubSource E} (action : x.action.closing = some sub)
      (found : hub.sources sub = some source) (closes : source.close = .closed source')
      (sources : hub'.sources = update hub.sources sub (some source'))
      (subscribers : hub'.subscribers = hub.subscribers ∨
        hub'.subscribers = hub.subscribers.map fun members => members.erase sub)
      (closed : hub'.closed = hub.closed)
      (pending : ∀ s u, hub'.Pending s u ↔ hub.Pending s u ∨ (s = sub ∧ u = v))
  /-- `Emit` removes a source that it found closed -/
  | removed {sub : Nat} {event : E} {source : HubSource E}
      (action : x.action = .refused sub event ∨ x.action = .overtaken sub event)
      (found : hub.sources sub = some source) (dead : source.closed = true)
      (sources : hub'.sources = hub.sources)
      (subscribers : hub'.subscribers = hub.subscribers.map fun members => members.erase sub)
      (closed : hub'.closed = hub.closed) (pending : ∀ s u, hub'.Pending s u ↔ hub.Pending s u)
  | dropped {sub : Nat} {reports : Option (κ × Nat)}
      (action : x.action = .subscriberClosed sub reports) (called : hub.Pending sub x.goroutine)
      (sources : hub'.sources = hub.sources)
      (subscribers : hub'.subscribers = hub.subscribers.map fun members => members.erase sub)
      (closed : hub'.closed = hub.closed)
      (pending : ∀ s u, hub'.Pending s u ↔ u ≠ x.goroutine ∧ hub.Pending s u)
  | took {sub : Nat} {source source' : HubSource E} {result : Except HubError E}
      (action : x.action = .next sub result) (found : hub.sources sub = some source)
      (receives : source.next = some (result, source'))
      (sources : hub'.sources = update hub.sources sub (some source'))
      (subscribers : hub'.subscribers = hub.subscribers) (closed : hub'.closed = hub.closed)
      (pending : ∀ s u, hub'.Pending s u ↔ hub.Pending s u)
  | shut {t : Nat} {reports : Option (κ × Nat)} (action : x.action = .closed reports)
      (here : hub.lock = some (t, .closing ∅)) (sources : hub'.sources = hub.sources)
      (subscribers : hub'.subscribers = none) (closed : hub'.closed = true)
      (pending : ∀ s u, hub'.Pending s u ↔ hub.Pending s u)
  | panicked (action : x.action = .panic)

theorem Hub.Held.ne {hub : Hub E κ} {t : Nat} {work : Critical E} (held : hub.Held)
    (here : hub.lock = some (t, work)) (sub : Nat) : hub.goroutines t ≠ .subscriberClosed sub := by
  intro pending
  rcases held t work here with h | h <;> rw [h] at pending <;> cases pending

theorem Step.effect {hub hub' : Hub E κ} {x : Label E κ} (step : Step hub x hub')
    (held : hub.Held) : Effect hub x hub' := by
  -- a goroutine that runs no callback, before or after, leaves the pending ones as they are
  have steady {t : Nat} {g : Goroutine E κ} (before : ∀ s, hub.goroutines t ≠ .subscriberClosed s)
      (after : ∀ s, g ≠ .subscriberClosed s) (s u : Nat) :
      update hub.goroutines t g u = .subscriberClosed s ↔ hub.Pending s u :=
    pending_update before after s u
  cases step with
  | call idle callable =>
      exact .quiet rfl rfl rfl rfl (steady (by simp [idle]) callable.ne)
  | registerCallback _ here =>
      exact .quiet rfl rfl rfl rfl (steady (by simp [here]) (Goroutine.finish_ne _))
  | subscribeRefused _ here | closeRefused _ here | closeSourceRefused here | deliver here =>
      exact .quiet rfl rfl rfl rfl (steady (by simp [here]) (by simp))
  | emit _ here | close _ here =>
      exact .quiet rfl rfl rfl rfl (steady (by simp [here]) (by simp))
  | full | skips => exact .quiet rfl rfl rfl rfl fun _ _ => Iff.rfl
  | emitted here =>
      exact .quiet rfl rfl rfl rfl (steady (held.ne here) (Goroutine.finish_ne _))
  | closedDeliver here | closedSilently here =>
      exact .quiet rfl rfl rfl rfl (steady (held.ne here) (by simp))
  | subscribe _ here alive some fresh =>
      refine .subscribed rfl alive fresh rfl ?_ rfl (steady (by simp [here]) (Goroutine.finish_ne _))
      simp only [Hub.members, some, Option.getD_some]
  | sent _ _ found sends => exact .sent rfl found sends rfl rfl rfl fun _ _ => Iff.rfl
  | refused _ _ found sends =>
      exact .removed (.inl rfl) found (HubSource.send_refused sends) rfl rfl rfl fun _ _ => Iff.rfl
  | overtaken _ found closes =>
      exact .removed (.inr rfl) found (HubSource.close_refused closes) rfl rfl rfl fun _ _ => Iff.rfl
  | slow _ found closes idle =>
      exact .closing rfl found closes rfl (.inr rfl) rfl (pending_spawn idle _)
  | closes _ _ found closes idle =>
      exact .closing rfl found closes rfl (.inl rfl) rfl (pending_spawn idle _)
  | @closeSource t v sub _ _ here found closes idle =>
      refine .closing (v := v) rfl found closes rfl (.inl rfl) rfl fun s u => ?_
      have idle' : update hub.goroutines t .done v = .idle := by
        rwa [Function.update_of_ne (by rintro rfl; simp [here] at idle)]
      exact (pending_spawn idle' sub s u).trans
        (or_congr (steady (by simp [here]) (by simp) s u) Iff.rfl)
  | @subscriberClosed t sub _ here =>
      refine .dropped rfl here rfl rfl rfl fun s u => ?_
      simp only [Hub.Pending]
      by_cases own : u = t
      · subst own
        simp [Goroutine.finish_ne]
      · simp [own]
  | next here found receives =>
      exact .took rfl found receives rfl rfl rfl (steady (by simp [here]) (by simp))
  | closed here => exact .shut rfl here rfl rfl rfl fun _ _ => Iff.rfl
  | subscribePanics | sendPanics | slowPanics | closePanics | closeSourcePanics =>
      exact .panicked rfl

/-- What a step does to one source. -/
inductive SourceStep (s : Nat) (before : Option (HubSource E)) (a : Action E κ)
    (after : Option (HubSource E)) : Prop where
  | same (kept : after = before) (closing : a.closing ≠ some s)
      (returning : ∀ result, a.returning ≠ some (s, result))
      (visit : ∀ event, a.visit = some (s, event) →
        ∃ source, before = some source ∧ source.closed = true)
  | made {reports : Option (κ × Nat)} (action : a = .subscribe s reports) (fresh : before = none)
      (now : after = some newSource)
  | sent {event : E} {source source' : HubSource E} (action : a = .sent s event)
      (found : before = some source) (sends : source.send event = .sent source')
      (now : after = some source')
  | closed {source source' : HubSource E} (action : a.closing = some s)
      (found : before = some source) (closes : source.close = .closed source')
      (now : after = some source')
  | took {source source' : HubSource E} {result : Except HubError E} (action : a = .next s result)
      (found : before = some source) (receives : source.next = some (result, source'))
      (now : after = some source')

theorem Action.visit_of_closing {a : Action E κ} {s sub : Nat} {event : E}
    (closes : a.closing = some sub) (visits : a.visit = some (s, event)) : s = sub := by
  cases a <;> cases closes <;> cases visits
  rfl

theorem Action.returning_of_closing {a : Action E κ} {sub : Nat} (closes : a.closing = some sub) :
    a.returning = none := by
  cases a <;> cases closes <;> rfl

theorem Step.source {hub hub' : Hub E κ} {x : Label E κ} (step : Step hub x hub') (held : hub.Held)
    (calm : x.action ≠ .panic) (s : Nat) :
    SourceStep s (hub.sources s) x.action (hub'.sources s) := by
  cases step.effect held with
  | quiet action sources =>
      obtain ⟨-, closing, -, visit, returning⟩ := Action.of_touches_none action
      exact .same (by rw [sources]) (by simp [closing]) (by simp [returning]) (by simp [visit])
  | @subscribed sub _ action _ fresh sources =>
      by_cases own : s = sub
      · subst own
        exact .made action fresh (by rw [sources, Function.update_self])
      · exact .same (by rw [sources, Function.update_of_ne own]) (by simp [action, Action.closing])
          (by simp [action, Action.returning]) (by simp [action, Action.visit])
  | @sent sub event _ _ action found sends sources =>
      by_cases own : s = sub
      · subst own
        exact .sent action found sends (by rw [sources, Function.update_self])
      · exact .same (by rw [sources, Function.update_of_ne own]) (by simp [action, Action.closing])
          (by simp [action, Action.returning]) (by simp [action, Action.visit, Ne.symm own])
  | @closing sub _ _ _ action found closes sources =>
      by_cases own : s = sub
      · subst own
        exact .closed action found closes (by rw [sources, Function.update_self])
      · exact .same (by rw [sources, Function.update_of_ne own]) (by simp [action, Ne.symm own])
          (by simp [Action.returning_of_closing action])
          fun event visits => absurd (Action.visit_of_closing action visits) own
  | @removed sub _ source action found dead sources =>
      refine .same (by rw [sources]) ?_ ?_ fun event visits => ⟨source, ?_, dead⟩
      · rcases action with action | action <;> simp [action, Action.closing]
      · rcases action with action | action <;> simp [action, Action.returning]
      · have own : s = sub := by
          rcases action with action | action <;> rw [action] at visits <;> cases visits <;> rfl
        rw [own, found]
  | dropped action _ sources | shut action _ sources =>
      exact .same (by rw [sources]) (by simp [action, Action.closing])
        (by simp [action, Action.returning]) (by simp [action, Action.visit])
  | @took sub _ _ _ action found receives sources =>
      by_cases own : s = sub
      · subst own
        exact .took action found receives (by rw [sources, Function.update_self])
      · exact .same (by rw [sources, Function.update_of_ne own]) (by simp [action, Action.closing])
          (by simp [action, Action.returning, Ne.symm own]) (by simp [action, Action.visit])
  | panicked action => exact absurd action calm

end Bbs.Events
