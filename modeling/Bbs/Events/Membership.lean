import Bbs.Events.Effects

/-!
Who is a subscriber.

Sources are removed from the hub on three paths: by an `Emit` that fails to send, by the
`subscriberClosed` callback that every closing starts, and by `Close`, which drops the
whole map. These may overlap for one source. What they have in common is that none of
them removes a source that is open; and a closed source is still to be removed by the
callback that is pending.
-/

namespace Bbs.Events

open Bbs.Interaction
open Function (update)

variable {E κ : Type} {hub hub' : Hub E κ} {x : Label E κ} {labels : List (Label E κ)}

/-! ### The view of one step -/

/-- The `closed` flag of a source that has been made. -/
def Hub.status (hub : Hub E κ) (sub : Nat) : Option Bool :=
  (hub.sources sub).map fun source => source.closed

theorem Hub.status_of_found {sub : Nat} {source : HubSource E} (found : hub.sources sub = some source) :
    hub.status sub = some source.closed := by
  rw [Hub.status, found, Option.map_some]

theorem Hub.status_congr (same : hub'.sources = hub.sources) : hub'.status = hub.status := by
  funext s
  rw [Hub.status, Hub.status, same]

theorem Hub.status_update {sub : Nat} {source' : HubSource E}
    (sources : hub'.sources = update hub.sources sub (some source')) :
    hub'.status = update hub.status sub (some source'.closed) := by
  funext s
  rw [Hub.status, sources]
  by_cases here : s = sub
  · subst here
    rw [Function.update_self, Function.update_self, Option.map_some]
  · rw [Function.update_of_ne here, Function.update_of_ne here, Hub.status]

/-- A step that replaces a source without changing its flag. -/
theorem Hub.status_replace {sub : Nat} {source source' : HubSource E}
    (found : hub.sources sub = some source) (same : source'.closed = source.closed)
    (sources : hub'.sources = update hub.sources sub (some source')) : hub'.status = hub.status := by
  rw [Hub.status_update sources, same, ← Hub.status_of_found found, Function.update_eq_self]

/-- A step, as far as membership is concerned. -/
inductive Shift (hub : Hub E κ) (x : Label E κ) (hub' : Hub E κ) : Prop where
  | none (subscribing : x.action.subscribing = .none) (closing : x.action.closing = .none)
      (dropping : x.action.dropping = .none)
      (visit : ∀ s event, x.action.visit = some (s, event) → hub.status s = some false)
      (status : hub'.status = hub.status) (subscribers : hub'.subscribers = hub.subscribers)
      (closed : hub'.closed = hub.closed) (pending : ∀ s u, hub'.Pending s u ↔ hub.Pending s u)
  | subscribed {sub : Nat} {reports : Option (κ × Nat)} (action : x.action = .subscribe sub reports)
      (alive : hub.closed = false) (fresh : hub.status sub = .none)
      (status : hub'.status = update hub.status sub (some false))
      (subscribers : hub'.subscribers = some (insert sub hub.members))
      (closed : hub'.closed = hub.closed) (pending : ∀ s u, hub'.Pending s u ↔ hub.Pending s u)
  | closing {sub v : Nat} (action : x.action.closing = some sub)
      (isOpen : hub.status sub = some false)
      (status : hub'.status = update hub.status sub (some true))
      (subscribers : hub'.subscribers = hub.subscribers ∨
        hub'.subscribers = hub.subscribers.map fun members => members.erase sub)
      (closed : hub'.closed = hub.closed)
      (pending : ∀ s u, hub'.Pending s u ↔ hub.Pending s u ∨ (s = sub ∧ u = v))
  | removed {sub : Nat} {event : E}
      (action : x.action = .refused sub event ∨ x.action = .overtaken sub event)
      (dead : hub.status sub = some true) (status : hub'.status = hub.status)
      (subscribers : hub'.subscribers = hub.subscribers.map fun members => members.erase sub)
      (closed : hub'.closed = hub.closed) (pending : ∀ s u, hub'.Pending s u ↔ hub.Pending s u)
  | dropped {sub : Nat} {reports : Option (κ × Nat)}
      (action : x.action = .subscriberClosed sub reports) (called : hub.Pending sub x.goroutine)
      (status : hub'.status = hub.status)
      (subscribers : hub'.subscribers = hub.subscribers.map fun members => members.erase sub)
      (closed : hub'.closed = hub.closed)
      (pending : ∀ s u, hub'.Pending s u ↔ u ≠ x.goroutine ∧ hub.Pending s u)
  | shut {t : Nat} {reports : Option (κ × Nat)} (action : x.action = .closed reports)
      (here : hub.lock = some (t, .closing ∅)) (status : hub'.status = hub.status)
      (subscribers : hub'.subscribers = .none) (closed : hub'.closed = true)
      (pending : ∀ s u, hub'.Pending s u ↔ hub.Pending s u)
  | panicked (action : x.action = .panic)

theorem Step.shift (step : Step hub x hub') (held : hub.Held) : Shift hub x hub' := by
  cases step.effect held with
  | quiet action sources subscribers closed pending =>
      obtain ⟨subscribing, closing, dropping, visit, -⟩ := Action.of_touches_none action
      exact .none subscribing closing dropping (by simp [visit]) (Hub.status_congr sources)
        subscribers closed pending
  | subscribed action alive fresh sources subscribers closed pending =>
      refine .subscribed action alive ?_ (Hub.status_update sources) subscribers closed pending
      rw [Hub.status, fresh, Option.map_none]
  | @sent sub event source source' action found sends sources subscribers closed pending =>
      obtain ⟨before, after, -⟩ := HubSource.send_sent sends
      refine .none ?_ ?_ ?_ ?_ (Hub.status_replace found (after.trans before.symm) sources)
        subscribers closed pending
      · rw [action]; rfl
      · rw [action]; rfl
      · rw [action]; rfl
      · intro s event' visits
        rw [action] at visits
        cases visits
        rw [Hub.status_of_found found, before]
  | closing action found closes sources subscribers closed pending =>
      obtain ⟨before, after, -⟩ := HubSource.close_closed closes
      refine .closing action ?_ ?_ subscribers closed pending
      · rw [Hub.status_of_found found, before]
      · rw [Hub.status_update sources, after]
  | removed action found dead sources subscribers closed pending =>
      refine .removed action ?_ (Hub.status_congr sources) subscribers closed pending
      rw [Hub.status_of_found found, dead]
  | dropped action called sources subscribers closed pending =>
      exact .dropped action called (Hub.status_congr sources) subscribers closed pending
  | took action found receives sources subscribers closed pending =>
      obtain ⟨same, -⟩ := HubSource.next_some receives
      refine .none ?_ ?_ ?_ ?_ (Hub.status_replace found same sources) subscribers closed pending
      · rw [action]; rfl
      · rw [action]; rfl
      · rw [action]; rfl
      · intro s event visits
        rw [action] at visits
        cases visits
  | shut action here sources subscribers closed pending =>
      exact .shut action here (Hub.status_congr sources) subscribers closed pending
  | panicked action => exact .panicked action

/-! ### The invariant -/

/-- Membership, as every step leaves it. -/
structure Consistent (hub : Hub E κ) : Prop where
  nil : hub.subscribers = none ↔ hub.closed = true
  member : hub.closed = false → ∀ s, hub.status s = some false → s ∈ hub.members
  dead : hub.closed = true → ∀ s, hub.status s ≠ some false
  waiting : ∀ s ∈ hub.members, hub.status s = some true → ∃ u, hub.Pending s u
  called : ∀ s u, hub.Pending s u → hub.status s = some true

theorem mem_members_erase {s sub : Nat}
    (subscribers : hub'.subscribers = hub.subscribers.map fun members => members.erase sub) :
    s ∈ hub'.members ↔ s ≠ sub ∧ s ∈ hub.members := by
  rw [Hub.members, Hub.members, subscribers]
  cases hub.subscribers with
  | none => simp
  | some members => simp

/-- The steps that remove no more than a source that is closed keep the invariant. -/
theorem Consistent.erase {sub : Nat} (here : Consistent hub) (dead : hub'.status sub = some true)
    (kept : ∀ s, s ≠ sub → hub'.status s = hub.status s)
    (subscribers : hub'.subscribers = hub.subscribers.map fun members => members.erase sub)
    (closed : hub'.closed = hub.closed)
    (pending : ∀ s u, s ≠ sub → (hub'.Pending s u ↔ hub.Pending s u)) : Consistent hub' := by
  refine ⟨?_, ?_, ?_, ?_, ?_⟩
  · rw [subscribers, closed, Option.map_eq_none_iff]
    exact here.nil
  · intro alive s isOpen
    have other : s ≠ sub := by
      rintro rfl
      simp [dead] at isOpen
    rw [closed] at alive
    rw [kept s other] at isOpen
    exact (mem_members_erase subscribers).mpr ⟨other, here.member alive s isOpen⟩
  · intro shut s isOpen
    have other : s ≠ sub := by
      rintro rfl
      simp [dead] at isOpen
    rw [closed] at shut
    rw [kept s other] at isOpen
    exact here.dead shut s isOpen
  · intro s mem isClosed
    obtain ⟨other, mem⟩ := (mem_members_erase subscribers).mp mem
    rw [kept s other] at isClosed
    obtain ⟨u, waits⟩ := here.waiting s mem isClosed
    exact ⟨u, (pending s u other).mpr waits⟩
  · intro s u waits
    by_cases other : s = sub
    · rw [other, dead]
    · rw [kept s other]
      exact here.called s u ((pending s u other).mp waits)

theorem Consistent.congr (here : Consistent hub) (status : hub'.status = hub.status)
    (subscribers : hub'.subscribers = hub.subscribers) (closed : hub'.closed = hub.closed)
    (pending : ∀ s u, hub'.Pending s u ↔ hub.Pending s u) : Consistent hub' := by
  have members : hub'.members = hub.members := by rw [Hub.members, Hub.members, subscribers]
  refine ⟨?_, ?_, ?_, ?_, ?_⟩
  · rw [subscribers, closed]
    exact here.nil
  · rw [closed, status, members]
    exact here.member
  · rw [closed, status]
    exact here.dead
  · rw [members, status]
    simpa only [pending] using here.waiting
  · rw [status]
    simpa only [pending] using here.called

/-- A source that is new is put into the map. -/
theorem Consistent.insert (here : Consistent hub) {sub : Nat} (alive : hub.closed = false)
    (fresh : hub.status sub = none) (status : hub'.status = update hub.status sub (some false))
    (subscribers : hub'.subscribers = some (insert sub hub.members))
    (closed : hub'.closed = hub.closed) (pending : ∀ s u, hub'.Pending s u ↔ hub.Pending s u) :
    Consistent hub' := by
  have members : hub'.members = Insert.insert sub hub.members := by
    rw [Hub.members, subscribers, Option.getD_some]
  refine ⟨?_, ?_, ?_, ?_, ?_⟩
  · simp [subscribers, closed, alive]
  · intro _ s isOpen
    rw [members, Finset.mem_insert]
    by_cases own : s = sub
    · exact .inl own
    · rw [status, Function.update_of_ne own] at isOpen
      exact .inr (here.member alive s isOpen)
  · rw [closed, alive]
    simp
  · intro s mem isClosed
    by_cases own : s = sub
    · subst own
      simp [status] at isClosed
    · rw [status, Function.update_of_ne own] at isClosed
      rw [members, Finset.mem_insert, or_iff_right own] at mem
      obtain ⟨u, waits⟩ := here.waiting s mem isClosed
      exact ⟨u, (pending s u).mpr waits⟩
  · intro s u waits
    have isClosed := here.called s u ((pending s u).mp waits)
    have other : s ≠ sub := by
      rintro rfl
      simp [fresh] at isClosed
    rw [status, Function.update_of_ne other]
    exact isClosed

/-- A source is closed and stays in the map until its callback has run. -/
theorem Consistent.close (here : Consistent hub) {sub v : Nat} (isOpen : hub.status sub = some false)
    (status : hub'.status = update hub.status sub (some true))
    (subscribers : hub'.subscribers = hub.subscribers) (closed : hub'.closed = hub.closed)
    (pending : ∀ s u, hub'.Pending s u ↔ hub.Pending s u ∨ (s = sub ∧ u = v)) :
    Consistent hub' := by
  have dead : hub'.status sub = some true := by rw [status, Function.update_self]
  have kept (s : Nat) (other : s ≠ sub) : hub'.status s = hub.status s := by
    rw [status, Function.update_of_ne other]
  have members : hub'.members = hub.members := by rw [Hub.members, Hub.members, subscribers]
  refine ⟨?_, ?_, ?_, ?_, ?_⟩
  · rw [subscribers, closed]
    exact here.nil
  · intro alive s isOpen'
    rw [closed] at alive
    by_cases own : s = sub
    · subst own
      simp [dead] at isOpen'
    · rw [kept s own] at isOpen'
      rw [members]
      exact here.member alive s isOpen'
  · intro shut
    rw [closed] at shut
    exact absurd isOpen (here.dead shut sub)
  · intro s mem isClosed
    by_cases own : s = sub
    · exact ⟨v, (pending s v).mpr (.inr ⟨own, rfl⟩)⟩
    · rw [kept s own] at isClosed
      rw [members] at mem
      obtain ⟨u, waits⟩ := here.waiting s mem isClosed
      exact ⟨u, (pending s u).mpr (.inl waits)⟩
  · intro s u waits
    by_cases own : s = sub
    · rw [own, dead]
    · rw [kept s own]
      exact here.called s u (((pending s u).mp waits).resolve_right fun h => own h.1)

theorem Consistent.step (here : Consistent hub) (shift : Shift hub x hub')
    (calm : x.action ≠ .panic)
    (emptied : ∀ t, hub.lock = some (t, .closing ∅) → ∀ s, hub.status s ≠ some false) :
    Consistent hub' := by
  cases shift with
  | none _ _ _ _ status subscribers closed pending => exact here.congr status subscribers closed pending
  | subscribed action alive fresh status subscribers closed pending =>
      exact here.insert alive fresh status subscribers closed pending
  | @closing sub v action isOpen status subscribers closed pending =>
      rcases subscribers with same | erased
      · exact here.close isOpen status same closed pending
      · have dead : hub'.status sub = some true := by rw [status, Function.update_self]
        refine here.erase dead (fun s other => ?_) erased closed fun s u other => ?_
        · rw [status, Function.update_of_ne other]
        · rw [pending, or_iff_left fun h => other h.1]
  | removed action dead status subscribers closed pending =>
      refine here.erase (by rw [status, dead]) (fun s _ => by rw [status]) subscribers closed
        fun s u _ => pending s u
  | @dropped sub _ action called status subscribers closed pending =>
      have dead : hub'.status sub = some true := by rw [status, here.called _ _ called]
      refine here.erase dead (fun s _ => by rw [status]) subscribers closed fun s u other => ?_
      rw [pending, and_iff_right_iff_imp]
      rintro waits rfl
      rw [Hub.Pending, called] at waits
      cases waits
      exact other rfl
  | shut action locked status subscribers closed pending =>
      refine ⟨by simp [subscribers, closed], by simp [closed], fun _ => ?_, ?_, ?_⟩
      · rw [status]
        exact emptied _ locked
      · simp [Hub.members, subscribers]
      · rw [status]
        simpa only [pending] using here.called
  | panicked action => exact absurd action calm

/-- The whole invariant of the hub. -/
structure Coherent (hub : Hub E κ) : Prop extends Consistent hub where
  held : hub.Held
  flags : ∀ s source, hub.sources s = some source → source.events.closed = source.closed
  /-- `closeSubscribers` has still to close whatever is open -/
  closing : ∀ t rest, hub.lock = some (t, .closing rest) → ∀ s, hub.status s = some false → s ∈ rest
  calm : ∀ t, hub.goroutines t ≠ .panicked

theorem coherent_newHub : Coherent (newHub : Hub E κ) where
  nil := by simp [newHub]
  member := by simp [newHub, Hub.status]
  dead := by simp [newHub]
  waiting := by simp [newHub, Hub.members]
  called := by simp [newHub, Hub.Pending]
  held := by simp [Hub.Held, newHub]
  flags := by simp [newHub]
  closing := by simp [newHub]
  calm := by simp [newHub]

/-- Nothing panics: the flag of a source tells whether its channel is closed, and the
map is nil only when the hub is closed. -/
theorem Coherent.not_panic (here : Coherent hub) (step : Step hub x hub') : x.action ≠ .panic := by
  intro panics
  cases step with
  | subscribePanics _ _ alive held =>
      rw [here.nil.mp held] at alive
      cases alive
  | sendPanics _ _ found sends => exact HubSource.send_panic sends (here.flags _ _ found)
  | slowPanics _ found closes => exact HubSource.close_panic closes (here.flags _ _ found)
  | closePanics _ _ found closes => exact HubSource.close_panic closes (here.flags _ _ found)
  | closeSourcePanics _ found closes => exact HubSource.close_panic closes (here.flags _ _ found)
  | _ => cases panics

theorem flags_update {sources : Nat → Option (HubSource E)} {sub : Nat} {source' : HubSource E}
    (flags : ∀ s source, sources s = some source → source.events.closed = source.closed)
    (own : source'.events.closed = source'.closed) (s : Nat) (source : HubSource E)
    (found : update sources sub (some source') s = some source) :
    source.events.closed = source.closed := by
  by_cases here : s = sub
  · subst here
    rw [Function.update_self] at found
    cases found
    exact own
  · rw [Function.update_of_ne here] at found
    exact flags s source found

theorem Coherent.flags_step (here : Coherent hub) (step : Step hub x hub') :
    ∀ s source, hub'.sources s = some source → source.events.closed = source.closed := by
  cases step.effect here.held with
  | quiet _ sources | removed _ _ _ sources | dropped _ _ sources | shut _ _ sources =>
      rw [sources]
      exact here.flags
  | subscribed _ _ _ sources =>
      rw [sources]
      exact flags_update here.flags rfl
  | sent _ found sends sources =>
      rw [sources]
      obtain ⟨before, after, same, -⟩ := HubSource.send_sent sends
      apply flags_update here.flags
      rw [same, here.flags _ _ found, before, after]
  | closing _ found closes sources =>
      rw [sources]
      obtain ⟨-, after, closed, -⟩ := HubSource.close_closed closes
      apply flags_update here.flags
      rw [after, closed]
  | took _ found receives sources =>
      rw [sources]
      obtain ⟨same, same', -⟩ := HubSource.next_some receives
      apply flags_update here.flags
      rw [same, same', here.flags _ _ found]
  | panicked action => exact absurd action (here.not_panic step)

/-- Only a subscription makes an open source. -/
theorem Coherent.open_before (here : Coherent hub) (step : Step hub x hub') {s : Nat}
    (other : x.action.subscribing = none) (isOpen : hub'.status s = some false) :
    hub.status s = some false := by
  cases step.shift here.held with
  | none _ _ _ _ status | removed _ _ status | dropped _ _ status | shut _ _ status =>
      rwa [status] at isOpen
  | subscribed action =>
      rw [action] at other
      cases other
  | @closing sub _ _ _ status =>
      rw [status] at isOpen
      by_cases own : s = sub
      · subst own
        simp at isOpen
      · rwa [Function.update_of_ne own] at isOpen
  | panicked action => exact absurd action (here.not_panic step)

theorem Coherent.closing_step (here : Coherent hub) (step : Step hub x hub') :
    ∀ t rest, hub'.lock = some (t, .closing rest) → ∀ s, hub'.status s = some false → s ∈ rest := by
  intro t rest locked s isOpen
  have before := here.open_before step (s := s)
  cases step with
  | registerCallback free | subscribeRefused free | subscribe free | subscribePanics free
  | closeRefused free | subscriberClosed free =>
      rw [free] at locked
      cases locked
  | emit | sent | refused | full | slow | overtaken | emitted | closed | closedDeliver
  | closedSilently => cases locked
  | call | deliver | next | closeSource | closeSourceRefused | sendPanics | slowPanics
  | closePanics | closeSourcePanics =>
      exact here.closing t rest locked s (before rfl isOpen)
  | close _ _ alive =>
      cases locked
      exact here.member alive s (before rfl isOpen)
  | closes locked' _ found closes idle =>
      cases locked
      refine Finset.mem_erase.mpr ⟨?_, here.closing _ _ locked' s (before rfl isOpen)⟩
      rintro rfl
      simp [Hub.status, (HubSource.close_closed closes).2.1] at isOpen
  | skips locked' _ found closes =>
      cases locked
      have wasOpen := before rfl isOpen
      refine Finset.mem_erase.mpr ⟨?_, here.closing _ _ locked' s wasOpen⟩
      rintro rfl
      rw [Hub.status_of_found found, HubSource.close_refused closes] at wasOpen
      cases wasOpen

theorem calm_update {goroutines : Nat → Goroutine E κ} {t : Nat} {g : Goroutine E κ}
    (calm : ∀ u, goroutines u ≠ .panicked) (own : g ≠ .panicked) (u : Nat) :
    update goroutines t g u ≠ .panicked := by
  by_cases here : u = t
  · subst here
    rwa [Function.update_self]
  · rw [Function.update_of_ne here]
    exact calm u

theorem Goroutine.finish_calm (reports : Option (κ × Nat)) :
    (finish reports : Goroutine E κ) ≠ .panicked := by
  intro h
  rcases reports with _ | ⟨cb, count⟩ <;> cases h

theorem Coherent.calm_step (here : Coherent hub) (step : Step hub x hub') :
    ∀ t, hub'.goroutines t ≠ .panicked := by
  have calm := here.not_panic step
  cases step with
  | call _ callable =>
      apply calm_update here.calm
      rintro rfl
      exact callable
  | registerCallback | subscribe | emitted | subscriberClosed =>
      exact calm_update here.calm (Goroutine.finish_calm _)
  | subscribeRefused | emit | slow | closeRefused | close | closes | closedDeliver | closedSilently
  | closeSourceRefused | deliver | next =>
      exact calm_update here.calm (by simp)
  | sent | refused | full | overtaken | skips | closed => exact here.calm
  | closeSource => exact calm_update (calm_update here.calm (by simp)) (by simp)
  | subscribePanics | sendPanics | slowPanics | closePanics | closeSourcePanics =>
      exact absurd rfl calm

theorem Coherent.step (here : Coherent hub) (step : Step hub x hub') : Coherent hub' where
  toConsistent := by
    refine here.toConsistent.step (step.shift here.held) (here.not_panic step) ?_
    intro t locked s isOpen
    exact Finset.notMem_empty s (here.closing t ∅ locked s isOpen)
  held := step.held here.held
  flags := here.flags_step step
  closing := here.closing_step step
  calm := here.calm_step step

/-- **Every reachable hub is coherent.** -/
theorem Runs.coherent (run : Runs labels hub) : Coherent hub :=
  Trace.invariant run coherent_newHub fun _ _ _ here now => here.step now

/-! ### The past of a source -/

/-- A source that is closed stays closed, and is neither closed nor sent to again. -/
theorem Coherent.stays_closed {s : Nat} (here : Coherent hub) (isClosed : hub.status s = some true)
    (run : Trace Step hub labels hub') :
    hub'.status s = some true ∧
      ∀ y ∈ labels, y.action.closing ≠ some s ∧ ∀ event, y.action ≠ .sent s event := by
  suffices all : Coherent hub' ∧ hub'.status s = some true ∧
      ∀ y ∈ labels, y.action.closing ≠ some s ∧ ∀ event, y.action ≠ .sent s event from all.2
  refine run.history (J := fun labels hub' => Coherent hub' ∧ hub'.status s = some true ∧
      ∀ y ∈ labels, y.action.closing ≠ some s ∧ ∀ event, y.action ≠ .sent s event)
    ⟨here, isClosed, by simp⟩ ?_
  rintro labels hub x hub' - ⟨here, isClosed, past⟩ step
  refine ⟨here.step step, ?_⟩
  suffices now : hub'.status s = some true ∧
      x.action.closing ≠ some s ∧ ∀ event, x.action ≠ .sent s event by
    refine ⟨now.1, fun y hy => ?_⟩
    rcases List.mem_append.mp hy with hy | hy
    · exact past y hy
    · rw [List.mem_singleton.mp hy]
      exact now.2
  cases step.shift here.held with
  | none _ closing _ visit status =>
      refine ⟨by rw [status, isClosed], by simp [closing], ?_⟩
      intro event sent
      have isOpen := visit s event (by rw [sent]; rfl)
      rw [isClosed] at isOpen
      cases isOpen
  | @subscribed sub _ action _ fresh status =>
      refine ⟨?_, by simp [action, Action.closing], by simp [action]⟩
      rw [status, Function.update_of_ne (by rintro rfl; simp [fresh] at isClosed), isClosed]
  | @closing sub _ action isOpen status =>
      have other : s ≠ sub := by
        rintro rfl
        simp [isOpen] at isClosed
      refine ⟨by rw [status, Function.update_of_ne other, isClosed], ?_, ?_⟩
      · rw [action]
        simpa using other.symm
      · intro event sent
        rw [sent] at action
        cases action
  | removed action _ status =>
      refine ⟨by rw [status, isClosed], ?_⟩
      rcases action with action | action <;> simp [action, Action.closing]
  | dropped action _ status =>
      exact ⟨by rw [status, isClosed], by simp [action, Action.closing], by simp [action]⟩
  | shut action _ status =>
      exact ⟨by rw [status, isClosed], by simp [action, Action.closing], by simp [action]⟩
  | panicked action => exact absurd action (here.not_panic step)

theorem Coherent.closes {s : Nat} (here : Coherent hub) (step : Step hub x hub')
    (closes : x.action.closing = some s) : hub'.status s = some true := by
  cases step.shift here.held with
  | closing action _ status =>
      rw [action] at closes
      cases closes
      rw [status, Function.update_self]
  | none _ closing => simp [closing] at closes
  | subscribed action | dropped action | shut action => simp [action, Action.closing] at closes
  | removed action => rcases action with action | action <;> simp [action, Action.closing] at closes
  | panicked action => exact absurd action (here.not_panic step)

/-- A channel is closed once, and not sent to afterwards. -/
theorem Runs.closes_once {l m : List (Label E κ)} {s : Nat} (run : Runs (l ++ x :: m) hub)
    (closes : x.action.closing = some s) :
    ∀ y ∈ m, y.action.closing ≠ some s ∧ ∀ event, y.action ≠ .sent s event := by
  obtain ⟨before, after, first, now, last⟩ := Trace.around run
  have coherent := Runs.coherent first
  exact ((coherent.step now).stays_closed (coherent.closes now closes) last).2

/-- What the past says about the sources. -/
structure Past (labels : List (Label E κ)) (hub : Hub E κ) : Prop where
  undropped : ∀ s, hub.status s ≠ some true → ∀ y ∈ labels, y.action.dropping ≠ some s
  lingering : ∀ s ∈ hub.members, hub.status s = some true →
    (∀ y ∈ labels, y.action.dropping ≠ some s) ∧
      ∃ l x m, labels = l ++ x :: m ∧ x.action.closing = some s ∧
        ∀ y ∈ m, ∀ event, y.action.visit ≠ some (s, event)

/-- One more step that neither runs the callback of a source nor visits it. -/
theorem Past.lingering_snoc {s : Nat} (past : Past labels hub) (member : s ∈ hub.members)
    (isClosed : hub.status s = some true) (dropping : x.action.dropping ≠ some s)
    (visit : ∀ event, x.action.visit ≠ some (s, event)) :
    (∀ y ∈ labels ++ [x], y.action.dropping ≠ some s) ∧
      ∃ l z m, labels ++ [x] = l ++ z :: m ∧ z.action.closing = some s ∧
        ∀ y ∈ m, ∀ event, y.action.visit ≠ some (s, event) := by
  obtain ⟨undropped, l, z, m, rfl, closes, unvisited⟩ := past.lingering s member isClosed
  constructor
  · intro y hy
    rcases List.mem_append.mp hy with hy | hy
    · exact undropped y hy
    · rwa [List.mem_singleton.mp hy]
  · refine ⟨l, z, m ++ [x], by simp, closes, fun y hy => ?_⟩
    rcases List.mem_append.mp hy with hy | hy
    · exact unvisited y hy
    · rwa [List.mem_singleton.mp hy]

theorem Action.dropping_of_closing {a : Action E κ} {sub : Nat} (closes : a.closing = some sub) :
    a.dropping = none := by
  cases a <;> cases closes <;> rfl

theorem Past.undropped_step (past : Past labels hub) (here : Coherent hub)
    (step : Step hub x hub') :
    ∀ s, hub'.status s ≠ some true → ∀ y ∈ labels ++ [x], y.action.dropping ≠ some s := by
  intro s isOpen
  suffices now : hub.status s ≠ some true ∧ x.action.dropping ≠ some s by
    intro y hy
    rcases List.mem_append.mp hy with hy | hy
    · exact past.undropped s now.1 y hy
    · rw [List.mem_singleton.mp hy]
      exact now.2
  constructor
  · intro isClosed
    exact isOpen (here.stays_closed isClosed (.snoc .nil step)).1
  · intro drops
    cases step.shift here.held with
    | dropped action called status =>
        rw [action] at drops
        cases drops
        rw [status] at isOpen
        exact isOpen (here.called _ _ called)
    | none _ _ dropping => simp [dropping] at drops
    | subscribed action | shut action => simp [action, Action.dropping] at drops
    | closing action => simp [Action.dropping_of_closing action] at drops
    | removed action => rcases action with action | action <;> simp [action, Action.dropping] at drops
    | panicked action => exact here.not_panic step action

theorem Past.step (past : Past labels hub) (here : Coherent hub) (step : Step hub x hub') :
    Past (labels ++ [x]) hub' := by
  refine ⟨past.undropped_step here step, ?_⟩
  intro s member isClosed
  cases step.shift here.held with
  | none _ _ dropping visit status subscribers =>
      rw [status] at isClosed
      rw [Hub.members, subscribers] at member
      refine past.lingering_snoc member isClosed (by simp [dropping]) fun event visits => ?_
      have isOpen := visit s event visits
      rw [isClosed] at isOpen
      cases isOpen
  | @subscribed sub _ action _ _ status subscribers =>
      have other : s ≠ sub := by
        rintro rfl
        simp [status] at isClosed
      rw [status, Function.update_of_ne other] at isClosed
      rw [Hub.members, subscribers, Option.getD_some, Finset.mem_insert, or_iff_right other] at member
      exact past.lingering_snoc member isClosed (by simp [action, Action.dropping])
        (by simp [action, Action.visit])
  | @closing sub _ action isOpen status subscribers =>
      by_cases own : s = sub
      · subst own
        -- the closing is this step, so nothing has followed it
        refine ⟨fun y hy => ?_, labels, x, [], rfl, action, by simp⟩
        rcases List.mem_append.mp hy with hy | hy
        · exact past.undropped s (by simp [isOpen]) y hy
        · rw [List.mem_singleton.mp hy, Action.dropping_of_closing action]
          simp
      · rw [status, Function.update_of_ne own] at isClosed
        have member : s ∈ hub.members := by
          rcases subscribers with same | erased
          · rwa [Hub.members, same] at member
          · exact ((mem_members_erase erased).mp member).2
        exact past.lingering_snoc member isClosed (by simp [Action.dropping_of_closing action])
          fun event visits => own (Action.visit_of_closing action visits)
  | removed action _ status subscribers =>
      rw [status] at isClosed
      obtain ⟨other, member⟩ := (mem_members_erase subscribers).mp member
      refine past.lingering_snoc member isClosed ?_ ?_
      · rcases action with action | action <;> simp [action, Action.dropping]
      · rcases action with action | action <;> simp [action, Action.visit, other.symm]
  | dropped action _ status subscribers =>
      rw [status] at isClosed
      obtain ⟨other, member⟩ := (mem_members_erase subscribers).mp member
      exact past.lingering_snoc member isClosed (by simp [action, Action.dropping, other.symm])
        (by simp [action, Action.visit])
  | shut _ _ _ subscribers => simp [Hub.members, subscribers] at member
  | panicked action => exact absurd action (here.not_panic step)

theorem Runs.past (run : Runs labels hub) : Past labels hub := by
  refine Trace.history run ⟨by simp, by simp [newHub, Hub.members]⟩ ?_
  intro labels hub x hub' run past step
  exact past.step (Runs.coherent run) step

/-! ### Membership -/

/-- A goroutine that is at `Subscribe` when the hub is closed gets the error. -/
theorem Coherent.subscribe_refused (here : Coherent hub) (closed : hub.closed = true)
    (step : Step hub x hub') (subscribes : hub.goroutines x.goroutine = .subscribe) :
    x.action = .subscribeRefused := by
  cases step with
  | subscribeRefused => rfl
  | subscribe _ _ alive | subscribePanics _ _ alive =>
      rw [closed] at alive
      cases alive
  | call here' | deliver here' | next here' | closeSource here' | closeSourceRefused here'
  | closeSourcePanics here' =>
      rw [here'] at subscribes
      cases subscribes
  | registerCallback _ here' | emit _ here' | closeRefused _ here' | close _ here'
  | subscriberClosed _ here' =>
      rw [here'] at subscribes
      cases subscribes
  | sent locked | refused locked | full locked | sendPanics locked | slow locked | overtaken locked
  | slowPanics locked | emitted locked | closes locked | skips locked | closePanics locked
  | closed locked | closedDeliver locked | closedSilently locked =>
      rcases here.held _ _ locked with held | held <;> rw [held] at subscribes <;> cases subscribes

/-- **The membership invariant.** In every state that some interleaving of the hub's
operations reaches: while the hub is not closed, every open source is a subscriber, and
a closed source is one only while its callback is still to run and no `Emit` has
visited it since its closing; once the hub is closed, every source is closed and
`Subscribe` returns the error; and no channel was closed twice or sent to after its
closing. -/
theorem hub_membership (run : Runs labels hub) :
    (hub.closed = false →
      (∀ s, hub.status s = some false → s ∈ hub.members) ∧
        ∀ s ∈ hub.members, hub.status s = some true →
          (∃ u, hub.Pending s u) ∧ (∀ y ∈ labels, y.action.dropping ≠ some s) ∧
            ∃ l x m, labels = l ++ x :: m ∧ x.action.closing = some s ∧
              ∀ y ∈ m, ∀ event, y.action.visit ≠ some (s, event)) ∧
      (hub.closed = true →
        (∀ s, hub.status s ≠ none → hub.status s = some true) ∧
          ∀ x hub', Step hub x hub' → hub.goroutines x.goroutine = .subscribe →
            x.action = .subscribeRefused) ∧
      (∀ l x m s, labels = l ++ x :: m → x.action.closing = some s →
        ∀ y ∈ m, y.action.closing ≠ some s ∧ ∀ event, y.action ≠ .sent s event) ∧
      ∀ t, hub.goroutines t ≠ .panicked := by
  have coherent := Runs.coherent run
  refine ⟨fun alive => ⟨coherent.member alive, fun s member isClosed => ?_⟩, fun closed => ⟨?_, ?_⟩,
    ?_, coherent.calm⟩
  · exact ⟨coherent.waiting s member isClosed, (Runs.past run).lingering s member isClosed⟩
  · intro s made
    rcases status : hub.status s with _ | flag
    · exact absurd status made
    · cases flag with
      | false => exact absurd status (coherent.dead closed s)
      | true => rfl
  · intro x hub' step subscribes
    exact coherent.subscribe_refused closed step subscribes
  · rintro l x m s rfl closes
    exact Runs.closes_once run closes

/-- A source is closed, and its callback has not run yet. -/
def lingeringSource : List (Label Nat Unit) :=
  [⟨0, .call .subscribe⟩, ⟨0, .subscribe 0 none⟩, ⟨1, .call (.closeSource 0)⟩, ⟨1, .closeSource 0⟩]

theorem hub_membership_lingeringSource : ∃ hub, Runs lingeringSource hub ∧ hub.closed = false ∧
    0 ∈ hub.members ∧ hub.status 0 = some true ∧ ∃ u, hub.Pending 0 u := by
  have run : ∃ hub, Runs lingeringSource hub ∧ hub.closed = false ∧ 0 ∈ hub.members ∧
      hub.status 0 = some true := by
    refine Trace.exists_cons (.call rfl trivial) ?_
    refine Trace.exists_cons (@Step.subscribe _ _ _ 0 0 ∅ rfl rfl rfl rfl rfl) ?_
    refine Trace.exists_cons (.call rfl (by intro h; cases h)) ?_
    refine Trace.exists_cons (.closeSource (u := 2) rfl rfl rfl rfl) ?_
    exact Trace.exists_nil ⟨rfl, Finset.mem_insert_self 0 ∅, rfl⟩
  obtain ⟨hub, run, alive, member, isClosed⟩ := run
  exact ⟨hub, run, alive, member, isClosed, (((hub_membership run).1 alive).2 0 member isClosed).1⟩

end Bbs.Events
