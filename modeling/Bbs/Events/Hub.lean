import Mathlib.Data.Finset.Card
import Mathlib.Logic.Function.Basic
import Bbs.Channel
import Bbs.Interaction.Traces

/-!
The event hub (`events/hub.go`), with any number of goroutines at work on it.

Goroutines and sources are numbered in place of pointers. A goroutine is described by
what it does next, and a step takes one goroutine to its next synchronization: what
stands between `Lock` and `Unlock` of one mutex is a single step, except that `Emit`
and `Close` work through the subscribers one at a time while they hold the hub's
lock. Where in that work its holder is, is kept with the lock. In `send` the source's
lock is released and taken again before a slow source is closed, so there are two
steps, and others may step in between.

Steps are labelled by what they did and returned. A send on a closed channel, a second
`close` of a channel and an insertion into a nil map end in `Goroutine.panicked`.
-/

namespace Bbs.Events

open Bbs.Interaction

def maxPendingSubscriberEvents : Nat :=
  1024

inductive HubError where
  | readFromClosedSource
  | sendToClosedSource
  | sourceAlreadyClosed
  | slowConsumer
  | subscribedToClosedHub
  | hubAlreadyClosed
  deriving DecidableEq

variable {E κ : Type}

/-! ### Sources -/

/-- A `hubSource`. Its `closeCallback` is always the hub's `subscriberClosed`. -/
structure HubSource (E : Type) where
  events : Channel E maxPendingSubscriberEvents
  closed : Bool

def newSource : HubSource E :=
  ⟨.make, false⟩

namespace HubSource

/-- What comes of `send` up to its first `Unlock`. -/
inductive Sending (E : Type) where
  | refused
  | sent (source : HubSource E)
  | full
  | panic

def send (source : HubSource E) (event : E) : Sending E :=
  if source.closed then .refused
  else
    match source.events.trySend event with
    | .sent events => .sent { source with events }
    | .full => .full
    | .panic => .panic

/-- What comes of `Close` on a source; if it succeeds, the callback is started too. -/
inductive Closing (E : Type) where
  | refused
  | closed (source : HubSource E)
  | panic

def close (source : HubSource E) : Closing E :=
  if source.closed then .refused
  else
    match source.events.close with
    | none => .panic
    | some events => .closed ⟨events, true⟩

/-- What `Next` returns, unless it has to wait. -/
def next (source : HubSource E) : Option (Except HubError E × HubSource E) :=
  match source.events.receive with
  | .received event events => some (.ok event, { source with events })
  | .drained => some (.error .readFromClosedSource, source)
  | .blocked => none

end HubSource

/-! ### Goroutines and the hub -/

/-- What a goroutine does next. -/
inductive Goroutine (E κ : Type) where
  /-- it has not been started -/
  | idle
  | registerCallback (cb : Option κ)
  | subscribe
  | emit (event : E)
  | close
  | closeSource (sub : Nat)
  | subscriberClosed (sub : Nat)
  | next (sub : Nat)
  /-- the hub's lock is released, and the callback is to be called -/
  | notify (cb : κ) (count : Nat)
  /-- it holds the hub's lock; see `Hub.lock` -/
  | critical
  | done
  | panicked

/-- Where in its work the holder of the hub's lock is. -/
inductive Critical (E : Type) where
  /-- in the loop of `Emit`, which has still to visit `rest` -/
  | emitting (event : E) (size : Nat) (rest : Finset Nat)
  /-- in that loop and in `send`, which found the buffer of `sub` full -/
  | slow (event : E) (size : Nat) (rest : Finset Nat) (sub : Nat)
  /-- in the loop of `closeSubscribers`, which has still to close `rest` -/
  | closing (rest : Finset Nat)
  /-- at the end of `Close`, about to call the callback -/
  | closed

structure Hub (E κ : Type) where
  lock : Option (Nat × Critical E)
  /-- `none` is the nil map -/
  subscribers : Option (Finset Nat)
  closed : Bool
  cb : Option κ
  sources : Nat → Option (HubSource E)
  goroutines : Nat → Goroutine E κ

def newHub : Hub E κ where
  lock := none
  subscribers := some ∅
  closed := false
  cb := none
  sources := fun _ => none
  goroutines := fun _ => .idle

/-- The keys of the map; a nil map has none. -/
def Hub.members (hub : Hub E κ) : Finset Nat :=
  hub.subscribers.getD ∅

def Hub.size (hub : Hub E κ) : Nat :=
  hub.members.card

/-- A callback that is not nil, and the count it is to be called with. -/
def report (cb : Option κ) (count : Nat) : Option (κ × Nat) :=
  cb.map fun cb => (cb, count)

/-- How an operation ends once it has released the hub's lock. -/
def Goroutine.finish : Option (κ × Nat) → Goroutine E κ
  | none => .done
  | some (cb, count) => .notify cb count

/-- The operations that can be called from outside. A source can be used once it has
been made. -/
def Goroutine.Callable (hub : Hub E κ) : Goroutine E κ → Prop
  | .registerCallback _ => True
  | .subscribe => True
  | .emit _ => True
  | .close => True
  | .closeSource sub => hub.sources sub ≠ none
  | .next sub => hub.sources sub ≠ none
  | _ => False

/-! ### Steps -/

/-- What a step did. -/
inductive Action (E κ : Type) where
  | call (operation : Goroutine E κ)
  | registerCallback (reports : Option (κ × Nat))
  | subscribe (sub : Nat) (reports : Option (κ × Nat))
  /-- `Subscribe` returned `ErrSubscribedToClosedHub` -/
  | subscribeRefused
  /-- `Emit` got the hub's lock -/
  | emit (event : E)
  | sent (sub : Nat) (event : E)
  /-- `send` returned `ErrSendToClosedSource` -/
  | refused (sub : Nat) (event : E)
  /-- `send` found the buffer full -/
  | full (sub : Nat) (event : E)
  /-- `send` closed the source and returned `ErrSlowConsumer` -/
  | slow (sub : Nat) (event : E)
  /-- `send` came to close the source and returned `ErrSourceAlreadyClosed` -/
  | overtaken (sub : Nat) (event : E)
  /-- `Emit` released the hub's lock -/
  | emitted (reports : Option (κ × Nat))
  /-- `Close` got the hub's lock -/
  | close
  /-- `Close` returned `ErrHubAlreadyClosed` -/
  | closeRefused
  /-- `closeSubscribers` closed the source -/
  | closes (sub : Nat)
  /-- `closeSubscribers` found the source closed -/
  | skips (sub : Nat)
  | closed (reports : Option (κ × Nat))
  /-- `Close` released the hub's lock, there being no callback -/
  | unlock
  /-- `Close` on the source returned nil -/
  | closeSource (sub : Nat)
  /-- `Close` on the source returned `ErrSourceAlreadyClosed` -/
  | closeSourceRefused (sub : Nat)
  | subscriberClosed (sub : Nat) (reports : Option (κ × Nat))
  /-- the callback was called -/
  | deliver (cb : κ) (count : Nat)
  /-- `Next` returned -/
  | next (sub : Nat) (result : Except HubError E)
  | panic

/-- A step: which goroutine did what. -/
structure Label (E κ : Type) where
  goroutine : Nat
  action : Action E κ

open Function (update)

inductive Step : Hub E κ → Label E κ → Hub E κ → Prop where
  | call {hub : Hub E κ} {t : Nat} {operation : Goroutine E κ} (idle : hub.goroutines t = .idle)
      (callable : operation.Callable hub) :
      Step hub ⟨t, .call operation⟩ { hub with goroutines := update hub.goroutines t operation }
  /- RegisterCallback -/
  | registerCallback {hub : Hub E κ} {t : Nat} {cb : Option κ} (free : hub.lock = none)
      (here : hub.goroutines t = .registerCallback cb) :
      Step hub ⟨t, .registerCallback (report cb hub.size)⟩
        { hub with
          cb := cb
          goroutines := update hub.goroutines t (.finish (report cb hub.size)) }
  /- Subscribe -/
  | subscribeRefused {hub : Hub E κ} {t : Nat} (free : hub.lock = none)
      (here : hub.goroutines t = .subscribe) (closed : hub.closed = true) :
      Step hub ⟨t, .subscribeRefused⟩ { hub with goroutines := update hub.goroutines t .done }
  | subscribe {hub : Hub E κ} {t sub : Nat} {subscribers : Finset Nat} (free : hub.lock = none)
      (here : hub.goroutines t = .subscribe) (closed : hub.closed = false)
      (held : hub.subscribers = some subscribers) (fresh : hub.sources sub = none) :
      Step hub ⟨t, .subscribe sub (report hub.cb (insert sub subscribers).card)⟩
        { hub with
          subscribers := some (insert sub subscribers)
          sources := update hub.sources sub (some newSource)
          goroutines := update hub.goroutines t
            (.finish (report hub.cb (insert sub subscribers).card)) }
  | subscribePanics {hub : Hub E κ} {t : Nat} (free : hub.lock = none)
      (here : hub.goroutines t = .subscribe) (closed : hub.closed = false)
      (held : hub.subscribers = none) :
      Step hub ⟨t, .panic⟩ { hub with goroutines := update hub.goroutines t .panicked }
  /- Emit, and send -/
  | emit {hub : Hub E κ} {t : Nat} {event : E} (free : hub.lock = none)
      (here : hub.goroutines t = .emit event) :
      Step hub ⟨t, .emit event⟩
        { hub with
          lock := some (t, .emitting event hub.size hub.members)
          goroutines := update hub.goroutines t .critical }
  | sent {hub : Hub E κ} {t size sub : Nat} {event : E} {rest : Finset Nat}
      {source source' : HubSource E} (here : hub.lock = some (t, .emitting event size rest))
      (next : sub ∈ rest) (found : hub.sources sub = some source)
      (sends : source.send event = .sent source') :
      Step hub ⟨t, .sent sub event⟩
        { hub with
          lock := some (t, .emitting event size (rest.erase sub))
          sources := update hub.sources sub (some source') }
  | refused {hub : Hub E κ} {t size sub : Nat} {event : E} {rest : Finset Nat}
      {source : HubSource E} (here : hub.lock = some (t, .emitting event size rest))
      (next : sub ∈ rest) (found : hub.sources sub = some source)
      (sends : source.send event = .refused) :
      Step hub ⟨t, .refused sub event⟩
        { hub with
          lock := some (t, .emitting event size (rest.erase sub))
          subscribers := hub.subscribers.map fun members => members.erase sub }
  | full {hub : Hub E κ} {t size sub : Nat} {event : E} {rest : Finset Nat}
      {source : HubSource E} (here : hub.lock = some (t, .emitting event size rest))
      (next : sub ∈ rest) (found : hub.sources sub = some source)
      (sends : source.send event = .full) :
      Step hub ⟨t, .full sub event⟩ { hub with lock := some (t, .slow event size rest sub) }
  | sendPanics {hub : Hub E κ} {t size sub : Nat} {event : E} {rest : Finset Nat}
      {source : HubSource E} (here : hub.lock = some (t, .emitting event size rest))
      (next : sub ∈ rest) (found : hub.sources sub = some source)
      (sends : source.send event = .panic) :
      Step hub ⟨t, .panic⟩ { hub with goroutines := update hub.goroutines t .panicked }
  | slow {hub : Hub E κ} {t u size sub : Nat} {event : E} {rest : Finset Nat}
      {source source' : HubSource E} (here : hub.lock = some (t, .slow event size rest sub))
      (found : hub.sources sub = some source) (closes : source.close = .closed source')
      (idle : hub.goroutines u = .idle) :
      Step hub ⟨t, .slow sub event⟩
        { hub with
          lock := some (t, .emitting event size (rest.erase sub))
          subscribers := hub.subscribers.map fun members => members.erase sub
          sources := update hub.sources sub (some source')
          goroutines := update hub.goroutines u (.subscriberClosed sub) }
  | overtaken {hub : Hub E κ} {t size sub : Nat} {event : E} {rest : Finset Nat}
      {source : HubSource E} (here : hub.lock = some (t, .slow event size rest sub))
      (found : hub.sources sub = some source) (closes : source.close = .refused) :
      Step hub ⟨t, .overtaken sub event⟩
        { hub with
          lock := some (t, .emitting event size (rest.erase sub))
          subscribers := hub.subscribers.map fun members => members.erase sub }
  | slowPanics {hub : Hub E κ} {t size sub : Nat} {event : E} {rest : Finset Nat}
      {source : HubSource E} (here : hub.lock = some (t, .slow event size rest sub))
      (found : hub.sources sub = some source) (closes : source.close = .panic) :
      Step hub ⟨t, .panic⟩ { hub with goroutines := update hub.goroutines t .panicked }
  | emitted {hub : Hub E κ} {t size : Nat} {event : E} {reports : Option (κ × Nat)}
      (here : hub.lock = some (t, .emitting event size ∅))
      (counts : reports = if hub.size ≠ size then report hub.cb hub.size else none) :
      Step hub ⟨t, .emitted reports⟩
        { hub with
          lock := none
          goroutines := update hub.goroutines t (.finish reports) }
  /- Close, and closeSubscribers -/
  | closeRefused {hub : Hub E κ} {t : Nat} (free : hub.lock = none)
      (here : hub.goroutines t = .close) (closed : hub.closed = true) :
      Step hub ⟨t, .closeRefused⟩ { hub with goroutines := update hub.goroutines t .done }
  | close {hub : Hub E κ} {t : Nat} (free : hub.lock = none) (here : hub.goroutines t = .close)
      (closed : hub.closed = false) :
      Step hub ⟨t, .close⟩
        { hub with
          lock := some (t, .closing hub.members)
          goroutines := update hub.goroutines t .critical }
  | closes {hub : Hub E κ} {t u sub : Nat} {rest : Finset Nat} {source source' : HubSource E}
      (here : hub.lock = some (t, .closing rest)) (next : sub ∈ rest)
      (found : hub.sources sub = some source) (closes : source.close = .closed source')
      (idle : hub.goroutines u = .idle) :
      Step hub ⟨t, .closes sub⟩
        { hub with
          lock := some (t, .closing (rest.erase sub))
          sources := update hub.sources sub (some source')
          goroutines := update hub.goroutines u (.subscriberClosed sub) }
  | skips {hub : Hub E κ} {t sub : Nat} {rest : Finset Nat} {source : HubSource E}
      (here : hub.lock = some (t, .closing rest)) (next : sub ∈ rest)
      (found : hub.sources sub = some source) (closes : source.close = .refused) :
      Step hub ⟨t, .skips sub⟩ { hub with lock := some (t, .closing (rest.erase sub)) }
  | closePanics {hub : Hub E κ} {t sub : Nat} {rest : Finset Nat} {source : HubSource E}
      (here : hub.lock = some (t, .closing rest)) (next : sub ∈ rest)
      (found : hub.sources sub = some source) (closes : source.close = .panic) :
      Step hub ⟨t, .panic⟩ { hub with goroutines := update hub.goroutines t .panicked }
  | closed {hub : Hub E κ} {t : Nat} (here : hub.lock = some (t, .closing ∅)) :
      Step hub ⟨t, .closed (report hub.cb 0)⟩
        { hub with lock := some (t, .closed), subscribers := none, closed := true }
  | closedDeliver {hub : Hub E κ} {t : Nat} {cb : κ} (here : hub.lock = some (t, .closed))
      (registered : hub.cb = some cb) :
      Step hub ⟨t, .deliver cb 0⟩
        { hub with lock := none, goroutines := update hub.goroutines t .done }
  | closedSilently {hub : Hub E κ} {t : Nat} (here : hub.lock = some (t, .closed))
      (unregistered : hub.cb = none) :
      Step hub ⟨t, .unlock⟩ { hub with lock := none, goroutines := update hub.goroutines t .done }
  /- Close on a source -/
  | closeSource {hub : Hub E κ} {t u sub : Nat} {source source' : HubSource E}
      (here : hub.goroutines t = .closeSource sub) (found : hub.sources sub = some source)
      (closes : source.close = .closed source') (idle : hub.goroutines u = .idle) :
      Step hub ⟨t, .closeSource sub⟩
        { hub with
          sources := update hub.sources sub (some source')
          goroutines := update (update hub.goroutines t .done) u (.subscriberClosed sub) }
  | closeSourceRefused {hub : Hub E κ} {t sub : Nat} {source : HubSource E}
      (here : hub.goroutines t = .closeSource sub) (found : hub.sources sub = some source)
      (closes : source.close = .refused) :
      Step hub ⟨t, .closeSourceRefused sub⟩
        { hub with goroutines := update hub.goroutines t .done }
  | closeSourcePanics {hub : Hub E κ} {t sub : Nat} {source : HubSource E}
      (here : hub.goroutines t = .closeSource sub) (found : hub.sources sub = some source)
      (closes : source.close = .panic) :
      Step hub ⟨t, .panic⟩ { hub with goroutines := update hub.goroutines t .panicked }
  /- subscriberClosed -/
  | subscriberClosed {hub : Hub E κ} {t sub : Nat} (free : hub.lock = none)
      (here : hub.goroutines t = .subscriberClosed sub) :
      Step hub ⟨t, .subscriberClosed sub (report hub.cb (hub.members.erase sub).card)⟩
        { hub with
          subscribers := hub.subscribers.map fun members => members.erase sub
          goroutines := update hub.goroutines t
            (.finish (report hub.cb (hub.members.erase sub).card)) }
  /- the end of RegisterCallback, Subscribe, Emit and subscriberClosed -/
  | deliver {hub : Hub E κ} {t count : Nat} {cb : κ} (here : hub.goroutines t = .notify cb count) :
      Step hub ⟨t, .deliver cb count⟩ { hub with goroutines := update hub.goroutines t .done }
  /- Next -/
  | next {hub : Hub E κ} {t sub : Nat} {source source' : HubSource E} {result : Except HubError E}
      (here : hub.goroutines t = .next sub) (found : hub.sources sub = some source)
      (receives : source.next = some (result, source')) :
      Step hub ⟨t, .next sub result⟩
        { hub with
          sources := update hub.sources sub (some source')
          goroutines := update hub.goroutines t .done }

/-- A run of the hub, from its making. -/
abbrev Runs (labels : List (Label E κ)) (hub : Hub E κ) : Prop :=
  Trace Step newHub labels hub

end Bbs.Events
