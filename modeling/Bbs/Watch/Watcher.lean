import Bbs.Channel
import Bbs.Interaction.Traces
import Bbs.Watch.Dispatcher

/-!
The watcher (`watcher.Run`) together with the dispatchers that it starts.

One round of the watcher's loop is one step, and dispatchers take steps of their own.
Dispatchers are numbered; a number stands for the `stop` and `errors` channels of one
call of `watch`. `errors` is unbuffered, so receiving from it is a step of both sides.
`cancelInflightWatches`, which closes `stop` channels, is not called by anything.

A timer has a channel for one tick. `Reset` arms it again and leaves a tick that is
already in the channel there.
-/

namespace Bbs.Watch

open Function (update)

/-- What is watched. -/
inductive Kind where
  | desired
  | actual
  deriving DecidableEq

structure Timer where
  armed : Bool
  tick : Bool

def Timer.reset (timer : Timer) : Timer :=
  { timer with armed := true }

/-- The local variables of `Run` for one kind of watch. -/
structure Vars where
  stop : Option Nat
  errors : Option Nat
  timer : Timer
  /-- the channel of the timer is selected on -/
  reWatch : Bool

/-- A goroutine in `dispatchWatchEvents`. -/
structure Dispatch where
  kind : Kind
  dispatcher : Dispatcher
  stop : Channel Bool 1
  /-- something was sent to `stop` -/
  told : Bool
  /-- the watcher has received its error -/
  heard : Bool

def newDispatch (kind : Kind) : Dispatch where
  kind := kind
  dispatcher := .watching 0
  stop := .make
  told := false
  heard := false

structure Watcher where
  running : Bool
  hubSize : Int
  vars : Kind → Vars
  dispatchers : Nat → Option Dispatch

/-- `Run` before its loop. A timer that was stopped may have ticked before. -/
def Watcher.start (ticks : Kind → Bool) : Watcher where
  running := true
  hubSize := 0
  vars := fun kind => ⟨none, none, ⟨false, ticks kind⟩, false⟩
  dispatchers := fun _ => none

namespace Watcher

/-- `stop <- true; stop = nil`, unless `stop` is nil already. `none` if the send does
not go through at once. -/
def tell (w : Watcher) (kind : Kind) : Option Watcher :=
  match (w.vars kind).stop with
  | none => some w
  | some d =>
      match w.dispatchers d with
      | none => none
      | some dispatch =>
          match dispatch.stop.trySend true with
          | .sent stop =>
              some { w with
                vars := update w.vars kind { w.vars kind with stop := none }
                dispatchers := update w.dispatchers d (some { dispatch with stop, told := true }) }
          | _ => none

/-- What a hub size of 0 does to one kind of watch. -/
def silence (w : Watcher) (kind : Kind) : Option Watcher :=
  match (w.vars kind).stop with
  | none => some w
  | some _ =>
      (w.tell kind).map fun w =>
        { w with vars := update w.vars kind { w.vars kind with errors := none } }

/-- `stop, errors = w.watchDesired(logger)`, or the same for actual LRPs. -/
def watch (w : Watcher) (kind : Kind) (d : Nat) : Watcher :=
  { w with
    vars := update w.vars kind { w.vars kind with stop := some d, errors := some d }
    dispatchers := update w.dispatchers d (some (newDispatch kind)) }

/-- What any other hub size does to one kind of watch. -/
def ensure (w : Watcher) (kind : Kind) (d : Nat) : Watcher :=
  match (w.vars kind).stop with
  | none => w.watch kind d
  | some _ => w

end Watcher

/-- Labels name the dispatchers that a step may start. -/
inductive WatcherLabel where
  | hubNotification (size : Int) (desired actual : Nat)
  /-- an error was received -/
  | error (kind : Kind) (d : Nat)
  /-- `errors` was found closed -/
  | closed (kind : Kind) (d : Nat)
  | reWatch (kind : Kind) (d : Nat)
  | signal
  | fire (kind : Kind)
  | watchReturns (d : Nat) (result : WatchResult)
  /-- the consumer has taken the event -/
  | consumed (d : Nat)

/-- What `Watch` can return: `ErrWatchStoppedByUser` only if it could receive from
`stop`. The channel it leaves comes with it. -/
inductive WatchReturns (stop : Channel Bool 1) : WatchResult → Channel Bool 1 → Prop where
  | stopped {value : Bool} {stop' : Channel Bool 1} (receives : stop.receive = .received value stop') :
      WatchReturns stop .stopped stop'
  | other {result : WatchResult} (other : result ≠ .stopped) : WatchReturns stop result stop

inductive WatcherStep : Watcher → WatcherLabel → Watcher → Prop where
  | hubEmpty {w w' : Watcher} {d e : Nat} (running : w.running = true)
      (silences : ((w.silence .desired).bind fun w => w.silence .actual) = some w') :
      WatcherStep w (.hubNotification 0 d e) { w' with hubSize := 0 }
  | hubSize {w : Watcher} {size : Int} {d e : Nat} (running : w.running = true) (size_ne : size ≠ 0)
      (fresh : w.dispatchers d = none) (fresh' : w.dispatchers e = none) (apart : d ≠ e) :
      WatcherStep w (.hubNotification size d e)
        { (w.ensure .desired d).ensure .actual e with hubSize := size }
  | error {w : Watcher} {kind : Kind} {d : Nat} {dispatch : Dispatch} (running : w.running = true)
      (held : (w.vars kind).errors = some d) (found : w.dispatchers d = some dispatch)
      (failing : dispatch.dispatcher = .failing) :
      WatcherStep w (.error kind d)
        { w with
          vars := update w.vars kind ⟨none, none, (w.vars kind).timer.reset, true⟩
          dispatchers := update w.dispatchers d
            (some { dispatch with dispatcher := .returned, heard := true }) }
  | closed {w : Watcher} {kind : Kind} {d : Nat} {dispatch : Dispatch} (running : w.running = true)
      (held : (w.vars kind).errors = some d) (found : w.dispatchers d = some dispatch)
      (returned : dispatch.dispatcher = .returned) :
      WatcherStep w (.closed kind d)
        { w with vars := update w.vars kind { w.vars kind with stop := none, errors := none } }
  | reWatch {w : Watcher} {kind : Kind} {d : Nat} (running : w.running = true)
      (selected : (w.vars kind).reWatch = true) (ticked : (w.vars kind).timer.tick = true)
      (wanted : (w.vars kind).stop = none ∧ 0 < w.hubSize) (fresh : w.dispatchers d = none) :
      WatcherStep w (.reWatch kind d)
        (Watcher.watch
          { w with
            vars := update w.vars kind
              { w.vars kind with timer := { (w.vars kind).timer with tick := false }, reWatch := false } }
          kind d)
  | reWatchNot {w : Watcher} {kind : Kind} {d : Nat} (running : w.running = true)
      (selected : (w.vars kind).reWatch = true) (ticked : (w.vars kind).timer.tick = true)
      (unwanted : ¬((w.vars kind).stop = none ∧ 0 < w.hubSize)) :
      WatcherStep w (.reWatch kind d)
        { w with
          vars := update w.vars kind
            { w.vars kind with timer := { (w.vars kind).timer with tick := false }, reWatch := false } }
  | signal {w w' : Watcher} (running : w.running = true)
      (tells : ((w.tell .desired).bind fun w => w.tell .actual) = some w') :
      WatcherStep w .signal { w' with running := false }
  | fire {w : Watcher} {kind : Kind} (armed : (w.vars kind).timer.armed = true) :
      WatcherStep w (.fire kind)
        { w with vars := update w.vars kind { w.vars kind with timer := ⟨false, true⟩ } }
  | watchReturns {w : Watcher} {d index : Nat} {dispatch : Dispatch} {result : WatchResult}
      {stop : Channel Bool 1} (found : w.dispatchers d = some dispatch)
      (here : dispatch.dispatcher = .watching index)
      (returns : WatchReturns dispatch.stop result stop) :
      WatcherStep w (.watchReturns d result)
        { w with
          dispatchers := update w.dispatchers d
            (some { dispatch with dispatcher := .afterWatch result, stop := stop }) }
  | consumed {w : Watcher} {d index : Nat} {dispatch : Dispatch} {event : WatchEvent}
      (found : w.dispatchers d = some dispatch)
      (here : dispatch.dispatcher = .sending event index) :
      WatcherStep w (.consumed d)
        { w with
          dispatchers := update w.dispatchers d
            (some { dispatch with dispatcher := .watching index }) }

end Bbs.Watch
