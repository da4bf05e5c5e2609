import Bbs.Etcd.Nodes

/-!
The two goroutines of a watch (`WatchForActualLRPChanges`, `dispatchWatchEvents` and
`makeWatchEvent` in `db/etcd/event_db.go`).

The dispatcher calls `Watch` again and again and passes on what it returns over an
unbuffered channel. The consumer takes the events off that channel and invokes the
callbacks. Both loops are given here by what one round of them does.
-/

namespace Bbs.Watch

open Bbs.Etcd Bbs.Models

/-- An `etcd.Response`. -/
structure Response where
  action : String
  node : EtcdNode
  prevNode : Option EtcdNode

inductive EventType where
  | invalidEvent
  | createEvent
  | deleteEvent
  | expireEvent
  | updateEvent
  deriving DecidableEq

structure WatchEvent where
  type : EventType
  node : Option EtcdNode
  prevNode : Option EtcdNode

def makeWatchEvent (event : Response) : Except String WatchEvent :=
  match event.action with
  | "delete" | "compareAndDelete" => .ok ⟨.deleteEvent, none, event.prevNode⟩
  | "create" => .ok ⟨.createEvent, some event.node, event.prevNode⟩
  | "set" | "update" | "compareAndSwap" => .ok ⟨.updateEvent, some event.node, event.prevNode⟩
  | "expire" => .ok ⟨.expireEvent, none, event.prevNode⟩
  | action => .error ("unknown event: " ++ action)

/-! ### The dispatcher -/

/-- What a call of `Watch` returns. -/
inductive WatchResult where
  | response (response : Response)
  /-- an error with the code `ETCDErrIndexCleared` -/
  | indexCleared
  /-- `ErrWatchStoppedByUser` -/
  | stopped
  /-- any other error -/
  | failed

/-- Where `dispatchWatchEvents` is. -/
inductive Dispatcher where
  /-- in `Watch`, from `index` on -/
  | watching (index : Nat)
  /-- sending an event; `index` is where it goes on -/
  | sending (event : WatchEvent) (index : Nat)
  /-- sending an error -/
  | failing
  | returned

/-- What `dispatchWatchEvents` does with the result of `Watch`. -/
def Dispatcher.afterWatch : WatchResult → Dispatcher
  | .indexCleared => .watching 0
  | .stopped => .returned
  | .failed => .failing
  | .response response =>
      match makeWatchEvent response with
      | .error _ => .failing
      | .ok event => .sending event (response.node.modifiedIndex + 1)

/-! ### The consumer -/

inductive Callback where
  | created (group : ActualLRPGroup)
  | changed (before after : ActualLRPGroup)
  | deleted (group : ActualLRPGroup)
  deriving DecidableEq

/-- A group with one record only. -/
def groupOf (evacuating : Bool) (lrp : ActualLRP) : ActualLRPGroup :=
  if evacuating then ⟨none, some lrp⟩ else ⟨some lrp, none⟩

/-- The callback that an event leads to, if any. -/
def consume (event : WatchEvent) : Option Callback :=
  match event.node, event.prevNode with
  | some node, none =>
      (ActualLRP.fromJSON node.value).map fun actualLRP =>
        .created (groupOf (isEvacuatingActualLRPNode node) actualLRP)
  | some node, some prevNode => do
      let before ← ActualLRP.fromJSON prevNode.value
      let after ← ActualLRP.fromJSON node.value
      let evacuating := isEvacuatingActualLRPNode node
      some (.changed (groupOf evacuating before) (groupOf evacuating after))
  | none, some prevNode =>
      if prevNode.dir then none
      else
        (ActualLRP.fromJSON prevNode.value).map fun actualLRP =>
          .deleted (groupOf (isEvacuatingActualLRPNode prevNode) actualLRP)
  | none, none => none

end Bbs.Watch
