import Bbs.Events.Source
import Bbs.Wire.DesiredLRP

/-!
The messages for events: the generated code of `models/events.pb.go`, and the codecs for events
that it makes up (`eventCodecs`).
-/

namespace Bbs.Models

open Bbs.Protobuf

/-! ### Events about actual LRPs -/

namespace ActualLRPCreatedEvent

def fields : List (MessageField ActualLRPCreatedEvent) :=
  [.optional 1 "ActualLrpGroup" ActualLRPGroup.message actualLrpGroup fun _ v => ⟨v⟩]

def message : Message ActualLRPCreatedEvent :=
  .ofFields ⟨none⟩ fields fun m => ⟨m.actualLrpGroup.map ActualLRPGroup.message.normal⟩

theorem roundTrips : message.RoundTrips fields Equal where
  generated := Message.ofFields_generated (by decide) fun _ => .optional rfl rfl rfl
  sound := by simp [fields, MessageField.optional_sound, ActualLRPGroup.roundTrips.lawful]
  equal m := ActualLRPGroup.roundTrips.pointer m.actualLrpGroup

end ActualLRPCreatedEvent

namespace ActualLRPChangedEvent

def fields : List (MessageField ActualLRPChangedEvent) :=
  [.optional 1 "Before" ActualLRPGroup.message before fun m v => { m with before := v },
    .optional 2 "After" ActualLRPGroup.message after fun m v => { m with after := v }]

def message : Message ActualLRPChangedEvent :=
  .ofFields ⟨none, none⟩ fields
    fun m => ⟨m.before.map ActualLRPGroup.message.normal, m.after.map ActualLRPGroup.message.normal⟩

theorem roundTrips : message.RoundTrips fields Equal where
  generated := Message.ofFields_generated (by decide) fun _ =>
    .optional rfl rfl (.optional rfl rfl rfl)
  sound := by simp [fields, MessageField.optional_sound, ActualLRPGroup.roundTrips.lawful]
  equal m := ⟨ActualLRPGroup.roundTrips.pointer m.before, ActualLRPGroup.roundTrips.pointer m.after⟩

end ActualLRPChangedEvent

namespace ActualLRPRemovedEvent

def fields : List (MessageField ActualLRPRemovedEvent) :=
  [.optional 1 "ActualLrpGroup" ActualLRPGroup.message actualLrpGroup fun _ v => ⟨v⟩]

def message : Message ActualLRPRemovedEvent :=
  .ofFields ⟨none⟩ fields fun m => ⟨m.actualLrpGroup.map ActualLRPGroup.message.normal⟩

theorem roundTrips : message.RoundTrips fields Equal where
  generated := Message.ofFields_generated (by decide) fun _ => .optional rfl rfl rfl
  sound := by simp [fields, MessageField.optional_sound, ActualLRPGroup.roundTrips.lawful]
  equal m := ActualLRPGroup.roundTrips.pointer m.actualLrpGroup

end ActualLRPRemovedEvent

/-! ### Events about desired LRPs -/

namespace DesiredLRPCreatedEvent

def fields : List (MessageField DesiredLRPCreatedEvent) :=
  [.optional 1 "DesiredLrp" DesiredLRP.message desiredLrp fun _ v => ⟨v⟩]

def message : Message DesiredLRPCreatedEvent :=
  .ofFields ⟨none⟩ fields fun m => ⟨m.desiredLrp.map DesiredLRP.message.normal⟩

theorem roundTrips : message.RoundTrips fields Equal where
  generated := Message.ofFields_generated (by decide) fun _ => .optional rfl rfl rfl
  sound := by simp [fields, MessageField.optional_sound, DesiredLRP.roundTrips.lawful]
  equal m := DesiredLRP.roundTrips.pointer m.desiredLrp

end DesiredLRPCreatedEvent

namespace DesiredLRPChangedEvent

def fields : List (MessageField DesiredLRPChangedEvent) :=
  [.optional 1 "Before" DesiredLRP.message before fun m v => { m with before := v },
    .optional 2 "After" DesiredLRP.message after fun m v => { m with after := v }]

def message : Message DesiredLRPChangedEvent :=
  .ofFields ⟨none, none⟩ fields
    fun m => ⟨m.before.map DesiredLRP.message.normal, m.after.map DesiredLRP.message.normal⟩

theorem roundTrips : message.RoundTrips fields Equal where
  generated := Message.ofFields_generated (by decide) fun _ =>
    .optional rfl rfl (.optional rfl rfl rfl)
  sound := by simp [fields, MessageField.optional_sound, DesiredLRP.roundTrips.lawful]
  equal m := ⟨DesiredLRP.roundTrips.pointer m.before, DesiredLRP.roundTrips.pointer m.after⟩

end DesiredLRPChangedEvent

namespace DesiredLRPRemovedEvent

def fields : List (MessageField DesiredLRPRemovedEvent) :=
  [.optional 1 "DesiredLrp" DesiredLRP.message desiredLrp fun _ v => ⟨v⟩]

def message : Message DesiredLRPRemovedEvent :=
  .ofFields ⟨none⟩ fields fun m => ⟨m.desiredLrp.map DesiredLRP.message.normal⟩

theorem roundTrips : message.RoundTrips fields Equal where
  generated := Message.ofFields_generated (by decide) fun _ => .optional rfl rfl rfl
  sound := by simp [fields, MessageField.optional_sound, DesiredLRP.roundTrips.lawful]
  equal m := DesiredLRP.roundTrips.pointer m.desiredLrp

end DesiredLRPRemovedEvent

end Bbs.Models

namespace Bbs.Wire

open Bbs.Events Bbs.Models Bbs.Protobuf

/-! ### The codecs -/

/-- The methods of a message type as a codec. A decoder that does not come to an end is `none`,
like one that panics. -/
noncomputable def codec {M : Type} (message : Message M) {fields : List (MessageField M)}
    {Equal : M → M → Prop} (roundTrips : message.RoundTrips fields Equal) : Codec M Equal where
  marshal m := (message.marshal m).map .ok
  unmarshal data :=
    match outcome message.read data message.zero with
    | some (.ok m) => some (.ok m)
    | some (.error e) => some (.error (bytes e.error))
    | some .panic => none
    | none => none
  unmarshal_marshal m payload marshalled := by
    obtain ⟨data, written, same⟩ := Option.map_eq_some_iff.1 marshalled
    cases same
    obtain ⟨m', decodes, equal⟩ := roundTrips.decodes written
    exact ⟨m', by rw [decodes.outcome_eq], equal⟩

end Bbs.Wire
