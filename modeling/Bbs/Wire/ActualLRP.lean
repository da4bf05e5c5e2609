import Bbs.Models.Encoding
import Bbs.Models.Events
import Bbs.Models.Requests
import Bbs.Protobuf.Fields

/-!
The messages about actual LRPs: the generated code of `models/actual_lrp.pb.go`,
`models/actual_lrp_requests.pb.go` and `models/modification_tag.pb.go`.

A message type is the list of its fields, with the numbers of the `.proto` files and the names
that stand in the errors of `Unmarshal`.
-/

namespace Bbs.Models

open Bbs.Protobuf

/-! ### Parts of a record -/

namespace ModificationTag

def fields : List (MessageField ModificationTag) :=
  [.string 1 "Epoch" epoch fun m v => { m with epoch := v },
    .number 2 "Index" .uint32 index fun m v => { m with index := v }]

def message : Message ModificationTag :=
  .ofFields ⟨"", 0⟩ fields id

theorem roundTrips : message.RoundTrips fields Eq where
  generated := Message.ofFields_generated (by decide) (by simp [Fills, fields])
  sound := by simp [fields]
  equal _ := rfl

end ModificationTag

namespace ActualLRPKey

def fields : List (MessageField ActualLRPKey) :=
  [.string 1 "ProcessGuid" processGuid fun m v => { m with processGuid := v },
    .number 2 "Index" .int32 index fun m v => { m with index := v },
    .string 3 "Domain" domain fun m v => { m with domain := v }]

def message : Message ActualLRPKey :=
  .ofFields ⟨"", 0, ""⟩ fields id

theorem roundTrips : message.RoundTrips fields Eq where
  generated := Message.ofFields_generated (by decide) (by simp [Fills, fields])
  sound := by simp [fields]
  equal _ := rfl

end ActualLRPKey

namespace ActualLRPInstanceKey

def fields : List (MessageField ActualLRPInstanceKey) :=
  [.string 1 "InstanceGuid" instanceGuid fun m v => { m with instanceGuid := v },
    .string 2 "CellId" cellId fun m v => { m with cellId := v }]

def message : Message ActualLRPInstanceKey :=
  .ofFields ⟨"", ""⟩ fields id

theorem roundTrips : message.RoundTrips fields Eq where
  generated := Message.ofFields_generated (by decide) (by simp [Fills, fields])
  sound := by simp [fields]
  equal _ := rfl

end ActualLRPInstanceKey

namespace PortMapping

def fields : List (MessageField PortMapping) :=
  [.number 1 "ContainerPort" .uint32 containerPort fun m v => { m with containerPort := v },
    .number 2 "HostPort" .uint32 hostPort fun m v => { m with hostPort := v }]

def message : Message PortMapping :=
  .ofFields ⟨0, 0⟩ fields id

theorem roundTrips : message.RoundTrips fields Eq where
  generated := Message.ofFields_generated (by decide) (by simp [Fills, fields])
  sound := by simp [fields]
  equal _ := rfl

end PortMapping

namespace ActualLRPNetInfo

def fields : List (MessageField ActualLRPNetInfo) :=
  [.string 1 "Address" address fun m v => { m with address := v },
    .repeatedMessage 2 "Ports" PortMapping.message portList fun m v => { m with ports := some v }]

/-- A slice without elements is read back as nil. -/
def normal (info : ActualLRPNetInfo) : ActualLRPNetInfo :=
  { info with ports := nilIfEmpty info.portList }

def message : Message ActualLRPNetInfo :=
  .ofFields ⟨"", none⟩ fields normal

theorem fills (info : ActualLRPNetInfo) : Fills info fields ⟨"", none⟩ info.normal := by
  refine .string (.step info.normal trivial ?_ rfl)
  rw [MessageField.repeatedMessage_transfer, PortMapping.roundTrips.elements_eq]
  exact appendAll_nil portList (fun m o => { m with ports := o }) (fun _ _ => rfl)
    (fun _ _ _ => rfl) rfl rfl _

theorem roundTrips : message.RoundTrips fields fun this that => this.equal (some that) = true where
  generated := Message.ofFields_generated (by decide) fills
  sound := by
    simp [fields, MessageField.repeatedMessage_sound, PortMapping.roundTrips.lawful]
  equal info := by
    change info.normal.equal (some info) = true
    simp [normal, equal, portList]

end ActualLRPNetInfo

/-! ### Records -/

namespace ActualLRP

def fields : List (MessageField ActualLRP) :=
  [.embedded 1 "ActualLRPKey" ActualLRPKey.message key fun m v => { m with key := v },
    .embedded 2 "ActualLRPInstanceKey" ActualLRPInstanceKey.message instanceKey
      fun m v => { m with instanceKey := v },
    .embedded 3 "ActualLRPNetInfo" ActualLRPNetInfo.message netInfo
      fun m v => { m with netInfo := v },
    .number 4 "CrashCount" .int32 crashCount fun m v => { m with crashCount := v },
    .string 5 "CrashReason" crashReason fun m v => { m with crashReason := v },
    .string 6 "State" (fun m => m.state.toText) fun m v => { m with state := .ofText v },
    .string 7 "PlacementError" placementError fun m v => { m with placementError := v },
    .number 8 "Since" .int64 since fun m v => { m with since := v },
    .embedded 9 "ModificationTag" ModificationTag.message modificationTag
      fun m v => { m with modificationTag := v }]

def message : Message ActualLRP :=
  .ofFields ⟨⟨"", 0, ""⟩, ⟨"", ""⟩, ⟨"", none⟩, 0, "", .ofText "", "", 0, ⟨"", 0⟩⟩ fields
    fun m => { m with netInfo := m.netInfo.normal }

theorem roundTrips : message.RoundTrips fields Equal where
  generated := by
    refine Message.ofFields_generated (by decide) fun m => ?_
    refine .embedded rfl (.embedded rfl (.embedded rfl (.number (.string (.string (.string
      (.number (.embedded rfl ?_))))))))
    change { m with netInfo := m.netInfo.normal, state := .ofText m.state.toText } = _
    rw [ActualLRPState.ofText_toText]
  sound := by
    simp [fields, MessageField.embedded_sound, ActualLRPKey.roundTrips.lawful,
      ActualLRPInstanceKey.roundTrips.lawful, ActualLRPNetInfo.roundTrips.lawful,
      ModificationTag.roundTrips.lawful]
  equal m := ⟨ActualLRPNetInfo.roundTrips.equal m.netInfo, rfl⟩

end ActualLRP

namespace ActualLRPGroup

def fields : List (MessageField ActualLRPGroup) :=
  [.optional 1 "Instance" ActualLRP.message inst fun m v => { m with inst := v },
    .optional 2 "Evacuating" ActualLRP.message evacuating fun m v => { m with evacuating := v }]

def message : Message ActualLRPGroup :=
  .ofFields ⟨none, none⟩ fields
    fun m => ⟨m.inst.map ActualLRP.message.normal, m.evacuating.map ActualLRP.message.normal⟩

theorem roundTrips : message.RoundTrips fields Equal where
  generated := by
    refine Message.ofFields_generated (by decide) fun m => ?_
    exact .optional rfl rfl (.optional rfl rfl rfl)
  sound := by simp [fields, MessageField.optional_sound, ActualLRP.roundTrips.lawful]
  equal m := ⟨ActualLRP.roundTrips.pointer m.inst, ActualLRP.roundTrips.pointer m.evacuating⟩

end ActualLRPGroup

/-- What the actual LRP groups handler answers with. -/
structure ActualLRPGroups where
  actualLrpGroups : List (Option ActualLRPGroup)

namespace ActualLRPGroups

def Equal (this that : ActualLRPGroups) : Prop :=
  List.Forall₂ (Option.Rel ActualLRPGroup.Equal) this.actualLrpGroups that.actualLrpGroups

def fields : List (MessageField ActualLRPGroups) :=
  [.repeatedMessage 1 "ActualLrpGroups" ActualLRPGroup.message actualLrpGroups fun _ v => ⟨v⟩]

def message : Message ActualLRPGroups :=
  .ofFields ⟨[]⟩ fields fun m => ⟨m.actualLrpGroups.map (Option.map ActualLRPGroup.message.normal)⟩

theorem roundTrips : message.RoundTrips fields Equal where
  generated := Message.ofFields_generated (by decide) fun _ =>
    .repeatedMessage ⟨fun _ _ => rfl, fun _ _ _ => rfl, rfl, rfl⟩ rfl
  sound := by
    simp [fields, MessageField.repeatedMessage_sound, ActualLRPGroup.roundTrips.lawful]
  equal m := ActualLRPGroup.roundTrips.elements m.actualLrpGroups

end ActualLRPGroups

/-! ### Requests -/

namespace ClaimActualLRPRequest

def fields : List (MessageField ClaimActualLRPRequest) :=
  [.string 1 "ProcessGuid" processGuid fun m v => { m with processGuid := v },
    .number 2 "Index" .int32 index fun m v => { m with index := v },
    .optional 3 "ActualLrpInstanceKey" ActualLRPInstanceKey.message actualLrpInstanceKey
      fun m v => { m with actualLrpInstanceKey := v }]

def message : Message ClaimActualLRPRequest :=
  .ofFields ⟨"", 0, none⟩ fields id

theorem roundTrips : message.RoundTrips fields Eq where
  generated := by
    refine Message.ofFields_generated (by decide) fun m => .string (.number (.optional rfl rfl ?_))
    simp only [ActualLRPInstanceKey.roundTrips.pointer_eq]
    rfl
  sound := by
    simp [fields, MessageField.optional_sound, ActualLRPInstanceKey.roundTrips.lawful]
  equal _ := rfl

end ClaimActualLRPRequest

namespace StartActualLRPRequest

/-- The net infos may differ in a nil slice of ports. -/
def Equal (this that : StartActualLRPRequest) : Prop :=
  Option.Rel (fun info info' => info.equal (some info') = true) this.actualLrpNetInfo
      that.actualLrpNetInfo ∧
    { this with actualLrpNetInfo := that.actualLrpNetInfo } = that

def fields : List (MessageField StartActualLRPRequest) :=
  [.optional 1 "ActualLrpKey" ActualLRPKey.message actualLrpKey
      fun m v => { m with actualLrpKey := v },
    .optional 2 "ActualLrpInstanceKey" ActualLRPInstanceKey.message actualLrpInstanceKey
      fun m v => { m with actualLrpInstanceKey := v },
    .optional 3 "ActualLrpNetInfo" ActualLRPNetInfo.message actualLrpNetInfo
      fun m v => { m with actualLrpNetInfo := v }]

def message : Message StartActualLRPRequest :=
  .ofFields ⟨none, none, none⟩ fields
    fun m => { m with actualLrpNetInfo := m.actualLrpNetInfo.map ActualLRPNetInfo.message.normal }

theorem roundTrips : message.RoundTrips fields Equal where
  generated := by
    refine Message.ofFields_generated (by decide) fun m =>
      .optional rfl rfl (.optional rfl rfl (.optional rfl rfl ?_))
    simp only [ActualLRPKey.roundTrips.pointer_eq, ActualLRPInstanceKey.roundTrips.pointer_eq]
    rfl
  sound := by
    simp [fields, MessageField.optional_sound, ActualLRPKey.roundTrips.lawful,
      ActualLRPInstanceKey.roundTrips.lawful, ActualLRPNetInfo.roundTrips.lawful]
  equal m := ⟨ActualLRPNetInfo.roundTrips.pointer m.actualLrpNetInfo, rfl⟩

end StartActualLRPRequest

namespace CrashActualLRPRequest

def fields : List (MessageField CrashActualLRPRequest) :=
  [.optional 1 "ActualLrpKey" ActualLRPKey.message actualLrpKey
      fun m v => { m with actualLrpKey := v },
    .optional 2 "ActualLrpInstanceKey" ActualLRPInstanceKey.message actualLrpInstanceKey
      fun m v => { m with actualLrpInstanceKey := v },
    .string 3 "ErrorMessage" errorMessage fun m v => { m with errorMessage := v }]

def message : Message CrashActualLRPRequest :=
  .ofFields ⟨none, none, ""⟩ fields id

theorem roundTrips : message.RoundTrips fields Eq where
  generated := by
    refine Message.ofFields_generated (by decide) fun m =>
      .optional rfl rfl (.optional rfl rfl (.string ?_))
    simp only [ActualLRPKey.roundTrips.pointer_eq, ActualLRPInstanceKey.roundTrips.pointer_eq]
    rfl
  sound := by
    simp [fields, MessageField.optional_sound, ActualLRPKey.roundTrips.lawful,
      ActualLRPInstanceKey.roundTrips.lawful]
  equal _ := rfl

end CrashActualLRPRequest

namespace FailActualLRPRequest

def fields : List (MessageField FailActualLRPRequest) :=
  [.optional 1 "ActualLrpKey" ActualLRPKey.message actualLrpKey
      fun m v => { m with actualLrpKey := v },
    .string 2 "ErrorMessage" errorMessage fun m v => { m with errorMessage := v }]

def message : Message FailActualLRPRequest :=
  .ofFields ⟨none, ""⟩ fields id

theorem roundTrips : message.RoundTrips fields Eq where
  generated := by
    refine Message.ofFields_generated (by decide) fun m => .optional rfl rfl (.string ?_)
    simp only [ActualLRPKey.roundTrips.pointer_eq]
    rfl
  sound := by
    simp [fields, MessageField.optional_sound, ActualLRPKey.roundTrips.lawful]
  equal _ := rfl

end FailActualLRPRequest

namespace RetireActualLRPRequest

def fields : List (MessageField RetireActualLRPRequest) :=
  [.optional 1 "ActualLrpKey" ActualLRPKey.message actualLrpKey
      fun m v => { m with actualLrpKey := v }]

def message : Message RetireActualLRPRequest :=
  .ofFields ⟨none⟩ fields id

theorem roundTrips : message.RoundTrips fields Eq where
  generated := by
    refine Message.ofFields_generated (by decide) fun m => .optional rfl rfl ?_
    simp only [ActualLRPKey.roundTrips.pointer_eq]
    rfl
  sound := by
    simp [fields, MessageField.optional_sound, ActualLRPKey.roundTrips.lawful]
  equal _ := rfl

end RetireActualLRPRequest

end Bbs.Models
