import Bbs.Json
import Bbs.Models.ActualLRP

/-!
How actual LRP records are written to and read from the store as JSON.

The embedded structs of a record are flattened, so its members are those of the
key, the instance key and the net info followed by its own. `crash_reason` and
`placement_error` are left out when empty. Reading is total on what was written:
`ActualLRP.unmarshal_marshal`.
-/

namespace Bbs.Models

open Bbs.Json

/-! ### State names -/

def ActualLRPState.toText : ActualLRPState → String
  | .unclaimed => "UNCLAIMED"
  | .claimed => "CLAIMED"
  | .running => "RUNNING"
  | .crashed => "CRASHED"
  | .other text _ => text

def ActualLRPState.ofText (text : String) : ActualLRPState :=
  if h₁ : text = "UNCLAIMED" then .unclaimed
  else if h₂ : text = "CLAIMED" then .claimed
  else if h₃ : text = "RUNNING" then .running
  else if h₄ : text = "CRASHED" then .crashed
  else .other text (by simp [stateNames, h₁, h₂, h₃, h₄])

@[simp] theorem ActualLRPState.ofText_toText (state : ActualLRPState) :
    ofText state.toText = state := by
  cases state with
  | other text undeclared =>
      have h := undeclared
      simp only [stateNames, List.mem_cons, List.not_mem_nil, or_false, not_or] at h
      simp [ofText, toText, h]
  | _ => rfl

/-! ### Port mappings and tags -/

inductive PortMappingField where
  | containerPort
  | hostPort
  deriving DecidableEq

def PortMappingField.name : PortMappingField → String
  | .containerPort => "container_port"
  | .hostPort => "host_port"

def PortMapping.fieldOf : String → Option PortMappingField :=
  fieldNamed [.containerPort, .hostPort] PortMappingField.name

def PortMapping.setField (mapping : PortMapping) (field : PortMappingField) (value : Json) :
    Option PortMapping :=
  match field with
  | .containerPort => (decodeUInt32 mapping.containerPort value).map fun port =>
      { mapping with containerPort := port }
  | .hostPort => (decodeUInt32 mapping.hostPort value).map fun port =>
      { mapping with hostPort := port }

def PortMapping.marshal (mapping : PortMapping) : Json :=
  .obj <| [(PortMappingField.containerPort, Json.num mapping.containerPort.toNat),
    (.hostPort, .num mapping.hostPort.toNat)].map fun p => (p.1.name, p.2)

/-- A port entry is a pointer; nil is written as `null`. -/
def marshalPort : Option PortMapping → Json
  | none => .null
  | some mapping => mapping.marshal

def unmarshalPort : Option PortMapping → Json → Option (Option PortMapping) :=
  decodePointer ⟨0, 0⟩ (decodeStruct PortMapping.fieldOf PortMapping.setField)

inductive TagField where
  | epoch
  | index
  deriving DecidableEq

def TagField.name : TagField → String
  | .epoch => "epoch"
  | .index => "index"

def ModificationTag.fieldOf : String → Option TagField :=
  fieldNamed [.epoch, .index] TagField.name

def ModificationTag.setField (tag : ModificationTag) (field : TagField) (value : Json) :
    Option ModificationTag :=
  match field with
  | .epoch => (decodeString tag.epoch value).map fun epoch => { tag with epoch := epoch }
  | .index => (decodeUInt32 tag.index value).map fun index => { tag with index := index }

def ModificationTag.marshal (tag : ModificationTag) : Json :=
  .obj <| [(TagField.epoch, Json.str tag.epoch), (.index, .num tag.index.toNat)].map fun p =>
    (p.1.name, p.2)

theorem unmarshalPort_marshalPort (port : Option PortMapping) :
    unmarshalPort none (marshalPort port) = some port := by
  have named : ∀ f, PortMapping.fieldOf (PortMappingField.name f) = some f := by
    intro f
    refine fieldNamed_name ?_ ?_
    · decide
    · cases f <;> simp
  cases port with
  | none => rfl
  | some mapping =>
      simp only [unmarshalPort, marshalPort, PortMapping.marshal, decodePointer, decodeStruct,
        decodeMembers_named named]
      simp [PortMapping.setField]

theorem ModificationTag.unmarshal_marshal (old tag : ModificationTag) :
    decodeStruct fieldOf setField old tag.marshal = some tag := by
  have named : ∀ f, fieldOf (TagField.name f) = some f := by
    intro f
    refine fieldNamed_name ?_ ?_
    · decide
    · cases f <;> simp
  simp only [marshal, decodeStruct, decodeMembers_named named]
  simp [setField]

/-! ### Records -/

inductive RecordField where
  | processGuid
  | index
  | domain
  | instanceGuid
  | cellId
  | address
  | ports
  | crashCount
  | crashReason
  | state
  | placementError
  | since
  | modificationTag
  deriving DecidableEq

def RecordField.name : RecordField → String
  | .processGuid => "process_guid"
  | .index => "index"
  | .domain => "domain"
  | .instanceGuid => "instance_guid"
  | .cellId => "cell_id"
  | .address => "address"
  | .ports => "ports"
  | .crashCount => "crash_count"
  | .crashReason => "crash_reason"
  | .state => "state"
  | .placementError => "placement_error"
  | .since => "since"
  | .modificationTag => "modification_tag"

def ActualLRP.fieldOf : String → Option RecordField :=
  fieldNamed [.processGuid, .index, .domain, .instanceGuid, .cellId, .address, .ports, .crashCount,
    .crashReason, .state, .placementError, .since, .modificationTag] RecordField.name

/-- The zero record that decoding starts from. -/
def ActualLRP.zero : ActualLRP where
  key := ⟨"", 0, ""⟩
  instanceKey := ⟨"", ""⟩
  netInfo := ⟨"", none⟩
  crashCount := 0
  crashReason := ""
  state := .ofText ""
  placementError := ""
  since := 0
  modificationTag := ⟨"", 0⟩

def ActualLRP.setField (lrp : ActualLRP) (field : RecordField) (value : Json) :
    Option ActualLRP :=
  match field with
  | .processGuid => (decodeString lrp.key.processGuid value).map fun guid =>
      { lrp with key := { lrp.key with processGuid := guid } }
  | .index => (decodeInt32 lrp.key.index value).map fun index =>
      { lrp with key := { lrp.key with index := index } }
  | .domain => (decodeString lrp.key.domain value).map fun domain =>
      { lrp with key := { lrp.key with domain := domain } }
  | .instanceGuid => (decodeString lrp.instanceKey.instanceGuid value).map fun guid =>
      { lrp with instanceKey := { lrp.instanceKey with instanceGuid := guid } }
  | .cellId => (decodeString lrp.instanceKey.cellId value).map fun cell =>
      { lrp with instanceKey := { lrp.instanceKey with cellId := cell } }
  | .address => (decodeString lrp.netInfo.address value).map fun address =>
      { lrp with netInfo := { lrp.netInfo with address := address } }
  | .ports => (decodeSlice none unmarshalPort lrp.netInfo.ports value).map fun ports =>
      { lrp with netInfo := { lrp.netInfo with ports := ports } }
  | .crashCount => (decodeInt32 lrp.crashCount value).map fun count =>
      { lrp with crashCount := count }
  | .crashReason => (decodeString lrp.crashReason value).map fun reason =>
      { lrp with crashReason := reason }
  | .state => (decodeString lrp.state.toText value).map fun text =>
      { lrp with state := .ofText text }
  | .placementError => (decodeString lrp.placementError value).map fun text =>
      { lrp with placementError := text }
  | .since => (decodeInt64 lrp.since value).map fun since => { lrp with since := since }
  | .modificationTag =>
      (decodeStruct ModificationTag.fieldOf ModificationTag.setField lrp.modificationTag value).map
        fun tag => { lrp with modificationTag := tag }

def marshalPorts : Option (List (Option PortMapping)) → Json
  | none => .null
  | some ports => .arr (ports.map marshalPort)

/-- A string member that is left out when empty. -/
def omitEmpty (field : RecordField) (text : String) : List (RecordField × Json) :=
  if text = "" then [] else [(field, .str text)]

def ActualLRP.members (lrp : ActualLRP) : List (RecordField × Json) :=
  [(.processGuid, .str lrp.key.processGuid), (.index, .num lrp.key.index.toInt),
    (.domain, .str lrp.key.domain), (.instanceGuid, .str lrp.instanceKey.instanceGuid),
    (.cellId, .str lrp.instanceKey.cellId), (.address, .str lrp.netInfo.address),
    (.ports, marshalPorts lrp.netInfo.ports), (.crashCount, .num lrp.crashCount.toInt)] ++
  omitEmpty .crashReason lrp.crashReason ++ [(.state, .str lrp.state.toText)] ++
  omitEmpty .placementError lrp.placementError ++
  [(.since, .num lrp.since.toInt), (.modificationTag, lrp.modificationTag.marshal)]

/-- What `json.Marshal` makes of a record. It cannot fail on one. -/
def ActualLRP.marshal (lrp : ActualLRP) : Json :=
  .obj (lrp.members.map fun p => (p.1.name, p.2))

/-- What `json.Unmarshal` makes of a stored value, `none` being its error. -/
def ActualLRP.unmarshal : Json → Option ActualLRP :=
  decodeStruct fieldOf setField zero

theorem ActualLRP.fieldOf_name (field : RecordField) : fieldOf field.name = some field := by
  refine fieldNamed_name ?_ ?_
  · decide
  · cases field <;> simp

theorem decodeSlice_marshalPorts (ports : Option (List (Option PortMapping))) :
    decodeSlice none unmarshalPort none (marshalPorts ports) = some ports := by
  cases ports with
  | none => rfl
  | some ports =>
      simp [marshalPorts, decodeSlice, decodeElements_map unmarshalPort_marshalPort]

/-- Reading back what was written gives the record that was written. -/
@[simp] theorem ActualLRP.unmarshal_marshal (lrp : ActualLRP) :
    unmarshal lrp.marshal = some lrp := by
  simp only [unmarshal, marshal, decodeStruct, decodeMembers_named fieldOf_name]
  -- what decoding starts with matters only for the two members that may be missing
  by_cases reason : lrp.crashReason = "" <;> by_cases placement : lrp.placementError = "" <;>
    simp [members, omitEmpty, setField, zero, reason, placement, decodeSlice_marshalPorts,
      ModificationTag.unmarshal_marshal] <;>
    cases lrp <;> simp_all

-- the round trip is all that is used of the encoding of a record
attribute [irreducible] ActualLRP.marshal ActualLRP.unmarshal

end Bbs.Models
