import Bbs.Text
import Bbs.Models.Errors

/-!
The actual LRP record (`models/actual_lrp.proto`, `models/actual_lrp.go`): its
parts, the generated `Equal` methods, `Validate`, and the transition guard
`AllowsTransitionTo`.

`ActualLRP.Valid` says what a record that passes `Validate` looks like, state by
state, and `ActualLRP.validate_eq_none_iff` is the only place where `Validate` is
taken apart.
-/

namespace Bbs.Models

open Bbs.Text

/-! ### Data -/

structure ActualLRPKey where
  processGuid : String
  index : Int32
  domain : String
  deriving DecidableEq

structure ActualLRPInstanceKey where
  instanceGuid : String
  cellId : String
  deriving DecidableEq

structure PortMapping where
  containerPort : UInt32
  hostPort : UInt32
  deriving DecidableEq

/-- `ports` is a slice of pointers: nil or a list, and each entry may be nil. -/
structure ActualLRPNetInfo where
  address : String
  ports : Option (List (Option PortMapping))
  deriving DecidableEq

structure ModificationTag where
  epoch : String
  index : UInt32
  deriving DecidableEq

def stateNames : List String :=
  ["UNCLAIMED", "CLAIMED", "RUNNING", "CRASHED"]

/-- The `State` string of a record: one of the four declared names, or any other
text that a decoded record may carry. -/
inductive ActualLRPState where
  | unclaimed
  | claimed
  | running
  | crashed
  | other (text : String) (undeclared : text ∉ stateNames)
  deriving DecidableEq

structure ActualLRP where
  key : ActualLRPKey
  instanceKey : ActualLRPInstanceKey
  netInfo : ActualLRPNetInfo
  crashCount : Int32
  crashReason : String
  state : ActualLRPState
  placementError : String
  since : Int64
  modificationTag : ModificationTag
  deriving DecidableEq

/-- `CrashResetTimeout`, five minutes in nanoseconds. -/
def crashResetTimeout : Int64 :=
  5 * 60 * 1000000000

def retireActualLRPRetryAttempts : Nat :=
  5

/-! ### Comparison and small methods -/

/-- `Equal` on keys; the other key comes by pointer and may be nil. -/
def ActualLRPKey.equal (this : ActualLRPKey) : Option ActualLRPKey → Bool
  | none => false
  | some that => this.processGuid = that.processGuid && this.index = that.index &&
      this.domain = that.domain

def ActualLRPInstanceKey.equal (this : ActualLRPInstanceKey) : Option ActualLRPInstanceKey → Bool
  | none => false
  | some that => this.instanceGuid = that.instanceGuid && this.cellId = that.cellId

/-- The ports as `len` and `range` see them: a nil slice has none. -/
def ActualLRPNetInfo.portList (info : ActualLRPNetInfo) : List (Option PortMapping) :=
  info.ports.getD []

/-- Same address, as many ports, and port by port equal. -/
def ActualLRPNetInfo.equal (this : ActualLRPNetInfo) : Option ActualLRPNetInfo → Bool
  | none => false
  | some that => this.address = that.address && this.portList = that.portList

def ActualLRPInstanceKey.empty (key : ActualLRPInstanceKey) : Bool :=
  key.instanceGuid = "" && key.cellId = ""

def ActualLRPNetInfo.empty (info : ActualLRPNetInfo) : Bool :=
  info.address = "" && info.portList.length = 0

/-- `EmptyActualLRPNetInfo`: no address, and an empty slice rather than nil. -/
def emptyActualLRPNetInfo : ActualLRPNetInfo :=
  ⟨"", some []⟩

def ModificationTag.increment (tag : ModificationTag) : ModificationTag :=
  { tag with index := tag.index + 1 }

@[simp] theorem ActualLRPKey.equal_iff {this : ActualLRPKey} {that : Option ActualLRPKey} :
    this.equal that = true ↔ that = some this := by
  rcases this with ⟨guid, index, domain⟩
  rcases that with _ | ⟨guid', index', domain'⟩
  · simp [equal]
  · simp only [equal, Bool.and_eq_true, decide_eq_true_eq, Option.some.injEq,
      ActualLRPKey.mk.injEq]
    constructor
    · rintro ⟨⟨rfl, rfl⟩, rfl⟩
      exact ⟨rfl, rfl, rfl⟩
    · rintro ⟨rfl, rfl, rfl⟩
      exact ⟨⟨rfl, rfl⟩, rfl⟩

@[simp] theorem ActualLRPInstanceKey.equal_iff {this : ActualLRPInstanceKey}
    {that : Option ActualLRPInstanceKey} : this.equal that = true ↔ that = some this := by
  rcases this with ⟨guid, cell⟩
  rcases that with _ | ⟨guid', cell'⟩
  · simp [equal]
  · simp only [equal, Bool.and_eq_true, decide_eq_true_eq, Option.some.injEq,
      ActualLRPInstanceKey.mk.injEq]
    constructor
    · rintro ⟨rfl, rfl⟩
      exact ⟨rfl, rfl⟩
    · rintro ⟨rfl, rfl⟩
      exact ⟨rfl, rfl⟩

/-! ### Validation -/

def ActualLRPKey.validate (key : ActualLRPKey) : Option ErrorValue :=
  ValidationError.result <|
    ValidationError.nil
      |>.check (key.processGuid = "") (.invalidField "process_guid")
      |>.check (key.index < 0) (.invalidField "index")
      |>.check (key.domain = "") (.invalidField "domain")

def ActualLRPNetInfo.validate (info : ActualLRPNetInfo) : Option ErrorValue :=
  ValidationError.result <|
    ValidationError.nil
      |>.check (info.address = "") (.invalidField "address")

def ActualLRPInstanceKey.validate (key : ActualLRPInstanceKey) : Option ErrorValue :=
  ValidationError.result <|
    ValidationError.nil
      |>.check (key.cellId = "") (.invalidField "cell_id")
      |>.check (key.instanceGuid = "") (.invalidField "instance_guid")

/-- The checks that depend on the state. -/
def ActualLRP.validateState (actual : ActualLRP) (ve : ValidationError) : ValidationError :=
  match actual.state with
  | .unclaimed => ve
      |>.check (¬ actual.instanceKey.empty) (.text "instance key cannot be set when state is unclaimed")
      |>.check (¬ actual.netInfo.empty) (.text "net info cannot be set when state is unclaimed")
  | .claimed => ve
      |>.extend actual.instanceKey.validate
      |>.check (¬ actual.netInfo.empty) (.text "net info cannot be set when state is claimed")
      |>.check (trimSpace actual.placementError ≠ "")
        (.text "placement error cannot be set when state is claimed")
  | .running => ve
      |>.extend actual.instanceKey.validate
      |>.extend actual.netInfo.validate
      |>.check (trimSpace actual.placementError ≠ "")
        (.text "placement error cannot be set when state is running")
  | .crashed => ve
      |>.check (¬ actual.instanceKey.empty) (.text "instance key cannot be set when state is crashed")
      |>.check (¬ actual.netInfo.empty) (.text "net info cannot be set when state is crashed")
      |>.check (trimSpace actual.placementError ≠ "")
        (.text "placement error cannot be set when state is crashed")
  | .other _ _ => ve.append (.invalidField "state")

def ActualLRP.validate (actual : ActualLRP) : Option ErrorValue :=
  ValidationError.result <| actual.validateState <|
    ValidationError.nil
      |>.extend actual.key.validate
      |>.check (actual.since = 0) (.invalidField "since")

def ActualLRPKey.Valid (key : ActualLRPKey) : Prop :=
  key.processGuid ≠ "" ∧ ¬ key.index < 0 ∧ key.domain ≠ ""

def ActualLRPInstanceKey.Valid (key : ActualLRPInstanceKey) : Prop :=
  key.cellId ≠ "" ∧ key.instanceGuid ≠ ""

/-- What each state asks of the instance key, the net info and the placement
error. -/
def ActualLRP.StateValid (actual : ActualLRP) : Prop :=
  match actual.state with
  | .unclaimed => actual.instanceKey.empty ∧ actual.netInfo.empty
  | .claimed => actual.instanceKey.Valid ∧ actual.netInfo.empty ∧
      trimSpace actual.placementError = ""
  | .running => actual.instanceKey.Valid ∧ actual.netInfo.address ≠ "" ∧
      trimSpace actual.placementError = ""
  | .crashed => actual.instanceKey.empty ∧ actual.netInfo.empty ∧
      trimSpace actual.placementError = ""
  | .other _ _ => False

/-- A record that passes `Validate`. -/
def ActualLRP.Valid (actual : ActualLRP) : Prop :=
  actual.key.Valid ∧ actual.since ≠ 0 ∧ actual.StateValid

theorem ActualLRPKey.validate_eq_none_iff {key : ActualLRPKey} :
    key.validate = none ↔ key.Valid := by
  simp [validate, Valid, and_assoc]

theorem ActualLRPInstanceKey.validate_eq_none_iff {key : ActualLRPInstanceKey} :
    key.validate = none ↔ key.Valid := by
  simp [validate, Valid]

theorem ActualLRPNetInfo.validate_eq_none_iff {info : ActualLRPNetInfo} :
    info.validate = none ↔ info.address ≠ "" := by
  simp [validate]

theorem ActualLRP.validate_eq_none_iff {actual : ActualLRP} :
    actual.validate = none ↔ actual.Valid := by
  cases h : actual.state <;>
    simp [validate, validateState, Valid, StateValid, h, ActualLRPKey.validate, ActualLRPKey.Valid,
      ActualLRPInstanceKey.validate, ActualLRPInstanceKey.Valid, ActualLRPNetInfo.validate,
      and_assoc, ValidationError.append]

/-! ### The transition guard -/

/-- `AllowsTransitionTo` -/
def ActualLRP.allowsTransitionTo (before : ActualLRP) (lrpKey : Option ActualLRPKey)
    (instanceKey : Option ActualLRPInstanceKey) (newState : ActualLRPState) : Bool :=
  if ¬ before.key.equal lrpKey then false
  else if before.state = .claimed ∧ newState = .running then true
  else if (before.state = .claimed ∨ before.state = .running) ∧
      (newState = .claimed ∨ newState = .running) ∧ ¬ before.instanceKey.equal instanceKey then false
  else true

/-- The guard asks for the record's own key. Beyond that it only protects a held
record, against a change of holder, and a claimed one may still be started by
anybody. -/
theorem ActualLRP.allowsTransitionTo_iff {before : ActualLRP} {lrpKey : Option ActualLRPKey}
    {instanceKey : Option ActualLRPInstanceKey} {newState : ActualLRPState} :
    before.allowsTransitionTo lrpKey instanceKey newState = true ↔
      lrpKey = some before.key ∧
        ((before.state = .claimed ∨ before.state = .running) →
          (newState = .claimed ∨ newState = .running) →
          (before.state = .claimed ∧ newState = .running) ∨
            instanceKey = some before.instanceKey) := by
  unfold allowsTransitionTo
  by_cases key : lrpKey = some before.key
  · simp only [key, ActualLRPKey.equal_iff, ActualLRPInstanceKey.equal_iff]
    by_cases free : before.state = .claimed ∧ newState = .running
    · simp [free]
    · simp only [free, if_false, false_or]
      by_cases same : instanceKey = some before.instanceKey
      · simp [same]
      · by_cases held : before.state = .claimed ∨ before.state = .running <;> simp [same, held]
  · simp [key]

end Bbs.Models
