import Bbs.Models.ActualLRP

/-!
The lifecycle requests and their `Validate` methods
(`models/actual_lrp_requests.proto`, `models/actual_lrp_requests.go`).

Message-typed fields are pointers and may be nil, which `Validate` rejects. The
`validate_eq_none_iff` lemmas say what an accepted request carries.
-/

namespace Bbs.Models

/-- Reject a nil pointer as the invalid field `field`, and validate what any
other pointer points to. -/
def ValidationError.pointer {α : Type} (ve : ValidationError) (field : String) (p : Option α)
    (validate : α → Option ErrorValue) : ValidationError :=
  match p with
  | none => ve.append (.invalidField field)
  | some a => ve.extend (validate a)

structure ClaimActualLRPRequest where
  processGuid : String
  index : Int32
  actualLrpInstanceKey : Option ActualLRPInstanceKey
  deriving DecidableEq

structure StartActualLRPRequest where
  actualLrpKey : Option ActualLRPKey
  actualLrpInstanceKey : Option ActualLRPInstanceKey
  actualLrpNetInfo : Option ActualLRPNetInfo
  deriving DecidableEq

structure CrashActualLRPRequest where
  actualLrpKey : Option ActualLRPKey
  actualLrpInstanceKey : Option ActualLRPInstanceKey
  errorMessage : String
  deriving DecidableEq

structure FailActualLRPRequest where
  actualLrpKey : Option ActualLRPKey
  errorMessage : String
  deriving DecidableEq

structure RetireActualLRPRequest where
  actualLrpKey : Option ActualLRPKey
  deriving DecidableEq

def StartActualLRPRequest.validate (request : StartActualLRPRequest) : Option ErrorValue :=
  ValidationError.result <|
    ValidationError.nil
      |>.pointer "actual_lrp_key" request.actualLrpKey ActualLRPKey.validate
      |>.pointer "actual_lrp_instance_key" request.actualLrpInstanceKey ActualLRPInstanceKey.validate
      |>.pointer "actual_lrp_net_info" request.actualLrpNetInfo ActualLRPNetInfo.validate

def ClaimActualLRPRequest.validate (request : ClaimActualLRPRequest) : Option ErrorValue :=
  ValidationError.result <|
    ValidationError.nil
      |>.check (request.processGuid = "") (.invalidField "process_guid")
      |>.pointer "actual_lrp_instance_key" request.actualLrpInstanceKey ActualLRPInstanceKey.validate

def CrashActualLRPRequest.validate (request : CrashActualLRPRequest) : Option ErrorValue :=
  ValidationError.result <|
    ValidationError.nil
      |>.pointer "actual_lrp_key" request.actualLrpKey ActualLRPKey.validate
      |>.pointer "actual_lrp_instance_key" request.actualLrpInstanceKey ActualLRPInstanceKey.validate

def FailActualLRPRequest.validate (request : FailActualLRPRequest) : Option ErrorValue :=
  ValidationError.result <|
    ValidationError.nil
      |>.pointer "actual_lrp_key" request.actualLrpKey ActualLRPKey.validate
      |>.check (request.errorMessage = "") (.invalidField "error_message")

def RetireActualLRPRequest.validate (request : RetireActualLRPRequest) : Option ErrorValue :=
  ValidationError.result <|
    ValidationError.nil
      |>.pointer "actual_lrp_key" request.actualLrpKey ActualLRPKey.validate

/-! ### What accepted requests carry -/

/-- Nothing is reported through a pointer iff it points to something accepted. -/
theorem ValidationError.pointer_eq_nil {α : Type} {ve : ValidationError} {field : String}
    {p : Option α} (validate : α → Option ErrorValue)
    (proper : ∀ a, ∃ other : ValidationError, validate a = other.result) :
    ve.pointer field p validate = [] ↔ ve = [] ∧ ∃ a, p = some a ∧ validate a = none := by
  cases p with
  | none => simp [pointer, append]
  | some a =>
      obtain ⟨other, h⟩ := proper a
      simp [pointer, h]

theorem pointer_key {ve : ValidationError} {field : String} {p : Option ActualLRPKey} :
    ve.pointer field p ActualLRPKey.validate = [] ↔ ve = [] ∧ ∃ key, p = some key ∧ key.Valid := by
  rw [ValidationError.pointer_eq_nil ActualLRPKey.validate fun _ => ⟨_, rfl⟩]
  simp only [ActualLRPKey.validate_eq_none_iff]

theorem pointer_instanceKey {ve : ValidationError} {field : String}
    {p : Option ActualLRPInstanceKey} :
    ve.pointer field p ActualLRPInstanceKey.validate = [] ↔
      ve = [] ∧ ∃ key, p = some key ∧ key.Valid := by
  rw [ValidationError.pointer_eq_nil ActualLRPInstanceKey.validate fun _ => ⟨_, rfl⟩]
  simp only [ActualLRPInstanceKey.validate_eq_none_iff]

theorem pointer_netInfo {ve : ValidationError} {field : String} {p : Option ActualLRPNetInfo} :
    ve.pointer field p ActualLRPNetInfo.validate = [] ↔
      ve = [] ∧ ∃ info, p = some info ∧ info.address ≠ "" := by
  rw [ValidationError.pointer_eq_nil ActualLRPNetInfo.validate fun _ => ⟨_, rfl⟩]
  simp only [ActualLRPNetInfo.validate_eq_none_iff]

theorem StartActualLRPRequest.validate_eq_none_iff {request : StartActualLRPRequest} :
    request.validate = none ↔ ∃ key instanceKey netInfo,
      request = ⟨some key, some instanceKey, some netInfo⟩ ∧ key.Valid ∧ instanceKey.Valid ∧
        netInfo.address ≠ "" := by
  rcases request with ⟨key, instanceKey, netInfo⟩
  simp only [validate, ValidationError.result_eq_none, pointer_netInfo, pointer_instanceKey,
    pointer_key, ValidationError.nil_eq, true_and, StartActualLRPRequest.mk.injEq]
  constructor
  · rintro ⟨⟨⟨key, rfl, hk⟩, instanceKey, rfl, hi⟩, netInfo, rfl, hn⟩
    exact ⟨key, instanceKey, netInfo, ⟨rfl, rfl, rfl⟩, hk, hi, hn⟩
  · rintro ⟨key, instanceKey, netInfo, ⟨rfl, rfl, rfl⟩, hk, hi, hn⟩
    exact ⟨⟨⟨key, rfl, hk⟩, instanceKey, rfl, hi⟩, netInfo, rfl, hn⟩

end Bbs.Models
