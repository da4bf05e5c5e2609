import Bbs.Etcd.ActualLRPDB
import Bbs.Utf8

/-!
`StartActualLRP` on instance keys of any bytes.

Elsewhere the strings of a request are texts. A Go string holds any bytes, and the only check that
`Validate` makes of an instance key is that it is not empty. A record in memory has the bytes of the
request, but `json.Marshal` writes them with U+FFFD in place of what is no UTF-8, and that is what a
later request reads and compares its own bytes with. On instance keys that are valid UTF-8 this is
`startActualLRP` (`rawStartActualLRP_ofText`). The other strings of a request stay texts.
-/

namespace Bbs.Etcd

open Bbs.Interaction Bbs.Models Bbs.Utf8

variable {D : Type}

/-- An instance key as a request has it. -/
structure RawInstanceKey where
  instanceGuid : List UInt8
  cellId : List UInt8
  deriving DecidableEq

namespace RawInstanceKey

/-- The instance key that is read from JSON. -/
def ofText (key : ActualLRPInstanceKey) : RawInstanceKey :=
  ⟨utf8 key.instanceGuid, utf8 key.cellId⟩

/-- The instance key that is written to JSON. -/
def written (key : RawInstanceKey) : ActualLRPInstanceKey :=
  ⟨coerce key.instanceGuid, coerce key.cellId⟩

/-- Both strings are valid UTF-8. -/
def ValidUtf8 (key : RawInstanceKey) : Prop :=
  ∃ text, key = ofText text

@[simp] theorem written_ofText (key : ActualLRPInstanceKey) : (ofText key).written = key := by
  simp [ofText, written]

theorem ofText_injective : Function.Injective ofText :=
  Function.LeftInverse.injective written_ofText

@[simp] theorem ofText_inj {key key' : ActualLRPInstanceKey} :
    ofText key = ofText key' ↔ key = key' :=
  ofText_injective.eq_iff

theorem ValidUtf8.ofText_written {key : RawInstanceKey} (valid : key.ValidUtf8) :
    ofText key.written = key := by
  obtain ⟨text, rfl⟩ := valid
  rw [written_ofText]

end RawInstanceKey

/-- A record in memory: what `json.Marshal` makes of it, and its own instance key. -/
structure RawActualLRP where
  record : ActualLRP
  instanceKey : RawInstanceKey

def RawActualLRP.ofText (lrp : ActualLRP) : RawActualLRP :=
  ⟨lrp, .ofText lrp.instanceKey⟩

/-- The first test of `StartActualLRP`, on a record that was read. -/
def rawIsStarted (lrp : ActualLRP) (key : ActualLRPKey) (instanceKey : RawInstanceKey)
    (netInfo : ActualLRPNetInfo) : Bool :=
  lrp.key.equal (some key) && RawInstanceKey.ofText lrp.instanceKey = instanceKey &&
    lrp.netInfo.equal (some netInfo) && lrp.state = .running

/-- `AllowsTransitionTo(key, instanceKey, ActualLRPStateRunning)` -/
def rawAllowsRunning (before : ActualLRP) (key : ActualLRPKey) (instanceKey : RawInstanceKey) :
    Bool :=
  if ¬ before.key.equal (some key) then false
  else if before.state = .claimed then true
  else if (before.state = .claimed ∨ before.state = .running) ∧
      RawInstanceKey.ofText before.instanceKey ≠ instanceKey then false
  else true

def rawCreateRunningActualLRP (key : ActualLRPKey) (instanceKey : RawInstanceKey)
    (netInfo : ActualLRPNetInfo) : Operation D (Except Failure RawActualLRP) := do
  match ← Client.newV4 with
  | .error _ => return .error (.error ErrActualLRPCannotBeStarted)
  | .ok guid =>
      let now ← Client.now
      let lrp := runningActualLRP key instanceKey.written netInfo now guid
      match ← Client.set (actualLRPSchemaPath key.processGuid key.index) lrp.marshal with
      | .error _ => return .error (.error ErrActualLRPCannotBeStarted)
      | .ok _ => return .ok ⟨lrp, instanceKey⟩

def rawStartActualLRP (key : ActualLRPKey) (instanceKey : RawInstanceKey)
    (netInfo : ActualLRPNetInfo) : Operation D (Except Failure RawActualLRP) := do
  match ← rawActuaLLRPByProcessGuidAndIndex key.processGuid key.index with
  | .error e =>
      if e = ErrResourceNotFound then rawCreateRunningActualLRP key instanceKey netInfo
      else return .error (.error e)
  | .ok (lrp, prevIndex) =>
      if rawIsStarted lrp key instanceKey netInfo then return .ok (.ofText lrp)
      else if ¬ rawAllowsRunning lrp key instanceKey then
        return .error (.error ErrActualLRPCannotBeStarted)
      else
        let now ← Client.now
        let lrp := lrp.startedBy instanceKey.written netInfo now
        match ← Client.compareAndSwap
          (actualLRPSchemaPath key.processGuid key.index) lrp.marshal prevIndex with
        | .error _ => return .error (.error ErrActualLRPCannotBeStarted)
        | .ok _ => return .ok ⟨lrp, instanceKey⟩

/-! ### On valid UTF-8 -/

section

variable {key : ActualLRPKey} {instanceKey : ActualLRPInstanceKey} {netInfo : ActualLRPNetInfo}

theorem rawIsStarted_ofText (lrp : ActualLRP) :
    rawIsStarted lrp key (.ofText instanceKey) netInfo =
      lrp.isStarted ⟨some key, some instanceKey, some netInfo⟩ := by
  have same : decide (RawInstanceKey.ofText lrp.instanceKey = .ofText instanceKey) =
      lrp.instanceKey.equal (some instanceKey) := by
    rw [Bool.eq_iff_iff, decide_eq_true_iff, RawInstanceKey.ofText_inj,
      ActualLRPInstanceKey.equal_iff, Option.some.injEq]
    exact eq_comm
  rw [rawIsStarted, ActualLRP.isStarted, same]

theorem rawAllowsRunning_ofText (lrp : ActualLRP) :
    rawAllowsRunning lrp key (.ofText instanceKey) =
      lrp.allowsTransitionTo (some key) (some instanceKey) .running := by
  have other : RawInstanceKey.ofText lrp.instanceKey ≠ .ofText instanceKey ↔
      ¬ lrp.instanceKey.equal (some instanceKey) = true := by
    rw [ne_eq, RawInstanceKey.ofText_inj, ActualLRPInstanceKey.equal_iff, Option.some.injEq,
      eq_comm]
  simp only [rawAllowsRunning, ActualLRP.allowsTransitionTo, other, or_true, and_true, true_and]

theorem rawCreateRunningActualLRP_ofText :
    (rawCreateRunningActualLRP key (.ofText instanceKey) netInfo : Operation D _) = (do
      return (← createRunningActualLRP key (some instanceKey) (some netInfo)).map .ofText) := by
  rw [rawCreateRunningActualLRP, RawInstanceKey.written_ofText]
  refine congrArg (Program.call _) (funext fun drawn => ?_)
  cases drawn with
  | error => rfl
  | ok guid =>
    refine congrArg (Program.call _) (funext fun now => congrArg (Program.call _) ?_)
    funext answer
    cases answer <;> rfl

/-- **The two levels agree** on instance keys that are valid UTF-8. -/
theorem rawStartActualLRP_ofText :
    (rawStartActualLRP key (.ofText instanceKey) netInfo : Operation D _) = (do
      return (← startActualLRP ⟨some key, some instanceKey, some netInfo⟩).map .ofText) := by
  rw [rawStartActualLRP, startActualLRP]
  dsimp only
  rw [Program.bind_assoc]
  congr 1
  funext found
  rcases found with e | ⟨lrp, prevIndex⟩
  · dsimp only
    split
    · exact rawCreateRunningActualLRP_ofText
    · rfl
  · dsimp only
    rw [rawIsStarted_ofText, rawAllowsRunning_ofText, RawInstanceKey.written_ofText]
    split
    · rfl
    · split
      · rfl
      · refine congrArg (Program.call _) (funext fun now => congrArg (Program.call _) ?_)
        funext answer
        cases answer <;> rfl

end

end Bbs.Etcd
