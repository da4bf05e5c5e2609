import Bbs.Etcd.Client
import Bbs.Etcd.Schema
import Bbs.Models.Encoding
import Bbs.Models.Requests
import Bbs.Models.Transitions

/-!
The lifecycle operations of `db/etcd/actual_lrp_db.go`, as programs over the calls
of `Bbs.Etcd.Client`.

Each operation follows its Go function branch by branch and makes its calls in
the same order. Pointers in requests may be nil; dereferencing one ends the
operation with `Failure.panic`. Desired LRPs are of any type `D`, read by a given
decoder. Logging is left out, and so is the branch for a failing `json.Marshal`,
which cannot be taken on a record.
-/

namespace Bbs.Etcd

open Bbs.Interaction Bbs.Versioned Bbs.Models

variable {D : Type}

/-! ### Reading -/

def fetchRaw (path : String) : Operation D (Except Error Fetched) := do
  match ← Client.get path with
  | .error e =>
      if e.code = etcdErrKeyNotFound then return .error ErrResourceNotFound
      else return .error ErrUnknownError
  | .ok found => return .ok found

/-- Decode what was fetched, together with its version. -/
def decodeFetched {α : Type} (decode : Json → Option α) : Fetched → Except Error (α × Nat)
  | .directory => .error ErrDeserializeJSON
  | .leaf node =>
      match decode node.value with
      | none => .error ErrDeserializeJSON
      | some a => .ok (a, node.modifiedIndex)

def rawActuaLLRPByProcessGuidAndIndex (processGuid : String) (index : Int32) :
    Operation D (Except Error (ActualLRP × Nat)) := do
  match ← fetchRaw (actualLRPSchemaPath processGuid index) with
  | .error e => return .error e
  | .ok found => return decodeFetched ActualLRP.unmarshal found

def desiredLRPByProcessGuid (fromJSON : Json → Option D) (processGuid : String) :
    Operation D (Except Error D) := do
  match ← fetchRaw (desiredLRPSchemaPathByProcessGuid processGuid) with
  | .error e => return .error e
  | .ok found => return (decodeFetched fromJSON found).map Prod.fst

/-! ### Claim -/

def claimActualLRP (request : ClaimActualLRPRequest) : Operation D (Except Failure ActualLRP) := do
  match ← rawActuaLLRPByProcessGuidAndIndex request.processGuid request.index with
  | .error e => return .error (.error e)
  | .ok (lrp, prevIndex) =>
      if ¬ lrp.allowsTransitionTo (some lrp.key) request.actualLrpInstanceKey .claimed then
        return .error (.error ErrActualLRPCannotBeClaimed)
      else match request.actualLrpInstanceKey with
      | none => return .error .panic
      | some instanceKey =>
          let lrp := lrp.claimedBy instanceKey
          match lrp.validate with
          | some err => return .error (.error ⟨.invalidRecord, err.error⟩)
          | none =>
              match ← Client.compareAndSwap
                (actualLRPSchemaPath request.processGuid request.index) lrp.marshal prevIndex with
              | .error _ => return .error (.error ErrActualLRPCannotBeClaimed)
              | .ok _ => return .ok lrp

/-! ### Start -/

def createRunningActualLRP (key : ActualLRPKey) (instanceKey : Option ActualLRPInstanceKey)
    (netInfo : Option ActualLRPNetInfo) : Operation D (Except Failure ActualLRP) := do
  match ← Client.newV4 with
  | .error _ => return .error (.error ErrActualLRPCannotBeStarted)
  | .ok guid =>
      match instanceKey, netInfo with
      | some instanceKey, some netInfo =>
          let now ← Client.now
          let lrp := runningActualLRP key instanceKey netInfo now guid
          match ← Client.set (actualLRPSchemaPath key.processGuid key.index)
            lrp.marshal with
          | .error _ => return .error (.error ErrActualLRPCannotBeStarted)
          | .ok _ => return .ok lrp
      | _, _ => return .error .panic

def startActualLRP (request : StartActualLRPRequest) : Operation D (Except Failure ActualLRP) := do
  match request.actualLrpKey with
  | none => return .error .panic
  | some key =>
      match ← rawActuaLLRPByProcessGuidAndIndex key.processGuid key.index with
      | .error e =>
          if e = ErrResourceNotFound then
            createRunningActualLRP key request.actualLrpInstanceKey request.actualLrpNetInfo
          else return .error (.error e)
      | .ok (lrp, prevIndex) =>
          if lrp.isStarted request then return .ok lrp
          else if ¬ lrp.allowsTransitionTo (some key) request.actualLrpInstanceKey .running then
            return .error (.error ErrActualLRPCannotBeStarted)
          else
            let now ← Client.now
            match request.actualLrpInstanceKey, request.actualLrpNetInfo with
            | some instanceKey, some netInfo =>
                let lrp := lrp.startedBy instanceKey netInfo now
                match ← Client.compareAndSwap
                  (actualLRPSchemaPath key.processGuid key.index) lrp.marshal prevIndex with
                | .error _ => return .error (.error ErrActualLRPCannotBeStarted)
                | .ok _ => return .ok lrp
            | _, _ => return .error .panic

/-! ### Crash -/

/-- After a successful delete the auction is requested too, for a nil desired LRP. -/
def requestLRPAuctionForLRPKey (fromJSON : Json → Option D) (key : ActualLRPKey) :
    Operation D (Except Error Unit) := do
  match ← desiredLRPByProcessGuid fromJSON key.processGuid with
  | .error e =>
      if e = ErrResourceNotFound then
        match ← Client.delete (actualLRPSchemaPath key.processGuid key.index) with
        | .error _ => return .error ErrUnknownError
        | .ok _ => requestAuction none
      else return .error e
  | .ok desired => requestAuction (some desired)
where
  requestAuction (desired : Option D) : Operation D (Except Error Unit) := do
    match ← Client.requestLRPAuctions
      [⟨desired, [key.index.toInt64.toUInt64]⟩] with
    | .error _ => return .error ErrUnknownError
    | .ok _ => return .ok ()

def crashActualLRP (fromJSON : Json → Option D) (request : CrashActualLRPRequest) :
    Operation D (Except Failure Unit) := do
  match request.actualLrpKey with
  | none => return .error .panic
  | some key =>
      match ← rawActuaLLRPByProcessGuidAndIndex key.processGuid key.index with
      | .error e => return .error (.error e)
      | .ok (lrp, prevIndex) =>
          let readAt ← Client.now
          let newCrashCount := lrp.newCrashCount readAt
          if ¬ lrp.allowsTransitionTo (some key) request.actualLrpInstanceKey .crashed then
            return .error (.error ErrActualLRPCannotBeCrashed)
          else if lrp.cannotCrash request.actualLrpInstanceKey then
            return .error (.error ErrActualLRPCannotBeCrashed)
          else
            let now ← Client.now
            let lrp := lrp.crashedWith newCrashCount now request.errorMessage
            match lrp.shouldRestartImmediately newDefaultRestartCalculator with
            | none => return .error .panic
            | some immediateRestart =>
                let lrp := if immediateRestart then { lrp with state := .unclaimed } else lrp
                match ← Client.compareAndSwap
                  (actualLRPSchemaPath key.processGuid key.index) lrp.marshal prevIndex with
                | .error _ => return .error (.error ErrActualLRPCannotBeCrashed)
                | .ok _ =>
                    if immediateRestart then
                      -- the source tests `err`, which is nil here, and not the auction's error
                      let _ ← requestLRPAuctionForLRPKey fromJSON key
                      return .ok ()
                    else return .ok ()

/-! ### Fail -/

def failActualLRP (request : FailActualLRPRequest) : Operation D (Except Failure Unit) := do
  match request.actualLrpKey with
  | none => return .error .panic
  | some key =>
      match ← rawActuaLLRPByProcessGuidAndIndex key.processGuid key.index with
      | .error e => return .error (.error e)
      | .ok (lrp, prevIndex) =>
          if lrp.state ≠ .unclaimed then return .error (.error ErrActualLRPCannotBeFailed)
          else
            let now ← Client.now
            let lrp := lrp.failedWith request.errorMessage now
            match ← Client.compareAndSwap
              (actualLRPSchemaPath key.processGuid key.index) lrp.marshal prevIndex with
            | .error _ => return .error (.error ErrActualLRPCannotBeFailed)
            | .ok _ => return .ok ()

/-! ### Remove and retire -/

/-- The path is computed from the record, not taken from the request. -/
def removeActualLRP (lrp : ActualLRP) (prevIndex : Nat) : Operation D (Except Error Unit) := do
  match ← Client.compareAndDelete
    (actualLRPSchemaPath lrp.key.processGuid lrp.key.index) prevIndex with
  | .error _ => return .error ErrActualLRPCannotBeRemoved
  | .ok _ => return .ok ()

/-- The exported `RemoveActualLRP`. -/
def removeActualLRPByIndex (processGuid : String) (index : Int32) :
    Operation D (Except Error Unit) := do
  match ← rawActuaLLRPByProcessGuidAndIndex processGuid index with
  | .error e => return .error e
  | .ok (lrp, prevIndex) => removeActualLRP lrp prevIndex

/-- The body of the retire loop once a record was read. -/
def retireOnce (lrp : ActualLRP) (prevIndex : Nat) : Operation D (Except Error Unit) := do
  if lrp.state = .unclaimed ∨ lrp.state = .crashed then removeActualLRP lrp prevIndex
  else
    match ← Client.cellById lrp.instanceKey.cellId with
    | .error e =>
        if e = ErrResourceNotFound then removeActualLRP lrp prevIndex
        else return .error e
    | .ok cell =>
        match ← Client.stopLRPInstance cell.repAddress lrp.key lrp.instanceKey with
        | .error _ => return .error ErrActualLRPCannotBeStopped
        | .ok _ => return .ok ()

/-- The retire loop with its attempts left and the error of the last one. Only a
failed read ends it early; `break` inside the `switch` does not. -/
def retireLoop (processGuid : String) (index : Int32) :
    Nat → Except Error Unit → Operation D (Except Error Unit)
  | 0, err => return err
  | attempts + 1, _ => do
      match ← rawActuaLLRPByProcessGuidAndIndex processGuid index with
      | .error e => return .error e
      | .ok (lrp, prevIndex) =>
          match ← retireOnce lrp prevIndex with
          | .ok _ => return .ok ()
          | .error e => retireLoop processGuid index attempts (.error e)

def retireActualLRP (request : RetireActualLRPRequest) : Operation D (Except Failure Unit) := do
  match request.actualLrpKey with
  | none => return .error .panic
  | some key =>
      return (← retireLoop key.processGuid key.index retireActualLRPRetryAttempts (.ok ())).mapError
        .error

/-! ### All lifecycle requests -/

inductive Request where
  | claim (request : ClaimActualLRPRequest)
  | start (request : StartActualLRPRequest)
  | crash (request : CrashActualLRPRequest)
  | fail (request : FailActualLRPRequest)
  | remove (processGuid : String) (index : Int32)
  | retire (request : RetireActualLRPRequest)

namespace Request

/-- A remove request has no `Validate`. -/
def validate : Request → Option ErrorValue
  | .claim request => request.validate
  | .start request => request.validate
  | .crash request => request.validate
  | .fail request => request.validate
  | .remove _ _ => none
  | .retire request => request.validate

/-- The process guid and index a request names, unless its key is nil. -/
def slot : Request → Option (String × Int32)
  | .claim request => some (request.processGuid, request.index)
  | .start request => request.actualLrpKey.map fun key => (key.processGuid, key.index)
  | .crash request => request.actualLrpKey.map fun key => (key.processGuid, key.index)
  | .fail request => request.actualLrpKey.map fun key => (key.processGuid, key.index)
  | .remove processGuid index => some (processGuid, index)
  | .retire request => request.actualLrpKey.map fun key => (key.processGuid, key.index)

/-- The instance node of the slot a request names. -/
def path (request : Request) : Option String :=
  request.slot.map fun s => actualLRPSchemaPath s.1 s.2

/-- The operation that serves a request. Claim and start return a record. -/
def program (fromJSON : Json → Option D) :
    Request → Operation D (Except Failure (Option ActualLRP))
  | .claim request => do return (← claimActualLRP request).map some
  | .start request => do return (← startActualLRP request).map some
  | .crash request => do return (← crashActualLRP fromJSON request).map fun _ => none
  | .fail request => do return (← failActualLRP request).map fun _ => none
  | .remove processGuid index => do
      return ((← removeActualLRPByIndex processGuid index).map fun _ => none).mapError .error
  | .retire request => do return (← retireActualLRP request).map fun _ => none

end Request

end Bbs.Etcd
