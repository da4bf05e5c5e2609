import Bbs.Interaction.Program
import Bbs.Versioned
import Bbs.Json
import Bbs.Models.ActualLRP

/-!
The calls the lifecycle operations make, and what etcd answers.

Calls go to etcd, to the clock, to the UUID generator, to the cell registry, to a
cell and to the auctioneer. Only etcd has a state here. `etcd` says which answers
it may give in which store: any call may fail with an error, a failed write has
not been applied, and a conditional write applies only to the version it names.
All the others may answer anything at any time.

`effect` reads off an exchange the change that was applied, if any; a store
changes by effects and by nothing else.
-/

namespace Bbs.Etcd

open Bbs.Interaction Bbs.Versioned Bbs.Models

/-- An error of the etcd client, with the code `etcdErrCode` extracts from it. -/
structure EtcdError where
  code : Nat
  deriving DecidableEq

/-- The constant `ETCDErrKeyNotFound`. -/
def etcdErrKeyNotFound : Nat :=
  100

/-- What `Get` finds. A directory has no value, which no decoder accepts. -/
inductive Fetched where
  | leaf (node : Node Json)
  | directory

/-- The part of a cell's presence that stopping an instance needs. -/
structure CellPresence where
  repAddress : String

/-- An auction request for a desired LRP of type `D`, which may be nil. -/
structure LRPStartRequest (D : Type) where
  desiredLRP : Option D
  indices : List UInt64

inductive Call (D : Type) where
  | get (path : String)
  | compareAndSwap (path : String) (value : Json) (prevIndex : Nat)
  | set (path : String) (value : Json)
  | compareAndDelete (path : String) (prevIndex : Nat)
  | delete (path : String)
  | now
  | newV4
  | cellById (cellId : String)
  | stopLRPInstance (repAddress : String) (key : ActualLRPKey) (instanceKey : ActualLRPInstanceKey)
  | requestLRPAuctions (starts : List (LRPStartRequest D))

variable {D : Type}

abbrev Answer : Call D → Type
  | .get _ => Except EtcdError Fetched
  | .compareAndSwap .. => Except EtcdError Unit
  | .set .. => Except EtcdError Unit
  | .compareAndDelete .. => Except EtcdError Unit
  | .delete _ => Except EtcdError Unit
  | .now => Int64
  | .newV4 => Except Unit String
  | .cellById _ => Except Error CellPresence
  | .stopLRPInstance .. => Except Unit Unit
  | .requestLRPAuctions _ => Except Unit Unit

/-- The etcd node that a call is about. -/
def Call.node : Call D → Option String
  | .get path => some path
  | .compareAndSwap path _ _ => some path
  | .set path _ => some path
  | .compareAndDelete path _ => some path
  | .delete path => some path
  | .now => none
  | .newV4 => none
  | .cellById _ => none
  | .stopLRPInstance _ _ _ => none
  | .requestLRPAuctions _ => none

instance (c : Call D) : Nonempty (Answer c) := by
  cases c with
  | now => exact ⟨(0 : Int64)⟩
  | get | compareAndSwap | set | compareAndDelete | delete => exact ⟨.error ⟨0⟩⟩
  | cellById => exact ⟨.error ErrUnknownError⟩
  | newV4 | stopLRPInstance | requestLRPAuctions => exact ⟨.error ()⟩

/-! ### The clients' methods -/

abbrev Operation (D α : Type) : Type :=
  Program (Call D) Answer α

namespace Client

abbrev get (path : String) : Operation D (Except EtcdError Fetched) :=
  .call (.get path) .ret

abbrev compareAndSwap (path : String) (value : Json) (prevIndex : Nat) :
    Operation D (Except EtcdError Unit) :=
  .call (.compareAndSwap path value prevIndex) .ret

abbrev set (path : String) (value : Json) : Operation D (Except EtcdError Unit) :=
  .call (.set path value) .ret

abbrev compareAndDelete (path : String) (prevIndex : Nat) : Operation D (Except EtcdError Unit) :=
  .call (.compareAndDelete path prevIndex) .ret

abbrev delete (path : String) : Operation D (Except EtcdError Unit) :=
  .call (.delete path) .ret

abbrev now : Operation D Int64 :=
  .call .now .ret

abbrev newV4 : Operation D (Except Unit String) :=
  .call .newV4 .ret

abbrev cellById (cellId : String) : Operation D (Except Error CellPresence) :=
  .call (.cellById cellId) .ret

abbrev stopLRPInstance (repAddress : String) (key : ActualLRPKey)
    (instanceKey : ActualLRPInstanceKey) : Operation D (Except Unit Unit) :=
  .call (.stopLRPInstance repAddress key instanceKey) .ret

abbrev requestLRPAuctions (starts : List (LRPStartRequest D)) : Operation D (Except Unit Unit) :=
  .call (.requestLRPAuctions starts) .ret

end Client

/-- The contents of etcd. -/
abbrev Records := Store String Json

/-! ### Effects -/

/-- A change that a store underwent. -/
inductive Effect where
  | put (path : String) (value : Json)
  | drop (path : String)

def Effect.path : Effect → String
  | .put path _ => path
  | .drop path => path

def Effect.apply : Effect → Records → Records
  | .put path value, σ => σ.write path value
  | .drop path, σ => σ.erase path

/-- The change that an exchange applied to the store. -/
def effect : Exchange (Call D) Answer → Option Effect
  | ⟨.compareAndSwap path value _, .ok _⟩ => some (.put path value)
  | ⟨.set path value, .ok _⟩ => some (.put path value)
  | ⟨.compareAndDelete path _, .ok _⟩ => some (.drop path)
  | ⟨.delete path, .ok _⟩ => some (.drop path)
  | _ => none

/-- No change at all, or the given one. -/
def settle : Option Effect → Records → Records
  | none, σ => σ
  | some change, σ => change.apply σ

/-- Whether the store holds, at `path`, the version `prevIndex`. -/
def HoldsVersion (σ : Records) (path : String) (prevIndex : Nat) : Prop :=
  ∃ node, σ.nodes path = some node ∧ node.modifiedIndex = prevIndex

/-- The answers a store may give. -/
def Allowed (σ : Records) : (c : Call D) → Answer c → Prop
  | .get path, .ok (.leaf node) => σ.nodes path = some node
  | .get path, .ok .directory => σ.nodes path = none
  | .get path, .error e => e.code = etcdErrKeyNotFound → σ.nodes path = none
  | .compareAndSwap path _ prevIndex, .ok _ => HoldsVersion σ path prevIndex
  | .compareAndDelete path prevIndex, .ok _ => HoldsVersion σ path prevIndex
  | .delete path, .ok _ => σ.nodes path ≠ none
  | _, _ => True

/-- The environment of the lifecycle operations. -/
def etcd : Environment Records (Call D) Answer :=
  fun σ c answer σ' => Allowed σ c answer ∧ σ' = settle (effect ⟨c, answer⟩) σ

theorem Effect.le_apply (change : Effect) (σ : Records) : σ ≤ change.apply σ := by
  cases change with
  | put path value => exact σ.le_write path value
  | drop path => exact σ.le_erase path

theorem Effect.apply_nodes_of_ne (change : Effect) (σ : Records) {path : String}
    (h : path ≠ change.path) : (change.apply σ).nodes path = σ.nodes path := by
  cases change with
  | put _ value => exact σ.write_nodes_of_ne h value
  | drop _ => exact σ.erase_nodes_of_ne h

section Environment

variable {σ σ' : Records} {c : Call D} {answer : Answer c}

/-- Stores only get later. -/
theorem etcd_le (step : etcd σ c answer σ') : σ ≤ σ' := by
  rw [step.2]
  cases effect ⟨c, answer⟩ with
  | none => exact le_refl σ
  | some change => exact change.le_apply σ

theorem etcd_of_effect_none (step : etcd σ c answer σ') (h : effect ⟨c, answer⟩ = none) :
    σ' = σ := by
  rw [step.2, h]
  rfl

theorem etcd_of_effect_some (step : etcd σ c answer σ') {change : Effect}
    (h : effect ⟨c, answer⟩ = some change) : σ' = change.apply σ := by
  rw [step.2, h]
  rfl

end Environment

end Bbs.Etcd
