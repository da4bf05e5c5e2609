import Bbs.Etcd.Client
import Bbs.Etcd.Nodes
import Bbs.Workpool

/-!
Reading groups of actual LRPs (`ActualLRPGroups`, `ActualLRPGroupsByProcessGuid`,
`ActualLRPGroupByProcessGuidAndIndex` and `parseActualLRPGroups` in
`db/etcd/actual_lrp_db.go`, `Resolve` in `models/actual_lrp.go`).

Each of them makes one recursive `Get`, so how etcd answers those is a parameter
(`Reader`). `ActualLRPGroups` lets a pool of workers parse the process directories; what
it returns is therefore a relation. The pool is made with a positive constant, which is
all that `NewThrottler` asks for.
-/

namespace Bbs.Models

structure ActualLRPFilter where
  domain : String
  cellID : String

/-- `ActualLRPFilter{}` -/
def ActualLRPFilter.empty : ActualLRPFilter :=
  ⟨"", ""⟩

/-- `none` is a panic. -/
def ActualLRPGroup.resolve (group : ActualLRPGroup) : Option (ActualLRP × Bool) :=
  match group.inst, group.evacuating with
  | none, none => none
  | none, some evacuating => some (evacuating, true)
  | some inst, none => some (inst, false)
  | some inst, some evacuating =>
      if inst.state = .running ∨ inst.state = .crashed then some (inst, false)
      else some (evacuating, true)

end Bbs.Models

namespace Bbs.Etcd

open Bbs.Interaction Bbs.Models Bbs.Workpool

/-- How etcd answers `Get(key, false, true)`. -/
abbrev Reader : Type :=
  String → Except EtcdError EtcdNode

def fetchRecursiveRaw (read : Reader) (key : String) : Except Error EtcdNode :=
  match read key with
  | .error e =>
      if e.code = etcdErrKeyNotFound then .error ErrResourceNotFound else .error ErrUnknownError
  | .ok node => .ok node

/-- Put the record of a leaf where the name of the leaf says. -/
def setRecord (group : ActualLRPGroup) (node : EtcdNode) (lrp : ActualLRP) : ActualLRPGroup :=
  let group := if isInstanceActualLRPNode node then { group with inst := some lrp } else group
  if isEvacuatingActualLRPNode node then { group with evacuating := some lrp } else group

/-! ### `parseActualLRPGroups` -/

/-- The inner loop's body. -/
def parseInstanceNode (filter : ActualLRPFilter) (group : ActualLRPGroup) (instanceNode : EtcdNode) :
    Except Error ActualLRPGroup :=
  match ActualLRP.fromJSON instanceNode.value with
  | none => .error ErrDeserializeJSON
  | some lrp =>
      if filter.domain ≠ "" ∧ lrp.key.domain ≠ filter.domain then .ok group
      else if filter.cellID ≠ "" ∧ lrp.instanceKey.cellId ≠ filter.cellID then .ok group
      else .ok (setRecord group instanceNode lrp)

def parseIndexNode (filter : ActualLRPFilter) (indexNode : EtcdNode) : Except Error ActualLRPGroup :=
  indexNode.nodes.foldlM (parseInstanceNode filter) ⟨none, none⟩

/-- The outer loop's body. -/
def appendIndexNode (filter : ActualLRPFilter) (groups : List ActualLRPGroup) (indexNode : EtcdNode) :
    Except Error (List ActualLRPGroup) := do
  let group ← parseIndexNode filter indexNode
  if group.inst ≠ none ∨ group.evacuating ≠ none then return groups ++ [group] else return groups

def parseActualLRPGroups (node : EtcdNode) (filter : ActualLRPFilter) :
    Except Error (List ActualLRPGroup) :=
  node.nodes.foldlM (appendIndexNode filter) []

/-! ### The three read paths -/

def maxActualGroupGetterWorkPoolSize : Nat :=
  50

/-- The work for one process directory. -/
def parseWork (node : EtcdNode) (filter : ActualLRPFilter) (i : Fin node.nodes.length) :
    Except Error (List ActualLRPGroup) :=
  parseActualLRPGroups (node.nodes.get i) filter

/-- What `ActualLRPGroups` may return. -/
def ActualLRPGroupsReturns (read : Reader) (filter : ActualLRPFilter)
    (outcome : Except Error (List ActualLRPGroup)) : Prop :=
  match fetchRecursiveRaw read actualLRPSchemaRoot with
  | .error e => outcome = if e = ErrResourceNotFound then .ok [] else .error e
  | .ok node =>
      if node.nodes.length = 0 then outcome = .ok []
      else
        ∃ labels pool,
          Trace (Step (parseWork node filter) maxActualGroupGetterWorkPoolSize) Pool.init labels pool ∧
            pool.Completed ∧
              outcome = match pool.error with
                | some _ => .error ErrUnknownError
                | none => .ok pool.results

def actualLRPGroupsByProcessGuid (read : Reader) (processGuid : String) :
    Except Error (List ActualLRPGroup) :=
  match fetchRecursiveRaw read (actualLRPProcessDir processGuid) with
  | .error e => if e = ErrResourceNotFound then .ok [] else .error e
  | .ok node =>
      if node.nodes.length = 0 then .ok [] else parseActualLRPGroups node ActualLRPFilter.empty

/-- The loop's body in `rawActualLRPGroupByProcessGuidAndIndex`. -/
def rawInstanceNode (group : ActualLRPGroup) (instanceNode : EtcdNode) : Except Error ActualLRPGroup :=
  match ActualLRP.fromJSON instanceNode.value with
  | none => .error ErrDeserializeJSON
  | some lrp => .ok (setRecord group instanceNode lrp)

def rawActualLRPGroupByProcessGuidAndIndex (read : Reader) (processGuid : String) (index : Int32) :
    Except Error (ActualLRPGroup × Nat) := do
  let node ← fetchRecursiveRaw read (actualLRPIndexDir processGuid index)
  let group ← node.nodes.foldlM rawInstanceNode ⟨none, none⟩
  if group.evacuating = none ∧ group.inst = none then .error ErrResourceNotFound
  else return (group, node.modifiedIndex)

def actualLRPGroupByProcessGuidAndIndex (read : Reader) (processGuid : String) (index : Int32) :
    Except Error ActualLRPGroup :=
  (rawActualLRPGroupByProcessGuidAndIndex read processGuid index).map Prod.fst

end Bbs.Etcd
