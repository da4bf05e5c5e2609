import Bbs.Etcd.Schema
import Bbs.Models.Encoding

/-!
Nodes as the etcd client returns them, and the actual LRP records in them
(`isInstanceActualLRPNode` and `isEvacuatingActualLRPNode` in
`db/etcd/actual_lrp_db.go`, `FromJSON` in `models/encoding.go`).
-/

namespace Bbs.Models

/-- `FromJSON` for actual LRPs. A text that is not JSON, such as the empty one of a
directory, is `none`. -/
def ActualLRP.fromJSON (payload : Option Json) : Option ActualLRP :=
  (payload.bind ActualLRP.unmarshal).filter fun lrp => lrp.validate.isNone

theorem ActualLRP.fromJSON_eq_some {payload : Option Json} {lrp : ActualLRP} :
    ActualLRP.fromJSON payload = some lrp ↔
      ∃ value, payload = some value ∧ ActualLRP.unmarshal value = some lrp ∧ lrp.validate = none := by
  rw [fromJSON, Option.filter_eq_some_iff, Option.bind_eq_some_iff, Option.isNone_iff_eq_none]
  constructor
  · rintro ⟨⟨value, given, decoded⟩, valid⟩
    exact ⟨value, given, decoded, valid⟩
  · rintro ⟨value, given, decoded, valid⟩
    exact ⟨⟨value, given, decoded⟩, valid⟩

/-- The two records of one slot, each of which may be missing. `inst` is `Instance`. -/
structure ActualLRPGroup where
  inst : Option ActualLRP
  evacuating : Option ActualLRP
  deriving DecidableEq

end Bbs.Models

namespace Bbs.Etcd

open Bbs.Path Bbs.Text

/-- An `etcd.Node`, with the fields that are read. -/
structure EtcdNode where
  key : String
  value : Option Json
  dir : Bool
  modifiedIndex : Nat
  nodes : List EtcdNode

def isInstanceActualLRPNode (node : EtcdNode) : Bool :=
  base node.key = actualLRPInstanceKey

def isEvacuatingActualLRPNode (node : EtcdNode) : Bool :=
  base node.key = actualLRPEvacuatingKey

/-- The last component of a slot's node tells which of the two it is. -/
theorem base_slot (processGuid : String) (index : Int32) {literal : String}
    (plain : Plain literal.toList) :
    base (render (slotComponents processGuid index literal)) = literal := by
  have last : slotComponents processGuid index literal =
      (descend actualRoot processGuid ++ [(itoa index.toInt).toList]) ++ [literal.toList] := by
    simp [slotComponents]
  rw [last, base_render_concat plain, String.ofList_toList]

theorem base_actualLRPSchemaPath (processGuid : String) (index : Int32) :
    base (actualLRPSchemaPath processGuid index) = actualLRPInstanceKey := by
  rw [actualLRPSchemaPath_eq, base_slot processGuid index plain_instance]

theorem base_evacuatingActualLRPSchemaPath (processGuid : String) (index : Int32) :
    base (evacuatingActualLRPSchemaPath processGuid index) = actualLRPEvacuatingKey := by
  rw [evacuatingActualLRPSchemaPath_eq, base_slot processGuid index plain_evacuating]

end Bbs.Etcd
