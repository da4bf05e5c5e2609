import Bbs.Etcd.Calls

/-!
Which nodes belong to which key.

The schema gives every key an instance node and an evacuating node, and means to
put them three components below its root: the process guid, the index and a
literal. The guid is joined on as it comes, though, and the check of a key asks
only that it is not empty. So the schema keeps keys apart exactly for guids that are
one plain component each (`schema_keeps_apart_iff`); a guid with slashes or dots can
lead to another key's node, or out of the schema root (`schema_mixes_keys`).
-/

namespace Bbs.Etcd

open Bbs.Interaction Bbs.Path Bbs.Text Bbs.Models

variable {D : Type}

/-- A start is about the instance node of its own key and no other. -/
theorem start_calls_own (fromJSON : Json → Option D) (start : StartActualLRPRequest) :
    ((Request.start start).program fromJSON).Calls fun c =>
      ∀ path, c.node = some path → (Request.start start).path = some path := by
  refine ((Request.start start).calls fromJSON).mono fun c may path node => ?_
  cases c with
  | get p =>
      obtain rfl : p = path := Option.some.inj node
      rcases may with own | ⟨crash, key, h, -⟩
      · exact own
      · cases h
  | compareAndSwap p value version =>
      obtain rfl : p = path := Option.some.inj node
      exact may
  | set p value =>
      obtain rfl : p = path := Option.some.inj node
      exact may.1
  | compareAndDelete p version => rcases may with ⟨_, _, h⟩ | ⟨_, h⟩ <;> cases h
  | delete p => cases may.2.choose_spec
  | now | newV4 | cellById | stopLRPInstance | requestLRPAuctions => cases node

/-- The two nodes of a key. -/
def nodesOf (key : ActualLRPKey) : List String :=
  [actualLRPSchemaPath key.processGuid key.index,
    evacuatingActualLRPSchemaPath key.processGuid key.index]

/-- The key's nodes lie three components below the schema root: the process guid, the
index and the literal. -/
def Placed (key : ActualLRPKey) : Prop :=
  components (actualLRPSchemaPath key.processGuid key.index) =
      components actualLRPSchemaRoot ++
        [key.processGuid, itoa key.index.toInt, actualLRPInstanceKey] ∧
    components (evacuatingActualLRPSchemaPath key.processGuid key.index) =
      components actualLRPSchemaRoot ++
        [key.processGuid, itoa key.index.toInt, actualLRPEvacuatingKey]

/-- The starts for `key` that are accepted stay away from the nodes of `other` and below
the schema root. -/
def KeepsTo (fromJSON : Json → Option D) (key other : ActualLRPKey) : Prop :=
  ∀ start : StartActualLRPRequest, start.validate = none → start.actualLrpKey = some key →
    ((Request.start start).program fromJSON).Calls fun c =>
      ∀ path, c.node = some path → path ∉ nodesOf other ∧
        components actualLRPSchemaRoot <+: components path

/-! ### Plain guids -/

theorem components_root : components actualLRPSchemaRoot = ["v1", "actual"] := by
  decide

/-- A key is placed as meant exactly if its process guid is one plain component. -/
theorem placed_iff {key : ActualLRPKey} : Placed key ↔ Plain key.processGuid.toList := by
  constructor
  · rintro ⟨placed, -⟩
    rw [actualLRPSchemaPath_eq,
      components_render (slotComponents_plain _ _ plain_instance)] at placed
    -- the components of a cleaned path are plain, the guid among them
    have mem : key.processGuid ∈ (slotComponents key.processGuid key.index
        actualLRPInstanceKey).map String.ofList := by
      simp [placed]
    obtain ⟨c, hc, same⟩ := List.mem_map.mp mem
    rw [← same, String.toList_ofList]
    exact slotComponents_plain _ _ plain_instance c hc
  · intro plain
    rw [Placed, actualLRPSchemaPath_eq, evacuatingActualLRPSchemaPath_eq,
      components_render (slotComponents_plain _ _ plain_instance),
      components_render (slotComponents_plain _ _ plain_evacuating), components_root,
      slotComponents_of_plain plain, slotComponents_of_plain plain]
    simp [actualRoot]

variable {key other : ActualLRPKey}

/-- The nodes of two plain keys that differ are four. -/
theorem nodesOf_nodup (plain : Plain key.processGuid.toList) (plain' : Plain other.processGuid.toList)
    (different : key.processGuid ≠ other.processGuid ∨ key.index ≠ other.index) :
    (nodesOf key ++ nodesOf other).Nodup := by
  have apart : ¬ (key.processGuid = other.processGuid ∧ key.index = other.index) := by tauto
  have instances : actualLRPSchemaPath key.processGuid key.index ≠
      actualLRPSchemaPath other.processGuid other.index :=
    fun same => apart (actualLRPSchemaPath_injective plain plain' same)
  have evacuatings : evacuatingActualLRPSchemaPath key.processGuid key.index ≠
      evacuatingActualLRPSchemaPath other.processGuid other.index :=
    fun same => apart (evacuatingActualLRPSchemaPath_injective plain plain' same)
  simp [nodesOf, instances, evacuatings, evacuating_ne_instance, (evacuating_ne_instance _ _ _ _).symm]

/-- Between two plain keys that differ, a start for one keeps away from the other. -/
theorem keepsTo_of_plain (fromJSON : Json → Option D) (plain : Plain key.processGuid.toList)
    (plain' : Plain other.processGuid.toList)
    (different : key.processGuid ≠ other.processGuid ∨ key.index ≠ other.index) :
    KeepsTo fromJSON key other := by
  intro start _ keyed
  refine (start_calls_own fromJSON start).mono fun c own path node => ?_
  obtain rfl : actualLRPSchemaPath key.processGuid key.index = path := by
    simpa [Request.path, Request.slot, keyed] using own path node
  constructor
  · have apart := List.disjoint_of_nodup_append (nodesOf_nodup plain plain' different)
    exact apart List.mem_cons_self
  · rw [(placed_iff.mpr plain).1]
    exact List.prefix_append _ _

/-- **The schema keeps two keys apart exactly if their process guids are plain
components.** Then their four nodes are different, each lies three components below the
schema root, and a start that is accepted for one of the keys is about no node of the
other and about none outside the root. -/
theorem schema_keeps_apart_iff (fromJSON : Json → Option D)
    (different : key.processGuid ≠ other.processGuid ∨ key.index ≠ other.index) :
    ((nodesOf key ++ nodesOf other).Nodup ∧ Placed key ∧ Placed other ∧
      KeepsTo fromJSON key other ∧ KeepsTo fromJSON other key) ↔
        Plain key.processGuid.toList ∧ Plain other.processGuid.toList := by
  constructor
  · rintro ⟨-, placed, placed', -⟩
    exact ⟨placed_iff.mp placed, placed_iff.mp placed'⟩
  · rintro ⟨plain, plain'⟩
    have different' : other.processGuid ≠ key.processGuid ∨ other.index ≠ key.index :=
      different.imp Ne.symm Ne.symm
    exact ⟨nodesOf_nodup plain plain' different, placed_iff.mpr plain, placed_iff.mpr plain',
      keepsTo_of_plain fromJSON plain plain' different,
      keepsTo_of_plain fromJSON plain' plain different'⟩

/-- Two instances of one process. -/
theorem schema_keeps_apart_iff_sample :
    KeepsTo (fun _ => (none : Option Unit)) ⟨"process", 0, "domain"⟩ ⟨"process", 1, "domain"⟩ :=
  ((schema_keeps_apart_iff _ (.inr (by decide))).mpr ⟨by decide, by decide⟩).2.2.2.1

/-- Keys that are accepted, and differ, but share their nodes; and a key that is accepted
and has its nodes below the root of the desired LRPs. -/
theorem schema_mixes_keys :
    let key : ActualLRPKey := ⟨"process", 0, "domain"⟩
    let dotted : ActualLRPKey := ⟨"./process", 0, "domain"⟩
    let outside : ActualLRPKey := ⟨"../desired", 0, "domain"⟩
    (key.validate = none ∧ dotted.validate = none ∧ key.processGuid ≠ dotted.processGuid ∧
      nodesOf key = nodesOf dotted) ∧
    outside.validate = none ∧
      nodesOf outside = ["/v1/desired/0/instance", "/v1/desired/0/evacuating"] := by
  decide +kernel

end Bbs.Etcd
