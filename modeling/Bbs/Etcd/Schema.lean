import Bbs.Path
import Bbs.Text

/-!
Where records live in etcd (`ActualLRPProcessDir` to `EvacuatingActualLRPSchemaPath`
in `db/etcd/actual_lrp_db.go`, `DesiredLRPSchemaPathByProcessGuid` in
`db/etcd/desired_lrp_db.go`).

The functions join as the source does. The lemmas describe the result by its
components: whatever the process guid, a slot's directory is found by descending
along the guid from the schema root, and the last two components are the index
and the literal (`actualLRPSchemaPath_eq`). Only a guid that is a single plain
component leads exactly one level down.
-/

namespace Bbs.Etcd

open Bbs.Path Bbs.Text

def dataSchemaRoot : String :=
  "/v1/"

def actualLRPSchemaRoot : String :=
  dataSchemaRoot ++ "actual"

def desiredLRPSchemaRoot : String :=
  dataSchemaRoot ++ "desired"

/-- The constant `ActualLRPInstanceKey`. -/
def actualLRPInstanceKey : String :=
  "instance"

def actualLRPEvacuatingKey : String :=
  "evacuating"

def actualLRPProcessDir (processGuid : String) : String :=
  join [actualLRPSchemaRoot, processGuid]

def actualLRPIndexDir (processGuid : String) (index : Int32) : String :=
  join [actualLRPProcessDir processGuid, itoa index.toInt]

def actualLRPSchemaPath (processGuid : String) (index : Int32) : String :=
  join [actualLRPIndexDir processGuid index, actualLRPInstanceKey]

def evacuatingActualLRPSchemaPath (processGuid : String) (index : Int32) : String :=
  join [actualLRPIndexDir processGuid index, actualLRPEvacuatingKey]

def desiredLRPSchemaPathByProcessGuid (processGuid : String) : String :=
  join [desiredLRPSchemaRoot, processGuid]

/-! ### Components -/

theorem plain_itoa (n : Int) : Plain (itoa n).toList := by
  obtain ⟨nonempty, digits⟩ := itoa_chars n
  have absent : ∀ c : Char, c.isDigit = false → c ≠ '-' → c ∉ (itoa n).toList := by
    intro c notDigit notSign hc
    rcases digits c hc with h | h
    · rw [notDigit] at h
      cases h
    · exact notSign h
  have dot : '.' ∉ (itoa n).toList := absent '.' (by decide) (by decide)
  refine ⟨nonempty, fun h => dot (by simp [h]), fun h => dot (by simp [h]), ?_⟩
  exact absent '/' (by decide) (by decide)

def actualRoot : List Component :=
  ["v1".toList, "actual".toList]

def desiredRoot : List Component :=
  ["v1".toList, "desired".toList]

theorem actualRoot_plain : ∀ c ∈ actualRoot, Plain c := by
  decide

theorem desiredRoot_plain : ∀ c ∈ desiredRoot, Plain c := by
  decide

theorem actualLRPSchemaRoot_eq : actualLRPSchemaRoot = render actualRoot := by
  decide

theorem desiredLRPSchemaRoot_eq : desiredLRPSchemaRoot = render desiredRoot := by
  decide

/-- The components of a slot's node, `literal` being the last. -/
def slotComponents (processGuid : String) (index : Int32) (literal : String) : List Component :=
  descend actualRoot processGuid ++ [(itoa index.toInt).toList, literal.toList]

theorem slotComponents_plain (processGuid : String) (index : Int32) {literal : String}
    (h : Plain literal.toList) : ∀ c ∈ slotComponents processGuid index literal, Plain c := by
  intro c hc
  simp only [slotComponents, List.mem_append, List.mem_cons, List.not_mem_nil, or_false] at hc
  rcases hc with hc | rfl | rfl
  · exact descend_isPlain actualRoot_plain processGuid c hc
  · exact plain_itoa _
  · exact h

/-- Joining a plain literal onto a slot's directory. -/
theorem join_indexDir (processGuid : String) (index : Int32) {literal : String}
    (h : Plain literal.toList) :
    join [actualLRPIndexDir processGuid index, literal] =
      render (slotComponents processGuid index literal) := by
  have guid := descend_isPlain actualRoot_plain processGuid
  have dir : ∀ c ∈ descend actualRoot processGuid ++ [(itoa index.toInt).toList], Plain c := by
    intro c hc
    rcases List.mem_append.mp hc with hc | hc
    · exact guid c hc
    · rw [List.mem_singleton.mp hc]
      exact plain_itoa _
  rw [actualLRPIndexDir, actualLRPProcessDir, actualLRPSchemaRoot_eq, join_render actualRoot_plain,
    join_render guid, descend_plain (plain_itoa _), join_render dir, descend_plain h]
  simp [slotComponents]

theorem plain_instance : Plain actualLRPInstanceKey.toList := by
  decide

theorem plain_evacuating : Plain actualLRPEvacuatingKey.toList := by
  decide

theorem actualLRPSchemaPath_eq (processGuid : String) (index : Int32) :
    actualLRPSchemaPath processGuid index =
      render (slotComponents processGuid index actualLRPInstanceKey) :=
  join_indexDir processGuid index plain_instance

theorem evacuatingActualLRPSchemaPath_eq (processGuid : String) (index : Int32) :
    evacuatingActualLRPSchemaPath processGuid index =
      render (slotComponents processGuid index actualLRPEvacuatingKey) :=
  join_indexDir processGuid index plain_evacuating

theorem desiredLRPSchemaPath_eq (processGuid : String) :
    desiredLRPSchemaPathByProcessGuid processGuid = render (descend desiredRoot processGuid) := by
  rw [desiredLRPSchemaPathByProcessGuid, desiredLRPSchemaRoot_eq, join_render desiredRoot_plain]

/-! ### Paths that never coincide -/

/-- An evacuating node is never the instance node of any slot. -/
theorem evacuating_ne_instance (guid guid' : String) (index index' : Int32) :
    evacuatingActualLRPSchemaPath guid index ≠ actualLRPSchemaPath guid' index' := by
  rw [evacuatingActualLRPSchemaPath_eq, actualLRPSchemaPath_eq]
  intro same
  have eq := render_injective (slotComponents_plain guid index plain_evacuating)
    (slotComponents_plain guid' index' plain_instance) same
  have last := congrArg List.getLast? eq
  simp [slotComponents, actualLRPEvacuatingKey, actualLRPInstanceKey] at last

/-- A slot's instance node is never the desired LRP of the same process guid. -/
theorem desired_ne_instance (guid : String) (index : Int32) :
    desiredLRPSchemaPathByProcessGuid guid ≠ actualLRPSchemaPath guid index := by
  rw [desiredLRPSchemaPath_eq, actualLRPSchemaPath_eq]
  intro same
  have eq := render_injective (descend_isPlain desiredRoot_plain guid)
    (slotComponents_plain guid index plain_instance) same
  have depth := descend_length desiredRoot_plain actualRoot_plain rfl guid
  have := congrArg List.length eq
  simp [slotComponents] at this
  omega

/-! ### Slots of plain process guids -/

theorem slotComponents_of_plain {processGuid : String} (h : Plain processGuid.toList)
    (index : Int32) (literal : String) : slotComponents processGuid index literal =
      actualRoot ++ [processGuid.toList, (itoa index.toInt).toList, literal.toList] := by
  rw [slotComponents, descend_plain h]
  simp

/-- Plain process guids give every slot its own node for each literal. -/
theorem slotComponents_injective {guid guid' : String} (h : Plain guid.toList)
    (h' : Plain guid'.toList) {index index' : Int32} {literal literal' : String}
    (plain : Plain literal.toList) (plain' : Plain literal'.toList)
    (same : render (slotComponents guid index literal) =
      render (slotComponents guid' index' literal')) : guid = guid' ∧ index = index' := by
  have eq := render_injective (slotComponents_plain guid index plain)
    (slotComponents_plain guid' index' plain') same
  rw [slotComponents_of_plain h, slotComponents_of_plain h'] at eq
  simp only [List.append_cancel_left_eq, List.cons.injEq, and_true, String.toList_inj] at eq
  exact ⟨eq.1, Int32.toInt_inj.mp (itoa_injective eq.2.1)⟩

theorem actualLRPSchemaPath_injective {guid guid' : String} (h : Plain guid.toList)
    (h' : Plain guid'.toList) {index index' : Int32}
    (same : actualLRPSchemaPath guid index = actualLRPSchemaPath guid' index') :
    guid = guid' ∧ index = index' := by
  rw [actualLRPSchemaPath_eq, actualLRPSchemaPath_eq] at same
  exact slotComponents_injective h h' plain_instance plain_instance same

theorem evacuatingActualLRPSchemaPath_injective {guid guid' : String} (h : Plain guid.toList)
    (h' : Plain guid'.toList) {index index' : Int32}
    (same : evacuatingActualLRPSchemaPath guid index = evacuatingActualLRPSchemaPath guid' index') :
    guid = guid' ∧ index = index' := by
  rw [evacuatingActualLRPSchemaPath_eq, evacuatingActualLRPSchemaPath_eq] at same
  exact slotComponents_injective h h' plain_evacuating plain_evacuating same

/-! ### Directories of plain process guids -/

theorem actualLRPProcessDir_of_plain {processGuid : String} (h : Plain processGuid.toList) :
    actualLRPProcessDir processGuid = render (actualRoot ++ [processGuid.toList]) := by
  rw [actualLRPProcessDir, actualLRPSchemaRoot_eq, join_render actualRoot_plain, descend_plain h]

theorem actualLRPIndexDir_of_plain {processGuid : String} (h : Plain processGuid.toList)
    (index : Int32) : actualLRPIndexDir processGuid index =
      render (actualRoot ++ [processGuid.toList, (itoa index.toInt).toList]) := by
  have process : ∀ c ∈ actualRoot ++ [processGuid.toList], Plain c := by
    intro c hc
    rcases List.mem_append.mp hc with hc | hc
    · exact actualRoot_plain c hc
    · rwa [List.mem_singleton.mp hc]
  rw [actualLRPIndexDir, actualLRPProcessDir_of_plain h, join_render process,
    descend_plain (plain_itoa _), List.append_assoc, List.singleton_append]

-- from here on paths are known by their lemmas and never computed
attribute [irreducible] actualLRPSchemaPath evacuatingActualLRPSchemaPath
  desiredLRPSchemaPathByProcessGuid

end Bbs.Etcd
