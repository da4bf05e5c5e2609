import Bbs.Etcd.Client
import Bbs.Watch.Dispatcher

/-!
What there is to see for a watch.

A history is a list of changes to etcd, of which a watch sees those under the schema
root of actual LRPs. `Expect` says which callbacks such a history ought to lead to: one
for every change of a record, in order. Replaying these over the contents at the start
gives the contents at the end (`Expect.replay`).
-/

namespace Bbs.Watch

open Bbs.Etcd Bbs.Models Bbs.Versioned Bbs.Path

/-! ### Slots -/

/-- Where a record may be: the slot of a process guid that is a single component of a
path, and one of the two nodes there. -/
structure Slot where
  processGuid : String
  index : Int32
  evacuating : Bool
  plain : Plain processGuid.toList
  deriving DecidableEq

def Slot.path (slot : Slot) : String :=
  if slot.evacuating then evacuatingActualLRPSchemaPath slot.processGuid slot.index
  else actualLRPSchemaPath slot.processGuid slot.index

/-- The record belongs into the slot by its key. -/
def Slot.Holds (slot : Slot) (lrp : ActualLRP) : Prop :=
  lrp.key.processGuid = slot.processGuid ∧ lrp.key.index = slot.index

instance (slot : Slot) (lrp : ActualLRP) : Decidable (slot.Holds lrp) :=
  inferInstanceAs (Decidable (_ ∧ _))

def Slot.group (slot : Slot) (lrp : ActualLRP) : ActualLRPGroup :=
  groupOf slot.evacuating lrp

theorem Slot.path_injective {slot slot' : Slot} (same : slot.path = slot'.path) : slot = slot' := by
  rcases slot with ⟨guid, index, evacuating, plain⟩
  rcases slot' with ⟨guid', index', evacuating', plain'⟩
  cases evacuating <;> cases evacuating' <;> simp only [Slot.path, if_true, if_false,
    Bool.false_eq_true] at same
  · obtain ⟨rfl, rfl⟩ := actualLRPSchemaPath_injective plain plain' same
    rfl
  · exact absurd same.symm (evacuating_ne_instance guid' guid index' index)
  · exact absurd same (evacuating_ne_instance guid guid' index index')
  · obtain ⟨rfl, rfl⟩ := evacuatingActualLRPSchemaPath_injective plain plain' same
    rfl

theorem Slot.isEvacuating_path {slot : Slot} {node : EtcdNode} (key : node.key = slot.path) :
    isEvacuatingActualLRPNode node = slot.evacuating := by
  rcases slot with ⟨guid, index, evacuating, plain⟩
  rw [isEvacuatingActualLRPNode, key]
  cases evacuating
  · simp only [Slot.path, Bool.false_eq_true, if_false, base_actualLRPSchemaPath]
    decide
  · simp only [Slot.path, if_true, base_evacuatingActualLRPSchemaPath]
    decide

/-! ### Changes -/

inductive PutAction where
  | create
  | set
  | update
  | compareAndSwap

def PutAction.name : PutAction → String
  | .create => "create"
  | .set => "set"
  | .update => "update"
  | .compareAndSwap => "compareAndSwap"

inductive DropAction where
  | delete
  | compareAndDelete
  | expire

def DropAction.name : DropAction → String
  | .delete => "delete"
  | .compareAndDelete => "compareAndDelete"
  | .expire => "expire"

/-- A change to etcd. -/
inductive Change where
  | put (action : PutAction) (path : String) (value : Json)
  | drop (action : DropAction) (path : String)
  /-- a directory without leaves goes, which was last modified at `modifiedIndex` -/
  | dropDirectory (action : DropAction) (path : String) (modifiedIndex : Nat)

namespace Change

def path : Change → String
  | .put _ path _ => path
  | .drop _ path => path
  | .dropDirectory _ path _ => path

/-- When etcd can make the change. -/
def Possible (σ : Records) : Change → Prop
  | .put .create path _ => σ.nodes path = none
  | .put .set _ _ => True
  | .put .update path _ => σ.nodes path ≠ none
  | .put .compareAndSwap path _ => σ.nodes path ≠ none
  | .drop _ path => σ.nodes path ≠ none
  | .dropDirectory _ path _ =>
      σ.nodes path = none ∧ ∀ rest, σ.nodes (path ++ "/" ++ rest) = none

def apply (σ : Records) : Change → Records
  | .put _ path value => σ.write path value
  | .drop _ path => σ.erase path
  | .dropDirectory _ path _ => σ.erase path

/-- A leaf as it stands in a response. -/
def leaf (path : String) (node : Node Json) : EtcdNode :=
  ⟨path, some node.value, false, node.modifiedIndex, []⟩

/-- What etcd reports of the change. -/
def response (σ : Records) : Change → Response
  | .put action path value =>
      ⟨action.name, ⟨path, some value, false, σ.index + 1, []⟩, (σ.nodes path).map (leaf path)⟩
  | .drop action path =>
      ⟨action.name, ⟨path, none, false, σ.index + 1, []⟩, (σ.nodes path).map (leaf path)⟩
  | .dropDirectory action path modifiedIndex =>
      ⟨action.name, ⟨path, none, true, σ.index + 1, []⟩, some ⟨path, none, true, modifiedIndex, []⟩⟩

theorem apply_nodes_of_ne (σ : Records) {c : Change} {path : String} (other : path ≠ c.path) :
    (c.apply σ).nodes path = σ.nodes path := by
  cases c with
  | put => exact Store.write_nodes_of_ne σ other _
  | drop => exact Store.erase_nodes_of_ne σ other
  | dropDirectory => exact Store.erase_nodes_of_ne σ other

theorem apply_index (σ : Records) (c : Change) : (c.apply σ).index = σ.index + 1 := by
  cases c <;> rfl

theorem response_modifiedIndex (σ : Records) (c : Change) :
    (c.response σ).node.modifiedIndex = σ.index + 1 := by
  cases c <;> rfl

end Change

/-- The paths that a recursive watch on the schema root covers. -/
def watched (path : String) : Bool :=
  path = actualLRPSchemaRoot || (actualLRPSchemaRoot ++ "/").toList.isPrefixOf path.toList

theorem watched_render (c : Component) (cs : List Component) :
    watched (render (actualRoot ++ c :: cs)) = true := by
  have text : (render (actualRoot ++ c :: cs)).toList =
      (actualLRPSchemaRoot ++ "/").toList ++ ['/'].intercalate (c :: cs) := by
    rw [render, String.toList_ofList, actualRoot, List.cons_append, List.cons_append,
      List.nil_append, List.intercalate_cons_cons, List.intercalate_cons_cons]
    rfl
  simp only [watched, text, Bool.or_eq_true, decide_eq_true_eq, List.isPrefixOf_iff_prefix]
  exact .inr (List.prefix_append _ _)

theorem Slot.watched_path (slot : Slot) : watched slot.path = true := by
  rw [Slot.path]
  split
  · rw [evacuatingActualLRPSchemaPath_eq, slotComponents_of_plain slot.plain]
    exact watched_render _ _
  · rw [actualLRPSchemaPath_eq, slotComponents_of_plain slot.plain]
    exact watched_render _ _

/-! ### Contents -/

/-- The record in a slot. -/
def contents (σ : Records) (slot : Slot) : Option ActualLRP :=
  (σ.nodes slot.path).bind fun node => ActualLRP.fromJSON (some node.value)

/-- Everything under the root is a valid record in the slot of its own key. -/
def Sound (σ : Records) : Prop :=
  ∀ path node, watched path = true → σ.nodes path = some node →
    ∃ (slot : Slot) (lrp : ActualLRP), path = slot.path ∧
      ActualLRP.fromJSON (some node.value) = some lrp ∧ slot.Holds lrp

/-- What is written under the root is a valid record in the slot of its own key. -/
def Change.OfRecord : Change → Prop
  | .put _ path value => watched path = true →
      ∃ (slot : Slot) (lrp : ActualLRP), path = slot.path ∧
        ActualLRP.fromJSON (some value) = some lrp ∧ slot.Holds lrp
  | .drop _ _ => True
  | .dropDirectory _ _ _ => True

theorem Sound.apply {σ : Records} {c : Change} (sound : Sound σ) (record : c.OfRecord) :
    Sound (c.apply σ) := by
  intro path node covered found
  cases c with
  | put action path' value =>
      by_cases here : path = path'
      · subst here
        rw [Change.apply, Store.write_nodes_self] at found
        cases found
        exact record covered
      · rw [Change.apply, Store.write_nodes_of_ne σ here] at found
        exact sound path node covered found
  | drop action path' | dropDirectory action path' _ =>
      by_cases here : path = path'
      · subst here
        rw [Change.apply, Store.erase_nodes_self] at found
        cases found
      · rw [Change.apply, Store.erase_nodes_of_ne σ here] at found
        exact sound path node covered found

/-- A slot holds the record of its own key, if it holds anything. -/
theorem Sound.slot {σ : Records} (sound : Sound σ) {slot : Slot} {node : Node Json}
    (found : σ.nodes slot.path = some node) :
    ∃ lrp, ActualLRP.fromJSON (some node.value) = some lrp ∧ slot.Holds lrp ∧
      contents σ slot = some lrp := by
  obtain ⟨slot', lrp, same, decoded, holds⟩ := sound slot.path node slot.watched_path found
  obtain rfl := Slot.path_injective same
  refine ⟨lrp, decoded, holds, ?_⟩
  rw [contents, found, Option.bind_some, decoded]

theorem contents_write (σ : Records) (slot : Slot) (value : Json) :
    contents (σ.write slot.path value) =
      Function.update (contents σ) slot (ActualLRP.fromJSON (some value)) := by
  funext slot'
  by_cases here : slot' = slot
  · subst here
    rw [Function.update_self, contents, Store.write_nodes_self, Option.bind_some]
  · rw [Function.update_of_ne here, contents,
      Store.write_nodes_of_ne σ fun same => here (Slot.path_injective same), contents]

theorem contents_erase (σ : Records) (slot : Slot) :
    contents (σ.erase slot.path) = Function.update (contents σ) slot none := by
  funext slot'
  by_cases here : slot' = slot
  · subst here
    rw [Function.update_self, contents, Store.erase_nodes_self, Option.bind_none]
  · rw [Function.update_of_ne here, contents,
      Store.erase_nodes_of_ne σ fun same => here (Slot.path_injective same), contents]

/-- A change that the watch does not cover changes no slot. -/
theorem contents_elsewhere (σ : Records) {c : Change} (elsewhere : watched c.path = false) :
    contents (c.apply σ) = contents σ := by
  funext slot
  have other : slot.path ≠ c.path := by
    intro same
    rw [← same, slot.watched_path] at elsewhere
    cases elsewhere
  rw [contents, Change.apply_nodes_of_ne σ other, contents]

theorem contents_dropDirectory {σ : Records} {action : DropAction} {path : String} {i : Nat}
    (possible : (Change.dropDirectory action path i).Possible σ) :
    contents ((Change.dropDirectory action path i).apply σ) = contents σ := by
  funext slot
  rw [contents, Change.apply, contents]
  by_cases here : slot.path = path
  · rw [here, Store.erase_nodes_self, possible.1]
  · rw [Store.erase_nodes_of_ne σ here]

/-! ### Replaying callbacks -/

/-- A subscriber's view of the slots. -/
abbrev View : Type :=
  Slot → Option ActualLRP

/-- The record that a group has for the slot. -/
def Slot.recordIn (slot : Slot) (group : ActualLRPGroup) : Option ActualLRP :=
  (if slot.evacuating then group.evacuating else group.inst).filter fun lrp => slot.Holds lrp

def View.insert (view : View) (group : ActualLRPGroup) : View := fun slot =>
  match slot.recordIn group with
  | some lrp => some lrp
  | none => view slot

def View.remove (view : View) (group : ActualLRPGroup) : View := fun slot =>
  match slot.recordIn group with
  | some _ => none
  | none => view slot

/-- What a subscriber makes of a callback. -/
def View.replay (view : View) : Callback → View
  | .created group => view.insert group
  | .changed _ after => view.insert after
  | .deleted group => view.remove group

theorem Slot.eq_of_holds {slot slot' : Slot} {lrp : ActualLRP} (holds : slot.Holds lrp)
    (holds' : slot'.Holds lrp) (same : slot'.evacuating = slot.evacuating) : slot' = slot := by
  rcases slot with ⟨guid, index, evacuating, plain⟩
  rcases slot' with ⟨guid', index', evacuating', plain'⟩
  obtain ⟨rfl, rfl⟩ := holds
  obtain ⟨rfl, rfl⟩ := holds'
  cases same
  rfl

theorem Slot.recordIn_group {slot : Slot} {lrp : ActualLRP} (holds : slot.Holds lrp) (slot' : Slot) :
    slot'.recordIn (slot.group lrp) = if slot' = slot then some lrp else none := by
  by_cases same : slot'.evacuating = slot.evacuating
  · have field : slot'.recordIn (slot.group lrp) = (some lrp).filter fun lrp => slot'.Holds lrp := by
      rw [Slot.recordIn, Slot.group, groupOf, same]
      cases slot.evacuating <;> rfl
    rw [field]
    by_cases here : slot' = slot
    · subst here
      simp [holds]
    · have other : ¬slot'.Holds lrp := fun holds' => here (Slot.eq_of_holds holds holds' same)
      simp [here, other]
  · have here : slot' ≠ slot := by
      rintro rfl
      exact same rfl
    rw [if_neg here, Slot.recordIn, Slot.group, groupOf]
    cases own : slot.evacuating <;> cases other : slot'.evacuating <;> simp_all

theorem View.insert_group {slot : Slot} {lrp : ActualLRP} (holds : slot.Holds lrp) (view : View) :
    view.insert (slot.group lrp) = Function.update view slot (some lrp) := by
  funext slot'
  rw [View.insert, Slot.recordIn_group holds]
  by_cases here : slot' = slot <;> simp [here]

theorem View.remove_group {slot : Slot} {lrp : ActualLRP} (holds : slot.Holds lrp) (view : View) :
    view.remove (slot.group lrp) = Function.update view slot none := by
  funext slot'
  rw [View.remove, Slot.recordIn_group holds]
  by_cases here : slot' = slot <;> simp [here]

/-! ### What a history leads to -/

/-- The callback that a change of `σ` ought to lead to. -/
inductive Expected (σ : Records) : Change → Option Callback → Prop where
  | created {action : PutAction} {slot : Slot} {value : Json} {lrp : ActualLRP}
      (absent : contents σ slot = none) (decoded : ActualLRP.fromJSON (some value) = some lrp)
      (holds : slot.Holds lrp) :
      Expected σ (.put action slot.path value) (some (.created (slot.group lrp)))
  | changed {action : PutAction} {slot : Slot} {value : Json} {old lrp : ActualLRP}
      (present : contents σ slot = some old)
      (decoded : ActualLRP.fromJSON (some value) = some lrp) (holds : slot.Holds lrp) :
      Expected σ (.put action slot.path value)
        (some (.changed (slot.group old) (slot.group lrp)))
  | deleted {action : DropAction} {slot : Slot} {old : ActualLRP}
      (present : contents σ slot = some old) (holds : slot.Holds old) :
      Expected σ (.drop action slot.path) (some (.deleted (slot.group old)))
  | directory {action : DropAction} {path : String} {modifiedIndex : Nat} :
      Expected σ (.dropDirectory action path modifiedIndex) none
  | elsewhere {c : Change} (elsewhere : watched c.path = false) : Expected σ c none

/-- The history `changes` takes `σ` to `τ` and ought to lead to `callbacks`. -/
inductive Expect (σ : Records) : List Change → Records → List Callback → Prop where
  | nil : Expect σ [] σ []
  | snoc {changes : List Change} {τ : Records} {callbacks : List Callback} {c : Change}
      {callback : Option Callback} (past : Expect σ changes τ callbacks) (possible : c.Possible τ)
      (now : Expected τ c callback) :
      Expect σ (changes ++ [c]) (c.apply τ) (callbacks ++ callback.toList)

theorem Expected.replay {σ : Records} {c : Change} {callback : Option Callback}
    (expected : Expected σ c callback) (possible : c.Possible σ) :
    callback.toList.foldl View.replay (contents σ) = contents (c.apply σ) := by
  cases expected with
  | created absent decoded holds =>
      rw [Change.apply, contents_write, decoded, ← View.insert_group holds]
      rfl
  | changed present decoded holds =>
      rw [Change.apply, contents_write, decoded, ← View.insert_group holds]
      rfl
  | deleted present holds =>
      rw [Change.apply, contents_erase, ← View.remove_group holds]
      rfl
  | directory => exact (contents_dropDirectory possible).symm
  | elsewhere elsewhere => exact (contents_elsewhere σ elsewhere).symm

/-- Replaying the callbacks of a history over the contents at its start gives the
contents at its end. -/
theorem Expect.replay {σ τ : Records} {changes : List Change} {callbacks : List Callback}
    (expect : Expect σ changes τ callbacks) :
    callbacks.foldl View.replay (contents σ) = contents τ := by
  induction expect with
  | nil => rfl
  | snoc past possible now ih => rw [List.foldl_append, ih, now.replay possible]

/-! ### The code meets the expectation -/

theorem PutAction.makeWatchEvent (action : PutAction) (node : EtcdNode) (prevNode : Option EtcdNode) :
    ∃ type, Watch.makeWatchEvent ⟨action.name, node, prevNode⟩ = .ok ⟨type, some node, prevNode⟩ := by
  cases action <;> exact ⟨_, rfl⟩

theorem DropAction.makeWatchEvent (action : DropAction) (node : EtcdNode)
    (prevNode : Option EtcdNode) :
    ∃ type, Watch.makeWatchEvent ⟨action.name, node, prevNode⟩ = .ok ⟨type, none, prevNode⟩ := by
  cases action <;> exact ⟨_, rfl⟩

/-- The event made of a change that the watch covers leads to the expected callback. -/
theorem Change.expected {σ : Records} {c : Change} (sound : Sound σ) (record : c.OfRecord)
    (possible : c.Possible σ) (covered : watched c.path = true) :
    ∃ event, makeWatchEvent (c.response σ) = .ok event ∧ Expected σ c (consume event) := by
  cases c with
  | put action path value =>
      obtain ⟨slot, lrp, rfl, decoded, holds⟩ := record covered
      obtain ⟨type, made⟩ := action.makeWatchEvent ⟨slot.path, some value, false, σ.index + 1, []⟩
        ((σ.nodes slot.path).map (Change.leaf slot.path))
      refine ⟨_, made, ?_⟩
      have evacuating : isEvacuatingActualLRPNode ⟨slot.path, some value, false, σ.index + 1, []⟩ =
          slot.evacuating := Slot.isEvacuating_path rfl
      cases found : σ.nodes slot.path with
      | none =>
          have absent : contents σ slot = none := by rw [contents, found, Option.bind_none]
          have consumed : Expected σ (.put action slot.path value) _ :=
            .created absent decoded holds
          simpa [consume, decoded, evacuating, Slot.group] using consumed
      | some node =>
          obtain ⟨old, decoded', -, present⟩ := sound.slot found
          have consumed : Expected σ (.put action slot.path value) _ :=
            .changed present decoded holds
          simpa [consume, decoded, decoded', evacuating, Slot.group, Change.leaf] using consumed
  | drop action path =>
      obtain ⟨node, found⟩ := Option.ne_none_iff_exists'.mp possible
      obtain ⟨slot, lrp, rfl, -⟩ := sound path node covered found
      obtain ⟨type, made⟩ := action.makeWatchEvent ⟨slot.path, none, false, σ.index + 1, []⟩
        ((σ.nodes slot.path).map (Change.leaf slot.path))
      refine ⟨_, made, ?_⟩
      obtain ⟨old, decoded, holds, present⟩ := sound.slot found
      have evacuating : isEvacuatingActualLRPNode
          ⟨slot.path, some node.value, false, node.modifiedIndex, []⟩ = slot.evacuating :=
        Slot.isEvacuating_path rfl
      have consumed : Expected σ (.drop action slot.path) _ := .deleted present holds
      simpa [consume, found, decoded, evacuating, Slot.group, Change.leaf] using consumed
  | dropDirectory action path modifiedIndex =>
      obtain ⟨type, made⟩ := action.makeWatchEvent ⟨path, none, true, σ.index + 1, []⟩
        (some ⟨path, none, true, modifiedIndex, []⟩)
      exact ⟨_, made, .directory⟩

end Bbs.Watch
