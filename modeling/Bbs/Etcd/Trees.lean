import Mathlib.Data.List.Permutation
import Bbs.Etcd.Groups

/-!
Trees of actual LRPs, and how etcd shows them.

A tree has a directory for each process guid, in it a directory for each index, and in
that a leaf for the instance, for the evacuating instance, for both or for neither. The
names in one directory are all different. `ActualTree.groupAt` says what a tree holds for
a guid and an index, seen through a filter, without reference to how it is read.

A recursive read shows the children of a directory in any order (`Listed`), and a reader
answers from a tree if it shows what is there and reports everything else as missing
(`Serves`). The store keeps names that begin with an underscore out of the listing of the
directory above them, and process guids may begin with one: the root shows less than the
tree holds (`shown`).
-/

namespace Bbs.Models

/-- The filter lets the record through. -/
def ActualLRPFilter.passes (filter : ActualLRPFilter) (lrp : ActualLRP) : Bool :=
  (filter.domain = "" ∨ lrp.key.domain = filter.domain) ∧
    (filter.cellID = "" ∨ lrp.instanceKey.cellId = filter.cellID)

end Bbs.Models

namespace Bbs.Etcd

open Bbs.Models Bbs.Path Bbs.Text

/-- The name of a process directory. -/
abbrev ProcessGuid : Type :=
  { guid : String // Plain guid.toList }

/-- etcd leaves the name out of the listing of a directory. -/
def ProcessGuid.hidden (guid : ProcessGuid) : Bool :=
  guid.1.toList.head? = some '_'

structure Leaf where
  /-- `none` if the text is not JSON -/
  value : Option Json

structure IndexDir where
  index : Int32
  inst : Option Leaf
  evacuating : Option Leaf

structure ProcessDir where
  guid : ProcessGuid
  dirs : List IndexDir
  nodup : (dirs.map IndexDir.index).Nodup

structure ActualTree where
  processes : List ProcessDir
  nodup : (processes.map ProcessDir.guid).Nodup

/-! ### What a tree holds -/

/-- The leaf decodes, and the record in it validates. -/
def Leaf.Valid (leaf : Leaf) : Prop :=
  ActualLRP.fromJSON leaf.value ≠ none

/-- The record of a leaf, if the filter lets it through. -/
def Leaf.record (filter : ActualLRPFilter) (leaf : Leaf) : Option ActualLRP :=
  (ActualLRP.fromJSON leaf.value).filter filter.passes

def IndexDir.leaves (dir : IndexDir) : List Leaf :=
  dir.inst.toList ++ dir.evacuating.toList

def IndexDir.Valid (dir : IndexDir) : Prop :=
  ∀ leaf ∈ dir.leaves, leaf.Valid

def IndexDir.records (filter : ActualLRPFilter) (dir : IndexDir) : ActualLRPGroup where
  inst := dir.inst.bind (Leaf.record filter)
  evacuating := dir.evacuating.bind (Leaf.record filter)

/-- The group, if it has a record. -/
def IndexDir.group (filter : ActualLRPFilter) (dir : IndexDir) : Option ActualLRPGroup :=
  if dir.records filter = ⟨none, none⟩ then none else some (dir.records filter)

def ProcessDir.Valid (process : ProcessDir) : Prop :=
  ∀ dir ∈ process.dirs, dir.Valid

namespace ActualTree

/-- Every leaf decodes and validates. -/
def Valid (tree : ActualTree) : Prop :=
  ∀ process ∈ tree.processes, process.Valid

def process (tree : ActualTree) (guid : ProcessGuid) : Option ProcessDir :=
  tree.processes.find? fun process => process.guid = guid

def dir (tree : ActualTree) (guid : ProcessGuid) (index : Int32) : Option IndexDir :=
  (tree.process guid).bind fun process => process.dirs.find? fun dir => dir.index = index

def guids (tree : ActualTree) : List ProcessGuid :=
  tree.processes.map ProcessDir.guid

/-- The part of the tree that a listing of the root shows. -/
def shown (tree : ActualTree) : ActualTree where
  processes := tree.processes.filter fun process => !process.guid.hidden
  nodup := tree.nodup.sublist (List.filter_sublist.map ProcessDir.guid)

/-- The indices of the directories for a guid. -/
def indices (tree : ActualTree) (guid : ProcessGuid) : List Int32 :=
  ((tree.process guid).map fun process => process.dirs.map IndexDir.index).getD []

def groupAt (tree : ActualTree) (filter : ActualLRPFilter) (guid : ProcessGuid) (index : Int32) :
    Option ActualLRPGroup :=
  (tree.dir guid index).bind fun dir => dir.group filter

end ActualTree

/-! ### How etcd shows a tree -/

/-- The children of a node are these, in any order. -/
def ListedAs {α : Type} (shows : α → EtcdNode → Prop) (children : List α) (node : EtcdNode) : Prop :=
  ∃ nodes, node.nodes.Perm nodes ∧ List.Forall₂ shows children nodes

/-- The leaves with their keys. -/
def IndexDir.entries (guid : ProcessGuid) (dir : IndexDir) : List (String × Leaf) :=
  (dir.inst.toList.map fun leaf => (actualLRPSchemaPath guid dir.index, leaf)) ++
    dir.evacuating.toList.map fun leaf => (evacuatingActualLRPSchemaPath guid dir.index, leaf)

def IndexDir.Listed (guid : ProcessGuid) (dir : IndexDir) : EtcdNode → Prop :=
  ListedAs (fun entry node => node.key = entry.1 ∧ node.value = entry.2.value) (dir.entries guid)

def ProcessDir.Listed (process : ProcessDir) : EtcdNode → Prop :=
  ListedAs (IndexDir.Listed process.guid) process.dirs

def ActualTree.Listed (tree : ActualTree) : EtcdNode → Prop :=
  ListedAs ProcessDir.Listed tree.processes

/-- What there is, is shown, and what there is not, is reported as missing. -/
inductive Answers {α : Type} (listed : α → EtcdNode → Prop) :
    Option α → Except EtcdError EtcdNode → Prop where
  | found {a : α} {node : EtcdNode} (shown : listed a node) : Answers listed (some a) (.ok node)
  | missing : Answers listed none (.error ⟨etcdErrKeyNotFound⟩)

/-- The reader answers from the tree: a process directory is found by its name, hidden or
not, while the root lists those that are not hidden. Without processes, there may be no root
either. -/
structure Serves (tree : ActualTree) (read : Reader) : Prop where
  root : Answers ActualTree.Listed (some tree.shown) (read actualLRPSchemaRoot) ∨
    tree.processes = [] ∧ Answers ActualTree.Listed none (read actualLRPSchemaRoot)
  process : ∀ guid, Answers ProcessDir.Listed (tree.process guid) (read (actualLRPProcessDir guid))
  dir : ∀ guid index, Answers (IndexDir.Listed guid) (tree.dir guid index)
    (read (actualLRPIndexDir guid index))

/-! ### A reader for every tree -/

def IndexDir.node (guid : ProcessGuid) (dir : IndexDir) : EtcdNode where
  key := actualLRPIndexDir guid dir.index
  value := none
  dir := true
  modifiedIndex := 0
  nodes := (dir.entries guid).map fun entry => ⟨entry.1, entry.2.value, false, 0, []⟩

def ProcessDir.node (process : ProcessDir) : EtcdNode where
  key := actualLRPProcessDir process.guid
  value := none
  dir := true
  modifiedIndex := 0
  nodes := process.dirs.map (IndexDir.node process.guid)

def ActualTree.node (tree : ActualTree) : EtcdNode where
  key := actualLRPSchemaRoot
  value := none
  dir := true
  modifiedIndex := 0
  nodes := tree.shown.processes.map ProcessDir.node

theorem listedAs_map {α : Type} {shows : α → EtcdNode → Prop} {children : List α} {node : EtcdNode}
    {f : α → EtcdNode} (nodes : node.nodes = children.map f) (shown : ∀ a, shows a (f a)) :
    ListedAs shows children node := by
  refine ⟨children.map f, by rw [nodes], ?_⟩
  rw [List.forall₂_map_right_iff]
  exact List.forall₂_same.mpr fun a _ => shown a

theorem IndexDir.node_listed (guid : ProcessGuid) (dir : IndexDir) : dir.Listed guid (dir.node guid) :=
  listedAs_map rfl fun _ => ⟨rfl, rfl⟩

theorem ProcessDir.node_listed (process : ProcessDir) : process.Listed process.node :=
  listedAs_map rfl (IndexDir.node_listed process.guid)

theorem ActualTree.node_listed (tree : ActualTree) : tree.shown.Listed tree.node :=
  listedAs_map rfl ProcessDir.node_listed

/-- The directories of a tree with the components of their paths. -/
def ActualTree.directories (tree : ActualTree) : List (List Component × EtcdNode) :=
  (actualRoot, tree.node) :: tree.processes.flatMap fun process =>
    (actualRoot ++ [process.guid.1.toList], process.node) :: process.dirs.map fun dir =>
      (actualRoot ++ [process.guid.1.toList, (itoa dir.index.toInt).toList], dir.node process.guid)

def ActualTree.read (tree : ActualTree) : Reader :=
  fun path =>
    match tree.directories.find? fun directory => render directory.1 = path with
    | some directory => .ok directory.2
    | none => .error ⟨etcdErrKeyNotFound⟩

theorem render_actualRoot_inj {cs ds : List Component} (hc : ∀ c ∈ cs, Plain c)
    (hd : ∀ d ∈ ds, Plain d) : render (actualRoot ++ cs) = render (actualRoot ++ ds) ↔ cs = ds := by
  have plain {es : List Component} (he : ∀ e ∈ es, Plain e) : ∀ e ∈ actualRoot ++ es, Plain e :=
    fun e mem => (List.mem_append.mp mem).elim (actualRoot_plain e) (he e)
  constructor
  · intro same
    exact List.append_cancel_left (render_injective (plain hc) (plain hd) same)
  · rintro rfl
    rfl

/-- Only the process directory of the guid can be where the guid leads. -/
theorem findSome_guid {β : Type} {processes : List ProcessDir}
    (nodup : (processes.map ProcessDir.guid).Nodup) (guid : ProcessGuid)
    (f : ProcessDir → Option β) :
    (processes.findSome? fun process => if process.guid = guid then f process else none) =
      (processes.find? fun process => process.guid = guid).bind f := by
  induction processes with
  | nil => rfl
  | cons process processes ih =>
      rw [List.map_cons, List.nodup_cons] at nodup
      obtain ⟨fresh, nodup⟩ := nodup
      by_cases here : process.guid = guid
      · have others : (processes.findSome? fun process =>
            if process.guid = guid then f process else none) = none := by
          rw [List.findSome?_eq_none_iff]
          intro other mem
          rw [if_neg]
          intro same
          exact fresh (List.mem_map.mpr ⟨other, mem, by rw [same, here]⟩)
        cases found : f process with
        | none => simp [here, found, others]
        | some b => simp [here, found]
      · simpa [List.findSome?_cons, here] using ih nodup

theorem plain_pair (guid : ProcessGuid) (index : Int32) :
    ∀ c ∈ [guid.1.toList, (itoa index.toInt).toList], Plain c := by
  simp [guid.2, plain_itoa]

/-- The first directory of a tree whose path has the given components after the root. -/
def ActualTree.find (tree : ActualTree) (cs : List Component) : Option EtcdNode :=
  (tree.directories.find? fun directory => render directory.1 = render (actualRoot ++ cs)).map
    Prod.snd

theorem ActualTree.read_eq (tree : ActualTree) (cs : List Component) :
    tree.read (render (actualRoot ++ cs)) =
      match tree.find cs with
      | some node => .ok node
      | none => .error ⟨etcdErrKeyNotFound⟩ := by
  unfold read find
  cases tree.directories.find? fun directory => render directory.1 = render (actualRoot ++ cs) <;> rfl

/-- Below the root, a directory belongs to a process. -/
theorem ActualTree.find_of_ne {tree : ActualTree} {cs : List Component} (ne : cs ≠ [])
    (plain : ∀ c ∈ cs, Plain c) :
    tree.find cs = tree.processes.findSome? fun process =>
      if [process.guid.1.toList] = cs then some process.node
      else (process.dirs.find? fun dir =>
        [process.guid.1.toList, (itoa dir.index.toInt).toList] = cs).map
          (IndexDir.node process.guid) := by
  have root : render actualRoot ≠ render (actualRoot ++ cs) := by
    intro same
    exact ne ((render_actualRoot_inj (by simp) plain).mp (by simpa using same)).symm
  have process (guid : ProcessGuid) :
      render (actualRoot ++ [guid.1.toList]) = render (actualRoot ++ cs) ↔ [guid.1.toList] = cs :=
    render_actualRoot_inj (by simpa using guid.2) plain
  have dir (guid : ProcessGuid) (index : Int32) :
      render (actualRoot ++ [guid.1.toList, (itoa index.toInt).toList]) = render (actualRoot ++ cs) ↔
        [guid.1.toList, (itoa index.toInt).toList] = cs :=
    render_actualRoot_inj (plain_pair guid index) plain
  rw [find, directories, List.find?_cons_of_neg (by simpa using root), List.find?_flatMap,
    List.map_findSome?]
  congr 1
  funext p
  by_cases here : [p.guid.1.toList] = cs
  · simp [Function.comp_apply, List.find?_cons, process, here]
  · simp [Function.comp_def, List.find?_cons, process, dir, here]

theorem guid_toList_inj {guid guid' : ProcessGuid} : guid.1.toList = guid'.1.toList ↔ guid = guid' := by
  rw [String.toList_inj, Subtype.ext_iff]

theorem itoa_toList_inj {index index' : Int32} :
    (itoa index.toInt).toList = (itoa index'.toInt).toList ↔ index = index' := by
  rw [String.toList_inj, itoa_injective.eq_iff, Int32.toInt_inj]

theorem ActualTree.find_process (tree : ActualTree) (guid : ProcessGuid) :
    tree.find [guid.1.toList] = (tree.process guid).map ProcessDir.node := by
  rw [find_of_ne (by simp) (by simpa using guid.2), process, Option.map_eq_bind,
    ← findSome_guid tree.nodup]
  congr 1
  funext p
  have shorter : (p.dirs.find? fun dir =>
      [p.guid.1.toList, (itoa dir.index.toInt).toList] = [guid.1.toList]) = none := by
    simp [List.find?_eq_none]
  rw [shorter]
  simp [guid_toList_inj]

theorem ActualTree.find_dir (tree : ActualTree) (guid : ProcessGuid) (index : Int32) :
    tree.find [guid.1.toList, (itoa index.toInt).toList] =
      (tree.dir guid index).map (IndexDir.node guid) := by
  rw [find_of_ne (by simp) (plain_pair guid index), dir, process, Option.map_bind,
    ← findSome_guid tree.nodup]
  congr 1
  funext p
  by_cases here : p.guid = guid
  · simp [here, itoa_toList_inj]
  · simp [here, guid_toList_inj]

/-- **Every tree has a reader.** -/
theorem ActualTree.read_serves (tree : ActualTree) : Serves tree tree.read where
  root := by
    refine .inl ?_
    have root : tree.find [] = some tree.node := by
      simp [find, directories]
    rw [actualLRPSchemaRoot_eq, ← List.append_nil actualRoot, read_eq, root]
    exact .found tree.node_listed
  process guid := by
    rw [actualLRPProcessDir_of_plain guid.2, read_eq, find_process]
    cases tree.process guid with
    | some process => exact .found process.node_listed
    | none => exact .missing
  dir guid index := by
    rw [actualLRPIndexDir_of_plain guid.2, read_eq, find_dir]
    cases tree.dir guid index with
    | some dir => exact .found (dir.node_listed guid)
    | none => exact .missing

end Bbs.Etcd
