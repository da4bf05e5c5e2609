import Bbs.Etcd.Trees

/-!
The three read paths agree.

A directory of leaves parses to the records of the leaves, whatever their order
(`parseIndexNode_eq`), and a process directory to the groups of its index directories, up
to order (`ProcessDir.parse_ok`); both fail exactly if a leaf is bad. The pool then only
puts the groups of the processes together.
-/

namespace Bbs.Etcd

open Bbs.Models Bbs.Path Bbs.Workpool

variable {filter : ActualLRPFilter} {guid : ProcessGuid} {tree : ActualTree} {read : Reader}

/-- What is computed from the nodes is, up to order, what the children give. -/
theorem ListedAs.map {α β : Type} {shows : α → EtcdNode → Prop} {children : List α} {node : EtcdNode}
    (listed : ListedAs shows children node) {f : EtcdNode → β} {g : α → β}
    (same : ∀ a ∈ children, ∀ node, shows a node → f node = g a) :
    (node.nodes.map f).Perm (children.map g) := by
  obtain ⟨nodes, perm, shown⟩ := listed
  refine (perm.map f).trans (List.Perm.of_eq ?_)
  clear perm
  induction shown with
  | nil => rfl
  | cons here _ ih =>
      rw [List.map_cons, List.map_cons, same _ List.mem_cons_self _ here,
        ih fun a mem => same a (List.mem_cons_of_mem _ mem)]

/-! ### Leaves -/

theorem fromJSON_of_valid {leaf : Leaf} (valid : leaf.Valid) :
    ∃ lrp, ActualLRP.fromJSON leaf.value = some lrp :=
  Option.ne_none_iff_exists'.mp valid

theorem Leaf.record_eq {leaf : Leaf} {lrp : ActualLRP}
    (decoded : ActualLRP.fromJSON leaf.value = some lrp) :
    leaf.record filter = if filter.passes lrp then some lrp else none := by
  rw [Leaf.record, decoded]
  rfl

/-- A record that the filter does not let through leaves the group as it was. -/
theorem parseInstanceNode_valid {node : EtcdNode} {leaf : Leaf} (value : node.value = leaf.value)
    (valid : leaf.Valid) (group : ActualLRPGroup) :
    parseInstanceNode filter group node =
      .ok (match leaf.record filter with
        | some lrp => setRecord group node lrp
        | none => group) := by
  obtain ⟨lrp, decoded⟩ := fromJSON_of_valid valid
  rw [parseInstanceNode, value, decoded, Leaf.record_eq decoded]
  by_cases domain : filter.domain ≠ "" ∧ lrp.key.domain ≠ filter.domain
  · have stopped : filter.passes lrp = false := by
      simp [ActualLRPFilter.passes, domain]
    simp [domain, stopped]
  · by_cases cell : filter.cellID ≠ "" ∧ lrp.instanceKey.cellId ≠ filter.cellID
    · have stopped : filter.passes lrp = false := by
        simp [ActualLRPFilter.passes, cell]
      simp [domain, cell, stopped]
    · have passes : filter.passes lrp = true := by
        rw [not_and_or, not_not, not_not] at domain cell
        simp [ActualLRPFilter.passes, domain, cell]
      simp [domain, cell, passes]

theorem setRecord_instance {node : EtcdNode} {index : Int32}
    (key : node.key = actualLRPSchemaPath guid index) (group : ActualLRPGroup) (lrp : ActualLRP) :
    setRecord group node lrp = { group with inst := some lrp } := by
  have inst : isInstanceActualLRPNode node = true := by
    rw [isInstanceActualLRPNode, key, base_actualLRPSchemaPath]
    decide
  have evacuating : isEvacuatingActualLRPNode node = false := by
    rw [isEvacuatingActualLRPNode, key, base_actualLRPSchemaPath]
    decide
  simp [setRecord, inst, evacuating]

theorem setRecord_evacuating {node : EtcdNode} {index : Int32}
    (key : node.key = evacuatingActualLRPSchemaPath guid index) (group : ActualLRPGroup)
    (lrp : ActualLRP) : setRecord group node lrp = { group with evacuating := some lrp } := by
  have inst : isInstanceActualLRPNode node = false := by
    rw [isInstanceActualLRPNode, key, base_evacuatingActualLRPSchemaPath]
    decide
  have evacuating : isEvacuatingActualLRPNode node = true := by
    rw [isEvacuatingActualLRPNode, key, base_evacuatingActualLRPSchemaPath]
    decide
  simp [setRecord, inst, evacuating]

theorem parse_instance {node : EtcdNode} {leaf : Leaf} {index : Int32}
    (key : node.key = actualLRPSchemaPath guid index) (value : node.value = leaf.value)
    (valid : leaf.Valid) (group : ActualLRPGroup) :
    parseInstanceNode filter group node =
      .ok { group with inst := (leaf.record filter).or group.inst } := by
  rw [parseInstanceNode_valid value valid]
  cases leaf.record filter with
  | none => rfl
  | some lrp => simp [setRecord_instance key]

theorem parse_evacuating {node : EtcdNode} {leaf : Leaf} {index : Int32}
    (key : node.key = evacuatingActualLRPSchemaPath guid index) (value : node.value = leaf.value)
    (valid : leaf.Valid) (group : ActualLRPGroup) :
    parseInstanceNode filter group node =
      .ok { group with evacuating := (leaf.record filter).or group.evacuating } := by
  rw [parseInstanceNode_valid value valid]
  cases leaf.record filter with
  | none => rfl
  | some lrp => simp [setRecord_evacuating key]

/-! ### Index directories -/

/-- A loop over leaves fails if one of them is bad. -/
theorem foldlM_invalid {nodes : List EtcdNode}
    (invalid : ∃ node ∈ nodes, ActualLRP.fromJSON node.value = none) (group : ActualLRPGroup) :
    nodes.foldlM (parseInstanceNode filter) group = .error ErrDeserializeJSON := by
  induction nodes generalizing group with
  | nil => simp at invalid
  | cons node nodes ih =>
      rw [List.foldlM_cons]
      by_cases here : ActualLRP.fromJSON node.value = none
      · rw [parseInstanceNode, here]
        rfl
      · obtain ⟨lrp, decoded⟩ := Option.ne_none_iff_exists'.mp here
        have later : ∃ node ∈ nodes, ActualLRP.fromJSON node.value = none := by
          simpa [here] using invalid
        rw [parseInstanceNode, decoded]
        dsimp only
        split
        · exact ih later group
        · split
          · exact ih later group
          · exact ih later _

theorem parseIndexNode_invalid {dir : IndexDir} {node : EtcdNode} (listed : dir.Listed guid node)
    (invalid : ¬dir.Valid) : parseIndexNode filter node = .error ErrDeserializeJSON := by
  refine foldlM_invalid ?_ _
  have bad : ∃ entry ∈ dir.entries guid, ¬entry.2.Valid := by
    by_contra good
    simp only [not_exists, not_and, not_not] at good
    refine invalid fun leaf mem => ?_
    rcases List.mem_append.mp mem with mem | mem
    · exact good _ (List.mem_append_left _ (List.mem_map_of_mem mem))
    · exact good _ (List.mem_append_right _ (List.mem_map_of_mem mem))
  obtain ⟨entry, mem, bad⟩ := bad
  have values : (node.nodes.map fun node => ActualLRP.fromJSON node.value).Perm
      ((dir.entries guid).map fun entry => ActualLRP.fromJSON entry.2.value) :=
    listed.map fun entry _ node shown => by rw [shown.2]
  have none : none ∈ node.nodes.map fun node => ActualLRP.fromJSON node.value :=
    values.mem_iff.mpr (List.mem_map.mpr ⟨entry, mem, not_not.mp bad⟩)
  exact List.mem_map.mp none

theorem parseIndexNode_valid {dir : IndexDir} {node : EtcdNode} (listed : dir.Listed guid node)
    (valid : dir.Valid) : parseIndexNode filter node = .ok (dir.records filter) := by
  obtain ⟨nodes, perm, shown⟩ := listed
  unfold parseIndexNode
  rcases dir with ⟨index, _ | inst, _ | evacuating⟩
  · cases shown
    rw [List.perm_nil.mp perm]
    rfl
  · obtain ⟨n, rest, ⟨key, value⟩, none, rfl⟩ := List.forall₂_cons_left_iff.mp shown
    cases none
    rw [List.perm_singleton.mp perm, List.foldlM_cons,
      parse_evacuating key value (valid evacuating (by simp [IndexDir.leaves]))]
    simp [IndexDir.records]
  · obtain ⟨n, rest, ⟨key, value⟩, none, rfl⟩ := List.forall₂_cons_left_iff.mp shown
    cases none
    rw [List.perm_singleton.mp perm, List.foldlM_cons,
      parse_instance key value (valid inst (by simp [IndexDir.leaves]))]
    simp [IndexDir.records]
  · obtain ⟨n, rest, ⟨key, value⟩, shown', rfl⟩ := List.forall₂_cons_left_iff.mp shown
    obtain ⟨n', rest', ⟨key', value'⟩, none, rfl⟩ := List.forall₂_cons_left_iff.mp shown'
    cases none
    have instValid := valid inst (by simp [IndexDir.leaves])
    have evacuatingValid := valid evacuating (by simp [IndexDir.leaves])
    -- the two leaves fill different fields, so their order does not matter
    rcases List.perm_pair.mp perm with nodes | nodes
    · rw [nodes, List.foldlM_cons, parse_instance key value instValid]
      change List.foldlM (parseInstanceNode filter) _ [n'] = _
      rw [List.foldlM_cons, parse_evacuating key' value' evacuatingValid]
      simp [IndexDir.records]
    · rw [nodes, List.foldlM_cons, parse_evacuating key' value' evacuatingValid]
      change List.foldlM (parseInstanceNode filter) _ [n] = _
      rw [List.foldlM_cons, parse_instance key value instValid]
      simp [IndexDir.records]

/-! ### Process directories -/

/-- The group that the outer loop appends, if any. -/
def kept (outcome : Except Error ActualLRPGroup) : Option ActualLRPGroup :=
  match outcome with
  | .ok group => if group.inst ≠ none ∨ group.evacuating ≠ none then some group else none
  | .error _ => none

theorem kept_records (dir : IndexDir) : kept (.ok (dir.records filter)) = dir.group filter := by
  unfold kept IndexDir.group
  rcases dir.records filter with ⟨_ | inst, _ | evacuating⟩ <;> simp

theorem appendIndexNode_ok {groups : List ActualLRPGroup} {node : EtcdNode} {group : ActualLRPGroup}
    (parsed : parseIndexNode filter node = .ok group) :
    appendIndexNode filter groups node = .ok (groups ++ (kept (.ok group)).toList) := by
  rw [appendIndexNode, parsed, kept]
  change (if _ then _ else _) = _
  split <;> simp [pure, Except.pure]

theorem foldlM_appendIndexNode_ok {nodes : List EtcdNode} (groups : List ActualLRPGroup)
    (parsed : ∀ node ∈ nodes, ∃ group, parseIndexNode filter node = .ok group) :
    nodes.foldlM (appendIndexNode filter) groups =
      .ok (groups ++ (nodes.map (parseIndexNode filter)).filterMap kept) := by
  induction nodes generalizing groups with
  | nil => simp [pure, Except.pure]
  | cons node nodes ih =>
      obtain ⟨group, here⟩ := parsed node List.mem_cons_self
      rw [List.foldlM_cons, appendIndexNode_ok here]
      change nodes.foldlM (appendIndexNode filter) _ = _
      rw [ih _ fun n mem => parsed n (List.mem_cons_of_mem _ mem), List.map_cons, here,
        List.filterMap_cons]
      cases kept (.ok group) <;> simp

theorem foldlM_appendIndexNode_error {nodes : List EtcdNode} {e : Error} (groups : List ActualLRPGroup)
    (parsed : ∀ node ∈ nodes, (∃ group, parseIndexNode filter node = .ok group) ∨
      parseIndexNode filter node = .error e)
    (bad : ∃ node ∈ nodes, parseIndexNode filter node = .error e) :
    nodes.foldlM (appendIndexNode filter) groups = .error e := by
  induction nodes generalizing groups with
  | nil => simp at bad
  | cons node nodes ih =>
      rw [List.foldlM_cons]
      rcases parsed node List.mem_cons_self with ⟨group, here⟩ | here
      · rw [appendIndexNode_ok here]
        refine ih _ (fun n mem => parsed n (List.mem_cons_of_mem _ mem)) ?_
        obtain ⟨n, mem, failed⟩ := bad
        rcases List.mem_cons.mp mem with rfl | mem
        · rw [here] at failed
          cases failed
        · exact ⟨n, mem, failed⟩
      · rw [appendIndexNode, here]
        rfl

section Process

variable {process : ProcessDir} {node : EtcdNode}

open Classical in
/-- What the inner loop makes of the index directories. -/
theorem ProcessDir.outcomes (filter : ActualLRPFilter) (listed : process.Listed node) :
    (node.nodes.map (parseIndexNode filter)).Perm
      (process.dirs.map fun dir =>
        if dir.Valid then .ok (dir.records filter) else .error ErrDeserializeJSON) := by
  refine listed.map fun dir _ n shown => ?_
  by_cases valid : dir.Valid
  · rw [if_pos valid, parseIndexNode_valid shown valid]
  · rw [if_neg valid, parseIndexNode_invalid shown valid]

theorem ProcessDir.parse_ok (filter : ActualLRPFilter) (listed : process.Listed node)
    (valid : process.Valid) :
    ∃ groups, parseActualLRPGroups node filter = .ok groups ∧
      groups.Perm (process.dirs.filterMap (IndexDir.group filter)) := by
  have outcomes : (node.nodes.map (parseIndexNode filter)).Perm
      (process.dirs.map fun dir => .ok (dir.records filter)) :=
    listed.map fun dir mem n shown => parseIndexNode_valid shown (valid dir mem)
  refine ⟨_, foldlM_appendIndexNode_ok [] fun n mem => ?_, ?_⟩
  · obtain ⟨dir, -, same⟩ := List.mem_map.mp (outcomes.mem_iff.mp (List.mem_map_of_mem mem))
    exact ⟨_, same.symm⟩
  · have groups : (process.dirs.map fun dir => .ok (dir.records filter)).filterMap kept =
        process.dirs.filterMap (IndexDir.group filter) := by
      rw [List.filterMap_map]
      exact List.filterMap_congr fun dir _ => kept_records dir
    rw [List.nil_append, ← groups]
    exact outcomes.filterMap kept

theorem ProcessDir.parse_error (filter : ActualLRPFilter) (listed : process.Listed node)
    (invalid : ¬process.Valid) :
    parseActualLRPGroups node filter = .error ErrDeserializeJSON := by
  classical
  have outcomes := ProcessDir.outcomes filter listed
  obtain ⟨dir, bad⟩ := not_forall.mp invalid
  obtain ⟨mem, bad⟩ := Classical.not_imp.mp bad
  refine foldlM_appendIndexNode_error [] (fun n mem => ?_) ?_
  · obtain ⟨dir, -, same⟩ := List.mem_map.mp (outcomes.mem_iff.mp (List.mem_map_of_mem mem))
    rw [← same]
    split
    · exact .inl ⟨_, rfl⟩
    · exact .inr rfl
  · have failed := outcomes.mem_iff.mpr (List.mem_map_of_mem mem)
    rw [if_neg bad] at failed
    obtain ⟨n, mem, same⟩ := List.mem_map.mp failed
    exact ⟨n, mem, same⟩

end Process

/-! ### Lookup -/

theorem find_of_nodup {α κ : Type} [DecidableEq κ] {key : α → κ} {l : List α}
    (nodup : (l.map key).Nodup) {a : α} (mem : a ∈ l) :
    (l.find? fun b => key b = key a) = some a := by
  induction l with
  | nil => cases mem
  | cons b l ih =>
      rw [List.map_cons, List.nodup_cons] at nodup
      obtain ⟨fresh, nodup⟩ := nodup
      rcases List.mem_cons.mp mem with rfl | mem
      · simp
      · have other : key b ≠ key a := fun same => fresh (same ▸ List.mem_map_of_mem mem)
        rw [List.find?_cons_of_neg (by simpa using other)]
        exact ih nodup mem

theorem ActualTree.process_guid {process : ProcessDir} (mem : process ∈ tree.processes) :
    tree.process process.guid = some process :=
  find_of_nodup tree.nodup mem

theorem ActualTree.groupAt_of_mem {process : ProcessDir} (found : tree.process guid = some process)
    {dir : IndexDir} (mem : dir ∈ process.dirs) :
    tree.groupAt filter guid dir.index = dir.group filter := by
  rw [groupAt, ActualTree.dir, found, Option.bind_some, find_of_nodup process.nodup mem,
    Option.bind_some]

/-- The groups for a guid are those of its directory. -/
theorem ActualTree.groups_process {process : ProcessDir} (found : tree.process guid = some process) :
    (tree.indices guid).filterMap (tree.groupAt filter guid) =
      process.dirs.filterMap (IndexDir.group filter) := by
  rw [indices, found, Option.map_some, Option.getD_some, List.filterMap_map]
  exact List.filterMap_congr fun dir mem => groupAt_of_mem found mem

theorem ActualTree.mem_shown {process : ProcessDir} :
    process ∈ tree.shown.processes ↔ process ∈ tree.processes ∧ process.guid.hidden = false := by
  simp [shown]

theorem ActualTree.mem_shown_guids :
    guid ∈ tree.shown.guids ↔ guid ∈ tree.guids ∧ guid.hidden = false := by
  rw [guids, guids, List.mem_map, List.mem_map]
  constructor
  · rintro ⟨process, mem, rfl⟩
    obtain ⟨mem, visible⟩ := mem_shown.mp mem
    exact ⟨⟨process, mem, rfl⟩, visible⟩
  · rintro ⟨⟨process, mem, rfl⟩, visible⟩
    exact ⟨process, mem_shown.mpr ⟨mem, visible⟩, rfl⟩

/-- The root shows all that there is for the guids that it shows. -/
theorem ActualTree.groups_shown :
    (tree.shown.guids.flatMap fun guid =>
        (tree.indices guid).filterMap (tree.groupAt filter guid)) =
      tree.shown.processes.flatMap fun process =>
        process.dirs.filterMap (IndexDir.group filter) := by
  rw [guids, List.flatMap_map]
  exact List.flatMap_congr fun process mem => groups_process (process_guid (mem_shown.mp mem).1)

theorem ActualTree.indices_nodup (guid : ProcessGuid) : (tree.indices guid).Nodup := by
  rw [indices]
  cases tree.process guid with
  | none => exact List.nodup_nil
  | some process => exact process.nodup

/-! ### The read paths -/

theorem parse_of_empty {node : EtcdNode} (empty : node.nodes.length = 0) :
    parseActualLRPGroups node filter = .ok [] := by
  rw [parseActualLRPGroups, List.length_eq_zero_iff.mp empty]
  rfl

theorem fetch_found {key : String} {node : EtcdNode} (answer : read key = .ok node) :
    fetchRecursiveRaw read key = .ok node := by
  rw [fetchRecursiveRaw, answer]

theorem fetch_missing {key : String} (answer : read key = .error ⟨etcdErrKeyNotFound⟩) :
    fetchRecursiveRaw read key = .error ErrResourceNotFound := by
  rw [fetchRecursiveRaw, answer]
  rfl

theorem byProcessGuid_ok (serves : Serves tree read) (guid : ProcessGuid)
    (valid : ∀ process, tree.process guid = some process → process.Valid) :
    ∃ groups, actualLRPGroupsByProcessGuid read guid = .ok groups ∧
      groups.Perm ((tree.indices guid).filterMap (tree.groupAt .empty guid)) := by
  have answers := serves.process guid
  generalize found : tree.process guid = process, answer : read (actualLRPProcessDir guid) = reply
    at answers
  cases answers with
  | missing =>
      refine ⟨[], ?_, ?_⟩
      · rw [actualLRPGroupsByProcessGuid, fetch_missing answer]
        rfl
      · simp [ActualTree.indices, found]
  | @found process node shown =>
      rw [ActualTree.groups_process found, actualLRPGroupsByProcessGuid, fetch_found answer]
      obtain ⟨groups, parsed, perm⟩ :=
        ProcessDir.parse_ok .empty shown (valid process found)
      refine ⟨groups, ?_, perm⟩
      dsimp only
      split
      · rename_i empty
        rw [← parsed, parse_of_empty empty]
      · exact parsed

/-- Without a filter the two inner loops are the same. -/
theorem rawInstanceNode_eq : rawInstanceNode = parseInstanceNode .empty := by
  funext group node
  unfold rawInstanceNode parseInstanceNode
  split <;> simp [ActualLRPFilter.empty]

theorem byIndex_eq (serves : Serves tree read) (guid : ProcessGuid)
    (valid : ∀ process, tree.process guid = some process → process.Valid) (index : Int32) :
    actualLRPGroupByProcessGuidAndIndex read guid index =
      match tree.groupAt .empty guid index with
      | some group => .ok group
      | none => .error ErrResourceNotFound := by
  have answers := serves.dir guid index
  generalize found : tree.dir guid index = dir, answer : read (actualLRPIndexDir guid index) = reply
    at answers
  rw [ActualTree.groupAt, found, actualLRPGroupByProcessGuidAndIndex,
    rawActualLRPGroupByProcessGuidAndIndex]
  cases answers with
  | missing =>
      rw [fetch_missing answer]
      rfl
  | @found dir node shown =>
      obtain ⟨process, inTree, mem⟩ := Option.bind_eq_some_iff.mp found
      have dirValid : dir.Valid :=
        valid process inTree dir (List.mem_of_find?_eq_some mem)
      have parsed : node.nodes.foldlM rawInstanceNode ⟨none, none⟩ = .ok (dir.records .empty) := by
        rw [rawInstanceNode_eq]
        exact parseIndexNode_valid shown dirValid
      rw [fetch_found answer, Option.bind_some, IndexDir.group]
      change Except.map _ (node.nodes.foldlM rawInstanceNode ⟨none, none⟩ >>= _) = _
      rw [parsed]
      rcases dir.records .empty with ⟨_ | inst, _ | evacuating⟩ <;> rfl

/-- The pool gathers what a loop over the processes would. -/
theorem pool_outcome {node : EtcdNode} {labels : List (Fin node.nodes.length)}
    {pool : Pool ActualLRPGroup Error node.nodes.length} {size : Nat}
    (run : Interaction.Trace (Step (parseWork node filter) size) Pool.init labels pool)
    (completed : pool.Completed) :
    (pool.error = none ↔ ∀ n ∈ node.nodes, ∃ groups, parseActualLRPGroups n filter = .ok groups) ∧
      pool.results.Perm (node.nodes.flatMap fun n => yield (parseActualLRPGroups n filter)) := by
  obtain ⟨succeeded, results⟩ := outcome run completed
  refine ⟨succeeded.trans ⟨fun all n mem => ?_, fun all i => all _ (List.get_mem _ i)⟩, ?_⟩
  · obtain ⟨i, rfl⟩ := List.mem_iff_get.mp mem
    exact all i
  · refine results.trans (List.Perm.of_eq ?_)
    have nodes : (List.finRange node.nodes.length).map node.nodes.get = node.nodes := by
      simp
    calc (List.finRange node.nodes.length).flatMap (fun i => yield (parseWork node filter i))
        = ((List.finRange node.nodes.length).map node.nodes.get).flatMap
            (fun n => yield (parseActualLRPGroups n filter)) := by
          rw [List.flatMap_map]
          rfl
      _ = node.nodes.flatMap (fun n => yield (parseActualLRPGroups n filter)) := by rw [nodes]

/-- What is gathered from the nodes is, up to order, what the children give. -/
theorem ListedAs.flatMap {α β : Type} {shows : α → EtcdNode → Prop} {children : List α}
    {node : EtcdNode} (listed : ListedAs shows children node) {f : EtcdNode → List β}
    {g : α → List β} (same : ∀ a ∈ children, ∀ node, shows a node → (f node).Perm (g a)) :
    (node.nodes.flatMap f).Perm (children.flatMap g) := by
  obtain ⟨nodes, perm, shown⟩ := listed
  refine (perm.flatMap_right f).trans ?_
  clear perm
  induction shown with
  | nil => rfl
  | cons here _ ih =>
      rw [List.flatMap_cons, List.flatMap_cons]
      exact (same _ List.mem_cons_self _ here).append
        (ih fun a mem => same a (List.mem_cons_of_mem _ mem))

/-- All process directories parse exactly if every leaf is valid. -/
theorem ActualTree.parses_iff {node : EtcdNode} (listed : tree.Listed node) :
    (∀ n ∈ node.nodes, ∃ groups, parseActualLRPGroups n filter = .ok groups) ↔ tree.Valid := by
  have outcomes : (node.nodes.map fun n => ∃ groups, parseActualLRPGroups n filter = .ok groups).Perm
      (tree.processes.map ProcessDir.Valid) := by
    refine listed.map fun process _ n shown => propext ⟨fun parsed => ?_, fun valid => ?_⟩
    · by_contra invalid
      obtain ⟨groups, parsed⟩ := parsed
      rw [ProcessDir.parse_error filter shown invalid] at parsed
      cases parsed
    · obtain ⟨groups, parsed, -⟩ := ProcessDir.parse_ok filter shown valid
      exact ⟨groups, parsed⟩
  constructor
  · intro parsed process mem
    obtain ⟨n, there, same⟩ := List.mem_map.mp (outcomes.mem_iff.mpr (List.mem_map_of_mem mem))
    exact same ▸ parsed n there
  · intro valid n mem
    obtain ⟨process, there, same⟩ := List.mem_map.mp (outcomes.mem_iff.mp (List.mem_map_of_mem mem))
    exact same ▸ valid process there

/-- What `ActualLRPGroups` returns, whatever the order of the work. -/
theorem groups_outcome (serves : Serves tree read) {outcome : Except Error (List ActualLRPGroup)}
    (returns : ActualLRPGroupsReturns read filter outcome) :
    (tree.shown.Valid ∧ ∃ groups, outcome = .ok groups ∧
      groups.Perm (tree.shown.guids.flatMap fun guid =>
        (tree.indices guid).filterMap (tree.groupAt filter guid))) ∨
    (¬tree.shown.Valid ∧ outcome = .error ErrUnknownError) := by
  rw [ActualTree.groups_shown]
  have none (empty : tree.shown.processes = []) (returned : outcome = .ok []) :
      tree.shown.Valid ∧ ∃ groups, outcome = .ok groups ∧
        groups.Perm (tree.shown.processes.flatMap fun process =>
          process.dirs.filterMap (IndexDir.group filter)) := by
    refine ⟨fun process mem => ?_, [], returned, by simp [empty]⟩
    rw [empty] at mem
    cases mem
  rcases serves.root with answers | ⟨empty, answers⟩
  · generalize answer : read actualLRPSchemaRoot = reply at answers
    cases answers with
    | @found _ node shown =>
        rw [ActualLRPGroupsReturns, fetch_found answer] at returns
        dsimp only at returns
        split at returns
        · rename_i length
          refine .inl (none ?_ returns)
          obtain ⟨nodes, perm, shown⟩ := shown
          rw [List.length_eq_zero_iff.mp length, List.nil_perm] at perm
          subst perm
          exact List.forall₂_nil_right_iff.mp shown
        · obtain ⟨labels, pool, run, completed, returned⟩ := returns
          obtain ⟨succeeded, results⟩ := pool_outcome run completed
          rw [ActualTree.parses_iff shown] at succeeded
          cases error : pool.error with
          | none =>
              have valid := succeeded.mp error
              rw [error] at returned
              refine .inl ⟨valid, pool.results, returned, results.trans ?_⟩
              refine shown.flatMap fun process mem n shown => ?_
              obtain ⟨groups, parsed, perm⟩ := ProcessDir.parse_ok filter shown (valid process mem)
              rw [parsed]
              exact perm
          | some e =>
              rw [error] at returned
              exact .inr ⟨fun valid => by simp [succeeded.mpr valid] at error, returned⟩
  · generalize answer : read actualLRPSchemaRoot = reply at answers
    cases answers
    rw [ActualLRPGroupsReturns, fetch_missing answer] at returns
    refine .inl (none ?_ returns)
    simp [ActualTree.shown, empty]

/-- `ActualLRPGroups` does return. -/
theorem groups_returns (read : Reader) (filter : ActualLRPFilter) :
    ∃ outcome, ActualLRPGroupsReturns read filter outcome := by
  unfold ActualLRPGroupsReturns
  cases fetchRecursiveRaw read actualLRPSchemaRoot with
  | error e => exact ⟨_, rfl⟩
  | ok node =>
      dsimp only
      split
      · exact ⟨_, rfl⟩
      · have start : Sound (parseWork node filter) Pool.init := init_sound
        have positive : 0 < maxActualGroupGetterWorkPoolSize := by decide
        obtain ⟨labels, pool, run, completed⟩ := start.finishes positive
        exact ⟨_, labels, pool, run, completed, rfl⟩

/-! ### Groups resolve -/

/-- `Resolve` does not panic on the group. -/
def Resolves (group : ActualLRPGroup) : Prop :=
  group.resolve ≠ none

theorem resolves_iff {group : ActualLRPGroup} :
    Resolves group ↔ group.inst ≠ none ∨ group.evacuating ≠ none := by
  rcases group with ⟨_ | inst, _ | evacuating⟩
  · simp [Resolves, ActualLRPGroup.resolve]
  · simp [Resolves, ActualLRPGroup.resolve]
  · simp [Resolves, ActualLRPGroup.resolve]
  · simp only [Resolves, ActualLRPGroup.resolve]
    split <;> simp

theorem appendIndexNode_resolves {groups groups' : List ActualLRPGroup} {node : EtcdNode}
    (before : ∀ group ∈ groups, Resolves group)
    (appends : appendIndexNode filter groups node = .ok groups') : ∀ group ∈ groups', Resolves group := by
  cases parsed : parseIndexNode filter node with
  | error e =>
      rw [appendIndexNode, parsed] at appends
      cases appends
  | ok group =>
      rw [appendIndexNode_ok parsed] at appends
      cases appends
      intro g mem
      rcases List.mem_append.mp mem with mem | mem
      · exact before g mem
      · rw [kept] at mem
        split at mem
        · rename_i full
          obtain rfl := Option.some.inj (Option.mem_toList.mp mem)
          exact resolves_iff.mpr full
        · cases mem

theorem parse_resolves {node : EtcdNode} {groups : List ActualLRPGroup}
    (parses : parseActualLRPGroups node filter = .ok groups) : ∀ group ∈ groups, Resolves group := by
  have fold {nodes : List EtcdNode} {before after : List ActualLRPGroup}
      (here : ∀ group ∈ before, Resolves group)
      (folds : nodes.foldlM (appendIndexNode filter) before = .ok after) :
      ∀ group ∈ after, Resolves group := by
    induction nodes generalizing before with
    | nil =>
        cases folds
        exact here
    | cons node nodes ih =>
        rw [List.foldlM_cons] at folds
        cases appends : appendIndexNode filter before node with
        | error e =>
            rw [appends] at folds
            cases folds
        | ok middle =>
            rw [appends] at folds
            exact ih (appendIndexNode_resolves here appends) folds
  exact fold (by simp) parses

theorem groups_resolve {outcome : List ActualLRPGroup}
    (returns : ActualLRPGroupsReturns read filter (.ok outcome)) :
    ∀ group ∈ outcome, Resolves group := by
  unfold ActualLRPGroupsReturns at returns
  split at returns
  · split at returns <;> cases returns
    simp
  · split at returns
    · cases returns
      simp
    · obtain ⟨labels, pool, run, completed, returned⟩ := returns
      split at returned
      · cases returned
      · cases returned
        obtain ⟨-, results⟩ := pool_outcome run completed
        intro group mem
        obtain ⟨n, -, mem⟩ := List.mem_flatMap.mp (results.mem_iff.mp mem)
        cases parsed : parseActualLRPGroups n filter with
        | error e =>
            rw [parsed] at mem
            cases mem
        | ok groups =>
            rw [parsed] at mem
            exact parse_resolves parsed group mem

theorem byProcessGuid_resolve {processGuid : String} {groups : List ActualLRPGroup}
    (returns : actualLRPGroupsByProcessGuid read processGuid = .ok groups) :
    ∀ group ∈ groups, Resolves group := by
  unfold actualLRPGroupsByProcessGuid at returns
  split at returns
  · split at returns <;> cases returns
    simp
  · split at returns
    · cases returns
      simp
    · exact parse_resolves returns

theorem byIndex_resolves {processGuid : String} {index : Int32} {group : ActualLRPGroup}
    (returns : actualLRPGroupByProcessGuidAndIndex read processGuid index = .ok group) :
    Resolves group := by
  unfold actualLRPGroupByProcessGuidAndIndex rawActualLRPGroupByProcessGuidAndIndex at returns
  cases fetched : fetchRecursiveRaw read (actualLRPIndexDir processGuid index) with
  | error e =>
      rw [fetched] at returns
      cases returns
  | ok node =>
      rw [fetched] at returns
      change Except.map _ (node.nodes.foldlM rawInstanceNode ⟨none, none⟩ >>= _) = _ at returns
      cases parsed : node.nodes.foldlM rawInstanceNode ⟨none, none⟩ with
      | error e =>
          rw [parsed] at returns
          cases returns
      | ok found =>
          rw [parsed] at returns
          change Except.map _ (if found.evacuating = none ∧ found.inst = none then _ else _) = _ at returns
          split at returns
          · cases returns
          · rename_i full
            cases returns
            rw [resolves_iff]
            tauto

/-- **The three read paths agree where the root shows the guid.** Whatever order the pool works
in, `ActualLRPGroups` returns; it succeeds exactly if every leaf under a guid that is not hidden
decodes and validates, and then with the groups of all these guids and their indices, each seen
through the filter. Where the leaves for a guid are valid, hidden or not, the groups without a
filter are those that `ActualLRPGroupsByProcessGuid` returns for it, and the group for an index is
the one that `ActualLRPGroupByProcessGuidAndIndex` returns, or `ErrResourceNotFound` if there is
none. No group that is returned makes `Resolve` panic. -/
theorem read_paths_agree (serves : Serves tree read) (filter : ActualLRPFilter) :
    (tree.shown.guids.Nodup ∧ (∀ guid, (tree.indices guid).Nodup) ∧
      ∀ guid, guid ∈ tree.shown.guids ↔ guid ∈ tree.guids ∧ guid.hidden = false) ∧
      (∃ outcome, ActualLRPGroupsReturns read filter outcome) ∧
      (∀ outcome, ActualLRPGroupsReturns read filter outcome →
        ((∃ groups, outcome = .ok groups) ↔ tree.shown.Valid) ∧
          ∀ groups, outcome = .ok groups →
            groups.Perm (tree.shown.guids.flatMap fun guid =>
              (tree.indices guid).filterMap (tree.groupAt filter guid))) ∧
      (∀ guid : ProcessGuid, (∀ process, tree.process guid = some process → process.Valid) →
        (∃ groups, actualLRPGroupsByProcessGuid read guid = .ok groups ∧
          groups.Perm ((tree.indices guid).filterMap (tree.groupAt .empty guid))) ∧
        ∀ index, actualLRPGroupByProcessGuidAndIndex read guid index =
          match tree.groupAt .empty guid index with
          | some group => .ok group
          | none => .error ErrResourceNotFound) ∧
      (∀ groups, ActualLRPGroupsReturns read filter (.ok groups) → ∀ group ∈ groups, Resolves group) ∧
      (∀ processGuid groups, actualLRPGroupsByProcessGuid read processGuid = .ok groups →
        ∀ group ∈ groups, Resolves group) ∧
      ∀ processGuid index group,
        actualLRPGroupByProcessGuidAndIndex read processGuid index = .ok group → Resolves group := by
  refine ⟨⟨tree.shown.nodup, ActualTree.indices_nodup, fun _ => ActualTree.mem_shown_guids⟩,
    groups_returns read filter, fun outcome returns => ?_,
    fun guid valid => ⟨byProcessGuid_ok serves guid valid, byIndex_eq serves guid valid⟩,
    fun _ => groups_resolve, fun _ _ => byProcessGuid_resolve, fun _ _ _ => byIndex_resolves⟩
  rcases groups_outcome serves returns with ⟨valid, groups, rfl, perm⟩ | ⟨invalid, rfl⟩
  · refine ⟨iff_of_true ⟨groups, rfl⟩ valid, fun groups' same => ?_⟩
    cases same
    exact perm
  · refine ⟨iff_of_false (fun ⟨groups, same⟩ => by cases same) invalid, fun groups same => ?_⟩
    cases same

/-- An unclaimed record. -/
def treeRecord (guid : ProcessGuid) : ActualLRP where
  key := ⟨guid, 0, "domain"⟩
  instanceKey := ⟨"", ""⟩
  netInfo := emptyActualLRPNetInfo
  crashCount := 0
  crashReason := ""
  state := .unclaimed
  placementError := ""
  since := 1
  modificationTag := ⟨"epoch", 0⟩

theorem process_plain : Path.Plain "process".toList := by decide

theorem underscored_plain : Path.Plain "_process".toList := by decide

def sampleGuid : ProcessGuid :=
  ⟨"process", process_plain⟩

def underscoredGuid : ProcessGuid :=
  ⟨"_process", underscored_plain⟩

theorem zero_one_nodup : ([0, 1] : List Int32).Nodup := by decide

def sampleDir (guid : ProcessGuid) : IndexDir where
  index := 0
  inst := some ⟨some (treeRecord guid).marshal⟩
  evacuating := none

/-- A record for index 0, and an empty directory for index 1. -/
def sampleProcess (guid : ProcessGuid) : ProcessDir where
  guid := guid
  dirs := [sampleDir guid, ⟨1, none, none⟩]
  nodup := zero_one_nodup

/-- A process that the root shows, and one that it hides. -/
def sampleTree : ActualTree where
  processes := [sampleProcess sampleGuid, sampleProcess underscoredGuid]
  nodup := by decide

theorem treeRecord_fromJSON {guid : ProcessGuid} (mem : guid ∈ sampleTree.guids) :
    ActualLRP.fromJSON (some (treeRecord guid).marshal) = some (treeRecord guid) := by
  refine ActualLRP.fromJSON_eq_some.mpr ⟨_, rfl, ActualLRP.unmarshal_marshal _, ?_⟩
  revert guid
  decide

theorem sampleProcess_valid {guid : ProcessGuid} (mem : guid ∈ sampleTree.guids) :
    (sampleProcess guid).Valid := by
  simp [sampleProcess, sampleDir, ProcessDir.Valid, IndexDir.Valid, IndexDir.leaves, Leaf.Valid,
    treeRecord_fromJSON mem]

theorem sampleDir_group {guid : ProcessGuid} (mem : guid ∈ sampleTree.guids) :
    (sampleDir guid).group .empty = some ⟨some (treeRecord guid), none⟩ := by
  have passes : ActualLRPFilter.empty.passes (treeRecord guid) = true := by
    simp [ActualLRPFilter.passes, ActualLRPFilter.empty]
  simp [sampleDir, IndexDir.group, IndexDir.records, Leaf.record, treeRecord_fromJSON mem, passes]

theorem sampleProcess_groups {guid : ProcessGuid} (mem : guid ∈ sampleTree.guids) :
    (sampleProcess guid).dirs.filterMap (IndexDir.group .empty) =
      [⟨some (treeRecord guid), none⟩] := by
  rw [sampleProcess, List.filterMap_cons, sampleDir_group mem]
  rfl

theorem sampleTree_shown : sampleTree.shown.processes = [sampleProcess sampleGuid] := rfl

theorem sampleTree_process {guid : ProcessGuid} (mem : guid ∈ sampleTree.guids) :
    sampleTree.process guid = some (sampleProcess guid) := by
  have there : sampleProcess guid ∈ sampleTree.processes := by
    rw [ActualTree.guids, sampleTree] at mem
    rcases List.mem_pair.mp mem with rfl | rfl <;> simp [sampleTree, sampleProcess]
  exact ActualTree.process_guid there

theorem sampleTree_shown_valid : sampleTree.shown.Valid := by
  intro process mem
  rw [sampleTree_shown, List.mem_singleton] at mem
  exact mem ▸ sampleProcess_valid (by decide)

theorem sampleTree_shown_groups :
    (sampleTree.shown.guids.flatMap fun guid =>
      (sampleTree.indices guid).filterMap (sampleTree.groupAt .empty guid)) =
        [⟨some (treeRecord sampleGuid), none⟩] := by
  rw [ActualTree.groups_shown, sampleTree_shown, List.flatMap_singleton,
    sampleProcess_groups (by decide)]

theorem sampleTree_groups {guid : ProcessGuid} (mem : guid ∈ sampleTree.guids) :
    (sampleTree.indices guid).filterMap (sampleTree.groupAt .empty guid) =
      [⟨some (treeRecord guid), none⟩] := by
  rw [ActualTree.groups_process (sampleTree_process mem), sampleProcess_groups mem]

theorem sampleTree_found_valid {guid : ProcessGuid} (mem : guid ∈ sampleTree.guids)
    (process : ProcessDir) (found : sampleTree.process guid = some process) : process.Valid := by
  rw [sampleTree_process mem] at found
  exact Option.some.inj found ▸ sampleProcess_valid mem

theorem read_paths_agree_sampleTree :
    Serves sampleTree sampleTree.read ∧
      (∃ groups, ActualLRPGroupsReturns sampleTree.read .empty (.ok groups) ∧
        groups.Perm [⟨some (treeRecord sampleGuid), none⟩]) ∧
      ∃ groups, actualLRPGroupsByProcessGuid sampleTree.read sampleGuid = .ok groups ∧
        groups.Perm [⟨some (treeRecord sampleGuid), none⟩] := by
  have serves := sampleTree.read_serves
  obtain ⟨-, ⟨outcome, returns⟩, succeeds, byGuid, -⟩ := read_paths_agree serves .empty
  obtain ⟨valid, perm⟩ := succeeds outcome returns
  obtain ⟨groups, rfl⟩ := valid.mpr sampleTree_shown_valid
  have mem : sampleGuid ∈ sampleTree.guids := by decide
  refine ⟨serves, ⟨groups, returns, ?_⟩, ?_⟩
  · exact sampleTree_shown_groups ▸ perm groups rfl
  · exact sampleTree_groups mem ▸ (byGuid sampleGuid (sampleTree_found_valid mem)).1

/-- **A guid may begin with an underscore, and then `ActualLRPGroups` leaves out what the other
two paths return.** -/
theorem underscored_process_omitted :
    (Serves sampleTree sampleTree.read ∧ sampleTree.Valid) ∧
      (∃ outcome, ActualLRPGroupsReturns sampleTree.read .empty outcome) ∧
      (∀ outcome, ActualLRPGroupsReturns sampleTree.read .empty outcome →
        outcome = .ok [⟨some (treeRecord sampleGuid), none⟩]) ∧
      actualLRPGroupsByProcessGuid sampleTree.read underscoredGuid =
        .ok [⟨some (treeRecord underscoredGuid), none⟩] ∧
      actualLRPGroupByProcessGuidAndIndex sampleTree.read underscoredGuid 0 =
        .ok ⟨some (treeRecord underscoredGuid), none⟩ := by
  have serves := sampleTree.read_serves
  have mem : underscoredGuid ∈ sampleTree.guids := by decide
  have valid := sampleTree_found_valid mem
  refine ⟨⟨serves, ?_⟩, groups_returns _ _, fun outcome returns => ?_, ?_, ?_⟩
  · intro process mem
    exact sampleTree_found_valid (List.mem_map_of_mem mem) process (ActualTree.process_guid mem)
  · rcases groups_outcome serves returns with ⟨-, groups, rfl, perm⟩ | ⟨invalid, -⟩
    · rw [sampleTree_shown_groups] at perm
      rw [List.perm_singleton.mp perm]
    · exact absurd sampleTree_shown_valid invalid
  · obtain ⟨groups, answer, perm⟩ := byProcessGuid_ok serves underscoredGuid valid
    rw [sampleTree_groups mem] at perm
    rw [answer, List.perm_singleton.mp perm]
  · have group : sampleTree.groupAt .empty underscoredGuid 0 =
        (sampleDir underscoredGuid).group .empty :=
      ActualTree.groupAt_of_mem (sampleTree_process mem) List.mem_cons_self
    rw [byIndex_eq serves underscoredGuid valid, group, sampleDir_group mem]

end Bbs.Etcd
