import Bbs.Wire.Exchange

/-!
Messages that equal each other are written the same way.

`Equal` does not tell a nil slice from an empty one, nor one order of routes from another. `Marshal`
does not either: it writes the elements of slices one by one, and routes in the order of their
names. So for each type of message there is one sequence of bytes for all messages that equal each
other (`marshal_canonical`).
-/

namespace Bbs.Models

open Bbs.Protobuf MessageField

/-! ### Actual LRPs -/

theorem ActualLRPNetInfo.canonical : ActualLRPNetInfo.message.Canonical
    fun this that => this.equal (some that) = true := by
  intro this that same
  simp only [equal, Bool.and_eq_true, decide_eq_true_eq] at same
  refine writeAll_congr ?_
  simp [fields, same]

theorem ActualLRP.canonical : ActualLRP.message.Canonical ActualLRP.Equal := by
  rintro ⟨key, instanceKey, netInfo, count, reason, state, error, since, tag⟩
    ⟨key', instanceKey', netInfo', count', reason', state', error', since', tag'⟩ ⟨info, others⟩
  obtain ⟨rfl, rfl, -, rfl, rfl, rfl, rfl, rfl, rfl⟩ := ActualLRP.mk.inj others
  refine writeAll_congr ?_
  simp [fields, ActualLRPNetInfo.canonical _ _ info]

theorem ActualLRPGroup.canonical : ActualLRPGroup.message.Canonical ActualLRPGroup.Equal := by
  intro this that same
  refine writeAll_congr ?_
  simp only [fields, List.forall_mem_cons]
  exact ⟨optional_congr ActualLRP.canonical _ _ _ same.1,
    optional_congr ActualLRP.canonical _ _ _ same.2, by simp⟩

theorem ActualLRPGroups.canonical : ActualLRPGroups.message.Canonical ActualLRPGroups.Equal := by
  intro this that same
  refine writeAll_congr ?_
  simp only [fields, List.forall_mem_cons]
  exact ⟨repeatedMessage_congr ActualLRPGroup.canonical _ _ _ same, by simp⟩

theorem StartActualLRPRequest.canonical :
    StartActualLRPRequest.message.Canonical StartActualLRPRequest.Equal := by
  rintro ⟨key, instanceKey, netInfo⟩ ⟨key', instanceKey', netInfo'⟩ ⟨info, others⟩
  obtain ⟨rfl, rfl, -⟩ := StartActualLRPRequest.mk.inj others
  refine writeAll_congr ?_
  simp only [fields, List.forall_mem_cons]
  exact ⟨rfl, rfl, optional_congr ActualLRPNetInfo.canonical _ _ _ info, by simp⟩

/-! ### Desired LRPs -/

theorem SecurityGroupRule.canonical :
    SecurityGroupRule.message.Canonical SecurityGroupRule.Equal := by
  rintro ⟨protocol, destinations, ports, range, icmp, log⟩
    ⟨protocol', destinations', ports', range', icmp', log'⟩ ⟨same_ports, others⟩
  obtain ⟨rfl, rfl, -, rfl, rfl, rfl⟩ := RuleOf.mk.inj others
  refine writeAll_congr ?_
  simp [fields, portList, show ports.getD [] = ports'.getD [] from same_ports]

/-- If the keys are distinct, then the entries have only one order in which the keys are sorted. -/
theorem sortKeys_eq_of_perm {V : Type} {entries entries' : List (String × V)}
    (perm : entries.Perm entries') (distinct : (entries.map Prod.fst).Nodup) :
    sortKeys entries = sortKeys entries' := by
  have sorted : ∀ entries : List (String × V),
      (sortKeys entries).Pairwise fun a b => decide (a.1 ≤ b.1) = true := by
    intro entries
    refine List.pairwise_mergeSort ?_ ?_ entries
    · intro a b c le le'
      rw [decide_eq_true_eq] at le le' ⊢
      exact String.le_trans le le'
    · intro a b
      rw [Bool.or_eq_true, decide_eq_true_eq, decide_eq_true_eq]
      exact String.le_total _ _
  refine List.Perm.eq_of_pairwise ?_ (sorted entries) (sorted entries') ?_
  · intro a b mem mem' le le'
    rw [decide_eq_true_eq] at le le'
    have inside := (List.mergeSort_perm _ _).mem_iff.1 mem
    have inside' := perm.mem_iff.2 ((List.mergeSort_perm _ _).mem_iff.1 mem')
    exact List.inj_on_of_nodup_map distinct inside inside' (String.le_antisymm le le')
  · exact (List.mergeSort_perm _ _).trans (perm.trans (List.mergeSort_perm _ _).symm)

theorem mapM_perm {α β : Type} (f : α → Option β) {l l' : List α} (perm : l.Perm l') :
    Option.Rel List.Perm (l.mapM f) (l'.mapM f) := by
  induction perm with
  | nil => exact .some .nil
  | @cons a l l' _ ih =>
    rw [List.mapM_cons, List.mapM_cons]
    cases f a with
    | none => exact .none
    | some b =>
      generalize l.mapM f = o at ih ⊢
      generalize l'.mapM f = o' at ih ⊢
      cases ih with
      | none => exact .none
      | some perm => exact .some (perm.cons b)
  | swap a a' l =>
    simp only [List.mapM_cons]
    cases f a <;> cases f a' <;> cases l.mapM f
    case some.some.some => exact .some (.swap _ _ _)
    all_goals exact .none
  | @trans l l' l'' _ _ ih ih' =>
    generalize l.mapM f = o at ih
    generalize l'.mapM f = o' at ih ih'
    generalize l''.mapM f = o'' at ih'
    cases ih with
    | none => exact ih'
    | some perm =>
      cases ih' with
      | some perm' => exact .some (perm.trans perm')

/-- The map has the same entries in whatever order, and they are sorted before they are written. -/
theorem Routes.canonical : Routes.message.Canonical List.Perm := by
  intro routes routes' perm
  have nodup := (perm.map Prod.fst).nodup_iff
  have same_entries : Option.Rel List.Perm routes.protoRoutes routes'.protoRoutes := by
    rw [protoRoutes, protoRoutes]
    by_cases distinct : (routes.map Prod.fst).Nodup
    · rw [if_pos distinct, if_pos (nodup.1 distinct)]
      exact mapM_perm _ perm
    · rw [if_neg distinct, if_neg (nodup.not.1 distinct)]
      exact .none
  have distinct := fun entries => @protoRoutes_eq_some routes entries
  change routes.protoRoutes.bind _ = routes'.protoRoutes.bind _
  generalize routes.protoRoutes = o at same_entries distinct ⊢
  generalize routes'.protoRoutes = o' at same_entries ⊢
  cases same_entries with
  | none => rfl
  | @some entries entries' perm =>
    refine writeAll_congr ?_
    simp [ProtoRoutes.fields, sortKeys_eq_of_perm perm (distinct entries rfl).1]

theorem DesiredLRP.canonical : DesiredLRP.message.Canonical DesiredLRP.Equal := by
  rintro ⟨guid, domain, rootFs, instances, env, setup, action, timeout, monitor, disk, memory, cpu,
    privileged, ports, routes, source, logGuid, metricsGuid, note, rules, tag⟩
    ⟨guid', domain', rootFs', instances', env', setup', action', timeout', monitor', disk',
      memory', cpu', privileged', ports', routes', source', logGuid', metricsGuid', note', rules',
      tag'⟩ ⟨same_routes, same_rules, others⟩
  obtain ⟨rfl, rfl, rfl, rfl, rfl, rfl, rfl, rfl, rfl, rfl, rfl, rfl, rfl, rfl, -, rfl, rfl, rfl,
    rfl, -, rfl⟩ := DesiredLRP.mk.inj others
  refine writeAll_congr ?_
  simp only [fields, List.forall_mem_cons]
  refine ⟨rfl, rfl, rfl, rfl, rfl, rfl, rfl, rfl, rfl, rfl, rfl, rfl, rfl, rfl, ?_, rfl, rfl, rfl,
    rfl, ?_, rfl, by simp⟩
  · exact custom_congr Routes.canonical _ _ _ same_routes
  · exact repeatedMessage_congr SecurityGroupRule.canonical _ _ _ same_rules

theorem DesiredLRPs.canonical : DesiredLRPs.message.Canonical DesiredLRPs.Equal := by
  intro this that same
  refine writeAll_congr ?_
  simp only [fields, List.forall_mem_cons]
  exact ⟨repeatedMessage_congr DesiredLRP.canonical _ _ _ same, by simp⟩

/-! ### Tasks -/

theorem Task.canonical : Task.message.Canonical Task.Equal := by
  rintro ⟨guid, domain, rootFs, env, cellId, action, resultFile, result, failed, reason, memory,
    disk, cpu, privileged, logGuid, source, metricsGuid, created, updated, completed, state, note,
    rules, url⟩
    ⟨guid', domain', rootFs', env', cellId', action', resultFile', result', failed', reason',
      memory', disk', cpu', privileged', logGuid', source', metricsGuid', created', updated',
      completed', state', note', rules', url'⟩ ⟨same_env, same_rules, others⟩
  obtain ⟨rfl, rfl, rfl, -, rfl, rfl, rfl, rfl, rfl, rfl, rfl, rfl, rfl, rfl, rfl, rfl, rfl, rfl,
    rfl, rfl, rfl, rfl, -, rfl⟩ := Task.mk.inj others
  refine writeAll_congr ?_
  simp only [fields, List.forall_mem_cons]
  refine ⟨rfl, rfl, rfl, ?_, rfl, rfl, rfl, rfl, rfl, rfl, rfl, rfl, rfl, rfl, rfl, rfl, rfl, rfl,
    rfl, rfl, rfl, rfl, rfl, ?_, by simp⟩
  · rw [repeatedMessage_write, repeatedMessage_write, same_env]
  · exact repeatedMessage_congr SecurityGroupRule.canonical _ _ _ same_rules

theorem Tasks.canonical : Tasks.message.Canonical Tasks.Equal := by
  intro this that same
  refine writeAll_congr ?_
  simp only [fields, List.forall_mem_cons]
  exact ⟨repeatedMessage_congr Task.canonical _ _ _ same, by simp⟩

/-! ### Events -/

theorem DesiredLRPCreatedEvent.canonical :
    DesiredLRPCreatedEvent.message.Canonical DesiredLRPCreatedEvent.Equal := by
  intro this that same
  refine writeAll_congr ?_
  simp only [fields, List.forall_mem_cons]
  exact ⟨optional_congr DesiredLRP.canonical _ _ _ same, by simp⟩

theorem DesiredLRPChangedEvent.canonical :
    DesiredLRPChangedEvent.message.Canonical DesiredLRPChangedEvent.Equal := by
  intro this that same
  refine writeAll_congr ?_
  simp only [fields, List.forall_mem_cons]
  exact ⟨optional_congr DesiredLRP.canonical _ _ _ same.1,
    optional_congr DesiredLRP.canonical _ _ _ same.2, by simp⟩

theorem DesiredLRPRemovedEvent.canonical :
    DesiredLRPRemovedEvent.message.Canonical DesiredLRPRemovedEvent.Equal := by
  intro this that same
  refine writeAll_congr ?_
  simp only [fields, List.forall_mem_cons]
  exact ⟨optional_congr DesiredLRP.canonical _ _ _ same, by simp⟩

theorem ActualLRPCreatedEvent.canonical :
    ActualLRPCreatedEvent.message.Canonical ActualLRPCreatedEvent.Equal := by
  intro this that same
  refine writeAll_congr ?_
  simp only [fields, List.forall_mem_cons]
  exact ⟨optional_congr ActualLRPGroup.canonical _ _ _ same, by simp⟩

theorem ActualLRPChangedEvent.canonical :
    ActualLRPChangedEvent.message.Canonical ActualLRPChangedEvent.Equal := by
  intro this that same
  refine writeAll_congr ?_
  simp only [fields, List.forall_mem_cons]
  exact ⟨optional_congr ActualLRPGroup.canonical _ _ _ same.1,
    optional_congr ActualLRPGroup.canonical _ _ _ same.2, by simp⟩

theorem ActualLRPRemovedEvent.canonical :
    ActualLRPRemovedEvent.message.Canonical ActualLRPRemovedEvent.Equal := by
  intro this that same
  refine writeAll_congr ?_
  simp only [fields, List.forall_mem_cons]
  exact ⟨optional_congr ActualLRPGroup.canonical _ _ _ same, by simp⟩

end Bbs.Models

namespace Bbs.Wire

open Bbs.Models Bbs.Protobuf

theorem Body.canonical : ∀ body : Body, body.type.message.Canonical body.type.Equal
  | .claimActualLRPRequest => Message.canonical_eq _
  | .startActualLRPRequest => StartActualLRPRequest.canonical
  | .crashActualLRPRequest => Message.canonical_eq _
  | .failActualLRPRequest => Message.canonical_eq _
  | .retireActualLRPRequest => Message.canonical_eq _
  | .actualLRP => ActualLRP.canonical
  | .actualLRPGroup => ActualLRPGroup.canonical
  | .actualLRPGroups => ActualLRPGroups.canonical
  | .desiredLRP => DesiredLRP.canonical
  | .desiredLRPs => DesiredLRPs.canonical
  | .task => Task.canonical
  | .tasks => Tasks.canonical
  | .domains => Message.canonical_eq _
  | .error => Message.canonical_eq _
  | .desiredLRPCreatedEvent => DesiredLRPCreatedEvent.canonical
  | .desiredLRPChangedEvent => DesiredLRPChangedEvent.canonical
  | .desiredLRPRemovedEvent => DesiredLRPRemovedEvent.canonical
  | .actualLRPCreatedEvent => ActualLRPCreatedEvent.canonical
  | .actualLRPChangedEvent => ActualLRPChangedEvent.canonical
  | .actualLRPRemovedEvent => ActualLRPRemovedEvent.canonical
  | .modificationTag => Message.canonical_eq _
  | .actualLRPKey => Message.canonical_eq _
  | .actualLRPInstanceKey => Message.canonical_eq _
  | .portMapping => Message.canonical_eq _
  | .actualLRPNetInfo => ActualLRPNetInfo.canonical
  | .environmentVariable => Message.canonical_eq _
  | .portRange => Message.canonical_eq _
  | .icmpInfo => Message.canonical_eq _
  | .securityGroupRule => SecurityGroupRule.canonical
  | .action => Message.canonical_eq _
  | .downloadAction => Message.canonical_eq _
  | .uploadAction => Message.canonical_eq _
  | .resourceLimits => Message.canonical_eq _
  | .runAction => Message.canonical_eq _
  | .timeoutAction => Message.canonical_eq _
  | .emitProgressAction => Message.canonical_eq _
  | .tryAction => Message.canonical_eq _
  | .listAction => Message.canonical_eq _

/-- Marshalling is one-to-one, up to what `Equal` does not tell apart. -/
theorem marshal_canonical (body : Body) (m m' : body.type.M) :
    (body.type.Equal m m' → body.type.message.marshal m = body.type.message.marshal m') ∧
      ∀ data, body.type.message.marshal m = some data → body.type.message.marshal m' = some data →
        ∃ m'', body.type.Equal m'' m ∧ body.type.Equal m'' m' := by
  refine ⟨fun equal => body.canonical.marshal_eq equal, fun data marshalled marshalled' => ?_⟩
  obtain ⟨n, decodes, equal⟩ := body.type.roundTrips.decodes marshalled
  obtain ⟨n', decodes', equal'⟩ := body.type.roundTrips.decodes marshalled'
  obtain rfl := decodes.unique decodes'
  exact ⟨n, equal, equal'⟩

end Bbs.Wire
