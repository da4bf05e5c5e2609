import Mathlib.Data.List.ReduceOption
import Bbs.Models.Actions

/-!
What `Validate` finds in a tree of actions.

`Validate` panics unless every wrapper it comes to has an action (`Action.Filled`). In a tree
whose wrappers have exactly one action each it reports the violations of all nodes, in one flat
list (`validate_exact_at_every_depth`). Both follow by induction along the wrappers
(`ActionInterface.induction`) from what `Validate` does with the reports of the wrappers
directly below an action.
-/

namespace Bbs.Models

/-! ### Trees of actions -/

/-- The wrappers directly below an action. -/
def ActionInterface.children : ActionInterface → List Action
  | .download _ => []
  | .upload _ => []
  | .run _ => []
  | .timeout a => a.action.toList
  | .emitProgress a => a.action.toList
  | .tryAction a => a.action.toList
  | .parallel a => a.actions.reduceOption
  | .serial a => a.actions.reduceOption
  | .codependent a => a.actions.reduceOption

theorem sizeOf_lt_of_mem_toList {o : Option Action} {w : Action} (mem : w ∈ o.toList) :
    sizeOf w < sizeOf o := by
  obtain rfl := Option.mem_toList.mp mem
  simp

theorem sizeOf_lt_of_mem_reduceOption {l : List (Option Action)} {w : Action}
    (mem : w ∈ l.reduceOption) : sizeOf w < sizeOf l := by
  have smaller := List.sizeOf_lt_of_mem (List.reduceOption_mem_iff.mp mem)
  simp only [Option.some.sizeOf_spec] at smaller
  omega

theorem ActionInterface.sizeOf_lt_of_mem_children {a : ActionInterface} {w : Action}
    (mem : w ∈ a.children) : sizeOf w < sizeOf a := by
  cases a with
  | download | upload | run => cases mem
  | timeout a | emitProgress a | tryAction a =>
      have smaller := sizeOf_lt_of_mem_toList mem
      cases a
      simp only at smaller
      simp only [timeout.sizeOf_spec, emitProgress.sizeOf_spec, tryAction.sizeOf_spec,
        TimeoutAction.mk.sizeOf_spec, EmitProgressAction.mk.sizeOf_spec,
        TryAction.mk.sizeOf_spec]
      omega
  | parallel a | serial a | codependent a =>
      have smaller := sizeOf_lt_of_mem_reduceOption mem
      cases a
      simp only at smaller
      simp only [parallel.sizeOf_spec, serial.sizeOf_spec, codependent.sizeOf_spec,
        ListAction.mk.sizeOf_spec]
      omega

namespace Action

/-- All the actions of a wrapper. -/
def variants (w : Action) : List ActionInterface :=
  w.downloadAction.toList.map .download ++ w.uploadAction.toList.map .upload ++
    w.runAction.toList.map .run ++ w.timeoutAction.toList.map .timeout ++
    w.emitProgressAction.toList.map .emitProgress ++ w.tryAction.toList.map .tryAction ++
    w.parallelAction.toList.map .parallel ++ w.serialAction.toList.map .serial ++
    w.codependentAction.toList.map .codependent

theorem variants_head? (w : Action) : w.variants.head? = w.getValue := by
  unfold variants getValue
  split <;> rfl

theorem mem_variants_of_getValue {w : Action} {a : ActionInterface} (value : w.getValue = some a) :
    a ∈ w.variants :=
  List.mem_of_mem_head? (by rw [variants_head?, value]; rfl)

theorem sizeOf_lt_of_mem_variants {w : Action} {a : ActionInterface} (mem : a ∈ w.variants) :
    sizeOf a < sizeOf w := by
  cases w
  simp only [variants, List.mem_append, List.mem_map, Option.mem_toList] at mem
  rcases mem with (((((((⟨a, rfl, rfl⟩ | ⟨a, rfl, rfl⟩) | ⟨a, rfl, rfl⟩) | ⟨a, rfl, rfl⟩) |
    ⟨a, rfl, rfl⟩) | ⟨a, rfl, rfl⟩) | ⟨a, rfl, rfl⟩) | ⟨a, rfl, rfl⟩) | ⟨a, rfl, rfl⟩
  all_goals simp
  all_goals omega

theorem sizeOf_lt_of_getValue {w : Action} {a : ActionInterface} (value : w.getValue = some a) :
    sizeOf a < sizeOf w :=
  sizeOf_lt_of_mem_variants (mem_variants_of_getValue value)

/-- Induction along all the actions of the wrappers. -/
theorem induction {P : Action → Prop}
    (node : ∀ w, (∀ a ∈ w.variants, ∀ c ∈ a.children, P c) → P w) (w : Action) : P w := by
  induction size : sizeOf w using Nat.strong_induction_on generalizing w with
  | _ n ih =>
      refine node w fun a mem c below => ih _ ?_ c rfl
      have inside := sizeOf_lt_of_mem_variants mem
      have child := ActionInterface.sizeOf_lt_of_mem_children below
      omega

end Action

/-- Induction along the wrappers. -/
theorem ActionInterface.induction {P : ActionInterface → Prop}
    (node : ∀ a, (∀ w ∈ a.children, ∀ i, w.getValue = some i → P i) → P a) (a : ActionInterface) :
    P a := by
  induction size : sizeOf a using Nat.strong_induction_on generalizing a with
  | _ n ih =>
      refine node a fun w mem i value => ih _ ?_ i rfl
      have below := sizeOf_lt_of_mem_children mem
      have inside := Action.sizeOf_lt_of_getValue value
      omega

theorem Action.unwrapValidate_eq (w : Action) :
    w.unwrapValidate = w.getValue.bind ActionInterface.validate := by
  unfold unwrapValidate getValue
  split <;> rfl

/-! ### When `Validate` panics -/

/-- There is an action in the wrapper, and in every wrapper `Validate` comes to below it. -/
inductive Action.Filled : Action → Prop
  | intro {w : Action} {a : ActionInterface} (value : w.getValue = some a)
      (below : ∀ c ∈ a.children, c.Filled) : w.Filled

theorem validateChild_isSome (o : Option Action) :
    (validateChild o).isSome ↔ ∀ w ∈ o.toList, w.unwrapValidate.isSome := by
  cases o with
  | none => simp [validateChild]
  | some w =>
      rw [validateChild, Option.toList_some, List.forall_mem_singleton]
      cases w.unwrapValidate <;> rfl

theorem validateChildren_isSome (ve : ValidationError) (index : Nat) (actions : List (Option Action)) :
    (validateChildren ve index actions).isSome ↔
      ∀ w ∈ actions.reduceOption, w.unwrapValidate.isSome := by
  induction actions generalizing ve index with
  | nil => simp [validateChildren]
  | cons o actions ih =>
      cases o with
      | none => rw [validateChildren, ih, List.reduceOption_cons_of_none]
      | some w =>
          rw [validateChildren, List.reduceOption_cons_of_some, List.forall_mem_cons]
          cases report : w.unwrapValidate with
          | none => simp
          | some err => simp [ih]

theorem ListAction.validate_isSome (a : ListAction Action) :
    a.validate.isSome ↔ ∀ w ∈ a.actions.reduceOption, w.unwrapValidate.isSome := by
  obtain ⟨actions, logSource⟩ := a
  cases actions with
  | nil => simp [validate]
  | cons o actions =>
      rw [← validateChildren_isSome .nil 0, validate]
      · cases validateChildren .nil 0 (o :: actions) <;> rfl
      · simp

/-- Each wrapper directly below is validated, so `Validate` panics if one of them does. -/
theorem ActionInterface.validate_isSome (a : ActionInterface) :
    a.validate.isSome ↔ ∀ w ∈ a.children, w.unwrapValidate.isSome := by
  cases a with
  | download | upload | run => simp [validate, children]
  | timeout a | emitProgress a | tryAction a =>
      cases a
      simp only [validate, children, TimeoutAction.validate, EmitProgressAction.validate,
        TryAction.validate, ← validateChild_isSome]
      generalize validateChild _ = report
      cases report <;> rfl
  | parallel a | serial a | codependent a => exact ListAction.validate_isSome a

theorem Action.unwrapValidate_isSome_iff (w : Action) :
    w.unwrapValidate.isSome ↔ ∃ a, w.getValue = some a ∧ a.validate.isSome := by
  rw [unwrapValidate_eq]
  cases w.getValue <;> simp

theorem Action.filled_iff (w : Action) :
    w.Filled ↔ ∃ a, w.getValue = some a ∧ ∀ c ∈ a.children, c.Filled := by
  constructor
  · rintro ⟨value, below⟩
    exact ⟨_, value, below⟩
  · rintro ⟨a, value, below⟩
    exact .intro value below

theorem ActionInterface.validate_isSome_iff_filled (a : ActionInterface) :
    a.validate.isSome ↔ ∀ w ∈ a.children, w.Filled := by
  induction a using ActionInterface.induction with
  | node a ih =>
      rw [validate_isSome]
      refine forall₂_congr fun w mem => ?_
      rw [Action.unwrapValidate_isSome_iff, Action.filled_iff]
      exact exists_congr fun i => and_congr_right (ih w mem i)

theorem Action.unwrapValidate_isSome (w : Action) : w.unwrapValidate.isSome ↔ w.Filled := by
  rw [unwrapValidate_isSome_iff, filled_iff]
  exact exists_congr fun a => and_congr_right fun _ => a.validate_isSome_iff_filled

/-! ### What a node must satisfy -/

/-- An entry for each nil element. -/
def nilElements (index : Nat) : List (Option Action) → List ErrorValue
  | [] => []
  | none :: actions => .invalidField s!"action at index {index}" :: nilElements (index + 1) actions
  | some _ :: actions => nilElements (index + 1) actions

/-- The entry for a violated condition. -/
def violation (bad : Prop) [Decidable bad] (field : String) : List ErrorValue :=
  if bad then [.invalidField field] else []

def ListAction.violations (a : ListAction Action) : List ErrorValue :=
  violation (a.actions = []) "actions" ++ nilElements 0 a.actions

namespace ActionInterface

/-- The conditions that an action itself violates. -/
def violations : ActionInterface → List ErrorValue
  | .download a =>
      violation (a.source = "") "from" ++ violation (a.target = "") "to" ++
        violation (a.user = "") "user"
  | .upload a =>
      violation (a.target = "") "to" ++ violation (a.source = "") "from" ++
        violation (a.user = "") "user"
  | .run a => violation (a.path = "") "path" ++ violation (a.user = "") "user"
  | .timeout a => violation (a.action.isNone) "action" ++ violation (a.timeout ≤ 0) "timeout"
  | .emitProgress a => violation (a.action.isNone) "action"
  | .tryAction a => violation (a.action.isNone) "action"
  | .parallel a => a.violations
  | .serial a => a.violations
  | .codependent a => a.violations

/-- The conditions themselves. -/
def Satisfied : ActionInterface → Prop
  | .download a => a.source ≠ "" ∧ a.target ≠ "" ∧ a.user ≠ ""
  | .upload a => a.source ≠ "" ∧ a.target ≠ "" ∧ a.user ≠ ""
  | .run a => a.path ≠ "" ∧ a.user ≠ ""
  | .timeout a => a.action.isSome ∧ 0 < a.timeout
  | .emitProgress a => a.action.isSome
  | .tryAction a => a.action.isSome
  | .parallel a => a.actions ≠ [] ∧ none ∉ a.actions
  | .serial a => a.actions ≠ [] ∧ none ∉ a.actions
  | .codependent a => a.actions ≠ [] ∧ none ∉ a.actions

end ActionInterface

@[simp] theorem violation_eq_nil {bad : Prop} [Decidable bad] {field : String} :
    violation bad field = [] ↔ ¬ bad := by
  unfold violation
  split <;> simp_all

@[simp] theorem nilElements_eq_nil {index : Nat} {actions : List (Option Action)} :
    nilElements index actions = [] ↔ none ∉ actions := by
  induction actions generalizing index with
  | nil => simp [nilElements]
  | cons o actions ih => cases o <;> simp [nilElements, ih]

theorem ActionInterface.violations_eq_nil (a : ActionInterface) :
    a.violations = [] ↔ a.Satisfied := by
  cases a with
  | download a => simp [violations, Satisfied]
  | upload a =>
      simp only [violations, Satisfied, List.append_eq_nil_iff, violation_eq_nil, and_assoc]
      exact and_left_comm
  | run a => simp [violations, Satisfied]
  | timeout a => simp [violations, Satisfied, ← Option.isSome_iff_ne_none]
  | emitProgress a => simp [violations, Satisfied, ← Option.isSome_iff_ne_none]
  | tryAction a => simp [violations, Satisfied, ← Option.isSome_iff_ne_none]
  | parallel a => simp [violations, Satisfied, ListAction.violations]
  | serial a => simp [violations, Satisfied, ListAction.violations]
  | codependent a => simp [violations, Satisfied, ListAction.violations]

/-- Every violation is the name of a field. -/
def NamesField (e : ErrorValue) : Prop :=
  ∃ field, e = .invalidField field

theorem namesField_of_mem_violation {bad : Prop} [Decidable bad] {field : String} {e : ErrorValue}
    (mem : e ∈ violation bad field) : NamesField e := by
  unfold violation at mem
  split at mem
  · exact ⟨field, List.mem_singleton.mp mem⟩
  · cases mem

theorem namesField_of_mem_nilElements {index : Nat} {actions : List (Option Action)}
    {e : ErrorValue} (mem : e ∈ nilElements index actions) : NamesField e := by
  induction actions generalizing index with
  | nil => cases mem
  | cons o actions ih =>
      cases o with
      | some => exact ih mem
      | none =>
          rcases List.mem_cons.mp mem with rfl | mem
          · exact ⟨_, rfl⟩
          · exact ih mem

theorem ActionInterface.namesField_of_mem_violations {a : ActionInterface} {e : ErrorValue}
    (mem : e ∈ a.violations) : NamesField e := by
  cases a with
  | download | upload =>
      simp only [violations, List.mem_append] at mem
      rcases mem with (mem | mem) | mem
      all_goals exact namesField_of_mem_violation mem
  | run | timeout =>
      simp only [violations, List.mem_append] at mem
      rcases mem with mem | mem
      all_goals exact namesField_of_mem_violation mem
  | emitProgress | tryAction => exact namesField_of_mem_violation mem
  | parallel | serial | codependent =>
      rcases List.mem_append.mp mem with mem | mem
      · exact namesField_of_mem_violation mem
      · exact namesField_of_mem_nilElements mem

/-! ### What `Validate` reports -/

theorem check_eq_append (ve : ValidationError) (bad : Prop) [Decidable bad]
    (field : String) : ve.check bad (.invalidField field) = ve ++ violation bad field := by
  unfold ValidationError.check violation
  split <;> simp [ValidationError.append]

/-- `w` reports a permutation of `expected`. -/
def Action.Reports (w : Action) (expected : List ErrorValue) : Prop :=
  ∃ errors : ValidationError, w.unwrapValidate = some errors.result ∧ errors.Perm expected

variable {expected : Action → List ErrorValue}

theorem validateChild_reports {o : Option Action} (reports : ∀ w ∈ o.toList, w.Reports (expected w)) :
    ∃ errors, validateChild o = some errors ∧
      errors.Perm (violation (o.isNone) "action" ++ o.toList.flatMap expected) := by
  cases o with
  | none => exact ⟨[.invalidField "action"], rfl, .refl _⟩
  | some w =>
      obtain ⟨errors, validated, perm⟩ := reports w (by simp)
      refine ⟨errors, ?_, ?_⟩
      · simp [validateChild, validated]
      · simpa [violation] using perm

/-- Along the loop the reports are appended, and an entry for each nil element. -/
theorem validateChildren_reports {actions : List (Option Action)}
    (reports : ∀ w ∈ actions.reduceOption, w.Reports (expected w)) (ve : ValidationError)
    (index : Nat) :
    ∃ errors : ValidationError, validateChildren ve index actions = some (ve ++ errors) ∧
      errors.Perm (nilElements index actions ++ actions.reduceOption.flatMap expected) := by
  induction actions generalizing ve index with
  | nil => exact ⟨[], by simp [validateChildren], by simp [nilElements]⟩
  | cons o actions ih =>
      cases o with
      | none =>
          rw [List.reduceOption_cons_of_none] at reports ⊢
          obtain ⟨errors, validated, perm⟩ :=
            ih reports (ve.append (.invalidField s!"action at index {index}")) (index + 1)
          refine ⟨.invalidField s!"action at index {index}" :: errors, ?_, perm.cons _⟩
          rw [validateChildren, validated]
          simp [ValidationError.append]
      | some w =>
          rw [List.reduceOption_cons_of_some, List.forall_mem_cons] at reports
          obtain ⟨⟨first, validated, perm⟩, reports⟩ := reports
          obtain ⟨errors, rest, restPerm⟩ := ih reports (ve ++ first) (index + 1)
          refine ⟨first ++ errors, ?_, ?_⟩
          · simp [validateChildren, validated, rest]
          · rw [List.reduceOption_cons_of_some, List.flatMap_cons, nilElements]
            calc (first ++ errors).Perm (expected w ++
                  (nilElements (index + 1) actions ++ actions.reduceOption.flatMap expected)) :=
                perm.append restPerm
              _ = (expected w ++ nilElements (index + 1) actions) ++
                  actions.reduceOption.flatMap expected := (List.append_assoc ..).symm
              List.Perm _ ((nilElements (index + 1) actions ++ expected w) ++
                  actions.reduceOption.flatMap expected) := List.perm_append_comm.append_right _
              _ = _ := List.append_assoc ..

theorem ListAction.validate_reports {a : ListAction Action}
    (reports : ∀ w ∈ a.actions.reduceOption, w.Reports (expected w)) :
    ∃ errors : ValidationError, a.validate = some errors.result ∧
      errors.Perm (a.violations ++ a.actions.reduceOption.flatMap expected) := by
  obtain ⟨actions, logSource⟩ := a
  cases actions with
  | nil => exact ⟨[.invalidField "actions"], rfl, .refl _⟩
  | cons o actions =>
      obtain ⟨errors, validated, perm⟩ := validateChildren_reports reports .nil 0
      refine ⟨errors, ?_, ?_⟩
      · rw [validate, validated]
        · rfl
        · simp
      · simpa [violations, violation] using perm

/-- What an action reports: its own violations, and what the wrappers below it report. -/
theorem ActionInterface.validate_reports {a : ActionInterface}
    (reports : ∀ w ∈ a.children, w.Reports (expected w)) :
    ∃ errors : ValidationError, a.validate = some errors.result ∧
      errors.Perm (a.violations ++ a.children.flatMap expected) := by
  cases a with
  | download a =>
      refine ⟨_, rfl, ?_⟩
      simp only [check_eq_append]
      simp [violations, children]
  | upload a =>
      refine ⟨_, rfl, ?_⟩
      simp only [check_eq_append]
      simp [violations, children]
  | run a =>
      refine ⟨_, rfl, ?_⟩
      simp only [check_eq_append]
      simp [violations, children]
  | timeout a =>
      obtain ⟨errors, validated, perm⟩ := validateChild_reports reports
      refine ⟨errors ++ violation (a.timeout ≤ 0) "timeout", ?_, ?_⟩
      · cases a
        rw [validate, TimeoutAction.validate, validated, ← check_eq_append]
        rfl
      · calc (errors ++ violation (a.timeout ≤ 0) "timeout").Perm
              ((violation (a.action.isNone) "action" ++ a.action.toList.flatMap expected) ++
                violation (a.timeout ≤ 0) "timeout") := perm.append_right _
          _ = violation (a.action.isNone) "action" ++ (a.action.toList.flatMap expected ++
                violation (a.timeout ≤ 0) "timeout") := List.append_assoc ..
          List.Perm _ (violation (a.action.isNone) "action" ++
                (violation (a.timeout ≤ 0) "timeout" ++ a.action.toList.flatMap expected)) :=
              List.perm_append_comm.append_left _
          _ = _ := (List.append_assoc ..).symm
  | emitProgress a =>
      obtain ⟨errors, validated, perm⟩ := validateChild_reports reports
      refine ⟨errors, ?_, perm⟩
      cases a
      rw [validate, EmitProgressAction.validate, validated]
      rfl
  | tryAction a =>
      obtain ⟨errors, validated, perm⟩ := validateChild_reports reports
      refine ⟨errors, ?_, perm⟩
      cases a
      rw [validate, TryAction.validate, validated]
      rfl
  | parallel a => exact ListAction.validate_reports reports
  | serial a => exact ListAction.validate_reports reports
  | codependent a => exact ListAction.validate_reports reports

/-! ### Whole trees -/

namespace Action

/-- Exactly one variant is set. -/
def Single (w : Action) : Prop :=
  w.variants.length = 1

theorem Single.exists_getValue {w : Action} (single : w.Single) : ∃ a, w.getValue = some a := by
  obtain ⟨a, only⟩ := List.length_eq_one_iff.mp single
  exact ⟨a, by rw [← variants_head?, only, List.head?_cons]⟩

end Action

namespace ActionInterface

/-- Every wrapper in the tree below an action has exactly one variant set. -/
inductive Proper : ActionInterface → Prop
  | intro {a : ActionInterface} (single : ∀ w ∈ a.children, w.Single)
      (below : ∀ w ∈ a.children, ∀ i, w.getValue = some i → i.Proper) : a.Proper

theorem getValue_wrapAction (i : ActionInterface) : (wrapAction i).getValue = some i := by
  cases i <;> rfl

theorem single_wrapAction (i : ActionInterface) : (wrapAction i).Single := by
  cases i <;> rfl

/-- What `WrapAction` makes of proper trees is proper. -/
theorem Proper.of_wrapped {a : ActionInterface}
    (wrapped : ∀ w ∈ a.children, ∃ i, w = wrapAction i ∧ i.Proper) : a.Proper := by
  constructor
  · intro w mem
    obtain ⟨i, rfl, -⟩ := wrapped w mem
    exact single_wrapAction i
  · intro w mem j value
    obtain ⟨i, rfl, proper⟩ := wrapped w mem
    obtain rfl := Option.some.inj ((getValue_wrapAction i).symm.trans value)
    exact proper

/-- The actions of the tree. -/
def nodes (a : ActionInterface) : List ActionInterface :=
  a :: a.children.attach.flatMap fun w =>
    match _value : w.1.getValue with
    | none => []
    | some i => i.nodes
termination_by sizeOf a
decreasing_by
  have below := sizeOf_lt_of_mem_children w.2
  have inside := Action.sizeOf_lt_of_getValue _value
  omega

end ActionInterface

/-- The actions in and below a wrapper. -/
def Action.nodes (w : Action) : List ActionInterface :=
  match w.getValue with
  | none => []
  | some i => i.nodes

namespace ActionInterface

theorem nodes_eq (a : ActionInterface) : a.nodes = a :: a.children.flatMap Action.nodes := by
  have unattached : a.children.flatMap Action.nodes =
      a.children.attach.flatMap fun w => w.1.nodes := by
    conv_lhs => rw [← List.attach_map_subtype_val a.children]
    exact List.flatMap_map ..
  rw [nodes, unattached]
  congr 2
  funext w
  unfold Action.nodes
  split
  · next value => rw [value]
  · next value => rw [value]

/-- By induction: an action of a proper tree reports the violations of all nodes. -/
theorem validate_reports_nodes {a : ActionInterface} (proper : a.Proper) :
    ∃ errors : ValidationError, a.validate = some errors.result ∧
      errors.Perm (a.nodes.flatMap violations) := by
  induction proper with
  | @intro a single below ih =>
      rw [nodes_eq, List.flatMap_cons, List.flatMap_assoc]
      refine validate_reports fun w mem => ?_
      obtain ⟨i, value⟩ := (single w mem).exists_getValue
      obtain ⟨errors, validated, perm⟩ := ih w mem i value
      refine ⟨errors, ?_, ?_⟩
      · rw [Action.unwrapValidate_eq, value, Option.bind_some, validated]
      · rw [Action.nodes, value]
        exact perm

/-- **`Validate` is exact at every depth.** In a tree whose wrappers have exactly one variant set
each, or are nil, it returns nil if and only if every node satisfies its conditions, and otherwise
a flat `ValidationError` with one entry for each violated condition of each node. -/
theorem validate_exact_at_every_depth {a : ActionInterface} (proper : a.Proper) :
    (a.validate = some none ↔ ∀ n ∈ a.nodes, n.Satisfied) ∧
    (¬(∀ n ∈ a.nodes, n.Satisfied) → ∃ errors : List ErrorValue,
      a.validate = some (some (.validation errors)) ∧
      (∀ e ∈ errors, ∀ nested, e ≠ .validation nested) ∧
      errors.Perm (a.nodes.flatMap violations)) := by
  obtain ⟨errors, validated, perm⟩ := validate_reports_nodes proper
  have clean : errors = [] ↔ ∀ n ∈ a.nodes, n.Satisfied := by
    rw [← List.length_eq_zero_iff, perm.length_eq, List.length_eq_zero_iff,
      List.flatMap_eq_nil_iff]
    exact forall₂_congr fun n _ => n.violations_eq_nil
  constructor
  · rw [validated, Option.some.injEq, ValidationError.result_eq_none, clean]
  · intro violated
    refine ⟨errors, ?_, ?_, perm⟩
    · rw [validated, ValidationError.result, if_neg (by simpa using mt clean.mp violated)]
    · rintro e mem nested rfl
      obtain ⟨n, -, reported⟩ := List.mem_flatMap.mp (perm.subset mem)
      obtain ⟨field, named⟩ := namesField_of_mem_violations reported
      cases named

/-- A run without a path. -/
def sampleRun : ActionInterface :=
  .run ⟨"", [], "", [], none, "vcap", ""⟩

/-- Beside a nil wrapper. -/
def sampleParallel : ActionInterface :=
  .parallel ⟨[some (wrapAction sampleRun), none], ""⟩

def sampleTry : ActionInterface :=
  .tryAction ⟨some (wrapAction sampleParallel), ""⟩

theorem validate_exact_sampleTry :
    sampleTry.Proper ∧ ∃ errors : List ErrorValue,
      sampleTry.validate = some (some (.validation errors)) ∧
      (∀ e ∈ errors, ∀ nested, e ≠ .validation nested) ∧
      errors.Perm (sampleTry.nodes.flatMap violations) := by
  have run : sampleRun.Proper := .of_wrapped (by simp [sampleRun, children])
  have parallel : sampleParallel.Proper := by
    refine .of_wrapped ?_
    simp only [sampleParallel, children, List.reduceOption_cons_of_some,
      List.reduceOption_cons_of_none, List.reduceOption_nil, List.forall_mem_singleton]
    exact ⟨_, rfl, run⟩
  have proper : sampleTry.Proper := by
    refine .of_wrapped ?_
    simp only [sampleTry, children, Option.toList_some, List.forall_mem_singleton]
    exact ⟨_, rfl, parallel⟩
  refine ⟨proper, (validate_exact_at_every_depth proper).2 fun satisfied => ?_⟩
  have top : sampleParallel ∈ sampleTry.nodes := by
    rw [nodes_eq]
    simp [sampleTry, children, Action.nodes, getValue_wrapAction, nodes_eq sampleParallel]
  obtain ⟨-, present⟩ := satisfied _ top
  exact present (by simp)

end ActionInterface

end Bbs.Models
