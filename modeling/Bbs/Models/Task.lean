import Bbs.Models.RuleEncoding
import Bbs.Text
import Bbs.Url

/-!
Tasks and their `Validate` (`models/task.go`).

A task holds a wrapped action and pointers to its egress rules. The actions are a parameter
(`Actions`); validating one may panic, and so does validating a nil rule.
-/

namespace Bbs.Models

open Bbs.Json Bbs.Net

/-- The wrappers `W` of the actions `I`. -/
structure Actions (W I : Type) where
  unwrapAction : Option W → Option I
  /-- `none` if it panics. -/
  validate : I → Option (Option ErrorValue)
  marshal : Option W → Option Json
  /-- Decoding into a zero struct. -/
  unmarshal : Json → Decoded W

structure EnvironmentVariable where
  name : String
  value : String
  deriving DecidableEq

structure Task (W : Type) where
  taskGuid : String
  domain : String
  rootFs : String
  environmentVariables : Option (List (Option EnvironmentVariable))
  cellId : String
  action : Option W
  resultFile : String
  result : String
  failed : Bool
  failureReason : String
  memoryMb : Int32
  diskMb : Int32
  cpuWeight : UInt32
  privileged : Bool
  logGuid : String
  logSource : String
  metricsGuid : String
  createdAt : Int64
  updatedAt : Int64
  firstCompletedAt : Int64
  state : Int32
  annotation : String
  egressRules : Option (List (Option SecurityGroupRule))
  completionCallbackUrl : String

/-! ### `Validate` -/

def maximumAnnotationLength : Nat :=
  10 * 1024

def ErrInvalidActionType : ErrorValue :=
  .text "invalid action type"

/-- `taskGuidPattern` -/
def isTaskGuid (guid : String) : Bool :=
  guid ≠ "" && guid.toList.all fun c => c.isAlphanum || c = '_' || c = '-'

def invalidRootFs (rootFs : String) : Bool :=
  if rootFs = "" then true
  else match parseURL rootFs with
    | none => true
    | some url => url.scheme = ""

namespace Task

variable {W I : Type} {actions : Actions W I} {task : Task W}

/-- The loop over the egress rules: `Validate` is called through the pointer. -/
def checkRules : ValidationError → List (Option SecurityGroupRule) → Option ValidationError
  | ve, [] => some ve
  | _, none :: _ => none
  | ve, some rule :: rules =>
      checkRules (ve.check (rule.validate.isSome = true) (.invalidField "egress_rules")) rules

def checkAction (actions : Actions W I) (ve : ValidationError) (action : Option W) :
    Option ValidationError :=
  match actions.unwrapAction action with
  | none => some (ve.append ErrInvalidActionType)
  | some action => (actions.validate action).map ve.extend

/-- `none` if it panics. -/
def validate (actions : Actions W I) (task : Task W) : Option (Option ErrorValue) := do
  let ve := ((ValidationError.nil.check (task.domain = "") (.invalidField "domain")).check
    (¬isTaskGuid task.taskGuid) (.invalidField "task_guid")).check
    (invalidRootFs task.rootFs = true) (.invalidField "rootfs")
  let ve ← checkAction actions ve task.action
  let ve := (ve.check (task.cpuWeight > 100) (.invalidField "cpu_weight")).check
    (maximumAnnotationLength < task.annotation.utf8ByteSize) (.invalidField "annotation")
  let ve ← checkRules ve (task.egressRules.getD [])
  return ve.result

/-- Along the loop the errors only grow, so without any at its end there were none before. -/
theorem checkRules_eq_nil {ve : ValidationError} {rules : List (Option SecurityGroupRule)}
    (passed : checkRules ve rules = some []) :
    ve = [] ∧ ∀ rule ∈ rules, ∃ r : SecurityGroupRule, rule = some r ∧ r.validate = none := by
  induction rules generalizing ve with
  | nil => simpa [checkRules] using passed
  | cons rule rules ih =>
      cases rule with
      | none => cases passed
      | some r =>
          obtain ⟨here, rest⟩ := ih passed
          rw [ValidationError.check_invalidField] at here
          exact ⟨here.1, List.forall_mem_cons.mpr ⟨⟨r, rfl, by simpa using here.2⟩, rest⟩⟩

theorem checkAction_eq_nil {ve : ValidationError} {action : Option W}
    (passed : checkAction actions ve action = some []) :
    (actions.unwrapAction action).isSome = true := by
  unfold checkAction at passed
  split at passed
  · simp [ErrInvalidActionType, ValidationError.append] at passed
  · next wrapped => rw [wrapped, Option.isSome_some]

/-- What storing a task needs of `Validate`: there is an action, no rule is nil, and every
rule passes. -/
theorem valid_parts (valid : task.validate actions = some none) :
    (actions.unwrapAction task.action).isSome = true ∧
      ∀ rule ∈ task.egressRules.getD [],
        ∃ r : SecurityGroupRule, rule = some r ∧ r.validate = none := by
  simp only [validate, Option.bind_eq_bind, Option.bind_eq_some_iff, Option.pure_def,
    Option.some.injEq, ValidationError.result_eq_none] at valid
  obtain ⟨_, acted, ve, checked, rfl⟩ := valid
  obtain ⟨before, rules⟩ := checkRules_eq_nil checked
  simp only [ValidationError.check_invalidField] at before
  obtain ⟨⟨rfl, -⟩, -⟩ := before
  exact ⟨checkAction_eq_nil acted, rules⟩

end Task

end Bbs.Models
