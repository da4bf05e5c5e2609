import Bbs.Models.ActionEncoding
import Bbs.Models.Encoding

/-!
Desired LRPs: their `Validate` (`models/desired_lrp.go`) and how they are read from JSON (the
struct tags in `models/desired_lrp.pb.go`).

`Validate` goes through the routes in the order Go happens to iterate over the map, and stops
when they are too long. It dereferences every route value on its way and every egress rule, and
unwraps the actions without looking whether there is one: `validates_iff` says when it panics, for
desired LRPs and for tasks.
-/

namespace Bbs.Models

open Bbs.Json Bbs.Net

/-- The text of a JSON value. -/
abbrev RawMessage := String

/-- A map from names to pointers. -/
abbrev Routes := List (String × Option RawMessage)

structure DesiredLRP where
  processGuid : String
  domain : String
  rootFs : String
  instances : Int32
  environmentVariables : List (Option EnvironmentVariable)
  setup : Option Action
  action : Option Action
  startTimeout : UInt32
  monitor : Option Action
  diskMb : Int32
  memoryMb : Int32
  cpuWeight : UInt32
  privileged : Bool
  ports : List UInt32
  routes : Option Routes
  logSource : String
  logGuid : String
  metricsGuid : String
  annotation : String
  egressRules : List (Option SecurityGroupRule)
  modificationTag : Option ModificationTag

/-! ### JSON -/

inductive DesiredField where
  | processGuid
  | domain
  | rootFs
  | instances
  | env
  | setup
  | action
  | startTimeout
  | monitor
  | diskMb
  | memoryMb
  | cpuWeight
  | privileged
  | ports
  | routes
  | logSource
  | logGuid
  | metricsGuid
  | annotationText
  | egressRules
  | modificationTag
  deriving DecidableEq

def DesiredField.name : DesiredField → String
  | .processGuid => "process_guid"
  | .domain => "domain"
  | .rootFs => "rootfs"
  | .instances => "instances"
  | .env => "env"
  | .setup => "setup"
  | .action => "action"
  | .startTimeout => "start_timeout"
  | .monitor => "monitor"
  | .diskMb => "disk_mb"
  | .memoryMb => "memory_mb"
  | .cpuWeight => "cpu_weight"
  | .privileged => "privileged"
  | .ports => "ports"
  | .routes => "routes"
  | .logSource => "log_source"
  | .logGuid => "log_guid"
  | .metricsGuid => "metrics_guid"
  | .annotationText => "annotation"
  | .egressRules => "egress_rules"
  | .modificationTag => "modification_tag"

/-- Setting a key of a map. -/
def Routes.set (routes : Routes) (key : String) (value : Option RawMessage) : Routes :=
  if key ∈ routes.map Prod.fst then
    routes.map fun p => if p.1 = key then (key, value) else p
  else routes ++ [(key, value)]

/-- `rawText` is the text each value was written in. A member `null` is a nil pointer. -/
def Routes.unmarshal (rawText : Json → RawMessage) (old : Routes) : Json → Option Routes
  | .null => some []
  | .obj members => some (members.foldl (fun routes p => routes.set p.1 (match p.2 with
      | .null => none
      | value => some (rawText value))) old)
  | _ => none

namespace DesiredLRP

def fieldOf : String → Option DesiredField :=
  fieldNamed [.processGuid, .domain, .rootFs, .instances, .env, .setup, .action, .startTimeout,
    .monitor, .diskMb, .memoryMb, .cpuWeight, .privileged, .ports, .routes, .logSource, .logGuid,
    .metricsGuid, .annotationText, .egressRules, .modificationTag] DesiredField.name

def zero : DesiredLRP where
  processGuid := ""
  domain := ""
  rootFs := ""
  instances := 0
  environmentVariables := []
  setup := none
  action := none
  startTimeout := 0
  monitor := none
  diskMb := 0
  memoryMb := 0
  cpuWeight := 0
  privileged := false
  ports := []
  routes := none
  logSource := ""
  logGuid := ""
  metricsGuid := ""
  annotation := ""
  egressRules := []
  modificationTag := none

def setField (rawText : Json → RawMessage) (desired : DesiredLRP) (field : DesiredField)
    (value : Json) : Option DesiredLRP :=
  match field with
  | .processGuid =>
      (decodeString desired.processGuid value).map fun s => { desired with processGuid := s }
  | .domain => (decodeString desired.domain value).map fun s => { desired with domain := s }
  | .rootFs => (decodeString desired.rootFs value).map fun s => { desired with rootFs := s }
  | .instances =>
      (decodeInt32 desired.instances value).map fun n => { desired with instances := n }
  | .env =>
      (decodeSlice none RunAction.decodeVariable (some desired.environmentVariables) value).map
        fun env => { desired with environmentVariables := env.getD [] }
  | .setup =>
      (decodePointer .zero Action.unmarshal desired.setup value).map fun w =>
        { desired with setup := w }
  | .action =>
      (decodePointer .zero Action.unmarshal desired.action value).map fun w =>
        { desired with action := w }
  | .startTimeout =>
      (decodeUInt32 desired.startTimeout value).map fun n => { desired with startTimeout := n }
  | .monitor =>
      (decodePointer .zero Action.unmarshal desired.monitor value).map fun w =>
        { desired with monitor := w }
  | .diskMb => (decodeInt32 desired.diskMb value).map fun n => { desired with diskMb := n }
  | .memoryMb => (decodeInt32 desired.memoryMb value).map fun n => { desired with memoryMb := n }
  | .cpuWeight =>
      (decodeUInt32 desired.cpuWeight value).map fun n => { desired with cpuWeight := n }
  | .privileged =>
      (decodeBool desired.privileged value).map fun b => { desired with privileged := b }
  | .ports =>
      (decodeSlice 0 decodeUInt32 (some desired.ports) value).map fun ports =>
        { desired with ports := ports.getD [] }
  | .routes =>
      (decodePointer [] (Routes.unmarshal rawText) desired.routes value).map fun routes =>
        { desired with routes := routes }
  | .logSource =>
      (decodeString desired.logSource value).map fun s => { desired with logSource := s }
  | .logGuid => (decodeString desired.logGuid value).map fun s => { desired with logGuid := s }
  | .metricsGuid =>
      (decodeString desired.metricsGuid value).map fun s => { desired with metricsGuid := s }
  | .annotationText =>
      (decodeString desired.annotation value).map fun s => { desired with annotation := s }
  | .egressRules =>
      (lenientSlice none (lenientPointer RuleOf.zero (RuleOf.unmarshal decodeUInt32 0))
        (some desired.egressRules) value).checked.map fun rules =>
          { desired with egressRules := rules.getD [] }
  | .modificationTag =>
      (decodePointer ⟨"", 0⟩ (decodeStruct ModificationTag.fieldOf ModificationTag.setField)
        desired.modificationTag value).map fun tag => { desired with modificationTag := tag }

/-- What `json.Unmarshal` makes of a desired LRP, `none` being its error. -/
def unmarshal (rawText : Json → RawMessage) : DesiredLRP → Json → Option DesiredLRP :=
  decodeStruct fieldOf (setField rawText)

end DesiredLRP

/-! ### `Validate` -/

def maximumRouteLength : Nat :=
  4 * 1024

/-- `processGuidPattern` -/
def isProcessGuid (guid : String) : Bool :=
  guid ≠ "" && guid.toList.all fun c => c.isAlphanum || c = '_' || c = '-'

namespace DesiredLRP

/-- Scheme and syntax of the root file system; an empty one is reported a second time here. -/
def badRootFs (rootFs : String) : Bool :=
  match parseURL rootFs with
  | none => true
  | some url => url.scheme = ""

/-- `UnwrapAction(action).Validate()` of an action that is not nil. -/
def checkAction (ve : ValidationError) : Option Action → Option ValidationError
  | none => some ve
  | some action => action.unwrapValidate.map ve.extend

/-- The loop over the values of the routes, given in the order of iteration. -/
def checkRoutes (ve : ValidationError) (totalRoutesLength : Nat) :
    List (Option RawMessage) → Option ValidationError
  | [] => some ve
  | none :: _ => none
  | some value :: values =>
      let totalRoutesLength := totalRoutesLength + value.utf8ByteSize
      if totalRoutesLength > maximumRouteLength then some (ve.append (.invalidField "routes"))
      else checkRoutes ve totalRoutesLength values

/-- The loop over the egress rules: `Validate` is called through the pointer. -/
def checkRules (ve : ValidationError) : List (Option SecurityGroupRule) → Option ValidationError
  | [] => some ve
  | none :: _ => none
  | some rule :: rules =>
      match rule.validate with
      | none => checkRules ve rules
      | some err => checkRules ((ve.append (.invalidField "egress_rules")).append err) rules

/-- `values` are the values of the routes in the order of iteration. `none` if it panics. -/
def validate (desired : DesiredLRP) (values : List (Option RawMessage)) :
    Option (Option ErrorValue) := do
  let ve := (((ValidationError.nil.check (desired.domain = "") (.invalidField "domain")).check
    (¬isProcessGuid desired.processGuid) (.invalidField "process_guid")).check
    (desired.rootFs = "") (.invalidField "rootfs")).check
    (badRootFs desired.rootFs = true) (.invalidField "rootfs")
  let ve ← checkAction ve desired.setup
  let ve ← checkAction (ve.check (desired.action.isNone) ErrInvalidActionType) desired.action
  let ve ← checkAction ve desired.monitor
  let ve := ((ve.check (desired.instances < 0) (.invalidField "instances")).check
    (desired.cpuWeight > 100) (.invalidField "cpu_weight")).check
    (maximumAnnotationLength < desired.annotation.utf8ByteSize) (.invalidField "annotation")
  let ve ← checkRoutes ve 0 values
  let ve ← checkRules ve desired.egressRules
  return ve.result

def routeValues (desired : DesiredLRP) : List (Option RawMessage) :=
  (desired.routes.getD []).map Prod.snd

/-- `Validate` may end in this way, `none` being a panic. -/
def Validates (desired : DesiredLRP) (outcome : Option (Option ErrorValue)) : Prop :=
  ∃ values, values.Perm desired.routeValues ∧ desired.validate values = outcome

/-- However Go iterates over the routes, `Validate` returns nil. -/
def Passes (desired : DesiredLRP) : Prop :=
  ∀ outcome, desired.Validates outcome → outcome = some none

/-- `FromJSON`, where `none` is an error or a panic. In which order the routes are gone through
makes no difference to what passes: `passes_iff`. -/
def fromJSON (rawText : Json → RawMessage) (j : Json) : Option DesiredLRP := do
  let desired ← unmarshal rawText zero j
  match desired.validate desired.routeValues with
  | some none => some desired
  | _ => none

/-- `FromJSON` with its panics told apart, which are `some none`. The routes are gone through in the
order in which they were decoded. -/
def readJSON (rawText : Json → RawMessage) (j : Json) : Option (Option DesiredLRP) := do
  let desired ← unmarshal rawText zero j
  match desired.validate desired.routeValues with
  | none => some none
  | some none => some (some desired)
  | some (some _) => none

theorem fromJSON_eq_join (rawText : Json → RawMessage) (j : Json) :
    fromJSON rawText j = (readJSON rawText j).join := by
  rw [fromJSON, readJSON]
  cases unmarshal rawText zero j with
  | none => rfl
  | some desired =>
      simp only [Option.bind_eq_bind, Option.bind_some]
      rcases desired.validate desired.routeValues with _ | _ | err <;> rfl

end DesiredLRP

/-! ### When it returns -/

/-- A step that returns whatever it is given, or never. -/
theorem bind_isSome {α β : Type} {o : Option α} {f : α → Option β} {p : Prop}
    (returns : ∀ a, (f a).isSome ↔ p) : (o.bind f).isSome ↔ o.isSome ∧ p := by
  cases o with
  | none => simp
  | some a => simp [returns]

theorem returned_isSome {o : Option ValidationError} :
    (o.bind fun ve => some ve.result).isSome ↔ o.isSome := by
  cases o <;> simp

namespace DesiredLRP

theorem checkAction_isSome (ve : ValidationError) (o : Option Action) :
    (checkAction ve o).isSome ↔ ∀ w ∈ o, w.Filled := by
  cases o with
  | none => simp [checkAction]
  | some w => simp [checkAction, Action.unwrapValidate_isSome]

theorem checkRoutes_isSome_congr (ve ve' : ValidationError) (total : Nat)
    (values : List (Option RawMessage)) :
    (checkRoutes ve total values).isSome ↔ (checkRoutes ve' total values).isSome := by
  induction values generalizing total with
  | nil => simp [checkRoutes]
  | cons o values ih =>
      cases o with
      | none => simp [checkRoutes]
      | some value =>
          rw [checkRoutes, checkRoutes]
          split
          · simp
          · exact ih _

theorem checkRules_isSome (ve : ValidationError) (rules : List (Option SecurityGroupRule)) :
    (checkRules ve rules).isSome ↔ none ∉ rules := by
  induction rules generalizing ve with
  | nil => simp [checkRules]
  | cons o rules ih =>
      cases o with
      | none => simp [checkRules]
      | some rule =>
          rw [checkRules, List.mem_cons, not_or]
          cases rule.validate <;> simp [ih]

/-- `Validate` comes to no nil pointer: every wrapper on its way has an action, and no route value
and no egress rule is nil. -/
structure Guarded (desired : DesiredLRP) : Prop where
  setup : ∀ w ∈ desired.setup, w.Filled
  action : ∀ w ∈ desired.action, w.Filled
  monitor : ∀ w ∈ desired.monitor, w.Filled
  routes : none ∉ desired.routeValues
  egressRules : none ∉ desired.egressRules

theorem validate_isSome (desired : DesiredLRP) (values : List (Option RawMessage)) :
    (desired.validate values).isSome ↔
      (∀ w ∈ desired.setup, w.Filled) ∧ (∀ w ∈ desired.action, w.Filled) ∧
      (∀ w ∈ desired.monitor, w.Filled) ∧ (checkRoutes [] 0 values).isSome ∧
      none ∉ desired.egressRules := by
  unfold validate
  rw [← checkAction_isSome]
  refine bind_isSome fun ve => ?_
  rw [← checkAction_isSome]
  refine bind_isSome fun ve => ?_
  rw [← checkAction_isSome]
  refine bind_isSome fun ve => ?_
  rw [checkRoutes_isSome_congr]
  refine bind_isSome fun ve => ?_
  exact returned_isSome.trans (checkRules_isSome _ _)

/-- Without nil values the loop looks at the total length of the routes only. -/
theorem checkRoutes_eq {values : List (Option RawMessage)} (present : none ∉ values)
    (ve : ValidationError) {total : Nat} (short : total ≤ maximumRouteLength) :
    checkRoutes ve total values = some (ve.check
      (maximumRouteLength < total + (values.map fun v => (v.getD "").utf8ByteSize).sum)
      (.invalidField "routes")) := by
  induction values generalizing total with
  | nil => simp [checkRoutes, ValidationError.check, Nat.not_lt.mpr short]
  | cons o values ih =>
      rw [List.mem_cons, not_or] at present
      cases o with
      | none => exact absurd rfl present.1
      | some value =>
          rw [checkRoutes, List.map_cons, List.sum_cons, Option.getD_some, ← Nat.add_assoc]
          split
          · next long => rw [ValidationError.check, if_pos (Nat.lt_add_right _ long)]
          · next fits => exact ih present.2 (Nat.le_of_not_lt fits)

theorem validate_perm {desired : DesiredLRP} {values values' : List (Option RawMessage)}
    (perm : values.Perm values') (present : none ∉ values) :
    desired.validate values = desired.validate values' := by
  have present' : none ∉ values' := fun missing => present (perm.mem_iff.mpr missing)
  have same : ∀ ve, checkRoutes ve 0 values = checkRoutes ve 0 values' := by
    intro ve
    rw [checkRoutes_eq present ve (Nat.zero_le _), checkRoutes_eq present' ve (Nat.zero_le _),
      (perm.map _).sum_eq]
  simp only [validate, same]

/-- If no route value is nil, `Validate` has one outcome. -/
theorem Validates.unique {desired : DesiredLRP} {outcome outcome' : Option (Option ErrorValue)}
    (validates : desired.Validates outcome) (validates' : desired.Validates outcome')
    (present : none ∉ desired.routeValues) : outcome = outcome' := by
  obtain ⟨values, perm, rfl⟩ := validates
  obtain ⟨values', perm', rfl⟩ := validates'
  exact validate_perm (perm.trans perm'.symm) fun missing => present (perm.mem_iff.mp missing)

/-- However Go iterates over the routes, `Validate` returns. -/
theorem returns_iff_guarded (desired : DesiredLRP) :
    (∀ outcome, desired.Validates outcome → outcome.isSome) ↔ desired.Guarded := by
  constructor
  · intro returns
    have inOrder := (desired.validate_isSome _).mp (returns _ ⟨_, .refl _, rfl⟩)
    obtain ⟨setup, action, monitor, -, rules⟩ := inOrder
    refine ⟨setup, action, monitor, fun missing => ?_, rules⟩
    -- an order that begins with the nil value
    have first := returns _ ⟨_, (List.perm_cons_erase missing).symm, rfl⟩
    have routes := ((desired.validate_isSome _).mp first).2.2.2.1
    rw [checkRoutes] at routes
    cases routes
  · rintro guarded _ ⟨values, perm, rfl⟩
    rw [validate_isSome]
    refine ⟨guarded.setup, guarded.action, guarded.monitor, ?_, guarded.egressRules⟩
    have present : none ∉ values := fun missing => guarded.routes (perm.mem_iff.mp missing)
    rw [checkRoutes_eq present _ (Nat.zero_le _), Option.isSome_some]

/-! ### When it returns nil -/

/-- Routes that were gone through without a complaint have no nil value. -/
theorem present_of_checkRoutes {ve : ValidationError} {total : Nat}
    {values : List (Option RawMessage)} (checked : checkRoutes ve total values = some []) :
    none ∉ values := by
  induction values generalizing total with
  | nil => simp
  | cons o values ih =>
      cases o with
      | none => cases checked
      | some value =>
          rw [checkRoutes] at checked
          split at checked
          · simp [ValidationError.append] at checked
          · simpa using ih checked

theorem nil_of_checkRules {ve : ValidationError} {rules : List (Option SecurityGroupRule)}
    (checked : checkRules ve rules = some []) : ve = [] := by
  induction rules generalizing ve with
  | nil => simpa [checkRules] using checked
  | cons o rules ih =>
      cases o with
      | none => cases checked
      | some rule =>
          rw [checkRules] at checked
          split at checked
          · exact ih checked
          · have longer := ih checked
            rename_i err _
            cases err <;> simp [ValidationError.append] at longer

theorem present_of_validate {desired : DesiredLRP} {values : List (Option RawMessage)}
    (validated : desired.validate values = some none) : none ∉ values := by
  simp only [validate, Option.bind_eq_bind, Option.bind_eq_some_iff, Option.pure_def,
    Option.some.injEq, ValidationError.result_eq_none] at validated
  obtain ⟨_, -, _, -, _, -, _, routes, _, rules, rfl⟩ := validated
  obtain rfl := nil_of_checkRules rules
  exact present_of_checkRoutes routes

theorem passes_iff {desired : DesiredLRP} :
    desired.Passes ↔ desired.validate desired.routeValues = some none := by
  constructor
  · intro passes
    exact passes _ ⟨_, .refl _, rfl⟩
  · intro validated outcome validates
    have inOrder : desired.Validates (some none) := ⟨_, .refl _, validated⟩
    exact validates.unique inOrder (present_of_validate validated)

theorem Passes.guarded {desired : DesiredLRP} (passes : desired.Passes) : desired.Guarded := by
  refine desired.returns_iff_guarded.mp fun outcome validated => ?_
  rw [passes outcome validated]
  rfl

theorem fromJSON_eq_some_iff {rawText : Json → RawMessage} {j : Json} {desired : DesiredLRP} :
    fromJSON rawText j = some desired ↔
      unmarshal rawText zero j = some desired ∧ desired.Passes := by
  rw [passes_iff, fromJSON]
  cases unmarshal rawText zero j with
  | none => simp
  | some decoded =>
      simp only [Option.bind_eq_bind, Option.bind_some, Option.some.injEq]
      split
      · next validated =>
          simp only [Option.some.injEq, iff_self_and]
          rintro rfl
          exact validated
      · next other =>
          simp only [reduceCtorEq, false_iff, not_and]
          rintro rfl
          exact other

end DesiredLRP

/-- A desired LRP, as it is stored. -/
def sampleDesired : Json :=
  .obj [("process_guid", .str "process"), ("domain", .str "domain"), ("rootfs", .str "some:rootfs"),
    ("action", .obj [("run", .obj [("path", .str "ls"), ("user", .str "me")])])]

theorem sampleDesired_fromJSON :
    (DesiredLRP.fromJSON (fun _ => "") sampleDesired).map DesiredLRP.processGuid =
      some "process" := by
  decide +kernel

/-! ### Tasks -/

namespace Task

/-- A task may have a wrapper without an action, but not below its action. -/
structure Guarded (task : Task Action) : Prop where
  action : ∀ a ∈ unwrapAction task.action, ∀ w ∈ a.children, w.Filled
  egressRules : none ∉ task.egressRules.getD []

theorem checkRules_isSome (ve : ValidationError) (rules : List (Option SecurityGroupRule)) :
    (checkRules ve rules).isSome ↔ none ∉ rules := by
  induction rules generalizing ve with
  | nil => simp [checkRules]
  | cons o rules ih => cases o <;> simp [checkRules, ih]

theorem checkAction_isSome {marshal : Option Action → Option Json}
    {unmarshal : Json → Decoded Action} (ve : ValidationError) (o : Option Action) :
    (checkAction (actionsWith marshal unmarshal) ve o).isSome ↔
      ∀ a ∈ unwrapAction o, ∀ w ∈ a.children, w.Filled := by
  unfold checkAction actionsWith
  cases unwrapped : unwrapAction o with
  | none => simp [unwrapped]
  | some a => simp [unwrapped, ActionInterface.validate_isSome_iff_filled]

theorem returns_iff_guarded {marshal : Option Action → Option Json}
    {unmarshal : Json → Decoded Action} (task : Task Action) :
    (task.validate (actionsWith marshal unmarshal)).isSome ↔ task.Guarded := by
  have parts : task.Guarded ↔ (∀ a ∈ unwrapAction task.action, ∀ w ∈ a.children, w.Filled) ∧
      none ∉ task.egressRules.getD [] :=
    ⟨fun guarded => ⟨guarded.action, guarded.egressRules⟩, fun ⟨action, rules⟩ => ⟨action, rules⟩⟩
  rw [parts]
  unfold validate
  rw [← checkAction_isSome]
  refine bind_isSome fun ve => ?_
  exact returned_isSome.trans (checkRules_isSome _ _)

end Task

/-- **When validation panics.** `Validate` of a desired LRP returns, however Go iterates over the
routes, if and only if every wrapper in its setup, action and monitor that it comes to has an
action and no route value and no egress rule is nil; and that of a task if and only if every
wrapper below its action has an action and no egress rule is nil. -/
theorem validates_iff (desired : DesiredLRP) (task : Task Action)
    (marshal : Option Action → Option Json) (unmarshal : Json → Decoded Action) :
    ((∀ outcome, desired.Validates outcome → outcome.isSome) ↔ desired.Guarded) ∧
      ((task.validate (actionsWith marshal unmarshal)).isSome ↔ task.Guarded) :=
  ⟨desired.returns_iff_guarded, task.returns_iff_guarded⟩

/-- Decoding an action without a type. -/
theorem unmarshal_empty_action (rawText : Json → RawMessage) :
    DesiredLRP.unmarshal rawText .zero (.obj [("action", .obj [])]) =
      some { DesiredLRP.zero with action := some .zero } := by
  have field : DesiredLRP.fieldOf "action" = some .action := by decide +kernel
  have wrapper : Action.unmarshal .zero (.obj []) = some .zero := by
    rw [Action.unmarshal_eq]
    rfl
  simp [DesiredLRP.unmarshal, decodeStruct, decodeMembers, field, DesiredLRP.setField,
    DesiredLRP.zero, decodePointer, wrapper]

/-- The desired LRP that is read from `{"action": {}}` makes `Validate` panic. -/
theorem empty_action_panics : ∃ desired,
    DesiredLRP.unmarshal (fun _ => "") .zero (.obj [("action", .obj [])]) = some desired ∧
      desired.Validates none :=
  ⟨_, unmarshal_empty_action _, [], .refl _, rfl⟩

end Bbs.Models
