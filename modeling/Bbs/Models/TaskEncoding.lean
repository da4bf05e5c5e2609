import Bbs.Models.ActionEncoding

/-!
How a task is stored (`Task.MarshalJSON` and `Task.UnmarshalJSON` in `models/task.go`).

A task is stored as a task of runtime-schema. Its egress rules are written as JSON, read as
rules with 16-bit ports, stored, read again, written and read as rules with 32-bit ports.
`MarshalJSON` does not look at the error of the first of these steps, so a port number that
does not fit is stored as 0: `stored_egressRules_iff`.
-/

namespace Bbs.Models

open Bbs.Json Bbs.Net

variable {W I O : Type}

/-! ### Tasks of runtime-schema -/

/-- What runtime-schema does with its actions `O`, which may be nil, and with callback URLs,
each given by its text. -/
structure RuntimeSchema (O : Type) where
  unmarshalAction : Json → Option (Option O)
  marshalAction : Option O → Option Json
  marshalURL : String → Json
  unmarshalURL : Json → Option String

/-- Reading a pointer to a URL. -/
def RuntimeSchema.readURL (schema : RuntimeSchema O) : Json → Option (Option String)
  | .null => some none
  | value => (schema.unmarshalURL value).map some

theorem RuntimeSchema.exists_readURL (schema : RuntimeSchema O) {value : Json}
    (readable : (schema.unmarshalURL value).isSome = true) :
    ∃ url, schema.readURL value = some url := by
  obtain ⟨text, read⟩ := Option.isSome_iff_exists.mp readable
  unfold readURL
  split
  · exact ⟨none, rfl⟩
  · exact ⟨some text, by rw [read, Option.map_some]⟩

/-- What runtime-schema wrote it can read, and an action it read can be written. -/
structure RuntimeSchema.Rereads (schema : RuntimeSchema O) : Prop where
  action : ∀ {read a written}, schema.unmarshalAction read = some a →
    schema.marshalAction a = some written →
    ∃ a', schema.unmarshalAction written = some a' ∧ (schema.marshalAction a').isSome = true
  url : ∀ {text}, (parseURL text).isSome = true →
    (schema.unmarshalURL (schema.marshalURL text)).isSome = true

structure OldTask (O : Type) where
  taskGuid : String
  domain : String
  rootFS : String
  environmentVariables : Option (List EnvironmentVariable)
  cellID : String
  action : Option O
  resultFile : String
  result : String
  failed : Bool
  failureReason : String
  memoryMB : Int64
  diskMB : Int64
  cpuWeight : UInt64
  privileged : Bool
  logGuid : String
  logSource : String
  metricsGuid : String
  createdAt : Int64
  updatedAt : Int64
  firstCompletedAt : Int64
  state : Int64
  annotation : String
  egressRules : Option (List OldSecurityGroupRule)
  completionCallbackURL : Option String

inductive TaskField where
  | taskGuid
  | domain
  | rootFS
  | env
  | cellID
  | action
  | resultFile
  | result
  | failed
  | failureReason
  | memoryMB
  | diskMB
  | cpuWeight
  | privileged
  | logGuid
  | logSource
  | metricsGuid
  | createdAt
  | updatedAt
  | firstCompletedAt
  | state
  | annotationText
  | egressRules
  | completionCallbackURL
  deriving DecidableEq

def TaskField.name : TaskField → String
  | .taskGuid => "task_guid"
  | .domain => "domain"
  | .rootFS => "rootfs"
  | .env => "env"
  | .cellID => "cell_id"
  | .action => "action"
  | .resultFile => "result_file"
  | .result => "result"
  | .failed => "failed"
  | .failureReason => "failure_reason"
  | .memoryMB => "memory_mb"
  | .diskMB => "disk_mb"
  | .cpuWeight => "cpu_weight"
  | .privileged => "privileged"
  | .logGuid => "log_guid"
  | .logSource => "log_source"
  | .metricsGuid => "metrics_guid"
  | .createdAt => "created_at"
  | .updatedAt => "updated_at"
  | .firstCompletedAt => "first_completed_at"
  | .state => "state"
  | .annotationText => "annotation"
  | .egressRules => "egress_rules"
  | .completionCallbackURL => "completion_callback_url"

namespace OldTask

def fieldOf : String → Option TaskField :=
  fieldNamed [.taskGuid, .domain, .rootFS, .env, .cellID, .action, .resultFile, .result, .failed,
    .failureReason, .memoryMB, .diskMB, .cpuWeight, .privileged, .logGuid, .logSource,
    .metricsGuid, .createdAt, .updatedAt, .firstCompletedAt, .state, .annotationText, .egressRules,
    .completionCallbackURL] TaskField.name

/-- A zero struct. -/
def zero : OldTask O where
  taskGuid := ""
  domain := ""
  rootFS := ""
  environmentVariables := none
  cellID := ""
  action := none
  resultFile := ""
  result := ""
  failed := false
  failureReason := ""
  memoryMB := 0
  diskMB := 0
  cpuWeight := 0
  privileged := false
  logGuid := ""
  logSource := ""
  metricsGuid := ""
  createdAt := 0
  updatedAt := 0
  firstCompletedAt := 0
  state := 0
  annotation := ""
  egressRules := none
  completionCallbackURL := none

def setField (schema : RuntimeSchema O) (task : OldTask O) (field : TaskField) (value : Json) :
    Option (OldTask O) :=
  match field with
  | .taskGuid => (decodeString task.taskGuid value).map fun s => { task with taskGuid := s }
  | .domain => (decodeString task.domain value).map fun s => { task with domain := s }
  | .rootFS => (decodeString task.rootFS value).map fun s => { task with rootFS := s }
  | .env =>
      (decodeSlice ⟨"", ""⟩ (decodeStruct EnvironmentVariable.fieldOf EnvironmentVariable.setField)
        task.environmentVariables value).map fun env => { task with environmentVariables := env }
  | .cellID => (decodeString task.cellID value).map fun s => { task with cellID := s }
  | .action => (schema.unmarshalAction value).map fun a => { task with action := a }
  | .resultFile => (decodeString task.resultFile value).map fun s => { task with resultFile := s }
  | .result => (decodeString task.result value).map fun s => { task with result := s }
  | .failed => (decodeBool task.failed value).map fun b => { task with failed := b }
  | .failureReason =>
      (decodeString task.failureReason value).map fun s => { task with failureReason := s }
  | .memoryMB => (decodeInt64 task.memoryMB value).map fun n => { task with memoryMB := n }
  | .diskMB => (decodeInt64 task.diskMB value).map fun n => { task with diskMB := n }
  | .cpuWeight => (decodeUInt64 task.cpuWeight value).map fun n => { task with cpuWeight := n }
  | .privileged => (decodeBool task.privileged value).map fun b => { task with privileged := b }
  | .logGuid => (decodeString task.logGuid value).map fun s => { task with logGuid := s }
  | .logSource => (decodeString task.logSource value).map fun s => { task with logSource := s }
  | .metricsGuid => (decodeString task.metricsGuid value).map fun s => { task with metricsGuid := s }
  | .createdAt => (decodeInt64 task.createdAt value).map fun n => { task with createdAt := n }
  | .updatedAt => (decodeInt64 task.updatedAt value).map fun n => { task with updatedAt := n }
  | .firstCompletedAt =>
      (decodeInt64 task.firstCompletedAt value).map fun n => { task with firstCompletedAt := n }
  | .state => (decodeInt64 task.state value).map fun n => { task with state := n }
  | .annotationText =>
      (decodeString task.annotation value).map fun s => { task with annotation := s }
  | .egressRules =>
      (lenientSlice RuleOf.zero (RuleOf.unmarshal decodeUInt16 0) task.egressRules
        value).checked.map fun rules => { task with egressRules := rules }
  | .completionCallbackURL =>
      (schema.readURL value).map fun url => { task with completionCallbackURL := url }

/-- `action` is the encoding of the task's action. -/
def members (schema : RuntimeSchema O) (task : OldTask O) (action : Json) :
    List (TaskField × Json) :=
  [(.taskGuid, .str task.taskGuid),
    (.domain, .str task.domain),
    (.rootFS, .str task.rootFS),
    (.env, encodeSlice EnvironmentVariable.marshal task.environmentVariables),
    (.cellID, .str task.cellID),
    (.action, action),
    (.resultFile, .str task.resultFile),
    (.result, .str task.result),
    (.failed, .bool task.failed),
    (.failureReason, .str task.failureReason),
    (.memoryMB, .num task.memoryMB.toInt),
    (.diskMB, .num task.diskMB.toInt),
    (.cpuWeight, .num task.cpuWeight.toNat),
    (.privileged, .bool task.privileged),
    (.logGuid, .str task.logGuid),
    (.logSource, .str task.logSource),
    (.metricsGuid, .str task.metricsGuid),
    (.createdAt, .num task.createdAt.toInt),
    (.updatedAt, .num task.updatedAt.toInt),
    (.firstCompletedAt, .num task.firstCompletedAt.toInt),
    (.state, .num task.state.toInt),
    (.annotationText, .str task.annotation),
    (.egressRules, encodeSlice (RuleOf.marshal UInt16.toNat) task.egressRules),
    (.completionCallbackURL, encodePointer schema.marshalURL task.completionCallbackURL)]

def marshal (schema : RuntimeSchema O) (task : OldTask O) : Option Json :=
  (schema.marshalAction task.action).map fun action =>
    .obj ((task.members schema action).map fun p => (p.1.name, p.2))

def unmarshal (schema : RuntimeSchema O) : Json → Option (OldTask O) :=
  decodeStruct fieldOf (setField schema) zero

theorem fieldOf_name (field : TaskField) : fieldOf field.name = some field := by
  refine fieldNamed_name ?_ ?_
  · decide
  · cases field <;> simp

/-- What is read back of a stored task, given its action and its URL. -/
theorem unmarshal_members {schema : RuntimeSchema O} {task : OldTask O} {action : Json}
    {a : Option O} {url : Option String} (acted : schema.unmarshalAction action = some a)
    (called : schema.readURL (encodePointer schema.marshalURL task.completionCallbackURL) =
      some url) :
    unmarshal schema (.obj ((task.members schema action).map fun p => (p.1.name, p.2))) =
      some { task with
        action := a
        egressRules := task.egressRules.map (List.map (RuleOf.convert id))
        completionCallbackURL := url } := by
  have rules := lenientSlice_encodeSlice (RuleOf.unmarshal_marshal lenient_decodeUInt16_self)
    task.egressRules
  have env := decodeSlice_encodeSlice (EnvironmentVariable.unmarshal_marshal ⟨"", ""⟩)
    task.environmentVariables
  rw [unmarshal, decodeStruct, decodeMembers_named fieldOf_name]
  simp [members, setField, zero, acted, called, rules, env, Decoded.checked]

end OldTask

/-! ### Storing a task -/

/-- `none` if a variable is nil, which panics. -/
def environmentVariablesFromProto :
    Option (List (Option EnvironmentVariable)) → Option (Option (List EnvironmentVariable))
  | none => some none
  | some envVars => (envVars.mapM id).map some

def environmentVariablesFromModel :
    Option (List EnvironmentVariable) → Option (List (Option EnvironmentVariable)) :=
  Option.map (List.map some)

/-- `Task_State_name` and, the other way, `Task_State_value`. -/
def taskStateName : List (Int32 × String) :=
  [(0, "Invalid"), (1, "Pending"), (2, "Running"), (3, "Completed"), (4, "Resolving")]

/-- The `String()` method. -/
def taskStateString (state : Int32) : String :=
  (taskStateName.lookup state).getD (Text.itoa state.toInt)

def taskStateValue (name : String) : Int32 :=
  ((taskStateName.find? fun entry => entry.2 = name).map Prod.fst).getD 0

namespace Task

/-- What the rules are written as. -/
def marshalRules (rules : Option (List (Option SecurityGroupRule))) : Json :=
  encodeSlice (encodePointer (RuleOf.marshal UInt32.toNat)) rules

/-- The task of runtime-schema that `MarshalJSON` makes. -/
def toOld (task : Task W) (oldAction : Option O) (oldEgress : Option (List OldSecurityGroupRule))
    (envVars : Option (List EnvironmentVariable)) : OldTask O where
  taskGuid := task.taskGuid
  domain := task.domain
  rootFS := task.rootFs
  environmentVariables := envVars
  cellID := task.cellId
  action := oldAction
  resultFile := task.resultFile
  result := task.result
  failed := task.failed
  failureReason := task.failureReason
  memoryMB := task.memoryMb.toInt64
  diskMB := task.diskMb.toInt64
  cpuWeight := task.cpuWeight.toUInt64
  privileged := task.privileged
  logGuid := task.logGuid
  logSource := task.logSource
  metricsGuid := task.metricsGuid
  createdAt := task.createdAt
  updatedAt := task.updatedAt
  firstCompletedAt := task.firstCompletedAt
  state := (taskStateValue (taskStateString task.state)).toInt64
  annotation := task.annotation
  egressRules := oldEgress
  completionCallbackURL := some task.completionCallbackUrl

/-- The JSON that is returned, `none` if it returns an error or panics. -/
def marshalJSON (actions : Actions W I) (schema : RuntimeSchema O) (task : Task W) :
    Option Json := do
  let b ← actions.marshal task.action
  let oldAction ← match actions.unwrapAction task.action with
    | none => some none
    | some _ => schema.unmarshalAction b
  let b := marshalRules task.egressRules
  -- the error goes to a variable that the next statement assigns
  let oldEgress := (lenientSlice RuleOf.zero (RuleOf.unmarshal decodeUInt16 0) none b).value
  let _ ← parseURL task.completionCallbackUrl
  let envVars ← environmentVariablesFromProto task.environmentVariables
  OldTask.marshal schema (task.toOld oldAction oldEgress envVars)

/-- The assignments at the end of `UnmarshalJSON`. -/
def assign (task : Task W) (oldtask : OldTask O) (newAction : W)
    (newEgressRules : Option (List (Option SecurityGroupRule))) : Task W where
  taskGuid := oldtask.taskGuid
  domain := oldtask.domain
  rootFs := oldtask.rootFS
  environmentVariables := environmentVariablesFromModel oldtask.environmentVariables
  cellId := oldtask.cellID
  action := some newAction
  resultFile := oldtask.resultFile
  result := oldtask.result
  failed := oldtask.failed
  failureReason := oldtask.failureReason
  memoryMb := oldtask.memoryMB.toInt32
  diskMb := oldtask.diskMB.toInt32
  cpuWeight := oldtask.cpuWeight.toUInt32
  privileged := oldtask.privileged
  logGuid := oldtask.logGuid
  logSource := oldtask.logSource
  metricsGuid := oldtask.metricsGuid
  createdAt := oldtask.createdAt
  updatedAt := oldtask.updatedAt
  firstCompletedAt := oldtask.firstCompletedAt
  state := oldtask.state.toInt32
  annotation := oldtask.annotation
  egressRules := newEgressRules
  completionCallbackUrl := oldtask.completionCallbackURL.getD task.completionCallbackUrl

/-- The task that decoding into `task` leaves, `none` if there is an error. -/
def unmarshalJSON (actions : Actions W I) (schema : RuntimeSchema O) (task : Task W)
    (data : Json) : Option (Task W) := do
  let oldtask ← OldTask.unmarshal schema data
  let b ← schema.marshalAction oldtask.action
  -- whether this fails is not looked at
  let newAction := (actions.unmarshal b).value
  let b := encodeSlice (RuleOf.marshal UInt16.toNat) oldtask.egressRules
  let newEgressRules ← (lenientSlice none
    (lenientPointer RuleOf.zero (RuleOf.unmarshal decodeUInt32 0)) none b).checked
  return task.assign oldtask newAction newEgressRules

/-! ### What becomes of the rules -/

variable {actions : Actions W I} {schema : RuntimeSchema O} {task : Task W}

/-- A rule of runtime-schema that was made of one here. Nil makes a zero struct. -/
def narrowRule : Option SecurityGroupRule → OldSecurityGroupRule
  | none => RuleOf.zero
  | some rule => rule.convert narrow

/-- Reading the rules as rules of runtime-schema. -/
theorem read_marshalRules (rules : Option (List (Option SecurityGroupRule))) :
    (lenientSlice RuleOf.zero (RuleOf.unmarshal decodeUInt16 0) none (marshalRules rules)).value =
      rules.map (List.map narrowRule) := by
  have each (rule : Option SecurityGroupRule) :
      RuleOf.unmarshal decodeUInt16 0 RuleOf.zero
        (encodePointer (RuleOf.marshal UInt32.toNat) rule) =
      ⟨narrowRule rule, ((rule.map RuleOf.numbers).getD []).all fun p => p.toNat ≤ maxPort⟩ := by
    cases rule with
    | none => rfl
    | some rule => exact RuleOf.unmarshal_marshal lenient_decodeUInt16 rule
  rw [marshalRules, lenientSlice_encodeSlice each]

/-- Reading rules of runtime-schema as rules here never fails. -/
theorem read_oldRules (rules : Option (List OldSecurityGroupRule)) :
    (lenientSlice none (lenientPointer RuleOf.zero (RuleOf.unmarshal decodeUInt32 0)) none
        (encodeSlice (RuleOf.marshal UInt16.toNat) rules)).checked =
      some (rules.map (List.map fun rule => some (rule.convert UInt16.toUInt32))) := by
  have each (rule : OldSecurityGroupRule) :
      lenientPointer RuleOf.zero (RuleOf.unmarshal decodeUInt32 0) none
        (rule.marshal UInt16.toNat) = ⟨some (rule.convert UInt16.toUInt32), true⟩ := by
    have present : rule.marshal UInt16.toNat ≠ .null := by simp [RuleOf.marshal]
    rw [lenientPointer_of_ne_null present, Option.getD_none,
      RuleOf.unmarshal_marshal lenient_decodeUInt32]
    simp [Decoded.map]
  rw [lenientSlice_encodeSlice each]
  simp [Decoded.checked]

theorem unmarshalJSON_of_read {data b : Json} {oldtask : OldTask O}
    (reads : OldTask.unmarshal schema data = some oldtask)
    (rewrote : schema.marshalAction oldtask.action = some b) (into : Task W) :
    into.unmarshalJSON actions schema data =
      some (into.assign oldtask (actions.unmarshal b).value
        (oldtask.egressRules.map (List.map fun rule => some (rule.convert UInt16.toUInt32)))) := by
  simp only [unmarshalJSON, reads, rewrote, read_oldRules, Option.bind_eq_bind, Option.bind_some,
    Option.pure_def]

/-- A rule as it comes back from the store. -/
def restoreRule (rule : Option SecurityGroupRule) : Option SecurityGroupRule :=
  some (((narrowRule rule).convert id).convert UInt16.toUInt32)

theorem restoreRule_eq_iff {rule : SecurityGroupRule} (valid : rule.validate = none) :
    restoreRule (some rule) = some rule ↔ rule.PortsFit := by
  obtain ⟨listed, -⟩ := SecurityGroupRule.valid_ports valid
  rw [restoreRule, narrowRule, RuleOf.convert_convert, RuleOf.convert_convert, Option.some.injEq,
    RuleOf.convert_eq_self_iff listed, SecurityGroupRule.portsFit_iff]
  exact forall₂_congr fun p _ => toUInt32_narrow_iff p

/-- A stored task can be read, and each of its rules was restored. -/
theorem unmarshalJSON_marshalJSON (rereads : schema.Rereads)
    (acted : (actions.unwrapAction task.action).isSome = true) {data : Json}
    (stored : task.marshalJSON actions schema = some data) (into : Task W) :
    ∃ task', into.unmarshalJSON actions schema data = some task' ∧
      task'.egressRules = task.egressRules.map (List.map restoreRule) := by
  obtain ⟨action, unwrapped⟩ := Option.isSome_iff_exists.mp acted
  simp only [marshalJSON, unwrapped, Option.bind_eq_bind, Option.bind_eq_some_iff,
    read_marshalRules] at stored
  obtain ⟨b, -, oldAction, read, url, parsed, envVars, -, stored⟩ := stored
  obtain ⟨written, wrote, rfl⟩ := Option.map_eq_some_iff.mp stored
  obtain ⟨reread, acted, again⟩ := rereads.action read wrote
  obtain ⟨b', rewrote⟩ := Option.isSome_iff_exists.mp again
  have readable := rereads.url (Option.isSome_iff_exists.mpr ⟨url, parsed⟩)
  obtain ⟨callback, called⟩ := schema.exists_readURL readable
  have reads := @OldTask.unmarshal_members _ _
    (task.toOld oldAction (task.egressRules.map (List.map narrowRule)) envVars) _ _ _ acted called
  refine ⟨_, unmarshalJSON_of_read reads rewrote into, ?_⟩
  cases task.egressRules <;> simp [assign, toOld, restoreRule]

end Task

/-- **When storing a task leaves its egress rules alone.** If a task that passes `Validate`
is stored, reading it succeeds and gives the same egress rules in the same order, if and only
if every port number in them is at most 65535. -/
theorem stored_egressRules_iff {actions : Actions W I} {schema : RuntimeSchema O}
    (rereads : schema.Rereads) {task : Task W} (valid : task.validate actions = some none)
    {data : Json} (stored : task.marshalJSON actions schema = some data) (into : Task W) :
    (∃ task', into.unmarshalJSON actions schema data = some task' ∧
        task'.egressRules.getD [] = task.egressRules.getD []) ↔
      ∀ rule : SecurityGroupRule, some rule ∈ task.egressRules.getD [] → rule.PortsFit := by
  obtain ⟨acted, passed⟩ := Task.valid_parts valid
  obtain ⟨read, reads, rules⟩ := Task.unmarshalJSON_marshalJSON rereads acted stored into
  have restored : read.egressRules.getD [] = (task.egressRules.getD []).map Task.restoreRule := by
    rw [rules]
    cases task.egressRules <;> rfl
  simp only [reads, Option.some.injEq, exists_eq_left', restored, map_eq_self_iff]
  constructor
  · intro same rule mem
    obtain ⟨r, this, pass⟩ := passed _ mem
    cases this
    exact (Task.restoreRule_eq_iff pass).mp (same _ mem)
  · intro fit rule mem
    obtain ⟨r, rfl, pass⟩ := passed rule mem
    exact (Task.restoreRule_eq_iff pass).mpr (fit r mem)

/-! ### A schema

Actions are written and read as in this package, and a callback URL as the struct that it is.
This is what runtime-schema does with the task below, by the payload in `models/task_test.go`. -/

/-- A `url.URL` as `encoding/json` sees it. Of a user there is only its presence to see. -/
structure CallbackURL where
  scheme : String
  opaqueText : String
  user : Option Unit
  host : String
  path : String
  rawQuery : String
  fragment : String
  deriving DecidableEq

inductive URLField where
  | scheme
  | opaqueText
  | user
  | host
  | path
  | rawQuery
  | fragment
  deriving DecidableEq

def URLField.name : URLField → String
  | .scheme => "Scheme"
  | .opaqueText => "Opaque"
  | .user => "User"
  | .host => "Host"
  | .path => "Path"
  | .rawQuery => "RawQuery"
  | .fragment => "Fragment"

namespace CallbackURL

def zero : CallbackURL :=
  ⟨"", "", none, "", "", "", ""⟩

def fieldOf : String → Option URLField :=
  fieldNamed [.scheme, .opaqueText, .user, .host, .path, .rawQuery, .fragment] URLField.name

/-- A struct without exported fields. -/
def decodeUser : Unit → Json → Option Unit :=
  decodeStruct (fun _ => (none : Option Empty)) fun user _ _ => some user

def setField (url : CallbackURL) (field : URLField) (value : Json) : Option CallbackURL :=
  match field with
  | .scheme => (decodeString url.scheme value).map fun s => { url with scheme := s }
  | .opaqueText => (decodeString url.opaqueText value).map fun s => { url with opaqueText := s }
  | .user => (decodePointer () decodeUser url.user value).map fun user => { url with user := user }
  | .host => (decodeString url.host value).map fun s => { url with host := s }
  | .path => (decodeString url.path value).map fun s => { url with path := s }
  | .rawQuery => (decodeString url.rawQuery value).map fun s => { url with rawQuery := s }
  | .fragment => (decodeString url.fragment value).map fun s => { url with fragment := s }

def marshal (url : CallbackURL) : Json :=
  encodeStruct URLField.name
    [⟨false, .scheme, .str url.scheme⟩, ⟨false, .opaqueText, .str url.opaqueText⟩,
      ⟨false, .user, encodePointer (fun _ => .obj []) url.user⟩, ⟨false, .host, .str url.host⟩,
      ⟨false, .path, .str url.path⟩, ⟨false, .rawQuery, .str url.rawQuery⟩,
      ⟨false, .fragment, .str url.fragment⟩]

theorem fieldOf_name (field : URLField) : fieldOf field.name = some field := by
  refine fieldNamed_name ?_ ?_
  · decide
  · cases field <;> simp

theorem decode_marshal (url : CallbackURL) :
    decodeStruct fieldOf setField zero url.marshal = some url := by
  have user : decodePointer () decodeUser none (encodePointer (fun _ => .obj []) url.user) =
      some url.user :=
    decodePointer_encodePointer (fun _ _ => rfl) fun _ => by simp
  rw [marshal, decodeStruct_encodeStruct fieldOf_name]
  · simp [setAll, setField, zero, user]
  · simp [Harmless]

/-- What `Parse` makes of a text without escapes. -/
def ofText (text : String) : CallbackURL :=
  let u := text.toList.takeWhile (· ≠ '#')
  let (scheme, rest) := (getScheme u).getD ([], u)
  let url : CallbackURL := { zero with
    scheme := String.ofList (scheme.map Char.toLower)
    rawQuery := String.ofList ((rest.dropWhile (· ≠ '?')).drop 1)
    fragment := String.ofList ((text.toList.dropWhile (· ≠ '#')).drop 1) }
  let rest := rest.takeWhile (· ≠ '?')
  if rest.head? ≠ some '/' ∧ scheme ≠ [] then { url with opaqueText := String.ofList rest }
  else if rest.take 2 = ['/', '/'] ∧ (scheme ≠ [] ∨ (rest.drop 2).head? ≠ some '/') then
    let authority := (rest.drop 2).takeWhile (· ≠ '/')
    { url with
      user := if '@' ∈ authority then some () else none
      host := String.ofList (authority.reverse.takeWhile (· ≠ '@')).reverse
      path := String.ofList ((rest.drop 2).dropWhile (· ≠ '/')) }
  else { url with path := String.ofList rest }

/-- `String` of a URL that has nothing to escape. -/
def text (url : CallbackURL) : String :=
  let authority := if url.user.isSome then "@" ++ url.host else url.host
  let slash := if url.path ≠ "" ∧ url.path.toList.head? ≠ some '/' ∧ url.host ≠ "" then "/" else ""
  (if url.scheme ≠ "" then url.scheme ++ ":" else "") ++
    (if url.opaqueText ≠ "" then url.opaqueText
      else (if url.scheme ≠ "" ∨ url.host ≠ "" ∨ url.user.isSome then "//" ++ authority else "") ++
        slash ++ url.path) ++
    (if url.rawQuery ≠ "" then "?" ++ url.rawQuery else "") ++
    (if url.fragment ≠ "" then "#" ++ url.fragment else "")

example : ofText "http://@a.b.c/d/e/f" = ⟨"http", "", some (), "a.b.c", "/d/e/f", "", ""⟩ := by
  decide +kernel

example : text ⟨"http", "", some (), "a.b.c", "/d/e/f", "", ""⟩ = "http://@a.b.c/d/e/f" := by
  decide +kernel

end CallbackURL

/-- The actions as `encoding/json` writes and reads them. What an error leaves half read is taken
to be a zero wrapper. -/
def jsonActions : Actions Action ActionInterface :=
  actionsWith (fun action => some (marshalPointer action)) (lenient Action.unmarshal .zero)

def jsonSchema : RuntimeSchema ActionInterface where
  unmarshalAction value := (unmarshalAction value).toOption
  marshalAction action := some (marshalAction action)
  marshalURL text := (CallbackURL.ofText text).marshal
  unmarshalURL value :=
    (decodeStruct CallbackURL.fieldOf CallbackURL.setField .zero value).map CallbackURL.text

theorem jsonSchema_rereads : jsonSchema.Rereads where
  action := by
    intro read action written _ writes
    cases writes
    refine ⟨action, ?_, rfl⟩
    cases action with
    | none => rfl
    | some a => simp [jsonSchema, unmarshalAction_marshalAction, Except.toOption]
  url := by
    intro text _
    simp [jsonSchema, CallbackURL.decode_marshal]

/-- A task that downloads, with one egress rule. -/
def sampleTask (rule : SecurityGroupRule) : Task Action where
  taskGuid := "some-guid"
  domain := "some-domain"
  rootFs := "docker:///docker.com/docker"
  environmentVariables := some [some ⟨"ENV_VAR_NAME", "an environmment value"⟩]
  cellId := "cell"
  action := some <| wrapAction <| .download
    ⟨"", "old_location", "new_location", "the-cache-key", "", "someone"⟩
  resultFile := "some-file.txt"
  result := ""
  failed := false
  failureReason := ""
  memoryMb := 256
  diskMb := 1024
  cpuWeight := 42
  privileged := true
  logGuid := "123"
  logSource := "APP"
  metricsGuid := "456"
  createdAt := 1393371971000000000
  updatedAt := 1393371971000000010
  firstCompletedAt := 0
  state := 1
  annotation := ""
  egressRules := some [some rule]
  completionCallbackUrl := "http://@a.b.c/d/e/f"

theorem stored_egressRules_iff_sampleTask :
    (sampleTask (portRule 22)).validate jsonActions = some none ∧
      ∃ data, (sampleTask (portRule 22)).marshalJSON jsonActions jsonSchema = some data ∧
        ∃ task', (sampleTask (portRule 0)).unmarshalJSON jsonActions jsonSchema data = some task' ∧
          task'.egressRules.getD [] = [some (portRule 22)] := by
  have valid : (sampleTask (portRule 22)).validate jsonActions = some none := rfl
  refine ⟨valid, _, rfl, (stored_egressRules_iff jsonSchema_rereads valid rfl _).mpr ?_⟩
  intro rule mem
  cases List.mem_singleton.mp mem
  simp [SecurityGroupRule.PortsFit, portRule, maxPort]

/-- A task whose rule allows port 65558 passes `Validate` and is stored without an error, and
comes back with a rule for port 0, which does not even pass. -/
theorem stored_port_is_zero :
    (sampleTask (portRule 65558)).validate jsonActions = some none ∧
      ∃ data, (sampleTask (portRule 65558)).marshalJSON jsonActions jsonSchema = some data ∧
        ∃ task', (sampleTask (portRule 22)).unmarshalJSON jsonActions jsonSchema data = some task' ∧
          task'.egressRules.getD [] = [some (portRule 0)] ∧
          SecurityGroupRule.validate (portRule 0) ≠ none := by
  refine ⟨rfl, _, rfl, ?_⟩
  obtain ⟨read, reads, rules⟩ := @Task.unmarshalJSON_marshalJSON _ _ _ jsonActions jsonSchema
    (sampleTask (portRule 65558)) jsonSchema_rereads rfl _ rfl (sampleTask (portRule 22))
  refine ⟨read, reads, ?_, by decide⟩
  rw [rules]
  decide

end Bbs.Models
