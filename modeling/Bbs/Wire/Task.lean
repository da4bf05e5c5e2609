import Bbs.Models.TaskEncoding
import Bbs.Wire.DesiredLRP

/-!
The messages about tasks: the generated code of `models/task.pb.go`.
-/

namespace Bbs.Models

open Bbs.Protobuf

namespace Task

def variableList (task : Task Action) : List (Option EnvironmentVariable) :=
  task.environmentVariables.getD []

def ruleList (task : Task Action) : List (Option SecurityGroupRule) :=
  task.egressRules.getD []

/-- The generated method. It does not tell a nil slice from an empty one. -/
def Equal (this that : Task Action) : Prop :=
  this.variableList = that.variableList ∧
    List.Forall₂ (Option.Rel SecurityGroupRule.Equal) this.ruleList that.ruleList ∧
    { this with
      environmentVariables := that.environmentVariables
      egressRules := that.egressRules } = that

def fields : List (MessageField (Task Action)) :=
  [.string 1 "TaskGuid" taskGuid fun m v => { m with taskGuid := v },
    .string 2 "Domain" domain fun m v => { m with domain := v },
    .string 3 "RootFs" rootFs fun m v => { m with rootFs := v },
    .repeatedMessage 4 "EnvironmentVariables" EnvironmentVariable.message variableList
      fun m v => { m with environmentVariables := some v },
    .optional 5 "Action" Action.message action fun m v => { m with action := v },
    .number 6 "DiskMb" .int32 diskMb fun m v => { m with diskMb := v },
    .number 7 "MemoryMb" .int32 memoryMb fun m v => { m with memoryMb := v },
    .number 8 "CpuWeight" .uint32 cpuWeight fun m v => { m with cpuWeight := v },
    .number 9 "Privileged" .bool privileged fun m v => { m with privileged := v },
    .string 10 "LogSource" logSource fun m v => { m with logSource := v },
    .string 11 "LogGuid" logGuid fun m v => { m with logGuid := v },
    .string 12 "MetricsGuid" metricsGuid fun m v => { m with metricsGuid := v },
    .number 13 "CreatedAt" .int64 createdAt fun m v => { m with createdAt := v },
    .number 14 "UpdatedAt" .int64 updatedAt fun m v => { m with updatedAt := v },
    .number 15 "FirstCompletedAt" .int64 firstCompletedAt
      fun m v => { m with firstCompletedAt := v },
    .string 16 "ResultFile" resultFile fun m v => { m with resultFile := v },
    .number 17 "State" .int32 state fun m v => { m with state := v },
    .string 18 "CellId" cellId fun m v => { m with cellId := v },
    .string 19 "Result" result fun m v => { m with result := v },
    .number 20 "Failed" .bool failed fun m v => { m with failed := v },
    .string 21 "FailureReason" failureReason fun m v => { m with failureReason := v },
    .string 22 "CompletionCallbackUrl" completionCallbackUrl
      fun m v => { m with completionCallbackUrl := v },
    .string 23 "Annotation" annotation fun m v => { m with annotation := v },
    .repeatedMessage 24 "EgressRules" SecurityGroupRule.message ruleList
      fun m v => { m with egressRules := some v }]

/-- `Task{}` -/
def zero : Task Action :=
  ⟨"", "", "", none, "", none, "", "", false, "", 0, 0, 0, false, "", "", "", 0, 0, 0, 0, "", none,
    ""⟩

/-- Slices without elements are read back as nil. -/
def normal (task : Task Action) : Task Action :=
  { task with
    environmentVariables := nilIfEmpty task.variableList
    egressRules := nilIfEmpty (task.ruleList.map (Option.map SecurityGroupRule.message.normal)) }

def message : Message (Task Action) :=
  .ofFields zero fields normal

theorem fills (task : Task Action) : Fills task fields zero task.normal := by
  obtain ⟨guid, domain, rootFs, env, cellId, action, resultFile, result, failed, reason, memory,
    disk, cpu, privileged, logGuid, source, metricsGuid, created, updated, completed, state, note,
    rules, url⟩ := task
  refine .string (.string (.string ?_))
  change Fills (M := Task Action) _ _ ⟨guid, domain, rootFs, none, "", none, "", "", false, "", 0,
    0, 0, false, "", "", "", 0, 0, 0, 0, "", none, ""⟩ _
  refine .step ⟨guid, domain, rootFs, nilIfEmpty (env.getD []), "", none, "", "", false, "", 0, 0,
    0, false, "", "", "", 0, 0, 0, 0, "", none, ""⟩ trivial ?_ ?_
  · rw [MessageField.repeatedMessage_transfer, EnvironmentVariable.roundTrips.elements_eq]
    exact appendAll_nil variableList (fun m o => { m with environmentVariables := o })
      (fun _ _ => rfl) (fun _ _ _ => rfl) rfl rfl _
  refine .optional rfl rfl ?_
  rw [Action.roundTrips.pointer_eq]
  refine .number (.number (.number (.number (.string (.string (.string (.number (.number (.number
    (.string (.number (.string (.string (.number (.string (.string (.string ?_)))))))))))))))))
  change Fills (M := Task Action) _ _ ⟨guid, domain, rootFs, nilIfEmpty (env.getD []), cellId,
    action, resultFile, result, failed, reason, memory, disk, cpu, privileged, logGuid, source,
    metricsGuid, created, updated, completed, state, note, none, url⟩ _
  refine .step _ trivial ?_ rfl
  exact appendAll_nil ruleList (fun m o => { m with egressRules := o })
    (fun _ _ => rfl) (fun _ _ _ => rfl) rfl rfl _

theorem roundTrips : message.RoundTrips fields Equal where
  generated := Message.ofFields_generated (by decide) fills
  sound := by
    simp [fields, MessageField.optional_sound, MessageField.repeatedMessage_sound,
      EnvironmentVariable.roundTrips.lawful, Action.roundTrips.lawful,
      SecurityGroupRule.roundTrips.lawful]
  equal task := by
    refine ⟨nilIfEmpty_getD _, ?_, rfl⟩
    change List.Forall₂ _ ((nilIfEmpty _).getD []) _
    rw [nilIfEmpty_getD]
    exact SecurityGroupRule.roundTrips.elements task.ruleList

end Task

/-- What the tasks handler answers with. -/
structure Tasks where
  tasks : List (Option (Task Action))

namespace Tasks

def Equal (this that : Tasks) : Prop :=
  List.Forall₂ (Option.Rel Task.Equal) this.tasks that.tasks

def fields : List (MessageField Tasks) :=
  [.repeatedMessage 1 "Tasks" Task.message tasks fun _ v => ⟨v⟩]

def message : Message Tasks :=
  .ofFields ⟨[]⟩ fields fun m => ⟨m.tasks.map (Option.map Task.message.normal)⟩

theorem roundTrips : message.RoundTrips fields Equal where
  generated := Message.ofFields_generated (by decide) fun _ =>
    .repeatedMessage ⟨fun _ _ => rfl, fun _ _ _ => rfl, rfl, rfl⟩ rfl
  sound := by
    simp [fields, MessageField.repeatedMessage_sound, Task.roundTrips.lawful]
  equal m := Task.roundTrips.elements m.tasks

end Tasks

end Bbs.Models
