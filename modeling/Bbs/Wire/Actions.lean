import Bbs.Models.ActionEncoding
import Bbs.Protobuf.Recursion

/-!
The messages for actions: the generated code of `models/actions.pb.go` and
`models/environment_variables.pb.go`.

A wrapper has messages inside that have wrappers inside. The fields of these are given for
wrappers of any type `W`, so that the fields of a wrapper can be given for a message type of the
wrappers inside, and `Action.generated` then ties the knot.
-/

namespace Bbs.Models

open Bbs.Protobuf

/-! ### Actions without actions inside -/

namespace EnvironmentVariable

def fields : List (MessageField EnvironmentVariable) :=
  [.string 1 "Name" name fun m v => { m with name := v },
    .string 2 "Value" value fun m v => { m with value := v }]

def message : Message EnvironmentVariable :=
  .ofFields ⟨"", ""⟩ fields id

theorem roundTrips : message.RoundTrips fields Eq where
  generated := Message.ofFields_generated (by decide) (by simp [Fills, fields])
  sound := by simp [fields]
  equal _ := rfl

end EnvironmentVariable

namespace DownloadAction

def fields : List (MessageField DownloadAction) :=
  [.string 1 "Artifact" artifact fun m v => { m with artifact := v },
    .string 2 "From" source fun m v => { m with source := v },
    .string 3 "To" target fun m v => { m with target := v },
    .string 4 "CacheKey" cacheKey fun m v => { m with cacheKey := v },
    .string 5 "LogSource" logSource fun m v => { m with logSource := v },
    .string 6 "User" user fun m v => { m with user := v }]

def message : Message DownloadAction :=
  .ofFields .zero fields id

theorem roundTrips : message.RoundTrips fields Eq where
  generated := Message.ofFields_generated (by decide) (by simp [Fills, fields])
  sound := by simp [fields]
  equal _ := rfl

end DownloadAction

namespace UploadAction

def fields : List (MessageField UploadAction) :=
  [.string 1 "Artifact" artifact fun m v => { m with artifact := v },
    .string 2 "From" source fun m v => { m with source := v },
    .string 3 "To" target fun m v => { m with target := v },
    .string 4 "LogSource" logSource fun m v => { m with logSource := v },
    .string 5 "User" user fun m v => { m with user := v }]

def message : Message UploadAction :=
  .ofFields .zero fields id

theorem roundTrips : message.RoundTrips fields Eq where
  generated := Message.ofFields_generated (by decide) (by simp [Fills, fields])
  sound := by simp [fields]
  equal _ := rfl

end UploadAction

namespace ResourceLimits

def fields : List (MessageField ResourceLimits) :=
  [.optionalNumber 1 "Nofile" .uint64 nofile fun _ v => ⟨v⟩]

def message : Message ResourceLimits :=
  .ofFields .zero fields id

theorem roundTrips : message.RoundTrips fields Eq where
  generated := Message.ofFields_generated (by decide) fun _ => .optionalNumber rfl rfl
  sound := by simp [fields]
  equal _ := rfl

end ResourceLimits

namespace RunAction

def fields : List (MessageField RunAction) :=
  [.string 1 "Path" path fun m v => { m with path := v },
    .repeatedString 2 "Args" args fun m v => { m with args := v },
    .string 3 "Dir" dir fun m v => { m with dir := v },
    .repeatedMessage 4 "Env" EnvironmentVariable.message env fun m v => { m with env := v },
    .optional 5 "ResourceLimits" ResourceLimits.message resourceLimits
      fun m v => { m with resourceLimits := v },
    .string 6 "User" user fun m v => { m with user := v },
    .string 7 "LogSource" logSource fun m v => { m with logSource := v }]

def message : Message RunAction :=
  .ofFields .zero fields id

theorem fills (m : RunAction) : Fills m fields .zero m := by
  refine .string (.repeatedString ⟨fun _ _ => rfl, fun _ _ _ => rfl, rfl, rfl⟩ (.string
    (.repeatedMessage ⟨fun _ _ => rfl, fun _ _ _ => rfl, rfl, rfl⟩ (.optional rfl rfl (.string
      (.string ?_))))))
  simp only [EnvironmentVariable.roundTrips.elements_eq, ResourceLimits.roundTrips.pointer_eq]
  rfl

theorem roundTrips : message.RoundTrips fields Eq where
  generated := Message.ofFields_generated (by decide) fills
  sound := by
    simp [fields, MessageField.repeatedMessage_sound, EnvironmentVariable.roundTrips.lawful,
      MessageField.optional_sound, ResourceLimits.roundTrips.lawful]
  equal _ := rfl

end RunAction

/-! ### Actions with wrappers inside -/

section

variable {W : Type} (inner : Message W)

namespace TimeoutAction

def fields : List (MessageField (TimeoutAction W)) :=
  [.optional 1 "Action" inner action fun m v => { m with action := v },
    .number 2 "Timeout" .int64 timeout fun m v => { m with timeout := v },
    .string 3 "LogSource" logSource fun m v => { m with logSource := v }]

def message : Message (TimeoutAction W) :=
  .ofFields .zero (fields inner) fun m => { m with action := m.action.map inner.normal }

theorem generated : (message inner).GeneratedFrom (fields inner) :=
  Message.ofFields_generated (by simp [Numbered, fields]) fun _ =>
    .optional rfl rfl (.number (.string rfl))

variable {inner} in
theorem lawful {a : TimeoutAction W} (below : ∀ w, a.action = some w → inner.LawfulAt w) :
    (message inner).LawfulAt a :=
  (generated inner).lawful (by simpa [fields] using MessageField.optional_sound _ _ _ below)

end TimeoutAction

namespace EmitProgressAction

def fields : List (MessageField (EmitProgressAction W)) :=
  [.optional 1 "Action" inner action fun m v => { m with action := v },
    .string 2 "StartMessage" startMessage fun m v => { m with startMessage := v },
    .string 3 "SuccessMessage" successMessage fun m v => { m with successMessage := v },
    .string 4 "FailureMessagePrefix" failureMessagePrefix
      fun m v => { m with failureMessagePrefix := v },
    .string 5 "LogSource" logSource fun m v => { m with logSource := v }]

def message : Message (EmitProgressAction W) :=
  .ofFields .zero (fields inner) fun m => { m with action := m.action.map inner.normal }

theorem generated : (message inner).GeneratedFrom (fields inner) :=
  Message.ofFields_generated (by simp [Numbered, fields]) fun _ =>
    .optional rfl rfl (.string (.string (.string (.string rfl))))

variable {inner} in
theorem lawful {a : EmitProgressAction W} (below : ∀ w, a.action = some w → inner.LawfulAt w) :
    (message inner).LawfulAt a :=
  (generated inner).lawful (by simpa [fields] using MessageField.optional_sound _ _ _ below)

end EmitProgressAction

namespace TryAction

def fields : List (MessageField (TryAction W)) :=
  [.optional 1 "Action" inner action fun m v => { m with action := v },
    .string 2 "LogSource" logSource fun m v => { m with logSource := v }]

def message : Message (TryAction W) :=
  .ofFields .zero (fields inner) fun m => { m with action := m.action.map inner.normal }

theorem generated : (message inner).GeneratedFrom (fields inner) :=
  Message.ofFields_generated (by simp [Numbered, fields]) fun _ => .optional rfl rfl (.string rfl)

variable {inner} in
theorem lawful {a : TryAction W} (below : ∀ w, a.action = some w → inner.LawfulAt w) :
    (message inner).LawfulAt a :=
  (generated inner).lawful (by simpa [fields] using MessageField.optional_sound _ _ _ below)

end TryAction

namespace ListAction

def fields : List (MessageField (ListAction W)) :=
  [.repeatedMessage 1 "Actions" inner actions fun m v => { m with actions := v },
    .string 2 "LogSource" logSource fun m v => { m with logSource := v }]

def message : Message (ListAction W) :=
  .ofFields .zero (fields inner) fun m =>
    { m with actions := m.actions.map (Option.map inner.normal) }

theorem generated : (message inner).GeneratedFrom (fields inner) :=
  Message.ofFields_generated (by simp [Numbered, fields]) fun _ =>
    .repeatedMessage ⟨fun _ _ => rfl, fun _ _ _ => rfl, rfl, rfl⟩ (.string rfl)

variable {inner} in
theorem lawful {a : ListAction W} (below : ∀ w, some w ∈ a.actions → inner.LawfulAt w) :
    (message inner).LawfulAt a :=
  (generated inner).lawful (by simpa [fields] using MessageField.repeatedMessage_sound _ _ _ below)

end ListAction

end

/-! ### Wrappers -/

namespace Action

/-- With `inner` for the wrappers inside. -/
def fields (inner : Message Action) : List (MessageField Action) :=
  [.optional 1 "DownloadAction" DownloadAction.message downloadAction
      fun m v => { m with downloadAction := v },
    .optional 2 "UploadAction" UploadAction.message uploadAction
      fun m v => { m with uploadAction := v },
    .optional 3 "RunAction" RunAction.message runAction fun m v => { m with runAction := v },
    .optional 4 "TimeoutAction" (TimeoutAction.message inner) timeoutAction
      fun m v => { m with timeoutAction := v },
    .optional 5 "EmitProgressAction" (EmitProgressAction.message inner) emitProgressAction
      fun m v => { m with emitProgressAction := v },
    .optional 6 "TryAction" (TryAction.message inner) tryAction
      fun m v => { m with tryAction := v },
    .optional 7 "ParallelAction" (ListAction.message inner) parallelAction
      fun m v => { m with parallelAction := v },
    .optional 8 "SerialAction" (ListAction.message inner) serialAction
      fun m v => { m with serialAction := v },
    .optional 9 "CodependentAction" (ListAction.message inner) codependentAction
      fun m v => { m with codependentAction := v }]

end Action

/-- A message type whose values are written already. -/
def written : Message (Option (List Item)) where
  zero := none
  write := id
  read _ _ _ := none
  normal := id

/-- A field that holds a message, of which it is known what it writes. -/
def writePointer (num : Nat) (o : Option (Option (List Item))) : Option (List Item) :=
  o.elim (some []) fun w => w.map fun items => [.message num items]

mutual
/-- The fields that `MarshalTo` writes. -/
def Action.write : Action → Option (List Item)
  | ⟨download, upload, run, timeout, emitProgress, attempt, parallel, serial, codependent⟩ => do
      let download ← writePointer 1 (download.map DownloadAction.message.write)
      let upload ← writePointer 2 (upload.map UploadAction.message.write)
      let run ← writePointer 3 (run.map RunAction.message.write)
      let timeout ← writePointer 4 (writeTimeout timeout)
      let emitProgress ← writePointer 5 (writeEmitProgress emitProgress)
      let attempt ← writePointer 6 (writeTry attempt)
      let parallel ← writePointer 7 (writeList parallel)
      let serial ← writePointer 8 (writeList serial)
      let codependent ← writePointer 9 (writeList codependent)
      return download ++ (upload ++ (run ++ (timeout ++ (emitProgress ++ (attempt ++ (parallel ++
        (serial ++ (codependent ++ []))))))))

def writeTimeout : Option (TimeoutAction Action) → Option (Option (List Item))
  | none => none
  | some ⟨action, timeout, logSource⟩ =>
      some ((TimeoutAction.message written).write ⟨writeAction action, timeout, logSource⟩)

def writeEmitProgress : Option (EmitProgressAction Action) → Option (Option (List Item))
  | none => none
  | some ⟨action, startMessage, successMessage, failureMessagePrefix, logSource⟩ =>
      some ((EmitProgressAction.message written).write
        ⟨writeAction action, startMessage, successMessage, failureMessagePrefix, logSource⟩)

def writeTry : Option (TryAction Action) → Option (Option (List Item))
  | none => none
  | some ⟨action, logSource⟩ =>
      some ((TryAction.message written).write ⟨writeAction action, logSource⟩)

def writeList : Option (ListAction Action) → Option (Option (List Item))
  | none => none
  | some ⟨actions, logSource⟩ =>
      some ((ListAction.message written).write ⟨writeActions actions, logSource⟩)

def writeAction : Option Action → Option (Option (List Item))
  | none => none
  | some w => some w.write

def writeActions : List (Option Action) → List (Option (Option (List Item)))
  | [] => []
  | o :: actions => writeAction o :: writeActions actions
end

namespace Action

/-- `Unmarshal` -/
def unmarshalProto : Decoder Action :=
  unroll .zero fields

def message : Message Action where
  zero := .zero
  write := write
  read := unmarshalProto
  normal := id

end Action

/-! ### Writing -/

theorem writeAction_eq (o : Option Action) : writeAction o = o.map Action.write := by
  cases o <;> rfl

theorem writeActions_eq (actions : List (Option Action)) :
    writeActions actions = actions.map (Option.map Action.write) := by
  induction actions with
  | nil => rfl
  | cons o actions ih => rw [writeActions, ih, writeAction_eq, List.map_cons]

theorem writeTimeout_eq (o : Option (TimeoutAction Action)) :
    writeTimeout o = o.map (TimeoutAction.message Action.message).write := by
  obtain _ | ⟨action, timeout, logSource⟩ := o
  · rfl
  · rw [writeTimeout, writeAction_eq]
    cases action <;> rfl

theorem writeEmitProgress_eq (o : Option (EmitProgressAction Action)) :
    writeEmitProgress o = o.map (EmitProgressAction.message Action.message).write := by
  obtain _ | ⟨action, start, success, failure, logSource⟩ := o
  · rfl
  · rw [writeEmitProgress, writeAction_eq]
    cases action <;> rfl

theorem writeTry_eq (o : Option (TryAction Action)) :
    writeTry o = o.map (TryAction.message Action.message).write := by
  obtain _ | ⟨action, logSource⟩ := o
  · rfl
  · rw [writeTry, writeAction_eq]
    cases action <;> rfl

theorem mapM_written (num : Nat) (actions : List (Option Action)) :
    (actions.map (Option.map Action.write)).mapM
        (fun n => n.bind fun n => (written.write n).map (Item.message num)) =
      actions.mapM fun n => n.bind fun n => (Action.message.write n).map (Item.message num) := by
  induction actions with
  | nil => rfl
  | cons o actions ih =>
    rw [List.map_cons, List.mapM_cons, List.mapM_cons, ih]
    cases o <;> rfl

theorem writeList_eq (o : Option (ListAction Action)) :
    writeList o = o.map (ListAction.message Action.message).write := by
  obtain _ | ⟨actions, logSource⟩ := o
  · rfl
  · rw [writeList, writeActions_eq]
    simp only [ListAction.message, Message.ofFields, ListAction.fields, writeAll,
      MessageField.repeatedMessage_write, MessageField.string_write, mapM_written,
      Option.map_some]

theorem writePointer_map {N : Type} (num : Nat) (write : N → Option (List Item)) (o : Option N) :
    writePointer num (o.map write) =
      o.elim (some []) fun n => (write n).map fun items => [.message num items] := by
  cases o <;> rfl

namespace Action

theorem write_eq : write = writeAll (fields message) := by
  funext w
  obtain ⟨download, upload, run, timeout, emitProgress, attempt, parallel, serial, codependent⟩ := w
  rw [write, writeTimeout_eq, writeEmitProgress_eq, writeTry_eq, writeList_eq, writeList_eq,
    writeList_eq]
  simp only [fields, writeAll, MessageField.optional_write, writePointer_map, Option.bind_eq_bind,
    Option.bind_assoc, Option.pure_def, Option.bind_some]

/-! ### Reading -/

theorem fields_agree {n : Nat} {inner inner' : Message Action} (agree : inner.AgreeBelow n inner') :
    FieldsAgree n (fields inner) (fields inner') := by
  have timeout : (TimeoutAction.message inner).AgreeBelow n (TimeoutAction.message inner') := by
    refine Message.ofFields_agree _ (.cons (MessageField.optional_agree agree ..) ?_) _ _
    simp
  have emitProgress : (EmitProgressAction.message inner).AgreeBelow n
      (EmitProgressAction.message inner') := by
    refine Message.ofFields_agree _ (.cons (MessageField.optional_agree agree ..) ?_) _ _
    simp
  have attempt : (TryAction.message inner).AgreeBelow n (TryAction.message inner') := by
    refine Message.ofFields_agree _ (.cons (MessageField.optional_agree agree ..) ?_) _ _
    simp
  have list : (ListAction.message inner).AgreeBelow n (ListAction.message inner') := by
    refine Message.ofFields_agree _ (.cons (MessageField.repeatedMessage_agree agree ..) ?_) _ _
    simp
  refine .cons (.refl n _) (.cons (.refl n _) (.cons (.refl n _) ?_))
  refine .cons (MessageField.optional_agree timeout ..) (.cons
    (MessageField.optional_agree emitProgress ..) (.cons
    (MessageField.optional_agree attempt ..) ?_))
  exact .cons (MessageField.optional_agree list ..) (.cons
    (MessageField.optional_agree list ..) (.cons (MessageField.optional_agree list ..) .nil))

theorem unmarshalProto_eq : unmarshalProto = Protobuf.unmarshal (switch (fields message)) :=
  unroll_eq fields_agree rfl rfl

/-- The wrappers inside are read back as they are. -/
theorem normal_inside : (TimeoutAction.message message).normal = id ∧
    (EmitProgressAction.message message).normal = id ∧ (TryAction.message message).normal = id ∧
    (ListAction.message message).normal = id := by
  refine ⟨?_, ?_, ?_, ?_⟩ <;> funext a
  · simp [TimeoutAction.message, Message.ofFields, message]
  · simp [EmitProgressAction.message, Message.ofFields, message]
  · simp [TryAction.message, Message.ofFields, message]
  · simp [ListAction.message, Message.ofFields, message]

theorem fills (w : Action) : Fills w (fields message) zero w := by
  refine .optional rfl rfl (.optional rfl rfl (.optional rfl rfl (.optional rfl rfl (.optional rfl
    rfl (.optional rfl rfl (.optional rfl rfl (.optional rfl rfl (.optional rfl rfl ?_))))))))
  obtain ⟨timeout_normal, progress_normal, try_normal, list_normal⟩ := normal_inside
  simp only [DownloadAction.roundTrips.pointer_eq, UploadAction.roundTrips.pointer_eq,
    RunAction.roundTrips.pointer_eq, timeout_normal, progress_normal, try_normal, list_normal,
    Option.map_id]
  cases w
  rfl

theorem generated : message.GeneratedFrom (fields message) :=
  ⟨by decide, write_eq, unmarshalProto_eq, fills⟩

/-- The messages inside a wrapper are read back if the wrappers inside them are. -/
theorem sound_of_children {w : Action}
    (below : ∀ a ∈ w.variants, ∀ c ∈ a.children, message.LawfulAt c) :
    ∀ field ∈ fields message, field.Sound w := by
  simp only [variants, List.forall_mem_append, List.forall_mem_map, Option.mem_toList,
    ActionInterface.children, List.reduceOption_mem_iff] at below
  obtain ⟨⟨⟨⟨⟨⟨-, timeout⟩, progress⟩, attempt⟩, parallel⟩, serial⟩, codependent⟩ := below
  simp only [fields, List.forall_mem_cons]
  refine ⟨?_, ?_, ?_, ?_, ?_, ?_, ?_, ?_, ?_, by simp⟩
  · exact MessageField.optional_sound _ _ _ fun a _ => DownloadAction.roundTrips.lawful a
  · exact MessageField.optional_sound _ _ _ fun a _ => UploadAction.roundTrips.lawful a
  · exact MessageField.optional_sound _ _ _ fun a _ => RunAction.roundTrips.lawful a
  · exact MessageField.optional_sound _ _ _ fun a here => TimeoutAction.lawful (timeout a here)
  · exact MessageField.optional_sound _ _ _ fun a here =>
      EmitProgressAction.lawful (progress a here)
  · exact MessageField.optional_sound _ _ _ fun a here => TryAction.lawful (attempt a here)
  · exact MessageField.optional_sound _ _ _ fun a here => ListAction.lawful (parallel a here)
  · exact MessageField.optional_sound _ _ _ fun a here => ListAction.lawful (serial a here)
  · exact MessageField.optional_sound _ _ _ fun a here => ListAction.lawful (codependent a here)

theorem lawful (w : Action) : message.LawfulAt w := by
  induction w using Action.induction with
  | node w below => exact generated.lawful (sound_of_children below)

theorem roundTrips : message.RoundTrips (fields message) Eq where
  generated := generated
  sound _ := sound_of_children fun _ _ c _ => lawful c
  equal _ := rfl

end Action

/-! ### The actions around wrappers -/

theorem TimeoutAction.roundTrips :
    (message Action.message).RoundTrips (fields Action.message) Eq where
  generated := generated Action.message
  sound := by simp [fields, MessageField.optional_sound, Action.lawful]
  equal a := congrFun Action.normal_inside.1 a

theorem EmitProgressAction.roundTrips :
    (message Action.message).RoundTrips (fields Action.message) Eq where
  generated := generated Action.message
  sound := by simp [fields, MessageField.optional_sound, Action.lawful]
  equal a := congrFun Action.normal_inside.2.1 a

theorem TryAction.roundTrips :
    (message Action.message).RoundTrips (fields Action.message) Eq where
  generated := generated Action.message
  sound := by simp [fields, MessageField.optional_sound, Action.lawful]
  equal a := congrFun Action.normal_inside.2.2.1 a

theorem ListAction.roundTrips :
    (message Action.message).RoundTrips (fields Action.message) Eq where
  generated := generated Action.message
  sound := by simp [fields, MessageField.repeatedMessage_sound, Action.lawful]
  equal a := congrFun Action.normal_inside.2.2.2 a

end Bbs.Models
