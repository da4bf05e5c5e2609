import Bbs.Models.Task

/-!
Actions and their `Validate` (`models/actions.go`).

An action holds the actions below it in wrappers: messages with one pointer for each of the nine
kinds, of which at most one is meant to be set. A decoded wrapper may have none. `Validate` calls
`UnwrapAction(action).Validate()` on each wrapper it finds that is not nil, which panics on a
wrapper without an action. A list stands for a nil slice as well as for an empty one: nothing
here tells them apart.
-/

namespace Bbs.Models

open Bbs.Json

/-! ### Actions -/

structure DownloadAction where
  artifact : String
  /-- `From` -/
  source : String
  /-- `To` -/
  target : String
  cacheKey : String
  logSource : String
  user : String

structure UploadAction where
  artifact : String
  /-- `From` -/
  source : String
  /-- `To` -/
  target : String
  logSource : String
  user : String

structure ResourceLimits where
  nofile : Option UInt64

structure RunAction where
  path : String
  args : List String
  dir : String
  env : List (Option EnvironmentVariable)
  resourceLimits : Option ResourceLimits
  user : String
  logSource : String

/-- `W` is the type of the wrappers, here and below. -/
structure TimeoutAction (W : Type) where
  action : Option W
  timeout : Int64
  logSource : String

structure EmitProgressAction (W : Type) where
  action : Option W
  startMessage : String
  successMessage : String
  failureMessagePrefix : String
  logSource : String

structure TryAction (W : Type) where
  action : Option W
  logSource : String

/-- Parallel, serial and codependent actions differ in their type only. -/
structure ListAction (W : Type) where
  actions : List (Option W)
  logSource : String

abbrev ParallelAction := ListAction

abbrev SerialAction := ListAction

abbrev CodependentAction := ListAction

/-- A wrapper. -/
structure Action where
  downloadAction : Option DownloadAction
  uploadAction : Option UploadAction
  runAction : Option RunAction
  timeoutAction : Option (TimeoutAction Action)
  emitProgressAction : Option (EmitProgressAction Action)
  tryAction : Option (TryAction Action)
  parallelAction : Option (ListAction Action)
  serialAction : Option (ListAction Action)
  codependentAction : Option (ListAction Action)

/-- A non-nil `ActionInterface`. -/
inductive ActionInterface where
  | download (a : DownloadAction)
  | upload (a : UploadAction)
  | run (a : RunAction)
  | timeout (a : TimeoutAction Action)
  | emitProgress (a : EmitProgressAction Action)
  | tryAction (a : TryAction Action)
  | parallel (a : ParallelAction Action)
  | serial (a : SerialAction Action)
  | codependent (a : CodependentAction Action)

namespace Action

/-- `Action{}` -/
def zero : Action :=
  ⟨none, none, none, none, none, none, none, none, none⟩

/-- The first pointer that is set. -/
def getValue : Action → Option ActionInterface
  | ⟨some a, _, _, _, _, _, _, _, _⟩ => some (.download a)
  | ⟨none, some a, _, _, _, _, _, _, _⟩ => some (.upload a)
  | ⟨none, none, some a, _, _, _, _, _, _⟩ => some (.run a)
  | ⟨none, none, none, some a, _, _, _, _, _⟩ => some (.timeout a)
  | ⟨none, none, none, none, some a, _, _, _, _⟩ => some (.emitProgress a)
  | ⟨none, none, none, none, none, some a, _, _, _⟩ => some (.tryAction a)
  | ⟨none, none, none, none, none, none, some a, _, _⟩ => some (.parallel a)
  | ⟨none, none, none, none, none, none, none, some a, _⟩ => some (.serial a)
  | ⟨none, none, none, none, none, none, none, none, some a⟩ => some (.codependent a)
  | ⟨none, none, none, none, none, none, none, none, none⟩ => none

def setValue (w : Action) : ActionInterface → Action
  | .download a => { w with downloadAction := some a }
  | .upload a => { w with uploadAction := some a }
  | .run a => { w with runAction := some a }
  | .timeout a => { w with timeoutAction := some a }
  | .emitProgress a => { w with emitProgressAction := some a }
  | .tryAction a => { w with tryAction := some a }
  | .parallel a => { w with parallelAction := some a }
  | .serial a => { w with serialAction := some a }
  | .codependent a => { w with codependentAction := some a }

end Action

def unwrapAction : Option Action → Option ActionInterface
  | none => none
  | some action => action.getValue

/-- Of an action that is not nil. -/
def wrapAction (action : ActionInterface) : Action :=
  Action.zero.setValue action

/-! ### `Validate` -/

def DownloadAction.validate (a : DownloadAction) : Option ErrorValue :=
  ((ValidationError.nil.check (a.source = "") (.invalidField "from")).check
    (a.target = "") (.invalidField "to")).check
    (a.user = "") (.invalidField "user") |>.result

def UploadAction.validate (a : UploadAction) : Option ErrorValue :=
  ((ValidationError.nil.check (a.target = "") (.invalidField "to")).check
    (a.source = "") (.invalidField "from")).check
    (a.user = "") (.invalidField "user") |>.result

def RunAction.validate (a : RunAction) : Option ErrorValue :=
  (ValidationError.nil.check (a.path = "") (.invalidField "path")).check
    (a.user = "") (.invalidField "user") |>.result

-- `none` if it panics.
mutual
def TimeoutAction.validate : TimeoutAction Action → Option (Option ErrorValue)
  | ⟨action, timeout, _⟩ => do
      let ve ← validateChild action
      return (ve.check (timeout ≤ 0) (.invalidField "timeout")).result

def EmitProgressAction.validate : EmitProgressAction Action → Option (Option ErrorValue)
  | ⟨action, _, _, _, _⟩ => do
      let ve ← validateChild action
      return ve.result

def TryAction.validate : TryAction Action → Option (Option ErrorValue)
  | ⟨action, _⟩ => do
      let ve ← validateChild action
      return ve.result

def ListAction.validate : ListAction Action → Option (Option ErrorValue)
  | ⟨[], _⟩ => some (ValidationError.append .nil (.invalidField "actions")).result
  | ⟨actions, _⟩ => do
      let ve ← validateChildren .nil 0 actions
      return ve.result

/-- The check of a field `Action`. -/
def validateChild : Option Action → Option ValidationError
  | none => some (ValidationError.append .nil (.invalidField "action"))
  | some action => do
      let err ← action.unwrapValidate
      return ValidationError.extend .nil err

/-- The loop over a field `Actions`. -/
def validateChildren (ve : ValidationError) (index : Nat) :
    List (Option Action) → Option ValidationError
  | [] => some ve
  | none :: actions =>
      validateChildren (ve.append (.invalidField s!"action at index {index}")) (index + 1) actions
  | some action :: actions => do
      let err ← action.unwrapValidate
      validateChildren (ve.extend err) (index + 1) actions

/-- `UnwrapAction(action).Validate()` -/
def Action.unwrapValidate : Action → Option (Option ErrorValue)
  | ⟨some a, _, _, _, _, _, _, _, _⟩ => some a.validate
  | ⟨none, some a, _, _, _, _, _, _, _⟩ => some a.validate
  | ⟨none, none, some a, _, _, _, _, _, _⟩ => some a.validate
  | ⟨none, none, none, some a, _, _, _, _, _⟩ => a.validate
  | ⟨none, none, none, none, some a, _, _, _, _⟩ => a.validate
  | ⟨none, none, none, none, none, some a, _, _, _⟩ => a.validate
  | ⟨none, none, none, none, none, none, some a, _, _⟩ => a.validate
  | ⟨none, none, none, none, none, none, none, some a, _⟩ => a.validate
  | ⟨none, none, none, none, none, none, none, none, some a⟩ => a.validate
  | ⟨none, none, none, none, none, none, none, none, none⟩ => none
end

def ParallelAction.validate (a : ParallelAction Action) : Option (Option ErrorValue) :=
  ListAction.validate a

def SerialAction.validate (a : SerialAction Action) : Option (Option ErrorValue) :=
  ListAction.validate a

def CodependentAction.validate (a : CodependentAction Action) : Option (Option ErrorValue) :=
  ListAction.validate a

def ActionInterface.validate : ActionInterface → Option (Option ErrorValue)
  | .download a => some a.validate
  | .upload a => some a.validate
  | .run a => some a.validate
  | .timeout a => a.validate
  | .emitProgress a => a.validate
  | .tryAction a => a.validate
  | .parallel a => ParallelAction.validate a
  | .serial a => SerialAction.validate a
  | .codependent a => CodependentAction.validate a

/-- The actions of `models/actions.go`, with what is done to their JSON left open. -/
def actionsWith (marshal : Option Action → Option Json) (unmarshal : Json → Decoded Action) :
    Actions Action ActionInterface :=
  ⟨unwrapAction, ActionInterface.validate, marshal, unmarshal⟩

end Bbs.Models
