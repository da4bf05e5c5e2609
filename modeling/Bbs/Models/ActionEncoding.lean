import Bbs.Models.ActionValidation
import Bbs.NestedJson

/-!
Actions as JSON (`MarshalAction` and `UnmarshalAction` in `models/actions.go`, and the struct tags
in `models/actions.pb.go`).

An action is written as an object with one member, named after its type by `ActionType()`, and
read back through `actionMap`. The wrappers below it are written and read by `encoding/json`
under the names in the tags of `Action`. `action_codec` says that the two ways agree.
-/

namespace Bbs.Models

open Bbs.Json

/-! ### Environment variables -/

inductive VariableField where
  | name
  | value
  deriving DecidableEq

def VariableField.text : VariableField → String
  | .name => "name"
  | .value => "value"

namespace EnvironmentVariable

def fieldOf : String → Option VariableField :=
  fieldNamed [.name, .value] VariableField.text

def setField (env : EnvironmentVariable) (field : VariableField) (value : Json) :
    Option EnvironmentVariable :=
  match field with
  | .name => (decodeString env.name value).map fun name => { env with name := name }
  | .value => (decodeString env.value value).map fun value => { env with value := value }

def marshal (env : EnvironmentVariable) : Json :=
  .obj <| [(VariableField.name, Json.str env.name), (.value, .str env.value)].map fun p =>
    (p.1.text, p.2)

theorem fieldOf_text (field : VariableField) : fieldOf field.text = some field := by
  refine fieldNamed_name ?_ ?_
  · decide
  · cases field <;> simp

theorem unmarshal_marshal (old env : EnvironmentVariable) :
    decodeStruct fieldOf setField old env.marshal = some env := by
  rw [marshal, decodeStruct, decodeMembers_named fieldOf_text]
  simp [setField]

end EnvironmentVariable

/-! ### The actions without others below them -/

inductive DownloadField where
  | artifact
  | source
  | target
  | cacheKey
  | logSource
  | user
  deriving DecidableEq

def DownloadField.name : DownloadField → String
  | .artifact => "artifact"
  | .source => "from"
  | .target => "to"
  | .cacheKey => "cache_key"
  | .logSource => "log_source"
  | .user => "user"

namespace DownloadAction

/-- A zero struct, here and below. -/
def zero : DownloadAction :=
  ⟨"", "", "", "", "", ""⟩

def fieldOf : String → Option DownloadField :=
  fieldNamed [.artifact, .source, .target, .cacheKey, .logSource, .user] DownloadField.name

def setField (a : DownloadAction) (field : DownloadField) (value : Json) : Option DownloadAction :=
  match field with
  | .artifact => (decodeString a.artifact value).map fun s => { a with artifact := s }
  | .source => (decodeString a.source value).map fun s => { a with source := s }
  | .target => (decodeString a.target value).map fun s => { a with target := s }
  | .cacheKey => (decodeString a.cacheKey value).map fun s => { a with cacheKey := s }
  | .logSource => (decodeString a.logSource value).map fun s => { a with logSource := s }
  | .user => (decodeString a.user value).map fun s => { a with user := s }

def members (a : DownloadAction) : List (Member DownloadField) :=
  [⟨a.artifact = "", .artifact, .str a.artifact⟩, ⟨false, .source, .str a.source⟩,
    ⟨false, .target, .str a.target⟩, ⟨false, .cacheKey, .str a.cacheKey⟩,
    ⟨a.logSource = "", .logSource, .str a.logSource⟩, ⟨false, .user, .str a.user⟩]

def marshal (a : DownloadAction) : Json :=
  encodeStruct DownloadField.name a.members

theorem fieldOf_name (field : DownloadField) : fieldOf field.name = some field := by
  refine fieldNamed_name ?_ ?_
  · decide
  · cases field <;> simp

theorem decode_marshal (a : DownloadAction) :
    decodeStruct fieldOf setField zero a.marshal = some a := by
  have harmless : Harmless setField zero a.members := by
    simp [members, Harmless, setField, zero]
  rw [marshal, decodeStruct_encodeStruct fieldOf_name harmless]
  rfl

end DownloadAction

inductive UploadField where
  | artifact
  | source
  | target
  | logSource
  | user
  deriving DecidableEq

def UploadField.name : UploadField → String
  | .artifact => "artifact"
  | .source => "from"
  | .target => "to"
  | .logSource => "log_source"
  | .user => "user"

namespace UploadAction

def zero : UploadAction :=
  ⟨"", "", "", "", ""⟩

def fieldOf : String → Option UploadField :=
  fieldNamed [.artifact, .source, .target, .logSource, .user] UploadField.name

def setField (a : UploadAction) (field : UploadField) (value : Json) : Option UploadAction :=
  match field with
  | .artifact => (decodeString a.artifact value).map fun s => { a with artifact := s }
  | .source => (decodeString a.source value).map fun s => { a with source := s }
  | .target => (decodeString a.target value).map fun s => { a with target := s }
  | .logSource => (decodeString a.logSource value).map fun s => { a with logSource := s }
  | .user => (decodeString a.user value).map fun s => { a with user := s }

def members (a : UploadAction) : List (Member UploadField) :=
  [⟨a.artifact = "", .artifact, .str a.artifact⟩, ⟨false, .source, .str a.source⟩,
    ⟨false, .target, .str a.target⟩, ⟨a.logSource = "", .logSource, .str a.logSource⟩,
    ⟨false, .user, .str a.user⟩]

def marshal (a : UploadAction) : Json :=
  encodeStruct UploadField.name a.members

theorem fieldOf_name (field : UploadField) : fieldOf field.name = some field := by
  refine fieldNamed_name ?_ ?_
  · decide
  · cases field <;> simp

theorem decode_marshal (a : UploadAction) :
    decodeStruct fieldOf setField zero a.marshal = some a := by
  have harmless : Harmless setField zero a.members := by
    simp [members, Harmless, setField, zero]
  rw [marshal, decodeStruct_encodeStruct fieldOf_name harmless]
  rfl

end UploadAction

inductive LimitsField where
  | nofile
  deriving DecidableEq

def LimitsField.name : LimitsField → String
  | .nofile => "nofile"

namespace ResourceLimits

def zero : ResourceLimits :=
  ⟨none⟩

def fieldOf : String → Option LimitsField :=
  fieldNamed [.nofile] LimitsField.name

def setField (limits : ResourceLimits) (field : LimitsField) (value : Json) :
    Option ResourceLimits :=
  match field with
  | .nofile => (decodePointer 0 decodeUInt64 limits.nofile value).map fun n => { limits with nofile := n }

def members (limits : ResourceLimits) : List (Member LimitsField) :=
  [⟨limits.nofile.isNone, .nofile, encodePointer (fun n => .num n.toNat) limits.nofile⟩]

def marshal (limits : ResourceLimits) : Json :=
  encodeStruct LimitsField.name limits.members

theorem fieldOf_name (field : LimitsField) : fieldOf field.name = some field := by
  refine fieldNamed_name ?_ ?_
  · decide
  · cases field
    simp

theorem decode_marshal (limits : ResourceLimits) :
    decodeStruct fieldOf setField zero limits.marshal = some limits := by
  have nofile := @decodePointer_encodePointer _ 0 decodeUInt64 (fun n => .num n.toNat) limits.nofile
    (fun n _ => decodeUInt64_toNat 0 n) (by simp)
  have harmless : Harmless setField zero limits.members := by
    simp [members, Harmless, setField, zero, nofile]
  rw [marshal, decodeStruct_encodeStruct fieldOf_name harmless]
  simp [members, setAll, setField, zero, nofile]

end ResourceLimits

inductive RunField where
  | path
  | args
  | dir
  | env
  | resourceLimits
  | user
  | logSource
  deriving DecidableEq

def RunField.name : RunField → String
  | .path => "path"
  | .args => "args"
  | .dir => "dir"
  | .env => "env"
  | .resourceLimits => "resource_limits"
  | .user => "user"
  | .logSource => "log_source"

namespace RunAction

def zero : RunAction :=
  ⟨"", [], "", [], none, "", ""⟩

def fieldOf : String → Option RunField :=
  fieldNamed [.path, .args, .dir, .env, .resourceLimits, .user, .logSource] RunField.name

def decodeVariable : Option EnvironmentVariable → Json → Option (Option EnvironmentVariable) :=
  decodePointer ⟨"", ""⟩ (decodeStruct EnvironmentVariable.fieldOf EnvironmentVariable.setField)

def decodeLimits : Option ResourceLimits → Json → Option (Option ResourceLimits) :=
  decodePointer .zero (decodeStruct ResourceLimits.fieldOf ResourceLimits.setField)

def setField (a : RunAction) (field : RunField) (value : Json) : Option RunAction :=
  match field with
  | .path => (decodeString a.path value).map fun s => { a with path := s }
  | .args =>
      (decodeSlice "" decodeString (some a.args) value).map fun args =>
        { a with args := args.getD [] }
  | .dir => (decodeString a.dir value).map fun s => { a with dir := s }
  | .env =>
      (decodeSlice none decodeVariable (some a.env) value).map fun env =>
        { a with env := env.getD [] }
  | .resourceLimits =>
      (decodeLimits a.resourceLimits value).map fun limits => { a with resourceLimits := limits }
  | .user => (decodeString a.user value).map fun s => { a with user := s }
  | .logSource => (decodeString a.logSource value).map fun s => { a with logSource := s }

def members (a : RunAction) : List (Member RunField) :=
  [⟨false, .path, .str a.path⟩,
    ⟨a.args.isEmpty, .args, .arr (a.args.map .str)⟩,
    ⟨a.dir = "", .dir, .str a.dir⟩,
    ⟨a.env.isEmpty, .env, .arr (a.env.map (encodePointer EnvironmentVariable.marshal))⟩,
    ⟨a.resourceLimits.isNone, .resourceLimits,
      encodePointer ResourceLimits.marshal a.resourceLimits⟩,
    ⟨false, .user, .str a.user⟩,
    ⟨a.logSource = "", .logSource, .str a.logSource⟩]

def marshal (a : RunAction) : Json :=
  encodeStruct RunField.name a.members

theorem fieldOf_name (field : RunField) : fieldOf field.name = some field := by
  refine fieldNamed_name ?_ ?_
  · decide
  · cases field <;> simp

theorem decodeVariable_encode (o : Option EnvironmentVariable) :
    decodeVariable none (encodePointer EnvironmentVariable.marshal o) = some o :=
  decodePointer_encodePointer (fun env _ => EnvironmentVariable.unmarshal_marshal _ env)
    fun env => by simp [EnvironmentVariable.marshal]

theorem decodeLimits_encode (o : Option ResourceLimits) :
    decodeLimits none (encodePointer ResourceLimits.marshal o) = some o :=
  decodePointer_encodePointer (fun limits _ => limits.decode_marshal)
    fun limits => by simp [ResourceLimits.marshal, encodeStruct]

theorem decode_marshal (a : RunAction) : decodeStruct fieldOf setField zero a.marshal = some a := by
  have args : decodeSlice "" decodeString (some []) (.arr (a.args.map .str)) = some (some a.args) :=
    decodeSlice_map fun s _ => decodeString_str "" s
  have env := @decodeSlice_map _ none decodeVariable (encodePointer EnvironmentVariable.marshal)
    a.env fun o _ => decodeVariable_encode o
  have limits := decodeLimits_encode a.resourceLimits
  have harmless : Harmless setField zero a.members := by
    simp [members, Harmless, setField, zero, args, env, limits]
  rw [marshal, decodeStruct_encodeStruct fieldOf_name harmless]
  simp [members, setAll, setField, zero, args, env, limits]

end RunAction

/-! ### The actions with others below them

They are read with a decoder for the wrappers, and written with what the wrappers below them
are written as. -/

section

variable {W : Type} {blank : W} {decode decode' : W → Json → Option W}

inductive TimeoutField where
  | action
  | timeout
  | logSource
  deriving DecidableEq

def TimeoutField.name : TimeoutField → String
  | .action => "action"
  | .timeout => "timeout"
  | .logSource => "log_source"

namespace TimeoutAction

def zero : TimeoutAction W :=
  ⟨none, 0, ""⟩

def fieldOf : String → Option TimeoutField :=
  fieldNamed [.action, .timeout, .logSource] TimeoutField.name

/-- `blank` is a zero wrapper, here and below. -/
def setField (blank : W) (decode : W → Json → Option W) (a : TimeoutAction W)
    (field : TimeoutField) (value : Json) : Option (TimeoutAction W) :=
  match field with
  | .action => (decodePointer blank decode a.action value).map fun w => { a with action := w }
  | .timeout => (decodeInt64 a.timeout value).map fun n => { a with timeout := n }
  | .logSource => (decodeString a.logSource value).map fun s => { a with logSource := s }

def members (a : TimeoutAction W) (action : Json) : List (Member TimeoutField) :=
  [⟨a.action.isNone, .action, action⟩, ⟨false, .timeout, .num a.timeout.toInt⟩,
    ⟨a.logSource = "", .logSource, .str a.logSource⟩]

theorem fieldOf_name (field : TimeoutField) : fieldOf field.name = some field := by
  refine fieldNamed_name ?_ ?_
  · decide
  · cases field <;> simp

theorem decode_encode (a : TimeoutAction W) {action : Json}
    (child : decodePointer blank decode none action = some a.action) :
    decodeStruct fieldOf (setField blank decode) zero
      (encodeStruct TimeoutField.name (a.members action)) = some a := by
  have harmless : Harmless (setField blank decode) zero (a.members action) := by
    simp [members, Harmless, setField, zero, child]
  rw [decodeStruct_encodeStruct fieldOf_name harmless]
  simp [members, setAll, setField, zero, child]

theorem setField_congr {j : Json} (agree : ∀ w, decode w j = decode' w j) (a : TimeoutAction W)
    (field : TimeoutField) : a.setField blank decode field j = a.setField blank decode' field j := by
  cases field with
  | action => simp only [setField, decodePointer_congr agree]
  | timeout | logSource => rfl

end TimeoutAction

inductive ProgressField where
  | action
  | startMessage
  | successMessage
  | failureMessagePrefix
  | logSource
  deriving DecidableEq

def ProgressField.name : ProgressField → String
  | .action => "action"
  | .startMessage => "start_message"
  | .successMessage => "success_message"
  | .failureMessagePrefix => "failure_message_prefix"
  | .logSource => "log_source"

namespace EmitProgressAction

def zero : EmitProgressAction W :=
  ⟨none, "", "", "", ""⟩

def fieldOf : String → Option ProgressField :=
  fieldNamed [.action, .startMessage, .successMessage, .failureMessagePrefix, .logSource]
    ProgressField.name

def setField (blank : W) (decode : W → Json → Option W) (a : EmitProgressAction W)
    (field : ProgressField) (value : Json) : Option (EmitProgressAction W) :=
  match field with
  | .action => (decodePointer blank decode a.action value).map fun w => { a with action := w }
  | .startMessage => (decodeString a.startMessage value).map fun s => { a with startMessage := s }
  | .successMessage =>
      (decodeString a.successMessage value).map fun s => { a with successMessage := s }
  | .failureMessagePrefix =>
      (decodeString a.failureMessagePrefix value).map fun s => { a with failureMessagePrefix := s }
  | .logSource => (decodeString a.logSource value).map fun s => { a with logSource := s }

def members (a : EmitProgressAction W) (action : Json) : List (Member ProgressField) :=
  [⟨a.action.isNone, .action, action⟩, ⟨false, .startMessage, .str a.startMessage⟩,
    ⟨false, .successMessage, .str a.successMessage⟩,
    ⟨false, .failureMessagePrefix, .str a.failureMessagePrefix⟩,
    ⟨a.logSource = "", .logSource, .str a.logSource⟩]

theorem fieldOf_name (field : ProgressField) : fieldOf field.name = some field := by
  refine fieldNamed_name ?_ ?_
  · decide
  · cases field <;> simp

theorem decode_encode (a : EmitProgressAction W) {action : Json}
    (child : decodePointer blank decode none action = some a.action) :
    decodeStruct fieldOf (setField blank decode) zero
      (encodeStruct ProgressField.name (a.members action)) = some a := by
  have harmless : Harmless (setField blank decode) zero (a.members action) := by
    simp [members, Harmless, setField, zero, child]
  rw [decodeStruct_encodeStruct fieldOf_name harmless]
  simp [members, setAll, setField, zero, child]

theorem setField_congr {j : Json} (agree : ∀ w, decode w j = decode' w j)
    (a : EmitProgressAction W) (field : ProgressField) :
    a.setField blank decode field j = a.setField blank decode' field j := by
  cases field with
  | action => simp only [setField, decodePointer_congr agree]
  | startMessage | successMessage | failureMessagePrefix | logSource => rfl

end EmitProgressAction

inductive TryField where
  | action
  | logSource
  deriving DecidableEq

def TryField.name : TryField → String
  | .action => "action"
  | .logSource => "log_source"

namespace TryAction

def zero : TryAction W :=
  ⟨none, ""⟩

def fieldOf : String → Option TryField :=
  fieldNamed [.action, .logSource] TryField.name

def setField (blank : W) (decode : W → Json → Option W) (a : TryAction W) (field : TryField)
    (value : Json) : Option (TryAction W) :=
  match field with
  | .action => (decodePointer blank decode a.action value).map fun w => { a with action := w }
  | .logSource => (decodeString a.logSource value).map fun s => { a with logSource := s }

def members (a : TryAction W) (action : Json) : List (Member TryField) :=
  [⟨a.action.isNone, .action, action⟩, ⟨a.logSource = "", .logSource, .str a.logSource⟩]

theorem fieldOf_name (field : TryField) : fieldOf field.name = some field := by
  refine fieldNamed_name ?_ ?_
  · decide
  · cases field <;> simp

theorem decode_encode (a : TryAction W) {action : Json}
    (child : decodePointer blank decode none action = some a.action) :
    decodeStruct fieldOf (setField blank decode) zero
      (encodeStruct TryField.name (a.members action)) = some a := by
  have harmless : Harmless (setField blank decode) zero (a.members action) := by
    simp [members, Harmless, setField, zero, child]
  rw [decodeStruct_encodeStruct fieldOf_name harmless]
  simp [members, setAll, setField, zero, child]

theorem setField_congr {j : Json} (agree : ∀ w, decode w j = decode' w j) (a : TryAction W)
    (field : TryField) : a.setField blank decode field j = a.setField blank decode' field j := by
  cases field with
  | action => simp only [setField, decodePointer_congr agree]
  | logSource => rfl

end TryAction

inductive ListField where
  | actions
  | logSource
  deriving DecidableEq

def ListField.name : ListField → String
  | .actions => "actions"
  | .logSource => "log_source"

namespace ListAction

def zero : ListAction W :=
  ⟨[], ""⟩

def fieldOf : String → Option ListField :=
  fieldNamed [.actions, .logSource] ListField.name

def setField (blank : W) (decode : W → Json → Option W) (a : ListAction W) (field : ListField)
    (value : Json) : Option (ListAction W) :=
  match field with
  | .actions =>
      (decodeSlice none (decodePointer blank decode) (some a.actions) value).map fun actions =>
        { a with actions := actions.getD [] }
  | .logSource => (decodeString a.logSource value).map fun s => { a with logSource := s }

def members (a : ListAction W) (actions : List Json) : List (Member ListField) :=
  [⟨a.actions.isEmpty, .actions, .arr actions⟩, ⟨a.logSource = "", .logSource, .str a.logSource⟩]

theorem fieldOf_name (field : ListField) : fieldOf field.name = some field := by
  refine fieldNamed_name ?_ ?_
  · decide
  · cases field <;> simp

theorem decode_encode (a : ListAction W) {actions : List Json}
    (children : decodeSlice none (decodePointer blank decode) (some []) (.arr actions) =
      some (some a.actions)) :
    decodeStruct fieldOf (setField blank decode) zero
      (encodeStruct ListField.name (a.members actions)) = some a := by
  have harmless : Harmless (setField blank decode) zero (a.members actions) := by
    simp [members, Harmless, setField, zero, children]
  rw [decodeStruct_encodeStruct fieldOf_name harmless]
  simp [members, setAll, setField, zero, children]

theorem setField_congr {j : Json}
    (agree : ∀ v : Json, v.depth < j.depth → ∀ w, decode w v = decode' w v) (a : ListAction W)
    (field : ListField) : a.setField blank decode field j = a.setField blank decode' field j := by
  cases field with
  | actions =>
      have elements : decodeSlice none (decodePointer blank decode) (some a.actions) j =
          decodeSlice none (decodePointer blank decode') (some a.actions) j :=
        decodeSlice_congr fun v deeper _ => decodePointer_congr (agree v deeper)
      simp only [setField, elements]
  | logSource => rfl

end ListAction

end

/-! ### Wrappers -/

inductive ActionKind where
  | download
  | upload
  | run
  | timeout
  | emitProgress
  | tryAction
  | parallel
  | serial
  | codependent
  deriving DecidableEq

/-- The struct tags of `Action`. -/
def ActionKind.tag : ActionKind → String
  | .download => "download"
  | .upload => "upload"
  | .run => "run"
  | .timeout => "timeout"
  | .emitProgress => "emit_progress"
  | .tryAction => "try"
  | .parallel => "parallel"
  | .serial => "serial"
  | .codependent => "codependent"

mutual
def TimeoutAction.marshal : TimeoutAction Action → Json
  | ⟨action, timeout, logSource⟩ =>
      encodeStruct TimeoutField.name
        (TimeoutAction.members ⟨action, timeout, logSource⟩ (marshalPointer action))

def EmitProgressAction.marshal : EmitProgressAction Action → Json
  | ⟨action, start, success, failure, logSource⟩ =>
      encodeStruct ProgressField.name
        (EmitProgressAction.members ⟨action, start, success, failure, logSource⟩
          (marshalPointer action))

def TryAction.marshal : TryAction Action → Json
  | ⟨action, logSource⟩ =>
      encodeStruct TryField.name (TryAction.members ⟨action, logSource⟩ (marshalPointer action))

def ListAction.marshal : ListAction Action → Json
  | ⟨actions, logSource⟩ =>
      encodeStruct ListField.name (ListAction.members ⟨actions, logSource⟩ (marshalElements actions))

def marshalPointer : Option Action → Json
  | none => .null
  | some w => w.marshal

def marshalElements : List (Option Action) → List Json
  | [] => []
  | o :: actions => marshalPointer o :: marshalElements actions

def TimeoutAction.marshalPointer : Option (TimeoutAction Action) → Json
  | none => .null
  | some a => a.marshal

def EmitProgressAction.marshalPointer : Option (EmitProgressAction Action) → Json
  | none => .null
  | some a => a.marshal

def TryAction.marshalPointer : Option (TryAction Action) → Json
  | none => .null
  | some a => a.marshal

def ListAction.marshalPointer : Option (ListAction Action) → Json
  | none => .null
  | some a => a.marshal

def Action.marshal : Action → Json
  | ⟨download, upload, run, timeout, emitProgress, tryAction, parallel, serial, codependent⟩ =>
      encodeStruct ActionKind.tag
        [⟨download.isNone, .download, encodePointer DownloadAction.marshal download⟩,
          ⟨upload.isNone, .upload, encodePointer UploadAction.marshal upload⟩,
          ⟨run.isNone, .run, encodePointer RunAction.marshal run⟩,
          ⟨timeout.isNone, .timeout, TimeoutAction.marshalPointer timeout⟩,
          ⟨emitProgress.isNone, .emitProgress, EmitProgressAction.marshalPointer emitProgress⟩,
          ⟨tryAction.isNone, .tryAction, TryAction.marshalPointer tryAction⟩,
          ⟨parallel.isNone, .parallel, ListAction.marshalPointer parallel⟩,
          ⟨serial.isNone, .serial, ListAction.marshalPointer serial⟩,
          ⟨codependent.isNone, .codependent, ListAction.marshalPointer codependent⟩]
end

namespace Action

def fieldOf : String → Option ActionKind :=
  fieldNamed [.download, .upload, .run, .timeout, .emitProgress, .tryAction, .parallel, .serial,
    .codependent] ActionKind.tag

/-- With a decoder for the wrappers below. -/
def setField (decode : Action → Json → Option Action) (w : Action) (kind : ActionKind)
    (value : Json) : Option Action :=
  match kind with
  | .download =>
      (decodePointer .zero (decodeStruct DownloadAction.fieldOf DownloadAction.setField)
        w.downloadAction value).map fun a => { w with downloadAction := a }
  | .upload =>
      (decodePointer .zero (decodeStruct UploadAction.fieldOf UploadAction.setField)
        w.uploadAction value).map fun a => { w with uploadAction := a }
  | .run =>
      (decodePointer .zero (decodeStruct RunAction.fieldOf RunAction.setField)
        w.runAction value).map fun a => { w with runAction := a }
  | .timeout =>
      (decodePointer .zero (decodeStruct TimeoutAction.fieldOf (TimeoutAction.setField zero decode))
        w.timeoutAction value).map fun a => { w with timeoutAction := a }
  | .emitProgress =>
      (decodePointer .zero
        (decodeStruct EmitProgressAction.fieldOf (EmitProgressAction.setField zero decode))
        w.emitProgressAction value).map fun a => { w with emitProgressAction := a }
  | .tryAction =>
      (decodePointer .zero (decodeStruct TryAction.fieldOf (TryAction.setField zero decode))
        w.tryAction value).map fun a => { w with tryAction := a }
  | .parallel =>
      (decodePointer .zero (decodeStruct ListAction.fieldOf (ListAction.setField zero decode))
        w.parallelAction value).map fun a => { w with parallelAction := a }
  | .serial =>
      (decodePointer .zero (decodeStruct ListAction.fieldOf (ListAction.setField zero decode))
        w.serialAction value).map fun a => { w with serialAction := a }
  | .codependent =>
      (decodePointer .zero (decodeStruct ListAction.fieldOf (ListAction.setField zero decode))
        w.codependentAction value).map fun a => { w with codependentAction := a }

/-- What `json.Unmarshal` makes of a wrapper. -/
def unmarshal : Action → Json → Option Action :=
  decodeNested fun decode => decodeStruct fieldOf (setField decode)

theorem fieldOf_tag (kind : ActionKind) : fieldOf kind.tag = some kind := by
  refine fieldNamed_name ?_ ?_
  · decide
  · cases kind <;> simp

theorem setField_congr {decode decode' : Action → Json → Option Action} {j : Json}
    (agree : ∀ v : Json, v.depth < j.depth → ∀ w, decode w v = decode' w v) (w : Action)
    (kind : ActionKind) : w.setField decode kind j = w.setField decode' kind j := by
  have deeper {u v : Json} (below : u.depth < v.depth) (here : v.depth < j.depth) :
      u.depth < j.depth := below.trans here
  have timeout : ∀ a, decodeStruct TimeoutAction.fieldOf (TimeoutAction.setField zero decode) a j =
      decodeStruct TimeoutAction.fieldOf (TimeoutAction.setField zero decode') a j := fun a =>
    decodeStruct_congr fun v below => TimeoutAction.setField_congr (agree v below)
  have progress : ∀ a,
      decodeStruct EmitProgressAction.fieldOf (EmitProgressAction.setField zero decode) a j =
        decodeStruct EmitProgressAction.fieldOf (EmitProgressAction.setField zero decode') a j :=
    fun a => decodeStruct_congr fun v below => EmitProgressAction.setField_congr (agree v below)
  have attempt : ∀ a, decodeStruct TryAction.fieldOf (TryAction.setField zero decode) a j =
      decodeStruct TryAction.fieldOf (TryAction.setField zero decode') a j := fun a =>
    decodeStruct_congr fun v below => TryAction.setField_congr (agree v below)
  have list : ∀ a, decodeStruct ListAction.fieldOf (ListAction.setField zero decode) a j =
      decodeStruct ListAction.fieldOf (ListAction.setField zero decode') a j := fun a =>
    decodeStruct_congr fun v below =>
      ListAction.setField_congr fun u inside => agree u (deeper inside below)
  cases kind with
  | download | upload | run => rfl
  | timeout => simp only [setField, decodePointer_congr timeout]
  | emitProgress => simp only [setField, decodePointer_congr progress]
  | tryAction => simp only [setField, decodePointer_congr attempt]
  | parallel | serial | codependent => simp only [setField, decodePointer_congr list]

theorem unmarshal_eq (old : Action) (j : Json) :
    unmarshal old j = decodeStruct fieldOf (setField unmarshal) old j := by
  refine decodeNested_eq ?_ old j
  intro decode decode' j agree old
  refine decodeStruct_congr fun v below w kind => setField_congr (fun u inside => ?_) w kind
  exact agree u (inside.trans below)

theorem marshal_ne_null (w : Action) : w.marshal ≠ .null := by
  cases w
  rw [marshal]
  exact encodeStruct_ne_null _ _

end Action

theorem marshalPointer_eq (o : Option Action) :
    marshalPointer o = encodePointer Action.marshal o := by
  refine eq_encodePointer ?_ (fun w => ?_) o <;> rw [marshalPointer]

theorem marshalElements_eq (actions : List (Option Action)) :
    marshalElements actions = actions.map (encodePointer Action.marshal) := by
  induction actions with
  | nil => rw [marshalElements, List.map_nil]
  | cons o actions ih => rw [marshalElements, ih, marshalPointer_eq, List.map_cons]

/-! ### The kinds of actions -/

namespace ActionInterface

def kind : ActionInterface → ActionKind
  | .download _ => .download
  | .upload _ => .upload
  | .run _ => .run
  | .timeout _ => .timeout
  | .emitProgress _ => .emitProgress
  | .tryAction _ => .tryAction
  | .parallel _ => .parallel
  | .serial _ => .serial
  | .codependent _ => .codependent

/-- What `json.Marshal` makes of an action. -/
def marshal : ActionInterface → Json
  | .download a => a.marshal
  | .upload a => a.marshal
  | .run a => a.marshal
  | .timeout a => a.marshal
  | .emitProgress a => a.marshal
  | .tryAction a => a.marshal
  | .parallel a => a.marshal
  | .serial a => a.marshal
  | .codependent a => a.marshal

theorem marshal_ne_null (a : ActionInterface) : a.marshal ≠ .null := by
  rcases a with _ | _ | _ | ⟨⟨⟩⟩ | ⟨⟨⟩⟩ | ⟨⟨⟩⟩ | ⟨⟨⟩⟩ | ⟨⟨⟩⟩ | ⟨⟨⟩⟩ <;>
    simp [marshal, DownloadAction.marshal, UploadAction.marshal, RunAction.marshal,
      TimeoutAction.marshal, EmitProgressAction.marshal, TryAction.marshal, ListAction.marshal,
      encodeStruct_ne_null]

end ActionInterface

/-- What `json.Unmarshal` makes of a zero struct of the kind. -/
def ActionKind.unmarshal (kind : ActionKind) (j : Json) : Option ActionInterface :=
  match kind with
  | .download =>
      (decodeStruct DownloadAction.fieldOf DownloadAction.setField .zero j).map .download
  | .upload => (decodeStruct UploadAction.fieldOf UploadAction.setField .zero j).map .upload
  | .run => (decodeStruct RunAction.fieldOf RunAction.setField .zero j).map .run
  | .timeout =>
      (decodeStruct TimeoutAction.fieldOf (TimeoutAction.setField .zero Action.unmarshal) .zero
        j).map .timeout
  | .emitProgress =>
      (decodeStruct EmitProgressAction.fieldOf
        (EmitProgressAction.setField .zero Action.unmarshal) .zero j).map .emitProgress
  | .tryAction =>
      (decodeStruct TryAction.fieldOf (TryAction.setField .zero Action.unmarshal) .zero
        j).map .tryAction
  | .parallel =>
      (decodeStruct ListAction.fieldOf (ListAction.setField .zero Action.unmarshal) .zero
        j).map .parallel
  | .serial =>
      (decodeStruct ListAction.fieldOf (ListAction.setField .zero Action.unmarshal) .zero
        j).map .serial
  | .codependent =>
      (decodeStruct ListAction.fieldOf (ListAction.setField .zero Action.unmarshal) .zero
        j).map .codependent

/-! ### Reading what was written -/

theorem decode_marshalPointer {o : Option Action}
    (inverse : ∀ w ∈ o.toList, Action.unmarshal .zero w.marshal = some w) :
    decodePointer .zero Action.unmarshal none (marshalPointer o) = some o := by
  rw [marshalPointer_eq]
  refine decodePointer_encodePointer (fun w mem => inverse w ?_) Action.marshal_ne_null
  exact Option.mem_toList.mpr mem

theorem decode_marshalElements {actions : List (Option Action)}
    (inverse : ∀ w ∈ actions.reduceOption, Action.unmarshal .zero w.marshal = some w) :
    decodeSlice none (decodePointer .zero Action.unmarshal) (some [])
      (.arr (marshalElements actions)) = some (some actions) := by
  rw [marshalElements_eq]
  refine decodeSlice_map fun o mem => ?_
  refine decodePointer_encodePointer (fun w same => inverse w ?_) Action.marshal_ne_null
  cases same
  exact List.reduceOption_mem_iff.mpr mem

/-- An action is read as it was written if the wrappers below it are. -/
theorem ActionInterface.unmarshal_marshal_of_children {a : ActionInterface}
    (below : ∀ w ∈ a.children, Action.unmarshal .zero w.marshal = some w) :
    a.kind.unmarshal a.marshal = some a := by
  cases a with
  | download a => simp only [kind, ActionKind.unmarshal, marshal, a.decode_marshal, Option.map_some]
  | upload a => simp only [kind, ActionKind.unmarshal, marshal, a.decode_marshal, Option.map_some]
  | run a => simp only [kind, ActionKind.unmarshal, marshal, a.decode_marshal, Option.map_some]
  | timeout a =>
      have read := a.decode_encode (decode_marshalPointer below)
      cases a
      simp only [kind, ActionKind.unmarshal, marshal, TimeoutAction.marshal, read, Option.map_some]
  | emitProgress a =>
      have read := a.decode_encode (decode_marshalPointer below)
      cases a
      simp only [kind, ActionKind.unmarshal, marshal, EmitProgressAction.marshal, read,
        Option.map_some]
  | tryAction a =>
      have read := a.decode_encode (decode_marshalPointer below)
      cases a
      simp only [kind, ActionKind.unmarshal, marshal, TryAction.marshal, read, Option.map_some]
  | parallel a | serial a | codependent a =>
      have read := a.decode_encode (decode_marshalElements below)
      cases a
      simp only [kind, ActionKind.unmarshal, marshal, ListAction.marshal, read, Option.map_some]

/-- A pointer to an action of one kind, made an action by `wrap`, is read as it was written if
the wrappers below the action are. -/
theorem decode_pointer {A : Type} {zero : A} {decode : A → Json → Option A} {o : Option A}
    (wrap : A → ActionInterface) (pointer : Option A → Json) (injective : Function.Injective wrap)
    (reads : ∀ a j, (wrap a).kind.unmarshal j = (decode zero j).map wrap)
    (absent : pointer none = .null) (present : ∀ a, pointer (some a) = (wrap a).marshal)
    (below : ∀ a ∈ o.toList, ∀ w ∈ (wrap a).children, Action.unmarshal .zero w.marshal = some w) :
    decodePointer zero decode none (pointer o) = some o := by
  refine decodePointer_of_eq absent present (fun a mem => ?_) fun a => (wrap a).marshal_ne_null
  have read := ActionInterface.unmarshal_marshal_of_children (below a (Option.mem_toList.mpr mem))
  rw [reads, Option.map_eq_some_iff] at read
  obtain ⟨a', read, same⟩ := read
  rw [read, injective same]

/-- By induction along all the wrappers: a wrapper is read as it was written, whatever it holds. -/
theorem Action.unmarshal_marshal (w : Action) : unmarshal .zero w.marshal = some w := by
  induction w using Action.induction with
  | node w ih =>
      obtain ⟨download, upload, run, timeout, emitProgress, attempt, parallel, serial, codependent⟩ := w
      simp only [variants, List.forall_mem_append, List.forall_mem_map] at ih
      obtain ⟨⟨⟨⟨⟨⟨⟨⟨ofDownload, ofUpload⟩, ofRun⟩, ofTimeout⟩, ofProgress⟩, ofTry⟩, ofParallel⟩,
        ofSerial⟩, ofCodependent⟩ := ih
      have download' := decode_pointer .download (encodePointer DownloadAction.marshal)
        (fun _ _ => ActionInterface.download.inj) (fun _ _ => rfl) rfl (fun _ => rfl) ofDownload
      have upload' := decode_pointer .upload (encodePointer UploadAction.marshal)
        (fun _ _ => ActionInterface.upload.inj) (fun _ _ => rfl) rfl (fun _ => rfl) ofUpload
      have run' := decode_pointer .run (encodePointer RunAction.marshal)
        (fun _ _ => ActionInterface.run.inj) (fun _ _ => rfl) rfl (fun _ => rfl) ofRun
      have timeout' := decode_pointer .timeout TimeoutAction.marshalPointer
        (fun _ _ => ActionInterface.timeout.inj) (fun _ _ => rfl)
        (by rw [TimeoutAction.marshalPointer])
        (fun _ => by rw [TimeoutAction.marshalPointer, ActionInterface.marshal]) ofTimeout
      have progress' := decode_pointer .emitProgress EmitProgressAction.marshalPointer
        (fun _ _ => ActionInterface.emitProgress.inj) (fun _ _ => rfl)
        (by rw [EmitProgressAction.marshalPointer])
        (fun _ => by rw [EmitProgressAction.marshalPointer, ActionInterface.marshal]) ofProgress
      have attempt' := decode_pointer .tryAction TryAction.marshalPointer
        (fun _ _ => ActionInterface.tryAction.inj) (fun _ _ => rfl)
        (by rw [TryAction.marshalPointer])
        (fun _ => by rw [TryAction.marshalPointer, ActionInterface.marshal]) ofTry
      have parallel' := decode_pointer .parallel ListAction.marshalPointer
        (fun _ _ => ActionInterface.parallel.inj) (fun _ _ => rfl)
        (by rw [ListAction.marshalPointer])
        (fun _ => by rw [ListAction.marshalPointer, ActionInterface.marshal]) ofParallel
      have serial' := decode_pointer .serial ListAction.marshalPointer
        (fun _ _ => ActionInterface.serial.inj) (fun _ _ => rfl)
        (by rw [ListAction.marshalPointer])
        (fun _ => by rw [ListAction.marshalPointer, ActionInterface.marshal]) ofSerial
      have codependent' := decode_pointer .codependent ListAction.marshalPointer
        (fun _ _ => ActionInterface.codependent.inj) (fun _ _ => rfl)
        (by rw [ListAction.marshalPointer])
        (fun _ => by rw [ListAction.marshalPointer, ActionInterface.marshal]) ofCodependent
      simp only [zero] at timeout' progress' attempt' parallel' serial' codependent'
      rw [unmarshal_eq, marshal, decodeStruct_encodeStruct fieldOf_tag]
      · simp [setAll, setField, zero, download', upload', run', timeout', progress', attempt',
          parallel', serial', codependent']
      · simp [Harmless, setField, zero, download', upload', run', timeout', progress', attempt',
          parallel', serial', codependent']

theorem ActionInterface.unmarshal_marshal (a : ActionInterface) :
    a.kind.unmarshal a.marshal = some a :=
  unmarshal_marshal_of_children fun w _ => w.unmarshal_marshal

/-! ### `MarshalAction` and `UnmarshalAction` -/

/-- The `ActionType` constants. -/
def ActionKind.type : ActionKind → String
  | .download => "download"
  | .emitProgress => "emit_progress"
  | .run => "run"
  | .upload => "upload"
  | .timeout => "timeout"
  | .tryAction => "try"
  | .parallel => "parallel"
  | .serial => "serial"
  | .codependent => "codependent"

def ActionInterface.actionType (a : ActionInterface) : String :=
  a.kind.type

/-- The kind of the action that `actionMap` has under a name. -/
def actionMap (name : String) : Option ActionKind :=
  [(ActionKind.download.type, ActionKind.download), (ActionKind.emitProgress.type, .emitProgress),
    (ActionKind.run.type, .run), (ActionKind.upload.type, .upload),
    (ActionKind.timeout.type, .timeout), (ActionKind.tryAction.type, .tryAction),
    (ActionKind.parallel.type, .parallel), (ActionKind.serial.type, .serial),
    (ActionKind.codependent.type, .codependent)].lookup name

/-- Encoding cannot fail. -/
def marshalAction : Option ActionInterface → Json
  | none => .null
  | some a => .obj [(a.actionType, a.marshal)]

/-- The members as a map: of members with one name the last one counts. -/
def rawMembers : List (String × Json) → List (String × Json)
  | [] => []
  | (key, value) :: members =>
      let rest := rawMembers members
      if key ∈ rest.map Prod.fst then rest else (key, value) :: rest

inductive UnmarshalError where
  /-- an error of `encoding/json` -/
  | json
  | error (err : ErrorValue)

/-- What is returned beside an error is left out. -/
def unmarshalAction : Json → Except UnmarshalError (Option ActionInterface)
  | .null => .ok none
  | .obj members =>
      match rawMembers members with
      | [(key, value)] =>
          match actionMap key with
          | none => .error (.error (.text ("Unknown action: " ++ key)))
          | some kind =>
              match kind.unmarshal value with
              | none => .error .json
              | some a => .ok (some a)
      | _ => .error (.error (.invalidField "Invalid action"))
  | _ => .error .json

theorem actionMap_type (kind : ActionKind) : actionMap kind.type = some kind := by
  cases kind <;> decide +kernel

theorem type_of_actionMap {name : String} {kind : ActionKind} (found : actionMap name = some kind) :
    name = kind.type := by
  obtain ⟨before, after, split, -⟩ := List.lookup_eq_some_iff.mp found
  have mem := List.mem_append_right before (List.mem_cons_self (a := (name, kind)) (l := after))
  rw [← split] at mem
  simp only [List.mem_cons, Prod.mk.injEq, List.not_mem_nil, or_false] at mem
  rcases mem with ⟨rfl, rfl⟩ | ⟨rfl, rfl⟩ | ⟨rfl, rfl⟩ | ⟨rfl, rfl⟩ | ⟨rfl, rfl⟩ | ⟨rfl, rfl⟩ |
    ⟨rfl, rfl⟩ | ⟨rfl, rfl⟩ | ⟨rfl, rfl⟩ <;> rfl

theorem mem_rawMembers (members : List (String × Json)) (key : String) :
    key ∈ (rawMembers members).map Prod.fst ↔ key ∈ members.map Prod.fst := by
  induction members with
  | nil => simp [rawMembers]
  | cons p members ih =>
      obtain ⟨first, value⟩ := p
      rw [rawMembers]
      by_cases later : first ∈ (rawMembers members).map Prod.fst
      · rw [if_pos later, ih, List.map_cons, List.mem_cons]
        constructor
        · exact .inr
        · rintro (rfl | mem)
          · exact ih.mp later
          · exact mem
      · rw [if_neg later, List.map_cons, List.map_cons, List.mem_cons, List.mem_cons, ih]

/-- The two tables of names agree, and the wrapper of an action has no other member. -/
theorem marshal_wrapAction (a : ActionInterface) : (wrapAction a).marshal = marshalAction (some a) := by
  cases a <;>
    simp [wrapAction, Action.zero, Action.setValue, Action.marshal, encodeStruct, marshalAction,
      ActionInterface.actionType, ActionInterface.kind, ActionInterface.marshal, ActionKind.type,
      ActionKind.tag, encodePointer, TimeoutAction.marshalPointer,
      EmitProgressAction.marshalPointer, TryAction.marshalPointer, ListAction.marshalPointer]

theorem unmarshalAction_marshalAction (a : ActionInterface) :
    unmarshalAction (marshalAction (some a)) = .ok (some a) := by
  simp only [marshalAction, unmarshalAction, rawMembers, ActionInterface.actionType,
    List.map_nil, List.not_mem_nil, if_false, actionMap_type, a.unmarshal_marshal]

/-- **The JSON codec of actions.** An action is read as it was written and is written as the wrapper
around it is; and what is read as an action from an object has members of one name only, that of
one of the nine types. -/
theorem action_codec :
    (∀ a : ActionInterface, unmarshalAction (marshalAction (some a)) = .ok (some a)) ∧
    (∀ a : ActionInterface, marshalAction (some a) = (wrapAction a).marshal) ∧
    ∀ members a, unmarshalAction (.obj members) = .ok (some a) →
      ∃ kind : ActionKind, ∀ name, name ∈ members.map Prod.fst ↔ name = kind.type := by
  refine ⟨unmarshalAction_marshalAction, fun a => (marshal_wrapAction a).symm, ?_⟩
  intro members a read
  rw [unmarshalAction] at read
  split at read
  · next key value only =>
      split at read
      · cases read
      · next kind found =>
          refine ⟨kind, fun name => ?_⟩
          rw [← mem_rawMembers, only, ← type_of_actionMap found]
          simp
  · cases read

end Bbs.Models
