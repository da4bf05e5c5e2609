import Bbs.Protobuf.Safety
import Bbs.Wire.Events
import Bbs.Wire.Task

/-!
The messages that clients and the BBS exchange: bodies of requests and responses, and events.

For every type of message that is sent: what `Marshal` returns, `Unmarshal` reads back as something
that equals it (`body_roundTrip`), also if fields that the reader does not know stand in between
(`unmarshal_ignores_unknown_fields`). On data without long varints `Unmarshal` always returns
(`unmarshal_returns_of_tame`), but there are short bodies that it never returns on, and others that
it panics on (`unmarshal_negative_length`).
-/

namespace Bbs.Models

open Bbs.Protobuf

/-! ### Errors and domains -/

/-- `models.Error` as it is sent. The type is any text. -/
structure ProtoError where
  type : String
  message : String
  deriving DecidableEq

namespace ProtoError

def fields : List (MessageField ProtoError) :=
  [.string 1 "Type" type fun m v => { m with type := v },
    .string 2 "Message" message fun m v => { m with message := v }]

def proto : Message ProtoError :=
  .ofFields ⟨"", ""⟩ fields id

theorem roundTrips : proto.RoundTrips fields Eq where
  generated := Message.ofFields_generated (by decide) (by simp [Fills, fields])
  sound := by simp [fields]
  equal _ := rfl

end ProtoError

/-- What the domains handler answers with. -/
structure Domains where
  domains : List String
  deriving DecidableEq

namespace Domains

def fields : List (MessageField Domains) :=
  [.repeatedString 1 "Domains" domains fun _ v => ⟨v⟩]

def message : Message Domains :=
  .ofFields ⟨[]⟩ fields id

theorem roundTrips : message.RoundTrips fields Eq where
  generated := Message.ofFields_generated (by decide) fun _ =>
    .repeatedString ⟨fun _ _ => rfl, fun _ _ _ => rfl, rfl, rfl⟩ rfl
  sound := by simp [fields]
  equal _ := rfl

end Domains

/-! ### Decoders that return -/

section

open MessageField

variable (n : Nat)

theorem ProtoError.safe : ProtoError.proto.SafeBelow n :=
  Message.ofFields_safe _ (by simp [fields]) _

theorem Domains.safe : Domains.message.SafeBelow n :=
  Message.ofFields_safe _ (by simp [fields]) _

theorem ModificationTag.safe : ModificationTag.message.SafeBelow n :=
  Message.ofFields_safe _ (by simp [fields]) _

theorem ActualLRPKey.safe : ActualLRPKey.message.SafeBelow n :=
  Message.ofFields_safe _ (by simp [fields]) _

theorem ActualLRPInstanceKey.safe : ActualLRPInstanceKey.message.SafeBelow n :=
  Message.ofFields_safe _ (by simp [fields]) _

theorem PortMapping.safe : PortMapping.message.SafeBelow n :=
  Message.ofFields_safe _ (by simp [fields]) _

theorem ActualLRPNetInfo.safe : ActualLRPNetInfo.message.SafeBelow n :=
  Message.ofFields_safe _ (by simp [fields, repeatedMessage_safe, PortMapping.safe]) _

theorem ActualLRP.safe : ActualLRP.message.SafeBelow n :=
  Message.ofFields_safe _ (by simp [fields, embedded_safe, ActualLRPKey.safe,
    ActualLRPInstanceKey.safe, ActualLRPNetInfo.safe, ModificationTag.safe]) _

theorem ActualLRPGroup.safe : ActualLRPGroup.message.SafeBelow n :=
  Message.ofFields_safe _ (by simp [fields, optional_safe, ActualLRP.safe]) _

theorem ActualLRPGroups.safe : ActualLRPGroups.message.SafeBelow n :=
  Message.ofFields_safe _ (by simp [fields, repeatedMessage_safe, ActualLRPGroup.safe]) _

theorem ClaimActualLRPRequest.safe : ClaimActualLRPRequest.message.SafeBelow n :=
  Message.ofFields_safe _ (by simp [fields, optional_safe, ActualLRPInstanceKey.safe]) _

theorem StartActualLRPRequest.safe : StartActualLRPRequest.message.SafeBelow n :=
  Message.ofFields_safe _ (by simp [fields, optional_safe, ActualLRPKey.safe,
    ActualLRPInstanceKey.safe, ActualLRPNetInfo.safe]) _

theorem CrashActualLRPRequest.safe : CrashActualLRPRequest.message.SafeBelow n :=
  Message.ofFields_safe _ (by simp [fields, optional_safe, ActualLRPKey.safe,
    ActualLRPInstanceKey.safe]) _

theorem FailActualLRPRequest.safe : FailActualLRPRequest.message.SafeBelow n :=
  Message.ofFields_safe _ (by simp [fields, optional_safe, ActualLRPKey.safe]) _

theorem RetireActualLRPRequest.safe : RetireActualLRPRequest.message.SafeBelow n :=
  Message.ofFields_safe _ (by simp [fields, optional_safe, ActualLRPKey.safe]) _

theorem EnvironmentVariable.safe : EnvironmentVariable.message.SafeBelow n :=
  Message.ofFields_safe _ (by simp [fields]) _

theorem DownloadAction.safe : DownloadAction.message.SafeBelow n :=
  Message.ofFields_safe _ (by simp [fields]) _

theorem UploadAction.safe : UploadAction.message.SafeBelow n :=
  Message.ofFields_safe _ (by simp [fields]) _

theorem ResourceLimits.safe : ResourceLimits.message.SafeBelow n :=
  Message.ofFields_safe _ (by simp [fields]) _

theorem RunAction.safe : RunAction.message.SafeBelow n :=
  Message.ofFields_safe _ (by simp [fields, repeatedMessage_safe, optional_safe,
    EnvironmentVariable.safe, ResourceLimits.safe]) _

section

variable {inner : Message Action} (safe : inner.SafeBelow n)
include safe

theorem TimeoutAction.safe_around : (TimeoutAction.message inner).SafeBelow n :=
  Message.ofFields_safe _ (by simp [TimeoutAction.fields, optional_safe, safe]) _

theorem EmitProgressAction.safe_around : (EmitProgressAction.message inner).SafeBelow n :=
  Message.ofFields_safe _ (by simp [EmitProgressAction.fields, optional_safe, safe]) _

theorem TryAction.safe_around : (TryAction.message inner).SafeBelow n :=
  Message.ofFields_safe _ (by simp [TryAction.fields, optional_safe, safe]) _

theorem ListAction.safe_around : (ListAction.message inner).SafeBelow n :=
  Message.ofFields_safe _ (by simp [ListAction.fields, repeatedMessage_safe, safe]) _

end

/-- By induction on the fuel: the wrappers inside are read with less of it. -/
theorem Action.safe : Action.message.SafeBelow n := by
  induction n with
  | zero =>
    refine ⟨fun fuel below => ?_, fun fuel below => ?_⟩
    · cases below
    · cases below
  | succ n ih =>
    have safe : ∀ field ∈ Action.fields Action.message, field.SafeBelow n := by
      simp [Action.fields, optional_safe, DownloadAction.safe, UploadAction.safe, RunAction.safe,
        TimeoutAction.safe_around n ih, EmitProgressAction.safe_around n ih,
        TryAction.safe_around n ih, ListAction.safe_around n ih]
    rw [Message.SafeBelow]
    change SafeBelow (n + 1) Action.unmarshalProto
    rw [Action.unmarshalProto_eq]
    exact unmarshal_safe safe

theorem PortRange.safe : PortRange.message.SafeBelow n :=
  Message.ofFields_safe _ (by simp [fields]) _

theorem ICMPInfo.safe : ICMPInfo.message.SafeBelow n :=
  Message.ofFields_safe _ (by simp [fields]) _

theorem SecurityGroupRule.safe : SecurityGroupRule.message.SafeBelow n :=
  Message.ofFields_safe _ (by simp [fields, optional_safe, PortRange.safe, ICMPInfo.safe]) _

theorem Routes.safe : Routes.message.SafeBelow n := by
  have entries : ProtoRoutes.message.SafeBelow n :=
    Message.ofFields_safe _ (by simp [ProtoRoutes.fields]) _
  refine ⟨fun fuel below data routes => ?_, fun fuel below data routes tame small enough => ?_⟩
  · exact (entries.fuel fuel below data []).andThen fun _ => .rfl
  · exact (entries.returns fuel below data [] tame small enough).andThen fun _ _ => .ok trivial

theorem DesiredLRP.safe : DesiredLRP.message.SafeBelow n :=
  Message.ofFields_safe _ (by simp [fields, optional_safe, custom_safe, repeatedMessage_safe,
    EnvironmentVariable.safe, Action.safe, Routes.safe, SecurityGroupRule.safe,
    ModificationTag.safe]) _

theorem DesiredLRPs.safe : DesiredLRPs.message.SafeBelow n :=
  Message.ofFields_safe _ (by simp [fields, repeatedMessage_safe, DesiredLRP.safe]) _

theorem Task.safe : Task.message.SafeBelow n :=
  Message.ofFields_safe _ (by simp [fields, optional_safe, repeatedMessage_safe,
    EnvironmentVariable.safe, Action.safe, SecurityGroupRule.safe]) _

theorem Tasks.safe : Tasks.message.SafeBelow n :=
  Message.ofFields_safe _ (by simp [fields, repeatedMessage_safe, Task.safe]) _

theorem DesiredLRPCreatedEvent.safe : DesiredLRPCreatedEvent.message.SafeBelow n :=
  Message.ofFields_safe _ (by simp [fields, optional_safe, DesiredLRP.safe]) _

theorem DesiredLRPChangedEvent.safe : DesiredLRPChangedEvent.message.SafeBelow n :=
  Message.ofFields_safe _ (by simp [fields, optional_safe, DesiredLRP.safe]) _

theorem DesiredLRPRemovedEvent.safe : DesiredLRPRemovedEvent.message.SafeBelow n :=
  Message.ofFields_safe _ (by simp [fields, optional_safe, DesiredLRP.safe]) _

theorem ActualLRPCreatedEvent.safe : ActualLRPCreatedEvent.message.SafeBelow n :=
  Message.ofFields_safe _ (by simp [fields, optional_safe, ActualLRPGroup.safe]) _

theorem ActualLRPChangedEvent.safe : ActualLRPChangedEvent.message.SafeBelow n :=
  Message.ofFields_safe _ (by simp [fields, optional_safe, ActualLRPGroup.safe]) _

theorem ActualLRPRemovedEvent.safe : ActualLRPRemovedEvent.message.SafeBelow n :=
  Message.ofFields_safe _ (by simp [fields, optional_safe, ActualLRPGroup.safe]) _

end

end Bbs.Models

namespace Bbs.Wire

open Bbs.Models Bbs.Protobuf Bbs.Utf8

/-! ### All types -/

/-- A message type and what is known of its generated methods. -/
structure MessageType where
  M : Type
  message : Message M
  fields : List (MessageField M)
  Equal : M → M → Prop
  roundTrips : message.RoundTrips fields Equal
  safe : ∀ n, message.SafeBelow n
  slices : ∀ field ∈ fields, field.Slices

/-- The messages that are sent, as bodies and events or as parts of them. Of `ProtoRoutes`, which a
desired LRP is sent with, there is none on its own. -/
inductive Body where
  | claimActualLRPRequest
  | startActualLRPRequest
  | crashActualLRPRequest
  | failActualLRPRequest
  | retireActualLRPRequest
  | actualLRP
  | actualLRPGroup
  | actualLRPGroups
  | desiredLRP
  | desiredLRPs
  | task
  | tasks
  | domains
  | error
  | desiredLRPCreatedEvent
  | desiredLRPChangedEvent
  | desiredLRPRemovedEvent
  | actualLRPCreatedEvent
  | actualLRPChangedEvent
  | actualLRPRemovedEvent
  | modificationTag
  | actualLRPKey
  | actualLRPInstanceKey
  | portMapping
  | actualLRPNetInfo
  | environmentVariable
  | portRange
  | icmpInfo
  | securityGroupRule
  | action
  | downloadAction
  | uploadAction
  | resourceLimits
  | runAction
  | timeoutAction
  | emitProgressAction
  | tryAction
  /-- `ParallelAction`, `SerialAction` or `CodependentAction` -/
  | listAction

def Body.type : Body → MessageType
  | .claimActualLRPRequest => ⟨_, _, _, _, ClaimActualLRPRequest.roundTrips,
      ClaimActualLRPRequest.safe, by simp [ClaimActualLRPRequest.fields]⟩
  | .startActualLRPRequest => ⟨_, _, _, _, StartActualLRPRequest.roundTrips,
      StartActualLRPRequest.safe, by simp [StartActualLRPRequest.fields]⟩
  | .crashActualLRPRequest => ⟨_, _, _, _, CrashActualLRPRequest.roundTrips,
      CrashActualLRPRequest.safe, by simp [CrashActualLRPRequest.fields]⟩
  | .failActualLRPRequest => ⟨_, _, _, _, FailActualLRPRequest.roundTrips,
      FailActualLRPRequest.safe, by simp [FailActualLRPRequest.fields]⟩
  | .retireActualLRPRequest => ⟨_, _, _, _, RetireActualLRPRequest.roundTrips,
      RetireActualLRPRequest.safe, by simp [RetireActualLRPRequest.fields]⟩
  | .actualLRP => ⟨_, _, _, _, ActualLRP.roundTrips, ActualLRP.safe, by simp [ActualLRP.fields]⟩
  | .actualLRPGroup => ⟨_, _, _, _, ActualLRPGroup.roundTrips, ActualLRPGroup.safe,
      by simp [ActualLRPGroup.fields]⟩
  | .actualLRPGroups => ⟨_, _, _, _, ActualLRPGroups.roundTrips, ActualLRPGroups.safe,
      by simp [ActualLRPGroups.fields]⟩
  | .desiredLRP => ⟨_, _, _, _, DesiredLRP.roundTrips, DesiredLRP.safe,
      by simp [DesiredLRP.fields]⟩
  | .desiredLRPs => ⟨_, _, _, _, DesiredLRPs.roundTrips, DesiredLRPs.safe,
      by simp [DesiredLRPs.fields]⟩
  | .task => ⟨_, _, _, _, Task.roundTrips, Task.safe, by simp [Task.fields]⟩
  | .tasks => ⟨_, _, _, _, Tasks.roundTrips, Tasks.safe, by simp [Tasks.fields]⟩
  | .domains => ⟨_, _, _, _, Domains.roundTrips, Domains.safe, by simp [Domains.fields]⟩
  | .error => ⟨_, _, _, _, ProtoError.roundTrips, ProtoError.safe, by simp [ProtoError.fields]⟩
  | .desiredLRPCreatedEvent => ⟨_, _, _, _, DesiredLRPCreatedEvent.roundTrips,
      DesiredLRPCreatedEvent.safe, by simp [DesiredLRPCreatedEvent.fields]⟩
  | .desiredLRPChangedEvent => ⟨_, _, _, _, DesiredLRPChangedEvent.roundTrips,
      DesiredLRPChangedEvent.safe, by simp [DesiredLRPChangedEvent.fields]⟩
  | .desiredLRPRemovedEvent => ⟨_, _, _, _, DesiredLRPRemovedEvent.roundTrips,
      DesiredLRPRemovedEvent.safe, by simp [DesiredLRPRemovedEvent.fields]⟩
  | .actualLRPCreatedEvent => ⟨_, _, _, _, ActualLRPCreatedEvent.roundTrips,
      ActualLRPCreatedEvent.safe, by simp [ActualLRPCreatedEvent.fields]⟩
  | .actualLRPChangedEvent => ⟨_, _, _, _, ActualLRPChangedEvent.roundTrips,
      ActualLRPChangedEvent.safe, by simp [ActualLRPChangedEvent.fields]⟩
  | .actualLRPRemovedEvent => ⟨_, _, _, _, ActualLRPRemovedEvent.roundTrips,
      ActualLRPRemovedEvent.safe, by simp [ActualLRPRemovedEvent.fields]⟩
  | .modificationTag => ⟨_, _, _, _, ModificationTag.roundTrips, ModificationTag.safe,
      by simp [ModificationTag.fields]⟩
  | .actualLRPKey => ⟨_, _, _, _, ActualLRPKey.roundTrips, ActualLRPKey.safe,
      by simp [ActualLRPKey.fields]⟩
  | .actualLRPInstanceKey => ⟨_, _, _, _, ActualLRPInstanceKey.roundTrips,
      ActualLRPInstanceKey.safe, by simp [ActualLRPInstanceKey.fields]⟩
  | .portMapping => ⟨_, _, _, _, PortMapping.roundTrips, PortMapping.safe,
      by simp [PortMapping.fields]⟩
  | .actualLRPNetInfo => ⟨_, _, _, _, ActualLRPNetInfo.roundTrips, ActualLRPNetInfo.safe,
      by simp [ActualLRPNetInfo.fields]⟩
  | .environmentVariable => ⟨_, _, _, _, EnvironmentVariable.roundTrips, EnvironmentVariable.safe,
      by simp [EnvironmentVariable.fields]⟩
  | .portRange => ⟨_, _, _, _, PortRange.roundTrips, PortRange.safe, by simp [PortRange.fields]⟩
  | .icmpInfo => ⟨_, _, _, _, ICMPInfo.roundTrips, ICMPInfo.safe, by simp [ICMPInfo.fields]⟩
  | .securityGroupRule => ⟨_, _, _, _, SecurityGroupRule.roundTrips, SecurityGroupRule.safe,
      by simp [SecurityGroupRule.fields]⟩
  | .action => ⟨_, _, _, _, Action.roundTrips, Action.safe, by simp [Action.fields]⟩
  | .downloadAction => ⟨_, _, _, _, DownloadAction.roundTrips, DownloadAction.safe,
      by simp [DownloadAction.fields]⟩
  | .uploadAction => ⟨_, _, _, _, UploadAction.roundTrips, UploadAction.safe,
      by simp [UploadAction.fields]⟩
  | .resourceLimits => ⟨_, _, _, _, ResourceLimits.roundTrips, ResourceLimits.safe,
      by simp [ResourceLimits.fields]⟩
  | .runAction => ⟨_, _, _, _, RunAction.roundTrips, RunAction.safe, by simp [RunAction.fields]⟩
  | .timeoutAction => ⟨_, _, _, _, TimeoutAction.roundTrips,
      fun n => TimeoutAction.safe_around n (Action.safe n), by simp [TimeoutAction.fields]⟩
  | .emitProgressAction => ⟨_, _, _, _, EmitProgressAction.roundTrips,
      fun n => EmitProgressAction.safe_around n (Action.safe n),
      by simp [EmitProgressAction.fields]⟩
  | .tryAction => ⟨_, _, _, _, TryAction.roundTrips,
      fun n => TryAction.safe_around n (Action.safe n), by simp [TryAction.fields]⟩
  | .listAction => ⟨_, _, _, _, ListAction.roundTrips,
      fun n => ListAction.safe_around n (Action.safe n), by simp [ListAction.fields]⟩

/-! ### Reading what was written -/

/-- `Marshal` fills a buffer of the size that `Size` computes, and `Unmarshal` gets back what was
written. -/
theorem body_roundTrip (body : Body) (m : body.type.M) {data : List UInt8}
    (marshalled : body.type.message.marshal m = some data) :
    body.type.message.size m = some data.length ∧
      ∃ m', Decodes body.type.message.read data body.type.message.zero m' ∧
        body.type.Equal m' m :=
  ⟨Message.size_eq marshalled, body.type.roundTrips.decodes marshalled⟩

theorem body_roundTrip_claim :
    ClaimActualLRPRequest.message.size ⟨"guid", 1, none⟩ = some 8 ∧
      ∃ m', Decodes ClaimActualLRPRequest.message.read [10, 4, 103, 117, 105, 100, 16, 1]
        ClaimActualLRPRequest.message.zero m' ∧ m' = ⟨"guid", 1, none⟩ := by
  have marshalled : ClaimActualLRPRequest.message.marshal ⟨"guid", 1, none⟩ =
      some [10, 4, 103, 117, 105, 100, 16, 1] := by
    decide +kernel
  exact body_roundTrip .claimActualLRPRequest ⟨"guid", 1, none⟩ marshalled

/-- Fields of other versions of the message, of whatever wire type, may stand anywhere between the
fields. -/
theorem unmarshal_ignores_unknown_fields (body : Body) (m : body.type.M) {items : List Item}
    (written : body.type.message.write m = some items) {data : List UInt8}
    (woven : Woven (switch body.type.fields) items data) (small : data.length < 2 ^ 63) :
    ∃ m', Decodes body.type.message.read data body.type.message.zero m' ∧ body.type.Equal m' m :=
  ⟨_, body.type.roundTrips.generated.reads (body.type.roundTrips.sound m) written woven small,
    body.type.roundTrips.equal m⟩

/-- A group with a number in it, between the process guid and the index. -/
theorem unmarshal_ignores_group :
    ∃ m', Decodes ClaimActualLRPRequest.message.read
      [10, 4, 103, 117, 105, 100, 75, 8, 5, 76, 16, 1] ClaimActualLRPRequest.message.zero m' ∧
        m' = ⟨"guid", 1, none⟩ := by
  have data_eq : [10, 4, 103, 117, 105, 100, 75, 8, 5, 76, 16, 1] =
      (Item.bytes 1 (utf8 "guid")).tag ++ ((Item.bytes 1 (utf8 "guid")).payload ++
        ((Foreign.group 9 [.varint 1 5]).tag ++ ((Foreign.group 9 [.varint 1 5]).payload ++
          ((Item.varint 2 1).tag ++ ((Item.varint 2 1).payload ++ []))))) := by
    decide +kernel
  rw [data_eq]
  exact unmarshal_ignores_unknown_fields .claimActualLRPRequest ⟨"guid", 1, none⟩ rfl
    (.item _ (.foreign _ rfl (by decide) (.item _ .nil))) (by decide +kernel)

/-! ### Reading anything -/

/-- On data in which every varint is below 2 ^ 62, and so no length makes the index overflow or move
back, `Unmarshal` returns a message or an error. -/
theorem unmarshal_returns_of_tame (body : Body) {data : List UInt8} (tame : Tame data)
    (small : data.length < 2 ^ 61) (m : body.type.M) :
    (∃ m', outcome body.type.message.read data m = some (.ok m')) ∨
      ∃ e, outcome body.type.message.read data m = some (.error e) :=
  Message.outcome_of_safe body.type.safe tame small m

theorem unmarshal_returns_of_two_bytes :
    (∃ m', outcome Domains.message.read [10, 1] ⟨[]⟩ = some (.ok m')) ∨
      ∃ e, outcome Domains.message.read [10, 1] ⟨[]⟩ = some (.error e) := by
  exact unmarshal_returns_of_tame .domains (tame_of_low (by decide +kernel)) (by decide) ⟨[]⟩

/-- A length is not checked for its sign. Behind the tag of a field of the message it makes the
slice expression panic, and behind another tag it may lead back to that tag. -/
theorem unmarshal_negative_length (body : Body) (num back : Nat) (after : List UInt8)
    (pos : 0 < back) (short : back ≤ 2 ^ 63) (size : (backward num back ++ after).length < 2 ^ 63) :
    (∀ field ∈ body.type.fields, field.num = num → field.read.wireType = 2 → ∀ fuel m,
      body.type.message.read (fuel + 1) (backward num back ++ after) m = some .panic) ∧
    (num < 2 ^ 29 → (∀ field ∈ body.type.fields, field.num ≠ num) →
      (backward num back).length = back → ∀ fuel m,
        body.type.message.read fuel (backward num back ++ after) m = none) := by
  have generated := body.type.roundTrips.generated
  rw [generated.read]
  refine ⟨?_, ?_⟩
  · rintro field mem rfl type fuel m
    exact unmarshal_panics generated.numbered mem (body.type.slices field mem) type pos short size
      fuel m
  · intro number unknown whole fuel m
    have none_found : (switch body.type.fields).lookup num = none := by
      rw [List.lookup_eq_none_iff]
      intro entry mem
      obtain ⟨field, of_field, rfl⟩ := List.mem_map.1 mem
      exact bne_iff_ne.2 (unknown field of_field).symm
    exact unmarshalLoop_circle none_found number whole short (At.zero _) size fuel m

theorem unmarshal_negative_length_of_domains :
    (∀ fuel m, Domains.message.read (fuel + 1) (backward 1 1 ++ []) m = some .panic) ∧
      ∀ fuel m, Domains.message.read fuel (backward 2 11 ++ []) m = none := by
  refine ⟨?_, ?_⟩
  · exact (unmarshal_negative_length .domains 1 1 [] (by decide) (by decide) (by decide +kernel)).1
      _ List.mem_cons_self rfl rfl
  · refine (unmarshal_negative_length .domains 2 11 [] (by decide) (by decide)
      (by decide +kernel)).2 (by decide) ?_ (by decide +kernel)
    intro field mem
    obtain rfl := List.mem_singleton.1 mem
    decide

/-! ### The codecs for events -/

section

variable {M : Type} {message : Message M} {fields : List (MessageField M)} {Equal : M → M → Prop}
  {data : List UInt8}

end

end Bbs.Wire
