import Bbs.Etcd.Nodes
import Bbs.Models.DesiredLRP

/-!
The six types of events (`models/events.go`) and the generated `Equal` methods
(`models/events.pb.go` and what it refers to).

`Equal` does not tell a nil slice from an empty one, nor one order of a map from another;
everything else has to be the same.
-/

namespace Bbs.Models

/-! ### Types -/

inductive EventType where
  | desiredLRPCreated
  | desiredLRPChanged
  | desiredLRPRemoved
  | actualLRPCreated
  | actualLRPChanged
  | actualLRPRemoved
  deriving DecidableEq

/-- The `EventType` constants. -/
def EventType.text : EventType → String
  | .desiredLRPCreated => "desired_lrp_created"
  | .desiredLRPChanged => "desired_lrp_changed"
  | .desiredLRPRemoved => "desired_lrp_removed"
  | .actualLRPCreated => "actual_lrp_created"
  | .actualLRPChanged => "actual_lrp_changed"
  | .actualLRPRemoved => "actual_lrp_removed"

/-! ### Events -/

structure DesiredLRPCreatedEvent where
  desiredLrp : Option DesiredLRP

structure DesiredLRPChangedEvent where
  before : Option DesiredLRP
  after : Option DesiredLRP

structure DesiredLRPRemovedEvent where
  desiredLrp : Option DesiredLRP

structure ActualLRPCreatedEvent where
  actualLrpGroup : Option ActualLRPGroup

structure ActualLRPChangedEvent where
  before : Option ActualLRPGroup
  after : Option ActualLRPGroup

structure ActualLRPRemovedEvent where
  actualLrpGroup : Option ActualLRPGroup

inductive Event where
  | desiredLRPCreated (event : DesiredLRPCreatedEvent)
  | desiredLRPChanged (event : DesiredLRPChangedEvent)
  | desiredLRPRemoved (event : DesiredLRPRemovedEvent)
  | actualLRPCreated (event : ActualLRPCreatedEvent)
  | actualLRPChanged (event : ActualLRPChangedEvent)
  | actualLRPRemoved (event : ActualLRPRemovedEvent)

def Event.eventType : Event → EventType
  | .desiredLRPCreated _ => .desiredLRPCreated
  | .desiredLRPChanged _ => .desiredLRPChanged
  | .desiredLRPRemoved _ => .desiredLRPRemoved
  | .actualLRPCreated _ => .actualLRPCreated
  | .actualLRPChanged _ => .actualLRPChanged
  | .actualLRPRemoved _ => .actualLRPRemoved

/-! ### `Equal` -/

def SecurityGroupRule.Equal (this that : SecurityGroupRule) : Prop :=
  this.ports.getD [] = that.ports.getD [] ∧ { this with ports := that.ports } = that

def DesiredLRP.Equal (this that : DesiredLRP) : Prop :=
  Option.Rel List.Perm this.routes that.routes ∧
    List.Forall₂ (Option.Rel SecurityGroupRule.Equal) this.egressRules that.egressRules ∧
    { this with routes := that.routes, egressRules := that.egressRules } = that

def ActualLRP.Equal (this that : ActualLRP) : Prop :=
  this.netInfo.equal (some that.netInfo) = true ∧ { this with netInfo := that.netInfo } = that

def ActualLRPGroup.Equal (this that : ActualLRPGroup) : Prop :=
  Option.Rel ActualLRP.Equal this.inst that.inst ∧
    Option.Rel ActualLRP.Equal this.evacuating that.evacuating

def DesiredLRPCreatedEvent.Equal (this that : DesiredLRPCreatedEvent) : Prop :=
  Option.Rel DesiredLRP.Equal this.desiredLrp that.desiredLrp

def DesiredLRPChangedEvent.Equal (this that : DesiredLRPChangedEvent) : Prop :=
  Option.Rel DesiredLRP.Equal this.before that.before ∧
    Option.Rel DesiredLRP.Equal this.after that.after

def DesiredLRPRemovedEvent.Equal (this that : DesiredLRPRemovedEvent) : Prop :=
  Option.Rel DesiredLRP.Equal this.desiredLrp that.desiredLrp

def ActualLRPCreatedEvent.Equal (this that : ActualLRPCreatedEvent) : Prop :=
  Option.Rel ActualLRPGroup.Equal this.actualLrpGroup that.actualLrpGroup

def ActualLRPChangedEvent.Equal (this that : ActualLRPChangedEvent) : Prop :=
  Option.Rel ActualLRPGroup.Equal this.before that.before ∧
    Option.Rel ActualLRPGroup.Equal this.after that.after

def ActualLRPRemovedEvent.Equal (this that : ActualLRPRemovedEvent) : Prop :=
  Option.Rel ActualLRPGroup.Equal this.actualLrpGroup that.actualLrpGroup

/-- Events of one type that are equal. -/
inductive Event.Equal : Event → Event → Prop where
  | desiredLRPCreated {this that : DesiredLRPCreatedEvent} :
      this.Equal that → Event.Equal (.desiredLRPCreated this) (.desiredLRPCreated that)
  | desiredLRPChanged {this that : DesiredLRPChangedEvent} :
      this.Equal that → Event.Equal (.desiredLRPChanged this) (.desiredLRPChanged that)
  | desiredLRPRemoved {this that : DesiredLRPRemovedEvent} :
      this.Equal that → Event.Equal (.desiredLRPRemoved this) (.desiredLRPRemoved that)
  | actualLRPCreated {this that : ActualLRPCreatedEvent} :
      this.Equal that → Event.Equal (.actualLRPCreated this) (.actualLRPCreated that)
  | actualLRPChanged {this that : ActualLRPChangedEvent} :
      this.Equal that → Event.Equal (.actualLRPChanged this) (.actualLRPChanged that)
  | actualLRPRemoved {this that : ActualLRPRemovedEvent} :
      this.Equal that → Event.Equal (.actualLRPRemoved this) (.actualLRPRemoved that)

theorem Event.Equal.eventType {this that : Event} (equal : this.Equal that) :
    this.eventType = that.eventType := by
  cases equal <;> rfl

end Bbs.Models
