import Bbs.Lease
import Bbs.Lifecycle.Serial

/-!
A running instance keeps its slot until it gives it up.

Served one at a time, the requests obey the rules of a lease (`Bbs.Lease`): the
holder of a slot is the instance of its claimed or running record, and each turn
is a deed that the rules allow (`Turn.Executed.deed`). What holds of leases along
any number of deeds then holds of slots along any run of requests.
-/

namespace Bbs.Lifecycle

open Bbs.Interaction Bbs.Versioned Bbs.Models Bbs.Etcd Bbs.Lease

variable {D : Type} {fromJSON : Json → Option D}

/-! ### Slots as leases -/

/-- Who holds a slot with the given record. -/
def holderOf : Option ActualLRP → Holder ActualLRPInstanceKey
  | none => .nobody
  | some lrp =>
      match lrp.state with
      | .claimed => .claimed lrp.instanceKey
      | .running => .running lrp.instanceKey
      | _ => .nobody

/-- The turn deleted the record at `path`, by a remove, a retire or the clean-up of a
crash. -/
def Deleted (path : String) (u : Turn D) : Prop :=
  Succeeded path u ∧ u.before.nodes path ≠ none ∧ u.after.nodes path = none ∧
    ((∃ guid index, u.request = .remove guid index) ∨ (∃ retire, u.request = .retire retire) ∨
      ∃ crash, u.request = .crash crash)

/-- What a deed on the slot at `path` means for the turn that did it. -/
def Did (path : String) (u : Turn D) : Deed ActualLRPInstanceKey → Prop
  | .idle => True
  | .claim k => Succeeded path u ∧
      ∃ claim, u.request = .claim claim ∧ claim.actualLrpInstanceKey = some k
  | .start k => Succeeded path u ∧
      ∃ start, u.request = .start start ∧ start.actualLrpInstanceKey = some k
  | .crash k => Succeeded path u ∧
      ∃ crash, u.request = .crash crash ∧ crash.actualLrpInstanceKey = some k
  | .delete => Deleted path u

@[simp]
theorem holderOf_claimedBy (lrp : ActualLRP) (instanceKey : ActualLRPInstanceKey) :
    holderOf (some (lrp.claimedBy instanceKey)) = .claimed instanceKey :=
  rfl

@[simp]
theorem holderOf_startedBy (lrp : ActualLRP) (instanceKey : ActualLRPInstanceKey)
    (netInfo : ActualLRPNetInfo) (now : Int64) :
    holderOf (some (lrp.startedBy instanceKey netInfo now)) = .running instanceKey :=
  rfl

/-- A crash leaves nobody holding the slot. -/
theorem holderOf_crashOutcome (lrp : ActualLRP) (readAt now : Int64) (errorMessage : String) :
    holderOf (some (lrp.crashOutcome readAt now errorMessage)) = .nobody := by
  by_cases restart : lrp.newCrashCount readAt < defaultImmediateRestarts
  · simp [holderOf, ActualLRP.crashOutcome, restart]
  · simp [holderOf, ActualLRP.crashOutcome, restart]

/-- An update is a deed that the rules of the lease allow. -/
theorem Update.deed {path : String} {u : Turn D} (ok : Succeeded path u) {lrp new : ActualLRP}
    {clocks : List Int64} (update : Update u.request lrp clocks new) :
    ∃ d, Did path u d ∧ Step (holderOf (some lrp)) d (holderOf (some new)) := by
  generalize hr : u.request = request at update
  have holder : holderOf (some lrp) = match lrp.state with
      | .claimed => .claimed lrp.instanceKey
      | .running => .running lrp.instanceKey
      | _ => .nobody := rfl
  cases update with
  | @claim r instanceKey _ carried allowed checked =>
      obtain ⟨-, held⟩ := ActualLRP.allowsTransitionTo_iff.mp allowed
      have did : Did path u (.claim instanceKey) := ⟨ok, r, hr, carried⟩
      cases state : lrp.state with
      | claimed =>
          have same : instanceKey = lrp.instanceKey := by
            simpa [state] using held (.inl state) (.inl rfl)
          subst same
          exact ⟨.idle, trivial, by simpa [holder, state] using Step.idle _⟩
      | running =>
          have same : instanceKey = lrp.instanceKey := by
            simpa [state] using held (.inr state) (.inl rfl)
          subst same
          exact ⟨_, did, by simpa [holder, state] using Step.revert _⟩
      | unclaimed | crashed | other =>
          exact ⟨_, did, by simpa [holder, state] using Step.claim _⟩
  | @start key instanceKey netInfo _ now different allowed =>
      obtain ⟨-, held⟩ := ActualLRP.allowsTransitionTo_iff.mp allowed
      have did : Did path u (.start instanceKey) := ⟨ok, _, hr, rfl⟩
      cases state : lrp.state with
      | claimed => exact ⟨_, did, by simpa [holder, state] using Step.override _ _⟩
      | running =>
          have same : instanceKey = lrp.instanceKey := by
            simpa [state] using held (.inr state) (.inr rfl)
          subst same
          exact ⟨.idle, trivial, by simpa [holder, state] using Step.idle _⟩
      | unclaimed | crashed | other =>
          exact ⟨_, did, by simpa [holder, state] using Step.start _⟩
  | @crash r _ readAt now allowed crashes =>
      obtain ⟨unclaimed, crashed, own⟩ := ActualLRP.cannotCrash_eq_false.mp crashes
      rw [holderOf_crashOutcome]
      cases state : lrp.state with
      | claimed =>
          have did : Did path u (.crash lrp.instanceKey) := ⟨ok, r, hr, own (.inl state)⟩
          exact ⟨_, did, by simpa [holder, state] using Step.crashClaimed _⟩
      | running =>
          have did : Did path u (.crash lrp.instanceKey) := ⟨ok, r, hr, own (.inr state)⟩
          exact ⟨_, did, by simpa [holder, state] using Step.crashRunning _⟩
      | unclaimed => exact absurd state unclaimed
      | crashed => exact absurd state crashed
      | other => exact ⟨.idle, trivial, by simpa [holder, state] using Step.idle _⟩
  | fail unclaimed =>
      exact ⟨.idle, trivial, by simpa [holderOf, ActualLRP.failedWith, unclaimed] using Step.idle _⟩

variable {u : Turn D} {turns : List (Turn D)} {σ σ' : Records}

/-- A turn is a deed that the rules of the lease allow, for every slot. -/
theorem Turn.Executed.deed (executed : u.Executed fromJSON) (path : String) :
    ∃ d, Did path u d ∧
      Step (holderOf (recordAt path u.before)) d (holderOf (recordAt path u.after)) := by
  cases executed.touch path with
  | kept same =>
      refine ⟨.idle, trivial, ?_⟩
      rw [recordAt, recordAt, same]
      exact .idle _
  | updated ok found update wrote =>
      rw [found, wrote]
      exact Update.deed ok update
  | @cleaned crash _ _ ok crashed found _ _ gone =>
      refine ⟨.delete, ⟨ok, nodes_ne_none_of_recordAt found, gone, .inr (.inr ⟨crash, crashed⟩)⟩, ?_⟩
      rw [recordAt_of_vacant gone]
      exact .delete _
  | @created _ instanceKey _ _ _ ok started vacant _ wrote =>
      refine ⟨.start instanceKey, ⟨ok, _, started, rfl⟩, ?_⟩
      rw [recordAt_of_vacant vacant, wrote]
      exact .start _
  | removed ok removal found gone =>
      refine ⟨.delete, ⟨ok, nodes_ne_none_of_recordAt found, gone, removal.imp_right .inl⟩, ?_⟩
      rw [recordAt_of_vacant gone]
      exact .delete _

/-- The turns of a run are the deeds of a lease. -/
theorem Serial.path (serial : Serial fromJSON σ turns σ') (path : String) :
    ∃ deeds, List.Forall₂ (Did path) turns deeds ∧
      Path (holderOf (recordAt path σ)) deeds (holderOf (recordAt path σ')) := by
  induction serial with
  | nil σ => exact ⟨[], .nil, .nil _⟩
  | cons executed _ ih =>
      obtain ⟨d, did, step⟩ := executed.deed path
      obtain ⟨deeds, rest, along⟩ := ih
      exact ⟨d :: deeds, .cons did rest, .cons step along⟩

theorem exists_turn_of_deed {path : String} {deeds : List (Deed ActualLRPInstanceKey)}
    (did : List.Forall₂ (Did path) turns deeds) {d : Deed ActualLRPInstanceKey} (hd : d ∈ deeds) :
    ∃ u ∈ turns, Did path u d := by
  induction did with
  | nil => cases hd
  | cons first _ ih =>
      rcases List.mem_cons.mp hd with rfl | hd
      · exact ⟨_, List.mem_cons_self, first⟩
      · obtain ⟨u, hu, did⟩ := ih hd
        exact ⟨u, List.mem_cons_of_mem _ hu, did⟩

/-! ### Keeping a slot -/

/-- A running instance keeps its slot until it gives it up, and a claim lasts until
somebody starts, its own instance crashes or the record is deleted. The stretch
between two points of a run is itself a run, from the one store to the other. -/
theorem running_instance_keeps_slot (path : String) (serial : Serial fromJSON σ turns σ')
    {lrp lrp' : ActualLRP}
    (earlier : recordAt path σ = some lrp)
    (later : recordAt path σ' = some lrp')
    (other : lrp'.instanceKey ≠ lrp.instanceKey) :
    (lrp.state = .running → lrp'.state = .claimed ∨ lrp'.state = .running →
      ∃ u ∈ turns,
        (Succeeded path u ∧
          ((∃ crash, u.request = .crash crash ∧
              crash.actualLrpInstanceKey = some lrp.instanceKey) ∨
            ∃ claim, u.request = .claim claim ∧
              claim.actualLrpInstanceKey = some lrp.instanceKey)) ∨
        Deleted path u) ∧
    (lrp.state = .claimed → lrp'.state = .claimed →
      ∃ u ∈ turns,
        (Succeeded path u ∧
          ((∃ start, u.request = .start start) ∨
            ∃ crash, u.request = .crash crash ∧
              crash.actualLrpInstanceKey = some lrp.instanceKey)) ∨
        Deleted path u) := by
  obtain ⟨deeds, did, along⟩ := serial.path path
  rw [earlier, later] at along
  constructor
  · intro running taken
    simp only [holderOf, running] at along
    rcases along.running_or_yields with same | ⟨d, hd, yields⟩
    · rcases taken with state | state
      · simp [state] at same
      · simp only [state, Holder.running.injEq] at same
        exact absurd same other
    · obtain ⟨u, hu, done⟩ := exists_turn_of_deed did hd
      refine ⟨u, hu, ?_⟩
      rcases yields with rfl | rfl | rfl
      · exact .inl ⟨done.1, .inr done.2⟩
      · exact .inl ⟨done.1, .inl done.2⟩
      · exact .inr done
  · intro claimed claimed'
    simp only [holderOf, claimed, claimed'] at along
    rcases along.claimed_or_ends with same | ⟨d, hd, ends⟩
    · exact absurd (Holder.claimed.inj same) other
    · obtain ⟨u, hu, done⟩ := exists_turn_of_deed did hd
      refine ⟨u, hu, ?_⟩
      rcases ends with ⟨j, rfl⟩ | rfl | rfl
      · exact .inl ⟨done.1, .inl (done.2.imp fun _ => And.left)⟩
      · exact .inl ⟨done.1, .inr done.2⟩
      · exact .inr done

/-- After `sampleRevert` another instance starts. -/
def sampleTakeover : Turn Unit :=
  swapTurn (sampleStart 1) sampleRevert.after samplePath
    ⟨((sampleRunning 0).claimedBy (sampleInstance 0)).marshal, 2⟩ [2]
    (((sampleRunning 0).claimedBy (sampleInstance 0)).startedBy (sampleInstance 1) sampleNetInfo 2) []

theorem sampleTakeover_executed : sampleTakeover.Executed fun _ => none :=
  swapTurn_executed rfl (Store.write_nodes_self _ _ _) (ActualLRP.unmarshal_marshal _)
    (.start (by decide) (by decide)) rfl (.nil _)

theorem running_instance_keeps_slot_takeover :
    ∃ u ∈ [sampleRevert, sampleTakeover], (Succeeded samplePath u ∧
        ((∃ crash, u.request = .crash crash ∧
            crash.actualLrpInstanceKey = some (sampleInstance 0)) ∨
          ∃ claim, u.request = .claim claim ∧
            claim.actualLrpInstanceKey = some (sampleInstance 0))) ∨
      Deleted samplePath u := by
  have serial : Serial (fun _ => none) (sampleStore (sampleRunning 0))
      [sampleRevert, sampleTakeover] sampleTakeover.after :=
    .cons sampleRevert_executed (.cons sampleTakeover_executed (.nil _))
  exact (running_instance_keeps_slot samplePath serial (recordAt_write _ _ (sampleRunning 0))
    (recordAt_write _ _ _) (by decide)).1 rfl (.inr rfl)

end Bbs.Lifecycle
