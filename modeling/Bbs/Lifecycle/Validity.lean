import Bbs.Lifecycle.Runs

/-!
Records stay valid and stay where they belong.

Only a claim validates the record it writes. That the other operations write
valid records all the same is an invariant of the whole store: whatever they
read was valid and stood at the path of its own key, and each update keeps both.
The invariant survives every interleaving because a conditional write replaces
the very version that was read.
-/

namespace Bbs.Lifecycle

open Bbs.Interaction Bbs.Versioned Bbs.Models Bbs.Etcd

variable {D ι : Type} [DecidableEq ι]

/-! ### The invariant -/

/-- A path that `ActualLRPSchemaPath` gives to some slot. -/
def InstancePath (path : String) : Prop :=
  ∃ processGuid index, path = actualLRPSchemaPath processGuid index

/-- The path that is recomputed from a record. -/
def ownPath (lrp : ActualLRP) : String :=
  actualLRPSchemaPath lrp.key.processGuid lrp.key.index

/-- Every record under an instance path passes `Validate` and stands at the path of
its own key. -/
def WellPlaced (σ : Records) : Prop :=
  ∀ path node lrp, InstancePath path → σ.nodes path = some node →
    ActualLRP.unmarshal node.value = some lrp → lrp.validate = none ∧ ownPath lrp = path

theorem WellPlaced.write {σ : Records} (h : WellPlaced σ) {path : String} {lrp : ActualLRP}
    (valid : lrp.validate = none) (own : ownPath lrp = path) :
    WellPlaced (σ.write path lrp.marshal) := by
  intro path' node lrp' hpath found decoded
  by_cases here : path' = path
  · subst here
    rw [Store.write_nodes_self] at found
    cases found
    rw [ActualLRP.unmarshal_marshal] at decoded
    cases decoded
    exact ⟨valid, own⟩
  · rw [Store.write_nodes_of_ne σ here] at found
    exact h path' node lrp' hpath found decoded

theorem WellPlaced.erase {σ : Records} (h : WellPlaced σ) (path : String) :
    WellPlaced (σ.erase path) := by
  intro path' node lrp hpath found decoded
  by_cases here : path' = path
  · subst here
    rw [Store.erase_nodes_self] at found
    cases found
  · rw [Store.erase_nodes_of_ne σ here] at found
    exact h path' node lrp hpath found decoded

theorem instancePath_of_path {request : Request} {path : String} (h : request.path = some path) :
    InstancePath path := by
  obtain ⟨s, -, rfl⟩ := Option.map_eq_some_iff.mp h
  exact ⟨s.1, s.2, rfl⟩

theorem WellPlaced.empty : WellPlaced Store.empty := by
  intro path node lrp _ found
  cases found

/-! ### Runs -/

section Served

variable {fromJSON : Json → Option D} {requests : ι → Request} {σ σ' : Records}
  {events l m : List (StoreEvent D ι)} {e : StoreEvent D ι} {pool : ι → Operation D Reply}

/-- All clock readings of the events are non-zero. -/
def ClockRuns (events : List (StoreEvent D ι)) : Prop :=
  ∀ e ∈ events, ∀ now : Int64, e.exchange = ⟨.now, now⟩ → now ≠ 0

/-- A record that is written is valid and goes to the path of its own key, provided
all records that were read before were valid and in their place. -/
theorem Served.put (run : Served fromJSON requests σ (l ++ e :: m) σ' pool)
    (accepted : ∀ t, (requests t).validate = none) (clock : ClockRuns (l ++ e :: m))
    (past : ∀ e' ∈ l, WellPlaced e'.before) {path : String} {value : Json}
    (changes : effect e.exchange = some (.put path value)) :
    InstancePath path ∧ ∃ lrp : ActualLRP, value = lrp.marshal ∧ lrp.validate = none ∧
      ownPath lrp = path := by
  have clockOf (t : ι) (now : Int64) (read : ⟨.now, now⟩ ∈ playOf t l) : now ≠ 0 := by
    obtain ⟨e', he', -, h⟩ := mem_playOf.mp read
    exact clock e' (by simp [he']) now h
  have change := run.change changes
  have accepted := accepted e.thread
  generalize e.exchange = x at change changes
  cases change with
  | swap named seen decoded update read =>
      simp only [effect, Option.some.injEq, Effect.put.injEq] at changes
      obtain ⟨rfl, rfl⟩ := changes
      obtain ⟨e', he', found, -⟩ := run.seen seen
      have instance' := instancePath_of_path named
      obtain ⟨valid, own⟩ := past e' he' _ _ _ instance' found decoded
      have new := update.valid accepted (ActualLRP.validate_eq_none_iff.mp valid)
        fun now hnow => clockOf _ now (read now hnow)
      refine ⟨instance', _, rfl, ActualLRP.validate_eq_none_iff.mpr new, ?_⟩
      rw [ownPath, update.key]
      exact own
  | create started missing seen drawn read =>
      simp only [effect, Option.some.injEq, Effect.put.injEq] at changes
      obtain ⟨rfl, rfl⟩ := changes
      rw [started] at accepted
      obtain ⟨hk, hi, hn⟩ := Request.start_valid accepted
      refine ⟨⟨_, _, rfl⟩, _, rfl, ActualLRP.validate_eq_none_iff.mpr ?_, rfl⟩
      exact runningActualLRP_valid hk hi hn (clockOf _ _ read) _
  | remove => cases changes
  | cleanup => cases changes

theorem Served.wellPlaced (run : Served fromJSON requests σ events σ' pool)
    (start : WellPlaced σ) (accepted : ∀ t, (requests t).validate = none)
    (clock : ClockRuns events) :
    (∀ e ∈ events, WellPlaced e.before ∧ WellPlaced e.after) ∧ WellPlaced σ' := by
  refine run.linked.invariant start fun l e m whole past here => ?_
  have step := run.allowed e (by simp [whole])
  cases changes : effect e.exchange with
  | none => rwa [etcd_of_effect_none step changes]
  | some made =>
      rw [etcd_of_effect_some step changes]
      cases made with
      | put path value =>
          subst whole
          obtain ⟨-, lrp, rfl, valid, own⟩ :=
            run.put accepted clock (fun e' he' => (past e' he').1) changes
          exact here.write valid own
      | drop path => exact here.erase path

/-- A conditional delete, whatever comes of it, names the path and the version that
its request read, up to the path recomputed from the record. -/
theorem Served.compareAndDelete (run : Served fromJSON requests σ (l ++ e :: m) σ' pool)
    {path : String} {prevIndex : Nat} (called : e.call = .compareAndDelete path prevIndex) :
    ∃ read node lrp, (requests e.thread).path = some read ∧ got read node ∈ playOf e.thread l ∧
      ActualLRP.unmarshal node.value = some lrp ∧ path = ownPath lrp ∧
        prevIndex = node.modifiedIndex := by
  obtain ⟨q, play⟩ := run.plays_upto
  -- the call does not depend on its answer, so let the delete have been applied
  rcases e with ⟨t, before, c, answer, after⟩
  simp only at called
  subst called
  obtain ⟨q', play⟩ := play.reanswer (.ok ())
  have change := Request.change play (show effect _ = some (.drop path) from rfl)
  exact change.removed

/-- **Records stay valid and in place.** In every interleaving of accepted requests
on a well-placed store, with a running clock, every store is well placed, every
record that is written is valid and goes to the path of its own key, and every
conditional delete addresses the node that its request read. -/
theorem records_stay_valid_and_placed (run : Served fromJSON requests σ events σ' pool)
    (start : WellPlaced σ) (accepted : ∀ t, (requests t).validate = none)
    (clock : ClockRuns events) :
    (∀ e ∈ events, WellPlaced e.after) ∧
      (∀ e ∈ events, ∀ path value, effect e.exchange = some (.put path value) →
        InstancePath path ∧ ∃ lrp : ActualLRP, value = lrp.marshal ∧ lrp.validate = none ∧
          ownPath lrp = path) ∧
      ∀ l e m path prevIndex, events = l ++ e :: m → e.call = .compareAndDelete path prevIndex →
        (requests e.thread).path = some path ∧
          ∃ node, got path node ∈ playOf e.thread l ∧ prevIndex = node.modifiedIndex := by
  obtain ⟨always, -⟩ := run.wellPlaced start accepted clock
  refine ⟨fun e he => (always e he).2, fun e he path value changes => ?_, ?_⟩
  · obtain ⟨l, m, rfl⟩ := List.append_of_mem he
    exact run.put accepted clock (fun e' he' => (always e' (by simp [he'])).1) changes
  · rintro l e m path prevIndex rfl called
    obtain ⟨read, node, lrp, named, seen, decoded, rfl, version⟩ := run.compareAndDelete called
    obtain ⟨e', he', found, -⟩ := run.seen seen
    obtain ⟨-, own⟩ := (always e' (by simp [he'])).1 read node lrp
      (instancePath_of_path named) found decoded
    rw [own]
    exact ⟨named, node, seen, version⟩

end Served

/-- The unclaimed sample record after an instance started on it. -/
def sampleStarted : ActualLRP :=
  sampleUnclaimed.startedBy (sampleInstance 1) sampleNetInfo 2

/-- An instance starts on a record that a retire has read; the retire then deletes the
version that the start wrote. -/
def retireAfterStart : List (StoreEvent Unit Bool) :=
  let σ := sampleStore sampleUnclaimed
  let σ₁ := σ.write samplePath sampleStarted.marshal
  [⟨false, σ, .get samplePath, .ok (.leaf ⟨sampleUnclaimed.marshal, 1⟩), σ⟩,
    ⟨true, σ, .get samplePath, .ok (.leaf ⟨sampleUnclaimed.marshal, 1⟩), σ⟩,
    ⟨true, σ, .now, (2 : Int64), σ⟩,
    ⟨true, σ, .compareAndSwap samplePath sampleStarted.marshal 1, .ok (), σ₁⟩,
    ⟨false, σ₁, .compareAndDelete samplePath 1, .error ⟨101⟩, σ₁⟩,
    ⟨false, σ₁, .get samplePath, .ok (.leaf ⟨sampleStarted.marshal, 2⟩), σ₁⟩,
    ⟨false, σ₁, .cellById "cell", .error ErrResourceNotFound, σ₁⟩,
    ⟨false, σ₁, .compareAndDelete samplePath 2, .ok (), σ₁.erase samplePath⟩]

def retireAfterStartRequests (t : Bool) : Request :=
  if t then sampleStart 1 else .retire sampleRetire

theorem retireAfterStart_served : Served (fun _ => none) retireAfterStartRequests
    (sampleStore sampleUnclaimed) retireAfterStart
    (((sampleStore sampleUnclaimed).write samplePath sampleStarted.marshal).erase samplePath)
    fun t => if t then .ret (.ok (some sampleStarted)) else .ret (.ok none) := by
  have unclaimed := sampleStore_nodes sampleUnclaimed
  have started : ((sampleStore sampleUnclaimed).write samplePath
      sampleStarted.marshal).nodes samplePath = some ⟨sampleStarted.marshal, 2⟩ :=
    Store.write_nodes_self _ _ _
  refine Run.of_plays ⟨rfl, rfl, rfl, rfl, rfl, rfl, rfl, rfl, rfl⟩ ?_ ?_
  · intro e mem
    simp only [retireAfterStart, List.mem_cons, List.not_mem_nil, or_false] at mem
    rcases mem with rfl | rfl | rfl | rfl | rfl | rfl | rfl | rfl
    · exact ⟨unclaimed, rfl⟩
    · exact ⟨unclaimed, rfl⟩
    · exact ⟨trivial, rfl⟩
    · exact ⟨⟨_, unclaimed, rfl⟩, rfl⟩
    · exact ⟨trivial, rfl⟩
    · exact ⟨started, rfl⟩
    · exact ⟨trivial, rfl⟩
    · exact ⟨⟨_, started, rfl⟩, rfl⟩
  · rintro (_ | _)
    · exact sampleRetire_returns rfl (by decide)
    · have success : Success (fun _ => none) (sampleStart 1)
          [got samplePath ⟨sampleUnclaimed.marshal, 1⟩, ⟨.now, (2 : Int64)⟩,
            swapped samplePath sampleStarted 1] (some sampleStarted) :=
        .swap (D := Unit) rfl (ActualLRP.unmarshal_marshal _)
          (.start (by decide) (by decide)) rfl
      exact success.returns

theorem sampleStore_wellPlaced : WellPlaced (sampleStore sampleUnclaimed) :=
  WellPlaced.empty.write (by decide) rfl

theorem records_stay_valid_and_placed_retireAfterStart :
    WellPlaced (sampleStore sampleUnclaimed) ∧
      (∀ t, (retireAfterStartRequests t).validate = none) ∧ ClockRuns retireAfterStart ∧
      (∀ e ∈ retireAfterStart, WellPlaced e.after) ∧
      (∃ lrp : ActualLRP, sampleStarted.marshal = lrp.marshal ∧ lrp.validate = none ∧
        ownPath lrp = samplePath) ∧
      ∃ node, got samplePath node ∈ playOf false (retireAfterStart.take 7) ∧
        2 = node.modifiedIndex := by
  have accepted : ∀ t, (retireAfterStartRequests t).validate = none := by decide
  have clock : ClockRuns retireAfterStart := by
    intro e mem now read
    simp only [retireAfterStart, List.mem_cons, List.not_mem_nil, or_false] at mem
    rcases mem with rfl | rfl | rfl | rfl | rfl | rfl | rfl | rfl <;> cases read
    decide
  obtain ⟨placed, written, deleted⟩ := records_stay_valid_and_placed retireAfterStart_served
    sampleStore_wellPlaced accepted clock
  have swap := List.getElem_mem (show 3 < retireAfterStart.length from by decide)
  exact ⟨sampleStore_wellPlaced, accepted, clock, placed, (written _ swap _ _ rfl).2,
    (deleted (retireAfterStart.take 7) _ [] _ _ rfl rfl).2⟩

end Bbs.Lifecycle
