import Bbs.Interaction.Interleaving
import Bbs.Etcd.Changes

/-!
Interleaved runs of lifecycle requests.

A pool serves one request per thread, and every call of every request is a step
of its own. The facts here connect what a request saw in its past to the stores
it saw it in: `Served.change` finds for every change of the store the exchanges
that entitled the request to it, and `Served.version_seen` turns a version that
was read into the node that is being replaced now.
-/

namespace Bbs.Lifecycle

open Bbs.Interaction Bbs.Versioned Bbs.Models Bbs.Etcd

variable {D ι : Type} [DecidableEq ι]

abbrev StoreEvent (D ι : Type) : Type :=
  Event ι Records (Call D) Answer

/-- The result of a request. -/
abbrev Reply : Type :=
  Except Failure (Option ActualLRP)

/-- A run in which thread `t` serves `requests t`. -/
abbrev Served (fromJSON : Json → Option D) (requests : ι → Request) (σ : Records)
    (events : List (StoreEvent D ι)) (σ' : Records) (pool : ι → Operation D Reply) : Prop :=
  Run etcd σ (fun t => (requests t).program fromJSON) events σ' pool

section Served

variable {fromJSON : Json → Option D} {requests : ι → Request} {σ σ' : Records}
  {events l m : List (StoreEvent D ι)} {e : StoreEvent D ι} {pool : ι → Operation D Reply}

/-- Every change is entitled to by the past of its thread. -/
theorem Served.change (run : Served fromJSON requests σ (l ++ e :: m) σ' pool) {made : Effect}
    (changes : effect e.exchange = some made) :
    Change (requests e.thread) (playOf e.thread l) e.exchange := by
  obtain ⟨q, play⟩ := run.plays_upto
  exact Request.change play changes

/-- Stores get later along a run. -/
theorem Served.ordered (run : Served fromJSON requests σ events σ' pool) :
    σ ≤ σ' ∧ (∀ e ∈ events, σ ≤ e.before ∧ e.after ≤ σ') ∧
      events.Pairwise fun e e' => e.after ≤ e'.before :=
  run.linked.ordered fun e he => etcd_le (run.allowed e he)

omit [DecidableEq ι] in
/-- A leaf that was read was in the store. -/
theorem nodes_of_got {path : String} {node : Node Json} (allowed : etcd e.before e.call e.answer e.after)
    (read : e.exchange = got path node) : e.before.nodes path = some node ∧ e.after = e.before := by
  rcases e with ⟨t, before, c, answer, after⟩
  simp only [Event.exchange, Exchange.mk.injEq] at read
  obtain ⟨rfl, read⟩ := read
  cases read
  exact ⟨allowed.1, allowed.2⟩

/-- A leaf that a thread has read was in an earlier store. -/
theorem Served.seen (run : Served fromJSON requests σ (l ++ e :: m) σ' pool) {t : ι}
    {path : String} {node : Node Json} (read : got path node ∈ playOf t l) :
    ∃ e' ∈ l, e'.before.nodes path = some node ∧ e'.before ≤ e.before := by
  obtain ⟨e', he', -, h⟩ := mem_playOf.mp read
  obtain ⟨found, same⟩ := nodes_of_got (run.allowed e' (by simp [he'])) h
  refine ⟨e', he', found, ?_⟩
  obtain ⟨-, -, pairs⟩ := run.ordered
  have later := (List.pairwise_append.mp pairs).2.2 e' he' e List.mem_cons_self
  rwa [same] at later

/-- **A version that was read names the node that was read.** If the store now
holds, under any path, a version that a thread read earlier, then it is that node
under that path. -/
theorem Served.version_seen (run : Served fromJSON requests σ (l ++ e :: m) σ' pool) {t : ι}
    {path path' : String} {node : Node Json} (read : got path node ∈ playOf t l)
    (holds : HoldsVersion e.before path' node.modifiedIndex) :
    path' = path ∧ e.before.nodes path = some node := by
  obtain ⟨e', -, found, later⟩ := run.seen read
  obtain ⟨node', now, same⟩ := holds
  obtain ⟨rfl, rfl⟩ := Store.eq_of_version later found now same
  exact ⟨rfl, now⟩

/-- **A request changes nothing but the node of its own slot.** -/
theorem Served.effect_path (run : Served fromJSON requests σ (l ++ e :: m) σ' pool) {made : Effect}
    (changes : effect e.exchange = some made) : (requests e.thread).path = some made.path := by
  have change := run.change changes
  have allowed := (run.allowed e (by simp)).1
  change Allowed e.before e.exchange.call e.exchange.answer at allowed
  generalize e.exchange = x at change changes allowed
  cases change with
  | swap named seen decoded update read =>
      simp only [effect, Option.some.injEq] at changes
      subst changes
      exact named
  | create started missing seen drawn read =>
      simp only [effect, Option.some.injEq] at changes
      subst changes
      rw [started]
      rfl
  | remove named seen decoded =>
      simp only [effect, Option.some.injEq] at changes
      subst changes
      -- the path comes from the record, but the version was read at the slot's own path
      obtain ⟨same, -⟩ := run.version_seen seen allowed
      rw [named, ← same]
      rfl
  | cleanup crashed keyed =>
      simp only [effect, Option.some.injEq] at changes
      subst changes
      rw [crashed, Request.path, Request.slot, keyed]
      rfl

/-- An event leaves every node as it was, except the node of its request's slot. -/
theorem Served.confined (run : Served fromJSON requests σ events σ' pool) (he : e ∈ events)
    {path : String} (other : (requests e.thread).path ≠ some path) :
    e.after.nodes path = e.before.nodes path := by
  have step := run.allowed e he
  cases changes : effect e.exchange with
  | none => rw [etcd_of_effect_none step changes]
  | some made =>
      obtain ⟨l, m, rfl⟩ := List.append_of_mem he
      have own := run.effect_path changes
      rw [etcd_of_effect_some step changes]
      exact made.apply_nodes_of_ne _ fun same => other (by rw [own, same])

/-- Where no request of a run points, nothing changes. -/
theorem Served.other_paths (run : Served fromJSON requests σ events σ' pool) {path : String}
    (elsewhere : ∀ t, (requests t).path ≠ some path) :
    (∀ e ∈ events, e.before.nodes path = σ.nodes path ∧ e.after.nodes path = σ.nodes path) ∧
      σ'.nodes path = σ.nodes path := by
  refine run.linked.invariant (I := fun τ => τ.nodes path = σ.nodes path) rfl
    fun l e m whole past here => ?_
  rw [run.confined (by simp [whole]) (elsewhere e.thread), here]

end Served

/-! ### A sample slot -/

def sampleKey : ActualLRPKey :=
  ⟨"process", 0, "domain"⟩

def sampleInstance (n : Nat) : ActualLRPInstanceKey :=
  ⟨"instance-" ++ toString n, "cell"⟩

def sampleNetInfo : ActualLRPNetInfo :=
  ⟨"10.0.0.1", none⟩

def samplePath : String :=
  actualLRPSchemaPath sampleKey.processGuid sampleKey.index

def sampleStart (n : Nat) : Request :=
  .start ⟨some sampleKey, some (sampleInstance n), some sampleNetInfo⟩

def sampleEpoch (n : Nat) : String :=
  "epoch-" ++ toString n

def sampleRunning (n : Nat) : ActualLRP :=
  runningActualLRP sampleKey (sampleInstance n) sampleNetInfo 1 (sampleEpoch n)

/-- A store that holds one record, at the sample path. -/
def sampleStore (lrp : ActualLRP) : Records :=
  Store.empty.write samplePath lrp.marshal

theorem sampleStore_nodes (lrp : ActualLRP) :
    (sampleStore lrp).nodes samplePath = some ⟨lrp.marshal, 1⟩ :=
  Store.write_nodes_self _ _ _

def sampleUnclaimed : ActualLRP where
  key := sampleKey
  instanceKey := ⟨"", ""⟩
  netInfo := emptyActualLRPNetInfo
  crashCount := 0
  crashReason := ""
  state := .unclaimed
  placementError := ""
  since := 1
  modificationTag := ⟨sampleEpoch 0, 0⟩

def sampleClaim (n : Nat) : Request :=
  .claim ⟨sampleKey.processGuid, sampleKey.index, some (sampleInstance n)⟩

/-- The sample record after it was claimed. -/
def sampleClaimed : ActualLRP :=
  sampleUnclaimed.claimedBy (sampleInstance 1)

def sampleCrash : CrashActualLRPRequest :=
  ⟨some sampleKey, some (sampleInstance 0), "crashed"⟩

/-- The sample record after its instance crashed. -/
def sampleCrashed : ActualLRP :=
  (sampleRunning 0).crashOutcome 2 2 "crashed"

def desiredPath : String :=
  desiredLRPSchemaPathByProcessGuid sampleKey.processGuid

/-- The crash puts the sample record back to unclaimed, and then asks for an auction. -/
theorem sampleCrash_returns {D : Type} {fromJSON : Json → Option D}
    {tail : List (Exchange (Call D) Answer)} (auction : Auction fromJSON sampleKey tail) :
    Returns (crashActualLRP fromJSON sampleCrash)
      (got samplePath ⟨(sampleRunning 0).marshal, 1⟩ :: ⟨.now, (2 : Int64)⟩ ::
        ⟨.now, (2 : Int64)⟩ :: swapped samplePath sampleCrashed 1 :: tail) (.ok ()) := by
  have unclaimed : sampleCrashed.state = .unclaimed := by decide
  have closing : Closing fromJSON (.crash sampleCrash) sampleCrashed tail := by
    simp only [Closing, unclaimed, if_true]
    exact ⟨sampleKey, rfl, auction⟩
  exact crash_returns rfl (ActualLRP.unmarshal_marshal _) (by decide) (by decide) closing

def sampleRetire : RetireActualLRPRequest :=
  ⟨some sampleKey⟩

/-- A retire whose record is taken by an instance after it was read. The second attempt
finds the cell of the instance gone. -/
theorem sampleRetire_returns {D : Type} {fromJSON : Json → Option D} {taken : ActualLRP}
    (placed : taken.key = sampleKey)
    (held : ¬ (taken.state = .unclaimed ∨ taken.state = .crashed)) :
    Returns ((Request.retire sampleRetire).program fromJSON)
      [got samplePath ⟨sampleUnclaimed.marshal, 1⟩, ⟨.compareAndDelete samplePath 1, .error ⟨101⟩⟩,
        got samplePath ⟨taken.marshal, 2⟩,
        ⟨.cellById taken.instanceKey.cellId, .error ErrResourceNotFound⟩,
        removed samplePath 2] (.ok none) := by
  have unheld : sampleUnclaimed.state = .unclaimed := rfl
  have slot : actualLRPSchemaPath sampleKey.processGuid sampleKey.index = samplePath := rfl
  have own : sampleUnclaimed.key = sampleKey := rfl
  refine Returns.map_iff.mpr ⟨.ok (), ?_, rfl⟩
  simp only [retireActualLRP, sampleRetire]
  refine Returns.map_iff.mpr ⟨.ok (), ?_, rfl⟩
  simp [retireActualLRPRetryAttempts, retireLoop, rawActualLRP_eq, retireOnce, removeActualLRP,
    unheld, held, slot, own, placed]

end Bbs.Lifecycle
