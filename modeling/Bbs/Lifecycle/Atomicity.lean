import Bbs.Lifecycle.Linearization

/-!
Requests are all or nothing.

Whatever etcd, consul, the cells and the auctioneer answer, a request that returns
an error has changed nothing, and a request that succeeds has changed nothing but
the instance node of its own slot. Both are said of interleaved runs; one request
on its own is the case of a single thread.
-/

namespace Bbs.Lifecycle

open Bbs.Interaction Bbs.Versioned Bbs.Models Bbs.Etcd

variable {D ι : Type} [DecidableEq ι] {fromJSON : Json → Option D} {requests : ι → Request}
  {σ σ' : Records} {events : List (StoreEvent D ι)} {e : StoreEvent D ι}
  {pool : ι → Operation D Reply} {t : ι}

/-- No event of a request that failed has changed the store. -/
theorem Served.unchanged_of_error (run : Served fromJSON requests σ events σ' pool)
    {failure : Failure} (failed : pool t = .ret (.error failure)) (he : e ∈ events)
    (own : e.thread = t) : e.after = e.before := by
  have returns : Returns ((requests t).program fromJSON) (playOf t events) (.error failure) := by
    have play := run.plays t
    rwa [failed] at play
  have quiet := Request.returns_error returns e.exchange (mem_playOf.mpr ⟨e, he, own, rfl⟩)
  exact etcd_of_effect_none (run.allowed e he) quiet

/-- **Failed requests change nothing, and successful ones touch only their own slot.**
If a request of a run returned an error, then the run without this request is a run
from the same store to the same store. If it returned success, then each of its events
left every node as it was, except the instance node of its own slot; evacuating nodes
are among those it left. -/
theorem requests_are_atomic (run : Served fromJSON requests σ events σ' pool) (t : ι) :
    (∀ failure, pool t = .ret (.error failure) →
      Served fromJSON requests σ (events.filter fun e => e.thread ≠ t) σ'
          (Function.update pool t ((requests t).program fromJSON)) ∧
        ∀ e ∈ events, e.thread = t → e.after = e.before) ∧
    (∀ value, pool t = .ret (.ok value) → ∀ e ∈ events, e.thread = t →
      (∀ path, (requests t).path ≠ some path → e.after.nodes path = e.before.nodes path) ∧
        ∀ processGuid index,
          e.after.nodes (evacuatingActualLRPSchemaPath processGuid index) =
            e.before.nodes (evacuatingActualLRPSchemaPath processGuid index)) := by
  constructor
  · intro failure failed
    have inert : ∀ e ∈ events, e.thread = t → e.after = e.before :=
      fun e he own => run.unchanged_of_error failed he own
    exact ⟨run.without inert, inert⟩
  · rintro value - e he rfl
    refine ⟨fun path other => run.confined he other, fun processGuid index => run.confined he ?_⟩
    intro named
    obtain ⟨slot, -, same⟩ := Option.map_eq_some_iff.mp named
    exact evacuating_ne_instance processGuid slot.1 index slot.2 same.symm

/-- In the race that the claim wins, the start could as well not have been made, and the
claim changed the slot only. -/
theorem requests_are_atomic_claimBeatsStart :
    (∃ pool, Served (fun _ => none) claimBeatsStartRequests (sampleStore sampleUnclaimed)
      (claimBeatsStart.filter fun e => e.thread ≠ true)
      ((sampleStore sampleUnclaimed).write samplePath
        (sampleUnclaimed.claimedBy (sampleInstance 0)).marshal) pool) ∧
    ∀ e ∈ claimBeatsStart, e.thread = false → ∀ path, some samplePath ≠ some path →
      e.after.nodes path = e.before.nodes path := by
  obtain ⟨failed, -⟩ := requests_are_atomic claimBeatsStart_served true
  obtain ⟨-, succeeded⟩ := requests_are_atomic claimBeatsStart_served false
  exact ⟨⟨_, (failed _ rfl).1⟩, fun e he own => (succeeded _ rfl e he own).1⟩

end Bbs.Lifecycle
