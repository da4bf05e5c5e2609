import Bbs.Lifecycle.Serial

/-!
What the clean-up of a crash deletes.

A crash that restarts the instance immediately first writes the record back as
unclaimed and then looks for the desired LRP. If there is none it deletes the
record, and this delete, unlike that of a removal, names no version. So it deletes
whatever the slot holds by then: the record that the crash wrote exactly when
nobody else wrote in between (`crash_deletes_own_version_iff`), and otherwise the
work of another request, be it a claim that was granted (`crash_deletes_claimed`).
-/

namespace Bbs.Lifecycle

open Bbs.Interaction Bbs.Versioned Bbs.Models Bbs.Etcd

variable {D ι : Type} [DecidableEq ι] {fromJSON : Json → Option D} {requests : ι → Request}
  {σ σ' : Records} {l m r : List (StoreEvent D ι)} {e : StoreEvent D ι}
  {pool : ι → Operation D Reply}

/-! ### Where a crash stands when it deletes -/

/-- Only a crash deletes without naming a version. By then it has put the record back
to unclaimed, by its only change so far, and has been told that there is no desired
LRP. -/
theorem Served.cleanup (run : Served fromJSON requests σ (l ++ e :: r) σ' pool) {path : String}
    (deletes : e.exchange = ⟨.delete path, .ok ()⟩) :
    ∃ crash earlier lrp version lookup,
      requests e.thread = .crash crash ∧ Quiet earlier ∧ lrp.state = .unclaimed ∧
        effect lookup = none ∧ playOf e.thread l = earlier ++ [swapped path lrp version, lookup] := by
  have drops : effect e.exchange = some (.drop path) := by rw [deletes]; rfl
  have change := run.change drops
  generalize playOf e.thread l = past at change
  rw [deletes] at change
  generalize hx : (⟨.delete path, .ok ()⟩ : Exchange (Call D) Answer) = x at change
  cases change with
  | cleanup crashed keyed quiet unclaimed missing wrote =>
      simp only [Exchange.mk.injEq, Call.delete.injEq] at hx
      obtain ⟨rfl, -⟩ := hx
      exact ⟨_, _, _, _, _, crashed, quiet, unclaimed, rfl, wrote⟩
  | swap | create | remove => simp at hx

/-! ### What the slot holds by then -/

/-- The event writes at `path`. -/
def Writes (path : String) (e : StoreEvent D ι) : Prop :=
  ∃ value, effect e.exchange = some (.put path value)

omit [DecidableEq ι] in
/-- As long as nobody writes at a path, its node stays or is gone. -/
theorem same_or_gone {path : String} {τ τ' : Records} (linked : Linked τ m τ')
    (allowed : ∀ e ∈ m, etcd e.before e.call e.answer e.after)
    (unwritten : ∀ e ∈ m, ¬ Writes path e) :
    τ'.nodes path = τ.nodes path ∨ τ'.nodes path = none := by
  refine (linked.invariant (I := fun υ => υ.nodes path = τ.nodes path ∨ υ.nodes path = none)
    (.inl rfl) ?_).2
  intro l e r whole _ here
  have he : e ∈ m := by simp [whole]
  have step := allowed e he
  cases changes : effect e.exchange with
  | none =>
      rwa [etcd_of_effect_none step changes]
  | some made =>
      rw [etcd_of_effect_some step changes]
      by_cases own : path = made.path
      · cases made with
        | put path' value =>
            obtain rfl : path = path' := own
            exact absurd ⟨value, changes⟩ (unwritten e he)
        | drop path' =>
            obtain rfl : path = path' := own
            exact .inr (Store.erase_nodes_self _ _)
      · rwa [made.apply_nodes_of_ne _ own]

/-- **A crash deletes its own version exactly when nobody else wrote in between.** The
delete of a crash comes after the conditional write by which the same request put the
record back to unclaimed. It deletes that version if and only if, between the two, no
other request wrote the slot. -/
theorem crash_deletes_own_version_iff
    (run : Served fromJSON requests σ (l ++ e :: r) σ' pool) {path : String}
    (deletes : e.exchange = ⟨.delete path, .ok ()⟩) :
    ∃ l₁ e₀ m lrp version, l = l₁ ++ e₀ :: m ∧ e₀.thread = e.thread ∧
      e₀.exchange = swapped path lrp version ∧ lrp.state = .unclaimed ∧
      (∃ crash, requests e.thread = .crash crash) ∧
      (e.before.nodes path = e₀.after.nodes path ↔
        ∀ e' ∈ m, e'.thread ≠ e.thread → ¬ Writes path e') := by
  obtain ⟨crash, earlier, lrp, version, lookup, crashed, -, unclaimed, inert, past⟩ :=
    run.cleanup deletes
  obtain ⟨l₁, e₀, m, rfl, own, wrote, -, rest⟩ := exists_of_playOf_eq past
  refine ⟨l₁, e₀, m, lrp, version, rfl, own, wrote, unclaimed, ⟨crash, crashed⟩, ?_⟩
  have present : e.before.nodes path ≠ none := by
    have allowed : Allowed e.before e.exchange.call e.exchange.answer :=
      (run.allowed e (by simp)).1
    rwa [deletes] at allowed
  constructor
  · -- another write would have made a newer version
    rintro same e' he' - ⟨value, writes⟩
    obtain ⟨node, found⟩ := Option.ne_none_iff_exists'.mp present
    obtain ⟨-, -, pairs⟩ := run.ordered
    obtain ⟨first, -, across⟩ := List.pairwise_append.mp pairs
    have before : e₀.after ≤ e'.before :=
      (List.pairwise_cons.mp (List.pairwise_append.mp first).2.1).1 e' he'
    have made : e'.after = e'.before.write path value :=
      etcd_of_effect_some (run.allowed e' (by simp [he'])) writes
    have after : e'.before.write path value ≤ e.before :=
      made ▸ across e' (by simp [he']) e List.mem_cons_self
    exact Store.nodes_ne_of_write (same.symm.trans found) before after found
  · intro others
    -- the request itself only looked up the desired LRP in between
    have unwritten : ∀ e' ∈ m, ¬ Writes path e' := by
      rintro e' he' ⟨value, writes⟩
      by_cases mine : e'.thread = e.thread
      · have hx : e'.exchange ∈ playOf e.thread m := mem_playOf.mpr ⟨e', he', mine, rfl⟩
        rw [rest, List.mem_singleton] at hx
        rw [hx, inert] at writes
        cases writes
      · exact others e' he' mine ⟨value, writes⟩
    rcases same_or_gone run.linked.between (fun e' he' => run.allowed e' (by simp [he']))
      unwritten with same | gone
    · exact same
    · exact absurd gone present

/-! ### Two runs -/

/-- What the crash of the sample instance exchanges when there is no desired LRP. -/
theorem sampleCleanup_returns :
    Returns ((Request.crash sampleCrash).program fun _ => (none : Option Unit))
      [got samplePath ⟨(sampleRunning 0).marshal, 1⟩, ⟨.now, (2 : Int64)⟩, ⟨.now, (2 : Int64)⟩,
        swapped samplePath sampleCrashed 1, ⟨.get desiredPath, .error ⟨100⟩⟩,
        ⟨.delete samplePath, .ok ()⟩, ⟨.requestLRPAuctions [⟨none, [0]⟩], .ok ()⟩] (.ok none) := by
  exact Returns.map_iff.mpr ⟨_, sampleCrash_returns (.deleted rfl), rfl⟩

/-- The events of the crash up to its look-up of the desired LRP. -/
def crashUntilLookup {ι : Type} (t : ι) : List (StoreEvent Unit ι) :=
  let σ := sampleStore (sampleRunning 0)
  let σ₁ := σ.write samplePath sampleCrashed.marshal
  [⟨t, σ, .get samplePath, .ok (.leaf ⟨(sampleRunning 0).marshal, 1⟩), σ⟩,
    ⟨t, σ, .now, (2 : Int64), σ⟩, ⟨t, σ, .now, (2 : Int64), σ⟩,
    ⟨t, σ, .compareAndSwap samplePath sampleCrashed.marshal 1, .ok (), σ₁⟩,
    ⟨t, σ₁, .get desiredPath, .error ⟨100⟩, σ₁⟩]

theorem crashUntilLookup_allowed {ι : Type} (t : ι) :
    ∀ e ∈ crashUntilLookup t, etcd e.before e.call e.answer e.after := by
  intro e he
  have found := sampleStore_nodes (sampleRunning 0)
  simp only [crashUntilLookup, List.mem_cons, List.not_mem_nil, or_false] at he
  rcases he with rfl | rfl | rfl | rfl | rfl
  · exact ⟨found, rfl⟩
  · exact ⟨trivial, rfl⟩
  · exact ⟨trivial, rfl⟩
  · exact ⟨⟨_, found, rfl⟩, rfl⟩
  · refine ⟨fun _ => ?_, rfl⟩
    have other : desiredPath ≠ samplePath := desired_ne_instance _ _
    simp [sampleStore, other]

/-- The events of the crash from its delete on, in the store `σ`. -/
def cleanupFrom {ι : Type} (t : ι) (σ : Records) : List (StoreEvent Unit ι) :=
  [⟨t, σ, .delete samplePath, .ok (), σ.erase samplePath⟩,
    ⟨t, σ.erase samplePath, .requestLRPAuctions [⟨none, [0]⟩], .ok (), σ.erase samplePath⟩]

theorem cleanupFrom_allowed {ι : Type} (t : ι) {σ : Records} (present : σ.nodes samplePath ≠ none) :
    ∀ e ∈ cleanupFrom t σ, etcd e.before e.call e.answer e.after := by
  intro e he
  simp only [cleanupFrom, List.mem_cons, List.not_mem_nil, or_false] at he
  rcases he with rfl | rfl
  · exact ⟨present, rfl⟩
  · exact ⟨trivial, rfl⟩

/-- The store when the crash has put its record back to unclaimed. -/
def crashedStore : Records :=
  (sampleStore (sampleRunning 0)).write samplePath sampleCrashed.marshal

theorem crashedStore_nodes :
    crashedStore.nodes samplePath = some ⟨sampleCrashed.marshal, 2⟩ :=
  Store.write_nodes_self _ _ _

/-- The record of an instance that starts on the slot once the crash has deleted it. -/
def sampleReplacement : ActualLRP :=
  runningActualLRP sampleKey (sampleInstance 1) sampleNetInfo 3 (sampleEpoch 1)

/-- The start, between the delete of the crash and its call for an auction. -/
def startAfterDelete : List (StoreEvent Unit Bool) :=
  let σ := crashedStore.erase samplePath
  let σ₁ := σ.write samplePath sampleReplacement.marshal
  [⟨true, σ, .get samplePath, .error ⟨100⟩, σ⟩,
    ⟨true, σ, .newV4, .ok (sampleEpoch 1), σ⟩,
    ⟨true, σ, .now, (3 : Int64), σ⟩,
    ⟨true, σ, .set samplePath sampleReplacement.marshal, .ok (), σ₁⟩,
    ⟨false, σ₁, .requestLRPAuctions [⟨none, [0]⟩], .ok (), σ₁⟩]

theorem startAfterDelete_allowed :
    ∀ e ∈ startAfterDelete, etcd e.before e.call e.answer e.after := by
  intro e he
  simp only [startAfterDelete, List.mem_cons, List.not_mem_nil, or_false] at he
  rcases he with rfl | rfl | rfl | rfl | rfl
  · exact ⟨fun _ => Store.erase_nodes_self _ _, rfl⟩
  · exact ⟨trivial, rfl⟩
  · exact ⟨trivial, rfl⟩
  · exact ⟨trivial, rfl⟩
  · exact ⟨trivial, rfl⟩

/-- Another instance starts on the slot, but only after the delete: the crash deletes the
version it wrote. -/
theorem crash_deletes_own_version_iff_startAfterDelete :
    (∃ e ∈ startAfterDelete, e.thread = true ∧ Writes samplePath e) ∧
      ∃ e₀ ∈ crashUntilLookup false, (∃ lrp version, lrp.state = .unclaimed ∧
          e₀.exchange = swapped samplePath lrp version) ∧
        crashedStore.nodes samplePath = e₀.after.nodes samplePath := by
  have run : Served (fun _ => none) (fun t => if t then sampleStart 1 else .crash sampleCrash)
      (sampleStore (sampleRunning 0))
      (crashUntilLookup false ++ ⟨false, crashedStore, .delete samplePath, .ok (),
        crashedStore.erase samplePath⟩ :: startAfterDelete)
      ((crashedStore.erase samplePath).write samplePath sampleReplacement.marshal)
      fun t => if t then .ret (.ok (some sampleReplacement)) else .ret (.ok none) := by
    refine Run.of_plays ⟨rfl, rfl, rfl, rfl, rfl, rfl, rfl, rfl, rfl, rfl, rfl, rfl⟩ ?_ ?_
    · intro e he
      rcases List.mem_append.mp he with he | he
      · exact crashUntilLookup_allowed false e he
      rcases List.mem_cons.mp he with rfl | he
      · exact ⟨by simp [Allowed, crashedStore_nodes], rfl⟩
      · exact startAfterDelete_allowed e he
    · rintro (_ | _)
      · exact sampleCleanup_returns
      · have success : Success (fun _ => (none : Option Unit)) (sampleStart 1) _
            (some sampleReplacement) := .create rfl
        exact success.returns
  obtain ⟨l₁, e₀, m, lrp, version, whole, -, wrote, unclaimed, -, own⟩ :=
    crash_deletes_own_version_iff run rfl
  have others : ∀ e ∈ crashUntilLookup false, e.thread = false := by
    simp [crashUntilLookup]
  refine ⟨⟨_, List.getElem_mem (show 3 < startAfterDelete.length from by decide), rfl, _, rfl⟩,
    e₀, by simp [whole], ⟨lrp, version, unclaimed, wrote⟩, own.mpr fun e' he' other => ?_⟩
  exact absurd (others e' (by simp [whole, he'])) other

/-- Another instance claims the record between the write and the delete of a crash.
Both requests succeed, and what the crash deletes is the claimed record. -/
theorem crash_deletes_claimed :
    let claimed := sampleCrashed.claimedBy (sampleInstance 1)
    let σ := crashedStore.write samplePath claimed.marshal
    let claims : List (StoreEvent Unit Bool) :=
      [⟨true, crashedStore, .get samplePath, .ok (.leaf ⟨sampleCrashed.marshal, 2⟩), crashedStore⟩,
        ⟨true, crashedStore, .compareAndSwap samplePath claimed.marshal 2, .ok (), σ⟩]
    (∃ pool, Served (fun _ => none) (fun t => if t then sampleClaim 1 else .crash sampleCrash)
        (sampleStore (sampleRunning 0))
        (crashUntilLookup false ++ claims ++ cleanupFrom false σ) (σ.erase samplePath) pool ∧
      pool false = .ret (.ok none) ∧ pool true = .ret (.ok (some claimed))) ∧
      recordAt samplePath σ = some claimed ∧ claimed.state = .claimed ∧
      claimed.instanceKey = sampleInstance 1 := by
  intro claimed σ claims
  refine ⟨⟨fun t => if t then .ret (.ok (some claimed)) else .ret (.ok none),
    Run.of_plays ⟨rfl, rfl, rfl, rfl, rfl, rfl, rfl, rfl, rfl, rfl⟩ ?_ ?_, rfl, rfl⟩,
    recordAt_write _ _ _, rfl, rfl⟩
  · intro e he
    simp only [List.mem_append, claims, List.mem_cons, List.not_mem_nil, or_false] at he
    rcases he with (he | rfl | rfl) | he
    · exact crashUntilLookup_allowed false e he
    · exact ⟨crashedStore_nodes, rfl⟩
    · exact ⟨⟨_, crashedStore_nodes, rfl⟩, rfl⟩
    · exact cleanupFrom_allowed false (by simp [σ]) e he
  · rintro (_ | _)
    · exact sampleCleanup_returns
    · have success : Success (fun _ => none) (sampleClaim 1)
          [got samplePath ⟨sampleCrashed.marshal, 2⟩, swapped samplePath claimed 2] (some claimed) :=
        .swap (D := Unit) rfl (ActualLRP.unmarshal_marshal _)
          (.claim rfl (by decide) (by decide)) rfl
      exact success.returns

end Bbs.Lifecycle
