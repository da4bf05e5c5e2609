import Bbs.Lifecycle.Serial

/-!
Crash loops are contained.

A crash leaves the record unclaimed, to be restarted at once, as long as the count
it writes is small, and crashed from then on. The count survives claims, starts and
fails, so along a run without resets it is the number of crashes
(`Serial.outcomes_eq`): two restarts, then no more.
-/

namespace Bbs.Lifecycle

open Bbs.Interaction Bbs.Versioned Bbs.Models Bbs.Etcd

variable {D : Type} {fromJSON : Json → Option D} {path : String} {u : Turn D}
  {turns : List (Turn D)} {σ σ' : Records} {lrp : ActualLRP}

/-- The turn is a successful crash on the slot at `path`. -/
def isCrash (path : String) (u : Turn D) : Bool :=
  match u.request, u.reply with
  | .crash request, .ok _ => (Request.crash request).path = some path
  | _, _ => false

theorem isCrash_iff :
    isCrash path u = true ↔ Succeeded path u ∧ ∃ crash, u.request = .crash crash := by
  rcases u with ⟨request, before, exchanges, reply, after⟩
  cases request <;> cases reply <;> simp [isCrash, Succeeded]

/-- The turn is a crash that starts the count anew: it finds the record running, and for
longer than the reset timeout by the clock it reads first. -/
def Resets (path : String) (u : Turn D) : Prop :=
  isCrash path u = true ∧ ∃ lrp readAt, recordAt path u.before = some lrp ∧
    (readings u.exchanges).head? = some readAt ∧ lrp.crashResets readAt = true

/-- The states that the crashes among some turns left the record in. -/
def outcomes (path : String) (turns : List (Turn D)) : List (Option ActualLRPState) :=
  (turns.filter (isCrash path)).map fun u => (recordAt path u.after).map ActualLRP.state

/-! ### One turn -/

/-- What a turn makes of the crash count `count` of a record. -/
inductive Counted (path : String) (u : Turn D) (count : Int32) (new : ActualLRP) : Prop where
  | kept (other : isCrash path u = false) (same : new.crashCount = count)
  | reset (crash : isCrash path u = true) (resets : Resets path u) (one : new.crashCount = 1)
      (state : new.state = if new.crashCount < defaultImmediateRestarts then .unclaimed else .crashed)
  | more (crash : isCrash path u = true) (resets : ¬ Resets path u)
      (succ : new.crashCount = count + 1)
      (state : new.state = if new.crashCount < defaultImmediateRestarts then .unclaimed else .crashed)

theorem Turn.Executed.counted (executed : u.Executed fromJSON)
    (found : recordAt path u.before = some lrp) (kept : u.after.nodes path ≠ none) :
    ∃ new, recordAt path u.after = some new ∧ Counted path u lrp.crashCount new := by
  have other_of (request : Request) (h : u.request = request) (no : ∀ crash, request ≠ .crash crash) :
      isCrash path u = false := by
    refine Bool.eq_false_iff.mpr fun crash => ?_
    obtain ⟨-, crash, crashed⟩ := isCrash_iff.mp crash
    exact no crash (h.symm.trans crashed)
  cases executed.touch path with
  | kept same idle =>
      refine ⟨lrp, by rw [recordAt, same]; exact found, .kept ?_ rfl⟩
      refine Bool.eq_false_iff.mpr fun crash => ?_
      obtain ⟨ok, crash, crashed⟩ := isCrash_iff.mp crash
      rcases idle ok with ⟨start, h⟩ | ⟨retire, h⟩ <;> cases crashed.symm.trans h
  | @updated lrp' new ok found' update wrote =>
      obtain rfl : lrp' = lrp := Option.some.inj (found'.symm.trans found)
      refine ⟨new, wrote, ?_⟩
      generalize hr : u.request = request at update
      generalize hc : readings u.exchanges = clocks at update
      cases update with
      | claim => exact .kept (other_of _ hr (by simp)) rfl
      | start => exact .kept (other_of _ hr (by simp)) rfl
      | fail => exact .kept (other_of _ hr (by simp)) rfl
      | @crash request _ readAt now allowed crashes =>
          have crash : isCrash path u = true := isCrash_iff.mpr ⟨ok, request, hr⟩
          have resets_iff : Resets path u ↔ lrp'.crashResets readAt = true := by
            simp [Resets, crash, found, hc]
          by_cases resets : lrp'.crashResets readAt = true
          · exact .reset crash (resets_iff.mpr resets)
              (by simp [ActualLRP.crashOutcome, ActualLRP.crashedWith, ActualLRP.newCrashCount, resets])
              rfl
          · exact .more crash (fun h => resets (resets_iff.mp h))
              (by simp [ActualLRP.crashOutcome, ActualLRP.crashedWith, ActualLRP.newCrashCount, resets])
              rfl
  | cleaned _ _ _ _ _ gone => exact absurd gone kept
  | created _ _ vacant => exact absurd vacant (nodes_ne_none_of_recordAt found)
  | removed _ _ _ gone => exact absurd gone kept

/-! ### A run without resets -/

theorem toInt_succ {c : Int32} {n : Nat} (counted : c.toInt = n) (bounded : n + 1 < 2 ^ 31) :
    (c + 1).toInt = (n + 1 : Nat) := by
  rw [Int32.toInt_add, counted, Int.bmod_eq_of_le]
  · rfl
  · change -(4294967296 / 2) ≤ (n : Int) + 1
    omega
  · change (n : Int) + 1 < (4294967296 + 1) / 2
    omega

/-- The state that a crash leaves the record in when it writes the count `n`. -/
def outcomeOf (n : Nat) : Option ActualLRPState :=
  some (if n < 3 then .unclaimed else .crashed)

theorem outcomeOf_crashCount {new : ActualLRP} {n : Nat} (counted : new.crashCount.toInt = n)
    (state : new.state =
      if new.crashCount < defaultImmediateRestarts then .unclaimed else .crashed) :
    some new.state = outcomeOf n := by
  have restarts : new.crashCount < defaultImmediateRestarts ↔ n < 3 := by
    rw [Int32.lt_iff_toInt_lt, counted]
    change (n : Int) < 3 ↔ n < 3
    omega
  rw [state, outcomeOf]
  simp only [restarts]

/-- A crash that writes the count `n + 1` comes before those that count on from there. -/
theorem outcomes_cons {n k : Nat} {new : ActualLRP} (crash : isCrash path u = true)
    (after : recordAt path u.after = some new) (counted : new.crashCount.toInt = (n + 1 : Nat))
    (state : new.state =
      if new.crashCount < defaultImmediateRestarts then .unclaimed else .crashed)
    (tail : outcomes path turns = (List.range k).map fun j => outcomeOf (n + 1 + j + 1)) :
    outcomes path (u :: turns) = (List.range (k + 1)).map fun j => outcomeOf (n + j + 1) := by
  rw [outcomes, List.filter_cons_of_pos crash, List.map_cons, after, Option.map_some,
    outcomeOf_crashCount counted state, ← outcomes, tail, List.range_succ_eq_map, List.map_cons,
    List.map_map]
  refine congrArg _ (List.map_congr_left fun j _ => ?_)
  simp only [Function.comp_apply]
  congr 1
  omega

/-- **Without resets the crash count is the number of crashes.** -/
theorem Serial.outcomes_eq {count : Nat} (serial : Serial fromJSON σ turns σ')
    (found : recordAt path σ = some lrp) (kept : ∀ u ∈ turns, u.after.nodes path ≠ none)
    (steady : ∀ u ∈ turns, ¬ Resets path u) (counted : lrp.crashCount.toInt = count)
    (bounded : count + (turns.filter (isCrash path)).length < 2 ^ 31) :
    outcomes path turns = (List.range (turns.filter (isCrash path)).length).map fun j =>
      outcomeOf (count + j + 1) := by
  induction turns generalizing σ lrp count with
  | nil => rfl
  | cons u turns ih =>
      cases serial with
      | cons executed rest =>
          obtain ⟨new, after, step⟩ := executed.counted found (kept u List.mem_cons_self)
          have kept' : ∀ v ∈ turns, v.after.nodes path ≠ none :=
            fun v hv => kept v (List.mem_cons_of_mem _ hv)
          have steady' : ∀ v ∈ turns, ¬ Resets path v :=
            fun v hv => steady v (List.mem_cons_of_mem _ hv)
          cases step with
          | kept other same =>
              rw [outcomes, List.filter_cons_of_neg (by simp [other])] at *
              exact ih rest after kept' steady' (by rw [same, counted]) bounded
          | reset _ resets => exact absurd resets (steady u List.mem_cons_self)
          | more crash _ succ state =>
              rw [List.filter_cons_of_pos crash, List.length_cons] at bounded ⊢
              have next : new.crashCount.toInt = (count + 1 : Nat) := by
                rw [succ]
                exact toInt_succ counted (by omega)
              exact outcomes_cons crash after next state (ih rest after kept' steady' next (by omega))

/-! ### Stretches of a run -/

/-- A stretch that begins with a reset, or with the count at zero, counts from one. -/
theorem Serial.outcomes_of_fresh {stretch : List (Turn D)}
    (serial : Serial fromJSON σ (u :: stretch) σ')
    (fresh : Resets path u ∨ ∃ lrp, recordAt path u.before = some lrp ∧ lrp.crashCount = 0)
    (kept : ∀ v ∈ u :: stretch, v.after.nodes path ≠ none)
    (steady : ∀ v ∈ stretch, ¬ Resets path v)
    (bounded : ((u :: stretch).filter (isCrash path)).length < 2 ^ 31) :
    outcomes path (u :: stretch) =
      (List.range ((u :: stretch).filter (isCrash path)).length).map fun j => outcomeOf (j + 1) := by
  by_cases resets : Resets path u
  · obtain ⟨crash, lrp, readAt, found, -⟩ := id resets
    cases serial with
    | cons executed rest =>
        obtain ⟨new, after, step⟩ := executed.counted found (kept u List.mem_cons_self)
        cases step with
        | kept other => rw [crash] at other; cases other
        | more _ steady => exact absurd resets steady
        | reset _ _ one state =>
            have first : new.crashCount.toInt = (0 + 1 : Nat) := by rw [one]; rfl
            rw [List.filter_cons_of_pos crash, List.length_cons] at bounded ⊢
            have tail := rest.outcomes_eq after (fun v hv => kept v (List.mem_cons_of_mem _ hv))
              steady first (by omega)
            simpa using outcomes_cons crash after first state tail
  · obtain ⟨lrp, found, zero⟩ := fresh.resolve_left resets
    have counted : lrp.crashCount.toInt = (0 : Nat) := by rw [zero]; rfl
    have steady' : ∀ v ∈ u :: stretch, ¬ Resets path v := List.forall_mem_cons.mpr ⟨resets, steady⟩
    cases serial with
    | cons executed rest =>
        simpa using (Serial.cons executed rest).outcomes_eq found kept steady' counted (by omega)

/-- Counting from one, two crashes restart and the others do not. -/
theorem map_outcomeOf (n : Nat) : (List.range n).map (fun j => outcomeOf (j + 1)) =
    List.replicate (min n 2) (some .unclaimed) ++ List.replicate (n - 2) (some .crashed) := by
  match n with
  | 0 => rfl
  | 1 => rfl
  | n + 2 =>
      have late : (List.range n).map (fun j => outcomeOf (j + 3)) =
          List.replicate n (some .crashed) := by
        rw [List.eq_replicate_iff]
        refine ⟨by simp, fun state h => ?_⟩
        obtain ⟨j, -, rfl⟩ := List.mem_map.mp h
        simp [outcomeOf]
      have two : min (n + 2) 2 = 2 := by omega
      rw [List.range_succ_eq_map, List.range_succ_eq_map, two]
      simp only [List.map_cons, List.map_map, Nat.add_sub_cancel, ← late]
      rfl

/-- A crash that succeeds has found a record. -/
theorem Turn.Executed.found_of_isCrash (executed : u.Executed fromJSON)
    (crash : isCrash path u = true) : ∃ lrp, recordAt path u.before = some lrp := by
  obtain ⟨ok, crash, crashed⟩ := isCrash_iff.mp crash
  cases executed.touch path with
  | kept _ idle => rcases idle ok with ⟨_, h⟩ | ⟨_, h⟩ <;> cases crashed.symm.trans h
  | updated _ found => exact ⟨_, found⟩
  | cleaned _ _ found => exact ⟨_, found⟩
  | created _ started => cases crashed.symm.trans started
  | removed _ _ found => exact ⟨_, found⟩

/-- **Crash loops are contained.** Take a run that never deletes the record of a slot.
Every successful crash leaves the record unclaimed if the count it writes is below the
limit of immediate restarts, and crashed otherwise. In every stretch of the run that
begins with a reset or with a record of count zero, has no reset later and has fewer
than `2 ^ 31` crashes, so that the count stays an `Int32`, at most two crashes leave the
record unclaimed, and all crashes after them leave it crashed. -/
theorem crash_loops_contained (serial : Serial fromJSON σ turns σ')
    (kept : ∀ u ∈ turns, u.after.nodes path ≠ none) :
    (∀ u ∈ turns, isCrash path u = true →
      ∃ new, recordAt path u.after = some new ∧
        new.state = if new.crashCount < defaultImmediateRestarts then .unclaimed else .crashed) ∧
    ∀ before u stretch after, turns = before ++ (u :: stretch ++ after) →
      (Resets path u ∨ ∃ first, recordAt path u.before = some first ∧ first.crashCount = 0) →
      (∀ v ∈ stretch, ¬ Resets path v) →
      ((u :: stretch).filter (isCrash path)).length < 2 ^ 31 →
      ∃ restarts ≤ 2, ∃ rest, outcomes path (u :: stretch) =
        List.replicate restarts (some .unclaimed) ++ List.replicate rest (some .crashed) := by
  constructor
  · intro u hu crash
    have executed := serial.executed u hu
    obtain ⟨lrp, found⟩ := executed.found_of_isCrash crash
    obtain ⟨new, after, step⟩ := executed.counted found (kept u hu)
    refine ⟨new, after, ?_⟩
    cases step with
    | kept other => rw [crash] at other; cases other
    | reset _ _ _ state => exact state
    | more _ _ _ state => exact state
  · rintro before u stretch after rfl fresh steady bounded
    obtain ⟨_, -, rest⟩ := Serial.append_iff.mp serial
    obtain ⟨_, segment, -⟩ := Serial.append_iff.mp rest
    have kept' : ∀ v ∈ u :: stretch, v.after.nodes path ≠ none :=
      fun v hv => kept v (List.mem_append_right before (List.mem_append_left after hv))
    rw [segment.outcomes_of_fresh fresh kept' steady bounded, map_outcomeOf]
    exact ⟨_, by omega, _, rfl⟩

/-! ### Three crashes in a row -/

/-- The running sample record after `n` crashes, each followed by a restart. -/
def loopRunning : Nat → ActualLRP
  | 0 => sampleRunning 0
  | n + 1 => ((loopRunning n).crashOutcome 2 2 "crashed").startedBy (sampleInstance 0)
      sampleNetInfo 2

def loopCrashed (n : Nat) : ActualLRP :=
  (loopRunning n).crashOutcome 2 2 "crashed"

def loopStore : Nat → Records
  | 0 => sampleStore (loopRunning 0)
  | n + 1 => ((loopStore n).write samplePath (loopCrashed n).marshal).write samplePath
      (loopRunning (n + 1)).marshal

theorem loopStore_nodes (n : Nat) :
    (loopStore n).nodes samplePath = some ⟨(loopRunning n).marshal, (loopStore n).index⟩ := by
  cases n with
  | zero => exact Store.write_nodes_self _ _ _
  | succ n => exact Store.write_nodes_self _ _ _

/-- A crash in the loop, and what it asks after its write. -/
def loopCrash (n : Nat) (tail : List (Exchange (Call Unit) Answer)) : Turn Unit :=
  swapTurn (.crash sampleCrash) (loopStore n) samplePath
    ⟨(loopRunning n).marshal, (loopStore n).index⟩ [2, 2] (loopCrashed n) tail

def loopRestart (n : Nat) : Turn Unit :=
  swapTurn (sampleStart 0) ((loopStore n).write samplePath (loopCrashed n).marshal) samplePath
    ⟨(loopCrashed n).marshal, (loopStore n).index + 1⟩ [2] (loopRunning (n + 1)) []

/-- The desired LRP cannot be read. -/
def unreadDesired : List (Exchange (Call Unit) Answer) :=
  [⟨.get desiredPath, .error ⟨300⟩⟩]

def crashLoop : List (Turn Unit) :=
  [loopCrash 0 unreadDesired, loopRestart 0, loopCrash 1 unreadDesired, loopRestart 1,
    loopCrash 2 []]

theorem loopCrash_executed {n : Nat} (early : n < 3) {tail : List (Exchange (Call Unit) Answer)}
    (closing : Closing (fun _ => none) (.crash sampleCrash) (loopCrashed n) tail)
    (last : ∀ σ, Traverses etcd σ tail σ) : (loopCrash n tail).Executed fun _ => none := by
  have crashes : ∀ n < 3, (loopRunning n).allowsTransitionTo (some sampleKey)
      (some (sampleInstance 0)) .crashed = true ∧
        (loopRunning n).cannotCrash (some (sampleInstance 0)) = false := by decide
  obtain ⟨allowed, crashes⟩ := crashes n early
  exact swapTurn_executed rfl (loopStore_nodes n) (ActualLRP.unmarshal_marshal _)
    (.crash allowed crashes) closing (last _)

/-- A crash that leaves the record unclaimed looks for the desired LRP. -/
theorem loopCrash_unread {n : Nat} (early : n < 2) :
    (loopCrash n unreadDesired).Executed fun _ => none := by
  have unclaimed : ∀ n < 2, (loopCrashed n).state = .unclaimed := by decide
  refine loopCrash_executed (by omega) ?_ fun σ => ?_
  · simp only [Closing, unclaimed n early, if_true]
    exact ⟨sampleKey, rfl, .unread rfl (by decide)⟩
  · exact .cons ⟨fun h => absurd h (by decide), rfl⟩ (.nil σ)

theorem loopRestart_executed {n : Nat} (early : n < 2) :
    (loopRestart n).Executed fun _ => none := by
  have starts : ∀ n < 2, ¬ (loopCrashed n).isStarted ⟨some sampleKey, some (sampleInstance 0),
      some sampleNetInfo⟩ = true ∧ (loopCrashed n).allowsTransitionTo (some sampleKey)
        (some (sampleInstance 0)) .running = true := by decide
  obtain ⟨different, allowed⟩ := starts n early
  exact swapTurn_executed rfl (Store.write_nodes_self _ _ _) (ActualLRP.unmarshal_marshal _)
    (.start different allowed) rfl (.nil _)

theorem crashLoop_serial : ∃ σ', Serial (fun _ => none) (loopStore 0) crashLoop σ' := by
  have crashed : (loopCrashed 2).state = .crashed := by decide
  have third : (loopCrash 2 []).Executed fun _ => none :=
    loopCrash_executed (by decide) (by simp [Closing, crashed]) .nil
  exact ⟨_, .cons (loopCrash_unread (by decide)) <| .cons (loopRestart_executed (by decide)) <|
    .cons (loopCrash_unread (by decide)) <| .cons (loopRestart_executed (by decide)) <|
    .cons third <| .nil _⟩

theorem loopCrash_isCrash (n : Nat) (tail : List (Exchange (Call Unit) Answer)) :
    isCrash samplePath (loopCrash n tail) = true :=
  decide_eq_true rfl

theorem loopRestart_isCrash (n : Nat) : isCrash samplePath (loopRestart n) = false :=
  rfl

/-- No crash after the first comes late enough to reset the count. -/
theorem crashLoop_steady : ∀ v ∈ crashLoop.tail, ¬ Resets samplePath v := by
  have crash (n : Nat) (tail : List (Exchange (Call Unit) Answer)) :
      ¬ Resets samplePath (loopCrash (n + 1) tail) := by
    rintro ⟨-, lrp, readAt, found, read, resets⟩
    cases found.symm.trans (recordAt_of_nodes (loopStore_nodes (n + 1))
      (ActualLRP.unmarshal_marshal _))
    cases read
    simp only [ActualLRP.crashResets, Bool.and_eq_true, decide_eq_true_eq] at resets
    exact absurd resets.1 (show ¬ (2 : Int64) - 2 > crashResetTimeout from by decide)
  have restart (n : Nat) : ¬ Resets samplePath (loopRestart n) := by
    intro resets
    exact absurd resets.1 (Bool.eq_false_iff.mp (loopRestart_isCrash n))
  intro v mem
  simp only [crashLoop, List.tail_cons, List.mem_cons, List.not_mem_nil, or_false] at mem
  rcases mem with rfl | rfl | rfl | rfl
  · exact restart 0
  · exact crash 0 _
  · exact restart 1
  · exact crash 1 _

theorem crash_loops_contained_crashLoop :
    (outcomes samplePath crashLoop).length = 3 ∧
      ∃ restarts ≤ 2, ∃ rest, outcomes samplePath crashLoop =
        List.replicate restarts (some .unclaimed) ++ List.replicate rest (some .crashed) := by
  obtain ⟨σ', serial⟩ := crashLoop_serial
  have kept : ∀ u ∈ crashLoop, u.after.nodes samplePath ≠ none := by
    intro u mem
    simp only [crashLoop, List.mem_cons, List.not_mem_nil, or_false] at mem
    rcases mem with rfl | rfl | rfl | rfl | rfl <;>
      exact nodes_ne_none_of_recordAt (recordAt_write samplePath _ _)
  have three : (crashLoop.filter (isCrash samplePath)).length = 3 := by
    simp [crashLoop, loopCrash_isCrash, loopRestart_isCrash]
  refine ⟨by rw [outcomes, List.length_map, three], ?_⟩
  exact (crash_loops_contained serial kept).2 [] _ _ [] (List.append_nil _).symm
    (.inr ⟨_, recordAt_write samplePath _ (sampleRunning 0), rfl⟩) crashLoop_steady
    (Nat.lt_of_le_of_lt three.le (by decide))

end Bbs.Lifecycle
