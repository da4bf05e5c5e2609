import Bbs.Models.Requests
import Bbs.Models.RestartCalculator

/-!
What the lifecycle operations of `db/etcd/actual_lrp_db.go` make of a record, and
the tests they make on it beyond `AllowsTransitionTo`.

The updates are inline in the source. They stand here on their own because they
do not talk to the store: whether an update keeps a record valid is a question
about records only, and is answered in this module.
-/

namespace Bbs.Models

/-! ### Updates and tests -/

/-- What a claim makes of a record. -/
def ActualLRP.claimedBy (lrp : ActualLRP) (instanceKey : ActualLRPInstanceKey) : ActualLRP :=
  { lrp with
    placementError := ""
    state := .claimed
    instanceKey := instanceKey
    netInfo := ⟨"", none⟩
    modificationTag := lrp.modificationTag.increment }

/-- The record a start creates when there is none. -/
def runningActualLRP (key : ActualLRPKey) (instanceKey : ActualLRPInstanceKey)
    (netInfo : ActualLRPNetInfo) (now : Int64) (guid : String) : ActualLRP where
  key := key
  instanceKey := instanceKey
  netInfo := netInfo
  crashCount := 0
  crashReason := ""
  state := .running
  placementError := ""
  since := now
  modificationTag := ⟨guid, 0⟩

/-- What a start makes of a record that exists. -/
def ActualLRP.startedBy (lrp : ActualLRP) (instanceKey : ActualLRPInstanceKey)
    (netInfo : ActualLRPNetInfo) (now : Int64) : ActualLRP :=
  { lrp with
    modificationTag := lrp.modificationTag.increment
    state := .running
    since := now
    instanceKey := instanceKey
    netInfo := netInfo
    placementError := "" }

/-- The record is already running just as the request has it. -/
def ActualLRP.isStarted (lrp : ActualLRP) (request : StartActualLRPRequest) : Bool :=
  lrp.key.equal request.actualLrpKey && lrp.instanceKey.equal request.actualLrpInstanceKey &&
    lrp.netInfo.equal request.actualLrpNetInfo && lrp.state = .running

/-- A crash of a record that has been running for longer than the reset timeout
starts the count anew. -/
def ActualLRP.crashResets (lrp : ActualLRP) (now : Int64) : Bool :=
  now - lrp.since > crashResetTimeout && lrp.state = .running

def ActualLRP.newCrashCount (lrp : ActualLRP) (now : Int64) : Int32 :=
  if lrp.crashResets now then 1 else lrp.crashCount + 1

/-- The second guard of a crash, after the transition check. -/
def ActualLRP.cannotCrash (lrp : ActualLRP) (instanceKey : Option ActualLRPInstanceKey) : Bool :=
  lrp.state = .unclaimed || lrp.state = .crashed ||
    ((lrp.state = .claimed || lrp.state = .running) && !lrp.instanceKey.equal instanceKey)

/-- What a crash makes of a record, before the decision to restart. -/
def ActualLRP.crashedWith (lrp : ActualLRP) (count : Int32) (now : Int64) (errorMessage : String) :
    ActualLRP :=
  { lrp with
    state := .crashed
    since := now
    crashCount := count
    instanceKey := ⟨"", ""⟩
    netInfo := emptyActualLRPNetInfo
    modificationTag := lrp.modificationTag.increment
    crashReason := errorMessage }

/-- What a placement failure makes of a record. -/
def ActualLRP.failedWith (lrp : ActualLRP) (errorMessage : String) (now : Int64) : ActualLRP :=
  { lrp with
    modificationTag := lrp.modificationTag.increment
    placementError := errorMessage
    since := now }

/-- The record a crash writes: back to unclaimed if it restarts immediately. -/
def ActualLRP.crashOutcome (lrp : ActualLRP) (readAt now : Int64) (errorMessage : String) :
    ActualLRP :=
  { lrp.crashedWith (lrp.newCrashCount readAt) now errorMessage with
    state := if lrp.newCrashCount readAt < defaultImmediateRestarts then .unclaimed else .crashed }

theorem ActualLRP.crashedWith_shouldRestart (lrp : ActualLRP) (count : Int32) (now : Int64)
    (errorMessage : String) :
    (lrp.crashedWith count now errorMessage).shouldRestartImmediately newDefaultRestartCalculator =
      some (decide (count < defaultImmediateRestarts)) := by
  simp [shouldRestartImmediately, crashedWith, default_shouldRestart_zero]

theorem ActualLRP.crashOutcome_eq (lrp : ActualLRP) (readAt now : Int64) (errorMessage : String) :
    (if decide (lrp.newCrashCount readAt < defaultImmediateRestarts) = true then
        { lrp.crashedWith (lrp.newCrashCount readAt) now errorMessage with state := .unclaimed }
      else lrp.crashedWith (lrp.newCrashCount readAt) now errorMessage) =
      lrp.crashOutcome readAt now errorMessage := by
  by_cases restart : lrp.newCrashCount readAt < defaultImmediateRestarts
  · simp [crashOutcome, restart]
  · simp [crashOutcome, crashedWith, restart]

/-- What the second guard of a crash lets through. -/
theorem ActualLRP.cannotCrash_eq_false {lrp : ActualLRP}
    {instanceKey : Option ActualLRPInstanceKey} :
    lrp.cannotCrash instanceKey = false ↔ lrp.state ≠ .unclaimed ∧ lrp.state ≠ .crashed ∧
      (lrp.state = .claimed ∨ lrp.state = .running → instanceKey = some lrp.instanceKey) := by
  have equal : lrp.instanceKey.equal instanceKey = false ↔ instanceKey ≠ some lrp.instanceKey := by
    rw [← Bool.not_eq_true, ActualLRPInstanceKey.equal_iff]
  by_cases same : instanceKey = some lrp.instanceKey
  · cases h : lrp.state <;> simp [cannotCrash, h, same]
  · cases h : lrp.state <;> simp [cannotCrash, h, same, equal.mpr same]

/-! ### Updates keep records valid -/

section Valid

variable {lrp : ActualLRP} {instanceKey : ActualLRPInstanceKey} {netInfo : ActualLRPNetInfo}
  {now : Int64}

theorem runningActualLRP_valid {key : ActualLRPKey} (hk : key.Valid) (hi : instanceKey.Valid)
    (hn : netInfo.address ≠ "") (clock : now ≠ 0) (guid : String) :
    (runningActualLRP key instanceKey netInfo now guid).Valid :=
  ⟨hk, clock, hi, hn, rfl⟩

theorem ActualLRP.startedBy_valid (hl : lrp.Valid) (hi : instanceKey.Valid)
    (hn : netInfo.address ≠ "") (clock : now ≠ 0) :
    (lrp.startedBy instanceKey netInfo now).Valid :=
  ⟨hl.1, clock, hi, hn, rfl⟩

theorem ActualLRP.failedWith_valid {errorMessage : String} (hl : lrp.Valid)
    (unclaimed : lrp.state = .unclaimed) (clock : now ≠ 0) :
    (lrp.failedWith errorMessage now).Valid := by
  have state := hl.2.2
  simp only [StateValid, unclaimed] at state
  exact ⟨hl.1, clock, by simpa [StateValid, failedWith, unclaimed] using state⟩

theorem ActualLRP.crashOutcome_valid {key : Option ActualLRPInstanceKey} {readAt : Int64}
    {errorMessage : String} (hl : lrp.Valid) (crashes : lrp.cannotCrash key = false)
    (clock : now ≠ 0) : (lrp.crashOutcome readAt now errorMessage).Valid := by
  -- a claimed or running record has no placement error, which a crashed one must not have
  have placement : Text.trimSpace lrp.placementError = "" := by
    have state := hl.2.2
    obtain ⟨unclaimed, crashed, _⟩ := cannotCrash_eq_false.mp crashes
    cases h : lrp.state with
    | unclaimed => exact absurd h unclaimed
    | crashed => exact absurd h crashed
    | claimed => simp only [StateValid, h] at state; exact state.2.2
    | running => simp only [StateValid, h] at state; exact state.2.2
    | other => simp only [StateValid, h] at state
  have key : (⟨"", ""⟩ : ActualLRPInstanceKey).empty = true := rfl
  have net : emptyActualLRPNetInfo.empty = true := rfl
  refine ⟨hl.1, clock, ?_⟩
  by_cases restart : lrp.newCrashCount readAt < defaultImmediateRestarts
  · simp [StateValid, crashOutcome, crashedWith, restart, key, net]
  · simp [StateValid, crashOutcome, crashedWith, restart, key, net, placement]

end Valid

end Bbs.Models
