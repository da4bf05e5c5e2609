import Bbs.Models.ActualLRP

/-!
The restart policy (`models/restart_calculator.go`) and the immediate-restart
decision of a crashed record.

Durations and times are `Int64` nanoseconds and counts are `Int32`, with their
wrap-around. `none` stands for the panic in `powerOfTwo`. The float arithmetic of
`calculateMaxBackoffCount` is read at exact values.
-/

namespace Bbs.Models

def defaultImmediateRestarts : Int32 :=
  3

/-- 16 minutes -/
def defaultMaxBackoffDuration : Int64 :=
  16 * 60 * 1000000000

def defaultMaxRestarts : Int32 :=
  200

/-- 30 seconds -/
def crashBackoffMinDuration : Int64 :=
  30 * 1000000000

/-- `1 << uint(pow)` in 32 bits: bits shifted out are lost. -/
def powerOfTwo (pow : Int32) : Option Int32 :=
  if pow < 0 then none else some (Int32.ofInt (2 ^ pow.toInt.toNat))

def exponentialBackoff (exponent max : Int32) : Option Int64 :=
  let exponent := if exponent > max then max else exponent
  (powerOfTwo exponent).map fun p => crashBackoffMinDuration * p.toInt64

/-- The quotient rounded up, and its binary logarithm rounded down. `Logb` of zero
is minus infinity, which converts to the least `int32` on amd64. -/
def calculateMaxBackoffCount (maxDuration : Int64) : Int32 :=
  let total := -((-maxDuration.toInt) / crashBackoffMinDuration.toInt)
  if total = 0 then Int32.minValue else Int32.ofNat (Nat.log2 total.natAbs)

structure RestartCalculator where
  immediateRestarts : Int32
  maxBackoffCount : Int32
  maxBackoffDuration : Int64
  maxRestartAttempts : Int32

def newRestartCalculator (immediateRestarts : Int32) (maxBackoffDuration : Int64)
    (maxRestarts : Int32) : RestartCalculator where
  immediateRestarts := immediateRestarts
  maxBackoffDuration := maxBackoffDuration
  maxBackoffCount := calculateMaxBackoffCount maxBackoffDuration
  maxRestartAttempts := maxRestarts

def newDefaultRestartCalculator : RestartCalculator :=
  newRestartCalculator defaultImmediateRestarts defaultMaxBackoffDuration defaultMaxRestarts

def RestartCalculator.shouldRestart (r : RestartCalculator) (now crashedAt : Int64)
    (crashCount : Int32) : Option Bool :=
  if crashCount < r.immediateRestarts then some true
  else if crashCount < r.maxRestartAttempts then
    (exponentialBackoff (crashCount - r.immediateRestarts) r.maxBackoffCount).map fun backoff =>
      let backoff := if backoff > r.maxBackoffDuration then r.maxBackoffDuration else backoff
      decide (crashedAt + backoff ≤ now)
  else some false

def ActualLRP.shouldRestartImmediately (actual : ActualLRP) (calculator : RestartCalculator) :
    Option Bool :=
  if actual.state ≠ .crashed then some false
  else calculator.shouldRestart 0 0 actual.crashCount

/-! ### The default policy -/

theorem default_maxBackoffCount : newDefaultRestartCalculator.maxBackoffCount = 5 := by
  decide

theorem clamped_le (e : Int32) : ¬ (if e > 5 then 5 else e) > 5 := by
  split
  · decide
  · assumption

theorem clamped_nonneg {count : Int32} (h : ¬ count < defaultImmediateRestarts) :
    ¬ (if count - defaultImmediateRestarts > 5 then 5
      else count - defaultImmediateRestarts) < 0 := by
  split
  · decide
  · have le : defaultImmediateRestarts ≤ count := Int32.not_lt.mp h
    rw [Int32.not_lt, Int32.le_iff_toInt_le, Int32.toInt_sub_of_le _ _ (by decide) le]
    rw [Int32.le_iff_toInt_le] at le
    simp only [Int32.reduceToInt]
    omega

/-- Past the immediate restarts the backoff is positive and below the cap, so
nothing that crashed at time zero is due at time zero. -/
theorem default_backoff {count : Int32} (h : ¬ count < defaultImmediateRestarts) :
    ∃ backoff, exponentialBackoff (count - defaultImmediateRestarts) 5 = some backoff ∧
      ¬ backoff > defaultMaxBackoffDuration ∧ ¬ (0 : Int64) + backoff ≤ 0 := by
  have lower := clamped_nonneg h
  have upper := clamped_le (count - defaultImmediateRestarts)
  unfold exponentialBackoff
  generalize (if count - defaultImmediateRestarts > 5 then 5
    else count - defaultImmediateRestarts) = e at lower upper
  have range : e = 0 ∨ e = 1 ∨ e = 2 ∨ e = 3 ∨ e = 4 ∨ e = 5 := by
    simp only [Int32.lt_iff_toInt_lt, gt_iff_lt, Int32.reduceToInt] at lower upper
    simp only [← Int32.toInt_inj, Int32.reduceToInt]
    omega
  rcases range with rfl | rfl | rfl | rfl | rfl | rfl <;>
    exact ⟨_, rfl, by decide, by decide⟩

/-- Asked at time zero about a crash at time zero, the default policy restarts
exactly below the immediate-restart limit: the backoff branch never fires. -/
theorem default_shouldRestart_zero (count : Int32) :
    newDefaultRestartCalculator.shouldRestart 0 0 count =
      some (decide (count < defaultImmediateRestarts)) := by
  unfold RestartCalculator.shouldRestart
  rw [default_maxBackoffCount]
  change (if count < defaultImmediateRestarts then some true
    else if count < defaultMaxRestarts then
      (exponentialBackoff (count - defaultImmediateRestarts) 5).map fun backoff =>
        decide (0 + (if backoff > defaultMaxBackoffDuration then defaultMaxBackoffDuration
          else backoff) ≤ 0)
    else some false) = _
  by_cases immediate : count < defaultImmediateRestarts
  · rw [if_pos immediate, decide_eq_true immediate]
  · rw [if_neg immediate, decide_eq_false immediate]
    obtain ⟨backoff, hb, cap, due⟩ := default_backoff immediate
    rw [hb, Option.map_some, if_neg cap, decide_eq_false due, ite_self]

end Bbs.Models
