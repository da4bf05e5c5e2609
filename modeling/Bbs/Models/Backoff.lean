import Bbs.Models.RestartCalculator

/-!
How long a crashed instance waits for its restart (`models/restart_calculator.go`).

`checkedShouldRestart` is `ShouldRestart` with every operation checked: it has no result if
one of them overflows or `powerOfTwo` panics. With a longest wait of 30 seconds or more it
always has one, which is then that of the code (`shouldRestart_of_checked`). Between the
immediate restarts and the last attempt it compares with a wait that depends on the number
of crashes only, `wait`.
-/

namespace Bbs.Models

/-! ### Checked operations -/

def checkedInt32 (n : Int) : Option Int32 :=
  if Int32.minValue.toInt ≤ n ∧ n ≤ Int32.maxValue.toInt then some (Int32.ofInt n) else none

def checkedInt64 (n : Int) : Option Int64 :=
  if Int64.minValue.toInt ≤ n ∧ n ≤ Int64.maxValue.toInt then some (Int64.ofInt n) else none

/-- `powerOfTwo` and `exponentialBackoff`. -/
def checkedBackoff (exponent max : Int32) : Option Int64 := do
  let exponent := if exponent > max then max else exponent
  if exponent < 0 then none
  else
    let power ← checkedInt32 (2 ^ exponent.toInt.toNat)
    checkedInt64 (crashBackoffMinDuration.toInt * power.toInt)

def RestartCalculator.checkedShouldRestart (r : RestartCalculator) (now crashedAt : Int64)
    (crashCount : Int32) : Option Bool :=
  if crashCount < r.immediateRestarts then some true
  else if crashCount < r.maxRestartAttempts then do
    let exponent ← checkedInt32 (crashCount.toInt - r.immediateRestarts.toInt)
    let backoff ← checkedBackoff exponent r.maxBackoffCount
    let backoff := if backoff > r.maxBackoffDuration then r.maxBackoffDuration else backoff
    let nextRestartTime ← checkedInt64 (crashedAt.toInt + backoff.toInt)
    return decide (nextRestartTime ≤ now)
  else some false

theorem checkedInt32_eq_some {n : Int} {m : Int32} (h : checkedInt32 n = some m) :
    m = Int32.ofInt n := by
  unfold checkedInt32 at h
  split at h
  · exact (Option.some.inj h).symm
  · cases h

theorem checkedInt64_eq_some {n : Int} {m : Int64} (h : checkedInt64 n = some m) :
    m = Int64.ofInt n := by
  unfold checkedInt64 at h
  split at h
  · exact (Option.some.inj h).symm
  · cases h

theorem exponentialBackoff_of_checked {exponent max : Int32} {backoff : Int64}
    (h : checkedBackoff exponent max = some backoff) :
    exponentialBackoff exponent max = some backoff := by
  unfold checkedBackoff at h
  unfold exponentialBackoff powerOfTwo
  generalize (if exponent > max then max else exponent) = e at h
  simp only at h
  split at h
  · cases h
  · next nonneg =>
      simp only [Option.bind_eq_bind, Option.bind_eq_some_iff] at h
      obtain ⟨power, narrow, product⟩ := h
      have range : Int32.minValue.toInt ≤ power.toInt ∧ power.toInt ≤ Int32.maxValue.toInt :=
        ⟨power.minValue_le_toInt, power.toInt_le⟩
      rw [checkedInt64_eq_some product, Int64.ofInt_mul, Int64.ofInt_toInt,
        ← Int32.toInt64_ofInt range.1 range.2, Int32.ofInt_toInt, checkedInt32_eq_some narrow]
      simp [nonneg]

/-- If no operation overflows, the code computes what the checked operations do. -/
theorem RestartCalculator.shouldRestart_of_checked {r : RestartCalculator} {now crashedAt : Int64}
    {crashCount : Int32} {restart : Bool}
    (h : r.checkedShouldRestart now crashedAt crashCount = some restart) :
    r.shouldRestart now crashedAt crashCount = some restart := by
  unfold checkedShouldRestart at h
  unfold shouldRestart
  split
  · next immediate => rwa [if_pos immediate] at h
  · next later =>
      rw [if_neg later] at h
      split
      · next attempted =>
          rw [if_pos attempted] at h
          simp only [Option.bind_eq_bind, Option.bind_eq_some_iff] at h
          obtain ⟨exponent, difference, backoff, backs, next, sum, due⟩ := h
          have same : crashCount - r.immediateRestarts = exponent := by
            rw [checkedInt32_eq_some difference, Int32.ofInt_sub, Int32.ofInt_toInt,
              Int32.ofInt_toInt]
          rw [checkedInt64_eq_some sum, Int64.ofInt_add, Int64.ofInt_toInt, Int64.ofInt_toInt] at due
          rw [same, exponentialBackoff_of_checked backs]
          exact due
      · next exhausted => rwa [if_neg exhausted] at h

/-! ### The wait -/

/-- The number of shortest waits that fit into `D`, rounded up. -/
def shortestWaits (D : Int64) : Nat :=
  (-((-D.toInt) / crashBackoffMinDuration.toInt)).natAbs

/-- The wait after `n` crashes beyond the immediate restarts. -/
def wait (D : Int64) (n : Nat) : Int :=
  min (crashBackoffMinDuration.toInt * 2 ^ min n (Nat.log2 (shortestWaits D))) D.toInt

theorem crashBackoffMinDuration_toInt : crashBackoffMinDuration.toInt = 30000000000 := by
  decide

section

variable {D : Int64} (long : crashBackoffMinDuration ≤ D)
include long

theorem shortestWaits_bounds : 0 < shortestWaits D ∧
    D.toInt ≤ crashBackoffMinDuration.toInt * shortestWaits D ∧ shortestWaits D < 2 ^ 29 := by
  have range := D.toInt_lt
  rw [Int64.le_iff_toInt_le] at long
  rw [shortestWaits]
  rw [crashBackoffMinDuration_toInt] at *
  omega

theorem log2_shortestWaits : Nat.log2 (shortestWaits D) ≤ 28 := by
  obtain ⟨positive, -, below⟩ := shortestWaits_bounds long
  exact Nat.le_of_lt_succ ((Nat.log2_lt positive.ne').mpr below)

theorem calculateMaxBackoffCount_toInt :
    (calculateMaxBackoffCount D).toInt = Nat.log2 (shortestWaits D) := by
  have positive := (shortestWaits_bounds long).1
  have small := log2_shortestWaits long
  unfold calculateMaxBackoffCount
  simp only
  rw [if_neg]
  · exact Int32.toInt_ofNat_of_lt (by show Nat.log2 (shortestWaits D) < _; omega)
  · intro zero
    rw [shortestWaits, zero] at positive
    exact absurd positive (by decide)

/-- Clamping the exponent keeps the shift within 31 bits and the product within 63. -/
theorem checkedBackoff_eq {exponent : Int32} {n : Nat} (count : exponent.toInt = n) :
    ∃ backoff, checkedBackoff exponent (calculateMaxBackoffCount D) = some backoff ∧
      backoff.toInt =
        crashBackoffMinDuration.toInt * 2 ^ min n (Nat.log2 (shortestWaits D)) := by
  have cap := calculateMaxBackoffCount_toInt long
  have small := log2_shortestWaits long
  have clamped : (if exponent > calculateMaxBackoffCount D then calculateMaxBackoffCount D
      else exponent).toInt = min n (Nat.log2 (shortestWaits D)) := by
    simp only [gt_iff_lt, Int32.lt_iff_toInt_lt]
    split <;> omega
  have bound : (2 : Int) ^ min n (Nat.log2 (shortestWaits D)) ≤ 2 ^ 28 :=
    pow_le_pow_right₀ (by norm_num) (by omega)
  have positive : (0 : Int) < 2 ^ min n (Nat.log2 (shortestWaits D)) := by positivity
  unfold checkedBackoff
  generalize (if exponent > calculateMaxBackoffCount D then calculateMaxBackoffCount D
    else exponent) = e at clamped
  generalize min n (Nat.log2 (shortestWaits D)) = m at clamped bound positive
  have nonneg : ¬ e < 0 := by
    rw [Int32.lt_iff_toInt_lt, clamped, Int32.toInt_zero]
    omega
  have power : checkedInt32 (2 ^ e.toInt.toNat) = some (Int32.ofInt (2 ^ m)) := by
    rw [clamped, Int.toNat_natCast]
    exact if_pos ⟨by rw [Int32.toInt_minValue]; omega, by rw [Int32.toInt_maxValue]; omega⟩
  have same : (Int32.ofInt (2 ^ m)).toInt = 2 ^ m := Int32.toInt_ofInt_of_le (by omega) (by omega)
  have fits : Int64.minValue.toInt ≤ crashBackoffMinDuration.toInt * 2 ^ m ∧
      crashBackoffMinDuration.toInt * 2 ^ m ≤ Int64.maxValue.toInt := by
    rw [crashBackoffMinDuration_toInt, Int64.toInt_minValue, Int64.toInt_maxValue]
    omega
  refine ⟨Int64.ofInt (crashBackoffMinDuration.toInt * 2 ^ m), ?_, ?_⟩
  · simp only [nonneg, if_false, power, Option.bind_eq_bind, Option.bind_some, same]
    exact if_pos fits
  · rw [Int64.toInt_minValue, Int64.toInt_maxValue] at fits
    exact Int64.toInt_ofInt_of_le fits.1 (by omega)

theorem shortest_le_wait (n : Nat) : crashBackoffMinDuration.toInt ≤ wait D n := by
  have positive : (0 : Int) < 2 ^ min n (Nat.log2 (shortestWaits D)) := by positivity
  rw [Int64.le_iff_toInt_le] at long
  rw [wait, crashBackoffMinDuration_toInt] at *
  omega

theorem wait_zero : wait D 0 = crashBackoffMinDuration.toInt := by
  rw [Int64.le_iff_toInt_le] at long
  rw [wait, Nat.zero_min, pow_zero, mul_one, min_eq_left long]

/-- At the cap of the exponent the wait is more than half of the longest one. -/
theorem lt_two_mul_wait {n : Nat} (capped : Nat.log2 (shortestWaits D) ≤ n) :
    D.toInt < 2 * wait D n := by
  obtain ⟨positive, upper, -⟩ := shortestWaits_bounds long
  have below : shortestWaits D < 2 ^ Nat.log2 (shortestWaits D) * 2 := by
    rw [← pow_succ]
    exact Nat.lt_log2_self
  have cast : (shortestWaits D : Int) < 2 ^ Nat.log2 (shortestWaits D) * 2 := by
    exact_mod_cast below
  rw [Int64.le_iff_toInt_le] at long
  rw [wait, min_eq_right capped, crashBackoffMinDuration_toInt] at *
  omega

end

theorem wait_le (D : Int64) (n : Nat) : wait D n ≤ D.toInt :=
  min_le_right _ _

theorem wait_mono (D : Int64) {m n : Nat} (h : m ≤ n) : wait D m ≤ wait D n := by
  have power : (2 : Int) ^ min m (Nat.log2 (shortestWaits D)) ≤
      2 ^ min n (Nat.log2 (shortestWaits D)) :=
    pow_le_pow_right₀ (by norm_num) (by omega)
  rw [wait, wait, crashBackoffMinDuration_toInt]
  omega

theorem wait_succ (D : Int64) (n : Nat) :
    wait D (n + 1) = 2 * wait D n ∨ wait D (n + 1) = D.toInt ∨ wait D (n + 1) = wait D n := by
  unfold wait
  by_cases capped : Nat.log2 (shortestWaits D) ≤ n
  · rw [min_eq_right capped, min_eq_right (Nat.le_succ_of_le capped)]
    exact .inr (.inr rfl)
  · have below : n + 1 ≤ Nat.log2 (shortestWaits D) := Nat.lt_of_not_le capped
    have positive : (0 : Int) < 2 ^ n := by positivity
    rw [min_eq_left below, min_eq_left (Nat.le_of_succ_le below), pow_succ,
      crashBackoffMinDuration_toInt]
    omega

/-! ### What a calculator decides -/

/-- The crashes beyond the immediate restarts. -/
def RestartCalculator.late (r : RestartCalculator) (crashCount : Int32) : Nat :=
  (crashCount.toInt - r.immediateRestarts.toInt).toNat

section

variable {I M : Int32} {D : Int64} (long : crashBackoffMinDuration ≤ D) (unsigned : 0 ≤ I)
  {now crashedAt : Int64} {crashCount : Int32}
include long unsigned

/-- The branch with the backoff: no operation overflows, and the comparison is with `wait`. -/
theorem checkedShouldRestart_backoff
    (fits : crashedAt.toInt + D.toInt ≤ Int64.maxValue.toInt)
    (late : I ≤ crashCount) (attempted : crashCount < M) :
    (newRestartCalculator I D M).checkedShouldRestart now crashedAt crashCount =
      some (decide (crashedAt.toInt +
        wait D ((newRestartCalculator I D M).late crashCount) ≤ now.toInt)) := by
  have notImmediate : ¬ crashCount < I := Int32.not_lt.mpr late
  rw [Int32.le_iff_toInt_le] at late unsigned
  rw [Int32.toInt_zero] at unsigned
  have countRange := crashCount.toInt_lt
  have timeRange := crashedAt.le_toInt
  have difference : checkedInt32 (crashCount.toInt - I.toInt) =
      some (Int32.ofInt (crashCount.toInt - I.toInt)) :=
    if_pos ⟨by rw [Int32.toInt_minValue]; omega, by rw [Int32.toInt_maxValue]; omega⟩
  have exponent : (Int32.ofInt (crashCount.toInt - I.toInt)).toInt =
      (crashCount.toInt - I.toInt).toNat := by
    rw [Int32.toInt_ofInt_of_le (by omega) (by omega)]
    omega
  obtain ⟨backoff, backs, value⟩ := checkedBackoff_eq long exponent
  have capped : (if backoff > D then D else backoff).toInt =
      wait D (crashCount.toInt - I.toInt).toNat := by
    rw [wait, ← value]
    simp only [gt_iff_lt, Int64.lt_iff_toInt_lt]
    split <;> omega
  have lower := shortest_le_wait long (crashCount.toInt - I.toInt).toNat
  have upper := wait_le D (crashCount.toInt - I.toInt).toNat
  rw [crashBackoffMinDuration_toInt] at lower
  rw [Int64.toInt_maxValue] at fits
  have sum : ∀ w, w ≤ D.toInt → 30000000000 ≤ w →
      checkedInt64 (crashedAt.toInt + w) = some (Int64.ofInt (crashedAt.toInt + w)) := by
    intro w upper lower
    exact if_pos ⟨by rw [Int64.toInt_minValue]; omega, by rw [Int64.toInt_maxValue]; omega⟩
  refine (if_neg notImmediate).trans ((if_pos attempted).trans ?_)
  show ((checkedInt32 (crashCount.toInt - I.toInt)).bind fun exponent =>
    (checkedBackoff exponent (calculateMaxBackoffCount D)).bind fun backoff =>
      (checkedInt64 (crashedAt.toInt + (if backoff > D then D else backoff).toInt)).bind fun next =>
        some (decide (next ≤ now))) = _
  rw [difference, Option.bind_some, backs, Option.bind_some, capped, sum _ upper lower,
    Option.bind_some]
  simp only [Int64.le_iff_toInt_le]
  rw [Int64.toInt_ofInt_of_le (by omega) (by omega)]
  rfl

theorem checkedShouldRestart_isSome (fits : crashedAt.toInt + D.toInt ≤ Int64.maxValue.toInt) :
    ∃ restart,
      (newRestartCalculator I D M).checkedShouldRestart now crashedAt crashCount = some restart := by
  by_cases immediate : crashCount < I
  · exact ⟨true, if_pos immediate⟩
  · by_cases attempted : crashCount < M
    · exact ⟨_, checkedShouldRestart_backoff long unsigned fits (Int32.not_lt.mp immediate)
        attempted⟩
    · exact ⟨false, (if_neg immediate).trans (if_neg attempted)⟩

/-- `ShouldRestart` as a comparison of numbers. -/
theorem shouldRestart_iff (fits : crashedAt.toInt + D.toInt ≤ Int64.maxValue.toInt) :
    (newRestartCalculator I D M).shouldRestart now crashedAt crashCount = some true ↔
      crashCount < I ∨ I ≤ crashCount ∧ crashCount < M ∧
        crashedAt.toInt + wait D ((newRestartCalculator I D M).late crashCount) ≤ now.toInt := by
  by_cases immediate : crashCount < I
  · simp [RestartCalculator.shouldRestart, newRestartCalculator, immediate]
  · have later := Int32.not_lt.mp immediate
    by_cases attempted : crashCount < M
    · rw [RestartCalculator.shouldRestart_of_checked
        (checkedShouldRestart_backoff long unsigned fits later attempted)]
      simp [immediate, later, attempted]
    · simp [RestartCalculator.shouldRestart, newRestartCalculator, immediate, attempted]

end

/-- A calculator whose restarts are spaced by the wait `w`, a function of the number of
crashes. -/
structure RestartCalculator.Spaced (r : RestartCalculator) (w : Int32 → Int) : Prop where
  /-- No panic and no overflow. -/
  returns : ∀ now crashedAt crashCount,
    crashedAt.toInt + r.maxBackoffDuration.toInt ≤ Int64.maxValue.toInt →
    ∃ restart, r.checkedShouldRestart now crashedAt crashCount = some restart ∧
      r.shouldRestart now crashedAt crashCount = some restart
  bounds : ∀ crashCount, r.immediateRestarts ≤ crashCount → crashCount < r.maxRestartAttempts →
    crashBackoffMinDuration.toInt ≤ w crashCount ∧ w crashCount ≤ r.maxBackoffDuration.toInt
  due : ∀ now crashedAt crashCount,
    crashedAt.toInt + r.maxBackoffDuration.toInt ≤ Int64.maxValue.toInt →
    r.immediateRestarts ≤ crashCount → crashCount < r.maxRestartAttempts →
    (r.shouldRestart now crashedAt crashCount = some true ↔
      crashedAt.toInt + w crashCount ≤ now.toInt)
  first : w r.immediateRestarts = crashBackoffMinDuration.toInt
  next : ∀ crashCount later, r.immediateRestarts ≤ crashCount →
    later.toInt = crashCount.toInt + 1 →
    (w later = 2 * w crashCount ∨ w later = r.maxBackoffDuration.toInt ∨ w later = w crashCount) ∧
      w crashCount ≤ w later
  half : ∀ crashCount, r.maxBackoffCount.toInt ≤ crashCount.toInt - r.immediateRestarts.toInt →
    r.maxBackoffDuration.toInt < 2 * w crashCount
  /-- Monotone in `now`, antitone in `crashedAt` and in `crashCount`. -/
  monotone : ∀ {now now' crashedAt crashedAt' crashCount crashCount'},
    crashedAt.toInt + r.maxBackoffDuration.toInt ≤ Int64.maxValue.toInt →
    now ≤ now' → crashedAt' ≤ crashedAt → crashCount' ≤ crashCount →
    r.shouldRestart now crashedAt crashCount = some true →
    r.shouldRestart now' crashedAt' crashCount' = some true

/-- The restart backoff is well defined, bounded and monotone, for every longest wait of at
least 30 seconds, every number of immediate restarts and every number of attempts. -/
theorem restarts_spaced (I M : Int32) (D : Int64) (long : crashBackoffMinDuration ≤ D)
    (unsigned : 0 ≤ I) : ∃ w, (newRestartCalculator I D M).Spaced w := by
  refine ⟨fun crashCount => wait D ((newRestartCalculator I D M).late crashCount), ?_⟩
  constructor
  case returns =>
    intro now crashedAt crashCount fits
    obtain ⟨restart, checked⟩ := checkedShouldRestart_isSome long unsigned fits
    exact ⟨restart, checked, RestartCalculator.shouldRestart_of_checked checked⟩
  case bounds =>
    intro crashCount _ _
    exact ⟨shortest_le_wait long _, wait_le D _⟩
  case due =>
    intro now crashedAt crashCount fits late attempted
    have notImmediate : ¬ crashCount < I := Int32.not_lt.mpr late
    rw [shouldRestart_iff long unsigned fits]
    constructor
    · rintro (immediate | ⟨-, -, due⟩)
      · exact absurd immediate notImmediate
      · exact due
    · intro due
      exact .inr ⟨late, attempted, due⟩
  case first =>
    have none : (newRestartCalculator I D M).late I = 0 := by
      simp [RestartCalculator.late, newRestartCalculator]
    show wait D ((newRestartCalculator I D M).late I) = _
    rw [none, wait_zero long]
  case next =>
    intro crashCount later le succ
    have succ : (newRestartCalculator I D M).late later =
        (newRestartCalculator I D M).late crashCount + 1 := by
      rw [Int32.le_iff_toInt_le] at le
      simp only [RestartCalculator.late, newRestartCalculator] at *
      omega
    show (wait D ((newRestartCalculator I D M).late later) = _ ∨ _) ∧
      _ ≤ wait D ((newRestartCalculator I D M).late later)
    rw [succ]
    exact ⟨wait_succ D _, wait_mono D (Nat.le_succ _)⟩
  case half =>
    intro crashCount capped
    refine lt_two_mul_wait long ?_
    have cap := calculateMaxBackoffCount_toInt long
    simp only [RestartCalculator.late, newRestartCalculator] at *
    omega
  case monotone =>
    intro now now' crashedAt crashedAt' crashCount crashCount' fits nowLe crashedLe countLe due
    rw [Int64.le_iff_toInt_le] at nowLe crashedLe
    have fits' : crashedAt'.toInt + D.toInt ≤ Int64.maxValue.toInt :=
      (Int.add_le_add_right crashedLe _).trans fits
    rw [shouldRestart_iff long unsigned fits']
    rcases (shouldRestart_iff long unsigned fits).mp due with immediate | ⟨late, attempted, due⟩
    · exact .inl (Int32.lt_of_le_of_lt countLe immediate)
    · by_cases immediate : crashCount' < I
      · exact .inl immediate
      · have fewer : (newRestartCalculator I D M).late crashCount' ≤
            (newRestartCalculator I D M).late crashCount := by
          rw [Int32.le_iff_toInt_le] at countLe
          simp only [RestartCalculator.late, newRestartCalculator]
          omega
        have shorter := wait_mono D fewer
        exact .inr ⟨Int32.not_lt.mp immediate, Int32.lt_of_le_of_lt countLe attempted, by omega⟩

theorem restarts_spaced_default : (crashBackoffMinDuration ≤ defaultMaxBackoffDuration ∧
    0 ≤ defaultImmediateRestarts) ∧ ∃ w, newDefaultRestartCalculator.Spaced w :=
  ⟨by decide, restarts_spaced defaultImmediateRestarts defaultMaxRestarts
    defaultMaxBackoffDuration (by decide) (by decide)⟩

end Bbs.Models
