import Mathlib.Algebra.BigOperators.Fin
import Mathlib.Algebra.Order.BigOperators.Group.Finset
import Mathlib.Data.List.FinRange
import Bbs.Interaction.Traces

/-!
A pool of workers that gather results.

A job is computed by some worker; at most `size` jobs are under way at a time. A job
that fails stores its error. Any other job takes a lock, copies the results so far,
writes them back with its own results appended, and releases the lock.

Whatever the order of the steps, the pool can always go on until every job is done
(`Sound.progress`, `Sound.finishes`). It then holds the error of a job that failed, or no job
failed and the results are those of all jobs, in some order (`outcome`).
-/

namespace Bbs.Workpool

open Bbs.Interaction
open Function (update)

variable {R E : Type} {n : Nat}

/-- Where a job is. -/
inductive Phase (R : Type) where
  | waiting
  | computed
  | locked
  | copied (sofar : List R)
  | written
  | done

namespace Phase

def underWay : Phase R → Bool
  | waiting => false
  | done => false
  | _ => true

def holding : Phase R → Bool
  | locked => true
  | copied _ => true
  | written => true
  | _ => false

/-- The results of the job are among those gathered. -/
def gathered : Phase R → Bool
  | written => true
  | done => true
  | _ => false

/-- How many steps are left at most. -/
def left : Phase R → Nat
  | waiting => 5
  | computed => 4
  | locked => 3
  | copied _ => 2
  | written => 1
  | done => 0

end Phase

structure Pool (R E : Type) (n : Nat) where
  phase : Fin n → Phase R
  holder : Option (Fin n)
  results : List R
  error : Option E

def Pool.init : Pool R E n where
  phase := fun _ => .waiting
  holder := none
  results := []
  error := none

def Pool.underWay (pool : Pool R E n) : Nat :=
  (Finset.univ.filter fun i => (pool.phase i).underWay = true).card

def Pool.Completed (pool : Pool R E n) : Prop :=
  ∀ i, pool.phase i = .done

/-- Job `i` takes a step. -/
inductive Step (work : Fin n → Except E (List R)) (size : Nat) :
    Pool R E n → Fin n → Pool R E n → Prop where
  | start {pool : Pool R E n} {i : Fin n} (here : pool.phase i = .waiting)
      (room : pool.underWay < size) :
      Step work size pool i { pool with phase := update pool.phase i .computed }
  | store {pool : Pool R E n} {i : Fin n} {e : E} (here : pool.phase i = .computed)
      (failed : work i = .error e) :
      Step work size pool i { pool with phase := update pool.phase i .done, error := some e }
  | lock {pool : Pool R E n} {i : Fin n} {own : List R} (here : pool.phase i = .computed)
      (succeeded : work i = .ok own) (free : pool.holder = none) :
      Step work size pool i { pool with phase := update pool.phase i .locked, holder := some i }
  | copy {pool : Pool R E n} {i : Fin n} (here : pool.phase i = .locked) :
      Step work size pool i { pool with phase := update pool.phase i (.copied pool.results) }
  | write {pool : Pool R E n} {i : Fin n} {sofar own : List R} (here : pool.phase i = .copied sofar)
      (succeeded : work i = .ok own) :
      Step work size pool i
        { pool with phase := update pool.phase i .written, results := sofar ++ own }
  | unlock {pool : Pool R E n} {i : Fin n} (here : pool.phase i = .written) :
      Step work size pool i { pool with phase := update pool.phase i .done, holder := none }

/-! ### The invariant -/

variable {work : Fin n → Except E (List R)} {size : Nat} {pool pool' : Pool R E n} {i : Fin n}
  {labels : List (Fin n)}

/-- What a job yields. -/
def yield (outcome : Except E (List R)) : List R :=
  match outcome with
  | .ok own => own
  | .error _ => []

/-- What job `i` has contributed to the results. -/
def Pool.share (work : Fin n → Except E (List R)) (pool : Pool R E n) (i : Fin n) : List R :=
  if (pool.phase i).gathered then yield (work i) else []

structure Sound (work : Fin n → Except E (List R)) (pool : Pool R E n) : Prop where
  holder : ∀ i, pool.holder = some i ↔ (pool.phase i).holding = true
  copied : ∀ i sofar, pool.phase i = .copied sofar → sofar = pool.results
  succeeded : ∀ i, (pool.phase i).holding = true → ∃ own, work i = .ok own
  results : pool.results.Perm ((List.finRange n).flatMap (pool.share work))
  stored : ∀ e, pool.error = some e → ∃ i, work i = .error e
  failed : ∀ i e, pool.phase i = .done → work i = .error e → pool.error ≠ none

theorem init_sound : Sound work Pool.init where
  holder i := by simp [Pool.init, Phase.holding]
  copied i sofar := by simp [Pool.init]
  succeeded i := by simp [Pool.init, Phase.holding]
  results := by
    have empty : Pool.init.share work = fun _ => [] := by
      funext i
      simp [Pool.share, Pool.init, Phase.gathered]
    rw [empty]
    simp [Pool.init]
  stored e := by simp [Pool.init]
  failed i e := by simp [Pool.init]

/-- Results that one more element contributes come to the others. -/
theorem flatMap_update_perm {ι : Type} [DecidableEq ι] {l : List ι} (nodup : l.Nodup) {i : ι}
    (mem : i ∈ l) {f : ι → List R} (empty : f i = []) (own : List R) :
    (l.flatMap (update f i own)).Perm (l.flatMap f ++ own) := by
  induction l with
  | nil => cases mem
  | cons j l ih =>
      obtain ⟨fresh, nodup⟩ := List.nodup_cons.mp nodup
      rw [List.flatMap_cons, List.flatMap_cons]
      by_cases here : j = i
      · subst here
        have rest : l.flatMap (update f j own) = l.flatMap f := by
          refine List.flatMap_congr fun k later => ?_
          rw [Function.update_of_ne]
          rintro rfl
          exact fresh later
        rw [Function.update_self, rest, empty, List.nil_append]
        exact List.perm_append_comm
      · rw [Function.update_of_ne here, List.append_assoc]
        have mem : i ∈ l := (List.mem_cons.mp mem).resolve_left (Ne.symm here)
        exact (ih nodup mem).append_left _

theorem share_update {phase : Phase R} {holder : Option (Fin n)} {results : List R}
    {error : Option E} (same : phase.gathered = (pool.phase i).gathered ∨ yield (work i) = []) :
    Pool.share work ⟨update pool.phase i phase, holder, results, error⟩ = pool.share work := by
  funext j
  by_cases here : j = i
  · subst here
    rcases same with same | empty
    · simp [Pool.share, same]
    · simp [Pool.share, empty]
  · simp [Pool.share, here]

/-- A job moves on, and neither the lock nor the results change. -/
theorem Sound.move {phase : Phase R} {error : Option E} (sound : Sound work pool)
    (holding : phase.holding = (pool.phase i).holding)
    (gathered : phase.gathered = (pool.phase i).gathered ∨ yield (work i) = [])
    (copied : ∀ sofar, phase = .copied sofar → sofar = pool.results)
    (stored : ∀ e, error = some e → ∃ i, work i = .error e)
    (kept : pool.error ≠ none → error ≠ none)
    (failed : ∀ e, phase = .done → work i = .error e → error ≠ none) :
    Sound work ⟨update pool.phase i phase, pool.holder, pool.results, error⟩ where
  holder := (Function.forall_update_iff pool.phase
    (fun j phase => pool.holder = some j ↔ phase.holding = true)).mpr
      ⟨by rw [holding]; exact sound.holder i, fun j _ => sound.holder j⟩
  copied := (Function.forall_update_iff pool.phase
    (fun j phase => ∀ sofar, phase = .copied sofar → sofar = pool.results)).mpr
      ⟨copied, fun j _ => sound.copied j⟩
  succeeded := (Function.forall_update_iff pool.phase
    (fun j phase => phase.holding = true → ∃ own, work j = .ok own)).mpr
      ⟨by rw [holding]; exact sound.succeeded i, fun j _ => sound.succeeded j⟩
  results := by
    rw [share_update gathered]
    exact sound.results
  stored := stored
  failed := (Function.forall_update_iff pool.phase
    (fun j phase => ∀ e, phase = .done → work j = .error e → error ≠ none)).mpr
      ⟨failed, fun j _ e done failed => kept (sound.failed j e done failed)⟩

theorem Sound.lock {own : List R} (sound : Sound work pool) (here : pool.phase i = .computed)
    (succeeded : work i = .ok own) (free : pool.holder = none) :
    Sound work { pool with phase := update pool.phase i .locked, holder := some i } where
  holder := by
    refine (Function.forall_update_iff pool.phase
      (fun j phase => some i = some j ↔ phase.holding = true)).mpr ⟨by simp [Phase.holding], ?_⟩
    intro j other
    have idle := sound.holder j
    rw [free] at idle
    rw [← idle]
    simp [Ne.symm other]
  copied := (Function.forall_update_iff pool.phase
    (fun j phase => ∀ sofar, phase = .copied sofar → sofar = pool.results)).mpr
      ⟨by simp, fun j _ => sound.copied j⟩
  succeeded := (Function.forall_update_iff pool.phase
    (fun j phase => phase.holding = true → ∃ own, work j = .ok own)).mpr
      ⟨fun _ => ⟨own, succeeded⟩, fun j _ => sound.succeeded j⟩
  results := by
    rw [share_update (.inl (by rw [here]; rfl))]
    exact sound.results
  stored := sound.stored
  failed := (Function.forall_update_iff pool.phase
    (fun j phase => ∀ e, phase = .done → work j = .error e → pool.error ≠ none)).mpr
      ⟨by simp, fun j _ => sound.failed j⟩

/-- Nobody else holds the lock. -/
theorem Sound.alone {j : Fin n} (sound : Sound work pool) (here : (pool.phase i).holding = true)
    (there : (pool.phase j).holding = true) : j = i := by
  have holds := (sound.holder i).mpr here
  rw [(sound.holder j).mpr there] at holds
  exact Option.some.inj holds

theorem Sound.write {sofar own : List R} (sound : Sound work pool)
    (here : pool.phase i = .copied sofar) (succeeded : work i = .ok own) :
    Sound work { pool with phase := update pool.phase i .written, results := sofar ++ own } where
  holder := (Function.forall_update_iff pool.phase
    (fun j phase => pool.holder = some j ↔ phase.holding = true)).mpr
      ⟨by rw [sound.holder i, here]; rfl, fun j _ => sound.holder j⟩
  copied := by
    refine (Function.forall_update_iff pool.phase
      (fun j phase => ∀ sofar', phase = .copied sofar' → sofar' = sofar ++ own)).mpr ⟨by simp, ?_⟩
    intro j other sofar' there
    exact absurd (sound.alone (by rw [here]; rfl) (by rw [there]; rfl)) other
  succeeded := (Function.forall_update_iff pool.phase
    (fun j phase => phase.holding = true → ∃ own, work j = .ok own)).mpr
      ⟨fun _ => ⟨own, succeeded⟩, fun j _ => sound.succeeded j⟩
  results := by
    have share : Pool.share work
        ⟨update pool.phase i .written, pool.holder, sofar ++ own, pool.error⟩ =
          update (pool.share work) i own := by
      funext j
      by_cases same : j = i
      · subst same
        simp [Pool.share, Phase.gathered, yield, succeeded]
      · simp [Pool.share, same]
    have empty : pool.share work i = [] := by
      rw [Pool.share, here]
      rfl
    rw [share, sound.copied i sofar here]
    refine .trans ?_ (flatMap_update_perm (List.nodup_finRange n) (List.mem_finRange i) empty own).symm
    exact sound.results.append_right own
  stored := sound.stored
  failed := (Function.forall_update_iff pool.phase
    (fun j phase => ∀ e, phase = .done → work j = .error e → pool.error ≠ none)).mpr
      ⟨by simp, fun j _ => sound.failed j⟩

theorem Sound.unlock (sound : Sound work pool) (here : pool.phase i = .written) :
    Sound work { pool with phase := update pool.phase i .done, holder := none } where
  holder := by
    refine (Function.forall_update_iff pool.phase
      (fun j phase => none = some j ↔ phase.holding = true)).mpr ⟨by simp [Phase.holding], ?_⟩
    intro j other
    have idle : ¬(pool.phase j).holding = true := fun there =>
      other (sound.alone (by rw [here]; rfl) there)
    simpa using idle
  copied := (Function.forall_update_iff pool.phase
    (fun j phase => ∀ sofar, phase = .copied sofar → sofar = pool.results)).mpr
      ⟨by simp, fun j _ => sound.copied j⟩
  succeeded := (Function.forall_update_iff pool.phase
    (fun j phase => phase.holding = true → ∃ own, work j = .ok own)).mpr
      ⟨by simp [Phase.holding], fun j _ => sound.succeeded j⟩
  results := by
    rw [share_update (.inl (by rw [here]; rfl))]
    exact sound.results
  stored := sound.stored
  failed := by
    refine (Function.forall_update_iff pool.phase
      (fun j phase => ∀ e, phase = .done → work j = .error e → pool.error ≠ none)).mpr
        ⟨fun e _ failed => ?_, fun j _ => sound.failed j⟩
    obtain ⟨own, succeeded⟩ := sound.succeeded i (by rw [here]; rfl)
    rw [succeeded] at failed
    cases failed

theorem Step.sound (step : Step work size pool i pool') (sound : Sound work pool) :
    Sound work pool' := by
  cases step with
  | start here room =>
      exact sound.move (by rw [here]; rfl) (.inl (by rw [here]; rfl)) (by simp) sound.stored id (by simp)
  | store here failed =>
      refine sound.move (by rw [here]; rfl) (.inr (by rw [failed]; rfl)) (by simp) ?_ (by simp) (by simp)
      intro e stored
      cases stored
      exact ⟨i, failed⟩
  | lock here succeeded free => exact sound.lock here succeeded free
  | copy here =>
      exact sound.move (by rw [here]; rfl) (.inl (by rw [here]; rfl)) (by simp) sound.stored id (by simp)
  | write here succeeded => exact sound.write here succeeded
  | unlock here => exact sound.unlock here

theorem sound (run : Trace (Step work size) Pool.init labels pool) : Sound work pool :=
  run.invariant init_sound fun _ _ _ here step => step.sound here

/-! ### The end -/

/-- **The outcome does not depend on the order.** -/
theorem outcome (run : Trace (Step work size) Pool.init labels pool) (completed : pool.Completed) :
    (pool.error = none ↔ ∀ i, ∃ own, work i = .ok own) ∧
      pool.results.Perm ((List.finRange n).flatMap fun i => yield (work i)) := by
  have here := sound run
  refine ⟨⟨fun none i => ?_, fun succeeded => ?_⟩, ?_⟩
  · cases outcome : work i with
    | ok own => exact ⟨own, rfl⟩
    | error e => exact absurd none (here.failed i e (completed i) outcome)
  · by_contra stored
    obtain ⟨e, stored⟩ := Option.ne_none_iff_exists'.mp stored
    obtain ⟨i, failed⟩ := here.stored e stored
    obtain ⟨own, succeeded⟩ := succeeded i
    rw [failed] at succeeded
    cases succeeded
  · have all : pool.share work = fun i => yield (work i) := by
      funext i
      rw [Pool.share, completed i]
      rfl
    rw [← all]
    exact here.results

def Pool.left (pool : Pool R E n) : Nat :=
  ∑ i, (pool.phase i).left

theorem left_update {phase : Phase R} {holder : Option (Fin n)} {results : List R}
    {error : Option E} (fewer : phase.left < (pool.phase i).left) :
    Pool.left ⟨update pool.phase i phase, holder, results, error⟩ < pool.left := by
  refine Finset.sum_lt_sum (fun j _ => ?_) ⟨i, Finset.mem_univ i, by simpa using fewer⟩
  by_cases here : j = i
  · subst here
    simpa using fewer.le
  · simp [here]

theorem Step.left (step : Step work size pool i pool') : pool'.left < pool.left := by
  cases step with
  | start here _ => exact left_update (by simp [here, Phase.left])
  | store here _ => exact left_update (by simp [here, Phase.left])
  | lock here _ _ => exact left_update (by simp [here, Phase.left])
  | copy here => exact left_update (by simp [here, Phase.left])
  | write here _ => exact left_update (by simp [here, Phase.left])
  | unlock here => exact left_update (by simp [here, Phase.left])

/-- As long as a job is not done, some job can go on. -/
theorem Sound.progress (sound : Sound work pool) (positive : 0 < size)
    (unfinished : ¬pool.Completed) : ∃ i pool', Step work size pool i pool' := by
  cases holder : pool.holder with
  | some i =>
      -- whoever holds the lock can go on
      have holding := (sound.holder i).mp holder
      obtain ⟨own, succeeded⟩ := sound.succeeded i holding
      cases here : pool.phase i with
      | locked => exact ⟨i, _, .copy here⟩
      | copied sofar => exact ⟨i, _, .write here succeeded⟩
      | written => exact ⟨i, _, .unlock here⟩
      | waiting | computed | done =>
          rw [here] at holding
          cases holding
  | none =>
      by_cases some : ∃ i, pool.phase i = .computed
      · obtain ⟨i, here⟩ := some
        cases outcome : work i with
        | error e => exact ⟨i, _, .store here outcome⟩
        | ok own => exact ⟨i, _, .lock here outcome holder⟩
      · -- nothing is under way, so there is room to start a job
        have idle (i : Fin n) : (pool.phase i).underWay = false := by
          have free := sound.holder i
          rw [holder] at free
          cases here : pool.phase i with
          | waiting | done => rfl
          | computed => exact absurd ⟨i, here⟩ some
          | locked | copied | written =>
              rw [here] at free
              exact absurd (free.mpr rfl) (by simp)
        obtain ⟨i, here⟩ := not_forall.mp unfinished
        have waiting : pool.phase i = .waiting := by
          have idle := idle i
          cases there : pool.phase i with
          | waiting => rfl
          | done => exact absurd there here
          | computed | locked | copied | written =>
              rw [there] at idle
              cases idle
        have room : pool.underWay < size := by
          simpa [Pool.underWay, idle] using positive
        exact ⟨i, _, .start waiting room⟩

/-- Every run can be continued until all jobs are done. -/
theorem Sound.finishes (sound : Sound work pool) (positive : 0 < size) :
    ∃ labels pool', Trace (Step work size) pool labels pool' ∧ pool'.Completed := by
  induction steps : pool.left using Nat.strong_induction_on generalizing pool with
  | _ steps ih =>
      by_cases completed : pool.Completed
      · exact ⟨[], pool, .nil, completed⟩
      · obtain ⟨i, middle, step⟩ := sound.progress positive completed
        obtain ⟨labels, pool', rest, completed⟩ :=
          ih _ (by rw [← steps]; exact step.left) (step.sound sound) rfl
        exact ⟨_, pool', .append (.snoc .nil step) rest, completed⟩

end Bbs.Workpool
