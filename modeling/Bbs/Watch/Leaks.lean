import Bbs.Watch.Supervision

/-!
Dispatchers that are left behind.

A dispatcher sends its error to a channel without a buffer. Once the watcher holds that
channel no more, nobody receives from it, and the dispatcher is blocked for good.
Two steps do that (`Watcher.Strands`): the watcher handles a hub size of 0 after `Watch`
has failed and before the error was received, or `Watch` fails after the dispatcher was
told to stop.
-/

namespace Bbs.Watch

open Bbs.Interaction
open Function (update)

variable {w w' : Watcher} {kind : Kind} {x : WatcherLabel} {labels : List WatcherLabel} {d : Nat}

/-- Sending an error that the watcher cannot receive. -/
def Watcher.Blocked (w : Watcher) (d : Nat) : Prop :=
  w.phase d = some .failing ∧ ∀ kind, (w.vars kind).errors ≠ some d

def Watcher.Told (w : Watcher) (d : Nat) : Prop :=
  ∃ dispatch, w.dispatchers d = some dispatch ∧ dispatch.told = true

/-- The event leaves the dispatcher behind. -/
def Watcher.Strands (w : Watcher) (x : WatcherLabel) (d : Nat) : Prop :=
  match x with
  | .hubNotification size _ _ =>
      size = 0 ∧ w.phase d = some .failing ∧ ∃ kind, (w.vars kind).errors = some d
  | .watchReturns e result =>
      e = d ∧ Dispatcher.afterWatch result = .failing ∧ ∀ kind, (w.vars kind).errors ≠ some d
  | _ => False

/-- A step that leaves no dispatcher behind. -/
def TimelyStep (w : Watcher) (x : WatcherLabel) (w' : Watcher) : Prop :=
  WatcherStep w x w' ∧ ∀ d, ¬w.Strands x d

/-! ### What makes a dispatcher blocked -/

theorem blocked_vars {own : Vars}
    (errors : own.errors = some d ↔ (w.vars kind).errors = some d) :
    Watcher.Blocked { w with vars := update w.vars kind own } d ↔ w.Blocked d := by
  refine and_congr_right fun _ => forall_congr' fun k => ?_
  by_cases same : k = kind
  · subst same
    simp [errors]
  · simp [same]

theorem blocked_update {dispatch : Dispatch} {e : Nat} :
    Watcher.Blocked { w with dispatchers := update w.dispatchers e (some dispatch) } d ↔
      if d = e then dispatch.dispatcher = .failing ∧ ∀ kind, (w.vars kind).errors ≠ some d
      else w.Blocked d := by
  by_cases here : d = e
  · subst here
    simp [Watcher.Blocked, Watcher.phase]
  · simp [Watcher.Blocked, Watcher.phase, here]

/-- A watch that is started does not change which dispatchers are blocked. -/
theorem watch_blocked {e : Nat} (errors : (w.vars kind).errors = none)
    (fresh : w.dispatchers e = none) : (w.watch kind e).Blocked d ↔ w.Blocked d := by
  by_cases here : d = e
  · subst here
    simp [Watcher.Blocked, Watcher.phase, Watcher.watch, newDispatch, fresh]
  · have phase : (w.watch kind e).phase d = w.phase d := by
      simp [Watcher.phase, Watcher.watch, here]
    rw [Watcher.Blocked, Watcher.Blocked, phase]
    refine and_congr_right fun _ => forall_congr' fun k => ?_
    by_cases same : k = kind
    · subst same
      simp [Watcher.watch, errors, Ne.symm here]
    · simp [Watcher.watch, same]

theorem ensure_blocked {e : Nat} (errors : (w.vars kind).errors = (w.vars kind).stop)
    (fresh : w.dispatchers e = none) : (w.ensure kind e).Blocked d ↔ w.Blocked d := by
  unfold Watcher.ensure
  split
  · rename_i none
    rw [none] at errors
    exact watch_blocked errors fresh
  · rfl

theorem Stopped.blocked (stopped : Stopped w kind w')
    (errors : (w'.vars kind).errors = (w.vars kind).errors) : w'.Blocked d ↔ w.Blocked d := by
  rw [Watcher.Blocked, Watcher.Blocked, stopped.phase]
  refine and_congr_right fun _ => forall_congr' fun k => ?_
  by_cases same : k = kind
  · rw [same, errors]
  · rw [stopped.others k same]

/-- After a hub size of 0 no `errors` channel is held, and every dispatcher is where it
was. -/
theorem Watcher.Attended.silenced (attended : w.Attended)
    (silences : ((w.silence .desired).bind fun w => w.silence .actual) = some w') :
    (∀ kind, (w'.vars kind).errors = none) ∧ ∀ d, w'.phase d = w.phase d := by
  obtain ⟨middle, stopped, stopped', errors⟩ := attended.silenceBoth silences
  exact ⟨errors, fun d => (stopped'.phase d).trans (stopped.phase d)⟩

/-- So a hub size of 0 leaves behind whoever is about to send an error. -/
theorem Watcher.Attended.silenced_blocked (attended : w.Attended) {d' e : Nat}
    (silences : ((w.silence .desired).bind fun w => w.silence .actual) = some w') :
    Watcher.Blocked { w' with hubSize := 0 } d ↔
      w.Blocked d ∨ w.Strands (.hubNotification 0 d' e) d := by
  obtain ⟨errors, phase⟩ := attended.silenced silences
  have blocked : Watcher.Blocked { w' with hubSize := 0 } d ↔ w.phase d = some .failing := by
    rw [← phase d]
    exact and_iff_left fun kind => by simp [errors]
  rw [blocked]
  constructor
  · intro failing
    by_cases held : ∃ kind, (w.vars kind).errors = some d
    · exact .inr ⟨rfl, failing, held⟩
    · exact .inl ⟨failing, fun kind holds => held ⟨kind, holds⟩⟩
  · rintro (blocked | strands)
    · exact blocked.1
    · exact strands.2.1

/-- A hub size other than 0 leaves nobody behind. -/
theorem Watcher.Attended.ensured_blocked (attended : w.Attended) {d' e : Nat}
    (fresh : w.dispatchers d' = none) (fresh' : w.dispatchers e = none) (apart : d' ≠ e) :
    ((w.ensure .desired d').ensure .actual e).Blocked d ↔ w.Blocked d := by
  have started := attended.toSane.ensure attended.held (attended.errors .desired) fresh
  have errors : ((w.ensure .desired d').vars .actual).errors =
      ((w.ensure .desired d').vars .actual).stop := by
    rw [started.others .actual (by simp)]
    exact attended.errors .actual
  exact (ensure_blocked errors (started.fresh fresh' apart)).trans
    (ensure_blocked (attended.errors .desired) fresh)

/-- **A dispatcher is blocked if it was, or if the step leaves it behind.** -/
theorem WatcherStep.blocked_iff (step : WatcherStep w x w') (here : w.Supervised) :
    w'.Blocked d ↔ w.Blocked d ∨ w.Strands x d := by
  cases step with
  | hubEmpty running silences => exact (here.attended running).silenced_blocked silences
  | @hubSize size d' e running size_ne fresh fresh' apart =>
      have strands : ¬w.Strands (.hubNotification size d' e) d := fun h => size_ne h.1
      rw [or_iff_left strands]
      exact (here.attended running).ensured_blocked fresh fresh' apart
  | @error kind e dispatch running held found failing =>
      simp only [Watcher.Strands, or_false]
      refine Iff.trans (blocked_update (w := { w with vars := update w.vars kind _ })) ?_
      by_cases same : d = e
      · subst same
        rw [if_pos rfl]
        exact iff_of_false (fun blocked => by cases blocked.1) fun blocked => blocked.2 kind held
      · rw [if_neg same]
        refine blocked_vars ?_
        simp [held, Ne.symm same]
  | closed running held found returned =>
      exact absurd returned ((here.attended running).not_closed held found)
  | @reWatch kind e running selected ticked wanted fresh =>
      simp only [Watcher.Strands, or_false]
      have errors := (here.attended running).errors kind
      rw [wanted.1] at errors
      refine Iff.trans (watch_blocked ?_ ?_) (blocked_vars ?_)
      · simpa using errors
      · exact fresh
      · rfl
  | reWatchNot =>
      simp only [Watcher.Strands, or_false]
      exact blocked_vars Iff.rfl
  | signal running tells =>
      simp only [Watcher.Strands, or_false]
      obtain ⟨middle, first, second⟩ := Option.bind_eq_some_iff.mp tells
      obtain ⟨stopped, errors⟩ := here.toSane.tell here.held first
      obtain ⟨stopped', errors'⟩ := stopped.sane.tell stopped.held second
      exact (stopped'.blocked errors').trans (stopped.blocked errors)
  | fire armed =>
      simp only [Watcher.Strands, or_false]
      exact blocked_vars Iff.rfl
  | @watchReturns e index dispatch result stop found here' returns =>
      rw [blocked_update]
      by_cases same : d = e
      · subst same
        simp [Watcher.Strands, Watcher.Blocked, Watcher.phase, found, here']
      · simp [Watcher.Strands, same, Ne.symm same]
  | @consumed e index dispatch event found here' =>
      simp only [Watcher.Strands, or_false]
      rw [blocked_update]
      by_cases same : d = e
      · subst same
        simp [Watcher.Blocked, Watcher.phase, found, here']
      · rw [if_neg same]

/-! ### Runs -/

/-- A blocked dispatcher stays blocked, whatever happens. -/
theorem Watcher.Blocked.forever {more : List WatcherLabel} (blocked : w.Blocked d)
    (here : w.Supervised) (run : Trace WatcherStep w more w') : w'.Blocked d := by
  have both : w'.Supervised ∧ w'.Blocked d := by
    refine run.invariant (I := fun w => w.Supervised ∧ w.Blocked d) ⟨here, blocked⟩ ?_
    rintro w x w' ⟨here, blocked⟩ step
    exact ⟨step.supervised here, (step.blocked_iff here).mpr (.inl blocked)⟩
  exact both.2

theorem Watcher.finishes_watching {dispatch : Dispatch} {index : Nat}
    (found : w.dispatchers d = some dispatch) (here : dispatch.dispatcher = .watching index)
    (pending : dispatch.stop.buffer ≠ []) :
    ∃ w', WatcherStep w (.watchReturns d .stopped) w' ∧ w'.phase d = some .returned := by
  obtain ⟨value, stop, receives⟩ := Channel.receive_isReceived pending
  refine ⟨_, .watchReturns found here (.stopped receives), ?_⟩
  simp [Watcher.phase, Dispatcher.afterWatch]

/-- A dispatcher that was told to stop and is not sending an error can return by itself. -/
theorem Watcher.finishes {dispatch : Dispatch} (found : w.dispatchers d = some dispatch)
    (pending : dispatch.dispatcher ≠ .returned → dispatch.stop.buffer ≠ [])
    (sound : dispatch.dispatcher ≠ .failing) :
    ∃ more w', Trace WatcherStep w more w' ∧
      (∀ x ∈ more, x = .consumed d ∨ x = .watchReturns d .stopped) ∧
        w'.phase d = some .returned := by
  cases here : dispatch.dispatcher with
  | returned => exact ⟨[], w, .nil, by simp, by simp [Watcher.phase, found, here]⟩
  | failing => exact absurd here sound
  | watching index =>
      obtain ⟨w', step, returned⟩ := finishes_watching found here (pending (by simp [here]))
      exact ⟨_, w', .snoc .nil step, by simp, returned⟩
  | sending event index =>
      let watching : Dispatch := { dispatch with dispatcher := .watching index }
      let after : Watcher := { w with dispatchers := update w.dispatchers d (some watching) }
      have consumed : WatcherStep w (.consumed d) after := .consumed found here
      have found' : after.dispatchers d = some watching := Function.update_self ..
      obtain ⟨w', step, returned⟩ := finishes_watching found' rfl (pending (by simp [here]))
      exact ⟨_, w', .snoc (.snoc .nil consumed) step, by simp, returned⟩

/-- A dispatcher that was told to stop is not held. -/
theorem Watcher.Attended.told_unheld (attended : w.Attended) (told : w.Told d) (kind : Kind) :
    (w.vars kind).errors ≠ some d := by
  intro holds
  rw [attended.errors] at holds
  obtain ⟨dispatch, found, -, untold, -⟩ := (attended.held kind d).mp holds
  obtain ⟨dispatch', found', told⟩ := told
  rw [found] at found'
  cases found'
  rw [untold] at told
  cases told

/-- No dispatcher is blocked exactly if every step was timely. -/
theorem unblocked_iff {ticks : Kind → Bool}
    (run : Trace WatcherStep (Watcher.start ticks) labels w) :
    (∀ d, ¬w.Blocked d) ↔ Trace TimelyStep (Watcher.start ticks) labels w := by
  constructor
  · refine run.history (J := fun labels w =>
      (∀ d, ¬w.Blocked d) → Trace TimelyStep (Watcher.start ticks) labels w) (fun _ => .nil) ?_
    intro labels w x w' past timely step free
    have free' (d : Nat) : ¬w.Blocked d ∧ ¬w.Strands x d := by
      have none := free d
      rwa [step.blocked_iff (supervised past), not_or] at none
    exact .snoc (timely fun d => (free' d).1) ⟨step, fun d => (free' d).2⟩
  · intro timely
    have both : w.Supervised ∧ ∀ d, ¬w.Blocked d := by
      refine timely.invariant (I := fun w => w.Supervised ∧ ∀ d, ¬w.Blocked d) ?_ ?_
      · refine ⟨start_supervised ticks, fun d blocked => ?_⟩
        cases blocked.1
      · rintro w x w' ⟨here, free⟩ ⟨step, timely⟩
        refine ⟨step.supervised here, fun d => ?_⟩
        rw [step.blocked_iff here, not_or]
        exact ⟨free d, timely d⟩
    exact both.2

/-- **When a stopped watch can finish.** In every run of the watcher with its
dispatchers, before a signal: no dispatcher is blocked on an error channel that the
watcher does not hold if and only if no step so far has left one behind. A dispatcher
that was told to stop and is not blocked can return by steps of its own; one that is
blocked never returns. -/
theorem stopped_watch_finishes {ticks : Kind → Bool}
    (run : Trace WatcherStep (Watcher.start ticks) labels w) (running : w.running = true) :
    ((∀ d, ¬w.Blocked d) ↔ Trace TimelyStep (Watcher.start ticks) labels w) ∧
      (∀ d, w.Told d → ¬w.Blocked d →
        ∃ more w', Trace WatcherStep w more w' ∧
          (∀ x ∈ more, x = .consumed d ∨ x = .watchReturns d .stopped) ∧
            w'.phase d = some .returned) ∧
      ∀ d, w.Blocked d → ∀ more w', Trace WatcherStep w more w' → w'.phase d = some .failing := by
  have here := supervised run
  refine ⟨unblocked_iff run, fun d told free => ?_, fun d blocked more w' further => ?_⟩
  · have unheld := (here.attended running).told_unheld told
    obtain ⟨dispatch, found, told⟩ := told
    refine Watcher.finishes found ((here.dispatch d dispatch found).pending told) fun failing => ?_
    exact free ⟨by simp [Watcher.phase, found, failing], unheld⟩
  · exact (blocked.forever here further).1

/-- The watch for desired LRPs is told to stop and returns. -/
def stoppedInTime : List WatcherLabel :=
  [.hubNotification 1 0 1, .hubNotification 0 2 3]

theorem stoppedInTime_timely :
    ∃ w, Trace TimelyStep (Watcher.start fun _ => false) stoppedInTime w ∧ w.running = true ∧
      w.Told 0 := by
  refine Trace.exists_cons ⟨.hubSize rfl (by decide) rfl rfl (by decide), ?_⟩ ?_
  · rintro d ⟨zero, -⟩
    cases zero
  refine Trace.exists_cons ⟨.hubEmpty rfl rfl, ?_⟩ ?_
  · rintro d ⟨-, failing, kind, held⟩
    cases kind with
    | desired =>
        obtain rfl : 0 = d := Option.some.inj held
        cases failing
    | actual =>
        obtain rfl : 1 = d := Option.some.inj held
        cases failing
  exact Trace.exists_nil ⟨rfl, _, rfl, rfl⟩

theorem stopped_watch_finishes_stoppedInTime :
    ∃ w, Trace WatcherStep (Watcher.start fun _ => false) stoppedInTime w ∧ w.Told 0 ∧
      (∀ d, ¬w.Blocked d) ∧
        ∃ more w', Trace WatcherStep w more w' ∧
          (∀ x ∈ more, x = .consumed 0 ∨ x = .watchReturns 0 .stopped) ∧
            w'.phase 0 = some .returned := by
  obtain ⟨w, timely, running, told⟩ := stoppedInTime_timely
  have run := timely.mono fun _ _ _ step => step.1
  obtain ⟨free, finishes, -⟩ := stopped_watch_finishes run running
  have none := free.mpr timely
  exact ⟨w, run, told, none, finishes 0 told (none 0)⟩

/-- `Watch` fails, and before the watcher receives the error, the last subscriber leaves. -/
def overtakenError : List WatcherLabel :=
  [.hubNotification 1 0 1, .watchReturns 0 .failed, .hubNotification 0 2 3]

theorem overtakenError_blocks :
    ∃ w, Trace WatcherStep (Watcher.start fun _ => false) overtakenError w ∧ w.running = true ∧
      w.Told 0 ∧ w.Blocked 0 := by
  refine Trace.exists_cons (.hubSize rfl (by decide) rfl rfl (by decide)) ?_
  refine Trace.exists_cons (.watchReturns rfl rfl (.other (by simp))) ?_
  refine Trace.exists_cons (.hubEmpty rfl rfl) ?_
  refine Trace.exists_nil ⟨rfl, ⟨_, rfl, rfl⟩, rfl, fun kind held => ?_⟩
  cases kind with
  | desired => cases held
  | actual => cases held

end Bbs.Watch
