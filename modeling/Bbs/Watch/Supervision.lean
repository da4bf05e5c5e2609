import Mathlib.Order.Basic
import Bbs.Watch.Watcher

/-!
Which watches the watcher holds.

While `Run` is in its loop, the dispatcher whose `stop` it holds for a kind is the one
dispatcher of that kind that was neither told to stop nor heard of (`Watcher.Held`).
Everything about the number of watches follows from that.
-/

namespace Bbs.Watch

open Bbs.Interaction
open Function (update)

variable {w w' : Watcher} {kind : Kind} {x : WatcherLabel} {labels : List WatcherLabel}

/-- The dispatcher was neither told to stop nor was its error received. -/
def Watcher.Live (w : Watcher) (kind : Kind) (d : Nat) : Prop :=
  ∃ dispatch, w.dispatchers d = some dispatch ∧ dispatch.kind = kind ∧ dispatch.told = false ∧
    dispatch.heard = false

/-- The timer for another watch is running, or has ticked, and is selected on. -/
def Watcher.RetryPending (w : Watcher) (kind : Kind) : Prop :=
  (w.vars kind).reWatch = true ∧
    ((w.vars kind).timer.armed = true ∨ (w.vars kind).timer.tick = true)

/-! ### The invariant -/

/-- What is known of a dispatcher by itself. -/
structure Dispatch.Sane (dispatch : Dispatch) : Prop where
  isOpen : dispatch.stop.closed = false
  untold : dispatch.told = false → dispatch.stop.buffer = []
  returned : dispatch.dispatcher = .returned → dispatch.told = true ∨ dispatch.heard = true
  heard : dispatch.heard = true → dispatch.dispatcher = .returned
  pending : dispatch.told = true → dispatch.dispatcher ≠ .returned → dispatch.stop.buffer ≠ []

/-- What holds in every state, also after `Run` has returned. -/
structure Watcher.Sane (w : Watcher) : Prop where
  dispatch : ∀ d dispatch, w.dispatchers d = some dispatch → dispatch.Sane
  retry : ∀ kind, (w.vars kind).reWatch = true →
    (w.vars kind).timer.armed = true ∨ (w.vars kind).timer.tick = true
  supply : ∃ n, ∀ d, n ≤ d → w.dispatchers d = none

/-- The live dispatcher of a kind is the one whose `stop` is held. -/
def Watcher.Held (w : Watcher) : Prop :=
  ∀ kind d, (w.vars kind).stop = some d ↔ w.Live kind d

/-- Between two rounds of the loop. -/
structure Watcher.Attended (w : Watcher) : Prop extends Watcher.Sane w where
  held : w.Held
  errors : ∀ kind, (w.vars kind).errors = (w.vars kind).stop
  idle : w.hubSize = 0 → ∀ kind, (w.vars kind).stop = none
  busy : 0 < w.hubSize → ∀ kind, (w.vars kind).stop ≠ none ∨ (w.vars kind).reWatch = true

theorem live_update {d : Nat} {dispatch : Dispatch} {vars : Kind → Vars} {e : Nat} :
    Watcher.Live { w with vars := vars, dispatchers := update w.dispatchers d (some dispatch) } kind e ↔
      if e = d then dispatch.kind = kind ∧ dispatch.told = false ∧ dispatch.heard = false
      else w.Live kind e := by
  by_cases here : e = d
  · subst here
    simp [Watcher.Live]
  · simp [Watcher.Live, here]

theorem retry_update {vars : Kind → Vars} {own : Vars}
    (retry : ∀ kind, (vars kind).reWatch = true →
      (vars kind).timer.armed = true ∨ (vars kind).timer.tick = true)
    (now : own.reWatch = true → own.timer.armed = true ∨ own.timer.tick = true) (k : Kind) :
    (update vars kind own k).reWatch = true →
      (update vars kind own k).timer.armed = true ∨ (update vars kind own k).timer.tick = true := by
  by_cases here : k = kind
  · subst here
    rwa [Function.update_self]
  · rw [Function.update_of_ne here]
    exact retry k

theorem Watcher.Sane.update {d : Nat} {dispatch : Dispatch} (sane : w.Sane) (own : dispatch.Sane)
    {vars : Kind → Vars}
    (retry : ∀ kind, (vars kind).reWatch = true →
      (vars kind).timer.armed = true ∨ (vars kind).timer.tick = true) :
    Watcher.Sane { w with vars := vars, dispatchers := update w.dispatchers d (some dispatch) } := by
  refine ⟨fun e found known => ?_, retry, ?_⟩
  · by_cases here : e = d
    · subst here
      simp only [Function.update_self, Option.some.injEq] at known
      rw [← known]
      exact own
    · simp only [Function.update_of_ne here] at known
      exact sane.dispatch e found known
  · obtain ⟨n, free⟩ := sane.supply
    refine ⟨max n (d + 1), fun e le => ?_⟩
    have here : e ≠ d := by
      rintro rfl
      omega
    simp only [Function.update_of_ne here]
    exact free e (by omega)

theorem Watcher.Live.kind_eq {k : Kind} {d : Nat} (live : w.Live kind d) (live' : w.Live k d) :
    k = kind := by
  obtain ⟨dispatch, found, own, -⟩ := live
  obtain ⟨dispatch', found', own', -⟩ := live'
  rw [found] at found'
  cases found'
  rw [← own, ← own']

/-- The watch that is held is let go, and is not live any more. -/
theorem Watcher.Held.release {d : Nat} {dispatch : Dispatch} {own : Vars} (held : w.Held)
    (holds : (w.vars kind).stop = some d) (gone : dispatch.told = true ∨ dispatch.heard = true)
    (let_go : own.stop = none) :
    Watcher.Held { w with
      vars := update w.vars kind own
      dispatchers := update w.dispatchers d (some dispatch) } := by
  intro k e
  rw [live_update]
  change (update w.vars kind own k).stop = some e ↔ _
  by_cases here : e = d
  · subst here
    have dead : ¬(dispatch.kind = k ∧ dispatch.told = false ∧ dispatch.heard = false) := by
      rintro ⟨-, untold, unheard⟩
      simp [untold, unheard] at gone
    rw [if_pos rfl, iff_false_right dead]
    by_cases same : k = kind
    · subst same
      simp [let_go]
    · rw [Function.update_of_ne same, held k e]
      intro live
      exact same (Watcher.Live.kind_eq ((held kind e).mp holds) live)
  · rw [if_neg here]
    by_cases same : k = kind
    · subst same
      rw [← held k e, holds]
      simp [let_go, Ne.symm here]
    · rw [Function.update_of_ne same]
      exact held k e

/-- A watch is started where none was held. -/
theorem Watcher.Held.acquire {d : Nat} {own : Vars} (held : w.Held)
    (none : (w.vars kind).stop = .none) (fresh : w.dispatchers d = .none) (holds : own.stop = some d) :
    Watcher.Held { w with
      vars := update w.vars kind own
      dispatchers := update w.dispatchers d (some (newDispatch kind)) } := by
  intro k e
  rw [live_update]
  change (update w.vars kind own k).stop = some e ↔ _
  have unborn (k : Kind) : ¬w.Live k d := by
    rintro ⟨dispatch, found, -⟩
    rw [fresh] at found
    cases found
  by_cases here : e = d
  · subst here
    rw [if_pos rfl]
    by_cases same : k = kind
    · subst same
      simp [holds, newDispatch]
    · rw [Function.update_of_ne same, held k e]
      simp [unborn, newDispatch, Ne.symm same]
  · rw [if_neg here]
    by_cases same : k = kind
    · subst same
      rw [← held k e, none]
      simp [holds, Ne.symm here]
    · rw [Function.update_of_ne same]
      exact held k e

/-- The `stop` channels stay. -/
theorem Watcher.Held.vars {own : Vars} (held : w.Held) (stop : own.stop = (w.vars kind).stop) :
    Watcher.Held { w with vars := update w.vars kind own } := by
  intro k d
  refine Iff.trans ?_ (held k d)
  by_cases same : k = kind
  · subst same
    simp [stop]
  · simp [same]

/-- A dispatcher goes on. -/
theorem Watcher.Held.keep {d : Nat} {dispatch dispatch' : Dispatch} (held : w.Held)
    (found : w.dispatchers d = some dispatch) (sameKind : dispatch'.kind = dispatch.kind)
    (told : dispatch'.told = dispatch.told) (heard : dispatch'.heard = dispatch.heard) :
    Watcher.Held { w with dispatchers := update w.dispatchers d (some dispatch') } := by
  intro k e
  rw [live_update, held k e]
  by_cases here : e = d
  · subst here
    simp [Watcher.Live, found, sameKind, told, heard]
  · rw [if_neg here]

/-! ### Stopping one kind of watch -/

/-- Where a dispatcher is. -/
def Watcher.phase (w : Watcher) (d : Nat) : Option Dispatcher :=
  (w.dispatchers d).map fun dispatch => dispatch.dispatcher

/-- `w'` is `w` after the watch of `kind` was told to stop, if there was one. -/
structure Stopped (w : Watcher) (kind : Kind) (w' : Watcher) : Prop where
  sane : w'.Sane
  held : w'.Held
  stop : (w'.vars kind).stop = none
  reWatch : (w'.vars kind).reWatch = (w.vars kind).reWatch
  others : ∀ k, k ≠ kind → w'.vars k = w.vars k
  phase : ∀ d, w'.phase d = w.phase d
  hubSize : w'.hubSize = w.hubSize
  running : w'.running = w.running

/-- The two outcomes of `tell`. -/
theorem Watcher.tell_eq_some (tells : w.tell kind = some w') :
    ((w.vars kind).stop = none ∧ w' = w) ∨
      ∃ d dispatch stop, (w.vars kind).stop = some d ∧ w.dispatchers d = some dispatch ∧
        dispatch.stop.trySend true = .sent stop ∧
        w' = { w with
          vars := update w.vars kind { w.vars kind with stop := none }
          dispatchers := update w.dispatchers d (some { dispatch with stop, told := true }) } := by
  unfold Watcher.tell at tells
  split at tells
  · rename_i none
    cases tells
    exact .inl ⟨none, rfl⟩
  · rename_i d holds
    split at tells
    · cases tells
    · rename_i dispatch found
      split at tells
      · rename_i stop sent
        cases tells
        exact .inr ⟨d, dispatch, stop, holds, found, sent, rfl⟩
      · cases tells

theorem Watcher.Sane.tell (sane : w.Sane) (held : w.Held) (tells : w.tell kind = some w') :
    Stopped w kind w' ∧ (w'.vars kind).errors = (w.vars kind).errors := by
  rcases Watcher.tell_eq_some tells with ⟨none, rfl⟩ | ⟨d, dispatch, stop, holds, found, sent, rfl⟩
  · exact ⟨⟨sane, held, none, rfl, fun _ _ => rfl, fun _ => rfl, rfl, rfl⟩, rfl⟩
  · obtain ⟨-, isOpen, buffer⟩ := Channel.trySend_sent sent
    have told : Dispatch.Sane { dispatch with stop, told := true } :=
      ⟨isOpen, fun h => absurd h (by simp), fun _ => .inl rfl, (sane.dispatch d dispatch found).heard,
        fun _ _ => by simp [buffer]⟩
    refine ⟨⟨sane.update told (retry_update sane.retry (sane.retry kind)),
      held.release holds (.inl rfl) rfl, ?_, ?_, ?_, ?_, rfl, rfl⟩, ?_⟩
    · simp
    · simp
    · intro k other
      simp [other]
    · intro e
      by_cases here : e = d
      · subst here
        simp [Watcher.phase, found]
      · simp [Watcher.phase, here]
    · simp

/-- The `stop` channel that is held has room. -/
theorem Watcher.Sane.tell_isSome (sane : w.Sane) (held : w.Held) (kind : Kind) :
    ∃ w', w.tell kind = some w' := by
  unfold Watcher.tell
  split
  · exact ⟨w, rfl⟩
  · rename_i d holds
    obtain ⟨dispatch, found, -, untold, -⟩ := (held kind d).mp holds
    obtain ⟨isOpen, empty, -⟩ := sane.dispatch d dispatch found
    rw [found]
    cases sends : dispatch.stop.trySend true with
    | sent stop =>
        simp only [sends]
        exact ⟨_, rfl⟩
    | full =>
        have full := (Channel.trySend_full sends).2
        rw [empty untold] at full
        cases full
    | panic =>
        rw [Channel.trySend_panic sends] at isOpen
        cases isOpen

theorem Watcher.Sane.silence (sane : w.Sane) (held : w.Held)
    (errors : (w.vars kind).errors = (w.vars kind).stop) (silences : w.silence kind = some w') :
    Stopped w kind w' ∧ (w'.vars kind).errors = none := by
  unfold Watcher.silence at silences
  split at silences
  · rename_i none
    cases silences
    rw [none] at errors
    exact ⟨⟨sane, held, none, rfl, fun _ _ => rfl, fun _ => rfl, rfl, rfl⟩, errors⟩
  · obtain ⟨told, tells, rfl⟩ := Option.map_eq_some_iff.mp silences
    obtain ⟨⟨sane', held', stop, reWatch, others, phase, hubSize, running⟩, -⟩ :=
      sane.tell held tells
    refine ⟨⟨⟨sane'.dispatch, ?_, sane'.supply⟩, held'.vars rfl, ?_, ?_, ?_, phase, hubSize, running⟩,
      ?_⟩
    · exact retry_update sane'.retry (sane'.retry kind)
    · simpa using stop
    · simpa using reWatch
    · intro k other
      simpa [other] using others k other
    · simp

theorem Watcher.Sane.silence_isSome (sane : w.Sane) (held : w.Held) (kind : Kind) :
    ∃ w', w.silence kind = some w' := by
  unfold Watcher.silence
  split
  · exact ⟨w, rfl⟩
  · obtain ⟨told, tells⟩ := sane.tell_isSome held kind
    rw [tells]
    exact ⟨_, rfl⟩

/-! ### Starting one kind of watch -/

/-- `w'` is `w` after a watch of `kind` was started, unless there was one. -/
structure Started (w : Watcher) (kind : Kind) (d : Nat) (w' : Watcher) : Prop where
  sane : w'.Sane
  held : w'.Held
  stop : (w'.vars kind).stop ≠ none
  errors : (w'.vars kind).errors = (w'.vars kind).stop
  others : ∀ k, k ≠ kind → w'.vars k = w.vars k
  dispatchers : ∀ e, w'.dispatchers e = w.dispatchers e ∨ (e = d ∧ w'.phase e = some (.watching 0))
  hubSize : w'.hubSize = w.hubSize
  running : w'.running = w.running

/-- Another number that was not taken is not taken now. -/
theorem Started.fresh {d e : Nat} (started : Started w kind d w') (fresh : w.dispatchers e = none)
    (apart : d ≠ e) : w'.dispatchers e = none := by
  rcases started.dispatchers e with same | ⟨own, -⟩
  · rw [same, fresh]
  · exact absurd own.symm apart

theorem newDispatch_sane (kind : Kind) : (newDispatch kind).Sane :=
  ⟨rfl, fun _ => rfl, by simp [newDispatch], by simp [newDispatch], by simp [newDispatch]⟩

theorem Watcher.Sane.watch {d : Nat} (sane : w.Sane) (held : w.Held)
    (none : (w.vars kind).stop = .none) (fresh : w.dispatchers d = .none) :
    Started w kind d (w.watch kind d) := by
  refine ⟨sane.update (newDispatch_sane kind) (retry_update sane.retry (sane.retry kind)),
    held.acquire none fresh rfl, ?_, ?_, ?_, ?_, rfl, rfl⟩
  · simp [Watcher.watch]
  · simp [Watcher.watch]
  · intro k other
    simp [Watcher.watch, other]
  · intro e
    by_cases here : e = d
    · subst here
      exact .inr ⟨rfl, by simp [Watcher.watch, Watcher.phase, newDispatch]⟩
    · exact .inl (by simp [Watcher.watch, here])

theorem Watcher.Sane.ensure {d : Nat} (sane : w.Sane) (held : w.Held)
    (errors : (w.vars kind).errors = (w.vars kind).stop) (fresh : w.dispatchers d = none) :
    Started w kind d (w.ensure kind d) := by
  unfold Watcher.ensure
  split
  · rename_i none
    exact sane.watch held none fresh
  · rename_i e holds
    exact ⟨sane, held, by simp [holds], errors, fun _ _ => rfl, fun _ => .inl rfl, rfl, rfl⟩

/-! ### Steps of the dispatchers -/

theorem Dispatch.Sane.watchReturns {dispatch : Dispatch} {index : Nat} {result : WatchResult}
    {stop : Channel Bool 1} (sane : dispatch.Sane) (here : dispatch.dispatcher = .watching index)
    (returns : WatchReturns dispatch.stop result stop) :
    Dispatch.Sane { dispatch with dispatcher := .afterWatch result, stop := stop } := by
  have unheard : dispatch.heard ≠ true := by
    intro heard
    have returned := sane.heard heard
    rw [here] at returned
    cases returned
  cases returns with
  | stopped receives =>
      obtain ⟨same, buffer⟩ := Channel.receive_received receives
      have told : dispatch.told = true := by
        by_contra untold
        rw [sane.untold (by simpa using untold)] at buffer
        cases buffer
      exact ⟨by rw [same, sane.isOpen], fun untold => absurd (told.symm.trans untold) (by simp),
        fun _ => .inl told, fun heard => absurd heard unheard, fun _ going => absurd rfl going⟩
  | other other =>
      refine ⟨sane.isOpen, sane.untold, fun returned => ?_, fun heard => absurd heard unheard,
        fun told _ => sane.pending told (by simp [here])⟩
      cases result with
      | stopped => exact absurd rfl other
      | indexCleared => cases returned
      | failed => cases returned
      | response response =>
          simp only [Dispatcher.afterWatch] at returned
          split at returned <;> cases returned

theorem Dispatch.Sane.consumed {dispatch : Dispatch} {event : WatchEvent} {index : Nat}
    (sane : dispatch.Sane) (here : dispatch.dispatcher = .sending event index) :
    Dispatch.Sane { dispatch with dispatcher := .watching index } := by
  refine ⟨sane.isOpen, sane.untold, fun returned => ?_, fun heard => ?_,
    fun told _ => sane.pending told (by simp [here])⟩
  · cases returned
  · have returned := sane.heard heard
    rw [here] at returned
    cases returned

/-- A step of a dispatcher leaves everything else alone. -/
theorem Watcher.Attended.keep {d : Nat} {dispatch dispatch' : Dispatch} (attended : w.Attended)
    (found : w.dispatchers d = some dispatch) (sane : dispatch'.Sane)
    (sameKind : dispatch'.kind = dispatch.kind) (told : dispatch'.told = dispatch.told)
    (heard : dispatch'.heard = dispatch.heard) :
    Watcher.Attended { w with dispatchers := update w.dispatchers d (some dispatch') } where
  toSane := attended.toSane.update sane attended.retry
  held := attended.held.keep found sameKind told heard
  errors := attended.errors
  idle := attended.idle
  busy := attended.busy

/-! ### Rounds of the loop -/

/-- The two watches are silenced one after the other, and no `errors` channel is held then. -/
theorem Watcher.Attended.silenceBoth (attended : w.Attended)
    (silences : ((w.silence .desired).bind fun w => w.silence .actual) = some w') :
    ∃ middle, Stopped w .desired middle ∧ Stopped middle .actual w' ∧
      ∀ kind, (w'.vars kind).errors = none := by
  obtain ⟨middle, first, second⟩ := Option.bind_eq_some_iff.mp silences
  obtain ⟨stopped, errors⟩ :=
    attended.toSane.silence attended.held (attended.errors .desired) first
  obtain ⟨stopped', errors'⟩ := stopped.sane.silence stopped.held
    (by rw [stopped.others .actual (by simp)]; exact attended.errors .actual) second
  refine ⟨middle, stopped, stopped', fun kind => ?_⟩
  cases kind with
  | desired => rw [stopped'.others .desired (by simp), errors]
  | actual => exact errors'

theorem Watcher.Attended.hubEmpty (attended : w.Attended)
    (silences : ((w.silence .desired).bind fun w => w.silence .actual) = some w') :
    Watcher.Attended { w' with hubSize := 0 } ∧ w'.running = w.running := by
  obtain ⟨middle, stopped, stopped', errors⟩ := attended.silenceBoth silences
  have stop (kind : Kind) : (w'.vars kind).stop = none := by
    cases kind with
    | desired => rw [stopped'.others .desired (by simp), stopped.stop]
    | actual => exact stopped'.stop
  refine ⟨⟨⟨stopped'.sane.dispatch, stopped'.sane.retry, stopped'.sane.supply⟩, stopped'.held, ?_,
    fun _ => stop, by simp⟩, by rw [stopped'.running, stopped.running]⟩
  intro kind
  change (w'.vars kind).errors = (w'.vars kind).stop
  rw [stop, errors]

theorem Watcher.Attended.hubSize {d e : Nat} {size : Int} (attended : w.Attended)
    (size_ne : size ≠ 0) (fresh : w.dispatchers d = none) (fresh' : w.dispatchers e = none)
    (apart : d ≠ e) :
    Watcher.Attended { (w.ensure .desired d).ensure .actual e with hubSize := size } ∧
      ((w.ensure .desired d).ensure .actual e).running = w.running := by
  have started := attended.toSane.ensure attended.held (attended.errors .desired) fresh
  have actual := started.others .actual (by simp)
  have started' := started.sane.ensure started.held
    (by rw [actual]; exact attended.errors .actual) (started.fresh fresh' apart)
  have desired := started'.others .desired (by simp)
  refine ⟨⟨⟨started'.sane.dispatch, started'.sane.retry, started'.sane.supply⟩, started'.held, ?_,
    fun zero => absurd zero size_ne, fun _ kind => .inl ?_⟩,
    by rw [started'.running, started.running]⟩
  · intro kind
    cases kind with
    | desired =>
        change (((w.ensure .desired d).ensure .actual e).vars .desired).errors = _
        rw [desired, started.errors, ← desired]
    | actual => exact started'.errors
  · cases kind with
    | desired =>
        change (((w.ensure .desired d).ensure .actual e).vars .desired).stop ≠ none
        rw [desired]
        exact started.stop
    | actual => exact started'.stop

theorem Watcher.Attended.error {d : Nat} {dispatch : Dispatch} (attended : w.Attended)
    (held : (w.vars kind).errors = some d) (found : w.dispatchers d = some dispatch) :
    Watcher.Attended
      { w with
        vars := update w.vars kind ⟨none, none, (w.vars kind).timer.reset, true⟩
        dispatchers := update w.dispatchers d
          (some { dispatch with dispatcher := .returned, heard := true }) } := by
  rw [attended.errors] at held
  have sane := attended.dispatch d dispatch found
  have heard : Dispatch.Sane { dispatch with dispatcher := .returned, heard := true } :=
    ⟨sane.isOpen, sane.untold, fun _ => .inr rfl, fun _ => rfl, fun _ going => absurd rfl going⟩
  refine ⟨attended.toSane.update heard (retry_update attended.retry fun _ => .inl rfl),
    attended.held.release held (.inr rfl) rfl, fun k => ?_, fun zero k => ?_, fun positive k => ?_⟩
  · by_cases same : k = kind
    · subst same
      simp
    · simpa [same] using attended.errors k
  · by_cases same : k = kind
    · subst same
      simp
    · simpa [same] using attended.idle zero k
  · by_cases same : k = kind
    · subst same
      simp
    · simpa [same] using attended.busy positive k

/-- The `errors` channel that is held is not closed. -/
theorem Watcher.Attended.not_closed {d : Nat} {dispatch : Dispatch} (attended : w.Attended)
    (held : (w.vars kind).errors = some d) (found : w.dispatchers d = some dispatch) :
    dispatch.dispatcher ≠ .returned := by
  intro returned
  rw [attended.errors] at held
  obtain ⟨dispatch', found', -, untold, unheard⟩ := (attended.held kind d).mp held
  rw [found] at found'
  cases found'
  have gone := (attended.dispatch d dispatch found).returned returned
  simp [untold, unheard] at gone

/-- Only what concerns the timer of one kind changes. -/
theorem Watcher.Attended.timer {own : Vars} (attended : w.Attended)
    (stop : own.stop = (w.vars kind).stop) (errors : own.errors = (w.vars kind).errors)
    (retry : own.reWatch = true → own.timer.armed = true ∨ own.timer.tick = true)
    (busy : 0 < w.hubSize → own.stop ≠ none ∨ own.reWatch = true) :
    Watcher.Attended { w with vars := update w.vars kind own } := by
  refine ⟨⟨attended.dispatch, retry_update attended.retry retry, attended.supply⟩,
    attended.held.vars stop, fun k => ?_, fun zero k => ?_, fun positive k => ?_⟩
  · by_cases same : k = kind
    · subst same
      simpa [stop, errors] using attended.errors k
    · simpa [same] using attended.errors k
  · by_cases same : k = kind
    · subst same
      simpa [stop] using attended.idle zero k
    · simpa [same] using attended.idle zero k
  · by_cases same : k = kind
    · subst same
      simpa using busy positive
    · simpa [same] using attended.busy positive k

theorem Watcher.Attended.reWatch {d : Nat} {own : Vars} (attended : w.Attended)
    (wanted : (w.vars kind).stop = none ∧ 0 < w.hubSize) (fresh : w.dispatchers d = none)
    (stop : own.stop = (w.vars kind).stop) (unselected : own.reWatch = false) :
    Watcher.Attended (Watcher.watch { w with vars := update w.vars kind own } kind d) := by
  obtain ⟨none, positive⟩ := wanted
  have sane : Watcher.Sane { w with vars := update w.vars kind own } :=
    ⟨attended.dispatch, retry_update attended.retry (by simp [unselected]), attended.supply⟩
  have unheld : (update w.vars kind own kind).stop = .none := by
    rw [Function.update_self, stop, none]
  have started := sane.watch (attended.held.vars stop) unheld fresh
  have same (k : Kind) (other : k ≠ kind) :
      ((Watcher.watch { w with vars := update w.vars kind own } kind d).vars k) = w.vars k := by
    rw [started.others k other]
    exact Function.update_of_ne other _ _
  refine ⟨started.sane, started.held, fun k => ?_, fun zero => ?_, fun _ k => ?_⟩
  · by_cases here : k = kind
    · rw [here, started.errors]
    · rw [same k here, attended.errors]
  · rw [started.hubSize] at zero
    change w.hubSize = 0 at zero
    omega
  · by_cases here : k = kind
    · rw [here]
      exact .inl started.stop
    · rw [same k here]
      exact attended.busy positive k

/-- On a signal the watches that are left are told to stop. -/
theorem Watcher.Attended.signal (attended : w.Attended)
    (tells : ((w.tell .desired).bind fun w => w.tell .actual) = some w') :
    w'.Sane ∧ w'.Held ∧ ∀ kind, (w'.vars kind).stop = none := by
  obtain ⟨middle, first, second⟩ := Option.bind_eq_some_iff.mp tells
  obtain ⟨stopped, -⟩ := attended.toSane.tell attended.held first
  obtain ⟨stopped', -⟩ := stopped.sane.tell stopped.held second
  refine ⟨stopped'.sane, stopped'.held, fun kind => ?_⟩
  cases kind with
  | desired => rw [stopped'.others .desired (by simp), stopped.stop]
  | actual => exact stopped'.stop

/-! ### Runs -/

/-- What holds in every state. -/
structure Watcher.Supervised (w : Watcher) : Prop extends Watcher.Sane w where
  held : w.Held
  attended : w.running = true → w.Attended
  ended : w.running = false → ∀ kind, (w.vars kind).stop = none

theorem Watcher.Attended.supervised (attended : w.Attended) (running : w.running = true) :
    w.Supervised :=
  ⟨attended.toSane, attended.held, fun _ => attended, fun ended => by
    rw [running] at ended
    cases ended⟩

theorem Watcher.Supervised.keep {d : Nat} {dispatch dispatch' : Dispatch} (here : w.Supervised)
    (found : w.dispatchers d = some dispatch) (sane : dispatch'.Sane)
    (sameKind : dispatch'.kind = dispatch.kind) (told : dispatch'.told = dispatch.told)
    (heard : dispatch'.heard = dispatch.heard) :
    Watcher.Supervised { w with dispatchers := update w.dispatchers d (some dispatch') } where
  toSane := here.toSane.update sane here.retry
  held := here.held.keep found sameKind told heard
  attended running := (here.attended running).keep found sane sameKind told heard
  ended := here.ended

theorem WatcherStep.supervised (step : WatcherStep w x w') (here : w.Supervised) :
    w'.Supervised := by
  cases step with
  | hubEmpty running silences =>
      obtain ⟨attended, same⟩ := (here.attended running).hubEmpty silences
      exact attended.supervised (same.trans running)
  | hubSize running size_ne fresh fresh' apart =>
      obtain ⟨attended, same⟩ := (here.attended running).hubSize size_ne fresh fresh' apart
      exact attended.supervised (same.trans running)
  | error running held found failing =>
      exact ((here.attended running).error held found).supervised running
  | closed running held found returned =>
      exact absurd returned ((here.attended running).not_closed held found)
  | reWatch running selected ticked wanted fresh =>
      refine Watcher.Attended.supervised ?_ running
      exact (here.attended running).reWatch wanted fresh rfl rfl
  | reWatchNot running selected ticked unwanted =>
      refine Watcher.Attended.supervised ?_ running
      refine (here.attended running).timer ?_ ?_ ?_ ?_
      · rfl
      · rfl
      · intro selected
        cases selected
      · intro positive
        exact .inl fun none => unwanted ⟨none, positive⟩
  | signal running tells =>
      obtain ⟨sane, held, stop⟩ := (here.attended running).signal tells
      exact ⟨⟨sane.dispatch, sane.retry, sane.supply⟩, held, by simp, fun _ => stop⟩
  | @fire kind armed =>
      refine ⟨⟨here.dispatch, retry_update here.retry fun _ => .inr rfl, here.supply⟩,
        here.held.vars rfl, fun running => ?_, fun ended k => ?_⟩
      · have attended := here.attended running
        exact attended.timer rfl rfl (fun _ => .inr rfl) fun positive => attended.busy positive kind
      · by_cases same : k = kind
        · subst same
          simpa using here.ended ended k
        · simpa [same] using here.ended ended k
  | watchReturns found here' returns =>
      exact here.keep found ((here.dispatch _ _ found).watchReturns here' returns) rfl rfl rfl
  | consumed found here' =>
      exact here.keep found ((here.dispatch _ _ found).consumed here') rfl rfl rfl

theorem start_supervised (ticks : Kind → Bool) : (Watcher.start ticks).Supervised := by
  have sane : (Watcher.start ticks).Sane :=
    ⟨by simp [Watcher.start], by simp [Watcher.start], 0, fun _ _ => rfl⟩
  have attended : (Watcher.start ticks).Attended := by
    refine ⟨sane, ?_, fun _ => rfl, fun _ _ => rfl, by simp [Watcher.start]⟩
    intro kind d
    simp [Watcher.Live, Watcher.start]
  exact attended.supervised rfl

theorem supervised {ticks : Kind → Bool}
    (run : Trace WatcherStep (Watcher.start ticks) labels w) : w.Supervised :=
  run.invariant (start_supervised ticks) fun _ _ _ here step => step.supervised here

/-! ### The watches that are needed -/

/-- The last hub size that was handled. -/
def lastHubSize (labels : List WatcherLabel) : Int :=
  labels.foldl (fun size x => match x with | .hubNotification size' _ _ => size' | _ => size) 0

theorem tell_hubSize (tells : w.tell kind = some w') : w'.hubSize = w.hubSize := by
  rcases Watcher.tell_eq_some tells with ⟨-, rfl⟩ | ⟨d, dispatch, stop, -, -, -, rfl⟩ <;> rfl

theorem hubSize_eq {ticks : Kind → Bool}
    (run : Trace WatcherStep (Watcher.start ticks) labels w) : w.hubSize = lastHubSize labels := by
  refine run.history (J := fun labels w => w.hubSize = lastHubSize labels) rfl ?_
  intro labels w x w' _ here step
  rw [lastHubSize, List.foldl_append, List.foldl_cons, List.foldl_nil, ← lastHubSize, ← here]
  cases step with
  | signal running tells =>
      obtain ⟨middle, first, second⟩ := Option.bind_eq_some_iff.mp tells
      exact (tell_hubSize second).trans (tell_hubSize first)
  | _ => rfl

/-- The loop can take up every notification and every signal. -/
theorem Watcher.Attended.ready (attended : w.Attended) (running : w.running = true) :
    (∀ size, ∃ d e w', WatcherStep w (.hubNotification size d e) w') ∧
      ∃ w', WatcherStep w .signal w' := by
  constructor
  · intro size
    by_cases zero : size = 0
    · subst zero
      obtain ⟨middle, first⟩ := attended.toSane.silence_isSome attended.held .desired
      obtain ⟨stopped, -⟩ :=
        attended.toSane.silence attended.held (attended.errors .desired) first
      obtain ⟨w', second⟩ := stopped.sane.silence_isSome stopped.held .actual
      exact ⟨0, 0, _, .hubEmpty running (Option.bind_eq_some_iff.mpr ⟨middle, first, second⟩)⟩
    · obtain ⟨n, free⟩ := attended.supply
      exact ⟨n, n + 1, _, .hubSize running zero (free n (by simp)) (free (n + 1) (by simp)) (by simp)⟩
  · obtain ⟨middle, first⟩ := attended.toSane.tell_isSome attended.held .desired
    obtain ⟨stopped, -⟩ := attended.toSane.tell attended.held first
    obtain ⟨w', second⟩ := stopped.sane.tell_isSome stopped.held .actual
    exact ⟨_, .signal running (Option.bind_eq_some_iff.mpr ⟨middle, first, second⟩)⟩

theorem reWatch_live {d : Nat} (running : w.running = true)
    (selected : (w.vars kind).reWatch = true) (ticked : (w.vars kind).timer.tick = true)
    (wanted : (w.vars kind).stop = none ∧ 0 < w.hubSize) (fresh : w.dispatchers d = none) :
    ∃ w', WatcherStep w (.reWatch kind d) w' ∧ w'.Live kind d := by
  refine ⟨_, .reWatch running selected ticked wanted fresh, ?_⟩
  simp [Watcher.Live, Watcher.watch, newDispatch]

/-- A pending timer leads to a watch again. -/
theorem Watcher.Attended.resumes (attended : w.Attended) (running : w.running = true)
    (wanted : (w.vars kind).stop = none ∧ 0 < w.hubSize) (pending : w.RetryPending kind) :
    ∃ d w', (Trace WatcherStep w [.reWatch kind d] w' ∨
      Trace WatcherStep w [.fire kind, .reWatch kind d] w') ∧ w'.Live kind d := by
  obtain ⟨n, free⟩ := attended.supply
  obtain ⟨selected, armed | ticked⟩ := pending
  · let fired : Watcher :=
      { w with vars := update w.vars kind { w.vars kind with timer := ⟨false, true⟩ } }
    have fires : WatcherStep w (.fire kind) fired := .fire armed
    have again : ∃ w', WatcherStep fired (.reWatch kind n) w' ∧ w'.Live kind n :=
      reWatch_live running (by simpa [fired] using selected) (by simp [fired])
        (by simpa [fired] using wanted) (free n le_rfl)
    obtain ⟨w', step, live⟩ := again
    exact ⟨n, w', .inr (.snoc (.snoc .nil fires) step), live⟩
  · obtain ⟨w', step, live⟩ := reWatch_live running selected ticked wanted (free n le_rfl)
    exact ⟨n, w', .inl (.snoc .nil step), live⟩

/-- **The watcher holds the watches it needs.** Before a signal, every notification
and a signal can be handled, and for each kind there is at most one dispatcher that
was neither told to stop nor heard of; there is none if the last hub size was 0; and
if it was positive, there is one, or the timer for another one is pending, which then
leads to one. After a signal every dispatcher that has not returned was told to stop. -/
theorem watches_needed {ticks : Kind → Bool}
    (run : Trace WatcherStep (Watcher.start ticks) labels w) :
    (w.running = true →
      (∀ size, ∃ d e w', WatcherStep w (.hubNotification size d e) w') ∧
      (∃ w', WatcherStep w .signal w') ∧
      ∀ kind,
        (∀ d e, w.Live kind d → w.Live kind e → d = e) ∧
        (lastHubSize labels = 0 → ∀ d, ¬w.Live kind d) ∧
        (0 < lastHubSize labels →
          (∃ d, w.Live kind d) ∨
            w.RetryPending kind ∧
              ∃ d w', (Trace WatcherStep w [.reWatch kind d] w' ∨
                Trace WatcherStep w [.fire kind, .reWatch kind d] w') ∧ w'.Live kind d)) ∧
      (w.running = false → ∀ d dispatch, w.dispatchers d = some dispatch →
        dispatch.dispatcher ≠ .returned → dispatch.told = true) := by
  have here := supervised run
  rw [← hubSize_eq run]
  refine ⟨fun running => ?_, fun ended d dispatch found going => ?_⟩
  · have attended := here.attended running
    refine ⟨(attended.ready running).1, (attended.ready running).2, fun kind => ⟨?_, ?_, ?_⟩⟩
    · intro d e live live'
      have first := (attended.held kind d).mpr live
      rw [(attended.held kind e).mpr live'] at first
      exact (Option.some.inj first).symm
    · intro zero d live
      have holds := (attended.held kind d).mpr live
      rw [attended.idle zero kind] at holds
      cases holds
    · intro positive
      cases stop : (w.vars kind).stop with
      | some d => exact .inl ⟨d, (attended.held kind d).mp stop⟩
      | none =>
          have selected := (attended.busy positive kind).resolve_left (by simp [stop])
          have pending : w.RetryPending kind := ⟨selected, attended.retry kind selected⟩
          exact .inr ⟨pending, attended.resumes running ⟨stop, positive⟩ pending⟩
  · by_contra untold
    have unheard : dispatch.heard ≠ true := fun heard =>
      going ((here.dispatch d dispatch found).heard heard)
    have live : w.Live dispatch.kind d :=
      ⟨dispatch, found, rfl, by simpa using untold, by simpa using unheard⟩
    have holds := (here.held dispatch.kind d).mpr live
    rw [here.ended ended] at holds
    cases holds

/-- Two subscribers, and the watch for desired LRPs fails. -/
def failedWatch : List WatcherLabel :=
  [.hubNotification 2 0 1, .watchReturns 0 .failed, .error .desired 0]

theorem failedWatch_runs :
    ∃ w, Trace WatcherStep (Watcher.start fun _ => false) failedWatch w ∧ w.running = true ∧
      (w.vars .desired).stop = none := by
  refine Trace.exists_cons (.hubSize rfl (by decide) rfl rfl (by decide)) ?_
  refine Trace.exists_cons (.watchReturns rfl rfl (.other (by simp))) ?_
  refine Trace.exists_cons (.error rfl rfl rfl rfl) ?_
  exact Trace.exists_nil ⟨rfl, rfl⟩

theorem watches_needed_failedWatch :
    ∃ w, Trace WatcherStep (Watcher.start fun _ => false) failedWatch w ∧
      w.RetryPending .desired ∧
        ∃ d w', (Trace WatcherStep w [.reWatch .desired d] w' ∨
          Trace WatcherStep w [.fire .desired, .reWatch .desired d] w') ∧ w'.Live .desired d := by
  obtain ⟨w, run, running, stop⟩ := failedWatch_runs
  obtain ⟨-, -, needed⟩ := (watches_needed run).1 running
  refine ⟨w, run, ((needed .desired).2.2 (by decide)).resolve_left ?_⟩
  rintro ⟨d, live⟩
  have holds := ((supervised run).held .desired d).mpr live
  rw [stop] at holds
  cases holds

end Bbs.Watch
