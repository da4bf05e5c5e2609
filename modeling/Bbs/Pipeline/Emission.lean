import Bbs.Events.Streams
import Bbs.Models.Events
import Bbs.Watch.Replay

/-!
A watch that feeds the hub (`watchActual` in `watcher/watcher.go`).

The consumer of the watch invokes callbacks that call `Emit` on the hub, and it takes its next event
only when `Emit` has returned. Meanwhile etcd, the dispatcher, the subscribers and everybody else at
the hub go on in any order. Whatever that order is, the hub emits the events of the callbacks one
after the other, without leaving any out (`Emits.order`).
-/

namespace Bbs.Events

open Function (update)

variable {E κ : Type} {hub hub' : Hub E κ} {x : Label E κ}

/-! ### Goroutines in `Emit` -/

/-- What a step does to the goroutine `t`, as far as `Emit` is concerned. -/
inductive Turn (hub : Hub E κ) (x : Label E κ) (hub' : Hub E κ) (t : Nat) : Prop where
  | same (same : hub'.goroutines t = hub.goroutines t)
  | called {operation : Goroutine E κ} (idle : hub.goroutines t = .idle)
      (label : x = ⟨t, .call operation⟩) (now : hub'.goroutines t = operation)
  | emits {event : E} (was : hub.goroutines t = .emit event) (label : x = ⟨t, .emit event⟩)
      (now : hub'.goroutines t = .critical)
  | moved (was : ∀ event, hub.goroutines t ≠ .emit event)
      (now : ∀ event, hub'.goroutines t ≠ .emit event) (busy : hub'.goroutines t ≠ .idle)

theorem Goroutine.finish_busy (reports : Option (κ × Nat)) :
    (∀ event, (finish reports : Goroutine E κ) ≠ .emit event) ∧
      (finish reports : Goroutine E κ) ≠ .idle := by
  obtain _ | ⟨cb, count⟩ := reports <;> simp [finish]

/-- A goroutine gets another program counter. -/
theorem Turn.of_update {u t : Nat} {g : Goroutine E κ}
    (goroutines : hub'.goroutines = update hub.goroutines u g)
    (was : ∀ event, hub.goroutines u ≠ .emit event) (now : ∀ event, g ≠ .emit event)
    (busy : g ≠ .idle) : Turn hub x hub' t := by
  by_cases here : t = u
  · subst here
    refine .moved was ?_ ?_
    · simpa [goroutines] using now
    · simpa [goroutines] using busy
  · exact .same (by rw [goroutines, Function.update_of_ne here])

theorem Step.turn (step : Step hub x hub') (held : hub.Held) (t : Nat) : Turn hub x hub' t := by
  have critical : ∀ {t work}, hub.lock = some (t, work) →
      ∀ event, hub.goroutines t ≠ .emit event := by
    intro t work locked event emits
    rcases held t work locked with h | h <;> rw [h] at emits <;> cases emits
  cases step with
  | @call t' operation idle callable =>
    by_cases here : t = t'
    · subst here
      exact .called idle rfl (Function.update_self ..)
    · exact .same (Function.update_of_ne here ..)
  | @emit t' event free was =>
    by_cases here : t = t'
    · subst here
      exact .emits was rfl (Function.update_self ..)
    · exact .same (Function.update_of_ne here ..)
  | registerCallback _ was | subscribe _ was | subscriberClosed _ was =>
    exact .of_update rfl (by simp [was]) (Goroutine.finish_busy _).1 (Goroutine.finish_busy _).2
  | emitted locked =>
    exact .of_update rfl (critical locked) (Goroutine.finish_busy _).1 (Goroutine.finish_busy _).2
  | subscribeRefused _ was | subscribePanics _ was | closeRefused _ was | close _ was
  | closeSourceRefused was | closeSourcePanics was | deliver was | next was =>
    exact .of_update rfl (by simp [was]) (by simp) (by simp)
  | sendPanics locked | slowPanics locked | closePanics locked | closedDeliver locked
  | closedSilently locked =>
    exact .of_update rfl (critical locked) (by simp) (by simp)
  | slow _ _ _ idle | closes _ _ _ _ idle =>
    exact .of_update rfl (by simp [idle]) (by simp) (by simp)
  | @closeSource t' u sub source source' was found closes idle =>
    by_cases here : t = u
    · subst here
      refine .moved (by simp [idle]) ?_ ?_ <;> simp
    · by_cases own : t = t'
      · subst own
        refine .moved (by simp [was]) ?_ ?_ <;> simp [here]
      · exact .same (by simp [here, own])
  | sent | refused | full | overtaken | skips | closed => exact .same rfl

/-- `Emit` that gets the lock has been waiting for it. -/
theorem Step.emit_label (step : Step hub x hub') {event : E} (action : x.action = .emit event) :
    hub.goroutines x.goroutine = .emit event ∧ hub'.goroutines x.goroutine = .critical := by
  cases step with
  | emit free was =>
    cases action
    exact ⟨was, Function.update_self ..⟩
  | _ => cases action

end Bbs.Events

namespace Bbs.Pipeline

open Bbs.Events Bbs.Models Bbs.Watch

variable {κ : Type}

/-! ### The watch and the hub together -/

/-- What `watchActual` emits in a callback. -/
def eventOf : Callback → Event
  | .created group => .actualLRPCreated ⟨some group⟩
  | .changed before after => .actualLRPChanged ⟨some before, some after⟩
  | .deleted group => .actualLRPRemoved ⟨some group⟩

/-- An event about actual LRPs. -/
def isActual : Event → Bool
  | .actualLRPCreated _ => true
  | .actualLRPChanged _ => true
  | .actualLRPRemoved _ => true
  | _ => false

@[simp] theorem isActual_eventOf (callback : Callback) : isActual (eventOf callback) = true := by
  cases callback <;> rfl

structure Pipe (κ : Type) where
  feed : Feed
  hub : Hub Event κ
  /-- the consumer of the watch is in this call of `Emit` -/
  emitter : Option Nat

def Pipe.start (σ : Etcd.Records) : Pipe κ where
  feed := .start σ
  hub := newHub
  emitter := none

inductive PipeLabel (κ : Type) where
  /-- etcd, the dispatcher or the consumer took a step -/
  | feed (x : FeedLabel)
  /-- the consumer invoked the callback, which called `Emit` -/
  | invoke (t : Nat) (callback : Callback)
  /-- `Emit` returned to the consumer -/
  | returned
  | hub (x : Label Event κ)

/-- Only the callbacks of the watch emit events about actual LRPs. -/
inductive PipeStep : Pipe κ → PipeLabel κ → Pipe κ → Prop where
  | feed {p : Pipe κ} {x : FeedLabel} {feed : Feed} (step : FeedStep p.feed x feed)
      (silent : ∀ callback, x ≠ .invoke (some callback)) (idle : x = .receive → p.emitter = none) :
      PipeStep p (.feed x) { p with feed := feed }
  | invoke {p : Pipe κ} {t : Nat} {callback : Callback} {feed : Feed} {hub : Hub Event κ}
      (idle : p.emitter = none) (step : FeedStep p.feed (.invoke (some callback)) feed)
      (call : Step p.hub ⟨t, .call (.emit (eventOf callback))⟩ hub) :
      PipeStep p (.invoke t callback) ⟨feed, hub, some t⟩
  | returned {p : Pipe κ} {t : Nat} (here : p.emitter = some t)
      (done : p.hub.goroutines t = .done) : PipeStep p .returned { p with emitter := none }
  | hub {p : Pipe κ} {x : Label Event κ} {hub : Hub Event κ} (step : Step p.hub x hub)
      (other : ∀ event, x.action = .call (.emit event) → isActual event = false) :
      PipeStep p (.hub x) { p with hub := hub }

/-! ### The parts of a run -/

def feedLabels (labels : List (PipeLabel κ)) : List FeedLabel :=
  labels.filterMap fun
    | .feed x => some x
    | .invoke _ callback => some (.invoke (some callback))
    | _ => none

def hubLabels (labels : List (PipeLabel κ)) : List (Label Event κ) :=
  labels.filterMap fun
    | .hub x => some x
    | .invoke t callback => some ⟨t, .call (.emit (eventOf callback))⟩
    | _ => none

theorem feedLabels_append (l m : List (PipeLabel κ)) :
    feedLabels (l ++ m) = feedLabels l ++ feedLabels m :=
  List.filterMap_append

theorem hubLabels_append (l m : List (PipeLabel κ)) :
    hubLabels (l ++ m) = hubLabels l ++ hubLabels m :=
  List.filterMap_append

variable {p p' : Pipe κ} {x : PipeLabel κ} {labels : List (PipeLabel κ)}

/-- A run of the pipeline is a run of the watch. -/
theorem feed_trace (run : Interaction.Trace PipeStep p labels p') :
    Interaction.Trace FeedStep p.feed (feedLabels labels) p'.feed := by
  induction run with
  | nil => exact .nil
  | snoc past now ih =>
    rw [feedLabels_append]
    cases now with
    | feed step => exact .snoc ih step
    | invoke _ step => exact .snoc ih step
    | returned => exact (List.append_nil (feedLabels _)).symm ▸ ih
    | hub => exact (List.append_nil (feedLabels _)).symm ▸ ih

/-- A run of the pipeline is a run of the hub. -/
theorem hub_trace (run : Interaction.Trace PipeStep p labels p') :
    Interaction.Trace Step p.hub (hubLabels labels) p'.hub := by
  induction run with
  | nil => exact .nil
  | snoc past now ih =>
    rw [hubLabels_append]
    cases now with
    | feed => exact (List.append_nil (hubLabels _)).symm ▸ ih
    | invoke _ _ call => exact .snoc ih call
    | returned => exact (List.append_nil (hubLabels _)).symm ▸ ih
    | hub step => exact .snoc ih step

/-! ### The order of the events -/

/-- The event with which the consumer waits for the lock of the hub. -/
def Pipe.waiting (p : Pipe κ) : List Event :=
  match p.emitter with
  | none => []
  | some t =>
      match p.hub.goroutines t with
      | .emit event => [event]
      | _ => []

theorem Pipe.waiting_eq_nil {p : Pipe κ} {t : Nat} (here : p.emitter = some t)
    (elsewhere : ∀ event, p.hub.goroutines t ≠ .emit event) : p.waiting = [] := by
  rw [waiting, here]
  dsimp only
  split
  · next event emitting => exact absurd emitting (elsewhere event)
  · rfl

/-- The hub has emitted the events of the callbacks in their order, all but one that is waiting. -/
structure Emits (labels : List (PipeLabel κ)) (p : Pipe κ) : Prop where
  coherent : Coherent p.hub
  sole : ∀ t event, p.hub.goroutines t = .emit event → isActual event = true → p.emitter = some t
  busy : ∀ t, p.emitter = some t → p.hub.goroutines t ≠ .idle
  order : (emitted (hubLabels labels)).filter isActual ++ p.waiting = p.feed.callbacks.map eventOf

theorem FeedStep.callbacks {feed feed' : Feed} {x : FeedLabel} (step : FeedStep feed x feed') :
    feed'.callbacks = feed.callbacks ++ match x with
      | .invoke callback => callback.toList
      | _ => [] := by
  cases step <;> simp

theorem Emits.feed {x : FeedLabel} {feed : Feed} (emits : Emits labels p)
    (step : FeedStep p.feed x feed) (silent : ∀ callback, x ≠ .invoke (some callback)) :
    Emits (labels ++ [.feed x]) { p with feed := feed } := by
  obtain ⟨coherent, sole, busy, order⟩ := emits
  refine ⟨coherent, sole, busy, ?_⟩
  have same : feed.callbacks = p.feed.callbacks := by
    rw [FeedStep.callbacks step]
    cases x with
    | invoke callback =>
      cases callback with
      | none => exact List.append_nil _
      | some callback => exact absurd rfl (silent callback)
    | _ => exact List.append_nil _
  rw [hubLabels_append, show hubLabels [PipeLabel.feed x] = ([] : List (Label Event κ)) from rfl,
    List.append_nil, same]
  exact order

theorem Emits.invoke {t : Nat} {callback : Callback} {feed : Feed} {hub : Hub Event κ}
    (emits : Emits labels p) (idle : p.emitter = none)
    (step : FeedStep p.feed (.invoke (some callback)) feed)
    (call : Step p.hub ⟨t, .call (.emit (eventOf callback))⟩ hub) :
    Emits (labels ++ [.invoke t callback]) ⟨feed, hub, some t⟩ := by
  obtain ⟨coherent, sole, busy, order⟩ := emits
  have coherent' := coherent.step call
  cases call with
  | call was callable =>
    refine ⟨coherent', ?_, ?_, ?_⟩
    · intro t' event emitting actual
      by_cases here : t' = t
      · rw [here]
      · have before := sole t' event (by simpa [here] using emitting) actual
        rw [idle] at before
        cases before
    · rintro _ ⟨⟩
      simp
    · have now : emitted [(⟨t, .call (.emit (eventOf callback))⟩ : Label Event κ)] = [] := rfl
      have none : p.waiting = [] := by rw [Pipe.waiting, idle]
      have one : Pipe.waiting ⟨feed, { p.hub with
          goroutines := Function.update p.hub.goroutines t (.emit (eventOf callback)) }, some t⟩ =
          [eventOf callback] := by
        simp [Pipe.waiting]
      rw [none, List.append_nil] at order
      rw [hubLabels_append, show hubLabels [PipeLabel.invoke t callback] =
        ([⟨t, .call (.emit (eventOf callback))⟩] : List (Label Event κ)) from rfl, emitted_append,
        now, List.append_nil, order, one, FeedStep.callbacks step, List.map_append]
      rfl

theorem Emits.returned {t : Nat} (emits : Emits labels p) (here : p.emitter = some t)
    (done : p.hub.goroutines t = .done) :
    Emits (labels ++ [.returned]) { p with emitter := none } := by
  obtain ⟨coherent, sole, busy, order⟩ := emits
  refine ⟨coherent, ?_, by simp, ?_⟩
  · intro t' event emitting actual
    have same := sole t' event emitting actual
    rw [here] at same
    cases same
    rw [done] at emitting
    cases emitting
  · have none : p.waiting = [] := by simp [Pipe.waiting, here, done]
    rw [none, List.append_nil] at order
    rw [hubLabels_append, show hubLabels [PipeLabel.returned] = ([] : List (Label Event κ))
      from rfl, List.append_nil, order]
    exact List.append_nil _

/-- An event with which the consumer waits is one about actual LRPs. -/
theorem Emits.actual_of_waiting (emits : Emits labels p) {event : Event}
    (waits : event ∈ p.waiting) : isActual event = true := by
  have mem : event ∈ p.feed.callbacks.map eventOf := by
    rw [← emits.order]
    exact List.mem_append_right _ waits
  obtain ⟨callback, -, rfl⟩ := List.mem_map.1 mem
  exact isActual_eventOf callback

theorem filter_emitted_nil {x : Label Event κ}
    (others : ∀ event, x.action = .emit event → isActual event ≠ true) :
    (emitted [x]).filter isActual = [] := by
  rw [List.filter_eq_nil_iff]
  intro event mem
  rw [emitted, List.mem_filterMap] at mem
  obtain ⟨y, mem, found⟩ := mem
  cases List.mem_singleton.1 mem
  split at found
  · next action =>
    cases found
    exact others event action
  · cases found

theorem Emits.hub {x : Label Event κ} {hub : Hub Event κ} (emits : Emits labels p)
    (step : Step p.hub x hub)
    (other : ∀ event, x.action = .call (.emit event) → isActual event = false) :
    Emits (labels ++ [.hub x]) { p with hub := hub } := by
  have actual : ∀ event ∈ p.waiting, isActual event = true := fun _ => emits.actual_of_waiting
  obtain ⟨coherent, sole, busy, order⟩ := emits
  have turn := step.turn coherent.held
  refine ⟨coherent.step step, ?_, ?_, ?_⟩
  · intro t event emitting is_actual
    cases turn t with
    | same same => exact sole t event (same ▸ emitting) is_actual
    | called _ label now =>
      have not_actual := other event (by rw [label, ← emitting, ← now])
      rw [is_actual] at not_actual
      cases not_actual
    | emits _ _ now =>
      rw [emitting] at now
      cases now
    | moved _ now => exact absurd emitting (now event)
  · intro t here
    cases turn t with
    | same same => exact same ▸ busy t here
    | called idle => exact absurd idle (busy t here)
    | emits _ _ now => simp [now]
    | moved _ _ now => exact now
  · rw [hubLabels_append, show hubLabels [PipeLabel.hub x] = [x] from rfl, emitted_append,
      List.filter_append, ← order, List.append_assoc]
    congr 1
    -- an event about actual LRPs that is emitted is the one that the consumer was waiting with
    have own : ∀ event, x.action = .emit event → isActual event = true →
        p.emitter = some x.goroutine := by
      intro event action is_actual
      exact sole _ event (step.emit_label action).1 is_actual
    cases here : p.emitter with
    | none =>
      have none : (emitted [x]).filter isActual = [] := by
        refine filter_emitted_nil fun event action is_actual => ?_
        rw [own event action is_actual] at here
        cases here
      rw [none]
      simp [Pipe.waiting, here]
    | some t =>
      cases turn t with
      | called idle => exact absurd idle (busy t here)
      | @emits event was label now =>
        have is_actual := actual event (by simp [Pipe.waiting, here, was])
        simp [label, emitted, is_actual, Pipe.waiting, here, was, now]
      | same same =>
        have none : (emitted [x]).filter isActual = [] := by
          refine filter_emitted_nil fun event action is_actual => ?_
          cases here.symm.trans (own event action is_actual)
          obtain ⟨was, now⟩ := step.emit_label action
          rw [same, was] at now
          cases now
        rw [none]
        simp [Pipe.waiting, here, same]
      | moved was now =>
        have none : (emitted [x]).filter isActual = [] := by
          refine filter_emitted_nil fun event action is_actual => ?_
          cases here.symm.trans (own event action is_actual)
          exact was event (step.emit_label action).1
        rw [none, Pipe.waiting_eq_nil here was]
        exact Pipe.waiting_eq_nil (p := ⟨p.feed, hub, some t⟩) rfl now

theorem Emits.step (emits : Emits labels p) (step : PipeStep p x p') :
    Emits (labels ++ [x]) p' := by
  cases step with
  | feed step silent => exact emits.feed step silent
  | invoke idle step call => exact emits.invoke idle step call
  | returned here done => exact emits.returned here done
  | hub step other => exact emits.hub step other

theorem emits_of_run {σ : Etcd.Records}
    (run : Interaction.Trace PipeStep (Pipe.start σ) labels p) : Emits labels p := by
  induction run with
  | nil => exact ⟨coherent_newHub, by simp [Pipe.start, newHub], by simp [Pipe.start], rfl⟩
  | snoc past now ih => exact ih.step now

end Bbs.Pipeline
