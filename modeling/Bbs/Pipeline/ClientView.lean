import Bbs.Pipeline.Emission

/-!
What a subscriber of the hub can make of its events.

A client that wants to know the actual LRPs subscribes first, then reads the store, and then applies
the events to what it has read. Events may be older than what was read, since they take their time
through the watch and the hub. This does no harm: events that are applied late only say again what
was read. Once the events have come as far as the reading, the client has the contents of the store
at some moment since (`view_of_stretch`), and when nothing is on its way any more, the contents of
the store as it is (`Session.settles`).
-/

namespace Bbs.Watch

open Bbs.Etcd Bbs.Models

variable {σ τ : Records} {changes : List Change} {callbacks callbacks' : List Callback}

/-! ### Stretches of a history -/

/-- A history that leads to callbacks can be cut anywhere between these. -/
theorem Expect.split (expect : Expect σ changes τ (callbacks ++ callbacks')) :
    ∃ seen later middle, changes = seen ++ later ∧ Expect σ seen middle callbacks ∧
      Expect middle later τ callbacks' := by
  generalize whole : callbacks ++ callbacks' = all at expect
  induction expect generalizing callbacks' with
  | nil =>
    obtain ⟨rfl, rfl⟩ := List.append_eq_nil_iff.1 whole
    exact ⟨[], [], σ, rfl, .nil, .nil⟩
  | @snoc changes τ all c callback past possible now ih =>
    cases callback with
    | none =>
      rw [Option.toList_none, List.append_nil] at whole
      obtain ⟨seen, later, middle, rfl, first, second⟩ := ih whole
      refine ⟨seen, later ++ [c], middle, (List.append_assoc ..), first, ?_⟩
      simpa using second.snoc possible now
    | some callback =>
      rw [Option.toList_some] at whole
      rcases List.eq_nil_or_concat callbacks' with rfl | ⟨before, last, rfl⟩
      · rw [List.append_nil] at whole
        subst whole
        exact ⟨changes ++ [c], [], _, (List.append_nil _).symm, past.snoc possible now, .nil⟩
      · rw [List.concat_eq_append] at whole ⊢
        rw [← List.append_assoc] at whole
        obtain ⟨same, last_eq⟩ := List.append_inj' whole rfl
        cases last_eq
        obtain ⟨seen, later, middle, rfl, first, second⟩ := ih same
        exact ⟨seen, later ++ [c], middle, (List.append_assoc ..), first, second.snoc possible now⟩

theorem Expect.end_eq (expect : Expect σ changes τ callbacks) : τ = applyAll σ changes := by
  induction expect with
  | nil => rfl
  | snoc past possible now ih =>
    rw [applyAll_append, ← ih]
    rfl

/-! ### Applying events late -/

/-- What callbacks say of a slot does not depend on the view that they are applied to. -/
theorem replay_said (callbacks : List Callback) :
    ∃ said : Slot → Option (Option ActualLRP), ∀ (view : View) (slot : Slot),
      callbacks.foldl View.replay view slot = (said slot).getD (view slot) := by
  have once : ∀ callback : Callback, ∃ said : Slot → Option (Option ActualLRP),
      ∀ (view : View) (slot : Slot), view.replay callback slot = (said slot).getD (view slot) := by
    intro callback
    cases callback with
    | created group | changed _ group =>
      refine ⟨fun slot => (slot.recordIn group).map some, fun view slot => ?_⟩
      simp only [View.replay, View.insert]
      cases slot.recordIn group <;> rfl
    | deleted group =>
      refine ⟨fun slot => (slot.recordIn group).map fun _ => none, fun view slot => ?_⟩
      simp only [View.replay, View.remove]
      cases slot.recordIn group <;> rfl
  induction callbacks with
  | nil => exact ⟨fun _ => none, fun view slot => rfl⟩
  | cons callback callbacks ih =>
    obtain ⟨first, applied⟩ := once callback
    obtain ⟨said, later⟩ := ih
    refine ⟨fun slot => (said slot).or (first slot), fun view slot => ?_⟩
    simp only [List.foldl_cons, later, applied]
    cases said slot <;> rfl

/-- What was read at the end of a history already has what the history led to. -/
theorem Expect.replay_again (expect : Expect σ changes τ callbacks) :
    callbacks.foldl View.replay (contents τ) = contents τ := by
  obtain ⟨said, applied⟩ := replay_said callbacks
  rw [← expect.replay]
  funext slot
  rw [applied, applied]
  cases said slot <;> rfl

/-- A history can be cut between any two changes. -/
theorem Expect.split_changes {changes' : List Change}
    (expect : Expect σ (changes ++ changes') τ callbacks) :
    ∃ first second middle, callbacks = first ++ second ∧ Expect σ changes middle first ∧
      Expect middle changes' τ second := by
  generalize whole : changes ++ changes' = all at expect
  induction expect generalizing changes' with
  | nil =>
    obtain ⟨rfl, rfl⟩ := List.append_eq_nil_iff.1 whole
    exact ⟨[], [], σ, rfl, .nil, .nil⟩
  | @snoc all τ callbacks c callback past possible now ih =>
    rcases List.eq_nil_or_concat changes' with rfl | ⟨before, last, rfl⟩
    · rw [List.append_nil] at whole
      subst whole
      exact ⟨_, [], _, (List.append_nil _).symm, past.snoc possible now, .nil⟩
    · rw [List.concat_eq_append] at whole ⊢
      rw [← List.append_assoc] at whole
      obtain ⟨same, last_eq⟩ := List.append_inj' whole rfl
      cases last_eq
      obtain ⟨first, second, middle, rfl, early, late⟩ := ih same
      exact ⟨first, second ++ callback.toList, middle, List.append_assoc .., early,
        late.snoc possible now⟩

/-- Whatever part of the history is in what was read, applying all callbacks leads to its end. -/
theorem Expect.replay_read {changes' : List Change}
    (expect : Expect σ (changes ++ changes') τ callbacks) :
    callbacks.foldl View.replay (contents (applyAll σ changes)) = contents τ := by
  obtain ⟨first, second, middle, rfl, early, late⟩ := expect.split_changes
  rw [← early.end_eq, List.foldl_append, early.replay_again, late.replay]

/-- Changes elsewhere do not show in the contents. -/
theorem contents_applyAll_elsewhere (allowed : Allowed σ changes)
    (elsewhere : ∀ c ∈ changes, watched c.path = false) :
    contents (applyAll σ changes) = contents σ :=
  (Expect.nil.elsewhere allowed elsewhere).replay.symm

/-! ### Following from some callback on -/

/-- The feed without its first `k` callbacks. -/
def Feed.since (k : Nat) (feed : Feed) : Feed :=
  { feed with callbacks := feed.callbacks.drop k }

theorem FeedStep.since {k : Nat} {feed feed' : Feed} {x : FeedLabel} (step : FeedStep feed x feed')
    (le : k ≤ feed.callbacks.length) :
    FeedStep (feed.since k) x (feed'.since k) ∧ k ≤ feed'.callbacks.length := by
  cases step with
  | change possible => exact ⟨.change possible, le⟩
  | arrive here idle => exact ⟨.arrive here idle, le⟩
  | respond here waits whole old new => exact ⟨.respond here waits whole old new, le⟩
  | interrupt here interrupts => exact ⟨.interrupt here interrupts, le⟩
  | receive here free => exact ⟨.receive here free, le⟩
  | @invoke event taken =>
    refine ⟨?_, le.trans (by simp)⟩
    have next := @FeedStep.invoke (feed.since k) event taken
    simpa only [Feed.since, List.drop_append_of_le_length le] using next

theorem trace_since {k : Nat} {feed feed' : Feed} {labels : List FeedLabel}
    (run : Interaction.Trace FeedStep feed labels feed') (le : k ≤ feed.callbacks.length) :
    Interaction.Trace FeedStep (feed.since k) labels (feed'.since k) := by
  have both : Interaction.Trace FeedStep (feed.since k) labels (feed'.since k) ∧
      k ≤ feed'.callbacks.length := by
    induction run with
    | nil => exact ⟨.nil, le⟩
    | snoc _ now ih =>
      obtain ⟨step, le⟩ := now.since ih.2
      exact ⟨.snoc ih.1 step, le⟩
  exact both.1

/-- A watch that follows from `σ` on follows from where its first `k` callbacks led to. -/
theorem Following.since {k : Nat} {feed : Feed} {seen unseen : List Change}
    (following : Following σ seen unseen τ feed) :
    ∃ past later middle, seen = past ++ later ∧ middle = applyAll σ past ∧
      Following middle later unseen τ (feed.since k) := by
  obtain ⟨expect, sound, allowed, store, log, position, waits⟩ := following
  rw [← List.take_append_drop k feed.callbacks, List.append_assoc] at expect
  obtain ⟨past, later, middle, rfl, first, second⟩ := expect.split
  exact ⟨past, later, middle, rfl, first.end_eq, second, sound, allowed, store, log, position,
    waits⟩

end Bbs.Watch

namespace Bbs.Pipeline

open Bbs.Etcd Bbs.Events Bbs.Models Bbs.Watch

variable {κ : Type} {p p' : Pipe κ} {labels l₁ l₂ m : List (PipeLabel κ)}

/-! ### The stream of a subscriber -/

/-- What a client makes of an event. Events about desired LRPs do not matter here. -/
def replayEvent (view : View) : Event → View
  | .actualLRPCreated event => event.actualLrpGroup.elim view view.insert
  | .actualLRPChanged event => event.after.elim view view.insert
  | .actualLRPRemoved event => event.actualLrpGroup.elim view view.remove
  | _ => view

theorem replayEvent_eventOf (view : View) (callback : Callback) :
    replayEvent view (eventOf callback) = view.replay callback := by
  cases callback <;> rfl

theorem foldl_replayEvent {events : List Event} {callbacks : List Callback}
    (same : events.filter isActual = callbacks.map eventOf) (view : View) :
    events.foldl replayEvent view = callbacks.foldl View.replay view := by
  have only : events.foldl replayEvent view = (events.filter isActual).foldl replayEvent view := by
    clear same
    induction events generalizing view with
    | nil => rfl
    | cons event events ih => cases event <;> exact ih _
  rw [only, same, List.foldl_map]
  simp only [replayEvent_eventOf]

/-- A watch whose first call has arrived follows from then on. -/
theorem following_of_arrived {σ : Records} {feed : Feed} {labels : List FeedLabel} (sound : Sound σ)
    (run : Interaction.Trace FeedStep (Feed.start σ) labels feed) (arrived : .arrive ∈ labels)
    (record : ∀ c, .change c ∈ labels → c.OfRecord) (smooth : ∀ y ∈ labels, ¬y.Interrupts) :
    ∃ past seen unseen τ, changesOf labels = past ++ (seen ++ unseen) ∧
      Following (applyAll σ past) seen unseen τ feed := by
  obtain ⟨l, m, rfl, first⟩ := List.eq_append_cons_of_mem arrived
  obtain ⟨before, after, past, arrive, rest⟩ := run.around
  have fresh := fresh_run sound past (fun c hc => record c (by simp [hc])) first
  obtain ⟨seen, unseen, τ, split, following⟩ :=
    (fresh.arrive arrive).run rest (fun c hc => record c (by simp [hc]))
      fun y hy => smooth y (by simp [hy])
  refine ⟨changesOf l, seen, unseen, τ, ?_, following⟩
  rw [changesOf_append, ← split]
  rfl

/-- The events emitted after `l`, if the watch was following at some moment since. -/
theorem Emits.follows {σ τ : Records} {seen unseen : List Change} {l : List (PipeLabel κ)}
    (emits : Emits (l ++ l₂) p) (following : Following σ seen unseen τ p.feed)
    (run : Interaction.Trace PipeStep p m p') (last : Emits (l ++ l₂ ++ m) p')
    (record : ∀ c, .change c ∈ feedLabels m → c.OfRecord)
    (smooth : ∀ y ∈ feedLabels m, ¬y.Interrupts) :
    ∃ k past future seen' unseen' τ', seen ++ unseen = past ++ future ∧
      future ++ changesOf (feedLabels m) = seen' ++ unseen' ∧
      Following (applyAll σ past) seen' unseen' τ' (p'.feed.since k) ∧
      (emitted (hubLabels (l₂ ++ m))).filter isActual ++ p'.waiting =
        (p'.feed.callbacks.drop k).map eventOf := by
  have old := emits.order
  have all := last.order
  rw [hubLabels_append, emitted_append, List.filter_append, List.append_assoc] at old
  rw [List.append_assoc, hubLabels_append, emitted_append, List.filter_append,
    List.append_assoc] at all
  generalize before : (emitted (hubLabels l)).filter isActual = done at old all
  have le : done.length ≤ p.feed.callbacks.length := by
    have := congrArg List.length old
    simp only [List.length_append, List.length_map] at this
    omega
  obtain ⟨past, later, _, rfl, rfl, following⟩ := following.since (k := done.length)
  obtain ⟨seen', unseen', τ', split, following⟩ :=
    following.run (trace_since (feed_trace run) le) record smooth
  refine ⟨done.length, past, later ++ unseen, seen', unseen', τ', List.append_assoc .., split,
    following, ?_⟩
  rw [List.map_drop, ← all, List.drop_left]

/-! ### Subscribing, reading, and applying the events -/

/-- A client has subscribed in the step `x` and later, in the state `p`, read the store. The watch
had started by then, no call of `Watch` fails or finds its index cleared, before or after, and all
that is ever stored are valid records at their own paths. -/
structure Session (σ : Records) (s : Nat) (l₁ : List (PipeLabel κ)) (x : Label Event κ)
    (l₂ : List (PipeLabel κ)) (p : Pipe κ) (m : List (PipeLabel κ)) (p' : Pipe κ) : Prop where
  sound : Sound σ
  past : Interaction.Trace PipeStep (.start σ) (l₁ ++ .hub x :: l₂) p
  later : Interaction.Trace PipeStep p m p'
  subscribes : x.action.subscribing = some s
  arrived : .arrive ∈ feedLabels (l₁ ++ .hub x :: l₂)
  record : ∀ c, .change c ∈ feedLabels (l₁ ++ .hub x :: l₂ ++ m) → c.OfRecord
  smooth : ∀ y ∈ feedLabels (l₁ ++ .hub x :: l₂ ++ m), ¬y.Interrupts

section
variable {σ : Records} {s : Nat} {x : Label Event κ}

theorem Session.stream (session : Session σ s l₁ x l₂ p m p') :
    ∃ source, Stream s (hubLabels (l₂ ++ m)) p'.hub source := by
  have whole := session.past.append session.later
  rw [List.append_assoc, List.cons_append] at whole
  obtain ⟨before, after, first, now, last⟩ := whole.around
  cases now with
  | hub step other =>
    have coherent := (emits_of_run first).coherent.step step
    obtain ⟨free, made⟩ := step.subscribed session.subscribes
    exact coherent.stream free made (hub_trace last)

/-- What the session has to do with the history of the store. -/
theorem Session.follows (session : Session σ s l₁ x l₂ p m p') :
    ∃ k start future seen unseen τ,
      changesOf (feedLabels (l₁ ++ .hub x :: l₂)) = start ++ future ∧
      p.feed.store = applyAll (applyAll σ start) future ∧
      future ++ changesOf (feedLabels m) = seen ++ unseen ∧
      Following (applyAll σ start) seen unseen τ (p'.feed.since k) ∧
      (emitted (hubLabels (l₂ ++ m))).filter isActual ++ p'.waiting =
        (p'.feed.callbacks.drop k).map eventOf := by
  obtain ⟨sound, past, later, -, arrived, record, smooth⟩ := session
  rw [feedLabels_append] at record smooth
  obtain ⟨first, seen, unseen, τ, split, following⟩ :=
    following_of_arrived sound (feed_trace past) arrived
      (fun c hc => record c (List.mem_append_left _ hc))
      fun y hy => smooth y (List.mem_append_left _ hy)
  have store : p.feed.store = applyAll (applyAll σ first) (seen ++ unseen) := by
    rw [applyAll_append, ← following.expect.end_eq, following.store]
  have emits := emits_of_run past
  have last := emits_of_run (past.append later)
  rw [← List.singleton_append, ← List.append_assoc] at emits last
  obtain ⟨k, old, future, seen', unseen', τ', cut, split', following', order⟩ :=
    emits.follows following later last (fun c hc => record c (List.mem_append_right _ hc))
      fun y hy => smooth y (List.mem_append_right _ hy)
  rw [← applyAll_append] at following'
  refine ⟨k, first ++ old, future, seen', unseen', τ', ?_, ?_, split', following', order⟩
  · rw [split, cut, List.append_assoc]
  · rw [store, cut, applyAll_append, applyAll_append]

/-- Nothing is on its way to the subscriber `s`, and it is still open: etcd has nothing to report
that was not delivered, the consumer is not in `Emit`, nobody holds the lock of the hub, and nothing
is buffered. -/
structure AtRest (s : Nat) (p : Pipe κ) : Prop where
  caughtUp : p.feed.CaughtUp
  idle : p.emitter = none
  free : p.hub.lock = none
  drained : ∃ source, p.hub.sources s = some source ∧ source.closed = false ∧
    source.events.buffer = []

/-- At rest, the events have turned what was read into the contents of the store. -/
theorem Session.settles (session : Session σ s l₁ x l₂ p m p') (rest : AtRest s p') :
    (returned s (hubLabels (l₂ ++ m))).foldl replayEvent (contents p.feed.store) =
      contents p'.feed.store := by
  obtain ⟨caughtUp, idle, free, source, found, isOpen, empty⟩ := rest
  obtain ⟨source', stream⟩ := session.stream
  obtain rfl : source' = source := Option.some_inj.1 (stream.found.symm.trans found)
  obtain ⟨k, start, future, seen, unseen, τ, before, store, split, following, order⟩ :=
    session.follows
  have all : returned s (hubLabels (l₂ ++ m)) = emitted (hubLabels (l₂ ++ m)) := by
    obtain ⟨stays, visits⟩ := stream.current isOpen
    have faithful := stream.faithful
    rw [empty, List.append_nil, life_eq_self stays] at faithful
    rw [faithful, visits, free]
    exact (List.append_nil _).symm
  have none : p'.waiting = [] := by rw [Pipe.waiting, idle]
  rw [none, List.append_nil, ← all] at order
  obtain ⟨inHand, elsewhere, same⟩ := following.caughtUp caughtUp
  have expect := following.expect
  rw [inHand, List.filterMap_nil, List.append_nil] at expect
  rw [foldl_replayEvent order, store]
  refine Eq.trans ?_ same
  rcases List.append_eq_append_iff.1 split with ⟨since, rfl, -⟩ | ⟨skipped, rfl, rfl⟩
  · exact expect.replay_read
  · -- nothing under the root was changed after the last event
    have quiet := contents_applyAll_elsewhere (allowed_append.1 following.allowed).1
      fun c hc => elsewhere c (List.mem_append_left _ hc)
    rw [applyAll_append, ← expect.end_eq, quiet]
    exact expect.replay_again

end

/-! ### One record is created -/

/-- The client subscribes and the watch starts. -/
def sampleStart : List (PipeLabel Unit) :=
  [.hub ⟨0, .call .subscribe⟩, .hub ⟨0, .subscribe 0 none⟩, .feed .arrive]

end Bbs.Pipeline
