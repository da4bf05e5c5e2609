import Bbs.Interaction.Traces
import Bbs.Watch.Histories

/-!
A watch that follows a history.

etcd, the dispatcher and the consumer take their steps in any order. etcd keeps the
changes that it has made under the root; a call of `Watch` that has arrived waits there
for the first change at or after the index it named, or, if that was 0, for the first
change to come.
-/

namespace Bbs.Watch

open Bbs.Interaction Bbs.Etcd Bbs.Models Bbs.Versioned

/-- etcd and one watch on it. -/
structure Feed where
  store : Records
  /-- what etcd has to report of the changes under the root, oldest first -/
  log : List Response
  dispatcher : Dispatcher
  /-- the index from which on a call of `Watch` that has arrived is waiting -/
  wait : Option Nat
  /-- the event that the consumer has taken and not yet handled -/
  consumer : Option WatchEvent
  callbacks : List Callback

def Feed.start (σ : Records) : Feed where
  store := σ
  log := []
  dispatcher := .watching 0
  wait := none
  consumer := none
  callbacks := []

inductive FeedLabel where
  | change (c : Change)
  | arrive
  | watchReturns (result : WatchResult)
  | receive
  | invoke (callback : Option Callback)

/-- The results of `Watch` other than a response. -/
def WatchResult.Interrupts : WatchResult → Prop
  | .response _ => False
  | _ => True

inductive FeedStep : Feed → FeedLabel → Feed → Prop where
  | change {feed : Feed} {c : Change} (possible : c.Possible feed.store) :
      FeedStep feed (.change c)
        { feed with
          store := c.apply feed.store
          log := feed.log ++ if watched c.path then [c.response feed.store] else [] }
  | arrive {feed : Feed} {index : Nat} (here : feed.dispatcher = .watching index)
      (idle : feed.wait = none) :
      FeedStep feed .arrive
        { feed with wait := some (if index = 0 then feed.store.index + 1 else index) }
  | respond {feed : Feed} {index n : Nat} {past rest : List Response} {response : Response}
      (here : feed.dispatcher = .watching index) (waits : feed.wait = some n)
      (whole : feed.log = past ++ response :: rest)
      (old : ∀ r ∈ past, r.node.modifiedIndex < n) (new : n ≤ response.node.modifiedIndex) :
      FeedStep feed (.watchReturns (.response response))
        { feed with dispatcher := .afterWatch (.response response), wait := none }
  | interrupt {feed : Feed} {index : Nat} {result : WatchResult}
      (here : feed.dispatcher = .watching index) (interrupts : result.Interrupts) :
      FeedStep feed (.watchReturns result)
        { feed with dispatcher := .afterWatch result, wait := none }
  | receive {feed : Feed} {event : WatchEvent} {index : Nat}
      (here : feed.dispatcher = .sending event index) (free : feed.consumer = none) :
      FeedStep feed .receive
        { feed with dispatcher := .watching index, consumer := some event }
  | invoke {feed : Feed} {event : WatchEvent} (taken : feed.consumer = some event) :
      FeedStep feed (.invoke (consume event))
        { feed with
          consumer := none
          callbacks := feed.callbacks ++ (consume event).toList }

/-- The changes among the labels. -/
def changesOf (labels : List FeedLabel) : List Change :=
  labels.filterMap fun
    | .change c => some c
    | _ => none

/-- The responses that the dispatcher got. -/
def responsesOf (labels : List FeedLabel) : List Response :=
  labels.filterMap fun
    | .watchReturns (.response response) => some response
    | _ => none

/-- The events on their way to a callback. -/
def Feed.inHand (feed : Feed) : List WatchEvent :=
  feed.consumer.toList ++
    match feed.dispatcher with
    | .sending event _ => [event]
    | _ => []

/-- Where the dispatcher goes on, once its index is known. -/
def Feed.position (feed : Feed) : Option Nat :=
  match feed.dispatcher with
  | .watching index => if index = 0 then feed.wait else some (feed.wait.getD index)
  | .sending _ index => some index
  | _ => none

theorem Feed.position_waiting {feed : Feed} {index n : Nat}
    (here : feed.dispatcher = .watching index) (waits : feed.wait = some n) :
    feed.position = some n := by
  rw [Feed.position, here, waits]
  by_cases zero : index = 0 <;> simp [zero]

theorem Feed.inHand_watching {feed : Feed} {index : Nat} (here : feed.dispatcher = .watching index) :
    feed.inHand = feed.consumer.toList := by
  rw [Feed.inHand, here, List.append_nil]

/-- While an event is being sent, no call of `Watch` is waiting. -/
theorem Feed.idle_of_sending {feed : Feed} {event : WatchEvent} {index : Nat}
    (waits : feed.wait ≠ none → ∃ index, feed.dispatcher = .watching index)
    (here : feed.dispatcher = .sending event index) : feed.wait = none := by
  by_contra some
  obtain ⟨i, watching⟩ := waits some
  rw [here] at watching
  cases watching

/-! ### Stretches of a history -/

def applyAll (σ : Records) (changes : List Change) : Records :=
  changes.foldl (fun σ c => c.apply σ) σ

/-- What etcd has to report of the changes under the root. -/
def reports : Records → List Change → List Response
  | _, [] => []
  | σ, c :: changes =>
      (if watched c.path then [c.response σ] else []) ++ reports (c.apply σ) changes

/-- Changes that etcd can make one after the other, and that write records only. -/
def Allowed : Records → List Change → Prop
  | _, [] => True
  | σ, c :: changes => c.Possible σ ∧ c.OfRecord ∧ Allowed (c.apply σ) changes

theorem applyAll_append (σ : Records) (l m : List Change) :
    applyAll σ (l ++ m) = applyAll (applyAll σ l) m :=
  List.foldl_append

theorem reports_append (σ : Records) (l m : List Change) :
    reports σ (l ++ m) = reports σ l ++ reports (applyAll σ l) m := by
  induction l generalizing σ with
  | nil => rfl
  | cons c l ih =>
      rw [List.cons_append, reports, ih, reports, List.append_assoc]
      rfl

theorem allowed_append {σ : Records} {l m : List Change} :
    Allowed σ (l ++ m) ↔ Allowed σ l ∧ Allowed (applyAll σ l) m := by
  induction l generalizing σ with
  | nil => simp [Allowed, applyAll]
  | cons c l ih =>
      rw [List.cons_append, Allowed, Allowed, ih, and_assoc, and_assoc]
      rfl

theorem applyAll_index (σ : Records) (changes : List Change) :
    (applyAll σ changes).index = σ.index + changes.length := by
  induction changes generalizing σ with
  | nil => rfl
  | cons c changes ih =>
      rw [applyAll, List.foldl_cons, ← applyAll, ih, Change.apply_index, List.length_cons]
      omega

/-- Whatever is reported later has a later index. -/
theorem reports_later (σ : Records) (changes : List Change) :
    ∀ r ∈ reports σ changes, σ.index < r.node.modifiedIndex := by
  induction changes generalizing σ with
  | nil => simp [reports]
  | cons c changes ih =>
      intro r hr
      rcases List.mem_append.mp hr with hr | hr
      · split at hr
        · rw [List.mem_singleton.mp hr, Change.response_modifiedIndex]
          exact Nat.lt_succ_self _
        · cases hr
      · have := ih (c.apply σ) r hr
        rw [Change.apply_index] at this
        omega

/-- The first report is of the first change that the watch covers. -/
theorem reports_eq_cons {σ : Records} {changes : List Change} {r : Response} {rest : List Response}
    (h : reports σ changes = r :: rest) :
    ∃ skipped c later, changes = skipped ++ c :: later ∧
      (∀ d ∈ skipped, watched d.path = false) ∧ watched c.path = true ∧
        r = c.response (applyAll σ skipped) ∧
          rest = reports (c.apply (applyAll σ skipped)) later := by
  induction changes generalizing σ with
  | nil => cases h
  | cons c changes ih =>
      rw [reports] at h
      cases covered : watched c.path with
      | true =>
          rw [covered, if_pos rfl, List.singleton_append, List.cons.injEq] at h
          exact ⟨[], c, changes, rfl, by simp, covered, h.1.symm, h.2.symm⟩
      | false =>
          rw [covered, if_neg (by simp), List.nil_append] at h
          obtain ⟨skipped, d, later, rfl, elsewhere, covered', first, others⟩ := ih h
          refine ⟨c :: skipped, d, later, rfl, ?_, covered', first, others⟩
          intro e he
          rcases List.mem_cons.mp he with rfl | he
          · exact covered
          · exact elsewhere e he

theorem reports_eq_nil {σ : Records} {changes : List Change} (h : reports σ changes = []) :
    ∀ c ∈ changes, watched c.path = false := by
  induction changes generalizing σ with
  | nil => simp
  | cons c changes ih =>
      rw [reports, List.append_eq_nil_iff] at h
      intro d hd
      rcases List.mem_cons.mp hd with rfl | hd
      · by_contra covered
        rw [Bool.not_eq_false] at covered
        simp [covered] at h
      · exact ih h.2 d hd

/-- Changes elsewhere lead to nothing. -/
theorem Expect.elsewhere {σ τ : Records} {changes skipped : List Change} {callbacks : List Callback}
    (expect : Expect σ changes τ callbacks) (allowed : Allowed τ skipped)
    (elsewhere : ∀ c ∈ skipped, watched c.path = false) :
    Expect σ (changes ++ skipped) (applyAll τ skipped) callbacks := by
  induction skipped generalizing τ changes with
  | nil =>
      rw [List.append_nil]
      exact expect
  | cons c skipped ih =>
      obtain ⟨possible, -, allowed⟩ := allowed
      have now := expect.snoc possible (.elsewhere (elsewhere c List.mem_cons_self))
      rw [Option.toList_none, List.append_nil] at now
      have later := ih now allowed fun d hd => elsewhere d (List.mem_cons_of_mem _ hd)
      rw [List.append_assoc, List.singleton_append] at later
      exact later

theorem Sound.applyAll {σ : Records} {changes : List Change} (sound : Sound σ)
    (allowed : Allowed σ changes) : Sound (applyAll σ changes) := by
  induction changes generalizing σ with
  | nil => exact sound
  | cons c changes ih => exact ih (sound.apply allowed.2.1) allowed.2.2

/-! ### Following a history -/

/-- The watch has seen the changes `seen`, which took the store from `σ` to `τ`, and not
yet the changes `unseen`. -/
structure Following (σ : Records) (seen unseen : List Change) (τ : Records) (feed : Feed) : Prop where
  expect : Expect σ seen τ (feed.callbacks ++ feed.inHand.filterMap consume)
  sound : Sound τ
  allowed : Allowed τ unseen
  store : feed.store = applyAll τ unseen
  log : ∃ old, feed.log = old ++ reports τ unseen ∧ ∀ r ∈ old, r.node.modifiedIndex ≤ τ.index
  position : feed.position = some (τ.index + 1)
  waits : feed.wait ≠ none → ∃ index, feed.dispatcher = .watching index

/-- The first element that passes a test stands at the same place in every split. -/
theorem split_at_first {α : Type} {p : α → Prop} {past rest old new : List α} {a : α}
    (same : past ++ a :: rest = old ++ new) (before : ∀ b ∈ past, ¬p b) (here : p a)
    (before' : ∀ b ∈ old, ¬p b) (after : ∀ b ∈ new, p b) : new = a :: rest := by
  induction past generalizing old with
  | nil =>
      cases old with
      | nil => exact same.symm
      | cons b old =>
          rw [List.nil_append, List.cons_append, List.cons.injEq] at same
          exact absurd here (same.1 ▸ before' b List.mem_cons_self)
  | cons c past ih =>
      cases old with
      | nil =>
          rw [List.nil_append] at same
          exact absurd (after c (by rw [← same]; exact List.mem_cons_self))
            (before c List.mem_cons_self)
      | cons b old =>
          rw [List.cons_append, List.cons_append, List.cons.injEq] at same
          exact ih same.2 (fun d hd => before d (List.mem_cons_of_mem _ hd))
            fun d hd => before' d (List.mem_cons_of_mem _ hd)

theorem Following.change {σ τ : Records} {seen unseen : List Change} {feed : Feed} {c : Change}
    (following : Following σ seen unseen τ feed) (possible : c.Possible feed.store)
    (record : c.OfRecord) :
    Following σ seen (unseen ++ [c]) τ
      { feed with
        store := c.apply feed.store
        log := feed.log ++ if watched c.path then [c.response feed.store] else [] } := by
  obtain ⟨expect, sound, allowed, store, ⟨old, log, earlier⟩, position, waits⟩ := following
  refine ⟨expect, sound, ?_, ?_, ⟨old, ?_, earlier⟩, position, waits⟩
  · rw [allowed_append, ← store]
    exact ⟨allowed, possible, record, trivial⟩
  · rw [applyAll_append, ← store]
    rfl
  · simp only [log, reports_append, ← store, reports, List.append_nil, List.append_assoc]

theorem Following.arrive {σ τ : Records} {seen unseen : List Change} {feed : Feed} {index : Nat}
    (following : Following σ seen unseen τ feed) (here : feed.dispatcher = .watching index)
    (idle : feed.wait = none) :
    Following σ seen unseen τ
      { feed with wait := some (if index = 0 then feed.store.index + 1 else index) } := by
  obtain ⟨expect, sound, allowed, store, log, position, waits⟩ := following
  refine ⟨expect, sound, allowed, store, log, ?_, fun _ => ⟨index, here⟩⟩
  rw [Feed.position, here, idle] at position
  by_cases zero : index = 0
  · simp [zero] at position
  · simp only [zero, if_false, Option.getD_none, Option.some.injEq] at position
    simp [Feed.position, here, position]

theorem Following.receive {σ τ : Records} {seen unseen : List Change} {feed : Feed}
    {event : WatchEvent} {index : Nat} (following : Following σ seen unseen τ feed)
    (here : feed.dispatcher = .sending event index) (free : feed.consumer = none) :
    Following σ seen unseen τ
      { feed with dispatcher := .watching index, consumer := some event } := by
  obtain ⟨expect, sound, allowed, store, log, position, waits⟩ := following
  have idle := Feed.idle_of_sending waits here
  refine ⟨?_, sound, allowed, store, log, ?_, by simp [idle]⟩
  · simpa [Feed.inHand, here, free] using expect
  · rw [Feed.position, here, Option.some.injEq] at position
    simp [Feed.position, idle, position]

theorem Following.invoke {σ τ : Records} {seen unseen : List Change} {feed : Feed}
    {event : WatchEvent} (following : Following σ seen unseen τ feed)
    (taken : feed.consumer = some event) :
    Following σ seen unseen τ
      { feed with
        consumer := none
        callbacks := feed.callbacks ++ (consume event).toList } := by
  obtain ⟨expect, sound, allowed, store, log, position, waits⟩ := following
  refine ⟨?_, sound, allowed, store, log, position, waits⟩
  have first (rest : List WatchEvent) : (event :: rest).filterMap consume =
      (consume event).toList ++ rest.filterMap consume := by
    cases called : consume event <;> simp [called]
  simpa [Feed.inHand, taken, first] using expect

/-- A response is of the first change that was not seen yet. -/
theorem Following.respond {σ τ : Records} {seen unseen : List Change} {feed : Feed} {index n : Nat}
    {past rest : List Response} {response : Response} (following : Following σ seen unseen τ feed)
    (here : feed.dispatcher = .watching index) (waits : feed.wait = some n)
    (whole : feed.log = past ++ response :: rest) (before : ∀ r ∈ past, r.node.modifiedIndex < n)
    (new : n ≤ response.node.modifiedIndex) :
    ∃ skipped c later, unseen = skipped ++ c :: later ∧
      rest = reports (c.apply (applyAll τ skipped)) later ∧
      Following σ (seen ++ skipped ++ [c]) later (c.apply (applyAll τ skipped))
        { feed with dispatcher := .afterWatch (.response response), wait := none } := by
  obtain ⟨expect, sound, allowed, store, ⟨old, log, earlier⟩, position, -⟩ := following
  rw [Feed.position_waiting here waits, Option.some.injEq] at position
  subst position
  have first : reports τ unseen = response :: rest := by
    refine split_at_first (p := fun r => τ.index < r.node.modifiedIndex) (whole.symm.trans log)
      (fun r hr => ?_) new (fun r hr => ?_) (reports_later τ unseen)
    · have := before r hr
      omega
    · have := earlier r hr
      omega
  obtain ⟨skipped, c, later, rfl, elsewhere, covered, rfl, rfl⟩ := reports_eq_cons first
  obtain ⟨allowed, possible, record, allowed'⟩ := allowed_append.mp allowed
  have sound' := sound.applyAll allowed
  obtain ⟨event, made, expected⟩ := Change.expected sound' record possible covered
  have dispatcher : Dispatcher.afterWatch (.response (c.response (applyAll τ skipped))) =
      .sending event ((c.apply (applyAll τ skipped)).index + 1) := by
    rw [Dispatcher.afterWatch, made, Change.response_modifiedIndex, Change.apply_index]
  refine ⟨skipped, c, later, rfl, rfl, ?_, sound'.apply record, allowed', ?_, ?_, ?_, by simp⟩
  · have now := (expect.elsewhere allowed elsewhere).snoc possible expected
    have inHand : feed.inHand = feed.consumer.toList := by simp [Feed.inHand, here]
    rw [inHand] at now
    rw [dispatcher]
    have last (l : List WatchEvent) : (l ++ [event]).filterMap consume =
        l.filterMap consume ++ (consume event).toList := by
      cases called : consume event <;> simp [called]
    rw [Feed.inHand, last]
    simpa using now
  · rw [store, applyAll_append]
    rfl
  · refine ⟨old ++ [c.response (applyAll τ skipped)], ?_, fun r hr => ?_⟩
    · rw [log, first]
      simp
    · rw [Change.apply_index, applyAll_index]
      rcases List.mem_append.mp hr with hr | hr
      · have := earlier r hr
        omega
      · rw [List.mem_singleton.mp hr, Change.response_modifiedIndex, applyAll_index]
  · rw [dispatcher]
    rfl

/-- A watch error, or a stop. -/
def FeedLabel.Interrupts : FeedLabel → Prop
  | .watchReturns result => result.Interrupts
  | _ => False

theorem changesOf_append (l m : List FeedLabel) : changesOf (l ++ m) = changesOf l ++ changesOf m :=
  List.filterMap_append

theorem responsesOf_append (l m : List FeedLabel) :
    responsesOf (l ++ m) = responsesOf l ++ responsesOf m :=
  List.filterMap_append

theorem Following.step {σ τ : Records} {seen unseen : List Change} {feed feed' : Feed} {x : FeedLabel}
    (following : Following σ seen unseen τ feed) (step : FeedStep feed x feed')
    (record : ∀ c, x = .change c → c.OfRecord) (smooth : ¬x.Interrupts) :
    ∃ seen' unseen' τ', seen ++ unseen ++ changesOf [x] = seen' ++ unseen' ∧
      Following σ seen' unseen' τ' feed' := by
  cases step with
  | @change c possible =>
      refine ⟨seen, unseen ++ [c], τ, ?_, following.change possible (record c rfl)⟩
      rw [List.append_assoc]
      rfl
  | arrive here idle => exact ⟨seen, unseen, τ, List.append_nil _, following.arrive here idle⟩
  | respond here waits whole old new =>
      obtain ⟨skipped, c, later, rfl, -, followed⟩ := following.respond here waits whole old new
      refine ⟨_, later, _, ?_, followed⟩
      simp [changesOf]
  | interrupt here interrupts => exact absurd interrupts smooth
  | receive here free => exact ⟨seen, unseen, τ, List.append_nil _, following.receive here free⟩
  | invoke taken => exact ⟨seen, unseen, τ, List.append_nil _, following.invoke taken⟩

theorem Following.run {σ τ : Records} {seen unseen : List Change} {feed feed' : Feed}
    {labels : List FeedLabel} (following : Following σ seen unseen τ feed)
    (run : Trace FeedStep feed labels feed') (record : ∀ c, .change c ∈ labels → c.OfRecord)
    (smooth : ∀ x ∈ labels, ¬x.Interrupts) :
    ∃ seen' unseen' τ', seen ++ unseen ++ changesOf labels = seen' ++ unseen' ∧
      Following σ seen' unseen' τ' feed' := by
  induction run with
  | nil => exact ⟨seen, unseen, τ, List.append_nil _, following⟩
  | @snoc labels middle feed' x past now ih =>
      obtain ⟨seen', unseen', τ', split, following⟩ :=
        ih (fun c hc => record c (by simp [hc])) fun y hy => smooth y (by simp [hy])
      obtain ⟨seen'', unseen'', τ'', split', following⟩ :=
        following.step now (fun c hc => record c (by simp [hc])) (smooth x (by simp))
      refine ⟨seen'', unseen'', τ'', ?_, following⟩
      rw [changesOf_append, ← List.append_assoc, split, split']

/-! ### Before the first call of `Watch` has arrived -/

structure Fresh (σ : Records) (labels : List FeedLabel) (feed : Feed) : Prop where
  store : feed.store = applyAll σ (changesOf labels)
  sound : Sound feed.store
  log : ∀ r ∈ feed.log, r.node.modifiedIndex ≤ feed.store.index
  dispatcher : feed.dispatcher = .watching 0 ∨ ∀ index, feed.dispatcher ≠ .watching index
  wait : feed.wait = none
  inHand : feed.inHand = []
  callbacks : feed.callbacks = []

theorem Fresh.step {σ : Records} {labels : List FeedLabel} {feed feed' : Feed} {x : FeedLabel}
    (fresh : Fresh σ labels feed) (step : FeedStep feed x feed')
    (record : ∀ c, x = .change c → c.OfRecord) (first : x ≠ .arrive) :
    Fresh σ (labels ++ [x]) feed' := by
  obtain ⟨store, sound, log, dispatcher, wait, inHand, callbacks⟩ := fresh
  cases step with
  | @change c possible =>
      refine ⟨?_, sound.apply (record c rfl), fun r hr => ?_, dispatcher, wait, inHand, callbacks⟩
      · rw [store, changesOf_append, applyAll_append]
        rfl
      · rw [Change.apply_index]
        rcases List.mem_append.mp hr with hr | hr
        · have := log r hr
          omega
        · split at hr
          · rw [List.mem_singleton.mp hr, Change.response_modifiedIndex]
          · cases hr
  | arrive => exact absurd rfl first
  | respond here waits =>
      rw [wait] at waits
      cases waits
  | @interrupt index result here interrupts =>
      have consumer : feed.consumer = none := by
        rw [Feed.inHand, here, List.append_nil] at inHand
        simpa using inHand
      refine ⟨?_, sound, log, ?_, rfl, ?_, callbacks⟩
      · rw [store, changesOf_append, applyAll_append]
        rfl
      · cases result <;> simp_all [Dispatcher.afterWatch, WatchResult.Interrupts]
      · cases result <;> simp_all [Feed.inHand, Dispatcher.afterWatch, WatchResult.Interrupts]
  | receive here => simp [Feed.inHand, here] at inHand
  | invoke taken => simp [Feed.inHand, taken] at inHand

theorem fresh_run {σ : Records} {labels : List FeedLabel} {feed : Feed} (sound : Sound σ)
    (run : Trace FeedStep (Feed.start σ) labels feed)
    (record : ∀ c, .change c ∈ labels → c.OfRecord) (first : .arrive ∉ labels) :
    Fresh σ labels feed := by
  induction run with
  | nil => exact ⟨rfl, sound, by simp [Feed.start], .inl rfl, rfl, rfl, rfl⟩
  | snoc past now ih =>
      have fresh := ih (fun c hc => record c (by simp [hc])) fun h => first (by simp [h])
      refine fresh.step now (fun c hc => record c (by simp [hc])) ?_
      rintro rfl
      exact first (by simp)

/-- The first call of `Watch` makes the watch follow from the store at that time on. -/
theorem Fresh.arrive {σ : Records} {labels : List FeedLabel} {feed feed' : Feed}
    (fresh : Fresh σ labels feed) (step : FeedStep feed .arrive feed') :
    Following (applyAll σ (changesOf labels)) [] [] (applyAll σ (changesOf labels)) feed' := by
  obtain ⟨store, sound, log, dispatcher, wait, inHand, callbacks⟩ := fresh
  cases step with
  | @arrive index here idle =>
      have zero : index = 0 := by
        rcases dispatcher with h | h
        · rw [here] at h
          cases h
          rfl
        · exact absurd here (h index)
      subst zero
      rw [← store]
      refine ⟨?_, sound, trivial, rfl, ⟨feed.log, ?_, log⟩, ?_, fun _ => ⟨0, here⟩⟩
      · have none : ({ feed with wait := some (if 0 = 0 then feed.store.index + 1 else 0) } : Feed).inHand
            = [] := inHand
        rw [none, callbacks]
        exact .nil
      · simp [reports]
      · simp [Feed.position, here]

/-! ### Catching up -/

/-- Nothing is on its way to a callback, and etcd has nothing to respond with. -/
def Feed.CaughtUp (feed : Feed) : Prop :=
  feed.consumer = none ∧ ∃ index n, feed.dispatcher = .watching index ∧ feed.wait = some n ∧
    ∀ r ∈ feed.log, r.node.modifiedIndex < n

theorem Following.caughtUp {σ τ : Records} {seen unseen : List Change} {feed : Feed}
    (following : Following σ seen unseen τ feed) (caughtUp : feed.CaughtUp) :
    feed.inHand = [] ∧ (∀ c ∈ unseen, watched c.path = false) ∧ contents τ = contents feed.store := by
  obtain ⟨expect, sound, allowed, store, ⟨old, log, earlier⟩, position, -⟩ := following
  obtain ⟨free, index, n, here, waits, drained⟩ := caughtUp
  rw [Feed.position_waiting here waits, Option.some.injEq] at position
  have none : reports τ unseen = [] := by
    refine List.eq_nil_iff_forall_not_mem.mpr fun r hr => ?_
    have later := reports_later τ unseen r hr
    have := drained r (by rw [log]; exact List.mem_append_right _ hr)
    omega
  have elsewhere := reports_eq_nil none
  refine ⟨by simp [Feed.inHand, free, here], elsewhere, ?_⟩
  have skipped := Expect.elsewhere (.nil : Expect τ [] τ []) allowed elsewhere
  have replayed := skipped.replay
  rw [List.foldl_nil] at replayed
  rw [replayed, store]

/-- How much the watch has still to do. -/
def Feed.work (feed : Feed) : Nat :=
  feed.consumer.toList.length +
    match feed.dispatcher, feed.wait with
    | .watching _, some _ => 0
    | .watching _, none => 1
    | _, _ => 3

theorem Feed.work_le (feed : Feed) (free : feed.consumer = none) : feed.work ≤ 3 := by
  rw [Feed.work, free]
  split <;> simp

/-- A watch that is behind has a step to take that brings it closer. -/
theorem Following.progress {σ τ : Records} {seen unseen : List Change} {feed : Feed}
    (following : Following σ seen unseen τ feed) (behind : ¬feed.CaughtUp) :
    ∃ x feed' seen' unseen' τ', FeedStep feed x feed' ∧ changesOf [x] = [] ∧ ¬x.Interrupts ∧
      Following σ seen' unseen' τ' feed' ∧
        4 * (reports τ' unseen').length + feed'.work < 4 * (reports τ unseen).length + feed.work := by
  have keep := following
  obtain ⟨expect, sound, allowed, store, ⟨old, log, earlier⟩, position, waits⟩ := following
  cases taken : feed.consumer with
  | some event =>
      refine ⟨_, _, seen, unseen, τ, .invoke taken, rfl, id, keep.invoke taken, ?_⟩
      simp [Feed.work, taken]
  | none =>
      cases here : feed.dispatcher with
      | failing => simp [Feed.position, here] at position
      | returned => simp [Feed.position, here] at position
      | sending event index =>
          have idle := Feed.idle_of_sending waits here
          refine ⟨_, _, seen, unseen, τ, .receive here taken, rfl, id, keep.receive here taken, ?_⟩
          simp [Feed.work, taken, here, idle]
      | watching index =>
          cases waiting : feed.wait with
          | none =>
              refine ⟨_, _, seen, unseen, τ, .arrive here waiting, rfl, id,
                keep.arrive here waiting, ?_⟩
              simp [Feed.work, taken, here, waiting]
          | some n =>
              rw [Feed.position_waiting here waiting, Option.some.injEq] at position
              subst position
              cases unreported : reports τ unseen with
              | nil =>
                  refine absurd ⟨taken, _, _, here, waiting, fun r hr => ?_⟩ behind
                  rw [log, unreported, List.append_nil] at hr
                  exact Nat.lt_succ_of_le (earlier r hr)
              | cons response rest =>
                  have whole : feed.log = old ++ response :: rest := by rw [log, unreported]
                  have before : ∀ r ∈ old, r.node.modifiedIndex < τ.index + 1 := fun r hr =>
                    Nat.lt_succ_of_le (earlier r hr)
                  have new : τ.index + 1 ≤ response.node.modifiedIndex :=
                    reports_later τ unseen response (by rw [unreported]; exact List.mem_cons_self)
                  obtain ⟨skipped, c, later, -, remaining, followed⟩ :=
                    keep.respond here waiting whole before new
                  refine ⟨_, _, _, later, _, .respond here waiting whole before new, rfl, id,
                    followed, ?_⟩
                  have most := Feed.work_le
                    { feed with dispatcher := .afterWatch (.response response), wait := none } taken
                  rw [← remaining, List.length_cons]
                  omega

theorem Following.catches_up {σ τ : Records} {seen unseen : List Change} {feed : Feed}
    (following : Following σ seen unseen τ feed) :
    ∃ labels feed', Trace FeedStep feed labels feed' ∧ feed'.CaughtUp ∧ changesOf labels = [] ∧
      ∀ x ∈ labels, ¬x.Interrupts := by
  generalize bound : 4 * (reports τ unseen).length + feed.work = k
  induction k using Nat.strong_induction_on generalizing feed seen unseen τ with
  | _ k ih =>
      by_cases caughtUp : feed.CaughtUp
      · exact ⟨[], feed, .nil, caughtUp, rfl, by simp⟩
      · obtain ⟨x, feed', seen', unseen', τ', step, unchanged, smooth, followed, less⟩ :=
          following.progress caughtUp
        obtain ⟨labels, last, run, done, unchanged', smooth'⟩ := ih _ (bound ▸ less) followed rfl
        refine ⟨x :: labels, last, Trace.append (.snoc .nil step) run, done, ?_, ?_⟩
        · rw [← List.singleton_append, changesOf_append, unchanged, unchanged', List.append_nil]
        · intro y hy
          rcases List.mem_cons.mp hy with rfl | hy
          · exact smooth
          · exact smooth' y hy

/-! ### The order of the responses -/

/-- Responses come in the order of the changes, whatever the watch goes through. -/
structure Ordered (labels : List FeedLabel) (feed : Feed) : Prop where
  increasing : ((responsesOf labels).map fun r => r.node.modifiedIndex).Pairwise (· < ·)
  logged : ∀ r ∈ feed.log, r.node.modifiedIndex ≤ feed.store.index
  past : ∀ r ∈ responsesOf labels, r.node.modifiedIndex ≤ feed.store.index ∧
    ∀ n, feed.position = some n → r.node.modifiedIndex < n
  waits : feed.wait ≠ none → ∃ index, feed.dispatcher = .watching index
  handled : feed.callbacks ++ feed.inHand.filterMap consume =
    (responsesOf labels).filterMap fun r => (makeWatchEvent r).toOption.bind consume

/-- A step that brings no response and keeps what is on its way. -/
theorem Ordered.snoc {labels : List FeedLabel} {feed feed' : Feed} {x : FeedLabel}
    (ordered : Ordered labels feed) (none : responsesOf [x] = [])
    (logged : ∀ r ∈ feed'.log, r.node.modifiedIndex ≤ feed'.store.index)
    (index : feed.store.index ≤ feed'.store.index)
    (position : ∀ n, feed'.position = some n → feed.position = some n ∨ feed.store.index < n)
    (waits : feed'.wait ≠ .none → ∃ index, feed'.dispatcher = .watching index)
    (handled : feed'.callbacks ++ feed'.inHand.filterMap consume =
      feed.callbacks ++ feed.inHand.filterMap consume) : Ordered (labels ++ [x]) feed' := by
  have same : responsesOf (labels ++ [x]) = responsesOf labels := by
    rw [responsesOf_append, none, List.append_nil]
  refine ⟨same ▸ ordered.increasing, logged, fun r hr => ?_, waits, ?_⟩
  · obtain ⟨bound, before⟩ := ordered.past r (same ▸ hr)
    refine ⟨bound.trans index, fun n at_n => ?_⟩
    rcases position n at_n with at_n | late
    · exact before n at_n
    · exact Nat.lt_of_le_of_lt bound late
  · rw [handled, same, ordered.handled]

theorem Ordered.respond {labels : List FeedLabel} {feed : Feed} {index n : Nat}
    {past rest : List Response} {response : Response} (ordered : Ordered labels feed)
    (here : feed.dispatcher = .watching index) (waits : feed.wait = some n)
    (whole : feed.log = past ++ response :: rest) (new : n ≤ response.node.modifiedIndex) :
    Ordered (labels ++ [.watchReturns (.response response)])
      { feed with dispatcher := .afterWatch (.response response), wait := none } := by
  have responses : responsesOf (labels ++ [.watchReturns (.response response)]) =
      responsesOf labels ++ [response] := responsesOf_append _ _
  have before (r : Response) (hr : r ∈ responsesOf labels) :
      r.node.modifiedIndex < response.node.modifiedIndex :=
    Nat.lt_of_lt_of_le ((ordered.past r hr).2 n (Feed.position_waiting here waits)) new
  have bound := ordered.logged response (by rw [whole]; simp)
  refine ⟨?_, ordered.logged, fun r hr => ?_, by simp, ?_⟩
  · rw [responses, List.map_append, List.pairwise_append]
    refine ⟨ordered.increasing, List.pairwise_singleton _ _, ?_⟩
    simpa using before
  · rw [responses] at hr
    have le : r.node.modifiedIndex ≤ response.node.modifiedIndex := by
      rcases List.mem_append.mp hr with hr | hr
      · exact Nat.le_of_lt (before r hr)
      · rw [List.mem_singleton.mp hr]
    refine ⟨Nat.le_trans le bound, fun m at_m => ?_⟩
    cases made : makeWatchEvent response with
    | error => simp [Feed.position, Dispatcher.afterWatch, made] at at_m
    | ok event =>
        simp only [Feed.position, Dispatcher.afterWatch, made, Option.some.injEq] at at_m
        omega
  · have handled := ordered.handled
    rw [Feed.inHand_watching here] at handled
    rw [responses, List.filterMap_append, ← handled, Feed.inHand]
    cases made : makeWatchEvent response with
    | error => simp [Dispatcher.afterWatch, made, Except.toOption]
    | ok event => simp [Dispatcher.afterWatch, made, Except.toOption, List.filterMap_cons]

theorem Ordered.step {labels : List FeedLabel} {feed feed' : Feed} {x : FeedLabel}
    (ordered : Ordered labels feed) (step : FeedStep feed x feed') : Ordered (labels ++ [x]) feed' := by
  cases step with
  | @change c possible =>
      refine ordered.snoc rfl (fun r hr => ?_) ?_ (fun n at_n => .inl at_n) ordered.waits rfl
      · rw [Change.apply_index]
        rcases List.mem_append.mp hr with hr | hr
        · exact Nat.le_succ_of_le (ordered.logged r hr)
        · split at hr
          · rw [List.mem_singleton.mp hr, Change.response_modifiedIndex]
          · cases hr
      · rw [Change.apply_index]
        exact Nat.le_succ _
  | @arrive index here idle =>
      refine ordered.snoc rfl ordered.logged le_rfl (fun n at_n => ?_) (fun _ => ⟨index, here⟩) rfl
      by_cases zero : index = 0
      · simp only [Feed.position, here, zero, if_true, Option.some.injEq] at at_n
        exact .inr (by omega)
      · simp only [Feed.position, here, zero, if_false, Option.getD_some, Option.some.injEq] at at_n
        subst at_n
        exact .inl (by simp [Feed.position, here, idle, zero])
  | respond here waits whole _ new => exact ordered.respond here waits whole new
  | @interrupt index result here interrupts =>
      refine ordered.snoc ?_ ordered.logged le_rfl (fun n at_n => ?_) (by simp) ?_
      · cases result <;> first | rfl | exact interrupts.elim
      · cases result <;> simp_all [Feed.position, Dispatcher.afterWatch, WatchResult.Interrupts]
      · rw [Feed.inHand_watching here, Feed.inHand]
        cases result <;> simp_all [Dispatcher.afterWatch, WatchResult.Interrupts]
  | @receive event index here free =>
      have idle := Feed.idle_of_sending ordered.waits here
      refine ordered.snoc rfl ordered.logged le_rfl (fun n at_n => .inl ?_) (by simp [idle]) ?_
      · rw [Feed.position, here]
        by_cases zero : index = 0 <;> simp_all [Feed.position]
      · simp [Feed.inHand, here, free]
  | @invoke event taken =>
      refine ordered.snoc rfl ordered.logged le_rfl (fun n at_n => .inl at_n) ordered.waits ?_
      cases called : consume event <;> simp [Feed.inHand, taken, called]

theorem ordered_run {σ : Records} {labels : List FeedLabel} {feed : Feed}
    (run : Trace FeedStep (Feed.start σ) labels feed) : Ordered labels feed :=
  run.history (J := Ordered)
    ⟨.nil, by simp [Feed.start], by simp [responsesOf], by simp [Feed.start], rfl⟩
    fun _ _ _ _ _ ordered step => ordered.step step

/-! ### Replaying the watch -/

/-- An initial part of the callbacks comes from an initial part of the history. -/
theorem Expect.initial {σ τ : Records} {changes : List Change} {all l m : List Callback}
    (expect : Expect σ changes τ all) (whole : all = l ++ m) :
    ∃ first rest τ', changes = first ++ rest ∧ Expect σ first τ' l := by
  induction expect generalizing m with
  | nil =>
      obtain ⟨rfl, rfl⟩ := List.append_eq_nil_iff.mp whole.symm
      exact ⟨[], [], σ, rfl, .nil⟩
  | @snoc changes τ callbacks c callback past possible now ih =>
      rcases List.eq_nil_or_concat m with rfl | ⟨m', last, rfl⟩
      · rw [List.append_nil] at whole
        subst whole
        exact ⟨changes ++ [c], [], _, (List.append_nil _).symm, .snoc past possible now⟩
      · have shorter : ∃ m'', callbacks = l ++ m'' := by
          cases callback with
          | none => exact ⟨_, by simpa using whole⟩
          | some callback =>
              rw [List.concat_eq_append, ← List.append_assoc, Option.toList_some] at whole
              exact ⟨m', (List.append_inj' whole rfl).1⟩
        obtain ⟨m'', shorter⟩ := shorter
        obtain ⟨first, rest, τ', rfl, initial⟩ := ih shorter
        exact ⟨first, rest ++ [c], τ', by simp, initial⟩

/-- **Replaying the watch reproduces the store.** Let etcd start with valid records in
their places and write nothing else under the root. From the first call of `Watch` on,
as long as there is no watch error, the callbacks invoked so far are those that some
initial part of the history ought to lead to, so that replaying them gives the contents
after that part; the watch can always catch up, and once it has, nothing under the root
is missing. Whatever errors there are, the indexes of the changes that are delivered
increase, and every callback comes from one of these. -/
theorem watch_replays_store {σ : Records} {labels : List FeedLabel} {feed : Feed} (sound : Sound σ)
    (run : Trace FeedStep (Feed.start σ) labels feed)
    (record : ∀ c, .change c ∈ labels → c.OfRecord) :
    (∀ l m, labels = l ++ .arrive :: m → .arrive ∉ l → (∀ x ∈ m, ¬x.Interrupts) →
      ∃ seen unseen τ, changesOf m = seen ++ unseen ∧
        Expect (applyAll σ (changesOf l)) seen τ feed.callbacks ∧
        feed.callbacks.foldl View.replay (contents (applyAll σ (changesOf l))) = contents τ ∧
        (feed.CaughtUp → (∀ c ∈ unseen, watched c.path = false) ∧ contents τ = contents feed.store) ∧
        ∃ labels' feed', Trace FeedStep feed labels' feed' ∧ feed'.CaughtUp ∧
          changesOf labels' = [] ∧ ∀ x ∈ labels', ¬x.Interrupts) ∧
      ((responsesOf labels).map fun r => r.node.modifiedIndex).Pairwise (· < ·) ∧
      ∃ pending, feed.callbacks ++ pending =
        (responsesOf labels).filterMap fun r => (makeWatchEvent r).toOption.bind consume := by
  have ordered := ordered_run run
  refine ⟨?_, ordered.increasing, _, ordered.handled⟩
  rintro l m rfl first smooth
  obtain ⟨before, after, past, arrive, rest⟩ := run.around
  have fresh := fresh_run sound past (fun c hc => record c (by simp [hc])) first
  obtain ⟨seen, unseen, τ, split, following⟩ :=
    (fresh.arrive arrive).run rest (fun c hc => record c (by simp [hc])) smooth
  rw [List.nil_append, List.nil_append] at split
  have catchesUp := following.catches_up
  by_cases caughtUp : feed.CaughtUp
  · obtain ⟨none, elsewhere, same⟩ := following.caughtUp caughtUp
    have expect := following.expect
    rw [none, List.filterMap_nil, List.append_nil] at expect
    exact ⟨seen, unseen, τ, split, expect, expect.replay, fun _ => ⟨elsewhere, same⟩, catchesUp⟩
  · obtain ⟨seen', rest', τ', rfl, expect⟩ := following.expect.initial rfl
    exact ⟨seen', rest' ++ unseen, τ', by rw [split, List.append_assoc], expect, expect.replay,
      fun h => absurd h caughtUp, catchesUp⟩

/-! ### One record is created -/

def sampleSlot : Slot :=
  ⟨"process", 0, false, by decide⟩

def sampleLRP : ActualLRP where
  key := ⟨"process", 0, "domain"⟩
  instanceKey := ⟨"", ""⟩
  netInfo := emptyActualLRPNetInfo
  crashCount := 0
  crashReason := ""
  state := .unclaimed
  placementError := ""
  since := 1
  modificationTag := ⟨"epoch", 0⟩

theorem sampleLRP_decodes : ActualLRP.fromJSON (some sampleLRP.marshal) = some sampleLRP :=
  ActualLRP.fromJSON_eq_some.mpr ⟨_, rfl, ActualLRP.unmarshal_marshal _, by decide⟩

def sampleChange : Change :=
  .put .create sampleSlot.path sampleLRP.marshal

def sampleFeed : List FeedLabel :=
  [.arrive, .change sampleChange, .watchReturns (.response (sampleChange.response .empty)), .receive,
    .arrive, .invoke (some (.created (sampleSlot.group sampleLRP)))]

/-- The event that the creation of the sample record leads to. -/
def sampleEvent : WatchEvent :=
  ⟨.createEvent, some ⟨sampleSlot.path, some sampleLRP.marshal, false, 1, []⟩, none⟩

theorem consume_sampleEvent :
    consume sampleEvent = some (.created (sampleSlot.group sampleLRP)) := by
  have evacuating : isEvacuatingActualLRPNode
      ⟨sampleSlot.path, some sampleLRP.marshal, false, 1, []⟩ = sampleSlot.evacuating :=
    Slot.isEvacuating_path rfl
  simp only [consume, sampleEvent, sampleLRP_decodes, evacuating, Option.map_some, Slot.group]

/-- The feed of the sample, given what the two goroutines are at. -/
def sampleState (dispatcher : Dispatcher) (wait : Option Nat) (consumer : Option WatchEvent)
    (callbacks : List Callback) : Feed :=
  ⟨sampleChange.apply .empty, [sampleChange.response .empty], dispatcher, wait, consumer, callbacks⟩

theorem sampleFeed_runs : Trace FeedStep (Feed.start .empty) sampleFeed
    (sampleState (.watching 2) (some 2) none [.created (sampleSlot.group sampleLRP)]) := by
  have arrive := @FeedStep.arrive (Feed.start .empty) 0 rfl rfl
  have change := @FeedStep.change ⟨.empty, [], .watching 0, some 1, none, []⟩ sampleChange rfl
  rw [show watched sampleChange.path = true from sampleSlot.watched_path, if_pos rfl] at change
  have respond := @FeedStep.respond (sampleState (.watching 0) (some 1) none []) 0 1 [] [] _
    rfl rfl rfl (by simp) le_rfl
  have receive := @FeedStep.receive (sampleState (.sending sampleEvent 2) none none []) _ _ rfl rfl
  have again := @FeedStep.arrive (sampleState (.watching 2) none (some sampleEvent) []) 2 rfl rfl
  have invoke := @FeedStep.invoke (sampleState (.watching 2) (some 2) (some sampleEvent) []) _ rfl
  simp only [consume_sampleEvent] at invoke
  exact (((((Trace.nil.snoc arrive).snoc change).snoc respond).snoc receive).snoc again).snoc invoke

theorem watch_replays_store_sampleFeed : ∃ feed, Trace FeedStep (Feed.start .empty) sampleFeed feed ∧
    feed.callbacks = [.created (sampleSlot.group sampleLRP)] ∧
      feed.callbacks.foldl View.replay (contents .empty) = contents feed.store := by
  refine ⟨_, sampleFeed_runs, rfl, ?_⟩
  have sound : Sound .empty := by
    intro path node _ found
    cases found
  have record (c : Change) (among : FeedLabel.change c ∈ sampleFeed) : c.OfRecord := by
    have this : c = sampleChange := by simpa [sampleFeed] using among
    rw [this]
    exact fun _ => ⟨sampleSlot, sampleLRP, rfl, sampleLRP_decodes, rfl, rfl⟩
  have smooth : ∀ x ∈ sampleFeed.tail, ¬x.Interrupts := by
    simp [sampleFeed, FeedLabel.Interrupts, WatchResult.Interrupts]
  obtain ⟨seen, unseen, τ, -, -, replayed, same, -⟩ :=
    (watch_replays_store sound sampleFeed_runs record).1 [] sampleFeed.tail rfl (by simp) smooth
  have caughtUp : (sampleState (.watching 2) (some 2) none
      [.created (sampleSlot.group sampleLRP)]).CaughtUp := by
    refine ⟨rfl, 2, 2, rfl, rfl, fun r hr => ?_⟩
    rw [List.mem_singleton.mp hr, Change.response_modifiedIndex]
    exact Nat.lt_succ_self 1
  exact replayed.trans (same caughtUp).2

end Bbs.Watch
