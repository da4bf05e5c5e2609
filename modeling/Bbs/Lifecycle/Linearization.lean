import Bbs.Lifecycle.Serial

/-!
Conditional writers do not lose updates.

On one slot, and as long as no start finds the slot empty and no crash has to
clean up, an interleaved run leaves the same stores behind as its successful
requests served one at a time. The order is that of their *commits*: the
conditional write or delete of a request, or its read if it succeeds without one.
A conditional write replaces the very node that was read (`Served.version_seen`),
so at its commit a request could just as well have started over and read again.
-/

namespace Bbs.Lifecycle

open Bbs.Interaction Bbs.Versioned Bbs.Models Bbs.Etcd

variable {D ι : Type} [DecidableEq ι]

/-! ### The shape of successful requests -/

/-- An exchange that no store has a say in. -/
def Free (x : Exchange (Call D) Answer) : Prop :=
  effect x = none ∧ (∀ σ, Allowed σ x.call x.answer) ∧ ∀ path, x.call ≠ .get path

/-- A change that was conditional on a version. -/
inductive Conditional (version : Nat) : Exchange (Call D) Answer → Prop where
  | swap (path : String) (new : ActualLRP) : Conditional version (swapped path new version)
  | remove (path : String) : Conditional version (removed path version)

theorem Conditional.effect {version : Nat} {x : Exchange (Call D) Answer}
    (h : Conditional version x) : ∃ made, Etcd.effect x = some made ∧
      ∀ σ, Allowed σ x.call x.answer → HoldsVersion σ made.path version := by
  cases h with
  | swap path new => exact ⟨.put path new.marshal, rfl, fun σ h => h⟩
  | remove path => exact ⟨.drop path, rfl, fun σ h => h⟩

/-- How a request succeeds that neither creates nor cleans up: it reads the node,
and then it either changes it conditionally, looking up at most the desired LRP
afterwards, or does nothing to the store. -/
inductive Commits (path desired : String) : List (Exchange (Call D) Answer) → Prop where
  | write {node : Node Json} {middle tail : List (Exchange (Call D) Answer)}
      {x : Exchange (Call D) Answer} (free : ∀ y ∈ middle, Free y)
      (conditional : Conditional node.modifiedIndex x)
      (rest : ∀ y ∈ tail, Free y ∨ ∃ answer, y = ⟨.get desired, answer⟩) :
      Commits path desired (got path node :: (middle ++ x :: tail))
  | read {node : Node Json} {tail : List (Exchange (Call D) Answer)} (free : ∀ y ∈ tail, Free y) :
      Commits path desired (got path node :: tail)

/-- Neither a start that found nothing nor a crash that found no desired LRP. -/
def Found (request : Request) (path desired : String) (x : Exchange (Call D) Answer) : Prop :=
  ∀ e : EtcdError, e.code = etcdErrKeyNotFound →
    ((∃ r, request = .start r) → x ≠ ⟨.get path, .error e⟩) ∧
      ((∃ r, request = .crash r) → x ≠ ⟨.get desired, .error e⟩)

theorem free_of_node {x : Exchange (Call D) Answer} (none : x.call.node = none) : Free x := by
  rcases x with ⟨c, answer⟩
  cases c with
  | get | compareAndSwap | set | compareAndDelete | delete => cases none
  | now | newV4 | cellById | stopLRPInstance | requestLRPAuctions =>
      exact ⟨rfl, fun σ => trivial, by simp⟩

theorem Auction.rest {fromJSON : Json → Option D} {key : ActualLRPKey}
    {l : List (Exchange (Call D) Answer)} (auction : Auction fromJSON key l)
    (found : ∀ e : EtcdError, e.code = etcdErrKeyNotFound →
      ∀ x ∈ l, x ≠ ⟨.get (desiredLRPSchemaPathByProcessGuid key.processGuid), .error e⟩) :
    ∀ y ∈ l, Free y ∨
      ∃ answer, y = ⟨.get (desiredLRPSchemaPathByProcessGuid key.processGuid), answer⟩ := by
  intro y hy
  cases auction with
  | unread =>
      rw [List.mem_singleton.mp hy]
      exact .inr ⟨_, rfl⟩
  | requested =>
      simp only [List.mem_cons, List.not_mem_nil, or_false] at hy
      rcases hy with rfl | rfl
      · exact .inr ⟨_, rfl⟩
      · exact .inl (free_of_node rfl)
  | undeleted missing => exact absurd rfl (found _ missing _ List.mem_cons_self)
  | deleted missing => exact absurd rfl (found _ missing _ List.mem_cons_self)

theorem Success.commits {fromJSON : Json → Option D} {request : Request}
    {l : List (Exchange (Call D) Answer)} {value : Option ActualLRP} {guid : String} {index : Int32}
    (success : Success fromJSON request l value) (slot : request.slot = some (guid, index))
    (found : ∀ x ∈ l, Found request (actualLRPSchemaPath guid index)
      (desiredLRPSchemaPathByProcessGuid guid) x) :
    Commits (actualLRPSchemaPath guid index) (desiredLRPSchemaPathByProcessGuid guid) l := by
  have path_eq {path : String} (named : request.path = some path) :
      path = actualLRPSchemaPath guid index := by
    simpa [Request.path, slot, eq_comm] using named
  cases success with
  | @swap _ path node lrp new clocks tail named decoded update closing =>
      obtain rfl := path_eq named
      have rest : ∀ y ∈ tail, Free y ∨
          ∃ answer, y = ⟨.get (desiredLRPSchemaPathByProcessGuid guid), answer⟩ := by
        cases request with
        | crash r =>
            simp only [Closing] at closing
            split at closing
            · obtain ⟨key, hkey, auction⟩ := closing
              simp only [Request.slot, hkey, Option.map_some, Option.some.injEq,
                Prod.mk.injEq] at slot
              obtain ⟨rfl, rfl⟩ := slot
              refine Auction.rest auction fun e missing x hx => ?_
              exact ((found x (by simp [hx])) e missing).2 ⟨r, rfl⟩
            · subst closing
              simp
        | claim | start | fail | remove | retire =>
            simp only [Closing] at closing
            subst closing
            simp
      refine .write (fun y hy => ?_) (.swap _ _) rest
      obtain ⟨now, -, rfl⟩ := List.mem_map.mp hy
      exact free_of_node rfl
  | create missing =>
      cases slot
      exact absurd rfl ((found _ List.mem_cons_self _ missing).1 ⟨_, rfl⟩)
  | keep named decoded same =>
      obtain rfl := path_eq named
      exact .read (by simp)
  | remove named decoded removal =>
      obtain rfl := path_eq named
      refine .write (fun y hy => ?_) (.remove _) (by simp)
      cases removal with
      | lost held =>
          rw [List.mem_singleton.mp hy]
          exact free_of_node rfl
      | asked => cases hy
      | unheld => cases hy
  | stop named decoded held =>
      obtain rfl := path_eq named
      refine .read fun y hy => ?_
      simp only [List.mem_cons, List.not_mem_nil, or_false] at hy
      rcases hy with rfl | rfl <;> exact free_of_node rfl

/-! ### Touching a node -/

/-- The exchange reads the node at `path` or changes the store. -/
def touches (path : String) (x : Exchange (Call D) Answer) : Bool :=
  (effect x).isSome || (match x.call with
    | .get path' => path' = path
    | _ => false)

theorem touches_got (path : String) (node : Node Json) :
    touches path (got path node : Exchange (Call D) Answer) = true := by
  simp [touches]

theorem touches_of_effect {path : String} {x : Exchange (Call D) Answer} {made : Effect}
    (h : effect x = some made) : touches path x = true := by
  simp [touches, h]

theorem Free.untouched {path : String} {x : Exchange (Call D) Answer} (h : Free x) :
    touches path x = false := by
  obtain ⟨quiet, -, other⟩ := h
  rcases x with ⟨c, answer⟩
  cases c with
  | get path' => exact absurd rfl (other path')
  | _ => simp [touches, quiet]

theorem untouched_get {path path' : String} (ne : path' ≠ path)
    (answer : Answer (.get path' : Call D)) : touches path ⟨.get path', answer⟩ = false := by
  simp [touches, effect, ne]

/-- Two ways to single out the last element with a property agree. -/
theorem split_last {α : Type} {p : α → Bool} {a b c d : List α} {x y : α}
    (same : a ++ x :: b = c ++ y :: d) (hx : p x = true) (hy : p y = true)
    (hb : ∀ z ∈ b, p z = false) (hd : ∀ z ∈ d, p z = false) : a = c ∧ x = y ∧ b = d := by
  rcases List.append_eq_append_iff.mp same with ⟨r, rfl, h⟩ | ⟨r, rfl, h⟩
  · cases r with
    | nil =>
        obtain ⟨rfl, rfl⟩ := List.cons.inj h
        exact ⟨by simp, rfl, rfl⟩
    | cons z r =>
        obtain ⟨rfl, rfl⟩ := List.cons.inj h
        rw [hb y (by simp)] at hy
        cases hy
  · cases r with
    | nil =>
        obtain ⟨rfl, rfl⟩ := List.cons.inj h
        exact ⟨by simp, rfl, rfl⟩
    | cons z r =>
        obtain ⟨rfl, rfl⟩ := List.cons.inj h
        rw [hd x (by simp)] at hx
        cases hx

theorem allowed_get_congr {σ τ : Records} {path : String} (same : σ.nodes path = τ.nodes path)
    {answer : Answer (.get path : Call D)} (h : Allowed σ (.get path) answer) :
    Allowed τ (.get path) answer := by
  rcases answer with e | found
  · exact fun code => same.symm.trans (h code)
  · cases found with
    | leaf node => exact same.symm.trans h
    | directory => exact same.symm.trans h

/-! ### Replaying a request at its commit -/

/-- All requests are on one slot, no start finds it empty, and no crash fails to find
the desired LRP. -/
structure Contended (requests : ι → Request) (guid : String) (index : Int32)
    (events : List (StoreEvent D ι)) : Prop where
  slot : ∀ t, (requests t).slot = some (guid, index)
  found : ∀ e ∈ events, Found (requests e.thread) (actualLRPSchemaPath guid index)
    (desiredLRPSchemaPathByProcessGuid guid) e.exchange

section Served

variable {fromJSON : Json → Option D} {requests : ι → Request} {σ σ' : Records}
  {events l m : List (StoreEvent D ι)} {e : StoreEvent D ι} {pool : ι → Operation D Reply}
  {guid : String} {index : Int32} {value : Option ActualLRP}

theorem Served.commits (run : Served fromJSON requests σ events σ' pool)
    (contended : Contended requests guid index events) {t : ι}
    (returned : pool t = .ret (.ok value)) :
    ∃ before last, playOf t events = before ++ last ∧ Quiet before ∧
      Commits (actualLRPSchemaPath guid index) (desiredLRPSchemaPathByProcessGuid guid) last ∧
        Returns ((requests t).program fromJSON) last (.ok value) := by
  have returns := run.plays t
  rw [returned] at returns
  obtain ⟨before, last, whole, quiet, -, success⟩ := Request.returns_ok returns
  refine ⟨before, last, whole, quiet, Success.commits success (contended.slot t) ?_,
    success.returns⟩
  intro x hx
  have mem : x ∈ playOf t events := by rw [whole]; exact List.mem_append_right _ hx
  obtain ⟨e, he, rfl, rfl⟩ := mem_playOf.mp mem
  exact contended.found e he

theorem Commits.untouched {path desired : String} (ne : desired ≠ path)
    {tail : List (Exchange (Call D) Answer)}
    (rest : ∀ y ∈ tail, Free y ∨ ∃ answer, y = ⟨.get desired, answer⟩) :
    ∀ y ∈ tail, touches path y = false := by
  intro y hy
  rcases rest y hy with free | ⟨answer, rfl⟩
  · exact free.untouched
  · exact untouched_get ne answer

theorem playOf_cut : playOf e.thread (l ++ e :: m) =
    playOf e.thread l ++ e.exchange :: playOf e.thread m := by
  rw [playOf_append, playOf_cons_of_eq rfl]

/-- Once a request on the slot has changed the store it does not touch it again. -/
theorem Served.untouched_after (run : Served fromJSON requests σ (l ++ e :: m) σ' pool)
    (contended : Contended requests guid index (l ++ e :: m))
    (returned : pool e.thread = .ret (.ok value)) {made : Effect}
    (changes : effect e.exchange = some made) :
    ∀ x ∈ playOf e.thread m, touches (actualLRPSchemaPath guid index) x = false := by
  obtain ⟨before, last, whole, quiet, commits, -⟩ := run.commits contended returned
  rw [playOf_cut] at whole
  obtain ⟨a, -, hlast⟩ := change_after quiet whole.symm changes
  cases commits with
  | @write node middle tail x free conditional rest =>
      have quiet' : Quiet (got (actualLRPSchemaPath guid index) node :: middle) :=
        quiet_cons.mpr ⟨rfl, fun y hy => (free y hy).1⟩
      have untouched := Commits.untouched (desired_ne_instance guid index) rest
      obtain ⟨a', -, h⟩ := change_after quiet' hlast changes
      cases a' with
      | nil =>
          obtain ⟨-, rfl⟩ := List.cons.inj h
          exact untouched
      | cons y a' =>
          obtain ⟨-, htail⟩ := List.cons.inj h
          have := untouched e.exchange (htail ▸ List.mem_append_right a' List.mem_cons_self)
          rw [touches_of_effect changes] at this
          cases this
  | @read node tail free =>
      have quiet' : Quiet (got (actualLRPSchemaPath guid index) node :: tail) :=
        quiet_cons.mpr ⟨rfl, fun y hy => (free y hy).1⟩
      have mem : e.exchange ∈ got (actualLRPSchemaPath guid index) node :: tail := by
        rw [hlast]; simp
      rw [quiet' _ mem] at changes
      cases changes

/-- What a thread has asked after an event was answered by a later store. -/
theorem Served.read_after (run : Served fromJSON requests σ (l ++ e :: m) σ' pool) {t : ι}
    {x : Exchange (Call D) Answer} (hx : x ∈ playOf t m) :
    ∃ e' ∈ m, Allowed e'.before x.call x.answer := by
  obtain ⟨e', he', -, rfl⟩ := mem_playOf.mp hx
  exact ⟨e', he', (run.allowed e' (by simp [he'])).1⟩

omit [DecidableEq ι] in
theorem Contended.path (contended : Contended requests guid index events) (t : ι) :
    (requests t).path = some (actualLRPSchemaPath guid index) := by
  simp [Request.path, contended.slot t]

/-- The desired LRP does not change while requests contend for a slot. -/
theorem Served.desired_constant (run : Served fromJSON requests σ (l ++ e :: m) σ' pool)
    (contended : Contended requests guid index (l ++ e :: m)) {e' : StoreEvent D ι} (h : e' ∈ m) :
    e'.before.nodes (desiredLRPSchemaPathByProcessGuid guid) =
      e.after.nodes (desiredLRPSchemaPathByProcessGuid guid) := by
  obtain ⟨constant, -⟩ := run.other_paths fun t same =>
    desired_ne_instance guid index (Option.some.inj (same.symm.trans (contended.path t)))
  rw [(constant e' (by simp [h])).1, (constant e (by simp)).2]

/-- **Replay.** At its last touch a successful request could as well have been
served without interruption, with the answers it got. -/
theorem Served.replay (run : Served fromJSON requests σ (l ++ e :: m) σ' pool)
    (contended : Contended requests guid index (l ++ e :: m))
    (returned : pool e.thread = .ret (.ok value))
    (touch : touches (actualLRPSchemaPath guid index) e.exchange = true)
    (lastTouch : ∀ x ∈ playOf e.thread m, touches (actualLRPSchemaPath guid index) x = false) :
    ∃ last, last <:+ playOf e.thread (l ++ e :: m) ∧
      Executes etcd e.before ((requests e.thread).program fromJSON) last e.after (.ok value) ∧
        last.any (fun x => (effect x).isSome) = (effect e.exchange).isSome := by
  obtain ⟨before, last, whole, -, commits, again⟩ := run.commits contended returned
  have step := run.allowed e (by simp)
  have cut := whole
  rw [playOf_cut] at cut
  cases commits with
  | @write node middle tail x free conditional rest =>
      obtain ⟨made, changes, holds⟩ := conditional.effect
      rw [← List.cons_append, ← List.append_assoc] at cut
      obtain ⟨hl, rfl, hm⟩ := split_last cut touch (touches_of_effect changes) lastTouch
        (Commits.untouched (desired_ne_instance guid index) rest)
      -- the version named by the write is that of the node read, which is therefore still there
      have seen : got (actualLRPSchemaPath guid index) node ∈ playOf e.thread l := by
        rw [hl]; simp
      obtain ⟨-, found⟩ := run.version_seen seen (holds e.before step.1)
      have here : Traverses etcd e.before middle e.before :=
        traverses_of_quiet (fun y hy => (free y hy).1) fun y hy => (free y hy).2.1 e.before
      have after : Traverses etcd e.after tail e.after := by
        refine traverses_of_quiet (fun y hy => ?_) fun y hy => ?_
        · rcases rest y hy with free | ⟨answer, rfl⟩
          · exact free.1
          · rfl
        · rcases rest y hy with free | ⟨answer, rfl⟩
          · exact free.2.1 e.after
          · obtain ⟨e', he', hread⟩ := run.read_after (hm ▸ hy)
            exact allowed_get_congr (run.desired_constant contended he') hread
      refine ⟨_, ⟨before, whole.symm⟩, ⟨again, ?_⟩, ?_⟩
      · exact .cons ⟨found, rfl⟩ (Traverses.append_iff.mpr ⟨_, here, .cons step after⟩)
      · simp [changes]
  | @read node tail free =>
      have untouched : ∀ y ∈ tail, touches (actualLRPSchemaPath guid index) y = false :=
        fun y hy => (free y hy).untouched
      obtain ⟨-, read, -⟩ := split_last cut touch (touches_got _ _) lastTouch untouched
      obtain ⟨found, same⟩ := nodes_of_got step read
      have quiet : ∀ y ∈ tail, effect y = none := fun y hy => (free y hy).1
      refine ⟨_, ⟨before, whole.symm⟩, ⟨again, ?_⟩, ?_⟩
      · rw [same]
        refine .cons ⟨found, rfl⟩ (traverses_of_quiet quiet ?_)
        exact fun y hy => (free y hy).2.1 e.before
      · rw [read, List.any_cons, List.any_eq_false.mpr fun y hy => by simp [quiet y hy]]
        rfl

/-! ### The order of commits -/

/-- The operation has returned without an error. -/
def succeeded : Operation D Reply → Bool
  | .ret (.ok _) => true
  | _ => false

theorem succeeded_iff {p : Operation D Reply} :
    succeeded p = true ↔ ∃ value, p = .ret (.ok value) := by
  constructor
  · intro h
    unfold succeeded at h
    split at h
    · exact ⟨_, rfl⟩
    · cases h
  · rintro ⟨value, rfl⟩
    rfl

/-- The event is the last touch of a request that succeeds: its conditional write or
delete, or its read if it makes none. -/
def isCommit (path : String) (pool : ι → Operation D Reply) (e : StoreEvent D ι)
    (rest : List (StoreEvent D ι)) : Bool :=
  succeeded (pool e.thread) && touches path e.exchange &&
    (playOf e.thread rest).all fun x => !touches path x

/-- The successful threads in the order of their commits. -/
def commitOrder (path : String) (pool : ι → Operation D Reply) : List (StoreEvent D ι) → List ι
  | [] => []
  | e :: rest =>
      if isCommit path pool e rest then e.thread :: commitOrder path pool rest
      else commitOrder path pool rest

theorem isCommit_iff {path : String} :
    isCommit path pool e l = true ↔ (∃ value, pool e.thread = .ret (.ok value)) ∧
      touches path e.exchange = true ∧ ∀ x ∈ playOf e.thread l, touches path x = false := by
  simp [isCommit, succeeded_iff, and_assoc]

/-- A thread is in the order of commits iff it succeeded and touched the node. -/
theorem mem_commitOrder {path : String} {t : ι} :
    t ∈ commitOrder path pool events ↔ (∃ value, pool t = .ret (.ok value)) ∧
      ∃ x ∈ playOf t events, touches path x = true := by
  induction events with
  | nil => simp [commitOrder, playOf, ofThread]
  | cons e rest ih =>
      by_cases own : e.thread = t
      · subst own
        rw [playOf_cons_of_eq rfl, commitOrder]
        by_cases commit : isCommit path pool e rest = true
        · obtain ⟨success, touch, -⟩ := isCommit_iff.mp commit
          rw [if_pos commit]
          exact iff_of_true List.mem_cons_self ⟨success, _, List.mem_cons_self, touch⟩
        · rw [if_neg commit, ih]
          constructor
          · rintro ⟨success, x, hx, touch⟩
            exact ⟨success, x, List.mem_cons_of_mem _ hx, touch⟩
          · rintro ⟨success, x, hx, touch⟩
            refine ⟨success, ?_⟩
            by_contra none
            push Not at none
            -- without a later touch the event itself would be the commit
            refine commit (isCommit_iff.mpr ⟨success, ?_, fun y hy => by simpa using none y hy⟩)
            rcases List.mem_cons.mp hx with rfl | hx
            · exact touch
            · exact absurd touch (none x hx)
      · rw [playOf_cons_of_ne own, ← ih, commitOrder]
        split
        · simp [Ne.symm own]
        · rfl

theorem nodup_commitOrder (path : String) : (commitOrder path pool events).Nodup := by
  induction events with
  | nil => exact .nil
  | cons e rest ih =>
      rw [commitOrder]
      split
      · rename_i commit
        obtain ⟨-, -, untouched⟩ := isCommit_iff.mp commit
        refine List.nodup_cons.mpr ⟨fun again => ?_, ih⟩
        obtain ⟨-, x, hx, touch⟩ := mem_commitOrder.mp again
        rw [untouched x hx] at touch
        cases touch
      · exact ih

/-! ### Serialization -/

/-- The stores an interleaved run goes through, one for each change. -/
def storesOf (events : List (StoreEvent D ι)) : List Records :=
  (events.filter fun e => (effect e.exchange).isSome).map Event.after

def Turn.changes (u : Turn D) : Bool :=
  u.exchanges.any fun x => (effect x).isSome

/-- The stores a serial run goes through, one for each turn that changes anything. -/
def storesOfTurns (turns : List (Turn D)) : List Records :=
  (turns.filter Turn.changes).map Turn.after

/-- A request that changes the store commits by doing so. -/
theorem Served.isCommit_of_effect (run : Served fromJSON requests σ (l ++ e :: m) σ' pool)
    (contended : Contended requests guid index (l ++ e :: m)) {reply : Reply}
    (returned : pool e.thread = .ret reply) {made : Effect}
    (changes : effect e.exchange = some made) :
    isCommit (actualLRPSchemaPath guid index) pool e m = true := by
  cases reply with
  | error failure =>
      have returns := run.plays e.thread
      rw [returned] at returns
      have quiet := Request.returns_error returns
      rw [quiet e.exchange (mem_playOf.mpr ⟨e, by simp, rfl, rfl⟩)] at changes
      cases changes
  | ok value =>
      exact isCommit_iff.mpr ⟨⟨value, returned⟩, touches_of_effect changes,
        run.untouched_after contended returned changes⟩

/-- From any point of a run on, the requests that still commit, served one at a time
in that order, lead to the same stores. -/
theorem Served.serialize (run : Served fromJSON requests σ events σ' pool)
    (contended : Contended requests guid index events)
    (settled : ∀ e ∈ events, effect e.exchange ≠ none → ∃ reply, pool e.thread = .ret reply)
    {middle : Records} (whole : events = l ++ m) (linked : Linked middle m σ') :
    ∃ turns, Serial fromJSON middle turns σ' ∧
      List.Forall₂ (fun t u => u.request = requests t ∧ pool t = .ret u.reply ∧
          u.exchanges <:+ playOf t events)
        (commitOrder (actualLRPSchemaPath guid index) pool m) turns ∧
      storesOfTurns turns = storesOf m := by
  induction m generalizing l middle with
  | nil =>
      cases linked
      exact ⟨[], .nil _, .nil, rfl⟩
  | cons e m ih =>
      obtain ⟨rfl, linked⟩ := linked
      obtain ⟨turns, serial, pairs, stores⟩ := ih (l := l ++ [e]) (by simp [whole]) linked
      by_cases commit : isCommit (actualLRPSchemaPath guid index) pool e m = true
      · -- the request is replayed in the store it commits in
        obtain ⟨⟨value, returned⟩, touch, lastTouch⟩ := isCommit_iff.mp commit
        subst whole
        obtain ⟨last, suffix, executed, changed⟩ := run.replay contended returned touch lastTouch
        let u : Turn D := ⟨requests e.thread, e.before, last, .ok value, e.after⟩
        refine ⟨u :: turns, .cons (u := u) executed serial, ?_, ?_⟩
        · rw [commitOrder, if_pos commit]
          exact .cons ⟨rfl, returned, suffix⟩ pairs
        · have same : u.changes = (effect e.exchange).isSome := changed
          cases changes : effect e.exchange with
          | none =>
              rw [changes] at same
              rw [storesOfTurns, List.filter_cons_of_neg (by simp [same]), ← storesOfTurns, stores,
                storesOf, storesOf, List.filter_cons_of_neg (by simp [changes])]
          | some made =>
              rw [changes] at same
              rw [storesOfTurns, List.filter_cons_of_pos (by simp [same]), List.map_cons,
                ← storesOfTurns, stores, storesOf, storesOf,
                List.filter_cons_of_pos (by simp [changes]), List.map_cons]
      · -- an event that is no commit changes nothing
        have quiet : effect e.exchange = none := by
          by_contra changed
          obtain ⟨reply, returned⟩ := settled e (by simp [whole]) changed
          obtain ⟨made, changes⟩ := Option.ne_none_iff_exists'.mp changed
          subst whole
          exact commit (run.isCommit_of_effect contended returned changes)
        have same : e.after = e.before :=
          etcd_of_effect_none (run.allowed e (by simp [whole])) quiet
        refine ⟨turns, same ▸ serial, ?_, ?_⟩
        · rwa [commitOrder, if_neg commit]
        · rw [stores, storesOf, storesOf, List.filter_cons_of_neg (by simp [quiet])]

/-- **Conditional writers lose no update.** Take any interleaving of requests on one
slot in which no start finds the slot empty, no crash misses its desired LRP, and
every request that changed the store has returned. The successful requests, served
one at a time in the order of their commits with the answers they got, return the
same results and take the store through the same sequence of contents. -/
theorem conditional_writers_serialize (run : Served fromJSON requests σ events σ' pool)
    (contended : Contended requests guid index events)
    (settled : ∀ e ∈ events, effect e.exchange ≠ none → ∃ reply, pool e.thread = .ret reply) :
    (∀ t, t ∈ commitOrder (actualLRPSchemaPath guid index) pool events ↔
      ∃ value, pool t = .ret (.ok value)) ∧
    (commitOrder (actualLRPSchemaPath guid index) pool events).Nodup ∧
    ∃ turns, Serial fromJSON σ turns σ' ∧
      List.Forall₂ (fun t u => u.request = requests t ∧ pool t = .ret u.reply ∧
          u.exchanges <:+ playOf t events)
        (commitOrder (actualLRPSchemaPath guid index) pool events) turns ∧
      storesOfTurns turns = storesOf events := by
  refine ⟨fun t => ?_, nodup_commitOrder _, ?_⟩
  · rw [mem_commitOrder, and_iff_left_iff_imp]
    rintro ⟨value, returned⟩
    -- a request that succeeds has at least read the node
    obtain ⟨before, last, whole, -, commits, -⟩ := run.commits contended returned
    rw [whole]
    cases commits with
    | write => exact ⟨_, List.mem_append_right _ List.mem_cons_self, touches_got _ _⟩
    | read => exact ⟨_, List.mem_append_right _ List.mem_cons_self, touches_got _ _⟩
  · exact run.serialize contended settled (l := []) rfl run.linked

end Served

/-- A claim and a start read the same record; the claim writes first and the start is
turned away. -/
def claimBeatsStart : List (StoreEvent Unit Bool) :=
  let σ := sampleStore sampleUnclaimed
  let claimed := sampleUnclaimed.claimedBy (sampleInstance 0)
  let started := sampleUnclaimed.startedBy (sampleInstance 1) sampleNetInfo 2
  let σ' := σ.write samplePath claimed.marshal
  [⟨false, σ, .get samplePath, .ok (.leaf ⟨sampleUnclaimed.marshal, 1⟩), σ⟩,
    ⟨true, σ, .get samplePath, .ok (.leaf ⟨sampleUnclaimed.marshal, 1⟩), σ⟩,
    ⟨true, σ, .now, (2 : Int64), σ⟩,
    ⟨false, σ, .compareAndSwap samplePath claimed.marshal 1, .ok (), σ'⟩,
    ⟨true, σ', .compareAndSwap samplePath started.marshal 1, .error ⟨101⟩, σ'⟩]

def claimBeatsStartRequests (t : Bool) : Request :=
  if t then sampleStart 1 else sampleClaim 0

def claimBeatsStartPool (t : Bool) : Operation Unit Reply :=
  if t then .ret (.error (.error ErrActualLRPCannotBeStarted))
  else .ret (.ok (some (sampleUnclaimed.claimedBy (sampleInstance 0))))

theorem claimBeatsStart_served : Served (fun _ => none) claimBeatsStartRequests
    (sampleStore sampleUnclaimed) claimBeatsStart
    ((sampleStore sampleUnclaimed).write samplePath
      (sampleUnclaimed.claimedBy (sampleInstance 0)).marshal) claimBeatsStartPool := by
  refine Run.of_plays ⟨rfl, rfl, rfl, rfl, rfl, rfl⟩ ?_ ?_
  · intro e he
    have found := sampleStore_nodes sampleUnclaimed
    simp only [claimBeatsStart, List.mem_cons, List.not_mem_nil, or_false] at he
    rcases he with rfl | rfl | rfl | rfl | rfl
    · exact ⟨found, rfl⟩
    · exact ⟨found, rfl⟩
    · exact ⟨trivial, rfl⟩
    · exact ⟨⟨_, found, rfl⟩, rfl⟩
    · exact ⟨trivial, rfl⟩
  · have decoded := ActualLRP.unmarshal_marshal sampleUnclaimed
    rintro (_ | _)
    · have success : Success (fun _ => none) (sampleClaim 0)
          [got samplePath ⟨sampleUnclaimed.marshal, 1⟩,
            swapped samplePath (sampleUnclaimed.claimedBy (sampleInstance 0)) 1]
          (some (sampleUnclaimed.claimedBy (sampleInstance 0))) :=
        .swap (D := Unit) rfl decoded (.claim rfl (by decide) (by decide)) rfl
      exact success.returns
    · refine Returns.map_iff.mpr ⟨.error (.error ErrActualLRPCannotBeStarted), ?_, rfl⟩
      have different : sampleUnclaimed.isStarted
          ⟨some sampleKey, some (sampleInstance 1), some sampleNetInfo⟩ = false := by decide
      have allowed : sampleUnclaimed.allowsTransitionTo (some sampleKey) (some (sampleInstance 1))
          .running = true := by decide
      change Returns (startActualLRP ⟨some sampleKey, some (sampleInstance 1), some sampleNetInfo⟩)
        [got samplePath ⟨sampleUnclaimed.marshal, 1⟩, ⟨.now, (2 : Int64)⟩,
          ⟨.compareAndSwap samplePath
            (sampleUnclaimed.startedBy (sampleInstance 1) sampleNetInfo 2).marshal 1,
            .error ⟨101⟩⟩] _
      simp [startActualLRP, rawActualLRP_eq, samplePath, decoded, different, allowed]

theorem claimBeatsStart_contended : Contended claimBeatsStartRequests sampleKey.processGuid
    sampleKey.index claimBeatsStart := by
  refine ⟨by decide, ?_⟩
  intro e he err missing
  simp only [claimBeatsStart, List.mem_cons, List.not_mem_nil, or_false] at he
  rcases he with rfl | rfl | rfl | rfl | rfl <;> simp [Event.exchange]

theorem conditional_writers_serialize_claimBeatsStart :
    Contended claimBeatsStartRequests sampleKey.processGuid sampleKey.index claimBeatsStart ∧
      ∃ turns : List (Turn Unit), Serial (fun _ => none) (sampleStore sampleUnclaimed) turns
          ((sampleStore sampleUnclaimed).write samplePath
            (sampleUnclaimed.claimedBy (sampleInstance 0)).marshal) ∧
        turns.length = (commitOrder samplePath claimBeatsStartPool claimBeatsStart).length ∧
        storesOfTurns turns = storesOf claimBeatsStart := by
  have settled : ∀ e ∈ claimBeatsStart, effect e.exchange ≠ none →
      ∃ reply, claimBeatsStartPool e.thread = .ret reply := by
    rintro ⟨(_ | _), _⟩ - - <;> exact ⟨_, rfl⟩
  obtain ⟨-, -, turns, serial, pairs, stores⟩ := conditional_writers_serialize
    claimBeatsStart_served claimBeatsStart_contended settled
  exact ⟨claimBeatsStart_contended, turns, serial, pairs.length_eq.symm, stores⟩

end Bbs.Lifecycle
