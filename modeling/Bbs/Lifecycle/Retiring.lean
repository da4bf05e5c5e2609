import Bbs.Lifecycle.Serial

/-!
What a retire does to the records of others.

A retire reads the record of its slot, and then deletes the version it read or asks
the cell of that version to stop the instance; if that fails it starts over. While
it waits for an answer any other request may be served. `retire_safe` says what
holds of one retire in any such run. A retire does not look at the state of a record
closely: a record in no declared state is taken for one that is held
(`undeclared_stopped`).
-/

namespace Bbs.Lifecycle

open Bbs.Interaction Bbs.Versioned Bbs.Models Bbs.Etcd

/-! ### Declared states -/

/-- Every record is in one of the four states that the source declares. -/
def DeclaredStates (σ : Records) : Prop :=
  ∀ path lrp, recordAt path σ = some lrp → ∀ text undeclared, lrp.state ≠ .other text undeclared

/-- What a request writes is in a declared state. -/
theorem update_declared {request : Request} {lrp new : ActualLRP} {clocks : List Int64}
    (update : Update request lrp clocks new) :
    ∀ text undeclared, new.state ≠ .other text undeclared := by
  intro text undeclared
  cases update with
  | claim => simp [ActualLRP.claimedBy]
  | start => simp [ActualLRP.startedBy]
  | crash =>
      unfold ActualLRP.crashOutcome
      split <;> simp
  | fail unclaimed =>
      simp [ActualLRP.failedWith, unclaimed]

theorem declaredStates_write {σ : Records} {path : String} {new : ActualLRP}
    (declared : DeclaredStates σ)
    (written : ∀ text undeclared, new.state ≠ .other text undeclared) :
    DeclaredStates (σ.write path new.marshal) := by
  intro path' lrp found
  by_cases same : path' = path
  · subst same
    obtain rfl := Option.some.inj ((recordAt_write _ _ _).symm.trans found)
    exact written
  · rw [recordAt, Store.write_nodes_of_ne _ same] at found
    exact declared path' lrp found

theorem declaredStates_erase {σ : Records} {path : String} (declared : DeclaredStates σ) :
    DeclaredStates (σ.erase path) := by
  intro path' lrp found
  by_cases same : path' = path
  · subst same
    rw [recordAt, Store.erase_nodes_self] at found
    cases found
  · rw [recordAt, Store.erase_nodes_of_ne _ same] at found
    exact declared path' lrp found

section

variable {D ι : Type} [DecidableEq ι] {fromJSON : Json → Option D} {requests : ι → Request}
  {σ σ' : Records} {events : List (StoreEvent D ι)} {pool : ι → Operation D Reply}

/-- The states stay declared. -/
theorem Served.declared (run : Served fromJSON requests σ events σ' pool)
    (start : DeclaredStates σ) : ∀ e ∈ events, DeclaredStates e.before := by
  refine fun e mem => ((run.linked.invariant start ?_).1 e mem).1
  intro l e m whole _ declared
  subst whole
  have step := run.allowed e (by simp)
  cases changes : effect e.exchange with
  | none => rwa [etcd_of_effect_none step changes]
  | some made =>
      rw [etcd_of_effect_some step changes]
      have change := run.change changes
      generalize e.exchange = x at change changes
      cases change with
      | swap named seen decoded update read =>
          cases changes
          exact declaredStates_write declared (update_declared update)
      | create =>
          cases changes
          exact declaredStates_write declared nofun
      | remove =>
          cases changes
          exact declaredStates_erase declared
      | cleanup =>
          cases changes
          exact declaredStates_erase declared

end

/-! ### The attempts of a retire -/

section

variable {D : Type} {fromJSON : Json → Option D} {request : RetireActualLRPRequest}
  {path : String} {l a b : List (Exchange (Call D) Answer)} {x : Exchange (Call D) Answer}
  {res : Except Error Unit}

/-- An attempt changes the store by its last exchange, if at all. -/
theorem attempt_deletes {made : Effect} (attempt : Attempt request path (a ++ x :: b) res)
    (changes : effect x = some made) :
    ∃ node lrp asked, a = got path node :: asked ∧ ActualLRP.unmarshal node.value = some lrp ∧
      Removal (.retire request) lrp asked ∧
      x = removed (actualLRPSchemaPath lrp.key.processGuid lrp.key.index) node.modifiedIndex := by
  generalize whole : a ++ x :: b = l at attempt
  have mem : x ∈ l := by simp [← whole]
  cases attempt with
  | @removal node lrp asked answer decoded removal =>
      have quiet : Quiet (got path node :: asked) := quiet_cons.mpr ⟨rfl, removal.quiet⟩
      obtain ⟨a', rfl, last⟩ := change_after quiet whole.symm changes
      cases a' with
      | nil =>
          obtain ⟨rfl, -⟩ := List.cons.inj last
          rcases answer with e | ⟨⟩
          · cases changes
          · exact ⟨node, lrp, asked, by simp, decoded, removal, rfl⟩
      | cons y a' => simp at last
  | unread | unlocated | stop =>
      simp only [List.mem_cons, List.not_mem_nil, or_false] at mem
      rcases mem with rfl | rfl | rfl <;> cases changes

/-- An attempt stops the instance that it read of, at the cell that it asked for. -/
theorem attempt_stops {repAddress : String} {key : ActualLRPKey}
    {instanceKey : ActualLRPInstanceKey} (attempt : Attempt request path (a ++ x :: b) res)
    (stops : x.call = .stopLRPInstance repAddress key instanceKey) :
    ∃ node lrp cell, a = [got path node, ⟨.cellById lrp.instanceKey.cellId, .ok cell⟩] ∧
      ActualLRP.unmarshal node.value = some lrp ∧
      ¬ (lrp.state = .unclaimed ∨ lrp.state = .crashed) ∧
      repAddress = cell.repAddress ∧ key = lrp.key ∧ instanceKey = lrp.instanceKey := by
  generalize whole : a ++ x :: b = l at attempt
  have mem : x ∈ l := by simp [← whole]
  cases attempt with
  | unread | unlocated =>
      simp only [List.mem_cons, List.not_mem_nil, or_false] at mem
      rcases mem with rfl | rfl <;> cases stops
  | @removal node lrp asked answer decoded removal =>
      cases removal with
      | unheld | lost =>
          simp only [List.cons_append, List.nil_append, List.mem_cons, List.not_mem_nil,
            or_false] at mem
          rcases mem with rfl | rfl | rfl <;> cases stops
  | @stop node lrp cell answer decoded held =>
      -- only the last exchange of the attempt is such a call
      match a, whole with
      | [], whole =>
          obtain ⟨rfl, -⟩ := List.cons.inj whole
          cases stops
      | [y], whole =>
          obtain ⟨-, rest⟩ := List.cons.inj whole
          obtain ⟨rfl, -⟩ := List.cons.inj rest
          cases stops
      | [y, z], whole =>
          simp only [List.cons_append, List.nil_append, List.cons.injEq] at whole
          obtain ⟨rfl, rfl, rfl, -⟩ := whole
          cases stops
          exact ⟨node, lrp, cell, rfl, decoded, held, rfl, rfl, rfl⟩
      | y :: z :: w :: a, whole => simp at whole

/-- An attempt reads once, first. -/
theorem attempt_reads (attempt : Attempt request path l res) :
    l.countP (fun x => x.call matches .get _) = 1 := by
  cases attempt with
  | removal decoded removal => cases removal <;> rfl
  | unread | unlocated | stop => rfl

/-- How a retire that returned got there. -/
theorem retire_attempts {reply : Reply}
    (returns : Returns ((Request.retire request).program fromJSON) l reply) :
    (l = [] ∧ reply = .error .panic) ∨
    ∃ key failed last res, request.actualLrpKey = some key ∧ l = List.flatten failed ++ last ∧
      failed.length < retireActualLRPRetryAttempts ∧
      (∀ attempt ∈ failed, ∃ e,
        Attempt request (actualLRPSchemaPath key.processGuid key.index) attempt (.error e)) ∧
      Attempt request (actualLRPSchemaPath key.processGuid key.index) last res ∧
      reply = (res.mapError .error).map fun _ => none := by
  obtain ⟨res, retired, rfl⟩ := Returns.map_iff.mp returns
  cases named : request.actualLrpKey with
  | none =>
      simp only [retireActualLRP, named, Program.pure_eq_ret, Returns.ret_iff] at retired
      obtain ⟨rfl, rfl⟩ := retired
      exact .inl ⟨rfl, rfl⟩
  | some key =>
      simp only [retireActualLRP, named] at retired
      obtain ⟨res, loop, rfl⟩ := Returns.map_iff.mp retired
      obtain ⟨failed, last, rfl, few, failing, attempt⟩ :=
        @attempts_of_retireLoop _ _ request _ _ _ _ _ loop
      exact .inr ⟨key, failed, last, res, rfl, rfl, Nat.lt_succ_of_le few, failing, attempt, rfl⟩

/-- Where a list of parts is cut, one of the parts is. -/
theorem exists_of_flatten_eq {α : Type} {parts : List (List α)} {before after : List α} {y : α}
    (h : parts.flatten = before ++ y :: after) :
    ∃ earlier first second, first ++ y :: second ∈ parts ∧ before = earlier ++ first := by
  induction parts generalizing before with
  | nil => simp at h
  | cons part parts ih =>
      rw [List.flatten_cons] at h
      rcases List.append_eq_append_iff.mp h with ⟨rest, rfl, later⟩ | ⟨rest, rfl, here⟩
      · obtain ⟨earlier, first, second, mem, rfl⟩ := ih later
        exact ⟨part ++ earlier, first, second, List.mem_cons_of_mem _ mem, by simp⟩
      · cases rest with
        | nil =>
            obtain ⟨earlier, first, second, mem, same⟩ := @ih [] here.symm
            obtain ⟨rfl, rfl⟩ := List.append_eq_nil_iff.mp same.symm
            exact ⟨before, [], second, List.mem_cons_of_mem _ mem, by simp⟩
        | cons z rest =>
            obtain ⟨rfl, -⟩ := List.cons.inj here
            exact ⟨[], before, rest, List.mem_cons_self, rfl⟩

/-- Every call of a retire is made in some attempt. -/
theorem retire_attempt_of_plays {q : Operation D Reply}
    (play : Plays ((Request.retire request).program fromJSON) (l ++ [x]) q) :
    ∃ key earlier first second res, request.actualLrpKey = some key ∧ l = earlier ++ first ∧
      Attempt request (actualLRPSchemaPath key.processGuid key.index) (first ++ x :: second) res := by
  obtain ⟨rest, reply, returns⟩ := play.extends
  rw [List.append_assoc, List.singleton_append] at returns
  rcases retire_attempts returns with
    ⟨same, -⟩ | ⟨key, failed, last, res, named, whole, -, failing, attempt, -⟩
  · simp at same
  · have parts : (failed ++ [last]).flatten = l ++ x :: rest := by simp [whole]
    obtain ⟨earlier, first, second, mem, rfl⟩ := exists_of_flatten_eq parts
    rcases List.mem_append.mp mem with mem | mem
    · obtain ⟨e, attempt⟩ := failing _ mem
      exact ⟨key, earlier, first, second, _, named, rfl, attempt⟩
    · rw [← List.mem_singleton.mp mem] at attempt
      exact ⟨key, earlier, first, second, _, named, rfl, attempt⟩

/-- An attempt that succeeds ends with a deletion or an accepted stop. -/
theorem attempt_succeeds (attempt : Attempt request path l (.ok ())) :
    ∃ before x, l = before ++ [x] ∧ ((∃ path', effect x = some (.drop path')) ∨
      ∃ repAddress key instanceKey, x = ⟨.stopLRPInstance repAddress key instanceKey, .ok ()⟩) := by
  generalize done : (Except.ok () : Except Error Unit) = res at attempt
  cases attempt with
  | unread | unlocated => cases done
  | @removal node lrp asked answer decoded removal =>
      rcases answer with e | ⟨⟩
      · cases done
      · exact ⟨got path node :: asked, _, rfl, .inl ⟨_, rfl⟩⟩
  | @stop node lrp cell answer decoded held =>
      rcases answer with e | ⟨⟩
      · cases done
      · exact ⟨[_, _], _, rfl, .inr ⟨_, _, _, rfl⟩⟩

end

/-! ### A retire among other requests -/

section

variable {D ι : Type} [DecidableEq ι] {fromJSON : Json → Option D} {requests : ι → Request}
  {σ σ' : Records} {events : List (StoreEvent D ι)} {pool : ι → Operation D Reply}
  {request : RetireActualLRPRequest} {t : ι}

/-- Having exchanged `past`, a retire deletes the record of its slot in the version that it read
last. This was unclaimed or crashed, or its cell has just been reported as not found, and it is what
the store holds. -/
def DeletesRead (request : RetireActualLRPRequest) (past : List (Exchange (Call D) Answer))
    (store : Records) (made : Effect) : Prop :=
  ∃ key node lrp earlier asked, request.actualLrpKey = some key ∧
    past = earlier ++ got (actualLRPSchemaPath key.processGuid key.index) node :: asked ∧
    ActualLRP.unmarshal node.value = some lrp ∧
    (asked = [] ∧ (lrp.state = .unclaimed ∨ lrp.state = .crashed) ∨
      asked = [⟨.cellById lrp.instanceKey.cellId, .error ErrResourceNotFound⟩]) ∧
    made = .drop (actualLRPSchemaPath key.processGuid key.index) ∧
    store.nodes (actualLRPSchemaPath key.processGuid key.index) = some node

/-- Having exchanged `past`, a retire stops the instance of the version that it read last, at the
cell that it asked for since. This version is neither unclaimed nor crashed, so that it is claimed
or running if the states in `σ`, the first store of the run, are declared. -/
def StopsRead (request : RetireActualLRPRequest) (past : List (Exchange (Call D) Answer))
    (σ : Records) (repAddress : String) (actualLrpKey : ActualLRPKey)
    (instanceKey : ActualLRPInstanceKey) : Prop :=
  ∃ key node lrp cell earlier, request.actualLrpKey = some key ∧
    past = earlier ++ [got (actualLRPSchemaPath key.processGuid key.index) node,
      ⟨.cellById lrp.instanceKey.cellId, .ok cell⟩] ∧
    ActualLRP.unmarshal node.value = some lrp ∧ actualLrpKey = lrp.key ∧
    instanceKey = lrp.instanceKey ∧ repAddress = cell.repAddress ∧
    lrp.state ≠ .unclaimed ∧ lrp.state ≠ .crashed ∧
    (DeclaredStates σ → lrp.state = .claimed ∨ lrp.state = .running)

/-- What one may count on when thread `t` serves a retire in a run from the store `σ`, having come
to `state`. Each attempt begins with its only read: there are not too many of them, the retire
deletes and stops as above, it succeeds only with a deletion or an accepted stop as its last call,
and if it fails it has changed nothing. -/
structure RetiresSafely (request : RetireActualLRPRequest) (t : ι) (σ : Records)
    (events : List (StoreEvent D ι)) (state : Operation D Reply) : Prop where
  attempts : (playOf t events).countP (fun x => x.call matches .get _) ≤
    retireActualLRPRetryAttempts
  deletes : ∀ l e m made, events = l ++ e :: m → e.thread = t → effect e.exchange = some made →
    DeletesRead request (playOf t l) e.before made
  stops : ∀ l e m repAddress key instanceKey, events = l ++ e :: m → e.thread = t →
    e.call = .stopLRPInstance repAddress key instanceKey →
    StopsRead request (playOf t l) σ repAddress key instanceKey
  succeeds : ∀ value, state = .ret (.ok value) → ∃ l e m, events = l ++ e :: m ∧ e.thread = t ∧
    playOf t m = [] ∧ ((∃ path, effect e.exchange = some (.drop path)) ∨
      ∃ repAddress key instanceKey,
        e.exchange = ⟨.stopLRPInstance repAddress key instanceKey, .ok ()⟩)
  fails : ∀ failure, state = .ret (.error failure) → ∀ e ∈ events, e.thread = t →
    effect e.exchange = none

theorem retire_attempts_le (run : Served fromJSON requests σ events σ' pool)
    (retires : requests t = .retire request) :
    (playOf t events).countP (fun x => x.call matches .get _) ≤ retireActualLRPRetryAttempts := by
  have play := run.plays t
  rw [retires] at play
  obtain ⟨rest, reply, returns⟩ := play.extends
  refine (List.Sublist.countP_le (List.sublist_append_left _ rest)).trans ?_
  rcases retire_attempts returns with
    ⟨same, -⟩ | ⟨key, failed, last, res, named, whole, few, failing, attempt, -⟩
  · simp [same]
  · have once : failed.map (List.countP fun x => x.call matches .get _) = failed.map fun _ => 1 := by
      refine List.map_congr_left fun attempt mem => ?_
      obtain ⟨e, attempted⟩ := failing attempt mem
      exact attempt_reads attempted
    rw [whole, List.countP_append, List.countP_flatten, once, attempt_reads attempt]
    simpa using few

theorem retire_deletes {l m : List (StoreEvent D ι)} {e : StoreEvent D ι} {made : Effect}
    (run : Served fromJSON requests σ (l ++ e :: m) σ' pool)
    (retires : requests e.thread = .retire request) (changes : effect e.exchange = some made) :
    DeletesRead request (playOf e.thread l) e.before made := by
  obtain ⟨q, play⟩ := run.plays_upto
  rw [retires] at play
  obtain ⟨key, earlier, first, second, res, named, past, attempt⟩ := retire_attempt_of_plays play
  obtain ⟨node, lrp, asked, rfl, decoded, removal, removes⟩ := attempt_deletes attempt changes
  have read : got (actualLRPSchemaPath key.processGuid key.index) node ∈ playOf e.thread l := by
    simp [past]
  have holds : HoldsVersion e.before (actualLRPSchemaPath lrp.key.processGuid lrp.key.index)
      node.modifiedIndex := by
    have allowed : Allowed e.before e.exchange.call e.exchange.answer :=
      (run.allowed e (by simp)).1
    rwa [removes] at allowed
  obtain ⟨same, current⟩ := run.version_seen read holds
  rw [removes, same] at changes
  refine ⟨key, node, lrp, earlier, asked, named, past, decoded, ?_, (Option.some.inj changes).symm,
    current⟩
  cases removal with
  | unheld unheld => exact .inl ⟨rfl, unheld⟩
  | lost held => exact .inr rfl

theorem retire_stops {l m : List (StoreEvent D ι)} {e : StoreEvent D ι} {repAddress : String}
    {actualLrpKey : ActualLRPKey} {instanceKey : ActualLRPInstanceKey}
    (run : Served fromJSON requests σ (l ++ e :: m) σ' pool)
    (retires : requests e.thread = .retire request)
    (stops : e.call = .stopLRPInstance repAddress actualLrpKey instanceKey) :
    StopsRead request (playOf e.thread l) σ repAddress actualLrpKey instanceKey := by
  obtain ⟨q, play⟩ := run.plays_upto
  rw [retires] at play
  obtain ⟨key, earlier, first, second, res, named, past, attempt⟩ := retire_attempt_of_plays play
  obtain ⟨node, lrp, cell, rfl, decoded, held, address, hkey, hinstance⟩ :=
    attempt_stops attempt stops
  rw [not_or] at held
  refine ⟨key, node, lrp, cell, earlier, named, past, decoded, hkey, hinstance, address, held.1,
    held.2, ?_⟩
  intro declared
  have read : got (actualLRPSchemaPath key.processGuid key.index) node ∈ playOf e.thread l := by
    simp [past]
  obtain ⟨e', mem, found, -⟩ := run.seen read
  have state := run.declared declared e' (by simp [mem]) _ lrp (recordAt_of_nodes found decoded)
  cases h : lrp.state with
  | unclaimed => exact absurd h held.1
  | claimed => exact .inl rfl
  | running => exact .inr rfl
  | crashed => exact absurd h held.2
  | other text undeclared => exact absurd h (state text undeclared)

/-- **A retire is safe among other requests.** Whatever other requests are served in between and
whatever the cell registry and the cells answer. -/
theorem retire_safe (run : Served fromJSON requests σ events σ' pool)
    (retires : requests t = .retire request) : RetiresSafely request t σ events (pool t) := by
  constructor
  · exact retire_attempts_le run retires
  · rintro l e m made rfl rfl changes
    exact retire_deletes run retires changes
  · rintro l e m repAddress actualLrpKey instanceKey rfl rfl stops
    exact retire_stops run retires stops
  · intro value returned
    have returns := run.plays t
    rw [returned, retires] at returns
    rcases retire_attempts returns with
      ⟨-, same⟩ | ⟨key, failed, last, res, named, whole, -, -, attempt, reply⟩
    · cases same
    · rcases res with error | ⟨⟩
      · cases reply
      obtain ⟨before, x, rfl, final⟩ := attempt_succeeds attempt
      rw [← List.append_assoc] at whole
      obtain ⟨l, e, m, rfl, own, rfl, -, nothing⟩ := exists_of_playOf_eq whole
      exact ⟨l, e, m, rfl, own, nothing, final⟩
  · rintro failure returned e mem rfl
    have returns := run.plays e.thread
    rw [returned] at returns
    exact Request.returns_error returns _ (mem_playOf.mpr ⟨e, mem, rfl, rfl⟩)

end

/-! ### Two runs -/

/-- A retire whose record is claimed after it was read. The second attempt finds the cell gone. -/
def retireAfterClaim : List (StoreEvent Unit Bool) :=
  let σ := sampleStore sampleUnclaimed
  let σ₁ := σ.write samplePath sampleClaimed.marshal
  [⟨false, σ, .get samplePath, .ok (.leaf ⟨sampleUnclaimed.marshal, 1⟩), σ⟩,
    ⟨true, σ, .get samplePath, .ok (.leaf ⟨sampleUnclaimed.marshal, 1⟩), σ⟩,
    ⟨true, σ, .compareAndSwap samplePath sampleClaimed.marshal 1, .ok (), σ₁⟩,
    ⟨false, σ₁, .compareAndDelete samplePath 1, .error ⟨101⟩, σ₁⟩,
    ⟨false, σ₁, .get samplePath, .ok (.leaf ⟨sampleClaimed.marshal, 2⟩), σ₁⟩,
    ⟨false, σ₁, .cellById "cell", .error ErrResourceNotFound, σ₁⟩,
    ⟨false, σ₁, .compareAndDelete samplePath 2, .ok (), σ₁.erase samplePath⟩]

theorem retire_safe_after_claim :
    RetiresSafely sampleRetire false (sampleStore sampleUnclaimed) retireAfterClaim
      (.ret (.ok none) : Operation Unit Reply) := by
  have run : Served (fun _ => none) (fun t => if t then sampleClaim 1 else .retire sampleRetire)
      (sampleStore sampleUnclaimed) retireAfterClaim
      (((sampleStore sampleUnclaimed).write samplePath sampleClaimed.marshal).erase samplePath)
      fun t => if t then .ret (.ok (some sampleClaimed)) else .ret (.ok none) := by
    have unclaimed := sampleStore_nodes sampleUnclaimed
    have claimed : ((sampleStore sampleUnclaimed).write samplePath
        sampleClaimed.marshal).nodes samplePath = some ⟨sampleClaimed.marshal, 2⟩ :=
      Store.write_nodes_self _ _ _
    refine Run.of_plays ⟨rfl, rfl, rfl, rfl, rfl, rfl, rfl, rfl⟩ ?_ ?_
    · intro e mem
      simp only [retireAfterClaim, List.mem_cons, List.not_mem_nil, or_false] at mem
      rcases mem with rfl | rfl | rfl | rfl | rfl | rfl | rfl
      · exact ⟨unclaimed, rfl⟩
      · exact ⟨unclaimed, rfl⟩
      · exact ⟨⟨_, unclaimed, rfl⟩, rfl⟩
      · exact ⟨trivial, rfl⟩
      · exact ⟨claimed, rfl⟩
      · exact ⟨trivial, rfl⟩
      · exact ⟨⟨_, claimed, rfl⟩, rfl⟩
    · rintro (_ | _)
      · exact sampleRetire_returns rfl (by decide)
      · have success : Success (fun _ => none) (sampleClaim 1)
            [got samplePath ⟨sampleUnclaimed.marshal, 1⟩, swapped samplePath sampleClaimed 1]
            (some sampleClaimed) :=
          .swap (D := Unit) rfl (ActualLRP.unmarshal_marshal _)
            (.claim rfl (by decide) (by decide)) rfl
        exact success.returns
  exact retire_safe run rfl

theorem lost_undeclared : "LOST" ∉ stateNames := by decide

/-- A record in no declared state. -/
def sampleUndeclared : ActualLRP :=
  { sampleRunning 0 with state := .other "LOST" lost_undeclared }

/-- A retire stops the instance of a record that is neither claimed nor running. -/
theorem undeclared_stopped :
    let σ := sampleStore sampleUndeclared
    let events : List (StoreEvent Unit Unit) :=
      [⟨(), σ, .get samplePath, .ok (.leaf ⟨sampleUndeclared.marshal, 1⟩), σ⟩,
        ⟨(), σ, .cellById "cell", .ok ⟨"rep-address"⟩, σ⟩,
        ⟨(), σ, .stopLRPInstance "rep-address" sampleUndeclared.key sampleUndeclared.instanceKey,
          .ok (), σ⟩]
    (∃ pool, Served (fun _ => none) (fun _ => .retire sampleRetire) σ events σ pool ∧
      pool () = .ret (.ok none)) ∧
      sampleUndeclared.state ≠ .claimed ∧ sampleUndeclared.state ≠ .running := by
  intro σ events
  refine ⟨⟨fun _ => .ret (.ok none), Run.of_plays ⟨rfl, rfl, rfl, rfl⟩ ?_ ?_, rfl⟩, nofun, nofun⟩
  · intro e mem
    simp only [events, List.mem_cons, List.not_mem_nil, or_false] at mem
    rcases mem with rfl | rfl | rfl
    · exact ⟨sampleStore_nodes sampleUndeclared, rfl⟩
    · exact ⟨trivial, rfl⟩
    · exact ⟨trivial, rfl⟩
  · intro _
    have held : ¬ (sampleUndeclared.state = .unclaimed ∨ sampleUndeclared.state = .crashed) := by
      rintro (h | h) <;> cases h
    have success : Success (fun _ => none) (.retire sampleRetire)
        [got samplePath ⟨sampleUndeclared.marshal, 1⟩,
          ⟨.cellById sampleUndeclared.instanceKey.cellId, .ok ⟨"rep-address"⟩⟩,
          ⟨.stopLRPInstance "rep-address" sampleUndeclared.key sampleUndeclared.instanceKey,
            .ok ()⟩] none :=
      .stop (D := Unit) rfl (ActualLRP.unmarshal_marshal _) held
    exact success.returns

end Bbs.Lifecycle
