import Bbs.Lifecycle.Serial
import Bbs.Models.DesiredLRP

/-!
What becomes of the restart that a crash decides on.

A crash that restarts its instance has put the record back to unclaimed when it
looks up the desired LRP and asks for an auction, and it returns without an error
whatever comes of that: the source tests another variable than the one that holds
the outcome. So the restart that was reported has been requested exactly when all
the calls on the way were answered well (`crash_reports_restart_iff`,
`refused_restart_not_reported`).

Where there is no desired LRP, the record is deleted and an auction is requested all
the same, for a nil desired LRP (`auctions_formed_iff`, `auction_without_desired`).
-/

namespace Bbs.Lifecycle

open Bbs.Interaction Bbs.Versioned Bbs.Models Bbs.Etcd

section

variable {D : Type} {fromJSON : Json → Option D} {request : CrashActualLRPRequest}
  {key : ActualLRPKey} {σ σ' : Records} {l tail : List (Exchange (Call D) Answer)}

/-! ### Where a crash asks for an auction -/

/-- The exchange is not one by which an auction is asked for. -/
structure Apart (key : ActualLRPKey) (x : Exchange (Call D) Answer) : Prop where
  get : x.call ≠ .get (desiredLRPSchemaPathByProcessGuid key.processGuid)
  delete : ∀ path, x.call ≠ .delete path
  requestLRPAuctions : ∀ starts, x.call ≠ .requestLRPAuctions starts

theorem apart_of_unwritten (named : request.actualLrpKey = some key)
    {x : Exchange (Call D) Answer} (unwritten : Unwritten (.crash request) x) : Apart key x := by
  rcases x with ⟨c, answer⟩
  rcases unwritten with ⟨path, slot, rfl⟩ | rfl | ⟨path, value, version, e, same⟩
  · simp only [Request.path, Request.slot, named, Option.map_some, Option.some.injEq] at slot
    subst slot
    have other := (desired_ne_instance key.processGuid key.index).symm
    constructor <;> simp [other]
  · constructor <;> simp
  · cases same
    constructor <;> simp

theorem apart_of_written {node : Node Json} {new : ActualLRP} {readAt now : Int64} :
    ∀ x ∈ ([got (actualLRPSchemaPath key.processGuid key.index) node, ⟨.now, readAt⟩, ⟨.now, now⟩,
        swapped (actualLRPSchemaPath key.processGuid key.index) new node.modifiedIndex] :
        List (Exchange (Call D) Answer)), Apart key x := by
  have other := (desired_ne_instance key.processGuid key.index).symm
  intro x mem
  simp only [List.mem_cons, List.not_mem_nil, or_false] at mem
  rcases mem with rfl | rfl | rfl | rfl <;> constructor <;> simp [other]

/-- Without a look-up no auction was asked for. -/
theorem not_auction_of_apart {res : Except Error Unit} (apart : ∀ x ∈ l, Apart key x)
    (suffix : tail <:+ l) : ¬ Returns (requestLRPAuctionForLRPKey fromJSON key) tail res := by
  intro returns
  obtain ⟨answer, rest, rfl, -⟩ := (auctionReturns_of_returns returns).looks
  exact (apart _ (suffix.subset List.mem_cons_self)).get rfl

/-- A crash that writes finds the version it read, and what follows goes on from the store with
its record. -/
theorem traverses_crashed {path : String} {node : Node Json} {new : ActualLRP} {readAt now : Int64}
    (traverses : Traverses etcd σ (got path node :: ⟨.now, readAt⟩ :: ⟨.now, now⟩ ::
      swapped path new node.modifiedIndex :: tail) σ') :
    Traverses etcd (σ.write path new.marshal) tail σ' := by
  simp only [Traverses.cons_iff, etcd] at traverses
  obtain ⟨_, ⟨-, rfl⟩, _, ⟨-, rfl⟩, _, ⟨-, rfl⟩, _, ⟨-, rfl⟩, rest⟩ := traverses
  exact rest

/-- A crash either asks for no auction, and then it has failed or left the record in another state
than unclaimed, or it has written the record back as unclaimed, succeeds, and ends with asking for
one. -/
inductive Restart (fromJSON : Json → Option D) (key : ActualLRPKey) (σ' : Records) :
    List (Exchange (Call D) Answer) → Except Failure Unit → Prop where
  | failed {l : List (Exchange (Call D) Answer)} {failure : Failure} :
      (∀ x ∈ l, Apart key x) → Restart fromJSON key σ' l (.error failure)
  | late {l : List (Exchange (Call D) Answer)} {new : ActualLRP} :
      (∀ x ∈ l, Apart key x) →
      recordAt (actualLRPSchemaPath key.processGuid key.index) σ' = some new →
      new.state ≠ .unclaimed → Restart fromJSON key σ' l (.ok ())
  | early {σ : Records} {before tail : List (Exchange (Call D) Answer)} {new : ActualLRP}
      {res : Except Error Unit} :
      (∀ x ∈ before, Apart key x) → new.state = .unclaimed →
      AuctionReturns fromJSON key tail res →
      Traverses etcd (σ.write (actualLRPSchemaPath key.processGuid key.index) new.marshal) tail σ' →
      Restart fromJSON key σ' (before ++ tail) (.ok ())

theorem restart_of_executes {res : Except Failure Unit}
    (executed : Executes etcd σ (crashActualLRP fromJSON request) l σ' res)
    (named : request.actualLrpKey = some key) : Restart fromJSON key σ' l res := by
  obtain ⟨returns, traverses⟩ := executed
  cases crashReturns_of_returns returns with
  | refused unwritten => exact .failed fun x mem => apart_of_unwritten named (unwritten x mem)
  | @crashed key' node lrp readAt now named' decoded update late =>
      obtain rfl : key' = key := Option.some.inj (named'.symm.trans named)
      obtain rfl := Traverses.nil_iff.mp (traverses_crashed traverses)
      refine .late apart_of_written (recordAt_write _ _ _) ?_
      simp [ActualLRP.crashOutcome, late]
  | @restarted key' node lrp readAt now tail res named' decoded update early auction =>
      obtain rfl : key' = key := Option.some.inj (named'.symm.trans named)
      have unclaimed : (lrp.crashOutcome readAt now request.errorMessage).state = .unclaimed := by
        simp [ActualLRP.crashOutcome, early]
      exact .early apart_of_written unclaimed auction (traverses_crashed traverses)

/-- A look-up that found a desired LRP found it in the store, and the auction leaves the store
alone. -/
theorem traverses_requested {path : String} {node : Node Json}
    {starts : List (LRPStartRequest D)} {answer : Except Unit Unit}
    (traverses : Traverses etcd σ [got path node, ⟨.requestLRPAuctions starts, answer⟩] σ') :
    σ' = σ ∧ σ.nodes path = some node := by
  simp only [Traverses.cons_iff, Traverses.nil_iff, etcd] at traverses
  obtain ⟨_, ⟨found, rfl⟩, _, ⟨-, rfl⟩, rfl⟩ := traverses
  exact ⟨rfl, found⟩

theorem traverses_deleted {path : String} {lookup : Exchange (Call D) Answer}
    {starts : List (LRPStartRequest D)} {answer : Except Unit Unit}
    (traverses : Traverses etcd σ [lookup, ⟨.delete path, .ok ()⟩,
      ⟨.requestLRPAuctions starts, answer⟩] σ') : σ'.nodes path = none := by
  simp only [Traverses.cons_iff, Traverses.nil_iff, etcd] at traverses
  obtain ⟨_, -, _, ⟨-, rfl⟩, _, ⟨-, rfl⟩, rfl⟩ := traverses
  exact Store.erase_nodes_self _ _

/-! ### A reported restart -/

/-- What a caller may conclude from the reply to a crash: if there is no error and the record is
left unclaimed, the auctioneer has accepted a request for the stored desired LRP with the index of
the key; and if asking for the auction failed, the reply is an error. -/
structure RestartReported (fromJSON : Json → Option D) (key : ActualLRPKey)
    (l : List (Exchange (Call D) Answer)) (σ' : Records) (res : Except Failure Unit) : Prop where
  requested : ∀ lrp, res = .ok () →
    recordAt (actualLRPSchemaPath key.processGuid key.index) σ' = some lrp →
    lrp.state = .unclaimed →
    ∃ node desired index,
      σ'.nodes (desiredLRPSchemaPathByProcessGuid key.processGuid) = some node ∧
      fromJSON node.value = some desired ∧ (UInt64.toNat index : Int) = key.index.toInt ∧
      ⟨.requestLRPAuctions [⟨some desired, [index]⟩], .ok ()⟩ ∈ l
  reported : ∀ tail e, tail <:+ l →
    Returns (requestLRPAuctionForLRPKey fromJSON key) tail (.error e) →
    ∃ failure, res = .error failure

/-- The answers a crash counts on: the look-up of the desired LRP finds one that decodes, and then
the index is no negative number, or reports that there is none; a delete succeeds; the auctioneer
accepts. -/
def Answered (fromJSON : Json → Option D) (key : ActualLRPKey) :
    Exchange (Call D) Answer → Prop
  | ⟨.get path, answer⟩ => path = desiredLRPSchemaPathByProcessGuid key.processGuid →
      (∃ node desired, answer = .ok (.leaf node) ∧ fromJSON node.value = some desired ∧
        0 ≤ key.index.toInt) ∨
      ∃ e, answer = .error e ∧ e.code = etcdErrKeyNotFound
  | ⟨.delete _, answer⟩ => answer = .ok ()
  | ⟨.requestLRPAuctions _, answer⟩ => answer = .ok ()
  | _ => True

theorem Apart.answered {x : Exchange (Call D) Answer} (apart : Apart key x) :
    Answered fromJSON key x := by
  rcases x with ⟨c, answer⟩
  cases c with
  | get path =>
      intro same
      exact absurd (congrArg Call.get same) apart.get
  | delete path => exact absurd rfl (apart.delete path)
  | requestLRPAuctions starts => exact absurd rfl (apart.requestLRPAuctions starts)
  | compareAndSwap | set | compareAndDelete | now | newV4 | cellById | stopLRPInstance => trivial

/-- The index of a key as `uint`. -/
theorem toNat_index {index : Int32} (natural : 0 ≤ index.toInt) :
    (index.toInt64.toUInt64.toNat : Int) = index.toInt := by
  have bits : index.toInt = Int.bmod index.toInt64.toUInt64.toNat (2 ^ 64) := by
    rw [← Int32.toInt_toInt64]
    exact BitVec.toInt_eq_toNat_bmod _
  have bound := index.toInt64.toUInt64.toNat_lt
  rw [bits, Int.bmod_def] at natural ⊢
  split_ifs at natural ⊢ <;> omega

theorem natural_index {index : Int32} (same : (index.toInt64.toUInt64.toNat : Int) = index.toInt) :
    0 ≤ index.toInt :=
  same ▸ Int.natCast_nonneg _

/-- Asking for an auction that fails was not answered well. -/
theorem ok_of_answered {res : Except Error Unit} (auction : AuctionReturns fromJSON key tail res)
    (answered : ∀ x ∈ tail, Answered fromJSON key x) : res = .ok () := by
  cases auction with
  | @unread answer e read known =>
      simp only [List.forall_mem_singleton, Answered, forall_const] at answered
      rcases answered with ⟨node, desired, rfl, decoded, -⟩ | ⟨e, rfl, missing⟩
      · simp [readAnswer_leaf decoded] at read
      · rw [readAnswer_missing _ missing] at read
        exact absurd (Except.error.inj read).symm known
  | @requested node desired answer decoded =>
      rcases answer with _ | _
      · simp [Answered] at answered
      · rfl
  | undeleted missing => simp [Answered] at answered
  | @deleted e answer missing =>
      rcases answer with _ | _
      · simp [Answered] at answered
      · rfl

/-- Two ways to succeed with asking for an auction. -/
theorem accepted_cases (auction : AuctionReturns fromJSON key tail (.ok ())) :
    (∃ node desired, fromJSON node.value = some desired ∧
      tail = [got (desiredLRPSchemaPathByProcessGuid key.processGuid) node,
        ⟨.requestLRPAuctions [⟨some desired, [key.index.toInt64.toUInt64]⟩], .ok ()⟩]) ∨
    ∃ e : EtcdError, e.code = etcdErrKeyNotFound ∧
      tail = [⟨.get (desiredLRPSchemaPathByProcessGuid key.processGuid), .error e⟩,
        ⟨.delete (actualLRPSchemaPath key.processGuid key.index), .ok ()⟩,
        ⟨.requestLRPAuctions [⟨none, [key.index.toInt64.toUInt64]⟩], .ok ()⟩] := by
  generalize accepted : (Except.ok () : Except Error Unit) = res at auction
  cases auction with
  | unread read known => cases accepted
  | undeleted missing => cases accepted
  | @requested node desired answer decoded =>
      rcases answer with _ | _
      · cases accepted
      · exact .inl ⟨node, desired, decoded, rfl⟩
  | @deleted e answer missing =>
      rcases answer with _ | _
      · cases accepted
      · exact .inr ⟨e, missing, rfl⟩

/-- A crash that asked for an auction reports the restart truly if and only if it was answered
well. -/
theorem restartReported_iff {before : List (Exchange (Call D) Answer)} {new : ActualLRP}
    {res : Except Error Unit} (apart : ∀ x ∈ before, Apart key x)
    (unclaimed : new.state = .unclaimed) (auction : AuctionReturns fromJSON key tail res)
    (traverses : Traverses etcd
      (σ.write (actualLRPSchemaPath key.processGuid key.index) new.marshal) tail σ') :
    RestartReported fromJSON key (before ++ tail) σ' (.ok ()) ↔
      ∀ x ∈ tail, Answered fromJSON key x := by
  constructor
  · intro reported
    cases res with
    | error e =>
        have := reported.reported tail e (List.suffix_append _ _) auction.returns
        simp at this
    | ok =>
        rcases accepted_cases auction with ⟨node, desired, decoded, rfl⟩ | ⟨e, missing, rfl⟩
        · obtain ⟨rfl, -⟩ := traverses_requested traverses
          obtain ⟨_, _, index, -, -, same, mem⟩ :=
            reported.requested new rfl (recordAt_write _ _ _) unclaimed
          have own : index = key.index.toInt64.toUInt64 := by
            rcases List.mem_append.mp mem with mem | mem
            · exact absurd rfl ((apart _ mem).requestLRPAuctions _)
            · simp only [List.mem_cons, Exchange.mk.injEq, reduceCtorEq, false_and, false_or,
                List.not_mem_nil, or_false] at mem
              have starts := Call.requestLRPAuctions.inj mem.1
              simp only [List.cons.injEq, LRPStartRequest.mk.injEq, and_true] at starts
              exact starts.2
          subst own
          simp [Answered, decoded, natural_index same]
        · simp [Answered, missing]
  · intro answered
    obtain rfl := ok_of_answered auction answered
    constructor
    · intro lrp _ found _
      rcases accepted_cases auction with ⟨node, desired, decoded, rfl⟩ | ⟨e, missing, rfl⟩
      · obtain ⟨rfl, stored⟩ := traverses_requested traverses
        have natural : 0 ≤ key.index.toInt := by simpa [Answered, decoded] using answered
        exact ⟨node, desired, _, stored, decoded, toNat_index natural, by simp⟩
      · rw [recordAt_of_vacant (traverses_deleted traverses)] at found
        cases found
    · intro tail' e suffix returns
      obtain rfl := auction.eq_of_suffix (auctionReturns_of_returns returns) suffix
        fun x mem => (apart x mem).get
      cases auction.returns.unique returns

/-- **When a reported restart was really requested.** Whatever the calls of a crash are answered,
what its reply says about the restart is true if and only if the look-up of the desired LRP found
one that decodes (and the index is not negative) or reported that there is none, the delete
succeeded and the auctioneer accepted, each as far as the call was made. -/
theorem crash_reports_restart_iff {res : Except Failure Unit}
    (executed : Executes etcd σ (crashActualLRP fromJSON request) l σ' res)
    (named : request.actualLrpKey = some key) :
    RestartReported fromJSON key l σ' res ↔ ∀ x ∈ l, Answered fromJSON key x := by
  cases restart_of_executes executed named with
  | @failed _ failure apart =>
      exact iff_of_true ⟨nofun, fun _ _ _ _ => ⟨failure, rfl⟩⟩ fun x mem => (apart x mem).answered
  | late apart found claimed =>
      refine iff_of_true ⟨?_, ?_⟩ fun x mem => (apart x mem).answered
      · intro lrp _ found' unclaimed
        obtain rfl := Option.some.inj (found.symm.trans found')
        exact absurd unclaimed claimed
      · intro tail e suffix returns
        exact absurd returns (not_auction_of_apart apart suffix)
  | early apart unclaimed auction traverses =>
      rw [restartReported_iff apart unclaimed auction traverses, List.forall_mem_append]
      exact ⟨fun answered => ⟨fun x mem => (apart x mem).answered, answered⟩, And.right⟩

end

section

variable {D : Type} {fromJSON : Json → Option D} {value : Json} {desired : D}

/-- The sample instance is running and its desired LRP is there. -/
def restartStore (value : Json) : Records :=
  (sampleStore (sampleRunning 0)).write desiredPath value

/-- The store when the crash has put its record back to unclaimed. -/
def restartedStore (value : Json) : Records :=
  (restartStore value).write samplePath sampleCrashed.marshal

/-- The crash of the sample instance, with what the auctioneer answers. -/
def restartExchanges (value : Json) (desired : D) (answer : Except Unit Unit) :
    List (Exchange (Call D) Answer) :=
  [got samplePath ⟨(sampleRunning 0).marshal, 1⟩, ⟨.now, (2 : Int64)⟩, ⟨.now, (2 : Int64)⟩,
    swapped samplePath sampleCrashed 1, got desiredPath ⟨value, 2⟩,
    ⟨.requestLRPAuctions [⟨some desired, [0]⟩], answer⟩]

theorem restart_returns (decoded : fromJSON value = some desired) (answer : Except Unit Unit) :
    Returns (crashActualLRP fromJSON sampleCrash) (restartExchanges value desired answer)
      (.ok ()) := by
  exact sampleCrash_returns (.requested decoded)

theorem restart_executes (decoded : fromJSON value = some desired) (answer : Except Unit Unit) :
    Executes etcd (restartStore value) (crashActualLRP fromJSON sampleCrash)
      (restartExchanges value desired answer) (restartedStore value) (.ok ()) := by
  have other : desiredPath ≠ samplePath := desired_ne_instance _ _
  have running : (restartStore value).nodes samplePath =
      some ⟨(sampleRunning 0).marshal, 1⟩ := by
    rw [restartStore, Store.write_nodes_of_ne _ other.symm, sampleStore_nodes]
  have there : (restartedStore value).nodes desiredPath = some ⟨value, 2⟩ := by
    rw [restartedStore, Store.write_nodes_of_ne _ other]
    exact Store.write_nodes_self _ _ _
  exact ⟨restart_returns decoded answer,
    .cons ⟨running, rfl⟩ <| .cons ⟨trivial, rfl⟩ <| .cons ⟨trivial, rfl⟩ <|
    .cons ⟨⟨_, running, rfl⟩, rfl⟩ <| .cons ⟨there, rfl⟩ <| .cons ⟨trivial, rfl⟩ <| .nil _⟩

end

/-- The auctioneer accepts, and the restart is reported truly. -/
theorem crash_reports_restart_accepted : ∃ desired,
    DesiredLRP.fromJSON (fun _ => "") sampleDesired = some desired ∧
      RestartReported (DesiredLRP.fromJSON fun _ => "") sampleKey
        (restartExchanges sampleDesired desired (.ok ())) (restartedStore sampleDesired)
        (.ok ()) := by
  obtain ⟨desired, decoded, -⟩ := Option.map_eq_some_iff.mp sampleDesired_fromJSON
  refine ⟨desired, decoded, ?_⟩
  refine (crash_reports_restart_iff (restart_executes decoded (.ok ())) rfl).mpr ?_
  have other : samplePath ≠ desiredLRPSchemaPathByProcessGuid sampleKey.processGuid :=
    (desired_ne_instance _ _).symm
  have natural : 0 ≤ sampleKey.index.toInt := by decide
  simp [restartExchanges, Answered, other, natural, decoded]

/-- The auctioneer refuses. The crash returns no error and leaves the record unclaimed all the
same, with no request accepted. -/
theorem refused_restart_not_reported : ∃ desired,
    let l := restartExchanges sampleDesired desired (.error ())
    let σ' := restartedStore sampleDesired
    Executes etcd (restartStore sampleDesired)
        (crashActualLRP (DesiredLRP.fromJSON fun _ => "") sampleCrash) l σ' (.ok ()) ∧
      recordAt samplePath σ' = some sampleCrashed ∧ sampleCrashed.state = .unclaimed ∧
      (∀ starts, ⟨.requestLRPAuctions starts, .ok ()⟩ ∉ l) ∧
      ¬ RestartReported (DesiredLRP.fromJSON fun _ => "") sampleKey l σ' (.ok ()) := by
  obtain ⟨desired, decoded, -⟩ := Option.map_eq_some_iff.mp sampleDesired_fromJSON
  refine ⟨desired, restart_executes decoded (.error ()), recordAt_write _ _ _, by decide, ?_, ?_⟩
  · simp [restartExchanges]
  · intro reported
    have refused : AuctionReturns (DesiredLRP.fromJSON fun _ => "") sampleKey
        [got desiredPath ⟨sampleDesired, 2⟩,
          ⟨.requestLRPAuctions [⟨some desired, [0]⟩], .error ()⟩] (.error ErrUnknownError) :=
      .requested decoded
    obtain ⟨failure, same⟩ := reported.reported _ _ ⟨[_, _, _, _], rfl⟩ refused.returns
    cases same

/-! ### Well-formed auctions -/

section

variable {rawText : Json → RawMessage} {request : CrashActualLRPRequest} {key : ActualLRPKey}
  {σ σ' : Records} {l before tail : List (Exchange (Call DesiredLRP) Answer)}

/-- Every auction that was requested is for a desired LRP that passes `Validate` and is stored
under its own process guid, with the index of the key alone; and where there was no desired LRP,
the record is gone and no auction was requested. -/
structure AuctionsFormed (key : ActualLRPKey) (l : List (Exchange (Call DesiredLRP) Answer))
    (σ' : Records) : Prop where
  formed : ∀ starts answer, ⟨.requestLRPAuctions starts, answer⟩ ∈ l → ∀ start ∈ starts,
    ∃ desired index, start = ⟨some desired, [index]⟩ ∧ desired.Passes ∧
      desiredLRPSchemaPathByProcessGuid desired.processGuid =
        desiredLRPSchemaPathByProcessGuid key.processGuid ∧
      (UInt64.toNat index : Int) = key.index.toInt
  missing : ∀ e : EtcdError,
    ⟨.get (desiredLRPSchemaPathByProcessGuid key.processGuid), .error e⟩ ∈ l →
    e.code = etcdErrKeyNotFound →
    σ'.nodes (actualLRPSchemaPath key.processGuid key.index) = none ∧
      ∀ starts answer, ⟨.requestLRPAuctions starts, answer⟩ ∉ l

/-- The look-up of the desired LRP does not report that there is none, and one that it finds and
that decodes is stored under its own process guid, while the index is no negative number. -/
def Filed (rawText : Json → RawMessage) (key : ActualLRPKey) :
    Exchange (Call DesiredLRP) Answer → Prop
  | ⟨.get path, .error e⟩ => path = desiredLRPSchemaPathByProcessGuid key.processGuid →
      e.code ≠ etcdErrKeyNotFound
  | ⟨.get path, .ok (.leaf node)⟩ => path = desiredLRPSchemaPathByProcessGuid key.processGuid →
      ∀ desired, DesiredLRP.fromJSON rawText node.value = some desired →
        desiredLRPSchemaPathByProcessGuid desired.processGuid = path ∧ 0 ≤ key.index.toInt
  | _ => True

theorem Apart.filed {x : Exchange (Call DesiredLRP) Answer} (apart : Apart key x) :
    Filed rawText key x := by
  rcases x with ⟨c, answer⟩
  cases c with
  | get path =>
      have other : path ≠ desiredLRPSchemaPathByProcessGuid key.processGuid :=
        fun same => apart.get (congrArg Call.get same)
      rcases answer with e | node | _
      · exact fun same => absurd same other
      · exact fun same => absurd same other
      · trivial
  | delete | requestLRPAuctions | compareAndSwap | set | compareAndDelete | now | newV4 | cellById
  | stopLRPInstance => trivial

/-- Only the exchanges by which the auction was asked for count. -/
theorem auctionsFormed_append (apart : ∀ x ∈ before, Apart key x) :
    AuctionsFormed key (before ++ tail) σ' ↔ AuctionsFormed key tail σ' := by
  have requests : ∀ starts answer, (⟨.requestLRPAuctions starts, answer⟩ :
      Exchange (Call DesiredLRP) Answer) ∈ before ++ tail ↔
        ⟨.requestLRPAuctions starts, answer⟩ ∈ tail := by
    intro starts answer
    rw [List.mem_append]
    exact or_iff_right fun mem => (apart _ mem).requestLRPAuctions _ rfl
  have lookups : ∀ answer, (⟨.get (desiredLRPSchemaPathByProcessGuid key.processGuid), answer⟩ :
      Exchange (Call DesiredLRP) Answer) ∈ before ++ tail ↔
        ⟨.get (desiredLRPSchemaPathByProcessGuid key.processGuid), answer⟩ ∈ tail := by
    intro answer
    rw [List.mem_append]
    exact or_iff_right fun mem => (apart _ mem).get rfl
  constructor
  · rintro ⟨formed, missing⟩
    simp only [requests, lookups] at formed missing
    exact ⟨formed, missing⟩
  · rintro ⟨formed, missing⟩
    simp only [← requests, ← lookups] at formed missing
    exact ⟨formed, missing⟩

theorem auctionsFormed_of_apart (apart : ∀ x ∈ l, Apart key x) : AuctionsFormed key l σ' where
  formed _ _ mem := absurd rfl ((apart _ mem).requestLRPAuctions _)
  missing _ mem := absurd rfl (apart _ mem).get

/-- What asking for an auction must meet. -/
theorem auctionsFormed_iff {new : ActualLRP} {res : Except Error Unit}
    (auction : AuctionReturns (DesiredLRP.fromJSON rawText) key tail res)
    (traverses : Traverses etcd
      (σ.write (actualLRPSchemaPath key.processGuid key.index) new.marshal) tail σ') :
    AuctionsFormed key tail σ' ↔ ∀ x ∈ tail, Filed rawText key x := by
  cases auction with
  | @unread answer e read known =>
      refine iff_of_true ⟨?_, ?_⟩ ?_
      · intro starts answer mem
        simp at mem
      · intro e' mem missing
        simp only [List.mem_singleton, Exchange.mk.injEq, heq_eq_eq, true_and] at mem
        subst mem
        rw [readAnswer_missing _ missing] at read
        exact absurd (Except.error.inj read).symm known
      · rw [List.forall_mem_singleton]
        rcases answer with e' | node | _
        · intro _ missing
          rw [readAnswer_missing _ missing] at read
          exact known (Except.error.inj read).symm
        · intro _ desired decoded
          simp [readAnswer_leaf decoded] at read
        · trivial
  | @requested node desired answer decoded =>
      have filed : (∀ x ∈ ([got (desiredLRPSchemaPathByProcessGuid key.processGuid) node,
          ⟨.requestLRPAuctions [⟨some desired, [key.index.toInt64.toUInt64]⟩], answer⟩] :
            List (Exchange (Call DesiredLRP) Answer)), Filed rawText key x) ↔
          desiredLRPSchemaPathByProcessGuid desired.processGuid =
            desiredLRPSchemaPathByProcessGuid key.processGuid ∧ 0 ≤ key.index.toInt := by
        simp [Filed, got, decoded]
      rw [filed]
      constructor
      · intro formed
        obtain ⟨desired', index, same, -, own, natural⟩ :=
          formed.formed _ answer (.tail _ (.head _)) _ List.mem_cons_self
        simp only [LRPStartRequest.mk.injEq, Option.some.injEq, List.cons.injEq, and_true] at same
        obtain ⟨rfl, rfl⟩ := same
        exact ⟨own, natural_index natural⟩
      · rintro ⟨own, natural⟩
        constructor
        · intro starts answer' mem start member
          simp only [List.mem_cons, Exchange.mk.injEq, reduceCtorEq, false_and, false_or,
            Call.requestLRPAuctions.injEq, List.not_mem_nil, or_false] at mem
          rw [mem.1, List.mem_singleton] at member
          exact ⟨desired, _, member, (DesiredLRP.fromJSON_eq_some_iff.mp decoded).2, own,
            toNat_index natural⟩
        · intro e mem
          simp at mem
  | @undeleted e e' missing =>
      refine iff_of_false ?_ fun filed => filed _ List.mem_cons_self rfl missing
      intro formed
      obtain ⟨gone, -⟩ := formed.missing e List.mem_cons_self missing
      -- the record that was written back is still there
      simp only [Traverses.cons_iff, Traverses.nil_iff, etcd] at traverses
      obtain ⟨_, ⟨-, rfl⟩, _, ⟨-, rfl⟩, rfl⟩ := traverses
      simp [settle, effect] at gone
  | @deleted e answer missing =>
      refine iff_of_false ?_ fun filed => filed _ List.mem_cons_self rfl missing
      intro formed
      obtain ⟨-, none⟩ := formed.missing e List.mem_cons_self missing
      exact none _ answer (.tail _ (.tail _ (.head _)))

/-- **When only well-formed auctions are requested.** Every auction that a crash requests is well
formed, and none is requested where there is no desired LRP, if and only if the look-up never
reports that there is none and a desired LRP that it finds is stored under its own process guid and
the index is not negative. -/
theorem auctions_formed_iff {res : Except Failure Unit}
    (executed : Executes etcd σ (crashActualLRP (DesiredLRP.fromJSON rawText) request) l σ' res)
    (named : request.actualLrpKey = some key) :
    AuctionsFormed key l σ' ↔ ∀ x ∈ l, Filed rawText key x := by
  cases restart_of_executes executed named with
  | failed apart =>
      exact iff_of_true (auctionsFormed_of_apart apart) fun x mem => (apart x mem).filed
  | late apart found claimed =>
      exact iff_of_true (auctionsFormed_of_apart apart) fun x mem => (apart x mem).filed
  | early apart unclaimed auction traverses =>
      rw [auctionsFormed_append apart, auctionsFormed_iff auction traverses,
        List.forall_mem_append]
      exact ⟨fun filed => ⟨fun x mem => (apart x mem).filed, filed⟩, And.right⟩

end

/-- With its desired LRP stored under its own process guid, the crash of the sample instance
requests a well-formed auction. -/
theorem auctions_formed_sample : ∃ desired,
    DesiredLRP.fromJSON (fun _ => "") sampleDesired = some desired ∧
      AuctionsFormed sampleKey (restartExchanges sampleDesired desired (.ok ()))
        (restartedStore sampleDesired) := by
  obtain ⟨desired, decoded, guid⟩ := Option.map_eq_some_iff.mp sampleDesired_fromJSON
  refine ⟨desired, decoded, ?_⟩
  refine (auctions_formed_iff (restart_executes decoded (.ok ())) rfl).mpr ?_
  have other : samplePath ≠ desiredLRPSchemaPathByProcessGuid sampleKey.processGuid :=
    (desired_ne_instance _ _).symm
  have natural : 0 ≤ sampleKey.index.toInt := by decide
  have own : desiredLRPSchemaPathByProcessGuid desired.processGuid = desiredPath := by
    rw [guid]
    rfl
  simp [restartExchanges, Filed, got, swapped, other, natural, decoded, own]

/-- The crash of the sample instance when there is no desired LRP. -/
def cleanupExchanges : List (Exchange (Call DesiredLRP) Answer) :=
  [got samplePath ⟨(sampleRunning 0).marshal, 1⟩, ⟨.now, (2 : Int64)⟩, ⟨.now, (2 : Int64)⟩,
    swapped samplePath sampleCrashed 1, ⟨.get desiredPath, .error ⟨100⟩⟩,
    ⟨.delete samplePath, .ok ()⟩, ⟨.requestLRPAuctions [⟨none, [0]⟩], .ok ()⟩]

theorem cleanup_returns {rawText : Json → RawMessage} :
    Returns (crashActualLRP (DesiredLRP.fromJSON rawText) sampleCrash) cleanupExchanges
      (.ok ()) := by
  exact sampleCrash_returns (.deleted rfl)

/-- There is no desired LRP. The record is deleted, and then the auctioneer gets a request for a
nil desired LRP. -/
theorem auction_without_desired :
    (∃ σ', Executes etcd (sampleStore (sampleRunning 0))
      (crashActualLRP (DesiredLRP.fromJSON fun _ => "") sampleCrash) cleanupExchanges σ' (.ok ()) ∧
      σ'.nodes samplePath = none ∧ ¬ AuctionsFormed sampleKey cleanupExchanges σ') ∧
    ⟨.requestLRPAuctions [⟨none, [0]⟩], .ok ()⟩ ∈ cleanupExchanges := by
  have other : desiredPath ≠ samplePath := desired_ne_instance _ _
  have running := sampleStore_nodes (sampleRunning 0)
  have vacant : ((sampleStore (sampleRunning 0)).write samplePath
      sampleCrashed.marshal).nodes desiredPath = none := by
    simp [sampleStore, other]
  have deletable : ((sampleStore (sampleRunning 0)).write samplePath
      sampleCrashed.marshal).nodes samplePath ≠ none := by
    simp
  refine ⟨⟨_, ⟨cleanup_returns, .cons ⟨running, rfl⟩ <| .cons ⟨trivial, rfl⟩ <|
    .cons ⟨trivial, rfl⟩ <| .cons ⟨⟨_, running, rfl⟩, rfl⟩ <| .cons ⟨fun _ => vacant, rfl⟩ <|
    .cons ⟨deletable, rfl⟩ <| .cons ⟨trivial, rfl⟩ <| .nil _⟩, Store.erase_nodes_self _ _, ?_⟩,
    by simp [cleanupExchanges]⟩
  intro formed
  obtain ⟨-, none⟩ := formed.missing ⟨100⟩ (by simp [cleanupExchanges, desiredPath]) rfl
  exact none [⟨Option.none, [0]⟩] (.ok ()) (by simp [cleanupExchanges])

end Bbs.Lifecycle
