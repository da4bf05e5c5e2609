import Bbs.Etcd.ActualLRPDB

/-!
What the lifecycle operations can do, seen from their calls and answers alone.

`Success` lists the exchanges of an operation that succeeds, one constructor for
each way to succeed, together with the tests that were passed and the record that
was written. `Success.returns` says that each of them can happen, and
`Request.returns_ok` that there are no others: what comes before are failed
attempts of a retire, which changed nothing. `Request.returns_error` says that an
operation that fails has changed nothing at all.

Nothing here mentions the store. Between two exchanges other requests may have
changed it in any way.
-/

namespace Bbs.Etcd

open Bbs.Interaction Bbs.Versioned Bbs.Models

variable {D : Type}

/-- Exchanges that applied no change. -/
def Quiet (l : List (Exchange (Call D) Answer)) : Prop :=
  ∀ x ∈ l, effect x = none

@[simp] theorem quiet_nil : Quiet ([] : List (Exchange (Call D) Answer)) :=
  fun _ h => nomatch h

@[simp] theorem quiet_cons {x : Exchange (Call D) Answer} {l : List (Exchange (Call D) Answer)} :
    Quiet (x :: l) ↔ effect x = none ∧ Quiet l :=
  List.forall_mem_cons

@[simp] theorem quiet_append {l m : List (Exchange (Call D) Answer)} :
    Quiet (l ++ m) ↔ Quiet l ∧ Quiet m :=
  List.forall_mem_append

/-! ### Reading -/

/-- What a read makes of the answer to its `Get`. -/
def readAnswer {α : Type} (decode : Json → Option α) :
    Except EtcdError Fetched → Except Error (α × Nat)
  | .error e => .error (if e.code = etcdErrKeyNotFound then ErrResourceNotFound else ErrUnknownError)
  | .ok found => decodeFetched decode found

theorem rawActualLRP_eq (processGuid : String) (index : Int32) :
    (rawActuaLLRPByProcessGuidAndIndex processGuid index : Operation D _) =
      .call (.get (actualLRPSchemaPath processGuid index)) fun answer =>
        .ret (readAnswer ActualLRP.unmarshal answer) := by
  simp only [rawActuaLLRPByProcessGuidAndIndex, fetchRaw, Program.call_bind, Program.ret_bind]
  congr
  funext answer
  rcases answer with e | found
  · by_cases h : e.code = etcdErrKeyNotFound <;> simp [readAnswer, h]
  · rfl

theorem desiredLRP_eq (fromJSON : Json → Option D) (processGuid : String) :
    desiredLRPByProcessGuid fromJSON processGuid =
      .call (.get (desiredLRPSchemaPathByProcessGuid processGuid)) fun answer =>
        .ret ((readAnswer fromJSON answer).map Prod.fst) := by
  simp only [desiredLRPByProcessGuid, fetchRaw, Program.call_bind, Program.ret_bind]
  congr
  funext answer
  rcases answer with e | found
  · by_cases h : e.code = etcdErrKeyNotFound <;> simp [readAnswer, h] <;> rfl
  · rfl

/-- A read succeeds on a leaf that decodes, and gives its version. -/
theorem readAnswer_ok {α : Type} {decode : Json → Option α} {answer : Except EtcdError Fetched}
    {a : α} {version : Nat} (h : readAnswer decode answer = .ok (a, version)) :
    ∃ node, answer = .ok (.leaf node) ∧ decode node.value = some a ∧
      version = node.modifiedIndex := by
  rcases answer with e | found
  · simp [readAnswer] at h
  · cases found with
    | directory => simp [readAnswer, decodeFetched] at h
    | leaf node =>
        cases hd : decode node.value with
        | none => simp [readAnswer, decodeFetched, hd] at h
        | some b =>
            simp only [readAnswer, decodeFetched, hd, Except.ok.injEq, Prod.mk.injEq] at h
            exact ⟨node, rfl, by rw [hd, h.1], h.2.symm⟩

@[simp] theorem readAnswer_leaf {α : Type} {decode : Json → Option α} {node : Node Json} {a : α}
    (h : decode node.value = some a) :
    readAnswer decode (.ok (.leaf node)) = .ok (a, node.modifiedIndex) := by
  simp [readAnswer, decodeFetched, h]

@[simp] theorem readAnswer_missing {α : Type} (decode : Json → Option α) {e : EtcdError}
    (h : e.code = etcdErrKeyNotFound) :
    readAnswer decode (.error e) = .error ErrResourceNotFound := by
  simp [readAnswer, h]

/-- A read reports a missing resource only when etcd reported a missing key. -/
theorem readAnswer_notFound {α : Type} {decode : Json → Option α}
    {answer : Except EtcdError Fetched}
    (h : readAnswer decode answer = .error ErrResourceNotFound) :
    ∃ e, answer = .error e ∧ e.code = etcdErrKeyNotFound := by
  have unknown : ErrUnknownError ≠ ErrResourceNotFound := by decide
  have malformed : ErrDeserializeJSON ≠ ErrResourceNotFound := by decide
  rcases answer with e | found
  · by_cases code : e.code = etcdErrKeyNotFound
    · exact ⟨e, rfl, code⟩
    · simp only [readAnswer, code, if_false, Except.error.injEq] at h
      exact absurd h unknown
  · cases found with
    | directory =>
        simp only [readAnswer, decodeFetched, Except.error.injEq] at h
        exact absurd h malformed
    | leaf node =>
        cases hd : decode node.value with
        | none =>
            simp only [readAnswer, decodeFetched, hd, Except.error.injEq] at h
            exact absurd h malformed
        | some b => simp [readAnswer, decodeFetched, hd] at h

/-! ### Ways to succeed -/

/-- A leaf was read. -/
abbrev got (path : String) (node : Node Json) : Exchange (Call D) Answer :=
  ⟨.get path, .ok (.leaf node)⟩

/-- A conditional write was applied. -/
abbrev swapped (path : String) (lrp : ActualLRP) (prevIndex : Nat) : Exchange (Call D) Answer :=
  ⟨.compareAndSwap path lrp.marshal prevIndex, .ok ()⟩

/-- A conditional delete was applied. -/
abbrev removed (path : String) (prevIndex : Nat) : Exchange (Call D) Answer :=
  ⟨.compareAndDelete path prevIndex, .ok ()⟩

/-- What a crash does after its write when it restarts immediately. Only the last
way changes the store. -/
inductive Auction (fromJSON : Json → Option D) (key : ActualLRPKey) :
    List (Exchange (Call D) Answer) → Prop where
  | unread {answer : Except EtcdError Fetched} {e : Error} :
      readAnswer fromJSON answer = .error e → e ≠ ErrResourceNotFound →
      Auction fromJSON key
        [⟨.get (desiredLRPSchemaPathByProcessGuid key.processGuid), answer⟩]
  | requested {node : Node Json} {desired : D} {answer : Except Unit Unit} :
      fromJSON node.value = some desired →
      Auction fromJSON key
        [got (desiredLRPSchemaPathByProcessGuid key.processGuid) node,
          ⟨.requestLRPAuctions [⟨some desired, [key.index.toInt64.toUInt64]⟩], answer⟩]
  | undeleted {e e' : EtcdError} : e.code = etcdErrKeyNotFound →
      Auction fromJSON key
        [⟨.get (desiredLRPSchemaPathByProcessGuid key.processGuid), .error e⟩,
          ⟨.delete (actualLRPSchemaPath key.processGuid key.index), .error e'⟩]
  | deleted {e : EtcdError} {answer : Except Unit Unit} : e.code = etcdErrKeyNotFound →
      Auction fromJSON key
        [⟨.get (desiredLRPSchemaPathByProcessGuid key.processGuid), .error e⟩,
          ⟨.delete (actualLRPSchemaPath key.processGuid key.index), .ok ()⟩,
          ⟨.requestLRPAuctions [⟨none, [key.index.toInt64.toUInt64]⟩], answer⟩]

/-- The same with what `requestLRPAuctionForLRPKey` returns. -/
inductive AuctionReturns (fromJSON : Json → Option D) (key : ActualLRPKey) :
    List (Exchange (Call D) Answer) → Except Error Unit → Prop where
  | unread {answer : Except EtcdError Fetched} {e : Error} :
      readAnswer fromJSON answer = .error e → e ≠ ErrResourceNotFound →
      AuctionReturns fromJSON key
        [⟨.get (desiredLRPSchemaPathByProcessGuid key.processGuid), answer⟩] (.error e)
  | requested {node : Node Json} {desired : D} {answer : Except Unit Unit} :
      fromJSON node.value = some desired →
      AuctionReturns fromJSON key
        [got (desiredLRPSchemaPathByProcessGuid key.processGuid) node,
          ⟨.requestLRPAuctions [⟨some desired, [key.index.toInt64.toUInt64]⟩], answer⟩]
        (answer.mapError fun _ => ErrUnknownError)
  | undeleted {e e' : EtcdError} : e.code = etcdErrKeyNotFound →
      AuctionReturns fromJSON key
        [⟨.get (desiredLRPSchemaPathByProcessGuid key.processGuid), .error e⟩,
          ⟨.delete (actualLRPSchemaPath key.processGuid key.index), .error e'⟩]
        (.error ErrUnknownError)
  | deleted {e : EtcdError} {answer : Except Unit Unit} : e.code = etcdErrKeyNotFound →
      AuctionReturns fromJSON key
        [⟨.get (desiredLRPSchemaPathByProcessGuid key.processGuid), .error e⟩,
          ⟨.delete (actualLRPSchemaPath key.processGuid key.index), .ok ()⟩,
          ⟨.requestLRPAuctions [⟨none, [key.index.toInt64.toUInt64]⟩], answer⟩]
        (answer.mapError fun _ => ErrUnknownError)

/-- How a request rewrites the record it read: the guards that were passed, the
clock readings that were taken and the record to be written. -/
inductive Update : Request → ActualLRP → List Int64 → ActualLRP → Prop where
  | claim {request : ClaimActualLRPRequest} {instanceKey : ActualLRPInstanceKey} {lrp : ActualLRP}
      (carried : request.actualLrpInstanceKey = some instanceKey)
      (allowed : lrp.allowsTransitionTo (some lrp.key) (some instanceKey) .claimed = true)
      (checked : (lrp.claimedBy instanceKey).validate = none) :
      Update (.claim request) lrp [] (lrp.claimedBy instanceKey)
  | start {key : ActualLRPKey} {instanceKey : ActualLRPInstanceKey} {netInfo : ActualLRPNetInfo}
      {lrp : ActualLRP} {now : Int64}
      (different : ¬ lrp.isStarted ⟨some key, some instanceKey, some netInfo⟩ = true)
      (allowed : lrp.allowsTransitionTo (some key) (some instanceKey) .running = true) :
      Update (.start ⟨some key, some instanceKey, some netInfo⟩) lrp [now]
        (lrp.startedBy instanceKey netInfo now)
  | crash {request : CrashActualLRPRequest} {lrp : ActualLRP} {readAt now : Int64}
      (allowed : lrp.allowsTransitionTo request.actualLrpKey request.actualLrpInstanceKey .crashed =
        true)
      (crashes : lrp.cannotCrash request.actualLrpInstanceKey = false) :
      Update (.crash request) lrp [readAt, now] (lrp.crashOutcome readAt now request.errorMessage)
  | fail {request : FailActualLRPRequest} {lrp : ActualLRP} {now : Int64}
      (unclaimed : lrp.state = .unclaimed) :
      Update (.fail request) lrp [now] (lrp.failedWith request.errorMessage now)

/-- What follows the conditional write of a request. -/
def Closing (fromJSON : Json → Option D) (request : Request) (new : ActualLRP)
    (tail : List (Exchange (Call D) Answer)) : Prop :=
  match request with
  | .crash request =>
      if new.state = .unclaimed
      then ∃ key, request.actualLrpKey = some key ∧ Auction fromJSON key tail
      else tail = []
  | _ => tail = []

/-- Why a request deletes the record it read, and what it asks in between. -/
inductive Removal : Request → ActualLRP → List (Exchange (Call D) Answer) → Prop where
  | asked {processGuid : String} {index : Int32} {lrp : ActualLRP} :
      Removal (.remove processGuid index) lrp []
  | unheld {request : RetireActualLRPRequest} {lrp : ActualLRP} :
      lrp.state = .unclaimed ∨ lrp.state = .crashed → Removal (.retire request) lrp []
  | lost {request : RetireActualLRPRequest} {lrp : ActualLRP} :
      ¬ (lrp.state = .unclaimed ∨ lrp.state = .crashed) →
      Removal (.retire request) lrp
        [⟨.cellById lrp.instanceKey.cellId, .error ErrResourceNotFound⟩]

/-- One attempt of a retire at the record under `path`, and what comes of it. -/
inductive Attempt (request : RetireActualLRPRequest) (path : String) :
    List (Exchange (Call D) Answer) → Except Error Unit → Prop where
  | unread {answer : Except EtcdError Fetched} {e : Error}
      (read : readAnswer ActualLRP.unmarshal answer = .error e) :
      Attempt request path [⟨.get path, answer⟩] (.error e)
  | removal {node : Node Json} {lrp : ActualLRP} {asked : List (Exchange (Call D) Answer)}
      {answer : Except EtcdError Unit} (decoded : ActualLRP.unmarshal node.value = some lrp)
      (removal : Removal (.retire request) lrp asked) :
      Attempt request path
        (got path node :: (asked ++
          [⟨.compareAndDelete (actualLRPSchemaPath lrp.key.processGuid lrp.key.index)
            node.modifiedIndex, answer⟩]))
        (answer.mapError fun _ => ErrActualLRPCannotBeRemoved)
  | unlocated {node : Node Json} {lrp : ActualLRP} {e : Error}
      (decoded : ActualLRP.unmarshal node.value = some lrp)
      (held : ¬ (lrp.state = .unclaimed ∨ lrp.state = .crashed)) (known : e ≠ ErrResourceNotFound) :
      Attempt request path
        [got path node, ⟨.cellById lrp.instanceKey.cellId, .error e⟩] (.error e)
  | stop {node : Node Json} {lrp : ActualLRP} {cell : CellPresence} {answer : Except Unit Unit}
      (decoded : ActualLRP.unmarshal node.value = some lrp)
      (held : ¬ (lrp.state = .unclaimed ∨ lrp.state = .crashed)) :
      Attempt request path
        [got path node, ⟨.cellById lrp.instanceKey.cellId, .ok cell⟩,
          ⟨.stopLRPInstance cell.repAddress lrp.key lrp.instanceKey, answer⟩]
        (answer.mapError fun _ => ErrActualLRPCannotBeStopped)

/-- What a request that wrote `new` returns. -/
def Request.reply (new : ActualLRP) : Request → Option ActualLRP
  | .claim _ => some new
  | .start _ => some new
  | _ => none

/-- The exchanges and the result of a request that succeeds, a retire being counted
from its last attempt. -/
inductive Success (fromJSON : Json → Option D) :
    Request → List (Exchange (Call D) Answer) → Option ActualLRP → Prop where
  | swap {request : Request} {path : String} {node : Node Json} {lrp new : ActualLRP}
      {clocks : List Int64} {tail : List (Exchange (Call D) Answer)}
      (named : request.path = some path)
      (decoded : ActualLRP.unmarshal node.value = some lrp)
      (update : Update request lrp clocks new) (closing : Closing fromJSON request new tail) :
      Success fromJSON request
        (got path node :: ((clocks.map fun now => ⟨.now, now⟩) ++
          swapped path new node.modifiedIndex :: tail))
        (request.reply new)
  | create {key : ActualLRPKey} {instanceKey : ActualLRPInstanceKey} {netInfo : ActualLRPNetInfo}
      {e : EtcdError} {guid : String} {now : Int64} (missing : e.code = etcdErrKeyNotFound) :
      Success fromJSON (.start ⟨some key, some instanceKey, some netInfo⟩)
        [⟨.get (actualLRPSchemaPath key.processGuid key.index), .error e⟩, ⟨.newV4, .ok guid⟩,
          ⟨.now, now⟩,
          ⟨.set (actualLRPSchemaPath key.processGuid key.index)
            (runningActualLRP key instanceKey netInfo now guid).marshal, .ok ()⟩]
        (some (runningActualLRP key instanceKey netInfo now guid))
  | keep {request : StartActualLRPRequest} {path : String} {node : Node Json} {lrp : ActualLRP}
      (named : (Request.start request).path = some path)
      (decoded : ActualLRP.unmarshal node.value = some lrp)
      (same : lrp.isStarted request = true) :
      Success fromJSON (.start request) [got path node] (some lrp)
  | remove {request : Request} {path : String} {node : Node Json} {lrp : ActualLRP}
      {asked : List (Exchange (Call D) Answer)} (named : request.path = some path)
      (decoded : ActualLRP.unmarshal node.value = some lrp) (removal : Removal request lrp asked) :
      Success fromJSON request
        (got path node :: (asked ++
          [removed (actualLRPSchemaPath lrp.key.processGuid lrp.key.index) node.modifiedIndex]))
        none
  | stop {request : RetireActualLRPRequest} {path : String} {node : Node Json} {lrp : ActualLRP}
      {cell : CellPresence} (named : (Request.retire request).path = some path)
      (decoded : ActualLRP.unmarshal node.value = some lrp)
      (held : ¬ (lrp.state = .unclaimed ∨ lrp.state = .crashed)) :
      Success fromJSON (.retire request)
        [got path node, ⟨.cellById lrp.instanceKey.cellId, .ok cell⟩,
          ⟨.stopLRPInstance cell.repAddress lrp.key lrp.instanceKey, .ok ()⟩]
        none

/-! ### Inversion, operation by operation -/

/-- A request that ended with the given result did what `Success` lists, or
nothing. -/
def Settled (fromJSON : Json → Option D) (request : Request)
    (l : List (Exchange (Call D) Answer)) : Except Failure (Option ActualLRP) → Prop
  | .ok res => Success fromJSON request l res
  | .error _ => Quiet l

section Inversion

variable {fromJSON : Json → Option D} {l : List (Exchange (Call D) Answer)}

/-- Ending in an error after exchanges that changed nothing. -/
theorem settled_of_refusal {α : Type} {g : α → Option ActualLRP} {request : Request}
    {failure : Failure} {res : Except Failure α}
    (h : Returns (pure (.error failure) : Operation D (Except Failure α)) l res)
    (before : List (Exchange (Call D) Answer)) (quiet : Quiet before) :
    Settled fromJSON request (before ++ l) (res.map g) := by
  simp only [Program.pure_eq_ret, Returns.ret_iff] at h
  obtain ⟨rfl, rfl⟩ := h
  simpa [Settled, Except.map] using quiet

/-- What starts by reading a record goes on after a failed read, or with the record it found. -/
theorem returns_read {α : Type} {processGuid : String} {index : Int32}
    {f : Except Error (ActualLRP × Nat) → Operation D α} {a : α}
    (h : Returns (rawActuaLLRPByProcessGuidAndIndex processGuid index >>= f) l a) :
    (∃ answer e rest, readAnswer ActualLRP.unmarshal answer = .error e ∧
      l = ⟨.get (actualLRPSchemaPath processGuid index), answer⟩ :: rest ∧
      Returns (f (.error e)) rest a) ∨
    ∃ node lrp rest, ActualLRP.unmarshal node.value = some lrp ∧
      l = got (actualLRPSchemaPath processGuid index) node :: rest ∧
      Returns (f (.ok (lrp, node.modifiedIndex))) rest a := by
  rw [rawActualLRP_eq] at h
  simp only [Program.call_bind, Program.ret_bind, Returns.call_iff] at h
  obtain ⟨answer, rest, rfl, h⟩ := h
  cases read : readAnswer ActualLRP.unmarshal answer with
  | error e => exact .inl ⟨answer, e, rest, read, rfl, read ▸ h⟩
  | ok found =>
      obtain ⟨lrp, version⟩ := found
      rw [read] at h
      obtain ⟨node, rfl, decoded, rfl⟩ := readAnswer_ok read
      exact .inr ⟨node, lrp, rest, decoded, rfl, h⟩

theorem claim_settled {request : ClaimActualLRPRequest} {res : Except Failure ActualLRP}
    (returns : Returns (claimActualLRP request) l res) :
    Settled fromJSON (.claim request) l (res.map some) := by
  unfold claimActualLRP at returns
  rcases returns_read returns with
    ⟨answer, e, rest, read, rfl, h⟩ | ⟨node, lrp, rest, decoded, rfl, h⟩
  · exact settled_of_refusal h [_] (by simp [effect])
  dsimp only at h
  split at h
  · exact settled_of_refusal h [_] (by simp [effect])
  rename_i allowed
  rw [Decidable.not_not] at allowed
  cases carried : request.actualLrpInstanceKey with
  | none =>
      simp only [carried] at h
      exact settled_of_refusal h [_] (by simp [effect])
  | some instanceKey =>
      simp only [carried] at h allowed
      cases checked : (lrp.claimedBy instanceKey).validate with
      | some err =>
          simp only [checked] at h
          exact settled_of_refusal h [_] (by simp [effect])
      | none =>
          simp only [checked, Program.call_bind, Program.ret_bind, Returns.call_iff] at h
          obtain ⟨answer, rest, rfl, h⟩ := h
          rcases answer with e | ⟨⟩
          · exact settled_of_refusal h [_, _] (by simp [effect])
          · simp only [Program.pure_eq_ret, Returns.ret_iff] at h
            obtain ⟨rfl, rfl⟩ := h
            exact .swap rfl decoded (.claim carried allowed checked) rfl

theorem createRunning_settled {key : ActualLRPKey} {request : StartActualLRPRequest}
    {e : EtcdError} {res : Except Failure ActualLRP} (named : request.actualLrpKey = some key)
    (missing : e.code = etcdErrKeyNotFound)
    (h : Returns (createRunningActualLRP key request.actualLrpInstanceKey
      request.actualLrpNetInfo) l res) :
    Settled fromJSON (.start request)
      (⟨.get (actualLRPSchemaPath key.processGuid key.index), .error e⟩ :: l) (res.map some) := by
  rcases request with ⟨lrpKey, instanceKey, netInfo⟩
  simp only at named
  subst named
  simp only [createRunningActualLRP, Program.call_bind, Returns.call_iff] at h
  obtain ⟨answer, rest, rfl, h⟩ := h
  rcases answer with _ | guid
  · exact settled_of_refusal h [_, _] (by simp [effect])
  rcases instanceKey with _ | instanceKey
  · exact settled_of_refusal h [_, _] (by simp [effect])
  rcases netInfo with _ | netInfo
  · exact settled_of_refusal h [_, _] (by simp [effect])
  simp only [Program.ret_bind, Returns.call_iff] at h
  obtain ⟨now, rest, rfl, answer, rest', rfl, h⟩ := h
  rcases answer with e' | ⟨⟩
  · exact settled_of_refusal h [_, _, _, _] (by simp [effect])
  · simp only [Program.pure_eq_ret, Returns.ret_iff] at h
    obtain ⟨rfl, rfl⟩ := h
    exact .create missing

theorem start_settled {request : StartActualLRPRequest} {res : Except Failure ActualLRP}
    (returns : Returns (startActualLRP request) l res) :
    Settled fromJSON (.start request) l (res.map some) := by
  cases named : request.actualLrpKey with
  | none =>
      simp only [startActualLRP, named] at returns
      exact settled_of_refusal returns [] quiet_nil
  | some key =>
      simp only [startActualLRP, named] at returns
      rcases returns_read returns with
        ⟨answer, e, rest, read, rfl, h⟩ | ⟨node, lrp, rest, decoded, rfl, h⟩
      · dsimp only at h
        split at h
        · rename_i notFound
          subst notFound
          obtain ⟨e, rfl, missing⟩ := readAnswer_notFound read
          exact createRunning_settled named missing h
        · exact settled_of_refusal h [_] (by simp [effect])
      dsimp only at h
      split at h
      · rename_i same
        simp only [Program.pure_eq_ret, Returns.ret_iff] at h
        obtain ⟨rfl, rfl⟩ := h
        exact .keep (by simp [Request.path, Request.slot, named]) decoded same
      rename_i different
      split at h
      · exact settled_of_refusal h [_] (by simp [effect])
      rename_i allowed
      rw [Decidable.not_not] at allowed
      rcases request with ⟨lrpKey, instanceKey, netInfo⟩
      simp only at named
      subst named
      simp only [Program.call_bind, Program.ret_bind, Returns.call_iff] at h
      obtain ⟨now, rest, rfl, h⟩ := h
      rcases instanceKey with _ | instanceKey
      · exact settled_of_refusal h [_, _] (by simp [effect])
      rcases netInfo with _ | netInfo
      · exact settled_of_refusal h [_, _] (by simp [effect])
      simp only [Returns.call_iff] at h
      obtain ⟨answer, rest', rfl, h⟩ := h
      rcases answer with e' | ⟨⟩
      · exact settled_of_refusal h [_, _, _] (by simp [effect])
      · simp only [Program.pure_eq_ret, Returns.ret_iff] at h
        obtain ⟨rfl, rfl⟩ := h
        exact .swap rfl decoded (.start different allowed) rfl

theorem auctionReturns_of_returns {key : ActualLRPKey} {res : Except Error Unit}
    (h : Returns (requestLRPAuctionForLRPKey fromJSON key) l res) :
    AuctionReturns fromJSON key l res := by
  simp only [requestLRPAuctionForLRPKey, desiredLRP_eq, Program.call_bind, Program.ret_bind,
    Returns.call_iff] at h
  obtain ⟨answer, rest, rfl, h⟩ := h
  cases read : readAnswer fromJSON answer with
  | error e =>
      simp only [read, Except.map] at h
      split at h
      · rename_i notFound
        subst notFound
        obtain ⟨e, rfl, missing⟩ := readAnswer_notFound read
        simp only [Returns.call_iff] at h
        obtain ⟨answer, rest, rfl, h⟩ := h
        rcases answer with e' | ⟨⟩
        · simp only [Program.pure_eq_ret, Returns.ret_iff] at h
          obtain ⟨rfl, rfl⟩ := h
          exact .undeleted missing
        · simp only [requestLRPAuctionForLRPKey.requestAuction, Program.call_bind,
            Returns.call_iff] at h
          obtain ⟨answer, rest, rfl, h⟩ := h
          rcases answer with _ | _ <;>
            (simp only [Program.ret_bind, Program.pure_eq_ret, Returns.ret_iff] at h
             obtain ⟨rfl, rfl⟩ := h
             exact .deleted missing)
      · rename_i known
        simp only [Program.pure_eq_ret, Returns.ret_iff] at h
        obtain ⟨rfl, rfl⟩ := h
        exact .unread read known
  | ok found =>
      obtain ⟨desired, version⟩ := found
      obtain ⟨node, rfl, decoded, -⟩ := readAnswer_ok read
      simp only [read, Except.map, requestLRPAuctionForLRPKey.requestAuction, Program.call_bind,
        Returns.call_iff] at h
      obtain ⟨answer, rest, rfl, h⟩ := h
      rcases answer with _ | _ <;>
        (simp only [Program.ret_bind, Program.pure_eq_ret, Returns.ret_iff] at h
         obtain ⟨rfl, rfl⟩ := h
         exact .requested decoded)

theorem AuctionReturns.auction {key : ActualLRPKey} {res : Except Error Unit}
    (returns : AuctionReturns fromJSON key l res) : Auction fromJSON key l := by
  cases returns with
  | unread read known => exact .unread read known
  | requested decoded => exact .requested decoded
  | undeleted missing => exact .undeleted missing
  | deleted missing => exact .deleted missing

/-- A request for an auction begins with the look-up of the desired LRP, and reads no other
node. -/
theorem AuctionReturns.looks {key : ActualLRPKey} {res : Except Error Unit}
    (returns : AuctionReturns fromJSON key l res) :
    ∃ answer rest, l = ⟨.get (desiredLRPSchemaPathByProcessGuid key.processGuid), answer⟩ :: rest ∧
      ∀ x ∈ rest, ∀ path, x.call ≠ .get path := by
  cases returns with
  | unread | requested | undeleted | deleted => exact ⟨_, _, rfl, by simp⟩

/-- The request for an auction is found in a longer play by its look-up. -/
theorem AuctionReturns.eq_of_suffix {key : ActualLRPKey} {res res' : Except Error Unit}
    {before tail tail' : List (Exchange (Call D) Answer)}
    (returns : AuctionReturns fromJSON key tail res)
    (returns' : AuctionReturns fromJSON key tail' res') (suffix : tail' <:+ before ++ tail)
    (elsewhere : ∀ x ∈ before,
      x.call ≠ .get (desiredLRPSchemaPathByProcessGuid key.processGuid)) : tail' = tail := by
  obtain ⟨answer, rest, rfl, later⟩ := returns.looks
  obtain ⟨answer', rest', rfl, -⟩ := returns'.looks
  obtain ⟨front, whole⟩ := suffix
  obtain ⟨-, same, rfl⟩ := (List.append_cons_inj_of_notMem
    (fun mem => elsewhere _ mem rfl) (fun mem => later _ mem _ rfl)).mp whole.symm
  rw [same]

/-- An exchange of a crash that has not come to write. -/
def Unwritten (request : Request) (x : Exchange (Call D) Answer) : Prop :=
  (∃ path, request.path = some path ∧ x.call = .get path) ∨ x.call = .now ∨
    ∃ path value version e, x = ⟨.compareAndSwap path value version, .error e⟩

theorem Unwritten.effect {request : Request} {x : Exchange (Call D) Answer}
    (unwritten : Unwritten request x) : effect x = none := by
  rcases x with ⟨c, answer⟩
  rcases unwritten with ⟨path, -, rfl⟩ | rfl | ⟨path, value, version, e, same⟩
  · rfl
  · rfl
  · cases same
    rfl

/-- What a crash has done: it was refused before it wrote, or it wrote the record back and then,
if it restarts the instance, asked for an auction. -/
inductive CrashReturns (fromJSON : Json → Option D) (request : CrashActualLRPRequest) :
    List (Exchange (Call D) Answer) → Except Failure Unit → Prop where
  | refused {l : List (Exchange (Call D) Answer)} {failure : Failure} :
      (∀ x ∈ l, Unwritten (.crash request) x) → CrashReturns fromJSON request l (.error failure)
  | crashed {key : ActualLRPKey} {node : Node Json} {lrp : ActualLRP} {readAt now : Int64}
      (named : request.actualLrpKey = some key)
      (decoded : ActualLRP.unmarshal node.value = some lrp)
      (update : Update (.crash request) lrp [readAt, now]
        (lrp.crashOutcome readAt now request.errorMessage))
      (late : ¬ lrp.newCrashCount readAt < defaultImmediateRestarts) :
      CrashReturns fromJSON request
        [got (actualLRPSchemaPath key.processGuid key.index) node, ⟨.now, readAt⟩, ⟨.now, now⟩,
          swapped (actualLRPSchemaPath key.processGuid key.index)
            (lrp.crashOutcome readAt now request.errorMessage) node.modifiedIndex]
        (.ok ())
  | restarted {key : ActualLRPKey} {node : Node Json} {lrp : ActualLRP} {readAt now : Int64}
      {tail : List (Exchange (Call D) Answer)} {res : Except Error Unit}
      (named : request.actualLrpKey = some key)
      (decoded : ActualLRP.unmarshal node.value = some lrp)
      (update : Update (.crash request) lrp [readAt, now]
        (lrp.crashOutcome readAt now request.errorMessage))
      (early : lrp.newCrashCount readAt < defaultImmediateRestarts)
      (auction : AuctionReturns fromJSON key tail res) :
      CrashReturns fromJSON request
        (got (actualLRPSchemaPath key.processGuid key.index) node :: ⟨.now, readAt⟩ ::
          ⟨.now, now⟩ :: swapped (actualLRPSchemaPath key.processGuid key.index)
            (lrp.crashOutcome readAt now request.errorMessage) node.modifiedIndex :: tail)
        (.ok ())

theorem crashReturns_of_refusal {request : CrashActualLRPRequest} {failure : Failure}
    {res : Except Failure Unit} {before : List (Exchange (Call D) Answer)}
    (h : Returns (pure (.error failure) : Operation D (Except Failure Unit)) l res)
    (unwritten : ∀ x ∈ before, Unwritten (.crash request) x) :
    CrashReturns fromJSON request (before ++ l) res := by
  simp only [Program.pure_eq_ret, Returns.ret_iff] at h
  obtain ⟨rfl, rfl⟩ := h
  rw [List.append_nil]
  exact .refused unwritten

theorem crashReturns_of_returns {request : CrashActualLRPRequest} {res : Except Failure Unit}
    (returns : Returns (crashActualLRP fromJSON request) l res) :
    CrashReturns fromJSON request l res := by
  cases named : request.actualLrpKey with
  | none =>
      simp only [crashActualLRP, named] at returns
      exact @crashReturns_of_refusal _ _ _ _ _ _ [] returns (by simp)
  | some key =>
      have path : (Request.crash request).path =
          some (actualLRPSchemaPath key.processGuid key.index) := by
        simp [Request.path, Request.slot, named]
      simp only [crashActualLRP, named] at returns
      rcases returns_read returns with
        ⟨answer, e, rest, read, rfl, h⟩ | ⟨node, lrp, rest, decoded, rfl, h⟩
      · exact @crashReturns_of_refusal _ _ _ _ _ _ [_] h (by simp [Unwritten, path])
      simp only [Program.call_bind, Program.ret_bind, Returns.call_iff] at h
      obtain ⟨readAt, rest, rfl, h⟩ := h
      split at h
      · exact @crashReturns_of_refusal _ _ _ _ _ _ [_, _] h (by simp [Unwritten, path])
      rename_i allowed
      rw [Decidable.not_not] at allowed
      split at h
      · exact @crashReturns_of_refusal _ _ _ _ _ _ [_, _] h (by simp [Unwritten, path])
      rename_i crashes
      rw [Bool.not_eq_true] at crashes
      simp only [Returns.call_iff, ActualLRP.crashedWith_shouldRestart] at h
      obtain ⟨now, rest, rfl, answer, rest', rfl, h⟩ := h
      rw [ActualLRP.crashOutcome_eq]
      rw [← named] at allowed
      have update : Update (.crash request) lrp [readAt, now] _ := .crash allowed crashes
      rcases answer with e | ⟨⟩
      · exact @crashReturns_of_refusal _ _ _ _ _ _ [_, _, _, _] h (by simp [Unwritten, path])
      by_cases restart : lrp.newCrashCount readAt < defaultImmediateRestarts
      · simp only [restart, decide_true, if_true, Returns.bind_iff] at h
        obtain ⟨tail, _, _, rfl, auction, h⟩ := h
        simp only [Program.pure_eq_ret, Returns.ret_iff] at h
        obtain ⟨rfl, rfl⟩ := h
        rw [List.append_nil]
        exact .restarted named decoded update restart (auctionReturns_of_returns auction)
      · simp only [restart, decide_false, Bool.false_eq_true, if_false, Program.pure_eq_ret,
          Returns.ret_iff] at h
        obtain ⟨rfl, rfl⟩ := h
        exact .crashed named decoded update restart

theorem crash_settled {request : CrashActualLRPRequest} {res : Except Failure Unit}
    (h : Returns (crashActualLRP fromJSON request) l res) :
    Settled fromJSON (.crash request) l (res.map fun _ => none) := by
  cases crashReturns_of_returns h with
  | refused unwritten => exact fun x mem => (unwritten x mem).effect
  | crashed named decoded update late =>
      refine .swap (by simp [Request.path, Request.slot, named]) decoded update ?_
      simp [Closing, ActualLRP.crashOutcome, late]
  | restarted named decoded update early auction =>
      refine .swap (by simp [Request.path, Request.slot, named]) decoded update ?_
      simp only [Closing, ActualLRP.crashOutcome, early, if_true]
      exact ⟨_, named, auction.auction⟩

theorem fail_settled {request : FailActualLRPRequest} {res : Except Failure Unit}
    (returns : Returns (failActualLRP request) l res) :
    Settled fromJSON (.fail request) l (res.map fun _ => none) := by
  cases named : request.actualLrpKey with
  | none =>
      simp only [failActualLRP, named] at returns
      exact settled_of_refusal returns [] quiet_nil
  | some key =>
      simp only [failActualLRP, named] at returns
      rcases returns_read returns with
        ⟨answer, e, rest, read, rfl, h⟩ | ⟨node, lrp, rest, decoded, rfl, h⟩
      · exact settled_of_refusal h [_] (by simp [effect])
      dsimp only at h
      split at h
      · exact settled_of_refusal h [_] (by simp [effect])
      rename_i unclaimed
      rw [ne_eq, Decidable.not_not] at unclaimed
      simp only [Program.call_bind, Program.ret_bind, Returns.call_iff] at h
      obtain ⟨now, rest, rfl, answer, rest', rfl, h⟩ := h
      rcases answer with e | ⟨⟩
      · exact settled_of_refusal h [_, _, _] (by simp [effect])
      · simp only [Program.pure_eq_ret, Returns.ret_iff] at h
        obtain ⟨rfl, rfl⟩ := h
        exact .swap (by simp [Request.path, Request.slot, named]) decoded (.fail unclaimed) rfl

theorem remove_returns {lrp : ActualLRP} {version : Nat} {res : Except Error Unit}
    (h : Returns (removeActualLRP lrp version) l res) :
    ∃ answer : Except EtcdError Unit,
      l = [⟨.compareAndDelete (actualLRPSchemaPath lrp.key.processGuid lrp.key.index) version,
        answer⟩] ∧ res = answer.mapError fun _ => ErrActualLRPCannotBeRemoved := by
  simp only [removeActualLRP, Program.call_bind, Returns.call_iff] at h
  obtain ⟨answer, rest, rfl, h⟩ := h
  rcases answer with e | ⟨⟩ <;>
    (simp only [Program.ret_bind, Program.pure_eq_ret, Returns.ret_iff] at h
     obtain ⟨rfl, rfl⟩ := h
     exact ⟨_, rfl, rfl⟩)

theorem removeByIndex_settled {processGuid : String} {index : Int32} {res : Except Error Unit}
    (returns : Returns (removeActualLRPByIndex processGuid index) l res) :
    Settled fromJSON (.remove processGuid index) l ((res.map fun _ => none).mapError .error) := by
  unfold removeActualLRPByIndex at returns
  rcases returns_read returns with
    ⟨answer, e, rest, read, rfl, h⟩ | ⟨node, lrp, rest, decoded, rfl, h⟩
  · simp only [Program.pure_eq_ret, Returns.ret_iff] at h
    obtain ⟨rfl, rfl⟩ := h
    simp [Settled, Except.map, Except.mapError, effect]
  · obtain ⟨answer, rfl, rfl⟩ := remove_returns h
    rcases answer with e | ⟨⟩
    · simp [Settled, Except.map, Except.mapError, effect]
    · exact .remove rfl decoded .asked

theorem attempt_of_retireOnce {request : RetireActualLRPRequest} {path : String}
    {node : Node Json} {lrp : ActualLRP} {res : Except Error Unit}
    (decoded : ActualLRP.unmarshal node.value = some lrp)
    (h : Returns (retireOnce lrp node.modifiedIndex) l res) :
    Attempt request path (got path node :: l) res := by
  unfold retireOnce at h
  split at h
  · rename_i unheld
    obtain ⟨answer, rfl, rfl⟩ := remove_returns h
    exact .removal decoded (.unheld unheld)
  · rename_i held
    simp only [Program.call_bind, Program.ret_bind, Returns.call_iff] at h
    obtain ⟨answer, rest, rfl, h⟩ := h
    rcases answer with e | cell
    · by_cases lost : e = ErrResourceNotFound
      · subst lost
        simp only [if_true] at h
        obtain ⟨answer, rfl, rfl⟩ := remove_returns h
        exact .removal decoded (.lost held)
      · simp only [lost, if_false, Program.pure_eq_ret, Returns.ret_iff] at h
        obtain ⟨rfl, rfl⟩ := h
        exact .unlocated decoded held lost
    · simp only [Returns.call_iff] at h
      obtain ⟨answer, rest, rfl, h⟩ := h
      rcases answer with _ | ⟨⟩ <;>
        (simp only [Program.pure_eq_ret, Returns.ret_iff] at h
         obtain ⟨rfl, rfl⟩ := h
         exact .stop decoded held)

/-- An attempt ends the retire loop, or it failed and the loop goes on with its error. -/
theorem attempt_of_retireLoop {request : RetireActualLRPRequest} {processGuid : String}
    {index : Int32} {attempts : Nat} {err res : Except Error Unit}
    (returns : Returns (retireLoop processGuid index (attempts + 1) err) l res) :
    Attempt request (actualLRPSchemaPath processGuid index) l res ∨
      ∃ first rest e, l = first ++ rest ∧
        Attempt request (actualLRPSchemaPath processGuid index) first (.error e) ∧
        Returns (retireLoop processGuid index attempts (.error e)) rest res := by
  unfold retireLoop at returns
  rcases returns_read returns with
    ⟨answer, e, rest, read, rfl, h⟩ | ⟨node, lrp, rest, decoded, rfl, h⟩
  · simp only [Program.pure_eq_ret, Returns.ret_iff] at h
    obtain ⟨rfl, rfl⟩ := h
    exact .inl (.unread read)
  · simp only [Returns.bind_iff] at h
    obtain ⟨first, second, outcome, rfl, once, h⟩ := h
    have attempt := @attempt_of_retireOnce _ _ request
      (actualLRPSchemaPath processGuid index) _ _ _ decoded once
    rcases outcome with e | ⟨⟩
    · exact .inr ⟨_, second, e, rfl, attempt, h⟩
    · simp only [Program.pure_eq_ret, Returns.ret_iff] at h
      obtain ⟨rfl, rfl⟩ := h
      rw [List.append_nil]
      exact .inl attempt

/-- The retire loop makes one attempt after the other, at most as many as it is given. All but
the last have failed, and what the last comes to is the result. -/
theorem attempts_of_retireLoop {request : RetireActualLRPRequest} {processGuid : String}
    {index : Int32} {attempts : Nat} {err res : Except Error Unit}
    (h : Returns (retireLoop processGuid index (attempts + 1) err) l res) :
    ∃ (failed : List (List (Exchange (Call D) Answer))) (last : List (Exchange (Call D) Answer)),
      l = failed.flatten ++ last ∧ failed.length ≤ attempts ∧
      (∀ attempt ∈ failed, ∃ e,
        Attempt request (actualLRPSchemaPath processGuid index) attempt (.error e)) ∧
      Attempt request (actualLRPSchemaPath processGuid index) last res := by
  induction attempts generalizing l err with
  | zero =>
      rcases attempt_of_retireLoop h with attempt | ⟨first, rest, e, rfl, attempt, h⟩
      · exact ⟨[], l, rfl, le_refl _, nofun, attempt⟩
      · -- no attempt is left, and the error of this one is returned
        simp only [retireLoop, Program.pure_eq_ret, Returns.ret_iff] at h
        obtain ⟨rfl, rfl⟩ := h
        exact ⟨[], first, by simp, le_refl _, nofun, attempt⟩
  | succ attempts ih =>
      rcases attempt_of_retireLoop h with attempt | ⟨first, rest, e, rfl, attempt, h⟩
      · exact ⟨[], l, rfl, Nat.zero_le _, nofun, attempt⟩
      · obtain ⟨failed, last, rfl, few, failing, attempt'⟩ := ih h
        refine ⟨first :: failed, last, by simp, Nat.succ_le_succ few, ?_, attempt'⟩
        exact List.forall_mem_cons.mpr ⟨⟨e, attempt⟩, failing⟩

/-- An attempt succeeds in one of three ways or changes nothing. -/
theorem Attempt.settled {request : RetireActualLRPRequest} {path : String}
    {res : Except Error Unit} (named : (Request.retire request).path = some path)
    (attempt : Attempt request path l res) :
    (res = .ok () ∧ Success fromJSON (.retire request) l none) ∨ ∃ e, res = .error e ∧ Quiet l := by
  cases attempt with
  | unread read => exact .inr ⟨_, rfl, by simp [effect]⟩
  | unlocated decoded held known => exact .inr ⟨_, rfl, by simp [effect]⟩
  | @removal node lrp asked answer decoded removal =>
      rcases answer with e | ⟨⟩
      · refine .inr ⟨_, rfl, ?_⟩
        cases removal <;> simp [effect]
      · exact .inl ⟨rfl, .remove named decoded removal⟩
  | @stop node lrp cell answer decoded held =>
      rcases answer with e | ⟨⟩
      · exact .inr ⟨_, rfl, by simp [effect]⟩
      · exact .inl ⟨rfl, .stop named decoded held⟩

/-- Attempts that failed changed nothing. -/
theorem quiet_of_failed {request : RetireActualLRPRequest} {path : String}
    (named : (Request.retire request).path = some path)
    {failed : List (List (Exchange (Call D) Answer))}
    (failing : ∀ attempt ∈ failed, ∃ e, Attempt request path attempt (.error e)) :
    Quiet failed.flatten := by
  intro x mem
  obtain ⟨attempt, member, mem⟩ := List.mem_flatten.mp mem
  obtain ⟨e, attempted⟩ := failing attempt member
  rcases @Attempt.settled D (fun _ => none) _ _ _ _ named attempted with ⟨same, -⟩ | ⟨-, -, quiet⟩
  · cases same
  · exact quiet x mem

/-- The retire loop succeeds in its last attempt, with nothing changed before.
Otherwise it changes nothing. -/
theorem retireLoop_returns {request : RetireActualLRPRequest} {key : ActualLRPKey}
    (named : request.actualLrpKey = some key) {attempts : Nat} {err res : Except Error Unit}
    (h : Returns (retireLoop key.processGuid key.index (attempts + 1) err) l res) :
    (res = .ok () ∧ ∃ before last, l = before ++ last ∧ Quiet before ∧
      Success fromJSON (.retire request) last none) ∨ ∃ e, res = .error e ∧ Quiet l := by
  have path : (Request.retire request).path =
      some (actualLRPSchemaPath key.processGuid key.index) := by
    simp [Request.path, Request.slot, named]
  obtain ⟨failed, last, rfl, -, failing, attempt⟩ := @attempts_of_retireLoop _ _ request _ _ _ _ _ h
  have quiet := quiet_of_failed path failing
  rcases attempt.settled path with ⟨rfl, success⟩ | ⟨e, rfl, quiet'⟩
  · exact .inl ⟨rfl, _, last, rfl, quiet, success⟩
  · exact .inr ⟨e, rfl, quiet_append.mpr ⟨quiet, quiet'⟩⟩

end Inversion

/-! ### The listed ways are ways to succeed -/

section Returns

variable {fromJSON : Json → Option D} {request : Request} {l : List (Exchange (Call D) Answer)}

theorem AuctionReturns.returns {key : ActualLRPKey} {res : Except Error Unit}
    (auction : AuctionReturns fromJSON key l res) :
    Returns (requestLRPAuctionForLRPKey fromJSON key) l res := by
  simp only [requestLRPAuctionForLRPKey, requestLRPAuctionForLRPKey.requestAuction, desiredLRP_eq,
    Program.call_bind, Program.ret_bind, Returns.call_iff]
  cases auction with
  | unread read known =>
      refine ⟨_, _, rfl, ?_⟩
      simp [read, Except.map, known]
  | @requested node desired answer decoded =>
      refine ⟨_, _, rfl, ?_⟩
      rcases answer with _ | _ <;> simp [decoded, Except.map, Except.mapError]
  | undeleted missing =>
      refine ⟨_, _, rfl, ?_⟩
      simp [missing, Except.map]
  | @deleted e answer missing =>
      refine ⟨_, _, rfl, ?_⟩
      rcases answer with _ | _ <;> simp [missing, Except.map, Except.mapError]

theorem Auction.returns {key : ActualLRPKey} (auction : Auction fromJSON key l) :
    ∃ res, Returns (requestLRPAuctionForLRPKey fromJSON key) l res := by
  cases auction with
  | unread read known => exact ⟨_, (AuctionReturns.unread read known).returns⟩
  | requested decoded => exact ⟨_, (AuctionReturns.requested decoded).returns⟩
  | undeleted missing => exact ⟨_, (AuctionReturns.undeleted missing).returns⟩
  | deleted missing => exact ⟨_, (AuctionReturns.deleted missing).returns⟩

/-- A request that names its slot by a key has one. -/
theorem key_of_path {p : Option ActualLRPKey} {path : String}
    (named : (p.map fun key => (key.processGuid, key.index)).map
      (fun s => actualLRPSchemaPath s.1 s.2) = some path) :
    ∃ key, p = some key ∧ path = actualLRPSchemaPath key.processGuid key.index := by
  cases p with
  | none => cases named
  | some key => exact ⟨key, rfl, (Option.some.inj named).symm⟩

theorem crash_returns {request : CrashActualLRPRequest} {key : ActualLRPKey} {node : Node Json}
    {lrp : ActualLRP} {readAt now : Int64} {tail : List (Exchange (Call D) Answer)}
    (named : request.actualLrpKey = some key)
    (decoded : ActualLRP.unmarshal node.value = some lrp)
    (allowed : lrp.allowsTransitionTo (some key) request.actualLrpInstanceKey .crashed = true)
    (crashes : lrp.cannotCrash request.actualLrpInstanceKey = false)
    (closing : Closing fromJSON (.crash request)
      (lrp.crashOutcome readAt now request.errorMessage) tail) :
    Returns (crashActualLRP fromJSON request)
      (got (actualLRPSchemaPath key.processGuid key.index) node :: ⟨.now, readAt⟩ :: ⟨.now, now⟩ ::
        swapped (actualLRPSchemaPath key.processGuid key.index)
          (lrp.crashOutcome readAt now request.errorMessage) node.modifiedIndex :: tail)
      (.ok ()) := by
  simp only [crashActualLRP, named, rawActualLRP_eq, Program.call_bind, Program.ret_bind,
    Returns.call_iff]
  refine ⟨_, _, rfl, ?_⟩
  simp only [readAnswer_leaf decoded, Returns.call_iff]
  refine ⟨readAt, _, rfl, ?_⟩
  simp only [allowed, crashes, not_true, Bool.false_eq_true, if_false, Returns.call_iff,
    ActualLRP.crashedWith_shouldRestart]
  refine ⟨now, _, rfl, .ok (), tail, ?_, ?_⟩
  · rw [ActualLRP.crashOutcome_eq]
  · by_cases restart : lrp.newCrashCount readAt < defaultImmediateRestarts
    · simp only [Closing, ActualLRP.crashOutcome, restart, if_true, named, Option.some.injEq,
        exists_eq_left'] at closing
      obtain ⟨res, returns⟩ := closing.returns
      simp only [restart, decide_true, if_true, Returns.bind_iff]
      exact ⟨tail, [], res, by simp, returns, .nil _⟩
    · simp only [Closing, ActualLRP.crashOutcome, restart, if_false, reduceCtorEq] at closing
      simp [restart, closing]

/-- A retire whose first attempt reads the record and succeeds. -/
theorem retire_returns {request : RetireActualLRPRequest} {key : ActualLRPKey} {node : Node Json}
    {lrp : ActualLRP} {tail : List (Exchange (Call D) Answer)}
    (named : request.actualLrpKey = some key)
    (decoded : ActualLRP.unmarshal node.value = some lrp)
    (once : Returns (retireOnce lrp node.modifiedIndex) tail (.ok ())) :
    Returns ((Request.retire request).program fromJSON)
      (got (actualLRPSchemaPath key.processGuid key.index) node :: tail) (.ok none) := by
  refine Returns.map_iff.mpr ⟨.ok (), ?_, rfl⟩
  simp only [retireActualLRP, named]
  refine Returns.map_iff.mpr ⟨.ok (), ?_, rfl⟩
  simp only [retireActualLRPRetryAttempts, retireLoop, rawActualLRP_eq, Program.call_bind,
    Program.ret_bind, Returns.call_iff]
  refine ⟨_, tail, rfl, ?_⟩
  simp only [readAnswer_leaf decoded, Returns.bind_iff]
  exact ⟨tail, [], .ok (), (List.append_nil tail).symm, once, Returns.ret_iff.mpr ⟨rfl, rfl⟩⟩

/-- Every listed way to succeed is a play of the operation. -/
theorem Success.returns {value : Option ActualLRP} (success : Success fromJSON request l value) :
    Returns (request.program fromJSON) l (.ok value) := by
  cases success with
  | @swap _ path node lrp new clocks tail named decoded update closing =>
      cases update with
      | @claim r instanceKey _ carried allowed checked =>
          cases named
          cases closing
          refine Returns.map_iff.mpr ⟨.ok (lrp.claimedBy instanceKey), ?_, rfl⟩
          simp [claimActualLRP, rawActualLRP_eq, decoded, carried, allowed, checked]
      | @start key instanceKey netInfo _ now different allowed =>
          cases named
          cases closing
          refine Returns.map_iff.mpr ⟨.ok (lrp.startedBy instanceKey netInfo now), ?_, rfl⟩
          simp [startActualLRP, rawActualLRP_eq, decoded, different, allowed]
      | @crash r _ readAt now allowed crashes =>
          obtain ⟨key, hkey, rfl⟩ := key_of_path named
          rw [hkey] at allowed
          exact Returns.map_iff.mpr
            ⟨.ok (), crash_returns hkey decoded allowed crashes closing, rfl⟩
      | @fail r _ now unclaimed =>
          obtain ⟨key, hkey, rfl⟩ := key_of_path named
          cases closing
          refine Returns.map_iff.mpr ⟨.ok (), ?_, rfl⟩
          simp [failActualLRP, hkey, rawActualLRP_eq, decoded, unclaimed]
  | @create key instanceKey netInfo e guid now missing =>
      refine Returns.map_iff.mpr ⟨.ok (runningActualLRP key instanceKey netInfo now guid), ?_, rfl⟩
      simp [startActualLRP, createRunningActualLRP, rawActualLRP_eq, missing]
  | @keep r path node lrp named decoded same =>
      obtain ⟨key, hkey, rfl⟩ := key_of_path named
      refine Returns.map_iff.mpr ⟨.ok lrp, ?_, rfl⟩
      simp [startActualLRP, hkey, rawActualLRP_eq, decoded, same]
  | @remove _ path node lrp asked named decoded removal =>
      cases removal with
      | asked =>
          cases named
          refine Returns.map_iff.mpr ⟨.ok (), ?_, rfl⟩
          simp [removeActualLRPByIndex, removeActualLRP, rawActualLRP_eq, decoded]
      | @unheld r _ unheld =>
          obtain ⟨key, hkey, rfl⟩ := key_of_path named
          refine retire_returns hkey decoded ?_
          simp [retireOnce, unheld, removeActualLRP]
      | @lost r _ held =>
          obtain ⟨key, hkey, rfl⟩ := key_of_path named
          refine retire_returns hkey decoded ?_
          simp [retireOnce, held, removeActualLRP]
  | @stop r path node lrp cell named decoded held =>
      obtain ⟨key, hkey, rfl⟩ := key_of_path named
      refine retire_returns hkey decoded ?_
      simp [retireOnce, held]

end Returns

/-! ### Inversion of requests -/

section Requests

variable {fromJSON : Json → Option D} {request : Request} {l : List (Exchange (Call D) Answer)}

/-- What a request that returned the given result has done. -/
def Accounted (fromJSON : Json → Option D) (request : Request)
    (l : List (Exchange (Call D) Answer)) : Except Failure (Option ActualLRP) → Prop
  | .ok value => ∃ before last, l = before ++ last ∧ Quiet before ∧
      (before = [] ∨ ∃ retire, request = .retire retire) ∧ Success fromJSON request last value
  | .error _ => Quiet l

theorem Request.accounted {res : Except Failure (Option ActualLRP)}
    (h : Returns (request.program fromJSON) l res) : Accounted fromJSON request l res := by
  have whole (settled : Settled fromJSON request l res) : Accounted fromJSON request l res := by
    cases res with
    | ok value => exact ⟨[], l, rfl, quiet_nil, .inl rfl, settled⟩
    | error failure => exact settled
  cases request with
  | claim r =>
      obtain ⟨res, claim, rfl⟩ := Returns.map_iff.mp h
      exact whole (claim_settled claim)
  | start r =>
      obtain ⟨res, start, rfl⟩ := Returns.map_iff.mp h
      exact whole (start_settled start)
  | crash r =>
      obtain ⟨res, crash, rfl⟩ := Returns.map_iff.mp h
      exact whole (crash_settled crash)
  | fail r =>
      obtain ⟨res, fail, rfl⟩ := Returns.map_iff.mp h
      exact whole (fail_settled fail)
  | remove guid index =>
      obtain ⟨res, remove, rfl⟩ := Returns.map_iff.mp h
      exact whole (removeByIndex_settled remove)
  | retire r =>
      obtain ⟨res, retire, rfl⟩ := Returns.map_iff.mp h
      cases named : r.actualLrpKey with
      | none =>
          simp only [retireActualLRP, named] at retire
          exact whole (settled_of_refusal retire [] quiet_nil)
      | some key =>
          simp only [retireActualLRP, named] at retire
          obtain ⟨res, loop, rfl⟩ := Returns.map_iff.mp retire
          rcases retireLoop_returns named loop with
            ⟨rfl, before, last, rfl, quiet, success⟩ | ⟨e, rfl, quiet⟩
          · exact ⟨before, last, rfl, quiet, .inr ⟨r, rfl⟩, success⟩
          · exact quiet

theorem Request.returns_ok {value : Option ActualLRP}
    (h : Returns (request.program fromJSON) l (.ok value)) :
    ∃ before last, l = before ++ last ∧ Quiet before ∧
      (before = [] ∨ ∃ retire, request = .retire retire) ∧ Success fromJSON request last value :=
  Request.accounted h

theorem Request.returns_error {failure : Failure}
    (h : Returns (request.program fromJSON) l (.error failure)) : Quiet l :=
  Request.accounted h

end Requests

end Bbs.Etcd
