import Bbs.Lifecycle.Serial

/-!
Repeating a request that succeeded.

A cell repeats a request when the response was lost. Nothing else being served in
between, `retry_harmless` says what comes of it: a start finds its record and
returns it, a claim writes the same record with the next tag, and a crash is refused.
The etcd of the second request has to work, that is answer what the store holds.
-/

namespace Bbs.Lifecycle

open Bbs.Interaction Bbs.Versioned Bbs.Models Bbs.Etcd

section

variable {D : Type} {fromJSON : Json → Option D} {σ σ₁ σ₂ : Records}
  {l l' : List (Exchange (Call D) Answer)}

/-! ### An etcd that works -/

/-- The clock shows `now`, a read finds what there is, and a conditional write of the version that
is there succeeds. -/
def Works (now : Int64) (σ : Records) : (c : Call D) → Answer c → Prop
  | .get path, answer =>
      answer = match σ.nodes path with
        | some node => .ok (.leaf node)
        | none => .error ⟨etcdErrKeyNotFound⟩
  | .compareAndSwap path _ prevIndex, answer => HoldsVersion σ path prevIndex → answer = .ok ()
  | .now, answer => answer = now
  | _, _ => True

/-- The environment of a request at the time `now`, with an etcd that works. -/
def working (now : Int64) : Environment Records (Call D) Answer :=
  fun σ c answer σ' => etcd σ c answer σ' ∧ Works now σ c answer

theorem working_answers (now : Int64) (σ : Records) (c : Call D) :
    ∃ answer σ', working now σ c answer σ' := by
  cases c with
  | get path =>
      refine ⟨_, _, ⟨?_, rfl⟩, rfl⟩
      cases found : σ.nodes path with
      | none => exact fun _ => found
      | some node => exact found
  | compareAndSwap path value prevIndex =>
      by_cases holds : HoldsVersion σ path prevIndex
      · exact ⟨.ok (), _, ⟨holds, rfl⟩, fun _ => rfl⟩
      · exact ⟨.error ⟨0⟩, _, ⟨trivial, rfl⟩, fun held => absurd held holds⟩
  | now => exact ⟨now, _, ⟨trivial, rfl⟩, rfl⟩
  | set | compareAndDelete | delete => exact ⟨.error ⟨0⟩, _, ⟨trivial, rfl⟩, trivial⟩
  | cellById => exact ⟨.error ErrUnknownError, _, ⟨trivial, rfl⟩, trivial⟩
  | newV4 | stopLRPInstance | requestLRPAuctions =>
      exact ⟨.error (), _, ⟨trivial, rfl⟩, trivial⟩

variable {now : Int64}

section Reading

variable {α : Type} {processGuid : String} {index : Int32}
  {f : Except Error (ActualLRP × Nat) → Operation D α} {a : α}

/-- What starts by reading a record goes on with the answer of a working etcd. -/
theorem executes_read (executes : Executes (working now) σ
      (rawActuaLLRPByProcessGuidAndIndex processGuid index >>= f) l σ₁ a) :
    ∃ answer rest, l = ⟨.get (actualLRPSchemaPath processGuid index), answer⟩ :: rest ∧
      Works now σ (.get (actualLRPSchemaPath processGuid index) : Call D) answer ∧
      Executes (working now) σ (f (readAnswer ActualLRP.unmarshal answer)) rest σ₁ a := by
  obtain ⟨returns, traverses⟩ := executes
  simp only [rawActualLRP_eq, Program.call_bind, Program.ret_bind, Returns.call_iff] at returns
  obtain ⟨answer, rest, rfl, after⟩ := returns
  obtain ⟨_, ⟨⟨-, rfl⟩, works⟩, done⟩ := Traverses.cons_iff.mp traverses
  exact ⟨answer, rest, rfl, works, after, done⟩

theorem executes_found {node : Node Json} {lrp : ActualLRP}
    (found : σ.nodes (actualLRPSchemaPath processGuid index) = some node)
    (decoded : ActualLRP.unmarshal node.value = some lrp)
    (executes : Executes (working now) σ
      (rawActuaLLRPByProcessGuidAndIndex processGuid index >>= f) l σ₁ a) :
    ∃ rest, l = got (actualLRPSchemaPath processGuid index) node :: rest ∧
      Executes (working now) σ (f (.ok (lrp, node.modifiedIndex))) rest σ₁ a := by
  obtain ⟨answer, rest, rfl, works, after⟩ := executes_read executes
  simp only [Works, found] at works
  subst works
  rw [readAnswer_leaf decoded] at after
  exact ⟨rest, rfl, after⟩

theorem executes_missing (gone : σ.nodes (actualLRPSchemaPath processGuid index) = none)
    (executes : Executes (working now) σ
      (rawActuaLLRPByProcessGuidAndIndex processGuid index >>= f) l σ₁ a) :
    ∃ rest, l = ⟨.get (actualLRPSchemaPath processGuid index),
        .error ⟨etcdErrKeyNotFound⟩⟩ :: rest ∧
      Executes (working now) σ (f (.error ErrResourceNotFound)) rest σ₁ a := by
  obtain ⟨answer, rest, rfl, works, after⟩ := executes_read executes
  simp only [Works, gone] at works
  subst works
  rw [readAnswer_missing] at after
  · exact ⟨rest, rfl, after⟩
  · rfl

end Reading

/-! ### What the first request leaves -/

theorem startedBy_isStarted {lrp : ActualLRP} {key : ActualLRPKey}
    {instanceKey : ActualLRPInstanceKey} {netInfo : ActualLRPNetInfo}
    (allowed : lrp.allowsTransitionTo (some key) (some instanceKey) .running = true) :
    (lrp.startedBy instanceKey netInfo now).isStarted
      ⟨some key, some instanceKey, some netInfo⟩ = true := by
  obtain ⟨same, -⟩ := ActualLRP.allowsTransitionTo_iff.mp allowed
  simp [ActualLRP.isStarted, ActualLRP.startedBy, same, ActualLRPNetInfo.equal]

theorem running_isStarted {key : ActualLRPKey} {instanceKey : ActualLRPInstanceKey}
    {netInfo : ActualLRPNetInfo} {guid : String} :
    (runningActualLRP key instanceKey netInfo now guid).isStarted
      ⟨some key, some instanceKey, some netInfo⟩ = true := by
  simp [ActualLRP.isStarted, runningActualLRP, ActualLRPNetInfo.equal]

/-- A request that is no retire succeeds in one go. -/
theorem success_of_executes {request : Request} {value : Option ActualLRP}
    (first : Executes etcd σ (request.program fromJSON) l σ₁ (.ok value))
    (other : ∀ retire, request ≠ .retire retire) :
    Success fromJSON request l value ∧ Traverses etcd σ l σ₁ := by
  obtain ⟨returns, traverses⟩ := first
  obtain ⟨before, last, rfl, -, alone, success⟩ := Request.returns_ok returns
  rcases alone with rfl | ⟨retire, same⟩
  · exact ⟨success, traverses⟩
  · exact absurd same (other retire)

/-- A start that succeeded leaves the record running just as it asked. -/
theorem start_leaves {request : StartActualLRPRequest} {value : Option ActualLRP}
    (first : Executes etcd σ ((Request.start request).program fromJSON) l σ₁ (.ok value)) :
    ∃ path lrp, (Request.start request).path = some path ∧ recordAt path σ₁ = some lrp ∧
      lrp.isStarted request = true := by
  obtain ⟨success, traverses⟩ := success_of_executes first nofun
  cases success with
  | @swap _ path node lrp new clocks tail named decoded update closing =>
      cases update with
      | start different allowed =>
          cases closing
          simp only [List.map_cons, List.map_nil, List.cons_append, List.nil_append,
            Traverses.cons_iff, Traverses.nil_iff, etcd] at traverses
          obtain ⟨_, ⟨-, rfl⟩, _, ⟨-, rfl⟩, _, ⟨-, rfl⟩, rfl⟩ := traverses
          exact ⟨path, _, named, recordAt_write _ _ _, startedBy_isStarted allowed⟩
  | create missing =>
      simp only [Traverses.cons_iff, Traverses.nil_iff, etcd] at traverses
      obtain ⟨_, ⟨-, rfl⟩, _, ⟨-, rfl⟩, _, ⟨-, rfl⟩, _, ⟨-, rfl⟩, rfl⟩ := traverses
      exact ⟨_, _, rfl, recordAt_write _ _ _, running_isStarted⟩
  | @keep _ path node lrp named decoded same =>
      simp only [Traverses.cons_iff, Traverses.nil_iff, etcd] at traverses
      obtain ⟨_, ⟨found, rfl⟩, rfl⟩ := traverses
      exact ⟨path, lrp, named, recordAt_of_nodes found decoded, same⟩
  | remove named decoded removal => cases removal

/-- A claim that succeeded leaves the record as it made it. -/
theorem claim_leaves {request : ClaimActualLRPRequest} {value : Option ActualLRP}
    (first : Executes etcd σ ((Request.claim request).program fromJSON) l σ₁ (.ok value)) :
    ∃ (instanceKey : ActualLRPInstanceKey) (lrp : ActualLRP),
      request.actualLrpInstanceKey = some instanceKey ∧ (lrp.claimedBy instanceKey).Valid ∧
      recordAt (actualLRPSchemaPath request.processGuid request.index) σ₁ =
        some (lrp.claimedBy instanceKey) := by
  obtain ⟨success, traverses⟩ := success_of_executes first nofun
  cases success with
  | @swap _ path node lrp new clocks tail named decoded update closing =>
      cases update with
      | claim carried allowed checked =>
          cases closing
          cases named
          simp only [List.map_nil, List.nil_append, Traverses.cons_iff, Traverses.nil_iff,
            etcd] at traverses
          obtain ⟨_, ⟨-, rfl⟩, _, ⟨-, rfl⟩, rfl⟩ := traverses
          exact ⟨_, lrp, carried, ActualLRP.validate_eq_none_iff.mp checked, recordAt_write _ _ _⟩
  | remove named decoded removal => cases removal

/-- A crash that succeeded leaves no record, or one that is held by nobody. -/
theorem crash_leaves {request : CrashActualLRPRequest} {value : Option ActualLRP}
    (first : Executes etcd σ ((Request.crash request).program fromJSON) l σ₁ (.ok value)) :
    ∃ path, (Request.crash request).path = some path ∧ (σ₁.nodes path = none ∨
      ∃ lrp, recordAt path σ₁ = some lrp ∧ (lrp.state = .unclaimed ∨ lrp.state = .crashed)) := by
  obtain ⟨success, traverses⟩ := success_of_executes first nofun
  have moves := Success.moves success traverses
  generalize readings l = clocks, puts l = wrote at moves
  cases moves with
  | kept idle => rcases idle with ⟨_, same⟩ | ⟨_, same⟩ <;> cases same
  | swapped named found decoded update =>
      cases update with
      | crash allowed crashes =>
          refine ⟨_, named, .inr ⟨_, recordAt_write _ _ _, ?_⟩⟩
          unfold ActualLRP.crashOutcome
          split
          · exact .inl rfl
          · exact .inr rfl
  | cleaned crashed named => exact ⟨_, named, .inl (Store.erase_nodes_self _ _)⟩
  | created started => cases started
  | removed named found decoded removal =>
      rcases removal with ⟨_, _, same⟩ | ⟨_, same⟩ <;> cases same

/-! ### The second request -/

/-- `Repeats σ request l σ' reply`: from the store `σ` the repeated request comes to `σ'`. A start
reads and returns the record; a claim writes it with the next tag; a crash reads and is refused,
because of the record's state or because the record is gone. -/
inductive Repeats (now : Int64) (σ : Records) :
    Request → List (Exchange (Call D) Answer) → Records → Reply → Prop where
  | start {request : StartActualLRPRequest} {path : String} {node : Node Json} {lrp : ActualLRP}
      (named : (Request.start request).path = some path) (found : σ.nodes path = some node)
      (decoded : ActualLRP.unmarshal node.value = some lrp) :
      Repeats now σ (.start request) [got path node] σ (.ok (some lrp))
  | claim {request : ClaimActualLRPRequest} {path : String} {node : Node Json}
      {lrp again : ActualLRP}
      (named : (Request.claim request).path = some path) (found : σ.nodes path = some node)
      (decoded : ActualLRP.unmarshal node.value = some lrp)
      (tagged : again = { lrp with modificationTag := lrp.modificationTag.increment }) :
      Repeats now σ (.claim request) [got path node, swapped path again node.modifiedIndex]
        (σ.write path again.marshal) (.ok (some again))
  | crash {request : CrashActualLRPRequest} {path : String} {node : Node Json}
      (named : (Request.crash request).path = some path) (found : σ.nodes path = some node) :
      Repeats now σ (.crash request) [got path node, ⟨.now, now⟩] σ
        (.error (.error ErrActualLRPCannotBeCrashed))
  | cleaned {request : CrashActualLRPRequest} {path : String}
      (named : (Request.crash request).path = some path) (gone : σ.nodes path = none) :
      Repeats now σ (.crash request) [⟨.get path, .error ⟨etcdErrKeyNotFound⟩⟩] σ
        (.error (.error ErrResourceNotFound))

theorem exists_node_of_recordAt {path : String} {lrp : ActualLRP}
    (found : recordAt path σ = some lrp) :
    ∃ node, σ.nodes path = some node ∧ ActualLRP.unmarshal node.value = some lrp :=
  Option.bind_eq_some_iff.mp found

theorem start_repeats {request : StartActualLRPRequest} {path : String} {lrp : ActualLRP}
    {reply : Reply} (named : (Request.start request).path = some path)
    (found : recordAt path σ₁ = some lrp) (same : lrp.isStarted request = true)
    (again : Executes (working now) σ₁ ((Request.start request).program fromJSON) l' σ₂ reply) :
    Repeats now σ₁ (.start request) l' σ₂ reply := by
  obtain ⟨node, present, decoded⟩ := exists_node_of_recordAt found
  obtain ⟨key, keyed, rfl⟩ := key_of_path named
  obtain ⟨returns, traverses⟩ := again
  obtain ⟨res, started, rfl⟩ := Returns.map_iff.mp returns
  simp only [startActualLRP, keyed] at started
  obtain ⟨rest, rfl, ended, done⟩ := executes_found present decoded ⟨started, traverses⟩
  simp only [same, if_true, Program.pure_eq_ret, Returns.ret_iff] at ended
  obtain ⟨rfl, rfl⟩ := ended
  obtain rfl := Traverses.nil_iff.mp done
  exact .start named present decoded

theorem claimedBy_again {lrp : ActualLRP} {instanceKey : ActualLRPInstanceKey} :
    (lrp.claimedBy instanceKey).claimedBy instanceKey =
      { lrp.claimedBy instanceKey with
        modificationTag := (lrp.claimedBy instanceKey).modificationTag.increment } :=
  rfl

theorem claim_repeats {request : ClaimActualLRPRequest} {instanceKey : ActualLRPInstanceKey}
    {lrp : ActualLRP} {reply : Reply} (carried : request.actualLrpInstanceKey = some instanceKey)
    (valid : (lrp.claimedBy instanceKey).Valid)
    (found : recordAt (actualLRPSchemaPath request.processGuid request.index) σ₁ =
      some (lrp.claimedBy instanceKey))
    (again : Executes (working now) σ₁ ((Request.claim request).program fromJSON) l' σ₂ reply) :
    Repeats now σ₁ (.claim request) l' σ₂ reply := by
  have allowed : (lrp.claimedBy instanceKey).allowsTransitionTo
      (some (lrp.claimedBy instanceKey).key) (some instanceKey) .claimed = true :=
    ActualLRP.allowsTransitionTo_iff.mpr ⟨rfl, fun _ _ => .inr rfl⟩
  -- the tag is not validated
  have checked : ((lrp.claimedBy instanceKey).claimedBy instanceKey).validate = none :=
    ActualLRP.validate_eq_none_iff.mpr valid
  obtain ⟨node, present, decoded⟩ := exists_node_of_recordAt found
  obtain ⟨returns, traverses⟩ := again
  obtain ⟨res, claimed, rfl⟩ := Returns.map_iff.mp returns
  unfold claimActualLRP at claimed
  obtain ⟨rest, rfl, written, after⟩ := executes_found present decoded ⟨claimed, traverses⟩
  simp only [carried, allowed, checked, not_true, if_false, Program.call_bind, Program.ret_bind,
    Returns.call_iff] at written
  obtain ⟨answer, rest, rfl, ended⟩ := written
  obtain ⟨_, ⟨⟨-, rfl⟩, works⟩, done⟩ := Traverses.cons_iff.mp after
  obtain rfl : answer = .ok () := works ⟨node, present, rfl⟩
  simp only [Program.pure_eq_ret, Returns.ret_iff] at ended
  obtain ⟨rfl, rfl⟩ := ended
  obtain rfl := Traverses.nil_iff.mp done
  exact .claim rfl present decoded claimedBy_again

theorem crash_repeats {request : CrashActualLRPRequest} {path : String} {reply : Reply}
    (named : (Request.crash request).path = some path)
    (left : σ₁.nodes path = none ∨
      ∃ lrp, recordAt path σ₁ = some lrp ∧ (lrp.state = .unclaimed ∨ lrp.state = .crashed))
    (again : Executes (working now) σ₁ ((Request.crash request).program fromJSON) l' σ₂ reply) :
    Repeats now σ₁ (.crash request) l' σ₂ reply := by
  obtain ⟨key, keyed, rfl⟩ := key_of_path named
  obtain ⟨returns, traverses⟩ := again
  obtain ⟨res, crashed, rfl⟩ := Returns.map_iff.mp returns
  simp only [crashActualLRP, keyed] at crashed
  rcases left with gone | ⟨lrp, found, unheld⟩
  · obtain ⟨rest, rfl, refused, done⟩ := executes_missing gone ⟨crashed, traverses⟩
    simp only [Program.pure_eq_ret, Returns.ret_iff] at refused
    obtain ⟨rfl, rfl⟩ := refused
    obtain rfl := Traverses.nil_iff.mp done
    exact .cleaned named gone
  · have guarded : lrp.cannotCrash request.actualLrpInstanceKey = true := by
      rcases unheld with state | state <;> simp [ActualLRP.cannotCrash, state]
    obtain ⟨node, present, decoded⟩ := exists_node_of_recordAt found
    obtain ⟨rest, rfl, refused, after⟩ := executes_found present decoded ⟨crashed, traverses⟩
    simp only [guarded, if_true, ite_self, Program.pure_eq_ret, Program.call_bind,
      Program.ret_bind, Returns.call_iff, Returns.ret_iff] at refused
    obtain ⟨reading, rest, rfl, rfl, rfl⟩ := refused
    obtain ⟨_, ⟨⟨-, rfl⟩, works⟩, done⟩ := Traverses.cons_iff.mp after
    obtain rfl : reading = now := works
    obtain rfl := Traverses.nil_iff.mp done
    exact .crash named present

/-- **Repeating a request is harmless.** A start, a claim or a crash that succeeded is repeated, at
any time, with nothing else served in between and an etcd that works. It returns, and what it does
is as listed: the start returns the record that is stored and only reads; the claim succeeds and
changes nothing but the index of the tag, by one; the crash is refused and only reads, so that the
store stays and no auction is requested. -/
theorem retry_harmless {request : Request} {value : Option ActualLRP} (now : Int64)
    (kind : (∃ start, request = .start start) ∨ (∃ claim, request = .claim claim) ∨
      ∃ crash, request = .crash crash)
    (first : Executes etcd σ (request.program fromJSON) l σ₁ (.ok value)) :
    (∃ l' σ₂ reply, Executes (working now) σ₁ (request.program fromJSON) l' σ₂ reply) ∧
      ∀ l' σ₂ reply, Executes (working now) σ₁ (request.program fromJSON) l' σ₂ reply →
        Repeats now σ₁ request l' σ₂ reply := by
  refine ⟨exists_executes (working_answers now) _ _, ?_⟩
  intro l' σ₂ reply again
  rcases kind with ⟨start, rfl⟩ | ⟨claim, rfl⟩ | ⟨crash, rfl⟩
  · obtain ⟨path, lrp, named, found, same⟩ := start_leaves first
    exact start_repeats named found same again
  · obtain ⟨instanceKey, lrp, carried, valid, found⟩ := claim_leaves first
    exact claim_repeats carried valid found again
  · obtain ⟨path, named, left⟩ := crash_leaves first
    exact crash_repeats named left again

end

/-- The sample record is claimed twice. -/
theorem retry_harmless_claim :
    let σ := (sampleStore sampleUnclaimed).write samplePath sampleClaimed.marshal
    ∃ (l : List (Exchange (Call Unit) Answer)) (σ' : Records) (reply : Reply),
      Executes (working 7) σ ((sampleClaim 1).program fun _ => none) l σ' reply ∧
        Repeats 7 σ (sampleClaim 1) l σ' reply := by
  intro σ
  have unclaimed := sampleStore_nodes sampleUnclaimed
  have success : Success (fun _ => none) (sampleClaim 1)
      [got samplePath ⟨sampleUnclaimed.marshal, 1⟩, swapped samplePath sampleClaimed 1]
      (some sampleClaimed) :=
    .swap (D := Unit) rfl (ActualLRP.unmarshal_marshal _) (.claim rfl (by decide) (by decide)) rfl
  have first : Executes etcd (sampleStore sampleUnclaimed) ((sampleClaim 1).program fun _ => none)
      [got samplePath ⟨sampleUnclaimed.marshal, 1⟩, swapped samplePath sampleClaimed 1] σ
      (.ok (some sampleClaimed)) :=
    ⟨success.returns, .cons ⟨unclaimed, rfl⟩ <| .cons ⟨⟨_, unclaimed, rfl⟩, rfl⟩ <| .nil _⟩
  obtain ⟨⟨l, σ', reply, again⟩, repeats⟩ :=
    retry_harmless 7 (.inr (.inl ⟨_, rfl⟩)) first
  exact ⟨l, σ', reply, again, repeats l σ' reply again⟩

end Bbs.Lifecycle
