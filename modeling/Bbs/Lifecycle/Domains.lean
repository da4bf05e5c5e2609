import Bbs.Etcd.Calls
import Bbs.Lifecycle.Serial

/-!
Requests for another domain's LRP.

A record is found by process guid and index alone, so a request can name a key
whose domain is not the record's. Start and crash compare the whole key before they
do anything. Fail looks at the state only, and retire at nothing: they act on
another domain's record (`foreign_request_refused_iff`).
-/

namespace Bbs.Lifecycle

open Bbs.Interaction Bbs.Versioned Bbs.Models Bbs.Etcd

variable {D : Type} {fromJSON : Json → Option D} {σ σ' : Records}
  {l : List (Exchange (Call D) Answer)} {reply : Reply}

/-- The whole key that a request names. -/
def lrpKey : Request → Option ActualLRPKey
  | .start request => request.actualLrpKey
  | .crash request => request.actualLrpKey
  | .fail request => request.actualLrpKey
  | .retire request => request.actualLrpKey
  | .claim _ => none
  | .remove _ _ => none

/-- The request names the slot of the stored record `lrp`, but another domain. -/
structure Foreign (σ : Records) (request : Request) (key : ActualLRPKey) (node : Node Json)
    (lrp : ActualLRP) : Prop where
  named : lrpKey request = some key
  found : σ.nodes (actualLRPSchemaPath key.processGuid key.index) = some node
  decoded : ActualLRP.unmarshal node.value = some lrp
  slot : key.processGuid = lrp.key.processGuid ∧ key.index = lrp.key.index
  domain : key.domain ≠ lrp.key.domain

/-- However the request is answered, it returns an error, leaves the store as it is and
asks no cell to stop an instance. -/
def Refused (fromJSON : Json → Option D) (σ : Records) (request : Request) : Prop :=
  ∀ l σ' reply, Executes etcd σ (request.program fromJSON) l σ' reply →
    (∃ e, reply = .error (.error e)) ∧ σ' = σ ∧
      ∀ x ∈ l, ∀ repAddress key instanceKey,
        x.call ≠ .stopLRPInstance repAddress key instanceKey

/-- Only retire asks cells to stop instances, and an error means that nothing changed. -/
theorem refused_of_error {request : Request} (other : ∀ retire, request ≠ .retire retire)
    (errs : ∀ l σ' reply, Executes etcd σ (request.program fromJSON) l σ' reply →
      ∃ e, reply = .error (.error e)) : Refused fromJSON σ request := by
  intro l σ' reply executes
  obtain ⟨e, rfl⟩ := errs l σ' reply executes
  obtain ⟨returns, traverses⟩ := executes
  refine ⟨⟨e, rfl⟩, traverses_quiet traverses (Request.returns_error returns), ?_⟩
  intro x hx repAddress key instanceKey stops
  have may := (request.calls fromJSON).of_plays returns x hx
  rw [stops] at may
  obtain ⟨retire, retires⟩ := may
  exact other retire retires

theorem map_error_of_returns {α : Type} {g : α → Option ActualLRP} {e : Error}
    {res : Except Failure α}
    (h : Returns (pure (.error (.error e)) : Operation D (Except Failure α)) l res) :
    ∃ e, res.map g = .error (.error e) := by
  obtain ⟨-, rfl⟩ := Returns.ret_iff.mp h
  exact ⟨e, rfl⟩

/-- A read in a store that has the record gets the record, or an error that is not
taken for its absence. -/
theorem read_present {path : String} {node : Node Json} {lrp : ActualLRP}
    (found : σ.nodes path = some node) (decoded : ActualLRP.unmarshal node.value = some lrp)
    {answer : Except EtcdError Fetched} (allowed : Allowed (D := D) σ (.get path) answer) :
    readAnswer ActualLRP.unmarshal answer = .ok (lrp, node.modifiedIndex) ∨
      ∃ e, readAnswer ActualLRP.unmarshal answer = .error e ∧ e ≠ ErrResourceNotFound := by
  have unknown : ErrUnknownError ≠ ErrResourceNotFound := by decide
  rcases answer with e | found'
  · have other : e.code ≠ etcdErrKeyNotFound := by
      intro missing
      rw [allowed missing] at found
      cases found
    exact .inr ⟨ErrUnknownError, by simp [readAnswer, other], unknown⟩
  · cases found' with
    | leaf node' =>
        obtain rfl : node' = node := Option.some.inj (allowed.symm.trans found)
        exact .inl (readAnswer_leaf decoded)
    | directory =>
        cases allowed.symm.trans found

/-- An execution that starts by reading the record goes on with what was read. -/
theorem returns_after_read {α : Type} {processGuid : String} {index : Int32} {node : Node Json}
    {lrp : ActualLRP} (found : σ.nodes (actualLRPSchemaPath processGuid index) = some node)
    (decoded : ActualLRP.unmarshal node.value = some lrp)
    {f : Except Error (ActualLRP × Nat) → Operation D α} {a : α}
    (returns : Returns (rawActuaLLRPByProcessGuidAndIndex processGuid index >>= f) l a)
    (traverses : Traverses etcd σ l σ') :
    ∃ rest, Returns (f (.ok (lrp, node.modifiedIndex))) rest a ∨
      ∃ e, e ≠ ErrResourceNotFound ∧ Returns (f (.error e)) rest a := by
  rw [rawActualLRP_eq] at returns
  simp only [Program.call_bind, Program.ret_bind, Returns.call_iff] at returns
  obtain ⟨answer, rest, rfl, returns⟩ := returns
  obtain ⟨middle, step, -⟩ := Traverses.cons_iff.mp traverses
  refine ⟨rest, ?_⟩
  rcases read_present found decoded step.1 with read | ⟨e, read, other⟩
  · exact .inl (read ▸ returns)
  · exact .inr ⟨e, other, read ▸ returns⟩

variable {key : ActualLRPKey} {node : Node Json} {lrp : ActualLRP}

theorem Foreign.key_ne {request : Request} (foreign : Foreign σ request key node lrp) :
    some key ≠ some lrp.key := by
  intro same
  exact foreign.domain (congrArg ActualLRPKey.domain (Option.some.inj same))

theorem Foreign.forbidden {request : Request} (foreign : Foreign σ request key node lrp)
    (instanceKey : Option ActualLRPInstanceKey) (state : ActualLRPState) :
    ¬ lrp.allowsTransitionTo (some key) instanceKey state = true :=
  fun allowed => foreign.key_ne (ActualLRP.allowsTransitionTo_iff.mp allowed).1

theorem start_refused {request : StartActualLRPRequest}
    (foreign : Foreign σ (.start request) key node lrp) : Refused fromJSON σ (.start request) := by
  refine refused_of_error (by simp) fun l σ' reply executes => ?_
  obtain ⟨returns, traverses⟩ := executes
  obtain ⟨res, starts, rfl⟩ := Returns.map_iff.mp returns
  have named : request.actualLrpKey = some key := foreign.named
  have different : lrp.isStarted request = false := by
    have other : lrp.key.equal (some key) = false :=
      Bool.eq_false_iff.mpr fun same => foreign.key_ne (ActualLRPKey.equal_iff.mp same)
    simp [ActualLRP.isStarted, named, other]
  simp only [startActualLRP, named] at starts
  obtain ⟨rest, refused | ⟨e, other, refused⟩⟩ :=
    returns_after_read foreign.found foreign.decoded starts traverses
  · simp only [different, Bool.false_eq_true, if_false] at refused
    rw [if_pos (foreign.forbidden _ _)] at refused
    exact map_error_of_returns refused
  · simp only [other, if_false] at refused
    exact map_error_of_returns refused

theorem crash_refused {request : CrashActualLRPRequest}
    (foreign : Foreign σ (.crash request) key node lrp) : Refused fromJSON σ (.crash request) := by
  refine refused_of_error (by simp) fun l σ' reply executes => ?_
  obtain ⟨returns, traverses⟩ := executes
  obtain ⟨res, crashes, rfl⟩ := Returns.map_iff.mp returns
  have named : request.actualLrpKey = some key := foreign.named
  simp only [crashActualLRP, named] at crashes
  obtain ⟨rest, refused | ⟨e, -, refused⟩⟩ :=
    returns_after_read foreign.found foreign.decoded crashes traverses
  · simp only [Program.call_bind, Program.ret_bind, Returns.call_iff] at refused
    obtain ⟨readAt, _, -, refused⟩ := refused
    rw [if_pos (foreign.forbidden _ _)] at refused
    exact map_error_of_returns refused
  · exact map_error_of_returns refused

theorem fail_refused {request : FailActualLRPRequest}
    (foreign : Foreign σ (.fail request) key node lrp) (held : lrp.state ≠ .unclaimed) :
    Refused fromJSON σ (.fail request) := by
  refine refused_of_error (by simp) fun l σ' reply executes => ?_
  obtain ⟨returns, traverses⟩ := executes
  obtain ⟨res, fails, rfl⟩ := Returns.map_iff.mp returns
  have named : request.actualLrpKey = some key := foreign.named
  simp only [failActualLRP, named] at fails
  obtain ⟨rest, refused | ⟨e, -, refused⟩⟩ :=
    returns_after_read foreign.found foreign.decoded fails traverses
  · simp only at refused
    rw [if_pos held] at refused
    exact map_error_of_returns refused
  · exact map_error_of_returns refused

/-! ### The operations that do not compare keys -/

/-- A fail on an unclaimed record goes through, whatever domain it names. -/
theorem fail_acts {request : FailActualLRPRequest}
    (foreign : Foreign σ (.fail request) key node lrp) (unclaimed : lrp.state = .unclaimed) :
    ∃ l σ' value, Executes etcd σ ((Request.fail request).program fromJSON) l σ' (.ok value) := by
  have named : (Request.fail request).path = some (actualLRPSchemaPath key.processGuid key.index) := by
    have keyed : request.actualLrpKey = some key := foreign.named
    simp [Request.path, Request.slot, keyed]
  have update : Update (.fail request) lrp [0] (lrp.failedWith request.errorMessage 0) :=
    .fail unclaimed
  exact ⟨_, _, _, swapTurn_executed named foreign.found foreign.decoded update rfl (.nil _)⟩

/-- A retire goes through, whatever domain it names: it deletes the record, or has the
cell stop the instance. -/
theorem retire_acts {request : RetireActualLRPRequest}
    (foreign : Foreign σ (.retire request) key node lrp) :
    ∃ l σ' value, Executes etcd σ ((Request.retire request).program fromJSON) l σ' (.ok value) := by
  have named : (Request.retire request).path =
      some (actualLRPSchemaPath key.processGuid key.index) := by
    have keyed : request.actualLrpKey = some key := foreign.named
    simp [Request.path, Request.slot, keyed]
  by_cases unheld : lrp.state = .unclaimed ∨ lrp.state = .crashed
  · have own : σ.nodes (actualLRPSchemaPath lrp.key.processGuid lrp.key.index) = some node := by
      rw [← foreign.slot.1, ← foreign.slot.2]
      exact foreign.found
    refine ⟨_, σ.erase (actualLRPSchemaPath lrp.key.processGuid lrp.key.index), _,
      (Success.remove named foreign.decoded (.unheld unheld)).returns, ?_⟩
    exact .cons ⟨foreign.found, rfl⟩ (.cons ⟨⟨node, own, rfl⟩, rfl⟩ (.nil _))
  · have success : Success fromJSON (.retire request) [got _ node,
        ⟨.cellById lrp.instanceKey.cellId, .ok ⟨"rep"⟩⟩,
        ⟨.stopLRPInstance "rep" lrp.key lrp.instanceKey, .ok ()⟩] none :=
      .stop named foreign.decoded unheld
    refine ⟨_, σ, _, success.returns, ?_⟩
    exact .cons ⟨foreign.found, rfl⟩ (.cons ⟨trivial, rfl⟩ (.cons ⟨trivial, rfl⟩ (.nil _)))

/-- **Who is turned away from another domain's record.** A request that names the slot
of a stored record under another domain is refused, whatever the record, exactly if it
is a start, a crash, or a fail of a record that is not unclaimed. -/
theorem foreign_request_refused_iff {request : Request}
    (foreign : Foreign σ request key node lrp) :
    Refused fromJSON σ request ↔
      (∃ start, request = .start start) ∨ (∃ crash, request = .crash crash) ∨
        ((∃ fail, request = .fail fail) ∧ lrp.state ≠ .unclaimed) := by
  have not_refused (acts : ∃ l σ' value,
      Executes etcd σ (request.program fromJSON) l σ' (.ok value)) : ¬ Refused fromJSON σ request := by
    intro refused
    obtain ⟨l, σ', value, executes⟩ := acts
    obtain ⟨⟨e, same⟩, -⟩ := refused l σ' _ executes
    cases same
  cases request with
  | start request => exact ⟨fun _ => .inl ⟨request, rfl⟩, fun _ => start_refused foreign⟩
  | crash request => exact ⟨fun _ => .inr (.inl ⟨request, rfl⟩), fun _ => crash_refused foreign⟩
  | fail request =>
      constructor
      · intro refused
        exact .inr (.inr ⟨⟨request, rfl⟩, fun unclaimed =>
          not_refused (fail_acts foreign unclaimed) refused⟩)
      · rintro (⟨_, h⟩ | ⟨_, h⟩ | ⟨-, held⟩)
        · cases h
        · cases h
        · exact fail_refused foreign held
  | retire request =>
      constructor
      · exact fun refused => absurd refused (not_refused (retire_acts foreign))
      · rintro (⟨_, h⟩ | ⟨_, h⟩ | ⟨⟨_, h⟩, -⟩) <;> cases h
  | claim request => cases foreign.named
  | remove processGuid index => cases foreign.named

/-- The sample key under another domain. -/
def foreignKey : ActualLRPKey :=
  { sampleKey with domain := "another-domain" }

theorem sampleStore_foreign {request : Request} (named : lrpKey request = some foreignKey)
    (lrp : ActualLRP) (key : lrp.key = sampleKey) :
    Foreign (sampleStore lrp) request foreignKey ⟨lrp.marshal, 1⟩ lrp where
  named := named
  found := sampleStore_nodes lrp
  decoded := ActualLRP.unmarshal_marshal lrp
  slot := by rw [key]; exact ⟨rfl, rfl⟩
  domain := by rw [key]; decide

theorem foreign_request_refused_iff_start :
    Refused (fun _ => (none : Option Unit)) (sampleStore (sampleRunning 0))
      (.start ⟨some foreignKey, some (sampleInstance 1), some sampleNetInfo⟩) :=
  (foreign_request_refused_iff (sampleStore_foreign rfl (sampleRunning 0) rfl)).mpr
    (.inl ⟨_, rfl⟩)

/-- A retire that names another domain has the instance stopped, and a fail that names
another domain rewrites the record. -/
theorem foreign_retire_and_fail_succeed :
    (sampleRunning 0).validate = none ∧ sampleUnclaimed.validate = none ∧
    Foreign (sampleStore (sampleRunning 0)) (.retire ⟨some foreignKey⟩) foreignKey
      ⟨(sampleRunning 0).marshal, 1⟩ (sampleRunning 0) ∧
    Executes etcd (sampleStore (sampleRunning 0))
      ((Request.retire ⟨some foreignKey⟩).program fun _ => (none : Option Unit))
      [got samplePath ⟨(sampleRunning 0).marshal, 1⟩, ⟨.cellById "cell", .ok ⟨"rep"⟩⟩,
        ⟨.stopLRPInstance "rep" sampleKey (sampleInstance 0), .ok ()⟩]
      (sampleStore (sampleRunning 0)) (.ok none) ∧
    Foreign (sampleStore sampleUnclaimed) (.fail ⟨some foreignKey, "no capacity"⟩) foreignKey
      ⟨sampleUnclaimed.marshal, 1⟩ sampleUnclaimed ∧
    (swapTurn (.fail ⟨some foreignKey, "no capacity"⟩) (sampleStore sampleUnclaimed) samplePath
      ⟨sampleUnclaimed.marshal, 1⟩ [2] (sampleUnclaimed.failedWith "no capacity" 2) []).Executed
        fun _ => (none : Option Unit) := by
  refine ⟨by decide, by decide, sampleStore_foreign rfl _ rfl, ⟨?_, ?_⟩,
    sampleStore_foreign rfl _ rfl, ?_⟩
  · have held : ¬ ((sampleRunning 0).state = .unclaimed ∨ (sampleRunning 0).state = .crashed) := by
      decide
    have success : Success (fun _ => (none : Option Unit)) (.retire ⟨some foreignKey⟩)
        [got samplePath ⟨(sampleRunning 0).marshal, 1⟩, ⟨.cellById "cell", .ok ⟨"rep"⟩⟩,
          ⟨.stopLRPInstance "rep" sampleKey (sampleInstance 0), .ok ()⟩] none :=
      .stop rfl (ActualLRP.unmarshal_marshal (sampleRunning 0)) held
    exact success.returns
  · exact .cons ⟨sampleStore_nodes _, rfl⟩ (.cons ⟨trivial, rfl⟩ (.cons ⟨trivial, rfl⟩ (.nil _)))
  · exact swapTurn_executed rfl (sampleStore_nodes _) (ActualLRP.unmarshal_marshal _)
      (.fail rfl) rfl (.nil _)

end Bbs.Lifecycle
