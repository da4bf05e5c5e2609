import Bbs.Rpc.Refusals

/-!
Calls whose request or response does not arrive.

Whatever happens to it on the way, each time that the request is sent it has the effect of one local
call or none (`remote_calls`), so it has no more effects than it was sent times
(`lifecycle_served_per_sending`). A client that is told of a success by the handlers can rely on it
(`lifecycle_success_honest`), and one that gets an error of the transport knows nothing.
-/

namespace Bbs.Rpc

open Bbs.Etcd Bbs.Interaction Bbs.Models Bbs.Text

variable {D : Type} {router : Router} {fromJSON : Json → Option (Option D)}
  {quote parseMediaType : String → String} {call : LifecycleCall} {req : HttpRequest}
  {l : List (Exchange (Call (Option D)) Answer)}

/-! ### The request as it was written -/

/-- What is done with the request of a call. -/
def LifecycleCall.served (fromJSON : Json → Option (Option D)) (quote : String → String)
    (call : LifecycleCall) : Operation (Option D) Served :=
  match call.arrives quote with
  | .error err => return .write (writeBadRequestResponse invalidRequest err)
  | .ok request => serveRequest fromJSON request

/-- The calls are those of serving the request, once. -/
def LifecycleCall.Serves (fromJSON : Json → Option (Option D)) (quote : String → String)
    (call : LifecycleCall) (l : List (Exchange (Call (Option D)) Answer))
    (result : Except Failure (Option ActualLRP)) : Prop :=
  ∃ request, call.arrives quote = .ok request ∧ request.validate = none ∧
    Returns (serving fromJSON request) l result

theorem refused_ne_ok {e : ProtoError} {m : Option ActualLRP} : refused e ≠ .ok m := by
  intro same
  rw [refused] at same
  split at same <;> cases same

theorem finish_lost (call : LifecycleCall) (fuel : Nat) :
    call.finish parseMediaType fuel (.error ()) = some (.failed .transport) := by
  cases call <;> rfl

/-- What a client knows if it gets no response. -/
def lost : Served → Option (Outcome (Option ActualLRP))
  | .unfinished => none
  | .panicked | .responded _ => some (.failed .transport)

theorem remote_requestLost (created : call.createRequest router = some (.ok req)) (fuel : Nat) :
    remote router fromJSON quote parseMediaType fuel .requestLost call =
      return some (.failed .transport) := by
  rw [remote, created]
  exact congrArg Program.ret (finish_lost call fuel)

theorem remote_responseLost (created : call.createRequest router = some (.ok req)) (fuel : Nat) :
    remote router fromJSON quote parseMediaType fuel .responseLost call = (do
      let served ← serve router fromJSON quote fuel req (.ok req.body)
      return lost served) := by
  rw [remote, created]
  dsimp only
  rw [exchange, Program.bind_assoc]
  congr 1
  funext served
  cases served with
  | unfinished => rfl
  | panicked | responded => exact congrArg Program.ret (finish_lost call fuel)

theorem remote_cut (created : call.createRequest router = some (.ok req)) (fuel : Nat)
    (err : String) :
    remote router fromJSON quote parseMediaType fuel (.requestCut err) call = (do
      let served ← serve router fromJSON quote fuel req (.error err)
      return concluded (fun fuel res => call.finish parseMediaType fuel res) fuel served) :=
  remote_of_exchange created rfl

variable (fromJSON quote parseMediaType) in
/-- Only the handler that does not read the body can go on. -/
theorem remote_requestCut (created : call.createRequest router = some (.ok req))
    (handsOn : router.HandsOn call req) (err : String) :
    (∀ fuel, remote router fromJSON quote parseMediaType fuel (.requestCut err) call =
      return concluded (fun fuel res => call.finish parseMediaType fuel res) fuel
        (.write (writeUnknownErrorResponse err))) ∨
    ∀ fuel, remote router fromJSON quote parseMediaType fuel (.requestCut err) call =
      remote router fromJSON quote parseMediaType fuel .delivered call := by
  obtain ⟨formValue, -, serves⟩ := @serve_of_handsOn D router fromJSON quote call req handsOn
  simp only [remote_cut created, remote_delivered created, serves]
  cases call with
  | removeActualLRP => exact .inr fun fuel => rfl
  | claimActualLRP | startActualLRP | crashActualLRP | failActualLRP | retireActualLRP =>
    exact .inl fun fuel => rfl

/-! ### A removal -/

/-- A record that is found and deleted. -/
def removal (processGuid : String) (index : Int32) (lrp : ActualLRP) :
    List (Exchange (Call (Option D)) Answer) :=
  [⟨.get (actualLRPSchemaPath processGuid index), .ok (.leaf ⟨lrp.marshal, 1⟩)⟩,
    ⟨.compareAndDelete (actualLRPSchemaPath lrp.key.processGuid lrp.key.index) 1, .ok ()⟩]

theorem removal_returns (processGuid : String) (index : Int32) (lrp : ActualLRP) :
    Returns (serving fromJSON (.remove processGuid index)) (removal processGuid index lrp)
      (.ok none) := by
  have decoded : decodeFetched ActualLRP.unmarshal (.leaf ⟨lrp.marshal, 1⟩) = .ok (lrp, 1) := by
    simp only [decodeFetched, ActualLRP.unmarshal_marshal]
  have found : Returns
      (rawActuaLLRPByProcessGuidAndIndex processGuid index : Operation (Option D) _)
      [⟨.get (actualLRPSchemaPath processGuid index), .ok (.leaf ⟨lrp.marshal, 1⟩)⟩]
      (.ok (lrp, 1)) :=
    Returns.call_iff.2 ⟨_, _, rfl, Returns.ret_iff.2 ⟨rfl, decoded⟩⟩
  have removed : Returns (removeActualLRP lrp 1 : Operation (Option D) _)
      [⟨.compareAndDelete (actualLRPSchemaPath lrp.key.processGuid lrp.key.index) 1, .ok ()⟩]
      (.ok ()) :=
    Returns.call_iff.2 ⟨_, _, rfl, Returns.ret_iff.2 ⟨rfl, rfl⟩⟩
  exact Returns.map_iff.2 ⟨.ok (), Returns.bind_iff.2 ⟨_, _, _, rfl, found, removed⟩, rfl⟩

/-- A record that is not found. -/
def missing (processGuid : String) (index : Int32) : List (Exchange (Call (Option D)) Answer) :=
  [⟨.get (actualLRPSchemaPath processGuid index), .error ⟨etcdErrKeyNotFound⟩⟩]

theorem parseInt32_zero : parseInt32 id (itoa (0 : Int64).toInt) = .ok 0 := by
  decide +kernel

def sampleRemoval : LifecycleCall :=
  .removeActualLRP "process" 0

theorem sampleRemoval_arrives : sampleRemoval.arrives id = .ok (.remove "process" 0) := by
  rw [sampleRemoval, LifecycleCall.arrives, parseInt32_zero]
  rfl

def removalRequest : HttpRequest :=
  ⟨"/v1/actual_lrps/process/index/0", []⟩

theorem removalRequest_created :
    sampleRemoval.createRequest sampleRouter = some (.ok removalRequest) := by
  have path : sampleRouter.createRequest sampleRemoval.route sampleRemoval.params =
      .ok removalRequest.path := by
    decide +kernel
  rw [LifecycleCall.createRequest, path]
  rfl

theorem removalRequest_handsOn : sampleRouter.HandsOn sampleRemoval removalRequest := by
  have split : segments removalRequest.path =
      ["", "v1", "actual_lrps", "process", "index", "0"] := by
    decide +kernel
  have index : itoa 0 = "0" := by decide +kernel
  have dispatched : sampleRouter.dispatch removalRequest.path = some (.removeActualLRP, fun name =>
      if name = ":process_guid" then "process" else if name = ":index" then "0" else "") := by
    rw [sampleRouter]
    dsimp only
    rw [split]
    rfl
  refine ⟨_, dispatched, ?_⟩
  simp [sampleRemoval, LifecycleCall.params, index]

/-- A removal that is delivered. -/
theorem sampleRemoval_returns {l : List (Exchange (Call (Option DesiredLRP)) Answer)}
    {result : Except Failure (Option ActualLRP)}
    (returns : Returns (serving sampleDecoder (.remove "process" 0)) l result) (calls : l ≠ []) :
    ∃ needed, ∀ fuel, needed ≤ fuel →
      Returns (remote sampleRouter sampleDecoder id id fuel .delivered sampleRemoval) l
        (some (ended result)) :=
  (remote_iff_locally rfl removalRequest_created removalRequest_handsOn).1 (locally_iff.2 (.inr
    ⟨_, _, sampleRemoval_arrives, rfl, returns, calls, serving_panics_iff rfl returns, rfl⟩))

/-! ### Whatever happens -/

theorem ended_eq_ok {result : Except Failure (Option ActualLRP)} {m : Option ActualLRP}
    (told : ended result = .ok m) :
    ∃ lrp, result = .ok lrp ∧ m = lrp.map ActualLRP.message.normal := by
  cases result with
  | ok lrp =>
    refine ⟨lrp, rfl, ?_⟩
    cases lrp with
    | none => exact (Outcome.ok.inj told).symm
    | some lrp =>
      rw [ended, succeeded] at told
      split at told
      · exact (Outcome.ok.inj told).symm
      · cases told
  | error failure =>
    cases failure with
    | panic => cases told
    | error bbsErr => exact absurd told refused_ne_ok

/-- A success that the handlers told of is one. -/
theorem lifecycle_success_honest (created : call.createRequest router = some (.ok req))
    (handsOn : router.HandsOn call req)
    (parses : parseMediaType protoContentType = protoContentType) {transfer : Transfer}
    {m : Option ActualLRP} (own : ∀ res, transfer ≠ .intercepted res)
    (returns : ∃ needed, ∀ fuel, needed ≤ fuel →
      Returns (remote router fromJSON quote parseMediaType fuel transfer call) l (some (.ok m))) :
    ∃ lrp, call.Serves fromJSON quote l (.ok lrp) ∧ m = lrp.map ActualLRP.message.normal := by
  have delivered : (∃ needed, ∀ fuel, needed ≤ fuel →
      Returns (remote router fromJSON quote parseMediaType fuel .delivered call) l
        (some (.ok m))) →
      ∃ lrp, call.Serves fromJSON quote l (.ok lrp) ∧
        m = lrp.map ActualLRP.message.normal := by
    intro returns
    rcases locally_iff.1 ((remote_iff_locally parses created handsOn).2 returns) with
      ⟨err, -, -, told⟩ | ⟨request, result, arrives, valid, runs, -, -, told⟩
    · exact absurd told.symm refused_ne_ok
    · obtain ⟨lrp, rfl, same⟩ := ended_eq_ok told.symm
      exact ⟨lrp, ⟨request, arrives, valid, runs⟩, same⟩
  cases transfer with
  | delivered => exact delivered returns
  | intercepted res => exact absurd rfl (own res)
  | requestLost =>
    obtain ⟨needed, returns⟩ := returns
    have runs := returns needed le_rfl
    rw [remote_requestLost created] at runs
    cases (Returns.ret_iff.1 runs).2
  | responseLost =>
    obtain ⟨needed, returns⟩ := returns
    have runs := returns needed le_rfl
    rw [remote_responseLost created] at runs
    obtain ⟨served, -, told⟩ := Returns.map_iff.1 runs
    cases served <;> cases told
  | requestCut err =>
    rcases remote_requestCut fromJSON quote parseMediaType created handsOn err with
      refuses | goesOn
    · -- the client gets the handler's complaint about the body, or no response
      have understands := (call.understands parses).error (by decide : 299 < 500)
        ⟨unknownError, err⟩
      have told : Settles (fun fuel => concluded (fun fuel res =>
          call.finish parseMediaType fuel res) fuel (.write (writeUnknownErrorResponse err)))
          (.ok m) := by
        obtain ⟨needed, returns⟩ := returns
        refine ⟨needed, fun fuel enough => ?_⟩
        have runs := returns fuel enough
        rw [refuses] at runs
        exact (Returns.ret_iff.1 runs).2
      exact absurd (understands.unique told) refused_ne_ok
    · simp only [goesOn] at returns
      exact delivered returns

/-- A removal that succeeds. -/
theorem lifecycle_success_honest_removal :
    ∃ lrp, sampleRemoval.Serves sampleDecoder id (removal "process" 0 sampleUnclaimed) (.ok lrp) ∧
      none = lrp.map ActualLRP.message.normal :=
  lifecycle_success_honest removalRequest_created removalRequest_handsOn rfl
    (by intro _ same; cases same)
    (sampleRemoval_returns (removal_returns "process" 0 sampleUnclaimed) (List.cons_ne_nil _ _))

end Bbs.Rpc
