import Bbs.Etcd.Calls
import Bbs.Rpc.Lifecycle

/-!
What the lifecycle handlers refuse, and what a client learns of it.

A body is refused without any call, or it holds a valid request. Serving a valid request
dereferences no nil pointer, except that a crash which restarts its instance panics on a desired LRP
on which `FromJSON` panics, after the record was written and before the auction is requested
(`lifecycle_handler_safe`). A client that gets the response learns the result
(`lifecycle_remote_iff`), but of the errors of the database it can tell apart only that there is no
such record. If it is told that its request is invalid, nothing was done
(`invalid_request_untouched`).
-/

namespace Bbs.Rpc

open Bbs.Etcd Bbs.Interaction Bbs.Models Bbs.Text
open Bbs.Protobuf (Message Tame tame_of_low)

variable {D : Type}

/-! ### Valid requests -/

theorem claim_pointers {request : ClaimActualLRPRequest} (valid : request.validate = none) :
    ∃ instanceKey, request.actualLrpInstanceKey = some instanceKey := by
  rw [ClaimActualLRPRequest.validate, ValidationError.result_eq_none, pointer_instanceKey] at valid
  obtain ⟨-, instanceKey, named, -⟩ := valid
  exact ⟨instanceKey, named⟩

theorem crash_pointers {request : CrashActualLRPRequest} (valid : request.validate = none) :
    ∃ key, request.actualLrpKey = some key := by
  rw [CrashActualLRPRequest.validate, ValidationError.result_eq_none, pointer_instanceKey,
    pointer_key] at valid
  obtain ⟨⟨-, key, named, -⟩, -⟩ := valid
  exact ⟨key, named⟩

theorem fail_pointers {request : FailActualLRPRequest} (valid : request.validate = none) :
    ∃ key, request.actualLrpKey = some key := by
  rw [FailActualLRPRequest.validate, ValidationError.result_eq_none,
    ValidationError.check_invalidField, pointer_key] at valid
  obtain ⟨⟨-, key, named, -⟩, -⟩ := valid
  exact ⟨key, named⟩

theorem retire_pointers {request : RetireActualLRPRequest} (valid : request.validate = none) :
    ∃ key, request.actualLrpKey = some key := by
  rw [RetireActualLRPRequest.validate, ValidationError.result_eq_none, pointer_key] at valid
  obtain ⟨-, key, named, -⟩ := valid
  exact ⟨key, named⟩

/-! ### Serving them does not panic -/

/-- The result is no panic. -/
def Sane {α : Type} (result : Except Failure α) : Prop :=
  result ≠ .error .panic

theorem sane_ok {α : Type} (a : α) : Sane (.ok a) :=
  nofun

theorem sane_error {α : Type} (e : Error) : Sane (.error (.error e) : Except Failure α) :=
  nofun

theorem Sane.map {α β : Type} {result : Except Failure α} (sane : Sane result) (f : α → β) :
    Sane (result.map f) := by
  cases result with
  | ok a => exact sane_ok _
  | error failure =>
    cases failure with
    | error e => exact sane_error e
    | panic => exact absurd rfl sane

theorem sane_mapError {α : Type} (result : Except Error α) :
    Sane (result.mapError Failure.error) := by
  cases result with
  | ok a => exact sane_ok a
  | error e => exact sane_error e

theorem claim_sane {request : ClaimActualLRPRequest} (valid : request.validate = none) :
    (Etcd.claimActualLRP request : Operation D _).Yields Sane := by
  obtain ⟨instanceKey, named⟩ := claim_pointers valid
  rw [Etcd.claimActualLRP]
  refine (Program.yields_true _).bind fun found _ => ?_
  rcases found with e | ⟨lrp, version⟩
  · exact sane_error e
  · simp only [named]
    split
    · exact sane_error _
    · split
      · exact sane_error _
      · intro answer
        cases answer with
        | error => exact sane_error _
        | ok => exact sane_ok _

theorem start_sane {request : StartActualLRPRequest} (valid : request.validate = none) :
    (Etcd.startActualLRP request : Operation D _).Yields Sane := by
  obtain ⟨key, instanceKey, netInfo, rfl, -⟩ :=
    StartActualLRPRequest.validate_eq_none_iff.1 valid
  rw [Etcd.startActualLRP]
  refine (Program.yields_true _).bind fun found _ => ?_
  rcases found with e | ⟨lrp, version⟩
  · dsimp only
    split
    · intro drawn
      cases drawn with
      | error => exact sane_error _
      | ok guid =>
        intro now answer
        cases answer with
        | error => exact sane_error _
        | ok => exact sane_ok _
    · exact sane_error e
  · dsimp only
    split
    · exact sane_ok lrp
    · split
      · exact sane_error _
      · intro now answer
        cases answer with
        | error => exact sane_error _
        | ok => exact sane_ok _

theorem crash_sane (fromJSON : Json → Option D) {request : CrashActualLRPRequest}
    (valid : request.validate = none) :
    (Etcd.crashActualLRP fromJSON request).Yields Sane := by
  obtain ⟨key, named⟩ := crash_pointers valid
  rw [Etcd.crashActualLRP, named]
  refine (Program.yields_true _).bind fun found _ => ?_
  rcases found with e | ⟨lrp, version⟩
  · exact sane_error e
  · intro readAt
    dsimp only [Program.bind]
    split
    · exact sane_error _
    · split
      · exact sane_error _
      · intro now
        -- right after a crash the default restart calculator does not come to its panic
        simp only [Program.bind, ActualLRP.crashedWith_shouldRestart]
        intro answer
        cases answer with
        | error => exact sane_error _
        | ok =>
          dsimp only [Program.bind]
          split
          · exact (Program.yields_true _).bind fun _ _ => sane_ok ()
          · exact sane_ok ()

theorem fail_sane {request : FailActualLRPRequest} (valid : request.validate = none) :
    (Etcd.failActualLRP request : Operation D _).Yields Sane := by
  obtain ⟨key, named⟩ := fail_pointers valid
  rw [Etcd.failActualLRP, named]
  refine (Program.yields_true _).bind fun found _ => ?_
  rcases found with e | ⟨lrp, version⟩
  · exact sane_error e
  · dsimp only
    split
    · exact sane_error _
    · intro now answer
      cases answer with
      | error => exact sane_error _
      | ok => exact sane_ok ()

theorem retire_sane {request : RetireActualLRPRequest} (valid : request.validate = none) :
    (Etcd.retireActualLRP request : Operation D _).Yields Sane := by
  obtain ⟨key, named⟩ := retire_pointers valid
  rw [Etcd.retireActualLRP, named]
  exact (Program.yields_true _).bind fun result _ => sane_mapError result

/-! ### When it panics -/

/-- The crash was written and the instance is to be restarted, and `FromJSON` panics on the desired
LRP that was read for that. -/
def Stuck (fromJSON : Json → Option (Option D)) (request : Request)
    (l : List (Exchange (Call (Option D)) Answer)) : Prop :=
  ∃ crash key node lrp readAt now desired, request = .crash crash ∧
    crash.actualLrpKey = some key ∧ ActualLRP.unmarshal node.value = some lrp ∧
    fromJSON desired.value = some none ∧
    l = [got (actualLRPSchemaPath key.processGuid key.index) node, ⟨.now, readAt⟩, ⟨.now, now⟩,
      swapped (actualLRPSchemaPath key.processGuid key.index)
        (lrp.crashOutcome readAt now crash.errorMessage) node.modifiedIndex,
      got (desiredLRPSchemaPathByProcessGuid key.processGuid) desired]

section
variable {fromJSON : Json → Option (Option D)} {request : CrashActualLRPRequest}
  {l : List (Exchange (Call (Option D)) Answer)}

/-- What comes before the first exchange that is not free. -/
theorem eq_takeWhile {α : Type} {p : α → Bool} {xs ys zs : List α} {y : α}
    (free : ∀ x ∈ xs, p x = true) (first : p y = false) (whole : xs ++ y :: zs = ys) :
    xs = ys.takeWhile p := by
  rw [← whole, List.takeWhile_append_of_pos free, List.takeWhile_cons_of_neg (by simp [first]),
    List.append_nil]

theorem free_of_unwritten {x : Exchange (Call (Option D)) Answer}
    (unwritten : Unwritten (.crash request) x) : unread x.call = false := by
  rcases unwritten with ⟨path, -, same⟩ | same | ⟨path, value, version, e, rfl⟩
  · rw [same]
    rfl
  · rw [same]
    rfl
  · rfl

/-- A crash that stands before a call which a panic keeps from being made. -/
theorem stuck_of_plays {c : Call (Option D)}
    {k : Answer c → Operation (Option D) (Except Failure Unit)}
    (plays : Plays (Etcd.crashActualLRP fromJSON request) l (.call c k))
    (free : ∀ x ∈ l, unread x.call = false) (barred : unread c = true) :
    Stuck fromJSON (.crash request) l := by
  -- let the call be answered, and look at what the crash has then done
  obtain ⟨answer⟩ := (inferInstance : Nonempty (Answer c))
  obtain ⟨rest, result, returns⟩ := (plays.append (.cons (.nil (k answer)))).extends
  have history := crashReturns_of_returns returns
  rw [List.append_assoc, List.singleton_append] at history
  generalize whole : l ++ ⟨c, answer⟩ :: rest = ys at history
  have met : ∃ x ∈ ys, unread x.call = true := ⟨⟨c, answer⟩, by simp [← whole], barred⟩
  have initial : l = ys.takeWhile fun x => !unread x.call :=
    eq_takeWhile (by simpa using free) (by simpa using barred) whole
  cases history with
  | refused unwritten =>
    obtain ⟨x, mem, barred⟩ := met
    rw [free_of_unwritten (unwritten x mem)] at barred
    cases barred
  | crashed => simp [unread] at met
  | @restarted key node lrp readAt now tail res named decoded update early auction =>
    cases auction with
    | unread | undeleted | deleted => simp [unread] at met
    | @requested desired found answer read =>
      cases found with
      | some d => simp [unread] at met
      | none =>
        refine ⟨request, key, node, lrp, readAt, now, desired, rfl, named, decoded, read, ?_⟩
        simpa [unread] using initial

theorem crash_panics_iff {result : Except Failure Unit} (valid : request.validate = none)
    (returns : Returns (crashOrPanic fromJSON request) l result) :
    result = .error .panic ↔ Stuck fromJSON (.crash request) l := by
  obtain ⟨free, ends⟩ := Returns.barring_iff.1 returns
  constructor
  · rintro rfl
    rcases ends with returns | ⟨-, c, k, plays, barred⟩
    · exact absurd rfl ((crash_sane fromJSON valid).of_returns returns)
    · exact stuck_of_plays plays free barred
  · rintro ⟨crash, key, node, lrp, readAt, now, desired, same, named, -, panics, rfl⟩
    cases same
    rcases ends with returns | ⟨panicked, -⟩
    · -- it would have gone on
      have history := crashReturns_of_returns returns
      generalize whole : [_, _, _, _, _] = ys at history
      cases history with
      | refused unwritten =>
        have written := unwritten (swapped (actualLRPSchemaPath key.processGuid key.index)
          (lrp.crashOutcome readAt now request.errorMessage) node.modifiedIndex)
          (by rw [← whole]; simp)
        rcases written with ⟨path, -, same⟩ | same | ⟨path, value, version, e, same⟩ <;> cases same
      | crashed => simp at whole
      | restarted named' decoded update early auction =>
        cases named.symm.trans named'
        have tail := congrArg (List.drop 4) whole
        dsimp only [List.drop] at tail
        subst tail
        cases auction with
        | unread read => simp [readAnswer, decodeFetched, panics] at read
    · exact panicked

/-- A crash that restarts its instance does come to the desired LRP. -/
theorem crash_stuck {key : ActualLRPKey} {node desired : Versioned.Node Json} {lrp : ActualLRP}
    {readAt now : Int64} (named : request.actualLrpKey = some key)
    (decoded : ActualLRP.unmarshal node.value = some lrp)
    (allowed : lrp.allowsTransitionTo (some key) request.actualLrpInstanceKey .crashed = true)
    (crashes : lrp.cannotCrash request.actualLrpInstanceKey = false)
    (early : lrp.newCrashCount readAt < defaultImmediateRestarts)
    (panics : fromJSON desired.value = some none) :
    Returns (crashOrPanic fromJSON request)
      [got (actualLRPSchemaPath key.processGuid key.index) node, ⟨.now, readAt⟩, ⟨.now, now⟩,
        swapped (actualLRPSchemaPath key.processGuid key.index)
          (lrp.crashOutcome readAt now request.errorMessage) node.modifiedIndex,
        got (desiredLRPSchemaPathByProcessGuid key.processGuid) desired]
      (.error .panic) := by
  have closing : Closing fromJSON (.crash request)
      (lrp.crashOutcome readAt now request.errorMessage)
      ([got (desiredLRPSchemaPathByProcessGuid key.processGuid) desired] ++
        [⟨.requestLRPAuctions [⟨some none, [key.index.toInt64.toUInt64]⟩], .ok ()⟩]) := by
    simp only [Closing, ActualLRP.crashOutcome, early, if_true]
    exact ⟨key, named, .requested panics⟩
  have returns := crash_returns named decoded allowed crashes closing
  rw [← List.cons_append, ← List.cons_append, ← List.cons_append, ← List.cons_append] at returns
  obtain ⟨k, plays⟩ := Plays.pending returns
  exact Returns.barring_iff.2 ⟨by simp [unread], .inr ⟨rfl, _, k, plays, rfl⟩⟩

/-- Serving a valid request never dereferences nil, unless the desired LRP makes it. -/
theorem serving_panics_iff {request : Request} (valid : request.validate = none)
    {result : Except Failure (Option ActualLRP)}
    (returns : Returns (serving fromJSON request) l result) :
    result = .error .panic ↔ Stuck fromJSON request l := by
  have other (sane : Sane result) (different : ∀ crash, request ≠ .crash crash) :
      result = .error .panic ↔ Stuck fromJSON request l :=
    iff_of_false sane fun ⟨crash, _, _, _, _, _, _, same, _⟩ => different crash same
  cases request with
  | claim request =>
    obtain ⟨found, runs, rfl⟩ := Returns.map_iff.1 returns
    exact other (((claim_sane valid).of_returns runs).map _) (by simp)
  | start request =>
    obtain ⟨found, runs, rfl⟩ := Returns.map_iff.1 returns
    exact other (((start_sane valid).of_returns runs).map _) (by simp)
  | fail request =>
    obtain ⟨found, runs, rfl⟩ := Returns.map_iff.1 returns
    exact other (((fail_sane valid).of_returns runs).map _) (by simp)
  | remove processGuid index =>
    obtain ⟨found, runs, rfl⟩ := Returns.map_iff.1 returns
    exact other (sane_mapError _) (by simp)
  | retire request =>
    obtain ⟨found, runs, rfl⟩ := Returns.map_iff.1 returns
    exact other (((retire_sane valid).of_returns runs).map _) (by simp)
  | crash request =>
    obtain ⟨found, runs, rfl⟩ := Returns.map_iff.1 returns
    rw [← crash_panics_iff valid runs]
    cases found with
    | ok => simp [Except.map]
    | error failure => cases failure <;> simp [Except.map]

end

/-! ### Every valid request reads -/

/-- The program begins with reading a node. -/
def Opens {α : Type} (p : Operation (Option D) α) : Prop :=
  ∃ path k, p = .call (.get path) k

theorem Opens.calls {α : Type} {p : Operation (Option D) α} (opens : Opens p)
    {l : List (Exchange (Call (Option D)) Answer)} {a : α} (returns : Returns p l a) : l ≠ [] := by
  obtain ⟨path, k, rfl⟩ := opens
  obtain ⟨answer, rest, rfl, -⟩ := Returns.call_iff.1 returns
  exact List.cons_ne_nil _ _

theorem Opens.bind {α β : Type} {p : Operation (Option D) α} (opens : Opens p)
    (f : α → Operation (Option D) β) : Opens (p >>= f) := by
  obtain ⟨path, k, rfl⟩ := opens
  exact ⟨path, _, rfl⟩

theorem Opens.barring {α : Type} {p : Operation (Option D) α} (opens : Opens p) (r : α) :
    Opens (p.barring unread r) := by
  obtain ⟨path, k, rfl⟩ := opens
  exact ⟨path, _, rfl⟩

theorem serving_opens (fromJSON : Json → Option (Option D)) {request : Request}
    (valid : request.validate = none) : Opens (serving fromJSON request) := by
  have reads : ∀ {α : Type} {processGuid : String} {index : Int32}
      (f : Except Error (ActualLRP × Nat) → Operation (Option D) α),
      Opens (rawActuaLLRPByProcessGuidAndIndex processGuid index >>= f) :=
    fun f => Opens.bind ⟨_, _, rfl⟩ f
  cases request with
  | claim request => exact Opens.bind (reads _) _
  | start request =>
    obtain ⟨key, instanceKey, netInfo, rfl, -⟩ :=
      StartActualLRPRequest.validate_eq_none_iff.1 valid
    exact Opens.bind (reads _) _
  | crash request =>
    obtain ⟨key, named⟩ := crash_pointers valid
    refine Opens.bind (Opens.barring ?_ _) _
    rw [Etcd.crashActualLRP, named]
    exact reads _
  | fail request =>
    obtain ⟨key, named⟩ := fail_pointers valid
    refine Opens.bind ?_ _
    rw [Etcd.failActualLRP, named]
    exact reads _
  | remove processGuid index => exact Opens.bind (reads _) _
  | retire request =>
    obtain ⟨key, named⟩ := retire_pointers valid
    refine Opens.bind ?_ _
    rw [Etcd.retireActualLRP, named]
    exact Opens.bind (reads _) _

/-! ### The handlers -/

/-- What is responded to a request that was served. -/
def completed : Option ActualLRP → Served
  | none => .responded (writeEmptyResponse 204)
  | some lrp => .write (writeProtoResponse 200 ActualLRP.message lrp)

/-- What is done with a request that was read. -/
def serveRequest (fromJSON : Json → Option (Option D)) (request : Request) :
    Operation (Option D) Served :=
  match request.validate with
  | some err => return .write (writeBadRequestResponse invalidRequest err.error)
  | none => do return respond completed (← serving fromJSON request)

/-- The parts of a handler that reads its request from the body. -/
structure Handles (fromJSON : Json → Option (Option D)) {R α : Type}
    (validate : R → Option ErrorValue) (operation : R → Operation (Option D) (Except Failure α))
    (success : α → Served) (request : R → Request) (wrap : α → Option ActualLRP) : Prop where
  validates : ∀ r, (request r).validate = validate r
  serves : ∀ r, serving fromJSON (request r) = do return (← operation r).map wrap
  completes : ∀ a, success a = completed (wrap a)

section
variable {fromJSON : Json → Option (Option D)}

theorem claim_handles : Handles fromJSON ClaimActualLRPRequest.validate Etcd.claimActualLRP
    (fun actualLRP => .write (writeProtoResponse 200 ActualLRP.message actualLRP)) .claim some :=
  ⟨fun _ => rfl, fun _ => rfl, fun _ => rfl⟩

theorem start_handles : Handles fromJSON StartActualLRPRequest.validate Etcd.startActualLRP
    (fun actualLRP => .write (writeProtoResponse 200 ActualLRP.message actualLRP)) .start some :=
  ⟨fun _ => rfl, fun _ => rfl, fun _ => rfl⟩

theorem crash_handles : Handles fromJSON CrashActualLRPRequest.validate
    (crashOrPanic fromJSON) (fun _ => .responded (writeEmptyResponse 204)) .crash
    (fun _ => none) :=
  ⟨fun _ => rfl, fun _ => rfl, fun _ => rfl⟩

theorem fail_handles : Handles fromJSON FailActualLRPRequest.validate Etcd.failActualLRP
    (fun _ => .responded (writeEmptyResponse 204)) .fail (fun _ => none) :=
  ⟨fun _ => rfl, fun _ => rfl, fun _ => rfl⟩

theorem retire_handles : Handles fromJSON RetireActualLRPRequest.validate Etcd.retireActualLRP
    (fun _ => .responded (writeEmptyResponse 204)) .retire (fun _ => none) :=
  ⟨fun _ => rfl, fun _ => rfl, fun _ => rfl⟩

section
variable {R α : Type} {message : Message R} {validate : R → Option ErrorValue}
  {operation : R → Operation (Option D) (Except Failure α)} {success : α → Served}
  {request : R → Request} {wrap : α → Option ActualLRP}

theorem Handles.of_read (handles : Handles fromJSON validate operation success request wrap)
    {fuel : Nat} {body : List UInt8} {r : R}
    (reads : message.read fuel body message.zero = some (.ok r)) :
    serveBody message validate operation success fuel (.ok body) =
      serveRequest fromJSON (request r) := by
  simp only [serveBody, reads]
  rw [serveRequest, handles.validates]
  cases validate r with
  | some err => rfl
  | none =>
    dsimp only
    rw [handles.serves, Program.bind_assoc]
    congr 1
    funext result
    cases result with
    | ok a => exact congrArg Program.ret (handles.completes a)
    | error failure => cases failure <;> rfl

/-- A body is refused or read. -/
theorem Handles.of_tame (handles : Handles fromJSON validate operation success request wrap)
    (safe : ∀ n, message.SafeBelow n) {body : List UInt8} (tame : Tame body)
    (small : body.length < 2 ^ 61) {fuel : Nat} (enough : 2 * body.length + 1 ≤ fuel) :
    (∃ err, serveBody message validate operation success fuel (.ok body) =
      return .write (writeBadRequestResponse invalidRequest err)) ∨
    ∃ request, serveBody message validate operation success fuel (.ok body) =
      serveRequest fromJSON request := by
  have returns := (safe (fuel + 1)).returns fuel (Nat.lt_succ_self fuel) body message.zero tame
    small enough
  generalize reads : message.read fuel body message.zero = read at returns
  -- neither a panic nor a run that does not end is left
  cases returns with
  | error e => exact .inl ⟨e.error, by simp only [serveBody, reads]⟩
  | @ok r _ => exact .inr ⟨request r, handles.of_read reads⟩

end

theorem removeActualLRP_of_error {quote : String → String} {processGuid index err : String}
    (parsed : parseInt32 quote index = .error err) :
    (ActualLRPLifecycleHandler.removeActualLRP quote processGuid index :
        Operation (Option D) Served) =
      return .write (writeBadRequestResponse invalidRequest err) := by
  rw [ActualLRPLifecycleHandler.removeActualLRP, parsed]

variable (fromJSON) in
theorem removeActualLRP_of_parsed {quote : String → String} {processGuid index : String}
    {idx : Int32} (parsed : parseInt32 quote index = .ok idx) :
    ActualLRPLifecycleHandler.removeActualLRP quote processGuid index =
      serveRequest fromJSON (.remove processGuid idx) := by
  rw [ActualLRPLifecycleHandler.removeActualLRP, parsed, serveRequest, remove_program_bind]
  dsimp only [Request.validate]
  congr 1
  funext result
  cases result <;> rfl

end

/-- The handler refuses the request, or it does what is to be done with it. -/
theorem handle_decides (fromJSON : Json → Option (Option D)) (quote : String → String)
    (route : Route) (formValue : String → String) {body : List UInt8} (tame : Tame body)
    (small : body.length < 2 ^ 61) {fuel : Nat} (enough : 2 * body.length + 1 ≤ fuel) :
    (∃ err, handle fromJSON quote fuel route formValue (.ok body) =
      return .write (writeBadRequestResponse invalidRequest err)) ∨
    ∃ request, handle fromJSON quote fuel route formValue (.ok body) =
      serveRequest fromJSON request := by
  cases route with
  | claimActualLRP =>
    exact claim_handles.of_tame ClaimActualLRPRequest.safe tame small enough
  | startActualLRP =>
    exact start_handles.of_tame StartActualLRPRequest.safe tame small enough
  | crashActualLRP =>
    exact crash_handles.of_tame CrashActualLRPRequest.safe tame small enough
  | failActualLRP =>
    exact fail_handles.of_tame FailActualLRPRequest.safe tame small enough
  | retireActualLRP =>
    exact retire_handles.of_tame RetireActualLRPRequest.safe tame small enough
  | removeActualLRP =>
    cases parsed : parseInt32 quote (formValue ":index") with
    | error err => exact .inl ⟨err, removeActualLRP_of_error parsed⟩
    | ok idx => exact .inr ⟨_, removeActualLRP_of_parsed fromJSON parsed⟩

/-- **What a handler does with a body.** It refuses the body without any call, or it serves a valid
request. That panics if and only if it is a crash and has come to a desired LRP on which `FromJSON`
panics. -/
theorem lifecycle_handler_safe (fromJSON : Json → Option (Option D)) (quote : String → String)
    (route : Route) (formValue : String → String) {body : List UInt8} (tame : Tame body)
    (small : body.length < 2 ^ 61) {fuel : Nat} (enough : 2 * body.length + 1 ≤ fuel) :
    (∃ err, handle fromJSON quote fuel route formValue (.ok body) =
      return .write (writeBadRequestResponse invalidRequest err)) ∨
    ∃ request : Request, request.validate = none ∧
      handle fromJSON quote fuel route formValue (.ok body) = (do
        return respond completed (← serving fromJSON request)) ∧
      ∀ l result, Returns (serving fromJSON request) l result →
        (result = .error .panic ↔ Stuck fromJSON request l) := by
  rcases handle_decides fromJSON quote route formValue tame small enough with
    refuses | ⟨request, serves⟩
  · exact .inl refuses
  · rw [serves, serveRequest]
    cases valid : request.validate with
    | some err => exact .inl ⟨err.error, rfl⟩
    | none => exact .inr ⟨request, valid, rfl, fun l result => serving_panics_iff valid⟩

/-- A crash that was reported by its own instance. -/
def sampleCrash : CrashActualLRPRequest :=
  ⟨some ⟨"process", 0, "domain"⟩, some ⟨"instance", "cell"⟩, "exit"⟩

def sampleRunning : ActualLRP :=
  runningActualLRP ⟨"process", 0, "domain"⟩ ⟨"instance", "cell"⟩ ⟨"address", none⟩ 1 "epoch"

/-- The record is found and written back, and the desired LRP has an action without a variant. -/
def stuckCalls : List (Exchange (Call (Option DesiredLRP)) Answer) :=
  [got (actualLRPSchemaPath "process" 0) ⟨sampleRunning.marshal, 1⟩, ⟨.now, 2⟩, ⟨.now, 3⟩,
    swapped (actualLRPSchemaPath "process" 0) (sampleRunning.crashOutcome 2 3 "exit") 1,
    got (desiredLRPSchemaPathByProcessGuid "process") ⟨.obj [("action", .obj [])], 2⟩]

def sampleDecoder : Json → Option (Option DesiredLRP) :=
  DesiredLRP.readJSON fun _ => ""

theorem sampleDecoder_panics : sampleDecoder (.obj [("action", .obj [])]) = some none := by
  rw [sampleDecoder, DesiredLRP.readJSON, unmarshal_empty_action]
  rfl

theorem stuckCalls_return :
    Returns (serving sampleDecoder (.crash sampleCrash)) stuckCalls (.error .panic) := by
  refine Returns.map_iff.2 ⟨.error .panic, ?_, rfl⟩
  have allowed : sampleRunning.allowsTransitionTo sampleCrash.actualLrpKey
      sampleCrash.actualLrpInstanceKey .crashed = true := by decide
  have crashes : sampleRunning.cannotCrash sampleCrash.actualLrpInstanceKey = false := by decide
  have early : sampleRunning.newCrashCount 2 < defaultImmediateRestarts := by decide
  exact @crash_stuck DesiredLRP _ _ _ ⟨sampleRunning.marshal, 1⟩ ⟨.obj [("action", .obj [])], 2⟩
    _ _ _ rfl (ActualLRP.unmarshal_marshal sampleRunning) allowed crashes early
    sampleDecoder_panics

/-- The body of the crash. -/
def crashBody : List UInt8 :=
  [10, 19, 10, 7, 112, 114, 111, 99, 101, 115, 115, 16, 0, 26, 6, 100, 111, 109, 97, 105, 110, 18,
    16, 10, 8, 105, 110, 115, 116, 97, 110, 99, 101, 18, 4, 99, 101, 108, 108, 26, 4, 101, 120, 105,
    116]

/-- It is served, and the handler panics. -/
theorem lifecycle_handler_safe_stuck :
    ∃ request result, Request.validate request = none ∧
      Returns (serving sampleDecoder request) stuckCalls result ∧
      respond completed result = .panicked ∧
      (result = .error .panic ↔ Stuck sampleDecoder request stuckCalls) := by
  have reads : CrashActualLRPRequest.message.read 91 crashBody CrashActualLRPRequest.message.zero =
      some (.ok sampleCrash) := by
    rfl
  have runs : Returns (handle sampleDecoder id 91 .crashActualLRP (fun _ => "") (.ok crashBody))
      stuckCalls .panicked := by
    rw [handle, ActualLRPLifecycleHandler.crashActualLRP, crash_handles.of_read reads]
    exact Returns.map_iff.2 ⟨_, stuckCalls_return, rfl⟩
  have tame : Tame crashBody := tame_of_low (by decide +kernel)
  rcases lifecycle_handler_safe sampleDecoder id .crashActualLRP (fun _ => "") tame (by decide)
    (by decide : 2 * crashBody.length + 1 ≤ 91) with
    ⟨err, refuses⟩ | ⟨request, valid, serves, panics⟩
  · rw [refuses] at runs
    cases (Returns.ret_iff.1 runs).1
  · rw [serves] at runs
    obtain ⟨result, runs, same⟩ := Returns.map_iff.1 runs
    exact ⟨request, result, valid, runs, same, panics _ _ runs⟩

/-! ### What the client learns -/

/-- Why the request of the call is refused. -/
def LifecycleCall.Refused (quote : String → String) (call : LifecycleCall) (err : String) : Prop :=
  call.arrives quote = .error err ∨
    ∃ request e, call.arrives quote = .ok request ∧ request.validate = some e ∧ err = e.error

section
variable {router : Router} {fromJSON : Json → Option (Option D)} {quote : String → String}
  {call : LifecycleCall}

theorem LifecycleCall.Refused.locally {err : String} (refuses : call.Refused quote err) :
    call.locally fromJSON quote = return refused ⟨invalidRequest, err⟩ := by
  rw [LifecycleCall.locally]
  rcases refuses with arrives | ⟨request, e, arrives, invalid, rfl⟩
  · rw [arrives]
  · simp only [arrives, invalid]

theorem locally_of_valid {request : Request} (arrives : call.arrives quote = .ok request)
    (valid : request.validate = none) :
    call.locally fromJSON quote = do return ended (← serving fromJSON request) := by
  rw [LifecycleCall.locally]
  simp only [arrives, valid]

theorem LifecycleCall.refused_or_valid (quote : String → String) (call : LifecycleCall) :
    (∃ err, call.Refused quote err) ∨
      ∃ request, call.arrives quote = .ok request ∧ request.validate = none := by
  cases arrives : call.arrives quote with
  | error err => exact .inl ⟨err, .inl arrives⟩
  | ok request =>
    cases valid : request.validate with
    | some e => exact .inl ⟨e.error, .inr ⟨request, e, arrives, valid, rfl⟩⟩
    | none => exact .inr ⟨request, rfl, valid⟩

theorem locally_iff {l : List (Exchange (Call (Option D)) Answer)}
    {outcome : Outcome (Option ActualLRP)} :
    Returns (call.locally fromJSON quote) l outcome ↔
      (∃ err, call.Refused quote err ∧ l = [] ∧ outcome = refused ⟨invalidRequest, err⟩) ∨
      ∃ request result, call.arrives quote = .ok request ∧ request.validate = none ∧
        Returns (serving fromJSON request) l result ∧ l ≠ [] ∧
          (result = .error .panic ↔ Stuck fromJSON request l) ∧ outcome = ended result := by
  constructor
  · intro returns
    rcases call.refused_or_valid quote with ⟨err, refuses⟩ | ⟨request, arrives, valid⟩
    · rw [refuses.locally] at returns
      obtain ⟨rfl, rfl⟩ := Returns.ret_iff.1 returns
      exact .inl ⟨err, refuses, rfl, rfl⟩
    · rw [locally_of_valid arrives valid] at returns
      obtain ⟨result, served, rfl⟩ := Returns.map_iff.1 returns
      exact .inr ⟨request, result, arrives, valid, served,
        (serving_opens fromJSON valid).calls served, serving_panics_iff valid served, rfl⟩
  · rintro (⟨err, refuses, rfl, rfl⟩ | ⟨request, result, arrives, valid, returns, -, -, rfl⟩)
    · rw [refuses.locally]
      exact Returns.ret_iff.2 ⟨rfl, rfl⟩
    · rw [locally_of_valid arrives valid]
      exact Returns.map_iff.2 ⟨result, returns, rfl⟩

/-- A remote call whose request and response are delivered. It is refused without any call, or it
is a valid request that was served; the outcome is what the client makes of that. -/
theorem lifecycle_remote_iff {parseMediaType : String → String} {req : HttpRequest}
    (parses : parseMediaType protoContentType = protoContentType)
    (created : call.createRequest router = some (.ok req)) (handsOn : router.HandsOn call req)
    {l : List (Exchange (Call (Option D)) Answer)}
    {outcome : Outcome (Option ActualLRP)} :
    (∃ needed, ∀ fuel, needed ≤ fuel →
      Returns (remote router fromJSON quote parseMediaType fuel .delivered call) l (some outcome)) ↔
      (∃ err, call.Refused quote err ∧ l = [] ∧ outcome = refused ⟨invalidRequest, err⟩) ∨
      ∃ request result, call.arrives quote = .ok request ∧ request.validate = none ∧
        Returns (serving fromJSON request) l result ∧ l ≠ [] ∧
          (result = .error .panic ↔ Stuck fromJSON request l) ∧ outcome = ended result := by
  rw [← remote_iff_locally parses created handsOn]
  exact locally_iff

/-- A claim of a record that nobody holds. -/
def sampleClaim : LifecycleCall :=
  .claimActualLRP "process" 0 (some ⟨"instance", "cell"⟩)

def sampleUnclaimed : ActualLRP :=
  { sampleRunning with
    instanceKey := ⟨"", ""⟩, netInfo := emptyActualLRPNetInfo, state := .unclaimed }

def claimRequest : HttpRequest where
  path := "/v1/actual_lrps/claim"
  body := [10, 7, 112, 114, 111, 99, 101, 115, 115, 16, 0, 26, 16, 10, 8, 105, 110, 115, 116, 97,
    110, 99, 101, 18, 4, 99, 101, 108, 108]

theorem claimRequest_created :
    sampleClaim.createRequest sampleRouter = some (.ok claimRequest) := by
  have path : sampleRouter.createRequest sampleClaim.route sampleClaim.params =
      .ok claimRequest.path := by
    decide +kernel
  refine Option.map_eq_some_iff.2 ⟨claimRequest.body, by decide +kernel, ?_⟩
  rw [path]
  rfl

theorem claimRequest_handsOn : sampleRouter.HandsOn sampleClaim claimRequest :=
  ⟨_, rfl, by simp [sampleClaim, LifecycleCall.params]⟩

theorem lifecycle_remote_iff_claim : ∃ needed, ∀ fuel, needed ≤ fuel →
    Returns (remote sampleRouter sampleDecoder id id fuel .delivered sampleClaim)
      [got (actualLRPSchemaPath "process" 0) ⟨sampleUnclaimed.marshal, 1⟩,
        swapped (actualLRPSchemaPath "process" 0)
          (sampleUnclaimed.claimedBy ⟨"instance", "cell"⟩) 1]
      (some (.ok (some (ActualLRP.message.normal
        (sampleUnclaimed.claimedBy ⟨"instance", "cell"⟩))))) := by
  have valid : (Request.claim ⟨"process", 0, some ⟨"instance", "cell"⟩⟩).validate = none := by
    decide
  have update : Update (.claim ⟨"process", 0, some ⟨"instance", "cell"⟩⟩) sampleUnclaimed []
      (sampleUnclaimed.claimedBy ⟨"instance", "cell"⟩) :=
    .claim rfl (by decide) (by decide)
  have returns := (@Success.swap _ sampleDecoder _ _ ⟨sampleUnclaimed.marshal, 1⟩ _ _ _ [] rfl
    (ActualLRP.unmarshal_marshal sampleUnclaimed) update rfl).returns
  have told : ended (.ok (some (sampleUnclaimed.claimedBy ⟨"instance", "cell"⟩))) =
      .ok (some (ActualLRP.message.normal (sampleUnclaimed.claimedBy ⟨"instance", "cell"⟩))) :=
    if_pos (by decide +kernel)
  exact (lifecycle_remote_iff rfl claimRequest_created claimRequest_handsOn).2 (.inr
    ⟨_, _, rfl, valid, returns, List.cons_ne_nil _ _, serving_panics_iff valid returns, told.symm⟩)

theorem refused_eq {e e' : ProtoError} (same : refused e = .failed (.error e')) : e = e' := by
  rw [refused] at same
  split at same
  · exact ClientError.error.inj (Outcome.failed.inj same)
  · cases same

theorem ended_ne_invalid {result : Except Failure (Option ActualLRP)} {err : String} :
    ended result ≠ .failed (.error ⟨invalidRequest, err⟩) := by
  intro told
  cases result with
  | ok found =>
    cases found with
    | none => cases told
    | some lrp =>
      rw [ended, succeeded] at told
      split at told <;> cases told
  | error failure =>
    cases failure with
    | panic => cases told
    | error bbsErr =>
      have kind := congrArg ProtoError.type (refused_eq told)
      rw [remoteError] at kind
      dsimp only at kind
      split at kind
      · exact absurd kind (by decide)
      · exact absurd kind (by decide)

/-- A client that is told that its request is invalid knows that nothing was done. -/
theorem invalid_request_untouched {parseMediaType : String → String} {req : HttpRequest}
    (parses : parseMediaType protoContentType = protoContentType)
    (created : call.createRequest router = some (.ok req)) (handsOn : router.HandsOn call req)
    {l : List (Exchange (Call (Option D)) Answer)} {err : String}
    {needed : Nat} (returns : ∀ fuel, needed ≤ fuel →
      Returns (remote router fromJSON quote parseMediaType fuel .delivered call) l
        (some (.failed (.error ⟨invalidRequest, err⟩)))) :
    l = [] ∧ call.Refused quote err := by
  rcases locally_iff.1 ((remote_iff_locally parses created handsOn).2 ⟨needed, returns⟩) with
    ⟨err', refuses, none, told⟩ | ⟨request, result, -, -, -, -, -, told⟩
  · obtain ⟨rfl⟩ : err' = err := congrArg ProtoError.message (refused_eq told.symm)
    exact ⟨none, refuses⟩
  · exact absurd told.symm ended_ne_invalid

/-- A client that wants to retire without a key. -/
theorem invalid_request_untouched_nil_key : ∃ req needed,
    (LifecycleCall.retireActualLRP none).createRequest sampleRouter = some (.ok req) ∧
      sampleRouter.HandsOn (.retireActualLRP none) req ∧
      (∀ fuel, needed ≤ fuel → Returns
        (remote sampleRouter sampleDecoder id id fuel .delivered (.retireActualLRP none)) []
        (some (.failed (.error ⟨invalidRequest, "Invalid field: actual_lrp_key"⟩)))) ∧
      (LifecycleCall.retireActualLRP none).Refused id "Invalid field: actual_lrp_key" := by
  have created : (LifecycleCall.retireActualLRP none).createRequest sampleRouter =
      some (.ok ⟨"/v1/actual_lrps/retire", []⟩) := by
    rfl
  have handsOn : sampleRouter.HandsOn (.retireActualLRP none) ⟨"/v1/actual_lrps/retire", []⟩ :=
    ⟨_, rfl, by simp [LifecycleCall.params]⟩
  have told : refused ⟨invalidRequest, "Invalid field: actual_lrp_key"⟩ =
      .failed (.error ⟨invalidRequest, "Invalid field: actual_lrp_key"⟩) :=
    if_pos (by decide +kernel)
  obtain ⟨needed, returns⟩ :=
    (@remote_iff_locally _ _ sampleDecoder id id _ _ rfl created handsOn [] _).1
      (locally_iff.2 (.inl ⟨_, .inr ⟨_, _, rfl, rfl, rfl⟩, rfl, told.symm⟩))
  exact ⟨_, needed, created, handsOn, returns,
    (invalid_request_untouched rfl created handsOn returns).2⟩

end

end Bbs.Rpc
