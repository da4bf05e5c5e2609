import Bbs.Etcd.ActualLRPDB
import Bbs.Rpc.Transport

/-!
The lifecycle of actual LRPs over HTTP: the handlers of
`handlers/actual_lrp_lifecycle_handler.go` and the methods of `client.go` that call them.

A remote call encodes its arguments, a handler decodes and validates them and serves the request
from etcd, and the client decodes the response. `LifecycleCall.locally` says what this comes to
without all that. `remote_iff_locally` is the agreement of the two.

How paths are made and taken apart is left to a `Router`: parameters may be changed on the way, or
the request may come to nobody. What is assumed of it is `Router.HandsOn`, and only where it is
said. Strings are texts: other bytes in a body are read as U+FFFD.
-/

namespace Bbs.Rpc

open Bbs.Etcd Bbs.Interaction Bbs.Models Bbs.Text Bbs.Utf8
open Bbs.Protobuf (Message Decoder)

variable {D : Type}

/-! ### Numbers in paths -/

/-- `strconv.ParseInt(s, 10, 32)`, with the text of its error; `quote` is `strconv.Quote`. -/
def parseInt32 (quote : String → String) (s : String) : Except String Int32 :=
  match decimal s.toList with
  | none => .error ("strconv.ParseInt: parsing " ++ quote s ++ ": invalid syntax")
  | some n =>
      if Int32.minValue.toInt ≤ n ∧ n ≤ Int32.maxValue.toInt then .ok (Int32.ofInt n)
      else .error ("strconv.ParseInt: parsing " ++ quote s ++ ": value out of range")

/-! ### Serving a request -/

/-- The calls that a panic of `FromJSON` keeps from being made. -/
def unread : Call (Option D) → Bool
  | .requestLRPAuctions starts => starts.any fun start => start.desiredLRP.any Option.isNone
  | _ => false

/-- `CrashActualLRP` with a decoder that may panic: `some none` is a desired LRP on which `FromJSON`
panics. It is read last before the auction is requested, and that is not done then. -/
def crashOrPanic (fromJSON : Json → Option (Option D)) (request : CrashActualLRPRequest) :
    Operation (Option D) (Except Failure Unit) :=
  (Etcd.crashActualLRP fromJSON request).barring unread (.error .panic)

/-- The operation of the database for a request. Only a crash reads a desired LRP. -/
def serving (fromJSON : Json → Option (Option D)) :
    Request → Operation (Option D) (Except Failure (Option ActualLRP))
  | .crash request => do return (← crashOrPanic fromJSON request).map fun _ => none
  | request => request.program fromJSON

/-! ### Handlers -/

/-- What became of a request. -/
inductive Served where
  /-- the fuel does not suffice to decode the body -/
  | unfinished
  | panicked
  | responded (res : HttpResponse)

/-- A handler that ends with writing a response. -/
def Served.write : Option HttpResponse → Served
  | none => .panicked
  | some res => .responded res

def respondError (bbsErr : Error) : Served :=
  if bbsErr.type = .resourceNotFound then .write (writeNotFoundResponse bbsErr.message)
  else .write (writeUnknownErrorResponse bbsErr.message)

/-- The end of every handler. -/
def respond {α : Type} (success : α → Served) : Except Failure α → Served
  | .ok a => success a
  | .error (.error bbsErr) => respondError bbsErr
  | .error .panic => .panicked

/-- The handlers that read their request from the body. -/
def serveBody {R α : Type} (message : Message R) (validate : R → Option ErrorValue)
    (operation : R → Operation (Option D) (Except Failure α)) (success : α → Served) (fuel : Nat)
    (body : Except String (List UInt8)) : Operation (Option D) Served :=
  match body with
  | .error err => return .write (writeUnknownErrorResponse err)
  | .ok data =>
      match message.read fuel data message.zero with
      | none => return .unfinished
      | some .panic => return .panicked
      | some (.error err) => return .write (writeBadRequestResponse invalidRequest err.error)
      | some (.ok request) =>
          match validate request with
          | some err => return .write (writeBadRequestResponse invalidRequest err.error)
          | none => do
              let result ← operation request
              return respond success result

namespace ActualLRPLifecycleHandler

def claimActualLRP (fuel : Nat) (body : Except String (List UInt8)) : Operation (Option D) Served :=
  serveBody ClaimActualLRPRequest.message ClaimActualLRPRequest.validate Etcd.claimActualLRP
    (fun actualLRP => .write (writeProtoResponse 200 ActualLRP.message actualLRP)) fuel body

def startActualLRP (fuel : Nat) (body : Except String (List UInt8)) : Operation (Option D) Served :=
  serveBody StartActualLRPRequest.message StartActualLRPRequest.validate Etcd.startActualLRP
    (fun actualLRP => .write (writeProtoResponse 200 ActualLRP.message actualLRP)) fuel body

def crashActualLRP (fromJSON : Json → Option (Option D)) (fuel : Nat)
    (body : Except String (List UInt8)) : Operation (Option D) Served :=
  serveBody CrashActualLRPRequest.message CrashActualLRPRequest.validate
    (crashOrPanic fromJSON) (fun _ => .responded (writeEmptyResponse 204)) fuel body

def failActualLRP (fuel : Nat) (body : Except String (List UInt8)) : Operation (Option D) Served :=
  serveBody FailActualLRPRequest.message FailActualLRPRequest.validate Etcd.failActualLRP
    (fun _ => .responded (writeEmptyResponse 204)) fuel body

def removeActualLRP (quote : String → String) (processGuid index : String) :
    Operation (Option D) Served :=
  match parseInt32 quote index with
  | .error err => return .write (writeBadRequestResponse invalidRequest err)
  | .ok idx => do
      match ← Etcd.removeActualLRPByIndex processGuid idx with
      | .error bbsErr => return respondError bbsErr
      | .ok _ => return .responded (writeEmptyResponse 204)

def retireActualLRP (fuel : Nat) (body : Except String (List UInt8)) :
    Operation (Option D) Served :=
  serveBody RetireActualLRPRequest.message RetireActualLRPRequest.validate Etcd.retireActualLRP
    (fun _ => .responded (writeEmptyResponse 204)) fuel body

end ActualLRPLifecycleHandler

/-! ### Routes -/

inductive Route where
  | claimActualLRP
  | startActualLRP
  | crashActualLRP
  | failActualLRP
  | removeActualLRP
  | retireActualLRP

/-- What the packages that route requests do, on either side. -/
structure Router where
  /-- the path that `CreateRequest` makes of a route and its parameters, or its error -/
  createRequest : Route → List (String × String) → Except String String
  /-- the route whose handler gets a request for the path, and what `FormValue` returns there -/
  dispatch : String → Option (Route × (String → String))
  /-- the answer if there is none -/
  notFound : HttpResponse

structure HttpRequest where
  path : String
  body : List UInt8

/-- The handler of the route; `body` is what it reads. -/
def handle (fromJSON : Json → Option (Option D)) (quote : String → String) (fuel : Nat)
    (route : Route) (formValue : String → String) (body : Except String (List UInt8)) :
    Operation (Option D) Served :=
  match route with
  | .claimActualLRP => ActualLRPLifecycleHandler.claimActualLRP fuel body
  | .startActualLRP => ActualLRPLifecycleHandler.startActualLRP fuel body
  | .crashActualLRP => ActualLRPLifecycleHandler.crashActualLRP fromJSON fuel body
  | .failActualLRP => ActualLRPLifecycleHandler.failActualLRP fuel body
  | .removeActualLRP =>
      ActualLRPLifecycleHandler.removeActualLRP quote (formValue ":process_guid")
        (formValue ":index")
  | .retireActualLRP => ActualLRPLifecycleHandler.retireActualLRP fuel body

def serve (router : Router) (fromJSON : Json → Option (Option D)) (quote : String → String)
    (fuel : Nat) (req : HttpRequest) (body : Except String (List UInt8)) :
    Operation (Option D) Served :=
  match router.dispatch req.path with
  | none => return .responded router.notFound
  | some (route, formValue) => handle fromJSON quote fuel route formValue body

/-! ### The client -/

/-- A call of one of the client's methods. Its indexes are `int`s. -/
inductive LifecycleCall where
  | claimActualLRP (processGuid : String) (index : Int64)
      (instanceKey : Option ActualLRPInstanceKey)
  | startActualLRP (key : Option ActualLRPKey) (instanceKey : Option ActualLRPInstanceKey)
      (netInfo : Option ActualLRPNetInfo)
  | crashActualLRP (key : Option ActualLRPKey) (instanceKey : Option ActualLRPInstanceKey)
      (errorMessage : String)
  | failActualLRP (key : Option ActualLRPKey) (errorMessage : String)
  | removeActualLRP (processGuid : String) (index : Int64)
  | retireActualLRP (key : Option ActualLRPKey)

def Outcome.map {M N : Type} (f : M → N) : Outcome M → Outcome N
  | .ok m => .ok (f m)
  | .failed e => .failed e
  | .panicked => .panicked

namespace LifecycleCall

def route : LifecycleCall → Route
  | claimActualLRP .. => .claimActualLRP
  | startActualLRP .. => .startActualLRP
  | crashActualLRP .. => .crashActualLRP
  | failActualLRP .. => .failActualLRP
  | removeActualLRP .. => .removeActualLRP
  | retireActualLRP .. => .retireActualLRP

def params : LifecycleCall → List (String × String)
  | removeActualLRP processGuid index =>
      [("process_guid", processGuid), ("index", itoa index.toInt)]
  | _ => []

/-- `none` is a panic of `Marshal`. -/
def messageBody : LifecycleCall → Option (List UInt8)
  | claimActualLRP processGuid index instanceKey =>
      ClaimActualLRPRequest.message.marshal ⟨processGuid, index.toInt32, instanceKey⟩
  | startActualLRP key instanceKey netInfo =>
      StartActualLRPRequest.message.marshal ⟨key, instanceKey, netInfo⟩
  | crashActualLRP key instanceKey errorMessage =>
      CrashActualLRPRequest.message.marshal ⟨key, instanceKey, errorMessage⟩
  | failActualLRP key errorMessage => FailActualLRPRequest.message.marshal ⟨key, errorMessage⟩
  | removeActualLRP .. => some []
  | retireActualLRP key => RetireActualLRPRequest.message.marshal ⟨key⟩

def createRequest (router : Router) (call : LifecycleCall) : Option (Except String HttpRequest) :=
  call.messageBody.map fun messageBody =>
    (router.createRequest call.route call.params).map fun path => ⟨path, messageBody⟩

/-- What the method returns, given what `httpClient.Do` does. -/
def finish (parseMediaType : String → String) (fuel : Nat) (res : Except Unit Received) :
    LifecycleCall → Option (Outcome (Option ActualLRP))
  | claimActualLRP .. | startActualLRP .. =>
      (doResponse parseMediaType fuel (.into ActualLRP.message) res).map (Outcome.map some)
  | crashActualLRP .. | failActualLRP .. | removeActualLRP .. | retireActualLRP .. =>
      (doResponse parseMediaType fuel .nothing res).map (Outcome.map fun _ => none)

end LifecycleCall

/-- The request comes to the handler for the call, with the parameters as they were given. -/
def Router.HandsOn (router : Router) (call : LifecycleCall) (req : HttpRequest) : Prop :=
  ∃ formValue, router.dispatch req.path = some (call.route, formValue) ∧
    ∀ param ∈ call.params, formValue (":" ++ param.1) = param.2

/-- The path of a route in `routes.go`. -/
def Route.path : Route → String
  | .claimActualLRP => "/v1/actual_lrps/claim"
  | .startActualLRP => "/v1/actual_lrps/start"
  | .crashActualLRP => "/v1/actual_lrps/crash"
  | .failActualLRP => "/v1/actual_lrps/fail"
  | .removeActualLRP => "/v1/actual_lrps/:process_guid/index/:index"
  | .retireActualLRP => "/v1/actual_lrps/retire"

def segments (path : String) : List String :=
  (path.toList.splitOn '/').map String.ofList

/-- A router that fills in parameters as they are, and escapes nothing. -/
def sampleRouter : Router where
  createRequest route params :=
    .ok ("/".intercalate ((segments route.path).map fun segment =>
      (params.find? fun param => ":" ++ param.1 = segment).elim segment Prod.snd))
  dispatch path :=
    match segments path with
    | ["", "v1", "actual_lrps", "claim"] => some (.claimActualLRP, fun _ => "")
    | ["", "v1", "actual_lrps", "start"] => some (.startActualLRP, fun _ => "")
    | ["", "v1", "actual_lrps", "crash"] => some (.crashActualLRP, fun _ => "")
    | ["", "v1", "actual_lrps", "fail"] => some (.failActualLRP, fun _ => "")
    | ["", "v1", "actual_lrps", "retire"] => some (.retireActualLRP, fun _ => "")
    | ["", "v1", "actual_lrps", processGuid, "index", index] =>
        some (.removeActualLRP, fun name =>
          if name = ":process_guid" then processGuid else if name = ":index" then index else "")
    | _ => none
  notFound := ⟨404, "19", some "text/plain; charset=utf-8", utf8 "404 page not found\n"⟩

/-! ### A remote call -/

/-- What happens to a request and its response on the way. -/
inductive Transfer where
  | delivered
  | requestLost
  /-- the handler gets an error while it reads the body -/
  | requestCut (err : String)
  | responseLost
  /-- somebody else answers, such as a router -/
  | intercepted (res : Received)

/-- What `httpClient.Do` returns; `none` if the fuel does not suffice. The connection of a handler
that panics is closed. -/
def exchange (transfer : Transfer) (body : List UInt8)
    (handler : Except String (List UInt8) → Operation (Option D) Served) :
    Operation (Option D) (Option (Except Unit Received)) :=
  match transfer with
  | .requestLost => return some (.error ())
  | .intercepted res => return some (.ok res)
  | .delivered => do return arrives (← handler (.ok body))
  | .requestCut err => do return arrives (← handler (.error err))
  | .responseLost => do
      match ← handler (.ok body) with
      | .unfinished => return none
      | .panicked | .responded _ => return some (.error ())
where
  arrives : Served → Option (Except Unit Received)
    | .unfinished => none
    | .panicked => some (.error ())
    | .responded res => some (.ok res.received)

def remote (router : Router) (fromJSON : Json → Option (Option D))
    (quote parseMediaType : String → String) (fuel : Nat) (transfer : Transfer)
    (call : LifecycleCall) : Operation (Option D) (Option (Outcome (Option ActualLRP))) :=
  match call.createRequest router with
  | none => return some .panicked
  | some (.error err) => return some (.failed (.createRequest err))
  | some (.ok req) => do
      match ← exchange transfer req.body (serve router fromJSON quote fuel req) with
      | none => return none
      | some res => return call.finish parseMediaType fuel res

/-! ### What it comes to -/

/-- The request as it arrives, or why it is refused. -/
def LifecycleCall.arrives (quote : String → String) : LifecycleCall → Except String Request
  | claimActualLRP processGuid index instanceKey =>
      .ok (.claim ⟨processGuid, index.toInt32, instanceKey⟩)
  | startActualLRP key instanceKey netInfo =>
      .ok (.start ⟨key, instanceKey, netInfo.map ActualLRPNetInfo.message.normal⟩)
  | crashActualLRP key instanceKey errorMessage => .ok (.crash ⟨key, instanceKey, errorMessage⟩)
  | failActualLRP key errorMessage => .ok (.fail ⟨key, errorMessage⟩)
  | removeActualLRP processGuid index =>
      (parseInt32 quote (itoa index.toInt)).map (.remove processGuid)
  | retireActualLRP key => .ok (.retire ⟨key⟩)

/-- The error that a client gets for one of the database. -/
def remoteError (bbsErr : Error) : ProtoError :=
  ⟨if bbsErr.type = .resourceNotFound then resourceNotFound else unknownError, bbsErr.message⟩

/-- A response that is too long cannot be written. -/
def refused (e : ProtoError) : Outcome (Option ActualLRP) :=
  if (ProtoError.proto.marshal e).isSome then .failed (.error e) else .failed .transport

def succeeded : Option ActualLRP → Outcome (Option ActualLRP)
  | none => .ok none
  | some lrp =>
      if (ActualLRP.message.marshal lrp).isSome then .ok (some (ActualLRP.message.normal lrp))
      else .failed .transport

def ended : Except Failure (Option ActualLRP) → Outcome (Option ActualLRP)
  | .ok lrp => succeeded lrp
  | .error (.error bbsErr) => refused (remoteError bbsErr)
  | .error .panic => .failed .transport

def LifecycleCall.locally (fromJSON : Json → Option (Option D)) (quote : String → String)
    (call : LifecycleCall) : Operation (Option D) (Outcome (Option ActualLRP)) :=
  match call.arrives quote with
  | .error err => return refused ⟨invalidRequest, err⟩
  | .ok request =>
      match request.validate with
      | some err => return refused ⟨invalidRequest, err.error⟩
      | none => do return ended (← serving fromJSON request)

/-! ### The end of a call -/

/-- What the client makes of what the handler did. -/
def concluded (finish : Nat → Except Unit Received → Option (Outcome (Option ActualLRP)))
    (fuel : Nat) (served : Served) : Option (Outcome (Option ActualLRP)) :=
  (exchange.arrives served).bind (finish fuel)

/-- The client gets to know errors. -/
structure Understands (finish : Nat → Except Unit Received → Option (Outcome (Option ActualLRP))) :
    Prop where
  lost : ∀ fuel, finish fuel (.error ()) = some (.failed .transport)
  refuses : ∀ {statusCode : Nat} {e : ProtoError} {res : HttpResponse}, 299 < statusCode →
    writeProtoResponse statusCode ProtoError.proto e = some res →
      Settles (fun fuel => finish fuel (.ok res.received)) (.failed (.error e))

section
variable {finish : Nat → Except Unit Received → Option (Outcome (Option ActualLRP))}

theorem Understands.error (understands : Understands finish) {statusCode : Nat}
    (bad : 299 < statusCode) (e : ProtoError) :
    Settles (fun fuel => concluded finish fuel
      (.write (writeProtoResponse statusCode ProtoError.proto e))) (refused e) := by
  cases written : writeProtoResponse statusCode ProtoError.proto e with
  | none =>
    have unwritten : ProtoError.proto.marshal e = none := Option.map_eq_none_iff.1 written
    have lost : refused e = .failed .transport := by simp [refused, unwritten]
    rw [lost]
    exact .const understands.lost
  | some res =>
    obtain ⟨data, marshalled, -⟩ := Option.map_eq_some_iff.1 written
    have gets : refused e = .failed (.error e) := by simp [refused, marshalled]
    rw [gets]
    exact understands.refuses bad written

theorem Understands.respondError (understands : Understands finish) (bbsErr : Error) :
    Settles (fun fuel => concluded finish fuel (respondError bbsErr))
      (refused (remoteError bbsErr)) := by
  rw [Rpc.respondError, remoteError]
  split
  · exact understands.error (by decide) _
  · exact understands.error (by decide) _

theorem Understands.respond {α : Type} {success : α → Served} {wrap : α → Option ActualLRP}
    (understands : Understands finish)
    (succeeds : ∀ a, Settles (fun fuel => concluded finish fuel (success a)) (succeeded (wrap a)))
    (result : Except Failure α) :
    Settles (fun fuel => concluded finish fuel (respond success result))
      (ended (result.map wrap)) := by
  match result with
  | .ok a => exact succeeds a
  | .error (.error bbsErr) => exact understands.respondError bbsErr
  | .error .panic => exact .const understands.lost

end

/-- Programs that make the same calls agree if what they make of the result comes to the same. -/
theorem returns_settles_iff {α β γ : Type} {p : Operation (Option D) α} {h : α → γ}
    {q : Nat → Operation (Option D) γ} {f : Nat → γ → Option β} {g : α → β}
    (reads : ∃ needed, ∀ fuel, needed ≤ fuel → q fuel = do return h (← p))
    (settles : ∀ a, Settles (fun fuel => f fuel (h a)) (g a))
    {l : List (Exchange (Call (Option D)) Answer)} {b : β} :
    Returns (do return g (← p)) l b ↔
      ∃ needed, ∀ fuel, needed ≤ fuel → Returns (do return f fuel (← q fuel)) l (some b) := by
  obtain ⟨first, reads⟩ := reads
  have same : ∀ fuel, first ≤ fuel → (Returns (do return f fuel (← q fuel)) l (some b) ↔
      ∃ a, Returns p l a ∧ f fuel (h a) = some b) := by
    intro fuel enough
    rw [reads fuel enough, Program.bind_assoc]
    exact Returns.map_iff
  rw [Returns.map_iff]
  constructor
  · rintro ⟨a, returns, rfl⟩
    obtain ⟨needed, comes⟩ := settles a
    refine ⟨max first needed, fun fuel enough => ?_⟩
    obtain ⟨enough, enough'⟩ := max_le_iff.1 enough
    exact (same fuel enough).2 ⟨a, returns, comes fuel enough'⟩
  · rintro ⟨needed, returns⟩
    obtain ⟨a, result, -⟩ := (same _ (le_max_left first needed)).1 (returns _ (le_max_right _ _))
    refine ⟨a, result, (settles a).unique ⟨max first needed, fun fuel enough => ?_⟩⟩
    obtain ⟨enough, enough'⟩ := max_le_iff.1 enough
    obtain ⟨a', result', comes⟩ := (same fuel enough).1 (returns fuel enough')
    rwa [← result.unique result'] at comes

section
variable {parseMediaType : String → String}
  (parses : parseMediaType protoContentType = protoContentType)
include parses

theorem LifecycleCall.understands (call : LifecycleCall) :
    Understands fun fuel res => call.finish parseMediaType fuel res := by
  cases call with
  | claimActualLRP | startActualLRP =>
    exact ⟨fun _ => rfl, fun bad written => (doResponse_error parses bad written _).map _⟩
  | crashActualLRP | failActualLRP | removeActualLRP | retireActualLRP =>
    exact ⟨fun _ => rfl, fun bad written => (doResponse_error parses bad written _).map _⟩

/-- A record that is written is read as its normal form. -/
theorem record_settles (lrp : ActualLRP) :
    Settles (fun fuel => concluded
      (fun fuel res => (doResponse parseMediaType fuel (.into ActualLRP.message) res).map
        (Outcome.map some)) fuel (.write (writeProtoResponse 200 ActualLRP.message lrp)))
      (succeeded (some lrp)) := by
  cases written : writeProtoResponse 200 ActualLRP.message lrp with
  | none =>
    have unwritten : ActualLRP.message.marshal lrp = none := Option.map_eq_none_iff.1 written
    have lost : succeeded (some lrp) = .failed .transport := by simp [succeeded, unwritten]
    rw [lost]
    exact .const fun _ => rfl
  | some res =>
    obtain ⟨data, marshalled, -⟩ := Option.map_eq_some_iff.1 written
    have gets : succeeded (some lrp) = .ok (some (ActualLRP.message.normal lrp)) := by
      simp [succeeded, marshalled]
    rw [gets]
    exact (doResponse_proto parses (by decide) (ActualLRP.roundTrips.lawful lrp) written).map _

end

theorem empty_settles (parseMediaType : String → String) :
    Settles (fun fuel => concluded
      (fun fuel res => (doResponse parseMediaType fuel .nothing res).map
        (Outcome.map fun _ => none)) fuel (.responded (writeEmptyResponse 204)))
      (succeeded none) := by
  refine .const fun fuel => ?_
  simp only [concluded, exchange.arrives, Option.bind_some,
    doResponse_empty (by decide : (204 : Nat) ≤ 299), Option.map_some]
  rfl

/-! ### Remote and local calls -/

/-- A call whose request is in the body of the message. -/
theorem body_call_iff {R α : Type} {message : Message R} (validate : R → Option ErrorValue)
    (operation : R → Operation (Option D) (Except Failure α)) {success : α → Served}
    {wrap : α → Option ActualLRP} {m : R} {data : List UInt8}
    {finish : Nat → Except Unit Received → Option (Outcome (Option ActualLRP))}
    (understands : Understands finish) (lawful : message.LawfulAt m)
    (marshalled : message.marshal m = some data)
    (succeeds : ∀ a, Settles (fun fuel => concluded finish fuel (success a)) (succeeded (wrap a)))
    {l : List (Exchange (Call (Option D)) Answer)} {outcome : Outcome (Option ActualLRP)} :
    Returns (match validate (message.normal m) with
      | some err => return refused ⟨invalidRequest, err.error⟩
      | none => do return ended ((← operation (message.normal m)).map wrap)) l outcome ↔
      ∃ needed, ∀ fuel, needed ≤ fuel → Returns (do
        let served ← serveBody message validate operation success fuel (.ok data)
        return concluded finish fuel served) l (some outcome) := by
  obtain ⟨needed, reads⟩ := lawful.decodes marshalled
  cases valid : validate (message.normal m) with
  | some err =>
    refine returns_settles_iff (p := .ret ())
      (h := fun _ => .write (writeBadRequestResponse invalidRequest err.error))
      (g := fun _ => refused ⟨invalidRequest, err.error⟩) ⟨needed, fun fuel enough => ?_⟩
      fun _ => understands.error (by decide) _
    simp only [serveBody, reads fuel enough, valid]
    rfl
  | none =>
    refine returns_settles_iff ⟨needed, fun fuel enough => ?_⟩ (understands.respond succeeds)
    simp only [serveBody, reads fuel enough, valid]

/-- A call whose request arrives and is served by `operation`. -/
theorem locally_eq {fromJSON : Json → Option (Option D)} {quote : String → String}
    {call : LifecycleCall} {request : Request} {α : Type}
    {operation : Operation (Option D) (Except Failure α)}
    {wrap : α → Option ActualLRP} (arrives : call.arrives quote = .ok request)
    (serves : serving fromJSON request = do return (← operation).map wrap) :
    call.locally fromJSON quote = match request.validate with
      | some err => return refused ⟨invalidRequest, err.error⟩
      | none => do return ended ((← operation).map wrap) := by
  rw [LifecycleCall.locally, arrives]
  dsimp only
  rw [serves, Program.bind_assoc]
  rfl

theorem remove_program_bind {β : Type} (fromJSON : Json → Option (Option D)) (processGuid : String)
    (index : Int32) (f : Except Failure (Option ActualLRP) → Operation (Option D) β) :
    serving fromJSON (.remove processGuid index) >>= f = (do
      let result ← removeActualLRPByIndex processGuid index
      f ((result.map fun _ => none).mapError .error)) :=
  Program.bind_assoc _ _ _

/-- The one call whose request is in the path. -/
theorem remove_call_iff {fromJSON : Json → Option (Option D)} {quote : String → String}
    {processGuid : String} {index : Int64}
    {finish : Nat → Except Unit Received → Option (Outcome (Option ActualLRP))}
    (understands : Understands finish)
    (succeeds : Settles (fun fuel => concluded finish fuel (.responded (writeEmptyResponse 204)))
      (succeeded none))
    {l : List (Exchange (Call (Option D)) Answer)} {outcome : Outcome (Option ActualLRP)} :
    Returns ((LifecycleCall.removeActualLRP processGuid index).locally fromJSON quote) l outcome ↔
      ∃ needed, ∀ fuel, needed ≤ fuel → Returns (do
        let served ← ActualLRPLifecycleHandler.removeActualLRP quote processGuid (itoa index.toInt)
        return concluded finish fuel served) l (some outcome) := by
  rw [LifecycleCall.locally, LifecycleCall.arrives]
  cases parsed : parseInt32 quote (itoa index.toInt) with
  | error err =>
    refine returns_settles_iff (p := .ret ())
      (h := fun _ => .write (writeBadRequestResponse invalidRequest err))
      (g := fun _ => refused ⟨invalidRequest, err⟩) ⟨0, fun fuel _ => ?_⟩
      fun _ => understands.error (by decide) _
    rw [ActualLRPLifecycleHandler.removeActualLRP, parsed]
    rfl
  | ok idx =>
    dsimp only [Except.map, Request.validate]
    rw [remove_program_bind]
    let removed : Except Error Unit → Served
      | .error bbsErr => respondError bbsErr
      | .ok _ => .responded (writeEmptyResponse 204)
    refine returns_settles_iff (h := removed) ⟨0, fun fuel _ => ?_⟩ fun result => ?_
    · rw [ActualLRPLifecycleHandler.removeActualLRP, parsed]
      dsimp only
      congr 1
      funext result
      cases result <;> rfl
    · cases result with
      | error bbsErr => exact understands.respondError bbsErr
      | ok _ => exact succeeds

section
variable {router : Router} {fromJSON : Json → Option (Option D)}
  {quote parseMediaType : String → String} {call : LifecycleCall} {req : HttpRequest}

theorem messageBody_of_created (created : call.createRequest router = some (.ok req)) :
    call.messageBody = some req.body := by
  obtain ⟨messageBody, marshalled, made⟩ := Option.map_eq_some_iff.1 created
  cases path : router.createRequest call.route call.params with
  | error err =>
    rw [path] at made
    cases made
  | ok path' =>
    rw [path] at made
    cases made
    exact marshalled

/-- A call whose response arrives. -/
theorem remote_of_exchange (created : call.createRequest router = some (.ok req))
    {transfer : Transfer} {fuel : Nat} {handler : Operation (Option D) Served}
    (arrives : exchange transfer req.body (serve router fromJSON quote fuel req) = (do
      return exchange.arrives (← handler))) :
    remote router fromJSON quote parseMediaType fuel transfer call = (do
      let served ← handler
      return concluded (fun fuel res => call.finish parseMediaType fuel res) fuel served) := by
  rw [remote, created]
  dsimp only
  rw [arrives, Program.bind_assoc]
  congr 1
  funext served
  cases served <;> rfl

theorem remote_delivered (created : call.createRequest router = some (.ok req)) (fuel : Nat) :
    remote router fromJSON quote parseMediaType fuel .delivered call = (do
      let served ← serve router fromJSON quote fuel req (.ok req.body)
      return concluded (fun fuel res => call.finish parseMediaType fuel res) fuel served) :=
  remote_of_exchange created rfl

/-- What the handler of the call gets to see. -/
theorem serve_of_handsOn (handsOn : router.HandsOn call req) :
    ∃ formValue, (∀ param ∈ call.params, formValue (":" ++ param.1) = param.2) ∧
      ∀ fuel body, serve router fromJSON quote fuel req body =
        handle fromJSON quote fuel call.route formValue body := by
  obtain ⟨formValue, dispatched, values⟩ := handsOn
  refine ⟨formValue, values, fun fuel body => ?_⟩
  rw [serve, dispatched]

/-- The parameters of a removal. -/
theorem handle_remove {processGuid : String} {index : Int64} {formValue : String → String}
    (values : ∀ param ∈ (LifecycleCall.removeActualLRP processGuid index).params,
      formValue (":" ++ param.1) = param.2) (fuel : Nat) (body : Except String (List UInt8)) :
    handle fromJSON quote fuel .removeActualLRP formValue body =
      ActualLRPLifecycleHandler.removeActualLRP quote processGuid (itoa index.toInt) := by
  have first : formValue ":process_guid" = processGuid :=
    values ("process_guid", processGuid) (by simp [LifecycleCall.params])
  have second : formValue ":index" = itoa index.toInt :=
    values ("index", itoa index.toInt) (by simp [LifecycleCall.params])
  rw [handle, first, second]

variable (parses : parseMediaType protoContentType = protoContentType)
include parses

/-- If request and response are delivered, a remote call is a local one. -/
theorem remote_iff_locally (created : call.createRequest router = some (.ok req))
    (handsOn : router.HandsOn call req) {l : List (Exchange (Call (Option D)) Answer)}
    {outcome : Outcome (Option ActualLRP)} :
    Returns (call.locally fromJSON quote) l outcome ↔ ∃ needed, ∀ fuel, needed ≤ fuel →
      Returns (remote router fromJSON quote parseMediaType fuel .delivered call) l
        (some outcome) := by
  obtain ⟨formValue, values, serves⟩ := @serve_of_handsOn D router fromJSON quote call req handsOn
  simp only [remote_delivered created, serves]
  have understands := call.understands parses
  have marshalled := messageBody_of_created created
  cases call with
  | claimActualLRP processGuid index instanceKey =>
    rw [locally_eq rfl rfl]
    exact body_call_iff ClaimActualLRPRequest.validate Etcd.claimActualLRP understands
      (ClaimActualLRPRequest.roundTrips.lawful _) marshalled
      (record_settles parses)
  | startActualLRP key instanceKey netInfo =>
    rw [locally_eq rfl rfl]
    exact body_call_iff StartActualLRPRequest.validate Etcd.startActualLRP understands
      (StartActualLRPRequest.roundTrips.lawful _) marshalled
      (record_settles parses)
  | crashActualLRP key instanceKey errorMessage =>
    rw [locally_eq rfl rfl]
    exact body_call_iff CrashActualLRPRequest.validate (crashOrPanic fromJSON) understands
      (CrashActualLRPRequest.roundTrips.lawful _) marshalled
      fun _ => empty_settles parseMediaType
  | failActualLRP key errorMessage =>
    rw [locally_eq rfl rfl]
    exact body_call_iff FailActualLRPRequest.validate Etcd.failActualLRP understands
      (FailActualLRPRequest.roundTrips.lawful _) marshalled
      fun _ => empty_settles parseMediaType
  | retireActualLRP key =>
    rw [locally_eq rfl rfl]
    exact body_call_iff RetireActualLRPRequest.validate Etcd.retireActualLRP understands
      (RetireActualLRPRequest.roundTrips.lawful _) marshalled
      fun _ => empty_settles parseMediaType
  | removeActualLRP processGuid index =>
    simp only [LifecycleCall.route, handle_remove values]
    exact remove_call_iff understands (empty_settles parseMediaType)

end

end Bbs.Rpc
