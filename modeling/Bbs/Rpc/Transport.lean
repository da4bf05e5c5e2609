import Bbs.Text
import Bbs.Wire.Exchange

/-!
Responses over HTTP: what handlers write (`handlers/helpers.go`), and what the client makes of what
it receives (`do` in `client.go`, and the functions after it).

The client decides by the content type and the status code. `doResponse_proto`, `doResponse_error`
and `doResponse_empty` say that it understands what handlers write. Reading takes fuel, as decoding
does; `Settles` says what it comes to. The media type is parsed by the `mime` package, of which only
this is assumed: the type that handlers write is parsed as itself.
-/

namespace Bbs.Rpc

open Bbs.Models Bbs.Protobuf Bbs.Text

/-! ### What handlers write -/

def protoContentType : String :=
  "application/x-protobuf"

structure HttpResponse where
  statusCode : Nat
  contentLength : String
  contentType : Option String
  body : List UInt8

/-- `none` is a panic. -/
def writeProtoResponse {M : Type} (statusCode : Nat) (message : Message M) (m : M) :
    Option HttpResponse :=
  (message.marshal m).map fun responseBytes =>
    ⟨statusCode, itoa responseBytes.length, some protoContentType, responseBytes⟩

def writeEmptyResponse (statusCode : Nat) : HttpResponse :=
  ⟨statusCode, "0", none, []⟩

def unknownError : String :=
  "UnknownError"

def resourceNotFound : String :=
  "ResourceNotFound"

def invalidRequest : String :=
  "InvalidRequest"

def writeUnknownErrorResponse (err : String) : Option HttpResponse :=
  writeProtoResponse 500 ProtoError.proto ⟨unknownError, err⟩

def writeNotFoundResponse (err : String) : Option HttpResponse :=
  writeProtoResponse 404 ProtoError.proto ⟨resourceNotFound, err⟩

def writeBadRequestResponse (errorType err : String) : Option HttpResponse :=
  writeProtoResponse 400 ProtoError.proto ⟨errorType, err⟩

/-! ### What the client receives -/

/-- The body is what `ReadAll` returns. -/
structure Received where
  statusCode : Nat
  contentType : Option String
  /-- the header `X-Cf-Routererror` -/
  routerError : Option String
  body : Except String (List UInt8)

/-- A response that arrives as it was written. -/
def HttpResponse.received (res : HttpResponse) : Received :=
  ⟨res.statusCode, res.contentType, none, .ok res.body⟩

inductive ClientError where
  /-- from `CreateRequest` -/
  | createRequest (err : String)
  /-- from `httpClient.Do` -/
  | transport
  | error (e : ProtoError)
  deriving DecidableEq

inductive Outcome (M : Type) where
  | ok (m : M)
  | failed (e : ClientError)
  | panicked
  deriving DecidableEq

/-- What a response is read into. A caller that expects no message passes nil. -/
structure Target (M : Type) where
  zero : M
  read : Option (Decoder M)

def Target.into {M : Type} (message : Message M) : Target M :=
  ⟨message.zero, some message.read⟩

def Target.nothing : Target Unit :=
  ⟨(), none⟩

def unmarshalFailed (err : String) : ClientError :=
  .error ⟨"InvalidProtobufMessage", err⟩

variable {M : Type}

/-- `none` if the fuel does not suffice. -/
def handleProtoResponse (fuel : Nat) (target : Target M) (res : Received) : Option (Outcome M) :=
  match res.body with
  | .error err => some (.failed (.error ⟨"InvalidResponse", err⟩))
  | .ok buf =>
      if 299 < res.statusCode then
        (ProtoError.proto.read fuel buf ProtoError.proto.zero).map fun
          | .ok errResponse => .failed (.error errResponse)
          | .error err => .failed (unmarshalFailed err.error)
          | .panic => .panicked
      else
        match target.read with
        | none => some .panicked
        | some read =>
            (read fuel buf target.zero).map fun
              | .ok m => .ok m
              | .error err => .failed (unmarshalFailed err.error)
              | .panic => .panicked

/-- The message stays as the caller made it. -/
def handleNonProtoResponse (target : Target M) (res : Received) : Outcome M :=
  if 299 < res.statusCode then
    .failed (.error
      ⟨"InvalidResponse", "Invalid Response with status code: " ++ itoa res.statusCode⟩)
  else .ok target.zero

/-- `do`, given what `httpClient.Do` returns. -/
def doResponse (parseMediaType : String → String) (fuel : Nat) (target : Target M) :
    Except Unit Received → Option (Outcome M)
  | .error () => some (.failed .transport)
  | .ok res =>
      match res.routerError with
      | some routerError => some (.failed (.error ⟨"RouterError", routerError⟩))
      | none =>
          if (res.contentType.map parseMediaType).getD "" = protoContentType then
            handleProtoResponse fuel target res
          else some (handleNonProtoResponse target res)

/-! ### The client understands the handlers -/

/-- With enough fuel, `f` comes to `a`. -/
def Settles {α : Type} (f : Nat → Option α) (a : α) : Prop :=
  ∃ needed, ∀ fuel, needed ≤ fuel → f fuel = some a

theorem Settles.unique {α : Type} {f : Nat → Option α} {a b : α} (first : Settles f a)
    (second : Settles f b) : a = b := by
  obtain ⟨needed, settles⟩ := first
  obtain ⟨needed', settles'⟩ := second
  have same := (settles _ (le_max_left needed needed')).symm.trans
    (settles' _ (le_max_right needed needed'))
  exact Option.some.inj same

theorem Settles.const {α : Type} {f : Nat → Option α} {a : α} (same : ∀ fuel, f fuel = some a) :
    Settles f a :=
  ⟨0, fun fuel _ => same fuel⟩

theorem Settles.map {α β : Type} {f : Nat → Option α} {a : α} (settles : Settles f a) (g : α → β) :
    Settles (fun fuel => (f fuel).map g) (g a) := by
  obtain ⟨needed, comes⟩ := settles
  exact ⟨needed, fun fuel enough => congrArg (Option.map g) (comes fuel enough)⟩

theorem doResponse_empty {parseMediaType : String → String} {statusCode : Nat}
    (fine : statusCode ≤ 299) (fuel : Nat) (target : Target M) :
    doResponse parseMediaType fuel target (.ok (writeEmptyResponse statusCode).received) =
      some (.ok target.zero) := by
  have plain : ¬ "" = protoContentType := by decide
  have low : ¬ 299 < statusCode := Nat.not_lt.2 fine
  simp only [doResponse, HttpResponse.received, writeEmptyResponse, Option.map_none,
    Option.getD_none, plain, if_false, handleNonProtoResponse, low]

section
variable {N : Type} {parseMediaType : String → String}
  (parses : parseMediaType protoContentType = protoContentType)
include parses

/-- What was written as a message is handled as one. -/
theorem doResponse_written {statusCode : Nat} {message : Message N} {m : N} {res : HttpResponse}
    (written : writeProtoResponse statusCode message m = some res) (fuel : Nat)
    (target : Target M) :
    doResponse parseMediaType fuel target (.ok res.received) =
      handleProtoResponse fuel target res.received := by
  obtain ⟨data, -, rfl⟩ := Option.map_eq_some_iff.1 written
  simp only [doResponse, HttpResponse.received, Option.map_some, parses, Option.getD_some, if_true]

theorem doResponse_proto {statusCode : Nat} (fine : statusCode ≤ 299) {message : Message M} {m : M}
    (lawful : message.LawfulAt m) {res : HttpResponse}
    (written : writeProtoResponse statusCode message m = some res) :
    Settles (fun fuel => doResponse parseMediaType fuel (.into message) (.ok res.received))
      (.ok (message.normal m)) := by
  simp only [doResponse_written parses written]
  obtain ⟨data, marshalled, rfl⟩ := Option.map_eq_some_iff.1 written
  obtain ⟨needed, reads⟩ := lawful.decodes marshalled
  refine ⟨needed, fun fuel enough => ?_⟩
  have low : ¬ 299 < statusCode := Nat.not_lt.2 fine
  simp only [handleProtoResponse, HttpResponse.received, low, if_false, Target.into,
    reads fuel enough, Option.map_some]

theorem doResponse_error {statusCode : Nat} (bad : 299 < statusCode) {e : ProtoError}
    {res : HttpResponse} (written : writeProtoResponse statusCode ProtoError.proto e = some res)
    (target : Target M) :
    Settles (fun fuel => doResponse parseMediaType fuel target (.ok res.received))
      (.failed (.error e)) := by
  simp only [doResponse_written parses written]
  obtain ⟨data, marshalled, rfl⟩ := Option.map_eq_some_iff.1 written
  obtain ⟨needed, reads⟩ := (ProtoError.roundTrips.lawful e).decodes marshalled
  refine ⟨needed, fun fuel enough => ?_⟩
  simp only [handleProtoResponse, HttpResponse.received, bad, if_true, reads fuel enough,
    Option.map_some]
  rfl

end

end Bbs.Rpc
