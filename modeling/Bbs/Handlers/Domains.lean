import Bbs.Etcd.Client
import Bbs.Etcd.Schema

/-!
Upserting a domain, from the client to etcd (`UpsertDomain` in `client.go`, `Upsert` in
`handlers/domain_handlers.go`, `UpsertDomain` in `db/etcd/domain_db.go`).

The freshness of a domain is a duration at the client, a text in a `Cache-Control` header,
an `int` in the handler and an unsigned number of seconds for etcd, which takes 0 for no
expiry at all. An `int` has 64 bits, and a duration is a number of nanoseconds.
-/

namespace Bbs.Handlers

open Bbs.Etcd Bbs.Models Bbs.Path Bbs.Text

/-! ### The client -/

/-- `time.Second` -/
def second : Int64 :=
  1000000000

def maxAgePrefix : String :=
  "max-age="

/-- The values of the `Cache-Control` header that the client sends, if it sets the header.
`int(ttl.Seconds())` cuts the exact quotient off towards 0. -/
def clientCacheControl (ttl : Int64) : Option (List String) :=
  if ttl ≠ 0 then some [maxAgePrefix ++ itoa (ttl.toInt.tdiv second.toInt)] else none

/-! ### The database -/

def domainSchemaRoot : String :=
  dataSchemaRoot ++ "domain"

def domainSchemaPath (domain : String) : String :=
  join [domainSchemaRoot, domain]

/-- The arguments of `client.Set`. -/
structure SetCall where
  key : String
  value : String
  ttl : UInt64
  deriving DecidableEq

def upsertDomain (domain : String) (ttl : Int64) : SetCall :=
  ⟨domainSchemaPath domain, "", ttl.toUInt64⟩

/-! ### The handler -/

inductive Response where
  /-- 204 -/
  | noContent
  /-- 400, with an error of type `InvalidRequest` -/
  | badRequest (message : String)
  /-- 500, with an error of type `UnknownError` -/
  | unknownError (message : String)
  deriving DecidableEq

def isMaxAge (directive : String) : Bool :=
  maxAgePrefix.toList.isPrefixOf directive.toList

/-- `maxAge[8:]` -/
def argument (directive : String) : String :=
  String.ofList (directive.toList.drop 8)

/-- The number of seconds in the header, or the message that it is refused with. -/
def maxAge : Option (List String) → Except String Int64
  | none => .ok 0
  | some cacheControl =>
      match cacheControl.find? isMaxAge with
      | none => .error "max-age directive missing from request"
      | some directive =>
          match atoi (argument directive) with
          | none => .error ("invalid-max-age-directive: " ++ directive)
          | some ttl => .ok ttl

/-- What the handler hands to etcd, and what it responds, given how etcd answers. -/
def upsert (answer : SetCall → Option EtcdError) (domain : String)
    (cacheControl : Option (List String)) : Option SetCall × Response :=
  match maxAge cacheControl with
  | .error message => (none, .badRequest message)
  | .ok ttl =>
      let call := upsertDomain domain ttl
      match answer call with
      | some _ => (some call, .unknownError ErrUnknownError.message)
      | none => (some call, .noContent)

variable {answer : SetCall → Option EtcdError} {domain : String}

theorem upsert_call (cacheControl : Option (List String)) :
    (upsert answer domain cacheControl).1 =
      (maxAge cacheControl).toOption.map (upsertDomain domain) := by
  unfold upsert
  split
  · rename_i message refused
    rw [refused]
    rfl
  · rename_i ttl accepted
    rw [accepted]
    dsimp only
    split <;> rfl

/-! ### From the client to etcd -/

theorem isMaxAge_append (text : String) : isMaxAge (maxAgePrefix ++ text) = true := by
  rw [isMaxAge, String.toList_append]
  simp

theorem argument_append (text : String) : argument (maxAgePrefix ++ text) = text := by
  rw [argument, String.toList_append]
  have length : maxAgePrefix.toList.length = 8 := by decide
  rw [← length, List.drop_left, String.ofList_toList]

/-- A number that fits is read as it was written. -/
theorem maxAge_itoa {n : Int} (lower : Int64.minValue.toInt ≤ n) (upper : n ≤ Int64.maxValue.toInt) :
    maxAge (some [maxAgePrefix ++ itoa n]) = .ok (Int64.ofInt n) := by
  simp only [maxAge, List.find?_cons, isMaxAge_append, argument_append, atoi_itoa lower upper]

theorem toUInt64_ofInt {n : Int} (lower : 0 ≤ n) (upper : n < 2 ^ 63) :
    ((Int64.ofInt n).toUInt64.toNat : Int) = n := by
  have toInt : (Int64.ofInt n).toInt = n := Int64.toInt_ofInt_of_le (by omega) upper
  have nonneg : 0 ≤ Int64.ofInt n := by
    rw [Int64.le_iff_toInt_le, toInt]
    exact lower
  rw [Int64.toNat_toUInt64_of_le nonneg, Int64.toNatClampNeg, toInt, Int.toNat_of_nonneg lower]

/-- The seconds that the client writes are those that etcd is given. -/
theorem upsert_clientCacheControl {ttl : Int64} (nonneg : 0 ≤ ttl) :
    ∃ call, (upsert answer domain (clientCacheControl ttl)).1 = some call ∧
      (call.ttl.toNat : Int) = ttl.toInt / second.toInt := by
  have nonneg : 0 ≤ ttl.toInt := Int64.le_iff_toInt_le.mp nonneg
  have bounded : ttl.toInt ≤ Int64.maxValue.toInt := Int64.toInt_le ttl
  have seconds : second.toInt = 1000000000 := by decide
  have max : Int64.maxValue.toInt = 9223372036854775807 := by decide
  have min : Int64.minValue.toInt = -9223372036854775808 := by decide
  rw [upsert_call]
  unfold clientCacheControl
  split
  · rw [maxAge_itoa, Int.tdiv_eq_ediv_of_nonneg nonneg]
    · refine ⟨_, rfl, toUInt64_ofInt ?_ ?_⟩
      · exact Int.ediv_nonneg nonneg (by decide)
      · rw [seconds]
        omega
    · rw [Int.tdiv_eq_ediv_of_nonneg nonneg, min, seconds]
      omega
    · rw [Int.tdiv_eq_ediv_of_nonneg nonneg, max, seconds]
      omega
  · rename_i zero
    rw [not_not] at zero
    subst zero
    exact ⟨_, rfl, rfl⟩

/-- etcd is given the whole seconds of 0 and of a second and more, and never 0 seconds for
a positive duration. -/
def Carried (answer : SetCall → Option EtcdError) (domain : String) (ttl : Int64) : Prop :=
  ∃ call, (upsert answer domain (clientCacheControl ttl)).1 = some call ∧
    (ttl = 0 ∨ second ≤ ttl → (call.ttl.toNat : Int) = ttl.toInt / second.toInt) ∧
    (0 < ttl → call.ttl ≠ 0)

theorem carried_iff {ttl : Int64} (nonneg : 0 ≤ ttl) :
    Carried answer domain ttl ↔ ttl = 0 ∨ second ≤ ttl := by
  obtain ⟨call, handed, seconds⟩ := @upsert_clientCacheControl answer domain ttl nonneg
  have unit : second.toInt = 1000000000 := by decide
  have zero : (0 : Int64).toInt = 0 := by decide
  rw [Int64.le_iff_toInt_le, zero] at nonneg
  constructor
  · rintro ⟨call', handed', -, positive⟩
    rw [handed] at handed'
    cases handed'
    by_contra short
    rw [not_or, Int64.not_le, Int64.lt_iff_toInt_lt, unit] at short
    obtain ⟨ne, short⟩ := short
    have pos : 0 < ttl.toInt := by
      rcases Int.lt_or_eq_of_le nonneg with pos | none
      · exact pos
      · exact absurd (Int64.toInt_inj.mp (none.symm.trans zero.symm)) ne
    rw [unit, Int.ediv_eq_zero_of_lt nonneg short] at seconds
    refine positive (Int64.lt_iff_toInt_lt.mpr (by rwa [zero])) (UInt64.toNat_inj.mp ?_)
    exact Int.ofNat_eq_zero.mp seconds
  · intro whole
    refine ⟨call, handed, fun _ => seconds, fun positive none => ?_⟩
    rcases whole with rfl | whole
    · exact absurd positive (by decide)
    · rw [Int64.le_iff_toInt_le, unit] at whole
      rw [none, unit] at seconds
      have none : (((0 : UInt64).toNat : Nat) : Int) = 0 := rfl
      omega

/-! ### Negative directives -/

/-- A max-age directive with a negative number. Each value of the header is taken as one
directive, as the handler takes it: a value that lists several is not split at its commas. -/
def HoldsNegative (directive : String) : Prop :=
  isMaxAge directive = true ∧ ∃ n, decimal (argument directive).toList = some n ∧ n < 0

/-- The request is refused, and nothing is handed to etcd. -/
def Rejected (answer : SetCall → Option EtcdError) (domain : String) (cacheControl : List String) :
    Prop :=
  ∃ message, upsert answer domain (some cacheControl) = (none, .badRequest message)

/-- The max-age directive that is read is not an `int`. -/
def Unreadable (cacheControl : List String) : Prop :=
  ∀ directive, cacheControl.find? isMaxAge = some directive → atoi (argument directive) = none

theorem maxAge_error_iff (cacheControl : List String) :
    (∃ message, maxAge (some cacheControl) = .error message) ↔ Unreadable cacheControl := by
  unfold Unreadable maxAge
  cases found : cacheControl.find? isMaxAge with
  | none => simp [found]
  | some directive =>
      cases parsed : atoi (argument directive) with
      | none => simp [found, parsed]
      | some ttl => simp [found, parsed]

theorem rejected_iff (cacheControl : List String) :
    Rejected answer domain cacheControl ↔ Unreadable cacheControl := by
  rw [← maxAge_error_iff]
  unfold Rejected upsert
  cases maxAge (some cacheControl) with
  | error message => simp
  | ok ttl =>
      refine iff_of_false ?_ (by simp)
      rintro ⟨message, same⟩
      dsimp only at same
      split at same <;> cases same

/-- **When a domain's freshness is carried faithfully.** A duration of at least 0 reaches
etcd as its whole seconds, and never as 0 if it is positive, if and only if it is 0 or at
least a second. A header with a negative max-age directive is refused if and only if the
first of its max-age directives is not an `int`. -/
theorem domain_freshness_carried_iff {ttl : Int64} (nonneg : 0 ≤ ttl) (cacheControl : List String) :
    (Carried answer domain ttl ↔ ttl = 0 ∨ second ≤ ttl) ∧
      (((∃ directive ∈ cacheControl, HoldsNegative directive) →
          Rejected answer domain cacheControl) ↔
        ((∃ directive ∈ cacheControl, HoldsNegative directive) → Unreadable cacheControl)) := by
  refine ⟨carried_iff nonneg, ?_⟩
  rw [rejected_iff]

theorem domain_freshness_carried_iff_minute :
    Carried (fun _ => none) "domain" (60 * second) ∧
      (HoldsNegative "max-age=-99999999999999999999" ∧
        Rejected (fun _ => none) "domain" ["max-age=-99999999999999999999"]) := by
  obtain ⟨carried, rejects⟩ := @domain_freshness_carried_iff (fun _ => none) "domain" (60 * second)
    (by decide) ["max-age=-99999999999999999999"]
  have negative : HoldsNegative "max-age=-99999999999999999999" :=
    ⟨by decide, -99999999999999999999, by decide, by decide⟩
  refine ⟨carried.mpr (by decide), negative, rejects.mpr (fun _ => ?_) ⟨_, by simp, negative⟩⟩
  intro directive found
  have first : (["max-age=-99999999999999999999"].find? isMaxAge) =
      some "max-age=-99999999999999999999" := by decide
  rw [first] at found
  cases found
  decide

/-- Half a second reaches etcd as no expiry, and a negative directive as a huge number. -/
theorem half_second_and_negative_accepted :
    upsert (fun _ => none) "domain" (clientCacheControl 500000000) =
        (some ⟨domainSchemaPath "domain", "", 0⟩, .noContent) ∧
      HoldsNegative "max-age=-1" ∧
      upsert (fun _ => none) "domain" (some ["max-age=-1"]) =
        (some ⟨domainSchemaPath "domain", "", 18446744073709551615⟩, .noContent) :=
  ⟨by decide, ⟨by decide, -1, by decide, by decide⟩, by decide⟩

end Bbs.Handlers
