import Mathlib.Data.List.Basic

/-!
Error values: what validation reports (`models/validator.go`) and what the
database layer returns (`models/errors.go`).

Go's `error` values are `ErrorValue` here, with `none` for nil. A
`ValidationError` is a list of them, and `append` splices another
`ValidationError` in rather than nesting it. A database operation that does not
succeed ends in a `Failure`: it returned a `models.Error`, or it dereferenced a
nil pointer.
-/

namespace Bbs.Models

/-! ### Validation -/

inductive ErrorValue where
  /-- `ErrInvalidField` -/
  | invalidField (field : String)
  /-- `errors.New` -/
  | text (message : String)
  /-- a `ValidationError` as an `error` -/
  | validation (errors : List ErrorValue)

abbrev ValidationError := List ErrorValue

mutual
/-- The `Error()` method. -/
def ErrorValue.error : ErrorValue → String
  | .invalidField field => "Invalid field: " ++ field
  | .text message => message
  | .validation errors => errorList errors

def errorList : List ErrorValue → String
  | [] => ""
  | [e] => e.error
  | e :: es => e.error ++ ", " ++ errorList es
end

namespace ValidationError

/-- `var validationError ValidationError` -/
def nil : ValidationError :=
  []

def append (ve : ValidationError) : ErrorValue → ValidationError
  | .validation errors => ve ++ errors
  | e => ve ++ [e]

/-- Append `err` if `bad` holds. -/
def check (ve : ValidationError) (bad : Prop) [Decidable bad] (err : ErrorValue) :
    ValidationError :=
  if bad then ve.append err else ve

/-- Append the outcome of another validation unless it is nil. -/
def extend (ve : ValidationError) : Option ErrorValue → ValidationError
  | none => ve
  | some err => ve.append err

/-- The end of every `Validate`: nil if nothing was appended. -/
def result (ve : ValidationError) : Option ErrorValue :=
  if ve.isEmpty then none else some (.validation ve)

@[simp] theorem nil_eq : (nil : ValidationError) = [] := rfl

@[simp] theorem result_eq_none {ve : ValidationError} : ve.result = none ↔ ve = [] := by
  simp [result]

@[simp] theorem extend_result (ve other : ValidationError) :
    ve.extend other.result = ve ++ other := by
  cases other <;> simp [result, extend, append]

theorem check_eq_nil {ve : ValidationError} {bad : Prop} [Decidable bad] {err : ErrorValue}
    (appended : ve.append err ≠ []) : ve.check bad err = [] ↔ ve = [] ∧ ¬ bad := by
  unfold check
  split <;> simp_all

@[simp] theorem check_invalidField {ve : ValidationError} {bad : Prop} [Decidable bad]
    {field : String} : ve.check bad (.invalidField field) = [] ↔ ve = [] ∧ ¬ bad :=
  check_eq_nil (by simp [append])

@[simp] theorem check_text {ve : ValidationError} {bad : Prop} [Decidable bad]
    {message : String} : ve.check bad (.text message) = [] ↔ ve = [] ∧ ¬ bad :=
  check_eq_nil (by simp [append])

end ValidationError

/-! ### Errors of the database layer -/

/-- The `Type` strings of `models.Error` that the modelled operations use. -/
inductive ErrorType where
  | invalidRecord
  | invalidJSON
  | unknownError
  | resourceNotFound
  | actualLRPCannotBeClaimed
  | actualLRPCannotBeStarted
  | actualLRPCannotBeCrashed
  | actualLRPCannotBeFailed
  | actualLRPCannotBeRemoved
  | actualLRPCannotBeStopped
  deriving DecidableEq, Repr

structure Error where
  type : ErrorType
  message : String
  deriving DecidableEq, Repr

def ErrResourceNotFound : Error :=
  ⟨.resourceNotFound, "the requested resource could not be found"⟩

def ErrUnknownError : Error :=
  ⟨.unknownError, "the request failed for an unknown reason"⟩

def ErrDeserializeJSON : Error :=
  ⟨.invalidJSON, "could not deserialize JSON"⟩

def ErrActualLRPCannotBeClaimed : Error :=
  ⟨.actualLRPCannotBeClaimed, "cannot claim actual LRP"⟩

def ErrActualLRPCannotBeStarted : Error :=
  ⟨.actualLRPCannotBeStarted, "cannot start actual LRP"⟩

def ErrActualLRPCannotBeCrashed : Error :=
  ⟨.actualLRPCannotBeCrashed, "cannot crash actual LRP"⟩

def ErrActualLRPCannotBeFailed : Error :=
  ⟨.actualLRPCannotBeFailed, "cannot fail actual LRP"⟩

def ErrActualLRPCannotBeRemoved : Error :=
  ⟨.actualLRPCannotBeRemoved, "cannot remove actual LRP"⟩

def ErrActualLRPCannotBeStopped : Error :=
  ⟨.actualLRPCannotBeStopped, "cannot stop actual LRP"⟩

/-- How an operation can end other than by success. -/
inductive Failure where
  | error (e : Error)
  /-- A nil pointer was dereferenced, or the code called `panic`. -/
  | panic
  deriving DecidableEq, Repr

end Bbs.Models
