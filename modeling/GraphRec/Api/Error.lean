import Mathlib.Data.Nat.Notation

/-!
# The errors of the API

`ApiError` carries what a client reads: a status code, a code, a message, whether and when a
retry makes sense, and details that name fields or rows.
-/

namespace Api

/-- An item of `details["fields"]`. -/
structure FieldError where
  field : String
  message : String
  deriving DecidableEq, Repr

/-- `ApiError.details`. -/
inductive Details
  | none
  | fields (errors : List FieldError)
  /-- The row that is in the way, by its identifier. -/
  | requestId (id : ℕ)
  /-- The limits that are exceeded: name, limit and what is used. -/
  | conflicts (limits : List (String × ℕ × ℕ))
  deriving DecidableEq, Repr

/-- `ApiError`. -/
structure ApiError where
  statusCode : ℕ
  code : String
  message : String
  retryable : Bool := false
  retryAfterSeconds : Option ℕ := none
  details : Details := .none
  deriving DecidableEq, Repr

end Api
