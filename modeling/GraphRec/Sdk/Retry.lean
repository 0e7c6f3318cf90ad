import Mathlib.Algebra.Order.Ring.Rat
import Mathlib.Data.Nat.Notation

/-!
# The retry policy of the SDK

What went wrong with a request, as `errors.py` reads it, and what `RetryPolicy` makes of it: to give
up, or how long to wait before the request is sent again.

* `errorFromResponse` — an error response;
* `delayForStatus`, `delayForException` — the policy;
* `wait_of_exception` — a wait after an exception can be slept;
* `safe_of_exception`, `safe_of_status` — what is not safe to repeat is repeated only if the server
  did nothing.
-/

namespace Sdk

/-! ## Seconds -/

/-- A `float`. -/
inductive Seconds
  | finite (q : ℚ)
  | infinite
  | negInfinite
  | nan
  deriving DecidableEq

/-- `seconds >= 0`. -/
def Seconds.atLeastZero : Seconds → Bool
  | .finite q => decide (0 ≤ q)
  | .infinite => true
  | .negInfinite | .nan => false

/-- `seconds > bound`. -/
def Seconds.exceeds (bound : ℚ) : Seconds → Bool
  | .finite q => decide (bound < q)
  | .infinite => true
  | .negInfinite | .nan => false

/-! ## Errors -/

/-- `httpx.TransportError`, without its base classes. -/
inductive TransportError
  | connectTimeout
  | readTimeout
  | writeTimeout
  | poolTimeout
  | connectError
  | readError
  | writeError
  | closeError
  | localProtocolError
  | remoteProtocolError
  | proxyError
  | unsupportedProtocol
  deriving DecidableEq, Repr

/-- `httpx.TimeoutException`. -/
def TransportError.isTimeout : TransportError → Bool
  | .connectTimeout | .readTimeout | .writeTimeout | .poolTimeout => true
  | _ => false

/-- `_PRE_SEND_ERRORS`. -/
def TransportError.isPreSend : TransportError → Bool
  | .connectError | .connectTimeout | .poolTimeout => true
  | _ => false

/-- A response, with what `error_from_response` looks for in it: the `code` of the envelope if there
is one that is not empty, `retryable` if it is a boolean, `retry_after_seconds` if it is a number,
and the header `Retry-After` if it is one. -/
structure Response where
  status : ℕ
  code : Option String
  retryable : Option Bool
  retryAfterSeconds : Option Seconds
  retryAfterHeader : Option Seconds
  deriving DecidableEq

/-- `response.is_success`. -/
def Response.isSuccess (r : Response) : Bool := decide (200 ≤ r.status ∧ r.status ≤ 299)

/-- The classes of `APIStatusError`. -/
inductive ErrorClass
  | apiStatus
  | malformedRequest
  | authentication
  | tokenExpired
  | permissionDenied
  | notFound
  | conflict
  | duplicateResource
  | idempotencyConflict
  | stateConflict
  | limitBelowUsage
  | payloadTooLarge
  | requestValidation
  | rateLimit
  | quotaExceeded
  | internalServer
  | serviceUnavailable
  deriving DecidableEq, Repr

/-- `isinstance(error, AuthenticationError)`. -/
def ErrorClass.isAuthentication : ErrorClass → Bool
  | .authentication | .tokenExpired => true
  | _ => false

/-- `_CODE_MAP`. -/
def codeMap : List (String × ErrorClass) :=
  [("malformed_request", .malformedRequest),
    ("authentication_failed", .authentication),
    ("invalid_setup_token", .authentication),
    ("token_expired", .tokenExpired),
    ("insufficient_scope", .permissionDenied),
    ("resource_not_found", .notFound),
    ("duplicate_resource", .duplicateResource),
    ("idempotency_conflict", .idempotencyConflict),
    ("state_conflict", .stateConflict),
    ("limit_below_usage", .limitBelowUsage),
    ("invalid_recovery_token", .authentication),
    ("insufficient_role", .permissionDenied),
    ("artifact_not_found", .notFound),
    ("conflict", .stateConflict),
    ("payload_too_large", .payloadTooLarge),
    ("validation_failed", .requestValidation),
    ("rate_limit_exceeded", .rateLimit),
    ("quota_exceeded", .quotaExceeded),
    ("service_unavailable", .serviceUnavailable)]

/-- `_STATUS_MAP`. -/
def statusMap : List (ℕ × ErrorClass) :=
  [(400, .malformedRequest),
    (401, .authentication),
    (403, .permissionDenied),
    (404, .notFound),
    (409, .conflict),
    (413, .payloadTooLarge),
    (422, .requestValidation),
    (429, .rateLimit),
    (503, .serviceUnavailable)]

/-- `APIStatusError`. -/
structure APIStatusError where
  errorClass : ErrorClass
  statusCode : ℕ
  code : String
  retryable : Bool
  retryAfterSeconds : Option Seconds
  deriving DecidableEq

/-- `_parse_retry_after`. -/
def parseRetryAfter (value : Option Seconds) : Option Seconds := value.filter Seconds.atLeastZero

/-- `error_from_response`. -/
def errorFromResponse (r : Response) : APIStatusError :=
  let code := r.code.getD s!"http_{r.status}"
  { errorClass :=
      (codeMap.lookup code).getD ((statusMap.lookup r.status).getD
        (if 500 ≤ r.status then .internalServer else .apiStatus))
    statusCode := r.status
    code := code
    retryable :=
      r.retryable.getD (decide (r.status = 429 ∨ r.status = 503)) && code != "quota_exceeded"
    -- the number in the envelope is not checked, the one in the header is
    retryAfterSeconds :=
      match r.retryAfterSeconds with
      | some seconds => some seconds
      | none => parseRetryAfter r.retryAfterHeader }

/-! ## The policy -/

/-- `AuthMode`. -/
inductive AuthMode
  | none
  | optional
  | any
  | bearer
  deriving DecidableEq, Repr

/-- `Route`, with what a request reads of it to send and retry. -/
structure Route where
  auth : AuthMode
  idempotent : Bool
  deriving DecidableEq, Repr

/-- `RetryPolicy`. -/
structure RetryPolicy where
  maxRetries : ℕ
  initialDelay : ℚ
  maxDelay : ℚ
  maxRetryAfter : ℚ
  jitter : ℚ

/-- What the policy answers: to give up, or how long to wait; `2.0 ** attempt` overflows in the
end. -/
inductive Delay
  | giveUp
  | wait (delay : Seconds)
  | overflow
  deriving DecidableEq

namespace RetryPolicy

variable (policy : RetryPolicy)

/-- `backoff`; `draw` is what `random()` returns. -/
def backoff (attempt : ℕ) (draw : ℚ) : Delay :=
  if 1024 ≤ attempt then .overflow
  else
    let base := min (policy.initialDelay * 2 ^ attempt) policy.maxDelay
    let spread := base * policy.jitter
    .wait (.finite (max 0 (base + (-spread + (spread - -spread) * draw))))

/-- The server refused without doing anything. -/
def rejectedBeforeProcessing (error : APIStatusError) : Bool :=
  decide (error.statusCode = 429) || (decide (error.statusCode = 503) && error.retryable)

/-- A gateway failed, and the request may be repeated. -/
def gatewayFailure (error : APIStatusError) (route : Route) : Bool :=
  decide (error.statusCode = 502 ∨ error.statusCode = 504) && route.idempotent

/-- `delay_for_status`. -/
def delayForStatus (error : APIStatusError) (route : Route) (attempt : ℕ) (draw : ℚ) : Delay :=
  if policy.maxRetries ≤ attempt then .giveUp
  else if error.code = "quota_exceeded" then .giveUp
  else if rejectedBeforeProcessing error || gatewayFailure error route then
    match error.retryAfterSeconds with
    | some retryAfter =>
      if retryAfter.exceeds policy.maxRetryAfter then .giveUp else .wait retryAfter
    | none => policy.backoff attempt draw
  else .giveUp

/-- `delay_for_exception`. -/
def delayForException (e : TransportError) (route : Route) (attempt : ℕ) (draw : ℚ) : Delay :=
  if policy.maxRetries ≤ attempt then .giveUp
  else if e.isPreSend || route.idempotent then policy.backoff attempt draw
  else .giveUp

/-! ## What is retried -/

variable {policy} {e : TransportError} {error : APIStatusError} {route : Route} {attempt : ℕ}
  {draw : ℚ} {delay : Seconds}

theorem wait_of_backoff (h : policy.backoff attempt draw = .wait delay) :
    delay.atLeastZero = true := by
  unfold backoff at h
  split at h
  next => cases h
  next =>
    obtain rfl := Delay.wait.inj h
    exact decide_eq_true (le_max_left _ _)

/-- A wait after an exception is a backoff. -/
theorem wait_of_exception (h : policy.delayForException e route attempt draw = .wait delay) :
    delay.atLeastZero = true := by
  unfold delayForException at h
  split at h
  next => cases h
  next =>
    split at h
    next => exact wait_of_backoff h
    next => cases h

/-- There are attempts left when a request is sent again. -/
theorem attempt_lt_of_exception
    (h : policy.delayForException e route attempt draw = .wait delay) :
    attempt < policy.maxRetries := by
  unfold delayForException at h
  split at h
  next => cases h
  next hleft => omega

theorem attempt_lt_of_status (h : policy.delayForStatus error route attempt draw = .wait delay) :
    attempt < policy.maxRetries := by
  unfold delayForStatus at h
  split at h
  next => cases h
  next hleft => omega

/-- **After an exception**, what is not safe to repeat is sent again only if it was not sent. -/
theorem safe_of_exception (h : policy.delayForException e route attempt draw = .wait delay)
    (hroute : route.idempotent = false) : e.isPreSend = true := by
  unfold delayForException at h
  rw [hroute, Bool.or_false] at h
  split at h
  next => cases h
  next =>
    split at h
    next hpre => exact hpre
    next => cases h

/-- **After an error response**, it is sent again only if that rejects it before processing. -/
theorem safe_of_status (h : policy.delayForStatus error route attempt draw = .wait delay)
    (hroute : route.idempotent = false) :
    rejectedBeforeProcessing error = true := by
  unfold delayForStatus at h
  split at h
  next => cases h
  next =>
    split at h
    next => cases h
    next =>
      split at h
      next hretried =>
        rwa [gatewayFailure, hroute, Bool.and_false, Bool.or_false] at hretried
      next => cases h

end RetryPolicy

end Sdk
