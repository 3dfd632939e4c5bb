/-
The exceptions of the SDK, and those of responses.

`ErrorClass` lists the subclasses of `SpooledError`; `isRetryable` is each class's own
`is_retryable`, and every other Python exception is an `PyException.other`.
-/
import SpooledSdk.Json
import Mathlib.Order.Basic

namespace SpooledSdk

/-- The classes of `errors.py`, with the base class first. -/
inductive ErrorClass
  | spooledError
  | authenticationError
  | authorizationError
  | notFoundError
  | conflictError
  | validationError
  | payloadTooLargeError
  | rateLimitError
  | quotaExceededError
  | serverError
  | networkError
  | timeoutError
  | circuitBreakerOpenError
  | unsupportedOperationError
  deriving DecidableEq, Repr

/-- `message` and `code` are what the server sent, so any JSON value. -/
structure SpooledError where
  cls : ErrorClass
  message : Json
  statusCode : ℕ := 0
  code : Json := .str "unknown_error"

/-- `is_retryable`: 408 alone for a class that does not override it. -/
def SpooledError.isRetryable (e : SpooledError) : Bool :=
  match e.cls with
  | .rateLimitError | .serverError | .networkError | .timeoutError => true
  | .quotaExceededError | .circuitBreakerOpenError => false
  | _ => e.statusCode == 408

/-- `isinstance(e, RateLimitError)`, whose one subclass is `QuotaExceededError`. -/
def SpooledError.isRateLimit (e : SpooledError) : Bool :=
  e.cls matches .rateLimitError | .quotaExceededError

/-- An instance of `Exception`. -/
inductive PyException
  | spooled (e : SpooledError)
  | other (text : String)

/-! ### Errors of responses -/

/-- `_is_quota_response`: the code, or a body of that form without a `Retry-After`. -/
def isQuotaResponse (code : Json) (body : Option Json) (retryAfter : Option String) : Bool :=
  (match code with
    | .str c => c.toUpper == "QUOTA_EXCEEDED"
    | _ => false) ||
  match retryAfter, body with
  | none, some (.obj members) =>
    (match Json.get? "error" members with
      | some (.str text) => text == "limit_exceeded"
      | _ => false) ||
    ["resource", "limit", "plan"].all fun key => (Json.get? key members).isSome
  | _, _ => false

/-- The `code` and the `message` of an error body. -/
def errorTexts : Option Json → Json × Json
  | some (.obj members) => ((Json.get? "code" members).getD (.str "unknown_error"),
      (Json.get? "message" members).getD (.str "Unknown error"))
  | some (.str text) =>
    (.str "unknown_error", .str (if text = "" then "Unknown error" else text))
  | _ => (.str "unknown_error", .str "Unknown error")

/-- The class that `create_error_from_response` picks for a status. -/
def errorClass (statusCode : ℕ) (quota : Bool) : ErrorClass :=
  if statusCode = 422 then .validationError
  else if statusCode = 429 ∧ quota = true then .quotaExceededError
  else
    match statusCode with
    | 400 => .validationError
    | 401 => .authenticationError
    | 403 => .authorizationError
    | 404 => .notFoundError
    | 409 => .conflictError
    | 413 => .payloadTooLargeError
    | 429 => .rateLimitError
    | _ => if 500 ≤ statusCode ∧ statusCode < 600 then .serverError else .spooledError

/-- `create_error_from_response`; `rate` is what reading the rate-limit headers raises, if it
does: only the class of a rate limit reads them. -/
def createErrorFromResponse (statusCode : ℕ) (body : Option Json) (retryAfter : Option String)
    (rate : Option String) : PyException :=
  let (code, message) := errorTexts body
  match errorClass statusCode (isQuotaResponse code body retryAfter), rate with
  | .rateLimitError, some text => .other text
  | .quotaExceededError, _ =>
    .spooled ⟨.quotaExceededError, message, statusCode, .str "QUOTA_EXCEEDED"⟩
  | cls, _ => .spooled ⟨cls, message, statusCode, code⟩

/-- A `SpooledError` that is not retryable: nothing retries it, and no breaker counts it. -/
def PyException.isFinal : PyException → Bool
  | .spooled e => !e.isRetryable
  | .other _ => false

/-- A rate limit that a later attempt may pass, unlike a plan quota. -/
def PyException.isRetryableRateLimit : PyException → Bool
  | .spooled e => e.isRateLimit && e.isRetryable
  | .other _ => false

section

variable {statusCode : ℕ} {body : Option Json} {retryAfter rate : Option String}

/-- The class says which statuses it stands for. -/
theorem errorClass_cases (statusCode : ℕ) (quota : Bool) :
    (errorClass statusCode quota = .quotaExceededError ∧ statusCode = 429 ∧ quota = true) ∨
    (errorClass statusCode quota = .rateLimitError ∧ statusCode = 429 ∧ quota = false) ∨
    (errorClass statusCode quota = .serverError ∧ 500 ≤ statusCode ∧ statusCode < 600) ∨
    (errorClass statusCode quota ∈ [.spooledError, .authenticationError, .authorizationError,
      .notFoundError, .conflictError, .validationError, .payloadTooLargeError] ∧
        statusCode ≠ 429 ∧ ¬ (500 ≤ statusCode ∧ statusCode < 600)) := by
  unfold errorClass
  split
  · rename_i h
    subst h
    exact .inr (.inr (.inr ⟨by decide, by decide, by decide⟩))
  · split
    · rename_i hq
      exact .inl ⟨rfl, hq⟩
    · rename_i hq
      split
      case h_7 => exact .inr (.inl ⟨rfl, rfl, by simpa using hq⟩)
      case h_8 =>
        split
        · rename_i h5
          exact .inr (.inr (.inl ⟨rfl, h5⟩))
        · rename_i h429 h5
          exact .inr (.inr (.inr ⟨by decide, h429, h5⟩))
      all_goals exact .inr (.inr (.inr ⟨by decide, by decide, by decide⟩))

/-- The exception of a response: what reading its rate-limit headers raises, or the error of
its class. -/
theorem createErrorFromResponse_cases (statusCode : ℕ) (body : Option Json)
    (retryAfter rate : Option String) :
    (statusCode = 429 ∧ isQuotaResponse (errorTexts body).1 body retryAfter = false ∧
      ∃ text, createErrorFromResponse statusCode body retryAfter rate = .other text) ∨
    ∃ message code, createErrorFromResponse statusCode body retryAfter rate = .spooled
      ⟨errorClass statusCode (isQuotaResponse (errorTexts body).1 body retryAfter), message,
        statusCode, code⟩ := by
  have hcls := errorClass_cases statusCode (isQuotaResponse (errorTexts body).1 body retryAfter)
  unfold createErrorFromResponse
  dsimp only
  split
  · rename_i heq
    rw [heq] at hcls
    obtain ⟨h, -⟩ | ⟨-, h⟩ | ⟨h, -⟩ | ⟨h, -⟩ := hcls
    · cases h
    · exact .inl ⟨h.1, h.2, _, rfl⟩
    · cases h
    · exact absurd h (by decide)
  · rename_i heq
    exact .inr ⟨_, _, by rw [heq]⟩
  · exact .inr ⟨_, _, rfl⟩

/-- A response is a rate limit that may be retried only if it is a 429 and no plan quota. -/
theorem createErrorFromResponse_rateLimit
    (h : (createErrorFromResponse statusCode body retryAfter rate).isRetryableRateLimit = true) :
    statusCode = 429 ∧ isQuotaResponse (errorTexts body).1 body retryAfter = false := by
  obtain ⟨h429, hq, -⟩ | ⟨message, code, heq⟩ :=
    createErrorFromResponse_cases statusCode body retryAfter rate
  · exact ⟨h429, hq⟩
  · rw [heq, PyException.isRetryableRateLimit, SpooledError.isRateLimit,
      SpooledError.isRetryable] at h
    obtain ⟨hc, -⟩ | ⟨-, hout⟩ | ⟨hc, -⟩ | ⟨hc, -⟩ := errorClass_cases statusCode
      (isQuotaResponse (errorTexts body).1 body retryAfter)
    · rw [hc] at h
      cases h
    · exact hout
    · rw [hc] at h
      cases h
    · simp only [List.mem_cons, List.not_mem_nil, or_false] at hc
      rcases hc with hc | hc | hc | hc | hc | hc | hc <;> (rw [hc] at h; cases h)

/-- A 4xx response is final but for 408 and a rate limit. -/
theorem createErrorFromResponse_not_final
    (h : (createErrorFromResponse statusCode body retryAfter rate).isFinal = false)
    (h5 : statusCode < 500) : statusCode = 408 ∨
      statusCode = 429 ∧ isQuotaResponse (errorTexts body).1 body retryAfter = false := by
  obtain ⟨h429, hq, -⟩ | ⟨message, code, heq⟩ :=
    createErrorFromResponse_cases statusCode body retryAfter rate
  · exact .inr ⟨h429, hq⟩
  · rw [heq, PyException.isFinal, SpooledError.isRetryable] at h
    obtain ⟨hc, -⟩ | ⟨-, hout⟩ | ⟨-, h500, -⟩ | ⟨hc, -⟩ := errorClass_cases statusCode
      (isQuotaResponse (errorTexts body).1 body retryAfter)
    · rw [hc] at h
      cases h
    · exact .inr hout
    · omega
    · simp only [List.mem_cons, List.not_mem_nil, or_false] at hc
      refine .inl ?_
      rcases hc with hc | hc | hc | hc | hc | hc | hc <;>
        (rw [hc] at h; simpa using h)

end

end SpooledSdk
