/-
The error of a response, with what its headers say of the rate limit.

`createError` is `create_error_from_response` with the headers that `createErrorFromResponse`
leaves out; what `int()`, `float()` and `parsedate_to_datetime` make of a text is a parameter.  It
maps a response as it should exactly if `Mappable` holds (`mapsError_iff`).
-/
import SpooledSdk.Errors
import SpooledSdk.Text
import Mathlib.Algebra.Order.Floor.Ring
import Mathlib.Data.Rat.Floor

namespace SpooledSdk

open Text

/-! ### Numbers and dates in texts -/

/-- What `float()` returns. -/
inductive PyFloat
  | finite (q : ℚ)
  | infinity
  | nan

/-- How a conversion fails. -/
inductive ConversionError
  | valueError
  | typeError
  | overflowError
  deriving DecidableEq, Repr

/-- The conversions of texts that the standard library has, and the time. -/
structure Conversions where
  /-- `int(text)`; `none` for a `ValueError`. -/
  int : String → Option ℤ
  /-- `int` passes over spaces at both ends.  CPython's does not pass over U+001C to U+001F,
  which `strip` does; no header value holds one of these. -/
  int_strip : ∀ text, int (strip text) = int text
  /-- `float(text)`; `none` for a `ValueError`. -/
  float : String → Option PyFloat
  /-- `parsedate_to_datetime(text)`, in seconds since the epoch, a naive date taken as UTC. -/
  date : String → Except ConversionError (Option ℚ)
  /-- `datetime.now(timezone.utc)` -/
  now : ℚ

/-- `int(q)`, which cuts off the fraction. -/
def truncate (q : ℚ) : ℤ := if 0 ≤ q then ⌊q⌋ else ⌈q⌉

/-- `datetime.fromtimestamp(epoch, tz=timezone.utc)`: an instant in the years 1 to 9999. -/
def fromTimestamp (epoch : ℤ) : Option ℤ :=
  if -62135596800 ≤ epoch ∧ epoch ≤ 253402300799 then some epoch else none

/-! ### Headers -/

/-- `_header_get` of `errors.py`, and `_header` of `types/common.py`: the name as it is, then
whatever its case. -/
def headerGet (headers : List (String × String)) (name : String) : Option String :=
  ((headers.find? fun header => header.1 == name).or
    (headers.find? fun header => header.1.toLower == name.toLower)).map Prod.snd

section

variable (py : Conversions)

/-- `_parse_retry_after` -/
def parseRetryAfter (value : Option String) : Except ConversionError (Option ℤ) :=
  match value with
  | none => .ok none
  | some value =>
    let value := strip value
    if value = "" then .ok none
    else
      match py.float value with
      | some (.finite q) => .ok (some (max 0 (truncate q)))
      -- `int(float("inf"))`, which `except (TypeError, ValueError)` lets pass
      | some .infinity => .error .overflowError
      | some .nan | none =>
        match py.date value with
        | .ok (some retryAt) => .ok (some (max 0 (truncate (retryAt - py.now))))
        | .ok none | .error .valueError | .error .typeError => .ok none
        | .error .overflowError => .error .overflowError

/-- `_parse_int_header` -/
def parseIntHeader (value : Option String) : Option ℤ := value.bind py.int

/-- `_int_header` -/
def intHeader (headers : List (String × String)) (name : String) : Option ℤ :=
  (headerGet headers name).bind fun value => py.int (strip value)

/-- `RateLimitInfo` -/
structure RateLimitInfo where
  limit : Option ℤ := none
  remaining : Option ℤ := none
  resetEpoch : Option ℤ := none
  reset : Option ℤ := none
  scope : Option String := none

/-- The scope of a header, unless it is empty. -/
def scopeOf (value : Option String) : Option String :=
  value.bind fun scope => if scope = "" then none else some (strip scope)

/-- `RateLimitInfo.from_headers` -/
def RateLimitInfo.fromHeaders (headers : List (String × String)) : Option RateLimitInfo :=
  let limit := intHeader py headers "X-RateLimit-Limit"
  let remaining := intHeader py headers "X-RateLimit-Remaining"
  let resetEpoch := intHeader py headers "X-RateLimit-Reset"
  let scope := headerGet headers "X-RateLimit-Scope"
  if limit.isNone ∧ remaining.isNone ∧ resetEpoch.isNone ∧ scope.isNone then none
  else some
    { limit := limit
      remaining := remaining
      resetEpoch := resetEpoch
      reset := resetEpoch.bind fromTimestamp
      scope := scopeOf scope }

/-! ### Errors of responses -/

/-- The fields that `RateLimitError` adds. -/
structure RateFields where
  retryAfter : ℤ := 60
  limit : Option ℤ := none
  remaining : Option ℤ := none
  reset : Option ℤ := none
  scope : Option String := none

/-- A rate limit's own fields, as `create_error_from_response` reads them. -/
def rateFields (headers : List (String × String)) : Except ConversionError RateFields := do
  let retryAfter ← parseRetryAfter py (headerGet headers "Retry-After")
  let limit := parseIntHeader py (headerGet headers "X-RateLimit-Limit")
  let remaining := parseIntHeader py (headerGet headers "X-RateLimit-Remaining")
  let reset ←
    match parseIntHeader py (headerGet headers "X-RateLimit-Reset") with
    | none => .ok none
    | some epoch =>
      -- not in a `try`, unlike in `from_headers`
      match fromTimestamp epoch with
      | some reset => .ok (some reset)
      | none => .error .valueError
  let scope := scopeOf (headerGet headers "X-RateLimit-Scope")
  return { retryAfter := retryAfter.getD 60, limit, remaining, reset, scope }

/-- An error with its rate-limit fields: those of a quota are its defaults. -/
structure ResponseError where
  error : SpooledError
  rate : RateFields

/-- `is_lease_expired`; `none` for the `AttributeError` of a code that is no text.  The capitals
are those of ASCII. -/
def isLeaseExpired (error : SpooledError) : Option Bool :=
  if error.cls = .conflictError then
    match error.code with
    | .str code => some (code.toUpper == "LEASE_EXPIRED")
    | _ => none
  else some false

/-- `create_error_from_response` -/
def createError (statusCode : ℕ) (body : Option Json) (headers : List (String × String)) :
    Except ConversionError ResponseError :=
  let (code, message) := errorTexts body
  match errorClass statusCode (isQuotaResponse code body (headerGet headers "Retry-After")) with
  | .rateLimitError => do
    let rate ← rateFields py headers
    return ⟨⟨.rateLimitError, message, statusCode, code⟩, rate⟩
  | .quotaExceededError =>
    .ok ⟨⟨.quotaExceededError, message, statusCode, .str "QUOTA_EXCEEDED"⟩, { retryAfter := 0 }⟩
  | cls => .ok ⟨⟨cls, message, statusCode, code⟩, {}⟩

/-- The quota test, on the code of the body. -/
def isQuota (body : Option Json) (headers : List (String × String)) : Bool :=
  isQuotaResponse (errorTexts body).1 body (headerGet headers "Retry-After")

/-- What a response should be mapped to. -/
def MapsError (statusCode : ℕ) (body : Option Json) (headers : List (String × String)) : Prop :=
  ∃ e, createError py statusCode body headers = .ok e ∧
    e.error.statusCode = statusCode ∧
    (e.error.isRetryable = true ↔ statusCode = 408 ∨ (500 ≤ statusCode ∧ statusCode < 600) ∨
      statusCode = 429 ∧ isQuota body headers = false) ∧
    (∃ expired, isLeaseExpired e.error = some expired ∧ (expired = true → statusCode = 409)) ∧
    (statusCode = 429 → isQuota body headers = false →
      e.rate.limit = (RateLimitInfo.fromHeaders py headers).bind RateLimitInfo.limit ∧
      e.rate.remaining = (RateLimitInfo.fromHeaders py headers).bind RateLimitInfo.remaining ∧
      e.rate.reset = (RateLimitInfo.fromHeaders py headers).bind RateLimitInfo.reset ∧
      e.rate.scope = (RateLimitInfo.fromHeaders py headers).bind RateLimitInfo.scope ∧
      e.rate.retryAfter =
        ((parseRetryAfter py (headerGet headers "Retry-After")).toOption.join).getD 60)

/-- No `Retry-After` that is infinite, and none that overflows as a date. -/
def ReadableRetryAfter (value : Option String) : Prop :=
  ∀ text, value = some text → strip text ≠ "" →
    py.float (strip text) ≠ some .infinity ∧
    ((∀ q, py.float (strip text) ≠ some (.finite q)) →
      py.date (strip text) ≠ .error .overflowError)

/-- The headers of a rate limit are in range, and the code of a conflict is a text. -/
def Mappable (statusCode : ℕ) (body : Option Json) (headers : List (String × String)) : Prop :=
  (statusCode = 429 → isQuota body headers = false →
    ReadableRetryAfter py (headerGet headers "Retry-After") ∧
    ∀ epoch, intHeader py headers "X-RateLimit-Reset" = some epoch →
      (fromTimestamp epoch).isSome = true) ∧
  (statusCode = 409 → ∃ code, (errorTexts body).1 = .str code)

/-! ### Reading the headers -/

variable {py} {statusCode : ℕ} {body : Option Json} {headers : List (String × String)}

theorem parseRetryAfter_ok_iff {value : Option String} :
    (∃ seconds, parseRetryAfter py value = .ok seconds) ↔ ReadableRetryAfter py value := by
  cases value with
  | none => exact ⟨fun _ _ h => (nomatch h), fun _ => ⟨none, rfl⟩⟩
  | some text =>
    simp only [parseRetryAfter, ReadableRetryAfter, Option.some.injEq, forall_eq']
    by_cases hempty : strip text = ""
    · simp [hempty]
    · simp only [ne_eq, hempty, not_false_eq_true, true_imp_iff]
      cases hfloat : py.float (strip text) with
      | none => cases hdate : py.date (strip text) with
        | ok retryAt => cases retryAt <;> simp
        | error err => cases err <;> simp
      | some x =>
        cases x with
        | finite q => simp
        | infinity => simp
        | nan => cases hdate : py.date (strip text) with
          | ok retryAt => cases retryAt <;> simp
          | error err => cases err <;> simp

theorem parseIntHeader_eq (name : String) :
    parseIntHeader py (headerGet headers name) = intHeader py headers name := by
  rw [parseIntHeader, intHeader]
  exact congrArg _ (funext fun value => (py.int_strip value).symm)

/-- What a rate limit reads from its headers, if it reads them. -/
theorem rateFields_eq (headers : List (String × String)) : rateFields py headers =
    (parseRetryAfter py (headerGet headers "Retry-After")).bind fun retryAfter =>
      if ∀ epoch, intHeader py headers "X-RateLimit-Reset" = some epoch →
          (fromTimestamp epoch).isSome = true then
        .ok { retryAfter := retryAfter.getD 60
              limit := intHeader py headers "X-RateLimit-Limit"
              remaining := intHeader py headers "X-RateLimit-Remaining"
              reset := (intHeader py headers "X-RateLimit-Reset").bind fromTimestamp
              scope := scopeOf (headerGet headers "X-RateLimit-Scope") }
      else .error .valueError := by
  rw [rateFields]
  simp only [parseIntHeader_eq]
  cases parseRetryAfter py (headerGet headers "Retry-After") with
  | error err => rfl
  | ok retryAfter =>
    cases hreset : intHeader py headers "X-RateLimit-Reset" with
    | none => rfl
    | some epoch =>
      simp only [Option.some.injEq, forall_eq', Option.bind_some]
      cases hepoch : fromTimestamp epoch with
      | none => rfl
      | some reset => rfl

theorem fromHeaders_fields (py : Conversions) (headers : List (String × String)) :
    (RateLimitInfo.fromHeaders py headers).bind RateLimitInfo.limit =
        intHeader py headers "X-RateLimit-Limit" ∧
    (RateLimitInfo.fromHeaders py headers).bind RateLimitInfo.remaining =
        intHeader py headers "X-RateLimit-Remaining" ∧
    (RateLimitInfo.fromHeaders py headers).bind RateLimitInfo.reset =
        (intHeader py headers "X-RateLimit-Reset").bind fromTimestamp ∧
    (RateLimitInfo.fromHeaders py headers).bind RateLimitInfo.scope =
        scopeOf (headerGet headers "X-RateLimit-Scope") := by
  simp only [RateLimitInfo.fromHeaders]
  split
  -- without any of the headers `from_headers` returns `None`
  · rename_i h
    simp only [Option.isNone_iff_eq_none] at h
    obtain ⟨hlimit, hremaining, hreset, hscope⟩ := h
    rw [hlimit, hremaining, hreset, hscope]
    exact ⟨rfl, rfl, rfl, rfl⟩
  · exact ⟨rfl, rfl, rfl, rfl⟩

/-! ### When a response is mapped -/

/-- The error that no header decides on. -/
private def plainError (statusCode : ℕ) (body : Option Json) (quota : Bool) : SpooledError :=
  ⟨errorClass statusCode quota, (errorTexts body).2, statusCode,
    if quota ∧ statusCode = 429 then .str "QUOTA_EXCEEDED" else (errorTexts body).1⟩

theorem errorClass_eq_conflictError {quota : Bool} :
    errorClass statusCode quota = .conflictError ↔ statusCode = 409 := by
  constructor
  · intro h
    unfold errorClass at h
    split at h
    · cases h
    · split at h
      · cases h
      · split at h
        case h_5 => rfl
        case h_8 => split at h <;> cases h
        all_goals cases h
  · rintro rfl
    rfl

theorem errorClass_of_ne (h : statusCode ≠ 429) (quota : Bool) :
    errorClass statusCode quota ≠ .rateLimitError ∧
      errorClass statusCode quota ≠ .quotaExceededError := by
  obtain ⟨-, h429, -⟩ | ⟨-, h429, -⟩ | ⟨hc, -⟩ | ⟨hc, -⟩ := errorClass_cases statusCode quota
  · exact absurd h429 h
  · exact absurd h429 h
  · rw [hc]
    exact ⟨nofun, nofun⟩
  · simp only [List.mem_cons, List.not_mem_nil, or_false] at hc
    rcases hc with hc | hc | hc | hc | hc | hc | hc <;> (rw [hc]; exact ⟨nofun, nofun⟩)

theorem createError_rateLimit (h429 : statusCode = 429) (h : isQuota body headers = false) :
    createError py statusCode body headers = (rateFields py headers).bind fun rate =>
      .ok ⟨plainError statusCode body false, rate⟩ := by
  subst h429
  simp only [isQuota] at h
  simp only [createError, h]
  rfl

theorem createError_eq (h : statusCode = 429 → isQuota body headers = true) :
    createError py statusCode body headers = .ok ⟨plainError statusCode body (isQuota body headers),
      if statusCode = 429 then { retryAfter := 0 } else {}⟩ := by
  by_cases h429 : statusCode = 429
  · have hquota := h h429
    subst h429
    rw [hquota]
    simp only [isQuota] at hquota
    simp only [createError, hquota]
    rfl
  · obtain ⟨hrate, hquota⟩ := errorClass_of_ne h429 (isQuota body headers)
    rw [if_neg h429, plainError, if_neg fun hand => h429 hand.2]
    simp only [isQuota] at hrate hquota ⊢
    simp only [createError]

/-- What `createErrorFromResponse` is told of the headers: how reading them fails. -/
def rateFailure (py : Conversions) (headers : List (String × String)) : Option String :=
  match rateFields py headers with
  | .ok _ => none
  | .error err => some (toString (repr err))

/-- Without the fields of a rate limit, it is the same exception. -/
theorem createErrorFromResponse_eq (py : Conversions) (statusCode : ℕ) (body : Option Json)
    (headers : List (String × String)) :
    createErrorFromResponse statusCode body (headerGet headers "Retry-After")
        (rateFailure py headers) =
      match createError py statusCode body headers with
      | .ok e => .spooled e.error
      | .error err => .other (toString (repr err)) := by
  simp only [createErrorFromResponse, createError, rateFailure]
  split
  · rename_i hc hrate
    rw [hc]
    cases hfields : rateFields py headers with
    | ok fields =>
      rw [hfields] at hrate
      cases hrate
    | error err =>
      rw [hfields] at hrate
      cases hrate
      rfl
  · rename_i hc
    rw [hc]
  · rename_i hquota hnot
    cases hc : errorClass statusCode (isQuotaResponse (errorTexts body).1 body
      (headerGet headers "Retry-After")) with
    | rateLimitError =>
      cases hfields : rateFields py headers with
      | ok fields => rfl
      | error err =>
        rw [hfields] at hnot
        exact absurd rfl (hnot _ hc)
    | quotaExceededError => exact absurd hc hquota
    | _ => rfl

theorem isRetryable_plainError {quota : Bool} :
    (plainError statusCode body quota).isRetryable = true ↔
      statusCode = 408 ∨ (500 ≤ statusCode ∧ statusCode < 600) ∨
        statusCode = 429 ∧ quota = false := by
  rw [plainError, SpooledError.isRetryable]
  obtain ⟨hc, h429, hq⟩ | ⟨hc, h429, hq⟩ | ⟨hc, h5⟩ | ⟨hc, h429, h5⟩ :=
    errorClass_cases statusCode quota
  · rw [hc, hq]
    refine ⟨by simp, fun h => ?_⟩
    rcases h with h | h | h
    · omega
    · omega
    · cases h.2
  · rw [hc, hq]
    exact ⟨fun _ => .inr (.inr ⟨h429, rfl⟩), fun _ => rfl⟩
  · rw [hc]
    exact ⟨fun _ => .inr (.inl h5), fun _ => rfl⟩
  · have hiff : statusCode = 408 ∨ (500 ≤ statusCode ∧ statusCode < 600) ∨
        statusCode = 429 ∧ quota = false ↔ statusCode = 408 := by omega
    rw [hiff]
    simp only [List.mem_cons, List.not_mem_nil, or_false] at hc
    rcases hc with hc | hc | hc | hc | hc | hc | hc <;> (rw [hc]; exact beq_iff_eq)

theorem isLeaseExpired_plainError (quota : Bool) :
    (∃ expired, isLeaseExpired (plainError statusCode body quota) = some expired ∧
      (expired = true → statusCode = 409)) ↔
      (statusCode = 409 → ∃ code, (errorTexts body).1 = .str code) := by
  rw [isLeaseExpired, plainError]
  dsimp only
  by_cases h409 : statusCode = 409
  · rw [if_pos (errorClass_eq_conflictError.mpr h409), if_neg (by omega)]
    cases (errorTexts body).1 <;> simp [h409]
  · rw [if_neg (mt errorClass_eq_conflictError.mp h409)]
    exact ⟨fun _ h => absurd h h409, fun _ => ⟨false, rfl, nofun⟩⟩

/-- A response is mapped as it should exactly if it is `Mappable`. -/
theorem mapsError_iff (py : Conversions) (statusCode : ℕ) (body : Option Json)
    (headers : List (String × String)) :
    MapsError py statusCode body headers ↔ Mappable py statusCode body headers := by
  by_cases hrate : statusCode = 429 ∧ isQuota body headers = false
  -- only a rate limit reads numbers from the headers
  · obtain ⟨h429, hquota⟩ := hrate
    have hmappable : Mappable py statusCode body headers ↔
        ReadableRetryAfter py (headerGet headers "Retry-After") ∧
          ∀ epoch, intHeader py headers "X-RateLimit-Reset" = some epoch →
            (fromTimestamp epoch).isSome = true :=
      ⟨fun h => h.1 h429 hquota, fun h => ⟨fun _ _ => h, fun h409 => by omega⟩⟩
    rw [hmappable, ← parseRetryAfter_ok_iff, MapsError, createError_rateLimit h429 hquota,
      rateFields_eq]
    obtain ⟨hlimit, hremaining, hreset, hscope⟩ := fromHeaders_fields py headers
    cases hparse : parseRetryAfter py (headerGet headers "Retry-After") with
    | error err =>
      exact ⟨fun ⟨_, h, _⟩ => (nomatch h), fun ⟨⟨_, h⟩, _⟩ => (nomatch h)⟩
    | ok retryAfter =>
      by_cases hin : ∀ epoch, intHeader py headers "X-RateLimit-Reset" = some epoch →
          (fromTimestamp epoch).isSome = true
      · refine ⟨fun _ => ⟨⟨retryAfter, rfl⟩, hin⟩, fun _ => ?_⟩
        simp only [Except.bind, if_pos hin]
        refine ⟨_, rfl, rfl, ?_, ?_, fun _ _ => ?_⟩
        · rw [hquota]
          exact isRetryable_plainError
        · exact (isLeaseExpired_plainError _).mpr fun h409 => by omega
        · exact ⟨hlimit.symm, hremaining.symm, hreset.symm, hscope.symm,
            by cases retryAfter <;> rfl⟩
      -- `datetime.fromtimestamp` raises on the epoch
      · refine ⟨fun ⟨_, h, _⟩ => ?_, fun ⟨_, h⟩ => absurd h hin⟩
        simp only [Except.bind, if_neg hin] at h
        cases h
  · have hplain : statusCode = 429 → isQuota body headers = true := by
      intro h429
      cases hquota : isQuota body headers with
      | true => rfl
      | false => exact absurd ⟨h429, hquota⟩ hrate
    have hmappable : Mappable py statusCode body headers ↔
        (statusCode = 409 → ∃ code, (errorTexts body).1 = .str code) :=
      ⟨fun h => h.2, fun h => ⟨fun h429 hquota => absurd ⟨h429, hquota⟩ hrate, h⟩⟩
    rw [hmappable, MapsError, createError_eq hplain,
      ← isLeaseExpired_plainError (isQuota body headers)]
    constructor
    · rintro ⟨e, he, -, -, hexpired, -⟩
      cases he
      exact hexpired
    · intro hexpired
      exact ⟨_, rfl, rfl, isRetryable_plainError, hexpired,
        fun h429 hquota => absurd ⟨h429, hquota⟩ hrate⟩

/-! ### A conflict without a code -/

/-- Conversions that know plain decimals, and no dates. -/
def sampleConversions : Conversions where
  int text := (strip text).toInt?
  int_strip text := by rw [strip_strip]
  float text := (strip text).toInt?.map fun n => .finite n
  date _ := .error .valueError
  now := 0

/-- The code `null` of a 409 is not a text, and `is_lease_expired` asks it for its capitals. -/
theorem null_code_unmapped : ¬ ∀ (py : Conversions) (statusCode : ℕ) (body : Option Json)
    (headers : List (String × String)), ¬ (200 ≤ statusCode ∧ statusCode < 300) →
      MapsError py statusCode body headers := by
  intro h
  obtain ⟨e, he, -, -, ⟨expired, hexpired, -⟩, -⟩ :=
    h sampleConversions 409 (some (.obj [("code", .null)])) [] (by omega)
  cases he
  cases hexpired

end

end SpooledSdk
