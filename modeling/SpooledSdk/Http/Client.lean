/-
`HttpClient.request` and `AsyncHttpClient.request`: what one call puts on the wire.

An `Env` says what the rest of the world does to the call: the answers of the server, the
tokens that other threads or tasks install, how a refresh ends, the clock, and what concurrent
calls do to the circuit breaker.  The call keeps a log of its attempts.

* `execute_attempt` — one attempt is a rejection of the breaker, one request, or a request
  answered 401 and its replay;
* `request_safe` — how often, and after what, a request is sent again, and when the call ends as
  its last attempt;
* `pause_ends_call` — a call that ends as none of its attempts.
-/
import SpooledSdk.Http.CircuitBreaker
import SpooledSdk.Http.Retry

namespace SpooledSdk.Http

/-! ### Idempotency -/

/-- The values of `IDEMPOTENT_METHODS`. -/
def idempotentMethods : List String := ["GET", "HEAD", "PUT", "DELETE", "OPTIONS"]

/-- `_is_idempotent`: a safe method, or a key in a header or in the body.  The capitals are those
of ASCII. -/
def isIdempotent (method : String) (body : Option Json) (headers : List (String × String)) :
    Bool :=
  if idempotentMethods.contains method.toUpper then true
  else if headers.any fun h => h.1.toLower == "idempotency-key" && h.2 != "" then true
  else
    match body with
    | some (.obj members) => ((Json.get? "idempotency_key" members).map Json.truthy).getD false
    | _ => false

/-! ### One request -/

/-- A response: `result` is what reading the body of a successful one gives or raises, `rate`
what reading the rate-limit headers of a 429 raises. -/
structure Response (β : Type*) where
  statusCode : ℕ
  errorBody : Option Json := none
  retryAfter : Option String := none
  rate : Option String := none
  result : Except String β

/-- A 429 that is a plan quota. -/
def Response.quota {β : Type*} (r : Response β) : Bool :=
  isQuotaResponse (errorTexts r.errorBody).1 r.errorBody r.retryAfter

/-- How `httpx` answers one request. -/
inductive SendOutcome (β : Type*)
  | response (r : Response β)
  | timeout
  | requestError (text : String)
  | raised (text : String)

/-- What `_execute_request` makes of an answer that it does not refresh the token for. -/
def SendOutcome.result {β : Type*} (timeout : String) : SendOutcome β → Except PyException β
  | .timeout => .error (.spooled
      ⟨.timeoutError, .str ("Request timed out after " ++ timeout ++ "s"), 0, .str "timeout"⟩)
  | .requestError text => .error (.spooled
      ⟨.networkError, .str ("Network request failed: " ++ text), 0, .str "network_error"⟩)
  | .raised text => .error (.other text)
  | .response r =>
    if 200 ≤ r.statusCode ∧ r.statusCode < 300 then r.result.mapError .other
    else .error (createErrorFromResponse r.statusCode r.errorBody r.retryAfter r.rate)

/-- One attempt: the answers to its requests, how its refreshes ended, and its own end. -/
structure Attempt (β : Type*) where
  sends : List (SendOutcome β) := []
  refreshes : List Bool := []
  outcome : Except PyException β

/-- The client as one call finds it, with the two durations as Python prints them; `pause` is
what `calculate_delay`, `on_retry` and `sleep` raise after an attempt, as the retry configuration
and the error have it. -/
structure HttpClient (τ : Type*) where
  breaker : CircuitBreakerConfig τ
  breakerTimeout : String
  maxRetries : ℕ
  pause : ℕ → PyException → Option String
  timeout : String
  hasRefreshTokenFn : Bool
  refreshing : Bool

/-- The error of a rejected attempt. -/
def HttpClient.circuitBreakerOpenError {τ : Type*} (client : HttpClient τ) : PyException :=
  .spooled ⟨.circuitBreakerOpenError, .str ("Circuit breaker is open. Will retry after " ++
    client.breakerTimeout ++ "s"), 0, .str "circuit_breaker_open"⟩

/-- The rest of the world, at each step of the call. -/
structure Env (τ β : Type*) where
  now : ℕ → τ
  others : ℕ → CircuitBreaker τ → CircuitBreaker τ
  authToken : ℕ → Option String
  send : ℕ → SendOutcome β
  refresh : ℕ → Bool

/-- A call under way: its step, the breaker it last saw, the requests of the attempt, and the
attempts before it. -/
structure State (τ β : Type*) where
  tick : ℕ := 0
  breaker : CircuitBreaker τ
  sends : List (SendOutcome β) := []
  refreshes : List Bool := []
  attempts : List (Attempt β) := []

section

variable {τ β : Type*} (env : Env τ β) (client : HttpClient τ)

/-- `_try_refresh_token`: once the lock is taken, a token that has changed is good enough. -/
def tryRefreshToken (tokenBefore : Option String) (s : State τ β) : Bool × State τ β :=
  if !client.hasRefreshTokenFn then (false, s)
  else
    let ok := if env.authToken s.tick ≠ tokenBefore then true else env.refresh s.tick
    (ok, { s with tick := s.tick + 1, refreshes := s.refreshes ++ [ok] })

/-- `_execute_request`, where `allowRefresh` is the number of replays that it may still make:
one, and none in the replay itself. -/
def executeRequest (allowRefresh : ℕ) (s : State τ β) : Except PyException β × State τ β :=
  let authBefore := env.authToken s.tick
  let out := env.send s.tick
  let s' := { s with tick := s.tick + 1, sends := s.sends ++ [out] }
  match allowRefresh, out with
  | n + 1, .response r =>
    if r.statusCode = 401 ∧ client.hasRefreshTokenFn = true ∧ client.refreshing = false then
      match tryRefreshToken env client authBefore s' with
      | (true, s'') => executeRequest n s''
      | (false, s'') => (out.result client.timeout, s'')
    else (out.result client.timeout, s')
  | _, _ => (out.result client.timeout, s')

/-- The breaker as the call finds it at its next access. -/
def State.breakerNow (s : State τ β) : CircuitBreaker τ := env.others s.tick s.breaker

/-- The attempt is over. -/
def State.finish (s : State τ β) (out : Except PyException β) (b : CircuitBreaker τ) :
    State τ β :=
  { s with
    tick := s.tick + 1
    breaker := b
    sends := []
    refreshes := []
    attempts := s.attempts ++ [⟨s.sends, s.refreshes, out⟩] }

/-! ### One attempt -/

/-- What an attempt can be: rejected by the breaker, one request, or a request answered 401
whose replay came after a refresh that gave a token. -/
inductive Attempt.Shape : Attempt β → Prop
  | rejected : Shape ⟨[], [], .error client.circuitBreakerOpenError⟩
  | single (out : SendOutcome β) (refreshes : List Bool) :
      Shape ⟨[out], refreshes, out.result client.timeout⟩
  | replayed (r : Response β) (out : SendOutcome β) (h401 : r.statusCode = 401) :
      Shape ⟨[.response r, out], [true], out.result client.timeout⟩

/-- The state of a call whose attempt has made these requests. -/
structure State.Sent (s s' : State τ β) (sends : List (SendOutcome β)) (refreshes : List Bool) :
    Prop where
  sends : s'.sends = s.sends ++ sends
  refreshes : s'.refreshes = s.refreshes ++ refreshes
  attempts : s'.attempts = s.attempts

/-- A refresh ends one way or the other, and the attempt notes it. -/
theorem tryRefreshToken_eq (h : client.hasRefreshTokenFn = true) (tokenBefore : Option String)
    (s : State τ β) : ∃ ok, tryRefreshToken env client tokenBefore s =
      (ok, { s with tick := s.tick + 1, refreshes := s.refreshes ++ [ok] }) := by
  unfold tryRefreshToken
  rw [h, Bool.not_true, if_neg Bool.false_ne_true]
  exact ⟨_, rfl⟩

/-- A replay makes one request. -/
theorem executeRequest_zero (s : State τ β) : ∃ out : SendOutcome β,
    s.Sent (executeRequest env client 0 s).2 [out] [] ∧
      (executeRequest env client 0 s).1 = out.result client.timeout :=
  ⟨env.send s.tick, ⟨rfl, (List.append_nil _).symm, rfl⟩, rfl⟩

/-- `_execute_request` makes one request, or two when the first is answered 401 and the token
refreshed. -/
theorem executeRequest_one (s : State τ β) :
    (∃ (out : SendOutcome β) (refreshes : List Bool),
      s.Sent (executeRequest env client 1 s).2 [out] refreshes ∧
        (executeRequest env client 1 s).1 = out.result client.timeout) ∨
    (∃ (r : Response β) (out : SendOutcome β), r.statusCode = 401 ∧
      s.Sent (executeRequest env client 1 s).2 [.response r, out] [true] ∧
        (executeRequest env client 1 s).1 = out.result client.timeout) := by
  unfold executeRequest
  dsimp only
  have hsent : s.Sent { s with tick := s.tick + 1, sends := s.sends ++ [env.send s.tick] }
      [env.send s.tick] [] := ⟨rfl, (List.append_nil _).symm, rfl⟩
  split
  · rename_i n r hn hr
    obtain rfl := Nat.succ.inj hn
    split
    · rename_i hcond
      obtain ⟨ok, hok⟩ := tryRefreshToken_eq env client hcond.2.1 (env.authToken s.tick)
        { s with tick := s.tick + 1, sends := s.sends ++ [env.send s.tick] }
      rw [hok]
      -- only a refresh that gave a token is followed by the replay
      cases ok with
      | false =>
        exact .inl ⟨env.send s.tick, [false], ⟨rfl, rfl, rfl⟩, rfl⟩
      | true =>
        obtain ⟨out, hout, hres⟩ := executeRequest_zero env client { s with
          tick := s.tick + 1 + 1, sends := s.sends ++ [env.send s.tick],
          refreshes := s.refreshes ++ [true] }
        refine .inr ⟨r, out, hcond.1, ⟨?_, ?_, hout.attempts⟩, hres⟩
        · rw [hout.sends, hr, List.append_assoc]
          rfl
        · rw [hout.refreshes, List.append_nil]
    · exact .inl ⟨env.send s.tick, [], hsent, rfl⟩
  · exact .inl ⟨env.send s.tick, [], hsent, rfl⟩

/-! ### What the answers of the server say about an error -/

/-- A rate limit that is retried is a 429 that is no plan quota. -/
theorem SendOutcome.rateLimit {out : SendOutcome β} {timeout : String} {e : PyException}
    (h : out.result timeout = .error e) (he : e.isRetryableRateLimit = true) :
    ∃ r, out = .response r ∧ r.statusCode = 429 ∧ r.quota = false := by
  cases out with
  | timeout =>
    obtain rfl := Except.error.inj h
    cases he
  | requestError text =>
    obtain rfl := Except.error.inj h
    cases he
  | raised text =>
    obtain rfl := Except.error.inj h
    cases he
  | response r =>
    refine ⟨r, rfl, ?_⟩
    unfold SendOutcome.result at h
    dsimp only at h
    split at h
    · -- a body that cannot be read is no `SpooledError`
      cases hres : r.result with
      | ok v =>
        rw [hres] at h
        cases h
      | error text =>
        rw [hres] at h
        obtain rfl := Except.error.inj h
        cases he
    · obtain rfl := Except.error.inj h
      exact createErrorFromResponse_rateLimit he

/-- A 4xx answer other than 408 and a rate limit is final. -/
theorem SendOutcome.not_final {r : Response β} {timeout : String} {e : PyException}
    (h : (SendOutcome.response r).result timeout = .error e) (he : e.isFinal = false)
    (h4 : 400 ≤ r.statusCode) (h5 : r.statusCode < 500) :
    r.statusCode = 408 ∨ r.statusCode = 429 ∧ r.quota = false := by
  unfold SendOutcome.result at h
  dsimp only at h
  rw [if_neg (by omega)] at h
  obtain rfl := Except.error.inj h
  exact createErrorFromResponse_not_final he h5

/-- What makes a request after an attempt `a` safe: `a` did reach the server, and was answered
a rate limit if the request must not be replayed; a 4xx that it was answered is 408 or a rate
limit. -/
structure Attempt.LetsRetry (replayable : Bool) (a : Attempt β) : Prop where
  error : ∃ e, a.outcome = .error e ∧ e.isFinal = false
  last : ∃ out, a.sends.getLast? = some out ∧ ∀ r, out = .response r → 400 ≤ r.statusCode →
    r.statusCode < 500 → r.statusCode = 408 ∨ r.statusCode = 429 ∧ r.quota = false
  rejected : replayable = false → ∃ r, a.sends.getLast? = some (.response r) ∧
    r.statusCode = 429 ∧ r.quota = false

theorem Attempt.Shape.letsRetry {a : Attempt β} {replayable : Bool} (h : a.Shape client)
    (hr : Retried replayable a.outcome) : a.LetsRetry replayable := by
  obtain ⟨e, he, hfinal, hrate⟩ := hr
  have hlast : ∃ out, a.sends.getLast? = some out ∧ out.result client.timeout = .error e := by
    cases h with
    | rejected =>
      obtain rfl := Except.error.inj he
      cases hfinal
    | single out => exact ⟨out, rfl, he⟩
    | replayed r out => exact ⟨out, rfl, he⟩
  obtain ⟨out, hout, hres⟩ := hlast
  refine ⟨⟨e, he, hfinal⟩, ⟨out, hout, ?_⟩, fun hno => ?_⟩
  · rintro r rfl h4 h5
    exact SendOutcome.not_final hres hfinal h4 h5
  · obtain ⟨r, rfl, h429⟩ := SendOutcome.rateLimit hres (hrate hno)
    exact ⟨r, hout, h429⟩

/-- An attempt puts at most two requests on the wire, and the second only after a 401 and a
refresh that gave a token. -/
theorem Attempt.Shape.sends {a : Attempt β} (h : a.Shape client) : a.sends.length ≤ 2 ∧
    ∀ o₁ o₂, a.sends = [o₁, o₂] → a.refreshes = [true] ∧
      ∃ r, o₁ = .response r ∧ r.statusCode = 401 := by
  cases h with
  | rejected => exact ⟨Nat.zero_le 2, fun o₁ o₂ heq => by cases heq⟩
  | single out refreshes => exact ⟨Nat.le_succ 1, fun o₁ o₂ heq => by cases heq⟩
  | replayed r out h401 =>
    refine ⟨le_refl 2, fun o₁ o₂ heq => ⟨rfl, r, ?_, h401⟩⟩
    exact (List.cons.inj heq).1.symm

/-! ### The whole call -/

/-- The arguments of `request` that decide about retries. -/
structure Request where
  method : String
  body : Option Json := none
  headers : List (String × String) := []
  skipRetry : Bool := false
  idempotent : Option Bool := none

/-- Whether the request may be replayed: the caller's word, or `_is_idempotent`. -/
def Request.replayable (req : Request) : Bool :=
  match req.idempotent with
  | none => isIdempotent req.method req.body req.headers
  | some idempotent => idempotent

variable [LinearOrder τ] [Sub τ]

/-- `CircuitBreaker.execute` around `_execute_request`, the attempt of `HttpClient.request`. -/
def execute (s : State τ β) : Except PyException β × State τ β :=
  let (allowed, b) := (s.breakerNow env).isAllowed client.breaker (env.now s.tick)
  if !allowed then
    (.error client.circuitBreakerOpenError, s.finish (.error client.circuitBreakerOpenError) b)
  else
    match executeRequest env client 1 { s with tick := s.tick + 1, breaker := b } with
    | (.ok r, s') => (.ok r, s'.finish (.ok r) ((s'.breakerNow env).recordSuccess client.breaker))
    | (.error e, s') => (.error e, s'.finish (.error e)
        ((s'.breakerNow env).recordFailure client.breaker (env.now s'.tick) e))

/-- `execute_with_cb`, the attempt of `AsyncHttpClient.request`. -/
def executeWithCb (s : State τ β) : Except PyException β × State τ β :=
  match (s.breakerNow env).isAllowed client.breaker (env.now s.tick) with
  | (false, b) =>
    (.error client.circuitBreakerOpenError, s.finish (.error client.circuitBreakerOpenError) b)
  | (true, b) =>
    let (result, s') := executeRequest env client 1 { s with tick := s.tick + 1, breaker := b }
    let b' := match result with
      | .ok _ => (s'.breakerNow env).recordSuccess client.breaker
      | .error e => (s'.breakerNow env).recordFailure client.breaker (env.now s'.tick) e
    (result, s'.finish result b')

def HttpClient.request (req : Request) (s : State τ β) : Except Raised β × State τ β :=
  if req.skipRetry then (asAttempt (execute env client s).1, (execute env client s).2)
  else withRetry (execute env client) client.pause client.maxRetries req.replayable s

/-- `AsyncHttpClient.request`. -/
def HttpClient.requestAsync (req : Request) (s : State τ β) : Except Raised β × State τ β :=
  if req.skipRetry then (asAttempt (executeWithCb env client s).1, (executeWithCb env client s).2)
  else withRetry (executeWithCb env client) client.pause client.maxRetries req.replayable s

/-- No pause raises that the outcomes of the attempts bring the call to. -/
def HttpClient.Pauses (req : Request) (s : State τ β) : Prop :=
  req.skipRetry = false → SpooledSdk.Http.Pauses (execute env client) client.pause client.maxRetries
    req.replayable (List.range' 1 (client.maxRetries + 1)) s

/-! ### The two clients are one -/

theorem executeWithCb_eq : executeWithCb env client = execute env client := by
  funext s
  unfold executeWithCb execute
  rcases (s.breakerNow env).isAllowed client.breaker (env.now s.tick) with ⟨_ | _, b⟩
  · rfl
  · dsimp only
    rcases executeRequest env client 1 { s with tick := s.tick + 1, breaker := b } with ⟨_ | _, s'⟩
    · rfl
    · rfl

theorem HttpClient.requestAsync_eq (req : Request) (s : State τ β) :
    client.requestAsync env req s = client.request env req s := by
  rw [requestAsync, request, executeWithCb_eq]

/-- One attempt leaves one entry in the log. -/
theorem execute_attempt (s : State τ β) (hs : s.sends = []) (hr : s.refreshes = []) :
    ∃ a, (execute env client s).2.attempts = s.attempts ++ [a] ∧
      a.outcome = (execute env client s).1 ∧ a.Shape client := by
  rw [← executeWithCb_eq]
  unfold executeWithCb
  rcases (s.breakerNow env).isAllowed client.breaker (env.now s.tick) with ⟨_ | _, b⟩
  · refine ⟨⟨s.sends, s.refreshes, .error client.circuitBreakerOpenError⟩, rfl, rfl, ?_⟩
    rw [hs, hr]
    exact .rejected
  · dsimp only
    have hreq := executeRequest_one env client { s with tick := s.tick + 1, breaker := b }
    generalize executeRequest env client 1 { s with tick := s.tick + 1, breaker := b } = p at hreq
    obtain ⟨result, s'⟩ := p
    obtain ⟨out, refreshes, hsent, hres⟩ | ⟨r, out, h401, hsent, hres⟩ := hreq
    · have hsends : s'.sends = [out] := by rw [hsent.sends, hs]; rfl
      refine ⟨⟨s'.sends, s'.refreshes, result⟩, ?_, rfl, ?_⟩
      · rw [← hsent.attempts]
        rfl
      · rw [hsends, show result = _ from hres]
        exact .single out _
    · have hsends : s'.sends = [.response r, out] := by rw [hsent.sends, hs]; rfl
      have hrefreshes : s'.refreshes = [true] := by rw [hsent.refreshes, hr]; rfl
      refine ⟨⟨s'.sends, s'.refreshes, result⟩, ?_, rfl, ?_⟩
      · rw [← hsent.attempts]
        rfl
      · rw [hsends, hrefreshes, show result = _ from hres]
        exact .replayed r out h401

/-- Between two attempts nothing is on the wire. -/
theorem execute_logs : Logs (execute env client) (State.attempts (τ := τ) (β := β))
    Attempt.outcome (fun s => s.sends = [] ∧ s.refreshes = []) (Attempt.Shape client) where
  entry s hs := execute_attempt env client s hs.1 hs.2
  keeps s _ := by
    rw [← executeWithCb_eq]
    unfold executeWithCb
    split <;> exact ⟨rfl, rfl⟩

end

/-- One call of `request`, of either client, from the state of a call that has not begun: it
makes at least one attempt and at most `max_retries + 1`, one alone with `skip_retry`; an attempt
that another follows ended in a retryable error, and in a rate limit that is no plan quota if the
request must not be replayed; an attempt ends as the answer to its last request, which it replays
once at most, after a 401 and a refresh; and the call ends as its last attempt exactly when no
pause raises. -/
theorem request_safe {τ β : Type*} [LinearOrder τ] [Sub τ] (env : Env τ β)
    (client : HttpClient τ) (req : Request) (b : CircuitBreaker τ) :
    client.requestAsync env req { breaker := b } = client.request env req { breaker := b } ∧
    ∃ as a, (client.request env req { breaker := b }).2.attempts = as ++ [a] ∧
      as.length ≤ client.maxRetries ∧ (req.skipRetry = true → as = []) ∧
      (∀ a' ∈ as, a'.LetsRetry req.replayable) ∧
      (∀ a' ∈ as ++ [a], a'.Shape client ∧ a'.sends.length ≤ 2 ∧ ∀ o₁ o₂, a'.sends = [o₁, o₂] →
        a'.refreshes = [true] ∧ ∃ r, o₁ = .response r ∧ r.statusCode = 401) ∧
      ((client.request env req { breaker := b }).1 = asAttempt a.outcome ↔
        client.Pauses env req { breaker := b }) := by
  refine ⟨client.requestAsync_eq env req _, ?_⟩
  unfold HttpClient.request HttpClient.Pauses
  split
  · rename_i hskip
    obtain ⟨a, hlog, hout, hshape⟩ := execute_attempt env client { breaker := b } rfl rfl
    refine ⟨[], a, hlog, Nat.zero_le _, fun _ => rfl, nofun, fun a' ha' => ?_,
      iff_of_true (by rw [hout]) fun hno => ?_⟩
    · rw [List.mem_singleton.mp ha']
      exact ⟨hshape, hshape.sends⟩
    · rw [hskip] at hno
      cases hno
  · rename_i hskip
    obtain ⟨as, a, hlog, hend, hlen, hall, hlast⟩ := withRetry_log (execute_logs env client)
      client.pause client.maxRetries req.replayable { breaker := b } ⟨rfl, rfl⟩
    have hno : req.skipRetry = false := Bool.eq_false_iff.mpr hskip
    refine ⟨as, a, hlog, hlen, fun h => absurd h hskip,
      fun a' ha' => (hall a' ha').1.letsRetry client (hall a' ha').2, fun a' ha' => ?_,
      hend.trans ⟨fun h _ => h, fun h => h hno⟩⟩
    obtain ha' | ha' := List.mem_append.mp ha'
    · exact ⟨(hall a' ha').1, (hall a' ha').1.sends⟩
    · rw [List.mem_singleton.mp ha']
      exact ⟨hlast, hlast.sends⟩

/-! ### A call that ends as none of its attempts -/

/-- The server is down. -/
def unavailable : Env ℕ Unit where
  now _ := 0
  others _ := id
  authToken _ := none
  send _ := .response { statusCode := 503, result := .ok () }
  refresh _ := false

/-- A client with a large `factor`, as the configuration allows it. -/
def eager : HttpClient ℕ where
  breaker := {
    failureThreshold := 10
    successThreshold := 2
    timeout := 30
    one_le_failureThreshold := by decide
    one_le_successThreshold := by decide }
  breakerTimeout := "30.0"
  maxRetries := 3
  pause attempt _ := calculateDelay (2 ^ 600) attempt
  timeout := "30.0"
  hasRefreshTokenFn := false
  refreshing := false

/-- The third attempt of a `GET` fails like the others, and the power in `calculate_delay` raises:
the caller gets an `OverflowError`, and the fourth attempt is not made. -/
theorem pause_ends_call :
    let s := eager.request unavailable { method := "GET" } { breaker := {} }
    s.2.attempts.length = 3 ∧ ¬ ∃ as a, s.2.attempts = as ++ [a] ∧ s.1 = asAttempt a.outcome := by
  intro s
  have hpause : s.2.attempts.length = 3 ∧ (s.1 matches .error (.pause _)) = true := by
    decide +kernel
  refine ⟨hpause.1, ?_⟩
  rintro ⟨as, a, -, heq⟩
  have := hpause.2
  rw [heq] at this
  cases hout : a.outcome <;> rw [hout] at this <;> cases this

end SpooledSdk.Http
