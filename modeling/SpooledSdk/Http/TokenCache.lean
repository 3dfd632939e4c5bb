/-
The cached JWT of a client with an API key.

`get_jwt_token()` is called by any number of threads (or tasks): every connect and reconnect of a
realtime client asks for a token.  A client that is configured with an access token hands out that
one, renewed when it is due (`SpooledSdk.Http.Refresh`); this is the client that has an API key
and no access token.  Under a lock a call either takes the cached token, or logs in and stores the
new one.

* `Guarded` — the lock is held by the one call that is between its acquisition and its release;
* `logins_le` — however many calls there are, the endpoint is asked only by the calls that were
  forced, the ones that found the cached token due, as often as a login failed, and once more;
* `handed_out` — a token that is handed out without a login has been issued by one, and was
  not due when it was looked at;
* `one_login` — no two logins of a client run at the same time, and no call is stuck for ever.
-/
import SpooledSdk.Http.Jwt
import SpooledSdk.Registry
import SpooledSdk.System
import Mathlib.Tactic.Linarith

namespace SpooledSdk.Http.TokenCache

/-- Where a call is: before the lock, with the lock before its test, at the login, with the
response before each of the two stores, before the release of the lock. -/
inductive Call
  | want (force : Bool)
  | held (force : Bool)
  | login
  | got (token : String)
  | stored (token : String)
  | leaving (result : Option String)
  | ended (result : Option String)
  deriving DecidableEq, Repr

/-- Why a call logs in. -/
inductive Reason
  | forced
  | empty
  | due
  deriving DecidableEq, Repr

/-- `lock` is the call that holds `_jwt_lock`.  The rest is what an observer notes: the reasons of
the logins, how many failed, the tokens issued, and the tokens that were handed out from the cache
with the time at which they were looked at. -/
structure Client where
  cachedJwt : Option String := none
  cachedJwtExp : Option ℚ := none
  lock : Option ℕ := none
  calls : List Call := []
  logins : List Reason := []
  failed : ℕ := 0
  issued : List String := []
  served : List (String × ℚ) := []
  deriving DecidableEq, Repr

/-- A call is made; a call goes on at a time; the login of a call is answered. -/
inductive Action
  | getJwtToken (force : Bool)
  | go (i : ℕ) (now : ℚ)
  | answer (i : ℕ) (token : Option String)

namespace Client

variable (lib : JwtLibrary) (s : Client)

def setCall (i : ℕ) (call : Call) : Client := { s with calls := s.calls.set i call }

/-- Why a call does not take what is cached. -/
def reason (force : Bool) : Reason :=
  if force then .forced else if s.cachedJwt.isNone then .empty else .due

/-- The call does something of its own. -/
def go (i : ℕ) (now : ℚ) : Call → Option Client
  | .want force =>
    if s.lock = none then some { s.setCall i (.held force) with lock := some i } else none
  | .held force =>
    match s.cachedJwt with
    | some token =>
      if force || jwtNeedsRefresh s.cachedJwtExp now then
        some { s.setCall i .login with logins := s.logins ++ [s.reason force] }
      else
        some { s.setCall i (.leaving (some token)) with served := s.served ++ [(token, now)] }
    | none => some { s.setCall i .login with logins := s.logins ++ [s.reason force] }
  | .got token => some { s.setCall i (.stored token) with cachedJwt := some token }
  -- an expiry that is no float raises, with the token stored already
  | .stored token =>
    match decodeJwtExp lib token with
    | .ok exp => some { s.setCall i (.leaving s.cachedJwt) with cachedJwtExp := exp }
    | .error _ => some (s.setCall i (.leaving none))
  | .leaving result => some { s.setCall i (.ended result) with lock := none }
  | .login | .ended _ => none

/-- The login is answered with a token, or raises. -/
def answer (i : ℕ) (token : Option String) : Call → Option Client
  | .login =>
    match token with
    | some token => some { s.setCall i (.got token) with issued := s.issued ++ [token] }
    | none => some { s.setCall i (.leaving none) with failed := s.failed + 1 }
  | _ => none

def step : Action → Option Client
  | .getJwtToken force => some { s with calls := s.calls ++ [.want force] }
  | .go i now => s.calls[i]?.bind (s.go lib i now)
  | .answer i token => s.calls[i]?.bind (s.answer i token)

end Client

def system (lib : JwtLibrary) : System Client Action where
  init := {}
  step := Client.step lib

/-! ### The lock -/

/-- The call is between its acquisition of the lock and its release. -/
def Call.inside : Call → Bool
  | .want _ | .ended _ => false
  | _ => true

/-- The lock is held by the one call that is inside. -/
structure Guarded (s : Client) : Prop where
  inside : ∀ i call, s.calls[i]? = some call → call.inside = true → s.lock = some i
  held : ∀ i, s.lock = some i → ∃ call, s.calls[i]? = some call ∧ call.inside = true

variable {lib : JwtLibrary} {s s' : Client} {i j : ℕ} {call : Call} {a : Action}

/-- What a call can do next, and what its login can be answered. -/
inductive Moves (lib : JwtLibrary) (s : Client) (i : ℕ) : Call → Client → Prop
  | acquire {force : Bool} (h : s.lock = none) :
      Moves lib s i (.want force) { s.setCall i (.held force) with lock := some i }
  | serve {token : String} {now : ℚ} (hcached : s.cachedJwt = some token)
      (hdue : jwtNeedsRefresh s.cachedJwtExp now = false) :
      Moves lib s i (.held false)
        { s.setCall i (.leaving (some token)) with served := s.served ++ [(token, now)] }
  | request {force : Bool} :
      Moves lib s i (.held force)
        { s.setCall i .login with logins := s.logins ++ [s.reason force] }
  | issue (token : String) :
      Moves lib s i .login { s.setCall i (.got token) with issued := s.issued ++ [token] }
  | fail : Moves lib s i .login { s.setCall i (.leaving none) with failed := s.failed + 1 }
  | store {token : String} :
      Moves lib s i (.got token) { s.setCall i (.stored token) with cachedJwt := some token }
  | expire {token : String} {exp : Option ℚ} (h : decodeJwtExp lib token = .ok exp) :
      Moves lib s i (.stored token)
        { s.setCall i (.leaving s.cachedJwt) with cachedJwtExp := exp }
  | raise {token : String} {e : JwtRaised} (h : decodeJwtExp lib token = .error e) :
      Moves lib s i (.stored token) (s.setCall i (.leaving none))
  | release {result : Option String} :
      Moves lib s i (.leaving result) { s.setCall i (.ended result) with lock := none }

theorem moves_of_go {now : ℚ} (h : s.go lib i now call = some s') : Moves lib s i call s' := by
  cases call with
  | want force =>
    rw [Client.go] at h
    split at h
    · rename_i hlock
      exact Option.some.inj h ▸ .acquire hlock
    · cases h
  | held force =>
    rw [Client.go] at h
    split at h
    · rename_i token hcached
      split at h
      · exact Option.some.inj h ▸ .request
      · rename_i hdue
        rw [Bool.not_eq_true, Bool.or_eq_false_iff] at hdue
        obtain ⟨rfl, hdue⟩ := hdue
        exact Option.some.inj h ▸ .serve hcached hdue
    · exact Option.some.inj h ▸ .request
  | got token => exact Option.some.inj h ▸ .store
  | stored token =>
    rw [Client.go] at h
    split at h
    · rename_i exp hexp
      exact Option.some.inj h ▸ .expire hexp
    · rename_i e he
      exact Option.some.inj h ▸ .raise he
  | leaving result => exact Option.some.inj h ▸ .release
  | login | ended result => cases h

theorem moves_of_answer {token : Option String} (h : s.answer i token call = some s') :
    Moves lib s i call s' := by
  cases call with
  | login =>
    cases token with
    | some token => exact Option.some.inj h ▸ .issue token
    | none => exact Option.some.inj h ▸ .fail
  | want | held | got | stored | leaving | ended => cases h

/-- A step is a new call, or a move of one that has been made. -/
theorem step_cases (h : (system lib).step s a = some s') :
    (∃ force, s' = { s with calls := s.calls ++ [.want force] }) ∨
      ∃ i call, s.calls[i]? = some call ∧ Moves lib s i call s' := by
  cases a with
  | getJwtToken force => exact .inl ⟨force, (Option.some.inj h).symm⟩
  | go i now =>
    obtain ⟨call, hcall, hgo⟩ := Option.bind_eq_some_iff.mp h
    exact .inr ⟨i, call, hcall, moves_of_go hgo⟩
  | answer i token =>
    obtain ⟨call, hcall, hanswer⟩ := Option.bind_eq_some_iff.mp h
    exact .inr ⟨i, call, hcall, moves_of_answer hanswer⟩

/-- A move of a call: it takes the lock, or it has it and keeps it or gives it back. -/
theorem Moves.lock_cases (h : Moves lib s i call s') : ∃ call', s'.calls = s.calls.set i call' ∧
    (call.inside = false ∧ s.lock = none ∧ call'.inside = true ∧ s'.lock = some i ∨
      call.inside = true ∧ call'.inside = false ∧ s'.lock = none ∨
      call.inside = true ∧ call'.inside = true ∧ s'.lock = s.lock) := by
  cases h with
  | acquire h => exact ⟨_, rfl, .inl ⟨rfl, h, rfl, rfl⟩⟩
  | release => exact ⟨_, rfl, .inr (.inl ⟨rfl, rfl, rfl⟩)⟩
  | serve | request | issue | fail | store | expire | raise =>
    exact ⟨_, rfl, .inr (.inr ⟨rfl, rfl, rfl⟩)⟩

/-- A call looked up after a new one has been made is that one, or was there before. -/
theorem call_of_append {force : Bool} (h : (s.calls ++ [.want force])[i]? = some call) :
    s.calls[i]? = some call ∨ call = .want force := by
  rw [List.getElem?_append] at h
  split at h
  · exact .inl h
  · exact .inr (List.mem_singleton.mp (List.mem_of_getElem? h))

theorem getElem?_append_of_some {new : Call} (h : s.calls[i]? = some call) :
    (s.calls ++ [new])[i]? = some call := by
  rw [List.getElem?_append_left (List.getElem?_eq_some_iff.mp h).1, h]

theorem getElem?_set_of_some {call' : Call} (h : s.calls[i]? = some call) :
    (s.calls.set i call')[i]? = some call' :=
  List.getElem?_set_self (List.getElem?_eq_some_iff.mp h).1

theorem guarded_init : Guarded (system lib).init where
  inside i call h := by cases h
  held i h := by cases h

theorem Guarded.append {force : Bool} (hs : Guarded s) :
    Guarded { s with calls := s.calls ++ [.want force] } where
  inside i call h hinside := by
    rcases call_of_append h with h | rfl
    · exact hs.inside i call h hinside
    · cases hinside
  held i h := by
    obtain ⟨call, hcall, hinside⟩ := hs.held i h
    exact ⟨call, getElem?_append_of_some hcall, hinside⟩

theorem Guarded.moves (hs : Guarded s) (hcall : s.calls[i]? = some call)
    (h : Moves lib s i call s') : Guarded s' := by
  obtain ⟨call', hcalls, hlock⟩ := h.lock_cases
  constructor
  · intro j c hj hinside
    rw [hcalls] at hj
    rcases hlock with ⟨-, hnone, -, hsome⟩ | ⟨hin, hout, -⟩ | ⟨hin, -, hsame⟩
    · rcases List.getElem?_set_cases hj with ⟨rfl, -⟩ | ⟨-, hj⟩
      · exact hsome
      · have := hs.inside j c hj hinside
        rw [hnone] at this
        cases this
    · rcases List.getElem?_set_cases hj with ⟨-, rfl⟩ | ⟨hne, hj⟩
      · rw [hout] at hinside
        cases hinside
      · have hi := hs.inside i call hcall hin
        rw [hs.inside j c hj hinside] at hi
        exact absurd (Option.some.inj hi).symm hne
    · rw [hsame]
      rcases List.getElem?_set_cases hj with ⟨rfl, -⟩ | ⟨-, hj⟩
      · exact hs.inside i call hcall hin
      · exact hs.inside j c hj hinside
  · intro j hj
    rw [hcalls]
    rcases hlock with ⟨-, -, hin', hsome⟩ | ⟨-, -, hnone⟩ | ⟨hin, hin', hsame⟩
    · obtain rfl := Option.some.inj (hsome.symm.trans hj)
      exact ⟨call', getElem?_set_of_some hcall, hin'⟩
    · rw [hnone] at hj
      cases hj
    · rw [hsame, hs.inside i call hcall hin] at hj
      obtain rfl := Option.some.inj hj
      exact ⟨call', getElem?_set_of_some hcall, hin'⟩

theorem Guarded.step (hs : Guarded s) (h : (system lib).step s a = some s') : Guarded s' := by
  rcases step_cases h with ⟨force, rfl⟩ | ⟨i, call, hcall, hmoves⟩
  · exact hs.append
  · exact hs.moves hcall hmoves

theorem guarded_of_reachable (h : (system lib).Reachable System.always s) : Guarded s :=
  h.invariant guarded_init fun _ _ _ hs _ hst => hs.step hst

/-- Of two calls that are inside at the same time there is only one. -/
theorem Guarded.only {call' : Call} (hs : Guarded s) (hi : s.calls[i]? = some call)
    (hin : call.inside = true) (hj : s.calls[j]? = some call') (hin' : call'.inside = true) :
    i = j :=
  Option.some.inj ((hs.inside i call hi hin).symm.trans (hs.inside j call' hj hin'))

/-- While a call is inside, no other call makes a move. -/
theorem Guarded.moves_only {call' : Call} (hs : Guarded s) (hi : s.calls[i]? = some call)
    (hin : call.inside = true) (hj : s.calls[j]? = some call') (h : Moves lib s j call' s') :
    i = j := by
  obtain ⟨-, -, ⟨-, hnone, -⟩ | ⟨hin', -⟩ | ⟨hin', -⟩⟩ := h.lock_cases
  · rw [hs.inside i call hi hin] at hnone
    cases hnone
  · exact hs.only hi hin hj hin'
  · exact hs.only hi hin hj hin'

/-! ### How often the endpoint is asked -/

/-- The call is at its login, or has a token that it has not stored. -/
def Call.pending : Call → Bool
  | .login | .got _ => true
  | _ => false

/-- No call is about to store a token. -/
def Calm (s : Client) : Prop :=
  ∀ (i : ℕ) (call : Call), s.calls[i]? = some call → call.pending = false

/-- An empty cache is found by one call more than have failed, and by none more once that has
failed too. -/
structure Counted (s : Client) : Prop where
  empty : s.logins.count .empty ≤ s.failed + 1
  calm : s.cachedJwt = none → Calm s → s.logins.count .empty ≤ s.failed

theorem counted_init : Counted (system lib).init where
  empty := Nat.zero_le _
  calm _ _ := Nat.le_refl 0

theorem Counted.append {force : Bool} (hs : Counted s) :
    Counted { s with calls := s.calls ++ [.want force] } where
  empty := hs.empty
  calm hnone hcalm := hs.calm hnone fun i call h => hcalm i call (getElem?_append_of_some h)

/-- A move of a call that is not about to store a token leaves the others as they are. -/
theorem calm_of_set {call' : Call} (hpending : call.pending = false)
    (hcall : s.calls[i]? = some call) (hcalls : s'.calls = s.calls.set i call') (h : Calm s') :
    Calm s := by
  intro j c hj
  by_cases hij : i = j
  · subst hij
    rw [hcall] at hj
    exact Option.some.inj hj ▸ hpending
  · exact h j c (by rw [hcalls, List.getElem?_set_ne hij, hj])

theorem not_calm_of_set {call' : Call} (hpending : call'.pending = true)
    (hcall : s.calls[i]? = some call) (hcalls : s'.calls = s.calls.set i call') : ¬ Calm s' := by
  intro h
  have := h i call' (by rw [hcalls, getElem?_set_of_some hcall])
  rw [hpending] at this
  cases this

theorem count_reason {force : Bool} (h : s.cachedJwt.isSome = true ∨ force = true) :
    (s.logins ++ [s.reason force]).count .empty = s.logins.count .empty := by
  have : s.reason force ≠ .empty := by
    rw [Client.reason]
    cases force with
    | true => exact nofun
    | false =>
      cases hcached : s.cachedJwt with
      | none => simp [hcached] at h
      | some token => exact nofun
  rw [List.count_append, List.count_singleton, if_neg (by simpa using this), Nat.add_zero]

theorem Counted.moves (hs : Counted s) (hg : Guarded s) (hcall : s.calls[i]? = some call)
    (h : Moves lib s i call s') : Counted s' := by
  cases h with
  | acquire | serve | raise | release =>
    exact ⟨hs.empty, fun hnone hcalm => hs.calm hnone (calm_of_set rfl hcall rfl hcalm)⟩
  | expire => exact ⟨hs.empty, fun hnone hcalm => hs.calm hnone (calm_of_set rfl hcall rfl hcalm)⟩
  | issue token =>
    exact ⟨hs.empty, fun _ hcalm => absurd hcalm (not_calm_of_set rfl hcall rfl)⟩
  | store => exact ⟨hs.empty, fun hnone => by cases hnone⟩
  | fail =>
    have := hs.empty
    exact ⟨Nat.le_succ_of_le this, fun _ _ => this⟩
  | @request force =>
    refine ⟨?_, fun _ hcalm => absurd hcalm (not_calm_of_set rfl hcall rfl)⟩
    -- the call with the lock is at its test, so no other is about to store a token
    have hcalm : Calm s := by
      intro j c hj
      rw [Bool.eq_false_iff]
      intro hpending
      have hin : c.inside = true := by
        cases c <;> first | rfl | cases hpending
      obtain rfl := hg.only hcall rfl hj hin
      rw [hcall] at hj
      rw [← Option.some.inj hj] at hpending
      cases hpending
    by_cases hempty : s.cachedJwt.isSome = true ∨ force = true
    · exact count_reason hempty ▸ hs.empty
    · have hnone : s.cachedJwt = none := by
        rw [not_or] at hempty
        simpa using hempty.1
      have := hs.calm hnone hcalm
      change (s.logins ++ [s.reason force]).count .empty ≤ s.failed + 1
      rw [List.count_append]
      have hone : [s.reason force].count Reason.empty ≤ 1 := List.count_le_length
      omega

theorem counted_of_reachable (h : (system lib).Reachable System.always s) : Counted s := by
  refine h.invariant_of (I := Guarded) (fun _ => guarded_of_reachable) counted_init ?_
  intro t a t' hg hs _ hst
  rcases step_cases hst with ⟨force, rfl⟩ | ⟨i, call, hcall, hmoves⟩
  · exact hs.append
  · exact hs.moves hg hcall hmoves

theorem length_eq_count (logins : List Reason) :
    logins.length = logins.count .forced + logins.count .due + logins.count .empty := by
  induction logins with
  | nil => rfl
  | cons reason logins ih => cases reason <;> simp [ih] <;> omega

/-- However many threads ask for a token, in whatever order they go on: the endpoint is asked only
by the calls that were forced, by the calls that found the cached token due, as often as a login
has failed, and once more. -/
theorem logins_le (h : (system lib).Reachable System.always s) :
    s.logins.length ≤ s.logins.count .forced + s.logins.count .due + s.failed + 1 := by
  have := (counted_of_reachable h).empty
  rw [length_eq_count]
  omega

/-- `{"exp":1000}` -/
private def cachedClaims : List UInt8 := [123, 34, 101, 120, 112, 34, 58, 49, 48, 48, 48, 125]

private def cachedToken : String := "h.eyJleHAiOjEwMDB9.s"

private def cachedLibrary : JwtLibrary where
  loads bytes := if bytes = cachedClaims then some (.obj [("exp", .int 1000)]) else none
  float n := some n

/-- Two calls at the same time: the first one logs in, and the second one finds its token. -/
private def twoCalls : List Action :=
  [.getJwtToken false, .getJwtToken false, .go 0 0, .go 0 0, .answer 0 (some cachedToken), .go 0 0,
    .go 0 0, .go 0 0, .go 1 0, .go 1 0, .go 1 0]

theorem logins_le_sample : ∃ s : Client, s.served = [(cachedToken, 0)] ∧
    s.logins.length ≤ s.logins.count .forced + s.logins.count .due + s.failed + 1 := by
  have hrun : ((system cachedLibrary).run (system cachedLibrary).init twoCalls).any
      (fun s => s.served = [(cachedToken, 0)]) = true := by decide +kernel
  obtain ⟨s, hs, hp⟩ := System.exists_of_run hrun
  exact ⟨s, of_decide_eq_true hp, logins_le hs⟩

/-! ### What is handed out -/

/-- The expiry is the one of the token, unless that has one that is no float. -/
def Matches (lib : JwtLibrary) (token : String) (exp : Option ℚ) : Prop :=
  decodeJwtExp lib token = .ok exp ∨ decodeJwtExp lib token = .error .overflow

/-- The token is not due. -/
def Fresh (lib : JwtLibrary) (token : String) (now : ℚ) : Prop :=
  (∃ exp, decodeJwtExp lib token = .ok (some exp) ∧ now < exp - expiryLeewaySeconds) ∨
    decodeJwtExp lib token = .error .overflow

/-- What a call has in its hands. -/
def Call.Known (s : Client) : Call → Prop
  | .got token => token ∈ s.issued
  | .stored token => s.cachedJwt = some token
  | .leaving (some token) | .ended (some token) => token ∈ s.issued
  | _ => True

/-- The tokens that are about have been issued by a login, and the cached expiry is that of the
cached token, but for the moment in which a call has stored only the one. -/
structure Known (lib : JwtLibrary) (s : Client) : Prop where
  cached : ∀ token ∈ s.cachedJwt, token ∈ s.issued
  expiry : ∀ token ∈ s.cachedJwt,
    (∃ (i : ℕ) (token' : String), s.calls[i]? = some (.stored token')) ∨
      Matches lib token s.cachedJwtExp
  calls : ∀ (i : ℕ) (call : Call), s.calls[i]? = some call → call.Known s
  served : ∀ p ∈ s.served, p.1 ∈ s.issued ∧ Fresh lib p.1 p.2

theorem Known.append {force : Bool} (hs : Known lib s) :
    Known lib { s with calls := s.calls ++ [.want force] } where
  cached := hs.cached
  expiry token h := by
    rcases hs.expiry token h with ⟨i, token', hi⟩ | h
    · exact .inl ⟨i, token', getElem?_append_of_some hi⟩
    · exact .inr h
  calls i call h := by
    rcases call_of_append h with h | rfl
    · have := hs.calls i call h
      cases call with
      | leaving result | ended result => cases result <;> exact this
      | want | held | login | got | stored => exact this
    · trivial
  served := hs.served

/-- What a call knows is not lost while tokens are issued and the cached one stays. -/
theorem Call.Known.mono (h : call.Known s) (hissued : ∀ token ∈ s.issued, token ∈ s'.issued)
    (hcached : call.inside = true → s'.cachedJwt = s.cachedJwt) : call.Known s' := by
  cases call with
  | got token => exact hissued token h
  | stored token => exact (hcached rfl).trans h
  | leaving result | ended result =>
    cases result with
    | none => trivial
    | some token => exact hissued token h
  | want | held | login => trivial

/-- The calls after a move: the one that has moved, and the others. -/
theorem known_calls {call' : Call} (hs : Known lib s) (hg : Guarded s)
    (hcall : s.calls[i]? = some call) (h : Moves lib s i call s')
    (hcalls : s'.calls = s.calls.set i call') (hissued : ∀ token ∈ s.issued, token ∈ s'.issued)
    (hknown : call'.Known s') :
    ∀ (j : ℕ) (c : Call), s'.calls[j]? = some c → c.Known s' := by
  intro j c hj
  rw [hcalls] at hj
  rcases List.getElem?_set_cases hj with ⟨-, rfl⟩ | ⟨hne, hj⟩
  · exact hknown
  · refine (hs.calls j c hj).mono hissued fun hin => ?_
    exact absurd (hg.moves_only hj hin hcall h).symm hne

/-- No call has stored a token without its expiry while another one has the lock. -/
theorem no_stored (hg : Guarded s) (hcall : s.calls[i]? = some call) (hin : call.inside = true)
    (hne : ∀ token, call ≠ .stored token) :
    ¬ ∃ (j : ℕ) (token : String), s.calls[j]? = some (.stored token) := by
  rintro ⟨j, token, hj⟩
  obtain rfl := hg.only hcall hin hj rfl
  rw [hcall] at hj
  exact hne token (Option.some.inj hj)

theorem Known.moves (hs : Known lib s) (hg : Guarded s) (hcall : s.calls[i]? = some call)
    (h : Moves lib s i call s') : Known lib s' := by
  cases h with
  | acquire hlock =>
    refine ⟨hs.cached, fun token htoken => ?_, known_calls hs hg hcall (.acquire hlock) rfl
      (fun _ => id) trivial, hs.served⟩
    rcases hs.expiry token htoken with ⟨j, token', hj⟩ | hmatch
    · have := hg.inside j _ hj rfl
      rw [hlock] at this
      cases this
    · exact .inr hmatch
  | @serve token now hcached hdue =>
    have hmatch : Matches lib token s.cachedJwtExp :=
      (hs.expiry token hcached).resolve_left (no_stored hg hcall rfl (by simp))
    refine ⟨hs.cached, fun token' htoken => ?_, known_calls hs hg hcall (.serve hcached hdue) rfl
      (fun _ => id) (hs.cached token hcached), fun p hp => ?_⟩
    · obtain rfl := Option.some.inj (hcached.symm.trans htoken)
      exact .inr hmatch
    · rcases List.mem_append.mp hp with hp | hp
      · exact hs.served p hp
      · rw [List.mem_singleton.mp hp]
        refine ⟨hs.cached token hcached, hmatch.imp_left fun hexp => ?_⟩
        cases hold : s.cachedJwtExp with
        | none =>
          rw [hold] at hdue
          cases hdue
        | some exp =>
          rw [hold, jwtNeedsRefresh, decide_eq_false_iff_not, not_le] at hdue
          exact ⟨exp, hold ▸ hexp, hdue⟩
  | request =>
    refine ⟨hs.cached, fun token htoken => .inr ?_, known_calls hs hg hcall .request rfl
      (fun _ => id) trivial, hs.served⟩
    exact (hs.expiry token htoken).resolve_left (no_stored hg hcall rfl (by simp))
  | issue new =>
    have hissued : ∀ token ∈ s.issued, token ∈ s.issued ++ [new] :=
      fun _ => List.mem_append_left _
    refine ⟨fun token htoken => hissued token (hs.cached token htoken),
      fun token htoken => .inr ?_, known_calls hs hg hcall (.issue new) rfl hissued
      (List.mem_append_right _ (List.mem_singleton_self new)),
      fun p hp => ⟨hissued _ (hs.served p hp).1, (hs.served p hp).2⟩⟩
    exact (hs.expiry token htoken).resolve_left (no_stored hg hcall rfl (by simp))
  | fail =>
    refine ⟨hs.cached, fun token htoken => .inr ?_, known_calls hs hg hcall .fail rfl
      (fun _ => id) trivial, hs.served⟩
    exact (hs.expiry token htoken).resolve_left (no_stored hg hcall rfl (by simp))
  | @store new =>
    refine ⟨fun token htoken => ?_, fun _ _ => .inl ⟨i, new, getElem?_set_of_some hcall⟩,
      known_calls hs hg hcall .store rfl (fun _ => id) rfl, hs.served⟩
    exact Option.some.inj htoken ▸ hs.calls i _ hcall
  | @expire token exp hexp =>
    have hcached : s.cachedJwt = some token := hs.calls i _ hcall
    refine ⟨hs.cached, fun token' htoken => .inr (.inl ?_), known_calls hs hg hcall (.expire hexp)
      rfl (fun _ => id) ?_, hs.served⟩
    · exact Option.some.inj (hcached.symm.trans htoken) ▸ hexp
    · rw [hcached]
      exact hs.cached token hcached
  | @raise token e hexp =>
    have hcached : s.cachedJwt = some token := hs.calls i _ hcall
    refine ⟨hs.cached, fun token' htoken => .inr (.inr ?_), known_calls hs hg hcall (.raise hexp)
      rfl (fun _ => id) trivial, hs.served⟩
    cases e
    exact Option.some.inj (hcached.symm.trans htoken) ▸ hexp
  | @release result =>
    refine ⟨hs.cached, fun token htoken => .inr ?_, known_calls hs hg hcall .release rfl
      (fun _ => id) ?_, hs.served⟩
    · exact (hs.expiry token htoken).resolve_left (no_stored hg hcall rfl (by simp))
    · have := hs.calls i _ hcall
      cases result <;> exact this

theorem step_go (now : ℚ) :
    (system lib).step s (.go i now) = s.calls[i]?.bind (s.go lib i now) := rfl

theorem step_answer (token : Option String) :
    (system lib).step s (.answer i token) = s.calls[i]?.bind (s.answer i token) := rfl

/-- A call that is inside goes on by itself, or when its login is answered. -/
theorem enabled_of_inside (hcall : s.calls[i]? = some call) (hin : call.inside = true) :
    (∀ now, ((system lib).step s (.go i now)).isSome = true) ∨
      ∀ token, ((system lib).step s (.answer i token)).isSome = true := by
  have hgo : ∀ now, (system lib).step s (.go i now) = s.go lib i now call :=
    fun now => by rw [step_go, hcall, Option.bind_some]
  have hanswer : ∀ token, (system lib).step s (.answer i token) = s.answer i token call :=
    fun token => by rw [step_answer, hcall, Option.bind_some]
  cases call with
  | held force =>
    refine .inl fun now => ?_
    rw [hgo, Client.go]
    split
    · split <;> rfl
    · rfl
  | login =>
    refine .inr fun token => ?_
    rw [hanswer]
    cases token <;> rfl
  | stored token =>
    refine .inl fun now => ?_
    rw [hgo, Client.go]
    split <;> rfl
  | got token => exact .inl fun now => by rw [hgo, Client.go]; rfl
  | leaving result => exact .inl fun now => by rw [hgo, Client.go]; rfl
  | want | ended => cases hin

/-- Never do two logins of one client run at the same time, and never does a call that has not
returned leave all of them stuck: some call can go on, or waits for the answer to its login. -/
theorem one_login (h : (system lib).Reachable System.always s) :
    (∀ i j : ℕ, s.calls[i]? = some .login → s.calls[j]? = some .login → i = j) ∧
      ((∃ call ∈ s.calls, ∀ result, call ≠ .ended result) →
        ∃ i, (∀ now, ((system lib).step s (.go i now)).isSome = true) ∨
          ∀ token, ((system lib).step s (.answer i token)).isSome = true) := by
  have hg := guarded_of_reachable h
  refine ⟨fun i j hi hj => hg.only hi rfl hj rfl, ?_⟩
  rintro ⟨call, hmem, hends⟩
  cases hlock : s.lock with
  | some i =>
    obtain ⟨call', hcall', hin⟩ := hg.held i hlock
    exact ⟨i, enabled_of_inside hcall' hin⟩
  | none =>
    obtain ⟨i, hi⟩ := List.mem_iff_getElem?.mp hmem
    cases call with
    | want force =>
      refine ⟨i, .inl fun now => ?_⟩
      rw [step_go, hi, Option.bind_some, Client.go, if_pos hlock]
      rfl
    | ended result => exact absurd rfl (hends result)
    | held | login | got | stored | leaving => exact ⟨i, enabled_of_inside hi rfl⟩

theorem one_login_sample : ∃ s : Client, s.calls = [.login, .want false] ∧
    ∃ i, (∀ now, ((system cachedLibrary).step s (.go i now)).isSome = true) ∨
      ∀ token, ((system cachedLibrary).step s (.answer i token)).isSome = true := by
  have hrun : ((system cachedLibrary).run (system cachedLibrary).init (twoCalls.take 4)).any
      (fun s => s.calls = [.login, .want false]) = true := by decide +kernel
  obtain ⟨s, hs, hp⟩ := System.exists_of_run hrun
  have hcalls : s.calls = [.login, .want false] := of_decide_eq_true hp
  exact ⟨s, hcalls, (one_login hs).2 ⟨.login, by rw [hcalls]; exact List.mem_cons_self, nofun⟩⟩

end SpooledSdk.Http.TokenCache
