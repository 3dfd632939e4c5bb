/-
Token refresh of `HttpClient` / `AsyncHttpClient` and of the clients above them.

Any number of threads send requests and call `get_jwt_token()`.  Each thread is a stack of
calls: a request that is answered 401 calls `_try_refresh_token`, which calls
`_refresh_token_fn`, which sends a request of its own.  Each read or write of a token field,
each operation on the lock, each send and each reply is one step.  A task gives way only where
it waits: for a reply or for the lock.
-/
import SpooledSdk.System
import Mathlib.Data.List.Count
import Mathlib.Logic.Function.Basic
import Mathlib.Tactic.Common

namespace SpooledSdk.Http.Refresh

/-- Where `_execute_request` is: `before` is `auth_before`, and `sent` the token in the
headers. -/
inductive RequestStage (τ : Type*)
  | start
  | before (before : τ)
  | headers (before sent : τ)
  | wire (before sent : τ)

/-- Where `_try_refresh_token` is; `token` is what the endpoint answered, to be written to
`_auth_token` and then to the configuration. -/
inductive RefreshStage (τ : Type*)
  | want
  | held
  | got (token : τ)
  | config (token : τ)
  | clearing (ok : Bool)
  | leaving (ok : Bool)

/-- A call on the stack of a thread.  `endpoint` marks the request for `/auth/refresh`, and
`replaying` the token whose rejection this request replays (`_allow_refresh=False`).  `asking`
and `jwtAsking` wait for `_try_refresh_token`, and `calling` is `_try_refresh_token` waiting for
`_refresh_token_fn`. -/
inductive Call (τ : Type*)
  | request (stage : RequestStage τ) (endpoint : Bool) (replaying : Option τ)
  | asking (endpoint : Bool) (rejected : τ)
  | refresh (before : τ) (stage : RefreshStage τ)
  | calling (before : τ)
  | jwt (due : Option τ)
  | jwtAsking

/-- How a request ends: `retried` is a failure after which the retry loop sends it again. -/
inductive Reply (τ : Type*)
  | ok (token : τ)
  | unauthorized
  | failed
  | retried

inductive Kind (τ : Type*)
  | request
  | getJwtToken
  | run
  | check (due : Bool)
  | blocked
  | reply (r : Reply τ)

structure Action (τ : Type*) where
  thread : ℕ
  kind : Kind τ

/-- `active` is `_refresh_state.active` of each thread, or whether `_REFRESHING` of a task holds
the client.  `running` is the task that has not given way.  The rest is what an observer notes:
the tokens that the endpoint issued, the value that each call of it was to replace, the values
that were rejected with 401 or found due, and for each thread the requests answered 401, their
replays, and the rejected and the replayed token of each replay. -/
structure Auth (τ : Type*) where
  authToken : τ
  accessToken : τ
  lock : Option ℕ := none
  active : ℕ → Bool := fun _ => false
  calls : ℕ → List (Call τ) := fun _ => []
  running : Option ℕ := none
  issued : List τ := []
  refreshes : List τ := []
  rejected : List τ := []
  due : List τ := []
  rejections : ℕ → ℕ := fun _ => 0
  replays : ℕ → ℕ := fun _ => 0
  replayed : List (τ × τ) := []

/-- What runs on top of a stack waits for a reply or for the lock. -/
def waits {τ : Type*} : List (Call τ) → Bool
  | .request (.wire _ _) _ _ :: _ | .refresh _ .want :: _ | [] => true
  | _ => false

namespace Auth

variable {τ : Type*} [DecidableEq τ]

def put (s : Auth τ) (t : ℕ) (calls : List (Call τ)) : Auth τ :=
  { s with calls := Function.update s.calls t calls }

/-- A request raises: `_try_refresh_token` catches what its own request raises. -/
def raised : List (Call τ) → List (Call τ)
  | .calling before :: rest => .refresh before (.clearing false) :: rest
  | rest => rest

/-- The request leaves: what the observer notes of it. -/
def noteSend (s : Auth τ) (t : ℕ) (sent : τ) (endpoint : Bool) (replaying : Option τ) : Auth τ :=
  let s' := if endpoint then { s with refreshes := s.refreshes ++ [s.authToken] } else s
  match replaying with
  | none => s'
  | some rejected => { s' with
      replays := Function.update s.replays t (s.replays t + 1)
      replayed := s.replayed ++ [(rejected, sent)] }

/-- The request is answered 401: what the observer notes of it. -/
def noteRejection (s : Auth τ) (t : ℕ) (sent : τ) (endpoint : Bool) (replaying : Option τ) :
    Auth τ :=
  let first := !endpoint && replaying.isNone
  { s with
    rejected := if endpoint then s.rejected else s.rejected ++ [sent]
    rejections := Function.update s.rejections t (s.rejections t + first.toNat) }

/-- One step of a thread that is not waiting for anybody's answer. -/
def run (s : Auth τ) (t : ℕ) : Option (Auth τ) :=
  match s.calls t with
  | .request .start endpoint replaying :: rest =>
    some (s.put t (.request (.before s.authToken) endpoint replaying :: rest))
  | .request (.before before) endpoint replaying :: rest =>
    some (s.put t (.request (.headers before s.authToken) endpoint replaying :: rest))
  | .request (.headers before sent) endpoint replaying :: rest =>
    some ((s.noteSend t sent endpoint replaying).put t
      (.request (.wire before sent) endpoint replaying :: rest))
  | .refresh before .want :: rest =>
    if s.lock = none then some ({ s with lock := some t }.put t (.refresh before .held :: rest))
    else none
  | .refresh before .held :: rest =>
    if s.authToken = before then
      some ({ s with active := Function.update s.active t true }.put t
        (.request .start true none :: .calling before :: rest))
    else some (s.put t (.refresh before (.leaving true) :: rest))
  | .refresh before (.got token) :: rest =>
    some ({ s with authToken := token }.put t (.refresh before (.config token) :: rest))
  | .refresh before (.config token) :: rest =>
    some ({ s with accessToken := token }.put t (.refresh before (.clearing true) :: rest))
  | .refresh before (.clearing ok) :: rest =>
    some ({ s with active := Function.update s.active t false }.put t
      (.refresh before (.leaving ok) :: rest))
  | .refresh _ (.leaving ok) :: .asking endpoint rejected :: rest =>
    some ({ s with lock := none }.put t
      (if ok then .request .start endpoint (some rejected) :: rest else raised rest))
  | .refresh _ (.leaving _) :: .jwtAsking :: rest =>
    some ({ s with lock := none }.put t rest)
  | .jwt (some _) :: rest => some (s.put t (.refresh s.authToken .want :: .jwtAsking :: rest))
  | _ => none

/-- The answer to a request.  A 401 is not replayed where the thread is refreshing already. -/
def reply (s : Auth τ) (t : ℕ) (r : Reply τ) : Option (Auth τ) :=
  match s.calls t, r with
  | .request (.wire _ _) true _ :: .calling before :: rest, .ok token =>
    some ({ s with issued := s.issued ++ [token] }.put t (.refresh before (.got token) :: rest))
  | .request (.wire _ _) false _ :: rest, .ok _ => some (s.put t rest)
  | .request (.wire before sent) endpoint replaying :: rest, .unauthorized =>
    let s' := s.noteRejection t sent endpoint replaying
    if replaying.isNone && !s.active t then
      some (s'.put t (.refresh before .want :: .asking endpoint sent :: rest))
    else some (s'.put t (raised rest))
  | .request (.wire _ _) _ _ :: rest, .failed => some (s.put t (raised rest))
  | .request (.wire _ _) endpoint _ :: rest, .retried =>
    some (s.put t (.request .start endpoint none :: rest))
  | _, _ => none

def act (s : Auth τ) (t : ℕ) : Kind τ → Option (Auth τ)
  | .request =>
    if (s.calls t).isEmpty then some (s.put t [.request .start false none]) else none
  | .getJwtToken => if (s.calls t).isEmpty then some (s.put t [.jwt none]) else none
  | .run => s.run t
  | .check due =>
    match s.calls t with
    | .jwt none :: rest =>
      if due then
        some ({ s with due := s.due ++ [s.accessToken] }.put t (.jwt (some s.accessToken) :: rest))
      else some (s.put t rest)
    | _ => none
  -- the circuit breaker does not let the request out
  | .blocked =>
    match s.calls t with
    | .request .start _ none :: rest => some (s.put t (raised rest))
    | _ => none
  | .reply r => s.reply t r

/-- The task of the step goes on until it waits. -/
def settle (s : Auth τ) (t : ℕ) : Auth τ :=
  { s with running := if waits (s.calls t) then none else some t }

/-- `tasks` tells `AsyncHttpClient` from `HttpClient`. -/
def step (tasks : Bool) (s : Auth τ) (a : Action τ) : Option (Auth τ) :=
  if tasks = true ∧ ∃ t ∈ s.running, t ≠ a.thread then none
  else (s.act a.thread a.kind).map (·.settle a.thread)

end Auth

variable {τ : Type*} [DecidableEq τ]

/-- A client with a static access token. -/
def system (tasks : Bool) (token₀ : τ) : System (Auth τ) (Action τ) where
  init := { authToken := token₀, accessToken := token₀ }
  step := Auth.step tasks

end SpooledSdk.Http.Refresh
