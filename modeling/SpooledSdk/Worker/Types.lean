/-
What both workers share: claimed jobs, handler outcomes, acks, server replies
and the events a worker emits (`worker/types.py`, `types/jobs.py`).

The handler's result is any JSON the SDK never looks into, so it is a type
variable `ρ` throughout.  The environment is the HTTP server, the user handler
and the clock; what each may do is an inductive type here:

* `Outcome` — how a handler can end, every Python exception included;
* `Reply` — how a `complete`, `fail` or `heartbeat` call can end, transport
  retries included.
-/
import Mathlib.Data.Int.Notation
import Mathlib.Data.List.Basic

namespace SpooledSdk.Worker

/-- `WorkerState`. -/
inductive WorkerState
  | idle | starting | running | stopping | stopped | error
deriving DecidableEq, Repr

/-- `ClaimedJob`, without the payload and expiry that the workers only pass on. -/
structure ClaimedJob where
  id : String
  queueName : String
  retryCount : ℤ
  maxRetries : ℤ
  timeoutSeconds : ℤ
  leaseId : Option String
deriving DecidableEq, Repr

/-- `FAIL_ERROR_FALLBACK`. -/
def failErrorFallback : String := "Job failed"

/-- `FAIL_ERROR_MAX_LENGTH`. -/
def failErrorMaxLength : ℕ := 2048

/-- `coerce_fail_error`: a failure text the API accepts. -/
def coerceFailError (text : String) : String :=
  if text.isEmpty then failErrorFallback
  else String.ofList (text.toList.take failErrorMaxLength)

/-- Every coerced text fits the API's limit. -/
theorem coerceFailError_length (text : String) :
    (coerceFailError text).length ≤ failErrorMaxLength := by
  rw [coerceFailError]
  split
  · decide
  · rw [String.length_ofList]
    exact List.length_take_le _ _

/-- A string attribute that may be `None`, read as a Python condition: the empty
string counts as absent. -/
def truthy (s : Option String) : Option String := s.filter (· ≠ "")

/-- What a handler can raise: an `Exception` with its `str` (`none` when `__str__`
itself raises), an `asyncio.CancelledError`, or any other `BaseException`, such as
`SystemExit` or `KeyboardInterrupt`. -/
inductive Raised
  | exception (str : Option String)
  | cancelledError
  | baseException
deriving DecidableEq, Repr

/-- How a handler call ends. -/
inductive Outcome (ρ : Type)
  | returned (result : ρ)
  | raised (e : Raised)
deriving DecidableEq, Repr

/-- The ack a worker sends for an execution. -/
inductive Ack (ρ : Type)
  | complete (result : ρ)
  | fail (error : String)
deriving DecidableEq, Repr

/-- What an ack reports about an outcome: a returned value completes the job and an
`Exception` fails it with its text.  Nothing else has an ack. -/
def Outcome.ack {ρ : Type} : Outcome ρ → Option (Ack ρ)
  | .returned result => some (.complete result)
  | .raised (.exception (some text)) => some (.fail text)
  | .raised _ => none

/-- A `CancelledError`, whoever raised it. -/
def Outcome.isCancelled {ρ : Type} : Outcome ρ → Bool
  | .raised .cancelledError => true
  | _ => false

/-- The arguments of one `jobs.complete` or `jobs.fail` call: the `lease_id` key is
present exactly when `leaseId` is. -/
structure AckCall (ρ : Type) where
  jobId : String
  workerId : String
  leaseId : Option String
  ack : Ack ρ
deriving DecidableEq, Repr

/-- The call that acks `job` on behalf of `workerId`.  `_send_fail` coerces the
failure text before it builds the parameters. -/
def ackCall {ρ : Type} (job : ClaimedJob) (workerId : String) : Ack ρ → AckCall ρ
  | .complete result => ⟨job.id, workerId, job.leaseId, .complete result⟩
  | .fail error => ⟨job.id, workerId, job.leaseId, .fail (coerceFailError error)⟩

@[simp] theorem ackCall_leaseId {ρ : Type} (job : ClaimedJob) (workerId : String) (a : Ack ρ) :
    (ackCall job workerId a).leaseId = job.leaseId := by
  cases a <;> rfl

@[simp] theorem ackCall_jobId {ρ : Type} (job : ClaimedJob) (workerId : String) (a : Ack ρ) :
    (ackCall job workerId a).jobId = job.id := by
  cases a <;> rfl

/-- How an ack or a heartbeat ends for the worker, after the transport's retries:
accepted, 409 `LEASE_EXPIRED`, 409 "already completed", a 409 whose code is not a
string (`is_lease_expired` then raises), or any other error. -/
inductive Reply
  | ok | leaseExpired | alreadyCompleted | nonStringCode | error
deriving DecidableEq, Repr

/-- What the worker makes of the reply to an ack. -/
inductive Verdict
  | accepted | expired | rejected
deriving DecidableEq, Repr

/-- The reply to an ack as `_complete_job` and `_send_fail` read it.  Only `complete`
takes "already completed" for success: its retried first attempt may have landed. -/
def verdict {ρ : Type} : Ack ρ → Reply → Verdict
  | _, .ok => .accepted
  | _, .leaseExpired => .expired
  | .complete _, .alreadyCompleted => .accepted
  | .fail _, .alreadyCompleted => .rejected
  | _, .nonStringCode => .rejected
  | _, .error => .rejected

/-- The server's reply `r` says that the ack `k` is done: it accepts it, or tells a `complete`
that the job is already completed. -/
inductive Confirms {ρ : Type} (k : Ack ρ) : Reply → Prop
  | ok : Confirms k .ok
  | already {result : ρ} (hk : k = .complete result) : Confirms k .alreadyCompleted

theorem confirms_iff {ρ : Type} {k : Ack ρ} {r : Reply} :
    Confirms k r ↔ verdict k r = .accepted := by
  constructor
  · intro h
    cases h with
    | ok => cases k <;> rfl
    | already hk => rw [hk]; rfl
  · intro h
    cases r with
    | ok => exact .ok
    | alreadyCompleted =>
      cases k with
      | complete result => exact .already rfl
      | fail error => cases h
    | leaseExpired | nonStringCode | error => cases k <;> cases h

/-- The worker events that carry data about one job, and `error`. -/
inductive JobEvent (ρ : Type)
  | claimed (jobId queueName : String)
  | started (jobId queueName : String)
  | completed (jobId queueName : String) (result : ρ)
  | failed (jobId queueName error : String) (willRetry : Bool)
  | leaseLost (jobId queueName : String) (leaseId : Option String) (operation : String)
  | error
deriving DecidableEq, Repr

/-- `job:completed` or `job:failed`. -/
def JobEvent.isAck {ρ : Type} : JobEvent ρ → Bool
  | .completed .. | .failed .. => true
  | _ => false

/-- `job:lease_lost`. -/
def JobEvent.isLoss {ρ : Type} : JobEvent ρ → Bool
  | .leaseLost .. => true
  | _ => false

/-- The events that end an execution for the application. -/
def JobEvent.isTerminal {ρ : Type} (ev : JobEvent ρ) : Bool := ev.isAck || ev.isLoss

/-- The event of an accepted ack. -/
def ackEvent {ρ : Type} (job : ClaimedJob) : Ack ρ → JobEvent ρ
  | .complete result => .completed job.id job.queueName result
  | .fail error =>
    .failed job.id job.queueName (coerceFailError error) (job.retryCount < job.maxRetries)

@[simp] theorem ackEvent_isAck {ρ : Type} (job : ClaimedJob) (a : Ack ρ) :
    (ackEvent job a).isAck = true := by
  cases a <;> rfl

@[simp] theorem ackEvent_isLoss {ρ : Type} (job : ClaimedJob) (a : Ack ρ) :
    (ackEvent job a).isLoss = false := by
  cases a <;> rfl

/-- The `operation` that `job:lease_lost` names when an ack finds the lease gone. -/
def ackOperation {ρ : Type} : Ack ρ → String
  | .complete _ => "complete"
  | .fail _ => "fail"

/-- The event of a lost lease. -/
def leaseLostEvent {ρ : Type} (job : ClaimedJob) (operation : String) : JobEvent ρ :=
  .leaseLost job.id job.queueName job.leaseId operation

/-- Who acks a job: the thread or task that runs the handler, the job timer, `stop()`,
or the poll that releases a job it will not start. -/
inductive Taker
  | runner | timeout | stopper | poll
deriving DecidableEq, Repr

/-- Where `_complete_job` or `_send_fail` stands once it holds the right to ack. -/
inductive SendPc
  | check
  | send
  | wait
  | lose
  | report
deriving DecidableEq, Repr

/-- `_UNSTARTED_CLAIM_ERROR`. -/
def unstartedClaimError : String := "Worker stopped before the job started"

/-- The reason `stop()` fails an execution with. -/
def shutdownTimeoutError : String := "Worker shutdown timeout"

/-- The reason the job timeout fails an execution with. -/
def jobTimeoutError : String := "Job timeout exceeded"

end SpooledSdk.Worker
