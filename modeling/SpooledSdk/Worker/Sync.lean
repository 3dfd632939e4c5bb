/-
The synchronous worker as a step relation (`worker/worker.py`).

One atomic step is a locked section, one unlocked read or write of a shared
attribute, one HTTP send, one HTTP reply, one timer firing, or one handler call
or end.  The actors are the thread inside `start()` with its poll loop, the
`stop()` call that found the worker running, and per claimed job the pool thread
that runs the handler, the job timer, the heartbeat chain and `stop()`'s
`_abandon_job`.  Each has a program counter, so that every interleaving is a run:

* `ActiveJob.step` — one step of an actor of one execution, given what it can see
  of the worker (`View`), with its effect on the worker's shared counters;
* `SpooledWorker.mainStep`, `SpooledWorker.stopStep` — `start()` and `stop()`;
* `system` — the whole worker.

Deadlines pass at any time.  Emitting an event runs user callbacks whose
exceptions the source swallows, so an event is only recorded.  The worker
heartbeat changes nothing the other actors read and is left out.  The HTTP layer may
send a claim's request again while the call waits (`resend`); the log has one entry for
each call, and `claimSends` counts the requests.
-/
import SpooledSdk.System
import SpooledSdk.Dict
import SpooledSdk.Registry
import SpooledSdk.Worker.Types

namespace SpooledSdk.Worker.Sync

variable {ρ : Type}

/-! ### One execution -/

/-- Where the thread that runs the handler stands.  Up to `scheduled` the poll thread
owns the job; one that it releases, cannot release or is refused never gets a thread. -/
inductive ThreadPc (ρ : Type)
  | claimed
  | releasing
  | unreleased
  | releaseSent (workerId : String)
  | released
  | registered
  | scheduled
  | refused
  | queued
  | arming
  | calling
  | running
  | settling (a : Ack ρ)
  | sending (a : Ack ρ) (workerId : String) (pc : SendPc)
  | cleanup
  | returned
deriving DecidableEq, Repr

/-- Where a call of `_abandon_job` stands.  `armed` is a job timer that has not fired. -/
inductive AbandonPc
  | idle
  | armed
  | signal
  | settling
  | sending (workerId : String) (pc : SendPc)
  | book
  | over
deriving DecidableEq, Repr

/-- Where the heartbeat chain of an execution stands. -/
inductive BeatPc
  | off
  | armed
  | check
  | send (workerId : String)
  | wait (workerId : String)
  | lose
  | report
  | rearm
deriving DecidableEq, Repr

/-- `ActiveJob`, one for each job a claim returned, with the program counters of its
actors.  `settled` remembers who took the right to ack and for what; the source keeps
the flag alone.  The fields from `tracked` on are history too: no step reads them. -/
structure ActiveJob (ρ : Type) where
  job : ClaimedJob
  abortEvent : Bool := false
  settled : Option (Taker × Ack ρ) := none
  abandoned : Bool := false
  leaseLost : Bool := false
  thread : ThreadPc ρ := .claimed
  timeout : AbandonPc := .idle
  stopper : AbandonPc := .idle
  beat : BeatPc := .off
  /-- this execution is the entry of `_active_jobs` under its job id -/
  tracked : Bool := false
  /-- a newer claim of the same id took its entry -/
  replaced : Bool := false
  /-- `_abandon_job` has done its bookkeeping -/
  booked : Bool := false
  calls : List (AckCall ρ) := []
  events : List (JobEvent ρ) := []
deriving DecidableEq, Repr

/-- What an actor of an execution sees of the worker: whether the execution is the
entry under its job id, and `_worker_id`. -/
structure View where
  entry : Bool
  workerId : Option String

/-- What a step of an execution does to the worker: remove the entry if it is this
execution, and count an abandoned handler in or out. -/
inductive Effect
  | keep
  | leave
  | leaveUp
  | leaveDown
deriving DecidableEq, Repr

namespace ActiveJob

/-- `_emit` of an event about this job. -/
def emit (x : ActiveJob ρ) (ev : JobEvent ρ) : ActiveJob ρ := { x with events := x.events ++ [ev] }

/-- Cancel the pending timers; one that has fired already is past cancelling. -/
def cancelTimers (x : ActiveJob ρ) : ActiveJob ρ :=
  { x with
    beat := if x.beat = .armed then .off else x.beat
    timeout := if x.timeout = .armed then .over else x.timeout }

/-- `_claim_settlement`: the worker id if this execution may ack now. -/
def claimSettlement (v : View) (x : ActiveJob ρ) : Option String :=
  if x.leaseLost || x.settled.isSome || !v.entry then none else truthy v.workerId

/-- The right to ack, taken by `t` for `a`. -/
def settle (x : ActiveJob ρ) (t : Taker) (a : Ack ρ) : ActiveJob ρ :=
  { x with settled := some (t, a) }

/-- The locked section of `_lose_lease`. -/
def loseLease (x : ActiveJob ρ) : ActiveJob ρ := { x.cancelTimers with leaseLost := true }

/-- What `_lose_lease` does after its locked section. -/
def reportLost (x : ActiveJob ρ) (operation : String) : ActiveJob ρ :=
  { x with abortEvent := true }.emit (leaseLostEvent x.job operation)

/-- A step of `_complete_job` or `_send_fail` past the settlement; the new program
counter is `none` when the call returns. -/
def sendStep (x : ActiveJob ρ) (a : Ack ρ) (workerId : String) :
    SendPc → Option Reply → Option (ActiveJob ρ × Option SendPc)
  | .check, none => some (x, if x.leaseLost then none else some .send)
  | .send, none => some ({ x with calls := x.calls ++ [ackCall x.job workerId a] }, some .wait)
  | .wait, some r =>
    match verdict a r with
    | .accepted => some (x.emit (ackEvent x.job a), none)
    | .expired => some (x, some .lose)
    | .rejected => some (x.emit .error, none)
  | .lose, none => if x.leaseLost then some (x, none) else some (x.loseLease, some .report)
  | .report, none => some (x.reportLost (ackOperation a), none)
  | _, _ => none

/-- `_start_job_timeout`. -/
def startJobTimeout (x : ActiveJob ρ) : ActiveJob ρ :=
  if 0 < x.job.timeoutSeconds ∧ x.settled = none then { x with timeout := .armed } else x

/-- `_cleanup_job`, for an execution that ends at `pc`. -/
def cleanupJob (x : ActiveJob ρ) (pc : ThreadPc ρ) : ActiveJob ρ × Effect :=
  ({ x.cancelTimers with abandoned := false, tracked := false, thread := pc },
    if x.abandoned then .leaveDown else .leave)

/-- The locked bookkeeping at the end of `_abandon_job`. -/
def bookAbandoned (x : ActiveJob ρ) : ActiveJob ρ × Effect :=
  ({ x.cancelTimers with abandoned := true, tracked := false, booked := true },
    if x.abandoned then .leave else .leaveUp)

/-- A newer claim of the same job id takes the entry of this execution. -/
def displace (x : ActiveJob ρ) : ActiveJob ρ := { x with tracked := false, replaced := true }

/-- A step of the pool thread, `_execute_handler`. -/
def threadStep (v : View) (x : ActiveJob ρ) : ThreadPc ρ → Option Reply →
    Option (ActiveJob ρ × Effect)
  | .queued, none =>
    some ({ x with thread := .arming }.emit (.started x.job.id x.job.queueName), .keep)
  | .arming, none => some ({ x.startJobTimeout with thread := .calling }, .keep)
  -- the call of the user handler, which nothing guards
  | .calling, none => some ({ x with thread := .running }, .keep)
  | .settling a, none =>
    match claimSettlement v x with
    | none => some ({ x with thread := .cleanup }, .keep)
    | some w => some ({ x.settle .runner a with thread := .sending a w .check }, .keep)
  | .sending a w pc, r =>
    (sendStep x a w pc r).map fun p =>
      ({ p.1 with thread := p.2.elim .cleanup (.sending a w) }, .keep)
  | .cleanup, none => some (x.cleanupJob .returned)
  | _, _ => none

/-- The handler ends: what it returned or raised decides the ack, if any. -/
def handlerEnds (x : ActiveJob ρ) (o : Outcome ρ) : Option (ActiveJob ρ × Effect) :=
  match x.thread with
  | .running => some ({ x with thread := o.ack.elim .cleanup .settling }, .keep)
  | _ => none

/-- A step of `_abandon_job` for `reason`, with the program counter it moves to. -/
def abandonStep (v : View) (x : ActiveJob ρ) (t : Taker) (reason : String) :
    AbandonPc → Option Reply → Option (ActiveJob ρ × AbandonPc × Effect)
  | .armed, none => some (x, .signal, .keep)
  | .signal, none => some ({ x with abortEvent := true }, .settling, .keep)
  | .settling, none =>
    match claimSettlement v x with
    | none => some (x, .over, .keep)
    | some w => some (x.settle t (.fail reason), .sending w .check, .keep)
  | .sending w pc, r =>
    (sendStep x (.fail reason) w pc r).map fun p => (p.1, p.2.elim .book (.sending w), .keep)
  | .book, none => some (x.bookAbandoned.1, .over, x.bookAbandoned.2)
  | _, _ => none

/-- A step of the job timer, `_on_job_timeout`. -/
def timeoutStep (v : View) (x : ActiveJob ρ) (r : Option Reply) :
    Option (ActiveJob ρ × Effect) :=
  (x.abandonStep v .timeout jobTimeoutError x.timeout r).map fun p =>
    ({ p.1 with timeout := p.2.1 }, p.2.2)

/-- A step of `stop()`'s `_abandon_job` for this execution. -/
def stopperStep (v : View) (x : ActiveJob ρ) (r : Option Reply) :
    Option (ActiveJob ρ × Effect) :=
  (x.abandonStep v .stopper shutdownTimeoutError x.stopper r).map fun p =>
    ({ p.1 with stopper := p.2.1 }, p.2.2)

/-- Whether the heartbeat chain goes on. -/
def beats (v : View) (x : ActiveJob ρ) : Bool := !x.leaseLost && x.settled.isNone && v.entry

/-- A step of the heartbeat chain, `_schedule_job_heartbeat`. -/
def beatStep (v : View) (x : ActiveJob ρ) : BeatPc → Option Reply → Option (ActiveJob ρ)
  | .armed, none => some { x with beat := .check }
  | .check, none =>
    some { x with
      beat := if x.beats v then (truthy v.workerId).elim .off .send else .off }
  | .send w, none => some { x with beat := .wait w }
  | .wait _, some r =>
    match r with
    | .ok => some { x with beat := .rearm }
    | .leaseExpired => some { x with beat := .lose }
    -- `is_lease_expired` raises out of the timer thread
    | .nonStringCode => some { x with beat := .off }
    | .alreadyCompleted | .error => some ({ x with beat := .rearm }.emit .error)
  | .lose, none =>
    if x.leaseLost then some { x with beat := .off } else some { x.loseLease with beat := .report }
  | .report, none => some ({ x with beat := .off }.reportLost "heartbeat")
  | .rearm, none => some { x with beat := if x.beats v then .armed else .off }
  | _, _ => none

end ActiveJob

/-- Which actor of an execution moves. -/
inductive JobAction (ρ : Type)
  | thread (r : Option Reply)
  | handlerEnds (o : Outcome ρ)
  | timeout (r : Option Reply)
  | stopper (r : Option Reply)
  | beat (r : Option Reply)
deriving DecidableEq, Repr

/-- One step of an actor of an execution. -/
def ActiveJob.step (v : View) (x : ActiveJob ρ) : JobAction ρ → Option (ActiveJob ρ × Effect)
  | .thread r => x.threadStep v x.thread r
  | .handlerEnds o => x.handlerEnds o
  | .timeout r => x.timeoutStep v r
  | .stopper r => x.stopperStep v r
  | .beat r => (x.beatStep v x.beat r).map fun x' => (x', .keep)

/-! ### The worker -/

/-- The options the worker's own decisions read, and how often at most the HTTP layer
sends one claim again: with the default three retries a call has four attempts, and each
may be replayed once after a refresh. -/
structure Options where
  queueName : String
  concurrency : ℕ
  leaseDuration : ℤ
  resends : ℕ := 7
deriving DecidableEq, Repr

/-- Where the thread inside `start()` stands; jobs are indices into `jobs`. -/
inductive MainPc
  | idle
  | registering
  | registered
  | looping
  | locking
  | claiming (workerId : String) (limit : ℕ)
  | claimWait (limit : ℕ)
  | jobs (todo : List ℕ)
  | release (e : ℕ) (todo : List ℕ)
  | releaseWait (e : ℕ) (todo : List ℕ)
  | beat (e : ℕ) (todo : List ℕ)
  | readExecutor (e : ℕ) (todo : List ℕ)
  | submit (e : ℕ) (todo : List ℕ)
  | discard (e : ℕ) (todo : List ℕ)
  | finish
  | pausing
  | waitStopped
  | returned
  | raised
deriving DecidableEq, Repr

/-- Where the `stop()` call that found the worker running stands. -/
inductive StopPc
  | idle
  | signal
  | awaitPoll
  | drain
  | snapshot
  | forceFail (todo : List ℕ)
  | abandoning (e : ℕ) (todo : List ℕ)
  | grace
  | shutdown
  | clear
  | deregister
  | deregisterWait
  | finishing
  | clearId
  | closing
  | returned
deriving DecidableEq, Repr

/-- The `_executor` attribute and, while it is set, whether it was shut down. -/
inductive Executor
  | absent | up | down
deriving DecidableEq, Repr

/-- The worker-level calls. -/
inductive Call
  | register
  | claim (queueName workerId : String) (limit : ℕ) (leaseDuration : ℤ)
  | deregister (workerId : String)
deriving DecidableEq, Repr

/-- `SpooledWorker`.  `jobs` holds every job a claim ever returned, in order;
`claimSends` counts the claim requests sent, `resendsLeft` bounds those the pending call may
still send again, and `stopReturned` records that some `stop()` call has returned. -/
structure SpooledWorker (ρ : Type) where
  options : Options
  state : WorkerState := .idle
  workerId : Option String := none
  registeredWorkerId : Option String := none
  activeJobs : Dict String ℕ := .empty
  shutdownEvent : Bool := false
  stoppedEvent : Bool := false
  executor : Executor := .absent
  intakeClosed : Bool := false
  pollInFlight : ℕ := 0
  pollThread : Bool := false
  abandonedRunning : ℕ := 0
  main : MainPc := .idle
  stop : StopPc := .idle
  stopOnPoll : Bool := false
  jobs : List (ActiveJob ρ) := []
  log : List Call := []
  claimSends : ℕ := 0
  resendsLeft : ℕ := 0
  stopReturned : Bool := false
deriving DecidableEq

namespace SpooledWorker

/-- What the actors of execution `e` see. -/
def view (s : SpooledWorker ρ) (e : ℕ) (x : ActiveJob ρ) : View :=
  ⟨s.activeJobs.get? x.job.id = some e, s.workerId⟩

/-- Store execution `e`. -/
def setJob (s : SpooledWorker ρ) (e : ℕ) (x : ActiveJob ρ) : SpooledWorker ρ :=
  { s with jobs := s.jobs.set e x }

/-- `if self._active_jobs.get(job.id) is active: del self._active_jobs[job.id]`. -/
def dropEntry (s : SpooledWorker ρ) (e : ℕ) (x : ActiveJob ρ) : Dict String ℕ :=
  if s.activeJobs.get? x.job.id = some e then s.activeJobs.erase x.job.id else s.activeJobs

/-- The worker after a step of execution `e` with its effect. -/
def apply (s : SpooledWorker ρ) (e : ℕ) (x : ActiveJob ρ) : Effect → SpooledWorker ρ
  | .keep => s.setJob e x
  | .leave => { s.setJob e x with activeJobs := s.dropEntry e x }
  | .leaveUp =>
    { s.setJob e x with
      activeJobs := s.dropEntry e x
      abandonedRunning := s.abandonedRunning + 1 }
  | .leaveDown =>
    { s.setJob e x with
      activeJobs := s.dropEntry e x
      abandonedRunning := s.abandonedRunning - 1 }

/-- A step of an actor of execution `e`. -/
def jobStep (s : SpooledWorker ρ) (e : ℕ) (a : JobAction ρ) : Option (SpooledWorker ρ) :=
  s.jobs[e]?.bind fun x => (x.step (s.view e x) a).map fun p => s.apply e p.1 p.2

/-- The slots `_poll` asks for. -/
def availableSlots (s : SpooledWorker ρ) : ℕ :=
  s.options.concurrency - s.activeJobs.length - s.abandonedRunning

/-- The first locked section of `_poll`. -/
def pollLock (s : SpooledWorker ρ) : SpooledWorker ρ :=
  if s.state ≠ .running then { s with main := .pausing }
  else
    match truthy s.workerId with
    | none => { s with main := .pausing }
    | some w =>
      if s.availableSlots = 0 then { s with main := .pausing }
      else
        { s with
          pollInFlight := s.pollInFlight + 1
          pollThread := true
          main := .claiming w s.availableSlots }

/-- `self._active_jobs[job.id] = active`: execution `e` takes the entry of its id. -/
def register (s : SpooledWorker ρ) (e : ℕ) (x : ActiveJob ρ) : SpooledWorker ρ :=
  { s with
    jobs := (Indexed.displaced ActiveJob.displace s.jobs s.activeJobs x.job.id).set e
      { x with thread := .registered, tracked := true }
    activeJobs := s.activeJobs.insert x.job.id e }

/-- The locked section of `_process_job`. -/
def processJob (s : SpooledWorker ρ) (e : ℕ) (x : ActiveJob ρ) (todo : List ℕ) :
    SpooledWorker ρ :=
  if s.intakeClosed then
    { s.setJob e { x with thread := .releasing } with main := .release e todo }
  else { s.register e x with main := .beat e todo }

/-- The worker id `_release_unstarted_job` uses. -/
def releaseId (s : SpooledWorker ρ) : Option String :=
  (truthy s.workerId).or (truthy s.registeredWorkerId)

/-- The `fail` call of `_release_unstarted_job`; without a worker id it sends none. -/
def releaseUnstartedJob (s : SpooledWorker ρ) (e : ℕ) (x : ActiveJob ρ) (todo : List ℕ) :
    SpooledWorker ρ :=
  match s.releaseId with
  | none => { s.setJob e { x with thread := .unreleased } with main := .jobs todo }
  | some w =>
    { s.setJob e { x with
        thread := .releaseSent w
        calls := x.calls ++ [ackCall x.job w (.fail unstartedClaimError)] } with
      main := .releaseWait e todo }

/-- The end of `_release_unstarted_job`. -/
def releaseReply (s : SpooledWorker ρ) (e : ℕ) (x : ActiveJob ρ) (todo : List ℕ) (ok : Bool) :
    SpooledWorker ρ :=
  let ev := if ok then ackEvent x.job (.fail unstartedClaimError) else .error
  { s.setJob e ({ x with thread := .released }.emit ev) with main := .jobs todo }

/-- `job:claimed`, then the first heartbeat of `_schedule_job_heartbeat`. -/
def scheduleJobHeartbeat (s : SpooledWorker ρ) (e : ℕ) (x : ActiveJob ρ) : ActiveJob ρ :=
  { x with
    thread := .scheduled
    beat := if (s.view e x).entry then .armed else x.beat }.emit
    (.claimed x.job.id x.job.queueName)

/-- `self._executor.submit(...)`: the attribute is read again here, and `None` has no
`submit`, which ends the poll's result loop. -/
def submit (s : SpooledWorker ρ) (e : ℕ) (x : ActiveJob ρ) (todo : List ℕ) : SpooledWorker ρ :=
  match s.executor with
  | .up => { s.setJob e { x with thread := .queued } with main := .jobs todo }
  | .down => { s with main := .discard e todo }
  | .absent => { s with main := .finish }

/-- The `finally` block of `_poll`. -/
def pollFinally (s : SpooledWorker ρ) : SpooledWorker ρ :=
  { s with
    pollInFlight := s.pollInFlight - 1
    pollThread := if s.pollInFlight - 1 = 0 then false else s.pollThread
    main := .pausing }

/-- The next step of `start()` that waits for no answer. -/
def mainGo (s : SpooledWorker ρ) : MainPc → Option (SpooledWorker ρ)
  | .idle =>
    if s.state = .idle then
      some { s with
        state := .starting
        shutdownEvent := false
        stoppedEvent := false
        intakeClosed := false
        pollInFlight := 0
        pollThread := false
        registeredWorkerId := none
        main := .registering
        log := s.log ++ [.register] }
    else none
  | .registered => some { s with executor := .up, state := .running, main := .looping }
  | .looping =>
    some { s with
      main :=
        if s.state = .running ∧ s.shutdownEvent = false then .locking
        else if s.state = .stopping then .waitStopped else .returned }
  | .locking => some s.pollLock
  | .claiming w n =>
    some { s with
      main := .claimWait n
      log := s.log ++ [.claim s.options.queueName w n s.options.leaseDuration]
      claimSends := s.claimSends + 1
      resendsLeft := s.options.resends }
  | .jobs [] => some { s with main := .finish }
  | .jobs (e :: todo) => s.jobs[e]?.map fun x => s.processJob e x todo
  | .release e todo => s.jobs[e]?.map fun x => s.releaseUnstartedJob e x todo
  | .beat e todo =>
    s.jobs[e]?.map fun x =>
      { s.setJob e (s.scheduleJobHeartbeat e x) with main := .readExecutor e todo }
  | .readExecutor e todo =>
    some { s with main := if s.executor = .absent then .jobs todo else .submit e todo }
  | .submit e todo => s.jobs[e]?.map fun x => s.submit e x todo
  | .discard e todo =>
    s.jobs[e]?.map fun x =>
      { s.apply e (x.cleanupJob .refused).1 (x.cleanupJob .refused).2 with main := .jobs todo }
  | .finish => some s.pollFinally
  | .pausing => some { s with main := .looping }
  | .waitStopped => if s.stoppedEvent then some { s with main := .returned } else none
  | _ => none

end SpooledWorker

/-- What happens to the thread inside `start()`.  `refused` is a `submit()` that raises
`RuntimeError` although nobody shut the executor down: the interpreter is ending. -/
inductive MainAction
  | go
  | registered (id : String)
  | registerFailed
  | resend
  | claimed (jobs : List ClaimedJob)
  | claimFailed
  | releaseReply (ok : Bool)
  | refused
deriving DecidableEq, Repr

/-- What happens to `stop()`: a call that finds the worker running (on the poll thread
when a signal handler makes it), a call that does not and returns at once, the next
step, or the deadline of the wait it is in. -/
inductive StopAction
  | call (onPoll : Bool)
  | callIgnored
  | go
  | deadline
deriving DecidableEq, Repr

namespace SpooledWorker

/-- A `stop()` that runs in a signal handler on the poll thread suspends that thread. -/
def suspended (s : SpooledWorker ρ) : Bool :=
  s.stopOnPoll && s.stop != .idle && s.stop != .returned

/-- A step of the thread inside `start()`. -/
def mainStep (s : SpooledWorker ρ) (a : MainAction) : Option (SpooledWorker ρ) :=
  if s.suspended then none
  else
    match a, s.main with
    | .go, pc => s.mainGo pc
    | .registered id, .registering =>
      some { s with workerId := some id, registeredWorkerId := some id, main := .registered }
    | .registerFailed, .registering => some { s with state := .error, main := .raised }
    | .resend, .claimWait _ =>
      if s.resendsLeft = 0 then none
      else some { s with claimSends := s.claimSends + 1, resendsLeft := s.resendsLeft - 1 }
    | .claimed js, .claimWait _ =>
      some { s with
        jobs := s.jobs ++ js.map fun j => { job := j }
        main := .jobs (List.range' s.jobs.length js.length) }
    | .claimFailed, .claimWait _ => some { s with main := .finish }
    | .releaseReply ok, .releaseWait e todo => s.jobs[e]?.map fun x => s.releaseReply e x todo ok
    | .refused, .submit e todo =>
      if s.executor = .up then s.jobs[e]?.map fun _ => { s with main := .discard e todo } else none
    | _, _ => none

/-- The next step of `stop()`. -/
def stopGo (s : SpooledWorker ρ) : StopPc → Option (SpooledWorker ρ)
  | .signal => some { s with shutdownEvent := true, stop := .awaitPoll }
  | .awaitPoll =>
    if (s.stopOnPoll = true ∧ s.pollThread = true) ∨ s.pollInFlight = 0 then
      some { s with stop := .drain }
    else none
  | .drain =>
    if s.activeJobs.length = 0 then some { s with intakeClosed := true, stop := .snapshot }
    else none
  | .snapshot => some { s with stop := .forceFail s.activeJobs.values }
  | .forceFail [] => some { s with stop := .grace }
  | .forceFail (e :: todo) =>
    s.jobs[e]?.map fun x =>
      { s.setJob e { x with stopper := .signal } with stop := .abandoning e todo }
  | .abandoning e todo =>
    s.jobs[e]?.bind fun x =>
      if x.stopper = .over then some { s with stop := .forceFail todo } else none
  | .grace => if s.activeJobs.length = 0 then some { s with stop := .shutdown } else none
  | .shutdown =>
    some { s with
      executor := if s.executor = .up then .down else s.executor
      stop := .clear }
  | .clear => some { s with executor := .absent, stop := .deregister }
  | .deregister =>
    match truthy s.workerId with
    | some w => some { s with log := s.log ++ [.deregister w], stop := .deregisterWait }
    | none => some { s with stop := .finishing }
  -- either answer: a failed deregister is only logged
  | .deregisterWait => some { s with stop := .finishing }
  | .finishing => some { s with state := .stopped, stop := .clearId }
  | .clearId => some { s with workerId := none, stop := .closing }
  | .closing => some { s with stoppedEvent := true, stopReturned := true, stop := .returned }
  | _ => none

/-- A step of `stop()`. -/
def stopStep (s : SpooledWorker ρ) : StopAction → Option (SpooledWorker ρ)
  | .call onPoll =>
    if s.state = .running ∧ s.stop = .idle then
      some { s with state := .stopping, stop := .signal, stopOnPoll := onPoll }
    else none
  | .callIgnored =>
    if s.state ≠ .running ∧ s.main ≠ .idle then some { s with stopReturned := true } else none
  | .go => s.stopGo s.stop
  | .deadline =>
    match s.stop with
    | .awaitPoll => some { s with stop := .drain }
    | .drain => some { s with intakeClosed := true, stop := .snapshot }
    | .grace => some { s with stop := .shutdown }
    | _ => none

end SpooledWorker

/-- One atomic step of the worker. -/
inductive Action (ρ : Type)
  | main (a : MainAction)
  | stop (a : StopAction)
  | job (e : ℕ) (a : JobAction ρ)
deriving DecidableEq, Repr

/-- The worker's step function. -/
def SpooledWorker.step (s : SpooledWorker ρ) : Action ρ → Option (SpooledWorker ρ)
  | .main a => s.mainStep a
  | .stop a => s.stopStep a
  | .job e a => s.jobStep e a

/-- The synchronous worker, before `start()`. -/
def system (ρ : Type) (o : Options) : System (SpooledWorker ρ) (Action ρ) :=
  ⟨{ options := o }, SpooledWorker.step⟩

end SpooledSdk.Worker.Sync
