/-
The asynchronous worker as a step relation (`worker/async_worker.py`).

Everything runs on one event loop.  A task that may go on is in the loop's ready
queue, which is first in, first out; the loop takes the head and runs it until its
next `await`.  Such a segment is atomic: `current` is the task it belongs to, the
steps of the segment are steps of `current`, and no other task, reply, timer or call
comes between them.  What happens outside (a reply, a timer, the end of a user await)
only puts the task that waits for it into the ready queue, with a `Wake` that says why.

* `ActiveJob.step` — the process task, the handler's inner task, the heartbeat task and
  `stop()`'s `_abandon_job` of one execution, with their `Effect` on the worker;
* `SpooledWorker.mainStep`, `SpooledWorker.stopStep` — `start()` and `stop()`;
* `system` — the whole worker.

`Task.cancel()` follows the documented rules: a task that has not started never runs, a
task whose wake-up is already queued gets `CancelledError` in its place, and a finished
task is left alone.  The lock of `_active_jobs` is never held across an `await`, so
taking it never suspends.  The worker heartbeat changes nothing the other tasks read.

A claim call may send its request several times, and the first one only after a login
(`send`); the log has one entry for each call, and `claimSends` counts the requests.
-/
import SpooledSdk.System
import SpooledSdk.Dict
import SpooledSdk.Registry
import SpooledSdk.Worker.Types

namespace SpooledSdk.Worker.Async

variable {ρ : Type}

/-! ### One execution -/

/-- Why a task is in the ready queue. -/
inductive Wake
  | start
  | user
  | timer
  | completed
  | reply (r : Reply)
  | cancelled
deriving DecidableEq, Repr

/-- Where `process_task` stands.  A job that the poll releases never gets one. -/
inductive ProcPc (ρ : Type)
  | claimed
  | unreleased
  | releaseSent (workerId : String)
  | released
  | created
  | handler
  | waiting
  | settling (a : Ack ρ)
  | sending (a : Ack ρ) (workerId : String) (pc : SendPc)
  | cleanup
  | closing
  | done
deriving DecidableEq, Repr

/-- Where the inner task that runs the handler of a job with `timeout_seconds` stands. -/
inductive InnerPc (ρ : Type)
  | none
  | created
  | running
  | finished (o : Outcome ρ)
deriving DecidableEq, Repr

/-- Where `heartbeat_task` stands. -/
inductive BeatPc
  | none
  | created
  | sleeping
  | asking (workerId : String)
  | lose
  | report
  | crashed
  | done
deriving DecidableEq, Repr

/-- Where `stop()`'s `_abandon_job` of the execution stands. -/
inductive AbandonPc
  | idle
  | settling
  | sending (workerId : String) (pc : SendPc)
  | cleanup
  | closing
  | over
  | crashed
deriving DecidableEq, Repr

/-- The tasks that act on an execution. -/
inductive Kind
  | proc | inner | beat | stop
deriving DecidableEq, Repr

/-- `ActiveJob`, one for each job a claim returned, with the program counters and pending
wake-ups of its tasks.  `settled` remembers who took the right to ack and for what; the
source keeps the flag alone.  The fields from `tracked` on are history too: no step
reads them. -/
structure ActiveJob (ρ : Type) where
  job : ClaimedJob
  abortEvent : Bool := false
  settled : Option (Taker × Ack ρ) := none
  cancelReason : Option String := none
  leaseLost : Bool := false
  proc : ProcPc ρ := .claimed
  procWake : Option Wake := none
  inner : InnerPc ρ := .none
  innerWake : Option Wake := none
  beat : BeatPc := .none
  beatWake : Option Wake := none
  stopper : AbandonPc := .idle
  stopperWake : Option Wake := none
  /-- this execution is the entry of `_active_jobs` under its job id -/
  tracked : Bool := false
  /-- a newer claim of the same id took its entry -/
  replaced : Bool := false
  /-- `timeout_seconds` elapsed before the handler finished -/
  timedOut : Bool := false
  calls : List (AckCall ρ) := []
  events : List (JobEvent ρ) := []
deriving DecidableEq, Repr

/-- What an execution's tasks see of the worker: whether the execution is the entry under
its job id, and `_worker_id`. -/
structure View where
  entry : Bool
  workerId : Option String

/-- What a step of an execution does to the worker: remove the entry if it is this
execution, put tasks of the execution into the ready queue, and suspend or end the
current task. -/
structure Effect where
  leave : Bool := false
  wakes : List Kind := []
  yields : Bool := false
deriving DecidableEq, Repr

/-- `process_task` exists and is not done. -/
def ProcPc.alive : ProcPc ρ → Bool
  | .created | .handler | .waiting | .settling _ | .sending _ _ _ | .cleanup | .closing => true
  | _ => false

/-- `process_task.cancel()` reaches the task itself: one that awaits its heartbeat in
`_cleanup_job` passes the request on to the heartbeat. -/
def ProcPc.cancellable : ProcPc ρ → Bool
  | .created | .handler | .waiting | .settling _ | .sending _ _ _ | .cleanup => true
  | _ => false

/-- The inner task exists and is not done. -/
def InnerPc.alive : InnerPc ρ → Bool
  | .created | .running => true
  | _ => false

/-- `heartbeat_task` exists and is not done. -/
def BeatPc.alive : BeatPc → Bool
  | .created | .sleeping | .asking _ | .lose | .report => true
  | _ => false

namespace ActiveJob

/-- `_emit` of an event about this job. -/
def emit (x : ActiveJob ρ) (ev : JobEvent ρ) : ActiveJob ρ := { x with events := x.events ++ [ev] }

/-- The task kinds to queue for a wake-up, none if one is queued already. -/
def queued (k : Kind) (pending : Option Wake) : List Kind := if pending.isSome then [] else [k]

/-- `process_task.cancel()`.  A heartbeat the request is passed on to was cancelled before. -/
def cancelProc (x : ActiveJob ρ) : ActiveJob ρ × List Kind :=
  if x.proc.cancellable then ({ x with procWake := some .cancelled }, queued .proc x.procWake)
  else (x, [])

/-- `task.cancel()` for the inner task. -/
def cancelInner (x : ActiveJob ρ) : ActiveJob ρ × List Kind :=
  if x.inner.alive then ({ x with innerWake := some .cancelled }, queued .inner x.innerWake)
  else (x, [])

/-- `heartbeat_task.cancel()`. -/
def cancelBeat (x : ActiveJob ρ) : ActiveJob ρ × List Kind :=
  if x.beat.alive then ({ x with beatWake := some .cancelled }, queued .beat x.beatWake)
  else (x, [])

/-- `_claim_settlement`: the worker id if this execution may ack now. -/
def claimSettlement (v : View) (x : ActiveJob ρ) : Option String :=
  if x.leaseLost || x.settled.isSome || !v.entry then none else truthy v.workerId

/-- The right to ack, taken by `t` for `a`. -/
def settle (x : ActiveJob ρ) (t : Taker) (a : Ack ρ) : ActiveJob ρ :=
  { x with settled := some (t, a) }

/-- What `_lose_lease` does once the flag is set, before it cancels tasks. -/
def reportLost (x : ActiveJob ρ) (operation : String) : ActiveJob ρ :=
  { x with abortEvent := true }.emit (leaseLostEvent x.job operation)

/-- A step of `_complete_job` or `_send_fail` past the settlement; the new program
counter is `none` when the call returns.  The tasks that `_lose_lease` cancels are the
caller's to cancel. -/
def sendStep (x : ActiveJob ρ) (a : Ack ρ) (workerId : String) :
    SendPc → Option Reply → Option (ActiveJob ρ × Option SendPc)
  | .check, none => some (x, if x.leaseLost then none else some .send)
  | .send, none => some ({ x with calls := x.calls ++ [ackCall x.job workerId a] }, some .wait)
  | .wait, some r =>
    match verdict a r with
    | .accepted => some (x.emit (ackEvent x.job a), none)
    | .expired => some (x, some .lose)
    | .rejected => some (x.emit .error, none)
  | .lose, none =>
    if x.leaseLost then some (x, none) else some ({ x with leaseLost := true }, some .report)
  | .report, none => some (x.reportLost (ackOperation a), none)
  | _, _ => none

/-- Where `CancelledError` takes `_execute_handler`: a lost lease or a cancellation from
outside acks nothing, `stop()`'s is reported with its reason. -/
def afterCancel (x : ActiveJob ρ) : ProcPc ρ :=
  if x.leaseLost then .cleanup else x.cancelReason.elim .cleanup fun r => .settling (.fail r)

/-- Where the end of the handler takes `_execute_handler`. -/
def afterHandler (x : ActiveJob ρ) : Outcome ρ → ProcPc ρ
  | .raised .cancelledError => x.afterCancel
  | o => o.ack.elim .cleanup .settling

/-- `process_task` creates the heartbeat task and announces the job. -/
def started (x : ActiveJob ρ) : ActiveJob ρ :=
  { x with procWake := none, beat := .created, beatWake := some .start }.emit
    (.started x.job.id x.job.queueName)

/-- The first segment of `process_task`: the heartbeat task, then the handler, directly or
in an inner task. -/
def startProc (x : ActiveJob ρ) : ActiveJob ρ × Effect :=
  if 0 < x.job.timeoutSeconds then
    ({ x.started with proc := .waiting, inner := .created, innerWake := some .start },
      { wakes := [.beat, .inner], yields := true })
  else ({ x.started with proc := .handler }, { wakes := [.beat] })

/-- `asyncio.wait` in `_run_handler` is over, by `w`. -/
def endWait (x : ActiveJob ρ) (w : Wake) : ActiveJob ρ × Effect :=
  let y := { x with procWake := none }
  match w, x.inner with
  | .cancelled, _ => ({ y.cancelInner.1 with proc := x.afterCancel }, { wakes := y.cancelInner.2 })
  | _, .finished o => ({ y with proc := x.afterHandler o }, {})
  | _, _ =>
    ({ y.cancelInner.1 with
        abortEvent := true
        timedOut := true
        proc := .settling (.fail jobTimeoutError) },
      { wakes := y.cancelInner.2 })

/-- `_cleanup_job` up to its `await` of the heartbeat task. -/
def cleanupJob (x : ActiveJob ρ) : ActiveJob ρ × List Kind :=
  { x with tracked := false }.cancelBeat

/-- `stop()` gives up waiting for the execution: it is signalled, and its task is cancelled
unless an ack is on the way. -/
def forceFail (x : ActiveJob ρ) : ActiveJob ρ × List Kind :=
  let y := { x with cancelReason := some shutdownTimeoutError, abortEvent := true }
  if x.settled.isSome then (y, []) else y.cancelProc

/-- A newer claim of the same job id takes the entry of this execution. -/
def displace (x : ActiveJob ρ) : ActiveJob ρ := { x with tracked := false, replaced := true }

/-- A step of `process_task`, `_process_job`. -/
def procStep (v : View) (x : ActiveJob ρ) : Option (ActiveJob ρ × Effect) :=
  match x.proc, x.procWake with
  | .created, some .cancelled =>
    some ({ x with proc := .done, procWake := none }, { yields := true })
  | .created, some _ => some x.startProc
  | .waiting, some w => some (x.endWait w)
  | .settling a, _ =>
    match claimSettlement v x with
    | none => some ({ x with proc := .cleanup }, {})
    | some w => some ({ x.settle .runner a with proc := .sending a w .check }, {})
  -- `CancelledError` out of the request: the right is taken, so nothing else is sent
  | .sending _ _ .wait, some .cancelled =>
    some ({ x with proc := .cleanup, procWake := none }, {})
  | .sending a w .wait, some (.reply r) =>
    (sendStep x a w .wait (some r)).map fun p =>
      ({ p.1 with proc := p.2.elim .cleanup (.sending a w), procWake := none }, {})
  | .sending a w .report, none =>
    (sendStep x a w .report none).map fun p =>
      ({ p.1.cancelBeat.1 with proc := .cleanup }, { wakes := p.1.cancelBeat.2 })
  | .sending a w pc, none =>
    (sendStep x a w pc none).map fun p =>
      ({ p.1 with proc := p.2.elim .cleanup (.sending a w) }, { yields := pc = .send })
  | .cleanup, _ =>
    let p := x.cleanupJob
    some ({ p.1 with proc := if x.beat.alive then .closing else .done },
      { leave := true, wakes := p.2, yields := true })
  | .closing, some _ => some ({ x with proc := .done, procWake := none }, { yields := true })
  | _, _ => none

/-- A step of the inner task that is not the handler's own. -/
def innerStep (x : ActiveJob ρ) : Option (ActiveJob ρ × Effect) :=
  match x.inner, x.innerWake with
  | .created, some .cancelled =>
    some ({ x with inner := .finished (.raised .cancelledError), innerWake := none },
      { yields := true })
  | .created, some _ => some ({ x with inner := .running, innerWake := none }, {})
  | _, _ => none

/-- Whether the heartbeat goes on, and as which worker. -/
def beats (v : View) (x : ActiveJob ρ) : Option String :=
  if x.leaseLost || x.settled.isSome || !v.entry then none else truthy v.workerId

/-- A step of `heartbeat_task`, `_job_heartbeat_loop`. -/
def beatStep (v : View) (x : ActiveJob ρ) : Option (ActiveJob ρ × Effect) :=
  let y := { x with beatWake := none }
  match x.beat, x.beatWake with
  | .created, some .cancelled | .sleeping, some .cancelled | .asking _, some .cancelled =>
    some ({ y with beat := .done }, { yields := true })
  | .created, some _ => some ({ y with beat := .sleeping }, { yields := true })
  | .sleeping, some _ =>
    some ({ y with beat := (x.beats v).elim .done .asking }, { yields := true })
  | .asking _, some (.reply .ok) => some ({ y with beat := .sleeping }, { yields := true })
  | .asking _, some (.reply .leaseExpired) => some ({ y with beat := .lose }, {})
  -- `is_lease_expired` raises out of the loop
  | .asking _, some (.reply .nonStringCode) =>
    some ({ y with beat := .crashed }, { yields := true })
  | .asking _, some (.reply _) =>
    some ({ y with beat := .sleeping }.emit .error, { yields := true })
  | .lose, _ =>
    if x.leaseLost then some ({ x with beat := .done }, { yields := true })
    else some ({ x with leaseLost := true, beat := .report }, {})
  | .report, _ =>
    let p := (x.reportLost "heartbeat").cancelProc
    some ({ p.1 with beat := .done }, { wakes := p.2, yields := true })
  | _, _ => none

/-- How the `await` of the cancelled heartbeat task ends in `_abandon_job`: a task that
crashed raises its exception there. -/
def awaitedBeat (x : ActiveJob ρ) : AbandonPc := if x.beat = .crashed then .crashed else .over

/-- A step of `stop()`'s `_abandon_job`. -/
def stopperStep (v : View) (x : ActiveJob ρ) : Option (ActiveJob ρ × Effect) :=
  match x.stopper, x.stopperWake with
  | .settling, _ =>
    match claimSettlement v x with
    | none => some ({ x with stopper := .cleanup }, {})
    | some w =>
      some ({ x.settle .stopper (.fail shutdownTimeoutError) with stopper := .sending w .check }, {})
  | .sending w .wait, some (.reply r) =>
    (sendStep x (.fail shutdownTimeoutError) w .wait (some r)).map fun p =>
      ({ p.1 with stopper := p.2.elim .cleanup (.sending w), stopperWake := none }, {})
  | .sending w .report, none =>
    (sendStep x (.fail shutdownTimeoutError) w .report none).map fun p =>
      let b := p.1.cancelBeat
      ({ b.1.cancelProc.1 with stopper := .cleanup }, { wakes := b.2 ++ b.1.cancelProc.2 })
  | .sending w pc, none =>
    (sendStep x (.fail shutdownTimeoutError) w pc none).map fun p =>
      ({ p.1 with stopper := p.2.elim .cleanup (.sending w) }, { yields := pc = .send })
  | .cleanup, _ =>
    let p := x.cleanupJob
    some ({ p.1 with stopper := if x.beat.alive then .closing else x.awaitedBeat },
      { leave := true, wakes := p.2, yields := x.beat.alive })
  | .closing, some _ => some ({ x with stopper := x.awaitedBeat, stopperWake := none }, {})
  | _, _ => none

/-- The user's handler, resumed in its task, awaits something or ends. -/
def handlerStep (x : ActiveJob ρ) (k : Kind) (o : Option (Outcome ρ)) :
    Option (ActiveJob ρ × Effect) :=
  match k, x.proc, x.inner, o with
  | .proc, .handler, _, none => some ({ x with procWake := none }, { yields := true })
  | .proc, .handler, _, some o => some ({ x with procWake := none, proc := x.afterHandler o }, {})
  | .inner, _, .running, none => some ({ x with innerWake := none }, { yields := true })
  | .inner, _, .running, some o =>
    some ({ x with innerWake := none, inner := .finished o }, { yields := true })
  | _, _, _, _ => none

/-- The wake-up that is queued for a task, if any. -/
def pending (x : ActiveJob ρ) : Kind → Option Wake
  | .proc => x.procWake
  | .inner => x.innerWake
  | .beat => x.beatWake
  | .stop => x.stopperWake

/-- Queue a wake-up for a task. -/
def setWake (x : ActiveJob ρ) (w : Wake) : Kind → ActiveJob ρ
  | .proc => { x with procWake := some w }
  | .inner => { x with innerWake := some w }
  | .beat => { x with beatWake := some w }
  | .stop => { x with stopperWake := some w }

/-- Whether a task is suspended at an `await` that `w` ends: a reply, a timer, a finished
task, or the end of a user `await`. -/
def awaits (x : ActiveJob ρ) : Kind → Wake → Bool
  | .proc, .reply _ => (x.proc matches .sending _ _ .wait)
  | .proc, .timer => (x.proc matches .waiting)
  | .proc, .completed =>
    (x.proc matches .waiting) && (x.inner matches .finished _) ||
      (x.proc matches .closing) && !x.beat.alive
  | .proc, .user => (x.proc matches .handler)
  | .inner, .user => (x.inner matches .running)
  | .beat, .timer => (x.beat matches .sleeping)
  | .beat, .reply _ => (x.beat matches .asking _)
  | .stop, .reply _ => (x.stopper matches .sending _ .wait)
  | .stop, .completed => (x.stopper matches .closing) && !x.beat.alive
  | _, _ => false

/-- What a suspended task waits for has come. -/
def wakeStep (x : ActiveJob ρ) (k : Kind) (w : Wake) : Option (ActiveJob ρ × Effect) :=
  if x.awaits k w && (x.pending k).isNone then some (x.setWake w k, { wakes := [k] }) else none

end ActiveJob

/-- What happens to an execution: a task of it makes the next step of its segment, the user's
handler goes on in such a segment, or a task is woken. -/
inductive JobAction (ρ : Type)
  | go (k : Kind)
  | handler (k : Kind) (o : Option (Outcome ρ))
  | wake (k : Kind) (w : Wake)
deriving DecidableEq, Repr

/-- One step of a task of an execution. -/
def ActiveJob.step (v : View) (x : ActiveJob ρ) : JobAction ρ → Option (ActiveJob ρ × Effect)
  | .go .proc => x.procStep v
  | .go .inner => x.innerStep
  | .go .beat => x.beatStep v
  | .go .stop => x.stopperStep v
  | .handler k o => x.handlerStep k o
  | .wake k w => x.wakeStep k w

/-! ### The worker -/

/-- The options the worker's own decisions read. -/
structure Options where
  queueName : String
  concurrency : ℕ
  leaseDuration : ℤ
  sends : ℕ := 8
deriving DecidableEq, Repr

/-- The tasks of the event loop. -/
inductive Task
  | main
  | stop
  | job (e : ℕ) (k : Kind)
deriving DecidableEq, Repr

/-- The task that acts as kind `k` on execution `e`. -/
def Kind.task (e : ℕ) : Kind → Task
  | .stop => .stop
  | k => .job e k

/-- Where the task inside `start()` stands; jobs are indices into `jobs`. -/
inductive MainPc
  | idle
  | registering
  | registered (id : String)
  | registerFailed
  | polling
  | claimWait (limit : ℕ)
  | jobs (todo : List ℕ)
  | releaseWait (e : ℕ) (todo : List ℕ)
  | releaseDone (e : ℕ) (todo : List ℕ) (ok : Bool)
  | finish
  | pausing
  | waitStopped
  | leaving
  | returned
  | raised
deriving DecidableEq, Repr

/-- Where the `stop()` call that found the worker running stands. -/
inductive StopPc
  | idle
  | inflight
  | drain
  | drainWait
  | forceFail (todo : List ℕ)
  | grace
  | abandonStart
  | abandon (todo : List ℕ)
  | abandoning (e : ℕ) (todo : List ℕ)
  | beatWait
  | deregister
  | deregisterWait
  | finishing
  | returned
  | aborted
deriving DecidableEq, Repr

/-- Where a wake-up takes `stop()`. -/
def StopPc.woken : StopPc → Option StopPc
  | .inflight | .drainWait => some .drain
  | .grace => some .abandonStart
  | .beatWait => some .deregister
  | .deregisterWait => some .finishing
  | _ => none

/-- The worker-level calls. -/
inductive Call
  | register
  | claim (queueName workerId : String) (limit : ℕ) (leaseDuration : ℤ)
  | deregister (workerId : String)
deriving DecidableEq, Repr

/-- `AsyncSpooledWorker` on its event loop.  `jobs` holds every job a claim ever returned,
in order; `claimSends` counts the claim requests sent, `sendsLeft` bounds those the pending
call may still send, and `stopReturned` records that some `stop()` call has ended. -/
structure SpooledWorker (ρ : Type) where
  options : Options
  state : WorkerState := .idle
  workerId : Option String := none
  registeredWorkerId : Option String := none
  activeJobs : Dict String ℕ := .empty
  shutdownEvent : Bool := false
  stoppedEvent : Bool := false
  intakeClosed : Bool := false
  claimInflight : Bool := false
  main : MainPc := .idle
  stop : StopPc := .idle
  jobs : List (ActiveJob ρ) := []
  ready : List Task := []
  current : Option Task := none
  log : List Call := []
  claimSends : ℕ := 0
  sendsLeft : ℕ := 0
  stopReturned : Bool := false
deriving DecidableEq

namespace SpooledWorker

/-- What the tasks of execution `e` see. -/
def view (s : SpooledWorker ρ) (e : ℕ) (x : ActiveJob ρ) : View :=
  ⟨s.activeJobs.get? x.job.id = some e, s.workerId⟩

/-- Store execution `e`. -/
def setJob (s : SpooledWorker ρ) (e : ℕ) (x : ActiveJob ρ) : SpooledWorker ρ :=
  { s with jobs := s.jobs.set e x }

/-- `if self._active_jobs.get(job.id) is active: del self._active_jobs[job.id]`. -/
def dropEntry (s : SpooledWorker ρ) (e : ℕ) (x : ActiveJob ρ) : Dict String ℕ :=
  if s.activeJobs.get? x.job.id = some e then s.activeJobs.erase x.job.id else s.activeJobs

/-- The worker after a step of execution `e` with its effect. -/
def apply (s : SpooledWorker ρ) (e : ℕ) (x : ActiveJob ρ) (eff : Effect) : SpooledWorker ρ :=
  { s.setJob e x with
    activeJobs := if eff.leave then s.dropEntry e x else s.activeJobs
    ready := s.ready ++ eff.wakes.map (Kind.task e)
    current := if eff.yields then none else s.current }

/-- Whether action `a` on execution `e` may come now: a step of a segment belongs to the
current task, a wake-up comes between segments. -/
def permits (s : SpooledWorker ρ) (e : ℕ) : JobAction ρ → Bool
  | .go k | .handler k _ => s.current = some (k.task e)
  | .wake _ _ => s.current = none

/-- A step of a task of execution `e`. -/
def jobStep (s : SpooledWorker ρ) (e : ℕ) (a : JobAction ρ) : Option (SpooledWorker ρ) :=
  if s.permits e a then
    s.jobs[e]?.bind fun x => (x.step (s.view e x) a).map fun p => s.apply e p.1 p.2
  else none

/-- Put `t` at the end of the ready queue. -/
def schedule (s : SpooledWorker ρ) (t : Task) : SpooledWorker ρ := { s with ready := s.ready ++ [t] }

/-- The current task suspends or ends. -/
def suspend (s : SpooledWorker ρ) : SpooledWorker ρ := { s with current := none }

/-- The slots `_poll` asks for. -/
def availableSlots (s : SpooledWorker ρ) : ℕ := s.options.concurrency - s.activeJobs.length

/-- The head of the poll loop, with `_poll` up to its claim call. -/
def poll (s : SpooledWorker ρ) : SpooledWorker ρ :=
  if s.state = .running then
    match truthy s.workerId with
    | none => { s.suspend with main := .pausing }
    | some w =>
      if s.availableSlots = 0 then { s.suspend with main := .pausing }
      else
        { s.suspend with
          claimInflight := true
          main := .claimWait s.availableSlots
          log := s.log ++ [.claim s.options.queueName w s.availableSlots s.options.leaseDuration]
          sendsLeft := s.options.sends }
  else if s.state = .stopping ∧ s.stoppedEvent = false then { s.suspend with main := .waitStopped }
  else { s.suspend with main := .returned }

/-- The worker id `_release_unstarted_job` uses. -/
def releaseId (s : SpooledWorker ρ) : Option String :=
  (truthy s.workerId).or (truthy s.registeredWorkerId)

/-- `_register_job` and the creation of the process task: execution `e` takes the entry of
its id, and its task starts when the loop comes to it. -/
def registerJob (s : SpooledWorker ρ) (e : ℕ) (x : ActiveJob ρ) : SpooledWorker ρ :=
  { s with
    jobs := (Indexed.displaced ActiveJob.displace s.jobs s.activeJobs x.job.id).set e
      ({ x with proc := .created, procWake := some .start, tracked := true }.emit
        (.claimed x.job.id x.job.queueName))
    activeJobs := s.activeJobs.insert x.job.id e
    ready := s.ready ++ [.job e .proc] }

/-- `_release_unstarted_job` up to the `fail` request; without a worker id it sends none. -/
def releaseUnstartedJob (s : SpooledWorker ρ) (e : ℕ) (x : ActiveJob ρ) (todo : List ℕ) :
    SpooledWorker ρ :=
  match s.releaseId with
  | none => { s.setJob e { x with proc := .unreleased } with main := .jobs todo }
  | some w =>
    { (s.setJob e { x with
        proc := .releaseSent w
        calls := x.calls ++ [ackCall x.job w (.fail unstartedClaimError)] }).suspend with
      main := .releaseWait e todo }

/-- The next job of a claim's result. -/
def claimedJob (s : SpooledWorker ρ) (e : ℕ) (x : ActiveJob ρ) (todo : List ℕ) :
    SpooledWorker ρ :=
  if s.intakeClosed then s.releaseUnstartedJob e x todo
  else { s.registerJob e x with main := .jobs todo }

/-- The end of `_release_unstarted_job`. -/
def releaseReply (s : SpooledWorker ρ) (e : ℕ) (x : ActiveJob ρ) (todo : List ℕ) (ok : Bool) :
    SpooledWorker ρ :=
  let ev := if ok then ackEvent x.job (.fail unstartedClaimError) else .error
  { s.setJob e ({ x with proc := .released }.emit ev) with main := .jobs todo }

/-- The next step of the segment of `start()`. -/
def mainGo (s : SpooledWorker ρ) : MainPc → Option (SpooledWorker ρ)
  | .registered id =>
    some { s with
      workerId := some id
      registeredWorkerId := some id
      state := .running
      main := .polling }
  | .registerFailed => some { s.suspend with state := .error, main := .raised }
  | .polling => some s.poll
  | .jobs [] => some { s with main := .finish }
  | .jobs (e :: todo) => s.jobs[e]?.map fun x => s.claimedJob e x todo
  | .releaseDone e todo ok => s.jobs[e]?.map fun x => s.releaseReply e x todo ok
  | .finish => some { s.suspend with claimInflight := false, main := .pausing }
  | .leaving => some { s.suspend with main := .returned }
  | _ => none

/-- Some job task is not done. -/
def jobsRunning (s : SpooledWorker ρ) : Bool := s.jobs.any fun x => x.proc.alive

/-- The intake closes, in the step that sees the drain end. -/
def closeIntake (s : SpooledWorker ρ) : SpooledWorker ρ :=
  { s with intakeClosed := true, stop := .forceFail s.activeJobs.values }

/-- The next step of the segment of `stop()`. -/
def stopGo (s : SpooledWorker ρ) : StopPc → Option (SpooledWorker ρ)
  | .drain =>
    if s.jobsRunning then some { s.suspend with stop := .drainWait } else some s.closeIntake
  | .forceFail [] =>
    if s.jobsRunning then some { s.suspend with stop := .grace }
    else some { s with stop := .abandonStart }
  | .forceFail (e :: todo) =>
    s.jobs[e]?.map fun x =>
      { s.apply e x.forceFail.1 { wakes := x.forceFail.2 } with stop := .forceFail todo }
  | .abandonStart => some { s with stop := .abandon s.activeJobs.values }
  -- the worker heartbeat is cancelled and awaited
  | .abandon [] => some { s.suspend with stop := .beatWait }
  | .abandon (e :: todo) =>
    s.jobs[e]?.map fun x =>
      { s.setJob e { x with abortEvent := true, stopper := .settling } with
        stop := .abandoning e todo }
  | .abandoning e todo =>
    s.jobs[e]?.bind fun x =>
      match x.stopper with
      | .over => some { s with stop := .abandon todo }
      -- the exception leaves `stop()`, whose `finally` block wakes `start()`
      | .crashed =>
        some { s.suspend with stoppedEvent := true, stopReturned := true, stop := .aborted }
      | _ => none
  | .deregister =>
    match truthy s.workerId with
    | some w => some { s.suspend with log := s.log ++ [.deregister w], stop := .deregisterWait }
    | none => some { s with stop := .finishing }
  | .finishing =>
    some { s.suspend with
      state := .stopped
      workerId := none
      stoppedEvent := true
      stopReturned := true
      stop := .returned }
  | _ => none

end SpooledWorker

/-- What happens to the task inside `start()`. -/
inductive MainAction
  | start
  | go
  | registered (id : String)
  | registerFailed
  | send
  | claimed (jobs : List ClaimedJob)
  | claimFailed
  | releaseReply (ok : Bool)
  | wake
deriving DecidableEq, Repr

/-- What happens to `stop()`: a call that finds the worker running, one that does not and
returns at once, the next step of its segment, a wake-up (what it waits for has come, or
the deadline of the wait has passed), or a drain that finds its deadline passed. -/
inductive StopAction
  | call
  | callIgnored
  | go
  | wake
  | deadline
deriving DecidableEq, Repr

namespace SpooledWorker

/-- A step of the task inside `start()`, or the answer it waits for. -/
def mainStep (s : SpooledWorker ρ) : MainAction → Option (SpooledWorker ρ)
  | .go => if s.current = some .main then s.mainGo s.main else none
  | a =>
    if s.current = none then
      match a, s.main with
      | .start, .idle =>
        if s.state = .idle then
          some { s with
            state := .starting
            shutdownEvent := false
            stoppedEvent := false
            intakeClosed := false
            claimInflight := false
            registeredWorkerId := none
            main := .registering
            log := s.log ++ [.register] }
        else none
      | .registered id, .registering => some { s.schedule .main with main := .registered id }
      | .registerFailed, .registering => some { s.schedule .main with main := .registerFailed }
      | .send, .claimWait _ =>
        if s.sendsLeft = 0 then none
        else some { s with claimSends := s.claimSends + 1, sendsLeft := s.sendsLeft - 1 }
      | .claimed js, .claimWait _ =>
        some { s.schedule .main with
          jobs := s.jobs ++ js.map fun j => { job := j }
          main := .jobs (List.range' s.jobs.length js.length) }
      | .claimFailed, .claimWait _ => some { s.schedule .main with main := .finish }
      | .releaseReply ok, .releaseWait e todo =>
        some { s.schedule .main with main := .releaseDone e todo ok }
      -- the poll interval has passed, or the shutdown event is set: the loop looks at the state
      | .wake, .pausing => some { s.schedule .main with main := .polling }
      | .wake, .waitStopped =>
        if s.stoppedEvent then some { s.schedule .main with main := .leaving } else none
      | _, _ => none
    else none

/-- A step of `stop()`. -/
def stopStep (s : SpooledWorker ρ) : StopAction → Option (SpooledWorker ρ)
  | .call =>
    if s.current = none ∧ s.state = .running ∧ s.stop = .idle then
      let s' := { s with state := .stopping, shutdownEvent := true }
      if s.claimInflight then some { s' with stop := .inflight }
      else some { s' with stop := .drain, current := some .stop }
    else none
  | .callIgnored =>
    if s.current = none ∧ s.state ≠ .running ∧ s.main ≠ .idle then
      some { s with stopReturned := true }
    else none
  | .go => if s.current = some .stop then s.stopGo s.stop else none
  | .wake =>
    if s.current = none then
      s.stop.woken.map fun pc => { s.schedule .stop with stop := pc }
    else none
  | .deadline =>
    if s.current = some .stop ∧ s.stop = .drain then some s.closeIntake else none

end SpooledWorker

/-- One atomic step: a step of a segment, an event outside, or the loop taking the head of
its ready queue. -/
inductive Action (ρ : Type)
  | main (a : MainAction)
  | stop (a : StopAction)
  | job (e : ℕ) (a : JobAction ρ)
  | run
deriving DecidableEq, Repr

/-- The event loop takes the next ready task. -/
def SpooledWorker.runNext (s : SpooledWorker ρ) : Option (SpooledWorker ρ) :=
  match s.current, s.ready with
  | none, t :: rest => some { s with ready := rest, current := some t }
  | _, _ => none

/-- The worker's step function. -/
def SpooledWorker.step (s : SpooledWorker ρ) : Action ρ → Option (SpooledWorker ρ)
  | .main a => s.mainStep a
  | .stop a => s.stopStep a
  | .job e a => s.jobStep e a
  | .run => s.runNext

/-- The asynchronous worker, before `start()`. -/
def system (ρ : Type) (o : Options) : System (SpooledWorker ρ) (Action ρ) :=
  ⟨{ options := o }, SpooledWorker.step⟩

end SpooledSdk.Worker.Async
