/-
The threads of `WebSocketClient` and `SpooledRealtime`: calls of `connect()` and `disconnect()`,
receive loops, and timers that run `do_reconnect`, over the plain fields that they share.

Each thread goes on by one access of a shared field, one call of the network or one event at a
time, in any order.  `reconnect()` is a `disconnect()` with a `connect()` after it.  The delays
are left out, and whether a socket had been up for long is an answer from outside.
-/
import SpooledSdk.System
import SpooledSdk.Realtime.Events

namespace SpooledSdk.Realtime.Threads

/-- `WebSocketClient`, and `SpooledRealtime` over either transport. -/
inductive Kind
  | webSocket
  | realtimeWs
  | realtimeSse
deriving DecidableEq, Repr

structure Options where
  autoReconnect : Bool := true
  maxReconnectAttempts : ℕ := 10
deriving DecidableEq, Repr

inductive TimerState
  | created
  | pending
  | cancelled
  | fired
deriving DecidableEq, Repr

/-- A `threading.Timer`; `gen` counts the sockets that had been opened when it was set. -/
structure Timer where
  state : TimerState := .created
  gen : ℕ
deriving DecidableEq, Repr

/-- The fields of a client.  `conn` is `_ws` or `_sse_response`, `stream` is `_sse_client`, and
`sockets` says of every socket or stream that was opened whether it is still open.  The last two
are what an observer keeps: the connections whose drop was charged to the budget, and the number
of events that were delivered. -/
structure Client where
  state : ConnectionState := .disconnected
  stopEvent : Bool := false
  conn : Option ℕ := none
  stream : Option ℕ := none
  reconnectTimer : Option ℕ := none
  reconnectAttempts : ℕ := 0
  sockets : List Bool := []
  timers : List Timer := []
  spent : List ℕ := []
  delivered : ℕ := 0
deriving DecidableEq, Repr

/-- What a step hears from outside. -/
inductive Answer
  | yes
  | no
  | raised
  | last
deriving DecidableEq, Repr

/-! ### Closing the connection -/

/-- `_disconnect_websocket` and `_disconnect_sse`: the look at the connection, `close()`, and
the reset of the fields. -/
inductive ClosePc
  | test
  | close
  | reset
  | forget
deriving DecidableEq, Repr

/-- What follows the reset of the connection. -/
def Kind.afterReset (k : Kind) : Option ClosePc :=
  if k = .realtimeSse then some .forget else none

def Client.close (k : Kind) (c : Client) : ClosePc → Client × Option ClosePc
  | .test => (c, if c.conn.isSome then some .close else k.afterReset)
  | .close =>
    ({ c with sockets := (c.conn.map fun i => c.sockets.set i false).getD c.sockets }, some .reset)
  | .reset => ({ c with conn := none }, k.afterReset)
  | .forget => ({ c with stream := none }, none)

/-! ### `_handle_disconnect` -/

/-- `_handle_disconnect` with `_schedule_reconnect`. -/
inductive DropPc
  | clear
  | teardown (pc : ClosePc)
  | restore
  | test
  | schedule
  | count
  | arm
  | launch
  | giveUp
deriving DecidableEq, Repr

def Kind.handleDisconnect (k : Kind) : DropPc :=
  if k = .webSocket then .clear else .teardown .test

/-- `self._reconnect_timer.start()`. -/
def Client.launch (c : Client) (gen : ℕ) : Client :=
  match c.reconnectTimer with
  -- `disconnect()` has taken it away: the thread dies of an `AttributeError`
  | none => c
  | some t =>
    if c.timers[t]?.any fun timer => timer.state = .created then
      { c with timers := c.timers.set t { state := .pending, gen } }
    else c

/-- The next step of a `_handle_disconnect`; `lost` says that a connection was lost, and not a
redial refused. -/
def Client.drop (k : Kind) (o : Options) (c : Client) (gen : ℕ) (lost : Bool) (answer : Answer) :
    DropPc → Client × Option DropPc
  | .clear => ({ c with conn := none }, some .restore)
  | .teardown pc =>
    -- only a socket restores the budget here, a stream does with its events
    let after := if k = .realtimeSse then DropPc.test else .restore
    ((c.close k pc).1, some ((c.close k pc).2.elim after .teardown))
  | .restore =>
    ({ c with reconnectAttempts := if answer = .yes then 0 else c.reconnectAttempts }, some .test)
  | .test =>
    (c, some (if o.autoReconnect ∧ c.reconnectAttempts < o.maxReconnectAttempts then .schedule
      else .giveUp))
  | .schedule => ({ c with state := .reconnecting }, some .count)
  | .count =>
    ({ c with
      reconnectAttempts := c.reconnectAttempts + 1
      spent := if lost then gen :: c.spent else c.spent }, some .arm)
  | .arm =>
    ({ c with
      timers := c.timers ++ [{ gen }]
      reconnectTimer := some c.timers.length }, some .launch)
  | .launch => (c.launch gen, none)
  | .giveUp => ({ c with state := .disconnected }, none)

/-! ### Threads -/

/-- `connect()`, or a timer's `do_reconnect`.  `start` is the start of the receive thread, and
`started` the resubscription after it; `lateFailed` is the handler of `connect()` for an
exception of the latter, and `failed` for one that came before. -/
inductive DialPc
  | check
  | mark
  | dialing
  | opened
  | attach
  | connected
  | clear
  | start
  | started
  | lateFailed
  | closing (pc : ClosePc)
  | failed
  | raised
  | dropping (pc : DropPc)
  | ended
deriving DecidableEq, Repr

/-- A receive loop: its tests of the stop flag and of the connection, the look-up of what it
reads from, the read itself, and the handling of an event of socket `i`. -/
inductive ReaderPc
  | head
  | ready
  | recv
  | reading (i : ℕ)
  | received (i : ℕ)
  | handling (i : ℕ)
  | dispatching (i : ℕ)
  | caught (clean : Bool)
  | closing (pc : ClosePc)
  | closed
  | dropping (pc : DropPc)
  | ended
deriving DecidableEq, Repr

/-- `disconnect()`. -/
inductive StopPc
  | test
  | cancel
  | resetTimer
  | stop
  | closing (pc : ClosePc)
  | state
  | budget
  | ended
deriving DecidableEq, Repr

/-- `gen` counts the sockets that had been opened, the thread's own one included, when the
thread last heard of one. -/
inductive Thread
  | dial (redial : Bool) (gen : ℕ) (pc : DialPc)
  | reader (gen : ℕ) (finished : Bool) (pc : ReaderPc)
  | stopper (pc : StopPc)
deriving DecidableEq, Repr

/-- Where an exception of a dial leads, before the receive thread has started. -/
def Kind.fail (k : Kind) (redial : Bool) : DialPc :=
  match k with
  | .webSocket => if redial then .dropping .clear else .failed
  | .realtimeWs => .failed
  | .realtimeSse => .closing .test

/-- The first test of a receive loop. -/
def Kind.loop (k : Kind) : ReaderPc := if k = .realtimeSse then .ready else .head

namespace Client

variable (k : Kind) (o : Options) (c : Client)

/-- The next step of a dial, and the thread that it starts. -/
def dialStep (redial : Bool) (gen : ℕ) (answer : Answer) :
    DialPc → Option (Client × Thread × Option Thread)
  | .check =>
    if c.state = .connected ∨ c.state = .connecting then
      some (c, .dial redial gen .ended, none)
    else some (c, .dial redial (if redial then gen else c.sockets.length) .mark, none)
  | .mark => some ({ c with state := .connecting }, .dial redial gen .dialing, none)
  | .dialing =>
    if answer = .yes then
      some ({ c with
        conn := some c.sockets.length
        sockets := c.sockets ++ [true] },
        .dial redial (c.sockets.length + 1) (if k = .realtimeSse then .opened else .connected),
        none)
    else some (c, .dial redial gen (k.fail redial), none)
  -- the status of the response, and then its bytes: both ask `_sse_response`
  | .opened =>
    some (c, .dial redial gen (if c.conn.isSome ∧ answer = .yes then .attach else .closing .test),
      none)
  | .attach =>
    match c.conn with
    | none => some (c, .dial redial gen (.closing .test), none)
    | some i => some ({ c with stream := some i }, .dial redial gen .connected, none)
  | .connected => some ({ c with state := .connected }, .dial redial gen .clear, none)
  | .clear => some ({ c with stopEvent := false }, .dial redial gen .start, none)
  | .start => some (c, .dial redial gen .started, some (.reader gen false k.loop))
  | .started =>
    if answer = .yes then some (c, .dial redial gen .ended, none)
    else if k = .realtimeSse then none
    else some (c, .dial redial gen (if redial then k.fail redial else .lateFailed), none)
  | .lateFailed => some ({ c with state := .disconnected }, .dial redial gen .ended, none)
  | .closing pc =>
    some ((c.close k pc).1, .dial redial gen ((c.close k pc).2.elim .failed .closing), none)
  | .failed =>
    some ({ c with state := .disconnected }, .dial redial gen (if redial then .raised else .ended),
      none)
  -- a final `SpooledError` makes the client give up; what a socket raises is none
  | .raised =>
    some (c, .dial redial gen
      (.dropping (if k = .realtimeSse ∧ answer ≠ .yes then .giveUp else k.handleDisconnect)), none)
  | .dropping pc =>
    let dropped := c.drop k o gen false answer pc
    some (dropped.1, .dial redial gen (dropped.2.elim .ended .dropping), none)
  | .ended => none

/-- The next step of a receive loop.  A read brings an event, times out, raises, or finds the end
of the stream; an event is dispatched, dropped, or raises, and the one dispatched may be the
last of its job. -/
def readerStep (gen : ℕ) (finished : Bool) (answer : Answer) :
    ReaderPc → Option (Client × Thread × Option Thread)
  | .head => some (c, .reader gen finished (if c.stopEvent then .ended else .ready), none)
  | .ready =>
    let source := if k = .realtimeSse then c.stream else c.conn
    some (c, .reader gen finished (if source.isSome then .recv else .ended), none)
  | .recv =>
    match if k = .realtimeSse then c.stream else c.conn with
    | none => some (c, .reader gen finished (.caught false), none)
    | some i => some (c, .reader gen finished (.reading i), none)
  | .reading i =>
    match answer with
    | .yes =>
      some (c, .reader gen finished (if k = .realtimeSse then .received i else .handling i), none)
    | .no => if k = .realtimeSse then none else some (c, .reader gen finished .head, none)
    | .raised =>
      -- `recv` raises when the socket is closed, the parser of a stream at any time
      if k = .realtimeSse ∨ c.sockets[i]? ≠ some true then
        some (c, .reader gen finished (.caught false), none)
      else none
    | .last =>
      if k = .realtimeSse ∧ c.sockets[i]? ≠ some true then
        some (c, .reader gen finished (.caught true), none)
      else none
  | .received i =>
    some (c, .reader gen finished (if c.stopEvent then .ended else .handling i), none)
  | .handling i =>
    match answer with
    | .yes | .last =>
      some ({ c with
        reconnectAttempts := if k = .realtimeSse then 0 else c.reconnectAttempts },
        .reader gen finished (.dispatching i), none)
    | .no =>
      some (c, .reader gen finished (if k = .realtimeSse then .reading i else .head), none)
    | .raised =>
      some (c, .reader gen finished (if k = .realtimeWs then .ended else .caught false), none)
  | .dispatching i =>
    match answer with
    | .yes | .no | .last =>
      some ({ c with delivered := c.delivered + 1 },
        .reader gen (finished || answer = .last)
          (if k = .realtimeSse then .reading i else .head), none)
    | .raised =>
      some (c, .reader gen finished (if k = .realtimeWs then .ended else .caught false), none)
  | .caught clean =>
    some (c, .reader gen finished
      (if c.stopEvent then .ended
        else if clean ∧ finished then .closing .test else .dropping k.handleDisconnect), none)
  | .closing pc =>
    some ((c.close k pc).1, .reader gen finished ((c.close k pc).2.elim .closed .closing), none)
  | .closed => some ({ c with state := .disconnected }, .reader gen finished .ended, none)
  | .dropping pc =>
    let dropped := c.drop k o gen true answer pc
    some (dropped.1, .reader gen finished (dropped.2.elim .ended .dropping), none)
  | .ended => none

/-- `Timer.cancel()`. -/
def cancelTimer (t : ℕ) : Client :=
  if c.timers[t]?.any fun timer => timer.state = .fired then c
  else { c with timers := c.timers.modify t fun timer => { timer with state := .cancelled } }

/-- The next step of a `disconnect()`. -/
def stopperStep : StopPc → Option (Client × Thread × Option Thread)
  | .test => some (c, .stopper (if c.reconnectTimer.isSome then .cancel else .stop), none)
  | .cancel =>
    match c.reconnectTimer with
    -- another `disconnect()` has taken it away: this one raises an `AttributeError`
    | none => some (c, .stopper .ended, none)
    | some t => some (c.cancelTimer t, .stopper .resetTimer, none)
  | .resetTimer => some ({ c with reconnectTimer := none }, .stopper .stop, none)
  | .stop => some ({ c with stopEvent := true }, .stopper (.closing .test), none)
  | .closing pc =>
    some ((c.close k pc).1, .stopper ((c.close k pc).2.elim .state .closing), none)
  | .state => some ({ c with state := .disconnected }, .stopper .budget, none)
  | .budget => some ({ c with reconnectAttempts := 0 }, .stopper .ended, none)
  | .ended => none

/-- The next step of a thread. -/
def threadStep (answer : Answer) : Thread → Option (Client × Thread × Option Thread)
  | .dial redial gen pc => c.dialStep k o redial gen answer pc
  | .reader gen finished pc => c.readerStep k o gen finished answer pc
  | .stopper pc => c.stopperStep k pc

end Client

/-! ### The whole client -/

structure Session where
  client : Client := {}
  threads : List Thread := []
deriving DecidableEq, Repr

/-- The application calls, the delay of a timer is over, a socket is dropped, a thread goes on. -/
inductive Action
  | connect
  | disconnect
  | fire (t : ℕ)
  | drop (i : ℕ)
  | go (i : ℕ) (answer : Answer)
deriving DecidableEq, Repr

/-- Where `do_reconnect` begins: `SpooledRealtime` calls its `connect()`. -/
def Kind.redial (k : Kind) : DialPc := if k = .webSocket then .dialing else .check

def Session.step (k : Kind) (o : Options) (s : Session) : Action → Option Session
  | .connect => some { s with threads := s.threads ++ [.dial false 0 .check] }
  | .disconnect => some { s with threads := s.threads ++ [.stopper .test] }
  | .fire t =>
    s.client.timers[t]?.bind fun timer =>
      if timer.state = .pending then
        some {
          client := { s.client with
            timers := s.client.timers.set t { timer with state := .fired } }
          threads := s.threads ++ [.dial true timer.gen k.redial] }
      else none
  | .drop i => some { s with client := { s.client with sockets := s.client.sockets.set i false } }
  | .go i answer =>
    s.threads[i]?.bind fun thread =>
      (s.client.threadStep k o answer thread).map fun (c, thread', spawned) =>
        { client := c, threads := s.threads.set i thread' ++ spawned.toList }

def system (k : Kind) (o : Options) : System Session Action where
  init := {}
  step := Session.step k o

end SpooledSdk.Realtime.Threads
