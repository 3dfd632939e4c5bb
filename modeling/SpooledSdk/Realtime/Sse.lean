/-
`SSEClient` and `AsyncSSEClient`: the generator of `events()`, the dials that it makes, and a
`close()` from elsewhere.

The two classes differ in where another party can come in between: a thread anywhere, a task
only where the generator waits.  A stream is what the server will still send on it, event by
event as `_parse_event` hands it on, and how it ends then.
-/
import SpooledSdk.System
import SpooledSdk.Realtime.Events
import Mathlib.Tactic.Common

namespace SpooledSdk.Realtime.Sse

/-- `jobStream` is the truth of `_job_id`; `threads` tells `SSEClient` from `AsyncSSEClient`. -/
structure Options where
  autoReconnect : Bool := true
  maxReconnectAttempts : ℕ := 10
  jobStream : Bool := false
  threads : Bool := true
  deriving DecidableEq

/-- What `_parse_event` makes of one event: an exception, nothing, or an event. -/
abbrev Item := Except PyException (Option RealtimeEvent)

/-- An open stream: what is still to come, and the error that ends it, if one does. -/
structure Stream where
  items : List Item
  error : Option PyException

/-- How the server answers a dial. -/
inductive DialReply
  | failed (e : PyException)
  | accepted (stream : Stream)

/-- Where the generator is.  `_reconnect` is called with the exception that the handler of
`events()` is handling, or from its `try` block. -/
inductive Pc
  | idle
  | connecting (inEvents : Bool)
  | reading
  | delivering (event : RealtimeEvent)
  | yielded
  | sleeping (handling : Option PyException)
  | dialing (handling : Option PyException)
  | returned
  | raised (e : PyException)

/-- `closing` marks a `close()` that has set its flag.  The rest is what an observer counts:
the dials, the redials of this `events()` since its last delivered event, how the last stream
or dial ended, the events read and those delivered, and whether a `close()` has returned since
the application last called. -/
structure SSEClient where
  state : ConnectionState := .disconnected
  reconnectAttempts : ℕ := 0
  closed : Bool := false
  finished : Bool := false
  stream : Option Stream := none
  pc : Pc := .idle
  closing : Bool := false
  dials : ℕ := 0
  redials : ℕ := 0
  lastEnd : Option (Option PyException) := none
  received : List RealtimeEvent := []
  delivered : List RealtimeEvent := []
  shut : Bool := false

inductive Action
  | connect
  | events
  | reply (r : DialReply)
  | read
  | deliver
  | resume
  | wake
  | close
  | closeDone

/-- The generator is not under way. -/
def Pc.atRest : Pc → Bool
  | .idle | .returned | .raised _ => true
  | _ => false

/-- An event has been taken from the stream and not been handed over. -/
def Pc.midDelivery : Pc → Bool
  | .delivering _ => true
  | _ => false

/-- `_reconnect` returned `False`: the `try` block returns, and the handler raises again. -/
def notReconnected : Option PyException → Pc
  | none => .returned
  | some e => .raised e

namespace SSEClient

variable (o : Options)

/-- The guard of the loop in `_reconnect`. -/
def canRetry (s : SSEClient) : Bool :=
  o.autoReconnect && !s.closed && decide (s.reconnectAttempts < o.maxReconnectAttempts)

/-- One turn of that loop, up to its `sleep`.  The delay doubles with each turn, and its power
raises an `OverflowError` of its own in the 1025th.  That is left out: nobody waits for it unless
`reconnect_delay` is zero or next to it. -/
def sleep (s : SSEClient) (handling : Option PyException) : SSEClient :=
  { s with
    reconnectAttempts := s.reconnectAttempts + 1
    state := .reconnecting
    pc := .sleeping handling }

/-- `except Exception as exc` of `events()`. -/
def handle (s : SSEClient) (e : PyException) : SSEClient :=
  if s.closed then { s with pc := .returned }
  else if e.isFinal then { s with pc := .raised e }
  else if s.canRetry o then s.sleep (some e)
  else { s with pc := .raised e }

/-- The stream ended without an error. -/
def streamEnded (s : SSEClient) : SSEClient :=
  if s.finished then
    { s with closed := true, stream := none, state := .disconnected, pc := .returned }
  else if s.closed then { s with pc := .returned }
  else if s.canRetry o then s.sleep none
  else { s with pc := .returned }

/-- `_reopen` raised `e`: the loop goes on, or `_reconnect` raises `e`, in the `try` block into
the handler and in the handler out of the generator. -/
def redialFailed (s : SSEClient) (handling : Option PyException) (e : PyException) : SSEClient :=
  let s' := { s with stream := none, state := .disconnected }
  if !e.isFinal && s'.canRetry o then s'.sleep handling
  else
    match handling with
    | none => s'.handle o e
    | some _ => { s' with pc := .raised e }

/-- `connect()` and the start of `_open`, unless the client is connected. -/
def connectCall (s : SSEClient) (inEvents : Bool) : SSEClient :=
  { s with
    reconnectAttempts := 0
    finished := false
    state := .connecting
    pc := .connecting inEvents
    dials := s.dials + 1 }

/-- The test of the `while` loop of `events()`. -/
def loop (s : SSEClient) : SSEClient :=
  { s with pc := if s.closed then .returned else .reading }

/-- An event was parsed: the budget is restored, and the event goes to the consumer unless
`closes_job_stream` raises. -/
def receive (s : SSEClient) (event : RealtimeEvent) : SSEClient :=
  let s' := { s with reconnectAttempts := 0, received := s.received ++ [event] }
  if o.jobStream then
    match closesJobStream event with
    | none =>
      let e := PyException.other "unhashable type"
      { s' with lastEnd := some (some e) }.handle o e
    | some closes => { s' with finished := s'.finished || closes, pc := .delivering event }
  else { s' with pc := .delivering event }

/-- One turn of the `for` loop over the stream. -/
def readStep (s : SSEClient) : SSEClient :=
  match s.stream with
  | none =>
    let e := PyException.other "the stream has been closed"
    { s with lastEnd := some (some e) }.handle o e
  | some ⟨[], none⟩ => { s with lastEnd := some none }.streamEnded o
  | some ⟨[], some e⟩ => { s with lastEnd := some (some e) }.handle o e
  | some ⟨item :: items, error⟩ =>
    if s.closed then { s with pc := .returned }
    else
      let s' := { s with stream := some ⟨items, error⟩ }
      match item with
      | .error e => { s' with lastEnd := some (some e) }.handle o e
      | .ok none => s'
      | .ok (some event) => s'.receive o event

def step (s : SSEClient) : Action → Option SSEClient
  | .connect =>
    if s.pc.atRest then
      let s' := { s with shut := false }
      some (if s.state = .connected then s' else s'.connectCall false)
    else none
  | .events =>
    if s.pc.atRest then
      let s' := { s with shut := false, redials := 0, lastEnd := none }
      some (if s.stream.isSome || s.state = .connected then s'.loop else s'.connectCall true)
    else none
  | .reply r =>
    match s.pc, r with
    | .connecting inEvents, .accepted stream =>
      let s' := { s with state := .connected, closed := false, stream := some stream }
      some (if inEvents then s'.loop else { s' with pc := .idle })
    | .connecting inEvents, .failed e => some { s with
        stream := none
        state := .disconnected
        lastEnd := some (some e)
        pc := if inEvents then .raised e else .idle }
    | .dialing _, .accepted stream =>
      some ({ s with state := .connected, closed := false, stream := some stream }.loop)
    | .dialing handling, .failed e =>
      some ({ s with lastEnd := some (some e) }.redialFailed o handling e)
    | _, _ => none
  | .read =>
    match s.pc with
    | .reading => some (s.readStep o)
    | _ => none
  | .deliver =>
    match s.pc with
    | .delivering event => some { s with
        delivered := s.delivered ++ [event], redials := 0, pc := .yielded }
    | _ => none
  | .resume =>
    match s.pc with
    | .yielded => some { s with pc := .reading }
    | _ => none
  | .wake =>
    match s.pc with
    | .sleeping handling =>
      some (if s.closed then { s with pc := notReconnected handling }
      else { s with
        stream := none
        state := .connecting
        pc := .dialing handling
        dials := s.dials + 1
        redials := s.redials + 1 })
    | _ => none
  | .close =>
    -- a task comes in only where the generator waits
    if o.threads || !s.pc.midDelivery then
      some { s with closed := true, closing := true }
    else none
  | .closeDone =>
    if s.closing && (o.threads || !s.pc.midDelivery) then
      some { s with stream := none, state := .disconnected, closing := false, shut := true }
    else none

end SSEClient

def system (o : Options) : System SSEClient Action where
  init := {}
  step := SSEClient.step o

end SpooledSdk.Realtime.Sse
