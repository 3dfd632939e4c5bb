/-
`SpooledRealtime` over SSE: calls of the application, drops of the stream, and the timers of
`_schedule_reconnect`, one after the other.

Nothing joins the receive thread of a stream that the client has closed: it is left over until it
wakes up and finds the stop flag set, or goes on if a dial has cleared it.  A timer that is
pending when another one is scheduled stays pending, but `disconnect()` no longer knows it: it is
a stray timer.
-/
import SpooledSdk.Realtime.Sse
import SpooledSdk.Realtime.Subscription

namespace SpooledSdk.Realtime.Unified

open Sse (Item Stream DialReply)

structure Options where
  baseUrl : String
  autoReconnect : Bool := true
  maxReconnectAttempts : ℕ := 10

/-- What the last stream was opened for, and whether the application has unsubscribed that
since. -/
structure Opened where
  url : String
  filter : Option SubscriptionFilter
  unsubscribed : Bool := false

/-- The stream was opened for a filter that the application has not unsubscribed. -/
def Opened.wanted (opened : Opened) : Bool :=
  opened.filter.isSome && !opened.unsubscribed

def Opened.unsubscribe (opened : Opened) (filter : SubscriptionFilter) : Opened :=
  if opened.filter = some filter then { opened with unsubscribed := true } else opened

/-- A receive thread: what its stream still carries, and its local variable `finished`. -/
structure Reader where
  stream : Stream
  finished : Bool

/-- `finished` is the local variable of the receive loop of the last stream, and `leftover` lists
the threads of those that were closed before.  `dialed` lists the URLs of all dials, and
`delivered` what `_dispatch_event` handed over. -/
structure SpooledRealtime where
  state : ConnectionState := .disconnected
  stopEvent : Bool := false
  leftover : List Reader := []
  reconnectAttempts : ℕ := 0
  reconnectTimer : Bool := false
  strayTimers : ℕ := 0
  subscriptions : Subscriptions := Dict.empty
  sseResponse : Option Stream := none
  sseJobStream : Bool := false
  finished : Bool := false
  lastError : Option PyException := none
  dialed : List String := []
  opened : Option Opened := none
  delivered : List RealtimeEvent := []

/-- A call that may open a stream carries what the server answers; `late` is a turn of a thread
that is left over, whose read may raise because its response is closed. -/
inductive Action
  | connect (filter : Option SubscriptionFilter) (reply : DialReply)
  | disconnect
  | reconnect (filter : Option SubscriptionFilter) (reply : DialReply)
  | subscribe (filter : SubscriptionFilter) (reply : DialReply)
  | unsubscribe (filter : SubscriptionFilter)
  | read
  | late (i : ℕ) (closed : Bool)
  | fire (reply : DialReply)
  | fireStray (reply : DialReply)

namespace SpooledRealtime

variable (o : Options)

/-- `_connect_sse`, and what it raises. -/
def connectSse (s : SpooledRealtime) (filter : Option SubscriptionFilter) (reply : DialReply) :
    SpooledRealtime × Option PyException :=
  let url := buildSseUrl o.baseUrl s.subscriptions filter
  let s' := { s with dialed := s.dialed ++ [url] }
  match reply with
  | .accepted stream => ({ s' with
      sseResponse := some stream
      sseJobStream := isJobStream url
      state := .connected
      stopEvent := false
      finished := false
      opened := some { url, filter := effective s.subscriptions filter } }, none)
  | .failed e => ({ s' with sseResponse := none, state := .disconnected }, some e)

def connect (s : SpooledRealtime) (filter : Option SubscriptionFilter) (reply : DialReply) :
    SpooledRealtime × Option PyException :=
  if s.state = .connected ∨ s.state = .connecting then (s, none)
  else { s with state := .connecting }.connectSse o filter reply

/-- `_disconnect_sse`; a thread that reads the stream is left over. -/
def disconnectSse (s : SpooledRealtime) : SpooledRealtime :=
  { s with
    sseResponse := none
    leftover := s.leftover ++ (s.sseResponse.map (Reader.mk · s.finished)).toList }

def disconnect (s : SpooledRealtime) : SpooledRealtime :=
  { s.disconnectSse with
    reconnectTimer := false
    stopEvent := true
    state := .disconnected
    reconnectAttempts := 0 }

def reconnect (s : SpooledRealtime) (filter : Option SubscriptionFilter) (reply : DialReply) :
    SpooledRealtime × Option PyException :=
  s.disconnect.connect o filter reply

/-- `subscribe` of a filter that is new puts it at the end. -/
def subscribe (s : SpooledRealtime) (filter : SubscriptionFilter) (reply : DialReply) :
    SpooledRealtime :=
  if (s.subscriptions.get? filter).isSome then s
  else
    let s' := { s with subscriptions := s.subscriptions.insert filter filter }
    if s.state = .connected then (s'.reconnect o (some filter) reply).1 else s'

def unsubscribe (s : SpooledRealtime) (filter : SubscriptionFilter) : SpooledRealtime :=
  let s' := { s with opened := s.opened.map (·.unsubscribe filter) }
  if (s.subscriptions.get? filter).isSome then
    { s' with subscriptions := s.subscriptions.erase filter }
  else s'

/-- `_schedule_reconnect`, where the power of the delay does not overflow: in the 1025th redial
of one outage it would raise, and no timer is set. -/
def scheduleReconnect (s : SpooledRealtime) : SpooledRealtime :=
  { s with
    state := .reconnecting
    reconnectAttempts := s.reconnectAttempts + 1
    strayTimers := s.strayTimers + s.reconnectTimer.toNat
    reconnectTimer := true }

/-- The test of `_handle_disconnect`. -/
def canReconnect (s : SpooledRealtime) : Bool :=
  o.autoReconnect && decide (s.reconnectAttempts < o.maxReconnectAttempts)

/-- `_handle_disconnect`. -/
def handleDisconnect (s : SpooledRealtime) : SpooledRealtime :=
  let s' := s.disconnectSse
  if s'.canReconnect o then s'.scheduleReconnect else { s' with state := .disconnected }

/-- `_give_up`; the `error` event that tells the application is not one of the server's. -/
def giveUp (s : SpooledRealtime) (e : PyException) : SpooledRealtime :=
  { s with lastError := some e, state := .disconnected }

/-- `do_reconnect` of a timer. -/
def doReconnect (s : SpooledRealtime) (reply : DialReply) : SpooledRealtime :=
  match s.connect o none reply with
  | (s', none) => s'
  | (s', some e) => if e.isFinal then s'.giveUp e else s'.handleDisconnect o

/-- The thread of the open stream, which ends here, comes to `_handle_disconnect`. -/
def drop (s : SpooledRealtime) : SpooledRealtime :=
  { s with sseResponse := none }.handleDisconnect o

/-- An event was parsed: the budget is restored, and the event is dispatched unless
`closes_job_stream` raises. -/
def receive (s : SpooledRealtime) (event : RealtimeEvent) : SpooledRealtime :=
  let s' := { s with reconnectAttempts := 0 }
  if s.sseJobStream then
    match closesJobStream event with
    | none => s'.drop o
    | some closes => { s' with
        finished := s.finished || closes, delivered := s.delivered ++ [event] }
  else { s' with delivered := s.delivered ++ [event] }

/-- One turn of the receive loop. -/
def readStep (s : SpooledRealtime) (stream : Stream) : SpooledRealtime :=
  match stream with
  | ⟨[], none⟩ =>
    if s.finished then { s with sseResponse := none, state := .disconnected }
    else s.drop o
  | ⟨[], some _⟩ => s.drop o
  | ⟨item :: items, error⟩ =>
    let s' := { s with sseResponse := some ⟨items, error⟩ }
    match item with
    | .error _ => s'.drop o
    | .ok none => s'
    | .ok (some event) => s'.receive o event

/-- One turn of the receive loop on a thread that is left over and finds the stop flag unset.  It
shares the fields of the client with the thread of the open stream, and closes that stream. -/
def lateStep (s : SpooledRealtime) (i : ℕ) (reader : Reader) (closed : Bool) : SpooledRealtime :=
  let ended := { s with leftover := s.leftover.eraseIdx i }
  match closed, reader.stream with
  | true, _ => ended.handleDisconnect o
  | false, ⟨[], none⟩ =>
    if reader.finished then { ended.disconnectSse with state := .disconnected }
    else ended.handleDisconnect o
  | false, ⟨[], some _⟩ => ended.handleDisconnect o
  | false, ⟨item :: items, error⟩ =>
    let on (finished : Bool) : SpooledRealtime :=
      { s with leftover := s.leftover.set i ⟨⟨items, error⟩, finished⟩ }
    match item with
    | .error _ => ended.handleDisconnect o
    | .ok none => on reader.finished
    | .ok (some event) =>
      match if s.sseJobStream then closesJobStream event else some false with
      | none => { ended with reconnectAttempts := 0 }.handleDisconnect o
      | some closes => { on (reader.finished || closes) with
          reconnectAttempts := 0, delivered := s.delivered ++ [event] }

def step (s : SpooledRealtime) : Action → Option SpooledRealtime
  | .connect filter reply => some (s.connect o filter reply).1
  | .disconnect => some s.disconnect
  | .reconnect filter reply => some (s.reconnect o filter reply).1
  | .subscribe filter reply => some (s.subscribe o filter reply)
  | .unsubscribe filter => some (s.unsubscribe filter)
  | .read => s.sseResponse.map (s.readStep o)
  | .late i closed => s.leftover[i]?.map fun reader =>
    if s.stopEvent then { s with leftover := s.leftover.eraseIdx i }
    else s.lateStep o i reader closed
  | .fire reply =>
    if s.reconnectTimer then some ({ s with reconnectTimer := false }.doReconnect o reply)
    else none
  | .fireStray reply =>
    if 0 < s.strayTimers then
      some ({ s with strayTimers := s.strayTimers - 1 }.doReconnect o reply)
    else none

end SpooledRealtime

def system (o : Options) : System SpooledRealtime Action where
  init := {}
  step := SpooledRealtime.step o

end SpooledSdk.Realtime.Unified
