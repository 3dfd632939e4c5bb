/-
Commands over a WebSocket: the subscription table of a client, and what the server of each
socket has made of the commands it received.

The threads of `subscribe`, `unsubscribe`, `connect` and the reconnect path go on one step at a
time, in any order.  Delays and the retry budget are left out: either answer of the budget's
test may come.  An iteration over `_subscriptions` whose keys change under it may go on, raise
or miss entries.
-/
import SpooledSdk.System
import SpooledSdk.Realtime.Events
import SpooledSdk.Realtime.Subscription

namespace SpooledSdk.Realtime.Commands

/-- `WebSocketClient`, `AsyncWebSocketClient`, and `SpooledRealtime` over WebSocket. -/
inductive Client
  | webSocket
  | asyncWebSocket
  | realtime
deriving DecidableEq, Repr

/-- The fields of a command. -/
abbrev Wire := Option String × Option String

inductive Verb
  | subscribe
  | unsubscribe
deriving DecidableEq, Repr

/-- A socket, with the filters its server holds. -/
structure Socket where
  server : List Wire := []
  alive : Bool := true
deriving DecidableEq, Repr

/-- The server receives a command. -/
def Socket.receive (socket : Socket) (verb : Verb) (wire : Wire) : Socket :=
  match verb with
  | .subscribe => { socket with server := wire :: socket.server }
  | .unsubscribe => { socket with server := socket.server.filter fun w => w ≠ wire }

/-- Where a `subscribe` or `unsubscribe` call stands: its look at the table, the change of the
table, the look at the state, the command. -/
inductive CallPc
  | lookup
  | change
  | check
  | send
  | ended
deriving DecidableEq, Repr

structure Call where
  verb : Verb
  filter : SubscriptionFilter
  pc : CallPc := .lookup
deriving DecidableEq, Repr

/-- Where a dial stands: on the wire, with `_ws` set, with the state set, and inside
`_resubscribe_all`, before and after it has fetched the next filter. -/
inductive DialPc
  | dialing
  | opened
  | connected
  | iterating (todo : List SubscriptionFilter)
  | sending (filter : SubscriptionFilter) (todo : List SubscriptionFilter)
  | failed
  | ended
deriving DecidableEq, Repr

/-- A dial of `connect()` or of the reconnect path; `changed` records that the keys of the
table have changed since its iteration began. -/
structure Dial where
  redial : Bool
  socket : Option ℕ := none
  pc : DialPc := .dialing
  changed : Bool := false
deriving DecidableEq, Repr

/-- `timers` counts the redials that wait for their delay, and `dropping` the calls of
`_handle_disconnect` that have not set the state yet. -/
structure WebSocketClient where
  state : ConnectionState := .disconnected
  ws : Option ℕ := none
  subscriptions : Subscriptions := .empty
  sockets : List Socket := []
  calls : List Call := []
  dials : List Dial := []
  timers : ℕ := 0
  dropping : ℕ := 0

/-- The dial is inside its iteration over the table. -/
def Dial.iterates (dial : Dial) : Bool :=
  match dial.pc with
  | .iterating _ | .sending _ _ => true
  | _ => false

/-- The keys of the table change. -/
def Dial.disturb (dial : Dial) : Dial := { dial with changed := dial.changed || dial.iterates }

namespace WebSocketClient

def setCall (s : WebSocketClient) (i : ℕ) (call : Call) (pc : CallPc) : WebSocketClient :=
  { s with calls := s.calls.set i { call with pc } }

def setDial (s : WebSocketClient) (d : ℕ) (dial : Dial) (pc : DialPc) : WebSocketClient :=
  { s with dials := s.dials.set d { dial with pc } }

/-- `_send_command`, or `_send_ws_command`: the sockets after it, or `none` where it raises. -/
def send (c : Client) (s : WebSocketClient) (verb : Verb) (filter : SubscriptionFilter) :
    Option (List Socket) :=
  match s.ws with
  | none => if c = .realtime then some s.sockets else none
  | some i =>
    if c ≠ .realtime ∧ s.state ≠ .connected then none
    else
      s.sockets[i]?.bind fun socket =>
        if socket.alive then some (s.sockets.set i (socket.receive verb filter.wire)) else none

/-- The table, and the iterations over it, after `subscribe` has stored its filter, or
`unsubscribe` has deleted it. -/
def change (s : WebSocketClient) (i : ℕ) (call : Call) : WebSocketClient :=
  let known := (s.subscriptions.get? call.filter).isSome
  match call.verb with
  | .subscribe =>
    { s.setCall i call .check with
      subscriptions := s.subscriptions.insert call.filter call.filter
      dials := if known then s.dials else s.dials.map Dial.disturb }
  -- another thread has deleted it: `KeyError`
  | .unsubscribe =>
    if known then
      { s.setCall i call .check with
        subscriptions := s.subscriptions.erase call.filter
        dials := s.dials.map Dial.disturb }
    else s.setCall i call .ended

/-- The next step of a `subscribe` or `unsubscribe` call. -/
def goCall (c : Client) (s : WebSocketClient) (i : ℕ) (call : Call) : Option WebSocketClient :=
  match call.pc with
  | .lookup =>
    let known := (s.subscriptions.get? call.filter).isSome
    some (s.setCall i call (if known = decide (call.verb = .unsubscribe) then .change else .ended))
  | .change => some (s.change i call)
  | .check =>
    let sends := s.state = .connected ∧
      ¬ (c = .realtime ∧ call.verb = .subscribe ∧ s.ws = none)
    some (s.setCall i call (if sends then .send else .ended))
  | .send =>
    some { s.setCall i call .ended with
      sockets := (s.send c call.verb call.filter).getD s.sockets }
  | .ended => none

/-- An exception leaves the dial: `connect()` gives up, and the reconnect path goes to
`_handle_disconnect`, except that of the asynchronous client. -/
def fail (c : Client) (s : WebSocketClient) (d : ℕ) (dial : Dial) : WebSocketClient :=
  if dial.redial then
    match c with
    | .webSocket => { s.setDial d dial .ended with ws := none, dropping := s.dropping + 1 }
    | .asyncWebSocket => s.setDial d dial .ended
    | .realtime => { s.setDial d dial .failed with state := .disconnected }
  else { s.setDial d dial .ended with state := .disconnected }

/-- A dial is answered. -/
def dialed (c : Client) (s : WebSocketClient) (d : ℕ) (dial : Dial) (ok : Bool) : WebSocketClient :=
  if ok then
    { s with
      ws := some s.sockets.length
      sockets := s.sockets ++ [{}]
      dials := s.dials.set d { dial with socket := some s.sockets.length, pc := .opened } }
  else s.fail c d dial

/-- The next step of a dial. -/
def goDial (c : Client) (s : WebSocketClient) (d : ℕ) (dial : Dial) : Option WebSocketClient :=
  match dial.pc with
  | .opened => some { s.setDial d dial .connected with state := .connected }
  | .connected =>
    some (s.setDial d { dial with changed := false } (.iterating s.subscriptions.values))
  | .iterating [] => some (s.setDial d dial .ended)
  | .iterating (filter :: todo) => some (s.setDial d dial (.sending filter todo))
  | .sending filter todo =>
    match s.send c .subscribe filter with
    | some sockets => some { s.setDial d dial (.iterating todo) with sockets }
    -- the loop of `SpooledRealtime` has no handler of its own
    | none => some (if c = .realtime then s.fail c d dial else s.setDial d dial (.iterating todo))
  | .failed => some { s.setDial d dial .ended with ws := none, dropping := s.dropping + 1 }
  | _ => none

end WebSocketClient

/-- What happens to a client: the application calls, a call or a dial makes its next step, an
iteration over a changed table raises or ends early, a socket dies, its reader notices,
`_handle_disconnect` sets the state, a redial's delay is over. -/
inductive Action
  | call (verb : Verb) (filter : SubscriptionFilter)
  | goCall (i : ℕ)
  | connect
  | fire
  | dialed (d : ℕ) (ok : Bool)
  | goDial (d : ℕ)
  | cutShort (d : ℕ) (raises : Bool)
  | drop (i : ℕ)
  | lose
  | settle (again : Bool)
deriving DecidableEq, Repr

namespace WebSocketClient

/-- The socket that `_ws` refers to is dead. -/
def currentDead (s : WebSocketClient) : Bool :=
  s.ws.any fun i => s.sockets[i]?.any fun socket => !socket.alive

def step (c : Client) (s : WebSocketClient) : Action → Option WebSocketClient
  | .call verb filter => some { s with calls := s.calls ++ [{ verb, filter }] }
  | .goCall i => s.calls[i]?.bind (s.goCall c i)
  | .connect =>
    if s.state = .connected ∨ s.state = .connecting then some s
    else some { s with state := .connecting, dials := s.dials ++ [{ redial := false }] }
  | .fire =>
    if s.timers = 0 then none
    else if c = .realtime then
      if s.state = .connected ∨ s.state = .connecting then some { s with timers := s.timers - 1 }
      else
        some { s with
          timers := s.timers - 1
          state := .connecting
          dials := s.dials ++ [{ redial := true }] }
    else some { s with timers := s.timers - 1, dials := s.dials ++ [{ redial := true }] }
  | .dialed d ok =>
    s.dials[d]?.bind fun dial =>
      if dial.pc = .dialing then some (s.dialed c d dial ok) else none
  | .goDial d => s.dials[d]?.bind (s.goDial c d)
  | .cutShort d raises =>
    s.dials[d]?.bind fun dial =>
      match dial.pc with
      | .iterating _ =>
        if dial.changed then some (if raises then s.fail c d dial else s.setDial d dial .ended)
        else none
      | _ => none
  | .drop i =>
    s.sockets[i]?.map fun socket =>
      { s with sockets := s.sockets.set i { socket with alive := false } }
  | .lose =>
    if s.state = .connected ∧ s.currentDead then
      some { s with
        ws := if c = .asyncWebSocket then s.ws else none
        dropping := s.dropping + 1 }
    else none
  | .settle again =>
    if s.dropping = 0 then none
    else
      some { s with
        dropping := s.dropping - 1
        state := if again then .reconnecting else .disconnected
        timers := s.timers + again.toNat }

/-- The wire images of the filters in `_subscriptions`. -/
def images (s : WebSocketClient) : List Wire := s.subscriptions.values.map SubscriptionFilter.wire

/-- While the state is CONNECTED, the socket lives, its resubscribe loop has ended and no call
is in progress, the server's filters are the images of the client's. -/
def Agrees (s : WebSocketClient) : Prop :=
  s.state = .connected → (∀ call ∈ s.calls, call.pc = .ended) →
    ∀ i socket, s.ws = some i → s.sockets[i]? = some socket → socket.alive = true →
      (∀ dial ∈ s.dials, dial.socket = some i → dial.pc = .ended) →
      ∀ w, w ∈ socket.server ↔ w ∈ s.images

/-- The current socket lives. -/
def live (s : WebSocketClient) : Bool :=
  s.ws.any fun i => s.sockets[i]?.any Socket.alive

end WebSocketClient

def system (c : Client) : System WebSocketClient Action where
  init := {}
  step := WebSocketClient.step c

/-- The table keeps still under an iteration, a command that reaches a live socket fits the
table, no dial starts beside another one or its resubscribe loop, and none is answered inside a
`_handle_disconnect`. -/
def Orderly (s : WebSocketClient) : Action → Bool
  | .goCall i =>
    s.calls[i]?.all fun call =>
      match call.pc with
      | .change => s.dials.all fun dial => !dial.iterates
      | .send =>
        !s.live || (s.state = .connected &&
          decide (call.filter.wire ∈ s.images) = decide (call.verb = .subscribe))
      | _ => true
  | .connect | .fire => s.dials.all fun dial => dial.pc = .ended
  | .dialed _ _ => s.dropping = 0
  | _ => true

end SpooledSdk.Realtime.Commands
