/-
The tasks of `AsyncWebSocketClient`: calls of `connect()`, `events()` and `disconnect()`.

A task gives way only where it waits: for a dial, for the subscribe commands, for a message, for
the delay of a reconnect, for a socket to close.  Whatever is between two of these is one step.
-/
import SpooledSdk.Realtime.Threads
import SpooledSdk.Registry

namespace SpooledSdk.Realtime.Tasks

/-- `sockets` says of every socket that was opened whether it is still open, and `delivered`
counts the events that were handed to handlers and consumers. -/
structure Client where
  state : ConnectionState := .disconnected
  ws : Option ℕ := none
  reconnectAttempts : ℕ := 0
  sockets : List Bool := []
  delivered : ℕ := 0
deriving DecidableEq, Repr

inductive ConnectPc
  | dialing
  | resubscribing
  | ended
deriving DecidableEq, Repr

/-- A generator reads from socket `i`, or has handed an event of it over. -/
inductive EventsPc
  | reading (i : ℕ)
  | yielded (i : ℕ)
  | sleeping
  | dialing
  | resubscribing
  | ended
deriving DecidableEq, Repr

inductive DisconnectPc
  | closing (i : ℕ)
  | closed
  | ended
deriving DecidableEq, Repr

inductive Task
  | connect (pc : ConnectPc)
  | events (pc : EventsPc)
  | disconnect (pc : DisconnectPc)
deriving DecidableEq, Repr

/-- What a waiting task hears.  `stable` says that the socket had been up for long. -/
inductive Answer
  | yes
  | no
  | raised (stable : Bool)
  | last
deriving DecidableEq, Repr

namespace Client

variable (o : Threads.Options) (c : Client)

/-- A dial that succeeds. -/
def opened : Client :=
  { c with
    ws := some c.sockets.length
    state := .connected
    sockets := c.sockets ++ [true] }

/-- `connect()`, up to its dial. -/
def connect : Client × ConnectPc :=
  if c.state = .connected ∨ c.state = .connecting then (c, .ended)
  else ({ c with state := .connecting }, .dialing)

def connectStep (answer : Answer) : ConnectPc → Option (Client × ConnectPc)
  | .dialing =>
    if answer = .yes then some (c.opened, .resubscribing)
    else some ({ c with state := .disconnected }, .ended)
  -- a command that cannot be sent raises, and the socket stays open
  | .resubscribing =>
    if answer = .yes then some (c, .ended) else some ({ c with state := .disconnected }, .ended)
  | .ended => none

/-- `_reset_budget_if_stable` -/
def resetBudgetIfStable (stable : Bool) : Client :=
  { c with reconnectAttempts := if stable then 0 else c.reconnectAttempts }

/-- `except Exception` of `events()`, up to the delay of `_do_reconnect`. -/
def handleError : Client × EventsPc :=
  if ¬ o.autoReconnect ∨ o.maxReconnectAttempts ≤ c.reconnectAttempts then
    ({ c with state := .disconnected }, .ended)
  else
    ({ c with state := .reconnecting, reconnectAttempts := c.reconnectAttempts + 1 }, .sleeping)

/-- `events()`, up to its first message. -/
def events : EventsPc := c.ws.elim .ended .reading

def eventsStep (answer : Answer) : EventsPc → Option (Client × EventsPc)
  | .reading i =>
    match answer with
    | .yes => some ({ c with delivered := c.delivered + 1 }, .yielded i)
    | .no => some (c, .reading i)
    | .raised stable => some ((c.resetBudgetIfStable stable).handleError o)
    -- the `async for` ends only over a socket that is closed
    | .last => if c.sockets[i]? = some true then none else some (c, .ended)
  | .yielded i => some (c, .reading i)
  | .sleeping => some (c, .dialing)
  -- a redial that fails leaves the generator: the state stays RECONNECTING
  | .dialing => if answer = .yes then some (c.opened, .resubscribing) else some (c, .ended)
  | .resubscribing =>
    if answer = .yes then
      match c.ws with
      | some i => some (c, .reading i)
      -- `async for` over `None` raises; the time of the last socket is forgotten with it
      | none => some (c.handleError o)
    else some (c, .ended)
  | .ended => none

/-- The end of `disconnect()`. -/
def disconnected : Client :=
  { c with ws := none, state := .disconnected, reconnectAttempts := 0 }

/-- `disconnect()`, up to the closing of the socket. -/
def disconnect : Client × DisconnectPc :=
  match c.ws with
  | some i => (c, .closing i)
  | none => (c.disconnected, .ended)

def disconnectStep : DisconnectPc → Option (Client × DisconnectPc)
  | .closing i => some ({ c with sockets := c.sockets.set i false }, .closed)
  -- whatever `_ws` is by now, it is dropped without being closed
  | .closed => some (c.disconnected, .ended)
  | .ended => none

/-- The next step of a task. -/
def taskStep (answer : Answer) : Task → Option (Client × Task)
  | .connect pc => (c.connectStep answer pc).map (Prod.map id .connect)
  | .events pc => (c.eventsStep o answer pc).map (Prod.map id .events)
  | .disconnect pc => (c.disconnectStep pc).map (Prod.map id .disconnect)

end Client

structure AsyncWebSocketClient where
  client : Client := {}
  tasks : List Task := []
deriving DecidableEq, Repr

/-- The application calls, a socket is dropped, a task goes on. -/
inductive Action
  | connect
  | events
  | disconnect
  | drop (i : ℕ)
  | go (i : ℕ) (answer : Answer)
deriving DecidableEq, Repr

def step (o : Threads.Options) (s : AsyncWebSocketClient) : Action → Option AsyncWebSocketClient
  | .connect =>
    some { client := s.client.connect.1, tasks := s.tasks ++ [.connect s.client.connect.2] }
  | .events => some { s with tasks := s.tasks ++ [.events s.client.events] }
  | .disconnect =>
    some { client := s.client.disconnect.1
           tasks := s.tasks ++ [.disconnect s.client.disconnect.2] }
  | .drop i => some { s with client := { s.client with sockets := s.client.sockets.set i false } }
  | .go i answer =>
    s.tasks[i]?.bind fun task =>
      (s.client.taskStep o answer task).map fun (c, task') =>
        { client := c, tasks := s.tasks.set i task' }

def system (o : Threads.Options) : System AsyncWebSocketClient Action where
  init := {}
  step := step o

/-! ### A call of `disconnect()` -/

/-- The task is not about to dial. -/
def Task.calm : Task → Bool
  | .connect .dialing | .events .sleeping | .events .dialing | .events .resubscribing => false
  | _ => true

/-- A generator that hears `answer` once the client has no socket hands over no event, and does
not reconnect. -/
def unheard (o : Threads.Options) (c : Client) : Answer → Bool
  | .yes => false
  | .raised stable =>
    !o.autoReconnect || decide (o.maxReconnectAttempts ≤ if stable then 0 else c.reconnectAttempts)
  | .no | .last => true

/-- `disconnect()` returns when no task is about to dial, and from then on the generators that
still read from the old socket hear of its end. -/
def Undisturbed (o : Threads.Options) (s : AsyncWebSocketClient) : Action → Bool
  | .disconnect => s.client.ws.isSome || s.tasks.all Task.calm
  | .go i answer =>
    match s.tasks[i]? with
    | some (.disconnect .closed) => s.tasks.all Task.calm
    | some (.events (.reading _)) => s.client.ws.isSome || unheard o s.client answer
    | _ => true
  | _ => true

/-- The step by which a `disconnect()` returns. -/
def Returns (s : AsyncWebSocketClient) : Action → Prop
  | .disconnect => s.client.ws = none
  | .go i _ => s.tasks[i]? = some (.disconnect .closed)
  | _ => False

/-- The application calls `connect()` or `events()`. -/
def Asks (_ : AsyncWebSocketClient) (a : Action) : Prop := a = .connect ∨ a = .events

/-- The state is not CONNECTED, the client has no socket, none has been opened, and no event has
been delivered. -/
structure Silent (s₀ s : AsyncWebSocketClient) : Prop where
  state : s.client.state ≠ .connected
  ws : s.client.ws = none
  length : s.client.sockets.length = s₀.client.sockets.length
  opened : ∀ i : ℕ, s.client.sockets[i]? = some true → s₀.client.sockets[i]? = some true
  delivered : s.client.delivered = s₀.client.delivered

/-- A client that has been silent since `s₀`, and has no task that is about to dial. -/
structure Resting (s₀ s : AsyncWebSocketClient) : Prop where
  silent : Silent s₀ s
  tasks : ∀ task ∈ s.tasks, task.calm = true

variable {o : Threads.Options} {c c' : Client} {task task' : Task} {answer : Answer}
  {s₀ s s' : AsyncWebSocketClient}

/-- What a step of a calm task leaves as it is, when the client has no socket. -/
structure Still (c c' : Client) : Prop where
  state : c'.state = c.state ∨ c'.state = .disconnected
  ws : c'.ws = none
  length : c'.sockets.length = c.sockets.length
  opened : ∀ i : ℕ, c'.sockets[i]? = some true → c.sockets[i]? = some true
  delivered : c'.delivered = c.delivered

theorem Still.of_same (hws : c.ws = none) : Still c c :=
  ⟨.inl rfl, hws, rfl, fun _ h => h, rfl⟩

theorem Still.of_disconnected (hws : c.ws = none) : Still c { c with state := .disconnected } :=
  ⟨.inr rfl, hws, rfl, fun _ h => h, rfl⟩

theorem still_of_closed (hws : c.ws = none) (i : ℕ) :
    Still c { c with sockets := c.sockets.set i false } := by
  refine { Still.of_same hws with length := List.length_set, opened := fun j hj => ?_ }
  rcases List.getElem?_set_cases hj with ⟨-, hfalse⟩ | ⟨-, hold⟩
  · cases hfalse
  · exact hold

/-- A generator that hears of the end of its socket does not reconnect. -/
theorem still_of_unheard (hws : c.ws = none) {stable : Bool}
    (h : unheard o c (.raised stable) = true) :
    Still c ((c.resetBudgetIfStable stable).handleError o).1 ∧
      ((c.resetBudgetIfStable stable).handleError o).2 = .ended := by
  have hstop : ¬ o.autoReconnect ∨
      o.maxReconnectAttempts ≤ (c.resetBudgetIfStable stable).reconnectAttempts := by
    simp only [unheard, Bool.or_eq_true, Bool.not_eq_true', decide_eq_true_eq] at h
    exact h.imp_left fun hauto => by rw [hauto]; decide
  rw [Client.handleError, if_pos hstop]
  exact ⟨⟨.inr rfl, hws, rfl, fun _ h => h, rfl⟩, rfl⟩

/-- A calm task stays calm and leaves the client still. -/
theorem still_of_step (hcalm : task.calm = true) (hws : c.ws = none)
    (hok : ∀ i, task = .events (.reading i) → unheard o c answer = true)
    (h : c.taskStep o answer task = some (c', task')) : Still c c' ∧ task'.calm = true := by
  cases task with
  | connect pc =>
    obtain ⟨⟨c₁, pc'⟩, hstep, heq⟩ := Option.map_eq_some_iff.mp h
    cases heq
    cases pc with
    | dialing => cases hcalm
    | resubscribing =>
      simp only [Client.connectStep] at hstep
      split at hstep
      · cases hstep
        exact ⟨.of_same hws, rfl⟩
      · cases hstep
        exact ⟨.of_disconnected hws, rfl⟩
    | ended => cases hstep
  | events pc =>
    obtain ⟨⟨c₁, pc'⟩, hstep, heq⟩ := Option.map_eq_some_iff.mp h
    cases heq
    cases pc with
    -- the old socket may still wake a generator
    | reading i =>
      have hunheard := hok i rfl
      cases answer with
      | yes => cases hunheard
      | no =>
        cases hstep
        exact ⟨.of_same hws, rfl⟩
      | raised stable =>
        obtain ⟨hstill, hended⟩ := still_of_unheard hws hunheard
        rw [Option.some.inj hstep] at hstill hended
        obtain rfl : pc' = .ended := hended
        exact ⟨hstill, rfl⟩
      | last =>
        simp only [Client.eventsStep] at hstep
        split at hstep
        · cases hstep
        · cases hstep
          exact ⟨.of_same hws, rfl⟩
    | yielded i =>
      cases hstep
      exact ⟨.of_same hws, rfl⟩
    | sleeping | dialing | resubscribing => cases hcalm
    | ended => cases hstep
  | disconnect pc =>
    obtain ⟨⟨c₁, pc'⟩, hstep, heq⟩ := Option.map_eq_some_iff.mp h
    cases heq
    cases pc with
    | closing i =>
      cases hstep
      exact ⟨still_of_closed hws i, rfl⟩
    | closed =>
      cases hstep
      exact ⟨⟨.inr rfl, rfl, rfl, fun _ h => h, rfl⟩, rfl⟩
    | ended => cases hstep

theorem Silent.still (h : Silent s₀ s) (hs : Still s.client s'.client) : Silent s₀ s' where
  state := by
    rcases hs.state with hsame | hdisc
    · rw [hsame]
      exact h.state
    · rw [hdisc]
      decide
  ws := hs.ws
  length := hs.length.trans h.length
  opened i hi := h.opened i (hs.opened i hi)
  delivered := hs.delivered.trans h.delivered

/-- A client at rest stays at rest until the application asks again. -/
theorem resting_step (h : Resting s₀ s) {a : Action} (hok : Undisturbed o s a = true)
    (hasks : ¬ Asks s a) (hstep : step o s a = some s') : Resting s₀ s' := by
  have hws := h.silent.ws
  cases a with
  | connect => exact absurd (.inl rfl) hasks
  | events => exact absurd (.inr rfl) hasks
  | disconnect =>
    cases hstep
    simp only [Client.disconnect, hws]
    refine ⟨h.silent.still ⟨.inr rfl, rfl, rfl, fun _ h => h, rfl⟩, fun t ht => ?_⟩
    rcases List.mem_append.mp ht with hold | hnew
    · exact h.tasks t hold
    · rw [List.mem_singleton.mp hnew]
      rfl
  | drop i =>
    cases hstep
    exact ⟨h.silent.still (still_of_closed hws i), h.tasks⟩
  | go i answer =>
    obtain ⟨task, hi, hstep⟩ := Option.bind_eq_some_iff.mp hstep
    obtain ⟨⟨c', task'⟩, htask, rfl⟩ := Option.map_eq_some_iff.mp hstep
    obtain ⟨hstill, hcalm⟩ := still_of_step (h.tasks task (List.mem_of_getElem? hi)) hws
      (fun j hj => by simpa [Undisturbed, hi, hj, hws] using hok) htask
    refine ⟨h.silent.still hstill, fun t ht => ?_⟩
    rcases List.mem_or_eq_of_mem_set ht with hold | rfl
    · exact h.tasks t hold
    · exact hcalm

/-- The step by which a `disconnect()` returns leaves the client at rest. -/
theorem resting_of_returns {a : Action} (hok : Undisturbed o s a = true) (hret : Returns s a)
    (hstep : step o s a = some s') : Resting s' s' := by
  cases a with
  | disconnect =>
    have hws : s.client.ws = none := hret
    cases hstep
    simp only [Undisturbed, hws, Option.isSome_none, Bool.false_or, List.all_eq_true] at hok
    simp only [Client.disconnect, hws]
    refine ⟨⟨nofun, rfl, rfl, fun _ h => h, rfl⟩, fun t ht => ?_⟩
    rcases List.mem_append.mp ht with hold | hnew
    · exact hok t hold
    · rw [List.mem_singleton.mp hnew]
      rfl
  | go i answer =>
    have hi : s.tasks[i]? = some (.disconnect .closed) := hret
    simp only [Undisturbed, hi, List.all_eq_true] at hok
    simp only [step, hi, Option.bind_some, Client.taskStep, Client.disconnectStep,
      Option.map_some, Option.some.injEq] at hstep
    subst hstep
    refine ⟨⟨nofun, rfl, rfl, fun _ h => h, rfl⟩, fun t ht => ?_⟩
    rcases List.mem_or_eq_of_mem_set ht with hold | rfl
    · exact hok t hold
    · rfl
  | connect | events | drop => cases hret

end SpooledSdk.Realtime.Tasks
