/-
The generators of `SpooledRealtime.events()`, over the threads of the client.

A generator looks at the stop flag between two events, and only `disconnect()` sets that flag.
A client that gives up, or whose job stream has finished, leaves its generators waiting for
events that nothing will bring; in runs in which nothing of that kind happens to a generator,
none is held by a client that is done (`not_abandoned`).
-/
import SpooledSdk.Realtime.Threads

namespace SpooledSdk.Realtime.Consumers

open Threads

/-- `SpooledRealtime` over either transport. -/
inductive Transport
  | websocket
  | sse
  deriving DecidableEq, Repr

def Transport.kind : Transport → Kind
  | .websocket => .realtimeWs
  | .sse => .realtimeSse

/-- Where a generator is: its look at the state, its `connect()` on thread `i`, the test of the
loop, the wait for an event, the `yield`. -/
inductive Consumer
  | test
  | connecting (i : ℕ)
  | head
  | getting
  | yielded
  | ended
  deriving DecidableEq, Repr

/-- `queue` is the number of buffered events, once there is an `_event_queue`. -/
structure SpooledRealtime where
  session : Session := {}
  queue : Option ℕ := none
  consumers : List Consumer := []
  deriving DecidableEq, Repr

/-- A thread of the client goes on, `events()` is called, a generator goes on, or is dropped. -/
inductive Action
  | client (a : Threads.Action)
  | events
  | consume (j : ℕ)
  | abandon (j : ℕ)

/-- `_dispatch_event` puts an event, dropping the oldest of ten thousand. -/
def put (queue : Option ℕ) : Option ℕ := queue.map fun n => min (n + 1) 10000

/-- Whether a step dispatches an event: one that was received, or the error of a `_give_up`,
which only a stream comes to, and which is told from the other end of a `_handle_disconnect` by
the answer. -/
def dispatches (k : Kind) (s s' : Session) : Threads.Action → Bool
  | .go i answer =>
    decide (s.client.delivered < s'.client.delivered) ||
      match s.threads[i]? with
      | some (.dial _ _ (.dropping .giveUp)) => k = .realtimeSse && answer = .yes
      | _ => false
  | _ => false

/-- A generator whose `connect()` has come back goes on with its loop, or raises. -/
def resumed (threads threads' : List Thread) : Consumer → Consumer
  | .connecting i =>
    match threads[i]?, threads'[i]? with
    | some (.dial _ _ .check), some (.dial _ _ .ended) => .head
    | some (.dial _ _ .started), some (.dial _ _ .ended) => .head
    | _, some (.dial _ _ .ended) => .ended
    | _, _ => .connecting i
  | c => c

def step (k : Kind) (o : Options) (s : SpooledRealtime) : Action → Option SpooledRealtime
  | .client a =>
    (s.session.step k o a).map fun session =>
      { session
        queue := if dispatches k s.session session a then put s.queue else s.queue
        consumers := s.consumers.map (resumed s.session.threads session.threads) }
  | .events => some { s with queue := some (s.queue.getD 0), consumers := s.consumers ++ [.test] }
  | .consume j =>
    s.consumers[j]?.bind fun
      | .test =>
        if s.session.client.state = .connected then
          some { s with consumers := s.consumers.set j .head }
        else some { s with
          session := { s.session with threads := s.session.threads ++ [.dial false 0 .check] }
          consumers := s.consumers.set j (.connecting s.session.threads.length) }
      | .head => some { s with
          consumers :=
            s.consumers.set j (if s.session.client.stopEvent then .ended else .getting) }
      | .getting =>
        match s.queue with
        | some (n + 1) => some { s with
            queue := some n, consumers := s.consumers.set j .yielded }
        | _ => some { s with consumers := s.consumers.set j .head }
      | .yielded => some { s with consumers := s.consumers.set j .head }
      | .connecting _ | .ended => none
  | .abandon j => some { s with consumers := s.consumers.modify j fun
      | .yielded => .ended
      | c => c }

def system (transport : Transport) (o : Options) : System SpooledRealtime Action where
  init := {}
  step := step transport.kind o

/-! ### The statement -/

/-- The generator is in its loop. -/
def Consumer.inLoop : Consumer → Bool
  | .head | .getting | .yielded => true
  | _ => false

/-- A thread other than a `disconnect()` that has not ended. -/
def alive : Thread → Bool
  | .dial _ _ .ended | .reader _ _ .ended | .stopper _ => false
  | _ => true

/-- The client is done: DISCONNECTED, no receive loop running, no timer pending, no `connect()`
in progress. -/
def Done (s : Session) : Prop :=
  s.client.state = .disconnected ∧ (∀ thread ∈ s.threads, alive thread = false) ∧
    ∀ timer ∈ s.client.timers, timer.state ≠ .pending

/-- A generator waits in its loop for events that nothing will bring. -/
def Abandoned (s : SpooledRealtime) : Prop :=
  (∃ c ∈ s.consumers, c.inLoop = true) ∧ s.session.client.stopEvent = false ∧
    s.queue.getD 0 = 0 ∧ Done s.session

/-- A `connect()` that has set CONNECTED and not come back. -/
def committed : Thread → Bool
  | .dial _ _ .clear | .dial _ _ .start | .dial _ _ .started => true
  | _ => false

/-- A generator is in its loop, or comes to it when its `connect()` comes back. -/
def Held (s : SpooledRealtime) : Prop :=
  ∃ c ∈ s.consumers, c.inLoop = true ∨
    ∃ i thread, c = .connecting i ∧ s.session.threads[i]? = some thread ∧ committed thread = true

/-- Generators are held, and the stop flag does not tell them to end. -/
def Exposed (s : SpooledRealtime) : Prop := Held s ∧ s.session.client.stopEvent = false

/-- A step that leaves the client DISCONNECTED: it gives up, its job stream has finished, a
`connect()` of the application fails, a `disconnect()` comes to its end. -/
def settles : Thread → Bool
  | .dial _ _ (.dropping .giveUp) | .reader _ _ (.dropping .giveUp) | .reader _ _ .closed
  | .dial false _ .failed | .dial _ _ .lateFailed | .stopper .state => true
  | _ => false

/-- No such step is taken over generators that the stop flag does not end, and the flag is not
cleared over a client that is DISCONNECTED already. -/
def Keeps (s : SpooledRealtime) : Action → Prop
  | .client (.go i _) => ∀ thread, s.session.threads[i]? = some thread →
    (settles thread = true → ¬ Exposed s) ∧
    ∀ redial gen, thread = .dial redial gen .clear → Held s →
      s.session.client.state ≠ .disconnected
  | _ => True

/-! ### One thread -/

/-- A failed redial that goes on to reconnect, or to give up: it is before the `_set_state` of
its `_handle_disconnect`. -/
def answers : Thread → Bool
  | .dial _ _ .raised | .dial _ _ (.dropping .clear) | .dial _ _ (.dropping (.teardown _))
  | .dial _ _ (.dropping .restore) | .dial _ _ (.dropping .test) | .dial _ _ (.dropping .schedule)
  | .dial _ _ (.dropping .giveUp) => true
  | _ => false

section

variable {k : Kind} {o : Options} {c c' : Client} {thread thread' : Thread} {answer : Answer}
  {spawned : Option Thread}

theorem close_fields (k : Kind) (c : Client) (pc : ClosePc) :
    (c.close k pc).1.state = c.state ∧ (c.close k pc).1.stopEvent = c.stopEvent := by
  cases pc <;> exact ⟨rfl, rfl⟩

/-- `_handle_disconnect` leaves the stop flag alone, and the state but for its two ends. -/
theorem drop_fields (k : Kind) (o : Options) (c : Client) (gen : ℕ) (lost : Bool)
    (answer : Answer) (pc : DropPc) :
    (c.drop k o gen lost answer pc).1.stopEvent = c.stopEvent ∧
    ((c.drop k o gen lost answer pc).1.state = .disconnected →
      c.state = .disconnected ∨ pc = .giveUp) := by
  cases pc with
  | teardown pc =>
    have := close_fields k c pc
    exact ⟨this.2, fun h => .inl (this.1 ▸ h)⟩
  | launch =>
    have : (c.launch gen).stopEvent = c.stopEvent ∧ (c.launch gen).state = c.state := by
      rw [Client.launch]
      split
      · exact ⟨rfl, rfl⟩
      · split <;> exact ⟨rfl, rfl⟩
    exact ⟨this.1, fun h => .inl (this.2 ▸ h)⟩
  | giveUp => exact ⟨rfl, fun _ => .inr rfl⟩
  | schedule => exact ⟨rfl, nofun⟩
  | clear | restore | test | count | arm => exact ⟨rfl, fun h => .inl h⟩

/-- What a step of a thread can do that a generator takes notice of. -/
structure Noticed (k : Kind) (o : Options) (c : Client) (thread : Thread) (c' : Client)
    (thread' : Thread) : Prop where
  /-- DISCONNECTED comes of a step that settles the client, or of a redial that has failed. -/
  state : c'.state = .disconnected →
    c.state = .disconnected ∨ settles thread = true ∨ answers thread' = true
  /-- Only a `connect()` clears the flag. -/
  stopEvent : c'.stopEvent = false →
    c.stopEvent = false ∨ (∃ redial gen, thread = .dial redial gen .clear) ∧ c'.state = c.state
  /-- A failed redial answers until it settles the client or reconnects. -/
  answering : answers thread = true → settles thread = false →
    answers thread' = true ∨ c'.state ≠ .disconnected
  /-- A `connect()` that is on its way back has been connected. -/
  commits : committed thread' = true → committed thread = true ∨ c'.state = .connected
  /-- A `connect()` returns at once over a client that is connected or connecting. -/
  check : ∀ redial gen redial' gen', thread = .dial redial gen .check →
    thread' = .dial redial' gen' .ended → c'.state ≠ .disconnected

/-- A step that touches neither the state nor the flag. -/
theorem Noticed.of_same (hstate : c'.state = c.state) (hstop : c'.stopEvent = c.stopEvent)
    (hanswers : answers thread = true → answers thread' = true)
    (hcommitted : committed thread' = true → committed thread = true)
    (hcheck : ∀ redial gen, thread ≠ .dial redial gen .check) :
    Noticed k o c thread c' thread' where
  state h := .inl (hstate ▸ h)
  stopEvent h := .inl (hstop ▸ h)
  answering h _ := .inl (hanswers h)
  commits h := .inl (hcommitted h)
  check redial gen _ _ h := absurd h (hcheck redial gen)

theorem committed_fail {redial : Bool} {gen : ℕ} :
    committed (.dial redial gen (k.fail redial)) = false := by
  cases k <;> cases redial <;> rfl

/-- A failed redial that goes on in `_handle_disconnect` answers still, or it reconnects. -/
theorem answers_drop {redial : Bool} {gen : ℕ} {pc : DropPc}
    (h : answers (.dial redial gen (.dropping pc)) = true) (hpc : pc ≠ .giveUp) :
    answers (.dial redial gen
        ((c.drop k o gen false answer pc).2.elim .ended .dropping)) = true ∨
      (c.drop k o gen false answer pc).1.state ≠ .disconnected := by
  cases pc with
  | clear => exact .inl rfl
  | teardown pc =>
    rw [Client.drop]
    dsimp only [Option.elim_some]
    cases (c.close k pc).2 with
    | none => cases k <;> exact .inl rfl
    | some pc' => exact .inl rfl
  | restore => exact .inl rfl
  | test =>
    rw [Client.drop]
    dsimp only [Option.elim_some]
    split <;> exact .inl rfl
  | schedule => exact .inr nofun
  | giveUp => exact absurd rfl hpc
  | count | arm | launch => cases h

theorem noticed_of_dial {redial : Bool} {gen : ℕ} {pc : DialPc}
    (h : c.dialStep k o redial gen answer pc = some (c', thread', spawned)) :
    Noticed k o c (.dial redial gen pc) c' thread' := by
  cases pc with
  | check =>
    simp only [Client.dialStep] at h
    split at h
    · rename_i hstate
      simp only [Option.some.injEq, Prod.mk.injEq] at h
      obtain ⟨rfl, rfl, -⟩ := h
      -- the client is connected or connecting, and `connect()` returns
      refine ⟨.inl, .inl, nofun, nofun, fun _ _ _ _ _ _ hdisc => ?_⟩
      rw [hdisc] at hstate
      rcases hstate with h | h <;> cases h
    · simp only [Option.some.injEq, Prod.mk.injEq] at h
      obtain ⟨rfl, rfl, -⟩ := h
      exact ⟨.inl, .inl, nofun, nofun, fun _ _ _ _ _ h => nomatch h⟩
  | mark =>
    simp only [Client.dialStep, Option.some.injEq, Prod.mk.injEq] at h
    obtain ⟨rfl, rfl, -⟩ := h
    exact ⟨nofun, .inl, nofun, nofun, nofun⟩
  | dialing =>
    simp only [Client.dialStep] at h
    split at h
    · simp only [Option.some.injEq, Prod.mk.injEq] at h
      obtain ⟨rfl, rfl, -⟩ := h
      exact .of_same rfl rfl nofun (by cases k <;> exact nofun) nofun
    · simp only [Option.some.injEq, Prod.mk.injEq] at h
      obtain ⟨rfl, rfl, -⟩ := h
      exact .of_same rfl rfl nofun (fun h => absurd h (by rw [committed_fail]; decide)) nofun
  | opened =>
    simp only [Client.dialStep, Option.some.injEq, Prod.mk.injEq] at h
    obtain ⟨rfl, rfl, -⟩ := h
    exact .of_same rfl rfl nofun (by split <;> exact nofun) nofun
  | attach =>
    simp only [Client.dialStep] at h
    split at h <;> simp only [Option.some.injEq, Prod.mk.injEq] at h <;>
      (obtain ⟨rfl, rfl, -⟩ := h; exact .of_same rfl rfl nofun nofun nofun)
  | connected =>
    simp only [Client.dialStep, Option.some.injEq, Prod.mk.injEq] at h
    obtain ⟨rfl, rfl, -⟩ := h
    -- from here the `connect()` is on its way back
    exact ⟨nofun, .inl, nofun, fun _ => .inr rfl, nofun⟩
  | clear =>
    simp only [Client.dialStep, Option.some.injEq, Prod.mk.injEq] at h
    obtain ⟨rfl, rfl, -⟩ := h
    -- the only step that clears the flag
    exact ⟨.inl, fun _ => .inr ⟨⟨_, _, rfl⟩, rfl⟩, nofun, fun _ => .inl rfl, nofun⟩
  | start =>
    simp only [Client.dialStep, Option.some.injEq, Prod.mk.injEq] at h
    obtain ⟨rfl, rfl, -⟩ := h
    exact ⟨.inl, .inl, nofun, fun _ => .inl rfl, nofun⟩
  | started =>
    simp only [Client.dialStep] at h
    split at h
    · simp only [Option.some.injEq, Prod.mk.injEq] at h
      obtain ⟨rfl, rfl, -⟩ := h
      exact .of_same rfl rfl nofun nofun nofun
    · split at h
      · cases h
      · simp only [Option.some.injEq, Prod.mk.injEq] at h
        obtain ⟨rfl, rfl, -⟩ := h
        exact .of_same rfl rfl nofun (fun _ => rfl) nofun
  | lateFailed =>
    simp only [Client.dialStep, Option.some.injEq, Prod.mk.injEq] at h
    obtain ⟨rfl, rfl, -⟩ := h
    exact ⟨fun _ => .inr (.inl rfl), .inl, nofun, nofun, nofun⟩
  | closing pc =>
    simp only [Client.dialStep, Option.some.injEq, Prod.mk.injEq] at h
    obtain ⟨rfl, rfl, -⟩ := h
    have hfields := close_fields k c pc
    refine .of_same hfields.1 hfields.2 nofun ?_ nofun
    cases (c.close k pc).2 <;> exact nofun
  | failed =>
    simp only [Client.dialStep, Option.some.injEq, Prod.mk.injEq] at h
    obtain ⟨rfl, rfl, -⟩ := h
    -- a redial goes on in `_handle_disconnect`, a call of the application ends here
    refine ⟨fun _ => ?_, .inl, nofun, by cases redial <;> exact nofun, nofun⟩
    cases redial with
    | true => exact .inr (.inr rfl)
    | false => exact .inr (.inl rfl)
  | raised =>
    simp only [Client.dialStep, Option.some.injEq, Prod.mk.injEq] at h
    obtain ⟨rfl, rfl, -⟩ := h
    refine .of_same rfl rfl (fun _ => ?_) nofun nofun
    split
    · rfl
    · cases k <;> rfl
  | dropping pc =>
    simp only [Client.dialStep, Option.some.injEq, Prod.mk.injEq] at h
    obtain ⟨rfl, rfl, -⟩ := h
    obtain ⟨hstop, hstate⟩ := drop_fields k o c gen false answer pc
    refine ⟨fun hdisc => ?_, fun h => .inl (hstop ▸ h), fun hans hsettles => ?_, ?_, nofun⟩
    · rcases hstate hdisc with hold | rfl
      · exact .inl hold
      · exact .inr (.inl rfl)
    · exact answers_drop hans fun hpc => by rw [hpc] at hsettles; cases hsettles
    · cases (c.drop k o gen false answer pc).2 <;> exact nofun
  | ended => cases h

theorem reader_ne_dial {gen : ℕ} {finished : Bool} {pc : ReaderPc} (redial : Bool) (gen' : ℕ)
    (pc' : DialPc) : Thread.reader gen finished pc ≠ .dial redial gen' pc' := nofun

theorem stopper_ne_dial {pc : StopPc} (redial : Bool) (gen : ℕ) (pc' : DialPc) :
    Thread.stopper pc ≠ .dial redial gen pc' := nofun

/-- A thread that is no dial is noticed by what it does to the state. -/
theorem Noticed.of_other (hdial : ∀ redial gen pc, thread ≠ .dial redial gen pc)
    (hdial' : ∀ redial gen pc, thread' ≠ .dial redial gen pc)
    (hstate : c'.state = .disconnected → c.state = .disconnected ∨ settles thread = true)
    (hstop : c'.stopEvent = false → c.stopEvent = false) : Noticed k o c thread c' thread' where
  state h := (hstate h).imp_right .inl
  stopEvent h := .inl (hstop h)
  answering h := by
    cases thread with
    | dial redial gen pc => exact absurd rfl (hdial redial gen pc)
    | reader | stopper => cases h
  commits h := by
    cases thread' with
    | dial redial gen pc => exact absurd rfl (hdial' redial gen pc)
    | reader | stopper => cases h
  check redial gen _ _ h := absurd h (hdial redial gen .check)

theorem noticed_of_reader {gen : ℕ} {finished : Bool} {pc : ReaderPc}
    (h : c.readerStep k o gen finished answer pc = some (c', thread', spawned)) :
    Noticed k o c (.reader gen finished pc) c' thread' := by
  cases pc with
  | closing pc =>
    simp only [Client.readerStep, Option.some.injEq, Prod.mk.injEq] at h
    obtain ⟨rfl, rfl, -⟩ := h
    have hfields := close_fields k c pc
    exact .of_other reader_ne_dial reader_ne_dial (fun h => .inl (hfields.1 ▸ h)) fun h => hfields.2 ▸ h
  | closed =>
    simp only [Client.readerStep, Option.some.injEq, Prod.mk.injEq] at h
    obtain ⟨rfl, rfl, -⟩ := h
    exact .of_other reader_ne_dial reader_ne_dial (fun _ => .inr rfl) fun h => h
  | dropping pc =>
    simp only [Client.readerStep, Option.some.injEq, Prod.mk.injEq] at h
    obtain ⟨rfl, rfl, -⟩ := h
    obtain ⟨hstop, hstate⟩ := drop_fields k o c gen true answer pc
    refine .of_other reader_ne_dial reader_ne_dial (fun hdisc => ?_) fun h => hstop ▸ h
    rcases hstate hdisc with hold | rfl
    · exact .inl hold
    · exact .inr rfl
  | handling i =>
    simp only [Client.readerStep] at h
    split at h <;> simp only [Option.some.injEq, Prod.mk.injEq] at h <;>
      (obtain ⟨rfl, rfl, -⟩ := h; exact .of_other reader_ne_dial reader_ne_dial .inl fun h => h)
  | dispatching i =>
    simp only [Client.readerStep] at h
    split at h <;> simp only [Option.some.injEq, Prod.mk.injEq] at h <;>
      (obtain ⟨rfl, rfl, -⟩ := h; exact .of_other reader_ne_dial reader_ne_dial .inl fun h => h)
  | reading i =>
    simp only [Client.readerStep] at h
    split at h
    all_goals
      try split at h
      all_goals first
        | cases h; done
        | simp only [Option.some.injEq, Prod.mk.injEq] at h
          obtain ⟨rfl, rfl, -⟩ := h
          exact .of_other reader_ne_dial reader_ne_dial .inl fun h => h
  | recv =>
    simp only [Client.readerStep] at h
    split at h <;> simp only [Option.some.injEq, Prod.mk.injEq] at h <;>
      (obtain ⟨rfl, rfl, -⟩ := h; exact .of_other reader_ne_dial reader_ne_dial .inl fun h => h)
  | head | ready | received i | caught clean =>
    simp only [Client.readerStep, Option.some.injEq, Prod.mk.injEq] at h
    obtain ⟨rfl, rfl, -⟩ := h
    exact .of_other reader_ne_dial reader_ne_dial .inl fun h => h
  | ended => cases h

theorem cancelTimer_fields (t : ℕ) :
    (c.cancelTimer t).state = c.state ∧ (c.cancelTimer t).stopEvent = c.stopEvent := by
  rw [Client.cancelTimer]
  split <;> exact ⟨rfl, rfl⟩

theorem noticed_of_stopper {pc : StopPc}
    (h : c.stopperStep k pc = some (c', thread', spawned)) :
    Noticed k o c (.stopper pc) c' thread' := by
  cases pc with
  | cancel =>
    simp only [Client.stopperStep] at h
    split at h
    · simp only [Option.some.injEq, Prod.mk.injEq] at h
      obtain ⟨rfl, rfl, -⟩ := h
      exact .of_other stopper_ne_dial stopper_ne_dial .inl fun h => h
    · rename_i t _
      simp only [Option.some.injEq, Prod.mk.injEq] at h
      obtain ⟨rfl, rfl, -⟩ := h
      have hfields := cancelTimer_fields (c := c) t
      exact .of_other stopper_ne_dial stopper_ne_dial (fun h => .inl (hfields.1 ▸ h)) fun h => hfields.2 ▸ h
  | closing pc =>
    simp only [Client.stopperStep, Option.some.injEq, Prod.mk.injEq] at h
    obtain ⟨rfl, rfl, -⟩ := h
    have hfields := close_fields k c pc
    exact .of_other stopper_ne_dial stopper_ne_dial (fun h => .inl (hfields.1 ▸ h)) fun h => hfields.2 ▸ h
  | stop =>
    simp only [Client.stopperStep, Option.some.injEq, Prod.mk.injEq] at h
    obtain ⟨rfl, rfl, -⟩ := h
    exact .of_other stopper_ne_dial stopper_ne_dial .inl nofun
  | state =>
    simp only [Client.stopperStep, Option.some.injEq, Prod.mk.injEq] at h
    obtain ⟨rfl, rfl, -⟩ := h
    exact .of_other stopper_ne_dial stopper_ne_dial (fun _ => .inr rfl) fun h => h
  | test | resetTimer | budget =>
    simp only [Client.stopperStep, Option.some.injEq, Prod.mk.injEq] at h
    obtain ⟨rfl, rfl, -⟩ := h
    exact .of_other stopper_ne_dial stopper_ne_dial .inl fun h => h
  | ended => cases h

theorem noticed_of_step (h : c.threadStep k o answer thread = some (c', thread', spawned)) :
    Noticed k o c thread c' thread' := by
  cases thread with
  | dial => exact noticed_of_dial h
  | reader => exact noticed_of_reader h
  | stopper => exact noticed_of_stopper h

end

/-! ### All threads and generators -/

section

variable {k : Kind} {o : Options} {s s' : SpooledRealtime}

/-- The generator is held by the threads of the client. -/
def HeldBy (threads : List Thread) (c : Consumer) : Prop :=
  c.inLoop = true ∨
    ∃ i thread, c = .connecting i ∧ threads[i]? = some thread ∧ committed thread = true

/-- A held generator was held before, or its `connect()` has found the client connected, as long
as the threads have gone on as `h` says. -/
theorem heldBy_resumed {threads threads' : List Thread} (client' : Client) {c : Consumer}
    (hheld : HeldBy threads' (resumed threads threads' c))
    (h : ∀ (j : ℕ) t', threads'[j]? = some t' → threads[j]? = some t' ∨
      ((committed t' = true → (∃ t, threads[j]? = some t ∧ committed t = true) ∨
          client'.state ≠ .disconnected) ∧
        ∀ redial gen redial' gen', threads[j]? = some (.dial redial gen .check) →
          t' = .dial redial' gen' .ended → client'.state ≠ .disconnected)) :
    HeldBy threads c ∨ client'.state ≠ .disconnected := by
  -- only a generator in its `connect()` can be moved by a thread
  cases c with
  | connecting i =>
    rcases hheld with hloop | ⟨j, thread, hc, hthread, hcommitted⟩
    · simp only [resumed] at hloop
      split at hloop
      · rename_i redial gen redial' gen' hold hnew
        rcases h i _ hnew with hsame | ⟨-, hcheck⟩
        · rw [hold] at hsame
          cases hsame
        · exact .inr (hcheck _ _ _ _ hold rfl)
      · rename_i hold hnew
        exact .inl (.inr ⟨i, _, rfl, hold, rfl⟩)
      · cases hloop
      · cases hloop
    · have hij : j = i := by
        simp only [resumed] at hc
        split at hc <;> cases hc
        rfl
      subst hij
      rcases h j _ hthread with hsame | ⟨hcommits, -⟩
      · exact .inl (.inr ⟨j, thread, rfl, hsame, hcommitted⟩)
      · refine (hcommits hcommitted).imp_left fun hold => ?_
        obtain ⟨t, ht, hct⟩ := hold
        exact .inr ⟨j, t, rfl, ht, hct⟩
  | test | head | getting | yielded | ended =>
    rcases hheld with hloop | ⟨_, _, hc, _⟩
    · exact .inl (.inl hloop)
    · cases hc

/-- Over a client that is DISCONNECTED with the flag unset, generators are held only while a
failed redial answers. -/
def Answered (s : SpooledRealtime) : Prop :=
  Exposed s → s.session.client.state = .disconnected →
    ∃ thread ∈ s.session.threads, answers thread = true

/-- The threads that a step adds neither are on their way back nor have ended. -/
theorem answered_of_grown (h : Answered s) (extra : List Thread) (client' : Client)
    (queue : Option ℕ) (hstate : client'.state = s.session.client.state)
    (hstop : client'.stopEvent = s.session.client.stopEvent)
    (hextra : ∀ t ∈ extra, committed t = false ∧
      ∀ redial gen, t ≠ .dial redial gen .ended) :
    Answered
      { session := { client := client', threads := s.session.threads ++ extra }
        queue := queue
        consumers := s.consumers.map
          (resumed s.session.threads (s.session.threads ++ extra)) } := by
  rintro ⟨⟨c', hmem, hheld⟩, hflag⟩ hdisc
  obtain ⟨c, hc, rfl⟩ := List.mem_map.mp hmem
  have hback := heldBy_resumed client' hheld fun j t' ht' => by
    rcases lt_or_ge j s.session.threads.length with hlt | hge
    · rw [List.getElem?_append_left hlt] at ht'
      exact .inl ht'
    · rw [List.getElem?_append_right hge] at ht'
      obtain ⟨hcommitted, hended⟩ := hextra t' (List.mem_of_getElem? ht')
      exact .inr ⟨fun h => absurd h (by rw [hcommitted]; decide),
        fun _ _ redial' gen' _ heq => absurd heq (hended redial' gen')⟩
  rcases hback with hold | hne
  · obtain ⟨thread, hthread, hans⟩ := h ⟨⟨c, hc, hold⟩, hstop ▸ hflag⟩ (hstate ▸ hdisc)
    exact ⟨thread, List.mem_append_left _ hthread, hans⟩
  · exact absurd hdisc hne

/-- A thread starts nothing but a receive loop. -/
theorem spawned_reader {c c' : Client} {thread thread' t : Thread} {answer : Answer}
    {spawned : Option Thread}
    (h : c.threadStep k o answer thread = some (c', thread', spawned))
    (ht : t ∈ spawned.toList) : ∃ gen, t = .reader gen false k.loop := by
  obtain rfl : spawned = some t := Option.mem_toList.mp ht
  cases thread with
  | dial redial gen pc =>
    cases pc with
    | start =>
      simp only [Client.threadStep, Client.dialStep, Option.some.injEq, Prod.mk.injEq] at h
      exact ⟨gen, h.2.2.symm⟩
    | _ =>
      simp only [Client.threadStep, Client.dialStep] at h
      repeat' split at h
      all_goals simp at h
  | reader gen finished pc =>
    cases pc <;> simp only [Client.threadStep, Client.readerStep] at h
    all_goals
      repeat' split at h
      all_goals simp at h
  | stopper pc =>
    cases pc <;> simp only [Client.threadStep, Client.stopperStep] at h
    all_goals
      repeat' split at h
      all_goals simp at h

/-- A thread that goes on keeps the generators answered. -/
theorem answered_of_go (h : Answered s) {i : ℕ} {thread thread' : Thread} {answer : Answer}
    {client' : Client} {spawned : Option Thread} {queue : Option ℕ}
    (hkeeps : Keeps s (.client (.go i answer))) (hi : s.session.threads[i]? = some thread)
    (hstep : s.session.client.threadStep k o answer thread = some (client', thread', spawned)) :
    Answered
      { session :=
          { client := client', threads := s.session.threads.set i thread' ++ spawned.toList }
        queue := queue
        consumers := s.consumers.map
          (resumed s.session.threads (s.session.threads.set i thread' ++ spawned.toList)) } := by
  have hnoticed := noticed_of_step hstep
  have hlen : i < s.session.threads.length := (List.getElem?_eq_some_iff.mp hi).1
  rintro ⟨⟨c', hmem, hheld⟩, hflag⟩ hdisc
  obtain ⟨c, hc, rfl⟩ := List.mem_map.mp hmem
  have hback := heldBy_resumed client' hheld fun j t' ht' => by
    rcases lt_or_ge j s.session.threads.length with hlt | hge
    · rw [List.getElem?_append_left (by simpa using hlt)] at ht'
      by_cases hji : i = j
      · subst hji
        rw [List.getElem?_set_self hlen] at ht'
        cases ht'
        refine .inr ⟨fun hcommitted => ?_, fun redial gen redial' gen' hthread hended => ?_⟩
        · refine (hnoticed.commits hcommitted).imp (fun hold => ⟨thread, hi, hold⟩) fun hconn => ?_
          rw [hconn]
          decide
        · rw [hi] at hthread
          exact hnoticed.check redial gen redial' gen' (Option.some.inj hthread) hended
      · rw [List.getElem?_set_ne hji] at ht'
        exact .inl ht'
    · rw [List.getElem?_append_right (by simpa using hge)] at ht'
      -- a receive loop that has just begun is no `connect()`
      obtain ⟨gen, rfl⟩ := spawned_reader hstep (List.mem_of_getElem? ht')
      exact .inr ⟨nofun, nofun⟩
  have hheldOld : Held s := by
    rcases hback with hold | hne
    · exact ⟨c, hc, hold⟩
    · exact absurd hdisc hne
  obtain ⟨hsettles, hclear⟩ := hkeeps thread hi
  -- the flag was unset before, or its clearing would have met a DISCONNECTED client
  have hexposed : Exposed s := by
    rcases hnoticed.stopEvent hflag with hold | ⟨⟨redial, gen, rfl⟩, hsame⟩
    · exact ⟨hheldOld, hold⟩
    · exact absurd (hsame ▸ hdisc) (hclear redial gen rfl hheldOld)
  have hnot : settles thread = false :=
    Bool.eq_false_iff.mpr fun h => hsettles h hexposed
  have hself : thread' ∈ s.session.threads.set i thread' ++ spawned.toList :=
    List.mem_append_left _ (List.mem_of_getElem? (List.getElem?_set_self hlen))
  -- a thread that answered goes on answering, or it is another one and does not move
  rcases hnoticed.state hdisc with hold | hset | hans
  · obtain ⟨r, hr, hans⟩ := h hexposed hold
    obtain ⟨m, hm⟩ := List.mem_iff_getElem?.mp hr
    by_cases hmi : i = m
    · subst hmi
      rw [hi] at hm
      cases hm
      rcases hnoticed.answering hans hnot with hans' | hne
      · exact ⟨thread', hself, hans'⟩
      · exact absurd hdisc hne
    · refine ⟨r, List.mem_append_left _ (List.mem_of_getElem? (i := m) ?_), hans⟩
      rw [List.getElem?_set_ne hmi, hm]
  · rw [hnot] at hset
    cases hset
  · exact ⟨thread', hself, hans⟩

/-- A generator that goes on by itself was held before. -/
theorem Answered.of_held {s' : SpooledRealtime} (h : Answered s)
    (hheld : Held s' → Held s) (hsession : s'.session = s.session) : Answered s' := by
  rintro ⟨hheld', hflag⟩ hdisc
  rw [hsession] at hflag hdisc ⊢
  exact h ⟨hheld hheld', hflag⟩ hdisc

/-- A new place of a generator is none that holds it, or it was held in the old one. -/
theorem held_of_set {j : ℕ} {c c' : Consumer} {queue : Option ℕ}
    (hj : s.consumers[j]? = some c)
    (hc : HeldBy s.session.threads c' → HeldBy s.session.threads c)
    (h : Held { s with queue := queue, consumers := s.consumers.set j c' }) : Held s := by
  obtain ⟨d, hd, hheld⟩ := h
  rcases List.mem_or_eq_of_mem_set hd with hold | rfl
  · exact ⟨d, hold, hheld⟩
  · exact ⟨c, List.mem_of_getElem? hj, hc hheld⟩

theorem heldBy_of_inLoop {threads : List Thread} {c : Consumer} (h : c.inLoop = true) :
    HeldBy threads c := .inl h

theorem not_heldBy_ended {threads : List Thread} : ¬ HeldBy threads .ended := by
  rintro (h | ⟨_, _, h, _⟩) <;> cases h

theorem not_heldBy_test {threads : List Thread} : ¬ HeldBy threads .test := by
  rintro (h | ⟨_, _, h, _⟩) <;> cases h

theorem heldBy_append {threads extra : List Thread} {c : Consumer}
    (hnone : ∀ t ∈ extra, committed t = false) (h : HeldBy (threads ++ extra) c) :
    HeldBy threads c := by
  refine h.imp_right fun hconnecting => ?_
  obtain ⟨i, thread, hc, hi, hcommitted⟩ := hconnecting
  rcases lt_or_ge i threads.length with hlt | hge
  · rw [List.getElem?_append_left hlt] at hi
    exact ⟨i, thread, hc, hi, hcommitted⟩
  · rw [List.getElem?_append_right hge] at hi
    rw [hnone thread (List.mem_of_getElem? hi)] at hcommitted
    cases hcommitted

/-- A generator whose `connect()` has no thread yet is not held. -/
theorem not_heldBy_new {threads : List Thread} :
    ¬ HeldBy threads (.connecting threads.length) := by
  rintro (h | ⟨i, thread, hc, hi, -⟩)
  · cases h
  · cases hc
    rw [List.getElem?_eq_none (le_refl _)] at hi
    cases hi

theorem answered_of_consume (h : Answered s) {j : ℕ} {s' : SpooledRealtime}
    (hstep : step k o s (.consume j) = some s') : Answered s' := by
  simp only [step] at hstep
  obtain ⟨c, hj, hstep⟩ := Option.bind_eq_some_iff.mp hstep
  cases c with
  | test =>
    dsimp only at hstep
    split at hstep
    · -- the client is connected
      rename_i hconn
      cases hstep
      rintro - hdisc
      rw [hconn] at hdisc
      cases hdisc
    · -- a `connect()` begins, which is not on its way back
      cases hstep
      rintro ⟨⟨d, hd, hheld⟩, hflag⟩ hdisc
      have hnone : ∀ t ∈ [Thread.dial false 0 .check], committed t = false := by
        intro t ht
        rw [List.mem_singleton.mp ht]
        rfl
      obtain ⟨thread, hthread, hans⟩ : ∃ thread ∈ s.session.threads, answers thread = true := by
        refine h ⟨?_, hflag⟩ hdisc
        rcases List.mem_or_eq_of_mem_set hd with hold | rfl
        · exact ⟨d, hold, heldBy_append hnone hheld⟩
        · exact absurd (heldBy_append hnone hheld) not_heldBy_new
      exact ⟨thread, List.mem_append_left _ hthread, hans⟩
  | head =>
    cases hstep
    exact h.of_held (held_of_set hj fun _ => heldBy_of_inLoop rfl) rfl
  | getting =>
    dsimp only at hstep
    split at hstep <;> cases hstep <;>
      exact h.of_held (held_of_set hj fun _ => heldBy_of_inLoop rfl) rfl
  | yielded =>
    cases hstep
    exact h.of_held (held_of_set hj fun _ => heldBy_of_inLoop rfl) rfl
  | connecting | ended => cases hstep

theorem answered_step (h : Answered s) {a : Action} {s' : SpooledRealtime}
    (hkeeps : Keeps s a) (hstep : step k o s a = some s') : Answered s' := by
  cases a with
  | client a =>
    simp only [step, Option.map_eq_some_iff] at hstep
    obtain ⟨session, hsession, rfl⟩ := hstep
    cases a with
    | connect =>
      cases hsession
      refine answered_of_grown h _ _ _ rfl rfl fun t ht => ?_
      cases List.mem_singleton.mp ht
      exact ⟨rfl, nofun⟩
    | disconnect =>
      cases hsession
      refine answered_of_grown h _ _ _ rfl rfl fun t ht => ?_
      cases List.mem_singleton.mp ht
      exact ⟨rfl, nofun⟩
    | fire t =>
      simp only [Session.step] at hsession
      obtain ⟨timer, -, hsession⟩ := Option.bind_eq_some_iff.mp hsession
      split at hsession
      · cases hsession
        refine answered_of_grown h _ _ _ rfl rfl fun t ht => ?_
        cases List.mem_singleton.mp ht
        cases k <;> exact ⟨rfl, nofun⟩
      · cases hsession
    | drop i =>
      cases hsession
      -- no thread is added
      have hgrown := answered_of_grown h []
        { s.session.client with sockets := s.session.client.sockets.set i false } s.queue
        rfl rfl fun t ht => absurd ht List.not_mem_nil
      simp only [List.append_nil] at hgrown
      exact hgrown
    | go i answer =>
      simp only [Session.step] at hsession
      obtain ⟨thread, hi, hsession⟩ := Option.bind_eq_some_iff.mp hsession
      obtain ⟨⟨client', thread', spawned⟩, hthread, rfl⟩ := Option.map_eq_some_iff.mp hsession
      exact answered_of_go h hkeeps hi hthread
  | events =>
    cases hstep
    refine h.of_held ?_ rfl
    rintro ⟨c, hc, hheld⟩
    rcases List.mem_append.mp hc with hold | hnew
    · exact ⟨c, hold, hheld⟩
    · rw [List.mem_singleton.mp hnew] at hheld
      exact absurd hheld not_heldBy_test
  | consume j => exact answered_of_consume h hstep
  | abandon j =>
    cases hstep
    refine h.of_held ?_ rfl
    rintro ⟨c, hc, hheld⟩
    obtain ⟨j', hj'⟩ := List.mem_iff_getElem?.mp hc
    simp only [List.getElem?_modify] at hj'
    obtain ⟨d, hd, rfl⟩ := Option.map_eq_some_iff.mp hj'
    refine ⟨d, List.mem_of_getElem? hd, ?_⟩
    split at hheld
    · cases d with
      | yielded => exact absurd hheld not_heldBy_ended
      | test | connecting | head | getting | ended => exact hheld
    · exact hheld

theorem answered_of_reachable {transport : Transport}
    (h : (system transport o).Reachable Keeps s) : Answered s := by
  refine h.invariant ?_ fun t a t' ht hkeeps hstep => answered_step ht hkeeps hstep
  rintro ⟨⟨c, hc, -⟩, -⟩
  cases hc

theorem exposed_of_abandoned (h : Abandoned s) : Exposed s := by
  obtain ⟨⟨c, hc, hloop⟩, hflag, -⟩ := h
  exact ⟨⟨c, hc, .inl hloop⟩, hflag⟩

theorem alive_of_answers {thread : Thread} (h : answers thread = true) : alive thread = true := by
  cases thread with
  | dial redial gen pc =>
    cases pc with
    | raised | dropping => rfl
    | _ => cases h
  | reader | stopper => cases h

/-- Where every step leaves the held generators a client that goes on, none of them waits for
events that nothing will bring. -/
theorem not_abandoned (transport : Transport) (o : Options) :
    ∀ s, (system transport o).Reachable Keeps s → ¬ Abandoned s := by
  intro s hs habandoned
  have hexposed := exposed_of_abandoned habandoned
  obtain ⟨-, -, -, hdisc, hended, -⟩ := habandoned
  obtain ⟨thread, hthread, hans⟩ :=
    answered_of_reachable hs hexposed hdisc
  have halive := alive_of_answers hans
  rw [hended thread hthread] at halive
  cases halive

end

/-! ### Two runs -/

/-- A generator connects and is in its loop, the socket is dropped, and a timer is set. -/
def dropped : List Action :=
  [.events, .consume 0] ++ List.replicate 7 (.client (.go 0 .yes)) ++
    [.client (.drop 0), .client (.go 1 .yes), .client (.go 1 .yes), .client (.go 1 .yes),
      .client (.go 1 .raised)] ++ List.replicate 10 (.client (.go 1 .no)) ++ [.client (.fire 0)]

/-- The same over a stream, whose reader has found it closed. -/
def closedByServer : List Action :=
  [.events, .consume 0] ++ List.replicate 9 (.client (.go 0 .yes)) ++
    [.client (.drop 0), .client (.go 1 .yes), .client (.go 1 .yes), .client (.go 1 .last)] ++
    List.replicate 10 (.client (.go 1 .no)) ++ [.client (.fire 0)]

/-- No step settles the client, whether or not a generator is held. -/
def steady (s : SpooledRealtime) : Action → Bool
  | .client (.go i _) => s.session.threads[i]?.all fun thread =>
    !settles thread && decide (s.session.client.state ≠ .disconnected ∨ !committed thread)
  | _ => true

theorem keeps_of_steady {s : SpooledRealtime} {a : Action} (h : steady s a = true) : Keeps s a := by
  cases a with
  | client a =>
    cases a with
    | go i answer =>
      intro thread hi
      simp only [steady, hi, Option.all_some, Bool.and_eq_true, Bool.not_eq_true',
        decide_eq_true_eq] at h
      refine ⟨fun hsettles => absurd hsettles (by rw [h.1]; decide), ?_⟩
      rintro redial gen rfl -
      exact h.2.resolve_right nofun
    | connect | disconnect | fire | drop => exact trivial
  | events | consume | abandon => exact trivial

/-- A generator whose client has lost its socket and connected again, and is not abandoned. -/
theorem not_abandoned_sample : ∃ s, (system .websocket {}).Reachable Keeps s ∧ Held s ∧
    s.session.client.state = .connected ∧ ¬ Abandoned s := by
  have hrun : ((system .websocket {}).runIf (fun s a => steady s a = true) {}
      (dropped ++ List.replicate 7 (.client (.go 2 .yes)))).any (fun s =>
        s.consumers.any Consumer.inLoop && decide (s.session.client.state = .connected)) := by
    decide
  obtain ⟨s, hs, hp⟩ := System.exists_of_runIf hrun
  have hkeeps := hs.mono fun _ _ => keeps_of_steady
  simp only [Bool.and_eq_true, List.any_eq_true, decide_eq_true_eq] at hp
  obtain ⟨⟨c, hc, hloop⟩, hconn⟩ := hp
  exact ⟨s, hkeeps, ⟨c, hc, .inl hloop⟩, hconn, not_abandoned .websocket {} s hkeeps⟩

instance (s : Session) : Decidable (Done s) := inferInstanceAs (Decidable (_ ∧ _ ∧ _))

/-- The redial of a closed stream is rejected: the client gives up, and its generator, which has
taken the event of the error, waits for another. -/
theorem given_up_generator_waits : ¬ ∀ (transport : Transport) (o : Options) (s : SpooledRealtime),
    (system transport o).Reachable System.always s → ¬ Abandoned s := by
  intro h
  -- the response to the redial has come, its status is no success, and its error is final
  have hrun : ((system .sse {}).run {}
      (closedByServer ++ List.replicate 3 (.client (.go 2 .yes)) ++
        List.replicate 7 (.client (.go 2 .no)) ++
        [.client (.go 2 .yes), .consume 0, .consume 0, .consume 0])).any (fun s =>
          s.consumers.any Consumer.inLoop && !s.session.client.stopEvent &&
            decide (s.queue.getD 0 = 0) && decide (Done s.session)) := by
    decide
  obtain ⟨s, hs, hp⟩ := System.exists_of_run hrun
  simp only [Bool.and_eq_true, List.any_eq_true, decide_eq_true_eq, Bool.not_eq_true'] at hp
  obtain ⟨⟨⟨hloop, hflag⟩, hqueue⟩, hdone⟩ := hp
  exact h .sse {} s hs ⟨hloop, hflag, hqueue, hdone⟩

end SpooledSdk.Realtime.Consumers
