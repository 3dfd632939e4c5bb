/-
`disconnect()` of `WebSocketClient` and `SpooledRealtime`, over their threads.

* `rests_of_step` — once the stop flag is set over a client without a dial under way, a pending
  timer, or a thread about to set one, the client rests;
* `returning_of_reachable` — a `disconnect()` that has set the flag finds the client so until it
  returns.
-/
import SpooledSdk.Realtime.Threads
import SpooledSdk.Registry

namespace SpooledSdk.Realtime.Threads

/-- `_handle_disconnect` has decided to set a timer. -/
def DropPc.arming : DropPc → Bool
  | .schedule | .count | .arm | .launch => true
  | _ => false

/-- A dial that may still open a socket, or has opened one and has not started its loop. -/
def DialPc.opening : DialPc → Bool
  | .check | .mark | .dialing | .opened | .attach | .connected | .clear | .start => true
  | _ => false

/-- The thread is not about to dial, nor to set a timer. -/
def Thread.calm : Thread → Bool
  | .dial _ _ (.dropping pc) => !pc.arming
  | .dial _ _ pc => !pc.opening
  | .reader _ _ (.dropping pc) => !pc.arming
  | _ => true

/-- The thread is handling an event. -/
def Thread.handles : Thread → Bool
  | .reader _ _ (.handling _) | .reader _ _ (.dispatching _) => true
  | _ => false

def Session.calm (s : Session) : Bool :=
  s.threads.all Thread.calm && s.client.timers.all fun timer => timer.state ≠ .pending

/-- The thread may go on by `answer`: `disconnect()` sets its flag when no dial is under way and
no timer is pending or about to be set, and returns when no event is being handled; after the
flag is set no message is read from a socket, and no drop decides to reconnect. -/
def Thread.undisturbed (k : Kind) (o : Options) (s : Session) (answer : Answer) : Thread → Bool
  | .stopper .stop => s.calm
  | .stopper .budget => s.threads.all fun thread => !thread.handles
  | .reader _ _ (.reading _) => k = .realtimeSse || answer ≠ .yes || !s.client.stopEvent
  | .dial _ _ (.dropping .test) | .reader _ _ (.dropping .test) =>
    !s.client.stopEvent ||
      !(o.autoReconnect && s.client.reconnectAttempts < o.maxReconnectAttempts)
  | _ => true

/-- No `connect()` comes while a `disconnect()` is under way. -/
def Undisturbed (k : Kind) (o : Options) (s : Session) : Action → Bool
  | .connect => s.threads.all fun
      | .stopper pc => pc = .ended
      | _ => true
  | .go i answer => s.threads[i]?.all (Thread.undisturbed k o s answer)
  | _ => true

/-- The step by which a `disconnect()` returns. -/
def Returns (s : Session) : Action → Prop
  | .go i _ => s.threads[i]? = some (.stopper .budget)
  | _ => False

/-- The application calls `connect()`. -/
def Asks (_ : Session) (a : Action) : Prop := a = .connect

/-- The state is not CONNECTED, the client has no connection, no socket has been opened, and no
event has been delivered. -/
structure Silent (s₀ s : Session) : Prop where
  state : s.client.state ≠ .connected
  conn : s.client.conn = none
  length : s.client.sockets.length = s₀.client.sockets.length
  opened : ∀ i : ℕ, s.client.sockets[i]? = some true → s₀.client.sockets[i]? = some true
  delivered : s.client.delivered = s₀.client.delivered

variable {k : Kind} {o : Options} {s s' : Session} {c c' : Client} {thread thread' : Thread}
  {answer : Answer} {spawned : Option Thread}

/-! ### One thread -/

/-- What a calm thread can do to the client. -/
structure Still (c c' : Client) : Prop where
  stopEvent : c.stopEvent = true → c'.stopEvent = true
  state : c'.state = c.state ∨ c'.state = .disconnected
  conn : c'.conn = c.conn ∨ c'.conn = none
  length : c'.sockets.length = c.sockets.length
  opened : ∀ i : ℕ, c'.sockets[i]? = some true → c.sockets[i]? = some true
  timers : ∀ timer ∈ c'.timers, timer.state = .pending → timer ∈ c.timers

theorem Still.refl : Still c c :=
  ⟨id, .inl rfl, .inl rfl, rfl, fun _ h => h, fun _ h _ => h⟩

theorem close_still {pc : ClosePc} : Still c (c.close k pc).1 := by
  cases pc with
  | test | forget => exact { Still.refl (c := c) with }
  | reset => exact { Still.refl (c := c) with conn := .inr rfl }
  | close =>
    cases hc : c.conn with
    | none =>
      have heq : (c.close k .close).1.sockets = c.sockets := by
        simp only [Client.close, hc, Option.map_none, Option.getD_none]
      exact { Still.refl (c := c) with
        length := by rw [heq], opened := fun i hi => by rwa [heq] at hi }
    | some j =>
      have heq : (c.close k .close).1.sockets = c.sockets.set j false := by
        simp only [Client.close, hc, Option.map_some, Option.getD_some]
      refine { Still.refl (c := c) with
        length := by rw [heq, List.length_set], opened := fun i hi => ?_ }
      rw [heq] at hi
      rcases List.getElem?_set_cases hi with ⟨-, hf⟩ | ⟨-, hi⟩
      · cases hf
      · exact hi

theorem drop_still {gen : ℕ} {lost : Bool} {pc : DropPc} (hpc : pc.arming = false) :
    Still c (c.drop k o gen lost answer pc).1 ∧
      (c.drop k o gen lost answer pc).1.delivered = c.delivered := by
  cases pc with
  | clear => exact ⟨{ Still.refl (c := c) with conn := .inr rfl }, rfl⟩
  | teardown pc => exact ⟨close_still, by cases pc <;> rfl⟩
  | restore | test => exact ⟨{ Still.refl (c := c) with }, rfl⟩
  | giveUp => exact ⟨{ Still.refl (c := c) with state := .inr rfl }, rfl⟩
  | schedule | count | arm | launch => cases hpc

/-- What a step of a calm thread leaves as it is, once the stop flag is set. -/
structure Calms (c : Client) (thread : Thread) (c' : Client) (thread' : Thread) : Prop where
  still : Still c c'
  calm : thread'.calm = true
  handles : thread.handles = false → thread'.handles = false ∧ c'.delivered = c.delivered

theorem Calms.of_same (hcalm : thread'.calm = true) (hhandles : thread'.handles = false)
    (hstill : Still c c') (hdelivered : c'.delivered = c.delivered) : Calms c thread c' thread' :=
  ⟨hstill, hcalm, fun _ => ⟨hhandles, hdelivered⟩⟩

theorem close_delivered {pc : ClosePc} : (c.close k pc).1.delivered = c.delivered := by
  cases pc <;> rfl

/-- What follows a step of a `_handle_disconnect` that does not reconnect arms no timer. -/
theorem drop_calm {gen : ℕ} {lost : Bool} {pc pc' : DropPc} (hpc : pc.arming = false)
    (htest : pc = .test → ¬ (o.autoReconnect ∧ c.reconnectAttempts < o.maxReconnectAttempts))
    (h : (c.drop k o gen lost answer pc).2 = some pc') : pc'.arming = false := by
  cases pc with
  | clear | restore =>
    cases h
    rfl
  | teardown pc =>
    simp only [Client.drop, Option.some.injEq] at h
    subst h
    cases (c.close k pc).2 with
    | none => cases k <;> rfl
    | some pc' => rfl
  | test =>
    simp only [Client.drop, if_neg (htest rfl), Option.some.injEq] at h
    subst h
    rfl
  | giveUp => cases h
  | schedule | count | arm | launch => cases hpc

theorem calms_of_drop {gen : ℕ} {lost : Bool} {pc : DropPc} {T : Option DropPc → Thread}
    (hT : ∀ pc, (T (some pc)).calm = !pc.arming ∧ (T (some pc)).handles = false)
    (hE : (T none).calm = true ∧ (T none).handles = false) (hpc : pc.arming = false)
    (htest : pc = .test → ¬ (o.autoReconnect ∧ c.reconnectAttempts < o.maxReconnectAttempts)) :
    Calms c thread (c.drop k o gen lost answer pc).1
      (T (c.drop k o gen lost answer pc).2) := by
  have hdrop : Still c (c.drop k o gen lost answer pc).1 ∧
      (c.drop k o gen lost answer pc).1.delivered = c.delivered := drop_still hpc
  cases hnext : (c.drop k o gen lost answer pc).2 with
  | none => exact .of_same hE.1 hE.2 hdrop.1 hdrop.2
  | some pc' =>
    have harming := drop_calm hpc htest hnext
    exact .of_same (by rw [(hT pc').1, harming]; rfl) (hT pc').2 hdrop.1 hdrop.2

theorem not_reconnects (hflag : s.client.stopEvent = true)
    (h : (!s.client.stopEvent ||
      !(o.autoReconnect && s.client.reconnectAttempts < o.maxReconnectAttempts)) = true) :
    ¬ (o.autoReconnect ∧ s.client.reconnectAttempts < o.maxReconnectAttempts) := by
  rintro ⟨hauto, hlt⟩
  simp only [hflag, hauto, hlt, Bool.not_true, decide_true, Bool.and_true, Bool.or_self] at h
  cases h

theorem calms_of_dial {redial : Bool} {gen : ℕ} {pc : DialPc}
    (hcalm : (Thread.dial redial gen pc).calm = true) (hflag : s.client.stopEvent = true)
    (hok : (Thread.dial redial gen pc).undisturbed k o s answer = true)
    (h : s.client.dialStep k o redial gen answer pc = some (c', thread', spawned)) :
    Calms s.client (.dial redial gen pc) c' thread' ∧ spawned = none := by
  cases pc with
  | check | mark | dialing | opened | attach | connected | clear | start => cases hcalm
  | started =>
    simp only [Client.dialStep] at h
    split at h
    · cases h
      exact ⟨.of_same rfl rfl .refl rfl, rfl⟩
    · split at h
      · cases h
      · rename_i hk
        cases h
        -- a redial that fails this late goes to `_handle_disconnect`, but for server-sent events
        refine ⟨.of_same ?_ rfl .refl rfl, rfl⟩
        cases redial with
        | false => rfl
        | true =>
          cases k with
          | webSocket | realtimeWs => rfl
          | realtimeSse => exact absurd rfl hk
  | lateFailed =>
    cases h
    exact ⟨.of_same rfl rfl { Still.refl (c := s.client) with state := .inr rfl } rfl, rfl⟩
  | closing pc =>
    cases h
    refine ⟨.of_same ?_ rfl close_still close_delivered, rfl⟩
    cases (s.client.close k pc).2 <;> rfl
  | failed =>
    cases h
    refine ⟨.of_same ?_ rfl { Still.refl (c := s.client) with state := .inr rfl } rfl, rfl⟩
    cases redial <;> rfl
  | raised =>
    cases h
    refine ⟨.of_same ?_ rfl .refl rfl, rfl⟩
    split
    · rfl
    · cases k <;> rfl
  | dropping pc =>
    cases h
    refine ⟨calms_of_drop (T := fun next => .dial redial gen (next.elim .ended .dropping))
      (fun _ => ⟨rfl, rfl⟩) ⟨rfl, rfl⟩ ?_ ?_ , rfl⟩
    · simpa [Thread.calm] using hcalm
    · rintro rfl
      exact not_reconnects hflag hok
  | ended => cases h

theorem calms_of_reader {gen : ℕ} {finished : Bool} {pc : ReaderPc}
    (hcalm : (Thread.reader gen finished pc).calm = true) (hflag : s.client.stopEvent = true)
    (hok : (Thread.reader gen finished pc).undisturbed k o s answer = true)
    (h : s.client.readerStep k o gen finished answer pc = some (c', thread', spawned)) :
    Calms s.client (.reader gen finished pc) c' thread' ∧ spawned = none := by
  cases pc with
  | head =>
    cases h
    refine ⟨.of_same ?_ ?_ .refl rfl, rfl⟩ <;> rw [if_pos hflag] <;> rfl
  | ready =>
    cases h
    refine ⟨.of_same ?_ ?_ .refl rfl, rfl⟩
    all_goals
      generalize (if k = .realtimeSse then s.client.stream else s.client.conn) = source
      cases source <;> rfl
  | recv =>
    simp only [Client.readerStep] at h
    split at h <;> (cases h; exact ⟨.of_same rfl rfl .refl rfl, rfl⟩)
  | reading i =>
    simp only [Client.readerStep] at h
    cases answer with
    | yes =>
      -- undisturbed, a socket yields no message any more; an SSE stream may, and drops it
      obtain rfl : k = .realtimeSse := by simpa [Thread.undisturbed, hflag] using hok
      cases h
      exact ⟨.of_same rfl rfl .refl rfl, rfl⟩
    | no | raised | last =>
      dsimp only at h
      split at h
      all_goals first
        | cases h; done
        | cases h; exact ⟨.of_same rfl rfl .refl rfl, rfl⟩
  | received i =>
    cases h
    refine ⟨.of_same ?_ ?_ .refl rfl, rfl⟩ <;> rw [if_pos hflag] <;> rfl
  | handling i =>
    simp only [Client.readerStep] at h
    cases answer with
    | yes | last =>
      cases h
      -- the message was taken before the flag was set, and may still be delivered
      exact ⟨⟨{ Still.refl (c := s.client) with }, rfl, nofun⟩, rfl⟩
    | no =>
      cases h
      exact ⟨⟨.refl, by split <;> rfl, nofun⟩, rfl⟩
    | raised =>
      cases h
      exact ⟨⟨.refl, by split <;> rfl, nofun⟩, rfl⟩
  | dispatching i =>
    simp only [Client.readerStep] at h
    cases answer with
    | yes | no | last =>
      cases h
      exact ⟨⟨{ Still.refl (c := s.client) with }, by split <;> rfl, nofun⟩, rfl⟩
    | raised =>
      cases h
      exact ⟨⟨.refl, by split <;> rfl, nofun⟩, rfl⟩
  | caught clean =>
    cases h
    refine ⟨.of_same ?_ ?_ .refl rfl, rfl⟩ <;> rw [if_pos hflag] <;> rfl
  | closing pc =>
    cases h
    refine ⟨.of_same ?_ ?_ close_still close_delivered, rfl⟩ <;>
      cases (s.client.close k pc).2 <;> rfl
  | closed =>
    cases h
    exact ⟨.of_same rfl rfl { Still.refl (c := s.client) with state := .inr rfl } rfl, rfl⟩
  | dropping pc =>
    cases h
    refine ⟨calms_of_drop (T := fun next => .reader gen finished (next.elim .ended .dropping))
      (fun _ => ⟨rfl, rfl⟩) ⟨rfl, rfl⟩ ?_ ?_ , rfl⟩
    · simpa [Thread.calm] using hcalm
    · rintro rfl
      exact not_reconnects hflag hok
  | ended => cases h

theorem cancelTimer_still {t : ℕ} : Still c (c.cancelTimer t) := by
  rw [Client.cancelTimer]
  split
  · exact .refl
  · refine { Still.refl (c := c) with timers := fun timer htimer hpending => ?_ }
    obtain ⟨n, hn⟩ := List.mem_iff_getElem?.mp htimer
    simp only [List.getElem?_modify] at hn
    obtain ⟨old, hold, rfl⟩ := Option.map_eq_some_iff.mp hn
    -- the timer that is cancelled is not pending
    split at hpending
    · cases hpending
    · rename_i hne
      rw [if_neg hne]
      exact List.mem_of_getElem? hold

theorem calms_of_stopper {pc : StopPc}
    (h : c.stopperStep k pc = some (c', thread', spawned)) :
    Calms c (.stopper pc) c' thread' ∧ spawned = none := by
  cases pc with
  | test =>
    cases h
    exact ⟨.of_same rfl rfl .refl rfl, rfl⟩
  | cancel =>
    simp only [Client.stopperStep] at h
    split at h
    · cases h
      exact ⟨.of_same rfl rfl .refl rfl, rfl⟩
    · cases h
      exact ⟨.of_same rfl rfl cancelTimer_still (by rw [Client.cancelTimer]; split <;> rfl), rfl⟩
  | resetTimer | budget =>
    cases h
    exact ⟨.of_same rfl rfl { Still.refl (c := c) with } rfl, rfl⟩
  | stop =>
    cases h
    exact ⟨.of_same rfl rfl { Still.refl (c := c) with stopEvent := fun _ => rfl } rfl, rfl⟩
  | closing pc =>
    cases h
    exact ⟨.of_same rfl rfl close_still close_delivered, rfl⟩
  | state =>
    cases h
    exact ⟨.of_same rfl rfl { Still.refl (c := c) with state := .inr rfl } rfl, rfl⟩
  | ended => cases h

/-- Once the stop flag is set, a calm thread stays calm and starts none. -/
theorem calms_of_step (hcalm : thread.calm = true) (hflag : s.client.stopEvent = true)
    (hok : thread.undisturbed k o s answer = true)
    (h : s.client.threadStep k o answer thread = some (c', thread', spawned)) :
    Calms s.client thread c' thread' ∧ spawned = none := by
  cases thread with
  | dial => exact calms_of_dial hcalm hflag hok h
  | reader => exact calms_of_reader hcalm hflag hok h
  | stopper => exact calms_of_stopper h

/-! ### The whole client -/

/-- The stop flag is set, and the client is calm. -/
structure Stopped (s : Session) : Prop where
  stopEvent : s.client.stopEvent = true
  threads : ∀ thread ∈ s.threads, thread.calm = true
  timers : ∀ timer ∈ s.client.timers, timer.state ≠ .pending

/-- No thread handles an event. -/
def Session.Idle (s : Session) : Prop := ∀ thread ∈ s.threads, thread.handles = false

/-- What a step leaves as it is, once the client is stopped. -/
structure Rests (s s' : Session) : Prop where
  stopped : Stopped s'
  still : Still s.client s'.client
  idle : s.Idle → s'.Idle ∧ s'.client.delivered = s.client.delivered

theorem rests_of_go (hs : Stopped s) {i : ℕ} (hi : s.threads[i]? = some thread)
    (hok : thread.undisturbed k o s answer = true)
    (h : s.client.threadStep k o answer thread = some (c', thread', spawned)) :
    Rests s { client := c', threads := s.threads.set i thread' ++ spawned.toList } := by
  obtain ⟨hcalms, rfl⟩ :=
    calms_of_step (hs.threads thread (List.mem_of_getElem? hi)) hs.stopEvent hok h
  simp only [Option.toList_none, List.append_nil]
  refine ⟨⟨hcalms.still.stopEvent hs.stopEvent, fun t ht => ?_, fun timer htimer hpending => ?_⟩,
    hcalms.still, fun hidle => ?_⟩
  · rcases List.mem_or_eq_of_mem_set ht with hold | rfl
    · exact hs.threads t hold
    · exact hcalms.calm
  · exact hs.timers timer (hcalms.still.timers timer htimer hpending) hpending
  · obtain ⟨hhandles, hdelivered⟩ := hcalms.handles (hidle thread (List.mem_of_getElem? hi))
    refine ⟨fun t ht => ?_, hdelivered⟩
    rcases List.mem_or_eq_of_mem_set ht with hold | rfl
    · exact hidle t hold
    · exact hhandles

/-- A stopped client rests until the application calls `connect()`. -/
theorem rests_of_step (hs : Stopped s) {a : Action} (hok : Undisturbed k o s a = true)
    (hconnect : a ≠ .connect) (h : s.step k o a = some s') : Rests s s' := by
  cases a with
  | connect => exact absurd rfl hconnect
  | disconnect =>
    cases h
    refine ⟨⟨hs.stopEvent, fun t ht => ?_, hs.timers⟩, .refl, fun hidle => ⟨fun t ht => ?_, rfl⟩⟩
    all_goals rcases List.mem_append.mp ht with hold | hnew
    · exact hs.threads t hold
    · rw [List.mem_singleton.mp hnew]
      rfl
    · exact hidle t hold
    · rw [List.mem_singleton.mp hnew]
      rfl
  | fire t =>
    obtain ⟨timer, htimer, h⟩ := Option.bind_eq_some_iff.mp h
    split at h
    -- no timer is pending that could fire
    · rename_i hpending
      exact absurd hpending (hs.timers timer (List.mem_of_getElem? htimer))
    · cases h
  | drop i =>
    cases h
    refine ⟨⟨hs.stopEvent, hs.threads, hs.timers⟩, { Still.refl (c := s.client) with
      length := List.length_set, opened := fun n hn => ?_ }, fun hidle => ⟨hidle, rfl⟩⟩
    rcases List.getElem?_set_cases hn with ⟨-, hfalse⟩ | ⟨-, hold⟩
    · cases hfalse
    · exact hold
  | go i answer =>
    obtain ⟨thread, hi, h⟩ := Option.bind_eq_some_iff.mp h
    obtain ⟨⟨c', thread', spawned⟩, hthread, rfl⟩ := Option.map_eq_some_iff.mp h
    simp only [Undisturbed, hi, Option.all_some] at hok
    exact rests_of_go hs hi hok hthread

/-- `disconnect()` has set the flag and not returned. -/
def StopPc.past : StopPc → Bool
  | .closing _ | .state | .budget => true
  | _ => false

/-- It has reset the connection. -/
def StopPc.cleared : StopPc → Bool
  | .closing .forget | .state | .budget => true
  | _ => false

/-- What a `disconnect()` that has set the flag can rely on. -/
structure Returning (s : Session) : Prop where
  stopped : ∀ pc, .stopper pc ∈ s.threads → pc.past = true → Stopped s
  cleared : ∀ pc, .stopper pc ∈ s.threads → pc.cleared = true → s.client.conn = none
  state : .stopper .budget ∈ s.threads → s.client.state ≠ .connected

theorem StopPc.past_of_cleared {pc : StopPc} (h : pc.cleared = true) : pc.past = true := by
  cases pc with
  | closing | state | budget => rfl
  | test | cancel | resetTimer | stop | ended => cases h

/-- A step of a `disconnect()`. -/
theorem stopper_cases {pc : StopPc}
    (h : c.stopperStep k pc = some (c', thread', spawned)) :
    ∃ pc' : StopPc, thread' = .stopper pc' ∧ spawned = none ∧
      (pc'.past = true → pc.past = true ∨ pc = .stop) ∧
      (pc'.cleared = true → (pc.cleared = true ∧ c'.conn = c.conn) ∨ c'.conn = none) ∧
      (pc' = .budget → c'.state = .disconnected) := by
  cases pc with
  | test =>
    cases h
    refine ⟨_, rfl, rfl, ?_⟩
    split <;> exact ⟨nofun, nofun, nofun⟩
  | cancel =>
    simp only [Client.stopperStep] at h
    split at h <;> (cases h; exact ⟨_, rfl, rfl, nofun, nofun, nofun⟩)
  | resetTimer | budget =>
    cases h
    exact ⟨_, rfl, rfl, nofun, nofun, nofun⟩
  | stop =>
    cases h
    exact ⟨_, rfl, rfl, fun _ => .inr rfl, nofun, nofun⟩
  | closing pc =>
    cases h
    refine ⟨_, rfl, rfl, fun _ => .inl rfl, fun hcleared => ?_, ?_⟩
    · cases pc with
      | test =>
        -- `if self._ws is not None`: nothing is left to be reset
        cases hconn : c.conn with
        | none => exact .inr hconn
        | some i =>
          simp only [Client.close, hconn, Option.isSome_some, if_true, Option.elim_some] at hcleared
          cases hcleared
      | close => cases hcleared
      | reset => exact .inr rfl
      | forget => exact .inl ⟨rfl, rfl⟩
    · cases (c.close k pc).2 <;> exact nofun
  | state =>
    cases h
    exact ⟨_, rfl, rfl, fun _ => .inl rfl, fun _ => .inl ⟨rfl, rfl⟩, fun _ => rfl⟩
  | ended => cases h

/-- Without a `disconnect()` past its flag there is nothing to rely on. -/
theorem returning_of_none (h : ∀ pc, .stopper pc ∈ s.threads → pc.past = false) : Returning s where
  stopped pc hmem hpast := by
    rw [h pc hmem] at hpast
    cases hpast
  cleared pc hmem hcleared := by
    have hpast := StopPc.past_of_cleared hcleared
    rw [h pc hmem] at hpast
    cases hpast
  state hmem := by
    have hpast := h .budget hmem
    cases hpast

/-- A stopped client that rests keeps what the `disconnect()`s of `s` rely on. -/
theorem Returning.rests (h : Returning s) (hr : Rests s s')
    (hnew : ∀ pc, .stopper pc ∈ s'.threads → .stopper pc ∈ s.threads ∨
      ((pc.cleared = true → s'.client.conn = none) ∧
        (pc = .budget → s'.client.state ≠ .connected))) : Returning s' where
  stopped _ _ _ := hr.stopped
  cleared pc hmem hcleared := by
    rcases hnew pc hmem with hold | ⟨hconn, -⟩
    · rcases hr.still.conn with hsame | hnone
      · rw [hsame]
        exact h.cleared pc hold hcleared
      · exact hnone
    · exact hconn hcleared
  state hmem := by
    rcases hnew .budget hmem with hold | ⟨-, hstate⟩
    · rcases hr.still.state with hsame | hdisc
      · rw [hsame]
        exact h.state hold
      · rw [hdisc]
        decide
    · exact hstate rfl

/-- The thread is a `disconnect()`. -/
def Thread.stops : Thread → Bool
  | .stopper _ => true
  | _ => false

theorem stops_of_step (h : c.threadStep k o answer thread = some (c', thread', spawned)) :
    thread'.stops = thread.stops ∧ ∀ t ∈ spawned, t.stops = false := by
  cases thread with
  | dial redial gen pc =>
    cases pc <;> simp only [Client.threadStep, Client.dialStep] at h
    all_goals
      repeat' split at h
      all_goals first
        | cases h; done
        | (cases h; exact ⟨rfl, fun t ht => by cases ht <;> rfl⟩)
  | reader gen finished pc =>
    cases pc <;> simp only [Client.threadStep, Client.readerStep] at h
    all_goals
      repeat' split at h
      all_goals first
        | cases h; done
        | (cases h; exact ⟨rfl, fun t ht => by cases ht⟩)
  | stopper pc =>
    obtain ⟨pc', rfl, rfl, -⟩ := stopper_cases h
    exact ⟨rfl, nofun⟩

/-- A thread that goes on in a stopped client. -/
theorem returning_of_stopped (h : Returning s) (hstopped : Stopped s) {i : ℕ}
    (hi : s.threads[i]? = some thread) (hok : thread.undisturbed k o s answer = true)
    (hstep : s.client.threadStep k o answer thread = some (c', thread', spawned)) :
    Returning { client := c', threads := s.threads.set i thread' ++ spawned.toList } := by
  have hmem := List.mem_of_getElem? hi
  obtain ⟨-, hnone⟩ := calms_of_step (hstopped.threads thread hmem) hstopped.stopEvent hok hstep
  refine h.rests (rests_of_go hstopped hi hok hstep) fun pc hpc => ?_
  rw [hnone, Option.toList_none, List.append_nil] at hpc
  rcases List.mem_or_eq_of_mem_set hpc with hold | rfl
  · exact .inl hold
  · have hstops := (stops_of_step hstep).1
    cases thread with
    | dial | reader => cases hstops
    | stopper old =>
      obtain ⟨pc', heq, -, -, hcleared, hbudget⟩ := stopper_cases hstep
      cases heq
      refine .inr ⟨fun hpc' => ?_, fun hpc' => ?_⟩
      · rcases hcleared hpc' with ⟨hold, hsame⟩ | hnull
        · rw [hsame]
          exact h.cleared old hmem hold
        · exact hnull
      · rw [hbudget hpc']
        decide

/-- A thread that goes on while no `disconnect()` is past its flag: it may be one that sets it. -/
theorem returning_of_unstopped (hnone : ∀ pc, .stopper pc ∈ s.threads → pc.past = false) {i : ℕ}
    (hi : s.threads[i]? = some thread) (hok : thread.undisturbed k o s answer = true)
    (hstep : s.client.threadStep k o answer thread = some (c', thread', spawned)) :
    Returning { client := c', threads := s.threads.set i thread' ++ spawned.toList } := by
  obtain ⟨hstops, hspawned⟩ := stops_of_step hstep
  have hcases : ∀ pc, .stopper pc ∈ s.threads.set i thread' ++ spawned.toList →
      pc.past = false ∨ thread' = .stopper pc := by
    intro pc hpc
    rcases List.mem_append.mp hpc with hset | hnew
    · rcases List.mem_or_eq_of_mem_set hset with hold | heq
      · exact .inl (hnone pc hold)
      · exact .inr heq.symm
    · have hfalse := hspawned _ (Option.mem_toList.mp hnew)
      cases hfalse
  cases thread with
  | dial | reader =>
    refine returning_of_none fun pc hpc => (hcases pc hpc).resolve_right ?_
    rintro rfl
    cases hstops
  | stopper old =>
    obtain ⟨pc', rfl, rfl, hpast, -, -⟩ := stopper_cases hstep
    by_cases hold : old = .stop
    · -- it sets the flag over a calm client
      subst hold
      cases hstep
      have hcalm : s.calm = true := hok
      have hstopped : Stopped
          { client := { s.client with stopEvent := true }
            threads := s.threads.set i (.stopper (.closing .test)) ++ [] } := by
        obtain ⟨hthreads, htimers⟩ : (∀ t ∈ s.threads, t.calm = true) ∧
            ∀ timer ∈ s.client.timers, timer.state ≠ .pending := by
          simpa only [Session.calm, Bool.and_eq_true, List.all_eq_true, decide_eq_true_eq]
            using hcalm
        refine ⟨rfl, fun t ht => ?_, htimers⟩
        rw [List.append_nil] at ht
        rcases List.mem_or_eq_of_mem_set ht with hmem | rfl
        · exact hthreads t hmem
        · rfl
      refine ⟨fun _ _ _ => hstopped, fun pc hpc hcleared => ?_, fun hpc => ?_⟩
      · rcases hcases pc hpc with hfalse | heq
        · rw [StopPc.past_of_cleared hcleared] at hfalse
          cases hfalse
        · cases heq
          cases hcleared
      · rcases hcases .budget hpc with hfalse | heq
        · cases hfalse
        · cases heq
    · refine returning_of_none fun pc hpc => (hcases pc hpc).elim id fun heq => ?_
      cases heq
      refine Bool.eq_false_iff.mpr fun hpc' => ?_
      rcases hpast hpc' with hwas | hstop
      · rw [hnone old (List.mem_of_getElem? hi)] at hwas
        cases hwas
      · exact hold hstop

theorem returning_step (h : Returning s) {a : Action} (hok : Undisturbed k o s a = true)
    (hstep : s.step k o a = some s') : Returning s' := by
  -- either some `disconnect()` has set the flag and rests, or none relies on anything yet
  by_cases hpast : ∃ pc, .stopper pc ∈ s.threads ∧ pc.past = true
  · obtain ⟨pc, hmem, hpc⟩ := hpast
    have hstopped := h.stopped pc hmem hpc
    cases a with
    | connect =>
      -- no `connect()` comes now
      simp only [Undisturbed, List.all_eq_true] at hok
      have hended := hok _ hmem
      simp only [decide_eq_true_eq] at hended
      subst hended
      cases hpc
    | disconnect =>
      refine h.rests (rests_of_step hstopped hok nofun hstep) fun pc hpc => ?_
      cases hstep
      rcases List.mem_append.mp hpc with hold | hnew
      · exact .inl hold
      · cases List.mem_singleton.mp hnew
        exact .inr ⟨nofun, nofun⟩
    | fire t =>
      obtain ⟨timer, htimer, hstep⟩ := Option.bind_eq_some_iff.mp hstep
      split at hstep
      · rename_i hpending
        exact absurd hpending (hstopped.timers timer (List.mem_of_getElem? htimer))
      · cases hstep
    | drop i =>
      refine h.rests (rests_of_step hstopped hok nofun hstep) fun pc hpc => ?_
      cases hstep
      exact .inl hpc
    | go i answer =>
      obtain ⟨thread, hi, hstep⟩ := Option.bind_eq_some_iff.mp hstep
      obtain ⟨⟨c', thread', spawned⟩, hthread, rfl⟩ := Option.map_eq_some_iff.mp hstep
      simp only [Undisturbed, hi, Option.all_some] at hok
      exact returning_of_stopped h hstopped hi hok hthread
  · have hnone : ∀ pc, .stopper pc ∈ s.threads → pc.past = false := fun pc hmem =>
      Bool.eq_false_iff.mpr fun hpc => hpast ⟨pc, hmem, hpc⟩
    cases a with
    | connect =>
      cases hstep
      refine returning_of_none fun pc hpc => ?_
      rcases List.mem_append.mp hpc with hold | hnew
      · exact hnone pc hold
      · cases List.mem_singleton.mp hnew
    | disconnect =>
      cases hstep
      refine returning_of_none fun pc hpc => ?_
      rcases List.mem_append.mp hpc with hold | hnew
      · exact hnone pc hold
      · cases List.mem_singleton.mp hnew
        rfl
    | fire t =>
      obtain ⟨timer, htimer, hstep⟩ := Option.bind_eq_some_iff.mp hstep
      split at hstep
      · cases hstep
        refine returning_of_none fun pc hpc => ?_
        rcases List.mem_append.mp hpc with hold | hnew
        · exact hnone pc hold
        · cases List.mem_singleton.mp hnew
      · cases hstep
    | drop i =>
      cases hstep
      exact returning_of_none hnone
    | go i answer =>
      obtain ⟨thread, hi, hstep⟩ := Option.bind_eq_some_iff.mp hstep
      obtain ⟨⟨c', thread', spawned⟩, hthread, rfl⟩ := Option.map_eq_some_iff.mp hstep
      simp only [Undisturbed, hi, Option.all_some] at hok
      exact returning_of_unstopped hnone hi hok hthread

theorem returning_of_reachable
    (h : (system k o).Reachable (fun s a => Undisturbed k o s a = true) s) : Returning s :=
  h.invariant (returning_of_none fun _ hmem => by cases hmem)
    fun _ _ _ ht hok hstep => returning_step ht hok hstep

/-- A client that has been silent since `s₀`, and rests. -/
structure Resting (s₀ s : Session) : Prop where
  stopped : Stopped s
  idle : s.Idle
  silent : Silent s₀ s

theorem Resting.rests {s₀ : Session} (h : Resting s₀ s) (hr : Rests s s') : Resting s₀ s' := by
  obtain ⟨hidle, hdelivered⟩ := hr.idle h.idle
  refine ⟨hr.stopped, hidle, ?_, ?_, ?_, fun i hi => ?_, ?_⟩
  · rcases hr.still.state with hsame | hdisc
    · rw [hsame]
      exact h.silent.state
    · rw [hdisc]
      decide
  · rcases hr.still.conn with hsame | hnone
    · rw [hsame]
      exact h.silent.conn
    · exact hnone
  · rw [hr.still.length]
    exact h.silent.length
  · exact h.silent.opened i (hr.still.opened i hi)
  · rw [hdelivered]
    exact h.silent.delivered

/-- The step by which a `disconnect()` returns leaves the client at rest. -/
theorem resting_of_returns (h : Returning s) {a : Action} (hok : Undisturbed k o s a = true)
    (hret : Returns s a) (hstep : s.step k o a = some s') : Resting s' s' := by
  cases a with
  | go i answer =>
    have hi : s.threads[i]? = some (.stopper .budget) := hret
    have hmem := List.mem_of_getElem? hi
    -- the last step resets the budget: the flag, the connection and the state were reset before
    have hstopped := h.stopped .budget hmem rfl
    have hrests := rests_of_step hstopped hok nofun hstep
    simp only [Undisturbed, hi, Option.all_some, Thread.undisturbed, List.all_eq_true,
      Bool.not_eq_true'] at hok
    have hreturning := h.rests hrests fun pc hpc => by
      simp only [Session.step, hi, Option.bind_some, Client.threadStep, Client.stopperStep,
        Option.map_some, Option.some.injEq] at hstep
      subst hstep
      simp only [Option.toList_none, List.append_nil] at hpc
      rcases List.mem_or_eq_of_mem_set hpc with hold | heq
      · exact .inl hold
      · cases heq
        exact .inr ⟨nofun, nofun⟩
    refine ⟨hrests.stopped, (hrests.idle hok).1, ?_, ?_, rfl, fun _ h => h, rfl⟩
    · rcases hrests.still.state with hsame | hdisc
      · rw [hsame]
        exact h.state hmem
      · rw [hdisc]
        decide
    · rcases hrests.still.conn with hsame | hnone
      · rw [hsame]
        exact h.cleared .budget hmem rfl
      · exact hnone
  | connect | disconnect | fire | drop => cases hret

end SpooledSdk.Realtime.Threads
