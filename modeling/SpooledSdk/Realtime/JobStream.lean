/-
A job stream ends at its terminal event.

* `flow_step` — what is delivered comes off the open stream, each event once and in order;
* `ended_step` — a client that has seen the terminal event does not come to dial again, if the
  stream does not fail after it;
* `job_stream_ends` — both, for `SSEClient`, `AsyncSSEClient` and `SpooledRealtime`;
* `terminal_event_replayed` — a stream that fails after it is dialed again.
-/
import SpooledSdk.Realtime.Unified
import SpooledSdk.Realtime.SseStep

namespace SpooledSdk.Realtime

/-- The events that a stream still carries. -/
def Sse.Stream.events (stream : Sse.Stream) : List RealtimeEvent :=
  stream.items.filterMap fun
    | .ok event => event
    | .error _ => none

/-- What `closes_job_stream` makes of an event raises. -/
def unreadable (jobStream : Bool) (event : RealtimeEvent) : Bool :=
  jobStream && (closesJobStream event).isNone

/-- The next turn of the loop over the stream raises. -/
def Sse.Stream.fails (jobStream : Bool) (stream : Sse.Stream) : Option PyException :=
  match stream.items with
  | [] => stream.error
  | .error e :: _ => some e
  | .ok (some event) :: _ =>
    if unreadable jobStream event then some (.other "unhashable type") else none
  | .ok none :: _ => none

/-! ### The generators -/

namespace Sse

/-- The event that has left the stream and not reached the consumer. -/
def Pc.inFlight : Pc → List RealtimeEvent
  | .delivering event => [event]
  | _ => []

/-- The generator is on its way to a stream. -/
def Pc.retrying : Pc → Bool
  | .connecting _ | .sleeping _ | .dialing _ => true
  | _ => false

namespace SSEClient

/-- What has left the stream for the consumer. -/
def outgoing (s : SSEClient) : List RealtimeEvent := s.delivered ++ s.pc.inFlight

/-- What the open stream still carries. -/
def pending (s : SSEClient) : List RealtimeEvent :=
  (s.stream.map Stream.events).getD []

end SSEClient

/-- A call of the application that may open a stream. -/
def Action.opens : Action → Bool
  | .connect | .events => true
  | _ => false

/-- The stream does not fail after its terminal event, or the failure is not one to retry. -/
def EndsQuietly (o : Options) (s : SSEClient) : Action → Prop
  | .read => s.finished = true → s.closed = true ∨ (o.autoReconnect = false ∨
      o.maxReconnectAttempts = 0) ∨ ∃ stream ∈ s.stream,
        ∀ e ∈ stream.fails o.jobStream, e.isFinal = true
  | _ => True

section

variable {o : Options} {s s' : SSEClient} {a : Action} {e : PyException}

/-- A step hands on what it takes off the stream, and makes no dial. -/
structure Flows (s s' : SSEClient) : Prop where
  moved : ∃ moved, s'.outgoing = s.outgoing ++ moved ∧ (moved ++ s'.pending).Sublist s.pending
  dials : s'.dials = s.dials
  finished : s.finished = true → s'.finished = true

theorem Flows.of_same (hout : s'.outgoing = s.outgoing) (hpend : s'.pending.Sublist s.pending)
    (hdials : s'.dials = s.dials) (hfin : s'.finished = s.finished) : Flows s s' :=
  ⟨⟨[], by rw [hout, List.append_nil], hpend⟩, hdials, hfin.trans⟩

/-- A step between two places of the generator where no event is on its way. -/
theorem Flows.of_idle (hin : s.pc.inFlight = []) (hin' : s'.pc.inFlight = [])
    (hd : s'.delivered = s.delivered) (hpend : s'.pending.Sublist s.pending)
    (hdials : s'.dials = s.dials) (hfin : s'.finished = s.finished) : Flows s s' :=
  .of_same (by rw [SSEClient.outgoing, SSEClient.outgoing, hin, hin', hd]) hpend hdials hfin

theorem Flows.trans {s'' : SSEClient} (h : Flows s s') (h' : Flows s' s'') : Flows s s'' := by
  obtain ⟨moved, hout, hpend⟩ := h.moved
  obtain ⟨moved', hout', hpend'⟩ := h'.moved
  refine ⟨⟨moved ++ moved', ?_, ?_⟩, h'.dials.trans h.dials, h'.finished ∘ h.finished⟩
  · rw [hout', hout, List.append_assoc]
  · rw [List.append_assoc]
    exact (hpend'.append_left moved).trans hpend

theorem flows_handle (hpc : s.pc = .reading) : Flows s (s.handle o e) := by
  have hin : s.pc.inFlight = [] := by rw [hpc]; rfl
  unfold SSEClient.handle
  split
  · exact .of_idle hin rfl rfl (List.Sublist.refl _) rfl rfl
  · split
    · exact .of_idle hin rfl rfl (List.Sublist.refl _) rfl rfl
    · split
      · exact .of_idle hin rfl rfl (List.Sublist.refl _) rfl rfl
      · exact .of_idle hin rfl rfl (List.Sublist.refl _) rfl rfl

theorem flows_streamEnded (hpc : s.pc = .reading) : Flows s (s.streamEnded o) := by
  have hin : s.pc.inFlight = [] := by rw [hpc]; rfl
  unfold SSEClient.streamEnded
  split
  · exact .of_idle hin rfl rfl (List.nil_sublist _) rfl rfl
  · split
    · exact .of_idle hin rfl rfl (List.Sublist.refl _) rfl rfl
    · split
      · exact .of_idle hin rfl rfl (List.Sublist.refl _) rfl rfl
      · exact .of_idle hin rfl rfl (List.Sublist.refl _) rfl rfl

/-- An event that has been taken off the stream is on its way, or lost in the look at it. -/
theorem flows_receive {event : RealtimeEvent} (hpc : s.pc = .reading) {t : SSEClient}
    (hout : t.outgoing = s.outgoing) (hpend : t.pending = event :: s.pending)
    (hdials : t.dials = s.dials) (hfin : t.finished = s.finished) :
    Flows t (s.receive o event) := by
  have hread : s.outgoing = s.delivered ++ [] := by
    rw [SSEClient.outgoing, hpc]
    rfl
  have hdeliver : ∀ s'' : SSEClient, s''.delivered = s.delivered → s''.pc = .delivering event →
      s''.stream = s.stream → s''.dials = s.dials → (s.finished = true → s''.finished = true) →
      Flows t s'' := by
    intro s'' hd hpc'' hstream hdials'' hfin''
    refine ⟨⟨[event], ?_, ?_⟩, hdials''.trans hdials.symm, fun hf => hfin'' (hfin ▸ hf)⟩
    · rw [hout, hread, List.append_nil, SSEClient.outgoing, hpc'', hd, Pc.inFlight]
    · rw [hpend, SSEClient.pending, hstream]
      exact List.Sublist.refl _
  unfold SSEClient.receive
  dsimp only
  split
  · split
    · have hdrop : Flows t { s with
          reconnectAttempts := 0
          received := s.received ++ [event]
          lastEnd := some (some (.other "unhashable type")) } :=
        .of_same hout.symm (hpend ▸ List.sublist_cons_self ..) hdials.symm hfin.symm
      exact hdrop.trans (flows_handle hpc)
    · exact hdeliver _ rfl rfl rfl rfl fun hf => by rw [hf, Bool.true_or]
  · exact hdeliver _ rfl rfl rfl rfl id

theorem flows_readStep (hpc : s.pc = .reading) : Flows s (s.readStep o) := by
  have hlast : ∀ e, Flows s { s with lastEnd := e } :=
    fun _ => .of_same rfl (List.Sublist.refl _) rfl rfl
  unfold SSEClient.readStep
  split
  · exact (hlast _).trans (flows_handle hpc)
  · exact (hlast _).trans (flows_streamEnded hpc)
  · exact (hlast _).trans (flows_handle hpc)
  · rename_i item items error hstream
    have hpend : ∀ stream, s.stream = some stream → s.pending = stream.events := by
      intro stream hs
      rw [SSEClient.pending, hs, Option.map_some, Option.getD_some]
    split
    · exact .of_idle (by rw [hpc]; rfl) rfl rfl (List.Sublist.refl _) rfl rfl
    · dsimp only
      split
      · rename_i e'
        have hdrop : Flows s { s with
            stream := some ⟨items, error⟩, lastEnd := some (some e') } := by
          refine .of_same rfl ?_ rfl rfl
          rw [hpend _ hstream]
          exact List.Sublist.refl _
        exact hdrop.trans (flows_handle hpc)
      · refine .of_same rfl ?_ rfl rfl
        rw [hpend _ hstream]
        exact List.Sublist.refl _
      · rename_i event
        refine flows_receive (s := { s with stream := some ⟨items, error⟩ }) hpc rfl ?_ rfl rfl
        rw [hpend _ hstream]
        rfl

/-- **The step lemma.**  Every step but a dial that opens a stream hands on what it takes. -/
theorem flow_step (hown : a.opens = false) (hnot : s.pc.retrying = false)
    (hstep : s.step o a = some s') : Flows s s' := by
  cases SSEClient.moves_of_step hstep with
  | connected | connect | iterate | events => cases hown
  | dialed hpc | refused hpc | redialFailed hpc | noRedial hpc | redial hpc =>
    rw [hpc] at hnot
    cases hnot
  | accepted hpc =>
    rcases hpc with hpc | ⟨handling, hpc⟩
    all_goals
      rw [hpc] at hnot
      cases hnot
  | read hpc => exact flows_readStep hpc
  | deliver hpc =>
    refine .of_same ?_ (List.Sublist.refl _) rfl rfl
    rw [SSEClient.outgoing, SSEClient.outgoing, hpc]
    exact List.append_nil _
  | resume hpc => exact .of_idle (by rw [hpc]; rfl) rfl rfl (List.Sublist.refl _) rfl rfl
  | close => exact .of_same rfl (List.Sublist.refl _) rfl rfl
  | closeDone => exact .of_same rfl (List.nil_sublist _) rfl rfl

/-! A finished stream is not dialed again. -/

theorem handle_quiet (h : s.closed = true ∨ (o.autoReconnect = false ∨
    o.maxReconnectAttempts = 0) ∨ e.isFinal = true) : (s.handle o e).pc.retrying = false := by
  unfold SSEClient.handle
  split
  · rfl
  · rename_i hopen
    split
    · rfl
    · rename_i hretry
      have hcan : s.canRetry o = false := by
        obtain hc | (ha | hm) | hf := h
        · exact absurd hc hopen
        · rw [SSEClient.canRetry, ha, Bool.false_and, Bool.false_and]
        · rw [SSEClient.canRetry, hm, decide_eq_false (Nat.not_lt_zero _), Bool.and_false]
        · exact absurd hf hretry
      rw [if_neg (by rw [hcan]; exact Bool.false_ne_true)]
      rfl

theorem readStep_quiet (hpc : s.pc = .reading) (hfin : s.finished = true)
    (hq : EndsQuietly o s .read) : (s.readStep o).pc.retrying = false := by
  obtain hq := hq hfin
  have hfail : ∀ e, (∀ stream, s.stream = some stream → stream.fails o.jobStream = some e) →
      s.closed = true ∨ (o.autoReconnect = false ∨ o.maxReconnectAttempts = 0) ∨
        e.isFinal = true := by
    intro e he
    obtain hc | hb | ⟨stream, hs, hf⟩ := hq
    · exact .inl hc
    · exact .inr (.inl hb)
    · exact .inr (.inr (hf e (he stream hs)))
  unfold SSEClient.readStep
  split
  · rename_i hnone
    exact handle_quiet (hfail _ fun stream hs => by rw [hnone] at hs; cases hs)
  · unfold SSEClient.streamEnded
    rw [if_pos hfin]
    rfl
  · rename_i e' hstream
    exact handle_quiet (hfail e' fun stream hs => by rw [hstream] at hs; cases hs; rfl)
  · rename_i item items error hstream
    split
    · rfl
    · dsimp only
      split
      · rename_i e'
        exact handle_quiet (hfail e' fun stream hs => by rw [hstream] at hs; cases hs; rfl)
      · dsimp only
        rw [hpc]
        rfl
      · rename_i event
        unfold SSEClient.receive
        dsimp only
        split
        · rename_i hjob
          split
          · rename_i hclose
            refine handle_quiet (hfail _ fun stream hs => ?_)
            rw [hstream] at hs
            cases hs
            simp only [Stream.fails, unreadable, hjob, hclose, Bool.true_and, Option.isNone_none,
              if_true]
          · rfl
        · rfl

/-- **The step lemma.**  A client that has seen the terminal event does not come to dial. -/
theorem ended_step (hown : a.opens = false) (hq : EndsQuietly o s a) (hfin : s.finished = true)
    (hnot : s.pc.retrying = false) (hstep : s.step o a = some s') : s'.pc.retrying = false := by
  cases SSEClient.moves_of_step hstep with
  | connected | connect | iterate | events => cases hown
  | dialed hpc | refused hpc | redialFailed hpc | noRedial hpc | redial hpc =>
    rw [hpc] at hnot
    cases hnot
  | accepted hpc =>
    rcases hpc with hpc | ⟨handling, hpc⟩
    all_goals
      rw [hpc] at hnot
      cases hnot
  | read hpc => exact readStep_quiet hpc hfin hq
  | deliver | resume => rfl
  | close | closeDone => exact hnot

/-- From the terminal event on: no dial, and what is delivered is that event and then events
that were on the stream behind it. -/
theorem ended_run (hfin : s.finished = true) (hnot : s.pc.retrying = false)
    (h : (system o).Reaches (fun t b => b.opens = false ∧ EndsQuietly o t b) s s') :
    Flows s s' := by
  refine (h.preserves (P := fun t => Flows s t ∧ t.finished = true ∧ t.pc.retrying = false)
    ?_ ⟨.of_same rfl (List.Sublist.refl _) rfl rfl, hfin, hnot⟩).1
  rintro t b t' ⟨hflow, hf, hr⟩ ⟨hown, hq⟩ hstep
  have hnext := flow_step hown hr hstep
  exact ⟨hflow.trans hnext, hnext.finished hf, ended_step hown hq hf hr hstep⟩

end

end Sse

/-! ### The unified client -/

namespace Unified

open Sse (Stream DialReply)

namespace SpooledRealtime

/-- What the open stream still carries. -/
def pending (s : SpooledRealtime) : List RealtimeEvent :=
  (s.sseResponse.map Stream.events).getD []

/-- A timer of `_schedule_reconnect` may still fire. -/
def timerPending (s : SpooledRealtime) : Bool :=
  s.reconnectTimer || decide (0 < s.strayTimers)

end SpooledRealtime

/-- A call of the application that may open a stream. -/
def Action.opens : Action → Bool
  | .connect .. | .reconnect .. | .subscribe .. => true
  | _ => false

/-- The stream does not fail after its terminal event, unless no reconnect may follow, and no
timer is left from an earlier drop when it ends; nor one that `disconnect()` no longer knows; and
the thread of an earlier stream finds the stop flag set when it wakes up. -/
def EndsQuietly (o : Options) (s : SpooledRealtime) : Action → Prop
  | .read => s.finished = true → ∀ stream ∈ s.sseResponse,
      (stream.fails s.sseJobStream ≠ none →
        (o.autoReconnect = false ∨ o.maxReconnectAttempts = 0) ∧ s.timerPending = false) ∧
      (stream.items = [] → s.timerPending = false)
  | .disconnect => s.finished = true → s.strayTimers = 0
  | .late _ _ => s.finished = true → s.stopEvent = true
  | _ => True

section

variable {o : Options} {s s' : SpooledRealtime} {a : Action}

/-- A step hands on what it takes off the stream, and makes no dial. -/
structure Flows (s s' : SpooledRealtime) : Prop where
  moved : ∃ moved, s'.delivered = s.delivered ++ moved ∧
    (moved ++ s'.pending).Sublist s.pending
  dialed : s'.dialed = s.dialed
  finished : s.finished = true → s'.finished = true

theorem Flows.of_same (hd : s'.delivered = s.delivered) (hpend : s'.pending.Sublist s.pending)
    (hdialed : s'.dialed = s.dialed) (hfin : s'.finished = s.finished) : Flows s s' :=
  ⟨⟨[], by rw [hd, List.append_nil], hpend⟩, hdialed, hfin.trans⟩

theorem Flows.trans {s'' : SpooledRealtime} (h : Flows s s') (h' : Flows s' s'') :
    Flows s s'' := by
  obtain ⟨moved, hout, hpend⟩ := h.moved
  obtain ⟨moved', hout', hpend'⟩ := h'.moved
  refine ⟨⟨moved ++ moved', ?_, ?_⟩, h'.dialed.trans h.dialed, h'.finished ∘ h.finished⟩
  · rw [hout', hout, List.append_assoc]
  · rw [List.append_assoc]
    exact (hpend'.append_left moved).trans hpend

/-- An open stream belongs to the state `CONNECTED`, and nothing else does. -/
def Connected (s : SpooledRealtime) : Prop :=
  s.sseResponse.isSome = true ↔ s.state = .connected

theorem connected_closed (hs : s.sseResponse = none) (hst : s.state ≠ .connected) :
    Connected s :=
  ⟨fun h => (by
    rw [hs] at h
    cases h), fun h => absurd h hst⟩

/-- A finished client has its stream open, or nothing that would dial. -/
structure Ended (s : SpooledRealtime) : Prop where
  finished : s.finished = true
  connected : Connected s
  quiet : s.sseResponse = none → s.timerPending = false

theorem flows_handleDisconnect : Flows s (s.handleDisconnect o) := by
  unfold SpooledRealtime.handleDisconnect
  dsimp only
  split
  · exact .of_same rfl (List.nil_sublist _) rfl rfl
  · exact .of_same rfl (List.nil_sublist _) rfl rfl

theorem flows_drop : Flows s (s.drop o) := by
  have hclosed : Flows s { s with sseResponse := none } := .of_same rfl (List.nil_sublist _) rfl rfl
  exact hclosed.trans flows_handleDisconnect

theorem connected_handleDisconnect : Connected (s.handleDisconnect o) := by
  unfold SpooledRealtime.handleDisconnect
  dsimp only
  split
  · exact connected_closed rfl (fun h => by cases h)
  · exact connected_closed rfl (fun h => by cases h)

/-- Without a reconnect to make, `_handle_disconnect` leaves no timer. -/
theorem handleDisconnect_timers (h : o.autoReconnect = false ∨ o.maxReconnectAttempts = 0) :
    (s.handleDisconnect o).timerPending = s.timerPending := by
  have hcan : s.disconnectSse.canReconnect o = false := by
    unfold SpooledRealtime.canReconnect
    obtain ha | hm := h
    · rw [ha, Bool.false_and]
    · rw [hm, decide_eq_false (Nat.not_lt_zero _), Bool.and_false]
  unfold SpooledRealtime.handleDisconnect
  dsimp only
  rw [if_neg (by rw [hcan]; exact Bool.false_ne_true)]
  rfl

theorem connected_drop : Connected (s.drop o) := connected_handleDisconnect

theorem drop_timers (h : o.autoReconnect = false ∨ o.maxReconnectAttempts = 0) :
    (s.drop o).timerPending = s.timerPending :=
  handleDisconnect_timers h

theorem connected_lateStep {i : ℕ} {reader : Reader} {closed : Bool} (hc : Connected s) :
    Connected (s.lateStep o i reader closed) := by
  unfold SpooledRealtime.lateStep
  dsimp only
  split
  · exact connected_handleDisconnect
  · split
    · exact connected_closed rfl fun h => by cases h
    · exact connected_handleDisconnect
  · exact connected_handleDisconnect
  · split
    · exact connected_handleDisconnect
    · exact hc
    · split
      · exact connected_handleDisconnect
      · exact hc

theorem flows_readStep {stream : Stream} (hs : s.sseResponse = some stream) :
    Flows s (s.readStep o stream) := by
  have hpend : s.pending = stream.events := by
    rw [SpooledRealtime.pending, hs, Option.map_some, Option.getD_some]
  unfold SpooledRealtime.readStep
  split
  · split
    · exact .of_same rfl (List.nil_sublist _) rfl rfl
    · exact flows_drop
  · exact flows_drop
  · rename_i item items error
    have hdrop : Flows s { s with sseResponse := some ⟨items, error⟩ } := by
      refine .of_same rfl ?_ rfl rfl
      rw [hpend]
      exact (List.sublist_cons_self ..).filterMap _
    dsimp only
    split
    · exact hdrop.trans flows_drop
    · exact hdrop
    · rename_i event
      have hmove : ∀ t : SpooledRealtime, t.delivered = s.delivered ++ [event] →
          t.sseResponse = some ⟨items, error⟩ → t.dialed = s.dialed →
          (s.finished = true → t.finished = true) → Flows s t := by
        intro t hd hstream hdialed hfin
        refine ⟨⟨[event], hd, ?_⟩, hdialed, hfin⟩
        rw [hpend, SpooledRealtime.pending, hstream]
        exact List.Sublist.refl _
      unfold SpooledRealtime.receive
      dsimp only
      split
      · split
        · refine hdrop.trans (.trans ?_ flows_drop)
          exact .of_same rfl (List.Sublist.refl _) rfl rfl
        · exact hmove _ rfl rfl rfl fun hf => by rw [hf, Bool.true_or]
      · exact hmove _ rfl rfl rfl id

theorem connected_readStep {stream : Stream} (hc : Connected s)
    (hs : s.sseResponse = some stream) : Connected (s.readStep o stream) := by
  have hconn : s.state = .connected := hc.mp (by rw [hs]; rfl)
  unfold SpooledRealtime.readStep
  split
  · split
    · exact connected_closed rfl (fun h => by cases h)
    · exact connected_drop
  · exact connected_drop
  · dsimp only
    split
    · exact connected_drop
    · exact ⟨fun _ => hconn, fun _ => rfl⟩
    · unfold SpooledRealtime.receive
      dsimp only
      split
      · split
        · exact connected_drop
        · exact ⟨fun _ => hconn, fun _ => rfl⟩
      · exact ⟨fun _ => hconn, fun _ => rfl⟩

/-- A read that closes the stream leaves no timer behind. -/
theorem readStep_quiet {stream : Stream} (hfin : s.finished = true)
    (hs : s.sseResponse = some stream) (hq : EndsQuietly o s .read)
    (hnone : (s.readStep o stream).sseResponse = none) :
    (s.readStep o stream).timerPending = false := by
  obtain ⟨hfail, hend⟩ := hq hfin stream hs
  have hdrop : ∀ t : SpooledRealtime, t.timerPending = s.timerPending →
      stream.fails s.sseJobStream ≠ none → (t.drop o).timerPending = false := by
    intro t ht hne
    obtain ⟨hbudget, htimer⟩ := hfail hne
    rw [drop_timers hbudget, ht, htimer]
  unfold SpooledRealtime.readStep at hnone ⊢
  split
  · rw [if_pos hfin]
    exact hend rfl
  · exact hdrop s rfl (by exact Option.some_ne_none _)
  · rename_i item items error
    dsimp only at hnone ⊢
    split
    · exact hdrop _ rfl (by exact Option.some_ne_none _)
    · cases hnone
    · rename_i event
      dsimp only at hnone
      unfold SpooledRealtime.receive at hnone ⊢
      dsimp only at hnone ⊢
      split
      · rename_i hjob
        split
        · rename_i hclose
          refine hdrop _ rfl ?_
          simp only [Stream.fails, unreadable, hjob, hclose, Bool.true_and, Option.isNone_none,
            if_true, ne_eq, reduceCtorEq, not_false_eq_true]
        · rename_i hclose
          rw [if_pos hjob, hclose] at hnone
          cases hnone
      · rename_i hjob
        rw [if_neg hjob] at hnone
        cases hnone

/-- A timer that fires on a connected client does nothing. -/
theorem doReconnect_connected {reply : DialReply} (h : s.state = .connected) :
    s.doReconnect o reply = s := by
  unfold SpooledRealtime.doReconnect SpooledRealtime.connect
  rw [if_pos (.inl h)]

/-- **The step lemma.** -/
theorem ended_step (hown : a.opens = false) (hq : EndsQuietly o s a) (h : Ended s)
    (hstep : s.step o a = some s') : Flows s s' ∧ Ended s' := by
  -- a timer that is pending finds the stream open
  have hopen : s.timerPending = true → s.state = .connected := by
    intro htimer
    cases hs : s.sseResponse with
    | none =>
      rw [h.quiet hs] at htimer
      cases htimer
    | some stream => exact h.connected.mp (by rw [hs]; rfl)
  cases a with
  | connect | reconnect | subscribe => cases hown
  | disconnect =>
    obtain rfl := Option.some_inj.mp hstep
    refine ⟨.of_same rfl (List.nil_sublist _) rfl rfl, h.finished,
      connected_closed rfl (fun h => by cases h), fun _ => ?_⟩
    have hstray : s.strayTimers = 0 := hq h.finished
    rw [SpooledRealtime.timerPending]
    exact Bool.or_eq_false_iff.mpr ⟨rfl, decide_eq_false (by
      change ¬0 < s.strayTimers
      omega)⟩
  | unsubscribe f =>
    obtain rfl := Option.some_inj.mp hstep
    unfold SpooledRealtime.unsubscribe
    split
    · exact ⟨.of_same rfl (List.Sublist.refl _) rfl rfl, h.finished, h.connected, h.quiet⟩
    · exact ⟨.of_same rfl (List.Sublist.refl _) rfl rfl, h.finished, h.connected, h.quiet⟩
  | read =>
    obtain ⟨stream, hs, rfl⟩ := Option.map_eq_some_iff.mp hstep
    have hflow := flows_readStep (o := o) hs
    exact ⟨hflow, hflow.finished h.finished, connected_readStep h.connected hs,
      readStep_quiet h.finished hs hq⟩
  | late i closed =>
    obtain ⟨reader, -, rfl⟩ := Option.map_eq_some_iff.mp hstep
    rw [if_pos (hq h.finished)]
    exact ⟨.of_same rfl (List.Sublist.refl _) rfl rfl, h.finished, h.connected, h.quiet⟩
  | fire reply =>
    dsimp only [SpooledRealtime.step] at hstep
    split at hstep
    · rename_i htimer
      have hconn := hopen (by rw [SpooledRealtime.timerPending, htimer, Bool.true_or])
      obtain rfl := Option.some_inj.mp hstep
      rw [doReconnect_connected (by exact hconn)]
      refine ⟨.of_same rfl (List.Sublist.refl _) rfl rfl, h.finished, h.connected, fun hs => ?_⟩
      have hsome := h.connected.mpr hconn
      rw [show s.sseResponse = none from hs] at hsome
      cases hsome
    · cases hstep
  | fireStray reply =>
    dsimp only [SpooledRealtime.step] at hstep
    split at hstep
    · rename_i htimer
      have hconn := hopen (by
        rw [SpooledRealtime.timerPending, decide_eq_true htimer, Bool.or_true])
      obtain rfl := Option.some_inj.mp hstep
      rw [doReconnect_connected (by exact hconn)]
      refine ⟨.of_same rfl (List.Sublist.refl _) rfl rfl, h.finished, h.connected, fun hs => ?_⟩
      have hsome := h.connected.mpr hconn
      rw [show s.sseResponse = none from hs] at hsome
      cases hsome
    · cases hstep

theorem ended_run (h : Ended s)
    (hrun : (system o).Reaches (fun t b => b.opens = false ∧ EndsQuietly o t b) s s') :
    Flows s s' := by
  refine (hrun.preserves (P := fun t => Flows s t ∧ Ended t) ?_
    ⟨.of_same rfl (List.Sublist.refl _) rfl rfl, h⟩).1
  rintro t b t' ⟨hflow, hended⟩ ⟨hown, hq⟩ hstep
  obtain ⟨hnext, hended'⟩ := ended_step hown hq hended hstep
  exact ⟨hflow.trans hnext, hended'⟩

/-! Every run keeps the state and the stream together. -/

theorem connected_connectSse {filter : Option SubscriptionFilter} {reply : DialReply} :
    Connected (s.connectSse o filter reply).1 := by
  cases reply with
  | failed e => exact connected_closed rfl fun h => by cases h
  | accepted stream => exact ⟨fun _ => rfl, fun _ => rfl⟩

theorem connected_connect {filter : Option SubscriptionFilter} {reply : DialReply}
    (h : Connected s) : Connected (s.connect o filter reply).1 := by
  unfold SpooledRealtime.connect
  split
  · exact h
  · exact connected_connectSse

theorem connected_disconnect : Connected s.disconnect :=
  connected_closed rfl fun h => by cases h

/-- A dial that fails leaves no stream. -/
theorem connect_failed {filter : Option SubscriptionFilter} {reply : DialReply} {e : PyException}
    (h : (s.connect o filter reply).2 = some e) :
    (s.connect o filter reply).1.sseResponse = none := by
  unfold SpooledRealtime.connect at h ⊢
  split at h
  · cases h
  · rename_i hstate
    rw [if_neg hstate]
    cases reply with
    | failed e' => rfl
    | accepted stream => cases h

theorem connected_doReconnect {reply : DialReply} (h : Connected s) :
    Connected (s.doReconnect o reply) := by
  have hconnect : Connected (s.connect o none reply).1 := connected_connect h
  unfold SpooledRealtime.doReconnect
  split
  · rename_i heq
    rw [heq] at hconnect
    exact hconnect
  · rename_i s' e heq
    split
    · have hnone := connect_failed (e := e) (congrArg Prod.snd heq)
      rw [heq] at hnone
      exact connected_closed hnone fun hst => by cases hst
    · exact connected_handleDisconnect

theorem connected_step (h : Connected s) (hstep : s.step o a = some s') : Connected s' := by
  cases a with
  | connect filter reply =>
    obtain rfl := Option.some_inj.mp hstep
    exact connected_connect h
  | disconnect =>
    obtain rfl := Option.some_inj.mp hstep
    exact connected_disconnect
  | reconnect filter reply =>
    obtain rfl := Option.some_inj.mp hstep
    exact connected_connect connected_disconnect
  | subscribe f reply =>
    obtain rfl := Option.some_inj.mp hstep
    unfold SpooledRealtime.subscribe
    split
    · exact h
    · dsimp only
      split
      · exact connected_connect connected_disconnect
      · exact h
  | unsubscribe f =>
    obtain rfl := Option.some_inj.mp hstep
    unfold SpooledRealtime.unsubscribe
    split
    · exact h
    · exact h
  | read =>
    obtain ⟨stream, hs, rfl⟩ := Option.map_eq_some_iff.mp hstep
    exact connected_readStep h hs
  | late i closed =>
    obtain ⟨reader, -, rfl⟩ := Option.map_eq_some_iff.mp hstep
    split
    · exact h
    · exact connected_lateStep h
  | fire reply =>
    dsimp only [SpooledRealtime.step] at hstep
    split at hstep
    · obtain rfl := Option.some_inj.mp hstep
      exact connected_doReconnect h
    · cases hstep
  | fireStray reply =>
    dsimp only [SpooledRealtime.step] at hstep
    split at hstep
    · obtain rfl := Option.some_inj.mp hstep
      exact connected_doReconnect h
    · cases hstep

theorem connected_of_reachable (h : (system o).Reachable System.always s) : Connected s :=
  h.invariant (connected_closed rfl fun hst => by cases hst) fun _ _ _ hs _ hstep =>
    connected_step hs hstep

end

end Unified

open Sse (Stream)

/-- From the step that receives the terminal event of a job stream on, in every run in which the
stream does not fail after it and the application opens no stream: no dial is made, and that
event leaves for the consumer once, followed by nothing but events that were behind it. -/
theorem job_stream_ends (event : RealtimeEvent) (items : List Sse.Item)
    (error : Option PyException) (hclose : closesJobStream event = some true) :
    (∀ (o : Sse.Options) (s s' s'' : Sse.SSEClient), o.jobStream = true →
      s.pc = .reading → s.closed = false →
      s.stream = some ⟨.ok (some event) :: items, error⟩ → s.step o .read = some s' →
      (Sse.system o).Reaches (fun t a => a.opens = false ∧ Sse.EndsQuietly o t a) s' s'' →
      s''.dials = s.dials ∧ ∃ later, s''.outgoing = s.delivered ++ event :: later ∧
        later.Sublist (Stream.events ⟨items, error⟩)) ∧
    (∀ (o : Unified.Options) (s s' s'' : Unified.SpooledRealtime),
      (Unified.system o).Reachable System.always s → s.sseJobStream = true →
      s.sseResponse = some ⟨.ok (some event) :: items, error⟩ → s.step o .read = some s' →
      (Unified.system o).Reaches (fun t a => a.opens = false ∧ Unified.EndsQuietly o t a)
        s' s'' →
      s''.dialed = s.dialed ∧ ∃ later, s''.delivered = s.delivered ++ event :: later ∧
        later.Sublist (Stream.events ⟨items, error⟩)) := by
  constructor
  · intro o s s' s'' hjob hpc hopen hstream hstep hrun
    have hread : s' = { s with
        stream := some ⟨items, error⟩
        reconnectAttempts := 0
        received := s.received ++ [event]
        finished := s.finished || true
        pc := .delivering event } := by
      rw [Sse.SSEClient.step_of_moves (.read hpc), Option.some_inj] at hstep
      simp only [Sse.SSEClient.readStep, hstream, hopen, Sse.SSEClient.receive, hjob, hclose,
        if_true, Bool.false_eq_true, if_false] at hstep
      rw [← hstep, hopen]
    have hflow := Sse.ended_run (by rw [hread]; exact Bool.or_true _) (by rw [hread]; rfl) hrun
    obtain ⟨later, hout, hsub⟩ := hflow.moved
    refine ⟨by rw [hflow.dials, hread], later, ?_, ?_⟩
    · rw [hout, hread]
      exact List.append_assoc ..
    · rw [hread] at hsub
      exact (List.sublist_append_left ..).trans hsub
  · intro o s s' s'' hr hjob hstream hstep hrun
    have hread : s' = { s with
        sseResponse := some ⟨items, error⟩
        reconnectAttempts := 0
        finished := s.finished || true
        delivered := s.delivered ++ [event] } := by
      simp only [Unified.SpooledRealtime.step, hstream, Option.map_some,
        Unified.SpooledRealtime.readStep, Unified.SpooledRealtime.receive, hjob, hclose, if_true,
        Option.some_inj] at hstep
      rw [← hstep, hjob]
    have hended : Unified.Ended s' := by
      rw [hread]
      refine ⟨Bool.or_true _, ?_, fun hs => by cases hs⟩
      have := Unified.connected_of_reachable hr
      exact ⟨fun _ => this.mp (by rw [hstream]; rfl), fun _ => rfl⟩
    have hflow := Unified.ended_run hended hrun
    obtain ⟨later, hout, hsub⟩ := hflow.moved
    refine ⟨by rw [hflow.dialed, hread], later, ?_, ?_⟩
    · rw [hout, hread]
      exact List.append_assoc ..
    · rw [hread] at hsub
      exact (List.sublist_append_left ..).trans hsub

/-- The event that ends the stream of a job. -/
def jobDone : RealtimeEvent :=
  { type := "job.status_changed", data := .obj [("new_status", .str "completed")] }

/-- A generator and a unified client read a job stream to its end. -/
theorem job_stream_ends_sample :
    (∃ s : Sse.SSEClient, s.pc = .returned ∧ s.dials = 1 ∧
      ∃ later, s.outgoing = jobDone :: later) ∧
    ∃ s : Unified.SpooledRealtime, s.state = .disconnected ∧ s.dialed.length = 1 ∧
      ∃ later, s.delivered = jobDone :: later := by
  constructor
  · let o : Sse.Options := { jobStream := true }
    let s : Sse.SSEClient :=
      { pc := .reading, dials := 1, stream := some ⟨[.ok (some jobDone)], none⟩ }
    let ok := fun (t : Sse.SSEClient) (a : Sse.Action) => a.opens = false ∧ Sse.EndsQuietly o t a
    let s' := (s.step o .read).get rfl
    have hread : (Sse.system o).Reaches ok s' s' := Relation.ReflTransGen.refl
    have hdeliver := hread.step (a := .deliver) (by exact ⟨rfl, trivial⟩) rfl
    have hresume := hdeliver.step (a := .resume) (by exact ⟨rfl, trivial⟩) rfl
    have hend := hresume.step (a := .read)
      (by exact ⟨rfl, fun _ => .inr (.inr ⟨_, rfl, nofun⟩)⟩) rfl
    obtain ⟨hdials, later, hout, -⟩ :=
      (job_stream_ends jobDone [] none rfl).1 o s s' _ rfl rfl rfl rfl rfl hend
    exact ⟨_, rfl, hdials, later, hout⟩
  · let o : Unified.Options := { baseUrl := "https://api" }
    let ok := fun (t : Unified.SpooledRealtime) (a : Unified.Action) =>
      a.opens = false ∧ Unified.EndsQuietly o t a
    obtain ⟨s, hr, hjob, hstream, hdialed, hdelivered, htimer⟩ :
        ∃ s, (Unified.system o).Reachable System.always s ∧ s.sseJobStream = true ∧
          s.sseResponse = some ⟨[.ok (some jobDone)], none⟩ ∧ s.dialed.length = 1 ∧
          s.delivered = [] ∧ s.timerPending = false := by
      have hinit : (Unified.system o).Reachable System.always (Unified.system o).init := .init
      have hsub := hinit.step
        (a := .subscribe { jobId := some "j1" } (.failed (.other "not dialed"))) trivial rfl
      have hconnect := hsub.step
        (a := .connect none (.accepted ⟨[.ok (some jobDone)], none⟩)) trivial rfl
      exact ⟨_, hconnect, by decide +kernel, rfl, rfl, rfl, rfl⟩
    have hclose : closesJobStream jobDone = some true := rfl
    let s' : Unified.SpooledRealtime := { s with
      sseResponse := some ⟨[], none⟩, reconnectAttempts := 0, finished := true
      delivered := [jobDone] }
    have hread : s.step o .read = some s' := by
      simp [s', Unified.SpooledRealtime.step, hstream, Unified.SpooledRealtime.readStep,
        Unified.SpooledRealtime.receive, hjob, hclose, hdelivered]
    have hquiet : Unified.EndsQuietly o s' .read := by
      intro _ stream hs
      cases hs
      exact ⟨fun hfail => absurd rfl hfail, fun _ => htimer⟩
    have hopen : (Unified.system o).Reaches ok s' s' := Relation.ReflTransGen.refl
    have hend := hopen.step (a := .read) (by exact ⟨rfl, hquiet⟩) rfl
    obtain ⟨hsame, later, hout, -⟩ :=
      (job_stream_ends jobDone [] none hclose).2 o s s' _ hr hjob hstream hread hend
    rw [hdelivered] at hout
    exact ⟨s'.readStep o ⟨[], none⟩, rfl, (congrArg List.length hsame).trans hdialed, later, hout⟩

/-- The stream of a finished job fails after its last event: it is dialed again, and the event
is delivered again, by the generator and by the unified client. -/
theorem terminal_event_replayed :
    let stream : Stream := ⟨[.ok (some jobDone)], some (.other "connection reset")⟩
    ((Sse.system { jobStream := true }).run {}
      [.events, .reply (.accepted stream), .read, .deliver, .resume, .read, .wake,
        .reply (.accepted stream), .read, .deliver]).any
      (fun s => s.finished && s.dials == 2 && s.delivered.length == 2) = true ∧
    ((Unified.system { baseUrl := "https://api" }).run {}
      [.subscribe { jobId := some "j1" } (.accepted stream), .connect none (.accepted stream),
        .read, .read, .fire (.accepted stream), .read]).any
      (fun s => s.finished && s.dialed.length == 2 && s.delivered.length == 2) = true :=
  ⟨rfl, rfl⟩

end SpooledSdk.Realtime
