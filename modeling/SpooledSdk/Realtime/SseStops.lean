/-
`close()` of the SSE clients.

* `calmed_step` — a client that has been closed while no dial was in progress stays closed, and
  its generator dials no more, until the application calls again;
* `closing_step` — a `close()` that has set its flag finds the client so until it returns.
-/
import SpooledSdk.Realtime.SseStep

namespace SpooledSdk.Realtime.Sse

/-- No dial is in progress. -/
def Pc.calm : Pc → Bool
  | .connecting _ | .dialing _ => false
  | _ => true

/-- A `close()` sets its flag when no dial is in progress, and returns when no event is being
handed over; meanwhile the application does not call. -/
def ClosesCleanly (s : SSEClient) : Action → Bool
  | .connect | .events => !s.closing
  | .close => s.pc.calm
  | .closeDone => !s.pc.midDelivery
  | .reply _ | .read | .deliver | .resume | .wake => true

/-- The step by which a `close()` returns. -/
def Returns (_ : SSEClient) (a : Action) : Prop := a = .closeDone

/-- The application calls `connect()` or `events()`. -/
def Asks (_ : SSEClient) (a : Action) : Prop := a = .connect ∨ a = .events

/-- The state is not CONNECTED, no stream is open, none has been dialed, and no event has been
delivered. -/
structure Silent (s₀ s : SSEClient) : Prop where
  state : s.state ≠ .connected
  stream : s.stream = none
  dials : s.dials = s₀.dials
  delivered : s.delivered = s₀.delivered

/-- A client that has been closed, with a generator that will not dial. -/
structure Calmed (s : SSEClient) : Prop where
  closed : s.closed = true
  pc : s.pc.calm = true

variable {o : Options} {s s' s₀ : SSEClient}

theorem handle_of_closed (h : s.closed = true) (e : PyException) :
    s.handle o e = { s with pc := .returned } := by
  rw [SSEClient.handle, if_pos h]

/-- What a turn of the loop leaves as it is, once the client is closed. -/
theorem readStep_of_closed (h : s.closed = true) :
    Calmed (s.readStep o) ∧ (s.readStep o).pc = .returned ∧
      (s.readStep o).dials = s.dials ∧ (s.readStep o).delivered = s.delivered ∧
      (s.stream = none → (s.readStep o).stream = none ∧ (s.readStep o).state = s.state) := by
  rw [SSEClient.readStep]
  -- in turn: no stream, its end, its failure, an item to handle
  split
  · rename_i hstream
    dsimp only
    rw [handle_of_closed (by exact h)]
    exact ⟨⟨h, rfl⟩, rfl, rfl, rfl, fun _ => ⟨hstream, rfl⟩⟩
  · rename_i hstream
    have hopen : s.stream ≠ none := by
      rw [hstream]
      nofun
    dsimp only [SSEClient.streamEnded]
    split
    · exact ⟨⟨rfl, rfl⟩, rfl, rfl, rfl, fun hnone => absurd hnone hopen⟩
    · exact ⟨⟨h, rfl⟩, rfl, rfl, rfl, fun hnone => absurd hnone hopen⟩
  · rename_i e hstream
    have hopen : s.stream ≠ none := by
      rw [hstream]
      nofun
    rw [handle_of_closed (by exact h)]
    exact ⟨⟨h, rfl⟩, rfl, rfl, rfl, fun hnone => absurd hnone hopen⟩
  · rename_i hstream
    have hopen : s.stream ≠ none := by
      rw [hstream]
      nofun
    rw [if_pos h]
    exact ⟨⟨h, rfl⟩, rfl, rfl, rfl, fun hnone => absurd hnone hopen⟩

/-- A client that has been closed and is not called again stays so. -/
theorem calmed_step (h : Calmed s) {a : Action} (hasks : ¬ Asks s a)
    (hstep : s.step o a = some s') : Calmed s' := by
  obtain ⟨hclosed, hpc⟩ := h
  cases SSEClient.moves_of_step hstep with
  | connected | connect => exact absurd (.inl rfl) hasks
  | iterate | events => exact absurd (.inr rfl) hasks
  | dialed hdial | refused hdial | redialFailed hdial =>
    rw [hdial] at hpc
    cases hpc
  | accepted hdial =>
    rcases hdial with hdial | ⟨handling, hdial⟩
    all_goals
      rw [hdial] at hpc
      cases hpc
  | read => exact (readStep_of_closed hclosed).1
  | deliver | resume => exact ⟨hclosed, rfl⟩
  | @noRedial handling =>
    -- the client is closed, so the delay ends without a dial
    refine ⟨hclosed, ?_⟩
    cases handling <;> rfl
  | redial _ hopen =>
    rw [hclosed] at hopen
    cases hopen
  | close => exact ⟨rfl, hpc⟩
  | closeDone => exact ⟨hclosed, hpc⟩

theorem handle_closing (e : PyException) : (s.handle o e).closing = s.closing := by
  rw [SSEClient.handle]
  repeat' split
  all_goals rfl

theorem readStep_closing : (s.readStep o).closing = s.closing := by
  rw [SSEClient.readStep]
  split
  · rw [handle_closing]
  · rw [SSEClient.streamEnded]
    repeat' split
    all_goals rfl
  · rw [handle_closing]
  · split
    · rfl
    · dsimp only
      split
      · rw [handle_closing]
      · rfl
      · rw [SSEClient.receive]
        repeat' split
        all_goals first
          | rfl
          | rw [handle_closing]

/-- Only a `close()` sets the mark. -/
theorem closing_of_step {a : Action} (hstep : s.step o a = some s') (hclosing : s'.closing = true) :
    a = .close ∨ s.closing = true := by
  cases SSEClient.moves_of_step hstep with
  | close => exact .inl rfl
  | closeDone => cases hclosing
  | redialFailed =>
    refine .inr ?_
    simp only [SSEClient.redialFailed] at hclosing
    repeat' split at hclosing
    all_goals first
      | exact hclosing
      | (rw [handle_closing] at hclosing; exact hclosing)
  | read =>
    rw [readStep_closing] at hclosing
    exact .inr hclosing
  | _ => exact .inr hclosing

/-- A `close()` that has set its flag finds the client closed until it returns. -/
def Closing (s : SSEClient) : Prop := s.closing = true → Calmed s

theorem closing_step (h : Closing s) {a : Action} (hok : ClosesCleanly s a = true)
    (hstep : s.step o a = some s') : Closing s' := by
  intro hclosing
  by_cases hwas : s.closing = true
  · refine calmed_step (h hwas) ?_ hstep
    rintro (rfl | rfl) <;> (simp only [ClosesCleanly, hwas] at hok; cases hok)
  · -- `close()` sets its flag, when no dial is in progress
    obtain rfl := (closing_of_step hstep hclosing).resolve_right hwas
    cases SSEClient.moves_of_step hstep with
    | close => exact ⟨rfl, hok⟩

theorem closing_of_reachable
    (h : (system o).Reachable (fun s a => ClosesCleanly s a = true) s) : Closing s := by
  refine h.invariant ?_ fun _ _ _ ht hok hstep => closing_step ht hok hstep
  intro hclosing
  cases hclosing

/-- A client that has been silent since `s₀`, closed, and with nothing to hand over. -/
structure Resting (s₀ s : SSEClient) : Prop where
  calmed : Calmed s
  delivery : s.pc.midDelivery = false
  silent : Silent s₀ s

theorem resting_step (h : Resting s₀ s) {a : Action} (hasks : ¬ Asks s a)
    (hstep : s.step o a = some s') : Resting s₀ s' := by
  have hcalmed := calmed_step h.calmed hasks hstep
  obtain ⟨⟨hclosed, hpc⟩, hdelivery, hstate, hstream, hdials, hdelivered⟩ := h
  suffices hsilent : s'.pc.midDelivery = false ∧ Silent s₀ s' from
    ⟨hcalmed, hsilent.1, hsilent.2⟩
  cases SSEClient.moves_of_step hstep with
  | connected | connect => exact absurd (.inl rfl) hasks
  | iterate | events => exact absurd (.inr rfl) hasks
  | dialed hdial | refused hdial | redialFailed hdial =>
    rw [hdial] at hpc
    cases hpc
  | accepted hdial =>
    rcases hdial with hdial | ⟨handling, hdial⟩
    all_goals
      rw [hdial] at hpc
      cases hpc
  | read =>
    obtain ⟨-, hreturned, hdials', hdelivered', hsame⟩ := readStep_of_closed (o := o) hclosed
    obtain ⟨hstream', hstate'⟩ := hsame hstream
    refine ⟨by rw [hreturned]; rfl, ?_, hstream', hdials'.trans hdials,
      hdelivered'.trans hdelivered⟩
    rw [hstate']
    exact hstate
  | deliver hdelivering =>
    rw [hdelivering] at hdelivery
    cases hdelivery
  | resume => exact ⟨rfl, hstate, hstream, hdials, hdelivered⟩
  | @noRedial handling =>
    refine ⟨?_, hstate, hstream, hdials, hdelivered⟩
    cases handling <;> rfl
  | redial _ hopen =>
    rw [hclosed] at hopen
    cases hopen
  | close => exact ⟨hdelivery, hstate, hstream, hdials, hdelivered⟩
  | closeDone =>
    -- a second `close()` tears down once more
    exact ⟨hdelivery, nofun, rfl, hdials, hdelivered⟩

/-- The step by which a `close()` returns leaves the client at rest. -/
theorem resting_of_returns (h : Closing s) {a : Action} (hok : ClosesCleanly s a = true)
    (hret : Returns s a) (hstep : s.step o a = some s') : Resting s' s' := by
  obtain rfl : a = .closeDone := hret
  have hdelivery : s.pc.midDelivery = false := by
    simpa only [ClosesCleanly, Bool.not_eq_true'] using hok
  cases SSEClient.moves_of_step hstep with
  | closeDone hclosing =>
    obtain ⟨hclosed, hpc⟩ := h hclosing
    exact ⟨⟨hclosed, hpc⟩, hdelivery, nofun, rfl, rfl, rfl⟩

end SpooledSdk.Realtime.Sse
