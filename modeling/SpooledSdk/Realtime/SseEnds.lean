/-
An ended SSE client can be used again.

`connect()` and `events()` look at the state and at the response to decide whether to dial.  The
generator leaves both as they are where a stream ends that it does not open again; in runs in
which every stream that ends is opened again, or is a finished job stream, a generator that has
ended leaves a client that dials (`ended_client_dials`).
-/
import SpooledSdk.Realtime.SseStep

namespace SpooledSdk.Realtime.Sse

/-- The generator has ended: it returned or raised. -/
def Pc.ended : Pc → Bool
  | .returned | .raised _ => true
  | _ => false

/-- A dial is under way, or the wait before one. -/
def Pc.waits : Pc → Bool
  | .connecting _ | .sleeping _ | .dialing _ => true
  | _ => false

namespace SSEClient

/-- `DISCONNECTED`, and the response closed. -/
def Torn (s : SSEClient) : Prop := s.stream = none ∧ s.state = .disconnected

/-- A `close()` has set its flag and goes on to tear the client down. -/
def Shutting (s : SSEClient) : Prop := s.closed = true ∧ s.closing = true

/-- The error `e` ends the stream, and the generator retries. -/
def Retries (o : Options) (s : SSEClient) (e : PyException) : Prop :=
  e.isFinal = false ∧ s.canRetry o = true

end SSEClient

/-- A stream that ends without a `close()` is a finished job stream that ends without an error,
or is retried: `auto_reconnect` is on, the budget is not spent, and the error is a retryable
one. -/
def Reopens (o : Options) (s : SSEClient) : Action → Prop
  | .read => s.pc = .reading → s.closed = false → ∀ stream, s.stream = some stream →
    match stream with
    | ⟨[], none⟩ => s.finished = true ∨ s.canRetry o = true
    | ⟨[], some e⟩ => s.Retries o e
    | ⟨.error e :: _, _⟩ => s.Retries o e
    | ⟨.ok none :: _, _⟩ => True
    | ⟨.ok (some event) :: _, _⟩ => o.jobStream = true → closesJobStream event = none →
        { s with reconnectAttempts := 0 }.canRetry o = true
  | _ => True

/-- What `connect()` and `events()` rely on. -/
structure Usable (s : SSEClient) : Prop where
  closed : s.closed = true → s.closing = true ∨
    s.stream = none ∧ (s.state = .disconnected ∨ ∃ inEvents, s.pc = .connecting inEvents)
  torn : s.stream = none → s.state = .disconnected ∨ s.pc.waits = true ∨ s.Shutting
  ended : s.pc.ended = true → s.Shutting ∨ s.Torn

section

variable {o : Options} {s s' : SSEClient}

/-- A generator that ends at a `close()` leaves the tearing down to it. -/
theorem Usable.end_of_closed (h : Usable s) (hpc : ∀ inEvents, s.pc ≠ .connecting inEvents)
    (hclosed : s.closed = true) (pc : Pc) : Usable { s with pc := pc } := by
  have hrest : s.Shutting ∨ s.Torn := by
    rcases h.closed hclosed with hclosing | ⟨hnone, hstate | ⟨inEvents, hconn⟩⟩
    · exact .inl ⟨hclosed, hclosing⟩
    · exact .inr ⟨hnone, hstate⟩
    · exact absurd hconn (hpc inEvents)
  refine ⟨fun _ => ?_, fun hnone => ?_, fun _ => hrest⟩
  · exact hrest.imp (fun h => h.2) fun h => ⟨h.1, .inl h.2⟩
  · exact hrest.elim (fun h => .inr (.inr h)) fun h => .inl h.2

/-- A client that is torn down may end as it likes. -/
theorem Usable.of_torn (h : s.Torn) : Usable s where
  closed _ := .inr ⟨h.1, .inl h.2⟩
  torn _ := .inl h.2
  ended _ := .inr h

theorem Usable.sleep (hclosed : s.closed = false) (handling : Option PyException) :
    Usable (s.sleep handling) where
  closed h := absurd h (by rw [SSEClient.sleep]; dsimp only; rw [hclosed]; decide)
  torn _ := .inr (.inl rfl)
  ended h := nomatch h

theorem not_closed_of_canRetry (h : s.canRetry o = true) : s.closed = false := by
  rw [SSEClient.canRetry, Bool.and_eq_true, Bool.and_eq_true] at h
  simpa using h.1.2

/-- The handler retries, ends at a `close()`, or ends a client that is torn down. -/
theorem Usable.handle (h : Usable s) (hpc : ∀ inEvents, s.pc ≠ .connecting inEvents)
    {e : PyException} (hretry : s.closed = false → s.Retries o e ∨ s.Torn) :
    Usable (s.handle o e) := by
  rw [SSEClient.handle]
  -- the flag is looked at before the error is
  by_cases hclosed : s.closed = true
  · rw [if_pos hclosed]
    exact h.end_of_closed hpc hclosed _
  · rw [if_neg hclosed]
    have hopen : s.closed = false := Bool.eq_false_iff.mpr hclosed
    rcases hretry hopen with ⟨hfinal, hcan⟩ | htorn
    · rw [if_neg (by rw [hfinal]; decide), if_pos hcan]
      exact .sleep hopen _
    · split
      · exact .of_torn htorn
      · split
        · exact .sleep hopen _
        · exact .of_torn htorn

theorem Usable.streamEnded (h : Usable s) (hpc : ∀ inEvents, s.pc ≠ .connecting inEvents)
    (hretry : s.closed = false → s.finished = true ∨ s.canRetry o = true) :
    Usable (s.streamEnded o) := by
  rw [SSEClient.streamEnded]
  split
  · exact .of_torn ⟨rfl, rfl⟩
  · rename_i hfinished
    by_cases hclosed : s.closed = true
    · rw [if_pos hclosed]
      exact h.end_of_closed hpc hclosed _
    · have hopen : s.closed = false := Bool.eq_false_iff.mpr hclosed
      rw [if_neg hclosed, if_pos ((hretry hopen).resolve_left hfinished)]
      exact .sleep hopen _

theorem Usable.redialFailed (hpc : ∀ inEvents, s.pc ≠ .connecting inEvents)
    (handling : Option PyException) (e : PyException) :
    Usable (s.redialFailed o handling e) := by
  have htorn : ({ s with stream := none, state := .disconnected } : SSEClient).Torn := ⟨rfl, rfl⟩
  simp only [SSEClient.redialFailed]
  split
  · rename_i hcan
    exact .sleep (not_closed_of_canRetry (Bool.and_eq_true_iff.mp hcan).2) _
  · cases handling with
    -- `_open` has torn down what a redial has left, whoever handles the error
    | none => exact (Usable.of_torn htorn).handle hpc fun _ => .inr htorn
    | some e' => exact .of_torn ⟨rfl, rfl⟩

/-- A generator that is not waiting for a dial goes on with the connection it has. -/
theorem Usable.goOn (h : Usable s) (hpc : s.pc.waits = false) (hclosed : s'.closed = s.closed)
    (hclosing : s'.closing = s.closing) (hstream : s'.stream = s.stream)
    (hstate : s'.state = s.state) (hended : s'.pc.ended = false) : Usable s' where
  closed hc := by
    rw [hclosing, hstream, hstate]
    rcases h.closed (hclosed ▸ hc) with hcl | ⟨hnone, hst | ⟨inEvents, hconn⟩⟩
    · exact .inl hcl
    · exact .inr ⟨hnone, .inl hst⟩
    · rw [hconn] at hpc
      cases hpc
  torn hnone := by
    rw [hstate, SSEClient.Shutting, hclosed, hclosing]
    rcases h.torn (hstream ▸ hnone) with hst | hw | hshut
    · exact .inl hst
    · rw [hpc] at hw
      cases hw
    · exact .inr (.inr hshut)
  ended he := absurd he (by rw [hended]; decide)

theorem not_connecting (h : s.pc = .reading) (inEvents : Bool) : s.pc ≠ .connecting inEvents := by
  rw [h]
  nofun

theorem Usable.receive (h : Usable s) (hpc : s.pc = .reading) {event : RealtimeEvent}
    (hretry : s.closed = false → o.jobStream = true → closesJobStream event = none →
      { s with reconnectAttempts := 0 }.canRetry o = true) :
    Usable (s.receive o event) := by
  have hwaits : s.pc.waits = false := by rw [hpc]; rfl
  simp only [SSEClient.receive]
  split
  · rename_i hjob
    split
    · rename_i hclose
      refine Usable.handle (s := { s with
        reconnectAttempts := 0
        received := s.received ++ [event]
        lastEnd := some (some (.other "unhashable type")) }) ⟨h.closed, h.torn, h.ended⟩
        (not_connecting hpc) fun hopen => .inl ⟨rfl, hretry hopen hjob hclose⟩
    · exact h.goOn hwaits rfl rfl rfl rfl rfl
  · exact h.goOn hwaits rfl rfl rfl rfl rfl

/-- What is left of a stream, after an item has been taken. -/
theorem Usable.advance (h : Usable s) (hpc : s.pc = .reading) {stream rest : Stream}
    (hstream : s.stream = some stream) (lastEnd : Option (Option PyException)) :
    Usable { s with stream := some rest, lastEnd := lastEnd } where
  closed hc := (h.closed hc).imp_right fun hnone => by
    rw [hstream] at hnone
    cases hnone.1
  torn hnone := nomatch hnone
  ended he := by
    rw [show ({ s with stream := some rest, lastEnd := lastEnd } : SSEClient).pc = .reading
      from hpc] at he
    cases he

/-- One turn of the loop over a stream, if the stream does not end or is opened again. -/
theorem Usable.readStep (h : Usable s) (hpc : s.pc = .reading) (hok : Reopens o s .read) :
    Usable (s.readStep o) := by
  have hconn := not_connecting hpc
  have hok := hok hpc
  simp only [SSEClient.readStep]
  split
  · rename_i hnone
    -- the response was closed while the flag had been reset: the client is torn down
    refine Usable.handle (s := { s with
      lastEnd := some (some (.other "the stream has been closed")) })
      ⟨h.closed, h.torn, h.ended⟩ hconn fun hopen => .inr ⟨hnone, ?_⟩
    rcases h.torn hnone with hstate | hwaits | hshut
    · exact hstate
    · rw [hpc] at hwaits
      cases hwaits
    · exact absurd (hshut.1.symm.trans hopen) (by decide)
  · rename_i hstream
    exact Usable.streamEnded (s := { s with lastEnd := some none })
      ⟨h.closed, h.torn, h.ended⟩ hconn fun hopen => hok hopen _ hstream
  · rename_i e hstream
    exact Usable.handle (s := { s with lastEnd := some (some e) })
      ⟨h.closed, h.torn, h.ended⟩ hconn fun hopen => .inl (hok hopen _ hstream)
  · rename_i item items error hstream
    split
    · rename_i hclosed
      exact h.end_of_closed hconn hclosed _
    · split
      · rename_i e
        exact (h.advance hpc hstream (some (some e))).handle hconn
          fun hopen => .inl (hok hopen _ hstream)
      · exact h.advance hpc hstream s.lastEnd
      · rename_i event
        exact (h.advance hpc hstream s.lastEnd).receive hpc fun hopen => hok hopen _ hstream

/-- A dial that was answered: the client is connected. -/
theorem Usable.accepted (stream : Stream) (s : SSEClient) {pc : Pc} (hpc : pc.ended = false) :
    Usable { s with state := .connected, closed := false, stream := some stream, pc := pc } where
  closed h := nomatch h
  torn h := nomatch h
  ended h := absurd (hpc.symm.trans h) (by decide)

/-- A call that dials. -/
theorem Usable.connectCall (h : Usable s) (inEvents : Bool) : Usable (s.connectCall inEvents) where
  closed hc := (h.closed hc).imp_right fun hnone => ⟨hnone.1, .inr ⟨inEvents, rfl⟩⟩
  torn _ := .inr (.inl rfl)
  ended he := nomatch he

theorem Usable.loop (h : Usable s) (hpc : s.pc.atRest = true) : Usable s.loop := by
  rw [SSEClient.loop]
  split
  · rename_i hclosed
    refine h.end_of_closed (fun inEvents hconn => ?_) hclosed _
    rw [hconn] at hpc
    cases hpc
  · refine h.goOn ?_ rfl rfl rfl rfl rfl
    cases hcase : s.pc with
    | connecting | sleeping | dialing =>
      rw [hcase] at hpc
      cases hpc
    | idle | reading | delivering | yielded | returned | raised => rfl

/-- **The step lemma.** -/
theorem Usable.step {a : Action} (h : Usable s) (hok : Reopens o s a)
    (hstep : s.step o a = some s') : Usable s' := by
  cases SSEClient.moves_of_step hstep with
  | connected => exact ⟨h.closed, h.torn, h.ended⟩
  | connect =>
    exact Usable.connectCall (s := { s with shut := false }) ⟨h.closed, h.torn, h.ended⟩ false
  | iterate hrest =>
    exact Usable.loop (s := { s with shut := false, redials := 0, lastEnd := none })
      ⟨h.closed, h.torn, h.ended⟩ hrest
  | events =>
    exact Usable.connectCall (s := { s with shut := false, redials := 0, lastEnd := none })
      ⟨h.closed, h.torn, h.ended⟩ true
  | @dialed stream => exact .accepted stream s rfl
  | @accepted stream => exact .accepted stream s rfl
  | refused => exact .of_torn ⟨rfl, rfl⟩
  | @redialFailed handling e hpc =>
    exact Usable.redialFailed (s := { s with lastEnd := some (some e) })
      (by rw [show ({ s with lastEnd := some (some e) } : SSEClient).pc = .dialing handling
        from hpc]; nofun) handling e
  | read hpc => exact h.readStep hpc hok
  | deliver hpc | resume hpc => exact h.goOn (by rw [hpc]; rfl) rfl rfl rfl rfl rfl
  | noRedial hpc hclosed => exact h.end_of_closed (by rw [hpc]; nofun) hclosed _
  | redial _ hopen =>
    exact ⟨fun hclosed => absurd (hclosed.symm.trans hopen) (by decide),
      fun _ => .inr (.inl rfl), nofun⟩
  | close =>
    refine ⟨fun _ => .inl rfl, fun hnone => ?_, fun _ => .inl ⟨rfl, rfl⟩⟩
    exact .inr (.inr ⟨rfl, rfl⟩)
  | closeDone => exact .of_torn ⟨rfl, rfl⟩

theorem usable_of_reachable (h : (system o).Reachable (Reopens o) s) : Usable s := by
  refine h.invariant ?_ fun t a t' ht hok hstep => ht.step hok hstep
  exact .of_torn ⟨rfl, rfl⟩

/-- A client whose generator has ended dials when it is asked to. -/
def Redials (o : Options) (s : SSEClient) : Prop :=
  (∃ s', s.step o .connect = some s' ∧ s'.dials = s.dials + 1) ∧
    ∃ s', s.step o .events = some s' ∧ s'.dials = s.dials + 1

theorem redials_of_torn (hrest : s.pc.ended = true) (h : s.Torn) : Redials o s := by
  have hatRest : s.pc.atRest = true := by
    cases hpc : s.pc with
    | returned | raised => rfl
    | idle | connecting | reading | delivering | yielded | sleeping | dialing =>
      rw [hpc] at hrest
      cases hrest
  obtain ⟨hnone, hstate⟩ := h
  constructor
  · refine ⟨_, if_pos hatRest, ?_⟩
    rw [if_neg (by rw [hstate]; decide)]
    rfl
  · refine ⟨_, if_pos hatRest, ?_⟩
    rw [if_neg (by rw [hnone, hstate]; decide)]
    rfl

/-- A stream that ends otherwise ends the generator over a response that is not closed. -/
theorem left_open_of_not_reopens {a : Action} (hnot : ¬ Reopens o s a)
    (hstep : s.step o a = some s') :
    s'.pc.ended = true ∧ ¬ s'.Shutting ∧ s'.stream ≠ none := by
  -- an error that is not retried leaves `events()` with the response as it is
  have hhandle : ∀ (t : SSEClient) (e : PyException), t.closed = false → t.stream ≠ none →
      ¬ t.Retries o e → (t.handle o e).pc.ended = true ∧ ¬ (t.handle o e).Shutting ∧
        (t.handle o e).stream ≠ none := by
    intro t e hopen hstream hretry
    have hshut : ¬ t.Shutting := fun h => absurd (h.1.symm.trans hopen) (by decide)
    rw [SSEClient.handle, if_neg (by rw [hopen]; decide)]
    split
    · exact ⟨rfl, hshut, hstream⟩
    · rename_i hfinal
      rw [if_neg fun hcan => hretry ⟨Bool.eq_false_iff.mpr hfinal, hcan⟩]
      exact ⟨rfl, hshut, hstream⟩
  cases a with
  | read =>
    simp only [Reopens, Classical.not_imp, not_forall] at hnot
    obtain ⟨hpc, hopen, stream, hstream, hnot⟩ := hnot
    have hshut : ¬ s.Shutting := fun h => absurd (h.1.symm.trans hopen) (by decide)
    have hnone : s.stream ≠ none := by rw [hstream]; nofun
    cases SSEClient.moves_of_step hstep
    simp only [SSEClient.readStep]
    split
    · rename_i hno
      exact absurd hno hnone
    · rename_i heq
      cases hstream.symm.trans heq
      obtain ⟨hfinished, hcan⟩ := not_or.mp hnot
      have hcan' : ¬ SSEClient.canRetry o { s with lastEnd := some none } = true := hcan
      rw [SSEClient.streamEnded, if_neg hfinished, if_neg (by rw [hopen]; decide), if_neg hcan']
      exact ⟨rfl, hshut, hnone⟩
    · rename_i e heq
      cases hstream.symm.trans heq
      exact hhandle { s with lastEnd := some (some e) } e hopen hnone hnot
    · rename_i item items error heq
      cases hstream.symm.trans heq
      rw [if_neg (by rw [hopen]; decide)]
      split
      · rename_i e
        exact hhandle { s with stream := some ⟨items, error⟩, lastEnd := some (some e) } e hopen
          nofun hnot
      · exact absurd trivial hnot
      · rename_i event
        simp only [Classical.not_imp] at hnot
        obtain ⟨hjob, hclose, hcan⟩ := hnot
        rw [SSEClient.receive, if_pos hjob, hclose]
        exact hhandle { s with
          stream := some ⟨items, error⟩
          reconnectAttempts := 0
          received := s.received ++ [event]
          lastEnd := some (some (.other "unhashable type")) } _ hopen nofun fun h => hcan h.2
  | connect | events | reply | deliver | resume | wake | close | closeDone =>
    exact absurd trivial hnot

/-- In every run in which each stream that ends is reopened or finished, a generator that has
ended, no `close()` being under way, leaves the client disconnected and torn down, and the next
call dials; a step that ends a stream otherwise leaves the response open. -/
theorem ended_client_dials (o : Options) :
    (∀ s : SSEClient, (system o).Reachable (Reopens o) s → s.pc.ended = true → ¬ s.Shutting →
      s.state = .disconnected ∧ s.stream = none ∧ Redials o s) ∧
    ∀ (s s' : SSEClient) (a : Action), ¬ Reopens o s a → s.step o a = some s' →
      s'.pc.ended = true ∧ ¬ s'.Shutting ∧ s'.stream ≠ none := by
  refine ⟨fun s h hended hclose => ?_, fun s s' a hnot hstep => left_open_of_not_reopens hnot hstep⟩
  have htorn := ((usable_of_reachable h).ended hended).resolve_left hclose
  exact ⟨htorn.2, htorn.1, redials_of_torn hended htorn⟩

/-- A job stream that ends after its terminal event. -/
theorem ended_client_dials_sample :
    let o : Options := { jobStream := true }
    ∃ s : SSEClient, (system o).Reachable (Reopens o) s ∧ s.pc.ended = true ∧
      s.delivered ≠ [] ∧ Redials o s := by
  intro o
  have hinit : (system o).Reachable (Reopens o) (system o).init := .init
  have hcall := hinit.step (a := .events) (by exact trivial) rfl
  have hdial := hcall.step
    (a := .reply (.accepted ⟨[.ok (some ⟨"error", .null⟩)], none⟩)) (by exact trivial) rfl
  have hread := hdial.step (a := .read)
    (by intro _ _ stream hstream; cases hstream; exact fun _ h => nomatch h) rfl
  have hdeliver := hread.step (a := .deliver) (by exact trivial) rfl
  have hresume := hdeliver.step (a := .resume) (by exact trivial) rfl
  have hend := hresume.step (a := .read)
    (by intro _ _ stream hstream; cases hstream; exact .inl rfl) rfl
  exact ⟨_, hend, rfl, nofun, ((ended_client_dials o).1 _ hend rfl (fun h => nomatch h.2)).2.2⟩

/-- Without `auto_reconnect` a stream that the server closes leaves a client that is connected,
and `connect()` returns at once. -/
theorem closed_stream_kept : ¬ ∀ (o : Options) (s : SSEClient),
    (system o).Reachable System.always s → s.pc.ended = true → ¬ s.Shutting →
      s.state = .disconnected ∧ s.stream = none ∧ Redials o s := by
  intro h
  let o : Options := { autoReconnect := false }
  have hinit : (system o).Reachable System.always (system o).init := .init
  have hcall := hinit.step (a := .events) trivial rfl
  have hdial := hcall.step (a := .reply (.accepted ⟨[], none⟩)) trivial rfl
  have hread := hdial.step (a := .read) trivial rfl
  exact absurd (h o _ hread rfl fun h => nomatch h.1).1 (by decide)

end

end SpooledSdk.Realtime.Sse
