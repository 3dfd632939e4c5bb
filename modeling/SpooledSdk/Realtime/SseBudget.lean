/-
The retry budget of `events()`.

* `sound_of_reachable` — between two delivered events at most `max_reconnect_attempts` redials
  are made, and how the generator ends is how the last stream or dial ended;
* `ends_of_finite` — on a script with finitely many events the generator ends;
* `retry_budget` — both, for every script of the server, while the events read can be looked at;
* `budget_overrun` — an event on which `closes_job_stream` raises restores the budget without
  being delivered.
-/
import SpooledSdk.Realtime.SseStep
import Mathlib.Order.WellFounded

namespace SpooledSdk.Realtime.Sse

/-- `closes_job_stream` does not raise on the event. -/
def Readable (o : Options) (event : RealtimeEvent) : Bool :=
  !o.jobStream || (closesJobStream event).isSome

/-- Nobody closes the client, and the event that is read next can be looked at. -/
def Undisturbed (o : Options) (s : SSEClient) : Action → Bool
  | .close | .closeDone => false
  | .read =>
    match s.stream with
    | some ⟨.ok (some event) :: _, _⟩ => Readable o event
    | _ => true
  | _ => true

/-- The generator is under way, past its first dial. -/
def Pc.running : Pc → Bool
  | .reading | .delivering _ | .yielded | .sleeping _ | .dialing _ => true
  | _ => false

/-- The budget of a generator that nobody closes, and how it ends. -/
structure Sound (o : Options) (s : SSEClient) : Prop where
  attempts : s.reconnectAttempts ≤ o.maxReconnectAttempts
  redials : s.redials ≤ o.maxReconnectAttempts
  fresh : s.pc = .connecting true → s.redials = 0
  spent : s.pc.running = true → (∀ event, s.pc ≠ .delivering event) →
    s.redials ≤ s.reconnectAttempts
  turn : ∀ handling, s.pc = .sleeping handling → s.redials + 1 ≤ s.reconnectAttempts
  returned : s.pc = .returned → s.lastEnd = some none
  raised : ∀ e, s.pc = .raised e → s.lastEnd = some (some e)
  running : s.pc.running = true → s.closed = false
  closed : s.closed = true → s.stream = none
  connected : s.state = .connected → s.stream ≠ none

section

variable {o : Options} {s s' : SSEClient} {a : Action} {e : PyException}

/-- A generator that has spent what it counts, and has not been closed. -/
structure Spent (o : Options) (s : SSEClient) : Prop where
  attempts : s.reconnectAttempts ≤ o.maxReconnectAttempts
  redials : s.redials ≤ s.reconnectAttempts
  closed : s.closed = false
  connected : s.state = .connected → s.stream ≠ none

theorem Sound.spent' (h : Sound o s) (hpc : ∀ event, s.pc ≠ .delivering event)
    (hrun : s.pc.running = true) : Spent o s :=
  ⟨h.attempts, h.spent hrun hpc, h.running hrun, h.connected⟩

theorem Spent.not_closed (h : Spent o s) : ¬ s.closed = true := by
  rw [h.closed]
  exact Bool.false_ne_true

theorem canRetry_iff (s : SSEClient) : s.canRetry o = true ↔
    o.autoReconnect = true ∧ s.closed = false ∧
      s.reconnectAttempts < o.maxReconnectAttempts := by
  rw [SSEClient.canRetry, Bool.and_eq_true, Bool.and_eq_true, Bool.not_eq_true',
    decide_eq_true_eq, and_assoc]

theorem Spent.sleep (h : Spent o s) (handling : Option PyException) (hr : s.canRetry o = true) :
    Sound o (s.sleep handling) where
  attempts := ((canRetry_iff s).mp hr).2.2
  redials := h.redials.trans h.attempts
  fresh := nofun
  spent _ _ := Nat.le_succ_of_le h.redials
  turn _ _ := Nat.succ_le_succ h.redials
  returned := nofun
  raised := nofun
  running _ := h.closed
  closed hc := absurd hc h.not_closed
  connected := nofun

/-- A generator that stops with its last end as its own. -/
theorem Spent.stop (h : Spent o s) {pc : Pc} (hpc : pc = .returned ∧ s.lastEnd = some none ∨
    ∃ e, pc = .raised e ∧ s.lastEnd = some (some e)) : Sound o { s with pc := pc } where
  attempts := h.attempts
  redials := h.redials.trans h.attempts
  fresh := by
    obtain ⟨rfl, -⟩ | ⟨e, rfl, -⟩ := hpc <;> exact nofun
  spent _ _ := h.redials
  turn := by
    obtain ⟨rfl, -⟩ | ⟨e, rfl, -⟩ := hpc <;> exact nofun
  returned hr := by
    obtain ⟨-, hl⟩ | ⟨e, rfl, -⟩ := hpc
    · exact hl
    · cases hr
  raised e' hr := by
    obtain ⟨rfl, -⟩ | ⟨e, rfl, hl⟩ := hpc
    · cases hr
    · obtain rfl := Pc.raised.inj hr
      exact hl
  running := by
    obtain ⟨rfl, -⟩ | ⟨e, rfl, -⟩ := hpc <;> exact nofun
  closed hc := absurd hc h.not_closed
  connected := h.connected

theorem Spent.handle (h : Spent o s) (hl : s.lastEnd = some (some e)) :
    Sound o (s.handle o e) := by
  unfold SSEClient.handle
  rw [if_neg h.not_closed]
  split
  · exact h.stop (.inr ⟨e, rfl, hl⟩)
  · split
    · exact h.sleep (some e) ‹_›
    · exact h.stop (.inr ⟨e, rfl, hl⟩)

theorem Spent.streamEnded (h : Spent o s) (hl : s.lastEnd = some none) :
    Sound o (s.streamEnded o) := by
  unfold SSEClient.streamEnded
  split
  · exact ⟨h.attempts, h.redials.trans h.attempts, nofun, fun _ _ => h.redials, nofun,
      fun _ => hl, nofun, nofun, fun _ => rfl, nofun⟩
  · rw [if_neg h.not_closed]
    split
    · exact h.sleep none ‹_›
    · exact h.stop (.inl ⟨rfl, hl⟩)

theorem Spent.redialFailed (h : Spent o s) (hl : s.lastEnd = some (some e))
    (handling : Option PyException) : Sound o (s.redialFailed o handling e) := by
  have h' : Spent o { s with stream := none, state := .disconnected } :=
    ⟨h.attempts, h.redials, h.closed, nofun⟩
  unfold SSEClient.redialFailed
  dsimp only
  split
  · rename_i hr
    rw [Bool.and_eq_true] at hr
    exact h'.sleep handling hr.2
  · split
    · exact h'.handle hl
    · exact h'.stop (.inr ⟨e, rfl, hl⟩)

/-- An event that can be looked at restores the budget and is about to be delivered. -/
theorem Spent.receive (h : Spent o s) {event : RealtimeEvent} (hev : Readable o event = true)
    (hs : s.stream ≠ none) : Sound o (s.receive o event) := by
  have hsound : ∀ fin : Bool, Sound o { s with
      reconnectAttempts := 0, received := s.received ++ [event], finished := fin
      pc := .delivering event } := fun fin => by
    exact ⟨Nat.zero_le _, h.redials.trans h.attempts, nofun,
      fun _ hno => absurd rfl (hno event), nofun, nofun, nofun, fun _ => h.closed,
      fun hc => absurd hc h.not_closed, fun _ => hs⟩
  unfold SSEClient.receive
  dsimp only
  split
  · rename_i hj
    split
    · rename_i hc
      rw [Readable, hj, hc] at hev
      cases hev
    · exact hsound _
  · exact hsound _

/-- The `while` loop of a client that is not closed begins to read. -/
theorem Spent.loop (h : Spent o s) : Sound o s.loop := by
  have heq : s.loop = { s with pc := .reading } := by
    rw [SSEClient.loop, if_neg h.not_closed]
  rw [heq]
  exact ⟨h.attempts, h.redials.trans h.attempts, nofun, fun _ _ => h.redials, nofun, nofun, nofun,
    fun _ => h.closed, fun hc => absurd hc h.not_closed, h.connected⟩

theorem Spent.readStep (h : Spent o s) (hpc : s.pc = .reading)
    (hok : Undisturbed o s .read = true) :
    Sound o (s.readStep o) := by
  unfold SSEClient.readStep
  split
  · exact Spent.handle ⟨h.attempts, h.redials, h.closed, h.connected⟩ rfl
  · exact Spent.streamEnded ⟨h.attempts, h.redials, h.closed, h.connected⟩ rfl
  · exact Spent.handle ⟨h.attempts, h.redials, h.closed, h.connected⟩ rfl
  · rename_i item items error hs
    rw [if_neg h.not_closed]
    split
    · exact Spent.handle ⟨h.attempts, h.redials, h.closed, fun _ => nofun⟩ rfl
    · refine ⟨h.attempts, h.redials.trans h.attempts, fun hp => ?_, fun _ _ => h.redials,
        fun _ hp => ?_, fun hp => ?_, fun _ hp => ?_, fun _ => h.closed,
        fun hc => absurd hc h.not_closed,
        fun _ => nofun⟩
      all_goals
        rw [show s.pc = _ from hp] at hpc
        cases hpc
    · rename_i event
      rw [Undisturbed, hs] at hok
      exact Spent.receive (s := { s with stream := some ⟨items, error⟩ })
        ⟨h.attempts, h.redials, h.closed, fun _ => nofun⟩ hok nofun

/-- One step of a generator that nobody closes. -/
theorem sound_step (h : Sound o s) (hok : Undisturbed o s a = true)
    (hstep : s.step o a = some s') : Sound o s' := by
  cases SSEClient.moves_of_step hstep with
  | close | closeDone => cases hok
  | connected =>
    exact ⟨h.attempts, h.redials, h.fresh, h.spent, h.turn, h.returned, h.raised, h.running,
      h.closed, h.connected⟩
  | connect =>
    exact ⟨Nat.zero_le _, h.redials, nofun, nofun, nofun, nofun, nofun, nofun, h.closed, nofun⟩
  | iterate _ hopen =>
    have hstream : s.stream ≠ none := hopen.elim id h.connected
    have hclosed : s.closed = false := Bool.eq_false_iff.mpr fun hc => hstream (h.closed hc)
    exact Spent.loop ⟨h.attempts, Nat.zero_le _, hclosed, h.connected⟩
  | events =>
    exact ⟨Nat.zero_le _, Nat.zero_le _, fun _ => rfl, nofun, nofun, nofun, nofun, nofun,
      h.closed, nofun⟩
  | dialed =>
    exact ⟨h.attempts, h.redials, nofun, nofun, nofun, nofun, nofun, nofun, nofun,
      fun _ => nofun⟩
  | accepted hpc =>
    refine Spent.loop ⟨h.attempts, ?_, rfl, fun _ => nofun⟩
    rcases hpc with hpc | ⟨handling, hpc⟩
    · exact (h.fresh hpc).le.trans (Nat.zero_le _)
    · exact h.spent (by rw [hpc]; rfl) (by rw [hpc]; exact nofun)
  | @refused inEvents e =>
    cases inEvents with
    | true =>
      refine ⟨h.attempts, h.redials, nofun, nofun, nofun, nofun, fun e' he => ?_, nofun,
        fun _ => rfl, nofun⟩
      obtain rfl := Pc.raised.inj he
      rfl
    | false =>
      exact ⟨h.attempts, h.redials, nofun, nofun, nofun, nofun, nofun, nofun, fun _ => rfl, nofun⟩
  | @redialFailed handling e hpc =>
    have hs := h.spent' (by rw [hpc]; exact nofun) (by rw [hpc]; rfl)
    exact Spent.redialFailed (s := { s with lastEnd := some (some e) })
      ⟨hs.attempts, hs.redials, hs.closed, hs.connected⟩ rfl handling
  | read hpc => exact (h.spent' (by rw [hpc]; exact nofun) (by rw [hpc]; rfl)).readStep hpc hok
  | deliver hpc =>
    exact ⟨h.attempts, Nat.zero_le _, nofun, fun _ _ => Nat.zero_le _, nofun, nofun, nofun,
      fun _ => h.running (by rw [hpc]; rfl), h.closed, h.connected⟩
  | resume hpc =>
    exact ⟨h.attempts, h.redials, nofun,
      fun _ _ => h.spent (by rw [hpc]; rfl) (by rw [hpc]; exact nofun), nofun, nofun, nofun,
      fun _ => h.running (by rw [hpc]; rfl), h.closed, h.connected⟩
  | noRedial hpc hclosed =>
    have hs := h.spent' (by rw [hpc]; exact nofun) (by rw [hpc]; rfl)
    exact absurd hclosed hs.not_closed
  | redial hpc =>
    have hs := h.spent' (by rw [hpc]; exact nofun) (by rw [hpc]; rfl)
    have hturn := h.turn _ hpc
    exact ⟨h.attempts, hturn.trans h.attempts, nofun, fun _ _ => hturn, nofun, nofun, nofun,
      fun _ => hs.closed, fun hc => absurd hc hs.not_closed, nofun⟩

theorem sound_init : Sound o {} :=
  ⟨Nat.zero_le _, Nat.zero_le _, nofun, nofun, nofun, nofun, nofun, nofun, nofun, nofun⟩

theorem sound_of_reachable
    (h : (system o).Reachable (fun s a => Undisturbed o s a = true) s) : Sound o s :=
  h.invariant sound_init fun _ _ _ hs hok hstep => sound_step hs hok hstep

/-! ### The end of the generator -/

/-- The generator has ended. -/
def Pc.over : Pc → Bool
  | .returned | .raised _ => true
  | _ => false

/-- The step that the generator makes next, against a server that answers the `n`th dial as
`script n`. -/
def drive (script : ℕ → DialReply) (s : SSEClient) : Option Action :=
  match s.pc with
  | .connecting _ | .dialing _ => some (.reply (script (s.dials - 1)))
  | .reading => some .read
  | .delivering _ => some .deliver
  | .yielded => some .resume
  | .sleeping _ => some .wake
  | .idle | .returned | .raised _ => none

/-- One step of the generator; nothing once it has ended. -/
def next (o : Options) (script : ℕ → DialReply) (s : SSEClient) : SSEClient :=
  ((drive script s).bind (s.step o)).getD s

/-- The client after `k` steps of the generator of a first `events()`. -/
def runEvents (o : Options) (script : ℕ → DialReply) (k : ℕ) : SSEClient :=
  (next o script)^[k] (({} : SSEClient).connectCall true)

/-- What the server sends after a dial. -/
def DialReply.items : DialReply → List Item
  | .failed _ => []
  | .accepted stream => stream.items

/-- An event that `_parse_event` hands on. -/
def Item.isEvent : Item → Bool
  | .ok (some _) => true
  | _ => false

/-- What is still to come from the current dial. -/
def toCome (script : ℕ → DialReply) (s : SSEClient) : List Item :=
  match s.pc with
  | .connecting _ | .dialing _ => (script (s.dials - 1)).items
  | _ => (s.stream.map Stream.items).getD []

/-- The steps that the generator can make without an event or a new attempt. -/
def patience (script : ℕ → DialReply) (s : SSEClient) : ℕ :=
  match s.pc with
  | .sleeping _ => 3 * (script s.dials).items.length + 2
  | .connecting _ | .dialing _ => 3 * (toCome script s).length + 1
  | .delivering _ => 3 * (toCome script s).length + 2
  | .yielded => 3 * (toCome script s).length + 1
  | _ => 3 * (toCome script s).length

/-- A generator that only the script drives: its stream is what the last dial was answered. -/
structure Driven (script : ℕ → DialReply) (s : SSEClient) : Prop where
  dials : 1 ≤ s.dials
  called : s.pc ≠ .idle ∧ s.pc ≠ .connecting false
  stream : ∀ stream, s.stream = some stream → ∀ item ∈ stream.items,
    item ∈ (script (s.dials - 1)).items

theorem handle_cases (s : SSEClient) (e : PyException) : (s.handle o e).pc.over = true ∨
    s.canRetry o = true ∧ s.handle o e = s.sleep (some e) := by
  unfold SSEClient.handle
  split
  · exact .inl rfl
  · split
    · exact .inl rfl
    · split
      · exact .inr ⟨‹_›, rfl⟩
      · exact .inl rfl

theorem streamEnded_cases (s : SSEClient) : (s.streamEnded o).pc.over = true ∨
    s.canRetry o = true ∧ s.streamEnded o = s.sleep none := by
  unfold SSEClient.streamEnded
  split
  · exact .inl rfl
  · split
    · exact .inl rfl
    · split
      · exact .inr ⟨‹_›, rfl⟩
      · exact .inl rfl

theorem redialFailed_cases (s : SSEClient) (handling : Option PyException) (e : PyException) :
    (s.redialFailed o handling e).pc.over = true ∨ ∃ handling', s.canRetry o = true ∧
      s.redialFailed o handling e =
        { s with stream := none, state := .disconnected }.sleep handling' := by
  unfold SSEClient.redialFailed
  dsimp only
  split
  · rename_i hr
    rw [Bool.and_eq_true] at hr
    exact .inr ⟨handling, hr.2, rfl⟩
  · split
    · obtain hover | ⟨hr, heq⟩ :=
        handle_cases (o := o) { s with stream := none, state := .disconnected } e
      · exact .inl hover
      · exact .inr ⟨some e, hr, heq⟩
    · exact .inl rfl

section

variable {script : ℕ → DialReply} {n : ℕ}

/-- The rank of a generator before the `n`th dial and after it. -/
def rank (o : Options) (script : ℕ → DialReply) (n : ℕ) (s : SSEClient) : ℕ × ℕ × ℕ × ℕ :=
  (n - s.dials, (toCome script s).countP Item.isEvent,
    o.maxReconnectAttempts - s.reconnectAttempts, patience script s)

/-- What a step of the generator does to its rank, unless it ends it. -/
def Lower (o : Options) (script : ℕ → DialReply) (n : ℕ) (s' s : SSEClient) : Prop :=
  Prod.Lex (· < ·) (Prod.Lex (· < ·) (Prod.Lex (· < ·) (· < ·)))
    (rank o script n s') (rank o script n s)

/-- A new attempt lowers the rank, if nothing more is to come than before. -/
theorem lower_sleep {b : SSEClient} (hdials : b.dials = s.dials)
    (hle : ((b.stream.map Stream.items).getD []).countP Item.isEvent ≤
      (toCome script s).countP Item.isEvent)
    (hatt : b.reconnectAttempts = s.reconnectAttempts) (hr : b.canRetry o = true)
    (handling : Option PyException) : Lower o script n (b.sleep handling) s := by
  have hlt := ((canRetry_iff b).mp hr).2.2
  unfold Lower rank
  rw [show (b.sleep handling).dials = s.dials from hdials]
  refine .right _ ?_
  obtain hlt' | heq := Nat.lt_or_eq_of_le hle
  · exact .left _ _ hlt'
  · rw [show toCome script (b.sleep handling) = (b.stream.map Stream.items).getD [] from rfl,
      heq]
    refine .right _ (.left _ _ ?_)
    show o.maxReconnectAttempts - (b.reconnectAttempts + 1) < _
    omega

theorem next_eq (hd : drive script s = some a) (hs : s.step o a = some s') :
    next o script s = s' := by
  rw [next, hd, Option.bind_some, hs, Option.getD_some]

/-- An accepted dial leaves the events to come, and one wait less. -/
theorem lower_accepted {stream : Stream}
    (hpc : (∃ b, s.pc = .connecting b) ∨ ∃ h, s.pc = .dialing h)
    (hreply : script (s.dials - 1) = .accepted stream) :
    Lower o script n
      ({ s with state := .connected, closed := false, stream := some stream } : SSEClient).loop
      s := by
  have hcome : toCome script s = stream.items := by
    unfold toCome
    obtain ⟨c, hc⟩ | ⟨h, hh⟩ := hpc
    · rw [hc]
      exact congrArg DialReply.items hreply
    · rw [hh]
      exact congrArg DialReply.items hreply
  have hpat : patience script s = 3 * stream.items.length + 1 := by
    rw [← hcome]
    unfold patience
    obtain ⟨c, hc⟩ | ⟨h, hh⟩ := hpc
    · rw [hc]
    · rw [hh]
  unfold Lower rank
  rw [hcome, hpat]
  exact .right _ (.right _ (.right _ (Nat.lt_succ_self _)))

/-- What a step makes of a generator: it ends, or goes on with a lower rank. -/
def Onward (o : Options) (script : ℕ → DialReply) (n : ℕ) (s' s : SSEClient) : Prop :=
  s'.pc.over = true ∨ Driven script s' ∧ Lower o script n s' s

/-- A new attempt, from a client with the dials and the budget of `s`. -/
theorem onward_sleep {b : SSEClient} (hd : Driven script s) (hdials : b.dials = s.dials)
    (hstream : ∀ stream, b.stream = some stream → ∀ item ∈ stream.items,
      item ∈ (script (s.dials - 1)).items)
    (hle : ((b.stream.map Stream.items).getD []).countP Item.isEvent ≤
      (toCome script s).countP Item.isEvent)
    (hatt : b.reconnectAttempts = s.reconnectAttempts) (hr : b.canRetry o = true)
    (handling : Option PyException) : Onward o script n (b.sleep handling) s := by
  refine .inr ⟨⟨?_, ⟨nofun, nofun⟩, ?_⟩, lower_sleep hdials hle hatt hr handling⟩
  · show 1 ≤ b.dials
    rw [hdials]
    exact hd.dials
  · show ∀ stream, b.stream = some stream → ∀ item ∈ stream.items,
      item ∈ (script (b.dials - 1)).items
    rw [hdials]
    exact hstream

theorem onward_handle {b : SSEClient} (hd : Driven script s) (hdials : b.dials = s.dials)
    (hstream : ∀ stream, b.stream = some stream → ∀ item ∈ stream.items,
      item ∈ (script (s.dials - 1)).items)
    (hle : ((b.stream.map Stream.items).getD []).countP Item.isEvent ≤
      (toCome script s).countP Item.isEvent)
    (hatt : b.reconnectAttempts = s.reconnectAttempts) (e : PyException) :
    Onward o script n (b.handle o e) s := by
  obtain hover | ⟨hr, heq⟩ := handle_cases (o := o) b e
  · exact .inl hover
  · rw [heq]
    exact onward_sleep hd hdials hstream hle hatt hr _

/-- An event leaves one fewer to come. -/
theorem onward_receive {b : SSEClient} (hd : Driven script s) (hdials : b.dials = s.dials)
    (hstream : ∀ stream, b.stream = some stream → ∀ item ∈ stream.items,
      item ∈ (script (s.dials - 1)).items)
    (hlt : ((b.stream.map Stream.items).getD []).countP Item.isEvent <
      (toCome script s).countP Item.isEvent) (event : RealtimeEvent) :
    Onward o script n (b.receive o event) s := by
  have honward : ∀ s' : SSEClient, s'.dials = b.dials → s'.stream = b.stream →
      s'.pc ≠ .idle ∧ s'.pc ≠ .connecting false →
      toCome script s' = (b.stream.map Stream.items).getD [] → Onward o script n s' s := by
    intro s' hdials' hstream' hpc hcome
    refine .inr ⟨⟨?_, hpc, ?_⟩, ?_⟩
    · rw [hdials', hdials]
      exact hd.dials
    · rw [hdials', hdials, hstream']
      exact hstream
    · unfold Lower rank
      rw [hdials', hdials, hcome]
      exact .right _ (.left _ _ hlt)
  unfold SSEClient.receive
  dsimp only
  split
  · split
    · obtain hover | ⟨-, heq⟩ := handle_cases (o := o) { b with
          reconnectAttempts := 0, received := b.received ++ [event]
          lastEnd := some (some (.other "unhashable type")) } (.other "unhashable type")
      · exact .inl hover
      · rw [heq]
        exact honward _ rfl rfl ⟨nofun, nofun⟩ rfl
    · exact honward _ rfl rfl ⟨nofun, nofun⟩ rfl
  · exact honward _ rfl rfl ⟨nofun, nofun⟩ rfl

/-- One turn of the reading loop. -/
theorem onward_read (hd : Driven script s) (hpc : s.pc = .reading) :
    Onward o script n (s.readStep o) s := by
  have hcome : toCome script s = (s.stream.map Stream.items).getD [] := by
    unfold toCome
    rw [hpc]
  unfold SSEClient.readStep
  dsimp only
  split
  · exact onward_handle
      (b := { s with lastEnd := some (some (.other "the stream has been closed")) })
      hd rfl hd.stream (by rw [hcome]) rfl _
  · obtain hover | ⟨hr, heq⟩ := streamEnded_cases (o := o) { s with lastEnd := some none }
    · exact .inl hover
    · rw [heq]
      exact onward_sleep (b := { s with lastEnd := some none }) hd rfl hd.stream (by rw [hcome]) rfl
        hr _
  · rename_i e _
    exact onward_handle (b := { s with lastEnd := some (some e) }) hd rfl hd.stream (by rw [hcome])
      rfl _
  · rename_i item items error hs
    rw [hs] at hcome
    have hcome : toCome script s = item :: items := hcome
    have hitems : ∀ stream, some (⟨items, error⟩ : Stream) = some stream → ∀ i ∈ stream.items,
        i ∈ (script (s.dials - 1)).items := by
      intro stream heq i hi
      obtain rfl := Option.some_inj.mp heq
      exact hd.stream _ hs i (List.mem_cons_of_mem _ hi)
    split
    · exact .inl rfl
    · split
      · rename_i e _
        refine onward_handle (b := { s with
          stream := some ⟨items, error⟩, lastEnd := some (some e) }) hd rfl hitems ?_ rfl _
        rw [hcome]
        exact (List.sublist_cons_self _ items).countP_le
      · refine .inr ⟨⟨hd.dials, hd.called, hitems⟩, ?_⟩
        unfold Lower rank
        rw [hcome, List.countP_cons_of_neg (p := Item.isEvent) (by exact Bool.false_ne_true)]
        have hcome' : toCome script { s with stream := some ⟨items, error⟩ } = items := by
          unfold toCome
          rw [show ({ s with stream := some ⟨items, error⟩ } : SSEClient).pc = .reading from hpc]
          rfl
        have hpat : ∀ s₁ : SSEClient, s₁.pc = .reading →
            patience script s₁ = 3 * (toCome script s₁).length := by
          intro s₁ hs₁
          rw [patience, hs₁]
        rw [hcome', hpat s hpc, hpat { s with stream := some ⟨items, error⟩ } hpc, hcome, hcome']
        refine .right _ (.right _ (.right _ ?_))
        rw [List.length_cons]
        omega
      · refine onward_receive (b := { s with stream := some ⟨items, error⟩ }) hd rfl hitems ?_ _
        rw [hcome, List.countP_cons_of_pos (p := Item.isEvent) rfl]
        exact Nat.lt_succ_self _

/-- A step of the generator ends it or lowers its rank, when no event comes from the `n`th
dial on. -/
theorem onward_next (hfin : ∀ m, n ≤ m → (script m).items.countP Item.isEvent = 0)
    (hd : Driven script s) (hover : s.pc.over = false) :
    Onward o script n (next o script s) s := by
  have haccepted : ∀ stream, (∃ b, s.pc = .connecting b) ∨ (∃ h, s.pc = .dialing h) →
      script (s.dials - 1) = .accepted stream → Driven script
        ({ s with state := .connected, closed := false, stream := some stream } : SSEClient).loop :=
    fun stream hpc hreply => by
    refine ⟨hd.dials, ⟨nofun, nofun⟩, fun stream' hs item hi => ?_⟩
    obtain rfl := Option.some_inj.mp hs
    show item ∈ (script (s.dials - 1)).items
    rw [hreply]
    exact hi
  cases hpc : s.pc with
  | idle => exact absurd hpc hd.called.1
  | returned | raised =>
    rw [hpc] at hover
    cases hover
  | connecting b =>
    have hb : b = true := by
      cases b with
      | true => rfl
      | false => exact absurd hpc hd.called.2
    subst hb
    have hdrive : drive script s = some (.reply (script (s.dials - 1))) := by
      rw [drive, hpc]
    cases hreply : script (s.dials - 1) with
    | failed e =>
      rw [hreply] at hdrive
      have hstep : s.step o (.reply (.failed e)) = some { s with
          stream := none, state := .disconnected, lastEnd := some (some e), pc := .raised e } :=
        SSEClient.step_of_moves (.refused hpc)
      rw [next_eq hdrive hstep]
      exact .inl rfl
    | accepted stream =>
      rw [hreply] at hdrive
      have hstep : s.step o (.reply (.accepted stream)) = some
          ({ s with state := .connected, closed := false, stream := some stream }).loop :=
        SSEClient.step_of_moves (.accepted (.inl hpc))
      rw [next_eq hdrive hstep]
      exact .inr ⟨haccepted stream (.inl ⟨_, hpc⟩) hreply, lower_accepted (.inl ⟨_, hpc⟩) hreply⟩
  | dialing handling =>
    have hdrive : drive script s = some (.reply (script (s.dials - 1))) := by
      rw [drive, hpc]
    cases hreply : script (s.dials - 1) with
    | failed e =>
      rw [hreply] at hdrive
      have hstep : s.step o (.reply (.failed e)) =
          some (({ s with lastEnd := some (some e) }).redialFailed o handling e) :=
        SSEClient.step_of_moves (.redialFailed hpc)
      rw [next_eq hdrive hstep]
      obtain hover | ⟨handling', hr, heq⟩ :=
        redialFailed_cases (o := o) { s with lastEnd := some (some e) } handling e
      · exact .inl hover
      · rw [heq]
        exact onward_sleep (b := { s with
          lastEnd := some (some e), stream := none, state := .disconnected }) hd rfl nofun
          (Nat.zero_le _) rfl hr _
    | accepted stream =>
      rw [hreply] at hdrive
      have hstep : s.step o (.reply (.accepted stream)) = some
          ({ s with state := .connected, closed := false, stream := some stream }).loop :=
        SSEClient.step_of_moves (.accepted (.inr ⟨handling, hpc⟩))
      rw [next_eq hdrive hstep]
      exact .inr ⟨haccepted stream (.inr ⟨_, hpc⟩) hreply, lower_accepted (.inr ⟨_, hpc⟩) hreply⟩
  | reading =>
    rw [next_eq (a := .read) (by rw [drive, hpc]) (SSEClient.step_of_moves (.read hpc))]
    exact onward_read hd hpc
  | delivering event =>
    rw [next_eq (a := .deliver) (by rw [drive, hpc]) (SSEClient.step_of_moves (.deliver hpc))]
    refine .inr ⟨⟨hd.dials, ⟨nofun, nofun⟩, hd.stream⟩, ?_⟩
    unfold Lower rank patience toCome
    rw [hpc]
    exact .right _ (.right _ (.right _ (Nat.lt_succ_self _)))
  | yielded =>
    rw [next_eq (a := .resume) (by rw [drive, hpc]) (SSEClient.step_of_moves (.resume hpc))]
    refine .inr ⟨⟨hd.dials, ⟨nofun, nofun⟩, hd.stream⟩, ?_⟩
    unfold Lower rank patience toCome
    rw [hpc]
    exact .right _ (.right _ (.right _ (Nat.lt_succ_self _)))
  | sleeping handling =>
    cases hclosed : s.closed with
    | true =>
      have hmoves := SSEClient.Moves.noRedial (o := o) hpc hclosed
      rw [next_eq (a := .wake) (by rw [drive, hpc]) (SSEClient.step_of_moves hmoves)]
      cases handling <;> exact .inl rfl
    | false =>
      have hmoves := SSEClient.Moves.redial (o := o) hpc hclosed
      rw [next_eq (a := .wake) (by rw [drive, hpc]) (SSEClient.step_of_moves hmoves)]
      refine .inr ⟨⟨Nat.le_add_left 1 _, ⟨nofun, nofun⟩, nofun⟩, ?_⟩
      unfold Lower rank
      by_cases hn : s.dials < n
      · exact .left _ _ (by show n - (s.dials + 1) < n - s.dials; omega)
      · rw [show n - (s.dials + 1) = n - s.dials by omega]
        refine .right _ ?_
        -- nothing comes from this dial
        have hnone : (script s.dials).items.countP Item.isEvent = 0 := hfin _ (Nat.not_lt.mp hn)
        rw [show toCome script { s with
          stream := none, state := .connecting, pc := .dialing handling, dials := s.dials + 1
          redials := s.redials + 1 } = (script s.dials).items from rfl, hnone]
        obtain hz | hz := Nat.eq_zero_or_pos ((toCome script s).countP Item.isEvent)
        · rw [hz]
          refine .right _ (.right _ ?_)
          rw [show patience script s = 3 * (script s.dials).items.length + 2 by
            rw [patience, hpc]]
          exact Nat.lt_succ_self _
        · exact .left _ _ hz

/-- The order of the ranks is well-founded. -/
theorem lower_wf : WellFounded (Lower o script n) :=
  InvImage.wf (rank o script n)
    (Nat.lt_wfRel.wf.prod_lex (Nat.lt_wfRel.wf.prod_lex (Nat.lt_wfRel.wf.prod_lex Nat.lt_wfRel.wf)))

/-- Against a server from which finitely many dials bring an event, the generator ends. -/
theorem ends_of_finite (hfin : ∀ m, n ≤ m → (script m).items.countP Item.isEvent = 0)
    (hd : Driven script s) : ∃ k, ((next o script)^[k] s).pc.over = true := by
  induction s using (lower_wf : WellFounded (Lower o script n)).induction with
  | _ s ih =>
    cases hover : s.pc.over with
    | true => exact ⟨0, hover⟩
    | false =>
      obtain hend | ⟨hd', hlow⟩ := onward_next (o := o) hfin hd hover
      · exact ⟨1, hend⟩
      · obtain ⟨k, hk⟩ := ih _ hlow hd'
        exact ⟨k + 1, hk⟩

/-! ### The stream of a step -/

@[simp] theorem stream_handle (s : SSEClient) (e : PyException) :
    (s.handle o e).stream = s.stream := by
  unfold SSEClient.handle
  split_ifs <;> rfl

theorem stream_redialFailed (s : SSEClient) (handling : Option PyException) (e : PyException) :
    (s.redialFailed o handling e).stream = none := by
  unfold SSEClient.redialFailed
  dsimp only
  split
  · rfl
  · split
    · exact stream_handle _ _
    · rfl

@[simp] theorem stream_receive (s : SSEClient) (event : RealtimeEvent) :
    (s.receive o event).stream = s.stream := by
  unfold SSEClient.receive
  dsimp only
  split
  · split
    · exact stream_handle _ _
    · rfl
  · rfl

@[simp] theorem stream_loop (s : SSEClient) : s.loop.stream = s.stream := rfl

/-- A step drops the stream, keeps it, takes one event from it, or opens one. -/
def StreamStep (s : SSEClient) (a : Action) (s' : SSEClient) : Prop :=
  (∀ stream, s'.stream = some stream → ∃ stream', s.stream = some stream' ∧
    ∀ item ∈ stream.items, item ∈ stream'.items) ∨
  ∃ stream, a = .reply (.accepted stream) ∧ s'.stream = some stream

theorem StreamStep.of_eq (h : s'.stream = s.stream) : StreamStep s a s' :=
  .inl fun stream hs => ⟨stream, h ▸ hs, fun _ => id⟩

theorem StreamStep.of_none (h : s'.stream = none) : StreamStep s a s' :=
  .inl fun stream hs => by rw [h] at hs; cases hs

theorem streamStep_read : StreamStep s .read (s.readStep o) := by
  unfold SSEClient.readStep
  dsimp only
  split
  · exact .of_eq (stream_handle _ _)
  · unfold SSEClient.streamEnded
    split
    · exact .of_none rfl
    · split_ifs <;> exact .of_eq rfl
  · exact .of_eq (stream_handle _ _)
  · rename_i item items error hs
    split
    · exact .of_eq rfl
    · have htail : ∀ s₁ : SSEClient, s₁.stream = some ⟨items, error⟩ → StreamStep s .read s₁ := by
        intro s₁ hs₁
        refine .inl fun stream heq => ⟨_, hs, fun i hi => ?_⟩
        rw [hs₁, Option.some_inj] at heq
        subst heq
        exact List.mem_cons_of_mem _ hi
      split
      · exact htail _ (stream_handle _ _)
      · exact htail _ rfl
      · exact htail _ (stream_receive _ _)

theorem streamStep (hstep : s.step o a = some s') : StreamStep s a s' := by
  cases SSEClient.moves_of_step hstep with
  | dialed | accepted => exact .inr ⟨_, rfl, rfl⟩
  | redialFailed => exact .of_none (stream_redialFailed _ _ _)
  | read => exact streamStep_read
  | refused | redial | closeDone => exact .of_none rfl
  | connected | connect | iterate | events | deliver | resume | noRedial | close => exact .of_eq rfl

/-! ### The run -/

/-- The generator was called: no `connect()` of the application is under way. -/
def Pc.inEvents : Pc → Bool
  | .idle | .connecting false => false
  | _ => true

theorem inEvents_handle (s : SSEClient) (e : PyException) :
    (s.handle o e).pc.inEvents = true := by
  unfold SSEClient.handle
  split_ifs <;> rfl

theorem inEvents_redialFailed (s : SSEClient) (handling : Option PyException) (e : PyException) :
    (s.redialFailed o handling e).pc.inEvents = true := by
  unfold SSEClient.redialFailed
  dsimp only
  split
  · rfl
  · split
    · exact inEvents_handle _ _
    · rfl

theorem inEvents_read (h : s.pc.inEvents = true) : (s.readStep o).pc.inEvents = true := by
  unfold SSEClient.readStep
  dsimp only
  split
  · exact inEvents_handle _ _
  · unfold SSEClient.streamEnded
    split_ifs <;> rfl
  · exact inEvents_handle _ _
  · split
    · rfl
    · split
      · exact inEvents_handle _ _
      · exact h
      · unfold SSEClient.receive
        dsimp only
        split
        · split
          · exact inEvents_handle _ _
          · rfl
        · rfl

theorem inEvents_loop (s : SSEClient) : s.loop.pc.inEvents = true := by
  unfold SSEClient.loop
  dsimp only
  split <;> rfl

/-- The generator does not leave `events()` but by ending. -/
theorem inEvents_next (h : s.pc.inEvents = true) : (next o script s).pc.inEvents = true := by
  cases hd : drive script s with
  | none =>
    rw [next, hd]
    exact h
  | some a =>
    cases hstep : s.step o a with
    | none =>
      rw [next, hd, Option.bind_some, hstep]
      exact h
    | some s' =>
      rw [next_eq hd hstep]
      cases SSEClient.moves_of_step hstep with
      | connected | connect | iterate | events | close | closeDone =>
        -- these are calls of the application
        unfold drive at hd
        split at hd <;> cases hd
      | dialed hpc =>
        rw [hpc] at h
        cases h
      | @refused inEvents e hpc =>
        cases inEvents with
        | true => rfl
        | false =>
          rw [hpc] at h
          cases h
      | accepted => exact inEvents_loop _
      | redialFailed => exact inEvents_redialFailed _ _ _
      | read => exact inEvents_read h
      | deliver | resume | redial => rfl
      | @noRedial handling => cases handling <;> rfl

/-- A final error that answers a dial is raised at once. -/
theorem next_failed (hs : Sound o s) (hin : s.pc.inEvents = true) {e : PyException}
    (hd : drive script s = some (.reply (.failed e))) (he : e.isFinal = true) :
    (next o script s).pc = .raised e := by
  have hreply : (∃ b, s.pc = .connecting b) ∨ ∃ h, s.pc = .dialing h := by
    unfold drive at hd
    split at hd
    · exact .inl ⟨_, ‹_›⟩
    · exact .inr ⟨_, ‹_›⟩
    all_goals cases hd
  obtain ⟨b, hpc⟩ | ⟨handling, hpc⟩ := hreply
  · cases b with
    | false =>
      rw [hpc] at hin
      cases hin
    | true =>
      have hstep : s.step o (.reply (.failed e)) = some { s with
          stream := none, state := .disconnected, lastEnd := some (some e), pc := .raised e } :=
        SSEClient.step_of_moves (.refused hpc)
      rw [next_eq hd hstep]
  · have hstep : s.step o (.reply (.failed e)) =
        some (({ s with lastEnd := some (some e) }).redialFailed o handling e) :=
      SSEClient.step_of_moves (.redialFailed hpc)
    rw [next_eq hd hstep]
    have hopen : s.closed = false := hs.running (by rw [hpc]; rfl)
    unfold SSEClient.redialFailed
    dsimp only
    rw [he, Bool.not_true, Bool.false_and, if_neg Bool.false_ne_true]
    cases handling with
    | some _ => rfl
    | none =>
      unfold SSEClient.handle
      rw [if_neg (by rw [hopen]; exact Bool.false_ne_true), if_pos he]

/-- What the open stream will send is in the script. -/
def Scripted (script : ℕ → DialReply) (s : SSEClient) : Prop :=
  ∀ stream, s.stream = some stream → ∀ item ∈ stream.items, ∃ m, item ∈ (script m).items

theorem scripted_runEvents (k : ℕ) : Scripted script (runEvents o script k) := by
  induction k with
  | zero =>
    intro stream hs
    cases hs
  | succ k hs =>
    have heq : runEvents o script (k + 1) = next o script (runEvents o script k) :=
      Function.iterate_succ_apply' ..
    rw [heq]
    generalize runEvents o script k = s at hs
    cases hd : drive script s with
    | none =>
      rw [next, hd]
      exact hs
    | some a =>
      cases hstep : s.step o a with
      | none =>
        rw [next, hd, Option.bind_some, hstep]
        exact hs
      | some s' =>
        rw [next_eq hd hstep]
        intro stream hstream item hi
        obtain hsame | ⟨stream', rfl, hopen⟩ := streamStep hstep
        · obtain ⟨stream', hs', hsub⟩ := hsame stream hstream
          exact hs stream' hs' item (hsub item hi)
        · rw [hopen, Option.some_inj] at hstream
          subst hstream
          refine ⟨s.dials - 1, ?_⟩
          unfold drive at hd
          split at hd <;> try cases hd
          all_goals
            rw [Action.reply.inj (Option.some_inj.mp hd)]
            exact hi

/-- Every event that the run reads can be looked at. -/
def ReadableScript (o : Options) (script : ℕ → DialReply) : Prop :=
  ∀ k event items error, (runEvents o script k).pc = .reading →
    (runEvents o script k).stream = some ⟨.ok (some event) :: items, error⟩ →
      Readable o event = true

/-- So it is where every event of the script can be looked at, read or not. -/
theorem ReadableScript.of_items
    (h : ∀ m event, .ok (some event) ∈ (script m).items → Readable o event = true) :
    ReadableScript o script := by
  intro k event items error _ hstream
  obtain ⟨m, hm⟩ := scripted_runEvents k _ hstream _ List.mem_cons_self
  exact h m event hm

theorem drive_undisturbed (hread : ReadableScript o script) {k : ℕ}
    (hd : drive script (runEvents o script k) = some a) :
    Undisturbed o (runEvents o script k) a = true := by
  unfold drive at hd
  split at hd <;> first | (cases hd; done) | skip
  all_goals obtain rfl := Option.some_inj.mp hd
  all_goals first | rfl | skip
  rename_i hpc
  unfold Undisturbed
  dsimp only
  split
  · rename_i event items error hstream
    exact hread k event items error hpc hstream
  · rfl

/-- Every state of the run is reached by undisturbed steps. -/
theorem runEvents_reachable (hread : ReadableScript o script) (k : ℕ) :
    (system o).Reachable (fun s a => Undisturbed o s a = true) (runEvents o script k) := by
  induction k with
  | zero => exact System.Reachable.init.step (a := .events) rfl rfl
  | succ k hr =>
    have heq : runEvents o script (k + 1) = next o script (runEvents o script k) :=
      Function.iterate_succ_apply' ..
    rw [heq]
    cases hd : drive script (runEvents o script k) with
    | none =>
      rw [next, hd]
      exact hr
    | some a =>
      cases hstep : (runEvents o script k).step o a with
      | none =>
        rw [next, hd, Option.bind_some, hstep]
        exact hr
      | some s' =>
        rw [next_eq hd hstep]
        exact hr.step (drive_undisturbed hread hd) hstep

/-- Against every script of the server, as long as the events that the run reads can be looked
at: between two delivered events, and after the last, at most `max_reconnect_attempts` redials are
made; an error that is final ends the generator at once and as itself; the generator ends if
finitely many dials bring an event; it then stays as it is; and it returns only after a clean end,
and raises the last failure after a failure. -/
theorem retry_budget (o : Options) (script : ℕ → DialReply) (hread : ReadableScript o script) :
    (∀ k, (runEvents o script k).redials ≤ o.maxReconnectAttempts) ∧
    (∀ k e, drive script (runEvents o script k) = some (.reply (.failed e)) → e.isFinal = true →
      (runEvents o script (k + 1)).pc = .raised e) ∧
    ((∃ n, ∀ m, n ≤ m → (script m).items.countP Item.isEvent = 0) →
      ∃ k, (runEvents o script k).pc.over = true) ∧
    (∀ k, (runEvents o script k).pc.over = true →
      runEvents o script (k + 1) = runEvents o script k) ∧
    (∀ k, (runEvents o script k).pc = .returned →
      (runEvents o script k).lastEnd = some none) ∧
    (∀ k e, (runEvents o script k).pc = .raised e →
      (runEvents o script k).lastEnd = some (some e)) := by
  have hsound : ∀ k, Sound o (runEvents o script k) :=
    fun k => sound_of_reachable (runEvents_reachable hread k)
  have hsucc : ∀ k, runEvents o script (k + 1) = next o script (runEvents o script k) :=
    fun k => Function.iterate_succ_apply' ..
  have hin : ∀ k, (runEvents o script k).pc.inEvents = true := by
    intro k
    induction k with
    | zero => rfl
    | succ k ih =>
      rw [hsucc]
      exact inEvents_next ih
  refine ⟨fun k => (hsound k).redials, fun k e hd he => ?_, ?_, fun k hover => ?_,
    fun k => (hsound k).returned, fun k => (hsound k).raised⟩
  · rw [hsucc]
    exact next_failed (hsound k) (hin k) hd he
  · rintro ⟨n, hfin⟩
    exact ends_of_finite hfin ⟨le_refl 1, ⟨nofun, nofun⟩, nofun⟩
  · rw [hsucc, next]
    have hnone : drive script (runEvents o script k) = none := by
      unfold drive
      split <;> first | rfl | skip
      all_goals
        rename_i hpc
        rw [hpc] at hover
        cases hover
    rw [hnone, Option.bind_none, Option.getD_none]

/-- A job stream that delivers the start of the job and breaks; its server is gone by then. -/
def brokenScript : ℕ → DialReply
  | 0 => .accepted ⟨[.ok (some ⟨"job.status_changed", .obj [("new_status", .str "processing")]⟩)],
      some (.other "connection reset")⟩
  | _ + 1 => .failed (.other "connection refused")

/-- The event is delivered, and one redial is made of a budget of one. -/
theorem retry_budget_sample :
    let s := runEvents { maxReconnectAttempts := 1, jobStream := true } brokenScript 9
    s.delivered.length = 1 ∧ s.redials = 1 ∧ s.pc.over = true ∧ s.redials ≤ 1 := by
  have hread : ReadableScript { maxReconnectAttempts := 1, jobStream := true } brokenScript := by
    refine .of_items fun m event hmem => ?_
    cases m with
    | zero =>
      obtain rfl : event = _ := Option.some_inj.mp (Except.ok.inj (List.mem_singleton.mp hmem))
      rfl
    | succ m => cases hmem
  exact ⟨rfl, rfl, rfl, (retry_budget _ brokenScript hread).1 9⟩

/-- A status change whose `new_status` is a list, on every stream of a job. -/
def listStatus : RealtimeEvent :=
  { type := "job.status_changed", data := .obj [("new_status", .arr [])] }

/-- `closes_job_stream` raises after the budget was restored: three redials out of a budget of
one, with nothing delivered. -/
theorem budget_overrun :
    let o : Options := { maxReconnectAttempts := 1, jobStream := true }
    let s := runEvents o (fun _ => .accepted ⟨[.ok (some listStatus)], none⟩) 10
    s.redials = 3 ∧ s.delivered.length = 0 :=
  ⟨rfl, rfl⟩

end

end

end SpooledSdk.Realtime.Sse
