/-
One live connection per client.

At most one party holds the client: a dial, a receive loop or a pending timer.  A dial hands over
to the loop it starts, a loop to the timer it sets, a timer to the dial it runs.

* `Sound` — there is one such holder, it belongs to the newest connection, and where it is about
  to dial no socket is open;
* `Effect`, `effect_of_step` — what a step of a thread can do to that;
* `one_connection` — under `Orderly` one socket, one loop and one timer at most, each of the
  newest connection, and each drop charged once;
* `second_socket_opened` — a `connect()` while a timer is pending.
-/
import SpooledSdk.Realtime.Threads
import SpooledSdk.Registry

namespace SpooledSdk.Realtime.Threads

/-! ### What a thread stands for -/

/-- The connection has been closed, and not yet been forgotten. -/
def ClosePc.bare : ClosePc → Bool
  | .test | .close => false
  | .reset | .forget => true

def DropPc.bare : DropPc → Bool
  | .teardown pc => pc.bare
  | _ => true

/-- The drop has been charged to the budget. -/
def DropPc.counted : DropPc → Bool
  | .arm | .launch => true
  | _ => false

namespace Thread

/-- The thread is the dial or the receive loop that keeps the client going. -/
def holds : Thread → Bool
  | .dial redial _ .check => redial
  | .dial _ _ pc => !(pc matches .started | .lateFailed | .ended)
  | .reader _ _ pc => pc ≠ .ended
  | .stopper _ => false

/-- The thread is where no socket may be open. -/
def bare (k : Kind) : Thread → Bool
  | .dial redial _ .check => redial
  | .dial _ _ .mark | .dial _ _ .dialing | .dial _ _ .failed | .dial _ _ .raised => true
  | .dial _ _ (.closing pc) => pc.bare
  | .dial _ _ (.dropping pc) => pc.bare
  | .reader _ _ (.caught _) => k = .webSocket
  | .reader _ _ (.closing pc) => pc.bare
  | .reader _ _ .closed => true
  | .reader _ _ (.dropping pc) => pc.bare
  | .stopper (.closing pc) => pc = .reset
  | _ => false

/-- The drop of the thread's connection has not been charged yet. -/
def uncounted : Thread → Bool
  | .dial _ _ pc => (pc matches .opened | .attach | .connected | .clear | .start)
  | .reader _ _ (.dropping pc) => !pc.counted
  | .reader _ _ pc => pc ≠ .ended
  | .stopper _ => false

def gen : Thread → ℕ
  | .dial _ gen _ | .reader gen _ _ => gen
  | .stopper _ => 0

/-- The socket that a receive loop reads from. -/
def uses (k : Kind) : Thread → Option ℕ
  | .reader _ _ (.reading i) | .reader _ _ (.received i) | .reader _ _ (.handling i)
  | .reader _ _ (.dispatching i) =>
    if k = .realtimeSse then none else some i
  | _ => none

end Thread

/-- No socket is open. -/
def Client.Shut (c : Client) : Prop := ∀ i : ℕ, c.sockets[i]? ≠ some true

/-! ### Holders -/

inductive Holder
  | thread (i : ℕ)
  | timer (t : ℕ)

namespace Session

def Holds (s : Session) : Holder → Prop
  | .thread i => ∃ thread, s.threads[i]? = some thread ∧ thread.holds = true
  | .timer t => ∃ timer, s.client.timers[t]? = some timer ∧ timer.state = .pending

/-- Socket `i` is open. -/
def Opened (s : Session) (i : ℕ) : Prop := s.client.sockets[i]? = some true

/-- Nothing of an earlier connection is left. -/
def quiet (s : Session) : Bool :=
  s.threads.all (fun thread => !thread.holds) &&
    (s.client.timers.all fun timer => timer.state ≠ .pending) &&
    s.client.sockets.all (fun isOpen => !isOpen)

end Session

/-- The thread may go on by `answer`: `connect()` comes to a client with nothing left of an earlier
connection, no dial is answered between the `close()` of a `disconnect()` and its reset of the
connection, the resubscription of a redial does not raise, and neither does the handling of a
message by a `WebSocketClient` whose socket is open. -/
def Thread.orderly (k : Kind) (s : Session) (answer : Answer) : Thread → Bool
  | .dial redial _ .check =>
    redial || s.client.state = .connected || s.client.state = .connecting || s.quiet
  | .dial _ _ .dialing => answer ≠ .yes || !s.threads.contains (.stopper (.closing .reset))
  | .dial redial _ .started => !redial || answer = .yes
  | .reader _ _ (.handling i) | .reader _ _ (.dispatching i) =>
    k ≠ .webSocket || answer ≠ .raised || s.client.sockets[i]? ≠ some true
  | _ => true

def Orderly (k : Kind) (s : Session) : Action → Bool
  | .go i answer => s.threads[i]?.all (Thread.orderly k s answer)
  | _ => true

/-- One open socket, one receive loop and one pending timer at most; the loop, the timer and a
redial that has opened no socket yet belong to the newest connection; and the drop of each
connection is charged to the budget once at most. -/
structure Session.OneConnection (s : Session) : Prop where
  socket : ∀ i j, s.Opened i → s.Opened j → i = j
  loop : ∀ (i j gen gen' : ℕ) (finished finished' : Bool) (pc pc' : ReaderPc),
    s.threads[i]? = some (.reader gen finished pc) →
    s.threads[j]? = some (.reader gen' finished' pc') → pc ≠ .ended → pc' ≠ .ended → i = j
  timer : ∀ (i j : ℕ) (timer timer' : Timer), s.client.timers[i]? = some timer →
    s.client.timers[j]? = some timer' → timer.state = .pending → timer'.state = .pending → i = j
  loop_newest : ∀ gen finished pc, .reader gen finished pc ∈ s.threads → pc ≠ .ended →
    gen = s.client.sockets.length
  timer_newest : ∀ timer ∈ s.client.timers, timer.state = .pending →
    timer.gen = s.client.sockets.length
  redial_newest : ∀ gen pc, .dial true gen pc ∈ s.threads →
    (pc matches .check | .mark | .dialing | .dropping _) → gen = s.client.sockets.length
  charged_once : s.client.spent.Nodup

/-! ### The invariant -/

/-- There is one holder at most; it belongs to the newest connection, which is the one that
`conn` knows and the only one that may be open. -/
structure Sound (k : Kind) (s : Session) : Prop where
  single : ∀ h h', s.Holds h → s.Holds h' → h = h'
  newest : ∀ {i}, s.client.conn = some i → i + 1 = s.client.sockets.length
  attached : ∀ {i}, s.Opened i → s.client.conn = some i
  bare : ∀ {thread}, thread ∈ s.threads → thread.bare k = true → s.client.Shut
  waiting : ∀ {timer}, timer ∈ s.client.timers → timer.state = .pending →
    timer.gen = s.client.sockets.length ∧ s.client.Shut
  gen : ∀ {thread}, thread ∈ s.threads → thread.holds = true →
    thread.gen = s.client.sockets.length
  uses : ∀ {thread i}, thread ∈ s.threads → thread.uses k = some i →
    i + 1 = s.client.sockets.length
  fresh : ∀ {thread}, thread ∈ s.threads → thread.uncounted = true →
    thread.gen ∉ s.client.spent
  spent_le : ∀ {g}, g ∈ s.client.spent → g ≤ s.client.sockets.length
  nodup : s.client.spent.Nodup

variable {k : Kind} {o : Options} {s s' : Session} {c' : Client} {thread thread' : Thread}

theorem Sound.shut (hs : Sound k s) (hc : s.client.conn = none) : s.client.Shut := by
  intro i hi
  rw [hs.attached hi] at hc
  cases hc

/-- The socket that a loop reads from is the newest one: when it is closed, none is open. -/
theorem Sound.shut_of_uses (hs : Sound k s) (hm : thread ∈ s.threads)
    (hu : thread.uses k = some i) (hi : ¬ s.Opened i) : s.client.Shut := by
  intro j hj
  have hn := hs.newest (hs.attached hj)
  have hu := hs.uses hm hu
  have hij : i = j := by omega
  exact hi (hij ▸ hj)

theorem quiet_holds (h : s.quiet = true) (p : Holder) : ¬ s.Holds p := by
  simp only [Session.quiet, Bool.and_eq_true, List.all_eq_true, Bool.not_eq_true',
    decide_eq_true_eq] at h
  intro hp
  cases p with
  | thread i =>
    obtain ⟨thread, hi, ht⟩ := hp
    rw [h.1.1 thread (List.mem_of_getElem? hi)] at ht
    cases ht
  | timer t =>
    obtain ⟨timer, ht, hpend⟩ := hp
    exact h.1.2 timer (List.mem_of_getElem? ht) hpend

theorem quiet_shut (h : s.quiet = true) : s.client.Shut := by
  simp only [Session.quiet, Bool.and_eq_true, List.all_eq_true, Bool.not_eq_true'] at h
  intro i hi
  have := h.2 true (List.mem_of_getElem? hi)
  cases this

theorem Thread.holds_of_uncounted (h : thread.uncounted = true) : thread.holds = true := by
  cases thread with
  | dial redial gen pc => cases pc <;> first | rfl | cases h
  | reader gen finished pc => cases pc <;> first | rfl | cases h
  | stopper pc => cases h

theorem Thread.holds_of_uses (h : thread.uses k = some i) : thread.holds = true := by
  cases thread with
  | dial redial gen pc => cases h
  | reader gen finished pc => cases pc <;> first | rfl | cases h
  | stopper pc => cases h

/-- Only a holder is bare, or a `disconnect()` that has closed the connection. -/
theorem Thread.holds_of_bare (h : thread.bare k = true) :
    thread.holds = true ∨ thread = .stopper (.closing .reset) := by
  cases thread with
  | dial redial gen pc => cases pc <;> first | exact .inl h | exact .inl rfl
  | reader gen finished pc => cases pc <;> first | exact .inl rfl | cases h
  | stopper pc =>
    cases pc with
    | closing pc =>
      have hpc : pc = .reset := of_decide_eq_true h
      exact .inr (by rw [hpc])
    | _ => cases h

/-! ### What a step can do -/

/-- The step opens no socket, takes the connection away only where none is open, sets no timer
and charges no drop. -/
structure Keeps (s : Session) (c' : Client) : Prop where
  length : c'.sockets.length = s.client.sockets.length
  opened : ∀ {i}, c'.sockets[i]? = some true → s.Opened i
  conn : c'.conn = s.client.conn ∨ (c'.conn = none ∧ s.client.Shut)
  timers : ∀ {t : ℕ} {timer : Timer}, c'.timers[t]? = some timer → timer.state = .pending →
    s.client.timers[t]? = some timer
  spent : c'.spent = s.client.spent

theorem Keeps.of_eq (hsockets : c'.sockets = s.client.sockets)
    (hconn : c'.conn = s.client.conn) (htimers : c'.timers = s.client.timers)
    (hspent : c'.spent = s.client.spent) : Keeps s c' :=
  ⟨by rw [hsockets], fun h => by rwa [hsockets] at h, .inl hconn,
    fun h _ => by rwa [htimers] at h, hspent⟩

/-- The thread claims nothing that it did not claim before, unless the connection, or the
absence of one, bears it out. -/
structure Tame (k : Kind) (s : Session) (c' : Client) (thread thread' : Thread) : Prop where
  gen : thread'.gen = thread.gen
  holds : thread'.holds = true → thread.holds = true
  uncounted : thread'.uncounted = true → thread.uncounted = true
  uses : ∀ {i}, thread'.uses k = some i → thread.uses k = some i ∨ s.client.conn = some i
  bare : thread'.bare k = true → thread.bare k = true ∨ c'.Shut

/-- What the next step of a thread makes of the client and of the thread, and what it starts. -/
inductive Effect (k : Kind) (s : Session) : Thread → Client → Thread → Option Thread → Prop
  | keeps {x x' : Thread} {c : Client} (hk : Keeps s c) (ht : Tame k s c x x') :
      Effect k s x c x' none
  | begins {gen : ℕ} (hq : s.quiet = true) :
      Effect k s (.dial false gen .check) s.client
        (.dial false s.client.sockets.length .mark) none
  | opens {redial : Bool} {gen : ℕ} {pc : DialPc}
      (hstop : .stopper (.closing .reset) ∉ s.threads) (hpc : pc = .opened ∨ pc = .connected) :
      Effect k s (.dial redial gen .dialing)
        { s.client with
          conn := some s.client.sockets.length
          sockets := s.client.sockets ++ [true] }
        (.dial redial (s.client.sockets.length + 1) pc) none
  | starts {redial : Bool} {gen : ℕ} :
      Effect k s (.dial redial gen .start) s.client (.dial redial gen .started)
        (some (.reader gen false k.loop))
  | counts {gen n : ℕ} {finished : Bool} :
      Effect k s (.reader gen finished (.dropping .count))
        { s.client with reconnectAttempts := n, spent := gen :: s.client.spent }
        (.reader gen finished (.dropping .arm)) none
  | launches {x x' : Thread} {t : ℕ} {timer : Timer} (hh : x.holds = true)
      (ht : s.client.timers[t]? = some timer) (hu : timer.state = .created)
      (hh' : x'.holds = false) (hb : x.bare k = true) (hb' : x'.bare k = false) :
      Effect k s x
        { s.client with timers := s.client.timers.set t { state := .pending, gen := x.gen } }
        x' none

/-! ### Closing and dropping -/

theorem close_cases (hs : Sound k s) (pc : ClosePc) (hreset : pc = .reset → s.client.Shut) :
    Keeps s (s.client.close k pc).1 ∧
      ((s.client.close k pc).2.all ClosePc.bare = true →
        pc = .forget ∨ (s.client.close k pc).1.Shut) := by
  cases pc with
  | test =>
    refine ⟨.of_eq rfl rfl rfl rfl, fun hb => .inr (hs.shut ?_)⟩
    cases hc : s.client.conn with
    | none => rfl
    | some j =>
      rw [Client.close, hc] at hb
      cases hb
  | close =>
    cases hc : s.client.conn with
    | none =>
      have heq : (s.client.close k .close).1.sockets = s.client.sockets := by
        simp only [Client.close, hc, Option.map_none, Option.getD_none]
      refine ⟨.of_eq heq rfl rfl rfl, fun _ => .inr fun i hi => hs.shut hc i ?_⟩
      rwa [heq] at hi
    | some j =>
      have heq : (s.client.close k .close).1.sockets = s.client.sockets.set j false := by
        simp only [Client.close, hc, Option.map_some, Option.getD_some]
      have hopen : ∀ i, (s.client.sockets.set j false)[i]? = some true → j ≠ i ∧ s.Opened i := by
        intro i hi
        rcases List.getElem?_set_cases hi with ⟨-, hf⟩ | hi
        · cases hf
        · exact hi
      refine ⟨⟨by rw [heq, List.length_set], fun hi => ?_, .inl rfl, fun h _ => h, rfl⟩,
        fun _ => .inr fun i hi => ?_⟩
      · rw [heq] at hi
        exact (hopen _ hi).2
      · -- an open socket is the one that was closed just now
        rw [heq] at hi
        have hj := hs.attached (hopen i hi).2
        rw [hc, Option.some_inj] at hj
        exact (hopen i hi).1 hj
  | reset =>
    exact ⟨⟨rfl, fun hi => hi, .inr ⟨rfl, hreset rfl⟩, fun h _ => h, rfl⟩,
      fun _ => .inr (hreset rfl)⟩
  | forget => exact ⟨.of_eq rfl rfl rfl rfl, fun _ => .inl rfl⟩

/-- A step of `_handle_disconnect`, other than those that charge the drop or set the timer. -/
def Charges (lost : Bool) (pc : DropPc) : Prop := pc = .launch ∨ (pc = .count ∧ lost = true)

theorem drop_keeps (o : Options) (answer : Answer) (hs : Sound k s) {gen : ℕ} {lost : Bool}
    {pc : DropPc} (hb : pc.bare = true → s.client.Shut) (hc : ¬ Charges lost pc) :
    Keeps s (s.client.drop k o gen lost answer pc).1 ∧
      ((s.client.drop k o gen lost answer pc).2.all DropPc.bare = true →
        pc.bare = true ∨ (s.client.drop k o gen lost answer pc).1.Shut) ∧
      ((s.client.drop k o gen lost answer pc).2.any (fun pc' => !pc'.counted) = true →
        pc.counted = false) := by
  cases pc with
  | clear =>
    exact ⟨⟨rfl, fun hi => hi, .inr ⟨rfl, hb rfl⟩, fun h _ => h, rfl⟩, fun _ => .inl rfl,
      fun _ => rfl⟩
  | teardown pc =>
    obtain ⟨hk, hbare⟩ := close_cases hs pc fun hpc => hb (by rw [hpc]; rfl)
    refine ⟨hk, fun h => ?_, fun _ => rfl⟩
    change ((s.client.close k pc).2.elim _ DropPc.teardown).bare = true at h
    cases hn : (s.client.close k pc).2 with
    | none =>
      rw [hn] at hbare
      rcases hbare rfl with rfl | hshut
      · exact .inl rfl
      · exact .inr hshut
    | some pc' =>
      rw [hn] at hbare h
      rcases hbare h with rfl | hshut
      · exact .inl rfl
      · exact .inr hshut
  | arm =>
    refine ⟨⟨rfl, fun hi => hi, .inl rfl, fun {t timer} h hp => ?_, rfl⟩, fun _ => .inl rfl, nofun⟩
    change (s.client.timers ++ [({ gen } : Timer)])[t]? = some timer at h
    rw [List.getElem?_append] at h
    split at h
    · exact h
    · -- the new timer has not been started
      rw [List.mem_singleton.mp (List.mem_of_getElem? h)] at hp
      cases hp
  | count =>
    have hspent : (if lost = true then gen :: s.client.spent else s.client.spent) =
        s.client.spent := if_neg fun hl => hc (.inr ⟨rfl, hl⟩)
    exact ⟨.of_eq rfl rfl rfl hspent, fun _ => .inl rfl, nofun⟩
  | launch => exact absurd (.inl rfl) hc
  | _ => exact ⟨.of_eq rfl rfl rfl rfl, fun _ => .inl rfl, fun _ => rfl⟩

/-! ### The threads, one by one -/

theorem Tame.of_uses {c' : Client} (hgen : thread'.gen = thread.gen)
    (hholds : thread'.holds = true → thread.holds = true)
    (huncounted : thread'.uncounted = true → thread.uncounted = true)
    (huses : ∀ {i}, thread'.uses k ≠ some i)
    (hbare : thread'.bare k = true → thread.bare k = true ∨ c'.Shut) :
    Tame k s c' thread thread' :=
  ⟨hgen, hholds, huncounted, fun h => absurd h huses, hbare⟩

/-- The threads that call `_handle_disconnect`: `T pc` is inside it, and `E` has left it. -/
structure Drops (k : Kind) (gen : ℕ) (T : DropPc → Thread) (E : Thread) : Prop where
  knows : ∀ pc, (T pc).gen = gen
  holds : ∀ pc, (T pc).holds = true
  bare : ∀ pc, (T pc).bare k = pc.bare
  counted : ∀ {pc pc' : DropPc}, (pc'.counted = false → pc.counted = false) →
    (T pc').uncounted = true → (T pc).uncounted = true
  uses : ∀ pc i, (T pc).uses k ≠ some i
  ended : E.gen = gen ∧ E.holds = false ∧ E.bare k = false ∧ E.uncounted = false ∧
    E.uses k = none

theorem Drops.leaves {T : DropPc → Thread} {E : Thread} {gen : ℕ} (h : Drops k gen T E)
    (pc : DropPc) : Tame k s c' (T pc) E := by
  obtain ⟨hgen, hholds, hbare, huncounted, huses⟩ := h.ended
  refine .of_uses (by rw [hgen, h.knows]) ?_ ?_ (fun hu => ?_) ?_
  · rw [hholds]
    nofun
  · rw [huncounted]
    nofun
  · rw [huses] at hu
    cases hu
  · rw [hbare]
    nofun

theorem effect_of_drop (o : Options) (lost : Bool) (answer : Answer) (hs : Sound k s)
    {T : DropPc → Thread} {E : Thread} {gen : ℕ} (h : Drops k gen T E) {pc : DropPc} (hm : T pc ∈ s.threads)
    (hc : ¬ (pc = .count ∧ lost = true)) :
    Effect k s (T pc) (s.client.drop k o gen lost answer pc).1
      ((s.client.drop k o gen lost answer pc).2.elim E T) none := by
  have hshut : pc.bare = true → s.client.Shut := fun hb => hs.bare hm (by rw [h.bare, hb])
  by_cases hl : pc = .launch
  · subst hl
    show Effect k s (T .launch) (s.client.launch gen) E none
    unfold Client.launch
    split
    · exact .keeps (.of_eq rfl rfl rfl rfl) (h.leaves _)
    · rename_i t _
      split
      · rename_i hcreated
        obtain ⟨timer, ht, hu⟩ := (Option.any_eq_true _ _).mp hcreated
        have heff := Effect.launches (h.holds .launch) ht (of_decide_eq_true hu) h.ended.2.1
          (by rw [h.bare]; rfl) h.ended.2.2.1
        rwa [h.knows] at heff
      · exact .keeps (.of_eq rfl rfl rfl rfl) (h.leaves _)
  · obtain ⟨hk, hbare, hcounted⟩ := drop_keeps o answer hs hshut
      (fun hcharges => hcharges.elim hl hc)
    cases hn : (s.client.drop k o gen lost answer pc).2 with
    | none => exact .keeps hk (h.leaves pc)
    | some pc' =>
      rw [hn] at hbare hcounted
      refine .keeps hk (.of_uses (by rw [Option.elim_some, h.knows, h.knows]) (fun _ => h.holds pc)
        (h.counted fun hf => hcounted ?_) (h.uses pc' _) fun hb => ?_)
      · rw [Option.any_some, hf]
        rfl
      · rw [Option.elim_some, h.bare] at hb
        rw [h.bare]
        exact hbare hb

theorem drops_dial {redial : Bool} {gen : ℕ} :
    Drops k gen (fun pc => .dial redial gen (.dropping pc)) (.dial redial gen .ended) :=
  ⟨fun _ => rfl, fun _ => rfl, fun _ => rfl, fun _ => nofun, fun _ _ => nofun,
    rfl, rfl, rfl, rfl, rfl⟩

theorem drops_reader {gen : ℕ} {finished : Bool} :
    Drops k gen (fun pc => .reader gen finished (.dropping pc))
      (.reader gen finished .ended) := by
  refine ⟨fun _ => rfl, fun _ => rfl, fun _ => rfl, fun {pc pc'} himp h => ?_, fun _ _ => nofun,
    rfl, rfl, rfl, rfl, rfl⟩
  have hpc' : pc'.counted = false := Bool.not_eq_true' _ |>.mp h
  show (!pc.counted) = true
  rw [himp hpc']
  rfl

theorem effect_of_dial (hs : Sound k s) {redial : Bool} {gen : ℕ} {answer : Answer} {pc : DialPc}
    (hm : .dial redial gen pc ∈ s.threads)
    (hok : (Thread.dial redial gen pc).orderly k s answer = true) {spawned : Option Thread}
    (hstep : s.client.dialStep k o redial gen answer pc = some (c', thread', spawned)) :
    Effect k s (.dial redial gen pc) c' thread' spawned := by
  cases pc with
  | check =>
    simp only [Client.dialStep] at hstep
    split at hstep
    · cases hstep
      exact .keeps (.of_eq rfl rfl rfl rfl) (.of_uses rfl nofun nofun nofun nofun)
    · rename_i hstate
      cases hstep
      cases redial with
      | true =>
        exact .keeps (.of_eq rfl rfl rfl rfl)
          (.of_uses rfl (fun _ => rfl) nofun nofun fun _ => .inl rfl)
      | false =>
        -- an orderly `connect()` passes its test only when nobody holds the client
        refine .begins ?_
        simp only [Thread.orderly, Bool.false_or, Bool.or_eq_true, decide_eq_true_eq] at hok
        exact hok.resolve_left hstate
  | mark =>
    cases hstep
    exact .keeps (.of_eq rfl rfl rfl rfl)
      (.of_uses rfl (fun _ => rfl) nofun nofun fun _ => .inl rfl)
  | dialing =>
    simp only [Client.dialStep] at hstep
    split at hstep
    · rename_i hyes
      cases hstep
      -- no `disconnect()` stands between its `close()` and its reset
      refine .opens ?_ ?_
      · simp only [Thread.orderly, hyes, ne_eq, not_true_eq_false, decide_false, Bool.false_or,
          Bool.not_eq_true', List.contains_eq_mem, decide_eq_false_iff_not] at hok
        exact hok
      · split
        · exact .inl rfl
        · exact .inr rfl
    · cases hstep
      refine .keeps (.of_eq rfl rfl rfl rfl) (.of_uses rfl (fun _ => rfl) ?_ nofun fun _ => .inl rfl)
      cases k <;> cases redial <;> exact nofun
  | opened =>
    cases hstep
    refine .keeps (.of_eq rfl rfl rfl rfl) (.of_uses rfl (fun _ => rfl) (fun _ => rfl) nofun ?_)
    split
    · exact nofun
    · exact nofun
  | attach =>
    simp only [Client.dialStep] at hstep
    split at hstep
    · cases hstep
      exact .keeps (.of_eq rfl rfl rfl rfl) (.of_uses rfl (fun _ => rfl) nofun nofun nofun)
    · cases hstep
      exact .keeps (.of_eq rfl rfl rfl rfl)
        (.of_uses rfl (fun _ => rfl) (fun _ => rfl) nofun nofun)
  | connected | clear =>
    cases hstep
    exact .keeps (.of_eq rfl rfl rfl rfl)
      (.of_uses rfl (fun _ => rfl) (fun _ => rfl) nofun nofun)
  | start =>
    cases hstep
    exact .starts
  | started =>
    simp only [Client.dialStep] at hstep
    split at hstep
    · cases hstep
      exact .keeps (.of_eq rfl rfl rfl rfl) (.of_uses rfl nofun nofun nofun nofun)
    · rename_i hno
      split at hstep
      · cases hstep
      · cases hstep
        -- the resubscription of an orderly redial does not raise
        have hredial : redial = false := by
          simpa only [Thread.orderly, hno, decide_false, Bool.or_false, Bool.not_eq_true'] using hok
        subst hredial
        exact .keeps (.of_eq rfl rfl rfl rfl) (.of_uses rfl nofun nofun nofun nofun)
  | lateFailed =>
    cases hstep
    exact .keeps (.of_eq rfl rfl rfl rfl) (.of_uses rfl nofun nofun nofun nofun)
  | closing pc =>
    cases hstep
    obtain ⟨hk, hbare⟩ := close_cases hs pc fun hpc =>
      hs.bare hm (by rw [hpc]; rfl)
    refine .keeps hk (.of_uses rfl (fun _ => rfl) ?_ nofun ?_)
    · cases (s.client.close k pc).2 <;> exact nofun
    · cases hn : (s.client.close k pc).2 with
      | none =>
        rw [hn] at hbare
        exact fun _ => (hbare rfl).imp (fun hpc => by rw [hpc]; rfl) id
      | some pc' =>
        rw [hn] at hbare
        exact fun h => (hbare h).imp (fun hpc => by rw [hpc]; rfl) id
  | failed =>
    cases hstep
    cases redial <;> exact .keeps (.of_eq rfl rfl rfl rfl)
      (.of_uses rfl (fun _ => rfl) nofun nofun fun _ => .inl rfl)
  | raised =>
    cases hstep
    exact .keeps (.of_eq rfl rfl rfl rfl)
      (.of_uses rfl (fun _ => rfl) nofun nofun fun _ => .inl rfl)
  | dropping pc =>
    cases hstep
    have heff := effect_of_drop o false answer hs drops_dial hm
      (fun hc : pc = .count ∧ false = true => by cases hc.2)
    cases hn : (s.client.drop k o gen false answer pc).2 with
    | none => rwa [hn] at heff
    | some pc' => rwa [hn] at heff
  | ended => cases hstep

/-- The loop leaves its connection: for a `WebSocketClient`, after that was closed. -/
theorem caught_tame {gen : ℕ} {finished clean : Bool} {pc : ReaderPc}
    (hpc : (Thread.reader gen finished pc).uncounted = true)
    (hshut : k = .webSocket → s.client.Shut) :
    Tame k s s.client (.reader gen finished pc) (.reader gen finished (.caught clean)) :=
  .of_uses rfl (fun _ => Thread.holds_of_uncounted hpc) (fun _ => hpc) nofun
    fun hb => .inr (hshut (of_decide_eq_true hb))

theorem effect_of_reader (hs : Sound k s) {gen : ℕ} {finished : Bool} {answer : Answer}
    {pc : ReaderPc} (hm : .reader gen finished pc ∈ s.threads)
    (hok : (Thread.reader gen finished pc).orderly k s answer = true) {spawned : Option Thread}
    (hstep : s.client.readerStep k o gen finished answer pc = some (c', thread', spawned)) :
    Effect k s (.reader gen finished pc) c' thread' spawned := by
  -- a message whose handling raises
  have hraises : ∀ {i pc}, .reader gen finished pc ∈ s.threads →
      (Thread.reader gen finished pc).uses k = (if k = .realtimeSse then none else some i) →
      (Thread.reader gen finished pc).uncounted = true →
      (k = .webSocket → ¬ s.Opened i) →
      Effect k s (.reader gen finished pc) s.client
        (.reader gen finished (if k = .realtimeWs then .ended else .caught false)) none := by
    intro i pc hm huses hu hi
    split
    · exact .keeps (.of_eq rfl rfl rfl rfl) (.of_uses rfl nofun nofun nofun nofun)
    · refine .keeps (.of_eq rfl rfl rfl rfl) (caught_tame hu fun hk => ?_)
      refine hs.shut_of_uses hm (i := i) ?_ (hi hk)
      rw [huses, hk]
      rfl
  cases pc with
  | head | received =>
    cases hstep
    split
    · exact .keeps (.of_eq rfl rfl rfl rfl) (.of_uses rfl nofun nofun nofun nofun)
    · exact .keeps (.of_eq rfl rfl rfl rfl)
        ⟨rfl, fun _ => rfl, fun _ => rfl, fun hu => .inl hu, nofun⟩
  | ready =>
    cases hstep
    cases (if k = .realtimeSse then s.client.stream else s.client.conn).isSome with
    | true =>
      exact .keeps (.of_eq rfl rfl rfl rfl)
        (.of_uses rfl (fun _ => rfl) (fun _ => rfl) nofun nofun)
    | false => exact .keeps (.of_eq rfl rfl rfl rfl) (.of_uses rfl nofun nofun nofun nofun)
  | recv =>
    simp only [Client.readerStep] at hstep
    split at hstep
    · rename_i hnone
      cases hstep
      refine .keeps (.of_eq rfl rfl rfl rfl) (caught_tame rfl fun hk => hs.shut ?_)
      rwa [if_neg (by rw [hk]; nofun)] at hnone
    · rename_i i hsome
      cases hstep
      refine .keeps (.of_eq rfl rfl rfl rfl)
        ⟨rfl, fun _ => rfl, fun _ => rfl, fun {j} hu => .inr ?_, nofun⟩
      change (if k = .realtimeSse then none else some i) = some j at hu
      split at hu
      · cases hu
      · rename_i hk
        rwa [if_neg hk, hu] at hsome
  | reading i =>
    cases answer with
    | yes =>
      cases hstep
      split
      · exact .keeps (.of_eq rfl rfl rfl rfl)
          ⟨rfl, fun _ => rfl, fun _ => rfl, fun hu => .inl hu, nofun⟩
      · exact .keeps (.of_eq rfl rfl rfl rfl)
          ⟨rfl, fun _ => rfl, fun _ => rfl, fun hu => .inl hu, nofun⟩
    | no =>
      simp only [Client.readerStep] at hstep
      split at hstep
      · cases hstep
      · cases hstep
        exact .keeps (.of_eq rfl rfl rfl rfl)
          (.of_uses rfl (fun _ => rfl) (fun _ => rfl) nofun nofun)
    | raised =>
      simp only [Client.readerStep] at hstep
      split at hstep
      · rename_i hclosed
        cases hstep
        -- `recv` has raised over a socket that is not open
        refine .keeps (.of_eq rfl rfl rfl rfl) (caught_tame rfl fun hk => ?_)
        subst hk
        exact hs.shut_of_uses hm rfl (hclosed.resolve_left nofun)
      · cases hstep
    | last =>
      simp only [Client.readerStep] at hstep
      split at hstep
      · rename_i hended
        cases hstep
        refine .keeps (.of_eq rfl rfl rfl rfl) (caught_tame rfl fun hk => ?_)
        rw [hended.1] at hk
        cases hk
      · cases hstep
  | handling i =>
    cases answer with
    | yes | last =>
      cases hstep
      exact .keeps (.of_eq rfl rfl rfl rfl)
        ⟨rfl, fun _ => rfl, fun _ => rfl, fun hu => .inl hu, nofun⟩
    | no =>
      cases hstep
      split
      · exact .keeps (.of_eq rfl rfl rfl rfl)
          ⟨rfl, fun _ => rfl, fun _ => rfl, fun hu => .inl hu, nofun⟩
      · exact .keeps (.of_eq rfl rfl rfl rfl)
          (.of_uses rfl (fun _ => rfl) (fun _ => rfl) nofun nofun)
    | raised =>
      cases hstep
      refine hraises hm rfl rfl fun hk => ?_
      subst hk
      simpa [Thread.orderly, Session.Opened] using hok
  | dispatching i =>
    cases answer with
    | yes | no | last =>
      cases hstep
      split
      · exact .keeps (.of_eq rfl rfl rfl rfl)
          ⟨rfl, fun _ => rfl, fun _ => rfl, fun hu => .inl hu, nofun⟩
      · exact .keeps (.of_eq rfl rfl rfl rfl)
          (.of_uses rfl (fun _ => rfl) (fun _ => rfl) nofun nofun)
    | raised =>
      cases hstep
      refine hraises hm rfl rfl fun hk => ?_
      subst hk
      simpa [Thread.orderly, Session.Opened] using hok
  | caught clean =>
    cases hstep
    split
    · exact .keeps (.of_eq rfl rfl rfl rfl) (.of_uses rfl nofun nofun nofun nofun)
    · split
      · exact .keeps (.of_eq rfl rfl rfl rfl)
          (.of_uses rfl (fun _ => rfl) (fun _ => rfl) nofun nofun)
      · refine .keeps (.of_eq rfl rfl rfl rfl)
          (.of_uses rfl (fun _ => rfl) (fun _ => rfl) nofun fun hb => .inl ?_)
        cases k with
        | webSocket => rfl
        | _ => cases hb
  | closing pc =>
    cases hstep
    obtain ⟨hk, hbare⟩ := close_cases hs pc fun hpc =>
      hs.bare hm (by rw [hpc]; rfl)
    cases hn : (s.client.close k pc).2 with
    | none =>
      rw [hn] at hbare
      exact .keeps hk (.of_uses rfl (fun _ => rfl) (fun _ => rfl) nofun
        fun _ => (hbare rfl).imp (fun hpc => by rw [hpc]; rfl) id)
    | some pc' =>
      rw [hn] at hbare
      exact .keeps hk (.of_uses rfl (fun _ => rfl) (fun _ => rfl) nofun
        fun h => (hbare h).imp (fun hpc => by rw [hpc]; rfl) id)
  | closed =>
    cases hstep
    exact .keeps (.of_eq rfl rfl rfl rfl) (.of_uses rfl nofun nofun nofun nofun)
  | dropping pc =>
    cases hstep
    -- the loop is counted out where it charges the budget
    by_cases hc : pc = .count
    · subst hc
      exact .counts
    · have heff := effect_of_drop o true answer hs drops_reader hm
        (fun h => hc h.1)
      cases hn : (s.client.drop k o gen true answer pc).2 with
      | none => rwa [hn] at heff
      | some pc' => rwa [hn] at heff
  | ended => cases hstep

theorem cancelTimer_keeps {t : ℕ} : Keeps s (s.client.cancelTimer t) := by
  unfold Client.cancelTimer
  split
  · exact .of_eq rfl rfl rfl rfl
  · refine ⟨rfl, fun h => h, .inl rfl, fun {t' timer} h hp => ?_, rfl⟩
    change (s.client.timers.modify t _)[t']? = some timer at h
    rw [List.getElem?_modify] at h
    obtain ⟨timer', ht', rfl⟩ := Option.map_eq_some_iff.mp h
    split at hp
    · cases hp
    · rename_i hne
      rw [if_neg hne]
      exact ht'

theorem effect_of_stopper (hs : Sound k s) {pc : StopPc} (hm : .stopper pc ∈ s.threads)
    {spawned : Option Thread}
    (hstep : s.client.stopperStep k pc = some (c', thread', spawned)) :
    Effect k s (.stopper pc) c' thread' spawned := by
  cases pc with
  | test =>
    cases hstep
    split <;> exact .keeps (.of_eq rfl rfl rfl rfl) (.of_uses rfl nofun nofun nofun nofun)
  | cancel =>
    simp only [Client.stopperStep] at hstep
    split at hstep
    · cases hstep
      exact .keeps (.of_eq rfl rfl rfl rfl) (.of_uses rfl nofun nofun nofun nofun)
    · cases hstep
      exact .keeps cancelTimer_keeps (.of_uses rfl nofun nofun nofun nofun)
  | stop | resetTimer | state | budget =>
    cases hstep
    exact .keeps (.of_eq rfl rfl rfl rfl) (.of_uses rfl nofun nofun nofun nofun)
  | closing pc =>
    cases hstep
    obtain ⟨hk, hbare⟩ := close_cases hs pc fun hpc =>
      hs.bare hm (by rw [hpc]; rfl)
    cases hn : (s.client.close k pc).2 with
    | none => exact .keeps hk (.of_uses rfl nofun nofun nofun nofun)
    | some pc' =>
      rw [hn] at hbare
      refine .keeps hk (.of_uses rfl nofun nofun nofun fun hb => .inr ?_)
      have hpc' : pc' = .reset := of_decide_eq_true hb
      rcases hbare (by rw [hpc']; rfl) with rfl | hshut
      · cases hn
      · exact hshut
  | ended => cases hstep

/-! ### Every step keeps the invariant -/

variable {i j : ℕ}

/-- The client after a step of thread `i`. -/
def Session.after (s : Session) (i : ℕ) (c' : Client) (thread' : Thread)
    (spawned : Option Thread) : Session :=
  { client := c', threads := s.threads.set i thread' ++ spawned.toList }

theorem after_cases {spawned : Option Thread} {x : Thread}
    (hx : (s.after i c' thread' spawned).threads[j]? = some x) :
    (j = i ∧ x = thread') ∨ (j ≠ i ∧ s.threads[j]? = some x) ∨
      (j = s.threads.length ∧ spawned = some x) := by
  simp only [Session.after, List.getElem?_append, List.length_set] at hx
  split at hx
  · rcases List.getElem?_set_cases hx with ⟨rfl, rfl⟩ | ⟨hne, hj⟩
    · exact .inl ⟨rfl, rfl⟩
    · exact .inr (.inl ⟨fun h => hne h.symm, hj⟩)
  · rename_i hj
    cases spawned with
    | none => cases hx
    | some y =>
      obtain ⟨hlt, hy⟩ := List.getElem?_eq_some_iff.mp hx
      have hlen : j - s.threads.length < 1 := hlt
      rw [← List.mem_singleton.mp (List.mem_of_getElem? hx)]
      exact .inr (.inr ⟨by omega, rfl⟩)

/-- Nobody else holds the client. -/
theorem Sound.only (hs : Sound k s) (hi : s.threads[i]? = some thread)
    (hh : thread.holds = true) {p : Holder} (hp : s.Holds p) : p = .thread i :=
  hs.single _ _ hp ⟨thread, hi, hh⟩

theorem Sound.not_pending (hs : Sound k s) (hi : s.threads[i]? = some thread)
    (hh : thread.holds = true) {t : ℕ} {timer : Timer} (ht : s.client.timers[t]? = some timer) :
    timer.state ≠ .pending :=
  fun hp => nomatch hs.only hi hh (p := .timer t) ⟨timer, ht, hp⟩

theorem Sound.not_holds (hs : Sound k s) (hi : s.threads[i]? = some thread)
    (hh : thread.holds = true) {x : Thread} (hj : s.threads[j]? = some x) (hne : j ≠ i) :
    x.holds = false := by
  by_contra hx
  rw [Bool.not_eq_false] at hx
  exact hne (Holder.thread.inj (hs.only hi hh (p := .thread j) ⟨x, hj, hx⟩))

theorem sound_keeps (hs : Sound k s) (hi : s.threads[i]? = some thread) (hk : Keeps s c')
    (ht : Tame k s c' thread thread') : Sound k (s.after i c' thread' none) := by
  have hm := List.mem_of_getElem? hi
  have hshut : s.client.Shut → c'.Shut := fun h j hj => h j (hk.opened hj)
  have hmem : ∀ {x}, x ∈ (s.after i c' thread' none).threads → x = thread' ∨ x ∈ s.threads := by
    intro x hx
    obtain ⟨j, hj⟩ := List.mem_iff_getElem?.mp hx
    rcases after_cases hj with ⟨-, h⟩ | ⟨-, h⟩ | ⟨-, h⟩
    · exact .inl h
    · exact .inr (List.mem_of_getElem? h)
    · cases h
  have hholds : ∀ {p}, (s.after i c' thread' none).Holds p → s.Holds p := by
    rintro (j | t) ⟨x, hx, hp⟩
    · rcases after_cases hx with ⟨rfl, rfl⟩ | ⟨-, h⟩ | ⟨-, h⟩
      · exact ⟨thread, hi, ht.holds hp⟩
      · exact ⟨x, h, hp⟩
      · cases h
    · exact ⟨x, hk.timers hx hp, hp⟩
  refine
    { single := fun _ _ h h' => hs.single _ _ (hholds h) (hholds h')
      newest := fun {j} hj => ?_, attached := fun {j} hj => ?_, bare := fun {x} hx hb => ?_
      waiting := fun {timer} htimer hp => ?_, gen := fun {x} hx hh => ?_
      uses := fun {x j} hx hu => ?_, fresh := fun {x} hx hu => ?_, spent_le := fun {g} hg => ?_
      nodup := ?_ }
  · show j + 1 = c'.sockets.length
    rw [hk.length]
    rcases hk.conn with hc | ⟨hc, -⟩
    · exact hs.newest (hc.symm.trans hj)
    · rw [show c'.conn = some j from hj] at hc
      cases hc
  · rcases hk.conn with hc | ⟨-, hsh⟩
    · exact hc.trans (hs.attached (hk.opened hj))
    · exact absurd (hk.opened hj) (hsh j)
  · rcases hmem hx with rfl | hx
    · rcases ht.bare hb with hb | hsh
      · exact hshut (hs.bare hm hb)
      · exact hsh
    · exact hshut (hs.bare hx hb)
  · obtain ⟨t, htimer⟩ := List.mem_iff_getElem?.mp htimer
    obtain ⟨hgen, hsh⟩ := hs.waiting (List.mem_of_getElem? (hk.timers htimer hp)) hp
    exact ⟨hgen.trans hk.length.symm, hshut hsh⟩
  · rcases hmem hx with rfl | hx
    · exact (ht.gen.trans (hs.gen hm (ht.holds hh))).trans hk.length.symm
    · exact (hs.gen hx hh).trans hk.length.symm
  · show j + 1 = c'.sockets.length
    rw [hk.length]
    rcases hmem hx with rfl | hx
    · rcases ht.uses hu with hu | hc
      · exact hs.uses hm hu
      · exact hs.newest hc
    · exact hs.uses hx hu
  · show x.gen ∉ c'.spent
    rw [hk.spent]
    rcases hmem hx with rfl | hx
    · rw [ht.gen]
      exact hs.fresh hm (ht.uncounted hu)
    · exact hs.fresh hx hu
  · show g ≤ c'.sockets.length
    rw [hk.length]
    exact hs.spent_le (hk.spent ▸ hg)
  · show c'.spent.Nodup
    rw [hk.spent]
    exact hs.nodup

theorem sound_begins (hs : Sound k s) (hi : s.threads[i]? = some (.dial false gen .check))
    (hq : s.quiet = true) :
    Sound k (s.after i s.client (.dial false s.client.sockets.length .mark) none) := by
  have hcases : ∀ {x}, x ∈ (s.after i s.client (.dial false s.client.sockets.length .mark)
      none).threads → x = .dial false s.client.sockets.length .mark ∨ x ∈ s.threads := by
    intro x hx
    obtain ⟨j, hj⟩ := List.mem_iff_getElem?.mp hx
    rcases after_cases hj with ⟨-, h⟩ | ⟨-, h⟩ | ⟨-, h⟩
    · exact .inl h
    · exact .inr (List.mem_of_getElem? h)
    · cases h
  have honly : ∀ {p}, (s.after i s.client (.dial false s.client.sockets.length .mark)
      none).Holds p → p = .thread i := by
    rintro (j | t) ⟨x, hx, hp⟩
    · rcases after_cases hx with ⟨rfl, -⟩ | ⟨-, h⟩ | ⟨-, h⟩
      · rfl
      · exact absurd ⟨x, h, hp⟩ (quiet_holds hq (.thread j))
      · cases h
    · exact absurd ⟨x, hx, hp⟩ (quiet_holds hq (.timer t))
  refine
    { hs with
      single := fun _ _ h h' => (honly h).trans (honly h').symm
      bare := fun {x} hx hb => ?_, gen := fun {x} hx hh => ?_, uses := fun {x j} hx hu => ?_
      fresh := fun {x} hx hu => ?_ }
  · exact quiet_shut (s := s) hq
  · rcases hcases hx with rfl | hx
    · rfl
    · exact hs.gen hx hh
  · rcases hcases hx with rfl | hx
    · cases hu
    · exact hs.uses hx hu
  · rcases hcases hx with rfl | hx
    · cases hu
    · exact hs.fresh hx hu

theorem sound_opens (hs : Sound k s) {redial : Bool} {pc : DialPc}
    (hi : s.threads[i]? = some (.dial redial gen .dialing))
    (hstop : .stopper (.closing .reset) ∉ s.threads) (hpc : pc = .opened ∨ pc = .connected) :
    Sound k (s.after i
      { s.client with
        conn := some s.client.sockets.length
        sockets := s.client.sockets ++ [true] }
      (.dial redial (s.client.sockets.length + 1) pc) none) := by
  set s' := s.after i
      { s.client with
        conn := some s.client.sockets.length
        sockets := s.client.sockets ++ [true] }
      (.dial redial (s.client.sockets.length + 1) pc) none with hs'
  have hlen : s'.client.sockets.length = s.client.sockets.length + 1 := List.length_append
  -- what holds the client, or claims that no socket is open, is the dial itself
  have hcases : ∀ {j x}, s'.threads[j]? = some x →
      (j = i ∧ x = .dial redial (s.client.sockets.length + 1) pc) ∨
        (s.threads[j]? = some x ∧ x.holds = false) := by
    intro j x hx
    rcases after_cases hx with h | ⟨hne, h⟩ | ⟨-, h⟩
    · exact .inl h
    · exact .inr ⟨h, hs.not_holds hi rfl h hne⟩
    · cases h
  have hnew : (Thread.dial redial (s.client.sockets.length + 1) pc).bare k = false := by
    rcases hpc with rfl | rfl <;> rfl
  have honly : ∀ {p}, s'.Holds p → p = .thread i := by
    rintro (j | t) ⟨x, hx, hp⟩
    · rcases hcases hx with ⟨rfl, -⟩ | ⟨-, hh⟩
      · rfl
      · rw [hh] at hp
        cases hp
    · exact absurd hp (hs.not_pending hi rfl hx)
  have hmem : ∀ {x}, x ∈ s'.threads → x = .dial redial (s.client.sockets.length + 1) pc ∨
      (x ∈ s.threads ∧ x.holds = false) := by
    intro x hx
    obtain ⟨j, hj⟩ := List.mem_iff_getElem?.mp hx
    rcases hcases hj with ⟨-, h⟩ | ⟨h, hh⟩
    · exact .inl h
    · exact .inr ⟨List.mem_of_getElem? h, hh⟩
  refine
    { single := fun _ _ h h' => (honly h).trans (honly h').symm
      newest := fun {j} hj => ?_, attached := fun {j} hj => ?_, bare := fun {x} hx hb => ?_
      waiting := fun {timer} htimer hp => ?_, gen := fun {x} hx hh => ?_
      uses := fun {x j} hx hu => ?_, fresh := fun {x} hx hu => ?_, spent_le := fun {g} hg => ?_
      nodup := hs.nodup }
  · rw [hlen, Option.some_inj.mp (show some s.client.sockets.length = some j from hj)]
  · change (s.client.sockets ++ [true])[j]? = some true at hj
    rw [List.getElem?_append] at hj
    split at hj
    · exact absurd hj (hs.bare (List.mem_of_getElem? hi) rfl j)
    · have := (List.getElem?_eq_some_iff.mp hj).1
      rw [List.length_singleton] at this
      have hj : j = s.client.sockets.length := by omega
      rw [hj]
      rfl
  · rcases hmem hx with rfl | ⟨hx, hh⟩
    · rw [hnew] at hb
      cases hb
    · rcases Thread.holds_of_bare hb with h | rfl
      · rw [hh] at h
        cases h
      · exact absurd hx hstop
  · obtain ⟨t, ht⟩ := List.mem_iff_getElem?.mp htimer
    exact absurd hp (hs.not_pending hi rfl ht)
  · rcases hmem hx with rfl | ⟨-, h⟩
    · exact hlen.symm
    · rw [hh] at h
      cases h
  · rcases hmem hx with rfl | ⟨-, h⟩
    · cases hu
    · rw [Thread.holds_of_uses hu] at h
      cases h
  · rcases hmem hx with rfl | ⟨-, h⟩
    · intro hg
      have := hs.spent_le hg
      change s.client.sockets.length + 1 ≤ s.client.sockets.length at this
      omega
    · rw [Thread.holds_of_uncounted hu] at h
      cases h
  · have := hs.spent_le (g := g) hg
    omega

/-- The dial hands over to the loop that it starts. -/
theorem sound_starts (hs : Sound k s) {redial : Bool}
    (hi : s.threads[i]? = some (.dial redial gen .start)) :
    Sound k (s.after i s.client (.dial redial gen .started)
      (some (.reader gen false k.loop))) := by
  set s' := s.after i s.client (.dial redial gen .started) (some (.reader gen false k.loop))
    with hs'
  have hm := List.mem_of_getElem? hi
  have hcases : ∀ {j x}, s'.threads[j]? = some x →
      (j = s.threads.length ∧ x = .reader gen false k.loop) ∨ x.holds = false := by
    intro j x hx
    rcases after_cases hx with ⟨-, rfl⟩ | ⟨hne, h⟩ | ⟨hj, h⟩
    · exact .inr rfl
    · exact .inr (hs.not_holds hi rfl h hne)
    · exact .inl ⟨hj, (Option.some_inj.mp h).symm⟩
  have honly : ∀ {p}, s'.Holds p → p = .thread s.threads.length := by
    rintro (j | t) ⟨x, hx, hp⟩
    · rcases hcases hx with ⟨rfl, -⟩ | hh
      · rfl
      · rw [hh] at hp
        cases hp
    · exact absurd hp (hs.not_pending hi rfl hx)
  have hmem : ∀ {x}, x ∈ s'.threads → x = .reader gen false k.loop ∨ x.holds = false := by
    intro x hx
    obtain ⟨j, hj⟩ := List.mem_iff_getElem?.mp hx
    exact (hcases hj).imp (fun h => h.2) id
  have hgen : gen = s.client.sockets.length := hs.gen hm rfl
  have hfresh : gen ∉ s.client.spent := hs.fresh hm rfl
  have hloop : k.loop = .ready ∨ k.loop = .head := by
    unfold Kind.loop
    split
    · exact .inl rfl
    · exact .inr rfl
  refine
    { hs with
      single := fun _ _ h h' => (honly h).trans (honly h').symm
      bare := fun {x} hx hb => ?_, gen := fun {x} hx hh => ?_, uses := fun {x j} hx hu => ?_
      fresh := fun {x} hx hu => ?_ }
  · rcases Thread.holds_of_bare hb with h | rfl
    · rcases hmem hx with rfl | hh
      · rcases hloop with hl | hl <;> rw [hl] at hb <;> cases hb
      · rw [hh] at h
        cases h
    · obtain ⟨j, hj⟩ := List.mem_iff_getElem?.mp hx
      rcases after_cases hj with ⟨-, h⟩ | ⟨-, h⟩ | ⟨-, h⟩
      · cases h
      · exact hs.bare (List.mem_of_getElem? h) hb
      · cases h
  · rcases hmem hx with rfl | h
    · exact hgen
    · rw [hh] at h
      cases h
  · rcases hmem hx with rfl | h
    · rcases hloop with hl | hl <;> rw [hl] at hu <;> cases hu
    · rw [Thread.holds_of_uses hu] at h
      cases h
  · rcases hmem hx with rfl | h
    · exact hfresh
    · rw [Thread.holds_of_uncounted hu] at h
      cases h

theorem sound_counts (hs : Sound k s) {n : ℕ} {finished : Bool}
    (hi : s.threads[i]? = some (.reader gen finished (.dropping .count))) :
    Sound k (s.after i
      { s.client with reconnectAttempts := n, spent := gen :: s.client.spent }
      (.reader gen finished (.dropping .arm)) none) := by
  set s' := s.after i
      { s.client with reconnectAttempts := n, spent := gen :: s.client.spent }
      (.reader gen finished (.dropping .arm)) none with hs'
  have hm := List.mem_of_getElem? hi
  have hcases : ∀ {j x}, s'.threads[j]? = some x →
      (j = i ∧ x = .reader gen finished (.dropping .arm)) ∨
        (x ∈ s.threads ∧ x.holds = false) := by
    intro j x hx
    rcases after_cases hx with h | ⟨hne, h⟩ | ⟨-, h⟩
    · exact .inl h
    · exact .inr ⟨List.mem_of_getElem? h, hs.not_holds hi rfl h hne⟩
    · cases h
  have honly : ∀ {p}, s'.Holds p → p = .thread i := by
    rintro (j | t) ⟨x, hx, hp⟩
    · rcases hcases hx with ⟨rfl, -⟩ | ⟨-, hh⟩
      · rfl
      · rw [hh] at hp
        cases hp
    · exact absurd hp (hs.not_pending hi rfl hx)
  have hmem : ∀ {x}, x ∈ s'.threads → x = .reader gen finished (.dropping .arm) ∨
      (x ∈ s.threads ∧ x.holds = false) := by
    intro x hx
    obtain ⟨j, hj⟩ := List.mem_iff_getElem?.mp hx
    exact (hcases hj).imp (fun h => h.2) id
  have hgen : gen = s.client.sockets.length := hs.gen hm rfl
  refine
    { hs with
      single := fun _ _ h h' => (honly h).trans (honly h').symm
      bare := fun _ _ => hs.bare hm rfl, gen := fun {x} hx hh => ?_
      uses := fun {x j} hx hu => ?_, fresh := fun {x} hx hu => ?_, spent_le := fun {g} hg => ?_
      nodup := List.nodup_cons.mpr ⟨hs.fresh hm rfl, hs.nodup⟩ }
  · rcases hmem hx with rfl | ⟨-, h⟩
    · exact hgen
    · rw [hh] at h
      cases h
  · rcases hmem hx with rfl | ⟨-, h⟩
    · cases hu
    · rw [Thread.holds_of_uses hu] at h
      cases h
  · rcases hmem hx with rfl | ⟨-, h⟩
    · cases hu
    · rw [Thread.holds_of_uncounted hu] at h
      cases h
  · rcases List.mem_cons.mp hg with rfl | hg
    · exact hgen.le
    · exact hs.spent_le hg

/-- The thread hands over to the timer that it sets. -/
theorem sound_launches (hs : Sound k s) {t : ℕ} (hi : s.threads[i]? = some thread)
    (hh : thread.holds = true) (hh' : thread'.holds = false) (hb : thread.bare k = true)
    (hb' : thread'.bare k = false) :
    Sound k (s.after i
      { s.client with timers := s.client.timers.set t { state := .pending, gen := thread.gen } }
      thread' none) := by
  set s' := s.after i
      { s.client with timers := s.client.timers.set t { state := .pending, gen := thread.gen } }
      thread' none with hs'
  have hm := List.mem_of_getElem? hi
  have hcases : ∀ {j : ℕ} {x : Thread}, s'.threads[j]? = some x → x.holds = false := by
    intro j x hx
    rcases after_cases hx with ⟨-, rfl⟩ | ⟨hne, h⟩ | ⟨-, h⟩
    · exact hh'
    · exact hs.not_holds hi hh h hne
    · cases h
  have hmem : ∀ {x : Thread}, x ∈ s'.threads → x.holds = false := by
    intro x hx
    obtain ⟨j, hj⟩ := List.mem_iff_getElem?.mp hx
    exact hcases hj
  have hpending : ∀ {t' : ℕ} {timer : Timer}, s'.client.timers[t']? = some timer →
      timer.state = .pending →
      t = t' ∧ timer = { state := .pending, gen := thread.gen } := by
    intro t' timer ht hp
    rcases List.getElem?_set_cases ht with h | ⟨-, h⟩
    · exact h
    · exact absurd hp (hs.not_pending hi hh h)
  have honly : ∀ {p}, s'.Holds p → p = .timer t := by
    rintro (j | t') ⟨x, hx, hp⟩
    · rw [hcases hx] at hp
      cases hp
    · rw [(hpending hx hp).1]
  refine
    { hs with
      single := fun _ _ h h' => (honly h).trans (honly h').symm
      bare := fun _ _ => hs.bare hm hb, waiting := fun {timer} htimer hp => ?_
      gen := fun {x} hx hx' => ?_, uses := fun {x j} hx hu => ?_, fresh := fun {x} hx hu => ?_ }
  · obtain ⟨t', ht⟩ := List.mem_iff_getElem?.mp htimer
    obtain ⟨-, rfl⟩ := hpending ht hp
    exact ⟨hs.gen hm hh, hs.bare hm hb⟩
  · rw [hmem hx] at hx'
    cases hx'
  · have := hmem hx
    rw [Thread.holds_of_uses hu] at this
    cases this
  · have := hmem hx
    rw [Thread.holds_of_uncounted hu] at this
    cases this

theorem sound_of_effect (hs : Sound k s) (hi : s.threads[i]? = some thread)
    {spawned : Option Thread} (h : Effect k s thread c' thread' spawned) :
    Sound k (s.after i c' thread' spawned) := by
  cases h with
  | keeps hk ht => exact sound_keeps hs hi hk ht
  | begins hq => exact sound_begins hs hi hq
  | opens hstop hpc => exact sound_opens hs hi hstop hpc
  | starts => exact sound_starts hs hi
  | counts => exact sound_counts hs hi
  | launches hh _ _ hh' hb hb' => exact sound_launches hs hi hh hh' hb hb'

/-- The application calls: the new thread holds nothing yet. -/
theorem sound_calls (hs : Sound k s) {x : Thread} (hh : x.holds = false)
    (hb : x.bare k = false) : Sound k { s with threads := s.threads ++ [x] } := by
  have hmem : ∀ {y}, y ∈ s.threads ++ [x] → y ∈ s.threads ∨ y = x := by
    intro y hy
    rcases List.mem_append.mp hy with hy | hy
    · exact .inl hy
    · exact .inr (List.mem_singleton.mp hy)
  have hholds : ∀ {p}, Session.Holds { s with threads := s.threads ++ [x] } p → s.Holds p := by
    rintro (j | t) ⟨y, hy, hp⟩
    · change (s.threads ++ [x])[j]? = some y at hy
      rw [List.getElem?_append] at hy
      split at hy
      · exact ⟨y, hy, hp⟩
      · rw [List.mem_singleton.mp (List.mem_of_getElem? hy), hh] at hp
        cases hp
    · exact ⟨y, hy, hp⟩
  refine
    { hs with
      single := fun _ _ h h' => hs.single _ _ (hholds h) (hholds h')
      bare := fun {y} hy hy' => ?_, gen := fun {y} hy hy' => ?_
      uses := fun {y j} hy hu => ?_, fresh := fun {y} hy hu => ?_ }
  · rcases hmem hy with hy | rfl
    · exact hs.bare hy hy'
    · rw [hb] at hy'
      cases hy'
  · rcases hmem hy with hy | rfl
    · exact hs.gen hy hy'
    · rw [hh] at hy'
      cases hy'
  · rcases hmem hy with hy | rfl
    · exact hs.uses hy hu
    · rw [Thread.holds_of_uses hu] at hh
      cases hh
  · rcases hmem hy with hy | rfl
    · exact hs.fresh hy hu
    · rw [Thread.holds_of_uncounted hu] at hh
      cases hh

/-- The timer hands over to the dial that it runs. -/
theorem sound_fires (hs : Sound k s) {t : ℕ} {timer : Timer}
    (ht : s.client.timers[t]? = some timer) (hp : timer.state = .pending) :
    Sound k
      { client := { s.client with timers := s.client.timers.set t { timer with state := .fired } }
        threads := s.threads ++ [.dial true timer.gen k.redial] } := by
  set s' : Session :=
      { client := { s.client with timers := s.client.timers.set t { timer with state := .fired } }
        threads := s.threads ++ [.dial true timer.gen k.redial] } with hs'
  have hnobody : ∀ {y}, y ∈ s.threads → y.holds = false := by
    intro y hy
    obtain ⟨j, hj⟩ := List.mem_iff_getElem?.mp hy
    by_contra hh
    rw [Bool.not_eq_false] at hh
    exact hs.not_pending hj hh ht hp
  have hnone : ∀ {t' : ℕ} {timer' : Timer}, s'.client.timers[t']? = some timer' →
      timer'.state ≠ .pending := by
    intro t' timer' ht' hp'
    rcases List.getElem?_set_cases ht' with ⟨-, rfl⟩ | ⟨hne, h⟩
    · cases hp'
    · exact hne (Holder.timer.inj (hs.single (.timer t) (.timer t') ⟨timer, ht, hp⟩
        ⟨timer', h, hp'⟩))
  have honly : ∀ {p}, s'.Holds p → p = .thread s.threads.length := by
    rintro (j | t') ⟨y, hy, hh⟩
    · change (s.threads ++ [_])[j]? = some y at hy
      rw [List.getElem?_append] at hy
      split at hy
      · rw [hnobody (List.mem_of_getElem? hy)] at hh
        cases hh
      · have := (List.getElem?_eq_some_iff.mp hy).1
        rw [List.length_singleton] at this
        have hj : j = s.threads.length := by omega
        rw [hj]
    · exact absurd hh (hnone hy)
  have hmem : ∀ {y}, y ∈ s'.threads → y ∈ s.threads ∨ y = .dial true timer.gen k.redial := by
    intro y hy
    rcases List.mem_append.mp hy with hy | hy
    · exact .inl hy
    · exact .inr (List.mem_singleton.mp hy)
  have hredial : k.redial = .dialing ∨ k.redial = .check := by
    unfold Kind.redial
    split
    · exact .inl rfl
    · exact .inr rfl
  obtain ⟨hgen, hshut⟩ := hs.waiting (List.mem_of_getElem? ht) hp
  refine
    { hs with
      single := fun _ _ h h' => (honly h).trans (honly h').symm
      bare := fun _ _ => hshut, waiting := fun {timer'} htimer hp' => ?_
      gen := fun {y} hy hy' => ?_, uses := fun {y j} hy hu => ?_, fresh := fun {y} hy hu => ?_ }
  · obtain ⟨t', ht'⟩ := List.mem_iff_getElem?.mp htimer
    exact absurd hp' (hnone ht')
  · rcases hmem hy with hy | rfl
    · exact hs.gen hy hy'
    · exact hgen
  · rcases hmem hy with hy | rfl
    · exact hs.uses hy hu
    · cases hu
  · rcases hmem hy with hy | rfl
    · exact hs.fresh hy hu
    · rcases hredial with hr | hr <;> rw [hr] at hu <;> cases hu

theorem sound_drops (hs : Sound k s) {n : ℕ} :
    Sound k { s with client := { s.client with sockets := s.client.sockets.set n false } } := by
  have hlen : (s.client.sockets.set n false).length = s.client.sockets.length :=
    List.length_set
  have hopened : ∀ {j : ℕ}, (s.client.sockets.set n false)[j]? = some true → s.Opened j := by
    intro j hj
    rcases List.getElem?_set_cases hj with ⟨-, h⟩ | ⟨-, h⟩
    · cases h
    · exact h
  refine
    { single := fun _ _ h h' => hs.single _ _ h h'
      newest := fun h => (hs.newest h).trans hlen.symm
      attached := fun h => hs.attached (hopened h)
      bare := fun hx hb j hj => hs.bare hx hb j (hopened hj)
      waiting := fun ht hp =>
        ⟨(hs.waiting ht hp).1.trans hlen.symm, fun j hj => (hs.waiting ht hp).2 j (hopened hj)⟩
      gen := fun hx hh => (hs.gen hx hh).trans hlen.symm
      uses := fun hx hu => (hs.uses hx hu).trans hlen.symm
      fresh := hs.fresh
      spent_le := fun hg => (hs.spent_le hg).trans hlen.symm.le
      nodup := hs.nodup }

theorem sound_step (hs : Sound k s) {a : Action} (hok : Orderly k s a = true)
    (hstep : s.step k o a = some s') : Sound k s' := by
  cases a with
  | connect | disconnect =>
    cases hstep
    exact sound_calls hs rfl rfl
  | fire t =>
    obtain ⟨timer, ht, hstep⟩ := Option.bind_eq_some_iff.mp hstep
    split at hstep
    · rename_i hp
      cases hstep
      exact sound_fires hs ht hp
    · cases hstep
  | drop n =>
    cases hstep
    exact sound_drops hs
  | go i answer =>
    obtain ⟨thread, hi, hstep⟩ := Option.bind_eq_some_iff.mp hstep
    obtain ⟨⟨c', thread', spawned⟩, hthread, rfl⟩ := Option.map_eq_some_iff.mp hstep
    have hm := List.mem_of_getElem? hi
    have hfits : thread.orderly k s answer = true := by
      simpa only [Orderly, hi, Option.all_some] using hok
    refine sound_of_effect hs hi ?_
    cases thread with
    | dial redial gen pc => exact effect_of_dial hs hm hfits hthread
    | reader gen finished pc => exact effect_of_reader hs hm hfits hthread
    | stopper pc => exact effect_of_stopper hs hm hthread

theorem sound_init : Sound k (system k o).init where
  single := by
    rintro (i | t) h' ⟨x, hx, -⟩ -
    · cases hx
    · cases hx
  newest := nofun
  attached := nofun
  bare := nofun
  waiting := nofun
  gen := nofun
  uses := nofun
  fresh := nofun
  spent_le := nofun
  nodup := List.nodup_nil

theorem sound_of_reachable (h : (system k o).Reachable (fun s a => Orderly k s a = true) s) :
    Sound k s :=
  h.invariant (P := Sound k) sound_init fun _ _ _ hs hok hstep => sound_step hs hok hstep

/-! ### The law -/

theorem oneConnection_of_sound (hs : Sound k s) : s.OneConnection where
  socket i j hi hj := Option.some_inj.mp ((hs.attached hi).symm.trans (hs.attached hj))
  loop i j gen gen' finished finished' pc pc' hi hj hpc hpc' :=
    Holder.thread.inj (hs.single (.thread i) (.thread j)
      ⟨_, hi, decide_eq_true hpc⟩ ⟨_, hj, decide_eq_true hpc'⟩)
  timer i j timer timer' hi hj hp hp' :=
    Holder.timer.inj (hs.single (.timer i) (.timer j) ⟨_, hi, hp⟩ ⟨_, hj, hp'⟩)
  loop_newest gen finished pc hm hpc := hs.gen hm (decide_eq_true hpc)
  timer_newest timer hm hp := (hs.waiting hm hp).1
  redial_newest gen pc hm hpc := by
    refine hs.gen hm ?_
    cases pc <;> first | rfl | cases hpc
  charged_once := hs.nodup

/-- **One live connection per client.**  In every run in which `connect()` comes to a client at
rest, and neither a late exception nor a `disconnect()` gets between a dial and its connection,
there is one of everything at most, it belongs to the newest connection, and each drop is
charged once. -/
theorem one_connection (k : Kind) (o : Options)
    (h : (system k o).Reachable (fun s a => Orderly k s a = true) s) : s.OneConnection :=
  oneConnection_of_sound (sound_of_reachable h)

/-- Thread `i` goes on `n` times. -/
def Action.goes (i n : ℕ) : List Action := List.replicate n (.go i .yes)

/-- `connect()` as thread 0, an event for its loop, a drop, and the timer that this sets. -/
def Action.dropped : List Action :=
  .connect :: Action.goes 0 7 ++ Action.goes 1 6 ++ .drop 0 :: Action.goes 1 3 ++
    .go 1 .raised :: Action.goes 1 8

theorem one_connection_sample : ∃ s : Session, s.OneConnection ∧
    s.client.sockets = [false, true] ∧ s.client.spent = [1] ∧ s.client.state = .connected := by
  have hrun : ((system .webSocket {}).runIf (fun s a => Orderly .webSocket s a = true)
      (system .webSocket {}).init
      (Action.dropped ++ .fire 0 :: Action.goes 2 5)).any
      (fun s => s.client.sockets = [false, true] && s.client.spent = [1] &&
        s.client.state = .connected) = true := by decide
  obtain ⟨s, hs, hp⟩ := System.exists_of_runIf hrun
  simp only [Bool.and_eq_true, decide_eq_true_eq] at hp
  exact ⟨s, one_connection .webSocket {} hs, hp.1.1, hp.1.2, hp.2⟩

/-- A `connect()` during RECONNECTING leaves the timer pending, and both of them dial. -/
theorem second_socket_opened : ¬ ∀ (k : Kind) (o : Options) (s : Session),
    (system k o).Reachable System.always s → s.OneConnection := by
  intro hall
  have hrun : ((system .webSocket {}).run (system .webSocket {}).init
      (Action.dropped ++ .connect :: Action.goes 2 3 ++ .fire 0 :: Action.goes 3 1)).any
      (fun s => s.client.sockets = [false, true, true]) = true := by decide
  obtain ⟨s, hs, hp⟩ := System.exists_of_run hrun
  have hopen : s.client.sockets = [false, true, true] := of_decide_eq_true hp
  have := (hall .webSocket {} s hs).socket 1 2 (by rw [Session.Opened, hopen]; rfl)
    (by rw [Session.Opened, hopen]; rfl)
  cases this

end SpooledSdk.Realtime.Threads
