/-
`disconnect()` and `close()` are final.

* `disconnect_final` — once such a call of any client has returned, the client stays silent until
  the application asks again, in the runs that leave the call undisturbed;
* `dialed_after_disconnect` — a dial that is in progress during the call connects the client after
  it.
-/
import SpooledSdk.Realtime.Consumers
import SpooledSdk.Realtime.ThreadStops
import SpooledSdk.Realtime.SseStops
import SpooledSdk.Realtime.Tasks

namespace SpooledSdk.Realtime

/-! ### The generators of `SpooledRealtime` -/

namespace Consumers

open Threads (Session)

/-- The generator is advanced for the first time, and calls `connect()`. -/
def begins (s : SpooledRealtime) (j : ℕ) : Bool :=
  s.consumers[j]? = some .test && s.session.client.state ≠ .connected

/-- No generator is about to take an event. -/
def Drained (s : SpooledRealtime) : Prop :=
  .getting ∈ s.consumers → s.queue.getD 0 = 0

instance (s : SpooledRealtime) : Decidable (Drained s) := inferInstanceAs (Decidable (_ → _))

/-- The threads are undisturbed; besides, no `_give_up` delivers its error once the flag is set,
and `disconnect()` returns when no generator is about to take an event. -/
def Undisturbed (k : Threads.Kind) (o : Threads.Options) (s : SpooledRealtime) : Action → Bool
  | .client a =>
    Threads.Undisturbed k o s.session a &&
      match a with
      | .go i answer =>
        match s.session.threads[i]? with
        | some (.dial _ _ (.dropping .giveUp)) => !s.session.client.stopEvent || answer ≠ .yes
        | some (.stopper .budget) => decide (Drained s)
        | _ => true
      | _ => true
  | .consume j => !begins s j || Threads.Undisturbed k o s.session .connect
  | .events | .abandon _ => true

/-- The step by which a `disconnect()` returns. -/
def Returns (s : SpooledRealtime) : Action → Prop
  | .client a => Threads.Returns s.session a
  | _ => False

/-- The application calls `connect()`, or advances a generator that calls it. -/
def Asks (s : SpooledRealtime) : Action → Prop
  | .client a => Threads.Asks s.session a
  | .consume j => begins s j = true
  | _ => False

/-- The client is silent, and no generator is about to take an event. -/
structure Silent (s₀ s : SpooledRealtime) : Prop where
  session : Threads.Silent s₀.session s.session
  drained : Drained s

/-- A client at rest whose generators have nothing to take. -/
structure Resting (s₀ s : SpooledRealtime) : Prop where
  session : Threads.Resting s₀.session s.session
  drained : Drained s

variable {k : Threads.Kind} {o : Threads.Options} {s₀ s s' : SpooledRealtime}

theorem resumed_eq_getting {threads threads' : List Threads.Thread} {c : Consumer}
    (h : resumed threads threads' c = .getting) : c = .getting := by
  cases c with
  | connecting i =>
    simp only [resumed] at h
    split at h <;> cases h
  | test | head | getting | yielded | ended => exact h

/-- A step of a thread that delivers nothing leaves the generators what they have. -/
theorem Drained.client (h : Drained s) {a : Threads.Action} {session : Session}
    (hnone : dispatches k s.session session a = false) :
    Drained
      { session
        queue := if dispatches k s.session session a then put s.queue else s.queue
        consumers := s.consumers.map (resumed s.session.threads session.threads) } := by
  intro hmem
  obtain ⟨c, hc, hgetting⟩ := List.mem_map.mp hmem
  rw [hnone]
  exact h (resumed_eq_getting hgetting ▸ hc)

theorem dispatches_eq_false {s s' : Session} {a : Threads.Action}
    (hsame : s'.client.delivered = s.client.delivered)
    (hgive : ∀ i redial gen, a = .go i .yes →
      s.threads[i]? ≠ some (.dial redial gen (.dropping .giveUp))) :
    dispatches k s s' a = false := by
  cases a with
  | go i answer =>
    simp only [dispatches, hsame, lt_irrefl, decide_false, Bool.false_or]
    split
    · rename_i redial gen hi
      have hno : answer ≠ .yes := fun hyes => hgive i redial gen (by rw [hyes]) hi
      rw [decide_eq_false hno, Bool.and_false]
    · rfl
  | connect | disconnect | fire | drop => rfl

theorem returning_of_step (h : Threads.Returning s.session) {a : Action}
    (hok : Undisturbed k o s a = true) (hstep : step k o s a = some s') :
    Threads.Returning s'.session := by
  cases a with
  | client a =>
    obtain ⟨session, hsession, rfl⟩ := Option.map_eq_some_iff.mp hstep
    exact Threads.returning_step h (Bool.and_eq_true_iff.mp hok).1 hsession
  | events | abandon =>
    cases hstep
    exact h
  | consume j =>
    obtain ⟨c, hj, hstep⟩ := Option.bind_eq_some_iff.mp hstep
    cases c with
    | test =>
      dsimp only at hstep
      split at hstep
      · cases hstep
        exact h
      · rename_i hstate
        cases hstep
        -- it calls `connect()`, as undisturbed as one of the application
        have hbegins : begins s j = true := by
          simp only [begins, hj, hstate, decide_true, ne_eq, not_false_eq_true, Bool.and_self]
        simp only [Undisturbed, hbegins, Bool.not_true, Bool.false_or] at hok
        exact Threads.returning_step h hok rfl
    | getting =>
      dsimp only at hstep
      split at hstep <;> (cases hstep; exact h)
    | head | yielded =>
      cases hstep
      exact h
    | connecting | ended => cases hstep

theorem returning_of_reachable {transport : Transport}
    (h : (system transport o).Reachable (fun s a => Undisturbed transport.kind o s a = true) s) :
    Threads.Returning s.session := by
  have hstart : Threads.Returning (system transport o).init.session := by
    refine Threads.returning_of_none fun pc hmem => ?_
    cases (hmem : Threads.Thread.stopper pc ∈ [])
  exact h.invariant (P := fun t => Threads.Returning t.session) hstart
    fun _ _ _ ht hok hstep => returning_of_step ht hok hstep

/-- Generators at other places than before, none of which takes an event. -/
theorem Drained.of_consumers (h : Drained s) (hqueue : s'.queue.getD 0 = s.queue.getD 0)
    (hmem : .getting ∈ s'.consumers → .getting ∈ s.consumers) : Drained s' := fun hgetting => by
  rw [hqueue]
  exact h (hmem hgetting)

theorem getting_of_mem_set {j : ℕ} {c : Consumer} (hc : c ≠ .getting)
    (h : .getting ∈ s.consumers.set j c) : .getting ∈ s.consumers :=
  (List.mem_or_eq_of_mem_set h).resolve_right (Ne.symm hc)

theorem resting_step (h : Resting s₀ s) {a : Action} (hok : Undisturbed k o s a = true)
    (hasks : ¬ Asks s a) (hstep : step k o s a = some s') : Resting s₀ s' := by
  have hflag := h.session.stopped.stopEvent
  cases a with
  | client a =>
    obtain ⟨session, hsession, rfl⟩ := Option.map_eq_some_iff.mp hstep
    obtain ⟨hundisturbed, hgives⟩ := Bool.and_eq_true_iff.mp hok
    have hrests := Threads.rests_of_step h.session.stopped hundisturbed hasks hsession
    refine ⟨h.session.rests hrests, h.drained.client (dispatches_eq_false ?_ ?_)⟩
    · exact (hrests.idle h.session.idle).2
    · rintro i redial gen rfl hi
      simp only [hi, hflag, Bool.not_true, Bool.false_or, ne_eq, not_true_eq_false,
        decide_false] at hgives
      cases hgives
  | events =>
    cases hstep
    -- a new generator has not looked at the state yet
    refine ⟨h.session, h.drained.of_consumers rfl fun hmem => ?_⟩
    rcases List.mem_append.mp hmem with hold | hnew
    · exact hold
    · cases List.mem_singleton.mp hnew
  | abandon j =>
    cases hstep
    refine ⟨h.session, h.drained.of_consumers rfl fun hmem => ?_⟩
    obtain ⟨n, hn⟩ := List.mem_iff_getElem?.mp hmem
    simp only [List.getElem?_modify] at hn
    obtain ⟨c, hc, heq⟩ := Option.map_eq_some_iff.mp hn
    split at heq
    · cases c with
      | getting => exact List.mem_of_getElem? hc
      | test | connecting | head | yielded | ended => cases heq
    · subst heq
      exact List.mem_of_getElem? hc
  | consume j =>
    obtain ⟨c, hj, hstep⟩ := Option.bind_eq_some_iff.mp hstep
    cases c with
    | test =>
      -- the client is not connected, so the generator would call `connect()`
      refine absurd ?_ hasks
      show begins s j = true
      simp only [begins, hj, h.session.silent.state, decide_true, ne_eq, not_false_eq_true,
        Bool.and_self]
    | head =>
      cases hstep
      -- the flag is set and the generator ends
      refine ⟨h.session, h.drained.of_consumers rfl (getting_of_mem_set ?_)⟩
      rw [if_pos hflag]
      nofun
    | getting =>
      have hempty := h.drained (List.mem_of_getElem? hj)
      dsimp only at hstep
      split at hstep
      · rename_i hqueue
        rw [hqueue] at hempty
        cases hempty
      · cases hstep
        exact ⟨h.session, h.drained.of_consumers rfl (getting_of_mem_set nofun)⟩
    | yielded =>
      cases hstep
      exact ⟨h.session, h.drained.of_consumers rfl (getting_of_mem_set nofun)⟩
    | connecting | ended => cases hstep

theorem resting_of_returns (h : Threads.Returning s.session) {a : Action}
    (hok : Undisturbed k o s a = true) (hret : Returns s a) (hstep : step k o s a = some s') :
    Resting s' s' := by
  cases a with
  | client a =>
    obtain ⟨session, hsession, rfl⟩ := Option.map_eq_some_iff.mp hstep
    obtain ⟨hundisturbed, hdrained⟩ := Bool.and_eq_true_iff.mp hok
    have hresting := Threads.resting_of_returns h hundisturbed hret hsession
    cases a with
    | go i answer =>
      have hi : s.session.threads[i]? = some (.stopper .budget) := hret
      simp only [hi, decide_eq_true_eq] at hdrained
      refine ⟨hresting, hdrained.client (dispatches_eq_false ?_ ?_)⟩
      · simp only [Session.step, hi, Option.bind_some, Threads.Client.threadStep,
          Threads.Client.stopperStep, Option.map_some, Option.some.injEq] at hsession
        rw [← hsession]
      · rintro n redial gen hgo hn
        cases hgo
        rw [hi] at hn
        cases hn
    | connect | disconnect | fire | drop => cases hret
  | events | consume | abandon => cases hret

end Consumers

/-! ### All clients -/

/-- `disconnect()` of `WebSocketClient`, `SpooledRealtime` and `AsyncWebSocketClient` and
`close()` of the SSE clients are final, in the runs that leave them undisturbed. -/
theorem disconnect_final (o : Threads.Options) (p : Sse.Options) :
    (Threads.system .webSocket o).Final (fun s a => Threads.Undisturbed .webSocket o s a = true)
      Threads.Returns Threads.Asks Threads.Silent ∧
    (∀ transport : Consumers.Transport,
      (Consumers.system transport o).Final
        (fun s a => Consumers.Undisturbed transport.kind o s a = true)
        Consumers.Returns Consumers.Asks Consumers.Silent) ∧
    (Sse.system p).Final (fun s a => Sse.ClosesCleanly s a = true)
      Sse.Returns Sse.Asks Sse.Silent ∧
    (Tasks.system o).Final (fun s a => Tasks.Undisturbed o s a = true)
      Tasks.Returns Tasks.Asks Tasks.Silent := by
  refine ⟨?_, fun transport => ?_, ?_, ?_⟩
  · refine System.Final.mono (T := Threads.Resting) ?_ fun _ _ h => h.silent
    exact System.final_of (fun _ h => Threads.returning_of_reachable h)
      (fun _ _ _ hI hok hret hstep => Threads.resting_of_returns hI hok hret hstep)
      fun _ _ _ _ hT hok hasks hstep =>
        hT.rests (Threads.rests_of_step hT.stopped hok hasks hstep)
  · refine System.Final.mono (T := Consumers.Resting) ?_ fun _ _ h =>
      ⟨h.session.silent, h.drained⟩
    exact System.final_of (I := fun s => Threads.Returning s.session)
      (fun _ h => Consumers.returning_of_reachable h)
      (fun _ _ _ hI hok hret hstep => Consumers.resting_of_returns hI hok hret hstep)
      fun _ _ _ _ hT hok hasks hstep => Consumers.resting_step hT hok hasks hstep
  · refine System.Final.mono (T := Sse.Resting) ?_ fun _ _ h => h.silent
    exact System.final_of (I := Sse.Closing)
      (fun _ h => Sse.closing_of_reachable h)
      (fun _ _ _ hI hok hret hstep => Sse.resting_of_returns hI hok hret hstep)
      fun _ _ _ _ hT _ hasks hstep => Sse.resting_step hT hasks hstep
  · refine System.Final.mono (T := Tasks.Resting) ?_ fun _ _ h => h.silent
    exact System.final_of (I := fun _ => True) (fun _ _ => trivial)
      (fun _ _ _ _ hok hret hstep => Tasks.resting_of_returns hok hret hstep)
      fun _ _ _ _ hT hok hasks hstep => Tasks.resting_step hT hok hasks hstep

instance (s : Threads.Session) (a : Threads.Action) : Decidable (Threads.Asks s a) :=
  inferInstanceAs (Decidable (a = .connect))

instance (s : Threads.Session) : (a : Threads.Action) → Decidable (Threads.Returns s a)
  | .go i _ => inferInstanceAs (Decidable (s.threads[i]? = some (.stopper .budget)))
  | .connect | .disconnect | .fire _ | .drop _ => instDecidableFalse

instance (s : Consumers.SpooledRealtime) :
    (a : Consumers.Action) → Decidable (Consumers.Asks s a)
  | .client a => inferInstanceAs (Decidable (Threads.Asks s.session a))
  | .consume j => inferInstanceAs (Decidable (Consumers.begins s j = true))
  | .events | .abandon _ => instDecidableFalse

instance (s : Consumers.SpooledRealtime) :
    (a : Consumers.Action) → Decidable (Consumers.Returns s a)
  | .client a => inferInstanceAs (Decidable (Threads.Returns s.session a))
  | .events | .consume _ | .abandon _ => instDecidableFalse

instance (s : Sse.SSEClient) : (a : Sse.Action) → Decidable (Sse.Asks s a)
  | .connect => .isTrue (.inl rfl)
  | .events => .isTrue (.inr rfl)
  | .reply _ | .read | .deliver | .resume | .wake | .close | .closeDone =>
    .isFalse fun h => h.elim (by simp) (by simp)

instance (s : Sse.SSEClient) : (a : Sse.Action) → Decidable (Sse.Returns s a)
  | .closeDone => .isTrue rfl
  | .connect | .events | .reply _ | .read | .deliver | .resume | .wake | .close =>
    .isFalse (by simp [Sse.Returns])

instance (s : Tasks.AsyncWebSocketClient) (a : Tasks.Action) : Decidable (Tasks.Asks s a) :=
  inferInstanceAs (Decidable (a = .connect ∨ a = .events))

instance (s : Tasks.AsyncWebSocketClient) : (a : Tasks.Action) → Decidable (Tasks.Returns s a)
  | .disconnect => inferInstanceAs (Decidable (s.client.ws = none))
  | .go i _ => inferInstanceAs (Decidable (s.tasks[i]? = some (.disconnect .closed)))
  | .connect | .events | .drop _ => instDecidableFalse

/-- Connected clients are disconnected, with a receive loop or a generator that comes to its end
later. -/
theorem disconnect_final_sample :
    (∃ s₁ s₂ : Threads.Session, s₁ ≠ s₂ ∧ Threads.Silent s₁ s₂) ∧
    (∃ s₁ s₂ : Consumers.SpooledRealtime, s₁.consumers = [.head] ∧ s₂.consumers = [.ended] ∧
      Consumers.Silent s₁ s₂) ∧
    (∃ s₁ s₂ : Sse.SSEClient, s₁.pc.atRest = false ∧ s₂.pc.atRest = true ∧
      s₂.delivered.length = 1 ∧ Sse.Silent s₁ s₂) ∧
    (∃ s₁ s₂ : Tasks.AsyncWebSocketClient, s₁.tasks[1]? = some (.events (.yielded 0)) ∧
      s₂.tasks[1]? = some (.events .ended) ∧ Tasks.Silent s₁ s₂) := by
  obtain ⟨hwebSocket, hrealtime, hsse, htasks⟩ := disconnect_final {} {}
  refine ⟨?_, ?_, ?_, ?_⟩
  · obtain ⟨s₁, s₂, hp, hsilent⟩ := System.Final.exists_silent @hwebSocket
      (.connect :: List.replicate 7 (.go 0 .yes) ++ .disconnect :: List.replicate 6 (.go 2 .yes))
      (.go 2 .yes) [.go 1 .yes] (fun s₁ s₂ => s₁ ≠ s₂) (by decide)
    exact ⟨s₁, s₂, of_decide_eq_true hp, hsilent⟩
  · obtain ⟨s₁, s₂, hp, hsilent⟩ := System.Final.exists_silent (@hrealtime .sse)
      ([.events, .consume 0] ++ List.replicate 9 (.client (.go 0 .yes)) ++
        .client .disconnect :: List.replicate 7 (.client (.go 2 .yes)))
      (.client (.go 2 .yes)) [.consume 0]
      (fun s₁ s₂ => s₁.consumers = [.head] ∧ s₂.consumers = [.ended]) (by decide)
    obtain ⟨hhead, hended⟩ := of_decide_eq_true hp
    exact ⟨s₁, s₂, hhead, hended, hsilent⟩
  · obtain ⟨s₁, s₂, hp, hsilent⟩ := System.Final.exists_silent @hsse
      [.events, .reply (.accepted ⟨[.ok (some ⟨"job.created", .null⟩)], none⟩), .read, .deliver,
        .close]
      .closeDone [.resume, .read]
      (fun s₁ s₂ => !s₁.pc.atRest && s₂.pc.atRest && s₂.delivered.length = 1) (by decide)
    simp only [Bool.and_eq_true, Bool.not_eq_true', decide_eq_true_eq] at hp
    exact ⟨s₁, s₂, hp.1.1, hp.1.2, hp.2, hsilent⟩
  · obtain ⟨s₁, s₂, hp, hsilent⟩ := System.Final.exists_silent @htasks
      [.connect, .go 0 .yes, .go 0 .yes, .events, .go 1 .yes, .disconnect, .go 2 .yes]
      (.go 2 .yes) [.go 1 .yes, .go 1 .last]
      (fun s₁ s₂ => s₁.tasks[1]? = some (.events (.yielded 0)) ∧
        s₂.tasks[1]? = some (.events .ended)) (by decide)
    obtain ⟨hyielded, hended⟩ := of_decide_eq_true hp
    exact ⟨s₁, s₂, hyielded, hended, hsilent⟩

/-- `disconnect()` comes and goes while `connect()` is dialing, and the dial connects. -/
theorem dialed_after_disconnect : ¬ ∀ (o : Threads.Options) (p : Sse.Options),
    (Threads.system .webSocket o).Final System.always
      Threads.Returns Threads.Asks Threads.Silent ∧
    (∀ transport : Consumers.Transport,
      (Consumers.system transport o).Final System.always
        Consumers.Returns Consumers.Asks Consumers.Silent) ∧
    (Sse.system p).Final System.always Sse.Returns Sse.Asks Sse.Silent ∧
    (Tasks.system o).Final System.always Tasks.Returns Tasks.Asks Tasks.Silent := by
  intro h
  have hrun : ((Threads.system .webSocket {}).run {}
      (.connect :: List.replicate 2 (.go 0 .yes) ++
        .disconnect :: List.replicate 4 (.go 1 .yes))).any (fun s =>
      decide (s.threads[1]? = some (.stopper .budget)) &&
      (s.step .webSocket {} (.go 1 .yes)).any fun s₁ =>
        ((Threads.system .webSocket {}).runIf
          (fun t b => System.always t b ∧ ¬ Threads.Asks t b) s₁
          [.go 0 .yes, .go 0 .yes]).any fun s₂ => decide (s₂.client.state = .connected)) := by
    decide
  obtain ⟨s, hs, hp⟩ := System.exists_of_run hrun
  obtain ⟨hreturn, hp⟩ := Bool.and_eq_true_iff.mp hp
  obtain ⟨s₁, hstep, hp⟩ := (Option.any_eq_true _ _).mp hp
  obtain ⟨s₂, hreach, hconnected⟩ := (Option.any_eq_true _ _).mp hp
  have hbudget : s.threads[1]? = some (.stopper .budget) := of_decide_eq_true hreturn
  have hret : Threads.Returns s (.go 1 .yes) := hbudget
  have hsilent := (h {} {}).1 hs trivial hret hstep (System.reaches_of_runIf hreach)
  exact hsilent.state (of_decide_eq_true hconnected)

end SpooledSdk.Realtime
