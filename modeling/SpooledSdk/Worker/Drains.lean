/-
What the drain of a `stop()` keeps.

* `drain_keeps_results` — before the intake closes `stop()` touches no execution, and a
  handler that ended before that is acked with its own outcome: by the synchronous worker, and
  by the asynchronous one under `DrainsResults`;
* `result_dropped` — an inner task that ends in the same turn of the loop in which `stop()`
  finds its deadline passed is reported as failed by the shutdown.
-/
import SpooledSdk.Worker.Acks
import SpooledSdk.Worker.SyncStop
import SpooledSdk.Worker.AsyncDrain

namespace SpooledSdk.Worker

/-- Before the intake closes no step of `stop()` changes an execution.  An execution whose
handler has ended before, and, in the synchronous worker, whose thread has come to its
settlement, is acked with its own outcome and with nothing else, unless its job timeout has
elapsed, its lease is lost or its entry is replaced. -/
theorem drain_keeps_results (ρ : Type) :
    (∀ (o : Sync.Options) (s s' : Sync.SpooledWorker ρ) (a : Sync.Action ρ),
      (Sync.system ρ o).Reachable System.always s → s.intakeClosed = false →
      a.ofStop = true → s.step a = some s' → s'.jobs = s.jobs) ∧
    (∀ (o : Sync.Options) (s₀ s₁ s s' s₂ : Sync.SpooledWorker ρ) (e : ℕ)
      (x x' : Sync.ActiveJob ρ) (out : Outcome ρ) (k : Ack ρ),
      (Sync.system ρ o).Reachable System.always s₀ →
      s₀.step (.job e (.handlerEnds out)) = some s₁ → out.ack = some k →
      (Sync.system ρ o).Reaches System.always s₁ s → s.intakeClosed = false →
      s.jobs[e]? = some x → x.thread.asked = false → x.timedOut = false →
      x.leaseLost = false → x.replaced = false →
      s.step (.job e (.thread none)) = some s' →
      (Sync.system ρ o).Reaches System.always s' s₂ → s₂.jobs[e]? = some x' →
        x'.settled = some (.runner, k) ∧
          (x'.calls = [] ∨ ∃ w, x'.calls = [ackCall x.job w k]) ∧
          (x'.calls = [] → x'.leaseLost = true ∨ ∃ w pc, x'.thread = .sending k w pc)) ∧
    (∀ (o : Async.Options) (s s' : Async.SpooledWorker ρ) (a : Async.Action ρ),
      (Async.system ρ o).Reachable System.always s → s.intakeClosed = false →
      a.ofStop = true → s.step a = some s' → s'.jobs = s.jobs) ∧
    (∀ (o : Async.Options) (s₀ s₁ s : Async.SpooledWorker ρ) (e : ℕ)
      (x x' : Async.ActiveJob ρ) (kind : Async.Kind) (out : Outcome ρ) (k : Ack ρ),
      (Async.system ρ o).Reachable (fun s a => Async.DrainsResults s a = true) s₀ →
      s₀.intakeClosed = false → s₀.jobs[e]? = some x → x.timedOut = false →
      s₀.step (.job e (.handler kind (some out))) = some s₁ → out.ack = some k →
      (Async.system ρ o).Reaches (fun s a => Async.DrainsResults s a = true) s₁ s →
      s.jobs[e]? = some x' → x'.leaseLost = false → x'.replaced = false →
        (x'.settled = some (.runner, k) ∧
            (x'.calls = [] ∧ (∃ w pc, x'.proc = .sending k w pc) ∨
              ∃ w, x'.calls = [ackCall x'.job w k])) ∨
          (s.intakeClosed = false ∧ x'.settled = none ∧ x'.calls = [] ∧
            (x'.proc = .settling k ∨ x'.proc = .waiting))) := by
  refine ⟨?_, ?_, ?_, ?_⟩
  · intro o s s' a h hopen ha hstep
    exact Sync.stop_waits h hopen ha hstep
  · intro o s₀ s₁ s s' s₂ e x x' out k h hends hack h₁ hopen hx hat htime hlost hrep hstep h₂ hx'
    exact Sync.own_outcome_of_reaches h trivial hends hack h₁ hopen hx hat htime hlost hrep trivial
      hstep h₂ hx'
  · intro o s s' a h hopen ha hstep
    exact Async.stop_waits h hopen ha hstep
  · intro o s₀ s₁ s e x x' kind out k h hopen hx₀ htime hends hack h₁ hx hlost hrep
    exact Async.own_outcome_of_ends h hopen hx₀ htime hends hack h₁ hx hlost hrep

/-- The inner task of a job with a timeout runs, `stop()` drains, and the handler's `await` and
`stop()`'s deadline come in the same turn. -/
def Async.Action.drainRace : List (Async.Action ℕ) :=
  Async.Action.claim [{ Async.sampleJob with timeoutSeconds := 1 }] ++ Async.Action.create ++
    Async.Action.segment 0 .proc 1 ++ Async.Action.segment 0 .beat 1 ++
    Async.Action.segment 0 .inner 1 ++ [.job 0 (.handler .inner none), .stop .call, .stop .go,
      .job 0 (.wake .inner .user), .stop .wake, .run]

/-- A `stop()` that comes while a handler runs, and a handler that ends before the deadline. -/
theorem drain_keeps_results_sample :
    (∃ s s' : Sync.SpooledWorker ℕ, s.step (.stop .go) = some s' ∧ s'.jobs = s.jobs) ∧
    (∃ (s : Sync.SpooledWorker ℕ) (x : Sync.ActiveJob ℕ), s.jobs[0]? = some x ∧
      x.settled = some (.runner, .complete 7)) ∧
    (∃ s s' : Async.SpooledWorker ℕ, s.step (.stop .go) = some s' ∧ s'.jobs = s.jobs) ∧
    (∃ (s : Async.SpooledWorker ℕ) (x : Async.ActiveJob ℕ), s.jobs[0]? = some x ∧
      s.intakeClosed = true ∧ x.settled = some (.runner, .complete 7)) := by
  refine ⟨?_, ?_, ?_, ?_⟩
  · have hrun : ((Sync.system ℕ Sync.sampleOptions).run (Sync.system ℕ Sync.sampleOptions).init
        (Sync.Action.claim [Sync.sampleJob] ++ Sync.Action.submit ++ [.stop (.call false)])).any
        (fun s => !s.intakeClosed && (s.step (.stop .go)).isSome) = true := by
      decide
    obtain ⟨s, h, hp⟩ := System.exists_of_run hrun
    rw [Bool.and_eq_true, Bool.not_eq_true'] at hp
    obtain ⟨s', hstep⟩ := Option.isSome_iff_exists.mp hp.2
    exact ⟨s, s', hstep, (drain_keeps_results ℕ).1 _ s s' _ h hp.1 rfl hstep⟩
  · have hrun : ((Sync.system ℕ Sync.sampleOptions).run (Sync.system ℕ Sync.sampleOptions).init
        (Sync.Action.claim [Sync.sampleJob] ++ Sync.Action.submit ++
          List.replicate 3 (.job 0 (.thread none)))).any
        (fun s₀ => (s₀.step (.job 0 (.handlerEnds (.returned 7)))).any fun s => !s.intakeClosed &&
          (s.jobs[0]?.any fun x =>
            !x.thread.asked && !x.timedOut && !x.leaseLost && !x.replaced) &&
          (s.step (.job 0 (.thread none))).any fun s' => s'.jobs[0]?.isSome) = true := by
      decide
    obtain ⟨s₀, h, hp⟩ := System.exists_of_run hrun
    obtain ⟨s, hends, hp⟩ := (Option.any_eq_true _ _).mp hp
    simp only [Bool.and_eq_true, Bool.not_eq_true'] at hp
    obtain ⟨⟨hopen, hx⟩, hp⟩ := hp
    obtain ⟨x, hx, hat⟩ := (Option.any_eq_true _ _).mp hx
    simp only [Bool.and_eq_true, Bool.not_eq_true'] at hat
    obtain ⟨⟨⟨hat, htime⟩, hlost⟩, hrep⟩ := hat
    obtain ⟨s', hstep, hp⟩ := (Option.any_eq_true _ _).mp hp
    obtain ⟨x', hx'⟩ := Option.isSome_iff_exists.mp hp
    exact ⟨s', x', hx', ((drain_keeps_results ℕ).2.1 _ s₀ s s s' s' 0 x x' (.returned 7)
      (.complete 7) h hends rfl .refl hopen hx hat htime hlost hrep hstep .refl hx').1⟩
  · have hrun : ((Async.system ℕ Async.sampleOptions).run
        (Async.system ℕ Async.sampleOptions).init
        (Async.Action.claim [Async.sampleJob] ++ Async.Action.create ++ [.stop .call])).any
        (fun s => !s.intakeClosed && (s.step (.stop .go)).isSome) = true := by
      decide
    obtain ⟨s, h, hp⟩ := System.exists_of_run hrun
    rw [Bool.and_eq_true, Bool.not_eq_true'] at hp
    obtain ⟨s', hstep⟩ := Option.isSome_iff_exists.mp hp.2
    exact ⟨s, s', hstep, (drain_keeps_results ℕ).2.2.1 _ s s' _ h hp.1 rfl hstep⟩
  · have hrun : ((Async.system ℕ Async.sampleOptions).runIf
        (fun s a => Async.DrainsResults s a = true) (Async.system ℕ Async.sampleOptions).init
        Async.Action.drainRace).any
        (fun s₀ => !s₀.intakeClosed && (s₀.jobs[0]?.any fun x => !x.timedOut) &&
          (s₀.step (.job 0 (.handler .inner (some (.returned 7))))).any fun s₁ =>
            ((Async.system ℕ Async.sampleOptions).runIf
              (fun s a => Async.DrainsResults s a = true) s₁
              ([.run, .stop .go, .job 0 (.wake .proc .completed)] ++
                Async.Action.segment 0 .proc 1 ++ Async.Action.ack 0 ++
                [.stop .wake, .run, .stop .deadline])).any fun s => s.intakeClosed &&
                  s.jobs[0]?.any fun x' => !x'.leaseLost && !x'.replaced) = true := by
      decide
    obtain ⟨s₀, h, hp⟩ := System.exists_of_runIf hrun
    simp only [Bool.and_eq_true, Bool.not_eq_true'] at hp
    obtain ⟨⟨hopen, hx⟩, hp⟩ := hp
    obtain ⟨x, hx, ht⟩ := (Option.any_eq_true _ _).mp hx
    obtain ⟨s₁, hends, hp⟩ := (Option.any_eq_true _ _).mp hp
    obtain ⟨s, hs, hp⟩ := (Option.any_eq_true _ _).mp hp
    rw [Bool.and_eq_true] at hp
    obtain ⟨x', hx', hp'⟩ := (Option.any_eq_true _ _).mp hp.2
    simp only [Bool.and_eq_true, Bool.not_eq_true'] at hp' ht
    rcases (drain_keeps_results ℕ).2.2.2 _ s₀ s₁ s 0 x x' .inner (.returned 7) (.complete 7) h
      hopen hx ht hends rfl (System.reaches_of_runIf hs) hx' hp'.1 hp'.2 with hset | ⟨hclosed, -⟩
    · exact ⟨s, x', hx', hp.1, hset.1⟩
    · rw [hp.1] at hclosed
      cases hclosed

/-- `stop()` closes the intake before the process task has read the result. -/
theorem result_dropped :
    ¬ ∀ (o : Async.Options) (s₀ s₁ s : Async.SpooledWorker ℕ) (e : ℕ)
      (x x' : Async.ActiveJob ℕ) (kind : Async.Kind) (out : Outcome ℕ) (k : Ack ℕ),
      (Async.system ℕ o).Reachable System.always s₀ →
      s₀.intakeClosed = false → s₀.jobs[e]? = some x → x.timedOut = false →
      s₀.step (.job e (.handler kind (some out))) = some s₁ → out.ack = some k →
      (Async.system ℕ o).Reaches System.always s₁ s →
      s.jobs[e]? = some x' → x'.leaseLost = false → x'.replaced = false →
        x'.calls = [] ∨ ∃ w, x'.calls = [ackCall x'.job w k] := by
  intro hall
  have hrun : ((Async.system ℕ Async.sampleOptions).run
      (Async.system ℕ Async.sampleOptions).init Async.Action.drainRace).any
      (fun s₀ => !s₀.intakeClosed && (s₀.jobs[0]?.any fun x => !x.timedOut) &&
        (s₀.step (.job 0 (.handler .inner (some (.returned 7))))).any fun s₁ =>
          ((Async.system ℕ Async.sampleOptions).run s₁
            ([.run, .stop .deadline, .stop .go, .stop .go] ++
              Async.Action.segment 0 .proc 1 ++ Async.Action.ack 0)).any fun s =>
                s.jobs[0]?.any fun x' => !x'.leaseLost && !x'.replaced &&
                  x'.calls == [ackCall x'.job "w" (.fail shutdownTimeoutError)]) = true := by
    decide
  obtain ⟨s₀, h, hp⟩ := System.exists_of_run hrun
  simp only [Bool.and_eq_true, Bool.not_eq_true'] at hp
  obtain ⟨⟨hopen, hx⟩, hp⟩ := hp
  obtain ⟨x, hx, ht⟩ := (Option.any_eq_true _ _).mp hx
  obtain ⟨s₁, hends, hp⟩ := (Option.any_eq_true _ _).mp hp
  obtain ⟨s, hs, hp⟩ := (Option.any_eq_true _ _).mp hp
  obtain ⟨x', hx', hp⟩ := (Option.any_eq_true _ _).mp hp
  simp only [Bool.and_eq_true, Bool.not_eq_true', beq_iff_eq] at hp ht
  obtain ⟨⟨hlost, hrep⟩, hcalls⟩ := hp
  have := hall _ s₀ s₁ s 0 x x' .inner (.returned 7) (.complete 7) h hopen hx ht hends rfl
    (System.reaches_of_run hs) hx' hlost hrep
  rw [hcalls] at this
  rcases this with hnil | ⟨w, hcall⟩
  · cases hnil
  · cases hcall

end SpooledSdk.Worker
