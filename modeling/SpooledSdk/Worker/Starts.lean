/-
When the workers call a handler.

* `never_started_spoiled` — the asynchronous worker calls no handler of a settled or lost
  execution, and the synchronous one none under `StartsFresh`;
* `started_spoiled` — a thread that is about to call the handler while `stop()` settles its
  execution calls it nonetheless.
-/
import SpooledSdk.Worker.Acks
import SpooledSdk.Worker.SyncStop
import SpooledSdk.Worker.AsyncStart

namespace SpooledSdk.Worker

/-- Whenever a handler is called, its execution is neither settled nor lost: in every run of
the asynchronous worker, and in every run of the synchronous one whose steps start fresh. -/
theorem never_started_spoiled (ρ : Type) :
    (∀ (o : Sync.Options) (s : Sync.SpooledWorker ρ) (e : ℕ) (x : Sync.ActiveJob ρ)
      (a : Sync.Action ρ), (Sync.system ρ o).Reachable (fun s a => Sync.StartsFresh s a = true) s →
      s.jobs[e]? = some x → Sync.Invokes s e a → x.settled = none ∧ x.leaseLost = false) ∧
    (∀ (o : Async.Options) (s s' : Async.SpooledWorker ρ) (e : ℕ) (x x' : Async.ActiveJob ρ)
      (a : Async.Action ρ), (Async.system ρ o).Reachable System.always s → s.step a = some s' →
      s.jobs[e]? = some x → s'.jobs[e]? = some x' → x.Called x' →
        x.settled = none ∧ x.leaseLost = false) := by
  constructor
  · intro o s e x a h hx hi
    obtain ⟨-, y, hy, ht⟩ := hi
    rw [hx, Option.some_inj] at hy
    subst hy
    exact Sync.unspoiled_of_reachable h hx (by rw [ht]; rfl)
  · intro o s s' e x x' a h hstep hx hx' hc
    exact Async.starts_fresh h trivial hstep hx hx' hc

/-- `stop()` finds its deadline passed and settles an execution whose thread has been picked
up and has not called the handler yet. -/
theorem started_spoiled : ¬ ∀ (o : Sync.Options) (s : Sync.SpooledWorker ℕ) (e : ℕ)
    (x : Sync.ActiveJob ℕ) (a : Sync.Action ℕ), (Sync.system ℕ o).Reachable System.always s →
      s.jobs[e]? = some x → Sync.Invokes s e a → x.settled = none ∧ x.leaseLost = false := by
  intro hall
  have hrun : ((Sync.system ℕ Sync.sampleOptions).run (Sync.system ℕ Sync.sampleOptions).init
      (Sync.Action.claim [Sync.sampleJob] ++ Sync.Action.submit ++
        [.job 0 (.thread none), .job 0 (.thread none), .main .go, .main .go,
          .stop (.call false), .stop .go, .stop .go, .stop .deadline, .stop .go, .stop .go,
          .job 0 (.stopper none), .job 0 (.stopper none)])).any
      (fun s => s.jobs[0]?.any fun x => x.thread = .calling && x.settled.isSome) = true := by
    decide
  obtain ⟨s, hs, hp⟩ := System.exists_of_run hrun
  obtain ⟨x, hx, hout⟩ := (Option.any_eq_true _ _).mp hp
  rw [Bool.and_eq_true, decide_eq_true_eq] at hout
  have := (hall _ s 0 x (.job 0 (.thread none)) hs hx ⟨rfl, x, hx, hout.1⟩).1
  rw [this] at hout
  cases hout.2

/-- A thread, and a task, that come to an execution before anybody else does. -/
theorem never_started_spoiled_sample :
    (∃ (s : Sync.SpooledWorker ℕ) (x : Sync.ActiveJob ℕ), s.jobs[0]? = some x ∧
      Sync.Invokes s 0 (.job 0 (.thread none)) ∧ x.settled = none ∧ x.leaseLost = false) ∧
    (∃ (s s' : Async.SpooledWorker ℕ) (x x' : Async.ActiveJob ℕ),
      s.step (.job 0 (.go .proc)) = some s' ∧ s.jobs[0]? = some x ∧ s'.jobs[0]? = some x' ∧
      x.Called x' ∧ x.settled = none ∧ x.leaseLost = false) := by
  constructor
  · have hrun : ((Sync.system ℕ Sync.sampleOptions).runIf
        (fun s a => Sync.StartsFresh s a = true) (Sync.system ℕ Sync.sampleOptions).init
        (Sync.Action.claim [Sync.sampleJob] ++ Sync.Action.submit ++
          [.job 0 (.thread none), .job 0 (.thread none)])).any
        (fun s => s.jobs[0]?.any fun x => x.thread = .calling) = true := by
      decide
    obtain ⟨s, hs, hp⟩ := System.exists_of_runIf hrun
    obtain ⟨x, hx, ht⟩ := (Option.any_eq_true _ _).mp hp
    have hi : Sync.Invokes s 0 (.job 0 (.thread none)) := ⟨rfl, x, hx, of_decide_eq_true ht⟩
    exact ⟨s, x, hx, hi, (never_started_spoiled ℕ).1 _ s 0 x _ hs hx hi⟩
  · have hrun : ((Async.system ℕ Async.sampleOptions).run
        (Async.system ℕ Async.sampleOptions).init
        (Async.Action.claim [Async.sampleJob] ++ Async.Action.create ++ [.run])).any
        (fun s => (s.jobs[0]?.any fun x => x.proc = .created) &&
          (s.step (.job 0 (.go .proc))).any fun s' =>
            s'.jobs[0]?.any fun x' => x'.proc = .handler) = true := by
      decide
    obtain ⟨s, hs, hp⟩ := System.exists_of_run hrun
    obtain ⟨hx, hs'⟩ := (Bool.and_eq_true _ _).mp hp
    obtain ⟨x, hx, hc⟩ := (Option.any_eq_true _ _).mp hx
    obtain ⟨s', hstep, hx'⟩ := (Option.any_eq_true _ _).mp hs'
    obtain ⟨x', hx', hh⟩ := (Option.any_eq_true _ _).mp hx'
    have hcalled : x.Called x' := by
      refine .inl ⟨?_, of_decide_eq_true hh⟩
      rw [of_decide_eq_true hc]
      simp
    exact ⟨s, s', x, x', hstep, hx, hx', hcalled,
      (never_started_spoiled ℕ).2 _ s s' 0 x x' _ hs hstep hx hx' hcalled⟩

end SpooledSdk.Worker
