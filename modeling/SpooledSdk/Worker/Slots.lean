/-
The bound on handlers that run.

* `running_le_concurrency` — as long as no execution loses its entry before its handler has
  finished, the handlers that run fit into `concurrency`;
* `reclaim_exceeds_concurrency` — an id that is claimed again while its handler runs takes the
  entry of the execution, and the next poll asks for one job too many.
-/
import SpooledSdk.Worker.Acks
import SpooledSdk.Worker.SyncSlots
import SpooledSdk.Worker.AsyncSlots

namespace SpooledSdk.Worker

/-- The server answers a claim with no more jobs than it asked for.  In every run whose
executions keep their entries, the handlers that were handed out and have not finished never
exceed `concurrency`. -/
theorem running_le_concurrency (ρ : Type) :
    (∀ (o : Sync.Options) (s : Sync.SpooledWorker ρ),
      (Sync.system ρ o).Reachable
        (fun s a => (Sync.ClaimsWithin s a && Sync.KeepsEntries s a) = true) s →
      s.jobs.countP (fun x => x.thread.handling) ≤ o.concurrency) ∧
    (∀ (o : Async.Options) (s : Async.SpooledWorker ρ),
      (Async.system ρ o).Reachable
        (fun s a => (Async.ClaimsWithin s a && Async.KeepsEntries s a) = true) s →
      s.jobs.countP Async.ActiveJob.handling ≤ o.concurrency) :=
  ⟨fun _ _ => Sync.handlers_le_concurrency, fun _ _ => Async.handlers_le_concurrency⟩

/-- Two slots.  The handler of the first job outlives its timeout, which fails the job and gives
its entry up but not its slot: the next poll finds no slot free. -/
def Sync.Action.outlive : List (Sync.Action ℕ) :=
  Sync.Action.claim
      [{ Sync.sampleJob with timeoutSeconds := 5 }, { Sync.sampleJob with id := "k" }] ++
    Sync.Action.submit ++ Sync.Action.submit ++ List.replicate 3 (.job 0 (.thread none)) ++
    List.replicate 5 (.job 0 (.timeout none)) ++
    [.job 0 (.timeout (some .ok)), .job 0 (.timeout none)] ++ List.replicate 5 (.main .go)

/-- Two jobs of one claim, whose handlers both run. -/
def Async.Action.occupyBoth : List (Async.Action ℕ) :=
  Async.Action.claim [Async.sampleJob, { Async.sampleJob with id := "k" }] ++ .run ::
    List.replicate 4 (.main .go) ++ Async.Action.segment 0 .proc 1 ++
    [.job 0 (.handler .proc none)] ++ Async.Action.segment 1 .proc 1

/-- Two handlers run with two slots, one of them abandoned in the synchronous worker. -/
theorem running_le_concurrency_sample :
    (∃ s : Sync.SpooledWorker ℕ, s.main = .pausing ∧ s.abandonedRunning = 1 ∧
      s.jobs.countP (fun x => x.thread.handling) = 2 ∧
      s.jobs.countP (fun x => x.thread.handling) ≤ 2) ∧
    (∃ s : Async.SpooledWorker ℕ, s.jobs.countP Async.ActiveJob.handling = 2 ∧
      s.jobs.countP Async.ActiveJob.handling ≤ 2) := by
  constructor
  · let o : Sync.Options := { Sync.sampleOptions with concurrency := 2 }
    have hrun : ((Sync.system ℕ o).runIf
        (fun s a => (Sync.ClaimsWithin s a && Sync.KeepsEntries s a) = true)
        (Sync.system ℕ o).init Sync.Action.outlive).any
        (fun s => s.main = .pausing && s.abandonedRunning = 1 &&
          s.jobs.countP (fun x => x.thread.handling) = 2) = true := by
      decide
    obtain ⟨s, hs, hp⟩ := System.exists_of_runIf hrun
    simp only [Bool.and_eq_true, decide_eq_true_eq] at hp
    exact ⟨s, hp.1.1, hp.1.2, hp.2, (running_le_concurrency ℕ).1 o s hs⟩
  · let o : Async.Options := { Async.sampleOptions with concurrency := 2 }
    have hrun : ((Async.system ℕ o).runIf
        (fun s a => (Async.ClaimsWithin s a && Async.KeepsEntries s a) = true)
        (Async.system ℕ o).init Async.Action.occupyBoth).any
        (fun s => s.jobs.countP Async.ActiveJob.handling == 2) = true := by
      decide
    obtain ⟨s, hs, hp⟩ := System.exists_of_runIf hrun
    exact ⟨s, beq_iff_eq.mp hp, (running_le_concurrency ℕ).2 o s hs⟩

/-- The next poll, which finds one slot free, gets job `j`. -/
def Sync.Action.repoll (j : ClaimedJob) : List (Sync.Action ℕ) :=
  List.replicate 6 (.main .go) ++ [.main (.claimed [j])] ++ Sync.Action.submit

/-- The task of execution `e` calls the handler, which waits, and so does the heartbeat. -/
def Async.Action.occupy (e : ℕ) : List (Async.Action ℕ) :=
  Async.Action.create ++ Async.Action.segment e .proc 1 ++ [.job e (.handler .proc none)] ++
    Async.Action.segment e .beat 1

/-- The next poll, which finds one slot free, gets job `j`. -/
def Async.Action.repoll (j : ClaimedJob) : List (Async.Action ℕ) :=
  [.main .wake, .run, .main .go, .main (.claimed [j])]

/-- With two slots, job `j` runs, is claimed again and runs a second time, which leaves one
entry: the poll after that claims a third job. -/
theorem reclaim_exceeds_concurrency :
    (¬ ∀ (o : Sync.Options) (s : Sync.SpooledWorker ℕ),
      (Sync.system ℕ o).Reachable (fun s a => Sync.ClaimsWithin s a = true) s →
      s.jobs.countP (fun x => x.thread.handling) ≤ o.concurrency) ∧
    (¬ ∀ (o : Async.Options) (s : Async.SpooledWorker ℕ),
      (Async.system ℕ o).Reachable (fun s a => Async.ClaimsWithin s a = true) s →
      s.jobs.countP Async.ActiveJob.handling ≤ o.concurrency) := by
  constructor
  · intro hall
    let o : Sync.Options := { Sync.sampleOptions with concurrency := 2 }
    have hrun : ((Sync.system ℕ o).runIf (fun s a => Sync.ClaimsWithin s a = true)
        (Sync.system ℕ o).init
        (Sync.Action.claim [Sync.sampleJob] ++ Sync.Action.submit ++
          Sync.Action.repoll Sync.sampleJob ++
          Sync.Action.repoll { Sync.sampleJob with id := "k" })).any
        (fun s => s.jobs.countP (fun x => x.thread.handling) == 3) = true := by
      decide
    obtain ⟨s, hs, hp⟩ := System.exists_of_runIf hrun
    have hle := hall o s hs
    rw [beq_iff_eq.mp hp] at hle
    exact absurd hle (by decide)
  · intro hall
    let o : Async.Options := { Async.sampleOptions with concurrency := 2 }
    have hrun : ((Async.system ℕ o).runIf (fun s a => Async.ClaimsWithin s a = true)
        (Async.system ℕ o).init
        (Async.Action.claim [Async.sampleJob] ++ Async.Action.occupy 0 ++
          Async.Action.repoll Async.sampleJob ++ Async.Action.occupy 1 ++
          Async.Action.repoll { Async.sampleJob with id := "k" } ++ Async.Action.occupy 2)).any
        (fun s => s.jobs.countP Async.ActiveJob.handling == 3) = true := by
      decide
    obtain ⟨s, hs, hp⟩ := System.exists_of_runIf hrun
    have hle := hall o s hs
    rw [beq_iff_eq.mp hp] at hle
    exact absurd hle (by decide)

end SpooledSdk.Worker
