/-
What both workers promise about acks.

* `single_fenced_ack` — an execution acks once at most, as the entry of its id;
* `no_job_dropped` — every claimed job stays accounted for, as long as no handler ends in
  a way that has no ack;
* `job_dropped` — a handler that raises `SystemExit`, or a `CancelledError` of its own, is
  never acked.
-/
import SpooledSdk.Worker.SyncAck
import SpooledSdk.Worker.AsyncAck

namespace SpooledSdk.Worker

/-! ### Runs of the asynchronous worker -/

namespace Async

variable {ρ : Type}

/-- `start()` up to the answer of its first claim. -/
def Action.claim (js : List ClaimedJob) : List (Action ρ) :=
  [.main .start, .main (.registered "w"), .run, .main .go, .main .go, .main (.claimed js)]

/-- The result loop of `_poll` registers its only job. -/
def Action.create : List (Action ρ) := [.run, .main .go, .main .go, .main .go]

/-- The loop takes the next task, which makes `n` steps of kind `k` on execution `e`. -/
def Action.segment (e : ℕ) (k : Kind) (n : ℕ) : List (Action ρ) :=
  .run :: List.replicate n (.job e (.go k))

/-- The handler of execution `e` is called in its process task and ends as `out`. -/
def Action.handle (e : ℕ) (out : Outcome ρ) : List (Action ρ) :=
  Action.segment e .proc 1 ++ [.job e (.handler .proc (some out))]

/-- The process task of execution `e` settles and sends its ack. -/
def Action.ack (e : ℕ) : List (Action ρ) := List.replicate 3 (.job e (.go .proc))

/-- A worker for one job at a time. -/
def sampleOptions : Options := { queueName := "q", concurrency := 1, leaseDuration := 30 }

/-- A job as a claim returns it. -/
def sampleJob : ClaimedJob :=
  { id := "j", queueName := "q", retryCount := 0, maxRetries := 3, timeoutSeconds := 0
    leaseId := some "l" }

end Async

variable (ρ : Type)

/-! ### One ack, as the entry -/

/-- In every run of either worker an execution starts one ack call at most, with the lease
of its own claim, takes the right to it only as the entry of its id, and starts none once it
was lost or replaced without that right. -/
theorem single_fenced_ack :
    (∀ (o : Sync.Options) (s : Sync.SpooledWorker ρ) (e : ℕ) (x : Sync.ActiveJob ρ),
      (Sync.system ρ o).Reachable System.always s → s.jobs[e]? = some x →
      (x.calls.length ≤ 1 ∧ ∀ c ∈ x.calls, c.jobId = x.job.id ∧ c.leaseId = x.job.leaseId) ∧
      (∀ a s' x', s.step a = some s' → s'.jobs[e]? = some x' → x.settled = none →
        x'.settled ≠ none → s.activeJobs.get? x.job.id = some e ∧ x.leaseLost = false) ∧
      (x.settled = none → x.leaseLost = true ∨ x.replaced = true →
        ∀ s', (Sync.system ρ o).Reaches System.always s s' →
          ∃ x', s'.jobs[e]? = some x' ∧ x'.job = x.job ∧ x'.calls = [])) ∧
    (∀ (o : Async.Options) (s : Async.SpooledWorker ρ) (e : ℕ) (x : Async.ActiveJob ρ),
      (Async.system ρ o).Reachable System.always s → s.jobs[e]? = some x →
      (x.calls.length ≤ 1 ∧ ∀ c ∈ x.calls, c.jobId = x.job.id ∧ c.leaseId = x.job.leaseId) ∧
      (∀ a s' x', s.step a = some s' → s'.jobs[e]? = some x' → x.settled = none →
        x'.settled ≠ none → s.activeJobs.get? x.job.id = some e ∧ x.leaseLost = false) ∧
      (x.settled = none → x.leaseLost = true ∨ x.replaced = true →
        ∀ s', (Async.system ρ o).Reaches System.always s s' →
          ∃ x', s'.jobs[e]? = some x' ∧ x'.job = x.job ∧ x'.calls = [])) := by
  constructor
  · intro o s e x h hx
    refine ⟨(Sync.lease_sound h hx).1.single, ?_, ?_⟩
    · exact fun a s' x' hstep hx' => Sync.settled_only_as_entry h hstep hx hx'
    · intro hfree hout s' h'
      obtain ⟨x', hx', hcalls⟩ := Sync.never_acked_once_barred h h' hx hfree hout
      obtain ⟨y, hy, hjob⟩ := Sync.job_of_reaches h h' hx
      rw [hx', Option.some_inj] at hy
      exact ⟨x', hx', hy ▸ hjob, hcalls⟩
  · intro o s e x h hx
    refine ⟨(Async.lease_sound h hx).1.single, ?_, ?_⟩
    · exact fun a s' x' hstep hx' => Async.settled_only_as_entry h hstep hx hx'
    · intro hfree hout s' h'
      obtain ⟨x', hx', hcalls⟩ := Async.never_acked_once_barred h h' hx hfree hout
      obtain ⟨y, hy, hjob⟩ := Async.job_of_reaches h h' hx
      rw [hx', Option.some_inj] at hy
      exact ⟨x', hx', hy ▸ hjob, hcalls⟩

/-- Both workers have sent the ack of a handler that returned 7. -/
theorem single_fenced_ack_sample :
    (∃ (s : Sync.SpooledWorker ℕ) (x : Sync.ActiveJob ℕ),
      (Sync.system ℕ Sync.sampleOptions).Reachable System.always s ∧ s.jobs[0]? = some x ∧
      x.calls = [⟨"j", "w", some "l", .complete 7⟩] ∧ x.calls.length ≤ 1) ∧
    (∃ (s : Async.SpooledWorker ℕ) (x : Async.ActiveJob ℕ),
      (Async.system ℕ Async.sampleOptions).Reachable System.always s ∧ s.jobs[0]? = some x ∧
      x.calls = [⟨"j", "w", some "l", .complete 7⟩] ∧ x.calls.length ≤ 1) := by
  have hsync : ((Sync.system ℕ Sync.sampleOptions).run (Sync.system ℕ Sync.sampleOptions).init
      (Sync.Action.claim [Sync.sampleJob] ++ Sync.Action.submit ++
        Sync.Action.handle 0 (.returned 7) ++ Sync.Action.ack 0)).any
      (fun s => s.jobs[0]?.any fun x => x.calls = [⟨"j", "w", some "l", .complete 7⟩]) = true := by
    decide
  have hasync : ((Async.system ℕ Async.sampleOptions).run
      (Async.system ℕ Async.sampleOptions).init
      (Async.Action.claim [Async.sampleJob] ++ Async.Action.create ++
        Async.Action.handle 0 (.returned 7) ++ Async.Action.ack 0)).any
      (fun s => s.jobs[0]?.any fun x => x.calls = [⟨"j", "w", some "l", .complete 7⟩]) = true := by
    decide
  obtain ⟨s, hs, hp⟩ := System.exists_of_run hsync
  obtain ⟨x, hx, hcalls⟩ := (Option.any_eq_true _ _).mp hp
  obtain ⟨t, ht, hp⟩ := System.exists_of_run hasync
  obtain ⟨y, hy, hcalls'⟩ := (Option.any_eq_true _ _).mp hp
  exact ⟨⟨s, x, hs, hx, by simpa using hcalls, ((single_fenced_ack ℕ).1 _ s 0 x hs hx).1.1⟩,
    ⟨t, y, ht, hy, by simpa using hcalls', ((single_fenced_ack ℕ).2 _ t 0 y ht hy).1.1⟩⟩

/-! ### Every claimed job is accounted for -/

theorem Sync.ActiveJob.acked_of_answered {ρ : Type} {o : Sync.Options} {s : Sync.SpooledWorker ρ}
    {ok : Sync.SpooledWorker ρ → Sync.Action ρ → Prop} {e : ℕ} {x : Sync.ActiveJob ρ}
    (h : (Sync.system ρ o).Reachable ok s) (hx : s.jobs[e]? = some x)
    (ha : x.answered = true) :
    (∃ c ∈ x.calls, c.leaseId = x.job.leaseId) ∨ x.leaseLost = true := by
  refine (Sync.ActiveJob.answered_iff.mp ha).imp_left fun hne => ?_
  obtain ⟨c, hc⟩ := List.exists_mem_of_ne_nil _ hne
  exact ⟨c, hc, ((Sync.lease_sound h hx).1.single.2 c hc).2⟩

theorem Async.ActiveJob.acked_of_answered {ρ : Type} {o : Async.Options}
    {s : Async.SpooledWorker ρ} {ok : Async.SpooledWorker ρ → Async.Action ρ → Prop} {e : ℕ}
    {x : Async.ActiveJob ρ} (h : (Async.system ρ o).Reachable ok s) (hx : s.jobs[e]? = some x)
    (ha : x.answered = true) :
    (∃ c ∈ x.calls, c.leaseId = x.job.leaseId) ∨ x.leaseLost = true := by
  refine (Async.ActiveJob.answered_iff.mp ha).imp_left fun hne => ?_
  obtain ⟨c, hc⟩ := List.exists_mem_of_ne_nil _ hne
  exact ⟨c, hc, ((Async.lease_sound h hx).1.single.2 c hc).2⟩

/-- While every step keeps its jobs, a claimed job is tracked or waits in a running poll,
or was acked, lost or replaced, and `stop()` deregisters only when all that it tracks is
acked or lost. -/
theorem no_job_dropped :
    (∀ (o : Sync.Options) (s : Sync.SpooledWorker ρ),
      (Sync.system ρ o).Reachable (fun s a => Sync.KeepsJobs s a = true) s →
      (∀ e x, s.jobs[e]? = some x → s.activeJobs.get? x.job.id = some e ∨ s.waiting e ∨
        (∃ c ∈ x.calls, c.leaseId = x.job.leaseId) ∨ x.leaseLost = true ∨ x.replaced = true) ∧
      (∀ w s', Sync.KeepsJobs s (.stop .go) = true → s.step (.stop .go) = some s' →
        s'.log = s.log ++ [.deregister w] → ∀ e x, s.jobs[e]? = some x →
        s.activeJobs.get? x.job.id = some e →
          (∃ c ∈ x.calls, c.leaseId = x.job.leaseId) ∨ x.leaseLost = true)) ∧
    (∀ (o : Async.Options) (s : Async.SpooledWorker ρ),
      (Async.system ρ o).Reachable (fun s a => Async.KeepsJobs s a = true) s →
      (∀ e x, s.jobs[e]? = some x → s.activeJobs.get? x.job.id = some e ∨ e ∈ s.main.todo ∨
        (∃ c ∈ x.calls, c.leaseId = x.job.leaseId) ∨ x.leaseLost = true ∨ x.replaced = true) ∧
      (∀ w s', s.step (.stop .go) = some s' → s'.log = s.log ++ [.deregister w] →
        ∀ e x, s.jobs[e]? = some x → s.activeJobs.get? x.job.id ≠ some e)) := by
  constructor
  · intro o s h
    refine ⟨fun e x hx => ?_, fun w s' hk hstep hlog e x hx ht => ?_⟩
    · rcases Sync.accounted h hx with ht | hw | ha | hr
      · exact .inl ht
      · exact .inr (.inl hw)
      · exact .inr (.inr ((Sync.ActiveJob.acked_of_answered h hx ha).imp_right .inl))
      · exact .inr (.inr (.inr (.inr hr)))
    · exact Sync.ActiveJob.acked_of_answered h hx
        (Sync.answered_at_deregister h hk hstep hlog hx ht)
  · intro o s h
    refine ⟨fun e x hx => ?_, fun w s' hstep hlog e x hx =>
      Async.untracked_at_deregister h hstep hlog hx⟩
    rcases Async.accounted h hx with ht | hw | ha | hr
    · exact .inl ht
    · exact .inr (.inl hw)
    · exact .inr (.inr ((Async.ActiveJob.acked_of_answered h hx ha).imp_right .inl))
    · exact .inr (.inr (.inr (.inr hr)))

/-- A handler that raises `SystemExit` in its thread, or a `CancelledError` in its task,
leaves `_active_jobs` without an ack. -/
theorem job_dropped :
    (¬ ∀ (o : Sync.Options) (s : Sync.SpooledWorker ℕ) (e : ℕ) (x : Sync.ActiveJob ℕ),
      (Sync.system ℕ o).Reachable System.always s → s.jobs[e]? = some x →
      s.activeJobs.get? x.job.id = some e ∨ s.waiting e ∨
        (∃ c ∈ x.calls, c.leaseId = x.job.leaseId) ∨ x.leaseLost = true ∨ x.replaced = true) ∧
    (¬ ∀ (o : Async.Options) (s : Async.SpooledWorker ℕ) (e : ℕ) (x : Async.ActiveJob ℕ),
      (Async.system ℕ o).Reachable System.always s → s.jobs[e]? = some x →
      s.activeJobs.get? x.job.id = some e ∨ e ∈ s.main.todo ∨
        (∃ c ∈ x.calls, c.leaseId = x.job.leaseId) ∨ x.leaseLost = true ∨ x.replaced = true) := by
  constructor
  · intro hall
    have hrun : ((Sync.system ℕ Sync.sampleOptions).run
        (Sync.system ℕ Sync.sampleOptions).init
        (Sync.Action.claim [Sync.sampleJob] ++ Sync.Action.submit ++
          Sync.Action.handle 0 (.raised .baseException) ++ [.job 0 (.thread none)])).any
        (fun s => s.main = .jobs [] && s.jobs[0]?.any fun x => !x.leaseLost && !x.replaced &&
          x.calls.isEmpty && (s.activeJobs.get? x.job.id).isNone) = true := by
      decide
    obtain ⟨s, hs, hp⟩ := System.exists_of_run hrun
    rw [Bool.and_eq_true, decide_eq_true_eq] at hp
    obtain ⟨x, hx, hout⟩ := (Option.any_eq_true _ _).mp hp.2
    simp only [Bool.and_eq_true, Bool.not_eq_true', List.isEmpty_iff,
      Option.isNone_iff_eq_none] at hout
    have := hall _ s 0 x hs hx
    simp [hout, hp.1, Sync.SpooledWorker.waiting, Sync.MainPc.todo, Sync.MainPc.releasing] at this
  · intro hall
    have hrun : ((Async.system ℕ Async.sampleOptions).run
        (Async.system ℕ Async.sampleOptions).init
        (Async.Action.claim [Async.sampleJob] ++ Async.Action.create ++
          Async.Action.handle 0 (.raised .cancelledError) ++ [.job 0 (.go .proc)])).any
        (fun s => s.main = .pausing && s.jobs[0]?.any fun x => !x.leaseLost && !x.replaced &&
          x.calls.isEmpty && (s.activeJobs.get? x.job.id).isNone) = true := by
      decide
    obtain ⟨s, hs, hp⟩ := System.exists_of_run hrun
    rw [Bool.and_eq_true, decide_eq_true_eq] at hp
    obtain ⟨x, hx, hout⟩ := (Option.any_eq_true _ _).mp hp.2
    simp only [Bool.and_eq_true, Bool.not_eq_true', List.isEmpty_iff,
      Option.isNone_iff_eq_none] at hout
    have := hall _ s 0 x hs hx
    simp [hout, hp.1, Async.MainPc.todo] at this

/-- A handler that raises an `Exception` is failed with its text, and its job accounted for. -/
theorem no_job_dropped_sample :
    (∃ (s : Sync.SpooledWorker ℕ) (x : Sync.ActiveJob ℕ), s.jobs[0]? = some x ∧
      s.activeJobs.get? x.job.id = none ∧ (∃ c ∈ x.calls, c.ack = .fail "boom") ∧
      (s.activeJobs.get? x.job.id = some 0 ∨ s.waiting 0 ∨
        (∃ c ∈ x.calls, c.leaseId = x.job.leaseId) ∨ x.leaseLost = true ∨ x.replaced = true)) ∧
    (∃ (s : Async.SpooledWorker ℕ) (x : Async.ActiveJob ℕ), s.jobs[0]? = some x ∧
      s.activeJobs.get? x.job.id = none ∧ (∃ c ∈ x.calls, c.ack = .fail "boom") ∧
      (s.activeJobs.get? x.job.id = some 0 ∨ 0 ∈ s.main.todo ∨
        (∃ c ∈ x.calls, c.leaseId = x.job.leaseId) ∨ x.leaseLost = true ∨ x.replaced = true)) := by
  have hsync : ((Sync.system ℕ Sync.sampleOptions).runIf (fun s a => Sync.KeepsJobs s a = true)
      (Sync.system ℕ Sync.sampleOptions).init
      (Sync.Action.claim [Sync.sampleJob] ++ Sync.Action.submit ++
        Sync.Action.handle 0 (.raised (.exception (some "boom"))) ++ Sync.Action.ack 0 ++
        [.job 0 (.thread (some .ok)), .job 0 (.thread none)])).any
      (fun s => s.jobs[0]?.any fun x => (s.activeJobs.get? x.job.id).isNone &&
        x.calls.any fun c => c.ack = .fail "boom") = true := by
    decide
  have hasync : ((Async.system ℕ Async.sampleOptions).runIf (fun s a => Async.KeepsJobs s a = true)
      (Async.system ℕ Async.sampleOptions).init
      (Async.Action.claim [Async.sampleJob] ++ Async.Action.create ++
        Async.Action.handle 0 (.raised (.exception (some "boom"))) ++ Async.Action.ack 0 ++
        Async.Action.segment 0 .beat 1 ++
        [.job 0 (.wake .proc (.reply .ok))] ++ Async.Action.segment 0 .proc 2)).any
      (fun s => s.jobs[0]?.any fun x => (s.activeJobs.get? x.job.id).isNone &&
        x.calls.any fun c => c.ack = .fail "boom") = true := by
    decide
  obtain ⟨s, hs, hp⟩ := System.exists_of_runIf hsync
  obtain ⟨x, hx, hout⟩ := (Option.any_eq_true _ _).mp hp
  obtain ⟨t, ht, hp⟩ := System.exists_of_runIf hasync
  obtain ⟨y, hy, hout'⟩ := (Option.any_eq_true _ _).mp hp
  simp only [Bool.and_eq_true, Option.isNone_iff_eq_none, List.any_eq_true,
    decide_eq_true_eq] at hout hout'
  exact ⟨⟨s, x, hx, hout.1, hout.2, ((no_job_dropped ℕ).1 _ s hs).1 0 x hx⟩,
    ⟨t, y, hy, hout'.1, hout'.2, ((no_job_dropped ℕ).2 _ t ht).1 0 y hy⟩⟩

end SpooledSdk.Worker
