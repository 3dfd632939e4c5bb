/-
What a `stop()` that has returned means for the workers.

* `stop_honoured` — under `HeedsStop` no claim follows, no request of an earlier claim is sent
  again, and the worker does not run again;
* `stop_ignored` — a `stop()` that comes while `start()` registers returns at once, and the
  worker runs.
-/
import SpooledSdk.Worker.Acks
import SpooledSdk.Worker.SyncStop
import SpooledSdk.Worker.AsyncStop

namespace SpooledSdk.Worker

/-- Once a `stop()` has returned, and none of the run's `stop()` calls returned while `start()`
was registering, between a poll's locked check and its claim, or during a claim call that might
still send its request, no claim is made, no request of one is sent and the worker does not run
again. -/
theorem stop_honoured (ρ : Type) :
    (∀ (o : Sync.Options) (s s' : Sync.SpooledWorker ρ),
      (Sync.system ρ o).Reachable (fun s a => Sync.HeedsStop s a = true) s →
      s.stopReturned = true →
      (Sync.system ρ o).Reaches (fun s a => Sync.HeedsStop s a = true) s s' →
        s'.state ≠ .running ∧
          s'.log.filter Sync.Call.isClaim = s.log.filter Sync.Call.isClaim ∧
          s'.claimSends = s.claimSends) ∧
    (∀ (o : Async.Options) (s s' : Async.SpooledWorker ρ),
      (Async.system ρ o).Reachable (fun s a => Async.HeedsStop s a = true) s →
      s.stopReturned = true →
      (Async.system ρ o).Reaches (fun s a => Async.HeedsStop s a = true) s s' →
        s'.state ≠ .running ∧
          s'.log.filter Async.Call.isClaim = s.log.filter Async.Call.isClaim ∧
          s'.claimSends = s.claimSends) := by
  constructor
  · intro o s s' h hs h'
    obtain ⟨hstate, hsame⟩ := Sync.stopped_for_good h hs h'
    exact ⟨hstate, hsame.calls, hsame.sends⟩
  · intro o s s' h hs h'
    obtain ⟨hstate, hsame⟩ := Async.stopped_for_good h hs h'
    exact ⟨hstate, hsame.calls, hsame.sends⟩

/-- Both workers ignore a `stop()` that comes while they register. -/
theorem stop_ignored :
    (¬ ∀ (o : Sync.Options) (s s' : Sync.SpooledWorker ℕ),
      (Sync.system ℕ o).Reachable System.always s → s.stopReturned = true →
      (Sync.system ℕ o).Reaches System.always s s' → s'.state ≠ .running) ∧
    (¬ ∀ (o : Async.Options) (s s' : Async.SpooledWorker ℕ),
      (Async.system ℕ o).Reachable System.always s → s.stopReturned = true →
      (Async.system ℕ o).Reaches System.always s s' → s'.state ≠ .running) := by
  constructor
  · intro hall
    have hrun : ((Sync.system ℕ Sync.sampleOptions).run (Sync.system ℕ Sync.sampleOptions).init
        [.main .go, .stop .callIgnored]).any (fun s => s.stopReturned &&
          ((Sync.system ℕ Sync.sampleOptions).run s
            [.main (.registered "w"), .main .go]).any fun s' => s'.state = .running) = true := by
      decide
    obtain ⟨s, hs, hp⟩ := System.exists_of_run hrun
    obtain ⟨hret, hs'⟩ := (Bool.and_eq_true _ _).mp hp
    obtain ⟨s', hs', hstate⟩ := (Option.any_eq_true _ _).mp hs'
    exact hall _ s s' hs hret (System.reaches_of_run hs') (of_decide_eq_true hstate)
  · intro hall
    have hrun : ((Async.system ℕ Async.sampleOptions).run
        (Async.system ℕ Async.sampleOptions).init
        [.main .start, .stop .callIgnored]).any (fun s => s.stopReturned &&
          ((Async.system ℕ Async.sampleOptions).run s
            [.main (.registered "w"), .run, .main .go]).any fun s' => s'.state = .running) = true := by
      decide
    obtain ⟨s, hs, hp⟩ := System.exists_of_run hrun
    obtain ⟨hret, hs'⟩ := (Bool.and_eq_true _ _).mp hp
    obtain ⟨s', hs', hstate⟩ := (Option.any_eq_true _ _).mp hs'
    exact hall _ s s' hs hret (System.reaches_of_run hs') (of_decide_eq_true hstate)

/-- A `stop()` that no longer waits for the claim returns, and the claim is sent again. -/
example : ((Sync.system ℕ Sync.sampleOptions).run (Sync.system ℕ Sync.sampleOptions).init
    ([.main .go, .main (.registered "w")] ++ List.replicate 4 (.main .go) ++
      [.stop (.call false), .stop .go, .stop .deadline] ++ List.replicate 11 (.stop .go))).any
    (fun s => s.stopReturned && s.claimSends = 1 &&
      (s.step (.main .resend)).any fun s' => s'.claimSends = 2) = true := by
  decide

/-- A claim that is answered by the job of a handler that returns 7, after its request was sent
twice, and the `stop()` call that follows. -/
def Sync.Action.serve : List (Sync.Action ℕ) :=
  [.main .go, .main (.registered "w")] ++ List.replicate 4 (.main .go) ++
    [.main .resend, .main (.claimed [Sync.sampleJob])] ++ Sync.Action.submit ++
    Sync.Action.handle 0 (.returned 7) ++ Sync.Action.ack 0 ++
    [.job 0 (.thread (some .ok)), .job 0 (.thread none), .main .go, .main .go,
      .stop (.call false)] ++ List.replicate 13 (.stop .go)

/-- The same on the event loop. -/
def Async.Action.serve : List (Async.Action ℕ) :=
  [.main .start, .main (.registered "w"), .run, .main .go, .main .go, .main .send, .main .send,
    .main (.claimed [Async.sampleJob])] ++ Async.Action.create ++
    Async.Action.handle 0 (.returned 7) ++ Async.Action.ack 0 ++ Async.Action.segment 0 .beat 1 ++
    [.job 0 (.wake .proc (.reply .ok))] ++ Async.Action.segment 0 .proc 2 ++
    Async.Action.segment 0 .beat 1 ++ [.job 0 (.wake .proc .completed)] ++
    Async.Action.segment 0 .proc 1 ++ [.stop .call] ++ List.replicate 4 (.stop .go) ++
    [.stop .wake, .run, .stop .go, .stop .wake, .run, .stop .go]

/-- After the `stop()` of a worker that has served a job, `start()` returns. -/
theorem stop_honoured_sample :
    (∃ s s' : Sync.SpooledWorker ℕ, s.stopReturned = true ∧ s.claimSends = 2 ∧
      s.main = .pausing ∧ s'.main = .returned ∧ s'.state ≠ .running ∧
      s'.claimSends = s.claimSends) ∧
    (∃ s s' : Async.SpooledWorker ℕ, s.stopReturned = true ∧ s.claimSends = 2 ∧
      s.main = .pausing ∧ s'.main = .returned ∧ s'.state ≠ .running ∧
      s'.claimSends = s.claimSends) := by
  constructor
  · have hrun : ((Sync.system ℕ Sync.sampleOptions).runIf
        (fun s a => Sync.HeedsStop s a = true) (Sync.system ℕ Sync.sampleOptions).init
        Sync.Action.serve).any (fun s => (s.stopReturned && s.claimSends = 2 &&
          s.main = .pausing) && ((Sync.system ℕ Sync.sampleOptions).runIf
            (fun s a => Sync.HeedsStop s a = true) s [.main .go, .main .go]).any
              fun s' => s'.main = .returned) = true := by
      decide
    obtain ⟨s, hs, hp⟩ := System.exists_of_runIf hrun
    rw [Bool.and_eq_true] at hp
    obtain ⟨s', hs', hend⟩ := (Option.any_eq_true _ _).mp hp.2
    simp only [Bool.and_eq_true, decide_eq_true_eq] at hp hend
    have hstop := (stop_honoured ℕ).1 _ s s' hs hp.1.1.1 (System.reaches_of_runIf hs')
    exact ⟨s, s', hp.1.1.1, hp.1.1.2, hp.1.2, hend, hstop.1, hstop.2.2⟩
  · have hrun : ((Async.system ℕ Async.sampleOptions).runIf
        (fun s a => Async.HeedsStop s a = true) (Async.system ℕ Async.sampleOptions).init
        Async.Action.serve).any (fun s => (s.stopReturned && s.claimSends = 2 &&
          s.main = .pausing) && ((Async.system ℕ Async.sampleOptions).runIf
            (fun s a => Async.HeedsStop s a = true) s [.main .wake, .run, .main .go]).any
              fun s' => s'.main = .returned) = true := by
      decide
    obtain ⟨s, hs, hp⟩ := System.exists_of_runIf hrun
    rw [Bool.and_eq_true] at hp
    obtain ⟨s', hs', hend⟩ := (Option.any_eq_true _ _).mp hp.2
    simp only [Bool.and_eq_true, decide_eq_true_eq] at hp hend
    have hstop := (stop_honoured ℕ).2 _ s s' hs hp.1.1.1 (System.reaches_of_runIf hs')
    exact ⟨s, s', hp.1.1.1, hp.1.1.2, hp.1.2, hend, hstop.1, hstop.2.2⟩

end SpooledSdk.Worker
