/-
The requests of one worker.

* `one_name` — whatever happens, both workers speak under the one id they have registered with:
  they call `register` first and once, claim no more than they have slots, and call `deregister`
  once.
-/
import SpooledSdk.Worker.Acks
import SpooledSdk.Worker.AsyncRequests
import SpooledSdk.Worker.SyncRequests

namespace SpooledSdk.Worker

/-- In every run, at every moment, the calls of `register`, `claim` and `deregister` that a worker
has made, each counted once however often its request is sent, are made under the id that it has
registered with: one registration, before all else; then claims, each for one slot at least and
for no more than the concurrency; and one `deregister` at most, which is the last of these calls
for the asynchronous worker, and has one claim at most behind it for the synchronous one.  The acks
of all executions and the heartbeats on the wire, whenever they come, are under the same id. -/
theorem one_name (ρ : Type) :
    (∀ (o : Sync.Options) (s : Sync.SpooledWorker ρ),
      (Sync.system ρ o).Reachable System.always s →
      (s.log = [] ∨ ∃ requests ending, s.log = .register :: (requests ++ ending) ∧
        (∀ c ∈ requests, Sync.Call.Claims o s.name c) ∧
        (ending = [] ∨ ∃ w late, s.name = some w ∧ ending = .deregister w :: late ∧
          late.length ≤ 1 ∧ ∀ c ∈ late, Sync.Call.Claims o s.name c)) ∧
      ∀ (e : ℕ) (x : Sync.ActiveJob ρ), s.jobs[e]? = some x →
        (∀ c ∈ x.calls, s.name = some c.workerId) ∧
          ∀ w, x.beat.sender = some w → s.name = some w) ∧
    (∀ (o : Async.Options) (s : Async.SpooledWorker ρ),
      (Async.system ρ o).Reachable System.always s →
      (s.log = [] ∨ ∃ requests ending, s.log = .register :: (requests ++ ending) ∧
        (∀ c ∈ requests, Async.Call.Claims o s.name c) ∧
        (ending = [] ∨ ∃ w, s.name = some w ∧ ending = [.deregister w])) ∧
      ∀ (e : ℕ) (x : Async.ActiveJob ρ), s.jobs[e]? = some x →
        (∀ c ∈ x.calls, s.name = some c.workerId) ∧
          ∀ w, x.beat.sender = some w → s.name = some w) := by
  refine ⟨fun o s h => ⟨Sync.log_of_reachable h, fun e x hx => ?_⟩,
    fun o s h => ⟨Async.log_of_reachable h, fun e x hx => ?_⟩⟩
  · have hunder := Sync.under_of_reachable h hx
    refine ⟨hunder.calls, fun w hw => ?_⟩
    exact hunder.beat.elim (fun hnone => by rw [hnone] at hw; cases hw) fun heq => heq ▸ hw
  · have hunder := Async.under_of_reachable h hx
    refine ⟨hunder.calls, fun w hw => ?_⟩
    exact hunder.beat.elim (fun hnone => by rw [hnone] at hw; cases hw) fun heq => heq ▸ hw

/-- A poll that the wait of `stop()` has given up sends its claim behind the `deregister`; and the
asynchronous worker has sent an ack. -/
theorem one_name_sample :
    (∃ s : Sync.SpooledWorker ℕ, s.log = [.register, .deregister "w", .claim "q" "w" 1 30] ∧
      ∃ requests ending, s.log = .register :: (requests ++ ending) ∧
        ∀ c ∈ requests, Sync.Call.Claims Sync.sampleOptions s.name c) ∧
    ∃ (s : Async.SpooledWorker ℕ) (x : Async.ActiveJob ℕ), s.jobs[0]? = some x ∧
      x.calls = [⟨"j", "w", some "l", .complete 7⟩] ∧ ∀ c ∈ x.calls, s.name = some c.workerId := by
  have hrun : ((Sync.system ℕ Sync.sampleOptions).run (Sync.system ℕ Sync.sampleOptions).init
      [.main .go, .main (.registered "w"), .main .go, .main .go, .main .go,
        .stop (.call false), .stop .go, .stop .deadline, .stop .go, .stop .go, .stop .go,
        .stop .go, .stop .go, .stop .go, .stop .go, .main .go]).any
      (fun s => s.log = [.register, .deregister "w", .claim "q" "w" 1 30]) = true := by
    decide
  have hasync : ((Async.system ℕ Async.sampleOptions).run
      (Async.system ℕ Async.sampleOptions).init
      (Async.Action.claim [Async.sampleJob] ++ Async.Action.create ++
        Async.Action.handle 0 (.returned 7) ++ Async.Action.ack 0)).any
      (fun s => s.jobs[0]?.any fun x => x.calls = [⟨"j", "w", some "l", .complete 7⟩]) = true := by
    decide
  refine ⟨?_, ?_⟩
  · obtain ⟨s, hs, hp⟩ := System.exists_of_run hrun
    have hlog := of_decide_eq_true hp
    refine ⟨s, hlog, ?_⟩
    rcases ((one_name ℕ).1 Sync.sampleOptions s hs).1 with hempty | ⟨requests, ending, heq, hasks, -⟩
    · rw [hlog] at hempty
      cases hempty
    · exact ⟨requests, ending, heq, hasks⟩
  · obtain ⟨s, hs, hp⟩ := System.exists_of_run hasync
    obtain ⟨x, hx, hcalls⟩ := (Option.any_eq_true _ _).mp hp
    exact ⟨s, x, hx, of_decide_eq_true hcalls, (((one_name ℕ).2 Async.sampleOptions s hs).2 0 x hx).1⟩

end SpooledSdk.Worker
