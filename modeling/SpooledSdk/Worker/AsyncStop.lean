/-
Shutdown of the asynchronous worker.

* `stopped_for_good` — under `HeedsStop`, once a `stop()` has returned no claim is made or
  sent and the worker does not run again.
-/
import SpooledSdk.Worker.AsyncAck

namespace SpooledSdk.Worker.Async

variable {ρ : Type}

section

variable {s s' : SpooledWorker ρ} {e : ℕ} {x x' : ActiveJob ρ} {a : Action ρ} {o : Options}
  {ok : SpooledWorker ρ → Action ρ → Prop}

/-! ### After `stop()` has returned -/

/-- A `jobs.claim` request. -/
def Call.isClaim : Call → Bool
  | .claim .. => true
  | _ => false

/-- The pending claim call may still send its request. -/
def SpooledWorker.mayClaim (s : SpooledWorker ρ) : Bool :=
  match s.main with
  | .claimWait _ => s.sendsLeft ≠ 0
  | _ => false

/-- No `stop()` returns while `start()` is still registering, or during a claim call that may
still send its request; an `_abandon_job` that raises ends `stop()` as well. -/
def HeedsStop (s : SpooledWorker ρ) : Action ρ → Bool
  | .stop .callIgnored => s.state ≠ .starting && !s.mayClaim
  | .stop .go =>
    match s.stop with
    | .finishing => !s.mayClaim
    | .abandoning e _ => (s.jobs[e]?.all fun x => x.stopper ≠ .crashed) || !s.mayClaim
    | _ => true
  | _ => true

/-- The worker is past `start()`, sends no claim and will neither poll nor run again. -/
structure Halted (s : SpooledWorker ρ) : Prop where
  state : s.state ≠ .idle ∧ s.state ≠ .starting ∧ s.state ≠ .running
  quiet : s.mayClaim = false

/-- The claims of two states are the same: the calls, and the requests sent for them. -/
structure SameClaims (s s' : SpooledWorker ρ) : Prop where
  calls : s'.log.filter Call.isClaim = s.log.filter Call.isClaim
  sends : s'.claimSends = s.claimSends

theorem SameClaims.trans {s₁ s₂ s₃ : SpooledWorker ρ} (h : SameClaims s₁ s₂)
    (h' : SameClaims s₂ s₃) : SameClaims s₁ s₃ :=
  ⟨h'.calls.trans h.calls, h'.sends.trans h.sends⟩

theorem Halted.step (h : Halted s) (hl : Life s) (hstep : s.step a = some s') :
    Halted s' ∧ SameClaims s s' := by
  cases a with
  | job i act =>
    obtain ⟨-, y, y', eff, -, -, rfl⟩ := SpooledWorker.job_of_step hstep
    exact ⟨⟨h.state, h.quiet⟩, rfl, rfl⟩
  | run =>
    obtain ⟨-, t, rest, -, rfl⟩ := SpooledWorker.run_of_step hstep
    exact ⟨⟨h.state, h.quiet⟩, rfl, rfl⟩
  | stop act =>
    cases SpooledWorker.stop_of_step hstep with
    | callInflight _ hr | call _ hr => exact absurd hr h.state.2.2
    | finishing => exact ⟨⟨⟨nofun, nofun, nofun⟩, h.quiet⟩, rfl, rfl⟩
    | deregister => exact ⟨⟨h.state, h.quiet⟩, by simp [Call.isClaim], rfl⟩
    | _ => exact ⟨⟨h.state, h.quiet⟩, rfl, rfl⟩
  | main act =>
    have hquiet := h.quiet
    cases SpooledWorker.main_of_step hstep with
    | start _ _ hs => exact absurd hs h.state.1
    | register _ hm => exact absurd (hl.starting (by rw [hm]; rfl)) h.state.2.1
    | registerFailed => exact ⟨⟨⟨nofun, nofun, nofun⟩, rfl⟩, rfl, rfl⟩
    | poll _ _ hs => exact absurd hs h.state.2.2
    | send _ hm hn =>
      rw [SpooledWorker.mayClaim, hm] at hquiet
      exact absurd hquiet (by simp [hn])
    | leave _ _ _ hpc =>
      refine ⟨⟨h.state, ?_⟩, rfl, rfl⟩
      rcases hpc with rfl | rfl <;> rfl
    | _ => exact ⟨⟨h.state, rfl⟩, rfl, rfl⟩

/-- Once `start()` was entered the worker is not idle. -/
theorem state_ne_idle (h : (system ρ o).Reachable ok s) (hm : s.main ≠ .idle) :
    s.state ≠ .idle := by
  refine h.invariant (P := fun s : SpooledWorker ρ => s.main ≠ .idle → s.state ≠ .idle)
    (fun hn => absurd rfl hn) ?_ hm
  intro s a s' hP _ hstep hm
  replace hstep : s.step a = some s' := hstep
  cases a with
  | job i act =>
    obtain ⟨-, y, y', eff, -, -, rfl⟩ := SpooledWorker.job_of_step hstep
    exact hP hm
  | run =>
    obtain ⟨-, t, rest, -, rfl⟩ := SpooledWorker.run_of_step hstep
    exact hP hm
  | stop act =>
    cases SpooledWorker.stop_of_step hstep with
    | callInflight | call | finishing => simp
    | _ => exact hP hm
  | main act =>
    cases SpooledWorker.main_of_step hstep with
    | start | registerFailed | register => simp
    | answered _ hm' | refused _ hm' | skip _ hm' | leave _ hm' | poll _ hm' | send _ hm'
    | claimed _ hm' | claimFailed _ hm' | last _ hm' | unreleased _ hm' | release _ hm'
    | enter _ hm' | releaseReplied _ hm' | released _ hm' | finish _ hm' | resume _ hm'
    | woken _ hm' | left _ hm' => exact hP (by rw [hm']; simp)

theorem halted_of_reachable (h : (system ρ o).Reachable (fun s a => HeedsStop s a = true) s)
    (hs : s.stopReturned = true) : Halted s := by
  refine h.invariant_of (I := (system ρ o).Reachable fun s a => HeedsStop s a = true)
    (P := fun s : SpooledWorker ρ => s.stopReturned = true → Halted s) (fun _ => id) nofun ?_ hs
  intro s a s' hr hP ha hstep hs'
  replace hstep : s.step a = some s' := hstep
  have hl := life_of_reachable hr
  by_cases hs : s.stopReturned = true
  · exact ((hP hs).step hl hstep).1
  -- the step is the return of a `stop()` call
  cases a with
  | job i act =>
    obtain ⟨-, y, y', eff, -, -, rfl⟩ := SpooledWorker.job_of_step hstep
    exact absurd hs' hs
  | run =>
    obtain ⟨-, t, rest, -, rfl⟩ := SpooledWorker.run_of_step hstep
    exact absurd hs' hs
  | main act => cases SpooledWorker.main_of_step hstep <;> exact absurd hs' hs
  | stop act =>
    cases SpooledWorker.stop_of_step hstep with
    | ignored _ hrun hm =>
      have hne : s.state ≠ .idle := state_ne_idle hr hm
      simp only [HeedsStop, ne_eq, decide_not, Bool.and_eq_true, Bool.not_eq_true',
        decide_eq_false_iff_not] at ha
      exact ⟨⟨hne, ha.1, hrun⟩, ha.2⟩
    | abort _ hst hx ho =>
      have hquiet : s.mayClaim = false := by
        simpa [HeedsStop, hst, hx, ho] using ha
      have hstate := hl.stopping (by rw [hst]; simp)
      rw [hst] at hstate
      refine ⟨?_, hquiet⟩
      show s.state ≠ _ ∧ s.state ≠ _ ∧ s.state ≠ _
      rw [show s.state = .stopping from hstate]
      exact ⟨nofun, nofun, nofun⟩
    | finishing _ hst =>
      have hquiet : s.mayClaim = false := by
        simpa [HeedsStop, hst] using ha
      exact ⟨⟨nofun, nofun, nofun⟩, hquiet⟩
    | _ => exact absurd hs' hs

/-- Once a `stop()` has returned no claim is made or sent, and the worker does not run
again. -/
theorem stopped_for_good (h : (system ρ o).Reachable (fun s a => HeedsStop s a = true) s)
    (hs : s.stopReturned = true)
    (h' : (system ρ o).Reaches (fun s a => HeedsStop s a = true) s s') :
    s'.state ≠ .running ∧ SameClaims s s' := by
  have hP : Halted s' ∧ SameClaims s s' := by
    refine h.preserves_of (I := fun t => Life t) (P := fun t => Halted t ∧ SameClaims s t)
      (fun _ => life_of_reachable) ?_ h' ⟨halted_of_reachable h hs, rfl, rfl⟩
    rintro t a t' hl ⟨hh, hsame⟩ _ hstep
    obtain ⟨hh', hsame'⟩ := hh.step hl hstep
    exact ⟨hh', hsame.trans hsame'⟩
  exact ⟨hP.1.state.2.2, hP.2⟩

end

end SpooledSdk.Worker.Async
