/-
The life of the asynchronous worker: `start()`, `stop()` and the segments of the loop.

* `Life`, `life_of_reachable` — the shared attributes as the program counters of `start()`
  and `stop()` determine them;
* `abandoned_of_reachable` — which executions `stop()` has abandoned, and when;
* `segment_of_reachable` — a task inside a segment is the current one.
-/
import SpooledSdk.Worker.AsyncLease

namespace SpooledSdk.Worker.Async

variable {ρ : Type}

/-- `start()` has not reached its poll loop. -/
def MainPc.booting : MainPc → Bool
  | .idle | .registering | .registered _ | .registerFailed | .raised => true
  | _ => false

/-- `start()` awaits the answer to its registration, or has just got it. -/
def MainPc.starting : MainPc → Bool
  | .registering | .registered _ | .registerFailed => true
  | _ => false

/-- `_poll` has sent its claim. -/
def MainPc.claiming : MainPc → Bool
  | .claimWait _ | .jobs _ | .releaseWait _ _ | .releaseDone _ _ _ | .finish => true
  | _ => false

/-- `stop()` has not closed the intake. -/
def StopPc.intakeOpen : StopPc → Bool
  | .idle | .inflight | .drain | .drainWait => true
  | _ => false

/-- The execution `stop()` is abandoning. -/
def StopPc.current : StopPc → Option ℕ
  | .abandoning e _ => some e
  | _ => none

/-- The shared attributes as the two program counters determine them. -/
structure Life (s : SpooledWorker ρ) : Prop where
  boot : s.main.booting = true → s.jobs = [] ∧ s.stop = .idle ∧ s.state ≠ .running
  starting : s.main.starting = true → s.state = .starting
  stopping : s.stop ≠ .idle → s.state = if s.stop = .returned then .stopped else .stopping
  intake : s.intakeClosed = !s.stop.intakeOpen
  workerId : s.main.booting = false → s.stop ≠ .returned → s.workerId = s.registeredWorkerId
  polled : s.jobs ≠ [] ∨ s.main.claiming = true → (truthy s.registeredWorkerId).isSome = true

section

variable {s s' : SpooledWorker ρ} {e : ℕ} {x x' : ActiveJob ρ} {a : Action ρ} {o : Options}
  {ok : SpooledWorker ρ → Action ρ → Prop}

theorem Life.init (o : Options) : Life ({ options := o } : SpooledWorker ρ) where
  boot _ := ⟨rfl, rfl, by simp⟩
  starting h := by cases h
  stopping h := absurd rfl h
  intake := rfl
  workerId h := by cases h
  polled h := by
    rcases h with h | h
    · exact absurd rfl h
    · cases h

/-- Where executions exist, `start()` is past its boot. -/
theorem Life.booted (h : Life s) (hx : s.jobs[e]? = some x) : s.main.booting = false := by
  by_contra hb
  rw [(h.boot (by simpa using hb)).1] at hx
  cases hx

/-- Where executions exist, the id the worker registered with is known. -/
theorem Life.registered (h : Life s) (hx : s.jobs[e]? = some x) :
    ∃ w, truthy s.registeredWorkerId = some w := by
  refine Option.isSome_iff_exists.mp (h.polled (.inl fun hnil => ?_))
  rw [hnil] at hx
  cases hx

/-- While executions exist, the worker id is known until `stop()` removes it. -/
theorem Life.truthy_workerId (h : Life s) (hx : s.jobs[e]? = some x)
    (hs : s.stop ≠ .returned) : ∃ w, truthy s.workerId = some w := by
  rw [h.workerId (h.booted hx) hs]
  exact h.registered hx

/-- A poll that may release a job knows an id to release it with. -/
theorem Life.releaseId (h : Life s) (hx : s.jobs[e]? = some x) : s.releaseId ≠ none := by
  obtain ⟨w, hw⟩ := h.registered hx
  rw [SpooledWorker.releaseId, hw]
  cases truthy s.workerId <;> simp

/-- `stop()` begins to abandon executions after it has closed the intake. -/
theorem Life.early_of_open (h : Life s) (hi : s.intakeClosed = false) : s.stop.early = true := by
  have hin := h.intake
  rw [hi] at hin
  cases hs : s.stop <;> rw [hs] at hin <;> first | rfl | cases hin

/-- Steps of the executions and of the loop leave the shared attributes alone. -/
private theorem Life.keep (h : Life s) (hm : s'.main = s.main) (hst : s'.stop = s.stop)
    (hs : s'.state = s.state) (hi : s'.intakeClosed = s.intakeClosed)
    (hw : s'.workerId = s.workerId) (hr : s'.registeredWorkerId = s.registeredWorkerId)
    (hj : s'.jobs = [] ↔ s.jobs = []) : Life s' where
  boot := by rw [hm, hst, hs, hj]; exact h.boot
  starting := by rw [hm, hs]; exact h.starting
  stopping := by rw [hst, hs]; exact h.stopping
  intake := by rw [hst, hi]; exact h.intake
  workerId := by rw [hm, hst, hw, hr]; exact h.workerId
  polled := by rw [hm, hr, ne_eq, hj]; exact h.polled

/-- `start()` moves on in its poll loop. -/
private theorem Life.goto (h : Life s) (hst : s'.stop = s.stop) (hs : s'.state = s.state)
    (hi : s'.intakeClosed = s.intakeClosed) (hw : s'.workerId = s.workerId)
    (hr : s'.registeredWorkerId = s.registeredWorkerId) (hb : s.main.booting = false)
    (hb' : s'.main.booting = false) (hn : s'.main.starting = false)
    (hp : s'.jobs ≠ [] ∨ s'.main.claiming = true →
      (truthy s.registeredWorkerId).isSome = true) : Life s' where
  boot hn := by rw [hb'] at hn; cases hn
  starting hn' := by rw [hn] at hn'; cases hn'
  stopping := by rw [hst, hs]; exact h.stopping
  intake := by rw [hst, hi]; exact h.intake
  workerId _ := by rw [hst, hw, hr]; exact h.workerId hb
  polled := by rw [hr]; exact hp

/-- The worker boots: no execution exists and `stop()` has not begun. -/
private theorem Life.booting (hj : s'.jobs = []) (hst : s'.stop = .idle) (hs : s'.state ≠ .running)
    (hm : s'.main.booting = true) (hc : s'.main.claiming = false)
    (hstart : s'.main.starting = true → s'.state = .starting)
    (hi : s'.intakeClosed = false) : Life s' where
  boot _ := ⟨hj, hst, hs⟩
  starting := hstart
  stopping hn := absurd hst hn
  intake := by rw [hi, hst]; rfl
  workerId hn := by rw [hm] at hn; cases hn
  polled hn := by
    rcases hn with hn | hn
    · exact absurd hj hn
    · rw [hc] at hn
      cases hn

private theorem Life.main {act : MainAction} (h : Life s)
    (hstep : SpooledWorker.MainStep s act s') : Life s' := by
  have hclaiming : s.main.claiming = true → (truthy s.registeredWorkerId).isSome = true :=
    fun hp => h.polled (.inr hp)
  have hboot : s.main.booting = true → s.jobs = [] ∧ s.stop = .idle ∧ s.state ≠ .running ∧
      s.intakeClosed = false := by
    intro hb
    obtain ⟨hj, hst, hs⟩ := h.boot hb
    exact ⟨hj, hst, hs, by rw [h.intake, hst]; rfl⟩
  cases hstep with
  | start hc hm hs =>
    obtain ⟨hj, hst, -⟩ := hboot (by rw [hm]; rfl)
    exact .booting hj hst (by simp) rfl rfl (fun _ => rfl) rfl
  | answered hc hm | refused hc hm =>
    obtain ⟨hj, hst, hs, hi⟩ := hboot (by rw [hm]; rfl)
    exact .booting hj hst hs rfl rfl (fun _ => h.starting (by rw [hm]; rfl)) hi
  | registerFailed hc hm =>
    obtain ⟨hj, hst, hs, hi⟩ := hboot (by rw [hm]; rfl)
    exact .booting hj hst (by simp) rfl rfl nofun hi
  | register hc hm =>
    obtain ⟨hj, hst, hs, hi⟩ := hboot (by rw [hm]; rfl)
    refine ⟨nofun, nofun, fun hn => absurd hst hn, h.intake, fun _ _ => rfl, fun hn => ?_⟩
    rcases hn with hn | hn
    · exact absurd hj hn
    · cases hn
  | leave hc hm hs hpc =>
    rcases hpc with rfl | rfl
    · exact h.goto rfl rfl rfl rfl rfl (by rw [hm]; rfl) rfl rfl
        fun hn => h.polled (hn.imp_right nofun)
    · exact h.goto rfl rfl rfl rfl rfl (by rw [hm]; rfl) rfl rfl
        fun hn => h.polled (hn.imp_right nofun)
  | poll hc hm hs hw hn =>
    refine h.goto rfl rfl rfl rfl rfl (by rw [hm]; rfl) rfl rfl fun _ => ?_
    -- a running worker has not been stopped, so its id is the registered one
    have hret : s.stop ≠ .returned := by
      intro hret
      have hst := h.stopping (by rw [hret]; simp)
      rw [hs, hret] at hst
      cases hst
    rw [← h.workerId (by rw [hm]; rfl) hret, hw]
    rfl
  | claimed hc hm =>
    exact h.goto rfl rfl rfl rfl rfl (by rw [hm]; rfl) rfl rfl fun _ => hclaiming (by rw [hm]; rfl)
  | skip _ hm | resume _ hm | woken _ hm _ | left _ hm | finish _ hm =>
    exact h.goto rfl rfl rfl rfl rfl (by rw [hm]; rfl) rfl rfl
      fun hn => h.polled (hn.imp_right nofun)
  | send _ hm _ | claimFailed _ hm | last _ hm | unreleased _ hm _ _ _ | release _ hm _ _ _
  | enter _ hm _ _ | releaseReplied _ hm | released _ hm _ =>
    exact h.goto rfl rfl rfl rfl rfl (by rw [hm]; rfl) rfl rfl fun _ => hclaiming (by rw [hm]; rfl)

/-- `stop()` moves on; `start()` is past its boot. -/
private theorem Life.stopGoto (h : Life s) (hne : s.stop ≠ .idle) (hm : s'.main = s.main)
    (hs : s'.state = if s'.stop = .returned then .stopped else .stopping)
    (hi : s'.intakeClosed = !s'.stop.intakeOpen)
    (hw : s'.stop ≠ .returned → s.stop ≠ .returned ∧ s'.workerId = s.workerId)
    (hr : s'.registeredWorkerId = s.registeredWorkerId) (hj : s'.jobs = [] ↔ s.jobs = []) :
    Life s' where
  boot hn := by rw [hm] at hn; exact absurd (h.boot hn).2.1 hne
  starting hn := by
    rw [hm] at hn
    refine absurd (h.boot ?_).2.1 hne
    cases hpc : s.main <;> rw [hpc] at hn <;> first | rfl | cases hn
  stopping _ := hs
  intake := hi
  workerId hb hn := by
    obtain ⟨hn, hw⟩ := hw hn
    rw [hw, hr]
    rw [hm] at hb
    exact h.workerId hb hn
  polled hn := by rw [hm, ne_eq, hj] at hn; rw [hr]; exact h.polled hn

private theorem Life.stop {act : StopAction} (h : Life s)
    (hstep : SpooledWorker.StopStep s act s') : Life s' := by
  -- what the place of a running `stop()` says, and a move to a place that says the same
  have hat : ∀ {pc pc' : StopPc} {t : SpooledWorker ρ}, s.stop = pc → pc ≠ .idle →
      pc ≠ .returned → t.stop = pc' → pc' ≠ .returned → pc'.intakeOpen = pc.intakeOpen →
      t.main = s.main → t.state = s.state → t.intakeClosed = s.intakeClosed →
      t.workerId = s.workerId → t.registeredWorkerId = s.registeredWorkerId →
      (t.jobs = [] ↔ s.jobs = []) → Life t := by
    rintro pc pc' t rfl hne hret rfl hret' hopen hm hs hi hw hr hj
    refine h.stopGoto hne hm ?_ ?_ (fun _ => ⟨hret, hw⟩) hr hj
    · rw [hs, h.stopping hne, if_neg hret, if_neg hret']
    · rw [hi, h.intake, hopen]
  cases hstep with
  | callInflight hc hr hs | call hc hr hs =>
    have hb : s.main.booting = false := by
      by_contra hb
      exact (h.boot (by simpa using hb)).2.2 hr
    have hin := h.intake
    rw [hs] at hin
    refine ⟨fun hn => ?_, fun hn => ?_, fun _ => rfl, hin,
      fun _ _ => h.workerId hb (by rw [hs]; simp), h.polled⟩
    · rw [show s.main.booting = true from hn] at hb
      cases hb
    · have hst := h.starting hn
      rw [hr] at hst
      cases hst
  | ignored => exact h.keep rfl rfl rfl rfl rfl rfl .rfl
  | woken hc hs =>
    cases hpc : s.stop <;> rw [hpc] at hs <;> cases hs <;>
      exact hat hpc nofun nofun rfl nofun rfl rfl rfl rfl rfl rfl .rfl
  | wait hc hs | forced hc hs _ | forcedAll hc hs _ | snapshot hc hs | abandoned hc hs
  | ended hc hs _ _ | abort hc hs _ _ | deregister hc hs _ | noWorker hc hs =>
    exact hat hs nofun nofun rfl nofun rfl rfl rfl rfl rfl rfl .rfl
  | force hc hs hx | begin hc hs hx =>
    exact hat hs nofun nofun rfl nofun rfl rfl rfl rfl rfl rfl (List.set_eq_nil_iff _ _)
  | close hc hs =>
    have hst := h.stopping (by rw [hs]; simp)
    rw [hs] at hst
    exact h.stopGoto (by rw [hs]; simp) rfl hst rfl (fun _ => ⟨by rw [hs]; simp, rfl⟩) rfl .rfl
  | finishing hc hs =>
    have hin := h.intake
    rw [hs] at hin
    exact h.stopGoto (by rw [hs]; simp) rfl rfl hin (fun hn => absurd rfl hn) rfl .rfl

theorem Life.step (h : Life s) (hstep : s.step a = some s') : Life s' := by
  cases a with
  | main act => exact h.main (SpooledWorker.main_of_step hstep)
  | stop act => exact h.stop (SpooledWorker.stop_of_step hstep)
  | job i act =>
    obtain ⟨-, y, y', eff, hy, -, rfl⟩ := SpooledWorker.job_of_step hstep
    exact h.keep rfl rfl rfl rfl rfl rfl (List.set_eq_nil_iff _ _)
  | run =>
    obtain ⟨-, t, rest, -, rfl⟩ := SpooledWorker.run_of_step hstep
    exact h.keep rfl rfl rfl rfl rfl rfl .rfl

theorem life_of_reachable (h : (system ρ o).Reachable ok s) : Life s :=
  h.invariant (.init o) fun _ _ _ hl _ hstep => hl.step hstep

/-! ### Which executions `stop()` has abandoned -/

/-- `_abandon_job` has dropped the entry of the execution. -/
def AbandonPc.dropped : AbandonPc → Bool
  | .closing | .over | .crashed => true
  | _ => false

/-- What `stop()` has done to an execution, and what it has yet to do. -/
structure Abandoned (s : SpooledWorker ρ) (e : ℕ) (x : ActiveJob ρ) : Prop where
  active : x.stopper.active = true → s.stop.current = some e
  dropped : x.stopper.dropped = true → x.tracked = false
  left : x.tracked = true → s.stop.early = false → s.stop ≠ .aborted →
    e ∈ s.stop.todo ∨ s.stop.current = some e

theorem stop_of_main {act : MainAction} (h : SpooledWorker.MainStep s act s') :
    s'.stop = s.stop := by
  cases h <;> rfl

/-- The worker moves on, and `stop()` stays where it is. -/
private theorem Abandoned.keep (h : Abandoned s e x) (hs : s'.stop = s.stop) :
    Abandoned s' e x where
  active := by rw [hs]; exact h.active
  dropped := h.dropped
  left := by rw [hs]; exact h.left

/-- `stop()` moves to a place that says no more of the execution. -/
private theorem Abandoned.stop {act : StopAction} (h : Abandoned s e x) (hwf : Wf s)
    (hx : s.jobs[e]? = some x) (hstep : SpooledWorker.StopStep s act s') : Abandoned s' e x := by
  -- while no execution is being abandoned, none is active
  have hidle : s.stop.current = none → ¬ x.stopper.active = true := by
    intro hc ha
    rw [h.active ha] at hc
    cases hc
  have hearly : s.stop.current = none → s'.stop.early = true → Abandoned s' e x :=
    fun hc he => ⟨fun ha => absurd ha (hidle hc), h.dropped,
      fun _ hl => absurd (he.symm.trans hl) (by simp)⟩
  have hlate : s.stop.current = none → s.stop.todo = [] → s.stop.early = false →
      s.stop ≠ .aborted → Abandoned s' e x := by
    refine fun hc ht he ha => ⟨fun hact => absurd hact (hidle hc), h.dropped, fun htr _ _ => ?_⟩
    rcases h.left htr he ha with hm | hcur
    · rw [ht] at hm
      cases hm
    · rw [hc] at hcur
      cases hcur
  -- the one execution that is being abandoned is over
  have hover : ∀ {i todo y}, s.stop = .abandoning i todo → s.jobs[i]? = some y →
      y.stopper.dropped = true → y.stopper.active = false → s.stop.current = some e →
      x.stopper.active = false ∧ x.tracked = false := by
    intro i todo y hs hy hd ha hc
    rw [hs] at hc
    obtain rfl : i = e := Option.some_inj.mp hc
    rw [hx, Option.some_inj] at hy
    exact ⟨hy ▸ ha, h.dropped (hy ▸ hd)⟩
  cases hstep with
  | callInflight _ _ hs | call _ _ hs | wait _ hs | close _ hs | forced _ hs | forcedAll _ hs
  | force _ hs => exact hearly (by rw [hs]; rfl) rfl
  | ignored => exact h.keep rfl
  | woken hc hs =>
    cases hpc : s.stop <;> rw [hpc] at hs <;> cases hs <;>
      first
      | exact hearly (by rw [hpc]; rfl) rfl
      | exact hlate (by rw [hpc]; rfl) (by rw [hpc]; rfl) (by rw [hpc]; rfl) (by rw [hpc]; simp)
  | snapshot hc hs =>
    refine ⟨fun ha => absurd ha (hidle (by rw [hs]; rfl)), h.dropped, fun ht _ _ => .inl ?_⟩
    exact Dict.mem_values_iff.mpr ⟨_, hwf.indexed.entry hx ht⟩
  | abandoned _ hs | deregister _ hs _ | noWorker _ hs | finishing _ hs =>
    exact hlate (by rw [hs]; rfl) (by rw [hs]; rfl) (by rw [hs]; rfl) (by rw [hs]; simp)
  | @begin i todo y hc hs hy =>
    refine ⟨fun ha => absurd ha (hidle (by rw [hs]; rfl)), h.dropped, fun ht _ _ => ?_⟩
    rcases h.left ht (by rw [hs]; rfl) (by rw [hs]; simp) with hm | hcur
    · rw [hs] at hm
      rcases List.mem_cons.mp hm with rfl | hm
      · exact .inr rfl
      · exact .inl hm
    · rw [hs] at hcur
      cases hcur
  | ended hc hs hy ho =>
    have ho := fun hc => hover hs hy (by rw [ho]; rfl) (by rw [ho]; rfl) hc
    refine ⟨fun ha => ?_, h.dropped, fun ht _ _ => ?_⟩
    · rw [(ho (h.active ha)).1] at ha
      cases ha
    · rcases h.left ht (by rw [hs]; rfl) (by rw [hs]; simp) with hm | hcur
      · rw [hs] at hm
        exact .inl hm
      · rw [(ho hcur).2] at ht
        cases ht
  | abort hc hs hy ho =>
    have ho := fun hc => hover hs hy (by rw [ho]; rfl) (by rw [ho]; rfl) hc
    refine ⟨fun ha => ?_, h.dropped, fun _ _ hn => absurd rfl hn⟩
    rw [(ho (h.active ha)).1] at ha
    cases ha

/-- Where `stop()` stands says what it has done to each execution. -/
theorem abandoned_of_reachable (h : (system ρ o).Reachable ok s) (hx : s.jobs[e]? = some x) :
    Abandoned s e x := by
  refine forall_jobs_in (P := Abandoned)
    (fun _ _ _ _ => ⟨by rintro ⟨⟩, by rintro ⟨⟩, by rintro ⟨⟩⟩) ?_ ?_ h hx
  · intro s a s' e x hr _ hstep hx _ hP
    cases a with
    | main act => exact hP.keep (stop_of_main (SpooledWorker.main_of_step hstep))
    | stop act => exact hP.stop (wf_of_reachable hr) hx (SpooledWorker.stop_of_step hstep)
    | job i act =>
      obtain ⟨-, y, y', eff, hy, -, rfl⟩ := SpooledWorker.job_of_step hstep
      exact hP.keep rfl
    | run =>
      obtain ⟨-, t, rest, -, rfl⟩ := SpooledWorker.run_of_step hstep
      exact hP.keep rfl
  · intro s a s' e x x' hr _ hstep hx hx' hP hm
    have hwf := wf_of_reachable hr
    -- a job the poll has not registered is nobody's
    have hblank : x.proc.unstarted = true → x'.stopper = x.stopper → x'.tracked = x.tracked →
        Abandoned s' e x' := by
      intro hu hs ht
      have hb := hwf.blank hx hu
      rw [hb.stopper] at hs
      rw [hb.tracked] at ht
      exact ⟨by rw [hs]; rintro ⟨⟩, by rw [hs]; rintro ⟨⟩, by rw [ht]; rintro ⟨⟩⟩
    cases hm with
    | @next act _ eff hp h =>
      have hf := h.frame
      obtain ⟨-, y, y', eff', hy, -, rfl⟩ := SpooledWorker.job_of_step hstep
      have htr : x'.tracked = true → x.tracked = true := by
        intro ht
        cases hl : eff.leave with
        | true => rw [hf.leaves hl] at ht; cases ht
        | false => rw [← hf.stays hl, ht]
      have hkeep : x'.stopper = x.stopper → x'.stopper.dropped = true → x'.tracked = false := by
        intro hs hd
        have := hP.dropped (hs ▸ hd)
        by_contra hn
        rw [htr (by simpa using hn)] at this
        cases this
      refine ⟨fun ha => ?_, ?_, fun ht => hP.left (htr ht)⟩
      · rcases hf.stopper with hs | hk
        · exact hP.active (hs ▸ ha)
        · have hact := hf.acts
          rw [hk] at hact
          exact hP.active hact
      · rcases hf.stopper with hs | hk
        · exact hkeep hs
        · cases h with
          | stopDenied | stopGranted | stopReported => rintro ⟨⟩
          | @stopReplied _ _ _ q | @stopSend _ _ _ q =>
            intro hd
            cases q <;> cases hd
          | stopCleanup =>
            obtain ⟨w, hw⟩ := x.cleanupJob_eq
            rw [hw]
            exact fun _ => rfl
          | stopClosed h =>
            exact fun _ => hP.dropped (by rw [h]; rfl)
          | woken h => cases h <;> exact hkeep rfl
          | _ => cases hk
    | registered hm hi ht =>
      have hb := hwf.blank hx (by rw [ht]; rfl)
      have hs : s'.stop = s.stop := stop_of_main (SpooledWorker.main_of_step hstep)
      refine ⟨fun ha => ?_, fun hd => ?_, fun _ he => ?_⟩
      · have ha : x.stopper.active = true := ha
        rw [hb.stopper] at ha
        cases ha
      · have hd : x.stopper.dropped = true := hd
        rw [hb.stopper] at hd
        cases hd
      · rw [hs, ((life_of_reachable hr).early_of_open hi)] at he
        cases he
    | displaced =>
      have hs : s'.stop = s.stop := stop_of_main (SpooledWorker.main_of_step hstep)
      exact ⟨by rw [hs]; exact hP.active, fun _ => rfl, by rintro ⟨⟩⟩
    | unreleased _ _ _ ht | release _ _ _ ht | released _ ht =>
      exact hblank (by rw [ht]; rfl) rfl rfl
    | forced hc hs =>
      obtain ⟨-, hgo⟩ := SpooledWorker.stopGo_of_step hstep
      rw [hs, SpooledWorker.stopGo, hx] at hgo
      cases hgo
      obtain ⟨w, hw⟩ := x.forceFail_eq
      rw [hw]
      refine ⟨fun ha => ?_, hP.dropped, by rintro _ ⟨⟩⟩
      have hcur := hP.active ha
      rw [hs] at hcur
      cases hcur
    | begun hc hs ht =>
      obtain ⟨-, hgo⟩ := SpooledWorker.stopGo_of_step hstep
      rw [hs, SpooledWorker.stopGo, hx] at hgo
      cases hgo
      exact ⟨fun _ => rfl, by rintro ⟨⟩, fun _ _ _ => .inr rfl⟩

/-! ### Inside a segment -/

/-- `process_task` goes on without an `await`. -/
def ProcPc.mid : ProcPc ρ → Bool
  | .settling _ | .cleanup => true
  | .sending _ _ pc => pc ≠ .wait
  | _ => false

/-- The heartbeat task goes on without an `await`. -/
def BeatPc.mid : BeatPc → Bool
  | .lose | .report => true
  | _ => false

/-- `_abandon_job` goes on without an `await`. -/
def AbandonPc.mid : AbandonPc → Bool
  | .settling | .cleanup => true
  | .sending _ pc => pc ≠ .wait
  | _ => false

/-- The task of this kind is inside a segment.  The handler's own segments are not counted. -/
def ActiveJob.mid (x : ActiveJob ρ) : Kind → Bool
  | .proc => x.proc.mid
  | .inner => false
  | .beat => x.beat.mid
  | .stop => x.stopper.mid

theorem AbandonPc.active_of_mid {pc : AbandonPc} (h : pc.mid = true) : pc.active = true := by
  cases pc <;> first | rfl | cases h

theorem Kind.task_inj {k k' : Kind} (h : k.task e = k'.task e) : k = k' := by
  cases k <;> cases k' <;> first | rfl | cases h

/-- Executions share no task but `stop()`. -/
theorem Kind.task_cases {i : ℕ} {k q : Kind} (h : k.task i = q.task e) :
    i = e ∨ (k = .stop ∧ q = .stop) := by
  cases k <;> cases q <;> cases h <;> first | exact .inl rfl | exact .inr ⟨rfl, rfl⟩

namespace ActiveJob

variable {v : View} {act : JobAction ρ} {eff : Effect} {k : Kind}

/-- A task that suspends is not inside a segment. -/
theorem Next.mid_of_yields (h : Next v x act x' eff) (hy : eff.yields = true) :
    x'.mid act.kind = false := by
  cases h with
  | @send k w pc y q _ _ hs | @stopSend w pc y q _ _ hs =>
    obtain rfl : pc = .send := by simpa using hy
    cases hs
    rfl
  | cleanup =>
    show (if _ then _ else _ : ProcPc ρ).mid = false
    split <;> rfl
  | stopCleanup =>
    show (if _ then _ else _ : AbandonPc).mid = false
    rw [if_pos (show x.beat.alive = true from hy)]
    rfl
  | beatTimer =>
    show (Option.elim _ _ _ : BeatPc).mid = false
    cases x.beats v <;> rfl
  | awaits h =>
    show x.proc.mid = false
    rw [h]
    rfl
  | never | startInner | closed | innerNever | beatCancelled | beatStart | beatOk | beatCrash
  | beatError | beatAlreadyLost | beatReported | innerAwaits | innerEnds => rfl
  | _ => cases hy

/-- A step brings no other task into a segment. -/
theorem Frame.mid_other (h : Frame x act x' eff) (hk : act.kind ≠ k) (hm : x'.mid k = true) :
    x.mid k = true := by
  cases k with
  | proc =>
    rcases h.proc with heq | ⟨hk', -⟩
    · exact (congrArg ProcPc.mid heq).symm.trans hm
    · exact absurd hk' hk
  | inner => cases hm
  | beat =>
    rcases h.beat with heq | hk' | ⟨-, -, hb⟩
    · exact (congrArg BeatPc.mid heq).symm.trans hm
    · exact absurd hk' hk
    · rw [mid, hb] at hm
      cases hm
  | stop =>
    rcases h.stopper with heq | hk'
    · exact (congrArg AbandonPc.mid heq).symm.trans hm
    · exact absurd hk' hk

/-- A wake-up brings no task into a segment. -/
theorem Next.mid_of_wake {k' : Kind} {w : Wake} (h : Next v x (.wake k' w) x' eff)
    (hm : x'.mid k = true) : x.mid k = true := by
  cases h with
  | woken => cases k' <;> exact hm

end ActiveJob

/-- Steps of `start()` and outside any segment leave no task inside one. -/
theorem current_of_main {act : MainAction} (h : SpooledWorker.MainStep s act s') :
    s.current = none ∨ s.current = some .main := by
  cases h with
  | start hc | answered hc | refused hc | send hc | claimed hc | claimFailed hc
  | releaseReplied hc | resume hc | woken hc => exact .inl hc
  | register hc | registerFailed hc | skip hc | leave hc | poll hc | last hc | unreleased hc
  | release hc | enter hc | released hc | finish hc | left hc => exact .inr hc

/-- A task inside a segment is the current one. -/
def Segment (s : SpooledWorker ρ) (e : ℕ) (x : ActiveJob ρ) : Prop :=
  ∀ k, x.mid k = true → s.current = some (k.task e)

private theorem Segment.not_main {act : MainAction} {k : Kind} (h : Segment s e x)
    (hm : x.mid k = true) (hstep : SpooledWorker.MainStep s act s') : False := by
  rcases current_of_main hstep with hc | hc
  · rw [h k hm] at hc
    cases hc
  · rw [h k hm] at hc
    cases k <;> cases hc

/-- What the step of a task leaves of the segments of the execution it belongs to. -/
private theorem Segment.job {act : JobAction ρ} {eff : Effect} (h : Segment s e x)
    (hp : s.permits e act = true) (hn : ActiveJob.Next (s.view e x) x act x' eff) :
    Segment (s.apply e x' eff) e x' := by
  intro k hm
  -- a step that is not a wake-up belongs to the current task
  have hrun : s.current = some (act.kind.task e) →
      (s.apply e x' eff).current = some (k.task e) := by
    intro hc
    by_cases hk : act.kind = k
    · subst hk
      have hy : eff.yields = false := by
        by_contra hy
        rw [hn.mid_of_yields (by simpa using hy)] at hm
        cases hm
      show (if eff.yields then none else s.current) = _
      rw [hy]
      exact hc
    · have hcur := h k (hn.frame.mid_other hk hm)
      rw [hc, Option.some_inj] at hcur
      exact absurd (Kind.task_inj hcur) hk
  rcases current_of_permits hp with hc | ⟨hc, k', w, rfl⟩
  · exact hrun hc
  · have hcur := h k (hn.mid_of_wake hm)
    rw [hc] at hcur
    cases hcur

theorem segment_of_reachable (h : (system ρ o).Reachable ok s) (hx : s.jobs[e]? = some x) :
    Segment s e x := by
  have hblank : ∀ {y : ActiveJob ρ} {k : Kind}, y.proc.mid = false → y.beat = .none →
      y.stopper = .idle → ¬ y.mid k = true := by
    intro y k hp hb hs hm
    cases k with
    | proc => exact absurd (hp.symm.trans hm) nofun
    | inner => cases hm
    | beat => rw [ActiveJob.mid, hb] at hm; cases hm
    | stop => rw [ActiveJob.mid, hs] at hm; cases hm
  refine forall_jobs_in (P := Segment)
    (fun _ _ _ _ k hm => absurd hm (hblank rfl rfl rfl)) ?_ ?_ h hx
  · intro s a s' e x hr _ hstep hx hx' hP
    cases a with
    | main act =>
      exact fun k hm => (hP.not_main hm (SpooledWorker.main_of_step hstep)).elim
    | run =>
      obtain ⟨hc, t, rest, -, rfl⟩ := SpooledWorker.run_of_step hstep
      intro k hm
      have hcur := hP k hm
      rw [hc] at hcur
      cases hcur
    | stop act =>
      intro k hm
      have hcur := hP k hm
      -- a step of `stop()` that leaves the execution alone is not inside `_abandon_job`
      have hstop : s.current = some .stop → s.stop.current = some e ∧ x.stopper.mid = true := by
        intro hc
        have hk : k = .stop := by
          rw [hcur] at hc
          cases k <;> first | rfl | cases hc
        subst hk
        exact ⟨(abandoned_of_reachable hr hx).active (AbandonPc.active_of_mid hm), hm⟩
      cases SpooledWorker.stop_of_step hstep with
      | callInflight hc | call hc | ignored hc | woken hc =>
        rw [hc] at hcur
        cases hcur
      | wait hc hs | close hc hs | forced hc hs | forcedAll hc hs | force hc hs | snapshot hc hs
      | abandoned hc hs | begin hc hs | deregister hc hs | noWorker hc hs | finishing hc hs =>
        have habandon := (hstop hc).1
        rw [hs] at habandon
        cases habandon
      | ended hc hs hy ho | abort hc hs hy ho =>
        obtain ⟨habandon, hmid⟩ := hstop hc
        rw [hs] at habandon
        obtain rfl := Option.some_inj.mp habandon
        rw [hx, Option.some_inj] at hy
        rw [hy, ho] at hmid
        cases hmid
    | job i act =>
      obtain ⟨hp, y, y', eff, hy, hnext, rfl⟩ := SpooledWorker.job_of_step hstep
      rcases List.getElem?_set_cases hx' with ⟨rfl, rfl⟩ | ⟨hie, -⟩
      · rw [hx, Option.some_inj] at hy
        subst hy
        exact hP.job hp hnext
      · intro k hm
        have hcur := hP k hm
        -- the tasks of two executions are two, unless both are `stop()`, which abandons one
        rcases current_of_permits hp with hc | ⟨hc, -⟩
        · rw [hc, Option.some_inj] at hcur
          have hact := hnext.frame.acts
          obtain ⟨hk, rfl⟩ := (Kind.task_cases hcur).resolve_left hie
          rw [hk] at hact
          have h₁ := (abandoned_of_reachable hr hy).active hact
          have h₂ := (abandoned_of_reachable hr hx).active (AbandonPc.active_of_mid hm)
          rw [h₁, Option.some_inj] at h₂
          exact absurd h₂ hie
        · rw [hc] at hcur
          cases hcur
  · intro s a s' e x x' hr _ hstep hx hx' hP hm
    have hwf := wf_of_reachable hr
    have hnot : ∀ {y : ActiveJob ρ}, x.proc.unstarted = true → y.proc.mid = false →
        y.beat = x.beat → y.stopper = x.stopper → Segment s' e y := by
      intro y hu hp hb hs k hm
      have hbl := hwf.blank hx hu
      exact absurd hm (hblank hp (hb.trans hbl.beat) (hs.trans hbl.stopper))
    cases hm with
    | next =>
      obtain ⟨hp, y, y', eff, hy, hnext, rfl⟩ := SpooledWorker.job_of_step hstep
      rw [hx, Option.some_inj] at hy
      subst hy
      rcases List.getElem?_set_cases hx' with ⟨-, rfl⟩ | ⟨hne, -⟩
      · exact hP.job hp hnext
      · exact absurd rfl hne
    | registered _ _ ht | unreleased _ _ _ ht | release _ _ _ ht | released _ ht =>
      exact hnot (by rw [ht]; rfl) rfl rfl rfl
    | displaced =>
      exact fun k hm => (hP.not_main (k := k) hm (SpooledWorker.main_of_step hstep)).elim
    | forced hc hs =>
      obtain ⟨w, hw⟩ := x.forceFail_eq
      intro k hm
      have hm : x.mid k = true := by
        rw [hw] at hm
        cases k <;> exact hm
      have hcur := hP k hm
      rw [hc] at hcur
      cases k with
      | stop =>
        have := (abandoned_of_reachable hr hx).active (AbandonPc.active_of_mid hm)
        rw [hs] at this
        cases this
      | _ => cases hcur
    | begun hc hs ht =>
      obtain ⟨-, hgo⟩ := SpooledWorker.stopGo_of_step hstep
      rw [hs, SpooledWorker.stopGo, hx] at hgo
      cases hgo
      intro k hm
      cases k with
      | stop => exact hc
      | proc =>
        have hcur := hP .proc hm
        rw [hc] at hcur
        cases hcur
      | inner => cases hm
      | beat =>
        have hcur := hP .beat hm
        rw [hc] at hcur
        cases hcur

end

end SpooledSdk.Worker.Async
