/-
The drain of the asynchronous worker.

* `stop_waits` — before the intake closes, `stop()` touches no execution;
* `own_outcome_of_ends` — under `DrainsResults` an execution whose handler ends before the
  intake closes sends its own outcome.
-/
import SpooledSdk.Worker.AsyncAck
import SpooledSdk.Worker.AsyncSlots

namespace SpooledSdk.Worker.Async

variable {ρ : Type}

/-- The process task has not come to its settlement. -/
def ProcPc.unasked : ProcPc ρ → Bool
  | .created | .handler | .waiting | .settling _ => true
  | _ => false

/-- The process task waits for an inner task that has finished with something to report. -/
def ActiveJob.unread (x : ActiveJob ρ) : Bool :=
  (x.proc matches .waiting) &&
    match x.inner with
    | .finished out => out.ack.isSome
    | _ => false

/-- `stop()` does not find its deadline passed between the end of an inner task and the step
that reports it. -/
def DrainsResults (s : SpooledWorker ρ) : Action ρ → Bool
  | .stop .deadline => s.jobs.all fun x => !x.unread || x.leaseLost || !x.tracked
  | _ => true

/-- A step of `stop()`, or of its `_abandon_job` on an execution. -/
def Action.ofStop : Action ρ → Bool
  | .stop _ | .job _ (.go .stop) => true
  | _ => false

section

variable {s s' : SpooledWorker ρ} {e : ℕ} {x x' : ActiveJob ρ} {a : Action ρ} {o : Options}
  {ok : SpooledWorker ρ → Action ρ → Prop}

/-! ### Before the intake closes -/

/-- Before the intake closes, `stop()` touches no execution. -/
theorem stop_waits (h : (system ρ o).Reachable ok s) (hopen : s.intakeClosed = false)
    (ha : a.ofStop = true) (hstep : s.step a = some s') : s'.jobs = s.jobs := by
  have hstop : s.stop.intakeOpen = true := by
    have := (life_of_reachable h).intake
    rw [hopen] at this
    simpa using this.symm
  cases a with
  | main act | run => cases ha
  | stop act =>
    cases SpooledWorker.stop_of_step hstep with
    | force _ hs | begin _ hs =>
      rw [hs] at hstop
      cases hstop
    | _ => rfl
  | job i act =>
    obtain ⟨-, y, y', eff, hy, hn, rfl⟩ := SpooledWorker.job_of_step hstep
    have hidle := (wf_of_reachable h).early ((life_of_reachable h).early_of_open hopen) hy
    cases hn with
    | stopDenied hs | stopGranted hs | stopReplied hs | stopReported hs | stopSend hs
    | stopCleanup hs | stopClosed hs =>
      rw [hidle] at hs
      cases hs
    | _ => cases ha

/-- What holds of an execution while the intake is open. -/
structure ActiveJob.Draining (x : ActiveJob ρ) : Prop where
  reason : x.cancelReason = none
  free : x.proc.unasked = true → x.settled = none
  held : x.proc.unasked = true → x.tracked = true ∨ x.replaced = true
  waited : x.inner.alive = true → x.proc = .waiting ∨ x.timedOut = true ∨ x.leaseLost = true

/-- While `stop()` stays away, a task that has not settled goes on unsettled and keeps its
entry. -/
private theorem unasked_of_next {v : View} {act : JobAction ρ} {eff : Effect}
    (h : ActiveJob.Next v x act x' eff) (hidle : x.stopper = .idle)
    (hu : x'.proc.unasked = true) :
    x.proc.unasked = true ∧ x'.settled = x.settled ∧ x'.tracked = x.tracked := by
  cases h with
  | startInner hp | startDirect hp => exact ⟨by rw [hp]; rfl, rfl, rfl⟩
  | waitCancelled hp =>
    obtain ⟨w, heq⟩ := ActiveJob.cancelInner_eq { x with procWake := none }
    rw [heq]
    exact ⟨by rw [hp]; rfl, rfl, rfl⟩
  | waitDone hp => exact ⟨by rw [hp]; rfl, rfl, rfl⟩
  | waitTimeout hp =>
    obtain ⟨w, heq⟩ := ActiveJob.cancelInner_eq { x with procWake := none }
    rw [heq]
    exact ⟨by rw [hp]; rfl, rfl, rfl⟩
  | @replied k w r y q | @send k w pc y q => cases q <;> cases hu
  | cleanup =>
    dsimp only at hu
    split at hu <;> cases hu
  | never | denied | granted | cut | reported | closed => cases hu
  | beatReported =>
    obtain ⟨w, heq⟩ := (x.reportLost "heartbeat").cancelProc_eq
    rw [heq] at hu ⊢
    exact ⟨hu, rfl, rfl⟩
  | stopDenied hs | stopGranted hs | stopReplied hs | stopReported hs | stopSend hs
  | stopCleanup hs | stopClosed hs =>
    rw [hidle] at hs
    cases hs
  | ends hp => exact ⟨by rw [hp]; rfl, rfl, rfl⟩
  | @woken k => cases k <;> exact ⟨hu, rfl, rfl⟩
  | _ => exact ⟨hu, rfl, rfl⟩

/-- An inner task is left running by a timeout or a lost lease only. -/
private theorem waited_of_next {v : View} {act : JobAction ρ} {eff : Effect}
    (h : ActiveJob.Next v x act x' eff) (hlost : x.procWake = some .cancelled → x.leaseLost = true)
    (hP : x.inner.alive = true → x.proc = .waiting ∨ x.timedOut = true ∨ x.leaseLost = true)
    (hi : x'.inner.alive = true) :
    x'.proc = .waiting ∨ x'.timedOut = true ∨ x'.leaseLost = true := by
  have hkeep : x'.proc = x.proc ∨ x.proc ≠ .waiting → x'.inner = x.inner →
      x'.timedOut = x.timedOut → (x.leaseLost = true → x'.leaseLost = true) →
      x'.proc = .waiting ∨ x'.timedOut = true ∨ x'.leaseLost = true := by
    intro hp hin ht hl
    rw [hin] at hi
    rcases hP hi with hw | hw | hw
    · rcases hp with hp | hp
      · exact .inl (hp.trans hw)
      · exact absurd hw hp
    · exact .inr (.inl (ht.trans hw))
    · exact .inr (.inr (hl hw))
  cases h with
  | startInner => exact .inl rfl
  | never hp | startDirect hp | denied hp | granted hp | cut hp | closed hp | ends hp =>
    exact hkeep (.inr (by rw [hp]; nofun)) rfl rfl id
  | waitCancelled _ hw =>
    obtain ⟨w, heq⟩ := ActiveJob.cancelInner_eq { x with procWake := none }
    rw [heq]
    exact .inr (.inr (hlost hw))
  | waitDone _ _ _ hfin =>
    rw [hfin] at hi
    cases hi
  | waitTimeout => exact .inr (.inl rfl)
  | replied hp _ hs | send hp _ hs =>
    exact hkeep (.inr (by rw [hp]; nofun)) hs.same.inner hs.same.timedOut hs.grows.2
  | reported hp =>
    obtain ⟨w, heq⟩ := (x.reportLost (ackOperation _)).cancelBeat_eq
    exact hkeep (.inr (by rw [hp]; nofun)) (by rw [heq]; rfl) (by rw [heq]; rfl)
      (by rw [heq]; exact id)
  | cleanup hp =>
    obtain ⟨w, heq⟩ := x.cleanupJob_eq
    exact hkeep (.inr (by rw [hp]; nofun)) (by rw [heq]) (by rw [heq]) (by rw [heq]; exact id)
  | innerNever | innerEnds => cases hi
  | innerStart hc | innerAwaits hc => exact hP (by rw [hc]; rfl)
  | beatLost => exact .inr (.inr rfl)
  | beatReported =>
    obtain ⟨w, heq⟩ := (x.reportLost "heartbeat").cancelProc_eq
    exact hkeep (.inl (by rw [heq]; rfl)) (by rw [heq]; rfl) (by rw [heq]; rfl)
      (by rw [heq]; exact id)
  | stopReplied _ _ hs | stopSend _ _ hs =>
    exact hkeep (.inl hs.same.proc) hs.same.inner hs.same.timedOut hs.grows.2
  | stopReported =>
    obtain ⟨w, heq⟩ := (x.reportLost "fail").cancelBeat_eq
    obtain ⟨w', heq'⟩ := (x.reportLost "fail").cancelBeat.1.cancelProc_eq
    exact hkeep (.inl (by rw [heq', heq]; rfl)) (by rw [heq', heq]; rfl)
      (by rw [heq', heq]; rfl) (by rw [heq', heq]; exact id)
  | stopCleanup =>
    obtain ⟨w, heq⟩ := x.cleanupJob_eq
    exact hkeep (.inl (by rw [heq])) (by rw [heq]) (by rw [heq]) (by rw [heq]; exact id)
  | @woken k => cases k <;> exact hkeep (.inl rfl) rfl rfl id
  | _ => exact hkeep (.inl rfl) rfl rfl id

theorem draining_of_reachable (h : (system ρ o).Reachable ok s) (hx : s.jobs[e]? = some x)
    (hopen : s.intakeClosed = false) : x.Draining := by
  refine forall_jobs_in (P := fun s _ x => s.intakeClosed = false → ActiveJob.Draining x)
    (fun _ _ _ _ _ => ⟨rfl, nofun, nofun, nofun⟩) ?_ ?_ h hx hopen
  · intro s a s' e x hr _ hstep hx _ hP hopen
    exact hP (intake_of_step (life_of_reachable hr) hstep hx hopen)
  · intro s a s' e x x' hr _ hstep hx hx' hP hm hopen
    have hl := life_of_reachable hr
    have hwf := wf_of_reachable hr
    have hopen' := intake_of_step hl hstep hx hopen
    have hD := hP hopen'
    have hidle := hwf.early (hl.early_of_open hopen') hx
    cases hm with
    | @next act x' eff hp hn =>
      have hlost : x.procWake = some .cancelled → x.leaseLost = true := fun hw =>
        (cancelled_of_reachable hr hx hw).resolve_right (by rw [hD.reason]; nofun)
      refine ⟨hn.frame.cancelReason.trans hD.reason, fun hu => ?_, fun hu => ?_, fun hi => ?_⟩
      · obtain ⟨hux, hset, -⟩ := unasked_of_next hn hidle hu
        exact hset.trans (hD.free hux)
      · obtain ⟨hux, -, ht⟩ := unasked_of_next hn hidle hu
        rw [ht, hn.frame.replaced]
        exact hD.held hux
      · exact waited_of_next hn hlost hD.waited hi
    | registered _ _ ht =>
      have hblank := hwf.blank hx (by rw [ht]; rfl)
      refine ⟨hD.reason, fun _ => hblank.settled, fun _ => .inl rfl, fun hi => ?_⟩
      rw [show ActiveJob.inner _ = x.inner from rfl, hblank.inner] at hi
      cases hi
    | displaced => exact ⟨hD.reason, hD.free, fun _ => .inr rfl, hD.waited⟩
    | unreleased _ hi | release _ hi =>
      rw [hopen'] at hi
      cases hi
    | released _ ht =>
      have hblank := hwf.blank hx (by rw [ht]; rfl)
      refine ⟨hD.reason, nofun, nofun, fun hi => ?_⟩
      rw [show ActiveJob.inner _ = x.inner from rfl, hblank.inner] at hi
      cases hi
    | forced _ hs | begun _ hs =>
      have := hl.intake
      rw [hopen', hs] at this
      cases this

/-! ### Its own outcome -/

/-- An execution whose handler has ended with ack `k` before the intake closed: it is lost or
replaced, has settled for `k`, or is about to. -/
def Own (s : SpooledWorker ρ) (k : Ack ρ) (x : ActiveJob ρ) : Prop :=
  x.leaseLost = true ∨ x.replaced = true ∨ x.settled = some (.runner, k) ∨
    (s.intakeClosed = false ∧ (x.proc = .settling k ∨
      x.proc = .waiting ∧ ∃ out : Outcome ρ, x.inner = .finished out ∧ out.ack = some k))

theorem afterHandler_of_ack {out : Outcome ρ} {k : Ack ρ} (h : out.ack = some k) :
    x.afterHandler out = .settling k := by
  unfold ActiveJob.afterHandler
  split
  · cases h
  · rw [h]
    rfl

/-- A step of an execution that is about to settle for `k` brings it nearer. -/
private theorem own_of_next {k : Ack ρ} {act : JobAction ρ} {eff : Effect}
    (hr : (system ρ o).Reachable ok s) (hx : s.jobs[e]? = some x)
    (hopen : s.intakeClosed = false) (hlost : x.leaseLost = false) (hrep : x.replaced = false)
    (hn : ActiveJob.Next (s.view e x) x act x' eff)
    (hP : x.proc = .settling k ∨
      x.proc = .waiting ∧ ∃ out : Outcome ρ, x.inner = .finished out ∧ out.ack = some k) :
    x'.leaseLost = true ∨ x'.settled = some (.runner, k) ∨ x'.proc = .settling k ∨
      x'.proc = .waiting ∧ ∃ out : Outcome ρ, x'.inner = .finished out ∧ out.ack = some k := by
  have hD := draining_of_reachable hr hx hopen
  have hun : x.proc.unasked = true := by
    rcases hP with hp | ⟨hp, -⟩ <;> rw [hp] <;> rfl
  have hfree := hD.free hun
  -- other tasks of the execution leave its process task and its outcome alone
  have hother : act.kind ≠ .proc → x'.proc = .settling k ∨
      x'.proc = .waiting ∧ ∃ out : Outcome ρ, x'.inner = .finished out ∧ out.ack = some k := by
    intro hk
    have hp := hn.frame.proc.resolve_right fun h => hk h.1
    rcases hP with hps | ⟨hpw, out, hi, hout⟩
    · exact .inl (hp.trans hps)
    · refine .inr ⟨hp.trans hpw, out, ?_, hout⟩
      rcases hn.frame.inner with hin | hkind | ⟨hc, -⟩
      · exact hin.trans hi
      · have := hn.frame.acts
        rw [hkind, ActiveJob.acting, hi] at this
        cases this
      · rw [hpw] at hc
        cases hc
  by_cases hk : act.kind = .proc
  · rcases hP with hp | ⟨hp, out, hi, hout⟩
    · cases hn with
      | granted hq =>
        rw [hp, ProcPc.settling.injEq] at hq
        exact .inr (.inl (by rw [hq]; rfl))
      | denied _ hc =>
        rcases ActiveJob.decided_iff.mp (decided_of_denied hr hx hc) with h | h | h
        · exact absurd hfree h
        · rw [hlost] at h
          cases h
        · rcases hD.held hun with h' | h'
          · rw [h] at h'
            cases h'
          · rw [hrep] at h'
            cases h'
      | @woken k' => cases k' <;> exact .inr (.inr (.inl hp))
      | never hq | startInner hq | startDirect hq | waitCancelled hq | waitDone hq
      | waitTimeout hq | cut hq | replied hq | reported hq | send hq | cleanup hq | closed hq
      | awaits hq | ends hq =>
        rw [hp] at hq
        cases hq
      | _ => cases hk
    · cases hn with
      | waitCancelled _ hw =>
        have := (cancelled_of_reachable hr hx hw).resolve_right (by simp [hD.reason])
        rw [hlost] at this
        cases this
      | waitDone _ _ _ hfin =>
        rw [hi, InnerPc.finished.injEq] at hfin
        exact .inr (.inr (.inl (afterHandler_of_ack (hfin ▸ hout))))
      | waitTimeout _ _ _ hfin => exact absurd hi (hfin out)
      | @woken k' => cases k' <;> exact .inr (.inr (.inr ⟨hp, out, hi, hout⟩))
      | never hq | startInner hq | startDirect hq | denied hq | granted hq | cut hq
      | replied hq | reported hq | send hq | cleanup hq | closed hq | awaits hq | ends hq =>
        rw [hp] at hq
        cases hq
      | _ => cases hk
  · exact .inr (.inr (hother hk))

/-- No step that stays clear of unread results closes the intake over one. -/
private theorem own_of_close {k : Ack ρ} (hr : (system ρ o).Reachable ok s)
    (ha : DrainsResults s a = true) (hstep : s.step a = some s') (hx : s.jobs[e]? = some x)
    (hopen : s.intakeClosed = false) (hlost : x.leaseLost = false) (hrep : x.replaced = false)
    (hP : x.proc = .settling k ∨
      x.proc = .waiting ∧ ∃ out : Outcome ρ, x.inner = .finished out ∧ out.ack = some k) :
    s'.intakeClosed = false := by
  cases a with
  | job i act =>
    obtain ⟨-, y, y', eff, -, -, rfl⟩ := SpooledWorker.job_of_step hstep
    exact hopen
  | run =>
    obtain ⟨-, t, rest, -, rfl⟩ := SpooledWorker.run_of_step hstep
    exact hopen
  | main act =>
    cases SpooledWorker.main_of_step hstep with
    | start => rfl
    | _ => exact hopen
  | stop act =>
    have hstep' := hstep
    cases SpooledWorker.stop_of_step hstep with
    | @close _ hc hs =>
      rcases hP with hp | ⟨hp, out, hi, hout⟩
      · -- a task that is about to settle is the current one
        have hcur := segment_of_reachable hr hx .proc (by rw [ActiveJob.mid, hp]; rfl)
        rw [hc] at hcur
        cases hcur
      · have hunread : x.unread = true := by
          rw [ActiveJob.unread, hp, hi]
          show out.ack.isSome = true
          rw [hout]
          rfl
        have ht : x.tracked = true :=
          ((draining_of_reachable hr hx hopen).held (by rw [hp]; rfl)).resolve_right
            (by simp [hrep])
        have hmem := List.mem_of_getElem? hx
        cases act with
        | deadline =>
          have := List.all_eq_true.mp ha x hmem
          rw [hunread, hlost, ht] at this
          cases this
        | go =>
          -- the drain ends before its deadline only when no task is left
          obtain ⟨-, hgo⟩ := SpooledWorker.stopGo_of_step hstep'
          have hrun : s.jobsRunning = true :=
            List.any_eq_true.mpr ⟨x, hmem, by rw [hp]; rfl⟩
          rw [hs, SpooledWorker.stopGo, if_pos hrun, Option.some_inj] at hgo
          rw [← hgo]
          exact hopen
        | call | callIgnored | wake =>
          exact absurd hstep' (by
            simp [SpooledWorker.step, SpooledWorker.stopStep, hc])
    | _ => exact hopen

theorem Move.replaced (h : Move s e x a x') (hrep : x.replaced = true) : x'.replaced = true := by
  cases h with
  | next _ hn => exact hn.frame.replaced.trans hrep
  | displaced => rfl
  | forced =>
    obtain ⟨w, heq⟩ := x.forceFail_eq
    rw [heq]
    exact hrep
  | _ => exact hrep

theorem own_of_reaches {k : Ack ρ}
    (h : (system ρ o).Reachable (fun s a => DrainsResults s a = true) s)
    (h' : (system ρ o).Reaches (fun s a => DrainsResults s a = true) s s')
    (hx : s.jobs[e]? = some x) (hP : Own s k x) : ∃ x', s'.jobs[e]? = some x' ∧ Own s' k x' := by
  refine h.preserves_of (I := (system ρ o).Reachable fun s a => DrainsResults s a = true)
    (P := fun t => ∃ y, t.jobs[e]? = some y ∧ Own t k y) (fun _ => id) ?_ h' ⟨x, hx, hP⟩
  rintro t a t' hr ⟨y, hy, hPy⟩ ha hstep
  replace hstep : t.step a = some t' := hstep
  obtain ⟨y', hy', hor⟩ := step_job (wf_of_reachable hr) hstep hy
  refine ⟨y', hy', ?_⟩
  -- a lost lease, a newer claim and the right to ack are for good
  have hkeep : (y.leaseLost = true → y'.leaseLost = true) ∧
      (y.replaced = true → y'.replaced = true) ∧
      (y.settled = some (.runner, k) → y'.settled = some (.runner, k)) := by
    rcases hor with rfl | hm
    · exact ⟨id, id, id⟩
    refine ⟨hm.grows.2, hm.replaced, fun hset => ?_⟩
    rcases hm.settled with heq | ⟨_, hmay⟩
    · rw [heq, hset]
    · rw [hmay.notSettled] at hset
      cases hset
  rcases hPy with hl | hrep | hset | ⟨hopen, hwait⟩
  · exact .inl (hkeep.1 hl)
  · exact .inr (.inl (hkeep.2.1 hrep))
  · exact .inr (.inr (.inl (hkeep.2.2 hset)))
  cases hlost : y.leaseLost with
  | true => exact .inl (hkeep.1 hlost)
  | false =>
    cases hrep : y.replaced with
    | true => exact .inr (.inl (hkeep.2.1 hrep))
    | false =>
      have hopen' := own_of_close hr ha hstep hy hopen hlost hrep hwait
      have hun : y.proc.unstarted = false := by
        rcases hwait with hp | ⟨hp, -⟩ <;> rw [hp] <;> rfl
      rcases hor with rfl | hm
      · exact .inr (.inr (.inr ⟨hopen', hwait⟩))
      cases hm with
      | next hp hn =>
        rcases own_of_next hr hy hopen hlost hrep hn hwait with hl | hset | hw
        · exact .inl hl
        · exact .inr (.inr (.inl hset))
        · exact .inr (.inr (.inr ⟨hopen', hw⟩))
      | displaced => exact .inr (.inl rfl)
      | registered _ _ ht | unreleased _ _ _ ht | release _ _ _ ht | released _ ht =>
        rw [ht] at hun
        cases hun
      | forced _ hs | begun _ hs =>
        have := (life_of_reachable hr).intake
        rw [hopen, hs] at this
        cases this

/-- The result of a handler that ends before the intake closes is what the worker sends: its
job timeout has not elapsed, and it is neither lost nor replaced. -/
theorem own_outcome_of_ends {out : Outcome ρ} {k : Ack ρ} {kind : Kind}
    {s₀ s₁ : SpooledWorker ρ}
    (h : (system ρ o).Reachable (fun s a => DrainsResults s a = true) s₀)
    (hopen : s₀.intakeClosed = false) (hx₀ : s₀.jobs[e]? = some x) (htime : x.timedOut = false)
    (hends : s₀.step (.job e (.handler kind (some out))) = some s₁) (hack : out.ack = some k)
    (h₁ : (system ρ o).Reaches (fun s a => DrainsResults s a = true) s₁ s)
    (hx : s.jobs[e]? = some x') (hlost : x'.leaseLost = false) (hrep : x'.replaced = false) :
    (x'.settled = some (.runner, k) ∧
        (x'.calls = [] ∧ (∃ w pc, x'.proc = .sending k w pc) ∨
          ∃ w, x'.calls = [ackCall x'.job w k])) ∨
      (s.intakeClosed = false ∧ x'.settled = none ∧ x'.calls = [] ∧
        (x'.proc = .settling k ∨ x'.proc = .waiting)) := by
  have hr₁ : (system ρ o).Reachable (fun s a => DrainsResults s a = true) s₁ :=
    h.step (show DrainsResults s₀ (.job e (.handler kind (some out))) = true from rfl) hends
  have hr := hr₁.trans h₁
  obtain ⟨hp, y, y', eff, hy, hn, rfl⟩ := SpooledWorker.job_of_step hends
  rw [hx₀, Option.some_inj] at hy
  subst hy
  have hy' : (s₀.apply e y' eff).jobs[e]? = some y' := by
    show (s₀.jobs.set e y')[e]? = some y'
    rw [List.getElem?_set_self (List.getElem?_eq_some_iff.mp hx₀).1]
  have hD := draining_of_reachable h hx₀ hopen
  have hown : Own (s₀.apply e y' eff) k y' := by
    cases hn with
    | ends => exact .inr (.inr (.inr ⟨hopen, .inl (afterHandler_of_ack hack)⟩))
    | innerEnds hi =>
      rcases hD.waited (by rw [hi]; rfl) with hw | ht | hl
      · exact .inr (.inr (.inr ⟨hopen, .inr ⟨hw, out, rfl, hack⟩⟩))
      · rw [htime] at ht
        cases ht
      · exact .inl hl
  obtain ⟨z, hz, hown⟩ := own_of_reaches hr₁ h₁ hy' hown
  rw [hx, Option.some_inj] at hz
  subst hz
  have hf := (lease_sound hr hx).1
  rcases hown with hl | hl | hset | ⟨hopen', hwait⟩
  · rw [hlost] at hl
    cases hl
  · rw [hrep] at hl
    cases hl
  · have hun : x'.proc.unstarted = false := by
      by_contra hu
      rw [((wf_of_reachable hr).blank hx (by simpa using hu)).settled] at hset
      cases hset
    have hright : x'.lease.right = some (.runner, k) :=
      (ActiveJob.right_of_started hun).trans hset
    refine .inl ⟨hset, ?_⟩
    rcases hf.called hright with hnil | hcall
    · refine .inl ⟨hnil, ?_⟩
      rcases hf.pending hright hnil with hl | ⟨w, pc, hsend⟩
      · exact absurd hl (by rw [show x'.lease.lost = x'.leaseLost from rfl, hlost]; nofun)
      · refine ⟨w, pc, ?_⟩
        replace hsend : x'.proc.sendingAck = some (k, w, pc) := hsend
        cases hq : x'.proc <;> rw [hq] at hsend <;> cases hsend
        rfl
    · exact .inr hcall
  · have hun : x'.proc.unasked = true := by
      rcases hwait with hq | ⟨hq, -⟩ <;> rw [hq] <;> rfl
    have hset := (draining_of_reachable hr hx hopen').free hun
    refine .inr ⟨hopen', hset, hf.free ?_, hwait.imp_right And.left⟩
    refine (ActiveJob.right_of_started ?_).trans hset
    rcases hwait with hq | ⟨hq, -⟩ <;> rw [hq] <;> rfl

end

end SpooledSdk.Worker.Async
