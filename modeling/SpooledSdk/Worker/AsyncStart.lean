/-
The start of a handler in the asynchronous worker.

* `Unbegun`, `unbegun_of_reachable` — a process task that will begin belongs to an execution
  that nobody has settled, lost or abandoned;
* `Unopened`, `unopened_of_reachable` — an inner task that will begin is ahead of whatever
  could settle or lose its execution, in the order of the ready queue;
* `starts_fresh` — so a handler is never called for a settled or lost execution.
-/
import SpooledSdk.Worker.AsyncQueue

namespace SpooledSdk.Worker.Async

variable {ρ : Type}

section

variable {s s' : SpooledWorker ρ} {e : ℕ} {x x' : ActiveJob ρ} {a : Action ρ} {o : Options}
  {ok : SpooledWorker ρ → Action ρ → Prop}

/-! ### Process tasks that will begin -/

/-- `process_task` was created, and no cancellation has come before its first segment. -/
def ActiveJob.WillBegin (x : ActiveJob ρ) : Prop :=
  x.proc = .created ∧ x.procWake ≠ some .cancelled

/-- Nobody has settled, lost or abandoned the execution, and `stop()` will cancel its task
before it abandons it. -/
structure Unbegun (s : SpooledWorker ρ) (e : ℕ) (x : ActiveJob ρ) : Prop where
  stopper : x.stopper = .idle
  settled : x.settled = none
  leaseLost : x.leaseLost = false
  todo : e ∉ s.stop.todo
  tracked : x.tracked = true → s.stop.intakeOpen = true ∨ ∃ todo, s.stop = .forceFail todo ∧ e ∈ todo

/-- A job that waits for its task and is tracked is seen by `stop()` before it abandons. -/
theorem Unbegun.early (h : Unbegun s e x) (ht : x.tracked = true) :
    s.stop.early = true ∧ s.stop ≠ .abandonStart := by
  rcases h.tracked ht with hopen | ⟨todo, hs, -⟩
  · cases hs : s.stop <;> rw [hs] at hopen <;> first | (cases hopen; done) | exact ⟨rfl, nofun⟩
  · rw [hs]
    exact ⟨rfl, nofun⟩

/-- A step of `stop()` that does not come to this execution. -/
private theorem Unbegun.stop {act : StopAction} (h : Unbegun s e x) (hwf : Wf s)
    (hx : s.jobs[e]? = some x) (hstep : SpooledWorker.StopStep s act s')
    (hne : ∀ todo, s.stop = .forceFail (e :: todo) → s'.stop ≠ .forceFail todo) :
    Unbegun s' e x := by
  -- a tracked execution is one that `stop()` has yet to cancel
  have hat : ∀ {pc : StopPc}, s.stop = pc → pc.intakeOpen = false → (∀ todo, pc ≠ .forceFail todo) →
      x.tracked = true → False := by
    rintro pc rfl ho hf ht
    rcases h.tracked ht with hopen | ⟨todo, hs, -⟩
    · rw [ho] at hopen
      cases hopen
    · exact hf todo hs
  have hgone : ∀ {pc : StopPc}, s.stop = pc → pc.intakeOpen = false →
      (∀ todo, pc ≠ .forceFail todo) → e ∉ s'.stop.todo → Unbegun s' e x :=
    fun hs ho hf hn => ⟨h.stopper, h.settled, h.leaseLost, hn, fun ht => (hat hs ho hf ht).elim⟩
  have hopen : s'.stop.intakeOpen = true → Unbegun s' e x := by
    intro ho
    refine ⟨h.stopper, h.settled, h.leaseLost, fun hm => ?_, fun _ => .inl ho⟩
    cases hs : s'.stop <;> rw [hs] at ho hm <;> first | (cases ho; done) | cases hm
  have htodo := h.todo
  cases hstep with
  | callInflight | call | wait => exact hopen rfl
  | ignored => exact ⟨h.stopper, h.settled, h.leaseLost, h.todo, h.tracked⟩
  | woken hc hs =>
    cases hpc : s.stop <;> rw [hpc] at hs <;> cases hs <;>
      first
      | exact hopen rfl
      | exact hgone hpc rfl nofun nofun
  | close hc hs =>
    refine ⟨h.stopper, h.settled, h.leaseLost, nofun, fun ht => .inr ⟨_, rfl, ?_⟩⟩
    exact Dict.mem_values_iff.mpr ⟨_, hwf.indexed.entry hx ht⟩
  | forced hc hs | forcedAll hc hs =>
    refine ⟨h.stopper, h.settled, h.leaseLost, nofun, fun ht => ?_⟩
    rcases h.tracked ht with hopen | ⟨todo, hs', hm⟩
    · rw [hs] at hopen
      cases hopen
    · rw [hs] at hs'
      cases hs'
      cases hm
  | @force i todo y hc hs hy =>
    refine ⟨h.stopper, h.settled, h.leaseLost, nofun, fun ht => .inr ⟨todo, rfl, ?_⟩⟩
    rcases h.tracked ht with hopen | ⟨todo', hs', hm⟩
    · rw [hs] at hopen
      cases hopen
    · rw [hs] at hs'
      cases hs'
      rcases List.mem_cons.mp hm with rfl | hm
      · exact absurd rfl (hne todo hs)
      · exact hm
  | snapshot hc hs =>
    refine hgone hs rfl nofun fun hm => ?_
    obtain ⟨k, hk⟩ := Dict.mem_values_iff.mp hm
    obtain ⟨y, hy, -, hlive⟩ := hwf.indexed.row hk
    rw [hx, Option.some_inj] at hy
    exact hat hs rfl nofun (hy ▸ hlive)
  | begin hc hs hy =>
    rw [hs] at htodo
    exact hgone hs rfl nofun fun hm => htodo (List.mem_cons_of_mem _ hm)
  | ended hc hs hy ho =>
    rw [hs] at htodo
    exact hgone hs rfl nofun htodo
  | abandoned hc hs | deregister hc hs | noWorker hc hs | finishing hc hs =>
    exact hgone hs rfl nofun nofun
  | abort hc hs => exact hgone hs rfl nofun nofun

/-- A cancellation that came before the first segment stays. -/
theorem ActiveJob.Next.cancelled {v : View} {act : JobAction ρ} {eff : Effect}
    (h : ActiveJob.Next v x act x' eff) (hk : act.kind = .stop)
    (hp : x.proc = .created) (hc : x.procWake = some .cancelled) :
    x'.procWake = some .cancelled := by
  cases h with
  | stopReplied _ _ hs | stopSend _ _ hs => exact hs.same.procWake.trans hc
  | stopReported =>
    obtain ⟨w, hw⟩ := cancelBeat_eq (x.reportLost "fail")
    rw [hw, cancelProc, if_pos]
    show x.proc.cancellable = true
    rw [hp]
    rfl
  | stopCleanup =>
    obtain ⟨w, hw⟩ := x.cleanupJob_eq
    rw [hw]
    exact hc
  | stopDenied | stopGranted | stopClosed => exact hc
  | @woken k w =>
    obtain rfl : k = .stop := hk
    exact hc
  | _ => cases hk

/-- Before the first segment of `process_task` only `stop()` acts on its execution. -/
private theorem kind_of_created {v : View} {act : JobAction ρ} {eff : Effect}
    (h : ActiveJob.Next v x act x' eff) (hf : x.Fresh) (hp : x.proc = .created)
    (hp' : x'.proc = .created) : act.kind = .stop := by
  obtain ⟨hi, hb⟩ := hf hp
  have hact := h.frame.acts
  cases hk : act.kind with
  | stop => rfl
  | inner =>
    rw [hk, ActiveJob.acting, hi] at hact
    cases hact
  | beat =>
    rw [hk, ActiveJob.acting, hb] at hact
    cases hact
  | proc =>
    cases h with
    | never | startInner | startDirect => cases hp'
    | woken ha =>
      obtain rfl : _ = Kind.proc := hk
      cases ha with
      | reply h | timer h | inner h | beat h | user h => rw [hp] at h; cases h
    | waitCancelled h | waitDone h | waitTimeout h | denied h | granted h | cut h | replied h
    | reported h | send h | cleanup h | closed h | awaits h | ends h => rw [hp] at h; cases h
    | _ => cases hk

theorem unbegun_of_reachable (h : (system ρ o).Reachable ok s) (hx : s.jobs[e]? = some x)
    (hb : x.WillBegin) : Unbegun s e x := by
  refine forall_jobs_in (P := fun s e x => x.WillBegin → Unbegun s e x)
    (fun _ _ _ _ hb => by cases hb.1) ?_ ?_ h hx hb
  · intro s a s' e x hr _ hstep hx hx' hP hb
    have hP := hP hb
    have hkeep : s'.stop = s.stop → Unbegun s' e x := fun hs =>
      ⟨hP.stopper, hP.settled, hP.leaseLost, by rw [hs]; exact hP.todo,
        by rw [hs]; exact hP.tracked⟩
    cases a with
    | main act => exact hkeep (stop_of_main (SpooledWorker.main_of_step hstep))
    | run =>
      obtain ⟨-, t, rest, -, rfl⟩ := SpooledWorker.run_of_step hstep
      exact hkeep rfl
    | job i act =>
      obtain ⟨-, y, y', eff, -, -, rfl⟩ := SpooledWorker.job_of_step hstep
      exact hkeep rfl
    | stop act =>
      refine hP.stop (wf_of_reachable hr) hx (SpooledWorker.stop_of_step hstep) ?_
      -- the execution was not force-failed, which would have cancelled its task
      intro todo hs hs'
      cases SpooledWorker.stop_of_step hstep with
      | @force i todo' y hc hst hy =>
        rw [hs] at hst
        cases hst
        rw [hx, Option.some_inj] at hy
        subst hy
        rcases List.getElem?_set_cases hx' with ⟨-, hxx⟩ | ⟨hne, -⟩
        · refine hb.2 ?_
          rw [hxx]
          unfold ActiveJob.forceFail
          rw [if_neg (by rw [hP.settled]; simp), ActiveJob.cancelProc, if_pos]
          show x.proc.cancellable = true
          rw [hb.1]
          rfl
        · exact hne rfl
      | ignored hc hr' hm =>
        have hs' : s.stop = .forceFail todo := hs'
        rw [hs] at hs'
        exact absurd (StopPc.forceFail.inj hs') (List.cons_ne_self _ _)
      | forced | forcedAll | callInflight | call | wait | snapshot | abandoned | begin | ended
      | abort | deregister | noWorker | finishing => cases hs'
      | close hc hst =>
        rw [hs] at hst
        cases hst
      | woken hc hst =>
        rw [hs] at hst
        cases hst
  · intro s a s' e x x' hr _ hstep hx hx' hP hm hb
    have hwf := wf_of_reachable hr
    obtain ⟨hp', hw'⟩ := hb
    cases hm with
    | next hp hn =>
      have hp₀ : x.proc = .created := by
        rcases hn.frame.proc with heq | ⟨-, hne, -⟩
        · rw [← heq, hp']
        · exact absurd hp' hne
      have hk := kind_of_created hn (fresh_of_reachable hr hx) hp₀ hp'
      have hun : Unbegun s e x := hP ⟨hp₀, fun hc => hw' (hn.cancelled hk hp₀ hc)⟩
      have hact := hn.frame.acts
      rw [hk, ActiveJob.acting, hun.stopper] at hact
      cases hact
    | registered hmain hi ht =>
      have hbl := hwf.blank hx (by rw [ht]; rfl)
      have hs : s'.stop = s.stop := stop_of_main (SpooledWorker.main_of_step hstep)
      refine ⟨hbl.stopper, hbl.settled, hbl.leaseLost, fun hm => ?_, fun _ => .inl ?_⟩
      · rw [hs] at hm
        obtain ⟨y, hy, -, hu⟩ := hwf.stop_todo hm
        rw [hx, Option.some_inj] at hy
        rw [← hy, ht] at hu
        cases hu
      · rw [hs]
        have := (life_of_reachable hr).intake
        rw [hi] at this
        simpa using this.symm
    | displaced =>
      have hs : s'.stop = s.stop := stop_of_main (SpooledWorker.main_of_step hstep)
      have hun := hP ⟨hp', hw'⟩
      exact ⟨hun.stopper, hun.settled, hun.leaseLost, by rw [hs]; exact hun.todo, by rintro ⟨⟩⟩
    | unreleased | release => cases hp'
    | released => cases hp'
    | forced hc hs =>
      -- `stop()` cancels it
      obtain ⟨w, hw⟩ := x.forceFail_eq
      rw [hw] at hp' hw'
      have hp' : x.proc = .created := hp'
      refine absurd ?_ hw'
      have hwake : x.forceFail.1.procWake = w := by rw [hw]
      show w = _
      rw [← hwake]
      unfold ActiveJob.forceFail
      split
      · rename_i hset
        by_contra hne
        rw [(hP ⟨hp', hne⟩).settled] at hset
        cases hset
      · rw [ActiveJob.cancelProc, if_pos]
        show x.proc.cancellable = true
        rw [hp']
        rfl
    | begun hc hs =>
      refine absurd ?_ (hP ⟨hp', hw'⟩).todo
      rw [hs]
      exact List.mem_cons_self

/-! ### Inner tasks that will begin -/

/-- The inner task was created, and no cancellation has come before it begins. -/
def ActiveJob.WillOpen (x : ActiveJob ρ) : Prop :=
  x.inner = .created ∧ x.innerWake ≠ some .cancelled

/-- The task could settle the execution or lose its lease, were it to run now. -/
def Spoils (s : SpooledWorker ρ) (e : ℕ) (x : ActiveJob ρ) (t : Task) : Prop :=
  (t = .job e .beat ∧ x.beat ≠ .created) ∨
    (t = .stop ∧ x.tracked = true ∧ s.stop = .abandonStart)

/-- Nobody has settled, lost or abandoned the execution, and its inner task runs before
anybody could. -/
structure Unopened (s : SpooledWorker ρ) (e : ℕ) (x : ActiveJob ρ) : Prop where
  waiting : x.proc = .waiting
  stopper : x.stopper = .idle
  settled : x.settled = none
  leaseLost : x.leaseLost = false
  todo : e ∉ s.stop.todo
  early : x.tracked = true → s.stop.early = true
  next : s.current = some (.job e .inner) ∨
    ((∀ t, s.current = some t → ¬ Spoils s e x t) ∧
      List.NotBefore (Spoils s e x) (.job e .inner) s.ready)

/-- A step outside the execution: it stays ahead if no task that waits before it begins to
threaten it. -/
private theorem Unopened.goto {q : List Task} (h : Unopened s e x)
    (hne : s.current ≠ some (.job e .inner)) (hready : s'.ready = s.ready ++ q)
    (hcur : ∀ t, s'.current = some t → ¬ Spoils s' e x t)
    (hmono : ∀ u ∈ s.ready, Spoils s' e x u → Spoils s e x u) (htodo : e ∉ s'.stop.todo)
    (hearly : x.tracked = true → s'.stop.early = true) : Unopened s' e x := by
  refine ⟨h.waiting, h.stopper, h.settled, h.leaseLost, htodo, hearly, .inr ⟨hcur, ?_⟩⟩
  rw [hready]
  exact ((h.next.resolve_left hne).2.mono hmono).append

/-- `stop()` and the tasks of other executions leave the heartbeat as it is. -/
private theorem Spoils.of_stop {t : Task} (h : Spoils s' e x t) (hs : s'.stop = s.stop) :
    Spoils s e x t := by
  rw [Spoils, ← hs]
  exact h

private theorem main_queue {act : MainAction} (h : SpooledWorker.MainStep s act s') :
    (∃ ts, s'.ready = s.ready ++ ts) ∧ (s'.current = none ∨ s'.current = some .main) := by
  have hnil : s.ready = s.ready ++ [] := (List.append_nil _).symm
  cases h with
  | start hc | send hc => exact ⟨⟨[], hnil⟩, .inl hc⟩
  | answered hc | refused hc | claimed hc | claimFailed hc | releaseReplied hc | resume hc
  | woken hc => exact ⟨⟨[.main], rfl⟩, .inl hc⟩
  | enter hc => exact ⟨⟨_, rfl⟩, .inr hc⟩
  | register hc | last hc | unreleased hc | released hc => exact ⟨⟨[], hnil⟩, .inr hc⟩
  | registerFailed | skip | leave | poll | release | finish | left =>
    exact ⟨⟨[], hnil⟩, .inl rfl⟩

private theorem Unopened.main {act : MainAction} (h : Unopened s e x)
    (hstep : SpooledWorker.MainStep s act s') : Unopened s' e x := by
  have hs := stop_of_main hstep
  obtain ⟨⟨ts, hready⟩, hcur⟩ := main_queue hstep
  refine h.goto ?_ hready ?_ (fun _ _ hu => hu.of_stop hs) (by rw [hs]; exact h.todo)
    (by rw [hs]; exact h.early)
  · rcases current_of_main hstep with hc | hc <;> rw [hc] <;> simp
  · rintro t ht (⟨rfl, -⟩ | ⟨rfl, -⟩) <;> rcases hcur with hc | hc <;> rw [hc] at ht <;> cases ht

private theorem Unopened.stop {act : StopAction} (h : Unopened s e x) (hwf : Wf s)
    (hq : Queue s) (hx : s.jobs[e]? = some x) (hstep : SpooledWorker.StopStep s act s') :
    Unopened s' e x := by
  have hnil : s.ready = s.ready ++ [] := (List.append_nil _).symm
  -- away from the snapshot of what to abandon, `stop()` is no threat
  have hsafe : ∀ {ts}, (s.current = none ∨ s.current = some .stop) → s'.ready = s.ready ++ ts →
      (s'.current = none ∨ s'.current = some .stop) → s'.stop ≠ .abandonStart →
      e ∉ s'.stop.todo → (x.tracked = true → s'.stop.early = true) → Unopened s' e x := by
    intro ts hc hready hcur hne htodo hearly
    refine h.goto (by rcases hc with hc | hc <;> rw [hc] <;> simp) hready ?_ ?_ htodo hearly
    · rintro t ht (⟨rfl, -⟩ | ⟨-, -, hs⟩)
      · rcases hcur with hc | hc <;> rw [hc] at ht <;> cases ht
      · exact hne hs
    · rintro u - (hu | ⟨-, -, hs⟩)
      · exact .inl hu
      · exact absurd hs hne
  -- a tracked execution is not in the hands of `stop()` yet
  have hlate : ∀ {pc : StopPc} {P : Prop}, s.stop = pc → pc.early = false → x.tracked = true → P := by
    rintro pc P rfl he ht
    rw [h.early ht] at he
    cases he
  have htodo := h.todo
  cases hstep with
  | callInflight hc => exact hsafe (.inl hc) hnil (.inl hc) nofun nofun fun _ => rfl
  | call hc => exact hsafe (.inl hc) hnil (.inr rfl) nofun nofun fun _ => rfl
  | wait hc | forced hc => exact hsafe (.inr hc) hnil (.inl rfl) nofun nofun fun _ => rfl
  | close hc => exact hsafe (.inr hc) hnil (.inr hc) nofun nofun fun _ => rfl
  | force hc => exact hsafe (.inr hc) rfl (.inr hc) nofun nofun fun _ => rfl
  | ignored hc =>
    exact h.goto (by rw [hc]; simp) hnil (fun t ht => absurd (hc.symm.trans ht) nofun)
      (fun _ _ hu => hu) h.todo h.early
  | woken hc hs =>
    have hstop : .stop ∉ s.ready := by
      intro hm
      rw [(hq.stop hm).1] at hs
      cases hs
    cases hpc : s.stop <;> rw [hpc] at hs <;> cases hs
    case woken.inflight.refl | woken.drainWait.refl => exact hsafe (.inl hc) rfl (.inl hc) nofun nofun fun _ => rfl
    case woken.beatWait.refl | woken.deregisterWait.refl =>
      exact hsafe (.inl hc) rfl (.inl hc) nofun nofun (hlate hpc rfl)
    case woken.grace.refl =>
      -- it has waited for the cancelled tasks, and comes behind every inner task
      refine h.goto (q := [.stop]) (by rw [hc]; simp) rfl
        (fun t ht => absurd (hc.symm.trans ht) nofun) ?_ nofun fun _ => rfl
      rintro u hu (hb | ⟨rfl, -⟩)
      · exact .inl hb
      · exact absurd hu hstop
  | forcedAll hc hs hr =>
    refine absurd hr ?_
    rw [SpooledWorker.jobsRunning, Bool.not_eq_false, List.any_eq_true]
    exact ⟨x, List.mem_of_getElem? hx, by rw [h.waiting]; rfl⟩
  | snapshot hc hs =>
    have hnot : x.tracked = true → False := fun ht =>
      (h.next.resolve_left (by rw [hc]; simp)).1 _ hc (.inr ⟨rfl, ht, hs⟩)
    refine hsafe (.inr hc) hnil (.inr hc) nofun (fun hm => ?_) fun ht => (hnot ht).elim
    obtain ⟨k, hk⟩ := Dict.mem_values_iff.mp hm
    obtain ⟨y, hy, -, hlive⟩ := hwf.indexed.row hk
    rw [hx, Option.some_inj] at hy
    exact hnot (hy ▸ hlive)
  | begin hc hs =>
    rw [hs] at htodo
    exact hsafe (.inr hc) hnil (.inr hc) nofun (fun hm => htodo (List.mem_cons_of_mem _ hm))
      (hlate hs rfl)
  | ended hc hs =>
    rw [hs] at htodo
    exact hsafe (.inr hc) hnil (.inr hc) nofun htodo (hlate hs rfl)
  | noWorker hc hs => exact hsafe (.inr hc) hnil (.inr hc) nofun nofun (hlate hs rfl)
  | abandoned hc hs | abort hc hs | deregister hc hs | finishing hc hs =>
    exact hsafe (.inr hc) hnil (.inl rfl) nofun nofun (hlate hs rfl)

private theorem Unopened.run (h : Unopened s e x) (hstep : s.step .run = some s') :
    Unopened s' e x := by
  obtain ⟨hc, t, rest, hready, rfl⟩ := SpooledWorker.run_of_step hstep
  have hahead := (h.next.resolve_left (by rw [hc]; simp)).2
  rw [hready] at hahead
  refine ⟨h.waiting, h.stopper, h.settled, h.leaseLost, h.todo, h.early, ?_⟩
  rcases hahead.tail with rfl | ⟨hnot, hrest⟩
  · exact .inl rfl
  · refine .inr ⟨?_, hrest⟩
    rintro u hu
    cases hu
    exact hnot

/-- A step of another execution. -/
private theorem Unopened.other {i : ℕ} {y' : ActiveJob ρ} {act : JobAction ρ} {eff : Effect}
    (h : Unopened s e x) (hie : i ≠ e) (hp : s.permits i act = true) :
    Unopened (s.apply i y' eff) e x := by
  have hcurrent : s.current = some (act.kind.task i) ∨ s.current = none :=
    (current_of_permits hp).imp_right And.left
  have hne : s.current ≠ some (.job e .inner) := by
    intro hc
    rcases hcurrent with hc' | hc'
    · rw [hc', Option.some_inj] at hc
      rcases Kind.task_cases (q := .inner) hc with hi | ⟨-, hk⟩
      · exact hie hi
      · cases hk
    · rw [hc'] at hc
      cases hc
  refine h.goto hne rfl (fun t ht => ?_) (fun _ _ hu => hu) h.todo h.early
  refine (h.next.resolve_left hne).1 t ?_
  have ht : (if eff.yields then none else s.current) = some t := ht
  split at ht
  · cases ht
  · exact ht

/-- A step of the execution itself. -/
private theorem Unopened.job {act : JobAction ρ} {eff : Effect}
    (hP : x.WillOpen → Unopened s e x) (hr : (system ρ o).Reachable ok s)
    (hx : s.jobs[e]? = some x) (hp : s.permits e act = true)
    (hn : ActiveJob.Next (s.view e x) x act x' eff) (ho : x'.WillOpen) :
    Unopened (s.apply e x' eff) e x' := by
  have hf := fresh_of_reachable hr hx
  have hq := queue_of_reachable hr
  have hnil : s.ready = s.ready ++ [] := (List.append_nil _).symm
  -- the execution waits, so no other step of its process task is possible
  have hwait : ∀ {pc : ProcPc ρ} {P : Prop}, x'.inner = x.inner → x'.innerWake = x.innerWake →
      x.proc = pc → pc ≠ .waiting → P := by
    rintro pc P hi hw rfl hne
    exact absurd (hP ⟨hi ▸ ho.1, hw ▸ ho.2⟩).waiting hne
  have hidle : ∀ {pc : AbandonPc} {P : Prop}, x'.inner = x.inner → x'.innerWake = x.innerWake →
      x.stopper = pc → pc ≠ .idle → P := by
    rintro pc P hi hw rfl hne
    exact absurd (hP ⟨hi ▸ ho.1, hw ▸ ho.2⟩).stopper hne
  -- the heartbeat begins to sleep, or is cancelled before it begins
  have hbeat : ∀ {pc : BeatPc}, x.beat = .created → s.current = some (.job e .beat) →
      x' = { x with beatWake := none, beat := pc } → eff = { yields := true } →
      Unopened (s.apply e x' eff) e x' := by
    rintro pc hb hc rfl rfl
    have h := hP ho
    refine ⟨h.waiting, h.stopper, h.settled, h.leaseLost, h.todo, h.early,
      .inr ⟨by rintro _ ⟨⟩, ((h.next.resolve_left (by rw [hc]; simp)).2.mono ?_).append⟩⟩
    rintro u hu (⟨rfl, -⟩ | hs)
    · exact absurd hu (hq.current hc)
    · exact .inr hs
  -- a heartbeat that has begun is no longer ahead of the inner task
  have hbegun : ∀ {pc : BeatPc} {P : Prop}, x'.inner = x.inner → x'.innerWake = x.innerWake →
      s.current = some (.job e .beat) → x.beat = pc → pc ≠ .created → P := by
    rintro pc P hi hw hc rfl hne
    have h := hP ⟨hi ▸ ho.1, hw ▸ ho.2⟩
    exact absurd (.inl ⟨rfl, hne⟩) ((h.next.resolve_left (by rw [hc]; simp)).1 _ hc)
  have hcur : ∀ {k}, act = .go k → s.current = some (k.task e) := by
    rintro k rfl
    exact of_decide_eq_true hp
  cases hn with
  | @startInner w h hw hc ht =>
    have hun := unbegun_of_reachable hr hx
      ⟨h, fun hcw => hc (Option.some_inj.mp (hw.symm.trans hcw))⟩
    refine ⟨rfl, hun.stopper, hun.settled, hun.leaseLost, hun.todo, fun ht => (hun.early ht).1,
      .inr ⟨by rintro _ ⟨⟩, List.notBefore_of_forall ?_ ?_⟩⟩
    · exact List.mem_append_right _ (by simp [Kind.task])
    · rintro u - (⟨-, hb⟩ | ⟨-, ht, hs⟩)
      · exact hb rfl
      · exact (hun.early ht).2 hs
  | startDirect h =>
    have hi : x.inner = .created := ho.1
    rw [(hf h).1] at hi
    cases hi
  | waitCancelled h | waitTimeout h =>
    refine absurd ?_ ho.2
    obtain ⟨w, hw⟩ := ActiveJob.cancelInner_eq { x with procWake := none }
    have hi : x.inner = .created := by
      have hi := ho.1
      rw [hw] at hi
      exact hi
    show { x with procWake := none }.cancelInner.1.innerWake = _
    rw [ActiveJob.cancelInner, if_pos]
    show x.inner.alive = true
    rw [hi]
    rfl
  | waitDone _ _ _ hi =>
    have hi' : x.inner = .created := ho.1
    rw [hi] at hi'
    cases hi'
  | never h | denied h | granted h | cut h | closed h | awaits h | ends h =>
    exact hwait rfl rfl h (by simp)
  | replied h _ hs | send h _ hs => exact hwait hs.same.inner hs.same.innerWake h (by simp)
  | reported h =>
    obtain ⟨w, hw⟩ := ActiveJob.cancelBeat_eq (x.reportLost (ackOperation _))
    exact hwait (by rw [hw]; rfl) (by rw [hw]; rfl) h (by simp)
  | cleanup h =>
    obtain ⟨w, hw⟩ := x.cleanupJob_eq
    exact hwait (by rw [hw]) (by rw [hw]) h (by simp)
  | innerNever | innerStart | innerEnds => cases ho.1
  | innerAwaits h =>
    have hi : x.inner = .created := ho.1
    rw [h] at hi
    cases hi
  | beatCancelled h hw =>
    rcases h with h | h | ⟨w, h⟩
    · exact hbeat h (hcur rfl) rfl rfl
    · exact hbegun rfl rfl (hcur rfl) h (by simp)
    · exact hbegun rfl rfl (hcur rfl) h (by simp)
  | beatStart h => exact hbeat h (hcur rfl) rfl rfl
  | beatTimer h | beatOk h | beatExpired h | beatCrash h | beatError h | beatAlreadyLost h
  | beatLost h => exact hbegun rfl rfl (hcur rfl) h (by simp)
  | beatReported h =>
    obtain ⟨w, hw⟩ := ActiveJob.cancelProc_eq (x.reportLost "heartbeat")
    exact hbegun (by rw [hw]; rfl) (by rw [hw]; rfl) (hcur rfl) h (by simp)
  | stopDenied h | stopGranted h | stopClosed h => exact hidle rfl rfl h (by simp)
  | stopReplied h _ hs | stopSend h _ hs => exact hidle hs.same.inner hs.same.innerWake h (by simp)
  | stopReported h =>
    obtain ⟨w, hw⟩ := ActiveJob.cancelBeat_eq (x.reportLost "fail")
    obtain ⟨w', hw'⟩ := ActiveJob.cancelProc_eq (x.reportLost "fail").cancelBeat.1
    exact hidle (by rw [hw', hw]; rfl) (by rw [hw', hw]; rfl) h (by simp)
  | stopCleanup h =>
    obtain ⟨w, hw⟩ := x.cleanupJob_eq
    exact hidle (by rw [hw]) (by rw [hw]) h (by simp)
  | @woken k w ha =>
    have hc : s.current = none := of_decide_eq_true hp
    -- the wake-up goes to the end of the queue
    have hback : ∀ {y : ActiveJob ρ}, Unopened s e x → y.proc = x.proc → y.stopper = x.stopper →
        y.settled = x.settled → y.leaseLost = x.leaseLost → y.tracked = x.tracked →
        y.beat = x.beat → Unopened (s.apply e y { wakes := [k] }) e y := by
      intro y h hpr hst hset hl htr hb
      refine ⟨hpr.trans h.waiting, hst.trans h.stopper, hset.trans h.settled, hl.trans h.leaseLost,
        h.todo, by rw [htr]; exact h.early, .inr ⟨?_, ?_⟩⟩
      · intro t ht
        have ht : s.current = some t := ht
        rw [hc] at ht
        cases ht
      · refine ((h.next.resolve_left (by rw [hc]; simp)).2.mono ?_).append
        rintro u - hu
        rw [Spoils, hb, htr] at hu
        exact hu
    cases k with
    | inner =>
      cases ha with
      | innerUser h =>
        have hi : x.inner = .created := ho.1
        rw [h] at hi
        cases hi
    | proc | beat | stop => exact hback (hP ho) rfl rfl rfl rfl rfl rfl

theorem unopened_of_reachable (h : (system ρ o).Reachable ok s) (hx : s.jobs[e]? = some x)
    (ho : x.WillOpen) : Unopened s e x := by
  refine forall_jobs_in (P := fun s e x => x.WillOpen → Unopened s e x)
    (fun _ _ _ _ ho => by cases ho.1) ?_ ?_ h hx ho
  · intro s a s' e x hr _ hstep hx hx' hP ho
    cases a with
    | main act => exact (hP ho).main (SpooledWorker.main_of_step hstep)
    | stop act =>
      exact (hP ho).stop (wf_of_reachable hr) (queue_of_reachable hr) hx
        (SpooledWorker.stop_of_step hstep)
    | run => exact (hP ho).run hstep
    | job i act =>
      obtain ⟨hp, y, y', eff, hy, hn, rfl⟩ := SpooledWorker.job_of_step hstep
      rcases List.getElem?_set_cases hx' with ⟨rfl, rfl⟩ | ⟨hie, -⟩
      · rw [hx, Option.some_inj] at hy
        subst hy
        exact .job hP hr hx hp hn ho
      · exact (hP ho).other hie hp
  · intro s a s' e x x' hr _ hstep hx hx' hP hm ho
    have hblank : x.proc.unstarted = true → x'.inner = x.inner → Unopened s' e x' := by
      intro hu hi
      have hc := ho.1
      rw [hi, ((wf_of_reachable hr).blank hx hu).inner] at hc
      cases hc
    cases hm with
    | next =>
      obtain ⟨hp, y, y', eff, hy, hn, rfl⟩ := SpooledWorker.job_of_step hstep
      rw [hx, Option.some_inj] at hy
      subst hy
      rcases List.getElem?_set_cases hx' with ⟨-, rfl⟩ | ⟨hne, -⟩
      · exact .job hP hr hx hp hn ho
      · exact absurd rfl hne
    | registered _ _ ht | unreleased _ _ _ ht | release _ _ _ ht | released _ ht =>
      exact hblank (by rw [ht]; rfl) rfl
    | displaced =>
      have h := (hP ho).main (SpooledWorker.main_of_step hstep)
      refine ⟨h.waiting, h.stopper, h.settled, h.leaseLost, h.todo, nofun, ?_⟩
      refine h.next.imp_right fun hn => ⟨fun t ht hu => hn.1 t ht ?_, hn.2.mono fun u _ hu => ?_⟩ <;>
        rcases hu with hb | ⟨-, ht, -⟩ <;> first | exact .inl hb | cases ht
    | forced =>
      obtain ⟨w, hw⟩ := x.forceFail_eq
      rw [hw] at ho ⊢
      have h := (hP ho).stop (wf_of_reachable hr) (queue_of_reachable hr) hx
        (SpooledWorker.stop_of_step hstep)
      exact ⟨h.waiting, h.stopper, h.settled, h.leaseLost, h.todo, h.early, h.next⟩
    | begun hc hs =>
      refine absurd ?_ (hP ho).todo
      rw [hs]
      exact List.mem_cons_self

/-! ### The call of the handler -/

/-- The step from `x` to `x'` calls the user handler, in the process task or in the inner
task. -/
def ActiveJob.Called (x x' : ActiveJob ρ) : Prop :=
  (x.proc ≠ .handler ∧ x'.proc = .handler) ∨ (x.inner ≠ .running ∧ x'.inner = .running)

/-- The handler is called by a task that begins. -/
theorem ActiveJob.Next.called {v : View} {act : JobAction ρ} {eff : Effect}
    (h : ActiveJob.Next v x act x' eff) (hc : x.Called x') :
    x.WillBegin ∨ x.WillOpen := by
  have hstart : ∀ {w w' : Wake}, w ≠ w' → ∀ {p : Option Wake}, p = some w → p ≠ some w' := by
    rintro w w' hne p rfl hp
    exact hne (Option.some_inj.mp hp)
  have hcancel : x.afterCancel ≠ .handler := by
    rw [afterCancel]
    split
    · simp
    · cases x.cancelReason <;> simp
  have hafter : ∀ out, x.afterHandler out ≠ .handler := by
    intro out
    unfold afterHandler
    split
    · exact hcancel
    · cases out.ack <;> simp
  have hsend : ∀ {k : Ack ρ} {w : String} (q : Option SendPc),
      q.elim ProcPc.cleanup (.sending k w) ≠ .handler := by
    intro k w q
    cases q <;> simp
  rcases hc with ⟨hne, heq⟩ | ⟨hne, heq⟩
  · rcases h.frame.proc with hp | ⟨hk, -⟩
    · exact absurd (hp.symm.trans heq) hne
    · cases h with
      | startInner hp hw hn | startDirect hp hw hn => exact .inl ⟨hp, hstart hn hw⟩
      | waitCancelled => exact absurd heq hcancel
      | waitDone => exact absurd heq (hafter _)
      | replied | send => exact absurd heq (hsend _)
      | cleanup =>
        refine absurd heq ?_
        show (if _ then _ else _ : ProcPc ρ) ≠ _
        split <;> simp
      | awaits hp | ends hp => exact absurd hp hne
      | woken ha => cases ha <;> exact absurd heq hne
      | never | waitTimeout | denied | granted | cut | reported | closed => cases heq
      | _ => cases hk
  · rcases h.frame.inner with hi | hk | ⟨-, -, hi⟩
    · exact absurd (hi.symm.trans heq) hne
    · cases h with
      | innerStart hi hw hn => exact .inr ⟨hi, hstart hn hw⟩
      | innerAwaits hi | innerEnds hi => exact absurd hi hne
      | innerNever => cases heq
      | woken ha => cases ha <;> exact absurd heq hne
      | _ => cases hk
    · rw [hi] at heq
      cases heq

/-- The handler is never called for an execution that is settled or lost. -/
theorem starts_fresh (h : (system ρ o).Reachable ok s) (hok : ok s a) (hstep : s.step a = some s')
    (hx : s.jobs[e]? = some x) (hx' : s'.jobs[e]? = some x') (hc : x.Called x') :
    x.settled = none ∧ x.leaseLost = false := by
  obtain ⟨y, hy, hcase⟩ := step_job (wf_of_reachable h) hstep hx
  rw [hx', Option.some_inj] at hy
  subst hy
  have hsame : x'.proc = x.proc → x'.inner = x.inner → x.settled = none ∧ x.leaseLost = false := by
    intro hp hi
    rcases hc with ⟨hne, heq⟩ | ⟨hne, heq⟩
    · exact absurd (hp.symm.trans heq) hne
    · exact absurd (hi.symm.trans heq) hne
  rcases hcase with rfl | hm
  · exact hsame rfl rfl
  · cases hm with
    | next hp hn =>
      rcases hn.called hc with hb | ho
      · have hun := unbegun_of_reachable h hx hb
        exact ⟨hun.settled, hun.leaseLost⟩
      · have hun := unopened_of_reachable h hx ho
        exact ⟨hun.settled, hun.leaseLost⟩
    | registered _ _ ht | unreleased _ _ _ ht | release _ _ _ ht | released _ ht =>
      have hb := (wf_of_reachable h).blank hx (by rw [ht]; rfl)
      exact ⟨hb.settled, hb.leaseLost⟩
    | forced =>
      obtain ⟨w, hw⟩ := x.forceFail_eq
      exact hsame (by rw [hw]) (by rw [hw])
    | displaced | begun => exact hsame rfl rfl

end

end SpooledSdk.Worker.Async
