/-
The life of the synchronous worker: `start()` and `stop()` against each other.

`Life` ties the worker's shared attributes to the two program counters: which state the
worker is in, when the intake is closed, which worker id and executor are set, and which
executions `stop()` has already abandoned.  `life_of_reachable` is the run lemma.
-/
import SpooledSdk.Worker.SyncLease

namespace SpooledSdk.Worker.Sync

variable {ρ : Type}

/-- `start()` has not reached its poll loop. -/
def MainPc.booting : MainPc → Bool
  | .idle | .registering | .registered | .raised => true
  | _ => false

/-- `_poll` is past its first locked section. -/
def MainPc.polling : MainPc → Bool
  | .claiming _ _ | .claimWait _ | .jobs _ | .release _ _ | .releaseWait _ _ | .beat _ _
  | .readExecutor _ _ | .submit _ _ | .discard _ _ | .finish => true
  | _ => false

theorem MainPc.polling_of_booting {pc : MainPc} (h : pc.booting = true) : pc.polling = false := by
  cases pc <;> first | rfl | cases h

/-- `stop()` has not closed the intake. -/
def StopPc.intakeOpen : StopPc → Bool
  | .idle | .signal | .awaitPoll | .drain => true
  | _ => false

/-- `stop()` has set the state to stopped. -/
def StopPc.finished : StopPc → Bool
  | .clearId | .closing | .returned => true
  | _ => false

/-- `stop()` has removed the worker id. -/
def StopPc.cleared : StopPc → Bool
  | .closing | .returned => true
  | _ => false

/-- The execution `stop()` is abandoning. -/
def StopPc.current : StopPc → Option ℕ
  | .abandoning e _ => some e
  | _ => none

/-- What `stop()` has left of the executor. -/
def StopPc.executor : StopPc → Executor
  | .clear => .down
  | .deregister | .deregisterWait | .finishing | .clearId | .closing | .returned => .absent
  | _ => .up

/-- The shared attributes as the two program counters determine them. -/
structure Life (s : SpooledWorker ρ) : Prop where
  boot : s.main.booting = true → s.jobs = [] ∧ s.stop = .idle ∧ s.state ≠ .running
  starting : s.main = .registering ∨ s.main = .registered → s.state = .starting
  stopping : s.stop ≠ .idle → s.state = if s.stop.finished then .stopped else .stopping
  intake : s.intakeClosed = !s.stop.intakeOpen
  workerId : s.main.booting = false ∨ s.main = .registered → s.stop.cleared = false →
    s.workerId = s.registeredWorkerId
  polled : s.jobs ≠ [] ∨ s.main.polling = true → (truthy s.registeredWorkerId).isSome = true
  executor : s.main.booting = false → s.executor = s.stop.executor
  abandoning : ∀ {e : ℕ} {x : ActiveJob ρ}, s.jobs[e]? = some x →
    x.stopper = .idle ∨ x.stopper = .over ∨ s.stop.current = some e
  forced : s.stop.early = false → ∀ {e : ℕ} {x : ActiveJob ρ}, s.jobs[e]? = some x →
    x.tracked = true → x.stopper = .over ∨ e ∈ s.stop.todo ∨ s.stop.current = some e

section

variable {s s' : SpooledWorker ρ} {e : ℕ} {x x' : ActiveJob ρ} {a : Action ρ} {o : Options}
  {ok : SpooledWorker ρ → Action ρ → Prop}

theorem Life.init (o : Options) : Life ({ options := o } : SpooledWorker ρ) where
  boot _ := ⟨rfl, rfl, by simp⟩
  starting h := by rcases h with h | h <;> cases h
  stopping h := absurd rfl h
  intake := rfl
  workerId h := by rcases h with h | h <;> cases h
  polled h := by
    rcases h with h | h
    · exact absurd rfl h
    · cases h
  executor h := by cases h
  abandoning h := by cases h
  forced h := by cases h

/-- Every execution `stop()` could abandon is one it has abandoned, once it is past that. -/
theorem Life.stopper_over (h : Life s) (hl : s.stop.early = false) (htodo : s.stop.todo = [])
    (hc : s.stop.current = none) (hx : s.jobs[e]? = some x) (ht : x.tracked = true) :
    x.stopper = .over := by
  rcases h.forced hl hx ht with hover | hmem | hcur
  · exact hover
  · rw [htodo] at hmem
    cases hmem
  · rw [hc] at hcur
    cases hcur

/-- While executions exist, the worker id is known until `stop()` removes it. -/
theorem Life.truthy_workerId (h : Life s) (hx : s.jobs[e]? = some x)
    (hc : s.stop.cleared = false) : ∃ w, truthy s.workerId = some w := by
  have hne : s.jobs ≠ [] := by
    intro hnil
    rw [hnil] at hx
    cases hx
  have hboot : s.main.booting = false := by
    by_contra hn
    exact hne (h.boot (by simpa using hn)).1
  rw [h.workerId (.inl hboot) hc]
  exact Option.isSome_iff_exists.mp (h.polled (.inl hne))

/-- The poll loop runs no `_abandon_job`, and registers nothing once the intake is closed. -/
theorem Move.main_frame {act : MainAction} (h : Move s e x (.main act) x') :
    x'.stopper = x.stopper ∧ (x'.tracked = true → x.tracked = true ∨ s.intakeClosed = false) := by
  cases h with
  | held | unreleased | release | submitted | scheduled => exact ⟨rfl, .inl⟩
  | registered _ hi _ => exact ⟨rfl, fun _ => .inr hi⟩
  | displaced => exact ⟨rfl, nofun⟩
  | refused => exact ⟨rfl, nofun⟩
  | released => exact ⟨rfl, .inl⟩

private theorem Life.closed (h : Life s) (he : s.stop.early = false) : s.intakeClosed = true := by
  rw [h.intake]
  cases hs : s.stop <;> rw [hs] at he <;> first | rfl | cases he

/-- Executions under a step of the poll loop. -/
private theorem Life.main_jobs {act : MainAction} (h : Life s) (hwf : Wf s)
    (hstep : s.step (.main act) = some s') (hstop : s'.stop = s.stop)
    (hx' : s'.jobs[e]? = some x') :
    (x'.stopper = .idle ∨ x'.stopper = .over ∨ s'.stop.current = some e) ∧
      (s'.stop.early = false → x'.tracked = true →
        x'.stopper = .over ∨ e ∈ s'.stop.todo ∨ s'.stop.current = some e) := by
  rw [hstop]
  rcases step_move hwf hstep hx' with ⟨x, hx, rfl | hm⟩ | ⟨-, j, rfl⟩
  · exact ⟨h.abandoning hx, fun he => h.forced he hx⟩
  · obtain ⟨hst, htr⟩ := hm.main_frame
    rw [hst]
    refine ⟨h.abandoning hx, fun he ht => ?_⟩
    rcases htr ht with ht | hi
    · exact h.forced he hx ht
    · rw [h.closed he] at hi
      cases hi
  · exact ⟨.inl rfl, nofun⟩

theorem Life.job {act : JobAction ρ} {eff : Effect} (h : Life s) (hx : s.jobs[e]? = some x)
    (hn : ActiveJob.Next (s.view e x) x act x' eff) : Life (s.apply e x' eff) := by
  have hf := hn.frame
  have hne : s.jobs ≠ [] := by
    intro hnil
    rw [hnil] at hx
    cases hx
  have hboot : s.main.booting = false := by
    by_contra hb
    exact hne (h.boot (by simpa using hb)).1
  -- the other executions, and the stopper of this one unless it is the one abandoned
  have hjobs : ∀ {i y}, (s.apply e x' eff).jobs[i]? = some y →
      s.jobs[i]? = some y ∨ (i = e ∧ y = x') := by
    intro i y hy
    rw [apply_jobs] at hy
    by_cases hie : e = i
    · subst hie
      rw [List.getElem?_set_self (List.getElem?_eq_some_iff.mp hx).1, Option.some_inj] at hy
      exact .inr ⟨rfl, hy.symm⟩
    · rw [List.getElem?_set_ne hie] at hy
      exact .inl hy
  have hab : x'.stopper = .idle ∨ x'.stopper = .over ∨ s.stop.current = some e := by
    rcases h.abandoning hx with hi | ho | hc
    · exact .inl ((hf.stopper (.inl hi)).trans hi)
    · exact .inr (.inl ((hf.stopper (.inr ho)).trans ho))
    · exact .inr (.inr hc)
  have hfo : s.stop.early = false → x'.tracked = true →
      x'.stopper = .over ∨ e ∈ s.stop.todo ∨ s.stop.current = some e := by
    intro he ht
    have ht₀ : x.tracked = true := by
      by_cases hk : eff = .keep
      · rw [← hf.stays hk]
        exact ht
      · rw [hf.leaves hk] at ht
        cases ht
    refine (h.forced he hx ht₀).imp_left fun ho => (hf.stopper (.inr ho)).trans ho
  constructor
  · rw [apply_main, hboot]
    exact nofun
  · rw [apply_main, apply_state]
    exact h.starting
  · rw [apply_stop, apply_state]
    exact h.stopping
  · rw [apply_intakeClosed, apply_stop]
    exact h.intake
  · rw [apply_main, apply_stop, apply_workerId, apply_registeredWorkerId]
    exact h.workerId
  · rw [apply_registeredWorkerId]
    exact fun _ => h.polled (.inl hne)
  · rw [apply_main, apply_stop, apply_executor]
    exact h.executor
  · intro i y hy
    rw [apply_stop]
    rcases hjobs hy with hy | ⟨rfl, rfl⟩
    · exact h.abandoning hy
    · exact hab
  · intro he i y hy ht
    rw [apply_stop] at he ⊢
    rcases hjobs hy with hy | ⟨rfl, rfl⟩
    · exact h.forced he hy ht
    · exact hfo he ht

/-- The poll loop moves on and leaves the other shared attributes alone. -/
private theorem Life.goto {act : MainAction} (h : Life s) (hwf : Wf s)
    (hstep : s.step (.main act) = some s') (hst : s'.stop = s.stop) (hs : s'.state = s.state)
    (hi : s'.intakeClosed = s.intakeClosed) (hw : s'.workerId = s.workerId)
    (hr : s'.registeredWorkerId = s.registeredWorkerId) (hx : s'.executor = s.executor)
    (hb : s.main.booting = false) (hb' : s'.main.booting = false)
    (hp : s'.jobs ≠ [] ∨ s'.main.polling = true →
      (truthy s.registeredWorkerId).isSome = true) : Life s' where
  boot hn := by rw [hb'] at hn; cases hn
  starting hn := by rcases hn with hn | hn <;> rw [hn] at hb' <;> cases hb'
  stopping := by rw [hst, hs]; exact h.stopping
  intake := by rw [hst, hi]; exact h.intake
  workerId _ := by rw [hst, hw, hr]; exact h.workerId (.inl hb)
  polled := by rw [hr]; exact hp
  executor _ := by rw [hst, hx]; exact h.executor hb
  abandoning hx' := (h.main_jobs hwf hstep hst hx').1
  forced he _ _ hx' := (h.main_jobs hwf hstep hst hx').2 he

/-- The worker boots: no execution exists and `stop()` has not begun. -/
private theorem Life.booting (hj : s'.jobs = []) (hst : s'.stop = .idle) (hs : s'.state ≠ .running)
    (hm : s'.main.booting = true)
    (hstart : s'.main = .registering ∨ s'.main = .registered → s'.state = .starting)
    (hi : s'.intakeClosed = false)
    (hw : s'.main = .registered → s'.workerId = s'.registeredWorkerId) : Life s' where
  boot _ := ⟨hj, hst, hs⟩
  starting := hstart
  stopping hn := absurd hst hn
  intake := by rw [hi, hst]; rfl
  workerId hn _ := by
    rcases hn with hn | hn
    · rw [hm] at hn
      cases hn
    · exact hw hn
  polled hn := by
    rcases hn with hn | hn
    · exact absurd hj hn
    · rw [MainPc.polling_of_booting hm] at hn
      cases hn
  executor hn := by rw [hm] at hn; cases hn
  abandoning hx := by rw [hj] at hx; cases hx
  forced _ _ _ hx := by rw [hj] at hx; cases hx

private theorem Life.main {act : MainAction} (h : Life s) (hwf : Wf s)
    (hstep : s.step (.main act) = some s') : Life s' := by
  have hpolling : s.main.polling = true → (truthy s.registeredWorkerId).isSome = true :=
    fun hp => h.polled (.inr hp)
  cases SpooledWorker.main_of_step hstep with
  | start hm hs =>
    obtain ⟨hj, hst, -⟩ := h.boot (by rw [hm]; rfl)
    exact .booting hj hst (by simp) rfl (fun _ => rfl) rfl nofun
  | register hm =>
    obtain ⟨hj, hst, hs⟩ := h.boot (by rw [hm]; rfl)
    refine .booting hj hst hs rfl (fun _ => h.starting (.inl hm)) ?_ fun _ => rfl
    show s.intakeClosed = false
    rw [h.intake, hst]
    rfl
  | registerFailed hm =>
    obtain ⟨hj, hst, -⟩ := h.boot (by rw [hm]; rfl)
    refine .booting hj hst (by simp) rfl (by simp) ?_ nofun
    show s.intakeClosed = false
    rw [h.intake, hst]
    rfl
  | run hm =>
    obtain ⟨hj, hst, -⟩ := h.boot (by rw [hm]; rfl)
    refine ⟨nofun, by simp, fun hn => absurd hst hn, h.intake,
      fun _ => h.workerId (.inr hm), fun hn => ?_, fun _ => ?_, fun hx => ?_, fun _ _ _ hx => ?_⟩
    · rcases hn with hn | hn
      · exact absurd hj hn
      · cases hn
    · show Executor.up = s.stop.executor
      rw [hst]
      rfl
    · rw [show s.jobs = [] from hj] at hx
      cases hx
    · rw [show s.jobs = [] from hj] at hx
      cases hx
  | leave hm hpc =>
    rcases hpc with rfl | rfl
    · exact h.goto hwf hstep rfl rfl rfl rfl rfl rfl (by rw [hm]; rfl) rfl
        fun hn => h.polled (hn.imp_right nofun)
    · exact h.goto hwf hstep rfl rfl rfl rfl rfl rfl (by rw [hm]; rfl) rfl
        fun hn => h.polled (hn.imp_right nofun)
  | poll hm hs hw hn =>
    refine h.goto hwf hstep rfl rfl rfl rfl rfl rfl (by rw [hm]; rfl) rfl fun _ => ?_
    have hcl : s.stop.cleared = false := by
      by_contra hc
      have hne : s.stop ≠ .idle := by
        intro hi
        rw [hi] at hc
        exact hc rfl
      have hst := h.stopping hne
      rw [hs] at hst
      split at hst <;> cases hst
    rw [← h.workerId (.inl (by rw [hm]; rfl)) hcl, hw]
    rfl
  | claimed hm =>
    exact h.goto hwf hstep rfl rfl rfl rfl rfl rfl (by rw [hm]; rfl) rfl
      fun _ => hpolling (by rw [hm]; rfl)
  | again hm _ _ | skip hm | pause hm | woken hm _ | finish hm =>
    exact h.goto hwf hstep rfl rfl rfl rfl rfl rfl (by rw [hm]; rfl) rfl
      fun hn => h.polled (hn.imp_right nofun)
  | claim hm | resend hm _ | claimFailed hm | done hm | hold hm _ _ | enter hm _ _
  | unreleased hm _ _ | release hm _ _ | released hm _ | schedule hm _ | noExecutor hm _
  | executor hm _ | submit hm _ _ | refuse hm _ _ | exiting hm _ _ | vanished hm _ _ =>
    exact h.goto hwf hstep rfl rfl rfl rfl rfl rfl (by rw [hm]; rfl) rfl
      fun _ => hpolling (by rw [hm]; rfl)
  | discard hm hy =>
    exact h.goto hwf hstep (apply_stop _) (apply_state _) (apply_intakeClosed _) (apply_workerId _)
      (apply_registeredWorkerId _) (apply_executor _) (by rw [hm]; rfl) rfl
      fun _ => hpolling (by rw [hm]; rfl)

/-- `stop()` moves on; `start()` is past its boot. -/
private theorem Life.stopGoto (h : Life s) (hb : s.main.booting = false) (hm : s'.main = s.main)
    (hs : s'.state = if s'.stop.finished then .stopped else .stopping)
    (hi : s'.intakeClosed = !s'.stop.intakeOpen)
    (hw : s'.stop.cleared = false → s'.workerId = s'.registeredWorkerId)
    (hr : s'.registeredWorkerId = s.registeredWorkerId) (hj : s'.jobs = [] ↔ s.jobs = [])
    (hx : s'.executor = s'.stop.executor)
    (hab : ∀ {e : ℕ} {x : ActiveJob ρ}, s'.jobs[e]? = some x →
      x.stopper = .idle ∨ x.stopper = .over ∨ s'.stop.current = some e)
    (hfo : s'.stop.early = false → ∀ {e : ℕ} {x : ActiveJob ρ}, s'.jobs[e]? = some x →
      x.tracked = true → x.stopper = .over ∨ e ∈ s'.stop.todo ∨ s'.stop.current = some e) :
    Life s' where
  boot hn := by rw [hm, hb] at hn; cases hn
  starting hn := by rcases hn with hn | hn <;> rw [hm] at hn <;> rw [hn] at hb <;> cases hb
  stopping _ := hs
  intake := hi
  workerId _ := hw
  polled hn := by
    rw [hr]
    rw [hm] at hn
    exact h.polled (hn.imp_left fun hn hnil => hn (hj.mpr hnil))
  executor _ := hx
  abandoning := hab
  forced := hfo

/-- What the place of a running `stop()` says about the shared attributes. -/
private theorem Life.at_stop {pc : StopPc} (h : Life s) (hs : s.stop = pc) (hne : pc ≠ .idle) :
    s.main.booting = false ∧ (s.state = if pc.finished then .stopped else .stopping) ∧
      s.intakeClosed = !pc.intakeOpen ∧
      (pc.cleared = false → s.workerId = s.registeredWorkerId) ∧ s.executor = pc.executor := by
  subst hs
  have hb : s.main.booting = false := by
    by_contra hb
    exact hne (h.boot (by simpa using hb)).2.1
  exact ⟨hb, h.stopping hne, h.intake, h.workerId (.inl hb), h.executor hb⟩

/-- While nothing is being abandoned, every stopper is idle or over. -/
private theorem Life.quiet {pc : StopPc} (h : Life s) (hs : s.stop = pc) (hc : pc.current = none)
    {e : ℕ} {x : ActiveJob ρ} (hx : s.jobs[e]? = some x) :
    x.stopper = .idle ∨ x.stopper = .over := by
  rcases h.abandoning hx with hi | ho | hcur
  · exact .inl hi
  · exact .inr ho
  · rw [hs, hc] at hcur
    cases hcur

private theorem Life.stop {act : StopAction} (h : Life s) (hwf : Wf s)
    (hstep : SpooledWorker.StopStep s act s') : Life s' := by
  cases hstep with
  | call hr hs =>
    have hb : s.main.booting = false := by
      by_contra hb
      exact (h.boot (by simpa using hb)).2.2 hr
    have hq : ∀ {e x}, s.jobs[e]? = some x → _ := h.quiet hs rfl
    have hin := h.intake
    have hex := h.executor hb
    rw [hs] at hin hex
    exact h.stopGoto hb rfl rfl hin (fun _ => h.workerId (.inl hb) (by rw [hs]; rfl)) rfl
      .rfl hex (fun hx => or_assoc.mp (.inl (hq hx))) nofun
  | ignored hr hm =>
    exact ⟨h.boot, h.starting, h.stopping, h.intake, h.workerId, h.polled, h.executor,
      h.abandoning, h.forced⟩
  | signal hs | waited hs _ | waitedLong hs =>
    obtain ⟨hb, hst, hin, hid, hex⟩ := h.at_stop hs (by simp)
    have hq : ∀ {e x}, s.jobs[e]? = some x → _ := h.quiet hs rfl
    exact h.stopGoto hb rfl hst hin (fun _ => hid rfl) rfl .rfl hex
      (fun hx => or_assoc.mp (.inl (hq hx))) nofun
  | close hs =>
    obtain ⟨hb, hst, hin, hid, hex⟩ := h.at_stop hs (by simp)
    have hq : ∀ {e x}, s.jobs[e]? = some x → _ := h.quiet hs rfl
    exact h.stopGoto hb rfl hst rfl (fun _ => hid rfl) rfl .rfl hex
      (fun hx => or_assoc.mp (.inl (hq hx))) nofun
  | snapshot hs =>
    obtain ⟨hb, hst, hin, hid, hex⟩ := h.at_stop hs (by simp)
    have hq : ∀ {e x}, s.jobs[e]? = some x → _ := h.quiet hs rfl
    refine h.stopGoto hb rfl hst hin (fun _ => hid rfl) rfl .rfl hex
      (fun hx => or_assoc.mp (.inl (hq hx))) fun _ {e x} hx ht => .inr (.inl ?_)
    exact Dict.mem_values_iff.mpr ⟨_, hwf.indexed.entry hx ht⟩
  | @begin e todo x hs hx =>
    obtain ⟨hb, hst, hin, hid, hex⟩ := h.at_stop hs (by simp)
    have hother : ∀ {i : ℕ} {y : ActiveJob ρ},
        (s.jobs.set e { x with stopper := .signal })[i]? = some y →
        i = e ∨ (s.jobs[i]? = some y ∧ i ≠ e) := by
      intro i y hy
      by_cases hie : e = i
      · exact .inl hie.symm
      · rw [List.getElem?_set_ne hie] at hy
        exact .inr ⟨hy, Ne.symm hie⟩
    refine h.stopGoto hb rfl hst hin (fun _ => hid rfl) rfl (List.set_eq_nil_iff _ _) hex
      (fun {i y} hy => ?_) fun _ {i y} hy ht => ?_
    · rcases hother hy with rfl | ⟨hy, -⟩
      · exact .inr (.inr rfl)
      · exact or_assoc.mp (.inl (h.quiet hs rfl hy))
    · rcases hother hy with rfl | ⟨hy, hie⟩
      · exact .inr (.inr rfl)
      · rcases h.forced (by rw [hs]; rfl) hy ht with ho | hmem | hcur
        · exact .inl ho
        · rw [hs] at hmem
          exact .inr (.inl ((List.mem_cons.mp hmem).resolve_left hie))
        · rw [hs] at hcur
          cases hcur
  | @abandoned e todo x hs hx ho =>
    obtain ⟨hb, hst, hin, hid, hex⟩ := h.at_stop hs (by simp)
    -- the execution that was being abandoned is over
    have hcur : ∀ {i : ℕ} {y : ActiveJob ρ}, s.jobs[i]? = some y → s.stop.current = some i →
        y.stopper = .over := by
      intro i y hy hcur
      rw [hs] at hcur
      obtain rfl : e = i := Option.some_inj.mp hcur
      rw [hy, Option.some_inj] at hx
      exact hx ▸ ho
    refine h.stopGoto hb rfl hst hin (fun _ => hid rfl) rfl .rfl hex
      (fun {i y} hy => ?_) fun _ {i y} hy ht => ?_
    · rcases h.abandoning hy with hi | hov | hc
      · exact .inl hi
      · exact .inr (.inl hov)
      · exact .inr (.inl (hcur hy hc))
    · rcases h.forced (by rw [hs]; rfl) hy ht with hov | hmem | hc
      · exact .inl hov
      · rw [hs] at hmem
        exact .inr (.inl hmem)
      · exact .inl (hcur hy hc)
  | forced hs | settled hs | deregister hs _ | noWorker hs | deregistered hs =>
    obtain ⟨hb, hst, hin, hid, hex⟩ := h.at_stop hs (by simp)
    have hq : ∀ {e x}, s.jobs[e]? = some x → _ := h.quiet hs rfl
    have ho : ∀ {e x}, s.jobs[e]? = some x → _ → _ :=
      h.stopper_over (by rw [hs]; rfl) (by rw [hs]; rfl) (by rw [hs]; rfl)
    exact h.stopGoto hb rfl hst hin (fun _ => hid rfl) rfl .rfl hex
      (fun hx => or_assoc.mp (.inl (hq hx))) fun _ _ _ hx ht => .inl (ho hx ht)
  | shutdown hs =>
    obtain ⟨hb, hst, hin, hid, hex⟩ := h.at_stop hs (by simp)
    have hq : ∀ {e x}, s.jobs[e]? = some x → _ := h.quiet hs rfl
    have ho : ∀ {e x}, s.jobs[e]? = some x → _ → _ :=
      h.stopper_over (by rw [hs]; rfl) (by rw [hs]; rfl) (by rw [hs]; rfl)
    refine h.stopGoto hb rfl hst hin (fun _ => hid rfl) rfl .rfl ?_
      (fun hx => or_assoc.mp (.inl (hq hx))) fun _ _ _ hx ht => .inl (ho hx ht)
    show (if s.executor = .up then Executor.down else s.executor) = _
    rw [hex]
    rfl
  | clear hs =>
    obtain ⟨hb, hst, hin, hid, hex⟩ := h.at_stop hs (by simp)
    have hq : ∀ {e x}, s.jobs[e]? = some x → _ := h.quiet hs rfl
    have ho : ∀ {e x}, s.jobs[e]? = some x → _ → _ :=
      h.stopper_over (by rw [hs]; rfl) (by rw [hs]; rfl) (by rw [hs]; rfl)
    exact h.stopGoto hb rfl hst hin (fun _ => hid rfl) rfl .rfl rfl
      (fun hx => or_assoc.mp (.inl (hq hx))) fun _ _ _ hx ht => .inl (ho hx ht)
  | finishing hs =>
    obtain ⟨hb, hst, hin, hid, hex⟩ := h.at_stop hs (by simp)
    have hq : ∀ {e x}, s.jobs[e]? = some x → _ := h.quiet hs rfl
    have ho : ∀ {e x}, s.jobs[e]? = some x → _ → _ :=
      h.stopper_over (by rw [hs]; rfl) (by rw [hs]; rfl) (by rw [hs]; rfl)
    exact h.stopGoto hb rfl rfl hin (fun _ => hid rfl) rfl .rfl hex
      (fun hx => or_assoc.mp (.inl (hq hx))) fun _ _ _ hx ht => .inl (ho hx ht)
  | clearId hs | closing hs =>
    obtain ⟨hb, hst, hin, hid, hex⟩ := h.at_stop hs (by simp)
    have hq : ∀ {e x}, s.jobs[e]? = some x → _ := h.quiet hs rfl
    have ho : ∀ {e x}, s.jobs[e]? = some x → _ → _ :=
      h.stopper_over (by rw [hs]; rfl) (by rw [hs]; rfl) (by rw [hs]; rfl)
    exact h.stopGoto hb rfl hst hin nofun rfl .rfl hex
      (fun hx => or_assoc.mp (.inl (hq hx))) fun _ _ _ hx ht => .inl (ho hx ht)

/-- Every step keeps the life of the worker. -/
theorem Life.step (h : Life s) (hwf : Wf s) (hstep : s.step a = some s') : Life s' := by
  cases a with
  | main act => exact h.main hwf hstep
  | stop act => exact h.stop hwf (SpooledWorker.stop_of_step hstep)
  | job i act =>
    obtain ⟨y, y', eff, hy, hnext, rfl⟩ := SpooledWorker.job_of_step hstep
    exact h.job hy hnext

theorem life_of_reachable (h : (system ρ o).Reachable ok s) : Life s :=
  h.invariant_of (I := Wf) (fun _ => wf_of_reachable) (.init o)
    fun _ _ _ hwf hl _ hstep => hl.step hwf hstep

end

end SpooledSdk.Worker.Sync
