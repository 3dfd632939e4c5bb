/-
The ready queue of the event loop.

* `ActiveJob.Next.queues` — the tasks that a step of an execution wakes;
* `Queue`, `queue_of_reachable` — a task is in the queue once, not while it runs, and only
  with a wake-up.
-/
import SpooledSdk.Fifo
import SpooledSdk.Worker.AsyncAck

namespace SpooledSdk.Worker.Async

variable {ρ : Type}

section

variable {s s' : SpooledWorker ρ} {e : ℕ} {x x' : ActiveJob ρ} {a : Action ρ} {o : Options}
  {ok : SpooledWorker ρ → Action ρ → Prop}

/-! ### The tasks a step wakes -/

namespace ActiveJob

variable {v : View} {act : JobAction ρ} {eff : Effect} {y : ActiveJob ρ}

/-- What a step that queues the tasks `ks` of an execution does to their wake-ups. -/
structure Wakes (x x' : ActiveJob ρ) (ks : List Kind) : Prop where
  nodup : ks.Nodup
  new : ∀ k ∈ ks, x.pending k = none ∨ x.acting k = false
  pending : ∀ k ∈ ks, (x'.pending k).isSome = true ∧ x'.acting k = true
  tasks : ∀ k ∈ ks, k ≠ .stop

theorem Wakes.nil : Wakes x x' [] :=
  ⟨.nil, by simp, by simp, by simp⟩

/-- A cancelled task is queued, unless it is queued already. -/
theorem Wakes.queued {k : Kind} (hp : (x'.pending k).isSome = true) (ha : x'.acting k = true)
    (hk : k ≠ .stop) : Wakes x x' (queued k (x.pending k)) := by
  rw [ActiveJob.queued]
  split
  · exact .nil
  · rename_i hn
    refine ⟨List.nodup_singleton k, ?_, ?_, ?_⟩ <;>
      · intro k' hk'
        obtain rfl := List.mem_singleton.mp hk'
        first
        | exact .inl (by simpa using hn)
        | exact ⟨hp, ha⟩
        | exact hk

/-- `z` differs from the execution whose task is cancelled only elsewhere, and `y` is where
the step leads to. -/
theorem cancelProc_wakes {z y : ActiveJob ρ} (hz : z.procWake = x.procWake)
    (hp : y.proc = x.proc) (hw : y.procWake = x.cancelProc.1.procWake) :
    Wakes z y x.cancelProc.2 ∧ (∀ k ∈ x.cancelProc.2, k = .proc) ∧
      (x.procWake.isSome = true → y.procWake.isSome = true) := by
  rw [cancelProc] at hw ⊢
  split at hw
  · rename_i hc
    have hact : y.acting .proc = true := by
      show y.proc.alive = true
      rw [hp]
      cases hx : x.proc <;> rw [hx] at hc <;> first | rfl | cases hc
    rw [if_pos hc, ← hz]
    refine ⟨.queued (k := .proc) (congrArg Option.isSome hw) hact (by simp), fun k hk => ?_,
      fun _ => congrArg Option.isSome hw⟩
    rw [ActiveJob.queued] at hk
    split at hk
    · cases hk
    · exact List.mem_singleton.mp hk
  · rename_i hc
    rw [if_neg hc]
    exact ⟨.nil, by simp, fun h => by rw [hw]; exact h⟩

theorem cancelInner_wakes {z y : ActiveJob ρ} (hz : z.innerWake = x.innerWake)
    (hi : y.inner = x.inner) (hw : y.innerWake = x.cancelInner.1.innerWake) :
    Wakes z y x.cancelInner.2 ∧ (∀ k ∈ x.cancelInner.2, k = .inner) ∧
      (x.innerWake.isSome = true → y.innerWake.isSome = true) := by
  rw [cancelInner] at hw ⊢
  split at hw
  · rename_i hc
    rw [if_pos hc, ← hz]
    refine ⟨.queued (k := .inner) (congrArg Option.isSome hw)
      ((congrArg InnerPc.alive hi).trans hc) (by simp), fun k hk => ?_,
      fun _ => congrArg Option.isSome hw⟩
    rw [ActiveJob.queued] at hk
    split at hk
    · cases hk
    · exact List.mem_singleton.mp hk
  · rename_i hc
    rw [if_neg hc]
    exact ⟨.nil, by simp, fun h => by rw [hw]; exact h⟩

theorem cancelBeat_wakes {z y : ActiveJob ρ} (hz : z.beatWake = x.beatWake)
    (hb : y.beat = x.beat) (hw : y.beatWake = x.cancelBeat.1.beatWake) :
    Wakes z y x.cancelBeat.2 ∧ (∀ k ∈ x.cancelBeat.2, k = .beat) ∧
      (x.beatWake.isSome = true → y.beatWake.isSome = true) := by
  rw [cancelBeat] at hw ⊢
  split at hw
  · rename_i hc
    rw [if_pos hc, ← hz]
    refine ⟨.queued (k := .beat) (congrArg Option.isSome hw)
      ((congrArg BeatPc.alive hb).trans hc) (by simp), fun k hk => ?_,
      fun _ => congrArg Option.isSome hw⟩
    rw [ActiveJob.queued] at hk
    split at hk
    · cases hk
    · exact List.mem_singleton.mp hk
  · rename_i hc
    rw [if_neg hc]
    exact ⟨.nil, by simp, fun h => by rw [hw]; exact h⟩

theorem forceFail_wakes (x : ActiveJob ρ) : Wakes x x.forceFail.1 x.forceFail.2 ∧
    (∀ k ∈ x.forceFail.2, k = .proc) ∧
      (x.procWake.isSome = true → x.forceFail.1.procWake.isSome = true) := by
  obtain ⟨w, hw⟩ := cancelProc_eq
    { x with cancelReason := some shutdownTimeoutError, abortEvent := true }
  unfold forceFail
  split
  · exact ⟨.nil, by simp, id⟩
  · exact cancelProc_wakes
      (x := { x with cancelReason := some shutdownTimeoutError, abortEvent := true }) (z := x) rfl
      (by rw [hw]) rfl

/-- A step of a task queues other tasks of the execution, and takes no wake-up from them. -/
structure Queues (x : ActiveJob ρ) (act : JobAction ρ) (x' : ActiveJob ρ) (eff : Effect) :
    Prop where
  wakes : Wakes x x' eff.wakes
  others : act.kind ∉ eff.wakes
  stays : ∀ k ≠ act.kind, (x.pending k).isSome = true → (x'.pending k).isSome = true

theorem Next.queues (h : Next v x act x' eff) (hf : x.Fresh) (hnot : ∀ k w, act ≠ .wake k w) :
    Queues x act x' eff := by
  have hnil : eff.wakes = [] →
      (∀ k ≠ act.kind, (x.pending k).isSome = true → (x'.pending k).isSome = true) →
      Queues x act x' eff := fun hw hs => ⟨by rw [hw]; exact .nil, by simp [hw], hs⟩
  cases h with
  | startInner h =>
    obtain ⟨hi, hb⟩ := hf h
    refine ⟨⟨by simp, ?_, ?_, by simp⟩, by simp [JobAction.kind], ?_⟩
    · intro k hk
      rcases List.mem_pair.mp hk with rfl | rfl
      · exact .inr (by rw [acting, hb]; rfl)
      · exact .inr (by rw [acting, hi]; rfl)
    · intro k hk
      rcases List.mem_pair.mp hk with rfl | rfl <;> exact ⟨rfl, rfl⟩
    · intro k hk hp
      cases k with
      | proc => exact absurd rfl hk
      | inner | beat => rfl
      | stop => exact hp
  | startDirect h =>
    obtain ⟨hi, hb⟩ := hf h
    refine ⟨⟨by simp, ?_, ?_, by simp⟩, by simp [JobAction.kind], ?_⟩
    · intro k hk
      obtain rfl := List.mem_singleton.mp hk
      exact .inr (by rw [acting, hb]; rfl)
    · intro k hk
      obtain rfl := List.mem_singleton.mp hk
      exact ⟨rfl, rfl⟩
    · intro k hk hp
      cases k with
      | proc => exact absurd rfl hk
      | beat => rfl
      | inner | stop => exact hp
  | waitCancelled =>
    obtain ⟨w, hw⟩ := cancelInner_eq { x with procWake := none }
    obtain ⟨hwakes, hkind, hstay⟩ := cancelInner_wakes (x := { x with procWake := none })
      (z := x) (y := { { x with procWake := none }.cancelInner.1 with proc := x.afterCancel }) rfl
      (by rw [hw]) rfl
    refine ⟨hwakes, fun hm => absurd (hkind _ hm) (by simp [JobAction.kind]), ?_⟩
    intro k hk hp
    cases k with
    | proc => exact absurd rfl hk
    | inner => exact hstay hp
    | beat | stop => rw [hw]; exact hp
  | waitTimeout =>
    obtain ⟨w, hw⟩ := cancelInner_eq { x with procWake := none }
    obtain ⟨hwakes, hkind, hstay⟩ := cancelInner_wakes (x := { x with procWake := none })
      (z := x) (y := { { x with procWake := none }.cancelInner.1 with
        abortEvent := true, timedOut := true, proc := .settling (.fail jobTimeoutError) }) rfl
      (by rw [hw]) rfl
    refine ⟨hwakes, fun hm => absurd (hkind _ hm) (by simp [JobAction.kind]), ?_⟩
    intro k hk hp
    cases k with
    | proc => exact absurd rfl hk
    | inner => exact hstay hp
    | beat | stop => rw [hw]; exact hp
  | never | waitDone | denied | granted | cut | closed | awaits | ends =>
    refine hnil rfl fun k hk hp => ?_
    cases k with
    | proc => exact absurd rfl hk
    | inner | beat | stop => exact hp
  | replied _ _ hs | send _ _ hs =>
    have hs := hs.same
    refine hnil rfl fun k hk hp => ?_
    cases k with
    | proc => exact absurd rfl hk
    | inner => exact (congrArg Option.isSome hs.innerWake).trans hp
    | beat => exact (congrArg Option.isSome hs.beatWake).trans hp
    | stop => exact (congrArg Option.isSome hs.stopperWake).trans hp
  | @reported a =>
    obtain ⟨w, hw⟩ := cancelBeat_eq (x.reportLost (ackOperation a))
    obtain ⟨hwakes, hkind, hstay⟩ := cancelBeat_wakes (x := x.reportLost (ackOperation a)) (z := x)
      (y := { (x.reportLost (ackOperation a)).cancelBeat.1 with proc := .cleanup }) rfl
      (by rw [hw]) rfl
    refine ⟨hwakes, fun hm => absurd (hkind _ hm) (by simp [JobAction.kind]), ?_⟩
    intro k hk hp
    cases k with
    | proc => exact absurd rfl hk
    | beat => exact hstay hp
    | inner | stop => rw [hw]; exact hp
  | cleanup =>
    obtain ⟨w, hw⟩ := x.cleanupJob_eq
    obtain ⟨hwakes, hkind, hstay⟩ := cancelBeat_wakes (x := { x with tracked := false }) (z := x)
      (y := { x.cleanupJob.1 with proc := if x.beat.alive then .closing else .done }) rfl
      (by rw [hw]) rfl
    refine ⟨hwakes, fun hm => absurd (hkind _ hm) (by simp [JobAction.kind]), ?_⟩
    intro k hk hp
    cases k with
    | proc => exact absurd rfl hk
    | beat => exact hstay hp
    | inner | stop => rw [hw]; exact hp
  | innerNever | innerStart | innerAwaits | innerEnds =>
    refine hnil rfl fun k hk hp => ?_
    cases k with
    | inner => exact absurd rfl hk
    | proc | beat | stop => exact hp
  | beatCancelled | beatStart | beatTimer | beatOk | beatExpired | beatCrash | beatError
  | beatAlreadyLost | beatLost =>
    refine hnil rfl fun k hk hp => ?_
    cases k with
    | beat => exact absurd rfl hk
    | proc | inner | stop => exact hp
  | beatReported =>
    obtain ⟨w, hw⟩ := cancelProc_eq (x.reportLost "heartbeat")
    obtain ⟨hwakes, hkind, hstay⟩ := cancelProc_wakes (x := x.reportLost "heartbeat") (z := x)
      (y := { (x.reportLost "heartbeat").cancelProc.1 with beat := .done }) rfl (by rw [hw]) rfl
    refine ⟨hwakes, fun hm => absurd (hkind _ hm) (by simp [JobAction.kind]), ?_⟩
    intro k hk hp
    cases k with
    | beat => exact absurd rfl hk
    | proc => exact hstay hp
    | inner | stop => rw [hw]; exact hp
  | stopDenied | stopGranted | stopClosed =>
    refine hnil rfl fun k hk hp => ?_
    cases k with
    | stop => exact absurd rfl hk
    | proc | inner | beat => exact hp
  | stopReplied _ _ hs | stopSend _ _ hs =>
    have hs := hs.same
    refine hnil rfl fun k hk hp => ?_
    cases k with
    | stop => exact absurd rfl hk
    | proc => exact (congrArg Option.isSome hs.procWake).trans hp
    | inner => exact (congrArg Option.isSome hs.innerWake).trans hp
    | beat => exact (congrArg Option.isSome hs.beatWake).trans hp
  | stopReported =>
    obtain ⟨w, hw⟩ := cancelBeat_eq (x.reportLost "fail")
    obtain ⟨w', hw'⟩ := cancelProc_eq (x.reportLost "fail").cancelBeat.1
    let z := { (x.reportLost "fail").cancelBeat.1.cancelProc.1 with stopper := .cleanup }
    obtain ⟨hb, hbkind, hbstay⟩ := cancelBeat_wakes (x := x.reportLost "fail") (z := x) (y := z)
      rfl (by show z.beat = _; simp only [z]; rw [hw', hw]) (by simp only [z]; rw [hw'])
    obtain ⟨hp, hpkind, hpstay⟩ := cancelProc_wakes (x := (x.reportLost "fail").cancelBeat.1)
      (z := x) (y := z) (by rw [hw]; rfl) (by simp only [z]; rw [hw']) rfl
    -- the heartbeat comes first, then the process task
    refine ⟨⟨List.Nodup.append hb.nodup hp.nodup ?_, ?_, ?_, ?_⟩, ?_, ?_⟩
    · intro k hk hk'
      exact absurd ((hbkind k hk).symm.trans (hpkind k hk')) (by simp)
    · exact fun k hk => (List.mem_append.mp hk).elim (hb.new k) (hp.new k)
    · exact fun k hk => (List.mem_append.mp hk).elim (hb.pending k) (hp.pending k)
    · exact fun k hk => (List.mem_append.mp hk).elim (hb.tasks k) (hp.tasks k)
    · intro hm
      rcases List.mem_append.mp hm with hm | hm
      · exact absurd (hbkind _ hm) (by simp [JobAction.kind])
      · exact absurd (hpkind _ hm) (by simp [JobAction.kind])
    · intro k hk hs
      cases k with
      | stop => exact absurd rfl hk
      | beat => exact hbstay hs
      | proc => exact hpstay (by rw [hw]; exact hs)
      | inner => rw [hw', hw]; exact hs
  | stopCleanup =>
    obtain ⟨w, hw⟩ := x.cleanupJob_eq
    obtain ⟨hwakes, hkind, hstay⟩ := cancelBeat_wakes (x := { x with tracked := false }) (z := x)
      (y := { x.cleanupJob.1 with
        stopper := if x.beat.alive then .closing else x.awaitedBeat }) rfl (by rw [hw]) rfl
    refine ⟨hwakes, fun hm => absurd (hkind _ hm) (by simp [JobAction.kind]), ?_⟩
    intro k hk hp
    cases k with
    | stop => exact absurd rfl hk
    | beat => exact hstay hp
    | proc | inner => rw [hw]; exact hp
  | woken => exact absurd rfl (hnot _ _)

/-- A wake-up queues the task that waits for it. -/
theorem Next.queues_wake {k : Kind} {w : Wake} (h : Next v x (.wake k w) x' eff) :
    eff.wakes = [k] ∧ x.pending k = none ∧ (x'.pending k).isSome = true ∧ x'.acting k = true ∧
      ∀ k', (x.pending k').isSome = true → (x'.pending k').isSome = true := by
  have hact := h.frame.acts
  cases h with
  | woken ha hn =>
    refine ⟨rfl, hn, ?_, ?_, fun k' hp => ?_⟩
    · cases k <;> rfl
    · cases k <;> exact hact
    · cases k <;> cases k' <;> first | rfl | exact hp

/-- A step of one task ends no other. -/
theorem Frame.acting_other {k : Kind} (h : Frame x act x' eff) (hk : act.kind ≠ k)
    (ha : x.acting k = true) : x'.acting k = true := by
  cases k with
  | proc =>
    rcases h.proc with heq | ⟨hk', -⟩
    · exact (congrArg ProcPc.alive heq).trans ha
    · exact absurd hk' hk
  | inner =>
    rcases h.inner with heq | hk' | ⟨-, -, hi⟩
    · exact (congrArg InnerPc.alive heq).trans ha
    · exact absurd hk' hk
    · exact congrArg InnerPc.alive hi
  | beat =>
    rcases h.beat with heq | hk' | ⟨-, -, hb⟩
    · exact (congrArg BeatPc.alive heq).trans ha
    · exact absurd hk' hk
    · exact congrArg BeatPc.alive hb
  | stop =>
    rcases h.stopper with heq | hk'
    · exact (congrArg AbandonPc.active heq).trans ha
    · exact absurd hk' hk

/-- A task of the execution may be in the ready queue. -/
structure Queued (x : ActiveJob ρ) (k : Kind) : Prop where
  pending : (x.pending k).isSome = true
  acting : x.acting k = true
  task : k ≠ .stop

theorem Blank.not_queued {k : Kind} (h : x.Blank) (hu : x.proc.unstarted = true) :
    ¬ x.Queued k := by
  intro hq
  have ha := hq.acting
  cases k with
  | proc =>
    have ha : x.proc.alive = true := ha
    cases hp : x.proc <;> rw [hp] at hu ha <;> first | (cases hu; done) | cases ha
  | inner =>
    rw [ActiveJob.acting, h.inner] at ha
    cases ha
  | beat =>
    rw [ActiveJob.acting, h.beat] at ha
    cases ha
  | stop => exact hq.task rfl

end ActiveJob

/-! ### The ready queue -/

/-- `start()` waits for an answer or a timer, or was not called. -/
def MainPc.suspended : MainPc → Bool
  | .idle | .registering | .claimWait _ | .releaseWait _ _ | .pausing | .waitStopped => true
  | _ => false

/-- A task is in the ready queue once, not while it runs, and only with a wake-up. -/
structure Queue (s : SpooledWorker ρ) : Prop where
  nodup : s.ready.Nodup
  current : ∀ {t : Task}, s.current = some t → t ∉ s.ready
  main : .main ∈ s.ready → s.main.suspended = false
  stop : .stop ∈ s.ready → s.stop.woken = none ∧ s.stop ≠ .idle ∧
    ∀ {e : ℕ}, s.stop.current = some e →
      ∃ x, s.jobs[e]? = some x ∧ x.stopperWake.isSome = true
  job : ∀ {e : ℕ} {k : Kind}, .job e k ∈ s.ready → ∃ x, s.jobs[e]? = some x ∧ x.Queued k

/-- A task without a wake-up is not in the queue. -/
theorem Queue.not_mem {k : Kind} (h : Queue s) (hx : s.jobs[e]? = some x)
    (hn : x.pending k = none ∨ x.acting k = false) : .job e k ∉ s.ready := by
  intro hm
  obtain ⟨y, hy, hq⟩ := h.job hm
  rw [hx, Option.some_inj] at hy
  subst hy
  rcases hn with hn | hn
  · have hp := hq.pending
    rw [hn] at hp
    cases hp
  · rw [hq.acting] at hn
    cases hn

/-- The tasks of an execution that wait in the queue stay there. -/
private theorem Queue.move {k : Kind} (h : Queue s) (hwf : Wf s) (hr : (system ρ o).Reachable ok s)
    (hx : s.jobs[e]? = some x) (hm : Move s e x a x') (hk : .job e k ∈ s.ready)
    (hq : x.Queued k) : x'.Queued k := by
  have hblank : x.proc.unstarted = true → x'.Queued k := fun hu =>
    absurd hq ((hwf.blank hx hu).not_queued hu)
  cases hm with
  | @next act x' eff hp hn =>
    rcases current_of_permits hp with hc | ⟨-, k', w, rfl⟩
    · -- the task that runs is not the one that waits
      have hne : act.kind ≠ k := by
        rintro rfl
        refine h.current hc ?_
        cases hkind : act.kind <;> rw [hkind] at hk hq <;>
          first | exact hk | exact absurd rfl hq.task
      have hnot : ∀ k w, act ≠ .wake k w := by
        rintro k' w rfl
        have : s.current = none := of_decide_eq_true hp
        rw [this] at hc
        cases hc
      have hqs := hn.queues (fresh_of_reachable hr hx) hnot
      exact ⟨hqs.stays k (Ne.symm hne) hq.pending, hn.frame.acting_other hne hq.acting, hq.task⟩
    · obtain ⟨-, hnone, -, -, hstay⟩ := hn.queues_wake
      refine ⟨hstay k hq.pending, hn.frame.acting_other ?_ hq.acting, hq.task⟩
      rintro rfl
      have hp : (x.pending k').isSome = true := hq.pending
      rw [hnone] at hp
      cases hp
  | registered _ _ ht | unreleased _ _ _ ht | release _ _ _ ht | released _ ht =>
    exact hblank (by rw [ht]; rfl)
  | displaced => exact ⟨by cases k <;> exact hq.pending, by cases k <;> exact hq.acting, hq.task⟩
  | forced =>
    obtain ⟨w, hw⟩ := x.forceFail_eq
    refine ⟨?_, by rw [hw]; cases k <;> exact hq.acting, hq.task⟩
    cases k with
    | proc => exact x.forceFail_wakes.2.2 hq.pending
    | inner | beat => rw [hw]; exact hq.pending
    | stop => exact absurd rfl hq.task
  | begun =>
    refine ⟨by cases k <;> exact hq.pending, ?_, hq.task⟩
    cases k with
    | stop => exact absurd rfl hq.task
    | proc | inner | beat => exact hq.acting

/-- So does `stop()`. -/
private theorem Queue.move_stop (h : Queue s) (hr : (system ρ o).Reachable ok s)
    (hx : s.jobs[e]? = some x) (hm : Move s e x a x') (hk : .stop ∈ s.ready)
    (hq : x.stopperWake.isSome = true) : x'.stopperWake.isSome = true := by
  cases hm with
  | @next act x' eff hp hn =>
    rcases current_of_permits hp with hc | ⟨-, k', w, rfl⟩
    · have hne : act.kind ≠ .stop := by
        intro hkind
        rw [hkind] at hc
        exact h.current hc hk
      have hnot : ∀ k w, act ≠ .wake k w := by
        rintro k' w rfl
        have : s.current = none := of_decide_eq_true hp
        rw [this] at hc
        cases hc
      exact (hn.queues (fresh_of_reachable hr hx) hnot).stays .stop (Ne.symm hne) hq
    · exact hn.queues_wake.2.2.2.2 .stop hq
  | forced hc => exact absurd hk (h.current hc)
  | begun hc => exact absurd hk (h.current hc)
  | _ => exact hq

/-- New tasks are put into the queue. -/
private theorem Queue.enqueue {q : List Task} (h : Queue s) (hr : (system ρ o).Reachable ok s)
    (hstep : s.step a = some s') (hready : s'.ready = s.ready ++ q) (hq : q.Nodup)
    (hnew : ∀ t ∈ q, t ∉ s.ready)
    (hcur : ∀ t, s'.current = some t → t ∉ s.ready ∧ t ∉ q)
    (hmain : (s'.main = s.main ∨ .main ∉ s.ready) ∧ (.main ∈ q → s'.main.suspended = false))
    (hstop : (s'.stop = s.stop ∨ .stop ∉ s.ready) ∧
      (.stop ∈ q → s'.stop.woken = none ∧ s'.stop ≠ .idle ∧
        ∀ e, s'.stop.current = some e →
          ∃ x, s'.jobs[e]? = some x ∧ x.stopperWake.isSome = true))
    (hjob : ∀ e k, .job e k ∈ q → ∃ x, s'.jobs[e]? = some x ∧ x.Queued k) : Queue s' := by
  have hwf := wf_of_reachable hr
  refine ⟨?_, fun {t} hc => ?_, fun hm => ?_, fun hm => ?_, fun {i k} hm => ?_⟩
  · rw [hready]
    exact List.nodup_enqueue h.nodup hq hnew
  · rw [hready, List.mem_append, not_or]
    exact hcur t hc
  · rw [hready] at hm
    rcases List.mem_append.mp hm with hm | hm
    · rcases hmain.1 with heq | hn
      · rw [heq]
        exact h.main hm
      · exact absurd hm hn
    · exact hmain.2 hm
  · rw [hready] at hm
    rcases List.mem_append.mp hm with hm | hm
    · rcases hstop.1 with heq | hn
      · obtain ⟨hw, hi, hrest⟩ := h.stop hm
        rw [heq]
        refine ⟨hw, hi, fun {i} hc => ?_⟩
        obtain ⟨y, hy, hwake⟩ := hrest hc
        obtain ⟨y', hy', rfl | hmove⟩ := step_job hwf hstep hy
        · exact ⟨_, hy', hwake⟩
        · exact ⟨y', hy', h.move_stop hr hy hmove hm hwake⟩
      · exact absurd hm hn
    · obtain ⟨hw, hi, hrest⟩ := hstop.2 hm
      exact ⟨hw, hi, hrest _⟩
  · rw [hready] at hm
    rcases List.mem_append.mp hm with hm | hm
    · obtain ⟨y, hy, hq⟩ := h.job hm
      obtain ⟨y', hy', rfl | hmove⟩ := step_job hwf hstep hy
      · exact ⟨_, hy', hq⟩
      · exact ⟨y', hy', h.move hwf hr hy hmove hm hq⟩
    · exact hjob i k hm

/-- A step that puts no task into the queue. -/
private theorem Queue.keep (h : Queue s) (hr : (system ρ o).Reachable ok s)
    (hstep : s.step a = some s') (hready : s'.ready = s.ready)
    (hcur : ∀ t, s'.current = some t → t ∉ s.ready)
    (hmain : s'.main = s.main ∨ .main ∉ s.ready) (hstop : s'.stop = s.stop ∨ .stop ∉ s.ready) :
    Queue s' :=
  h.enqueue (q := []) hr hstep (by rw [hready, List.append_nil]) .nil nofun
    (fun t hc => ⟨hcur t hc, nofun⟩) ⟨hmain, nofun⟩ ⟨hstop, nofun⟩ nofun

private theorem Queue.mainStep {act : MainAction} (h : Queue s)
    (hr : (system ρ o).Reachable ok s) (hstep : s.step (.main act) = some s') : Queue s' := by
  have hsusp : s.main.suspended = true → .main ∉ s.ready := by
    intro hs hm
    rw [h.main hm] at hs
    cases hs
  -- `start()` is woken
  have hwake : s.current = none → s.main.suspended = true → s'.ready = s.ready ++ [.main] →
      s'.current = s.current → s'.main.suspended = false → s'.stop = s.stop → Queue s' := by
    intro hc hs hready hcur hm hst
    refine h.enqueue hr hstep hready (List.nodup_singleton _) (fun t ht => ?_) (fun t ht => ?_)
      ⟨.inr (hsusp hs), fun _ => hm⟩ ⟨.inl hst, fun ht => ?_⟩ fun e k ht => ?_
    · rw [List.mem_singleton.mp ht]
      exact hsusp hs
    · rw [hcur, hc] at ht
      cases ht
    · cases List.mem_singleton.mp ht
    · cases List.mem_singleton.mp ht
  -- a step of its segment that starts no task
  have hgo : s.current = some .main → s'.ready = s.ready →
      (s'.current = s.current ∨ s'.current = none) → s'.stop = s.stop → Queue s' := by
    intro hc hready hcur hst
    refine h.keep hr hstep hready (fun t ht => ?_) (.inr (h.current hc)) (.inl hst)
    rcases hcur with hcur | hcur
    · exact h.current (hcur ▸ ht)
    · rw [hcur] at ht
      cases ht
  cases SpooledWorker.main_of_step hstep with
  | start hc hm =>
    exact h.keep hr hstep rfl (fun t ht => absurd (hc.symm.trans ht) (by simp))
      (.inr (hsusp (by rw [hm]; rfl))) (.inl rfl)
  | send hc hm =>
    exact h.keep hr hstep rfl (fun t ht => absurd (hc.symm.trans ht) (by simp))
      (.inr (hsusp (by rw [hm]; rfl))) (.inl rfl)
  | answered hc hm | refused hc hm | claimed hc hm | claimFailed hc hm | releaseReplied hc hm
  | resume hc hm | woken hc hm => exact hwake hc (by rw [hm]; rfl) rfl rfl rfl rfl
  | register hc | last hc | unreleased hc | released hc => exact hgo hc rfl (.inl rfl) rfl
  | registerFailed hc | skip hc | leave hc | poll hc | release hc | finish hc | left hc =>
    exact hgo hc rfl (.inr rfl) rfl
  | @enter e todo x hc hm hx hi =>
    obtain ⟨y, hy, ht⟩ := (wf_of_reachable hr).todo (e := e) (by rw [hm]; exact List.mem_cons_self)
    rw [hx, Option.some_inj] at hy
    subst hy
    refine h.enqueue (q := [.job e .proc]) hr hstep rfl (List.nodup_singleton _)
      (fun t ht' => ?_) (fun t ht' => ⟨h.current ht', ?_⟩) ⟨.inr (h.current hc), fun ht' => ?_⟩
      ⟨.inl rfl, fun ht' => ?_⟩ fun i k ht' => ?_
    · rw [List.mem_singleton.mp ht']
      exact h.not_mem hx (.inr (by rw [ActiveJob.acting, ht]; rfl))
    · have : t = .main := Option.some_inj.mp (ht'.symm.trans hc)
      rw [this]
      simp
    · cases List.mem_singleton.mp ht'
    · cases List.mem_singleton.mp ht'
    · cases List.mem_singleton.mp ht'
      refine ⟨_, List.getElem?_set_self ?_, rfl, rfl, by simp⟩
      rw [Indexed.length_displaced]
      exact (List.getElem?_eq_some_iff.mp hx).1

private theorem Queue.stopStep {act : StopAction} (h : Queue s)
    (hr : (system ρ o).Reachable ok s) (hstep : s.step (.stop act) = some s') : Queue s' := by
  have hidle : s.stop = .idle → .stop ∉ s.ready := fun hs hm => (h.stop hm).2.1 hs
  have hgo : s.current = some .stop → s'.ready = s.ready →
      (s'.current = s.current ∨ s'.current = none) → s'.main = s.main → Queue s' := by
    intro hc hready hcur hm
    refine h.keep hr hstep hready (fun t ht => ?_) (.inl hm) (.inr (h.current hc))
    rcases hcur with hcur | hcur
    · exact h.current (hcur ▸ ht)
    · rw [hcur] at ht
      cases ht
  cases SpooledWorker.stop_of_step hstep with
  | callInflight hc _ hs =>
    exact h.keep hr hstep rfl (fun t ht => absurd (hc.symm.trans ht) nofun) (.inl rfl)
      (.inr (hidle hs))
  | call hc _ hs =>
    refine h.keep hr hstep rfl (fun t ht => ?_) (.inl rfl) (.inr (hidle hs))
    cases ht
    exact hidle hs
  | ignored hc =>
    exact h.keep hr hstep rfl (fun t ht => absurd (hc.symm.trans ht) nofun) (.inl rfl) (.inl rfl)
  | @woken pc hc hs =>
    have hn : .stop ∉ s.ready := by
      intro hm
      rw [(h.stop hm).1] at hs
      cases hs
    refine h.enqueue (q := [.stop]) hr hstep rfl (List.nodup_singleton _) (fun t ht => ?_)
      (fun t ht => absurd (hc.symm.trans ht) nofun) ⟨.inl rfl, fun ht => ?_⟩
      ⟨.inr hn, fun _ => ?_⟩ fun e k ht => ?_
    · rw [List.mem_singleton.mp ht]
      exact hn
    · cases List.mem_singleton.mp ht
    · cases hpc : s.stop <;> rw [hpc] at hs <;> cases hs <;> exact ⟨rfl, nofun, nofun⟩
    · cases List.mem_singleton.mp ht
  | wait hc | forced hc | abandoned hc | abort hc | deregister hc | finishing hc =>
    exact hgo hc rfl (.inr rfl) rfl
  | close hc | forcedAll hc | snapshot hc | begin hc | ended hc | noWorker hc =>
    exact hgo hc rfl (.inl rfl) rfl
  | @force e todo x hc hs hx =>
    obtain ⟨hw, hkind, -⟩ := x.forceFail_wakes
    have hlt := (List.getElem?_eq_some_iff.mp hx).1
    -- the only task that is queued is the process task
    have htask : ∀ t ∈ x.forceFail.2.map (Kind.task e), t = .job e .proc ∧ .proc ∈ x.forceFail.2 := by
      intro t ht
      obtain ⟨k, hk, rfl⟩ := List.mem_map.mp ht
      obtain rfl := hkind k hk
      exact ⟨rfl, hk⟩
    refine h.enqueue (q := x.forceFail.2.map (Kind.task e)) hr hstep rfl
      (hw.nodup.map fun _ _ => Kind.task_inj) (fun t ht => ?_) (fun t ht => ⟨h.current ht, ?_⟩)
      ⟨.inl rfl, fun ht => ?_⟩ ⟨.inr (h.current hc), fun ht => ?_⟩ fun i k ht => ?_
    · obtain ⟨rfl, hk⟩ := htask t ht
      exact h.not_mem hx (hw.new _ hk)
    · intro hm
      obtain ⟨rfl, -⟩ := htask t hm
      have ht : s.current = some (.job e .proc) := ht
      rw [hc] at ht
      cases ht
    · cases (htask _ ht).1
    · cases (htask _ ht).1
    · obtain ⟨hkt, hk⟩ := htask _ ht
      cases hkt
      exact ⟨_, List.getElem?_set_self hlt, (hw.pending _ hk).1, (hw.pending _ hk).2, nofun⟩

private theorem Queue.jobStep {act : JobAction ρ} (h : Queue s)
    (hr : (system ρ o).Reachable ok s) (hstep : s.step (.job e act) = some s') : Queue s' := by
  obtain ⟨hp, x, x', eff, hx, hn, rfl⟩ := SpooledWorker.job_of_step hstep
  have hlt := (List.getElem?_eq_some_iff.mp hx).1
  have hjobs : (s.apply e x' eff).jobs[e]? = some x' := List.getElem?_set_self hlt
  have hcur : ∀ t, (s.apply e x' eff).current = some t → s.current = some t := by
    intro t ht
    have ht : (if eff.yields then none else s.current) = some t := ht
    split at ht
    · cases ht
    · exact ht
  have hmain : .main ∉ eff.wakes.map (Kind.task e) := by
    intro hm
    obtain ⟨k, -, hk⟩ := List.mem_map.mp hm
    cases k <;> cases hk
  have htask : ∀ {i k}, .job i k ∈ eff.wakes.map (Kind.task e) →
      i = e ∧ k ∈ eff.wakes ∧ k ≠ .stop := by
    intro i k hm
    obtain ⟨k', hk', hk⟩ := List.mem_map.mp hm
    cases k' <;> cases hk <;> exact ⟨rfl, hk', nofun⟩
  rcases current_of_permits hp with hc | ⟨hc, k, w, rfl⟩
  · have hnot : ∀ k w, act ≠ .wake k w := by
      rintro k' w rfl
      have : s.current = none := of_decide_eq_true hp
      rw [this] at hc
      cases hc
    obtain ⟨hw, hothers, -⟩ := hn.queues (fresh_of_reachable hr hx) hnot
    have hnostop : .stop ∉ eff.wakes.map (Kind.task e) := by
      intro hm
      obtain ⟨k, hk, hks⟩ := List.mem_map.mp hm
      exact hw.tasks k hk (by cases k <;> first | rfl | cases hks)
    refine h.enqueue hr hstep rfl (hw.nodup.map fun _ _ => Kind.task_inj) (fun t ht => ?_)
      (fun t ht => ⟨h.current (hcur t ht), ?_⟩) ⟨.inl rfl, fun hm => absurd hm hmain⟩
      ⟨.inl rfl, fun hm => absurd hm hnostop⟩ fun i k hm => ?_
    · obtain ⟨k, hk, rfl⟩ := List.mem_map.mp ht
      have hne := hw.tasks k hk
      have := h.not_mem hx (hw.new k hk)
      cases k <;> first | exact this | exact absurd rfl hne
    · intro hm
      obtain ⟨k, hk, rfl⟩ := List.mem_map.mp hm
      have := hcur _ ht
      rw [hc, Option.some_inj] at this
      exact hothers (Kind.task_inj this ▸ hk)
    · obtain ⟨rfl, hk, hne⟩ := htask hm
      exact ⟨x', hjobs, (hw.pending k hk).1, (hw.pending k hk).2, hne⟩
  · obtain ⟨hwakes, hnone, hsome, hact, -⟩ := hn.queues_wake
    have hold : k.task e ∉ s.ready := by
      intro hm
      cases k with
      | stop =>
        -- `stop()` waits for its call about this execution
        have hcurrent := (abandoned_of_reachable hr hx).active hn.frame.acts
        obtain ⟨y, hy, hwake⟩ := (h.stop hm).2.2 hcurrent
        rw [hx, Option.some_inj] at hy
        rw [← hy, show x.stopperWake = none from hnone] at hwake
        cases hwake
      | proc | inner | beat => exact h.not_mem hx (.inl hnone) hm
    refine h.enqueue (q := [k.task e]) hr hstep (by rw [← List.map_singleton, ← hwakes]; rfl)
      (List.nodup_singleton _) (fun t ht => ?_)
      (fun t ht => absurd (hc.symm.trans (hcur t ht)) nofun)
      ⟨.inl rfl, fun hm => ?_⟩ ⟨.inl rfl, fun hm => ?_⟩ fun i k' hm => ?_
    · rw [List.mem_singleton.mp ht]
      exact hold
    · cases k <;> cases List.mem_singleton.mp hm
    · have hk : k = .stop := by cases k <;> first | rfl | cases List.mem_singleton.mp hm
      subst hk
      have hcurrent : s.stop.current = some e :=
        (abandoned_of_reachable hr hx).active hn.frame.acts
      refine ⟨?_, ?_, fun i hi => ?_⟩
      · show s.stop.woken = none
        cases hs : s.stop <;> rw [hs] at hcurrent <;> first | rfl | cases hcurrent
      · show s.stop ≠ .idle
        intro hs
        rw [hs] at hcurrent
        cases hcurrent
      · have hi : s.stop.current = some i := hi
        rw [hcurrent, Option.some_inj] at hi
        subst hi
        exact ⟨x', hjobs, hsome⟩
    · rw [← List.map_singleton, ← hwakes] at hm
      obtain ⟨rfl, hk, hne⟩ := htask hm
      rw [hwakes] at hk
      obtain rfl := List.mem_singleton.mp hk
      exact ⟨x', hjobs, hsome, hact, hne⟩

theorem queue_of_reachable (h : (system ρ o).Reachable ok s) : Queue s := by
  refine h.invariant_of (I := (system ρ o).Reachable ok) (P := Queue) (fun _ => id)
    ⟨List.nodup_nil, nofun, nofun, nofun, nofun⟩ ?_
  intro s a s' hr hP _ hstep
  replace hstep : s.step a = some s' := hstep
  cases a with
  | main act => exact hP.mainStep hr hstep
  | stop act => exact hP.stopStep hr hstep
  | job e act => exact hP.jobStep hr hstep
  | run =>
    obtain ⟨-, t, rest, hready, rfl⟩ := SpooledWorker.run_of_step hstep
    have hn := hP.nodup
    rw [hready] at hn
    have hsub : ∀ {u}, u ∈ rest → u ∈ s.ready := fun hm => by
      rw [hready]
      exact List.mem_cons_of_mem _ hm
    refine ⟨hn.of_cons, fun {u} hc => ?_, fun hm => hP.main (hsub hm), fun hm => hP.stop (hsub hm),
      fun hm => hP.job (hsub hm)⟩
    cases hc
    exact (List.nodup_cons.mp hn).1

end

end SpooledSdk.Worker.Async
