/-
Cancellation of the asynchronous worker's tasks while an ack is on the wire.

* `uncancelled_of_reachable` — under `SparesAcks` no step cancels a task that is sending;
* `ack_never_cancelled` — so an ack that the server accepted is followed by its event;
* `ack_cancelled` — a heartbeat that hears of a lost lease cancels the task whose ack is on
  the wire, and the accepted ack has no event.
-/
import SpooledSdk.Worker.Acks

namespace SpooledSdk.Worker.Async

variable {ρ : Type}

/-- `process_task` is between its settlement and the end of its request. -/
def ProcPc.acking : ProcPc ρ → Bool
  | .settling _ | .sending _ _ _ => true
  | _ => false

/-- No heartbeat handles `LEASE_EXPIRED`, for a lease that was not lost before, while the
process task of the execution is sending its ack. -/
def SparesAcks (s : SpooledWorker ρ) : Action ρ → Bool
  | .job e (.go .beat) => s.jobs[e]?.all fun x =>
      x.beat ≠ .lose || x.leaseLost || !(x.proc matches .sending _ _ _)
  | _ => true

section

variable {s s' : SpooledWorker ρ} {e : ℕ} {x x' : ActiveJob ρ} {a : Action ρ} {o : Options}
  {ok : SpooledWorker ρ → Action ρ → Prop} {v : View} {act : JobAction ρ} {eff : Effect}

/-! ### Who cancels `process_task` -/

/-- Of the steps of an execution only the reports of a lost lease cancel its process task. -/
theorem ActiveJob.Next.proc_cancelled (h : ActiveJob.Next v x act x' eff)
    (hw : x'.procWake = some .cancelled) :
    (x.procWake = some .cancelled ∧ (x'.proc = x.proc ∨ x'.proc.acking = false ∨
        x.proc.acking = true)) ∨
      (act = .go .beat ∧ x.beat = .report ∧ x'.proc = x.proc) ∨
      (act = .go .stop ∧ (∃ w, x.stopper = .sending w .report) ∧ x'.proc = x.proc) := by
  cases h with
  | beatReported h =>
    obtain ⟨w, hw⟩ := cancelProc_eq (x.reportLost "heartbeat")
    exact .inr (.inl ⟨rfl, h, by rw [hw]; rfl⟩)
  | stopReported h =>
    obtain ⟨w, hw⟩ := cancelBeat_eq (x.reportLost "fail")
    obtain ⟨w', hw'⟩ := cancelProc_eq (x.reportLost "fail").cancelBeat.1
    exact .inr (.inr ⟨rfl, ⟨_, h⟩, by rw [hw', hw]; rfl⟩)
  | waitCancelled =>
    obtain ⟨w, hw'⟩ := cancelInner_eq { x with procWake := none }
    rw [hw'] at hw
    cases hw
  | waitTimeout =>
    obtain ⟨w, hw'⟩ := cancelInner_eq { x with procWake := none }
    rw [hw'] at hw
    cases hw
  | granted h => exact .inl ⟨hw, .inr (.inr (by rw [h]; rfl))⟩
  | denied => exact .inl ⟨hw, .inr (.inl rfl)⟩
  | send h _ hs => exact .inl ⟨hs.same.procWake ▸ hw, .inr (.inr (by rw [h]; rfl))⟩
  | reported =>
    obtain ⟨w, hw'⟩ := cancelBeat_eq (x.reportLost (ackOperation _))
    rw [hw'] at hw
    exact .inl ⟨hw, .inr (.inl rfl)⟩
  | cleanup =>
    obtain ⟨w, hw'⟩ := x.cleanupJob_eq
    rw [hw'] at hw
    refine .inl ⟨hw, .inr (.inl ?_)⟩
    show (if _ then _ else _ : ProcPc ρ).acking = false
    split <;> rfl
  | stopCleanup =>
    obtain ⟨w, hw'⟩ := x.cleanupJob_eq
    rw [hw'] at hw
    exact .inl ⟨hw, .inl (by rw [hw'])⟩
  | stopReplied _ _ hs | stopSend _ _ hs =>
    exact .inl ⟨hs.same.procWake ▸ hw, .inl hs.same.proc⟩
  | never | startInner | startDirect | waitDone | cut | replied | closed | awaits | ends =>
    cases hw
  | woken ha =>
    cases ha with
    | reply | timer | inner | beat | user => cases hw
    | _ => exact .inl ⟨hw, .inl rfl⟩
  | _ => exact .inl ⟨hw, .inl rfl⟩

/-- While the heartbeat reports a lost lease no other task of the loop moves. -/
theorem report_of_reachable (h : (system ρ o).Reachable (fun s a => SparesAcks s a = true) s)
    (hx : s.jobs[e]? = some x) :
    x.beat = .report → ∀ k w pc, x.proc ≠ .sending k w pc := by
  refine forall_jobs (P := fun x => x.beat = .report → ∀ k w pc, x.proc ≠ .sending k w pc)
    (fun _ => nofun) ?_ h hx
  intro s a s' e x x' hr ha hstep hx hx' hP hm hb
  have hblank : x.proc.unstarted = true → x'.beat = x.beat → ∀ k w pc, x'.proc ≠ .sending k w pc := by
    intro hu hbeat
    rw [hbeat, ((wf_of_reachable hr).blank hx hu).beat] at hb
    cases hb
  cases hm with
  | @next act x' eff hp hn =>
    rcases hn.frame.beat with hbeat | hk | ⟨-, -, hbeat⟩
    · -- the heartbeat is inside its segment
      have hcur := segment_of_reachable hr hx .beat (by rw [ActiveJob.mid, ← hbeat, hb]; rfl)
      rcases current_of_permits hp with hc | ⟨hc, -⟩
      · rw [hcur, Option.some_inj] at hc
        have hk : act.kind = .beat := (Kind.task_inj hc).symm
        rcases hn.frame.proc with hproc | ⟨hk', -⟩
        · rw [hproc]
          exact hP (hbeat ▸ hb)
        · rw [hk] at hk'
          cases hk'
      · rw [hcur] at hc
        cases hc
    · cases hn with
      | beatLost hl hlost =>
        intro k w pc hs
        have hs : x.proc = .sending k w pc := hs
        simp [SparesAcks, hx, hl, hlost, hs] at ha
      | beatTimer =>
        have hb : (x.beats (s.view e x)).elim BeatPc.done .asking = .report := hb
        cases hbs : x.beats (s.view e x) <;> rw [hbs] at hb <;> cases hb
      | woken ha' =>
        cases ha' with
        | beatTimer hbt | beatReply hbt =>
          have hb : x.beat = .report := hb
          rw [hbt] at hb
          cases hb
        | _ => cases hk
      | beatCancelled | beatStart | beatOk | beatExpired | beatCrash | beatError
      | beatAlreadyLost | beatReported => cases hb
      | _ => cases hk
    · rw [hbeat] at hb
      cases hb
  | registered _ _ ht | unreleased _ _ _ ht | release _ _ _ ht | released _ ht =>
    exact hblank (by rw [ht]; rfl) rfl
  | displaced => exact hP hb
  | forced =>
    obtain ⟨w, hw⟩ := x.forceFail_eq
    rw [hw] at hb ⊢
    exact hP hb
  | begun => exact hP hb

/-- A task that is about to settle, or is sending, was not cancelled. -/
theorem uncancelled_of_reachable
    (h : (system ρ o).Reachable (fun s a => SparesAcks s a = true) s) (hx : s.jobs[e]? = some x) :
    x.proc.acking = true → x.procWake ≠ some .cancelled := by
  refine forall_jobs (P := fun x => x.proc.acking = true → x.procWake ≠ some .cancelled)
    (fun _ => nofun) ?_ h hx
  intro s a s' e x x' hr ha hstep hx hx' hP hm hack hw
  -- a task that is acking outside its own segment waits for a reply
  have hwait : x.proc.acking = true → s.current ≠ some (.job e .proc) →
      ∃ k w, x.proc = .sending k w .wait := by
    intro hack hc
    have hmid : x.mid .proc = false := by
      by_contra hmid
      exact hc (segment_of_reachable hr hx .proc (by simpa using hmid))
    replace hmid : x.proc.mid = false := hmid
    cases hp : x.proc <;> rw [hp] at hack hmid <;> try cases hack; done
    case settling => cases hmid
    case sending k w pc => cases pc <;> first | (cases hmid; done) | exact ⟨k, w, rfl⟩
  cases hm with
  | next hp hn =>
    rcases hn.proc_cancelled hw with ⟨hw', hproc | hproc | hproc⟩ | ⟨rfl, hb, hproc⟩ |
      ⟨rfl, ⟨w, hs⟩, hproc⟩
    · exact hP (hproc ▸ hack) hw'
    · rw [hproc] at hack
      cases hack
    · exact hP hproc hw'
    · have hc : s.current = some (.job e .beat) := of_decide_eq_true hp
      obtain ⟨k, w, hsend⟩ := hwait (hproc ▸ hack) (by rw [hc]; simp)
      exact report_of_reachable hr hx hb _ _ _ hsend
    · -- only one task of an execution sends
      have hc : s.current = some .stop := of_decide_eq_true hp
      obtain ⟨k, w', hsend⟩ := hwait (hproc ▸ hack) (by rw [hc]; simp)
      have hrun : x.lease.sending .runner = some (k, w', .wait) := by
        show x.proc.sendingAck = _
        rw [hsend]
        rfl
      have hstop := (lease_sound hr hx).1.unique hrun (u := .stopper) nofun
      have hstop : x.stopper.sendingAck (ρ := ρ) = none := hstop
      rw [hs] at hstop
      cases hstop
  | registered | unreleased | release | released => cases hack
  | displaced => exact hP hack hw
  | begun => exact hP hack hw
  | forced hc =>
    obtain ⟨w', hw'⟩ := x.forceFail_eq
    have hack : x.proc.acking = true := by
      rw [hw'] at hack
      exact hack
    obtain ⟨k, w, hsend⟩ := hwait hack (by rw [hc]; simp)
    have hright : x.lease.right = some (.runner, k) :=
      (lease_sound hr hx).1.holder
        (show x.lease.sending .runner = some (k, w, .wait) by
          show x.proc.sendingAck = _
          rw [hsend]
          rfl)
    have hset : x.settled = some (.runner, k) := by
      rw [← hright]
      show _ = x.right
      rw [ActiveJob.right, hsend]
    refine hP hack ?_
    unfold ActiveJob.forceFail at hw
    rwa [if_pos (by rw [hset]; rfl)] at hw

/-! ### Accepted acks and their events -/

theorem ActiveJob.Next.events (h : ActiveJob.Next v x act x' eff) : x.events <+: x'.events := by
  have hsend : ∀ {k w pc r y q}, ActiveJob.SendStep x k w pc r y q → x.events <+: y.events := by
    intro k w pc r y q hs
    cases hs with
    | accepted | rejected | reported => exact List.prefix_append _ _
    | _ => exact List.prefix_rfl
  cases h with
  | @replied _ _ _ y _ _ _ hs | @send _ _ _ y _ _ _ hs | @stopReplied _ _ y _ _ _ hs
  | @stopSend _ _ y _ _ _ hs =>
    show x.events <+: y.events
    exact hsend hs
  | startInner | startDirect | beatError => exact List.prefix_append _ _
  | waitCancelled | waitTimeout =>
    obtain ⟨w, hw⟩ := cancelInner_eq { x with procWake := none }
    rewrite [hw]
    exact List.prefix_rfl
  | reported =>
    obtain ⟨w, hw⟩ := cancelBeat_eq (x.reportLost (ackOperation _))
    rewrite [hw]
    exact List.prefix_append _ _
  | beatReported =>
    obtain ⟨w, hw⟩ := cancelProc_eq (x.reportLost "heartbeat")
    rewrite [hw]
    exact List.prefix_append _ _
  | stopReported =>
    obtain ⟨w, hw⟩ := cancelBeat_eq (x.reportLost "fail")
    obtain ⟨w', hw'⟩ := cancelProc_eq (x.reportLost "fail").cancelBeat.1
    rewrite [hw', hw]
    exact List.prefix_append _ _
  | cleanup | stopCleanup =>
    obtain ⟨w, hw⟩ := x.cleanupJob_eq
    rewrite [hw]
    exact List.prefix_rfl
  | @woken k => cases k <;> exact List.prefix_rfl
  | _ => exact List.prefix_rfl

theorem Move.events (h : Move s e x a x') : x.events <+: x'.events := by
  cases h with
  | next _ h => exact h.events
  | registered | released => exact List.prefix_append _ _
  | forced =>
    obtain ⟨w, hw⟩ := x.forceFail_eq
    rewrite [hw]
    exact List.prefix_rfl
  | _ => exact List.prefix_rfl

/-- The process task has the answer to its ack. -/
def ActiveJob.Replied (x : ActiveJob ρ) (k : Ack ρ) (r : Reply) : Prop :=
  (∃ w, x.proc = .sending k w .wait) ∧ x.procWake = some (.reply r)

/-- `stop()` has the answer to its `fail` of the execution. -/
def ActiveJob.StopReplied (x : ActiveJob ρ) (r : Reply) : Prop :=
  (∃ w, x.stopper = .sending w .wait) ∧ x.stopperWake = some (.reply r)

theorem ActiveJob.Next.replied_proc {k : Ack ρ} {r : Reply} (h : ActiveJob.Next v x act x' eff)
    (hx : x.Replied k r) (hv : verdict k r = .accepted) :
    x'.Replied k r ∨ (x'.proc.acking = true ∧ x'.procWake = some .cancelled) ∨
      ackEvent x.job k ∈ x'.events := by
  obtain ⟨⟨w, hp⟩, hw⟩ := hx
  -- no other step of the process task is possible
  have hno : ∀ {pc : ProcPc ρ} {P : Prop}, x.proc = pc → pc ≠ .sending k w .wait → P := by
    rintro pc P rfl hne
    exact absurd hp hne
  have hsame : x'.proc = x.proc → x'.procWake = x.procWake → x'.Replied k r :=
    fun hproc hwake => ⟨⟨w, hproc.trans hp⟩, hwake.trans hw⟩
  cases h with
  | @replied k' w' r' y q h hw' hs =>
    rw [hp, ProcPc.sending.injEq] at h
    obtain ⟨rfl, -, -⟩ := h
    rw [hw, Option.some_inj, Wake.reply.injEq] at hw'
    subst hw'
    cases hs with
    | accepted => exact .inr (.inr (List.mem_append_right _ (List.mem_singleton.mpr rfl)))
    | expired hv' | rejected hv' =>
      rw [hv] at hv'
      cases hv'
  | @send k' w' pc y q h _ hs =>
    rw [hp, ProcPc.sending.injEq] at h
    obtain ⟨-, -, rfl⟩ := h
    cases hs
  | cut _ hw' =>
    rw [hw] at hw'
    cases hw'
  | beatReported =>
    refine .inr (.inl ?_)
    have hc : x.proc.cancellable = true := by rw [hp]; rfl
    rw [cancelProc, if_pos (show (x.reportLost "heartbeat").proc.cancellable = true from hc)]
    exact ⟨by show x.proc.acking = true; rw [hp]; rfl, rfl⟩
  | stopReported =>
    obtain ⟨w', hw'⟩ := cancelBeat_eq (x.reportLost "fail")
    refine .inr (.inl ?_)
    have hc : (x.reportLost "fail").cancelBeat.1.proc.cancellable = true := by
      rw [hw']
      show x.proc.cancellable = true
      rw [hp]
      rfl
    rw [cancelProc, if_pos hc]
    refine ⟨?_, rfl⟩
    rw [hw']
    show x.proc.acking = true
    rw [hp]
    rfl
  | never h | startInner h | startDirect h | waitCancelled h | waitDone h | waitTimeout h
  | denied h | granted h | cleanup h | closed h | awaits h | ends h => exact hno h (by simp)
  | reported h => exact hno h (fun heq => by cases heq)
  | stopCleanup =>
    obtain ⟨w', hw'⟩ := x.cleanupJob_eq
    exact .inl (hsame (by rw [hw']) (by rw [hw']))
  | stopReplied _ _ hs | stopSend _ _ hs => exact .inl (hsame hs.same.proc hs.same.procWake)
  | @woken k' w' ha hn =>
    cases k' with
    | proc =>
      rw [show x.procWake = none from hn] at hw
      cases hw
    | inner | beat | stop => exact .inl (hsame rfl rfl)
  | _ => exact .inl (hsame rfl rfl)

theorem ActiveJob.Next.replied_stop {r : Reply} (h : ActiveJob.Next v x act x' eff)
    (hx : x.StopReplied r)
    (hv : verdict (.fail shutdownTimeoutError : Ack ρ) r = .accepted) :
    x'.StopReplied r ∨ ackEvent x.job (.fail shutdownTimeoutError) ∈ x'.events := by
  obtain ⟨⟨w, hp⟩, hw⟩ := hx
  have hno : ∀ {pc : AbandonPc} {P : Prop}, x.stopper = pc → pc ≠ .sending w .wait → P := by
    rintro pc P rfl hne
    exact absurd hp hne
  have hsame : x'.stopper = x.stopper → x'.stopperWake = x.stopperWake → x'.StopReplied r :=
    fun hproc hwake => ⟨⟨w, hproc.trans hp⟩, hwake.trans hw⟩
  cases h with
  | @stopReplied w' r' y q h hw' hs =>
    rw [hw, Option.some_inj, Wake.reply.injEq] at hw'
    subst hw'
    cases hs with
    | accepted => exact .inr (List.mem_append_right _ (List.mem_singleton.mpr rfl))
    | expired hv' | rejected hv' =>
      rw [hv] at hv'
      cases hv'
  | @stopSend w' pc y q h _ hs =>
    rw [hp, AbandonPc.sending.injEq] at h
    obtain ⟨-, rfl⟩ := h
    cases hs
  | stopDenied h | stopGranted h | stopCleanup h | stopClosed h => exact hno h nofun
  | stopReported h => exact hno h (fun heq => by cases heq)
  | waitCancelled | waitTimeout =>
    obtain ⟨w', hw'⟩ := cancelInner_eq { x with procWake := none }
    exact .inl (hsame (by rw [hw']) (by rw [hw']))
  | reported =>
    obtain ⟨w', hw'⟩ := cancelBeat_eq (x.reportLost (ackOperation _))
    exact .inl (hsame (by rw [hw']; rfl) (by rw [hw']; rfl))
  | beatReported =>
    obtain ⟨w', hw'⟩ := cancelProc_eq (x.reportLost "heartbeat")
    exact .inl (hsame (by rw [hw']; rfl) (by rw [hw']; rfl))
  | cleanup =>
    obtain ⟨w', hw'⟩ := x.cleanupJob_eq
    exact .inl (hsame (by rw [hw']) (by rw [hw']))
  | replied _ _ hs | send _ _ hs => exact .inl (hsame hs.same.stopper hs.same.stopperWake)
  | @woken k' w' ha hn =>
    cases k' with
    | stop =>
      rw [show x.stopperWake = none from hn] at hw
      cases hw
    | inner | beat | proc => exact .inl (hsame rfl rfl)
  | _ => exact .inl (hsame rfl rfl)

/-- A registered execution keeps the answers that its senders have. -/
private theorem Move.replied_stop {r : Reply}
    (hm : Move s e x a x') (h : x.StopReplied r)
    (hv : verdict (.fail shutdownTimeoutError : Ack ρ) r = .accepted) :
    x'.StopReplied r ∨ ackEvent x.job (.fail shutdownTimeoutError) ∈ x'.events := by
  cases hm with
  | next _ hn => exact hn.replied_stop h hv
  | registered | displaced | unreleased | release | released => exact .inl h
  | forced =>
    obtain ⟨w, hw⟩ := x.forceFail_eq
    rw [hw]
    exact .inl h
  | begun _ _ ht =>
    obtain ⟨⟨w, hp⟩, -⟩ := h
    rw [ht] at hp
    cases hp

/-- While no heartbeat handles a lost lease whose ack is on the wire, no task is cancelled
that sends an ack, and an accepted ack waits for its task until its event is emitted. -/
theorem ack_never_cancelled (h : (system ρ o).Reachable (fun s a => SparesAcks s a = true) s)
    (hx : s.jobs[e]? = some x) :
    (∀ k w pc, x.proc = .sending k w pc → x.procWake ≠ some .cancelled) ∧
    (∀ k r, verdict k r = .accepted → x.Replied k r →
      ∀ s', (system ρ o).Reaches (fun s a => SparesAcks s a = true) s s' →
        ∃ x', s'.jobs[e]? = some x' ∧ (x'.Replied k r ∨ ackEvent x.job k ∈ x'.events)) ∧
    (∀ r, verdict (.fail shutdownTimeoutError : Ack ρ) r = .accepted → x.StopReplied r →
      ∀ s', (system ρ o).Reaches (fun s a => SparesAcks s a = true) s s' →
        ∃ x', s'.jobs[e]? = some x' ∧
          (x'.StopReplied r ∨ ackEvent x.job (.fail shutdownTimeoutError) ∈ x'.events)) := by
  refine ⟨fun k w pc hp => uncancelled_of_reachable h hx (by rw [hp]; rfl), ?_, ?_⟩
  · intro k r hv hrep s' h'
    refine (preserves_job
      (P := fun y => y.job = x.job ∧ (y.Replied k r ∨ ackEvent x.job k ∈ y.events)) ?_ h h' hx
      ⟨rfl, .inl hrep⟩).imp fun x' hx' => ⟨hx'.1, hx'.2.2⟩
    rintro t a t' y y' hr ha hstep hy hy' ⟨hjob, hP⟩ hm
    refine ⟨hm.job.trans hjob, ?_⟩
    rcases hP with hP | hev
    · have hnext : y'.Replied k r ∨ (y'.proc.acking = true ∧ y'.procWake = some .cancelled) ∨
          ackEvent y.job k ∈ y'.events := by
        cases hm with
        | next _ hn => exact hn.replied_proc hP hv
        | displaced => exact .inl hP
        | begun => exact .inl hP
        | registered _ _ ht | unreleased _ _ _ ht | release _ _ _ ht | released _ ht =>
          obtain ⟨⟨w, hp⟩, -⟩ := hP
          rw [ht] at hp
          cases hp
        | forced =>
          obtain ⟨w, hw⟩ := y.forceFail_eq
          obtain ⟨⟨w', hp⟩, hwake⟩ := hP
          have hproc : y.forceFail.1.proc = y.proc := by rw [hw]
          unfold ActiveJob.forceFail
          split
          · exact .inl ⟨⟨w', hp⟩, hwake⟩
          · refine .inr (.inl ?_)
            rw [ActiveJob.cancelProc, if_pos (show y.proc.cancellable = true by rw [hp]; rfl)]
            exact ⟨by show y.proc.acking = true; rw [hp]; rfl, rfl⟩
      rcases hnext with hrep' | ⟨hack, hcanc⟩ | hev
      · exact .inl hrep'
      · exact absurd hcanc (uncancelled_of_reachable (hr.step ha hstep) hy' hack)
      · exact .inr (hjob ▸ hev)
    · exact .inr (hm.events.subset hev)
  · intro r hv hrep s' h'
    refine (preserves_job
      (P := fun y => y.job = x.job ∧
        (y.StopReplied r ∨ ackEvent x.job (.fail shutdownTimeoutError) ∈ y.events)) ?_ h h' hx
      ⟨rfl, .inl hrep⟩).imp fun x' hx' => ⟨hx'.1, hx'.2.2⟩
    rintro t a t' y y' hr ha hstep hy hy' ⟨hjob, hP⟩ hm
    refine ⟨hm.job.trans hjob, ?_⟩
    rcases hP with hP | hev
    · exact (hm.replied_stop hP hv).imp_right fun hev => hjob ▸ hev
    · exact .inr (hm.events.subset hev)

end

/-! ### A heartbeat that cancels an ack -/

/-- The handler returns 7 while the heartbeat waits for its answer, and the ack is sent. -/
def Action.ackBesideBeat : List (Action ℕ) :=
  Action.claim [sampleJob] ++ Action.create ++ Action.segment 0 .proc 1 ++
    [.job 0 (.handler .proc none)] ++ Action.segment 0 .beat 1 ++ [.job 0 (.wake .beat .timer)] ++
    Action.segment 0 .beat 1 ++ [.job 0 (.wake .proc .user), .run,
    .job 0 (.handler .proc (some (.returned 7)))] ++ Action.ack 0

/-- An ack whose acceptance has arrived is followed by its event. -/
theorem ack_never_cancelled_sample : ∃ (s : SpooledWorker ℕ) (x : ActiveJob ℕ),
    s.jobs[0]? = some x ∧ ackEvent x.job (.complete 7) ∈ x.events := by
  have hrun : ((system ℕ sampleOptions).runIf (fun s a => SparesAcks s a = true)
      (system ℕ sampleOptions).init
      (Action.ackBesideBeat ++ [.job 0 (.wake .proc (.reply .ok))])).any
      (fun s => (s.jobs[0]?.any fun x =>
          x.proc = .sending (.complete 7) "w" .wait && x.procWake = some (.reply .ok)) &&
        ((system ℕ sampleOptions).runIf (fun s a => SparesAcks s a = true) s
          (Action.segment 0 .proc 1)).any fun s' => s'.jobs[0]?.any fun x' =>
            x'.proc = .cleanup) = true := by
    decide
  obtain ⟨s, hs, hp⟩ := System.exists_of_runIf hrun
  rw [Bool.and_eq_true] at hp
  obtain ⟨x, hx, hsent⟩ := (Option.any_eq_true _ _).mp hp.1
  rw [Bool.and_eq_true, decide_eq_true_eq, decide_eq_true_eq] at hsent
  obtain ⟨s', hs', hclean⟩ := (Option.any_eq_true _ _).mp hp.2
  obtain ⟨y, hy, hclean⟩ := (Option.any_eq_true _ _).mp hclean
  obtain ⟨x', hx', hend⟩ := (ack_never_cancelled hs hx).2.1 (.complete 7) .ok rfl
    ⟨⟨_, hsent.1⟩, hsent.2⟩ s' (System.reaches_of_runIf hs')
  rw [hy, Option.some_inj] at hx'
  subst hx'
  obtain ⟨⟨w, hw⟩, -⟩ | hev := hend
  · rw [of_decide_eq_true hclean] at hw
    cases hw
  · obtain ⟨z, hz, hjob⟩ := job_of_reaches hs (System.reaches_of_runIf hs') hx
    rw [hy, Option.some_inj] at hz
    exact ⟨s', y, hy, (hz ▸ hjob) ▸ hev⟩

/-- A heartbeat that is answered 409 cancels the process task while its `complete` is on the
wire, and the event of the accepted ack is lost. -/
theorem ack_cancelled :
    (¬ ∀ (o : Options) (s : SpooledWorker ℕ) (e : ℕ) (x : ActiveJob ℕ),
      (system ℕ o).Reachable System.always s → s.jobs[e]? = some x →
      ∀ k w pc, x.proc = .sending k w pc → x.procWake ≠ some .cancelled) ∧
    (¬ ∀ (o : Options) (s s' : SpooledWorker ℕ) (e : ℕ) (x x' : ActiveJob ℕ) (k : Ack ℕ)
      (r : Reply), (system ℕ o).Reachable System.always s → s.jobs[e]? = some x →
      verdict k r = .accepted → x.Replied k r → (system ℕ o).Reaches System.always s s' →
      s'.jobs[e]? = some x' → x'.proc = .done → ackEvent x.job k ∈ x'.events) := by
  constructor
  · intro hall
    have hrun : ((system ℕ sampleOptions).run (system ℕ sampleOptions).init
        (Action.ackBesideBeat ++ [.job 0 (.wake .beat (.reply .leaseExpired))] ++
          Action.segment 0 .beat 3)).any (fun s => s.jobs[0]?.any fun x =>
          x.proc = .sending (.complete 7) "w" .wait && x.procWake = some .cancelled) = true := by
      decide
    obtain ⟨s, hs, hp⟩ := System.exists_of_run hrun
    obtain ⟨x, hx, hout⟩ := (Option.any_eq_true _ _).mp hp
    rw [Bool.and_eq_true, decide_eq_true_eq, decide_eq_true_eq] at hout
    exact hall _ s 0 x hs hx _ _ _ hout.1 hout.2
  · intro hall
    have hrun : ((system ℕ sampleOptions).run (system ℕ sampleOptions).init
        (Action.ackBesideBeat ++ [.job 0 (.wake .beat (.reply .leaseExpired)),
          .job 0 (.wake .proc (.reply .ok))])).any
        (fun s => (s.jobs[0]?.any fun x =>
            x.proc = .sending (.complete 7) "w" .wait && x.procWake = some (.reply .ok)) &&
          ((system ℕ sampleOptions).run s
            (Action.segment 0 .beat 3 ++ Action.segment 0 .proc 2)).any fun s' =>
              s'.jobs[0]?.any fun x' => x'.proc = .done &&
                !x'.events.any JobEvent.isAck) = true := by
      decide
    obtain ⟨s, hs, hp⟩ := System.exists_of_run hrun
    rw [Bool.and_eq_true] at hp
    obtain ⟨x, hx, hsent⟩ := (Option.any_eq_true _ _).mp hp.1
    simp only [Bool.and_eq_true, decide_eq_true_eq] at hsent
    obtain ⟨s', hs', hdone⟩ := (Option.any_eq_true _ _).mp hp.2
    obtain ⟨x', hx', hdone⟩ := (Option.any_eq_true _ _).mp hdone
    simp only [Bool.and_eq_true, decide_eq_true_eq, Bool.not_eq_true'] at hdone
    have hev := hall _ s s' 0 x x' (.complete 7) .ok hs hx rfl ⟨⟨_, hsent.1⟩, hsent.2⟩
      (System.reaches_of_run hs') hx' hdone.1
    have hany : x'.events.any JobEvent.isAck = true :=
      List.any_eq_true.mpr ⟨_, hev, ackEvent_isAck _ _⟩
    rw [hdone.2] at hany
    cases hany

end SpooledSdk.Worker.Async
