/-
Executions of the synchronous worker refine the abstract lease.

`ActiveJob.lease` reads an execution as a lease: its three senders are the program
counters of the thread, of the job timer and of `stop()`, and a job that the poll
releases is a lease the poll itself takes.

* `Move.lease` — every move is one step of the lease or none;
* `leaseSimulation` — runs of the worker simulate lives of the lease;
* `fenced_of_reachable`, `told_of_reachable` — what holds of every lease holds of every
  execution of a reachable worker.
-/
import SpooledSdk.Worker.SyncMove

namespace SpooledSdk.Worker.Sync

variable {ρ : Type}

/-- The ack the thread is sending. -/
def ThreadPc.sendingAck : ThreadPc ρ → Option (Ack ρ × String × SendPc)
  | .sending a w pc => some (a, w, pc)
  | _ => none

/-- The release on the wire. -/
def ThreadPc.sendingRelease : ThreadPc ρ → Option (Ack ρ × String × SendPc)
  | .releaseSent w => some (.fail unstartedClaimError, w, .wait)
  | _ => none

/-- The ack `_abandon_job` is sending for `reason`. -/
def AbandonPc.sendingAck (reason : String) : AbandonPc → Option (Ack ρ × String × SendPc)
  | .sending w pc => some (.fail reason, w, pc)
  | _ => none

/-- What the heartbeat chain knows of an expired lease. -/
def BeatPc.expiry : BeatPc → Expiry
  | .lose => .found
  | .report => .reporting
  | _ => .quiet

namespace ActiveJob

/-- Who is sending which ack. -/
def sending (x : ActiveJob ρ) : Taker → Option (Ack ρ × String × SendPc)
  | .runner => x.thread.sendingAck
  | .timeout => x.timeout.sendingAck jobTimeoutError
  | .stopper => x.stopper.sendingAck shutdownTimeoutError
  | .poll => x.thread.sendingRelease

/-- Where the claimed job stands. -/
def standing (x : ActiveJob ρ) : Standing :=
  if x.thread.unstarted then .waiting else if x.tracked then .entry else .gone

/-- Who holds the right to ack: the poll for a job it releases, else `settled`. -/
def right (x : ActiveJob ρ) : Option (Taker × Ack ρ) :=
  match x.thread with
  | .releaseSent _ | .released => some (.poll, .fail unstartedClaimError)
  | _ => x.settled

/-- An execution read as a lease. -/
def lease (x : ActiveJob ρ) : Lease ρ where
  job := x.job
  standing := x.standing
  lost := x.leaseLost
  right := x.right
  sending := x.sending
  beat := x.beat.expiry
  calls := x.calls
  events := x.events.filter JobEvent.isTerminal

/-! ### Field updates of the lease -/

variable {x : ActiveJob ρ}

theorem right_of_started (h : x.thread.unstarted = false) : x.right = x.settled := by
  rw [right]
  split
  · rename_i ht
    rw [ht] at h
    cases h
  · rename_i ht
    rw [ht] at h
    cases h
  · rfl

theorem standing_of_started (h : x.thread.unstarted = false) :
    x.standing = if x.tracked then .entry else .gone := by
  rw [standing, h]
  rfl

theorem lease_fresh (j : ClaimedJob) : ({ job := j } : ActiveJob ρ).lease = { job := j } := by
  refine Lease.ext rfl rfl rfl rfl ?_ rfl rfl rfl
  funext t
  cases t <;> rfl

theorem lease_thread {pc : ThreadPc ρ} (h : x.thread.unstarted = false)
    (hpc : pc.unstarted = false) :
    ({ x with thread := pc } : ActiveJob ρ).lease = x.lease.setSending .runner pc.sendingAck := by
  have hr : ∀ {q : ThreadPc ρ}, q.unstarted = false → q.sendingRelease = none := by
    intro q hq
    cases q <;> first | rfl | cases hq
  refine Lease.ext rfl ?_ rfl ?_ ?_ rfl rfl rfl
  · exact (standing_of_started hpc).trans (standing_of_started h).symm
  · exact (right_of_started hpc).trans (right_of_started h).symm
  · funext t
    cases t with
    | runner => rfl
    | poll => exact (hr hpc).trans (hr h).symm
    | timeout => rfl
    | stopper => rfl

/-- The thread moves between places where it sends nothing. -/
theorem lease_thread_quiet {pc : ThreadPc ρ} (h : x.thread.unstarted = false)
    (hpc : pc.unstarted = false) (hq : x.thread.sendingAck = pc.sendingAck) :
    ({ x with thread := pc } : ActiveJob ρ).lease = x.lease := by
  rw [lease_thread h hpc]
  exact Lease.setSending_self hq

theorem lease_timeout {pc : AbandonPc} :
    ({ x with timeout := pc } : ActiveJob ρ).lease =
      x.lease.setSending .timeout (pc.sendingAck jobTimeoutError) := by
  refine Lease.ext rfl rfl rfl rfl ?_ rfl rfl rfl
  funext t
  cases t <;> rfl

theorem lease_stopper {pc : AbandonPc} :
    ({ x with stopper := pc } : ActiveJob ρ).lease =
      x.lease.setSending .stopper (pc.sendingAck shutdownTimeoutError) := by
  refine Lease.ext rfl rfl rfl rfl ?_ rfl rfl rfl
  funext t
  cases t <;> rfl

theorem lease_emit {ev : JobEvent ρ} (h : ev.isTerminal = true) :
    (x.emit ev).lease = { x.lease with events := x.lease.events ++ [ev] } := by
  refine Lease.ext rfl rfl rfl rfl rfl rfl rfl ?_
  show (x.events ++ [ev]).filter JobEvent.isTerminal = _
  rw [List.filter_append, List.filter_cons_of_pos h]
  rfl

theorem lease_emit_quiet {ev : JobEvent ρ} (h : ev.isTerminal = false) :
    (x.emit ev).lease = x.lease := by
  refine Lease.ext rfl rfl rfl rfl rfl rfl rfl ?_
  show (x.events ++ [ev]).filter JobEvent.isTerminal = _
  rw [List.filter_append, List.filter_cons_of_neg (by simp [h])]
  exact List.append_nil _

theorem lease_cancelTimers : x.cancelTimers.lease = x.lease := by
  refine Lease.ext rfl rfl rfl rfl ?_ ?_ rfl rfl
  · funext t
    cases t with
    | timeout =>
      show (if x.timeout = .armed then AbandonPc.over else x.timeout).sendingAck _ = _
      split
      · rename_i h
        exact (congrArg (AbandonPc.sendingAck jobTimeoutError) h).symm
      · rfl
    | runner => rfl
    | stopper => rfl
    | poll => rfl
  · show (if x.beat = .armed then BeatPc.off else x.beat).expiry = _
    split
    · rename_i h
      exact (congrArg BeatPc.expiry h).symm
    · rfl

theorem lease_loseLease : x.loseLease.lease = { x.lease with lost := true } := by
  rw [← lease_cancelTimers (x := x)]
  rfl

theorem lease_reportLost {op : String} : (x.reportLost op).lease =
    { x.lease with events := x.lease.events ++ [leaseLostEvent x.job op] } :=
  lease_emit (x := { x with abortEvent := true }) rfl

theorem lease_settle {t : Taker} {a : Ack ρ} (h : x.thread.unstarted = false) :
    (x.settle t a).lease = { x.lease with right := some (t, a) } :=
  Lease.ext rfl rfl rfl (right_of_started (x := x.settle t a) h) rfl rfl rfl rfl

/-- An execution goes out of service: the lease leaves if it was the entry. -/
theorem lease_leave {y : ActiveJob ρ} (h : x.thread.unstarted = false) (hy : y.tracked = false)
    (hl : y.lease = { x.lease with standing := y.standing }) (hs : y.thread.unstarted = false)
    (p : Actor) : y.lease = x.lease ∨ Lease.Step x.lease p none y.lease := by
  have hgone : y.standing = .gone := by
    rw [standing_of_started hs, hy]
    rfl
  rw [hgone] at hl
  have hx : x.lease.standing = if x.tracked then .entry else .gone := standing_of_started h
  cases ht : x.tracked with
  | true =>
    rw [ht] at hx
    rw [hl]
    exact .inr (.leave hx)
  | false =>
    rw [ht] at hx
    rw [hl]
    exact .inl (Lease.ext rfl hx.symm rfl rfl rfl rfl rfl rfl)

end ActiveJob

/-- Who acts on an execution. -/
def JobAction.actor : JobAction ρ → Actor
  | .thread _ | .handlerEnds _ => .taker .runner
  | .timeout _ => .taker .timeout
  | .stopper _ => .taker .stopper
  | .beat _ => .beat

/-- The reply an action consumes. -/
def JobAction.reply : JobAction ρ → Option Reply
  | .handlerEnds _ => none
  | .thread r | .timeout r | .stopper r | .beat r => r

/-- Who acts on a lease in a step of the worker. -/
def Action.actor : Action ρ → Actor
  | .job _ a => a.actor
  | .main _ => .taker .poll
  | .stop _ => .taker .stopper

/-- The reply a step of the worker consumes. -/
def Action.reply : Action ρ → Option Reply
  | .job _ a => a.reply
  | .main (.releaseReply ok) => some (if ok then .ok else .error)
  | _ => none

/-! ### Before the timers start -/

/-- The job timer is armed once, when the handler is about to be called. -/
def ThreadPc.unarmed : ThreadPc ρ → Bool
  | .registered | .scheduled | .refused | .queued | .arming => true
  | pc => pc.unstarted

/-- Neither timer runs before its start. -/
structure ActiveJob.Fresh (x : ActiveJob ρ) : Prop where
  timeout : x.thread.unarmed = true → x.timeout = .idle
  beat : x.thread.unstarted = true ∨ x.thread = .registered → x.beat = .off

theorem ActiveJob.Next.fresh {v : View} {x x' : ActiveJob ρ} {a : JobAction ρ} {eff : Effect}
    (h : ActiveJob.Next v x a x' eff) (hx : x.Fresh) : x'.Fresh := by
  -- the thread and the timers of `y` are those of `x`, up to cancelled timers
  have hsame : ∀ {y : ActiveJob ρ}, y.thread = x.thread → SameTimers x y → y.Fresh := by
    intro y ht hs
    exact ⟨fun hu => hs.timeout_idle (hx.timeout (ht ▸ hu)),
      fun hu => hs.beat_off (hx.beat (ht ▸ hu))⟩
  -- a heartbeat that moves is past the registration
  have hbeat : ∀ {y : ActiveJob ρ}, y.thread = x.thread →
      (x.timeout = .idle → y.timeout = .idle) → x.beat ≠ .off → y.Fresh := by
    intro y ht hs hne
    exact ⟨fun hu => hs (hx.timeout (ht ▸ hu)), fun hu => absurd (hx.beat (ht ▸ hu)) hne⟩
  cases h with
  | pickUp ht =>
    exact ⟨fun _ => hx.timeout (by rw [ht]; rfl), by rintro (hu | hu) <;> cases hu⟩
  | arm ht | call ht | denied ht | granted ht | cleanup ht =>
    exact ⟨nofun, by rintro (hu | hu) <;> cases hu⟩
  | @ends o ht => cases hack : o.ack <;> exact ⟨nofun, by rintro (hu | hu) <;> cases hu⟩
  | @send a w pc r y pc' ht hs => cases pc' <;> exact ⟨nofun, by rintro (hu | hu) <;> cases hu⟩
  | @timeout r y pc' eff hs =>
    have ht := hs.frame.1
    refine ⟨fun hu => ?_, fun hu => ?_⟩
    · rw [hx.timeout (ht ▸ hu)] at hs
      cases hs
    · exact hs.timers.beat_off (hx.beat (ht ▸ hu))
  | stopper hs => exact hsame hs.frame.1 ⟨hs.timers.timeout, hs.timers.beat⟩
  | beatFire hb | beatCheck hb _ | beatSend hb | beatOk hb | beatExpired hb | beatCrash hb
  | beatError hb | beatAlreadyLost hb _ | beatReported hb | beatRearm hb _ =>
    exact hbeat rfl id (by rw [hb]; simp)
  | beatLost hb hl =>
    exact hbeat rfl (SameTimers.of_cancel rfl rfl : SameTimers x x.cancelTimers).timeout_idle
      (by rw [hb]; simp)

theorem Move.fresh {s : SpooledWorker ρ} {e : ℕ} {x x' : ActiveJob ρ} {a : Action ρ}
    (h : Move s e x a x') (hx : x.Fresh) : x'.Fresh := by
  cases h with
  | next h => exact h.fresh hx
  | held _ _ ht | unreleased _ _ ht | release _ _ ht | released _ ht =>
    have htimeout : x.timeout = .idle := hx.timeout (by rw [ht]; rfl)
    have hbeat : x.beat = .off := hx.beat (.inl (by rw [ht]; rfl))
    exact ⟨fun _ => htimeout, fun _ => hbeat⟩
  | registered _ _ ht =>
    exact ⟨fun _ => hx.timeout (by rw [ht]; rfl), fun _ => hx.beat (.inl (by rw [ht]; rfl))⟩
  | displaced => exact ⟨hx.timeout, hx.beat⟩
  | begun => exact ⟨hx.timeout, hx.beat⟩
  | scheduled _ ht | submitted _ _ ht =>
    exact ⟨fun _ => hx.timeout (by rw [ht]; rfl), by rintro (hu | hu) <;> cases hu⟩
  | refused _ ht =>
    have hs : ActiveJob.SameTimers x x.cancelTimers := .of_cancel rfl rfl
    exact ⟨fun _ => hs.timeout_idle (hx.timeout (by rw [ht]; rfl)),
      by rintro (hu | hu) <;> cases hu⟩

section

variable {s : SpooledWorker ρ} {e : ℕ} {x : ActiveJob ρ} {o : Options}
  {ok : SpooledWorker ρ → Action ρ → Prop}

theorem fresh_of_reachable (h : (system ρ o).Reachable ok s) (hx : s.jobs[e]? = some x) :
    x.Fresh :=
  forall_jobs (fun _ => ⟨fun _ => rfl, fun _ => rfl⟩) (fun _ _ _ _ _ hP hm => hm.fresh hP) h hx

end

/-! ### Moves refine steps of the lease -/

/-- A sender's step, stored with the sender's new program counter, is a step of the lease. -/
theorem ActiveJob.SendStep.lease {x y : ActiveJob ρ} {a : Ack ρ} {w : String} {pc : SendPc}
    {r : Option Reply} {q : Option SendPc} {t : Taker} (h : ActiveJob.SendStep x a w pc r y q)
    (hp : x.lease.sending t = some (a, w, pc)) (hs : x.lease.standing ≠ .waiting) :
    Lease.Step x.lease (.taker t) r (y.lease.setSending t (q.map fun pc => (a, w, pc))) := by
  cases h with
  | passed hl => exact .pass hp hl
  | stopped hl => exact .stop hp hl
  | sent => exact .call hp
  | accepted hv =>
    rw [ActiveJob.lease_emit (by simp [JobEvent.isTerminal])]
    exact .accepted hp hv
  | expired hv => exact .expired hp hs
  | rejected hv =>
    rw [ActiveJob.lease_emit_quiet rfl]
    exact .dropped hp
  | alreadyLost hl => exact .alreadyLost hp hl
  | lost hl =>
    rw [ActiveJob.lease_loseLease]
    exact .lose hp hl
  | reported =>
    rw [ActiveJob.lease_reportLost]
    exact .report hp

/-- `_abandon_job`, run by `t` for `reason` and stored with its new program counter, makes
a step of the lease or none. -/
theorem ActiveJob.AbandonStep.lease {v : View} {x y : ActiveJob ρ} {t : Taker} {reason : String}
    {pc pc' : AbandonPc} {r : Option Reply} {eff : Effect}
    (h : ActiveJob.AbandonStep v x t reason pc r y pc' eff) (hu : x.thread.unstarted = false)
    (hv : v.entry = x.tracked) (hp : x.lease.sending t = pc.sendingAck reason) :
    y.lease.setSending t (pc'.sendingAck reason) = x.lease ∨
      Lease.Step x.lease (.taker t) r (y.lease.setSending t (pc'.sendingAck reason)) := by
  have hstand : x.lease.standing = if x.tracked then .entry else .gone := standing_of_started hu
  cases h with
  | fire | denied | signal => exact .inl (Lease.setSending_self hp)
  | granted hm =>
    rw [lease_settle hu]
    refine .inr (.take ?_ hm.notLost ((right_of_started hu).trans hm.notSettled))
    rw [hstand, ← hv, hm.entry]
    rfl
  | @send w pc r y pc' hs =>
    have hpc : ((pc'.elim AbandonPc.book (.sending w)).sendingAck reason :
        Option (Ack ρ × String × SendPc)) = pc'.map fun pc => (.fail reason, w, pc) := by
      cases pc' <;> rfl
    rw [hpc]
    refine .inr (hs.lease hp ?_)
    rw [hstand]
    split <;> simp
  | book =>
    have hself : (x.bookAbandoned.1).lease.setSending t (AbandonPc.over.sendingAck reason) =
        (x.bookAbandoned.1).lease := by
      refine Lease.setSending_self (Eq.trans ?_ hp)
      exact congrFun (congrArg Lease.sending (lease_cancelTimers (x := x))) t
    rw [hself]
    exact lease_leave (y := x.bookAbandoned.1) hu rfl
      (by rw [← lease_cancelTimers (x := x)]; rfl) hu _

/-- What a move of one actor does to the lease. -/
theorem ActiveJob.Next.lease {v : View} {x x' : ActiveJob ρ} {a : JobAction ρ} {eff : Effect}
    (h : ActiveJob.Next v x a x' eff) (hb : x.thread.unstarted = true → x.Blank)
    (hv : v.entry = x.tracked) (harm : x.thread.unarmed = true → x.timeout = .idle) :
    x'.lease = x.lease ∨ Lease.Step x.lease a.actor a.reply x'.lease := by
  obtain ⟨hu, hu'⟩ := h.started hb
  have hstand : x.lease.standing = if x.tracked then .entry else .gone := standing_of_started hu
  have hnot : x.lease.standing ≠ .waiting := by
    rw [hstand]
    split <;> simp
  -- the heartbeat chain moves between places where it knows nothing
  have hquiet : ∀ {pc : BeatPc}, x.beat.expiry = .quiet → pc.expiry = .quiet →
      ({ x with beat := pc } : ActiveJob ρ).lease = x.lease := fun h h' =>
    Lease.ext rfl rfl rfl rfl rfl (h'.trans h.symm) rfl rfl
  cases h with
  | pickUp ht =>
    refine .inl ?_
    rw [lease_emit_quiet rfl]
    exact lease_thread_quiet hu rfl (by rw [ht]; rfl)
  | arm ht =>
    refine .inl ?_
    have htimer : x.startJobTimeout.lease = x.lease := by
      rw [startJobTimeout]
      split
      · rw [lease_timeout]
        refine Lease.setSending_self ?_
        show x.timeout.sendingAck _ = _
        rw [harm (by rw [ht]; rfl)]
        rfl
      · rfl
    have hthread : x.startJobTimeout.thread = x.thread := by
      rw [startJobTimeout]
      split <;> rfl
    rw [lease_thread_quiet (by rw [hthread]; exact hu) rfl (by rw [hthread, ht]; rfl), htimer]
  | call ht => exact .inl (lease_thread_quiet hu rfl (by rw [ht]; rfl))
  | @ends o ht =>
    refine .inl (lease_thread_quiet hu hu' ?_)
    rw [ht]
    cases o.ack <;> rfl
  | denied ht => exact .inl (lease_thread_quiet hu rfl (by rw [ht]; rfl))
  | @granted a w ht hm =>
    rw [lease_thread (x := x.settle .runner a) hu rfl, lease_settle hu]
    refine .inr (.take ?_ hm.notLost ((right_of_started hu).trans hm.notSettled))
    rw [hstand, ← hv, hm.entry]
    rfl
  | @send a w pc r y pc' ht hs =>
    have hy : y.thread.unstarted = false := by rw [hs.same.thread]; exact hu
    have hpc : (pc'.elim ThreadPc.cleanup (.sending a w)).sendingAck =
        pc'.map fun pc => (a, w, pc) := by
      cases pc' <;> rfl
    rw [lease_thread hy hu', hpc]
    exact .inr (hs.lease (by show x.thread.sendingAck = _; rw [ht]; rfl) hnot)
  | cleanup ht =>
    have hthread : ({ x with thread := .returned } : ActiveJob ρ).lease = x.lease :=
      lease_thread_quiet hu rfl (by rw [ht]; rfl)
    refine lease_leave hu rfl ?_ rfl _
    rw [← hthread, ← lease_cancelTimers (x := { x with thread := .returned })]
    rfl
  | timeout hs =>
    rw [lease_timeout]
    exact hs.lease hu hv rfl
  | stopper hs =>
    rw [lease_stopper]
    exact hs.lease hu hv rfl
  | beatFire hbeat | beatSend hbeat | beatOk hbeat | beatCrash hbeat =>
    exact .inl (hquiet (by rw [hbeat]; rfl) rfl)
  | beatCheck hbeat hpc =>
    refine .inl (hquiet (by rw [hbeat]; rfl) ?_)
    rcases hpc with rfl | ⟨w, rfl⟩ <;> rfl
  | beatRearm hbeat hpc =>
    refine .inl (hquiet (by rw [hbeat]; rfl) ?_)
    rcases hpc with rfl | rfl <;> rfl
  | beatError hbeat =>
    rw [lease_emit_quiet rfl]
    exact .inl (hquiet (by rw [hbeat]; rfl) rfl)
  | beatExpired hbeat =>
    have hb' : x.lease.beat = .quiet := by
      show x.beat.expiry = _
      rw [hbeat]
      rfl
    exact .inr (.beatFound hnot hb')
  | beatAlreadyLost hbeat hl =>
    have hb' : x.lease.beat = .found := by
      show x.beat.expiry = _
      rw [hbeat]
      rfl
    exact .inr (.beatIdle hb' hl)
  | beatLost hbeat hl =>
    have hb' : x.lease.beat = .found := by
      show x.beat.expiry = _
      rw [hbeat]
      rfl
    have hlost : ({ x.loseLease with beat := .report } : ActiveJob ρ).lease =
        { x.lease with beat := .reporting, lost := true } := by
      rw [← lease_cancelTimers (x := x)]
      rfl
    rw [hlost]
    exact .inr (.beatLose hb' hl)
  | beatReported hbeat =>
    have hb' : x.lease.beat = .reporting := by
      show x.beat.expiry = _
      rw [hbeat]
      rfl
    rw [lease_reportLost]
    exact .inr (.beatReport hb')

/-- The view of an execution shows its own live flag. -/
theorem view_entry {s : SpooledWorker ρ} {e : ℕ} {x : ActiveJob ρ} (hwf : Wf s)
    (hx : s.jobs[e]? = some x) : (s.view e x).entry = x.tracked := by
  rw [SpooledWorker.view, Bool.eq_iff_iff, decide_eq_true_iff]
  exact (hwf.indexed.live_iff hx).symm

/-- What a move of the worker does to the lease of the execution. -/
theorem Move.lease {s : SpooledWorker ρ} {e : ℕ} {x x' : ActiveJob ρ} {a : Action ρ}
    (h : Move s e x a x') (hwf : Wf s) (hx : s.jobs[e]? = some x) (hfresh : x.Fresh) :
    x'.lease = x.lease ∨ Lease.Step x.lease a.actor a.reply x'.lease := by
  -- the poll moves the job between places where it is not registered and nobody sends
  have hpoll : ∀ {pc : ThreadPc ρ}, x.thread.unstarted = true → pc.unstarted = true →
      x.thread.sendingRelease = pc.sendingRelease → x.right = ({ x with thread := pc }).right →
      ({ x with thread := pc } : ActiveJob ρ).lease = x.lease := by
    intro pc hu hu' hs hr
    have hnone : ∀ {q : ThreadPc ρ}, q.unstarted = true → q.sendingAck = none := by
      intro q hq
      cases q <;> first | rfl | cases hq
    refine Lease.ext rfl ?_ rfl hr.symm ?_ rfl rfl rfl
    · show ActiveJob.standing _ = ActiveJob.standing _
      rw [ActiveJob.standing, ActiveJob.standing, hu]
      simp [hu']
    · funext t
      cases t with
      | runner => exact (hnone hu').trans (hnone hu).symm
      | poll => exact hs.symm
      | timeout => rfl
      | stopper => rfl
  cases h with
  | next h => exact h.lease (hwf.blank hx) (view_entry hwf hx) hfresh.timeout
  | held hm hi ht =>
    refine .inl (hpoll (by rw [ht]; rfl) rfl (by rw [ht]; rfl) ?_)
    simp [ActiveJob.right, ht]
  | registered hm hi ht =>
    have hw : x.lease.standing = .waiting := by
      show x.standing = _
      rw [ActiveJob.standing, ht]
      rfl
    have hr : x.lease.right = none := by
      show x.right = _
      rw [ActiveJob.right, ht]
      exact (hwf.blank hx (by rw [ht]; rfl)).settled
    refine .inr ?_
    have henter : ({ x with thread := .registered, tracked := true } : ActiveJob ρ).lease =
        { x.lease with standing := .entry } := by
      refine Lease.ext rfl rfl rfl ?_ ?_ rfl rfl rfl
      · show x.settled = x.right
        rw [ActiveJob.right, ht]
      · funext t
        cases t with
        | runner => exact (congrArg ThreadPc.sendingAck ht).symm
        | poll => exact (congrArg ThreadPc.sendingRelease ht).symm
        | timeout => rfl
        | stopper => rfl
    rw [henter]
    exact .enter hw hr
  | displaced hm hi hy he ht =>
    have hu : x.thread.unstarted = false := by
      by_contra hn
      rw [(hwf.blank hx (by simpa using hn)).tracked] at ht
      cases ht
    exact ActiveJob.lease_leave (y := x.displace) hu rfl rfl hu _
  | unreleased hm hw ht =>
    refine .inl (hpoll (by rw [ht]; rfl) rfl (by rw [ht]; rfl) ?_)
    simp [ActiveJob.right, ht]
  | @release todo w hm hw ht =>
    have hw' : x.lease.standing = .waiting := by
      show x.standing = _
      rw [ActiveJob.standing, ht]
      rfl
    have hr : x.lease.right = none := by
      show x.right = _
      rw [ActiveJob.right, ht]
      exact (hwf.blank hx (by rw [ht]; rfl)).settled
    have hsent : ({ x with
        thread := .releaseSent w
        calls := x.calls ++ [ackCall x.job w (.fail unstartedClaimError)] } : ActiveJob ρ).lease =
        { x.lease.setSending .poll (some (.fail unstartedClaimError, w, .wait)) with
          right := some (.poll, .fail unstartedClaimError)
          calls := x.lease.calls ++ [ackCall x.lease.job w (.fail unstartedClaimError)] } := by
      refine Lease.ext rfl hw'.symm rfl rfl ?_ rfl rfl rfl
      funext t
      cases t with
      | runner => exact (congrArg ThreadPc.sendingAck ht).symm
      | poll => rfl
      | timeout => rfl
      | stopper => rfl
    rw [hsent]
    exact .inr (.release hw' hr)
  | @released todo w ok hm ht =>
    have hp : x.lease.sending .poll = some (.fail unstartedClaimError, w, .wait) := by
      show x.thread.sendingRelease = _
      rw [ht]
      rfl
    have hdone : ({ x with thread := .released } : ActiveJob ρ).lease =
        x.lease.setSending .poll none := by
      refine Lease.ext rfl ?_ rfl ?_ ?_ rfl rfl rfl
      · show ({ x with thread := .released } : ActiveJob ρ).standing = x.standing
        simp [ActiveJob.standing, ht, ThreadPc.unstarted]
      · show ({ x with thread := .released } : ActiveJob ρ).right = x.right
        simp [ActiveJob.right, ht]
      · funext t
        cases t with
        | runner => exact (congrArg ThreadPc.sendingAck ht).symm
        | poll => rfl
        | timeout => rfl
        | stopper => rfl
    refine .inr ?_
    cases ok with
    | true =>
      rw [if_pos rfl, ActiveJob.lease_emit (by simp [JobEvent.isTerminal]), hdone]
      exact .accepted hp rfl
    | false =>
      rw [if_neg (by simp), ActiveJob.lease_emit_quiet rfl, hdone]
      exact .dropped hp
  | scheduled hm ht =>
    have hu : x.thread.unstarted = false := by rw [ht]; rfl
    refine .inl ?_
    rw [SpooledWorker.scheduleJobHeartbeat, ActiveJob.lease_emit_quiet rfl,
      ← ActiveJob.lease_thread_quiet hu (rfl : (ThreadPc.scheduled : ThreadPc ρ).unstarted = false)
        (by rw [ht]; rfl)]
    refine Lease.ext rfl rfl rfl rfl rfl ?_ rfl rfl
    show BeatPc.expiry (if _ then _ else _) = x.beat.expiry
    rw [hfresh.beat (.inr ht)]
    split <;> rfl
  | submitted hm hu ht =>
    exact .inl (ActiveJob.lease_thread_quiet (by rw [ht]; rfl) rfl (by rw [ht]; rfl))
  | refused hm ht =>
    have hu : x.thread.unstarted = false := by rw [ht]; rfl
    have hthread : ({ x with thread := .refused } : ActiveJob ρ).lease = x.lease :=
      ActiveJob.lease_thread_quiet hu rfl (by rw [ht]; rfl)
    refine ActiveJob.lease_leave hu rfl ?_ rfl _
    rw [← hthread, ← ActiveJob.lease_cancelTimers (x := { x with thread := .refused })]
    rfl
  | begun hs ht =>
    refine .inl ?_
    rw [ActiveJob.lease_stopper]
    refine Lease.setSending_self ?_
    show x.stopper.sendingAck _ = _
    rw [ht]
    rfl

/-! ### Runs refine lives of the lease -/

section

variable {s s' : SpooledWorker ρ} {e : ℕ} {x x' : ActiveJob ρ} {a : Action ρ} {o : Options}
  {ok : SpooledWorker ρ → Action ρ → Prop}

/-- Runs of the worker simulate the life of each lease. -/
def leaseSimulation (o : Options) (ok : SpooledWorker ρ → Action ρ → Prop) (e : ℕ) :
    Simulation (system ρ o) ok (Lease.Evolves (ρ := ρ)) ((system ρ o).Reachable ok) where
  abs s := s.jobs[e]?.map ActiveJob.lease
  matched s a s' hr _ hstep := by
    have hwf := wf_of_reachable hr
    cases hx : s.jobs[e]? with
    | some x =>
      obtain ⟨x', hx', rfl | hm⟩ := step_job hwf hstep hx
      · rw [hx']
      · rw [hx']
        rcases hm.lease hwf hx (fresh_of_reachable hr hx) with heq | hs
        · rw [Option.map_some, Option.map_some, heq]
        · exact .single (.step hs)
    | none =>
      cases hx' : s'.jobs[e]? with
      | none => exact .refl
      | some x' =>
        rcases step_move hwf hstep hx' with ⟨x, hx₁, -⟩ | ⟨-, j, rfl⟩
        · rw [hx] at hx₁
          cases hx₁
        · rw [Option.map_some, ActiveJob.lease_fresh]
          exact .single (.claimed j)

/-- Every execution of a reachable worker is a fenced lease. -/
theorem lease_sound (h : (system ρ o).Reachable ok s) (hx : s.jobs[e]? = some x) :
    x.lease.Fenced ∧ x.lease.Told := by
  have hrun := (leaseSimulation o ok e).reaches (fun _ => id) .init h
  exact Lease.Evolves.sound hrun _ (by simp [leaseSimulation, hx])

end

end SpooledSdk.Worker.Sync
