/-
Executions of the asynchronous worker refine the abstract lease.

The senders are `process_task`, `stop()`'s `_abandon_job` and, for a job it will not
start, the poll.  The job timeout has no sender of its own: `process_task` fails the job
itself.

* `Move.lease` — every move is one step of the lease or none;
* `leaseSimulation` — runs of the worker simulate lives of the lease;
* `lease_sound` — what holds of every lease holds of every execution.
-/
import SpooledSdk.Worker.Lease
import SpooledSdk.Worker.AsyncMove

namespace SpooledSdk.Worker.Async

variable {ρ : Type}

/-- The ack `process_task` is sending. -/
def ProcPc.sendingAck : ProcPc ρ → Option (Ack ρ × String × SendPc)
  | .sending a w pc => some (a, w, pc)
  | _ => none

/-- The release on the wire. -/
def ProcPc.sendingRelease : ProcPc ρ → Option (Ack ρ × String × SendPc)
  | .releaseSent w => some (.fail unstartedClaimError, w, .wait)
  | _ => none

/-- The ack `stop()` is sending. -/
def AbandonPc.sendingAck : AbandonPc → Option (Ack ρ × String × SendPc)
  | .sending w pc => some (.fail shutdownTimeoutError, w, pc)
  | _ => none

/-- What the heartbeat task knows of an expired lease. -/
def BeatPc.expiry : BeatPc → Expiry
  | .lose => .found
  | .report => .reporting
  | _ => .quiet

namespace ActiveJob

/-- Who is sending which ack. -/
def sending (x : ActiveJob ρ) : Taker → Option (Ack ρ × String × SendPc)
  | .runner => x.proc.sendingAck
  | .timeout => none
  | .stopper => x.stopper.sendingAck
  | .poll => x.proc.sendingRelease

/-- Where the claimed job stands. -/
def standing (x : ActiveJob ρ) : Standing :=
  if x.proc.unstarted then .waiting else if x.tracked then .entry else .gone

/-- Who holds the right to ack: the poll for a job it releases, else `settled`. -/
def right (x : ActiveJob ρ) : Option (Taker × Ack ρ) :=
  match x.proc with
  | .releaseSent _ | .released => some (.poll, .fail unstartedClaimError)
  | _ => x.settled

/-- An execution read as a lease. -/
def lease (x : ActiveJob ρ) : Lease ρ where
  job := x.job
  standing := x.standing
  lost := x.leaseLost
  right := x.right
  sending := x.sending
  beat := x.beat.expiry
  calls := x.calls
  events := x.events.filter JobEvent.isTerminal

/-! ### Field updates of the lease -/

variable {x y : ActiveJob ρ}

theorem right_of_started (h : x.proc.unstarted = false) : x.right = x.settled := by
  rw [right]
  split
  · rename_i hp
    rw [hp] at h
    cases h
  · rename_i hp
    rw [hp] at h
    cases h
  · rfl

theorem standing_of_started (h : x.proc.unstarted = false) :
    x.standing = if x.tracked then .entry else .gone := by
  rw [standing, h]
  rfl

theorem lease_fresh (j : ClaimedJob) : ({ job := j } : ActiveJob ρ).lease = { job := j } := by
  refine Lease.ext rfl rfl rfl rfl ?_ rfl rfl rfl
  funext t
  cases t <;> rfl

/-- `process_task` moves, and nothing else of the lease does. -/
theorem lease_proc {pc : ProcPc ρ} (h : x.proc.unstarted = false) (hpc : pc.unstarted = false) :
    ({ x with proc := pc } : ActiveJob ρ).lease = x.lease.setSending .runner pc.sendingAck := by
  have hr : ∀ {q : ProcPc ρ}, q.unstarted = false → q.sendingRelease = none := by
    intro q hq
    cases q <;> first | rfl | cases hq
  refine Lease.ext rfl ?_ rfl ?_ ?_ rfl rfl rfl
  · exact (standing_of_started hpc).trans (standing_of_started h).symm
  · exact (right_of_started hpc).trans (right_of_started h).symm
  · funext t
    cases t with
    | runner => rfl
    | poll => exact (hr hpc).trans (hr h).symm
    | timeout => rfl
    | stopper => rfl

/-- `process_task` moves between places where it sends nothing. -/
theorem lease_proc_quiet {pc : ProcPc ρ} (h : x.proc.unstarted = false)
    (hpc : pc.unstarted = false) (hq : x.proc.sendingAck = pc.sendingAck) :
    ({ x with proc := pc } : ActiveJob ρ).lease = x.lease := by
  rw [lease_proc h hpc]
  exact Lease.setSending_self hq

theorem lease_stopper {pc : AbandonPc} : ({ x with stopper := pc } : ActiveJob ρ).lease =
    x.lease.setSending .stopper pc.sendingAck := by
  refine Lease.ext rfl rfl rfl rfl ?_ rfl rfl rfl
  funext t
  cases t <;> rfl

/-- `stop()` moves between places where it sends nothing. -/
theorem lease_stopper_quiet {pc : AbandonPc}
    (hq : x.stopper.sendingAck = (pc.sendingAck : Option (Ack ρ × String × SendPc))) :
    ({ x with stopper := pc } : ActiveJob ρ).lease = x.lease := by
  rw [lease_stopper]
  exact Lease.setSending_self hq

/-- The heartbeat task moves between places where it knows nothing. -/
theorem lease_beat_quiet {pc : BeatPc} (hq : pc.expiry = x.beat.expiry) :
    ({ x with beat := pc } : ActiveJob ρ).lease = x.lease :=
  Lease.ext rfl rfl rfl rfl rfl hq rfl rfl

theorem lease_emit {ev : JobEvent ρ} (h : ev.isTerminal = true) :
    (x.emit ev).lease = { x.lease with events := x.lease.events ++ [ev] } := by
  refine Lease.ext rfl rfl rfl rfl rfl rfl rfl ?_
  show (x.events ++ [ev]).filter JobEvent.isTerminal = _
  rw [List.filter_append, List.filter_cons_of_pos h]
  rfl

theorem lease_emit_quiet {ev : JobEvent ρ} (h : ev.isTerminal = false) :
    (x.emit ev).lease = x.lease := by
  refine Lease.ext rfl rfl rfl rfl rfl rfl rfl ?_
  show (x.events ++ [ev]).filter JobEvent.isTerminal = _
  rw [List.filter_append, List.filter_cons_of_neg (by simp [h])]
  exact List.append_nil _

theorem lease_reportLost {op : String} : (x.reportLost op).lease =
    { x.lease with events := x.lease.events ++ [leaseLostEvent x.job op] } :=
  lease_emit (x := { x with abortEvent := true }) rfl

theorem lease_settle {t : Taker} {a : Ack ρ} (h : x.proc.unstarted = false) :
    (x.settle t a).lease = { x.lease with right := some (t, a) } :=
  Lease.ext rfl rfl rfl (right_of_started (x := x.settle t a) h) rfl rfl rfl rfl

/-- Wake-ups are not part of the lease. -/
theorem lease_cancelProc : x.cancelProc.1.lease = x.lease := by
  obtain ⟨w, hw⟩ := x.cancelProc_eq
  rw [hw]
  rfl

theorem lease_cancelBeat : x.cancelBeat.1.lease = x.lease := by
  obtain ⟨w, hw⟩ := x.cancelBeat_eq
  rw [hw]
  rfl

/-- An execution goes out of service: the lease leaves if it was the entry. -/
theorem lease_leave (h : x.proc.unstarted = false) (hy : y.tracked = false)
    (hl : y.lease = { x.lease with standing := y.standing }) (hs : y.proc.unstarted = false)
    (p : Actor) : y.lease = x.lease ∨ Lease.Step x.lease p none y.lease := by
  have hgone : y.standing = .gone := by
    rw [standing_of_started hs, hy]
    rfl
  rw [hgone] at hl
  have hx : x.lease.standing = if x.tracked then .entry else .gone := standing_of_started h
  cases ht : x.tracked with
  | true =>
    rw [ht] at hx
    rw [hl]
    exact .inr (.leave hx)
  | false =>
    rw [ht] at hx
    rw [hl]
    exact .inl (Lease.ext rfl hx.symm rfl rfl rfl rfl rfl rfl)

end ActiveJob

/-! ### Before the first segment of `process_task` -/

/-- The heartbeat and the inner task are created by `process_task`. -/
def ActiveJob.Fresh (x : ActiveJob ρ) : Prop :=
  x.proc = .created → x.inner = .none ∧ x.beat = .none

theorem ActiveJob.Frame.fresh {x x' : ActiveJob ρ} {a : JobAction ρ} {eff : Effect}
    (h : ActiveJob.Frame x a x' eff) (hx : x.Fresh) : x'.Fresh := by
  intro hc
  rcases h.proc with heq | ⟨-, hne, -⟩
  · obtain ⟨hi, hb⟩ := hx (heq ▸ hc)
    have hact := h.acts
    constructor
    · rcases h.inner with heq' | hk | ⟨-, hne, -⟩
      · rw [heq', hi]
      · rw [hk] at hact
        simp [acting, hi, InnerPc.alive] at hact
      · exact absurd hc hne
    · rcases h.beat with heq' | hk | ⟨-, hne, -⟩
      · rw [heq', hb]
      · rw [hk] at hact
        simp [acting, hb, BeatPc.alive] at hact
      · exact absurd hc hne
  · exact absurd hc hne

section

variable {s s' : SpooledWorker ρ} {e : ℕ} {x x' : ActiveJob ρ} {a : Action ρ} {o : Options}
  {ok : SpooledWorker ρ → Action ρ → Prop}

theorem fresh_of_reachable (h : (system ρ o).Reachable ok s) (hx : s.jobs[e]? = some x) :
    x.Fresh := by
  refine forall_jobs (fun _ => nofun) ?_ h hx
  intro s a s' e x x' hr _ _ hx _ hP hm
  cases hm with
  | next _ h => exact h.frame.fresh hP
  | registered _ _ ht =>
    have hb := (wf_of_reachable hr).blank hx (by rw [ht]; rfl)
    exact fun _ => ⟨hb.inner, hb.beat⟩
  | forced =>
    obtain ⟨w, hw⟩ := x.forceFail_eq
    rw [hw]
    exact hP
  | displaced | begun => exact hP
  | _ => exact nofun

end

/-! ### Moves refine steps of the lease -/

/-- A sender's step, stored with the sender's new program counter, is a step of the lease. -/
theorem ActiveJob.SendStep.lease {x y : ActiveJob ρ} {a : Ack ρ} {w : String} {pc : SendPc}
    {r : Option Reply} {q : Option SendPc} {t : Taker} (h : ActiveJob.SendStep x a w pc r y q)
    (hp : x.lease.sending t = some (a, w, pc)) (hs : x.lease.standing ≠ .waiting) :
    Lease.Step x.lease (.taker t) r (y.lease.setSending t (q.map fun pc => (a, w, pc))) := by
  cases h with
  | passed hl => exact .pass hp hl
  | stopped hl => exact .stop hp hl
  | sent => exact .call hp
  | accepted hv =>
    rw [ActiveJob.lease_emit (by simp [JobEvent.isTerminal])]
    exact .accepted hp hv
  | expired hv => exact .expired hp hs
  | rejected hv =>
    rw [ActiveJob.lease_emit_quiet rfl]
    exact .dropped hp
  | alreadyLost hl => exact .alreadyLost hp hl
  | lost hl => exact .lose hp hl
  | reported =>
    rw [ActiveJob.lease_reportLost]
    exact .report hp

theorem sendingAck_afterCancel {x : ActiveJob ρ} : x.afterCancel.sendingAck = none := by
  rw [ActiveJob.afterCancel]
  split
  · rfl
  · cases x.cancelReason <;> rfl

theorem sendingAck_afterHandler {x : ActiveJob ρ} (o : Outcome ρ) :
    (x.afterHandler o).sendingAck = none := by
  unfold ActiveJob.afterHandler
  split
  · exact sendingAck_afterCancel
  · cases o.ack <;> rfl

/-- The next program counter of a sender says what it is sending. -/
theorem sendingAck_elim {k : Ack ρ} {w : String} (q : Option SendPc) :
    (q.elim ProcPc.cleanup (.sending k w)).sendingAck = q.map fun pc => (k, w, pc) := by
  cases q <;> rfl

theorem AbandonPc.sendingAck_elim {w : String} (q : Option SendPc) :
    ((q.elim AbandonPc.cleanup (.sending w)).sendingAck : Option (Ack ρ × String × SendPc)) =
      q.map fun pc => (.fail shutdownTimeoutError, w, pc) := by
  cases q <;> rfl

/-- What a move of one task does to the lease. -/
theorem ActiveJob.Next.lease {v : View} {x x' : ActiveJob ρ} {a : JobAction ρ} {eff : Effect}
    (h : ActiveJob.Next v x a x' eff) (hb : x.proc.unstarted = true → x.Blank)
    (hv : v.entry = x.tracked) (hfresh : x.Fresh) :
    x'.lease = x.lease ∨ ∃ p r, Lease.Step x.lease p r x'.lease := by
  obtain ⟨hu, hu'⟩ := h.frame.started hb
  have hstand : x.lease.standing = if x.tracked then .entry else .gone := standing_of_started hu
  have hnot : x.lease.standing ≠ .waiting := by
    rw [hstand]
    split <;> simp
  have hentry : ∀ {w}, MayAck v x w → x.lease.standing = .entry := by
    intro w hm
    rw [hstand, ← hv, hm.entry]
    rfl
  have hbeat : ∀ {pc : BeatPc}, x.beat = pc → x.lease.beat = pc.expiry := by
    rintro pc rfl
    rfl
  have hsend : ∀ {pc : ProcPc ρ}, x.proc = pc → x.lease.sending .runner = pc.sendingAck := by
    rintro pc rfl
    rfl
  have hstop : ∀ {pc : AbandonPc}, x.stopper = pc → x.lease.sending .stopper = pc.sendingAck := by
    rintro pc rfl
    rfl
  have hproc : ∀ {pc : ProcPc ρ}, pc.unstarted = false → x.proc.sendingAck = none →
      pc.sendingAck = none → ({ x with proc := pc } : ActiveJob ρ).lease = x.lease :=
    fun hpc h h' => lease_proc_quiet hu hpc (h.trans h'.symm)
  cases h with
  | never h | denied h | closed h =>
    exact .inl (hproc rfl (by rw [h]; rfl) rfl)
  | startInner h | startDirect h =>
    have hs : x.started.lease = x.lease := by
      rw [started, lease_emit_quiet rfl]
      exact lease_beat_quiet (by rw [(hfresh h).2]; rfl)
    exact .inl ((lease_proc_quiet (x := x.started) hu rfl
      (by show x.proc.sendingAck = _; rw [h]; rfl)).trans hs)
  | waitCancelled h =>
    obtain ⟨w, hw⟩ := cancelInner_eq { x with procWake := none }
    rw [hw]
    exact .inl (hproc later_afterCancel.2 (by rw [h]; rfl) sendingAck_afterCancel)
  | waitTimeout h =>
    obtain ⟨w, hw⟩ := cancelInner_eq { x with procWake := none }
    rw [hw]
    exact .inl (hproc rfl (by rw [h]; rfl) rfl)
  | waitDone h | ends h =>
    exact .inl (hproc (later_afterHandler _).2 (by rw [h]; rfl) (sendingAck_afterHandler _))
  | awaits => exact .inl rfl
  | @granted k w h hm =>
    rw [lease_proc (x := x.settle .runner k) hu rfl, lease_settle hu]
    exact .inr ⟨_, _, .take (hentry hm) hm.notLost ((right_of_started hu).trans hm.notSettled)⟩
  | @cut k w h =>
    have hdrop : ({ x with proc := .cleanup } : ActiveJob ρ).lease =
        x.lease.setSending .runner none := lease_proc hu rfl
    refine .inr ⟨.taker .runner, none, ?_⟩
    show Lease.Step x.lease _ _ ({ x with proc := .cleanup } : ActiveJob ρ).lease
    rw [hdrop]
    exact .dropped (w := w) (a := k) (hsend h)
  | @replied k w r y q h _ hs | @send k w pc y q h _ hs =>
    have hy : y.proc.unstarted = false := by rw [hs.same.proc, hu]
    have hnext : ({ y with proc := q.elim .cleanup (.sending k w) } : ActiveJob ρ).lease =
        y.lease.setSending .runner (q.map fun pc => (k, w, pc)) := by
      rw [← sendingAck_elim]
      exact lease_proc hy (by cases q <;> rfl)
    have hstep := hs.lease (hsend h) hnot
    rw [← hnext] at hstep
    exact .inr ⟨_, _, hstep⟩
  | @reported k w h =>
    obtain ⟨w', hw⟩ := cancelBeat_eq (x.reportLost (ackOperation k))
    have hy : (x.reportLost (ackOperation k)).cancelBeat.1.proc.unstarted = false := by
      rw [hw]
      exact hu
    rw [lease_proc hy rfl, lease_cancelBeat, lease_reportLost]
    exact .inr ⟨_, _, .report (w := w) (a := k) (hsend h)⟩
  | cleanup h =>
    obtain ⟨w, hw⟩ := x.cleanupJob_eq
    rw [hw] at hu' ⊢
    have hnext : ({ x with proc := if x.beat.alive then .closing else .done } : ActiveJob ρ).lease =
        x.lease :=
      hproc hu' (by rw [h]; rfl) (by split <;> rfl)
    refine (lease_leave hu rfl ?_ hu' .beat).imp_right fun hs => ⟨_, _, hs⟩
    rw [← hnext]
    rfl
  | innerNever | innerStart | innerAwaits | innerEnds => exact .inl rfl
  | beatCancelled h =>
    refine .inl (lease_beat_quiet ?_)
    rcases h with h | h | ⟨w, h⟩ <;> exact (hbeat h).symm
  | beatStart h | beatOk h | beatCrash h =>
    exact .inl (lease_beat_quiet (hbeat h).symm)
  | beatTimer h =>
    refine .inl (lease_beat_quiet (Eq.trans ?_ (hbeat h).symm))
    cases x.beats v <;> rfl
  | beatError h =>
    rw [lease_emit_quiet rfl]
    exact .inl (lease_beat_quiet (hbeat h).symm)
  | beatExpired h => exact .inr ⟨_, none, .beatFound hnot (hbeat h)⟩
  | beatAlreadyLost h hl => exact .inr ⟨_, _, .beatIdle (hbeat h) hl⟩
  | beatLost h hl => exact .inr ⟨_, _, .beatLose (hbeat h) hl⟩
  | beatReported h =>
    obtain ⟨w, hw⟩ := cancelProc_eq (x.reportLost "heartbeat")
    have hrep : ({ (x.reportLost "heartbeat").cancelProc.1 with beat := .done } : ActiveJob ρ).lease =
        { (x.reportLost "heartbeat").lease with beat := .quiet } := by
      rw [hw]
      rfl
    rw [hrep, lease_reportLost]
    exact .inr ⟨_, _, .beatReport (hbeat h)⟩
  | stopDenied h => exact .inl (lease_stopper_quiet (Eq.trans (hstop h) rfl))
  | stopClosed h =>
    refine .inl (lease_stopper_quiet ((hstop h).trans ?_))
    rw [awaitedBeat]
    split <;> rfl
  | @stopGranted w h hm =>
    have htake : ({ x.settle .stopper (.fail shutdownTimeoutError) with
        stopper := .sending w .check } : ActiveJob ρ).lease = _ := lease_stopper
    rw [htake, lease_settle hu]
    exact .inr ⟨_, _, .take (hentry hm) hm.notLost ((right_of_started hu).trans hm.notSettled)⟩
  | @stopReplied w r y q h _ hs | @stopSend w pc y q h _ hs =>
    have hnext : ({ y with stopper := q.elim .cleanup (.sending w) } : ActiveJob ρ).lease =
        y.lease.setSending .stopper (q.map fun pc => (.fail shutdownTimeoutError, w, pc)) := by
      rw [← AbandonPc.sendingAck_elim]
      exact lease_stopper
    have hstep := hs.lease (hstop h) hnot
    rw [← hnext] at hstep
    exact .inr ⟨_, _, hstep⟩
  | @stopReported w h =>
    have hrep : ({ (x.reportLost "fail").cancelBeat.1.cancelProc.1 with
        stopper := .cleanup } : ActiveJob ρ).lease = _ := lease_stopper
    rw [hrep, lease_cancelProc, lease_cancelBeat, lease_reportLost]
    exact .inr ⟨_, _, .report (w := w) (a := .fail shutdownTimeoutError) (hstop h)⟩
  | stopCleanup h =>
    obtain ⟨w, hw⟩ := x.cleanupJob_eq
    rw [hw] at hu' ⊢
    have hnext : ({ x with
        stopper := if x.beat.alive then .closing else x.awaitedBeat } : ActiveJob ρ).lease =
        x.lease := by
      refine lease_stopper_quiet ((hstop h).trans ?_)
      rw [awaitedBeat]
      split
      · rfl
      · split <;> rfl
    refine (lease_leave hu rfl ?_ hu' .beat).imp_right fun hs => ⟨_, _, hs⟩
    rw [← hnext]
    rfl
  | @woken k w => cases k <;> exact .inl rfl

/-- The view of an execution shows its own live flag. -/
theorem view_entry {s : SpooledWorker ρ} {e : ℕ} {x : ActiveJob ρ} (hwf : Wf s)
    (hx : s.jobs[e]? = some x) : (s.view e x).entry = x.tracked := by
  rw [SpooledWorker.view, Bool.eq_iff_iff, decide_eq_true_iff]
  exact (hwf.indexed.live_iff hx).symm

/-- What a move of the worker does to the lease of the execution. -/
theorem Move.lease {s : SpooledWorker ρ} {e : ℕ} {x x' : ActiveJob ρ} {a : Action ρ}
    (h : Move s e x a x') (hwf : Wf s) (hx : s.jobs[e]? = some x) (hfresh : x.Fresh) :
    x'.lease = x.lease ∨ ∃ p r, Lease.Step x.lease p r x'.lease := by
  -- nobody sends and nobody has settled before the poll has come to the job
  have hclaimed : x.proc = .claimed → x.lease.standing = .waiting ∧ x.lease.right = none ∧
      x.settled = none := by
    intro ht
    have hb := hwf.blank hx (by rw [ht]; rfl)
    refine ⟨?_, ?_, hb.settled⟩
    · show x.standing = _
      rw [ActiveJob.standing, ht]
      rfl
    · show x.right = _
      rw [ActiveJob.right, ht]
      exact hb.settled
  -- whatever `process_task` is at, the other senders stay where they are
  have hsending : ∀ {y : ActiveJob ρ}, y.stopper = x.stopper →
      y.proc.sendingAck = x.proc.sendingAck → y.proc.sendingRelease = x.proc.sendingRelease →
      y.lease.sending = x.lease.sending := by
    intro y hs ha hr
    funext t
    cases t with
    | runner => exact ha
    | poll => exact hr
    | timeout => rfl
    | stopper => exact congrArg AbandonPc.sendingAck hs
  cases h with
  | next hp h => exact h.lease (hwf.blank hx) (view_entry hwf hx) hfresh
  | registered hm hi ht =>
    obtain ⟨hw, hr, hset⟩ := hclaimed ht
    have henter : ({ x with
        proc := .created, procWake := some .start, tracked := true } : ActiveJob ρ).lease =
        { x.lease with standing := .entry } := by
      refine Lease.ext rfl rfl rfl (hset.trans hr.symm) (hsending rfl ?_ ?_) rfl rfl rfl
      · rw [ht]; rfl
      · rw [ht]; rfl
    rw [ActiveJob.lease_emit_quiet rfl, henter]
    exact .inr ⟨_, _, .enter hw hr⟩
  | displaced hm hi hy he ht =>
    have hu : x.proc.unstarted = false := by
      by_contra hn
      rw [(hwf.blank hx (by simpa using hn)).tracked] at ht
      cases ht
    exact (ActiveJob.lease_leave (y := x.displace) hu rfl rfl hu .beat).imp_right
      fun hs => ⟨_, _, hs⟩
  | unreleased hm hi hw ht =>
    obtain ⟨hw, hr, hset⟩ := hclaimed ht
    refine .inl (Lease.ext rfl ?_ rfl (hset.trans hr.symm) (hsending rfl ?_ ?_) rfl rfl rfl)
    · exact hw.symm
    · rw [ht]; rfl
    · rw [ht]; rfl
  | @release todo w hm hi hw ht =>
    obtain ⟨hw', hr, -⟩ := hclaimed ht
    have hsent : ({ x with
        proc := .releaseSent w
        calls := x.calls ++ [ackCall x.job w (.fail unstartedClaimError)] } : ActiveJob ρ).lease =
        { x.lease.setSending .poll (some (.fail unstartedClaimError, w, .wait)) with
          right := some (.poll, .fail unstartedClaimError)
          calls := x.lease.calls ++ [ackCall x.lease.job w (.fail unstartedClaimError)] } := by
      refine Lease.ext rfl hw'.symm rfl rfl ?_ rfl rfl rfl
      funext t
      cases t with
      | runner => exact (congrArg ProcPc.sendingAck ht).symm
      | poll => rfl
      | timeout => rfl
      | stopper => rfl
    rw [hsent]
    exact .inr ⟨_, _, .release hw' hr⟩
  | @released todo w ok hm ht =>
    have hp : x.lease.sending .poll = some (.fail unstartedClaimError, w, .wait) := by
      show x.proc.sendingRelease = _
      rw [ht]
      rfl
    have hdone : ({ x with proc := .released } : ActiveJob ρ).lease =
        x.lease.setSending .poll none := by
      refine Lease.ext rfl ?_ rfl ?_ ?_ rfl rfl rfl
      · show ({ x with proc := .released } : ActiveJob ρ).standing = x.standing
        simp [ActiveJob.standing, ht, ProcPc.unstarted]
      · show ({ x with proc := .released } : ActiveJob ρ).right = x.right
        simp [ActiveJob.right, ht]
      · funext t
        cases t with
        | runner => exact (congrArg ProcPc.sendingAck ht).symm
        | poll => rfl
        | timeout => rfl
        | stopper => rfl
    cases ok with
    | true =>
      rw [if_pos rfl, ActiveJob.lease_emit (by simp [JobEvent.isTerminal]), hdone]
      exact .inr ⟨_, some .ok, .accepted hp rfl⟩
    | false =>
      rw [if_neg (by simp), ActiveJob.lease_emit_quiet rfl, hdone]
      exact .inr ⟨_, none, .dropped hp⟩
  | forced =>
    obtain ⟨w, hw⟩ := x.forceFail_eq
    rw [hw]
    exact .inl rfl
  | begun _ _ ht =>
    exact .inl (ActiveJob.lease_stopper_quiet (Eq.trans (congrArg AbandonPc.sendingAck ht) rfl))

/-! ### Runs refine lives of the lease -/

section

variable {s s' : SpooledWorker ρ} {e : ℕ} {x x' : ActiveJob ρ} {a : Action ρ} {o : Options}
  {ok : SpooledWorker ρ → Action ρ → Prop}

/-- Runs of the worker simulate the life of each lease. -/
def leaseSimulation (o : Options) (ok : SpooledWorker ρ → Action ρ → Prop) (e : ℕ) :
    Simulation (system ρ o) ok (Lease.Evolves (ρ := ρ)) ((system ρ o).Reachable ok) where
  abs s := s.jobs[e]?.map ActiveJob.lease
  matched s a s' hr _ hstep := by
    have hwf := wf_of_reachable hr
    cases hx : s.jobs[e]? with
    | some x =>
      obtain ⟨x', hx', rfl | hm⟩ := step_job hwf hstep hx
      · rw [hx']
      · rw [hx']
        rcases hm.lease hwf hx (fresh_of_reachable hr hx) with heq | ⟨p, r, hs⟩
        · rw [Option.map_some, Option.map_some, heq]
        · exact .single (.step hs)
    | none =>
      cases hx' : s'.jobs[e]? with
      | none => exact .refl
      | some x' =>
        rcases step_move hwf hstep hx' with ⟨x, hx₁, -⟩ | ⟨-, j, rfl⟩
        · rw [hx] at hx₁
          cases hx₁
        · rw [Option.map_some, ActiveJob.lease_fresh]
          exact .single (.claimed j)

/-- Every execution of a reachable worker is a fenced lease. -/
theorem lease_sound (h : (system ρ o).Reachable ok s) (hx : s.jobs[e]? = some x) :
    x.lease.Fenced ∧ x.lease.Told := by
  have hrun := (leaseSimulation o ok e).reaches (fun _ => id) .init h
  exact Lease.Evolves.sound hrun _ (by simp [leaseSimulation, hx])

end

end SpooledSdk.Worker.Async
