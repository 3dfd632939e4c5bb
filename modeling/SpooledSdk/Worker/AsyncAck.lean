/-
Acks of the asynchronous worker: who may send one, and which jobs go without.

* `settled_only_as_entry`, `never_acked_once_barred`, `job_of_reaches` — an execution
  takes the right to ack only as the entry of its id, and never after it was lost or
  replaced;
* `accounted`, `untracked_at_deregister` — under `KeepsJobs`, every claimed job stays
  accounted for.
-/
import SpooledSdk.Worker.AsyncLife

namespace SpooledSdk.Worker.Async

variable {ρ : Type}

section

variable {s s' : SpooledWorker ρ} {e : ℕ} {x x' : ActiveJob ρ} {a : Action ρ} {o : Options}
  {ok : SpooledWorker ρ → Action ρ → Prop}

/-! ### The right to ack -/

theorem ActiveJob.Next.settled {v : View} {act : JobAction ρ} {eff : Effect}
    (h : ActiveJob.Next v x act x' eff) :
    x'.settled = x.settled ∨ ∃ w, ActiveJob.MayAck v x w := by
  cases h with
  | granted _ hm => exact .inr ⟨_, hm⟩
  | stopGranted _ hm => exact .inr ⟨_, hm⟩
  | replied _ _ hs | send _ _ hs | stopReplied _ _ hs | stopSend _ _ hs => exact .inl hs.same.settled
  | waitCancelled | waitTimeout =>
    obtain ⟨w, hw⟩ := cancelInner_eq { x with procWake := none }
    rw [hw]
    exact .inl rfl
  | reported =>
    obtain ⟨w, hw⟩ := cancelBeat_eq (x.reportLost (ackOperation _))
    rw [hw]
    exact .inl rfl
  | beatReported =>
    obtain ⟨w, hw⟩ := cancelProc_eq (x.reportLost "heartbeat")
    rw [hw]
    exact .inl rfl
  | stopReported =>
    obtain ⟨w, hw⟩ := cancelBeat_eq (x.reportLost "fail")
    obtain ⟨w', hw'⟩ := cancelProc_eq (x.reportLost "fail").cancelBeat.1
    rw [hw', hw]
    exact .inl rfl
  | cleanup | stopCleanup =>
    obtain ⟨w, hw⟩ := x.cleanupJob_eq
    rw [hw]
    exact .inl rfl
  | @woken k => cases k <;> exact .inl rfl
  | _ => exact .inl rfl

theorem Move.settled (h : Move s e x a x') :
    x'.settled = x.settled ∨ ∃ w, ActiveJob.MayAck (s.view e x) x w := by
  cases h with
  | next hp h => exact h.settled
  | forced =>
    obtain ⟨w, hw⟩ := x.forceFail_eq
    rw [hw]
    exact .inl rfl
  | _ => exact .inl rfl

/-- An execution takes the right to ack only while it is the entry of its job id. -/
theorem settled_only_as_entry (h : (system ρ o).Reachable ok s) (hstep : s.step a = some s')
    (hx : s.jobs[e]? = some x) (hx' : s'.jobs[e]? = some x') (hfree : x.settled = none)
    (htaken : x'.settled ≠ none) :
    s.activeJobs.get? x.job.id = some e ∧ x.leaseLost = false := by
  obtain ⟨y, hy, hcase⟩ := step_job (wf_of_reachable h) hstep hx
  rw [hx', Option.some_inj] at hy
  subst hy
  rcases hcase with rfl | hm
  · exact absurd hfree htaken
  · rcases hm.settled with heq | ⟨w, hmay⟩
    · exact absurd (heq.trans hfree) htaken
    · exact ⟨by simpa [SpooledWorker.view] using hmay.entry, hmay.notLost⟩

theorem ActiveJob.Frame.tracked {act : JobAction ρ} {eff : Effect}
    (h : ActiveJob.Frame x act x' eff) (ht : x'.tracked = true) : x.tracked = true := by
  cases hl : eff.leave with
  | true =>
    rw [h.leaves hl] at ht
    cases ht
  | false => rw [← h.stays hl, ht]

/-- A replaced execution was registered and is no longer the entry. -/
theorem replaced_of_reachable (h : (system ρ o).Reachable ok s) (hx : s.jobs[e]? = some x) :
    x.replaced = true → x.tracked = false ∧ x.proc.unstarted = false := by
  refine forall_jobs (P := fun x => x.replaced = true → x.tracked = false ∧
    x.proc.unstarted = false) (fun _ => nofun) ?_ h hx
  intro s a s' e x x' hr _ _ hx _ hP hm hrep
  have hwf := wf_of_reachable hr
  have hclaimed : x.proc.unstarted = true → x.replaced = true → False := by
    intro hu hrep
    rw [(hwf.blank hx hu).replaced] at hrep
    cases hrep
  cases hm with
  | next hp h =>
    have hf := h.frame
    obtain ⟨ht, -⟩ := hP (hf.replaced ▸ hrep)
    refine ⟨?_, (hf.started (hwf.blank hx)).2⟩
    by_contra htr
    rw [hf.tracked (by simpa using htr)] at ht
    cases ht
  | registered _ _ ht | unreleased _ _ _ ht | release _ _ _ ht | released _ ht =>
    exact (hclaimed (by rw [ht]; rfl) hrep).elim
  | displaced _ _ _ _ ht =>
    refine ⟨rfl, ?_⟩
    show x.proc.unstarted = false
    by_contra hu
    rw [(hwf.blank hx (by simpa using hu)).tracked] at ht
    cases ht
  | forced =>
    obtain ⟨w, hw⟩ := x.forceFail_eq
    rw [hw] at hrep ⊢
    exact hP hrep
  | begun => exact hP hrep

theorem Move.job (h : Move s e x a x') : x'.job = x.job := by
  cases h with
  | next hp h => exact h.frame.job
  | forced =>
    obtain ⟨w, hw⟩ := x.forceFail_eq
    rw [hw]
  | _ => rfl

/-- The job of an execution is the one its claim returned, for ever. -/
theorem job_of_reaches (h : (system ρ o).Reachable ok s) (h' : (system ρ o).Reaches ok s s')
    (hx : s.jobs[e]? = some x) : ∃ x', s'.jobs[e]? = some x' ∧ x'.job = x.job :=
  preserves_job (P := fun y => y.job = x.job) (fun _ _ _ _ _ hj hm => hm.job.trans hj) h h' hx rfl

/-- Lost or replaced before it took the right to ack, an execution never starts a call. -/
theorem never_acked_once_barred (h : (system ρ o).Reachable ok s)
    (h' : (system ρ o).Reaches ok s s') (hx : s.jobs[e]? = some x) (hfree : x.settled = none)
    (hout : x.leaseLost = true ∨ x.replaced = true) :
    ∃ x', s'.jobs[e]? = some x' ∧ x'.calls = [] := by
  have hwf := wf_of_reachable h
  have hu : x.proc.unstarted = false := by
    by_contra hn
    have hb := hwf.blank hx (by simpa using hn)
    rcases hout with hl | hr
    · rw [hb.leaseLost] at hl
      cases hl
    · rw [hb.replaced] at hr
      cases hr
  have hbar : x.lease.Barred := by
    refine ⟨hout.imp_right fun hr => ?_, (ActiveJob.right_of_started hu).trans hfree⟩
    show x.standing = .gone
    rw [ActiveJob.standing_of_started hu, (replaced_of_reachable h hx hr).1]
    rfl
  have hrun := (leaseSimulation o ok e).reaches (fun _ => id) h h'
  have habs : (leaseSimulation o ok e).abs s = some x.lease := by
    show s.jobs[e]?.map ActiveJob.lease = _
    rw [hx]
    rfl
  rw [habs] at hrun
  obtain ⟨l, hl, hf, -, hr⟩ := Lease.Evolves.preserves (P := Lease.Barred)
    (fun hf hb hs => hs.barred hf hb) hrun (lease_sound h hx).1 hbar
  obtain ⟨x', hx', rfl⟩ := Option.map_eq_some_iff.mp hl
  exact ⟨x', hx', hf.free hr⟩

/-! ### Calls and losses stay -/

/-- A call was started for the execution, or its lease was lost. -/
def ActiveJob.answered (x : ActiveJob ρ) : Bool := !x.calls.isEmpty || x.leaseLost

/-- The execution may no longer be acked by anybody who has not settled it already. -/
def ActiveJob.decided (x : ActiveJob ρ) : Bool := x.leaseLost || x.settled.isSome || !x.tracked

theorem ActiveJob.answered_iff : x.answered = true ↔ x.calls ≠ [] ∨ x.leaseLost = true := by
  cases hc : x.calls <;> simp [answered, hc]

theorem ActiveJob.decided_iff :
    x.decided = true ↔ x.settled ≠ none ∨ x.leaseLost = true ∨ x.tracked = false := by
  cases hs : x.settled <;> simp [decided, hs]

/-- Calls are never taken back, and a lost lease stays lost. -/
theorem ActiveJob.SendStep.grows {k : Ack ρ} {w : String} {pc : SendPc} {r : Option Reply}
    {q : Option SendPc} (h : ActiveJob.SendStep x k w pc r x' q) :
    x.calls <+: x'.calls ∧ (x.leaseLost = true → x'.leaseLost = true) := by
  cases h with
  | sent => exact ⟨List.prefix_append _ _, id⟩
  | lost => exact ⟨List.prefix_rfl, fun _ => rfl⟩
  | _ => exact ⟨List.prefix_rfl, id⟩

theorem ActiveJob.Next.grows {v : View} {act : JobAction ρ} {eff : Effect}
    (h : ActiveJob.Next v x act x' eff) :
    x.calls <+: x'.calls ∧ (x.leaseLost = true → x'.leaseLost = true) := by
  cases h with
  | replied _ _ hs | send _ _ hs | stopReplied _ _ hs | stopSend _ _ hs => exact hs.grows
  | waitCancelled | waitTimeout =>
    obtain ⟨w, hw⟩ := cancelInner_eq { x with procWake := none }
    rw [hw]
    exact ⟨List.prefix_rfl, id⟩
  | reported =>
    obtain ⟨w, hw⟩ := cancelBeat_eq (x.reportLost (ackOperation _))
    rw [hw]
    exact ⟨List.prefix_rfl, id⟩
  | beatReported =>
    obtain ⟨w, hw⟩ := cancelProc_eq (x.reportLost "heartbeat")
    rw [hw]
    exact ⟨List.prefix_rfl, id⟩
  | stopReported =>
    obtain ⟨w, hw⟩ := cancelBeat_eq (x.reportLost "fail")
    obtain ⟨w', hw'⟩ := cancelProc_eq (x.reportLost "fail").cancelBeat.1
    rw [hw', hw]
    exact ⟨List.prefix_rfl, id⟩
  | cleanup | stopCleanup =>
    obtain ⟨w, hw⟩ := x.cleanupJob_eq
    rw [hw]
    exact ⟨List.prefix_rfl, id⟩
  | beatLost => exact ⟨List.prefix_rfl, fun _ => rfl⟩
  | @woken k => cases k <;> exact ⟨List.prefix_rfl, id⟩
  | _ => exact ⟨List.prefix_rfl, id⟩

theorem Move.grows (h : Move s e x a x') :
    x.calls <+: x'.calls ∧ (x.leaseLost = true → x'.leaseLost = true) := by
  cases h with
  | next hp h => exact h.grows
  | release => exact ⟨List.prefix_append _ _, id⟩
  | forced =>
    obtain ⟨w, hw⟩ := x.forceFail_eq
    rw [hw]
    exact ⟨List.prefix_rfl, id⟩
  | _ => exact ⟨List.prefix_rfl, id⟩

theorem Move.answered (h : Move s e x a x') (hx : x.answered = true) : x'.answered = true := by
  rw [ActiveJob.answered_iff] at hx ⊢
  refine hx.imp (fun hne hnil => ?_) h.grows.2
  have hpre := h.grows.1
  rw [hnil, List.prefix_nil] at hpre
  exact hne hpre

/-- Only registration makes an execution tracked. -/
theorem Move.tracked (h : Move s e x a x') (ht : x.proc ≠ .claimed) (hx : x'.tracked = true) :
    x.tracked = true := by
  cases h with
  | next hp h => exact h.frame.tracked hx
  | registered _ _ hc => exact absurd hc ht
  | displaced => cases hx
  | forced =>
    obtain ⟨w, hw⟩ := x.forceFail_eq
    rw [hw] at hx
    exact hx
  | _ => exact hx

/-- Whoever waits for the reply to a call has started it. -/
theorem answered_of_sending {t : Taker} {k : Ack ρ} {w : String} {pc : SendPc}
    (h : (system ρ o).Reachable ok s) (hx : s.jobs[e]? = some x)
    (hp : x.sending t = some (k, w, pc)) (hpc : pc.early = false) : x.answered = true := by
  have hc : x.calls = _ := (lease_sound h hx).1.counted hp
  rw [hpc] at hc
  exact ActiveJob.answered_iff.mpr (.inl (by rw [hc]; simp))

/-- The senders of an execution are waiting, if they are sending at all. -/
structure ActiveJob.Waits (x : ActiveJob ρ) : Prop where
  proc : ∀ {k w pc}, x.proc = .sending k w pc → pc = .wait
  stopper : ∀ {w pc}, x.stopper = .sending w pc → pc = .wait

/-- A settled execution is answered, unless its holder is inside the segment that took the
right. -/
theorem answered_of_settled {t : Taker} {k : Ack ρ} (h : (system ρ o).Reachable ok s)
    (hx : s.jobs[e]? = some x) (hs : x.settled = some (t, k)) (hw : x.Waits) :
    x.answered = true := by
  have hu : x.proc.unstarted = false := by
    by_contra hu
    rw [((wf_of_reachable h).blank hx (by simpa using hu)).settled] at hs
    cases hs
  by_cases hc : x.calls = []
  · rcases (lease_sound h hx).1.pending ((ActiveJob.right_of_started hu).trans hs) hc with
      hl | ⟨w, pc, hp⟩
    · exact ActiveJob.answered_iff.mpr (.inr hl)
    · replace hp : x.sending t = some (k, w, pc) := hp
      obtain rfl : pc = .wait := by
        cases t with
        | runner =>
          cases hpr : x.proc <;> rw [ActiveJob.sending, hpr] at hp <;> cases hp
          exact hw.proc hpr
        | stopper =>
          cases hst : x.stopper <;> rw [ActiveJob.sending, hst] at hp <;> cases hp
          exact hw.stopper hst
        | timeout => cases hp
        | poll => cases hpr : x.proc <;> rw [ActiveJob.sending, hpr] at hp <;> cases hp; rfl
      exact answered_of_sending h hx hp rfl
  · exact ActiveJob.answered_iff.mpr (.inl hc)

/-- A task that makes a step is the only one inside a segment. -/
theorem waits_of_segment {k : Kind} (h : (system ρ o).Reachable ok s) (hx : s.jobs[e]? = some x)
    (hc : s.current = some (k.task e)) (hp : k = .proc → ∀ {a w pc}, x.proc = .sending a w pc → pc = .wait)
    (hs : k = .stop → ∀ {w pc}, x.stopper = .sending w pc → pc = .wait) : x.Waits := by
  have hmid : ∀ {k'}, x.mid k' = true → k = k' := by
    intro k' hm
    have hcur := segment_of_reachable h hx k' hm
    rw [hc, Option.some_inj] at hcur
    exact Kind.task_inj hcur
  constructor
  · intro a w pc hpr
    by_contra hne
    have hm : x.mid .proc = true := by simpa [ActiveJob.mid, hpr, ProcPc.mid] using hne
    exact hne (hp (hmid hm) hpr)
  · intro w pc hst
    by_contra hne
    have hm : x.mid .stop = true := by simpa [ActiveJob.mid, hst, AbandonPc.mid] using hne
    exact hne (hs (hmid hm) hst)

theorem answered_of_decided (h : (system ρ o).Reachable ok s) (hx : s.jobs[e]? = some x)
    (hd : x.decided = true) (hw : x.Waits) : x.answered = true ∨ x.tracked = false := by
  rcases ActiveJob.decided_iff.mp hd with hs | hl | ht
  · obtain ⟨⟨t, k⟩, hs⟩ := Option.ne_none_iff_exists'.mp hs
    exact .inl (answered_of_settled h hx hs hw)
  · exact .inl (ActiveJob.answered_iff.mpr (.inr hl))
  · exact .inr ht

/-- Once `stop()` is done, no execution is tracked. -/
theorem untracked_of_late (h : (system ρ o).Reachable ok s) (hx : s.jobs[e]? = some x)
    (he : s.stop.early = false) (ha : s.stop ≠ .aborted) (ht : s.stop.todo = [])
    (hc : s.stop.current = none) : x.tracked = false := by
  by_contra htr
  rcases (abandoned_of_reachable h hx).left (by simpa using htr) he ha with hm | hcur
  · rw [ht] at hm
    cases hm
  · rw [hc] at hcur
    cases hcur

/-- `_claim_settlement` denies only what is decided. -/
theorem decided_of_denied (h : (system ρ o).Reachable ok s) (hx : s.jobs[e]? = some x)
    (hd : x.claimSettlement (s.view e x) = none) : x.decided = true := by
  by_cases hr : s.stop = .returned
  · have ht := untracked_of_late h hx (by rw [hr]; rfl) (by rw [hr]; simp) (by rw [hr]; rfl)
      (by rw [hr]; rfl)
    exact ActiveJob.decided_iff.mpr (.inr (.inr ht))
  · rw [ActiveJob.claimSettlement] at hd
    split at hd
    · rename_i hg
      rw [view_entry (wf_of_reachable h) hx] at hg
      exact hg
    · obtain ⟨w, hw⟩ := (life_of_reachable h).truthy_workerId hx hr
      rw [show truthy (s.view e x).workerId = truthy s.workerId from rfl, hw] at hd
      cases hd

/-- A task of the worker is cancelled because its lease was lost, or with a reason. -/
theorem cancelled_of_reachable (h : (system ρ o).Reachable ok s) (hx : s.jobs[e]? = some x) :
    x.procWake = some .cancelled → x.leaseLost = true ∨ x.cancelReason.isSome = true := by
  refine forall_jobs (P := fun x => x.procWake = some .cancelled →
    x.leaseLost = true ∨ x.cancelReason.isSome = true) (fun _ => nofun) ?_ h hx
  intro s a s' e x x' hr ha hstep hx hx' hP hm hw
  have hold : x.procWake = some .cancelled → x'.cancelReason = x.cancelReason →
      x'.leaseLost = true ∨ x'.cancelReason.isSome = true := by
    intro hw hc
    rw [hc]
    exact (hP hw).imp_left hm.grows.2
  -- who reports the loss has found the lease lost
  have hlost : ∀ {p : Actor}, x.lease.Reports p → x.leaseLost = true := by
    intro p hp
    by_contra hl
    exact ((lease_sound hr hx).2.held (by simpa [ActiveJob.lease] using hl)).2 p hp
  cases hm with
  | @next act _ eff hp hn =>
    have hreason := hn.frame.cancelReason
    cases hn with
    | beatReported hb =>
      refine .inl ?_
      obtain ⟨w, hw⟩ := ActiveJob.cancelProc_eq (x.reportLost "heartbeat")
      rw [hw]
      exact hlost (p := .beat) (congrArg BeatPc.expiry hb)
    | stopReported hs =>
      refine .inl ?_
      obtain ⟨w, hw⟩ := ActiveJob.cancelBeat_eq (x.reportLost "fail")
      obtain ⟨w', hw'⟩ := ActiveJob.cancelProc_eq (x.reportLost "fail").cancelBeat.1
      rw [hw', hw]
      exact hlost (p := .taker .stopper) ⟨_, _, congrArg AbandonPc.sendingAck hs⟩
    | waitCancelled | waitTimeout =>
      obtain ⟨w, hw'⟩ := ActiveJob.cancelInner_eq { x with procWake := none }
      rw [hw'] at hw
      cases hw
    | reported =>
      obtain ⟨w, hw'⟩ := ActiveJob.cancelBeat_eq (x.reportLost (ackOperation _))
      exact hold (by rw [hw'] at hw; exact hw) hreason
    | cleanup | stopCleanup =>
      obtain ⟨w, hw'⟩ := x.cleanupJob_eq
      exact hold (by rw [hw'] at hw; exact hw) hreason
    | send _ _ hs | stopSend _ _ hs | stopReplied _ _ hs =>
      exact hold (hs.same.procWake.symm.trans hw) hs.same.cancelReason
    | never | startInner | startDirect | waitDone | cut | replied | closed | awaits | ends => cases hw
    | woken h =>
      cases h with
      | reply | timer | inner | beat | user => cases hw
      | _ => exact hold hw rfl
    | _ => exact hold hw rfl
  | registered => cases hw
  | forced =>
    obtain ⟨w, hw⟩ := x.forceFail_eq
    rw [hw]
    exact .inr rfl
  | _ => exact hold hw rfl

/-! ### Accounted for -/

/-- `process_task` has something to report of the outcome, or nothing to report any more:
a `CancelledError` counts only as the one `stop()` has asked for. -/
def ActiveJob.reports (x : ActiveJob ρ) (out : Outcome ρ) : Bool :=
  out.ack.isSome || x.decided || (out.isCancelled && x.cancelReason.isSome)

/-- The outcome that `process_task` is about to take from the inner task. -/
def ActiveJob.taken (x : ActiveJob ρ) : Option (Outcome ρ) :=
  match x.proc, x.procWake, x.inner with
  | .waiting, some .cancelled, _ => none
  | .waiting, some _, .finished out => some out
  | _, _, _ => none

/-- The steps that keep every job accounted for: `process_task` gets an outcome that it has
an ack for. -/
def KeepsJobs (s : SpooledWorker ρ) : Action ρ → Bool
  | .job e (.handler .proc (some out)) => s.jobs[e]?.all fun x => x.reports out
  | .job e (.go .proc) => s.jobs[e]?.all fun x => x.taken.all x.reports
  | _ => true

variable (ρ o) in
/-- The states of the runs whose steps all keep their jobs accounted for. -/
abbrev KeepsReachable (s : SpooledWorker ρ) : Prop :=
  (system ρ o).Reachable (fun s a => KeepsJobs s a = true) s

/-- An outcome that is reported leads to the cleanup only when the execution is decided. -/
theorem decided_of_afterHandler {out : Outcome ρ} (hr : x.reports out = true)
    (hc : x.afterHandler out = .cleanup) : x.decided = true := by
  have hrest : out.ack = none → out.isCancelled = false ∨ x.cancelReason = none →
      x.decided = true := by
    intro hack hcanc
    rw [ActiveJob.reports, hack] at hr
    rcases hcanc with hcanc | hreason
    · simpa [hcanc] using hr
    · simpa [hreason] using hr
  unfold ActiveJob.afterHandler at hc
  split at hc
  · rw [ActiveJob.afterCancel] at hc
    split at hc
    · rename_i hl
      exact ActiveJob.decided_iff.mpr (.inr (.inl hl))
    · cases hreason : x.cancelReason with
      | some r => rw [hreason] at hc; cases hc
      | none => exact hrest rfl (.inr hreason)
  · rename_i hne
    cases hack : out.ack with
    | some k => rw [hack] at hc; cases hc
    | none =>
      refine hrest hack (.inl ?_)
      rcases out with r | (_ | _ | _) <;> first | rfl | exact absurd rfl hne

/-- A task reaches its cleanup only with an execution that is answered, or that has gone. -/
theorem answered_of_cleanup (h : KeepsReachable ρ o s) (hx : s.jobs[e]? = some x) :
    x.proc = .cleanup ∨ x.stopper = .cleanup → x.answered = true ∨ x.tracked = false := by
  refine forall_jobs (P := fun x => x.proc = .cleanup ∨ x.stopper = .cleanup →
    x.answered = true ∨ x.tracked = false) (fun _ => by rintro (h | h) <;> cases h) ?_ h hx
  intro s a s' e x x' hr ha hstep hx hx' hP hm hcl
  have hwf := wf_of_reachable hr
  have hlift : x.proc ≠ .claimed → x.answered = true ∨ x.tracked = false →
      x'.answered = true ∨ x'.tracked = false := by
    refine fun hne => Or.imp hm.answered fun ht => ?_
    by_contra htr
    rw [hm.tracked hne (by simpa using htr)] at ht
    cases ht
  have hold : x.proc = .cleanup ∨ x.stopper = .cleanup → x'.answered = true ∨ x'.tracked = false := by
    refine fun hcl => hlift (fun hc => ?_) (hP hcl)
    rcases hcl with hp | hs
    · rw [hc] at hp
      cases hp
    · rw [(hwf.blank hx (by rw [hc]; rfl)).stopper] at hs
      cases hs
  cases hm with
  | @next act _ eff hp hn =>
    have hf := hn.frame
    have hne : x.proc ≠ .claimed := by
      intro hc
      have := (hf.started (hwf.blank hx)).1
      rw [hc] at this
      cases this
    -- who is past the start of its call has answered
    have hsent : ∀ {t : Taker} {k : Ack ρ} {w : String} {pc : SendPc},
        x.sending t = some (k, w, pc) → pc.early = false → x'.answered = true ∨ x'.tracked = false :=
      fun hs hpc => hlift hne (.inl (answered_of_sending hr hx hs hpc))
    have hlost : x.leaseLost = true → x'.answered = true ∨ x'.tracked = false :=
      fun hl => hlift hne (.inl (ActiveJob.answered_iff.mpr (.inr hl)))
    -- a sender that ends has found the lease lost or has started its call
    have hends : ∀ {t : Taker} {k : Ack ρ} {w : String} {pc : SendPc} {r : Option Reply}
        {y : ActiveJob ρ}, x.sending t = some (k, w, pc) →
        ActiveJob.SendStep x k w pc r y none → x'.answered = true ∨ x'.tracked = false := by
      intro t k w pc r y hs hstep
      cases hstep with
      | stopped hl | alreadyLost hl => exact hlost hl
      | accepted | rejected | reported => exact hsent hs rfl
    have hcur : (∀ k w, act ≠ .wake k w) → s.current = some (act.kind.task e) := by
      intro hnot
      rcases current_of_permits hp with hc | ⟨-, k, w, rfl⟩
      · exact hc
      · exact absurd rfl (hnot k w)
    rcases hcl with hcl | hcl
    · rcases hf.proc with heq | ⟨hk, -⟩
      · exact hold (.inl (heq ▸ hcl))
      · have hwaits : (∀ k w, act ≠ .wake k w) →
            (∀ {a w pc}, x.proc = .sending a w pc → pc = .wait) → x.Waits :=
          fun hnot hp => waits_of_segment hr hx (hcur hnot) (fun _ => hp)
            fun hs => by rw [hk] at hs; cases hs
        have hafter : ∀ {out}, (∀ k w, act ≠ .wake k w) →
            (∀ {a w pc}, x.proc = .sending a w pc → pc = .wait) → x.reports out = true →
            x.afterHandler out = .cleanup → x'.answered = true ∨ x'.tracked = false :=
          fun hnot hp hrep hc => hlift hne
            (answered_of_decided hr hx (decided_of_afterHandler hrep hc) (hwaits hnot hp))
        cases hn with
        | waitCancelled h hw =>
          refine hlost ?_
          replace hcl : x.afterCancel = .cleanup := hcl
          rw [ActiveJob.afterCancel] at hcl
          split at hcl
          · assumption
          · rcases cancelled_of_reachable hr hx hw with hl | hreason
            · exact hl
            · obtain ⟨r, hreason⟩ := Option.isSome_iff_exists.mp hreason
              rw [hreason] at hcl
              cases hcl
        | @waitDone w out h hw hc hi =>
          refine hafter (by simp) (by simp [h]) ?_ hcl
          have htaken : x.taken = some out := by
            rw [ActiveJob.taken, h, hw, hi]
            cases w <;> first | rfl | exact absurd rfl hc
          have hkeep := ha
          simp only [KeepsJobs, hx, Option.all_some, htaken] at hkeep
          exact hkeep
        | @ends out h =>
          refine hafter (by simp) (by simp [h]) ?_ hcl
          have hkeep := ha
          simp only [KeepsJobs, hx, Option.all_some] at hkeep
          exact hkeep
        | denied h hd =>
          exact hlift hne (answered_of_decided hr hx (decided_of_denied hr hx hd)
            (hwaits (by simp) (by simp [h])))
        | cut h => exact hsent (t := .runner) (congrArg ProcPc.sendingAck h) rfl
        | reported h => exact hsent (t := .runner) (congrArg ProcPc.sendingAck h) rfl
        | @replied k w r y q h _ hs | @send k w pc y q h _ hs =>
          cases q with
          | none => exact hends (t := .runner) (congrArg ProcPc.sendingAck h) hs
          | some q => cases hcl
        | cleanup =>
          replace hcl : (if x.beat.alive then .closing else .done : ProcPc ρ) = .cleanup := hcl
          split at hcl <;> cases hcl
        | awaits h =>
          replace hcl : x.proc = .cleanup := hcl
          rw [h] at hcl
          cases hcl
        | woken h => cases h <;> exact hold (.inl hcl)
        | never | startInner | startDirect | waitTimeout | granted | closed => cases hcl
        | _ => cases hk
    · rcases hf.stopper with heq | hk
      · exact hold (.inr (heq ▸ hcl))
      · cases hn with
        | stopDenied h hd =>
          refine hlift hne (answered_of_decided hr hx (decided_of_denied hr hx hd) ?_)
          exact waits_of_segment hr hx (hcur (by simp)) (by rintro ⟨⟩) fun _ => by simp [h]
        | stopReported h => exact hsent (t := .stopper) (congrArg AbandonPc.sendingAck h) rfl
        | @stopReplied w r y q h _ hs | @stopSend w pc y q h _ hs =>
          cases q with
          | none => exact hends (t := .stopper) (congrArg AbandonPc.sendingAck h) hs
          | some q => cases hcl
        | stopCleanup =>
          replace hcl : (if x.beat.alive then .closing else x.awaitedBeat : AbandonPc) = .cleanup := hcl
          rw [ActiveJob.awaitedBeat] at hcl
          split at hcl
          · cases hcl
          · split at hcl <;> cases hcl
        | stopClosed =>
          replace hcl : x.awaitedBeat = .cleanup := hcl
          rw [ActiveJob.awaitedBeat] at hcl
          split at hcl <;> cases hcl
        | woken h => cases h <;> exact hold (.inr hcl)
        | stopGranted => cases hcl
        | _ => cases hk
  | forced =>
    obtain ⟨w, hw⟩ := x.forceFail_eq
    rw [hw] at hcl
    exact hold hcl
  | begun =>
    rcases hcl with hcl | hcl
    · exact hold (.inl hcl)
    · cases hcl
  | displaced => exact hold hcl
  | registered | unreleased | release | released =>
    rcases hcl with hcl | hcl
    · cases hcl
    · exact hold (.inr hcl)

/-- An execution leaves the worker only in a cleanup. -/
theorem ActiveJob.Next.leaving {v : View} {act : JobAction ρ} {eff : Effect}
    (h : ActiveJob.Next v x act x' eff) (he : eff.leave = true) :
    x.proc = .cleanup ∨ x.stopper = .cleanup := by
  cases h with
  | cleanup h => exact .inl h
  | stopCleanup h => exact .inr h
  | _ => cases he

/-- A registered execution is tracked, answered or replaced. -/
theorem kept_of_reachable (h : KeepsReachable ρ o s) (hx : s.jobs[e]? = some x) :
    x.proc.unstarted = false → x.tracked = true ∨ x.answered = true ∨ x.replaced = true := by
  refine forall_jobs (P := fun x => x.proc.unstarted = false →
    x.tracked = true ∨ x.answered = true ∨ x.replaced = true) (fun _ => nofun) ?_ h hx
  intro s a s' e x x' hr ha hstep hx hx' hP hm hu'
  cases hm with
  | @next act _ eff hp hn =>
    have hf := hn.frame
    have hu := (hf.started ((wf_of_reachable hr).blank hx)).1
    have hans : x.answered = true → x'.answered = true :=
      (Move.next (s := s) (e := e) hp hn).answered
    rw [hf.replaced]
    cases hl : eff.leave with
    | false =>
      rw [hf.stays hl]
      exact (hP hu).imp_right (.imp_left hans)
    | true =>
      refine .inr ?_
      rcases answered_of_cleanup hr hx (hn.leaving hl) with hanswered | ht
      · exact .inl (hans hanswered)
      · exact ((hP hu).resolve_left (by simp [ht])).imp_left hans
  | registered => exact .inl rfl
  | displaced => exact .inr (.inr rfl)
  | unreleased | release | released => cases hu'
  | forced =>
    obtain ⟨w, hw⟩ := x.forceFail_eq
    rw [hw] at hu' ⊢
    exact hP hu'
  | begun => exact hP hu'

/-- Jobs that were not registered: the poll has yet to come to them, or has sent their
release. -/
structure Unstarted (s : SpooledWorker ρ) (e : ℕ) (x : ActiveJob ρ) : Prop where
  claimed : x.proc = .claimed → e ∈ s.main.todo
  sent : x.proc ≠ .unreleased

/-- A step of `start()` that leaves a claimed job alone keeps it in the loop's hands. -/
private theorem Unstarted.main {act : MainAction} (h : Unstarted s e x)
    (hstep : SpooledWorker.MainStep s act s') (hx' : s'.jobs[e]? = some x) : Unstarted s' e x := by
  refine ⟨fun ht => ?_, h.sent⟩
  have hmem := h.claimed ht
  -- the job that the step takes out of the loop's hands is not this one
  have hother : ∀ {l : List (ActiveJob ρ)} {i : ℕ} {y : ActiveJob ρ}, (l.set i y)[e]? = some x →
      y.proc ≠ .claimed → e ≠ i := by
    rintro l i y hset hne rfl
    rcases List.getElem?_set_cases hset with ⟨-, rfl⟩ | ⟨hii, -⟩
    · exact hne ht
    · exact hii rfl
  cases hstep with
  | unreleased hc hm hy hi hw =>
    rw [hm] at hmem
    exact (List.mem_cons.mp hmem).resolve_left (hother hx' (by simp))
  | release hc hm hy hi hw =>
    rw [hm] at hmem
    exact (List.mem_cons.mp hmem).resolve_left (hother hx' (by simp))
  | enter hc hm hy hi =>
    rw [hm] at hmem
    exact (List.mem_cons.mp hmem).resolve_left (hother hx' (by simp [ActiveJob.emit]))
  | releaseReplied hc hm | released hc hm =>
    rw [hm] at hmem
    exact hmem
  | start _ hm _ | answered _ hm | refused _ hm | register _ hm | registerFailed _ hm | skip _ hm
  | leave _ hm _ _ | poll _ hm _ _ _ | send _ hm _ | claimed _ hm | claimFailed _ hm | last _ hm
  | finish _ hm | resume _ hm | woken _ hm _ | left _ hm =>
    rw [hm] at hmem
    cases hmem

theorem main_of_stop {act : StopAction} (h : SpooledWorker.StopStep s act s') :
    s'.main = s.main := by
  cases h <;> rfl

/-- The result loop loses no job. -/
theorem unstarted_of_reachable (h : (system ρ o).Reachable ok s) (hx : s.jobs[e]? = some x) :
    Unstarted s e x := by
  refine forall_jobs_in (P := Unstarted) ?_ ?_ ?_ h hx
  · intro s a s' e j _ hstep hnone hx'
    refine ⟨fun _ => ?_, by simp⟩
    have hlt := (List.getElem?_eq_some_iff.mp hx').1
    have hge := List.getElem?_eq_none_iff.mp hnone
    rcases length_of_step hstep with heq | ⟨n, js, hm, rfl, hj, hmain⟩
    · omega
    · rw [hj, List.length_append, List.length_map] at hlt
      rw [hmain]
      exact List.mem_range'_1.mpr ⟨hge, hlt⟩
  · intro s a s' e x hr _ hstep hx hx' hP
    have hkeep : s'.main = s.main → Unstarted s' e x := fun hm => ⟨hm ▸ hP.claimed, hP.sent⟩
    cases a with
    | main act => exact hP.main (SpooledWorker.main_of_step hstep) hx'
    | stop act => exact hkeep (main_of_stop (SpooledWorker.stop_of_step hstep))
    | job i act =>
      obtain ⟨-, y, y', eff, hy, -, rfl⟩ := SpooledWorker.job_of_step hstep
      exact hkeep rfl
    | run =>
      obtain ⟨-, t, rest, -, rfl⟩ := SpooledWorker.run_of_step hstep
      exact hkeep rfl
  · intro s a s' e x x' hr _ hstep hx hx' hP hm
    have hwf := wf_of_reachable hr
    have hstarted : x'.proc.unstarted = false → Unstarted s' e x' := fun hu =>
      ⟨fun ht => absurd (ht ▸ hu) (by simp [ProcPc.unstarted]),
        fun ht => absurd (ht ▸ hu) (by simp [ProcPc.unstarted])⟩
    have hsame : x'.proc = x.proc → s'.main = s.main → Unstarted s' e x' := fun ht hmain =>
      ⟨by rw [ht, hmain]; exact hP.claimed, by rw [ht]; exact hP.sent⟩
    cases hm with
    | next hp hn => exact hstarted (hn.frame.started (hwf.blank hx)).2
    | registered => exact hstarted rfl
    | displaced _ _ _ _ htr =>
      refine hstarted ?_
      show x.proc.unstarted = false
      by_contra hu
      rw [(hwf.blank hx (by simpa using hu)).tracked] at htr
      cases htr
    | unreleased _ _ hw => exact absurd hw ((life_of_reachable hr).releaseId hx)
    | release => exact ⟨by rintro ⟨⟩, by simp⟩
    | released => exact ⟨by rintro ⟨⟩, by simp [ActiveJob.emit]⟩
    | forced =>
      obtain ⟨w, hw⟩ := x.forceFail_eq
      exact hsame (by rw [hw]) (main_of_stop (SpooledWorker.stop_of_step hstep))
    | begun => exact hsame rfl (main_of_stop (SpooledWorker.stop_of_step hstep))

/-- Every claimed job is tracked or still waits in a running poll, or a call was started
for it, or its lease was lost, or a newer claim replaced it. -/
theorem accounted (h : KeepsReachable ρ o s) (hx : s.jobs[e]? = some x) :
    s.activeJobs.get? x.job.id = some e ∨ e ∈ s.main.todo ∨ x.answered = true ∨
      x.replaced = true := by
  have hwf := wf_of_reachable h
  cases hu : x.proc.unstarted with
  | false =>
    rcases kept_of_reachable h hx hu with ht | ha | hr
    · exact .inl ((hwf.indexed.live_iff hx).mp ht)
    · exact .inr (.inr (.inl ha))
    · exact .inr (.inr (.inr hr))
  | true =>
    have hun := unstarted_of_reachable h hx
    -- the call of a release is started when the release takes the right to ack
    have hreleased : x.right = some (.poll, .fail unstartedClaimError) →
        (∀ {k w pc}, x.proc.sendingRelease = some (k, w, pc) → pc = .wait) →
        x.answered = true := by
      intro hr hs
      by_cases hc : x.calls = []
      · rcases (lease_sound h hx).1.pending hr hc with hl | ⟨w, pc, hp⟩
        · exact ActiveJob.answered_iff.mpr (.inr hl)
        · obtain rfl := hs hp
          exact answered_of_sending h hx (t := .poll) hp rfl
      · exact ActiveJob.answered_iff.mpr (.inl hc)
    refine .inr ?_
    cases ht : x.proc <;> rw [ht] at hu <;> try cases hu; done
    case claimed => exact .inl (hun.claimed ht)
    case unreleased => exact absurd ht hun.sent
    case releaseSent w =>
      refine .inr (.inl (hreleased (by rw [ActiveJob.right, ht]) ?_))
      rw [ht]
      rintro k w pc hp
      cases hp
      rfl
    case released =>
      refine .inr (.inl (hreleased (by rw [ActiveJob.right, ht]) ?_))
      rw [ht]
      rintro _ _ _ ⟨⟩

/-- When `stop()` deregisters, no execution is tracked any more. -/
theorem untracked_at_deregister (h : (system ρ o).Reachable ok s) {w : String}
    (hstep : s.step (.stop .go) = some s') (hlog : s'.log = s.log ++ [.deregister w])
    (hx : s.jobs[e]? = some x) : s.activeJobs.get? x.job.id ≠ some e := by
  intro hentry
  have hstop : s.stop = .deregister := by
    cases SpooledWorker.stop_of_step hstep <;> first
      | assumption
      | simp [SpooledWorker.setJob, SpooledWorker.suspend, SpooledWorker.closeIntake,
          SpooledWorker.apply] at hlog
  have htr : x.tracked = true := ((wf_of_reachable h).indexed.live_iff hx).mpr hentry
  rw [untracked_of_late h hx (by rw [hstop]; rfl) (by rw [hstop]; simp) (by rw [hstop]; rfl)
    (by rw [hstop]; rfl)] at htr
  cases htr

end

end SpooledSdk.Worker.Async
