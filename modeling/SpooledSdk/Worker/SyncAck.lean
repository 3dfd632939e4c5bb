/-
Acks of the synchronous worker: who may send one, and which jobs go without.

* `settled_only_as_entry`, `never_acked_once_barred`, `job_of_reaches` — an execution
  takes the right to ack only as the entry of its id, and never after it was lost or
  replaced;
* `accounted`, `answered_at_deregister` — under `KeepsJobs`, every claimed job stays
  accounted for.
-/
import SpooledSdk.Worker.SyncLife

namespace SpooledSdk.Worker.Sync

variable {ρ : Type}

section

variable {s s' : SpooledWorker ρ} {e : ℕ} {x x' : ActiveJob ρ} {a : Action ρ} {o : Options}
  {ok : SpooledWorker ρ → Action ρ → Prop}

/-! ### The right to ack -/

theorem ActiveJob.Next.settled {v : View} {act : JobAction ρ} {eff : Effect}
    (h : ActiveJob.Next v x act x' eff) :
    x'.settled = x.settled ∨ ∃ w, ActiveJob.MayAck v x w := by
  have habandon : ∀ {t reason pc r y pc' eff}, AbandonStep v x t reason pc r y pc' eff →
      y.settled = x.settled ∨ ∃ w, ActiveJob.MayAck v x w := by
    intro t reason pc r y pc' eff hs
    cases hs with
    | granted hm => exact .inr ⟨_, hm⟩
    | send hs => exact .inl hs.same.settled
    | _ => exact .inl rfl
  cases h with
  | arm ht =>
    refine .inl ?_
    show x.startJobTimeout.settled = _
    rw [startJobTimeout]
    split <;> rfl
  | granted ht hm => exact .inr ⟨_, hm⟩
  | send ht hs => exact .inl hs.same.settled
  | @timeout r y _ _ hs =>
    show y.settled = _ ∨ _
    exact habandon hs
  | @stopper r y _ _ hs =>
    show y.settled = _ ∨ _
    exact habandon hs
  | _ => exact .inl rfl

theorem Move.settled (h : Move s e x a x') :
    x'.settled = x.settled ∨ ∃ w, ActiveJob.MayAck (s.view e x) x w := by
  cases h with
  | next h => exact h.settled
  | _ => exact .inl rfl

/-- An execution takes the right to ack only while it is the entry of its job id. -/
theorem settled_only_as_entry (h : (system ρ o).Reachable ok s) (hstep : s.step a = some s')
    (hx : s.jobs[e]? = some x) (hx' : s'.jobs[e]? = some x') (hfree : x.settled = none)
    (htaken : x'.settled ≠ none) :
    s.activeJobs.get? x.job.id = some e ∧ x.leaseLost = false := by
  obtain ⟨y, hy, hcase⟩ := step_job (wf_of_reachable h) hstep hx
  rw [hx', Option.some_inj] at hy
  subst hy
  rcases hcase with rfl | hm
  · exact absurd hfree htaken
  · rcases hm.settled with heq | ⟨w, hmay⟩
    · exact absurd (heq.trans hfree) htaken
    · exact ⟨by simpa [SpooledWorker.view] using hmay.entry, hmay.notLost⟩

/-- A replaced execution was registered and is no longer the entry. -/
theorem replaced_of_reachable (h : (system ρ o).Reachable ok s) (hx : s.jobs[e]? = some x) :
    x.replaced = true → x.tracked = false ∧ x.thread.unstarted = false := by
  refine forall_jobs (P := fun x => x.replaced = true → x.tracked = false ∧
    x.thread.unstarted = false) (fun _ => nofun) ?_ h hx
  intro s a s' e x x' hr _ _ hx _ hP hm hrep
  have hwf := wf_of_reachable hr
  have hblank : x.thread.unstarted = true → x.replaced = false := fun hu =>
    (hwf.blank hx hu).replaced
  cases hm with
  | @next act _ eff h =>
    have hf := h.frame
    obtain ⟨ht, -⟩ := hP (hf.replaced ▸ hrep)
    refine ⟨?_, (h.started (hwf.blank hx)).2⟩
    by_cases hk : eff = .keep
    · rw [hf.stays hk, ht]
    · exact hf.leaves hk
  | held _ _ ht | registered _ _ ht | unreleased _ _ ht | release _ _ ht | released _ ht =>
    rw [show x.replaced = true from hrep] at hblank
    cases hblank (by rw [ht]; rfl)
  | displaced _ _ _ _ ht =>
    refine ⟨rfl, ?_⟩
    show x.thread.unstarted = false
    by_contra hu
    rw [(hwf.blank hx (by simpa using hu)).tracked] at ht
    cases ht
  | scheduled | submitted => exact ⟨(hP hrep).1, rfl⟩
  | refused => exact ⟨rfl, rfl⟩
  | begun => exact hP hrep

/-- The job of an execution is the one its claim returned, for ever. -/
theorem job_of_reaches (h : (system ρ o).Reachable ok s) (h' : (system ρ o).Reaches ok s s')
    (hx : s.jobs[e]? = some x) : ∃ x', s'.jobs[e]? = some x' ∧ x'.job = x.job := by
  refine preserves_job (P := fun y => y.job = x.job) ?_ h h' hx rfl
  intro t a t' y y' _ _ _ _ hj hm
  rw [← hj]
  cases hm with
  | next h => exact h.frame.job
  | _ => rfl

/-- Lost or replaced before it took the right to ack, an execution never starts a call. -/
theorem never_acked_once_barred (h : (system ρ o).Reachable ok s)
    (h' : (system ρ o).Reaches ok s s') (hx : s.jobs[e]? = some x) (hfree : x.settled = none)
    (hout : x.leaseLost = true ∨ x.replaced = true) :
    ∃ x', s'.jobs[e]? = some x' ∧ x'.calls = [] := by
  have hwf := wf_of_reachable h
  have hu : x.thread.unstarted = false := by
    by_contra hn
    have hb := hwf.blank hx (by simpa using hn)
    rcases hout with hl | hr
    · rw [hb.leaseLost] at hl
      cases hl
    · rw [hb.replaced] at hr
      cases hr
  have hbar : x.lease.Barred := by
    refine ⟨hout.imp_right fun hr => ?_, (ActiveJob.right_of_started hu).trans hfree⟩
    show x.standing = .gone
    rw [ActiveJob.standing_of_started hu, (replaced_of_reachable h hx hr).1]
    rfl
  have hrun := (leaseSimulation o ok e).reaches (fun _ => id) h h'
  have habs : (leaseSimulation o ok e).abs s = some x.lease := by
    show s.jobs[e]?.map ActiveJob.lease = _
    rw [hx]
    rfl
  rw [habs] at hrun
  obtain ⟨l, hl, hf, -, hr⟩ := Lease.Evolves.preserves (P := Lease.Barred)
    (fun hf hb hs => hs.barred hf hb) hrun (lease_sound h hx).1 hbar
  obtain ⟨x', hx', rfl⟩ := Option.map_eq_some_iff.mp hl
  exact ⟨x', hx', hf.free hr⟩

end

/-! ### Accounted for -/

/-- A call was started for the execution, or its lease was lost. -/
def ActiveJob.answered (x : ActiveJob ρ) : Bool := !x.calls.isEmpty || x.leaseLost

/-- The job waits in the result loop of a poll that is running. -/
def SpooledWorker.waiting (s : SpooledWorker ρ) (e : ℕ) : Prop :=
  e ∈ s.main.todo ∨ s.main.releasing = some e

/-- The execution may no longer be acked by anybody who has not settled it already. -/
def ActiveJob.decided (x : ActiveJob ρ) : Bool := x.leaseLost || x.settled.isSome || !x.tracked

/-- The steps that keep every job accounted for: a handler ends in a way that has an ack
(or one that no longer matters), a thread does not clean up between another actor's
settlement and its call, `stop()` does not deregister in that gap either, the executor does
not vanish under a result loop that still has jobs, and a job whose submission the ending
interpreter has refused no longer matters when it is dropped. -/
def KeepsJobs (s : SpooledWorker ρ) : Action ρ → Bool
  | .job e (.handlerEnds out) => s.jobs[e]?.all fun x =>
      out.ack.isSome || x.decided
  | .job e (.thread none) => s.jobs[e]?.all fun x =>
      x.thread matches .cleanup → x.settled.isSome → x.answered
  | .stop .go => s.stop ≠ .deregister ∨
      s.jobs.all fun x => !x.tracked || x.settled.isNone || x.answered
  | .main .go =>
    match s.main with
    | .submit _ todo => s.executor ≠ .absent ∨ todo = []
    | .discard e _ => s.executor ≠ .up ∨
        s.jobs[e]?.all fun x => x.decided && (x.settled.isNone || x.answered)
    | _ => true
  | _ => true

section

variable {s s' : SpooledWorker ρ} {e : ℕ} {x x' : ActiveJob ρ} {a : Action ρ} {o : Options}
  {ok : SpooledWorker ρ → Action ρ → Prop}

theorem ActiveJob.answered_iff : x.answered = true ↔ x.calls ≠ [] ∨ x.leaseLost = true := by
  cases hc : x.calls <;> simp [answered, hc]

/-- Calls are never taken back, and a lost lease stays lost. -/
theorem ActiveJob.SendStep.grows {k : Ack ρ} {w : String} {pc : SendPc} {r : Option Reply}
    {q : Option SendPc} (h : ActiveJob.SendStep x k w pc r x' q) :
    x.calls <+: x'.calls ∧ (x.leaseLost = true → x'.leaseLost = true) := by
  cases h with
  | sent => exact ⟨List.prefix_append _ _, id⟩
  | lost => exact ⟨List.prefix_rfl, fun _ => rfl⟩
  | _ => exact ⟨List.prefix_rfl, id⟩

theorem ActiveJob.AbandonStep.grows {v : View} {t : Taker} {reason : String} {pc pc' : AbandonPc}
    {r : Option Reply} {eff : Effect} (h : ActiveJob.AbandonStep v x t reason pc r x' pc' eff) :
    x.calls <+: x'.calls ∧ (x.leaseLost = true → x'.leaseLost = true) := by
  cases h with
  | send hs => exact hs.grows
  | _ => exact ⟨List.prefix_rfl, id⟩

theorem Move.grows (h : Move s e x a x') :
    x.calls <+: x'.calls ∧ (x.leaseLost = true → x'.leaseLost = true) := by
  cases h with
  | next h =>
    cases h with
    | arm =>
      show x.calls <+: x.startJobTimeout.calls ∧ (_ → x.startJobTimeout.leaseLost = true)
      rw [ActiveJob.startJobTimeout]
      split <;> exact ⟨List.prefix_rfl, id⟩
    | @send _ _ _ _ y _ _ hs =>
      show x.calls <+: y.calls ∧ (_ → y.leaseLost = true)
      exact hs.grows
    | @timeout _ y _ _ hs =>
      show x.calls <+: y.calls ∧ (_ → y.leaseLost = true)
      exact hs.grows
    | @stopper _ y _ _ hs =>
      show x.calls <+: y.calls ∧ (_ → y.leaseLost = true)
      exact hs.grows
    | beatLost => exact ⟨List.prefix_rfl, fun _ => rfl⟩
    | _ => exact ⟨List.prefix_rfl, id⟩
  | release => exact ⟨List.prefix_append _ _, id⟩
  | _ => exact ⟨List.prefix_rfl, id⟩

theorem Move.answered (h : Move s e x a x') (hx : x.answered = true) : x'.answered = true := by
  rw [ActiveJob.answered_iff] at hx ⊢
  refine hx.imp (fun hne hnil => ?_) h.grows.2
  have hpre := h.grows.1
  rw [hnil, List.prefix_nil] at hpre
  exact hne hpre

theorem ActiveJob.decided_iff :
    x.decided = true ↔ x.settled ≠ none ∨ x.leaseLost = true ∨ x.tracked = false := by
  cases hs : x.settled <;> simp [decided, hs]

/-- What decides an execution decides it for good, once it is registered. -/
theorem Move.decided (h : Move s e x a x') (ht : x.thread ≠ .claimed) (hx : x.decided = true) :
    x'.decided = true := by
  rw [ActiveJob.decided_iff] at hx ⊢
  refine hx.imp (fun hne => ?_) fun hx => hx.imp h.grows.2 fun hn => ?_
  · rcases h.settled with heq | ⟨w, hmay⟩
    · rwa [heq]
    · exact absurd hmay.notSettled hne
  · cases h with
    | @next _ _ eff h =>
      by_cases hk : eff = .keep
      · rw [h.frame.stays hk, hn]
      · exact h.frame.leaves hk
    | registered _ _ hc => exact absurd hc ht
    | displaced => rfl
    | refused => rfl
    | _ => exact hn

/-- Whoever holds the right and does not send has started its call, or found the lease
lost. -/
theorem answered_of_settled {t : Taker} {k : Ack ρ} (h : (system ρ o).Reachable ok s)
    (hx : s.jobs[e]? = some x) (hs : x.settled = some (t, k)) (hn : x.sending t = none) :
    x.answered = true := by
  have hu : x.thread.unstarted = false := by
    by_contra hu
    rw [((wf_of_reachable h).blank hx (by simpa using hu)).settled] at hs
    cases hs
  rw [ActiveJob.answered_iff]
  by_cases hc : x.calls = []
  · rcases (lease_sound h hx).1.pending ((ActiveJob.right_of_started hu).trans hs) hc with
      hl | ⟨w, pc, hp⟩
    · exact .inr hl
    · rw [show x.lease.sending t = none from hn] at hp
      cases hp
  · exact .inl hc

/-- Only the holder of the right sends, and for the ack it took it for. -/
theorem settled_of_sending {t : Taker} {k : Ack ρ} {w : String} {pc : SendPc}
    (h : (system ρ o).Reachable ok s) (hx : s.jobs[e]? = some x)
    (hp : x.sending t = some (k, w, pc)) (ht : t ≠ .poll) : x.settled = some (t, k) := by
  have hr : x.right = some (t, k) := (lease_sound h hx).1.holder hp
  rw [ActiveJob.right] at hr
  split at hr
  · cases hr
    exact absurd rfl ht
  · cases hr
    exact absurd rfl ht
  · exact hr

/-- The bookkeeping of `_abandon_job` comes after its call. -/
theorem answered_of_book (h : (system ρ o).Reachable ok s) (hx : s.jobs[e]? = some x) :
    x.timeout = .book ∨ x.stopper = .book → x.answered = true := by
  refine forall_jobs (P := fun x => x.timeout = .book ∨ x.stopper = .book → x.answered = true)
    (fun _ => nofun) ?_ h hx
  intro s a s' e x x' hr ha hstep hx hx' hP hm hbook
  have hr' : (system ρ o).Reachable ok s' := hr.step ha hstep
  by_cases hold : x.timeout = .book ∨ x.stopper = .book
  · exact hm.answered (hP hold)
  rw [not_or] at hold
  -- a program counter that has just come to the bookkeeping was sending
  have hsent : ∀ {t reason r y pc pc' eff}, t ≠ .poll → pc' = AbandonPc.book → pc ≠ .book →
      ActiveJob.AbandonStep (s.view e x) x t reason pc r y pc' eff →
      x.sending t = pc.sendingAck reason → x'.settled = y.settled →
      x'.sending t = pc'.sendingAck reason → x'.answered = true := by
    intro t reason r y pc pc' eff hpoll hpc hne hs hp hset hp'
    cases hs with
    | @send w pc r y q hs =>
      have hq : q = none := by
        cases q with
        | none => rfl
        | some q => cases hpc
      subst hq
      refine answered_of_settled hr' hx' (t := t) (k := .fail reason) ?_ hp'
      rw [hset, hs.same.settled]
      exact settled_of_sending hr hx hp hpoll
    | book => exact absurd rfl hne
    | _ => cases hpc
  -- the other moves leave both program counters alone
  have hother : ActiveJob.SameTimers x x' → x'.stopper = x.stopper → x'.answered = true := by
    intro ht hs
    rcases hbook with hb | hb
    · rcases ht.timeout with heq | ⟨-, hov⟩
      · exact absurd (heq.symm.trans hb) hold.1
      · rw [hov] at hb
        cases hb
    · exact absurd (hs.symm.trans hb) hold.2
  cases hm with
  | next h =>
    cases h with
    | @timeout r y pc' eff hs =>
      rcases hbook with hb | hb
      · exact hsent (by simp) hb hold.1 hs rfl rfl rfl
      · exact absurd (hs.frame.2.1.symm.trans hb) hold.2
    | @stopper r y pc' eff hs =>
      rcases hbook with hb | hb
      · rcases hs.timers.timeout with heq | ⟨-, hov⟩
        · exact absurd (heq.symm.trans hb) hold.1
        · rw [show y.timeout = .book from hb] at hov
          cases hov
      · exact hsent (by simp) hb hold.2 hs rfl rfl rfl
    | arm ht =>
      have hs : x.startJobTimeout.timeout ≠ .book ∧ x.startJobTimeout.stopper = x.stopper := by
        rw [ActiveJob.startJobTimeout]
        split
        · exact ⟨by simp, rfl⟩
        · exact ⟨hold.1, rfl⟩
      rcases hbook with hb | hb
      · exact absurd hb hs.1
      · exact absurd (hs.2.symm.trans hb) hold.2
    | send ht hs => exact hother ⟨hs.timers.timeout, hs.timers.beat⟩ hs.same.stopper
    | cleanup ht =>
      exact hother (.of_cancel rfl rfl) rfl
    | beatLost hb hl =>
      rcases hbook with hb | hb
      · have hc : ActiveJob.SameTimers x x.cancelTimers := .of_cancel rfl rfl
        rcases hc.timeout with heq | ⟨-, hov⟩
        · exact absurd (heq.symm.trans hb) hold.1
        · rw [show x.cancelTimers.timeout = .book from hb] at hov
          cases hov
      · exact absurd hb hold.2
    | _ => exact absurd hbook (not_or.mpr hold)
  | refused hm ht =>
    exact hother (.of_cancel rfl rfl) rfl
  | begun hs ht =>
    rcases hbook with hb | hb
    · exact absurd hb hold.1
    · cases hb
  | _ => exact absurd hbook (not_or.mpr hold)

/-- `_claim_settlement` denies only what is decided, while the worker id is set. -/
private theorem decided_of_denied' (h : (system ρ o).Reachable ok s) (hx : s.jobs[e]? = some x)
    (hd : x.claimSettlement (s.view e x) = none) (hc : s.stop.cleared = false) :
    x.decided = true := by
  rw [ActiveJob.claimSettlement] at hd
  split at hd
  · rename_i hg
    rw [view_entry (wf_of_reachable h) hx] at hg
    exact hg
  · obtain ⟨w, hw⟩ := (life_of_reachable h).truthy_workerId hx hc
    rw [show truthy (s.view e x).workerId = truthy s.workerId from rfl, hw] at hd
    cases hd

/-- A call of `_abandon_job` ends denied or booked. -/
theorem ActiveJob.AbandonStep.over {v : View} {t : Taker} {reason : String} {pc pc' : AbandonPc}
    {r : Option Reply} {eff : Effect} (h : ActiveJob.AbandonStep v x t reason pc r x' pc' eff)
    (ho : pc' = .over) :
    (pc = .settling ∧ x.claimSettlement v = none ∧ x' = x) ∨ x'.tracked = false := by
  cases h with
  | denied hd => exact .inl ⟨rfl, hd, rfl⟩
  | @send _ _ _ _ q hs => cases q <;> cases ho
  | book => exact .inr rfl
  | _ => cases ho

/-- `stop()` is done with an execution only once it is decided. -/
theorem decided_of_over (h : (system ρ o).Reachable ok s) (hx : s.jobs[e]? = some x) :
    x.stopper = .over → x.decided = true := by
  refine forall_jobs (P := fun x => x.stopper = .over → x.decided = true) (fun _ => nofun) ?_ h hx
  intro s a s' e x x' hr _ _ hx _ hP hm hover
  have hwf := wf_of_reachable hr
  have hold : x.stopper = .over → x'.decided = true := by
    intro ho
    refine hm.decided (fun ht => ?_) (hP ho)
    rw [(hwf.blank hx (by rw [ht]; rfl)).stopper] at ho
    cases ho
  cases hm with
  | next hn =>
    cases hn with
    | @stopper r x' pc' eff hs =>
      rcases hs.over hover with ⟨hpc, hd, rfl⟩ | ht
      · have hcur := (life_of_reachable hr).abandoning hx
        rw [hpc] at hcur
        show x'.decided = true
        exact decided_of_denied' hr hx hd (by
          cases hst : s.stop <;> rw [hst] at hcur <;> first | rfl | simp [StopPc.current] at hcur)
      · exact ActiveJob.decided_iff.mpr (.inr (.inr ht))
    | arm ht =>
      refine hold (Eq.trans ?_ hover)
      show x.stopper = x.startJobTimeout.stopper
      rw [ActiveJob.startJobTimeout]
      split <;> rfl
    | send ht hs => exact hold (hs.same.stopper.symm.trans hover)
    | timeout hs => exact hold (hs.frame.2.1.symm.trans hover)
    | _ => exact hold hover
  | begun => cases hover
  | _ => exact hold hover

theorem decided_of_denied (h : (system ρ o).Reachable ok s) (hx : s.jobs[e]? = some x)
    (hd : x.claimSettlement (s.view e x) = none) : x.decided = true := by
  cases hc : s.stop.cleared with
  | false => exact decided_of_denied' h hx hd hc
  | true =>
    by_contra hn
    refine hn (decided_of_over h hx ?_)
    have htr : x.tracked = true := by
      by_contra ht
      exact hn (ActiveJob.decided_iff.mpr (.inr (.inr (by simpa using ht))))
    refine (life_of_reachable h).stopper_over ?_ ?_ ?_ hx htr <;>
      cases hs : s.stop <;> rw [hs] at hc <;> first | rfl | cases hc

/-! ### Under `KeepsJobs` -/

variable (ρ o) in
/-- The states of the runs whose steps all keep their jobs accounted for. -/
abbrev KeepsReachable (s : SpooledWorker ρ) : Prop :=
  (system ρ o).Reachable (fun s a => KeepsJobs s a = true) s

/-- A thread reaches its cleanup only with an execution that is decided. -/
theorem decided_of_cleanup (h : KeepsReachable ρ o s) (hx : s.jobs[e]? = some x) :
    x.thread = .cleanup → x.decided = true := by
  refine forall_jobs (P := fun x => x.thread = .cleanup → x.decided = true) (fun _ => nofun) ?_ h hx
  intro s a s' e x x' hr ha hstep hx hx' hP hm hcl
  have hold : x.thread = .cleanup → x'.decided = true := fun ht =>
    hm.decided (by rw [ht]; simp) (hP ht)
  cases hm with
  | next hn =>
    cases hn with
    | @ends out ht =>
      have hk : (out.ack.isSome || x.decided) = true := by
        have := ha
        simp only [KeepsJobs, hx, Option.all_some] at this
        exact this
      cases hack : out.ack with
      | some k => rw [hack] at hcl; cases hcl
      | none => rw [hack] at hk; exact hk
    | denied ht hd =>
      show x.decided = true
      exact decided_of_denied hr hx hd
    | pickUp | arm | call | granted | cleanup => cases hcl
    | @send k w pc r y q ht hs =>
      have hsend : x.sending .runner = some (k, w, pc) := by
        show x.thread.sendingAck = _
        rw [ht]
        rfl
      have hset := settled_of_sending hr hx hsend (by simp)
      rw [ActiveJob.decided_iff]
      refine .inl ?_
      show y.settled ≠ none
      rw [hs.same.settled, hset]
      simp
    | timeout hs => exact hold (hs.frame.1.symm.trans hcl)
    | stopper hs => exact hold (hs.frame.1.symm.trans hcl)
    | beatFire | beatCheck | beatSend | beatOk | beatExpired | beatCrash | beatError
    | beatAlreadyLost | beatLost | beatReported | beatRearm => exact hold hcl
  | displaced => exact hold hcl
  | begun => exact hold hcl
  | _ => cases hcl

/-- An execution leaves the worker only in a cleanup or in the bookkeeping of
`_abandon_job`. -/
theorem ActiveJob.Next.leaving {v : View} {act : JobAction ρ} {eff : Effect}
    (h : ActiveJob.Next v x act x' eff) (he : eff ≠ .keep) :
    (x.thread = .cleanup ∧ act = .thread none) ∨ x.timeout = .book ∨ x.stopper = .book := by
  have habandon : ∀ {t reason pc r y pc'}, AbandonStep v x t reason pc r y pc' eff → pc = .book := by
    intro t reason pc r y pc' hs
    cases hs <;> first | rfl | exact absurd rfl he
  cases h with
  | cleanup ht => exact .inl ⟨ht, rfl⟩
  | timeout hs => exact .inr (.inl (habandon hs))
  | stopper hs => exact .inr (.inr (habandon hs))
  | _ => exact absurd rfl he

/-- A registered execution is tracked, answered or replaced. -/
theorem kept_of_reachable (h : KeepsReachable ρ o s) (hx : s.jobs[e]? = some x) :
    x.thread.unstarted = false → x.tracked = true ∨ x.answered = true ∨ x.replaced = true := by
  refine forall_jobs (P := fun x => x.thread.unstarted = false →
    x.tracked = true ∨ x.answered = true ∨ x.replaced = true) (fun _ => nofun) ?_ h hx
  intro s a s' e x x' hr ha hstep hx hx' hP hm hu'
  -- an execution that is decided but not settled is lost or was not tracked
  have hleft : x.thread.unstarted = false → x.decided = true →
      (x.settled ≠ none → x.answered = true) → x.answered = true ∨ x.replaced = true := by
    intro hu hd hset
    rcases ActiveJob.decided_iff.mp hd with hs | hl | ht
    · exact .inl (hset hs)
    · exact .inl (ActiveJob.answered_iff.mpr (.inr hl))
    · rcases hP hu with htr | hrest
      · rw [ht] at htr
        cases htr
      · exact hrest
  cases hm with
  | @next act _ eff hn =>
    have hf := hn.frame
    have hu := (hn.started ((wf_of_reachable hr).blank hx)).1
    have hans : x.answered = true → x'.answered = true :=
      (Move.next (s := s) (e := e) hn).answered
    by_cases hk : eff = .keep
    · rw [hf.stays hk, hf.replaced]
      exact (hP hu).imp_right (.imp_left hans)
    · refine .inr ?_
      rw [hf.replaced]
      refine Or.imp_left hans ?_
      rcases hn.leaving hk with ⟨hcl, rfl⟩ | hb
      · refine hleft hu (decided_of_cleanup hr hx hcl) fun hs => ?_
        have hkeep := ha
        simp only [KeepsJobs, hx, Option.all_some, hcl, decide_eq_true_eq] at hkeep
        exact hkeep trivial (Option.ne_none_iff_isSome.mp hs)
      · exact .inl (answered_of_book hr hx hb)
  | held | unreleased | release | released => cases hu'
  | registered => exact .inl rfl
  | displaced => exact .inr (.inr rfl)
  | scheduled hm' ht => exact hP (by rw [ht]; rfl)
  | submitted hm' hup ht => exact hP (by rw [ht]; rfl)
  | begun => exact hP hu'
  | @refused todo hm' ht =>
    have hu : x.thread.unstarted = false := by rw [ht]; rfl
    have hans : x.answered = true → (x.cleanupJob .refused).1.answered = true :=
      (Move.refused (s := s) (e := e) (x := x) hm' ht).answered
    refine .inr ((?_ : x.answered = true ∨ x.replaced = true).imp_left hans)
    by_cases hup : s.executor = .up
    · have hk := ha
      simp only [KeepsJobs, hm', hup, ne_eq, not_true_eq_false, false_or, hx, Option.all_some,
        decide_eq_true_eq, Bool.and_eq_true, Bool.or_eq_true, Option.isNone_iff_eq_none] at hk
      exact hleft hu hk.1 hk.2.resolve_left
    have hexec : s.stop.executor ≠ .up := by
      rwa [(life_of_reachable hr).executor (by rw [hm']; rfl)] at hup
    cases htr : x.tracked with
    | false =>
      rcases hP hu with htr' | hrest
      · rw [htr] at htr'
        cases htr'
      · exact hrest
    | true =>
      -- the executor is gone, so `stop()` has abandoned what it found tracked
      have hover : x.stopper = .over := by
        refine (life_of_reachable hr).stopper_over ?_ ?_ ?_ hx htr <;>
          cases hs : s.stop <;> rw [hs] at hexec <;> first | rfl | exact absurd rfl hexec
      refine hleft hu (decided_of_over hr hx hover) fun hs => ?_
      obtain ⟨⟨t, k⟩, hs⟩ := Option.ne_none_iff_exists'.mp hs
      refine answered_of_settled hr hx hs ?_
      cases t with
      | runner => show x.thread.sendingAck = none; rw [ht]; rfl
      | timeout =>
        show x.timeout.sendingAck _ = none
        rw [(fresh_of_reachable hr hx).timeout (by rw [ht]; rfl)]
        rfl
      | stopper => show x.stopper.sendingAck _ = none; rw [hover]; rfl
      | poll => show x.thread.sendingRelease = none; rw [ht]; rfl

/-- Jobs that were not registered: the poll has yet to come to them, is about to release
them, or has sent their release. -/
structure Unstarted (s : SpooledWorker ρ) (e : ℕ) (x : ActiveJob ρ) : Prop where
  claimed : x.thread = .claimed → e ∈ s.main.todo
  releasing : x.thread = .releasing → s.main.releasing = some e
  sent : x.thread ≠ .unreleased

/-- The poll knows a worker id to release a job with. -/
theorem releaseId_ne_none (h : Life s) (hp : s.main.polling = true) : s.releaseId ≠ none := by
  obtain ⟨w, hw⟩ := Option.isSome_iff_exists.mp (h.polled (.inr hp))
  rw [SpooledWorker.releaseId, hw]
  cases truthy s.workerId <;> simp

/-- A step of the poll loop that leaves an unregistered job alone keeps it in its hands. -/
private theorem Unstarted.main {act : MainAction} (h : Unstarted s e x) (hl : Life s)
    (hk : KeepsJobs s (.main act) = true) (hstep : SpooledWorker.MainStep s act s')
    (hx' : s'.jobs[e]? = some x) : Unstarted s' e x := by
  -- the job that the step takes out of the loop's hands is not this one
  have hother : ∀ {l : List (ActiveJob ρ)} {i : ℕ} {y : ActiveJob ρ}, (l.set i y)[e]? = some x →
      x.thread ≠ y.thread → e ≠ i := by
    rintro l i y hset hne rfl
    rcases List.getElem?_set_cases hset with ⟨-, rfl⟩ | ⟨hii, -⟩
    · exact hne rfl
    · exact hii rfl
  refine ⟨fun ht => ?_, fun ht => ?_, h.sent⟩
  · have hmem := h.claimed ht
    cases hstep with
    | hold hm hy hi =>
      rw [hm] at hmem
      exact (List.mem_cons.mp hmem).resolve_left (hother hx' (by rw [ht]; simp))
    | enter hm hy hi =>
      rw [hm] at hmem
      exact (List.mem_cons.mp hmem).resolve_left (hother hx' (by rw [ht]; simp))
    | vanished hm hy hu =>
      simp only [KeepsJobs, hm, hu, ne_eq, not_true_eq_false, false_or, decide_eq_true_eq] at hk
      rw [hm, hk] at hmem
      cases hmem
    | unreleased hm _ _ | release hm _ _ | released hm _ | schedule hm _ | noExecutor hm _
    | executor hm _ | submit hm _ _ | refuse hm _ _ | exiting hm _ _ | discard hm _ =>
      rw [hm] at hmem
      exact hmem
    | start hm _ | register hm | registerFailed hm | run hm | again hm _ _ | leave hm _ | skip hm
    | poll hm _ _ _ | claim hm | resend hm _ | claimed hm | claimFailed hm | done hm | finish hm
    | pause hm | woken hm _ =>
      rw [hm] at hmem
      cases hmem
  · have hcur := h.releasing ht
    cases hstep with
    | unreleased hm _ hw => exact absurd hw (releaseId_ne_none hl (by rw [hm]; rfl))
    | release hm hy hw =>
      rw [hm] at hcur
      exact absurd (Option.some_inj.mp hcur).symm (hother hx' (by rw [ht]; simp))
    | start hm _ | register hm | registerFailed hm | run hm | again hm _ _ | leave hm _ | skip hm
    | poll hm _ _ _ | claim hm | resend hm _ | claimed hm | claimFailed hm | done hm | finish hm
    | pause hm | woken hm _ | hold hm _ _ | enter hm _ _ | released hm _ | schedule hm _
    | noExecutor hm _ | executor hm _ | submit hm _ _ | refuse hm _ _ | exiting hm _ _
    | vanished hm _ _ | discard hm _ =>
      rw [hm] at hcur
      cases hcur

/-- Under `KeepsJobs` the result loop loses no job. -/
theorem unstarted_of_reachable (h : KeepsReachable ρ o s) :
    ∀ {e : ℕ} {x : ActiveJob ρ}, s.jobs[e]? = some x → Unstarted s e x := by
  refine h.invariant_of (I := KeepsReachable ρ o)
    (P := fun s : SpooledWorker ρ => ∀ {e : ℕ} {x : ActiveJob ρ}, s.jobs[e]? = some x →
      Unstarted s e x) (fun _ => id) (by intro e x hx; cases hx) ?_
  intro s a s' hr hP ha hstep e x' hx'
  replace hstep : s.step a = some s' := hstep
  have hwf := wf_of_reachable hr
  have hl := life_of_reachable hr
  rcases step_move hwf hstep hx' with ⟨x, hx, rfl | hm⟩ | ⟨hnone, j, rfl⟩
  · cases a with
    | main act => exact (hP hx).main hl ha (SpooledWorker.main_of_step hstep) hx'
    | stop act =>
      have hmain : s'.main = s.main := by
        cases SpooledWorker.stop_of_step hstep <;> rfl
      exact ⟨hmain ▸ (hP hx).claimed, hmain ▸ (hP hx).releasing, (hP hx).sent⟩
    | job i act =>
      obtain ⟨y, y', eff, hy, hnext, rfl⟩ := SpooledWorker.job_of_step hstep
      have hmain := apply_main (s := s) (e := i) (x := y') eff
      exact ⟨hmain ▸ (hP hx).claimed, hmain ▸ (hP hx).releasing, (hP hx).sent⟩
  · have hstarted : x'.thread.unstarted = false → Unstarted s' e x' := fun hu =>
      ⟨fun ht => absurd (ht ▸ hu) (by simp [ThreadPc.unstarted]),
        fun ht => absurd (ht ▸ hu) (by simp [ThreadPc.unstarted]),
        fun ht => absurd (ht ▸ hu) (by simp [ThreadPc.unstarted])⟩
    have hsame : x'.thread = x.thread → s'.main = s.main → Unstarted s' e x' := fun ht hmain =>
      ⟨by rw [ht, hmain]; exact (hP hx).claimed, by rw [ht, hmain]; exact (hP hx).releasing,
        by rw [ht]; exact (hP hx).sent⟩
    cases hm with
    | next hn => exact hstarted (hn.started (hwf.blank hx)).2
    | @held todo hm' hi ht =>
      refine ⟨by simp, fun _ => ?_, by simp⟩
      cases SpooledWorker.main_of_step hstep with
      | hold hm =>
        rw [hm'] at hm
        cases hm
        rfl
      | enter _ _ hi' =>
        rw [hi] at hi'
        cases hi'
      | start hm _ | run hm | again hm _ _ | leave hm _ | skip hm | poll hm _ _ _ | claim hm
      | done hm | unreleased hm _ _ | release hm _ _ | schedule hm _ | noExecutor hm _
      | executor hm _ | submit hm _ _ | refuse hm _ _ | vanished hm _ _ | discard hm _
      | finish hm | pause hm | woken hm _ =>
        rw [hm'] at hm
        cases hm
    | registered => exact hstarted rfl
    | displaced _ _ _ _ htr =>
      refine hstarted ?_
      show x.thread.unstarted = false
      by_contra hu
      rw [(hwf.blank hx (by simpa using hu)).tracked] at htr
      cases htr
    | unreleased hm' hw ht => exact absurd hw (releaseId_ne_none hl (by rw [hm']; rfl))
    | release => exact ⟨by rintro ⟨⟩, by rintro ⟨⟩, by simp⟩
    | released => exact ⟨by rintro ⟨⟩, by rintro ⟨⟩, by simp [ActiveJob.emit]⟩
    | scheduled => exact hstarted rfl
    | submitted => exact hstarted rfl
    | refused => exact hstarted rfl
    | begun hs ht =>
      refine hsame rfl ?_
      cases SpooledWorker.stop_of_step hstep <;> rfl
  · refine ⟨fun _ => ?_, by rintro ⟨⟩, by simp⟩
    have hlt := (List.getElem?_eq_some_iff.mp hx').1
    have hge := List.getElem?_eq_none_iff.mp hnone
    rcases length_of_step hstep with heq | ⟨n, js, hm, rfl, hj, hmain⟩
    · omega
    · rw [hj, List.length_append, List.length_map] at hlt
      rw [hmain]
      exact List.mem_range'_1.mpr ⟨hge, hlt⟩

/-- Every claimed job is tracked or still waits in a running poll, or a call was started
for it, or its lease was lost, or a newer claim replaced it. -/
theorem accounted (h : KeepsReachable ρ o s) (hx : s.jobs[e]? = some x) :
    s.activeJobs.get? x.job.id = some e ∨ s.waiting e ∨ x.answered = true ∨
      x.replaced = true := by
  have hwf := wf_of_reachable h
  cases hu : x.thread.unstarted with
  | false =>
    rcases kept_of_reachable h hx hu with ht | ha | hr
    · exact .inl ((hwf.indexed.live_iff hx).mp ht)
    · exact .inr (.inr (.inl ha))
    · exact .inr (.inr (.inr hr))
  | true =>
    have hun := unstarted_of_reachable h hx
    have hf := (lease_sound h hx).1
    have hcalls : ∀ {k : Ack ρ}, x.lease.right = some (.poll, k) →
        (x.lease.sending .poll = none ∨ ∃ w, x.lease.sending .poll = some (k, w, .wait)) →
        x.answered = true := by
      intro k hr hs
      rw [ActiveJob.answered_iff]
      by_cases hc : x.calls = []
      · rcases hf.pending hr hc with hl | ⟨w, pc, hp⟩
        · exact .inr hl
        · rcases hs with hn | ⟨w', hp'⟩
          · rw [hn] at hp
            cases hp
          · have := hf.counted hp'
            rw [show x.lease.calls = [] from hc] at this
            cases this
      · exact .inl hc
    cases ht : x.thread <;> rw [ht] at hu <;> try cases hu; done
    case claimed => exact .inr (.inl (.inl (hun.claimed ht)))
    case releasing => exact .inr (.inl (.inr (hun.releasing ht)))
    case unreleased => exact absurd ht hun.sent
    case releaseSent w =>
      refine .inr (.inr (.inl (hcalls (k := .fail unstartedClaimError) ?_ (.inr ⟨w, ?_⟩))))
      · show x.right = _
        rw [ActiveJob.right, ht]
      · show x.thread.sendingRelease = _
        rw [ht]
        rfl
    case released =>
      refine .inr (.inr (.inl (hcalls (k := .fail unstartedClaimError) ?_ (.inl ?_))))
      · show x.right = _
        rw [ActiveJob.right, ht]
      · show x.thread.sendingRelease = _
        rw [ht]
        rfl

/-- When `stop()` deregisters, every execution still tracked is answered. -/
theorem answered_at_deregister (h : KeepsReachable ρ o s) {w : String}
    (hk : KeepsJobs s (.stop .go) = true) (hstep : s.step (.stop .go) = some s')
    (hlog : s'.log = s.log ++ [.deregister w]) (hx : s.jobs[e]? = some x)
    (ht : s.activeJobs.get? x.job.id = some e) : x.answered = true := by
  have hstop : s.stop = .deregister := by
    cases SpooledWorker.stop_of_step hstep <;> first
      | assumption
      | simp [SpooledWorker.setJob] at hlog
  have htr : x.tracked = true := ((wf_of_reachable h).indexed.live_iff hx).mpr ht
  have hover : x.stopper = .over := (life_of_reachable h).stopper_over (by rw [hstop]; rfl)
    (by rw [hstop]; rfl) (by rw [hstop]; rfl) hx htr
  rcases ActiveJob.decided_iff.mp (decided_of_over h hx hover) with hs | hl | hn
  · simp only [KeepsJobs, hstop, ne_eq, not_true_eq_false, false_or, decide_eq_true_eq,
      List.all_eq_true] at hk
    have := hk x (List.mem_of_getElem? hx)
    rw [htr] at this
    cases hset : x.settled with
    | none => exact absurd hset hs
    | some p => simpa [hset] using this
  · exact ActiveJob.answered_iff.mpr (.inr hl)
  · rw [htr] at hn
    cases hn

end

/-! ### Runs on a small worker -/

/-- `start()` up to the answer of its first claim. -/
def Action.claim (js : List ClaimedJob) : List (Action ρ) :=
  [.main .go, .main (.registered "w"), .main .go, .main .go, .main .go, .main .go,
    .main (.claimed js)]

/-- `_process_job` registers a job and hands it to the executor. -/
def Action.submit : List (Action ρ) := [.main .go, .main .go, .main .go, .main .go]

/-- The thread of execution `e` calls the handler, which ends as `out`. -/
def Action.handle (e : ℕ) (out : Outcome ρ) : List (Action ρ) :=
  [.job e (.thread none), .job e (.thread none), .job e (.thread none), .job e (.handlerEnds out)]

/-- The thread of execution `e` settles and sends its ack. -/
def Action.ack (e : ℕ) : List (Action ρ) :=
  [.job e (.thread none), .job e (.thread none), .job e (.thread none)]

/-- The heartbeat of execution `e` is sent. -/
def Action.heartbeat (e : ℕ) : List (Action ρ) :=
  [.job e (.beat none), .job e (.beat none), .job e (.beat none)]

/-- A job as a claim returns it. -/
def sampleJob : ClaimedJob :=
  { id := "j", queueName := "q", retryCount := 0, maxRetries := 3, timeoutSeconds := 0
    leaseId := some "l" }

/-- A worker for one job at a time. -/
def sampleOptions : Options := { queueName := "q", concurrency := 1, leaseDuration := 30 }

end SpooledSdk.Worker.Sync
