/-
Terminal events of the synchronous worker.

`job:completed`, `job:failed` and `job:lease_lost` end an execution for the
application.  The worker emits one at most as long as the server does not accept an
ack and, in another reply, call the same lease expired:

* `EndsOnce` — the steps by which that does not happen;
* `ackEvents_of_step` — an ack event is emitted exactly when the server accepts a call;
* `one_terminal_event` — under `EndsOnce` an execution emits one terminal event.
-/
import SpooledSdk.Worker.SyncAck

namespace SpooledSdk.Worker.Sync

variable {ρ : Type}

/-- The reply `r` to sender `t` is not the acceptance of an ack whose lease was marked lost
while it was on the wire. -/
def ActiveJob.inTime (x : ActiveJob ρ) (t : Taker) (r : Reply) : Bool :=
  (x.sending t).all fun p => p.2.2 ≠ .wait || verdict p.1 r ≠ .accepted || !x.leaseLost

/-- Execution `x` does not end twice by `a`: no heartbeat marks its lease lost after the
server accepted its ack, and its ack is not accepted after the lease was marked lost. -/
def ActiveJob.endsOnce (x : ActiveJob ρ) : JobAction ρ → Bool
  | .beat _ => x.beat ≠ .lose || x.leaseLost || !x.events.any JobEvent.isAck
  | .thread (some r) => x.inTime .runner r
  | .timeout (some r) => x.inTime .timeout r
  | .stopper (some r) => x.inTime .stopper r
  | _ => true

/-- The steps that end no execution twice: a heartbeat that is answered `LEASE_EXPIRED`
and an ack that the server accepts do not meet in one execution. -/
def EndsOnce (s : SpooledWorker ρ) : Action ρ → Bool
  | .job e a => s.jobs[e]?.all fun x => x.endsOnce a
  | _ => true

/-- The step is the server's answer to the call of execution `e` for `k`, and confirms it. -/
inductive Accepts (s : SpooledWorker ρ) (e : ℕ) (k : Ack ρ) : Action ρ → Prop
  | ack {x : ActiveJob ρ} {act : JobAction ρ} {t : Taker} {w : String} {r : Reply}
      (hx : s.jobs[e]? = some x) (hp : x.sending t = some (k, w, .wait))
      (ha : act.actor = .taker t) (hr : act.reply = some r) (hc : Confirms k r) :
      Accepts s e k (.job e act)
  | release {todo : List ℕ} (hm : s.main = .releaseWait e todo)
      (hk : k = .fail unstartedClaimError) : Accepts s e k (.main (.releaseReply true))

section

variable {s s' : SpooledWorker ρ} {e : ℕ} {x x' : ActiveJob ρ} {a : Action ρ} {o : Options}
  {ok : SpooledWorker ρ → Action ρ → Prop}

/-- A sender reports an ack event exactly when its call is accepted. -/
private theorem SendStep.ackEvents {k : Ack ρ} {w : String} {pc : SendPc} {r : Option Reply}
    {q : Option SendPc} (h : ActiveJob.SendStep x k w pc r x' q) :
    (pc = .wait ∧ (∃ r', r = some r' ∧ verdict k r' = .accepted) ∧
        x'.events = x.events ++ [ackEvent x.job k]) ∨
      ((pc = .wait → ∀ r', r = some r' → verdict k r' ≠ .accepted) ∧
        x'.events.filter JobEvent.isAck = x.events.filter JobEvent.isAck) := by
  cases h with
  | accepted hv => exact .inl ⟨rfl, ⟨_, rfl, hv⟩, rfl⟩
  | expired hv =>
    refine .inr ⟨fun _ r' hr => ?_, rfl⟩
    cases hr
    rw [hv]
    simp
  | rejected hv =>
    refine .inr ⟨fun _ r' hr => ?_, by simp [ActiveJob.emit, JobEvent.isAck]⟩
    cases hr
    rw [hv]
    simp
  | reported =>
    exact .inr ⟨by simp,
      by simp [ActiveJob.reportLost, ActiveJob.emit, leaseLostEvent, JobEvent.isAck]⟩
  | _ => exact .inr ⟨by simp, rfl⟩

/-- The call of `x` that the actor of `act` has on the wire is for `k` and is accepted. -/
private def AcceptedBy (x : ActiveJob ρ) (act : JobAction ρ) (k : Ack ρ) : Prop :=
  ∃ t w r, x.sending t = some (k, w, .wait) ∧ act.actor = .taker t ∧ act.reply = some r ∧
    verdict k r = .accepted

/-- The ack events of a move of one actor. -/
private theorem Next.ackEvents {v : View} {act : JobAction ρ} {eff : Effect}
    (h : ActiveJob.Next v x act x' eff) :
    (∃ k, AcceptedBy x act k ∧ x'.events = x.events ++ [ackEvent x.job k]) ∨
      ((∀ k, ¬ AcceptedBy x act k) ∧
        x'.events.filter JobEvent.isAck = x.events.filter JobEvent.isAck) := by
  generalize hG : ((∃ k, AcceptedBy x act k ∧ x'.events = x.events ++ [ackEvent x.job k]) ∨
    ((∀ k, ¬ AcceptedBy x act k) ∧
      x'.events.filter JobEvent.isAck = x.events.filter JobEvent.isAck)) = G
  -- a sender `t` that stands at `pc` for the ack `k`
  have hsender : ∀ {t k w pc r y q}, ActiveJob.SendStep x k w pc r y q →
      x.sending t = some (k, w, pc) → act.actor = .taker t → act.reply = r →
      x'.events = y.events → G := by
    intro t k w pc r y q hs hp hactor hreply hev
    rw [← hG]
    rcases SendStep.ackEvents hs with ⟨rfl, ⟨r', rfl, hv⟩, hy⟩ | ⟨hno, hy⟩
    · exact .inl ⟨k, ⟨t, w, r', hp, hactor, hreply, hv⟩, hev.trans hy⟩
    · refine .inr ⟨?_, by rw [hev, hy]⟩
      rintro k' ⟨t', w', r', hp', ha', hr', hv⟩
      rw [hactor, Actor.taker.injEq] at ha'
      subst ha'
      rw [hp, Option.some_inj, Prod.mk.injEq, Prod.mk.injEq] at hp'
      obtain ⟨rfl, -, rfl⟩ := hp'
      exact hno rfl r' (hreply.symm.trans hr') hv
  have hquiet : act.reply = none →
      x'.events.filter JobEvent.isAck = x.events.filter JobEvent.isAck → G := by
    intro hr hev
    rw [← hG]
    refine .inr ⟨?_, hev⟩
    rintro k ⟨t, w, r, -, -, hr', -⟩
    rw [hr] at hr'
    cases hr'
  have habandon : ∀ {t reason pc r y pc' eff}, ActiveJob.AbandonStep v x t reason pc r y pc' eff →
      x.sending t = pc.sendingAck reason → act.actor = .taker t → act.reply = r →
      x'.events = y.events → G := by
    intro t reason pc r y pc' eff hs hp hactor hreply hev
    cases hs with
    | send hs => exact hsender hs hp hactor hreply hev
    | _ => exact hquiet hreply (congrArg _ hev)
  have hbeat : act.actor = .beat →
      x'.events.filter JobEvent.isAck = x.events.filter JobEvent.isAck → G := by
    intro hb hev
    rw [← hG]
    refine .inr ⟨?_, hev⟩
    rintro k ⟨t, w, r, -, ha, -, -⟩
    rw [hb] at ha
    cases ha
  cases h with
  | send ht hs => exact hsender hs (by show x.thread.sendingAck = _; rw [ht]; rfl) rfl rfl rfl
  | timeout hs => exact habandon hs rfl rfl rfl rfl
  | stopper hs => exact habandon hs rfl rfl rfl rfl
  | pickUp => exact hquiet rfl (by simp [ActiveJob.emit, JobEvent.isAck])
  | arm =>
    refine hquiet rfl ?_
    show x.startJobTimeout.events.filter _ = _
    rw [ActiveJob.startJobTimeout]
    split <;> rfl
  | beatError => exact hbeat rfl (by simp [ActiveJob.emit, JobEvent.isAck])
  | beatReported =>
    exact hbeat rfl (by simp [ActiveJob.reportLost, ActiveJob.emit, leaseLostEvent, JobEvent.isAck])
  | beatFire | beatCheck | beatSend | beatOk | beatExpired | beatCrash | beatAlreadyLost | beatLost
  | beatRearm => exact hbeat rfl rfl
  | _ => exact hquiet rfl rfl

/-- An ack event is emitted for an execution exactly when the server answers its own call
with success. -/
theorem ackEvents_of_step (h : (system ρ o).Reachable ok s) (hstep : s.step a = some s')
    (hx : s.jobs[e]? = some x) (hx' : s'.jobs[e]? = some x') :
    (∃ k, Accepts s e k a ∧ x'.events = x.events ++ [ackEvent x.job k]) ∨
      ((∀ k, ¬ Accepts s e k a) ∧
        x'.events.filter JobEvent.isAck = x.events.filter JobEvent.isAck) := by
  have hwf := wf_of_reachable h
  cases a with
  | job i act =>
    obtain ⟨y, y', eff, hy, hn, rfl⟩ := SpooledWorker.job_of_step hstep
    rw [apply_jobs] at hx'
    rcases List.getElem?_set_cases hx' with ⟨rfl, rfl⟩ | ⟨hie, hxx⟩
    · rw [hx, Option.some_inj] at hy
      subst hy
      rcases Next.ackEvents hn with ⟨k, ⟨t, w, r, hp, ha, hr, hv⟩, hev⟩ | ⟨hno, hev⟩
      · exact .inl ⟨k, .ack hx hp ha hr (confirms_iff.mpr hv), hev⟩
      · refine .inr ⟨?_, hev⟩
        rintro k ⟨hx₁, hp, ha, hr, hc⟩
        rw [hx, Option.some_inj] at hx₁
        subst hx₁
        exact hno k ⟨_, _, _, hp, ha, hr, confirms_iff.mp hc⟩
    · rw [hx, Option.some_inj] at hxx
      subst hxx
      refine .inr ⟨?_, rfl⟩
      rintro k ⟨⟩
      exact hie rfl
  | stop act =>
    refine .inr ⟨by rintro _ ⟨⟩, ?_⟩
    obtain ⟨y, hy, hcase⟩ := step_job hwf hstep hx
    rw [hx', Option.some_inj] at hy
    subst hy
    rcases hcase with rfl | hm
    · rfl
    · cases hm
      rfl
  | main act =>
    obtain ⟨y, hy, hcase⟩ := step_job hwf hstep hx
    rw [hx', Option.some_inj] at hy
    subst hy
    rcases hcase with heq | hm
    · refine .inr ⟨?_, by rw [heq]⟩
      -- the reply to a release always changes the execution that was released
      rintro k (_ | ⟨hm, -⟩)
      obtain ⟨z, w, hz, ht⟩ := hwf.releaseSent (e := e) (by rw [hm]; rfl)
      rw [hx, Option.some_inj] at hz
      subst hz
      cases SpooledWorker.main_of_step hstep with
      | released hm' hy =>
        rw [hm] at hm'
        cases hm'
        rw [SpooledWorker.releaseReply, SpooledWorker.setJob,
          List.getElem?_set_self (List.getElem?_eq_some_iff.mp hx).1, Option.some_inj] at hx'
        rw [← hx'] at heq
        rw [← congrArg ActiveJob.thread heq] at ht
        cases ht
    · cases hm with
      | @released todo w ok hm ht =>
        cases ok with
        | true => exact .inl ⟨_, .release hm rfl, rfl⟩
        | false =>
          refine .inr ⟨by rintro _ ⟨⟩, ?_⟩
          simp [ActiveJob.emit, JobEvent.isAck]
      | scheduled =>
        refine .inr ⟨by rintro _ ⟨⟩, ?_⟩
        simp [SpooledWorker.scheduleJobHeartbeat, ActiveJob.emit, JobEvent.isAck]
      | _ => exact .inr ⟨by rintro _ ⟨⟩, rfl⟩

theorem ActiveJob.acked_lease : x.lease.acked = x.events.any JobEvent.isAck := by
  show (x.events.filter _).any _ = _
  rw [List.any_filter]
  congr 1
  funext ev
  cases ev <;> rfl

theorem ActiveJob.clean_of_inTime {t : Taker} {r : Reply} (h : x.inTime t r = true) :
    x.lease.Clean (.taker t) (some r) := by
  intro k w hp hv
  have hp' : x.sending t = some (k, w, .wait) := hp
  rw [inTime, hp', Option.all_some] at h
  show x.leaseLost = false
  simpa [hv] using h

/-- An accepted call is the one call of its execution. -/
theorem Accepts.call {k : Ack ρ} (h : Accepts s e k a) (hr : (system ρ o).Reachable ok s)
    (hx : s.jobs[e]? = some x) : ∃ w, x.calls = [ackCall x.job w k] := by
  have hf := (lease_sound hr hx).1
  cases h with
  | @ack y act t w r hy hp _ _ _ =>
    rw [hx, Option.some_inj] at hy
    subst hy
    exact ⟨w, hf.counted hp⟩
  | @release todo hm hk =>
    obtain ⟨y, w, hy, ht⟩ := (wf_of_reachable hr).releaseSent (e := e) (by rw [hm]; rfl)
    rw [hx, Option.some_inj] at hy
    subst hy hk
    have hsend : x.lease.sending .poll = some (.fail unstartedClaimError, w, .wait) := by
      show x.thread.sendingRelease = _
      rw [ht]
      rfl
    exact ⟨w, hf.counted hsend⟩

/-- Under `EndsOnce` every move of an execution is a clean step of its lease. -/
theorem Move.clean (h : Move s e x a x') (hx : s.jobs[e]? = some x) (hf : x.lease.Fenced)
    (hok : EndsOnce s a = true) : x.lease.Clean a.actor a.reply := by
  cases h with
  | @next act x' eff hn =>
    have hends : x.endsOnce act = true := by
      rw [EndsOnce, hx, Option.all_some] at hok
      exact hok
    cases act with
    | beat r =>
      intro hb hl
      rw [ActiveJob.acked_lease]
      have hlose : x.beat = .lose := by
        have hexp : x.beat.expiry = .found := hb
        cases hbeat : x.beat <;> rw [hbeat] at hexp <;> first | rfl | cases hexp
      have hlost : x.leaseLost = false := hl
      simpa [ActiveJob.endsOnce, hlose, hlost] using hends
    | handlerEnds _ => trivial
    | thread r | timeout r | stopper r =>
      cases r with
      | none => trivial
      | some r => exact ActiveJob.clean_of_inTime hends
  | @released todo w ok hm ht =>
    -- the poll releases a job that no heartbeat knows of
    refine fun _ _ _ _ => (hf.waiting ?_).1
    show x.standing = _
    rw [ActiveJob.standing, ht]
    rfl
  | _ => trivial

/-- Under `EndsOnce` no execution is both acked and lost. -/
theorem exclusive_of_reachable (h : (system ρ o).Reachable (fun s a => EndsOnce s a = true) s)
    (hx : s.jobs[e]? = some x) : ¬ (x.lease.acked = true ∧ x.lease.lost = true) := by
  refine forall_jobs (P := fun x : ActiveJob ρ => ¬ (x.lease.acked = true ∧ x.lease.lost = true))
    (fun j => ?_) ?_ h hx
  · rw [ActiveJob.lease_fresh]
    rintro ⟨hack, -⟩
    cases hack
  · intro t a t' i y y' hr ha _ hy _ hP hm
    obtain ⟨hf, ht⟩ := lease_sound hr hy
    rcases hm.lease (wf_of_reachable hr) hy (fresh_of_reachable hr hy) with heq | hs
    · rw [heq]
      exact hP
    · exact hs.exclusive ht (hm.clean hy hf ha) hP

/-- While no ack and no heartbeat disagree about an execution, it emits one terminal event
at most, and an ack event exactly when the server accepts its own call. -/
theorem one_terminal_event
    (h : (system ρ o).Reachable (fun s a => EndsOnce s a = true) s) (hx : s.jobs[e]? = some x) :
    (x.events.filter JobEvent.isTerminal).length ≤ 1 ∧
      ∀ a s' x', s.step a = some s' → s'.jobs[e]? = some x' →
        (∃ k w, Accepts s e k a ∧ x.calls = [ackCall x.job w k] ∧
          x'.events = x.events ++ [ackEvent x.job k]) ∨
        ((∀ k, ¬ Accepts s e k a) ∧
          x'.events.filter JobEvent.isAck = x.events.filter JobEvent.isAck) := by
  refine ⟨(lease_sound h hx).2.length_le_one (exclusive_of_reachable h hx), ?_⟩
  intro a s' x' hstep hx'
  rcases ackEvents_of_step h hstep hx hx' with ⟨k, hk, hev⟩ | hno
  · obtain ⟨w, hcall⟩ := hk.call h hx
    exact .inl ⟨k, w, hk, hcall, hev⟩
  · exact .inr hno

end

/-! ### The two replies disagree -/

/-- The heartbeat is on the wire while the ack is accepted, and then hears of the loss. -/
theorem two_terminal_events : ¬ ∀ (o : Options) (s : SpooledWorker ℕ) (e : ℕ) (x : ActiveJob ℕ),
    (system ℕ o).Reachable System.always s → s.jobs[e]? = some x →
      (x.events.filter JobEvent.isTerminal).length ≤ 1 := by
  intro hall
  have hrun : ((system ℕ sampleOptions).run (system ℕ sampleOptions).init
      (Action.claim [sampleJob] ++ Action.submit ++ Action.heartbeat 0 ++
        Action.handle 0 (.returned 7) ++ Action.ack 0 ++
        [.job 0 (.thread (some .ok)), .job 0 (.beat (some .leaseExpired)), .job 0 (.beat none),
          .job 0 (.beat none)])).any
      (fun s => s.jobs[0]?.any fun x => (x.events.filter JobEvent.isTerminal).length = 2) = true := by
    decide
  obtain ⟨s, hs, hp⟩ := System.exists_of_run hrun
  obtain ⟨x, hx, hlen⟩ := (Option.any_eq_true _ _).mp hp
  have := hall _ s 0 x hs hx
  simp only [decide_eq_true_eq] at hlen
  omega

/-- The same execution, whose heartbeat hears of no loss. -/
theorem one_terminal_event_sample : ∃ (s : SpooledWorker ℕ) (x : ActiveJob ℕ),
    (system ℕ sampleOptions).Reachable (fun s a => EndsOnce s a = true) s ∧
      s.jobs[0]? = some x ∧ x.events.filter JobEvent.isTerminal = [.completed "j" "q" 7] ∧
      (x.events.filter JobEvent.isTerminal).length ≤ 1 := by
  have hrun : ((system ℕ sampleOptions).runIf (fun s a => EndsOnce s a = true)
      (system ℕ sampleOptions).init
      (Action.claim [sampleJob] ++ Action.submit ++ Action.heartbeat 0 ++
        Action.handle 0 (.returned 7) ++ Action.ack 0 ++
        [.job 0 (.thread (some .ok)), .job 0 (.beat (some .ok))])).any
      (fun s => s.jobs[0]?.any fun x =>
        x.events.filter JobEvent.isTerminal = [.completed "j" "q" 7]) = true := by
    decide
  obtain ⟨s, hs, hp⟩ := System.exists_of_runIf hrun
  obtain ⟨x, hx, hev⟩ := (Option.any_eq_true _ _).mp hp
  exact ⟨s, x, hs, hx, by simpa using hev, (one_terminal_event hs hx).1⟩

end SpooledSdk.Worker.Sync
