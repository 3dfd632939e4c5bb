/-
Shutdown of the synchronous worker: what `stop()` keeps and what it must not start.

* `unspoiled_of_reachable` — under `StartsFresh` a handler is called only for an
  execution that is neither settled nor lost;
* `stop_waits` — before the intake closes, `stop()` touches no execution;
* `own_outcome_of_reaches` — an execution whose thread reaches its settlement before
  the intake closes sends its own outcome;
* `stopped_for_good` — under `HeedsStop`, once a `stop()` has returned no claim is sent
  and the worker does not run again.
-/
import SpooledSdk.Worker.SyncSlots

namespace SpooledSdk.Worker.Sync

variable {ρ : Type}

/-- The job was handed to the executor and its handler was not called yet. -/
def ThreadPc.uncalled : ThreadPc ρ → Bool
  | .queued | .arming | .calling => true
  | _ => false

/-- `_abandon_job` has come to its settlement and was granted it. -/
def AbandonPc.asked : AbandonPc → Bool
  | .sending _ _ | .book | .over => true
  | _ => false

/-- The thread is past its `_claim_settlement`. -/
def ThreadPc.asked : ThreadPc ρ → Bool
  | .sending _ _ _ | .cleanup | .returned => true
  | _ => false

/-- Taker `t` is past its `_claim_settlement`, or will not come to it. -/
def ActiveJob.asked (x : ActiveJob ρ) : Taker → Bool
  | .runner => x.thread.asked
  | .timeout => x.timeout.asked
  | .stopper => x.stopper.asked
  | .poll => false

section

variable {s s' : SpooledWorker ρ} {e : ℕ} {x x' : ActiveJob ρ} {a : Action ρ} {o : Options}
  {ok : SpooledWorker ρ → Action ρ → Prop}

/-! ### Who has settled -/

private theorem asked_of_same {pc pc' : AbandonPc} (h : pc' = pc ∨ pc = .armed ∧ pc' = .over)
    (hpc : pc.asked = true) : pc'.asked = true := by
  rcases h with rfl | ⟨-, rfl⟩
  · exact hpc
  · rfl

private theorem asked_of_cancel (h : x.timeout.asked = true) :
    x.cancelTimers.timeout.asked = true :=
  asked_of_same
    (ActiveJob.SameTimers.of_cancel rfl rfl : ActiveJob.SameTimers x x.cancelTimers).timeout h

private theorem asked_of_abandon {v : View} {t : Taker} {reason : String} {pc pc' : AbandonPc}
    {r : Option Reply} {eff : Effect}
    (h : ActiveJob.AbandonStep v x t reason pc r x' pc' eff) (hpc : pc.asked = true) :
    pc'.asked = true := by
  cases h with
  | @send w pc r y q hs => cases q <;> rfl
  | denied | granted | book => rfl
  | fire | signal => cases hpc

theorem ActiveJob.Next.asked {v : View} {act : JobAction ρ} {eff : Effect} {t : Taker}
    (h : ActiveJob.Next v x act x' eff) (hf : x.Fresh) (hx : x.asked t = true) :
    x'.asked t = true := by
  -- of the three actors that may settle, a move of another at most cancels the timer
  have hkeep : (x.thread.asked = true → x'.thread.asked = true) →
      (x.timeout.asked = true → x'.timeout.asked = true) → x'.stopper = x.stopper →
      x'.asked t = true := by
    intro hth htm hst
    cases t with
    | runner => exact hth hx
    | timeout => exact htm hx
    | stopper => exact (congrArg AbandonPc.asked hst).trans hx
    | poll => cases hx
  cases h with
  | pickUp hq | call hq | denied hq | granted hq | ends hq =>
    exact hkeep (fun h => by rw [hq] at h; cases h) id rfl
  | arm hq =>
    have hidle : x.timeout = .idle := hf.timeout (by rw [hq]; rfl)
    refine hkeep (fun h => by rw [hq] at h; cases h) (fun h => by rw [hidle] at h; cases h) ?_
    show x.startJobTimeout.stopper = _
    rw [startJobTimeout]
    split <;> rfl
  | @send k w pc r y q hq hs =>
    exact hkeep (fun _ => by cases q <;> rfl) (asked_of_same hs.timers.timeout) hs.same.stopper
  | cleanup hq => exact hkeep (fun _ => rfl) asked_of_cancel rfl
  | @timeout r y pc' eff hs =>
    obtain ⟨hth, hst, -⟩ := hs.frame
    exact hkeep (fun h => (congrArg ThreadPc.asked hth).trans h) (asked_of_abandon hs) hst
  | @stopper r y pc' eff hs =>
    obtain ⟨hth, hst, -⟩ := hs.frame
    cases t with
    | runner => exact (congrArg ThreadPc.asked hth).trans hx
    | timeout => exact asked_of_same hs.timers.timeout hx
    | stopper => exact asked_of_abandon hs hx
    | poll => cases hx
  | beatLost => exact hkeep id asked_of_cancel rfl
  | _ => exact hkeep id id rfl

theorem Move.asked {t : Taker} (h : Move s e x a x') (hf : x.Fresh) (hx : x.asked t = true) :
    x'.asked t = true := by
  cases h with
  | next hn => exact hn.asked hf hx
  | held _ _ hq | registered _ _ hq | unreleased _ _ hq | release _ _ hq | released _ hq
  | scheduled _ hq | submitted _ _ hq =>
    cases t with
    | runner =>
      rw [ActiveJob.asked, hq] at hx
      cases hx
    | timeout => exact hx
    | stopper => exact hx
    | poll => cases hx
  | displaced => cases t <;> exact hx
  | refused _ hq =>
    cases t with
    | runner =>
      rw [ActiveJob.asked, hq] at hx
      cases hx
    | timeout => exact asked_of_cancel hx
    | stopper => exact hx
    | poll => cases hx
  | begun _ hq =>
    cases t with
    | stopper =>
      rw [ActiveJob.asked, hq] at hx
      cases hx
    | runner => exact hx
    | timeout => exact hx
    | poll => cases hx

/-- The step is a `_claim_settlement` that succeeds. -/
def ActiveJob.takesRight (v : View) (x : ActiveJob ρ) : JobAction ρ → Bool
  | .thread none => (x.thread matches .settling _) && (x.claimSettlement v).isSome
  | .timeout none => (x.timeout matches .settling) && (x.claimSettlement v).isSome
  | .stopper none => (x.stopper matches .settling) && (x.claimSettlement v).isSome
  | _ => false

theorem claimSettlement_isSome {v : View} {w : String} (h : ActiveJob.MayAck v x w) :
    (x.claimSettlement v).isSome = true := by
  rw [ActiveJob.claimSettlement, h.notLost, h.notSettled, h.entry, h.workerId]
  rfl

/-- The right to ack is taken by an actor that thereby passes its settlement. -/
theorem ActiveJob.Next.taken {v : View} {act : JobAction ρ} {eff : Effect}
    (h : ActiveJob.Next v x act x' eff) : x'.settled = x.settled ∨
      (x.takesRight v act = true ∧ ∃ t k, x'.settled = some (t, k) ∧ x'.asked t = true) := by
  cases h with
  | arm ht =>
    refine .inl ?_
    show x.startJobTimeout.settled = _
    rw [startJobTimeout]
    split <;> rfl
  | granted hq hm =>
    refine .inr ⟨?_, .runner, _, rfl, rfl⟩
    rw [takesRight, hq, claimSettlement_isSome hm]
    rfl
  | send _ hs => exact .inl hs.same.settled
  | @timeout r y pc' eff hs =>
    generalize hpc : x.timeout = pc at hs
    cases hs with
    | granted hm =>
      refine .inr ⟨?_, .timeout, _, rfl, rfl⟩
      rw [takesRight, hpc, claimSettlement_isSome hm]
      rfl
    | send hs => exact .inl hs.same.settled
    | _ => exact .inl rfl
  | @stopper r y pc' eff hs =>
    generalize hpc : x.stopper = pc at hs
    cases hs with
    | granted hm =>
      refine .inr ⟨?_, .stopper, _, rfl, rfl⟩
      rw [takesRight, hpc, claimSettlement_isSome hm]
      rfl
    | send hs => exact .inl hs.same.settled
    | _ => exact .inl rfl
  | _ => exact .inl rfl

/-- Whoever took the right to ack is past its settlement. -/
theorem asked_of_settled {t : Taker} {k : Ack ρ} (h : (system ρ o).Reachable ok s)
    (hx : s.jobs[e]? = some x) (hs : x.settled = some (t, k)) : x.asked t = true := by
  refine forall_jobs (P := fun x => ∀ t k, x.settled = some (t, k) → x.asked t = true) nofun ?_
    h hx t k hs
  intro s a s' e x x' hr _ _ hx _ hP hm t k hset
  have hold : x'.settled = x.settled → x'.asked t = true := fun heq =>
    hm.asked (fresh_of_reachable hr hx) (hP t k (heq ▸ hset))
  cases hm with
  | next hn =>
    rcases hn.taken with heq | ⟨-, t', k', hset', hasked⟩
    · exact hold heq
    · rw [hset, Option.some_inj, Prod.mk.injEq] at hset'
      exact hset'.1 ▸ hasked
  | _ => exact hold rfl

/-! ### Handlers that are started -/

/-- No handler that is about to be called loses its lease or its right to ack to another
actor first, and none that has lost it already is handed to the executor. -/
def StartsFresh (s : SpooledWorker ρ) : Action ρ → Bool
  | .job e act => s.jobs[e]?.all fun x =>
      !x.thread.uncalled || !(x.takesRight (s.view e x) act || (act matches .beat _) && x.beat = .lose)
  | .main .go =>
    match s.main with
    | .submit e _ => s.executor ≠ .up ||
        s.jobs[e]?.all fun x => x.settled.isNone && !x.leaseLost
    | _ => true
  | _ => true

/-- The step calls the user handler for execution `e`. -/
def Invokes (s : SpooledWorker ρ) (e : ℕ) (a : Action ρ) : Prop :=
  a = .job e (.thread none) ∧ ∃ x, s.jobs[e]? = some x ∧ x.thread = .calling

theorem ActiveJob.Next.uncalled {v : View} {act : JobAction ρ} {eff : Effect}
    (h : ActiveJob.Next v x act x' eff) (hu : x'.thread.uncalled = true) :
    x.thread.uncalled = true := by
  cases h with
  | pickUp hq | arm hq => rw [hq]; rfl
  | @ends out hq =>
    have hout : (out.ack.elim ThreadPc.cleanup ThreadPc.settling).uncalled = true := hu
    cases hack : out.ack <;> rw [hack] at hout <;> cases hout
  | @send _ _ _ _ _ pc' _ _ => cases pc' <;> cases hu
  | call | denied | granted | cleanup => cases hu
  | timeout hs | stopper hs => exact hs.frame.1 ▸ hu
  | _ => exact hu

/-- A lease is lost by the heartbeat, or by a sender, which holds the right to ack. -/
theorem ActiveJob.Next.lost {v : View} {act : JobAction ρ} {eff : Effect}
    (h : ActiveJob.Next v x act x' eff) (hn : ∀ t, x.sending t = none) :
    x'.leaseLost = x.leaseLost ∨ (∃ r, act = .beat r) ∧ x.beat = .lose := by
  have habandon : ∀ {t reason pc r y pc' eff}, AbandonStep v x t reason pc r y pc' eff →
      x.sending t = pc.sendingAck reason → y.leaseLost = x.leaseLost := by
    intro t reason pc r y pc' eff hs hp
    cases hs with
    | send hs =>
      rw [hn t] at hp
      cases hp
    | _ => rfl
  cases h with
  | arm ht =>
    refine .inl ?_
    show x.startJobTimeout.leaseLost = _
    rw [startJobTimeout]
    split <;> rfl
  | send ht hs =>
    have hp : x.thread.sendingAck = none := hn .runner
    rw [ht] at hp
    cases hp
  | @timeout r y pc' eff hs => exact .inl (habandon (y := y) hs rfl)
  | @stopper r y pc' eff hs => exact .inl (habandon (y := y) hs rfl)
  | beatLost hb => exact .inr ⟨⟨_, rfl⟩, hb⟩
  | _ => exact .inl rfl

/-- Under `StartsFresh` an execution whose handler was not called yet is neither settled nor
lost. -/
theorem unspoiled_of_reachable
    (h : (system ρ o).Reachable (fun s a => StartsFresh s a = true) s) (hx : s.jobs[e]? = some x)
    (hu : x.thread.uncalled = true) : x.settled = none ∧ x.leaseLost = false := by
  refine forall_jobs
    (P := fun x => x.thread.uncalled = true → x.settled = none ∧ x.leaseLost = false) nofun ?_
    h hx hu
  intro s a s' e x x' hr ha hstep hx hx' hP hm hu
  cases hm with
  | @next act x' eff hn =>
    have hu' := hn.uncalled hu
    obtain ⟨hset, hlost⟩ := hP hu'
    simp only [StartsFresh, hx, Option.all_some, hu', Bool.not_true, Bool.false_or,
      Bool.not_eq_true', Bool.or_eq_false_iff] at ha
    have hidle : ∀ t, x.sending t = none := by
      intro t
      refine (lease_sound hr hx).1.sending_none (t := t) ?_
      show x.right = none
      rw [ActiveJob.right_of_started, hset]
      cases ht : x.thread <;> rw [ht] at hu' <;> first | rfl | cases hu'
    constructor
    · rcases hn.taken with heq | ⟨ht, -⟩
      · rw [heq, hset]
      · rw [ht] at ha
        cases ha.1
    · rcases hn.lost hidle with heq | ⟨⟨r, rfl⟩, hb⟩
      · rw [heq, hlost]
      · rw [hb] at ha
        cases ha.2
  | submitted hm hup ht =>
    simpa [StartsFresh, hm, hup, hx] using ha
  | displaced => exact hP hu
  | begun => exact hP hu
  | _ => cases hu

/-! ### Results of the drain -/

/-- The step is one of `stop()`, its calls of `_abandon_job` included. -/
def Action.ofStop : Action ρ → Bool
  | .stop _ | .job _ (.stopper _) => true
  | _ => false

/-- The job timeout of the execution has elapsed. -/
def ActiveJob.timedOut (x : ActiveJob ρ) : Bool :=
  !(x.timeout matches .idle | .armed)

/-- Before the intake closes, `stop()` touches no execution. -/
theorem stop_waits (h : (system ρ o).Reachable ok s) (hopen : s.intakeClosed = false)
    (ha : a.ofStop = true) (hstep : s.step a = some s') : s'.jobs = s.jobs := by
  have hstop : s.stop.intakeOpen = true := by
    have := (life_of_reachable h).intake
    rw [hopen] at this
    simpa using this.symm
  cases a with
  | main act => cases ha
  | stop act =>
    cases SpooledWorker.stop_of_step hstep with
    | begin hs hy =>
      rw [hs] at hstop
      cases hstop
    | _ => rfl
  | job i act =>
    obtain ⟨y, y', eff, hy, hn, rfl⟩ := SpooledWorker.job_of_step hstep
    have hearly : s.stop.early = true := by
      cases hs : s.stop <;> rw [hs] at hstop <;> first | rfl | cases hstop
    have hidle := (wf_of_reachable h).early hearly hy
    cases hn with
    | stopper hs =>
      rw [hidle] at hs
      cases hs
    | _ => cases ha

/-- An execution leaves its entry when its thread cleans up or `_abandon_job` books it. -/
theorem ActiveJob.Next.booked {v : View} {act : JobAction ρ} {eff : Effect}
    (h : ActiveJob.Next v x act x' eff) :
    (x'.booked = x.booked ∧ (eff = .keep ∨ x'.thread.back = true)) ∨
      (x'.booked = true ∧ (x'.asked .timeout = true ∨ x'.asked .stopper = true)) := by
  cases h with
  | arm ht =>
    refine .inl ⟨?_, .inl rfl⟩
    show x.startJobTimeout.booked = _
    rw [startJobTimeout]
    split <;> rfl
  | send ht hs => exact .inl ⟨hs.same.booked, .inl rfl⟩
  | cleanup => exact .inl ⟨rfl, .inr rfl⟩
  | @timeout r y pc' eff hs =>
    generalize x.timeout = pc at hs
    cases hs with
    | send hs => exact .inl ⟨hs.same.booked, .inl rfl⟩
    | book => exact .inr ⟨rfl, .inl rfl⟩
    | _ => exact .inl ⟨rfl, .inl rfl⟩
  | @stopper r y pc' eff hs =>
    generalize x.stopper = pc at hs
    cases hs with
    | send hs => exact .inl ⟨hs.same.booked, .inl rfl⟩
    | book => exact .inr ⟨rfl, .inr rfl⟩
    | _ => exact .inl ⟨rfl, .inl rfl⟩
  | _ => exact .inl ⟨rfl, .inl rfl⟩

/-- Only the job timer and `stop()` give an execution up. -/
theorem asked_of_booked (h : (system ρ o).Reachable ok s) (hx : s.jobs[e]? = some x)
    (hb : x.booked = true) : x.asked .timeout = true ∨ x.asked .stopper = true := by
  refine forall_jobs (P := fun x => x.booked = true →
    x.asked .timeout = true ∨ x.asked .stopper = true) (fun _ => nofun) ?_ h hx hb
  intro s a s' e x x' hr _ _ hx _ hP hm hb
  have hold : x'.booked = x.booked → x'.asked .timeout = true ∨ x'.asked .stopper = true := by
    intro heq
    have hf := fresh_of_reachable hr hx
    exact (hP (heq ▸ hb)).imp (hm.asked hf) (hm.asked hf)
  cases hm with
  | next hn =>
    rcases hn.booked with ⟨heq, -⟩ | ⟨-, hasked⟩
    · exact hold heq
    · exact hasked
  | _ => exact hold rfl

/-- An execution whose thread is not back is the entry of its id, unless it was replaced or
given up. -/
theorem held_of_started (h : (system ρ o).Reachable ok s) (hx : s.jobs[e]? = some x)
    (hu : x.thread.unstarted = false) (hb : x.thread.back = false) :
    x.tracked = true ∨ x.replaced = true ∨ x.booked = true := by
  refine forall_jobs (P := fun x => x.thread.unstarted = false → x.thread.back = false →
    x.tracked = true ∨ x.replaced = true ∨ x.booked = true) (fun _ => nofun) ?_ h hx hu hb
  intro s a s' e x x' hr _ _ hx _ hP hm hu hb
  cases hm with
  | @next act x' eff hn =>
    have hu' := (hn.started ((wf_of_reachable hr).blank hx)).1
    have hb' : x.thread.back = false := by
      cases hn with
      | pickUp hq | arm hq | call hq | ends hq | denied hq | granted hq | send hq =>
        rw [hq]
        rfl
      | cleanup => cases hb
      | timeout hs | stopper hs => exact hs.frame.1 ▸ hb
      | _ => exact hb
    rcases hn.booked with ⟨heq, rfl | hback⟩ | ⟨hbk, -⟩
    · rw [hn.frame.stays rfl, hn.frame.replaced, heq]
      exact hP hu' hb'
    · rw [hb] at hback
      cases hback
    · exact .inr (.inr hbk)
  | held | unreleased | release | released => cases hu
  | registered => exact .inl rfl
  | displaced => exact .inr (.inl rfl)
  | refused => cases hb
  | scheduled _ hq | submitted _ _ hq => exact hP (by rw [hq]; rfl) (by rw [hq]; rfl)
  | begun => exact hP hu hb

/-- An ended handler waits for its thread to come to `_claim_settlement` with its outcome. -/
theorem settling_of_reaches {out : Outcome ρ} {k : Ack ρ} {s₀ : SpooledWorker ρ}
    (h : (system ρ o).Reachable ok s₀) (hok : ok s₀ (.job e (.handlerEnds out)))
    (hends : s₀.step (.job e (.handlerEnds out)) = some s) (hack : out.ack = some k)
    (h' : (system ρ o).Reaches ok s s') (hx' : s'.jobs[e]? = some x') :
    x'.thread = .settling k ∨ x'.thread.asked = true := by
  obtain ⟨y, y', eff, hy, hn, rfl⟩ := SpooledWorker.job_of_step hends
  have hr : (system ρ o).Reachable ok (s₀.apply e y' eff) := h.step hok hends
  have hy' : (s₀.apply e y' eff).jobs[e]? = some y' := by
    rw [apply_jobs, List.getElem?_set_self (List.getElem?_eq_some_iff.mp hy).1]
  have hthread : y'.thread = .settling k := by
    cases hn with
    | ends ht =>
      show out.ack.elim _ _ = _
      rw [hack]
      rfl
  have hmove : ∀ {t a x x'}, (system ρ o).Reachable ok t → t.jobs[e]? = some x →
      x.thread = .settling k ∨ x.thread.asked = true → Move t e x a x' →
      x'.thread = .settling k ∨ x'.thread.asked = true := by
    intro t a x x' hr hx hP hm
    rcases hP with hP | hP
    · cases hm with
      | next hn =>
        cases hn with
        | denied | granted => exact .inr rfl
        | timeout hs | stopper hs => exact .inl (hs.frame.1.trans hP)
        | pickUp hq | arm hq | call hq | ends hq | send hq | cleanup hq =>
          rw [hP] at hq
          cases hq
        | _ => exact .inl hP
      | held _ _ hq | registered _ _ hq | unreleased _ _ hq | release _ _ hq | released _ hq
      | scheduled _ hq | submitted _ _ hq | refused _ hq =>
        rw [hP] at hq
        cases hq
      | displaced => exact .inl hP
      | begun => exact .inl hP
    · exact .inr (hm.asked (t := .runner) (fresh_of_reachable hr hx) hP)
  obtain ⟨z, hz, hP⟩ := preserves_job (P := fun x => x.thread = .settling k ∨ x.thread.asked = true)
    (fun hr _ _ hx hP hm => hmove hr hx hP hm) hr h' hy' (.inl hthread)
  rw [hx', Option.some_inj] at hz
  exact hz ▸ hP

/-- The result of a handler that ends, and reports, before the intake closes is what the
worker sends: its job timeout has not elapsed, and it was neither lost nor replaced. -/
theorem own_outcome_of_reaches {out : Outcome ρ} {k : Ack ρ} {s₀ s₁ s₂ : SpooledWorker ρ}
    (h : (system ρ o).Reachable ok s₀) (hok : ok s₀ (.job e (.handlerEnds out)))
    (hends : s₀.step (.job e (.handlerEnds out)) = some s₁) (hack : out.ack = some k)
    (h₁ : (system ρ o).Reaches ok s₁ s) (hopen : s.intakeClosed = false)
    (hx : s.jobs[e]? = some x) (hat : x.thread.asked = false) (htime : x.timedOut = false)
    (hlost : x.leaseLost = false) (hrep : x.replaced = false)
    (hok' : ok s (.job e (.thread none)))
    (hstep : s.step (.job e (.thread none)) = some s') (h₂ : (system ρ o).Reaches ok s' s₂)
    (hx' : s₂.jobs[e]? = some x') :
    x'.settled = some (.runner, k) ∧
      (x'.calls = [] ∨ ∃ w, x'.calls = [ackCall x.job w k]) ∧
      (x'.calls = [] → x'.leaseLost = true ∨ ∃ w pc, x'.thread = .sending k w pc) := by
  have hr₁ : (system ρ o).Reachable ok s₁ := h.step hok hends
  have hr : (system ρ o).Reachable ok s := hr₁.trans h₁
  have hthread : x.thread = .settling k := by
    rcases settling_of_reaches h hok hends hack h₁ hx with ht | ht
    · exact ht
    · rw [hat] at ht
      cases ht
  -- before the intake closes nobody else can have settled it or given it up
  have hstopper : x.stopper = .idle := by
    refine (wf_of_reachable hr).early ?_ hx
    have := (life_of_reachable hr).intake
    rw [hopen] at this
    cases hs : s.stop <;> rw [hs] at this <;> first | rfl | cases this
  have htimer : x.asked .timeout = false := by
    cases ht : x.timeout <;> rw [ActiveJob.timedOut, ht] at htime <;> first
      | (rw [ActiveJob.asked, ht]; rfl)
      | cases htime
  have hst : x.asked .stopper = false := by rw [ActiveJob.asked, hstopper]; rfl
  have hfree : x.settled = none := by
    cases hset : x.settled with
    | none => rfl
    | some p =>
      have := asked_of_settled hr hx (t := p.1) (k := p.2) hset
      obtain ⟨t, _⟩ := p
      cases t with
      | runner =>
        rw [show x.asked .runner = false from hat] at this
        cases this
      | timeout => rw [htimer] at this; cases this
      | stopper => rw [hst] at this; cases this
      | poll => cases this
  have hentry : (s.view e x).entry = true := by
    rw [view_entry (wf_of_reachable hr) hx]
    rcases held_of_started hr hx (by rw [hthread]; rfl) (by rw [hthread]; rfl) with ht | ht | hb
    · exact ht
    · rw [hrep] at ht
      cases ht
    · rcases asked_of_booked hr hx hb with ha | ha
      · rw [htimer] at ha
        cases ha
      · rw [hst] at ha
        cases ha
  obtain ⟨w, hw⟩ : ∃ w, truthy s.workerId = some w := by
    refine (life_of_reachable hr).truthy_workerId hx ?_
    have := (life_of_reachable hr).intake
    rw [hopen] at this
    cases hs : s.stop <;> rw [hs] at this <;> first | rfl | cases this
  -- so its own thread takes the right to ack, for its own outcome
  obtain ⟨y, y', eff, hy, hn, rfl⟩ := SpooledWorker.job_of_step hstep
  rw [hx, Option.some_inj] at hy
  subst hy
  have hsettled : y'.settled = some (.runner, k) := by
    cases hn with
    | granted hq _ =>
      rw [hthread, ThreadPc.settling.injEq] at hq
      rw [hq]
      rfl
    | denied _ hc =>
      rw [ActiveJob.claimSettlement, hlost, hfree, hentry] at hc
      rw [show truthy (s.view e x).workerId = some w from hw] at hc
      cases hc
    | pickUp hq | arm hq | call hq | send hq | cleanup hq =>
      rw [hthread] at hq
      cases hq
  have hr' : (system ρ o).Reachable ok (s.apply e y' eff) := hr.step hok' hstep
  have hy' : (s.apply e y' eff).jobs[e]? = some y' := by
    rw [apply_jobs, List.getElem?_set_self (List.getElem?_eq_some_iff.mp hx).1]
  have hkeep : ∀ {t a z z'}, z.settled = some (.runner, k) → Move t e z a z' →
      z'.settled = some (.runner, k) := by
    intro t a z z' hz hm
    rcases hm.settled with heq | ⟨_, hmay⟩
    · rw [heq, hz]
    · rw [hmay.notSettled] at hz
      cases hz
  obtain ⟨z, hz, hset⟩ := preserves_job (P := fun z => z.settled = some (.runner, k))
    (fun _ _ _ _ hP hm => hkeep hP hm) hr' h₂ hy' hsettled
  obtain ⟨z', hz', hjob⟩ := job_of_reaches hr' h₂ hy'
  rw [hx', Option.some_inj] at hz hz'
  subst hz hz'
  have hr₂ : (system ρ o).Reachable ok s₂ := hr'.trans h₂
  have hf := (lease_sound hr₂ hx').1
  have hright : x'.lease.right = some (.runner, k) := by
    refine (ActiveJob.right_of_started ?_).trans hset
    by_contra hu
    rw [((wf_of_reachable hr₂).blank hx' (by simpa using hu)).settled] at hset
    cases hset
  refine ⟨hset, ?_, fun hnil => ?_⟩
  · rw [hn.frame.job] at hjob
    exact hjob ▸ hf.called hright
  · refine (hf.pending hright hnil).imp id ?_
    rintro ⟨w, pc, hp⟩
    refine ⟨w, pc, ?_⟩
    have hsend : x'.thread.sendingAck = some (k, w, pc) := hp
    cases ht : x'.thread <;> rw [ht] at hsend <;> cases hsend
    rfl

/-! ### After `stop()` has returned -/

/-- A `jobs.claim` request. -/
def Call.isClaim : Call → Bool
  | .claim .. => true
  | _ => false

/-- The poll loop has passed its locked check and not sent its claim yet. -/
def MainPc.aboutToClaim : MainPc → Bool
  | .claiming _ _ => true
  | _ => false

/-- A claim request may still be sent: the poll is about to make its call, or its call waits
and the HTTP layer may send the request again. -/
def SpooledWorker.mayClaim (s : SpooledWorker ρ) : Bool :=
  match s.main with
  | .claiming _ _ => true
  | .claimWait _ => s.resendsLeft ≠ 0
  | _ => false

/-- No `stop()` returns while `start()` is still registering, between the locked check of a
poll and its claim, or during a claim call that may send its request again. -/
def HeedsStop (s : SpooledWorker ρ) : Action ρ → Bool
  | .stop .callIgnored => s.state ≠ .starting && !s.mayClaim
  | .stop .go => s.stop ≠ .closing || !s.mayClaim
  | _ => true

/-- The worker is past `start()`, sends no claim and will neither poll nor run again. -/
structure Halted (s : SpooledWorker ρ) : Prop where
  state : s.state ≠ .idle ∧ s.state ≠ .starting ∧ s.state ≠ .running
  quiet : s.mayClaim = false

/-- The claims of two states are the same: the calls, and the requests sent for them. -/
structure SameClaims (s s' : SpooledWorker ρ) : Prop where
  calls : s'.log.filter Call.isClaim = s.log.filter Call.isClaim
  sends : s'.claimSends = s.claimSends

theorem SameClaims.trans {s₁ s₂ s₃ : SpooledWorker ρ} (h : SameClaims s₁ s₂)
    (h' : SameClaims s₂ s₃) : SameClaims s₁ s₃ :=
  ⟨h'.calls.trans h.calls, h'.sends.trans h.sends⟩

theorem Halted.step (h : Halted s) (hl : Life s) (hstep : s.step a = some s') :
    Halted s' ∧ SameClaims s s' := by
  cases a with
  | job i act =>
    obtain ⟨y, y', eff, hy, hn, rfl⟩ := SpooledWorker.job_of_step hstep
    refine ⟨⟨?_, ?_⟩, by rw [apply_log], apply_claimSends eff⟩
    · rw [apply_state]
      exact h.state
    · rw [SpooledWorker.mayClaim, apply_main, apply_resendsLeft]
      exact h.quiet
  | stop act =>
    cases SpooledWorker.stop_of_step hstep with
    | call hr => exact absurd hr h.state.2.2
    | finishing => exact ⟨⟨by simp, h.quiet⟩, rfl, rfl⟩
    | deregister => exact ⟨⟨h.state, h.quiet⟩, by simp [Call.isClaim], rfl⟩
    | _ => exact ⟨⟨h.state, h.quiet⟩, rfl, rfl⟩
  | main act =>
    have hquiet := h.quiet
    cases SpooledWorker.main_of_step hstep with
    | start _ hs => exact absurd hs h.state.1
    | register hm => exact absurd (hl.starting (.inl hm)) h.state.2.1
    | run hm => exact absurd (hl.starting (.inr hm)) h.state.2.1
    | registerFailed => exact ⟨⟨by simp, rfl⟩, rfl, rfl⟩
    | poll _ hs => exact absurd hs h.state.2.2
    -- the two steps that send a claim
    | claim hm =>
      rw [SpooledWorker.mayClaim, hm] at hquiet
      cases hquiet
    | resend hm hn =>
      rw [SpooledWorker.mayClaim, hm] at hquiet
      exact absurd hquiet (by simp [hn])
    | leave _ hpc =>
      refine ⟨⟨h.state, ?_⟩, rfl, rfl⟩
      rcases hpc with rfl | rfl <;> rfl
    | discard =>
      refine ⟨⟨?_, rfl⟩, ?_, apply_claimSends _⟩
      · show (s.apply ..).state ≠ _ ∧ (s.apply ..).state ≠ _ ∧ (s.apply ..).state ≠ _
        rw [apply_state]
        exact h.state
      · show (s.apply ..).log.filter _ = _
        rw [apply_log]
    | _ => exact ⟨⟨h.state, rfl⟩, rfl, rfl⟩

/-- Once `start()` was entered the worker is not idle. -/
theorem state_ne_idle (h : (system ρ o).Reachable ok s) (hm : s.main ≠ .idle) :
    s.state ≠ .idle := by
  refine h.invariant (P := fun s : SpooledWorker ρ => s.main ≠ .idle → s.state ≠ .idle)
    (fun hn => absurd rfl hn) ?_ hm
  intro s a s' hP _ hstep hm
  replace hstep : s.step a = some s' := hstep
  cases a with
  | job i act =>
    obtain ⟨y, y', eff, hy, hn, rfl⟩ := SpooledWorker.job_of_step hstep
    rw [apply_main] at hm
    rw [apply_state]
    exact hP hm
  | stop act =>
    cases SpooledWorker.stop_of_step hstep with
    | call | finishing => simp
    | _ => exact hP hm
  | main act =>
    cases SpooledWorker.main_of_step hstep with
    | start | registerFailed | run => simp
    | discard hm' =>
      show (s.apply ..).state ≠ _
      rw [apply_state]
      exact hP (by rw [hm']; simp)
    | register hm' | again hm' | leave hm' | skip hm' | poll hm' | claim hm' | claimed hm'
    | resend hm' | claimFailed hm' | done hm' | finish hm' | pause hm' | woken hm' | hold hm'
    | enter hm'
    | unreleased hm' | release hm' | released hm' | schedule hm' | noExecutor hm' | executor hm'
    | submit hm' | refuse hm' | exiting hm' | vanished hm' => exact hP (by rw [hm']; simp)

theorem halted_of_reachable (h : (system ρ o).Reachable (fun s a => HeedsStop s a = true) s)
    (hs : s.stopReturned = true) : Halted s := by
  refine h.invariant_of (I := (system ρ o).Reachable fun s a => HeedsStop s a = true)
    (P := fun s : SpooledWorker ρ => s.stopReturned = true → Halted s) (fun _ => id) nofun ?_ hs
  intro s a s' hr hP ha hstep hs'
  replace hstep : s.step a = some s' := hstep
  have hl := life_of_reachable hr
  by_cases hs : s.stopReturned = true
  · exact ((hP hs).step hl hstep).1
  -- the step is the return of a `stop()` call
  cases a with
  | job i act =>
    obtain ⟨y, y', eff, hy, hn, rfl⟩ := SpooledWorker.job_of_step hstep
    rw [apply_stopReturned] at hs'
    exact absurd hs' hs
  | main act =>
    cases SpooledWorker.main_of_step hstep with
    | discard =>
      exact absurd ((apply_stopReturned _).symm.trans hs') hs
    | _ => exact absurd hs' hs
  | stop act =>
    cases SpooledWorker.stop_of_step hstep with
    | ignored hrun hm =>
      simp only [HeedsStop, ne_eq, decide_not, Bool.and_eq_true, Bool.not_eq_true',
        decide_eq_false_iff_not] at ha
      have hne : s.state ≠ .idle := state_ne_idle hr hm
      exact ⟨⟨hne, ha.1, hrun⟩, ha.2⟩
    | closing hst =>
      have hstate : s.state = .stopped := by
        have := hl.stopping (by rw [hst]; simp)
        rw [hst] at this
        exact this
      have hquiet : s.mayClaim = false := by
        simpa [HeedsStop, hst] using ha
      refine ⟨?_, hquiet⟩
      show s.state ≠ _ ∧ s.state ≠ _ ∧ s.state ≠ _
      rw [hstate]
      simp
    | _ => exact absurd hs' hs

/-- Once a `stop()` has returned no claim is made or sent again, and the worker does not run
again. -/
theorem stopped_for_good (h : (system ρ o).Reachable (fun s a => HeedsStop s a = true) s)
    (hs : s.stopReturned = true)
    (h' : (system ρ o).Reaches (fun s a => HeedsStop s a = true) s s') :
    s'.state ≠ .running ∧ SameClaims s s' := by
  have hP : Halted s' ∧ SameClaims s s' := by
    refine h.preserves_of (I := fun t => Life t) (P := fun t => Halted t ∧ SameClaims s t)
      (fun _ => life_of_reachable) ?_ h' ⟨halted_of_reachable h hs, rfl, rfl⟩
    rintro t a t' hl ⟨hh, hsame⟩ _ hstep
    obtain ⟨hh', hsame'⟩ := hh.step hl hstep
    exact ⟨hh', hsame.trans hsame'⟩
  exact ⟨hP.1.state.2.2, hP.2⟩

end

end SpooledSdk.Worker.Sync
