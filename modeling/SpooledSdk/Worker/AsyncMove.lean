/-
The life of one execution in a run of the asynchronous worker.

As for the synchronous worker, `Wf` is the structural invariant, `Move` lists everything a
step of the worker can do to one execution, and properties of every execution go through
one induction rule:

* `step_move`, `step_job` — a step leaves an execution alone or makes one move of it;
* `wf_of_reachable` — the structural invariant;
* `forall_jobs`, `forall_jobs_in`, `preserves_job` — the induction rules.
-/
import SpooledSdk.Worker.AsyncStep

namespace SpooledSdk.Worker.Async

variable {ρ : Type}

/-! ### Structure -/

/-- The jobs the result loop of `_poll` has yet to come to. -/
def MainPc.todo : MainPc → List ℕ
  | .jobs todo | .releaseWait _ todo | .releaseDone _ todo _ => todo
  | _ => []

/-- The job whose release is on the wire, or answered. -/
def MainPc.releaseSent : MainPc → Option ℕ
  | .releaseWait e _ | .releaseDone e _ _ => some e
  | _ => none

/-- The executions `stop()` has yet to abandon. -/
def StopPc.todo : StopPc → List ℕ
  | .abandon todo | .abandoning _ todo => todo
  | _ => []

/-- `stop()` has not begun to abandon executions. -/
def StopPc.early : StopPc → Bool
  | .idle | .inflight | .drain | .drainWait | .forceFail _ | .grace | .abandonStart => true
  | _ => false

/-- The job was never registered. -/
def ProcPc.unstarted : ProcPc ρ → Bool
  | .claimed | .unreleased | .releaseSent _ | .released => true
  | _ => false

/-- No task but the poll's has touched the execution. -/
structure ActiveJob.Blank (x : ActiveJob ρ) : Prop where
  stopper : x.stopper = .idle
  inner : x.inner = .none
  beat : x.beat = .none
  settled : x.settled = none
  leaseLost : x.leaseLost = false
  tracked : x.tracked = false
  replaced : x.replaced = false

/-- The structural invariant of the worker. -/
structure Wf (s : SpooledWorker ρ) : Prop where
  indexed : Indexed (fun x : ActiveJob ρ => x.job.id) ActiveJob.tracked s.jobs s.activeJobs
  blank : ∀ {e : ℕ} {x : ActiveJob ρ}, s.jobs[e]? = some x → x.proc.unstarted = true → x.Blank
  todo_nodup : s.main.todo.Nodup
  todo : ∀ {e : ℕ}, e ∈ s.main.todo → ∃ x, s.jobs[e]? = some x ∧ x.proc = .claimed
  releaseSent : ∀ {e : ℕ}, s.main.releaseSent = some e →
    ∃ x, s.jobs[e]? = some x ∧ ∃ w, x.proc = .releaseSent w
  stop_nodup : s.stop.todo.Nodup
  stop_todo : ∀ {e : ℕ}, e ∈ s.stop.todo →
    ∃ x, s.jobs[e]? = some x ∧ x.stopper = .idle ∧ x.proc.unstarted = false
  early : s.stop.early = true → ∀ {e : ℕ} {x : ActiveJob ρ}, s.jobs[e]? = some x →
    x.stopper = .idle

/-! ### Cancelling a task queues its wake-up -/

namespace ActiveJob

variable (x : ActiveJob ρ)

theorem cancelProc_eq : ∃ w, x.cancelProc.1 = { x with procWake := w } := by
  rw [cancelProc]
  split
  · exact ⟨_, rfl⟩
  · exact ⟨x.procWake, rfl⟩

theorem cancelInner_eq : ∃ w, x.cancelInner.1 = { x with innerWake := w } := by
  rw [cancelInner]
  split
  · exact ⟨_, rfl⟩
  · exact ⟨x.innerWake, rfl⟩

theorem cancelBeat_eq : ∃ w, x.cancelBeat.1 = { x with beatWake := w } := by
  rw [cancelBeat]
  split
  · exact ⟨_, rfl⟩
  · exact ⟨x.beatWake, rfl⟩

theorem forceFail_eq : ∃ w, x.forceFail.1 =
    { x with cancelReason := some shutdownTimeoutError, abortEvent := true, procWake := w } := by
  unfold forceFail
  split
  · exact ⟨x.procWake, rfl⟩
  · exact cancelProc_eq { x with cancelReason := some shutdownTimeoutError, abortEvent := true }

/-- `_cleanup_job` cancels the heartbeat and drops the entry. -/
theorem cleanupJob_eq : ∃ w, x.cleanupJob.1 = { x with tracked := false, beatWake := w } :=
  cancelBeat_eq { x with tracked := false }

end ActiveJob

/-! ### Moves -/

/-- What a step of the worker can do to execution `e`. -/
inductive Move (s : SpooledWorker ρ) (e : ℕ) (x : ActiveJob ρ) : Action ρ → ActiveJob ρ → Prop
  | next {a : JobAction ρ} {x' : ActiveJob ρ} {eff : Effect} (hp : s.permits e a = true)
      (h : ActiveJob.Next (s.view e x) x a x' eff) : Move s e x (.job e a) x'
  | registered {todo : List ℕ} (hm : s.main = .jobs (e :: todo)) (hi : s.intakeClosed = false)
      (ht : x.proc = .claimed) : Move s e x (.main .go)
      ({ x with proc := .created, procWake := some .start, tracked := true }.emit
        (.claimed x.job.id x.job.queueName))
  | displaced {e' : ℕ} {todo : List ℕ} {y : ActiveJob ρ} (hm : s.main = .jobs (e' :: todo))
      (hi : s.intakeClosed = false) (hy : s.jobs[e']? = some y)
      (he : s.activeJobs.get? y.job.id = some e) (ht : x.tracked = true) :
      Move s e x (.main .go) x.displace
  | unreleased {todo : List ℕ} (hm : s.main = .jobs (e :: todo)) (hi : s.intakeClosed = true)
      (hw : s.releaseId = none) (ht : x.proc = .claimed) :
      Move s e x (.main .go) { x with proc := .unreleased }
  | release {todo : List ℕ} {w : String} (hm : s.main = .jobs (e :: todo))
      (hi : s.intakeClosed = true) (hw : s.releaseId = some w) (ht : x.proc = .claimed) :
      Move s e x (.main .go)
      { x with
        proc := .releaseSent w
        calls := x.calls ++ [ackCall x.job w (.fail unstartedClaimError)] }
  | released {todo : List ℕ} {w : String} {ok : Bool} (hm : s.main = .releaseDone e todo ok)
      (ht : x.proc = .releaseSent w) : Move s e x (.main .go)
      ({ x with proc := .released }.emit
        (if ok then ackEvent x.job (.fail unstartedClaimError) else .error))
  | forced {todo : List ℕ} (hc : s.current = some .stop) (hs : s.stop = .forceFail (e :: todo)) :
      Move s e x (.stop .go) x.forceFail.1
  | begun {todo : List ℕ} (hc : s.current = some .stop) (hs : s.stop = .abandon (e :: todo))
      (ht : x.stopper = .idle) :
      Move s e x (.stop .go) { x with abortEvent := true, stopper := .settling }

section

variable {s s' : SpooledWorker ρ} {e : ℕ} {x x' : ActiveJob ρ} {a : Action ρ}

/-- A step leaves an execution alone, makes one move of it, or has just created it. -/
theorem step_move (hwf : Wf s) (h : s.step a = some s') (hx' : s'.jobs[e]? = some x') :
    (∃ x, s.jobs[e]? = some x ∧ (x' = x ∨ Move s e x a x')) ∨
      (s.jobs[e]? = none ∧ ∃ j, x' = { job := j }) := by
  -- a step that stores one execution makes the move of that one
  have hset : ∀ {i y y'}, s'.jobs = s.jobs.set i y' → s.jobs[i]? = some y → Move s i y a y' →
      ∃ x, s.jobs[e]? = some x ∧ (x' = x ∨ Move s e x a x') := by
    intro i y y' hj hi hmove
    rw [hj] at hx'
    rcases List.getElem?_set_cases hx' with ⟨rfl, rfl⟩ | ⟨-, hx⟩
    · exact ⟨y, hi, .inr hmove⟩
    · exact ⟨x', hx, .inl rfl⟩
  have hsame : s'.jobs = s.jobs → ∃ x, s.jobs[e]? = some x ∧ (x' = x ∨ Move s e x a x') :=
    fun hj => ⟨x', hj ▸ hx', .inl rfl⟩
  -- the loop has the first of its jobs as it was claimed
  have hclaimed : ∀ {i todo y}, s.main = .jobs (i :: todo) → s.jobs[i]? = some y →
      y.proc = .claimed := by
    intro i todo y hm hy
    obtain ⟨z, hz, ht⟩ := hwf.todo (e := i) (by rw [hm]; exact List.mem_cons_self)
    rw [hy, Option.some_inj] at hz
    exact hz ▸ ht
  cases a with
  | job i act =>
    obtain ⟨hp, y, y', eff, hy, hnext, rfl⟩ := SpooledWorker.job_of_step h
    exact .inl (hset rfl hy (.next hp hnext))
  | run =>
    obtain ⟨-, t, rest, -, rfl⟩ := SpooledWorker.run_of_step h
    exact .inl (hsame rfl)
  | stop act =>
    cases SpooledWorker.stop_of_step h with
    | @force i todo y hc hs hy => exact .inl (hset rfl hy (.forced hc hs))
    | @begin i todo y hc hs hy =>
      obtain ⟨z, hz, hi, -⟩ := hwf.stop_todo (e := i) (by rw [hs]; exact List.mem_cons_self)
      rw [hy, Option.some_inj] at hz
      subst hz
      exact .inl (hset rfl hy (.begun hc hs hi))
    | _ => exact .inl (hsame rfl)
  | main act =>
    cases SpooledWorker.main_of_step h with
    | @claimed n js hc hm =>
      rcases List.getElem?_append_cases hx' with hx | hx
      · exact .inl ⟨x', hx, .inl rfl⟩
      · exact .inr hx
    | @unreleased i todo y hc hm hy hi hw =>
      exact .inl (hset rfl hy (.unreleased hm hi hw (hclaimed hm hy)))
    | @release i todo y w hc hm hy hi hw =>
      exact .inl (hset rfl hy (.release hm hi hw (hclaimed hm hy)))
    | @enter i todo y hc hm hy hi =>
      refine .inl ?_
      rcases List.getElem?_set_cases hx' with ⟨rfl, rfl⟩ | ⟨-, hx⟩
      · exact ⟨y, hy, .inr (.registered hm hi (hclaimed hm hy))⟩
      · rw [Indexed.getElem?_displaced] at hx
        split at hx
        · rename_i he
          obtain ⟨z, hz, rfl⟩ := Option.map_eq_some_iff.mp hx
          obtain ⟨z', hz', -, hlive⟩ := hwf.indexed.row he
          rw [hz, Option.some_inj] at hz'
          subst hz'
          exact ⟨z, hz, .inr (.displaced hm hi hy he hlive)⟩
        · exact ⟨x', hx, .inl rfl⟩
    | @released i todo ok y hc hm hy =>
      obtain ⟨z, hz, w, ht⟩ := hwf.releaseSent (e := i) (by rw [hm]; rfl)
      rw [hy, Option.some_inj] at hz
      subst hz
      exact .inl (hset rfl hy (.released hm ht))
    | _ => exact .inl (hsame rfl)

end

/-! ### What a move of one task keeps -/

/-- The kind of task that makes a step, or is woken. -/
def JobAction.kind : JobAction ρ → Kind
  | .go k | .handler k _ | .wake k _ => k

/-- A step belongs to the current task; a wake-up comes between segments. -/
theorem current_of_permits {s : SpooledWorker ρ} {e : ℕ} {a : JobAction ρ}
    (h : s.permits e a = true) :
    s.current = some (a.kind.task e) ∨ (s.current = none ∧ ∃ k w, a = .wake k w) := by
  cases a with
  | go k => exact .inl (of_decide_eq_true h)
  | handler k o => exact .inl (of_decide_eq_true h)
  | wake k w => exact .inr ⟨of_decide_eq_true h, k, w, rfl⟩

/-- `stop()` is inside `_abandon_job` of the execution. -/
def AbandonPc.active : AbandonPc → Bool
  | .settling | .sending _ _ | .cleanup | .closing => true
  | _ => false

namespace ActiveJob

variable {v : View} {x x' y : ActiveJob ρ} {a : JobAction ρ} {eff : Effect}

/-- The task of this kind exists and is not done. -/
def acting (x : ActiveJob ρ) : Kind → Bool
  | .proc => x.proc.alive
  | .inner => x.inner.alive
  | .beat => x.beat.alive
  | .stop => x.stopper.active

/-- What a step of one task leaves alone, and when it changes what it may. -/
structure Frame (x : ActiveJob ρ) (a : JobAction ρ) (x' : ActiveJob ρ) (eff : Effect) : Prop where
  job : x'.job = x.job
  cancelReason : x'.cancelReason = x.cancelReason
  replaced : x'.replaced = x.replaced
  stays : eff.leave = false → x'.tracked = x.tracked
  leaves : eff.leave = true → x'.tracked = false
  acts : x.acting a.kind = true
  proc : x'.proc = x.proc ∨ (a.kind = .proc ∧ x'.proc ≠ .created ∧ x'.proc.unstarted = false)
  inner : x'.inner = x.inner ∨ a.kind = .inner ∨
    (x.proc = .created ∧ x'.proc ≠ .created ∧ x'.inner = .created)
  beat : x'.beat = x.beat ∨ a.kind = .beat ∨
    (x.proc = .created ∧ x'.proc ≠ .created ∧ x'.beat = .created)
  stopper : x'.stopper = x.stopper ∨ a.kind = .stop

/-- What a sender's step leaves alone. -/
structure SendStep.Same (x y : ActiveJob ρ) : Prop where
  job : y.job = x.job
  cancelReason : y.cancelReason = x.cancelReason
  replaced : y.replaced = x.replaced
  settled : y.settled = x.settled
  proc : y.proc = x.proc
  procWake : y.procWake = x.procWake
  inner : y.inner = x.inner
  innerWake : y.innerWake = x.innerWake
  beat : y.beat = x.beat
  beatWake : y.beatWake = x.beatWake
  stopper : y.stopper = x.stopper
  stopperWake : y.stopperWake = x.stopperWake
  tracked : y.tracked = x.tracked
  timedOut : y.timedOut = x.timedOut

theorem SendStep.same {k : Ack ρ} {w : String} {pc : SendPc} {r : Option Reply}
    {q : Option SendPc} (h : SendStep x k w pc r y q) : SendStep.Same x y := by
  cases h <;> exact ⟨rfl, rfl, rfl, rfl, rfl, rfl, rfl, rfl, rfl, rfl, rfl, rfl, rfl, rfl⟩

/-- Where `process_task` goes after the handler it never comes back from. -/
theorem later_afterCancel : x.afterCancel ≠ .created ∧ x.afterCancel.unstarted = false := by
  rw [afterCancel]
  split
  · exact ⟨nofun, rfl⟩
  · cases x.cancelReason <;> exact ⟨nofun, rfl⟩

theorem later_afterHandler (o : Outcome ρ) :
    x.afterHandler o ≠ .created ∧ (x.afterHandler o).unstarted = false := by
  unfold afterHandler
  split
  · exact later_afterCancel
  · cases o.ack <;> exact ⟨nofun, rfl⟩

theorem Next.frame (h : Next v x a x' eff) : Frame x a x' eff := by
  have hnext : ∀ {k : Ack ρ} {w : String} (q : Option SendPc),
      q.elim ProcPc.cleanup (.sending k w) ≠ .created ∧
        (q.elim ProcPc.cleanup (.sending k w)).unstarted = false := by
    intro k w q
    cases q <;> exact ⟨nofun, rfl⟩
  have halive : ∀ {pc : ProcPc ρ}, x.proc = pc → pc.alive = true → x.proc.alive = true :=
    fun h ha => h ▸ ha
  have hinner : ∀ {pc : InnerPc ρ}, x.inner = pc → pc.alive = true → x.inner.alive = true :=
    fun h ha => h ▸ ha
  have hbeat : ∀ {pc : BeatPc}, x.beat = pc → pc.alive = true → x.beat.alive = true :=
    fun h ha => h ▸ ha
  have hstop : ∀ {pc : AbandonPc}, x.stopper = pc → pc.active = true → x.stopper.active = true :=
    fun h ha => h ▸ ha
  cases h with
  | never h | denied h | granted h | cut h | closed h =>
    exact ⟨rfl, rfl, rfl, fun _ => rfl, nofun, halive h rfl, .inr ⟨rfl, nofun, rfl⟩, .inl rfl,
      .inl rfl, .inl rfl⟩
  | startInner h =>
    exact ⟨rfl, rfl, rfl, fun _ => rfl, nofun, halive h rfl, .inr ⟨rfl, nofun, rfl⟩,
      .inr (.inr ⟨h, nofun, rfl⟩), .inr (.inr ⟨h, nofun, rfl⟩), .inl rfl⟩
  | startDirect h =>
    exact ⟨rfl, rfl, rfl, fun _ => rfl, nofun, halive h rfl, .inr ⟨rfl, nofun, rfl⟩, .inl rfl,
      .inr (.inr ⟨h, nofun, rfl⟩), .inl rfl⟩
  | waitCancelled h =>
    obtain ⟨w, hw⟩ := cancelInner_eq { x with procWake := none }
    rw [hw]
    exact ⟨rfl, rfl, rfl, fun _ => rfl, nofun, halive h rfl, .inr ⟨rfl, later_afterCancel⟩,
      .inl rfl, .inl rfl, .inl rfl⟩
  | waitTimeout h =>
    obtain ⟨w, hw⟩ := cancelInner_eq { x with procWake := none }
    rw [hw]
    exact ⟨rfl, rfl, rfl, fun _ => rfl, nofun, halive h rfl, .inr ⟨rfl, nofun, rfl⟩, .inl rfl,
      .inl rfl, .inl rfl⟩
  | waitDone h | ends h =>
    exact ⟨rfl, rfl, rfl, fun _ => rfl, nofun, halive h rfl, .inr ⟨rfl, later_afterHandler _⟩,
      .inl rfl, .inl rfl, .inl rfl⟩
  | replied h _ hs | send h _ hs =>
    have hs := hs.same
    exact ⟨hs.job, hs.cancelReason, hs.replaced, fun _ => hs.tracked, nofun, halive h rfl,
      .inr ⟨rfl, hnext _⟩, .inl hs.inner, .inl hs.beat, .inl hs.stopper⟩
  | reported h =>
    obtain ⟨w, hw⟩ := cancelBeat_eq (x.reportLost (ackOperation _))
    rw [hw]
    exact ⟨rfl, rfl, rfl, fun _ => rfl, nofun, halive h rfl, .inr ⟨rfl, nofun, rfl⟩, .inl rfl,
      .inl rfl, .inl rfl⟩
  | cleanup h =>
    obtain ⟨w, hw⟩ := x.cleanupJob_eq
    rw [hw]
    refine ⟨rfl, rfl, rfl, nofun, fun _ => rfl, halive h rfl, .inr ⟨rfl, ?_⟩, .inl rfl,
      .inl rfl, .inl rfl⟩
    split <;> exact ⟨nofun, rfl⟩
  | awaits h =>
    exact ⟨rfl, rfl, rfl, fun _ => rfl, nofun, halive h rfl, .inl rfl, .inl rfl, .inl rfl, .inl rfl⟩
  | innerNever h | innerStart h | innerAwaits h | innerEnds h =>
    exact ⟨rfl, rfl, rfl, fun _ => rfl, nofun, hinner h rfl, .inl rfl, .inr (.inl rfl), .inl rfl,
      .inl rfl⟩
  | beatCancelled h =>
    have hact : x.beat.alive = true := by rcases h with h | h | ⟨w, h⟩ <;> exact hbeat h rfl
    exact ⟨rfl, rfl, rfl, fun _ => rfl, nofun, hact, .inl rfl, .inl rfl, .inr (.inl rfl), .inl rfl⟩
  | beatStart h | beatTimer h | beatOk h | beatExpired h | beatCrash h | beatError h
  | beatAlreadyLost h | beatLost h =>
    exact ⟨rfl, rfl, rfl, fun _ => rfl, nofun, hbeat h rfl, .inl rfl, .inl rfl, .inr (.inl rfl),
      .inl rfl⟩
  | beatReported h =>
    obtain ⟨w, hw⟩ := cancelProc_eq (x.reportLost "heartbeat")
    rw [hw]
    exact ⟨rfl, rfl, rfl, fun _ => rfl, nofun, hbeat h rfl, .inl rfl, .inl rfl, .inr (.inl rfl),
      .inl rfl⟩
  | stopDenied h | stopGranted h | stopClosed h =>
    exact ⟨rfl, rfl, rfl, fun _ => rfl, nofun, hstop h rfl, .inl rfl, .inl rfl, .inl rfl, .inr rfl⟩
  | stopReplied h _ hs | stopSend h _ hs =>
    have hs := hs.same
    exact ⟨hs.job, hs.cancelReason, hs.replaced, fun _ => hs.tracked, nofun, hstop h rfl,
      .inl hs.proc, .inl hs.inner, .inl hs.beat, .inr rfl⟩
  | stopReported h =>
    obtain ⟨w, hw⟩ := cancelBeat_eq (x.reportLost "fail")
    obtain ⟨w', hw'⟩ := cancelProc_eq (x.reportLost "fail").cancelBeat.1
    rw [hw', hw]
    exact ⟨rfl, rfl, rfl, fun _ => rfl, nofun, hstop h rfl, .inl rfl, .inl rfl, .inl rfl, .inr rfl⟩
  | stopCleanup h =>
    obtain ⟨w, hw⟩ := x.cleanupJob_eq
    rw [hw]
    exact ⟨rfl, rfl, rfl, nofun, fun _ => rfl, hstop h rfl, .inl rfl, .inl rfl, .inl rfl, .inr rfl⟩
  | woken h =>
    cases h with
    | reply h | timer h | inner h | beat h | user h =>
      exact ⟨rfl, rfl, rfl, fun _ => rfl, nofun, halive h rfl, .inl rfl, .inl rfl, .inl rfl, .inl rfl⟩
    | innerUser h =>
      exact ⟨rfl, rfl, rfl, fun _ => rfl, nofun, hinner h rfl, .inl rfl, .inl rfl, .inl rfl, .inl rfl⟩
    | beatTimer h | beatReply h =>
      exact ⟨rfl, rfl, rfl, fun _ => rfl, nofun, hbeat h rfl, .inl rfl, .inl rfl, .inl rfl, .inl rfl⟩
    | stopReply h | stopBeat h =>
      exact ⟨rfl, rfl, rfl, fun _ => rfl, nofun, hstop h rfl, .inl rfl, .inl rfl, .inl rfl,
        .inl rfl⟩

/-- An idle `stop()` moves only when `stop()` itself begins. -/
theorem Frame.idle (h : Frame x a x' eff) (hi : x.stopper = .idle) : x'.stopper = .idle := by
  rcases h.stopper with heq | hk
  · rw [heq, hi]
  · have hact := h.acts
    rw [hk, acting, hi] at hact
    cases hact

/-- Only the poll moves a job that was not registered. -/
theorem Frame.started (h : Frame x a x' eff) (hb : x.proc.unstarted = true → x.Blank) :
    x.proc.unstarted = false ∧ x'.proc.unstarted = false := by
  have hu : x.proc.unstarted = false := by
    by_contra hu
    have hu : x.proc.unstarted = true := by simpa using hu
    have hb := hb hu
    have hact := h.acts
    cases hk : a.kind <;> rw [hk] at hact
    · cases hp : x.proc <;> rw [hp] at hu <;> simp [acting, hp, ProcPc.alive, ProcPc.unstarted] at hact hu
    · simp [acting, hb.inner, InnerPc.alive] at hact
    · simp [acting, hb.beat, BeatPc.alive] at hact
    · simp [acting, hb.stopper, AbandonPc.active] at hact
  refine ⟨hu, ?_⟩
  rcases h.proc with heq | ⟨-, -, hu'⟩
  · rw [heq, hu]
  · exact hu'

end ActiveJob

/-! ### The structure is kept -/

section

variable {s s' : SpooledWorker ρ} {e : ℕ} {x x' : ActiveJob ρ} {a : Action ρ}

theorem Wf.init (o : Options) : Wf ({ options := o } : SpooledWorker ρ) where
  indexed := .nil
  blank h := by cases h
  todo_nodup := List.nodup_nil
  todo h := by cases h
  releaseSent h := by cases h
  stop_nodup := List.nodup_nil
  stop_todo h := by cases h
  early _ _ _ h := by cases h

/-- The worker stays well formed when it leaves the executions alone and moves on to a
place that expects no more of them. -/
private theorem Wf.goto (h : Wf s) (hj : s'.jobs = s.jobs) (hi : s'.activeJobs = s.activeJobs)
    (hn : s'.main.todo.Nodup) (ht : ∀ {i}, i ∈ s'.main.todo → i ∈ s.main.todo)
    (hr : ∀ {i}, s'.main.releaseSent = some i → s.main.releaseSent = some i)
    (hsn : s'.stop.todo.Nodup)
    (hst : ∀ {i}, i ∈ s'.stop.todo →
      ∃ x, s.jobs[i]? = some x ∧ x.stopper = .idle ∧ x.proc.unstarted = false)
    (he : s'.stop.early = true → s.stop.early = true) : Wf s' where
  indexed := by rw [hj, hi]; exact h.indexed
  blank := by rw [hj]; exact h.blank
  todo_nodup := hn
  todo hi := by rw [hj]; exact h.todo (ht hi)
  releaseSent hi := by rw [hj]; exact h.releaseSent (hr hi)
  stop_nodup := hsn
  stop_todo hi := by rw [hj]; exact hst hi
  early hn := by rw [hj]; exact h.early (he hn)

/-- What an update of execution `e` must do to what the poll and `stop()` expect. -/
private theorem Wf.update (h : Wf s) (hx : s.jobs[e]? = some x) (hj : s'.jobs = s.jobs.set e x')
    (hi : Indexed (fun y : ActiveJob ρ => y.job.id) ActiveJob.tracked s'.jobs s'.activeJobs)
    (hb : x'.proc.unstarted = true → x'.Blank)
    (hu : x.proc.unstarted = false → x'.proc.unstarted = false) (hn : s'.main.todo.Nodup)
    (ht : ∀ {i}, i ∈ s'.main.todo → i ≠ e ∧ i ∈ s.main.todo)
    (hr : ∀ {i}, s'.main.releaseSent = some i →
      (i = e ∧ ∃ w, x'.proc = .releaseSent w) ∨ (i ≠ e ∧ s.main.releaseSent = some i))
    (hsn : s'.stop.todo.Nodup)
    (hst : ∀ {i}, i ∈ s'.stop.todo → i ∈ s.stop.todo ∧ (i = e → x'.stopper = .idle))
    (he : s'.stop.early = true → s.stop.early = true ∧ x'.stopper = .idle) : Wf s' where
  indexed := hi
  blank {i y} hy := by
    rw [hj] at hy
    rcases List.getElem?_set_cases hy with ⟨-, rfl⟩ | ⟨-, hy⟩
    · exact hb
    · exact h.blank hy
  todo_nodup := hn
  todo hm := by
    rw [hj]
    exact List.exists_set (Q := fun y => y.proc = .claimed) h.todo hx (fun hi => .inr (ht hi)) hm
  releaseSent hm := by
    rw [hj]
    exact List.exists_set (Q := fun y => ∃ w, y.proc = .releaseSent w) h.releaseSent hx hr hm
  stop_nodup := hsn
  stop_todo {i} hm := by
    obtain ⟨hmem, hidle⟩ := hst hm
    obtain ⟨y, hy, hyi, hyu⟩ := h.stop_todo hmem
    rw [hj]
    by_cases hie : e = i
    · subst hie
      rw [hx, Option.some_inj] at hy
      subst hy
      exact ⟨x', List.getElem?_set_self (List.getElem?_eq_some_iff.mp hx).1, hidle rfl, hu hyu⟩
    · exact ⟨y, by rw [List.getElem?_set_ne hie, hy], hyi, hyu⟩
  early hn {i y} hy := by
    rw [hj] at hy
    obtain ⟨hearly, hidle⟩ := he hn
    rcases List.getElem?_set_cases hy with ⟨-, rfl⟩ | ⟨-, hy⟩
    · exact hidle
    · exact h.early hearly hy

/-- The poll expects nothing of an execution that it registered. -/
private theorem Wf.started (h : Wf s) (hx : s.jobs[e]? = some x) (hu : x.proc.unstarted = false) :
    (∀ {i}, i ∈ s.main.todo → i ≠ e) ∧ (∀ {i}, s.main.releaseSent = some i → i ≠ e) := by
  constructor
  · rintro i hi rfl
    obtain ⟨y, hy, ht⟩ := h.todo hi
    rw [hx, Option.some_inj] at hy
    rw [hy, ht] at hu
    cases hu
  · rintro i hi rfl
    obtain ⟨y, hy, w, ht⟩ := h.releaseSent hi
    rw [hx, Option.some_inj] at hy
    rw [hy, ht] at hu
    cases hu

private theorem Wf.job (h : Wf s) {a : JobAction ρ} {eff : Effect} (hx : s.jobs[e]? = some x)
    (hn : ActiveJob.Next (s.view e x) x a x' eff) : Wf (s.apply e x' eff) := by
  have hf := hn.frame
  obtain ⟨hu, hu'⟩ := hf.started (h.blank hx)
  obtain ⟨htodo, hsent⟩ := h.started hx hu
  have hi : Indexed (fun y : ActiveJob ρ => y.job.id) ActiveJob.tracked (s.apply e x' eff).jobs
      (s.apply e x' eff).activeJobs := by
    have hk : x'.job.id = x.job.id := by rw [hf.job]
    show Indexed _ _ (s.jobs.set e x') (if eff.leave then s.dropEntry e x' else s.activeJobs)
    cases hl : eff.leave with
    | true =>
      have := h.indexed.leave hx (hf.leaves hl)
      rw [if_pos rfl, SpooledWorker.dropEntry, hk]
      exact this
    | false => exact h.indexed.set hx hk (hf.stays hl)
  refine h.update hx rfl hi (fun hn => ?_) (fun _ => hu') h.todo_nodup
    (fun hi => ⟨htodo hi, hi⟩) (fun hi => .inr ⟨hsent hi, hi⟩) h.stop_nodup
    (fun {i} hi => ⟨hi, ?_⟩) (fun hn => ⟨hn, hf.idle (h.early hn hx)⟩)
  · rw [hu'] at hn
    cases hn
  · rintro rfl
    obtain ⟨y, hy, hidle, -⟩ := h.stop_todo hi
    rw [hx, Option.some_inj] at hy
    exact hf.idle (hy ▸ hidle)

private theorem Wf.stop (h : Wf s) {a : StopAction} (hstep : SpooledWorker.StopStep s a s') :
    Wf s' := by
  -- steps that leave the executions and the result loop alone
  have hgoto : ∀ {t : SpooledWorker ρ}, t.jobs = s.jobs → t.activeJobs = s.activeJobs →
      t.main = s.main → t.stop.todo = [] → (t.stop.early = true → s.stop.early = true) → Wf t := by
    intro t hj hi hm hs he
    refine h.goto hj hi (by rw [hm]; exact h.todo_nodup) (fun hi => by rwa [hm] at hi)
      (fun hi => by rwa [hm] at hi) (by rw [hs]; exact List.nodup_nil) (fun hi => ?_) he
    rw [hs] at hi
    cases hi
  cases hstep with
  | callInflight _ _ hs | call _ _ hs | wait _ hs | close _ hs | forced _ hs | forcedAll _ hs =>
    exact hgoto rfl rfl rfl rfl fun _ => by rw [hs]; rfl
  | ignored => exact h.goto rfl rfl h.todo_nodup id id h.stop_nodup h.stop_todo id
  | woken hc hs =>
    cases hpc : s.stop <;> rw [hpc] at hs <;> cases hs <;>
      exact hgoto rfl rfl rfl rfl fun _ => by first | (rw [hpc]; rfl) | contradiction
  | abandoned | abort | deregister | noWorker | finishing => exact hgoto rfl rfl rfl rfl nofun
  | @force e todo x hc hs hx =>
    obtain ⟨w, hw⟩ := x.forceFail_eq
    have hearly : s.stop.early = true := by rw [hs]; rfl
    have hjob : x.forceFail.1.job = x.job := by rw [hw]
    have hproc : x.forceFail.1.proc = x.proc := by rw [hw]
    have hset : ∀ {i} {Q : ActiveJob ρ → Prop}, (∃ y, s.jobs[i]? = some y ∧ Q y) →
        (Q x → Q x.forceFail.1) → ∃ y, (s.jobs.set e x.forceFail.1)[i]? = some y ∧ Q y :=
      fun hy hq => List.exists_set_mono hy hx hq
    refine ⟨h.indexed.set hx (by rw [hjob]) (by rw [hw]), fun {i y} hy hy' => ?_, h.todo_nodup,
      fun {i} hi => ?_, fun {i} hi => ?_, List.nodup_nil, nofun, fun _ {i y} hy => ?_⟩
    · rcases List.getElem?_set_cases hy with ⟨-, rfl⟩ | ⟨-, hy⟩
      · have hb := h.blank hx (by rwa [hproc] at hy')
        rw [hw]
        exact ⟨hb.stopper, hb.inner, hb.beat, hb.settled, hb.leaseLost, hb.tracked, hb.replaced⟩
      · exact h.blank hy hy'
    · exact hset (h.todo hi) hproc.trans
    · exact hset (h.releaseSent hi) fun ⟨w, ht⟩ => ⟨w, hproc.trans ht⟩
    · rcases List.getElem?_set_cases hy with ⟨-, rfl⟩ | ⟨-, hy⟩
      · rw [hw]
        show x.stopper = .idle
        exact h.early hearly hx
      · exact h.early hearly hy
  | snapshot hc hs =>
    refine h.goto rfl rfl h.todo_nodup id id h.indexed.nodup_values (fun {i} hi => ?_) nofun
    obtain ⟨k, hk⟩ := Dict.mem_values_iff.mp hi
    obtain ⟨y, hy, -, hlive⟩ := h.indexed.row hk
    refine ⟨y, hy, h.early (by rw [hs]; rfl) hy, ?_⟩
    by_contra hu
    rw [(h.blank hy (by simpa using hu)).tracked] at hlive
    cases hlive
  | ended hc hs =>
    have hn := h.stop_nodup
    have ht := fun {i} => h.stop_todo (e := i)
    rw [hs] at hn ht
    exact h.goto rfl rfl h.todo_nodup id id hn ht nofun
  | @begin e todo x hc hs hx =>
    have hn := h.stop_nodup
    rw [hs] at hn
    obtain ⟨hne, hn⟩ := List.nodup_cons.mp hn
    obtain ⟨y, hy, -, hu⟩ := h.stop_todo (e := e) (by rw [hs]; exact List.mem_cons_self)
    rw [hx, Option.some_inj] at hy
    subst hy
    obtain ⟨htodo, hsent⟩ := h.started hx hu
    refine h.update hx rfl (h.indexed.set hx rfl rfl) (fun hy => ?_) id h.todo_nodup
      (fun hi => ⟨htodo hi, hi⟩) (fun hi => .inr ⟨hsent hi, hi⟩) hn (fun {i} hi => ⟨?_, ?_⟩) nofun
    · rw [show x.proc.unstarted = true from hy] at hu
      cases hu
    · rw [hs]
      exact List.mem_cons_of_mem _ hi
    · rintro rfl
      exact absurd hi hne

/-- The first job of the result loop is claimed, and comes only once. -/
private theorem Wf.head {todo : List ℕ} (h : Wf s) (hm : s.main = .jobs (e :: todo))
    (hx : s.jobs[e]? = some x) : x.proc = .claimed ∧ e ∉ todo ∧ todo.Nodup := by
  have hn := h.todo_nodup
  rw [hm] at hn
  obtain ⟨hne, hn⟩ := List.nodup_cons.mp hn
  obtain ⟨y, hy, ht⟩ := h.todo (e := e) (by rw [hm]; exact List.mem_cons_self)
  rw [hx, Option.some_inj] at hy
  exact ⟨hy ▸ ht, hne, hn⟩

/-- Registration: execution `e` enters, the one that held the entry is displaced. -/
private theorem Wf.enter {todo : List ℕ} (h : Wf s) (hx : s.jobs[e]? = some x)
    (hm : s.main = .jobs (e :: todo)) : Wf { s.registerJob e x with main := .jobs todo } := by
  obtain ⟨ht, hne, hn⟩ := h.head hm hx
  have hb := h.blank hx (by rw [ht]; rfl)
  -- displacement changes neither the program counters nor the job
  have hkeep : ∀ {i : ℕ} {Q : ActiveJob ρ → Prop}, (∀ y, Q y → Q y.displace) → i ≠ e →
      (∃ y, s.jobs[i]? = some y ∧ Q y) → ∃ y, (s.registerJob e x).jobs[i]? = some y ∧ Q y := by
    rintro i Q hQ hie ⟨y, hy, hq⟩
    have : (s.registerJob e x).jobs[i]? = _ := List.getElem?_set_ne (Ne.symm hie)
    rw [this, Indexed.getElem?_displaced, hy]
    split
    · exact ⟨y.displace, rfl, hQ y hq⟩
    · exact ⟨y, rfl, hq⟩
  have hback : ∀ {i : ℕ} {y' : ActiveJob ρ}, (s.registerJob e x).jobs[i]? = some y' →
      (y'.proc = .created ∧ y'.stopper = x.stopper) ∨
        ∃ y, s.jobs[i]? = some y ∧ (y' = y ∨ (y.tracked = true ∧ y' = y.displace)) := by
    intro i y' hy'
    rcases List.getElem?_set_cases hy' with ⟨-, rfl⟩ | ⟨-, hy⟩
    · exact .inl ⟨rfl, rfl⟩
    · rw [Indexed.getElem?_displaced] at hy
      split at hy
      · rename_i he
        obtain ⟨y, hy₀, rfl⟩ := Option.map_eq_some_iff.mp hy
        obtain ⟨y₁, hy₁, -, hlive⟩ := h.indexed.row he
        rw [hy₀, Option.some_inj] at hy₁
        exact .inr ⟨y, hy₀, .inr ⟨hy₁ ▸ hlive, rfl⟩⟩
      · exact .inr ⟨y', hy, .inl rfl⟩
  refine ⟨h.indexed.enter hx hb.tracked rfl rfl fun _ => rfl, fun {i y} hy hu => ?_, hn,
    fun {i} hi => ?_, by rintro _ ⟨⟩, h.stop_nodup, fun {i} hi => ?_, fun he {i y} hy => ?_⟩
  · rcases hback hy with ⟨hc, -⟩ | ⟨y₀, hy₀, rfl | ⟨hlive, rfl⟩⟩
    · rw [hc] at hu
      cases hu
    · exact h.blank hy₀ hu
    · rw [(h.blank hy₀ hu).tracked] at hlive
      cases hlive
  · refine hkeep (Q := fun y => y.proc = .claimed) (fun _ => id) ?_
      (h.todo (by rw [hm]; exact List.mem_cons_of_mem _ hi))
    rintro rfl
    exact hne hi
  · refine hkeep (Q := fun y => y.stopper = .idle ∧ y.proc.unstarted = false) (fun _ => id) ?_
      (h.stop_todo hi)
    rintro rfl
    obtain ⟨y, hy, -, hu⟩ := h.stop_todo hi
    rw [hx, Option.some_inj] at hy
    rw [← hy, ht] at hu
    cases hu
  · rcases hback hy with ⟨-, hs⟩ | ⟨y₀, hy₀, rfl | ⟨-, rfl⟩⟩
    · exact hs.trans hb.stopper
    · exact h.early he hy₀
    · show y₀.stopper = .idle
      exact h.early he hy₀

private theorem Wf.main (h : Wf s) {a : MainAction} (hstep : SpooledWorker.MainStep s a s') :
    Wf s' := by
  -- steps that leave the executions alone and expect no job
  have hnil : ∀ {t : SpooledWorker ρ}, t.jobs = s.jobs → t.activeJobs = s.activeJobs →
      t.stop = s.stop → t.main.todo = [] → t.main.releaseSent = none → Wf t := by
    intro t hj hi hs ht hr
    refine h.goto hj hi (by rw [ht]; exact List.nodup_nil) (fun hi => ?_) (fun hi => ?_)
      (by rw [hs]; exact h.stop_nodup) (fun hi => h.stop_todo (by rwa [hs] at hi))
      (by rw [hs]; exact id)
    · rw [ht] at hi
      cases hi
    · rw [hr] at hi
      cases hi
  -- a job that is released is not registered, so `stop()` expects nothing of it
  have hstop : ∀ {i e : ℕ} {x : ActiveJob ρ}, s.jobs[e]? = some x → x.proc.unstarted = true →
      i ∈ s.stop.todo → i ≠ e := by
    rintro i e x hx hu hi rfl
    obtain ⟨y, hy, -, hn⟩ := h.stop_todo hi
    rw [hx, Option.some_inj] at hy
    rw [← hy, hu] at hn
    cases hn
  cases hstep with
  | start | answered | refused | register | registerFailed | skip | poll | send | claimFailed
  | last | finish | resume | woken | left => exact hnil rfl rfl rfl rfl rfl
  | leave _ _ _ hpc => rcases hpc with rfl | rfl <;> exact hnil rfl rfl rfl rfl rfl
  | @claimed n js hc hm =>
    have hfresh : ∀ y ∈ js.map (fun j => ({ job := j } : ActiveJob ρ)), y.tracked = false := by
      intro y hy
      obtain ⟨j, -, rfl⟩ := List.mem_map.mp hy
      rfl
    have hold : ∀ {i : ℕ} {y : ActiveJob ρ}, s.jobs[i]? = some y →
        (s.jobs ++ js.map fun j => ({ job := j } : ActiveJob ρ))[i]? = some y := by
      intro i y hy
      rw [List.getElem?_append_left (List.getElem?_eq_some_iff.mp hy).1, hy]
    refine ⟨h.indexed.append hfresh, fun {i y} hy hu => ?_, List.nodup_range', fun {i} hi => ?_,
      nofun, h.stop_nodup, fun {i} hi => ?_, fun he {i y} hy => ?_⟩
    · rcases List.getElem?_append_cases hy with hy | ⟨-, j, rfl⟩
      · exact h.blank hy hu
      · exact ⟨rfl, rfl, rfl, rfl, rfl, rfl, rfl⟩
    · obtain ⟨k, hk, rfl⟩ := List.mem_range'.mp hi
      exact ⟨{ job := js[k] }, by simp [hk], rfl⟩
    · obtain ⟨y, hy, hq⟩ := h.stop_todo hi
      exact ⟨y, hold hy, hq⟩
    · rcases List.getElem?_append_cases hy with hy | ⟨-, j, rfl⟩
      · exact h.early he hy
      · rfl
  | @unreleased e todo x hc hm hx hi hw =>
    obtain ⟨ht, hne, hn⟩ := h.head hm hx
    have hu : x.proc.unstarted = true := by rw [ht]; rfl
    have hb := h.blank hx hu
    refine h.update hx rfl (h.indexed.set hx rfl rfl) (fun _ => ?_) (by rw [hu]; exact nofun) hn
      (fun {i} hi => ⟨?_, ?_⟩) nofun h.stop_nodup
      (fun hi => ⟨hi, fun hie => absurd hie (hstop hx hu hi)⟩) (fun he => ⟨he, hb.stopper⟩)
    · exact ⟨hb.stopper, hb.inner, hb.beat, hb.settled, hb.leaseLost, hb.tracked, hb.replaced⟩
    · rintro rfl
      exact hne hi
    · rw [hm]
      exact List.mem_cons_of_mem _ hi
  | @release e todo x w hc hm hx hi hw =>
    obtain ⟨ht, hne, hn⟩ := h.head hm hx
    have hu : x.proc.unstarted = true := by rw [ht]; rfl
    have hb := h.blank hx hu
    refine h.update hx rfl (h.indexed.set hx rfl rfl) (fun _ => ?_) (by rw [hu]; exact nofun) hn
      (fun {i} hi => ⟨?_, ?_⟩) (fun {i} hi => .inl ⟨(Option.some_inj.mp hi).symm, w, rfl⟩)
      h.stop_nodup (fun hi => ⟨hi, fun hie => absurd hie (hstop hx hu hi)⟩)
      (fun he => ⟨he, hb.stopper⟩)
    · exact ⟨hb.stopper, hb.inner, hb.beat, hb.settled, hb.leaseLost, hb.tracked, hb.replaced⟩
    · rintro rfl
      exact hne hi
    · rw [hm]
      exact List.mem_cons_of_mem _ hi
  | enter hc hm hx hi => exact h.enter hx hm
  | @releaseReplied e todo ok hc hm =>
    have hn := h.todo_nodup
    rw [hm] at hn
    exact h.goto rfl rfl hn (fun hi => by rw [hm]; exact hi) (fun hi => by rw [hm]; exact hi)
      h.stop_nodup h.stop_todo id
  | @released e todo ok x hc hm hx =>
    obtain ⟨y, hy, w, ht⟩ := h.releaseSent (e := e) (by rw [hm]; rfl)
    rw [hx, Option.some_inj] at hy
    subst hy
    have hu : x.proc.unstarted = true := by rw [ht]; rfl
    have hb := h.blank hx hu
    have hn := h.todo_nodup
    rw [hm] at hn
    refine h.update hx rfl (h.indexed.set hx rfl rfl) (fun _ => ?_) (by rw [hu]; exact nofun) hn
      (fun {i} hi => ⟨?_, ?_⟩) nofun h.stop_nodup
      (fun hi => ⟨hi, fun hie => absurd hie (hstop hx hu hi)⟩) (fun he => ⟨he, hb.stopper⟩)
    · exact ⟨hb.stopper, hb.inner, hb.beat, hb.settled, hb.leaseLost, hb.tracked, hb.replaced⟩
    · rintro rfl
      obtain ⟨z, hz, hc⟩ := h.todo (e := i) (by rw [hm]; exact hi)
      rw [hx, Option.some_inj] at hz
      rw [← hz, ht] at hc
      cases hc
    · rw [hm]
      exact hi

/-- Every step keeps the structural invariant. -/
theorem Wf.step (h : Wf s) (hstep : s.step a = some s') : Wf s' := by
  cases a with
  | main act => exact h.main (SpooledWorker.main_of_step hstep)
  | stop act => exact h.stop (SpooledWorker.stop_of_step hstep)
  | job i act =>
    obtain ⟨-, y, y', eff, hy, hnext, rfl⟩ := SpooledWorker.job_of_step hstep
    exact h.job hy hnext
  | run =>
    obtain ⟨-, t, rest, -, rfl⟩ := SpooledWorker.run_of_step hstep
    exact h.goto rfl rfl h.todo_nodup id id h.stop_nodup h.stop_todo id

end

/-! ### Rules for runs -/

section

variable {s s' : SpooledWorker ρ} {e : ℕ} {x x' : ActiveJob ρ} {a : Action ρ} {o : Options}
  {ok : SpooledWorker ρ → Action ρ → Prop}

theorem wf_of_reachable (h : (system ρ o).Reachable ok s) : Wf s :=
  h.invariant (.init o) fun _ _ _ hwf _ hstep => hwf.step hstep

/-- Only the reply to a claim creates executions, and the result loop has them all to do. -/
theorem length_of_step (hstep : s.step a = some s') : s'.jobs.length = s.jobs.length ∨
    ∃ n js, s.main = .claimWait n ∧ a = .main (.claimed js) ∧
      s'.jobs = s.jobs ++ js.map (fun j => { job := j }) ∧
      s'.main = .jobs (List.range' s.jobs.length js.length) := by
  cases a with
  | main act =>
    cases SpooledWorker.main_of_step hstep with
    | claimed hc hm => exact .inr ⟨_, _, hm, rfl, rfl, rfl⟩
    | enter => exact .inl (by simp [SpooledWorker.registerJob, Indexed.length_displaced])
    | released => exact .inl (by simp [SpooledWorker.releaseReply, SpooledWorker.setJob])
    | _ => exact .inl (by simp [SpooledWorker.setJob, SpooledWorker.suspend, SpooledWorker.schedule])
  | stop act =>
    refine .inl ?_
    cases SpooledWorker.stop_of_step hstep <;> simp [SpooledWorker.setJob, SpooledWorker.suspend,
      SpooledWorker.schedule, SpooledWorker.closeIntake, SpooledWorker.apply]
  | job i act =>
    obtain ⟨-, y, y', eff, hy, hnext, rfl⟩ := SpooledWorker.job_of_step hstep
    exact .inl (by simp [SpooledWorker.apply, SpooledWorker.setJob])
  | run =>
    obtain ⟨-, t, rest, -, rfl⟩ := SpooledWorker.run_of_step hstep
    exact .inl rfl

/-- A step leaves an execution alone or makes one move of it. -/
theorem step_job (hwf : Wf s) (hstep : s.step a = some s') (hx : s.jobs[e]? = some x) :
    ∃ x', s'.jobs[e]? = some x' ∧ (x' = x ∨ Move s e x a x') := by
  have hlt := (List.getElem?_eq_some_iff.mp hx).1
  have hlt' : e < s'.jobs.length := by
    rcases length_of_step hstep with heq | ⟨_, js, _, _, hj, _⟩
    · omega
    · rw [hj, List.length_append]
      omega
  refine ⟨s'.jobs[e], List.getElem?_eq_getElem hlt', ?_⟩
  rcases step_move hwf hstep (List.getElem?_eq_getElem hlt') with ⟨y, hy, hmove⟩ | ⟨hnone, -⟩
  · rw [hx, Option.some_inj] at hy
    exact hy ▸ hmove
  · rw [hx] at hnone
    cases hnone

/-- **Invariant rule for executions.**  What a fresh execution has, what a step keeps that
leaves the execution alone and what every move keeps, every execution of a reachable worker
has. -/
theorem forall_jobs_in {P : SpooledWorker ρ → ℕ → ActiveJob ρ → Prop}
    (hfresh : ∀ {s a s' e j}, (system ρ o).Reachable ok s → s.step a = some s' →
      s.jobs[e]? = none → s'.jobs[e]? = some { job := j } → P s' e { job := j })
    (hsame : ∀ {s a s' e x}, (system ρ o).Reachable ok s → ok s a → s.step a = some s' →
      s.jobs[e]? = some x → s'.jobs[e]? = some x → P s e x → P s' e x)
    (hmove : ∀ {s a s' e x x'}, (system ρ o).Reachable ok s → ok s a → s.step a = some s' →
      s.jobs[e]? = some x → s'.jobs[e]? = some x' → P s e x → Move s e x a x' → P s' e x')
    (h : (system ρ o).Reachable ok s) (hx : s.jobs[e]? = some x) : P s e x := by
  have hall : ∀ (e : ℕ) (x : ActiveJob ρ), s.jobs[e]? = some x → P s e x := by
    refine h.invariant_of (I := (system ρ o).Reachable ok)
      (P := fun t => ∀ (e : ℕ) (x : ActiveJob ρ), t.jobs[e]? = some x → P t e x) (fun _ => id) ?_ ?_
    · intro e x hx
      cases hx
    · intro t a t' hr hP ha hstep e x' hx'
      rcases step_move (wf_of_reachable hr) hstep hx' with ⟨y, hy, rfl | hm⟩ | ⟨hnone, j, rfl⟩
      · exact hsame hr ha hstep hy hx' (hP e _ hy)
      · exact hmove hr ha hstep hy hx' (hP e y hy) hm
      · exact hfresh hr hstep hnone hx'
  exact hall e x hx

/-- The rule for a property of the execution alone. -/
theorem forall_jobs {P : ActiveJob ρ → Prop} (hfresh : ∀ j, P { job := j })
    (hmove : ∀ {s a s' e x x'}, (system ρ o).Reachable ok s → ok s a → s.step a = some s' →
      s.jobs[e]? = some x → s'.jobs[e]? = some x' → P x → Move s e x a x' → P x')
    (h : (system ρ o).Reachable ok s) (hx : s.jobs[e]? = some x) : P x :=
  forall_jobs_in (P := fun _ _ => P) (fun _ _ _ _ => hfresh _) (fun _ _ _ _ _ hP => hP) hmove h hx

/-- What every move of an execution keeps is kept for the rest of its life. -/
theorem preserves_job {P : ActiveJob ρ → Prop}
    (hmove : ∀ {t a t' x x'}, (system ρ o).Reachable ok t → ok t a → t.step a = some t' →
      t.jobs[e]? = some x → t'.jobs[e]? = some x' → P x → Move t e x a x' → P x')
    (h : (system ρ o).Reachable ok s) (h' : (system ρ o).Reaches ok s s')
    (hx : s.jobs[e]? = some x) (hP : P x) : ∃ x', s'.jobs[e]? = some x' ∧ P x' := by
  refine h.preserves_of (I := (system ρ o).Reachable ok)
    (P := fun t => ∃ y, t.jobs[e]? = some y ∧ P y) (fun _ => id) ?_ h' ⟨x, hx, hP⟩
  rintro t a t' hr ⟨y, hy, hPy⟩ ha hstep
  obtain ⟨y', hy', rfl | hm⟩ := step_job (wf_of_reachable hr) hstep hy
  · exact ⟨_, hy', hPy⟩
  · exact ⟨y', hy', hmove hr ha hstep hy hy' hPy hm⟩

end

end SpooledSdk.Worker.Async
