/-
The life of one execution in a run of the synchronous worker.

`Wf` is the structural invariant of the worker: the index agrees with the executions,
the poll loop and `stop()` hold only jobs that no other actor has moved, and a job that
was not registered has no actor yet.  Above it,

* `Move s e x a x'` — everything a step of the worker can do to execution `e`;
* `step_move`, `step_fresh` — a step changes an execution by one move or not at all, and
  new executions are fresh;
* `forall_jobs` — the invariant rule for a property of every execution;
* `Move.lease`, `leaseSimulation` — executions refine the abstract lease.
-/
import SpooledSdk.Worker.Lease
import SpooledSdk.Worker.SyncStep

namespace SpooledSdk.Worker.Sync

variable {ρ : Type}

/-! ### Structure -/

/-- The jobs the result loop of `_poll` has yet to come to. -/
def MainPc.todo : MainPc → List ℕ
  | .jobs todo | .release _ todo | .releaseWait _ todo | .beat _ todo | .readExecutor _ todo
  | .submit _ todo | .discard _ todo => todo
  | _ => []

/-- The job that `_process_job` is about to release. -/
def MainPc.releasing : MainPc → Option ℕ
  | .release e _ => some e
  | _ => none

/-- The job whose release is on the wire. -/
def MainPc.releaseSent : MainPc → Option ℕ
  | .releaseWait e _ => some e
  | _ => none

/-- The job that `_process_job` has just registered. -/
def MainPc.entered : MainPc → Option ℕ
  | .beat e _ => some e
  | _ => none

/-- The registered job that `_process_job` is about to submit. -/
def MainPc.starting : MainPc → Option ℕ
  | .readExecutor e _ | .submit e _ | .discard e _ => some e
  | _ => none

/-- The executions `stop()` has yet to abandon. -/
def StopPc.todo : StopPc → List ℕ
  | .forceFail todo | .abandoning _ todo => todo
  | _ => []

/-- `stop()` has not taken its list of executions yet. -/
def StopPc.early : StopPc → Bool
  | .idle | .signal | .awaitPoll | .drain | .snapshot => true
  | _ => false

/-- The job was never registered. -/
def ThreadPc.unstarted : ThreadPc ρ → Bool
  | .claimed | .releasing | .unreleased | .releaseSent _ | .released => true
  | _ => false

/-- No actor but the poll loop has touched the execution. -/
structure ActiveJob.Blank (x : ActiveJob ρ) : Prop where
  timeout : x.timeout = .idle
  stopper : x.stopper = .idle
  beat : x.beat = .off
  settled : x.settled = none
  leaseLost : x.leaseLost = false
  tracked : x.tracked = false
  replaced : x.replaced = false
  abandoned : x.abandoned = false
  booked : x.booked = false

/-- The structural invariant of the worker. -/
structure Wf (s : SpooledWorker ρ) : Prop where
  indexed : Indexed (fun x : ActiveJob ρ => x.job.id) ActiveJob.tracked s.jobs s.activeJobs
  blank : ∀ {e : ℕ} {x : ActiveJob ρ}, s.jobs[e]? = some x → x.thread.unstarted = true → x.Blank
  todo_nodup : s.main.todo.Nodup
  todo : ∀ {e : ℕ}, e ∈ s.main.todo → ∃ x, s.jobs[e]? = some x ∧ x.thread = .claimed
  releasing : ∀ {e : ℕ}, s.main.releasing = some e →
    ∃ x, s.jobs[e]? = some x ∧ x.thread = .releasing
  releaseSent : ∀ {e : ℕ}, s.main.releaseSent = some e →
    ∃ x w, s.jobs[e]? = some x ∧ x.thread = .releaseSent w
  entered : ∀ {e : ℕ}, s.main.entered = some e →
    ∃ x, s.jobs[e]? = some x ∧ x.thread = .registered
  starting : ∀ {e : ℕ}, s.main.starting = some e →
    ∃ x, s.jobs[e]? = some x ∧ x.thread = .scheduled
  stop_nodup : s.stop.todo.Nodup
  stop_todo : ∀ {e : ℕ}, e ∈ s.stop.todo →
    ∃ x, s.jobs[e]? = some x ∧ x.stopper = .idle ∧ x.thread.unstarted = false
  early : s.stop.early = true → ∀ {e : ℕ} {x : ActiveJob ρ}, s.jobs[e]? = some x →
    x.stopper = .idle

/-! ### Moves -/

/-- What a step of the worker can do to execution `e`. -/
inductive Move (s : SpooledWorker ρ) (e : ℕ) (x : ActiveJob ρ) : Action ρ → ActiveJob ρ → Prop
  | next {a : JobAction ρ} {x' : ActiveJob ρ} {eff : Effect}
      (h : ActiveJob.Next (s.view e x) x a x' eff) : Move s e x (.job e a) x'
  | held {todo : List ℕ} (hm : s.main = .jobs (e :: todo)) (hi : s.intakeClosed = true)
      (ht : x.thread = .claimed) : Move s e x (.main .go) { x with thread := .releasing }
  | registered {todo : List ℕ} (hm : s.main = .jobs (e :: todo)) (hi : s.intakeClosed = false)
      (ht : x.thread = .claimed) :
      Move s e x (.main .go) { x with thread := .registered, tracked := true }
  | displaced {e' : ℕ} {todo : List ℕ} {y : ActiveJob ρ} (hm : s.main = .jobs (e' :: todo))
      (hi : s.intakeClosed = false) (hy : s.jobs[e']? = some y)
      (he : s.activeJobs.get? y.job.id = some e) (ht : x.tracked = true) :
      Move s e x (.main .go) x.displace
  | unreleased {todo : List ℕ} (hm : s.main = .release e todo) (hw : s.releaseId = none)
      (ht : x.thread = .releasing) : Move s e x (.main .go) { x with thread := .unreleased }
  | release {todo : List ℕ} {w : String} (hm : s.main = .release e todo)
      (hw : s.releaseId = some w) (ht : x.thread = .releasing) : Move s e x (.main .go)
      { x with
        thread := .releaseSent w
        calls := x.calls ++ [ackCall x.job w (.fail unstartedClaimError)] }
  | released {todo : List ℕ} {w : String} {ok : Bool} (hm : s.main = .releaseWait e todo)
      (ht : x.thread = .releaseSent w) : Move s e x (.main (.releaseReply ok))
      ({ x with thread := .released }.emit
        (if ok then ackEvent x.job (.fail unstartedClaimError) else .error))
  | scheduled {todo : List ℕ} (hm : s.main = .beat e todo) (ht : x.thread = .registered) :
      Move s e x (.main .go) (s.scheduleJobHeartbeat e x)
  | submitted {todo : List ℕ} (hm : s.main = .submit e todo) (hu : s.executor = .up)
      (ht : x.thread = .scheduled) : Move s e x (.main .go) { x with thread := .queued }
  | refused {todo : List ℕ} (hm : s.main = .discard e todo) (ht : x.thread = .scheduled) :
      Move s e x (.main .go) (x.cleanupJob .refused).1
  | begun {todo : List ℕ} (hs : s.stop = .forceFail (e :: todo)) (ht : x.stopper = .idle) :
      Move s e x (.stop .go) { x with stopper := .signal }

section

variable {s s' : SpooledWorker ρ} {e : ℕ} {x x' : ActiveJob ρ} {a : Action ρ}

@[simp] theorem apply_jobs (eff : Effect) : (s.apply e x eff).jobs = s.jobs.set e x := by
  cases eff <;> rfl

@[simp] theorem apply_main (eff : Effect) : (s.apply e x eff).main = s.main := by
  cases eff <;> rfl

@[simp] theorem apply_stop (eff : Effect) : (s.apply e x eff).stop = s.stop := by
  cases eff <;> rfl

@[simp] theorem apply_state (eff : Effect) : (s.apply e x eff).state = s.state := by
  cases eff <;> rfl

@[simp] theorem apply_intakeClosed (eff : Effect) : (s.apply e x eff).intakeClosed = s.intakeClosed := by
  cases eff <;> rfl

@[simp] theorem apply_workerId (eff : Effect) : (s.apply e x eff).workerId = s.workerId := by
  cases eff <;> rfl

@[simp] theorem apply_registeredWorkerId (eff : Effect) : (s.apply e x eff).registeredWorkerId = s.registeredWorkerId := by
  cases eff <;> rfl

@[simp] theorem apply_executor (eff : Effect) : (s.apply e x eff).executor = s.executor := by
  cases eff <;> rfl

@[simp] theorem apply_options (eff : Effect) : (s.apply e x eff).options = s.options := by
  cases eff <;> rfl

@[simp] theorem apply_log (eff : Effect) : (s.apply e x eff).log = s.log := by
  cases eff <;> rfl

@[simp] theorem apply_stopReturned (eff : Effect) : (s.apply e x eff).stopReturned = s.stopReturned := by
  cases eff <;> rfl

@[simp] theorem apply_claimSends (eff : Effect) : (s.apply e x eff).claimSends = s.claimSends := by
  cases eff <;> rfl

@[simp] theorem apply_resendsLeft (eff : Effect) :
    (s.apply e x eff).resendsLeft = s.resendsLeft := by
  cases eff <;> rfl

/-- A step leaves an execution alone, makes one move of it, or has just created it. -/
theorem step_move (hwf : Wf s) (h : s.step a = some s') (hx' : s'.jobs[e]? = some x') :
    (∃ x, s.jobs[e]? = some x ∧ (x' = x ∨ Move s e x a x')) ∨
      (s.jobs[e]? = none ∧ ∃ j, x' = { job := j }) := by
  -- a step that stores one execution makes the move of that one
  have hset : ∀ {i y y'}, s'.jobs = s.jobs.set i y' → s.jobs[i]? = some y → Move s i y a y' →
      ∃ x, s.jobs[e]? = some x ∧ (x' = x ∨ Move s e x a x') := by
    intro i y y' hj hi hmove
    rw [hj] at hx'
    rcases List.getElem?_set_cases hx' with ⟨rfl, rfl⟩ | ⟨-, hx⟩
    · exact ⟨y, hi, .inr hmove⟩
    · exact ⟨x', hx, .inl rfl⟩
  have hsame : s'.jobs = s.jobs → ∃ x, s.jobs[e]? = some x ∧ (x' = x ∨ Move s e x a x') :=
    fun hj => ⟨x', hj ▸ hx', .inl rfl⟩
  cases a with
  | job i act =>
    obtain ⟨y, y', eff, hy, hnext, rfl⟩ := SpooledWorker.job_of_step h
    exact .inl (hset (apply_jobs eff) hy (.next hnext))
  | stop act =>
    cases SpooledWorker.stop_of_step h with
    | @begin i todo y hs hy =>
      obtain ⟨z, hz, hi, -⟩ := hwf.stop_todo (e := i) (by rw [hs]; exact List.mem_cons_self)
      rw [hy, Option.some_inj] at hz
      subst hz
      exact .inl (hset rfl hy (.begun hs hi))
    | _ => exact .inl (hsame rfl)
  | main act =>
    cases SpooledWorker.main_of_step h with
    | @claimed n js hm =>
      rcases List.getElem?_append_cases hx' with hx | hx
      · exact .inl ⟨x', hx, .inl rfl⟩
      · exact .inr hx
    | @hold i todo y hm hy hi =>
      obtain ⟨z, hz, ht⟩ := hwf.todo (e := i) (by rw [hm]; exact List.mem_cons_self)
      rw [hy, Option.some_inj] at hz
      subst hz
      exact .inl (hset rfl hy (.held hm hi ht))
    | @enter i todo y hm hy hi =>
      obtain ⟨z, hz, ht⟩ := hwf.todo (e := i) (by rw [hm]; exact List.mem_cons_self)
      rw [hy, Option.some_inj] at hz
      subst hz
      refine .inl ?_
      rcases List.getElem?_set_cases hx' with ⟨rfl, rfl⟩ | ⟨-, hx⟩
      · exact ⟨y, hy, .inr (.registered hm hi ht)⟩
      · rw [Indexed.getElem?_displaced] at hx
        split at hx
        · rename_i he
          obtain ⟨z, hz, rfl⟩ := Option.map_eq_some_iff.mp hx
          obtain ⟨z', hz', -, hlive⟩ := hwf.indexed.row he
          rw [hz, Option.some_inj] at hz'
          subst hz'
          exact ⟨z, hz, .inr (.displaced hm hi hy he hlive)⟩
        · exact ⟨x', hx, .inl rfl⟩
    | @unreleased i todo y hm hy hw =>
      obtain ⟨z, hz, ht⟩ := hwf.releasing (e := i) (by rw [hm]; rfl)
      rw [hy, Option.some_inj] at hz
      subst hz
      exact .inl (hset rfl hy (.unreleased hm hw ht))
    | @release i todo y w hm hy hw =>
      obtain ⟨z, hz, ht⟩ := hwf.releasing (e := i) (by rw [hm]; rfl)
      rw [hy, Option.some_inj] at hz
      subst hz
      exact .inl (hset rfl hy (.release hm hw ht))
    | @released i todo y ok hm hy =>
      obtain ⟨z, w, hz, ht⟩ := hwf.releaseSent (e := i) (by rw [hm]; rfl)
      rw [hy, Option.some_inj] at hz
      subst hz
      exact .inl (hset rfl hy (.released hm ht))
    | @schedule i todo y hm hy =>
      obtain ⟨z, hz, ht⟩ := hwf.entered (e := i) (by rw [hm]; rfl)
      rw [hy, Option.some_inj] at hz
      subst hz
      exact .inl (hset rfl hy (.scheduled hm ht))
    | @submit i todo y hm hy hu =>
      obtain ⟨z, hz, ht⟩ := hwf.starting (e := i) (by rw [hm]; rfl)
      rw [hy, Option.some_inj] at hz
      subst hz
      exact .inl (hset rfl hy (.submitted hm hu ht))
    | @discard i todo y hm hy =>
      obtain ⟨z, hz, ht⟩ := hwf.starting (e := i) (by rw [hm]; rfl)
      rw [hy, Option.some_inj] at hz
      subst hz
      exact .inl (hset (apply_jobs _) hy (.refused hm ht))
    | _ => exact .inl (hsame rfl)

end

/-! ### The structure is kept -/

/-- Only the poll loop moves a job that was not registered. -/
theorem ActiveJob.Next.started {v : View} {x x' : ActiveJob ρ} {a : JobAction ρ} {eff : Effect}
    (h : ActiveJob.Next v x a x' eff) (hb : x.thread.unstarted = true → x.Blank) :
    x.thread.unstarted = false ∧ x'.thread.unstarted = false := by
  -- timers and `stop()` find no program counter to move, and the thread is not theirs
  have hother : x'.thread = x.thread → (x.thread.unstarted = true → False) →
      x.thread.unstarted = false ∧ x'.thread.unstarted = false := by
    intro ht hn
    rw [ht]
    exact ⟨by simpa using hn, by simpa using hn⟩
  cases h with
  | pickUp ht | arm ht | call ht | denied ht | granted ht | cleanup ht =>
    exact ⟨by rw [ht]; rfl, rfl⟩
  | @ends o ht =>
    refine ⟨by rw [ht]; rfl, ?_⟩
    cases o.ack <;> rfl
  | @send _ _ _ _ _ pc' ht _ =>
    refine ⟨by rw [ht]; rfl, ?_⟩
    cases pc' <;> rfl
  | timeout hs =>
    refine hother hs.frame.1 fun hu => ?_
    rw [(hb hu).timeout] at hs
    cases hs
  | stopper hs =>
    refine hother hs.frame.1 fun hu => ?_
    rw [(hb hu).stopper] at hs
    cases hs
  | beatFire hbeat | beatCheck hbeat | beatSend hbeat | beatOk hbeat | beatExpired hbeat
  | beatCrash hbeat | beatError hbeat | beatAlreadyLost hbeat | beatLost hbeat
  | beatReported hbeat | beatRearm hbeat =>
    refine hother rfl fun hu => ?_
    rw [(hb hu).beat] at hbeat
    cases hbeat

section

variable {s s' : SpooledWorker ρ} {e : ℕ} {x x' : ActiveJob ρ} {a : Action ρ}

/-- The worker stays well formed when it leaves the executions alone and moves on to a
place that expects less of them. -/
private theorem Wf.goto (h : Wf s) (hj : s'.jobs = s.jobs) (hi : s'.activeJobs = s.activeJobs)
    (hs : s'.stop = s.stop) (hn : s'.main.todo.Nodup) (ht : ∀ i ∈ s'.main.todo, i ∈ s.main.todo)
    (hr : s'.main.releasing = none) (hrs : s'.main.releaseSent = none)
    (hen : s'.main.entered = none) (hst : ∀ i, s'.main.starting = some i → s.main.starting = some i) : Wf s' where
  indexed := by rw [hj, hi]; exact h.indexed
  blank := by rw [hj]; exact h.blank
  todo_nodup := hn
  todo hi := by rw [hj]; exact h.todo (ht _ hi)
  releasing hi := by rw [hr] at hi; cases hi
  releaseSent hi := by rw [hrs] at hi; cases hi
  entered hi := by rw [hen] at hi; cases hi
  starting hi := by rw [hj]; exact h.starting (hst _ hi)
  stop_nodup := by rw [hs]; exact h.stop_nodup
  stop_todo := by rw [hs, hj]; exact h.stop_todo
  early := by rw [hs, hj]; exact h.early

/-- The worker stays well formed when `stop()` moves on, to a shorter list or out of its
early part. -/
private theorem Wf.stopGoto (h : Wf s) (hj : s'.jobs = s.jobs) (hi : s'.activeJobs = s.activeJobs)
    (hm : s'.main = s.main) (hn : s'.stop.todo.Nodup)
    (ht : ∀ i ∈ s'.stop.todo,
      ∃ x, s.jobs[i]? = some x ∧ x.stopper = .idle ∧ x.thread.unstarted = false)
    (he : s'.stop.early = true → s.stop.early = true) : Wf s' where
  indexed := by rw [hj, hi]; exact h.indexed
  blank := by rw [hj]; exact h.blank
  todo_nodup := by rw [hm]; exact h.todo_nodup
  todo := by rw [hm, hj]; exact h.todo
  releasing := by rw [hm, hj]; exact h.releasing
  releaseSent := by rw [hm, hj]; exact h.releaseSent
  entered := by rw [hm, hj]; exact h.entered
  starting := by rw [hm, hj]; exact h.starting
  stop_nodup := hn
  stop_todo hi := by rw [hj]; exact ht _ hi
  early hn := by rw [hj]; exact h.early (he hn)

/-- Nobody stands at an execution that is not there. -/
private theorem of_none {i : ℕ} {P : Prop} (h : (none : Option ℕ) = some i) : P := by
  cases h

/-- What an update of execution `e` must do to the expectations of the poll loop. -/
private theorem Wf.update (h : Wf s) (hx : s.jobs[e]? = some x)
    (hj : s'.jobs = s.jobs.set e x')
    (hi : Indexed (fun y : ActiveJob ρ => y.job.id) ActiveJob.tracked s'.jobs s'.activeJobs)
    (hb : x'.thread.unstarted = true → x'.Blank) (hstop : s'.stop = s.stop)
    (hstopper : x.stopper = .idle → x'.stopper = .idle)
    (hu : x.thread.unstarted = false → x'.thread.unstarted = false) (hn : s'.main.todo.Nodup)
    (ht : ∀ {i}, i ∈ s'.main.todo → (i = e ∧ x'.thread = .claimed) ∨ (i ≠ e ∧ i ∈ s.main.todo))
    (hr : ∀ {i}, s'.main.releasing = some i →
      (i = e ∧ x'.thread = .releasing) ∨ (i ≠ e ∧ s.main.releasing = some i))
    (hrs : ∀ {i}, s'.main.releaseSent = some i →
      (i = e ∧ ∃ w, x'.thread = .releaseSent w) ∨ (i ≠ e ∧ s.main.releaseSent = some i))
    (hen : ∀ {i}, s'.main.entered = some i →
      (i = e ∧ x'.thread = .registered) ∨ (i ≠ e ∧ s.main.entered = some i))
    (hst : ∀ {i}, s'.main.starting = some i →
      (i = e ∧ x'.thread = .scheduled) ∨ (i ≠ e ∧ s.main.starting = some i)) : Wf s' where
  indexed := hi
  blank {i y} hy := by
    rw [hj] at hy
    rcases List.getElem?_set_cases hy with ⟨-, rfl⟩ | ⟨-, hy⟩
    · exact hb
    · exact h.blank hy
  todo_nodup := hn
  todo hm := by
    rw [hj]
    exact List.exists_set (Q := fun y => y.thread = .claimed) h.todo hx ht hm
  releasing hm := by
    rw [hj]
    exact List.exists_set (Q := fun y => y.thread = .releasing) h.releasing hx hr hm
  releaseSent hm := by
    rw [hj]
    obtain ⟨y, hy, w, ht⟩ := List.exists_set (Q := fun y => ∃ w, y.thread = .releaseSent w)
      (fun hp => by
        obtain ⟨y, w, hy, ht⟩ := h.releaseSent hp
        exact ⟨y, hy, w, ht⟩) hx hrs hm
    exact ⟨y, w, hy, ht⟩
  entered hm := by
    rw [hj]
    exact List.exists_set (Q := fun y => y.thread = .registered) h.entered hx hen hm
  starting hm := by
    rw [hj]
    exact List.exists_set (Q := fun y => y.thread = .scheduled) h.starting hx hst hm
  stop_nodup := by rw [hstop]; exact h.stop_nodup
  stop_todo {i} hm := by
    rw [hj]
    exact List.exists_set_mono (Q := fun y => y.stopper = .idle ∧ y.thread.unstarted = false)
      (h.stop_todo (hstop ▸ hm)) hx fun hq => ⟨hstopper hq.1, hu hq.2⟩
  early hn {i y} hy := by
    rw [hj] at hy
    rw [hstop] at hn
    rcases List.getElem?_set_cases hy with ⟨-, rfl⟩ | ⟨-, hy⟩
    · exact hstopper (h.early hn hx)
    · exact h.early hn hy

end

section

variable {s s' : SpooledWorker ρ} {e : ℕ} {x x' : ActiveJob ρ} {a : Action ρ}

theorem Wf.init (o : Options) : Wf ({ options := o } : SpooledWorker ρ) where
  indexed := .nil
  blank h := by cases h
  todo_nodup := List.nodup_nil
  todo h := by cases h
  releasing h := by cases h
  releaseSent h := by cases h
  entered h := by cases h
  starting h := by cases h
  stop_nodup := List.nodup_nil
  stop_todo h := by cases h
  early _ _ _ h := by cases h

/-- The index after a step with effect `eff`. -/
private theorem indexed_apply {eff : Effect} (h : Wf s) (hx : s.jobs[e]? = some x)
    (hjob : x'.job = x.job) (hkeep : eff = .keep → x'.tracked = x.tracked)
    (hleave : eff ≠ .keep → x'.tracked = false) :
    Indexed (fun y : ActiveJob ρ => y.job.id) ActiveJob.tracked (s.apply e x' eff).jobs
      (s.apply e x' eff).activeJobs := by
  have hk : x'.job.id = x.job.id := by rw [hjob]
  have hgone : eff ≠ .keep → Indexed (fun y : ActiveJob ρ => y.job.id) ActiveJob.tracked
      (s.jobs.set e x') (s.dropEntry e x') := by
    intro hne
    have := h.indexed.leave hx (hleave hne)
    rw [SpooledWorker.dropEntry, hk]
    exact this
  cases eff with
  | keep => exact h.indexed.set hx hk (hkeep rfl)
  | leave => exact hgone (by simp)
  | leaveUp => exact hgone (by simp)
  | leaveDown => exact hgone (by simp)

private theorem Wf.job (h : Wf s) {a : JobAction ρ} {eff : Effect} (hx : s.jobs[e]? = some x)
    (hn : ActiveJob.Next (s.view e x) x a x' eff) : Wf (s.apply e x' eff) := by
  have hf := hn.frame
  obtain ⟨hu, hu'⟩ := hn.started (h.blank hx)
  -- the poll loop expects nothing else of an execution that has a thread
  have hother : ∀ {i} {t : ThreadPc ρ → Prop}, (∃ y, s.jobs[i]? = some y ∧ t y.thread) →
      (∀ pc, t pc → pc.unstarted = true) → i ≠ e := by
    rintro i t ⟨y, hy, ht⟩ himp rfl
    rw [hx, Option.some_inj] at hy
    subst hy
    rw [himp _ ht] at hu
    cases hu
  refine h.update hx (apply_jobs eff) (indexed_apply h hx hf.job hf.stays hf.leaves)
    (fun hn => ?_) (apply_stop eff) (fun h => (hf.stopper (.inl h)).trans h) (fun _ => hu') ?_ (fun {i} hi => .inr ?_) (fun {i} hi => .inr ?_)
    (fun {i} hi => .inr ?_) (fun {i} hi => ?_) (fun {i} hi => ?_)
  · rw [hu'] at hn
    cases hn
  · rw [apply_main]
    exact h.todo_nodup
  · rw [apply_main] at hi
    exact ⟨hother (t := (· = .claimed)) (h.todo hi) (by rintro _ rfl; rfl), hi⟩
  · rw [apply_main] at hi
    exact ⟨hother (t := (· = .releasing)) (h.releasing hi) (by rintro _ rfl; rfl), hi⟩
  · rw [apply_main] at hi
    obtain ⟨y, w, hy, ht⟩ := h.releaseSent hi
    exact ⟨hother (t := fun pc => ∃ w, pc = .releaseSent w) ⟨y, hy, w, ht⟩
      (by rintro _ ⟨_, rfl⟩; rfl), hi⟩
  · rw [apply_main] at hi
    by_cases he : i = e
    · subst he
      obtain ⟨y, hy, ht⟩ := h.entered hi
      rw [hx, Option.some_inj] at hy
      subst hy
      exact .inl ⟨rfl, (hf.parked (.inl ht)).trans ht⟩
    · exact .inr ⟨he, hi⟩
  · rw [apply_main] at hi
    by_cases he : i = e
    · subst he
      obtain ⟨y, hy, ht⟩ := h.starting hi
      rw [hx, Option.some_inj] at hy
      subst hy
      exact .inl ⟨rfl, (hf.parked (.inr ht)).trans ht⟩
    · exact .inr ⟨he, hi⟩

private theorem Wf.stop (h : Wf s) {a : StopAction} (hstep : SpooledWorker.StopStep s a s') :
    Wf s' := by
  cases hstep with
  | ignored hr hm => exact h.stopGoto rfl rfl rfl h.stop_nodup (fun _ hi => h.stop_todo hi) id
  | call hr hs | signal hs | waited hs | waitedLong hs | close hs =>
    exact h.stopGoto rfl rfl rfl List.nodup_nil (by simp [StopPc.todo]) fun _ => by rw [hs]; rfl
  | snapshot hs =>
    refine h.stopGoto rfl rfl rfl ?_ (fun i hi => ?_) fun he => by cases he
    · exact h.indexed.nodup_values
    · obtain ⟨k, hk⟩ := Dict.mem_values_iff.mp (show i ∈ s.activeJobs.values from hi)
      obtain ⟨y, hy, -, hlive⟩ := h.indexed.row hk
      refine ⟨y, hy, h.early (by rw [hs]; rfl) hy, ?_⟩
      by_contra hu
      rw [(h.blank hy (by simpa using hu)).tracked] at hlive
      cases hlive
  | forced hs | settled hs | shutdown hs | clear hs | deregister hs | noWorker hs
  | deregistered hs | finishing hs | clearId hs | closing hs =>
    exact h.stopGoto rfl rfl rfl List.nodup_nil (by simp [StopPc.todo]) fun he => by cases he
  | abandoned hs =>
    have hn := h.stop_nodup
    have ht := fun i => h.stop_todo (e := i)
    rw [hs] at hn ht
    exact h.stopGoto rfl rfl rfl hn ht fun he => by cases he
  | @begin e todo x hs hx =>
    have hn := h.stop_nodup
    rw [hs] at hn
    obtain ⟨hne, hn⟩ := List.nodup_cons.mp hn
    obtain ⟨y, hy, -, hu⟩ := h.stop_todo (e := e) (by rw [hs]; exact List.mem_cons_self)
    rw [hx, Option.some_inj] at hy
    subst hy
    have hset : ∀ {i} {Q : ActiveJob ρ → Prop}, (∃ y, s.jobs[i]? = some y ∧ Q y) →
        (Q x → Q { x with stopper := .signal }) →
        ∃ y, (s.jobs.set e { x with stopper := .signal })[i]? = some y ∧ Q y :=
      fun hy hq => List.exists_set_mono hy hx hq
    refine ⟨h.indexed.set hx rfl rfl, fun {i y} hy hy' => ?_, h.todo_nodup, fun {i} hi => ?_,
      fun {i} hi => ?_, fun {i} hi => ?_, fun {i} hi => ?_, fun {i} hi => ?_, hn,
      fun {i} hi => ?_, fun he => by cases he⟩
    · rcases List.getElem?_set_cases hy with ⟨rfl, rfl⟩ | ⟨-, hy⟩
      · rw [show x.thread.unstarted = true from hy'] at hu
        cases hu
      · exact h.blank hy hy'
    · exact hset (h.todo hi) id
    · exact hset (h.releasing hi) id
    · obtain ⟨y, w, hy, ht⟩ := h.releaseSent hi
      obtain ⟨y', hy', w', ht'⟩ :=
        hset (Q := fun y => ∃ w, y.thread = .releaseSent w) ⟨y, hy, w, ht⟩ id
      exact ⟨y', w', hy', ht'⟩
    · exact hset (h.entered hi) id
    · exact hset (h.starting hi) id
    · have hie : e ≠ i := by
        rintro rfl
        exact hne hi
      obtain ⟨y, hy, hq⟩ := h.stop_todo (e := i) (by rw [hs]; exact List.mem_cons_of_mem _ hi)
      exact ⟨y, by rw [← hy]; exact List.getElem?_set_ne hie, hq⟩

end

section

variable {s s' : SpooledWorker ρ} {e : ℕ} {x x' : ActiveJob ρ} {a : Action ρ}

/-- The first job of the result loop is claimed, and comes only once. -/
private theorem Wf.head {todo : List ℕ} (h : Wf s) (hm : s.main.todo = e :: todo)
    (hx : s.jobs[e]? = some x) :
    x.thread = .claimed ∧ e ∉ todo ∧ todo.Nodup := by
  have hn := h.todo_nodup
  rw [hm] at hn
  obtain ⟨hne, hn⟩ := List.nodup_cons.mp hn
  obtain ⟨y, hy, ht⟩ := h.todo (e := e) (by rw [hm]; exact List.mem_cons_self)
  rw [hx, Option.some_inj] at hy
  exact ⟨hy ▸ ht, hne, hn⟩

/-- A job that is in the loop's hands is not among those it has yet to come to. -/
private theorem Wf.not_todo (h : Wf s) (hx : s.jobs[e]? = some x) (ht : x.thread ≠ .claimed)
    {i : ℕ} (hi : i ∈ s.main.todo) : i ≠ e := by
  rintro rfl
  obtain ⟨y, hy, hc⟩ := h.todo hi
  rw [hx, Option.some_inj] at hy
  exact ht (hy ▸ hc)

/-- Registration: execution `e` enters, the one that held the entry is displaced. -/
private theorem Wf.enter {todo : List ℕ} (h : Wf s) (hx : s.jobs[e]? = some x) (hb : x.Blank)
    (hm : s.main = .jobs (e :: todo)) (ht : x.thread = .claimed) (hne : e ∉ todo)
    (hn : todo.Nodup) : Wf { s.register e x with main := .beat e todo } := by
  -- displacement changes neither the program counters nor the job
  have hkeep : ∀ {i : ℕ} {Q : ActiveJob ρ → Prop}, (∀ y, Q y → Q y.displace) → i ≠ e →
      (∃ y, s.jobs[i]? = some y ∧ Q y) → ∃ y, (s.register e x).jobs[i]? = some y ∧ Q y := by
    rintro i Q hQ hie ⟨y, hy, hq⟩
    have : (s.register e x).jobs[i]? = _ := List.getElem?_set_ne (Ne.symm hie)
    rw [this, Indexed.getElem?_displaced, hy]
    split
    · exact ⟨y.displace, rfl, hQ y hq⟩
    · exact ⟨y, rfl, hq⟩
  have hback : ∀ {i : ℕ} {y' : ActiveJob ρ}, (s.register e x).jobs[i]? = some y' →
      y' = { x with thread := .registered, tracked := true } ∨
        ∃ y, s.jobs[i]? = some y ∧ (y' = y ∨ (y.tracked = true ∧ y' = y.displace)) := by
    intro i y' hy'
    rcases List.getElem?_set_cases hy' with ⟨-, rfl⟩ | ⟨-, hy⟩
    · exact .inl rfl
    · rw [Indexed.getElem?_displaced] at hy
      split at hy
      · rename_i he
        obtain ⟨y, hy₀, rfl⟩ := Option.map_eq_some_iff.mp hy
        obtain ⟨y₁, hy₁, -, hlive⟩ := h.indexed.row he
        rw [hy₀, Option.some_inj] at hy₁
        exact .inr ⟨y, hy₀, .inr ⟨hy₁ ▸ hlive, rfl⟩⟩
      · exact .inr ⟨y', hy, .inl rfl⟩
  have hself : (s.register e x).jobs[e]? =
      some { x with thread := .registered, tracked := true } := by
    refine List.getElem?_set_self ?_
    rw [Indexed.length_displaced]
    exact (List.getElem?_eq_some_iff.mp hx).1
  refine ⟨h.indexed.enter hx hb.tracked rfl rfl fun _ => rfl, fun {i y} hy hu => ?_, hn,
    fun {i} hi => ?_, of_none, of_none, fun {i} hi => ?_, of_none, h.stop_nodup, fun {i} hi => ?_,
    fun he {i y} hy => ?_⟩
  · rcases hback hy with rfl | ⟨y₀, hy₀, rfl | ⟨hlive, rfl⟩⟩
    · cases hu
    · exact h.blank hy₀ hu
    · rw [(h.blank hy₀ hu).tracked] at hlive
      cases hlive
  · refine hkeep (Q := fun y => y.thread = .claimed) (fun _ => id) ?_
      (h.todo (by rw [hm]; exact List.mem_cons_of_mem _ hi))
    rintro rfl
    exact hne hi
  · obtain rfl : e = i := Option.some_inj.mp hi
    exact ⟨_, hself, rfl⟩
  · refine hkeep (Q := fun y => y.stopper = .idle ∧ y.thread.unstarted = false) (fun _ => id) ?_
      (h.stop_todo hi)
    rintro rfl
    obtain ⟨y, hy, -, hu⟩ := h.stop_todo hi
    rw [hx, Option.some_inj] at hy
    rw [← hy, ht] at hu
    cases hu
  · rcases hback hy with rfl | ⟨y₀, hy₀, rfl | ⟨-, rfl⟩⟩
    · exact hb.stopper
    · exact h.early he hy₀
    · show y₀.stopper = .idle
      exact h.early he hy₀

private theorem Wf.main (h : Wf s) {a : MainAction} (hstep : SpooledWorker.MainStep s a s') :
    Wf s' := by
  have htodo := h.todo_nodup
  have hnil : ∀ {t : SpooledWorker ρ}, t.jobs = s.jobs → t.activeJobs = s.activeJobs →
      t.stop = s.stop → t.main.todo = [] → t.main.releasing = none →
      t.main.releaseSent = none → t.main.entered = none → t.main.starting = none → Wf t :=
    fun hj hi hs ht hr hrs hen hst => h.goto hj hi hs (by rw [ht]; exact List.nodup_nil)
      (by simp [ht]) hr hrs hen (by simp [hst])
  cases hstep with
  | start | register | registerFailed | run | again | skip | poll | claim | resend | claimFailed
  | done | vanished | finish | pause | woken => exact hnil rfl rfl rfl rfl rfl rfl rfl rfl
  | leave hm hpc =>
    rcases hpc with rfl | rfl
    · exact hnil rfl rfl rfl rfl rfl rfl rfl rfl
    · exact hnil rfl rfl rfl rfl rfl rfl rfl rfl
  | noExecutor hm | executor hm | refuse hm | exiting hm =>
    rw [hm] at htodo
    exact h.goto rfl rfl rfl htodo (by rw [hm]; exact fun _ => id) rfl rfl rfl
      (by rw [hm]; simp [MainPc.starting])
  | @claimed n js hm =>
    have hfresh : ∀ y ∈ js.map (fun j => ({ job := j } : ActiveJob ρ)), y.tracked = false := by
      intro y hy
      obtain ⟨j, -, rfl⟩ := List.mem_map.mp hy
      rfl
    have hold : ∀ {i : ℕ} {y : ActiveJob ρ}, s.jobs[i]? = some y →
        (s.jobs ++ js.map fun j => ({ job := j } : ActiveJob ρ))[i]? = some y := by
      intro i y hy
      rw [List.getElem?_append_left (List.getElem?_eq_some_iff.mp hy).1, hy]
    refine ⟨h.indexed.append hfresh, fun {i y} hy hu => ?_, List.nodup_range', fun {i} hi => ?_,
      of_none, of_none, of_none, of_none, h.stop_nodup, fun {i} hi => ?_, fun he {i y} hy => ?_⟩
    · rcases List.getElem?_append_cases hy with hy | ⟨-, j, rfl⟩
      · exact h.blank hy hu
      · exact ⟨rfl, rfl, rfl, rfl, rfl, rfl, rfl, rfl, rfl⟩
    · obtain ⟨k, hk, rfl⟩ := List.mem_range'.mp hi
      exact ⟨{ job := js[k] }, by simp [hk], rfl⟩
    · obtain ⟨y, hy, hq⟩ := h.stop_todo hi
      exact ⟨y, hold hy, hq⟩
    · rcases List.getElem?_append_cases hy with hy | ⟨-, j, rfl⟩
      · exact h.early he hy
      · rfl
  | @hold e todo x hm hx hi =>
    obtain ⟨ht, hne, hn⟩ := h.head (by rw [hm]; rfl) hx
    have hb := h.blank hx (by rw [ht]; rfl)
    refine h.update hx rfl (h.indexed.set hx rfl rfl) (fun _ => ?_) rfl id
      (by rw [ht]; rintro ⟨⟩) hn (fun {i} hi => .inr ?_)
      (fun {i} hi => .inl ⟨(Option.some_inj.mp hi).symm, rfl⟩) of_none of_none of_none
    · exact ⟨hb.timeout, hb.stopper, hb.beat, hb.settled, hb.leaseLost, hb.tracked, hb.replaced,
        hb.abandoned, hb.booked⟩
    · exact ⟨by rintro rfl; exact hne hi, by rw [hm]; exact List.mem_cons_of_mem _ hi⟩
  | @enter e todo x hm hx hi =>
    obtain ⟨ht, hne, hn⟩ := h.head (by rw [hm]; rfl) hx
    have hb := h.blank hx (by rw [ht]; rfl)
    exact h.enter hx hb hm ht hne hn
  | @unreleased e todo x hm hx hw =>
    obtain ⟨y, hy, ht⟩ := h.releasing (e := e) (by rw [hm]; rfl)
    rw [hx, Option.some_inj] at hy
    subst hy
    have hb := h.blank hx (by rw [ht]; rfl)
    rw [hm] at htodo
    refine h.update hx rfl (h.indexed.set hx rfl rfl) (fun _ => ?_) rfl id
      (by rw [ht]; rintro ⟨⟩) htodo (fun {i} hi => .inr ?_) of_none of_none of_none of_none
    · exact ⟨hb.timeout, hb.stopper, hb.beat, hb.settled, hb.leaseLost, hb.tracked, hb.replaced,
        hb.abandoned, hb.booked⟩
    · have hi' : i ∈ s.main.todo := by rw [hm]; exact hi
      exact ⟨h.not_todo hx (by rw [ht]; simp) hi', hi'⟩
  | @release e todo x w hm hx hw =>
    obtain ⟨y, hy, ht⟩ := h.releasing (e := e) (by rw [hm]; rfl)
    rw [hx, Option.some_inj] at hy
    subst hy
    have hb := h.blank hx (by rw [ht]; rfl)
    rw [hm] at htodo
    refine h.update hx rfl (h.indexed.set hx rfl rfl) (fun _ => ?_) rfl id
      (by rw [ht]; rintro ⟨⟩) htodo (fun {i} hi => .inr ?_) of_none
      (fun {i} hi => .inl ⟨(Option.some_inj.mp hi).symm, w, rfl⟩) of_none of_none
    · exact ⟨hb.timeout, hb.stopper, hb.beat, hb.settled, hb.leaseLost, hb.tracked, hb.replaced,
        hb.abandoned, hb.booked⟩
    · have hi' : i ∈ s.main.todo := by rw [hm]; exact hi
      exact ⟨h.not_todo hx (by rw [ht]; simp) hi', hi'⟩
  | @released e todo x ok hm hx =>
    obtain ⟨y, w, hy, ht⟩ := h.releaseSent (e := e) (by rw [hm]; rfl)
    rw [hx, Option.some_inj] at hy
    subst hy
    have hb := h.blank hx (by rw [ht]; rfl)
    rw [hm] at htodo
    refine h.update hx rfl (h.indexed.set hx rfl rfl) (fun _ => ?_) rfl id
      (by rw [ht]; rintro ⟨⟩) htodo (fun {i} hi => .inr ?_) of_none of_none of_none of_none
    · exact ⟨hb.timeout, hb.stopper, hb.beat, hb.settled, hb.leaseLost, hb.tracked, hb.replaced,
        hb.abandoned, hb.booked⟩
    · have hi' : i ∈ s.main.todo := by rw [hm]; exact hi
      exact ⟨h.not_todo hx (by rw [ht]; simp) hi', hi'⟩
  | @schedule e todo x hm hx =>
    obtain ⟨y, hy, ht⟩ := h.entered (e := e) (by rw [hm]; rfl)
    rw [hx, Option.some_inj] at hy
    subst hy
    rw [hm] at htodo
    refine h.update hx rfl (h.indexed.set hx rfl rfl) (by rintro ⟨⟩) rfl id (fun _ => rfl) htodo
      (fun {i} hi => .inr ?_) of_none of_none of_none
      (fun {i} hi => .inl ⟨(Option.some_inj.mp hi).symm, rfl⟩)
    have hi' : i ∈ s.main.todo := by rw [hm]; exact hi
    exact ⟨h.not_todo hx (by rw [ht]; simp) hi', hi'⟩
  | @submit e todo x hm hx hu =>
    obtain ⟨y, hy, ht⟩ := h.starting (e := e) (by rw [hm]; rfl)
    rw [hx, Option.some_inj] at hy
    subst hy
    rw [hm] at htodo
    refine h.update hx rfl (h.indexed.set hx rfl rfl) (by rintro ⟨⟩) rfl id (fun _ => rfl) htodo
      (fun {i} hi => .inr ?_) of_none of_none of_none of_none
    have hi' : i ∈ s.main.todo := by rw [hm]; exact hi
    exact ⟨h.not_todo hx (by rw [ht]; simp) hi', hi'⟩
  | @discard e todo x hm hx =>
    obtain ⟨y, hy, ht⟩ := h.starting (e := e) (by rw [hm]; rfl)
    rw [hx, Option.some_inj] at hy
    subst hy
    rw [hm] at htodo
    have hleave : (x.cleanupJob .refused).2 ≠ .keep := by
      rw [ActiveJob.cleanupJob]
      split <;> simp
    have hindexed := indexed_apply h hx (rfl : (x.cleanupJob .refused).1.job = x.job)
      (fun heff => absurd heff hleave) fun _ => rfl
    refine h.update hx (apply_jobs _) hindexed (by rintro ⟨⟩) (apply_stop _) id (fun _ => rfl)
      htodo (fun {i} hi => .inr ?_) of_none of_none of_none of_none
    have hi' : i ∈ s.main.todo := by rw [hm]; exact hi
    exact ⟨h.not_todo hx (by rw [ht]; simp) hi', hi'⟩

end

section

variable {s s' : SpooledWorker ρ} {e : ℕ} {x x' : ActiveJob ρ} {a : Action ρ}

/-- Every step keeps the structural invariant. -/
theorem Wf.step (h : Wf s) (hstep : s.step a = some s') : Wf s' := by
  cases a with
  | main act => exact h.main (SpooledWorker.main_of_step hstep)
  | stop act => exact h.stop (SpooledWorker.stop_of_step hstep)
  | job i act =>
    obtain ⟨y, y', eff, hy, hnext, rfl⟩ := SpooledWorker.job_of_step hstep
    exact h.job hy hnext

variable {o : Options} {ok : SpooledWorker ρ → Action ρ → Prop}

theorem wf_of_reachable (h : (system ρ o).Reachable ok s) : Wf s :=
  h.invariant (.init o) fun _ _ _ hwf _ hstep => hwf.step hstep

/-- Only the reply to a claim creates executions, and the result loop has them all to do. -/
theorem length_of_step (hstep : s.step a = some s') : s'.jobs.length = s.jobs.length ∨
    ∃ n js, s.main = .claimWait n ∧ a = .main (.claimed js) ∧
      s'.jobs = s.jobs ++ js.map (fun j => { job := j }) ∧
      s'.main = .jobs (List.range' s.jobs.length js.length) := by
  cases a with
  | main act =>
    cases SpooledWorker.main_of_step hstep with
    | claimed hm => exact .inr ⟨_, _, hm, rfl, rfl, rfl⟩
    | enter hm hx hi => exact .inl (by simp [SpooledWorker.register, Indexed.length_displaced])
    | released => exact .inl (by simp [SpooledWorker.releaseReply, SpooledWorker.setJob])
    | _ => exact .inl (by simp [SpooledWorker.setJob, SpooledWorker.pollFinally])
  | stop act =>
    refine .inl ?_
    cases SpooledWorker.stop_of_step hstep <;> simp [SpooledWorker.setJob]
  | job i act =>
    obtain ⟨y, y', eff, hy, hnext, rfl⟩ := SpooledWorker.job_of_step hstep
    exact .inl (by simp)

/-- A step leaves an execution alone or makes one move of it. -/
theorem step_job (hwf : Wf s) (hstep : s.step a = some s') (hx : s.jobs[e]? = some x) :
    ∃ x', s'.jobs[e]? = some x' ∧ (x' = x ∨ Move s e x a x') := by
  have hlt := (List.getElem?_eq_some_iff.mp hx).1
  have hlt' : e < s'.jobs.length := by
    rcases length_of_step hstep with heq | ⟨_, js, _, _, hj, _⟩
    · omega
    · rw [hj, List.length_append]
      omega
  refine ⟨s'.jobs[e], List.getElem?_eq_getElem hlt', ?_⟩
  rcases step_move hwf hstep (List.getElem?_eq_getElem hlt') with ⟨y, hy, hmove⟩ | ⟨hnone, -⟩
  · rw [hx, Option.some_inj] at hy
    exact hy ▸ hmove
  · rw [hx] at hnone
    cases hnone

/-- **Invariant rule for executions.**  What a fresh execution has and every move keeps,
every execution of a reachable worker has. -/
theorem forall_jobs {P : ActiveJob ρ → Prop} (hfresh : ∀ j, P { job := j })
    (hmove : ∀ {s a s' e x x'}, (system ρ o).Reachable ok s → ok s a → s.step a = some s' →
      s.jobs[e]? = some x → s'.jobs[e]? = some x' → P x → Move s e x a x' → P x')
    (h : (system ρ o).Reachable ok s) (hx : s.jobs[e]? = some x) : P x := by
  have hall : ∀ (e : ℕ) (x : ActiveJob ρ), s.jobs[e]? = some x → P x := by
    refine h.invariant_of (I := (system ρ o).Reachable ok)
      (P := fun t => ∀ (e : ℕ) (x : ActiveJob ρ), t.jobs[e]? = some x → P x) (fun _ => id) ?_ ?_
    · intro e x hx
      cases hx
    · intro t a t' hr hP ha hstep e x' hx'
      rcases step_move (wf_of_reachable hr) hstep hx' with ⟨y, hy, rfl | hm⟩ | ⟨-, j, rfl⟩
      · exact hP e _ hy
      · exact hmove hr ha hstep hy hx' (hP e y hy) hm
      · exact hfresh j
  exact hall e x hx

/-- The same for a property of the execution and the worker, which a step that leaves the
execution alone must keep too. -/
theorem forall_jobs_in {P : SpooledWorker ρ → ℕ → ActiveJob ρ → Prop}
    (hfresh : ∀ {s a s' e j}, (system ρ o).Reachable ok s → s.step a = some s' →
      s.jobs[e]? = none → s'.jobs[e]? = some { job := j } → P s' e { job := j })
    (hsame : ∀ {s a s' e x}, (system ρ o).Reachable ok s → ok s a → s.step a = some s' →
      s.jobs[e]? = some x → s'.jobs[e]? = some x → P s e x → P s' e x)
    (hmove : ∀ {s a s' e x x'}, (system ρ o).Reachable ok s → ok s a → s.step a = some s' →
      s.jobs[e]? = some x → s'.jobs[e]? = some x' → P s e x → Move s e x a x' → P s' e x')
    (h : (system ρ o).Reachable ok s) (hx : s.jobs[e]? = some x) : P s e x := by
  have hall : ∀ (e : ℕ) (x : ActiveJob ρ), s.jobs[e]? = some x → P s e x := by
    refine h.invariant_of (I := (system ρ o).Reachable ok)
      (P := fun t => ∀ (e : ℕ) (x : ActiveJob ρ), t.jobs[e]? = some x → P t e x) (fun _ => id) ?_ ?_
    · intro e x hx
      cases hx
    · intro t a t' hr hP ha hstep e x' hx'
      rcases step_move (wf_of_reachable hr) hstep hx' with ⟨y, hy, rfl | hm⟩ | ⟨hnone, j, rfl⟩
      · exact hsame hr ha hstep hy hx' (hP e _ hy)
      · exact hmove hr ha hstep hy hx' (hP e y hy) hm
      · exact hfresh hr hstep hnone hx'
  exact hall e x hx

/-- What every move of an execution keeps is kept for the rest of its life. -/
theorem preserves_job {P : ActiveJob ρ → Prop}
    (hmove : ∀ {t a t' x x'}, (system ρ o).Reachable ok t → ok t a → t.step a = some t' →
      t.jobs[e]? = some x → P x → Move t e x a x' → P x')
    (h : (system ρ o).Reachable ok s) (h' : (system ρ o).Reaches ok s s')
    (hx : s.jobs[e]? = some x) (hP : P x) : ∃ x', s'.jobs[e]? = some x' ∧ P x' := by
  refine h.preserves_of (I := (system ρ o).Reachable ok)
    (P := fun t => ∃ y, t.jobs[e]? = some y ∧ P y) (fun _ => id) ?_ h' ⟨x, hx, hP⟩
  rintro t a t' hr ⟨y, hy, hPy⟩ ha hstep
  obtain ⟨y', hy', rfl | hm⟩ := step_job (wf_of_reachable hr) hstep hy
  · exact ⟨_, hy', hPy⟩
  · exact ⟨y', hy', hmove hr ha hstep hy hPy hm⟩

end

end SpooledSdk.Worker.Sync
