/-
What one step of the synchronous worker can do.

Each relation lists the moves of one actor with their guards, and one lemma says that
the step function makes no other.  Every later invariant is a case analysis on these
relations and never unfolds the step function:

* `ActiveJob.Next`, `ActiveJob.next_of_step` — the actors of one execution; the three
  callers of `_send_fail` and `_complete_job` share `SendStep`, the two callers of
  `_abandon_job` share `AbandonStep`;
* `MainStep`, `main_of_step` — the thread inside `start()`;
* `StopStep`, `stop_of_step` — `stop()`;
* `job_of_step` — a step of an execution, stored with its effect.
-/
import SpooledSdk.Worker.Sync

namespace SpooledSdk.Worker.Sync

variable {ρ : Type}

namespace ActiveJob

/-- The moves of `_complete_job` and `_send_fail` past the settlement. -/
inductive SendStep (x : ActiveJob ρ) (a : Ack ρ) (w : String) :
    SendPc → Option Reply → ActiveJob ρ → Option SendPc → Prop
  | passed (h : x.leaseLost = false) : SendStep x a w .check none x (some .send)
  | stopped (h : x.leaseLost = true) : SendStep x a w .check none x none
  | sent : SendStep x a w .send none { x with calls := x.calls ++ [ackCall x.job w a] }
      (some .wait)
  | accepted {r : Reply} (h : verdict a r = .accepted) :
      SendStep x a w .wait (some r) (x.emit (ackEvent x.job a)) none
  | expired {r : Reply} (h : verdict a r = .expired) :
      SendStep x a w .wait (some r) x (some .lose)
  | rejected {r : Reply} (h : verdict a r = .rejected) :
      SendStep x a w .wait (some r) (x.emit .error) none
  | alreadyLost (h : x.leaseLost = true) : SendStep x a w .lose none x none
  | lost (h : x.leaseLost = false) : SendStep x a w .lose none x.loseLease (some .report)
  | reported : SendStep x a w .report none (x.reportLost (ackOperation a)) none

theorem sendStep_of_eq {x x' : ActiveJob ρ} {a : Ack ρ} {w : String} {pc : SendPc}
    {r : Option Reply} {pc' : Option SendPc} (h : x.sendStep a w pc r = some (x', pc')) :
    SendStep x a w pc r x' pc' := by
  cases pc <;> cases r <;> simp only [sendStep] at h <;> try cases h
  case check.none =>
    by_cases hl : x.leaseLost = true
    · rw [if_pos hl]
      exact .stopped hl
    · rw [if_neg hl]
      exact .passed (by simpa using hl)
  case send.none => exact .sent
  case wait.some r =>
    cases hv : verdict a r <;> rw [hv] at h <;> cases h
    · exact .accepted hv
    · exact .expired hv
    · exact .rejected hv
  case lose.none =>
    by_cases hl : x.leaseLost = true
    · rw [if_pos hl] at h
      cases h
      exact .alreadyLost hl
    · rw [if_neg hl] at h
      cases h
      exact .lost (by simpa using hl)
  case report.none => exact .reported

/-- The guard of `_claim_settlement`. -/
structure MayAck (v : View) (x : ActiveJob ρ) (w : String) : Prop where
  notLost : x.leaseLost = false
  notSettled : x.settled = none
  entry : v.entry = true
  workerId : truthy v.workerId = some w

theorem mayAck_of_claimSettlement {v : View} {x : ActiveJob ρ} {w : String}
    (h : x.claimSettlement v = some w) : MayAck v x w := by
  rw [claimSettlement] at h
  split at h
  · cases h
  · rename_i hg
    simp only [Bool.or_eq_true, Bool.not_eq_true', not_or, Bool.not_eq_true,
      Bool.not_eq_false, Option.isSome_eq_false_iff, Option.isNone_iff_eq_none] at hg
    exact ⟨hg.1.1, hg.1.2, hg.2, h⟩

/-- The moves of `_abandon_job`. -/
inductive AbandonStep (v : View) (x : ActiveJob ρ) (t : Taker) (reason : String) :
    AbandonPc → Option Reply → ActiveJob ρ → AbandonPc → Effect → Prop
  | fire : AbandonStep v x t reason .armed none x .signal .keep
  | signal : AbandonStep v x t reason .signal none { x with abortEvent := true } .settling .keep
  | denied (h : x.claimSettlement v = none) :
      AbandonStep v x t reason .settling none x .over .keep
  | granted {w : String} (h : MayAck v x w) :
      AbandonStep v x t reason .settling none (x.settle t (.fail reason)) (.sending w .check) .keep
  | send {w : String} {pc : SendPc} {r : Option Reply} {x' : ActiveJob ρ} {pc' : Option SendPc}
      (h : SendStep x (.fail reason) w pc r x' pc') :
      AbandonStep v x t reason (.sending w pc) r x' (pc'.elim .book (.sending w)) .keep
  | book : AbandonStep v x t reason .book none x.bookAbandoned.1 .over x.bookAbandoned.2

theorem abandonStep_of_eq {v : View} {x x' : ActiveJob ρ} {t : Taker} {reason : String}
    {pc pc' : AbandonPc} {r : Option Reply} {eff : Effect}
    (h : x.abandonStep v t reason pc r = some (x', pc', eff)) :
    AbandonStep v x t reason pc r x' pc' eff := by
  cases pc
  case sending w pc =>
    rw [abandonStep] at h
    obtain ⟨⟨y, q⟩, hs, hp⟩ := Option.map_eq_some_iff.mp h
    cases hp
    exact .send (sendStep_of_eq hs)
  all_goals cases r <;> simp only [abandonStep] at h <;> try cases h
  case armed => exact .fire
  case signal => exact .signal
  case settling =>
    cases hc : x.claimSettlement v with
    | none => rw [hc] at h; cases h; exact .denied hc
    | some w => rw [hc] at h; cases h; exact .granted (mayAck_of_claimSettlement hc)
  case book => exact .book

/-- The moves of the actors of one execution. -/
inductive Next (v : View) (x : ActiveJob ρ) :
    JobAction ρ → ActiveJob ρ → Effect → Prop
  | pickUp (h : x.thread = .queued) : Next v x (.thread none)
      ({ x with thread := .arming }.emit (.started x.job.id x.job.queueName)) .keep
  | arm (h : x.thread = .arming) : Next v x (.thread none)
      { x.startJobTimeout with thread := .calling } .keep
  | call (h : x.thread = .calling) : Next v x (.thread none) { x with thread := .running } .keep
  | ends {o : Outcome ρ} (h : x.thread = .running) : Next v x (.handlerEnds o)
      { x with thread := o.ack.elim .cleanup .settling } .keep
  | denied {a : Ack ρ} (h : x.thread = .settling a) (hc : x.claimSettlement v = none) :
      Next v x (.thread none) { x with thread := .cleanup } .keep
  | granted {a : Ack ρ} {w : String} (h : x.thread = .settling a) (hc : MayAck v x w) :
      Next v x (.thread none) { x.settle .runner a with thread := .sending a w .check } .keep
  | send {a : Ack ρ} {w : String} {pc : SendPc} {r : Option Reply} {x' : ActiveJob ρ}
      {pc' : Option SendPc} (h : x.thread = .sending a w pc) (hs : SendStep x a w pc r x' pc') :
      Next v x (.thread r) { x' with thread := pc'.elim .cleanup (.sending a w) } .keep
  | cleanup (h : x.thread = .cleanup) : Next v x (.thread none) (x.cleanupJob .returned).1
      (x.cleanupJob .returned).2
  | timeout {r : Option Reply} {x' : ActiveJob ρ} {pc' : AbandonPc} {eff : Effect}
      (h : AbandonStep v x .timeout jobTimeoutError x.timeout r x' pc' eff) :
      Next v x (.timeout r) { x' with timeout := pc' } eff
  | stopper {r : Option Reply} {x' : ActiveJob ρ} {pc' : AbandonPc} {eff : Effect}
      (h : AbandonStep v x .stopper shutdownTimeoutError x.stopper r x' pc' eff) :
      Next v x (.stopper r) { x' with stopper := pc' } eff
  | beatFire (h : x.beat = .armed) : Next v x (.beat none) { x with beat := .check } .keep
  | beatCheck (h : x.beat = .check) {pc : BeatPc} (hpc : pc = .off ∨ ∃ w, pc = .send w) :
      Next v x (.beat none) { x with beat := pc } .keep
  | beatSend {w : String} (h : x.beat = .send w) :
      Next v x (.beat none) { x with beat := .wait w } .keep
  | beatOk {w : String} (h : x.beat = .wait w) :
      Next v x (.beat (some .ok)) { x with beat := .rearm } .keep
  | beatExpired {w : String} (h : x.beat = .wait w) :
      Next v x (.beat (some .leaseExpired)) { x with beat := .lose } .keep
  | beatCrash {w : String} (h : x.beat = .wait w) :
      Next v x (.beat (some .nonStringCode)) { x with beat := .off } .keep
  | beatError {w : String} {r : Reply} (h : x.beat = .wait w) :
      Next v x (.beat (some r)) ({ x with beat := .rearm }.emit .error) .keep
  | beatAlreadyLost (h : x.beat = .lose) (hl : x.leaseLost = true) :
      Next v x (.beat none) { x with beat := .off } .keep
  | beatLost (h : x.beat = .lose) (hl : x.leaseLost = false) :
      Next v x (.beat none) { x.loseLease with beat := .report } .keep
  | beatReported (h : x.beat = .report) :
      Next v x (.beat none) ({ x with beat := .off }.reportLost "heartbeat") .keep
  | beatRearm (h : x.beat = .rearm) {pc : BeatPc} (hpc : pc = .off ∨ pc = .armed) :
      Next v x (.beat none) { x with beat := pc } .keep

private theorem next_of_threadStep {v : View} {x x' : ActiveJob ρ} {r : Option Reply}
    {eff : Effect} (h : x.threadStep v x.thread r = some (x', eff)) :
    Next v x (.thread r) x' eff := by
  cases ht : x.thread
  case sending a w pc =>
    rw [ht, threadStep] at h
    obtain ⟨⟨y, q⟩, hs, hp⟩ := Option.map_eq_some_iff.mp h
    cases hp
    exact .send ht (sendStep_of_eq hs)
  all_goals rw [ht] at h; cases r <;> simp only [threadStep] at h <;> try cases h
  case queued => exact .pickUp ht
  case arming => exact .arm ht
  case calling => exact .call ht
  case settling a =>
    cases hc : x.claimSettlement v with
    | none => rw [hc] at h; cases h; exact .denied ht hc
    | some w => rw [hc] at h; cases h; exact .granted ht (mayAck_of_claimSettlement hc)
  case cleanup => exact .cleanup ht

private theorem next_of_beatStep {v : View} {x x' : ActiveJob ρ} {r : Option Reply}
    (h : x.beatStep v x.beat r = some x') : Next v x (.beat r) x' .keep := by
  cases hb : x.beat <;> rw [hb] at h <;> cases r <;> simp only [beatStep] at h <;> try cases h
  case armed => exact .beatFire hb
  case check =>
    refine .beatCheck hb ?_
    split
    · cases truthy v.workerId with
      | none => exact .inl rfl
      | some w => exact .inr ⟨w, rfl⟩
    · exact .inl rfl
  case send => exact .beatSend hb
  case wait.some w r =>
    cases r <;> cases h
    · exact .beatOk hb
    · exact .beatExpired hb
    · exact .beatError hb
    · exact .beatCrash hb
    · exact .beatError hb
  case lose =>
    by_cases hl : x.leaseLost = true
    · rw [if_pos hl] at h
      cases h
      exact .beatAlreadyLost hb hl
    · rw [if_neg hl] at h
      cases h
      exact .beatLost hb (by simpa using hl)
  case report => exact .beatReported hb
  case rearm =>
    refine .beatRearm hb ?_
    split
    · exact .inr rfl
    · exact .inl rfl

/-- `ActiveJob.step` makes no other move. -/
theorem next_of_step {v : View} {x x' : ActiveJob ρ} {a : JobAction ρ} {eff : Effect}
    (h : x.step v a = some (x', eff)) : Next v x a x' eff := by
  cases a with
  | thread r => exact next_of_threadStep h
  | handlerEnds o =>
    rw [step, handlerEnds] at h
    split at h
    · rename_i ht
      cases h
      exact .ends ht
    · cases h
  | timeout r =>
    obtain ⟨⟨y, pc, e⟩, hs, hp⟩ := Option.map_eq_some_iff.mp h
    cases hp
    exact .timeout (abandonStep_of_eq hs)
  | stopper r =>
    obtain ⟨⟨y, pc, e⟩, hs, hp⟩ := Option.map_eq_some_iff.mp h
    cases hp
    exact .stopper (abandonStep_of_eq hs)
  | beat r =>
    obtain ⟨y, hs, hp⟩ := Option.map_eq_some_iff.mp h
    cases hp
    exact next_of_beatStep hs

/-! ### What every move of an execution leaves alone -/

/-- The timers stay where they are, or are cancelled while they are armed. -/
structure SameTimers (x x' : ActiveJob ρ) : Prop where
  timeout : x'.timeout = x.timeout ∨ (x.timeout = .armed ∧ x'.timeout = .over)
  beat : x'.beat = x.beat ∨ (x.beat = .armed ∧ x'.beat = .off)

theorem SameTimers.of_eq {x x' : ActiveJob ρ} (ht : x'.timeout = x.timeout)
    (hb : x'.beat = x.beat) : SameTimers x x' := ⟨.inl ht, .inl hb⟩

theorem SameTimers.of_cancel {x x' : ActiveJob ρ} (ht : x'.timeout = x.cancelTimers.timeout)
    (hb : x'.beat = x.cancelTimers.beat) : SameTimers x x' where
  timeout := by
    by_cases h : x.timeout = .armed
    · exact .inr ⟨h, ht.trans (if_pos h)⟩
    · exact .inl (ht.trans (if_neg h))
  beat := by
    by_cases h : x.beat = .armed
    · exact .inr ⟨h, hb.trans (if_pos h)⟩
    · exact .inl (hb.trans (if_neg h))

theorem SameTimers.timeout_idle {x x' : ActiveJob ρ} (h : SameTimers x x')
    (hi : x.timeout = .idle) : x'.timeout = .idle := by
  rcases h.timeout with heq | ⟨ha, -⟩
  · exact heq.trans hi
  · rw [hi] at ha
    cases ha

theorem SameTimers.beat_off {x x' : ActiveJob ρ} (h : SameTimers x x') (ho : x.beat = .off) :
    x'.beat = .off := by
  rcases h.beat with heq | ⟨-, hoff⟩
  · exact heq.trans ho
  · exact hoff

/-- `_complete_job` and `_send_fail` touch neither the program counters of other actors,
nor the fields that say where the execution stands. -/
structure SameStanding (x x' : ActiveJob ρ) : Prop where
  job : x'.job = x.job
  settled : x'.settled = x.settled
  thread : x'.thread = x.thread
  stopper : x'.stopper = x.stopper
  tracked : x'.tracked = x.tracked
  replaced : x'.replaced = x.replaced
  abandoned : x'.abandoned = x.abandoned
  booked : x'.booked = x.booked

theorem SendStep.same {x x' : ActiveJob ρ} {a : Ack ρ} {w : String} {pc : SendPc}
    {r : Option Reply} {pc' : Option SendPc} (h : SendStep x a w pc r x' pc') :
    SameStanding x x' := by
  cases h <;> exact ⟨rfl, rfl, rfl, rfl, rfl, rfl, rfl, rfl⟩

theorem SendStep.timers {x x' : ActiveJob ρ} {a : Ack ρ} {w : String} {pc : SendPc}
    {r : Option Reply} {pc' : Option SendPc} (h : SendStep x a w pc r x' pc') :
    SameTimers x x' := by
  cases h with
  | lost => exact .of_cancel rfl rfl
  | _ => exact .of_eq rfl rfl

/-- The frame of a move of an execution: its job is fixed, a registered job keeps its
place until the poll submits it, and an execution goes out of service exactly with the
effect that says so. -/
structure Next.Frame (x x' : ActiveJob ρ) (eff : Effect) : Prop where
  job : x'.job = x.job
  replaced : x'.replaced = x.replaced
  stopper : x.stopper = .idle ∨ x.stopper = .over → x'.stopper = x.stopper
  parked : x.thread = .registered ∨ x.thread = .scheduled → x'.thread = x.thread
  stays : eff = .keep → x'.tracked = x.tracked
  leaves : eff ≠ .keep → x'.tracked = false

theorem AbandonStep.frame {v : View} {x x' : ActiveJob ρ} {t : Taker} {reason : String}
    {pc pc' : AbandonPc} {r : Option Reply} {eff : Effect}
    (h : AbandonStep v x t reason pc r x' pc' eff) :
    x'.thread = x.thread ∧ x'.stopper = x.stopper ∧ Next.Frame x x' eff := by
  cases h with
  | fire | denied | signal | granted =>
    exact ⟨rfl, rfl, ⟨rfl, rfl, fun _ => rfl, fun _ => rfl, fun _ => rfl, fun h => absurd rfl h⟩⟩
  | send hs =>
    have hf := hs.same
    exact ⟨hf.thread, hf.stopper, hf.job, hf.replaced, fun _ => hf.stopper,
      fun _ => hf.thread, fun _ => hf.tracked, fun h => absurd rfl h⟩
  | book =>
    refine ⟨rfl, rfl, rfl, rfl, fun _ => rfl, fun _ => rfl, fun h => ?_, fun _ => rfl⟩
    rw [bookAbandoned] at h
    split at h <;> cases h

theorem AbandonStep.timers {v : View} {x x' : ActiveJob ρ} {t : Taker} {reason : String}
    {pc pc' : AbandonPc} {r : Option Reply} {eff : Effect}
    (h : AbandonStep v x t reason pc r x' pc' eff) : SameTimers x x' := by
  cases h with
  | send hs => exact hs.timers
  | book => exact .of_cancel rfl rfl
  | _ => exact .of_eq rfl rfl

theorem Next.frame {v : View} {x x' : ActiveJob ρ} {a : JobAction ρ} {eff : Effect}
    (h : Next v x a x' eff) : Next.Frame x x' eff := by
  cases h with
  | pickUp ht | call ht | ends ht | denied ht | granted ht =>
    exact ⟨rfl, rfl, fun _ => rfl, fun h => absurd h (by simp [ht]), fun _ => rfl,
      fun h => absurd rfl h⟩
  | arm ht =>
    have hs : x.startJobTimeout.tracked = x.tracked ∧ x.startJobTimeout.job = x.job ∧
        x.startJobTimeout.replaced = x.replaced ∧ x.startJobTimeout.stopper = x.stopper := by
      rw [startJobTimeout]
      split <;> exact ⟨rfl, rfl, rfl, rfl⟩
    exact ⟨hs.2.1, hs.2.2.1, fun _ => hs.2.2.2, fun h => absurd h (by simp [ht]),
      fun _ => hs.1, fun h => absurd rfl h⟩
  | send ht hs =>
    have hf := hs.same
    exact ⟨hf.job, hf.replaced, fun _ => hf.stopper, fun h => absurd h (by simp [ht]),
      fun _ => hf.tracked, fun h => absurd rfl h⟩
  | cleanup ht =>
    refine ⟨rfl, rfl, fun _ => rfl, fun h => absurd h (by simp [ht]), fun h => ?_, fun _ => rfl⟩
    rw [cleanupJob] at h
    split at h <;> cases h
  | timeout hs =>
    obtain ⟨-, -, hf⟩ := hs.frame
    exact ⟨hf.job, hf.replaced, hf.stopper, hf.parked, hf.stays, hf.leaves⟩
  | stopper hs =>
    obtain ⟨-, -, hf⟩ := hs.frame
    refine ⟨hf.job, hf.replaced, fun h => ?_, hf.parked, hf.stays, hf.leaves⟩
    rcases h with h | h <;> rw [h] at hs <;> cases hs
  | beatFire | beatCheck | beatSend | beatOk | beatExpired | beatCrash | beatError
  | beatAlreadyLost | beatLost | beatReported | beatRearm =>
    exact ⟨rfl, rfl, fun _ => rfl, fun _ => rfl, fun _ => rfl, fun h => absurd rfl h⟩

end ActiveJob

namespace SpooledWorker

/-- The moves of the thread inside `start()`. -/
inductive MainStep (s : SpooledWorker ρ) : MainAction → SpooledWorker ρ → Prop
  | start (hm : s.main = .idle) (hs : s.state = .idle) : MainStep s .go
      { s with
        state := .starting, shutdownEvent := false, stoppedEvent := false
        intakeClosed := false, pollInFlight := 0, pollThread := false
        registeredWorkerId := none, main := .registering, log := s.log ++ [.register] }
  | register {id : String} (hm : s.main = .registering) : MainStep s (.registered id)
      { s with workerId := some id, registeredWorkerId := some id, main := .registered }
  | registerFailed (hm : s.main = .registering) : MainStep s .registerFailed
      { s with state := .error, main := .raised }
  | run (hm : s.main = .registered) : MainStep s .go
      { s with executor := .up, state := .running, main := .looping }
  | again (hm : s.main = .looping) (hs : s.state = .running) (he : s.shutdownEvent = false) :
      MainStep s .go { s with main := .locking }
  | leave {pc : MainPc} (hm : s.main = .looping) (hpc : pc = .waitStopped ∨ pc = .returned) :
      MainStep s .go { s with main := pc }
  | skip (hm : s.main = .locking) : MainStep s .go { s with main := .pausing }
  | poll {w : String} (hm : s.main = .locking) (hs : s.state = .running)
      (hw : truthy s.workerId = some w) (hn : s.availableSlots ≠ 0) : MainStep s .go
      { s with
        pollInFlight := s.pollInFlight + 1, pollThread := true
        main := .claiming w s.availableSlots }
  | claim {w : String} {n : ℕ} (hm : s.main = .claiming w n) : MainStep s .go
      { s with
        main := .claimWait n
        log := s.log ++ [.claim s.options.queueName w n s.options.leaseDuration]
        claimSends := s.claimSends + 1, resendsLeft := s.options.resends }
  | resend {n : ℕ} (hm : s.main = .claimWait n) (hn : s.resendsLeft ≠ 0) : MainStep s .resend
      { s with
        main := .claimWait n, claimSends := s.claimSends + 1, resendsLeft := s.resendsLeft - 1 }
  | claimed {n : ℕ} {js : List ClaimedJob} (hm : s.main = .claimWait n) : MainStep s (.claimed js)
      { s with
        jobs := s.jobs ++ js.map fun j => { job := j }
        main := .jobs (List.range' s.jobs.length js.length) }
  | claimFailed {n : ℕ} (hm : s.main = .claimWait n) : MainStep s .claimFailed
      { s with main := .finish }
  | done (hm : s.main = .jobs []) : MainStep s .go { s with main := .finish }
  | hold {e : ℕ} {todo : List ℕ} {x : ActiveJob ρ} (hm : s.main = .jobs (e :: todo))
      (hx : s.jobs[e]? = some x) (hi : s.intakeClosed = true) : MainStep s .go
      { s.setJob e { x with thread := .releasing } with main := .release e todo }
  | enter {e : ℕ} {todo : List ℕ} {x : ActiveJob ρ} (hm : s.main = .jobs (e :: todo))
      (hx : s.jobs[e]? = some x) (hi : s.intakeClosed = false) : MainStep s .go
      { s.register e x with main := .beat e todo }
  | unreleased {e : ℕ} {todo : List ℕ} {x : ActiveJob ρ} (hm : s.main = .release e todo)
      (hx : s.jobs[e]? = some x) (hw : s.releaseId = none) : MainStep s .go
      { s.setJob e { x with thread := .unreleased } with main := .jobs todo }
  | release {e : ℕ} {todo : List ℕ} {x : ActiveJob ρ} {w : String} (hm : s.main = .release e todo)
      (hx : s.jobs[e]? = some x) (hw : s.releaseId = some w) : MainStep s .go
      { s.setJob e { x with
          thread := .releaseSent w
          calls := x.calls ++ [ackCall x.job w (.fail unstartedClaimError)] } with
        main := .releaseWait e todo }
  | released {e : ℕ} {todo : List ℕ} {x : ActiveJob ρ} {ok : Bool}
      (hm : s.main = .releaseWait e todo) (hx : s.jobs[e]? = some x) :
      MainStep s (.releaseReply ok) (s.releaseReply e x todo ok)
  | schedule {e : ℕ} {todo : List ℕ} {x : ActiveJob ρ} (hm : s.main = .beat e todo)
      (hx : s.jobs[e]? = some x) : MainStep s .go
      { s.setJob e (s.scheduleJobHeartbeat e x) with main := .readExecutor e todo }
  | noExecutor {e : ℕ} {todo : List ℕ} (hm : s.main = .readExecutor e todo)
      (hx : s.executor = .absent) : MainStep s .go { s with main := .jobs todo }
  | executor {e : ℕ} {todo : List ℕ} (hm : s.main = .readExecutor e todo)
      (hx : s.executor ≠ .absent) : MainStep s .go { s with main := .submit e todo }
  | submit {e : ℕ} {todo : List ℕ} {x : ActiveJob ρ} (hm : s.main = .submit e todo)
      (hx : s.jobs[e]? = some x) (hu : s.executor = .up) : MainStep s .go
      { s.setJob e { x with thread := .queued } with main := .jobs todo }
  | refuse {e : ℕ} {todo : List ℕ} {x : ActiveJob ρ} (hm : s.main = .submit e todo)
      (hx : s.jobs[e]? = some x) (hu : s.executor = .down) : MainStep s .go
      { s with main := .discard e todo }
  | exiting {e : ℕ} {todo : List ℕ} {x : ActiveJob ρ} (hm : s.main = .submit e todo)
      (hx : s.jobs[e]? = some x) (hu : s.executor = .up) : MainStep s .refused
      { s with main := .discard e todo }
  | vanished {e : ℕ} {todo : List ℕ} {x : ActiveJob ρ} (hm : s.main = .submit e todo)
      (hx : s.jobs[e]? = some x) (hu : s.executor = .absent) : MainStep s .go
      { s with main := .finish }
  | discard {e : ℕ} {todo : List ℕ} {x : ActiveJob ρ} (hm : s.main = .discard e todo)
      (hx : s.jobs[e]? = some x) : MainStep s .go
      { s.apply e (x.cleanupJob .refused).1 (x.cleanupJob .refused).2 with main := .jobs todo }
  | finish (hm : s.main = .finish) : MainStep s .go s.pollFinally
  | pause (hm : s.main = .pausing) : MainStep s .go { s with main := .looping }
  | woken (hm : s.main = .waitStopped) (hs : s.stoppedEvent = true) : MainStep s .go
      { s with main := .returned }

private theorem mainStep_of_go {s s' : SpooledWorker ρ} (h : s.mainGo s.main = some s') :
    MainStep s .go s' := by
  cases hm : s.main <;> rw [hm] at h <;> simp only [mainGo] at h <;> try cases h
  case idle =>
    by_cases hs : s.state = .idle
    · rw [if_pos hs] at h
      cases h
      exact .start hm hs
    · rw [if_neg hs] at h
      cases h
  case registered => exact .run hm
  case looping =>
    split
    · rename_i hr
      exact .again hm hr.1 hr.2
    · split
      · exact .leave hm (.inl rfl)
      · exact .leave hm (.inr rfl)
  case locking =>
    rw [pollLock]
    split
    · exact .skip hm
    · rename_i hs
      split
      · exact .skip hm
      · rename_i hw
        split
        · exact .skip hm
        · rename_i hn
          exact .poll hm (by simpa using hs) hw hn
  case claiming => exact .claim hm
  case jobs todo =>
    cases todo with
    | nil => cases h; exact .done hm
    | cons e todo =>
      obtain ⟨x, hx, rfl⟩ := Option.map_eq_some_iff.mp h
      rw [processJob]
      split
      · rename_i hi
        exact .hold hm hx hi
      · rename_i hi
        exact .enter hm hx (by simpa using hi)
  case release e todo =>
    obtain ⟨x, hx, rfl⟩ := Option.map_eq_some_iff.mp h
    rw [releaseUnstartedJob]
    split
    · rename_i hw
      exact .unreleased hm hx hw
    · rename_i hw
      exact .release hm hx hw
  case beat e todo =>
    obtain ⟨x, hx, rfl⟩ := Option.map_eq_some_iff.mp h
    exact .schedule hm hx
  case readExecutor e todo =>
    split
    · rename_i hx
      exact .noExecutor hm hx
    · rename_i hx
      exact .executor hm hx
  case submit e todo =>
    obtain ⟨x, hx, rfl⟩ := Option.map_eq_some_iff.mp h
    rw [submit]
    split
    · rename_i hu
      exact .submit hm hx hu
    · rename_i hu
      exact .refuse hm hx hu
    · rename_i hu
      exact .vanished hm hx hu
  case discard e todo =>
    obtain ⟨x, hx, rfl⟩ := Option.map_eq_some_iff.mp h
    exact .discard hm hx
  case finish => exact .finish hm
  case pausing => exact .pause hm
  case waitStopped =>
    split at h
    · rename_i hs
      cases h
      exact .woken hm hs
    · cases h

/-- `mainStep` makes no other move, and none while a `stop()` runs on its thread. -/
theorem mainStep_of_eq {s s' : SpooledWorker ρ} {a : MainAction} (h : s.mainStep a = some s') :
    s.suspended = false ∧ MainStep s a s' := by
  unfold mainStep at h
  by_cases hs : s.suspended = true
  · rw [if_pos hs] at h
    cases h
  · rw [if_neg hs] at h
    refine ⟨by simpa using hs, ?_⟩
    cases a with
    | go => exact mainStep_of_go h
    | registered id =>
      cases hm : s.main <;> rw [hm] at h <;> cases h
      exact .register hm
    | registerFailed =>
      cases hm : s.main <;> rw [hm] at h <;> cases h
      exact .registerFailed hm
    | resend =>
      cases hm : s.main <;> rw [hm] at h <;> try cases h
      dsimp only at h
      split at h
      · cases h
      · rename_i hn
        cases h
        exact .resend hm hn
    | claimed js =>
      cases hm : s.main <;> rw [hm] at h <;> cases h
      exact .claimed hm
    | claimFailed =>
      cases hm : s.main <;> rw [hm] at h <;> cases h
      exact .claimFailed hm
    | releaseReply ok =>
      cases hm : s.main <;> rw [hm] at h <;> try cases h
      obtain ⟨x, hx, rfl⟩ := Option.map_eq_some_iff.mp h
      exact .released hm hx
    | refused =>
      cases hm : s.main <;> rw [hm] at h <;> try cases h
      dsimp only at h
      split at h
      · rename_i hu
        obtain ⟨x, hx, rfl⟩ := Option.map_eq_some_iff.mp h
        exact .exiting hm hx hu
      · cases h

/-- The moves of `stop()`. -/
inductive StopStep (s : SpooledWorker ρ) : StopAction → SpooledWorker ρ → Prop
  | call {onPoll : Bool} (hr : s.state = .running) (hs : s.stop = .idle) :
      StopStep s (.call onPoll)
        { s with state := .stopping, stop := .signal, stopOnPoll := onPoll }
  | ignored (hr : s.state ≠ .running) (hm : s.main ≠ .idle) :
      StopStep s .callIgnored { s with stopReturned := true }
  | signal (hs : s.stop = .signal) : StopStep s .go
      { s with shutdownEvent := true, stop := .awaitPoll }
  | waited (hs : s.stop = .awaitPoll)
      (hw : (s.stopOnPoll = true ∧ s.pollThread = true) ∨ s.pollInFlight = 0) :
      StopStep s .go { s with stop := .drain }
  | waitedLong (hs : s.stop = .awaitPoll) : StopStep s .deadline { s with stop := .drain }
  | close {a : StopAction} (hs : s.stop = .drain) : StopStep s a
      { s with intakeClosed := true, stop := .snapshot }
  | snapshot (hs : s.stop = .snapshot) : StopStep s .go
      { s with stop := .forceFail s.activeJobs.values }
  | forced (hs : s.stop = .forceFail []) : StopStep s .go { s with stop := .grace }
  | begin {e : ℕ} {todo : List ℕ} {x : ActiveJob ρ} (hs : s.stop = .forceFail (e :: todo))
      (hx : s.jobs[e]? = some x) : StopStep s .go
      { s.setJob e { x with stopper := .signal } with stop := .abandoning e todo }
  | abandoned {e : ℕ} {todo : List ℕ} {x : ActiveJob ρ} (hs : s.stop = .abandoning e todo)
      (hx : s.jobs[e]? = some x) (ho : x.stopper = .over) : StopStep s .go
      { s with stop := .forceFail todo }
  | settled {a : StopAction} (hs : s.stop = .grace) : StopStep s a { s with stop := .shutdown }
  | shutdown (hs : s.stop = .shutdown) : StopStep s .go
      { s with
        executor := if s.executor = .up then .down else s.executor
        stop := .clear }
  | clear (hs : s.stop = .clear) : StopStep s .go
      { s with executor := .absent, stop := .deregister }
  | deregister {w : String} (hs : s.stop = .deregister) (hw : truthy s.workerId = some w) :
      StopStep s .go { s with log := s.log ++ [.deregister w], stop := .deregisterWait }
  | noWorker (hs : s.stop = .deregister) : StopStep s .go { s with stop := .finishing }
  | deregistered (hs : s.stop = .deregisterWait) : StopStep s .go { s with stop := .finishing }
  | finishing (hs : s.stop = .finishing) : StopStep s .go { s with state := .stopped, stop := .clearId }
  | clearId (hs : s.stop = .clearId) : StopStep s .go { s with workerId := none, stop := .closing }
  | closing (hs : s.stop = .closing) : StopStep s .go
      { s with stoppedEvent := true, stopReturned := true, stop := .returned }

private theorem stopStep_of_go {s s' : SpooledWorker ρ} (h : s.stopGo s.stop = some s') :
    StopStep s .go s' := by
  cases hs : s.stop <;> rw [hs] at h <;> simp only [stopGo] at h <;> try cases h
  case signal => exact .signal hs
  case awaitPoll =>
    split at h
    · rename_i hw
      cases h
      exact .waited hs hw
    · cases h
  case drain =>
    split at h
    · cases h
      exact .close hs
    · cases h
  case snapshot => exact .snapshot hs
  case forceFail todo =>
    cases todo with
    | nil => cases h; exact .forced hs
    | cons e todo =>
      obtain ⟨x, hx, rfl⟩ := Option.map_eq_some_iff.mp h
      exact .begin hs hx
  case abandoning e todo =>
    obtain ⟨x, hx, h⟩ := Option.bind_eq_some_iff.mp h
    split at h
    · rename_i ho
      cases h
      exact .abandoned hs hx ho
    · cases h
  case grace =>
    split at h
    · cases h
      exact .settled hs
    · cases h
  case shutdown => exact .shutdown hs
  case clear => exact .clear hs
  case deregister =>
    split at h
    · rename_i hw
      cases h
      exact .deregister hs hw
    · cases h
      exact .noWorker hs
  case deregisterWait => exact .deregistered hs
  case finishing => exact .finishing hs
  case clearId => exact .clearId hs
  case closing => exact .closing hs

/-- `stopStep` makes no other move. -/
theorem stopStep_of_eq {s s' : SpooledWorker ρ} {a : StopAction} (h : s.stopStep a = some s') :
    StopStep s a s' := by
  cases a with
  | call onPoll =>
    rw [stopStep] at h
    split at h
    · rename_i hc
      cases h
      exact .call hc.1 hc.2
    · cases h
  | callIgnored =>
    rw [stopStep] at h
    split at h
    · rename_i hc
      cases h
      exact .ignored hc.1 hc.2
    · cases h
  | go => exact stopStep_of_go h
  | deadline =>
    unfold stopStep at h
    cases hs : s.stop <;> rw [hs] at h <;> cases h
    · exact .waitedLong hs
    · exact .close hs
    · exact .settled hs

/-! ### A step of the worker -/

theorem main_of_step {s s' : SpooledWorker ρ} {a : MainAction} (h : s.step (.main a) = some s') :
    MainStep s a s' := (mainStep_of_eq h).2

theorem go_of_step {s s' : SpooledWorker ρ} (h : s.step (.main .go) = some s') :
    s.mainGo s.main = some s' := by
  replace h : s.mainStep .go = some s' := h
  unfold mainStep at h
  split at h
  · cases h
  · exact h

theorem stop_of_step {s s' : SpooledWorker ρ} {a : StopAction} (h : s.step (.stop a) = some s') :
    StopStep s a s' := stopStep_of_eq h

theorem job_of_step {s s' : SpooledWorker ρ} {e : ℕ} {a : JobAction ρ}
    (h : s.step (.job e a) = some s') : ∃ x x' eff, s.jobs[e]? = some x ∧
      ActiveJob.Next (s.view e x) x a x' eff ∧ s' = s.apply e x' eff := by
  obtain ⟨x, hx, hs⟩ := Option.bind_eq_some_iff.mp h
  obtain ⟨⟨x', eff⟩, hnext, rfl⟩ := Option.map_eq_some_iff.mp hs
  exact ⟨x, x', eff, hx, ActiveJob.next_of_step hnext, rfl⟩

end SpooledWorker

end SpooledSdk.Worker.Sync
