/-
What one step of the asynchronous worker can do.

Each relation lists the moves of one task with their guards, and one lemma says that the
step function makes no other.  Every later invariant is a case analysis on these
relations and never unfolds the step function:

* `ActiveJob.Next`, `ActiveJob.next_of_step` — the tasks of one execution;
* `MainStep`, `StopStep` — `start()` and `stop()`;
* `job_of_step`, `main_of_step`, `stop_of_step`, `run_of_step` — the steps of the worker.
-/
import SpooledSdk.Worker.Async

namespace SpooledSdk.Worker.Async

variable {ρ : Type}

namespace ActiveJob

/-- The moves of `_complete_job` and `_send_fail` past the settlement. -/
inductive SendStep (x : ActiveJob ρ) (a : Ack ρ) (w : String) :
    SendPc → Option Reply → ActiveJob ρ → Option SendPc → Prop
  | passed (h : x.leaseLost = false) : SendStep x a w .check none x (some .send)
  | stopped (h : x.leaseLost = true) : SendStep x a w .check none x none
  | sent : SendStep x a w .send none { x with calls := x.calls ++ [ackCall x.job w a] }
      (some .wait)
  | accepted {r : Reply} (h : verdict a r = .accepted) :
      SendStep x a w .wait (some r) (x.emit (ackEvent x.job a)) none
  | expired {r : Reply} (h : verdict a r = .expired) :
      SendStep x a w .wait (some r) x (some .lose)
  | rejected {r : Reply} (h : verdict a r = .rejected) :
      SendStep x a w .wait (some r) (x.emit .error) none
  | alreadyLost (h : x.leaseLost = true) : SendStep x a w .lose none x none
  | lost (h : x.leaseLost = false) :
      SendStep x a w .lose none { x with leaseLost := true } (some .report)
  | reported : SendStep x a w .report none (x.reportLost (ackOperation a)) none

theorem sendStep_of_eq {x x' : ActiveJob ρ} {a : Ack ρ} {w : String} {pc : SendPc}
    {r : Option Reply} {pc' : Option SendPc} (h : x.sendStep a w pc r = some (x', pc')) :
    SendStep x a w pc r x' pc' := by
  cases pc <;> cases r <;> simp only [sendStep] at h <;> try cases h
  case check.none =>
    by_cases hl : x.leaseLost = true
    · rw [if_pos hl]
      exact .stopped hl
    · rw [if_neg hl]
      exact .passed (by simpa using hl)
  case send.none => exact .sent
  case wait.some r =>
    cases hv : verdict a r <;> rw [hv] at h <;> cases h
    · exact .accepted hv
    · exact .expired hv
    · exact .rejected hv
  case lose.none =>
    by_cases hl : x.leaseLost = true
    · rw [if_pos hl] at h
      cases h
      exact .alreadyLost hl
    · rw [if_neg hl] at h
      cases h
      exact .lost (by simpa using hl)
  case report.none => exact .reported

/-- The guard of `_claim_settlement`. -/
structure MayAck (v : View) (x : ActiveJob ρ) (w : String) : Prop where
  notLost : x.leaseLost = false
  notSettled : x.settled = none
  entry : v.entry = true
  workerId : truthy v.workerId = some w

theorem mayAck_of_claimSettlement {v : View} {x : ActiveJob ρ} {w : String}
    (h : x.claimSettlement v = some w) : MayAck v x w := by
  rw [claimSettlement] at h
  split at h
  · cases h
  · rename_i hg
    simp only [Bool.or_eq_true, Bool.not_eq_true', not_or, Bool.not_eq_true,
      Bool.not_eq_false, Option.isSome_eq_false_iff, Option.isNone_iff_eq_none] at hg
    exact ⟨hg.1.1, hg.1.2, hg.2, h⟩

/-- What a suspended task waits for. -/
inductive Awaits (x : ActiveJob ρ) : Kind → Wake → Prop
  | reply {a : Ack ρ} {w : String} {r : Reply} (h : x.proc = .sending a w .wait) :
      Awaits x .proc (.reply r)
  | timer (h : x.proc = .waiting) : Awaits x .proc .timer
  | inner {o : Outcome ρ} (h : x.proc = .waiting) (hi : x.inner = .finished o) :
      Awaits x .proc .completed
  | beat (h : x.proc = .closing) (hb : x.beat.alive = false) : Awaits x .proc .completed
  | user (h : x.proc = .handler) : Awaits x .proc .user
  | innerUser (h : x.inner = .running) : Awaits x .inner .user
  | beatTimer (h : x.beat = .sleeping) : Awaits x .beat .timer
  | beatReply {w : String} {r : Reply} (h : x.beat = .asking w) : Awaits x .beat (.reply r)
  | stopReply {w : String} {r : Reply} (h : x.stopper = .sending w .wait) :
      Awaits x .stop (.reply r)
  | stopBeat (h : x.stopper = .closing) (hb : x.beat.alive = false) : Awaits x .stop .completed

theorem awaits_of_eq {x : ActiveJob ρ} {k : Kind} {w : Wake} (h : x.awaits k w = true) :
    Awaits x k w := by
  unfold awaits at h
  split at h
  case h_1 =>
    split at h
    · exact .reply ‹_›
    · cases h
  case h_2 =>
    split at h
    · exact .timer ‹_›
    · cases h
  case h_3 =>
    rw [Bool.or_eq_true, Bool.and_eq_true, Bool.and_eq_true, Bool.not_eq_true'] at h
    rcases h with ⟨hp, hi⟩ | ⟨hp, hb⟩
    · split at hp
      · split at hi
        · exact .inner ‹_› ‹_›
        · cases hi
      · cases hp
    · split at hp
      · exact .beat ‹_› hb
      · cases hp
  case h_4 =>
    split at h
    · exact .user ‹_›
    · cases h
  case h_5 =>
    split at h
    · exact .innerUser ‹_›
    · cases h
  case h_6 =>
    split at h
    · exact .beatTimer ‹_›
    · cases h
  case h_7 =>
    split at h
    · exact .beatReply ‹_›
    · cases h
  case h_8 =>
    split at h
    · exact .stopReply ‹_›
    · cases h
  case h_9 =>
    rw [Bool.and_eq_true, Bool.not_eq_true'] at h
    obtain ⟨hp, hb⟩ := h
    split at hp
    · exact .stopBeat ‹_› hb
    · cases hp
  case h_10 => cases h

/-- The moves of the tasks of one execution. -/
inductive Next (v : View) (x : ActiveJob ρ) : JobAction ρ → ActiveJob ρ → Effect → Prop
  | never (h : x.proc = .created) (hw : x.procWake = some .cancelled) : Next v x (.go .proc)
      { x with proc := .done, procWake := none } { yields := true }
  | startInner {w : Wake} (h : x.proc = .created) (hw : x.procWake = some w) (hc : w ≠ .cancelled)
      (ht : 0 < x.job.timeoutSeconds) : Next v x (.go .proc)
      { x.started with proc := .waiting, inner := .created, innerWake := some .start }
      { wakes := [.beat, .inner], yields := true }
  | startDirect {w : Wake} (h : x.proc = .created) (hw : x.procWake = some w)
      (hc : w ≠ .cancelled) (ht : ¬ 0 < x.job.timeoutSeconds) : Next v x (.go .proc)
      { x.started with proc := .handler } { wakes := [.beat] }
  | waitCancelled (h : x.proc = .waiting) (hw : x.procWake = some .cancelled) :
      Next v x (.go .proc)
      { { x with procWake := none }.cancelInner.1 with proc := x.afterCancel }
      { wakes := { x with procWake := none }.cancelInner.2 }
  | waitDone {w : Wake} {o : Outcome ρ} (h : x.proc = .waiting) (hw : x.procWake = some w)
      (hc : w ≠ .cancelled) (hi : x.inner = .finished o) : Next v x (.go .proc)
      { x with procWake := none, proc := x.afterHandler o } {}
  | waitTimeout {w : Wake} (h : x.proc = .waiting) (hw : x.procWake = some w)
      (hc : w ≠ .cancelled) (hi : ∀ o, x.inner ≠ .finished o) : Next v x (.go .proc)
      { { x with procWake := none }.cancelInner.1 with
        abortEvent := true, timedOut := true, proc := .settling (.fail jobTimeoutError) }
      { wakes := { x with procWake := none }.cancelInner.2 }
  | denied {a : Ack ρ} (h : x.proc = .settling a) (hc : x.claimSettlement v = none) :
      Next v x (.go .proc) { x with proc := .cleanup } {}
  | granted {a : Ack ρ} {w : String} (h : x.proc = .settling a) (hc : MayAck v x w) :
      Next v x (.go .proc) { x.settle .runner a with proc := .sending a w .check } {}
  | cut {a : Ack ρ} {w : String} (h : x.proc = .sending a w .wait)
      (hw : x.procWake = some .cancelled) : Next v x (.go .proc)
      { x with proc := .cleanup, procWake := none } {}
  | replied {a : Ack ρ} {w : String} {r : Reply} {y : ActiveJob ρ} {q : Option SendPc}
      (h : x.proc = .sending a w .wait) (hw : x.procWake = some (.reply r))
      (hs : SendStep x a w .wait (some r) y q) : Next v x (.go .proc)
      { y with proc := q.elim .cleanup (.sending a w), procWake := none } {}
  | reported {a : Ack ρ} {w : String} (h : x.proc = .sending a w .report) : Next v x (.go .proc)
      { (x.reportLost (ackOperation a)).cancelBeat.1 with proc := .cleanup }
      { wakes := (x.reportLost (ackOperation a)).cancelBeat.2 }
  | send {a : Ack ρ} {w : String} {pc : SendPc} {y : ActiveJob ρ} {q : Option SendPc}
      (h : x.proc = .sending a w pc) (hr : pc ≠ .report) (hs : SendStep x a w pc none y q) :
      Next v x (.go .proc) { y with proc := q.elim .cleanup (.sending a w) }
      { yields := pc = .send }
  | cleanup (h : x.proc = .cleanup) : Next v x (.go .proc)
      { x.cleanupJob.1 with proc := if x.beat.alive then .closing else .done }
      { leave := true, wakes := x.cleanupJob.2, yields := true }
  | closed {w : Wake} (h : x.proc = .closing) (hw : x.procWake = some w) : Next v x (.go .proc)
      { x with proc := .done, procWake := none } { yields := true }
  | innerNever (h : x.inner = .created) (hw : x.innerWake = some .cancelled) :
      Next v x (.go .inner)
      { x with inner := .finished (.raised .cancelledError), innerWake := none } { yields := true }
  | innerStart {w : Wake} (h : x.inner = .created) (hw : x.innerWake = some w)
      (hc : w ≠ .cancelled) : Next v x (.go .inner)
      { x with inner := .running, innerWake := none } {}
  | beatCancelled (h : x.beat = .created ∨ x.beat = .sleeping ∨ ∃ w, x.beat = .asking w)
      (hw : x.beatWake = some .cancelled) : Next v x (.go .beat)
      { x with beatWake := none, beat := .done } { yields := true }
  | beatStart {w : Wake} (h : x.beat = .created) (hw : x.beatWake = some w)
      (hc : w ≠ .cancelled) : Next v x (.go .beat)
      { x with beatWake := none, beat := .sleeping } { yields := true }
  | beatTimer {w : Wake} (h : x.beat = .sleeping) (hw : x.beatWake = some w)
      (hc : w ≠ .cancelled) : Next v x (.go .beat)
      { x with beatWake := none, beat := (x.beats v).elim .done .asking } { yields := true }
  | beatOk {w : String} (h : x.beat = .asking w) (hw : x.beatWake = some (.reply .ok)) :
      Next v x (.go .beat) { x with beatWake := none, beat := .sleeping } { yields := true }
  | beatExpired {w : String} (h : x.beat = .asking w)
      (hw : x.beatWake = some (.reply .leaseExpired)) : Next v x (.go .beat)
      { x with beatWake := none, beat := .lose } {}
  | beatCrash {w : String} (h : x.beat = .asking w)
      (hw : x.beatWake = some (.reply .nonStringCode)) : Next v x (.go .beat)
      { x with beatWake := none, beat := .crashed } { yields := true }
  | beatError {w : String} {r : Reply} (h : x.beat = .asking w)
      (hw : x.beatWake = some (.reply r)) : Next v x (.go .beat)
      ({ x with beatWake := none, beat := .sleeping }.emit .error) { yields := true }
  | beatAlreadyLost (h : x.beat = .lose) (hl : x.leaseLost = true) : Next v x (.go .beat)
      { x with beat := .done } { yields := true }
  | beatLost (h : x.beat = .lose) (hl : x.leaseLost = false) : Next v x (.go .beat)
      { x with leaseLost := true, beat := .report } {}
  | beatReported (h : x.beat = .report) : Next v x (.go .beat)
      { (x.reportLost "heartbeat").cancelProc.1 with beat := .done }
      { wakes := (x.reportLost "heartbeat").cancelProc.2, yields := true }
  | stopDenied (h : x.stopper = .settling) (hc : x.claimSettlement v = none) :
      Next v x (.go .stop) { x with stopper := .cleanup } {}
  | stopGranted {w : String} (h : x.stopper = .settling) (hc : MayAck v x w) :
      Next v x (.go .stop)
      { x.settle .stopper (.fail shutdownTimeoutError) with stopper := .sending w .check } {}
  | stopReplied {w : String} {r : Reply} {y : ActiveJob ρ} {q : Option SendPc}
      (h : x.stopper = .sending w .wait) (hw : x.stopperWake = some (.reply r))
      (hs : SendStep x (.fail shutdownTimeoutError) w .wait (some r) y q) : Next v x (.go .stop)
      { y with stopper := q.elim .cleanup (.sending w), stopperWake := none } {}
  | stopReported {w : String} (h : x.stopper = .sending w .report) : Next v x (.go .stop)
      { (x.reportLost "fail").cancelBeat.1.cancelProc.1 with stopper := .cleanup }
      { wakes := (x.reportLost "fail").cancelBeat.2 ++
          (x.reportLost "fail").cancelBeat.1.cancelProc.2 }
  | stopSend {w : String} {pc : SendPc} {y : ActiveJob ρ} {q : Option SendPc}
      (h : x.stopper = .sending w pc) (hr : pc ≠ .report)
      (hs : SendStep x (.fail shutdownTimeoutError) w pc none y q) : Next v x (.go .stop)
      { y with stopper := q.elim .cleanup (.sending w) } { yields := pc = .send }
  | stopCleanup (h : x.stopper = .cleanup) : Next v x (.go .stop)
      { x.cleanupJob.1 with stopper := if x.beat.alive then .closing else x.awaitedBeat }
      { leave := true, wakes := x.cleanupJob.2, yields := x.beat.alive }
  | stopClosed {w : Wake} (h : x.stopper = .closing) (hw : x.stopperWake = some w) :
      Next v x (.go .stop) { x with stopper := x.awaitedBeat, stopperWake := none } {}
  | awaits (h : x.proc = .handler) : Next v x (.handler .proc none)
      { x with procWake := none } { yields := true }
  | ends {o : Outcome ρ} (h : x.proc = .handler) : Next v x (.handler .proc (some o))
      { x with procWake := none, proc := x.afterHandler o } {}
  | innerAwaits (h : x.inner = .running) : Next v x (.handler .inner none)
      { x with innerWake := none } { yields := true }
  | innerEnds {o : Outcome ρ} (h : x.inner = .running) : Next v x (.handler .inner (some o))
      { x with innerWake := none, inner := .finished o } { yields := true }
  | woken {k : Kind} {w : Wake} (h : Awaits x k w) (hn : x.pending k = none) :
      Next v x (.wake k w) (x.setWake w k) { wakes := [k] }

private theorem next_of_procStep {v : View} {x x' : ActiveJob ρ} {eff : Effect}
    (h : x.procStep v = some (x', eff)) : Next v x (.go .proc) x' eff := by
  unfold procStep at h
  split at h
  case h_1 hp hw => cases h; exact .never hp hw
  case h_2 w hc hp hw =>
    replace h := Option.some.inj h
    rw [startProc] at h
    split at h
    · rename_i ht
      cases h
      exact .startInner hp hw hc ht
    · rename_i ht
      cases h
      exact .startDirect hp hw hc ht
  case h_3 w hp hw =>
    replace h := Option.some.inj h
    unfold endWait at h
    split at h
    · cases h
      exact .waitCancelled hp hw
    · rename_i o hc hi
      cases h
      exact .waitDone hp hw hc hi
    · rename_i hc hi
      cases h
      exact .waitTimeout hp hw hc hi
  case h_4 a hp =>
    cases hc : x.claimSettlement v with
    | none => rw [hc] at h; cases h; exact .denied hp hc
    | some w => rw [hc] at h; cases h; exact .granted hp (mayAck_of_claimSettlement hc)
  case h_5 a w hp hw => cases h; exact .cut hp hw
  case h_6 a w r hp hw =>
    obtain ⟨⟨y, q⟩, hs, hp'⟩ := Option.map_eq_some_iff.mp h
    cases hp'
    exact .replied hp hw (sendStep_of_eq hs)
  case h_7 a w hp hw =>
    obtain ⟨⟨y, q⟩, hs, hp'⟩ := Option.map_eq_some_iff.mp h
    cases hp'
    cases sendStep_of_eq hs
    exact .reported hp
  case h_8 a w pc hr hp hw =>
    obtain ⟨⟨y, q⟩, hs, hp'⟩ := Option.map_eq_some_iff.mp h
    cases hp'
    exact .send hp hr (sendStep_of_eq hs)
  case h_9 hp => cases h; exact .cleanup hp
  case h_10 w hp hw => cases h; exact .closed hp hw
  case h_11 => cases h

private theorem next_of_innerStep {v : View} {x x' : ActiveJob ρ} {eff : Effect}
    (h : x.innerStep = some (x', eff)) : Next v x (.go .inner) x' eff := by
  unfold innerStep at h
  split at h
  case h_1 hp hw => cases h; exact .innerNever hp hw
  case h_2 w hc hp hw => cases h; exact .innerStart hp hw hc
  case h_3 => cases h

private theorem next_of_beatStep {v : View} {x x' : ActiveJob ρ} {eff : Effect}
    (h : x.beatStep v = some (x', eff)) : Next v x (.go .beat) x' eff := by
  unfold beatStep at h
  split at h
  case h_1 hb hw => cases h; exact .beatCancelled (.inl hb) hw
  case h_2 hb hw => cases h; exact .beatCancelled (.inr (.inl hb)) hw
  case h_3 w hb hw => cases h; exact .beatCancelled (.inr (.inr ⟨w, hb⟩)) hw
  case h_4 w hc hb hw => cases h; exact .beatStart hb hw hc
  case h_5 w hc hb hw => cases h; exact .beatTimer hb hw hc
  case h_6 w hb hw => cases h; exact .beatOk hb hw
  case h_7 w hb hw => cases h; exact .beatExpired hb hw
  case h_8 w hb hw => cases h; exact .beatCrash hb hw
  case h_9 => cases h; exact .beatError ‹_› ‹_›
  case h_10 hb =>
    by_cases hl : x.leaseLost = true
    · rw [if_pos hl] at h
      cases h
      exact .beatAlreadyLost hb hl
    · rw [if_neg hl] at h
      cases h
      exact .beatLost hb (by simpa using hl)
  case h_11 hb => cases h; exact .beatReported hb
  case h_12 => cases h

private theorem next_of_stopperStep {v : View} {x x' : ActiveJob ρ} {eff : Effect}
    (h : x.stopperStep v = some (x', eff)) : Next v x (.go .stop) x' eff := by
  unfold stopperStep at h
  split at h
  case h_1 hp =>
    cases hc : x.claimSettlement v with
    | none => rw [hc] at h; cases h; exact .stopDenied hp hc
    | some w => rw [hc] at h; cases h; exact .stopGranted hp (mayAck_of_claimSettlement hc)
  case h_2 w r hp hw =>
    obtain ⟨⟨y, q⟩, hs, hp'⟩ := Option.map_eq_some_iff.mp h
    cases hp'
    exact .stopReplied hp hw (sendStep_of_eq hs)
  case h_3 w hp hw =>
    obtain ⟨⟨y, q⟩, hs, hp'⟩ := Option.map_eq_some_iff.mp h
    cases hp'
    cases sendStep_of_eq hs
    exact .stopReported hp
  case h_4 w pc hr hp hw =>
    obtain ⟨⟨y, q⟩, hs, hp'⟩ := Option.map_eq_some_iff.mp h
    cases hp'
    exact .stopSend hp hr (sendStep_of_eq hs)
  case h_5 hp => cases h; exact .stopCleanup hp
  case h_6 w hp hw => cases h; exact .stopClosed hp hw
  case h_7 => cases h

private theorem next_of_handlerStep {v : View} {x x' : ActiveJob ρ} {k : Kind}
    {o : Option (Outcome ρ)} {eff : Effect} (h : x.handlerStep k o = some (x', eff)) :
    Next v x (.handler k o) x' eff := by
  unfold handlerStep at h
  split at h
  case h_1 hp => cases h; exact .awaits hp
  case h_2 o hp => cases h; exact .ends hp
  case h_3 hi => cases h; exact .innerAwaits hi
  case h_4 o hi => cases h; exact .innerEnds hi
  case h_5 => cases h

/-- `ActiveJob.step` makes no other move. -/
theorem next_of_step {v : View} {x x' : ActiveJob ρ} {a : JobAction ρ} {eff : Effect}
    (h : x.step v a = some (x', eff)) : Next v x a x' eff := by
  cases a with
  | go k =>
    cases k with
    | proc => exact next_of_procStep h
    | inner => exact next_of_innerStep h
    | beat => exact next_of_beatStep h
    | stop => exact next_of_stopperStep h
  | handler k o => exact next_of_handlerStep h
  | wake k w =>
    replace h : x.wakeStep k w = some (x', eff) := h
    rw [wakeStep] at h
    split at h
    · rename_i hg
      cases h
      rw [Bool.and_eq_true, Option.isNone_iff_eq_none] at hg
      exact .woken (awaits_of_eq hg.1) hg.2
    · cases h

end ActiveJob

namespace SpooledWorker

/-- The moves of the task inside `start()`. -/
inductive MainStep (s : SpooledWorker ρ) : MainAction → SpooledWorker ρ → Prop
  | start (hc : s.current = none) (hm : s.main = .idle) (hs : s.state = .idle) :
      MainStep s .start
      { s with
        state := .starting, shutdownEvent := false, stoppedEvent := false
        intakeClosed := false, claimInflight := false, registeredWorkerId := none
        main := .registering, log := s.log ++ [.register] }
  | answered {id : String} (hc : s.current = none) (hm : s.main = .registering) :
      MainStep s (.registered id) { s.schedule .main with main := .registered id }
  | refused (hc : s.current = none) (hm : s.main = .registering) :
      MainStep s .registerFailed { s.schedule .main with main := .registerFailed }
  | register {id : String} (hc : s.current = some .main) (hm : s.main = .registered id) :
      MainStep s .go
      { s with
        workerId := some id, registeredWorkerId := some id, state := .running, main := .polling }
  | registerFailed (hc : s.current = some .main) (hm : s.main = .registerFailed) :
      MainStep s .go { s.suspend with state := .error, main := .raised }
  | skip (hc : s.current = some .main) (hm : s.main = .polling) :
      MainStep s .go { s.suspend with main := .pausing }
  | leave {pc : MainPc} (hc : s.current = some .main) (hm : s.main = .polling)
      (hs : s.state ≠ .running) (hpc : pc = .waitStopped ∨ pc = .returned) :
      MainStep s .go { s.suspend with main := pc }
  | poll {w : String} (hc : s.current = some .main) (hm : s.main = .polling)
      (hs : s.state = .running) (hw : truthy s.workerId = some w) (hn : s.availableSlots ≠ 0) :
      MainStep s .go
      { s.suspend with
        claimInflight := true
        main := .claimWait s.availableSlots
        log := s.log ++ [.claim s.options.queueName w s.availableSlots s.options.leaseDuration]
        sendsLeft := s.options.sends }
  | send {n : ℕ} (hc : s.current = none) (hm : s.main = .claimWait n) (hn : s.sendsLeft ≠ 0) :
      MainStep s .send
      { s with
        main := .claimWait n, claimSends := s.claimSends + 1, sendsLeft := s.sendsLeft - 1 }
  | claimed {n : ℕ} {js : List ClaimedJob} (hc : s.current = none) (hm : s.main = .claimWait n) :
      MainStep s (.claimed js)
      { s.schedule .main with
        jobs := s.jobs ++ js.map fun j => { job := j }
        main := .jobs (List.range' s.jobs.length js.length) }
  | claimFailed {n : ℕ} (hc : s.current = none) (hm : s.main = .claimWait n) :
      MainStep s .claimFailed { s.schedule .main with main := .finish }
  | last (hc : s.current = some .main) (hm : s.main = .jobs []) :
      MainStep s .go { s with main := .finish }
  | unreleased {e : ℕ} {todo : List ℕ} {x : ActiveJob ρ} (hc : s.current = some .main)
      (hm : s.main = .jobs (e :: todo)) (hx : s.jobs[e]? = some x) (hi : s.intakeClosed = true)
      (hw : s.releaseId = none) : MainStep s .go
      { s.setJob e { x with proc := .unreleased } with main := .jobs todo }
  | release {e : ℕ} {todo : List ℕ} {x : ActiveJob ρ} {w : String} (hc : s.current = some .main)
      (hm : s.main = .jobs (e :: todo)) (hx : s.jobs[e]? = some x) (hi : s.intakeClosed = true)
      (hw : s.releaseId = some w) : MainStep s .go
      { (s.setJob e { x with
          proc := .releaseSent w
          calls := x.calls ++ [ackCall x.job w (.fail unstartedClaimError)] }).suspend with
        main := .releaseWait e todo }
  | enter {e : ℕ} {todo : List ℕ} {x : ActiveJob ρ} (hc : s.current = some .main)
      (hm : s.main = .jobs (e :: todo)) (hx : s.jobs[e]? = some x) (hi : s.intakeClosed = false) :
      MainStep s .go { s.registerJob e x with main := .jobs todo }
  | releaseReplied {e : ℕ} {todo : List ℕ} {ok : Bool} (hc : s.current = none)
      (hm : s.main = .releaseWait e todo) :
      MainStep s (.releaseReply ok) { s.schedule .main with main := .releaseDone e todo ok }
  | released {e : ℕ} {todo : List ℕ} {ok : Bool} {x : ActiveJob ρ} (hc : s.current = some .main)
      (hm : s.main = .releaseDone e todo ok) (hx : s.jobs[e]? = some x) :
      MainStep s .go (s.releaseReply e x todo ok)
  | finish (hc : s.current = some .main) (hm : s.main = .finish) : MainStep s .go
      { s.suspend with claimInflight := false, main := .pausing }
  | resume (hc : s.current = none) (hm : s.main = .pausing) :
      MainStep s .wake { s.schedule .main with main := .polling }
  | woken (hc : s.current = none) (hm : s.main = .waitStopped) (hs : s.stoppedEvent = true) :
      MainStep s .wake { s.schedule .main with main := .leaving }
  | left (hc : s.current = some .main) (hm : s.main = .leaving) :
      MainStep s .go { s.suspend with main := .returned }

private theorem mainStep_of_go {s s' : SpooledWorker ρ} (hc : s.current = some .main)
    (h : s.mainGo s.main = some s') : MainStep s .go s' := by
  cases hm : s.main <;> rw [hm] at h <;> simp only [mainGo] at h <;> try cases h
  case registered id => exact .register hc hm
  case registerFailed => exact .registerFailed hc hm
  case polling =>
    rw [poll]
    split
    · rename_i hs
      split
      · exact .skip hc hm
      · rename_i hw
        split
        · exact .skip hc hm
        · rename_i hn
          exact .poll hc hm hs hw hn
    · rename_i hs
      split
      · exact .leave hc hm hs (.inl rfl)
      · exact .leave hc hm hs (.inr rfl)
  case jobs todo =>
    cases todo with
    | nil => cases h; exact .last hc hm
    | cons e todo =>
      obtain ⟨x, hx, rfl⟩ := Option.map_eq_some_iff.mp h
      rw [claimedJob]
      split
      · rename_i hi
        rw [releaseUnstartedJob]
        split
        · rename_i hw
          exact .unreleased hc hm hx hi hw
        · rename_i hw
          exact .release hc hm hx hi hw
      · rename_i hi
        exact .enter hc hm hx (by simpa using hi)
  case releaseDone e todo ok =>
    obtain ⟨x, hx, rfl⟩ := Option.map_eq_some_iff.mp h
    exact .released hc hm hx
  case finish => exact .finish hc hm
  case leaving => exact .left hc hm

private theorem mainStep_of_eq {s s' : SpooledWorker ρ} {a : MainAction}
    (h : s.mainStep a = some s') : MainStep s a s' := by
  unfold mainStep at h
  split at h
  · split at h
    · rename_i hc
      exact mainStep_of_go hc h
    · cases h
  · split at h
    · rename_i hc
      split at h
      · rename_i hm _
        split at h
        · rename_i hs
          cases h
          exact .start hc hm hs
        · cases h
      · rename_i hm _
        cases h
        exact .answered hc hm
      · rename_i hm _
        cases h
        exact .refused hc hm
      · rename_i hm _
        split at h
        · cases h
        · rename_i hn
          cases h
          simpa only [hm] using MainStep.send hc hm hn
      · rename_i hm _
        cases h
        exact .claimed hc hm
      · rename_i hm _
        cases h
        exact .claimFailed hc hm
      · rename_i hm _
        cases h
        exact .releaseReplied hc hm
      · rename_i hm _
        cases h
        exact .resume hc hm
      · rename_i hm _
        split at h
        · rename_i hs
          cases h
          exact .woken hc hm hs
        · cases h
      · cases h
    · cases h

/-- The moves of `stop()`. -/
inductive StopStep (s : SpooledWorker ρ) : StopAction → SpooledWorker ρ → Prop
  | callInflight (hc : s.current = none) (hr : s.state = .running) (hs : s.stop = .idle) :
      StopStep s .call { s with state := .stopping, shutdownEvent := true, stop := .inflight }
  | call (hc : s.current = none) (hr : s.state = .running) (hs : s.stop = .idle) :
      StopStep s .call
      { s with state := .stopping, shutdownEvent := true, stop := .drain, current := some .stop }
  | ignored (hc : s.current = none) (hr : s.state ≠ .running) (hm : s.main ≠ .idle) :
      StopStep s .callIgnored { s with stopReturned := true }
  | woken {pc : StopPc} (hc : s.current = none) (hs : s.stop.woken = some pc) :
      StopStep s .wake { s.schedule .stop with stop := pc }
  | wait (hc : s.current = some .stop) (hs : s.stop = .drain) :
      StopStep s .go { s.suspend with stop := .drainWait }
  | close {a : StopAction} (hc : s.current = some .stop) (hs : s.stop = .drain) :
      StopStep s a s.closeIntake
  | forced (hc : s.current = some .stop) (hs : s.stop = .forceFail [])
      (hr : s.jobsRunning = true) : StopStep s .go { s.suspend with stop := .grace }
  | forcedAll (hc : s.current = some .stop) (hs : s.stop = .forceFail [])
      (hr : s.jobsRunning = false) : StopStep s .go { s with stop := .abandonStart }
  | force {e : ℕ} {todo : List ℕ} {x : ActiveJob ρ} (hc : s.current = some .stop)
      (hs : s.stop = .forceFail (e :: todo)) (hx : s.jobs[e]? = some x) : StopStep s .go
      { s.apply e x.forceFail.1 { wakes := x.forceFail.2 } with stop := .forceFail todo }
  | snapshot (hc : s.current = some .stop) (hs : s.stop = .abandonStart) : StopStep s .go
      { s with stop := .abandon s.activeJobs.values }
  | abandoned (hc : s.current = some .stop) (hs : s.stop = .abandon []) :
      StopStep s .go { s.suspend with stop := .beatWait }
  | begin {e : ℕ} {todo : List ℕ} {x : ActiveJob ρ} (hc : s.current = some .stop)
      (hs : s.stop = .abandon (e :: todo)) (hx : s.jobs[e]? = some x) : StopStep s .go
      { s.setJob e { x with abortEvent := true, stopper := .settling } with
        stop := .abandoning e todo }
  | ended {e : ℕ} {todo : List ℕ} {x : ActiveJob ρ} (hc : s.current = some .stop)
      (hs : s.stop = .abandoning e todo) (hx : s.jobs[e]? = some x) (ho : x.stopper = .over) :
      StopStep s .go { s with stop := .abandon todo }
  | abort {e : ℕ} {todo : List ℕ} {x : ActiveJob ρ} (hc : s.current = some .stop)
      (hs : s.stop = .abandoning e todo) (hx : s.jobs[e]? = some x) (ho : x.stopper = .crashed) :
      StopStep s .go
      { s.suspend with stoppedEvent := true, stopReturned := true, stop := .aborted }
  | deregister {w : String} (hc : s.current = some .stop) (hs : s.stop = .deregister)
      (hw : truthy s.workerId = some w) : StopStep s .go
      { s.suspend with log := s.log ++ [.deregister w], stop := .deregisterWait }
  | noWorker (hc : s.current = some .stop) (hs : s.stop = .deregister) :
      StopStep s .go { s with stop := .finishing }
  | finishing (hc : s.current = some .stop) (hs : s.stop = .finishing) : StopStep s .go
      { s.suspend with
        state := .stopped, workerId := none, stoppedEvent := true, stopReturned := true
        stop := .returned }

private theorem stopStep_of_go {s s' : SpooledWorker ρ} (hc : s.current = some .stop)
    (h : s.stopGo s.stop = some s') : StopStep s .go s' := by
  cases hs : s.stop <;> rw [hs] at h <;> simp only [stopGo] at h <;> try cases h
  case drain =>
    split at h
    · cases h
      exact .wait hc hs
    · cases h
      exact .close hc hs
  case forceFail todo =>
    cases todo with
    | nil =>
      replace h : (if s.jobsRunning then some { s.suspend with stop := .grace }
        else some { s with stop := .abandonStart }) = some s' := h
      split at h
      · rename_i hr
        cases h
        exact .forced hc hs hr
      · rename_i hr
        cases h
        exact .forcedAll hc hs (by simpa using hr)
    | cons e todo =>
      obtain ⟨x, hx, rfl⟩ := Option.map_eq_some_iff.mp h
      exact .force hc hs hx
  case abandonStart => exact .snapshot hc hs
  case abandon todo =>
    cases todo with
    | nil => cases h; exact .abandoned hc hs
    | cons e todo =>
      obtain ⟨x, hx, rfl⟩ := Option.map_eq_some_iff.mp h
      exact .begin hc hs hx
  case abandoning e todo =>
    obtain ⟨x, hx, h⟩ := Option.bind_eq_some_iff.mp h
    split at h
    · rename_i ho
      cases h
      exact .ended hc hs hx ho
    · rename_i ho
      cases h
      exact .abort hc hs hx ho
    · cases h
  case deregister =>
    split at h
    · rename_i hw
      cases h
      exact .deregister hc hs hw
    · cases h
      exact .noWorker hc hs
  case finishing => exact .finishing hc hs

private theorem stopStep_of_eq {s s' : SpooledWorker ρ} {a : StopAction}
    (h : s.stopStep a = some s') : StopStep s a s' := by
  cases a with
  | call =>
    rw [stopStep] at h
    split at h
    · rename_i hg
      obtain ⟨hc, hr, hs⟩ := hg
      dsimp only at h
      split at h
      · cases h
        exact .callInflight hc hr hs
      · cases h
        exact .call hc hr hs
    · cases h
  | callIgnored =>
    rw [stopStep] at h
    split at h
    · rename_i hg
      cases h
      exact .ignored hg.1 hg.2.1 hg.2.2
    · cases h
  | go =>
    rw [stopStep] at h
    split at h
    · rename_i hc
      exact stopStep_of_go hc h
    · cases h
  | wake =>
    rw [stopStep] at h
    split at h
    · rename_i hc
      obtain ⟨pc, hpc, rfl⟩ := Option.map_eq_some_iff.mp h
      exact .woken hc hpc
    · cases h
  | deadline =>
    rw [stopStep] at h
    split at h
    · rename_i hg
      cases h
      exact .close hg.1 hg.2
    · cases h

/-! ### A step of the worker -/

theorem main_of_step {s s' : SpooledWorker ρ} {a : MainAction} (h : s.step (.main a) = some s') :
    MainStep s a s' := mainStep_of_eq h

theorem stop_of_step {s s' : SpooledWorker ρ} {a : StopAction} (h : s.step (.stop a) = some s') :
    StopStep s a s' := stopStep_of_eq h

/-- A step of the segment of `stop()` is determined by where it stands. -/
theorem stopGo_of_step {s s' : SpooledWorker ρ} (h : s.step (.stop .go) = some s') :
    s.current = some .stop ∧ s.stopGo s.stop = some s' := by
  replace h : (if s.current = some .stop then s.stopGo s.stop else none) = some s' := h
  split at h
  · rename_i hc
    exact ⟨hc, h⟩
  · cases h

theorem run_of_step {s s' : SpooledWorker ρ} (h : s.step .run = some s') :
    s.current = none ∧ ∃ t rest, s.ready = t :: rest ∧
      s' = { s with ready := rest, current := some t } := by
  replace h : s.runNext = some s' := h
  rw [runNext] at h
  split at h
  · rename_i hc hr
    cases h
    exact ⟨hc, _, _, hr, rfl⟩
  · cases h

theorem job_of_step {s s' : SpooledWorker ρ} {e : ℕ} {a : JobAction ρ}
    (h : s.step (.job e a) = some s') : s.permits e a = true ∧ ∃ x x' eff,
      s.jobs[e]? = some x ∧ ActiveJob.Next (s.view e x) x a x' eff ∧ s' = s.apply e x' eff := by
  replace h : s.jobStep e a = some s' := h
  rw [jobStep] at h
  split at h
  · rename_i hp
    obtain ⟨x, hx, hs⟩ := Option.bind_eq_some_iff.mp h
    obtain ⟨⟨x', eff⟩, hnext, rfl⟩ := Option.map_eq_some_iff.mp hs
    exact ⟨hp, x, x', eff, hx, ActiveJob.next_of_step hnext, rfl⟩
  · cases h

end SpooledWorker

end SpooledSdk.Worker.Async
