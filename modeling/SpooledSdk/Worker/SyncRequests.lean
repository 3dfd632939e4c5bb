/-
What a run of the synchronous worker says to the server, and under which name.

* `speaks_of_reachable` — the log of the worker-level calls is a dialogue of one worker id;
* `under_of_reachable` — the acks and the heartbeats of its executions go under the same id.
-/
import SpooledSdk.Dialogue
import SpooledSdk.Worker.SyncSlots
import SpooledSdk.Worker.SyncStop

namespace SpooledSdk.Worker.Sync

variable {ρ : Type}

/-- A claim under `name`, for free slots only. -/
def Call.Claims (o : Options) (name : Option String) (c : Call) : Prop :=
  ∃ w limit, name = some w ∧ c = .claim o.queueName w limit o.leaseDuration ∧ 0 < limit ∧
    limit ≤ o.concurrency

def Call.Deregisters (name : Option String) (c : Call) : Prop :=
  ∃ w, name = some w ∧ c = .deregister w

/-- `stop()` is past its look at the worker id. -/
def StopPc.deregistered : StopPc → Bool
  | .deregisterWait | .finishing | .clearId | .closing | .returned => true
  | _ => false

/-- Between two claims, and past the registration. -/
def MainPc.quiet : MainPc → Bool
  | .idle | .registering | .claiming _ _ => false
  | _ => true

/-- The id that the worker has registered with, if there is one that is not empty. -/
def SpooledWorker.name (s : SpooledWorker ρ) : Option String := truthy s.registeredWorkerId

/-- A claim can come behind the `deregister` only where a poll stands between its locked check and
its claim. -/
structure Speaks (s : SpooledWorker ρ) : Prop where
  named : s.workerId = none ∨ s.workerId = s.registeredWorkerId
  silent : s.main = .idle → s.log = [] ∧ s.workerId = none
  asking : s.main = .registering → s.log = [.register]
  claiming : ∀ {w : String} {n : ℕ}, s.main = .claiming w n →
    s.name = some w ∧ 0 < n ∧ n ≤ s.options.concurrency
  dialogue : s.main ≠ .idle → ∃ late,
    Dialogue Call.register (Call.Claims s.options s.name) (Call.Deregisters s.name) late s.log ∧
      ∀ k, late = some k → s.stop.deregistered = true ∧ k + s.main.aboutToClaim.toNat ≤ 1

section

variable {s s' : SpooledWorker ρ} {a : Action ρ} {o : Options}
  {ok : SpooledWorker ρ → Action ρ → Prop} {e : ℕ} {x x' : ActiveJob ρ}

theorem Speaks.init (o : Options) : Speaks ({ options := o } : SpooledWorker ρ) where
  named := .inl rfl
  silent _ := ⟨rfl, rfl⟩
  asking h := by cases h
  claiming h := by cases h
  dialogue h := absurd rfl h

theorem Speaks.name_of_workerId (h : Speaks s) {w : String} (hw : truthy s.workerId = some w) :
    s.name = some w := by
  rcases h.named with hnone | heq
  · rw [hnone] at hw
    cases hw
  · rwa [SpooledWorker.name, ← heq]

/-- A step that sends nothing, keeps the names, and starts nothing. -/
theorem Speaks.goto (h : Speaks s) (hoptions : s'.options = s.options) (hlog : s'.log = s.log)
    (hworker : s'.workerId = s.workerId ∨ s'.workerId = none)
    (hregistered : s'.registeredWorkerId = s.registeredWorkerId)
    (hmain : s'.main = s.main ∨ s.main ≠ .idle ∧ s'.main.quiet = true)
    (hstop : s.stop.deregistered = true → s'.stop.deregistered = true) : Speaks s' := by
  have hname : s'.name = s.name := by rw [SpooledWorker.name, hregistered, SpooledWorker.name]
  have hbound : s'.main.aboutToClaim.toNat ≤ s.main.aboutToClaim.toNat := by
    rcases hmain with heq | ⟨-, hquiet⟩
    · exact Nat.le_of_eq (by rw [heq])
    · cases hm : s'.main <;> rw [hm] at hquiet <;> first | exact Nat.zero_le _ | cases hquiet
  refine ⟨?_, fun hm => ?_, fun hm => ?_, fun {w n} hm => ?_, fun hm => ?_⟩
  · rw [hregistered]
    rcases hworker with heq | hnone
    · rw [heq]
      exact h.named
    · exact .inl hnone
  · rcases hmain with heq | ⟨-, hquiet⟩
    · obtain ⟨hempty, hnone⟩ := h.silent (heq ▸ hm)
      exact ⟨hlog.trans hempty, hworker.elim (fun heq => heq.trans hnone) id⟩
    · rw [hm] at hquiet
      cases hquiet
  · rcases hmain with heq | ⟨-, hquiet⟩
    · exact hlog.trans (h.asking (heq ▸ hm))
    · rw [hm] at hquiet
      cases hquiet
  · rcases hmain with heq | ⟨-, hquiet⟩
    · rw [hname, hoptions]
      exact h.claiming (heq ▸ hm)
    · rw [hm] at hquiet
      cases hquiet
  · have hidle : s.main ≠ .idle := hmain.elim (fun heq => heq ▸ hm) And.left
    obtain ⟨late, hd, hlate⟩ := h.dialogue hidle
    rw [hname, hoptions, hlog]
    exact ⟨late, hd, fun k hk => ⟨hstop (hlate k hk).1, by have := (hlate k hk).2; omega⟩⟩

theorem Speaks.main (h : Speaks s) (hl : Life s) {a : MainAction}
    (hstep : SpooledWorker.MainStep s a s') : Speaks s' := by
  have hgoto : ∀ {t : SpooledWorker ρ}, t.options = s.options → t.log = s.log →
      t.workerId = s.workerId → t.registeredWorkerId = s.registeredWorkerId → t.stop = s.stop →
      s.main ≠ .idle → t.main.quiet = true → Speaks t :=
    fun ho hlog hw hr hs hm hq => h.goto ho hlog (.inl hw) hr (.inr ⟨hm, hq⟩) (hs ▸ id)
  cases hstep with
  | start hm =>
    obtain ⟨hempty, hnone⟩ := h.silent hm
    have hlog : s.log ++ [Call.register] = [.register] := by rw [hempty, List.nil_append]
    refine ⟨.inl hnone, fun hm' => (by cases hm'), fun _ => hlog, fun hm' => (by cases hm'),
      fun _ => ?_⟩
    exact ⟨none, .of_opened _ _ hlog, fun _ hk => by cases hk⟩
  | register hm =>
    have hlog := h.asking hm
    refine ⟨.inr rfl, fun hm' => (by cases hm'), fun hm' => (by cases hm'),
      fun hm' => (by cases hm'), fun _ => ?_⟩
    exact ⟨none, .of_opened _ _ hlog, fun _ hk => by cases hk⟩
  | poll hm hs hw hn =>
    have hidle : s.main ≠ .idle := by simp [hm]
    obtain ⟨late, hd, hlate⟩ := h.dialogue hidle
    have hle : s.availableSlots ≤ s.options.concurrency := by
      rw [SpooledWorker.availableSlots]
      omega
    refine ⟨h.named, fun hm' => (by cases hm'), fun hm' => (by cases hm'), fun hm' => ?_,
      fun _ => ?_⟩
    · cases hm'
      exact ⟨h.name_of_workerId hw, Nat.pos_of_ne_zero hn, hle⟩
    · refine ⟨late, hd, fun k hk => ?_⟩
      -- a worker that has deregistered is not running
      have hpast := (hlate k hk).1
      have hstop : s.stop ≠ .idle := fun hst => by rw [hst] at hpast; cases hpast
      have hstate := hl.stopping hstop
      rw [hs] at hstate
      split at hstate <;> cases hstate
  | @claim w n hm =>
    have hidle : s.main ≠ .idle := by simp [hm]
    obtain ⟨late, hd, hlate⟩ := h.dialogue hidle
    obtain ⟨hname, hpos, hle⟩ := h.claiming hm
    refine ⟨h.named, fun hm' => (by cases hm'), fun hm' => (by cases hm'),
      fun hm' => (by cases hm'), fun _ => ?_⟩
    refine ⟨late.map (· + 1), hd.asked ⟨w, n, hname, rfl, hpos, hle⟩, fun k hk => ?_⟩
    obtain ⟨k', hk', rfl⟩ := Option.map_eq_some_iff.mp hk
    obtain ⟨hpast, hbound⟩ := hlate k' hk'
    rw [hm] at hbound
    exact ⟨hpast, hbound⟩
  | leave hm hpc =>
    refine hgoto rfl rfl rfl rfl rfl (by simp [hm]) ?_
    rcases hpc with rfl | rfl <;> rfl
  | registerFailed hm | run hm | again hm | skip hm | resend hm | claimed hm | claimFailed hm
  | done hm | hold hm | enter hm | unreleased hm | release hm | released hm | schedule hm
  | noExecutor hm | executor hm | submit hm | refuse hm | exiting hm | vanished hm | finish hm
  | pause hm | woken hm =>
    exact hgoto rfl rfl rfl rfl rfl (by simp [hm]) rfl
  | discard hm =>
    exact hgoto (apply_options _) (apply_log _) (apply_workerId _) (apply_registeredWorkerId _)
      (apply_stop _) (by simp [hm]) rfl

theorem Speaks.stop (h : Speaks s) (hl : Life s) {a : StopAction}
    (hstep : SpooledWorker.StopStep s a s') : Speaks s' := by
  have hgoto : ∀ {t : SpooledWorker ρ}, t.options = s.options → t.log = s.log →
      t.workerId = s.workerId ∨ t.workerId = none → t.registeredWorkerId = s.registeredWorkerId →
      t.main = s.main → (s.stop.deregistered = true → t.stop.deregistered = true) → Speaks t :=
    fun ho hlog hw hr hm hs => h.goto ho hlog hw hr (.inl hm) hs
  cases hstep with
  | @deregister w hs hw =>
    have hidle : s.main ≠ .idle := fun hm => by
      rw [(h.silent hm).2] at hw
      cases hw
    obtain ⟨late, hd, hlate⟩ := h.dialogue hidle
    have hopen : late = none := by
      rw [Option.eq_none_iff_forall_ne_some]
      intro k hk
      have hpast := (hlate k hk).1
      rw [hs] at hpast
      cases hpast
    subst hopen
    refine ⟨h.named, fun hm => absurd hm hidle, fun hm => ?_, h.claiming, fun _ => ?_⟩
    · have hboot := (hl.boot (hm ▸ rfl)).2.1
      rw [hs] at hboot
      cases hboot
    · refine ⟨some 0, hd.closed ⟨w, h.name_of_workerId hw, rfl⟩, fun k hk => ⟨rfl, ?_⟩⟩
      obtain rfl := Option.some.inj hk
      show 0 + s.main.aboutToClaim.toNat ≤ 1
      have := s.main.aboutToClaim.toNat_le
      omega
  | call hr hs => exact hgoto rfl rfl (.inl rfl) rfl rfl fun hp => by rw [hs] at hp; cases hp
  | ignored => exact hgoto rfl rfl (.inl rfl) rfl rfl id
  | clearId hs => exact hgoto rfl rfl (.inr rfl) rfl rfl fun _ => rfl
  | noWorker | deregistered | finishing | closing =>
    exact hgoto rfl rfl (.inl rfl) rfl rfl fun _ => rfl
  | signal hs | waited hs | waitedLong hs | close hs | snapshot hs | forced hs | begin hs
  | abandoned hs | settled hs | shutdown hs | clear hs =>
    exact hgoto rfl rfl (.inl rfl) rfl rfl fun hp => by rw [hs] at hp; cases hp

theorem Speaks.step (h : Speaks s) (hl : Life s) (hstep : s.step a = some s') : Speaks s' := by
  cases a with
  | main a => exact h.main hl (SpooledWorker.main_of_step hstep)
  | stop a => exact h.stop hl (SpooledWorker.stop_of_step hstep)
  | job e a =>
    obtain ⟨x, x', eff, -, -, rfl⟩ := SpooledWorker.job_of_step hstep
    exact h.goto (apply_options _) (apply_log _) (.inl (apply_workerId _))
      (apply_registeredWorkerId _) (.inl (apply_main _)) (by rw [apply_stop]; exact id)

theorem speaks_of_reachable (h : (system ρ o).Reachable ok s) : Speaks s :=
  h.invariant_of (I := Life) (fun _ => life_of_reachable) (.init o)
    fun _ _ _ hl hs _ hstep => hs.step hl hstep

/-- The worker registers, claims, and deregisters, with one claim at most behind that. -/
theorem log_of_reachable (h : (system ρ o).Reachable ok s) : s.log = [] ∨
    ∃ requests ending, s.log = .register :: (requests ++ ending) ∧
      (∀ c ∈ requests, Call.Claims o s.name c) ∧
      (ending = [] ∨ ∃ w late, s.name = some w ∧ ending = .deregister w :: late ∧
        late.length ≤ 1 ∧ ∀ c ∈ late, Call.Claims o s.name c) := by
  have hs := speaks_of_reachable h
  by_cases hm : s.main = .idle
  · exact .inl (hs.silent hm).1
  · obtain ⟨late, hd, hlate⟩ := hs.dialogue hm
    rw [options_of_reachable h] at hd
    obtain ⟨requests, ending, hlog, hasks, hopen, hclosed⟩ := hd.shape
    refine .inr ⟨requests, ending, hlog, hasks, ?_⟩
    cases late with
    | none => exact .inl (hopen rfl)
    | some k =>
      obtain ⟨_, behind, hending, ⟨w, hw, rfl⟩, hbehind, rfl⟩ := hclosed k rfl
      have hbound := (hlate _ rfl).2
      exact .inr ⟨w, behind, hw, hending, by omega, hbehind⟩

end

/-! ### Acks and heartbeats -/

/-- The worker id that the thread of a job sends under. -/
def ThreadPc.sender : ThreadPc ρ → Option String
  | .sending _ w _ | .releaseSent w => some w
  | _ => none

def AbandonPc.sender : AbandonPc → Option String
  | .sending w _ => some w
  | _ => none

def BeatPc.sender : BeatPc → Option String
  | .send w | .wait w => some w
  | _ => none

/-- Whoever sends for the execution sends under `name`. -/
structure Under (name : Option String) (x : ActiveJob ρ) : Prop where
  thread : x.thread.sender = none ∨ x.thread.sender = name
  timeout : x.timeout.sender = none ∨ x.timeout.sender = name
  stopper : x.stopper.sender = none ∨ x.stopper.sender = name
  beat : x.beat.sender = none ∨ x.beat.sender = name
  calls : ∀ c ∈ x.calls, name = some c.workerId

section

variable {name : Option String} {v : View} {x x' : ActiveJob ρ} {a : Ack ρ} {w : String}
  {pc : SendPc} {r : Option Reply} {q : Option SendPc}

theorem Under.fresh (name : Option String) (job : ClaimedJob) :
    Under name ({ job := job } : ActiveJob ρ) where
  thread := .inl rfl
  timeout := .inl rfl
  stopper := .inl rfl
  beat := .inl rfl
  calls _ hc := by cases hc

/-- Cancelling the timers sends nothing. -/
theorem Under.timers (h : Under name x) (ht : ActiveJob.SameTimers x x') :
    (x'.timeout.sender = none ∨ x'.timeout.sender = name) ∧
      (x'.beat.sender = none ∨ x'.beat.sender = name) := by
  refine ⟨?_, ?_⟩
  · rcases ht.timeout with heq | ⟨-, hover⟩
    · exact heq ▸ h.timeout
    · exact .inl (by rw [hover]; rfl)
  · rcases ht.beat with heq | ⟨-, hoff⟩
    · exact heq ▸ h.beat
    · exact .inl (by rw [hoff]; rfl)

theorem Under.calls_append (h : Under name x) (hw : name = some w) (a : Ack ρ) :
    ∀ c ∈ x.calls ++ [ackCall x.job w a], name = some c.workerId := by
  rw [List.forall_mem_append]
  refine ⟨h.calls, fun c hc => ?_⟩
  obtain rfl := List.mem_singleton.mp hc
  rw [hw]
  cases a <;> rfl

/-- A sender calls under its own id. -/
theorem ActiveJob.SendStep.under (hs : ActiveJob.SendStep x a w pc r x' q) (hw : name = some w)
    (h : Under name x) : Under name x' where
  thread := by rw [hs.same.thread]; exact h.thread
  timeout := (h.timers hs.timers).1
  stopper := by rw [hs.same.stopper]; exact h.stopper
  beat := (h.timers hs.timers).2
  calls := by
    cases hs with
    | sent => exact h.calls_append hw a
    | _ => exact h.calls

/-- `_abandon_job` sends under the worker id that it has read with the right to ack. -/
theorem ActiveJob.AbandonStep.under {t : Taker} {reason : String} {pc pc' : AbandonPc}
    {eff : Effect} (hs : ActiveJob.AbandonStep v x t reason pc r x' pc' eff)
    (hv : ∀ {w}, truthy v.workerId = some w → name = some w)
    (hpc : pc.sender = none ∨ pc.sender = name) (h : Under name x) :
    Under name x' ∧ (pc'.sender = none ∨ pc'.sender = name) := by
  cases hs with
  | fire | denied => exact ⟨h, .inl rfl⟩
  | signal => exact ⟨⟨h.thread, h.timeout, h.stopper, h.beat, h.calls⟩, .inl rfl⟩
  | granted hm =>
    exact ⟨⟨h.thread, h.timeout, h.stopper, h.beat, h.calls⟩, .inr (hv hm.workerId).symm⟩
  | @send w pc r y q hsend =>
    have hw : name = some w := hpc.elim (fun hnone => by cases hnone) Eq.symm
    refine ⟨hsend.under hw h, ?_⟩
    cases q with
    | none => exact .inl rfl
    | some pc => exact .inr hw.symm
  | book =>
    have htimers : ActiveJob.SameTimers x x.bookAbandoned.1 := .of_cancel rfl rfl
    exact ⟨⟨h.thread, (h.timers htimers).1, h.stopper, (h.timers htimers).2, h.calls⟩, .inl rfl⟩

/-- A move of the execution; the look of the heartbeat at the worker id is told apart. -/
theorem ActiveJob.Next.under {a : JobAction ρ} {eff : Effect} (hn : ActiveJob.Next v x a x' eff)
    (hv : ∀ {w}, truthy v.workerId = some w → name = some w)
    (hbeat : a = .beat none → x.beat = .check → x'.beat.sender = none ∨ x'.beat.sender = name)
    (h : Under name x) : Under name x' := by
  have hthread : ∀ {pc : ThreadPc ρ}, pc.sender = none ∨ pc.sender = name →
      Under name { x with thread := pc } :=
    fun hpc => ⟨hpc, h.timeout, h.stopper, h.beat, h.calls⟩
  have hquiet : ∀ {pc : BeatPc}, pc.sender = none ∨ pc.sender = name →
      Under name { x with beat := pc } :=
    fun hpc => ⟨h.thread, h.timeout, h.stopper, hpc, h.calls⟩
  cases hn with
  | pickUp | call | denied => exact ⟨.inl rfl, h.timeout, h.stopper, h.beat, h.calls⟩
  | arm =>
    refine ⟨.inl rfl, ?_, ?_, ?_, ?_⟩ <;> dsimp only <;> rw [startJobTimeout] <;> split
    · exact .inl rfl
    · exact h.timeout
    · exact h.stopper
    · exact h.stopper
    · exact h.beat
    · exact h.beat
    · exact h.calls
    · exact h.calls
  | @ends o =>
    refine hthread (.inl ?_)
    cases o.ack <;> rfl
  | granted _ hm => exact ⟨.inr (hv hm.workerId).symm, h.timeout, h.stopper, h.beat, h.calls⟩
  | @send a w pc r y q ht hs =>
    have hw : name = some w := by
      have := h.thread
      rw [ht] at this
      exact this.elim (fun hnone => by cases hnone) Eq.symm
    have hy := hs.under hw h
    refine ⟨?_, hy.timeout, hy.stopper, hy.beat, hy.calls⟩
    cases q with
    | none => exact .inl rfl
    | some pc => exact .inr hw.symm
  | cleanup =>
    have htimers : SameTimers x (x.cleanupJob .returned).1 := .of_cancel rfl rfl
    exact ⟨.inl rfl, (h.timers htimers).1, h.stopper, (h.timers htimers).2, h.calls⟩
  | timeout hs =>
    obtain ⟨hy, hpc⟩ := hs.under hv h.timeout h
    exact ⟨hy.thread, hpc, hy.stopper, hy.beat, hy.calls⟩
  | stopper hs =>
    obtain ⟨hy, hpc⟩ := hs.under hv h.stopper h
    exact ⟨hy.thread, hy.timeout, hpc, hy.beat, hy.calls⟩
  | beatCheck hcheck => exact ⟨h.thread, h.timeout, h.stopper, hbeat rfl hcheck, h.calls⟩
  | beatSend hsend =>
    have := h.beat
    rw [hsend] at this
    exact hquiet this
  | beatFire | beatOk | beatExpired | beatCrash | beatError | beatAlreadyLost =>
    exact ⟨h.thread, h.timeout, h.stopper, .inl rfl, h.calls⟩
  | beatLost =>
    have htimers : SameTimers x x.loseLease := .of_cancel rfl rfl
    exact ⟨h.thread, (h.timers htimers).1, h.stopper, .inl rfl, h.calls⟩
  | beatReported => exact ⟨h.thread, h.timeout, h.stopper, .inl rfl, h.calls⟩
  | beatRearm _ hpc =>
    refine hquiet (.inl ?_)
    rcases hpc with rfl | rfl <;> rfl

/-- What the heartbeat reads before it sends is the id of the worker. -/
theorem ActiveJob.sender_of_check {eff : Effect} (hstep : x.step v (.beat none) = some (x', eff))
    (hv : ∀ {w}, truthy v.workerId = some w → name = some w) (hcheck : x.beat = .check) :
    x'.beat.sender = none ∨ x'.beat.sender = name := by
  obtain ⟨y, hy, hp⟩ := Option.map_eq_some_iff.mp hstep
  cases hp
  rw [hcheck] at hy
  obtain rfl := Option.some.inj hy
  dsimp only
  split
  · cases hw : truthy v.workerId with
    | none => exact .inl rfl
    | some w => exact .inr (hv hw).symm
  · exact .inl rfl

end

section

variable {s s' : SpooledWorker ρ} {a : Action ρ} {o : Options}
  {ok : SpooledWorker ρ → Action ρ → Prop} {e : ℕ} {x x' : ActiveJob ρ}

theorem SpooledWorker.name_of_releaseId (hs : Speaks s) {w : String}
    (hw : s.releaseId = some w) : s.name = some w := by
  rw [SpooledWorker.releaseId] at hw
  cases hworker : truthy s.workerId with
  | some w' =>
    rw [hworker, Option.some_or] at hw
    exact hw ▸ hs.name_of_workerId hworker
  | none => rwa [hworker, Option.none_or] at hw

theorem Move.under (hm : Move s e x a x') (hs : Speaks s) (hstep : s.step a = some s')
    (hx : s.jobs[e]? = some x) (hx' : s'.jobs[e]? = some x') (h : Under s.name x) :
    Under s.name x' := by
  have hthread : ∀ {pc : ThreadPc ρ} {tracked : Bool}, pc.sender = none →
      Under s.name { x with thread := pc, tracked := tracked } :=
    fun hpc => ⟨.inl hpc, h.timeout, h.stopper, h.beat, h.calls⟩
  cases hm with
  | @next a _ eff hn =>
    refine hn.under hs.name_of_workerId ?_ h
    rintro rfl hcheck
    obtain ⟨y, hy, hp⟩ := Option.bind_eq_some_iff.mp hstep
    obtain ⟨⟨y', eff'⟩, hnext, rfl⟩ := Option.map_eq_some_iff.mp hp
    rw [hx, Option.some_inj] at hy
    subst hy
    rw [apply_jobs, List.getElem?_set_self (List.getElem?_eq_some_iff.mp hx).1,
      Option.some_inj] at hx'
    subst hx'
    exact ActiveJob.sender_of_check hnext hs.name_of_workerId hcheck
  | held | registered | unreleased | submitted => exact hthread rfl
  | displaced => exact ⟨h.thread, h.timeout, h.stopper, h.beat, h.calls⟩
  | release _ hw =>
    have hname := SpooledWorker.name_of_releaseId hs hw
    exact ⟨.inr hname.symm, h.timeout, h.stopper, h.beat, h.calls_append hname _⟩
  | released => exact ⟨.inl rfl, h.timeout, h.stopper, h.beat, h.calls⟩
  | scheduled =>
    refine ⟨.inl rfl, h.timeout, h.stopper, ?_, h.calls⟩
    dsimp only [SpooledWorker.scheduleJobHeartbeat, ActiveJob.emit]
    split
    · exact .inl rfl
    · exact h.beat
  | refused =>
    have htimers : ActiveJob.SameTimers x (x.cleanupJob .refused).1 := .of_cancel rfl rfl
    exact ⟨.inl rfl, (h.timers htimers).1, h.stopper, (h.timers htimers).2, h.calls⟩
  | begun => exact ⟨h.thread, h.timeout, .inl rfl, h.beat, h.calls⟩

/-- Where executions exist the name of the worker is settled. -/
theorem name_of_step (hl : Life s) (hstep : s.step a = some s') (hx : s.jobs[e]? = some x) :
    s'.name = s.name := by
  have hboot : s.main.booting = false := by
    by_contra hb
    rw [(hl.boot (by simpa using hb)).1] at hx
    cases hx
  have hname : s'.registeredWorkerId = s.registeredWorkerId := by
    cases a with
    | job e a =>
      obtain ⟨x, x', eff, -, -, rfl⟩ := SpooledWorker.job_of_step hstep
      exact apply_registeredWorkerId _
    | main a =>
      cases SpooledWorker.main_of_step hstep with
      | start hm | register hm =>
        rw [hm] at hboot
        cases hboot
      | discard => exact apply_registeredWorkerId _
      | _ => rfl
    | stop a => cases SpooledWorker.stop_of_step hstep <;> rfl
  rw [SpooledWorker.name, hname, SpooledWorker.name]

theorem under_of_reachable (h : (system ρ o).Reachable ok s) (hx : s.jobs[e]? = some x) :
    Under s.name x := by
  refine forall_jobs_in (P := fun s _ x => Under s.name x) ?_ ?_ ?_ h hx
  · exact fun _ _ _ _ => Under.fresh _ _
  · intro s a s' e x hr _ hstep hx _ hP
    rwa [name_of_step (life_of_reachable hr) hstep hx]
  · intro s a s' e x x' hr _ hstep hx hx' hP hm
    rw [name_of_step (life_of_reachable hr) hstep hx]
    exact hm.under (speaks_of_reachable hr) hstep hx hx' hP

end

end SpooledSdk.Worker.Sync
