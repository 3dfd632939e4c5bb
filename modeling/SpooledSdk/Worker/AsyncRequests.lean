/-
What a run of the asynchronous worker says to the server, and under which name.

* `speaks_of_reachable` — the log of the worker-level calls is a dialogue of one worker id, and
  nothing stands behind its `deregister`;
* `under_of_reachable` — the acks and the heartbeats of its executions go under the same id.
-/
import SpooledSdk.Dialogue
import SpooledSdk.Worker.AsyncSlots

namespace SpooledSdk.Worker.Async

variable {ρ : Type}

/-- A claim under `name`, for free slots only. -/
def Call.Claims (o : Options) (name : Option String) (c : Call) : Prop :=
  ∃ w limit, name = some w ∧ c = .claim o.queueName w limit o.leaseDuration ∧ 0 < limit ∧
    limit ≤ o.concurrency

def Call.Deregisters (name : Option String) (c : Call) : Prop :=
  ∃ w, name = some w ∧ c = .deregister w

/-- `stop()` is past its look at the worker id. -/
def StopPc.deregistered : StopPc → Bool
  | .deregisterWait | .finishing | .returned => true
  | _ => false

/-- The id that the worker has registered with, if there is one that is not empty. -/
def SpooledWorker.name (s : SpooledWorker ρ) : Option String := truthy s.registeredWorkerId

/-- A poll looks at the state and sends its claim in one segment, so none is late. -/
structure Speaks (s : SpooledWorker ρ) : Prop where
  named : s.workerId = none ∨ s.workerId = s.registeredWorkerId
  silent : s.main = .idle → s.log = [] ∧ s.workerId = none
  asking : s.main.starting = true → s.log = [.register]
  dialogue : s.main ≠ .idle → ∃ late,
    Dialogue Call.register (Call.Claims s.options s.name) (Call.Deregisters s.name) late s.log ∧
      ∀ k, late = some k → k = 0 ∧ s.stop.deregistered = true

section

variable {s s' : SpooledWorker ρ} {a : Action ρ} {o : Options}
  {ok : SpooledWorker ρ → Action ρ → Prop} {e : ℕ} {x x' : ActiveJob ρ}

theorem Speaks.init (o : Options) : Speaks ({ options := o } : SpooledWorker ρ) where
  named := .inl rfl
  silent _ := ⟨rfl, rfl⟩
  asking h := by cases h
  dialogue h := absurd rfl h

theorem Speaks.name_of_workerId (h : Speaks s) {w : String} (hw : truthy s.workerId = some w) :
    s.name = some w := by
  rcases h.named with hnone | heq
  · rw [hnone] at hw
    cases hw
  · rwa [SpooledWorker.name, ← heq]

/-- A step that sends nothing and keeps the names. -/
theorem Speaks.goto (h : Speaks s) (hoptions : s'.options = s.options) (hlog : s'.log = s.log)
    (hworker : s'.workerId = s.workerId ∨ s'.workerId = none)
    (hregistered : s'.registeredWorkerId = s.registeredWorkerId)
    (hidle : s'.main = .idle ↔ s.main = .idle)
    (hstarting : s'.main.starting = true → s.main.starting = true)
    (hstop : s.stop.deregistered = true → s'.stop.deregistered = true) : Speaks s' := by
  have hname : s'.name = s.name := by rw [SpooledWorker.name, hregistered, SpooledWorker.name]
  refine ⟨?_, fun hm => ?_, fun hm => hlog.trans (h.asking (hstarting hm)), fun hm => ?_⟩
  · rw [hregistered]
    rcases hworker with heq | hnone
    · rw [heq]
      exact h.named
    · exact .inl hnone
  · obtain ⟨hempty, hnone⟩ := h.silent (hidle.mp hm)
    exact ⟨hlog.trans hempty, hworker.elim (fun heq => heq.trans hnone) id⟩
  · obtain ⟨late, hd, hlate⟩ := h.dialogue fun hi => hm (hidle.mpr hi)
    rw [hname, hoptions, hlog]
    exact ⟨late, hd, fun k hk => ⟨(hlate k hk).1, hstop (hlate k hk).2⟩⟩

theorem Speaks.main (h : Speaks s) (hl : Life s) {a : MainAction}
    (hstep : SpooledWorker.MainStep s a s') : Speaks s' := by
  have hgoto : ∀ {t : SpooledWorker ρ}, t.options = s.options → t.log = s.log →
      t.workerId = s.workerId → t.registeredWorkerId = s.registeredWorkerId → t.stop = s.stop →
      s.main ≠ .idle → t.main ≠ .idle → (t.main.starting = true → s.main.starting = true) →
      Speaks t :=
    fun ho hlog hw hr hs hm hm' hq => h.goto ho hlog (.inl hw) hr (iff_of_false hm' hm) hq (hs ▸ id)
  cases hstep with
  | start _ hm =>
    obtain ⟨hempty, hnone⟩ := h.silent hm
    have hlog : s.log ++ [Call.register] = [.register] := by rw [hempty, List.nil_append]
    refine ⟨.inl hnone, fun hm' => (by cases hm'), fun _ => hlog, fun _ => ?_⟩
    exact ⟨none, .of_opened _ _ hlog, fun _ hk => by cases hk⟩
  | register _ hm =>
    have hlog := h.asking (by rw [hm]; rfl)
    refine ⟨.inr rfl, fun hm' => (by cases hm'), fun hm' => (by cases hm'), fun _ => ?_⟩
    exact ⟨none, .of_opened _ _ hlog, fun _ hk => by cases hk⟩
  | poll _ hm hs hw hn =>
    have hidle : s.main ≠ .idle := by simp [hm]
    obtain ⟨late, hd, hlate⟩ := h.dialogue hidle
    have hle : s.availableSlots ≤ s.options.concurrency := by
      rw [SpooledWorker.availableSlots]
      omega
    -- a worker that has deregistered is not running
    have hopen : late = none := by
      rw [Option.eq_none_iff_forall_ne_some]
      intro k hk
      have hpast := (hlate k hk).2
      have hstop : s.stop ≠ .idle := fun hst => by rw [hst] at hpast; cases hpast
      have hstate := hl.stopping hstop
      rw [hs] at hstate
      split at hstate <;> cases hstate
    subst hopen
    refine ⟨h.named, fun hm' => (by cases hm'), fun hm' => (by cases hm'), fun _ => ?_⟩
    have hclaim : Call.Claims s.options s.name (.claim s.options.queueName _ s.availableSlots
        s.options.leaseDuration) :=
      ⟨_, _, h.name_of_workerId hw, rfl, Nat.pos_of_ne_zero hn, hle⟩
    exact ⟨none, hd.asked hclaim, fun _ hk => by cases hk⟩
  | answered _ hm | refused _ hm =>
    exact hgoto rfl rfl rfl rfl rfl (by simp [hm]) (by simp) fun _ => by rw [hm]; rfl
  | leave _ hm _ hpc =>
    rcases hpc with rfl | rfl <;>
      exact hgoto rfl rfl rfl rfl rfl (by simp [hm]) (by simp) fun hq => by cases hq
  | registerFailed _ hm | skip _ hm | send _ hm | claimed _ hm | claimFailed _ hm | last _ hm
  | unreleased _ hm | release _ hm | enter _ hm | releaseReplied _ hm | released _ hm | finish _ hm
  | resume _ hm | woken _ hm | left _ hm =>
    exact hgoto rfl rfl rfl rfl rfl (by simp [hm]) (fun hm' => by cases hm') fun hq => by cases hq

theorem Speaks.stop (h : Speaks s) (hl : Life s) {a : StopAction}
    (hstep : SpooledWorker.StopStep s a s') : Speaks s' := by
  have hgoto : ∀ {t : SpooledWorker ρ}, t.options = s.options → t.log = s.log →
      t.workerId = s.workerId ∨ t.workerId = none → t.registeredWorkerId = s.registeredWorkerId →
      t.main = s.main → (s.stop.deregistered = true → t.stop.deregistered = true) → Speaks t :=
    fun ho hlog hw hr hm hs => h.goto ho hlog hw hr (by rw [hm]) (hm ▸ id) hs
  cases hstep with
  | @deregister w _ hs hw =>
    have hidle : s.main ≠ .idle := fun hm => by
      rw [(h.silent hm).2] at hw
      cases hw
    obtain ⟨late, hd, hlate⟩ := h.dialogue hidle
    have hopen : late = none := by
      rw [Option.eq_none_iff_forall_ne_some]
      intro k hk
      have hpast := (hlate k hk).2
      rw [hs] at hpast
      cases hpast
    subst hopen
    refine ⟨h.named, fun hm => absurd hm hidle, fun hm => ?_, fun _ => ?_⟩
    · have hboot : s.main.booting = true := by
        replace hm : s.main.starting = true := hm
        cases hpc : s.main <;> rw [hpc] at hm <;> first | rfl | cases hm
      have hstop := (hl.boot hboot).2.1
      rw [hs] at hstop
      cases hstop
    · refine ⟨some 0, hd.closed ⟨w, h.name_of_workerId hw, rfl⟩, fun k hk => ⟨?_, rfl⟩⟩
      exact (Option.some.inj hk).symm
  | callInflight _ _ hs | call _ _ hs =>
    exact hgoto rfl rfl (.inl rfl) rfl rfl fun hp => by rw [hs] at hp; cases hp
  | ignored => exact hgoto rfl rfl (.inl rfl) rfl rfl id
  | @woken pc _ hs =>
    refine hgoto rfl rfl (.inl rfl) rfl rfl fun hp => ?_
    cases hpc : s.stop <;> rw [hpc] at hs hp <;> first | (cases hs <;> rfl) | cases hp
  | finishing => exact hgoto rfl rfl (.inr rfl) rfl rfl fun _ => rfl
  | noWorker => exact hgoto rfl rfl (.inl rfl) rfl rfl fun _ => rfl
  | wait _ hs | close _ hs | forced _ hs | forcedAll _ hs | force _ hs | snapshot _ hs
  | abandoned _ hs | begin _ hs | ended _ hs | abort _ hs =>
    exact hgoto rfl rfl (.inl rfl) rfl rfl fun hp => by rw [hs] at hp; cases hp

theorem Speaks.step (h : Speaks s) (hl : Life s) (hstep : s.step a = some s') : Speaks s' := by
  cases a with
  | main a => exact h.main hl (SpooledWorker.main_of_step hstep)
  | stop a => exact h.stop hl (SpooledWorker.stop_of_step hstep)
  | job e a =>
    obtain ⟨-, x, x', eff, -, -, rfl⟩ := SpooledWorker.job_of_step hstep
    exact h.goto rfl rfl (.inl rfl) rfl Iff.rfl id id
  | run =>
    obtain ⟨-, t, rest, -, rfl⟩ := SpooledWorker.run_of_step hstep
    exact h.goto rfl rfl (.inl rfl) rfl Iff.rfl id id

theorem speaks_of_reachable (h : (system ρ o).Reachable ok s) : Speaks s :=
  h.invariant_of (I := Life) (fun _ => life_of_reachable) (.init o)
    fun _ _ _ hl hs _ hstep => hs.step hl hstep

/-- The worker registers, claims, and deregisters last. -/
theorem log_of_reachable (h : (system ρ o).Reachable ok s) : s.log = [] ∨
    ∃ requests ending, s.log = .register :: (requests ++ ending) ∧
      (∀ c ∈ requests, Call.Claims o s.name c) ∧
      (ending = [] ∨ ∃ w, s.name = some w ∧ ending = [.deregister w]) := by
  have hs := speaks_of_reachable h
  by_cases hm : s.main = .idle
  · exact .inl (hs.silent hm).1
  · obtain ⟨late, hd, hlate⟩ := hs.dialogue hm
    rw [options_of_reachable h] at hd
    obtain ⟨requests, ending, hlog, hasks, hopen, hclosed⟩ := hd.shape
    refine .inr ⟨requests, ending, hlog, hasks, ?_⟩
    cases late with
    | none => exact .inl (hopen rfl)
    | some k =>
      obtain ⟨_, behind, hending, ⟨w, hw, rfl⟩, -, rfl⟩ := hclosed k rfl
      obtain rfl := List.length_eq_zero_iff.mp (hlate _ rfl).1
      exact .inr ⟨w, hw, hending⟩

end

/-! ### Acks and heartbeats -/

/-- The worker id that the process task of a job sends under. -/
def ProcPc.sender : ProcPc ρ → Option String
  | .sending _ w _ | .releaseSent w => some w
  | _ => none

def AbandonPc.sender : AbandonPc → Option String
  | .sending w _ => some w
  | _ => none

def BeatPc.sender : BeatPc → Option String
  | .asking w => some w
  | _ => Option.none

/-- Whoever sends for the execution sends under `name`. -/
structure Under (name : Option String) (x : ActiveJob ρ) : Prop where
  proc : x.proc.sender = none ∨ x.proc.sender = name
  stopper : x.stopper.sender = none ∨ x.stopper.sender = name
  beat : x.beat.sender = none ∨ x.beat.sender = name
  calls : ∀ c ∈ x.calls, name = some c.workerId

section

variable {name : Option String} {v : View} {x x' : ActiveJob ρ} {a : Ack ρ} {w : String}
  {pc : SendPc} {r : Option Reply} {q : Option SendPc}

theorem Under.fresh (name : Option String) (job : ClaimedJob) :
    Under name ({ job := job } : ActiveJob ρ) where
  proc := .inl rfl
  stopper := .inl rfl
  beat := .inl rfl
  calls _ hc := by cases hc

theorem Under.calls_append (h : Under name x) (hw : name = some w) (a : Ack ρ) :
    ∀ c ∈ x.calls ++ [ackCall x.job w a], name = some c.workerId := by
  rw [List.forall_mem_append]
  refine ⟨h.calls, fun c hc => ?_⟩
  obtain rfl := List.mem_singleton.mp hc
  rw [hw]
  cases a <;> rfl

theorem Under.cancelProc (h : Under name x) : Under name x.cancelProc.1 := by
  obtain ⟨wake, hwake⟩ := x.cancelProc_eq
  rw [hwake]
  exact ⟨h.proc, h.stopper, h.beat, h.calls⟩

theorem Under.cancelInner (h : Under name x) : Under name x.cancelInner.1 := by
  obtain ⟨wake, hwake⟩ := x.cancelInner_eq
  rw [hwake]
  exact ⟨h.proc, h.stopper, h.beat, h.calls⟩

theorem Under.cancelBeat (h : Under name x) : Under name x.cancelBeat.1 := by
  obtain ⟨wake, hwake⟩ := x.cancelBeat_eq
  rw [hwake]
  exact ⟨h.proc, h.stopper, h.beat, h.calls⟩

theorem Under.cleanupJob (h : Under name x) : Under name x.cleanupJob.1 :=
  Under.cancelBeat (x := { x with tracked := false }) ⟨h.proc, h.stopper, h.beat, h.calls⟩

theorem Under.reportLost (h : Under name x) (op : String) : Under name (x.reportLost op) :=
  ⟨h.proc, h.stopper, h.beat, h.calls⟩

theorem Under.withProc (h : Under name x) {pc : ProcPc ρ}
    (hpc : pc.sender = none ∨ pc.sender = name) : Under name { x with proc := pc } :=
  ⟨hpc, h.stopper, h.beat, h.calls⟩

theorem Under.withStopper (h : Under name x) {pc : AbandonPc}
    (hpc : pc.sender = none ∨ pc.sender = name) : Under name { x with stopper := pc } :=
  ⟨h.proc, hpc, h.beat, h.calls⟩

/-- A sender calls under its own id. -/
theorem ActiveJob.SendStep.under (hs : ActiveJob.SendStep x a w pc r x' q) (hw : name = some w)
    (h : Under name x) : Under name x' := by
  cases hs with
  | sent => exact ⟨h.proc, h.stopper, h.beat, h.calls_append hw a⟩
  | _ => exact ⟨h.proc, h.stopper, h.beat, h.calls⟩

theorem ActiveJob.sender_afterCancel : x.afterCancel.sender = none := by
  rw [afterCancel]
  split
  · rfl
  · cases x.cancelReason <;> rfl

theorem ActiveJob.sender_afterHandler (o : Outcome ρ) : (x.afterHandler o).sender = none := by
  unfold afterHandler
  split
  · exact sender_afterCancel
  · cases o.ack <;> rfl

theorem ProcPc.sender_elim (hw : name = some w) (q : Option SendPc) :
    (q.elim ProcPc.cleanup (.sending a w)).sender = none ∨
      (q.elim ProcPc.cleanup (.sending a w)).sender = name := by
  cases q with
  | none => exact .inl rfl
  | some pc => exact .inr hw.symm

theorem AbandonPc.sender_elim (hw : name = some w) (q : Option SendPc) :
    (q.elim AbandonPc.cleanup (.sending w)).sender = none ∨
      (q.elim AbandonPc.cleanup (.sending w)).sender = name := by
  cases q with
  | none => exact .inl rfl
  | some pc => exact .inr hw.symm

theorem ActiveJob.Next.under {a : JobAction ρ} {eff : Effect} (hn : ActiveJob.Next v x a x' eff)
    (hv : ∀ {w}, truthy v.workerId = some w → name = some w) (h : Under name x) :
    Under name x' := by
  have hproc : ∀ {a w pc}, x.proc = .sending a w pc → name = some w := by
    intro a w pc hp
    have := h.proc
    rw [hp] at this
    exact this.elim (fun hnone => by cases hnone) Eq.symm
  have hstopper : ∀ {w pc}, x.stopper = .sending w pc → name = some w := by
    intro w pc hp
    have := h.stopper
    rw [hp] at this
    exact this.elim (fun hnone => by cases hnone) Eq.symm
  cases hn with
  | never | denied | cut | closed => exact ⟨.inl rfl, h.stopper, h.beat, h.calls⟩
  | startInner | startDirect => exact ⟨.inl rfl, h.stopper, .inl rfl, h.calls⟩
  | waitCancelled =>
    have hy : Under name { x with procWake := none } := ⟨h.proc, h.stopper, h.beat, h.calls⟩
    exact hy.cancelInner.withProc (.inl sender_afterCancel)
  | waitDone => exact ⟨.inl (sender_afterHandler _), h.stopper, h.beat, h.calls⟩
  | waitTimeout =>
    have hy : Under name { x with procWake := none } := ⟨h.proc, h.stopper, h.beat, h.calls⟩
    have hz := hy.cancelInner
    exact ⟨.inl rfl, hz.stopper, hz.beat, hz.calls⟩
  | granted _ hm => exact ⟨.inr (hv hm.workerId).symm, h.stopper, h.beat, h.calls⟩
  | replied hp _ hs =>
    have hy := hs.under (hproc hp) h
    exact ⟨ProcPc.sender_elim (hproc hp) _, hy.stopper, hy.beat, hy.calls⟩
  | reported => exact (h.reportLost _).cancelBeat.withProc (.inl rfl)
  | send hp _ hs => exact (hs.under (hproc hp) h).withProc (ProcPc.sender_elim (hproc hp) _)
  | cleanup =>
    refine h.cleanupJob.withProc (.inl ?_)
    split <;> rfl
  | innerNever | innerStart | awaits | innerAwaits | innerEnds =>
    exact ⟨h.proc, h.stopper, h.beat, h.calls⟩
  | beatCancelled | beatStart | beatOk | beatExpired | beatCrash | beatError | beatAlreadyLost
  | beatLost => exact ⟨h.proc, h.stopper, .inl rfl, h.calls⟩
  | beatTimer =>
    refine ⟨h.proc, h.stopper, ?_, h.calls⟩
    dsimp only
    rw [ActiveJob.beats]
    split
    · exact .inl rfl
    · cases hw : truthy v.workerId with
      | none => exact .inl rfl
      | some w => exact .inr (hv hw).symm
  | beatReported =>
    have hy := (h.reportLost "heartbeat").cancelProc
    exact ⟨hy.proc, hy.stopper, .inl rfl, hy.calls⟩
  | stopDenied => exact h.withStopper (.inl rfl)
  | stopGranted _ hm => exact ⟨h.proc, .inr (hv hm.workerId).symm, h.beat, h.calls⟩
  | stopReplied hp _ hs =>
    have hy := hs.under (hstopper hp) h
    exact ⟨hy.proc, AbandonPc.sender_elim (hstopper hp) _, hy.beat, hy.calls⟩
  | stopReported => exact (h.reportLost _).cancelBeat.cancelProc.withStopper (.inl rfl)
  | stopSend hp _ hs =>
    exact (hs.under (hstopper hp) h).withStopper (AbandonPc.sender_elim (hstopper hp) _)
  | stopCleanup =>
    refine h.cleanupJob.withStopper (.inl ?_)
    rw [awaitedBeat]
    split
    · rfl
    · split <;> rfl
  | stopClosed =>
    refine ⟨h.proc, .inl ?_, h.beat, h.calls⟩
    dsimp only
    rw [awaitedBeat]
    split <;> rfl
  | ends => exact ⟨.inl (sender_afterHandler _), h.stopper, h.beat, h.calls⟩
  | @woken k w =>
    cases k <;> exact ⟨h.proc, h.stopper, h.beat, h.calls⟩

end

section

variable {s s' : SpooledWorker ρ} {a : Action ρ} {o : Options}
  {ok : SpooledWorker ρ → Action ρ → Prop} {e : ℕ} {x x' : ActiveJob ρ}

theorem SpooledWorker.name_of_releaseId (hs : Speaks s) {w : String}
    (hw : s.releaseId = some w) : s.name = some w := by
  rw [SpooledWorker.releaseId] at hw
  cases hworker : truthy s.workerId with
  | some w' =>
    rw [hworker, Option.some_or] at hw
    exact hw ▸ hs.name_of_workerId hworker
  | none => rwa [hworker, Option.none_or] at hw

theorem Move.under (hm : Move s e x a x') (hs : Speaks s) (h : Under s.name x) :
    Under s.name x' := by
  cases hm with
  | next _ hn => exact hn.under hs.name_of_workerId h
  | registered | unreleased | released => exact ⟨.inl rfl, h.stopper, h.beat, h.calls⟩
  | displaced => exact ⟨h.proc, h.stopper, h.beat, h.calls⟩
  | release _ _ hw =>
    have hname := SpooledWorker.name_of_releaseId hs hw
    exact ⟨.inr hname.symm, h.stopper, h.beat, h.calls_append hname _⟩
  | forced =>
    obtain ⟨wake, hwake⟩ := x.forceFail_eq
    rw [hwake]
    exact ⟨h.proc, h.stopper, h.beat, h.calls⟩
  | begun => exact ⟨h.proc, .inl rfl, h.beat, h.calls⟩

/-- Where executions exist the name of the worker is settled. -/
theorem name_of_step (hl : Life s) (hstep : s.step a = some s') (hx : s.jobs[e]? = some x) :
    s'.name = s.name := by
  have hboot := hl.booted hx
  have hname : s'.registeredWorkerId = s.registeredWorkerId := by
    cases a with
    | job e a =>
      obtain ⟨-, x, x', eff, -, -, rfl⟩ := SpooledWorker.job_of_step hstep
      rfl
    | main a =>
      cases SpooledWorker.main_of_step hstep with
      | start _ hm | register _ hm =>
        rw [hm] at hboot
        cases hboot
      | _ => rfl
    | stop a => cases SpooledWorker.stop_of_step hstep <;> rfl
    | run =>
      obtain ⟨-, t, rest, -, rfl⟩ := SpooledWorker.run_of_step hstep
      rfl
  rw [SpooledWorker.name, hname, SpooledWorker.name]

theorem under_of_reachable (h : (system ρ o).Reachable ok s) (hx : s.jobs[e]? = some x) :
    Under s.name x := by
  refine forall_jobs_in (P := fun s _ x => Under s.name x) ?_ ?_ ?_ h hx
  · exact fun _ _ _ _ => Under.fresh _ _
  · intro s a s' e x hr _ hstep hx _ hP
    rwa [name_of_step (life_of_reachable hr) hstep hx]
  · intro s a s' e x x' hr _ hstep hx _ hP hm
    rw [name_of_step (life_of_reachable hr) hstep hx]
    exact hm.under (speaks_of_reachable hr) hP

end

end SpooledSdk.Worker.Async
