/-
Concurrency slots of the asynchronous worker.

`_poll` asks for `concurrency - len(_active_jobs)` jobs.  A handler outlives its entry where
its execution is displaced by a newer claim of the same id, and where the process task cleans
up while the inner task has not finished.

* `held_of_reachable` — under `KeepsEntries`, and while the intake is open, every handler that
  has not finished has its entry;
* `handlers_le_concurrency` — so the handlers that run never exceed `concurrency`.
-/
import SpooledSdk.Worker.AsyncLife

namespace SpooledSdk.Worker.Async

variable {ρ : Type}

/-- The handler's coroutine was started and has not finished. -/
def ActiveJob.handling (x : ActiveJob ρ) : Bool :=
  (x.proc matches .handler) || (x.inner matches .running)

/-- The process task has not begun, or runs the handler itself. -/
def ProcPc.unfinished : ProcPc ρ → Bool
  | .created | .handler => true
  | _ => false

/-- The execution was registered and its handler has not finished. -/
def ActiveJob.unfinished (x : ActiveJob ρ) : Bool := x.proc.unfinished || x.inner.alive

/-- The execution takes a slot, or its handler may still run. -/
def ActiveJob.busy (x : ActiveJob ρ) : Bool := x.tracked || x.unfinished

/-- The server returns no more jobs than a claim asked for. -/
def ClaimsWithin (s : SpooledWorker ρ) : Action ρ → Bool
  | .main (.claimed js) =>
    match s.main with
    | .claimWait n => js.length ≤ n
    | _ => true
  | _ => true

/-- No registration takes the entry of an execution whose handler has not finished, and no
process task drops the entry while its inner task has not finished. -/
def KeepsEntries (s : SpooledWorker ρ) : Action ρ → Bool
  | .main .go =>
    match s.main with
    | .jobs (e :: _) => s.intakeClosed || s.jobs[e]?.all fun x =>
        (s.activeJobs.get? x.job.id).all fun old => s.jobs[old]?.all fun y => !y.unfinished
    | _ => true
  | .job e (.go .proc) => s.jobs[e]?.all fun x => !(x.proc matches .cleanup) || !x.inner.alive
  | _ => true

section

variable {s s' : SpooledWorker ρ} {e : ℕ} {x x' : ActiveJob ρ} {a : Action ρ} {o : Options}
  {ok : SpooledWorker ρ → Action ρ → Prop}

theorem unfinished_afterCancel : x.afterCancel.unfinished = false := by
  rw [ActiveJob.afterCancel]
  split
  · rfl
  · cases x.cancelReason <;> rfl

theorem unfinished_afterHandler (r : Outcome ρ) : (x.afterHandler r).unfinished = false := by
  unfold ActiveJob.afterHandler
  split
  · exact unfinished_afterCancel
  · cases r.ack <;> rfl

/-- A move that neither begins a task nor goes back to a handler. -/
private theorem unfinished_mono (hu : x'.unfinished = true)
    (hp : x'.proc.unfinished = true → x.unfinished = true)
    (hi : x'.inner.alive = true → x.unfinished = true) : x.unfinished = true :=
  (Bool.or_eq_true _ _ ▸ hu).elim hp hi

/-- Only a clean-up drops the entry, and no step but the first segment of the process task
brings a handler into being. -/
private theorem unfinished_of_next {v : View} {act : JobAction ρ} {eff : Effect}
    (h : ActiveJob.Next v x act x' eff) (hu : x'.unfinished = true) :
    x.unfinished = true ∧ (eff.leave = false ∨ x.stopper = .cleanup ∨
      act = .go .proc ∧ x.proc = .cleanup ∧ x.inner.alive = true) := by
  have hinner : x.inner.alive = true → x.unfinished = true := fun hi => by
    rw [ActiveJob.unfinished, hi, Bool.or_true]
  have hproc : x.proc.unfinished = true → x.unfinished = true := fun hp => by
    rw [ActiveJob.unfinished, hp, Bool.true_or]
  cases h with
  | never hp | startInner hp | startDirect hp =>
    exact ⟨hproc (by rw [hp]; rfl), .inl rfl⟩
  | waitCancelled hp hw =>
    obtain ⟨w, heq⟩ := ActiveJob.cancelInner_eq { x with procWake := none }
    rw [heq] at hu
    refine ⟨unfinished_mono hu (fun h => ?_) hinner, .inl rfl⟩
    rw [show ProcPc.unfinished _ = _ from unfinished_afterCancel (x := x)] at h
    cases h
  | waitDone hp hw hc hi =>
    refine ⟨unfinished_mono hu (fun h => ?_) hinner, .inl rfl⟩
    rw [show ProcPc.unfinished _ = _ from unfinished_afterHandler (x := x) _] at h
    cases h
  | waitTimeout hp hw hc hi =>
    obtain ⟨w, heq⟩ := ActiveJob.cancelInner_eq { x with procWake := none }
    rw [heq] at hu
    exact ⟨unfinished_mono hu nofun hinner, .inl rfl⟩
  | denied | granted | cut | closed =>
    exact ⟨unfinished_mono hu nofun hinner, .inl rfl⟩
  | @replied k w r y q hp hw hs =>
    refine ⟨unfinished_mono hu (fun h => ?_) (fun hi => hinner (hs.same.inner ▸ hi)), .inl rfl⟩
    cases q <;> cases h
  | @reported k w hp =>
    obtain ⟨w', heq⟩ := (x.reportLost (ackOperation k)).cancelBeat_eq
    rw [heq] at hu
    exact ⟨unfinished_mono hu nofun hinner, .inl rfl⟩
  | @send k w pc y q hp hr hs =>
    refine ⟨unfinished_mono hu (fun h => ?_) (fun hi => hinner (hs.same.inner ▸ hi)), .inl rfl⟩
    cases q <;> cases h
  | cleanup hp =>
    obtain ⟨w, heq⟩ := x.cleanupJob_eq
    rw [heq] at hu
    have hi : x.inner.alive = true := by
      refine (Bool.or_eq_true _ _ ▸ hu).elim (fun h => ?_) id
      dsimp only at h
      split at h <;> cases h
    exact ⟨hinner hi, .inr (.inr ⟨rfl, hp, hi⟩)⟩
  | innerNever hi | innerStart hi => exact ⟨hinner (by rw [hi]; rfl), .inl rfl⟩
  | beatReported =>
    obtain ⟨w, heq⟩ := (x.reportLost "heartbeat").cancelProc_eq
    rw [heq] at hu
    exact ⟨hu, .inl rfl⟩
  | stopReplied _ _ hs | stopSend _ _ hs =>
    refine ⟨unfinished_mono hu (fun h => hproc (hs.same.proc ▸ h))
      (fun hi => hinner (hs.same.inner ▸ hi)), .inl rfl⟩
  | stopReported =>
    obtain ⟨w, heq⟩ := (x.reportLost "fail").cancelBeat_eq
    obtain ⟨w', heq'⟩ := (x.reportLost "fail").cancelBeat.1.cancelProc_eq
    rw [heq', heq] at hu
    exact ⟨hu, .inl rfl⟩
  | stopCleanup hp =>
    obtain ⟨w, heq⟩ := x.cleanupJob_eq
    rw [heq] at hu
    exact ⟨hu, .inr (.inl hp)⟩
  | awaits hp | ends hp => exact ⟨hproc (by rw [hp]; rfl), .inl rfl⟩
  | innerAwaits hi | innerEnds hi => exact ⟨hinner (by rw [hi]; rfl), .inl rfl⟩
  | @woken k w hw hn => cases k <;> exact ⟨hu, .inl rfl⟩
  | _ => exact ⟨hu, .inl rfl⟩

/-- A closed intake stays closed while there are executions. -/
theorem intake_of_step (hl : Life s) (hstep : s.step a = some s')
    (hx : s.jobs[e]? = some x) (h : s'.intakeClosed = false) : s.intakeClosed = false := by
  cases a with
  | main act =>
    cases SpooledWorker.main_of_step hstep with
    | start _ hm =>
      have := (hl.boot (by rw [hm]; rfl)).1
      rw [this] at hx
      cases hx
    | _ => exact h
  | stop act =>
    cases SpooledWorker.stop_of_step hstep with
    | close => cases h
    | _ => exact h
  | job i act =>
    obtain ⟨-, y, y', eff, hy, hn, rfl⟩ := SpooledWorker.job_of_step hstep
    exact h
  | run =>
    obtain ⟨-, t, rest, -, rfl⟩ := SpooledWorker.run_of_step hstep
    exact h

/-- While the intake is open, an execution whose handler has not finished has its entry. -/
private def Held (s : SpooledWorker ρ) (_ : ℕ) (x : ActiveJob ρ) : Prop :=
  s.intakeClosed = false → x.unfinished = true → x.tracked = true

private theorem held_of_reachable
    (h : (system ρ o).Reachable (fun s a => KeepsEntries s a = true) s)
    (hx : s.jobs[e]? = some x) : Held s e x := by
  refine forall_jobs_in (P := Held) ?_ ?_ ?_ h hx
  · intro s a s' e j _ _ _ _ _ hu
    cases hu
  · intro s a s' e x hr ha hstep hx hx' hP hopen hu
    exact hP (intake_of_step (life_of_reachable hr) hstep hx hopen) hu
  · intro s a s' e x x' hr ha hstep hx hx' hP hm hopen hu
    have hl := life_of_reachable hr
    have hwf := wf_of_reachable hr
    have hopen' := intake_of_step hl hstep hx hopen
    -- a job that the poll has not registered has no task
    have hblank : x.proc.unstarted = true → x'.proc.unfinished = false →
        x'.inner = x.inner → x'.tracked = true := by
      intro hun hpc hi
      rw [ActiveJob.unfinished, hpc, hi, (hwf.blank hx hun).inner] at hu
      cases hu
    cases hm with
    | @next act x' eff hp hn =>
      obtain ⟨hu', hleave | hstop | ⟨rfl, hproc, hinner⟩⟩ := unfinished_of_next hn hu
      · rw [hn.frame.stays hleave]
        exact hP hopen' hu'
      · -- `stop()` abandons nothing before it has closed the intake
        have := hwf.early (hl.early_of_open hopen') hx
        rw [hstop] at this
        cases this
      · rw [KeepsEntries, hx, Option.all_some, hproc, hinner] at ha
        cases ha
    | registered => rfl
    | @displaced e' todo y hm hi hy he ht =>
      have hfin : x.unfinished = false := by
        simpa [KeepsEntries, hm, hi, hy, he, hx] using ha
      rw [show x.displace.unfinished = x.unfinished from rfl, hfin] at hu
      cases hu
    | unreleased _ _ _ ht | release _ _ _ ht | released _ ht =>
      exact hblank (by rw [ht]; rfl) rfl rfl
    | forced =>
      obtain ⟨w, heq⟩ := x.forceFail_eq
      rw [heq] at hu ⊢
      exact hP hopen' hu
    | begun => exact hP hopen' hu

/-- The slots that the poll in progress may still fill. -/
def MainPc.reserved : MainPc → ℕ
  | .claimWait n => n
  | pc => pc.todo.length

/-- A step makes no execution busy but the one it registers. -/
private theorem busy_of_step (hwf : Wf s) (hstep : s.step a = some s') {i : ℕ}
    (h : (s'.jobs[i]?).any ActiveJob.busy = true) :
    (s.jobs[i]?).any ActiveJob.busy = true ∨
      ∃ todo, a = .main .go ∧ s.main = .jobs (i :: todo) ∧ s.intakeClosed = false := by
  obtain ⟨x', hx', hb⟩ := (Option.any_eq_true _ _).mp h
  rcases step_move hwf hstep hx' with ⟨x, hx, rfl | hm⟩ | ⟨-, j, rfl⟩
  · rw [hx]
    exact .inl hb
  · have hbusy : x.tracked = true ∨ x.unfinished = true →
        (s.jobs[i]?).any ActiveJob.busy = true := by
      intro hor
      rw [hx]
      exact (Bool.or_eq_true _ _).mpr hor
    have hor : x'.tracked = true ∨ x'.unfinished = true := (Bool.or_eq_true _ _).mp hb
    have hblank : x.proc.unstarted = true → x'.proc.unfinished = false → x'.inner = x.inner →
        x'.tracked = x.tracked → (s.jobs[i]?).any ActiveJob.busy = true := by
      intro hun hpc hi ht
      refine hbusy (hor.imp (fun h => ht ▸ h) fun hu => ?_)
      rw [ActiveJob.unfinished, hpc, hi, (hwf.blank hx hun).inner] at hu
      cases hu
    cases hm with
    | @next act x' eff hp hn =>
      refine .inl (hbusy ?_)
      rcases hor with ht | hu
      · cases hleave : eff.leave with
        | false => exact .inl (hn.frame.stays hleave ▸ ht)
        | true =>
          rw [hn.frame.leaves hleave] at ht
          cases ht
      · exact .inr (unfinished_of_next hn hu).1
    | registered hm hi ht => exact .inr ⟨_, rfl, hm, hi⟩
    | displaced _ _ _ _ ht => exact .inl (hbusy (.inl ht))
    | unreleased _ _ _ ht | release _ _ _ ht | released _ ht =>
      exact .inl (hblank (by rw [ht]; rfl) rfl rfl rfl)
    | forced =>
      obtain ⟨w, heq⟩ := x.forceFail_eq
      rw [heq] at hor
      exact .inl (hbusy hor)
    | begun => exact .inl (hbusy hor)
  · cases hb

theorem options_of_reachable (h : (system ρ o).Reachable ok s) : s.options = o := by
  refine h.invariant (P := fun s : SpooledWorker ρ => s.options = o) rfl ?_
  intro s a s' hP _ hstep
  rw [← hP]
  replace hstep : s.step a = some s' := hstep
  cases a with
  | job i act =>
    obtain ⟨-, y, y', eff, hy, hn, rfl⟩ := SpooledWorker.job_of_step hstep
    rfl
  | stop act => cases SpooledWorker.stop_of_step hstep <;> rfl
  | main act => cases SpooledWorker.main_of_step hstep <;> rfl
  | run =>
    obtain ⟨-, t, rest, -, rfl⟩ := SpooledWorker.run_of_step hstep
    rfl

/-- While the intake is open, the entries cover the busy executions. -/
private theorem busy_le (h : (system ρ o).Reachable (fun s a => KeepsEntries s a = true) s)
    (hopen : s.intakeClosed = false) :
    s.jobs.countP ActiveJob.busy ≤ s.activeJobs.length := by
  rw [← (wf_of_reachable h).indexed.countP_live]
  refine List.countP_mono_left fun x hx hb => ?_
  obtain ⟨i, hi⟩ := List.mem_iff_getElem?.mp hx
  exact ((Bool.or_eq_true _ _).mp hb).elim id (held_of_reachable h hi hopen)

/-- The busy executions and the slots still to fill fit into `concurrency`. -/
private theorem reserved_of_reachable
    (h : (system ρ o).Reachable (fun s a => (ClaimsWithin s a && KeepsEntries s a) = true) s) :
    s.jobs.countP ActiveJob.busy + s.main.reserved ≤ o.concurrency := by
  refine h.invariant_of
    (I := (system ρ o).Reachable fun s a => (ClaimsWithin s a && KeepsEntries s a) = true)
    (P := fun s : SpooledWorker ρ =>
      s.jobs.countP ActiveJob.busy + s.main.reserved ≤ o.concurrency) (fun _ => id)
    (Nat.zero_le _) ?_
  intro s a s' hr hP ha hstep
  replace hstep : s.step a = some s' := hstep
  rw [Bool.and_eq_true] at ha
  have hwf := wf_of_reachable hr
  have hl := life_of_reachable hr
  -- unless the step registers a job, no execution becomes busy
  have hle : (∀ e todo, a = .main .go → s.main = .jobs (e :: todo) → s.intakeClosed = true) →
      s'.jobs.countP ActiveJob.busy ≤ s.jobs.countP ActiveJob.busy := by
    intro hn
    refine List.countP_le_of_forall fun i hi => ?_
    rcases busy_of_step hwf hstep hi with hb | ⟨todo, ha, hm, hopen⟩
    · exact hb
    · rw [hn i todo ha hm] at hopen
      cases hopen
  cases a with
  | job i act =>
    have hmain : s'.main = s.main := by
      obtain ⟨-, y, y', eff, hy, hn, rfl⟩ := SpooledWorker.job_of_step hstep
      rfl
    rw [hmain]
    exact Nat.le_trans (Nat.add_le_add_right (hle nofun) _) hP
  | stop act =>
    have hmain : s'.main = s.main := by
      cases SpooledWorker.stop_of_step hstep <;> rfl
    rw [hmain]
    exact Nat.le_trans (Nat.add_le_add_right (hle nofun) _) hP
  | run =>
    have hmain : s'.main = s.main := by
      obtain ⟨-, t, rest, -, rfl⟩ := SpooledWorker.run_of_step hstep
      rfl
    rw [hmain]
    exact Nat.le_trans (Nat.add_le_add_right (hle nofun) _) hP
  | main act =>
    have hgoto : (∀ e todo, s.main = .jobs (e :: todo) → s.intakeClosed = true) →
        s'.main.reserved ≤ s.main.reserved →
        s'.jobs.countP ActiveJob.busy + s'.main.reserved ≤ o.concurrency := fun hn hres =>
      Nat.le_trans (Nat.add_le_add (hle fun e todo _ => hn e todo) hres) hP
    have hsucc : ∀ e todo, s.main = .jobs (e :: todo) →
        s'.jobs.countP ActiveJob.busy ≤ s.jobs.countP ActiveJob.busy + 1 := by
      intro e todo hm
      refine List.countP_le_succ (e := e) fun i hie hb => ?_
      rcases busy_of_step hwf hstep hb with hold | ⟨todo', -, hm', -⟩
      · exact hold
      · rw [hm] at hm'
        cases hm'
        exact absurd rfl hie
    cases SpooledWorker.main_of_step hstep with
    | @poll w hc hm hs hw hn =>
      have hopen : s.intakeClosed = false := by
        rw [hl.intake]
        by_contra hne
        have hidle : s.stop ≠ .idle := fun h => by
          rw [h] at hne
          exact hne rfl
        have := hl.stopping hidle
        rw [hs] at this
        split at this <;> cases this
      have hbusy := busy_le (hr.mono fun _ _ h => (Bool.and_eq_true _ _ ▸ h).2) hopen
      show s.jobs.countP ActiveJob.busy + s.availableSlots ≤ o.concurrency
      rw [SpooledWorker.availableSlots, options_of_reachable hr] at hn ⊢
      omega
    | @enter e todo x hc hm hx hi =>
      have hone := hsucc e todo hm
      rw [hm] at hP
      have hP' : s.jobs.countP ActiveJob.busy + (todo.length + 1) ≤ o.concurrency := hP
      refine Nat.le_trans (Nat.add_le_add_right hone _) ?_
      show _ + 1 + todo.length ≤ _
      omega
    | @claimed n js hc hm =>
      have hlen : js.length ≤ n := by
        have := ha.1
        rw [ClaimsWithin, hm] at this
        exact of_decide_eq_true this
      refine hgoto (fun e todo hj => ?_) ?_
      · rw [hm] at hj
        cases hj
      · rw [hm]
        show (List.range' s.jobs.length js.length).length ≤ n
        rw [List.length_range']
        exact hlen
    | unreleased hc hm _ hi | release hc hm _ hi =>
      refine hgoto (fun _ _ _ => hi) ?_
      rw [hm]
      exact Nat.le_succ _
    | leave hc hm _ hpc =>
      refine hgoto (fun e todo hj => ?_) ?_
      · rw [hm] at hj
        cases hj
      · rcases hpc with rfl | rfl <;> exact Nat.zero_le _
    | send hc hm _ =>
      refine hgoto (fun e todo hj => ?_) (hm ▸ Nat.le_refl _)
      rw [hm] at hj
      cases hj
    | start _ hm | answered _ hm | refused _ hm | register _ hm | registerFailed _ hm | skip _ hm
    | claimFailed _ hm | last _ hm | releaseReplied _ hm | released _ hm | finish _ hm
    | resume _ hm | woken _ hm | left _ hm =>
      refine hgoto (fun e todo hj => ?_) ?_
      · rw [hm] at hj
        cases hj
      · rw [hm]
        first | exact Nat.le_refl _ | exact Nat.zero_le _

/-- While no execution loses its entry to a newer claim or to its process task before its
handler has finished, the handlers that run never exceed `concurrency`. -/
theorem handlers_le_concurrency
    (h : (system ρ o).Reachable (fun s a => (ClaimsWithin s a && KeepsEntries s a) = true) s) :
    s.jobs.countP ActiveJob.handling ≤ o.concurrency := by
  refine Nat.le_trans ?_ (Nat.le_trans (Nat.le_add_right _ _) (reserved_of_reachable h))
  refine List.countP_mono_left fun x _ hh => (Bool.or_eq_true _ _).mpr (.inr ?_)
  refine (Bool.or_eq_true _ _).mpr (((Bool.or_eq_true _ _).mp hh).imp (fun hp => ?_) fun hi => ?_)
  · cases hx : x.proc <;> rw [hx] at hp <;> first | rfl | cases hp
  · cases hx : x.inner <;> rw [hx] at hi <;> first | rfl | cases hi

end

end SpooledSdk.Worker.Async
