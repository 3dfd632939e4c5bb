/-
Concurrency slots of the synchronous worker.

`_poll` asks for `concurrency - len(_active_jobs) - _abandoned_running` jobs.  The two
counters are the sizes of two sets of executions, which every step keeps:

* `abandonedRunning_eq` — `_abandoned_running` counts the executions flagged abandoned;
* `abandonedRunning_exact` — under `BooksInTime` these are the executions that were
  abandoned and whose thread has not returned;
* `handlers_le_concurrency` — under `KeepsEntries` the handler calls handed to the
  executor and not finished never exceed `concurrency`.
-/
import SpooledSdk.Worker.SyncAck

namespace SpooledSdk.Worker.Sync

variable {ρ : Type}

/-- The thread of the execution is past `_cleanup_job`. -/
def ThreadPc.back : ThreadPc ρ → Bool
  | .returned | .refused => true
  | _ => false

/-- The handler call was handed to the executor and has not finished. -/
def ThreadPc.handling : ThreadPc ρ → Bool
  | .queued | .arming | .calling | .running => true
  | _ => false

/-- `_abandon_job` has given the execution up and its thread has not returned. -/
def ActiveJob.lingers (x : ActiveJob ρ) : Bool := x.booked && !x.thread.back

section

variable {s s' : SpooledWorker ρ} {e : ℕ} {x x' : ActiveJob ρ} {a : Action ρ} {o : Options}
  {ok : SpooledWorker ρ → Action ρ → Prop}

/-! ### The counter of abandoned handlers -/

/-- An execution is flagged abandoned, or no longer, with the effect that counts it. -/
private def Counts (x x' : ActiveJob ρ) : Effect → Prop
  | .keep | .leave => x'.abandoned = x.abandoned
  | .leaveUp => x.abandoned = false ∧ x'.abandoned = true
  | .leaveDown => x.abandoned = true ∧ x'.abandoned = false

private theorem counts_cleanupJob {pc : ThreadPc ρ} :
    Counts x (x.cleanupJob pc).1 (x.cleanupJob pc).2 := by
  rw [ActiveJob.cleanupJob]
  cases ha : x.abandoned
  · exact ha.symm
  · exact ⟨ha, rfl⟩

private theorem counts_of_next {v : View} {act : JobAction ρ} {eff : Effect}
    (h : ActiveJob.Next v x act x' eff) : Counts x x' eff := by
  have habandon : ∀ {t reason pc r y pc' eff}, ActiveJob.AbandonStep v x t reason pc r y pc' eff →
      Counts x y eff := by
    intro t reason pc r y pc' eff hs
    cases hs with
    | send hs => exact hs.same.abandoned
    | book =>
      rw [ActiveJob.bookAbandoned]
      cases ha : x.abandoned
      · exact ⟨ha, rfl⟩
      · exact ha.symm
    | _ => rfl
  cases h with
  | arm ht =>
    show x.startJobTimeout.abandoned = _
    rw [ActiveJob.startJobTimeout]
    split <;> rfl
  | send ht hs => exact hs.same.abandoned
  | cleanup ht => exact counts_cleanupJob
  | @timeout r y pc' eff hs =>
    have := habandon hs
    cases eff <;> exact this
  | @stopper r y pc' eff hs =>
    have := habandon hs
    cases eff <;> exact this
  | _ => rfl

private theorem countP_set {p : ActiveJob ρ → Bool} {l : List (ActiveJob ρ)} (x' : ActiveJob ρ)
    (hx : l[e]? = some x) : (l.set e x').countP p + (if p x then 1 else 0) =
      l.countP p + if p x' then 1 else 0 := by
  obtain ⟨hlt, rfl⟩ := List.getElem?_eq_some_iff.mp hx
  have hpos : (if p l[e] then 1 else 0) ≤ l.countP p := by
    split
    · rename_i hp
      exact List.countP_pos_iff.mpr ⟨_, List.getElem_mem hlt, hp⟩
    · exact Nat.zero_le _
  rw [List.countP_set hlt]
  omega

private theorem counter_apply {eff : Effect} (hx : s.jobs[e]? = some x) (hc : Counts x x' eff)
    (h : s.abandonedRunning = s.jobs.countP ActiveJob.abandoned) :
    (s.apply e x' eff).abandonedRunning = (s.apply e x' eff).jobs.countP ActiveJob.abandoned := by
  have hset := countP_set (p := ActiveJob.abandoned) x' hx
  rw [apply_jobs]
  cases eff with
  | keep | leave =>
    rw [show x'.abandoned = x.abandoned from hc] at hset
    show s.abandonedRunning = _
    omega
  | leaveUp =>
    rw [hc.1, hc.2] at hset
    show s.abandonedRunning + 1 = _
    simpa [h] using hset.symm
  | leaveDown =>
    rw [hc.1, hc.2] at hset
    show s.abandonedRunning - 1 = _
    simp only [if_true, Bool.false_eq_true, if_false] at hset
    omega

/-- `_abandoned_running` is the number of executions flagged abandoned. -/
theorem abandonedRunning_eq (h : (system ρ o).Reachable ok s) :
    s.abandonedRunning = s.jobs.countP ActiveJob.abandoned := by
  refine h.invariant
    (P := fun s : SpooledWorker ρ => s.abandonedRunning = s.jobs.countP ActiveJob.abandoned)
    rfl ?_
  intro s a s' hP _ hstep
  replace hstep : s.step a = some s' := hstep
  -- an execution is stored that is as abandoned as before
  have hset' : ∀ {l : List (ActiveJob ρ)} {i y y'}, l[i]? = some y → y'.abandoned = y.abandoned →
      (l.set i y').countP ActiveJob.abandoned = l.countP ActiveJob.abandoned := by
    intro l i y y' hy hab
    have := countP_set (p := ActiveJob.abandoned) y' hy
    rw [hab] at this
    omega
  have hset : ∀ {i y y'}, s.jobs[i]? = some y → y'.abandoned = y.abandoned →
      s.abandonedRunning = (s.jobs.set i y').countP ActiveJob.abandoned := fun hy hab =>
    hP.trans (hset' hy hab).symm
  cases a with
  | job i act =>
    obtain ⟨y, y', eff, hy, hn, rfl⟩ := SpooledWorker.job_of_step hstep
    exact counter_apply hy (counts_of_next hn) hP
  | stop act =>
    cases SpooledWorker.stop_of_step hstep with
    | begin _ hy => exact hset hy rfl
    | _ => exact hP
  | main act =>
    cases SpooledWorker.main_of_step hstep with
    | claimed =>
      show s.abandonedRunning = _
      rw [List.countP_append, hP]
      simp [List.countP_map, Function.comp_def]
    | @enter i todo y hm hy hi =>
      have hdis : (Indexed.displaced ActiveJob.displace s.jobs s.activeJobs y.job.id).countP
          ActiveJob.abandoned = s.jobs.countP ActiveJob.abandoned :=
        Indexed.countP_displaced fun _ => rfl
      -- whether or not it displaces itself, the new entry is as abandoned as before
      obtain ⟨z, hz, hab⟩ : ∃ z, (Indexed.displaced ActiveJob.displace s.jobs s.activeJobs
          y.job.id)[i]? = some z ∧
          ({ y with thread := .registered, tracked := true } : ActiveJob ρ).abandoned =
            z.abandoned := by
        rw [Indexed.getElem?_displaced, hy]
        split
        · exact ⟨y.displace, rfl, rfl⟩
        · exact ⟨y, rfl, rfl⟩
      exact hP.trans (hdis.symm.trans (hset' hz hab).symm)
    | hold _ hy _ | unreleased _ hy _ | release _ hy _ | released _ hy | schedule _ hy
    | submit _ hy _ => exact hset hy rfl
    | discard _ hy => exact counter_apply hy counts_cleanupJob hP
    | _ => exact hP

/-! ### Abandoned handlers that still run -/

/-- No `_abandon_job` comes to its bookkeeping after `_cleanup_job` of the same execution. -/
def BooksInTime (s : SpooledWorker ρ) : Action ρ → Bool
  | .job e (.timeout none) => s.jobs[e]?.all fun x => x.timeout ≠ .book || !x.thread.back
  | .job e (.stopper none) => s.jobs[e]?.all fun x => x.stopper ≠ .book || !x.thread.back
  | _ => true

private theorem lingers_of_next {v : View} {act : JobAction ρ} {eff : Effect}
    (h : ActiveJob.Next v x act x' eff) (hP : x.abandoned = x.lingers)
    (ht : act = .timeout none → x.timeout = .book → x.thread.back = false)
    (hs : act = .stopper none → x.stopper = .book → x.thread.back = false) :
    x'.abandoned = x'.lingers := by
  have hsame : x'.abandoned = x.abandoned → x'.booked = x.booked →
      x'.thread.back = x.thread.back → x'.abandoned = x'.lingers := by
    intro ha hb hback
    rw [ha, hP, ActiveJob.lingers, ActiveJob.lingers, hb, hback]
  -- `_abandon_job` never moves the thread, and books while it runs
  have habandon : ∀ {t reason pc r y pc' eff}, ActiveJob.AbandonStep v x t reason pc r y pc' eff →
      (r = none → pc = .book → x.thread.back = false) → x'.thread = y.thread →
      x'.abandoned = y.abandoned → x'.booked = y.booked → x'.abandoned = x'.lingers := by
    intro t reason pc r y pc' eff hstep hbook hthread hab hbk
    cases hstep with
    | send hs =>
      have hf := hs.same
      exact hsame (hab.trans hf.abandoned) (hbk.trans hf.booked) (by rw [hthread, hf.thread])
    | book =>
      rw [hab, ActiveJob.lingers, hbk, hthread]
      show true = (true && !x.thread.back)
      rw [hbook rfl rfl]
      rfl
    | _ => exact hsame hab hbk (congrArg ThreadPc.back hthread)
  cases h with
  | pickUp hq | call hq | denied hq | granted hq =>
    exact hsame rfl rfl (by rw [hq]; rfl)
  | arm hq =>
    refine hsame ?_ ?_ (by rw [hq]; rfl)
    · show x.startJobTimeout.abandoned = _
      rw [ActiveJob.startJobTimeout]
      split <;> rfl
    · show x.startJobTimeout.booked = _
      rw [ActiveJob.startJobTimeout]
      split <;> rfl
  | @ends out hq =>
    refine hsame rfl rfl ?_
    rw [hq]
    cases out.ack <;> rfl
  | @send _ _ _ _ y pc' hq hsend =>
    refine hsame hsend.same.abandoned hsend.same.booked ?_
    rw [hq]
    cases pc' <;> rfl
  | cleanup hq => exact (Bool.and_false _).symm
  | @timeout r y pc' eff hstep => exact habandon hstep (fun hr => ht (by rw [hr])) rfl rfl rfl
  | @stopper r y pc' eff hstep => exact habandon hstep (fun hr => hs (by rw [hr])) rfl rfl rfl
  | _ => exact hsame rfl rfl rfl

/-- Under `BooksInTime` the executions flagged abandoned are those whose thread still runs. -/
theorem abandoned_eq_lingers (h : (system ρ o).Reachable (fun s a => BooksInTime s a = true) s)
    (hx : s.jobs[e]? = some x) : x.abandoned = x.lingers := by
  refine forall_jobs (P := fun x : ActiveJob ρ => x.abandoned = x.lingers) (fun _ => rfl) ?_ h hx
  intro s a s' i y y' hr ha _ hy _ hP hm
  have hsame : y'.abandoned = y.abandoned → y'.booked = y.booked →
      y'.thread.back = y.thread.back → y'.abandoned = y'.lingers := by
    intro hab hb hback
    rw [hab, hP, ActiveJob.lingers, ActiveJob.lingers, hb, hback]
  cases hm with
  | @next act y' eff hn =>
    refine lingers_of_next hn hP ?_ ?_ <;> rintro rfl hbook <;>
      simpa [BooksInTime, hy, hbook] using ha
  | held _ _ ht | registered _ _ ht | unreleased _ _ ht | release _ _ ht | released _ ht
  | scheduled _ ht | submitted _ _ ht => exact hsame rfl rfl (by rw [ht]; rfl)
  | displaced => exact hsame rfl rfl rfl
  | refused => exact (Bool.and_false _).symm
  | begun => exact hsame rfl rfl rfl

theorem options_of_reachable (h : (system ρ o).Reachable ok s) : s.options = o := by
  refine h.invariant (P := fun s : SpooledWorker ρ => s.options = o) rfl ?_
  intro s a s' hP _ hstep
  rw [← hP]
  replace hstep : s.step a = some s' := hstep
  cases a with
  | job i act =>
    obtain ⟨y, y', eff, hy, hn, rfl⟩ := SpooledWorker.job_of_step hstep
    exact apply_options eff
  | stop act => cases SpooledWorker.stop_of_step hstep <;> rfl
  | main act =>
    cases SpooledWorker.main_of_step hstep with
    | discard => exact apply_options _
    | _ => rfl

/-- Under `BooksInTime` the counter is the number of abandoned executions whose thread has
not returned; with all threads back and nothing active, a poll asks for every slot. -/
theorem abandonedRunning_exact
    (h : (system ρ o).Reachable (fun s a => BooksInTime s a = true) s) :
    s.abandonedRunning = s.jobs.countP ActiveJob.lingers ∧
      ((∀ x ∈ s.jobs, x.thread.unstarted = true ∨ x.thread.back = true) →
        s.activeJobs.length = 0 → s.abandonedRunning = 0 ∧
          ∀ s' w n, s.main = .locking → s.step (.main .go) = some s' →
            s'.main = .claiming w n → n = o.concurrency) := by
  have hcount : s.abandonedRunning = s.jobs.countP ActiveJob.lingers := by
    rw [abandonedRunning_eq h]
    refine List.countP_congr fun x hx => ?_
    obtain ⟨i, hi⟩ := List.mem_iff_getElem?.mp hx
    rw [abandoned_eq_lingers h hi]
  refine ⟨hcount, fun hback hempty => ?_⟩
  have hzero : s.abandonedRunning = 0 := by
    rw [hcount, List.countP_eq_zero]
    intro x hx hl
    obtain ⟨i, hi⟩ := List.mem_iff_getElem?.mp hx
    rcases hback x hx with hu | hb
    · rw [ActiveJob.lingers, ((wf_of_reachable h).blank hi hu).booked] at hl
      cases hl
    · rw [ActiveJob.lingers, hb, Bool.not_true, Bool.and_false] at hl
      cases hl
  refine ⟨hzero, fun s' w n hm hstep hclaim => ?_⟩
  cases SpooledWorker.main_of_step hstep with
  | poll hm' hs hw hn =>
    cases hclaim
    rw [SpooledWorker.availableSlots, hempty, hzero, options_of_reachable h]
    rfl
  | skip => cases hclaim
  | start hm' _ | run hm' | again hm' _ _ | leave hm' _ | claim hm' | done hm' | hold hm' _ _
  | enter hm' _ _ | unreleased hm' _ _ | release hm' _ _ | schedule hm' _ | noExecutor hm' _
  | executor hm' _ | submit hm' _ _ | refuse hm' _ _ | vanished hm' _ _ | discard hm' _
  | finish hm' | pause hm' | woken hm' _ =>
    rw [hm] at hm'
    cases hm'

/-! ### Handlers that the slots count -/

/-- The execution was registered and its handler has not finished. -/
def ThreadPc.unfinished : ThreadPc ρ → Bool
  | .registered | .scheduled | .queued | .arming | .calling | .running => true
  | _ => false

/-- The execution takes a slot, or its handler may still run. -/
def ActiveJob.busy (x : ActiveJob ρ) : Bool := x.tracked || x.thread.unfinished

/-- The server returns no more jobs than a claim asked for. -/
def ClaimsWithin (s : SpooledWorker ρ) : Action ρ → Bool
  | .main (.claimed js) =>
    match s.main with
    | .claimWait n => js.length ≤ n
    | _ => true
  | _ => true

/-- No registration takes the entry of an execution whose handler call was handed to the
executor and has not finished. -/
def KeepsEntries (s : SpooledWorker ρ) : Action ρ → Bool
  | .main .go =>
    match s.main with
    | .jobs (e :: _) => s.intakeClosed || s.jobs[e]?.all fun x =>
        (s.activeJobs.get? x.job.id).all fun old => s.jobs[old]?.all fun y => !y.thread.handling
    | _ => true
  | _ => true

/-- Where a registered job stands until its thread has it, and what holds its slot. -/
private structure Slotted (s : SpooledWorker ρ) (e : ℕ) (x : ActiveJob ρ) : Prop where
  registered : s.stop = .idle → x.thread = .registered → s.main.entered = some e
  scheduled : s.stop = .idle → x.thread = .scheduled → s.main.starting = some e
  held : s.stop = .idle → x.thread.unfinished = true → x.tracked = true ∨ x.abandoned = true

/-- A thread moves on towards its end, and an execution leaves its entry only when it is
flagged abandoned or its thread is back. -/
private theorem thread_of_next {v : View} {act : JobAction ρ} {eff : Effect}
    (h : ActiveJob.Next v x act x' eff) (hu : x'.thread.unfinished = true) :
    x.thread.unfinished = true ∧ (x'.thread = x.thread ∨ x'.thread.handling = true) ∧
      (x'.tracked = x.tracked ∧ x'.abandoned = x.abandoned ∨ x'.abandoned = true) := by
  have hframe := h.frame
  have hkeep : eff = .keep → x'.tracked = x.tracked ∧ x'.abandoned = x.abandoned := by
    rintro rfl
    exact ⟨hframe.stays rfl, counts_of_next h⟩
  have habandon : ∀ {t reason pc r y pc' eff}, ActiveJob.AbandonStep v x t reason pc r y pc' eff →
      x'.thread = y.thread → x'.tracked = y.tracked → x'.abandoned = y.abandoned →
      x.thread.unfinished = true ∧ (x'.thread = x.thread ∨ x'.thread.handling = true) ∧
        (x'.tracked = x.tracked ∧ x'.abandoned = x.abandoned ∨ x'.abandoned = true) := by
    intro t reason pc r y pc' eff hs ht htr hab
    have hthread := ht.trans hs.frame.1
    refine ⟨hthread ▸ hu, .inl hthread, ?_⟩
    cases hs with
    | book => exact .inr hab
    | send hs => exact .inl ⟨htr.trans hs.same.tracked, hab.trans hs.same.abandoned⟩
    | _ => exact .inl ⟨htr, hab⟩
  cases h with
  | pickUp ht | arm ht | call ht => exact ⟨by rw [ht]; rfl, .inr rfl, .inl (hkeep rfl)⟩
  | @ends out ht =>
    have hout : (out.ack.elim ThreadPc.cleanup ThreadPc.settling).unfinished = true := hu
    cases hack : out.ack <;> rw [hack] at hout <;> cases hout
  | @send _ _ _ _ _ pc' ht hs => cases pc' <;> cases hu
  | denied | granted | cleanup => cases hu
  | timeout hs => exact habandon hs rfl rfl rfl
  | stopper hs => exact habandon hs rfl rfl rfl
  | _ => exact ⟨hu, .inl rfl, .inl (hkeep rfl)⟩

private theorem stop_of_main {act : MainAction} (h : SpooledWorker.MainStep s act s') :
    s'.stop = s.stop := by
  cases h with
  | discard => exact apply_stop _
  | _ => rfl

/-- While no `stop()` runs, the poll loop hands on every job it registers. -/
private theorem Slotted.same {act : MainAction} (h : Slotted s e x) (hl : Life s)
    (hstep : SpooledWorker.MainStep s act s') (hx' : s'.jobs[e]? = some x) : Slotted s' e x := by
  have hstop := stop_of_main hstep
  -- the step does not change the execution, so it is not the one the poll loop moves
  have hmoved : ∀ {pc : ThreadPc ρ} {y : ActiveJob ρ} {i : ℕ}, x.thread = pc → y.thread ≠ pc →
      s'.jobs = s.jobs.set i y → i ≠ e := by
    intro pc y i hpc hne hj
    rw [hj] at hx'
    rcases List.getElem?_set_cases hx' with ⟨-, rfl⟩ | ⟨hi, -⟩
    · exact absurd hpc hne
    · exact hi
  have hup : s.main.booting = false → s.stop = .idle → s.executor = .up := by
    intro hb hs
    rw [hl.executor hb, hs]
    rfl
  refine ⟨fun hs ht => ?_, fun hs ht => ?_, fun hs => h.held (hstop ▸ hs)⟩
  · have hent := h.registered (hstop ▸ hs) ht
    cases hstep with
    | schedule hm hy =>
      rw [hm] at hent
      cases hent
      exact absurd rfl (hmoved ht (by simp [SpooledWorker.scheduleJobHeartbeat, ActiveJob.emit])
        rfl)
    | start hm _ | register hm | registerFailed hm | run hm | again hm _ _ | leave hm _ | skip hm
    | poll hm _ _ _ | claim hm | resend hm _ | claimed hm | claimFailed hm | done hm | finish hm
    | pause hm | woken hm _ | hold hm _ _ | enter hm _ _ | unreleased hm _ _ | release hm _ _
    | released hm _ | noExecutor hm _ | executor hm _ | submit hm _ _ | refuse hm _ _ | exiting hm _ _
    | vanished hm _ _ | discard hm _ =>
      rw [hm] at hent
      cases hent
  · have hsta := h.scheduled (hstop ▸ hs) ht
    have hs' : s.stop = .idle := hstop ▸ hs
    cases hstep with
    | executor hm hne =>
      rw [hm] at hsta
      exact hsta
    | noExecutor hm hne =>
      rw [hup (by rw [hm]; rfl) hs'] at hne
      cases hne
    | submit hm hy _ =>
      rw [hm] at hsta
      cases hsta
      exact absurd rfl (hmoved ht (by simp) rfl)
    | refuse hm _ hd | vanished hm _ hd =>
      rw [hup (by rw [hm]; rfl) hs'] at hd
      cases hd
    | exiting hm =>
      rw [hm] at hsta
      exact hsta
    | discard hm hy =>
      rw [hm] at hsta
      cases hsta
      exact absurd rfl (hmoved ht (by simp [ActiveJob.cleanupJob]) (apply_jobs _))
    | start hm _ | register hm | registerFailed hm | run hm | again hm _ _ | leave hm _ | skip hm
    | poll hm _ _ _ | claim hm | resend hm _ | claimed hm | claimFailed hm | done hm | finish hm
    | pause hm | woken hm _ | hold hm _ _ | enter hm _ _ | unreleased hm _ _ | release hm _ _
    | released hm _ | schedule hm _ =>
      rw [hm] at hsta
      cases hsta

private theorem Slotted.none_of_unstarted (ht : x.thread.unstarted = true) : Slotted s e x := by
  refine ⟨fun _ hr => ?_, fun _ hr => ?_, fun _ hr => ?_⟩ <;>
    cases hx : x.thread <;> rw [hx] at hr ht <;> first | (cases ht; done) | cases hr

/-- Under `KeepsEntries`, and while no `stop()` runs, every handler that has not finished is
counted by an entry or by `_abandoned_running`. -/
private theorem slotted_of_reachable
    (h : (system ρ o).Reachable (fun s a => KeepsEntries s a = true) s)
    (hx : s.jobs[e]? = some x) : Slotted s e x := by
  refine forall_jobs_in (P := Slotted) ?_ ?_ ?_ h hx
  · intro s a s' e j _ _ _ _
    exact .none_of_unstarted rfl
  · intro s a s' e x hr ha hstep hx hx' hP
    cases a with
    | main act => exact hP.same (life_of_reachable hr) (SpooledWorker.main_of_step hstep) hx'
    | stop act =>
      have hmain : s'.main = s.main ∧ (s'.stop = .idle → s.stop = .idle) := by
        cases SpooledWorker.stop_of_step hstep <;> exact ⟨rfl, by first | exact id | simp⟩
      exact ⟨fun hs => hmain.1 ▸ hP.registered (hmain.2 hs),
        fun hs => hmain.1 ▸ hP.scheduled (hmain.2 hs), fun hs => hP.held (hmain.2 hs)⟩
    | job i act =>
      obtain ⟨y, y', eff, hy, hn, rfl⟩ := SpooledWorker.job_of_step hstep
      have hmain := apply_main (s := s) (e := i) (x := y') eff
      have hstop := apply_stop (s := s) (e := i) (x := y') eff
      exact ⟨fun hs => hmain ▸ hP.registered (hstop ▸ hs),
        fun hs => hmain ▸ hP.scheduled (hstop ▸ hs), fun hs => hP.held (hstop ▸ hs)⟩
  · intro s a s' e x x' hr ha hstep hx hx' hP hm
    cases hm with
    | @next act x' eff hn =>
      obtain ⟨y, y', eff', hy, hn', rfl⟩ := SpooledWorker.job_of_step hstep
      have hmain := apply_main (s := s) (e := e) (x := y') eff'
      have hstop := apply_stop (s := s) (e := e) (x := y') eff'
      refine ⟨fun hs ht => ?_, fun hs ht => ?_, fun hs hu => ?_⟩
      · obtain ⟨-, hthread | hh, -⟩ := thread_of_next hn (by rw [ht]; rfl)
        · exact hmain ▸ hP.registered (hstop ▸ hs) (hthread ▸ ht)
        · rw [ht] at hh
          cases hh
      · obtain ⟨-, hthread | hh, -⟩ := thread_of_next hn (by rw [ht]; rfl)
        · exact hmain ▸ hP.scheduled (hstop ▸ hs) (hthread ▸ ht)
        · rw [ht] at hh
          cases hh
      · obtain ⟨hu', -, ⟨htr, hab⟩ | hab⟩ := thread_of_next hn hu
        · rw [htr, hab]
          exact hP.held (hstop ▸ hs) hu'
        · exact .inr hab
    | held | unreleased | release | released => exact .none_of_unstarted rfl
    | @registered todo hm hi ht =>
      have hgo := SpooledWorker.go_of_step hstep
      rw [hm] at hgo
      simp only [SpooledWorker.mainGo, hx, Option.map_some, SpooledWorker.processJob, hi,
        Bool.false_eq_true, if_false, Option.some_inj] at hgo
      subst hgo
      exact ⟨fun _ _ => rfl, by simp, fun _ _ => .inl rfl⟩
    | @displaced e' todo y hm hi hy he ht =>
      -- while no `stop()` runs, a registered job that has no thread is the poll loop's own
      have hkeep : x.thread.handling = false := by
        simpa [KeepsEntries, hm, hi, hy, he, hx] using ha
      have hstop := stop_of_main (SpooledWorker.main_of_step hstep)
      have hreg : s.stop = .idle → x.thread ≠ .registered := by
        intro hs hr
        have := hP.registered hs hr
        rw [hm] at this
        cases this
      have hsch : s.stop = .idle → x.thread ≠ .scheduled := by
        intro hs hr
        have := hP.scheduled hs hr
        rw [hm] at this
        cases this
      refine ⟨fun hs hr => absurd hr (hreg (hstop ▸ hs)),
        fun hs hr => absurd hr (hsch (hstop ▸ hs)),
        fun hs hu => ?_⟩
      have hu' : x.thread.unfinished = true := hu
      cases hthread : x.thread <;> rw [hthread] at hu' hkeep <;> first
        | (cases hu'; done)
        | (cases hkeep; done)
        | exact absurd hthread (hreg (hstop ▸ hs))
        | exact absurd hthread (hsch (hstop ▸ hs))
    | @scheduled todo hm ht =>
      have hgo := SpooledWorker.go_of_step hstep
      rw [hm] at hgo
      simp only [SpooledWorker.mainGo, hx, Option.map_some, Option.some_inj] at hgo
      subst hgo
      exact ⟨by rintro _ ⟨⟩, fun _ _ => rfl, fun hs _ => hP.held hs (by rw [ht]; rfl)⟩
    | @submitted todo hm hu ht =>
      have hstop := stop_of_main (SpooledWorker.main_of_step hstep)
      exact ⟨by rintro _ ⟨⟩, by rintro _ ⟨⟩, fun hs _ => hP.held (hstop ▸ hs) (by rw [ht]; rfl)⟩
    | refused => exact ⟨by rintro _ ⟨⟩, by rintro _ ⟨⟩, by rintro _ ⟨⟩⟩
    | begun hs ht =>
      have hstop : s'.stop ≠ .idle := by
        cases SpooledWorker.stop_of_step hstep <;> simp_all
      exact ⟨fun h => absurd h hstop, fun h => absurd h hstop, fun h => absurd h hstop⟩

/-- The slots that the poll in progress may still fill. -/
def MainPc.reserved : MainPc → ℕ
  | .claiming _ n | .claimWait n => n
  | pc => pc.todo.length

/-- A step makes no execution busy but the one it registers. -/
private theorem busy_of_step (hwf : Wf s) (hstep : s.step a = some s') {i : ℕ}
    (h : (s'.jobs[i]?).any ActiveJob.busy = true) :
    (s.jobs[i]?).any ActiveJob.busy = true ∨
      ∃ todo, a = .main .go ∧ s.main = .jobs (i :: todo) ∧ s.intakeClosed = false := by
  obtain ⟨x', hx', hb⟩ := (Option.any_eq_true _ _).mp h
  rcases step_move hwf hstep hx' with ⟨x, hx, rfl | hm⟩ | ⟨-, j, rfl⟩
  · rw [hx]
    exact .inl hb
  · have hbusy : x.busy = true → (s.jobs[i]?).any ActiveJob.busy = true := by
      intro hxb
      rw [hx]
      exact hxb
    have hor : x'.tracked = true ∨ x'.thread.unfinished = true := by
      simpa [ActiveJob.busy] using hb
    have hto : x.tracked = true ∨ x.thread.unfinished = true → x.busy = true := by
      simp [ActiveJob.busy]
    cases hm with
    | @next act x' eff hn =>
      refine .inl (hbusy (hto ?_))
      rcases hor with ht | hu
      · by_cases he : eff = .keep
        · exact .inl (hn.frame.stays he ▸ ht)
        · rw [hn.frame.leaves he] at ht
          cases ht
      · exact .inr (thread_of_next hn hu).1
    | registered hm hi ht => exact .inr ⟨_, rfl, hm, hi⟩
    | displaced _ _ _ _ ht => exact .inl (hbusy (hto (.inl ht)))
    | refused hm ht => exact .inl (hbusy (hto (.inr (by rw [ht]; rfl))))
    | scheduled hm ht | submitted hm hu ht =>
      exact .inl (hbusy (hto (.inr (by rw [ht]; rfl))))
    | held hm hi ht | unreleased hm hw ht | release hm hw ht | released hm ht =>
      refine .inl (hbusy (hto (hor.imp id ?_)))
      nofun
    | begun hs ht => exact .inl (hbusy (hto hor))
  · cases hb

/-- While no `stop()` runs, the entries and the abandoned handlers cover the busy executions. -/
private theorem busy_le (h : (system ρ o).Reachable (fun s a => KeepsEntries s a = true) s)
    (hs : s.stop = .idle) :
    s.jobs.countP ActiveJob.busy ≤ s.activeJobs.length + s.abandonedRunning := by
  rw [abandonedRunning_eq h, ← (wf_of_reachable h).indexed.countP_live]
  calc s.jobs.countP ActiveJob.busy
      ≤ s.jobs.countP fun x => x.tracked || x.abandoned := by
        refine List.countP_mono_left fun x hx hb => ?_
        obtain ⟨i, hi⟩ := List.mem_iff_getElem?.mp hx
        rw [Bool.or_eq_true]
        rcases Bool.or_eq_true _ _ ▸ hb with ht | hu
        · exact .inl ht
        · exact (slotted_of_reachable h hi).held hs hu
    _ ≤ s.jobs.countP ActiveJob.tracked + s.jobs.countP ActiveJob.abandoned := by
        generalize s.jobs = l
        induction l with
        | nil => exact Nat.le_refl _
        | cons x l ih =>
          rw [List.countP_cons, List.countP_cons, List.countP_cons]
          cases x.tracked <;> cases x.abandoned <;> simp <;> omega

/-- The busy executions and the slots still to fill fit into `concurrency`. -/
private theorem reserved_of_reachable
    (h : (system ρ o).Reachable (fun s a => (ClaimsWithin s a && KeepsEntries s a) = true) s) :
    s.jobs.countP ActiveJob.busy + s.main.reserved ≤ o.concurrency := by
  refine h.invariant_of
    (I := (system ρ o).Reachable fun s a => (ClaimsWithin s a && KeepsEntries s a) = true)
    (P := fun s : SpooledWorker ρ =>
      s.jobs.countP ActiveJob.busy + s.main.reserved ≤ o.concurrency) (fun _ => id)
    (Nat.zero_le _) ?_
  intro s a s' hr hP ha hstep
  replace hstep : s.step a = some s' := hstep
  rw [Bool.and_eq_true] at ha
  have hwf := wf_of_reachable hr
  -- unless the step registers a job, no execution becomes busy
  have hle : (∀ e todo, a = .main .go → s.main = .jobs (e :: todo) → s.intakeClosed = true) →
      s'.jobs.countP ActiveJob.busy ≤ s.jobs.countP ActiveJob.busy := by
    intro hn
    refine List.countP_le_of_forall fun i hi => ?_
    rcases busy_of_step hwf hstep hi with hb | ⟨todo, ha, hm, hopen⟩
    · exact hb
    · rw [hn i todo ha hm] at hopen
      cases hopen
  cases a with
  | job i act =>
    have hmain : s'.main = s.main := by
      obtain ⟨y, y', eff, hy, hn, rfl⟩ := SpooledWorker.job_of_step hstep
      exact apply_main eff
    rw [hmain]
    exact Nat.le_trans (Nat.add_le_add_right (hle nofun) _) hP
  | stop act =>
    have hmain : s'.main = s.main := by
      cases SpooledWorker.stop_of_step hstep <;> rfl
    rw [hmain]
    exact Nat.le_trans (Nat.add_le_add_right (hle nofun) _) hP
  | main act =>
    have hgoto : (∀ e todo, s.main = .jobs (e :: todo) → s.intakeClosed = true) →
        s'.main.reserved ≤ s.main.reserved →
        s'.jobs.countP ActiveJob.busy + s'.main.reserved ≤ o.concurrency := fun hn hres =>
      Nat.le_trans (Nat.add_le_add (hle fun e todo _ => hn e todo) hres) hP
    have hsucc : ∀ e todo, s.main = .jobs (e :: todo) →
        s'.jobs.countP ActiveJob.busy ≤ s.jobs.countP ActiveJob.busy + 1 := by
      intro e todo hm
      refine List.countP_le_succ (e := e) fun i hie hb => ?_
      rcases busy_of_step hwf hstep hb with hold | ⟨todo', -, hm', -⟩
      · exact hold
      · rw [hm] at hm'
        cases hm'
        exact absurd rfl hie
    cases SpooledWorker.main_of_step hstep with
    | @poll w hm hs hw hn =>
      have hidle : s.stop = .idle := by
        by_contra hne
        have := (life_of_reachable hr).stopping hne
        rw [hs] at this
        split at this <;> cases this
      have hle := busy_le (hr.mono fun _ _ h => (Bool.and_eq_true _ _ ▸ h).2) hidle
      show s.jobs.countP ActiveJob.busy + s.availableSlots ≤ o.concurrency
      rw [SpooledWorker.availableSlots, options_of_reachable hr] at hn ⊢
      omega
    | @enter e todo x hm hx hi =>
      have hone := hsucc e todo hm
      rw [hm] at hP
      have hP' : s.jobs.countP ActiveJob.busy + (todo.length + 1) ≤ o.concurrency := hP
      refine Nat.le_trans (Nat.add_le_add_right hone _) ?_
      show _ + 1 + todo.length ≤ _
      omega
    | @claimed n js hm =>
      have hlen : js.length ≤ n := by
        have := ha.1
        rw [ClaimsWithin, hm] at this
        exact of_decide_eq_true this
      refine hgoto (fun e todo hj => ?_) ?_
      · rw [hm] at hj
        cases hj
      · rw [hm]
        show (List.range' s.jobs.length js.length).length ≤ n
        rw [List.length_range']
        exact hlen
    | hold hm _ hi =>
      refine hgoto (fun _ _ _ => hi) ?_
      rw [hm]
      exact Nat.le_succ _
    | leave hm hpc =>
      refine hgoto (fun e todo hj => ?_) ?_
      · rw [hm] at hj
        cases hj
      · rcases hpc with rfl | rfl <;> exact Nat.zero_le _
    | resend hm _ =>
      refine hgoto (fun e todo hj => ?_) (hm ▸ Nat.le_refl _)
      rw [hm] at hj
      cases hj
    | start hm _ | register hm | registerFailed hm | run hm | again hm _ _ | skip hm
    | claim hm | claimFailed hm | done hm | finish hm | pause hm
    | woken hm _ | unreleased hm _ _ | release hm _ _ | released hm _
    | schedule hm _ | noExecutor hm _ | executor hm _ | submit hm _ _ | refuse hm _ _
    | exiting hm _ _ | vanished hm _ _ | discard hm _ =>
      refine hgoto (fun e todo hj => ?_) ?_
      · rw [hm] at hj
        cases hj
      · rw [hm]
        first | exact Nat.le_refl _ | exact Nat.zero_le _

/-- While no registration takes the entry of a handler that runs, the handler calls handed
to the executor and not finished never exceed `concurrency`. -/
theorem handlers_le_concurrency
    (h : (system ρ o).Reachable (fun s a => (ClaimsWithin s a && KeepsEntries s a) = true) s) :
    s.jobs.countP (fun x => x.thread.handling) ≤ o.concurrency := by
  refine Nat.le_trans ?_ (Nat.le_trans (Nat.le_add_right _ _) (reserved_of_reachable h))
  refine List.countP_mono_left fun x _ hh => ?_
  rw [ActiveJob.busy]
  cases ht : x.thread <;> rw [ht] at hh <;> first | (cases hh; done) | exact Bool.or_true _

end

/-! ### A slot that is never given back -/

/-- No `_abandon_job` and no `_cleanup_job` of the execution is part way through. -/
def ActiveJob.still (x : ActiveJob ρ) : Bool :=
  (x.timeout matches .idle | .armed | .over) && (x.stopper matches .idle | .over) &&
    !(x.thread matches .cleanup)

/-- The job timeout sends its `fail` while the handler returns and its thread cleans up. -/
def Action.timeoutRace : List (Action ρ) :=
  Action.claim [{ sampleJob with timeoutSeconds := 1 }] ++ Action.submit ++
    [.job 0 (.thread none), .job 0 (.thread none), .job 0 (.thread none), .job 0 (.timeout none),
      .job 0 (.timeout none), .job 0 (.timeout none), .job 0 (.timeout none), .job 0 (.timeout none)]

/-- The bookkeeping of `_abandon_job` comes after the clean-up of the same execution and
counts a thread that is already back. -/
theorem abandoned_slot_leaks : ¬ ∀ (o : Options) (s : SpooledWorker ℕ),
    (system ℕ o).Reachable System.always s → s.jobs.all ActiveJob.still = true →
      s.abandonedRunning = s.jobs.countP ActiveJob.lingers := by
  intro hall
  have hrun : ((system ℕ sampleOptions).run (system ℕ sampleOptions).init
      (Action.timeoutRace ++ [.job 0 (.handlerEnds (.returned 7)), .job 0 (.thread none),
        .job 0 (.thread none), .job 0 (.timeout (some .ok)), .job 0 (.timeout none)])).any
      (fun s => s.jobs.all ActiveJob.still && (s.abandonedRunning == 1) &&
        (s.jobs.countP ActiveJob.lingers == 0)) = true := by
    decide
  obtain ⟨s, hs, hp⟩ := System.exists_of_run hrun
  simp only [Bool.and_eq_true, beq_iff_eq] at hp
  have := hall _ s hs hp.1.1
  omega

/-- With the bookkeeping first, the thread that comes back gives its slot back. -/
theorem abandonedRunning_exact_sample : ∃ s : SpooledWorker ℕ,
    (system ℕ sampleOptions).Reachable (fun s a => BooksInTime s a = true) s ∧
      s.jobs.countP ActiveJob.booked = 1 ∧
      s.abandonedRunning = s.jobs.countP ActiveJob.lingers ∧ s.abandonedRunning = 0 := by
  have hrun : ((system ℕ sampleOptions).runIf (fun s a => BooksInTime s a = true)
      (system ℕ sampleOptions).init
      (Action.timeoutRace ++ [.job 0 (.timeout (some .ok)), .job 0 (.timeout none),
        .job 0 (.handlerEnds (.returned 7)), .job 0 (.thread none), .job 0 (.thread none)])).any
      (fun s => (s.jobs.countP ActiveJob.booked == 1) && (s.abandonedRunning == 0)) = true := by
    decide
  obtain ⟨s, hs, hp⟩ := System.exists_of_runIf hrun
  simp only [Bool.and_eq_true, beq_iff_eq] at hp
  exact ⟨s, hs, hp.1, (abandonedRunning_exact hs).1, hp.2⟩

end SpooledSdk.Worker.Sync
