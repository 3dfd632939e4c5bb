/-
`start()` of the synchronous worker comes to its end once `stop()` has returned.

What is left of a poll is finished: its claim is answered, and each job that the claim has brought
is started or released.  Then the loop sees the state, and a `start()` that waits is woken.

* `MainPc.rank`, `MainPc.left` — how far `start()` has to go, and what is left of its jobs;
* `start_ends` — each step of `start()` brings the measure down, whatever a claim brings.
-/
import SpooledSdk.Worker.SyncLife
import SpooledSdk.Worker.SyncReturns

namespace SpooledSdk.Worker.Sync

variable {ρ : Type}

/-- The phases that are left of `start()`, with no poll to come. -/
def MainPc.rank : MainPc → ℕ
  | .locking => 9
  | .claiming _ _ => 8
  | .claimWait _ => 7
  | .jobs _ | .release _ _ | .releaseWait _ _ | .beat _ _ | .readExecutor _ _ | .submit _ _
  | .discard _ _ => 6
  | .finish => 5
  | .pausing => 4
  | .looping => 3
  | .waitStopped => 2
  | .idle | .registering | .registered => 1
  | .returned | .raised => 0

/-- What is left of the jobs that the last claim has brought. -/
def MainPc.left : MainPc → ℕ
  | .jobs todo => 6 * todo.length
  | .beat _ todo => 6 * todo.length + 5
  | .readExecutor _ todo => 6 * todo.length + 4
  | .submit _ todo => 6 * todo.length + 3
  | .discard _ todo | .release _ todo => 6 * todo.length + 2
  | .releaseWait _ todo => 6 * todo.length + 1
  | _ => 0

/-- At a claim that is on the wire these are the resends it may still bring. -/
def SpooledWorker.left (s : SpooledWorker ρ) : ℕ :=
  match s.main with
  | .claimWait _ => s.resendsLeft
  | pc => pc.left

def mainMeasure (s : SpooledWorker ρ) : ℕ ×ₗ ℕ := toLex (s.main.rank, s.left)

/-- `stop()` has returned, and `start()` has not. -/
def Finishing (s : SpooledWorker ρ) : Prop := s.stop = .returned ∧ s.main ≠ .returned

/-- A step of `start()`, or the answer to a request of it. -/
def Action.isMain : Action ρ → Prop
  | .main _ => True
  | _ => False

/-- `stop()` has set `_stopped_event`. -/
def Woken (s : SpooledWorker ρ) : Prop := s.stop = .returned → s.stoppedEvent = true

variable {s s' : SpooledWorker ρ} {e : ℕ} {x x' : ActiveJob ρ} {a : Action ρ}

theorem booted_of_finishing (hl : Life s) (hs : Finishing s) : s.main.booting = false := by
  by_contra hb
  have hidle := (hl.boot (by simpa using hb)).2.1
  rw [hs.1] at hidle
  cases hidle

theorem not_running_of_finishing (hl : Life s) (hs : Finishing s) : s.state ≠ .running := by
  have hstate := hl.stopping (by rw [hs.1]; simp)
  rw [hstate]
  split <;> simp

/-- Each step of `start()` brings the measure down: without a poll to come, what a claim brings
counts for less than the claim. -/
theorem mainMeasure_lt (hl : Life s) (hs : Finishing s) {act : MainAction}
    (hstep : SpooledWorker.MainStep s act s') : mainMeasure s' < mainMeasure s := by
  have hboot := booted_of_finishing hl hs
  have hphase : s'.main.rank < s.main.rank → mainMeasure s' < mainMeasure s :=
    fun h => Prod.Lex.toLex_lt_toLex.mpr (.inl h)
  have hjob : s'.main.rank = s.main.rank → s'.left < s.left → mainMeasure s' < mainMeasure s :=
    fun h h' => Prod.Lex.toLex_lt_toLex.mpr (.inr ⟨h, h'⟩)
  cases hstep with
  | start hm | register hm | registerFailed hm | run hm =>
    rw [hm] at hboot
    cases hboot
  | again _ hrun | poll _ hrun => exact absurd hrun (not_running_of_finishing hl hs)
  | leave hm hpc =>
    refine hphase ?_
    rcases hpc with rfl | rfl <;> simp [hm, MainPc.rank]
  | skip hm | claim hm | claimed hm | claimFailed hm | done hm | vanished hm | finish hm | pause hm
  | woken hm =>
    refine hphase ?_
    simp [hm, MainPc.rank, SpooledWorker.pollFinally]
  | resend hm hn =>
    refine hjob (by rw [hm]) ?_
    simp only [SpooledWorker.left, hm]
    omega
  | hold hm | enter hm =>
    refine hjob (by rw [hm]; rfl) ?_
    simp only [SpooledWorker.left, hm, MainPc.left, List.length_cons]
    omega
  | unreleased hm | release hm | released hm | schedule hm | noExecutor hm | executor hm
  | submit hm | refuse hm | exiting hm | discard hm =>
    refine hjob (by rw [hm]; rfl) ?_
    simp only [SpooledWorker.left, hm, MainPc.left, SpooledWorker.releaseReply]
    omega

/-- The others leave `start()` where it is. -/
theorem mainMeasure_eq (hstep : s.step a = some s') (ha : ¬ a.isMain) :
    mainMeasure s' = mainMeasure s := by
  have hsame : s'.main = s.main ∧ s'.resendsLeft = s.resendsLeft := by
    cases a with
    | main act => exact absurd trivial ha
    | job e act =>
      obtain ⟨x, x', eff, -, -, rfl⟩ := SpooledWorker.job_of_step hstep
      exact ⟨apply_main eff, apply_resendsLeft eff⟩
    | stop act => cases SpooledWorker.stop_of_step hstep <;> exact ⟨rfl, rfl⟩
  simp only [mainMeasure, SpooledWorker.left, hsame.1, hsame.2]

theorem apply_stoppedEvent (eff : Effect) : (s.apply e x eff).stoppedEvent = s.stoppedEvent := by
  cases eff <;> rfl

theorem Woken.step (hl : Life s) (h : Woken s) (hstep : s.step a = some s') : Woken s' := by
  intro hs'
  cases a with
  | main act =>
    have hs : s.stop = .returned := (stop_eq_of_main hstep).symm.trans hs'
    cases SpooledWorker.main_of_step hstep with
    | start hm =>
      have hidle := (hl.boot (by rw [hm]; rfl)).2.1
      rw [hs] at hidle
      cases hidle
    | discard => exact (apply_stoppedEvent _).trans (h hs)
    | _ => exact h hs
  | job e act =>
    obtain ⟨x, x', eff, -, -, rfl⟩ := SpooledWorker.job_of_step hstep
    exact (apply_stoppedEvent eff).trans (h ((apply_stop eff).symm.trans hs'))
  | stop act =>
    cases SpooledWorker.stop_of_step hstep with
    | closing => rfl
    | ignored => exact h hs'
    | _ => cases hs'

/-- `start()` has a step, or the answer to its request can come. -/
theorem start_enabled (hwf : Wf s) (hl : Life s) (h : Woken s) (hs : Finishing s) :
    ∃ (a : Action ρ) (s' : SpooledWorker ρ), a.isMain ∧ s.step a = some s' := by
  have hboot := booted_of_finishing hl hs
  have hfree : s.suspended = false := by simp [SpooledWorker.suspended, hs.1]
  have hgo : ∀ t, s.mainGo s.main = some t → ∃ (a : Action ρ) (s' : SpooledWorker ρ),
      a.isMain ∧ s.step a = some s' := by
    intro t ht
    refine ⟨.main .go, t, trivial, ?_⟩
    change s.mainStep .go = some t
    rw [SpooledWorker.mainStep, if_neg (by simp [hfree])]
    exact ht
  cases hm : s.main with
  | idle | registering | registered | raised =>
    rw [hm] at hboot
    cases hboot
  | returned => exact absurd hm hs.2
  | looping | locking | claiming | readExecutor | finish | pausing =>
    exact hgo _ (by rw [hm]; rfl)
  | waitStopped => exact hgo _ (by rw [hm, SpooledWorker.mainGo, if_pos (h hs.1)])
  | claimWait n =>
    have hstep : ∃ t, s.mainStep .claimFailed = some t := by
      simp [SpooledWorker.mainStep, hfree, hm]
    obtain ⟨t, ht⟩ := hstep
    exact ⟨.main .claimFailed, t, trivial, ht⟩
  | releaseWait e todo =>
    obtain ⟨x, w, hx, -⟩ := hwf.releaseSent (e := e) (by rw [hm]; rfl)
    have hstep : ∃ t, s.mainStep (.releaseReply true) = some t := by
      simp [SpooledWorker.mainStep, hfree, hm, hx]
    obtain ⟨t, ht⟩ := hstep
    exact ⟨.main (.releaseReply true), t, trivial, ht⟩
  | jobs todo =>
    cases todo with
    | nil => exact hgo _ (by rw [hm]; rfl)
    | cons e todo =>
      obtain ⟨x, hx, -⟩ := hwf.todo (e := e) (by rw [hm]; exact List.mem_cons_self)
      exact hgo _ (by rw [hm, SpooledWorker.mainGo, hx]; rfl)
  | release e todo =>
    obtain ⟨x, hx, -⟩ := hwf.releasing (e := e) (by rw [hm]; rfl)
    exact hgo _ (by rw [hm, SpooledWorker.mainGo, hx]; rfl)
  | beat e todo =>
    obtain ⟨x, hx, -⟩ := hwf.entered (e := e) (by rw [hm]; rfl)
    exact hgo _ (by rw [hm, SpooledWorker.mainGo, hx]; rfl)
  | submit e todo | discard e todo =>
    obtain ⟨x, hx, -⟩ := hwf.starting (e := e) (by rw [hm]; rfl)
    exact hgo _ (by rw [hm, SpooledWorker.mainGo, hx]; rfl)

/-- A `stop()` that has returned stays returned. -/
theorem returned_of_step (hstep : s.step a = some s') (hs : s.stop = .returned) :
    s'.stop = .returned := by
  cases a with
  | main act => exact (stop_eq_of_main hstep).trans hs
  | job e act =>
    obtain ⟨x, x', eff, -, -, rfl⟩ := SpooledWorker.job_of_step hstep
    exact (apply_stop eff).trans hs
  | stop act =>
    cases SpooledWorker.stop_of_step hstep with
    | ignored => exact hs
    | closing => rfl
    | call _ hidle => rw [hs] at hidle; cases hidle
    | signal hs' | waited hs' | waitedLong hs' | close hs' | snapshot hs' | forced hs' | begin hs'
    | abandoned hs' | settled hs' | shutdown hs' | clear hs' | deregister hs' | noWorker hs'
    | deregistered hs' | finishing hs' | clearId hs' =>
      rw [hs] at hs'
      cases hs'

theorem start_ends (o : Options) : (system ρ o).Ends (fun s => Wf s ∧ Life s ∧ Woken s) Finishing
    Action.isMain mainMeasure where
  invariant hI hstep :=
    ⟨hI.1.step hstep, hI.2.1.step hI.1 hstep, hI.2.2.step hI.2.1 hstep⟩
  enabled hI hs := start_enabled hI.1 hI.2.1 hI.2.2 hs
  drops {s a s'} hI hs ha hstep := by
    cases a with
    | main act => exact mainMeasure_lt hI.2.1 hs (SpooledWorker.main_of_step hstep)
    | stop act | job e act => cases ha
  keeps _ _ ha hstep := le_of_eq (mainMeasure_eq hstep ha)

/-- Once `stop()` has returned, `start()` can return too, by steps of its own and the answers to
its requests alone, wherever `stop()` has left it: at a claim whose answer is still to come, among
the jobs of a claim, or at its wait.  In no run in which it does not return are there infinitely
many of these: the answers bring it no new claim to make. -/
theorem start_returns (o : Options) (h : (system ρ o).Reachable System.always s)
    (hs : s.stop = .returned) :
    (∃ s', (system ρ o).Reaches (fun _ a => Action.isMain a) s s' ∧ s'.main = .returned) ∧
      ∀ (f : ℕ → SpooledWorker ρ) (a : ℕ → Action ρ), f 0 = s →
        (∀ n, (f n).step (a n) = some (f (n + 1))) → (∀ n, (f n).main ≠ .returned) →
          ∃ n, ∀ m, n ≤ m → ¬ (a m).isMain := by
  have h0 : Woken ({ options := o } : SpooledWorker ρ) := fun hs => by cases hs
  have hI : Wf s ∧ Life s ∧ Woken s :=
    h.invariant (P := fun t => Wf t ∧ Life t ∧ Woken t) ⟨.init o, .init o, h0⟩
      fun _ _ _ ht _ hst => (start_ends o).invariant ht hst
  constructor
  · obtain ⟨s', hreach, hend⟩ := (start_ends o).exists_end hI
    have hs' : s'.stop = .returned :=
      hreach.preserves (P := fun t => t.stop = .returned)
        (fun _ _ _ ht _ hst => returned_of_step hst ht) hs
    exact ⟨s', hreach, not_not.mp fun hmain => hend ⟨hs', hmain⟩⟩
  · intro f a hf hrun hbusy
    have hret : ∀ n, (f n).stop = .returned := by
      intro n
      induction n with
      | zero => exact hf ▸ hs
      | succ n ih => exact returned_of_step (hrun n) ih
    exact (start_ends o).finite (hf ▸ hI) hrun fun n => ⟨hret n, hbusy n⟩

/-- A `stop()` that does not wait for the claim's answer any longer leaves `start()` at it. -/
theorem start_returns_sample : ∃ s s' : SpooledWorker ℕ, s.stop = .returned ∧
    s.main = .claimWait 1 ∧ (system ℕ sampleOptions).Reaches (fun _ a => Action.isMain a) s s' ∧
    s'.main = .returned := by
  have hrun : ((system ℕ sampleOptions).run (system ℕ sampleOptions).init
      ([.main .go, .main (.registered "w")] ++ List.replicate 4 (.main .go) ++
        [.stop (.call false), .stop .go, .stop .deadline] ++ List.replicate 11 (.stop .go))).any
      (fun s => s.stop = .returned && s.main = .claimWait 1) = true := by
    decide
  obtain ⟨s, hs, hp⟩ := System.exists_of_run hrun
  simp only [Bool.and_eq_true, decide_eq_true_eq] at hp
  obtain ⟨s', hreach, hend⟩ := (start_returns sampleOptions hs hp.1).1
  exact ⟨s, s', hp.1, hp.2, hreach, hend⟩

end SpooledSdk.Worker.Sync
