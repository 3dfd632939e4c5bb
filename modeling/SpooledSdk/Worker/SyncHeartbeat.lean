/-
The heartbeat of the synchronous worker itself: a chain of timers, each of which sends one
heartbeat and sets the next, beside a `stop()` that breaks the chain.

The chain and `stop()` share the flag, the worker id and the attribute with the timer, and no lock.
Each read or write of one of these is a step.

* `Chained` — one timer at most is alive, and until the flag is set there is one;
* `heartbeat_law` — the heartbeats go under the id that was registered until the flag is set, and
  one at most is sent after that.
-/
import SpooledSdk.Registry
import SpooledSdk.System
import SpooledSdk.Worker.Types

namespace SpooledSdk.Worker.Heartbeat

/-- Where `send_heartbeat` is: its look at the flag and at the worker id, the second look at the
id for the request, the wire, the second look at the flag, and the next timer, which is stored,
made a daemon and started. -/
inductive BeatPc
  | stopCheck
  | idCheck
  | idRead
  | sending (workerId : Option String)
  | recheck
  | create
  | daemon
  | start
  deriving DecidableEq, Repr

inductive Timer
  | created
  | pending
  | cancelled
  | running (pc : BeatPc)
  | over
  deriving DecidableEq, Repr

/-- The timer waits, or runs its function. -/
def Timer.alive : Timer → Bool
  | .pending | .running _ => true
  | _ => false

def Timer.cancel : Timer → Timer
  | .created | .pending => .cancelled
  | t => t

/-- A timer that was cancelled before is over as soon as it is started. -/
def Timer.start : Timer → Timer
  | .created => .pending
  | t => t

/-- Where `stop()` is: the flag, its look at the timer, `cancel()`, `None` for the attribute, and
the end, which takes the worker id. -/
inductive StopPc
  | idle
  | look
  | cancel
  | clear
  | deregister
  | done
  deriving DecidableEq, Repr

/-- `stopEvent` is `_worker_heartbeat_stop`, and `timer` is `_worker_heartbeat_timer`.  `sent` and
`late` are the ids of the heartbeats that were sent before and after the flag was set. -/
structure SpooledWorker where
  workerId : Option String
  stopEvent : Bool := false
  timer : Option ℕ := some 0
  timers : List Timer := [.pending]
  stop : StopPc := .idle
  sent : List (Option String) := []
  late : List (Option String) := []
  deriving DecidableEq, Repr

/-- The interval of a timer passes; a running timer goes on; `stop()` goes on. -/
inductive Action
  | fire (i : ℕ)
  | go (i : ℕ)
  | stop
  deriving DecidableEq, Repr

namespace SpooledWorker

variable (s : SpooledWorker)

def setTimer (i : ℕ) (t : Timer) : SpooledWorker := { s with timers := s.timers.set i t }

/-- The next step of `send_heartbeat` on timer `i`. -/
def go (i : ℕ) : BeatPc → SpooledWorker
  | .stopCheck => s.setTimer i (if s.stopEvent then .over else .running .idCheck)
  | .idCheck => s.setTimer i (if (truthy s.workerId).isNone then .over else .running .idRead)
  | .idRead =>
    { s.setTimer i (.running (.sending s.workerId)) with
      sent := if s.stopEvent then s.sent else s.sent ++ [s.workerId]
      late := if s.stopEvent then s.late ++ [s.workerId] else s.late }
  -- either answer: a heartbeat that fails is only reported
  | .sending _ => s.setTimer i (.running .recheck)
  | .recheck => s.setTimer i (if s.stopEvent then .over else .running .create)
  | .create =>
    { s with
      timer := some s.timers.length
      timers := s.timers.set i (.running .daemon) ++ [.created] }
  -- `None` has no `daemon`, and no `start`
  | .daemon => s.setTimer i (if s.timer.isNone then .over else .running .start)
  | .start =>
    match s.timer with
    | none => s.setTimer i .over
    | some k => { s with timers := (s.timers.modify k Timer.start).set i .over }

/-- The next step of `stop()`. -/
def stopGo : StopPc → Option SpooledWorker
  | .idle => some { s with stopEvent := true, stop := .look }
  | .look => some { s with stop := if s.timer.isSome then .cancel else .deregister }
  | .cancel =>
    s.timer.map fun k => { s with timers := s.timers.modify k Timer.cancel, stop := .clear }
  | .clear => some { s with timer := none, stop := .deregister }
  | .deregister => some { s with workerId := none, stop := .done }
  | .done => none

def step : Action → Option SpooledWorker
  | .fire i =>
    if s.timers[i]? = some .pending then some (s.setTimer i (.running .stopCheck)) else none
  | .go i =>
    match s.timers[i]? with
    | some (.running pc) => some (s.go i pc)
    | _ => none
  | .stop => s.stopGo s.stop

end SpooledWorker

/-- A worker that has registered as `w`, with the first timer set. -/
def system (w : String) : System SpooledWorker Action where
  init := { workerId := some w }
  step := SpooledWorker.step

/-! ### The chain -/

/-- What a timer that has a next one finds: that one, not started yet, or nothing after `stop()`. -/
def Handed (s : SpooledWorker) (i : ℕ) : Prop :=
  (s.timer = none ∧ s.stopEvent = true) ∨ ∃ k, s.timer = some k ∧ k ≠ i ∧
    (s.timers[k]? = some .created ∨ s.timers[k]? = some .cancelled ∧ s.stopEvent = true)

/-- The chain has one end at most, and one end until it is to stop. -/
structure Chained (w : String) (s : SpooledWorker) : Prop where
  only : ∀ {i j : ℕ} {t t' : Timer}, s.timers[i]? = some t → s.timers[j]? = some t' →
    t.alive = true → t'.alive = true → i = j
  beating : s.stopEvent = false → ∃ (i : ℕ) (t : Timer), s.timers[i]? = some t ∧ t.alive = true
  before : s.stopEvent = false → s.workerId = some w ∧ s.stop = .idle ∧ s.late = []
  named : s.workerId = some w ∨ s.workerId = none
  handed : ∀ {i : ℕ} {pc : BeatPc}, s.timers[i]? = some (.running pc) → pc = .daemon ∨ pc = .start →
    Handed s i
  sent : ∀ id ∈ s.sent, id = some w
  late : ∀ id ∈ s.late, id = some w ∨ id = none
  once : s.late.length ≤ 1
  spent : s.late ≠ [] → ∀ {i : ℕ} {t : Timer}, s.timers[i]? = some t → t.alive = true →
    t = .running .recheck ∨ ∃ id, t = .running (.sending id)

section

variable {w : String} {s s' : SpooledWorker} {a : Action} {i : ℕ} {t t' : Timer} {pc : BeatPc}

theorem Chained.init (w : String) : Chained w (system w).init := by
  have hfirst : ∀ {i : ℕ} {t : Timer}, [Timer.pending][i]? = some t → i = 0 ∧ t = .pending := by
    intro i t h
    obtain ⟨hi, rfl⟩ := List.getElem?_eq_some_iff.mp h
    obtain rfl : i = 0 := by simpa using hi
    exact ⟨rfl, rfl⟩
  refine ⟨?_, fun _ => ⟨0, .pending, rfl, rfl⟩, fun _ => ⟨rfl, rfl, rfl⟩, .inl rfl, ?_, ?_, ?_, ?_, ?_⟩
  · intro i j t t' hi hj _ _
    exact (hfirst hi).1.trans (hfirst hj).1.symm
  · intro i pc hi
    cases (hfirst hi).2
  · exact fun _ hid => by cases hid
  · exact fun _ hid => by cases hid
  · exact Nat.zero_le 1
  · exact fun hne => absurd rfl hne

theorem Chained.stopped (h : Chained w s) (hne : s.late ≠ []) : s.stopEvent = true := by
  by_contra hs
  exact hne (h.before (by simpa using hs)).2.2

/-- Where the end of the chain is replaced, nothing else is alive. -/
theorem Chained.of_set (h : Chained w s) (hi : s.timers[i]? = some t) (ht : t.alive = true)
    {j : ℕ} {u : Timer} (hj : (s.timers.set i t')[j]? = some u) (hu : u.alive = true) :
    j = i ∧ u = t' := by
  rcases List.getElem?_set_cases hj with ⟨rfl, rfl⟩ | ⟨hne, hj⟩
  · exact ⟨rfl, rfl⟩
  · exact absurd (h.only hj hi hu ht) hne.symm

/-- The end of the chain goes on. -/
theorem Chained.move (h : Chained w s) (hi : s.timers[i]? = some t) (ht : t.alive = true)
    (halive : s.stopEvent = false → t'.alive = true)
    (hhanded : ∀ {pc}, t' = .running pc → pc = .daemon ∨ pc = .start → Handed s i)
    (hspent : s.late ≠ [] → t'.alive = true →
      t' = .running .recheck ∨ ∃ id, t' = .running (.sending id)) :
    Chained w (s.setTimer i t') := by
  have hlt : i < s.timers.length := (List.getElem?_eq_some_iff.mp hi).1
  refine ⟨?_, ?_, h.before, h.named, ?_, h.sent, h.late, h.once, ?_⟩
  · intro j k u u' hj hk hu hu'
    exact (h.of_set hi ht hj hu).1.trans (h.of_set hi ht hk hu').1.symm
  · exact fun hs => ⟨i, t', List.getElem?_set_self hlt, halive hs⟩
  · intro j pc hj hpc
    obtain ⟨rfl, heq⟩ := h.of_set hi ht hj rfl
    rcases hhanded heq.symm hpc with hnone | ⟨k, hk, hne, hstate⟩
    · exact .inl hnone
    · refine .inr ⟨k, hk, hne, ?_⟩
      show (s.timers.set j t')[k]? = _ ∨ (s.timers.set j t')[k]? = _ ∧ _
      rwa [List.getElem?_set_ne hne.symm]
  · intro hne j u hj hu
    obtain ⟨-, rfl⟩ := h.of_set hi ht hj hu
    exact hspent hne hu

/-- The next timer takes the place of the one that has started it. -/
theorem Chained.next (h : Chained w s) {k : ℕ} (hi : s.timers[i]? = some (.running .start))
    (hk : s.timer = some k) :
    Chained w { s with timers := (s.timers.modify k Timer.start).set i .over } := by
  have hhanded : k ≠ i ∧
      (s.timers[k]? = some .created ∨ s.timers[k]? = some .cancelled ∧ s.stopEvent = true) := by
    rcases h.handed hi (.inr rfl) with ⟨hnone, -⟩ | ⟨k', hk', hne, hstate⟩
    · rw [hnone] at hk
      cases hk
    · rw [hk, Option.some_inj] at hk'
      exact hk' ▸ ⟨hne, hstate⟩
  obtain ⟨hne, hstate⟩ := hhanded
  -- what is alive now is the timer that was started
  have hset : ∀ {j : ℕ} {u : Timer}, ((s.timers.modify k Timer.start).set i .over)[j]? = some u →
      u.alive = true → j = k ∧ u = .pending := by
    intro j u hj hu
    rcases List.getElem?_set_cases hj with ⟨rfl, rfl⟩ | ⟨hji, hj⟩
    · cases hu
    · rw [List.getElem?_modify] at hj
      obtain ⟨v, hv, hvu⟩ := Option.map_eq_some_iff.mp hj
      by_cases hkj : k = j
      · subst hkj
        rw [if_pos rfl] at hvu
        rcases hstate with hcreated | ⟨hcancelled, -⟩
        · rw [hcreated, Option.some_inj] at hv
          subst hv
          exact ⟨rfl, hvu.symm⟩
        · rw [hcancelled, Option.some_inj] at hv
          subst hv
          subst hvu
          cases hu
      · rw [if_neg hkj] at hvu
        subst hvu
        exact absurd (h.only hv hi hu rfl) hji.symm
  have hlate : s.late = [] := by
    by_contra hlate
    rcases h.spent hlate hi rfl with heq | ⟨id, heq⟩ <;> cases heq
  refine ⟨?_, fun hs => ?_, h.before, h.named, ?_, h.sent, h.late, h.once, ?_⟩
  · intro j j' u u' hj hj' hu hu'
    exact (hset hj hu).1.trans (hset hj' hu').1.symm
  · rcases hstate with hcreated | ⟨-, htrue⟩
    · refine ⟨k, .pending, ?_, rfl⟩
      rw [List.getElem?_set_ne hne.symm, List.getElem?_modify, hcreated]
      simp [Timer.start]
    · rw [hs] at htrue
      cases htrue
  · intro j pc hj _
    cases (hset hj rfl).2
  · exact fun hl => absurd hlate hl

/-- The end of the chain makes the next timer. -/
theorem Chained.create (h : Chained w s) (hi : s.timers[i]? = some (.running .create)) :
    Chained w { s with
      timer := some s.timers.length
      timers := s.timers.set i (.running .daemon) ++ [.created] } := by
  have hlt : i < s.timers.length := (List.getElem?_eq_some_iff.mp hi).1
  have hset : ∀ {j : ℕ} {u : Timer},
      (s.timers.set i (.running .daemon) ++ [Timer.created])[j]? = some u → u.alive = true →
        j = i ∧ u = .running .daemon := by
    intro j u hj hu
    by_cases hjl : j < s.timers.length
    · rw [List.getElem?_append_left (by simpa using hjl)] at hj
      exact h.of_set hi rfl hj hu
    · rw [List.getElem?_append_right (by simpa using hjl)] at hj
      obtain rfl := List.mem_singleton.mp (List.mem_of_getElem? hj)
      cases hu
  have hlate : s.late = [] := by
    by_contra hlate
    rcases h.spent hlate hi rfl with heq | ⟨id, heq⟩ <;> cases heq
  refine ⟨?_, fun _ => ?_, h.before, h.named, ?_, h.sent, h.late, h.once, fun hl => absurd hlate hl⟩
  · intro j j' u u' hj hj' hu hu'
    exact (hset hj hu).1.trans (hset hj' hu').1.symm
  · refine ⟨i, .running .daemon, ?_, rfl⟩
    rw [List.getElem?_append_left (by simpa using hlt), List.getElem?_set_self hlt]
  · intro j pc hj _
    obtain ⟨rfl, -⟩ := hset hj rfl
    refine .inr ⟨s.timers.length, rfl, Nat.ne_of_gt hlt, .inl ?_⟩
    show (s.timers.set j (.running .daemon) ++ [Timer.created])[s.timers.length]? = _
    rw [List.getElem?_append_right (by simp)]
    simp

theorem Chained.go (h : Chained w s) (hw : truthy (some w) = some w)
    (hi : s.timers[i]? = some (.running pc)) : Chained w (s.go i pc) := by
  have hfree : (∀ id, pc ≠ .sending id) → pc ≠ .recheck → s.late = [] := by
    intro hsending hrecheck
    by_contra hlate
    rcases h.spent hlate hi rfl with heq | ⟨id, heq⟩ <;> cases heq
    · exact hrecheck rfl
    · exact hsending _ rfl
  cases pc with
  | stopCheck =>
    have hlate := hfree (fun _ h => by cases h) (fun h => by cases h)
    refine h.move hi rfl (fun hs => by rw [hs]; rfl) ?_ fun hl => absurd hlate hl
    intro pc heq hpc
    split at heq
    · cases heq
    · cases heq
      rcases hpc with hpc | hpc <;> cases hpc
  | idCheck =>
    have hlate := hfree (fun _ h => by cases h) (fun h => by cases h)
    refine h.move hi rfl (fun hs => ?_) ?_ fun hl => absurd hlate hl
    · rw [(h.before hs).1, hw]
      rfl
    · intro pc heq hpc
      split at heq
      · cases heq
      · cases heq
        rcases hpc with hpc | hpc <;> cases hpc
  | idRead =>
    have hlate := hfree (fun _ h => by cases h) (fun h => by cases h)
    have hbase : Chained w (s.setTimer i (.running (.sending s.workerId))) := by
      refine h.move hi rfl (fun _ => rfl) ?_ fun hl => absurd hlate hl
      intro pc heq hpc
      cases heq
      rcases hpc with hpc | hpc <;> cases hpc
    have hspent : ∀ {j : ℕ} {u : Timer},
        (s.setTimer i (.running (.sending s.workerId))).timers[j]? = some u → u.alive = true →
          u = .running .recheck ∨ ∃ id, u = .running (.sending id) :=
      fun hj hu => .inr ⟨_, (h.of_set hi rfl hj hu).2⟩
    cases hs : s.stopEvent with
    | false =>
      have hgo : s.go i .idRead = { s.setTimer i (.running (.sending s.workerId)) with
          sent := s.sent ++ [s.workerId] } := by
        simp [SpooledWorker.go, hs, SpooledWorker.setTimer]
      rw [hgo]
      refine ⟨hbase.only, hbase.beating, hbase.before, hbase.named, hbase.handed, ?_, hbase.late,
        hbase.once, fun _ _ _ => hspent⟩
      rw [List.forall_mem_append]
      refine ⟨h.sent, fun id hid => ?_⟩
      rw [List.mem_singleton.mp hid]
      exact (h.before hs).1
    | true =>
      have hgo : s.go i .idRead = { s.setTimer i (.running (.sending s.workerId)) with
          late := [s.workerId] } := by
        simp [SpooledWorker.go, hs, SpooledWorker.setTimer, hlate]
      rw [hgo]
      refine ⟨hbase.only, hbase.beating, fun hfalse => ?_, hbase.named, hbase.handed, hbase.sent,
        ?_, Nat.le_refl 1, fun _ _ _ => hspent⟩
      · rw [show s.stopEvent = false from hfalse] at hs
        cases hs
      · intro id hid
        rw [List.mem_singleton.mp hid]
        exact h.named
  | sending id =>
    refine h.move hi rfl (fun _ => rfl) ?_ fun _ _ => .inl rfl
    intro pc heq hpc
    cases heq
    rcases hpc with hpc | hpc <;> cases hpc
  | recheck =>
    refine h.move hi rfl (fun hs => by rw [hs]; rfl) ?_ fun hl halive => ?_
    · intro pc heq hpc
      split at heq
      · cases heq
      · cases heq
        rcases hpc with hpc | hpc <;> cases hpc
    · rw [h.stopped hl] at halive
      cases halive
  | create => exact h.create hi
  | daemon =>
    have hlate := hfree (fun _ h => by cases h) (fun h => by cases h)
    have hhanded := h.handed hi (.inl rfl)
    refine h.move hi rfl (fun hs => ?_) (fun _ _ => hhanded) fun hl => absurd hlate hl
    rcases hhanded with ⟨-, htrue⟩ | ⟨k, hk, -⟩
    · rw [hs] at htrue
      cases htrue
    · rw [hk]
      rfl
  | start =>
    have hlate := hfree (fun _ h => by cases h) (fun h => by cases h)
    rw [SpooledWorker.go]
    split
    · rename_i hnone
      refine h.move hi rfl (fun hs => ?_) (fun heq => by cases heq) fun hl => absurd hlate hl
      rcases h.handed hi (.inr rfl) with ⟨-, htrue⟩ | ⟨k, hk, -⟩
      · rw [hs] at htrue
        cases htrue
      · rw [hnone] at hk
        cases hk
    · rename_i k hk
      exact h.next hi hk

theorem Chained.fire (h : Chained w s) (hi : s.timers[i]? = some .pending) :
    Chained w (s.setTimer i (.running .stopCheck)) := by
  refine h.move hi rfl (fun _ => rfl) ?_ fun hl => ?_
  · intro pc heq hpc
    cases heq
    rcases hpc with hpc | hpc <;> cases hpc
  · rcases h.spent hl hi rfl with heq | ⟨id, heq⟩ <;> cases heq

theorem Chained.stopping (h : Chained w s) (hs : s.stop ≠ .idle) : s.stopEvent = true := by
  by_contra hfalse
  exact hs (h.before (by simpa using hfalse)).2.1

/-- `cancel()` on the timer that `stop()` finds. -/
theorem Chained.cancel (h : Chained w s) (hs : s.stopEvent = true) (k : ℕ) :
    Chained w { s with timers := s.timers.modify k Timer.cancel, stop := .clear } := by
  -- a timer that is alive has not been cancelled
  have hkept : ∀ {j : ℕ} {u : Timer}, (s.timers.modify k Timer.cancel)[j]? = some u →
      u.alive = true → s.timers[j]? = some u := by
    intro j u hj hu
    rw [List.getElem?_modify] at hj
    obtain ⟨v, hv, hvu⟩ := Option.map_eq_some_iff.mp hj
    rw [hv, Option.some_inj, ← hvu]
    split
    · rename_i hkj
      rw [if_pos hkj] at hvu
      subst hvu
      cases v <;> first | rfl | cases hu
    · rfl
  have hfalse : ∀ {P : Prop}, s.stopEvent = false → P := by
    intro P hf
    rw [hs] at hf
    cases hf
  refine ⟨?_, hfalse, hfalse, h.named, ?_, h.sent, h.late, h.once, ?_⟩
  · exact fun hj hj' hu hu' => h.only (hkept hj hu) (hkept hj' hu') hu hu'
  · intro i pc hi hpc
    rcases h.handed (hkept hi rfl) hpc with hnone | ⟨k', hk', hne, hstate⟩
    · exact .inl hnone
    · refine .inr ⟨k', hk', hne, ?_⟩
      show (s.timers.modify k Timer.cancel)[k']? = _ ∨ (s.timers.modify k Timer.cancel)[k']? = _ ∧ _
      have hmodify : ∀ {u : Timer}, s.timers[k']? = some u →
          (s.timers.modify k Timer.cancel)[k']? = some (if k = k' then u.cancel else u) := by
        intro u hu
        rw [List.getElem?_modify, hu]
        rfl
      by_cases hkk : k = k'
      · refine .inr ⟨?_, hs⟩
        rcases hstate with hstate | ⟨hstate, -⟩
        · exact (hmodify hstate).trans (by rw [if_pos hkk]; rfl)
        · exact (hmodify hstate).trans (by rw [if_pos hkk]; rfl)
      · rcases hstate with hstate | ⟨hstate, hset⟩
        · exact .inl (by rw [hmodify hstate, if_neg hkk])
        · exact .inr ⟨by rw [hmodify hstate, if_neg hkk], hset⟩
  · exact fun hl _ _ hj hu => h.spent hl (hkept hj hu) hu

theorem Chained.stopGo (h : Chained w s) (hstep : s.stopGo s.stop = some s') : Chained w s' := by
  have hfalse : s.stop ≠ .idle → ∀ {P : Prop}, s.stopEvent = false → P := by
    intro hs P hf
    rw [h.stopping hs] at hf
    cases hf
  cases hs : s.stop <;> rw [hs] at hstep
  case idle =>
    obtain rfl := Option.some.inj hstep
    refine ⟨h.only, fun hf => (by cases hf), fun hf => (by cases hf), h.named, ?_, h.sent, h.late,
      h.once, h.spent⟩
    intro i pc hi hpc
    rcases h.handed hi hpc with ⟨hnone, -⟩ | ⟨k, hk, hne, hstate⟩
    · exact .inl ⟨hnone, rfl⟩
    · exact .inr ⟨k, hk, hne, hstate.imp_right fun hc => ⟨hc.1, rfl⟩⟩
  case look =>
    obtain rfl := Option.some.inj hstep
    have hf : ∀ {P : Prop}, s.stopEvent = false → P := hfalse (by rw [hs]; simp)
    exact ⟨h.only, hf, hf, h.named, h.handed, h.sent, h.late, h.once, h.spent⟩
  case cancel =>
    obtain ⟨k, -, rfl⟩ := Option.map_eq_some_iff.mp hstep
    exact h.cancel (h.stopping (by rw [hs]; simp)) k
  case clear =>
    obtain rfl := Option.some.inj hstep
    have hf : ∀ {P : Prop}, s.stopEvent = false → P := hfalse (by rw [hs]; simp)
    have hstop := h.stopping (by rw [hs]; simp)
    exact ⟨h.only, hf, hf, h.named, fun _ _ => .inl ⟨rfl, hstop⟩, h.sent, h.late, h.once, h.spent⟩
  case deregister =>
    obtain rfl := Option.some.inj hstep
    have hf : ∀ {P : Prop}, s.stopEvent = false → P := hfalse (by rw [hs]; simp)
    exact ⟨h.only, hf, hf, .inr rfl, h.handed, h.sent, h.late, h.once, h.spent⟩
  case done => cases hstep

theorem Chained.step (h : Chained w s) (hw : truthy (some w) = some w)
    (hstep : s.step a = some s') : Chained w s' := by
  cases a with
  | fire i =>
    rw [SpooledWorker.step] at hstep
    split at hstep
    · rename_i hi
      obtain rfl := Option.some.inj hstep
      exact h.fire hi
    · cases hstep
  | go i =>
    rw [SpooledWorker.step] at hstep
    split at hstep
    · rename_i pc hi
      obtain rfl := Option.some.inj hstep
      exact h.go hw hi
    · cases hstep
  | stop => exact h.stopGo hstep

theorem chained_of_reachable (hw : truthy (some w) = some w)
    (h : (system w).Reachable System.always s) : Chained w s :=
  h.invariant (Chained.init w) fun _ _ _ hs _ hst => hs.step hw hst

/-- However the timers and `stop()` interleave: until `stop()` sets its flag one timer is alive, so
the worker goes on to say that it lives while its jobs drain, and never are there two.  What is
sent until then goes under the id that the worker has registered with.  After that one heartbeat
at most is sent, of a timer that had looked at the flag before; it goes under this id, or under
`None` where `stop()` has come to its end between the two looks at the id. -/
theorem heartbeat_law (hw : truthy (some w) = some w)
    (h : (system w).Reachable System.always s) :
    (s.stopEvent = false → ∃ (i : ℕ) (t : Timer), s.timers[i]? = some t ∧ t.alive = true) ∧
      (∀ (i j : ℕ) (t t' : Timer), s.timers[i]? = some t → s.timers[j]? = some t' →
        t.alive = true → t'.alive = true → i = j) ∧
      (∀ id ∈ s.sent, id = some w) ∧ s.late.length ≤ 1 ∧ ∀ id ∈ s.late, id = some w ∨ id = none :=
  have hs := chained_of_reachable hw h
  ⟨hs.beating, fun _ _ _ _ => hs.only, hs.sent, hs.once, hs.late⟩

/-- A heartbeat under `None`. -/
theorem heartbeat_law_sample : ∃ s : SpooledWorker,
    s.sent = [some "w"] ∧ s.late = [none] ∧ s.late.length ≤ 1 := by
  have hrun : ((system "w").run (system "w").init
      [.fire 0, .go 0, .go 0, .go 0, .go 0, .go 0, .go 0, .go 0, .go 0, .fire 1, .go 1, .go 1,
        .stop, .stop, .stop, .stop, .stop, .go 1]).any
      (fun s => s.sent = [some "w"] && s.late = [none]) = true := by
    decide
  obtain ⟨s, hs, hp⟩ := System.exists_of_run hrun
  obtain ⟨hsent, hlate⟩ := (Bool.and_eq_true _ _).mp hp
  exact ⟨s, of_decide_eq_true hsent, of_decide_eq_true hlate,
    (heartbeat_law (w := "w") (by decide) hs).2.2.2.1⟩

end

end SpooledSdk.Worker.Heartbeat
