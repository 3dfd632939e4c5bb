/-
What the fencing of an execution is for: a lease that is acked at most once.

`Lease` is the purpose of `ActiveJob`'s flags, without threads, tasks or timers: the
lease is waiting in a poll, is the entry of its job id, or is gone; one actor may
take the right to ack it, and only that actor sends.  Both workers refine it.

* `Lease.Fenced` — the right is held by one sender, whose program counter says
  whether its one call was started; `Step.fenced` keeps it;
* `Lease.Barred` — lost or gone without the right: `Step.barred` keeps it, so no
  call is ever started;
* `Lease.Told` — at most one ack event and one loss event; `Step.told` keeps it, and
  `Told.terminal` makes it one event in all when the lease is not both.
-/
import Mathlib.Logic.Function.Basic
import SpooledSdk.System
import SpooledSdk.Worker.Types

namespace SpooledSdk.Worker

/-- Where a claimed job stands for the worker. -/
inductive Standing
  | waiting
  | entry
  | gone
deriving DecidableEq, Repr

/-- What the heartbeat of a lease knows: nothing, that the lease expired, or that it
must still report the loss. -/
inductive Expiry
  | quiet
  | found
  | reporting
deriving DecidableEq, Repr

/-- Who makes a step of a lease. -/
inductive Actor
  | taker (t : Taker)
  | beat
deriving DecidableEq, Repr

/-- A lease with the acks its holder sends and the terminal events it emits. -/
@[ext]
structure Lease (ρ : Type) where
  job : ClaimedJob
  standing : Standing := .waiting
  lost : Bool := false
  right : Option (Taker × Ack ρ) := none
  sending : Taker → Option (Ack ρ × String × SendPc) := fun _ => none
  beat : Expiry := .quiet
  calls : List (AckCall ρ) := []
  events : List (JobEvent ρ) := []

/-- Whether the call of a sender at this point is still to be started. -/
def SendPc.early : SendPc → Bool
  | .check | .send => true
  | _ => false

namespace Lease

variable {ρ : Type} {l l' : Lease ρ}

/-- Sender `t` moves to `p`, or ends. -/
def setSending (l : Lease ρ) (t : Taker) (p : Option (Ack ρ × String × SendPc)) : Lease ρ :=
  { l with sending := Function.update l.sending t p }

section

variable (l : Lease ρ) (t : Taker) (p : Option (Ack ρ × String × SendPc))

@[simp] theorem setSending_job : (l.setSending t p).job = l.job := rfl
@[simp] theorem setSending_lost : (l.setSending t p).lost = l.lost := rfl
@[simp] theorem setSending_right : (l.setSending t p).right = l.right := rfl
@[simp] theorem setSending_beat : (l.setSending t p).beat = l.beat := rfl
@[simp] theorem setSending_calls : (l.setSending t p).calls = l.calls := rfl
@[simp] theorem setSending_events : (l.setSending t p).events = l.events := rfl
@[simp] theorem setSending_sending :
    (l.setSending t p).sending = Function.update l.sending t p := rfl

end

/-- A sender that stays where it is changes nothing. -/
theorem setSending_self {t : Taker} {p : Option (Ack ρ × String × SendPc)}
    (h : l.sending t = p) : l.setSending t p = l := by
  rw [setSending, ← h, Function.update_eq_self]

/-- One step of a lease, by one actor and with the reply it consumes. -/
inductive Step (l : Lease ρ) : Actor → Option Reply → Lease ρ → Prop
  | enter (hw : l.standing = .waiting) (hr : l.right = none) :
      Step l (.taker .poll) none { l with standing := .entry }
  | leave {p : Actor} (he : l.standing = .entry) : Step l p none { l with standing := .gone }
  | release {w : String} {a : Ack ρ} (hw : l.standing = .waiting) (hr : l.right = none) :
      Step l (.taker .poll) none { l.setSending .poll (some (a, w, .wait)) with
        right := some (.poll, a), calls := l.calls ++ [ackCall l.job w a] }
  | take {t : Taker} {w : String} {a : Ack ρ} (he : l.standing = .entry) (hl : l.lost = false)
      (hr : l.right = none) :
      Step l (.taker t) none
        { l.setSending t (some (a, w, .check)) with right := some (t, a) }
  | pass {t : Taker} {w : String} {a : Ack ρ} (h : l.sending t = some (a, w, .check))
      (hl : l.lost = false) : Step l (.taker t) none (l.setSending t (some (a, w, .send)))
  | stop {t : Taker} {w : String} {a : Ack ρ} (h : l.sending t = some (a, w, .check))
      (hl : l.lost = true) : Step l (.taker t) none (l.setSending t none)
  | call {t : Taker} {w : String} {a : Ack ρ} (h : l.sending t = some (a, w, .send)) :
      Step l (.taker t) none
        { l.setSending t (some (a, w, .wait)) with calls := l.calls ++ [ackCall l.job w a] }
  | accepted {t : Taker} {w : String} {a : Ack ρ} {r : Reply}
      (h : l.sending t = some (a, w, .wait)) (hv : verdict a r = .accepted) :
      Step l (.taker t) (some r)
        { l.setSending t none with events := l.events ++ [ackEvent l.job a] }
  | dropped {t : Taker} {w : String} {a : Ack ρ} {r : Option Reply}
      (h : l.sending t = some (a, w, .wait)) : Step l (.taker t) r (l.setSending t none)
  | expired {t : Taker} {w : String} {a : Ack ρ} {r : Option Reply}
      (h : l.sending t = some (a, w, .wait)) (hs : l.standing ≠ .waiting) :
      Step l (.taker t) r (l.setSending t (some (a, w, .lose)))
  | alreadyLost {t : Taker} {w : String} {a : Ack ρ} (h : l.sending t = some (a, w, .lose))
      (hl : l.lost = true) : Step l (.taker t) none (l.setSending t none)
  | lose {t : Taker} {w : String} {a : Ack ρ} (h : l.sending t = some (a, w, .lose))
      (hl : l.lost = false) :
      Step l (.taker t) none { l.setSending t (some (a, w, .report)) with lost := true }
  | report {t : Taker} {w : String} {a : Ack ρ} {op : String}
      (h : l.sending t = some (a, w, .report)) :
      Step l (.taker t) none
        { l.setSending t none with events := l.events ++ [leaseLostEvent l.job op] }
  | beatFound {r : Option Reply} (hs : l.standing ≠ .waiting) (hb : l.beat = .quiet) :
      Step l .beat r { l with beat := .found }
  | beatIdle (hb : l.beat = .found) (hl : l.lost = true) : Step l .beat none { l with beat := .quiet }
  | beatLose (hb : l.beat = .found) (hl : l.lost = false) :
      Step l .beat none { l with beat := .reporting, lost := true }
  | beatReport {op : String} (hb : l.beat = .reporting) :
      Step l .beat none
        { l with beat := .quiet, events := l.events ++ [leaseLostEvent l.job op] }

/-- A step of a lease that a claim may only just have returned. -/
inductive Evolves : Option (Lease ρ) → Option (Lease ρ) → Prop
  | claimed (job : ClaimedJob) : Evolves none (some { job := job })
  | step {l l' : Lease ρ} {p : Actor} {r : Option Reply} (h : Step l p r l') :
      Evolves (some l) (some l')

/-! ### One holder, one call -/

/-- The right to ack has one holder, whose program counter tells whether the one call
was started. -/
structure Fenced (l : Lease ρ) : Prop where
  free : l.right = none → l.calls = []
  holder : ∀ {t : Taker} {a : Ack ρ} {w : String} {pc : SendPc}, l.sending t = some (a, w, pc) →
    l.right = some (t, a)
  counted : ∀ {t : Taker} {a : Ack ρ} {w : String} {pc : SendPc}, l.sending t = some (a, w, pc) →
    l.calls = if pc.early then [] else [ackCall l.job w a]
  called : ∀ {t : Taker} {a : Ack ρ}, l.right = some (t, a) →
    l.calls = [] ∨ ∃ w, l.calls = [ackCall l.job w a]
  pending : ∀ {t : Taker} {a : Ack ρ}, l.right = some (t, a) → l.calls = [] →
    l.lost = true ∨ ∃ w pc, l.sending t = some (a, w, pc)
  waiting : l.standing = .waiting → l.lost = false ∧ l.beat = .quiet
  onWire : l.standing = .waiting → ∀ {t : Taker} {a : Ack ρ} {w : String} {pc : SendPc},
    l.sending t = some (a, w, pc) → pc = .wait

theorem Fenced.fresh (job : ClaimedJob) : Fenced ({ job := job } : Lease ρ) where
  free _ := rfl
  holder h := by cases h
  counted h := by cases h
  called h := by cases h
  pending h := by cases h
  waiting _ := ⟨rfl, rfl⟩
  onWire _ _ _ _ _ h := by cases h

/-- Nobody sends while the right is free. -/
theorem Fenced.sending_none (h : Fenced l) (hr : l.right = none) (t : Taker) :
    l.sending t = none := by
  cases hs : l.sending t with
  | none => rfl
  | some p =>
    rw [h.holder hs] at hr
    cases hr

/-- Only the holder of the right sends. -/
theorem Fenced.unique {t u : Taker} {p : Ack ρ × String × SendPc} (h : Fenced l)
    (hs : l.sending t = some p) (hne : u ≠ t) : l.sending u = none := by
  cases hs' : l.sending u with
  | none => rfl
  | some p' =>
    have h1 := h.holder hs
    rw [h.holder hs', Option.some_inj, Prod.mk.injEq] at h1
    exact absurd h1.1 hne

/-- What leaves the right, the senders and the calls alone keeps the fence. -/
private theorem Fenced.frame (h : Fenced l) (hj : l'.job = l.job) (hr : l'.right = l.right)
    (hs : l'.sending = l.sending) (hc : l'.calls = l.calls)
    (hl : l.lost = true → l'.lost = true) (hw : l'.standing = .waiting →
      l.standing = .waiting ∧ l'.lost = l.lost ∧ l'.beat = l.beat) : Fenced l' where
  free hn := hc.trans (h.free (hr ▸ hn))
  holder hp := hr ▸ h.holder (hs ▸ hp)
  counted hp := by rw [hc, hj, h.counted (hs ▸ hp)]
  called ha := by
    rw [hc, hj]
    exact h.called (hr ▸ ha)
  pending ha hn := by
    rw [hs]
    exact (h.pending (hr ▸ ha) (hc ▸ hn)).imp_left hl
  waiting hn := by
    obtain ⟨hw', hl', hb'⟩ := hw hn
    rw [hl', hb']
    exact h.waiting hw'
  onWire hn _ _ _ _ hp := h.onWire (hw hn).1 (hs ▸ hp)

/-- A free right is taken by a sender that stands at `pc`. -/
private theorem Fenced.grab {t : Taker} {a : Ack ρ} {w : String} {pc : SendPc} (h : Fenced l)
    (hn : l.right = none) (hj : l'.job = l.job) (hr : l'.right = some (t, a))
    (hs : l'.sending = Function.update l.sending t (some (a, w, pc)))
    (hc : l'.calls = if pc.early then [] else [ackCall l.job w a])
    (hw : l'.standing = .waiting → l'.lost = false ∧ l'.beat = .quiet ∧ pc = .wait) :
    Fenced l' := by
  -- only the new sender is sending
  have hp : ∀ {t' a' w' pc'}, l'.sending t' = some (a', w', pc') →
      t' = t ∧ a' = a ∧ w' = w ∧ pc' = pc := by
    intro t' a' w' pc' hsome
    rw [hs] at hsome
    by_cases ht : t' = t
    · subst ht
      rw [Function.update_self] at hsome
      cases hsome
      exact ⟨rfl, rfl, rfl, rfl⟩
    · rw [Function.update_of_ne ht, h.sending_none hn] at hsome
      cases hsome
  constructor
  · intro hfree
    rw [hr] at hfree
    cases hfree
  · intro t' a' w' pc' hsome
    obtain ⟨rfl, rfl, -, -⟩ := hp hsome
    exact hr
  · intro t' a' w' pc' hsome
    obtain ⟨-, rfl, rfl, rfl⟩ := hp hsome
    rw [hc, hj]
  · intro t' a' ha
    rw [hr, Option.some_inj, Prod.mk.injEq] at ha
    obtain ⟨-, rfl⟩ := ha
    rw [hc, hj]
    split
    · exact .inl rfl
    · exact .inr ⟨w, rfl⟩
  · intro t' a' ha _
    rw [hr, Option.some_inj, Prod.mk.injEq] at ha
    obtain ⟨rfl, rfl⟩ := ha
    exact .inr ⟨w, pc, by rw [hs, Function.update_self]⟩
  · intro hwait
    exact ⟨(hw hwait).1, (hw hwait).2.1⟩
  · intro hwait t' a' w' pc' hsome
    obtain ⟨-, -, -, rfl⟩ := hp hsome
    exact (hw hwait).2.2

/-- The holder moves on to `pc'`, or stops sending. -/
private theorem Fenced.advance {t : Taker} {a : Ack ρ} {w : String} {pc : SendPc}
    {q : Option SendPc} (h : Fenced l) (hp : l.sending t = some (a, w, pc))
    (hj : l'.job = l.job) (hr : l'.right = l.right)
    (hs : l'.sending = Function.update l.sending t (q.map fun pc' => (a, w, pc')))
    (hc : l'.calls = match q with
      | some pc' => if pc'.early then [] else [ackCall l.job w a]
      | none => l.calls)
    (hl : l.lost = true → l'.lost = true)
    (hend : q = none → pc.early = true → l.lost = true)
    (hw : l'.standing = .waiting → l.standing = .waiting ∧ l'.lost = l.lost ∧ l'.beat = l.beat ∧
      q = none) : Fenced l' := by
  have hright := h.holder hp
  -- only the holder can be sending, at its new place
  have hsend : ∀ {t' a' w' pc'}, l'.sending t' = some (a', w', pc') →
      t' = t ∧ a' = a ∧ w' = w ∧ q = some pc' := by
    intro t' a' w' pc' hsome
    rw [hs] at hsome
    by_cases ht : t' = t
    · subst ht
      rw [Function.update_self] at hsome
      obtain ⟨pc₁, hq, heq⟩ := Option.map_eq_some_iff.mp hsome
      cases heq
      exact ⟨rfl, rfl, rfl, hq⟩
    · rw [Function.update_of_ne ht, h.unique hp ht] at hsome
      cases hsome
  have hown : ∀ {t' a'}, l'.right = some (t', a') → t' = t ∧ a' = a := by
    intro t' a' ha
    rw [hr, hright, Option.some_inj, Prod.mk.injEq] at ha
    exact ⟨ha.1.symm, ha.2.symm⟩
  constructor
  · intro hfree
    rw [hr, hright] at hfree
    cases hfree
  · intro t' a' w' pc' hsome
    obtain ⟨rfl, rfl, -, -⟩ := hsend hsome
    rw [hr, hright]
  · intro t' a' w' pc' hsome
    obtain ⟨-, rfl, rfl, rfl⟩ := hsend hsome
    rw [hc, hj]
  · intro t' a' ha
    obtain ⟨-, rfl⟩ := hown ha
    rw [hc, hj]
    cases q with
    | none => exact h.called hright
    | some pc' =>
      dsimp only
      split
      · exact .inl rfl
      · exact .inr ⟨w, rfl⟩
  · intro t' a' ha hnil
    obtain ⟨rfl, rfl⟩ := hown ha
    cases q with
    | some pc' => exact .inr ⟨w, pc', by rw [hs, Function.update_self]; rfl⟩
    | none =>
      rw [hc, h.counted hp] at hnil
      refine .inl (hl (hend rfl ?_))
      by_contra hearly
      rw [if_neg hearly] at hnil
      cases hnil
  · intro hwait
    obtain ⟨hw', hl', hb', -⟩ := hw hwait
    rw [hl', hb']
    exact h.waiting hw'
  · intro hwait t' a' w' pc' hsome
    rw [(hw hwait).2.2.2] at hsend
    exact absurd (hsend hsome).2.2.2 (by simp)

/-- A sender that stands anywhere but on the wire belongs to a lease that left the poll. -/
private theorem Fenced.not_waiting {t : Taker} {a : Ack ρ} {w : String} {pc : SendPc}
    (h : Fenced l) (hp : l.sending t = some (a, w, pc)) (hne : pc ≠ .wait) :
    l.standing ≠ .waiting := fun hw => hne (h.onWire hw hp)

theorem Step.fenced {p : Actor} {r : Option Reply} (hstep : Step l p r l') (h : Fenced l) :
    Fenced l' := by
  cases hstep with
  | enter hw hr => exact h.frame rfl rfl rfl rfl id (fun hn => by cases hn)
  | leave he => exact h.frame rfl rfl rfl rfl id (fun hn => by cases hn)
  | release hw hr =>
    refine h.grab hr rfl rfl rfl (by simp [SendPc.early, h.free hr]) fun _ => ?_
    exact ⟨(h.waiting hw).1, (h.waiting hw).2, rfl⟩
  | take he hl hr =>
    refine h.grab hr rfl rfl rfl (by simp [SendPc.early, h.free hr]) fun hn => ?_
    rw [show l.standing = .waiting from hn] at he
    cases he
  | pass hp hl =>
    refine h.advance (q := some .send) hp rfl rfl rfl ?_ id (fun hq => by cases hq)
      fun hn => absurd hn (h.not_waiting hp (by simp))
    simpa [SendPc.early] using h.counted hp
  | stop hp hl =>
    exact h.advance (q := none) hp rfl rfl rfl rfl id (fun _ _ => hl)
      fun hn => absurd hn (h.not_waiting hp (by simp))
  | call hp =>
    refine h.advance (q := some .wait) hp rfl rfl rfl ?_ id (fun hq => by cases hq)
      fun hn => absurd hn (h.not_waiting hp (by simp))
    simp [h.counted hp, SendPc.early]
  | accepted hp hv =>
    exact h.advance (q := none) hp rfl rfl rfl rfl id (fun _ he => by cases he)
      fun hn => ⟨hn, rfl, rfl, rfl⟩
  | dropped hp =>
    exact h.advance (q := none) hp rfl rfl rfl rfl id (fun _ he => by cases he)
      fun hn => ⟨hn, rfl, rfl, rfl⟩
  | expired hp hs =>
    refine h.advance (q := some .lose) hp rfl rfl rfl ?_ id (fun hq => by cases hq)
      fun hn => absurd hn hs
    simpa [SendPc.early] using h.counted hp
  | alreadyLost hp hl =>
    exact h.advance (q := none) hp rfl rfl rfl rfl id (fun _ _ => hl)
      fun hn => absurd hn (h.not_waiting hp (by simp))
  | lose hp hl =>
    refine h.advance (q := some .report) hp rfl rfl rfl ?_ (fun _ => rfl)
      (fun hq => by cases hq) fun hn => absurd hn (h.not_waiting hp (by simp))
    simpa [SendPc.early] using h.counted hp
  | report hp =>
    exact h.advance (q := none) hp rfl rfl rfl rfl id (fun _ he => by cases he)
      fun hn => absurd hn (h.not_waiting hp (by simp))
  | beatFound hs hb =>
    exact h.frame rfl rfl rfl rfl id fun hn => absurd hn hs
  | beatIdle hb hl =>
    refine h.frame rfl rfl rfl rfl id fun hn => ?_
    rw [(h.waiting hn).2] at hb
    cases hb
  | beatLose hb hl =>
    refine h.frame rfl rfl rfl rfl (fun _ => rfl) fun hn => ?_
    rw [(h.waiting hn).2] at hb
    cases hb
  | beatReport hb =>
    refine h.frame rfl rfl rfl rfl id fun hn => ?_
    rw [(h.waiting hn).2] at hb
    cases hb

/-- A fenced lease has started at most one call, under its own job and lease id. -/
theorem Fenced.single (h : Fenced l) : l.calls.length ≤ 1 ∧
    ∀ c ∈ l.calls, c.jobId = l.job.id ∧ c.leaseId = l.job.leaseId := by
  cases hr : l.right with
  | none =>
    rw [h.free hr]
    simp
  | some p =>
    obtain ⟨t, a⟩ := p
    rcases h.called hr with hc | ⟨w, hc⟩ <;> rw [hc] <;> simp

/-! ### Never after the loss -/

/-- Lost, or no longer the entry, without the right to ack. -/
def Barred (l : Lease ρ) : Prop := (l.lost = true ∨ l.standing = .gone) ∧ l.right = none

theorem Step.barred {p : Actor} {r : Option Reply} (hstep : Step l p r l') (h : Fenced l)
    (hb : Barred l) : Barred l' := by
  obtain ⟨hout, hfree⟩ := hb
  have hidle := h.sending_none hfree
  have hstay : ¬ l.standing = .waiting := by
    intro hw
    rcases hout with hl | hg
    · rw [(h.waiting hw).1] at hl
      cases hl
    · rw [hw] at hg
      cases hg
  cases hstep with
  | enter hw hr => exact absurd hw hstay
  | leave he => exact ⟨.inr rfl, hfree⟩
  | release hw hr => exact absurd hw hstay
  | take he hl hr =>
    rcases hout with hlost | hg
    · rw [hl] at hlost
      cases hlost
    · rw [he] at hg
      cases hg
  | pass hp _ | stop hp _ | call hp | accepted hp _ | dropped hp | expired hp _
  | alreadyLost hp _ | lose hp _ | report hp =>
    rw [hidle] at hp
    cases hp
  | beatFound => exact ⟨hout, hfree⟩
  | beatIdle => exact ⟨hout, hfree⟩
  | beatLose => exact ⟨.inl rfl, hfree⟩
  | beatReport => exact ⟨hout, hfree⟩

/-! ### One terminal event -/

/-- Whether the lease has emitted the event of an accepted ack. -/
def acked (l : Lease ρ) : Bool := l.events.any JobEvent.isAck

/-- The number of events of one kind. -/
def count (l : Lease ρ) (f : JobEvent ρ → Bool) : ℕ := l.events.countP f

/-- Who still has to report the loss. -/
def Reports (l : Lease ρ) : Actor → Prop
  | .taker t => ∃ a w, l.sending t = some (a, w, .report)
  | .beat => l.beat = .reporting

/-- The terminal events emitted so far: at most one of each kind, and none while the
actor that will emit it has not. -/
structure Told (l : Lease ρ) : Prop where
  terminal : ∀ ev ∈ l.events, ev.isTerminal = true
  unclaimed : l.right = none → l.count JobEvent.isAck = 0
  sending : ∀ {t : Taker} {p : Ack ρ × String × SendPc}, l.sending t = some p →
    l.count JobEvent.isAck = 0
  acks : l.count JobEvent.isAck ≤ 1
  held : l.lost = false → l.count JobEvent.isLoss = 0 ∧ ∀ p, ¬ l.Reports p
  reports : ∀ {p : Actor}, l.Reports p → l.count JobEvent.isLoss = 0 ∧ ∀ q, l.Reports q → q = p
  losses : l.count JobEvent.isLoss ≤ 1

theorem Told.fresh (job : ClaimedJob) : Told ({ job := job } : Lease ρ) where
  terminal _ h := by cases h
  unclaimed _ := rfl
  sending h := by cases h
  acks := Nat.zero_le _
  held _ := ⟨rfl, by rintro (t | _) h <;> simp [Reports] at h⟩
  reports := by rintro (t | _) h <;> simp [Reports] at h
  losses := Nat.zero_le _

/-- An ack and a loss together are all that can double the terminal event. -/
theorem Told.length_le_one (h : Told l) (hn : ¬ (l.acked = true ∧ l.lost = true)) :
    l.events.length ≤ 1 := by
  have hsplit : l.events.length = l.count JobEvent.isAck + l.count JobEvent.isLoss := by
    have hall := h.terminal
    unfold count
    generalize l.events = evs at hall
    induction evs with
    | nil => rfl
    | cons ev evs ih =>
      have hev := hall ev (by simp)
      rw [List.length_cons, ih fun e he => hall e (by simp [he]), List.countP_cons,
        List.countP_cons]
      cases ev <;> simp_all [JobEvent.isTerminal, JobEvent.isAck, JobEvent.isLoss] <;> omega
  have hacks := h.acks
  have hlosses := h.losses
  by_cases hl : l.lost = true
  · have hack : l.count JobEvent.isAck = 0 := by
      rw [count, List.countP_eq_zero]
      intro ev hev hack
      exact hn ⟨List.any_eq_true.mpr ⟨ev, hev, hack⟩, hl⟩
    omega
  · have := (h.held (by simpa using hl)).1
    omega

/-- What emits nothing and gives nobody a loss to report. -/
private theorem Told.quiet (h : Told l) (he : l'.events = l.events) (hl : l'.lost = l.lost)
    (hr : l'.right = none → l.right = none)
    (hs : ∀ {t p}, l'.sending t = some p → l.count JobEvent.isAck = 0)
    (hp : ∀ {p}, l'.Reports p → l.Reports p) : Told l' := by
  have hc : ∀ f, l'.count f = l.count f := fun f => by rw [count, count, he]
  constructor
  · rw [he]
    exact h.terminal
  · intro hn
    rw [hc]
    exact h.unclaimed (hr hn)
  · intro t p hsome
    rw [hc]
    exact hs hsome
  · rw [hc]
    exact h.acks
  · intro hn
    rw [hc]
    exact ⟨(h.held (hl ▸ hn)).1, fun p hrep => (h.held (hl ▸ hn)).2 p (hp hrep)⟩
  · intro p hrep
    rw [hc]
    exact ⟨(h.reports (hp hrep)).1, fun q hq => (h.reports (hp hrep)).2 q (hp hq)⟩
  · rw [hc]
    exact h.losses

/-- Actor `p` marks the lease lost, which nobody had done, and is to report it. -/
private theorem Told.loses {p : Actor} (h : Told l) (hlost : l.lost = false)
    (he : l'.events = l.events) (hl : l'.lost = true) (hr : l'.right = l.right)
    (hs : ∀ {t q}, l'.sending t = some q → l.count JobEvent.isAck = 0)
    (hp : ∀ {q}, l'.Reports q → q = p ∨ l.Reports q) : Told l' := by
  have hc : ∀ f, l'.count f = l.count f := fun f => by rw [count, count, he]
  have hnone := h.held hlost
  have honly : ∀ {q}, l'.Reports q → q = p := fun hq =>
    (hp hq).resolve_right (hnone.2 _)
  constructor
  · rw [he]
    exact h.terminal
  · intro hn
    rw [hc]
    exact h.unclaimed (hr ▸ hn)
  · intro t q hsome
    rw [hc]
    exact hs hsome
  · rw [hc]
    exact h.acks
  · intro hn
    rw [hl] at hn
    cases hn
  · intro q hq
    rw [hc]
    exact ⟨hnone.1, fun q' hq' => (honly hq').trans (honly hq).symm⟩
  · rw [hc]
    exact h.losses

/-- The actor that had the loss to report reports it. -/
private theorem Told.reported {p : Actor} {op : String} (h : Told l) (hrep : l.Reports p)
    (he : l'.events = l.events ++ [leaseLostEvent l.job op]) (hl : l'.lost = l.lost)
    (hr : l'.right = l.right)
    (hs : ∀ {t q}, l'.sending t = some q → l.count JobEvent.isAck = 0)
    (hp : ∀ {q}, l'.Reports q → l.Reports q ∧ q ≠ p) : Told l' := by
  have hack : l'.count JobEvent.isAck = l.count JobEvent.isAck := by
    rw [count, he, List.countP_append]
    rfl
  have hloss : l'.count JobEvent.isLoss = l.count JobEvent.isLoss + 1 := by
    rw [count, he, List.countP_append]
    rfl
  have hzero := (h.reports hrep).1
  have hnobody : ∀ q, ¬ l'.Reports q := fun q hq =>
    (hp hq).2 ((h.reports hrep).2 q (hp hq).1)
  have hlost : l.lost = true := by
    by_contra hn
    exact (h.held (by simpa using hn)).2 p hrep
  constructor
  · intro ev hev
    rw [he, List.mem_append, List.mem_singleton] at hev
    rcases hev with hev | rfl
    · exact h.terminal ev hev
    · rfl
  · intro hn
    rw [hack]
    exact h.unclaimed (hr ▸ hn)
  · intro t q hsome
    rw [hack]
    exact hs hsome
  · rw [hack]
    exact h.acks
  · intro hn
    rw [hl, hlost] at hn
    cases hn
  · intro q hq
    exact absurd hq (hnobody q)
  · omega

/-- The holder hears that its call was accepted and stops sending. -/
private theorem Told.accepted {t : Taker} {p : Ack ρ × String × SendPc} {a : Ack ρ}
    (h : Told l) (hf : Fenced l) (hp : l.sending t = some p)
    (he : l'.events = l.events ++ [ackEvent l.job a]) (hl : l'.lost = l.lost)
    (hr : l'.right = l.right) (hs : ∀ t', l'.sending t' = none)
    (hrep : ∀ {q}, l'.Reports q → l.Reports q) : Told l' := by
  have hack : l'.count JobEvent.isAck = l.count JobEvent.isAck + 1 := by
    rw [count, he, List.countP_append, List.countP_singleton, ackEvent_isAck]
    rfl
  have hloss : l'.count JobEvent.isLoss = l.count JobEvent.isLoss := by
    rw [count, he, List.countP_append, List.countP_singleton, ackEvent_isLoss]
    rfl
  have hzero := h.sending hp
  constructor
  · intro ev hev
    rw [he, List.mem_append, List.mem_singleton] at hev
    rcases hev with hev | rfl
    · exact h.terminal ev hev
    · simp [JobEvent.isTerminal]
  · intro hn
    have hheld : l.right = some (t, p.1) := hf.holder hp
    rw [hr, hheld] at hn
    cases hn
  · intro t' q hsome
    rw [hs t'] at hsome
    cases hsome
  · omega
  · intro hn
    rw [hloss]
    exact ⟨(h.held (hl ▸ hn)).1, fun q hq => (h.held (hl ▸ hn)).2 q (hrep hq)⟩
  · intro q hq
    rw [hloss]
    exact ⟨(h.reports (hrep hq)).1, fun q' hq' => (h.reports (hrep hq)).2 q' (hrep hq')⟩
  · rw [hloss]
    exact h.losses

/-- After sender `t` moves to `p`, an actor that reports is `t` at its report or reported
before. -/
private theorem reports_of_setSending {t : Taker} {p : Option (Ack ρ × String × SendPc)}
    {q : Actor} (h : (l.setSending t p).Reports q) :
    (q = .taker t ∧ ∃ a w, p = some (a, w, .report)) ∨ (q ≠ .taker t ∧ l.Reports q) := by
  cases q with
  | beat => exact .inr ⟨by simp, h⟩
  | taker t' =>
    obtain ⟨a, w, hsome⟩ := h
    rw [setSending_sending] at hsome
    by_cases ht : t' = t
    · subst ht
      rw [Function.update_self] at hsome
      exact .inl ⟨rfl, a, w, hsome⟩
    · rw [Function.update_of_ne ht] at hsome
      exact .inr ⟨by simpa using ht, a, w, hsome⟩

theorem Step.told {p : Actor} {r : Option Reply} (hstep : Step l p r l') (hf : Fenced l)
    (h : Told l) : Told l' := by
  -- a sender that stays below its report, or ends, leaves the events as they are
  have hmove : ∀ {t p q}, l.sending t = some p → (∀ a w, q ≠ some (a, w, SendPc.report)) →
      Told (l.setSending t q) := by
    intro t p q hp hq
    refine h.quiet rfl rfl id (fun _ => h.sending hp) fun hrep => ?_
    rcases reports_of_setSending hrep with ⟨-, a, w, rfl⟩ | ⟨-, hold⟩
    · exact absurd rfl (hq a w)
    · exact hold
  cases hstep with
  | enter hw hr => exact h.quiet rfl rfl id h.sending id
  | leave he => exact h.quiet rfl rfl id h.sending id
  | release hw hr =>
    refine h.quiet rfl rfl (fun hn => by cases hn) (fun _ => h.unclaimed hr) fun {q} hrep => ?_
    rcases reports_of_setSending (p := some (_, _, .wait)) (q := q) hrep with
      ⟨-, a, w, heq⟩ | ⟨-, hold⟩
    · cases heq
    · exact hold
  | take he hl hr =>
    refine h.quiet rfl rfl (fun hn => by cases hn) (fun _ => h.unclaimed hr) fun {q} hrep => ?_
    rcases reports_of_setSending (p := some (_, _, .check)) (q := q) hrep with
      ⟨-, a, w, heq⟩ | ⟨-, hold⟩
    · cases heq
    · exact hold
  | pass hp hl => exact hmove hp (by simp)
  | stop hp hl => exact hmove hp (by simp)
  | @call t w a hp =>
    have := hmove (q := some (a, w, .wait)) hp (by simp)
    exact this.quiet rfl rfl id this.sending id
  | @accepted t w a r hp hv =>
    refine h.accepted hf hp rfl rfl rfl (fun t' => ?_) fun {q} hrep => ?_
    · by_cases ht : t' = t
      · subst ht
        exact Function.update_self ..
      · exact (Function.update_of_ne ht ..).trans (hf.unique hp ht)
    · rcases reports_of_setSending (p := none) (q := q) hrep with ⟨-, a, w, heq⟩ | ⟨-, hold⟩
      · cases heq
      · exact hold
  | dropped hp => exact hmove hp (by simp)
  | expired hp hs => exact hmove hp (by simp)
  | alreadyLost hp hl => exact hmove hp (by simp)
  | @lose t w a hp hl =>
    refine h.loses (p := .taker t) hl rfl rfl rfl (fun _ => h.sending hp) fun {q} hrep => ?_
    rcases reports_of_setSending (p := some (a, w, .report)) (q := q) hrep with
      ⟨rfl, -⟩ | ⟨-, hold⟩
    · exact .inl rfl
    · exact .inr hold
  | @report t w a op hp =>
    refine h.reported (p := .taker t) ⟨a, w, hp⟩ rfl rfl rfl (fun _ => h.sending hp)
      fun {q} hrep => ?_
    rcases reports_of_setSending (p := none) (q := q) hrep with ⟨-, a, w, heq⟩ | ⟨hne, hold⟩
    · cases heq
    · exact ⟨hold, hne⟩
  | beatFound hs hb =>
    refine h.quiet rfl rfl id h.sending fun {q} hrep => ?_
    cases q with
    | taker t => exact hrep
    | beat => cases hrep
  | beatIdle hb hl =>
    refine h.quiet rfl rfl id h.sending fun {q} hrep => ?_
    cases q with
    | taker t => exact hrep
    | beat => cases hrep
  | beatLose hb hl =>
    refine h.loses (p := .beat) hl rfl rfl rfl h.sending fun {q} hrep => ?_
    cases q with
    | taker t => exact .inr hrep
    | beat => exact .inl rfl
  | beatReport hb =>
    refine h.reported (p := .beat) hb rfl rfl rfl h.sending fun {q} hrep => ?_
    cases q with
    | taker t => exact ⟨hrep, by simp⟩
    | beat => cases hrep

/-- Neither a heartbeat marks a lease lost that has been acked, nor is the ack of a lost
lease accepted. -/
def Clean (l : Lease ρ) : Actor → Option Reply → Prop
  | .beat, _ => l.beat = .found → l.lost = false → l.acked = false
  | .taker t, some r => ∀ a w, l.sending t = some (a, w, .wait) → verdict a r = .accepted →
    l.lost = false
  | .taker _, none => True

/-- A clean step does not make a lease both acked and lost. -/
theorem Step.exclusive {p : Actor} {r : Option Reply} (hstep : Step l p r l') (h : Told l)
    (hc : Clean l p r) (hn : ¬ (l.acked = true ∧ l.lost = true)) :
    ¬ (l'.acked = true ∧ l'.lost = true) := by
  have hsend : ∀ {t p}, l.sending t = some p → l.acked = false := by
    intro t p hp
    have := h.sending hp
    rw [count, List.countP_eq_zero] at this
    simpa [acked] using this
  cases hstep with
  | enter | leave | release | take | pass | stop | call | dropped | expired | alreadyLost
  | beatFound | beatIdle => exact hn
  | accepted hp hv =>
    rintro ⟨-, hl⟩
    have hheld : l.lost = false := hc _ _ hp hv
    rw [show l.lost = true from hl] at hheld
    cases hheld
  | lose hp hl =>
    rintro ⟨ha, -⟩
    rw [show l.acked = true from ha] at hsend
    cases hsend hp
  | report hp =>
    rintro ⟨ha, hl⟩
    refine hn ⟨?_, hl⟩
    simpa [acked, JobEvent.isAck, leaseLostEvent] using ha
  | beatLose hb hl =>
    rintro ⟨ha, -⟩
    have hnot : l.acked = false := hc hb hl
    rw [show l.acked = true from ha] at hnot
    cases hnot
  | beatReport hb =>
    rintro ⟨ha, hl⟩
    refine hn ⟨?_, hl⟩
    simpa [acked, JobEvent.isAck, leaseLostEvent] using ha

/-! ### Whole lives -/

/-- What every step of a fenced lease keeps is kept for the rest of its life. -/
theorem Evolves.preserves {P : Lease ρ → Prop}
    (hP : ∀ {l l' p r}, Fenced l → P l → Step l p r l' → P l') {o : Option (Lease ρ)}
    (h : Relation.ReflTransGen Evolves (some l) o) (hf : Fenced l) (hl : P l) :
    ∃ l', o = some l' ∧ Fenced l' ∧ P l' := by
  induction h with
  | refl => exact ⟨l, rfl, hf, hl⟩
  | tail _ hstep ih =>
    obtain ⟨l₁, rfl, hf₁, hl₁⟩ := ih
    cases hstep with
    | step hstep => exact ⟨_, rfl, hstep.fenced hf₁, hP hf₁ hl₁ hstep⟩

/-- Every lease that a claim returned is fenced and told, whatever happens to it. -/
theorem Evolves.sound {o : Option (Lease ρ)} (h : Relation.ReflTransGen Evolves none o) :
    ∀ l, o = some l → Fenced l ∧ Told l := by
  induction h with
  | refl =>
    intro l hl
    cases hl
  | tail _ hstep ih =>
    intro l hl
    cases hstep with
    | claimed job =>
      cases hl
      exact ⟨.fresh job, .fresh job⟩
    | step hstep =>
      obtain ⟨hf, ht⟩ := ih _ rfl
      cases hl
      exact ⟨hstep.fenced hf, hstep.told hf ht⟩

end Lease

end SpooledSdk.Worker
