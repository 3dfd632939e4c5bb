/-
The request side of `ProcessJobsStream`: a producer that sends and then ends, and the request
generator that the gRPC runtime drives.

* `ledger_of_reachable` — what was yielded, followed by what is queued, is what was sent,
  until the generator gives up a queue that is not empty;
* `none_lost` — so under `DrainsFirst` a generator that has finished has yielded everything;
* `lost_at_end` — a send and `end()` between the timeout of the generator's `get` and its test
  of the flag lose a request.
-/
import SpooledSdk.System
import Mathlib.Tactic.Common

namespace SpooledSdk.Grpc

/-- Where the producer is: between calls, about to put a request, in `end()` with the flag
set, or past `end()`. -/
inductive ProducerPc (ρ : Type*)
  | idle
  | putting (request : ρ)
  | ending
  | ended
  deriving DecidableEq

/-- Where `request_generator` is: not called yet, at `get`, suspended at `yield`, in the
`queue.Empty` handler, or returned. -/
inductive GeneratorPc
  | uncalled
  | getting
  | yielding
  | empty
  | finished
  deriving DecidableEq

/-- `requestQueue` holds `none` for the end signal.  `sent` and `yielded` are the requests
that were put on the queue and those that the generator has yielded. -/
structure ProcessJobsStream (ρ : Type*) where
  requestQueue : List (Option ρ) := []
  ended : Bool := false
  producer : ProducerPc ρ := .idle
  generator : GeneratorPc := .uncalled
  sent : List ρ := []
  yielded : List ρ := []
  deriving DecidableEq

inductive Action (ρ : Type*)
  | receive
  | send (request : ρ)
  | put
  | endCall
  | endSignal
  | get
  | timeout
  | test
  | resume

namespace ProcessJobsStream

variable {ρ : Type*}

/-- `_ensure_started`.  The code tests and sets its flag without a lock: one step says that
`receive()` does not race the first `send()`. -/
def ensureStarted (s : ProcessJobsStream ρ) : ProcessJobsStream ρ :=
  match s.generator with
  | .uncalled => { s with generator := .getting }
  | _ => s

/-- `end()` first sets the flag and then puts the end signal; the generator takes an item from
its queue, or after a timeout on an empty one tests the flag. -/
def step (s : ProcessJobsStream ρ) : Action ρ → Option (ProcessJobsStream ρ)
  | .receive => some s.ensureStarted
  | .send request =>
    match s.producer with
    | .idle => some { s.ensureStarted with producer := .putting request }
    | _ => none
  | .put =>
    match s.producer with
    | .putting request => some { s with
        requestQueue := s.requestQueue ++ [some request], sent := s.sent ++ [request]
        producer := .idle }
    | _ => none
  | .endCall =>
    match s.producer with
    | .idle => some { s with ended := true, producer := .ending }
    | _ => none
  | .endSignal =>
    match s.producer with
    | .ending => some { s with requestQueue := s.requestQueue ++ [none], producer := .ended }
    | _ => none
  | .get =>
    match s.generator, s.requestQueue with
    | .getting, some request :: rest => some { s with
        requestQueue := rest, yielded := s.yielded ++ [request], generator := .yielding }
    | .getting, none :: rest => some { s with requestQueue := rest, generator := .finished }
    | _, _ => none
  | .timeout =>
    match s.generator, s.requestQueue with
    | .getting, [] => some { s with generator := .empty }
    | _, _ => none
  | .test =>
    match s.generator with
    | .empty => some { s with generator := if s.ended then .finished else .getting }
    | _ => none
  | .resume =>
    match s.generator with
    | .yielding => some { s with generator := .getting }
    | _ => none

/-- The requests on the queue. -/
def pending (s : ProcessJobsStream ρ) : List ρ := s.requestQueue.filterMap id

end ProcessJobsStream

/-- The stream before its first call. -/
def system (ρ : Type*) : System (ProcessJobsStream ρ) (Action ρ) where
  init := {}
  step := ProcessJobsStream.step

variable {ρ : Type*} {s s' : ProcessJobsStream ρ} {a : Action ρ}
  {ok : ProcessJobsStream ρ → Action ρ → Prop}

/-! ### What a step does -/

inductive Next (s : ProcessJobsStream ρ) : Action ρ → ProcessJobsStream ρ → Prop
  | receive : Next s .receive s.ensureStarted
  | send {request : ρ} (hp : s.producer = .idle) :
      Next s (.send request) { s.ensureStarted with producer := .putting request }
  | put {request : ρ} (hp : s.producer = .putting request) :
      Next s .put { s with
        requestQueue := s.requestQueue ++ [some request], sent := s.sent ++ [request]
        producer := .idle }
  | endCall (hp : s.producer = .idle) :
      Next s .endCall { s with ended := true, producer := .ending }
  | endSignal (hp : s.producer = .ending) :
      Next s .endSignal { s with requestQueue := s.requestQueue ++ [none], producer := .ended }
  | got {request : ρ} {rest : List (Option ρ)} (hg : s.generator = .getting)
      (hq : s.requestQueue = some request :: rest) :
      Next s .get { s with
        requestQueue := rest, yielded := s.yielded ++ [request], generator := .yielding }
  | signalled {rest : List (Option ρ)} (hg : s.generator = .getting)
      (hq : s.requestQueue = none :: rest) :
      Next s .get { s with requestQueue := rest, generator := .finished }
  | timeout (hg : s.generator = .getting) (hq : s.requestQueue = []) :
      Next s .timeout { s with generator := .empty }
  | finish (hg : s.generator = .empty) (he : s.ended = true) :
      Next s .test { s with generator := .finished }
  | again (hg : s.generator = .empty) (he : s.ended ≠ true) :
      Next s .test { s with generator := .getting }
  | resume (hg : s.generator = .yielding) : Next s .resume { s with generator := .getting }

theorem next_of_step (h : s.step a = some s') : Next s a s' := by
  cases a <;> dsimp only [ProcessJobsStream.step] at h
  case receive =>
    obtain rfl := Option.some_inj.mp h
    exact .receive
  case test =>
    split at h
    · rename_i hg
      obtain rfl := Option.some_inj.mp h
      split
      · exact .finish hg ‹_›
      · exact .again hg ‹_›
    · cases h
  case get =>
    split at h
    · obtain rfl := Option.some_inj.mp h
      exact .got ‹_› ‹_›
    · obtain rfl := Option.some_inj.mp h
      exact .signalled ‹_› ‹_›
    · cases h
  all_goals
    split at h
    · obtain rfl := Option.some_inj.mp h
      first
        | exact .send ‹_›
        | exact .put ‹_›
        | exact .endCall ‹_›
        | exact .endSignal ‹_›
        | exact .timeout ‹_› ‹_›
        | exact .resume ‹_›
    · cases h

/-! ### The ledger -/

/-- What was yielded and what is queued is what was sent, in order; the end signal is the last
entry of the queue, and the flag is set from `end()` on. -/
structure Ledger (s : ProcessJobsStream ρ) : Prop where
  account : s.yielded ++ s.pending = s.sent
  queue : s.requestQueue = s.pending.map some ∨
    s.requestQueue = s.pending.map some ++ [none] ∧ s.producer = .ended
  flag : s.ended = true ↔ s.producer = .ending ∨ s.producer = .ended

theorem Ledger.ensureStarted (h : Ledger s) : Ledger s.ensureStarted ∧
    s.ensureStarted.producer = s.producer ∧ s.ensureStarted.ended = s.ended := by
  unfold ProcessJobsStream.ensureStarted
  split <;> exact ⟨⟨h.account, h.queue, h.flag⟩, rfl, rfl⟩

/-- Before `end()` has put its signal the queue holds requests only. -/
theorem Ledger.queue_eq (h : Ledger s) (hp : s.producer ≠ .ended) :
    s.requestQueue = s.pending.map some :=
  h.queue.resolve_right fun hq => hp hq.2

theorem Ledger.not_ended (h : Ledger s) (hp : s.producer ≠ .ending) (hp' : s.producer ≠ .ended) :
    s.ended ≠ true := by
  intro he
  obtain he | he := h.flag.mp he
  · exact hp he
  · exact hp' he

/-- The end signal comes after every request. -/
theorem Ledger.signal (h : Ledger s) {rest : List (Option ρ)} (hq : s.requestQueue = none :: rest) :
    s.pending = [] ∧ rest = [] ∧ s.ended = true := by
  cases hpend : s.pending with
  | nil =>
    obtain heq | ⟨heq, hp⟩ := h.queue
    · rw [hpend, hq] at heq
      cases heq
    · rw [hpend, hq] at heq
      exact ⟨rfl, (List.cons.inj heq).2, h.flag.mpr (.inr hp)⟩
  | cons r rs =>
    obtain heq | ⟨heq, -⟩ := h.queue <;>
      (rw [hpend, hq] at heq; cases heq)

theorem ledger_next (h : Ledger s) (hn : Next s a s') : Ledger s' := by
  cases hn with
  | receive => exact h.ensureStarted.1
  | send hp =>
    obtain ⟨h', hprod, hend⟩ := h.ensureStarted
    refine ⟨h'.account, .inl (h'.queue_eq (by rw [hprod, hp]; exact nofun)), ?_⟩
    refine iff_of_false (fun he => ?_) (by simp)
    exact h.not_ended (by rw [hp]; exact nofun) (by rw [hp]; exact nofun) (hend.symm.trans he)
  | @put request hp =>
    have hq := h.queue_eq (by rw [hp]; exact nofun)
    have hpend : (s.requestQueue ++ [some request]).filterMap id = s.pending ++ [request] :=
      List.filterMap_append
    refine ⟨?_, .inl ?_, iff_of_false (h.not_ended ?_ ?_) (by simp)⟩
    · show s.yielded ++ List.filterMap id (s.requestQueue ++ [some request]) = _
      rw [hpend, ← List.append_assoc, h.account]
    · show s.requestQueue ++ [some request] =
        (List.filterMap id (s.requestQueue ++ [some request])).map some
      rw [hpend, List.map_append, ← hq]
      rfl
    · rw [hp]
      exact nofun
    · rw [hp]
      exact nofun
  | endCall hp =>
    exact ⟨h.account, .inl (h.queue_eq (by rw [hp]; exact nofun)), iff_of_true rfl (.inl rfl)⟩
  | endSignal hp =>
    have hq := h.queue_eq (by rw [hp]; exact nofun)
    have hpend : (s.requestQueue ++ [none]).filterMap id = s.pending :=
      List.filterMap_append.trans (List.append_nil _)
    refine ⟨?_, .inr ⟨?_, rfl⟩, iff_of_true (h.flag.mpr (.inl hp)) (.inr rfl)⟩
    · show s.yielded ++ List.filterMap id (s.requestQueue ++ [none]) = _
      rw [hpend, h.account]
    · show s.requestQueue ++ [none] = (List.filterMap id (s.requestQueue ++ [none])).map some ++ _
      rw [hpend, ← hq]
  | @got request rest hg hq =>
    have hpend : s.pending = request :: rest.filterMap id := by
      rw [ProcessJobsStream.pending, hq]
      rfl
    refine ⟨?_, ?_, h.flag⟩
    · show (s.yielded ++ [request]) ++ rest.filterMap id = s.sent
      rw [← h.account, hpend, List.append_assoc]
      rfl
    · obtain heq | ⟨heq, hp⟩ := h.queue
      · rw [hq, hpend] at heq
        exact .inl (List.cons.inj heq).2
      · rw [hq, hpend] at heq
        exact .inr ⟨(List.cons.inj heq).2, hp⟩
  | signalled hg hq =>
    obtain ⟨hpend, rfl, -⟩ := h.signal hq
    refine ⟨?_, .inl rfl, h.flag⟩
    rw [← h.account, hpend]
    rfl
  | timeout | finish | again | resume => exact ⟨h.account, h.queue, h.flag⟩

theorem ledger_of_reachable (h : (system ρ).Reachable ok s) : Ledger s :=
  h.invariant ⟨rfl, .inl rfl, iff_of_false (fun he => by cases he) (by simp [system])⟩
    fun _ _ _ hl _ hstep => ledger_next hl (next_of_step hstep)

/-! ### The end of the generator -/

/-- The generator does not find the flag set while requests are on the queue: nothing was put
there since its `get` timed out, or `end()` has not been called. -/
def DrainsFirst (s : ProcessJobsStream ρ) (a : Action ρ) : Bool :=
  match a with
  | .test => !s.ended || s.pending.isEmpty
  | _ => true

/-- A generator that has finished is past `end()` and has left no request. -/
def Drained (s : ProcessJobsStream ρ) : Prop :=
  s.generator = .finished → s.ended = true ∧ s.pending = []

theorem drained_next (hl : Ledger s) (hd : Drained s) (hok : DrainsFirst s a = true)
    (hn : Next s a s') : Drained s' := by
  intro hfin
  cases hn with
  | receive =>
    unfold ProcessJobsStream.ensureStarted at hfin ⊢
    split at hfin
    · cases hfin
    · exact hd hfin
  | send hp =>
    have hgen : s.generator = .finished := by
      revert hfin
      show s.ensureStarted.generator = _ → _
      unfold ProcessJobsStream.ensureStarted
      split
      · exact nofun
      · exact id
    exact absurd (hd hgen).1 (hl.not_ended (by rw [hp]; exact nofun) (by rw [hp]; exact nofun))
  | put hp =>
    exact absurd (hd hfin).1 (hl.not_ended (by rw [hp]; exact nofun) (by rw [hp]; exact nofun))
  | endCall hp => exact ⟨rfl, (hd hfin).2⟩
  | endSignal hp =>
    refine ⟨(hd hfin).1, ?_⟩
    show List.filterMap id (s.requestQueue ++ [none]) = []
    rw [List.filterMap_append]
    exact (List.append_nil _).trans (hd hfin).2
  | signalled hg hq =>
    obtain ⟨-, rfl, he⟩ := hl.signal hq
    exact ⟨he, rfl⟩
  | finish hg he =>
    rw [DrainsFirst, he, Bool.not_true, Bool.false_or, List.isEmpty_iff] at hok
    exact ⟨he, hok⟩
  | got | timeout | again | resume => cases hfin

/-- What the generator has yielded is a prefix of what was sent, and all of it when it has
finished, in every run in which it drains the queue before it gives up; and it gives up early
only by losing requests. -/
theorem none_lost (ρ : Type*) :
    (∀ s : ProcessJobsStream ρ, (system ρ).Reachable (fun s a => DrainsFirst s a = true) s →
      s.yielded <+: s.sent ∧ (s.generator = .finished → s.yielded = s.sent)) ∧
    (∀ (s s' : ProcessJobsStream ρ) (a : Action ρ), (system ρ).Reachable System.always s →
      s.step a = some s' → DrainsFirst s a = false →
        s'.generator = .finished ∧ s'.yielded ≠ s'.sent) := by
  constructor
  · intro s h
    have hl := ledger_of_reachable h
    refine ⟨⟨_, hl.account⟩, fun hfin => ?_⟩
    have hd : Drained s := h.invariant_of (P := Drained) (fun t ht => ledger_of_reachable ht)
      (fun hfin => by cases hfin)
      (fun t a t' hl hd hok hstep => drained_next hl hd hok (next_of_step hstep))
    rw [← hl.account, (hd hfin).2, List.append_nil]
  · intro s s' a h hstep hno
    have hl := ledger_of_reachable h
    cases next_of_step hstep with
    | finish hg he =>
      rw [DrainsFirst, he, Bool.not_true, Bool.false_or] at hno
      refine ⟨rfl, fun heq => ?_⟩
      have hpend : s.pending = [] := by
        have hacc := hl.account
        rw [← show s.yielded = s.sent from heq] at hacc
        exact List.append_cancel_left (hacc.trans (List.append_nil _).symm)
      rw [hpend] at hno
      cases hno
    | again hg he =>
      rw [DrainsFirst, Bool.eq_false_iff.mpr he] at hno
      cases hno
    | _ => cases hno

/-- The generator yields the one request, and finishes at the end signal. -/
theorem none_lost_sample : ∃ s : ProcessJobsStream ℕ, s.generator = .finished ∧
    s.sent = [7] ∧ s.yielded = s.sent := by
  have hrun : ((system ℕ).runIf (fun s a => DrainsFirst s a = true) (system ℕ).init
      [.send 7, .put, .get, .endCall, .resume, .timeout, .endSignal, .test]).any
      (fun s => s.generator = .finished && s.sent = [7]) = true := by
    decide
  obtain ⟨s, hs, hp⟩ := System.exists_of_runIf hrun
  rw [Bool.and_eq_true, decide_eq_true_eq, decide_eq_true_eq] at hp
  exact ⟨s, hp.1, hp.2, ((none_lost ℕ).1 s hs).2 hp.1⟩

/-- The `get` of the generator times out, the request is sent and `end()` sets its flag, and
the generator tests the flag. -/
theorem lost_at_end : ¬ ∀ s : ProcessJobsStream ℕ, (system ℕ).Reachable System.always s →
    s.generator = .finished → s.yielded = s.sent := by
  intro hall
  have hrun : ((system ℕ).run (system ℕ).init
      [.receive, .timeout, .send 7, .put, .endCall, .test]).any
      (fun s => s.generator = .finished && s.sent = [7] && s.yielded = []) = true := by
    decide
  obtain ⟨s, hs, hp⟩ := System.exists_of_run hrun
  simp only [Bool.and_eq_true, decide_eq_true_eq] at hp
  have := hall s hs hp.1.1
  rw [hp.1.2, hp.2] at this
  cases this

end SpooledSdk.Grpc
