/-
The queue between the receive thread of a `SpooledRealtime` and the generators of `events()`.

`_dispatch_event` puts an event into the queue; over a full queue it takes the oldest one out and
tries again.  Generators take events at any moment, the first of them creates the queue, and each
operation of a queue is one step.
-/
import SpooledSdk.BoundedQueue
import SpooledSdk.Registry
import SpooledSdk.System

namespace SpooledSdk.Realtime.EventQueue

/-- `queue.Queue(maxsize=10000)` -/
def maxSize : ℕ := 10000

variable {ε : Type*}

/-- A queue, from which generators take and a dispatch drops (`none`), with the events that were
dispatched while it was the queue of the client. -/
structure Queue (ε : Type*) where
  buffer : BoundedQueue (Option ℕ) ε maxSize := .empty
  sent : List ε := []

/-- Where a `_dispatch_event` is: its look at `_event_queue`, its first put, the removal of the
oldest event, its second put. -/
inductive Dispatch (ε : Type*)
  | look (e : ε)
  | put (q : ℕ) (e : ε)
  | make (q : ℕ) (e : ε)
  | again (q : ℕ) (e : ε)
  | ended

/-- Where an `events()` is: its test for a queue, the creation of one, its look at
`_event_queue`, its wait for an event, the `yield`. -/
inductive Generator
  | test
  | create
  | look
  | getting (q : ℕ)
  | yielded (q : ℕ)
  | ended
  deriving DecidableEq, Repr

structure Client (ε : Type*) where
  queues : List (Queue ε) := []
  eventQueue : Option ℕ := none
  dispatches : List (Dispatch ε) := []
  generators : List Generator := []

inductive Action (ε : Type*)
  | dispatch (e : ε)
  | goDispatch (i : ℕ)
  | events
  | goEvents (j : ℕ)
  | stop (j : ℕ)

namespace Client

variable (s : Client ε)

def setDispatch (i : ℕ) (d : Dispatch ε) : Client ε := { s with dispatches := s.dispatches.set i d }

def setGenerator (j : ℕ) (g : Generator) : Client ε := { s with generators := s.generators.set j g }

def setQueue (q : ℕ) (queue : Queue ε) : Client ε := { s with queues := s.queues.set q queue }

/-- The next step of a dispatch. -/
def goDispatch (i : ℕ) : Dispatch ε → Option (Client ε)
  | .look e =>
    match s.eventQueue with
    | none => some (s.setDispatch i .ended)
    | some q =>
      s.queues[q]?.map fun queue =>
        (s.setQueue q { queue with sent := queue.sent ++ [e] }).setDispatch i (.put q e)
  | .put q e =>
    s.queues[q]?.map fun queue =>
      match queue.buffer.put? e with
      | some buffer => (s.setQueue q { queue with buffer }).setDispatch i .ended
      | none => s.setDispatch i (.make q e)
  | .make q e =>
    s.queues[q]?.map fun queue =>
      match queue.buffer.take? none with
      | some (_, buffer) => (s.setQueue q { queue with buffer }).setDispatch i (.again q e)
      | none => s.setDispatch i (.again q e)
  -- an event for which there is no room still is given up
  | .again q e =>
    s.queues[q]?.map fun queue =>
      match queue.buffer.put? e with
      | some buffer => (s.setQueue q { queue with buffer }).setDispatch i .ended
      | none => s.setDispatch i .ended
  | .ended => none

/-- The next step of a generator. -/
def goEvents (j : ℕ) : Generator → Option (Client ε)
  | .test => some (s.setGenerator j (if s.eventQueue.isNone then .create else .look))
  | .create =>
    some { s.setGenerator j .look with
      queues := s.queues ++ [{}]
      eventQueue := some s.queues.length }
  | .look => s.eventQueue.map fun q => s.setGenerator j (.getting q)
  | .getting q =>
    s.queues[q]?.map fun queue =>
      match queue.buffer.take? (some j) with
      | some (_, buffer) => (s.setQueue q { queue with buffer }).setGenerator j (.yielded q)
      | none => s
  | .yielded q => some (s.setGenerator j (.getting q))
  | .ended => none

def step : Action ε → Option (Client ε)
  | .dispatch e => some { s with dispatches := s.dispatches ++ [.look e] }
  | .goDispatch i => s.dispatches[i]?.bind (s.goDispatch i)
  | .events => some { s with generators := s.generators ++ [.test] }
  | .goEvents j => s.generators[j]?.bind (s.goEvents j)
  | .stop j => some (s.setGenerator j .ended)

end Client

def system (ε : Type*) : System (Client ε) (Action ε) where
  init := {}
  step := Client.step

/-! ### One thread that dispatches -/

/-- The dispatch has an event for queue `q` in its hands. -/
def Dispatch.holds (q : ℕ) : Dispatch ε → Option ε
  | .put q' e | .make q' e | .again q' e => if q' = q then some e else none
  | _ => none

def Dispatch.isEnded : Dispatch ε → Bool
  | .ended => true
  | _ => false

/-- A dispatch begins only when the last one has come to its end: one thread dispatches. -/
def Sole (s : Client ε) : Action ε → Bool
  | .dispatch _ => s.dispatches.all Dispatch.isEnded
  | _ => true

variable {s s' : Client ε} {i j q : ℕ} {d : Dispatch ε} {g : Generator} {a : Action ε}

/-- What a dispatch can do next. -/
inductive Dispatches (s : Client ε) (i : ℕ) : Dispatch ε → Client ε → Prop
  | miss {e : ε} : Dispatches s i (.look e) (s.setDispatch i .ended)
  | enter {e : ε} {q : ℕ} {queue : Queue ε} (hq : s.queues[q]? = some queue) :
      Dispatches s i (.look e)
        ((s.setQueue q { queue with sent := queue.sent ++ [e] }).setDispatch i (.put q e))
  | store {e : ε} {q : ℕ} {queue : Queue ε} {buffer : BoundedQueue (Option ℕ) ε maxSize}
      (d : Dispatch ε) (hd : d = .put q e ∨ d = .again q e) (hq : s.queues[q]? = some queue)
      (hput : queue.buffer.put? e = some buffer) :
      Dispatches s i d ((s.setQueue q { queue with buffer }).setDispatch i .ended)
  | full {e : ε} {q : ℕ} {queue : Queue ε} (hq : s.queues[q]? = some queue)
      (hput : queue.buffer.put? e = none) :
      Dispatches s i (.put q e) (s.setDispatch i (.make q e))
  | drop {e old : ε} {q : ℕ} {queue : Queue ε} {buffer : BoundedQueue (Option ℕ) ε maxSize}
      (hq : s.queues[q]? = some queue) (htake : queue.buffer.take? none = some (old, buffer)) :
      Dispatches s i (.make q e) ((s.setQueue q { queue with buffer }).setDispatch i (.again q e))
  | drained {e : ε} {q : ℕ} {queue : Queue ε} (hq : s.queues[q]? = some queue)
      (htake : queue.buffer.take? none = none) :
      Dispatches s i (.make q e) (s.setDispatch i (.again q e))
  | refuse {e : ε} {q : ℕ} {queue : Queue ε} (hq : s.queues[q]? = some queue)
      (hput : queue.buffer.put? e = none) :
      Dispatches s i (.again q e) (s.setDispatch i .ended)

theorem dispatches_of_go (h : s.goDispatch i d = some s') : Dispatches s i d s' := by
  cases d with
  | look e =>
    rw [Client.goDispatch] at h
    split at h
    · exact Option.some.inj h ▸ .miss
    · obtain ⟨queue, hq, rfl⟩ := Option.map_eq_some_iff.mp h
      exact .enter hq
  | put q e =>
    obtain ⟨queue, hq, h⟩ := Option.map_eq_some_iff.mp h
    split at h
    · rename_i buffer hput
      exact h ▸ .store _ (.inl rfl) hq hput
    · rename_i hput
      exact h ▸ .full hq hput
  | make q e =>
    obtain ⟨queue, hq, h⟩ := Option.map_eq_some_iff.mp h
    split at h
    · rename_i old buffer htake
      exact h ▸ .drop hq htake
    · rename_i htake
      exact h ▸ .drained hq htake
  | again q e =>
    obtain ⟨queue, hq, h⟩ := Option.map_eq_some_iff.mp h
    split at h
    · rename_i buffer hput
      exact h ▸ .store _ (.inr rfl) hq hput
    · rename_i hput
      exact h ▸ .refuse hq hput
  | ended => cases h

/-- What a generator leaves of a queue: it may have taken an event. -/
structure Left (old queue : Queue ε) : Prop where
  sent : queue.sent = old.sent
  put : queue.buffer.put = old.buffer.put
  room : queue.buffer.items.length ≤ old.buffer.items.length
  dropped : queue.buffer.takenBy none = old.buffer.takenBy none

/-- What a generator does to the queues: they are the ones that were there, and a new one. -/
structure Serves (s s' : Client ε) : Prop where
  dispatches : s'.dispatches = s.dispatches
  length : s.queues.length ≤ s'.queues.length
  queues : ∀ (q : ℕ) (queue : Queue ε), s'.queues[q]? = some queue →
    (∃ old, s.queues[q]? = some old ∧ Left old queue) ∨ q = s.queues.length ∧ queue = {}

theorem Left.refl (queue : Queue ε) : Left queue queue := ⟨rfl, rfl, Nat.le_refl _, rfl⟩

theorem serves_of_go (h : s.goEvents j g = some s') : Serves s s' := by
  have hsame : ∀ g', Serves s (s.setGenerator j g') := fun g' =>
    ⟨rfl, Nat.le_refl _, fun q queue hq => .inl ⟨queue, hq, .refl queue⟩⟩
  cases g with
  | test => exact Option.some.inj h ▸ hsame _
  | create =>
    obtain rfl := Option.some.inj h
    refine ⟨rfl, by simp, fun q queue hq => ?_⟩
    rw [List.getElem?_append] at hq
    split at hq
    · exact .inl ⟨queue, hq, .refl queue⟩
    · refine .inr ⟨?_, List.mem_singleton.mp (List.mem_of_getElem? hq)⟩
      have := (List.getElem?_eq_some_iff.mp hq).1
      rw [List.length_singleton] at this
      omega
  | look =>
    obtain ⟨q, -, rfl⟩ := Option.map_eq_some_iff.mp h
    exact hsame _
  | getting q =>
    obtain ⟨queue, hq, h⟩ := Option.map_eq_some_iff.mp h
    split at h
    · rename_i e buffer htake
      obtain ⟨hitems, hput, -⟩ := BoundedQueue.take?_eq_some htake
      have hleft : Left queue { queue with buffer } :=
        ⟨rfl, hput, by simp [hitems], BoundedQueue.takenBy_of_ne htake (by simp)⟩
      subst h
      refine ⟨rfl, Nat.le_of_eq List.length_set.symm, fun q' queue' hq' => .inl ?_⟩
      rcases List.getElem?_set_cases hq' with ⟨rfl, rfl⟩ | ⟨-, hq'⟩
      · exact ⟨queue, hq, hleft⟩
      · exact ⟨queue', hq', .refl queue'⟩
    · subst h
      exact ⟨rfl, Nat.le_refl _, fun q queue hq => .inl ⟨queue, hq, .refl queue⟩⟩
  | yielded q => exact Option.some.inj h ▸ hsame _
  | ended => cases h

/-- Where all the other entries have no image, the images of a list are that of the one entry. -/
theorem filterMap_set {α β : Type*} {f : α → Option β} {l : List α} {i : ℕ} (hi : i < l.length)
    (h : ∀ (j : ℕ) (x : α), j ≠ i → l[j]? = some x → f x = none) (y : α) :
    (l.set i y).filterMap f = (f y).toList := by
  induction l generalizing i with
  | nil => cases hi
  | cons x l ih =>
    cases i with
    | zero =>
      have hrest : l.filterMap f = [] := by
        rw [List.filterMap_eq_nil_iff]
        intro z hz
        obtain ⟨j, hj⟩ := List.mem_iff_getElem?.mp hz
        exact h (j + 1) z (Nat.succ_ne_zero j) hj
      rw [List.set_cons_zero, List.filterMap_cons, hrest]
      cases f y <;> rfl
    | succ i =>
      have hx : f x = none := h 0 x (Nat.succ_ne_zero i).symm rfl
      rw [List.set_cons_succ, List.filterMap_cons, hx]
      refine ih (Nat.lt_of_succ_lt_succ hi) fun j z hj hz => ?_
      exact h (j + 1) z (fun he => hj (Nat.succ.inj he)) hz

/-- The events for queue `q` that a dispatch has in its hands. -/
def heldFor (q : ℕ) (s : Client ε) : List ε := s.dispatches.filterMap (Dispatch.holds q)

/-- One dispatch is under way, and what was dispatched to a queue is what was put into it and what
that dispatch has in its hands; before its second put there is room. -/
structure Accounted (s : Client ε) : Prop where
  one : ∀ (i j : ℕ) (d d' : Dispatch ε), s.dispatches[i]? = some d → s.dispatches[j]? = some d' →
    d.isEnded = false → d'.isEnded = false → i = j
  index : ∀ d ∈ s.dispatches, ∀ q e, d.holds q = some e → q < s.queues.length
  sent : ∀ (q : ℕ) (queue : Queue ε), s.queues[q]? = some queue →
    queue.sent = queue.buffer.put ++ heldFor q s
  room : ∀ q e queue, .again q e ∈ s.dispatches → s.queues[q]? = some queue →
    queue.buffer.items.length < maxSize

theorem accounted_init : Accounted (system ε).init where
  one _ _ _ _ h := by cases h
  index _ h := by cases h
  sent _ _ h := by cases h
  room _ _ _ h := by cases h

theorem Accounted.dispatch {e : ε} (hs : Accounted s)
    (hsole : s.dispatches.all Dispatch.isEnded = true) :
    Accounted { s with dispatches := s.dispatches ++ [.look e] } := by
  have hended : ∀ d ∈ s.dispatches, d.isEnded = true := List.all_eq_true.mp hsole
  have hlast : ∀ (i : ℕ) (d : Dispatch ε), (s.dispatches ++ [.look e])[i]? = some d →
      d.isEnded = false → i = s.dispatches.length := by
    intro i d hi hd
    rw [List.getElem?_append] at hi
    split at hi
    · rw [hended d (List.mem_of_getElem? hi)] at hd
      cases hd
    · have := (List.getElem?_eq_some_iff.mp hi).1
      rw [List.length_singleton] at this
      omega
  refine ⟨fun i j d d' hi hj hd hd' => ?_, fun d hd => ?_, fun q queue hq => ?_,
    fun q e' queue hagain hq => ?_⟩
  · exact (hlast i d hi hd).trans (hlast j d' hj hd').symm
  · rcases List.mem_append.mp hd with hd | hd
    · exact hs.index d hd
    · rw [List.mem_singleton.mp hd]
      exact nofun
  · rw [hs.sent q queue hq, heldFor, heldFor, List.filterMap_append]
    exact congrArg (_ ++ ·) (List.append_nil _).symm
  · rcases List.mem_append.mp hagain with h | h
    · exact hs.room q e' queue h hq
    · cases List.mem_singleton.mp h

/-- What a dispatch leaves to the others: it is the only one, so its own entry decides. -/
theorem heldFor_setDispatch (hs : Accounted s) (hd : s.dispatches[i]? = some d)
    (hne : d.isEnded = false) (d' : Dispatch ε) (q : ℕ) :
    (s.dispatches.set i d').filterMap (Dispatch.holds q) = (d'.holds q).toList := by
  refine filterMap_set (List.getElem?_eq_some_iff.mp hd).1 (fun j x hj hx => ?_) d'
  cases hx' : x.isEnded with
  | true => cases x <;> first | rfl | cases hx'
  | false => exact absurd (hs.one j i x d hx hd hx' hne) hj

theorem heldFor_eq (hs : Accounted s) (hd : s.dispatches[i]? = some d) (hne : d.isEnded = false)
    (q : ℕ) : heldFor q s = (d.holds q).toList := by
  obtain ⟨hlt, rfl⟩ := List.getElem?_eq_some_iff.mp hd
  rw [heldFor, ← heldFor_setDispatch hs hd hne _ q, List.set_getElem_self]

theorem Accounted.length_heldFor (hs : Accounted s) (q : ℕ) : (heldFor q s).length ≤ 1 := by
  cases hheld : heldFor q s with
  | nil => exact Nat.zero_le _
  | cons e rest =>
    have hmem : e ∈ heldFor q s := by
      rw [hheld]
      exact List.mem_cons_self
    obtain ⟨d, hd, hholds⟩ := List.mem_filterMap.mp hmem
    obtain ⟨i, hi⟩ := List.mem_iff_getElem?.mp hd
    have hne : d.isEnded = false := by
      cases d with
      | ended => cases hholds
      | look | put | make | again => rfl
    rw [← hheld, heldFor_eq hs hi hne q, hholds]
    exact Nat.le_refl 1

/-- The account after a move of a dispatch, from what the move has done to the queues. -/
theorem Accounted.of_set {d' : Dispatch ε} (hs : Accounted s) (hd : s.dispatches[i]? = some d)
    (hne : d.isEnded = false) (hdispatches : s'.dispatches = s.dispatches.set i d')
    (hlength : s'.queues.length = s.queues.length)
    (hindex : ∀ q e, d'.holds q = some e → q < s.queues.length)
    (hsent : ∀ (q : ℕ) (queue : Queue ε), s'.queues[q]? = some queue →
      queue.sent = queue.buffer.put ++ (d'.holds q).toList)
    (hroom : ∀ q e queue, d' = .again q e → s'.queues[q]? = some queue →
      queue.buffer.items.length < maxSize) : Accounted s' := by
  have hlt : i < s.dispatches.length := (List.getElem?_eq_some_iff.mp hd).1
  -- the others have come to their end
  have hothers : ∀ (j : ℕ) (x : Dispatch ε), j ≠ i → s.dispatches[j]? = some x →
      x.isEnded = true := by
    intro j x hj hx
    cases hx' : x.isEnded with
    | true => rfl
    | false => exact absurd (hs.one j i x d hx hd hx' hne) hj
  refine ⟨fun j k x y hj hk hx hy => ?_, fun x hx q e hheld => ?_, fun q queue hq => ?_,
    fun q e queue hagain hq => ?_⟩
  · rw [hdispatches] at hj hk
    have only : ∀ (l : ℕ) (z : Dispatch ε), (s.dispatches.set i d')[l]? = some z →
        z.isEnded = false → l = i := by
      intro l z hl hz
      rcases List.getElem?_set_cases hl with ⟨rfl, -⟩ | ⟨hil, hl⟩
      · rfl
      · rw [hothers l z hil.symm hl] at hz
        cases hz
    exact (only j x hj hx).trans (only k y hk hy).symm
  · rw [hdispatches] at hx
    rw [hlength]
    rcases List.mem_or_eq_of_mem_set hx with hx | rfl
    · exact hs.index x hx q e hheld
    · exact hindex q e hheld
  · rw [heldFor, hdispatches, heldFor_setDispatch hs hd hne]
    exact hsent q queue hq
  · rw [hdispatches] at hagain
    obtain ⟨j, hj⟩ := List.mem_iff_getElem?.mp hagain
    rcases List.getElem?_set_cases hj with ⟨-, h⟩ | ⟨hij, hj⟩
    · exact hroom q e queue h.symm hq
    · have := hothers j _ hij.symm hj
      cases this

theorem holds_self {e : ε} : Dispatch.holds q (.put q e) = some e ∧
    Dispatch.holds q (.make q e) = some e ∧ Dispatch.holds q (.again q e) = some e :=
  ⟨if_pos rfl, if_pos rfl, if_pos rfl⟩

theorem Accounted.dispatches (hs : Accounted s) (hd : s.dispatches[i]? = some d)
    (h : Dispatches s i d s') : Accounted s' := by
  have hheld : d.isEnded = false → ∀ (q : ℕ) (queue : Queue ε), s.queues[q]? = some queue →
      queue.sent = queue.buffer.put ++ (d.holds q).toList := by
    intro hne q queue hq
    rw [hs.sent q queue hq, heldFor_eq hs hd hne]
  have hindex : ∀ q e, d.holds q = some e → q < s.queues.length :=
    hs.index d (List.mem_of_getElem? hd)
  cases h with
  | miss => exact hs.of_set hd rfl rfl rfl nofun (hheld rfl) nofun
  | @enter e q queue hq =>
    refine hs.of_set hd rfl rfl List.length_set (fun q' e' h => ?_) (fun q' queue' hq' => ?_) nofun
    · rw [Dispatch.holds] at h
      split at h
      · rename_i heq
        exact heq ▸ (List.getElem?_eq_some_iff.mp hq).1
      · cases h
    · rcases List.getElem?_set_cases hq' with ⟨rfl, rfl⟩ | ⟨hne, hq'⟩
      · have : queue.sent = queue.buffer.put ++ [] := hheld rfl q queue hq
        rw [List.append_nil] at this
        rw [holds_self.1, ← this]
        rfl
      · rw [Dispatch.holds, if_neg hne]
        exact hheld rfl q' queue' hq'
  | @store e q queue buffer _ hput_or hq hput =>
    obtain ⟨-, hbuffer, -⟩ := BoundedQueue.put?_eq_some hput
    have hne : d.isEnded = false := by rcases hput_or with rfl | rfl <;> rfl
    have hholds : ∀ q', d.holds q' = if q = q' then some e else none := by
      rcases hput_or with rfl | rfl <;> exact fun _ => rfl
    refine hs.of_set hd hne rfl List.length_set nofun (fun q' queue' hq' => ?_) nofun
    rcases List.getElem?_set_cases hq' with ⟨rfl, rfl⟩ | ⟨hqq, hq'⟩
    · have := hheld hne q queue hq
      rw [hholds, if_pos rfl] at this
      rw [hbuffer, this]
      exact (List.append_nil _).symm
    · have := hheld hne q' queue' hq'
      rw [hholds, if_neg hqq] at this
      exact this
  | full hq hput => exact hs.of_set hd rfl rfl rfl hindex (hheld rfl) nofun
  | @drop e old q queue buffer hq htake =>
    obtain ⟨hitems, hbuffer, -⟩ := BoundedQueue.take?_eq_some htake
    refine hs.of_set hd rfl rfl List.length_set hindex (fun q' queue' hq' => ?_)
      (fun q' e' queue' heq hq' => ?_)
    · rcases List.getElem?_set_cases hq' with ⟨rfl, rfl⟩ | ⟨-, hq'⟩
      · rw [hbuffer]
        exact hheld rfl q queue hq
      · exact hheld rfl q' queue' hq'
    · cases heq
      have := queue.buffer.bounded
      rw [hitems, List.length_cons] at this
      rcases List.getElem?_set_cases hq' with ⟨-, rfl⟩ | ⟨hne, -⟩
      · exact this
      · exact absurd rfl hne
  | @drained e q queue hq htake =>
    refine hs.of_set hd rfl rfl rfl hindex (hheld rfl) (fun q' e' queue' heq hq' => ?_)
    cases heq
    obtain rfl := Option.some.inj (hq.symm.trans hq')
    rw [BoundedQueue.take?_eq_none htake]
    exact (by decide : (0 : ℕ) < maxSize)
  | @refuse e q queue hq hput =>
    -- there is room for the second put
    have := hs.room q e queue (List.mem_of_getElem? hd) hq
    rw [BoundedQueue.put?_eq_none hput] at this
    exact absurd this (Nat.lt_irrefl _)

theorem Accounted.serves (hs : Accounted s) (h : Serves s s') : Accounted s' := by
  have hheld : ∀ q, heldFor q s' = heldFor q s := fun q => by
    rw [heldFor, heldFor, h.dispatches]
  refine ⟨h.dispatches ▸ hs.one, fun d hd q e hholds => ?_, fun q queue hq => ?_,
    fun q e queue hagain hq => ?_⟩
  · exact Nat.lt_of_lt_of_le (hs.index d (h.dispatches ▸ hd) q e hholds) h.length
  · rw [hheld]
    rcases h.queues q queue hq with ⟨old, hold, hleft⟩ | ⟨rfl, rfl⟩
    · rw [hleft.sent, hleft.put]
      exact hs.sent q old hold
    · -- nothing has been dispatched to a new queue
      have hnone : heldFor s.queues.length s = [] := by
        rw [heldFor, List.filterMap_eq_nil_iff]
        intro d hd
        cases hholds : d.holds s.queues.length with
        | none => rfl
        | some e => exact absurd (hs.index d hd _ e hholds) (Nat.lt_irrefl _)
      rw [hnone]
      rfl
  · rcases h.queues q queue hq with ⟨old, hold, hleft⟩ | ⟨-, rfl⟩
    · exact Nat.lt_of_le_of_lt hleft.room (hs.room q e old (h.dispatches ▸ hagain) hold)
    · exact (by decide : (0 : ℕ) < maxSize)

theorem accounted_of_reachable
    (h : (system ε).Reachable (fun s a => Sole s a = true) s) : Accounted s := by
  refine h.invariant accounted_init fun t a t' hs hok hst => ?_
  cases a with
  | dispatch e =>
    obtain rfl := Option.some.inj hst
    exact hs.dispatch hok
  | goDispatch i =>
    obtain ⟨d, hd, hgo⟩ := Option.bind_eq_some_iff.mp hst
    exact hs.dispatches hd (dispatches_of_go hgo)
  | events =>
    obtain rfl := Option.some.inj hst
    exact ⟨hs.one, hs.index, hs.sent, hs.room⟩
  | goEvents j =>
    obtain ⟨g, -, hgo⟩ := Option.bind_eq_some_iff.mp hst
    exact hs.serves (serves_of_go hgo)
  | stop j =>
    obtain rfl := Option.some.inj hst
    exact ⟨hs.one, hs.index, hs.sent, hs.room⟩

/-! ### What is dropped -/

/-- For each event that is dropped, ten thousand others have been dispatched and one more: a
dispatch that is about to drop one has found the queue full. -/
structure Spared (s : Client ε) : Prop where
  dropped : ∀ (q : ℕ) (queue : Queue ε), s.queues[q]? = some queue →
    queue.buffer.takenBy none = [] ∨
      (queue.buffer.takenBy none).length + maxSize ≤ queue.sent.length
  making : ∀ (q : ℕ) (e : ε) (queue : Queue ε), .make q e ∈ s.dispatches →
    s.queues[q]? = some queue →
      (queue.buffer.takenBy none).length + maxSize < queue.sent.length

theorem spared_init : Spared (system ε).init where
  dropped _ _ h := by cases h
  making _ _ _ h := by cases h

/-- A move that drops nothing, and after which no other dispatch is about to drop one. -/
theorem Spared.of_kept (hs : Spared s) (hindex : ∀ q e, .make q e ∈ s.dispatches →
      q < s.queues.length)
    (hqueues : ∀ (q : ℕ) (queue : Queue ε), s'.queues[q]? = some queue →
      (∃ old, s.queues[q]? = some old ∧ queue.buffer.takenBy none = old.buffer.takenBy none ∧
        old.sent.length ≤ queue.sent.length) ∨ q = s.queues.length ∧ queue = {})
    (hmaking : ∀ q e, .make q e ∈ s'.dispatches → .make q e ∈ s.dispatches) : Spared s' := by
  constructor
  · intro q queue hq
    rcases hqueues q queue hq with ⟨old, hold, hdropped, hsent⟩ | ⟨-, rfl⟩
    · rw [hdropped]
      exact (hs.dropped q old hold).imp_right fun h => Nat.le_trans h hsent
    · exact .inl rfl
  · intro q e queue hmake hq
    have hmake' := hmaking q e hmake
    rcases hqueues q queue hq with ⟨old, hold, hdropped, hsent⟩ | ⟨rfl, -⟩
    · rw [hdropped]
      exact Nat.lt_of_lt_of_le (hs.making q e old hmake' hold) hsent
    · exact absurd (hindex _ e hmake') (Nat.lt_irrefl _)

/-- A dispatch that is set to something else is not about to drop an event. -/
theorem making_of_set {d' : Dispatch ε} (hd : ∀ q e, d' ≠ .make q e) {q : ℕ} {e : ε}
    (h : .make q e ∈ s.dispatches.set i d') : .make q e ∈ s.dispatches := by
  rcases List.mem_or_eq_of_mem_set h with h | h
  · exact h
  · exact absurd h.symm (hd q e)

theorem Spared.dispatches (hs : Spared s) (ha : Accounted s) (hd : s.dispatches[i]? = some d)
    (h : Dispatches s i d s') : Spared s' := by
  have hindex : ∀ q e, .make q e ∈ s.dispatches → q < s.queues.length :=
    fun q e hmake => ha.index _ hmake q e holds_self.2.1
  have hsame : ∀ (q : ℕ) (queue : Queue ε), s.queues[q]? = some queue → ∃ old,
      s.queues[q]? = some old ∧ queue.buffer.takenBy none = old.buffer.takenBy none ∧
        old.sent.length ≤ queue.sent.length :=
    fun q queue hq => ⟨queue, hq, rfl, Nat.le_refl _⟩
  cases h with
  | miss | drained | refuse =>
    exact hs.of_kept hindex (fun q queue hq => .inl (hsame q queue hq))
      fun q e => making_of_set (by simp)
  | @enter e q queue hq =>
    refine hs.of_kept hindex (fun q' queue' hq' => .inl ?_) fun q e => making_of_set (by simp)
    rcases List.getElem?_set_cases hq' with ⟨rfl, rfl⟩ | ⟨-, hq'⟩
    · exact ⟨queue, hq, rfl, by simp⟩
    · exact hsame q' queue' hq'
  | @store e q queue buffer _ _ hq hput =>
    refine hs.of_kept hindex (fun q' queue' hq' => .inl ?_) fun q e => making_of_set (by simp)
    rcases List.getElem?_set_cases hq' with ⟨rfl, rfl⟩ | ⟨-, hq'⟩
    · exact ⟨queue, hq, BoundedQueue.takenBy_of_put? hput, Nat.le_refl _⟩
    · exact hsame q' queue' hq'
  | @full e q queue hq hput =>
    refine ⟨hs.dropped, fun q' e' queue' hmake hq' => ?_⟩
    rcases List.mem_or_eq_of_mem_set hmake with hmake | heq
    · exact hs.making q' e' queue' hmake hq'
    · -- all that has been put in, and the event in hand
      cases heq
      obtain rfl := Option.some.inj (hq.symm.trans hq')
      have hsent := congrArg List.length (ha.sent q queue hq)
      rw [heldFor_eq ha hd rfl, holds_self.1, Option.toList_some, List.length_append,
        List.length_singleton] at hsent
      have hfull := BoundedQueue.put?_eq_none hput
      have := queue.buffer.length_takenBy_le none
      omega
  | @drop e old q queue buffer hq htake =>
    have hmake := hs.making q e queue (List.mem_of_getElem? hd) hq
    have hdropped := BoundedQueue.takenBy_self htake
    -- the dispatch that drops an event is the only one
    have hnone : ∀ q' e', .make q' e' ∉ s.dispatches.set i (.again q e) := by
      intro q' e' hmem
      obtain ⟨j, hj⟩ := List.mem_iff_getElem?.mp hmem
      rcases List.getElem?_set_cases hj with ⟨-, heq⟩ | ⟨hne, hj⟩
      · cases heq
      · exact hne (ha.one i j _ _ hd hj rfl rfl)
    refine ⟨fun q' queue' hq' => ?_, fun q' e' _ hmem => absurd hmem (hnone q' e')⟩
    rcases List.getElem?_set_cases hq' with ⟨rfl, rfl⟩ | ⟨-, hq'⟩
    · refine .inr ?_
      change (buffer.takenBy none).length + maxSize ≤ queue.sent.length
      rw [hdropped, List.length_append, List.length_singleton]
      omega
    · exact hs.dropped q' queue' hq'

theorem Spared.serves (hs : Spared s) (ha : Accounted s) (h : Serves s s') : Spared s' := by
  refine hs.of_kept (fun q e hmake => ha.index _ hmake q e holds_self.2.1)
    (fun q queue hq => ?_) fun q e hmake => h.dispatches ▸ hmake
  rcases h.queues q queue hq with ⟨old, hold, hleft⟩ | hnew
  · exact .inl ⟨old, hold, hleft.dropped, hleft.sent ▸ Nat.le_refl _⟩
  · exact .inr hnew

theorem spared_of_reachable
    (h : (system ε).Reachable (fun s a => Sole s a = true) s) : Spared s := by
  refine h.invariant_of (I := Accounted) (fun _ => accounted_of_reachable) spared_init ?_
  intro t a t' ha hs _ hst
  cases a with
  | dispatch e =>
    obtain rfl := Option.some.inj hst
    refine ⟨hs.dropped, fun q e' queue hmake hq => ?_⟩
    rcases List.mem_append.mp hmake with hmake | hmake
    · exact hs.making q e' queue hmake hq
    · cases List.mem_singleton.mp hmake
  | goDispatch i =>
    obtain ⟨d, hd, hgo⟩ := Option.bind_eq_some_iff.mp hst
    exact hs.dispatches ha hd (dispatches_of_go hgo)
  | events =>
    obtain rfl := Option.some.inj hst
    exact ⟨hs.dropped, hs.making⟩
  | goEvents j =>
    obtain ⟨g, -, hgo⟩ := Option.bind_eq_some_iff.mp hst
    exact hs.serves ha (serves_of_go hgo)
  | stop j =>
    obtain rfl := Option.some.inj hst
    exact ⟨hs.dropped, hs.making⟩

/-- While one thread dispatches, and any number of generators take events: what has been dispatched
to a queue is, in this order, what has been taken out of it, what waits in it, at most ten thousand
events, and the event that is being dispatched.  Each generator has had events in this order, and
no more are dropped than have been dispatched beyond ten thousand. -/
theorem delivered_in_order (h : (system ε).Reachable (fun s a => Sole s a = true) s) :
    ∀ (q : ℕ) (queue : Queue ε), s.queues[q]? = some queue →
      queue.sent = queue.buffer.taken.map Prod.snd ++ queue.buffer.items ++ heldFor q s ∧
        queue.buffer.items.length ≤ maxSize ∧ (heldFor q s).length ≤ 1 ∧
        (∀ j, (queue.buffer.takenBy (some j)).Sublist queue.sent) ∧
        (queue.buffer.takenBy none).length ≤ queue.sent.length - maxSize := by
  have hs := accounted_of_reachable h
  intro q queue hq
  have hsent := hs.sent q queue hq
  refine ⟨?_, queue.buffer.bounded, hs.length_heldFor q, fun j => ?_, ?_⟩
  · rw [hsent, queue.buffer.conserves]
  · rw [hsent]
    exact (queue.buffer.takenBy_sublist (some j)).trans (List.sublist_append_left _ _)
  · rcases (spared_of_reachable h).dropped q queue hq with hnone | hdropped
    · rw [hnone]
      exact Nat.zero_le _
    · omega

/-- A generator begins and takes the first of two events; a third one is being dispatched. -/
theorem delivered_in_order_sample : ∃ (s : Client ℕ) (queue : Queue ℕ), s.queues[0]? = some queue ∧
    queue.sent = [1, 2, 3] ∧ queue.buffer.takenBy (some 0) = [1] ∧ heldFor 0 s = [3] ∧
    (queue.buffer.takenBy none).length ≤ queue.sent.length - maxSize := by
  have hrun : ((system ℕ).runIf (fun s a => Sole s a = true) (system ℕ).init
      [.events, .goEvents 0, .goEvents 0, .goEvents 0, .dispatch 1, .goDispatch 0, .goDispatch 0,
        .goEvents 0, .dispatch 2, .goDispatch 1, .goDispatch 1, .dispatch 3, .goDispatch 2]).any
      (fun s => heldFor 0 s = [3] && s.queues[0]?.any fun queue =>
        queue.sent = [1, 2, 3] && queue.buffer.takenBy (some 0) = [1]) = true := by decide
  obtain ⟨s, hs, hp⟩ := System.exists_of_runIf hrun
  simp only [Bool.and_eq_true, decide_eq_true_eq, Option.any_eq_true] at hp
  obtain ⟨hheld, queue, hq, hsent, htaken⟩ := hp
  exact ⟨s, queue, hq, hsent, htaken, hheld, (delivered_in_order hs 0 queue hq).2.2.2.2⟩

end SpooledSdk.Realtime.EventQueue
