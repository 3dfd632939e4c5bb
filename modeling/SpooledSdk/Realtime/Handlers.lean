/-
The handlers of the realtime clients.

An emission calls the handlers of one event type and then those of all events, and each of them may
register and remove handlers, as may any other thread.  `SSEClient` and `AsyncSSEClient` copy both
lists under a lock and go over the copies; the other clients go over the lists themselves.

* `told_of_reachable` — what an emission has called, of what it has found;
* `emission_calls` — an emission that has come to its end has called all that it has found, but for
  as many as were removed among those that it had called.
-/
import SpooledSdk.Dict
import SpooledSdk.LiveList
import SpooledSdk.Registry
import SpooledSdk.System

namespace SpooledSdk.Realtime.Handlers

/-- Where an emission is: in the loop over the handlers of its type, which is one over a list of the
client if that has a list for the type; in the loop over those of all events; in a loop over
copies. -/
inductive Stage (η : Type*)
  | specific (listed : Bool)
  | generic
  | copied (todo : List η)
  | finished
  | raised
  deriving DecidableEq, Repr

/-- `found` and `removed` are what an observer notes: the handlers that were registered when the
copies were taken or a loop was over, and how many had been removed behind a loop. -/
structure Emission (κ η : Type*) where
  type : κ
  stage : Stage η
  called : List η := []
  found : List η := []
  removed : ℕ := 0
  deriving DecidableEq, Repr

/-- What an observer notes when loop `i` is over. -/
def Emission.leave {κ η : Type*} (e : Emission κ η) (l : LiveList η) (i : ℕ) : Emission κ η :=
  { e with
    found := e.found ++ l.items
    removed := e.removed + ((l.loops i).elim 0 Cursor.removed) }

structure Client (κ η : Type*) where
  eventHandlers : Dict κ (LiveList η) := .empty
  allEventsHandlers : LiveList η := .empty
  emissions : List (Emission κ η) := []

/-- A handler is registered or removed; an event is emitted; an emission goes on; the handler that
it has called raises what is no `Exception`. -/
inductive Action (κ η : Type*)
  | on (type : κ) (handler : η)
  | off (type : κ) (handler : η)
  | onEvent (handler : η)
  | offEvent (handler : η)
  | emit (type : κ)
  | go (i : ℕ)
  | raise (i : ℕ)

variable {κ η : Type*} [DecidableEq κ]

namespace Client

variable (s : Client κ η)

def setEmission (i : ℕ) (e : Emission κ η) : Client κ η :=
  { s with emissions := s.emissions.set i e }

/-- `_emit_event` begins. -/
def emit (copies : Bool) (type : κ) : Client κ η :=
  let handlers := s.eventHandlers.get? type
  if copies then
    let copied := (handlers.elim [] LiveList.items) ++ s.allEventsHandlers.items
    { s with emissions := s.emissions ++ [{ type, stage := .copied copied, found := copied }] }
  else
    { s with
      eventHandlers := handlers.elim s.eventHandlers fun l =>
        s.eventHandlers.insert type (l.enter s.emissions.length)
      emissions := s.emissions ++ [{ type, stage := .specific handlers.isSome }] }

/-- The loop over the handlers of all events begins. -/
def enterAll (i : ℕ) (e : Emission κ η) : Client κ η :=
  { s with
    allEventsHandlers := s.allEventsHandlers.enter i
    emissions := s.emissions.set i { e with stage := .generic } }

/-- The next step of emission `i`. -/
def go (i : ℕ) (e : Emission κ η) : Stage η → Option (Client κ η)
  | .specific false => some (s.enterAll i e)
  | .specific true =>
    (s.eventHandlers.get? e.type).map fun l =>
      match l.advance? i with
      | some (handler, l') =>
        { s with
          eventHandlers := s.eventHandlers.insert e.type l'
          emissions := s.emissions.set i { e with called := e.called ++ [handler] } }
      | none => s.enterAll i (e.leave l i)
  | .generic =>
    match s.allEventsHandlers.advance? i with
    | some (handler, l') =>
      some { s with
        allEventsHandlers := l'
        emissions := s.emissions.set i { e with called := e.called ++ [handler] } }
    | none => some (s.setEmission i { e.leave s.allEventsHandlers i with stage := .finished })
  | .copied (handler :: todo) =>
    some (s.setEmission i { e with called := e.called ++ [handler], stage := .copied todo })
  | .copied [] => some (s.setEmission i { e with stage := .finished })
  | .finished | .raised => none

def step [DecidableEq η] (copies : Bool) : Action κ η → Option (Client κ η)
  | .on type handler =>
    let handlers := (s.eventHandlers.get? type).getD .empty
    some { s with eventHandlers := s.eventHandlers.insert type (handlers.append handler) }
  | .off type handler =>
    some { s with
      eventHandlers := (s.eventHandlers.get? type).elim s.eventHandlers fun l =>
        s.eventHandlers.insert type (l.remove handler) }
  | .onEvent handler =>
    some { s with allEventsHandlers := s.allEventsHandlers.append handler }
  | .offEvent handler =>
    some { s with allEventsHandlers := s.allEventsHandlers.remove handler }
  | .emit type => some (s.emit copies type)
  | .go i => s.emissions[i]?.bind fun e => s.go i e e.stage
  | .raise i =>
    s.emissions[i]?.bind fun e =>
      match e.stage with
      | .finished | .raised => none
      | .specific _ | .generic | .copied _ => some (s.setEmission i { e with stage := .raised })

end Client

/-- The emissions of a client, which goes over copies or over the lists themselves. -/
def system (κ η : Type*) [DecidableEq κ] [DecidableEq η] (copies : Bool) :
    System (Client κ η) (Action κ η) where
  init := {}
  step s := s.step copies

/-! ### What an emission has called -/

/-- What has been called, of what has been found: all of it in this order, but for as many as were
removed behind the loop; all of it if none was. -/
structure Settled (called found : List η) (removed : ℕ) : Prop where
  order : ∃ passed : List (η × Bool), found.Sublist (passed.map Prod.fst) ∧
    (passed.filter Prod.snd).map Prod.fst = called ∧ (passed.countP fun p => !p.2) ≤ removed
  exact : removed = 0 → called = found

variable {s s' : Client κ η} {i j : ℕ} {e : Emission κ η} {copies : Bool}

omit [DecidableEq κ] in
/-- All that was found has been called. -/
theorem settled_self (called : List η) : Settled called called 0 := by
  refine ⟨⟨called.map fun h => (h, true), ?_, ?_, ?_⟩, fun _ => rfl⟩
  · rw [List.map_map]
    exact (List.map_id called).symm ▸ List.Sublist.refl _
  · induction called with
    | nil => rfl
    | cons h called ih => exact congrArg (h :: ·) ih
  · rw [List.countP_map]
    exact Nat.le_of_eq (List.countP_eq_zero.mpr fun _ _ => by simp)

/-- A loop that is over settles what it has called. -/
theorem Settled.loop {called found : List η} {removed : ℕ} {l : LiveList η} {c : Cursor η}
    (h : Settled called found removed) (hc : l.loops i = some c) (hover : l.advance? i = none) :
    Settled (called ++ c.visited) (found ++ l.items) (removed + c.removed) := by
  have hsound := l.sound i c hc
  have hall : l.items.take c.next = l.items :=
    List.take_of_length_le (LiveList.advance_eq_none hover hc)
  obtain ⟨passed, hsub, hcalled, hmissed⟩ := h.order
  refine ⟨⟨passed ++ c.passed, ?_, ?_, ?_⟩, fun hzero => ?_⟩
  · rw [List.map_append]
    exact hsub.append (hall ▸ hsound.behind)
  · rw [List.filter_append, List.map_append, hcalled]
    rfl
  · have hmisses : (c.passed.countP fun p => !p.2) + (c.next - l.items.length) = c.removed :=
      hsound.misses
    rw [List.countP_append]
    omega
  · rw [h.exact (by omega), hsound.visited_eq (by omega), hall]

/-- What is known of emission `i`. -/
def Told (s : Client κ η) (i : ℕ) (e : Emission κ η) : Prop :=
  match e.stage with
  | .specific false => e.called = [] ∧ e.found = [] ∧ e.removed = 0
  | .specific true => e.found = [] ∧ e.removed = 0 ∧ ∃ l c,
      s.eventHandlers.get? e.type = some l ∧ l.loops i = some c ∧ e.called = c.visited
  | .generic => ∃ (before : List η) (c : Cursor η), s.allEventsHandlers.loops i = some c ∧
      e.called = before ++ c.visited ∧ Settled before e.found e.removed
  | .copied todo => e.called ++ todo = e.found ∧ e.removed = 0
  | .finished => Settled e.called e.found e.removed
  | .raised => True

/-- What the others do leaves the loops of emission `i` alone. -/
structure Leaves (i : ℕ) (s s' : Client κ η) : Prop where
  specific : ∀ t l, s.eventHandlers.get? t = some l →
    ∃ l', s'.eventHandlers.get? t = some l' ∧ LiveList.Keeps i l l'
  generic : LiveList.Keeps i s.allEventsHandlers s'.allEventsHandlers

theorem Told.of_leaves (h : Told s i e) (hl : Leaves i s s') : Told s' i e := by
  rw [Told] at h ⊢
  split at h
  · exact h
  · obtain ⟨hfound, hremoved, l, c, hget, hc, hcalled⟩ := h
    obtain ⟨l', hget', hkeeps⟩ := hl.specific _ l hget
    obtain ⟨c', hc', hvisited⟩ := hkeeps c hc
    exact ⟨hfound, hremoved, l', c', hget', hc', hcalled.trans hvisited.symm⟩
  · obtain ⟨before, c, hc, hcalled, hsettled⟩ := h
    obtain ⟨c', hc', hvisited⟩ := hl.generic c hc
    exact ⟨before, c', hc', hvisited ▸ hcalled, hsettled⟩
  · exact h
  · exact h
  · trivial

/-- The list of one type is replaced by one that keeps the loop. -/
theorem keeps_insert {t : κ} {l : LiveList η} (h : ∀ l₀, s.eventHandlers.get? t = some l₀ →
    LiveList.Keeps i l₀ l) : ∀ t' l', s.eventHandlers.get? t' = some l' →
      ∃ l'', (s.eventHandlers.insert t l).get? t' = some l'' ∧ LiveList.Keeps i l' l'' := by
  intro t' l' hget
  rw [Dict.get?_insert]
  split
  · rename_i heq
    exact ⟨l, rfl, h l' (heq ▸ hget)⟩
  · exact ⟨l', hget, .refl i l'⟩

theorem keeps_same : ∀ t l, s.eventHandlers.get? t = some l →
    ∃ l', s.eventHandlers.get? t = some l' ∧ LiveList.Keeps i l l' :=
  fun _ l hget => ⟨l, hget, .refl i l⟩

/-- What is known of every emission. -/
def AllTold (s : Client κ η) : Prop := ∀ i e, s.emissions[i]? = some e → Told s i e

/-- Where the emissions stay as they are. -/
theorem AllTold.of_same (hs : AllTold s) (hemissions : s'.emissions = s.emissions)
    (h : ∀ i, Leaves i s s') : AllTold s' :=
  fun i e hi => (hs i e (hemissions ▸ hi)).of_leaves (h i)

/-- Where emission `i` goes on. -/
theorem AllTold.of_set {e' : Emission κ η} (hs : AllTold s)
    (hemissions : s'.emissions = s.emissions.set i e') (htold : Told s' i e')
    (h : ∀ j, j ≠ i → Leaves j s s') : AllTold s' := by
  intro j e hj
  rw [hemissions] at hj
  rcases List.getElem?_set_cases hj with ⟨rfl, rfl⟩ | ⟨hne, hj⟩
  · exact htold
  · exact (hs j e hj).of_leaves (h j hne.symm)

/-- Where a new emission begins. -/
theorem AllTold.of_append {e' : Emission κ η} (hs : AllTold s)
    (hemissions : s'.emissions = s.emissions ++ [e']) (htold : Told s' s.emissions.length e')
    (h : ∀ j, j ≠ s.emissions.length → Leaves j s s') : AllTold s' := by
  intro j e hj
  rw [hemissions, List.getElem?_append] at hj
  split at hj
  · rename_i hlt
    exact (hs j e hj).of_leaves (h j (Nat.ne_of_lt hlt))
  · have hlt := (List.getElem?_eq_some_iff.mp hj).1
    rw [List.length_singleton] at hlt
    obtain rfl : j = s.emissions.length := by omega
    rw [Nat.sub_self] at hj
    exact Option.some.inj hj ▸ htold

/-- A step of emission `i` leaves the loops of the others alone. -/
theorem AllTold.go (hs : AllTold s) (hi : s.emissions[i]? = some e)
    (h : s.go i e e.stage = some s') : AllTold s' := by
  have htold := hs i e hi
  obtain ⟨type, stage, called, found, removed⟩ := e
  cases stage with
  | specific listed =>
    cases listed with
    | false =>
      obtain rfl := Option.some.inj h
      obtain ⟨hcalled, hfound, hremoved⟩ : called = [] ∧ found = [] ∧ removed = 0 := htold
      subst hcalled hfound hremoved
      refine hs.of_set rfl ?_ fun j hj => ⟨keeps_same, LiveList.keeps_enter hj⟩
      exact ⟨[], {}, LiveList.enter_loops, rfl, settled_self []⟩
    | true =>
      obtain ⟨hfound, hremoved, l, c, hget, hc, hcalled⟩ : found = [] ∧ removed = 0 ∧ ∃ l c,
        s.eventHandlers.get? type = some l ∧ l.loops i = some c ∧ called = c.visited := htold
      subst hfound hremoved hcalled
      obtain ⟨l₀, hl₀, h⟩ := Option.map_eq_some_iff.mp h
      obtain rfl := Option.some.inj (hget.symm.trans hl₀)
      split at h
      · rename_i handler l' hadvance
        subst h
        obtain ⟨c', hc', hvisited⟩ := LiveList.advance_eq_some hadvance hc
        refine hs.of_set rfl ?_ fun j hj => ⟨keeps_insert fun l₁ hl₁ => ?_, .refl j _⟩
        · refine ⟨rfl, rfl, l', c', ?_, hc', hvisited.symm⟩
          exact (Dict.get?_insert ..).trans (if_pos rfl)
        · obtain rfl := Option.some.inj (hget.symm.trans hl₁)
          exact LiveList.keeps_advance hadvance hj
      · rename_i hover
        subst h
        refine hs.of_set rfl ?_ fun j hj => ⟨keeps_same, LiveList.keeps_enter hj⟩
        have hsettled := (settled_self []).loop hc hover
        refine ⟨c.visited, {}, LiveList.enter_loops, (List.append_nil _).symm, ?_⟩
        rw [Emission.leave, hc]
        exact hsettled
  | generic =>
    obtain ⟨before, c, hc, hcalled, hsettled⟩ : ∃ (before : List η) (c : Cursor η),
      s.allEventsHandlers.loops i = some c ∧ called = before ++ c.visited ∧
        Settled before found removed := htold
    subst hcalled
    rw [Client.go] at h
    split at h
    · rename_i handler l' hadvance
      obtain rfl := Option.some.inj h
      obtain ⟨c', hc', hvisited⟩ := LiveList.advance_eq_some hadvance hc
      refine hs.of_set rfl ?_ fun j hj => ⟨keeps_same, LiveList.keeps_advance hadvance hj⟩
      refine ⟨before, c', hc', ?_, hsettled⟩
      rw [hvisited, ← List.append_assoc]
    · rename_i hover
      obtain rfl := Option.some.inj h
      refine hs.of_set rfl ?_ fun j _ => ⟨keeps_same, .refl j _⟩
      have hover' := hsettled.loop hc hover
      rw [Emission.leave, hc]
      exact hover'
  | copied todo =>
    obtain ⟨hfound, hremoved⟩ : called ++ todo = found ∧ removed = 0 := htold
    subst hfound hremoved
    cases todo with
    | nil =>
      obtain rfl := Option.some.inj h
      refine hs.of_set rfl ?_ fun j _ => ⟨keeps_same, .refl j _⟩
      rw [List.append_nil]
      exact settled_self called
    | cons handler todo =>
      obtain rfl := Option.some.inj h
      refine hs.of_set rfl ⟨?_, rfl⟩ fun j _ => ⟨keeps_same, .refl j _⟩
      rw [List.append_assoc]
      rfl
  | finished => cases h
  | raised => cases h

/-- An emission begins with nothing called. -/
theorem AllTold.emit (hs : AllTold s) (copies : Bool) (type : κ) :
    AllTold (s.emit copies type) := by
  cases copies with
  | true => exact hs.of_append rfl ⟨rfl, rfl⟩ fun j _ => ⟨keeps_same, .refl j _⟩
  | false =>
    rw [Client.emit]
    cases hget : s.eventHandlers.get? type with
    | none => exact hs.of_append rfl ⟨rfl, rfl, rfl⟩ fun j _ => ⟨keeps_same, .refl j _⟩
    | some l =>
      refine hs.of_append rfl ?_ fun j hj => ⟨keeps_insert fun l₀ hl₀ => ?_, .refl j _⟩
      · exact ⟨rfl, rfl, l.enter s.emissions.length, {},
          (Dict.get?_insert ..).trans (if_pos rfl), LiveList.enter_loops, rfl⟩
      · obtain rfl := Option.some.inj (hget.symm.trans hl₀)
        exact LiveList.keeps_enter hj

variable [DecidableEq η]

theorem allTold_init : AllTold (system κ η copies).init := fun _ _ h => by cases h

theorem allTold_step (hs : AllTold s) {a : Action κ η}
    (h : (system κ η copies).step s a = some s') : AllTold s' := by
  cases a with
  | on type handler =>
    obtain rfl := Option.some.inj h
    refine hs.of_same rfl fun i => ⟨keeps_insert fun l hl => ?_, .refl i _⟩
    rw [hl]
    exact LiveList.keeps_append
  | off type handler =>
    obtain rfl := Option.some.inj h
    refine hs.of_same rfl fun i => ⟨?_, .refl i _⟩
    cases hget : s.eventHandlers.get? type with
    | none => exact keeps_same
    | some l =>
      refine keeps_insert fun l₀ hl₀ => ?_
      obtain rfl := Option.some.inj (hget.symm.trans hl₀)
      exact LiveList.keeps_remove
  | onEvent handler =>
    obtain rfl := Option.some.inj h
    exact hs.of_same rfl fun i => ⟨keeps_same, LiveList.keeps_append⟩
  | offEvent handler =>
    obtain rfl := Option.some.inj h
    exact hs.of_same rfl fun i => ⟨keeps_same, LiveList.keeps_remove⟩
  | emit type =>
    obtain rfl := Option.some.inj h
    exact hs.emit copies type
  | go i =>
    obtain ⟨e, hi, hgo⟩ := Option.bind_eq_some_iff.mp h
    exact hs.go hi hgo
  | raise i =>
    obtain ⟨e, hi, hraise⟩ := Option.bind_eq_some_iff.mp h
    split at hraise
    · cases hraise
    · cases hraise
    all_goals
      obtain rfl := Option.some.inj hraise
      exact hs.of_set rfl trivial fun j _ => ⟨keeps_same, .refl j _⟩

theorem told_of_reachable (h : (system κ η copies).Reachable System.always s) : AllTold s :=
  h.invariant allTold_init fun _ _ _ hs _ hst => allTold_step hs hst

/-- An emission over copies has called the first of the handlers that it copied. -/
def Copying (e : Emission κ η) : Prop :=
  match e.stage with
  | .specific _ | .generic => False
  | .copied todo => e.called ++ todo = e.found
  | .finished => e.called = e.found
  | .raised => True

omit [DecidableEq η] in
theorem copying_go (he : Copying e) (h : s.go i e e.stage = some s') :
    ∃ e', s'.emissions = s.emissions.set i e' ∧ Copying e' := by
  obtain ⟨type, stage, called, found, removed⟩ := e
  cases stage with
  | specific | generic => cases he
  | copied todo =>
    have hfound : called ++ todo = found := he
    cases todo with
    | nil =>
      obtain rfl := Option.some.inj h
      exact ⟨_, rfl, (List.append_nil called).symm.trans hfound⟩
    | cons handler todo =>
      obtain rfl := Option.some.inj h
      exact ⟨_, rfl, (List.append_assoc ..).trans hfound⟩
  | finished | raised => cases h

theorem copying_of_reachable (h : (system κ η true).Reachable System.always s) :
    ∀ e ∈ s.emissions, Copying e := by
  have hinit : ∀ e ∈ (system κ η true).init.emissions, Copying e := fun _ hmem => by cases hmem
  refine h.invariant (P := fun t => ∀ e ∈ t.emissions, Copying e) hinit fun t a t' ht _ hst => ?_
  cases a with
  | on | off | onEvent | offEvent =>
    obtain rfl := Option.some.inj hst
    exact ht
  | emit type =>
    obtain rfl := Option.some.inj hst
    intro e he
    rcases List.mem_append.mp he with he | he
    · exact ht e he
    · rw [List.mem_singleton.mp he]
      rfl
  | go i =>
    obtain ⟨e, hi, hgo⟩ := Option.bind_eq_some_iff.mp hst
    obtain ⟨e', hemissions, he'⟩ := copying_go (ht e (List.mem_of_getElem? hi)) hgo
    intro e'' he''
    rw [hemissions] at he''
    rcases List.mem_or_eq_of_mem_set he'' with hmem | rfl
    · exact ht e'' hmem
    · exact he'
  | raise i =>
    obtain ⟨e, hi, hraise⟩ := Option.bind_eq_some_iff.mp hst
    split at hraise
    · cases hraise
    · cases hraise
    all_goals
      obtain rfl := Option.some.inj hraise
      intro e'' he''
      rcases List.mem_or_eq_of_mem_set he'' with hmem | rfl
      · exact ht e'' hmem
      · trivial

/-- An emission that has come to its end has called the handlers that it found, in the order in
which they were registered, but for as many at most as were removed among those that it had passed;
where none was, these handlers and no others.  A client that takes copies has called what it
copied, whatever was registered and removed meanwhile. -/
theorem emission_calls (h : (system κ η copies).Reachable System.always s) (hi : e ∈ s.emissions)
    (hover : e.stage = .finished) :
    (∃ passed : List (η × Bool), e.found.Sublist (passed.map Prod.fst) ∧
      (passed.filter Prod.snd).map Prod.fst = e.called ∧
      (passed.countP fun p => !p.2) ≤ e.removed) ∧
    (copies = true ∨ e.removed = 0 → e.called = e.found) := by
  obtain ⟨i, hi'⟩ := List.mem_iff_getElem?.mp hi
  have htold := told_of_reachable h i e hi'
  rw [Told, hover] at htold
  refine ⟨htold.order, fun hexact => ?_⟩
  rcases hexact with rfl | hremoved
  · have hcopying := copying_of_reachable h e hi
    rw [Copying, hover] at hcopying
    exact hcopying
  · exact htold.exact hremoved

/-- A handler that removes itself: the one behind it is not called by a client that goes over the
list, and is by one that goes over a copy. -/
private def removesItself : List (Action ℕ ℕ) :=
  [.on 0 1, .on 0 2, .emit 0, .go 0, .off 0 1, .go 0, .go 0]

theorem emission_calls_sample : ∃ (s s' : Client ℕ ℕ) (e e' : Emission ℕ ℕ),
    s.emissions = [e] ∧ e.called = [1] ∧ e.found = [2] ∧ e.removed = 1 ∧
    (∃ passed : List (ℕ × Bool), e.found.Sublist (passed.map Prod.fst) ∧
      (passed.filter Prod.snd).map Prod.fst = e.called ∧
      (passed.countP fun p => !p.2) ≤ e.removed) ∧
    s'.emissions = [e'] ∧ e'.found = [1, 2] ∧ e'.called = e'.found := by
  have hrun : ((system ℕ ℕ false).run (system ℕ ℕ false).init removesItself).any
      (fun s => s.emissions = [⟨0, .finished, [1], [2], 1⟩]) = true := by decide
  have hrun' : ((system ℕ ℕ true).run (system ℕ ℕ true).init removesItself).any
      (fun s => s.emissions = [⟨0, .finished, [1, 2], [1, 2], 0⟩]) = true := by decide
  obtain ⟨s, hs, hp⟩ := System.exists_of_run hrun
  obtain ⟨s', hs', hp'⟩ := System.exists_of_run hrun'
  have he := of_decide_eq_true hp
  have he' := of_decide_eq_true hp'
  refine ⟨s, s', _, _, he, rfl, rfl, rfl, ?_, he', rfl, ?_⟩
  · exact (emission_calls hs (he ▸ List.mem_singleton_self _) rfl).1
  · exact (emission_calls hs' (he' ▸ List.mem_singleton_self _) rfl).2 (.inl rfl)

end SpooledSdk.Realtime.Handlers
