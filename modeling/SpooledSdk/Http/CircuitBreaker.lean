/-
The circuit breaker of `circuit_breaker.py`, under any interleaving of concurrent calls.

The clock is any linear order with a subtraction.  A `World` is a breaker with the calls
that asked it, in the order in which they asked, and what an observer has seen of it.

* `safe_of_reachable` — the counters stay below their thresholds, and an open circuit knows
  the time of its last recorded failure;
* `trace_law` — nothing is admitted before the timeout, and a circuit is only closed again by
  `success_threshold` recorded successes;
* `stale_success_closes` — the breaker does not ask when these calls were admitted.
-/
import SpooledSdk.System
import SpooledSdk.Fifo
import SpooledSdk.Errors
import Mathlib.Data.List.Nodup
import Mathlib.Algebra.Order.Group.Int

namespace SpooledSdk.Http

inductive CircuitState
  | closed
  | opened
  | halfOpen
  deriving DecidableEq, Repr

/-- `CircuitBreakerConfig`, with the bounds that its fields check. -/
structure CircuitBreakerConfig (τ : Type*) where
  enabled : Bool := true
  failureThreshold : ℕ := 5
  successThreshold : ℕ := 3
  timeout : τ
  one_le_failureThreshold : 1 ≤ failureThreshold
  one_le_successThreshold : 1 ≤ successThreshold

structure CircuitBreaker (τ : Type*) where
  state : CircuitState := .closed
  failureCount : ℕ := 0
  successCount : ℕ := 0
  lastFailureTime : Option τ := none
  deriving DecidableEq

namespace CircuitBreaker

variable {τ : Type*} [LinearOrder τ] [Sub τ]

/-- `_get_state_unlocked`: reading the state of an open circuit may half-open it. -/
def getStateUnlocked (cfg : CircuitBreakerConfig τ) (now : τ) (b : CircuitBreaker τ) :
    CircuitBreaker τ :=
  match b.state, b.lastFailureTime with
  | .opened, some t =>
    if cfg.timeout ≤ now - t then { b with state := .halfOpen, successCount := 0 } else b
  | _, _ => b

def isAllowed (cfg : CircuitBreakerConfig τ) (now : τ) (b : CircuitBreaker τ) :
    Bool × CircuitBreaker τ :=
  if cfg.enabled then
    ((b.getStateUnlocked cfg now).state ≠ .opened, b.getStateUnlocked cfg now)
  else (true, b)

omit [LinearOrder τ] [Sub τ] in
def recordSuccess (cfg : CircuitBreakerConfig τ) (b : CircuitBreaker τ) : CircuitBreaker τ :=
  if cfg.enabled then
    match b.state with
    | .halfOpen =>
      if cfg.successThreshold ≤ b.successCount + 1 then
        { b with state := .closed, failureCount := 0, successCount := 0 }
      else { b with successCount := b.successCount + 1 }
    | .closed => { b with failureCount := 0 }
    | .opened => b
  else b

/-- `record_failure`: a `SpooledError` that is not retryable is not a failure. -/
def recordFailure (cfg : CircuitBreakerConfig τ) (now : τ) (error : PyException)
    (b : CircuitBreaker τ) : CircuitBreaker τ :=
  if !cfg.enabled || error.isFinal then b
  else
    let b' := { b with failureCount := b.failureCount + 1, lastFailureTime := some now }
    match b.state with
    | .halfOpen => { b' with state := .opened }
    | .closed =>
      if cfg.failureThreshold ≤ b.failureCount + 1 then { b' with state := .opened } else b'
    | .opened => b'

def reset : CircuitBreaker τ := {}

end CircuitBreaker

/-! ### Concurrent calls -/

/-- A call that asked `is_allowed`: what it was told, how often the circuit had opened by
then, and whether it has recorded its outcome. -/
structure Call where
  admitted : Bool
  openings : ℕ
  recorded : Bool := false
  deriving DecidableEq

/-- A breaker and its callers.  `openings`, `trials` and `lastRecorded` are the observer's:
how often the circuit has opened, the calls whose successes were recorded since it was last
half-opened, and when the last failure was recorded. -/
structure World (τ : Type*) where
  breaker : CircuitBreaker τ := {}
  now : τ
  calls : List Call := []
  openings : ℕ := 0
  trials : List ℕ := []
  lastRecorded : Option τ := none
  deriving DecidableEq

inductive Action (τ : Type*)
  | tick (t : τ)
  | getState
  | isAllowed
  | recordSuccess (i : ℕ)
  | recordFailure (i : ℕ) (error : PyException)
  | reset

namespace World

variable {τ : Type*} [LinearOrder τ] [Sub τ]

omit [LinearOrder τ] [Sub τ] in
/-- The breaker changes to `b`. -/
def observe (w : World τ) (b : CircuitBreaker τ) : World τ :=
  { w with
    breaker := b
    openings :=
      if w.breaker.state ≠ .opened ∧ b.state = .opened then w.openings + 1 else w.openings
    trials := if w.breaker.state ≠ .halfOpen ∧ b.state = .halfOpen then [] else w.trials }

omit [LinearOrder τ] [Sub τ] in
/-- Call `i`, which was admitted and has not recorded anything yet, records its outcome. -/
def answer (w : World τ) (i : ℕ) : Option (World τ) :=
  match w.calls[i]? with
  | some c =>
    if c.admitted && !c.recorded then
      some { w with calls := w.calls.set i { c with recorded := true } }
    else none
  | none => none

def step (cfg : CircuitBreakerConfig τ) (w : World τ) : Action τ → Option (World τ)
  | .tick t => if w.now ≤ t then some { w with now := t } else none
  | .getState => some (w.observe (w.breaker.getStateUnlocked cfg w.now))
  | .isAllowed =>
    let (ok, b) := w.breaker.isAllowed cfg w.now
    some { w.observe b with calls := w.calls ++ [{ admitted := ok, openings := w.openings }] }
  | .recordSuccess i => (w.answer i).map fun w' =>
      { w'.observe (w.breaker.recordSuccess cfg) with
        trials := if w.breaker.state = .halfOpen then w.trials ++ [i] else w.trials }
  | .recordFailure i error => (w.answer i).map fun w' =>
      { w'.observe (w.breaker.recordFailure cfg w.now error) with
        lastRecorded :=
          if !cfg.enabled || error.isFinal then w.lastRecorded else some w.now }
  | .reset => some (w.observe .reset)

end World

variable {τ : Type*} [LinearOrder τ] [Sub τ]

/-- A breaker in its initial state, with the clock at `start`. -/
def system (cfg : CircuitBreakerConfig τ) (start : τ) : System (World τ) (Action τ) where
  init := { now := start }
  step := World.step cfg

section

variable {cfg : CircuitBreakerConfig τ} {start now : τ} {b : CircuitBreaker τ} {w w' : World τ}
  {a : Action τ} {ok : World τ → Action τ → Prop} {error : PyException} {i : ℕ}

/-! ### The counters -/

/-- What the counters of a breaker say about its state, with the last recorded failure. -/
structure CircuitBreaker.Safe (cfg : CircuitBreakerConfig τ) (last : Option τ)
    (b : CircuitBreaker τ) : Prop where
  closed : b.state = .closed → b.failureCount < cfg.failureThreshold
  halfOpen : b.state = .halfOpen → b.successCount < cfg.successThreshold
  opened : b.state = .opened → b.lastFailureTime ≠ none ∧ b.lastFailureTime = last
  enabled : b.state ≠ .closed → cfg.enabled = true

namespace CircuitBreaker

variable {last : Option τ}

omit [LinearOrder τ] [Sub τ] in
theorem Safe.init : (reset : CircuitBreaker τ).Safe cfg last where
  closed _ := cfg.one_le_failureThreshold
  halfOpen := nofun
  opened := nofun
  enabled h := absurd rfl h

/-- Reading the state leaves the breaker alone, or half-opens a circuit whose timeout has
passed. -/
theorem getStateUnlocked_cases (cfg : CircuitBreakerConfig τ) (now : τ) (b : CircuitBreaker τ) :
    b.getStateUnlocked cfg now = b ∨
      (∃ t, b.state = .opened ∧ b.lastFailureTime = some t ∧ cfg.timeout ≤ now - t ∧
        b.getStateUnlocked cfg now = { b with state := .halfOpen, successCount := 0 }) := by
  unfold getStateUnlocked
  split
  · rename_i t hs ht
    split
    · exact .inr ⟨t, hs, ht, ‹_›, rfl⟩
    · exact .inl rfl
  · exact .inl rfl

theorem Safe.getStateUnlocked (h : b.Safe cfg last) :
    (b.getStateUnlocked cfg now).Safe cfg last := by
  obtain heq | ⟨t, hs, -, -, heq⟩ := getStateUnlocked_cases cfg now b
  · rwa [heq]
  · rw [heq]
    exact ⟨nofun, fun _ => cfg.one_le_successThreshold, nofun,
      fun _ => h.enabled (by rw [hs]; exact nofun)⟩

theorem Safe.isAllowed (h : b.Safe cfg last) : (b.isAllowed cfg now).2.Safe cfg last := by
  unfold CircuitBreaker.isAllowed
  split
  · exact h.getStateUnlocked
  · exact h

omit [LinearOrder τ] [Sub τ] in
theorem Safe.recordSuccess (h : b.Safe cfg last) : (b.recordSuccess cfg).Safe cfg last := by
  unfold CircuitBreaker.recordSuccess
  split
  · rename_i hen
    split
    · rename_i hs
      split
      · exact ⟨fun _ => cfg.one_le_failureThreshold, nofun, nofun, fun _ => hen⟩
      · refine ⟨fun hc => ?_, fun _ => ?_, fun ho => ?_, fun _ => hen⟩
        · rw [show b.state = .closed from hc] at hs
          cases hs
        · show b.successCount + 1 < cfg.successThreshold
          omega
        · rw [show b.state = .opened from ho] at hs
          cases hs
    · rename_i hs
      refine ⟨fun _ => cfg.one_le_failureThreshold, fun hh => ?_, fun ho => ?_, fun _ => hen⟩
      · rw [show b.state = .halfOpen from hh] at hs
        cases hs
      · rw [show b.state = .opened from ho] at hs
        cases hs
    · exact h
  · exact h

omit [LinearOrder τ] [Sub τ] in
/-- A failure that is recorded is the last one, and opens the circuit at the threshold. -/
theorem Safe.recordFailure (h : b.Safe cfg last) : (b.recordFailure cfg now error).Safe cfg
    (if !cfg.enabled || error.isFinal then last else some now) := by
  unfold CircuitBreaker.recordFailure
  split
  · exact h
  · rename_i hen
    have hen : cfg.enabled = true := by
      rw [Bool.or_eq_true, not_or, Bool.not_eq_true', Bool.not_eq_false] at hen
      exact hen.1
    split
    · exact ⟨nofun, nofun, fun _ => ⟨nofun, rfl⟩, fun _ => hen⟩
    · rename_i hs
      split
      · exact ⟨nofun, nofun, fun _ => ⟨nofun, rfl⟩, fun _ => hen⟩
      · refine ⟨fun _ => ?_, fun hh => ?_, fun _ => ⟨nofun, rfl⟩, fun _ => hen⟩
        · show b.failureCount + 1 < cfg.failureThreshold
          omega
        · rw [show b.state = .halfOpen from hh] at hs
          cases hs
    · rename_i hs
      refine ⟨fun hc => ?_, fun hh => ?_, fun _ => ⟨nofun, rfl⟩, fun _ => hen⟩
      · rw [show b.state = .closed from hc] at hs
        cases hs
      · rw [show b.state = .halfOpen from hh] at hs
        cases hs

end CircuitBreaker

omit [LinearOrder τ] [Sub τ] in
/-- Only a call that was admitted and has recorded nothing records its outcome. -/
theorem World.answer_some (h : w.answer i = some w') : ∃ c, w.calls[i]? = some c ∧
    c.admitted = true ∧ c.recorded = false ∧
    w' = { w with calls := w.calls.set i { c with recorded := true } } := by
  unfold answer at h
  split at h
  · rename_i c hc
    split at h
    · rename_i hok
      rw [Bool.and_eq_true, Bool.not_eq_true'] at hok
      exact ⟨c, hc, hok.1, hok.2, (Option.some_inj.mp h).symm⟩
    · cases h
  · cases h

theorem safe_of_reachable (h : (system cfg start).Reachable ok w) :
    w.breaker.Safe cfg w.lastRecorded := by
  refine h.invariant (P := fun w => w.breaker.Safe cfg w.lastRecorded) .init ?_
  intro w a w' hs _ hstep
  cases a with
  | tick t =>
    obtain ⟨-, heq⟩ := Option.ite_none_right_eq_some.mp hstep
    obtain rfl := Option.some_inj.mp heq
    exact hs
  | getState =>
    obtain rfl := Option.some_inj.mp hstep
    exact hs.getStateUnlocked
  | isAllowed =>
    obtain rfl := Option.some_inj.mp hstep
    exact hs.isAllowed
  | recordSuccess i =>
    obtain ⟨w₁, hw₁, rfl⟩ := Option.map_eq_some_iff.mp hstep
    obtain ⟨c, -, -, -, rfl⟩ := World.answer_some hw₁
    exact hs.recordSuccess
  | recordFailure i error =>
    obtain ⟨w₁, hw₁, rfl⟩ := Option.map_eq_some_iff.mp hstep
    exact hs.recordFailure
  | reset =>
    obtain rfl := Option.some_inj.mp hstep
    exact .init

/-! ### The trials of a half-open circuit -/

/-- No call that was admitted before the circuit last opened records a success while the
circuit is half-open. -/
def TrialsOnly (w : World τ) : Action τ → Bool
  | .recordSuccess i =>
    w.breaker.state ≠ .halfOpen || w.calls[i]?.all fun c => c.openings = w.openings
  | _ => true

/-- The trials are distinct calls that were admitted and recorded their outcome, and a
half-open circuit has counted them. -/
structure Trials (w : World τ) : Prop where
  nodup : w.trials.Nodup
  calls : ∀ i ∈ w.trials, ∃ c, w.calls[i]? = some c ∧ c.admitted = true ∧ c.recorded = true
  count : w.breaker.state = .halfOpen → w.trials.length = w.breaker.successCount

omit [LinearOrder τ] [Sub τ] in
/-- A change of the breaker that keeps the success count of a half-open circuit. -/
theorem Trials.observe (h : Trials w)
    (hb : b.state = .halfOpen →
      w.breaker.state = .halfOpen ∧ b.successCount = w.breaker.successCount ∨
      w.breaker.state ≠ .halfOpen ∧ b.successCount = 0) : Trials (w.observe b) := by
  by_cases hh : w.breaker.state ≠ .halfOpen ∧ b.state = .halfOpen
  · have htrials : (w.observe b).trials = [] := if_pos hh
    refine ⟨htrials ▸ List.nodup_nil, htrials ▸ nofun, fun hs => ?_⟩
    obtain ⟨hw, -⟩ | ⟨-, hz⟩ := hb hs
    · exact absurd hw hh.1
    · rw [htrials]
      exact hz.symm
  · have htrials : (w.observe b).trials = w.trials := if_neg hh
    refine ⟨htrials ▸ h.nodup, htrials ▸ h.calls, fun hs => ?_⟩
    obtain ⟨hw, hc⟩ | ⟨hw, -⟩ := hb hs
    · rw [htrials]
      exact (h.count hw).trans hc.symm
    · exact absurd ⟨hw, hs⟩ hh

theorem CircuitBreaker.getStateUnlocked_halfOpen (b : CircuitBreaker τ)
    (h : (b.getStateUnlocked cfg now).state = .halfOpen) :
    b.state = .halfOpen ∧ (b.getStateUnlocked cfg now).successCount = b.successCount ∨
      b.state ≠ .halfOpen ∧ (b.getStateUnlocked cfg now).successCount = 0 := by
  obtain heq | ⟨t, hs, -, -, heq⟩ := getStateUnlocked_cases cfg now b
  · rw [heq] at h ⊢
    exact .inl ⟨h, rfl⟩
  · exact .inr ⟨by rw [hs]; exact nofun, by rw [heq]⟩

omit [LinearOrder τ] [Sub τ] in
theorem CircuitBreaker.recordFailure_halfOpen (b : CircuitBreaker τ)
    (h : (b.recordFailure cfg now error).state = .halfOpen) :
    b.state = .halfOpen ∧ (b.recordFailure cfg now error).successCount = b.successCount := by
  unfold recordFailure at h ⊢
  split at h
  · rename_i hno
    rw [if_pos hno]
    exact ⟨h, rfl⟩
  · split at h
    · cases h
    · split at h
      · cases h
      · rename_i hs _
        rw [show b.state = .halfOpen from h] at hs
        cases hs
    · rename_i hs
      rw [show b.state = .halfOpen from h] at hs
      cases hs

omit [LinearOrder τ] [Sub τ] in
/-- A recorded success leaves the circuit half-open, or closes a half-open one. -/
theorem CircuitBreaker.recordSuccess_halfOpen (b : CircuitBreaker τ) (hen : cfg.enabled = true)
    (hb : b.state = .halfOpen) :
    ((b.recordSuccess cfg).state = .closed ∧ cfg.successThreshold ≤ b.successCount + 1) ∨
      ((b.recordSuccess cfg).state = .halfOpen ∧
        (b.recordSuccess cfg).successCount = b.successCount + 1) := by
  unfold recordSuccess
  rw [if_pos hen, hb]
  dsimp only
  split
  · exact .inl ⟨rfl, ‹_›⟩
  · exact .inr ⟨rfl, rfl⟩

omit [LinearOrder τ] [Sub τ] in
theorem CircuitBreaker.recordSuccess_other (b : CircuitBreaker τ) (hb : b.state ≠ .halfOpen) :
    (b.recordSuccess cfg).state = b.state := by
  unfold recordSuccess
  split
  · split
    · exact absurd ‹_› hb
    · rfl
    · rfl
  · rfl

omit [LinearOrder τ] [Sub τ] in
/-- An answer marks its call, so the calls that had been recorded are other ones. -/
theorem Trials.answer (h : Trials w) (hw : w.answer i = some w') :
    Trials w' ∧ i ∉ w.trials ∧
      ∃ c, w.calls[i]? = some c ∧ w'.calls[i]? = some { c with recorded := true } ∧
        c.admitted = true := by
  obtain ⟨c, hc, hadm, hrec, rfl⟩ := World.answer_some hw
  have hlt : i < w.calls.length := (List.getElem?_eq_some_iff.mp hc).1
  have hi : i ∉ w.trials := by
    intro hmem
    obtain ⟨c', hc', -, hrec'⟩ := h.calls i hmem
    rw [hc, Option.some_inj] at hc'
    rw [hc', hrec'] at hrec
    cases hrec
  refine ⟨⟨h.nodup, fun j hj => ?_, h.count⟩, hi, c, hc, List.getElem?_set_self hlt, hadm⟩
  obtain ⟨c', hc', hout⟩ := h.calls j hj
  have hne : i ≠ j := by
    rintro rfl
    exact hi hj
  exact ⟨c', (List.getElem?_set_ne hne).trans hc', hout⟩

theorem trials_of_reachable (h : (system cfg start).Reachable ok w) : Trials w := by
  refine h.invariant_of (fun t ht => safe_of_reachable ht)
    ⟨List.nodup_nil, fun _ hi => absurd hi List.not_mem_nil, fun hs => by cases hs⟩ ?_
  intro w a w' hsafe ht _ hstep
  cases a with
  | tick t =>
    obtain ⟨-, heq⟩ := Option.ite_none_right_eq_some.mp hstep
    obtain rfl := Option.some_inj.mp heq
    exact ⟨ht.nodup, ht.calls, ht.count⟩
  | getState =>
    obtain rfl := Option.some_inj.mp hstep
    exact ht.observe (CircuitBreaker.getStateUnlocked_halfOpen _)
  | isAllowed =>
    obtain rfl := Option.some_inj.mp hstep
    have hobs : Trials (w.observe (w.breaker.isAllowed cfg w.now).2) := by
      refine ht.observe fun hh => ?_
      unfold CircuitBreaker.isAllowed at hh ⊢
      split at hh
      · rename_i hen
        rw [if_pos hen]
        exact CircuitBreaker.getStateUnlocked_halfOpen _ hh
      · rename_i hen
        rw [if_neg hen]
        exact .inl ⟨hh, rfl⟩
    refine ⟨hobs.nodup, fun i hi => ?_, hobs.count⟩
    obtain ⟨c, hc, hout⟩ := hobs.calls i hi
    have hlt : i < w.calls.length := (List.getElem?_eq_some_iff.mp hc).1
    exact ⟨c, (List.getElem?_append_left hlt).trans hc, hout⟩
  | recordSuccess i =>
    obtain ⟨w₁, hw₁, rfl⟩ := Option.map_eq_some_iff.mp hstep
    obtain ⟨ht₁, hi, c, hc, hc', hadm⟩ := ht.answer hw₁
    obtain ⟨c₁, _, _, _, rfl⟩ := World.answer_some hw₁
    by_cases hs : w.breaker.state = .halfOpen
    · refine ⟨?_, ?_, fun hh => ?_⟩
      · rw [if_pos hs]
        exact List.nodup_enqueue ht.nodup (List.nodup_singleton i) fun j hj =>
          List.mem_singleton.mp hj ▸ hi
      · rw [if_pos hs]
        intro j hj
        obtain hj | hj := List.mem_append.mp hj
        · exact ht₁.calls j hj
        · rw [List.mem_singleton.mp hj]
          exact ⟨_, hc', hadm, rfl⟩
      · rw [if_pos hs, List.length_append, ht.count hs]
        have hen := hsafe.enabled (by rw [hs]; exact nofun)
        obtain ⟨hclosed, -⟩ | ⟨-, hcount⟩ := w.breaker.recordSuccess_halfOpen hen hs
        · rw [show (w.breaker.recordSuccess cfg).state = .halfOpen from hh] at hclosed
          cases hclosed
        · exact hcount.symm
    · refine ⟨?_, ?_, fun hh => ?_⟩
      · rw [if_neg hs]
        exact ht.nodup
      · rw [if_neg hs]
        exact ht₁.calls
      · exact absurd ((w.breaker.recordSuccess_other hs).symm.trans hh) hs
  | recordFailure i error =>
    obtain ⟨w₁, hw₁, rfl⟩ := Option.map_eq_some_iff.mp hstep
    obtain ⟨ht₁, -⟩ := ht.answer hw₁
    obtain ⟨c, -, -, -, rfl⟩ := World.answer_some hw₁
    have hobs := ht₁.observe (b := w.breaker.recordFailure cfg w.now error)
      fun hh => .inl (CircuitBreaker.recordFailure_halfOpen _ hh)
    exact ⟨hobs.nodup, hobs.calls, hobs.count⟩
  | reset =>
    obtain rfl := Option.some_inj.mp hstep
    exact ht.observe nofun

theorem CircuitBreaker.getStateUnlocked_closed (b : CircuitBreaker τ)
    (h : (b.getStateUnlocked cfg now).state = .closed) : b.state = .closed := by
  obtain heq | ⟨t, -, -, -, heq⟩ := getStateUnlocked_cases cfg now b
  · rwa [heq] at h
  · rw [heq] at h
    cases h

theorem CircuitBreaker.isAllowed_closed (b : CircuitBreaker τ)
    (h : (b.isAllowed cfg now).2.state = .closed) : b.state = .closed := by
  unfold isAllowed at h
  split at h
  · exact b.getStateUnlocked_closed h
  · exact h

omit [LinearOrder τ] [Sub τ] in
/-- A failure closes no circuit. -/
theorem CircuitBreaker.recordFailure_closed (b : CircuitBreaker τ)
    (h : (b.recordFailure cfg now error).state = .closed) : b.state = .closed := by
  unfold recordFailure at h
  split at h
  · exact h
  · split at h
    · cases h
    · assumption
    · exact h

/-- Only a success and a reset close a half-open circuit. -/
theorem closing_is_success (hstep : (system cfg start).step w a = some w')
    (hw : w.breaker.state = .halfOpen) (hw' : w'.breaker.state = .closed) (ha : a ≠ .reset) :
    ∃ i, a = .recordSuccess i := by
  have hno : w.breaker.state ≠ .closed := by rw [hw]; exact nofun
  cases a with
  | tick t =>
    obtain ⟨-, heq⟩ := Option.ite_none_right_eq_some.mp hstep
    obtain rfl := Option.some_inj.mp heq
    exact absurd hw' hno
  | getState =>
    obtain rfl := Option.some_inj.mp hstep
    exact absurd (w.breaker.getStateUnlocked_closed hw') hno
  | isAllowed =>
    obtain rfl := Option.some_inj.mp hstep
    exact absurd (w.breaker.isAllowed_closed hw') hno
  | recordSuccess i => exact ⟨i, rfl⟩
  | recordFailure i error =>
    obtain ⟨w₁, hw₁, rfl⟩ := Option.map_eq_some_iff.mp hstep
    exact absurd (w.breaker.recordFailure_closed hw') hno
  | reset => exact absurd rfl ha

/-- The trials of a circuit that closes are as many as the threshold asks for. -/
theorem trials_of_closing (h : (system cfg start).Reachable ok w)
    (hstep : (system cfg start).step w a = some w') (hw : w.breaker.state = .halfOpen)
    (hw' : w'.breaker.state = .closed) (ha : a ≠ .reset) :
    cfg.successThreshold ≤ w'.trials.length := by
  obtain ⟨i, rfl⟩ := closing_is_success hstep hw hw' ha
  obtain ⟨w₁, hw₁, rfl⟩ := Option.map_eq_some_iff.mp hstep
  have hen := (safe_of_reachable h).enabled (by rw [hw]; exact nofun)
  obtain ⟨-, hthr⟩ | ⟨hhalf, -⟩ := w.breaker.recordSuccess_halfOpen hen hw
  · rw [if_pos hw, List.length_append, (trials_of_reachable h).count hw]
    exact hthr
  · rw [show (w.breaker.recordSuccess cfg).state = .closed from hw'] at hhalf
    cases hhalf

/-- The trials were admitted since the circuit last opened. -/
def Fresh (w : World τ) : Prop :=
  ∀ i ∈ w.trials, ∃ c, w.calls[i]? = some c ∧ c.openings = w.openings

omit [LinearOrder τ] [Sub τ] in
theorem Fresh.observe (h : w.breaker.state = .halfOpen → Fresh w)
    (hb : b.state = .halfOpen) : Fresh (w.observe b) := by
  intro i hi
  have hopen : (w.observe b).openings = w.openings :=
    if_neg fun hno => by rw [hb] at hno; cases hno.2
  by_cases hs : w.breaker.state = .halfOpen
  · have htrials : (w.observe b).trials = w.trials := if_neg fun hno => hno.1 hs
    rw [htrials] at hi
    rw [hopen]
    exact h hs i hi
  · have htrials : (w.observe b).trials = [] := if_pos ⟨hs, hb⟩
    rw [htrials] at hi
    exact absurd hi List.not_mem_nil

omit [LinearOrder τ] [Sub τ] in
/-- An answer changes no call but its own, and there only the mark. -/
theorem Fresh.answer (h : Fresh w) (hw : w.answer i = some w') : Fresh w' := by
  obtain ⟨c, hc, -, -, rfl⟩ := World.answer_some hw
  intro j hj
  obtain ⟨c', hc', ho⟩ := h j hj
  by_cases hij : i = j
  · subst hij
    rw [hc, Option.some_inj] at hc'
    subst hc'
    exact ⟨_, List.getElem?_set_self (List.getElem?_eq_some_iff.mp hc).1, ho⟩
  · exact ⟨c', (List.getElem?_set_ne hij).trans hc', ho⟩

/-- A success of a half-open circuit leaves its trials fresh, whether or not it closes it. -/
theorem Fresh.recordSuccess (h : Fresh w) (hsafe : w.breaker.Safe cfg w.lastRecorded)
    (hok : TrialsOnly w (.recordSuccess i) = true) (hs : w.breaker.state = .halfOpen)
    (hstep : w.step cfg (.recordSuccess i) = some w') : Fresh w' := by
  obtain ⟨w₁, hw₁, rfl⟩ := Option.map_eq_some_iff.mp hstep
  have hw₁' := h.answer hw₁
  obtain ⟨c, hc, _, _, rfl⟩ := World.answer_some hw₁
  have hno : (w.breaker.recordSuccess cfg).state ≠ .opened := by
    obtain ⟨hst, -⟩ | ⟨hst, -⟩ := w.breaker.recordSuccess_halfOpen
      (hsafe.enabled (by rw [hs]; exact nofun)) hs <;> (rw [hst]; exact nofun)
  intro j hj
  rw [if_pos hs] at hj
  have hopen : (World.observe { w with calls := w.calls.set i { c with recorded := true } }
      (w.breaker.recordSuccess cfg)).openings = w.openings := if_neg fun hop => hno hop.2
  rw [hopen]
  obtain hj | hj := List.mem_append.mp hj
  · exact hw₁' j hj
  · rw [List.mem_singleton.mp hj]
    simp only [TrialsOnly, hs, ne_eq, not_true_eq_false, decide_false, Bool.false_or, hc,
      Option.all_some, decide_eq_true_eq] at hok
    exact ⟨_, List.getElem?_set_self (List.getElem?_eq_some_iff.mp hc).1, hok⟩

theorem fresh_of_reachable (h : (system cfg start).Reachable (fun w a => TrialsOnly w a = true) w) :
    w.breaker.state = .halfOpen → Fresh w := by
  refine h.invariant_of (P := fun w => w.breaker.state = .halfOpen → Fresh w)
    (fun t ht => safe_of_reachable ht) (fun hs => by cases hs) ?_
  intro w a w' hsafe ih hok hstep hs'
  cases a with
  | tick t =>
    obtain ⟨-, heq⟩ := Option.ite_none_right_eq_some.mp hstep
    obtain rfl := Option.some_inj.mp heq
    exact ih hs'
  | getState =>
    obtain rfl := Option.some_inj.mp hstep
    exact Fresh.observe ih hs'
  | isAllowed =>
    obtain rfl := Option.some_inj.mp hstep
    intro i hi
    obtain ⟨c, hc, ho⟩ := Fresh.observe ih (b := (w.breaker.isAllowed cfg w.now).2) hs' i hi
    exact ⟨c, (List.getElem?_append_left (List.getElem?_eq_some_iff.mp hc).1).trans hc, ho⟩
  | recordSuccess i =>
    by_cases hs : w.breaker.state = .halfOpen
    · exact (ih hs).recordSuccess hsafe hok hs hstep
    · obtain ⟨w₁, hw₁, rfl⟩ := Option.map_eq_some_iff.mp hstep
      exact absurd ((w.breaker.recordSuccess_other hs).symm.trans hs') hs
  | recordFailure i error =>
    obtain ⟨w₁, hw₁, rfl⟩ := Option.map_eq_some_iff.mp hstep
    have hs := (CircuitBreaker.recordFailure_halfOpen _ hs').1
    have hw₁' := (ih hs).answer hw₁
    obtain ⟨c, _, _, _, rfl⟩ := World.answer_some hw₁
    exact Fresh.observe (fun _ => hw₁') hs'
  | reset =>
    obtain rfl := Option.some_inj.mp hstep
    cases hs'

/-! ### The trace law -/

/-- The counters stay below their thresholds; no call is admitted while the circuit is open
and the timeout has not passed since the last recorded failure; and a half-open circuit that
closes without a reset has had `success_threshold` successes, each of another admitted call.
All of them were admitted after the circuit had opened if no older call recorded a success
while it was half-open. -/
theorem trace_law (cfg : CircuitBreakerConfig τ) (start : τ) :
    (∀ w, (system cfg start).Reachable System.always w →
      (w.breaker.state = .closed → w.breaker.failureCount < cfg.failureThreshold) ∧
      (w.breaker.state = .halfOpen → w.breaker.successCount < cfg.successThreshold) ∧
      (w.breaker.state = .opened → w.breaker.lastFailureTime ≠ none)) ∧
    (∀ w w' t, (system cfg start).Reachable System.always w → w.breaker.state = .opened →
      w.lastRecorded = some t → w.now - t < cfg.timeout →
      (system cfg start).step w .isAllowed = some w' →
        ∃ c, w'.calls = w.calls ++ [c] ∧ c.admitted = false) ∧
    (∀ w w' a, (system cfg start).Reachable System.always w →
      (system cfg start).step w a = some w' → w.breaker.state = .halfOpen →
      w'.breaker.state = .closed → a ≠ .reset →
        cfg.successThreshold ≤ w'.trials.length ∧ w'.trials.Nodup ∧
          ∀ i ∈ w'.trials, ∃ c, w'.calls[i]? = some c ∧ c.admitted = true ∧ c.recorded = true) ∧
    (∀ w w' a, (system cfg start).Reachable (fun w a => TrialsOnly w a = true) w →
      TrialsOnly w a = true → (system cfg start).step w a = some w' →
      w.breaker.state = .halfOpen → w'.breaker.state = .closed → a ≠ .reset →
        ∀ i ∈ w'.trials, ∃ c, w'.calls[i]? = some c ∧ c.openings = w'.openings) := by
  refine ⟨fun w h => ?_, fun w w' t h hs ht hlt hstep => ?_, fun w w' a h hstep hw hw' ha => ?_,
    fun w w' a h hok hstep hw hw' ha => ?_⟩
  · have hsafe := safe_of_reachable h
    exact ⟨hsafe.closed, hsafe.halfOpen, fun ho => (hsafe.opened ho).1⟩
  · have hsafe := safe_of_reachable h
    refine ⟨_, congrArg World.calls (Option.some_inj.mp hstep).symm, ?_⟩
    show (w.breaker.isAllowed cfg w.now).1 = false
    rw [CircuitBreaker.isAllowed, if_pos (hsafe.enabled (by rw [hs]; exact nofun))]
    obtain heq | ⟨t', -, ht', hle, -⟩ :=
      CircuitBreaker.getStateUnlocked_cases cfg w.now w.breaker
    · simp [heq, hs]
    · rw [(hsafe.opened hs).2, ht, Option.some_inj] at ht'
      exact absurd (ht' ▸ hle) (not_le.mpr hlt)
  · have ht := trials_of_reachable (h.step trivial hstep)
    exact ⟨trials_of_closing h hstep hw hw' ha, ht.nodup, ht.calls⟩
  · have hsafe := safe_of_reachable h
    obtain ⟨i, rfl⟩ := closing_is_success hstep hw hw' ha
    exact (fresh_of_reachable h hw).recordSuccess hsafe hok hw hstep

end

/-- One failure opens the circuit for a second, and one success closes it. -/
def sampleConfig : CircuitBreakerConfig ℤ where
  failureThreshold := 1
  successThreshold := 1
  timeout := 1
  one_le_failureThreshold := le_refl 1
  one_le_successThreshold := le_refl 1

/-- Two calls are admitted and the second fails; a third half-opens the circuit in time. -/
def Action.tripped : List (Action ℤ) :=
  [.isAllowed, .isAllowed, .recordFailure 1 (.spooled ⟨.serverError, .null, 500, .null⟩),
    .tick 1, .isAllowed]

/-- The call that half-opened the circuit closes it. -/
theorem trace_law_sample : ∃ w' : World ℤ, w'.breaker.state = .closed ∧
    1 ≤ w'.trials.length ∧
      ∀ i ∈ w'.trials, ∃ c, w'.calls[i]? = some c ∧ c.openings = w'.openings := by
  have hrun : ((system sampleConfig 0).runIf (fun w a => TrialsOnly w a = true)
      (system sampleConfig 0).init Action.tripped).any (fun w =>
        w.breaker.state = .halfOpen && TrialsOnly w (.recordSuccess 2) &&
          ((system sampleConfig 0).step w (.recordSuccess 2)).any fun w' =>
            w'.breaker.state = .closed) = true := by
    decide
  obtain ⟨w, hw, hp⟩ := System.exists_of_runIf hrun
  rw [Bool.and_eq_true, Bool.and_eq_true, decide_eq_true_eq] at hp
  obtain ⟨w', hstep, hclosed⟩ := (Option.any_eq_true _ _).mp hp.2
  have hclosed := of_decide_eq_true hclosed
  have hlaw := trace_law sampleConfig 0
  exact ⟨w', hclosed, (hlaw.2.2.1 w w' _ hw.always hstep hp.1.1 hclosed nofun).1,
    hlaw.2.2.2 w w' _ hw hp.1.2 hstep hp.1.1 hclosed nofun⟩

/-- The first call, admitted before the circuit opened, closes it. -/
theorem stale_success_closes : ¬ ∀ (cfg : CircuitBreakerConfig ℤ) (start : ℤ) (w w' : World ℤ)
    (a : Action ℤ), (system cfg start).Reachable System.always w →
      (system cfg start).step w a = some w' → w.breaker.state = .halfOpen →
      w'.breaker.state = .closed → a ≠ .reset →
        ∃ l : List ℕ, l.Nodup ∧ cfg.successThreshold ≤ l.length ∧
          ∀ i ∈ l, i ∈ w'.trials ∧ ∃ c, w'.calls[i]? = some c ∧ c.openings = w'.openings := by
  intro hall
  have hrun : ((system sampleConfig 0).run (system sampleConfig 0).init Action.tripped).any
      (fun w => w.breaker.state = .halfOpen &&
        ((system sampleConfig 0).step w (.recordSuccess 0)).any fun w' =>
          w'.breaker.state = .closed && w'.trials = [0] && w'.openings = 1 &&
            w'.calls[0]? = some ⟨true, 0, true⟩) = true := by
    decide
  obtain ⟨w, hw, hp⟩ := System.exists_of_run hrun
  rw [Bool.and_eq_true, decide_eq_true_eq] at hp
  obtain ⟨w', hstep, hout⟩ := (Option.any_eq_true _ _).mp hp.2
  simp only [Bool.and_eq_true, decide_eq_true_eq] at hout
  obtain ⟨l, -, hlen, hl⟩ := hall _ _ w w' _ hw hstep hp.1 hout.1.1.1 nofun
  obtain ⟨i, hi⟩ := List.exists_mem_of_length_pos (Nat.lt_of_lt_of_le Nat.one_pos hlen)
  obtain ⟨hmem, c, hc, ho⟩ := hl i hi
  rw [hout.1.1.2, List.mem_singleton] at hmem
  rw [hmem, hout.2, Option.some_inj] at hc
  rw [← hc, hout.1.2] at ho
  cases ho

end SpooledSdk.Http
