/-
The reconnect budget of `WebSocketClient` and `AsyncWebSocketClient`: what they do against a
script of dial outcomes when the application leaves them alone.

* `Drift` — the counter is what the observer counts, up to the redial that is being waited for;
* `budgetLaw_of_keeps` — a step that keeps `Drift` keeps the budget on the whole run;
* `reconnect_budget` — the synchronous client does exactly when it never comes to a redial whose
  delay is no float; the asynchronous one exactly when, besides, no redial is refused.

`reconnect_delay` is taken to be a float, and `max_reconnect_delay` one that a timer can wait for.
-/
import SpooledSdk.Realtime.Events
import Mathlib.Algebra.Order.Ring.Rat
import Mathlib.Logic.Function.Iterate

namespace SpooledSdk.Realtime.WebSocket

structure Options where
  autoReconnect : Bool := true
  maxReconnectAttempts : ℕ := 10
  deriving DecidableEq

/-- `STABLE_CONNECTION_SECONDS`. -/
def stableConnectionSeconds : ℚ := 10

/-- The integers from which on the product with a float raises. -/
def floatLimit : ℕ := 2 ^ 1024 - 2 ^ 970

/-- A dial is refused, or it opens a socket that errors after `lifetime` seconds. -/
inductive DialOutcome
  | refused
  | accepted (lifetime : ℚ)
  deriving DecidableEq

/-- A socket is up, a redial is waited for (by a timer or in a `sleep`), or the client has
given up. -/
inductive Phase
  | up (lifetime : ℚ)
  | waiting
  | ended
  deriving DecidableEq

/-- `dials` counts every dial, `redials` those since the last socket that was stable, or since
the first connect. -/
structure Client where
  state : ConnectionState := .disconnected
  reconnectAttempts : ℕ := 0
  connectedAt : Option ℚ := none
  now : ℚ := 0
  phase : Phase := .ended
  dials : ℕ := 0
  redials : ℕ := 0
  deriving DecidableEq

namespace Client

/-- `_mark_socket_open`. -/
def markSocketOpen (s : Client) : Client :=
  { s with connectedAt := some s.now }

/-- `_reset_budget_if_stable`. -/
def resetBudgetIfStable (s : Client) : Client :=
  match s.connectedAt with
  | none => s
  | some connectedAt =>
    if stableConnectionSeconds ≤ s.now - connectedAt then
      { s with connectedAt := none, reconnectAttempts := 0 }
    else { s with connectedAt := none }

/-- The dial succeeded. -/
def opened (s : Client) (lifetime : ℚ) : Client :=
  { s.markSocketOpen with state := .connected, phase := .up lifetime }

/-- The start of `_schedule_reconnect` and of `_do_reconnect`, up to the wait.  Where the power of
two is no float the product raises, on a thread that dies of it, or out of `events()`. -/
def scheduleReconnect (s : Client) : Client :=
  let s' := { s with state := .reconnecting, reconnectAttempts := s.reconnectAttempts + 1 }
  { s' with phase := if 2 ^ (s'.reconnectAttempts - 1) < floatLimit then .waiting else .ended }

def giveUp (s : Client) : Client :=
  { s with state := .disconnected, phase := .ended }

/-- The socket errors after its lifetime. -/
def drop (s : Client) (lifetime : ℚ) : Client :=
  { s with
    now := s.now + lifetime
    redials := if stableConnectionSeconds ≤ lifetime then 0 else s.redials }

/-- The wait is over and the client dials. -/
def redial (s : Client) : Client :=
  { s with dials := s.dials + 1, redials := s.redials + 1 }

end Client

/-- `connect()` of a new client, answered with a socket. -/
def connect (lifetime : ℚ) : Client :=
  Client.opened { dials := 1 } lifetime

namespace Sync

variable (o : Options)

/-- `WebSocketClient._handle_disconnect`. -/
def handleDisconnect (s : Client) : Client :=
  let s' := s.resetBudgetIfStable
  if o.autoReconnect && decide (s'.reconnectAttempts < o.maxReconnectAttempts) then
    s'.scheduleReconnect
  else s'.giveUp

/-- `do_reconnect` of the timer. -/
def doReconnect (s : Client) : DialOutcome → Client
  | .refused => handleDisconnect o s.redial
  | .accepted lifetime => s.redial.opened lifetime

def step (script : ℕ → DialOutcome) (s : Client) : Client :=
  match s.phase with
  | .up lifetime => handleDisconnect o (s.drop lifetime)
  | .waiting => doReconnect o s (script s.dials)
  | .ended => s

end Sync

namespace Async

variable (o : Options)

/-- The `except` clause of `AsyncWebSocketClient.events()`, up to the wait. -/
def handleError (s : Client) : Client :=
  let s' := s.resetBudgetIfStable
  if !o.autoReconnect then s'.giveUp
  else if o.maxReconnectAttempts ≤ s'.reconnectAttempts then s'.giveUp
  else s'.scheduleReconnect

/-- The rest of `_do_reconnect`.  What it raises leaves `events()`: it is raised in the `except`
clause, not in the `try` block. -/
def doReconnect (s : Client) : DialOutcome → Client
  | .refused => { s.redial with phase := .ended }
  | .accepted lifetime => s.redial.opened lifetime

def step (script : ℕ → DialOutcome) (s : Client) : Client :=
  match s.phase with
  | .up lifetime => handleError o (s.drop lifetime)
  | .waiting => doReconnect s (script s.dials)
  | .ended => s

end Async

/-- The client after `k` steps, from its first `connect()`. -/
def run (step : Client → Client) (first : ℚ) (k : ℕ) : Client :=
  step^[k] (connect first)

/-- The budget over a whole run: never more than `max_reconnect_attempts` redials without a
stable socket, exactly that many when the client has given up, its state `DISCONNECTED` then,
and until then another redial after every drop and every refusal. -/
structure BudgetLaw (o : Options) (run : ℕ → Client) : Prop where
  never_more : ∀ k, (run k).redials ≤ o.maxReconnectAttempts
  never_fewer : ∀ k, (run k).phase = .ended → (run k).redials = o.maxReconnectAttempts
  disconnected : ∀ k, (run k).phase = .ended → (run k).state = .disconnected
  redials_on : ∀ k, (run (k + 2)).phase = .ended ∨ (run k).dials < (run (k + 2)).dials

section

variable {o : Options} {script : ℕ → DialOutcome} {s : Client} {first : ℚ}

/-- The counter is what the observer counts, up to the redial that is being waited for. -/
structure Drift (o : Options) (s : Client) : Prop where
  bound : s.reconnectAttempts ≤ o.maxReconnectAttempts
  up : ∀ lifetime, s.phase = .up lifetime →
    s.redials = s.reconnectAttempts ∧ s.connectedAt = some s.now
  waiting : s.phase = .waiting →
    s.redials + 1 = s.reconnectAttempts ∧ s.connectedAt = none ∧ s.state = .reconnecting
  ended : s.phase = .ended →
    s.redials = o.maxReconnectAttempts ∧ s.state = .disconnected

theorem drift_connect : Drift o (connect first) :=
  ⟨Nat.zero_le _, fun _ _ => ⟨rfl, rfl⟩, nofun, nofun⟩

theorem Drift.redials_le (h : Drift o s) : s.redials ≤ o.maxReconnectAttempts := by
  cases hp : s.phase with
  | up lifetime =>
    rw [(h.up lifetime hp).1]
    exact h.bound
  | waiting =>
    have := (h.waiting hp).1
    have := h.bound
    omega
  | ended => exact (h.ended hp).1.le

theorem Drift.opened (h : Drift o s) (hp : s.phase = .waiting) (lifetime : ℚ) :
    Drift o (s.redial.opened lifetime) :=
  ⟨h.bound, fun _ _ => ⟨(h.waiting hp).1, rfl⟩, nofun, nofun⟩

/-- The delays are floats for 1024 attempts. -/
theorem lt_floatLimit_iff {n : ℕ} : 2 ^ (n - 1) < floatLimit ↔ n ≤ 1024 := by
  have hpow : ∀ {m k : ℕ}, m ≤ k → 2 ^ m ≤ 2 ^ k := fun h => Nat.pow_le_pow_right (by decide) h
  constructor
  · intro h
    by_contra hn
    have hlimit : floatLimit ≤ 2 ^ 1024 := by decide +kernel
    have hle : 1024 ≤ n - 1 := by omega
    exact Nat.not_lt.mpr (hlimit.trans (hpow hle)) h
  · intro h
    have hlimit : 2 ^ 1023 < floatLimit := by decide +kernel
    have hle : n - 1 ≤ 1023 := by omega
    exact Nat.lt_of_le_of_lt (hpow hle) hlimit

theorem scheduleReconnect_phase : s.scheduleReconnect.phase =
    if s.reconnectAttempts + 1 ≤ 1024 then .waiting else .ended := by
  unfold Client.scheduleReconnect
  simp only [lt_floatLimit_iff]

theorem drift_scheduleReconnect (hr : s.redials = s.reconnectAttempts)
    (hlt : s.reconnectAttempts < o.maxReconnectAttempts) (hc : s.connectedAt = none)
    (hfit : s.scheduleReconnect.reconnectAttempts ≤ 1024) : Drift o s.scheduleReconnect := by
  have hphase : s.scheduleReconnect.phase = .waiting :=
    scheduleReconnect_phase.trans (if_pos hfit)
  refine ⟨hlt, fun _ h => ?_, fun _ => ⟨congrArg (· + 1) hr, hc, rfl⟩, fun h => ?_⟩
  · rw [hphase] at h
    cases h
  · rw [hphase] at h
    cases h

theorem drift_giveUp (hr : s.redials = s.reconnectAttempts)
    (hle : s.reconnectAttempts ≤ o.maxReconnectAttempts)
    (hge : o.maxReconnectAttempts ≤ s.reconnectAttempts) : Drift o s.giveUp :=
  ⟨hle, nofun, nofun, fun _ => ⟨hr.trans (le_antisymm hle hge), rfl⟩⟩

/-- What a drop or a refused redial leaves once the budget was restored, or was not. -/
structure Counted (o : Options) (s : Client) : Prop where
  bound : s.reconnectAttempts ≤ o.maxReconnectAttempts
  redials : s.redials = s.reconnectAttempts
  mark : s.connectedAt = none

theorem Drift.counted_drop (h : Drift o s) {lifetime : ℚ} (hp : s.phase = .up lifetime) :
    Counted o (s.drop lifetime).resetBudgetIfStable := by
  obtain ⟨hr, hc⟩ := h.up lifetime hp
  have hage : s.now + lifetime - s.now = lifetime := add_sub_cancel_left ..
  unfold Client.resetBudgetIfStable Client.drop
  simp only [hc, hage]
  split
  · exact ⟨Nat.zero_le _, rfl, rfl⟩
  · exact ⟨h.bound, hr, rfl⟩

theorem Drift.counted_redial (h : Drift o s) (hp : s.phase = .waiting) :
    Counted o s.redial.resetBudgetIfStable := by
  obtain ⟨hr, hc, -⟩ := h.waiting hp
  have hsame : s.redial.resetBudgetIfStable = s.redial := by
    unfold Client.resetBudgetIfStable Client.redial
    simp only [hc]
  rw [hsame]
  exact ⟨h.bound, hr, hc⟩

theorem Counted.handleDisconnect {s' : Client} (hauto : o.autoReconnect = true)
    (h : Counted o s'.resetBudgetIfStable)
    (hfit : (Sync.handleDisconnect o s').reconnectAttempts ≤ 1024) :
    Drift o (Sync.handleDisconnect o s') := by
  unfold Sync.handleDisconnect at hfit ⊢
  simp only [hauto, Bool.true_and, decide_eq_true_eq] at hfit ⊢
  split
  · rename_i hlt
    rw [if_pos hlt] at hfit
    exact drift_scheduleReconnect h.redials hlt h.mark hfit
  · rename_i hge
    exact drift_giveUp h.redials h.bound (Nat.le_of_not_lt hge)

theorem Counted.handleError {s' : Client} (hauto : o.autoReconnect = true)
    (h : Counted o s'.resetBudgetIfStable)
    (hfit : (Async.handleError o s').reconnectAttempts ≤ 1024) :
    Drift o (Async.handleError o s') := by
  unfold Async.handleError at hfit ⊢
  simp only [hauto, Bool.not_true, Bool.false_eq_true, if_false] at hfit ⊢
  split
  · rename_i hge
    exact drift_giveUp h.redials h.bound hge
  · rename_i hlt
    rw [if_neg hlt] at hfit
    exact drift_scheduleReconnect h.redials (Nat.lt_of_not_le hlt) h.mark hfit

theorem drift_sync (hauto : o.autoReconnect = true) (h : Drift o s)
    (hfit : (Sync.step o script s).reconnectAttempts ≤ 1024) :
    Drift o (Sync.step o script s) := by
  unfold Sync.step at hfit ⊢
  cases hp : s.phase with
  | up lifetime =>
    rw [hp] at hfit
    exact (h.counted_drop hp).handleDisconnect hauto hfit
  | waiting =>
    rw [hp] at hfit
    dsimp only at hfit ⊢
    cases hs : script s.dials with
    | refused =>
      rw [hs] at hfit
      exact (h.counted_redial hp).handleDisconnect hauto hfit
    | accepted lifetime => exact h.opened hp lifetime
  | ended => exact h

theorem drift_async (hauto : o.autoReconnect = true) (h : Drift o s)
    (hdial : s.phase = .waiting → script s.dials ≠ .refused)
    (hfit : (Async.step o script s).reconnectAttempts ≤ 1024) :
    Drift o (Async.step o script s) := by
  unfold Async.step at hfit ⊢
  cases hp : s.phase with
  | up lifetime =>
    rw [hp] at hfit
    exact (h.counted_drop hp).handleError hauto hfit
  | waiting =>
    dsimp only
    cases hs : script s.dials with
    | refused => exact absurd hs (hdial hp)
    | accepted lifetime => exact h.opened hp lifetime
  | ended => exact h

/-! ### Every drop and every refusal is followed by a redial, or by the end -/

/-- One step leaves the dials as they are and waits or ends, or makes a dial. -/
structure Presses (step : Client → Client) : Prop where
  up : ∀ s lifetime, s.phase = .up lifetime →
    ((step s).phase = .waiting ∨ (step s).phase = .ended) ∧ (step s).dials = s.dials
  waiting : ∀ s, s.phase = .waiting → (step s).dials = s.dials + 1
  ended : ∀ s, s.phase = .ended → step s = s
  grows : ∀ s, s.dials ≤ (step s).dials

theorem resetBudgetIfStable_dials : s.resetBudgetIfStable.dials = s.dials := by
  unfold Client.resetBudgetIfStable
  split
  · rfl
  · split <;> rfl

theorem scheduleReconnect_ends :
    s.scheduleReconnect.phase = .waiting ∨ s.scheduleReconnect.phase = .ended := by
  rw [scheduleReconnect_phase]
  split
  · exact .inl rfl
  · exact .inr rfl

theorem handleDisconnect_ends :
    ((Sync.handleDisconnect o s).phase = .waiting ∨ (Sync.handleDisconnect o s).phase = .ended) ∧
      (Sync.handleDisconnect o s).dials = s.dials := by
  unfold Sync.handleDisconnect
  dsimp only
  split
  · exact ⟨scheduleReconnect_ends, resetBudgetIfStable_dials⟩
  · exact ⟨.inr rfl, resetBudgetIfStable_dials⟩

theorem handleError_ends :
    ((Async.handleError o s).phase = .waiting ∨ (Async.handleError o s).phase = .ended) ∧
      (Async.handleError o s).dials = s.dials := by
  unfold Async.handleError
  dsimp only
  split
  · exact ⟨.inr rfl, resetBudgetIfStable_dials⟩
  · split
    · exact ⟨.inr rfl, resetBudgetIfStable_dials⟩
    · exact ⟨scheduleReconnect_ends, resetBudgetIfStable_dials⟩

theorem presses_sync : Presses (Sync.step o script) where
  up s lifetime hp := by
    unfold Sync.step
    rw [hp]
    exact handleDisconnect_ends
  waiting s hp := by
    unfold Sync.step
    rw [hp]
    dsimp only
    cases script s.dials with
    | refused => exact handleDisconnect_ends.2
    | accepted lifetime => rfl
  ended s hp := by
    unfold Sync.step
    rw [hp]
  grows s := by
    unfold Sync.step
    cases s.phase with
    | up lifetime =>
      exact (handleDisconnect_ends (s := s.drop lifetime)).2.ge
    | waiting =>
      dsimp only
      cases script s.dials with
      | refused => exact (Nat.le_succ _).trans (handleDisconnect_ends (s := s.redial)).2.ge
      | accepted lifetime => exact Nat.le_succ _
    | ended => exact le_refl _

theorem presses_async : Presses (Async.step o script) where
  up s lifetime hp := by
    unfold Async.step
    rw [hp]
    exact handleError_ends
  waiting s hp := by
    unfold Async.step
    rw [hp]
    dsimp only
    cases script s.dials with
    | refused => rfl
    | accepted lifetime => rfl
  ended s hp := by
    unfold Async.step
    rw [hp]
  grows s := by
    unfold Async.step
    cases s.phase with
    | up lifetime => exact (handleError_ends (s := s.drop lifetime)).2.ge
    | waiting =>
      dsimp only
      cases script s.dials with
      | refused => exact Nat.le_succ _
      | accepted lifetime => exact Nat.le_succ _
    | ended => exact le_refl _

theorem Presses.redials_on {step : Client → Client} (h : Presses step) (s : Client) :
    (step (step s)).phase = .ended ∨ s.dials < (step (step s)).dials := by
  cases hp : s.phase with
  | up lifetime =>
    obtain ⟨hw | ho, hd⟩ := h.up s lifetime hp
    · refine .inr ?_
      rw [h.waiting _ hw, hd]
      exact Nat.lt_succ_self _
    · refine .inl ?_
      rw [h.ended _ ho]
      exact ho
  | waiting =>
    refine .inr ?_
    have := h.waiting s hp
    have := h.grows (step s)
    omega
  | ended =>
    refine .inl ?_
    rw [h.ended s hp, h.ended s hp]
    exact hp

theorem run_succ {step : Client → Client} (k : ℕ) :
    run step first (k + 1) = step (run step first k) :=
  Function.iterate_succ_apply' ..

/-- **The run rule.**  If every state of the run keeps the counter in step, the run keeps the
budget. -/
theorem budgetLaw_of_keeps {step : Client → Client} (hpress : Presses step)
    (h : ∀ k, Drift o (run step first k)) : BudgetLaw o (run step first) where
  never_more k := (h k).redials_le
  never_fewer k ho := ((h k).ended ho).1
  disconnected k ho := ((h k).ended ho).2
  redials_on k := by
    rw [run_succ, run_succ]
    exact hpress.redials_on _

theorem drift_run {step : Client → Client}
    (hfit : ∀ k, (run step first k).reconnectAttempts ≤ 1024)
    (hstep : ∀ k, Drift o (run step first k) →
      (step (run step first k)).reconnectAttempts ≤ 1024 → Drift o (step (run step first k)))
    (k : ℕ) : Drift o (run step first k) := by
  induction k with
  | zero => exact drift_connect
  | succ k ih =>
    have hnext := hfit (k + 1)
    rw [run_succ] at hnext ⊢
    exact hstep k ih hnext

/-- A wait is one that `_do_reconnect` announced. -/
theorem async_waiting (hw : (Async.step o script s).phase = .waiting) :
    (Async.step o script s).state = .reconnecting := by
  unfold Async.step at hw ⊢
  cases hp : s.phase with
  | up lifetime =>
    simp only [hp] at hw ⊢
    unfold Async.handleError at hw ⊢
    dsimp only at hw ⊢
    split at hw
    · cases hw
    · split at hw
      · cases hw
      · rename_i hauto hlt
        rw [if_neg hauto, if_neg hlt]
        rfl
  | waiting =>
    simp only [hp] at hw
    cases hs : script s.dials with
    | refused =>
      rw [hs] at hw
      cases hw
    | accepted lifetime =>
      rw [hs] at hw
      cases hw
  | ended =>
    simp only [hp] at hw
    cases hw

theorem async_run_waiting (k : ℕ) :
    (run (Async.step o script) first k).phase = .waiting →
      (run (Async.step o script) first k).state = .reconnecting := by
  cases k with
  | zero => exact nofun
  | succ k =>
    unfold run
    rw [Function.iterate_succ_apply']
    exact async_waiting

/-- A refused redial ends `events()` with the state as it was. -/
theorem async_refused (hw : s.phase = .waiting) (hs : script s.dials = .refused) :
    (Async.step o script s).phase = .ended ∧ (Async.step o script s).state = s.state := by
  unfold Async.step
  rw [hw, hs]
  exact ⟨rfl, rfl⟩

/-! ### A redial whose delay is no float -/

/-- The counter is where a delay can be computed for it, or a thread has died of it. -/
def Fits (s : Client) : Prop :=
  s.reconnectAttempts ≤ 1024 ∨ s.phase = .ended ∧ s.state = .reconnecting

theorem fits_scheduleReconnect : Fits s.scheduleReconnect := by
  by_cases hfit : s.reconnectAttempts + 1 ≤ 1024
  · exact .inl hfit
  · exact .inr ⟨by rw [scheduleReconnect_phase, if_neg hfit], rfl⟩

theorem resetBudgetIfStable_attempts :
    s.resetBudgetIfStable.reconnectAttempts ≤ s.reconnectAttempts := by
  unfold Client.resetBudgetIfStable
  split
  · exact le_refl _
  · split
    · exact Nat.zero_le _
    · exact le_refl _

theorem fits_handleDisconnect (h : s.reconnectAttempts ≤ 1024) :
    Fits (Sync.handleDisconnect o s) := by
  unfold Sync.handleDisconnect
  dsimp only
  split
  · exact fits_scheduleReconnect
  · exact .inl (resetBudgetIfStable_attempts.trans h)

theorem fits_handleError (h : s.reconnectAttempts ≤ 1024) : Fits (Async.handleError o s) := by
  unfold Async.handleError
  dsimp only
  split
  · exact .inl (resetBudgetIfStable_attempts.trans h)
  · split
    · exact .inl (resetBudgetIfStable_attempts.trans h)
    · exact fits_scheduleReconnect

theorem fits_sync (h : Fits s) : Fits (Sync.step o script s) := by
  unfold Sync.step
  rcases h with h | ⟨hp, hstate⟩
  · cases hp : s.phase with
    | up lifetime => exact fits_handleDisconnect h
    | waiting =>
      dsimp only
      cases script s.dials with
      | refused => exact fits_handleDisconnect h
      | accepted lifetime => exact .inl h
    | ended => exact .inl h
  · rw [hp]
    exact .inr ⟨hp, hstate⟩

theorem fits_async (h : Fits s) : Fits (Async.step o script s) := by
  unfold Async.step
  rcases h with h | ⟨hp, hstate⟩
  · cases hp : s.phase with
    | up lifetime => exact fits_handleError h
    | waiting =>
      dsimp only
      cases script s.dials with
      | refused => exact .inl h
      | accepted lifetime => exact .inl h
    | ended => exact .inl h
  · rw [hp]
    exact .inr ⟨hp, hstate⟩

/-- A run that keeps the budget never dies of a delay. -/
theorem fits_run {step : Client → Client} (hstep : ∀ s, Fits s → Fits (step s))
    (hlaw : BudgetLaw o (run step first)) (k : ℕ) :
    (run step first k).reconnectAttempts ≤ 1024 := by
  have hfits : Fits (run step first k) := by
    induction k with
    | zero => exact .inl (Nat.zero_le _)
    | succ k ih =>
      rw [run_succ]
      exact hstep _ ih
  rcases hfits with h | ⟨hp, hstate⟩
  · exact h
  · have := hlaw.disconnected k hp
    rw [hstate] at this
    cases this

/-- The counter never passes the budget. -/
theorem attempts_handleDisconnect (h : s.reconnectAttempts ≤ o.maxReconnectAttempts) :
    (Sync.handleDisconnect o s).reconnectAttempts ≤ o.maxReconnectAttempts := by
  unfold Sync.handleDisconnect
  dsimp only
  split
  · rename_i hlt
    exact of_decide_eq_true (Bool.and_eq_true_iff.mp hlt).2
  · exact resetBudgetIfStable_attempts.trans h

theorem attempts_handleError (h : s.reconnectAttempts ≤ o.maxReconnectAttempts) :
    (Async.handleError o s).reconnectAttempts ≤ o.maxReconnectAttempts := by
  unfold Async.handleError
  dsimp only
  split
  · exact resetBudgetIfStable_attempts.trans h
  · split
    · exact resetBudgetIfStable_attempts.trans h
    · rename_i hlt
      exact Nat.lt_of_not_le hlt

theorem attempts_sync (h : s.reconnectAttempts ≤ o.maxReconnectAttempts) :
    (Sync.step o script s).reconnectAttempts ≤ o.maxReconnectAttempts := by
  unfold Sync.step
  cases s.phase with
  | up lifetime => exact attempts_handleDisconnect h
  | waiting =>
    dsimp only
    cases script s.dials with
    | refused => exact attempts_handleDisconnect h
    | accepted lifetime => exact h
  | ended => exact h

theorem attempts_async (h : s.reconnectAttempts ≤ o.maxReconnectAttempts) :
    (Async.step o script s).reconnectAttempts ≤ o.maxReconnectAttempts := by
  unfold Async.step
  cases s.phase with
  | up lifetime => exact attempts_handleError h
  | waiting =>
    dsimp only
    cases script s.dials with
    | refused => exact h
    | accepted lifetime => exact h
  | ended => exact h

theorem attempts_run {step : Client → Client}
    (hstep : ∀ s, s.reconnectAttempts ≤ o.maxReconnectAttempts →
      (step s).reconnectAttempts ≤ o.maxReconnectAttempts) (k : ℕ) :
    (run step first k).reconnectAttempts ≤ o.maxReconnectAttempts := by
  induction k with
  | zero => exact Nat.zero_le _
  | succ k ih =>
    rw [run_succ]
    exact hstep _ ih

end

/-- Against every script of dial outcomes, `WebSocketClient` keeps the budget exactly when it
counts 1024 redials at most before a stable socket, and `AsyncWebSocketClient` exactly when,
besides, no redial that it makes is refused; a `max_reconnect_attempts` up to 1024 bounds the
count. -/
theorem reconnect_budget (o : Options) (hauto : o.autoReconnect = true) (first : ℚ)
    (script : ℕ → DialOutcome) :
    (BudgetLaw o (run (Sync.step o script) first) ↔
      ∀ k, (run (Sync.step o script) first k).reconnectAttempts ≤ 1024) ∧
    (BudgetLaw o (run (Async.step o script) first) ↔
      (∀ k, (run (Async.step o script) first k).phase = .waiting →
        script (run (Async.step o script) first k).dials ≠ .refused) ∧
      ∀ k, (run (Async.step o script) first k).reconnectAttempts ≤ 1024) ∧
    (o.maxReconnectAttempts ≤ 1024 → ∀ k,
      (run (Sync.step o script) first k).reconnectAttempts ≤ 1024 ∧
      (run (Async.step o script) first k).reconnectAttempts ≤ 1024) := by
  refine ⟨⟨fits_run fun s => fits_sync, fun hfit => ?_⟩,
    ⟨fun hlaw => ⟨fun k hw hs => ?_, fits_run (fun s => fits_async) hlaw⟩, fun h => ?_⟩,
    fun hmax k => ⟨(attempts_run (fun s => attempts_sync) k).trans hmax,
      (attempts_run (fun s => attempts_async) k).trans hmax⟩⟩
  · exact budgetLaw_of_keeps presses_sync (drift_run hfit fun k h => drift_sync hauto h)
  · obtain ⟨hover, hstate⟩ := async_refused (o := o) hw hs
    have hdis := hlaw.disconnected (k + 1) (by rw [run_succ]; exact hover)
    rw [run_succ, hstate, async_run_waiting k hw] at hdis
    cases hdis
  · exact budgetLaw_of_keeps presses_async
      (drift_run h.2 fun k h' => drift_async hauto h' (h.1 k))

/-- Sockets that last a second, against the default budget. -/
theorem reconnect_budget_sample :
    (run (Sync.step {} fun _ => .accepted 1) 1 30).redials ≤ 10 := by
  have hlaw := reconnect_budget {} rfl 1 fun _ => .accepted 1
  exact (hlaw.1.mpr fun k => (hlaw.2.2 (by decide) k).1).never_more 30

/-- The first redial is refused: `events()` raises with nine redials of its budget left and its
state `RECONNECTING`. -/
theorem refused_redial_ends :
    let s := run (Async.step {} fun _ => .refused) 60 2
    s.phase = .ended ∧ s.redials = 1 ∧ s.state = .reconnecting := by
  decide +kernel

end SpooledSdk.Realtime.WebSocket
