/-
The retry loop of `retry.py`.

`with_retry` and `with_retry_async` are one loop, over a function that may change a state.  How
long it pauses between two attempts is left out, but not that a pause can raise: it is computed
and slept in the `except` block of the attempt before it.

* `withRetry_log` — the attempts that the loop makes, when each call of the function leaves
  one entry in a log: all but the last ended in an error that `should_retry` lets pass, and the
  loop ends as the last exactly when no pause raises.
-/
import SpooledSdk.Errors
import Mathlib.Algebra.Order.Ring.Rat
import Mathlib.Data.List.Range
import Mathlib.Tactic.Common

namespace SpooledSdk.Http

/-- `should_retry`: after `max_retries` attempts nothing is; a rate limit if it is not a plan
quota; anything else that is not final, if the request may be replayed. -/
def shouldRetry (error : PyException) (attempt maxRetries : ℕ) (idempotent : Bool) : Bool :=
  if maxRetries < attempt then false
  else
    match error with
    | .spooled e =>
      if e.isRateLimit then e.isRetryable else if !idempotent then false else e.isRetryable
    | .other _ => if !idempotent then false else true

theorem shouldRetry_bound {error : PyException} {attempt maxRetries : ℕ} {idempotent : Bool}
    (h : shouldRetry error attempt maxRetries idempotent = true) : attempt ≤ maxRetries := by
  unfold shouldRetry at h
  split at h
  · cases h
  · omega

/-- Nothing final is retried. -/
theorem shouldRetry_not_final {error : PyException} {attempt maxRetries : ℕ} {idempotent : Bool}
    (h : shouldRetry error attempt maxRetries idempotent = true) : error.isFinal = false := by
  unfold shouldRetry at h
  split at h
  · cases h
  · cases error with
    | other text => rfl
    | spooled e =>
      have hr : e.isRetryable = true := by
        dsimp only at h
        split at h
        · exact h
        · split at h
          · cases h
          · exact h
      rw [PyException.isFinal, hr]
      rfl

/-- What may have reached the server is not sent twice: only a rate limit is retried. -/
theorem shouldRetry_unsafe {error : PyException} {attempt maxRetries : ℕ}
    (h : shouldRetry error attempt maxRetries false = true) :
    error.isRetryableRateLimit = true := by
  unfold shouldRetry at h
  split at h
  · cases h
  · cases error with
    | other text => cases h
    | spooled e =>
      dsimp only at h
      split at h
      · rename_i hl
        rw [PyException.isRetryableRateLimit, hl, h]
        rfl
      · cases h

/-- The numbers from which on a result rounds to no float. -/
def floatLimit : ℚ := 2 ^ 1024 - 2 ^ 970

/-- What `calculate_delay` raises for an error without a `Retry-After`: the power is taken before
`max_delay` bounds the delay. -/
def calculateDelay (factor : ℚ) (attempt : ℕ) : Option String :=
  if floatLimit ≤ factor ^ (attempt - 1) then some "(34, 'Numerical result out of range')" else none

/-- What leaves `with_retry` as an exception: that of an attempt, or what `calculate_delay`,
`on_retry` or `sleep` has raised after it. -/
inductive Raised
  | attempt (e : PyException)
  | pause (text : String)

section

variable {σ β : Type*}

/-- The `for` loop of `with_retry`, over the attempts that are left; `pause` is what the pause
after an attempt raises. -/
def retryLoop (fn : σ → Except PyException β × σ) (pause : ℕ → PyException → Option String)
    (maxRetries : ℕ) (idempotent : Bool) :
    List ℕ → Option PyException → σ → Except Raised β × σ
  | [], lastError, s =>
    (.error (.attempt (lastError.getD (.other "Retry loop exited unexpectedly"))), s)
  | attempt :: attempts, _, s =>
    match fn s with
    | (.ok r, s') => (.ok r, s')
    | (.error e, s') =>
      if shouldRetry e attempt maxRetries idempotent then
        match pause attempt e with
        | some text => (.error (.pause text), s')
        | none => retryLoop fn pause maxRetries idempotent attempts (some e) s'
      else (.error (.attempt e), s')

/-- `with_retry` and `with_retry_async`. -/
def withRetry (fn : σ → Except PyException β × σ) (pause : ℕ → PyException → Option String)
    (maxRetries : ℕ) (idempotent : Bool) (s : σ) : Except Raised β × σ :=
  retryLoop fn pause maxRetries idempotent (List.range' 1 (maxRetries + 1)) none s

/-- No pause raises that the outcomes of the attempts bring the loop to. -/
def Pauses (fn : σ → Except PyException β × σ) (pause : ℕ → PyException → Option String)
    (maxRetries : ℕ) (idempotent : Bool) : List ℕ → σ → Prop
  | [], _ => True
  | attempt :: attempts, s =>
    ∀ e, (fn s).1 = .error e → shouldRetry e attempt maxRetries idempotent = true →
      pause attempt e = none ∧ Pauses fn pause maxRetries idempotent attempts (fn s).2

/-- An attempt that the loop lets another follow. -/
def Retried (idempotent : Bool) (out : Except PyException β) : Prop :=
  ∃ e, out = .error e ∧ e.isFinal = false ∧ (idempotent = false → e.isRetryableRateLimit = true)

theorem Retried.of_shouldRetry {e : PyException} {attempt maxRetries : ℕ} {idempotent : Bool}
    (h : shouldRetry e attempt maxRetries idempotent = true) :
    Retried idempotent (.error e : Except PyException β) := by
  refine ⟨e, rfl, shouldRetry_not_final h, ?_⟩
  rintro rfl
  exact shouldRetry_unsafe h

/-- A function that keeps `I` and puts one entry of `Sound` into a log, with its outcome. -/
structure Logs {ι : Type*} (fn : σ → Except PyException β × σ) (log : σ → List ι)
    (outcome : ι → Except PyException β) (I : σ → Prop) (Sound : ι → Prop) : Prop where
  entry : ∀ s, I s → ∃ a, log (fn s).2 = log s ++ [a] ∧ outcome a = (fn s).1 ∧ Sound a
  keeps : ∀ s, I s → I (fn s).2

variable {ι : Type*} {fn : σ → Except PyException β × σ} {pause : ℕ → PyException → Option String}
  {log : σ → List ι} {outcome : ι → Except PyException β} {I : σ → Prop} {Sound : ι → Prop}
  {maxRetries : ℕ} {idempotent : Bool}

/-- What a call ends as when it ends as an attempt. -/
def asAttempt (out : Except PyException β) : Except Raised β := out.mapError .attempt

theorem asAttempt_ne_pause (out : Except PyException β) (text : String) :
    asAttempt out ≠ .error (.pause text) := by
  cases out <;> exact nofun

/-- The entries that the loop adds: never more than attempts are left, every one but the last was
retried, and the loop ends as the last unless a pause has raised. -/
theorem retryLoop_log (hfn : Logs fn log outcome I Sound) :
    ∀ (n k : ℕ) (last : Option PyException) (s : σ), k + n = maxRetries + 1 → I s →
      ∃ as a, log (retryLoop fn pause maxRetries idempotent (List.range' k (n + 1)) last s).2 =
          log s ++ (as ++ [a]) ∧
        ((retryLoop fn pause maxRetries idempotent (List.range' k (n + 1)) last s).1 =
            asAttempt (outcome a) ↔
          Pauses fn pause maxRetries idempotent (List.range' k (n + 1)) s) ∧
        as.length ≤ n ∧ (∀ b ∈ as, Sound b ∧ Retried idempotent (outcome b)) ∧ Sound a := by
  intro n
  induction n with
  | zero =>
    intro k last s hk hI
    obtain ⟨a, hlog, hout, hsound⟩ := hfn.entry s hI
    -- the last attempt is never retried
    have hno : ∀ e, shouldRetry e k maxRetries idempotent = false := by
      intro e
      rw [Bool.eq_false_iff]
      intro h
      have := shouldRetry_bound h
      omega
    have hpauses : Pauses fn pause maxRetries idempotent (List.range' k (0 + 1)) s := by
      intro e _ hretry
      rw [hno e] at hretry
      cases hretry
    rw [List.range'_succ, retryLoop]
    split
    · rename_i r s' hr
      rw [hr] at hlog hout
      exact ⟨[], a, hlog, iff_of_true (by rw [hout]; rfl) hpauses, le_refl 0, nofun, hsound⟩
    · rename_i e s' hr
      rw [hr] at hlog hout
      rw [hno e]
      exact ⟨[], a, hlog, iff_of_true (by rw [hout]; rfl) hpauses, le_refl 0, nofun, hsound⟩
  | succ n ih =>
    intro k last s hk hI
    obtain ⟨a, hlog, hout, hsound⟩ := hfn.entry s hI
    have hI' := hfn.keeps s hI
    rw [List.range'_succ, retryLoop, Pauses]
    split
    · rename_i r s' hr
      rw [hr] at hlog hout ⊢
      exact ⟨[], a, hlog, iff_of_true (by rw [hout]; rfl) nofun, Nat.zero_le _, nofun, hsound⟩
    · rename_i e s' hr
      rw [hr] at hlog hout hI' ⊢
      split
      · rename_i hretry
        split
        · -- the pause raises in place of the attempt
          rename_i text hp
          refine ⟨[], a, hlog, iff_of_false (asAttempt_ne_pause _ _).symm fun h => ?_,
            Nat.zero_le _, nofun, hsound⟩
          have := (h e rfl hretry).1
          rw [hp] at this
          cases this
        · rename_i hp
          obtain ⟨as, b, hlog', hend, hlen, hall, hlast⟩ := ih (k + 1) (some e) s' (by omega) hI'
          refine ⟨a :: as, b, ?_, hend.trans ⟨fun h e' he' _ => ?_, fun h => (h e rfl hretry).2⟩,
            Nat.succ_le_succ hlen, fun c hc => ?_, hlast⟩
          · rw [hlog', hlog, List.append_assoc]
            rfl
          · obtain rfl := Except.error.inj he'
            exact ⟨hp, h⟩
          · obtain rfl | hc := List.mem_cons.mp hc
            · rw [hout]
              exact ⟨hsound, .of_shouldRetry hretry⟩
            · exact hall c hc
      · rename_i hretry
        refine ⟨[], a, hlog, iff_of_true (by rw [hout]; rfl) fun e' he' h => ?_, Nat.zero_le _,
          nofun, hsound⟩
        obtain rfl := Except.error.inj he'
        exact absurd h hretry

/-- The attempts of one `with_retry`. -/
theorem withRetry_log (hfn : Logs fn log outcome I Sound)
    (pause : ℕ → PyException → Option String) (maxRetries : ℕ) (idempotent : Bool) (s : σ)
    (hs : I s) :
    ∃ as a, log (withRetry fn pause maxRetries idempotent s).2 = log s ++ (as ++ [a]) ∧
      ((withRetry fn pause maxRetries idempotent s).1 = asAttempt (outcome a) ↔
        Pauses fn pause maxRetries idempotent (List.range' 1 (maxRetries + 1)) s) ∧
      as.length ≤ maxRetries ∧ (∀ b ∈ as, Sound b ∧ Retried idempotent (outcome b)) ∧ Sound a :=
  retryLoop_log hfn maxRetries 1 none s (Nat.add_comm 1 maxRetries) hs

end

end SpooledSdk.Http
