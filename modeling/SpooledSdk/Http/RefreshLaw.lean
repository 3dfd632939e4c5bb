/-
Single-flight token refresh.

* `Sound` — the thread that holds the lock is the one inside `_try_refresh_token`, and its
  marker is set while its own request runs, so it never asks for the lock again;
* `Tokens` — the tokens that the calls of a thread have read, when a proactive refresh reads the
  value that it found due;
* `single_flight` — at most one call of the endpoint for each value, none for a fresh one, and a
  replay with a newer token for each request answered 401;
* `fresh_token_replaced` — a thread that finds the old token due and then reads the fresh one.
-/
import SpooledSdk.Http.Refresh
import Mathlib.Data.List.Nodup

namespace SpooledSdk.Http.Refresh

variable {τ : Type*}

/-! ### What one step of a thread can do -/

/-- The steps of thread `t`, each with the top of the stack it is taken from. -/
inductive Move (s : Auth τ) (t : ℕ) : Kind τ → Auth τ → Prop
  | request (hc : s.calls t = []) : Move s t .request (s.put t [.request .start false none])
  | getJwtToken (hc : s.calls t = []) : Move s t .getJwtToken (s.put t [.jwt none])
  | readBefore {endpoint replaying rest}
      (hc : s.calls t = .request .start endpoint replaying :: rest) :
      Move s t .run (s.put t (.request (.before s.authToken) endpoint replaying :: rest))
  | readHeaders {before endpoint replaying rest}
      (hc : s.calls t = .request (.before before) endpoint replaying :: rest) :
      Move s t .run (s.put t (.request (.headers before s.authToken) endpoint replaying :: rest))
  | send {before sent endpoint replaying rest}
      (hc : s.calls t = .request (.headers before sent) endpoint replaying :: rest) :
      Move s t .run ((s.noteSend t sent endpoint replaying).put t
        (.request (.wire before sent) endpoint replaying :: rest))
  | acquire {before rest} (hc : s.calls t = .refresh before .want :: rest)
      (hlock : s.lock = none) :
      Move s t .run ({ s with lock := some t }.put t (.refresh before .held :: rest))
  | call {before rest} (hc : s.calls t = .refresh before .held :: rest)
      (heq : s.authToken = before) :
      Move s t .run ({ s with active := Function.update s.active t true }.put t
        (.request .start true none :: .calling before :: rest))
  | already {before rest} (hc : s.calls t = .refresh before .held :: rest)
      (hne : s.authToken ≠ before) :
      Move s t .run (s.put t (.refresh before (.leaving true) :: rest))
  | install {before token rest} (hc : s.calls t = .refresh before (.got token) :: rest) :
      Move s t .run ({ s with authToken := token }.put t (.refresh before (.config token) :: rest))
  | configure {before token rest} (hc : s.calls t = .refresh before (.config token) :: rest) :
      Move s t .run ({ s with accessToken := token }.put t
        (.refresh before (.clearing true) :: rest))
  | clear {before ok rest} (hc : s.calls t = .refresh before (.clearing ok) :: rest) :
      Move s t .run ({ s with active := Function.update s.active t false }.put t
        (.refresh before (.leaving ok) :: rest))
  | leave {before ok endpoint rejected rest}
      (hc : s.calls t = .refresh before (.leaving ok) :: .asking endpoint rejected :: rest) :
      Move s t .run ({ s with lock := none }.put t
        (if ok then .request .start endpoint (some rejected) :: rest else Auth.raised rest))
  | leaveJwt {before ok rest}
      (hc : s.calls t = .refresh before (.leaving ok) :: .jwtAsking :: rest) :
      Move s t .run ({ s with lock := none }.put t rest)
  | refreshNow {c rest} (hc : s.calls t = .jwt (some c) :: rest) :
      Move s t .run (s.put t (.refresh s.authToken .want :: .jwtAsking :: rest))
  | found {rest} (hc : s.calls t = .jwt none :: rest) :
      Move s t (.check true) ({ s with due := s.due ++ [s.accessToken] }.put t
        (.jwt (some s.accessToken) :: rest))
  | notDue {rest} (hc : s.calls t = .jwt none :: rest) : Move s t (.check false) (s.put t rest)
  | blocked {endpoint rest} (hc : s.calls t = .request .start endpoint none :: rest) :
      Move s t .blocked (s.put t (Auth.raised rest))
  | issued {before sent replaying b rest token}
      (hc : s.calls t = .request (.wire before sent) true replaying :: .calling b :: rest) :
      Move s t (.reply (.ok token)) ({ s with issued := s.issued ++ [token] }.put t
        (.refresh b (.got token) :: rest))
  | answered {before sent replaying rest token}
      (hc : s.calls t = .request (.wire before sent) false replaying :: rest) :
      Move s t (.reply (.ok token)) (s.put t rest)
  | ask {before sent endpoint rest}
      (hc : s.calls t = .request (.wire before sent) endpoint none :: rest)
      (hactive : s.active t = false) :
      Move s t (.reply .unauthorized) ((s.noteRejection t sent endpoint none).put t
        (.refresh before .want :: .asking endpoint sent :: rest))
  | refuse {before sent endpoint replaying rest}
      (hc : s.calls t = .request (.wire before sent) endpoint replaying :: rest)
      (hno : replaying ≠ none ∨ s.active t = true) :
      Move s t (.reply .unauthorized) ((s.noteRejection t sent endpoint replaying).put t
        (Auth.raised rest))
  | failed {before sent endpoint replaying rest}
      (hc : s.calls t = .request (.wire before sent) endpoint replaying :: rest) :
      Move s t (.reply .failed) (s.put t (Auth.raised rest))
  | retried {before sent endpoint replaying rest}
      (hc : s.calls t = .request (.wire before sent) endpoint replaying :: rest) :
      Move s t (.reply .retried) (s.put t (.request .start endpoint none :: rest))

section

variable {tasks : Bool} {s s' : Auth τ} {a : Action τ} {t : ℕ}

theorem move_of_run [DecidableEq τ] (h : s.run t = some s') : Move s t .run s' := by
  unfold Auth.run at h
  split at h
  · obtain rfl := Option.some_inj.mp h
    exact .readBefore ‹_›
  · obtain rfl := Option.some_inj.mp h
    exact .readHeaders ‹_›
  · obtain rfl := Option.some_inj.mp h
    exact .send ‹_›
  · split at h
    · obtain rfl := Option.some_inj.mp h
      exact .acquire ‹_› ‹_›
    · cases h
  · split at h
    · obtain rfl := Option.some_inj.mp h
      exact .call ‹_› ‹_›
    · obtain rfl := Option.some_inj.mp h
      exact .already ‹_› ‹_›
  · obtain rfl := Option.some_inj.mp h
    exact .install ‹_›
  · obtain rfl := Option.some_inj.mp h
    exact .configure ‹_›
  · obtain rfl := Option.some_inj.mp h
    exact .clear ‹_›
  · obtain rfl := Option.some_inj.mp h
    exact .leave ‹_›
  · obtain rfl := Option.some_inj.mp h
    exact .leaveJwt ‹_›
  · obtain rfl := Option.some_inj.mp h
    exact .refreshNow ‹_›
  · cases h

theorem move_of_reply {r : Reply τ} (h : s.reply t r = some s') : Move s t (.reply r) s' := by
  unfold Auth.reply at h
  split at h
  · obtain rfl := Option.some_inj.mp h
    exact .issued ‹_›
  · obtain rfl := Option.some_inj.mp h
    exact .answered ‹_›
  · rename_i before sent endpoint replaying rest hc
    dsimp only at h
    split at h
    · rename_i hask
      obtain rfl := Option.some_inj.mp h
      rw [Bool.and_eq_true, Option.isNone_iff_eq_none, Bool.not_eq_true'] at hask
      obtain ⟨rfl, hactive⟩ := hask
      exact .ask hc hactive
    · rename_i hask
      obtain rfl := Option.some_inj.mp h
      refine .refuse hc ?_
      rw [Bool.and_eq_true, Option.isNone_iff_eq_none, Bool.not_eq_true', not_and,
        Bool.not_eq_false] at hask
      by_cases hr : replaying = none
      · exact .inr (hask hr)
      · exact .inl hr
  · obtain rfl := Option.some_inj.mp h
    exact .failed ‹_›
  · obtain rfl := Option.some_inj.mp h
    exact .retried ‹_›
  · cases h

/-- **Inversion.**  A step is a move of its thread, which then goes on until it waits. -/
theorem move_of_step [DecidableEq τ] (h : s.step tasks a = some s') :
    ∃ s₁, Move s a.thread a.kind s₁ ∧ s' = s₁.settle a.thread ∧
      (tasks = true → ∀ t ∈ s.running, t = a.thread) := by
  unfold Auth.step at h
  split at h
  · cases h
  · rename_i hturn
    obtain ⟨s₁, hact, rfl⟩ := Option.map_eq_some_iff.mp h
    refine ⟨s₁, ?_, rfl, fun htasks t ht => ?_⟩
    · cases hk : a.kind with
      | request =>
        simp only [hk, Auth.act] at hact
        split at hact
        · rename_i hempty
          obtain rfl := Option.some_inj.mp hact
          exact .request (List.isEmpty_iff.mp hempty)
        · cases hact
      | getJwtToken =>
        simp only [hk, Auth.act] at hact
        split at hact
        · rename_i hempty
          obtain rfl := Option.some_inj.mp hact
          exact .getJwtToken (List.isEmpty_iff.mp hempty)
        · cases hact
      | run =>
        simp only [hk, Auth.act] at hact
        exact move_of_run hact
      | check due =>
        simp only [hk, Auth.act] at hact
        split at hact
        · cases due with
          | true =>
            obtain rfl := Option.some_inj.mp hact
            exact .found ‹_›
          | false =>
            obtain rfl := Option.some_inj.mp hact
            exact .notDue ‹_›
        · cases hact
      | blocked =>
        simp only [hk, Auth.act] at hact
        split at hact
        · obtain rfl := Option.some_inj.mp hact
          exact .blocked ‹_›
        · cases hact
      | reply r =>
        simp only [hk, Auth.act] at hact
        exact move_of_reply hact
    · by_contra hne
      exact hturn ⟨htasks, t, ht, hne⟩

end

/-! ### The lock and the marker -/

/-- The frame is between the acquisition of the lock and its release. -/
def Call.holds : Call τ → Bool
  | .refresh _ .want => false
  | .refresh _ _ | .calling _ => true
  | _ => false

/-- The frame is between the two writes of the marker. -/
def Call.inside : Call τ → Bool
  | .refresh _ (.got _) | .refresh _ (.config _) | .refresh _ (.clearing _) | .calling _ => true
  | _ => false

/-- What waits for `_try_refresh_token`. -/
inductive Caller : List (Call τ) → Prop
  | request (rejected : τ) : Caller [.asking false rejected]
  | jwt : Caller [.jwtAsking]

/-- The stacks that a thread can have. -/
inductive Shape : List (Call τ) → Prop
  | idle : Shape []
  | request (stage : RequestStage τ) (replaying : Option τ) :
    Shape [.request stage false replaying]
  | jwt (due : Option τ) : Shape [.jwt due]
  | refresh (before : τ) (stage : RefreshStage τ) {rest} (h : Caller rest) :
    Shape (.refresh before stage :: rest)
  | calling (stage : RequestStage τ) (before : τ) {rest} (h : Caller rest) :
    Shape (.request stage true none :: .calling before :: rest)

/-- The lock and the markers say where the threads are. -/
structure Sound (s : Auth τ) : Prop where
  shape : ∀ t, Shape (s.calls t)
  lock : ∀ t, s.lock = some t ↔ (s.calls t).any Call.holds = true
  active : ∀ t, s.active t = (s.calls t).any Call.inside

section

variable {tasks : Bool} {token₀ : τ} {s s' : Auth τ} {a : Action τ} {t : ℕ} {k : Kind τ}
  {cs : List (Call τ)}

theorem Sound.init [DecidableEq τ] : Sound (system tasks token₀).init :=
  ⟨fun _ => .idle, fun _ => ⟨nofun, nofun⟩, fun _ => rfl⟩

/-- The frame rule: a step changes one stack, keeps the lock or takes or frees it for that
stack, and writes no other thread's marker. -/
theorem Sound.of_put (h : Sound s) (hcalls : s'.calls = Function.update s.calls t cs)
    (hshape : Shape cs)
    (hlock : (s'.lock = s.lock ∧ cs.any Call.holds = (s.calls t).any Call.holds) ∨
      (s.lock = none ∧ s'.lock = some t ∧ cs.any Call.holds = true) ∨
      ((s.calls t).any Call.holds = true ∧ s'.lock = none ∧ cs.any Call.holds = false))
    (hactive : ∀ u, s'.active u = if u = t then cs.any Call.inside else s.active u) :
    Sound s' := by
  have hself : s'.calls t = cs := by rw [hcalls, Function.update_self]
  have hother : ∀ u, u ≠ t → s'.calls u = s.calls u := fun u hu => by
    rw [hcalls, Function.update_of_ne hu]
  refine ⟨fun u => ?_, fun u => ?_, fun u => ?_⟩
  · by_cases hu : u = t
    · rw [hu, hself]
      exact hshape
    · rw [hother u hu]
      exact h.shape u
  · have hu := h.lock u
    have ht := h.lock t
    by_cases hut : u = t
    · subst hut
      rw [hself]
      obtain ⟨hl, hh⟩ | ⟨hn, hl, hh⟩ | ⟨hn, hl, hh⟩ := hlock
      · rw [hl, hh]
        exact hu
      · rw [hl, hh]
        exact iff_of_true rfl rfl
      · rw [hl, hh]
        exact iff_of_false (fun hc => by cases hc) Bool.false_ne_true
    · rw [hother u hut]
      obtain ⟨hl, -⟩ | ⟨hn, hl, -⟩ | ⟨hn, hl, -⟩ := hlock
      · rw [hl]
        exact hu
      · rw [hn] at hu
        rw [hl, Option.some_inj, ← hu]
        exact iff_of_false (fun hc => hut hc.symm) (fun hc => by cases hc)
      · rw [ht.mpr hn, Option.some_inj] at hu
        rw [hl, ← hu]
        exact iff_of_false (fun hc => by cases hc) (fun hc => hut hc.symm)
  · rw [hactive u]
    split
    · rename_i hut
      rw [hut, hself]
    · rename_i hut
      rw [hother u hut]
      exact h.active u

/-- A step of one stack that leaves the lock and the markers alone. -/
theorem Sound.of_quiet (h : Sound s) (hcalls : s'.calls = Function.update s.calls t cs)
    (hshape : Shape cs) (hlock : s'.lock = s.lock) (hactive : s'.active = s.active)
    (hholds : cs.any Call.holds = (s.calls t).any Call.holds)
    (hinside : cs.any Call.inside = (s.calls t).any Call.inside) : Sound s' := by
  refine h.of_put hcalls hshape (.inl ⟨hlock, hholds⟩) fun u => ?_
  rw [hactive, hinside]
  split
  · rename_i hut
    rw [hut]
    exact h.active t
  · rfl

theorem Caller.free {rest : List (Call τ)} (h : Caller rest) :
    rest.any Call.holds = false ∧ rest.any Call.inside = false := by
  cases h <;> exact ⟨rfl, rfl⟩

/-- What remains when a request raises. -/
theorem Sound.raised (h : Sound s) (hcalls : s'.calls = Function.update s.calls t cs)
    {stage : RequestStage τ} {endpoint : Bool} {replaying : Option τ} {rest : List (Call τ)}
    (hc : s.calls t = .request stage endpoint replaying :: rest) (hcs : cs = Auth.raised rest)
    (hlock : s'.lock = s.lock) (hactive : s'.active = s.active) : Sound s' := by
  have hs := h.shape t
  rw [hc] at hs
  subst hcs
  cases hs with
  | request => exact h.of_quiet hcalls .idle hlock hactive (by rw [hc]; rfl) (by rw [hc]; rfl)
  | calling stage b hcaller =>
    exact h.of_quiet hcalls (.refresh _ _ hcaller) hlock hactive (by rw [hc]; rfl)
      (by rw [hc]; rfl)

/-- A request goes on to another stage. -/
theorem Sound.stage (h : Sound s) (hcalls : s'.calls = Function.update s.calls t cs)
    {stage stage' : RequestStage τ} {endpoint : Bool} {replaying : Option τ}
    {rest : List (Call τ)} (hc : s.calls t = .request stage endpoint replaying :: rest)
    (hcs : cs = .request stage' endpoint replaying :: rest)
    (hlock : s'.lock = s.lock) (hactive : s'.active = s.active) : Sound s' := by
  have hs := h.shape t
  rw [hc] at hs
  subst hcs
  cases hs with
  | request =>
    exact h.of_quiet hcalls (.request _ _) hlock hactive (by rw [hc]; rfl) (by rw [hc]; rfl)
  | calling stage b hcaller =>
    exact h.of_quiet hcalls (.calling _ _ hcaller) hlock hactive (by rw [hc]; rfl)
      (by rw [hc]; rfl)

theorem noteSend_same {sent : τ} {endpoint : Bool} {replaying : Option τ} :
    (s.noteSend t sent endpoint replaying).calls = s.calls ∧
      (s.noteSend t sent endpoint replaying).lock = s.lock ∧
      (s.noteSend t sent endpoint replaying).active = s.active := by
  unfold Auth.noteSend
  cases replaying <;> cases endpoint <;> exact ⟨rfl, rfl, rfl⟩

/-- **The step lemma.** -/
theorem sound_move (h : Sound s) (hm : Move s t k s') : Sound s' := by
  have hs := h.shape t
  -- a marker that is written is the thread's own
  have hmark : ∀ (b : Bool) (u : ℕ), Function.update s.active t b u =
      if u = t then b else s.active u := fun b u => Function.update_apply ..
  cases hm with
  | request hc => exact h.of_quiet rfl (.request _ _) rfl rfl (by rw [hc]; rfl) (by rw [hc]; rfl)
  | getJwtToken hc => exact h.of_quiet rfl (.jwt _) rfl rfl (by rw [hc]; rfl) (by rw [hc]; rfl)
  | readBefore hc => exact h.stage rfl hc rfl rfl rfl
  | readHeaders hc => exact h.stage rfl hc rfl rfl rfl
  | send hc =>
    obtain ⟨hcalls, hlock, hactive⟩ := noteSend_same (s := s) (t := t)
    exact h.stage (congrArg (Function.update · t _) hcalls) hc rfl hlock hactive
  | acquire hc hlock =>
    rw [hc] at hs
    cases hs with
    | refresh _ _ hcaller =>
      refine h.of_put rfl (.refresh _ _ hcaller) (.inr (.inl ⟨hlock, rfl, rfl⟩)) fun u => ?_
      split
      · rename_i hu
        have := h.active t
        rw [hc] at this
        rw [hu]
        exact this
      · rfl
  | call hc heq =>
    rw [hc] at hs
    cases hs with
    | refresh _ _ hcaller =>
      refine h.of_put rfl (.calling _ _ hcaller) (.inl ⟨rfl, by rw [hc]; rfl⟩) fun u => ?_
      exact hmark true u
  | already hc hne =>
    rw [hc] at hs
    cases hs with
    | refresh _ _ hcaller =>
      exact h.of_quiet rfl (.refresh _ _ hcaller) rfl rfl (by rw [hc]; rfl) (by rw [hc]; rfl)
  | install hc =>
    rw [hc] at hs
    cases hs with
    | refresh _ _ hcaller =>
      exact h.of_quiet rfl (.refresh _ _ hcaller) rfl rfl (by rw [hc]; rfl) (by rw [hc]; rfl)
  | configure hc =>
    rw [hc] at hs
    cases hs with
    | refresh _ _ hcaller =>
      exact h.of_quiet rfl (.refresh _ _ hcaller) rfl rfl (by rw [hc]; rfl) (by rw [hc]; rfl)
  | clear hc =>
    rw [hc] at hs
    cases hs with
    | refresh _ _ hcaller =>
      refine h.of_put rfl (.refresh _ _ hcaller) (.inl ⟨rfl, by rw [hc]; rfl⟩) fun u => ?_
      rw [List.any_cons, hcaller.free.2]
      exact hmark false u
  | leave hc =>
    rename_i ok endpoint rejected rest
    rw [hc] at hs
    cases hs with
    | refresh _ _ hcaller =>
      cases hcaller
      have hheld : (s.calls t).any Call.holds = true := by rw [hc]; rfl
      have hquiet : ∀ u, s.active u = if u = t then false else s.active u := by
        intro u
        split
        · rename_i hu
          rw [hu, h.active t, hc]
          rfl
        · rfl
      cases ok with
      | true => exact h.of_put rfl (.request _ _) (.inr (.inr ⟨hheld, rfl, rfl⟩)) hquiet
      | false => exact h.of_put rfl .idle (.inr (.inr ⟨hheld, rfl, rfl⟩)) hquiet
  | leaveJwt hc =>
    rw [hc] at hs
    cases hs with
    | refresh _ _ hcaller =>
      cases hcaller
      have hheld : (s.calls t).any Call.holds = true := by rw [hc]; rfl
      refine h.of_put rfl .idle (.inr (.inr ⟨hheld, rfl, rfl⟩)) fun u => ?_
      split
      · rename_i hu
        have := h.active t
        rw [hc] at this
        rw [hu]
        exact this
      · rfl
  | refreshNow hc =>
    rw [hc] at hs
    cases hs
    exact h.of_quiet rfl (.refresh _ _ .jwt) rfl rfl (by rw [hc]; rfl) (by rw [hc]; rfl)
  | found hc =>
    rw [hc] at hs
    cases hs
    exact h.of_quiet rfl (.jwt _) rfl rfl (by rw [hc]; rfl) (by rw [hc]; rfl)
  | notDue hc =>
    rw [hc] at hs
    cases hs
    exact h.of_quiet rfl .idle rfl rfl (by rw [hc]; rfl) (by rw [hc]; rfl)
  | blocked hc => exact h.raised rfl hc rfl rfl rfl
  | issued hc =>
    rw [hc] at hs
    cases hs with
    | calling _ _ hcaller =>
      exact h.of_quiet rfl (.refresh _ _ hcaller) rfl rfl (by rw [hc]; rfl) (by rw [hc]; rfl)
  | answered hc =>
    rw [hc] at hs
    cases hs
    exact h.of_quiet rfl .idle rfl rfl (by rw [hc]; rfl) (by rw [hc]; rfl)
  | ask hc hactive =>
    rw [hc] at hs
    cases hs with
    | request =>
      exact h.of_quiet rfl (.refresh _ _ (.request _)) rfl rfl (by rw [hc]; rfl)
        (by rw [hc]; rfl)
    | calling _ _ hcaller =>
      -- the marker of this thread is set: its request does not ask
      have := h.active t
      rw [hc, hactive] at this
      cases this
  | refuse hc hno => exact h.raised rfl hc rfl rfl rfl
  | failed hc => exact h.raised rfl hc rfl rfl rfl
  | retried hc =>
    rw [hc] at hs
    cases hs with
    | request =>
      exact h.of_quiet rfl (.request _ _) rfl rfl (by rw [hc]; rfl) (by rw [hc]; rfl)
    | calling _ _ hcaller =>
      exact h.of_quiet rfl (.calling _ _ hcaller) rfl rfl (by rw [hc]; rfl) (by rw [hc]; rfl)

theorem sound_of_reachable [DecidableEq τ] {ok : Auth τ → Action τ → Prop}
    (h : (system tasks token₀).Reachable ok s) : Sound s := by
  refine h.invariant Sound.init fun s a s' hs _ hstep => ?_
  obtain ⟨s₁, hm, rfl, -⟩ := move_of_step hstep
  have h₁ := sound_move hs hm
  exact ⟨h₁.shape, h₁.lock, h₁.active⟩

end

/-! ### The tokens -/

/-- What is assumed of the server: the endpoint answers every call, with a token that is new;
no token that it issued is rejected or due. -/
def Assumed [DecidableEq τ] (token₀ : τ) (s : Auth τ) (a : Action τ) : Bool :=
  match a.kind, s.calls a.thread with
  | .reply (.ok token), .request (.wire _ _) true _ :: _ => decide (token ∉ token₀ :: s.issued)
  | .reply _, .request (.wire _ _) true _ :: _ => false
  | .reply .unauthorized, .request (.wire _ sent) false _ :: _ => decide (sent ∉ s.issued)
  | .blocked, .request _ true _ :: _ => false
  | .check true, _ => decide (s.accessToken ∉ s.issued)
  | _, _ => true

/-- A proactive refresh reads the value that it found due. -/
def Current [DecidableEq τ] (s : Auth τ) (a : Action τ) : Bool :=
  match a.kind, s.calls a.thread with
  | .run, .jwt (some due) :: _ => decide (s.authToken = due)
  | _, _ => true

/-- The first token is replaced by then, where a request has seen another one. -/
def RequestStage.Ok (token₀ : τ) (s : Auth τ) : RequestStage τ → Prop
  | .start => True
  | .before b => b = token₀ ∨ s.authToken ≠ token₀
  | .headers b sent | .wire b sent => (sent = token₀ → b = token₀) ∧ sent ∈ token₀ :: s.issued

/-- A replay carries another token than the first. -/
def RequestStage.newer (token₀ : τ) : RequestStage τ → Prop
  | .headers _ sent | .wire _ sent => sent ≠ token₀
  | _ => True

def RefreshStage.Ok (token₀ : τ) (s : Auth τ) : RefreshStage τ → Prop
  | .want | .held => True
  | .got token => token ∈ s.issued ∧ s.authToken = token₀ ∧ s.refreshes = [token₀]
  | .config token => token ∈ s.issued ∧ s.authToken ≠ token₀
  | .clearing ok | .leaving ok => ok = true ∧ s.authToken ≠ token₀

/-- The first token was rejected or found due. -/
def Spoiled (token₀ : τ) (s : Auth τ) : Prop := token₀ ∈ s.rejected ∨ token₀ ∈ s.due

/-- What a call of a thread has read; only the first token is ever to be replaced. -/
def Call.Ok (token₀ : τ) (s : Auth τ) : Call τ → Prop
  | .request stage _ replaying => stage.Ok token₀ s ∧
    ∀ rejected ∈ replaying, rejected = token₀ ∧ s.authToken ≠ token₀ ∧ stage.newer token₀
  | .asking _ rejected => rejected = token₀
  | .refresh before stage => before = token₀ ∧ Spoiled token₀ s ∧ stage.Ok token₀ s
  | .calling before => before = token₀ ∧ Spoiled token₀ s ∧ s.authToken = token₀
  | .jwt (some due) => due = token₀ ∧ token₀ ∈ s.due
  | .jwt none | .jwtAsking => True

/-- The endpoint has been called and its token is not installed. -/
def sentOn : List (Call τ) → Bool
  | .request (.wire _ _) true _ :: _ | .refresh _ (.got _) :: _ => true
  | _ => false

/-- The tokens of the client and of its calls. -/
structure Tokens (token₀ : τ) (s : Auth τ) : Prop where
  fresh : token₀ ∉ s.issued
  auth : s.authToken ∈ token₀ :: s.issued
  access : s.accessToken ∈ token₀ :: s.issued
  frames : ∀ t, ∀ c ∈ s.calls t, c.Ok token₀ s
  replaced : s.authToken ≠ token₀ → s.refreshes = [token₀] ∧ Spoiled token₀ s
  unsent : s.authToken = token₀ → (∀ t, sentOn (s.calls t) = false) → s.refreshes = []
  sent : ∀ t, sentOn (s.calls t) = true → s.authToken = token₀ ∧ s.refreshes = [token₀]
  replayed : ∀ p ∈ s.replayed, p.1 = token₀ ∧ p.2 ∈ s.issued

/-- What only grows. -/
structure Grows (token₀ : τ) (s s' : Auth τ) : Prop where
  issued : s.issued ⊆ s'.issued
  rejected : s.rejected ⊆ s'.rejected
  due : s.due ⊆ s'.due
  auth : s.authToken ≠ token₀ → s'.authToken ≠ token₀

section

variable {tasks : Bool} {token₀ : τ} {s s' : Auth τ} {a : Action τ} {t : ℕ} {k : Kind τ}
  {cs : List (Call τ)}

theorem Grows.spoiled (hg : Grows token₀ s s') (h : Spoiled token₀ s) : Spoiled token₀ s' :=
  h.imp (fun hr => hg.rejected hr) fun hd => hg.due hd

theorem Grows.known (hg : Grows token₀ s s') {token : τ} (h : token ∈ token₀ :: s.issued) :
    token ∈ token₀ :: s'.issued :=
  List.cons_subset_cons _ hg.issued h

theorem RequestStage.Ok.mono {stage : RequestStage τ} (h : stage.Ok token₀ s)
    (hg : Grows token₀ s s') : stage.Ok token₀ s' := by
  cases stage with
  | start => trivial
  | before b =>
    change b = token₀ ∨ s.authToken ≠ token₀ at h
    exact Or.imp_right hg.auth h
  | headers before sent => exact ⟨h.1, hg.known h.2⟩
  | wire before sent => exact ⟨h.1, hg.known h.2⟩

/-- What a call has read stays so while other threads go on. -/
theorem Call.Ok.mono {c : Call τ} (h : c.Ok token₀ s) (hg : Grows token₀ s s')
    (hholds : c.holds = true → s'.authToken = s.authToken ∧ s'.refreshes = s.refreshes) :
    c.Ok token₀ s' := by
  cases c with
  | request stage endpoint replaying =>
    refine ⟨h.1.mono hg, fun rejected hr => ?_⟩
    obtain ⟨heq, hne, hnew⟩ := h.2 rejected hr
    exact ⟨heq, hg.auth hne, hnew⟩
  | asking endpoint rejected => exact h
  | refresh before stage =>
    obtain ⟨hb, hs, hst⟩ := h
    refine ⟨hb, hg.spoiled hs, ?_⟩
    cases stage with
    | want | held => trivial
    -- no other thread installs a token while this one is inside
    | got token =>
      obtain ⟨hauth, hrefr⟩ := hholds rfl
      exact ⟨hg.issued hst.1, hauth.trans hst.2.1, hrefr.trans hst.2.2⟩
    | config token => exact ⟨hg.issued hst.1, hg.auth hst.2⟩
    | clearing ok => exact ⟨hst.1, hg.auth hst.2⟩
    | leaving ok => exact ⟨hst.1, hg.auth hst.2⟩
  | calling before =>
    obtain ⟨hb, hs, hst⟩ := h
    exact ⟨hb, hg.spoiled hs, (hholds rfl).1.trans hst⟩
  | jwt due =>
    cases due with
    | none => trivial
    | some due => exact ⟨h.1, hg.due h.2⟩
  | jwtAsking => trivial

/-- Only one thread is inside `_try_refresh_token`. -/
theorem Sound.unique (h : Sound s) {u : ℕ} (ht : (s.calls t).any Call.holds = true)
    (hu : (s.calls u).any Call.holds = true) : u = t := by
  have hlock := (h.lock t).mpr ht
  rw [(h.lock u).mpr hu, Option.some_inj] at hlock
  exact hlock

/-- The frame rule for what the calls have read. -/
theorem Tokens.frames_of_put (h : Tokens token₀ s) (hsound : Sound s)
    (hcalls : s'.calls = Function.update s.calls t cs) (hg : Grows token₀ s s')
    (hmine : (s'.authToken = s.authToken ∧ s'.refreshes = s.refreshes) ∨
      (s.calls t).any Call.holds = true)
    (hok : ∀ c ∈ cs, c.Ok token₀ s') : ∀ u, ∀ c ∈ s'.calls u, c.Ok token₀ s' := by
  intro u c hc
  rw [hcalls] at hc
  by_cases hu : u = t
  · rw [hu, Function.update_self] at hc
    exact hok c hc
  · rw [Function.update_of_ne hu] at hc
    refine (h.frames u c hc).mono hg fun hh => ?_
    obtain hsame | hheld := hmine
    · exact hsame
    · exact absurd (hsound.unique hheld (List.any_eq_true.mpr ⟨c, hc, hh⟩)) hu

/-- A step that neither calls the endpoint nor installs a token. -/
theorem Tokens.of_quiet (h : Tokens token₀ s) (hsound : Sound s)
    (hcalls : s'.calls = Function.update s.calls t cs) (hg : Grows token₀ s s')
    (hfresh : token₀ ∉ s'.issued) (hauth : s'.authToken = s.authToken)
    (haccess : s'.accessToken ∈ token₀ :: s'.issued) (hrefr : s'.refreshes = s.refreshes)
    (hsent : sentOn cs = sentOn (s.calls t))
    (hreplayed : ∀ p ∈ s'.replayed, p.1 = token₀ ∧ p.2 ∈ s'.issued)
    (hok : ∀ c ∈ cs, c.Ok token₀ s') : Tokens token₀ s' := by
  have hsame : ∀ u, sentOn (s'.calls u) = sentOn (s.calls u) := by
    intro u
    rw [hcalls, Function.update_apply]
    split
    · rename_i hu
      rw [hu, hsent]
    · rfl
  refine ⟨hfresh, ?_, haccess, h.frames_of_put hsound hcalls hg (.inl ⟨hauth, hrefr⟩) hok,
    fun hne => ?_, fun heq hall => ?_, fun u hu => ?_, hreplayed⟩
  · rw [hauth]
    exact hg.known h.auth
  · rw [hauth] at hne
    rw [hrefr]
    exact ⟨(h.replaced hne).1, hg.spoiled (h.replaced hne).2⟩
  · rw [hauth] at heq
    rw [hrefr]
    exact h.unsent heq fun u => (hsame u).symm.trans (hall u)
  · rw [hauth, hrefr]
    exact h.sent u ((hsame u).symm.trans hu)

/-- A step that changes only what the thread does. -/
theorem Tokens.of_calls (h : Tokens token₀ s) (hsound : Sound s)
    (hcalls : s'.calls = Function.update s.calls t cs)
    (hsame : s'.issued = s.issued ∧ s'.authToken = s.authToken ∧
      s'.accessToken = s.accessToken ∧ s'.refreshes = s.refreshes ∧ s'.rejected = s.rejected ∧
      s'.due = s.due ∧ s'.replayed = s.replayed)
    (hsent : sentOn cs = sentOn (s.calls t)) (hok : ∀ c ∈ cs, c.Ok token₀ s') :
    Tokens token₀ s' := by
  obtain ⟨hi, ha, hc, hr, hrej, hdue, hrep⟩ := hsame
  refine h.of_quiet hsound hcalls ⟨?_, ?_, ?_, ?_⟩ ?_ ha ?_ hr hsent ?_ hok
  · rw [hi]
    exact List.Subset.refl _
  · rw [hrej]
    exact List.Subset.refl _
  · rw [hdue]
    exact List.Subset.refl _
  · rw [ha]
    exact id
  · rw [hi]
    exact h.fresh
  · rw [hc, hi]
    exact h.access
  · rw [hrep, hi]
    exact h.replayed

@[simp] theorem put_self : (s.put t cs).calls t = cs := Function.update_self ..

theorem put_of_ne {u : ℕ} (h : u ≠ t) : (s.put t cs).calls u = s.calls u :=
  Function.update_of_ne h ..

theorem Tokens.tail (h : Tokens token₀ s) {top : Call τ} {rest : List (Call τ)}
    (hc : s.calls t = top :: rest) : top.Ok token₀ s ∧ ∀ c ∈ rest, c.Ok token₀ s := by
  have := h.frames t
  rw [hc] at this
  exact List.forall_mem_cons.mp this

theorem sentOn_holds (hs : Shape cs) (h : sentOn cs = true) : cs.any Call.holds = true := by
  cases hs with
  | idle => cases h
  | request stage replaying => cases stage <;> cases h
  | jwt due => cases h
  | refresh before stage hcaller =>
    cases stage with
    | got token => rfl
    | _ => cases h
  | calling stage before hcaller => rfl

/-- While one thread is inside `_try_refresh_token` no other has called the endpoint. -/
theorem Sound.sentOn_unique (h : Sound s) {u : ℕ} (ht : (s.calls t).any Call.holds = true)
    (hu : sentOn (s.calls u) = true) : u = t :=
  h.unique ht (sentOn_holds (h.shape u) hu)

/-- The endpoint is called. -/
theorem Tokens.send (h : Tokens token₀ s) (hsound : Sound s) {b sent : τ}
    {endpoint : Bool} {replaying : Option τ} {rest : List (Call τ)}
    (hc : s.calls t = .request (.headers b sent) endpoint replaying :: rest) :
    Tokens token₀ ((s.noteSend t sent endpoint replaying).put t
      (.request (.wire b sent) endpoint replaying :: rest)) := by
  obtain ⟨⟨hstage, hrep⟩, hrest⟩ := h.tail hc
  have hs := hsound.shape t
  rw [hc] at hs
  cases hs with
  | request =>
    -- a request of the application, whose replay carries another token
    have hframes : ∀ c ∈ [Call.request (.wire b sent) false replaying], c.Ok token₀ s :=
      List.forall_mem_singleton.mpr ⟨hstage, hrep⟩
    cases replaying with
    | none =>
      exact h.of_calls hsound rfl ⟨rfl, rfl, rfl, rfl, rfl, rfl, rfl⟩ (by rw [hc]; rfl) hframes
    | some rejected =>
      obtain ⟨hrej, hne, hnew⟩ := hrep rejected rfl
      refine h.of_quiet hsound rfl ⟨List.Subset.refl _, List.Subset.refl _, List.Subset.refl _, id⟩
        h.fresh rfl h.access rfl (by rw [hc]; rfl) ?_ hframes
      intro p hp
      obtain hp | hp := List.mem_append.mp hp
      · exact h.replayed p hp
      · rw [List.mem_singleton.mp hp]
        exact ⟨hrej, (List.mem_cons.mp hstage.2).resolve_left hnew⟩
  | calling stage before hcaller =>
    -- the request of a refresh: nobody else has called the endpoint
    have hheld : (s.calls t).any Call.holds = true := by rw [hc]; rfl
    have hcall : (Call.calling before).Ok token₀ s := hrest _ List.mem_cons_self
    have hnone : ∀ u, sentOn (s.calls u) = false := by
      intro u
      cases hu : sentOn (s.calls u) with
      | false => rfl
      | true =>
        have := hsound.sentOn_unique hheld hu
        rw [this, hc] at hu
        cases hu
    have hrefr : s.refreshes ++ [s.authToken] = [token₀] := by
      rw [h.unsent hcall.2.2 hnone, hcall.2.2, List.nil_append]
    rename_i rest
    have hg : Grows token₀ s ((s.noteSend t sent true none).put t
        (.request (.wire b sent) true none :: .calling before :: rest)) :=
      ⟨List.Subset.refl _, List.Subset.refl _, List.Subset.refl _, id⟩
    refine ⟨h.fresh, h.auth, h.access, h.frames_of_put hsound rfl hg (.inr hheld) ?_,
      fun hne => absurd hcall.2.2 hne, fun _ hall => ?_, fun _ _ => ⟨hcall.2.2, hrefr⟩, h.replayed⟩
    · refine List.forall_mem_cons.mpr ⟨⟨hstage, hrep⟩, fun c hcm => ?_⟩
      obtain rfl | hcm' := List.mem_cons.mp hcm
      · exact hcall
      · refine (hrest c hcm).mono hg fun hh => ?_
        have := List.any_eq_false.mp hcaller.free.1 c hcm'
        exact absurd hh this
    · have := hall t
      rw [put_self] at this
      cases this

/-- The token of the endpoint is installed. -/
theorem Tokens.install (h : Tokens token₀ s) (hsound : Sound s) {before token : τ}
    {rest : List (Call τ)} (hc : s.calls t = .refresh before (.got token) :: rest) :
    Tokens token₀ ({ s with authToken := token }.put t
      (.refresh before (.config token) :: rest)) := by
  obtain ⟨⟨hb, hspoiled, hissued, hauth, hrefr⟩, hrest⟩ := h.tail hc
  have hheld : (s.calls t).any Call.holds = true := by rw [hc]; rfl
  have hne : token ≠ token₀ := fun heq => h.fresh (heq ▸ hissued)
  have hg : Grows token₀ s ({ s with authToken := token }.put t
      (.refresh before (.config token) :: rest)) :=
    ⟨List.Subset.refl _, List.Subset.refl _, List.Subset.refl _, fun _ => hne⟩
  refine ⟨h.fresh, List.mem_cons_of_mem _ hissued, h.access,
    h.frames_of_put hsound rfl hg (.inr hheld) ?_, fun _ => ⟨hrefr, hspoiled⟩,
    fun heq => absurd heq hne, fun u hu => ?_, h.replayed⟩
  · refine List.forall_mem_cons.mpr ⟨⟨hb, hspoiled, hissued, hne⟩, fun c hcm => ?_⟩
    refine (hrest c hcm).mono hg fun hh => ?_
    have hs := hsound.shape t
    rw [hc] at hs
    cases hs with
    | refresh _ _ hcaller => exact absurd hh (List.any_eq_false.mp hcaller.free.1 c hcm)
  · by_cases hut : u = t
    · subst hut
      rw [put_self] at hu
      cases hu
    · rw [put_of_ne hut] at hu
      exact absurd (hsound.sentOn_unique hheld hu) hut

/-- No request is answered 401 that may not ask for a new token. -/
theorem Tokens.not_refused [DecidableEq τ] (h : Tokens token₀ s) (hsound : Sound s) {b sent : τ}
    {endpoint : Bool} {replaying : Option τ} {rest : List (Call τ)}
    (hass : Assumed token₀ s ⟨t, .reply .unauthorized⟩ = true)
    (hc : s.calls t = .request (.wire b sent) endpoint replaying :: rest)
    (hno : replaying ≠ none ∨ s.active t = true) : False := by
  obtain ⟨⟨⟨-, hmem⟩, hrep⟩, -⟩ := h.tail hc
  have hs := hsound.shape t
  rw [hc] at hs
  cases hs with
  | request =>
    simp only [Assumed, hc, decide_eq_true_eq] at hass
    obtain hr | hactive := hno
    · obtain ⟨rejected, rfl⟩ := Option.ne_none_iff_exists'.mp hr
      exact hass ((List.mem_cons.mp hmem).resolve_left (hrep rejected rfl).2.2)
    · have := hsound.active t
      rw [hc, hactive] at this
      cases this
  | calling => simp only [Assumed, hc, Bool.false_eq_true] at hass

/-- A request of the application that ends, by whatever answer. -/
theorem Tokens.ended (h : Tokens token₀ s) (hsound : Sound s) {stage : RequestStage τ}
    {replaying : Option τ} {rest : List (Call τ)}
    (hc : s.calls t = .request stage false replaying :: rest) :
    Tokens token₀ (s.put t (Auth.raised rest)) := by
  have hs := hsound.shape t
  rw [hc] at hs
  cases hs
  refine h.of_calls hsound rfl ⟨rfl, rfl, rfl, rfl, rfl, rfl, rfl⟩ ?_ nofun
  rw [hc]
  cases stage <;> rfl

/-- **The step lemma.** -/
theorem tokens_move [DecidableEq τ] (h : Tokens token₀ s) (hsound : Sound s) (hm : Move s t k s')
    (hass : Assumed token₀ s ⟨t, k⟩ = true) (hcur : Current s ⟨t, k⟩ = true) :
    Tokens token₀ s' := by
  have hs := hsound.shape t
  have hsame := (⟨rfl, rfl, rfl, rfl, rfl, rfl, rfl⟩ : s.issued = s.issued ∧
    s.authToken = s.authToken ∧ s.accessToken = s.accessToken ∧ s.refreshes = s.refreshes ∧
    s.rejected = s.rejected ∧ s.due = s.due ∧ s.replayed = s.replayed)
  cases hm with
  | request hc =>
    exact h.of_calls hsound rfl hsame (by rw [hc]; rfl)
      (List.forall_mem_singleton.mpr ⟨trivial, nofun⟩)
  | getJwtToken hc =>
    exact h.of_calls hsound rfl hsame (by rw [hc]; rfl) (List.forall_mem_singleton.mpr trivial)
  | readBefore hc =>
    obtain ⟨⟨-, hrep⟩, hrest⟩ := h.tail hc
    refine h.of_calls hsound rfl hsame (by rw [hc]; rfl)
      (List.forall_mem_cons.mpr ⟨⟨em _, fun rejected hr => ?_⟩, hrest⟩)
    obtain ⟨heq, hne, -⟩ := hrep rejected hr
    exact ⟨heq, hne, trivial⟩
  | readHeaders hc =>
    obtain ⟨⟨hb, hrep⟩, hrest⟩ := h.tail hc
    refine h.of_calls hsound rfl hsame (by rw [hc]; rfl)
      (List.forall_mem_cons.mpr ⟨⟨⟨fun heq => ?_, h.auth⟩, fun rejected hr => ?_⟩, hrest⟩)
    · obtain hb | hne := (hb : _ ∨ _)
      · exact hb
      · exact absurd heq hne
    · obtain ⟨heq, hne, -⟩ := hrep rejected hr
      exact ⟨heq, hne, hne⟩
  | send hc => exact h.send hsound hc
  | acquire hc hlock =>
    obtain ⟨⟨hb, hspoiled, -⟩, hrest⟩ := h.tail hc
    exact h.of_calls hsound rfl hsame (by rw [hc]; rfl)
      (List.forall_mem_cons.mpr ⟨⟨hb, hspoiled, trivial⟩, hrest⟩)
  | call hc heq =>
    obtain ⟨⟨hb, hspoiled, -⟩, hrest⟩ := h.tail hc
    exact h.of_calls hsound rfl hsame (by rw [hc]; rfl) (List.forall_mem_cons.mpr
      ⟨⟨trivial, nofun⟩, List.forall_mem_cons.mpr ⟨⟨hb, hspoiled, heq.trans hb⟩, hrest⟩⟩)
  | already hc hne =>
    obtain ⟨⟨hb, hspoiled, -⟩, hrest⟩ := h.tail hc
    exact h.of_calls hsound rfl hsame (by rw [hc]; rfl)
      (List.forall_mem_cons.mpr ⟨⟨hb, hspoiled, rfl, hb ▸ hne⟩, hrest⟩)
  | install hc => exact h.install hsound hc
  | configure hc =>
    obtain ⟨⟨hb, hspoiled, hissued, hne⟩, hrest⟩ := h.tail hc
    exact h.of_quiet hsound rfl
      ⟨List.Subset.refl _, List.Subset.refl _, List.Subset.refl _, id⟩ h.fresh rfl
      (List.mem_cons_of_mem _ hissued) rfl (by rw [hc]; rfl) h.replayed
      (List.forall_mem_cons.mpr ⟨⟨hb, hspoiled, rfl, hne⟩, hrest⟩)
  | clear hc =>
    obtain ⟨⟨hb, hspoiled, hok, hne⟩, hrest⟩ := h.tail hc
    exact h.of_calls hsound rfl hsame (by rw [hc]; rfl)
      (List.forall_mem_cons.mpr ⟨⟨hb, hspoiled, hok, hne⟩, hrest⟩)
  | leave hc =>
    obtain ⟨⟨-, -, rfl, hne⟩, hrest⟩ := h.tail hc
    obtain ⟨hrej, hrest⟩ := List.forall_mem_cons.mp hrest
    refine h.of_calls hsound rfl hsame (by rw [hc]; rfl) (List.forall_mem_cons.mpr
      ⟨⟨trivial, fun rejected hr => ?_⟩, hrest⟩)
    rw [← Option.some_inj.mp hr]
    exact ⟨hrej, hne, trivial⟩
  | leaveJwt hc =>
    obtain ⟨-, hrest⟩ := h.tail hc
    rw [hc] at hs
    cases hs with
    | refresh _ _ hcaller =>
      cases hcaller
      exact h.of_calls hsound rfl hsame (by rw [hc]; rfl) nofun
  | refreshNow hc =>
    obtain ⟨⟨heq, hdue⟩, hrest⟩ := h.tail hc
    simp only [Current, hc, decide_eq_true_eq] at hcur
    exact h.of_calls hsound rfl hsame (by rw [hc]; rfl) (List.forall_mem_cons.mpr
      ⟨⟨hcur.trans heq, .inr hdue, trivial⟩, List.forall_mem_cons.mpr ⟨trivial, hrest⟩⟩)
  | found hc =>
    obtain ⟨-, hrest⟩ := h.tail hc
    rw [hc] at hs
    cases hs
    simp only [Assumed, decide_eq_true_eq] at hass
    have heq : s.accessToken = token₀ := (List.mem_cons.mp h.access).resolve_right hass
    exact h.of_quiet hsound rfl
      ⟨List.Subset.refl _, List.Subset.refl _, List.subset_append_left .., id⟩ h.fresh rfl
      h.access rfl (by rw [hc]; rfl) h.replayed (List.forall_mem_singleton.mpr
        ⟨heq, List.mem_append_right _ (List.mem_singleton.mpr heq.symm)⟩)
  | notDue hc =>
    rw [hc] at hs
    cases hs
    exact h.of_calls hsound rfl hsame (by rw [hc]; rfl) nofun
  | blocked hc =>
    rename_i endpoint rest
    cases endpoint with
    | true => simp only [Assumed, hc, Bool.false_eq_true] at hass
    | false => exact h.ended hsound hc
  | issued hc =>
    rename_i before sent replaying b rest token
    obtain ⟨-, hrest⟩ := h.tail hc
    obtain ⟨⟨hb, hspoiled, hauth⟩, hrest⟩ := List.forall_mem_cons.mp hrest
    have hsent := h.sent t (by rw [hc]; rfl)
    rw [hc] at hs
    simp only [Assumed, hc, decide_eq_true_eq, List.mem_cons, not_or] at hass
    have hg : Grows token₀ s ({ s with issued := s.issued ++ [token] }.put t
        (.refresh b (.got token) :: rest)) :=
      ⟨List.subset_append_left .., List.Subset.refl _, List.Subset.refl _, id⟩
    refine h.of_quiet hsound rfl hg ?_ rfl (hg.known h.access) rfl (by rw [hc]; rfl)
      (fun p hp => ?_) (List.forall_mem_cons.mpr ⟨⟨hb, hspoiled, ?_, hsent⟩, fun c hcm => ?_⟩)
    · intro hmem
      obtain hmem | hmem := List.mem_append.mp hmem
      · exact h.fresh hmem
      · exact hass.1 (List.mem_singleton.mp hmem).symm
    · obtain ⟨hp1, hp2⟩ := h.replayed p hp
      exact ⟨hp1, List.mem_append_left _ hp2⟩
    · exact List.mem_append_right _ List.mem_cons_self
    · exact (hrest c hcm).mono hg fun _ => ⟨rfl, rfl⟩
  | answered hc =>
    have := h.ended hsound hc
    rw [hc] at hs
    cases hs
    exact this
  | ask hc hactive =>
    rename_i before sent endpoint rest
    obtain ⟨⟨⟨hb, hmem⟩, -⟩, hrest⟩ := h.tail hc
    rw [hc] at hs
    cases hs with
    | request =>
      simp only [Assumed, hc, decide_eq_true_eq] at hass
      have hsent : sent = token₀ := (List.mem_cons.mp hmem).resolve_right hass
      refine h.of_quiet hsound rfl
        ⟨List.Subset.refl _, List.subset_append_left .., List.Subset.refl _, id⟩ h.fresh rfl
        h.access rfl (by rw [hc]; rfl) h.replayed (List.forall_mem_cons.mpr
          ⟨⟨hb hsent, .inl ?_, trivial⟩, List.forall_mem_singleton.mpr hsent⟩)
      exact List.mem_append_right _ (List.mem_singleton.mpr hsent.symm)
    | calling =>
      have := hsound.active t
      rw [hc, hactive] at this
      cases this
  | refuse hc hno => exact (h.not_refused hsound hass hc hno).elim
  | failed hc =>
    rename_i before sent endpoint replaying rest
    cases endpoint with
    | true => simp only [Assumed, hc, Bool.false_eq_true] at hass
    | false => exact h.ended hsound hc
  | retried hc =>
    rename_i before sent endpoint replaying rest
    obtain ⟨-, hrest⟩ := h.tail hc
    cases endpoint with
    | true => simp only [Assumed, hc, Bool.false_eq_true] at hass
    | false =>
      exact h.of_calls hsound rfl hsame (by rw [hc]; rfl)
        (List.forall_mem_cons.mpr ⟨⟨trivial, nofun⟩, hrest⟩)

theorem Tokens.init [DecidableEq τ] : Tokens token₀ (system tasks token₀).init :=
  ⟨List.not_mem_nil, List.mem_cons_self, List.mem_cons_self, fun _ _ hc => (nomatch hc),
    fun hne => absurd rfl hne, fun _ _ => rfl, fun _ h => (by cases h), fun _ hp => (nomatch hp)⟩

theorem tokens_of_reachable [DecidableEq τ]
    (h : (system tasks token₀).Reachable
      (fun s a => Assumed token₀ s a = true ∧ Current s a = true) s) :
    Tokens token₀ s := by
  refine h.invariant_of (fun t ht => sound_of_reachable ht) Tokens.init
    fun s a s' hsound hs hok hstep => ?_
  obtain ⟨s₁, hm, rfl, -⟩ := move_of_step hstep
  have h₁ := tokens_move hs hsound hm hok.1 hok.2
  exact ⟨h₁.fresh, h₁.auth, h₁.access, h₁.frames, h₁.replaced, h₁.unsent, h₁.sent, h₁.replayed⟩

/-! ### Every request answered 401 is replayed once -/

/-- A replay that is still to be sent. -/
def Call.owes : Call τ → Bool
  | .asking false _ => true
  | .request (.wire _ _) _ _ => false
  | .request _ _ (some _) => true
  | _ => false

/-- Each answer 401 has been replayed, or the thread is on its way to do so. -/
def Balanced (s : Auth τ) : Prop :=
  ∀ t, s.rejections t = s.replays t + (s.calls t).countP Call.owes

theorem Balanced.of_put (h : Balanced s) (hcalls : s'.calls = Function.update s.calls t cs)
    (hrejections : ∀ u, u ≠ t → s'.rejections u = s.rejections u)
    (hreplays : ∀ u, u ≠ t → s'.replays u = s.replays u)
    (hmine : s'.rejections t = s'.replays t + cs.countP Call.owes) : Balanced s' := by
  intro u
  rw [hcalls]
  by_cases hu : u = t
  · rw [hu, Function.update_self]
    exact hmine
  · rw [Function.update_of_ne hu, hrejections u hu, hreplays u hu]
    exact h u

/-- A step that answers and replays nothing. -/
theorem Balanced.of_quiet (h : Balanced s) (hcalls : s'.calls = Function.update s.calls t cs)
    (hrejections : s'.rejections = s.rejections) (hreplays : s'.replays = s.replays)
    (howes : cs.countP Call.owes = (s.calls t).countP Call.owes) : Balanced s' := by
  refine h.of_put hcalls (fun _ _ => by rw [hrejections]) (fun _ _ => by rw [hreplays]) ?_
  rw [hrejections, hreplays, howes]
  exact h t

theorem raised_owes {rest : List (Call τ)} :
    (Auth.raised rest).countP Call.owes = rest.countP Call.owes := by
  unfold Auth.raised
  split <;> rfl

/-- **The step lemma.** -/
theorem balanced_move [DecidableEq τ] (h : Balanced s) (htokens : Tokens token₀ s)
    (hsound : Sound s)
    (hm : Move s t k s') (hass : Assumed token₀ s ⟨t, k⟩ = true) : Balanced s' := by
  have hs := hsound.shape t
  have ht := h t
  cases hm with
  | request hc | getJwtToken hc => exact h.of_quiet rfl rfl rfl (by rw [hc]; rfl)
  | readBefore hc =>
    rename_i endpoint replaying rest
    exact h.of_quiet rfl rfl rfl (by rw [hc]; cases replaying <;> rfl)
  | readHeaders hc =>
    rename_i before endpoint replaying rest
    exact h.of_quiet rfl rfl rfl (by rw [hc]; cases replaying <;> rfl)
  | send hc =>
    rename_i before sent endpoint replaying rest
    rw [hc] at ht
    cases replaying with
    | none =>
      have hsame : (s.noteSend t sent endpoint none).rejections = s.rejections ∧
          (s.noteSend t sent endpoint none).replays = s.replays ∧
          (s.noteSend t sent endpoint none).calls = s.calls := by
        cases endpoint <;> exact ⟨rfl, rfl, rfl⟩
      exact h.of_quiet (congrArg (Function.update · t _) hsame.2.2) hsame.1 hsame.2.1
        (by rw [hc]; rfl)
    | some rejected =>
      rw [hc] at hs
      cases hs
      refine h.of_put rfl (fun _ _ => rfl) (fun u hu => Function.update_of_ne hu ..) ?_
      exact ht.trans (congrArg (· + 0) (Function.update_self t _ s.replays).symm)
  | acquire hc | call hc | already hc | install hc | configure hc | clear hc | issued hc =>
    exact h.of_quiet rfl rfl rfl (by rw [hc]; rfl)
  | leave hc =>
    obtain ⟨⟨-, -, rfl, -⟩, -⟩ := htokens.tail hc
    rw [hc] at hs
    cases hs with
    | refresh _ _ hcaller =>
      cases hcaller
      exact h.of_quiet rfl rfl rfl (by rw [hc]; rfl)
  | leaveJwt hc | refreshNow hc | found hc | notDue hc | answered hc | retried hc =>
    exact h.of_quiet rfl rfl rfl (by rw [hc]; rfl)
  | blocked hc | failed hc => exact h.of_quiet rfl rfl rfl (by rw [hc, raised_owes]; rfl)
  | ask hc hactive =>
    rename_i before sent endpoint rest
    rw [hc] at hs ht
    cases hs with
    | request =>
      refine h.of_put rfl (fun u hu => Function.update_of_ne hu ..) (fun _ _ => rfl) ?_
      exact (Function.update_self t _ s.rejections).trans (congrArg (· + 1) ht)
    | calling =>
      have := hsound.active t
      rw [hc, hactive] at this
      cases this
  | refuse hc hno => exact (htokens.not_refused hsound hass hc hno).elim

theorem balanced_of_reachable [DecidableEq τ]
    (h : (system tasks token₀).Reachable
      (fun s a => Assumed token₀ s a = true ∧ Current s a = true) s) :
    Balanced s := by
  refine h.invariant_of (I := fun s => Sound s ∧ Tokens token₀ s)
    (fun t ht => ⟨sound_of_reachable ht, tokens_of_reachable ht⟩) (fun _ => rfl)
    fun s a s' hI hs hok hstep => ?_
  obtain ⟨s₁, hm, rfl, -⟩ := move_of_step hstep
  exact (balanced_move hs hI.2 hI.1 hm hok.1 : Balanced s₁)


/-! ### Tasks read the value that they found due -/

/-- A task that has not given way is the one that runs; what it found due is still installed. -/
structure Turns (s : Auth τ) : Prop where
  running : ∀ t, waits (s.calls t) = false → s.running = some t
  due : ∀ t c rest, s.calls t = .jwt (some c) :: rest → s.authToken = c
  config : ∀ t b token rest, s.calls t = .refresh b (.config token) :: rest → s.authToken = token
  access : (∀ t b token rest, s.calls t ≠ .refresh b (.config token) :: rest) →
    s.accessToken = s.authToken

theorem Turns.others (h : Turns s) (hturn : ∀ u ∈ s.running, u = t) {u : ℕ} (hu : u ≠ t) :
    waits (s.calls u) = true := by
  cases hw : waits (s.calls u) with
  | true => rfl
  | false => exact absurd (hturn u (h.running u hw)) hu

/-- The frame rule: the other tasks all wait. -/
theorem Turns.of_put (h : Turns s) (hturn : ∀ u ∈ s.running, u = t)
    (hcalls : s'.calls = Function.update s.calls t cs)
    (hdue : ∀ c rest, cs = .jwt (some c) :: rest → s'.authToken = c)
    (hconfig : ∀ b token rest, cs = .refresh b (.config token) :: rest → s'.authToken = token)
    (haccess : (∀ b token rest, cs ≠ .refresh b (.config token) :: rest) →
      s'.accessToken = s'.authToken) : Turns (s'.settle t) := by
  have hself : (s'.settle t).calls t = cs := by
    rw [Auth.settle, hcalls, Function.update_self]
  have hother : ∀ u, u ≠ t → waits ((s'.settle t).calls u) = true := by
    intro u hu
    rw [Auth.settle, hcalls, Function.update_of_ne hu]
    exact h.others hturn hu
  have hmine : ∀ u, waits ((s'.settle t).calls u) = false → u = t := by
    intro u hw
    by_contra hu
    rw [hother u hu] at hw
    cases hw
  refine ⟨fun u hw => ?_, fun u c rest hc => ?_, fun u b token rest hc => ?_, fun hall => ?_⟩
  · obtain rfl := hmine u hw
    have hw' : waits (s'.calls u) = false := hw
    rw [Auth.settle, hw']
    rfl
  · obtain rfl := hmine u (by rw [hc]; rfl)
    exact hdue c rest (hself.symm.trans hc)
  · obtain rfl := hmine u (by rw [hc]; rfl)
    exact hconfig b token rest (hself.symm.trans hc)
  · exact haccess fun b token rest hc => hall t b token rest (hself.trans hc)

/-- A step that writes no token field, of a task that has just written both. -/
theorem Turns.of_quiet (h : Turns s) (hturn : ∀ u ∈ s.running, u = t)
    (hcalls : s'.calls = Function.update s.calls t cs) (hauth : s'.authToken = s.authToken)
    (haccess : s'.accessToken = s.accessToken)
    (hold : ∀ b token rest, s.calls t ≠ .refresh b (.config token) :: rest)
    (hdue : ∀ c rest, cs ≠ .jwt (some c) :: rest)
    (hconfig : ∀ b token rest, cs ≠ .refresh b (.config token) :: rest) :
    Turns (s'.settle t) := by
  refine h.of_put hturn hcalls (fun c rest hc => absurd hc (hdue c rest))
    (fun b token rest hc => absurd hc (hconfig b token rest)) fun _ => ?_
  rw [hauth, haccess]
  refine h.access fun u b token rest hc => ?_
  by_cases hu : u = t
  · rw [hu] at hc
    exact hold b token rest hc
  · have := h.others hturn hu
    rw [hc] at this
    cases this

/-- **The step lemma.** -/
theorem turns_move (h : Turns s) (hsound : Sound s) (hturn : ∀ u ∈ s.running, u = t)
    (hm : Move s t k s') : Turns (s'.settle t) := by
  have hs := hsound.shape t
  cases hm with
  | request hc | getJwtToken hc =>
    exact h.of_quiet hturn rfl rfl rfl
      (by rw [hc]; exact fun _ _ _ => List.cons_ne_nil _ _ ∘ Eq.symm) nofun nofun
  | readBefore hc | readHeaders hc | acquire hc | call hc | already hc | clear hc | refreshNow hc
  | retried hc | ask hc | issued hc =>
    exact h.of_quiet hturn rfl rfl rfl (by rw [hc]; exact nofun) nofun nofun
  | send hc =>
    rename_i before sent endpoint replaying rest
    have hsame : (s.noteSend t sent endpoint replaying).authToken = s.authToken ∧
        (s.noteSend t sent endpoint replaying).accessToken = s.accessToken := by
      unfold Auth.noteSend
      cases replaying <;> cases endpoint <;> exact ⟨rfl, rfl⟩
    have hcalls : (s.noteSend t sent endpoint replaying).calls = s.calls := noteSend_same.1
    exact h.of_quiet hturn (congrArg (Function.update · t _) hcalls) hsame.1 hsame.2
      (by rw [hc]; exact nofun) nofun nofun
  | install hc =>
    refine h.of_put hturn rfl nofun (fun b token rest heq => ?_) fun hne => ?_
    · cases heq
      rfl
    · exact absurd rfl (hne _ _ _)
  | configure hc =>
    exact h.of_put hturn rfl nofun nofun fun _ => (h.config t _ _ _ hc).symm
  | leave hc =>
    rename_i ok endpoint rejected rest
    rw [hc] at hs
    cases hs with
    | refresh _ _ hcaller =>
      cases hcaller
      cases ok <;> exact h.of_quiet hturn rfl rfl rfl (by rw [hc]; exact nofun) nofun nofun
  | leaveJwt hc =>
    rw [hc] at hs
    cases hs with
    | refresh _ _ hcaller =>
      cases hcaller
      exact h.of_quiet hturn rfl rfl rfl (by rw [hc]; exact nofun) nofun nofun
  | found hc =>
    refine h.of_put hturn rfl (fun c rest heq => ?_) nofun fun _ => ?_
    all_goals
      have haccess : s.accessToken = s.authToken := by
        refine h.access fun u b token rest hc' => ?_
        by_cases hu : u = t
        · rw [hu, hc] at hc'
          cases hc'
        · have := h.others hturn hu
          rw [hc'] at this
          cases this
    · cases heq
      exact haccess.symm
    · exact haccess
  | notDue hc | answered hc =>
    rw [hc] at hs
    cases hs
    exact h.of_quiet hturn rfl rfl rfl (by rw [hc]; exact nofun) nofun nofun
  | blocked hc | failed hc | refuse hc =>
    rw [hc] at hs
    cases hs with
    | request => exact h.of_quiet hturn rfl rfl rfl (by rw [hc]; exact nofun) nofun nofun
    | calling => exact h.of_quiet hturn rfl rfl rfl (by rw [hc]; exact nofun) nofun nofun


theorem turns_of_reachable [DecidableEq τ] {ok : Auth τ → Action τ → Prop}
    (h : (system true token₀).Reachable ok s) : Turns s := by
  refine h.invariant_of (fun t ht => sound_of_reachable ht)
    ⟨fun _ hw => (by cases hw), nofun, nofun, fun _ => rfl⟩ fun s a s' hsound hs _ hstep => ?_
  obtain ⟨s₁, hm, rfl, hturn⟩ := move_of_step hstep
  exact turns_move hs hsound (hturn rfl) hm

/-- A task reads the value that it found due, with nobody in between. -/
theorem Turns.current [DecidableEq τ] (h : Turns s) : Current s a = true := by
  unfold Current
  split
  · rename_i due rest _ hc
    exact decide_eq_true (h.due _ _ _ hc)
  · rfl

/-- The condition of the law: nothing for tasks. -/
theorem reachable_current [DecidableEq τ]
    (h : (system tasks token₀).Reachable
      (fun s a => Assumed token₀ s a = true ∧ (tasks = false → Current s a = true)) s) :
    (system tasks token₀).Reachable
      (fun s a => Assumed token₀ s a = true ∧ Current s a = true) s := by
  cases tasks with
  | false => exact h.mono fun s a hok => ⟨hok.1, hok.2 rfl⟩
  | true =>
    induction h with
    | refl => exact System.Reachable.init
    | @tail u v hr hst ih =>
      obtain ⟨a, ⟨hass, -⟩, hstep⟩ := hst
      exact ih.step ⟨hass, (turns_of_reachable hr).current⟩ hstep

/-! ### The law -/

/-- What the endpoint was called for is the first token, once, and that was spoiled. -/
theorem Tokens.refreshes_cases [DecidableEq τ] (h : Tokens token₀ s) (hsound : Sound s) :
    s.refreshes = [] ∨ s.refreshes = [token₀] ∧ Spoiled token₀ s := by
  by_cases hauth : s.authToken = token₀
  · by_cases hall : ∀ t, sentOn (s.calls t) = false
    · exact .inl (h.unsent hauth hall)
    · obtain ⟨t, ht⟩ := not_forall.mp hall
      rw [Bool.not_eq_false] at ht
      refine .inr ⟨(h.sent t ht).2, ?_⟩
      have hshape := hsound.shape t
      have hframes := h.frames t
      generalize s.calls t = cs at ht hshape hframes
      cases hshape with
      | idle => cases ht
      | request stage replaying => cases stage <;> cases ht
      | jwt due => cases ht
      | refresh before stage hcaller => exact (hframes _ List.mem_cons_self).2.1
      | calling stage before hcaller =>
        exact (hframes _ (List.mem_cons_of_mem _ List.mem_cons_self)).2.1
  · exact .inr (h.replaced hauth)

/-- A call of `_try_refresh_token`. -/
def Call.refreshes : Call τ → Bool
  | .refresh _ _ | .calling _ => true
  | _ => false

theorem Shape.refreshes_le (h : Shape cs) : cs.countP Call.refreshes ≤ 1 := by
  cases h with
  | idle => exact Nat.zero_le _
  | request stage replaying => exact Nat.zero_le _
  | jwt due => exact Nat.zero_le _
  | refresh before stage hcaller => cases hcaller <;> exact Nat.le_refl _
  | calling stage before hcaller => cases hcaller <;> exact Nat.le_refl _

end

/-- Whatever the endpoint answers, no thread is inside two refreshes, and none waits for a lock
that it holds.  Where the endpoint answers with new tokens that are neither rejected nor due, and
a thread that refreshes a due token reads the value that it found due, as every task does: the
endpoint is called at most once for each value, for values that were rejected or due, and none
that it issued; and each request answered 401 is replayed once, with a token that was issued,
while the rejected one was not. -/
theorem single_flight [DecidableEq τ] (tasks : Bool) (token₀ : τ) :
    (∀ s : Auth τ, (system tasks token₀).Reachable System.always s → ∀ t,
      (s.calls t).countP Call.refreshes ≤ 1 ∧
      ∀ before rest, s.calls t = .refresh before .want :: rest → s.lock ≠ some t) ∧
    (∀ s : Auth τ, (system tasks token₀).Reachable
        (fun s a => Assumed token₀ s a = true ∧ (tasks = false → Current s a = true)) s →
      s.refreshes.Nodup ∧
      (∀ token ∈ s.refreshes, (token ∈ s.rejected ∨ token ∈ s.due) ∧ token ∉ s.issued) ∧
      (∀ t, s.rejections t = s.replays t + (s.calls t).countP Call.owes) ∧
      ∀ p ∈ s.replayed, p.1 ∉ s.issued ∧ p.2 ∈ s.issued) := by
  refine ⟨fun s h t => ?_, fun s h => ?_⟩
  · have hsound := sound_of_reachable h
    refine ⟨(hsound.shape t).refreshes_le, fun before rest hc hlock => ?_⟩
    have hheld := (hsound.lock t).mp hlock
    have hshape := hsound.shape t
    rw [hc] at hheld hshape
    cases hshape with
    | refresh _ _ hcaller =>
      rw [List.any_cons, hcaller.free.1] at hheld
      cases hheld
  · have hr := reachable_current h
    have htokens := tokens_of_reachable hr
    have hbalanced := balanced_of_reachable hr
    refine ⟨?_, ?_, hbalanced, fun p hp => ?_⟩
    · obtain heq | ⟨heq, -⟩ := htokens.refreshes_cases (sound_of_reachable hr)
      · rw [heq]
        exact List.nodup_nil
      · rw [heq]
        exact List.nodup_singleton _
    · intro token hmem
      obtain heq | ⟨heq, hspoiled⟩ := htokens.refreshes_cases (sound_of_reachable hr)
      · rw [heq] at hmem
        cases hmem
      · rw [heq, List.mem_singleton] at hmem
        rw [hmem]
        exact ⟨hspoiled, htokens.fresh⟩
    · obtain ⟨hp1, hp2⟩ := htokens.replayed p hp
      rw [hp1]
      exact ⟨htokens.fresh, hp2⟩

/-- The steps of a call of the endpoint, from the request for the lock to its release. -/
def refreshRun (t : ℕ) (token : ℕ) : List (Action ℕ) :=
  (List.replicate 5 ⟨t, .run⟩) ++ ⟨t, .reply (.ok token)⟩ :: List.replicate 4 ⟨t, .run⟩

/-- Thread 1 finds the token due and refreshes it, while a request of thread 0 is answered 401:
thread 0 gets the lock second, finds the new token and replays with that. -/
theorem single_flight_sample : ∃ s : Auth ℕ, s.due = [0] ∧ s.rejected = [0] ∧
    s.replayed = [(0, 1)] ∧ s.refreshes = [0] ∧ s.refreshes.Nodup ∧
    ∀ p ∈ s.replayed, p.2 ∈ s.issued := by
  have hrun : ((system false 0).runIf
      (fun s a => Assumed 0 s a = true ∧ (false = false → Current s a = true))
      (system false 0).init
      ([⟨1, .getJwtToken⟩, ⟨1, .check true⟩, ⟨1, .run⟩, ⟨0, .request⟩] ++
        List.replicate 3 ⟨0, .run⟩ ++ ⟨0, .reply .unauthorized⟩ :: refreshRun 1 1 ++
        List.replicate 6 ⟨0, .run⟩)).any
      (fun s => s.due = [0] && s.rejected = [0] && s.replayed = [(0, 1)] && s.refreshes = [0]) =
        true := by
    decide
  obtain ⟨s, hs, hp⟩ := System.exists_of_runIf hrun
  simp only [Bool.and_eq_true, decide_eq_true_eq] at hp
  obtain ⟨⟨⟨hdue, hrejected⟩, hreplayed⟩, hrefreshes⟩ := hp
  have hlaw := (single_flight false 0).2 s hs
  exact ⟨s, hdue, hrejected, hreplayed, hrefreshes, hlaw.1, fun p hmem => (hlaw.2.2.2 p hmem).2⟩

/-- Two threads find the first token due; the second one asks for a refresh when the first one
has installed the new token, and replaces that. -/
theorem fresh_token_replaced : ¬ ∀ s : Auth ℕ,
    (system false 0).Reachable (fun s a => Assumed 0 s a = true) s →
      ∀ token ∈ s.refreshes, token ∉ s.issued := by
  intro hall
  have hrun : ((system false 0).runIf (fun s a => Assumed 0 s a = true) (system false 0).init
      ([⟨0, .getJwtToken⟩, ⟨0, .check true⟩, ⟨1, .getJwtToken⟩, ⟨1, .check true⟩, ⟨0, .run⟩] ++
        refreshRun 0 1 ++ ⟨1, .run⟩ :: refreshRun 1 2)).any
      (fun s => s.refreshes = [0, 1] && s.issued = [1, 2]) = true := by
    decide
  obtain ⟨s, hs, hp⟩ := System.exists_of_runIf hrun
  rw [Bool.and_eq_true, decide_eq_true_eq, decide_eq_true_eq] at hp
  have := hall s hs 1 (by rw [hp.1]; decide)
  rw [hp.2] at this
  exact this (by decide)

end SpooledSdk.Http.Refresh
