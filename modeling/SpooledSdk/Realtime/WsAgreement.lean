/-
The server's subscriptions agree with the client's.

* `Wired` — at most one dial is under way, it belongs to the current socket, and its loop sends
  filters of the table;
* `Agreeing` — up to the calls in progress and the filters a loop has yet to send, the server
  of a live current socket holds the images of the table;
* `agrees_of_reachable` — under `Orderly` the two agree whenever nothing is in progress.
-/
import SpooledSdk.Realtime.WsCommands
import SpooledSdk.Registry

namespace SpooledSdk.Realtime.Commands

/-- The filters that the resubscribe loop has yet to send. -/
def DialPc.pending : DialPc → List SubscriptionFilter
  | .iterating todo => todo
  | .sending filter todo => filter :: todo
  | _ => []

/-- The dial has a socket, and its resubscribe loop has not begun. -/
def DialPc.starting : DialPc → Bool
  | .opened | .connected => true
  | _ => false

/-- The dial has a socket and has not ended. -/
def DialPc.held : DialPc → Bool
  | .opened | .connected | .iterating _ | .sending _ _ => true
  | _ => false

/-- A call of this kind has changed the table and may still send its command. -/
def InProgress (calls : List Call) (verb : Verb) (w : Wire) : Prop :=
  ∃ (i : ℕ) (call : Call), calls[i]? = some call ∧ call.verb = verb ∧ call.filter.wire = w ∧
    (call.pc = .check ∨ call.pc = .send)

/-- A resubscribe loop has yet to send a filter with this image. -/
def Pending (dials : List Dial) (w : Wire) : Prop :=
  ∃ dial ∈ dials, ∃ f ∈ dial.pc.pending, f.wire = w

structure Wired (s : WebSocketClient) : Prop where
  one : ∀ {d d' : ℕ} {dial dial' : Dial}, s.dials[d]? = some dial → s.dials[d']? = some dial' →
    dial.pc ≠ .ended → dial'.pc ≠ .ended → d = d'
  socket : ∀ {i : ℕ}, s.ws = some i → ∀ dial ∈ s.dials, dial.pc.held = true → dial.socket = some i
  within : ∀ dial ∈ s.dials, ∀ f ∈ dial.pc.pending, f ∈ s.subscriptions.values
  steady : ∀ dial ∈ s.dials, dial.iterates = true → dial.changed = false
  keyed : ∀ {k v : SubscriptionFilter}, s.subscriptions.get? k = some v → v = k

structure Agreeing (s : WebSocketClient) (socket : Socket) : Prop where
  fresh : (∃ dial ∈ s.dials, dial.pc = .opened) →
    s.dropping = 0 ∧ (s.state ≠ .connected → socket.server = [])
  sound : s.state = .connected → ∀ w ∈ socket.server,
    w ∈ s.images ∨ InProgress s.calls .unsubscribe w
  complete : s.state = .connected → (∀ dial ∈ s.dials, dial.pc.starting = false) →
    ∀ w ∈ s.images, w ∈ socket.server ∨ Pending s.dials w ∨ InProgress s.calls .subscribe w

/-- What holds of the current socket while it lives. -/
def Current (s : WebSocketClient) : Prop :=
  ∀ i socket, s.ws = some i → s.sockets[i]? = some socket → socket.alive = true →
    Agreeing s socket

variable {c : Client} {s s' : WebSocketClient} {i d : ℕ} {call : Call} {dial y : Dial}
  {socket : Socket} {verb : Verb} {w : Wire}

/-! ### Calls in progress -/

theorem InProgress.append {calls : List Call} (h : InProgress calls verb w) :
    InProgress (calls ++ [call]) verb w := by
  obtain ⟨i, x, hx, hrest⟩ := h
  exact ⟨i, x, by rw [List.getElem?_append_left (List.getElem?_eq_some_iff.mp hx).1, hx], hrest⟩

/-- A call that moves on leaves the other calls in progress. -/
theorem InProgress.set {calls : List Call} (pc : CallPc) (hc : calls[i]? = some call)
    (h : InProgress calls verb w) :
    InProgress (calls.set i { call with pc }) verb w ∨
      (call.verb = verb ∧ call.filter.wire = w ∧ (call.pc = .check ∨ call.pc = .send)) := by
  obtain ⟨j, x, hx, hv, hw, hpc⟩ := h
  by_cases hij : i = j
  · subst hij
    rw [hc, Option.some_inj] at hx
    subst hx
    exact .inr ⟨hv, hw, hpc⟩
  · exact .inl ⟨j, x, by rw [List.getElem?_set_ne hij, hx], hv, hw, hpc⟩

/-- A call that is not in progress leaves all that are. -/
theorem InProgress.keep {calls : List Call} {pc : CallPc} (hc : calls[i]? = some call)
    (hpc : call.pc = .lookup ∨ call.pc = .change) (h : InProgress calls verb w) :
    InProgress (calls.set i { call with pc }) verb w := by
  rcases h.set pc hc with hkeep | ⟨-, -, hp⟩
  · exact hkeep
  · rcases hpc with hl | hl <;> rw [hl] at hp <;> simp at hp

/-- A call that has changed the table is in progress. -/
theorem InProgress.begin {calls : List Call} (pc : CallPc) (hc : calls[i]? = some call)
    (hpc : pc = .check ∨ pc = .send) :
    InProgress (calls.set i { call with pc }) call.verb call.filter.wire :=
  ⟨i, { call with pc }, by rw [List.getElem?_set_self (List.getElem?_eq_some_iff.mp hc).1],
    rfl, rfl, hpc⟩

/-! ### The table -/

theorem mem_images : w ∈ s.images ↔ ∃ f ∈ s.subscriptions.values, f.wire = w := by
  simp [WebSocketClient.images]

theorem mem_values_insert (hk : ∀ {k v}, s.subscriptions.get? k = some v → v = k)
    (f f₀ : SubscriptionFilter) :
    f₀ ∈ (s.subscriptions.insert f f).values ↔ f₀ = f ∨ f₀ ∈ s.subscriptions.values := by
  simp only [Dict.mem_values_iff, Dict.get?_insert]
  constructor
  · rintro ⟨k, h⟩
    split at h
    · exact .inl (Option.some_inj.mp h).symm
    · exact .inr ⟨k, h⟩
  · rintro (rfl | ⟨k, h⟩)
    · exact ⟨f₀, by simp⟩
    · by_cases hkf : k = f
      · subst hkf
        exact ⟨k, by simp [hk h]⟩
      · exact ⟨k, by rw [if_neg (Ne.symm hkf), h]⟩

theorem mem_values_erase (hk : ∀ {k v}, s.subscriptions.get? k = some v → v = k)
    (f f₀ : SubscriptionFilter) :
    f₀ ∈ (s.subscriptions.erase f).values ↔ f₀ ≠ f ∧ f₀ ∈ s.subscriptions.values := by
  simp only [Dict.mem_values_iff, Dict.get?_erase]
  constructor
  · rintro ⟨k, h⟩
    split at h
    · cases h
    · rename_i hkf
      have := hk h
      subst this
      exact ⟨Ne.symm hkf, f₀, h⟩
  · rintro ⟨hne, k, h⟩
    have := hk h
    subst this
    exact ⟨f₀, by rw [if_neg hne.symm, h]⟩

/-! ### The dial under way -/

/-- Beside a dial that is under way every other one has ended. -/
theorem Wired.set_cases (h : Wired s) (hd : s.dials[d]? = some dial) (ha : dial.pc ≠ .ended)
    {dial' : Dial} (hy : y ∈ s.dials.set d dial') : y = dial' ∨ (y ∈ s.dials ∧ y.pc = .ended) := by
  obtain ⟨j, hj⟩ := List.mem_iff_getElem?.mp hy
  rcases List.getElem?_set_cases hj with ⟨-, rfl⟩ | ⟨hne, hj⟩
  · exact .inl rfl
  · refine .inr ⟨List.mem_of_getElem? hj, ?_⟩
    by_contra hpc
    exact hne (h.one hj hd hpc ha).symm

theorem Wired.eq_or_ended (h : Wired s) (hd : s.dials[d]? = some dial) (ha : dial.pc ≠ .ended)
    (hy : y ∈ s.dials) : y = dial ∨ y.pc = .ended := by
  obtain ⟨j, hj⟩ := List.mem_iff_getElem?.mp hy
  by_cases hpc : y.pc = .ended
  · exact .inr hpc
  · rw [h.one hj hd hpc ha, hd, Option.some_inj] at hj
    exact .inl hj.symm

theorem mem_set_self {dial' : Dial} (hd : s.dials[d]? = some dial) :
    dial' ∈ s.dials.set d dial' :=
  List.mem_iff_getElem?.mpr
    ⟨d, by rw [List.getElem?_set_self (List.getElem?_eq_some_iff.mp hd).1]⟩

/-- What the dial under way does to the wiring. -/
theorem Wired.setDial (h : Wired s) (hd : s.dials[d]? = some dial) (ha : dial.pc ≠ .ended)
    {dial' : Dial} (hdials : s'.dials = s.dials.set d dial')
    (hsubs : s'.subscriptions = s.subscriptions)
    (hws : ∀ i, s'.ws = some i → dial'.pc.held = true → dial'.socket = some i)
    (hp : ∀ f ∈ dial'.pc.pending, f ∈ s.subscriptions.values)
    (hs : dial'.iterates = true → dial'.changed = false) : Wired s' := by
  refine ⟨?_, ?_, ?_, ?_, by rw [hsubs]; exact h.keyed⟩
  · intro j j' x x' hj hj' hx hx'
    rw [hdials] at hj hj'
    rcases List.getElem?_set_cases hj with ⟨rfl, -⟩ | ⟨hne, hj⟩
    · rcases List.getElem?_set_cases hj' with ⟨rfl, -⟩ | ⟨hne', hj'⟩
      · rfl
      · exact absurd (h.one hj' hd hx' ha).symm hne'
    · exact absurd (h.one hj hd hx ha).symm hne
  · intro i hi y hy hheld
    rw [hdials] at hy
    rcases h.set_cases hd ha hy with rfl | ⟨-, hover⟩
    · exact hws i hi hheld
    · rw [hover] at hheld
      cases hheld
  · intro y hy f hf
    rw [hdials] at hy
    rw [hsubs]
    rcases h.set_cases hd ha hy with rfl | ⟨-, hover⟩
    · exact hp f hf
    · rw [hover] at hf
      cases hf
  · intro y hy hit
    rw [hdials] at hy
    rcases h.set_cases hd ha hy with rfl | ⟨hmem, -⟩
    · exact hs hit
    · exact h.steady y hmem hit

/-- Calls, timers and the death of a socket leave the wiring alone. -/
theorem Wired.keep (h : Wired s) (hdials : s'.dials = s.dials)
    (hsubs : s'.subscriptions = s.subscriptions) (hws : s'.ws = none ∨ s'.ws = s.ws) :
    Wired s' := by
  refine ⟨by rw [hdials]; exact h.one, ?_, by rw [hdials, hsubs]; exact h.within,
    by rw [hdials]; exact h.steady, by rw [hsubs]; exact h.keyed⟩
  intro i hi
  rw [hdials]
  rcases hws with hnone | hsame
  · rw [hnone] at hi
    cases hi
  · exact h.socket (hsame ▸ hi)

/-- A dial starts when every other one has ended. -/
theorem Wired.start (h : Wired s) {redial : Bool} (hover : ∀ dial ∈ s.dials, dial.pc = .ended)
    (hdials : s'.dials = s.dials ++ [{ redial := redial }]) (hsubs : s'.subscriptions = s.subscriptions)
    (hws : s'.ws = s.ws) : Wired s' := by
  have hmem : ∀ y ∈ s'.dials, y ∈ s.dials ∨ y = { redial := redial } := by
    intro y hy
    rw [hdials, List.mem_append, List.mem_singleton] at hy
    exact hy
  refine ⟨?_, ?_, ?_, ?_, by rw [hsubs]; exact h.keyed⟩
  · intro j j' x x' hj hj' hx hx'
    have hlast : ∀ {k z}, s'.dials[k]? = some z → z.pc ≠ .ended → k = s.dials.length := by
      intro k z hk hz
      rw [hdials] at hk
      have hlen := (List.getElem?_eq_some_iff.mp hk).1
      rw [List.length_append, List.length_singleton] at hlen
      by_cases hlt : k < s.dials.length
      · rw [List.getElem?_append_left hlt] at hk
        exact absurd (hover z (List.mem_of_getElem? hk)) hz
      · omega
    rw [hlast hj hx, hlast hj' hx']
  · intro i hi y hy hheld
    rcases hmem y hy with hold | rfl
    · exact h.socket (hws ▸ hi) y hold hheld
    · cases hheld
  · intro y hy f hf
    rcases hmem y hy with hold | rfl
    · rw [hsubs]
      exact h.within y hold f hf
    · cases hf
  · intro y hy hit
    rcases hmem y hy with hold | rfl
    · exact h.steady y hold hit
    · cases hit

/-! ### What a step keeps -/

theorem Agreeing.of_idle (hstate : s.state ≠ .connected)
    (hopened : ∀ dial ∈ s.dials, dial.pc ≠ .opened) : Agreeing s socket := by
  refine ⟨?_, fun h => absurd h hstate, fun h => absurd h hstate⟩
  rintro ⟨dial, hmem, ho⟩
  exact absurd ho (hopened dial hmem)

theorem current_of_none (h : s.ws = none) : Current s := by
  intro i socket hi
  rw [h] at hi
  cases hi

/-- The dial under way moves on without a command. -/
theorem Agreeing.setDial (hA : Agreeing s socket) (h : Wired s) (hd : s.dials[d]? = some dial)
    (ha : dial.pc ≠ .ended) {dial' : Dial} (hdials : s'.dials = s.dials.set d dial')
    (hsubs : s'.subscriptions = s.subscriptions) (hcalls : s'.calls = s.calls)
    (hstate : s'.state = s.state) (hopened : dial'.pc ≠ .opened)
    (hstart : dial'.pc.starting = false → dial.pc.starting = false)
    (hpend : ∀ f ∈ dial.pc.pending, f ∈ dial'.pc.pending) : Agreeing s' socket := by
  have himages : s'.images = s.images := by rw [WebSocketClient.images, hsubs]; rfl
  refine ⟨?_, ?_, ?_⟩
  · rintro ⟨y, hy, ho⟩
    rw [hdials] at hy
    rcases h.set_cases hd ha hy with rfl | ⟨-, hover⟩
    · exact absurd ho hopened
    · rw [hover] at ho
      cases ho
  · rw [hstate, himages, hcalls]
    exact hA.sound
  · intro hst hnone w hw
    rw [hcalls]
    have hstarting : ∀ y ∈ s.dials, y.pc.starting = false := by
      intro y hy
      rcases h.eq_or_ended hd ha hy with rfl | hover
      · exact hstart (hnone dial' (by rw [hdials]; exact mem_set_self hd))
      · rw [hover]
        rfl
    refine (hA.complete (hstate ▸ hst) hstarting w (himages ▸ hw)).imp id (.imp ?_ id)
    rintro ⟨y, hy, f, hf, hwire⟩
    rcases h.eq_or_ended hd ha hy with rfl | hover
    · exact ⟨dial', by rw [hdials]; exact mem_set_self hd, f, hpend f hf, hwire⟩
    · rw [hover] at hf
      cases hf

theorem Wired.fail (h : Wired s) (hd : s.dials[d]? = some dial) (ha : dial.pc ≠ .ended) :
    Wired (s.fail c d dial) := by
  unfold WebSocketClient.fail
  split
  · cases c <;> exact h.setDial hd ha rfl rfl nofun nofun nofun
  · exact h.setDial hd ha rfl rfl nofun nofun nofun

/-- An exception that leaves a dial loses no filter of a socket that stays in use. -/
theorem Current.fail (hC : Current s) (h : Wired s) (hd : s.dials[d]? = some dial)
    (ha : dial.pc ≠ .ended) (hstart : dial.pc.starting = false)
    (hpend : c = .asyncWebSocket → dial.pc.pending = []) : Current (s.fail c d dial) := by
  have hidle : ∀ {t : WebSocketClient} {dial' : Dial}, t.dials = s.dials.set d dial' →
      dial'.pc ≠ .opened → ∀ y ∈ t.dials, y.pc ≠ .opened := by
    intro t dial' ht hne y hy
    rw [ht] at hy
    rcases h.set_cases hd ha hy with rfl | ⟨-, hover⟩
    · exact hne
    · rw [hover]
      nofun
  unfold WebSocketClient.fail
  split
  · cases c with
    | webSocket => exact current_of_none rfl
    | asyncWebSocket =>
      intro i socket hi hsock hlive
      refine (hC i socket hi hsock hlive).setDial h hd ha rfl rfl rfl rfl nofun (fun _ => hstart) ?_
      rw [hpend rfl]
      nofun
    | realtime =>
      intro i socket hi hsock hlive
      exact .of_idle nofun (hidle rfl nofun)
  · intro i socket hi hsock hlive
    exact .of_idle nofun (hidle rfl nofun)

/-- A command that fits the table reaches the socket. -/
theorem Agreeing.receive (hA : Agreeing s socket) (hcalls : s'.calls = s.calls)
    (hsubs : s'.subscriptions = s.subscriptions) (hstate : s'.state = s.state)
    (hopened : ∀ y ∈ s'.dials, y.pc ≠ .opened) (hw : w ∈ s.images)
    (hstart : (∀ y ∈ s'.dials, y.pc.starting = false) → ∀ y ∈ s.dials, y.pc.starting = false)
    (hpend : ∀ w', Pending s.dials w' → w' = w ∨ Pending s'.dials w') :
    Agreeing s' (socket.receive .subscribe w) := by
  have himages : s'.images = s.images := by rw [WebSocketClient.images, hsubs]; rfl
  refine ⟨?_, ?_, ?_⟩
  · rintro ⟨y, hy, ho⟩
    exact absurd ho (hopened y hy)
  · intro hst w' hw'
    rw [himages, hcalls]
    rcases List.mem_cons.mp hw' with rfl | hw'
    · exact .inl hw
    · exact hA.sound (hstate ▸ hst) w' hw'
  · intro hst hnone w' hw'
    rw [hcalls]
    rcases hA.complete (hstate ▸ hst) (hstart hnone) w' (himages ▸ hw') with hin | hp | hc
    · exact .inl (List.mem_cons_of_mem _ hin)
    · rcases hpend w' hp with rfl | hp'
      · exact .inl List.mem_cons_self
      · exact .inr (.inl hp')
    · exact .inr (.inr hc)

/-- Only the calls change, and none that is in progress ends. -/
theorem Agreeing.recall (hA : Agreeing s socket) (hdials : s'.dials = s.dials)
    (hsubs : s'.subscriptions = s.subscriptions) (hstate : s'.state = s.state)
    (hdrop : s'.dropping = s.dropping)
    (hcalls : ∀ {verb w}, InProgress s.calls verb w → InProgress s'.calls verb w) :
    Agreeing s' socket := by
  have himages : s'.images = s.images := by rw [WebSocketClient.images, hsubs]; rfl
  refine ⟨?_, ?_, ?_⟩
  · rw [hdials, hdrop, hstate]
    exact hA.fresh
  · intro hst w hw
    rw [himages]
    exact (hA.sound (hstate ▸ hst) w hw).imp id hcalls
  · intro hst hnone w hw
    rw [hdials] at hnone ⊢
    exact (hA.complete (hstate ▸ hst) hnone w (himages ▸ hw)).imp id (.imp id hcalls)

/-- The table changes while no loop iterates over it: the call that changes it is in progress. -/
theorem inv_change (hW : Wired s) (hC : Current s) (hc : s.calls[i]? = some call)
    (hpc : call.pc = .change) (hquiet : ∀ dial ∈ s.dials, dial.iterates = false) :
    Wired (s.change i call) ∧ Current (s.change i call) := by
  have hnot : ∀ dial ∈ s.dials, dial.pc.pending = [] := by
    intro dial hmem
    have hit := hquiet dial hmem
    rw [Dial.iterates] at hit
    cases hp : dial.pc <;> rw [hp] at hit <;> first | rfl | cases hit
  -- the dials are the same but for the marks of an iteration that there is none of
  have hdisturb : s.dials.map Dial.disturb = s.dials := by
    refine (List.map_congr_left fun dial hmem => ?_).trans (List.map_id _)
    rw [Dial.disturb, hquiet dial hmem, Bool.or_false]
    rfl
  have hprog : ∀ {verb w}, InProgress s.calls verb w →
      InProgress (s.calls.set i { call with pc := .check }) verb w :=
    fun h => h.keep hc (.inr hpc)
  have hbegin := InProgress.begin .check hc (.inl rfl)
  unfold WebSocketClient.change
  cases hv : call.verb with
  | subscribe =>
    simp only [hdisturb, ite_self]
    have himages : ∀ w, w ∈ (s.subscriptions.insert call.filter call.filter).values.map
        SubscriptionFilter.wire ↔ w = call.filter.wire ∨ w ∈ s.images := by
      intro w
      simp only [List.mem_map, mem_images, mem_values_insert hW.keyed]
      constructor
      · rintro ⟨f, rfl | hf, rfl⟩
        · exact .inl rfl
        · exact .inr ⟨f, hf, rfl⟩
      · rintro (rfl | ⟨f, hf, rfl⟩)
        · exact ⟨_, .inl rfl, rfl⟩
        · exact ⟨f, .inr hf, rfl⟩
    constructor
    · refine ⟨hW.one, hW.socket, ?_, hW.steady, ?_⟩
      · intro dial hmem f hf
        rw [hnot dial hmem] at hf
        cases hf
      · intro k v hk
        replace hk : (s.subscriptions.insert call.filter call.filter).get? k = some v := hk
        rw [Dict.get?_insert] at hk
        split at hk
        · rename_i heq
          rw [← heq]
          exact (Option.some_inj.mp hk).symm
        · exact hW.keyed hk
    · intro j socket hj hsock hlive
      have hA := hC j socket hj hsock hlive
      refine ⟨hA.fresh, ?_, ?_⟩
      · intro hst w hw
        refine (hA.sound hst w hw).imp (fun hin => ?_) hprog
        exact (himages w).mpr (.inr hin)
      · intro hst hnone w hw
        rcases (himages w).mp hw with rfl | hin
        · exact .inr (.inr (hv ▸ hbegin))
        · exact (hA.complete hst hnone w hin).imp id (.imp id hprog)
  | unsubscribe =>
    simp only [hdisturb]
    split
    · have himages : ∀ w, w ∈ (s.subscriptions.erase call.filter).values.map
          SubscriptionFilter.wire → w ∈ s.images := by
        intro w hw
        simp only [List.mem_map, mem_values_erase hW.keyed] at hw
        obtain ⟨f, ⟨-, hf⟩, rfl⟩ := hw
        exact mem_images.mpr ⟨f, hf, rfl⟩
      constructor
      · refine ⟨hW.one, hW.socket, ?_, hW.steady, ?_⟩
        · intro dial hmem f hf
          rw [hnot dial hmem] at hf
          cases hf
        · intro k v hk
          replace hk : (s.subscriptions.erase call.filter).get? k = some v := hk
          rw [Dict.get?_erase] at hk
          split at hk
          · cases hk
          · exact hW.keyed hk
      · intro j socket hj hsock hlive
        have hA := hC j socket hj hsock hlive
        refine ⟨hA.fresh, ?_, ?_⟩
        · intro hst w hw
          rcases hA.sound hst w hw with hin | hp
          · obtain ⟨f, hf, rfl⟩ := mem_images.mp hin
            by_cases hfe : f = call.filter
            · subst hfe
              exact .inr (hv ▸ hbegin)
            · refine .inl (mem_images.mpr ⟨f, ?_, rfl⟩)
              exact (mem_values_erase hW.keyed _ _).mpr ⟨hfe, hf⟩
          · exact .inr (hprog hp)
        · intro hst hnone w hw
          exact (hA.complete hst hnone w (himages w hw)).imp id (.imp id hprog)
    · refine ⟨hW.keep rfl rfl (.inr rfl), fun j socket hj hsock hlive => ?_⟩
      exact (hC j socket hj hsock hlive).recall rfl rfl rfl rfl fun h => h.keep hc (.inr hpc)

/-- What the socket behind `_ws` is when a command does not get through to a server that
counts: there is none, it is dead, or the state is not CONNECTED. -/
theorem send_of_live (c : Client) (verb : Verb) (hlive : s.live = true)
    (hstate : s.state = .connected) (filter : SubscriptionFilter) : ∃ i socket, s.ws = some i ∧ s.sockets[i]? = some socket ∧
      socket.alive = true ∧
      s.send c verb filter = some (s.sockets.set i (socket.receive verb filter.wire)) := by
  obtain ⟨i, hi, hlive⟩ := (Option.any_eq_true _ _).mp hlive
  obtain ⟨socket, hsock, halive⟩ := (Option.any_eq_true _ _).mp hlive
  refine ⟨i, socket, hi, hsock, halive, ?_⟩
  simp [WebSocketClient.send, hi, hstate, hsock, halive]

theorem send_cases {filter : SubscriptionFilter} {sockets : List Socket}
    (h : s.send c verb filter = some sockets) :
    s.ws = none ∨ ∃ i socket, s.ws = some i ∧ s.sockets[i]? = some socket ∧ socket.alive = true ∧
      sockets = s.sockets.set i (socket.receive verb filter.wire) := by
  unfold WebSocketClient.send at h
  split at h
  · rename_i hnone
    exact .inl hnone
  · rename_i i hi
    split at h
    · cases h
    · obtain ⟨socket, hsock, h⟩ := Option.bind_eq_some_iff.mp h
      split at h
      · rename_i halive
        exact .inr ⟨i, socket, hi, hsock, halive, (Option.some_inj.mp h).symm⟩
      · cases h

theorem send_of_dead (hlive : s.live = false) (filter : SubscriptionFilter) :
    (s.send c verb filter).getD s.sockets = s.sockets := by
  rw [WebSocketClient.live] at hlive
  unfold WebSocketClient.send
  cases hi : s.ws with
  | none =>
    dsimp only
    split <;> rfl
  | some i =>
    dsimp only
    split
    · rfl
    · cases hsock : s.sockets[i]? with
      | none => rfl
      | some socket =>
        rw [hi, Option.any_some, hsock, Option.any_some] at hlive
        simp [hlive]

theorem live_of_current (hi : s.ws = some i) (hsock : s.sockets[i]? = some socket)
    (halive : socket.alive = true) : s.live = true := by
  rw [WebSocketClient.live, hi, Option.any_some, hsock, Option.any_some, halive]

/-- The command of a call fits the table, and the call ends. -/
theorem Agreeing.command (hA : Agreeing s socket) (hc : s.calls[i]? = some call) (hstate : s.state = .connected)
    (hfits : decide (call.filter.wire ∈ s.images) = decide (call.verb = .subscribe))
    {sockets : List Socket} :
    Agreeing { s.setCall i call .ended with sockets }
      (socket.receive call.verb call.filter.wire) := by
  have hother : ∀ {verb w}, InProgress s.calls verb w → (call.verb = verb → call.filter.wire ≠ w) →
      InProgress (s.calls.set i { call with pc := .ended }) verb w := by
    intro verb w h hne
    rcases h.set .ended hc with hkeep | ⟨hv, hw, -⟩
    · exact hkeep
    · exact absurd hw (hne hv)
  refine ⟨fun ho => ⟨(hA.fresh ho).1, fun hst => absurd hstate hst⟩, ?_, ?_⟩
  · intro _ w hw
    cases hv : call.verb with
    | subscribe =>
      rw [hv] at hw hfits
      rcases List.mem_cons.mp hw with rfl | hw
      · have hin : call.filter.wire ∈ s.images := by simpa using hfits
        exact .inl hin
      · refine (hA.sound hstate w hw).imp id fun h => hother h fun heq => ?_
        rw [hv] at heq
        cases heq
    | unsubscribe =>
      rw [hv] at hw
      obtain ⟨hw, hne⟩ := List.mem_filter.mp hw
      refine (hA.sound hstate w hw).imp id fun h => hother h fun _ heq => ?_
      simp [heq] at hne
  · intro _ hnone w hw
    replace hw : w ∈ s.images := hw
    cases hv : call.verb with
    | subscribe =>
      by_cases hwire : call.filter.wire = w
      · exact .inl (hwire ▸ List.mem_cons_self)
      · refine (hA.complete hstate hnone w hw).imp (List.mem_cons_of_mem _) (.imp id fun h => ?_)
        exact hother h fun _ => hwire
    | unsubscribe =>
      have hwire : call.filter.wire ≠ w := by
        rintro rfl
        rw [hv, decide_eq_true hw] at hfits
        simp at hfits
      refine (hA.complete hstate hnone w hw).imp (fun hin => ?_) (.imp id fun h => ?_)
      · exact List.mem_filter.mpr ⟨hin, by simpa using hwire.symm⟩
      · exact hother h fun _ => hwire

theorem inv_goCall {s' : WebSocketClient} (hW : Wired s) (hC : Current s)
    (hc : s.calls[i]? = some call) (hok : Orderly s (.goCall i) = true)
    (hstep : s.goCall c i call = some s') : Wired s' ∧ Current s' := by
  unfold WebSocketClient.goCall at hstep
  cases hpc : call.pc <;> rw [hpc] at hstep <;> simp only [Option.some.injEq] at hstep
  case lookup =>
    subst hstep
    refine ⟨hW.keep rfl rfl (.inr rfl), fun j socket hj hsock hlive => ?_⟩
    exact (hC j socket hj hsock hlive).recall rfl rfl rfl rfl fun h => h.keep hc (.inl hpc)
  case change =>
    subst hstep
    refine inv_change hW hC hc hpc ?_
    simpa [Orderly, hc, hpc] using hok
  case check =>
    subst hstep
    refine ⟨hW.keep rfl rfl (.inr rfl), fun j socket hj hsock hlive => ?_⟩
    have hA := hC j socket hj hsock hlive
    split
    · refine hA.recall rfl rfl rfl rfl fun {verb w} h => ?_
      rcases h.set .send hc with hkeep | ⟨rfl, rfl, -⟩
      · exact hkeep
      · exact InProgress.begin .send hc (.inr rfl)
    · rename_i hsends
      have hstate : s.state ≠ .connected := by
        intro hst
        refine hsends ⟨hst, fun hn => ?_⟩
        have := hn.2.2
        rw [show s.ws = some j from hj] at this
        cases this
      exact ⟨hA.fresh, fun hst => absurd hst hstate, fun hst => absurd hst hstate⟩
  case send =>
    subst hstep
    refine ⟨hW.keep rfl rfl (.inr rfl), ?_⟩
    cases hl : s.live with
    | false =>
      intro j socket hj hsock halive
      replace hsock : ((s.send c call.verb call.filter).getD s.sockets)[j]? = some socket := hsock
      rw [send_of_dead hl] at hsock
      rw [live_of_current (s := s) hj hsock halive] at hl
      cases hl
    | true =>
      have hfits : s.state = .connected ∧
          decide (call.filter.wire ∈ s.images) = decide (call.verb = .subscribe) := by
        simpa [Orderly, hc, hpc, hl] using hok
      obtain ⟨j, socket, hj, hsock, halive, hsend⟩ :=
        send_of_live c call.verb hl hfits.1 call.filter
      intro j' socket' hj' hsock' halive'
      replace hj' : s.ws = some j' := hj'
      replace hsock' : ((s.send c call.verb call.filter).getD s.sockets)[j']? = some socket' :=
        hsock'
      rw [hj, Option.some_inj] at hj'
      subst hj'
      rw [hsend, Option.getD_some,
        List.getElem?_set_self (List.getElem?_eq_some_iff.mp hsock).1, Option.some_inj] at hsock'
      subst hsock'
      exact (hC j socket hj hsock halive).command hc hfits.1 hfits.2
  case ended => cases hstep

/-- The next step of a dial. -/
theorem inv_goDial (hW : Wired s) (hC : Current s) (hd : s.dials[d]? = some dial)
    (hstep : s.goDial c d dial = some s') : Wired s' ∧ Current s' := by
  have hmem := List.mem_of_getElem? hd
  have hidle : ∀ {dial' : Dial}, dial'.pc ≠ .opened → dial.pc ≠ .ended →
      ∀ y ∈ s.dials.set d dial', y.pc ≠ .opened := by
    intro dial' hne ha y hy
    rcases hW.set_cases hd ha hy with rfl | ⟨-, hover⟩
    · exact hne
    · rw [hover]
      nofun
  unfold WebSocketClient.goDial at hstep
  cases hpc : dial.pc <;> rw [hpc] at hstep
  case opened =>
    rw [Option.some_inj] at hstep
    subst hstep
    have ha : dial.pc ≠ .ended := by rw [hpc]; nofun
    constructor
    · exact hW.setDial hd ha rfl rfl (fun i hi _ => hW.socket hi dial hmem (by rw [hpc]; rfl))
        nofun nofun
    · intro i socket hi hsock halive
      have hA := hC i socket hi hsock halive
      refine ⟨?_, fun _ w hw => ?_, fun _ hnone => ?_⟩
      · rintro ⟨y, hy, ho⟩
        exact absurd ho (hidle (by nofun) ha y hy)
      · -- the server holds nothing yet unless the state was CONNECTED before
        by_cases hst : s.state = .connected
        · exact hA.sound hst w hw
        · rw [(hA.fresh ⟨dial, hmem, hpc⟩).2 hst] at hw
          cases hw
      · have := hnone _ (mem_set_self hd)
        cases this
  case connected =>
    rw [Option.some_inj] at hstep
    subst hstep
    have ha : dial.pc ≠ .ended := by rw [hpc]; nofun
    constructor
    · exact hW.setDial hd ha rfl rfl (fun i hi _ => hW.socket hi dial hmem (by rw [hpc]; rfl))
        (fun f hf => hf) (fun _ => rfl)
    · intro i socket hi hsock halive
      have hA := hC i socket hi hsock halive
      refine ⟨?_, hA.sound, fun _ _ w hw => ?_⟩
      · rintro ⟨y, hy, ho⟩
        exact absurd ho (hidle (by nofun) ha y hy)
      · -- the loop starts with all of the table
        obtain ⟨f, hf, rfl⟩ := mem_images.mp hw
        exact .inr (.inl ⟨_, mem_set_self hd, f, hf, rfl⟩)
  case iterating todo =>
    have ha : dial.pc ≠ .ended := by rw [hpc]; nofun
    cases todo with
    | nil =>
      rw [Option.some_inj] at hstep
      subst hstep
      refine ⟨hW.setDial hd ha rfl rfl nofun nofun nofun, fun i socket hi hsock halive => ?_⟩
      refine (hC i socket hi hsock halive).setDial hW hd ha rfl rfl rfl rfl nofun (fun _ => ?_) ?_
      · rw [hpc]
        rfl
      · rw [hpc]
        nofun
    | cons filter todo =>
      rw [Option.some_inj] at hstep
      subst hstep
      have hsteady := hW.steady dial hmem (by rw [Dial.iterates, hpc])
      constructor
      · refine hW.setDial hd ha rfl rfl (fun i hi _ => hW.socket hi dial hmem (by rw [hpc]; rfl))
          (fun f hf => hW.within dial hmem f ?_) fun _ => hsteady
        rw [hpc]
        exact hf
      · intro i socket hi hsock halive
        refine (hC i socket hi hsock halive).setDial hW hd ha rfl rfl rfl rfl nofun (fun _ => ?_) ?_
        · rw [hpc]
          rfl
        · rw [hpc]
          exact fun f hf => hf
  case sending filter todo =>
    have ha : dial.pc ≠ .ended := by rw [hpc]; nofun
    have hsteady := hW.steady dial hmem (by rw [Dial.iterates, hpc])
    have hin : filter.wire ∈ s.images :=
      mem_images.mpr ⟨filter, hW.within dial hmem filter (by rw [hpc]; exact List.mem_cons_self),
        rfl⟩
    have hwired : ∀ {t : WebSocketClient}, t.dials = s.dials.set d { dial with pc := .iterating todo } →
        t.subscriptions = s.subscriptions → t.ws = s.ws → Wired t := by
      intro t hdials hsubs hws
      refine hW.setDial hd ha hdials hsubs
        (fun i hi _ => hW.socket (hws ▸ hi) dial hmem (by rw [hpc]; rfl))
        (fun f hf => hW.within dial hmem f ?_) fun _ => hsteady
      rw [hpc]
      exact List.mem_cons_of_mem _ hf
    dsimp only at hstep
    cases hsend : s.send c .subscribe filter with
    | some sockets =>
      rw [hsend, Option.some_inj] at hstep
      subst hstep
      refine ⟨hwired rfl rfl rfl, ?_⟩
      rcases send_cases hsend with hnone | ⟨i, socket, hi, hsock, halive, rfl⟩
      · exact current_of_none hnone
      · intro j socket' hj hsock' _
        replace hj : s.ws = some j := hj
        rw [hi, Option.some_inj] at hj
        subst hj
        replace hsock' : (s.sockets.set i (socket.receive .subscribe filter.wire))[i]? =
          some socket' := hsock'
        rw [List.getElem?_set_self (List.getElem?_eq_some_iff.mp hsock).1, Option.some_inj]
          at hsock'
        subst hsock'
        refine (hC i socket hi hsock halive).receive rfl rfl rfl (hidle (by nofun) ha) hin ?_ ?_
        · intro _ y hy
          rcases hW.eq_or_ended hd ha hy with rfl | hover
          · rw [hpc]
            rfl
          · rw [hover]
            rfl
        · rintro w ⟨y, hy, f, hf, hw⟩
          rcases hW.eq_or_ended hd ha hy with rfl | hover
          · rw [hpc] at hf
            rcases List.mem_cons.mp hf with rfl | hf
            · exact .inl hw.symm
            · exact .inr ⟨_, mem_set_self hd, f, hf, hw⟩
          · rw [hover] at hf
            cases hf
    | none =>
      rw [hsend, Option.some_inj] at hstep
      subst hstep
      split
      · rename_i hrt
        refine ⟨hW.fail hd ha, hC.fail hW hd ha (by rw [hpc]; rfl) fun hasync => ?_⟩
        rw [hrt] at hasync
        cases hasync
      · refine ⟨hwired rfl rfl rfl, fun i socket hi hsock halive => ?_⟩
        refine .of_idle (fun hstate => ?_) (hidle (by nofun) ha)
        have hlive := live_of_current (s := s) hi hsock halive
        obtain ⟨_, _, _, _, _, hsome⟩ := send_of_live c .subscribe hlive hstate filter
        rw [hsend] at hsome
        cases hsome
  case failed =>
    rw [Option.some_inj] at hstep
    subst hstep
    have ha : dial.pc ≠ .ended := by rw [hpc]; nofun
    exact ⟨hW.setDial hd ha rfl rfl nofun nofun nofun, current_of_none rfl⟩
  all_goals cases hstep

/-- A dial is answered while no `_handle_disconnect` is in progress. -/
theorem inv_dialed (hW : Wired s) (hC : Current s) (hd : s.dials[d]? = some dial)
    (hpc : dial.pc = .dialing) (hdrop : s.dropping = 0) {ok : Bool} :
    Wired (s.dialed c d dial ok) ∧ Current (s.dialed c d dial ok) := by
  have ha : dial.pc ≠ .ended := by rw [hpc]; nofun
  unfold WebSocketClient.dialed
  split
  · constructor
    · exact hW.setDial hd ha rfl rfl (fun i hi _ => hi) nofun nofun
    · -- the new socket's server holds nothing, and its loop has not begun
      intro i socket hi hsock _
      replace hi : some s.sockets.length = some i := hi
      rw [Option.some_inj] at hi
      subst hi
      replace hsock : (s.sockets ++ [({} : Socket)])[s.sockets.length]? = some socket := hsock
      rw [List.getElem?_concat_length, Option.some_inj] at hsock
      subst hsock
      refine ⟨fun _ => ⟨hdrop, fun _ => rfl⟩, nofun, fun _ hnone => ?_⟩
      have := hnone _ (mem_set_self hd)
      cases this
  · refine ⟨hW.fail hd ha, hC.fail hW hd ha ?_ fun _ => ?_⟩
    · rw [hpc]
      rfl
    · rw [hpc]
      rfl

theorem allEnded {a : Action} (hok : Orderly s a = true) (ha : a = .connect ∨ a = .fire := by simp) :
    ∀ dial ∈ s.dials, dial.pc = .ended := by
  rcases ha with rfl | rfl <;> simpa [Orderly] using hok

theorem started_not_opened {redial : Bool} (hover : ∀ dial ∈ s.dials, dial.pc = .ended) :
    ∀ dial ∈ s.dials ++ [{ redial := redial }], dial.pc ≠ .opened := by
  intro dial hmem
  rcases List.mem_append.mp hmem with hold | hnew
  · rw [hover dial hold]
    nofun
  · rw [List.mem_singleton.mp hnew]
    nofun

/-- A dial that starts has nothing to send yet. -/
theorem Agreeing.start (hA : Agreeing s socket) {redial : Bool}
    (hover : ∀ dial ∈ s.dials, dial.pc = .ended)
    (hdials : s'.dials = s.dials ++ [{ redial := redial }])
    (hsubs : s'.subscriptions = s.subscriptions) (hcalls : s'.calls = s.calls)
    (hstate : s'.state = s.state) : Agreeing s' socket := by
  have himages : s'.images = s.images := by rw [WebSocketClient.images, hsubs]; rfl
  refine ⟨?_, ?_, ?_⟩
  · rintro ⟨y, hy, ho⟩
    rw [hdials] at hy
    exact absurd ho (started_not_opened hover y hy)
  · rw [hstate, himages, hcalls]
    exact hA.sound
  · intro hst hnone w hw
    rw [hcalls]
    have hstarting : ∀ y ∈ s.dials, y.pc.starting = false := by
      intro y hy
      rw [hover y hy]
      rfl
    refine (hA.complete (hstate ▸ hst) hstarting w (himages ▸ hw)).imp id (.imp ?_ id)
    rintro ⟨y, hy, f, hf, -⟩
    rw [hover y hy] at hf
    cases hf

theorem inv_step (hW : Wired s) (hC : Current s) {a : Action} (hok : Orderly s a = true)
    (hstep : s.step c a = some s') : Wired s' ∧ Current s' := by
  cases a with
  | call verb filter =>
    rw [WebSocketClient.step, Option.some_inj] at hstep
    subst hstep
    refine ⟨hW.keep rfl rfl (.inr rfl), fun i socket hi hsock halive => ?_⟩
    exact (hC i socket hi hsock halive).recall rfl rfl rfl rfl InProgress.append
  | goCall i =>
    obtain ⟨call, hc, hstep⟩ := Option.bind_eq_some_iff.mp hstep
    exact inv_goCall hW hC hc hok hstep
  | connect =>
    rw [WebSocketClient.step] at hstep
    split at hstep
    · rw [Option.some_inj] at hstep
      exact hstep ▸ ⟨hW, hC⟩
    · rw [Option.some_inj] at hstep
      subst hstep
      have hover := allEnded hok
      refine ⟨hW.start hover rfl rfl rfl, fun i socket hi hsock halive => ?_⟩
      exact .of_idle nofun (started_not_opened hover)
  | fire =>
    have hover := allEnded hok
    have hstart : ∀ {t : WebSocketClient}, t.dials = s.dials ++ [{ redial := true }] →
        t.subscriptions = s.subscriptions → t.ws = s.ws → t.sockets = s.sockets →
        t.calls = s.calls → t.state = s.state ∨ t.state = .connecting →
        Wired t ∧ Current t := by
      intro t hdials hsubs hws hsocks hcalls hstate
      refine ⟨hW.start hover hdials hsubs hws, fun i socket hi hsock halive => ?_⟩
      have hA := hC i socket (hws ▸ hi) (hsocks ▸ hsock) halive
      rcases hstate with hsame | hconn
      · exact hA.start hover hdials hsubs hcalls hsame
      · exact .of_idle (by rw [hconn]; nofun) (by rw [hdials]; exact started_not_opened hover)
    rw [WebSocketClient.step] at hstep
    split at hstep
    · cases hstep
    · split at hstep
      · split at hstep
        · rw [Option.some_inj] at hstep
          subst hstep
          refine ⟨hW.keep rfl rfl (.inr rfl), fun i socket hi hsock halive => ?_⟩
          exact (hC i socket hi hsock halive).recall rfl rfl rfl rfl id
        · rw [Option.some_inj] at hstep
          subst hstep
          exact hstart rfl rfl rfl rfl rfl (.inr rfl)
      · rw [Option.some_inj] at hstep
        subst hstep
        exact hstart rfl rfl rfl rfl rfl (.inl rfl)
  | dialed d ok =>
    obtain ⟨dial, hd, hstep⟩ := Option.bind_eq_some_iff.mp hstep
    split at hstep
    · rename_i hpc
      rw [Option.some_inj] at hstep
      subst hstep
      exact inv_dialed hW hC hd hpc (by simpa [Orderly] using hok)
    · cases hstep
  | goDial d =>
    obtain ⟨dial, hd, hstep⟩ := Option.bind_eq_some_iff.mp hstep
    exact inv_goDial hW hC hd hstep
  | cutShort d raises =>
    -- no loop iterates over a table that has changed
    obtain ⟨dial, hd, hstep⟩ := Option.bind_eq_some_iff.mp hstep
    split at hstep
    · rename_i todo hpc
      split at hstep
      · rename_i hch
        have := hW.steady dial (List.mem_of_getElem? hd) (by rw [Dial.iterates, hpc])
        rw [hch] at this
        cases this
      · cases hstep
    · cases hstep
  | drop i =>
    obtain ⟨socket, hsock, rfl⟩ := Option.map_eq_some_iff.mp hstep
    refine ⟨hW.keep rfl rfl (.inr rfl), fun j socket' hj hsock' halive => ?_⟩
    rcases List.getElem?_set_cases hsock' with ⟨-, rfl⟩ | ⟨-, hold⟩
    · cases halive
    · exact (hC j socket' hj hold halive).recall rfl rfl rfl rfl id
  | lose =>
    rw [WebSocketClient.step] at hstep
    split at hstep
    · rename_i hdead
      rw [Option.some_inj] at hstep
      subst hstep
      refine ⟨hW.keep rfl rfl ?_, fun i socket hi hsock halive => ?_⟩
      · dsimp only
        split
        · exact .inr rfl
        · exact .inl rfl
      · dsimp only at hi
        split at hi
        · have hdead := hdead.2
          rw [WebSocketClient.currentDead, hi, Option.any_some,
            show s.sockets[i]? = some socket from hsock, Option.any_some, halive] at hdead
          cases hdead
        · cases hi
    · cases hstep
  | settle again =>
    rw [WebSocketClient.step] at hstep
    split at hstep
    · cases hstep
    · rename_i hdrop
      rw [Option.some_inj] at hstep
      subst hstep
      refine ⟨hW.keep rfl rfl (.inr rfl), fun i socket hi hsock halive => ?_⟩
      refine .of_idle (by cases again <;> nofun) fun dial hmem ho => ?_
      exact hdrop ((hC i socket hi hsock halive).fresh ⟨dial, hmem, ho⟩).1

/-! ### Agreement -/

theorem wired_init : Wired ({} : WebSocketClient) := by
  refine ⟨?_, fun _ dial hd => absurd hd List.not_mem_nil,
    fun dial hd => absurd hd List.not_mem_nil, fun dial hd => absurd hd List.not_mem_nil, ?_⟩
  · intro d d' dial dial' hd
    cases hd
  · intro k v hk
    cases hk

theorem inv_of_reachable (h : (system c).Reachable (fun s a => Orderly s a = true) s) :
    Wired s ∧ Current s := by
  refine h.invariant (P := fun s => Wired s ∧ Current s) ⟨wired_init, current_of_none rfl⟩ ?_
  intro s a s' hP hok hstep
  exact inv_step hP.1 hP.2 hok hstep

/-- In every orderly run, whenever the state is CONNECTED, the socket lives, its resubscribe
loop has ended and no call is in progress, the filters that the server holds are the wire
images of the filters in `_subscriptions`. -/
theorem agrees_of_reachable (c : Client) {s : WebSocketClient}
    (h : (system c).Reachable (fun s a => Orderly s a = true) s) : s.Agrees := by
  obtain ⟨hW, hC⟩ := inv_of_reachable h
  intro hstate hcalls i socket hi hsock halive hdials w
  have hA := hC i socket hi hsock halive
  have hidle : ∀ {verb w}, ¬ InProgress s.calls verb w := by
    rintro verb w ⟨j, call, hj, -, -, hpc⟩
    have := hcalls call (List.mem_of_getElem? hj)
    rw [this] at hpc
    simp at hpc
  -- a dial that has not ended is the one of the current socket
  have hheld : ∀ dial ∈ s.dials, dial.pc.held = false := by
    intro dial hmem
    by_contra hh
    rw [Bool.not_eq_false] at hh
    rw [hdials dial hmem (hW.socket hi dial hmem hh)] at hh
    cases hh
  constructor
  · intro hw
    exact (hA.sound hstate w hw).resolve_right hidle
  · intro hw
    have hstarting : ∀ dial ∈ s.dials, dial.pc.starting = false := by
      intro dial hmem
      have := hheld dial hmem
      cases hpc : dial.pc <;> rw [hpc] at this <;> first | rfl | cases this
    rcases hA.complete hstate hstarting w hw with hin | ⟨dial, hmem, f, hf, -⟩ | hp
    · exact hin
    · have := hheld dial hmem
      cases hpc : dial.pc <;> rw [hpc] at this hf <;> first | (cases this; done) | cases hf
    · exact absurd hp hidle

/-- `connect()`, and the resubscribe loop over an empty table. -/
def Action.connectFirst : List Action :=
  [.connect, .dialed 0 true, .goDial 0, .goDial 0, .goDial 0]

/-- A whole call, the `i`-th one. -/
def Action.whole (i : ℕ) (verb : Verb) (filter : SubscriptionFilter) : List Action :=
  .call verb filter :: List.replicate 4 (.goCall i)

/-- A subscription that a redial restores. -/
theorem agrees_sample : ∃ s : WebSocketClient, s.Agrees ∧ s.state = .connected ∧ s.ws = some 1 ∧
    s.images = [(some "a", none)] := by
  have hrun : ((system .webSocket).runIf (fun s a => Orderly s a = true) (system .webSocket).init
      (Action.connectFirst ++ Action.whole 0 .subscribe { queue := some "a" } ++
        [.drop 0, .lose, .settle true, .fire, .dialed 1 true] ++ List.replicate 5 (.goDial 1))).any
      (fun s => s.state = .connected && s.ws = some 1 && s.images = [(some "a", none)]) = true := by
    decide
  obtain ⟨s, hs, hp⟩ := System.exists_of_runIf hrun
  simp only [Bool.and_eq_true, decide_eq_true_eq] at hp
  exact ⟨s, agrees_of_reachable .webSocket hs, hp.1.1, hp.1.2, hp.2⟩

/-- Two filters with one image: the `Unsubscribe` of the second takes the first one's too. -/
theorem shared_image_lost :
    ¬ ∀ (c : Client) (s : WebSocketClient), (system c).Reachable System.always s → s.Agrees := by
  intro hall
  have hrun : ((system .webSocket).run (system .webSocket).init
      (Action.connectFirst ++ Action.whole 0 .subscribe { queue := some "a" } ++
        Action.whole 1 .subscribe { queue := some "a", jobId := some "" } ++
        Action.whole 2 .unsubscribe { queue := some "a", jobId := some "" })).any
      (fun s => s.state = .connected && (s.calls.all fun call => call.pc = .ended) &&
        s.ws = some 0 && s.sockets = [⟨[], true⟩] && (s.dials.all fun dial => dial.pc = .ended) &&
        s.images = [(some "a", none)]) = true := by decide
  obtain ⟨s, hs, hp⟩ := System.exists_of_run hrun
  simp only [Bool.and_eq_true, decide_eq_true_eq, List.all_eq_true] at hp
  obtain ⟨⟨⟨⟨⟨hstate, hcalls⟩, hws⟩, hsockets⟩, hdials⟩, himages⟩ := hp
  have hiff := hall .webSocket s hs hstate hcalls 0 ⟨[], true⟩ hws (by rw [hsockets]; rfl) rfl
    (fun dial hmem _ => hdials dial hmem) (some "a", none)
  rw [himages] at hiff
  have := hiff.mpr List.mem_cons_self
  cases this

end SpooledSdk.Realtime.Commands
