/-
Which stream an automatic SSE reconnect opens.

A reconnect calls `connect()` without a filter, so it opens the stream of the oldest
subscription; the stream that dropped need not be that one.

* `SameUrl` — what `connect()` would open is what the last stream was opened for;
* `sameUrl_step` — the steps that keep it;
* `auto_reconnect_same_url` — in runs of such steps an automatic reconnect opens the URL of the
  stream that dropped;
* `auto_reconnect_unfiltered` — a stream opened by `connect(filter)` comes back unfiltered.
-/
import SpooledSdk.Realtime.Unified

namespace SpooledSdk.Realtime.Unified

open Sse (Stream DialReply)

namespace SpooledRealtime

/-- The URL that `connect(filter)` would dial. -/
def urlFor (o : Options) (s : SpooledRealtime) (filter : Option SubscriptionFilter) : String :=
  buildSseUrl o.baseUrl s.subscriptions filter

/-- The last stream was opened for a filter that is still wanted. -/
def wanted (s : SpooledRealtime) : Bool :=
  s.opened.any Opened.wanted

end SpooledRealtime

/-- A stream is opened for the filter that a plain `connect()` would use, and what that is
changes only when the filter that the stream was opened for is unsubscribed. -/
def KeepsUrl (o : Options) (s : SpooledRealtime) : Action → Prop
  | .connect (some filter) (.accepted _) =>
    s.state = .connected ∨ s.urlFor o (some filter) = s.urlFor o none
  | .reconnect (some filter) (.accepted _) => s.urlFor o (some filter) = s.urlFor o none
  | .subscribe filter reply =>
    let s' := { s with subscriptions := s.subscriptions.insert filter filter }
    (s.subscriptions.get? filter).isSome = true ∨
      match s.state, reply with
      | .connected, .accepted _ => s'.urlFor o (some filter) = s'.urlFor o none
      | _, _ => s.wanted = true → s'.urlFor o none = s.urlFor o none
  | .unsubscribe filter =>
    let s' := { s with subscriptions := s.subscriptions.erase filter }
    s.wanted = true →
      (∃ opened ∈ s.opened, opened.filter = some filter) ∨ s'.urlFor o none = s.urlFor o none
  | _ => True

/-- What `connect()` would open is what the last stream was opened for, as long as that is
wanted. -/
def SameUrl (o : Options) (s : SpooledRealtime) : Prop :=
  ∀ opened, s.opened = some opened → opened.wanted = true → opened.url = s.urlFor o none

section

variable {o : Options} {s s' : SpooledRealtime} {filter : Option SubscriptionFilter}
  {reply : DialReply}

/-- What `SameUrl` looks at. -/
def SameFilters (s s' : SpooledRealtime) : Prop :=
  s'.subscriptions = s.subscriptions ∧ s'.opened = s.opened

theorem SameUrl.of_sameFilters (h : SameUrl o s) (hs : SameFilters s s') : SameUrl o s' := by
  intro opened hopen hw
  rw [SpooledRealtime.urlFor, hs.1]
  exact h opened (hs.2.symm.trans hopen) hw

theorem sameFilters_handleDisconnect : SameFilters s (s.handleDisconnect o) := by
  unfold SpooledRealtime.handleDisconnect
  dsimp only
  split
  · exact ⟨rfl, rfl⟩
  · exact ⟨rfl, rfl⟩

theorem sameFilters_drop : SameFilters s (s.drop o) :=
  sameFilters_handleDisconnect (s := { s with sseResponse := none })

theorem sameFilters_receive {event : RealtimeEvent} : SameFilters s (s.receive o event) := by
  unfold SpooledRealtime.receive
  dsimp only
  split
  · split
    · exact sameFilters_drop (s := { s with reconnectAttempts := 0 })
    · exact ⟨rfl, rfl⟩
  · exact ⟨rfl, rfl⟩

theorem sameFilters_readStep {stream : Stream} : SameFilters s (s.readStep o stream) := by
  unfold SpooledRealtime.readStep
  split
  · split
    · exact ⟨rfl, rfl⟩
    · exact sameFilters_drop
  · exact sameFilters_drop
  · rename_i item items error
    dsimp only
    split
    · exact sameFilters_drop (s := { s with sseResponse := some ⟨items, error⟩ })
    · exact ⟨rfl, rfl⟩
    · exact sameFilters_receive (s := { s with sseResponse := some ⟨items, error⟩ })

theorem sameFilters_lateStep {i : ℕ} {reader : Reader} {closed : Bool} :
    SameFilters s (s.lateStep o i reader closed) := by
  have hended : SameFilters s ({ s with leftover := s.leftover.eraseIdx i }.handleDisconnect o) :=
    sameFilters_handleDisconnect (s := { s with leftover := s.leftover.eraseIdx i })
  unfold SpooledRealtime.lateStep
  dsimp only
  split
  · exact hended
  · split
    · exact ⟨rfl, rfl⟩
    · exact hended
  · exact hended
  · split
    · exact hended
    · exact ⟨rfl, rfl⟩
    · split
      · exact sameFilters_handleDisconnect (s := { s with
          leftover := s.leftover.eraseIdx i, reconnectAttempts := 0 })
      · exact ⟨rfl, rfl⟩

/-- A call that opens no stream changes no filter; one that opens a stream opens it for the
filter given, or the oldest subscription. -/
theorem connectSse_cases (o : Options) (s : SpooledRealtime)
    (filter : Option SubscriptionFilter) (reply : DialReply) :
    (∃ e, reply = .failed e ∧ SameFilters s (s.connectSse o filter reply).1) ∨
    (∃ stream, reply = .accepted stream ∧
      (s.connectSse o filter reply).1.subscriptions = s.subscriptions ∧
      (s.connectSse o filter reply).1.opened = some
        { url := s.urlFor o filter, filter := effective s.subscriptions filter }) := by
  cases reply with
  | failed e => exact .inl ⟨e, rfl, rfl, rfl⟩
  | accepted stream => exact .inr ⟨stream, rfl, rfl, rfl⟩

theorem SameUrl.connectSse (h : SameUrl o s)
    (hf : ∀ stream, reply = .accepted stream → s.urlFor o filter = s.urlFor o none) :
    SameUrl o (s.connectSse o filter reply).1 := by
  obtain ⟨e, -, hs⟩ | ⟨stream, hr, hsubs, hopen⟩ := connectSse_cases o s filter reply
  · exact h.of_sameFilters hs
  · intro opened heq _
    rw [hopen, Option.some_inj] at heq
    rw [SpooledRealtime.urlFor, hsubs, ← heq]
    exact hf stream hr

theorem SameUrl.connect (h : SameUrl o s)
    (hf : ∀ stream, reply = .accepted stream → s.state = .connected ∨
      s.urlFor o filter = s.urlFor o none) :
    SameUrl o (s.connect o filter reply).1 := by
  unfold SpooledRealtime.connect
  split
  · exact h
  · rename_i hstate
    refine SameUrl.connectSse (s := { s with state := .connecting }) h fun stream hr => ?_
    obtain hc | hf := hf stream hr
    · exact absurd (.inl hc) hstate
    · exact hf

theorem SameUrl.reconnect (h : SameUrl o s)
    (hf : ∀ stream, reply = .accepted stream → s.urlFor o filter = s.urlFor o none) :
    SameUrl o (s.reconnect o filter reply).1 :=
  SameUrl.connect (s := s.disconnect) h fun stream hr => .inr (hf stream hr)

theorem SameUrl.doReconnect (h : SameUrl o s) : SameUrl o (s.doReconnect o reply) := by
  have hconnect : SameUrl o (s.connect o none reply).1 := h.connect fun _ _ => .inr rfl
  unfold SpooledRealtime.doReconnect
  split
  · rename_i heq
    rw [heq] at hconnect
    exact hconnect
  · rename_i heq
    rw [heq] at hconnect
    split
    · exact hconnect.of_sameFilters ⟨rfl, rfl⟩
    · exact hconnect.of_sameFilters sameFilters_handleDisconnect

theorem SameUrl.subscribe {f : SubscriptionFilter} (h : SameUrl o s)
    (hk : KeepsUrl o s (.subscribe f reply)) : SameUrl o (s.subscribe o f reply) := by
  unfold SpooledRealtime.subscribe
  split
  · exact h
  · rename_i hnew
    obtain hold | hk := hk
    · exact absurd hold hnew
    dsimp only at hk ⊢
    -- the new filter may become the oldest one: only a stream opened for it is unharmed
    have hinsert : (s.wanted = true →
        { s with subscriptions := s.subscriptions.insert f f }.urlFor o none = s.urlFor o none) →
        SameUrl o { s with subscriptions := s.subscriptions.insert f f } := by
      intro hurl opened hopen hw
      have hwant : s.wanted = true := by
        rw [SpooledRealtime.wanted, show s.opened = some opened from hopen]
        exact hw
      rw [hurl hwant]
      exact h opened hopen hw
    split
    · rename_i hstate
      rw [hstate] at hk
      unfold SpooledRealtime.reconnect SpooledRealtime.connect
      rw [if_neg (by rintro (hc | hc) <;> cases hc)]
      cases reply with
      | failed e => exact (hinsert hk).of_sameFilters ⟨rfl, rfl⟩
      | accepted stream =>
        intro opened hopen _
        rw [← Option.some_inj.mp hopen]
        exact hk
    · rename_i hstate
      refine hinsert ?_
      cases hst : s.state with
      | connected => exact absurd hst hstate
      | _ =>
        rw [hst] at hk
        exact hk

theorem SameUrl.unsubscribe {f : SubscriptionFilter} (h : SameUrl o s)
    (hk : KeepsUrl o s (.unsubscribe f)) : SameUrl o (s.unsubscribe f) := by
  -- the filter of the stream is the same, and wanted only if it was and is not `f`
  have hopened : ∀ opened, (s.opened.map (·.unsubscribe f)) = some opened →
      opened.wanted = true → s.opened = some opened ∧ opened.filter ≠ some f := by
    intro opened hopen hw
    obtain ⟨opened', hs, rfl⟩ := Option.map_eq_some_iff.mp hopen
    unfold Opened.unsubscribe at hw ⊢
    split at hw
    · unfold Opened.wanted at hw
      rw [Bool.not_true, Bool.and_false] at hw
      cases hw
    · rename_i hne
      rw [if_neg hne]
      exact ⟨hs, hne⟩
  unfold SpooledRealtime.unsubscribe
  split
  · intro opened hopen hw
    obtain ⟨hs, hne⟩ := hopened opened hopen hw
    have hwant : s.wanted = true := by
      rw [SpooledRealtime.wanted, hs]
      exact hw
    obtain ⟨opened', hs', hf⟩ | hurl := hk hwant
    · rw [hs] at hs'
      cases hs'
      exact absurd hf hne
    · rw [h opened hs hw]
      exact hurl.symm
  · intro opened hopen hw
    exact h opened (hopened opened hopen hw).1 hw

/-- **The step lemma.** -/
theorem sameUrl_step {a : Action} (h : SameUrl o s) (hk : KeepsUrl o s a)
    (hstep : s.step o a = some s') : SameUrl o s' := by
  cases a with
  | connect filter reply =>
    obtain rfl := Option.some_inj.mp hstep
    refine h.connect fun stream hr => ?_
    subst hr
    cases filter with
    | none => exact .inr rfl
    | some f => exact hk
  | disconnect =>
    obtain rfl := Option.some_inj.mp hstep
    exact h.of_sameFilters ⟨rfl, rfl⟩
  | reconnect filter reply =>
    obtain rfl := Option.some_inj.mp hstep
    refine h.reconnect fun stream hr => ?_
    subst hr
    cases filter with
    | none => rfl
    | some f => exact hk
  | subscribe f reply =>
    obtain rfl := Option.some_inj.mp hstep
    exact h.subscribe hk
  | unsubscribe f =>
    obtain rfl := Option.some_inj.mp hstep
    exact h.unsubscribe hk
  | read =>
    obtain ⟨stream, -, rfl⟩ := Option.map_eq_some_iff.mp hstep
    exact h.of_sameFilters sameFilters_readStep
  | late i closed =>
    obtain ⟨reader, -, rfl⟩ := Option.map_eq_some_iff.mp hstep
    split
    · exact h.of_sameFilters ⟨rfl, rfl⟩
    · exact h.of_sameFilters sameFilters_lateStep
  | fire reply =>
    dsimp only [SpooledRealtime.step] at hstep
    split at hstep
    · obtain rfl := Option.some_inj.mp hstep
      exact SameUrl.doReconnect (s := { s with reconnectTimer := false }) h
    · cases hstep
  | fireStray reply =>
    dsimp only [SpooledRealtime.step] at hstep
    split at hstep
    · obtain rfl := Option.some_inj.mp hstep
      exact SameUrl.doReconnect (s := { s with strayTimers := s.strayTimers - 1 }) h
    · cases hstep

theorem sameUrl_of_reachable (h : (system o).Reachable (KeepsUrl o) s) : SameUrl o s :=
  h.invariant (fun _ hopen => by cases hopen) fun _ _ _ hs hk hstep => sameUrl_step hs hk hstep

/-! ### What a reconnect dials -/

/-- Every dial of an automatic reconnect is for what `connect()` would open. -/
theorem doReconnect_dialed :
    (s.doReconnect o reply).dialed = s.dialed ∨
      (s.doReconnect o reply).dialed = s.dialed ++ [s.urlFor o none] := by
  have hhandle : ∀ t : SpooledRealtime, (t.handleDisconnect o).dialed = t.dialed := by
    intro t
    unfold SpooledRealtime.handleDisconnect
    dsimp only
    split <;> rfl
  have hconnect : (s.connect o none reply).1.dialed = s.dialed ∨
      (s.connect o none reply).1.dialed = s.dialed ++ [s.urlFor o none] := by
    unfold SpooledRealtime.connect
    split
    · exact .inl rfl
    · cases reply with
      | failed e => exact .inr rfl
      | accepted stream => exact .inr rfl
  unfold SpooledRealtime.doReconnect
  split
  · rename_i heq
    rw [heq] at hconnect
    exact hconnect
  · rename_i heq
    rw [heq] at hconnect
    split
    · exact hconnect
    · rw [hhandle]
      exact hconnect

end

/-- The timers of `_schedule_reconnect`. -/
def Action.isReconnect : Action → Bool
  | .fire _ | .fireStray _ => true
  | _ => false

theorem reconnect_dialed {o : Options} {s s' : SpooledRealtime} {a : Action}
    (ha : a.isReconnect = true) (hstep : s.step o a = some s') :
    s'.dialed = s.dialed ∨ s'.dialed = s.dialed ++ [s.urlFor o none] := by
  cases a with
  | fire reply =>
    dsimp only [SpooledRealtime.step] at hstep
    split at hstep
    · obtain rfl := Option.some_inj.mp hstep
      exact doReconnect_dialed (s := { s with reconnectTimer := false })
    · cases hstep
  | fireStray reply =>
    dsimp only [SpooledRealtime.step] at hstep
    split at hstep
    · obtain rfl := Option.some_inj.mp hstep
      exact doReconnect_dialed (s := { s with strayTimers := s.strayTimers - 1 })
    · cases hstep
  | _ => cases ha

/-- In every run whose calls keep the oldest subscription the one that the stream was opened
for, an automatic reconnect dials the URL of the stream that dropped, as long as its filter has
not been unsubscribed. -/
theorem auto_reconnect_same_url (o : Options) {s s' : SpooledRealtime} {a : Action}
    (h : (system o).Reachable (KeepsUrl o) s) (ha : a.isReconnect = true)
    (hstep : s.step o a = some s') {url : String} (hdial : s'.dialed = s.dialed ++ [url])
    {opened : Opened} (hopen : s.opened = some opened) (hw : opened.wanted = true) :
    url = opened.url := by
  rw [sameUrl_of_reachable h opened hopen hw]
  obtain hnone | hone := reconnect_dialed ha hstep
  · rw [hnone] at hdial
    have := congrArg List.length hdial
    rw [List.length_append, List.length_singleton] at this
    omega
  · rw [hone] at hdial
    exact (List.singleton_inj.mp (List.append_cancel_left hdial)).symm

/-- A stream for a subscribed job, which drops. -/
theorem auto_reconnect_same_url_sample :
    let o : Options := { baseUrl := "https://api" }
    ∃ s s' : SpooledRealtime, (system o).Reachable (KeepsUrl o) s ∧
      s.step o (.fire (.accepted ⟨[], none⟩)) = some s' ∧
      ∃ url, s'.dialed = s.dialed ++ [url] ∧ url = "https://api/api/v1/events/jobs/j1" := by
  intro o
  have hinit : (system o).Reachable (KeepsUrl o) (system o).init := .init
  have hsub := hinit.step
    (a := .subscribe { jobId := some "j1" } (.failed (.other "not dialed")))
    (by exact Or.inr fun hw => by cases hw) rfl
  have hconnect := hsub.step (a := .connect none (.accepted ⟨[], none⟩)) (by exact trivial) rfl
  have hdrop := hconnect.step (a := .read) (by exact trivial) rfl
  refine ⟨_, _, hdrop, rfl, _, rfl, ?_⟩
  exact auto_reconnect_same_url o hdrop (a := .fire (.accepted ⟨[], none⟩)) rfl rfl rfl
    (show _ = some (⟨_, some { jobId := some "j1" }, false⟩ : Opened) from rfl) rfl

/-- `connect(filter)` opens the stream of a job, the stream drops, and the automatic reconnect
opens the stream of all events. -/
theorem auto_reconnect_unfiltered :
    let o : Options := { baseUrl := "https://api" }
    let job : SubscriptionFilter := { jobId := some "j1" }
    ∃ s s' : SpooledRealtime, (system o).Reachable System.always s ∧
      s.opened = some ⟨"https://api/api/v1/events/jobs/j1", some job, false⟩ ∧
      s.step o (.fire (.accepted ⟨[], none⟩)) = some s' ∧
      s'.dialed = s.dialed ++ ["https://api/api/v1/events"] := by
  intro o job
  have hinit : (system o).Reachable System.always (system o).init := .init
  have hconnect := hinit.step
    (a := .connect (some job) (.accepted ⟨[], some (.other "connection reset")⟩)) trivial rfl
  have hdrop := hconnect.step (a := .read) trivial rfl
  exact ⟨_, _, hdrop, rfl, rfl, rfl⟩

end SpooledSdk.Realtime.Unified
