/-
What a step of an SSE client is, case by case: the guards under which the step function gets
there, and the state that it gives.
-/
import SpooledSdk.Realtime.Sse

namespace SpooledSdk.Realtime.Sse.SSEClient

/-- The steps of the client, by the place of the generator. -/
inductive Moves (o : Options) (s : SSEClient) : Action → SSEClient → Prop
  | connected (hrest : s.pc.atRest = true) (hstate : s.state = .connected) :
      Moves o s .connect { s with shut := false }
  | connect (hrest : s.pc.atRest = true) (hstate : s.state ≠ .connected) :
      Moves o s .connect ({ s with shut := false }.connectCall false)
  | iterate (hrest : s.pc.atRest = true) (hopen : s.stream ≠ none ∨ s.state = .connected) :
      Moves o s .events ({ s with shut := false, redials := 0, lastEnd := none }.loop)
  | events (hrest : s.pc.atRest = true) (hstream : s.stream = none)
      (hstate : s.state ≠ .connected) :
      Moves o s .events ({ s with shut := false, redials := 0, lastEnd := none }.connectCall true)
  | dialed {stream : Stream} (hpc : s.pc = .connecting false) :
      Moves o s (.reply (.accepted stream))
        { s with state := .connected, closed := false, stream := some stream, pc := .idle }
  | accepted {stream : Stream}
      (hpc : s.pc = .connecting true ∨ ∃ handling, s.pc = .dialing handling) :
      Moves o s (.reply (.accepted stream))
        ({ s with state := .connected, closed := false, stream := some stream }.loop)
  | refused {inEvents : Bool} {e : PyException} (hpc : s.pc = .connecting inEvents) :
      Moves o s (.reply (.failed e)) { s with
        stream := none
        state := .disconnected
        lastEnd := some (some e)
        pc := if inEvents then .raised e else .idle }
  | redialFailed {handling : Option PyException} {e : PyException}
      (hpc : s.pc = .dialing handling) :
      Moves o s (.reply (.failed e))
        ({ s with lastEnd := some (some e) }.redialFailed o handling e)
  | read (hpc : s.pc = .reading) : Moves o s .read (s.readStep o)
  | deliver {event : RealtimeEvent} (hpc : s.pc = .delivering event) :
      Moves o s .deliver
        { s with delivered := s.delivered ++ [event], redials := 0, pc := .yielded }
  | resume (hpc : s.pc = .yielded) : Moves o s .resume { s with pc := .reading }
  | noRedial {handling : Option PyException} (hpc : s.pc = .sleeping handling)
      (hclosed : s.closed = true) : Moves o s .wake { s with pc := notReconnected handling }
  | redial {handling : Option PyException} (hpc : s.pc = .sleeping handling)
      (hopen : s.closed = false) :
      Moves o s .wake { s with
        stream := none
        state := .connecting
        pc := .dialing handling
        dials := s.dials + 1
        redials := s.redials + 1 }
  | close (hin : o.threads = true ∨ s.pc.midDelivery = false) :
      Moves o s .close { s with closed := true, closing := true }
  | closeDone (hclosing : s.closing = true) (hin : o.threads = true ∨ s.pc.midDelivery = false) :
      Moves o s .closeDone
        { s with stream := none, state := .disconnected, closing := false, shut := true }

theorem moves_of_step {o : Options} {s s' : SSEClient} {a : Action}
    (h : s.step o a = some s') : Moves o s a s' := by
  cases a with
  | connect =>
    simp only [step] at h
    split at h
    · rename_i hrest
      cases h
      split
      · rename_i hstate
        exact .connected hrest hstate
      · rename_i hstate
        exact .connect hrest hstate
    · cases h
  | events =>
    simp only [step] at h
    split at h
    · rename_i hrest
      cases h
      split
      · rename_i hopen
        rw [Bool.or_eq_true, decide_eq_true_eq] at hopen
        exact .iterate hrest (hopen.imp_left Option.isSome_iff_ne_none.mp)
      · rename_i hopen
        rw [Bool.or_eq_true, decide_eq_true_eq, not_or] at hopen
        exact .events hrest (Option.not_isSome_iff_eq_none.mp hopen.1) hopen.2
    · cases h
  | reply r =>
    simp only [step] at h
    split at h
    · rename_i inEvents stream hpc
      cases h
      cases inEvents with
      | true => exact .accepted (.inl hpc)
      | false => exact .dialed hpc
    · rename_i inEvents e hpc
      cases h
      exact .refused hpc
    · rename_i handling stream hpc
      cases h
      exact .accepted (.inr ⟨handling, hpc⟩)
    · rename_i handling e hpc
      cases h
      exact .redialFailed hpc
    · cases h
  | read =>
    simp only [step] at h
    split at h
    · rename_i hpc
      cases h
      exact .read hpc
    · cases h
  | deliver =>
    simp only [step] at h
    split at h
    · rename_i event hpc
      cases h
      exact .deliver hpc
    · cases h
  | resume =>
    simp only [step] at h
    split at h
    · rename_i hpc
      cases h
      exact .resume hpc
    · cases h
  | wake =>
    simp only [step] at h
    split at h
    · rename_i handling hpc
      cases h
      split
      · rename_i hclosed
        exact .noRedial hpc hclosed
      · rename_i hclosed
        exact .redial hpc (Bool.eq_false_iff.mpr hclosed)
    · cases h
  | close =>
    simp only [step] at h
    split at h
    · rename_i hin
      cases h
      exact .close (by simpa using hin)
    · cases h
  | closeDone =>
    simp only [step] at h
    split at h
    · rename_i hin
      obtain ⟨hclosing, hin⟩ := Bool.and_eq_true_iff.mp hin
      cases h
      exact .closeDone hclosing (by simpa using hin)
    · cases h

/-- These are steps of the client. -/
theorem step_of_moves {o : Options} {s s' : SSEClient} {a : Action} (h : Moves o s a s') :
    s.step o a = some s' := by
  cases h with
  | connected hrest hstate | connect hrest hstate =>
    simp only [step, hrest, hstate, if_true, if_false]
  | iterate hrest hopen =>
    have hguard : (s.stream.isSome || decide (s.state = .connected)) = true := by
      rw [Bool.or_eq_true, decide_eq_true_eq]
      exact hopen.imp_left Option.isSome_iff_ne_none.mpr
    simp only [step, hrest, hguard, if_true]
  | events hrest hstream hstate =>
    simp only [step, hrest, hstream, hstate, Option.isSome_none, decide_false, Bool.or_self,
      Bool.false_eq_true, if_true, if_false]
  | dialed hpc | refused hpc | redialFailed hpc | read hpc | deliver hpc | resume hpc =>
    simp only [step, hpc, Bool.false_eq_true, if_false]
  | accepted hpc =>
    rcases hpc with hpc | ⟨handling, hpc⟩
    · simp only [step, hpc, if_true]
    · simp only [step, hpc]
  | noRedial hpc hclosed => simp only [step, hpc, hclosed, if_true]
  | redial hpc hopen => simp only [step, hpc, hopen, Bool.false_eq_true, if_false]
  | close hin =>
    have hguard : (o.threads || !s.pc.midDelivery) = true := by simpa using hin
    simp only [step, hguard, if_true]
  | closeDone hclosing hin =>
    have hguard : (o.threads || !s.pc.midDelivery) = true := by simpa using hin
    simp only [step, hclosing, hguard, Bool.and_self, if_true]

end SpooledSdk.Realtime.Sse.SSEClient
