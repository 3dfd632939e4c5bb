/-
What a client says to a server: an opening, requests, and perhaps a closing.

`Dialogue` grows by one request at a time, as a log does; a request that was on its way when the
client closed stands behind the closing, and the dialogue counts these.

* `Dialogue.shape` — the log, read from its front.
-/
import Mathlib.Data.List.Basic
import Mathlib.Tactic.Common

/-- A log of a client that opens with `opens`.  The number is that of the requests behind the
closing, and `none` as long as there is no closing. -/
inductive Dialogue {α : Type*} (opens : α) (asks closes : α → Prop) : Option ℕ → List α → Prop
  | opened : Dialogue opens asks closes none [opens]
  | asked {late : Option ℕ} {log : List α} {c : α} (h : Dialogue opens asks closes late log)
      (hc : asks c) : Dialogue opens asks closes (late.map (· + 1)) (log ++ [c])
  | closed {log : List α} {c : α} (h : Dialogue opens asks closes none log) (hc : closes c) :
      Dialogue opens asks closes (some 0) (log ++ [c])

namespace Dialogue

variable {α : Type*} {opens : α} {asks closes : α → Prop} {late : Option ℕ} {log : List α}

/-- Behind the opening stand requests; and where there is a closing, the requests that were late. -/
theorem shape (h : Dialogue opens asks closes late log) :
    ∃ requests ending : List α, log = opens :: (requests ++ ending) ∧ (∀ c ∈ requests, asks c) ∧
      (late = none → ending = []) ∧ ∀ k, late = some k →
        ∃ c behind, ending = c :: behind ∧ closes c ∧ (∀ d ∈ behind, asks d) ∧
          behind.length = k := by
  induction h with
  | opened => exact ⟨[], [], rfl, by simp, fun _ => rfl, fun _ hk => by cases hk⟩
  | @asked late log c _ hc ih =>
    obtain ⟨requests, ending, rfl, hasks, hopen, hclosed⟩ := ih
    cases late with
    | none =>
      obtain rfl := hopen rfl
      refine ⟨requests ++ [c], [], by simp, ?_, fun _ => rfl, fun _ hk => by cases hk⟩
      rw [List.forall_mem_append]
      exact ⟨hasks, by simpa using hc⟩
    | some k =>
      obtain ⟨d, behind, rfl, hd, hbehind, hlen⟩ := hclosed k rfl
      refine ⟨requests, d :: (behind ++ [c]), by simp, hasks, ?_, ?_⟩
      · exact fun hnone => by cases hnone
      rintro k' hk'
      obtain rfl := Option.some.inj hk'
      refine ⟨d, behind ++ [c], rfl, hd, ?_, by simp [hlen]⟩
      rw [List.forall_mem_append]
      exact ⟨hbehind, by simpa using hc⟩
  | @closed log c _ hc ih =>
    obtain ⟨requests, ending, rfl, hasks, hopen, -⟩ := ih
    obtain rfl := hopen rfl
    refine ⟨requests, [c], by simp, hasks, fun h => (Option.some_ne_none _ h).elim, fun k hk => ?_⟩
    exact ⟨c, [], rfl, hc, by simp, Option.some.inj hk⟩

/-- Who may open may open for anybody: nothing has been asked yet. -/
theorem of_opened (asks closes : α → Prop) (h : log = [opens]) :
    Dialogue opens asks closes none log :=
  h ▸ .opened

end Dialogue
