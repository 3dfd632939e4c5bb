/-
Parts of a system that come to an end.

`System.Ends` says of one part of a system, by a measure, that its own steps bring it closer to its
end, that the steps of the others do not set it back, and that it always has a step of its own.

* `Ends.exists_end` — it can come to its end by itself;
* `Ends.finite` — in no run does it take infinitely many steps.
-/
import Mathlib.Order.WellFounded
import SpooledSdk.System

namespace System

variable {σ α δ : Type*} [Preorder δ]

/-- While it is `busy`, the steps that `own` picks bring the measure down, the others do not bring
it up, and one of its own is enabled; `I` is an invariant of the system. -/
structure Ends (M : System σ α) (I : σ → Prop) (busy : σ → Prop) (own : α → Prop)
    (measure : σ → δ) : Prop where
  invariant : ∀ {s a s'}, I s → M.step s a = some s' → I s'
  enabled : ∀ {s}, I s → busy s → ∃ a s', own a ∧ M.step s a = some s'
  drops : ∀ {s a s'}, I s → busy s → own a → M.step s a = some s' → measure s' < measure s
  keeps : ∀ {s a s'}, I s → busy s → ¬ own a → M.step s a = some s' → measure s' ≤ measure s

variable {M : System σ α} {I busy : σ → Prop} {own : α → Prop} {measure : σ → δ}

/-- By steps of its own alone it comes to its end. -/
theorem Ends.exists_end [WellFoundedLT δ] (h : M.Ends I busy own measure) {s : σ} (hs : I s) :
    ∃ s', M.Reaches (fun _ a => own a) s s' ∧ ¬ busy s' := by
  induction hm : measure s using WellFoundedLT.induction generalizing s with
  | ind m ih =>
    by_cases hbusy : busy s
    · obtain ⟨a, t, ha, hst⟩ := h.enabled hs hbusy
      have hlt : measure t < m := hm ▸ h.drops hs hbusy ha hst
      obtain ⟨s', hreach, hend⟩ := ih _ hlt (h.invariant hs hst) rfl
      exact ⟨s', Relation.ReflTransGen.head ⟨a, ha, hst⟩ hreach, hend⟩
    · exact ⟨s, Relation.ReflTransGen.refl, hbusy⟩

/-- In a run in which it stays busy there is a last step of its own. -/
theorem Ends.finite [WellFoundedLT δ] (h : M.Ends I busy own measure) {f : ℕ → σ} {a : ℕ → α}
    (h0 : I (f 0)) (hrun : ∀ n, M.step (f n) (a n) = some (f (n + 1)))
    (hbusy : ∀ n, busy (f n)) : ∃ n, ∀ m, n ≤ m → ¬ own (a m) := by
  have hI : ∀ n, I (f n) := by
    intro n
    induction n with
    | zero => exact h0
    | succ n ih => exact h.invariant ih (hrun n)
  have hle : ∀ n, measure (f (n + 1)) ≤ measure (f n) := by
    intro n
    by_cases hown : own (a n)
    · exact le_of_lt (h.drops (hI n) (hbusy n) hown (hrun n))
    · exact h.keeps (hI n) (hbusy n) hown (hrun n)
  have hanti : Antitone fun n => measure (f n) := antitone_nat_of_succ_le hle
  -- from where the measure is least on, no step of its own is left
  have hwf : WellFounded (fun m m' : δ => m < m') := wellFounded_lt
  obtain ⟨_, ⟨n, rfl⟩, hmin⟩ := hwf.has_min (Set.range fun n => measure (f n)) ⟨_, 0, rfl⟩
  refine ⟨n, fun m hm hown => hmin _ ⟨m + 1, rfl⟩ ?_⟩
  exact lt_of_lt_of_le (h.drops (hI m) (hbusy m) hown (hrun m)) (hanti hm)

end System
