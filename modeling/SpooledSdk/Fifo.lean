/-
Queues that are first in, first out, as lists: what is put in at the end leaves at the head.

* `List.NotBefore p t q` — `t` waits in `q`, and nothing that `p` picks leaves before it;
  entries that are put in later do not change that, and the head that leaves is `t` itself
  or none of those.
* `List.nodup_enqueue` — a queue without duplicates stays so when new entries are put in.
-/
import Mathlib.Data.List.Nodup

namespace List

variable {α : Type*} {p : α → Prop} {t u : α} {q r : List α}

/-- `t` waits in the queue, and no entry that `p` picks is before it. -/
def NotBefore (p : α → Prop) (t : α) (q : List α) : Prop :=
  ∃ q₁ q₂, q = q₁ ++ t :: q₂ ∧ ∀ u ∈ q₁, ¬ p u

theorem NotBefore.append (h : NotBefore p t q) : NotBefore p t (q ++ r) := by
  obtain ⟨q₁, q₂, rfl, hp⟩ := h
  exact ⟨q₁, q₂ ++ r, by simp, hp⟩

/-- The head leaves: it is `t`, or an entry that `p` does not pick. -/
theorem NotBefore.tail (h : NotBefore p t (u :: q)) : u = t ∨ (¬ p u ∧ NotBefore p t q) := by
  obtain ⟨q₁, q₂, hq, hp⟩ := h
  cases q₁ with
  | nil => exact .inl (List.cons.inj hq).1
  | cons v q₁ =>
    obtain ⟨rfl, rfl⟩ := List.cons.inj hq
    exact .inr ⟨hp u mem_cons_self, q₁, q₂, rfl, fun v hv => hp v (mem_cons_of_mem _ hv)⟩

theorem NotBefore.mono {p' : α → Prop} (h : NotBefore p t q) (himp : ∀ u ∈ q, p' u → p u) :
    NotBefore p' t q := by
  obtain ⟨q₁, q₂, rfl, hp⟩ := h
  exact ⟨q₁, q₂, rfl, fun u hu hp' => hp u hu (himp u (mem_append_left _ hu) hp')⟩

/-- `t` waits in a queue of entries that `p` does not pick. -/
theorem notBefore_of_forall (ht : t ∈ q) (h : ∀ u ∈ q, ¬ p u) : NotBefore p t q := by
  obtain ⟨q₁, q₂, rfl⟩ := append_of_mem ht
  exact ⟨q₁, q₂, rfl, fun u hu => h u (mem_append_left _ hu)⟩

/-- Entries that are not in the queue are put in. -/
theorem nodup_enqueue (h : q.Nodup) (hr : r.Nodup) (hnew : ∀ u ∈ r, u ∉ q) : (q ++ r).Nodup :=
  Nodup.append h hr fun _ hq hr => hnew _ hr hq

end List
