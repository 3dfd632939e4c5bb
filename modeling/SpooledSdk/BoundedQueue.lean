/-
Bounded queues that remember their history.

A `BoundedQueue` carries the proof that what has been put in is what has been taken out and what
still waits, in one order, and that no more waits than there is room for.

* `put?`, `take?` — the two operations, which fail over a full and over an empty queue;
* `takenBy_sublist` — what one consumer has taken is in the order in which it was put in.
-/
import Mathlib.Data.List.Basic
import Mathlib.Tactic.Common

/-- `put` lists what has been put in, and `taken` what has been taken out and by whom. -/
structure BoundedQueue (ι ε : Type*) (capacity : ℕ) where
  items : List ε
  put : List ε
  taken : List (ι × ε)
  conserves : put = taken.map Prod.snd ++ items
  bounded : items.length ≤ capacity

namespace BoundedQueue

variable {ι ε : Type*} {capacity : ℕ} {q q' : BoundedQueue ι ε capacity} {e : ε} {who : ι}

def empty : BoundedQueue ι ε capacity := ⟨[], [], [], rfl, Nat.zero_le _⟩

/-- Put in at the end, if there is room. -/
def put? (q : BoundedQueue ι ε capacity) (e : ε) : Option (BoundedQueue ι ε capacity) :=
  if h : q.items.length < capacity then
    some {
      items := q.items ++ [e]
      put := q.put ++ [e]
      taken := q.taken
      conserves := by rw [q.conserves, List.append_assoc]
      bounded := by
        rw [List.length_append, List.length_singleton]
        exact h }
  else none

/-- Take from the front, if there is anything. -/
def take? (q : BoundedQueue ι ε capacity) (who : ι) : Option (ε × BoundedQueue ι ε capacity) :=
  match h : q.items with
  | [] => none
  | e :: items =>
    some (e, {
      items
      put := q.put
      taken := q.taken ++ [(who, e)]
      conserves := by
        rw [q.conserves, h, List.map_append, List.append_assoc]
        rfl
      bounded := by
        have := q.bounded
        rw [h] at this
        exact Nat.le_of_succ_le this })

theorem put?_eq_some (h : q.put? e = some q') :
    q'.items = q.items ++ [e] ∧ q'.put = q.put ++ [e] ∧ q'.taken = q.taken := by
  rw [put?] at h
  split at h
  · obtain rfl := Option.some.inj h
    exact ⟨rfl, rfl, rfl⟩
  · cases h

theorem put?_eq_none (h : q.put? e = none) : q.items.length = capacity := by
  rw [put?] at h
  split at h
  · cases h
  · have := q.bounded
    omega

theorem take?_eq_some (h : q.take? who = some (e, q')) :
    q.items = e :: q'.items ∧ q'.put = q.put ∧ q'.taken = q.taken ++ [(who, e)] := by
  rw [take?] at h
  split at h
  · cases h
  · rename_i e' items hitems
    simp only [Option.some.injEq, Prod.mk.injEq] at h
    obtain ⟨rfl, rfl⟩ := h
    exact ⟨hitems, rfl, rfl⟩

theorem take?_eq_none (h : q.take? who = none) : q.items = [] := by
  rw [take?] at h
  split at h
  · assumption
  · cases h

variable [DecidableEq ι]

/-- What one consumer has taken. -/
def takenBy (q : BoundedQueue ι ε capacity) (who : ι) : List ε :=
  (q.taken.filter fun entry => entry.1 = who).map Prod.snd

theorem takenBy_sublist (q : BoundedQueue ι ε capacity) (who : ι) :
    (q.takenBy who).Sublist q.put := by
  rw [q.conserves]
  exact (List.filter_sublist.map Prod.snd).trans (List.sublist_append_left _ _)

theorem takenBy_of_put? (h : q.put? e = some q') : q'.takenBy who = q.takenBy who := by
  rw [takenBy, takenBy, (put?_eq_some h).2.2]

theorem takenBy_self (h : q.take? who = some (e, q')) : q'.takenBy who = q.takenBy who ++ [e] := by
  simp [takenBy, (take?_eq_some h).2.2]

theorem takenBy_of_ne {who' : ι} (h : q.take? who = some (e, q')) (hne : who ≠ who') :
    q'.takenBy who' = q.takenBy who' := by
  simp [takenBy, (take?_eq_some h).2.2, hne]

theorem length_takenBy_le (q : BoundedQueue ι ε capacity) (who : ι) :
    (q.takenBy who).length + q.items.length ≤ q.put.length := by
  have : (q.takenBy who).length ≤ q.taken.length := by
    rw [takenBy, List.length_map]
    exact List.length_filter_le _ _
  rw [q.conserves, List.length_append, List.length_map]
  omega

end BoundedQueue
