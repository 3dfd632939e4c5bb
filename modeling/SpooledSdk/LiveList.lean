/-
Loops over a list that changes meanwhile.

A loop knows the index of its next entry, and nothing else: an entry that is removed behind it
makes the others move up, so that one of them slips past the loop.  A `LiveList` carries, for each
of its loops, the proof of what the loop has passed.

* `Cursor.Sound` — all entries behind a loop have been visited or have slipped past it, and as many
  have slipped past it, or will, as were removed behind it;
* `LiveList.append`, `LiveList.remove`, `LiveList.enter`, `LiveList.advance?` — the operations, and
  `LiveList.Keeps` for what they leave to the other loops;
* `Cursor.Sound.visited_eq` — a loop behind which nothing was removed has visited every entry.
-/
import Mathlib.Data.List.InsertIdx
import Mathlib.Logic.Function.Basic
import Mathlib.Tactic.Common

/-- A loop over a list: `passed` is what it has visited, and what has slipped past it; `removed`
counts the entries that were removed behind it. -/
structure Cursor (α : Type*) where
  next : ℕ := 0
  passed : List (α × Bool) := []
  removed : ℕ := 0
  deriving DecidableEq, Repr

namespace Cursor

variable {α : Type*}

def visited (c : Cursor α) : List α := (c.passed.filter Prod.snd).map Prod.fst

def missed (c : Cursor α) : ℕ := c.passed.countP fun p => !p.2

/-- The entry slips past the loop. -/
def miss (c : Cursor α) (x : α) : Cursor α := { c with passed := c.passed ++ [(x, false)] }

/-- The loop after an entry was put at the end of the list. -/
def appended (items : List α) (x : α) (c : Cursor α) : Cursor α :=
  if items.length < c.next then c.miss x else c

/-- The loop after entry `p` was removed from the list. -/
def erased (items : List α) (p : ℕ) (c : Cursor α) : Cursor α :=
  if p < c.next then { items[c.next]?.elim c c.miss with removed := c.removed + 1 } else c

/-- The loop after a visit of its next entry. -/
def visit (c : Cursor α) (x : α) : Cursor α :=
  { c with next := c.next + 1, passed := c.passed ++ [(x, true)] }

/-- What is behind a loop has been passed, and what has slipped past it, or will as soon as the list
is long enough again, is as much as was removed behind it. -/
structure Sound (items : List α) (c : Cursor α) : Prop where
  behind : (items.take c.next).Sublist (c.passed.map Prod.fst)
  visits : (c.passed.filter Prod.snd).length = c.next
  misses : c.missed + (c.next - items.length) = c.removed

variable {items : List α} {c : Cursor α} {x : α} {p : ℕ}

theorem visited_miss (c : Cursor α) : (c.miss x).visited = c.visited := by
  simp [visited, miss]

theorem visited_visit (c : Cursor α) : (c.visit x).visited = c.visited ++ [x] := by
  simp [visited, visit]

theorem sound_enter : Sound items ({} : Cursor α) where
  behind := List.nil_sublist _
  visits := rfl
  misses := Nat.zero_add _ |>.trans (Nat.zero_sub _)

theorem missed_append (b : Bool) :
    ({ c with passed := c.passed ++ [(x, b)] } : Cursor α).missed =
      c.missed + (if b then 0 else 1) := by
  cases b <;> simp [missed]

theorem Sound.appended (h : Sound items c) : Sound (items ++ [x]) (c.appended items x) := by
  rw [Cursor.appended]
  split
  · rename_i hlt
    refine ⟨?_, ?_, ?_⟩
    · -- the whole list is behind the loop, and the new entry as well
      have hall : items.take c.next = items := List.take_of_length_le (Nat.le_of_lt hlt)
      have hall' : (items ++ [x]).take c.next = items ++ [x] :=
        List.take_of_length_le (by rw [List.length_append]; exact hlt)
      have hbehind := h.behind
      rw [hall] at hbehind
      change ((items ++ [x]).take c.next).Sublist ((c.passed ++ [(x, false)]).map Prod.fst)
      rw [hall', List.map_append]
      exact hbehind.append (List.Sublist.refl _)
    · change ((c.passed ++ [(x, false)]).filter Prod.snd).length = c.next
      rw [List.filter_append, List.length_append, h.visits]
      rfl
    · have := h.misses
      change ({ c with passed := c.passed ++ [(x, false)] } : Cursor α).missed +
        (c.next - (items ++ [x]).length) = c.removed
      rw [missed_append, List.length_append, List.length_singleton]
      simp only [Bool.false_eq_true, if_false]
      omega
  · rename_i hle
    refine ⟨?_, h.visits, ?_⟩
    · rw [List.take_append_of_le_length (Nat.le_of_not_lt hle)]
      exact h.behind
    · have := h.misses
      rw [List.length_append, List.length_singleton]
      omega

/-- What is behind a loop after a removal: one entry less, and the one that has moved up. -/
theorem take_eraseIdx_of_lt {n : ℕ} (hp : p < n) :
    (items.eraseIdx p).take n = (items.take n).eraseIdx p ++ items[n]?.toList := by
  obtain ⟨m, rfl⟩ := Nat.exists_eq_succ_of_ne_zero (Nat.ne_of_gt (Nat.zero_lt_of_lt hp))
  have hle : p ≤ m := Nat.le_of_lt_succ hp
  have hkept : (items.take (m + 1)).eraseIdx p = (items.eraseIdx p).take m := by
    refine List.ext_getElem? fun i => ?_
    grind
  rw [Nat.succ_eq_add_one, hkept, List.take_add_one, List.getElem?_eraseIdx_of_ge hle]

theorem Sound.erased (h : Sound items c) (hp : p < items.length) :
    Sound (items.eraseIdx p) (c.erased items p) := by
  rw [Cursor.erased]
  split
  · rename_i hlt
    have hlength := List.length_eraseIdx_of_lt hp
    have hmisses := h.misses
    cases hnext : items[c.next]? with
    | none =>
      have hle : items.length ≤ c.next := List.getElem?_eq_none_iff.mp hnext
      refine ⟨?_, h.visits, ?_⟩
      · change ((items.eraseIdx p).take c.next).Sublist (c.passed.map Prod.fst)
        rw [take_eraseIdx_of_lt hlt, hnext, Option.toList_none, List.append_nil]
        exact (List.eraseIdx_sublist _ _).trans h.behind
      · change c.missed + (c.next - (items.eraseIdx p).length) = c.removed + 1
        omega
    | some y =>
      have hgt : c.next < items.length := (List.getElem?_eq_some_iff.mp hnext).1
      refine ⟨?_, ?_, ?_⟩
      · change ((items.eraseIdx p).take c.next).Sublist ((c.passed ++ [(y, false)]).map Prod.fst)
        rw [take_eraseIdx_of_lt hlt, hnext, List.map_append]
        exact ((List.eraseIdx_sublist _ _).trans h.behind).append (List.Sublist.refl _)
      · change ((c.passed ++ [(y, false)]).filter Prod.snd).length = c.next
        rw [List.filter_append, List.length_append, h.visits]
        rfl
      · change ({ c with passed := c.passed ++ [(y, false)] } : Cursor α).missed +
          (c.next - (items.eraseIdx p).length) = c.removed + 1
        rw [missed_append]
        simp only [Bool.false_eq_true, if_false]
        omega
  · rename_i hge
    have hle : c.next ≤ p := Nat.le_of_not_lt hge
    refine ⟨?_, h.visits, ?_⟩
    · rw [List.take_eraseIdx_eq_take_of_le _ _ _ hle]
      exact h.behind
    · have := h.misses
      have := List.length_eraseIdx_of_lt hp
      omega

theorem Sound.visit (h : Sound items c) (hx : items[c.next]? = some x) :
    Sound items (c.visit x) := by
  refine ⟨?_, ?_, ?_⟩
  · change (items.take (c.next + 1)).Sublist ((c.passed ++ [(x, true)]).map Prod.fst)
    rw [List.take_add_one, hx, List.map_append]
    exact h.behind.append (List.Sublist.refl _)
  · change ((c.passed ++ [(x, true)]).filter Prod.snd).length = c.next + 1
    rw [List.filter_append, List.length_append, h.visits]
    rfl
  · have := h.misses
    have := (List.getElem?_eq_some_iff.mp hx).1
    change ({ c with passed := c.passed ++ [(x, true)] } : Cursor α).missed +
      (c.next + 1 - items.length) = c.removed
    rw [missed_append]
    simp only [if_true]
    omega

/-- A loop behind which nothing was removed has visited what is behind it. -/
theorem Sound.visited_eq (h : Sound items c) (hremoved : c.removed = 0) :
    c.visited = items.take c.next := by
  have hmisses := h.misses
  have hnone : ∀ p ∈ c.passed, p.2 = true := by
    have hzero : c.missed = 0 := by omega
    intro p hp
    have := List.countP_eq_zero.mp hzero p hp
    simpa using this
  have hall : c.passed.filter Prod.snd = c.passed := List.filter_eq_self.mpr hnone
  have hvisits := h.visits
  rw [hall] at hvisits
  rw [visited, hall]
  refine (h.behind.eq_of_length ?_).symm
  rw [List.length_take, List.length_map, hvisits]
  omega

end Cursor

/-- A list with the loops that go over it, under the numbers of those who make them. -/
structure LiveList (α : Type*) where
  items : List α
  loops : ℕ → Option (Cursor α)
  sound : ∀ i c, loops i = some c → c.Sound items

namespace LiveList

variable {α : Type*}

def empty : LiveList α := ⟨[], fun _ => none, nofun⟩

def append (l : LiveList α) (x : α) : LiveList α where
  items := l.items ++ [x]
  loops i := (l.loops i).map (Cursor.appended l.items x)
  sound := by
    intro i c hc
    obtain ⟨c', hc', rfl⟩ := Option.map_eq_some_iff.mp hc
    exact (l.sound i c' hc').appended

/-- Remove the first entry that is equal, if there is one. -/
def remove [DecidableEq α] (l : LiveList α) (x : α) : LiveList α :=
  if h : x ∈ l.items then
    { items := l.items.eraseIdx (l.items.idxOf x)
      loops := fun i => (l.loops i).map (Cursor.erased l.items (l.items.idxOf x))
      sound := by
        intro i c hc
        obtain ⟨c', hc', rfl⟩ := Option.map_eq_some_iff.mp hc
        exact (l.sound i c' hc').erased (List.idxOf_lt_length_iff.mpr h) }
  else l

/-- Loop `i` begins. -/
def enter (l : LiveList α) (i : ℕ) : LiveList α where
  items := l.items
  loops := Function.update l.loops i (some {})
  sound := by
    intro j c hc
    rw [Function.update_apply] at hc
    split at hc
    · exact Option.some.inj hc ▸ Cursor.sound_enter
    · exact l.sound j c hc

/-- Loop `i` visits its next entry, unless it is over. -/
def advance? (l : LiveList α) (i : ℕ) : Option (α × LiveList α) :=
  match hc : l.loops i with
  | none => none
  | some c =>
    match hx : l.items[c.next]? with
    | none => none
    | some x =>
      some (x, {
        items := l.items
        loops := Function.update l.loops i (some (c.visit x))
        sound := by
          intro j c' hc'
          rw [Function.update_apply] at hc'
          split at hc'
          · exact Option.some.inj hc' ▸ (l.sound i c hc).visit hx
          · exact l.sound j c' hc' })

variable {l l' : LiveList α} {x : α} {i j : ℕ} {c : Cursor α}

/-- Loop `i` has visited in `l'` what it has visited in `l`. -/
def Keeps (i : ℕ) (l l' : LiveList α) : Prop :=
  ∀ c, l.loops i = some c → ∃ c', l'.loops i = some c' ∧ c'.visited = c.visited

theorem Keeps.refl (i : ℕ) (l : LiveList α) : Keeps i l l := fun c hc => ⟨c, hc, rfl⟩

theorem keeps_append : Keeps i l (l.append x) := by
  intro c hc
  refine ⟨c.appended l.items x, congrArg (Option.map _) hc, ?_⟩
  rw [Cursor.appended]
  split
  · exact c.visited_miss
  · rfl

theorem keeps_remove [DecidableEq α] : Keeps i l (l.remove x) := by
  rw [remove]
  split
  · intro c hc
    refine ⟨c.erased l.items (l.items.idxOf x), congrArg (Option.map _) hc, ?_⟩
    rw [Cursor.erased]
    split
    · cases l.items[c.next]? with
      | none => rfl
      | some y => exact c.visited_miss
    · rfl
  · exact .refl i l

theorem keeps_enter (h : i ≠ j) : Keeps i l (l.enter j) :=
  fun c hc => ⟨c, (Function.update_of_ne h _ _).trans hc, rfl⟩

theorem enter_loops : (l.enter i).loops i = some {} := Function.update_self ..

theorem keeps_advance (h : l.advance? j = some (x, l')) (hne : i ≠ j) : Keeps i l l' := by
  rw [advance?] at h
  split at h
  · cases h
  · split at h
    · cases h
    · obtain ⟨-, rfl⟩ := Prod.mk.inj (Option.some.inj h)
      exact fun c hc => ⟨c, (Function.update_of_ne hne _ _).trans hc, rfl⟩

theorem advance_eq_some (h : l.advance? i = some (x, l')) (hc : l.loops i = some c) :
    ∃ c', l'.loops i = some c' ∧ c'.visited = c.visited ++ [x] := by
  rw [advance?] at h
  split at h
  · cases h
  · rename_i c₀ hc₀
    obtain rfl := Option.some.inj (hc.symm.trans hc₀)
    split at h
    · cases h
    · obtain ⟨rfl, rfl⟩ := Prod.mk.inj (Option.some.inj h)
      exact ⟨c.visit _, Function.update_self .., c.visited_visit⟩

/-- A loop is over when it is at the end of the list. -/
theorem advance_eq_none (h : l.advance? i = none) (hc : l.loops i = some c) :
    l.items.length ≤ c.next := by
  rw [advance?] at h
  split at h
  · rename_i hc₀
    rw [hc] at hc₀
    cases hc₀
  · rename_i c₀ hc₀
    obtain rfl := Option.some.inj (hc.symm.trans hc₀)
    split at h
    · rename_i hx
      exact List.getElem?_eq_none_iff.mp hx
    · cases h

end LiveList
