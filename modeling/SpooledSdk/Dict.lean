/-
Insertion-ordered dictionaries.

`Dict κ β` is a finite map that remembers the order in which its keys were first
inserted: overwriting a key keeps its position, a new key goes to the end, and
`values` lists the values in that order.  The structure carries the proof that
no key occurs twice, so every operation below is total and needs no side
condition.  What the proofs elsewhere use:

* `get?_insert`, `get?_erase` — the lookup after an update;
* `mem_values_iff` — a value is listed exactly when some key looks it up;
* `mapKeys` — the same dictionary under other keys.
-/
import Mathlib.Data.List.Nodup

/-- A finite map with its keys in the order of first insertion. -/
structure Dict (κ : Type*) (β : Type*) where
  entries : List (κ × β)
  nodup : (entries.map Prod.fst).Nodup

namespace Dict

variable {κ β : Type*}

instance [DecidableEq κ] [DecidableEq β] : DecidableEq (Dict κ β) := fun d d' =>
  decidable_of_iff (d.entries = d'.entries) (by
    cases d; cases d'; simp)

/-- The dictionary without keys. -/
def empty : Dict κ β := ⟨[], List.nodup_nil⟩

/-- The number of keys. -/
def length (d : Dict κ β) : ℕ := d.entries.length

/-- The values, in the order of their keys. -/
def values (d : Dict κ β) : List β := d.entries.map Prod.snd

variable [DecidableEq κ]

private def lookup (k : κ) : List (κ × β) → Option β
  | [] => none
  | (k', v) :: l => if k' = k then some v else lookup k l

/-- The value under `k`, if there is one. -/
def get? (d : Dict κ β) (k : κ) : Option β := lookup k d.entries

private def put (k : κ) (v : β) : List (κ × β) → List (κ × β)
  | [] => [(k, v)]
  | (k', v') :: l => if k' = k then (k, v) :: l else (k', v') :: put k v l

private theorem mem_keys_put {k k₀ : κ} {v : β} {l : List (κ × β)} :
    k₀ ∈ (put k v l).map Prod.fst ↔ k₀ = k ∨ k₀ ∈ l.map Prod.fst := by
  induction l with
  | nil => simp [put]
  | cons hd l ih =>
    obtain ⟨k', v'⟩ := hd
    rw [put]
    split
    · rename_i h
      subst h
      simp
    · simp only [List.map_cons, List.mem_cons, ih]
      exact or_left_comm

private theorem nodup_put {k : κ} {v : β} {l : List (κ × β)}
    (h : (l.map Prod.fst).Nodup) : ((put k v l).map Prod.fst).Nodup := by
  induction l with
  | nil => simp [put]
  | cons hd l ih =>
    obtain ⟨k', v'⟩ := hd
    rw [List.map_cons, List.nodup_cons] at h
    rw [put]
    split
    · rename_i hk
      subst hk
      exact List.nodup_cons.mpr h
    · rename_i hk
      refine List.nodup_cons.mpr ⟨fun hm => ?_, ih h.2⟩
      rcases mem_keys_put.mp hm with heq | hm'
      · exact hk heq
      · exact h.1 hm'

/-- Store `v` under `k`: in place when `k` is present, at the end otherwise. -/
def insert (d : Dict κ β) (k : κ) (v : β) : Dict κ β :=
  ⟨put k v d.entries, nodup_put d.nodup⟩

private def drop (k : κ) : List (κ × β) → List (κ × β)
  | [] => []
  | (k', v) :: l => if k' = k then l else (k', v) :: drop k l

private theorem drop_sublist (k : κ) (l : List (κ × β)) : (drop k l).Sublist l := by
  induction l with
  | nil => exact List.Sublist.slnil
  | cons hd l ih =>
    rw [drop]
    split
    · exact List.sublist_cons_self _ _
    · exact ih.cons_cons _

/-- Remove `k`, if present. -/
def erase (d : Dict κ β) (k : κ) : Dict κ β :=
  ⟨drop k d.entries, d.nodup.sublist ((drop_sublist k d.entries).map Prod.fst)⟩

/-! ### Lookups -/

@[simp] theorem get?_empty (k : κ) : (empty : Dict κ β).get? k = none := rfl

private theorem lookup_put {k k₀ : κ} {v : β} {l : List (κ × β)} :
    lookup k₀ (put k v l) = if k = k₀ then some v else lookup k₀ l := by
  induction l with
  | nil => simp [put, lookup]
  | cons hd l ih =>
    obtain ⟨k', v'⟩ := hd
    rw [put]
    split
    · rename_i h
      subst h
      by_cases h' : k' = k₀ <;> simp [lookup, h']
    · rename_i h
      rw [lookup, ih, lookup]
      by_cases h' : k' = k₀
      · subst h'
        simp [Ne.symm h]
      · simp [h']

theorem get?_insert (d : Dict κ β) (k k₀ : κ) (v : β) :
    (d.insert k v).get? k₀ = if k = k₀ then some v else d.get? k₀ := lookup_put

private theorem lookup_eq_none {k : κ} {l : List (κ × β)} (h : k ∉ l.map Prod.fst) :
    lookup k l = none := by
  induction l with
  | nil => rfl
  | cons hd l ih =>
    obtain ⟨k', v⟩ := hd
    rw [List.map_cons, List.mem_cons, not_or] at h
    rw [lookup, if_neg (Ne.symm h.1), ih h.2]

private theorem lookup_drop {k k₀ : κ} {l : List (κ × β)} (hl : (l.map Prod.fst).Nodup) :
    lookup k₀ (drop k l) = if k = k₀ then none else lookup k₀ l := by
  induction l with
  | nil => simp [drop, lookup]
  | cons hd l ih =>
    obtain ⟨k', v⟩ := hd
    rw [List.map_cons, List.nodup_cons] at hl
    rw [drop]
    split
    · rename_i h
      subst h
      by_cases h' : k' = k₀
      · subst h'
        rw [if_pos rfl, lookup_eq_none hl.1]
      · simp [lookup, h']
    · rename_i h
      rw [lookup, ih hl.2, lookup]
      by_cases h' : k' = k₀
      · subst h'
        simp [Ne.symm h]
      · simp [h']

theorem get?_erase (d : Dict κ β) (k k₀ : κ) :
    (d.erase k).get? k₀ = if k = k₀ then none else d.get? k₀ := lookup_drop d.nodup

private theorem lookup_eq_some_iff {k : κ} {v : β} {l : List (κ × β)}
    (hl : (l.map Prod.fst).Nodup) : lookup k l = some v ↔ (k, v) ∈ l := by
  induction l with
  | nil => simp [lookup]
  | cons hd l ih =>
    obtain ⟨k', v'⟩ := hd
    rw [List.map_cons, List.nodup_cons] at hl
    rw [lookup, List.mem_cons, Prod.mk.injEq]
    by_cases h : k' = k
    · subst h
      have hn : (k', v) ∉ l := fun hm => hl.1 (List.mem_map.mpr ⟨_, hm, rfl⟩)
      simp [hn, eq_comm]
    · simp [h, Ne.symm h, ih hl.2]

theorem get?_eq_some_iff {d : Dict κ β} {k : κ} {v : β} :
    d.get? k = some v ↔ (k, v) ∈ d.entries := lookup_eq_some_iff d.nodup

/-- A value is listed exactly when some key looks it up. -/
theorem mem_values_iff {d : Dict κ β} {v : β} : v ∈ d.values ↔ ∃ k, d.get? k = some v := by
  simp only [values, List.mem_map, get?_eq_some_iff]
  constructor
  · rintro ⟨⟨k, v'⟩, hm, rfl⟩
    exact ⟨k, hm⟩
  · rintro ⟨k, hm⟩
    exact ⟨(k, v), hm, rfl⟩

/-! ### Other keys -/

variable {κ' : Type*}

/-- The dictionary with each key replaced by its image. -/
def mapKeys (f : κ → κ') (hf : Function.Injective f) (d : Dict κ β) : Dict κ' β :=
  ⟨d.entries.map (Prod.map f id), by
    rw [List.map_map, show Prod.fst ∘ Prod.map f id = f ∘ (Prod.fst : κ × β → κ) from rfl,
      ← List.map_map]
    exact d.nodup.map hf⟩

variable [DecidableEq κ'] {f : κ → κ'} (hf : Function.Injective f)

private theorem lookup_map (hf : Function.Injective f) (k : κ) (l : List (κ × β)) :
    lookup (f k) (l.map (Prod.map f id)) = lookup k l := by
  induction l with
  | nil => rfl
  | cons hd l ih =>
    simp only [List.map_cons, Prod.map, lookup, hf.eq_iff]
    rw [← ih]
    rfl

private theorem put_map (hf : Function.Injective f) (k : κ) (v : β) (l : List (κ × β)) :
    put (f k) v (l.map (Prod.map f id)) = (put k v l).map (Prod.map f id) := by
  induction l with
  | nil => rfl
  | cons hd l ih =>
    simp only [List.map_cons, Prod.map, put, hf.eq_iff]
    split
    · rfl
    · rw [List.map_cons, ← ih]
      rfl

private theorem drop_map (hf : Function.Injective f) (k : κ) (l : List (κ × β)) :
    drop (f k) (l.map (Prod.map f id)) = (drop k l).map (Prod.map f id) := by
  induction l with
  | nil => rfl
  | cons hd l ih =>
    simp only [List.map_cons, Prod.map, drop, hf.eq_iff]
    split
    · rfl
    · rw [List.map_cons, ← ih]
      rfl

omit [DecidableEq κ] in
private theorem ext_entries {d d' : Dict κ β} (h : d.entries = d'.entries) : d = d' := by
  cases d
  cases d'
  cases h
  rfl

theorem get?_mapKeys (d : Dict κ β) (k : κ) : (d.mapKeys f hf).get? (f k) = d.get? k :=
  lookup_map hf k d.entries

omit [DecidableEq κ] [DecidableEq κ'] in
theorem values_mapKeys (d : Dict κ β) : (d.mapKeys f hf).values = d.values := by
  rw [values, mapKeys, List.map_map]
  rfl

theorem mapKeys_insert (d : Dict κ β) (k : κ) (v : β) :
    (d.insert k v).mapKeys f hf = (d.mapKeys f hf).insert (f k) v :=
  ext_entries (put_map hf k v d.entries).symm

theorem mapKeys_erase (d : Dict κ β) (k : κ) :
    (d.erase k).mapKeys f hf = (d.mapKeys f hf).erase (f k) :=
  ext_entries (drop_map hf k d.entries).symm

end Dict
