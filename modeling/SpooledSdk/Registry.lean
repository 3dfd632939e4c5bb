/-
A table of rows with an index from keys to live rows.

Rows are appended and updated in place, never removed, so a row keeps its
position; at most one row of a key is live, and the index finds it.  `Indexed`
says that the index and the live flags agree, and the updates below keep it:

* `Indexed.set` — an update that leaves key and flag alone;
* `Indexed.leave` — a row goes out of service, and takes its entry with it only
  if the entry is still its own;
* `Indexed.enter` — a row comes into service and displaces the live row of its key;
* `Indexed.append` — new rows start out of service.

`Indexed.countP_live` counts the live rows by the size of the index, and
`List.countP_le_of_forall`, `List.countP_le_succ` bound a count by what happens to each row.
-/
import Mathlib.Data.List.Nodup
import Mathlib.Data.List.Perm.Basic
import Mathlib.Data.List.Perm.Subperm
import Mathlib.Data.List.Count
import Mathlib.Data.List.Induction
import SpooledSdk.Dict

/-! ### Counting rows -/

namespace List

variable {β : Type*} {l l' : List β} {p : β → Bool}

theorem countP_eq_length_filter_range :
    l.countP p = ((List.range l.length).filter fun i => (l[i]?).any p).length := by
  induction l using List.reverseRecOn with
  | nil => rfl
  | append_singleton l y ih =>
    rw [List.countP_append, ih, List.length_append, List.length_singleton, List.range_succ,
      List.filter_append, List.length_append]
    congr 1
    · congr 1
      refine List.filter_congr fun i hi => ?_
      rw [List.getElem?_append_left (List.mem_range.mp hi)]
    · cases hy : p y <;> simp [hy]

/-- No row meets `p` that did not meet it before, except row `e`. -/
theorem countP_le_succ {e : ℕ} (h : ∀ i : ℕ, i ≠ e → (l'[i]?).any p = true → (l[i]?).any p = true) :
    l'.countP p ≤ l.countP p + 1 := by
  rw [countP_eq_length_filter_range, countP_eq_length_filter_range]
  have hnd : ((List.range l'.length).filter fun i => (l'[i]?).any p).Nodup :=
    List.nodup_range.filter _
  have hsub : ((List.range l'.length).filter fun i => (l'[i]?).any p) ⊆
      e :: (List.range l.length).filter fun i => (l[i]?).any p := by
    intro i hi
    rw [List.mem_filter] at hi
    by_cases he : i = e
    · exact he ▸ List.mem_cons_self
    refine List.mem_cons_of_mem _ (List.mem_filter.mpr ⟨List.mem_range.mpr ?_, h i he hi.2⟩)
    obtain ⟨x, hx, -⟩ := (Option.any_eq_true _ _).mp (h i he hi.2)
    exact (List.getElem?_eq_some_iff.mp hx).1
  exact (hnd.subperm hsub).length_le

/-- No row meets `p` that did not meet it before. -/
theorem countP_le_of_forall (h : ∀ i : ℕ, (l'[i]?).any p = true → (l[i]?).any p = true) :
    l'.countP p ≤ l.countP p := by
  rw [countP_eq_length_filter_range, countP_eq_length_filter_range]
  have hnd : ((List.range l'.length).filter fun i => (l'[i]?).any p).Nodup :=
    List.nodup_range.filter _
  refine (hnd.subperm fun i hi => ?_).length_le
  rw [List.mem_filter] at hi ⊢
  obtain ⟨x, hx, -⟩ := (Option.any_eq_true _ _).mp (h i hi.2)
  exact ⟨List.mem_range.mpr (List.getElem?_eq_some_iff.mp hx).1, h i hi.2⟩

/-! ### Rows after an update -/

/-- A lookup after row `i` is stored. -/
theorem getElem?_set_cases {i e : ℕ} {x y : β} (h : (l.set i y)[e]? = some x) :
    (i = e ∧ x = y) ∨ (i ≠ e ∧ l[e]? = some x) := by
  by_cases hi : i = e
  · subst hi
    rw [List.getElem?_set_self'] at h
    obtain ⟨z, -, rfl⟩ := Option.map_eq_some_iff.mp h
    exact .inl ⟨rfl, rfl⟩
  · rw [List.getElem?_set_ne hi] at h
    exact .inr ⟨hi, h⟩

/-- A lookup after new rows were appended. -/
theorem getElem?_append_cases {γ : Type*} {f : γ → β} {new : List γ} {e : ℕ} {x : β}
    (h : (l ++ new.map f)[e]? = some x) : l[e]? = some x ∨ (l[e]? = none ∧ ∃ j, x = f j) := by
  rw [List.getElem?_append] at h
  split at h
  · exact .inl h
  · rw [List.getElem?_map] at h
    obtain ⟨j, -, rfl⟩ := Option.map_eq_some_iff.mp h
    exact .inr ⟨List.getElem?_eq_none (by omega), j, rfl⟩

/-- What is known of the rows that `P` picks is known of those that `P'` picks after an
update of row `e`, if `P'` picks row `e` only when the new one has it. -/
theorem exists_set {P P' : ℕ → Prop} {Q : β → Prop} {e : ℕ} {x x' : β}
    (h : ∀ {i}, P i → ∃ y, l[i]? = some y ∧ Q y) (hx : l[e]? = some x)
    (hnew : ∀ {i}, P' i → (i = e ∧ Q x') ∨ (i ≠ e ∧ P i)) {i : ℕ} (hi : P' i) :
    ∃ y, (l.set e x')[i]? = some y ∧ Q y := by
  rcases hnew hi with ⟨rfl, hq⟩ | ⟨hne, hp⟩
  · exact ⟨x', List.getElem?_set_self (List.getElem?_eq_some_iff.mp hx).1, hq⟩
  · rw [List.getElem?_set_ne (Ne.symm hne)]
    exact h hp

/-- An update that keeps `Q` leaves a row with `Q` where one was. -/
theorem exists_set_mono {Q : β → Prop} {e i : ℕ} {x x' : β} (h : ∃ y, l[i]? = some y ∧ Q y)
    (hx : l[e]? = some x) (hq : Q x → Q x') : ∃ y, (l.set e x')[i]? = some y ∧ Q y := by
  obtain ⟨y, hy, hqy⟩ := h
  by_cases he : e = i
  · subst he
    rw [hx, Option.some_inj] at hy
    subst hy
    exact ⟨x', List.getElem?_set_self (List.getElem?_eq_some_iff.mp hx).1, hq hqy⟩
  · exact ⟨y, by rw [List.getElem?_set_ne he, hy], hqy⟩

end List

/-! ### The index -/

variable {β κ : Type*} [DecidableEq κ]

/-- The index finds exactly the live rows, each under its own key. -/
structure Indexed (key : β → κ) (live : β → Bool) (rows : List β) (index : Dict κ ℕ) :
    Prop where
  row : ∀ {k : κ} {e : ℕ}, index.get? k = some e →
    ∃ x, rows[e]? = some x ∧ key x = k ∧ live x = true
  entry : ∀ {e : ℕ} {x : β}, rows[e]? = some x → live x = true → index.get? (key x) = some e

namespace Indexed

variable {key : β → κ} {live : β → Bool} {rows : List β} {index : Dict κ ℕ} {e : ℕ} {x x' : β}

theorem nil : Indexed key live [] Dict.empty where
  row h := by cases h
  entry h := by cases h

/-- A row is live exactly when the entry of its key is this row. -/
theorem live_iff (h : Indexed key live rows index) (hx : rows[e]? = some x) :
    live x = true ↔ index.get? (key x) = some e := by
  constructor
  · exact h.entry hx
  · intro he
    obtain ⟨y, hy, _, hl⟩ := h.row he
    rw [hx, Option.some_inj] at hy
    exact hy ▸ hl

theorem set (h : Indexed key live rows index) (hx : rows[e]? = some x)
    (hk : key x' = key x) (hl : live x' = live x) :
    Indexed key live (rows.set e x') index where
  row {k i} hi := by
    obtain ⟨y, hy, hky, hly⟩ := h.row hi
    by_cases he : e = i
    · subst he
      rw [hx, Option.some_inj] at hy
      subst hy
      exact ⟨x', by simp [(List.getElem?_eq_some_iff.mp hx).1], hk.trans hky, hl.trans hly⟩
    · exact ⟨y, by rw [List.getElem?_set_ne he, hy], hky, hly⟩
  entry {i y} hi hly := by
    by_cases he : e = i
    · subst he
      rw [List.getElem?_set_self (List.getElem?_eq_some_iff.mp hx).1, Option.some_inj] at hi
      subst hi
      rw [hk]
      exact h.entry hx (hl ▸ hly)
    · rw [List.getElem?_set_ne he] at hi
      exact h.entry hi hly

/-- Row `e` goes out of service; the entry of its key goes with it if it is `e`. -/
theorem leave (h : Indexed key live rows index) (hx : rows[e]? = some x)
    (hl : live x' = false) :
    Indexed key live (rows.set e x')
      (if index.get? (key x) = some e then index.erase (key x) else index) where
  row {k i} hi := by
    have hne : e ≠ i ∧ index.get? k = some i := by
      split at hi
      · rename_i he
        rw [Dict.get?_erase] at hi
        split at hi
        · cases hi
        · rename_i hk
          refine ⟨?_, hi⟩
          rintro rfl
          obtain ⟨y, hy, hky, _⟩ := h.row hi
          rw [hx, Option.some_inj] at hy
          exact hk (hy ▸ hky)
      · rename_i he
        refine ⟨?_, hi⟩
        rintro rfl
        obtain ⟨y, hy, hky, _⟩ := h.row hi
        rw [hx, Option.some_inj] at hy
        subst hy
        exact he (hky ▸ hi)
    obtain ⟨y, hy, hky, hly⟩ := h.row hne.2
    exact ⟨y, by rw [List.getElem?_set_ne hne.1, hy], hky, hly⟩
  entry {i y} hi hly := by
    by_cases he : e = i
    · subst he
      rw [List.getElem?_set_self (List.getElem?_eq_some_iff.mp hx).1, Option.some_inj] at hi
      subst hi
      rw [hl] at hly
      cases hly
    · rw [List.getElem?_set_ne he] at hi
      have hent := h.entry hi hly
      split
      · rename_i hown
        rw [Dict.get?_erase, if_neg ?_, hent]
        intro hk
        rw [hk, hent, Option.some_inj] at hown
        exact he hown.symm
      · exact hent

/-- The rows after the one that holds the entry of `k`, if any, is displaced. -/
def displaced (displace : β → β) (rows : List β) (index : Dict κ ℕ) (k : κ) : List β :=
  match index.get? k with
  | none => rows
  | some old => rows.modify old displace

theorem length_displaced {displace : β → β} {k : κ} :
    (displaced displace rows index k).length = rows.length := by
  rw [displaced]
  split
  · rfl
  · rw [List.length_modify]

theorem getElem?_displaced {displace : β → β} {k : κ} {i : ℕ} :
    (displaced displace rows index k)[i]? =
      if index.get? k = some i then rows[i]?.map displace else rows[i]? := by
  rw [displaced]
  cases index.get? k with
  | none => simp
  | some old =>
    rw [List.getElem?_modify]
    by_cases hi : old = i <;> simp [hi]

theorem countP_displaced {displace : β → β} {p : β → Bool} {k : κ}
    (hd : ∀ y, p (displace y) = p y) : (displaced displace rows index k).countP p = rows.countP p := by
  have hany : ∀ i : ℕ, ((displaced displace rows index k)[i]?).any p = (rows[i]?).any p := by
    intro i
    rw [getElem?_displaced]
    split
    · cases rows[i]? <;> simp [hd]
    · rfl
  exact Nat.le_antisymm (List.countP_le_of_forall fun i hi => hany i ▸ hi)
    (List.countP_le_of_forall fun i hi => (hany i).symm ▸ hi)

/-- Row `e` comes into service under its key; a row that held the entry is displaced. -/
theorem enter {displace : β → β} (h : Indexed key live rows index) (hx : rows[e]? = some x)
    (hx' : live x = false) (hk : key x' = key x) (hl : live x' = true)
    (hd : ∀ y, live (displace y) = false) :
    Indexed key live ((displaced displace rows index (key x)).set e x')
      (index.insert (key x) e) := by
  have hlen : e < (displaced displace rows index (key x)).length := by
    rw [length_displaced]
    exact (List.getElem?_eq_some_iff.mp hx).1
  refine ⟨fun {k i} hi => ?_, fun {i y} hi hly => ?_⟩
  · rw [Dict.get?_insert] at hi
    split at hi
    · rename_i hkk
      cases hi
      exact ⟨x', List.getElem?_set_self hlen, hk.trans hkk, hl⟩
    · rename_i hkk
      obtain ⟨y, hy, hky, hly⟩ := h.row hi
      have hne : e ≠ i := by
        rintro rfl
        rw [hx, Option.some_inj] at hy
        rw [hy, hly] at hx'
        cases hx'
      refine ⟨y, ?_, hky, hly⟩
      rw [List.getElem?_set_ne hne, getElem?_displaced, if_neg, hy]
      intro hold
      obtain ⟨z, hz, hkz, _⟩ := h.row hold
      rw [hy, Option.some_inj] at hz
      subst hz
      exact hkk (hkz.symm.trans hky)
  · by_cases he : e = i
    · subst he
      rw [List.getElem?_set_self hlen, Option.some_inj] at hi
      rw [Dict.get?_insert, ← hi, hk, if_pos rfl]
    · rw [List.getElem?_set_ne he, getElem?_displaced] at hi
      split at hi
      · obtain ⟨z, _, rfl⟩ := Option.map_eq_some_iff.mp hi
        rw [hd z] at hly
        cases hly
      · rename_i hold
        have hent := h.entry hi hly
        rw [Dict.get?_insert, if_neg ?_, hent]
        intro hkk
        rw [← hkk] at hent
        exact hold hent

theorem append {new : List β} (h : Indexed key live rows index)
    (hnew : ∀ y ∈ new, live y = false) : Indexed key live (rows ++ new) index where
  row {k i} hi := by
    obtain ⟨y, hy, hky, hly⟩ := h.row hi
    exact ⟨y, by rw [List.getElem?_append_left (List.getElem?_eq_some_iff.mp hy).1, hy],
      hky, hly⟩
  entry {i y} hi hly := by
    rw [List.getElem?_append] at hi
    split at hi
    · exact h.entry hi hly
    · rw [hnew y (List.mem_of_getElem? hi)] at hly
      cases hly

/-- The index lists no row twice. -/
theorem nodup_values (h : Indexed key live rows index) : index.values.Nodup := by
  refine List.Nodup.map_on ?_ (List.Nodup.of_map Prod.fst index.nodup)
  rintro ⟨k, i⟩ hki ⟨k', i'⟩ hki' hii
  obtain rfl : i = i' := hii
  obtain ⟨y, hy, hky, _⟩ := h.row (Dict.get?_eq_some_iff.mpr hki)
  obtain ⟨z, hz, hkz, _⟩ := h.row (Dict.get?_eq_some_iff.mpr hki')
  rw [hy, Option.some_inj] at hz
  rw [← hky, ← hkz, hz]

/-- There are as many live rows as the index has keys. -/
theorem countP_live (h : Indexed key live rows index) : rows.countP live = index.length := by
  have hmem : ∀ i, i ∈ (List.range rows.length).filter (fun i => (rows[i]?).any live) ↔
      i ∈ index.values := by
    intro i
    rw [List.mem_filter, List.mem_range, Dict.mem_values_iff]
    constructor
    · rintro ⟨hi, hl⟩
      rw [List.getElem?_eq_getElem hi, Option.any_some] at hl
      exact ⟨_, h.entry (List.getElem?_eq_getElem hi) hl⟩
    · rintro ⟨k, hk⟩
      obtain ⟨y, hy, _, hl⟩ := h.row hk
      exact ⟨(List.getElem?_eq_some_iff.mp hy).1, by rw [hy]; exact hl⟩
  rw [List.countP_eq_length_filter_range,
    ((List.perm_ext_iff_of_nodup (List.nodup_range.filter _) h.nodup_values).mpr hmem).length_eq]
  exact List.length_map _

end Indexed
