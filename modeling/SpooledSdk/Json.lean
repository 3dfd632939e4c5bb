/-
JSON values as Python sees them: what `json.loads` returns, and what an application passes
where the SDK takes `Any`.
-/
import Mathlib.Data.List.Induction
import Mathlib.Data.List.Nodup
import Mathlib.Data.Rat.Defs

namespace SpooledSdk

/-- A JSON value; an object lists its members in insertion order. -/
inductive Json
  | null
  | bool (b : Bool)
  | int (n : ℤ)
  | float (q : ℚ)
  | str (s : String)
  | arr (items : List Json)
  | obj (members : List (String × Json))

namespace Json

/-- `bool(v)`. -/
def truthy : Json → Bool
  | .null => false
  | .bool b => b
  | .int n => n != 0
  | .float q => q != 0
  | .str s => s != ""
  | .arr items => !items.isEmpty
  | .obj members => !members.isEmpty

/-- `v.get(key)` of a dict. -/
def get? (key : String) (members : List (String × Json)) : Option Json :=
  (members.find? fun m => m.1 == key).map Prod.snd

/-- `result[key] = value`: in place when the key is there, at the end otherwise. -/
def set (key : String) (value : Json) : List (String × Json) → List (String × Json)
  | [] => [(key, value)]
  | (key', value') :: members =>
    if key' = key then (key, value) :: members else (key', value') :: set key value members

/-- The dict that storing the pairs in turn gives. -/
def ofPairs (pairs : List (String × Json)) : List (String × Json) :=
  pairs.foldl (fun result pair => set pair.1 pair.2 result) []

/-- A value without members and without items. -/
def isScalar : Json → Bool
  | .arr _ | .obj _ => false
  | _ => true

/-- What holds of the scalars, of a list when it holds of its items and of a dict when it holds
of its values, holds of every value. -/
theorem induction {P : Json → Prop} (scalar : ∀ data, data.isScalar = true → P data)
    (arr : ∀ items, (∀ item ∈ items, P item) → P (.arr items))
    (obj : ∀ members, (∀ member ∈ members, P member.2) → P (.obj members)) (data : Json) :
    P data := by
  match data with
  | .null | .bool _ | .int _ | .float _ | .str _ => exact scalar _ rfl
  | .arr items => exact arr items fun item _ => induction scalar arr obj item
  | .obj members => exact obj members fun member _ => induction scalar arr obj member.2
termination_by data
decreasing_by
  · rename_i hmem
    have := List.sizeOf_lt_of_mem hmem
    simp only [Json.arr.sizeOf_spec]
    omega
  · rename_i hmem
    have := List.sizeOf_lt_of_mem hmem
    obtain ⟨key, value⟩ := member
    simp only [Prod.mk.sizeOf_spec] at this
    simp only [Json.obj.sizeOf_spec]
    omega

/-! ### Storing -/

variable {key : String} {value : Json} {members pairs : List (String × Json)}

theorem keys_set : (set key value members).map Prod.fst =
    if key ∈ members.map Prod.fst then members.map Prod.fst
    else members.map Prod.fst ++ [key] := by
  induction members with
  | nil => rfl
  | cons member members ih =>
    rw [set]
    split
    · rename_i h
      rw [if_pos (h ▸ List.mem_cons_self)]
      rw [← h]
      rfl
    · rename_i h
      rw [List.map_cons, List.map_cons, ih]
      by_cases hmem : key ∈ members.map Prod.fst
      · rw [if_pos hmem, if_pos (List.mem_cons_of_mem _ hmem)]
      · rw [if_neg hmem, if_neg (List.not_mem_cons_of_ne_of_not_mem (Ne.symm h) hmem)]
        rfl

theorem get?_set (key' : String) : get? key' (set key value members) =
    if key = key' then some value else get? key' members := by
  induction members with
  | nil => by_cases h : key = key' <;> simp [set, get?, h]
  | cons member members ih =>
    simp only [get?, set] at ih ⊢
    by_cases hm : member.1 = key
    · rw [if_pos hm]
      by_cases h : key = key'
      · simp [h]
      · simp [h, hm]
    · rw [if_neg hm]
      by_cases h : member.1 = key'
      · simp [h, show ¬ key = key' from fun he => hm (h.trans he.symm)]
      · simpa [h] using ih

theorem mem_set {member : String × Json} (h : member ∈ set key value members) :
    member = (key, value) ∨ member ∈ members := by
  induction members with
  | nil => exact .inl (List.mem_singleton.mp h)
  | cons hd members ih =>
    rw [set] at h
    split at h
    · exact (List.mem_cons.mp h).imp_right (List.mem_cons_of_mem _)
    · rcases List.mem_cons.mp h with h | h
      · exact .inr (h ▸ List.mem_cons_self)
      · exact (ih h).imp_right (List.mem_cons_of_mem _)

theorem set_of_notMem (h : key ∉ members.map Prod.fst) :
    set key value members = members ++ [(key, value)] := by
  induction members with
  | nil => rfl
  | cons member members ih =>
    rw [List.map_cons, List.mem_cons, not_or] at h
    rw [set, if_neg (Ne.symm h.1), ih h.2]
    rfl

theorem ofPairs_concat (pair : String × Json) :
    ofPairs (pairs ++ [pair]) = set pair.1 pair.2 (ofPairs pairs) := by
  rw [ofPairs, List.foldl_append]
  rfl

/-- The keys of a dict stand in the order in which they were first stored. -/
theorem keys_ofPairs (pairs : List (String × Json)) :
    (ofPairs pairs).map Prod.fst = (pairs.map Prod.fst).eraseDups := by
  induction pairs using List.reverseRecOn with
  | nil => rfl
  | append_singleton pairs pair ih =>
    rw [ofPairs_concat, keys_set, ih, List.map_append, List.eraseDups_append]
    by_cases h : pair.1 ∈ pairs.map Prod.fst
    · rw [if_pos (List.mem_eraseDups.mpr h)]
      simp [List.removeAll, h]
    · rw [if_neg (mt List.mem_eraseDups.mp h)]
      simp [List.removeAll, h, List.eraseDups_cons]

/-- A key has the value that was stored last under it. -/
theorem get?_ofPairs (pairs : List (String × Json)) (key : String) :
    get? key (ofPairs pairs) = get? key pairs.reverse := by
  induction pairs using List.reverseRecOn with
  | nil => rfl
  | append_singleton pairs pair ih =>
    rw [ofPairs_concat, get?_set, ih, List.reverse_concat]
    by_cases h : pair.1 = key <;> simp [get?, h]

theorem mem_ofPairs {member : String × Json} (h : member ∈ ofPairs pairs) : member ∈ pairs := by
  induction pairs using List.reverseRecOn with
  | nil => cases h
  | append_singleton pairs pair ih =>
    rw [ofPairs_concat] at h
    exact List.mem_append.mpr
      ((mem_set h).elim (fun h => .inr (List.mem_singleton.mpr h)) fun h => .inl (ih h))

/-- Pairs with distinct keys are stored as they are. -/
theorem ofPairs_of_nodup (h : (pairs.map Prod.fst).Nodup) : ofPairs pairs = pairs := by
  induction pairs using List.reverseRecOn with
  | nil => rfl
  | append_singleton pairs pair ih =>
    rw [List.map_append, List.nodup_append] at h
    obtain ⟨hnodup, -, hdisjoint⟩ := h
    rw [ofPairs_concat, ih hnodup, set_of_notMem]
    exact fun hmem => hdisjoint _ hmem _ (List.mem_singleton_self pair.1) rfl

theorem nodup_keys_ofPairs (pairs : List (String × Json)) :
    ((ofPairs pairs).map Prod.fst).Nodup := by
  induction pairs using List.reverseRecOn with
  | nil => exact List.nodup_nil
  | append_singleton pairs pair ih =>
    rw [ofPairs_concat, keys_set]
    split
    · exact ih
    · rename_i h
      rw [List.nodup_append]
      exact ⟨ih, List.nodup_singleton _,
        fun key hkey key' hkey' heq => h (List.mem_singleton.mp hkey' ▸ heq ▸ hkey)⟩

end Json

end SpooledSdk
