/-
What the conversion of request bodies does.

The rule is applied to every key outside the values that are kept as they are
(`convertRequest_eq_renamed`); where two keys of one object convert to the same name, the first
gives the place and the last the value (`convertRequest_obj`).  A second conversion changes
nothing (`convertRequest_idem`).
-/
import SpooledSdk.Casing

namespace SpooledSdk

namespace Casing

/-! ### The rule on one key -/

/-- A text without a capital. -/
def noCapital (s : String) : Prop := ∀ c ∈ s.toList, c.isUpper = false

theorem not_isUpper_of_mem_snakeFrom {prev : Option Char} {s : List Char} {c : Char}
    (h : c ∈ snakeFrom prev s) : c.isUpper = false := by
  induction s generalizing prev with
  | nil => cases h
  | cons d s ih =>
    rcases List.mem_append.mp h with h | h
    · split at h
      · rcases List.mem_pair.mp h with rfl | rfl
        · decide
        · exact Char.isUpper_toLower_eq_false d
      · rw [List.mem_singleton.mp h]
        exact Char.isUpper_toLower_eq_false d
    · exact ih h

theorem noCapital_snakeRule (s : String) : noCapital (snakeRule s) := by
  intro c hc
  rw [snakeRule, String.toList_ofList] at hc
  exact not_isUpper_of_mem_snakeFrom hc

theorem snakeFrom_of_noCapital {prev : Option Char} {s : List Char}
    (h : ∀ c ∈ s, c.isUpper = false) : snakeFrom prev s = s := by
  induction s generalizing prev with
  | nil => rfl
  | cons c s ih =>
    obtain ⟨hc, hs⟩ := List.forall_mem_cons.mp h
    rw [snakeFrom, hc, Bool.false_and, if_neg (by decide),
      Char.toLower_eq_of_not_isUpper (Bool.eq_false_iff.mp hc), ih hs]
    rfl

theorem snakeRule_of_noCapital {s : String} (h : noCapital s) : snakeRule s = s := by
  rw [snakeRule, snakeFrom_of_noCapital h, String.ofList_toList]

/-- A key whose value is kept as it is: it is listed before or after its conversion. -/
def verbatim (key : String) : Bool :=
  skipConversionKeys.contains key || skipConversionKeys.contains (snakeRule key)

theorem verbatim_snakeRule (key : String) : verbatim (snakeRule key) = verbatim key := by
  -- the list holds both spellings of each of its names
  have hlist : ∀ key ∈ skipConversionKeys, skipConversionKeys.contains (snakeRule key) = true := by
    decide +kernel
  rw [verbatim, verbatim, snakeRule_of_noCapital (noCapital_snakeRule key), Bool.or_self]
  cases hkey : skipConversionKeys.contains key with
  | false => rw [Bool.false_or]
  | true => rw [hlist key (List.contains_iff_mem.mp hkey), Bool.or_self]

/-! ### One level of a body -/

/-- What becomes of a member: its key is converted, and its value unless it is kept. -/
def renamedMember (member : String × Json) : String × Json :=
  (snakeRule member.1, if verbatim member.1 then member.2 else convertRequest member.2)

theorem convertRequest_scalar {data : Json} (h : data.isScalar = true) :
    convertRequest data = data := by
  cases data with
  | arr | obj => cases h
  | null | bool | int | float | str => rfl

theorem convertRequest_arr (items : List Json) :
    convertRequest (.arr items) = .arr (items.map convertRequest) := by
  have hitems : ∀ items, convertItems toSnakeCase skipConversionKeys items =
      items.map convertRequest := by
    intro items
    induction items with
    | nil => rfl
    | cons item items ih => rw [convertItems, ih]; rfl
  exact congrArg Json.arr (hitems items)

theorem convertRequest_obj (members : List (String × Json)) :
    convertRequest (.obj members) = .obj (Json.ofPairs (members.map renamedMember)) := by
  have hmembers : ∀ members result, convertMembers toSnakeCase skipConversionKeys result members =
      (members.map renamedMember).foldl (fun result pair => Json.set pair.1 pair.2 result)
        result := by
    intro members
    induction members with
    | nil => exact fun result => rfl
    | cons member members ih =>
      intro result
      rw [convertMembers, ih, List.map_cons, List.foldl_cons, renamedMember, verbatim,
        toSnakeCase_eq]
      rfl
  exact congrArg Json.obj (hmembers members [])

/-! ### Every level of a body -/

/-- `P` holds of the keys of every object of a body, those inside of kept values apart. -/
inductive Outside (P : List String → Prop) : Json → Prop
  | scalar (data : Json) : data.isScalar = true → Outside P data
  | arr (items : List Json) : (∀ item ∈ items, Outside P item) → Outside P (.arr items)
  | obj (members : List (String × Json)) : P (members.map Prod.fst) →
    (∀ member ∈ members, verbatim member.1 = false → Outside P member.2) →
    Outside P (.obj members)

mutual

/-- The body with the rule applied to every key outside the kept values. -/
def renamed : Json → Json
  | .obj members => .obj (renamedMembers members)
  | .arr items => .arr (renamedItems items)
  | data => data

def renamedMembers : List (String × Json) → List (String × Json)
  | [] => []
  | (key, value) :: members =>
    (snakeRule key, if verbatim key then value else renamed value) :: renamedMembers members

def renamedItems : List Json → List Json
  | [] => []
  | item :: items => renamed item :: renamedItems items

end

theorem renamedItems_eq (items : List Json) : renamedItems items = items.map renamed := by
  induction items with
  | nil => rfl
  | cons item items ih => rw [renamedItems, ih, List.map_cons]

theorem renamedMembers_eq (members : List (String × Json)) :
    renamedMembers members = members.map fun member =>
      (snakeRule member.1, if verbatim member.1 then member.2 else renamed member.2) := by
  induction members with
  | nil => rfl
  | cons member members ih => rw [renamedMembers, ih, List.map_cons]

/-- Where no two keys of an object convert to the same name, conversion renames. -/
theorem convertRequest_eq_renamed {body : Json}
    (h : Outside (fun keys => (keys.map snakeRule).Nodup) body) :
    convertRequest body = renamed body := by
  induction h with
  | scalar data h =>
    rw [convertRequest_scalar h]
    cases data with
    | arr | obj => cases h
    | null | bool | int | float | str => rfl
  | arr items _ ih =>
    rw [convertRequest_arr, renamed, renamedItems_eq]
    exact congrArg Json.arr (List.map_congr_left ih)
  | obj members hkeys _ ih =>
    have hnodup : ((members.map renamedMember).map Prod.fst).Nodup := by
      rwa [List.map_map] at hkeys ⊢
    rw [convertRequest_obj, Json.ofPairs_of_nodup hnodup, renamed, renamedMembers_eq]
    refine congrArg Json.obj (List.map_congr_left fun member hmem => ?_)
    rw [renamedMember]
    cases hkept : verbatim member.1 with
    | true => rfl
    | false => rw [ih member hmem hkept]

theorem convertRequest_idem (body : Json) :
    convertRequest (convertRequest body) = convertRequest body := by
  induction body using Json.induction with
  | scalar data h => rw [convertRequest_scalar h, convertRequest_scalar h]
  | arr items ih =>
    rw [convertRequest_arr, convertRequest_arr, List.map_map]
    exact congrArg Json.arr (List.map_congr_left ih)
  | obj members ih =>
    have hfix : ∀ member ∈ Json.ofPairs (members.map renamedMember),
        renamedMember member = member := by
      intro member hmem
      obtain ⟨source, hsource, rfl⟩ := List.mem_map.mp (Json.mem_ofPairs hmem)
      -- a converted key is kept or converted in the second pass as it was in the first
      simp only [renamedMember, verbatim_snakeRule,
        snakeRule_of_noCapital (noCapital_snakeRule source.1)]
      cases hkept : verbatim source.1 with
      | true => rfl
      | false =>
        simp only [Bool.false_eq_true, if_false]
        rw [ih source hsource]
    rw [convertRequest_obj, convertRequest_obj,
      List.map_congr_left (g := id) hfix, List.map_id,
      Json.ofPairs_of_nodup (Json.nodup_keys_ofPairs _)]

theorem renamed_of_noCapital {body : Json}
    (h : Outside (fun keys => ∀ key ∈ keys, noCapital key) body) : renamed body = body := by
  induction h with
  | scalar data h =>
    cases data with
    | arr | obj => cases h
    | null | bool | int | float | str => rfl
  | arr items _ ih =>
    rw [renamed, renamedItems_eq]
    refine congrArg Json.arr ?_
    conv_rhs => rw [← List.map_id items]
    exact List.map_congr_left ih
  | obj members hkeys _ ih =>
    rw [renamed, renamedMembers_eq]
    refine congrArg Json.obj ?_
    conv_rhs => rw [← List.map_id members]
    refine List.map_congr_left fun member hmem => ?_
    rw [snakeRule_of_noCapital (hkeys _ (List.mem_map_of_mem hmem))]
    cases hkept : verbatim member.1 with
    | true => rfl
    | false => rw [ih member hmem hkept]; rfl

theorem Outside.imp {P Q : List String → Prop} {body : Json} (h : Outside P body)
    (himp : ∀ keys, P keys → Q keys) : Outside Q body := by
  induction h with
  | scalar data h => exact .scalar data h
  | arr items _ ih => exact .arr items ih
  | obj members hkeys _ ih => exact .obj members (himp _ hkeys) ih

/-- The laws of `convert_request`, and of `to_snake_case` under it. -/
theorem convertRequest_laws :
    (∀ s, toSnakeCase s = snakeRule s) ∧
    (∀ body, Outside (fun keys => (keys.map snakeRule).Nodup) body →
      convertRequest body = renamed body) ∧
    (∀ data, data.isScalar = true → convertRequest data = data) ∧
    (∀ items, convertRequest (.arr items) = .arr (items.map convertRequest)) ∧
    (∀ members, ∃ members', convertRequest (.obj members) = .obj members' ∧
      members'.map Prod.fst = (members.map fun member => snakeRule member.1).eraseDups ∧
      ∀ name, Json.get? name members' = Json.get? name (members.map renamedMember).reverse) ∧
    (∀ body, convertRequest (convertRequest body) = convertRequest body) ∧
    ∀ body, Outside (fun keys => keys.Nodup ∧ ∀ key ∈ keys, noCapital key) body →
      convertRequest body = body := by
  refine ⟨toSnakeCase_eq, fun body => convertRequest_eq_renamed, fun data => convertRequest_scalar,
    convertRequest_arr, fun members => ⟨_, convertRequest_obj members, ?_, ?_⟩,
    convertRequest_idem, fun body hbody => ?_⟩
  · rw [Json.keys_ofPairs, List.map_map]
    rfl
  · exact Json.get?_ofPairs _
  · rw [convertRequest_eq_renamed (hbody.imp fun keys hkeys => ?_),
      renamed_of_noCapital (hbody.imp fun keys hkeys => hkeys.2)]
    have hmap : keys.map snakeRule = keys :=
      (List.map_congr_left fun key hkey => snakeRule_of_noCapital (hkeys.2 key hkey)).trans
        (List.map_id keys)
    exact hmap.symm ▸ hkeys.1

theorem convertRequest_laws_sample :
    convertRequest (.obj [("queueName", .int 1), ("payload", .obj [("userId", .int 7)])]) =
      .obj [("queue_name", .int 1), ("payload", .obj [("userId", .int 7)])] := by
  have hname : snakeRule "queueName" = "queue_name" := by decide +kernel
  have hpayload : snakeRule "payload" = "payload" := by decide +kernel
  have hkept : verbatim "payload" = true := by simp [verbatim, skipConversionKeys]
  rw [convertRequest_laws.2.1 _ (.obj _ (by decide +kernel) fun member hmem hnot => ?_),
    renamed, renamedMembers, renamedMembers, renamedMembers, hname, hpayload, hkept]
  · have hfree : verbatim "queueName" = false := by
      simp [verbatim, hname, skipConversionKeys]
    rw [hfree]
    rfl
  · rcases List.mem_pair.mp hmem with rfl | rfl
    · exact .scalar _ rfl
    · rw [hkept] at hnot
      cases hnot

end Casing

end SpooledSdk
