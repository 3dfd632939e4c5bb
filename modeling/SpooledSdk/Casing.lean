/-
`utils/casing.py`: the keys of request bodies, in snake case.

`toSnakeCase` is the two substitutions of the source; `snakeRule` is the rule they amount to,
read off one character and its neighbours.  Texts are ASCII: `\d` is a digit and `lower` acts on
each character.
-/
import Mathlib
import SpooledSdk.Json
import SpooledSdk.Regex

namespace SpooledSdk

namespace Casing

/-! ### The source -/

/-- `SKIP_CONVERSION_KEYS` -/
def skipConversionKeys : List String :=
  ["payload", "result", "metadata", "tags", "settings", "details", "extra", "payloadTemplate",
    "payload_template", "customLimits", "custom_limits"]

/-- `[a-z\d]` -/
def lowerOrDigit (c : Char) : Bool := c.isLower || c.isDigit

/-- `[A-Z][a-z]` -/
def capitalized : Regex := .seq (.cls Char.isUpper) (.cls Char.isLower)

/-- `([A-Z]+)([A-Z][a-z])` -/
def capitals : Regex := .seq (.group (.many1 Char.isUpper)) (.group capitalized)

/-- `([a-z\d])([A-Z])` -/
def hump : Regex := .seq (.group (.cls lowerOrDigit)) (.group (.cls Char.isUpper))

/-- `\1_\2` -/
def joined : List Regex.Piece := [.group 1, .char '_', .group 2]

/-- `to_snake_case` -/
def toSnakeCase (s : String) : String :=
  let s := Regex.sub capitals joined s.toList
  let s := Regex.sub hump joined s
  String.ofList (s.map Char.toLower)

/-! ### The rule -/

/-- Whether a lower-case letter comes next. -/
def nextLower : List Char → Bool
  | [] => false
  | c :: _ => c.isLower

/-- An underscore before a capital that follows a lower-case letter or a digit, or that follows
a capital and is followed by a lower-case letter; every letter lowered. -/
def snakeFrom (prev : Option Char) : List Char → List Char
  | [] => []
  | c :: s =>
    (if c.isUpper && (prev.any lowerOrDigit || prev.any Char.isUpper && nextLower s)
      then ['_', c.toLower] else [c.toLower]) ++ snakeFrom (some c) s

/-- The one-pass rule. -/
def snakeRule (s : String) : String := String.ofList (snakeFrom none s.toList)

/-! ### The first substitution -/

/-- The first substitution in one pass; `upper` says whether a capital came before. -/
def markCapitals (upper : Bool) : List Char → List Char
  | [] => []
  | c :: s =>
    if upper && c.isUpper && nextLower s then '_' :: c :: markCapitals true s
    else c :: markCapitals c.isUpper s

/-- The matches of `capitals` that take their first group from `taken`. -/
private def ends (taken rest : List Char) : List Regex.Match :=
  ((Regex.splits taken rest).flatMap fun m =>
    (Regex.run (.group capitalized) m.rest).map fun m' =>
      ⟨m.text ++ m'.text, m.text :: (m.groups ++ m'.groups), m'.rest⟩)

private theorem run_capitals (s : List Char) :
    Regex.run capitals s = ends (s.takeWhile Char.isUpper) (s.dropWhile Char.isUpper) := by
  rw [capitals, Regex.run, Regex.run, Regex.run, List.flatMap_map]
  rfl

private theorem ends_cons (c : Char) (taken rest : List Char) :
    ends (c :: taken) rest =
      ((ends taken rest).map fun m =>
        ⟨c :: m.text, m.groups.modifyHead (c :: ·), m.rest⟩) ++
      (Regex.run (.group capitalized) (taken ++ rest)).map fun m =>
        ⟨c :: m.text, [c] :: m.groups, m.rest⟩ := by
  rw [ends, Regex.splits, List.flatMap_append, List.flatMap_map, List.flatMap_singleton, ends,
    List.map_flatMap]
  simp only [List.map_map, List.cons_append, List.nil_append]
  rfl

private theorem run_capitalized (s : List Char) : Regex.run (.group capitalized) s =
    match s with
    | c :: d :: s => if c.isUpper && d.isLower then [⟨[c, d], [[c, d]], s⟩] else []
    | _ => [] := by
  match s with
  | [] => rfl
  | [c] => by_cases hc : c.isUpper = true <;> simp [capitalized, Regex.run, hc]
  | c :: d :: s =>
    by_cases hc : c.isUpper = true <;> by_cases hd : d.isLower = true <;>
      simp [capitalized, Regex.run, hc, hd]

private theorem not_isLower {c : Char} (h : c.isUpper = true) : c.isLower = false :=
  Bool.eq_false_iff.mpr (Char.not_isLower_of_isUpper h)

/-- A run of capitals and what follows it: a match takes all of the run and one letter more, and
there is none unless the run is long enough and that letter is lower case. -/
private theorem ends_eq {taken rest : List Char} (htaken : ∀ c ∈ taken, c.isUpper = true)
    (hrest : rest.head?.any Char.isUpper = false) :
    ends taken rest =
      if 2 ≤ taken.length ∧ nextLower rest = true then
        [⟨taken ++ rest.take 1, [taken.dropLast, taken.getLast?.toList ++ rest.take 1],
          rest.drop 1⟩]
      else [] := by
  induction taken with
  | nil => rfl
  | cons c taken ih =>
    obtain ⟨hc, htaken⟩ := List.forall_mem_cons.mp htaken
    rw [ends_cons, ih htaken, run_capitalized]
    match taken with
    | [] =>
      cases rest with
      | nil => rfl
      | cons d rest =>
        have hd : d.isUpper = false := hrest
        cases rest <;> simp [hd]
    -- of two capitals the first may be the first group
    | [d] =>
      have hd := htaken d (List.mem_singleton_self d)
      cases rest with
      | nil => rfl
      | cons e rest =>
        by_cases he : e.isLower = true <;> simp [nextLower, hd, he]
    | d :: e :: taken =>
      have he := not_isLower (htaken e (by simp))
      by_cases hn : nextLower rest = true <;> simp [hn, he]

theorem markCapitals_capitals {taken rest : List Char} {upper : Bool}
    (htaken : ∀ c ∈ taken, c.isUpper = true) (hne : taken ≠ []) (hn : nextLower rest = true)
    (h : upper = true ∨ 2 ≤ taken.length) :
    markCapitals upper (taken ++ rest) =
      taken.dropLast ++ '_' :: (taken.getLast?.toList ++ rest.take 1) ++
        markCapitals false (rest.drop 1) := by
  induction taken generalizing upper with
  | nil => exact absurd rfl hne
  | cons c taken ih =>
    obtain ⟨hc, htaken⟩ := List.forall_mem_cons.mp htaken
    cases taken with
    | nil =>
      have hupper : upper = true := h.resolve_right (by simp)
      cases rest with
      | nil => cases hn
      | cons d rest =>
        have hd : d.isUpper = false := by
          cases hu : d.isUpper with
          | false => rfl
          | true => exact absurd (not_isLower hu) (by rw [← nextLower.eq_2 d rest, hn]; decide)
        simp [markCapitals, hupper, hc, hn, hd]
    | cons d taken =>
      have hd := not_isLower (htaken d List.mem_cons_self)
      have := ih htaken (List.cons_ne_nil _ _) (.inl rfl)
      rw [List.cons_append, markCapitals, if_neg (by simp [nextLower, hd]), hc, this]
      rfl

/-- The first substitution inserts what one pass does, where no match ends within a run of
capitals. -/
theorem sub_capitals {s : List Char} (upper : Bool)
    (h : upper = true → s.takeWhile Char.isUpper ≠ [] →
      nextLower (s.dropWhile Char.isUpper) = false) :
    Regex.sub capitals joined s = markCapitals upper s := by
  induction hlen : s.length using Nat.strong_induction_on generalizing s upper with
  | _ n ih =>
  subst hlen
  cases s with
  | nil => rfl
  | cons c s =>
    have hsplit : (c :: s).takeWhile Char.isUpper ++ (c :: s).dropWhile Char.isUpper = c :: s :=
      List.takeWhile_append_dropWhile
    have htaken : ∀ d ∈ (c :: s).takeWhile Char.isUpper, d.isUpper = true :=
      fun d hd => List.mem_takeWhile_imp hd
    have hrest : ((c :: s).dropWhile Char.isUpper).head?.any Char.isUpper = false := by
      rw [Option.any_eq_false]
      intro d hd
      have := List.head?_dropWhile_not Char.isUpper (c :: s)
      rw [hd] at this
      simpa using this
    have hmatch : Regex.match? capitals (c :: s) = _ :=
      congrArg List.head? ((run_capitals (c :: s)).trans (ends_eq htaken hrest))
    by_cases hm : 2 ≤ ((c :: s).takeWhile Char.isUpper).length ∧
        nextLower ((c :: s).dropWhile Char.isUpper) = true
    · rw [if_pos hm] at hmatch
      -- the run of capitals and one letter are matched, and the scan goes on after them
      have hne : (c :: s).takeWhile Char.isUpper ≠ [] := by
        intro hnil
        rw [hnil] at hm
        exact absurd hm.1 (by simp)
      have hupper : upper = false := by
        cases upper with
        | false => rfl
        | true => exact absurd hm.2 (by rw [h rfl hne]; decide)
      have hlt := Regex.match?_length hmatch
      rw [Regex.sub_of_match hmatch, ih _ hlt false nofun rfl, hupper]
      conv_rhs => rw [← hsplit, markCapitals_capitals htaken hne hm.2 (.inr hm.1)]
      simp [Regex.expand, joined]
    · rw [if_neg hm] at hmatch
      -- no match begins in this run: it is passed over letter by letter
      rw [Regex.sub_of_none hmatch, markCapitals]
      cases hc : c.isUpper with
      | false =>
        rw [Bool.and_false, Bool.false_and, if_neg (by decide)]
        rw [ih s.length (by simp) false nofun rfl]
      | true =>
        rw [List.takeWhile_cons_of_pos hc, List.dropWhile_cons_of_pos hc] at hm h
        have hnext : (upper && true && nextLower s) = false := by
          cases upper with
          | false => rfl
          | true =>
            cases s with
            | nil => rfl
            | cons d s =>
              cases hd : d.isUpper with
              | true => exact not_isLower hd
              | false =>
                have := h rfl (List.cons_ne_nil _ _)
                rwa [List.dropWhile_cons_of_neg (by simp [hd])] at this
        rw [hnext, if_neg (by decide)]
        refine congrArg (c :: ·) (ih s.length (by simp) true (fun _ hne => ?_) rfl)
        cases hn : nextLower (s.dropWhile Char.isUpper) with
        | false => rfl
        | true =>
          refine absurd ⟨?_, hn⟩ hm
          rw [List.length_cons]
          have := List.length_pos_iff.mpr hne
          omega

/-! ### The second substitution -/

/-- The second substitution in one pass; `low` says whether a lower-case letter or a digit came
before. -/
def markHumps (low : Bool) : List Char → List Char
  | [] => []
  | c :: s =>
    (if low && c.isUpper then ['_', c] else [c]) ++ markHumps (lowerOrDigit c) s

private theorem match_hump (s : List Char) : Regex.match? hump s =
    match s with
    | c :: d :: s =>
      if lowerOrDigit c && d.isUpper then some ⟨[c, d], [[c], [d]], s⟩ else none
    | _ => none := by
  match s with
  | [] => rfl
  | [c] => by_cases hc : lowerOrDigit c = true <;> simp [hump, Regex.match?, Regex.run, hc]
  | c :: d :: s =>
    by_cases hc : lowerOrDigit c = true <;> by_cases hd : d.isUpper = true <;>
      simp [hump, Regex.match?, Regex.run, hc, hd]

private theorem not_lowerOrDigit {c : Char} (h : c.isUpper = true) : lowerOrDigit c = false := by
  rw [lowerOrDigit, not_isLower h, Bool.false_or]
  simp only [Char.isUpper, Char.isDigit, decide_eq_true_eq,
    Bool.and_eq_false_iff, decide_eq_false_iff_not, UInt32.le_iff_toNat_le, ge_iff_le] at h ⊢
  have : 'A'.val.toNat = 65 := rfl
  have : '9'.val.toNat = 57 := rfl
  omega

theorem sub_hump {s : List Char} (low : Bool)
    (h : low = true → s.head?.any Char.isUpper = false) :
    Regex.sub hump joined s = markHumps low s := by
  induction hlen : s.length using Nat.strong_induction_on generalizing s low with
  | _ n ih =>
  subst hlen
  cases s with
  | nil => rfl
  | cons c s =>
    have hc : (low && c.isUpper) = false := by
      cases low with
      | false => rfl
      | true => exact h rfl
    have hmatch := match_hump (c :: s)
    rw [markHumps, hc, if_neg (by decide)]
    cases s with
    | nil => rw [Regex.sub_of_none hmatch]; rfl
    | cons d s =>
      dsimp only at hmatch
      cases hcd : (lowerOrDigit c && d.isUpper) with
      | true =>
        obtain ⟨hlow, hd⟩ := Bool.and_eq_true_iff.mp hcd
        rw [hcd, if_pos rfl] at hmatch
        have hlen : s.length < (c :: d :: s).length := by
          simp only [List.length_cons]
          omega
        -- the capital is consumed, and could not have been the first half of another match
        rw [Regex.sub_of_match hmatch, ih s.length hlen false nofun rfl, markHumps, hcd,
          if_pos rfl, not_lowerOrDigit hd]
        rfl
      | false =>
        rw [hcd, if_neg (by decide)] at hmatch
        rw [Regex.sub_of_none hmatch]
        refine congrArg (c :: ·) (ih _ (by simp) _ (fun hlow => ?_) rfl)
        rwa [hlow, Bool.true_and] at hcd

/-! ### Both -/

/-- The two passes together decide as the rule does. -/
theorem markHumps_markCapitals (prev : Option Char) (s : List Char) :
    (markHumps (prev.any lowerOrDigit) (markCapitals (prev.any Char.isUpper) s)).map Char.toLower =
      snakeFrom prev s := by
  induction s generalizing prev with
  | nil => rfl
  | cons c s ih =>
    have ih := ih (some c)
    rw [Option.any_some, Option.any_some] at ih
    rw [markCapitals, snakeFrom]
    cases hc : c.isUpper with
    | false =>
      rw [hc] at ih
      rw [Bool.and_false, Bool.false_and, if_neg (by decide), markHumps, hc, Bool.and_false,
        if_neg (by decide), Bool.false_and, if_neg (by decide), List.map_append, ih]
      rfl
    | true =>
      rw [hc] at ih
      cases hmark : prev.any Char.isUpper && nextLower s with
      | true =>
        rw [Bool.and_right_comm, hmark, Bool.true_and, if_pos rfl, markHumps, markHumps, hc,
          Bool.or_true, List.map_append, List.map_append, ih]
        -- the second pass meets the underscore of the first, and leaves its capital alone
        have : (prev.any lowerOrDigit && '_'.isUpper) = false := Bool.and_false _
        rw [this]
        rfl
      | false =>
        rw [Bool.and_right_comm, hmark, Bool.false_and, if_neg (by decide), markHumps, hc,
          Bool.or_false, Bool.and_true, Bool.true_and, List.map_append, ih]
        cases prev.any lowerOrDigit <;> rfl

/-- The two substitutions follow the rule. -/
theorem toSnakeCase_eq (s : String) : toSnakeCase s = snakeRule s := by
  rw [toSnakeCase, snakeRule, sub_capitals false nofun,
    sub_hump false nofun]
  exact congrArg String.ofList (markHumps_markCapitals none s.toList)

/-! ### Bodies -/

section

variable (converter : String → String) (skip : List String)

mutual

/-- `convert_keys`; `result` holds the members converted so far. -/
def convertKeys : Json → Json
  | .obj members => .obj (convertMembers [] members)
  | .arr items => .arr (convertItems items)
  | data => data

def convertMembers (result : List (String × Json)) : List (String × Json) → List (String × Json)
  | [] => result
  | (key, value) :: members =>
    let newKey := converter key
    -- opaque user data is kept as it is, under the converted key
    let newValue :=
      if skip.contains key || skip.contains newKey then value else convertKeys value
    convertMembers (Json.set newKey newValue result) members

def convertItems : List Json → List Json
  | [] => []
  | item :: items => convertKeys item :: convertItems items

end

end

/-- `convert_request` -/
def convertRequest : Json → Json := convertKeys toSnakeCase skipConversionKeys

end Casing

end SpooledSdk
