/-
The methods of `str` that the SDK uses on texts from outside.
-/
import Mathlib.Data.List.DropRight

namespace SpooledSdk

namespace Text

/-- The characters that `str.strip` takes off. -/
def isSpace (c : Char) : Bool :=
  let n := c.toNat
  (9 ≤ n && n ≤ 13) || (28 ≤ n && n ≤ 32) || n == 0x85 || n == 0xa0 || n == 0x1680 ||
    (0x2000 ≤ n && n ≤ 0x200a) || n == 0x2028 || n == 0x2029 || n == 0x202f || n == 0x205f ||
    n == 0x3000

/-- `s.strip()` -/
def strip (s : String) : String :=
  String.ofList ((s.toList.dropWhile isSpace).rdropWhile isSpace)

/-- `s.rstrip("/")` -/
def rstrip (s : String) : String := String.ofList (s.toList.rdropWhile (· == '/'))

/-- `s.replace(old, new)` for a nonempty `old`; `fuel` bounds the characters that are read. -/
def replaceFuel (old new : List Char) : ℕ → List Char → List Char
  | 0, s => s
  | _ + 1, [] => []
  | fuel + 1, c :: s =>
    if old.isPrefixOf (c :: s) then
      new ++ replaceFuel old new fuel ((c :: s).drop old.length)
    else c :: replaceFuel old new fuel s

def replace (old new s : String) : String :=
  String.ofList (replaceFuel old.toList new.toList s.toList.length s.toList)

theorem rstrip_rstrip (s : String) : rstrip (rstrip s) = rstrip s := by
  rw [rstrip, rstrip, String.toList_ofList, List.rdropWhile_idempotent]

theorem rstrip_eq_empty {s : String} : rstrip s = "" ↔ ∀ c ∈ s.toList, c = '/' := by
  rw [rstrip, String.ofList_eq_empty_iff, List.rdropWhile_eq_nil_iff]
  simp only [beq_iff_eq]

theorem strip_strip (s : String) : strip (strip s) = strip s := by
  have hstart : ∀ l : List Char, (((l.dropWhile isSpace).rdropWhile isSpace).dropWhile isSpace) =
      (l.dropWhile isSpace).rdropWhile isSpace := by
    intro l
    have hprefix := List.rdropWhile_prefix isSpace (l.dropWhile isSpace)
    cases hm : (l.dropWhile isSpace).rdropWhile isSpace with
    | nil => rfl
    | cons c m =>
      rw [hm] at hprefix
      obtain ⟨rest, hrest⟩ := hprefix
      have := List.head?_dropWhile_not isSpace l
      rw [← hrest] at this
      exact List.dropWhile_cons_of_neg (by simpa using this)
  rw [strip, strip, String.toList_ofList, hstart, List.rdropWhile_idempotent]

theorem mem_replaceFuel {old new s : List Char} {fuel : ℕ} {p : Char → Prop}
    (hold : ∃ c ∈ old, ¬ p c) (hnew : ∃ c ∈ new, ¬ p c) :
    (∀ c ∈ replaceFuel old new fuel s, p c) ↔ ∀ c ∈ s, p c := by
  induction fuel generalizing s with
  | zero => exact Iff.rfl
  | succ fuel ih =>
    cases s with
    | nil => exact Iff.rfl
    | cons c s =>
      rw [replaceFuel]
      split
      · rename_i h
        -- both texts have a character of the one that is replaced or put in its place
        obtain ⟨d, hd, hpd⟩ := hold
        obtain ⟨e, he, hpe⟩ := hnew
        obtain ⟨rest, hrest⟩ := List.isPrefixOf_iff_prefix.mp h
        exact ⟨fun hall => absurd (hall e (List.mem_append_left _ he)) hpe,
          fun hall => absurd (hall d (hrest ▸ List.mem_append_left _ hd)) hpd⟩
      · rw [List.forall_mem_cons, List.forall_mem_cons, ih]

-- other modules use the facts above
attribute [irreducible] strip rstrip

end Text

end SpooledSdk
