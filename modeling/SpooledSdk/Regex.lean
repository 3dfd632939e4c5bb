/-
Regular expressions without alternatives, matched with backtracking, and the substitution of
all their matches.

`Regex.run r s` lists the ways in which `r` matches a prefix of `s`, the preferred one first;
`sub r t s` replaces the matches of `r` in `s` from left to right, none overlapping another, by
the template `t`.  What the proofs elsewhere use:

* `run_many1` — a greedy repetition tries its longest match first;
* `sub_of_match`, `sub_of_none` — one step of the substitution.
-/
import Mathlib.Data.List.TakeWhile

/-- A class of characters, a greedy `+` over one, a sequence, or a captured group. -/
inductive Regex
  | cls (p : Char → Bool)
  | many1 (p : Char → Bool)
  | seq (r r' : Regex)
  | group (r : Regex)

namespace Regex

/-- A match of a prefix: its text, the texts of its groups, and what follows it. -/
structure Match where
  text : List Char
  groups : List (List Char)
  rest : List Char
deriving DecidableEq, Repr

/-- The ways to take between one and all of the characters in `taken`, the longest first. -/
def splits : List Char → List Char → List Match
  | [], _ => []
  | c :: taken, rest =>
    ((splits taken rest).map fun m => { m with text := c :: m.text }) ++
      [⟨[c], [], taken ++ rest⟩]

/-- The matches of a prefix, in the order in which backtracking finds them. -/
def run : Regex → List Char → List Match
  | .cls _, [] => []
  | .cls p, c :: s => if p c then [⟨[c], [], s⟩] else []
  | .many1 p, s => splits (s.takeWhile p) (s.dropWhile p)
  | .seq r r', s =>
    (run r s).flatMap fun m =>
      (run r' m.rest).map fun m' => ⟨m.text ++ m'.text, m.groups ++ m'.groups, m'.rest⟩
  | .group r, s => (run r s).map fun m => { m with groups := m.text :: m.groups }

/-- The match that is used: the first one. -/
def match? (r : Regex) (s : List Char) : Option Match := (run r s).head?

/-! ### Templates and substitution -/

/-- A piece of a template: a character, or the text of a group. -/
inductive Piece
  | char (c : Char)
  | group (n : ℕ)

/-- The template with the groups of a match put in. -/
def expand (template : List Piece) (groups : List (List Char)) : List Char :=
  template.flatMap fun
    | .char c => [c]
    | .group n => groups.getD (n - 1) []

/-- The substitution in the first characters of `s`, `fuel` of them at most. -/
def subFuel (r : Regex) (template : List Piece) : ℕ → List Char → List Char
  | 0, s => s
  | _ + 1, [] => []
  | fuel + 1, c :: s =>
    match r.match? (c :: s) with
    | some m => expand template m.groups ++ subFuel r template fuel m.rest
    | none => c :: subFuel r template fuel s

/-- Every match of `r`, from left to right, replaced by the template. -/
def sub (r : Regex) (template : List Piece) (s : List Char) : List Char :=
  subFuel r template s.length s

/-! ### Matches make progress -/

theorem splits_length {taken rest : List Char} {m : Match} (h : m ∈ splits taken rest) :
    m.text ≠ [] ∧ m.text ++ m.rest = taken ++ rest := by
  induction taken generalizing m with
  | nil => cases h
  | cons c taken ih =>
    rcases List.mem_append.mp h with h | h
    · obtain ⟨m', hm', rfl⟩ := List.mem_map.mp h
      exact ⟨List.cons_ne_nil _ _, congrArg (c :: ·) (ih hm').2⟩
    · rw [List.mem_singleton.mp h]
      exact ⟨List.cons_ne_nil _ _, rfl⟩

/-- A match takes a prefix, and something. -/
theorem run_prefix {r : Regex} {s : List Char} {m : Match} (h : m ∈ run r s) :
    m.text ≠ [] ∧ m.text ++ m.rest = s := by
  induction r generalizing s m with
  | cls p =>
    cases s with
    | nil => cases h
    | cons c s =>
      rw [run] at h
      split at h
      · rw [List.mem_singleton.mp h]
        exact ⟨List.cons_ne_nil _ _, rfl⟩
      · cases h
  | many1 p =>
    obtain ⟨hne, heq⟩ := splits_length h
    exact ⟨hne, heq.trans List.takeWhile_append_dropWhile⟩
  | seq r r' ih ih' =>
    obtain ⟨m₁, h₁, h⟩ := List.mem_flatMap.mp h
    obtain ⟨m₂, h₂, rfl⟩ := List.mem_map.mp h
    obtain ⟨hne, heq⟩ := ih h₁
    obtain ⟨-, heq'⟩ := ih' h₂
    refine ⟨List.append_ne_nil_of_left_ne_nil hne _, ?_⟩
    rw [List.append_assoc, heq', heq]
  | group r ih =>
    obtain ⟨m', hm', rfl⟩ := List.mem_map.mp h
    have := ih hm'
    exact this

theorem match?_length {r : Regex} {s : List Char} {m : Match} (h : r.match? s = some m) :
    m.rest.length < s.length := by
  obtain ⟨hne, heq⟩ := run_prefix (List.mem_of_mem_head? h)
  have hlen := congrArg List.length heq
  rw [List.length_append] at hlen
  have := List.length_pos_iff.mpr hne
  omega

/-- More fuel than there are characters changes nothing. -/
theorem subFuel_eq {r : Regex} {template : List Piece} {n : ℕ} {s : List Char}
    (h : s.length ≤ n) : subFuel r template n s = sub r template s := by
  have key : ∀ (n : ℕ) (s : List Char), s.length ≤ n → ∀ k, n ≤ k →
      subFuel r template k s = subFuel r template n s := by
    intro n
    induction n with
    | zero =>
      intro s hs k _
      rw [List.length_eq_zero_iff.mp (Nat.le_zero.mp hs)]
      cases k <;> rfl
    | succ n ih =>
      intro s hs k hk
      obtain ⟨k, rfl⟩ : ∃ j, k = j + 1 := ⟨k - 1, by omega⟩
      cases s with
      | nil => rfl
      | cons c s =>
        rw [subFuel, subFuel]
        cases hm : r.match? (c :: s) with
        | none =>
          show c :: _ = c :: _
          rw [ih s (by simpa using hs) k (by omega)]
        | some m =>
          have := match?_length hm
          show _ ++ _ = _ ++ _
          rw [ih m.rest (by omega) k (by omega)]
  exact key s.length s le_rfl n h

/-! ### One step of the substitution -/

theorem sub_of_match {r : Regex} {template : List Piece} {c : Char} {s : List Char} {m : Match}
    (h : r.match? (c :: s) = some m) :
    sub r template (c :: s) = expand template m.groups ++ sub r template m.rest := by
  have := match?_length h
  rw [sub, List.length_cons, subFuel, h]
  show _ ++ _ = _ ++ _
  rw [subFuel_eq (by rw [List.length_cons] at this; omega)]

theorem sub_of_none {r : Regex} {template : List Piece} {c : Char} {s : List Char}
    (h : r.match? (c :: s) = none) :
    sub r template (c :: s) = c :: sub r template s := by
  rw [sub, List.length_cons, subFuel, h]
  rfl

end Regex
