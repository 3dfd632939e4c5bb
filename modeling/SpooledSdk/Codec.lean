/-
Codes whose words are read off the front of a text, one after the other.

* `Codec` — the words of an alphabet, with a reader that takes exactly one word off a text;
* `Codec.readAll_encodeAll` — the words of a list, one behind the other, are read back;
* `Codec.readUntil_encodeAll` — the words in front of a symbol that starts none are read back;
* `ByteArray.toList_eq`, `String.ofBytes?_bytes` — the bytes of a string are read back.
-/
import Mathlib.Data.List.Basic
import Mathlib.Data.List.TakeWhile
import Mathlib.Tactic.Common

/-- Words over `β` for the symbols of `α`; no word is a reading of the start of another. -/
structure Codec (α β : Type*) where
  encode : α → List β
  read : List β → Option (α × List β)
  encode_ne_nil : ∀ a, encode a ≠ []
  read_encode : ∀ a rest, read (encode a ++ rest) = some (a, rest)

namespace Codec

variable {α β : Type*} (C : Codec α β)

/-- The words of a list, one behind the other. -/
def encodeAll (symbols : List α) : List β := symbols.flatMap C.encode

/-- Read word after word; `fuel` bounds their number. -/
def readFuel : ℕ → List β → Option (List α)
  | _, [] => some []
  | 0, _ :: _ => none
  | fuel + 1, text => (C.read text).bind fun (a, rest) => (readFuel fuel rest).map (a :: ·)

/-- All the words of a text. -/
def readAll (text : List β) : Option (List α) := C.readFuel text.length text

theorem encodeAll_cons (a : α) (symbols : List α) :
    C.encodeAll (a :: symbols) = C.encode a ++ C.encodeAll symbols :=
  List.flatMap_cons

theorem readFuel_encodeAll (symbols : List α) (fuel : ℕ) (h : symbols.length ≤ fuel) :
    C.readFuel fuel (C.encodeAll symbols) = some symbols := by
  induction symbols generalizing fuel with
  | nil => cases fuel <;> rfl
  | cons a symbols ih =>
    cases fuel with
    | zero => exact absurd h (Nat.not_succ_le_zero _)
    | succ fuel =>
      rw [encodeAll_cons]
      cases htext : C.encode a ++ C.encodeAll symbols with
      | nil => exact absurd (List.append_eq_nil_iff.mp htext).1 (C.encode_ne_nil a)
      | cons b text =>
        rw [readFuel, ← htext, C.read_encode, Option.bind_some]
        · dsimp only
          rw [ih fuel (Nat.le_of_succ_le_succ h), Option.map_some]
        · exact List.cons_ne_nil b text

theorem length_le_encodeAll (symbols : List α) :
    symbols.length ≤ (C.encodeAll symbols).length := by
  induction symbols with
  | nil => exact Nat.le_refl 0
  | cons a symbols ih =>
    have := List.length_pos_iff.mpr (C.encode_ne_nil a)
    rw [encodeAll_cons, List.length_append, List.length_cons]
    omega

/-- **Round trip.** -/
theorem readAll_encodeAll (symbols : List α) : C.readAll (C.encodeAll symbols) = some symbols :=
  C.readFuel_encodeAll symbols _ (C.length_le_encodeAll symbols)

/-! ### Words in front of a stop -/

variable [DecidableEq β]

/-- Read word after word up to `stop`, which is read too; `fuel` bounds the number of words. -/
def readUntilFuel (stop : β) : ℕ → List β → Option (List α × List β)
  | _, [] => none
  | fuel, b :: text =>
    if b = stop then some ([], text)
    else
      match fuel with
      | 0 => none
      | fuel + 1 =>
        (C.read (b :: text)).bind fun (a, rest) =>
          (readUntilFuel stop fuel rest).map fun (symbols, rest) => (a :: symbols, rest)

def readUntil (stop : β) (text : List β) : Option (List α × List β) :=
  C.readUntilFuel stop text.length text

theorem readUntilFuel_encodeAll {stop : β} (hstop : ∀ a, (C.encode a).head? ≠ some stop)
    (symbols : List α) (rest : List β) (fuel : ℕ) (h : symbols.length ≤ fuel) :
    C.readUntilFuel stop fuel (C.encodeAll symbols ++ stop :: rest) = some (symbols, rest) := by
  induction symbols generalizing fuel with
  | nil =>
    cases fuel <;> exact if_pos rfl
  | cons a symbols ih =>
    cases fuel with
    | zero => exact absurd h (Nat.not_succ_le_zero _)
    | succ fuel =>
      have hread := C.read_encode a (C.encodeAll symbols ++ stop :: rest)
      have hhead := hstop a
      rw [encodeAll_cons, List.append_assoc]
      cases hword : C.encode a with
      | nil => exact absurd hword (C.encode_ne_nil a)
      | cons b word =>
        rw [hword] at hread hhead
        have hb : b ≠ stop := fun hb => hhead (congrArg some hb)
        rw [List.cons_append, readUntilFuel, if_neg hb]
        dsimp only
        rw [← List.cons_append, hread, Option.bind_some]
        dsimp only
        rw [ih fuel (Nat.le_of_succ_le_succ h), Option.map_some]

/-- **Round trip**, in front of a stop that starts no word. -/
theorem readUntil_encodeAll {stop : β} (hstop : ∀ a, (C.encode a).head? ≠ some stop)
    (symbols : List α) (rest : List β) :
    C.readUntil stop (C.encodeAll symbols ++ stop :: rest) = some (symbols, rest) := by
  refine C.readUntilFuel_encodeAll hstop symbols rest _ ?_
  have := C.length_le_encodeAll symbols
  rw [List.length_append]
  omega

end Codec

/-! ### Hexadecimal digits -/

namespace Hex

/-- The digit for a number below sixteen. -/
def digit (upper : Bool) (n : ℕ) : Char :=
  if upper then (Nat.digitChar n).toUpper else Nat.digitChar n

/-- The number that a digit of either case stands for. -/
def value? (c : Char) : Option ℕ :=
  if c.isDigit then some (c.toNat - 48)
  else if 'a' ≤ c ∧ c ≤ 'f' then some (c.toNat - 87)
  else if 'A' ≤ c ∧ c ≤ 'F' then some (c.toNat - 55)
  else none

theorem value?_digit (upper : Bool) {n : ℕ} (h : n < 16) : value? (digit upper n) = some n := by
  have : ∀ upper, ∀ n < 16, value? (digit upper n) = some n := by decide
  exact this upper n h

/-- A digit is a letter or a decimal digit. -/
theorem isAlphanum_digit (upper : Bool) {n : ℕ} (h : n < 16) :
    (digit upper n).isAlphanum = true := by
  have : ∀ upper, ∀ n < 16, (digit upper n).isAlphanum = true := by decide
  exact this upper n h

end Hex

/-! ### The bytes of a string -/

private theorem ByteArray.toList_loop (bytes : ByteArray) (i : ℕ) (r : List UInt8) :
    ByteArray.toList.loop bytes i r = r.reverse ++ bytes.data.toList.drop i := by
  fun_induction ByteArray.toList.loop bytes i r with
  | case1 i r hi ih =>
    have hlt : i < bytes.data.toList.length := by simpa using hi
    have hget : bytes.get! i = bytes.data.toList[i] := by
      change bytes.data[i]! = _
      rw [getElem!_pos bytes.data i (by simpa using hlt)]
      rfl
    rw [ih, List.reverse_cons, List.append_assoc, hget, List.drop_eq_getElem_cons hlt]
    rfl
  | case2 i r hi =>
    have hlen : bytes.data.toList.length ≤ i := by simpa using hi
    rw [List.drop_eq_nil_of_le hlen, List.append_nil]

theorem ByteArray.toList_eq (bytes : ByteArray) : bytes.toList = bytes.data.toList := by
  rw [ByteArray.toList, ByteArray.toList_loop]
  rfl

namespace String

/-- The string with the given UTF-8 bytes, if they are the bytes of one. -/
def ofBytes? (bytes : List UInt8) : Option String := fromUTF8? ⟨bytes.toArray⟩

theorem ofBytes?_bytes (s : String) : ofBytes? s.toUTF8.toList = some s := by
  rw [ofBytes?, ByteArray.toList_eq, Array.toArray_toList]
  simp [fromUTF8?, fromUTF8, s.isValidUTF8]

end String
