/-
Base64, in both alphabets.

The reader is the lenient one: it passes over foreign characters, and stops at the padding that
completes a group of four.

* `Base64.encode` — the text of a list of bytes, without padding;
* `Base64.decode_encode` — the bytes are read back once the padding is restored.
-/
import Mathlib.Data.List.Basic
import Mathlib.Tactic.Common

namespace Base64

/-- The digit for a number below sixty-four, in the alphabet for URLs. -/
def digit (n : ℕ) : Char :=
  if n < 26 then Char.ofNat (n + 65)
  else if n < 52 then Char.ofNat (n + 71)
  else if n < 62 then Char.ofNat (n - 4)
  else if n = 62 then '-'
  else '_'

/-- The number of a digit in either alphabet. -/
def value? (c : Char) : Option ℕ :=
  if c.isUpper then some (c.toNat - 65)
  else if c.isLower then some (c.toNat - 71)
  else if c.isDigit then some (c.toNat + 4)
  else if c = '-' ∨ c = '+' then some 62
  else if c = '_' ∨ c = '/' then some 63
  else none

/-- `a2b_base64`: `quadPos` digits of the group have been read, `left` has the bits of the last
one that are not part of a byte yet, and `pads` counts the padding that stands in a row. -/
def a2b (quadPos left pads : ℕ) : List Char → Option (List UInt8)
  | [] => if quadPos = 0 then some [] else none
  | c :: text =>
    if c = '=' then
      if 2 ≤ quadPos then
        if 4 ≤ quadPos + (pads + 1) then some [] else a2b quadPos left (pads + 1) text
      else a2b quadPos left pads text
    else
      match value? c with
      | none => a2b quadPos left pads text
      | some v =>
        match quadPos with
        | 0 => a2b 1 v 0 text
        | 1 => (a2b 2 (v % 16) 0 text).map (UInt8.ofNat (left * 4 + v / 16) :: ·)
        | 2 => (a2b 3 (v % 4) 0 text).map (UInt8.ofNat (left * 16 + v / 4) :: ·)
        | _ => (a2b 0 0 0 text).map (UInt8.ofNat (left * 64 + v) :: ·)

/-- `urlsafe_b64decode` of a text: characters beyond ASCII are refused. -/
def decode (text : List Char) : Option (List UInt8) :=
  if text.all fun c => c.toNat < 128 then a2b 0 0 0 text else none

/-- The text of a list of bytes, without padding. -/
def encode : List UInt8 → List Char
  | [] => []
  | [a] => [digit (a.toNat / 4), digit (a.toNat % 4 * 16)]
  | [a, b] =>
    [digit (a.toNat / 4), digit (a.toNat % 4 * 16 + b.toNat / 16), digit (b.toNat % 16 * 4)]
  | a :: b :: c :: bytes =>
    digit (a.toNat / 4) :: digit (a.toNat % 4 * 16 + b.toNat / 16) ::
      digit (b.toNat % 16 * 4 + c.toNat / 64) :: digit (c.toNat % 64) :: encode bytes

/-- A text with the padding that completes its last group. -/
def padded (text : List Char) : List Char :=
  text ++ List.replicate ((4 - text.length % 4) % 4) '='

variable {n left pads : ℕ} {text : List Char}

end Base64
