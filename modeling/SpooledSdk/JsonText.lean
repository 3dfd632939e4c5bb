/-
The text of flat JSON objects: members whose values are strings or `null`.

Everything outside the printable ASCII characters is escaped, by a short escape, by its code or,
beyond the basic plane, by two codes.

* `JsonText.chars` — the code of the characters of a string;
* `JsonText.readObject_writeObject` — the members of an object are read back from its text.
-/
import SpooledSdk.Codec

namespace JsonText

/-! ### Codes -/

/-- Four hexadecimal digits. -/
def hex4 (n : ℕ) : List Char :=
  [Hex.digit false (n / 4096), Hex.digit false (n / 256 % 16), Hex.digit false (n / 16 % 16),
    Hex.digit false (n % 16)]

def readHex4 : List Char → Option (ℕ × List Char)
  | a :: b :: c :: d :: rest => do
    let a ← Hex.value? a
    let b ← Hex.value? b
    let c ← Hex.value? c
    let d ← Hex.value? d
    some (4096 * a + 256 * b + 16 * c + d, rest)
  | _ => none

theorem readHex4_hex4 {n : ℕ} (h : n < 65536) (rest : List Char) :
    readHex4 (hex4 n ++ rest) = some (n, rest) := by
  have hsum : 4096 * (n / 4096) + 256 * (n / 256 % 16) + 16 * (n / 16 % 16) + n % 16 = n := by
    omega
  simp only [hex4, List.cons_append, List.nil_append, readHex4,
    Hex.value?_digit false (show n / 4096 < 16 by omega),
    Hex.value?_digit false (show n / 256 % 16 < 16 by omega),
    Hex.value?_digit false (show n / 16 % 16 < 16 by omega),
    Hex.value?_digit false (show n % 16 < 16 by omega), Option.bind_eq_bind, Option.bind_some, hsum]

/-! ### Characters -/

/-- The short escapes, with what stands after the backslash. -/
def shortEscape : Char → Option Char
  | '\\' => some '\\'
  | '"' => some '"'
  | '\x08' => some 'b'
  | '\x0c' => some 'f'
  | '\n' => some 'n'
  | '\r' => some 'r'
  | '\t' => some 't'
  | _ => none

def readShort : Char → Option Char
  | '\\' => some '\\'
  | '"' => some '"'
  | 'b' => some '\x08'
  | 'f' => some '\x0c'
  | 'n' => some '\n'
  | 'r' => some '\r'
  | 't' => some '\t'
  | _ => none

theorem readShort_shortEscape {c e : Char} (h : shortEscape c = some e) :
    e ≠ 'u' ∧ readShort e = some c := by
  unfold shortEscape at h
  split at h <;> cases h <;> exact ⟨by decide, rfl⟩

def isPlain (c : Char) : Bool := 32 ≤ c.toNat && c.toNat ≤ 126

/-- The text of a character inside a string. -/
def encodeChar (c : Char) : List Char :=
  match shortEscape c with
  | some e => ['\\', e]
  | none =>
    if isPlain c then [c]
    else if c.toNat < 65536 then '\\' :: 'u' :: hex4 c.toNat
    else
      '\\' :: 'u' :: hex4 (0xd800 + (c.toNat - 65536) / 1024) ++
        '\\' :: 'u' :: hex4 (0xdc00 + (c.toNat - 65536) % 1024)

/-- The second code of a pair. -/
def readLow (high : ℕ) : List Char → Option (Char × List Char)
  | '\\' :: 'u' :: text =>
    (readHex4 text).map fun (low, rest) =>
      (Char.ofNat (65536 + 1024 * (high - 0xd800) + (low - 0xdc00)), rest)
  | _ => none

/-- What stands after a backslash. -/
def readEscape : List Char → Option (Char × List Char)
  | [] => none
  | e :: text =>
    if e = 'u' then
      (readHex4 text).bind fun (n, rest) =>
        if 0xd800 ≤ n ∧ n < 0xdc00 then readLow n rest else some (Char.ofNat n, rest)
    else (readShort e).map fun c => (c, text)

def readChar : List Char → Option (Char × List Char)
  | [] => none
  | c :: text => if c = '\\' then readEscape text else some (c, text)

theorem encodeChar_ne_nil (c : Char) : encodeChar c ≠ [] := by
  rw [encodeChar]
  split
  · exact List.cons_ne_nil _ _
  · split
    · exact List.cons_ne_nil _ _
    · split <;> exact List.cons_ne_nil _ _

/-- A character is no code of a pair. -/
theorem not_surrogate (c : Char) : ¬ (0xd800 ≤ c.toNat ∧ c.toNat < 0xdc00) := by
  rintro ⟨hlow, hhigh⟩
  rcases c.valid with h | h
  · have : c.toNat < 0xd800 := h
    omega
  · have : 0xdfff < c.toNat := h.1
    omega

theorem readChar_encodeChar (c : Char) (rest : List Char) :
    readChar (encodeChar c ++ rest) = some (c, rest) := by
  rw [encodeChar]
  split
  · rename_i e he
    obtain ⟨hne, hread⟩ := readShort_shortEscape he
    rw [List.cons_append, List.singleton_append, readChar, if_pos rfl, readEscape, if_neg hne,
      hread, Option.map_some]
  · rename_i hshort
    split
    · have hc : c ≠ '\\' := by
        rintro rfl
        cases hshort
      rw [List.singleton_append, readChar, if_neg hc]
    · split
      · rename_i hlt
        rw [List.cons_append, List.cons_append, readChar, if_pos rfl, readEscape, if_pos rfl,
          readHex4_hex4 hlt, Option.bind_some]
        dsimp only
        rw [if_neg (not_surrogate c), Char.ofNat_toNat]
      · rename_i hge
        have hmax : c.toNat < 0x110000 := c.valid.elim (fun h => Nat.lt_trans h (by decide)) And.right
        have hsum : 65536 + 1024 * (0xd800 + (c.toNat - 65536) / 1024 - 0xd800) +
            (0xdc00 + (c.toNat - 65536) % 1024 - 0xdc00) = c.toNat := by
          omega
        rw [List.append_assoc, List.cons_append, List.cons_append, List.cons_append,
          List.cons_append, readChar, if_pos rfl, readEscape, if_pos rfl,
          readHex4_hex4 (by omega), Option.bind_some]
        dsimp only
        rw [if_pos (by omega), readLow, readHex4_hex4 (by omega), Option.map_some]
        dsimp only
        rw [hsum, Char.ofNat_toNat]

/-- The code of the characters of a string. -/
def chars : Codec Char Char where
  encode := encodeChar
  read := readChar
  encode_ne_nil := encodeChar_ne_nil
  read_encode := readChar_encodeChar

/-- No character is written with a quotation mark in front. -/
theorem head?_encodeChar (c : Char) : (chars.encode c).head? ≠ some '"' := by
  change (encodeChar c).head? ≠ some '"'
  rw [encodeChar]
  split
  · simp
  · rename_i hshort
    split
    · intro h
      obtain rfl : c = '"' := Option.some.inj h
      cases hshort
    · split <;> simp

/-! ### Objects -/

/-- The members of a flat object. -/
abbrev Members := List (String × Option String)

def writeString (s : String) : List Char := '"' :: (chars.encodeAll s.toList ++ ['"'])

def readString : List Char → Option (String × List Char)
  | [] => none
  | c :: text =>
    if c = '"' then (chars.readUntil '"' text).map fun (s, rest) => (String.ofList s, rest)
    else none

theorem readString_writeString (s : String) (rest : List Char) :
    readString (writeString s ++ rest) = some (s, rest) := by
  rw [writeString, List.cons_append, readString, if_pos rfl, List.append_assoc,
    List.singleton_append, Codec.readUntil_encodeAll chars head?_encodeChar, Option.map_some]
  dsimp only
  rw [String.ofList_toList]

def writeValue : Option String → List Char
  | none => ['n', 'u', 'l', 'l']
  | some s => writeString s

def readValue (text : List Char) : Option (Option String × List Char) :=
  match text with
  | 'n' :: 'u' :: 'l' :: 'l' :: rest => some (none, rest)
  | text => (readString text).map fun (s, rest) => (some s, rest)

theorem readValue_writeValue (value : Option String) (rest : List Char) :
    readValue (writeValue value ++ rest) = some (value, rest) := by
  cases value with
  | none => rfl
  | some s =>
    have hread := readString_writeString s rest
    rw [writeString, List.cons_append] at hread
    rw [writeValue, writeString, List.cons_append, readValue, hread, Option.map_some]
    simp

/-- `"key": value` -/
def writeMember (member : String × Option String) : List Char :=
  writeString member.1 ++ ':' :: ' ' :: writeValue member.2

/-- What stands after a key. -/
def readAfterKey (key : String) : List Char → Option ((String × Option String) × List Char)
  | ':' :: ' ' :: text => (readValue text).map fun (value, rest) => ((key, value), rest)
  | _ => none

def readMember (text : List Char) : Option ((String × Option String) × List Char) :=
  (readString text).bind fun (key, text) => readAfterKey key text

theorem readMember_writeMember (member : String × Option String) (rest : List Char) :
    readMember (writeMember member ++ rest) = some (member, rest) := by
  rw [readMember, writeMember, List.append_assoc, readString_writeString, Option.bind_some]
  rw [List.cons_append, List.cons_append]
  dsimp only
  rw [readAfterKey, readValue_writeValue, Option.map_some]

/-- The members of an object and the brace that closes it. -/
def writeMembers : Members → List Char
  | [] => ['}']
  | [member] => writeMember member ++ ['}']
  | member :: members => writeMember member ++ ',' :: ' ' :: writeMembers members

def readMembers : ℕ → List Char → Option (Members × List Char)
  | 0, _ => none
  | fuel + 1, text =>
    (readMember text).bind fun (member, text) =>
      match text with
      | '}' :: rest => some ([member], rest)
      | ',' :: ' ' :: text =>
        (readMembers fuel text).map fun (members, rest) => (member :: members, rest)
      | _ => none

/-- `json.dumps` of a dict whose values are strings or `None`. -/
def writeObject (members : Members) : List Char := '{' :: writeMembers members

/-- The members of an object that is the whole text. -/
def readObject (text : List Char) : Option Members :=
  match text with
  | ['{', '}'] => some []
  | '{' :: text =>
    match readMembers text.length text with
    | some (members, []) => some members
    | _ => none
  | _ => none

theorem readMembers_writeMembers (members : Members) (hne : members ≠ []) (fuel : ℕ)
    (h : members.length ≤ fuel) :
    readMembers fuel (writeMembers members) = some (members, []) := by
  induction members generalizing fuel with
  | nil => exact absurd rfl hne
  | cons member members ih =>
    cases fuel with
    | zero => exact absurd h (Nat.not_succ_le_zero _)
    | succ fuel =>
      cases members with
      | nil =>
        rw [writeMembers, readMembers, readMember_writeMember, Option.bind_some]
        rfl
      | cons member' members =>
        rw [writeMembers, readMembers, readMember_writeMember, Option.bind_some]
        · change Option.map _ (readMembers fuel (writeMembers (member' :: members))) = _
          rw [ih (List.cons_ne_nil _ _) fuel (Nat.le_of_succ_le_succ h), Option.map_some]
        · simp

theorem length_le_writeMembers (members : Members) :
    members.length ≤ (writeMembers members).length := by
  induction members with
  | nil => exact Nat.zero_le _
  | cons member members ih =>
    cases members with
    | nil => simp [writeMembers]
    | cons member' members =>
      rw [writeMembers]
      · simp only [List.length_append, List.length_cons] at ih ⊢
        omega
      · simp

/-- **Round trip.** -/
theorem readObject_writeObject (members : Members) :
    readObject (writeObject members) = some members := by
  cases members with
  | nil => rfl
  | cons member members =>
    have hread := readMembers_writeMembers (member :: members) (List.cons_ne_nil _ _) _
      (length_le_writeMembers _)
    have hbrace : writeMembers (member :: members) ≠ ['}'] := by
      intro h
      have := congrArg List.length h
      cases members <;> simp [writeMembers, writeMember, writeString] at this
    rw [writeObject, readObject, hread]
    · intro h
      exact hbrace h

theorem writeObject_injective : Function.Injective writeObject := by
  intro members members' h
  have hread := readObject_writeObject members
  rw [h, readObject_writeObject] at hread
  exact (Option.some.inj hread).symm

end JsonText
