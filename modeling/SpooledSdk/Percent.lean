/-
Percent-encoding, as in URLs and in forms.

* `Percent.codec` — a byte is a letter, a digit or one of `_.-~`, or `%` and two hexadecimal
  digits; in a form the space is `+`;
* `Percent.unquote_quote` — a text is read back from its encoding;
* `Percent.mem_quote` — the characters of an encoding;
* `Percent.readForm_writeForm` — a list of pairs is read back from its form.
-/
import SpooledSdk.Codec

namespace Percent

/-- The characters that stand for themselves. -/
def isUnreserved (c : Char) : Bool :=
  c.isAlphanum || c == '_' || c == '.' || c == '-' || c == '~'

def encodeByte (form : Bool) (b : UInt8) : List Char :=
  let c := Char.ofNat b.toNat
  if isUnreserved c then [c]
  else if form && c == ' ' then ['+']
  else ['%', Hex.digit true (b.toNat / 16), Hex.digit true (b.toNat % 16)]

/-- The byte of two hexadecimal digits. -/
def readEscape : List Char → Option (UInt8 × List Char)
  | h :: l :: rest => do
    let high ← Hex.value? h
    let low ← Hex.value? l
    some (UInt8.ofNat (16 * high + low), rest)
  | _ => none

def readByte (form : Bool) : List Char → Option (UInt8 × List Char)
  | [] => none
  | c :: rest =>
    if isUnreserved c then some (UInt8.ofNat c.toNat, rest)
    else if form && c == '+' then some (32, rest)
    else if c == '%' then readEscape rest
    else none

theorem toNat_ofNat_byte (b : UInt8) : (Char.ofNat b.toNat).toNat = b.toNat := by
  have hb : b.toNat < 256 := UInt8.toNat_lt_size b
  have hvalid : b.toNat.isValidChar := .inl (by omega)
  rw [Char.ofNat, dif_pos hvalid]
  rfl

theorem encodeByte_ne_nil (form : Bool) (b : UInt8) : encodeByte form b ≠ [] := by
  rw [encodeByte]
  split
  · exact List.cons_ne_nil _ _
  · split <;> exact List.cons_ne_nil _ _

theorem readByte_encodeByte (form : Bool) (b : UInt8) (rest : List Char) :
    readByte form (encodeByte form b ++ rest) = some (b, rest) := by
  have hb : b.toNat < 256 := UInt8.toNat_lt_size b
  rw [encodeByte]
  split
  · rename_i h
    rw [List.singleton_append, readByte, if_pos h, toNat_ofNat_byte, UInt8.ofNat_toNat]
  · split
    · rename_i h
      have hform : form = true := (Bool.and_eq_true_iff.mp h).1
      have hspace : Char.ofNat b.toNat = ' ' := eq_of_beq (Bool.and_eq_true_iff.mp h).2
      have h32 : b.toNat = 32 := by rw [← toNat_ofNat_byte b, hspace]; rfl
      have hb32 : b = 32 := UInt8.toNat_inj.mp h32
      rw [List.singleton_append, readByte, if_neg (by decide), if_pos (by simp [hform]), hb32]
    · rw [List.cons_append, List.cons_append, List.cons_append, List.nil_append, readByte,
        if_neg (by decide), if_neg (by simp), if_pos (beq_self_eq_true '%'), readEscape,
        Hex.value?_digit true (by omega), Hex.value?_digit true (by omega)]
      have hsum : 16 * (b.toNat / 16) + b.toNat % 16 = b.toNat := Nat.div_add_mod _ _
      simp only [Option.bind_eq_bind, Option.bind_some, hsum, UInt8.ofNat_toNat]

/-- The code of bytes, in a URL or in a form. -/
def codec (form : Bool) : Codec UInt8 Char where
  encode := encodeByte form
  read := readByte form
  encode_ne_nil := encodeByte_ne_nil form
  read_encode := readByte_encodeByte form

/-- The encoding of a text, by its UTF-8 bytes. -/
def quote (form : Bool) (text : String) : List Char := (codec form).encodeAll text.toUTF8.toList

/-- The text of an encoding. -/
def unquote (form : Bool) (text : List Char) : Option String :=
  ((codec form).readAll text).bind String.ofBytes?

theorem unquote_quote (form : Bool) (text : String) : unquote form (quote form text) = some text := by
  rw [unquote, quote, Codec.readAll_encodeAll, Option.bind_some, String.ofBytes?_bytes]

theorem quote_injective (form : Bool) : Function.Injective (quote form) := by
  intro text text' h
  have := unquote_quote form text
  rw [h, unquote_quote] at this
  exact (Option.some.inj this).symm

theorem mem_encodeByte {form : Bool} {b : UInt8} {c : Char} (h : c ∈ encodeByte form b) :
    isUnreserved c = true ∨ c = '%' ∨ c = '+' := by
  have hb : b.toNat < 256 := UInt8.toNat_lt_size b
  have hdigit : ∀ n < 16, isUnreserved (Hex.digit true n) = true := by
    intro n hn
    rw [isUnreserved, Hex.isAlphanum_digit true hn]
    rfl
  rw [encodeByte] at h
  split at h
  · rename_i hsafe
    rw [List.mem_singleton.mp h]
    exact .inl hsafe
  · split at h
    · exact .inr (.inr (List.mem_singleton.mp h))
    · simp only [List.mem_cons, List.not_mem_nil, or_false] at h
      rcases h with rfl | rfl | rfl
      · exact .inr (.inl rfl)
      · exact .inl (hdigit _ (by omega))
      · exact .inl (hdigit _ (by omega))

/-- An encoding has no character with a meaning in a URL but `%` and `+`. -/
theorem mem_quote {form : Bool} {text : String} {c : Char} (h : c ∈ quote form text) :
    isUnreserved c = true ∨ c = '%' ∨ c = '+' := by
  obtain ⟨b, -, hc⟩ := List.mem_flatMap.mp h
  exact mem_encodeByte hc

theorem notMem_quote {form : Bool} {text : String} {c : Char} (hc : isUnreserved c = false)
    (hpercent : c ≠ '%') (hplus : c ≠ '+') : c ∉ quote form text := by
  intro h
  rcases mem_quote h with h | h | h
  · rw [hc] at h
    cases h
  · exact hpercent h
  · exact hplus h

/-! ### Forms -/

/-- What stands before the first `c`, and what stands after it. -/
def cutAt (c : Char) (text : List Char) : List Char × List Char :=
  (text.takeWhile (· != c), (text.dropWhile (· != c)).tail)

theorem cutAt_append {c : Char} {before after : List Char} (h : c ∉ before) :
    cutAt c (before ++ c :: after) = (before, after) := by
  have hne : ∀ d ∈ before, (d != c) = true := by
    intro d hd
    exact bne_iff_ne.mpr fun heq => h (heq ▸ hd)
  rw [cutAt, List.takeWhile_append_of_pos hne, List.dropWhile_append_of_pos hne,
    List.takeWhile_cons_of_neg (by simp), List.dropWhile_cons_of_neg (by simp), List.append_nil]
  rfl

theorem cutAt_of_notMem {c : Char} {text : List Char} (h : c ∉ text) :
    cutAt c text = (text, []) := by
  have hne : ∀ d ∈ text, (d != c) = true := by
    intro d hd
    exact bne_iff_ne.mpr fun heq => h (heq ▸ hd)
  have hdrop : text.dropWhile (· != c) = [] := List.dropWhile_eq_nil_iff.mpr hne
  have htake := List.takeWhile_append_dropWhile (p := (· != c)) (l := text)
  rw [hdrop, List.append_nil] at htake
  rw [cutAt, htake, hdrop]
  rfl

/-- `name=value` -/
def writePair (pair : String × String) : List Char :=
  quote true pair.1 ++ '=' :: quote true pair.2

def readPair (text : List Char) : Option (String × String) := do
  let name ← unquote true (cutAt '=' text).1
  let value ← unquote true (cutAt '=' text).2
  some (name, value)

theorem readPair_writePair (pair : String × String) : readPair (writePair pair) = some pair := by
  have hname : '=' ∉ quote true pair.1 := notMem_quote (by decide) (by decide) (by decide)
  rw [readPair, writePair, cutAt_append hname, unquote_quote, unquote_quote]
  rfl

theorem notMem_writePair {c : Char} (hc : isUnreserved c = false) (hpercent : c ≠ '%')
    (hplus : c ≠ '+') (heq : c ≠ '=') (pair : String × String) : c ∉ writePair pair := by
  intro h
  rcases List.mem_append.mp h with h | h
  · exact notMem_quote hc hpercent hplus h
  · rcases List.mem_cons.mp h with h | h
    · exact heq h
    · exact notMem_quote hc hpercent hplus h

/-- `name=value&name=value` -/
def writeForm (pairs : List (String × String)) : List Char :=
  ['&'].intercalate (pairs.map writePair)

def readForm (text : List Char) : Option (List (String × String)) :=
  if text.isEmpty then some [] else (text.splitOn '&').mapM readPair

theorem writeForm_ne_nil {pairs : List (String × String)} (h : pairs ≠ []) :
    writeForm pairs ≠ [] := by
  cases pairs with
  | nil => exact absurd rfl h
  | cons pair pairs =>
    have hne : writePair pair ≠ [] := List.append_ne_nil_of_right_ne_nil _ (List.cons_ne_nil _ _)
    cases pairs with
    | nil => simpa [writeForm] using hne
    | cons pair' pairs => simp [writeForm, hne]

theorem mapM_readPair (pairs : List (String × String)) :
    (pairs.map writePair).mapM readPair = some pairs := by
  induction pairs with
  | nil => rfl
  | cons pair pairs ih =>
    rw [List.map_cons, List.mapM_cons, readPair_writePair, ih]
    rfl

/-- **Round trip.** -/
theorem readForm_writeForm (pairs : List (String × String)) :
    readForm (writeForm pairs) = some pairs := by
  by_cases hne : pairs = []
  · rw [hne]
    rfl
  · have hsplit : (writeForm pairs).splitOn '&' = pairs.map writePair := by
      refine List.splitOn_intercalate '&' (fun part hpart => ?_) (mt List.map_eq_nil_iff.mp hne)
      obtain ⟨pair, -, rfl⟩ := List.mem_map.mp hpart
      exact notMem_writePair (by decide) (by decide) (by decide) (by decide) pair
    rw [readForm, if_neg (by simpa using writeForm_ne_nil hne), hsplit, mapM_readPair]

/-- A form has no character that ends a query or starts one. -/
theorem notMem_writeForm {c : Char} (hc : isUnreserved c = false) (hpercent : c ≠ '%')
    (hplus : c ≠ '+') (heq : c ≠ '=') (hamp : c ≠ '&') (pairs : List (String × String)) :
    c ∉ writeForm pairs := by
  induction pairs with
  | nil => simp [writeForm]
  | cons pair pairs ih =>
    have hpair := notMem_writePair hc hpercent hplus heq pair
    cases pairs with
    | nil => simpa [writeForm] using hpair
    | cons pair' pairs =>
      intro h
      rw [writeForm, List.map_cons, List.map_cons, List.intercalate_cons_cons] at h
      rw [writeForm, List.map_cons] at ih
      simp only [List.mem_append, List.mem_singleton] at h
      rcases h with (h | h) | h
      · exact hpair h
      · exact hamp h
      · exact ih h

end Percent
