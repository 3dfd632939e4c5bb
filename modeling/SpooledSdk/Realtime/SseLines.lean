/-
The line parser of `AsyncSSEClient.events()`, next to the dispatch rule of event streams.

The parser keeps the last data line of a block only, and the name of a block without data for
the blocks after it.  It hands on what the rule dispatches exactly for the streams that are
`Readable` (`parseLines_eq_iff`).
-/
import SpooledSdk.Text
import Mathlib.Data.List.Basic

namespace SpooledSdk.Realtime.SseLines

open Text

/-! ### Lines -/

/-- A complete line of an event stream. -/
inductive Line
  | event (value : String)
  | data (value : String)
  | comment (text : String)
  | id (value : String)
  | retry (value : String)
  | blank

/-- The line as it is read. -/
def Line.text : Line → String
  | .event value => "event:" ++ value
  | .data value => "data:" ++ value
  | .comment text => ":" ++ text
  | .id value => "id:" ++ value
  | .retry value => "retry:" ++ value
  | .blank => ""

/-! ### The parser -/

/-- `current_event`, `current_data`, and the pairs that were handed to `_parse_event`. -/
structure Parser where
  currentEvent : String := ""
  currentData : String := ""
  parsed : List (String × String) := []

/-- `line[n:]` -/
def sliceFrom (n : ℕ) (line : String) : String := String.ofList (line.toList.drop n)

/-- One turn of the loop over the lines. -/
def Parser.read (p : Parser) (line : String) : Parser :=
  if "event:".toList.isPrefixOf line.toList then
    { p with currentEvent := strip (sliceFrom 6 line) }
  else if "data:".toList.isPrefixOf line.toList then
    { p with currentData := strip (sliceFrom 5 line) }
  else if line = "" ∧ p.currentData ≠ "" then
    { currentEvent := ""
      currentData := ""
      parsed := p.parsed ++ [(p.currentEvent, p.currentData)] }
  else p

/-- What the loop hands to `_parse_event`. -/
def parseLines (lines : List String) : List (String × String) :=
  (lines.foldl Parser.read {}).parsed

/-! ### The rule -/

/-- A value without the one space that may stand before it. -/
def dropSpace (value : String) : String :=
  match value.toList with
  | ' ' :: rest => String.ofList rest
  | _ => value

/-- The name and the data lines of the block so far, and the events that were dispatched. -/
structure Reference where
  name : String := ""
  data : List String := []
  dispatched : List (String × String) := []

/-- Data lines, joined; surrounding space is not compared. -/
def joined (data : List String) : String := "\n".intercalate (data.map strip)

/-- One line by the rule: a blank one dispatches the block, if it has any data, and resets the
name and the data. -/
def Reference.read (r : Reference) : Line → Reference
  | .event value => { r with name := dropSpace value }
  | .data value => { r with data := r.data ++ [value] }
  | .comment _ | .id _ | .retry _ => r
  | .blank =>
    { name := ""
      data := []
      dispatched :=
        if joined r.data = "" then r.dispatched else r.dispatched ++ [(r.name, joined r.data)] }

/-- The events that the rule dispatches. -/
def reference (lines : List Line) : List (String × String) :=
  (lines.foldl Reference.read {}).dispatched

/-! ### Streams on which they agree -/

/-- The blocks that a blank line ends; `block` is the one that is open. -/
def blocksFrom (block : List Line) : List Line → List (List Line)
  | [] => []
  | .blank :: lines => block :: blocksFrom [] lines
  | line :: lines => blocksFrom (block ++ [line]) lines

def blocks (lines : List Line) : List (List Line) := blocksFrom [] lines

def Line.event? : Line → Option String
  | .event value => some value
  | _ => none

def Line.data? : Line → Option String
  | .data value => some value
  | _ => none

/-- The values of the block's `event:` lines. -/
def names (block : List Line) : List String := block.filterMap Line.event?

/-- The values of the block's `data:` lines. -/
def dataLines (block : List Line) : List String := block.filterMap Line.data?

def hasData (block : List Line) : Bool := joined (dataLines block) != ""

/-- The blocks without data at the end of `before`. -/
def pending (before : List (List Line)) : List (List Line) :=
  (before.reverse.takeWhile fun block => !hasData block).reverse

/-- A block's own name has no space around it but the one that is dropped; a block without one
comes after no name of a block without data. -/
def NameKept (before : List (List Line)) (block : List Line) : Prop :=
  match (names block).getLast? with
  | some value => strip value = dropSpace value
  | none => ∀ value ∈ (names (pending before).flatten).getLast?, strip value = ""

/-- A block with data has one line of it, and its name is kept. -/
def Readable (lines : List Line) : Prop :=
  ∀ before block after, blocks lines = before ++ block :: after → hasData block = true →
    (dataLines block).length = 1 ∧ NameKept before block

/-! ### The parser, block by block -/

/-- The name after a block that was entered with `carried`. -/
def nameAfter (carried : String) (block : List Line) : String :=
  ((names block).getLast?.map strip).getD carried

/-- The data after a block. -/
def dataAfter (block : List Line) : String := ((dataLines block).getLast?.map strip).getD ""

/-- What the parser hands on at the ends of the blocks. -/
def parseBlocks (carried : String) : List (List Line) → List (String × String)
  | [] => []
  | block :: rest =>
    if dataAfter block = "" then parseBlocks (nameAfter carried block) rest
    else (nameAfter carried block, dataAfter block) :: parseBlocks "" rest

/-- A line that starts with anything else is passed over. -/
theorem read_of_other (p : Parser) {start : Char} {rest : List Char} {line : String}
    (hline : line.toList = start :: rest)
    (hevent : "event:".toList.isPrefixOf (start :: rest) = false)
    (hdata : "data:".toList.isPrefixOf (start :: rest) = false) : p.read line = p := by
  have hne : line ≠ "" := by
    rintro rfl
    cases hline
  rw [Parser.read, hline, hevent, hdata, if_neg Bool.false_ne_true, if_neg Bool.false_ne_true,
    if_neg fun h => hne h.1]

/-- One line, by its kind. -/
theorem read_text (p : Parser) (line : Line) : p.read line.text =
    match line with
    | .event value => { p with currentEvent := strip value }
    | .data value => { p with currentData := strip value }
    | .blank => if p.currentData = "" then p else
        { currentEvent := "", currentData := "", parsed :=
            p.parsed ++ [(p.currentEvent, p.currentData)] }
    | _ => p := by
  cases line with
  | event value =>
    have hslice : sliceFrom 6 ("event:" ++ value) = value := by
      rw [sliceFrom, String.toList_append]
      exact String.ofList_toList
    have hstarts : "event:".toList.isPrefixOf ("event:" ++ value).toList = true := by
      rw [String.toList_append, List.isPrefixOf_iff_prefix]
      exact List.prefix_append _ _
    show p.read ("event:" ++ value) = _
    rw [Parser.read, if_pos hstarts, hslice]
  | data value =>
    have hslice : sliceFrom 5 ("data:" ++ value) = value := by
      rw [sliceFrom, String.toList_append]
      exact String.ofList_toList
    have hstarts : "data:".toList.isPrefixOf ("data:" ++ value).toList = true := by
      rw [String.toList_append, List.isPrefixOf_iff_prefix]
      exact List.prefix_append _ _
    have hnot : ¬ "event:".toList.isPrefixOf ("data:" ++ value).toList = true := by
      rw [String.toList_append]
      exact Bool.false_ne_true
    show p.read ("data:" ++ value) = _
    rw [Parser.read, if_neg hnot, if_pos hstarts, hslice]
  | blank =>
    show p.read "" = _
    rw [Parser.read, if_neg (by decide), if_neg (by decide)]
    by_cases h : p.currentData = "" <;> simp [h]
  | comment value => exact read_of_other p (String.toList_append ..) rfl rfl
  | id value => exact read_of_other p (String.toList_append ..) rfl rfl
  | retry value => exact read_of_other p (String.toList_append ..) rfl rfl

theorem names_concat (block : List Line) (line : Line) :
    names (block ++ [line]) = names block ++ line.event?.toList := by
  rw [names, names, List.filterMap_append]
  cases h : line.event? <;> simp [h]

theorem dataLines_concat (block : List Line) (line : Line) :
    dataLines (block ++ [line]) = dataLines block ++ line.data?.toList := by
  rw [dataLines, dataLines, List.filterMap_append]
  cases h : line.data? <;> simp [h]

theorem nameAfter_concat (carried : String) (block : List Line) (line : Line) :
    nameAfter carried (block ++ [line]) =
      (line.event?.map strip).getD (nameAfter carried block) := by
  rw [nameAfter, names_concat]
  cases h : line.event? <;> simp [nameAfter]

theorem dataAfter_concat (block : List Line) (line : Line) :
    dataAfter (block ++ [line]) = (line.data?.map strip).getD (dataAfter block) := by
  rw [dataAfter, dataLines_concat]
  cases h : line.data? <;> simp [dataAfter]

/-- The lines are parsed block by block, only the name of a block without data going on. -/
theorem parsed_foldl (lines block : List Line) (carried : String) (out : List (String × String)) :
    ((lines.map Line.text).foldl Parser.read
        ⟨nameAfter carried block, dataAfter block, out⟩).parsed =
      out ++ parseBlocks carried (blocksFrom block lines) := by
  -- the parser's state is what the open block has left in it
  induction lines generalizing block carried out with
  | nil => exact (List.append_nil out).symm
  | cons line lines ih =>
    rw [List.map_cons, List.foldl_cons, read_text]
    cases line with
    | blank =>
      rw [blocksFrom, parseBlocks]
      dsimp only
      by_cases h : dataAfter block = ""
      · rw [if_pos h, if_pos h, h]
        exact ih [] (nameAfter carried block) out
      · rw [if_neg h, if_neg h]
        refine (ih [] "" _).trans ?_
        rw [List.append_assoc]
        rfl
    | event value | data value | comment value | id value | retry value =>
      rw [blocksFrom, ← ih, nameAfter_concat, dataAfter_concat]
      · rfl
      · nofun

theorem parseLines_eq (lines : List Line) :
    parseLines (lines.map Line.text) = parseBlocks "" (blocks lines) :=
  parsed_foldl lines [] "" []

/-! ### The rule, block by block -/

/-- What the rule dispatches at the end of a block. -/
def dispatch (block : List Line) : Option (String × String) :=
  if hasData block then
    some (((names block).getLast?.map dropSpace).getD "", joined (dataLines block))
  else none

theorem dispatched_foldl (lines block : List Line) (out : List (String × String)) :
    (lines.foldl Reference.read
        ⟨((names block).getLast?.map dropSpace).getD "", dataLines block, out⟩).dispatched =
      out ++ (blocksFrom block lines).filterMap dispatch := by
  induction lines generalizing block out with
  | nil => exact (List.append_nil out).symm
  | cons line lines ih =>
    rw [List.foldl_cons]
    cases line with
    | blank =>
      rw [blocksFrom, List.filterMap_cons, Reference.read, dispatch]
      refine (ih [] _).trans ?_
      cases h : hasData block with
      | true =>
        have hne : joined (dataLines block) ≠ "" := bne_iff_ne.mp h
        rw [if_neg hne, if_pos rfl, List.append_assoc]
        rfl
      | false =>
        have heq : joined (dataLines block) = "" := by simpa [hasData] using h
        rw [if_pos heq, if_neg Bool.false_ne_true]
    | event value | data value | comment value | id value | retry value =>
      rw [blocksFrom, ← ih, names_concat, dataLines_concat]
      · simp [Line.event?, Line.data?, Reference.read]
      · nofun

theorem reference_eq (lines : List Line) :
    reference lines = (blocks lines).filterMap dispatch :=
  dispatched_foldl lines [] []

/-! ### Where they agree -/

/-- `Readable`, block by block, with the name that earlier blocks have left. -/
def Agrees (carried : String) : List (List Line) → Prop
  | [] => True
  | block :: rest =>
    if hasData block then
      ((dataLines block).length = 1 ∧
        nameAfter carried block = ((names block).getLast?.map dropSpace).getD "") ∧
        Agrees "" rest
    else Agrees (nameAfter carried block) rest

theorem joined_singleton (value : String) : joined [value] = strip value := by
  rw [joined, List.map_singleton, String.intercalate_singleton]

/-- Two data lines are longer than the last of them. -/
theorem length_lt_joined {data : List String} (value : String) (hdata : data ≠ []) :
    (strip value).length < (joined (data ++ [value])).length := by
  have hne : data.map strip ≠ [] := mt List.map_eq_nil_iff.mp hdata
  rw [joined, List.map_append, List.map_singleton,
    String.intercalate_append_of_ne_nil hne (List.cons_ne_nil _ _),
    String.intercalate_singleton, String.length_append, String.length_append]
  have : "\n".length = 1 := rfl
  omega

/-- A block's data lines: none, one, or one after others. -/
theorem dataLines_cases (block : List Line) :
    dataLines block = [] ∨ ∃ before value, dataLines block = before ++ [value] ∧
      dataAfter block = strip value := by
  -- the parser keeps the last
  rcases List.eq_nil_or_concat (dataLines block) with h | ⟨before, value, h⟩
  · exact .inl h
  · rw [List.concat_eq_append] at h
    refine .inr ⟨before, value, h, ?_⟩
    rw [dataAfter, h, List.getLast?_concat]
    rfl

theorem dataAfter_of_not_hasData {block : List Line} (h : hasData block = false) :
    dataAfter block = "" := by
  have hjoined : joined (dataLines block) = "" := by simpa [hasData] using h
  obtain hnone | ⟨before, value, hlines, hafter⟩ := dataLines_cases block
  · rw [dataAfter, hnone]
    rfl
  · rw [hafter]
    by_cases hbefore : before = []
    · rwa [hlines, hbefore, List.nil_append, joined_singleton] at hjoined
    · have hlt := length_lt_joined value hbefore
      rw [← hlines, hjoined] at hlt
      exact absurd hlt (Nat.not_lt_zero _)

theorem dataAfter_eq_joined_iff {block : List Line} (h : hasData block = true) :
    dataAfter block = joined (dataLines block) ↔ (dataLines block).length = 1 := by
  have hjoined : joined (dataLines block) ≠ "" := bne_iff_ne.mp h
  obtain hnone | ⟨before, value, hlines, hafter⟩ := dataLines_cases block
  · rw [hnone] at hjoined
    exact absurd rfl hjoined
  · rw [hafter, hlines, List.length_append, List.length_singleton]
    by_cases hbefore : before = []
    · rw [hbefore, List.nil_append, joined_singleton]
      exact ⟨fun _ => rfl, fun _ => rfl⟩
    · have hlt := length_lt_joined value hbefore
      have hpos := List.length_pos_iff.mpr hbefore
      constructor
      · intro heq
        rw [heq] at hlt
        exact absurd hlt (lt_irrefl _)
      · intro hlen
        omega

/-- The parser hands on no more than is dispatched. -/
theorem length_parseBlocks_le (carried : String) (bs : List (List Line)) :
    (parseBlocks carried bs).length ≤ (bs.filterMap dispatch).length := by
  induction bs generalizing carried with
  | nil => exact le_rfl
  | cons block rest ih =>
    rw [parseBlocks, List.filterMap_cons, dispatch]
    cases h : hasData block with
    | true =>
      rw [if_pos rfl]
      split
      · exact (ih _).trans (Nat.le_succ _)
      · exact Nat.succ_le_succ (ih _)
    | false =>
      rw [if_neg Bool.false_ne_true, if_pos (dataAfter_of_not_hasData h)]
      exact ih _

theorem parseBlocks_eq_iff (carried : String) (bs : List (List Line)) :
    parseBlocks carried bs = bs.filterMap dispatch ↔ Agrees carried bs := by
  induction bs generalizing carried with
  | nil => exact ⟨fun _ => trivial, fun _ => rfl⟩
  | cons block rest ih =>
    rw [parseBlocks, List.filterMap_cons, dispatch, Agrees]
    cases h : hasData block with
    | false =>
      rw [if_neg Bool.false_ne_true, if_neg Bool.false_ne_true,
        if_pos (dataAfter_of_not_hasData h)]
      exact ih _
    | true =>
      rw [if_pos rfl, if_pos rfl, ← dataAfter_eq_joined_iff h]
      have hjoined : joined (dataLines block) ≠ "" := bne_iff_ne.mp h
      by_cases hdata : dataAfter block = ""
      · rw [if_pos hdata]
        -- the block's last data line is blank: its event is lost, and the lengths differ
        refine ⟨fun heq => ?_, fun hagree => absurd (hagree.1.1.symm.trans hdata) hjoined⟩
        have hlen := length_parseBlocks_le (nameAfter carried block) rest
        rw [heq] at hlen
        exact absurd hlen (Nat.not_succ_le_self _)
      · rw [if_neg hdata]
        dsimp only
        rw [List.cons.injEq, Prod.mk.injEq, ih]
        exact and_congr_left fun _ => and_comm

/-- The name that is left after some blocks. -/
def carriedName (before : List (List Line)) : String :=
  nameAfter "" (pending before).flatten

theorem pending_concat (before : List (List Line)) (block : List Line) :
    pending (before ++ [block]) = if hasData block then [] else pending before ++ [block] := by
  rw [pending, List.reverse_concat, List.takeWhile_cons]
  cases hasData block <;> simp [pending]

theorem carriedName_concat (before : List (List Line)) (block : List Line) :
    carriedName (before ++ [block]) =
      if hasData block then "" else nameAfter (carriedName before) block := by
  rw [carriedName, pending_concat]
  cases hasData block with
  | true => rfl
  | false =>
    rw [if_neg Bool.false_ne_true, if_neg Bool.false_ne_true, List.flatten_concat]
    simp only [carriedName, nameAfter, names, List.filterMap_append, List.getLast?_append]
    cases (block.filterMap Line.event?).getLast? <;> rfl

/-- A name is kept if the one that the parser has is the one that the block gives. -/
theorem nameKept_iff (before : List (List Line)) (block : List Line) :
    NameKept before block ↔
      nameAfter (carriedName before) block = ((names block).getLast?.map dropSpace).getD "" := by
  rw [NameKept, nameAfter]
  cases (names block).getLast? with
  | some value => exact Iff.rfl
  | none =>
    show (∀ value ∈ (names (pending before).flatten).getLast?, strip value = "") ↔
      ((names (pending before).flatten).getLast?.map strip).getD "" = ""
    cases (names (pending before).flatten).getLast? with
    | none => exact ⟨fun _ => rfl, fun _ _ h => (nomatch h)⟩
    | some value => exact ⟨fun h => h value rfl, fun h value' heq => Option.some.inj heq ▸ h⟩

theorem agrees_iff (before bs : List (List Line)) :
    Agrees (carriedName before) bs ↔ ∀ mid block after, bs = mid ++ block :: after →
      hasData block = true →
        (dataLines block).length = 1 ∧ NameKept (before ++ mid) block := by
  induction bs generalizing before with
  | nil =>
    refine ⟨fun _ mid block after heq => ?_, fun _ => trivial⟩
    exact absurd heq.symm (List.append_ne_nil_of_right_ne_nil _ (List.cons_ne_nil _ _))
  | cons block rest ih =>
    have hrest := ih (before ++ [block])
    rw [carriedName_concat] at hrest
    -- a block of the list is its first one, or one of the rest
    have hsplit : (∀ mid b after, block :: rest = mid ++ b :: after → hasData b = true →
        (dataLines b).length = 1 ∧ NameKept (before ++ mid) b) ↔
        (hasData block = true → (dataLines block).length = 1 ∧ NameKept before block) ∧
        (∀ mid b after, rest = mid ++ b :: after → hasData b = true →
          (dataLines b).length = 1 ∧ NameKept (before ++ [block] ++ mid) b) := by
      constructor
      · intro h
        refine ⟨fun hb => ?_, fun mid b after heq hb => ?_⟩
        · have := h [] block rest rfl hb
          rwa [List.append_nil] at this
        · have := h (block :: mid) b after (by rw [heq]; rfl) hb
          rwa [List.append_assoc]
      · rintro ⟨hfirst, hothers⟩ mid b after heq hb
        cases mid with
        | nil =>
          obtain ⟨rfl, -⟩ := List.cons.inj heq
          rw [List.append_nil]
          exact hfirst hb
        | cons c mid =>
          obtain ⟨rfl, hrest'⟩ := List.cons.inj heq
          have := hothers mid b after hrest' hb
          rwa [List.append_assoc] at this
    rw [hsplit, Agrees]
    cases hdata : hasData block with
    | true =>
      rw [hdata, if_pos rfl] at hrest
      rw [if_pos rfl, ← hrest, nameKept_iff]
      exact ⟨fun h => ⟨fun _ => h.1, h.2⟩, fun h => ⟨h.1 rfl, h.2⟩⟩
    | false =>
      rw [hdata, if_neg Bool.false_ne_true] at hrest
      rw [if_neg Bool.false_ne_true, ← hrest]
      exact ⟨fun h => ⟨fun hb => (nomatch hb), h⟩, fun h => h.2⟩

/-- The parser hands on what the rule dispatches for the readable streams, and for no others. -/
theorem parseLines_eq_iff (lines : List Line) :
    parseLines (lines.map Line.text) = reference lines ↔ Readable lines := by
  rw [parseLines_eq, reference_eq, parseBlocks_eq_iff]
  exact agrees_iff [] (blocks lines)

/-- A block with two data lines loses the first. -/
theorem data_line_lost :
    ¬ ∀ lines : List Line, parseLines (lines.map Line.text) = reference lines := by
  intro h
  exact absurd (h [.event "ping", .data "[1,", .data "2]", .blank]) (by decide +kernel)

end SpooledSdk.Realtime.SseLines
