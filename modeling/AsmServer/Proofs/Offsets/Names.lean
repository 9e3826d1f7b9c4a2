import AsmServer.Answer.Diagnostics
import AsmServer.Proofs.Code.Cursor
import AsmServer.Proofs.Offsets.Lines

/-!
# Names by byte offsets

The identifier under a cursor, the occurrences of a symbol and the text that an error quotes, as a
program finds them that works on byte offsets. A name is found byte by byte around a byte of it. A
match and a quoted text are found at their offset, and end at the offset behind their own bytes.

No cut and no index of these fails, whatever characters are around, and for every name that a
symbol may have. Name characters are ASCII, so the run of their bytes around an anchor ends between
two characters on both sides; and what is found by comparing whole texts starts and ends there.
-/

namespace AsmServer

namespace Utf8

/-- Bytes up to an index and from it on. -/
def splitAt? (index : Nat) (bytes : List UInt8) : Option (List UInt8 × List UInt8) :=
  if bytes.length < index then none else some (bytes.take index, bytes.drop index)

@[simp] theorem splitAt?_byteSize (s t : Text) :
    splitAt? (Text.byteSize s) (encode (s ++ t)) = some (encode s, encode t) := by
  have within : ¬(encode (s ++ t)).length < Text.byteSize s := by simp
  rw [splitAt?, if_neg within, take_encode, drop_encode]

end Utf8

namespace Offsets

open Code

variable {line : Text} {word : Word} {symbol : Symbol}

/-! ## The identifier under a cursor -/

/-- Whether a byte is there that belongs to a name. -/
def isNameAt (bytes : List UInt8) (index : Nat) : Bool :=
  (Utf8.at? isNameChar bytes index).getD false

/-- The offset of a byte of the name at a cursor, or directly before it. -/
def anchor? (bytes : List UInt8) (index : Nat) : Option Nat :=
  if isNameAt bytes index then some index
  else if 0 < index ∧ isNameAt bytes (index - 1) then some (index - 1)
  else none

/-- The name around a byte of it, with its columns. -/
def nameAround? (code : Text) (anchor : Nat) : Option (Text × Nat × Nat) := do
  let (front, back) ← Utf8.splitAt? anchor (Utf8.encode code)
  let start := anchor - (front.reverse.takeWhile (isNameChar <| Utf8.ofByte ·)).length
  let stop := anchor + (back.takeWhile (isNameChar <| Utf8.ofByte ·)).length
  return (← Text.slice? start stop code, Text.columnOfByte code start, Text.columnOfByte code stop)

/-- The identifier at `column` of a line, with its columns. -/
def identifierAt? (line : Text) (column : Nat) : Option (Option (Text × Nat × Nat)) := do
  let code ← code? line
  ((Text.byteOfColumn? line column).bind (anchor? (Utf8.encode code))).mapM (nameAround? code)

theorem bytewise_isNameChar : Utf8.Bytewise isNameChar :=
  Utf8.bytewise_of_ascii fun _ => isNameChar_ascii

theorem isNameAt_byteSize (before rest : Text) :
    isNameAt (Utf8.encode (before ++ rest)) (Text.byteSize before) = rest.head?.any isNameChar := by
  rw [isNameAt, bytewise_isNameChar.at?_byteSize]
  cases rest.head? <;> rfl

/-- The byte before a cut is that of the last character before it. -/
theorem isNameAt_byteSize_sub_one (before rest : Text) :
    (0 < Text.byteSize before ∧
      isNameAt (Utf8.encode (before ++ rest)) (Text.byteSize before - 1) = true) ↔
        before.getLast?.any isNameChar = true := by
  obtain rfl | ⟨front, c, rfl⟩ := List.eq_nil_or_concat' before
  · simp
  · rw [isNameAt, bytewise_isNameChar.at?_byteSize_sub_one]
    simp [c.utf8Size_pos]

/-- The name around a cut begins where the names before the cut do. -/
theorem append_nameAround (before rest : Text) :
    Text.dropEndWhile isNameChar before ++
        (Text.takeEndWhile isNameChar before ++ rest.takeWhile isNameChar) =
      before ++ rest.takeWhile isNameChar := by
  rw [← List.append_assoc]
  exact congrArg (· ++ _) List.rdropWhile_append_rtakeWhile

/-- The run of name bytes around a cut is the run of name characters. -/
theorem nameAround?_byteSize (before rest : Text) :
    nameAround? (before ++ rest) (Text.byteSize before) =
      some (Text.takeEndWhile isNameChar before ++ rest.takeWhile isNameChar,
        Text.width (Text.dropEndWhile isNameChar before),
        Text.width (before ++ rest.takeWhile isNameChar)) := by
  have parts : Text.dropEndWhile isNameChar before ++ Text.takeEndWhile isNameChar before =
      before := List.rdropWhile_append_rtakeWhile
  have start : Text.byteSize before - Text.byteSize (Text.takeEndWhile isNameChar before) =
      Text.byteSize (Text.dropEndWhile isNameChar before) := by
    have size := congrArg Text.byteSize parts
    rw [Text.byteSize_append] at size
    omega
  have upTo : before ++ rest.takeWhile isNameChar <+: before ++ rest :=
    (List.prefix_append_right_inj before).mpr (List.takeWhile_prefix _)
  have front : Text.dropEndWhile isNameChar before <+: before ++ rest :=
    ⟨Text.takeEndWhile isNameChar before ++ rest, by rw [← List.append_assoc, parts]⟩
  have cut := Text.slice?_of_prefix (append_nameAround before rest ▸ upTo)
  rw [append_nameAround, Text.byteSize_append] at cut
  simp only [nameAround?, Utf8.splitAt?_byteSize, Option.bind_eq_bind, Option.bind_some,
    bytewise_isNameChar.takeEndWhile, bytewise_isNameChar.takeWhile, Utf8.length_encode, start]
  rw [cut, ← Text.byteSize_append, Text.columnOfByte_of_prefix front,
    Text.columnOfByte_of_prefix upTo]
  rfl

/-- No byte of a name is at a cursor behind the code. -/
theorem anchor?_of_lt {bytes : List UInt8} {index : Nat} (behind : bytes.length < index) :
    anchor? bytes index = none := by
  have missing (index : Nat) (past : bytes.length ≤ index) : isNameAt bytes index = false := by
    rw [isNameAt, Utf8.at?, List.getElem?_eq_none past]
    rfl
  rw [anchor?, missing index (by omega), missing (index - 1) (by omega)]
  simp

theorem takeWhile_eq_nil_iff (t : Text) :
    t.takeWhile isNameChar = [] ↔ ¬t.head?.any isNameChar = true := by
  cases t <;> simp

theorem takeEndWhile_eq_nil_iff (t : Text) :
    Text.takeEndWhile isNameChar t = [] ↔ ¬t.getLast?.any isNameChar = true := by
  rw [Text.takeEndWhile, List.reverse_eq_nil_iff, takeWhile_eq_nil_iff, List.head?_reverse]

/-- What an anchor leads to is the run of the code that reaches the cut, if there is one. -/
theorem nameAround?_anchor (before rest : Text) :
    let text := Text.takeEndWhile isNameChar before ++ rest.takeWhile isNameChar
    (anchor? (Utf8.encode (before ++ rest)) (Text.byteSize before)).mapM
        (nameAround? (before ++ rest)) =
      some (if text = [] then none
        else some (text, Text.width (Text.dropEndWhile isNameChar before),
          Text.width (before ++ rest.takeWhile isNameChar))) := by
  intro text
  have none : text = [] ↔
      ¬before.getLast?.any isNameChar = true ∧ ¬rest.head?.any isNameChar = true := by
    rw [List.append_eq_nil_iff, takeEndWhile_eq_nil_iff, takeWhile_eq_nil_iff]
  rw [anchor?, isNameAt_byteSize]
  by_cases behind : rest.head?.any isNameChar = true
  · rw [if_pos behind, if_neg fun empty => (none.mp empty).2 behind, Option.mapM_some,
      nameAround?_byteSize]
    rfl
  · simp only [if_neg behind, isNameAt_byteSize_sub_one]
    by_cases front : before.getLast?.any isNameChar = true
    · rw [if_pos front, if_neg fun empty => (none.mp empty).1 front, Option.mapM_some]
      -- The anchor is the last character of the text in front, which has one byte.
      obtain rfl | ⟨others, c, rfl⟩ := List.eq_nil_or_concat' before
      · cases front
      · have inName : isNameChar c = true := by simpa using front
        have one : Text.byteSize (others ++ [c]) - 1 = Text.byteSize others := by
          rw [Text.byteSize_concat (isNameChar_ascii inName), Nat.add_sub_cancel]
        have longer : Text.takeEndWhile isNameChar (others ++ [c]) =
            Text.takeEndWhile isNameChar others ++ [c] :=
          List.rtakeWhile_concat_pos isNameChar others c inName
        have start : Text.dropEndWhile isNameChar (others ++ [c]) =
            Text.dropEndWhile isNameChar others :=
          List.rdropWhile_concat_pos isNameChar others c inName
        have around := nameAround?_byteSize others (c :: rest)
        rw [List.takeWhile_cons_of_pos inName] at around
        simp only [text, one, longer, start, List.append_assoc, List.singleton_append, around]
        rfl
    · rw [if_neg front, if_pos (none.mpr ⟨front, behind⟩)]
      rfl

theorem identifierAt?_eq (line : Text) (column : Nat) :
    identifierAt? line column =
      some ((Code.identifierAt? line column).map fun word =>
        (word.text, word.first, word.last)) := by
  rw [identifierAt?, code?_eq, Option.bind_eq_bind, Option.bind_some, Text.byteOfColumn?,
    Code.identifierAt?]
  cases cut : Text.splitAtColumn? column line with
  | none => rfl
  | some parts =>
    obtain ⟨before, behind⟩ := parts
    have inLine : before <+: line := ⟨behind, Text.append_of_splitAtColumn? cut⟩
    have inCode : code line <+: line := prefix_codeFrom .plain line
    simp only [Option.map_some, Option.bind_eq_bind, Option.bind_some]
    by_cases short : (code line).length < before.length
    · have past : (Utf8.encode (code line)).length < Text.byteSize before := by
        rw [Utf8.length_encode]
        exact Text.byteSize_lt (List.prefix_of_prefix_length_le inCode inLine short.le) short
      rw [anchor?_of_lt past, if_pos short]
      rfl
    · obtain ⟨rest, split⟩ := List.prefix_of_prefix_length_le inLine inCode (Nat.le_of_not_lt short)
      rw [if_neg short, ← split, List.drop_left, nameAround?_anchor]
      refine congrArg some ?_
      split
      · rfl
      · rw [← append_nameAround before rest]
        rfl

/-! ## Occurrences -/

/-- Whether the byte in front of a match belongs to a name, if one is in front. -/
def gluedBefore? (bytes : List UInt8) (start : Nat) : Option Bool :=
  if 0 < start then Utf8.at? isNameChar bytes (start - 1) else some false

/-- The occurrence at the byte offset `start` of a line, unless a name goes on around it. -/
def occurrence? (symbol : Symbol) (definedHere : Bool) (number : Nat) (line : Text) (start : Nat) :
    Option (Option Occurrence) := do
  let bytes := Utf8.encode line
  let stop := start + Text.byteSize symbol.name
  if (← gluedBefore? bytes start) || isNameAt bytes stop then return none
  else
    let column := Text.columnOfByte line start
    let kind : OccurrenceKind :=
      if (commentFrom? 0 false line).any (· ≤ start) then .comment
      else if definedHere ∧ symbol.line = number + 1 ∧ symbol.firstColumn = column then .declaration
      else .reference
    return some ⟨.onLine number column (Text.columnOfByte line stop), kind⟩

/-- The occurrences on line number `number`. -/
def occurrencesOnLine? (symbol : Symbol) (definedHere : Bool) (number : Nat) (line : Text) :
    Option (List Occurrence) :=
  if symbol.name = [] then some []
  else do
    let starts := (matchesFrom symbol.name [] 0 line).map fun found => Text.byteSize found.before
    return (← starts.mapM (occurrence? symbol definedHere number line)).filterMap id

/-- The occurrences on lines that start at number `number`. -/
def occurrencesFrom? (symbol : Symbol) (definedHere : Bool) (number : Nat) :
    List Text → Option (List Occurrence)
  | [] => some []
  | line :: rest => do
    return (← occurrencesOnLine? symbol definedHere number line) ++
      (← occurrencesFrom? symbol definedHere (number + 1) rest)

/-- Every occurrence of a symbol, in the order of lines and columns. -/
def occurrences? (symbol : Symbol) (definedHere : Bool) (lines : List Text) :
    Option (List Occurrence) :=
  occurrencesFrom? symbol definedHere 0 lines

/-- A byte stands in front of every match but one at the start of the line. -/
theorem gluedBefore?_byteSize (before rest : Text) :
    gluedBefore? (Utf8.encode (before ++ rest)) (Text.byteSize before) =
      some (before.getLast?.any isNameChar) := by
  obtain rfl | ⟨front, c, rfl⟩ := List.eq_nil_or_concat' before
  · rfl
  · have some : 0 < Text.byteSize (front ++ [c]) := by simp [c.utf8Size_pos]
    rw [gluedBefore?, if_pos some, bytewise_isNameChar.at?_byteSize_sub_one]
    simp

/-- A match is in the comment if it does not start before it, counted in bytes or characters. -/
theorem any_commentFrom? (inLine : word.line = line) (some : word.text ≠ []) :
    (commentFrom? 0 false line).any (· ≤ Text.byteSize word.before) =
      decide ((code line).length ≤ word.before.length) := by
  have inCode : code line <+: line := prefix_codeFrom .plain line
  have front : word.before <+: line :=
    ⟨word.text ++ word.after, by rw [← List.append_assoc]; exact inLine⟩
  rw [commentFrom?_line, commentStart?]
  by_cases marked : (code line).length < line.length
  · simp only [if_pos marked, Option.any_some, Text.byteSize_le_iff inCode front]
  · have size := congrArg List.length inLine
    have whole := inCode.length_le
    have text := List.length_pos_iff.mpr some
    simp only [Word.line, List.length_append] at size
    simp only [if_neg marked, Option.any_none]
    symm
    rw [decide_eq_false_iff_not]
    omega

theorem occurrence?_eq (definedHere : Bool) (number : Nat) (real : symbol.name ≠ [])
    (inLine : word.line = line) (named : word.text = symbol.name) :
    occurrence? symbol definedHere number line (Text.byteSize word.before) =
      some (if standsAlone word then
        some ⟨word.range number, occurrenceKind symbol definedHere number (code line).length word⟩
      else none) := by
  have stop : Text.byteSize word.before + Text.byteSize symbol.name =
      Text.byteSize (word.before ++ word.text) := by rw [Text.byteSize_append, named]
  have upTo : word.before ++ word.text <+: line := ⟨word.after, inLine⟩
  have first := Text.columnOfByte_of_prefix ((List.prefix_append _ _).trans upTo)
  have last := Text.columnOfByte_of_prefix upTo
  have comment := any_commentFrom? inLine (named ▸ real)
  have front := gluedBefore?_byteSize word.before (word.text ++ word.after)
  have behind := isNameAt_byteSize (word.before ++ word.text) word.after
  rw [← List.append_assoc] at front
  rw [Word.line] at inLine
  rw [inLine] at front behind
  simp only [occurrence?, stop, front, behind, first, last, comment, Option.bind_eq_bind,
    Option.bind_some]
  have alone : standsAlone word =
      !(word.before.getLast?.any isNameChar || word.after.head?.any isNameChar) := by
    simp [standsAlone]
  rw [alone]
  cases word.before.getLast?.any isNameChar || word.after.head?.any isNameChar with
  | true => rfl
  | false =>
    simp only [decide_eq_true_eq]
    rfl

@[simp] theorem occurrencesOnLine?_eq (symbol : Symbol) (definedHere : Bool) (number : Nat)
    (line : Text) : occurrencesOnLine? symbol definedHere number line =
      some (occurrencesOnLine symbol definedHere number line) := by
  rw [occurrencesOnLine?, occurrencesOnLine, wholeMatches]
  by_cases empty : symbol.name = []
  · rw [if_pos empty, if_pos empty]
    rfl
  · have each : ∀ word ∈ matchesFrom symbol.name [] 0 line,
        occurrence? symbol definedHere number line (Text.byteSize word.before) = _ :=
      fun word found => occurrence?_eq definedHere number empty (line_of_mem_matchesFrom found)
        (text_of_mem_matchesFrom found)
    rw [if_neg empty, if_neg empty]
    simp only [List.mapM_map, Function.comp_def]
    rw [mapM_eq_some each]
    rw [Option.bind_eq_bind, Option.bind_some, List.filterMap_map,
      ← List.filterMap_eq_map, List.filterMap_filter]
    rfl

theorem occurrencesFrom?_eq (symbol : Symbol) (definedHere : Bool) (number : Nat)
    (lines : List Text) : occurrencesFrom? symbol definedHere number lines =
      some (occurrencesFrom symbol definedHere number lines) := by
  induction lines generalizing number with
  | nil => rfl
  | cons line rest ih =>
    rw [occurrencesFrom?, occurrencesOnLine?_eq, ih]
    rfl

theorem occurrences?_eq (symbol : Symbol) (definedHere : Bool) (lines : List Text) :
    occurrences? symbol definedHere lines = some (occurrences symbol definedHere lines) :=
  occurrencesFrom?_eq symbol definedHere 0 lines

/-! ## Quoted text -/

/-- The columns of the line that a message is about: those of the text between its first two single
quotes, if it is there and on the line. -/
def errorSpan? (line message : Text) : Option (Nat × Nat) := do
  let whole := (0, Text.columnOfByte line (Text.byteSize line))
  match Text.offsetOf? ['\''] message with
  | none => return whole
  | some quote =>
    let rest ← Text.dropBytes? (quote + 1) message
    match Text.offsetOf? ['\''] rest with
    | none => return whole
    | some size =>
      if size = 0 then return whole
      else
        let quoted ← Text.slice? (quote + 1) (quote + 1 + size) message
        match Text.offsetOf? quoted line with
        | none => return whole
        | some start =>
          return (Text.columnOfByte line start,
            Text.columnOfByte line (start + Text.byteSize quoted))

theorem errorSpan?_eq (line message : Text) :
    errorSpan? line message = some (Diagnostic.span line message) := by
  have whole : Text.columnOfByte line (Text.byteSize line) = Text.width line :=
    Text.columnOfByte_of_prefix List.prefix_rfl
  rw [errorSpan?, Diagnostic.span, Diagnostic.quoted?, whole, Text.offsetOf?]
  cases first : Text.cutAt? ['\''] message with
  | none => rfl
  | some parts =>
    obtain ⟨before, rest⟩ := parts
    have opened := ((Text.cutAt?_eq_some_iff (List.cons_ne_nil _ _)).mp first).1
    have one := Text.byteSize_concat (c := '\'') (by decide) before
    have behind : Text.dropBytes? (Text.byteSize before + 1) message = some rest := by
      rw [← one, opened, ← List.append_assoc]
      exact Text.dropBytes?_byteSize_append _ _
    simp only [Option.map_some, behind, Option.bind_eq_bind, Option.bind_some, Text.offsetOf?]
    cases second : Text.cutAt? ['\''] rest with
    | none => rfl
    | some parts =>
      obtain ⟨quoted, after⟩ := parts
      have closed := ((Text.cutAt?_eq_some_iff (List.cons_ne_nil _ _)).mp second).1
      have cut : Text.slice? (Text.byteSize before + 1)
          (Text.byteSize before + 1 + Text.byteSize quoted) message = some quoted := by
        rw [← one, ← Text.byteSize_append]
        refine Text.slice?_of_prefix ⟨'\'' :: after, ?_⟩
        rw [opened, closed]
        simp
      simp only [Option.map_some, Text.byteSize_eq_zero_iff, cut, Option.bind_some]
      by_cases empty : quoted = []
      · simp [empty]
      · simp only [if_neg empty, Option.bind_some]
        cases found : Text.cutAt? quoted line with
        | none => rfl
        | some parts =>
          obtain ⟨front, behind⟩ := parts
          have upTo : front ++ quoted <+: line := Text.prefix_of_cutAt? empty found
          have start := Text.columnOfByte_of_prefix ((List.prefix_append _ _).trans upTo)
          have stop := Text.columnOfByte_of_prefix upTo
          rw [Text.byteSize_append] at stop
          simp only [Option.map_some, start, stop]
          rfl

end Offsets

end AsmServer
