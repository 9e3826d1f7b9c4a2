import AsmServer.Answer.Navigation
import AsmServer.Proofs.Code.Matches

/-!
# Edits that rename

An edit of one line replaces the text between two columns. The edits that rename a symbol in a
text are in order and apart, and each replaces the old name by the new one. Applied from the
last to the first, they rename every line.
-/

namespace AsmServer

namespace TextEdit

/-- The line after an edit of it. Columns that are not in the line change nothing. -/
def onLine (edit : TextEdit) (line : Text) : Text :=
  match Text.splitAtColumn? edit.range.start.column line,
    Text.splitAtColumn? edit.range.stop.column line with
  | some (before, _), some (_, after) => before ++ edit.newText ++ after
  | _, _ => line

/-- The lines after an edit of one of them. -/
def apply (edit : TextEdit) (lines : List Text) : List Text :=
  lines.modify edit.range.start.line edit.onLine

/-- The lines after edits that are in order and apart. The last one goes first, so that it does
not move the text that the others are about. -/
def applyAll (edits : List TextEdit) (lines : List Text) : List Text := edits.foldr apply lines

/-- The first edit ends before the second starts. -/
def Before (first second : TextEdit) : Prop :=
  first.range.stop.line < second.range.start.line ∨
    first.range.stop.line = second.range.start.line ∧
      first.range.stop.column ≤ second.range.start.column

/-- The edit replaces `name` on one line, where it stands, by `newName`. -/
def Replaces (name newName : Text) (lines : List Text) (edit : TextEdit) : Prop :=
  edit.newText = newName ∧ ∃ number before after,
    lines[number]? = some (before ++ name ++ after) ∧
      edit.range = .onLine number (Text.width before) (Text.width (before ++ name))

end TextEdit

open TextEdit Code

variable {name newName : Text} {number : Nat} {line : Text} {lines : List Text}

/-! ## Edits of a line -/

/-- The edit that renames behind this text. -/
def renameAt (name newName : Text) (number : Nat) (before : Text) : TextEdit :=
  ⟨rangeAt name number before, newName⟩

/-- The edits that rename in a line. -/
def lineEdits (name newName : Text) (number : Nat) (line : Text) : List TextEdit :=
  (placesFrom name [] (tokens (code line))).map (renameAt name newName number)

theorem onLine_renameAt (before after : Text) :
    (renameAt name newName number before).onLine (before ++ name ++ after) =
      before ++ newName ++ after := by
  have start : Text.splitAtColumn? (Text.width before) (before ++ name ++ after) =
      some (before, name ++ after) := by
    rw [List.append_assoc, Text.splitAtColumn?_width_append]
  simp only [onLine, renameAt, rangeAt, Range.onLine, start, Text.splitAtColumn?_width_append]

/-- Renaming from the last place to the first puts the new name for every token that is the old
one. -/
theorem foldr_onLine_placesFrom (name newName : Text) (number : Nat) (before tail : Text)
    (texts : List Text) :
    ((placesFrom name before texts).map (renameAt name newName number)).foldr onLine
        (before ++ texts.flatten ++ tail) =
      before ++ (texts.flatMap fun token => if token = name then newName else token) ++ tail := by
  induction texts generalizing before with
  | nil => rfl
  | cons token rest ih =>
    have behind := ih (before ++ token)
    rw [placesFrom, List.map_append, List.foldr_append, List.flatten_cons, ← List.append_assoc,
      behind, List.flatMap_cons]
    by_cases same : token = name
    · subst same
      simpa using onLine_renameAt before _
    · simp [same]

/-- The edits of a line rename in it. -/
theorem foldr_onLine_lineEdits (name newName : Text) (number : Nat) (line : Text) :
    (lineEdits name newName number line).foldr onLine line = renamed name newName line := by
  have split : [] ++ (tokens (code line)).flatten ++ line.drop (code line).length = line := by
    rw [flatten_tokens]
    exact List.prefix_iff_eq_append.mp (prefix_codeFrom .plain line)
  have folded := foldr_onLine_placesFrom name newName number [] (line.drop (code line).length)
    (tokens (code line))
  rwa [split] at folded

theorem applyAll_append (first second : List TextEdit) (lines : List Text) :
    applyAll (first ++ second) lines = applyAll first (applyAll second lines) :=
  List.foldr_append

/-- Edits of one line change that line. -/
theorem applyAll_onLine {edits : List TextEdit}
    (same : ∀ edit ∈ edits, edit.range.start.line = number) (lines : List Text) :
    applyAll edits lines = lines.modify number fun line => edits.foldr onLine line := by
  induction edits with
  | nil => exact (List.modify_id _ _).symm
  | cons edit rest ih =>
    have here : edit.range.start.line = number := same edit List.mem_cons_self
    have behind := ih fun edit member => same edit (List.mem_cons_of_mem _ member)
    rw [applyAll, List.foldr_cons, ← applyAll, behind, apply, here, List.modify_modify_eq]
    rfl

/-! ## Edits of all lines -/

/-- The edits that rename in lines from this number on. -/
def editsFrom (name newName : Text) (number : Nat) : List Text → List TextEdit
  | [] => []
  | line :: rest => lineEdits name newName number line ++ editsFrom name newName (number + 1) rest

/-- The edits rename in all lines. -/
theorem applyAll_editsFrom (name newName : Text) (passed lines : List Text) :
    applyAll (editsFrom name newName passed.length lines) (passed ++ lines) =
      passed ++ lines.map (renamed name newName) := by
  induction lines generalizing passed with
  | nil => simp [editsFrom, applyAll]
  | cons line rest ih =>
    have behind := ih (passed ++ [line])
    rw [List.length_append, List.length_singleton, List.append_assoc, List.append_assoc,
      List.singleton_append, List.singleton_append] at behind
    have here : ∀ edit ∈ lineEdits name newName passed.length line,
        edit.range.start.line = passed.length := by
      intro edit member
      obtain ⟨before, -, rfl⟩ := List.mem_map.mp member
      rfl
    rw [editsFrom, applyAll_append, behind, applyAll_onLine here, List.map_cons,
      ← foldr_onLine_lineEdits name newName passed.length line]
    exact List.modifyTailIdx_add _ 0 passed (line :: rest.map (renamed name newName))

/-- Each edit replaces the old name by the new one. -/
theorem replaces_of_mem_editsFrom {edit : TextEdit} (passed : List Text)
    (h : edit ∈ editsFrom name newName passed.length lines) :
    edit.Replaces name newName (passed ++ lines) ∧ passed.length ≤ edit.range.start.line := by
  induction lines generalizing passed with
  | nil => cases h
  | cons line rest ih =>
    rcases List.mem_append.mp h with here | behind
    · obtain ⟨before, placed, rfl⟩ := List.mem_map.mp here
      obtain ⟨after, split⟩ : before ++ name <+: line := by
        have inCode := (prefix_of_mem_placesFrom placed).2
        rw [List.nil_append, flatten_tokens] at inCode
        exact inCode.trans (prefix_codeFrom .plain line)
      refine ⟨⟨rfl, passed.length, before, after, ?_, rfl⟩, Nat.le_refl _⟩
      rw [split, List.getElem?_append_right (Nat.le_refl _), Nat.sub_self]
      rfl
    · have longer : passed.length + 1 = (passed ++ [line]).length := by simp
      rw [longer] at behind
      obtain ⟨replaces, later⟩ := ih _ behind
      rw [List.append_assoc, List.singleton_append] at replaces
      exact ⟨replaces, by omega⟩

/-- The edits are in order and apart. -/
theorem pairwise_editsFrom (name newName : Text) (passed lines : List Text) :
    (editsFrom name newName passed.length lines).Pairwise Before := by
  induction lines generalizing passed with
  | nil => exact .nil
  | cons line rest ih =>
    have longer : passed.length + 1 = (passed ++ [line]).length := by simp
    refine List.pairwise_append.mpr ⟨?_, longer ▸ ih (passed ++ [line]), ?_⟩
    · refine List.pairwise_map.mpr ((pairwise_placesFrom name [] _).imp fun apart => ?_)
      exact .inr ⟨rfl, Text.width_mono apart⟩
    · intro edit here next behind
      obtain ⟨before, -, rfl⟩ := List.mem_map.mp here
      rw [longer] at behind
      have later := (replaces_of_mem_editsFrom _ behind).2
      exact .inl (Nat.lt_of_lt_of_le (by simp [renameAt, rangeAt, Range.onLine]) later)

/-- The edits for the occurrences that are not in comments. -/
theorem map_filter_occurrencesFrom {symbol : Symbol} (proper : IsName symbol.name)
    (definedHere : Bool) (newName : Text) (number : Nat) (lines : List Text) :
    ((occurrencesFrom symbol definedHere number lines).filter (·.kind ≠ .comment)).map
        (fun o => (⟨o.range, newName⟩ : TextEdit)) =
      editsFrom symbol.name newName number lines := by
  induction lines generalizing number with
  | nil => rfl
  | cons line rest ih =>
    have here := map_range_filter_occurrencesOnLine proper definedHere number line
    rw [occurrencesFrom, List.filter_append, List.map_append, ih, editsFrom, lineEdits]
    refine congrArg (· ++ _) ?_
    calc _ = (((occurrencesOnLine symbol definedHere number line).filter
          (·.kind ≠ .comment)).map (·.range)).map (fun range => (⟨range, newName⟩ : TextEdit)) := by
          rw [List.map_map]
          rfl
      _ = _ := by
          rw [here, List.map_map]
          rfl

/-! ## Edits of a text -/

/-- The edits of a line are those of the line with its carriage return. -/
theorem lineEdits_dropReturn (proper : IsName name) (newName : Text) (number : Nat)
    (piece : Text) :
    lineEdits name newName number (Text.dropReturn piece) =
      lineEdits name newName number piece := by
  have differs : ['\r'] ≠ name := proper.ne_singleton (by decide)
  rcases tokens_code_dropReturn piece with same | returned
  · rw [lineEdits, lineEdits, same]
  · simp [lineEdits, returned, placesFrom_append, placesFrom, differs]

theorem editsFrom_map_dropReturn (proper : IsName name) (newName : Text) (number : Nat)
    (pieces : List Text) :
    editsFrom name newName number (pieces.map Text.dropReturn) =
      editsFrom name newName number pieces := by
  induction pieces generalizing number with
  | nil => rfl
  | cons piece rest ih => rw [List.map_cons, editsFrom, editsFrom, lineEdits_dropReturn proper, ih]

/-- The text after edits of its lines. Line feeds stay, and so do carriage returns before them. -/
def textAfter (edits : List TextEdit) (text : Text) : Text :=
  Text.join ['\n'] (applyAll edits (text.splitOn '\n'))

/-- The edits of the lines rename in the text. -/
theorem textAfter_editsFrom (proper : IsName name) (newName text : Text) :
    textAfter (editsFrom name newName 0 (Text.lines text)) text =
      renamedText name newName text := by
  rw [textAfter, Text.lines, editsFrom_map_dropReturn proper]
  exact congrArg (Text.join _) (applyAll_editsFrom name newName [] (text.splitOn '\n'))

end AsmServer
