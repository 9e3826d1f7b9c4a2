import AsmServer.Proofs.Offsets.Slices
import Mathlib.Order.Bounds.Defs
import Mathlib.Order.Monotone.Defs

/-!
# Offsets and columns

Both an offset and a column measure the text in front of a place, the one in bytes and the other in
UTF-16 code units. The texts in front of the places of a line are its prefixes, which either measure
puts in the same order. The offset of a column is that of the first place with at least this column,
so the two conversions are adjoint. Only the column between the halves of a surrogate pair is that
of no place.
-/

namespace AsmServer

namespace Text

variable {line before after p q : Text} {column byte : Nat}

/-! ## Places of a line -/

/-- Whether a column is that of a character or of the end of the line. -/
def IsBoundary (line : Text) (column : Nat) : Prop :=
  ∃ before, before <+: line ∧ width before = column

/-- A cut leaves nothing out. -/
theorem append_of_splitAtColumn? (h : splitAtColumn? column line = some (before, after)) :
    before ++ after = line := by
  induction line generalizing column before after with
  | nil =>
    cases column with
    | zero =>
      cases h
      rfl
    | succ n => cases h
  | cons c rest ih =>
    cases column with
    | zero =>
      cases h
      rfl
    | succ n =>
      obtain ⟨⟨before, after⟩, cut, same⟩ := Option.map_eq_some_iff.mp h
      cases same
      rw [List.cons_append, ih cut]

theorem splitAtColumn?_of_prefix (h : before <+: line) :
    ∃ after, splitAtColumn? (width before) line = some (before, after) := by
  obtain ⟨after, rfl⟩ := h
  exact ⟨after, splitAtColumn?_width_append before after⟩

/-- The prefixes of a line are in the order of their widths. -/
theorem width_le_iff (first : p <+: line) (second : q <+: line) :
    width p ≤ width q ↔ p <+: q := by
  refine ⟨fun narrow => ?_, width_mono⟩
  obtain longer | shorter := Nat.lt_or_ge q.length p.length
  · have := width_lt (List.prefix_of_prefix_length_le second first longer.le) longer
    omega
  · exact List.prefix_of_prefix_length_le first second shorter

/-- Whether an offset is that of a character or of the end of the line. -/
def IsOffset (line : Text) (byte : Nat) : Prop :=
  ∃ before, before <+: line ∧ byteSize before = byte

/-- Whether a column is between the halves of a surrogate pair. -/
def IsInsidePair (line : Text) (column : Nat) : Prop :=
  ∃ before c, before ++ [c] <+: line ∧ units c = 2 ∧ column = width before + 1

theorem units_le_two (c : Char) : units c ≤ 2 := by
  rw [units]
  split <;> decide

/-- No place has the column inside a pair. -/
theorem IsInsidePair.not_isBoundary (inside : IsInsidePair line column) :
    ¬IsBoundary line column := by
  rintro ⟨p, inLine, same⟩
  obtain ⟨before, c, pair, two, rfl⟩ := inside
  obtain short | long := List.prefix_or_prefix_of_prefix inLine pair
  · obtain rfl | shorter := List.prefix_concat_iff.mp short
    · simp [two] at same
    · have := width_mono shorter
      omega
  · have := width_mono long
    simp only [width_append, width_cons, width_nil, two] at this
    omega

/-! ## The cut at a column -/

/-- A cut is where the text in front is first as wide as the column. -/
theorem splitAtColumn?_least (cut : splitAtColumn? column line = some (before, after)) :
    column ≤ width before ∧ ∀ p, p <+: line → column ≤ width p → before <+: p := by
  induction line generalizing column before with
  | nil =>
    cases column with
    | zero =>
      cases cut
      exact ⟨Nat.zero_le _, fun _ _ _ => List.nil_prefix⟩
    | succ n => cases cut
  | cons c rest ih =>
    cases column with
    | zero =>
      cases cut
      exact ⟨Nat.zero_le _, fun _ _ _ => List.nil_prefix⟩
    | succ n =>
      obtain ⟨⟨front, _⟩, found, same⟩ := Option.map_eq_some_iff.mp cut
      cases same
      obtain ⟨wide, least⟩ := ih found
      refine ⟨by rw [width_cons]; omega, fun p inLine wider => ?_⟩
      cases p with
      | nil => simp at wider
      | cons d p =>
        obtain ⟨rfl, inRest⟩ := List.cons_prefix_cons.mp inLine
        rw [width_cons] at wider
        exact List.cons_prefix_cons.mpr ⟨rfl, least p inRest (by omega)⟩

theorem splitAtColumn?_eq_none_iff : splitAtColumn? column line = none ↔ width line < column := by
  induction line generalizing column with
  | nil => cases column <;> simp [splitAtColumn?]
  | cons c rest ih =>
    cases column with
    | zero => simp [splitAtColumn?]
    | succ n =>
      rw [splitAtColumn?, Option.map_eq_none_iff, ih, width_cons]
      omega

/-- A cut is at the column unless that is inside a pair. -/
theorem width_of_splitAtColumn? (cut : splitAtColumn? column line = some (before, after))
    (outside : ¬IsInsidePair line column) : width before = column := by
  obtain ⟨wide, least⟩ := splitAtColumn?_least cut
  have inLine : before <+: line := ⟨after, append_of_splitAtColumn? cut⟩
  by_contra wider
  cases before using List.reverseRecOn with
  | nil =>
    rw [width_nil] at wide wider
    omega
  | append_singleton front c =>
    -- the text without its last character is too narrow, so the column is inside that character
    have narrow : width front < column := by
      by_contra enough
      have := (least front ((List.prefix_append front [c]).trans inLine) (by omega)).length_le
      simp at this
    have := units_le_two c
    simp only [width_append, width_cons, width_nil] at wide wider
    exact outside ⟨front, c, inLine, by omega, by omega⟩

/-! ## Conversions -/

theorem columnOfByte_byteSize (line : Text) : columnOfByte line (byteSize line) = width line :=
  columnOfByte_of_prefix (List.prefix_refl line)

theorem byteOfColumn?_width (h : before <+: line) :
    byteOfColumn? line (width before) = some (byteSize before) := by
  obtain ⟨after, cut⟩ := splitAtColumn?_of_prefix h
  rw [byteOfColumn?, cut, Option.map_some]

theorem byteOfColumn?_eq_some_iff : byteOfColumn? line column = some byte ↔
    ∃ before after, splitAtColumn? column line = some (before, after) ∧ byteSize before = byte := by
  simp [byteOfColumn?]

theorem byteOfColumn?_eq_none_iff :
    byteOfColumn? line column = none ↔ columnOfByte line (byteSize line) < column := by
  rw [byteOfColumn?, Option.map_eq_none_iff, splitAtColumn?_eq_none_iff, columnOfByte_byteSize]

/-- The offset of a column is the least with this column or more. -/
theorem isLeast_of_byteOfColumn? (found : byteOfColumn? line column = some byte) :
    IsLeast {b | IsOffset line b ∧ column ≤ columnOfByte line b} byte := by
  obtain ⟨before, after, cut, rfl⟩ := byteOfColumn?_eq_some_iff.mp found
  obtain ⟨wide, least⟩ := splitAtColumn?_least cut
  have inLine : before <+: line := ⟨after, append_of_splitAtColumn? cut⟩
  have here : columnOfByte line (byteSize before) = width before := columnOfByte_of_prefix inLine
  refine ⟨⟨⟨before, inLine, rfl⟩, wide.trans_eq here.symm⟩, ?_⟩
  rintro _ ⟨⟨p, place, rfl⟩, enough⟩
  have there : columnOfByte line (byteSize p) = width p := columnOfByte_of_prefix place
  exact byteSize_mono (least p place (enough.trans_eq there))

theorem monotoneOn_columnOfByte (line : Text) :
    MonotoneOn (columnOfByte line) {b | IsOffset line b} := by
  rintro _ ⟨p, first, rfl⟩ _ ⟨q, second, rfl⟩ order
  have short : p.length ≤ q.length := (byteSize_le_iff first second).mp order
  calc columnOfByte line (byteSize p)
    _ = width p := columnOfByte_of_prefix first
    _ ≤ width q := width_mono (List.prefix_of_prefix_length_le first second short)
    _ = columnOfByte line (byteSize q) := Eq.symm <| columnOfByte_of_prefix second

theorem columnOfByte_le (line : Text) (byte : Nat) :
    columnOfByte line byte ≤ columnOfByte line (byteSize line) := by
  rw [columnOfByte_byteSize, columnOfByte]
  cases taken : takeBytes? byte line with
  | none => exact Nat.le_refl _
  | some front =>
    obtain ⟨⟨_, after⟩, cut, rfl⟩ := Option.map_eq_some_iff.mp taken
    exact width_mono ⟨after, (splitAtByte?_eq_some_iff.mp cut).1.symm⟩

/-- An offset that is that of no place is taken for the end of the line. -/
theorem columnOfByte_of_not_isOffset (other : ¬IsOffset line byte) :
    columnOfByte line byte = columnOfByte line (byteSize line) := by
  have uncut : takeBytes? byte line = none := by
    rw [takeBytes?, Option.map_eq_none_iff, Option.eq_none_iff_forall_ne_some]
    rintro ⟨before, after⟩ cut
    obtain ⟨whole, size⟩ := splitAtByte?_eq_some_iff.mp cut
    exact other ⟨before, ⟨after, whole.symm⟩, size⟩
  rw [columnOfByte_byteSize, columnOfByte, uncut, Option.getD_none]

/-- The conversions are adjoint on the places of a line. -/
theorem le_columnOfByte_iff (place : IsOffset line byte) :
    column ≤ columnOfByte line byte ↔ ∃ b ∈ byteOfColumn? line column, b ≤ byte := by
  constructor
  · intro enough
    have within : byteOfColumn? line column ≠ none := by
      rw [ne_eq, byteOfColumn?_eq_none_iff, Nat.not_lt]
      exact enough.trans (columnOfByte_le line byte)
    obtain ⟨b, found⟩ := Option.ne_none_iff_exists'.mp within
    exact ⟨b, found, (isLeast_of_byteOfColumn? found).2 ⟨place, enough⟩⟩
  · rintro ⟨b, found, order⟩
    obtain ⟨⟨first, enough⟩, -⟩ := isLeast_of_byteOfColumn? found
    exact enough.trans (monotoneOn_columnOfByte line first place order)

/-- The place of a column is found back from its offset. -/
theorem byteOfColumn?_columnOfByte (place : IsOffset line byte) :
    byteOfColumn? line (columnOfByte line byte) = some byte := by
  obtain ⟨before, inLine, rfl⟩ := place
  have here : columnOfByte line (byteSize before) = width before := columnOfByte_of_prefix inLine
  rw [here, byteOfColumn?_width inLine]

theorem columnOfByte_eq_iff (found : byteOfColumn? line column = some byte) :
    columnOfByte line byte = column ↔ ¬IsInsidePair line column := by
  obtain ⟨before, after, cut, rfl⟩ := byteOfColumn?_eq_some_iff.mp found
  have inLine : before <+: line := ⟨after, append_of_splitAtColumn? cut⟩
  have here : columnOfByte line (byteSize before) = width before := columnOfByte_of_prefix inLine
  rw [here]
  exact ⟨fun same inside => inside.not_isBoundary ⟨before, inLine, same⟩,
    width_of_splitAtColumn? cut⟩

/-- A column is within the line if a later one is, and leads to no later offset. -/
theorem exists_byteOfColumn?_le {other : Nat} (order : column ≤ other)
    (found : byteOfColumn? line other = some byte) :
    ∃ b ∈ byteOfColumn? line column, b ≤ byte := by
  obtain ⟨⟨place, enough⟩, -⟩ := isLeast_of_byteOfColumn? found
  exact (le_columnOfByte_iff place).mp (order.trans enough)

/-- The conversions between the offsets and the columns of a line are adjoint and monotone: columns
are read back from the places of the line, and every column within the line leads to the first place
that is not in front of it. Any other offset is taken for the end of the line. -/
theorem offsets_and_columns (line : Text) :
    (∀ byte, IsOffset line byte → byteOfColumn? line (columnOfByte line byte) = some byte) ∧
    (∀ column, byteOfColumn? line column = none ↔
      columnOfByte line (byteSize line) < column) ∧
    (∀ column byte, byteOfColumn? line column = some byte →
      IsLeast {b | IsOffset line b ∧ column ≤ columnOfByte line b} byte ∧
      (columnOfByte line byte = column ↔ ¬IsInsidePair line column)) ∧
    (∀ byte column, IsOffset line byte →
      (column ≤ columnOfByte line byte ↔ ∃ b ∈ byteOfColumn? line column, b ≤ byte)) ∧
    MonotoneOn (columnOfByte line) {b | IsOffset line b} ∧
    (∀ byte, ¬IsOffset line byte → columnOfByte line byte = columnOfByte line (byteSize line)) ∧
    ∀ column other, column ≤ other → ∀ byte ∈ byteOfColumn? line other,
      ∃ b ∈ byteOfColumn? line column, b ≤ byte :=
  ⟨fun _ place => byteOfColumn?_columnOfByte place, fun _ => byteOfColumn?_eq_none_iff,
    fun _ _ found => ⟨isLeast_of_byteOfColumn? found, columnOfByte_eq_iff found⟩,
    fun _ _ place => le_columnOfByte_iff place, monotoneOn_columnOfByte line,
    fun _ other => columnOfByte_of_not_isOffset other,
    fun _ _ order _ found => exists_byteOfColumn?_le order found⟩

/-- An offset inside a character is taken for the end, behind what follows. -/
theorem columnOfByte_not_monotone :
    ¬Monotone (columnOfByte "éa".toList) ∧ columnOfByte "éa".toList 1 = 2 ∧
      columnOfByte "éa".toList 2 = 1 := by
  have inside : columnOfByte "éa".toList 1 = 2 := by decide
  have behind : columnOfByte "éa".toList 2 = 1 := by decide
  refine ⟨fun monotone => ?_, inside, behind⟩
  have order := monotone (show 1 ≤ 2 by decide)
  rw [inside, behind] at order
  omega

end Text

end AsmServer
