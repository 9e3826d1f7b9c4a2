import AsmServer.Text.Basic

/-!
# Byte offsets and columns

A line is measured in two units. Offsets count the bytes of its UTF-8 form, as
the assembler and the file system do; columns count its UTF-16 code units, as
editors do. A cut at either kind of number yields the two parts of the line, so
that converting one number into the other is measuring the part before the cut.

A byte offset inside a character cuts nothing. A column inside a character, which
only a surrogate pair makes possible, cuts after that character.
-/

namespace AsmServer

namespace Text

/-- Bytes of the UTF-8 form. -/
def byteSize : Text → Nat
  | [] => 0
  | c :: rest => c.utf8Size + byteSize rest

/-- UTF-16 code units of one character: two outside the basic plane. -/
def units (c : Char) : Nat := if c.toNat < 0x10000 then 1 else 2

/-- UTF-16 code units of a text. -/
def width : Text → Nat
  | [] => 0
  | c :: rest => units c + width rest

@[simp] theorem byteSize_nil : byteSize [] = 0 := rfl

@[simp] theorem byteSize_cons (c : Char) (t : Text) :
    byteSize (c :: t) = c.utf8Size + byteSize t := rfl

@[simp] theorem byteSize_append (s t : Text) : byteSize (s ++ t) = byteSize s + byteSize t := by
  induction s with
  | nil => simp
  | cons c rest ih => simp [ih, Nat.add_assoc]

theorem byteSize_mono {s t : Text} (h : s <+: t) : byteSize s ≤ byteSize t := by
  obtain ⟨rest, rfl⟩ := h
  rw [byteSize_append]
  exact Nat.le_add_right _ _

theorem byteSize_lt {s t : Text} (h : s <+: t) (shorter : s.length < t.length) :
    byteSize s < byteSize t := by
  obtain ⟨_ | ⟨c, rest⟩, rfl⟩ := h
  · simp at shorter
  · have := c.utf8Size_pos
    rw [byteSize_append, byteSize_cons]
    omega

theorem utf8Size_of_ascii {c : Char} (ascii : c.toNat < 0x80) : c.utf8Size = 1 := by
  have small : c.val ≤ 0x7f := UInt32.le_iff_toNat_le.mpr (Nat.le_of_lt_succ ascii)
  simp [Char.utf8Size, small]

theorem byteSize_of_ascii {t : Text} (ascii : ∀ c ∈ t, c.toNat < 0x80) :
    byteSize t = t.length := by
  induction t with
  | nil => rfl
  | cons c rest ih =>
    obtain ⟨here, later⟩ := List.forall_mem_cons.mp ascii
    rw [byteSize_cons, utf8Size_of_ascii here, ih later, List.length_cons, Nat.add_comm]

theorem units_pos (c : Char) : 0 < units c := by
  rw [units]
  split <;> decide

@[simp] theorem width_nil : width [] = 0 := rfl

@[simp] theorem width_cons (c : Char) (t : Text) : width (c :: t) = units c + width t := rfl

@[simp] theorem width_append (s t : Text) : width (s ++ t) = width s + width t := by
  induction s with
  | nil => simp
  | cons c rest ih => simp [ih, Nat.add_assoc]

theorem width_mono {s t : Text} (h : s <+: t) : width s ≤ width t := by
  obtain ⟨rest, rfl⟩ := h
  rw [width_append]
  exact Nat.le_add_right _ _

theorem width_lt {s t : Text} (h : s <+: t) (shorter : s.length < t.length) :
    width s < width t := by
  obtain ⟨_ | ⟨c, rest⟩, rfl⟩ := h
  · simp at shorter
  · have := units_pos c
    rw [width_append, width_cons]
    omega

theorem width_of_ascii {t : Text} (ascii : ∀ c ∈ t, c.toNat < 0x80) : width t = t.length := by
  induction t with
  | nil => rfl
  | cons c rest ih =>
    obtain ⟨here, later⟩ := List.forall_mem_cons.mp ascii
    have one : units c = 1 := if_pos (by omega)
    rw [width_cons, one, ih later, List.length_cons, Nat.add_comm]

/-- Cut after `n` bytes; nothing when that is inside a character or past the end. -/
def splitAtByte? : Nat → Text → Option (Text × Text)
  | 0, t => some ([], t)
  | _ + 1, [] => none
  | n + 1, c :: rest =>
    if c.utf8Size ≤ n + 1 then
      (splitAtByte? (n + 1 - c.utf8Size) rest).map fun (before, after) => (c :: before, after)
    else none

/-- The first `n` bytes, when they end between two characters. -/
def takeBytes? (n : Nat) (t : Text) : Option Text := (splitAtByte? n t).map (·.1)

/-- What follows the first `n` bytes, when they end between two characters. -/
def dropBytes? (n : Nat) (t : Text) : Option Text := (splitAtByte? n t).map (·.2)

/-- A cut after the bytes of the text before it. -/
@[simp] theorem splitAtByte?_byteSize_append (s t : Text) :
    splitAtByte? (byteSize s) (s ++ t) = some (s, t) := by
  induction s with
  | nil => cases t <;> rfl
  | cons c rest ih =>
    obtain ⟨n, bytes⟩ : ∃ n, c.utf8Size + byteSize rest = n + 1 :=
      Nat.exists_eq_add_one.mpr (Nat.add_pos_left c.utf8Size_pos _)
    have within : c.utf8Size ≤ n + 1 := by omega
    have left : n + 1 - c.utf8Size = byteSize rest := by omega
    rw [byteSize_cons, bytes, List.cons_append, splitAtByte?, if_pos within, left, ih,
      Option.map_some]

@[simp] theorem takeBytes?_byteSize_append (s t : Text) :
    takeBytes? (byteSize s) (s ++ t) = some s := by
  simp [takeBytes?]

@[simp] theorem dropBytes?_byteSize_append (s t : Text) :
    dropBytes? (byteSize s) (s ++ t) = some t := by
  simp [dropBytes?]

/-- Column of the byte offset `byte`. An offset that cuts nothing has the column
of the end of the line. -/
def columnOfByte (line : Text) (byte : Nat) : Nat := width ((takeBytes? byte line).getD line)

@[simp] theorem columnOfByte_byteSize_append (s t : Text) :
    columnOfByte (s ++ t) (byteSize s) = width s := by
  simp [columnOfByte]

/-- Cut before the first character at or after `column`; nothing when the column
lies past the end of the line. -/
def splitAtColumn? : Nat → Text → Option (Text × Text)
  | 0, t => some ([], t)
  | _ + 1, [] => none
  | n + 1, c :: rest =>
    (splitAtColumn? (n + 1 - units c) rest).map fun (before, after) => (c :: before, after)

/-- A cut at the width of the text before it. -/
@[simp] theorem splitAtColumn?_width_append (s t : Text) :
    splitAtColumn? (width s) (s ++ t) = some (s, t) := by
  induction s with
  | nil => cases t <;> rfl
  | cons c rest ih =>
    obtain ⟨n, columns⟩ : ∃ n, units c + width rest = n + 1 :=
      Nat.exists_eq_add_one.mpr (Nat.add_pos_left (units_pos c) _)
    have left : n + 1 - units c = width rest := by omega
    rw [width_cons, columns, List.cons_append, splitAtColumn?, left, ih, Option.map_some]

/-- Byte offset of `column`, when the column lies within the line. -/
def byteOfColumn? (line : Text) (column : Nat) : Option Nat :=
  (splitAtColumn? column line).map fun (before, _) => byteSize before

end Text

end AsmServer
