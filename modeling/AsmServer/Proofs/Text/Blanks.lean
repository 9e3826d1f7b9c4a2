import AsmServer.Text.Basic
import Mathlib.Data.List.DropRight

/-!
# Blanks around and between words

A text is trimmed if no blank stands at either end. Trimming takes exactly the blanks of the ends
away, so a trimmed text is found again among blanks, and the words of a text are found again
where a blank stands between them.
-/

namespace AsmServer

namespace Text

variable {c : Char} {text gap word rest : Text}

/-- Whether no blank stands at either end. -/
structure Trimmed (text : Text) : Prop where
  first : ∀ c ∈ text.head?, isBlank c = false
  last : ∀ c ∈ text.getLast?, isBlank c = false

/-- Whether nothing but a blank can be first. -/
def Breaks (text : Text) : Prop := ∀ c ∈ text.head?, isBlank c = true

/-! ## Trimming -/

theorem trimStart_of_first (first : ∀ c ∈ text.head?, isBlank c = false) :
    trimStart text = text := by
  cases text with
  | nil => rfl
  | cons c rest => simp [trimStart, first c rfl]

theorem trimStart_append (blank : ∀ c ∈ gap, isBlank c = true) (text : Text) :
    trimStart (gap ++ text) = trimStart text := List.dropWhile_append_of_pos blank

/-- What ends without a blank stays when the end is trimmed. -/
theorem trimEnd_append (last : ∀ c ∈ text.getLast?, isBlank c = false) (rest : Text) :
    trimEnd (text ++ rest) = text ++ trimEnd rest := by
  have kept : text.reverse.dropWhile isBlank = text.reverse :=
    trimStart_of_first (by simpa using last)
  unfold trimEnd dropEndWhile
  rw [List.reverse_append, List.dropWhile_append, kept]
  split
  · next empty => simp [List.isEmpty_iff.mp empty]
  · simp

theorem trimEnd_of_last (last : ∀ c ∈ text.getLast?, isBlank c = false) : trimEnd text = text := by
  simpa [trimEnd, dropEndWhile] using trimEnd_append last []

theorem Trimmed.trim_eq (trimmed : Trimmed text) : trim text = text := by
  rw [trim, trimStart_of_first trimmed.first, trimEnd_of_last trimmed.last]

theorem trimEnd_append_blank (text : Text) (blank : ∀ c ∈ gap, isBlank c = true) :
    trimEnd (text ++ gap) = trimEnd text := by
  unfold trimEnd dropEndWhile
  rw [List.reverse_append, List.dropWhile_append_of_pos (by simpa using blank)]

/-- Blanks at the end do not matter for trimming. -/
theorem trim_append_blank (text : Text) (blank : ∀ c ∈ gap, isBlank c = true) :
    trim (text ++ gap) = trim text := by
  unfold trim trimStart
  rw [List.dropWhile_append]
  split
  · next empty =>
    rw [List.isEmpty_iff.mp empty, ← List.append_nil gap, List.dropWhile_append_of_pos blank]
    rfl
  · exact trimEnd_append_blank _ blank

/-- A text is its trimmed form and then blanks. -/
theorem exists_trimEnd_append (text : Text) :
    ∃ gap, (∀ c ∈ gap, isBlank c = true) ∧ text = trimEnd text ++ gap :=
  ⟨text.rtakeWhile isBlank, fun _ => List.mem_rtakeWhile_imp,
    List.rdropWhile_append_rtakeWhile.symm⟩

theorem trim_trimEnd (text : Text) : trim (trimEnd text) = trim text := by
  obtain ⟨gap, blank, whole⟩ := exists_trimEnd_append text
  rw [whole, trim_append_blank _ blank, ← whole]

theorem trimEnd_isPrefix (text : Text) : trimEnd text <+: text := List.rdropWhile_prefix _ _

/-- Trimming takes nothing but blanks away. -/
theorem count_trim (solid : isBlank c = false) (text : Text) :
    (trim text).count c = text.count c := by
  have blank {gap : Text} (all : ∀ d ∈ gap, isBlank d = true) : gap.count c = 0 :=
    List.count_eq_zero.mpr fun within => by simp [all c within] at solid
  obtain ⟨gap, behind, whole⟩ := exists_trimEnd_append (trimStart text)
  calc (trim text).count c
    _ = (trim text ++ gap).count c := by rw [List.count_append, blank behind, Nat.add_zero]
    _ = (text.dropWhile isBlank).count c := congrArg (List.count c) whole.symm
    _ = (text.takeWhile isBlank ++ text.dropWhile isBlank).count c := by
        rw [List.count_append, blank fun _ => List.mem_takeWhile_imp, Nat.zero_add]
    _ = text.count c := by rw [List.takeWhile_append_dropWhile]

/-- A text that breaks still does so on a part of the way. -/
theorem Breaks.part (breaks : Breaks text) (h : rest <+: text) : Breaks rest := by
  intro c first
  obtain ⟨more, rfl⟩ := h
  exact breaks c (by rw [List.head?_append, first]; rfl)

/-- The carriage return of a line is a blank at its end. -/
theorem exists_dropReturn_append (line : Text) :
    ∃ gap, (∀ c ∈ gap, isBlank c = true) ∧ line = dropReturn line ++ gap := by
  unfold dropReturn
  split
  · next ends =>
    refine ⟨['\r'], by simp [isBlank], ?_⟩
    exact (List.dropLast_append_getLast? '\r' ends).symm
  · exact ⟨[], by simp, by simp⟩

theorem dropReturn_of_last (last : ∀ c ∈ text.getLast?, isBlank c = false) :
    dropReturn text = text :=
  if_neg fun ends => absurd (last '\r' ends) (by decide)

theorem dropReturn_append (front : Text) (ends : text = [] → front.getLast? ≠ some '\r') :
    dropReturn (front ++ text) = front ++ dropReturn text := by
  cases text with
  | nil => simp [dropReturn, ends rfl]
  | cons c rest =>
    have last : (front ++ c :: rest).getLast? = (c :: rest).getLast? := by
      simp [List.getLast?_append, List.getLast?_cons]
    rw [dropReturn, dropReturn, last, List.dropLast_append_of_ne_nil (List.cons_ne_nil c rest)]
    split <;> rfl

/-! ## Words -/

theorem words_append_blank (text : Text) (blank : isBlank c = true) (rest : Text) :
    words (text ++ c :: rest) = words text ++ words rest := by
  rw [words, List.splitOnP_append_cons _ _ blank, List.filter_append]
  rfl

theorem words_of_word (solid : ∀ c ∈ word, isBlank c = false) (some : word ≠ []) :
    words word = [word] := by
  rw [words, List.splitOnP_eq_singleton solid]
  simp [some]

/-- The first word of a text. -/
theorem words_append (solid : ∀ c ∈ word, isBlank c = false) (some : word ≠ [])
    (breaks : Breaks rest) : words (word ++ rest) = word :: words rest := by
  cases rest with
  | nil => simpa [words] using words_of_word solid some
  | cons c more =>
    have start : words (c :: more) = words more := words_append_blank [] (breaks c rfl) more
    rw [words_append_blank word (breaks c rfl), words_of_word solid some, start]
    rfl

end Text

end AsmServer
