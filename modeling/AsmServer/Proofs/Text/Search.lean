import AsmServer.Text.Basic
import Mathlib.Data.List.Basic

/-!
# Finding a piece of a text

A search hands out the parts of the text around what it found, so that putting them together
gives the text back. The pieces between marks are without the mark.
-/

namespace AsmServer

namespace Text

variable {lead text rest : Text}

theorem afterLead?_eq_some_iff : afterLead? lead text = some rest ↔ text = lead ++ rest := by
  unfold afterLead?
  split
  · next starts =>
    obtain ⟨tail, rfl⟩ := List.isPrefixOf_iff_prefix.mp starts
    simp [eq_comm]
  · next other =>
    simp only [reduceCtorEq, false_iff]
    rintro rfl
    exact other (List.isPrefixOf_iff_prefix.mpr (List.prefix_append lead rest))

@[simp] theorem afterLead?_append (lead rest : Text) : afterLead? lead (lead ++ rest) = some rest :=
  afterLead?_eq_some_iff.mpr rfl

theorem beforeTail?_eq_some_iff {tail : Text} :
    beforeTail? tail text = some rest ↔ text = rest ++ tail := by
  rw [beforeTail?]
  split
  · next ends =>
    obtain ⟨front, rfl⟩ := List.isSuffixOf_iff_suffix.mp ends
    simp [eq_comm]
  · next other =>
    simp only [reduceCtorEq, false_iff]
    rintro rfl
    exact other (List.isSuffixOf_iff_suffix.mpr (List.suffix_append rest tail))

@[simp] theorem beforeTail?_append (rest tail : Text) :
    beforeTail? tail (rest ++ tail) = some rest :=
  beforeTail?_eq_some_iff.mpr rfl

/-- A piece between two marks is a part of the text without the mark. -/
theorem mem_splitOn {piece : Text} {mark : Char} (h : piece ∈ text.splitOn mark) :
    mark ∉ piece ∧ piece ⊆ text := by
  induction text generalizing piece with
  | nil =>
    obtain rfl : piece = [] := by simpa using h
    simp
  | cons c rest ih =>
    rw [List.splitOn_cons_eq_if_modifyHead] at h
    split at h
    · rcases List.mem_cons.mp h with rfl | h
      · simp
      · exact ⟨(ih h).1, List.Subset.trans (ih h).2 (List.subset_cons_self _ _)⟩
    · next other =>
      cases pieces : rest.splitOn mark with
      | nil => exact absurd pieces (List.splitOn_ne_nil mark rest)
      | cons first later =>
        rw [pieces] at h ih
        rcases List.mem_cons.mp h with rfl | h
        · have outer : mark ≠ c := fun same => other (by simp [same])
          obtain ⟨absent, part⟩ := ih List.mem_cons_self
          exact ⟨by simp [outer, absent], List.cons_subset_cons _ part⟩
        · obtain ⟨absent, part⟩ := ih (List.mem_cons_of_mem _ h)
          exact ⟨absent, List.Subset.trans part (List.subset_cons_self _ _)⟩

/-! ## The first occurrence -/

/-- What begins a text and is without the mark ends before the mark. -/
theorem prefix_of_prefix_append_cons {body before after : Text} {mark : Char} (absent : mark ∉ body)
    (h : body <+: before ++ mark :: after) : body <+: before := by
  have upTo : before ++ [mark] <+: before ++ mark :: after := ⟨after, by simp⟩
  rcases List.prefix_or_prefix_of_prefix h upTo with short | long
  · refine (List.prefix_concat_iff.mp short).resolve_left ?_
    rintro rfl
    exact absent (by simp)
  · exact absurd (long.subset (by simp)) absent

theorem cutAt?_of_afterLead? {mark after : Text} (starts : afterLead? mark text = some after) :
    cutAt? mark text = some ([], after) := by
  cases text with
  | nil =>
    obtain ⟨rfl, rfl⟩ := List.append_eq_nil_iff.mp (afterLead?_eq_some_iff.mp starts).symm
    rfl
  | cons c rest => simp only [cutAt?, starts]

theorem cutAt?_cons {mark : Text} {c : Char} (other : afterLead? mark (c :: rest) = none) :
    cutAt? mark (c :: rest)
      = (cutAt? mark rest).map fun (before, after) => (c :: before, after) := by
  simp only [cutAt?, other]

/-- A mark is found where it was put, if it does not begin before. To begin is to show its start
up to where its first character comes back. -/
theorem cutAt?_append {c : Char} {start before : Text} (once : c ∉ start)
    (absent : ¬c :: start <:+: before) (tail after : Text) :
    cutAt? (c :: start ++ tail) (before ++ (c :: start ++ tail ++ after))
      = some (before, after) := by
  induction before with
  | nil => exact cutAt?_of_afterLead? (afterLead?_append _ _)
  | cons d rest ih =>
    have later : ¬c :: start <:+: rest := fun within => absent (List.infix_cons within)
    refine (cutAt?_cons (Option.eq_none_iff_forall_ne_some.mpr fun after' found => absent ?_)).trans
      (congrArg (Option.map _) (ih later))
    obtain ⟨rfl, more⟩ := List.cons.inj (afterLead?_eq_some_iff.mp found)
    have begins : start <+: rest ++ d :: (start ++ tail ++ after) :=
      ⟨tail ++ after', by simpa using more.symm⟩
    exact ((List.prefix_cons_inj d).mpr (prefix_of_prefix_append_cons once begins)).isInfix

theorem cutAt?_eq_none {mark : Text} (absent : ¬mark <:+: text) : cutAt? mark text = none := by
  induction text with
  | nil =>
    have some : mark ≠ [] := by
      rintro rfl
      exact absent (List.infix_refl _)
    simp [cutAt?, some]
  | cons c rest ih =>
    refine (cutAt?_cons (Option.eq_none_iff_forall_ne_some.mpr fun after found => absent ?_)).trans
      (by rw [ih fun within => absent (List.infix_cons within)]; rfl)
    rw [afterLead?_eq_some_iff.mp found]
    exact (List.prefix_append mark after).isInfix

theorem cutAt?_eq_none_iff {mark : Text} : cutAt? mark text = none ↔ ¬mark <:+: text := by
  refine ⟨fun missing => ?_, cutAt?_eq_none⟩
  induction text with
  | nil =>
    intro within
    obtain rfl : mark = [] := List.infix_nil.mp within
    exact absurd missing (by simp [cutAt?])
  | cons c rest ih =>
    cases starts : afterLead? mark (c :: rest) with
    | some after =>
      rw [cutAt?_of_afterLead? starts] at missing
      cases missing
    | none =>
      rw [cutAt?_cons starts, Option.map_eq_none_iff] at missing
      intro within
      obtain here | later := List.infix_cons_iff.mp within
      · obtain ⟨after, whole⟩ := here
        rw [← whole, afterLead?_append] at starts
        cases starts
      · exact ih missing later

theorem contains_iff {part : Text} : contains text part = true ↔ part <:+: text := by
  rw [contains, Option.isSome_iff_ne_none, ne_eq, cutAt?_eq_none_iff, not_not]

/-- Whether a text starts with a mark shows in front of the end of a later place of the mark. -/
theorem prefix_dropLast_iff {mark front after : Text} {c : Char} :
    mark <+: (c :: front ++ mark).dropLast ↔ mark <+: c :: front ++ (mark ++ after) := by
  have upTo : (c :: front ++ mark).dropLast <+: c :: front ++ (mark ++ after) :=
    (List.dropLast_prefix _).trans ⟨after, by simp⟩
  exact ⟨fun early => early.trans upTo,
    fun early => List.prefix_of_prefix_length_le early upTo (by simp)⟩

/-- A text is cut at a mark if there is the mark and none that ends before it does. -/
theorem cutAt?_eq_some_iff {mark before after : Text} (real : mark ≠ []) :
    cutAt? mark text = some (before, after) ↔
      text = before ++ (mark ++ after) ∧ ¬mark <:+: (before ++ mark).dropLast := by
  induction text generalizing before with
  | nil => simp [cutAt?, real]
  | cons c rest ih =>
    cases starts : afterLead? mark (c :: rest) with
    | some behind =>
      rw [cutAt?_of_afterLead? starts]
      rw [afterLead?_eq_some_iff] at starts
      constructor
      · intro same
        obtain ⟨rfl, rfl⟩ := Prod.mk.inj (Option.some.inj same)
        refine ⟨starts, fun within => ?_⟩
        have fits := within.length_le
        have size := List.length_pos_iff.mpr real
        rw [List.nil_append, List.length_dropLast] at fits
        omega
      · rintro ⟨whole, first⟩
        cases before with
        | nil => rw [List.append_cancel_left (starts.symm.trans whole)]
        | cons d front =>
          have early : mark <+: d :: front ++ (mark ++ after) := whole ▸ ⟨behind, starts.symm⟩
          exact absurd (prefix_dropLast_iff.mpr early).isInfix first
    | none =>
      have late : ¬mark <+: c :: rest := by
        rintro ⟨behind, whole⟩
        rw [← whole, afterLead?_append] at starts
        cases starts
      rw [cutAt?_cons starts]
      cases before with
      | nil => exact iff_of_false (by simp) fun ⟨whole, _⟩ => late ⟨after, whole.symm⟩
      | cons d front =>
        have some : front ++ mark ≠ [] := by simp [real]
        have longer : (d :: front ++ mark).dropLast = d :: (front ++ mark).dropLast :=
          List.dropLast_cons_of_ne_nil some
        rw [Option.map_eq_some_iff]
        constructor
        · rintro ⟨⟨front', after'⟩, found, same⟩
          obtain ⟨⟨rfl, rfl⟩, rfl⟩ := by simpa using same
          obtain ⟨rfl, first⟩ := ih.mp found
          refine ⟨rfl, fun within => ?_⟩
          rw [longer] at within
          obtain here | later := List.infix_cons_iff.mp within
          · exact late (prefix_dropLast_iff.mp (longer ▸ here))
          · exact first later
        · rintro ⟨whole, first⟩
          obtain ⟨rfl, rest⟩ := List.cons.inj whole
          rw [longer] at first
          exact ⟨(front, after), ih.mpr ⟨rest, fun within => first (List.infix_cons within)⟩, rfl⟩

theorem singleton_infix_iff {c : Char} : [c] <:+: text ↔ c ∈ text := by
  constructor
  · intro within
    exact within.subset (List.mem_singleton_self c)
  · intro member
    obtain ⟨before, after, rfl⟩ := List.append_of_mem member
    exact ⟨before, after, by simp⟩

/-- A text is cut at a character where this character is not in front. -/
theorem cutAt?_singleton_eq_some_iff {before after : Text} {c : Char} :
    cutAt? [c] text = some (before, after) ↔ text = before ++ c :: after ∧ c ∉ before := by
  rw [cutAt?_eq_some_iff (List.cons_ne_nil _ _), List.dropLast_concat, singleton_infix_iff,
    List.singleton_append]

/-- A text begins with what is in front of the mark, and the mark. -/
theorem prefix_of_cutAt? {mark before after : Text} (real : mark ≠ [])
    (cut : cutAt? mark text = some (before, after)) : before ++ mark <+: text := by
  obtain ⟨whole, -⟩ := (cutAt?_eq_some_iff real).mp cut
  exact ⟨after, by rw [whole, List.append_assoc]⟩

/-! ## The last occurrence -/

/-- The same for the last mark, of which none begins behind. -/
theorem cutAtLast?_eq_some_iff {mark before after : Text} (real : mark ≠ []) :
    cutAtLast? mark text = some (before, after) ↔
      text = before ++ (mark ++ after) ∧ ¬mark <:+: (mark ++ after).tail := by
  have swapped : cutAtLast? mark text = some (before, after) ↔
      cutAt? mark.reverse text.reverse = some (after.reverse, before.reverse) := by
    rw [cutAtLast?, Option.map_eq_some_iff]
    constructor
    · rintro ⟨⟨behind, front⟩, found, same⟩
      obtain ⟨rfl, rfl⟩ := Prod.mk.inj same
      rw [found, List.reverse_reverse, List.reverse_reverse]
    · intro found
      exact ⟨_, found, by simp⟩
  have ends : (after.reverse ++ mark.reverse).dropLast = (mark ++ after).tail.reverse := by
    rw [← List.reverse_append, List.dropLast_reverse]
  rw [swapped, cutAt?_eq_some_iff (List.reverse_ne_nil_iff.mpr real), ends, List.reverse_infix,
    List.reverse_eq_iff]
  simp

theorem cutAtLast?_eq_none_iff {mark : Text} : cutAtLast? mark text = none ↔ ¬mark <:+: text := by
  rw [cutAtLast?, Option.map_eq_none_iff, cutAt?_eq_none_iff, List.reverse_infix]

/-! ## Where a piece can stand -/

/-- What ends with a character that is not in the end of a text ends before it. -/
theorem infix_of_infix_append {part before after : Text} {c : Char}
    (last : part.getLast? = some c) (absent : c ∉ after) (h : part <:+: before ++ after) :
    part <:+: before := by
  obtain here | there | ⟨front, tail, rfl, start, stop⟩ := List.infix_append_iff.mp h
  · exact here
  · exact absurd (there.subset (List.mem_of_getLast? last)) absent
  · cases tail with
    | nil => simpa using start.isInfix
    | cons d others =>
      rw [List.getLast?_append_of_ne_nil _ (List.cons_ne_nil d others)] at last
      exact absurd (stop.subset (List.mem_of_getLast? last)) absent

/-- A text is cut in one way at a character of which so many stand before. -/
theorem append_cons_inj_of_count {c : Char} {before before' after after' : Text}
    (same : before ++ c :: after = before' ++ c :: after')
    (count : before.count c = before'.count c) : before = before' ∧ after = after' := by
  obtain ⟨gap, long, behind⟩ | ⟨gap, long, behind⟩ := List.append_eq_append_iff.mp same
  · cases gap with
    | nil => exact ⟨by simpa using long.symm, by simpa using behind⟩
    | cons d others =>
      obtain rfl : c = d := (List.cons.inj behind).1
      simp [long] at count
  · cases gap with
    | nil => exact ⟨by simpa using long, by simpa using behind.symm⟩
    | cons d others =>
      obtain rfl : c = d := (List.cons.inj behind).1
      simp [long] at count

/-- A text is cut in one way at the last of a character. -/
theorem append_cons_inj_of_not_mem {c : Char} {before before' after after' : Text}
    (absent : c ∉ after) (absent' : c ∉ after')
    (same : before ++ c :: after = before' ++ c :: after') : before = before' ∧ after = after' := by
  refine append_cons_inj_of_count same ?_
  have counts := congrArg (List.count c) same
  simp only [List.count_append, List.count_cons_self, List.count_eq_zero.mpr absent,
    List.count_eq_zero.mpr absent'] at counts
  omega

/-! ## Lines -/

/-- Every line that is ended is read, without a carriage return at its end. -/
theorem streamLines_flatMap {lines : List Text} (whole : ∀ line ∈ lines, '\n' ∉ line) :
    streamLines (lines.flatMap fun line => line ++ ['\n']) = lines.map dropReturn := by
  have pieces : (lines.flatMap fun line => line ++ ['\n']).splitOn '\n' = lines ++ [[]] := by
    induction lines with
    | nil => rfl
    | cons line rest ih =>
      obtain ⟨here, later⟩ := List.forall_mem_cons.mp whole
      have apart : ∀ c ∈ line, (c == '\n') = false := by
        intro c member
        simpa using fun same : c = '\n' => here (same ▸ member)
      rw [List.flatMap_cons, List.append_assoc, List.singleton_append, List.cons_append,
        List.splitOn, List.splitOnP_append_cons_of_forall_mem apart '\n' (by simp)]
      exact congrArg (line :: ·) (ih later)
  rw [streamLines, pieces]
  clear pieces whole
  induction lines with
  | nil => rfl
  | cons line rest ih =>
    cases rest with
    | nil => rfl
    | cons second others => exact congrArg (dropReturn line :: ·) ih

end Text

end AsmServer
