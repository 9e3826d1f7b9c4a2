import AsmServer.Answer.Diagnostics
import AsmServer.Proofs.Offsets.Columns
import AsmServer.Proofs.Text.Search

/-!
# The text that a message quotes

An error message quotes the text it objects to between its first two single quotes. If this text
is on the line, the columns of the diagnostic enclose its first occurrence, and reading the line
back between them gives the text. A message without two quotes, with nothing between them or with a
text that is not on the line is about the whole line.
-/

namespace AsmServer

namespace Text

variable {line mark before after : Text}

/-- The line has the text at this offset. -/
def HasAt (line text : Text) (byte : Nat) : Prop :=
  slice? byte (byte + byteSize text) line = some text

theorem hasAt_iff {text : Text} {byte : Nat} :
    HasAt line text byte ↔ ∃ front, front ++ text <+: line ∧ byteSize front = byte := by
  constructor
  · intro cut
    obtain ⟨front, behind, rfl, size, -⟩ := slice?_eq_some_iff.mp cut
    exact ⟨front, List.prefix_append _ _, size⟩
  · rintro ⟨front, inLine, rfl⟩
    rw [HasAt, ← byteSize_append]
    exact slice?_of_prefix inLine

/-- A line is cut at the least offset of the mark. -/
theorem isLeast_of_cutAt? (real : mark ≠ []) (cut : cutAt? mark line = some (before, after)) :
    IsLeast {byte | HasAt line mark byte} (byteSize before) := by
  obtain ⟨-, first⟩ := (cutAt?_eq_some_iff real).mp cut
  have here : before ++ mark <+: line := prefix_of_cutAt? real cut
  refine ⟨hasAt_iff.mpr ⟨before, here, rfl⟩, ?_⟩
  intro byte occurs
  obtain ⟨front, there, rfl⟩ := hasAt_iff.mp occurs
  rw [byteSize_le_iff ((List.prefix_append _ _).trans here) ((List.prefix_append _ _).trans there)]
  by_contra earlier
  -- an occurrence in front would end before the mark does
  have size := List.length_pos_iff.mpr real
  have early : front ++ mark <+: (before ++ mark).dropLast := by
    refine List.prefix_of_prefix_length_le there ((List.dropLast_prefix _).trans here) ?_
    simp only [List.length_append, List.length_dropLast]
    omega
  exact first ((List.suffix_append front mark).isInfix.trans early.isInfix)

end Text

namespace Diagnostic

variable {line message text before after : Text}

/-! ## What is quoted -/

/-- The text is what stands between the first two single quotes of the message. -/
def Quotes (message text : Text) : Prop :=
  ∃ before after, message = before ++ '\'' :: (text ++ '\'' :: after) ∧
    '\'' ∉ before ∧ '\'' ∉ text

theorem quoted?_eq_some_iff : quoted? message = some text ↔ Quotes message text ∧ text ≠ [] := by
  simp only [quoted?, Option.bind_eq_bind, Option.bind_eq_some_iff, Prod.exists,
    Text.cutAt?_singleton_eq_some_iff, Option.ite_none_left_eq_some, Option.some.injEq]
  constructor
  · rintro ⟨before, rest, ⟨rfl, outside⟩, quoted, after, ⟨rfl, inside⟩, real, rfl⟩
    exact ⟨⟨before, after, rfl, outside, inside⟩, real⟩
  · rintro ⟨⟨before, after, rfl, outside, inside⟩, real⟩
    exact ⟨before, _, ⟨rfl, outside⟩, text, after, ⟨rfl, inside⟩, real, rfl⟩

/-- The message quotes this text of the line. -/
structure QuotesFrom (line message text : Text) : Prop where
  quotes : Quotes message text
  real : text ≠ []
  within : text <:+: line

/-! ## The columns of a message -/

theorem span_of_quotesFrom (quotes : QuotesFrom line message text) :
    ∃ before after, Text.cutAt? text line = some (before, after) ∧
      span line message = (Text.width before, Text.width (before ++ text)) := by
  have quoted : quoted? message = some text :=
    quoted?_eq_some_iff.mpr ⟨quotes.quotes, quotes.real⟩
  cases cut : Text.cutAt? text line with
  | none => exact absurd quotes.within (Text.cutAt?_eq_none_iff.mp cut)
  | some parts =>
    obtain ⟨before, after⟩ := parts
    exact ⟨before, after, rfl, by simp [span, quoted, cut]⟩

theorem span_eq_whole (other : ∀ text, ¬QuotesFrom line message text) :
    span line message = (0, Text.width line) := by
  cases quoted : quoted? message with
  | none => simp [span, quoted]
  | some text =>
    obtain ⟨quotes, real⟩ := quoted?_eq_some_iff.mp quoted
    have missing : Text.cutAt? text line = none :=
      Text.cutAt?_eq_none fun within => other text ⟨quotes, real, within⟩
    simp [span, quoted, missing]

/-- The columns do not end before they start, and end within the line. -/
theorem span_within (line message : Text) :
    (span line message).1 ≤ (span line message).2 ∧
      (span line message).2 ≤ Text.width line := by
  by_cases quotes : ∃ text, QuotesFrom line message text
  · obtain ⟨text, quotes⟩ := quotes
    obtain ⟨before, after, cut, columns⟩ := span_of_quotesFrom quotes
    have upTo : before ++ text <+: line := Text.prefix_of_cutAt? quotes.real cut
    rw [columns]
    exact ⟨Text.width_mono (List.prefix_append _ _), Text.width_mono upTo⟩
  · rw [span_eq_whole fun text here => quotes ⟨text, here⟩]
    exact ⟨Nat.zero_le _, Nat.le_refl _⟩

/-- The columns enclose the first occurrence of the text in the line. -/
structure Brackets (line text : Text) (columns : Nat × Nat) : Prop where
  /-- The first column is that of a character. -/
  starts : Text.IsBoundary line columns.1
  /-- The last column is that of a character or of the end of the line. -/
  stops : Text.IsBoundary line columns.2
  /-- The columns lead to offsets between which the line reads as the text, and the first of them
  is the least offset with the text. -/
  reads : ∃ first ∈ Text.byteOfColumn? line columns.1, ∃ last ∈ Text.byteOfColumn? line columns.2,
    Text.slice? first last line = some text ∧ IsLeast {byte | Text.HasAt line text byte} first

theorem brackets_of_cutAt? (real : text ≠ []) (cut : Text.cutAt? text line = some (before, after)) :
    Brackets line text (Text.width before, Text.width (before ++ text)) := by
  have upTo : before ++ text <+: line := Text.prefix_of_cutAt? real cut
  have inFront : before <+: line := (List.prefix_append _ _).trans upTo
  exact {
    starts := ⟨before, inFront, rfl⟩
    stops := ⟨before ++ text, upTo, rfl⟩
    reads := ⟨_, Text.byteOfColumn?_width inFront, _, Text.byteOfColumn?_width upTo,
      Text.slice?_of_prefix upTo, Text.isLeast_of_cutAt? real cut⟩ }

/-- The columns of every message are in order and within the line. They enclose the first occurrence
of the text between the first two single quotes of the message, if there is such a text on the line,
and otherwise the whole line. -/
theorem span_brackets_quoted (line message : Text) :
    (span line message).1 ≤ (span line message).2 ∧
    (span line message).2 ≤ Text.width line ∧
    (∀ text, QuotesFrom line message text → Brackets line text (span line message)) ∧
    ((∀ text, ¬QuotesFrom line message text) → span line message = (0, Text.width line)) := by
  obtain ⟨order, inLine⟩ := span_within line message
  refine ⟨order, inLine, ?_, span_eq_whole⟩
  intro text quotes
  obtain ⟨before, after, cut, columns⟩ := span_of_quotesFrom quotes
  rw [columns]
  exact brackets_of_cutAt? quotes.real cut

/-- In front of the text are seven characters of ten bytes and eight UTF-16 code units. -/
example : span "\tlad 😀 bad".toList "Unknown Mnemonic 'bad'.".toList = (8, 11) := by decide

end Diagnostic

end AsmServer
