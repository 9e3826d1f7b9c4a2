import AsmServer.Assembly.Console
import AsmServer.Proofs.Assembly.Listing

/-!
# Printed errors are read back

An error is printed as its place, the mark of its kind and its message, and the place is the file
with the line in parentheses or behind a colon. Here errors are laid out from what they stand for.

Marks are looked for kind by kind, and parentheses before colons. A printed error is therefore read
as what it was laid out from exactly if nothing that is looked for first stands elsewhere: the
message shows no mark of an earlier kind, and the file does not run into the mark or, before a
colon, show a parenthesis. Any other error is lost or told of another place.
-/

namespace AsmServer

namespace ConsoleError

open AsmServer.Text

/-! ## The layout -/

/-- The kinds of errors. -/
inductive Kind where
  | error
  | fatal
  | warning
  deriving DecidableEq, Repr

namespace Kind

def word : Kind → Text
  | error => "error".toList
  | fatal => "fatal".toList
  | warning => "warning".toList

/-- What stands between the place and the message of such an error. -/
def mark (kind : Kind) : Text := ':' :: ' ' :: (kind.word ++ [':', ' '])

/-- The kinds whose marks are tried first. -/
def earlier : Kind → List Kind
  | error => []
  | fatal => [error]
  | warning => [error, fatal]

end Kind

/-- How the place of an error is laid out. -/
inductive Layout where
  /-- The line stands in parentheses behind the file. -/
  | parenthesised
  /-- The line stands behind the file and a colon. -/
  | colon
  deriving DecidableEq, Repr

/-- An error as it is printed. The file has no mark and no lead `./`, which would be taken off. -/
structure Printed where
  file : Text
  line : Nat
  kind : Kind
  message : Text
  line_small : line < bound32
  file_trimmed : Trimmed file
  file_here : ¬"./".toList <+: file
  file_unmarked : ∀ mark ∈ marks, ¬mark <:+: file
  message_trimmed : Trimmed message

namespace Printed

/-- The place behind the file. -/
def lineText (printed : Printed) : Layout → Text
  | .parenthesised => ' ' :: '(' :: (ofNat 10 printed.line ++ [')'])
  | .colon => ':' :: ofNat 10 printed.line

def place (printed : Printed) (layout : Layout) : Text := printed.file ++ printed.lineText layout

def text (printed : Printed) (layout : Layout) : Text :=
  printed.place layout ++ (printed.kind.mark ++ printed.message)

/-- The error as it is to be read. -/
def toError (printed : Printed) (entry : Text) : ConsoleError where
  file? := if printed.file = entry then none else some printed.file
  line := printed.line
  message := printed.message

/-- The file does not hide where the place ends. -/
def PlainFile (printed : Printed) : Layout → Prop
  | .parenthesised => ∀ kind ∈ printed.kind.earlier ++ [printed.kind],
      ¬kind.mark.dropLast <:+ printed.file
  | .colon => ¬" (".toList <:+: printed.file

/-- No mark of an earlier kind is in the message, not even together with the end of the mark in
front of it. -/
def PlainMessage (printed : Printed) : Prop :=
  ∀ kind ∈ printed.kind.earlier, ¬kind.mark <:+: printed.kind.mark ++ printed.message

end Printed

/-! ## Marks -/

namespace Kind

variable {kind : Kind} {place rest : Text}

theorem colon_not_mem_word (kind : Kind) : ':' ∉ kind.word := by
  cases kind <;> decide

theorem getLast?_word (kind : Kind) : ∃ c, kind.word.getLast? = some c ∧ c.isAlpha = true := by
  cases kind
  · exact ⟨'r', by decide⟩
  · exact ⟨'l', by decide⟩
  · exact ⟨'g', by decide⟩

theorem marks_eq_map : marks = [error, fatal, warning].map mark := by decide

theorem mem_marks (kind : Kind) : kind.mark ∈ marks := by
  cases kind <;> decide

theorem exists_of_mem_marks {text : Text} (h : text ∈ marks) : ∃ kind : Kind, kind.mark = text := by
  rw [marks_eq_map] at h
  obtain ⟨kind, -, rfl⟩ := List.mem_map.mp h
  exact ⟨kind, rfl⟩

theorem marks_eq (kind : Kind) :
    ∃ later : List Kind, marks = (kind.earlier.map mark) ++ kind.mark :: later.map mark := by
  cases kind
  · exact ⟨[fatal, warning], by decide⟩
  · exact ⟨[warning], by decide⟩
  · exact ⟨[], by decide⟩

theorem mark_ne_nil (kind : Kind) : kind.mark ≠ [] := List.cons_ne_nil _ _

theorem getLast?_mark (kind : Kind) : kind.mark.getLast? = some ' ' := by
  cases kind <;> decide

theorem count_mark (kind : Kind) : kind.mark.count ':' = 2 := by
  cases kind <;> decide

theorem not_mem_map_earlier (kind : Kind) : kind.mark ∉ kind.earlier.map mark := by
  cases kind <;> decide

/-- A colon that follows no letter is in no mark, or begins it. -/
theorem mark_infix_append_iff (solid : ∀ c ∈ place.getLast?, c.isAlpha = false) :
    kind.mark <:+: place ++ ':' :: rest ↔ kind.mark <:+: place ∨ kind.mark <:+: ':' :: rest := by
  constructor
  · intro within
    obtain here | there | ⟨front, tail, whole, start, stop⟩ := List.infix_append_iff.mp within
    · exact .inl here
    · exact .inr there
    cases front with
    | nil => exact .inr (by simpa [whole] using stop.isInfix)
    | cons c letters =>
      cases tail with
      | nil => exact .inl (by simpa [whole] using start.isInfix)
      | cons d others =>
        -- The second colon of the mark would be this one, and the word would stand before it.
        obtain rfl : d = ':' := (List.cons_prefix_cons.mp stop).1
        obtain ⟨rfl, behind⟩ := List.cons.inj whole
        have split : letters ++ ':' :: others = ' ' :: kind.word ++ ':' :: [' '] := behind.symm
        have before : ':' ∉ ' ' :: kind.word := by simpa using kind.colon_not_mem_word
        obtain ⟨rfl, -, -⟩ := (List.append_cons_inj_of_notMem before (by simp)).mp split.symm
        obtain ⟨c, last, letter⟩ := kind.getLast?_word
        have ends : place.getLast? = some c := by
          obtain ⟨front, rfl⟩ := start
          simp [List.getLast?_append, List.getLast?_cons, last]
        exact absurd letter (by simp [solid c ends])
  · rintro (here | there)
    · exact here.trans (List.prefix_append _ _).isInfix
    · exact there.trans (List.suffix_append _ _).isInfix

theorem dropLast_mark (kind : Kind) : kind.mark.dropLast = ':' :: ' ' :: (kind.word ++ [':']) := by
  cases kind <;> rfl

/-- A text before a mark shows the mark for the first time if the mark is not in the text. -/
theorem mark_infix_dropLast_iff (solid : ∀ c ∈ place.getLast?, c.isAlpha = false) :
    kind.mark <:+: (place ++ kind.mark).dropLast ↔ kind.mark <:+: place := by
  rw [List.dropLast_append_of_ne_nil kind.mark_ne_nil, dropLast_mark, mark_infix_append_iff solid,
    ← dropLast_mark]
  refine or_iff_left fun within => ?_
  have fits := within.length_le
  have size := List.length_pos_iff.mpr kind.mark_ne_nil
  rw [List.length_dropLast] at fits
  omega

end Kind

/-- Marks are tried in order. The one behind the place is found there if none of those before it is
anywhere, and it is not in front itself. -/
theorem findSome?_cutAt?_iff {before after : List Text} {mark place message : Text}
    (real : mark ≠ []) (other : mark ∉ before) (reals : ∀ m ∈ before, m ≠ []) :
    (before ++ mark :: after).findSome? (cutAt? · (place ++ (mark ++ message)))
        = some (place, message) ↔
      (∀ m ∈ before, ¬m <:+: place ++ (mark ++ message)) ∧
        ¬mark <:+: (place ++ mark).dropLast := by
  induction before with
  | nil =>
    have here : mark <:+: place ++ (mark ++ message) := ⟨place, message, by simp⟩
    obtain ⟨parts, cut⟩ : ∃ parts, cutAt? mark (place ++ (mark ++ message)) = some parts :=
      Option.ne_none_iff_exists'.mp fun missing => cutAt?_eq_none_iff.mp missing here
    rw [List.nil_append, List.findSome?_cons, cut]
    show some parts = some (place, message) ↔ _
    rw [← cut, cutAt?_eq_some_iff real]
    simp
  | cons m rest ih =>
    obtain ⟨differs, others⟩ := not_or.mp (List.mem_cons.not.mp other)
    obtain ⟨first, later⟩ := List.forall_mem_cons.mp reals
    rw [List.cons_append, List.findSome?_cons]
    cases cut : cutAt? m (place ++ (mark ++ message)) with
    | none =>
      show (rest ++ mark :: after).findSome? _ = some (place, message) ↔ _
      rw [ih others later, List.forall_mem_cons, and_assoc,
        and_iff_right (cutAt?_eq_none_iff.mp cut)]
    | some parts =>
      refine iff_of_false ?_ ?_
      · rintro ⟨⟩
        obtain ⟨same, -⟩ := (cutAt?_eq_some_iff first).mp cut
        exact differs (List.append_cancel_right (List.append_cancel_left same))
      · rintro ⟨absent, -⟩
        rw [cutAt?_eq_none_iff.mpr (absent m List.mem_cons_self)] at cut
        cases cut

/-! ## The place -/

namespace Printed

variable (printed : Printed)

theorem place_colon : printed.place .colon = printed.file ++ (':' :: ofNat 10 printed.line) := rfl

theorem place_parenthesised : printed.place .parenthesised
    = printed.file ++ (" (".toList ++ (ofNat 10 printed.line ++ [')'])) := rfl

theorem isDigit_of_getLast?_colon {c : Char} (last : c ∈ (printed.place .colon).getLast?) :
    c.isDigit = true := by
  have split : printed.place .colon = printed.file ++ [':'] ++ ofNat 10 printed.line := by
    simp [place_colon]
  rw [split, List.getLast?_append_of_ne_nil _ (ofNat_ne_nil _)] at last
  exact isDigit_of_mem_ofNat (List.mem_of_getLast? last)

/-- A place ends with a digit or a parenthesis. -/
theorem solid_place (layout : Layout) :
    ∀ c ∈ (printed.place layout).getLast?, c.isAlpha = false := by
  intro c last
  cases layout with
  | parenthesised =>
    obtain rfl : ')' = c := by
      simpa [place, lineText, List.getLast?_append, List.getLast?_cons] using last
    decide
  | colon =>
    have digit : (decide (c.val ≥ 48) && decide (c.val ≤ 57)) = true :=
      printed.isDigit_of_getLast?_colon last
    show (decide (c.val ≥ 65 ∧ c.val ≤ 90) || decide (c.val ≥ 97) && decide (c.val ≤ 122)) = false
    grind

/-- A mark in a place runs from the file into the parentheses. -/
theorem mark_infix_place_iff (kind : Kind) (layout : Layout) :
    kind.mark <:+: printed.place layout ↔
      layout = .parenthesised ∧ kind.mark.dropLast <:+ printed.file := by
  have outside : ¬kind.mark <:+: printed.file := printed.file_unmarked _ kind.mem_marks
  have space : ' ' ∉ ofNat 10 printed.line := not_mem_ofNat (by decide) _
  cases layout with
  | colon =>
    have absent : ' ' ∉ ':' :: ofNat 10 printed.line := by simpa using space
    refine iff_of_false (fun within => outside ?_) (by simp)
    exact infix_of_infix_append kind.getLast?_mark absent within
  | parenthesised =>
    have split : printed.place .parenthesised =
        (printed.file ++ [' ']) ++ '(' :: (ofNat 10 printed.line ++ [')']) := by
      simp [place_parenthesised]
    have whole : kind.mark.dropLast ++ [' '] = kind.mark :=
      List.dropLast_append_getLast? _ kind.getLast?_mark
    rw [split, and_iff_right rfl]
    constructor
    · intro within
      have upTo := infix_of_infix_append kind.getLast?_mark (by simpa using space) within
      obtain ends | inside := List.infix_concat_iff.mp upTo
      · rw [← whole] at ends
        exact (List.suffix_append_self_iff).mp ends
      · exact absurd inside outside
    · rintro ⟨front, ends⟩
      exact ⟨front, '(' :: (ofNat 10 printed.line ++ [')']), by rw [← ends, ← whole]; simp⟩

/-- A line in parentheses is found whatever the file is. -/
theorem splitPlace?_parenthesised :
    splitPlace? (printed.place .parenthesised) = some (printed.file, ofNat 10 printed.line) := by
  have once : ¬" (".toList <:+: (" (".toList ++ (ofNat 10 printed.line ++ [')'])).tail := by
    intro within
    have space : ' ' ∈ '(' :: (ofNat 10 printed.line ++ [')']) := within.subset (by decide)
    have absent : ' ' ∉ ofNat 10 printed.line := not_mem_ofNat (by decide) _
    simp [absent] at space
  have cut := (cutAtLast?_eq_some_iff (by decide)).mpr ⟨printed.place_parenthesised, once⟩
  simp only [splitPlace?, cut, beforeTail?_append, Option.map_some]

/-- A line behind a colon is found if nothing looks like a parenthesis. -/
theorem splitPlace?_colon (plain : ¬" (".toList <:+: printed.file) :
    splitPlace? (printed.place .colon) = some (printed.file, ofNat 10 printed.line) := by
  have absent : ¬" (".toList <:+: printed.place .colon := by
    have other : '(' ∉ ':' :: ofNat 10 printed.line := by
      simpa using not_mem_ofNat (by decide) printed.line
    intro within
    exact plain (infix_of_infix_append (by decide) other within)
  have once : ¬[':'] <:+: ([':'] ++ ofNat 10 printed.line).tail := by
    intro within
    exact not_mem_ofNat (c := ':') (by decide) _ (within.subset (by simp))
  have cut := (cutAtLast?_eq_some_iff (by decide)).mpr ⟨printed.place_colon, once⟩
  simp only [splitPlace?, cutAtLast?_eq_none_iff.mpr absent, cut]

/-- No line is found behind a colon if the file has what looks like a parenthesis: the
parenthesis is not closed at the end. -/
theorem splitPlace?_colon_of_infix (within : " (".toList <:+: printed.file) :
    splitPlace? (printed.place .colon) = none := by
  have shown : " (".toList <:+: printed.place .colon := within.trans (List.infix_append' [] _ _)
  obtain ⟨⟨front, rest⟩, cut⟩ := Option.ne_none_iff_exists'.mp fun missing =>
    cutAtLast?_eq_none_iff.mp missing shown
  have whole := ((cutAtLast?_eq_some_iff (by decide)).mp cut).1
  have opened : beforeTail? [')'] rest = none := by
    refine Option.eq_none_iff_forall_ne_some.mpr fun number closed => ?_
    have last : (printed.place .colon).getLast? = some ')' := by
      rw [whole, beforeTail?_eq_some_iff.mp closed]
      simp [List.getLast?_append, List.getLast?_cons]
    exact absurd (printed.isDigit_of_getLast?_colon last) (by decide)
  simp only [splitPlace?, cut, opened, Option.map_none]

/-! ## The mark -/

/-- The first mark that is tried and found is the one behind the place if no mark of an earlier
kind comes with the message, and the place shows none so far. -/
theorem findSome?_marks_iff (layout : Layout) :
    marks.findSome? (cutAt? · (printed.text layout))
        = some (printed.place layout, printed.message) ↔
      printed.PlainMessage ∧
        ∀ kind ∈ printed.kind.earlier ++ [printed.kind], ¬kind.mark <:+: printed.place layout := by
  have solid := printed.solid_place layout
  have apart (kind : Kind) :
      ¬kind.mark <:+: printed.place layout ++ (printed.kind.mark ++ printed.message) ↔
        ¬kind.mark <:+: printed.place layout ∧
          ¬kind.mark <:+: printed.kind.mark ++ printed.message := by
    rw [← not_or]
    exact not_congr (Kind.mark_infix_append_iff solid)
  obtain ⟨later, split⟩ := printed.kind.marks_eq
  rw [split, text, findSome?_cutAt?_iff printed.kind.mark_ne_nil printed.kind.not_mem_map_earlier
    (List.forall_mem_map.mpr fun kind _ => kind.mark_ne_nil), List.forall_mem_map,
    Kind.mark_infix_dropLast_iff solid, List.forall_mem_append, List.forall_mem_singleton]
  simp only [apart, forall₂_and, PlainMessage]
  tauto

/-- A text that is read as the message is the message: there is one way to cut a printed error so
that as many colons are behind the mark. -/
theorem eq_of_trim_eq {layout : Layout} {kind : Kind} {place message : Text}
    (whole : printed.text layout = place ++ (kind.mark ++ message))
    (same : trim message = printed.message) :
    place = printed.place layout ∧ message = printed.message := by
  have behind : message.count ':' = printed.message.count ':' := by
    rw [← same, count_trim (by decide)]
  have before : (printed.place layout).count ':' = place.count ':' := by
    have total := congrArg (List.count ':') whole
    rw [text, List.count_append, List.count_append, List.count_append, List.count_append,
      Kind.count_mark, Kind.count_mark, behind] at total
    omega
  obtain ⟨places, rest⟩ := append_cons_inj_of_count whole before
  have words : printed.kind.word ++ ':' :: (' ' :: printed.message)
      = kind.word ++ ':' :: (' ' :: message) := by simpa using rest
  have none (kind : Kind) : kind.word.count ':' = 0 :=
    List.count_eq_zero.mpr kind.colon_not_mem_word
  obtain ⟨-, messages⟩ := append_cons_inj_of_count words ((none _).trans (none _).symm)
  exact ⟨places.symm, (List.cons.inj messages).2.symm⟩

/-! ## Reading back -/

theorem splitPlace?_of_plainFile {layout : Layout} (plain : printed.PlainFile layout) :
    splitPlace? (printed.place layout) = some (printed.file, ofNat 10 printed.line) := by
  cases layout with
  | parenthesised => exact printed.splitPlace?_parenthesised
  | colon => exact printed.splitPlace?_colon plain

/-- The file is plain exactly if it runs into no mark and a line is found. -/
theorem plainFile_iff (layout : Layout) :
    printed.PlainFile layout ↔
      (∀ kind ∈ printed.kind.earlier ++ [printed.kind], ¬kind.mark <:+: printed.place layout) ∧
        (splitPlace? (printed.place layout)).isSome := by
  simp only [mark_infix_place_iff]
  cases layout with
  | parenthesised => simp [PlainFile, splitPlace?_parenthesised]
  | colon =>
    constructor
    · intro plain
      exact ⟨by simp, by rw [printed.splitPlace?_colon plain]; rfl⟩
    · rintro ⟨-, found⟩ within
      rw [printed.splitPlace?_colon_of_infix within] at found
      cases found

theorem readNat?_line : readNat? 10 bound32 (trim (ofNat 10 printed.line)) = some printed.line := by
  have ten : 1 < 10 := by decide
  obtain ⟨numeral, text, value⟩ := exists_numeral ten printed.line_small
  have solid := legible_ten.solid numeral
  have trimmed : Trimmed numeral.text :=
    ⟨fun c first => solid c (List.mem_of_mem_head? first),
      fun c last => solid c (List.mem_of_getLast? last)⟩
  rw [← text, trimmed.trim_eq, legible_ten.readNat?_text, value]

/-- A printed error is read as what it was laid out from exactly if file and message are plain. -/
theorem ofLine?_eq_some_iff (entry : Text) (layout : Layout) :
    ofLine? entry (printed.text layout) = some (printed.toError entry) ↔
      printed.PlainMessage ∧ printed.PlainFile layout := by
  constructor
  · intro read
    obtain ⟨⟨place, message⟩, found, read⟩ := Option.bind_eq_some_iff.mp read
    obtain ⟨_, split, read⟩ := Option.bind_eq_some_iff.mp read
    obtain ⟨_, -, read⟩ := Option.bind_eq_some_iff.mp read
    have same : trim message = printed.message :=
      congrArg ConsoleError.message (Option.some.inj read)
    obtain ⟨mark, tried, cut⟩ := List.exists_of_findSome?_eq_some found
    obtain ⟨kind, rfl⟩ := Kind.exists_of_mem_marks tried
    have whole := ((cutAt?_eq_some_iff kind.mark_ne_nil).mp cut).1
    obtain ⟨rfl, rfl⟩ := printed.eq_of_trim_eq whole same
    obtain ⟨message, file⟩ := (printed.findSome?_marks_iff layout).mp found
    exact ⟨message, (printed.plainFile_iff layout).mpr ⟨file, Option.isSome_of_eq_some split⟩⟩
  · rintro ⟨message, file⟩
    have unmarked := ((printed.plainFile_iff layout).mp file).1
    have found := (printed.findSome?_marks_iff layout).mpr ⟨message, unmarked⟩
    simp only [ofLine?, found, printed.splitPlace?_of_plainFile file, printed.readNat?_line,
      Listing.attributedFile?_of_trimmed printed.file_trimmed printed.file_here,
      printed.message_trimmed.trim_eq, Option.bind_eq_bind, Option.bind_some, toError]
    rfl

end Printed

/-- A printed error is read as one error, with its line, its message and its file, which is none for
the entry file, exactly if file and message are plain. -/
theorem parse_printed_iff (entry : Text) (printed : Printed) (layout : Layout) :
    parse entry [printed.text layout] =
        [{ file? := if printed.file = entry then none else some printed.file
           line := printed.line
           message := printed.message }] ↔
      printed.PlainMessage ∧ printed.PlainFile layout := by
  rw [← printed.ofLine?_eq_some_iff entry]
  cases read : ofLine? entry (printed.text layout) with
  | none => simp [parse, read]
  | some error => simp [parse, read, Printed.toError]

/-- An error of a file with parentheses in its name, whose message quotes a mark of its own kind. -/
def quoting : Printed where
  file := "lib (old).h".toList
  line := 12
  kind := .error
  message := "Syntax Error ': error: '.".toList
  line_small := by simp [bound32]
  file_trimmed := ⟨by simp [isBlank], by simp [isBlank]⟩
  file_here := by decide
  file_unmarked := by
    intro mark tried within
    obtain ⟨kind, rfl⟩ := Kind.exists_of_mem_marks tried
    exact absurd (within.subset List.mem_cons_self) (by decide)
  message_trimmed := ⟨by simp [isBlank], by simp [isBlank]⟩

/-- The line stands in parentheses, so file and message are plain. -/
theorem quoting_is_read_back :
    parse "main.asm".toList ["lib (old).h (12): error: Syntax Error ': error: '.".toList] =
      [{ file? := some "lib (old).h".toList
         line := 12
         message := "Syntax Error ': error: '.".toList }] := by
  have text : quoting.text .parenthesised =
      "lib (old).h (12): error: Syntax Error ': error: '.".toList := by decide
  have message : quoting.PlainMessage := fun kind earlier => nomatch earlier
  have file : quoting.PlainFile .parenthesised := by
    intro kind tried ends
    exact absurd (ends.subset List.mem_cons_self) (by decide)
  rw [← text]
  exact (parse_printed_iff "main.asm".toList quoting .parenthesised).mpr ⟨message, file⟩

/-- Behind a colon the same error is lost, and so is a warning that quotes the mark of an error. -/
theorem printed_errors_are_lost :
    quoting.text .colon = "lib (old).h:12: error: Syntax Error ': error: '.".toList ∧
      parse "main.asm".toList [quoting.text .colon] = [] ∧
      parse "main.asm".toList ["main.asm (3): warning: see ': error: '.".toList] = [] := by
  decide

end ConsoleError

end AsmServer
