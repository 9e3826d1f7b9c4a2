import AsmServer.Answer.Navigation
import AsmServer.Proofs.Code.Runs
import AsmServer.Proofs.Offsets.Columns
import AsmServer.Proofs.Registry.Lookup
import Mathlib.Data.List.DropRight

/-!
# The name under a cursor

The identifier at a column is the run of the code that touches the column. The search for
occurrences, which reads the whole line and not the code alone, finds the same runs outside the
comment, since what stands behind the code starts with a semicolon and no name goes on across
it. So what the cursor finds is an occurrence of its name, and each occurrence outside the
comment is found from every column that it touches.
-/

namespace AsmServer

namespace Code

variable {line left right before text after rest front back : Text} {column number : Nat}
  {word : Word} {lines : List Text} {symbol : Symbol} {definedHere : Bool}

/-! ## Names around a cut -/

theorem takeWhile_name_append (all : ∀ c ∈ text, isNameChar c = true) (ends : Ends rest) :
    (text ++ rest).takeWhile isNameChar = text := by
  rw [List.takeWhile_append_of_pos all]
  cases rest with
  | nil => simp
  | cons c _ =>
    have other : isNameChar c = false := ends c rfl
    simp [other]

theorem dropWhile_name_append (all : ∀ c ∈ text, isNameChar c = true) (ends : Ends rest) :
    (text ++ rest).dropWhile isNameChar = rest := by
  have parts := List.takeWhile_append_dropWhile (p := isNameChar) (l := text ++ rest)
  rw [takeWhile_name_append all ends] at parts
  exact List.append_cancel_left parts

theorem takeEndWhile_append_name (all : ∀ c ∈ text, isNameChar c = true)
    (start : ∀ c ∈ before.getLast?, isNameChar c = false) :
    Text.takeEndWhile isNameChar (before ++ text) = text := by
  have ends : Ends before.reverse := by rwa [Ends, List.head?_reverse]
  rw [Text.takeEndWhile, List.reverse_append,
    takeWhile_name_append (fun c member => all c (List.mem_reverse.mp member)) ends,
    List.reverse_reverse]

theorem dropEndWhile_append_name (all : ∀ c ∈ text, isNameChar c = true)
    (start : ∀ c ∈ before.getLast?, isNameChar c = false) :
    Text.dropEndWhile isNameChar (before ++ text) = before := by
  have ends : Ends before.reverse := by rwa [Ends, List.head?_reverse]
  rw [Text.dropEndWhile, List.reverse_append,
    dropWhile_name_append (fun c member => all c (List.mem_reverse.mp member)) ends,
    List.reverse_reverse]

/-- The identifier at a cut is the run of the code that reaches the cut from both sides. -/
theorem identifierAt?_of_cut (cut : Text.splitAtColumn? column line = some (left, right)) :
    identifierAt? line column = some word ↔
      word.IsRun ∧ word.line = code line ∧ word.before <+: left ∧
        left <+: word.before ++ word.text := by
  have inLine : left <+: line := ⟨right, Text.append_of_splitAtColumn? cut⟩
  have inCode : code line <+: line := prefix_codeFrom .plain line
  constructor
  · intro found
    have proper : IsName word.text := isName_of_identifierAt? found
    rw [identifierAt?, cut, Option.bind_eq_bind, Option.bind_some] at found
    dsimp only at found
    split at found
    · cases found
    · next short =>
      have within : left <+: code line :=
        List.prefix_of_prefix_length_le inLine inCode (Nat.le_of_not_lt short)
      have whole : Text.dropEndWhile isNameChar left ++ Text.takeEndWhile isNameChar left = left :=
        List.rdropWhile_append_rtakeWhile
      have behind := List.takeWhile_append_dropWhile (p := isNameChar)
        (l := (code line).drop left.length)
      split at found
      · cases found
      · cases found
        refine ⟨⟨proper, ?_, ends_dropWhile _⟩, ?_, ⟨_, whole⟩, ?_⟩
        · have ends := ends_dropWhile left.reverse
          rw [Ends, ← List.getLast?_reverse] at ends
          exact ends
        · rw [Word.line, ← List.append_assoc, whole, List.append_assoc, behind]
          exact List.prefix_iff_eq_append.mp within
        · rw [← List.append_assoc, whole]
          exact List.prefix_append _ _
  · rintro ⟨⟨proper, start, stop⟩, coded, ⟨first, rfl⟩, ⟨more, reach⟩⟩
    rw [List.append_assoc, List.append_cancel_left_eq] at reach
    have parts : code line = word.before ++ first ++ (more ++ word.after) := by
      rw [← coded, Word.line, ← reach]
      simp only [List.append_assoc]
    have inName : ∀ c ∈ first ++ more, isNameChar c = true := reach ▸ proper.2
    have before : ∀ c ∈ first, isNameChar c = true :=
      fun c member => inName c (List.mem_append_left _ member)
    have behind : ∀ c ∈ more, isNameChar c = true :=
      fun c member => inName c (List.mem_append_right _ member)
    have short : ¬(code line).length < (word.before ++ first).length := by
      rw [parts, List.length_append]
      exact Nat.not_lt.mpr (Nat.le_add_right _ _)
    have nonempty : first ++ more ≠ [] := reach ▸ proper.1
    rw [identifierAt?, cut, Option.bind_eq_bind, Option.bind_some]
    dsimp only
    rw [if_neg short, parts, List.drop_left, takeWhile_name_append behind stop,
      dropWhile_name_append behind stop, takeEndWhile_append_name before start,
      dropEndWhile_append_name before start, if_neg nonempty, reach]
    rfl

theorem Word.prefix_of_line_eq_code (coded : word.line = code line) :
    word.before ++ word.text <+: line := by
  have inCode : word.before ++ word.text <+: code line := ⟨word.after, coded⟩
  exact inCode.trans (prefix_codeFrom .plain line)

/-- The identifier at a column is the run of the code that touches the column. -/
theorem identifierAt?_eq_some_iff (boundary : Text.IsBoundary line column) :
    identifierAt? line column = some word ↔
      word.IsRun ∧ word.line = code line ∧ word.first ≤ column ∧ column ≤ word.last := by
  obtain ⟨left, inLine, rfl⟩ := boundary
  obtain ⟨right, cut⟩ := Text.splitAtColumn?_of_prefix inLine
  rw [identifierAt?_of_cut cut]
  refine and_congr_right fun _ => and_congr_right fun coded => ?_
  have whole := Word.prefix_of_line_eq_code coded
  have start : word.before <+: line := (List.prefix_append _ _).trans whole
  exact and_congr (Text.width_le_iff start inLine).symm (Text.width_le_iff inLine whole).symm

/-- The columns that a run touches are boundaries. -/
theorem Word.IsRun.isBoundary (run : word.IsRun) (coded : word.line = code line)
    (first : word.first ≤ column) (last : column ≤ word.last) : Text.IsBoundary line column := by
  have inName : ∀ c ∈ word.text.take (column - word.first), isNameChar c = true :=
    fun c member => run.name.2 c (List.mem_of_mem_take member)
  refine ⟨word.before ++ word.text.take (column - word.first), ?_, ?_⟩
  · exact ((List.prefix_append_right_inj _).mpr (List.take_prefix _ _)).trans
      (prefix_of_line_eq_code coded)
  · rw [Word.first] at *
    rw [Word.last, Text.width_append, width_of_isNameChar run.name.2] at last
    rw [Text.width_append, width_of_isNameChar inName, List.length_take]
    omega

/-- What is under a cursor, in the middle of a character too, is a run of the code. -/
theorem isRun_of_identifierAt? (found : identifierAt? line column = some word) :
    word.IsRun ∧ word.line = code line := by
  obtain ⟨⟨left, right⟩, cut, -⟩ := Option.bind_eq_some_iff.mp found
  obtain ⟨run, coded, -⟩ := (identifierAt?_of_cut cut).mp found
  exact ⟨run, coded⟩

theorem Word.last_le_of_commentStart? (coded : word.line = code line) {start : Nat}
    (comment : commentStart? line = some start) : word.last ≤ Text.columnOfByte line start := by
  rw [commentStart?] at comment
  split at comment
  · cases comment
    obtain ⟨rest, split⟩ : code line <+: line := prefix_codeFrom .plain line
    have column := Text.columnOfByte_byteSize_append (code line) rest
    rw [split] at column
    rw [column]
    exact Text.width_mono ⟨word.after, coded⟩
  · cases comment

/-! ## Runs of the code and of the line -/

/-- A run stays one in front of what starts with no name. -/
theorem Word.IsRun.append (run : word.IsRun) (ends : Ends back) :
    (Word.mk word.before word.text (word.after ++ back)).IsRun where
  name := run.name
  start := run.start
  stop := by
    cases behind : word.after with
    | nil => exact ends
    | cons c more =>
      intro d first
      obtain rfl : c = d := Option.some.inj first
      exact run.stop c (by simp [behind])

/-- A run that starts in front of where no name goes on ends there. -/
theorem Word.IsRun.within (run : word.IsRun) (split : word.line = front ++ back)
    (ends : Ends back) (starts : word.before.length < front.length) :
    ∃ after, front = word.before ++ word.text ++ after ∧
      (Word.mk word.before word.text after).IsRun := by
  obtain ⟨after, rfl, behind⟩ | ⟨beyond, long, rfl⟩ := List.append_eq_append_iff.mp split
  · refine ⟨after, rfl, run.name, run.start, fun c first => run.stop c ?_⟩
    rw [behind, List.head?_append, Option.mem_def.mp first]
    rfl
  · -- Otherwise the run has the character at the end of the front.
    cases beyond with
    | nil =>
      rw [List.append_nil] at long
      exact ⟨[], by rw [long, List.append_nil], run.name, run.start, fun _ first => nomatch first⟩
    | cons c more =>
      have other : isNameChar c = false := ends c rfl
      have inName : c ∈ word.text := by
        have part := congrArg (List.drop word.before.length) long
        rw [List.drop_left, List.drop_append_of_le_length starts.le] at part
        rw [part]
        simp
      rw [run.name.2 c inName] at other
      cases other

theorem exists_back (line : Text) : ∃ back, line = code line ++ back ∧ Ends back := by
  refine ⟨line.drop (code line).length, ?_, ends_drop_codeFrom .plain line⟩
  exact (List.prefix_iff_eq_append.mp (prefix_codeFrom .plain line)).symm

/-! ## Occurrences in code -/

/-- A run of the code is an occurrence of its name. -/
theorem Word.IsRun.exists_occurrence (run : word.IsRun) (coded : word.line = code line)
    (here : lines[number]? = some line) (named : symbol.name = word.text) (definedHere : Bool) :
    ∃ o ∈ occurrences symbol definedHere lines,
      o.kind ≠ .comment ∧ o.range = word.range number := by
  obtain ⟨back, split, ends⟩ := exists_back line
  let site : Site := ⟨number, word.before, word.text, word.after ++ back⟩
  have whole : site.word.line = line := by
    rw [split, ← coded]
    exact (List.append_assoc _ _ _).symm
  have isRun : site.word.IsRun := run.append ends
  have placed : site.IsRunOf symbol.name lines :=
    ⟨here.trans (congrArg some whole.symm), isRun, named.symm⟩
  have inCode : ¬site.InComment := by
    rw [Site.inComment_iff isRun, whole, ← coded]
    have := List.length_pos_iff.mpr run.name.1
    simp only [site, Word.line, List.length_append]
    omega
  have proper : IsName symbol.name := named ▸ run.name
  refine ⟨site.occurrence symbol definedHere, (mem_occurrences_iff proper).mpr ⟨site, placed, rfl⟩,
    fun comment => inCode (placed.occurs.comment.mp comment), rfl⟩

/-- An occurrence outside the comment is a run of the code. -/
theorem exists_run_of_mem_occurrences (proper : IsName symbol.name) {o : Occurrence}
    (member : o ∈ occurrences symbol definedHere lines) (kind : o.kind ≠ .comment) :
    ∃ (line : Text) (word : Word), lines[o.range.start.line]? = some line ∧ word.IsRun ∧
      word.line = code line ∧ word.text = symbol.name ∧
      word.range o.range.start.line = o.range := by
  obtain ⟨⟨number, word⟩, placed, rfl⟩ := (mem_occurrences_iff proper).mp member
  obtain ⟨back, split, ends⟩ := exists_back word.line
  have inCode : word.before.length < (code word.line).length :=
    Nat.lt_of_not_le fun behind =>
      kind (placed.occurs.comment.mpr ((Site.inComment_iff placed.run).mpr behind))
  obtain ⟨after, coded, run⟩ := placed.run.within split ends inCode
  exact ⟨word.line, _, placed.line, run, coded.symm, placed.text, rfl⟩

end Code

namespace Project

open Code

variable {p : Project} {symbol : Symbol} {uri : Uri} {position : Position} {file : TrackedFile}
  {o : Occurrence} {url : Text}

/-- The symbol at a position has the name that is there. -/
theorem exists_word_of_symbolAt? (found : p.symbolAt? uri position = some symbol) :
    ∃ (file : TrackedFile) (line : Text) (word : Word), p.registry.find? uri = some file ∧
      file.line? position.line = some line ∧ identifierAt? line position.column = some word ∧
      word.text = symbol.name := by
  obtain ⟨file, tracked, found⟩ := Option.bind_eq_some_iff.mp found
  obtain ⟨line, here, found⟩ := Option.bind_eq_some_iff.mp found
  obtain ⟨word, under, found⟩ := Option.bind_eq_some_iff.mp found
  obtain ⟨result, -, found⟩ := Option.bind_eq_some_iff.mp found
  have same : symbol.name = word.text := by simpa using List.find?_some found
  exact ⟨file, line, word, tracked, here, under, same.symm⟩

/-- A file with an occurrence has a text. -/
theorem mem_occurrences (member : file ∈ p.registry.files)
    (here : o ∈ p.occurrencesIn symbol file) :
    (file, p.occurrencesIn symbol file) ∈ p.occurrences symbol := by
  have loaded : file.contents?.isSome = true := by
    rw [occurrencesIn, TrackedFile.lines] at here
    cases loaded : file.contents? with
    | some text => rfl
    | none =>
      rw [loaded] at here
      cases here
  exact List.mem_map_of_mem (List.mem_filter.mpr ⟨member, loaded⟩)

/-- The references list each occurrence that counts as one. -/
theorem exists_references?_of_mem (found : p.symbolAt? uri position = some symbol)
    (member : file ∈ p.registry.files) (named : file.uri.url? = some url)
    (here : o ∈ p.occurrencesIn symbol file) {withDeclaration : Bool}
    (counts : isReference withDeclaration o = true) :
    ∃ references, p.references? uri position withDeclaration = some references ∧
      ⟨url, o.range⟩ ∈ references := by
  rw [references?, found, Option.map_some]
  refine ⟨_, rfl, List.mem_flatMap.mpr ⟨_, mem_occurrences member here, ?_⟩⟩
  simp only [named]
  exact List.mem_map_of_mem (f := fun o => Location.mk url o.range)
    (List.mem_filter.mpr ⟨here, counts⟩)

/-- A rename edits each occurrence that is not in a comment. -/
theorem exists_rename?_of_mem (found : p.symbolAt? uri position = some symbol)
    (member : file ∈ p.registry.files) (named : file.uri.url? = some url)
    (here : o ∈ p.occurrencesIn symbol file) (kind : o.kind ≠ .comment) (newName : Text) :
    ∃ documents, p.rename? uri position newName = some documents ∧
      ∃ document ∈ documents, document.url = url ∧ ⟨o.range, newName⟩ ∈ document.edits := by
  let edits := ((p.occurrencesIn symbol file).filter (·.kind ≠ .comment)).map fun o =>
    TextEdit.mk o.range newName
  have edited : TextEdit.mk o.range newName ∈ edits :=
    List.mem_map_of_mem (f := fun o => TextEdit.mk o.range newName)
      (List.mem_filter.mpr ⟨here, decide_eq_true kind⟩)
  have made : renameIn? newName file (p.occurrencesIn symbol file) =
      some ⟨url, file.documentVersion?, edits⟩ := by
    have needed : edits ≠ [] := List.ne_nil_of_mem edited
    simp only [renameIn?, named]
    rw [if_neg needed]
    rfl
  rw [rename?, found, Option.map_some]
  exact ⟨_, rfl, _, List.mem_filterMap.mpr ⟨_, mem_occurrences member here, made⟩, rfl, edited⟩

/-- The identifier at a column and the occurrences agree. What is under the cursor is a run of
the code that touches the column and ends before the comment, and it is an occurrence of its name
outside the comment. Each occurrence outside the comment is under the cursor at all columns that
it touches. Hence the references and the edits of the symbol under a cursor have the place that
the cursor is on. -/
theorem identifier_agrees_with_occurrences :
    (∀ (line : Text) (column : Nat) (word : Word), Text.IsBoundary line column →
      identifierAt? line column = some word →
      word.IsRun ∧ word.line = code line ∧ word.first ≤ column ∧ column ≤ word.last ∧
      (∀ start, commentStart? line = some start → word.last ≤ Text.columnOfByte line start) ∧
      ∀ (symbol : Symbol) (definedHere : Bool) (lines : List Text) (number : Nat),
        symbol.name = word.text → lines[number]? = some line →
        ∃ o ∈ Code.occurrences symbol definedHere lines,
          o.kind ≠ .comment ∧ o.range = word.range number) ∧
    (∀ (symbol : Symbol) (definedHere : Bool) (lines : List Text), IsName symbol.name →
      ∀ o ∈ Code.occurrences symbol definedHere lines, o.kind ≠ .comment →
      ∃ line, lines[o.range.start.line]? = some line ∧
        ∀ column, o.range.start.column ≤ column → column ≤ o.range.stop.column →
        ∃ word, identifierAt? line column = some word ∧ word.text = symbol.name ∧
          word.range o.range.start.line = o.range) ∧
    ∀ (p : Project) (uri : Uri) (position : Position) (symbol : Symbol) (url : Text),
      p.symbolAt? uri position = some symbol → uri.url? = some url →
      ∃ (file : TrackedFile) (line : Text) (word : Word), p.registry.find? uri = some file ∧
        file.line? position.line = some line ∧
        identifierAt? line position.column = some word ∧ word.text = symbol.name ∧
        ∃ o ∈ p.occurrencesIn symbol file, o.range = word.range position.line ∧
          (∀ withDeclaration, withDeclaration = true ∨ o.kind ≠ .declaration →
            ∃ references, p.references? uri position withDeclaration = some references ∧
              ⟨url, o.range⟩ ∈ references) ∧
          ∀ newName, ∃ documents, p.rename? uri position newName = some documents ∧
            ∃ document ∈ documents, document.url = url ∧ ⟨o.range, newName⟩ ∈ document.edits := by
  refine ⟨?_, ?_, ?_⟩
  · intro line column word boundary found
    obtain ⟨run, coded, first, last⟩ := (identifierAt?_eq_some_iff boundary).mp found
    refine ⟨run, coded, first, last, fun start => Word.last_le_of_commentStart? coded, ?_⟩
    intro symbol definedHere lines number named here
    exact run.exists_occurrence coded here named definedHere
  · intro symbol definedHere lines proper o member kind
    obtain ⟨line, word, here, run, coded, text, range⟩ :=
      exists_run_of_mem_occurrences proper member kind
    refine ⟨line, here, fun column first last => ⟨word, ?_, text, range⟩⟩
    rw [← range] at first last
    exact (identifierAt?_eq_some_iff (run.isBoundary coded first last)).mpr
      ⟨run, coded, first, last⟩
  · intro p uri position symbol url found named
    obtain ⟨file, line, word, tracked, here, under, text⟩ := exists_word_of_symbolAt? found
    obtain ⟨run, coded⟩ := isRun_of_identifierAt? under
    obtain ⟨o, member, kind, range⟩ := run.exists_occurrence coded here text.symm
      (symbol.isDefinedIn p.registry file.uri)
    have among := Registry.mem_of_find? tracked
    have ofFile : file.uri.url? = some url := by rwa [Registry.uri_of_find? tracked]
    refine ⟨file, line, word, tracked, here, under, text, o, member, range, ?_, ?_⟩
    · intro withDeclaration counted
      refine exists_references?_of_mem found among ofFile member ?_
      cases use : o.kind with
      | comment => exact absurd use kind
      | declaration => simpa [isReference, use] using counted
      | reference => simp [isReference, use]
    · exact exists_rename?_of_mem found among ofFile member kind

/-- A name between the constant of a semicolon and a comment with the same name. -/
def crowdedLine : Text := "😀 '; lda Foo.x;Foo.x".toList

/-- The file of this line. -/
def crowdedFile : TrackedFile := { uri := .ofPath "/m".toList, contents? := some crowdedLine }

/-- A project of this file, whose symbol is known. -/
def crowded : Project where
  id := ⟨1⟩
  registry := { files := [crowdedFile] }
  result? := some { symbols? := some [{ name := "Foo.x".toList }] }

/-- Behind the name and in front of the comment the cursor is on the name. -/
theorem identifier_in_front_of_comment :
    let symbol : Symbol := { name := "Foo.x".toList }
    let word : Word := ⟨"😀 '; lda ".toList, symbol.name, []⟩
    Text.IsBoundary crowdedLine 15 ∧ identifierAt? crowdedLine 15 = some word ∧ word.IsRun ∧
    (∃ o ∈ Code.occurrences symbol false [crowdedLine],
      o.kind ≠ .comment ∧ o.range = word.range 0) ∧
    (∀ o ∈ Code.occurrences symbol false [crowdedLine], o.kind ≠ .comment →
      ∃ line, [crowdedLine][o.range.start.line]? = some line ∧
        ∀ column, o.range.start.column ≤ column → column ≤ o.range.stop.column →
        ∃ word, identifierAt? line column = some word ∧ word.text = symbol.name ∧
          word.range o.range.start.line = o.range) ∧
    crowded.symbolAt? crowdedFile.uri ⟨0, 12⟩ = some symbol ∧
    ∃ range references, crowded.references? crowdedFile.uri ⟨0, 12⟩ true = some references ∧
      ⟨"file:///m".toList, range⟩ ∈ references := by
  intro symbol word
  obtain ⟨found, occurs, among⟩ := identifier_agrees_with_occurrences
  have boundary : Text.IsBoundary crowdedLine 15 :=
    ⟨crowdedLine.take 14, List.take_prefix _ _, by decide +kernel⟩
  have here : identifierAt? crowdedLine 15 = some word := by decide +kernel
  have known : crowded.symbolAt? crowdedFile.uri ⟨0, 12⟩ = some symbol := by decide +kernel
  have named : crowdedFile.uri.url? = some "file:///m".toList := by decide +kernel
  obtain ⟨run, -, -, -, -, listed⟩ := found crowdedLine 15 word boundary here
  obtain ⟨_, _, _, -, -, -, -, o, -, -, references, -⟩ := among crowded _ _ symbol _ known named
  obtain ⟨references, answer, member⟩ := references true (.inl rfl)
  exact ⟨boundary, here, run, listed symbol false [crowdedLine] 0 rfl rfl,
    occurs symbol false [crowdedLine] (by decide +kernel), known, o.range, references, answer,
    member⟩

end Project

end AsmServer
