import AsmServer.Assembly.Listing
import AsmServer.Proofs.Text.Blanks
import AsmServer.Proofs.Text.Numeral
import AsmServer.Proofs.Text.Search

/-!
# Listings are read as they are laid out

A listing is laid out in sections of lines. A line has its number behind blanks, a flag, the
address, the machine code in a field of twelve bytes and the source text, which is a label in the
first column, a command and a comment behind a tab. Each of these parts is laid out here from
what it stands for, with the conditions under which its layout can be told from its neighbours.

Reading a listing gives a line for every line laid out, in order and with what it was laid out
from, and the file is that of the section.
-/

namespace AsmServer

namespace Listing

open AsmServer.Text

/-! ## The layout -/

/-- The source text of a line. Label, command and comment may be empty, which is to say that
there is none. A command stands behind a blank, since a word in the first column is a label, and
nothing before the comment has a tab, since the first tab begins it. -/
structure Source where
  label : Text
  gap : Text
  command : Text
  comment : Text
  label_solid : ∀ c ∈ label, isBlank c = false
  label_named : label ≠ [] → ∃ c ∈ label, c ≠ ':'
  gap_blank : ∀ c ∈ gap, isBlank c = true
  gap_plain : '\t' ∉ gap ∧ '\n' ∉ gap
  gap_between : command ≠ [] → gap ≠ []
  command_trimmed : Trimmed command
  command_plain : '\t' ∉ command ∧ '\n' ∉ command
  comment_trimmed : Trimmed comment
  comment_plain : '\n' ∉ comment
  comment_bare : comment.head? ≠ some ';'

/-- The comment with the tab and the semicolon that introduce it. -/
def Source.remark (source : Source) : Text :=
  if source.comment = [] then [] else '\t' :: ';' :: source.comment

/-- What stands before the comment. -/
def Source.code (source : Source) : Text := source.label ++ (source.gap ++ source.command)

def Source.text (source : Source) : Text := source.code ++ source.remark

/-- The label as it is known: without the colons at its end. -/
def Source.labelName? (source : Source) : Option Text :=
  if source.label = [] then none else some (dropEndWhile (· = ':') source.label)

/-- A byte of machine code, as two digits. -/
structure ByteGroup where
  high : Digit 16
  low : Digit 16

namespace ByteGroup

def value (group : ByteGroup) : Nat := 16 * group.high.value + group.low.value

def text (group : ByteGroup) : Text := [group.high.char, group.low.char]

end ByteGroup

/-- A line of a listing, laid out. The flag has one byte, since the fields behind the number are
cut by bytes, and the field for the machine code has room for four. -/
structure Line where
  /-- Spaces before the number. -/
  indent : Nat
  number : Numeral 10 bound32
  flag : Char
  address : Numeral 16 bound32
  groups : List ByteGroup
  source : Source
  flag_ascii : flag.toNat < 0x80
  flag_inline : flag ≠ '\n'
  groups_fit : 3 * groups.length ≤ codeField

namespace Line

/-- The machine code field. -/
def code (line : Line) : Text :=
  line.groups.flatMap (fun group => group.text ++ [' '])
    ++ List.replicate (codeField - 3 * line.groups.length) ' '

/-- A source text with the address and the machine code before it. -/
def addressed (line : Line) (source : Text) : Text :=
  line.address.text ++ ' ' :: (line.code ++ source)

/-- A source text with all fields of the line before it. -/
def before (line : Line) (source : Text) : Text :=
  List.replicate line.indent ' ' ++
    (line.number.text ++ ' ' :: line.flag :: line.addressed source)

def text (line : Line) : Text := line.before line.source.text

/-- The line as it is to be read. -/
def listed (line : Line) (file? : Option Text) : ListingLine where
  number := line.number.value
  file?
  address := line.address.value
  bytes? := if line.groups = [] then none else some (line.groups.map ByteGroup.value)
  raw := trimEnd line.source.text
  comment? := nonempty? line.source.comment
  command? := nonempty? line.source.command

end Line

/-- A section of a listing: the lines of one file. The name ends where ` LEVEL ` follows, so it
has nothing that begins like it, and a lead `./` would be taken off. -/
structure Section where
  name : Text
  level : Nat
  pass : Nat
  lines : List Line
  name_trimmed : Trimmed name
  name_inline : '\n' ∉ name
  name_level : ¬" LEVEL".toList <:+: name
  name_here : ¬"./".toList <+: name

namespace Section

/-- The header without its lead. -/
def title (s : Section) : Text :=
  s.name ++ (" LEVEL ".toList ++ (ofNat 10 s.level ++ (" PASS ".toList ++ ofNat 10 s.pass)))

def header (s : Section) : Text := headerLead ++ s.title

/-- The file of the section: none for the entry file. -/
def file? (entry : Text) (s : Section) : Option Text := if s.name = entry then none else some s.name

/-- The header and the lines. -/
def texts (s : Section) : List Text := s.header :: s.lines.map Line.text

end Section

/-- The text of a listing. -/
def render (sections : List Section) : Text :=
  (sections.flatMap Section.texts).flatMap fun line => line ++ ['\n']

/-! ## Source texts -/

namespace Source

variable {source : Source} {text : Text}

theorem breaks_remark (source : Source) : Breaks source.remark := by
  unfold remark
  split
  · simp [Breaks]
  · simp [Breaks, isBlank]

/-- Behind the label stands a blank, if anything. -/
theorem breaks (source : Source) : Breaks (source.gap ++ source.command ++ source.remark) := by
  cases gap : source.gap with
  | nil =>
    have empty : source.command = [] := by_contra fun some => source.gap_between some gap
    simpa [empty] using source.breaks_remark
  | cons c rest =>
    intro first same
    obtain rfl : c = first := by simpa using same
    exact source.gap_blank c (by simp [gap])

theorem label_last (source : Source) : ∀ c ∈ source.label.getLast?, isBlank c = false :=
  fun c last => source.label_solid c (List.mem_of_getLast? last)

/-- After a word in the first column, the rest is the command. -/
theorem commandOf_append {word rest : Text} (solid : ∀ c ∈ word, isBlank c = false)
    (breaks : Breaks rest) : commandOf (word ++ rest) = trim rest := by
  have behind : (word ++ rest).dropWhile (!isBlank ·) = rest.dropWhile (!isBlank ·) :=
    List.dropWhile_append_of_pos (by simpa using solid)
  have stays : rest.dropWhile (!isBlank ·) = rest := by
    cases rest with
    | nil => rfl
    | cons c more => simp [breaks c rfl]
  unfold commandOf
  split
  · next starts =>
    cases word with
    | nil => rfl
    | cons c more => simp [startsBlank, solid c] at starts
  · rw [behind, stays]

/-- The command of a code is what was laid out. -/
theorem commandOf_code (source : Source) : commandOf (trimEnd source.code) = source.command := by
  have breaks : Breaks (trimEnd (source.gap ++ source.command)) :=
    (source.breaks.part (List.prefix_append _ _)).part (trimEnd_isPrefix _)
  rw [code, trimEnd_append source.label_last, commandOf_append source.label_solid breaks,
    trim_trimEnd, trim, trimStart_append source.gap_blank]
  exact source.command_trimmed.trim_eq

theorem tab_not_mem_code (source : Source) : '\t' ∉ source.code := by
  simp only [code, List.mem_append, not_or]
  exact ⟨fun within => absurd (source.label_solid _ within) (by decide), source.gap_plain.1,
    source.command_plain.1⟩

theorem newline_not_mem_text (source : Source) : '\n' ∉ source.text := by
  have remark : '\n' ∉ source.remark := by
    unfold Source.remark
    split
    · simp
    · simpa using source.comment_plain
  simp only [Source.text, code, List.mem_append, not_or]
  exact ⟨⟨fun within => absurd (source.label_solid _ within) (by decide), source.gap_plain.2,
    source.command_plain.2⟩, remark⟩

theorem splitComment_of_not_mem (plain : '\t' ∉ text) : splitComment text = (text, []) := by
  have absent : ¬['\t'] <:+: text := fun within => plain (singleton_infix_iff.mp within)
  simp [splitComment, cutAt?_eq_none absent]

theorem splitComment_append (plain : '\t' ∉ text) (comment : Text) :
    splitComment (text ++ '\t' :: comment) = (text, comment) := by
  have cut : cutAt? ['\t'] (text ++ '\t' :: comment) = some (text, comment) :=
    cutAt?_singleton_eq_some_iff.mpr ⟨rfl, plain⟩
  simp [splitComment, cut]

theorem trimmed_marked (source : Source) : Trimmed (';' :: source.comment) where
  first := by simp [isBlank]
  last := by
    intro c last
    cases comment : source.comment with
    | nil =>
      obtain rfl : ';' = c := by simpa [comment] using last
      decide
    | cons d rest =>
      refine source.comment_trimmed.last c ?_
      simpa [comment] using last

/-- A comment is read without the semicolon before it. -/
theorem commentOf_comment (source : Source) :
    commentOf (';' :: source.comment) = source.comment := by
  have bare : source.comment.dropWhile (· = ';') = source.comment := by
    cases text : source.comment with
    | nil => rfl
    | cons c rest =>
      have other : c ≠ ';' := fun same => source.comment_bare (by rw [text, same]; rfl)
      simp [other]
  simp [commentOf, source.trimmed_marked.trim_eq, bare, source.comment_trimmed.trim_eq]

/-- A carriage return at the end of the source text does not matter to any part of it. -/
theorem parts_dropReturn (source : Source) :
    trimEnd (dropReturn source.text) = trimEnd source.text ∧
      commandOf (trimEnd (splitComment (dropReturn source.text)).1) = source.command ∧
      commentOf (splitComment (dropReturn source.text)).2 = source.comment := by
  obtain ⟨gap, blank, whole⟩ := exists_dropReturn_append source.text
  have trims : trimEnd (dropReturn source.text) = trimEnd source.text := by
    conv_rhs => rw [whole, trimEnd_append_blank _ blank]
  refine ⟨trims, ?_⟩
  cases comment : source.comment with
  | nil =>
    have text : source.text = source.code := by simp [Source.text, remark, comment]
    have plain : '\t' ∉ dropReturn source.text := fun within =>
      source.tab_not_mem_code (text ▸ whole ▸ List.mem_append_left _ within)
    rw [splitComment_of_not_mem plain, trims, text]
    exact ⟨source.commandOf_code, rfl⟩
  | cons c rest =>
    have some : source.comment ≠ [] := by simp [comment]
    have text : source.text = source.code ++ '\t' :: ';' :: source.comment := by
      simp [Source.text, remark, some]
    have stays : dropReturn source.text = source.text := by
      rw [text, List.append_cons, dropReturn_append _ (by simp),
        dropReturn_of_last source.trimmed_marked.last]
    rw [stays, text, splitComment_append source.tab_not_mem_code, source.commentOf_comment]
    exact ⟨source.commandOf_code, comment⟩

/-- What no blank begins has the first word as its label. -/
theorem label?_append {word rest : Text} {line : ListingLine}
    (solid : ∀ c ∈ word, isBlank c = false) (breaks : Breaks rest)
    (raw : line.raw = word ++ rest) :
    label? line = if word = [] then none else nonempty? (dropEndWhile (· = ':') word) := by
  unfold label?
  rw [raw]
  cases word with
  | nil =>
    cases rest with
    | nil => rfl
    | cons c more => simp [startsBlank, breaks c rfl]
  | cons c more =>
    have starts : startsBlank (c :: more ++ rest) = false := solid c List.mem_cons_self
    have some : c :: more ≠ [] := List.cons_ne_nil c more
    rw [starts, words_append solid some breaks]
    simp

/-- The label is what stands in the first column. -/
theorem label?_eq (source : Source) {line : ListingLine} (raw : line.raw = trimEnd source.text) :
    label? line = source.labelName? := by
  have text : trimEnd source.text
      = source.label ++ trimEnd (source.gap ++ source.command ++ source.remark) := by
    rw [← trimEnd_append source.label_last, Source.text, code]
    simp only [List.append_assoc]
  have breaks := source.breaks.part (trimEnd_isPrefix _)
  rw [label?_append source.label_solid breaks (raw.trans text), labelName?]
  refine ite_congr rfl (fun _ => rfl) fun some => ?_
  obtain ⟨c, member, other⟩ := source.label_named some
  have named : dropEndWhile (· = ':') source.label ≠ [] := fun empty =>
    other (by simpa using List.rdropWhile_eq_nil_iff.mp empty c member)
  rw [nonempty?, if_neg named]

end Source

/-! ## Lines -/

namespace ByteGroup

theorem denoted_digits (group : ByteGroup) : denoted [group.high, group.low] = group.value := by
  simp [denoted, value, Nat.ofDigits_cons, Nat.add_comm]

theorem value_lt (group : ByteGroup) : group.value < bound8 := by
  have high := group.high.value.isLt
  have low := group.low.value.isLt
  unfold value bound8
  omega

/-- The digits of a byte, as a numeral. -/
def numeral (group : ByteGroup) : Numeral 16 bound8 where
  digits := [group.high, group.low]
  some := List.cons_ne_nil _ _
  small := group.denoted_digits ▸ group.value_lt

theorem solid (group : ByteGroup) : ∀ c ∈ group.text, isBlank c = false :=
  legible_sixteen.solid group.numeral

theorem readNat?_text (group : ByteGroup) : readNat? 16 bound8 group.text = some group.value :=
  (legible_sixteen.readNat?_text group.numeral).trans (congrArg some group.denoted_digits)

end ByteGroup

namespace Line

/-- The words of the machine code field are its bytes. -/
theorem words_groups (groups : List ByteGroup) (n : Nat) :
    words (groups.flatMap (fun group => group.text ++ [' ']) ++ List.replicate n ' ')
      = groups.map ByteGroup.text := by
  induction groups with
  | nil =>
    induction n with
    | zero => rfl
    | succ n ih => exact (words_append_blank [] (by decide) (List.replicate n ' ')).trans ih
  | cons group rest ih =>
    rw [List.flatMap_cons, List.append_assoc, List.append_assoc, List.singleton_append,
      words_append_blank _ (by decide), ih, words_of_word group.solid (List.cons_ne_nil _ _)]
    rfl

variable (line : Line)

/-- Whatever the number of bytes, the field ends with a space. -/
theorem exists_code_eq : ∃ front, line.code = front ++ [' '] := by
  have fits := line.groups_fit
  unfold code
  rcases List.eq_nil_or_concat line.groups with none | ⟨init, group, some⟩
  · exact ⟨List.replicate 11 ' ', by rw [none]; rfl⟩
  · refine ⟨init.flatMap (fun group => group.text ++ [' ']) ++ (group.text ++
      List.replicate (codeField - 3 * line.groups.length) ' '), ?_⟩
    rw [some, List.concat_eq_append, List.flatMap_append]
    simp [← List.replicate_succ', List.replicate_succ]

/-- The field has nothing but digits and spaces. -/
theorem forall_mem_code (p : Char → Prop) (digits : ∀ digit : Digit 16, p digit.char)
    (space : p ' ') : ∀ c ∈ line.code, p c := by
  intro c member
  rcases List.mem_append.mp member with byte | blank
  · obtain ⟨group, -, within⟩ := List.mem_flatMap.mp byte
    rcases List.mem_append.mp within with digit | blank
    · exact group.numeral.forall_mem_text p digits c digit
    · exact List.mem_singleton.mp blank ▸ space
  · exact (List.mem_replicate.mp blank).2 ▸ space

theorem length_code : line.code.length = codeField := by
  have three : ∀ group : ByteGroup, (group.text ++ [' ']).length = 3 := fun _ => rfl
  have fits := line.groups_fit
  simp only [code, List.length_append, List.length_flatMap, three, List.length_replicate,
    List.map_const', List.sum_replicate_nat]
  omega

theorem byteSize_code : byteSize line.code = codeField := by
  have ascii : ∀ c ∈ line.code, c.toNat < 0x80 :=
    line.forall_mem_code (·.toNat < 0x80) (fun digit => (legible_sixteen digit).2.2.2) (by decide)
  rw [byteSize_of_ascii ascii, line.length_code]

theorem dropBytes?_code (source : Text) :
    dropBytes? codeField (line.code ++ source) = some source := by
  rw [← line.byteSize_code, dropBytes?_byteSize_append]

/-- The last byte of the field is left out, which is a space. -/
theorem exists_takeBytes?_code (source : Text) :
    ∃ front, takeBytes? (codeField - 1) (line.code ++ source) = some front ∧
      (words front).filterMap (readNat? 16 bound8) = line.groups.map ByteGroup.value := by
  obtain ⟨front, field⟩ := line.exists_code_eq
  have size : byteSize front + 1 = codeField := by
    have whole := line.byteSize_code
    rwa [field, byteSize_append] at whole
  refine ⟨front, ?_, ?_⟩
  · rw [← size, Nat.add_sub_cancel, field, List.append_assoc, takeBytes?_byteSize_append]
  · have same : words front = line.groups.map ByteGroup.text := by
      rw [← words_groups line.groups (codeField - 3 * line.groups.length)]
      change words front = words line.code
      rw [field, words_append_blank front (by decide) []]
      exact (List.append_nil _).symm
    rw [same, List.filterMap_map, ← List.filterMap_eq_map]
    exact List.filterMap_congr fun group _ => group.readNat?_text

/-- A run of characters of one kind is cut off where another kind follows. -/
theorem span_append {p : Char → Bool} {run : Text} (inside : ∀ c ∈ run, p c = true) {c : Char}
    (outside : p c = false) (rest : Text) :
    (run ++ c :: rest).takeWhile p = run ∧ (run ++ c :: rest).dropWhile p = c :: rest := by
  rw [List.takeWhile_append_of_pos inside, List.dropWhile_append_of_pos inside]
  simp [outside]

theorem trimStart_before (source : Text) : trimStart (line.before source)
    = line.number.text ++ ' ' :: line.flag :: line.addressed source := by
  have blank : ∀ c ∈ List.replicate line.indent ' ', isBlank c = true := by
    simp [List.mem_replicate, isBlank]
  refine (trimStart_append blank _).trans (trimStart_of_first fun c first => ?_)
  rw [List.head?_append_of_ne_nil _ line.number.text_ne_nil] at first
  exact legible_ten.solid line.number c (List.mem_of_mem_head? first)

theorem dropBytes?_flag (rest : Text) : dropBytes? 2 (' ' :: line.flag :: rest) = some rest := by
  have two : byteSize [' ', line.flag] = 2 := by
    simp [utf8Size_of_ascii line.flag_ascii, utf8Size_of_ascii]
  exact two ▸ dropBytes?_byteSize_append [' ', line.flag] rest

theorem dropBytes?_space (rest : Text) : dropBytes? 1 (' ' :: rest) = some rest :=
  dropBytes?_byteSize_append [' '] rest

/-- A line is read from its fields, whatever its source text is. -/
theorem lineOf?_before (file? : Option Text) (source : Text) :
    lineOf? file? (line.before source) = some {
      number := line.number.value
      file?
      address := line.address.value
      bytes? := if line.groups = [] then none else some (line.groups.map ByteGroup.value)
      raw := trimEnd source
      comment? := nonempty? (commentOf (splitComment source).2)
      command? := nonempty? (commandOf (trimEnd (splitComment source).1)) } := by
  have number : readNat? 10 bound32 line.number.text = some line.number.value :=
    legible_ten.readNat?_text _
  have address : readNat? 16 bound32 line.address.text = some line.address.value :=
    legible_sixteen.readNat?_text _
  obtain ⟨front, field, bytes⟩ := line.exists_takeBytes?_code source
  have solid : ∀ c ∈ line.address.text, (!isBlank c) = true := fun c member => by
    simp [legible_sixteen.solid line.address c member]
  obtain ⟨digits, behind⟩ := span_append (line.number.forall_mem_text _ isDigit_char)
    (show Char.isDigit ' ' = false by decide) (line.flag :: line.addressed source)
  obtain ⟨word, next⟩ : (line.addressed source).takeWhile (!isBlank ·) = line.address.text ∧
      (line.addressed source).dropWhile (!isBlank ·) = ' ' :: (line.code ++ source) :=
    span_append solid (show (!isBlank ' ') = false by decide) _
  simp only [lineOf?, line.trimStart_before, digits, behind, number, dropBytes?_flag, word, next,
    dropBytes?_space, field, bytes, address, dropBytes?_code, Option.getD_some,
    List.map_eq_nil_iff]
  rfl

theorem dropReturn_before (source : Text) :
    dropReturn (line.before source) = line.before (dropReturn source) := by
  obtain ⟨front, field⟩ := line.exists_code_eq
  have split (rest : Text) : line.before rest = (List.replicate line.indent ' ' ++
      (line.number.text ++ ' ' :: line.flag :: (line.address.text ++ ' ' :: line.code))) ++
        rest := by
    simp [before, addressed]
  rw [split, split]
  refine dropReturn_append _ fun _ => ?_
  simp [field, List.getLast?_append, List.getLast?_cons]

/-- A line is read as what it was laid out from. -/
theorem lineOf?_text (file? : Option Text) :
    lineOf? file? (dropReturn line.text) = some (line.listed file?) := by
  obtain ⟨raw, command, comment⟩ := line.source.parts_dropReturn
  rw [text, dropReturn_before, lineOf?_before, raw, command, comment]
  rfl

theorem newline_not_mem_text : '\n' ∉ line.text := by
  have number : '\n' ∉ line.number.text := fun within =>
    absurd (legible_ten.solid line.number _ within) (by decide)
  have address : '\n' ∉ line.address.text := fun within =>
    absurd (legible_sixteen.solid line.address _ within) (by decide)
  have digits (digit : Digit 16) : digit.char ≠ '\n' := fun same =>
    absurd (same ▸ (legible_sixteen digit).2.1) (by decide)
  have code : '\n' ∉ line.code := fun within =>
    line.forall_mem_code (· ≠ '\n') digits (by decide) _ within rfl
  simp [text, before, addressed, number, address, code, line.flag_inline.symm,
    line.source.newline_not_mem_text, List.mem_replicate]

/-- No line looks like a header: it begins with a space or a digit. -/
theorem afterLead?_text : afterLead? headerLead (dropReturn line.text) = none := by
  refine Option.eq_none_iff_forall_ne_some.mpr fun rest found => ?_
  have lead : (line.before (dropReturn line.source.text)).head? = some '-' := by
    rw [← dropReturn_before]
    exact congrArg List.head? (afterLead?_eq_some_iff.mp found)
  cases indent : line.indent with
  | zero =>
    rw [before, indent, List.replicate_zero, List.nil_append,
      List.head?_append_of_ne_nil _ line.number.text_ne_nil] at lead
    have digit : Char.isDigit '-' = true :=
      line.number.forall_mem_text (Char.isDigit · = true) isDigit_char _
        (List.mem_of_mem_head? lead)
    exact absurd digit (by decide)
  | succ n => simp [before, indent, List.replicate_succ] at lead

end Line

/-! ## Sections -/

/-- A name without blanks around it and `./` in front is the name of its file. -/
theorem attributedFile?_of_trimmed {name : Text} (trimmed : Trimmed name)
    (here : ¬"./".toList <+: name) (entry : Text) :
    attributedFile? entry name = if name = entry then none else some name := by
  have kept : Path.dropHere name = name := by
    rw [Path.dropHere.eq_def]
    split
    · next rest => exact absurd ⟨rest, rfl⟩ here
    · rfl
  simp only [attributedFile?, trimmed.trim_eq, kept]

namespace Section

variable (s : Section)

/-- The file of a header is that of its section. -/
theorem headerFile?_title (entry : Text) : headerFile? entry s.title = s.file? entry := by
  have cut : cutAt? " LEVEL ".toList s.title
      = some (s.name, ofNat 10 s.level ++ (" PASS ".toList ++ ofNat 10 s.pass)) :=
    cutAt?_append (by decide) s.name_level [' '] _
  rw [headerFile?, cut, Option.map_some, Option.getD_some, s.name_trimmed.trim_eq,
    attributedFile?_of_trimmed s.name_trimmed s.name_here, file?]

theorem newline_not_mem_header : '\n' ∉ s.header := by
  have number : ∀ n, '\n' ∉ ofNat 10 n := not_mem_ofNat (by decide)
  simp only [header, title, List.mem_append, not_or]
  exact ⟨by decide, s.name_inline, by decide, number _, by decide, number _⟩

/-- A header ends with a digit. -/
theorem dropReturn_header : dropReturn s.header = s.header := by
  have split : s.header = headerLead ++ (s.name ++ (" LEVEL ".toList ++ (ofNat 10 s.level ++
      " PASS ".toList))) ++ ofNat 10 s.pass := by
    simp only [header, title, List.append_assoc]
  refine if_neg fun ends => ?_
  rw [split, List.getLast?_append_of_ne_nil _ (ofNat_ne_nil _)] at ends
  exact not_mem_ofNat (by decide) _ (List.mem_of_getLast? ends)

/-- The lines of a section are read as of its file, and then what follows. -/
theorem linesFrom_texts (entry : Text) (file? : Option Text) (rest : List Text) :
    linesFrom entry file? (s.texts.map dropReturn ++ rest)
      = s.lines.map (Line.listed · (s.file? entry)) ++ linesFrom entry (s.file? entry) rest := by
  have lead : afterLead? headerLead s.header = some s.title := afterLead?_append _ _
  have lines : ∀ lines : List Line,
      linesFrom entry (s.file? entry) ((lines.map Line.text).map dropReturn ++ rest)
        = lines.map (Line.listed · (s.file? entry)) ++ linesFrom entry (s.file? entry) rest := by
    intro lines
    induction lines with
    | nil => rfl
    | cons line others ih =>
      rw [List.map_cons, List.map_cons, List.cons_append, linesFrom]
      simp only [line.afterLead?_text, line.lineOf?_text, ih, Option.toList_some, List.map_cons,
        List.cons_append, List.nil_append]
  rw [texts, List.map_cons, List.cons_append, linesFrom]
  simp only [s.dropReturn_header, lead, s.headerFile?_title, lines]

theorem newline_not_mem_texts : ∀ text ∈ s.texts, '\n' ∉ text :=
  List.forall_mem_cons.mpr ⟨s.newline_not_mem_header,
    List.forall_mem_map.mpr fun line _ => line.newline_not_mem_text⟩

end Section

/-! ## The law -/

theorem linesFrom_sections (entry : Text) (sections : List Section) (file? : Option Text) :
    linesFrom entry file? ((sections.flatMap Section.texts).map dropReturn)
      = sections.flatMap fun s => s.lines.map (Line.listed · (s.file? entry)) := by
  induction sections generalizing file? with
  | nil => rfl
  | cons s rest ih =>
    rw [List.flatMap_cons, List.map_append, s.linesFrom_texts, ih, List.flatMap_cons]

theorem parse_eq (entry : Text) (sections : List Section) : parse entry (render sections)
    = sections.flatMap fun s => s.lines.map (Line.listed · (s.file? entry)) := by
  have whole : ∀ text ∈ sections.flatMap Section.texts, '\n' ∉ text := by
    intro text member
    obtain ⟨s, -, within⟩ := List.mem_flatMap.mp member
    exact s.newline_not_mem_texts text within
  rw [parse, render, streamLines_flatMap whole, linesFrom_sections]

/-- A listing is read as what it was laid out from: a line for every line, in order, with the
file of its section, and the label of each line is what stands in its first column. -/
theorem parse_render (entry : Text) (sections : List Section) :
    parse entry (render sections)
        = (sections.flatMap fun s => s.lines.map (Line.listed · (s.file? entry))) ∧
      (parse entry (render sections)).map label?
        = sections.flatMap fun s => s.lines.map (·.source.labelName?) := by
  refine ⟨parse_eq entry sections, ?_⟩
  rw [parse_eq, List.map_flatMap]
  refine List.flatMap_congr fun s _ => ?_
  rw [List.map_map]
  exact List.map_congr_left fun line _ => line.source.label?_eq rfl

/-- The line of an instruction with all that a line may have. -/
def instruction : Line where
  indent := 3
  number := { digits := [⟨1, false⟩, ⟨2, false⟩], some := by decide, small := by decide }
  flag := ' '
  address :=
    { digits := [⟨15, false⟩, ⟨0, false⟩, ⟨0, false⟩, ⟨0, false⟩]
      some := by decide, small := by decide }
  groups := [⟨⟨10, false⟩, ⟨9, false⟩⟩, ⟨⟨0, false⟩, ⟨0, false⟩⟩]
  source :=
    { label := "Start:".toList, gap := "     ".toList, command := "lda   #0".toList
      comment := "comment".toList
      label_solid := by simp [isBlank], label_named := fun _ => ⟨'S', by decide, by decide⟩
      gap_blank := by simp [isBlank], gap_plain := by decide, gap_between := by decide
      command_trimmed := ⟨by simp [isBlank], by simp [isBlank]⟩, command_plain := by decide
      comment_trimmed := ⟨by simp [isBlank], by simp [isBlank]⟩, comment_plain := by decide
      comment_bare := by decide }
  flag_ascii := by decide
  flag_inline := by decide
  groups_fit := by decide

def mainSection : Section where
  name := "main.asm".toList
  level := 1
  pass := 2
  lines := [instruction]
  name_trimmed := ⟨by simp [isBlank], by simp [isBlank]⟩
  name_inline := by decide
  name_level := fun within =>
    absurd (within.subset (show ' ' ∈ " LEVEL".toList by decide)) (by decide)
  name_here := by decide

theorem instruction_is_read_back :
    parse "main.asm".toList ("------- FILE main.asm LEVEL 1 PASS 2\n".toList ++
        "   12  f000 a9 00       Start:     lda   #0\t;comment\n".toList)
      = [{ number := 12
           address := 0xf000
           bytes? := some [0xa9, 0x00]
           raw := "Start:     lda   #0\t;comment".toList
           comment? := some "comment".toList
           command? := some "lda   #0".toList }] := by
  have text : render [mainSection] = "------- FILE main.asm LEVEL 1 PASS 2\n".toList ++
      "   12  f000 a9 00       Start:     lda   #0\t;comment\n".toList := by decide
  rw [← text, (parse_render "main.asm".toList [mainSection]).1]
  decide

end Listing

end AsmServer
