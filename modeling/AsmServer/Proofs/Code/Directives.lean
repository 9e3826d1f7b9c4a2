import AsmServer.Code.Include
import AsmServer.Proofs.Code.Cursor

/-!
# Include directives on a line

A line with an include directive is laid out from a label or none, blanks, dots and the keyword,
blanks, the argument, blanks and a comment or none. Every such line is read as that directive, with
the columns of its argument. A quoted argument may show what would end a bare one.

Conversely every directive that is read stands for a word of the code: words are cut from the left
one after the other, and none of them is lost or reaches into the comment.
-/

namespace AsmServer

namespace Code

variable {t rest seen gap name label argument line : Text} {word : Word} {number : Nat}
  {link : Include} {lines : List Text}

/-! ## Layout -/

/-- Spaces and tabs. -/
def IsGap (t : Text) : Prop := ∀ c ∈ t, c = ' ' ∨ c = '\t'

/-- A word that needs no quotes. -/
def IsBare (t : Text) : Prop :=
  t ≠ [] ∧ ∀ c ∈ t, Text.isAsciiBlank c = false ∧ c ≠ '"' ∧ c ≠ '\'' ∧ c ≠ ';'

/-- How an argument spells a name. -/
inductive Spells : Text → Text → Prop
  | bare {name : Text} (bare : IsBare name) : Spells name name
  | quoted {name : Text} (some : name ≠ []) (closed : '"' ∉ name) :
      Spells ('"' :: name ++ ['"']) name

/-- A line with an include directive. -/
structure DirectiveLine where
  /-- Empty if there is none. -/
  label : Text
  indent : Text
  dots : Nat
  keyword : Text
  space : Text
  argument : Text
  /-- The file that the argument names. -/
  name : Text
  trail : Text
  /-- With its semicolon; empty if there is none. -/
  comment : Text
  labelled : label = [] ∨ IsBare label
  indented : indent ≠ [] ∧ IsGap indent
  /-- Each letter may be a capital. -/
  includes : List.Forall₂ (fun c letter => c = letter ∨ c = letter.toUpper) keyword "include".toList
  spaced : space ≠ [] ∧ IsGap space
  spells : Spells argument name
  trailed : IsGap trail
  commented : comment = [] ∨ ∃ text, comment = ';' :: text

namespace DirectiveLine

/-- What stands in front of the argument. -/
def before (d : DirectiveLine) : Text :=
  d.label ++ d.indent ++ (List.replicate d.dots '.' ++ d.keyword) ++ d.space

/-- The whole line. -/
def text (d : DirectiveLine) : Text := d.before ++ d.argument ++ d.trail ++ d.comment

end DirectiveLine

/-! ## Words -/

/-- The words of a text, each found behind the one before it. -/
inductive Word.On (t : Text) : Word → Prop
  | first {word : Word} (first : Word.first? t = some word) : On t word
  | next {word word' : Word} (on : On t word) (next : word.following? = some word') : On t word'

theorem cut_append (t : Text) : (Word.cut t).1 ++ (Word.cut t).2 = t := by
  unfold Word.cut
  split
  · next body =>
    have parts := List.takeWhile_append_dropWhile (p := (· ≠ '"')) (l := body)
    dsimp only
    split
    · next none =>
      rw [none, List.append_nil] at parts
      rw [parts, List.append_nil]
    · next quote rest some =>
      rw [some] at parts
      rw [List.append_assoc, List.singleton_append, List.cons_append, parts]
  · exact List.takeWhile_append_dropWhile

/-- A word is cut off nonblank text. -/
theorem cut_ne_nil {c : Char} (solid : Text.isAsciiBlank c = false) :
    (Word.cut (c :: rest)).1 ≠ [] := by
  unfold Word.cut
  split
  · dsimp only
    split <;> simp
  · simp [solid]

/-- The next word is cut off behind the blanks, unless there is nothing else. -/
theorem next?_eq (seen rest : Text) : Word.next? seen rest =
    if rest.dropWhile Text.isAsciiBlank = [] then none
    else some ⟨seen ++ rest.takeWhile Text.isAsciiBlank,
      (Word.cut (rest.dropWhile Text.isAsciiBlank)).1,
      (Word.cut (rest.dropWhile Text.isAsciiBlank)).2⟩ := by
  unfold Word.next?
  generalize rest.dropWhile Text.isAsciiBlank = body
  cases body with
  | nil => rfl
  | cons c body => rfl

/-- Nothing is lost between words. -/
theorem line_of_next? (found : Word.next? seen rest = some word) :
    word.line = seen ++ rest ∧ word.text ≠ [] := by
  rw [next?_eq] at found
  split at found
  · cases found
  · next some =>
    cases found
    obtain ⟨c, body, start⟩ := List.exists_cons_of_ne_nil some
    have solid := List.head?_dropWhile_not Text.isAsciiBlank rest
    rw [start, List.head?_cons] at solid
    refine ⟨?_, ?_⟩
    · rw [Word.line, List.append_assoc, cut_append, List.append_assoc,
        List.takeWhile_append_dropWhile]
    · rw [start]
      exact cut_ne_nil (by simpa using solid)

theorem Word.On.line_eq (on : word.On t) : word.line = t ∧ word.text ≠ [] := by
  induction on with
  | first first => exact line_of_next? first
  | next _ next ih =>
    obtain ⟨whole, some⟩ := line_of_next? next
    exact ⟨whole.trans ih.1, some⟩

/-- Behind blanks a word is found that would be cut off alone. -/
theorem next?_of_cut {c : Char} {body : Text} (blank : ∀ c ∈ gap, Text.isAsciiBlank c = true)
    (solid : Text.isAsciiBlank c = false) (cut : Word.cut (c :: body ++ rest) = (c :: body, rest)) :
    Word.next? seen (gap ++ (c :: body) ++ rest) = some ⟨seen ++ gap, c :: body, rest⟩ := by
  have start : (gap ++ (c :: body) ++ rest).dropWhile Text.isAsciiBlank = c :: body ++ rest := by
    rw [List.append_assoc, List.dropWhile_append_of_pos blank]
    simp [solid]
  have front : (gap ++ (c :: body) ++ rest).takeWhile Text.isAsciiBlank = gap := by
    rw [List.append_assoc, List.takeWhile_append_of_pos blank]
    simp [solid]
  rw [next?_eq, start, front, cut, if_neg (by simp)]

/-- No bare word goes on at the start of the text. -/
def Parts (t : Text) : Prop := ∀ c ∈ t.head?, Text.isAsciiBlank c = true

theorem next?_bare (blank : ∀ c ∈ gap, Text.isAsciiBlank c = true) (bare : IsBare name)
    (parts : Parts rest) :
    Word.next? seen (gap ++ name ++ rest) = some ⟨seen ++ gap, name, rest⟩ := by
  obtain ⟨some, plain⟩ := bare
  have stop : rest.takeWhile (!Text.isAsciiBlank ·) = [] ∧
      rest.dropWhile (!Text.isAsciiBlank ·) = rest := by
    cases rest with
    | nil => exact ⟨rfl, rfl⟩
    | cons d others => simp [parts d rfl]
  have whole : (name ++ rest).takeWhile (!Text.isAsciiBlank ·) = name := by
    rw [List.takeWhile_append_of_pos (by simpa using fun c member => (plain c member).1), stop.1,
      List.append_nil]
  have behind : (name ++ rest).dropWhile (!Text.isAsciiBlank ·) = rest := by
    rw [List.dropWhile_append_of_pos (by simpa using fun c member => (plain c member).1), stop.2]
  obtain ⟨c, body, rfl⟩ := List.exists_cons_of_ne_nil some
  obtain ⟨solid, unquoted, -⟩ := plain c List.mem_cons_self
  refine next?_of_cut blank solid ?_
  unfold Word.cut
  split
  · next quote => exact absurd (List.cons.inj quote).1 unquoted
  · rw [whole, behind]

theorem next?_quoted (blank : ∀ c ∈ gap, Text.isAsciiBlank c = true) (closed : '"' ∉ name) :
    Word.next? seen (gap ++ ('"' :: name ++ ['"']) ++ rest) =
      some ⟨seen ++ gap, '"' :: name ++ ['"'], rest⟩ := by
  have inside : ∀ c ∈ name, decide (c ≠ '"') = true := fun c member =>
    decide_eq_true (ne_of_mem_of_not_mem member closed)
  have body : (name ++ '"' :: rest).takeWhile (· ≠ '"') = name := by
    rw [List.takeWhile_append_of_pos inside]
    simp
  have behind : (name ++ '"' :: rest).dropWhile (· ≠ '"') = '"' :: rest := by
    rw [List.dropWhile_append_of_pos inside]
    simp
  have text : '"' :: (name ++ ['"']) ++ rest = '"' :: (name ++ '"' :: rest) := by simp
  have cut : Word.cut ('"' :: (name ++ ['"']) ++ rest) = ('"' :: (name ++ ['"']), rest) := by
    rw [text, Word.cut, body, behind]
    rfl
  exact next?_of_cut blank (by decide) cut

/-! ## Code -/

theorem codeFrom_append_of_plain (plain : ∀ c ∈ t, c ≠ '"' ∧ c ≠ '\'' ∧ c ≠ ';') (rest : Text) :
    codeFrom .plain (t ++ rest) = t ++ codeFrom .plain rest := by
  induction t with
  | nil => rfl
  | cons c others ih =>
    obtain ⟨⟨double, single, mark⟩, plain⟩ := List.forall_mem_cons.mp plain
    simp [codeFrom, Place.next, double, single, mark, ih plain]

/-- A string is code to its end. -/
theorem codeFrom_append_of_quoted (closed : '"' ∉ name) (rest : Text) :
    codeFrom .plain ('"' :: name ++ ['"'] ++ rest) =
      '"' :: name ++ ['"'] ++ codeFrom .plain rest := by
  have inside : codeFrom .quoted (name ++ '"' :: rest) = name ++ '"' :: codeFrom .plain rest := by
    induction name with
    | nil => simp [codeFrom, Place.next]
    | cons c others ih =>
      obtain ⟨other, closed⟩ := not_or.mp (List.mem_cons.not.mp closed)
      simp [codeFrom, Place.next, Ne.symm other, ih closed]
  simp [codeFrom, Place.next, inside]

theorem IsGap.blank (h : IsGap gap) : ∀ c ∈ gap, Text.isAsciiBlank c = true := by
  intro c member
  rcases h c member with rfl | rfl <;> rfl

theorem IsGap.plain (h : IsGap gap) : ∀ c ∈ gap, c ≠ '"' ∧ c ≠ '\'' ∧ c ≠ ';' := by
  intro c member
  rcases h c member with rfl | rfl <;> decide

theorem parts_of_blank (some : gap ≠ []) (blank : ∀ c ∈ gap, Text.isAsciiBlank c = true)
    (rest : Text) : Parts (gap ++ rest) := by
  obtain ⟨c, others, rfl⟩ := List.exists_cons_of_ne_nil some
  intro d first
  obtain rfl : c = d := Option.some.inj first
  exact blank c List.mem_cons_self

/-- The argument is the next word, whatever it spells. -/
theorem Spells.next? (h : Spells argument name) (blank : ∀ c ∈ gap, Text.isAsciiBlank c = true)
    (parts : Parts rest) :
    Word.next? seen (gap ++ argument ++ rest) = some ⟨seen ++ gap, argument, rest⟩ := by
  cases h with
  | bare bare => exact next?_bare blank bare parts
  | quoted _ closed => exact next?_quoted blank closed

theorem Spells.codeFrom_append (h : Spells argument name) (rest : Text) :
    codeFrom .plain (argument ++ rest) = argument ++ codeFrom .plain rest := by
  cases h with
  | bare bare => exact codeFrom_append_of_plain (fun c member => (bare.2 c member).2) rest
  | quoted _ closed => exact codeFrom_append_of_quoted closed rest

theorem Spells.argumentName? (h : Spells argument name) {before after : Text} :
    argumentName? ⟨before, argument, after⟩ = some name := by
  cases h with
  | bare bare =>
    obtain ⟨some, plain⟩ := bare
    have outside (quote : Char) (other : quote ∉ name) : insideQuotes? quote name = none :=
      if_neg fun inside => other (List.mem_of_mem_head? inside.2.1)
    have double := outside '"' fun member => (plain _ member).2.1 rfl
    have single := outside '\'' fun member => (plain _ member).2.2.1 rfl
    simp [Code.argumentName?, unquote, double, single, some]
  | quoted some closed =>
    have inside : insideQuotes? '"' ('"' :: (name ++ ['"'])) = .some name := by
      simp [insideQuotes?, List.getLast?_cons]
    simp [Code.argumentName?, unquote, inside, some]

/-- The word in the place of a directive. -/
def directive? (line : Text) : Option Word :=
  (Word.first? (code line)).bind fun first =>
    if first.before = [] then first.following? else some first

theorem directiveArgument?_eq (keyword line : Text) : directiveArgument? keyword line =
    (directive? line).bind fun directive =>
      if Text.sameIgnoringCase (directive.text.dropWhile (· = '.')) keyword then
        directive.following?
      else none := by
  rw [directive?, Option.bind_assoc]
  refine congrArg (Option.bind _) (funext fun first => ?_)
  split <;> rfl

namespace DirectiveLine

variable (d : DirectiveLine)

/-- The dots and the keyword. -/
def directive : Text := List.replicate d.dots '.' ++ d.keyword

/-- What every letter of the keyword has, and every capital. -/
theorem keyword_letter {p : Char → Prop}
    (letters : ∀ letter ∈ "include".toList, p letter ∧ p letter.toUpper) :
    ∀ c ∈ d.keyword, p c := by
  have each := d.includes
  generalize d.keyword = keyword, "include".toList = letters' at each letters
  induction each with
  | nil => exact fun _ member => nomatch member
  | cons spelled _ ih =>
    obtain ⟨⟨small, capital⟩, letters⟩ := List.forall_mem_cons.mp letters
    refine List.forall_mem_cons.mpr ⟨?_, ih letters⟩
    rcases spelled with rfl | rfl
    · exact small
    · exact capital

theorem keyword_ne_nil : d.keyword ≠ [] := by
  intro none
  have each := d.includes
  rw [none] at each
  cases each

theorem sameIgnoringCase_keyword : Text.sameIgnoringCase d.keyword "include".toList = true := by
  have each := d.includes
  have letters : ∀ letter ∈ "include".toList,
      Text.lowerChar letter.toUpper = Text.lowerChar letter :=
    List.forall_iff_forall_mem.mp (by decide)
  rw [Text.sameIgnoringCase, beq_iff_eq, Text.lower, Text.lower]
  generalize d.keyword = keyword, "include".toList = letters' at each letters
  induction each with
  | nil => rfl
  | cons spelled _ ih =>
    obtain ⟨same, letters⟩ := List.forall_mem_cons.mp letters
    rw [List.map_cons, List.map_cons, ih letters]
    rcases spelled with rfl | rfl
    · rfl
    · rw [same]

theorem directive_bare : IsBare d.directive := by
  refine ⟨by simp [directive, d.keyword_ne_nil], fun c member => ?_⟩
  rcases List.mem_append.mp member with dot | letter
  · rw [List.eq_of_mem_replicate dot]
    decide
  · exact d.keyword_letter (p := fun c =>
      Text.isAsciiBlank c = false ∧ c ≠ '"' ∧ c ≠ '\'' ∧ c ≠ ';')
      (List.forall_iff_forall_mem.mp (by decide)) c letter

theorem dropWhile_directive : d.directive.dropWhile (· = '.') = d.keyword := by
  obtain ⟨c, rest, keyword⟩ := List.exists_cons_of_ne_nil d.keyword_ne_nil
  have letter : c ≠ '.' := d.keyword_letter (p := (· ≠ '.'))
    (List.forall_iff_forall_mem.mp (by decide)) c (by simp [keyword])
  rw [directive, List.dropWhile_append_of_pos (by simp), keyword]
  simp [letter]

/-- The comment is no code, and all else is. -/
theorem code_text : code d.text = d.before ++ d.argument ++ d.trail := by
  have front : ∀ c ∈ d.before, c ≠ '"' ∧ c ≠ '\'' ∧ c ≠ ';' := by
    intro c member
    simp only [before, List.mem_append] at member
    rcases member with ((label | indent) | directive) | space
    · rcases d.labelled with none | bare
      · rw [none] at label
        cases label
      · exact (bare.2 c label).2
    · exact d.indented.2.plain c indent
    · exact (d.directive_bare.2 c (List.mem_append.mpr directive)).2
    · exact d.spaced.2.plain c space
  have comment : codeFrom .plain d.comment = [] := by
    rcases d.commented with none | ⟨text, marked⟩
    · rw [none]
      rfl
    · simp [marked, codeFrom]
  rw [code, text, List.append_assoc, List.append_assoc, codeFrom_append_of_plain front,
    d.spells.codeFrom_append, codeFrom_append_of_plain d.trailed.plain, comment]
  simp

/-- The argument is found behind the directive. -/
theorem directiveArgument?_text :
    directiveArgument? "include".toList d.text = some ⟨d.before, d.argument, d.trail⟩ := by
  have trail : Parts d.trail := fun c first =>
    d.trailed.blank c (List.mem_of_mem_head? first)
  have behind : Parts (d.space ++ (d.argument ++ d.trail)) :=
    parts_of_blank d.spaced.1 d.spaced.2.blank _
  -- The directive is the first word without a label, and the second behind one.
  have found : directive? d.text =
      some ⟨d.label ++ d.indent, d.directive, d.space ++ (d.argument ++ d.trail)⟩ := by
    have second : Word.next? d.label (d.indent ++ d.directive ++ (d.space ++ (d.argument ++ d.trail)))
        = some ⟨d.label ++ d.indent, d.directive, d.space ++ (d.argument ++ d.trail)⟩ :=
      next?_bare d.indented.2.blank d.directive_bare behind
    have whole : code d.text = d.label ++
        (d.indent ++ d.directive ++ (d.space ++ (d.argument ++ d.trail))) := by
      simp [code_text, before, directive]
    rw [directive?, whole, Word.first?]
    rcases d.labelled with none | bare
    · rw [none] at second ⊢
      rw [List.nil_append, second]
      simp [d.indented.1]
    · have label : Word.next? [] ([] ++ d.label ++
          (d.indent ++ d.directive ++ (d.space ++ (d.argument ++ d.trail)))) =
            some ⟨[] ++ [], d.label, d.indent ++ d.directive ++ (d.space ++ (d.argument ++ d.trail))⟩ := by
        refine next?_bare (by simp) bare ?_
        rw [List.append_assoc]
        exact parts_of_blank d.indented.1 d.indented.2.blank _
      rw [List.nil_append] at label
      rw [label]
      simpa [Word.following?] using second
  have argument : Word.next? (d.label ++ d.indent ++ d.directive)
      (d.space ++ d.argument ++ d.trail) = some ⟨d.before, d.argument, d.trail⟩ :=
    d.spells.next? d.spaced.2.blank trail
  rw [List.append_assoc d.space] at argument
  rw [directiveArgument?_eq, found, Option.bind_some, dropWhile_directive,
    if_pos d.sameIgnoringCase_keyword]
  exact argument

/-- The line is read as its directive. -/
theorem includeOnLine?_text (number : Nat) : includeOnLine? number d.text =
    some ⟨d.name, .onLine number (Text.width d.before) (Text.width (d.before ++ d.argument))⟩ := by
  rw [includeOnLine?, directiveArgument?_text, Option.bind_eq_bind, Option.bind_some,
    d.spells.argumentName?]
  rfl

end DirectiveLine

/-! ## Directives of a text -/

/-- The argument of a directive is a word of the code. -/
theorem on_of_directiveArgument? {keyword : Text}
    (argued : directiveArgument? keyword line = some word) : Word.On (code line) word := by
  rw [directiveArgument?_eq] at argued
  obtain ⟨directive, placed, following⟩ := Option.bind_eq_some_iff.mp argued
  have on : Word.On (code line) directive := by
    obtain ⟨first, start, second⟩ := Option.bind_eq_some_iff.mp placed
    split at second
    · exact .next (.first start) second
    · cases second
      exact .first start
  split at following
  · exact .next on following
  · cases following

/-- What a directive stands for: a word of the code on a line of this number. -/
theorem includeOnLine?_eq_some (found : includeOnLine? number line = some link) :
    ∃ word, Word.On (code line) word ∧ link.range = word.range number ∧
      unquote word.text = link.name ∧ link.name ≠ [] := by
  obtain ⟨word, argued, rest⟩ := Option.bind_eq_some_iff.mp found
  obtain ⟨name, named, same⟩ := Option.bind_eq_some_iff.mp rest
  cases same
  refine ⟨word, on_of_directiveArgument? argued, rfl, ?_⟩
  dsimp only [argumentName?] at named
  split at named
  · cases named
  · next some =>
    cases named
    exact ⟨rfl, some⟩

theorem includesFrom_append (number : Nat) (lines more : List Text) :
    includesFrom number (lines ++ more) =
      includesFrom number lines ++ includesFrom (number + lines.length) more := by
  induction lines generalizing number with
  | nil => rfl
  | cons line rest ih =>
    rw [List.cons_append, includesFrom, ih, includesFrom, List.append_assoc, List.length_cons,
      Nat.add_assoc, Nat.add_comm 1]

theorem mem_includesFrom (member : link ∈ includesFrom number lines) :
    ∃ index line, lines[index]? = some line ∧ link.range.start.line = number + index ∧
      includeOnLine? (number + index) line = some link := by
  induction lines generalizing number with
  | nil => cases member
  | cons line rest ih =>
    rcases List.mem_append.mp member with here | later
    · have found := Option.mem_toList.mp here
      obtain ⟨word, -, range, -⟩ := includeOnLine?_eq_some found
      exact ⟨0, line, rfl, by rw [range]; rfl, found⟩
    · obtain ⟨index, line, listed, same, found⟩ := ih later
      have shift : number + 1 + index = number + (index + 1) := by omega
      exact ⟨index + 1, line, listed, shift ▸ same, shift ▸ found⟩

/-- Each line holds one directive at most. -/
theorem pairwise_includesFrom (number : Nat) (lines : List Text) :
    (includesFrom number lines).Pairwise fun a b => a.range.start.line < b.range.start.line := by
  induction lines generalizing number with
  | nil => exact .nil
  | cons line rest ih =>
    refine List.pairwise_append.mpr ⟨?_, ih _, fun a here b later => ?_⟩
    · cases includeOnLine? number line <;> simp
    · obtain ⟨word, -, range, -⟩ := includeOnLine?_eq_some (Option.mem_toList.mp here)
      obtain ⟨index, -, -, same, -⟩ := mem_includesFrom later
      have first : a.range.start.line = number := by rw [range]; rfl
      omega

/-- Every line that is laid out as a directive gives one include with the name that its argument
spells and the columns of the argument, whatever lines are around it. Conversely the includes of
any lines are on lines of growing numbers, and each has the columns of a word of the code of its
line, in front of the comment, which without quotes is the name of the include. -/
theorem includes_exact :
    (∀ (d : DirectiveLine) (earlier later : List Text),
      (includes (earlier ++ d.text :: later)).filter (·.range.start.line = earlier.length) =
        [⟨d.name, .onLine earlier.length (Text.width d.before)
          (Text.width (d.before ++ d.argument))⟩]) ∧
    ∀ lines : List Text,
      (includes lines).Pairwise (fun a b => a.range.start.line < b.range.start.line) ∧
      ∀ link ∈ includes lines, ∃ line word, lines[link.range.start.line]? = some line ∧
        Word.On (code line) word ∧ word.text ≠ [] ∧
        link.range = .onLine link.range.start.line word.first word.last ∧
        Text.between? link.range.start.column link.range.stop.column line = some word.text ∧
        (∀ start, commentStart? line = some start →
          link.range.stop.column ≤ Text.columnOfByte line start) ∧
        unquote word.text = link.name ∧ link.name ≠ [] := by
  refine ⟨fun d earlier later => ?_, fun lines =>
    ⟨pairwise_includesFrom 0 lines, fun link member => ?_⟩⟩
  · have outside {link : Include} {number : Nat} {lines : List Text}
        (member : link ∈ includesFrom number lines) :
        number ≤ link.range.start.line ∧ link.range.start.line < number + lines.length := by
      obtain ⟨index, line, listed, same, -⟩ := mem_includesFrom member
      obtain ⟨within, -⟩ := List.getElem?_eq_some_iff.mp listed
      omega
    have before : (includesFrom 0 earlier).filter (·.range.start.line = earlier.length) = [] := by
      refine List.filter_eq_nil_iff.mpr fun link member => ?_
      have := outside member
      simp only [decide_eq_true_iff]
      omega
    have behind : (includesFrom (0 + earlier.length + 1) later).filter
        (·.range.start.line = earlier.length) = [] := by
      refine List.filter_eq_nil_iff.mpr fun link member => ?_
      have := outside member
      simp only [decide_eq_true_iff]
      omega
    rw [includes, includesFrom_append, includesFrom, d.includeOnLine?_text, List.filter_append,
      List.filter_append, before, behind]
    simp [Range.onLine]
  · obtain ⟨index, line, listed, number, found⟩ := mem_includesFrom member
    rw [Nat.zero_add] at number found
    obtain ⟨word, on, range, named, some⟩ := includeOnLine?_eq_some found
    obtain ⟨coded, text⟩ := on.line_eq
    obtain ⟨comment, split⟩ : code line <+: line := prefix_codeFrom .plain line
    refine ⟨line, word, number ▸ listed, on, text, by rw [range]; rfl, ?_, fun start marked => ?_,
      named, some⟩
    · have whole : line = word.before ++ word.text ++ (word.after ++ comment) := by
        rw [← List.append_assoc]
        exact (split.symm.trans (congrArg (· ++ comment) coded.symm))
      have cut := Text.between?_width word.before word.text (word.after ++ comment)
      rw [← whole] at cut
      rw [range]
      exact cut
    · rw [range]
      exact word.last_le_of_commentStart? coded marked

/-- A directive behind a label, with dots and capitals, whose argument shows a semicolon and a
quote. -/
def adorned : DirectiveLine where
  label := "é😀".toList
  indent := "\t".toList
  dots := 2
  keyword := "InClude".toList
  space := " ".toList
  argument := '"' :: "a ;'b".toList ++ ['"']
  name := "a ;'b".toList
  trail := []
  comment := ";\"c\"".toList
  labelled := .inr ⟨by decide, List.forall_iff_forall_mem.mp (by decide)⟩
  indented := ⟨by decide, fun c member => .inr (by simpa using member)⟩
  includes := by decide +kernel
  spaced := ⟨by decide, fun c member => .inl (by simpa using member)⟩
  spells := .quoted (by decide) (by decide)
  trailed := by simp [IsGap]
  commented := .inr ⟨"\"c\"".toList, rfl⟩

/-- The directive is read, and a keyword in the first column is a label. -/
theorem adorned_directive_is_read :
    let lines := ["include x".toList, adorned.text, " include y".toList]
    includes lines = [⟨"a ;'b".toList, .onLine 1 14 21⟩, ⟨['y'], .onLine 2 9 10⟩] ∧
    (includes lines).filter (·.range.start.line = 1) =
      [⟨adorned.name, .onLine 1 (Text.width adorned.before)
        (Text.width (adorned.before ++ adorned.argument))⟩] ∧
    (includes lines).Pairwise fun a b => a.range.start.line < b.range.start.line := by
  intro lines
  exact ⟨by decide +kernel, includes_exact.1 adorned ["include x".toList] [" include y".toList],
    (includes_exact.2 lines).1⟩

end Code

end AsmServer
