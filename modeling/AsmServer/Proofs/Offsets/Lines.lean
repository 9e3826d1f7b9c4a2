import AsmServer.Proofs.Code.Directives
import AsmServer.Proofs.Offsets.Slices

/-!
# Lines by byte offsets

Comments, words and include directives as a program finds them that works on byte offsets: the
comment is where a walk over the characters with their offsets stops, words are found by an index
that runs over the bytes, and a directive is cut out of the line between two such offsets.

Each of these ends, no cut and no index of it fails, and it gives what the reading in terms of
texts gives. The index always stands at the byte size of the text in front of it: it goes on by the
byte of one blank, or up to a quote or a blank, all of which are ASCII.
-/

namespace AsmServer

namespace Offsets

open Code

variable {line seen rest value inside : Text} {quote c : Char} {p : Char → Bool}
  {bytes : List UInt8} {index stop : Nat} {word : Word} {words : List Word}

/-! ## Comments -/

/-- The offset of the comment in the rest of a line that starts at `offset`. A character directly
behind a single quote is passed over with it. -/
def commentFrom? (offset : Nat) (inString : Bool) : Text → Option Nat
  | [] => none
  | c :: rest =>
    if c = '"' then commentFrom? (offset + c.utf8Size) (!inString) rest
    else if c = '\'' ∧ inString = false then
      match rest with
      | [] => none
      | d :: rest => commentFrom? (offset + c.utf8Size + d.utf8Size) inString rest
    else if c = ';' ∧ inString = false then some offset
    else commentFrom? (offset + c.utf8Size) inString rest

/-- The line up to the offset of its comment. -/
def code? (line : Text) : Option Text :=
  match commentFrom? 0 false line with
  | some offset => Text.takeBytes? offset line
  | none => some line

/-- The place of a character, where no single quote is directly in front of it. -/
def placeOf (inString : Bool) : Code.Place := if inString then .quoted else .plain

/-- The walk stops where the code ends. -/
theorem commentFrom?_eq (offset : Nat) (inString : Bool) (t : Text) :
    commentFrom? offset inString t =
      if (codeFrom (placeOf inString) t).length < t.length then
        some (offset + Text.byteSize (codeFrom (placeOf inString) t))
      else none := by
  fun_induction commentFrom? offset inString t with
  | case1 => rfl
  | case2 offset inString rest ih =>
    cases inString <;> simpa [placeOf, codeFrom, Place.next, Nat.add_assoc] using ih
  | case3 offset inString c double single =>
    obtain ⟨rfl, rfl⟩ := single
    simp [placeOf, codeFrom]
  | case4 offset inString c double single d rest ih =>
    obtain ⟨rfl, rfl⟩ := single
    simpa [placeOf, codeFrom, Place.next, Nat.add_assoc] using ih
  | case5 offset inString c rest double single mark =>
    obtain ⟨rfl, rfl⟩ := mark
    simp [placeOf, codeFrom]
  | case6 offset inString c rest double single mark ih =>
    cases inString <;> simp_all [placeOf, codeFrom, Place.next, Nat.add_assoc]

theorem commentFrom?_line (line : Text) : commentFrom? 0 false line = commentStart? line := by
  rw [commentFrom?_eq, Nat.zero_add]
  rfl

@[simp] theorem code?_eq (line : Text) : code? line = some (code line) := by
  have inLine : code line <+: line := prefix_codeFrom .plain line
  rw [code?, commentFrom?_line, commentStart?]
  by_cases marked : (code line).length < line.length
  · simpa only [if_pos marked] using Text.takeBytes?_of_prefix inLine
  · have whole : code line = line := inLine.eq_of_length_le (Nat.le_of_not_lt marked)
    simp only [if_neg marked]
    rw [whole]

/-! ## Quotes -/

/-- Whether a value stands between two of these quotes. -/
def wrapped (quote : Char) (value : Text) : Bool :=
  2 ≤ Text.byteSize value && value.head? = some quote && value.getLast? = some quote

/-- Cut one pair of quotes off a value. -/
def unquoted? (value : Text) : Option Text :=
  if wrapped '"' value then Text.slice? 1 (Text.byteSize value - 1) value
  else if wrapped '\'' value then Text.slice? 1 (Text.byteSize value - 1) value
  else some value

theorem exists_inside (first : value.head? = some quote) (last : value.getLast? = some quote)
    (more : value ≠ [quote]) : ∃ inside, value = [quote] ++ inside ++ [quote] := by
  obtain ⟨tail, rfl⟩ := List.head?_eq_some_iff.mp first
  cases tail with
  | nil => exact absurd rfl more
  | cons c tail =>
    rw [List.getLast?_cons_cons] at last
    refine ⟨(c :: tail).dropLast, ?_⟩
    rw [List.append_assoc, List.dropLast_append_getLast? _ last]
    rfl

@[simp] theorem insideQuotes?_append (quote : Char) (inside : Text) :
    insideQuotes? quote ([quote] ++ inside ++ [quote]) = some inside := by
  simp [insideQuotes?, List.getLast?_cons]

/-- A value of two bytes that starts and ends with a quote has a text between two quotes. -/
theorem wrapped_eq (ascii : quote.toNat < 0x80) (value : Text) :
    wrapped quote value = (insideQuotes? quote value).isSome := by
  have single := Text.utf8Size_of_ascii ascii
  by_cases between : ∃ inside, value = [quote] ++ inside ++ [quote]
  · obtain ⟨inside, rfl⟩ := between
    have long : 2 ≤ quote.utf8Size + (Text.byteSize inside + quote.utf8Size) := by omega
    rw [insideQuotes?_append]
    simp [wrapped, List.getLast?_cons, long]
  · have bare : ¬wrapped quote value = true := by
      intro h
      simp only [wrapped, Bool.and_eq_true, decide_eq_true_eq] at h
      refine between (exists_inside h.1.2 h.2 ?_)
      rintro rfl
      simp [single] at h
    have none : insideQuotes? quote value = none := by
      refine if_neg fun ⟨long, first, last⟩ => between (exists_inside first last ?_)
      rintro rfl
      simp at long
    rw [none, Bool.eq_false_iff.mpr bare]
    rfl

/-- The byte at each end is that of a quote. -/
theorem slice?_insideQuotes (ascii : quote.toNat < 0x80)
    (h : insideQuotes? quote value = some inside) :
    Text.slice? 1 (Text.byteSize value - 1) value = some inside := by
  have single : Text.byteSize [quote] = 1 := Text.utf8Size_of_ascii ascii
  obtain ⟨long, first, last⟩ : 2 ≤ value.length ∧ _ := (Option.ite_none_right_eq_some.mp h).1
  obtain ⟨inside', rfl⟩ := exists_inside first last (by rintro rfl; simp at long)
  rw [insideQuotes?_append] at h
  cases h
  have upTo : Text.byteSize ([quote] ++ inside ++ [quote]) - 1 =
      Text.byteSize ([quote] ++ inside) := by
    rw [Text.byteSize_append, single, Nat.add_sub_cancel]
  have cut := Text.slice?_byteSize [quote] inside [quote]
  rwa [single, ← upTo] at cut

@[simp] theorem unquoted?_eq (value : Text) : unquoted? value = some (unquote value) := by
  rw [unquoted?, wrapped_eq (by decide), wrapped_eq (by decide), unquote]
  cases double : insideQuotes? '"' value with
  | some inside => exact slice?_insideQuotes (by decide) double
  | none =>
    cases single : insideQuotes? '\'' value with
    | some inside => exact slice?_insideQuotes (by decide) single
    | none => rfl

/-! ## Words -/

/-- The first index from `index` on whose byte does not have the property, or the end. -/
def pass? (p : Char → Bool) (bytes : List UInt8) (index : Nat) : Option Nat :=
  if index < bytes.length then do
    if ← Utf8.at? p bytes index then pass? p bytes (index + 1)
    else some index
  else some index
termination_by bytes.length - index

/-- The index behind the word that starts at `index`. A string ends behind its second quote, or at
the end. -/
def wordEnd? (bytes : List UInt8) (index : Nat) : Option Nat := do
  if ← Utf8.at? (· = '"') bytes index then
    let quote ← pass? (· ≠ '"') bytes (index + 1)
    return min (quote + 1) bytes.length
  else pass? (!Text.isAsciiBlank ·) bytes index

theorem isAsciiBlank_ascii (blank : Text.isAsciiBlank c = true) : c.toNat < 0x80 := by
  simp only [Text.isAsciiBlank, Bool.or_eq_true, beq_iff_eq] at blank
  omega

theorem bytewise_isAsciiBlank : Utf8.Bytewise Text.isAsciiBlank :=
  Utf8.bytewise_of_ascii fun _ => isAsciiBlank_ascii

theorem bytewise_eq (ascii : c.toNat < 0x80) : Utf8.Bytewise (decide <| · = c) :=
  Utf8.bytewise_of_ascii fun _ same => of_decide_eq_true same ▸ ascii

theorem bytewise_ne (ascii : c.toNat < 0x80) : Utf8.Bytewise (decide <| · ≠ c) := by
  simpa only [decide_not] using (bytewise_eq ascii).not

theorem pass?_eq (p : Char → Bool) (bytes : List UInt8) (index : Nat) :
    pass? p bytes index =
      some (index + ((bytes.drop index).takeWhile (p <| Utf8.ofByte ·)).length) := by
  fun_induction pass? p bytes index with
  | case1 index within ih =>
    have here : Utf8.at? p bytes index = some (p (Utf8.ofByte bytes[index])) := by
      rw [Utf8.at?, List.getElem?_eq_getElem within]
      rfl
    rw [here, List.drop_eq_getElem_cons within, List.takeWhile_cons, Option.bind_eq_bind,
      Option.bind_some]
    by_cases holds : p (Utf8.ofByte bytes[index]) = true
    · rw [if_pos holds, if_pos holds, ih, List.length_cons]
      congr 1
      omega
    · rw [if_neg holds, if_neg holds]
      rfl
  | case2 index past =>
    rw [List.drop_eq_nil_of_le (Nat.le_of_not_lt past)]
    rfl

/-- The index passes over the bytes of a text, and stands at the size of the text in front. -/
theorem pass?_byteSize (h : Utf8.Bytewise p) (seen rest : Text) :
    pass? p (Utf8.encode (seen ++ rest)) (Text.byteSize seen) =
      some (Text.byteSize (seen ++ rest.takeWhile p)) := by
  rw [pass?_eq, Utf8.drop_encode, h.takeWhile, Utf8.length_encode, Text.byteSize_append]

theorem lt_length_of_at? {found : Bool} (byte : Utf8.at? p bytes index = some found) :
    index < bytes.length := by
  obtain ⟨b, there, -⟩ := Option.map_eq_some_iff.mp byte
  exact (List.getElem?_eq_some_iff.mp there).1

/-- A word has a byte at least. -/
theorem lt_of_wordEnd? (solid : Utf8.at? Text.isAsciiBlank bytes index = some false)
    (ends : wordEnd? bytes index = some stop) : index < stop := by
  have within := lt_length_of_at? solid
  rw [Utf8.at?, List.getElem?_eq_getElem within, Option.map_some, Option.some.injEq] at solid
  rw [wordEnd?, Utf8.at?, List.getElem?_eq_getElem within, Option.map_some, Option.bind_eq_bind,
    Option.bind_some, pass?_eq, pass?_eq, List.drop_eq_getElem_cons within,
    List.takeWhile_cons_of_pos (by simpa using solid)] at ends
  split at ends
  · cases ends
    omega
  · cases ends
    simp

/-- The offsets of the words from `index` on. -/
def wordsFrom? (bytes : List UInt8) (index : Nat) : Option (List (Nat × Nat)) :=
  if index < bytes.length then
    match _ : Utf8.at? Text.isAsciiBlank bytes index with
    | none => none
    | some true => wordsFrom? bytes (index + 1)
    | some false =>
      match _ : wordEnd? bytes index with
      | none => none
      | some stop => (wordsFrom? bytes stop).map ((index, stop) :: ·)
  else some []
termination_by bytes.length - index
decreasing_by
  · omega
  · have := lt_of_wordEnd? ‹_› ‹_›
    omega

theorem wordsFrom?_of_le (past : bytes.length ≤ index) : wordsFrom? bytes index = some [] := by
  rw [wordsFrom?, if_neg (Nat.not_lt.mpr past)]

theorem wordsFrom?_of_blank (blank : Utf8.at? Text.isAsciiBlank bytes index = some true) :
    wordsFrom? bytes index = wordsFrom? bytes (index + 1) := by
  rw [wordsFrom?, if_pos (lt_length_of_at? blank)]
  split
  · next missing => exact nomatch blank.symm.trans missing
  · rfl
  · next solid => exact nomatch blank.symm.trans solid

theorem wordsFrom?_of_word (solid : Utf8.at? Text.isAsciiBlank bytes index = some false)
    (ends : wordEnd? bytes index = some stop) :
    wordsFrom? bytes index = (wordsFrom? bytes stop).map ((index, stop) :: ·) := by
  rw [wordsFrom?, if_pos (lt_length_of_at? solid)]
  split
  · next missing => exact nomatch solid.symm.trans missing
  · next blank => exact nomatch solid.symm.trans blank
  · split
    · next endless => exact nomatch ends.symm.trans endless
    · next there =>
      obtain rfl := Option.some.inj (ends.symm.trans there)
      rfl

theorem cut_quoted (rest : Text) : (Word.cut ('"' :: rest)).1 =
    ['"'] ++ rest.takeWhile (· ≠ '"') ++ (rest.dropWhile (· ≠ '"')).take 1 := by
  rw [Word.cut]
  split
  · next none =>
    rw [none, List.take_nil, List.append_nil]
    rfl
  · next quote behind some =>
    rw [some]
    rfl

theorem cut_bare (other : c ≠ '"') (rest : Text) :
    (Word.cut (c :: rest)).1 = (c :: rest).takeWhile (!Text.isAsciiBlank ·) := by
  unfold Word.cut
  split
  · next quote => exact absurd (List.cons.inj quote).1 other
  · rfl

/-- A word ends where it is cut off. -/
theorem wordEnd?_byteSize (seen : Text) (c : Char) (rest : Text) :
    wordEnd? (Utf8.encode (seen ++ c :: rest)) (Text.byteSize seen) =
      some (Text.byteSize (seen ++ (Word.cut (c :: rest)).1)) := by
  rw [wordEnd?, (bytewise_eq (by decide)).at?_byteSize, List.head?_cons, Option.map_some,
    Option.bind_eq_bind, Option.bind_some]
  by_cases double : c = '"'
  · subst double
    have quote := pass?_byteSize (bytewise_ne (c := '"') (by decide)) (seen ++ ['"']) rest
    rw [Text.byteSize_concat (by decide), List.append_assoc, List.singleton_append] at quote
    rw [if_pos (by decide), quote, cut_quoted, Utf8.length_encode]
    -- The second quote is one byte behind the text between, or the text goes on to the end.
    have parts := List.takeWhile_append_dropWhile (p := (· ≠ '"')) (l := rest)
    have stop := List.head?_dropWhile_not (· ≠ '"') rest
    generalize rest.takeWhile (· ≠ '"') = inside, rest.dropWhile (· ≠ '"') = behind at *
    rw [← parts]
    cases behind with
    | nil => simp
    | cons d behind =>
      obtain rfl : d = '"' := by simpa using stop
      have single : ('"' : Char).utf8Size = 1 := rfl
      simp [single]
      omega
  · rw [if_neg (by simpa using double), pass?_byteSize bytewise_isAsciiBlank.not, cut_bare double]

/-- The byte offsets of a word. -/
def span (word : Word) : Nat × Nat :=
  (Text.byteSize word.before, Text.byteSize (word.before ++ word.text))

/-- All words of `rest`, where `seen` stands before it. -/
inductive Words : Text → Text → List Word → Prop
  | nil {seen rest : Text} (none : Word.next? seen rest = none) : Words seen rest []
  | cons {seen rest : Text} {word : Word} {words : List Word}
      (next : Word.next? seen rest = some word)
      (more : Words (word.before ++ word.text) word.after words) : Words seen rest (word :: words)

/-- A blank in front belongs to what was seen. -/
theorem next?_cons_of_blank (blank : Text.isAsciiBlank c = true) (seen rest : Text) :
    Word.next? seen (c :: rest) = Word.next? (seen ++ [c]) rest := by
  simp [next?_eq, blank]

theorem next?_cons_of_solid (solid : Text.isAsciiBlank c = false) (seen rest : Text) :
    Word.next? seen (c :: rest) =
      some ⟨seen, (Word.cut (c :: rest)).1, (Word.cut (c :: rest)).2⟩ := by
  simp [next?_eq, solid]

theorem Words.cons_of_blank (blank : Text.isAsciiBlank c = true)
    (h : Words (seen ++ [c]) rest words) : Words seen (c :: rest) words := by
  cases h with
  | nil none => exact .nil ((next?_cons_of_blank blank seen rest).trans none)
  | cons next more => exact .cons ((next?_cons_of_blank blank seen rest).trans next) more

/-- The index finds all words, and stands behind each in turn. -/
theorem exists_words (seen rest : Text) : ∃ words, Words seen rest words ∧
    wordsFrom? (Utf8.encode (seen ++ rest)) (Text.byteSize seen) = some (words.map span) := by
  induction size : rest.length using Nat.strong_induction_on generalizing seen rest with
  | _ size ih =>
    subst size
    cases rest with
    | nil => exact ⟨[], .nil rfl, wordsFrom?_of_le (by simp)⟩
    | cons c rest =>
      have byte := bytewise_isAsciiBlank.at?_byteSize seen (c :: rest)
      rw [List.head?_cons, Option.map_some] at byte
      by_cases blank : Text.isAsciiBlank c = true
      · obtain ⟨words, found, offsets⟩ := ih rest.length (by simp) (seen ++ [c]) rest rfl
        rw [Text.byteSize_concat (isAsciiBlank_ascii blank), List.append_assoc,
          List.singleton_append] at offsets
        rw [blank] at byte
        exact ⟨words, found.cons_of_blank blank, (wordsFrom?_of_blank byte).trans offsets⟩
      · have solid := Bool.eq_false_iff.mpr blank
        have parts := cut_append (c :: rest)
        have some : (Word.cut (c :: rest)).1 ≠ [] := cut_ne_nil solid
        have next := next?_cons_of_solid solid seen rest
        have stop := wordEnd?_byteSize seen c rest
        generalize (Word.cut (c :: rest)).1 = text, (Word.cut (c :: rest)).2 = after at *
        have shorter : after.length < (c :: rest).length := by
          have := List.length_pos_iff.mpr some
          rw [← parts, List.length_append]
          omega
        obtain ⟨words, found, offsets⟩ := ih after.length shorter (seen ++ text) after rfl
        rw [List.append_assoc, parts] at offsets
        rw [solid] at byte
        refine ⟨⟨seen, text, after⟩ :: words, .cons next found, ?_⟩
        rw [wordsFrom?_of_word byte stop, offsets]
        rfl

/-! ## Directives -/

/-- The offsets of the argument of the directive `keyword`, if the line holds that directive. -/
def argument? (keyword line : Text) : Option (Option (Nat × Nat)) := do
  let code ← code? line
  let words ← wordsFrom? (Utf8.encode code) 0
  match words.head? with
  | none => return none
  | some (first, _) =>
    let index := if first = 0 then 1 else 0
    match words[index]? with
    | none => return none
    | some (start, stop) =>
      let directive ← Text.slice? start stop code
      if Text.sameIgnoringCase (directive.dropWhile (· = '.')) keyword then
        return words[index + 1]?
      else return none

/-- The name that the argument of the directive `keyword` gives, with the argument's offsets. -/
def named? (keyword line : Text) : Option (Option (Text × Nat × Nat)) := do
  match ← argument? keyword line with
  | none => return none
  | some (start, stop) =>
    let name ← unquoted? (← Text.slice? start stop line)
    if name = [] then return none
    else return some (name, start, stop)

/-- The include directive on line number `number`, if it names a file. -/
def includeOnLine? (number : Nat) (line : Text) : Option (Option Include) := do
  return (← named? "include".toList line).map fun (name, start, stop) =>
    ⟨name, .onLine number (Text.columnOfByte line start) (Text.columnOfByte line stop)⟩

/-- The include directives of lines that start at number `number`. -/
def includesFrom? (number : Nat) : List Text → Option (List Include)
  | [] => some []
  | line :: rest => do
    return (← includeOnLine? number line).toList ++ (← includesFrom? (number + 1) rest)

/-- Every include directive, in the order of the lines. -/
def includes? (lines : List Text) : Option (List Include) := includesFrom? 0 lines

/-- Every directory named for searching, in the order of the lines. -/
def includeDirs? (lines : List Text) : Option (List Text) := do
  return ((← lines.mapM (named? "incdir".toList)).filterMap id).map (·.1)

theorem Words.head? (h : Words seen rest words) : words.head? = Word.next? seen rest := by
  cases h with
  | nil none => exact none.symm
  | cons next _ => exact next.symm

/-- What stands at each index of the words is found behind the word before. -/
theorem Words.getElem?_succ (h : Words seen rest words) (index : Nat) :
    words[index + 1]? = words[index]?.bind Word.following? := by
  induction h generalizing index with
  | nil => rfl
  | @cons _ _ _ words _ more ih =>
    cases index with
    | zero =>
      rw [List.getElem?_cons_succ, List.getElem?_cons_zero, ← List.head?_eq_getElem?, more.head?]
      rfl
    | succ index => exact ih index

theorem Words.line_eq (h : Words seen rest words) (member : word ∈ words) :
    word.line = seen ++ rest := by
  induction h with
  | nil => cases member
  | cons next _ ih =>
    rcases List.mem_cons.mp member with rfl | later
    · exact (line_of_next? next).1
    · exact (ih later).trans (line_of_next? next).1

/-- A word is a slice of every line that its code begins. -/
theorem slice?_span (inLine : word.line <+: line) :
    Text.slice? (span word).1 (span word).2 line = some word.text :=
  Text.slice?_of_prefix ((List.prefix_append _ word.after).trans inLine)

/-- The directive is the first word without a label, and the second behind one. -/
theorem Words.directive? {first : Word} (h : Words [] (code line) words)
    (start : words.head? = some first) :
    directive? line = words[if Text.byteSize first.before = 0 then 1 else 0]? := by
  have found : Word.first? (code line) = some first := h.head?.symm.trans start
  rw [Code.directive?, found, Option.bind_some]
  simp only [Text.byteSize_eq_zero_iff]
  split
  · rw [h.getElem?_succ, ← List.head?_eq_getElem?, start, Option.bind_some]
  · rw [← List.head?_eq_getElem?, start]

/-- The argument is where the reading in terms of texts finds it. -/
theorem argument?_eq (keyword line : Text) :
    argument? keyword line = some ((directiveArgument? keyword line).map span) := by
  obtain ⟨words, found, offsets⟩ := exists_words [] (code line)
  rw [List.nil_append, Text.byteSize_nil] at offsets
  simp only [argument?, code?_eq, Option.bind_eq_bind, Option.bind_some, offsets, List.head?_map,
    List.getElem?_map]
  cases start : words.head? with
  | none =>
    have none : Word.first? (code line) = none := found.head?.symm.trans start
    rw [directiveArgument?, none]
    rfl
  | some first =>
    rw [directiveArgument?_eq, found.directive? start]
    simp only [Option.map_some, span]
    generalize (if Text.byteSize first.before = 0 then 1 else 0) = index
    have next := found.getElem?_succ index
    cases placed : words[index]? with
    | none => rfl
    | some directive =>
      have member : directive ∈ words := List.mem_of_getElem? placed
      have inCode : directive.line <+: code line := by
        rw [found.line_eq member]
        exact List.prefix_rfl
      have cut := slice?_span inCode
      rw [placed, Option.bind_some] at next
      simp only [Option.map_some, Option.bind_some, cut, next]
      split <;> rfl

/-- An argument is a slice of the line, between the columns of its word. -/
theorem slice?_argument {keyword : Text} (argued : directiveArgument? keyword line = some word) :
    Text.slice? (span word).1 (span word).2 line = some word.text ∧
      Text.columnOfByte line (span word).1 = word.first ∧
      Text.columnOfByte line (span word).2 = word.last := by
  have coded : word.line = code line := (on_of_directiveArgument? argued).line_eq.1
  have inLine : word.line <+: line := coded ▸ prefix_codeFrom .plain line
  have upTo : word.before ++ word.text <+: line := (List.prefix_append _ word.after).trans inLine
  exact ⟨slice?_span inLine, Text.columnOfByte_of_prefix ((List.prefix_append _ _).trans upTo),
    Text.columnOfByte_of_prefix upTo⟩

@[simp] theorem named?_eq (keyword line : Text) : named? keyword line =
    some ((directiveArgument? keyword line).bind fun word =>
      (argumentName? word).map fun name => (name, span word)) := by
  rw [named?, argument?_eq]
  cases argued : directiveArgument? keyword line with
  | none => rfl
  | some word =>
    obtain ⟨cut, -, -⟩ := slice?_argument argued
    simp only [Option.map_some, Option.bind_eq_bind, Option.bind_some, cut, unquoted?_eq,
      argumentName?]
    split <;> rfl

@[simp] theorem includeOnLine?_eq (number : Nat) (line : Text) :
    includeOnLine? number line = some (Code.includeOnLine? number line) := by
  rw [includeOnLine?, named?_eq, Code.includeOnLine?]
  cases argued : directiveArgument? "include".toList line with
  | none => rfl
  | some word =>
    obtain ⟨-, first, last⟩ := slice?_argument argued
    cases named : argumentName? word with
    | none => simp [named]
    | some name => simp [named, first, last, Word.range]

theorem includesFrom?_eq (number : Nat) (lines : List Text) :
    includesFrom? number lines = some (includesFrom number lines) := by
  induction lines generalizing number with
  | nil => rfl
  | cons line rest ih =>
    rw [includesFrom?, includeOnLine?_eq, ih]
    rfl

theorem includes?_eq (lines : List Text) : includes? lines = some (includes lines) :=
  includesFrom?_eq 0 lines

/-- A pass over a list that fails nowhere gives what it gives for each entry. -/
theorem mapM_eq_some {α β : Type} {f : α → Option β} {g : α → β} {l : List α}
    (each : ∀ a ∈ l, f a = some (g a)) : l.mapM f = some (l.map g) := by
  induction l with
  | nil => rfl
  | cons a rest ih =>
    obtain ⟨here, later⟩ := List.forall_mem_cons.mp each
    rw [List.mapM_cons, here, ih later]
    rfl

theorem includeDirs?_eq (lines : List Text) : includeDirs? lines = some (includeDirs lines) := by
  rw [includeDirs?, mapM_eq_some fun line _ => named?_eq "incdir".toList line, includeDirs]
  simp only [Option.bind_eq_bind, Option.bind_some, List.filterMap_map,
    List.map_filterMap]
  refine congrArg some (List.filterMap_congr fun line _ => ?_)
  simp only [Function.comp_def, id_eq, Option.map_bind, Option.map_map, Option.map_id']

end Offsets

end AsmServer
