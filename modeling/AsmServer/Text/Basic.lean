/-!
# Text as a sequence of characters

All text of the server is a list of Unicode characters. Lists keep every cut
explicit: a search returns the part before and the part after, so no offset can
point into the middle of a character.

Blank characters are those of the Unicode property White_Space. They differ from
the five ASCII blanks by which the assembler separates the words of a source
line, so the two classes have separate names.
-/

namespace AsmServer

/-- A sequence of Unicode characters. -/
abbrev Text := List Char

namespace Text

/-! ## Character classes -/

/-- The characters of the Unicode property White_Space. -/
def isBlank (c : Char) : Bool :=
  let n := c.toNat
  (9 ≤ n && n ≤ 13) || n == 0x20 || n == 0x85 || n == 0xA0 || n == 0x1680 ||
    (0x2000 ≤ n && n ≤ 0x200A) || n == 0x2028 || n == 0x2029 || n == 0x202F ||
    n == 0x205F || n == 0x3000

/-- The blanks between the words of a source line: space, tab, line feed, form
feed and carriage return. The vertical tab is not among them. -/
def isAsciiBlank (c : Char) : Bool :=
  let n := c.toNat
  n == 0x20 || n == 9 || n == 10 || n == 12 || n == 13

/-- Upper-case a letter of ASCII; every other character stays. -/
def upperChar (c : Char) : Char :=
  if 'a' ≤ c ∧ c ≤ 'z' then Char.ofNat (c.toNat - 32) else c

/-- Lower-case a letter of ASCII; every other character stays. -/
def lowerChar (c : Char) : Char :=
  if 'A' ≤ c ∧ c ≤ 'Z' then Char.ofNat (c.toNat + 32) else c

/-- Upper-case the ASCII letters of a text. -/
def upper (t : Text) : Text := t.map upperChar

/-- Lower-case the ASCII letters of a text. -/
def lower (t : Text) : Text := t.map lowerChar

/-- Equality up to the case of ASCII letters. -/
def sameIgnoringCase (a b : Text) : Bool := a.lower == b.lower

/-! ## Cutting both ends -/

/-- Drop the longest ending whose characters all satisfy `p`. -/
def dropEndWhile (p : Char → Bool) (t : Text) : Text := (t.reverse.dropWhile p).reverse

/-- The longest ending whose characters all satisfy `p`. -/
def takeEndWhile (p : Char → Bool) (t : Text) : Text := (t.reverse.takeWhile p).reverse

/-- Drop leading blanks. -/
def trimStart (t : Text) : Text := t.dropWhile isBlank

/-- Drop trailing blanks. -/
def trimEnd (t : Text) : Text := dropEndWhile isBlank t

/-- Drop blanks at both ends. -/
def trim (t : Text) : Text := trimEnd (trimStart t)

/-- Whether the first character exists and is blank. -/
def startsBlank (t : Text) : Bool := t.head?.any isBlank

/-! ## Search -/

/-- Remove `lead` from the front of `t`, if `t` starts with it. -/
def afterLead? (lead t : Text) : Option Text :=
  if lead.isPrefixOf t then some (t.drop lead.length) else none

/-- Remove `tail` from the end of `t`, if `t` ends with it. -/
def beforeTail? (tail t : Text) : Option Text :=
  if tail.isSuffixOf t then some (t.take (t.length - tail.length)) else none

/-- The parts before and after the first occurrence of `mark`. -/
def cutAt? (mark : Text) : Text → Option (Text × Text)
  | [] => if mark = [] then some ([], []) else none
  | c :: rest =>
    match afterLead? mark (c :: rest) with
    | some after => some ([], after)
    | none => (cutAt? mark rest).map fun (before, after) => (c :: before, after)

/-- The parts before and after the last occurrence of `mark`. -/
def cutAtLast? (mark t : Text) : Option (Text × Text) :=
  (cutAt? mark.reverse t.reverse).map fun (after, before) => (before.reverse, after.reverse)

/-- Whether `part` occurs in `t` as a contiguous piece. -/
def contains (t part : Text) : Bool := (cutAt? part t).isSome

/-! ## Pieces -/

/-- The nonempty runs of non-blank characters, in order. -/
def words (t : Text) : List Text := (t.splitOnP isBlank).filter (· ≠ [])

/-- Drop one carriage return at the end, if there is one. -/
def dropReturn (line : Text) : Text :=
  if line.getLast? = some '\r' then line.dropLast else line

/-- The lines of a document. Every line feed ends a line, with or without a
carriage return before it, and the text after the last line feed is a line too,
even when it is empty. -/
def lines (t : Text) : List Text := (t.splitOn '\n').map dropReturn

/-- Lines of a stream, from its pieces between line feeds: the text after the
last line feed counts only when it is nonempty, and keeps a carriage return. -/
def streamPieces : List Text → List Text
  | [] => []
  | [last] => if last = [] then [] else [last]
  | piece :: rest => dropReturn piece :: streamPieces rest

/-- The lines of a stream such as a program's output, where a line feed ends a
line and an empty remainder is no line. -/
def streamLines (t : Text) : List Text := streamPieces (t.splitOn '\n')

/-- Replace each character `a` by `b`. -/
def replaceChar (a b : Char) (t : Text) : Text := t.map fun c => if c = a then b else c

/-- Write backslashes as slashes. -/
def slashed (t : Text) : Text := replaceChar '\\' '/' t

/-- The texts in order with `separator` between neighbours. -/
def join (separator : Text) (parts : List Text) : Text := separator.intercalate parts

end Text

end AsmServer
