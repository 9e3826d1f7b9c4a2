import AsmServer.Range
import AsmServer.Text.Columns

/-!
# Source lines

A source line is code and then a comment. A semicolon starts the comment unless
it stands in a double-quoted string or directly after a single quote, which makes
a character constant of it.

Code splits into words at ASCII blanks, a double-quoted string being one word. A
word is kept with the text before and after it, so its columns can be measured
and the next word can be found.
-/

namespace AsmServer

namespace Code

/-! ## Comments -/

/-- Where a character of a line stands. -/
inductive Place where
  /-- Outside strings and character constants. -/
  | plain
  /-- Inside a double-quoted string. -/
  | quoted
  /-- Directly after a single quote. -/
  | literal
  deriving DecidableEq, Repr

/-- The place of the character after `c`. -/
def Place.next : Place → Char → Place
  | .literal, _ => .plain
  | .quoted, c => if c = '"' then .plain else .quoted
  | .plain, c => if c = '"' then .quoted else if c = '\'' then .literal else .plain

/-- The code at the front of the rest of a line. -/
def codeFrom (place : Place) : Text → Text
  | [] => []
  | c :: rest =>
    if place = .plain ∧ c = ';' then [] else c :: codeFrom (place.next c) rest

/-- The part of a line before its comment. -/
def code (line : Text) : Text := codeFrom .plain line

/-- Byte offset of the comment, if the line has one. -/
def commentStart? (line : Text) : Option Nat :=
  let code := code line
  if code.length < line.length then some (Text.byteSize code) else none

/-! ## Quotes -/

/-- The text between two equal `quote`s around a value. -/
def insideQuotes? (quote : Char) (value : Text) : Option Text :=
  if 2 ≤ value.length ∧ value.head? = some quote ∧ value.getLast? = some quote then
    some value.tail.dropLast
  else none

/-- Remove one pair of double or single quotes around a value. -/
def unquote (value : Text) : Text :=
  ((insideQuotes? '"' value).or (insideQuotes? '\'' value)).getD value

/-! ## Words -/

/-- A word of a line, between the text before it and the text after it. -/
structure Word where
  before : Text
  text : Text
  after : Text
  deriving DecidableEq, Repr

namespace Word

/-- Column of the first character. -/
def first (word : Word) : Nat := Text.width word.before

/-- Column after the last character. -/
def last (word : Word) : Nat := Text.width (word.before ++ word.text)

/-- The range of the word on line number `line`. -/
def range (word : Word) (line : Nat) : Range := .onLine line word.first word.last

/-- The word at the front of nonblank text, and what follows it. -/
def cut (t : Text) : Text × Text :=
  match t with
  | '"' :: body =>
    let inside := body.takeWhile (· ≠ '"')
    match body.dropWhile (· ≠ '"') with
    | [] => ('"' :: inside, [])
    | quote :: rest => ('"' :: inside ++ [quote], rest)
  | _ => (t.takeWhile (!Text.isAsciiBlank ·), t.dropWhile (!Text.isAsciiBlank ·))

/-- The first word of `rest`, where `seen` stands before it. -/
def next? (seen rest : Text) : Option Word :=
  match rest.dropWhile Text.isAsciiBlank with
  | [] => none
  | body =>
    let (text, after) := cut body
    some ⟨seen ++ rest.takeWhile Text.isAsciiBlank, text, after⟩

/-- The first word of a text. -/
def first? (t : Text) : Option Word := next? [] t

/-- The word after this one. -/
def following? (word : Word) : Option Word := next? (word.before ++ word.text) word.after

end Word

end Code

end AsmServer
