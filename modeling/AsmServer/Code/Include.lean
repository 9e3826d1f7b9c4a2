import AsmServer.Code.Line

/-!
# Include directives

`include` names a file to read in place, `incdir` a directory to search for such
files. A directive stands where mnemonics stand: it is the first word of a line
that starts with a blank, or the second word of one that starts with a label. Dots
in front and the case of its letters do not matter, and the next word is its
argument.

Files are searched first from the current directory and then from the directories
named, in the order of the lines.
-/

namespace AsmServer

namespace Code

/-- An include directive: the file as written, without quotes, and the range of
the argument with its quotes. -/
structure Include where
  name : Text
  range : Range
  deriving DecidableEq, Repr

/-- The argument of the directive `keyword`, if the line holds that directive. -/
def directiveArgument? (keyword line : Text) : Option Word := do
  let first ← Word.first? (code line)
  let directive ← if first.before = [] then first.following? else some first
  if Text.sameIgnoringCase (directive.text.dropWhile (· = '.')) keyword then
    directive.following?
  else none

/-- The argument without quotes, unless nothing is left. -/
def argumentName? (word : Word) : Option Text :=
  let name := unquote word.text
  if name = [] then none else some name

/-- The include directive on line number `number`, if it names a file. -/
def includeOnLine? (number : Nat) (line : Text) : Option Include := do
  let word ← directiveArgument? "include".toList line
  let name ← argumentName? word
  return ⟨name, word.range number⟩

/-- The include directives of lines that start at number `number`. -/
def includesFrom (number : Nat) : List Text → List Include
  | [] => []
  | line :: rest => (includeOnLine? number line).toList ++ includesFrom (number + 1) rest

/-- Every include directive, in the order of the lines. -/
def includes (lines : List Text) : List Include := includesFrom 0 lines

/-- Every directory named for searching, in the order of the lines. -/
def includeDirs (lines : List Text) : List Text :=
  lines.filterMap fun line => (directiveArgument? "incdir".toList line).bind argumentName?

/-- Add a directory behind the others, unless it is among them. -/
def addDir (dirs : List Text) (dir : Text) : List Text :=
  if dirs.contains dir then dirs else dirs ++ [dir]

/-- The directories to search, each once, the current one first. -/
def searchPath (lines : List Text) : List Text := (includeDirs lines).foldl addDir [['.']]

end Code

end AsmServer
