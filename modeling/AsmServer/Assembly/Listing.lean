import AsmServer.Assembly.Result
import AsmServer.Path
import AsmServer.Text.Columns
import AsmServer.Text.Numeral

/-!
# Listings

The assembler lists the source in sections, each under a header that names its
file. A line holds its number, a flag column, the address, twelve bytes for the
machine code and the source text, in which a tab starts the comment. Fields are cut
by bytes, so a field that would end inside a character is missing.

The label of a line is the word in its first column.
-/

namespace AsmServer

namespace Listing

/-- What the header of a section starts with. -/
def headerLead : Text := "------- FILE ".toList

/-- Bytes of the machine code field. -/
def codeField : Nat := 12

/-- The file that the assembler means by `name`: none for the entry file. -/
def attributedFile? (entry name : Text) : Option Text :=
  let name := Path.dropHere (Text.trim name)
  if name = entry then none else some name

/-- The file named by a header, after its lead. -/
def headerFile? (entry header : Text) : Option Text :=
  let name := ((Text.cutAt? " LEVEL ".toList header).map (·.1)).getD header
  attributedFile? entry (Text.trim name)

/-- Separate the source text from its comment at the first tab. -/
def splitComment (source : Text) : Text × Text :=
  (Text.cutAt? ['\t'] source).getD (source, [])

/-- The text, unless it is empty. -/
def nonempty? (t : Text) : Option Text := if t = [] then none else some t

/-- The code of a listed line after its label. -/
def commandOf (code : Text) : Text :=
  if Text.startsBlank code then Text.trim code
  else Text.trim (code.dropWhile (!Text.isBlank ·))

/-- The comment of a listed line without its semicolons. -/
def commentOf (comment : Text) : Text :=
  Text.trim ((Text.trim comment).dropWhile (· = ';'))

/-- Read one listed line of the file `file?`; text without a number in front is
none. -/
def lineOf? (file? : Option Text) (line : Text) : Option ListingLine := do
  let trimmed := Text.trimStart line
  let number ← Text.readNat? 10 Text.bound32 (trimmed.takeWhile Char.isDigit)
  let rest := (Text.dropBytes? 2 (trimmed.dropWhile Char.isDigit)).getD []
  let address := rest.takeWhile (!Text.isBlank ·)
  let afterAddress := (Text.dropBytes? 1 (rest.dropWhile (!Text.isBlank ·))).getD []
  let codeText := (Text.takeBytes? (codeField - 1) afterAddress).getD afterAddress
  let bytes := (Text.words codeText).filterMap (Text.readNat? 16 Text.bound8)
  let source := (Text.dropBytes? codeField afterAddress).getD []
  let (code, comment) := splitComment source
  return {
    number
    file?
    address := (Text.readNat? 16 Text.bound32 address).getD 0
    bytes? := if bytes = [] then none else some bytes
    raw := Text.trimEnd source
    comment? := nonempty? (commentOf comment)
    command? := nonempty? (commandOf (Text.trimEnd code)) }

/-- Read listed lines, the first of which belong to the file `file?`. -/
def linesFrom (entry : Text) (file? : Option Text) : List Text → List ListingLine
  | [] => []
  | line :: rest =>
    match Text.afterLead? headerLead line with
    | some header => linesFrom entry (headerFile? entry header) rest
    | none => (lineOf? file? line).toList ++ linesFrom entry file? rest

/-- Read a listing, where `entry` is the name of the entry file. -/
def parse (entry text : Text) : List ListingLine := linesFrom entry none (Text.streamLines text)

/-- The label of a listed line: the word in its first column, without colons at
its end. -/
def label? (line : ListingLine) : Option Text :=
  if Text.startsBlank line.raw then none
  else
    match Text.words line.raw with
    | [] => none
    | word :: _ => nonempty? (Text.dropEndWhile (· = ':') word)

end Listing

end AsmServer
