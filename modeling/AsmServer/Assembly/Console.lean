import AsmServer.Assembly.Listing

/-!
# Errors on the console

The assembler prints its errors and does not list them. A printed error names its
place before a mark such as `: error: ` and tells its message after it; the place
is `file (line)` or `file:line`. Marks are tried in a fixed order, so the first
kind of mark on the line wins wherever it stands.

Printed errors are then attached to the lines of the listing that they name. An
error of a line that was never listed gets a line of its own at the end.
-/

namespace AsmServer

/-- An error as printed. -/
structure ConsoleError where
  file? : Option Text
  line : Nat
  message : Text
  deriving DecidableEq, Repr

namespace ConsoleError

/-- The marks between place and message, in the order in which they are tried. -/
def marks : List Text := [": error: ", ": fatal: ", ": warning: "].map String.toList

/-- Separate the file from the text of the line number. -/
def splitPlace? (place : Text) : Option (Text × Text) :=
  match Text.cutAtLast? " (".toList place with
  | some (file, rest) => (Text.beforeTail? [')'] rest).map fun number => (file, number)
  | none => Text.cutAtLast? [':'] place

/-- Read one printed line; `entry` is the name of the entry file. -/
def ofLine? (entry line : Text) : Option ConsoleError := do
  let (place, message) ← marks.findSome? (Text.cutAt? · line)
  let (file, number) ← splitPlace? place
  let number ← Text.readNat? 10 Text.bound32 (Text.trim number)
  return ⟨Listing.attributedFile? entry file, number, Text.trim message⟩

/-- The errors among the printed lines. -/
def parse (entry : Text) (output : List Text) : List ConsoleError :=
  output.filterMap (ofLine? entry)

/-- Whether the error names this line of the listing. -/
def names (error : ConsoleError) (line : ListingLine) : Bool :=
  line.number == error.line && line.file? == error.file?

/-- The line with the message behind the messages it has. -/
def addTo (error : ConsoleError) (line : ListingLine) : ListingLine :=
  { line with
    error? := some <|
      match line.error? with
      | some previous => previous ++ "; ".toList ++ error.message
      | none => error.message }

/-- A line made for an error that names no listed line. -/
def toLine (error : ConsoleError) : ListingLine :=
  { number := error.line, file? := error.file?, error? := some error.message }

/-- Attach one error to the first line that it names. -/
def attach (error : ConsoleError) : List ListingLine → List ListingLine
  | [] => [error.toLine]
  | line :: rest =>
    if error.names line then error.addTo line :: rest else line :: error.attach rest

/-- Attach all errors, in order. -/
def attachAll (errors : List ConsoleError) (listing : List ListingLine) : List ListingLine :=
  errors.foldl (fun listing error => error.attach listing) listing

end ConsoleError

end AsmServer
