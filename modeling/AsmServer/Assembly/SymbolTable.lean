import AsmServer.Assembly.Listing

/-!
# Symbol tables

The assembler dumps one symbol per line: a name, a hexadecimal value and flags,
`R` among them for a symbol that is used. The names of local labels start with the
number of their subroutine, which the source does not write.

Where a symbol is defined is read off the listing. The first line with the symbol
as its label defines it; the symbol is a value if that line assigns it and a label
otherwise. Symbols that label no line come from pseudo-ops.
-/

namespace AsmServer

namespace SymbolTable

/-- The name as the source writes it: without digits before its first dot. -/
def sourceName (name : Text) : Text :=
  match name.takeWhile Char.isDigit, name.dropWhile Char.isDigit with
  | _ :: _, '.' :: rest => '.' :: rest
  | _, _ => name

/-- Read one line of a dump; rulers and empty lines are none. -/
def symbolOfLine? (line : Text) : Option Symbol :=
  if (Text.afterLead? "---".toList line).isSome then none
  else
    match Text.words line with
    | [] => none
    | name :: fields =>
      some {
        name := sourceName name
        value := (Text.readInt? 16 Text.bound63 (fields.head?.getD [])).getD 0
        wasReferenced := fields.tail.any ('R' ∈ ·) }

/-- Read a dump. -/
def parse (text : Text) : List Symbol := (Text.streamLines text).filterMap symbolOfLine?

/-- Mnemonics that assign a value to their label. -/
def assignments : List Text := ["equ", "set", "eqm", "="].map String.toList

/-- Whether the command of a line assigns a value to its label. -/
def isAssignment : Option Text → Bool
  | none => false
  | some command =>
    command.head? == some '=' ||
      assignments.any (Text.sameIgnoringCase ((Text.words command).head?.getD []))

/-- Fill in where a symbol is defined and whether it is a label. -/
def locate (listing : List ListingLine) (symbol : Symbol) : Symbol :=
  match listing.find? fun line => Listing.label? line == some symbol.name with
  | none => { symbol with wasPseudoOpCreated := true, isLabel := false }
  | some line =>
    { symbol with
      file? := line.file?
      line := line.number
      firstColumn := 0
      lastColumn := Text.width symbol.name
      isLabel := !isAssignment line.command? }

/-- Fill in the definitions of a whole table. -/
def locateAll (listing : List ListingLine) (symbols : List Symbol) : List Symbol :=
  symbols.map (locate listing)

end SymbolTable

end AsmServer
