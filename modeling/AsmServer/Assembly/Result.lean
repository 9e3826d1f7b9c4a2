import AsmServer.Text.Basic

/-!
# Results of an assembly

One run of the assembler yields the machine code, what it printed, a listing of
the source with addresses and errors, and a table of symbols. Files are named as
the include directives name them; the entry file, which no directive names, has no
name.
-/

namespace AsmServer

/-- One line of a listing. -/
structure ListingLine where
  /-- Line number in its file, from one. -/
  number : Nat := 0
  /-- The file; none for the entry file. -/
  file? : Option Text := none
  address : Nat := 0
  bytes? : Option (List Nat) := none
  /-- The source text as listed. -/
  raw : Text := []
  error? : Option Text := none
  comment? : Option Text := none
  command? : Option Text := none
  deriving DecidableEq, Repr, Inhabited

/-- A symbol of the assembled program. -/
structure Symbol where
  name : Text := []
  /-- Whether the value is an address. -/
  isLabel : Bool := false
  value : Int := 0
  wasReferenced : Bool := false
  /-- Whether no line of the listing defines the symbol. -/
  wasPseudoOpCreated : Bool := false
  /-- The defining file; none for the entry file. -/
  file? : Option Text := none
  /-- The defining line, from one; zero when it is unknown. -/
  line : Nat := 0
  /-- Columns of the name on the defining line. -/
  firstColumn : Nat := 0
  lastColumn : Nat := 0
  deriving DecidableEq, Repr, Inhabited

namespace Symbol

/-- Whether the symbol is a value and no address. -/
def isConstant (symbol : Symbol) : Bool := !symbol.isLabel

/-- Whether the defining line is known. -/
def hasDefinition (symbol : Symbol) : Bool := 0 < symbol.line

end Symbol

/-- The outcome of one run of the assembler. -/
structure AssemblyResult where
  data : List Nat := []
  output : List Text := []
  listing? : Option (List ListingLine) := none
  symbols? : Option (List Symbol) := none
  exitStatus : Int := 0
  success : Bool := false
  deriving DecidableEq, Repr, Inhabited

namespace AssemblyResult

/-- The outcome of a run that never came to assemble anything. -/
def failed (message : Text) : AssemblyResult := { output := [message], exitStatus := -1 }

/-- The listing, empty if there is none. -/
def listing (result : AssemblyResult) : List ListingLine := result.listing?.getD []

/-- The symbols, none if there is no table. -/
def symbols (result : AssemblyResult) : List Symbol := result.symbols?.getD []

/-- The symbol of exactly this name. -/
def symbol? (result : AssemblyResult) (name : Text) : Option Symbol :=
  result.symbols.find? (·.name == name)

/-- The lines of the listing that carry an error. -/
def errors (result : AssemblyResult) : List ListingLine :=
  result.listing.filter (·.error?.isSome)

end AssemblyResult

end AsmServer
