import AsmServer.Assembly.Console
import AsmServer.Assembly.Directory
import AsmServer.Assembly.SymbolTable
import AsmServer.Text.Utf8

/-!
# Running the assembler

A request is the text of the entry file and the includes by name. The assembler
program is a function of what it is started with, its arguments and its directory,
to what it prints, the files that it writes and how it ends. The result is read
from those alone: a listing that is missing or no text is empty, a symbol dump that
is missing or no text gives no table, and a program that a signal ends has the
status -1.

A run that fails before the program starts is reported in the result too.
-/

namespace AsmServer

/-- What is to be assembled. -/
structure Request where
  source : Text
  includes : Assembly.Includes
  deriving DecidableEq, Repr

namespace Assembly

/-- The file that receives the machine code. -/
def outputName : Text := "__output__.bin".toList

/-- The file that receives the listing. -/
def listingName : Text := "__listing__.lst".toList

/-- The file that receives the symbol dump. -/
def symbolsName : Text := "__symbols__.sym".toList

/-- What the program is started with. -/
structure Invocation where
  arguments : List Text
  /-- The directory in which it starts. -/
  work : Place
  tree : FileTree

/-- What the program does. -/
structure Outcome where
  stdout : List UInt8 := []
  stderr : List UInt8 := []
  /-- Files written in the directory in which it starts. -/
  written : List (Text × List UInt8) := []
  /-- The exit status; none if a signal ended the program. -/
  status? : Option Int := some 0

/-- A program that may be started. -/
abbrev Program := Invocation → Outcome

/-- Why a run yields no result of the program. -/
inductive RunError where
  | preparation (error : FileError)
  | notFound (executable : Text)
  deriving DecidableEq, Repr

/-- Wording of the failure. -/
def RunError.message : RunError → Text
  | preparation error => "failed to prepare assembly directory: ".toList ++ error.message
  | notFound executable =>
    "failed to run ".toList ++ executable ++ ": No such file or directory (os error 2)".toList

/-- How the program is started on a directory. -/
def Layout.invocation (layout : Layout) (work : Place) : Invocation where
  arguments :=
    [entryName, "-f3".toList, "-o".toList ++ outputName, "-l".toList ++ listingName,
      "-s".toList ++ symbolsName] ++ layout.searchDirs.map fun (_, dir) => "-I".toList ++ dir
  work
  tree := layout.tree

/-- Prepare the directory of a request. -/
def invocation (request : Request) : Except RunError Invocation :=
  match Layout.of request.source request.includes with
  | .ok layout => .ok (layout.invocation (workPlace (depth request.includes)))
  | .error error => .error (.preparation error)

/-- The bytes of a file in the directory of the program after it ended. -/
def readBack? (invocation : Invocation) (outcome : Outcome) (name : Text) : Option (List UInt8) :=
  let place := invocation.work ++ [name]
  if invocation.tree.isDirectory place then none
  else (outcome.written.lookup name).or ((invocation.tree.file? place).map Utf8.encode)

/-- The text of a file after the program ended. -/
def readTextBack? (invocation : Invocation) (outcome : Outcome) (name : Text) : Option Text :=
  (readBack? invocation outcome name).bind Utf8.decode?

/-- Read the result of a program that ran. -/
def Outcome.result (outcome : Outcome) (invocation : Invocation) : AssemblyResult :=
  let output :=
    Text.streamLines (Utf8.decodeLenient outcome.stdout) ++
      Text.streamLines (Utf8.decodeLenient outcome.stderr)
  let listed :=
    ((readTextBack? invocation outcome listingName).map (Listing.parse entryName)).getD []
  let listing := ConsoleError.attachAll (ConsoleError.parse entryName output) listed
  { data := ((readBack? invocation outcome outputName).getD []).map UInt8.toNat
    output
    listing? := some listing
    symbols? := (readTextBack? invocation outcome symbolsName).map fun dump =>
      SymbolTable.locateAll listing (SymbolTable.parse dump)
    exitStatus := outcome.status?.getD (-1)
    success := outcome.status? == some 0 }

/-- Run the program that `executable` names, if there is one. -/
def run (executable : Text) (program? : Option Program) (request : Request) :
    Except RunError AssemblyResult := do
  let invocation ← invocation request
  match program? with
  | none => .error (.notFound executable)
  | some program => return (program invocation).result invocation

/-- The result of a run, failed or not. -/
def assemble (executable : Text) (program? : Option Program) (request : Request) :
    AssemblyResult :=
  match run executable program? request with
  | .ok result => result
  | .error error => .failed error.message

end Assembly

/-- An assembler in use: what it answers to its next requests, counted from zero,
and how many requests it has answered. -/
structure Assembler where
  answer : Nat → Request → AssemblyResult
  answered : Nat := 0

namespace Assembler

/-- An assembler that answers by the request alone. -/
def ofFunction (answer : Request → AssemblyResult) : Assembler := ⟨fun _ => answer, 0⟩

/-- The assembler that runs a program. -/
def ofProgram (executable : Text) (program? : Option Assembly.Program) : Assembler :=
  ofFunction (Assembly.assemble executable program?)

/-- The answer to a request, and the assembler after it. -/
def run (assembler : Assembler) (request : Request) : AssemblyResult × Assembler :=
  (assembler.answer assembler.answered request,
    { assembler with answered := assembler.answered + 1 })

end Assembler

end AsmServer
