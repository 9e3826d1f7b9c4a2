import AsmServer.Catalog
import AsmServer.Workspace.Project

/-!
# Diagnostics

The errors of an assembly become diagnostics of the files that they name. Every
tracked file has an entry, so a file whose errors are gone is cleared. An error that
names no tracked file goes to the entry file and tells in its message where it
belongs; so does a failure that names no error at all.

The assembler quotes the text it objects to. If that text is on the line the
diagnostic covers its first occurrence, and otherwise the whole line.
-/

namespace AsmServer

/-- An error shown in a document. -/
structure Diagnostic where
  range : Range := {}
  message : Text
  deriving DecidableEq, Repr

namespace Diagnostic

/-- Severity of every diagnostic: an error. -/
def severity : Nat := 1

/-- The tool that diagnostics come from. -/
def source : Text := "dasm".toList

/-- The text between the first two single quotes, unless it is empty. -/
def quoted? (message : Text) : Option Text := do
  let (_, rest) ← Text.cutAt? ['\''] message
  let (quoted, _) ← Text.cutAt? ['\''] rest
  if quoted = [] then none else some quoted

/-- The columns of the line that a message is about. -/
def span (line message : Text) : Nat × Nat :=
  match (quoted? message).bind fun quoted =>
      (Text.cutAt? quoted line).map fun (before, _) => (before, quoted) with
  | some (before, quoted) => (Text.width before, Text.width (before ++ quoted))
  | none => (0, Text.width line)

/-- The diagnostic of an error in a tracked file. -/
def inFile (file : TrackedFile) (number : Nat) (message : Text) : Diagnostic :=
  let line := number - 1
  let (first, last) := span ((file.line? line).getD []) message
  ⟨.onLine line first last, message⟩

/-- The diagnostic of an error in a file that is not tracked. -/
def elsewhere (line : ListingLine) (message : Text) : Diagnostic where
  message :=
    match line.file? with
    | some name => name ++ " (".toList ++ Text.ofNat 10 line.number ++ "): ".toList ++ message
    | none => message

/-- The diagnostic of a listed error and the file that gets it; `entry` gets those
that name no tracked file. -/
def ofError? (r : Registry) (entry : Uri) (line : ListingLine) : Option (Uri × Diagnostic) :=
  line.error?.map fun message =>
    match r.named? line.file? with
    | some file => (file.uri, inFile file line.number message)
    | none => (entry, elsewhere line message)

/-- What to say about a failure without any listed error: the first line printed
that is not blank, or else the exit status. -/
def silentFailure (result : AssemblyResult) : Diagnostic where
  message :=
    (result.output.find? fun line => Text.trim line ≠ []).getD <|
      "assembly failed with status ".toList ++ Text.ofInt result.exitStatus

/-- The diagnostics of a result in the order of its listing, each with its file. -/
def ofResult (r : Registry) (entry : Uri) (result : AssemblyResult) : List (Uri × Diagnostic) :=
  result.errors.filterMap (ofError? r entry) ++
    if !result.success && result.errors.isEmpty then [(entry, silentFailure result)] else []

/-- Add a diagnostic behind those of its file. -/
def addTo (catalog : Catalog Uri (List Diagnostic)) (placed : Uri × Diagnostic) :
    Catalog Uri (List Diagnostic) :=
  catalog.alter placed.1 fun list? => list?.getD [] ++ [placed.2]

/-- The diagnostics of every tracked file. -/
def perFile (r : Registry) (result : AssemblyResult) : Catalog Uri (List Diagnostic) :=
  let clear := Catalog.ofList (r.uris.map fun uri => (uri, []))
  match r.entry? with
  | none => clear
  | some entry => (ofResult r entry result).foldl addTo clear

/-- The diagnostic of an include cycle, at the include that closes it. -/
def ofCycle? (error : ProjectError) : Option (Uri × Diagnostic) :=
  match error with
  | .includeCycle _ file range => some (file, ⟨range, error.message⟩)
  | _ => none

end Diagnostic

end AsmServer
