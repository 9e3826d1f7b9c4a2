import AsmServer.Assembly.Result
import AsmServer.Uri.Url
import AsmServer.Workspace.Registry

/-!
# Where symbols are defined

The assembler names the defining file of a symbol as an include directive names it.
Here that name leads back to a tracked file, and a symbol to the range of its
definition. A symbol without a file name belongs to the entry file.
-/

namespace AsmServer

/-- A range in a document, as answers carry it. -/
structure Location where
  url : Text
  range : Range
  deriving DecidableEq, Repr

namespace Symbol

/-- Whether a symbol is defined in a file. -/
def isDefinedIn (symbol : Symbol) (r : Registry) (uri : Uri) : Bool :=
  match symbol.file? with
  | none => r.isEntry uri
  | some name => uri.endsWithPath name

/-- The tracked file that defines a symbol. -/
def definingFile? (symbol : Symbol) (r : Registry) : Option TrackedFile := r.named? symbol.file?

/-- The range of the definition, if its line is known. -/
def definitionRange? (symbol : Symbol) : Option Range :=
  if symbol.hasDefinition then
    some (.onLine (symbol.line - 1) symbol.firstColumn symbol.lastColumn)
  else none

/-- The location of the definition. -/
def definition? (symbol : Symbol) (r : Registry) : Option Location := do
  let range ← symbol.definitionRange?
  let file ← symbol.definingFile? r
  let url ← file.uri.url?
  return ⟨url, range⟩

end Symbol

end AsmServer
