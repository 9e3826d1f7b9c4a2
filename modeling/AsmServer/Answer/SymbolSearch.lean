import AsmServer.Answer.Location
import AsmServer.Text.Lowercase
import AsmServer.Workspace.Project

/-!
# Lists of symbols

The symbols of a document are those defined in it, in the order of the symbol table.
The symbols of a workspace are found by a part of their name, both lower-cased.
Symbols without a known definition are not listed.
-/

namespace AsmServer

/-- A symbol as listed. -/
structure SymbolEntry where
  name : Text
  isLabel : Bool
  location : Location
  deriving DecidableEq, Repr

/-- The kind that the editor shows: a function for a label, a constant otherwise. -/
def SymbolEntry.kind (entry : SymbolEntry) : Nat := if entry.isLabel then 12 else 14

namespace Project

/-- The symbols defined in a file. -/
def documentSymbols (p : Project) (uri : Uri) : List SymbolEntry :=
  match p.result?, uri.url? with
  | some result, some url =>
    (result.symbols.filter (·.isDefinedIn p.registry uri)).filterMap fun symbol =>
      symbol.definitionRange?.map fun range => ⟨symbol.name, symbol.isLabel, ⟨url, range⟩⟩
  | _, _ => []

/-- The symbols whose lower-cased name contains `part`. -/
def symbolsContaining (p : Project) (part : Text) : List SymbolEntry :=
  match p.result? with
  | none => []
  | some result =>
    (result.symbols.filter fun symbol => Text.contains (Text.lowercase symbol.name) part).filterMap
      fun symbol => (symbol.definition? p.registry).map fun location =>
        ⟨symbol.name, symbol.isLabel, location⟩

end Project

/-- The symbols of all projects whose name contains the query, whatever the case. -/
def workspaceSymbols (projects : List Project) (query : Text) : List SymbolEntry :=
  projects.flatMap (·.symbolsContaining (Text.lowercase query))

end AsmServer
