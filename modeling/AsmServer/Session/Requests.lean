import AsmServer.Answer.Completion
import AsmServer.Answer.Links
import AsmServer.Answer.Navigation
import AsmServer.Answer.SymbolSearch
import AsmServer.Session.Basic

/-!
# Requests of the editor

Questions about a document are answered from the project that the workspace chooses
for it, and have no answer when no project tracks the document. Completion alone
answers without a project too, with the words of the language.
-/

namespace AsmServer

/-- What the server can do, as told to the editor. -/
structure Capabilities where
  openClose : Bool := true
  /-- Changes carry the whole text. -/
  changeKind : Nat := 1
  save : Bool := true
  hover : Bool := true
  completionTriggers : List Text := [['.']]
  completionResolve : Bool := true
  definition : Bool := true
  references : Bool := true
  highlight : Bool := true
  rename : Bool := true
  documentSymbols : Bool := true
  workspaceSymbols : Bool := true
  links : Bool := true
  linkResolve : Bool := true
  deriving DecidableEq, Repr

/-- The name under which the server presents itself. -/
def serverName : Text := "dasm-lsp".toList

/-- The version of the server. -/
def serverVersion : Text := "0.1.0".toList

namespace Session

variable (s : Session) (uri : Uri) (position : Position)

/-- Begin: take over the settings that come with the greeting, if there are any. -/
def begin (host : Host) (settings? : Option Json) : Option (Session × Capabilities) :=
  match settings? with
  | none => some (s, {})
  | some settings => (s.configure host settings).map fun s => (s, {})

/-- The project to answer from. -/
def project? : Option Project := s.workspace.projectFor? uri

/-- What to show for the word at a position. -/
def hover? : Option Hover := (s.project? uri).bind (Hover.at? · uri position)

/-- What may complete a word in a document. -/
def completion : List CompletionItem :=
  CompletionItem.all ((s.project? uri).bind (·.result?)) s.config.prefer

/-- Where the symbol at a position is defined. -/
def definition? : Option Location := (s.project? uri).bind (·.definition? uri position)

/-- Where the symbol at a position is used. -/
def references? (withDeclaration : Bool) : Option (List Location) :=
  (s.project? uri).bind (·.references? uri position withDeclaration)

/-- The edits that rename the symbol at a position. -/
def rename? (newName : Text) : Option (List DocumentEdit) :=
  (s.project? uri).bind (·.rename? uri position newName)

/-- The occurrences of the symbol at a position in its document. -/
def highlights? : Option (List Occurrence) := (s.project? uri).bind (·.highlights? uri position)

/-- The links of a document. -/
def links? : Option (List DocumentLink) := (s.project? uri).map (·.links uri)

/-- The symbols defined in a document. -/
def documentSymbols? : Option (List SymbolEntry) := (s.project? uri).map (·.documentSymbols uri)

/-- The symbols of all projects that match a query. -/
def searchSymbols (query : Text) : List SymbolEntry :=
  workspaceSymbols s.workspace.projects query

/-- The entry files of all projects. -/
def entryFiles : List DocumentLink := entryLinks s.workspace.projects

end Session

end AsmServer
