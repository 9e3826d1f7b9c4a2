import AsmServer.Answer.Location
import AsmServer.Code.Occurrence
import AsmServer.Workspace.Project

/-!
# Navigation

Questions about the symbol under the cursor: where it is defined, where it is used,
and which edits rename it. They are answered from the latest assembly and the
tracked texts, and have no answer when the cursor is on no symbol. Occurrences in
comments are neither references nor renamed; highlights show them as plain text.
-/

namespace AsmServer

/-- A replacement of the text in a range. -/
structure TextEdit where
  range : Range
  newText : Text
  deriving DecidableEq, Repr

/-- The edits of one document. The version is that of the text they are made for; a
file that is not open has none. -/
structure DocumentEdit where
  url : Text
  version? : Option Int
  edits : List TextEdit
  deriving DecidableEq, Repr

namespace Project

/-- The symbol at a position. -/
def symbolAt? (p : Project) (uri : Uri) (position : Position) : Option Symbol := do
  let file ← p.registry.find? uri
  let line ← file.line? position.line
  let word ← Code.identifierAt? line position.column
  (← p.result?).symbol? word.text

/-- The occurrences of a symbol in a file. -/
def occurrencesIn (p : Project) (symbol : Symbol) (file : TrackedFile) : List Occurrence :=
  Code.occurrences symbol (symbol.isDefinedIn p.registry file.uri) file.lines

/-- The occurrences of a symbol in each file that has a text, in the order of the
files. -/
def occurrences (p : Project) (symbol : Symbol) : List (TrackedFile × List Occurrence) :=
  (p.registry.files.filter (·.contents?.isSome)).map fun file => (file, p.occurrencesIn symbol file)

/-- Where the symbol at a position is defined. -/
def definition? (p : Project) (uri : Uri) (position : Position) : Option Location :=
  (p.symbolAt? uri position).bind (·.definition? p.registry)

/-- Whether an occurrence counts as a reference. -/
def isReference (withDeclaration : Bool) (occurrence : Occurrence) : Bool :=
  match occurrence.kind with
  | .comment => false
  | .declaration => withDeclaration
  | .reference => true

/-- The references to the symbol at a position, with or without its declaration. -/
def references? (p : Project) (uri : Uri) (position : Position) (withDeclaration : Bool) :
    Option (List Location) :=
  (p.symbolAt? uri position).map fun symbol =>
    (p.occurrences symbol).flatMap fun (file, occurrences) =>
      match file.uri.url? with
      | none => []
      | some url => (occurrences.filter (isReference withDeclaration)).map fun o => ⟨url, o.range⟩

/-- The edits that rename a symbol in one file, if any are needed. -/
def renameIn? (newName : Text) (file : TrackedFile) (occurrences : List Occurrence) :
    Option DocumentEdit := do
  let edits := (occurrences.filter (·.kind ≠ .comment)).map fun o => ⟨o.range, newName⟩
  if edits = [] then none
  let url ← file.uri.url?
  return ⟨url, file.documentVersion?, edits⟩

/-- The edits that rename the symbol at a position. -/
def rename? (p : Project) (uri : Uri) (position : Position) (newName : Text) :
    Option (List DocumentEdit) :=
  (p.symbolAt? uri position).map fun symbol =>
    (p.occurrences symbol).filterMap fun (file, occurrences) => renameIn? newName file occurrences

/-- The occurrences of the symbol at a position in the same file. -/
def highlights? (p : Project) (uri : Uri) (position : Position) : Option (List Occurrence) := do
  let symbol ← p.symbolAt? uri position
  let file ← p.registry.find? uri
  return p.occurrencesIn symbol file

end Project

/-- How the editor shows an occurrence: as text, as read or as written. -/
def OccurrenceKind.highlight : OccurrenceKind → Nat
  | comment => 1
  | reference => 2
  | declaration => 3

end AsmServer
