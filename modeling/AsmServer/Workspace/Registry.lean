import AsmServer.Code.Include
import AsmServer.Workspace.Debouncer
import AsmServer.Workspace.Sources

/-!
# The file registry

A registry tracks the files of one project: the entry file and every file that it
includes, directly or through others. Each tracked file carries its text, its
include edges and, while the editor holds it open, the document it was read from.
Files are kept in the order in which they were added; the first is the entry file
for good.

Edges are plain URIs. A file that no chain of edges from the entry file reaches is
unreachable, and collecting drops all such files at once.
-/

namespace AsmServer

/-- An include edge. -/
structure Dependency where
  /-- The including file. -/
  parent : Uri
  /-- The included file as written. -/
  name : Text
  /-- The included file. -/
  uri : Uri
  /-- Where the parent names it. -/
  range : Range
  deriving DecidableEq, Repr

/-- Version of a text read from the disk. -/
def diskVersion : Int := -1

/-- A tracked file. -/
structure TrackedFile where
  uri : Uri
  /-- The text; none before the first load and after a failed one. -/
  contents? : Option Text := none
  version : Int := diskVersion
  dirty : Bool := false
  dependencies : List Dependency := []
  /-- The editor's document, while it is open. -/
  document? : Option Document := none
  deriving DecidableEq, Repr

namespace TrackedFile

/-- Whether the editor holds the file open. -/
def isOpen (file : TrackedFile) : Bool := file.document?.isSome

/-- The lines of the text; none without a text. -/
def lines (file : TrackedFile) : List Text := (file.contents?.map Text.lines).getD []

/-- The line of this number, from zero. -/
def line? (file : TrackedFile) (number : Nat) : Option Text := file.lines[number]?

/-- The targets of the edges. -/
def targets (file : TrackedFile) : List Uri := file.dependencies.map (·.uri)

/-- The version of the open document. -/
def documentVersion? (file : TrackedFile) : Option Int := file.document?.map (·.version)

end TrackedFile

/-- A refresh of the text of a file. -/
inductive Update where
  /-- From the editor. -/
  | editor (document : Document)
  /-- From the disk. -/
  | disk (uri : Uri)
  deriving DecidableEq, Repr

/-- The file to refresh. -/
def Update.uri : Update → Uri
  | editor document => document.uri
  | disk uri => uri

/-- A change of the registry, reported to its owner. -/
inductive FileEvent where
  | added (uri : Uri)
  | changed (uri : Uri)
  | removed (uri : Uri)
  deriving DecidableEq, Repr

/-- The tracked files of a project. -/
structure Registry where
  /-- Tracked files in the order in which they were added. -/
  files : List TrackedFile := []
  entry? : Option Uri := none
  debouncer : Debouncer Uri Update := {}
  /-- Changes since they were last drained, the oldest first. -/
  events : List FileEvent := []

namespace Registry

/-! ## Queries -/

/-- The tracked file of a URI. -/
def find? (r : Registry) (uri : Uri) : Option TrackedFile := r.files.find? (·.uri == uri)

/-- Whether a file is tracked. -/
def tracks (r : Registry) (uri : Uri) : Bool := (r.find? uri).isSome

/-- The URIs of the tracked files. -/
def uris (r : Registry) : List Uri := r.files.map (·.uri)

/-- The entry file. -/
def entryFile? (r : Registry) : Option TrackedFile := r.entry?.bind r.find?

/-- Whether this is the URI of the entry file. -/
def isEntry (r : Registry) (uri : Uri) : Bool := r.entry? == some uri

/-- The file that an include directive named `name` leads to, in `parent?` or, if
none is given, in any file. -/
def includedAs? (r : Registry) (parent? : Option Uri) (name : Text) : Option TrackedFile :=
  let parents :=
    match parent? with
    | some parent => (r.find? parent).toList
    | none => r.files
  parents.findSome? fun file => (file.dependencies.find? (·.name == name)).bind (r.find? ·.uri)

/-- The file that the assembler means by a name: no name is the entry file, then
the literal name of a directive counts, then the end of a path. -/
def named? (r : Registry) : Option Text → Option TrackedFile
  | none => r.entryFile?
  | some name => (r.includedAs? none name).or (r.files.find? (·.uri.endsWithPath name))

/-- The generation of the update held back. -/
def pending? (r : Registry) : Option Nat := r.debouncer.pending?

/-! ## Single changes -/

/-- Report a change. -/
def report (r : Registry) (event : FileEvent) : Registry := { r with events := r.events ++ [event] }

/-- Start tracking a file, unless it is tracked. -/
def add (r : Registry) (uri : Uri) : Registry :=
  if r.tracks uri then r
  else
    { r with
      files := r.files ++ [{ uri }]
      entry? := r.entry?.or (some uri)
      events := r.events ++ [.added uri] }

/-- Change the tracked file of a URI. -/
def modify (r : Registry) (uri : Uri) (change : TrackedFile → TrackedFile) : Registry :=
  { r with files := r.files.map fun file => if file.uri = uri then change file else file }

/-- Hand over the changes reported so far. -/
def drain (r : Registry) : List FileEvent × Registry := (r.events, { r with events := [] })

/-! ## Reachability -/

/-- The targets of the edges of a tracked file; none otherwise. -/
def targets (r : Registry) (uri : Uri) : List Uri :=
  ((r.find? uri).map (·.targets)).getD []

/-- Walk along the edges from `frontier`, in at most `steps` steps. A file that is met
leaves `unmet`, so it is expanded once; the answer is what was never met. -/
def unmetFrom (steps : Nat) (frontier : List Uri) (unmet : List TrackedFile) : List TrackedFile :=
  match steps, frontier with
  | 0, _ => unmet
  | _ + 1, [] => unmet
  | steps + 1, uri :: rest =>
    match unmet.find? (·.uri == uri) with
    | none => unmetFrom steps rest unmet
    | some file => unmetFrom steps (rest ++ file.targets) (unmet.eraseP (·.uri == uri))

/-- Steps that suffice for a walk from one file: each file is expanded once, so no more
URIs are ever met than there are edges, and the first. -/
def walkSteps (r : Registry) : Nat := 1 + (r.files.flatMap (·.targets)).length

/-- The tracked files that the entry file does not reach. Without an entry file
there are none. -/
def unreachable (r : Registry) : List Uri :=
  match r.entry? with
  | none => []
  | some entry => (unmetFrom r.walkSteps [entry] r.files).map (·.uri)

/-- Drop every unreachable file. -/
def collect (r : Registry) : Registry :=
  let gone := r.unreachable
  { r with
    files := r.files.filter (·.uri ∉ gone)
    events := r.events ++ gone.map .removed }

end Registry

end AsmServer
