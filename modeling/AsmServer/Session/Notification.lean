import AsmServer.Answer.Diagnostics
import AsmServer.Uri.Url
import AsmServer.Workspace.Basic

/-!
# Notifications

Reports of projects turn into messages to the editor. A result publishes the
diagnostics of every tracked file, after clearing the files that the project
published before and no longer reports. A failed attempt publishes the cycle, clears
nothing and is logged. Files that were removed are cleared, unless another project
tracks them.

Each project remembers the files it published diagnostics for. Reports are turned
into messages together, after all changes, and all see the final state of the
workspace.
-/

namespace AsmServer

/-- A message to the editor. -/
inductive Notification where
  /-- Replace the diagnostics of a document. -/
  | publish (url : Text) (diagnostics : List Diagnostic) (version? : Option Int)
  /-- Log an error. -/
  | log (message : Text)
  deriving DecidableEq, Repr

/-- Message type of a logged error. -/
def Notification.errorType : Nat := 1

/-- The files each project published diagnostics for. -/
abbrev Published := List (ProjectId × List Uri)

namespace Published

/-- The files that a project published diagnostics for. -/
def of (published : Published) (id : ProjectId) : List Uri := (published.lookup id).getD []

/-- Remember other files for a project. -/
def set (published : Published) (id : ProjectId) (uris : List Uri) : Published :=
  (id, uris) :: published.filter (·.1 ≠ id)

end Published

/-- Diagnostics of a document, on their way to the editor. -/
structure Publication where
  uri : Uri
  diagnostics : List Diagnostic := []
  version? : Option Int := none
  deriving DecidableEq, Repr

namespace Publication

/-- The message, if the document has a URL. -/
def toNotification? (p : Publication) : Option Notification :=
  p.uri.url?.map fun url => .publish url p.diagnostics p.version?

/-- Diagnostics with the version of the document that a project holds. -/
def ofProject (p : Project) (uri : Uri) (diagnostics : List Diagnostic) : Publication :=
  ⟨uri, diagnostics, (p.registry.find? uri).bind (·.documentVersion?)⟩

/-- Empty diagnostics for files in the order of their URIs. -/
def clearing (uris : List Uri) : List Publication :=
  (Catalog.ofList (uris.map fun uri => (uri, ()))).keys.map fun uri => { uri }

end Publication

/-- What a report leads to: the files published from now on, and the messages. -/
structure Announcement where
  published : Published
  messages : List Notification := []

namespace Announcement

/-- Announce a result of a project. -/
def ofResult (published : Published) (p : Project) (result : AssemblyResult) : Announcement :=
  let perFile := Diagnostic.perFile p.registry result
  let stale := (published.of p.id).filter (· ∉ perFile.keys)
  let publications := Publication.clearing stale ++
    perFile.map fun (uri, diagnostics) => .ofProject p uri diagnostics
  { published := published.set p.id perFile.keys
    messages := publications.filterMap Publication.toNotification? }

/-- Announce an include cycle that keeps a project from being assembled. -/
def ofCycle (w : Workspace) (published : Published) (id : ProjectId) (uri : Uri)
    (diagnostic : Diagnostic) : Announcement :=
  let version? := (w.project? id).bind fun p => (p.registry.find? uri).bind (·.documentVersion?)
  { published := published.set id (published.of id ++ [uri])
    messages := (Publication.toNotification? ⟨uri, [diagnostic], version?⟩).toList }

/-- The log entry of a failed attempt. -/
def logEntry (id : ProjectId) (error : ProjectError) : Notification :=
  .log ("Assembly of project ".toList ++ id.toText ++ " aborted: ".toList ++ error.message)

/-- Announce a failed attempt. -/
def ofFailure (w : Workspace) (published : Published) (id : ProjectId) (error : ProjectError) :
    Announcement :=
  let cycle :=
    match Diagnostic.ofCycle? error with
    | some (uri, diagnostic) => ofCycle w published id uri diagnostic
    | none => { published }
  { cycle with messages := cycle.messages ++ [logEntry id error] }

/-- Announce removed files. -/
def ofRemoval (w : Workspace) (published : Published) (id : ProjectId) (uris : List Uri) :
    Announcement :=
  { published := published.set id ((published.of id).filter (· ∉ uris))
    messages := (uris.filter (!w.tracks ·)).filterMap fun uri =>
      Publication.toNotification? { uri } }

/-- Announce one report, after the messages so far. -/
def add (w : Workspace) (before : Announcement) (event : ProjectEvent) : Announcement :=
  let next :=
    match event with
    | .assembled id _ result =>
      match w.project? id with
      | some p => ofResult before.published p result
      | none => { published := before.published }
    | .failed id error => ofFailure w before.published id error
    | .removed id uris => ofRemoval w before.published id uris
  { next with messages := before.messages ++ next.messages }

/-- Announce all reports, in order. -/
def all (w : Workspace) (published : Published) (events : List ProjectEvent) : Announcement :=
  events.foldl (add w) { published }

end Announcement

end AsmServer
