import AsmServer.Workspace.Project

/-!
# Workspaces

A workspace holds the projects and remembers the document that was touched last. A
document that no project tracks becomes the entry file of a new project; a tracked
one updates every project that tracks it. Projects are never removed, and their
numbers grow with their age.

A question about a file is answered from the project of the current document, if
that project tracks the file, and otherwise from the oldest project that does.
-/

namespace AsmServer

/-- The projects and the document touched last. -/
structure Workspace where
  projects : List Project := []
  /-- The document touched last, while it is open. -/
  current? : Option Uri := none
  /-- The number of the next project. -/
  nextNumber : Nat := 1
  bench : Bench
  /-- Milliseconds that projects hold an update back. -/
  delay : Nat := defaultDelay

namespace Workspace

/-! ## Queries -/

/-- The project of an identity. -/
def project? (w : Workspace) (id : ProjectId) : Option Project := w.projects.find? (·.id == id)

/-- Whether any project tracks a file. -/
def tracks (w : Workspace) (uri : Uri) : Bool := w.projects.any (·.tracks uri)

/-- The project of the document touched last. -/
def currentProject? (w : Workspace) : Option Project :=
  w.current?.bind fun uri => w.projects.find? (·.tracks uri)

/-- The project to answer questions about a file from. -/
def projectFor? (w : Workspace) (uri : Uri) : Option Project :=
  (w.currentProject?.filter (·.tracks uri)).or (w.projects.find? (·.tracks uri))

/-- The projects that hold an update back, with the generations to set timers for. -/
def pendingTimers (w : Workspace) : List (ProjectId × Nat) :=
  w.projects.filterMap fun p => p.pending?.map fun generation => (p.id, generation)

/-! ## Changes -/

/-- Let each project take its turn at the bench. -/
def eachProject (turn : Project → Bench → Option (Project × Bench)) :
    List Project → Bench → Option (List Project × Bench)
  | [], bench => some ([], bench)
  | p :: rest, bench => do
    let (p, bench) ← turn p bench
    let (rest, bench) ← eachProject turn rest bench
    return (p :: rest, bench)

/-- Let every project take its turn. -/
def forAll (w : Workspace) (turn : Project → Bench → Option (Project × Bench)) :
    Option Workspace :=
  (eachProject turn w.projects w.bench).map fun (projects, bench) => { w with projects, bench }

/-- Let the projects that are wanted take their turn. -/
def forThose (w : Workspace) (wanted : Project → Bool)
    (turn : Project → Bench → Option (Project × Bench)) : Option Workspace :=
  w.forAll fun p bench => if wanted p then turn p bench else some (p, bench)

variable (sources : Sources) (w : Workspace)

/-- Make a document the entry file of a new project. -/
def createProject (document : Document) : Option Workspace := do
  let p := Project.empty ⟨w.nextNumber⟩ w.delay
  let (p, bench) ← p.addDocument sources w.bench document
  return { w with projects := w.projects ++ [p], bench, nextNumber := w.nextNumber + 1 }

/-- The text of a document changed, or the document was opened. -/
def documentChanged (document : Document) : Option Workspace :=
  let touched := { w with current? := some document.uri }
  if w.tracks document.uri then
    touched.forThose (·.tracks document.uri) (·.updateFromEditor sources · document)
  else touched.createProject sources document

/-- The editor saved a document. -/
def documentSaved (document : Document) : Option Workspace :=
  { w with current? := some document.uri }.forThose (·.tracks document.uri)
    (·.markSaved sources · document)

/-- The editor closed a document. -/
def documentClosed (document : Document) : Option Workspace :=
  (w.forThose (·.tracks document.uri) (·.markClosed sources · document)).map fun w =>
    { w with current? := w.current?.filter (· ≠ document.uri) }

/-- Whether a project tracks a file that is not open in it. -/
def tracksClosed (uri : Uri) (p : Project) : Bool := (p.registry.find? uri).any (!·.isOpen)

/-- A file changed on the disk. Open buffers take precedence over the disk. -/
def diskChanged (uri : Uri) : Option Workspace :=
  w.forThose (tracksClosed uri) (·.updateFromDisk sources · uri)

/-- Handle the update that a project holds back, if `generation` is current: whether
it was handled. -/
def flushDue (id : ProjectId) (generation : Nat) : Option (Workspace × Bool) := do
  let w' ← w.forThose (·.id == id) fun p bench =>
    (p.flushDue sources bench generation).map (·.1)
  return (w', (w.project? id).any fun p => (p.registry.debouncer.takeDue generation).2.isSome)

/-- Handle every update held back now. -/
def flushAll : Option Workspace :=
  w.forAll fun p bench => (p.flushPending sources bench).map (·.1)

/-- Replace the assembler and assemble every project with it. -/
def setAssembler (assembler : Assembler) : Option Workspace :=
  { w with bench := { w.bench with assembler } }.forAll fun p bench => some (p.assemble bench)

/-- Drop every update held back. -/
def dispose : Workspace := { w with projects := w.projects.map Project.dispose }

end Workspace

end AsmServer
