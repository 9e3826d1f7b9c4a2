import AsmServer.Workspace.Flatten
import AsmServer.Workspace.Update

/-!
# Projects

A project is a registry with the result of its latest assembly. Every change of the
registry is settled at once: files that were dropped are reported, and if the text of
any file changed, the project is assembled again. A failed attempt leaves the result
as it was; only an include cycle is reported.

The projects of a workspace share an assembler and one list of reports, the bench.
-/

namespace AsmServer

/-- Identity of a project. -/
structure ProjectId where
  number : Nat
  deriving DecidableEq, Repr

/-- How a project is referred to in messages. -/
def ProjectId.toText (id : ProjectId) : Text := '#' :: Text.ofNat 10 id.number

/-- A report of a project. -/
inductive ProjectEvent where
  /-- The assembler answered a request. -/
  | assembled (project : ProjectId) (request : Request) (result : AssemblyResult)
  /-- The project could not be assembled. -/
  | failed (project : ProjectId) (error : ProjectError)
  /-- Files are no longer part of the project. -/
  | removed (project : ProjectId) (uris : List Uri)
  deriving DecidableEq, Repr

/-- What projects share: the assembler, and the reports not yet read, the oldest
first. -/
structure Bench where
  assembler : Assembler
  events : List ProjectEvent := []

namespace Bench

/-- Add a report. -/
def report (bench : Bench) (event : ProjectEvent) : Bench :=
  { bench with events := bench.events ++ [event] }

/-- Hand over the reports. -/
def drain (bench : Bench) : List ProjectEvent × Bench := (bench.events, { bench with events := [] })

end Bench

/-- The removed file, if the event is a removal. -/
def FileEvent.removed? : FileEvent → Option Uri
  | removed uri => some uri
  | _ => none

/-- Whether the event is a change of a text. -/
def FileEvent.isChange : FileEvent → Bool
  | changed _ => true
  | _ => false

/-- Whether the error is reported: a project without a loaded entry file is merely
not ready. -/
def ProjectError.isReported : ProjectError → Bool
  | includeCycle .. => true
  | _ => false

/-- A project. -/
structure Project where
  id : ProjectId
  registry : Registry
  /-- The result of the latest assembly. -/
  result? : Option AssemblyResult := none

namespace Project

/-- A project without files. -/
def empty (id : ProjectId) (delay : Nat) : Project :=
  { id, registry := { debouncer := { delay } } }

/-- Whether the project tracks a file. -/
def tracks (p : Project) (uri : Uri) : Bool := p.registry.tracks uri

/-- The generation of the update held back. -/
def pending? (p : Project) : Option Nat := p.registry.pending?

/-- What the assembler is to be asked now. -/
def request (p : Project) : Except ProjectError Request := do
  match p.registry.entryFile? with
  | none => .error .noEntry
  | some entry =>
    match entry.contents? with
    | none => .error (.entryNotLoaded entry.uri)
    | some source => return { source, includes := ← p.registry.flatten }

/-- Assemble the project. -/
def assemble (p : Project) (bench : Bench) : Project × Bench :=
  match p.request with
  | .ok request =>
    let (result, assembler) := bench.assembler.run request
    ({ p with result? := some result },
      { bench with assembler }.report (.assembled p.id request result))
  | .error error => (p, if error.isReported then bench.report (.failed p.id error) else bench)

/-- React to the changes of the registry since the last time. -/
def settle (p : Project) (bench : Bench) : Project × Bench :=
  let (events, registry) := p.registry.drain
  let p := { p with registry }
  let gone := events.filterMap FileEvent.removed?
  let bench := if gone = [] then bench else bench.report (.removed p.id gone)
  if events.any FileEvent.isChange then p.assemble bench else (p, bench)

/-- Change the registry and settle. -/
def perform (p : Project) (bench : Bench) (change : Registry → Option Registry) :
    Option (Project × Bench) :=
  (change p.registry).map fun registry => settle { p with registry } bench

/-- Change the registry, settle, and pass on whether an update was handled. -/
def performFlush (p : Project) (bench : Bench) (change : Registry → Option (Registry × Bool)) :
    Option ((Project × Bench) × Bool) :=
  (change p.registry).map fun (registry, flushed) => (settle { p with registry } bench, flushed)

variable (sources : Sources) (p : Project) (bench : Bench)

/-- Track a document and queue its text. -/
def addDocument (document : Document) : Option (Project × Bench) :=
  p.perform bench (·.addDocument sources document)

/-- Queue the editor's text of a tracked file. -/
def updateFromEditor (document : Document) : Option (Project × Bench) :=
  p.perform bench (·.updateFromEditor sources document)

/-- Queue a reload of a tracked file from the disk. -/
def updateFromDisk (uri : Uri) : Option (Project × Bench) :=
  p.perform bench (·.updateFromDisk sources uri)

/-- The editor saved a document. -/
def markSaved (document : Document) : Option (Project × Bench) :=
  p.perform bench (·.markSaved sources document)

/-- The editor closed a document. -/
def markClosed (document : Document) : Option (Project × Bench) :=
  p.perform bench (·.markClosed sources document)

/-- Handle the update held back, if `generation` is current. -/
def flushDue (generation : Nat) : Option ((Project × Bench) × Bool) :=
  p.performFlush bench (·.flushDue sources generation)

/-- Handle the update held back now. -/
def flushPending : Option ((Project × Bench) × Bool) :=
  p.performFlush bench (·.flushPending sources)

/-- Drop the update held back. -/
def dispose : Project := { p with registry := p.registry.dispose }

end Project

end AsmServer
