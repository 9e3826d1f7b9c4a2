import AsmServer.Session.Config
import AsmServer.Session.Notification

/-!
# Sessions

A session serves one editor. It holds the open buffers, the workspace, what was
published and the timers that run. Every change of the workspace goes through
`update`, which announces what the projects report and sets a timer for each update
held back that has none. Timers are never called off; one that fires late finds
nothing to do.

What lies outside a session is its host: the disk and the programs to run.
-/

namespace AsmServer

/-- What a session finds outside. -/
structure Host where
  disk : Disk := []
  /-- The program that an executable path leads to. -/
  programs : Text → Option Assembly.Program := fun _ => none

/-- A timer that runs. -/
structure Timer where
  project : ProjectId
  generation : Nat
  /-- The time at which it fires, in milliseconds. -/
  due : Nat
  deriving DecidableEq, Repr

/-- The state of a session. -/
structure Session where
  config : Config
  buffers : Buffers := []
  workspace : Workspace
  published : Published := []
  /-- The newest timer of each project that holds an update back. -/
  armed : List (ProjectId × Nat) := []
  /-- Timers that have not fired, in the order in which they were set. -/
  timers : List Timer := []
  /-- Milliseconds since the session started. -/
  now : Nat := 0
  /-- Messages sent so far. -/
  sent : List Notification := []
  /-- Requests put to the assembler so far. -/
  asked : List Request := []

/-- The request that a report is the answer to. -/
def ProjectEvent.request? : ProjectEvent → Option Request
  | assembled _ request _ => some request
  | _ => none

namespace Session

/-- A session at its start. -/
def start (config : Config) (assembler : Assembler) : Session :=
  { config, workspace := { bench := { assembler }, delay := config.delay } }

/-- What projects read from. -/
def sources (s : Session) (host : Host) : Sources := ⟨host.disk, s.buffers⟩

/-- Announce what the projects reported. -/
def announce (s : Session) : Session :=
  let (events, bench) := s.workspace.bench.drain
  let workspace := { s.workspace with bench }
  let announcement := Announcement.all workspace s.published events
  { s with
    workspace
    published := announcement.published
    sent := s.sent ++ announcement.messages
    asked := s.asked ++ events.filterMap ProjectEvent.request? }

/-- Set a timer for each update held back that has none. -/
def arm (s : Session) : Session :=
  let pending := s.workspace.pendingTimers
  let fresh := pending.filter (· ∉ s.armed)
  { s with
    armed := pending
    timers := s.timers ++ fresh.map fun (project, generation) =>
      ⟨project, generation, s.now + s.workspace.delay⟩ }

/-- Change the workspace, announce what came of it and set timers. -/
def update (s : Session) (change : Workspace → Option Workspace) : Option Session :=
  (change s.workspace).map fun workspace => { s with workspace }.announce.arm

/-! ## Timers -/

/-- A timer fires. -/
def deliver (host : Host) (s : Session) (timer : Timer) : Option Session :=
  let s := { s with timers := s.timers.erase timer }
  s.update fun w =>
    (w.flushDue (s.sources host) timer.project timer.generation).map fun (w, _) => w

/-- The timer that fires first, no later than `limit`; of timers due together the one
set first. -/
def nextTimer? (timers : List Timer) (limit : Nat) : Option Timer :=
  (timers.filter (·.due ≤ limit)).foldl
    (fun first? timer =>
      match first? with
      | none => some timer
      | some first => if timer.due < first.due then some timer else some first)
    none

/-- Let the timers due no later than `limit` fire, at most `steps` of them. -/
def fire (host : Host) (limit : Nat) : Nat → Session → Option Session
  | 0, s => some s
  | steps + 1, s =>
    match nextTimer? s.timers limit with
    | none => some s
    | some timer => (deliver host { s with now := timer.due } timer).bind (fire host limit steps)

/-- Let time pass. A timer that fires sets at most one new timer, due after the
delay, which bounds the number of timers that fire meanwhile. -/
def advance (host : Host) (s : Session) (milliseconds : Nat) : Option Session :=
  let limit := s.now + milliseconds
  let steps := s.timers.length * (milliseconds / s.workspace.delay + 1)
  (fire host limit steps s).map fun s => { s with now := limit }

/-! ## Documents -/

/-- Take over the text of a document. -/
def takeDocument (host : Host) (s : Session) (document : Document) : Option Session :=
  let s := { s with buffers := s.buffers.insert document }
  s.update (·.documentChanged (s.sources host) document)

/-- The editor opened a document. -/
def didOpen (host : Host) (s : Session) (uri : Uri) (version : Int) (text : Text) :
    Option Session :=
  s.takeDocument host ⟨uri, version, text⟩

/-- A change of a document: its new text, or the new text of a range of it. -/
structure ContentChange where
  range? : Option Range := none
  text : Text
  deriving DecidableEq, Repr

/-- The editor changed a document. Only the last change counts, and only if it gives
the whole text. -/
def didChange (host : Host) (s : Session) (uri : Uri) (version : Int)
    (changes : List ContentChange) : Option Session :=
  match changes.getLast? with
  | some ⟨none, text⟩ => s.takeDocument host ⟨uri, version, text⟩
  | _ => some s

/-- The editor saved a document. -/
def didSave (host : Host) (s : Session) (uri : Uri) : Option Session :=
  match s.buffers.find? uri with
  | none => some s
  | some document => s.update (·.documentSaved (s.sources host) document)

/-- The editor closed a document. -/
def didClose (host : Host) (s : Session) (uri : Uri) : Option Session :=
  match s.buffers.find? uri with
  | none => some s
  | some document =>
    let s := { s with buffers := s.buffers.erase uri }
    s.update (·.documentClosed (s.sources host) document)

/-- Files changed on the disk. -/
def didChangeFiles (host : Host) (s : Session) (uris : List Uri) : Option Session :=
  s.update fun w => uris.foldlM (fun w uri => w.diskChanged (s.sources host) uri) w

/-! ## Control -/

/-- Replace the assembler. -/
def setAssembler (s : Session) (assembler : Assembler) : Option Session :=
  s.update (·.setAssembler assembler)

/-- Handle every update held back now. -/
def flushAll (host : Host) (s : Session) : Option Session :=
  s.update (·.flushAll (s.sources host))

/-- Take over settings of the editor. -/
def configure (host : Host) (s : Session) (settings : Json) : Option Session :=
  let (config, assembler?) := s.config.apply settings
  let s := { s with config }
  match assembler? with
  | none => some s
  | some path => s.setAssembler (.ofProgram path (host.programs path))

/-- Drop every update held back. -/
def shutdown (s : Session) : Session :=
  { s with workspace := s.workspace.dispose, armed := [] }

end Session

end AsmServer
