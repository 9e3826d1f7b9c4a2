import AsmServer.Workspace.Registry

/-!
# Updating a registry

An update of a file passes through the debouncer. When its turn comes it gives the
file its new text, recomputes the edges of the file, discovers the targets that are
not tracked yet and finally drops what has become unreachable. Discovering a file
queues an update of it in turn, which may release the update held back for another
file in the midst of this one.

Edges are kept by their targets: an include that still leads to the same file keeps
its edge, with name and range brought up to date, and only the first include of a
file makes an edge.

An update that finds its file no longer tracked is dropped. Handling one update may
thus handle others before it is done, to any depth, and a displaced update may make
the very file that is being loaded unreachable, so that files are dropped and found
again without end. A change of a registry that never ends has no result.
-/

namespace AsmServer

/-- The update that loads a file: from the editor if it is open, else from the disk. -/
def Sources.loading (sources : Sources) (uri : Uri) : Update :=
  match sources.buffers.find? uri with
  | some document => .editor document
  | none => .disk uri

namespace TrackedFile

/-- Give a file the text of an update. A document that was not open before matches
the disk; later texts of it do not, until they are saved. -/
def refresh (sources : Sources) (file : TrackedFile) : Update → TrackedFile
  | .editor document =>
    { file with
      contents? := some document.text
      version := document.version
      dirty := file.isOpen
      document? := some document }
  | .disk uri =>
    let text? := sources.read? uri
    { file with
      contents? := text?
      version := diskVersion
      dirty := text?.isNone }

/-- Whether the file holds this version of an open document already. -/
def isCurrent (file : TrackedFile) (document : Document) : Bool :=
  file.documentVersion? == some document.version && file.contents?.isSome

end TrackedFile

namespace Registry

/-! ## Edges -/

/-- Whether a file can be included: it is open or exists on the disk. -/
def isAvailable (r : Registry) (sources : Sources) (uri : Uri) : Bool :=
  (r.find? uri).any (·.isOpen) || (sources.buffers.find? uri).isSome ||
    (sources.file? uri).isSome

/-- The URIs that an include may mean, the first choice first: an absolute name
means itself, any other is looked for in the directories of the search path. -/
def candidates (base : Text) (searchPath : List Text) (name : Text) : List Uri :=
  let name := Text.slashed name
  if Path.isAbsolute name then [.ofPath name]
  else searchPath.map fun dir => .ofPath (Path.append (Path.append base dir) name)

/-- The file that an include means. -/
def resolve? (r : Registry) (sources : Sources) (base : Text) (searchPath : List Text)
    (name : Text) : Option Uri :=
  (candidates base searchPath name).find? (r.isAvailable sources ·)

/-- Old edges not yet taken over, and new edges so far. -/
structure EdgeDiff where
  old : List Dependency
  new : List Dependency

/-- Make the edge of one include to `target`, from an old one if possible. -/
def EdgeDiff.link (diff : EdgeDiff) (parent target : Uri) (directive : Code.Include) : EdgeDiff :=
  if diff.new.any (·.uri == target) then diff
  else
    match diff.old.find? (·.uri == target) with
    | some kept =>
      { old := diff.old.eraseP (·.uri == target)
        new := diff.new ++ [{ kept with name := directive.name, range := directive.range }] }
    | none => { diff with new := diff.new ++ [⟨parent, directive.name, target, directive.range⟩] }

/-- The directory from which the includes of a file are looked for. -/
def baseDir (uri : Uri) : Text := uri.parentDir.toOption.getD []

/-- Take one include of the file `uri` into account. -/
def EdgeDiff.step (r : Registry) (sources : Sources) (uri : Uri) (searchPath : List Text)
    (diff : EdgeDiff) (directive : Code.Include) : EdgeDiff :=
  match r.resolve? sources (baseDir uri) searchPath directive.name with
  | some target => diff.link uri target directive
  | none => diff

/-- The edges of a file, brought up to date with its text. -/
def edges (r : Registry) (sources : Sources) (file : TrackedFile) : List Dependency :=
  let searchPath := Code.searchPath file.lines
  ((Code.includes file.lines).foldl (EdgeDiff.step r sources file.uri searchPath)
    ⟨file.dependencies, []⟩).new

/-- Bring the edges of a file up to date. -/
def link (r : Registry) (sources : Sources) (uri : Uri) : Registry :=
  r.modify uri fun file => { file with dependencies := r.edges sources file }

/-- The targets of the edges of a file that are not tracked. -/
def missing (r : Registry) (uri : Uri) : List Uri := (r.targets uri).filter (!r.tracks ·)

/-! ## Handling -/

/-- Give a file the text of an update and bring its edges up to date. -/
def renew (r : Registry) (sources : Sources) (update : Update) : Registry :=
  (r.modify update.uri (·.refresh sources update)).link sources update.uri

/-- Hand an update to the debouncer: the registry after it and the updates to handle
at once. -/
def push (r : Registry) (update : Update) : Registry × List Update :=
  let (debouncer, ready) := r.debouncer.push update.uri update
  ({ r with debouncer }, ready)

mutual

/-- Handle an update: load its file, discover what the file includes, and drop what
has become unreachable. -/
def process (sources : Sources) (r : Registry) (update : Update) : Option Registry :=
  if r.tracks update.uri then do
    let renewed := r.renew sources update
    let loaded ← (renewed.missing update.uri).foldlM (fun r uri => r |>.discover sources uri) renewed
    return loaded.collect.report (.changed update.uri)
  else some r
partial_fixpoint

/-- Track a file and queue its text, unless it is tracked. -/
def discover (sources : Sources) (r : Registry) (uri : Uri) : Option Registry :=
  if r.tracks uri then some r else r.add uri |>.queue sources (sources.loading uri)
partial_fixpoint

/-- Queue an update and handle what the debouncer lets go. -/
def queue (sources : Sources) (r : Registry) (update : Update) : Option Registry :=
  (r.push update).2.foldlM (fun r update => r |>.process sources update) (r.push update).1
partial_fixpoint

end

/-! ## Operations -/

/-- Queue the editor's text of a tracked file, unless the file holds it already. -/
def updateFromEditor (r : Registry) (sources : Sources) (document : Document) : Option Registry :=
  match r.find? document.uri with
  | none => some r
  | some file => if file.isCurrent document then some r else r.queue sources (.editor document)

/-- Queue a reload of a tracked file from the disk. -/
def updateFromDisk (r : Registry) (sources : Sources) (uri : Uri) : Option Registry :=
  if r.tracks uri then r.queue sources (.disk uri) else some r

/-- Track a document and queue its text. -/
def addDocument (r : Registry) (sources : Sources) (document : Document) : Option Registry :=
  (r.add document.uri).updateFromEditor sources document

/-- Handle the update that a debouncer gave up, if it gave one up: whether it did. -/
def flush (r : Registry) (sources : Sources)
    (taken : Debouncer Uri Update × Option Update) : Option (Registry × Bool) :=
  let r := { r with debouncer := taken.1 }
  match taken.2 with
  | none => some (r, false)
  | some update => (r.process sources update).map fun r => (r, true)

/-- Handle the update held back, if `generation` is current. -/
def flushDue (r : Registry) (sources : Sources) (generation : Nat) : Option (Registry × Bool) :=
  r.flush sources (r.debouncer.takeDue generation)

/-- Handle the update held back now. -/
def flushPending (r : Registry) (sources : Sources) : Option (Registry × Bool) :=
  r.flush sources r.debouncer.takePending

/-- Take in the text of a document at once, if its version is not the one tracked. -/
def settleDocument (r : Registry) (sources : Sources) (document : Document) : Option Registry :=
  if (r.find? document.uri).any (·.version ≠ document.version) then do
    let r ← r.updateFromEditor sources document
    let (r, _) ← r.flushPending sources
    return r
  else some r

/-- The editor saved a document: its file is clean. -/
def markSaved (r : Registry) (sources : Sources) (document : Document) : Option Registry := do
  let r ← r.settleDocument sources document
  return r.modify document.uri fun file => { file with dirty := false }

/-- The editor closed a document: its file keeps the text and loses the document. -/
def markClosed (r : Registry) (sources : Sources) (document : Document) : Option Registry := do
  let r ← r.settleDocument sources document
  return r.modify document.uri fun file => { file with document? := none }

/-- Drop the update held back. -/
def dispose (r : Registry) : Registry := { r with debouncer := r.debouncer.clear }

end Registry

end AsmServer
