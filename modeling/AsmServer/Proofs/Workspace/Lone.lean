import AsmServer.Proofs.Registry.Generations
import AsmServer.Proofs.Workspace.Turns

/-!
# Workspaces with one project

In a workspace with one project an operation is one on the registry of that project. These
laws lead a concrete workspace through its operations, where the registry after each is
known from the steps that its updates take.
-/

namespace AsmServer

/-- The registry after its reports were taken out. -/
def Registry.drained (r : Registry) : Registry := { r with events := [] }

/-- What queueing a reload of a file that is not open makes of a registry, if `n` steps are enough
for it. -/
theorem Registry.updateFromDisk_queued {sources : Sources} {n : Nat} {r : Registry} {uri : Uri}
    (closed : (r.find? uri).any (!·.isOpen))
    (enough : ((Handling.step sources)^[n] ⟨(r.push (.disk uri)).1,
      (r.push (.disk uri)).2.map .handle⟩).agenda = []) :
    r.updateFromDisk sources uri = some (queued sources n r (.disk uri)) := by
  have tracked : r.tracks uri = true := by
    cases found : r.find? uri with
    | none => simp [found] at closed
    | some f => simp [tracks, found]
  rw [updateFromDisk, if_pos tracked, queue_eq_queued enough]

/-- What the timer of a held update makes of a registry, if `n` steps are enough for it. -/
theorem Registry.flushDue_handled {sources : Sources} {n : Nat} {r : Registry} {key : Uri}
    {update : Update} (held : r.debouncer.held? = some (key, update))
    (enough : ((Handling.step sources)^[n] ⟨r.released, [.handle update]⟩).agenda = []) :
    r.flushDue sources r.debouncer.generation =
      some (handled sources n r.released update, true) := by
  rw [flushDue_of_held held, process_eq_handled enough]
  rfl

/-- A document that is closed at the version of its file is taken off it. -/
theorem Registry.markClosed_of_version {sources : Sources} {r : Registry} {document : Document}
    (same : (r.find? document.uri).map (·.version) = some document.version) :
    r.markClosed sources document =
      some (r.modify document.uri fun file => { file with document? := none }) := by
  obtain ⟨f, found, version⟩ := Option.map_eq_some_iff.mp same
  simp [markClosed, settleDocument, found, version]

/-- A document that is settled while its text is held back has this text handled, if `n` steps are
enough for it. -/
theorem Registry.settleDocument_handled {sources : Sources} {n : Nat} {r : Registry}
    {document : Document} (stale : (r.find? document.uri).map (·.isCurrent document) = some false)
    (other : (r.find? document.uri).any (·.version ≠ document.version) = true)
    (held : (queued sources 0 r (.editor document)).debouncer.held?
      = some (document.uri, .editor document))
    (ready : (r.push (.editor document)).2 = [])
    (enough : ((Handling.step sources)^[n] ⟨(queued sources 0 r (.editor document)).released,
      [.handle (.editor document)]⟩).agenda = []) :
    r.settleDocument sources document =
      some (handled sources n (queued sources 0 r (.editor document)).released
        (.editor document)) := by
  have edited : r.updateFromEditor sources document
      = some (queued sources 0 r (.editor document)) :=
    updateFromEditor_queued stale (by simp [ready])
  have flushed : (queued sources 0 r (.editor document)).flushPending sources = some (handled
      sources n (queued sources 0 r (.editor document)).released (.editor document), true) := by
    rw [flushPending_of_held held, process_eq_handled enough]
    rfl
  rw [settleDocument, if_pos other]
  simp [edited, flushed]

/-- A document that is closed while its text is held back is taken off its file after this text
was handled, if `n` steps are enough for it. -/
theorem Registry.markClosed_handled {sources : Sources} {n : Nat} {r : Registry}
    {document : Document} (stale : (r.find? document.uri).map (·.isCurrent document) = some false)
    (other : (r.find? document.uri).any (·.version ≠ document.version) = true)
    (held : (queued sources 0 r (.editor document)).debouncer.held?
      = some (document.uri, .editor document))
    (ready : (r.push (.editor document)).2 = [])
    (enough : ((Handling.step sources)^[n] ⟨(queued sources 0 r (.editor document)).released,
      [.handle (.editor document)]⟩).agenda = []) :
    r.markClosed sources document =
      some ((handled sources n (queued sources 0 r (.editor document)).released
        (.editor document)).modify document.uri fun file => { file with document? := none }) := by
  rw [markClosed, settleDocument_handled stale other held ready enough]
  rfl

namespace Workspace

/-- There is one project, the first ever, with this registry. -/
def Lone (w : Workspace) (r : Registry) : Prop :=
  ∃ p, w.projects = [p] ∧ p.registry = r ∧ p.id = ⟨1⟩

variable {sources : Sources} {w : Workspace} {r r' : Registry} {document : Document}

theorem Lone.tracks {uri : Uri} (h : w.Lone r) : w.tracks uri = r.tracks uri := by
  obtain ⟨p, projects, rfl, -⟩ := h
  simp [Workspace.tracks, projects, Project.tracks]

/-- The workspace after its only project took a turn, in which its registry became `r`. -/
def turned (w : Workspace) (p : Project) (r : Registry) : Workspace :=
  { w with
    projects := [(Project.settle { p with registry := r } w.bench).1]
    bench := (Project.settle { p with registry := r } w.bench).2 }

/-- The workspace after its first document made a project of this registry. -/
def begun (assembler : Assembler) (delay : Nat) (document : Document) (r : Registry) : Workspace :=
  { (start assembler delay).turned (Project.empty ⟨1⟩ delay) r with
    current? := some document.uri, nextNumber := 2 }

theorem change_first {assembler : Assembler} {delay : Nat}
    (added : (Registry.blank delay).addDocument sources document = some r) :
    (Operation.change document).apply sources (start assembler delay)
      = some (begun assembler delay document r) := by
  have turned : (Project.empty ⟨1⟩ delay).addDocument sources ⟨assembler, []⟩ document
      = some (Project.settle { Project.empty ⟨1⟩ delay with registry := r } ⟨assembler, []⟩) :=
    Project.perform_eq_some_iff.mpr ⟨r, added, rfl⟩
  simp [Operation.apply, documentChanged, start, Workspace.tracks, createProject, turned]
  rfl

/-- The first document makes a project. -/
theorem lone_change {assembler : Assembler} {delay : Nat}
    (added : (Registry.blank delay).addDocument sources document = some r) :
    ∃ w, (Operation.change document).apply sources (start assembler delay) = some w ∧
      w.Lone r.drained :=
  ⟨_, change_first added, _, rfl, Project.settle_registry, Project.settle_id⟩

theorem forThose_only {wanted : Project → Bool} {p : Project}
    {turn : Project → Bench → Option (Project × Bench)} (only : w.projects = [p]) (want : wanted p)
    (turned : turn p w.bench = some (Project.settle { p with registry := r } w.bench)) :
    w.forThose wanted turn = some (w.turned p r) := by
  simp [Workspace.forThose, forAll, only, eachProject, want, turned, Workspace.turned]

/-- The project takes its turn. -/
theorem Lone.forThose {wanted : Project → Bool}
    {turn : Project → Bench → Option (Project × Bench)} (h : w.Lone r)
    (change : Registry → Option Registry) (want : ∀ p, p.registry = r → p.id = ⟨1⟩ → wanted p)
    (same : ∀ p bench, turn p bench = p.perform bench change) (changed : change r = some r') :
    ∃ w', w.forThose wanted turn = some w' ∧ w'.Lone r'.drained := by
  obtain ⟨p, projects, rfl, first⟩ := h
  refine ⟨w.turned p r', forThose_only projects (want p rfl first) ?_, _, rfl,
    Project.settle_registry, Project.settle_id.trans first⟩
  rw [same]
  exact Project.perform_eq_some_iff.mpr ⟨r', changed, rfl⟩

/-- A tracked document changes the only project. -/
theorem change_only {p : Project} (only : w.projects = [p]) (tracked : p.tracks document.uri)
    (changed : p.registry.updateFromEditor sources document = some r) :
    (Operation.change document).apply sources w =
      some { w.turned p r with current? := some document.uri } := by
  have known : w.tracks document.uri = true := by simpa [Workspace.tracks, only] using tracked
  simp only [Operation.apply, documentChanged]
  rw [if_pos known]
  exact forThose_only (w := { w with current? := some document.uri }) only tracked
    (Project.perform_eq_some_iff.mpr ⟨r, changed, rfl⟩)

theorem Lone.change (h : w.Lone r) (tracked : document.uri ∈ r.uris)
    (changed : r.updateFromEditor sources document = some r') :
    ∃ w', (Operation.change document).apply sources w = some w' ∧ w'.Lone r'.drained := by
  obtain ⟨p, projects, rfl, first⟩ := h
  have known : p.tracks document.uri := by simpa [Project.tracks] using tracked
  exact ⟨_, change_only projects known changed, _, rfl, Project.settle_registry,
    Project.settle_id.trans first⟩

theorem Lone.close (h : w.Lone r) (tracked : document.uri ∈ r.uris)
    (changed : r.markClosed sources document = some r') :
    ∃ w', (Operation.close document).apply sources w = some w' ∧ w'.Lone r'.drained := by
  obtain ⟨closed, closing, lone⟩ : ∃ w', w.forThose (·.tracks document.uri)
      (·.markClosed sources · document) = some w' ∧ w'.Lone r'.drained :=
    h.forThose _ (fun p hp _ => by simpa [Project.tracks, hp] using tracked) (fun _ _ => rfl)
      changed
  refine ⟨{ closed with current? := closed.current?.filter (· ≠ document.uri) }, ?_, lone⟩
  rw [Operation.apply, documentClosed, closing]
  rfl

theorem Lone.save (h : w.Lone r) (tracked : document.uri ∈ r.uris)
    (changed : r.markSaved sources document = some r') :
    ∃ w', (Operation.save document).apply sources w = some w' ∧ w'.Lone r'.drained := by
  have attended : { w with current? := some document.uri }.Lone r := h
  exact attended.forThose _ (fun p hp _ => by simpa [Project.tracks, hp] using tracked)
    (fun _ _ => rfl) changed

theorem Lone.disk {uri : Uri} (h : w.Lone r) (closed : (r.find? uri).any (!·.isOpen))
    (changed : r.updateFromDisk sources uri = some r') :
    ∃ w', (Operation.disk uri).apply sources w = some w' ∧ w'.Lone r'.drained :=
  h.forThose _ (fun p hp _ => by simpa [tracksClosed, hp] using closed) (fun _ _ => rfl) changed

/-- The project reloads a file that is not open. -/
theorem Lone.reload {n : Nat} {uri : Uri} (h : w.Lone r)
    (closed : (r.find? uri).any (!·.isOpen))
    (enough : ((Registry.Handling.step sources)^[n] ⟨(r.push (.disk uri)).1,
      (r.push (.disk uri)).2.map .handle⟩).agenda = []) :
    ∃ w', (Operation.disk uri).apply sources w = some w' ∧
      w'.Lone (Registry.queued sources n r (.disk uri)).drained :=
  h.disk closed (Registry.updateFromDisk_queued closed enough)

/-- A reload changes the only project. -/
theorem disk_only {p : Project} {uri : Uri} (only : w.projects = [p])
    (closed : (p.registry.find? uri).any (!·.isOpen))
    (changed : p.registry.updateFromDisk sources uri = some r) :
    (Operation.disk uri).apply sources w = some (w.turned p r) :=
  forThose_only only closed (Project.perform_eq_some_iff.mpr ⟨r, changed, rfl⟩)

theorem Lone.due {generation : Nat} {flushed : Bool} (h : w.Lone r)
    (changed : r.flushDue sources generation = some (r', flushed)) :
    ∃ w', (Operation.due ⟨1⟩ generation).apply sources w = some w' ∧ w'.Lone r'.drained := by
  obtain ⟨w', turned, lone⟩ : ∃ w', w.forThose (·.id == ⟨1⟩)
      (fun p bench => (p.flushDue sources bench generation).map (·.1)) = some w' ∧
      w'.Lone r'.drained :=
    h.forThose (fun r => (r.flushDue sources generation).map (·.1))
      (fun p _ first => by simp [first])
      (fun p bench => by rw [Project.flushDue, Project.performFlush_map]) (by simp [changed])
  exact ⟨w', by simp [Operation.apply, Workspace.flushDue, turned], lone⟩

theorem Lone.flush {flushed : Bool} (h : w.Lone r)
    (changed : r.flushPending sources = some (r', flushed)) :
    ∃ w', Operation.flush.apply sources w = some w' ∧ w'.Lone r'.drained := by
  rw [Operation.apply, flushAll, forAll_eq_forThose]
  refine h.forThose (fun r => (r.flushPending sources).map (·.1)) (fun _ _ _ => rfl)
    (fun p bench => ?_) (by simp [changed])
  rw [Project.flushPending, Project.performFlush_map]

end Workspace

end AsmServer
