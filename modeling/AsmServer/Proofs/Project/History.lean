import AsmServer.Proofs.Registry.Reports
import AsmServer.Proofs.Registry.Termination
import AsmServer.Workspace.Project

/-!
# Histories of a project

A project performs an operation on its registry and settles: it takes the reports out of
the registry and acts on them. Settling leaves the tracked files alone, so the registry of
a project is what a sequence of operations makes of the registry of its first document.

The history of a project keeps the reports that settling took out. Together they tell
which files are tracked now.
-/

namespace AsmServer

namespace Project

variable {p : Project} {bench : Bench} {sources : Sources}

/-! ## Settling -/

@[simp] theorem assemble_registry : (p.assemble bench).1.registry = p.registry := by
  unfold assemble
  split <;> rfl

@[simp] theorem assemble_id : (p.assemble bench).1.id = p.id := by
  unfold assemble
  split <;> rfl

/-- The project after its reports were taken out. -/
def drained (p : Project) : Project := { p with registry := { p.registry with events := [] } }

/-- The files that were dropped. -/
def dropped (p : Project) : List Uri := p.registry.events.filterMap FileEvent.removed?

/-- The report of the files that were dropped. -/
def removals (p : Project) : List ProjectEvent :=
  if p.dropped = [] then [] else [.removed p.id p.dropped]

/-- Settling reports what was dropped, and assembles the project if a text changed. -/
theorem exists_settle (p : Project) (bench : Bench) : ∃ told : Bench,
    told.assembler = bench.assembler ∧ told.events = bench.events ++ p.removals ∧
      p.settle bench = if p.registry.events.any FileEvent.isChange then p.drained.assemble told
        else (p.drained, told) := by
  refine ⟨if p.dropped = [] then bench else bench.report (.removed p.id p.dropped), ?_, ?_, rfl⟩
  · split <;> rfl
  · unfold removals
    split
    · exact (List.append_nil _).symm
    · rfl

/-- Settling takes the reports out of the registry. -/
@[simp] theorem settle_registry :
    (p.settle bench).1.registry = { p.registry with events := [] } := by
  obtain ⟨told, -, -, settled⟩ := exists_settle p bench
  rw [settled]
  split
  · exact assemble_registry
  · rfl

@[simp] theorem settle_id : (p.settle bench).1.id = p.id := by
  obtain ⟨told, -, -, settled⟩ := exists_settle p bench
  rw [settled]
  split
  · exact assemble_id
  · rfl

/-- Without changes there is nothing to react to. -/
theorem settle_of_drained (drained : p.registry.events = []) : p.settle bench = (p, bench) := by
  obtain ⟨id, ⟨files, entry?, debouncer, _⟩, result?⟩ := p
  cases drained
  rfl

/-- What is asked of a project is done to its registry, and then it settles. -/
theorem perform_eq_some_iff {change : Registry → Option Registry} {turned : Project × Bench} :
    p.perform bench change = some turned ↔
      ∃ r, change p.registry = some r ∧ settle { p with registry := r } bench = turned := by
  simp [perform, Option.map_eq_some_iff]

theorem performFlush_map {change : Registry → Option (Registry × Bool)} :
    (p.performFlush bench change).map (·.1) =
      p.perform bench fun r => (change r).map (·.1) := by
  simp [performFlush, perform, Option.map_map, Function.comp_def]

/-! ## Operations -/

/-- Perform an operation. -/
def act (sources : Sources) (p : Project) (bench : Bench) :
    Registry.Operation → Option (Project × Bench)
  | .edit document => p.updateFromEditor sources bench document
  | .reload uri => p.updateFromDisk sources bench uri
  | .save document => p.markSaved sources bench document
  | .close document => p.markClosed sources bench document
  | .due generation => (p.flushDue sources bench generation).map (·.1)
  | .flush => (p.flushPending sources bench).map (·.1)
  | .dispose => some (p.dispose, bench)

/-- An operation is one on the registry, whose reports are taken out. -/
theorem act_registry {operation : Registry.Operation} {p' : Project} {bench' : Bench}
    (drained : p.registry.events = []) (done : p.act sources bench operation = some (p', bench')) :
    ∃ r, operation.apply sources p.registry = some r ∧ p'.registry = { r with events := [] } := by
  have settled {change : Registry → Option Registry}
      (done : p.perform bench change = some (p', bench')) :
      ∃ r, change p.registry = some r ∧ p'.registry = { r with events := [] } := by
    obtain ⟨r, changed, same⟩ := perform_eq_some_iff.mp done
    obtain ⟨rfl, -⟩ := Prod.ext_iff.mp same
    exact ⟨r, changed, settle_registry⟩
  cases operation with
  | edit document => exact settled done
  | reload uri => exact settled done
  | save document => exact settled done
  | close document => exact settled done
  | due generation => exact settled (performFlush_map ▸ done)
  | flush => exact settled (performFlush_map ▸ done)
  | dispose =>
    cases done
    exact ⟨_, rfl, by simp [dispose, Registry.dispose, drained]⟩

/-- An operation returns as soon as it does on the registry. -/
theorem act_isSome (bench : Bench) {operation : Registry.Operation}
    (returns : (operation.apply sources p.registry).isSome) :
    (p.act sources bench operation).isSome := by
  cases operation with
  | dispose => rfl
  | _ =>
    simpa [act, Registry.Operation.apply, updateFromEditor, updateFromDisk, markSaved, markClosed,
      flushDue, flushPending, perform, performFlush] using returns

/-! ## Histories -/

/-- A project with everything that its registry has reported. -/
structure History where
  project : Project
  bench : Bench
  log : List FileEvent

namespace History

/-- A project begins with the document that is its entry file. -/
def begin (id : ProjectId) (delay : Nat) (sources : Sources) (bench : Bench)
    (document : Document) : Option History := do
  let r ← (empty id delay).registry.addDocument sources document
  let (project, bench) ← (empty id delay).addDocument sources bench document
  return { project, bench, log := r.events }

/-- The project performs an operation. -/
def next (h : History) (sources : Sources) (operation : Registry.Operation) : Option History := do
  let r ← operation.apply sources h.project.registry
  let (project, bench) ← h.project.act sources h.bench operation
  return { project, bench, log := h.log ++ r.events }

theorem next_isSome {h : History} {operation : Registry.Operation}
    (returns : (operation.apply sources h.project.registry).isSome) :
    (h.next sources operation).isSome := by
  obtain ⟨r, applied⟩ := Option.isSome_iff_exists.mp returns
  obtain ⟨turned, acted⟩ := Option.isSome_iff_exists.mp (act_isSome h.bench returns)
  simp [next, applied, acted]

/-- What holds throughout a history. -/
structure Consistent (entry : Uri) (h : History) : Prop where
  sound : h.project.registry.Sound entry
  tidy : h.project.registry.Tidy
  drained : h.project.registry.events = []
  first : h.log.head? = some (.added entry)
  replayed : h.log.foldl FileEvent.replay [] = h.project.registry.uris

theorem Consistent.of_events {h : History} {r : Registry} {entry : Uri}
    {log : List FileEvent} (sound : r.Sound entry) (tidy : r.Tidy)
    (first : log.head? = some (.added entry)) (replayed : log.foldl FileEvent.replay [] = r.uris)
    (registry : h.project.registry = { r with events := [] }) (same : h.log = log) :
    h.Consistent entry where
  sound := by
    rw [registry]
    exact sound.congr rfl rfl
  tidy := by
    rw [registry]
    exact (Registry.tidy_congr rfl rfl).mpr tidy
  drained := by rw [registry]
  first := by rw [same, first]
  replayed := by
    rw [same, registry, replayed]
    rfl

theorem consistent_begin {id : ProjectId} {delay : Nat} {sources : Sources} {bench : Bench}
    {document : Document} {h : History} (done : begin id delay sources bench document = some h) :
    h.Consistent document.uri := by
  obtain ⟨r, added, rest⟩ := Option.bind_eq_some_iff.mp done
  obtain ⟨⟨project, bench⟩, turned, same⟩ := Option.bind_eq_some_iff.mp rest
  cases same
  obtain ⟨r', added', settled⟩ := perform_eq_some_iff.mp turned
  obtain rfl : r = r' := Option.some.inj (added.symm.trans added')
  obtain ⟨rfl, -⟩ := Prod.ext_iff.mp settled
  have moves := Registry.updateFromEditor_moves added
  have untracked : document.uri ∉ (empty id delay).registry.uris := by
    simp [empty, Registry.uris]
  obtain ⟨sound, tidy⟩ := Registry.sound_add_first (r := (empty id delay).registry)
    (u := document.uri) rfl rfl
  obtain ⟨new, events, uris⟩ := moves.replays
  rw [Registry.add_events untracked] at events
  rw [Registry.uris_add untracked] at uris
  exact .of_events (sound.moves moves) (tidy.moves sound moves) (by rw [events]; rfl)
    (by rw [events]; exact uris) settle_registry rfl

theorem Consistent.next {h h' : History} {entry : Uri} (consistent : h.Consistent entry)
    {operation : Registry.Operation} (done : h.next sources operation = some h') :
    h'.Consistent entry := by
  obtain ⟨r, applied, rest⟩ := Option.bind_eq_some_iff.mp done
  obtain ⟨⟨project, bench⟩, acted, same⟩ := Option.bind_eq_some_iff.mp rest
  cases same
  obtain ⟨r', applied', registry⟩ := act_registry consistent.drained acted
  obtain rfl : r = r' := Option.some.inj (applied.symm.trans applied')
  have moves := Registry.Operation.moves applied
  obtain ⟨new, events, uris⟩ := moves.replays
  rw [consistent.drained, List.nil_append] at events
  refine .of_events (consistent.sound.moves moves) (consistent.tidy.moves consistent.sound moves)
    ?_ ?_ registry rfl
  · simp [List.head?_append, consistent.first]
  · rw [List.foldl_append, consistent.replayed, events, uris]

/-- After a project was created and performed any operations, each with its own disk and
open buffers, its entry file is the first file that it added, its files are tracked once
each, own their edges, which lead to different tracked files and belong to a text, all are
reachable, and the reports tell which they are. -/
theorem registry_invariant {id : ProjectId} {delay : Nat} {bench : Bench} {document : Document}
    {operations : List (Sources × Registry.Operation)} {first h : History}
    (created : begin id delay sources bench document = some first)
    (performed : operations.foldlM (fun h (sources, operation) => h.next sources operation) first
      = some h) :
    h.project.registry.uris.Nodup ∧
      (∀ f ∈ h.project.registry.files, h.project.registry.find? f.uri = some f) ∧
      h.project.registry.entry? = some document.uri ∧
      h.log.head? = some (.added document.uri) ∧
      document.uri ∈ h.project.registry.uris ∧
      (∀ f ∈ h.project.registry.files,
        f.lines = (f.contents?.map Text.lines).getD [] ∧
        (f.contents? = none → f.dependencies = []) ∧
        (∀ edge ∈ f.dependencies, edge.parent = f.uri) ∧
        (f.dependencies.map (·.uri)).Nodup ∧
        ∀ edge ∈ f.dependencies, edge.uri ∈ h.project.registry.uris) ∧
      (∀ u ∈ h.project.registry.uris, h.project.registry.Reachable u) ∧
      h.log.foldl FileEvent.replay [] = h.project.registry.uris := by
  have consistent : h.Consistent document.uri :=
    foldlM_preserves (P := Consistent document.uri) (fun _ _ _ done before => before.next done)
      performed (consistent_begin created)
  have sound := consistent.sound
  refine ⟨sound.once, fun f member => Registry.find?_of_mem sound.once member, sound.entry?,
    consistent.first, sound.tracked, fun f member => ?_, consistent.tidy, consistent.replayed⟩
  have file := sound.files f member
  exact ⟨rfl, file.unloaded, file.owned, file.distinct, fun edge known => sound.leads member known⟩

/-- Flushing the text of a first document is such a history. -/
theorem replayed_after_flush : ∃ first h,
    begin ⟨1⟩ 250 Registry.entwined ⟨.ofProgram [] none, []⟩ Registry.entryText = some first ∧
      [(Registry.entwined, Registry.Operation.flush)].foldlM
        (fun h (sources, operation) => h.next sources operation) first = some h ∧
      h.log.foldl FileEvent.replay [] = h.project.registry.uris := by
  have added : (empty ⟨1⟩ 250).registry.addDocument Registry.entwined Registry.entryText
      = some Registry.opened := Registry.addDocument_opened
  obtain ⟨first, created⟩ : ∃ first, begin ⟨1⟩ 250 Registry.entwined ⟨.ofProgram [] none, []⟩
      Registry.entryText = some first := by
    simp [begin, addDocument, perform, added]
  have before := consistent_begin created
  obtain ⟨h, flushed⟩ := Option.isSome_iff_exists.mp (next_isSome
    (Registry.Operation.flush.returns Registry.entwined before.sound before.tidy
      (by simp [Registry.Operation.target?])))
  have performed : [(Registry.entwined, Registry.Operation.flush)].foldlM
      (fun h (sources, operation) => h.next sources operation) first = some h := by
    simpa using flushed
  exact ⟨first, h, created, performed, (registry_invariant created performed).2.2.2.2.2.2.2⟩

end History

end Project

end AsmServer
