import AsmServer.Proofs.Workspace.Coverage
import AsmServer.Proofs.Workspace.Progress

/-!
# Projects never share an entry file

A project is made of a document that no project tracks, and no project ever drops its entry file.
So the entry file of a new project is none that another project has. Projects keep their
identities and entry files for good and stand in the order of their numbers.
-/

namespace AsmServer

namespace Project

variable {sources : Sources} {delay : Nat} {p p' : Project}

/-- What a project has for good: its identity and its entry file. -/
def root (p : Project) : ProjectId × Option Uri := (p.id, p.registry.entry?)

theorem root_settle {r : Registry} {bench : Bench} (h : p.Lawful delay)
    (moves : Registry.Moves sources p.registry r) :
    (settle { p with registry := r } bench).1.root = p.root := by
  obtain ⟨entry, sound⟩ := h.sound
  have after := sound.moves moves
  have same : r.entry? = p.registry.entry? := after.entry?.trans sound.entry?.symm
  rw [root, settle_id, settle_registry]
  exact congrArg (Prod.mk p.id) same

theorem root_assemble {bench : Bench} : (p.assemble bench).1.root = p.root := by
  rw [root, assemble_id, assemble_registry]
  rfl

/-- The entry file is tracked throughout. -/
theorem Lawful.exists_entry (h : p.Lawful delay) :
    ∃ entry, p.registry.entry? = some entry ∧ p.tracks entry := by
  obtain ⟨entry, sound⟩ := h.sound
  exact ⟨entry, sound.entry?, Registry.tracks_iff.mpr sound.tracked⟩

end Project

namespace Workspace

variable {sources : Sources} {w w' : Workspace} {document : Document}

/-- What the projects have for good. -/
def roots (w : Workspace) : List (ProjectId × Option Uri) := w.projects.map Project.root

/-! ## Commands -/

/-- Whatever may be asked of a workspace. -/
inductive Command where
  | perform (operation : Operation)
  /-- Drop every update held back. -/
  | dispose

/-- The workspace after a command. -/
def Command.apply (sources : Sources) (w : Workspace) : Command → Option Workspace
  | perform operation => operation.apply sources w
  | dispose => some w.dispose

/-- Obey commands, one after the other, each with its own disk and open buffers. -/
def obey (w : Workspace) (commands : List (Sources × Command)) : Option Workspace :=
  commands.foldlM (fun w (sources, command) => command.apply sources w) w

/-- The document that a command makes a project of: the one that was opened or changed, if no
project tracks it. -/
def Command.founder? (w : Workspace) : Command → Option Document
  | perform (.change document) => if w.tracks document.uri then none else some document
  | _ => none

theorem Command.founder?_eq_some_iff {command : Command} :
    command.founder? w = some document ↔
      command = .perform (.change document) ∧ ∀ p ∈ w.projects, ¬p.tracks document.uri := by
  have free (document : Document) :
      w.tracks document.uri = false ↔ ∀ p ∈ w.projects, ¬p.tracks document.uri := by
    simp [Workspace.tracks]
  unfold founder?
  split
  · next given =>
    rw [Option.ite_none_left_eq_some, Bool.not_eq_true, free, perform.injEq,
      Operation.change.injEq, Option.some.injEq]
    constructor
    · rintro ⟨untracked, rfl⟩
      exact ⟨rfl, untracked⟩
    · rintro ⟨rfl, untracked⟩
      exact ⟨untracked, rfl⟩
  · next other => exact iff_of_false (by simp) fun both => other _ both.1

theorem Command.steps {command : Command} (done : command.apply sources w = some w') :
    ∃ attempts, Steps w attempts w' := by
  cases command with
  | perform operation => exact operation.steps done
  | dispose =>
    cases done
    exact steps_dispose

/-! ## What a command does to the projects -/

theorem roots_of_forall₂ {delay : Nat} {projects projects' : List Project}
    (related : List.Forall₂ (fun p p' => p.Lawful delay → p'.root = p.root) projects projects')
    (lawful : ∀ p ∈ projects, p.Lawful delay) :
    projects'.map Project.root = projects.map Project.root := by
  induction related with
  | nil => rfl
  | cons here _ ih =>
    obtain ⟨first, others⟩ := List.forall_mem_cons.mp lawful
    rw [List.map_cons, List.map_cons, here first, ih others]

/-- A new project has the next number and the document as its entry file. -/
theorem roots_createProject (done : w.createProject sources document = some w') :
    w'.roots = w.roots ++ [(⟨w.nextNumber⟩, some document.uri)] := by
  obtain ⟨⟨p, bench⟩, adding, same⟩ := Option.bind_eq_some_iff.mp done
  cases same
  obtain ⟨-, -, entry⟩ := Project.lawful_addDocument adding
  obtain ⟨r, -, settled⟩ := Project.perform_eq_some_iff.mp adding
  have id : p.id = ⟨w.nextNumber⟩ := by
    obtain ⟨rfl, -⟩ := Prod.ext_iff.mp settled
    exact Project.settle_id
  simp [roots, Project.root, id, entry]

/-- An operation that makes no project leaves the roots. -/
theorem Operation.roots {operation : Operation} (lawful : w.Lawful)
    (none : (Command.perform operation).founder? w = none)
    (done : operation.apply sources w = some w') : w'.roots = w.roots := by
  cases Operation.course done with
  | @turns _ task _ given turning current? =>
    obtain ⟨projects, bench, related, -, rfl⟩ := forThose_forall₂
      (R := fun p p' => p.Lawful w.delay → p'.root = p.root) (B := fun _ => True)
      (fun p bench p' bench' _ _ turned => ⟨fun here => by
        obtain ⟨r, moves, settled⟩ := Project.isTurn_perform task p bench p' bench' turned
        obtain ⟨rfl, -⟩ := Prod.ext_iff.mp settled
        exact Project.root_settle here moves, trivial⟩)
      (fun _ _ _ => rfl) trivial turning
    exact roots_of_forall₂ related lawful
  | creates untracked added => simp [Command.founder?, untracked] at none
  | assembles assembled =>
    obtain ⟨projects, bench, related, -, rfl⟩ := assembled_forall₂
      (R := fun p p' => p.Lawful w.delay → p'.root = p.root) (B := fun _ => True)
      (fun _ _ _ => ⟨fun _ => Project.root_assemble, trivial⟩) trivial assembled
    exact roots_of_forall₂ related lawful

/-- A command leaves the roots and adds that of the project which it makes. -/
theorem Command.roots {command : Command} (lawful : w.Lawful)
    (done : command.apply sources w = some w') :
    w'.roots = w.roots ++ (command.founder? w).toList.map
      fun document => (⟨w.nextNumber⟩, some document.uri) := by
  cases founder : command.founder? w with
  | some document =>
    obtain ⟨rfl, untracked⟩ := founder?_eq_some_iff.mp founder
    have free : ¬w.tracks document.uri = true := by simpa [Workspace.tracks] using untracked
    have created : { w with current? := some document.uri }.createProject sources document
        = some w' := by
      rw [← done]
      exact (if_neg free).symm
    exact (roots_createProject created :)
  | none =>
    rw [Option.toList_none, List.map_nil, List.append_nil]
    cases command with
    | perform operation => exact operation.roots lawful founder done
    | dispose =>
      cases done
      simp [Workspace.roots, Workspace.dispose, Project.root, Project.dispose, Registry.dispose,
        Function.comp_def]

/-! ## Runs -/

/-- The projects have different entry files and stand in the order of their numbers. -/
structure Rooted (w : Workspace) : Prop where
  lawful : w.Lawful
  numbered : w.Numbered
  increasing : (w.projects.map (·.id.number)).Pairwise (· < ·)
  distinct : (w.projects.map (·.registry.entry?)).Nodup

theorem rooted_start {assembler : Assembler} {delay : Nat} : (start assembler delay).Rooted :=
  ⟨by simp [Lawful, start], ⟨by simp [start], by simp [start]⟩, by simp [start], by simp [start]⟩

/-- A new number is above all others, and a new entry file is not tracked, as the others are. -/
theorem Rooted.apply {command : Command} (h : w.Rooted)
    (done : command.apply sources w = some w') : w'.Rooted := by
  obtain ⟨attempts, steps⟩ := Command.steps done
  have added := Command.roots h.lawful done
  have numbers : w'.projects.map (·.id.number) = w.projects.map (·.id.number)
      ++ (command.founder? w).toList.map fun _ => w.nextNumber := by
    simpa [Workspace.roots, Project.root, Function.comp_def] using
      congrArg (List.map (·.1.number)) added
  have entries : w'.projects.map (·.registry.entry?) = w.projects.map (·.registry.entry?)
      ++ (command.founder? w).toList.map fun document => some document.uri := by
    simpa [Workspace.roots, Project.root, Function.comp_def] using congrArg (List.map (·.2)) added
  refine ⟨steps.lawful h.lawful, steps.numbered h.numbered, ?_, ?_⟩
  · rw [numbers, List.pairwise_append]
    refine ⟨h.increasing, ?_, fun number old next new => ?_⟩
    · cases command.founder? w <;> simp
    · obtain ⟨p, member, rfl⟩ := List.mem_map.mp old
      obtain ⟨-, -, rfl⟩ := List.mem_map.mp new
      exact h.numbered.below p.id (List.mem_map_of_mem member)
  · rw [entries, List.nodup_append]
    refine ⟨h.distinct, ?_, fun entry old other new => ?_⟩
    · cases command.founder? w <;> simp
    · obtain ⟨p, member, rfl⟩ := List.mem_map.mp old
      obtain ⟨document, founder, rfl⟩ := List.mem_map.mp new
      obtain ⟨-, untracked⟩ := Command.founder?_eq_some_iff.mp (Option.mem_toList.mp founder)
      obtain ⟨entry, root, tracked⟩ := (h.lawful p member).exists_entry
      intro same
      obtain rfl : entry = document.uri := Option.some.inj (root.symm.trans same)
      exact untracked p member tracked

theorem Rooted.obey {commands : List (Sources × Command)} (h : w.Rooted)
    (done : w.obey commands = some w') : w'.Rooted ∧ w.roots <+: w'.roots := by
  refine foldlM_preserves (P := fun w' => w'.Rooted ∧ w.roots <+: w'.roots) ?_ done
    ⟨h, List.prefix_rfl⟩
  rintro w₁ step w₂ next ⟨rooted, kept⟩
  refine ⟨rooted.apply next, kept.trans ?_⟩
  rw [Command.roots rooted.lawful next]
  exact List.prefix_append _ _

/-- A document that no project tracks makes a project. -/
theorem exists_change_of_untracked (sources : Sources)
    (untracked : ∀ p ∈ w.projects, ¬p.tracks document.uri) :
    ∃ w', (Operation.change document).apply sources w = some w' ∧
      w'.roots = w.roots ++ [(⟨w.nextNumber⟩, some document.uri)] := by
  have free : ¬w.tracks document.uri = true := by simpa [Workspace.tracks] using untracked
  have returns : (createProject sources { w with current? := some document.uri } document).isSome :=
    createProject_returns document
  obtain ⟨w', created⟩ := Option.isSome_iff_exists.mp returns
  exact ⟨w', (if_neg free).trans created, (roots_createProject created :)⟩

/-- After any run of commands, whatever the delay and with any disk and open buffers at each of
them, the projects have different entry files, which they track, and stand in the order of their
numbers; whatever follows leaves them there with their identities and entry files. A command makes
a project exactly if it opens or changes a document that no project tracks. Then it does make one,
and one only, with the document as its entry file. -/
theorem projects_share_no_entry {assembler : Assembler} {delay : Nat}
    {commands : List (Sources × Command)}
    (history : (start assembler delay).obey commands = some w) :
    (w.projects.map (·.registry.entry?)).Nodup ∧
    (∀ p ∈ w.projects, ∃ entry, p.registry.entry? = some entry ∧ p.tracks entry) ∧
    (w.projects.map (·.id.number)).Pairwise (· < ·) ∧
    (∀ later w', w.obey later = some w' → w.roots <+: w'.roots) ∧
    (∀ sources command w', Command.apply sources w command = some w' →
      (w'.roots ≠ w.roots ↔ ∃ document, command = .perform (.change document) ∧
        ∀ p ∈ w.projects, ¬p.tracks document.uri)) ∧
    ∀ sources document, (∀ p ∈ w.projects, ¬p.tracks document.uri) →
      ∃ w', Command.apply sources w (.perform (.change document)) = some w' ∧
        w'.roots = w.roots ++ [(⟨w.nextNumber⟩, some document.uri)] := by
  obtain ⟨rooted, -⟩ := rooted_start.obey history
  refine ⟨rooted.distinct, fun p member => (rooted.lawful p member).exists_entry,
    rooted.increasing, fun later w' done => (rooted.obey done).2, fun sources command w' done => ?_,
    fun sources document untracked => exists_change_of_untracked sources untracked⟩
  have founded : (∃ document, command = .perform (.change document) ∧
      ∀ p ∈ w.projects, ¬p.tracks document.uri) ↔ (command.founder? w).isSome := by
    rw [Option.isSome_iff_exists]
    exact exists_congr fun document => Command.founder?_eq_some_iff.symm
  rw [founded, Command.roots rooted.lawful done]
  cases command.founder? w <;> simp

/-- A file that is opened while the text that includes it is held back has a project of its own. -/
theorem part_has_own_project : ∃ w, (start (.ofProgram [] none) 250).obey
      [(partStored, .perform (.change whole)), (partStored, .perform (.change part)),
        (partStored, .dispose)] = some w ∧
    w.projects.map (·.registry.entry?) = [some whole.uri, some part.uri] ∧
    (w.projects.map (·.registry.entry?)).Nodup := by
  obtain ⟨w₁, opened, lone⟩ : ∃ w, (Operation.change whole).apply partStored
      (start (.ofProgram [] none) 250) = some w ∧ w.Lone wholeOpened :=
    lone_change (Registry.addDocument_blank (by decide))
  have untracked : ∀ p ∈ w₁.projects, ¬p.tracks part.uri := by
    have free : w₁.tracks part.uri = false := by rw [lone.tracks]; decide +kernel
    simpa [Workspace.tracks] using free
  obtain ⟨w₂, second, roots⟩ := exists_change_of_untracked partStored untracked
  have history : (start (.ofProgram [] none) 250).obey
      [(partStored, .perform (.change whole)), (partStored, .perform (.change part)),
        (partStored, .dispose)] = some w₂.dispose := by
    simp [obey, Command.apply, opened, second]
  refine ⟨w₂.dispose, history, ?_, (projects_share_no_entry history).1⟩
  obtain ⟨p, projects, registry, -⟩ := lone
  have first : p.registry.entry? = some whole.uri := by rw [registry]; decide +kernel
  have entries := congrArg (List.map (·.2)) roots
  simpa [Workspace.roots, projects, Project.root, first, dispose, Project.dispose,
    Registry.dispose, Function.comp_def] using entries

end Workspace

end AsmServer
