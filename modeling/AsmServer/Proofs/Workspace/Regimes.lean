import AsmServer.Proofs.Registry.Regimes
import AsmServer.Proofs.Workspace.Turns

/-!
# Workspaces under a regime

All projects of a workspace obey a regime as long as each operation queues only what may be
handled, and marks files only in ways that spoil nothing.
-/

namespace AsmServer

namespace Workspace

variable {sources : Sources} {P P' : TrackedFile → Prop} {Q Q' : TrackedFile → Update → Prop}
  {w w' : Workspace}

/-- Every project obeys the regime. -/
def Obeys (P : TrackedFile → Prop) (Q : TrackedFile → Update → Prop) (w : Workspace) : Prop :=
  ∀ p ∈ w.projects, p.registry.Obeys P Q

/-- A mark of a file neither spoils its property nor forbids an update. -/
structure Harmless (P : TrackedFile → Prop) (Q : TrackedFile → Update → Prop) (uri : Uri)
    (change : TrackedFile → TrackedFile) : Prop where
  keeps : ∀ f, f.uri = uri → P f → P (change f)
  allows : ∀ f update, f.uri = uri → Q f update → Q (change f) update

/-- Some project tracks this file. -/
def Tracked (w : Workspace) (f : TrackedFile) : Prop := ∃ p ∈ w.projects, f ∈ p.registry.files

theorem Obeys.files (h : w.Obeys P Q) {f : TrackedFile} (tracked : w.Tracked f) : P f := by
  obtain ⟨p, member, listed⟩ := tracked
  exact (h p member).files f listed

/-- The text of a document may be handled for every file of it that has another version. -/
def Settles (Q : TrackedFile → Update → Prop) (w : Workspace) (document : Document) : Prop :=
  ∀ f, w.Tracked f → f.uri = document.uri → f.version ≠ document.version → Q f (.editor document)

/-- What an operation queues may be handled, and its marks are harmless. -/
def Operation.Keeps (P : TrackedFile → Prop) (Q : TrackedFile → Update → Prop) (w : Workspace) :
    Operation → Prop
  | change document => Q { uri := document.uri } (.editor document) ∧
    ∀ f, w.Tracked f → f.uri = document.uri → Q f (.editor document)
  | save document => w.Settles Q document ∧
    Harmless P Q document.uri fun file => { file with dirty := false }
  | close document => w.Settles Q document ∧
    Harmless P Q document.uri fun file => { file with document? := none }
  | disk uri => ∀ f, w.Tracked f → f.uri = uri → f.document? = none → Q f (.disk uri)
  | _ => True

/-- The task of such an operation leaves every registry that it concerns under the regime. -/
theorem Operation.Keeps.obeys {operation : Operation} {task : Registry.Operation} {p : Project}
    {r : Registry} (regime : Registry.Regime sources P Q) (keeps : operation.Keeps P Q w)
    (given : operation.task? = some task) (member : p ∈ w.projects) (lawful : p.Lawful w.delay)
    (concerned : operation.concerns p) (h : p.registry.Obeys P Q)
    (done : task.apply sources p.registry = some r) : r.Obeys P Q := by
  obtain ⟨_, sound⟩ := lawful.sound
  have once : p.registry.uris.Nodup := sound.once
  cases operation with
  | change document =>
    cases given
    exact h.updateFromEditor regime (fun f tracked => keeps.2 f ⟨p, member, tracked⟩) done
  | save document =>
    cases given
    obtain ⟨settles, harmless⟩ := keeps
    exact h.markSaved regime once (fun f tracked => settles f ⟨p, member, tracked⟩)
      harmless.keeps harmless.allows done
  | close document =>
    cases given
    obtain ⟨settles, harmless⟩ := keeps
    exact h.markClosed regime once (fun f tracked => settles f ⟨p, member, tracked⟩)
      harmless.keeps harmless.allows done
  | disk uri =>
    cases given
    refine h.updateFromDisk regime (fun f tracked own => ?_) done
    have own : f.uri = uri := own
    have found : p.registry.find? uri = some f := own ▸ Registry.find?_of_mem once tracked
    have shut : f.document? = none := by
      simpa [concerns, tracksClosed, found, TrackedFile.isOpen] using concerned
    exact keeps f ⟨p, member, tracked⟩ own shut
  | due id generation =>
    cases given
    obtain ⟨_, flushing, rfl⟩ := Option.map_eq_some_iff.mp done
    exact h.flushDue regime flushing
  | flush =>
    cases given
    obtain ⟨_, flushing, rfl⟩ := Option.map_eq_some_iff.mp done
    exact h.flushPending regime flushing
  | replace assembler => cases given

/-- Every operation that keeps to a regime leaves all projects under it. -/
theorem Operation.obeys {operation : Operation} (regime : Registry.Regime sources P Q)
    (lawful : w.Lawful) (h : w.Obeys P Q) (keeps : operation.Keeps P Q w)
    (done : operation.apply sources w = some w') : w'.Obeys P Q := by
  cases Operation.course done with
  | @turns _ task w' given turning current? =>
    have obeys : w'.Obeys P Q := registry_forThose _ (fun _ _ => rfl)
      (fun p member concerned r changed =>
        (keeps.obeys regime given member (lawful p member) concerned (h p member) changed).congr
          rfl rfl)
      (fun p member _ => h p member) turning
    exact obeys
  | @creates document r untracked added =>
    intro q member
    rcases List.mem_append.mp member with old | new
    · exact h q old
    · rw [List.mem_singleton.mp new, Project.settle_registry]
      have taken : r.Obeys P Q := Registry.obeys_addDocument regime keeps.1 added
      exact taken.congr rfl rfl
  | assembles assembled =>
    obtain ⟨projects, bench, related, -, rfl⟩ := assembled_forall₂
      (R := fun p p' => p'.registry = p.registry) (B := fun _ => True)
      (fun _ _ _ => ⟨Project.assemble_registry, trivial⟩) trivial assembled
    intro p' member
    obtain ⟨p, old, same⟩ := mem_of_forall₂ related member
    exact same ▸ h p old

theorem Obeys.dispose (h : w.Obeys P Q) : w.dispose.Obeys P Q := by
  intro p' member
  obtain ⟨p, old, rfl⟩ := List.mem_map.mp member
  exact (h p old).dispose

end Workspace

end AsmServer
