import AsmServer.Proofs.Workspace.Buffers
import AsmServer.Proofs.Workspace.Lone
import AsmServer.Session.Basic

/-!
# Sessions and their events

A session changes when the editor sends a message or a timer fires. Each event may find
another disk and other programs. Whatever happens, the workspace is changed by operations,
and what is announced and which timers are set has no influence on the projects.

A client conforms if the version of a document grows as long as the document is open.
-/

namespace AsmServer

namespace Session

variable {host : Host} {s s' : Session} {w : Workspace} {change : Workspace → Option Workspace}

/-! ## Changing the workspace -/

/-- The session has these buffers and the projects of this workspace. -/
structure SameProjects (s : Session) (buffers : Buffers) (w : Workspace) : Prop where
  buffers : s.buffers = buffers
  projects : s.workspace.projects = w.projects
  delay : s.workspace.delay = w.delay

/-- Announcing and setting timers leave the projects and the buffers. -/
theorem update_of_eq_some (done : change s.workspace = some w) :
    ∃ s', s.update change = some s' ∧ SameProjects s' s.buffers w :=
  ⟨{ s with workspace := w }.announce.arm, by simp [update, done], ⟨rfl, rfl, rfl⟩⟩

theorem exists_of_update (done : s.update change = some s') :
    ∃ w, change s.workspace = some w ∧ SameProjects s' s.buffers w := by
  obtain ⟨w, changed, rfl⟩ := Option.map_eq_some_iff.mp done
  exact ⟨w, changed, ⟨rfl, rfl, rfl⟩⟩

section

variable {document : Document} {uri : Uri} {timer : Timer}

/-- A text that is taken over is a change with the buffer in place. -/
theorem exists_of_takeDocument (done : s.takeDocument host document = some s') :
    ∃ w, (Workspace.Operation.change document).apply ⟨host.disk, s.buffers.insert document⟩
        s.workspace = some w ∧ SameProjects s' (s.buffers.insert document) w := by
  have done : update { s with buffers := s.buffers.insert document }
      (·.documentChanged ⟨host.disk, s.buffers.insert document⟩ document) = some s' := done
  exact exists_of_update done

theorem takeDocument_of_change
    (changed : (Workspace.Operation.change document).apply
      ⟨host.disk, s.buffers.insert document⟩ s.workspace = some w) :
    ∃ s', s.takeDocument host document = some s' ∧
      SameProjects s' (s.buffers.insert document) w := by
  let taken : Session := { s with buffers := s.buffers.insert document }
  exact taken.update_of_eq_some changed

/-- A document that is closed is none any more while the workspace closes it. -/
theorem exists_of_didClose (opened : s.buffers.find? uri = some document)
    (done : s.didClose host uri = some s') :
    ∃ w, (Workspace.Operation.close document).apply ⟨host.disk, s.buffers.erase uri⟩
        s.workspace = some w ∧ SameProjects s' (s.buffers.erase uri) w := by
  rw [didClose, opened] at done
  have done : update { s with buffers := s.buffers.erase uri }
      (·.documentClosed ⟨host.disk, s.buffers.erase uri⟩ document) = some s' := done
  exact exists_of_update done

theorem exists_of_deliver (done : s.deliver host timer = some s') :
    ∃ w, (Workspace.Operation.due timer.project timer.generation).apply (s.sources host)
        s.workspace = some w ∧ SameProjects s' s.buffers w := by
  let forgotten : Session := { s with timers := s.timers.erase timer }
  have done : forgotten.update ((Workspace.Operation.due timer.project timer.generation).apply
      (s.sources host)) = some s' := done
  exact exists_of_update (s := forgotten) done

end

/-! ## Events -/

/-- What reaches a session. -/
inductive Event where
  | opened (document : Document)
  /-- The last of several changes gives the whole text. -/
  | changed (earlier : List ContentChange) (document : Document)
  | saved (uri : Uri)
  | closed (uri : Uri)
  /-- Files changed on the disk. -/
  | watched (uris : List Uri)
  | timer (fired : Timer)

/-- The session after an event. -/
def Event.apply (host : Host) (event : Event) (s : Session) : Option Session :=
  match event with
  | opened document => s.didOpen host document.uri document.version document.text
  | changed earlier document =>
    s.didChange host document.uri document.version (earlier ++ [⟨none, document.text⟩])
  | saved uri => s.didSave host uri
  | closed uri => s.didClose host uri
  | watched uris => s.didChangeFiles host uris
  | timer fired => s.deliver host fired

/-- The text that comes with an event. -/
def Event.document? : Event → Option Document
  | opened document => some document
  | changed _ document => some document
  | _ => none

/-- The version of a document grows while the document is open. -/
def Event.Conforming (s : Session) (event : Event) : Prop :=
  ∀ document, event.document? = some document →
    ∀ buffer, s.buffers.find? document.uri = some buffer → buffer.version < document.version

/-- Both messages with a text do the same. -/
theorem apply_of_document? {event : Event} {document : Document}
    (h : event.document? = some document) : event.apply host s = s.takeDocument host document := by
  cases event with
  | opened _ =>
    obtain rfl := Option.some.inj h
    rfl
  | changed earlier _ =>
    obtain rfl := Option.some.inj h
    simp [Event.apply, didChange]
  | _ => cases h

/-- An event that brings no text of a document does not open it. -/
theorem find?_none_of_apply {event : Event} {uri : Uri} (closed : s.buffers.find? uri = none)
    (other : ∀ document, event.document? = some document → document.uri ≠ uri)
    (done : event.apply host s = some s') : s'.buffers.find? uri = none := by
  have taken {document : Document} (text : event.document? = some document) :
      s'.buffers.find? uri = none := by
    rw [apply_of_document? text] at done
    obtain ⟨w, -, same⟩ := exists_of_takeDocument done
    rwa [same.buffers, Buffers.find?_insert_of_ne (other document text).symm]
  cases event with
  | opened document => exact taken rfl
  | changed earlier document => exact taken rfl
  | saved uri' =>
    simp only [Event.apply, didSave] at done
    split at done
    · cases done
      exact closed
    · obtain ⟨w, -, same⟩ := exists_of_update done
      rwa [same.buffers]
  | closed uri' =>
    cases opened : s.buffers.find? uri' with
    | none =>
      simp only [Event.apply, didClose, opened] at done
      cases done
      exact closed
    | some document =>
      obtain ⟨w, -, same⟩ := exists_of_didClose opened done
      rw [same.buffers, Buffers.find?_erase]
      split
      · rfl
      · exact closed
  | watched uris =>
    have done : s.didChangeFiles host uris = some s' := done
    obtain ⟨w, -, same⟩ := exists_of_update done
    rwa [same.buffers]
  | timer fired =>
    obtain ⟨w, -, same⟩ := exists_of_deliver done
    rwa [same.buffers]

/-! ## Sessions with one project -/

section lone

variable {r r' : Registry} {document : Document} {uri : Uri} {buffers : Buffers}

theorem SameProjects.lone (same : SameProjects s buffers w) (lone : w.Lone r) :
    s.buffers = buffers ∧ s.workspace.Lone r := by
  obtain ⟨p, projects, rest⟩ := lone
  exact ⟨same.buffers, p, same.projects.trans projects, rest⟩

/-- The session after its first document made a project of this registry. -/
def begun (config : Config) (assembler : Assembler) (document : Document) (r : Registry) :
    Session :=
  announce { start config assembler with
    buffers := [document], workspace := .begun assembler config.delay document r } |>.arm

theorem takeDocument_first {config : Config} {assembler : Assembler}
    (added : (Registry.blank config.delay).addDocument ⟨host.disk, [document]⟩ document = some r) :
    (start config assembler).takeDocument host document
      = some (begun config assembler document r) :=
  Option.map_eq_some_iff.mpr ⟨_, Workspace.change_first added, rfl⟩

/-- The session after its only project `p` took a further text, with which its registry became
`r`. -/
def took (s : Session) (p : Project) (document : Document) (r : Registry) : Session :=
  announce { s with
    buffers := s.buffers.insert document
    workspace := { s.workspace.turned p r with current? := some document.uri } } |>.arm

theorem takeDocument_only {p : Project} (only : s.workspace.projects = [p])
    (tracked : p.tracks document.uri)
    (changed : p.registry.updateFromEditor ⟨host.disk, s.buffers.insert document⟩ document
      = some r) :
    s.takeDocument host document = some (s.took p document r) :=
  Option.map_eq_some_iff.mpr ⟨_, Workspace.change_only only tracked changed, rfl⟩

/-- The first document makes a project. -/
theorem lone_first {config : Config} {assembler : Assembler}
    (added : (Registry.blank config.delay).addDocument ⟨host.disk, [document]⟩ document = some r) :
    ∃ s, (start config assembler).takeDocument host document = some s ∧
      s.buffers = [document] ∧ s.workspace.Lone r.drained := by
  obtain ⟨w, changed, lone⟩ : ∃ w, (Workspace.Operation.change document).apply
      ⟨host.disk, [document]⟩ (Workspace.start assembler config.delay) = some w ∧
      w.Lone r.drained := Workspace.lone_change added
  obtain ⟨s, taken, same⟩ : ∃ s, (start config assembler).takeDocument host document = some s ∧
      SameProjects s [document] w := takeDocument_of_change changed
  exact ⟨s, taken, same.lone lone⟩

theorem lone_open (lone : s.workspace.Lone r) (tracked : document.uri ∈ r.uris)
    (inserted : s.buffers.insert document = buffers)
    (changed : r.updateFromEditor ⟨host.disk, buffers⟩ document = some r') :
    ∃ s', s.takeDocument host document = some s' ∧ s'.buffers = buffers ∧
      s'.workspace.Lone r'.drained := by
  subst inserted
  obtain ⟨w, changed, lone'⟩ := lone.change tracked changed
  obtain ⟨s', taken, same⟩ := takeDocument_of_change changed
  exact ⟨s', taken, same.lone lone'⟩

theorem lone_close (lone : s.workspace.Lone r) (tracked : document.uri ∈ r.uris)
    (opened : s.buffers.find? document.uri = some document)
    (erased : s.buffers.erase document.uri = buffers)
    (changed : r.markClosed ⟨host.disk, buffers⟩ document = some r') :
    ∃ s', s.didClose host document.uri = some s' ∧ s'.buffers = buffers ∧
      s'.workspace.Lone r'.drained := by
  subst erased
  obtain ⟨w, changed, lone'⟩ := lone.close tracked changed
  obtain ⟨s', closed, same⟩ :=
    update_of_eq_some (s := { s with buffers := s.buffers.erase document.uri }) changed
  refine ⟨s', ?_, same.lone lone'⟩
  rw [didClose, opened]
  exact closed

theorem lone_save (lone : s.workspace.Lone r) (tracked : document.uri ∈ r.uris)
    (held : s.buffers = buffers) (opened : buffers.find? document.uri = some document)
    (changed : r.markSaved ⟨host.disk, buffers⟩ document = some r') :
    ∃ s', s.didSave host document.uri = some s' ∧ s'.buffers = buffers ∧
      s'.workspace.Lone r'.drained := by
  subst held
  obtain ⟨w, changed, lone'⟩ := lone.save tracked changed
  obtain ⟨s', saved, same⟩ := update_of_eq_some changed
  refine ⟨s', ?_, same.lone lone'⟩
  rw [didSave, opened]
  exact saved

theorem lone_report (lone : s.workspace.Lone r) (held : s.buffers = buffers)
    (closed : (r.find? uri).any (!·.isOpen))
    (changed : r.updateFromDisk ⟨host.disk, buffers⟩ uri = some r') :
    ∃ s', s.didChangeFiles host [uri] = some s' ∧ s'.buffers = buffers ∧
      s'.workspace.Lone r'.drained := by
  subst held
  obtain ⟨w, reported, lone'⟩ := lone.disk closed changed
  have reported : s.workspace.diskChanged (s.sources host) uri = some w := reported
  obtain ⟨s', watched, same⟩ : ∃ s', s.didChangeFiles host [uri] = some s' ∧
      SameProjects s' s.buffers w := update_of_eq_some (by simp [reported])
  exact ⟨s', watched, same.lone lone'⟩

theorem lone_fire {generation due : Nat} {flushed : Bool} (lone : s.workspace.Lone r)
    (held : s.buffers = buffers)
    (changed : r.flushDue ⟨host.disk, buffers⟩ generation = some (r', flushed)) :
    ∃ s', s.deliver host ⟨⟨1⟩, generation, due⟩ = some s' ∧ s'.buffers = buffers ∧
      s'.workspace.Lone r'.drained := by
  subst held
  obtain ⟨w, fired, lone'⟩ := lone.due changed
  obtain ⟨s', delivered, same⟩ := update_of_eq_some
    (s := { s with timers := s.timers.erase ⟨⟨1⟩, generation, due⟩ }) fired
  exact ⟨s', delivered, same.lone lone'⟩

end lone

end Session

end AsmServer
