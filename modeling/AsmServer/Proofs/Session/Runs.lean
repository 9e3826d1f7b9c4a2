import AsmServer.Proofs.Session.Events
import AsmServer.Proofs.Workspace.Steps
import AsmServer.Session.Requests

/-!
# Runs of a session

A session does something when the editor sends a message, when it is told to replace the
assembler, to handle what is held back or to shut down, and when a timer fires. Each time it
may find another disk and other programs.

What it does comes to little: it notes something, changes the workspace by operations and
announces what came of it, or drops what is held back. So the workspace takes steps, and then
everything that was reported meanwhile is read and announced. A run is accounted for by all the
attempts to assemble that were made in its steps.
-/

namespace AsmServer

/-- The workspace after its reports were read. -/
def Workspace.drained (w : Workspace) : Workspace := { w with bench := w.bench.drain.2 }

namespace Session

variable {host : Host} {s s' : Session} {attempts more : List Attempt} {w : Workspace}
  {config : Config} {assembler : Assembler}

/-! ## Actions -/

/-- What a session may have to do. -/
inductive Action where
  | opened (uri : Uri) (version : Int) (text : Text)
  | changed (uri : Uri) (version : Int) (changes : List ContentChange)
  | saved (uri : Uri)
  | closed (uri : Uri)
  /-- Files changed on the disk. -/
  | watched (uris : List Uri)
  /-- The editor greets, with settings or without. -/
  | greeted (settings? : Option Json)
  | configured (settings : Json)
  | assemblerReplaced (assembler : Assembler)
  /-- Everything held back is to be handled. -/
  | flushed
  | shutDown
  /-- A timer fires at a time. -/
  | timer (fired : Timer) (now : Nat)

/-- The session after it did what it had to. -/
def Action.apply (host : Host) (action : Action) (s : Session) : Option Session :=
  match action with
  | opened uri version text => s.didOpen host uri version text
  | changed uri version changes => s.didChange host uri version changes
  | saved uri => s.didSave host uri
  | closed uri => s.didClose host uri
  | watched uris => s.didChangeFiles host uris
  | greeted settings? => (s.begin host settings?).map (·.1)
  | configured settings => s.configure host settings
  | assemblerReplaced assembler => s.setAssembler assembler
  | flushed => s.flushAll host
  | shutDown => some s.shutdown
  | timer fired now => { s with now }.deliver host fired

/-- One action, with some disk and some programs. -/
def Acts (s s' : Session) : Prop := ∃ host, ∃ action : Action, action.apply host s = some s'

/-- The session came about from its start by actions. -/
def Reached (config : Config) (assembler : Assembler) (s : Session) : Prop :=
  Relation.ReflTransGen Acts (start config assembler) s

/-! ## Notes and operations -/

/-- The text that an action brings. -/
def Action.document? : Action → Option Document
  | opened uri version text => some ⟨uri, version, text⟩
  | changed uri version changes =>
    match changes.getLast? with
    | some ⟨none, text⟩ => some ⟨uri, version, text⟩
    | _ => none
  | _ => none

/-- The session after it noted what the action is about, and before the workspace changes. -/
def Action.note (s : Session) : Action → Session
  | opened uri version text => { s with buffers := s.buffers.insert ⟨uri, version, text⟩ }
  | changed uri version changes =>
    match (changed uri version changes).document? with
    | some document => { s with buffers := s.buffers.insert document }
    | none => s
  | closed uri => { s with buffers := s.buffers.erase uri }
  | greeted (some settings) => { s with config := (s.config.apply settings).1 }
  | configured settings => { s with config := (s.config.apply settings).1 }
  | shutDown => s.shutdown
  | timer fired now => { s with now, timers := s.timers.erase fired }
  | _ => s

/-- The operations that new settings ask for. -/
def assembling? (host : Host) (s : Session) (settings : Json) :
    Option (List Workspace.Operation) :=
  (s.config.apply settings).2.map fun path => [.replace (.ofProgram path (host.programs path))]

/-- The operations that the workspace goes through, if the action is about the workspace. -/
def Action.operations? (host : Host) (s : Session) : Action → Option (List Workspace.Operation)
  | opened uri version text => some [.change ⟨uri, version, text⟩]
  | changed uri version changes =>
    (changed uri version changes).document?.map fun document => [.change document]
  | saved uri => (s.buffers.find? uri).map fun document => [.save document]
  | closed uri => (s.buffers.find? uri).map fun document => [.close document]
  | watched uris => some (uris.map .disk)
  | greeted settings? => settings?.bind (s.assembling? host)
  | configured settings => s.assembling? host settings
  | assemblerReplaced assembler => some [.replace assembler]
  | flushed => some [.flush]
  | shutDown => none
  | timer fired _ => some [.due fired.project fired.generation]

/-- Have the workspace go through operations. -/
def go (host : Host) (s : Session) (operations : List Workspace.Operation) : Option Session :=
  s.update fun w => operations.foldlM (fun w operation => operation.apply (s.sources host) w) w

theorem go_singleton (host : Host) (s : Session) (operation : Workspace.Operation) :
    s.go host [operation] = s.update (operation.apply (s.sources host)) := by
  simp [go]

theorem takeDocument_eq (document : Document) : s.takeDocument host document =
    { s with buffers := s.buffers.insert document }.go host [.change document] :=
  (go_singleton host { s with buffers := s.buffers.insert document } (.change document)).symm

theorem didChange_eq (uri : Uri) (version : Int) (changes : List ContentChange) :
    s.didChange host uri version changes =
      match (Action.changed uri version changes).document? with
      | some document => s.takeDocument host document
      | none => some s := by
  simp only [didChange, Action.document?]
  rcases changes.getLast? with _ | ⟨_ | range, text⟩ <;> rfl

theorem configure_eq (settings : Json) : s.configure host settings =
    match s.assembling? host settings with
    | some operations => { s with config := (s.config.apply settings).1 }.go host operations
    | none => some { s with config := (s.config.apply settings).1 } := by
  unfold configure assembling?
  rcases s.config.apply settings with ⟨config, _ | path⟩
  · rfl
  · exact (go_singleton host { s with config }
      (.replace (.ofProgram path (host.programs path)))).symm

/-- An action is noted, and then the workspace goes through operations or stays. -/
theorem Action.apply_eq (action : Action) : action.apply host s =
    match action.operations? host s with
    | some operations => (action.note s).go host operations
    | none => some (action.note s) := by
  have single (operation : Workspace.Operation) := go_singleton host (action.note s) operation
  cases action with
  | opened uri version text => exact takeDocument_eq ⟨uri, version, text⟩
  | changed uri version changes =>
    rw [apply, didChange_eq, operations?, note]
    cases (changed uri version changes).document? with
    | none => rfl
    | some document => exact takeDocument_eq document
  | saved uri =>
    simp only [apply, didSave, operations?]
    cases s.buffers.find? uri with
    | none => rfl
    | some document => exact (single (.save document)).symm
  | closed uri =>
    simp only [apply, didClose, operations?]
    cases found : s.buffers.find? uri with
    | none => simp only [Option.map_none, note, Buffers.erase_of_find?_eq_none found]
    | some document => exact (single (.close document)).symm
  | watched uris =>
    simp only [operations?, go, List.foldlM_map]
    rfl
  | greeted settings? =>
    cases settings? with
    | none => rfl
    | some settings =>
      have learned : (greeted (some settings)).apply host s = s.configure host settings := by
        simp [apply, begin, Function.comp_def]
      exact learned.trans (configure_eq settings)
  | configured settings => exact configure_eq settings
  | assemblerReplaced assembler => exact (single (.replace assembler)).symm
  | flushed => exact (single .flush).symm
  | shutDown => rfl
  | timer fired now => exact (single (.due fired.project fired.generation)).symm

/-! ## Effects -/

/-- The timers that wait while the session acts: one that fires waits no longer. -/
def Action.waiting (s : Session) : Action → List Timer
  | timer fired _ => s.timers.erase fired
  | _ => s.timers

/-- Apart from its settings, its buffers and the time the session is as before, with these
timers. -/
structure Notes (s : Session) (timers : List Timer) (t : Session) : Prop where
  workspace : t.workspace = s.workspace
  published : t.published = s.published
  armed : t.armed = s.armed
  timers : t.timers = timers
  sent : t.sent = s.sent
  asked : t.asked = s.asked

/-- What an action comes to. -/
inductive Action.Effect (host : Host) (action : Action) (s : Session) : Session → Prop
  /-- The workspace goes through operations, and what came of it is announced. -/
  | updated {t : Session} {operations : List Workspace.Operation} {w : Workspace}
      (notes : Notes s (action.waiting s) t)
      (performed : operations.foldlM (fun w operation => operation.apply (t.sources host) w)
        s.workspace = some w) :
      Effect host action s { t with workspace := w }.announce.arm
  | noted {t : Session} (notes : Notes s (action.waiting s) t) : Effect host action s t
  | shutDown (waiting : action.waiting s = s.timers) : Effect host action s s.shutdown

theorem Action.notes {action : Action} (lasting : action ≠ shutDown) :
    Notes s (action.waiting s) (action.note s) := by
  cases action with
  | shutDown => exact absurd rfl lasting
  | changed uri version changes =>
    simp only [note]
    split <;> exact ⟨rfl, rfl, rfl, rfl, rfl, rfl⟩
  | greeted settings? => cases settings? <;> exact ⟨rfl, rfl, rfl, rfl, rfl, rfl⟩
  | _ => exact ⟨rfl, rfl, rfl, rfl, rfl, rfl⟩

/-- Every action has such an effect. -/
theorem Action.effect {action : Action} (done : action.apply host s = some s') :
    action.Effect host s s' := by
  by_cases last : action = shutDown
  · obtain rfl := last
    cases done
    exact .shutDown rfl
  have notes := Action.notes (s := s) last
  rw [apply_eq] at done
  split at done
  · obtain ⟨w, performed, rfl⟩ := Option.map_eq_some_iff.mp done
    exact .updated notes (notes.workspace ▸ performed)
  · cases done
    exact .noted notes

/-! ## Steps and announcements -/

/-- From `s` to `s'` the workspace took steps to `w`, with these attempts, and what was reported
meanwhile was announced. -/
structure Handles (s : Session) (attempts : List Attempt) (w : Workspace) (s' : Session) :
    Prop where
  steps : s.workspace.Steps attempts w
  workspace : s'.workspace = w.drained
  sent : s'.sent =
    s.sent ++ (Announcement.all w.drained s.published w.bench.events).messages
  asked : s'.asked = s.asked ++ w.bench.events.filterMap ProjectEvent.request?

/-- All reports were read. -/
abbrev Calm (s : Session) : Prop := s.workspace.bench.events = []

theorem Handles.calm (h : s.Handles attempts w s') : s'.Calm := by
  rw [Calm, h.workspace]
  rfl

theorem Calm.drained (calm : s.Calm) : s.workspace.drained = s.workspace := by
  obtain ⟨_, _, ⟨projects, current?, number, ⟨assembler, events⟩, delay⟩, _⟩ := s
  cases calm
  rfl

/-- Where nothing is reported, nothing is announced. -/
theorem Calm.handles (calm : s'.Calm) (steps : s.workspace.Steps attempts s'.workspace)
    (sent : s'.sent = s.sent) (asked : s'.asked = s.asked) :
    s.Handles attempts s'.workspace s' :=
  ⟨steps, calm.drained.symm, by simp [sent, calm, Announcement.all], by simp [asked, calm]⟩

/-- Operations one after the other are steps. -/
theorem steps_of_performed {operations : List Workspace.Operation} {sources : Sources}
    (performed : operations.foldlM (fun w operation => operation.apply sources w) s.workspace
      = some w) : ∃ attempts, s.workspace.Steps attempts w := by
  refine foldlM_preserves (P := fun w => ∃ attempts, s.workspace.Steps attempts w) ?_ performed
    ⟨[], .refl⟩
  rintro w operation w' changed ⟨attempts, run⟩
  obtain ⟨more, further⟩ := operation.steps changed
  exact ⟨attempts ++ more, run.trans further⟩

/-- Every action is handled so, and the session remembers what was published for each project. -/
theorem Action.Effect.handles {action : Action} (effect : action.Effect host s s')
    (calm : s.Calm) : ∃ attempts w, s.Handles attempts w s' ∧
      s'.published = (Announcement.all w.drained s.published w.bench.events).published := by
  cases effect with
  | @updated t operations w notes performed =>
    obtain ⟨attempts, run⟩ := steps_of_performed performed
    refine ⟨attempts, w, ⟨run, rfl, ?_, ?_⟩, ?_⟩
    · simp only [← notes.sent, ← notes.published]
      rfl
    · simp only [← notes.asked]
      rfl
    · simp only [← notes.published]
      rfl
  | noted notes =>
    have still : s'.Calm := by rwa [Calm, notes.workspace]
    refine ⟨[], s'.workspace, still.handles ?_ notes.sent notes.asked, ?_⟩
    · rw [notes.workspace]
      exact .refl
    · rw [notes.published, still]
      rfl
  | shutDown _ =>
    obtain ⟨attempts, dropped⟩ := Workspace.steps_dispose (w := s.workspace)
    have still : s.shutdown.Calm := calm
    refine ⟨attempts, s.shutdown.workspace, still.handles dropped rfl rfl, ?_⟩
    rw [still]
    rfl

theorem Action.handles {action : Action} (calm : s.Calm) (done : action.apply host s = some s') :
    ∃ attempts w, s.Handles attempts w s' := by
  obtain ⟨attempts, w, handles, -⟩ := (Action.effect done).handles calm
  exact ⟨attempts, w, handles⟩

/-! ## Runs -/

/-- A run from the start, with all attempts to assemble that were made in it, the oldest
first. -/
inductive Run (config : Config) (assembler : Assembler) : List Attempt → Session → Prop
  | start : Run config assembler [] (start config assembler)
  | next {host : Host} {action : Action} {s s' : Session} {attempts more : List Attempt}
      {w : Workspace} (run : Run config assembler attempts s)
      (done : action.apply host s = some s') (handles : s.Handles more w s') :
      Run config assembler (attempts ++ more) s'

theorem Run.calm (run : Run config assembler attempts s) : s.Calm := by
  cases run with
  | start => rfl
  | next _ _ handles => exact handles.calm

/-- However a session came about, there is a run with the attempts that were made. -/
theorem Reached.exists_run (reached : Reached config assembler s) :
    ∃ attempts, Run config assembler attempts s := by
  induction reached with
  | refl => exact ⟨[], .start⟩
  | tail _ acts ih =>
    obtain ⟨attempts, run⟩ := ih
    obtain ⟨host, action, done⟩ := acts
    obtain ⟨more, w, handles⟩ := action.handles run.calm done
    exact ⟨attempts ++ more, run.next done handles⟩

end Session

end AsmServer
