import AsmServer.Proofs.Session.Cycles
import AsmServer.Proofs.Session.Timers
import AsmServer.Proofs.Workspace.Pinning

/-!
# Versions that are sent

Edits and diagnostics carry the version of an open document. Open files are pinned, so the edits
of a renaming and the diagnostics of a result are made for the text of that version.

The diagnostic of a cycle takes its range from the attempt that met the cycle, and its version
from the file as it is when the report is read. Both belong to one text if the project was not
attempted again in between. When several files change on the disk at once it may be, and then
the version may be that of a text without the cycle.
-/

namespace AsmServer

open Notification

/-! ## What answers and reports are made for -/

/-- The include that closes a cycle is one of the text that the file is pinned to. -/
theorem Registry.exists_directive_of_ofCycle? {r : Registry} {entry u : Uri} {f : TrackedFile}
    {document : Document} {error : ProjectError} {diagnostic : Diagnostic} (sound : r.Sound entry)
    (placed : r.Placed) (found : r.find? u = some f) (loaded : f.contents? = some document.text)
    (failed : r.request = .error error)
    (cycle : Diagnostic.ofCycle? error = some (u, diagnostic)) :
    ∃ directive ∈ Code.includes (Text.lines document.text), directive.range = diagnostic.range := by
  obtain ⟨chain, closes⟩ := closes_of_ofCycle? sound failed cycle
  obtain ⟨way, edge, listed, -, -, -, range⟩ := closes.round
  obtain ⟨g, here, own⟩ := mem_outgoing listed
  cases found.symm.trans here
  obtain ⟨directive, written, same⟩ := placed f (mem_of_find? found) edge own
  have lines : f.lines = Text.lines document.text := by simp [TrackedFile.lines, loaded]
  exact ⟨directive, lines ▸ written, same.trans range⟩

namespace Project

variable {p : Project} {attempts : List Attempt} {document : Document} {url : Text}

/-- The project holds this document under the URL, with the file that it belongs to. -/
structure Holds (p : Project) (url : Text) (document : Document) (f : TrackedFile) : Prop where
  tracked : f ∈ p.registry.files
  opened : f.document? = some document
  here : f.uri.url? = some url

/-- The edits of a renaming that carry a version are made for the text of that version. -/
theorem exists_of_mem_rename? {uri : Uri} {position : Position} {newName : Text}
    {edits : List DocumentEdit} {edit : DocumentEdit} {version : Int} (pinned : p.registry.Pinned)
    (answered : p.rename? uri position newName = some edits) (member : edit ∈ edits)
    (versioned : edit.version? = some version) :
    ∃ f document symbol, p.Holds edit.url document f ∧ document.version = version ∧
      edit.edits = ((Code.occurrences symbol (symbol.isDefinedIn p.registry f.uri)
        (Text.lines document.text)).filter (·.kind ≠ .comment)).map fun o => ⟨o.range, newName⟩ := by
  obtain ⟨symbol, -, rfl⟩ := Option.map_eq_some_iff.mp answered
  obtain ⟨⟨f, found⟩, listed, renamed⟩ := List.mem_filterMap.mp member
  obtain ⟨g, loaded, same⟩ := List.mem_map.mp listed
  obtain ⟨rfl, rfl⟩ := Prod.ext_iff.mp same
  have tracked := (List.mem_filter.mp loaded).1
  simp only [renameIn?] at renamed
  split at renamed
  · cases renamed
  obtain ⟨url, here, same⟩ := Option.bind_eq_some_iff.mp renamed
  cases same
  obtain ⟨document, opened, rfl⟩ := Option.map_eq_some_iff.mp versioned
  obtain ⟨contents, -⟩ := pinned.files g tracked document opened
  have lines : g.lines = Text.lines document.text := by simp [TrackedFile.lines, contents]
  exact ⟨g, document, symbol, ⟨tracked, opened, here⟩, rfl, by rw [occurrencesIn, lines]⟩

/-- The diagnostics of a report are made for this text. Those of a cycle are if the project meets
it still, or was attempted once only. -/
def Fits (p : Project) (attempts : List Attempt) (report : ProjectEvent) (text : Text)
    (diagnostics : List Diagnostic) : Prop :=
  match report with
  | .assembled _ _ _ => ∀ diagnostic ∈ diagnostics, diagnostic.IsFor text
  | .failed id error =>
    p.request = .error error ∨ (attempts.filter (·.project = id)).length ≤ 1 →
      ∀ diagnostic ∈ diagnostics, ∃ directive ∈ Code.includes (Text.lines text),
        directive.range = diagnostic.range
  | .removed _ _ => False

end Project

namespace Workspace

/-- Questions are answered from one of the projects. -/
theorem mem_of_projectFor? {w : Workspace} {uri : Uri} {p : Project}
    (chosen : w.projectFor? uri = some p) :
    p ∈ w.projects := by
  rcases Option.or_eq_some_iff.mp chosen with current | ⟨-, oldest⟩
  · obtain ⟨_, -, first⟩ := Option.bind_eq_some_iff.mp (Option.filter_eq_some_iff.mp current).1
    exact List.mem_of_find?_eq_some first
  · exact List.mem_of_find?_eq_some oldest

end Workspace

/-! ## Messages with versions -/

namespace Announcement

variable {w : Workspace} {published : Published} {p : Project} {u : Uri} {url : Text}
  {diagnostics : List Diagnostic} {version : Int} {event : ProjectEvent} {attempts : List Attempt}

theorem toNotification?_eq_some_iff {q : Publication} {version? : Option Int} :
    q.toNotification? = some (.publish url diagnostics version?) ↔
      q.uri.url? = some url ∧ q.diagnostics = diagnostics ∧ q.version? = version? := by
  simp [Publication.toNotification?]

/-- The version of a file is that of the document that the project holds. -/
theorem exists_of_version? (here : u.url? = some url)
    (versioned : (p.registry.find? u).bind (·.documentVersion?) = some version) :
    ∃ f document, p.registry.find? u = some f ∧ p.Holds url document f ∧
      document.version = version := by
  obtain ⟨f, found, opened⟩ := Option.bind_eq_some_iff.mp versioned
  obtain ⟨document, opened, same⟩ := Option.map_eq_some_iff.mp opened
  exact ⟨f, document, found, ⟨Registry.mem_of_find? found, opened,
    Registry.uri_of_find? found ▸ here⟩, same⟩

/-- A result is published with a version for the text of that version. -/
theorem fits_ofResult {result : AssemblyResult} {id : ProjectId} {request : Request}
    (sound : ∃ entry, p.registry.Sound entry) (pinned : p.registry.Pinned)
    (said : .publish url diagnostics (some version) ∈ (ofResult published p result).messages) :
    ∃ f document, p.Holds url document f ∧ document.version = version ∧
      p.Fits attempts (.assembled id request result) document.text diagnostics := by
  obtain ⟨q, listed, made⟩ := List.mem_filterMap.mp said
  obtain ⟨here, rfl, versioned⟩ := toNotification?_eq_some_iff.mp made
  rcases List.mem_append.mp listed with cleared | placed
  · obtain ⟨_, -, rfl⟩ := List.mem_map.mp cleared
    cases versioned
  · obtain ⟨⟨u, listed⟩, entry, rfl⟩ := List.mem_map.mp placed
    obtain ⟨f, document, found, holds, same⟩ := exists_of_version? here versioned
    obtain rfl : f.uri = u := Registry.uri_of_find? found
    obtain ⟨first, sound⟩ := sound
    have loaded := (pinned.files f holds.tracked document holds.opened).1
    exact ⟨f, document, holds, same, Diagnostic.isFor_of_find? sound holds.tracked loaded
      (Diagnostic.sorted_perFile.find?_eq_some_iff.mpr entry)⟩

/-- A cycle is published with a version for the text of that version, if it is met still. -/
theorem fits_ofFailure {id : ProjectId} {error : ProjectError}
    (sound : ∃ entry, p.registry.Sound entry) (pinned : p.registry.Pinned)
    (placed : p.registry.Placed) (found : w.project? id = some p)
    (current : (attempts.filter (·.project = id)).length ≤ 1 → p.request = .error error)
    (said : .publish url diagnostics (some version) ∈ (ofFailure w published id error).messages) :
    ∃ f document, p.Holds url document f ∧ document.version = version ∧
      p.Fits attempts (.failed id error) document.text diagnostics := by
  cases cycle : Diagnostic.ofCycle? error with
  | none => simp [ofFailure, cycle, logEntry] at said
  | some blamed =>
    obtain ⟨u, diagnostic⟩ := blamed
    have made : (⟨u, [diagnostic], (p.registry.find? u).bind (·.documentVersion?)⟩ :
        Publication).toNotification? = some (.publish url diagnostics (some version)) := by
      simpa [ofFailure, cycle, ofCycle, found, logEntry] using said
    obtain ⟨here, rfl, versioned⟩ := toNotification?_eq_some_iff.mp made
    obtain ⟨f, document, found, holds, same⟩ := exists_of_version? here versioned
    obtain ⟨first, sound⟩ := sound
    have loaded := (pinned.files f holds.tracked document holds.opened).1
    refine ⟨f, document, holds, same, fun met diagnostic listed => ?_⟩
    obtain rfl := List.mem_singleton.mp listed
    have failed : p.request = .error error := met.elim (fun now => now) current
    exact Registry.exists_directive_of_ofCycle? sound placed found loaded failed cycle

/-- A cycle is published at the file that it is blamed on. -/
theorem mem_ofFailure_of_cycle {id : ProjectId} {error : ProjectError} {diagnostic : Diagnostic}
    (cycle : Diagnostic.ofCycle? error = some (u, diagnostic)) (here : u.url? = some url)
    (found : w.project? id = some p) :
    .publish url [diagnostic] ((p.registry.find? u).bind (·.documentVersion?)) ∈
      (ofFailure w published id error).messages := by
  have made : (⟨u, [diagnostic], (p.registry.find? u).bind (·.documentVersion?)⟩ :
      Publication).toNotification? = some (.publish url [diagnostic]
        ((p.registry.find? u).bind (·.documentVersion?))) :=
    toNotification?_eq_some_iff.mpr ⟨here, rfl, rfl⟩
  simp [ofFailure, cycle, ofCycle, found, made]

/-- Without its project a cycle has no version. -/
theorem version?_ofFailure {id : ProjectId} {error : ProjectError} (gone : w.project? id = none) :
    .publish url diagnostics (some version) ∉ (ofFailure w published id error).messages := by
  intro said
  cases cycle : Diagnostic.ofCycle? error with
  | none => simp [ofFailure, cycle, logEntry] at said
  | some blamed =>
    simp [ofFailure, cycle, ofCycle, gone, logEntry, toNotification?_eq_some_iff] at said

/-- What comes with a version is made for the text of that version. -/
theorem fits_add (lawful : w.Lawful) (pinned : w.Pinned) (placed : w.Placed)
    (current : ∀ id error, event = .failed id error →
      (attempts.filter (·.project = id)).length ≤ 1 →
        ∀ p ∈ w.projects, p.id = id → p.request = .error error)
    (said : .publish url diagnostics (some version) ∈ (add w { published } event).messages) :
    ∃ p ∈ w.projects, p.id = event.project ∧ ∃ f document, p.Holds url document f ∧
      document.version = version ∧ p.Fits attempts event document.text diagnostics := by
  cases event with
  | assembled id request result =>
    cases found : w.project? id with
    | none => simp [add, found] at said
    | some p =>
      have member := Workspace.mem_of_project? found
      have own : p.id = id := by simpa using List.find?_some found
      simp only [add, found, List.nil_append] at said
      exact ⟨p, member, own, fits_ofResult (lawful p member).sound (pinned p member) said⟩
  | failed id error =>
    simp only [add, List.nil_append] at said
    cases found : w.project? id with
    | none => exact absurd said (version?_ofFailure found)
    | some p =>
      have member := Workspace.mem_of_project? found
      have own : p.id = id := by simpa using List.find?_some found
      exact ⟨p, member, own, fits_ofFailure (lawful p member).sound (pinned p member)
        (placed p member) found (fun once => current id error rfl once p member own) said⟩
  | removed id uris =>
    simp only [add, ofRemoval, List.nil_append] at said
    obtain ⟨u, -, made⟩ := List.mem_filterMap.mp said
    obtain ⟨-, -, versioned⟩ := toNotification?_eq_some_iff.mp made
    cases versioned

/-- Each report is announced after some others. -/
theorem exists_of_mem_dispatches {events : List ProjectEvent} {d : Dispatch}
    (listed : d ∈ dispatches w published events) : d.report ∈ events ∧
      ∃ published', d.messages = (add w { published := published' } d.report).messages := by
  induction events generalizing published with
  | nil => cases listed
  | cons event rest ih =>
    rcases List.mem_cons.mp listed with rfl | later
    · exact ⟨List.mem_cons_self, published, rfl⟩
    · exact (ih later).imp_left (List.mem_cons_of_mem _)

end Announcement

namespace Session

open Dispatch

variable {config : Config} {assembler : Assembler} {host : Host} {s s' : Session}
  {attempts : List Attempt} {w : Workspace}

/-! ## Runs -/

theorem Run.pinned (run : Run config assembler attempts s) : s.workspace.Pinned := by
  induction run with
  | start =>
    intro p member
    cases member
  | next run done _ ih =>
    cases Action.effect done with
    | updated notes performed =>
      have after := foldlM_preserves (P := fun w => w.Lawful ∧ w.Pinned)
        (fun w operation w' done before =>
          ⟨(before.1.apply done).1, operation.pinned before.1 before.2 done⟩)
        performed ⟨run.lawful, ih⟩
      exact after.2
    | noted notes => exact notes.workspace ▸ ih
    | shutDown _ => exact ih.dispose

theorem Run.placed (run : Run config assembler attempts s) : s.workspace.Placed := by
  induction run with
  | start =>
    intro p member
    cases member
  | next _ _ handles ih =>
    rw [handles.workspace]
    exact handles.steps.placed ih

/-- However a session came about, every open file has the text and the version of its document.
The edits of a renaming that carry a version are those of the symbol in the text of that version,
and whatever an action publishes with a version is made for the text of that version, but for
cycles of a project that was attempted again and does not meet them any more. -/
theorem versions_are_pinned (reached : Reached config assembler s) :
    (∀ p ∈ s.workspace.projects, ∀ f ∈ p.registry.files, ∀ document,
      f.document? = some document → f.contents? = some document.text ∧
        f.lines = Text.lines document.text ∧ f.version = document.version) ∧
    (∀ uri position newName edits, s.rename? uri position newName = some edits →
      ∀ edit ∈ edits, ∀ version, edit.version? = some version →
        ∃ p ∈ s.workspace.projects, ∃ f document symbol, p.Holds edit.url document f ∧
          document.version = version ∧
          edit.edits = ((Code.occurrences symbol (symbol.isDefinedIn p.registry f.uri)
            (Text.lines document.text)).filter (·.kind ≠ .comment)).map
              fun o => ⟨o.range, newName⟩) ∧
    ∀ host action s', Action.apply host action s = some s' →
      (∃ attempts w, s.Handles attempts w s') ∧
      ∀ attempts w, s.Handles attempts w s' →
        ∀ d ∈ Announcement.dispatches w.drained s.published w.bench.events,
        ∀ url diagnostics version, .publish url diagnostics (some version) ∈ d.messages →
          ∃ p ∈ s'.workspace.projects, p.id = d.report.project ∧
            ∃ f document, p.Holds url document f ∧ document.version = version ∧
              p.Fits attempts d.report document.text diagnostics := by
  obtain ⟨earlier, run⟩ := reached.exists_run
  refine ⟨fun p member f tracked document opened => ?_,
    fun uri position newName edits answered edit listed version versioned => ?_,
    fun host action s' done => ⟨action.handles run.calm done, fun attempts w handles d read url
      diagnostics version said => ?_⟩⟩
  · obtain ⟨contents, same⟩ := (run.pinned p member).files f tracked document opened
    exact ⟨contents, by simp [TrackedFile.lines, contents], same⟩
  · obtain ⟨p, chosen, answered⟩ := Option.bind_eq_some_iff.mp answered
    have member : p ∈ s.workspace.projects := Workspace.mem_of_projectFor? chosen
    exact ⟨p, member, Project.exists_of_mem_rename? (run.pinned p member) answered listed versioned⟩
  · have further : Run config assembler (earlier ++ attempts) s' := run.next done handles
    obtain ⟨told, published, messages⟩ := Announcement.exists_of_mem_dispatches read
    rw [messages] at said
    rw [handles.workspace]
    refine Announcement.fits_add (handles.workspace ▸ further.lawful)
      (handles.workspace ▸ further.pinned) (handles.workspace ▸ further.placed)
      (fun id error same once => ?_) said
    exact handles.steps.failed run.lawful run.numbered run.calm (same ▸ told) once

section detour

open Registry

/-- A text that includes its own file. -/
def loop : Document := ⟨.ofPath "/m".toList, 1, " include m".toList⟩

/-- That text was handled at once. -/
def loopTaken : Registry := queued ⟨[], [loop]⟩ 2 ((blank 0).add loop.uri) (.editor loop)

/-- The session in which it was opened. -/
def loopOpened : Session := begun { delay := 0 } (.ofProgram [] none) loop loopTaken

/-- The cycle of a file that includes itself, behind the word `include`. -/
def selfCycle : ProjectError := .includeCycle [loop.uri, loop.uri] loop.uri (.onLine 0 9 10)

/-- What the report of this cycle led to. -/
def loopTold : Dispatch where
  report := .failed ⟨1⟩ selfCycle
  messages := [.publish loop.uri.text [⟨.onLine 0 9 10, selfCycle.message⟩] (some loop.version),
    Announcement.logEntry ⟨1⟩ selfCycle]

/-- The cycle of an open text is published with the version of this text. -/
theorem loop_has_its_version : ∃ attempts w d diagnostic,
    (start { delay := 0 } (.ofProgram [] none)).Handles attempts w loopOpened ∧
    d ∈ Announcement.dispatches w.drained [] w.bench.events ∧
    d.report = .failed ⟨1⟩ selfCycle ∧
    .publish loop.uri.text [diagnostic] (some loop.version) ∈ d.messages ∧
    ∃ p ∈ loopOpened.workspace.projects, ∃ f document, p.Holds loop.uri.text document f ∧
      document.version = loop.version ∧ f.contents? = some document.text ∧
      ∃ directive ∈ Code.includes (Text.lines document.text),
        directive.range = diagnostic.range := by
  have added : (blank 0).addDocument ⟨Host.disk {}, [loop]⟩ loop = some loopTaken :=
    updateFromEditor_queued (by decide +kernel) (by decide +kernel)
  have opened : (Action.opened loop.uri loop.version loop.text).apply {}
      (start { delay := 0 } (.ofProgram [] none)) = some loopOpened :=
    takeDocument_first added
  have handles : (start { delay := 0 } (.ofProgram [] none)).Handles _ _ loopOpened :=
    handles_begun added
  have once : ((Project.attempts { Project.empty ⟨1⟩ 0 with registry := loopTaken }).filter
      (·.project = ⟨1⟩)).length ≤ 1 := by
    refine Nat.le_trans (List.length_filter_le ..) ?_
    rcases Project.attempts_eq_nil_or { Project.empty ⟨1⟩ 0 with registry := loopTaken }
      with none | one
    · simp [none]
    · simp [one]
  have told : loopTold ∈ Announcement.dispatches
      (Workspace.begun (.ofProgram [] none) 0 loop loopTaken).drained []
      (Workspace.begun (.ofProgram [] none) 0 loop loopTaken).bench.events := by
    decide +kernel
  obtain ⟨-, fits⟩ := (versions_are_pinned .refl).2.2 _ _ _ opened
  obtain ⟨p, member, -, f, document, holds, version, made⟩ :=
    fits _ _ handles loopTold told _ _ _ List.mem_cons_self
  obtain ⟨pinned, -⟩ := versions_are_pinned (.single ⟨_, _, opened⟩)
  exact ⟨_, _, loopTold, _, handles, told, rfl, List.mem_cons_self, p, member, f, document, holds,
    version, (pinned p member f holds.tracked document holds.opened).1,
    made (.inr once) _ List.mem_cons_self⟩

/-- A text that includes that file. -/
def outer : Document := ⟨.ofPath "/e".toList, 1, " include m".toList⟩

/-- Another text of the file, without the include. -/
def inner : Document := ⟨.ofPath "/m".toList, 1, " nop".toList⟩

/-- The stored files lead to it by a detour. -/
def detour : Host :=
  { disk := [stored "/e" " include k", stored "/k" " include m", stored "/m" " include m"] }

/-- The sources without open documents. -/
def detourClosed : Sources := ⟨detour.disk, []⟩

/-- The sources while the text without the include is open. -/
def detourOpen : Sources := ⟨detour.disk, [inner]⟩

/-- The first text is held back. -/
def outerHeld : Registry := (((blank 250).add outer.uri).push (.editor outer)).1.drained

/-- It was closed; a reload of the file that it includes is held back. -/
def outerClosed : Registry :=
  ((handled detourClosed 3 (queued detourClosed 0 outerHeld (.editor outer)).released
    (.editor outer)).modify outer.uri fun file => { file with document? := none }).drained

/-- The text without the include is held back instead. -/
def innerHeld : Registry := (queued detourOpen 0 outerClosed (.editor inner)).drained

/-- A reload is held back instead. -/
def innerReplaced : Registry := (queued detourOpen 0 innerHeld (.disk inner.uri)).drained

/-- The stored text was loaded, since a reload of the first file follows. -/
def innerReloaded : Registry := queued detourOpen 2 innerReplaced (.disk outer.uri)

/-- The first file takes the detour, and the other was dropped. -/
def innerDropped : Registry :=
  (queued detourOpen 5 innerReloaded.drained (.disk inner.uri)).drained

/-- The other was found again; its open text is held back. -/
def innerFound : Registry := (queued detourOpen 5 innerDropped (.disk outer.uri)).drained

/-- The open text was handled. -/
def innerTaken : Registry := (queued detourOpen 2 innerFound (.disk outer.uri)).drained

/-- The reloads of the stored files, in the order in which they are reported. -/
def reloads : List Uri := [inner.uri, outer.uri, inner.uri, outer.uri, outer.uri]

theorem exists_innerHeld : ∃ s, Reached {} (.ofProgram [] none) s ∧ s.buffers = [inner] ∧
    s.workspace.Lone innerHeld := by
  obtain ⟨s₁, opened, buffers₁, lone₁⟩ : ∃ s,
      (start {} (.ofProgram [] none)).takeDocument detour outer = some s ∧ s.buffers = [outer] ∧
      s.workspace.Lone outerHeld := lone_first (addDocument_blank (by decide))
  have known : s₁.buffers.find? outer.uri = some outer := by
    rw [buffers₁]
    decide +kernel
  obtain ⟨s₂, closed, buffers₂, lone₂⟩ : ∃ s, s₁.didClose detour outer.uri = some s ∧
      s.buffers = [] ∧ s.workspace.Lone outerClosed :=
    lone_close lone₁ (by decide +kernel) known (by rw [buffers₁]; decide +kernel)
      (markClosed_handled (by decide +kernel) (by decide +kernel) (by decide +kernel)
        (by decide +kernel) (by decide +kernel))
  obtain ⟨s, reopened, buffers, lone⟩ : ∃ s, s₂.takeDocument detour inner = some s ∧
      s.buffers = [inner] ∧ s.workspace.Lone innerHeld :=
    lone_open lone₂ (by decide +kernel) (by rw [buffers₂]; rfl)
      (updateFromEditor_queued (n := 0) (by decide +kernel) (by decide +kernel))
  have reached₁ : Reached {} (.ofProgram [] none) s₁ :=
    .single ⟨detour, .opened outer.uri outer.version outer.text, opened⟩
  have reached₂ : Reached {} (.ofProgram [] none) s₂ :=
    reached₁.tail ⟨detour, .closed outer.uri, closed⟩
  exact ⟨s, reached₂.tail ⟨detour, .opened inner.uri inner.version inner.text, reopened⟩, buffers,
    lone⟩

/-- The second reload lets the first go, so that the cycle of the stored text is met. The others
bring the open text back. -/
theorem exists_innerTaken {w : Workspace} (lone : w.Lone innerHeld) : ∃ w',
    (reloads.map Workspace.Operation.disk).foldlM
      (fun w operation => operation.apply detourOpen w) w = some w' ∧
    .failed ⟨1⟩ selfCycle ∈ w'.bench.events ∧ w'.Lone innerTaken := by
  obtain ⟨w₁, replaced, p, only, registry, id⟩ : ∃ w',
      (Workspace.Operation.disk inner.uri).apply detourOpen w = some w' ∧
      w'.Lone innerReplaced :=
    lone.reload (by decide +kernel) (by decide +kernel)
  have reloaded : (Workspace.Operation.disk outer.uri).apply detourOpen w₁ =
      some (w₁.turned p innerReloaded) := by
    have closed : (p.registry.find? outer.uri).any (!·.isOpen) := by
      rw [registry]
      decide +kernel
    refine Workspace.disk_only only closed ?_
    rw [registry] at closed ⊢
    exact updateFromDisk_queued closed (by decide +kernel)
  have met : .failed ⟨1⟩ selfCycle ∈ (w₁.turned p innerReloaded).bench.events := by
    obtain ⟨reports, settles, events⟩ :=
      Project.settle_settles { p with registry := innerReloaded } w₁.bench
    have changed : innerReloaded.events.any FileEvent.isChange = true := by decide +kernel
    have failed : innerReloaded.request = .error selfCycle := by decide +kernel
    have told := settles.mem_of_failed changed failed rfl
    rw [← id]
    exact events ▸ List.mem_append_right _ told
  have lone₂ : (w₁.turned p innerReloaded).Lone innerReloaded.drained :=
    ⟨_, rfl, Project.settle_registry, Project.settle_id.trans id⟩
  obtain ⟨w₃, dropped, lone₃⟩ : ∃ w', (Workspace.Operation.disk inner.uri).apply detourOpen
      (w₁.turned p innerReloaded) = some w' ∧ w'.Lone innerDropped :=
    lone₂.reload (by decide +kernel) (by decide +kernel)
  obtain ⟨w₄, found, lone₄⟩ : ∃ w', (Workspace.Operation.disk outer.uri).apply detourOpen
      w₃ = some w' ∧ w'.Lone innerFound :=
    lone₃.reload (by decide +kernel) (by decide +kernel)
  obtain ⟨w₅, taken, lone₅⟩ : ∃ w', (Workspace.Operation.disk outer.uri).apply detourOpen
      w₄ = some w' ∧ w'.Lone innerTaken :=
    lone₄.reload (by decide +kernel) (by decide +kernel)
  obtain ⟨_, third⟩ := Workspace.Operation.steps _ dropped
  obtain ⟨_, fourth⟩ := Workspace.Operation.steps _ found
  obtain ⟨_, fifth⟩ := Workspace.Operation.steps _ taken
  exact ⟨w₅, by simp [reloads, replaced, reloaded, dropped, found, taken],
    ((third.trans fourth).trans fifth).mem_events met, lone₅⟩

/-- When several files change on the disk at once, a cycle of a stored text may be published with
the version of an open text that has no include. -/
theorem cycle_outlives_its_text : ∃ s s' attempts w d diagnostic,
    Reached {} (.ofProgram [] none) s ∧
    (Action.watched reloads).apply detour s = some s' ∧ s.Handles attempts w s' ∧
    d ∈ Announcement.dispatches w.drained s.published w.bench.events ∧
    .publish inner.uri.text [diagnostic] (some inner.version) ∈ d.messages ∧
    diagnostic.range = .onLine 0 9 10 ∧ Code.includes (Text.lines inner.text) = [] ∧
    ∀ p ∈ s'.workspace.projects, ∀ f ∈ p.registry.files, ∀ document,
      f.document? = some document → document = inner := by
  obtain ⟨s, reached, buffers, lone⟩ := exists_innerHeld
  obtain ⟨w, performed, told, p, only, registry, id⟩ := exists_innerTaken lone
  obtain ⟨attempts, run⟩ := steps_of_performed performed
  have handles : s.Handles attempts w ({ s with workspace := w }.announce.arm) :=
    ⟨run, rfl, rfl, rfl⟩
  have watched : (Action.watched reloads).apply detour s =
      some ({ s with workspace := w }.announce.arm) := by
    have sources : s.sources detour = detourOpen := congrArg (Sources.mk detour.disk) buffers
    rw [List.foldlM_map] at performed
    rw [Action.apply, didChangeFiles, sources, update]
    exact Option.map_eq_some_iff.mpr ⟨w, performed, rfl⟩
  obtain ⟨d, read, report⟩ : ∃ d ∈ Announcement.dispatches w.drained s.published w.bench.events,
      d.report = .failed ⟨1⟩ selfCycle :=
    List.mem_map.mp (Announcement.report_dispatches.symm ▸ told)
  obtain ⟨-, published, messages⟩ := Announcement.exists_of_mem_dispatches read
  have shown : .publish inner.uri.text [⟨.onLine 0 9 10, selfCycle.message⟩] (some inner.version) ∈
      d.messages := by
    have first : w.drained.project? ⟨1⟩ = some p := by
      simp [Workspace.project?, Workspace.drained, only, id]
    have version : (innerTaken.find? inner.uri).bind (·.documentVersion?) = some inner.version := by
      decide +kernel
    have here : inner.uri.url? = some inner.uri.text := by decide +kernel
    have cycle : Diagnostic.ofCycle? selfCycle =
        some (inner.uri, ⟨.onLine 0 9 10, selfCycle.message⟩) := rfl
    rw [messages, report, ← version, ← registry]
    exact Announcement.mem_ofFailure_of_cycle cycle here first
  refine ⟨s, _, attempts, w, d, _, reached, watched, handles, read, shown, rfl, by decide +kernel,
    fun q member f tracked document held => ?_⟩
  obtain rfl : q = p := List.mem_singleton.mp (only ▸ member)
  have all : innerTaken.files.all (fun f => f.document?.all (· = inner)) = true := by
    decide +kernel
  rw [← registry, List.all_eq_true] at all
  simpa [held] using all f tracked

end detour

end Session

end AsmServer
