import AsmServer.Proofs.Session.Attending

/-!
# Open buffers take precedence over the disk

Whatever a conforming client does, a file whose document is open has the text of the buffer
as soon as nothing is held back, and a file whose document was closed keeps the text of its
last buffer and has no document. Both hold as long as no event loses a text that is held
back; two runs of four and six events show how one is lost.
-/

namespace AsmServer

namespace Session

variable {host : Host} {s s' : Session} {event : Event}

/-! ## A document that is opened -/

section draft

open Registry

/-- A document. -/
def draft : Document := ⟨.ofPath "/m".toList, 1, "y".toList⟩

/-- Its file has another text on the disk. -/
def drafted : Host := { disk := [stored "/m" "x"] }

/-- The sources while it is open. -/
def drafting : Sources := ⟨drafted.disk, [draft]⟩

/-- The text of the document is held back. -/
def draftHeld : Registry := (((blank 250).add draft.uri).push (.editor draft)).1.drained

/-- The timer of that text. -/
def draftTimer : Timer := ⟨⟨1⟩, 1, 250⟩

/-- The text was taken in. -/
def draftShown : Registry := (handled drafting 2 draftHeld.released (.editor draft)).drained

theorem exists_draftHeld : ∃ s, (Event.opened draft).apply drafted (start {} (.ofProgram [] none))
    = some s ∧ s.buffers = [draft] ∧ s.workspace.Lone draftHeld :=
  lone_first (addDocument_blank (by decide))

theorem exists_draftShown (buffers : s.buffers = [draft]) (lone : s.workspace.Lone draftHeld) :
    ∃ s', (Event.timer draftTimer).apply drafted s = some s' ∧ s'.buffers = [draft] ∧
      s'.workspace.Lone draftShown := by
  have held : draftHeld.debouncer.held? = some (draft.uri, .editor draft) := by decide +kernel
  exact lone_fire lone buffers (flushDue_handled held (by decide +kernel))

theorem conforming_start {config : Config} {assembler : Assembler} :
    event.Conforming (start config assembler) := by
  intro document _ buffer found
  cases found

/-- Opening the document loses no text. -/
theorem steps_draftHeld {config : Config} {assembler : Assembler}
    (opened : (Event.opened draft).apply drafted (start config assembler) = some s) :
    Steps (fun _ => True) (start config assembler) s :=
  .single ⟨drafted, .opened draft, trivial, conforming_start, fun _ => trivial, opened⟩

end draft

/-- In a project that holds nothing back, after any events of a conforming client that lose
no text, every file whose document is open has this document with its text and version. -/
theorem open_buffer_wins {config : Config} {assembler : Assembler}
    (run : Steps (fun _ => True) (start config assembler) s) {p : Project}
    (member : p ∈ s.workspace.projects) (idle : p.pending? = none) {f : TrackedFile}
    (tracked : f ∈ p.registry.files) {buffer : Document}
    (opened : s.buffers.find? f.uri = some buffer) :
    f.contents? = some buffer.text ∧ f.version = buffer.version ∧ f.document? = some buffer := by
  have attending := (attending_start config assembler).steps run
  have follows := attending.follows p member
  rcases follows.done f tracked with shows | ⟨update, waits, -⟩
  · obtain ⟨text, version, -⟩ := (follows.files f tracked).2 buffer (shows buffer opened)
    exact ⟨text, version, shows buffer opened⟩
  · have none : p.registry.debouncer.held? = none := Option.map_eq_none_iff.mp idle
    simp [Registry.awaited_idle, Debouncer.items, none] at waits

/-- The text of a document that was opened is shown after its timer. -/
theorem draft_wins : ∃ s, Steps (fun _ => True) (start {} (.ofProgram [] none)) s ∧
    ∃ p ∈ s.workspace.projects, ∃ f ∈ p.registry.files,
      f.contents? = some draft.text ∧ f.version = draft.version ∧ f.document? = some draft := by
  obtain ⟨s₁, opened, buffers₁, lone₁⟩ := exists_draftHeld
  obtain ⟨s₂, fired, buffers₂, p, projects, registry, -⟩ := exists_draftShown buffers₁ lone₁
  have run : Steps (fun _ => True) (start {} (.ofProgram [] none)) s₂ :=
    (steps_draftHeld opened).tail ⟨drafted, .timer draftTimer, trivial,
      by simp [Event.Conforming, Event.document?], fun _ => trivial, fired⟩
  have member : p ∈ s₂.workspace.projects := by simp [projects]
  obtain ⟨f, found⟩ : ∃ f, p.registry.find? draft.uri = some f := by
    rw [registry]
    exact Registry.exists_find? (by decide +kernel)
  have tracked : f ∈ p.registry.files := Registry.mem_of_find? found
  have idle : p.pending? = none := by
    rw [Project.pending?, registry]
    decide +kernel
  have known : s₂.buffers.find? f.uri = some draft := by
    rw [buffers₂, Registry.uri_of_find? found]
    decide +kernel
  exact ⟨s₂, run, p, member, f, tracked, open_buffer_wins run member idle tracked known⟩

/-- The text of the document is replaced by a reload of its file. -/
def draftReplaced : Registry := (Registry.queued drafting 0 draftHeld (.disk draft.uri)).drained

/-- The text on the disk was taken in. -/
def diskShown : Registry :=
  (Registry.handled drafting 2 draftReplaced.released (.disk draft.uri)).drained

/-- The text of a document that was just opened gives way to a report about its file. -/
theorem disk_replaces_open_buffer : ∃ s₁ s₂ s₃,
    (Event.opened draft).apply drafted (start {} (.ofProgram [] none)) = some s₁ ∧
      (Event.watched [draft.uri]).apply drafted s₁ = some s₂ ∧
      (Event.timer ⟨⟨1⟩, 2, 250⟩).apply drafted s₂ = some s₃ ∧
      (Event.opened draft).Conforming (start {} (.ofProgram [] none)) ∧
      (∀ p ∈ s₃.workspace.projects, p.pending? = none) ∧
      s₃.buffers.find? draft.uri = some draft ∧
      ∃ p ∈ s₃.workspace.projects, ∃ f, p.registry.find? draft.uri = some f ∧
        f.contents? ≠ some draft.text ∧ f.document? = none := by
  obtain ⟨s₁, opened, buffers₁, lone₁⟩ := exists_draftHeld
  have replaced : draftHeld.updateFromDisk drafting draft.uri
      = some (Registry.queued drafting 0 draftHeld (.disk draft.uri)) :=
    Registry.updateFromDisk_queued (by decide +kernel) (by decide +kernel)
  obtain ⟨s₂, watched, buffers₂, lone₂⟩ : ∃ s, s₁.didChangeFiles drafted [draft.uri] = some s ∧
      s.buffers = [draft] ∧ s.workspace.Lone draftReplaced :=
    lone_report lone₁ buffers₁ (by decide +kernel) replaced
  have held : draftReplaced.debouncer.held? = some (draft.uri, .disk draft.uri) := by
    decide +kernel
  obtain ⟨s₃, fired, buffers₃, p, projects, registry, -⟩ : ∃ s,
      s₂.deliver drafted ⟨⟨1⟩, 2, 250⟩ = some s ∧ s.buffers = [draft] ∧
        s.workspace.Lone diskShown :=
    lone_fire lone₂ buffers₂ (Registry.flushDue_handled held (by decide +kernel))
  obtain ⟨f, found, shown⟩ : ∃ f, p.registry.find? draft.uri = some f ∧
      (f.contents?, f.document?) = (some "x".toList, none) := by
    rw [registry]
    exact Option.map_eq_some_iff.mp (by decide +kernel)
  obtain ⟨text, document⟩ := Prod.mk.inj shown
  refine ⟨s₁, s₂, s₃, opened, watched, fired, conforming_start, fun q member => ?_, ?_,
    p, by simp [projects], f, found, ?_, document⟩
  · obtain rfl : q = p := by simpa [projects] using member
    rw [Project.pending?, registry]
    decide +kernel
  · rw [buffers₃]
    decide +kernel
  · rw [text]
    decide

/-- Once a document is closed, after any events of a conforming client that lose no text, every
file of it has the text of its last buffer and no document, and no event that brings no text
of the document attaches one. -/
theorem closed_document_is_gone {config : Config} {assembler : Assembler}
    (run : Steps (fun _ => True) (start config assembler) s) {uri : Uri} {document : Document}
    (opened : s.buffers.find? uri = some document)
    (clear : s.workspace.delay ≠ 0 → Event.Clear host s (.closed uri))
    (done : s.didClose host uri = some s') :
    (∀ p ∈ s'.workspace.projects, ∀ f, p.registry.find? uri = some f →
      f.contents? = some document.text ∧ f.document? = none) ∧
    ∀ s'', Steps (fun event => ∀ text, event.document? = some text → text.uri ≠ uri) s' s'' →
      ∀ p ∈ s''.workspace.projects, ∀ f, p.registry.find? uri = some f → f.document? = none := by
  have before := (attending_start config assembler).steps run
  obtain ⟨after, closed, gone⟩ := before.didClose (fun document => before.settled clear) done
  refine ⟨gone document opened, fun s'' later p member f found => ?_⟩
  have still : s''.buffers.find? uri = none := by
    clear member
    induction later with
    | refl => exact closed
    | tail _ step ih =>
      obtain ⟨host, event, other, -, -, done⟩ := step
      exact find?_none_of_apply ih other done
  by_contra attached
  obtain ⟨text, known⟩ := Option.ne_none_iff_exists'.mp attached
  obtain ⟨-, -, buffer, opened', -⟩ :=
    (((after.steps later).follows p member).files f (Registry.mem_of_find? found)).2 text known
  rw [Registry.uri_of_find? found, still] at opened'
  cases opened'

section redraft

open Registry

/-- The sources without the document. -/
def left : Sources := ⟨drafted.disk, []⟩

/-- The text held back is taken in for good. -/
def draftKept : Registry :=
  handled left 2 (queued left 0 draftHeld (.editor draft)).released (.editor draft)

/-- The document was closed while its text was held back. -/
def draftClosed : Registry :=
  (draftKept.modify draft.uri fun file => { file with document? := none }).drained

theorem markClosed_draftHeld : draftHeld.markClosed left draft =
    some (draftKept.modify draft.uri fun file => { file with document? := none }) :=
  markClosed_handled (by decide +kernel) (by decide +kernel) (by decide +kernel)
    (by decide +kernel) (by decide +kernel)

/-- The document at another time, with another text under the same version. -/
def redraft : Document := ⟨.ofPath "/m".toList, 1, "z".toList⟩

/-- The sources while it is open at that time. -/
def redrafting : Sources := ⟨drafted.disk, [redraft]⟩

/-- The document was closed after its text was taken in. -/
def shownClosed : Registry :=
  (draftShown.modify draft.uri fun file => { file with document? := none }).drained

/-- The other text is held back. -/
def redraftHeld : Registry := (queued redrafting 0 shownClosed (.editor redraft)).drained

/-- The document was closed again, and the other text is still held back. -/
def redraftClosed : Registry :=
  (redraftHeld.modify draft.uri fun file => { file with document? := none }).drained

/-- The other text was taken in. -/
def redraftShown : Registry := (handled left 2 redraftClosed.released (.editor redraft)).drained

end redraft

/-- A document that is closed while its text is held back gets this text. -/
theorem draft_is_gone : ∃ s s', Steps (fun _ => True) (start {} (.ofProgram [] none)) s ∧
    s.didClose drafted draft.uri = some s' ∧ ∃ p ∈ s'.workspace.projects, ∃ f,
      p.registry.find? draft.uri = some f ∧ f.contents? = some draft.text ∧
        f.document? = none := by
  obtain ⟨s, opened, buffers, lone⟩ := exists_draftHeld
  have known : s.buffers.find? draft.uri = some draft := by
    rw [buffers]
    decide +kernel
  have erased : s.buffers.erase draft.uri = [] := by
    rw [buffers]
    decide +kernel
  obtain ⟨s', done, -, p, projects, registry, -⟩ : ∃ s', s.didClose drafted draft.uri = some s' ∧
      s'.buffers = [] ∧ s'.workspace.Lone draftClosed :=
    lone_close lone (by decide +kernel) known erased markClosed_draftHeld
  have clear : Event.Clear drafted s (.closed draft.uri) := by
    intro document found p member f tracked version
    obtain ⟨q, projects, registry, -⟩ := lone
    obtain rfl : p = q := by simpa [projects] using member
    obtain rfl := Option.some.inj (known.symm.trans found)
    have other : (p.registry.find? draft.uri).map (·.version) = some (-1) := by
      rw [registry]
      decide +kernel
    rw [tracked, Option.map_some, version] at other
    exact absurd other (by decide)
  have member : p ∈ s'.workspace.projects := by simp [projects]
  obtain ⟨f, found⟩ : ∃ f, p.registry.find? draft.uri = some f := by
    rw [registry]
    exact Registry.exists_find? (by decide +kernel)
  exact ⟨s, s', steps_draftHeld opened, done, p, member, f, found,
    (closed_document_is_gone (steps_draftHeld opened) known (fun _ => clear) done).1
      p member f found⟩

/-- A document that is opened again under a version that its file has from before does not
get its text when it is closed at once, but a timer later. -/
theorem text_comes_after_close : ∃ s₁ s₂ s₃ s₄ s₅ s₆,
    (Event.opened draft).apply drafted (start {} (.ofProgram [] none)) = some s₁ ∧
      (Event.timer draftTimer).apply drafted s₁ = some s₂ ∧
      (Event.closed draft.uri).apply drafted s₂ = some s₃ ∧
      (Event.opened redraft).apply drafted s₃ = some s₄ ∧
      (Event.closed draft.uri).apply drafted s₄ = some s₅ ∧
      (Event.timer ⟨⟨1⟩, 2, 250⟩).apply drafted s₅ = some s₆ ∧
      (Event.opened draft).Conforming (start {} (.ofProgram [] none)) ∧
      (Event.opened redraft).Conforming s₃ ∧
      s₄.buffers.find? draft.uri = some redraft ∧
      (∃ p ∈ s₅.workspace.projects, ∃ f, p.registry.find? draft.uri = some f ∧
        f.contents? ≠ some redraft.text) ∧
      ∃ p ∈ s₆.workspace.projects, ∃ f, p.registry.find? draft.uri = some f ∧
        f.document? ≠ none := by
  obtain ⟨s₁, opened, buffers₁, lone₁⟩ := exists_draftHeld
  obtain ⟨s₂, fired, buffers₂, lone₂⟩ := exists_draftShown buffers₁ lone₁
  have known₂ : s₂.buffers.find? draft.uri = some draft := by
    rw [buffers₂]
    decide +kernel
  have erased₂ : s₂.buffers.erase draft.uri = [] := by
    rw [buffers₂]
    decide +kernel
  obtain ⟨s₃, closed, buffers₃, lone₃⟩ : ∃ s, s₂.didClose drafted draft.uri = some s ∧
      s.buffers = [] ∧ s.workspace.Lone shownClosed :=
    lone_close lone₂ (by decide +kernel) known₂ erased₂
      (Registry.markClosed_of_version (by decide +kernel))
  obtain ⟨s₄, reopened, buffers₄, lone₄⟩ : ∃ s, s₃.takeDocument drafted redraft = some s ∧
      s.buffers = [redraft] ∧ s.workspace.Lone redraftHeld :=
    lone_open lone₃ (by decide +kernel) (by rw [buffers₃]; rfl)
      (Registry.updateFromEditor_queued (n := 0) (by decide +kernel) (by decide +kernel))
  have known₄ : s₄.buffers.find? redraft.uri = some redraft := by
    rw [buffers₄]
    decide +kernel
  have erased₄ : s₄.buffers.erase redraft.uri = [] := by
    rw [buffers₄]
    decide +kernel
  obtain ⟨s₅, closed', buffers₅, lone₅⟩ : ∃ s, s₄.didClose drafted redraft.uri = some s ∧
      s.buffers = [] ∧ s.workspace.Lone redraftClosed :=
    lone_close lone₄ (by decide +kernel) known₄ erased₄
      (Registry.markClosed_of_version (by decide +kernel))
  have held : redraftClosed.debouncer.held? = some (redraft.uri, .editor redraft) := by
    decide +kernel
  obtain ⟨s₆, fired', -, lone₆⟩ : ∃ s, s₅.deliver drafted ⟨⟨1⟩, 2, 250⟩ = some s ∧
      s.buffers = [] ∧ s.workspace.Lone redraftShown :=
    lone_fire lone₅ buffers₅ (Registry.flushDue_handled held (by decide +kernel))
  have conforming : (Event.opened redraft).Conforming s₃ := by
    intro document _ buffer found
    rw [buffers₃] at found
    cases found
  refine ⟨s₁, s₂, s₃, s₄, s₅, s₆, opened, fired, closed, reopened, closed', fired',
    conforming_start, conforming, known₄, ?_, ?_⟩
  · obtain ⟨p, projects, registry, -⟩ := lone₅
    obtain ⟨f, found, kept⟩ : ∃ f, p.registry.find? draft.uri = some f ∧
        f.contents? = some draft.text := by
      rw [registry]
      exact Option.map_eq_some_iff.mp (by decide +kernel)
    exact ⟨p, by simp [projects], f, found, by rw [kept]; decide⟩
  · obtain ⟨p, projects, registry, -⟩ := lone₆
    obtain ⟨f, found, attached⟩ : ∃ f, p.registry.find? draft.uri = some f ∧
        f.document? = some redraft := by
      rw [registry]
      exact Option.map_eq_some_iff.mp (by decide +kernel)
    exact ⟨p, by simp [projects], f, found, by simp [attached]⟩

end Session

end AsmServer
