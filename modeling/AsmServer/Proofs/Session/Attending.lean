import AsmServer.Proofs.Session.Events

/-!
# Sessions that attend to their buffers

A session attends to its buffers: whatever the disk holds and in whichever order timers fire,
a tracked file whose document is open gets the text of the buffer, and as soon as its project
holds nothing back, it has that text. A file whose document was closed keeps the text of the
buffer and never gets a document again until a new text comes.

Two events can lose a text that is held back. A report that a file changed on the disk
replaces the first text of an open document, because only the tracked file tells whether it
is open. And a document is closed without its held text if the tracked file has the version
of that text already, from an earlier time when the document was open; the text then comes
in after the document was closed. Both are excluded here, and only if there is a delay.
-/

namespace AsmServer

namespace Session

variable {host : Host} {s s' : Session} {event : Event}

/-- The event does not lose a text that is held back. -/
def Event.Clear (host : Host) (s : Session) : Event → Prop
  | closed uri => ∀ document, s.buffers.find? uri = some document → s.workspace.Settled document
  | watched uris => ∀ before uri after w, uris = before ++ uri :: after →
      before.foldlM (fun w uri => w.diskChanged (s.sources host) uri) s.workspace = some w →
      ∀ p ∈ w.projects, Workspace.tracksClosed uri p → s.buffers.find? uri = none
  | _ => True

/-- What holds between events. -/
structure Attending (s : Session) : Prop where
  lawful : s.workspace.Lawful
  follows : s.workspace.Follows s.buffers (TrackedFile.Shows s.buffers)

theorem attending_start (config : Config) (assembler : Assembler) :
    (start config assembler).Attending :=
  ⟨by simp [Workspace.Lawful, start], by simp [Workspace.Follows, start]⟩

theorem SameProjects.attending {buffers : Buffers} {w : Workspace}
    (same : SameProjects s buffers w) (lawful : w.Lawful)
    (follows : w.Follows buffers (TrackedFile.Shows buffers)) : s.Attending := by
  obtain ⟨rfl, projects, delay⟩ := same
  refine ⟨fun p member => ?_, fun p member => follows p (projects ▸ member)⟩
  rw [delay]
  exact lawful p (projects ▸ member)

/-! ## Events one by one -/

theorem Attending.takeDocument {document : Document} (h : s.Attending)
    (newer : ∀ buffer, s.buffers.find? document.uri = some buffer →
      buffer.version < document.version)
    (done : s.takeDocument host document = some s') : s'.Attending := by
  obtain ⟨w, changed, same⟩ := exists_of_takeDocument done
  refine same.attending (h.lawful.apply changed).1 ?_
  exact h.follows.documentChanged newer (fun f other shows => shows.congr
    (Buffers.find?_insert_of_ne other)) rfl Registry.renews_shows changed

theorem Attending.didSave {uri : Uri} (h : s.Attending) (done : s.didSave host uri = some s') :
    s'.Attending := by
  unfold Session.didSave at done
  split at done
  · cases done
    exact h
  · next document found =>
    obtain ⟨w, saved, same⟩ : ∃ w,
        (Workspace.Operation.save document).apply (s.sources host) s.workspace = some w ∧
          SameProjects s' s.buffers w := exists_of_update done
    have current : s.buffers.find? document.uri = some document := by
      rwa [show document.uri = uri by simpa using List.find?_some found]
    exact same.attending (h.lawful.apply saved).1 (h.follows.documentSaved current rfl saved)

/-- A closed document is gone from every file, which keeps its text. -/
theorem Attending.didClose {uri : Uri} (h : s.Attending)
    (clear : ∀ document, s.buffers.find? uri = some document → s.workspace.Settled document)
    (done : s.didClose host uri = some s') :
    s'.Attending ∧ s'.buffers.find? uri = none ∧
      ∀ document, s.buffers.find? uri = some document → ∀ p ∈ s'.workspace.projects, ∀ f,
        p.registry.find? uri = some f → f.contents? = some document.text ∧ f.document? = none := by
  cases opened : s.buffers.find? uri with
  | none =>
    rw [Session.didClose, opened] at done
    cases done
    exact ⟨h, opened, by simp⟩
  | some document =>
    obtain rfl : document.uri = uri := by simpa using List.find?_some opened
    obtain ⟨w, closed, same⟩ := exists_of_didClose opened done
    obtain ⟨follows, gone⟩ :=
      h.follows.documentClosed h.lawful opened (clear document opened) rfl closed
    refine ⟨same.attending (h.lawful.apply closed).1 follows, ?_, fun other known p member => ?_⟩
    · rw [same.buffers, Buffers.find?_erase, if_pos rfl]
    · obtain rfl := Option.some.inj known
      exact gone p (same.projects ▸ member)

theorem Attending.deliver {timer : Timer} (h : s.Attending)
    (done : s.deliver host timer = some s') : s'.Attending := by
  obtain ⟨w, changed, same⟩ := exists_of_deliver done
  refine same.attending (h.lawful.apply changed).1 ?_
  obtain ⟨⟨turned, flushed⟩, flushing, rfl⟩ := Option.map_eq_some_iff.mp changed
  exact h.follows.flushDue rfl Registry.renews_shows flushing

/-- Without a delay no text is held back, so that a file without a document is not open. -/
theorem closed_of_delay_zero {w : Workspace} {buffers : Buffers} (lawful : w.Lawful)
    (follows : w.Follows buffers (TrackedFile.Shows buffers)) (zero : w.delay = 0)
    {p : Project} (member : p ∈ w.projects) {uri : Uri} (closed : Workspace.tracksClosed uri p) :
    buffers.find? uri = none := by
  obtain ⟨f, found, unopened⟩ := (Option.any_eq_true _ _).mp closed
  have idle := (lawful p member).regular.held?_none ((lawful p member).same.trans zero)
  rcases (follows p member).done f (Registry.mem_of_find? found) with shows | ⟨update, waits, -⟩
  · by_contra opened
    obtain ⟨buffer, known⟩ := Option.ne_none_iff_exists'.mp opened
    have attached := shows buffer (Registry.uri_of_find? found ▸ known)
    simp [TrackedFile.isOpen, attached] at unopened
  · simp [Registry.awaited_idle, Debouncer.items, idle] at waits

/-- Reports about files that are not open where they are tracked without a document. -/
theorem follows_diskChanged {sources : Sources} {buffers : Buffers} {uris : List Uri}
    {w w' : Workspace} (lawful : w.Lawful)
    (follows : w.Follows buffers (TrackedFile.Shows buffers)) (same : sources.buffers = buffers)
    (clear : w.delay ≠ 0 → ∀ before uri after middle, uris = before ++ uri :: after →
      before.foldlM (fun w uri => w.diskChanged sources uri) w = some middle →
      ∀ p ∈ middle.projects, Workspace.tracksClosed uri p → buffers.find? uri = none)
    (done : uris.foldlM (fun w uri => w.diskChanged sources uri) w = some w') :
    w'.Lawful ∧ w'.Follows buffers (TrackedFile.Shows buffers) := by
  induction uris generalizing w with
  | nil =>
    cases done
    exact ⟨lawful, follows⟩
  | cons uri rest ih =>
    rw [List.foldlM_cons] at done
    obtain ⟨w₁, first, later⟩ := Option.bind_eq_some_iff.mp done
    have operated : (Workspace.Operation.disk uri).apply sources w = some w₁ := first
    obtain ⟨lawful₁, delay⟩ := lawful.apply operated
    refine ih lawful₁ (follows.diskChanged (fun p member tracks => ?_) same Registry.renews_shows
      first) (fun positive before uri' after middle split folded => ?_) later
    · by_cases zero : w.delay = 0
      · exact closed_of_delay_zero lawful follows zero member tracks
      · exact clear zero [] uri rest w rfl rfl p member tracks
    · refine clear (delay ▸ positive) (uri :: before) uri' after middle (by rw [split]; rfl) ?_
      rw [List.foldlM_cons, first]
      exact folded

theorem Attending.didChangeFiles {uris : List Uri} (h : s.Attending)
    (clear : s.workspace.delay ≠ 0 → Event.Clear host s (.watched uris))
    (done : s.didChangeFiles host uris = some s') : s'.Attending := by
  obtain ⟨w, changed, same⟩ := exists_of_update done
  obtain ⟨lawful, follows⟩ := follows_diskChanged h.lawful h.follows rfl clear changed
  exact same.attending lawful follows

/-- Without a delay nothing is held back, so every document is settled. -/
theorem Attending.settled {uri : Uri} {document : Document} (h : s.Attending)
    (clear : s.workspace.delay ≠ 0 → Event.Clear host s (.closed uri))
    (opened : s.buffers.find? uri = some document) : s.workspace.Settled document := by
  by_cases zero : s.workspace.delay = 0
  · intro p member f _ _ update held
    have lawful := h.lawful p member
    have idle := lawful.regular.held?_none (lawful.same.trans zero)
    simp [Debouncer.items, idle] at held
  · exact clear zero document opened

/-- Every event of a conforming client keeps this, if it loses no text. -/
theorem Attending.apply (h : s.Attending) (conforming : event.Conforming s)
    (clear : s.workspace.delay ≠ 0 → event.Clear host s)
    (done : event.apply host s = some s') : s'.Attending := by
  cases event with
  | opened document => exact h.takeDocument (conforming document rfl) done
  | changed earlier document =>
    rw [apply_of_document? rfl] at done
    exact h.takeDocument (conforming document rfl) done
  | saved uri => exact h.didSave done
  | closed uri => exact (h.didClose (fun _ => h.settled clear) done).1
  | watched uris => exact h.didChangeFiles clear done
  | timer fired => exact h.deliver done

/-! ## Runs -/

/-- An event of a conforming client, of the kind that is allowed, that loses no text. -/
def Step (allowed : Event → Prop) (s s' : Session) : Prop :=
  ∃ host event, allowed event ∧ event.Conforming s ∧
    (s.workspace.delay ≠ 0 → event.Clear host s) ∧ event.apply host s = some s'

/-- Such events, one after the other. -/
abbrev Steps (allowed : Event → Prop) : Session → Session → Prop :=
  Relation.ReflTransGen (Step allowed)

theorem Attending.steps {allowed : Event → Prop} (h : s.Attending) (run : Steps allowed s s') :
    s'.Attending := by
  induction run with
  | refl => exact h
  | tail _ step ih =>
    obtain ⟨host, event, -, conforming, clear, done⟩ := step
    exact ih.apply conforming clear done

end Session

end AsmServer
