import AsmServer.Proofs.Registry.Closure
import AsmServer.Proofs.Registry.Termination
import AsmServer.Proofs.Session.Events

/-!
# Projects are include closures

Without a delay every text is taken in at once. If the disk does not change, every project
is after each text what it would be from scratch: it tracks the include closure of its entry
file, and each file has the text and the edges that the open buffers and the disk give it.
In particular it does not matter in which order the texts came.
-/

namespace AsmServer

namespace Workspace

variable {sources : Sources} {w w' : Workspace} {document : Document}

/-- Without a delay every text is taken in. -/
theorem documentChanged_returns (lawful : w.Lawful) (zero : w.delay = 0) :
    (w.documentChanged sources document).isSome := by
  unfold documentChanged
  split
  · have turns : (eachProject (fun p bench => if p.tracks document.uri then
        p.updateFromEditor sources bench document else some (p, bench))
          w.projects w.bench).isSome := by
      refine eachProject_isSome _ fun p member bench => ?_
      split
      · obtain ⟨entry, sound⟩ := (lawful p member).sound
        have idle := (lawful p member).regular.held?_none ((lawful p member).same.trans zero)
        have returns := Registry.updateFromEditor_returns sources sound (lawful p member).tidy
          (Debouncer.displaced_of_held?_none idle :
            p.registry.debouncer.displaced document.uri = [])
        simpa [Project.updateFromEditor, Project.perform] using returns
      · rfl
    simpa [forThose, forAll] using turns
  · exact createProject_returns (w := { w with current? := some document.uri }) document

/-- The entry file of a project is the document that it was made for. -/
theorem entry?_documentChanged {S : Uri → Prop} (lawful : w.Lawful)
    (entries : ∀ p ∈ w.projects, ∀ entry, p.registry.entry? = some entry → S entry)
    (here : S document.uri) (done : w.documentChanged sources document = some w') :
    ∀ p ∈ w'.projects, ∀ entry, p.registry.entry? = some entry → S entry := by
  unfold documentChanged at done
  split at done
  · refine registry_forThose (w := { w with current? := some document.uri })
      (Q := fun r => ∀ entry, r.entry? = some entry → S entry)
      (Registry.updateFromEditor · sources document) (fun _ _ => rfl)
      (fun p member _ r changed entry first => ?_) (fun p member _ => entries p member) done
    obtain ⟨own, sound⟩ := (lawful p member).sound
    have after := sound.moves (Registry.updateFromEditor_moves changed)
    obtain rfl : own = entry := Option.some.inj (after.entry?.symm.trans first)
    exact entries p member own sound.entry?
  · obtain ⟨⟨p, bench⟩, added, rest⟩ := Option.bind_eq_some_iff.mp done
    cases rest
    intro q member entry first
    rcases List.mem_append.mp member with old | new
    · exact entries q old entry first
    · rw [List.mem_singleton.mp new, (Project.lawful_addDocument added).2.2] at first
      exact Option.some.inj first ▸ here

end Workspace

/-- The disk holds a file for a document. -/
def Host.Stores (host : Host) (uri : Uri) : Prop := (Sources.file? ⟨host.disk, []⟩ uri).isSome

namespace Session

variable {host : Host} {s s' : Session} {document : Document}

/-- What holds between texts: nothing is held back, all documents are stored, and all files are
as the sources give them. -/
structure Serving (host : Host) (s : Session) : Prop where
  lawful : s.workspace.Lawful
  zero : s.workspace.delay = 0
  follows : s.workspace.Follows s.buffers (TrackedFile.Loaded (s.sources host))
  opened : ∀ document ∈ s.buffers, host.Stores document.uri
  entries : ∀ p ∈ s.workspace.projects, ∀ entry, p.registry.entry? = some entry →
    host.Stores entry

theorem mem_insert {buffers : Buffers} {buffer : Document}
    (h : buffer ∈ buffers.insert document) : buffer = document ∨ buffer ∈ buffers := by
  rcases List.mem_cons.mp h with same | kept
  · exact .inl same
  · exact .inr (List.mem_of_mem_filter kept)

/-- A newer text of another document is of no concern for a file. -/
theorem loaded_insert {disk : Disk} {buffers : Buffers} {f : TrackedFile}
    (other : f.uri ≠ document.uri) (h : f.Loaded ⟨disk, buffers⟩) :
    f.Loaded ⟨disk, buffers.insert document⟩ := by
  have text : Sources.text? ⟨disk, buffers.insert document⟩ f.uri
      = Sources.text? ⟨disk, buffers⟩ f.uri := by
    simp only [Sources.text?, Buffers.find?_insert_of_ne other]
    rfl
  have edges : Sources.edges ⟨disk, buffers.insert document⟩ f.uri
      = Sources.edges ⟨disk, buffers⟩ f.uri := by
    rw [Sources.edges, Sources.edges, text]
    rfl
  exact ⟨h.1.trans text.symm, h.2.trans edges.symm⟩

/-- Every newer text is taken in. -/
theorem Serving.takeDocument (h : s.Serving host) (stored : host.Stores document.uri)
    (newer : ∀ buffer, s.buffers.find? document.uri = some buffer →
      buffer.version < document.version) :
    ∃ s', s.takeDocument host document = some s' ∧ s'.Serving host ∧
      s'.buffers = s.buffers.insert document := by
  have returns : (s.workspace.documentChanged ⟨host.disk, s.buffers.insert document⟩
      document).isSome := Workspace.documentChanged_returns h.lawful h.zero
  obtain ⟨w, changed⟩ := Option.isSome_iff_exists.mp returns
  have operated : (Workspace.Operation.change document).apply
      ⟨host.disk, s.buffers.insert document⟩ s.workspace = some w := changed
  obtain ⟨s', taken, same⟩ := takeDocument_of_change operated
  obtain ⟨lawful, delay⟩ := h.lawful.apply operated
  have opened : ∀ buffer ∈ s.buffers.insert document, host.Stores buffer.uri := by
    intro buffer member
    rcases mem_insert member with rfl | old
    · exact stored
    · exact h.opened buffer old
  have follows : w.Follows (s.buffers.insert document)
      (TrackedFile.Loaded ⟨host.disk, s.buffers.insert document⟩) :=
    h.follows.documentChanged newer (fun f other => loaded_insert other) rfl
      (Registry.renews_loaded opened) changed
  have entries := Workspace.entry?_documentChanged h.lawful h.entries stored changed
  refine ⟨s', taken, ⟨fun p member => ?_, same.delay.trans (delay.trans h.zero), fun p member => ?_,
    same.buffers ▸ opened, fun p member => entries p (same.projects ▸ member)⟩, same.buffers⟩
  · rw [same.delay]
    exact lawful p (same.projects ▸ member)
  · rw [Session.sources, same.buffers]
    exact follows p (same.projects ▸ member)

/-- Versions grow from each text of a document to the next. -/
def Growing (documents : List Document) : Prop :=
  documents.Pairwise fun a b => a.uri = b.uri → a.version < b.version

/-- The open buffer of a document is its last text. -/
def LastTexts (documents : List Document) (s : Session) : Prop :=
  ∀ uri, s.buffers.find? uri = Buffers.find? documents.reverse uri

theorem LastTexts.append {documents : List Document} (h : LastTexts documents s)
    (inserted : s'.buffers = s.buffers.insert document) :
    LastTexts (documents ++ [document]) s' := by
  intro uri
  rw [inserted, List.reverse_append]
  by_cases here : uri = document.uri
  · subst here
    rw [Buffers.find?_insert_self]
    simp [Buffers.find?]
  · rw [Buffers.find?_insert_of_ne here, h uri]
    simp [Buffers.find?, Ne.symm here]

/-- All texts are taken in, one after the other. -/
theorem Serving.run {events : List Event} {before documents : List Document}
    (h : s.Serving host) (last : LastTexts before s)
    (texts : events.map Event.document? = documents.map some)
    (stored : ∀ document ∈ documents, host.Stores document.uri)
    (growing : Growing (before ++ documents)) :
    ∃ s', events.foldlM (fun s event => event.apply host s) s = some s' ∧ s'.Serving host ∧
      LastTexts (before ++ documents) s' := by
  induction documents generalizing events s before with
  | nil =>
    obtain rfl := List.map_eq_nil_iff.mp texts
    exact ⟨s, rfl, h, by simpa using last⟩
  | cons document rest ih =>
    obtain ⟨event, later, rfl, text, texts⟩ := List.map_eq_cons_iff.mp texts
    have newer : ∀ buffer, s.buffers.find? document.uri = some buffer →
        buffer.version < document.version := by
      intro buffer found
      rw [last] at found
      have earlier : buffer ∈ before := by simpa using List.mem_of_find?_eq_some found
      exact (List.pairwise_append.mp growing).2.2 buffer earlier document List.mem_cons_self
        (by simpa using List.find?_some found)
    obtain ⟨s₁, taken, serving, inserted⟩ :=
      h.takeDocument (stored document List.mem_cons_self) newer
    obtain ⟨s', run, after, last'⟩ := ih serving (last.append inserted) texts
      (fun other member => stored other (List.mem_cons_of_mem _ member)) (by simpa using growing)
    refine ⟨s', ?_, after, by simpa using last'⟩
    rw [List.foldlM_cons, apply_of_document? text, taken]
    exact run

/-- A document that includes another file, and the other file as a document. -/
def pair : List Document :=
  [⟨.ofPath "/m".toList, 1, " include a".toList⟩, ⟨.ofPath "/a".toList, 1, " include m".toList⟩]

end Session

end AsmServer
