import AsmServer.Proofs.Registry.Closing
import AsmServer.Proofs.Workspace.Turns

/-!
# Workspaces that follow the open buffers

A workspace follows the open buffers if the registry of every project does. A new text is
queued in every project that tracks its document, so that after a change all projects follow
the buffers with the new text. A file that is read from the disk must not be open, and a
document that is closed is settled in every project before its buffer is gone.
-/

namespace AsmServer

namespace Workspace

variable {sources : Sources} {buffers : Buffers} {P P' : TrackedFile → Prop} {w w' : Workspace}
  {document : Document} {uri : Uri}

/-- Every project follows the buffers. -/
def Follows (buffers : Buffers) (P : TrackedFile → Prop) (w : Workspace) : Prop :=
  ∀ p ∈ w.projects, p.registry.Follows buffers P

/-- A new project follows the buffers with its document. -/
theorem follows_addDocument {id : ProjectId} {delay : Nat} {bench bench' : Bench} {p : Project}
    (same : sources.buffers = buffers) (renews : Registry.Handling.Renews sources buffers P)
    (current : buffers.find? document.uri = some document)
    (done : (Project.empty id delay).addDocument sources bench document = some (p, bench')) :
    p.registry.Follows buffers P := by
  obtain ⟨r, added, settled⟩ := Project.perform_eq_some_iff.mp done
  obtain ⟨rfl, -⟩ := Prod.ext_iff.mp settled
  have untracked : document.uri ∉ (Project.empty id delay).registry.uris := by
    simp [Project.empty, Registry.uris]
  have files : ((Project.empty id delay).registry.add document.uri).files
      = [{ uri := document.uri }] := by
    rw [Registry.add_files untracked]
    rfl
  have held : ∀ update,
      update ∉ ((Project.empty id delay).registry.add document.uri).debouncer.items := by
    simp [Project.empty, Debouncer.items]
  have but : Registry.Handling.FollowingBut buffers P document.uri
      ⟨(Project.empty id delay).registry.add document.uri, []⟩ := by
    refine ⟨?_, fun f member => ?_, fun f member other => ?_,
      fun update member => absurd member (held update), by simp⟩
    · exact Debouncer.regular_of_held?_none (by simp [Project.empty])
    · rw [files, List.mem_singleton] at member
      exact member ▸ ⟨Registry.consistent_new, Registry.attached_new⟩
    · rw [files, List.mem_singleton] at member
      exact absurd (member ▸ rfl) other
  rw [Project.settle_registry]
  have follows : r.Follows buffers P := by
    refine but.updateFromEditor same renews current (fun f found => ?_) added
    rw [Registry.find?_add untracked, if_pos rfl] at found
    cases found
    simp [TrackedFile.isCurrent]
  exact follows.congr rfl rfl

/-- A new text is taken in by every project that tracks its document, or by a new one. -/
theorem Follows.documentChanged (h : w.Follows buffers P)
    (newer : ∀ buffer, buffers.find? document.uri = some buffer →
      buffer.version < document.version)
    (kept : ∀ f, f.uri ≠ document.uri → P f → P' f)
    (same : sources.buffers = buffers.insert document)
    (renews : Registry.Handling.Renews sources (buffers.insert document) P')
    (done : w.documentChanged sources document = some w') :
    w'.Follows (buffers.insert document) P' := by
  have current : (buffers.insert document).find? document.uri = some document :=
    Buffers.find?_insert_self
  unfold Workspace.documentChanged at done
  by_cases tracked : w.tracks document.uri = true
  · rw [if_pos tracked] at done
    refine registry_forThose (w := { w with current? := some document.uri })
      (Registry.updateFromEditor · sources document) (fun _ _ => rfl) ?_ ?_ done
    · intro p member _ r changed
      have follows : r.Follows (buffers.insert document) P' :=
        ((h p member).insert newer kept).updateFromEditor same renews current
          (fun f found => (h p member).stale newer found) changed
      exact follows.congr rfl rfl
    · intro p member untracked
      exact ((h p member).insert newer kept).follows (Registry.tracks_eq_false.mp untracked)
  · rw [if_neg tracked] at done
    obtain ⟨⟨p, bench⟩, added, rest⟩ := Option.bind_eq_some_iff.mp done
    cases rest
    intro q member
    rcases List.mem_append.mp member with old | new
    · have untracked : document.uri ∉ q.registry.uris := fun known =>
        tracked (List.any_eq_true.mpr ⟨q, old, Registry.tracks_iff.mpr known⟩)
      exact ((h q old).insert newer kept).follows untracked
    · rw [List.mem_singleton.mp new]
      exact follows_addDocument same renews current added

/-- A saved document is settled and marked. -/
theorem Follows.documentSaved (h : w.Follows buffers (TrackedFile.Shows buffers))
    (current : buffers.find? document.uri = some document) (same : sources.buffers = buffers)
    (done : w.documentSaved sources document = some w') :
    w'.Follows buffers (TrackedFile.Shows buffers) := by
  refine registry_forThose (w := { w with current? := some document.uri })
    (Registry.markSaved · sources document) (fun _ _ => rfl) (fun p member _ r changed => ?_)
    (fun p member _ => h p member) done
  obtain ⟨settled, settling, last⟩ := Option.bind_eq_some_iff.mp changed
  cases last
  have follows := (h p member).settleDocument same Registry.renews_shows current settling
  have marked : (settled.modify document.uri fun file => { file with dirty := false }).Follows
      buffers (TrackedFile.Shows buffers) :=
    follows.mark ⟨fun _ => rfl, fun _ => rfl, fun _ => rfl⟩ (fun _ _ => rfl)
      (fun _ _ attached => attached) (fun _ _ shows => shows) (fun _ _ shows => shows)
      (fun _ _ _ => rfl)
  exact marked.congr rfl rfl

/-- No project has the version of a text of the document that it still holds back. -/
def Settled (w : Workspace) (document : Document) : Prop :=
  ∀ p ∈ w.projects, ∀ f, p.registry.find? document.uri = some f →
    f.version = document.version → ∀ update ∈ p.registry.debouncer.items,
      update.uri ≠ document.uri

/-- A closed document is settled and taken off its file. -/
theorem Follows.documentClosed (h : w.Follows buffers (TrackedFile.Shows buffers))
    (lawful : w.Lawful) (current : buffers.find? document.uri = some document)
    (settled : w.Settled document) (same : sources.buffers = buffers.erase document.uri)
    (done : w.documentClosed sources document = some w') :
    w'.Follows sources.buffers (TrackedFile.Shows sources.buffers) ∧
      ∀ p ∈ w'.projects, ∀ f, p.registry.find? document.uri = some f →
        f.contents? = some document.text ∧ f.document? = none := by
  obtain ⟨closed, closing, rfl⟩ := Option.map_eq_some_iff.mp done
  have others : ∀ v, v ≠ document.uri → sources.buffers.find? v = buffers.find? v :=
    fun v other => by rw [same, Buffers.find?_erase, if_neg other]
  have both : ∀ p ∈ closed.projects,
      p.registry.Follows sources.buffers (TrackedFile.Shows sources.buffers) ∧
        ∀ f, p.registry.find? document.uri = some f →
          f.contents? = some document.text ∧ f.document? = none := by
    refine registry_forThose
      (Q := fun r => r.Follows sources.buffers (TrackedFile.Shows sources.buffers) ∧
        ∀ f, r.find? document.uri = some f → f.contents? = some document.text ∧ f.document? = none)
      (Registry.markClosed · sources document) (fun _ _ => rfl)
      (fun p member tracked r changed => ?_) (fun p member untracked => ?_) closing
    · obtain ⟨entry, sound⟩ := (lawful p member).sound
      obtain ⟨follows, closed⟩ := (h p member).markClosed sound (lawful p member).tidy current
        same (settled p member) (Registry.tracks_iff.mp tracked) changed
      exact ⟨follows.congr rfl rfl, closed⟩
    · have out : document.uri ∉ p.registry.uris := Registry.tracks_eq_false.mp untracked
      refine ⟨(h p member).of_not_mem out others fun f other shows => shows.congr (others _ other),
        fun f found => ?_⟩
      exact absurd (Registry.find?_eq_none.mpr out) (by simp [found])
  exact ⟨fun p member => (both p member).1, fun p member => (both p member).2⟩

/-- A file is read from the disk where it is tracked but not open, so it must not be open
anywhere. -/
theorem Follows.diskChanged (h : w.Follows buffers P)
    (closed : ∀ p ∈ w.projects, tracksClosed uri p → buffers.find? uri = none)
    (same : sources.buffers = buffers) (renews : Registry.Handling.Renews sources buffers P)
    (done : w.diskChanged sources uri = some w') : w'.Follows buffers P := by
  refine registry_forThose (Registry.updateFromDisk · sources uri) (fun _ _ => rfl)
    (fun p member tracks r changed => ?_) (fun p member _ => h p member) done
  have follows : r.Follows buffers P :=
    (h p member).updateFromDisk same renews (closed p member tracks) changed
  exact follows.congr rfl rfl

theorem Follows.flushDue {id : ProjectId} {generation : Nat} {flushed : Bool}
    (h : w.Follows buffers P) (same : sources.buffers = buffers)
    (renews : Registry.Handling.Renews sources buffers P)
    (done : w.flushDue sources id generation = some (w', flushed)) : w'.Follows buffers P := by
  obtain ⟨turned, turning, rest⟩ := Option.bind_eq_some_iff.mp done
  cases rest
  refine registry_forThose (fun r => (r.flushDue sources generation).map (·.1))
    (fun p bench => by rw [Project.flushDue, Project.performFlush_map])
    (fun p member _ r changed => ?_) (fun p member _ => h p member) turning
  obtain ⟨⟨after, _⟩, flushing, rfl⟩ := Option.map_eq_some_iff.mp changed
  have follows : after.Follows buffers P := (h p member).flushDue same renews flushing
  exact follows.congr rfl rfl

end Workspace

end AsmServer
