import AsmServer.Proofs.Workspace.Lone

/-!
# Every edited document has a project

A document that no project tracks becomes the entry file of a new project, and a project
never drops its entry file. A document that some project tracks stays tracked when its
text is queued, unless queueing it lets go an update of another file: handling that update
may drop the document before its own text is ever handled.
-/

namespace AsmServer

/-- A tracked document stays tracked if nothing held back for another file is let go. -/
theorem Registry.mem_uris_updateFromEditor {sources : Sources} {r r' : Registry}
    {document : Document} {entry : Uri} (sound : r.Sound entry) (tidy : r.Tidy)
    (calm : r.debouncer.displaced document.uri = []) (tracked : document.uri ∈ r.uris)
    (done : r.updateFromEditor sources document = some r') : document.uri ∈ r'.uris := by
  have calm : r.debouncer.displaced (Update.editor document).uri = [] := calm
  obtain ⟨f, found⟩ := exists_find? tracked
  by_cases stale : f.isCurrent document = false
  · rw [updateFromEditor_of_stale found stale] at done
    by_cases zero : r.debouncer.delay = 0
    · rw [queue_of_delay_zero zero calm] at done
      have idle : (r.push (.editor document)).1.debouncer.held? = none :=
        (Debouncer.push_of_delay_zero _ _ zero).1
      refine mem_uris_of_process (sound.congr (push_files _) (entry?_push _)) idle ⟨?_, ?_⟩ done
      · rwa [uris_congr (push_files _)]
      · exact (reachable_congr (entry?_push _) (push_files _)).mpr (tidy _ tracked)
    · rw [queue_of_delay_pos zero calm] at done
      cases done
      rwa [uris_congr (push_files _)]
  · simp only [updateFromEditor, found, Bool.not_eq_false] at stale done
    rw [if_pos stale] at done
    cases done
    exact tracked

namespace Workspace

variable {sources : Sources} {w w' : Workspace} {document : Document}

theorem exists_of_forall₂ {R : Project → Project → Prop} {projects projects' : List Project}
    (related : List.Forall₂ R projects projects') {p : Project} (member : p ∈ projects) :
    ∃ p' ∈ projects', R p p' :=
  mem_of_forall₂ related.flip member

/-- If the document is tracked, some project that tracks it holds back no update of another
file. -/
def Calm (w : Workspace) (uri : Uri) : Prop :=
  w.tracks uri → ∃ p ∈ w.projects, p.tracks uri ∧ p.registry.debouncer.displaced uri = []

/-- Without a delay nothing is ever held back. -/
theorem calm_of_delay_zero {uri : Uri} (lawful : w.Lawful) (zero : w.delay = 0) : w.Calm uri := by
  intro tracked
  obtain ⟨p, member, tracks⟩ := List.any_eq_true.mp tracked
  have lawful := lawful p member
  exact ⟨p, member, tracks,
    Debouncer.displaced_of_held?_none (lawful.regular.held?_none (lawful.same.trans zero))⟩

/-! ## A text that cuts off another file -/

section cut

open Registry

/-- A file without includes. -/
def part : Document := ⟨.ofPath "/a".toList, 1, []⟩

/-- A file that includes it. -/
def whole : Document := ⟨.ofPath "/m".toList, 1, " include a".toList⟩

/-- A later text of that file, without the include. -/
def wholeCut : Document := ⟨.ofPath "/m".toList, 2, []⟩

/-- Only the included file is stored. -/
def partStored : Sources := { disk := [stored "/a" ""] }

/-- The text of the file is held back. -/
def wholeOpened : Registry := (((blank 250).add whole.uri).push (.editor whole)).1.drained

/-- That text was handled; the text of the included file is held back. -/
def wholeLoaded : Registry := (handled partStored 3 wholeOpened.released (.editor whole)).drained

/-- The later text is held back; that of the included file was let go. -/
def cutHeld : Registry := (queued partStored 2 wholeLoaded (.editor wholeCut)).drained

theorem wholeOpened_flush :
    wholeOpened.flushPending partStored
      = some (handled partStored 3 wholeOpened.released (.editor whole), true) := by
  have held : wholeOpened.debouncer.held? = some (whole.uri, .editor whole) := by decide +kernel
  rw [flushPending_of_held held, process_eq_handled (n := 3) (by decide +kernel)]
  rfl

/-- The history up to the text that cuts off the included file. -/
theorem exists_cutHeld (assembler : Assembler) : ∃ w, (start assembler 250).perform
    [(partStored, .change whole), (partStored, .flush), (partStored, .change wholeCut)] = some w ∧
      w.Lone cutHeld := by
  obtain ⟨w₁, opened, lone₁⟩ : ∃ w, (Operation.change whole).apply partStored
      (start assembler 250) = some w ∧ w.Lone wholeOpened :=
    lone_change (addDocument_blank (by decide))
  obtain ⟨w₂, loaded, lone₂⟩ : ∃ w, Operation.flush.apply partStored w₁ = some w ∧
      w.Lone wholeLoaded := lone₁.flush wholeOpened_flush
  obtain ⟨w₃, cut, lone₃⟩ : ∃ w, (Operation.change wholeCut).apply partStored w₂ = some w ∧
      w.Lone cutHeld :=
    lone₂.change (by decide +kernel)
      (Registry.updateFromEditor_queued (n := 2) (by decide +kernel) (by decide +kernel))
  exact ⟨w₃, by simp [perform, opened, loaded, cut], lone₃⟩

end cut

/-- After any history a document is tracked once its text has changed or it was opened, if
there is no delay or some project that tracks it holds back no update of another file. -/
theorem document_has_project {assembler : Assembler} {delay : Nat}
    {operations : List (Sources × Operation)}
    (history : (start assembler delay).perform operations = some w)
    (calm : delay ≠ 0 → w.Calm document.uri)
    (done : w.documentChanged sources document = some w') : w'.tracks document.uri := by
  obtain ⟨lawful, same⟩ := lawful_perform history
  by_cases tracked : w.tracks document.uri
  · obtain ⟨p, member, tracks, still⟩ : ∃ p ∈ w.projects, p.tracks document.uri ∧
        p.registry.debouncer.displaced document.uri = [] := by
      by_cases zero : delay = 0
      · exact calm_of_delay_zero lawful (same.trans zero) tracked
      · exact calm zero tracked
    simp only [documentChanged] at done
    rw [if_pos tracked] at done
    obtain ⟨projects, bench, related, -, rfl⟩ := forThose_forall₂
      (R := fun p p' => p.Lawful w.delay → p.registry.debouncer.displaced document.uri = [] →
        p.tracks document.uri → p'.tracks document.uri) (B := fun _ => True)
      (fun p bench p' bench' _ _ turned => ⟨fun lawful still tracks => by
        obtain ⟨r, changed, settled⟩ := Project.perform_eq_some_iff.mp turned
        obtain ⟨rfl, -⟩ := Prod.ext_iff.mp settled
        obtain ⟨entry, sound⟩ := lawful.sound
        rw [Project.tracks, Project.settle_registry, Registry.tracks_iff]
        have kept := Registry.mem_uris_updateFromEditor sound lawful.tidy still
          (Registry.tracks_iff.mp tracks) changed
        exact kept, trivial⟩)
      (fun _ _ _ _ tracks => tracks) trivial done
    obtain ⟨p', member', keeps⟩ := exists_of_forall₂ related member
    exact List.any_eq_true.mpr ⟨p', member', keeps (lawful p member) still tracks⟩
  · simp only [documentChanged] at done
    rw [if_neg tracked] at done
    exact tracks_createProject done

/-- A second text is such a change while the first one is held back. -/
theorem wholeCut_has_project : ∃ w w',
    (start (.ofProgram [] none) 250).perform [(partStored, .change whole)] = some w ∧
      w.Calm wholeCut.uri ∧ w.documentChanged partStored wholeCut = some w' ∧
      w'.tracks wholeCut.uri := by
  obtain ⟨w, opened, lone⟩ : ∃ w, (Operation.change whole).apply partStored
      (start (.ofProgram [] none) 250) = some w ∧ w.Lone wholeOpened :=
    lone_change (Registry.addDocument_blank (by decide))
  have history :
      (start (.ofProgram [] none) 250).perform [(partStored, .change whole)] = some w := by
    simp [perform, opened]
  have calm : w.Calm wholeCut.uri := by
    obtain ⟨p, projects, registry, -⟩ := lone
    intro _
    refine ⟨p, by simp [projects], ?_, ?_⟩
    · rw [Project.tracks, registry]
      decide +kernel
    · rw [registry]
      decide +kernel
  obtain ⟨w', changed, -⟩ : ∃ w', (Operation.change wholeCut).apply partStored w = some w' ∧
      w'.Lone (Registry.queued partStored 0 wholeOpened (.editor wholeCut)).drained :=
    lone.change (by decide +kernel)
      (Registry.updateFromEditor_queued (n := 0) (by decide +kernel) (by decide +kernel))
  exact ⟨w, w', history, calm, changed, document_has_project history (fun _ => calm) changed⟩

/-- A document whose text comes while a text that cuts it off is held back is left without a
project. -/
theorem part_without_project : ∃ w w',
    (start (.ofProgram [] none) 250).perform
      [(partStored, .change whole), (partStored, .flush), (partStored, .change wholeCut)] = some w ∧
      w.documentChanged partStored part = some w' ∧ w'.tracks part.uri = false := by
  obtain ⟨w, history, lone⟩ := exists_cutHeld (.ofProgram [] none)
  obtain ⟨w', changed, lone'⟩ : ∃ w', (Operation.change part).apply partStored w = some w' ∧
      w'.Lone (Registry.queued partStored 2 cutHeld (.editor part)).drained :=
    lone.change (by decide +kernel)
      (Registry.updateFromEditor_queued (n := 2) (by decide +kernel) (by decide +kernel))
  exact ⟨w, w', history, changed, by rw [lone'.tracks]; decide +kernel⟩

end Workspace

end AsmServer
