import AsmServer.Proofs.Registry.Regimes

/-!
# Versions are pinned to texts

A tracked file that is open holds the text and the version of its document. A reload from the
disk would break this, for it leaves the document in place; hence no reload is ever handled
while the file is open. A reload is queued for closed files only, and a file is opened by
handling a text of the editor. When such a text is handled, no reload of the same file waits:
the debouncer holds one update for each file, and lets an update go only when another file
follows it.

The edges of a file lie where its includes are, whatever text it has.
-/

namespace AsmServer

/-- An open file holds the text and the version of its document. -/
def TrackedFile.Pinned (f : TrackedFile) : Prop :=
  ∀ document, f.document? = some document →
    f.contents? = some document.text ∧ f.version = document.version

/-- Every edge of the file is where an include of its text is. -/
def TrackedFile.Placed (f : TrackedFile) : Prop :=
  ∀ edge ∈ f.dependencies, ∃ directive ∈ Code.includes f.lines, directive.range = edge.range

namespace Registry

variable {sources : Sources} {r r' : Registry} {update : Update} {document : Document} {uri : Uri}
  {f : TrackedFile}

/-! ## Versions -/

/-- A reload may be handled if its file is not open. -/
def Admits (r : Registry) (update : Update) : Prop :=
  ∀ f ∈ r.files, update = .disk f.uri → f.document? = none

/-- All files are pinned, and no reload of an open file waits. -/
structure Pinned (r : Registry) : Prop where
  regular : r.debouncer.Regular
  files : ∀ f ∈ r.files, f.Pinned
  held : ∀ update ∈ r.debouncer.items, r.Admits update

theorem pinned_of_closed (closed : f.document? = none) : f.Pinned := by
  intro document opened
  rw [closed] at opened
  cases opened

/-- A text of the editor pins its file; a reload leaves a closed file closed. -/
theorem pinned_renewed (admitted : update = .disk f.uri → f.document? = none)
    (own : f.uri = update.uri) : (r.renewed sources update f).Pinned := by
  cases update with
  | editor document =>
    intro opened same
    cases same
    exact ⟨rfl, rfl⟩
  | disk uri =>
    have own : f.uri = uri := own
    exact pinned_of_closed (admitted (by rw [own]))

/-- A reload is for a file that is not open. -/
def Spares (f : TrackedFile) (update : Update) : Prop :=
  update = .disk f.uri → f.document? = none

theorem regime_pinned : Regime sources TrackedFile.Pinned Spares where
  new _ := pinned_of_closed rfl
  load _ _ := rfl
  renew _ _ _ _ spared own := pinned_renewed spared own

theorem pinned_iff_obeys : r.Pinned ↔ r.Obeys TrackedFile.Pinned Spares :=
  ⟨fun h => ⟨h.regular, h.files, fun update waits f member _ => h.held update waits f member⟩,
    fun h => ⟨h.regular, h.files, fun update waits f member same =>
      h.held update waits f member (by rw [same]; rfl) same⟩⟩

/-! ## Places of edges -/

/-- The edges of all files are where their includes are. -/
def Placed (r : Registry) : Prop := ∀ f ∈ r.files, f.Placed

/-- Every edge is kept or made at an include. -/
theorem range_of_mem_edges {edge : Dependency} (member : edge ∈ r.edges sources f) :
    ∃ directive ∈ Code.includes f.lines, directive.range = edge.range := by
  have linked (diff : EdgeDiff) (parent target : Uri) (directive : Code.Include)
      (member : edge ∈ (diff.link parent target directive).new) :
      edge ∈ diff.new ∨ directive.range = edge.range := by
    unfold EdgeDiff.link at member
    split at member
    · exact .inl member
    · split at member <;> rcases List.mem_append.mp member with old | new
      · exact .inl old
      · exact .inr (by rw [List.mem_singleton.mp new])
      · exact .inl old
      · exact .inr (by rw [List.mem_singleton.mp new])
  have each (directives : List Code.Include) (diff : EdgeDiff)
      (member : edge ∈ (directives.foldl
        (EdgeDiff.step r sources f.uri (Code.searchPath f.lines)) diff).new) :
      edge ∈ diff.new ∨ ∃ directive ∈ directives, directive.range = edge.range := by
    induction directives generalizing diff with
    | nil => exact .inl member
    | cons directive rest ih =>
      rcases ih _ member with here | ⟨later, listed, same⟩
      · unfold EdgeDiff.step at here
        split at here
        · exact (linked diff _ _ directive here).imp_right fun same =>
            ⟨directive, List.mem_cons_self, same⟩
        · exact .inl here
      · exact .inr ⟨later, List.mem_cons_of_mem _ listed, same⟩
  exact (each _ _ member).resolve_left (by simp)

/-- A file that is tracked anew has no edges. -/
theorem Placed.add (h : r.Placed) (untracked : uri ∉ r.uris) : (r.add uri).Placed := by
  intro f member
  rcases mem_add untracked member with old | rfl
  · exact h f old
  · intro edge own
    cases own

theorem Handling.placed_step {s : Handling} (h : s.registry.Placed) :
    (s.step sources).registry.Placed := by
  obtain ⟨r, _ | ⟨task, rest⟩⟩ := s
  · exact h
  cases task with
  | handle update =>
    by_cases tracked : update.uri ∈ r.uris
    · rw [step_handle tracked]
      intro f member
      obtain ⟨g, old, -, ⟨-, rfl⟩ | ⟨-, rfl⟩⟩ := mem_renew member
      · intro edge own
        have made : edge ∈ edges (r.modify update.uri (·.refresh sources update)) sources
          (g.refresh sources update) := own
        have found := range_of_mem_edges made
        exact found
      · exact h f old
    · rw [step_handle_of_not_mem tracked]
      exact h
  | discover uri =>
    by_cases tracked : uri ∈ r.uris
    · rw [step_discover_of_mem tracked]
      exact h
    · rw [step_discover tracked]
      have added := h.add tracked
      exact added
  | finish uri => exact fun f member => h f (List.mem_filter.mp member).1

theorem Placed.moves (h : r.Placed) (moves : Moves sources r r') : r'.Placed := by
  refine Moves.preserves (fun _ _ move placed => ?_) moves h
  cases move with
  | hold => exact placed
  | handle done =>
    exact process_preserves (P := fun s => s.registry.Placed)
      (fun _ before => Handling.placed_step before) done placed
  | mark u only =>
    intro f member edge own
    obtain ⟨g, old, rfl⟩ := mem_modify.mp member
    split at own
    · next here =>
      rw [only.dependencies] at own
      rw [if_pos here]
      simpa [TrackedFile.lines, only.contents?] using placed g old edge own
    · next other =>
      rw [if_neg other]
      exact placed g old edge own

theorem Placed.addDocument (h : r.Placed) (done : r.addDocument sources document = some r') :
    r'.Placed := by
  have added : (r.add document.uri).Placed := by
    by_cases tracked : document.uri ∈ r.uris
    · rwa [add_of_mem tracked]
    · exact h.add tracked
  exact added.moves (updateFromEditor_moves done)

theorem placed_blank (delay : Nat) : (blank delay).Placed := by
  intro f member
  simp [blank] at member

end Registry

end AsmServer
