import AsmServer.Proofs.Registry.Generations
import AsmServer.Proofs.Workspace.Steps

/-!
# Projects are numbered

Each new project gets a number that no project had before. So a project and a generation of its
debouncer name one update at most, throughout: what a project holds back it held back before in
the same generation, or the generation is new for it, or the project is new.
-/

namespace AsmServer

/-- What becomes of a project. -/
structure Project.Later (p p' : Project) : Prop where
  id : p'.id = p.id
  registry : p.registry.Later p'.registry

namespace Workspace

variable {sources : Sources} {w w' w'' : Workspace} {attempts : List Attempt}

/-! ## Numbers -/

/-- The projects have different numbers, all below the next one. -/
structure Numbered (w : Workspace) : Prop where
  once : (w.projects.map (·.id)).Nodup
  below : ∀ id ∈ w.projects.map (·.id), id.number < w.nextNumber

theorem Numbered.congr (h : w.Numbered) (ids : w'.projects.map (·.id) = w.projects.map (·.id))
    (next : w'.nextNumber = w.nextNumber) : w'.Numbered :=
  ⟨ids ▸ h.once, next ▸ ids ▸ h.below⟩

theorem Step.numbered (step : Step w attempts w') (h : w.Numbered) : w'.Numbered := by
  cases step with
  | settle place moves => exact h.congr (by simp [place]) rfl
  | assemble place => exact h.congr (by simp [place]) rfl
  | create added =>
    have fresh : (⟨w.nextNumber⟩ : ProjectId) ∉ w.projects.map (·.id) :=
      fun member => Nat.lt_irrefl _ (h.below _ member)
    refine ⟨?_, fun id member => ?_⟩
    · simpa [Project.empty, List.nodup_append] using ⟨h.once, by simpa using fresh⟩
    · rw [List.map_append, List.mem_append] at member
      rcases member with old | new
      · exact Nat.lt_succ_of_lt (h.below id old)
      · simp only [Project.settle_id, Project.empty, List.map_cons, List.map_nil,
          List.mem_singleton] at new
        rw [new]
        exact Nat.lt_succ_self _
  | attend current? assembler => exact h.congr rfl rfl
  | dispose place => exact h.congr (by simp [place, Project.dispose]) rfl

theorem Steps.numbered (run : Steps w attempts w') (h : w.Numbered) : w'.Numbered := by
  induction run with
  | refl => exact h
  | tail _ step ih => exact step.numbered ih

/-- A project stands alone under its number. -/
theorem Numbered.id_ne {before after : List Project} {p q : Project} (h : w.Numbered)
    (place : w.projects = before ++ p :: after) (other : q ∈ before ++ after) : q.id ≠ p.id := by
  have once := h.once
  rw [place, List.map_append, List.map_cons, List.nodup_middle, List.nodup_cons,
    ← List.map_append] at once
  exact fun same => once.1 (same ▸ List.mem_map_of_mem other)

/-- No two projects have one number. -/
theorem Numbered.eq_of_id (h : w.Numbered) {p q : Project} (first : p ∈ w.projects)
    (second : q ∈ w.projects) (same : p.id = q.id) : p = q :=
  List.inj_on_of_nodup_map h.once first second same

/-! ## What becomes of the projects -/

/-- What becomes of a workspace: every project is one that was there before, or is new. -/
structure Later (w w' : Workspace) : Prop where
  number : w.nextNumber ≤ w'.nextNumber
  projects : ∀ p' ∈ w'.projects, (∃ p ∈ w.projects, p.Later p') ∨ w.nextNumber ≤ p'.id.number

theorem Later.refl (w : Workspace) : w.Later w :=
  ⟨Nat.le_refl _, fun p member => .inl ⟨p, member, rfl, .refl _⟩⟩

theorem Later.trans (first : w.Later w') (second : w'.Later w'') : w.Later w'' := by
  refine ⟨Nat.le_trans first.number second.number, fun p'' member => ?_⟩
  rcases second.projects p'' member with ⟨p', member', same, later⟩ | new
  · rcases first.projects p' member' with ⟨p, old, same', later'⟩ | new
    · exact .inl ⟨p, old, same.trans same', later'.trans later⟩
    · exact .inr (same ▸ new)
  · exact .inr (Nat.le_trans first.number new)

theorem later_of_forall₂ (number : w.nextNumber ≤ w'.nextNumber)
    (related : List.Forall₂ Project.Later w.projects w'.projects) : w.Later w' :=
  ⟨number, fun _ member => .inl (mem_of_forall₂ related member)⟩

/-- Every operation makes the workspace later. -/
theorem Operation.later {operation : Operation} (done : operation.apply sources w = some w') :
    w.Later w' := by
  cases Operation.course done with
  | @turns _ task _ given turning current? =>
    obtain ⟨projects, bench, related, -, rfl⟩ := forThose_forall₂ (R := Project.Later)
      (B := fun _ => True) (fun p bench p' bench' _ _ turned => ⟨by
        obtain ⟨r, changed, settled⟩ := Project.perform_eq_some_iff.mp turned
        obtain ⟨rfl, -⟩ := Prod.ext_iff.mp settled
        have after : p.registry.Later r := Registry.Operation.later changed
        refine ⟨Project.settle_id, ?_⟩
        rw [Project.settle_registry]
        exact after, trivial⟩)
      (fun p _ => ⟨rfl, .refl _⟩) trivial turning
    exact later_of_forall₂ (Nat.le_refl _) related
  | creates untracked added =>
    refine ⟨Nat.le_succ _, fun q member => ?_⟩
    rcases List.mem_append.mp member with old | new
    · exact .inl ⟨q, old, rfl, .refl _⟩
    · rw [List.mem_singleton.mp new, Project.settle_id]
      exact .inr (Nat.le_refl _)
  | assembles assembled =>
    obtain ⟨projects, bench, related, -, rfl⟩ := assembled_forall₂ (R := Project.Later)
      (B := fun _ => True) (fun p bench _ => ⟨by
        refine ⟨Project.assemble_id, ?_⟩
        rw [Project.assemble_registry]
        exact .refl _, trivial⟩) trivial assembled
    exact later_of_forall₂ (Nat.le_refl _) related

theorem later_dispose : w.Later w.dispose := by
  refine ⟨Nat.le_refl _, fun p' member => ?_⟩
  obtain ⟨p, old, rfl⟩ := List.mem_map.mp member
  exact .inl ⟨p, old, rfl, Debouncer.later_clear⟩

end Workspace

end AsmServer
