import AsmServer.Proofs.Registry.Pinning
import AsmServer.Proofs.Workspace.Regimes
import AsmServer.Proofs.Workspace.Steps

/-!
# Pinned workspaces

All projects of a workspace keep their open files pinned, whatever happens to it. A reload is
queued only where the file is tracked and not open, which is why an operation needs lawful
projects for it: they track each file once.
-/

namespace AsmServer

namespace Workspace

variable {sources : Sources} {w w' : Workspace} {attempts : List Attempt}

/-- In every project all files are pinned. -/
def Pinned (w : Workspace) : Prop := ∀ p ∈ w.projects, p.registry.Pinned

/-- In every project all edges are where the includes are. -/
def Placed (w : Workspace) : Prop := ∀ p ∈ w.projects, p.registry.Placed

theorem pinned_iff_obeys : w.Pinned ↔ w.Obeys TrackedFile.Pinned Registry.Spares :=
  forall₂_congr fun _ _ => Registry.pinned_iff_obeys

/-- Every operation keeps all files pinned. -/
theorem Operation.pinned {operation : Operation} (lawful : w.Lawful) (h : w.Pinned)
    (done : operation.apply sources w = some w') : w'.Pinned := by
  have text (f : TrackedFile) (document : Document) : Registry.Spares f (.editor document) := by
    intro same
    cases same
  have keeps : operation.Keeps TrackedFile.Pinned Registry.Spares w := by
    cases operation with
    | change document => exact ⟨text _ document, fun f _ _ => text f document⟩
    | save document =>
      exact ⟨fun f _ _ _ => text f document, fun _ _ pinned => pinned, fun _ _ _ spared => spared⟩
    | close document =>
      exact ⟨fun f _ _ _ => text f document, fun _ _ _ => Registry.pinned_of_closed rfl,
        fun _ _ _ _ _ => rfl⟩
    | disk uri => exact fun _ _ _ closed _ => closed
    | due => trivial
    | flush => trivial
    | replace => trivial
  rw [pinned_iff_obeys] at h ⊢
  exact operation.obeys Registry.regime_pinned lawful h keeps done

theorem Pinned.dispose (h : w.Pinned) : w.dispose.Pinned := by
  rw [pinned_iff_obeys] at h ⊢
  exact Obeys.dispose h

/-- A step keeps all edges where the includes are. -/
theorem Step.placed (step : Step w attempts w') (h : w.Placed) : w'.Placed := by
  cases step with
  | settle place moves =>
    refine forall_of_place place h fun placed => ?_
    rw [Project.settle_registry]
    have after := placed.moves moves
    exact after
  | assemble place =>
    refine forall_of_place place h fun placed => ?_
    rwa [Project.assemble_registry]
  | @create sources document r added =>
    intro q member
    rcases List.mem_append.mp member with old | new
    · exact h q old
    · rw [List.mem_singleton.mp new, Project.settle_registry]
      have after := (Registry.placed_blank w.delay).addDocument added
      exact after
  | attend current? assembler => exact h
  | dispose place => exact forall_of_place place h id

theorem Steps.placed (run : Steps w attempts w') (h : w.Placed) : w'.Placed := by
  induction run with
  | refl => exact h
  | tail _ step ih => exact step.placed ih

end Workspace

end AsmServer
