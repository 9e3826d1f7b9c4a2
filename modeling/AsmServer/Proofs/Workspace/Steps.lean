import AsmServer.Proofs.Project.Attempts
import AsmServer.Proofs.Workspace.Turns

/-!
# Steps of a workspace

Within an operation the projects take their turns one after the other, at a bench on which
the reports pile up. A step is one turn of one project, with the attempts to assemble that
are made in it; every operation is a sequence of steps, and so are several operations
before which nothing was read from the bench.
-/

namespace AsmServer

namespace Workspace

variable {sources : Sources} {w w' w'' : Workspace} {attempts more : List Attempt}
  {turn : Project → Bench → Option (Project × Bench)}

/-- One step, with the attempts made in it. -/
inductive Step : Workspace → List Attempt → Workspace → Prop
  /-- A project settles after moves of its registry. -/
  | settle {w : Workspace} {before after : List Project} {p : Project} {sources : Sources}
      {r : Registry} (place : w.projects = before ++ p :: after)
      (moves : Registry.Moves sources p.registry r) :
      Step w (Project.attempts { p with registry := r })
        { w with
          projects := before ++ (Project.settle { p with registry := r } w.bench).1 :: after
          bench := (Project.settle { p with registry := r } w.bench).2 }
  /-- A project is assembled. -/
  | assemble {w : Workspace} {before after : List Project} {p : Project}
      (place : w.projects = before ++ p :: after) :
      Step w [p.attempt]
        { w with
          projects := before ++ (p.assemble w.bench).1 :: after
          bench := (p.assemble w.bench).2 }
  /-- A new project settles with its first document. -/
  | create {w : Workspace} {sources : Sources} {document : Document} {r : Registry}
      (added : (Project.empty ⟨w.nextNumber⟩ w.delay).registry.addDocument sources document
        = some r) :
      Step w (Project.attempts { Project.empty ⟨w.nextNumber⟩ w.delay with registry := r })
        { w with
          projects := w.projects ++
            [(Project.settle { Project.empty ⟨w.nextNumber⟩ w.delay with registry := r } w.bench).1]
          bench :=
            (Project.settle { Project.empty ⟨w.nextNumber⟩ w.delay with registry := r } w.bench).2
          nextNumber := w.nextNumber + 1 }
  /-- Another document is the current one, or another assembler is used. -/
  | attend (w : Workspace) (current? : Option Uri) (assembler : Assembler) :
      Step w [] { w with current?, bench := { w.bench with assembler } }
  /-- A project drops the update held back. -/
  | dispose {w : Workspace} {before after : List Project} {p : Project}
      (place : w.projects = before ++ p :: after) :
      Step w [] { w with projects := before ++ p.dispose :: after }

/-- Steps one after the other, with the attempts made in all of them, the oldest first. -/
inductive Steps (w : Workspace) : List Attempt → Workspace → Prop
  | refl : Steps w [] w
  | tail {w' w'' : Workspace} {attempts more : List Attempt} (run : Steps w attempts w')
      (step : Step w' more w'') : Steps w (attempts ++ more) w''

theorem Step.steps (step : Step w attempts w') : Steps w attempts w' := .tail .refl step

theorem Steps.trans (first : Steps w attempts w') (second : Steps w' more w'') :
    Steps w (attempts ++ more) w'' := by
  induction second with
  | refl =>
    rw [List.append_nil]
    exact first
  | tail run step ih =>
    rw [← List.append_assoc]
    exact .tail ih step

/-- What holds of all projects still holds if it does of the one that changed. -/
theorem forall_of_place {before after projects : List Project} {p p' : Project}
    {Q : Project → Prop} (place : projects = before ++ p :: after) (h : ∀ q ∈ projects, Q q)
    (changed : Q p → Q p') : ∀ q ∈ before ++ p' :: after, Q q := by
  intro q member
  rw [List.mem_append, List.mem_cons] at member
  rcases member with old | rfl | old
  · exact h q (by simp [place, old])
  · exact changed (h p (by simp [place]))
  · exact h q (by simp [place, old])

/-! ## Identities and reports -/

/-- Projects keep their identities and their order; a new one comes last. -/
theorem Step.ids (step : Step w attempts w') :
    w.projects.map (·.id) <+: w'.projects.map (·.id) := by
  cases step with
  | settle place moves => simp [place, Project.settle_id]
  | assemble place => simp [place, Project.assemble_id]
  | create added => simp
  | attend current? assembler => simp
  | dispose place => simp [place, Project.dispose]

theorem Steps.ids (run : Steps w attempts w') :
    w.projects.map (·.id) <+: w'.projects.map (·.id) := by
  induction run with
  | refl => exact List.prefix_rfl
  | tail _ step ih => exact ih.trans step.ids

/-- The reports of projects tell of these attempts. -/
structure Tells (w : Workspace) (attempts : List Attempt) (reports : List ProjectEvent) : Prop where
  told : reports.filterMap ProjectEvent.attempt? = attempts.filter Attempt.isReported
  own : ∀ event ∈ reports, event.project ∈ w.projects.map (·.id)

/-- A failure that is reported was attempted. -/
theorem Tells.mem_of_failed {reports : List ProjectEvent} {id : ProjectId} {error : ProjectError}
    (h : w.Tells attempts reports) (told : .failed id error ∈ reports) :
    ⟨id, .error error⟩ ∈ attempts := by
  have reported : (⟨id, .error error⟩ : Attempt) ∈ attempts.filter Attempt.isReported := by
    rw [← h.told]
    exact List.mem_filterMap.mpr ⟨_, told, rfl⟩
  exact (List.mem_filter.mp reported).1

/-- A step adds reports that tell of its attempts. -/
theorem Step.tells (step : Step w attempts w') : ∃ reports, w'.Tells attempts reports ∧
    w'.bench.events = w.bench.events ++ reports := by
  cases step with
  | @settle before after p sources r place moves =>
    obtain ⟨reports, settles, events⟩ := Project.settle_settles { p with registry := r } w.bench
    exact ⟨reports, ⟨settles.told, fun event told => by simp [settles.own event told]⟩, events⟩
  | @assemble before after p place =>
    obtain ⟨reports, outcome, events⟩ := Project.assemble_outcome p w.bench
    exact ⟨reports, ⟨outcome.told, fun event told => by simp [outcome.own event told]⟩, events⟩
  | @create sources document r added =>
    obtain ⟨reports, settles, events⟩ := Project.settle_settles
      { Project.empty ⟨w.nextNumber⟩ w.delay with registry := r } w.bench
    exact ⟨reports, ⟨settles.told, fun event told => by simp [settles.own event told]⟩, events⟩
  | attend => exact ⟨[], ⟨rfl, by simp⟩, (List.append_nil _).symm⟩
  | dispose place => exact ⟨[], ⟨rfl, by simp⟩, (List.append_nil _).symm⟩

theorem Steps.tells (run : Steps w attempts w') : ∃ reports, w'.Tells attempts reports ∧
    w'.bench.events = w.bench.events ++ reports := by
  induction run with
  | refl => exact ⟨[], ⟨rfl, by simp⟩, (List.append_nil _).symm⟩
  | tail _ step ih =>
    obtain ⟨reports, ⟨told, own⟩, events⟩ := ih
    obtain ⟨more, ⟨told', own'⟩, events'⟩ := step.tells
    refine ⟨reports ++ more, ⟨?_, fun event reported => ?_⟩, ?_⟩
    · rw [List.filterMap_append, List.filter_append, told, told']
    · rcases List.mem_append.mp reported with earlier | here
      · exact step.ids.subset (own event earlier)
      · exact own' event here
    · rw [events', events, List.append_assoc]

/-- What was reported before is reported still. -/
theorem Steps.mem_events {event : ProjectEvent} (run : Steps w attempts w')
    (told : event ∈ w.bench.events) : event ∈ w'.bench.events := by
  obtain ⟨reports, -, events⟩ := run.tells
  rw [events]
  exact List.mem_append_left _ told

/-! ## Turns are steps -/

/-- A turn of a project is made of steps, wherever the project stands. -/
def IsSteps (turn : Project → Bench → Option (Project × Bench)) : Prop :=
  ∀ (w : Workspace) before p after p' bench', w.projects = before ++ p :: after →
    turn p w.bench = some (p', bench') →
    ∃ attempts, Steps w attempts { w with projects := before ++ p' :: after, bench := bench' }

theorem isSteps_of_isTurn {wanted : Project → Bool} (isTurn : Project.IsTurn sources turn) :
    IsSteps fun p bench => if wanted p then turn p bench else some (p, bench) := by
  intro w before p after p' bench' place turned
  dsimp only at turned
  split at turned
  · obtain ⟨r, moves, settled⟩ := isTurn p w.bench p' bench' turned
    obtain ⟨rfl, rfl⟩ := Prod.ext_iff.mp settled
    exact ⟨_, (Step.settle place moves).steps⟩
  · cases turned
    have same : { w with projects := before ++ p :: after, bench := w.bench } = w := by
      rw [← place]
    exact ⟨[], same ▸ .refl⟩

theorem isSteps_assemble : IsSteps fun p bench => some (p.assemble bench) := by
  intro w before p after p' bench' place turned
  obtain ⟨rfl, rfl⟩ := Prod.ext_iff.mp (Option.some.inj turned)
  exact ⟨_, (Step.assemble place).steps⟩

theorem isSteps_dispose : IsSteps fun p bench => some (p.dispose, bench) := by
  intro w before p after p' bench' place turned
  cases turned
  exact ⟨_, (Step.dispose place).steps⟩

/-- The projects behind `before` take their turns. -/
theorem steps_eachProject (isSteps : IsSteps turn) (before : List Project)
    {rest rest' : List Project} {bench' : Bench} (place : w.projects = before ++ rest)
    (done : eachProject turn rest w.bench = some (rest', bench')) :
    ∃ attempts, Steps w attempts { w with projects := before ++ rest', bench := bench' } := by
  induction rest generalizing w before rest' with
  | nil =>
    cases done
    have same : { w with projects := before ++ [], bench := w.bench } = w := by rw [← place]
    exact ⟨[], same ▸ .refl⟩
  | cons p rest ih =>
    obtain ⟨⟨p₁, bench₁⟩, first, later⟩ := Option.bind_eq_some_iff.mp done
    obtain ⟨⟨rest₂, bench₂⟩, others, same⟩ := Option.bind_eq_some_iff.mp later
    cases same
    obtain ⟨attempts, here⟩ := isSteps w before p rest p₁ bench₁ place first
    obtain ⟨more, there⟩ := ih (w := { w with projects := before ++ p₁ :: rest, bench := bench₁ })
      (before ++ [p₁]) (by simp) others
    exact ⟨attempts ++ more, here.trans (by simpa using there)⟩

theorem steps_forAll (isSteps : IsSteps turn) (done : w.forAll turn = some w') :
    ∃ attempts, Steps w attempts w' := by
  obtain ⟨projects, bench, turned, rfl⟩ := forAll_eq_some_iff.mp done
  exact steps_eachProject isSteps [] rfl turned

theorem steps_forThose {wanted : Project → Bool} (isTurn : Project.IsTurn sources turn)
    (done : w.forThose wanted turn = some w') : ∃ attempts, Steps w attempts w' :=
  steps_forAll (isSteps_of_isTurn isTurn) done

/-! ## Operations are steps -/

/-- Every operation consists of steps. -/
theorem Operation.steps (operation : Operation)
    (done : operation.apply sources w = some w') :
    ∃ attempts, Steps w attempts w' := by
  cases Operation.course done with
  | @turns _ task turned given turning current? =>
    obtain ⟨attempts, steps⟩ := steps_forThose (Project.isTurn_perform task) turning
    exact ⟨_, steps.tail (.attend turned current? turned.bench.assembler)⟩
  | @creates document r untracked added =>
    have attended := (Step.attend w (some document.uri) w.bench.assembler).steps
    exact ⟨_, attended.tail (.create added)⟩
  | @assembles assembler w' assembled =>
    have attended := (Step.attend w w.current? assembler).steps
    obtain ⟨attempts, steps⟩ := steps_forAll isSteps_assemble assembled
    exact ⟨_, attended.trans steps⟩

theorem steps_dispose : ∃ attempts, Steps w attempts w.dispose := by
  have each (projects : List Project) (bench : Bench) :
      eachProject (fun p bench => some (p.dispose, bench)) projects bench =
        some (projects.map Project.dispose, bench) := by
    induction projects with
    | nil => rfl
    | cons p rest ih => simp [eachProject, ih]
  exact steps_forAll isSteps_dispose (by simp [forAll, each, dispose])

end Workspace

end AsmServer
