import AsmServer.Proofs.Project.Requests
import AsmServer.Proofs.Workspace.Coverage

/-!
# The results of the projects are never stale

An assembler that answers by the request alone gives every project a result to be compared
with: the answer to what the project would ask now. A turn settles every change of a text,
and a replaced assembler is asked at once for every project, so that no operation leaves a
project with the answer to an older question or of an older assembler. Where a project has
nothing to ask, because its entry file has no text or its includes run in a cycle, the
operation leaves the result as it was.
-/

namespace AsmServer

/-- The assembler answers by the request alone. -/
def Assembler.Pure (assembler : Assembler) : Prop :=
  ∀ n q, assembler.answer n q = assembler.answer 0 q

namespace Project

variable {sources : Sources} {asm : Request → AssemblyResult} {p p' : Project}

theorem abiding_answers : Abiding (Answers asm) :=
  ⟨fun _ _ => answers_settle, fun _ _ => answers_assemble⟩

/-- Turns keep the result current. -/
theorem Turned.current {delay : Nat} (turned : Turned sources (Answers asm) p p')
    (lawful : p.Lawful delay) (current : p.Current asm) : p'.Current asm := by
  cases turned with
  | kept => exact current
  | settled moves start => exact current_settle_of_moves start current lawful.drained moves
  | assembled start => exact current_assemble start

/-- A project with nothing to ask after a change has the result from before. -/
theorem Turned.result?_of_error {B : Bench → Prop} {error : ProjectError}
    (turned : Turned sources B p p') (failed : p'.request = .error error) :
    p'.result? = p.result? := by
  cases turned with
  | kept => rfl
  | settled _ _ => exact result?_settle_of_error failed
  | assembled _ =>
    rw [request_assemble] at failed
    rw [assemble_of_error failed]

theorem Turned.id {B : Bench → Prop} (turned : Turned sources B p p') : p'.id = p.id := by
  cases turned with
  | kept => rfl
  | settled _ _ => exact settle_id
  | assembled _ => exact assemble_id

end Project

namespace Workspace

variable {sources : Sources} {asm : Request → AssemblyResult} {assembler : Assembler}
  {operation : Operation} {w w' : Workspace}

/-- An assembler that comes into use answers by the request alone. -/
def Operation.Pure : Operation → Prop
  | replace assembler => assembler.Pure
  | _ => True

/-- The assembler in use after operations. -/
def latest (assembler : Assembler) (operations : List (Sources × Operation)) : Assembler :=
  operations.foldl (fun assembler (_, operation) => operation.assembler assembler) assembler

/-- Every result is the answer of `asm` to what is to be asked now, and so will the next be. -/
structure Fresh (asm : Request → AssemblyResult) (w : Workspace) : Prop where
  lawful : w.Lawful
  answers : Project.Answers asm w.bench
  current : ∀ p ∈ w.projects, p.Current asm

theorem Turned.current (h : w.Fresh asm) (turned : Turned sources (Project.Answers asm) w w') :
    ∀ p ∈ w'.projects, p.Current asm := by
  intro q member
  rcases turned.projects with related | ⟨p, document, bench, start, added, projects⟩
  · obtain ⟨p, old, turned⟩ := mem_of_forall₂ related member
    exact turned.current (h.lawful p old) (h.current p old)
  · rw [projects] at member
    rcases List.mem_append.mp member with old | new
    · exact h.current q old
    · rw [List.mem_singleton.mp new]
      exact Project.current_addDocument start added

/-- A new assembler is asked for every project. -/
theorem current_setAssembler (pure : assembler.Pure)
    (done : w.setAssembler assembler = some w') :
    ∀ p ∈ w'.projects, p.Current (assembler.answer 0) := by
  have answers : Project.Answers (assembler.answer 0) { w.bench with assembler } := pure
  obtain ⟨projects, bench, related, -, rfl⟩ := assembled_forall₂
    (R := fun _ p' => p'.Current (assembler.answer 0)) (B := Project.Answers (assembler.answer 0))
    (fun _ _ start => ⟨Project.current_assemble start, Project.answers_assemble start⟩) answers done
  intro p member
  obtain ⟨-, -, current⟩ := mem_of_forall₂ related member
  exact current

theorem Fresh.apply (h : w.Fresh (assembler.answer 0)) (pure : operation.Pure)
    (done : operation.apply sources w = some w') :
    w'.Fresh ((operation.assembler assembler).answer 0) := by
  have answers : Project.Answers ((operation.assembler assembler).answer 0)
      { w.bench with assembler := operation.assembler w.bench.assembler } := by
    cases operation with
    | replace _ => exact pure
    | _ => exact h.answers
  have turned := operation.turned Project.abiding_answers answers done
  refine ⟨turned.lawful h.lawful, turned.bench, ?_⟩
  cases operation with
  | replace _ => exact current_setAssembler pure done
  | _ => exact turned.current h

theorem fresh_start (pure : assembler.Pure) (delay : Nat) :
    (start assembler delay).Fresh (assembler.answer 0) :=
  ⟨by simp [Lawful, start], pure, by simp [start]⟩

theorem Fresh.perform {operations : List (Sources × Operation)}
    (h : w.Fresh (assembler.answer 0)) (pure : ∀ step ∈ operations, step.2.Pure)
    (done : w.perform operations = some w') :
    w'.Fresh ((latest assembler operations).answer 0) := by
  induction operations generalizing w assembler with
  | nil =>
    cases done
    exact h
  | cons step rest ih =>
    obtain ⟨w₁, first, later⟩ := Option.bind_eq_some_iff.mp done
    exact ih (h.apply (pure step List.mem_cons_self) first)
      (fun step member => pure step (List.mem_cons_of_mem _ member)) later

/-- After any history with assemblers that answer by the request alone, every project whose
entry file has a text and whose includes can be flattened holds the answer of the assembler
in use to these. The next operation leaves the result of every project that it leaves with
nothing to ask. -/
theorem result_is_current {delay : Nat} {operations : List (Sources × Operation)}
    (pure : assembler.Pure) (replaced : ∀ step ∈ operations, step.2.Pure)
    (history : (start assembler delay).perform operations = some w) :
    (∀ n q, w.bench.assembler.answer n q = (latest assembler operations).answer 0 q) ∧
    (∀ p ∈ w.projects, ∀ entry source includes, p.registry.entryFile? = some entry →
      entry.contents? = some source → p.registry.flatten = .ok includes →
      p.result? = some ((latest assembler operations).answer 0 ⟨source, includes⟩)) ∧
    (∀ sources operation w', Operation.apply sources operation w = some w' →
      List.Forall₂ (fun p p' => p'.id = p.id ∧
        ∀ error, p'.request = .error error → p'.result? = p.result?) w.projects w'.projects ∨
      ∃ p, w'.projects = w.projects ++ [p] ∧
        ∀ error, p.request = .error error → p.result? = none) := by
  have fresh := (fresh_start pure delay).perform replaced history
  refine ⟨fresh.answers, fun p member entry source includes first loaded flat => ?_,
    fun sources operation w' done => ?_⟩
  · exact fresh.current p member _ (by simp [Project.request, first, loaded, flat])
  · have turned : Turned sources (fun _ => True) w w' :=
      operation.turned ⟨fun _ _ _ => trivial, fun _ _ _ => trivial⟩ trivial done
    rcases turned.projects with related | ⟨p, document, bench, -, added, projects⟩
    · exact .inl (related.imp fun p p' turned =>
        ⟨turned.id, fun error => turned.result?_of_error⟩)
    · obtain ⟨r, -, settled⟩ := Project.perform_eq_some_iff.mp added
      obtain ⟨rfl, -⟩ := Prod.ext_iff.mp settled
      exact .inr ⟨_, projects, fun error => Project.result?_settle_of_error⟩

/-- The registry of a first document whose text was handled at once. -/
def wholeHandled : Registry :=
  Registry.queued partStored 5 ((Registry.blank 0).add whole.uri) (.editor whole)

/-- Its text is asked about together with what it includes. -/
theorem result_of_whole : ∃ w,
    (start (.ofProgram [] none) 0).perform [(partStored, .change whole)] = some w ∧
      ∀ p ∈ w.projects, p.result? =
        some (Assembly.assemble [] none ⟨whole.text, [("a".toList, [])]⟩) := by
  obtain ⟨w, opened, p, projects, registry, -⟩ : ∃ w, (Operation.change whole).apply partStored
      (start (.ofProgram [] none) 0) = some w ∧ w.Lone wholeHandled.drained :=
    lone_change (Registry.updateFromEditor_queued (by decide +kernel) (by decide +kernel))
  have history : (start (.ofProgram [] none) 0).perform [(partStored, .change whole)] = some w := by
    simp [perform, opened]
  obtain ⟨entry, first, loaded⟩ : ∃ entry, p.registry.entryFile? = some entry ∧
      entry.contents? = some whole.text := by
    rw [registry]
    exact Option.map_eq_some_iff.mp (by decide +kernel)
  obtain ⟨includes, flat, rfl⟩ : ∃ includes, p.registry.flatten = .ok includes ∧
      includes = [("a".toList, [])] := by
    rw [registry]
    exact ⟨_, rfl, by decide +kernel⟩
  have current := (result_is_current (fun _ _ => rfl) (by simp [Operation.Pure]) history).2.1
  refine ⟨w, history, fun q member => ?_⟩
  obtain rfl : q = p := by simpa [projects] using member
  exact current q member entry whole.text _ first loaded flat

end Workspace

end AsmServer
