import AsmServer.Proofs.Project.History
import AsmServer.Workspace.Basic
import Mathlib.Data.List.Forall2

/-!
# Turns of the projects

A workspace changes by letting its projects take turns at the bench. What each turn says
about a project before and after it, the whole change says of the projects in order. A
turn is a sequence of moves of the registry, after which the project settles; so every
project of a workspace stays lawful: its registry is sound and tidy, and its reports have
been taken out.

An operation on the workspace comes to one of three things: the projects that it concerns perform
one operation of their registries, or it makes a project, or it has all projects assembled. What
is to hold of every operation is proved of these.
-/

namespace AsmServer

/-! ## Single projects -/

namespace Project

/-- A turn changes the registry by moves and settles. -/
def IsTurn (sources : Sources) (turn : Project → Bench → Option (Project × Bench)) : Prop :=
  ∀ p bench p' bench', turn p bench = some (p', bench') →
    ∃ r, Registry.Moves sources p.registry r ∧
      settle { p with registry := r } bench = (p', bench')

variable {sources : Sources} {document : Document}

/-- To perform an operation of the registry is a turn. -/
theorem isTurn_perform (operation : Registry.Operation) :
    IsTurn sources fun p bench => p.perform bench (operation.apply sources) := by
  intro p bench p' bench' done
  obtain ⟨r, changed, settled⟩ := perform_eq_some_iff.mp done
  exact ⟨r, Registry.Operation.moves changed, settled⟩

/-- What a change of the workspace does to a project, at a bench of which `B` holds. -/
inductive Turned (sources : Sources) (B : Bench → Prop) (p : Project) : Project → Prop
  | kept : Turned sources B p p
  | settled {r : Registry} {bench : Bench} (moves : Registry.Moves sources p.registry r)
      (start : B bench) : Turned sources B p (settle { p with registry := r } bench).1
  | assembled {bench : Bench} (start : B bench) : Turned sources B p (p.assemble bench).1

/-- What holds of the bench whatever projects do at it. -/
structure Abiding (B : Bench → Prop) : Prop where
  settle (p : Project) (bench : Bench) : B bench → B (p.settle bench).2
  assemble (p : Project) (bench : Bench) : B bench → B (p.assemble bench).2

/-- What holds of a project between turns. -/
structure Lawful (delay : Nat) (p : Project) : Prop where
  sound : ∃ entry, p.registry.Sound entry
  tidy : p.registry.Tidy
  regular : p.registry.debouncer.Regular
  same : p.registry.debouncer.delay = delay
  drained : p.registry.events = []

variable {delay : Nat} {p : Project} {r : Registry} {bench : Bench}

theorem lawful_settle {entry : Uri} (sound : r.Sound entry) (tidy : r.Tidy)
    (regular : r.debouncer.Regular) (same : r.debouncer.delay = delay) :
    ((settle { p with registry := r } bench).1).Lawful delay := by
  refine ⟨⟨entry, ?_⟩, ?_, ?_, ?_, ?_⟩ <;> rw [settle_registry]
  · exact sound.congr rfl rfl
  · exact (Registry.tidy_congr rfl rfl).mpr tidy
  · exact regular
  · exact same

theorem Lawful.settle (h : p.Lawful delay) (moves : Registry.Moves sources p.registry r) :
    ((settle { p with registry := r } bench).1).Lawful delay := by
  obtain ⟨entry, sound⟩ := h.sound
  obtain ⟨regular, same⟩ := moves.regular h.regular
  exact lawful_settle (sound.moves moves) (h.tidy.moves sound moves) regular (same.trans h.same)

/-- Assembling changes nothing that matters here. -/
theorem Lawful.assemble (h : p.Lawful delay) : (p.assemble bench).1.Lawful delay := by
  refine ⟨?_, ?_, ?_, ?_, ?_⟩ <;> rw [assemble_registry]
  · exact h.sound
  · exact h.tidy
  · exact h.regular
  · exact h.same
  · exact h.drained

/-- Turns leave a project lawful. -/
theorem Turned.lawful {B : Bench → Prop} {p' : Project} (turned : Turned sources B p p')
    (h : p.Lawful delay) : p'.Lawful delay := by
  cases turned with
  | kept => exact h
  | settled moves _ => exact h.settle moves
  | assembled _ => exact h.assemble

/-- A new project is lawful and has its document as entry file. -/
theorem lawful_addDocument {id : ProjectId} {p' : Project} {bench' : Bench}
    (done : (empty id delay).addDocument sources bench document = some (p', bench')) :
    p'.Lawful delay ∧ p'.tracks document.uri ∧ p'.registry.entry? = some document.uri := by
  obtain ⟨r, added, settled⟩ := perform_eq_some_iff.mp done
  obtain ⟨rfl, -⟩ := Prod.ext_iff.mp settled
  have moves := Registry.updateFromEditor_moves added
  obtain ⟨sound, tidy⟩ := Registry.sound_add_first (r := (empty id delay).registry)
    (u := document.uri) rfl rfl
  obtain ⟨regular, same⟩ := moves.regular (Debouncer.regular_of_held?_none (by simp [empty]))
  have after := sound.moves moves
  refine ⟨lawful_settle after (tidy.moves sound moves) regular (same.trans (by simp [empty])),
    ?_, ?_⟩
  · rw [tracks, settle_registry, Registry.tracks_iff]
    exact after.tracked
  · rw [settle_registry]
    exact after.entry?

end Project

/-! ## All projects -/

namespace Workspace

variable {sources : Sources} {w w' : Workspace}
  {turn : Project → Bench → Option (Project × Bench)}

/-- What a turn says about a project and the bench, all turns say in order. -/
theorem eachProject_forall₂ {R : Project → Project → Prop} {B : Bench → Prop}
    (each : ∀ p bench p' bench', B bench → turn p bench = some (p', bench') → R p p' ∧ B bench')
    {projects projects' : List Project} {bench bench' : Bench} (start : B bench)
    (done : eachProject turn projects bench = some (projects', bench')) :
    List.Forall₂ R projects projects' ∧ B bench' := by
  induction projects generalizing bench projects' with
  | nil =>
    cases done
    exact ⟨.nil, start⟩
  | cons p rest ih =>
    obtain ⟨⟨p₁, bench₁⟩, first, later⟩ := Option.bind_eq_some_iff.mp done
    obtain ⟨⟨rest₂, bench₂⟩, others, same⟩ := Option.bind_eq_some_iff.mp later
    cases same
    obtain ⟨here, next⟩ := each p bench p₁ bench₁ start first
    obtain ⟨there, last⟩ := ih next others
    exact ⟨.cons here there, last⟩

/-- All turns return if each does. -/
theorem eachProject_isSome {projects : List Project} (bench : Bench)
    (each : ∀ p ∈ projects, ∀ bench, (turn p bench).isSome) :
    (eachProject turn projects bench).isSome := by
  induction projects generalizing bench with
  | nil => rfl
  | cons p rest ih =>
    obtain ⟨⟨p₁, bench₁⟩, first⟩ := Option.isSome_iff_exists.mp (each p List.mem_cons_self bench)
    obtain ⟨others, later⟩ := Option.isSome_iff_exists.mp
      (ih bench₁ fun q hq => each q (List.mem_cons_of_mem _ hq))
    simp [eachProject, first, later]

/-- Projects whose turns change nothing stay. -/
theorem eachProject_still {projects : List Project} {bench : Bench}
    (still : ∀ p ∈ projects, turn p bench = some (p, bench)) :
    eachProject turn projects bench = some (projects, bench) := by
  induction projects with
  | nil => rfl
  | cons p rest ih =>
    have others := ih fun q member => still q (List.mem_cons_of_mem _ member)
    simp [eachProject, still p List.mem_cons_self, others]

/-- One turn among others that change nothing. -/
theorem eachProject_one {before after : List Project} {p : Project} {bench : Bench}
    (still : ∀ q ∈ before ++ after, ∀ bench, turn q bench = some (q, bench)) :
    eachProject turn (before ++ p :: after) bench =
      (turn p bench).map fun (p', bench) => (before ++ p' :: after, bench) := by
  induction before with
  | nil =>
    cases turned : turn p bench with
    | none => simp [eachProject, turned]
    | some settled =>
      have others : eachProject turn after settled.2 = some (after, settled.2) :=
        eachProject_still fun q member => still q member settled.2
      simp [eachProject, turned, others]
  | cons q before ih =>
    have first := still q List.mem_cons_self bench
    have rest := ih fun q member => still q (List.mem_cons_of_mem _ member)
    cases turned : turn p bench <;> simp [eachProject, first, rest, turned]

theorem forAll_eq_some_iff : w.forAll turn = some w' ↔
    ∃ projects bench, eachProject turn w.projects w.bench = some (projects, bench) ∧
      w' = { w with projects, bench } := by
  simp only [forAll, Option.map_eq_some_iff, Prod.exists]
  exact exists_congr fun _ => exists_congr fun _ => and_congr_right fun _ => eq_comm

/-- What the turns of those that are wanted say, the change says of all projects. -/
theorem forThose_forall₂ {wanted : Project → Bool} {R : Project → Project → Prop}
    {B : Bench → Prop}
    (each : ∀ p bench p' bench', wanted p → B bench → turn p bench = some (p', bench') →
      R p p' ∧ B bench')
    (others : ∀ p, wanted p = false → R p p) (start : B w.bench)
    (done : w.forThose wanted turn = some w') :
    ∃ projects bench, List.Forall₂ R w.projects projects ∧ B bench ∧
      w' = { w with projects, bench } := by
  obtain ⟨projects, bench, turned, rfl⟩ := forAll_eq_some_iff.mp done
  obtain ⟨related, last⟩ := eachProject_forall₂ (R := R) (B := B) (fun p bench p' bench' b h => by
    by_cases want : wanted p
    · rw [if_pos want] at h
      exact each p bench p' bench' want b h
    · rw [if_neg want] at h
      cases h
      exact ⟨others p (by simpa using want), b⟩) start turned
  exact ⟨projects, bench, related, last, rfl⟩

/-- What it says about a project to be assembled, it says of all when all are. -/
theorem assembled_forall₂ {R : Project → Project → Prop} {B : Bench → Prop}
    (each : ∀ p bench, B bench → R p (p.assemble bench).1 ∧ B (p.assemble bench).2)
    (start : B w.bench) (done : w.forAll (fun p bench => some (p.assemble bench)) = some w') :
    ∃ projects bench, List.Forall₂ R w.projects projects ∧ B bench ∧
      w' = { w with projects, bench } := by
  obtain ⟨projects, bench, turned, rfl⟩ := forAll_eq_some_iff.mp done
  obtain ⟨related, last⟩ := eachProject_forall₂ (R := R) (B := B)
    (fun p bench p' bench' start turned => by
      obtain ⟨rfl, rfl⟩ := Prod.ext_iff.mp (Option.some.inj turned)
      exact each p bench start) start turned
  exact ⟨projects, bench, related, last, rfl⟩

theorem forThose_still {wanted : Project → Bool}
    (still : ∀ p ∈ w.projects, wanted p → turn p w.bench = some (p, w.bench)) :
    w.forThose wanted turn = some w := by
  have all : eachProject (fun p bench => if wanted p then turn p bench else some (p, bench))
      w.projects w.bench = some (w.projects, w.bench) := by
    refine eachProject_still fun p member => ?_
    split
    · next want => exact still p member want
    · rfl
  simp [forThose, forAll, all]

theorem forThose_one {wanted : Project → Bool} {before after : List Project} {p : Project}
    (place : w.projects = before ++ p :: after) (want : wanted p)
    (others : ∀ q ∈ before ++ after, wanted q = false) :
    w.forThose wanted turn = (turn p w.bench).map fun (p', bench) =>
      { w with projects := before ++ p' :: after, bench } := by
  simp only [forThose, forAll, place]
  rw [eachProject_one fun q member bench => by simp [others q member], if_pos want,
    Option.map_map]
  rfl

theorem forAll_eq_forThose : w.forAll turn = w.forThose (fun _ => true) turn := by
  simp [forThose]

theorem mem_of_forall₂ {R : Project → Project → Prop} {projects projects' : List Project}
    (related : List.Forall₂ R projects projects') {p' : Project} (member : p' ∈ projects') :
    ∃ p ∈ projects, R p p' := by
  induction related with
  | nil => simp at member
  | cons here _ ih =>
    rcases List.mem_cons.mp member with rfl | member
    · exact ⟨_, List.mem_cons_self, here⟩
    · obtain ⟨p, hp, h⟩ := ih member
      exact ⟨p, List.mem_cons_of_mem _ hp, h⟩

/-- What a change makes of the registries that are wanted, and what holds of the others, holds
of all registries after the turns. -/
theorem registry_forThose {wanted : Project → Bool} {Q : Registry → Prop}
    (change : Registry → Option Registry)
    (same : ∀ p bench, turn p bench = p.perform bench change)
    (each : ∀ p ∈ w.projects, wanted p → ∀ r, change p.registry = some r →
      Q { r with events := [] })
    (others : ∀ p ∈ w.projects, wanted p = false → Q p.registry)
    (done : w.forThose wanted turn = some w') : ∀ p ∈ w'.projects, Q p.registry := by
  obtain ⟨projects, bench, related, -, rfl⟩ := forThose_forall₂
    (R := fun p p' => p ∈ w.projects → Q p'.registry) (B := fun _ => True)
    (fun p bench p' bench' want _ turned => ⟨fun member => by
      rw [same] at turned
      obtain ⟨r, changed, settled⟩ := Project.perform_eq_some_iff.mp turned
      obtain ⟨rfl, -⟩ := Prod.ext_iff.mp settled
      rw [Project.settle_registry]
      exact each p member want r changed, trivial⟩)
    (fun p unwanted member => others p member unwanted) trivial done
  intro p' member
  obtain ⟨p, hp, keeps⟩ := mem_of_forall₂ related member
  exact keeps hp

/-! ## Operations -/

/-- What happens to a workspace. -/
inductive Operation where
  /-- A document was opened, or its text changed. -/
  | change (document : Document)
  | save (document : Document)
  | close (document : Document)
  /-- A file changed on the disk. -/
  | disk (uri : Uri)
  /-- A timer fires. -/
  | due (id : ProjectId) (generation : Nat)
  | flush
  /-- The assembler is replaced. -/
  | replace (assembler : Assembler)

/-- The workspace after an operation. -/
def Operation.apply (sources : Sources) (operation : Operation) (w : Workspace) :
    Option Workspace :=
  match operation with
  | change document => w.documentChanged sources document
  | save document => w.documentSaved sources document
  | close document => w.documentClosed sources document
  | disk uri => w.diskChanged sources uri
  | due id generation => (w.flushDue sources id generation).map (·.1)
  | flush => w.flushAll sources
  | replace assembler => w.setAssembler assembler

/-- A workspace at its start. -/
def start (assembler : Assembler) (delay : Nat) : Workspace := { bench := { assembler }, delay }

/-- Perform operations, one after the other, each with its own disk and open buffers. -/
def perform (w : Workspace) (operations : List (Sources × Operation)) : Option Workspace :=
  operations.foldlM (fun w (sources, operation) => operation.apply sources w) w

/-! ## What operations come to -/

/-- What an operation has the registries do. -/
def Operation.task? : Operation → Option Registry.Operation
  | change document => some (.edit document)
  | save document => some (.save document)
  | close document => some (.close document)
  | disk uri => some (.reload uri)
  | due _ generation => some (.due generation)
  | flush => some .flush
  | replace _ => none

/-- The projects that an operation concerns. -/
def Operation.concerns : Operation → Project → Bool
  | change document => (·.tracks document.uri)
  | save document => (·.tracks document.uri)
  | close document => (·.tracks document.uri)
  | disk uri => tracksClosed uri
  | due id _ => (·.id == id)
  | flush => fun _ => true
  | replace _ => fun _ => true

/-- What an operation comes to. -/
inductive Operation.Course (sources : Sources) (w : Workspace) : Operation → Workspace → Prop
  /-- The projects that it concerns have their registries do it, and then another document may
  be the current one. -/
  | turns {operation : Operation} {task : Registry.Operation} {w' : Workspace}
      (given : operation.task? = some task)
      (turned : w.forThose operation.concerns
        (fun p bench => p.perform bench (task.apply sources)) = some w')
      (current? : Option Uri) : Course sources w operation { w' with current? }
  /-- A document that no project tracks makes one. -/
  | creates {document : Document} {r : Registry} (untracked : w.tracks document.uri = false)
      (added : (Project.empty ⟨w.nextNumber⟩ w.delay).registry.addDocument sources document
        = some r) :
      Course sources w (.change document)
        { w with
          projects := w.projects ++
            [(Project.settle { Project.empty ⟨w.nextNumber⟩ w.delay with registry := r } w.bench).1]
          current? := some document.uri
          nextNumber := w.nextNumber + 1
          bench :=
            (Project.settle { Project.empty ⟨w.nextNumber⟩ w.delay with registry := r } w.bench).2 }
  /-- Every project is assembled anew. -/
  | assembles {assembler : Assembler} {w' : Workspace}
      (assembled : { w with bench := { w.bench with assembler } }.forAll
        (fun p bench => some (p.assemble bench)) = some w') :
      Course sources w (.replace assembler) w'

/-- The projects take their turns whichever document is the current one. -/
theorem forThose_attend {wanted : Project → Bool} {current? : Option Uri} :
    { w with current? }.forThose wanted turn =
      (w.forThose wanted turn).map ({ · with current? }) := by
  simp [forThose, forAll, Option.map_map, Function.comp_def]

/-- Every operation comes to one of these. -/
theorem Operation.course {operation : Operation} (done : operation.apply sources w = some w') :
    operation.Course sources w w' := by
  cases operation with
  | change document =>
    simp only [apply, documentChanged] at done
    split at done
    · rw [forThose_attend] at done
      obtain ⟨turned, turning, rfl⟩ := Option.map_eq_some_iff.mp done
      exact .turns rfl turning _
    · next untracked =>
      obtain ⟨⟨p, bench⟩, adding, same⟩ := Option.bind_eq_some_iff.mp done
      cases same
      obtain ⟨r, added, settled⟩ := Project.perform_eq_some_iff.mp adding
      obtain ⟨rfl, rfl⟩ := Prod.ext_iff.mp settled
      exact .creates (by simpa using untracked) added
  | save document =>
    rw [apply, documentSaved, forThose_attend] at done
    obtain ⟨turned, turning, rfl⟩ := Option.map_eq_some_iff.mp done
    exact .turns rfl turning _
  | close document =>
    obtain ⟨turned, turning, rfl⟩ := Option.map_eq_some_iff.mp done
    exact .turns rfl turning _
  | disk uri =>
    have turning : w.forThose (tracksClosed uri) (·.updateFromDisk sources · uri) = some w' := done
    exact .turns rfl turning w'.current?
  | due id generation =>
    obtain ⟨⟨fired, _⟩, firing, rfl⟩ := Option.map_eq_some_iff.mp done
    obtain ⟨turned, turning, same⟩ := Option.bind_eq_some_iff.mp firing
    cases same
    simp only [Project.flushDue, Project.performFlush_map] at turning
    exact .turns rfl turning _
  | flush =>
    rw [apply, flushAll, forAll_eq_forThose] at done
    simp only [Project.flushPending, Project.performFlush_map] at done
    exact .turns rfl done _
  | replace assembler => exact .assembles done

/-! ## Lawful workspaces -/

/-- Every project is lawful. -/
def Lawful (w : Workspace) : Prop := ∀ p ∈ w.projects, p.Lawful w.delay

/-- The assembler in use after an operation. -/
def Operation.assembler (assembler : Assembler) : Operation → Assembler
  | replace assembler => assembler
  | _ => assembler

/-- The projects took turns, or a new one was added, and `B` holds of the bench throughout. -/
structure Turned (sources : Sources) (B : Bench → Prop) (w w' : Workspace) : Prop where
  bench : B w'.bench
  delay : w'.delay = w.delay
  projects : List.Forall₂ (Project.Turned sources B) w.projects w'.projects ∨
    ∃ p document bench, B bench ∧
      (Project.empty ⟨w.nextNumber⟩ w.delay).addDocument sources bench document
        = some (p, w'.bench) ∧
      w'.projects = w.projects ++ [p]

variable {B : Bench → Prop}

theorem turned_forThose {wanted : Project → Bool} (abiding : Project.Abiding B)
    (isTurn : Project.IsTurn sources turn) (start : B w.bench)
    (done : w.forThose wanted turn = some w') : Turned sources B w w' := by
  obtain ⟨projects, bench, related, last, rfl⟩ := forThose_forall₂
    (R := Project.Turned sources B) (B := B)
    (fun p bench p' bench' _ start turned => by
      obtain ⟨r, moves, settled⟩ := isTurn p bench p' bench' turned
      obtain ⟨rfl, rfl⟩ := Prod.ext_iff.mp settled
      exact ⟨.settled moves start, abiding.settle _ _ start⟩)
    (fun _ _ => .kept) start done
  exact ⟨last, rfl, .inl related⟩

/-- An operation lets the projects take turns or adds a new one. -/
theorem Operation.turned {operation : Operation} (abiding : Project.Abiding B)
    (start : B { w.bench with assembler := operation.assembler w.bench.assembler })
    (done : operation.apply sources w = some w') : Turned sources B w w' := by
  cases Operation.course done with
  | @turns _ task w' given turned current? =>
    have start : B w.bench := by
      cases operation with
      | replace _ => cases given
      | _ => exact start
    have turned := turned_forThose abiding (Project.isTurn_perform task) start turned
    exact ⟨turned.bench, turned.delay, turned.projects⟩
  | @creates document r untracked added =>
    exact ⟨abiding.settle _ _ start, rfl, .inr ⟨_, document, w.bench, start,
      Project.perform_eq_some_iff.mpr ⟨r, added, rfl⟩, rfl⟩⟩
  | @assembles assembler w' assembled =>
    have start : B { w.bench with assembler } := start
    obtain ⟨projects, bench, related, last, rfl⟩ := assembled_forall₂
      (R := Project.Turned sources B)
      (fun p _ start => ⟨.assembled start, abiding.assemble _ _ start⟩) start assembled
    exact ⟨last, rfl, .inl related⟩

theorem Turned.lawful (h : w.Lawful) (turned : Turned sources B w w') : w'.Lawful := by
  intro q member
  rw [turned.delay]
  rcases turned.projects with related | ⟨p, document, bench, -, added, projects⟩
  · obtain ⟨p, old, turned⟩ := mem_of_forall₂ related member
    exact turned.lawful (h p old)
  · rw [projects] at member
    rcases List.mem_append.mp member with old | new
    · exact h q old
    · rw [List.mem_singleton.mp new]
      exact (Project.lawful_addDocument added).1

/-- A project can be made of any document. -/
theorem createProject_returns (document : Document) :
    (w.createProject sources document).isSome := by
  obtain ⟨sound, tidy⟩ := Registry.sound_add_first
    (r := (Project.empty ⟨w.nextNumber⟩ w.delay).registry) (u := document.uri) rfl rfl
  have returns : ((Project.empty ⟨w.nextNumber⟩ w.delay).registry.addDocument sources
      document).isSome := Registry.updateFromEditor_returns sources sound tidy
    (Debouncer.displaced_of_held?_none (by simp [Project.empty]))
  obtain ⟨r, added⟩ := Option.isSome_iff_exists.mp returns
  simp [createProject, Project.addDocument, Project.perform, added]

/-- A new project tracks its document. -/
theorem tracks_createProject {document : Document}
    (done : w.createProject sources document = some w') : w'.tracks document.uri := by
  obtain ⟨⟨p, bench⟩, added, same⟩ := Option.bind_eq_some_iff.mp done
  cases same
  simp [Workspace.tracks, (Project.lawful_addDocument added).2.1]

/-- Operations leave a workspace lawful. -/
theorem Lawful.apply {operation : Operation} (h : w.Lawful)
    (done : operation.apply sources w = some w') : w'.Lawful ∧ w'.delay = w.delay :=
  have turned : Turned sources (fun _ => True) w w' :=
    operation.turned ⟨fun _ _ _ => trivial, fun _ _ _ => trivial⟩ trivial done
  ⟨turned.lawful h, turned.delay⟩

theorem lawful_perform {assembler : Assembler} {delay : Nat}
    {operations : List (Sources × Operation)}
    (history : (start assembler delay).perform operations = some w) :
    w.Lawful ∧ w.delay = delay := by
  refine foldlM_preserves (P := fun w => w.Lawful ∧ w.delay = delay) ?_ history
    ⟨by simp [Lawful, start], rfl⟩
  rintro w step w' done ⟨lawful, same⟩
  obtain ⟨lawful', same'⟩ := lawful.apply done
  exact ⟨lawful', same'.trans same⟩

end Workspace

end AsmServer
