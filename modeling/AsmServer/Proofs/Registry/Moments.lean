import AsmServer.Proofs.Registry.Operations

/-!
# Edges at any moment

A moment is a registry with the tasks that are still to be done, at some point of a history:
between two operations or in the midst of one, however deep the handling of updates nests. The
disk and the buffers may be others at every step.

At each moment the files own their edges, so an update that is handled then gives its file the
edges of the new text from scratch. Each include that means an available file makes one, in the
order of the lines, unless an earlier include means the same file.
-/

namespace AsmServer

/-- The text that an update brings. -/
def Update.text? (sources : Sources) : Update → Option Text
  | .editor document => some document.text
  | .disk uri => sources.read? uri

namespace Registry

open Handling

variable {sources : Sources} {r r' : Registry} {s : Handling} {update : Update} {delay : Nat}
  {document : Document} {uri : Uri} {base name : Text} {dirs : List Text} {target : Uri}

/-! ## Moments -/

/-- A registry and its tasks at some point of a history. -/
inductive Moment (delay : Nat) : Handling → Prop
  | blank : Moment delay ⟨blank delay, []⟩
  /-- A document is tracked, the first or a further one. -/
  | track {r : Registry} (uri : Uri) (before : Moment delay ⟨r, []⟩) : Moment delay ⟨r.add uri, []⟩
  /-- A part of an operation is over. -/
  | move {sources : Sources} {r r' : Registry} (before : Moment delay ⟨r, []⟩)
      (move : Move sources r r') : Moment delay ⟨r', []⟩
  /-- The changes are handed over. -/
  | drain {r : Registry} (before : Moment delay ⟨r, []⟩) : Moment delay ⟨r.drain.2, []⟩
  /-- An update is to be handled. -/
  | handle {r : Registry} (update : Update) (before : Moment delay ⟨r, []⟩) :
      Moment delay ⟨r, [.handle update]⟩
  /-- A task is done. -/
  | step {s : Handling} (sources : Sources) (before : Moment delay s) :
      Moment delay (s.step sources)

theorem Moment.moves (before : Moment delay ⟨r, []⟩) (moves : Moves sources r r') :
    Moment delay ⟨r', []⟩ :=
  Moves.preserves (P := fun r => Moment delay ⟨r, []⟩) (fun _ _ move before => before.move move)
    moves before

/-- The registry after an operation is one of a moment. -/
theorem Moment.apply {operation : Operation} (before : Moment delay ⟨r, []⟩)
    (done : operation.apply sources r = some r') : Moment delay ⟨r', []⟩ :=
  before.moves (Operation.moves done)

/-- So is the registry after a document was tracked. -/
theorem Moment.addDocument (before : Moment delay ⟨r, []⟩)
    (done : r.addDocument sources document = some r') : Moment delay ⟨r', []⟩ :=
  (before.track document.uri).moves (updateFromEditor_moves done)

theorem Handling.forall_consistent_step (h : ∀ f ∈ s.registry.files, f.Consistent) :
    ∀ f ∈ (s.step sources).registry.files, f.Consistent := by
  obtain ⟨r, _ | ⟨task, rest⟩⟩ := s
  · exact h
  cases task with
  | handle update =>
    by_cases tracked : update.uri ∈ r.uris
    · rw [step_handle tracked]
      exact forall_consistent_renew h
    · rwa [step_handle_of_not_mem tracked]
  | discover uri =>
    by_cases tracked : uri ∈ r.uris
    · rwa [step_discover_of_mem tracked]
    · rw [step_discover tracked]
      exact forall_consistent_add h
  | finish uri => exact fun f member => h f (List.mem_of_mem_filter member)

/-- At every moment the files own their edges. -/
theorem Moment.consistent (moment : Moment delay s) : ∀ f ∈ s.registry.files, f.Consistent := by
  induction moment with
  | blank => exact fun _ member => nomatch member
  | track _ _ ih => exact forall_consistent_add ih
  | move _ move ih =>
    cases move with
    | hold _ _ _ => exact ih
    | handle done =>
      exact process_preserves (P := fun s => ∀ f ∈ s.registry.files, f.Consistent)
        (fun _ => forall_consistent_step) done ih
    | mark uri only => exact forall_consistent_mark only ih
  | drain _ ih => exact ih
  | handle _ _ ih => exact ih
  | step _ _ ih => exact forall_consistent_step ih

/-! ## What an include means -/

/-- Whether there is a file to include: it is open in the registry or in the editor, or it
exists on the disk. -/
def Available (r : Registry) (sources : Sources) (uri : Uri) : Prop :=
  (∃ f, r.find? uri = some f ∧ f.isOpen = true) ∨
    (∃ document ∈ sources.buffers, document.uri = uri) ∨
    ∃ path data, uri.platformPath = .ok path ∧ sources.disk.file? path = some data

theorem isAvailable_iff : r.isAvailable sources uri = true ↔ r.Available sources uri := by
  have opened : (r.find? uri).any (·.isOpen) = true ↔
      ∃ f, r.find? uri = some f ∧ f.isOpen = true := by
    simp [Option.any_eq_true]
  have buffered : (sources.buffers.find? uri).isSome = true ↔
      ∃ document ∈ sources.buffers, document.uri = uri := by
    simp [Buffers.find?]
  have stored : (sources.file? uri).isSome = true ↔
      ∃ path data, uri.platformPath = .ok path ∧ sources.disk.file? path = some data := by
    rw [Sources.file?]
    cases uri.platformPath <;> simp [Except.toOption, Option.isSome_iff_exists]
  rw [isAvailable, Bool.or_eq_true, Bool.or_eq_true, opened, buffered, stored, or_assoc]
  rfl

/-- What the name in an include directive means: an absolute name itself, and any other the file
in the first of the directories that has it. -/
def Means (available : Uri → Prop) (base : Text) (dirs : List Text) (name : Text) (target : Uri) :
    Prop :=
  let name := Text.slashed name
  let within (dir : Text) : Uri := .ofPath (Path.append (Path.append base dir) name)
  available target ∧
    if Path.isAbsolute name then target = .ofPath name
    else ∃ before dir after, dirs = before ++ dir :: after ∧ target = within dir ∧
      ∀ other ∈ before, ¬available (within other)

theorem resolve?_eq_some_iff :
    r.resolve? sources base dirs name = some target ↔
      Means (r.Available sources) base dirs name target := by
  rw [resolve?, candidates, Means]
  dsimp only
  by_cases absolute : Path.isAbsolute (Text.slashed name) = true
  · rw [if_pos absolute, if_pos absolute, List.find?_singleton, Option.ite_none_right_eq_some,
      isAvailable_iff, Option.some.injEq]
    constructor
    · rintro ⟨available, rfl⟩
      exact ⟨available, rfl⟩
    · rintro ⟨available, rfl⟩
      exact ⟨available, rfl⟩
  · rw [if_neg absolute, if_neg absolute, List.find?_eq_some_iff_append, isAvailable_iff]
    refine and_congr_right fun _ => ⟨?_, ?_⟩
    · rintro ⟨passed, rest, split, skipped⟩
      obtain ⟨before, behind, rfl, rfl, here⟩ := List.map_eq_append_iff.mp split
      obtain ⟨dir, after, rfl, found, -⟩ := List.map_eq_cons_iff.mp here
      refine ⟨before, dir, after, rfl, found.symm, fun other member available => ?_⟩
      simpa [isAvailable_iff.mpr available] using skipped _ (List.mem_map_of_mem member)
    · rintro ⟨before, dir, after, rfl, rfl, skipped⟩
      refine ⟨_, _, List.map_append, fun other member => ?_⟩
      obtain ⟨passed, listed, rfl⟩ := List.mem_map.mp member
      have absent := skipped passed listed
      rw [← isAvailable_iff, Bool.not_eq_true] at absent
      rw [absent]
      rfl

/-! ## Edges -/

/-- The registry in which an update finds what its file includes: the file has its new text. -/
def refreshed (r : Registry) (sources : Sources) (update : Update) : Registry :=
  r.modify update.uri (·.refresh sources update)

theorem refresh_contents? {f : TrackedFile} (same : f.uri = update.uri) :
    (f.refresh sources update).contents? = update.text? sources := by
  cases update <;> rfl

/-- Whenever an update of a tracked file is handled, its file gets the edges of the new text
from scratch, whatever its edges were. They are those that the same includes make without old
edges: one for each include whose name means an available file, with its name and range, in the
order of the includes, the first for each file. -/
theorem renew_from_scratch {agenda : List Task} (moment : Moment delay ⟨r, agenda⟩)
    (sources : Sources) (tracked : update.uri ∈ r.uris) :
    ∃ (f : TrackedFile) (target? : Text → Option Uri),
      (r.renew sources update).find? update.uri = some f ∧
      f.contents? = update.text? sources ∧
      (∀ name target, target? name = some target ↔
        Means ((r.refreshed sources update).Available sources) (baseDir update.uri)
          (Code.searchPath f.lines) name target) ∧
      f.dependencies = includeEdges target? update.uri (Code.includes f.lines) ∧
      f.dependencies = (r.refreshed sources update).edges sources { f with dependencies := [] } ∧
      r.process sources update =
        (((r.renew sources update).missing update.uri).foldlM
          (fun (r : Registry) uri => r.discover sources uri) (r.renew sources update)).map
            (·.collect.report (.changed update.uri)) := by
  obtain ⟨g, found⟩ := exists_find? tracked
  have same : g.uri = update.uri := uri_of_find? found
  have edges : (r.renewed sources update g).dependencies = _ :=
    renewed_dependencies (moment.consistent g (mem_of_find? found))
  rw [same] at edges
  refine ⟨r.renewed sources update g,
    (r.refreshed sources update).resolve? sources (baseDir update.uri)
      (Code.searchPath (g.refresh sources update).lines), ?_, refresh_contents? same,
    fun name target => resolve?_eq_some_iff, edges, ?_, ?_⟩
  · rw [find?_renew, if_pos rfl, found, Option.map_some]
  · have place : (r.renewed sources update g).uri = update.uri := renewed_uri.trans same
    rw [edges, edges_eq_includeEdges (by simp)]
    dsimp only
    rw [place]
    rfl
  · rw [process.eq_def, if_pos (tracks_iff.mpr tracked), Option.map_eq_bind]
    rfl

section reordered

/-- Two files on the disk. -/
def twoStored : Sources where
  disk := [(Path.components "/a".toList, .text []), (Path.components "/b".toList, .text [])]

/-- A version of the entry file. -/
def including (version : Int) (text : String) : Document :=
  ⟨.ofPath "/m".toList, version, text.toList⟩

/-- The registry after the entry file was opened. -/
def withoutIncludes : Registry :=
  queued twoStored 2 ((blank 0).add (.ofPath "/m".toList)) (.editor (including 1 ""))

/-- The registry after both files were included. -/
def bothIncluded : Registry :=
  queued twoStored 8 withoutIncludes (.editor (including 2 " include a\n include b"))

/-- The next version, with the includes reordered, one spelled anew and repeated, and one of a
file that does not exist. -/
def reordered : Update := .editor (including 3 " include b\n include ./a\n include a\n include c")

/-- The edges follow the new version. -/
theorem renew_reordered :
    bothIncluded.targets reordered.uri = [.ofPath "/a".toList, .ofPath "/b".toList] ∧
    Moment 0 ⟨bothIncluded, []⟩ ∧ reordered.uri ∈ bothIncluded.uris ∧
    ∃ f, (bothIncluded.renew twoStored reordered).find? reordered.uri = some f ∧
      f.dependencies = (bothIncluded.refreshed twoStored reordered).edges twoStored
        { f with dependencies := [] } ∧
      f.dependencies = [
        ⟨reordered.uri, "b".toList, .ofPath "/b".toList, .onLine 0 9 10⟩,
        ⟨reordered.uri, "./a".toList, .ofPath "/a".toList, .onLine 1 9 12⟩] := by
  have opened : (blank 0).addDocument twoStored (including 1 "") = some withoutIncludes :=
    updateFromEditor_queued (by decide +kernel) (by decide +kernel)
  have edited : (Operation.edit (including 2 " include a\n include b")).apply twoStored
      withoutIncludes = some bothIncluded := by
    rw [Operation.apply]
    exact updateFromEditor_queued (by decide +kernel) (by decide +kernel)
  have moment : Moment 0 ⟨bothIncluded, []⟩ := (Moment.blank.addDocument opened).apply edited
  have tracked : reordered.uri ∈ bothIncluded.uris := by decide +kernel
  obtain ⟨f, _, found, -, -, -, scratch, -⟩ := renew_from_scratch moment twoStored tracked
  have known : ((bothIncluded.renew twoStored reordered).find? reordered.uri).map
      (·.dependencies) = some [
        ⟨reordered.uri, "b".toList, .ofPath "/b".toList, .onLine 0 9 10⟩,
        ⟨reordered.uri, "./a".toList, .ofPath "/a".toList, .onLine 1 9 12⟩] := by
    decide +kernel
  rw [found] at known
  exact ⟨by decide +kernel, moment, tracked, f, found, scratch, Option.some.inj known⟩

end reordered

end Registry

end AsmServer
