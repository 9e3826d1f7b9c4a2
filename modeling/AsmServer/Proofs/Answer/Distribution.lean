import AsmServer.Proofs.Answer.Diagnostics
import AsmServer.Proofs.Answer.Spans
import Mathlib.Data.List.Forall2

/-!
# How errors are distributed

The listed errors of a result are distributed over the tracked files: each makes one diagnostic
of the file that its name leads to, or of the entry file if the name leads nowhere, and the
diagnostics of a file keep the order of the listing. A failure without any listed error makes
one diagnostic of the entry file. So as many diagnostics are shown as errors are listed, or one
for a silent failure.
-/

namespace AsmServer

namespace Diagnostic

open Catalog

variable {r : Registry} {result : AssemblyResult} {entry u : Uri}

/-! ## Adding to a catalog -/

/-- The diagnostics of all files. -/
def shown (catalog : Catalog Uri (List Diagnostic)) : List Diagnostic := catalog.flatMap (·.2)

theorem length_shown_addTo (catalog : Catalog Uri (List Diagnostic)) (placed : Uri × Diagnostic) :
    (shown (addTo catalog placed)).length = (shown catalog).length + 1 := by
  unfold addTo shown
  induction catalog with
  | nil => rfl
  | cons first rest ih =>
    unfold alter
    split
    · simp
    · simp only [List.flatMap_cons, List.length_append, Option.getD_some, List.length_singleton]
      omega
    · simp only [List.flatMap_cons, List.length_append, ih]
      omega

theorem length_shown_foldl_addTo (catalog : Catalog Uri (List Diagnostic))
    (placed : List (Uri × Diagnostic)) :
    (shown (placed.foldl addTo catalog)).length = (shown catalog).length + placed.length := by
  induction placed generalizing catalog with
  | nil => rfl
  | cons first rest ih =>
    rw [List.foldl_cons, ih, length_shown_addTo, List.length_cons]
    omega

theorem shown_clear (uris : List Uri) : shown (clear uris) = [] := by
  refine List.flatMap_eq_nil_iff.mpr ?_
  rintro ⟨u, diagnostics⟩ member
  have tracked : u ∈ uris := mem_keys_clear.mp (List.mem_map_of_mem (f := (·.1)) member)
  have found : Catalog.find? u (clear uris) = some diagnostics :=
    (sorted_clear uris).find?_eq_some_iff.mpr member
  exact (Option.some.inj ((find?_clear tracked).symm.trans found)).symm

/-! ## The diagnostics of a result -/

/-- The file that a listed error is shown in. -/
def home (r : Registry) (entry : Uri) (line : ListingLine) : Uri :=
  ((r.named? line.file?).map (·.uri)).getD entry

/-- The diagnostic tells of this error: at its line, or at the start of the document if the
error is in no tracked file. -/
def Tells (r : Registry) (line : ListingLine) (diagnostic : Diagnostic) : Prop :=
  ∃ message, line.error? = some message ∧
    match r.named? line.file? with
    | some _ => diagnostic.message = message ∧ diagnostic.range.start.line = line.number - 1
    | none => message <:+ diagnostic.message ∧ diagnostic.range = {}

/-- The range is on one line and does not end before it starts. -/
def OneLine (diagnostic : Diagnostic) : Prop :=
  diagnostic.range.start.line = diagnostic.range.stop.line ∧
    diagnostic.range.start.column ≤ diagnostic.range.stop.column

/-- The assembler failed without an error in its listing. -/
def Silent (result : AssemblyResult) : Prop := result.success = false ∧ result.errors = []

instance (result : AssemblyResult) : Decidable (Silent result) :=
  inferInstanceAs (Decidable (_ ∧ _))

/-- A listed error has one diagnostic, which tells of it and is placed in its file. -/
theorem exists_ofError? (r : Registry) (entry : Uri) {line : ListingLine}
    (listed : line ∈ result.errors) :
    ∃ diagnostic, ofError? r entry line = some (home r entry line, diagnostic) ∧
      Tells r line diagnostic ∧ OneLine diagnostic := by
  obtain ⟨message, given⟩ := Option.isSome_iff_exists.mp (List.mem_filter.mp listed).2
  cases named : r.named? line.file? with
  | some file =>
    refine ⟨inFile file line.number message, by simp [ofError?, given, named, home],
      ⟨message, given, ?_⟩, rfl, (span_within _ _).1⟩
    rw [named]
    exact ⟨rfl, rfl⟩
  | none =>
    refine ⟨elsewhere line message, by simp [ofError?, given, named, home],
      ⟨message, given, ?_⟩, rfl, Nat.le_refl _⟩
    rw [named]
    refine ⟨?_, rfl⟩
    unfold elsewhere
    cases line.file? with
    | none => exact List.suffix_rfl
    | some name => exact List.suffix_append _ _

/-- What is placed for a listed error is in its file, tells of it and is on one line. -/
def PlacedFor (r : Registry) (entry : Uri) (line : ListingLine) (placed : Uri × Diagnostic) :
    Prop :=
  placed.1 = home r entry line ∧ Tells r line placed.2 ∧ OneLine placed.2

/-- Errors are placed one by one. -/
theorem forall₂_ofError? {lines : List ListingLine}
    (listed : ∀ line ∈ lines, line ∈ result.errors) :
    List.Forall₂ (PlacedFor r entry) lines (lines.filterMap (ofError? r entry)) := by
  induction lines with
  | nil => exact .nil
  | cons line rest ih =>
    obtain ⟨diagnostic, made, tells, oneLine⟩ :=
      exists_ofError? r entry (listed line List.mem_cons_self)
    rw [List.filterMap_cons_some made]
    exact .cons ⟨rfl, tells, oneLine⟩
      (ih fun line member => listed line (List.mem_cons_of_mem _ member))

theorem forall₂_placedIn {lines : List ListingLine} {placed : List (Uri × Diagnostic)}
    (each : List.Forall₂ (PlacedFor r entry) lines placed) :
    List.Forall₂ (Tells r) (lines.filter (home r entry · = u)) (placedIn u placed) := by
  rw [placedIn, List.forall₂_map_right_iff]
  have kept := List.rel_filter (p := (decide <| home r entry · = u)) (q := (decide <| ·.1 = u))
    (R := PlacedFor r entry) (by rintro line placed ⟨same, -⟩; simp [same]) each
  exact kept.imp fun _ _ placed => placed.2.1

theorem ofResult_eq : ofResult r entry result =
    result.errors.filterMap (ofError? r entry) ++
      if Silent result then [(entry, silentFailure result)] else [] := by
  have silent : (!result.success && result.errors.isEmpty) = true ↔ Silent result := by
    simp [Silent]
  rw [ofResult, if_congr silent rfl rfl]

theorem oneLine_of_mem_ofResult {placed : Uri × Diagnostic}
    (member : placed ∈ ofResult r entry result) : OneLine placed.2 := by
  rw [ofResult_eq] at member
  rcases List.mem_append.mp member with listed | silent
  · obtain ⟨line, listed, made⟩ := List.mem_filterMap.mp listed
    obtain ⟨diagnostic, same, -, oneLine⟩ := exists_ofError? r entry listed
    obtain rfl : (_, diagnostic) = placed := Option.some.inj (same.symm.trans made)
    exact oneLine
  · split at silent
    · rw [List.mem_singleton.mp silent]
      exact ⟨rfl, Nat.le_refl _⟩
    · cases silent

theorem placedIn_ofResult : placedIn u (ofResult r entry result) =
    placedIn u (result.errors.filterMap (ofError? r entry)) ++
      if Silent result ∧ u = entry then [silentFailure result] else [] := by
  rw [ofResult_eq, placedIn, List.filter_append, List.map_append]
  by_cases silent : Silent result
  · by_cases here : u = entry
    · simp [placedIn, silent, here]
    · simp [placedIn, silent, here, Ne.symm here]
  · simp [placedIn, silent]

/-- The errors of a result are distributed over the files of a registry. -/
structure Distributed (r : Registry) (entry : Uri) (result : AssemblyResult)
    (catalog : Catalog Uri (List Diagnostic)) : Prop where
  /-- No file has two lists. -/
  sorted : catalog.Sorted
  /-- The tracked files have lists, and no others. -/
  tracked : ∀ u, u ∈ catalog.keys ↔ u ∈ r.uris
  /-- There is one diagnostic for each error, or one for a silent failure. -/
  conserved : (shown catalog).length = result.errors.length + if Silent result then 1 else 0
  /-- The list of a file tells of the errors in it, in the order of the listing. The list of the
  entry file also tells of a silent failure. -/
  ordered : ∀ u diagnostics, Catalog.find? u catalog = some diagnostics → ∃ told,
    diagnostics = told ++ (if Silent result ∧ u = entry then [silentFailure result] else []) ∧
      List.Forall₂ (Tells r) (result.errors.filter (home r entry · = u)) told
  /-- Every range is on one line. -/
  oneLine : ∀ diagnostic ∈ shown catalog, OneLine diagnostic

/-- In a registry with an entry file the errors of every result are distributed over the tracked
files: none is lost, and none is shown twice. -/
theorem distributed_perFile {file : TrackedFile} (first : r.entryFile? = some file)
    (result : AssemblyResult) : Distributed r file.uri result (perFile r result) := by
  obtain ⟨entry, known, found⟩ := Option.bind_eq_some_iff.mp first
  obtain rfl : file.uri = entry := Registry.uri_of_find? found
  have tracked : file.uri ∈ r.uris := Registry.uri_mem_uris (Registry.mem_of_find? found)
  have each : List.Forall₂ (PlacedFor r file.uri) result.errors
      (result.errors.filterMap (ofError? r file.uri)) :=
    forall₂_ofError? fun _ member => member
  refine ⟨sorted_perFile, fun u => mem_keys_perFile known tracked result, ?_, ?_, ?_⟩
  · rw [perFile_eq_foldl known, length_shown_foldl_addTo, shown_clear, ofResult_eq,
      List.length_append, ← each.length_eq]
    split <;> simp
  · intro u diagnostics here
    obtain ⟨-, rfl⟩ := (find?_perFile_eq_some_iff known tracked).mp here
    exact ⟨_, placedIn_ofResult, forall₂_placedIn each⟩
  · intro diagnostic member
    obtain ⟨⟨u, diagnostics⟩, listed, here⟩ := List.mem_flatMap.mp member
    exact oneLine_of_mem_ofResult (mem_ofResult_of_find? known tracked
      (sorted_perFile.find?_eq_some_iff.mpr listed) here)

/-- An error in the entry file, one in a file that is tracked and one in a file that is not. -/
def scattered : AssemblyResult where
  listing? := some [
    { number := 1, error? := some "x".toList },
    { number := 2 },
    { number := 3, file? := some "d/b".toList, error? := some "y".toList },
    { number := 4, file? := some "e".toList, error? := some "z".toList }]

/-- The three errors make three diagnostics, though the assembler failed too. -/
theorem scattered_errors_are_distributed : ∃ file, climbingFiles.entryFile? = some file ∧
    (shown (perFile climbingFiles scattered)).length = 3 ∧
    Catalog.find? (.ofPath "/p/d/b".toList) (perFile climbingFiles scattered) =
      some [{ range := .onLine 2 0 0, message := "y".toList }] := by
  obtain ⟨file, first⟩ : ∃ file, climbingFiles.entryFile? = some file :=
    Option.isSome_iff_exists.mp (by decide +kernel)
  refine ⟨file, first, ?_, by decide +kernel⟩
  rw [(distributed_perFile first scattered).conserved]
  decide

end Diagnostic

end AsmServer
