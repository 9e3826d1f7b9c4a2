import AsmServer.Answer.Diagnostics
import AsmServer.Proofs.Answer.Attribution
import AsmServer.Proofs.Catalog
import AsmServer.Proofs.Project.Requests

/-!
# Where diagnostics are placed

Diagnostics are placed by the texts, the edges and the order of the tracked files. Neither
the marks of the files nor the update held back nor the reports count; these do not count
for the request either, so that both are questions about what is left of a registry
without them.

Every tracked file has its diagnostics, and no other file has.
-/

namespace AsmServer

instance : Std.LawfulEqOrd Uri where
  compare_self := Std.ReflOrd.compare_self (α := Text)
  eq_of_compare {a b} same := by
    have texts : a.text = b.text := Std.LawfulEqOrd.eq_of_compare same
    cases a
    cases b
    exact congrArg Uri.mk texts

instance : Std.TransOrd Uri where
  eq_swap {a b} := Std.OrientedOrd.eq_swap (a := a.text) (b := b.text)
  isLE_trans {a b c} := Std.TransOrd.isLE_trans (a := a.text) (b := b.text) (c := c.text)

/-! ## Marks do not count -/

namespace Registry

variable {r : Registry}

/-- What an include leads to is found without marks too. -/
theorem includedAs?_bare (name : Text) :
    r.bare.includedAs? none name = (r.includedAs? none name).map TrackedFile.unmarked := by
  have each (f : TrackedFile) :
      (f.unmarked.dependencies.find? (·.name == name)).bind (r.bare.find? ·.uri) =
        ((f.dependencies.find? (·.name == name)).bind (r.find? ·.uri)).map
          TrackedFile.unmarked := by
    simp [TrackedFile.unmarked, Option.map_bind]
  simp only [includedAs?, bare, List.findSome?_map, List.map_findSome?]
  exact congrArg (List.findSome? · r.files) (funext each)

theorem named?_bare (name? : Option Text) :
    r.bare.named? name? = (r.named? name?).map TrackedFile.unmarked := by
  cases name? with
  | none =>
    have entry : r.bare.entry? = r.entry? := rfl
    simp [named?, entryFile?, entry, Option.map_bind]
  | some name =>
    have ending : r.bare.files.find? (·.uri.endsWithPath name) =
        (r.files.find? (·.uri.endsWithPath name)).map TrackedFile.unmarked := by
      simp only [bare, List.find?_map]
      rfl
    rw [named?, includedAs?_bare, ending, ← Option.map_or]
    rfl

end Registry

namespace Diagnostic

open Catalog

variable {r r' : Registry} {result : AssemblyResult} {entry u : Uri}

theorem ofError?_bare (line : ListingLine) :
    ofError? r.bare entry line = ofError? r entry line := by
  unfold ofError?
  rw [Registry.named?_bare]
  cases r.named? line.file? <;> rfl

/-- Marks do not count for diagnostics. -/
theorem perFile_bare : perFile r.bare result = perFile r result := by
  have entry : r.bare.entry? = r.entry? := rfl
  simp only [perFile, ofResult, entry, Registry.uris_bare]
  simp only [show ofError? r.bare = ofError? r from funext fun _ => funext ofError?_bare]

theorem perFile_congr (same : r'.bare = r.bare) : perFile r' result = perFile r result := by
  rw [← perFile_bare, same, perFile_bare]

/-! ## Which files have diagnostics -/

theorem sorted_perFile : (perFile r result).Sorted := by
  unfold perFile
  split
  · exact sorted_ofList _
  · generalize ofResult r _ result = placed
    induction placed using List.reverseRecOn with
    | nil => exact sorted_ofList _
    | append_singleton rest last ih =>
      rw [List.foldl_append]
      exact ih.alter

/-- Only tracked files get diagnostics. -/
theorem mem_uris_of_mem_ofResult (tracked : entry ∈ r.uris) {placed : Uri × Diagnostic}
    (h : placed ∈ ofResult r entry result) : placed.1 ∈ r.uris := by
  rcases List.mem_append.mp h with listed | silent
  · obtain ⟨line, -, made⟩ := List.mem_filterMap.mp listed
    obtain ⟨message, -, rfl⟩ := Option.map_eq_some_iff.mp made
    split
    · next file named => exact Registry.uri_mem_uris (Registry.mem_of_named? named)
    · exact tracked
  · split at silent
    · rw [List.mem_singleton.mp silent]
      exact tracked
    · cases silent

theorem mem_keys_foldl_addTo {placed : List (Uri × Diagnostic)}
    {catalog : Catalog Uri (List Diagnostic)} (sorted : catalog.Sorted) :
    u ∈ (placed.foldl addTo catalog).keys ↔ u ∈ catalog.keys ∨ u ∈ placed.map (·.1) := by
  induction placed generalizing catalog with
  | nil => simp
  | cons first rest ih =>
    have one : u ∈ (addTo catalog first).keys ↔ u ∈ catalog.keys ∨ u = first.1 := by
      simp only [← find?_isSome_iff_mem_keys, addTo, find?_alter sorted]
      by_cases here : u = first.1 <;> simp [here]
    have after : (addTo catalog first).Sorted := sorted.alter
    rw [List.foldl_cons, ih after, one, List.map_cons, List.mem_cons, or_assoc]

/-- The catalog before any error is placed. -/
def clear (uris : List Uri) : Catalog Uri (List Diagnostic) :=
  .ofList (uris.map fun uri => (uri, []))

theorem sorted_clear (uris : List Uri) : (clear uris).Sorted := sorted_ofList _

theorem perFile_eq_foldl (first : r.entry? = some entry) :
    perFile r result = (ofResult r entry result).foldl addTo (clear r.uris) := by
  simp only [perFile, first, clear]

@[simp] theorem mem_keys_clear {uris : List Uri} : u ∈ (clear uris).keys ↔ u ∈ uris := by
  simp [← find?_isSome_iff_mem_keys, clear, find?_ofList]

theorem find?_clear {uris : List Uri} (tracked : u ∈ uris) :
    Catalog.find? u (clear uris) = some [] := by
  obtain ⟨placed, found⟩ : ∃ placed, (uris.map fun uri => (uri, ([] : List Diagnostic))).find?
      (·.1 = u) = some placed :=
    Option.isSome_iff_exists.mp (by simpa using tracked)
  obtain ⟨_, -, rfl⟩ := List.mem_map.mp (List.mem_of_find?_eq_some found)
  rw [clear, find?_ofList, found, Option.map_some]

/-- The tracked files have diagnostics, and no others. -/
theorem mem_keys_perFile (first : r.entry? = some entry) (tracked : entry ∈ r.uris)
    (result : AssemblyResult) : u ∈ (perFile r result).keys ↔ u ∈ r.uris := by
  rw [perFile_eq_foldl first, mem_keys_foldl_addTo (sorted_clear _), mem_keys_clear]
  refine or_iff_left_of_imp fun placed => ?_
  obtain ⟨entry, member, rfl⟩ := List.mem_map.mp placed
  exact mem_uris_of_mem_ofResult tracked member

/-! ## What diagnostics are made for -/

variable {f : TrackedFile} {diagnostic : Diagnostic} {diagnostics : List Diagnostic}

/-- The diagnostics that are placed in a file, in order. -/
def placedIn (u : Uri) (placed : List (Uri × Diagnostic)) : List Diagnostic :=
  (placed.filter (·.1 = u)).map (·.2)

/-- A file has the diagnostics that it had and those that are placed in it. -/
theorem find?_foldl_addTo {placed : List (Uri × Diagnostic)}
    {catalog : Catalog Uri (List Diagnostic)} {old : List Diagnostic} (sorted : catalog.Sorted)
    (known : Catalog.find? u catalog = some old) :
    Catalog.find? u (placed.foldl addTo catalog) = some (old ++ placedIn u placed) := by
  induction placed generalizing catalog old with
  | nil => simpa [placedIn] using known
  | cons first rest ih =>
    have after : (addTo catalog first).Sorted := sorted.alter
    by_cases here : first.1 = u
    · have added : Catalog.find? u (addTo catalog first) = some (old ++ [first.2]) := by
        rw [addTo, find?_alter sorted, if_pos here.symm, here, known, Option.getD_some]
      simpa [placedIn, here] using ih after added
    · have same : Catalog.find? u (addTo catalog first) = some old := by
        rw [addTo, find?_alter sorted, if_neg (Ne.symm here), known]
      simpa [placedIn, here] using ih after same

/-- A tracked file has the diagnostics that are placed in it. -/
theorem find?_perFile (first : r.entry? = some entry) (tracked : u ∈ r.uris) :
    Catalog.find? u (perFile r result) = some (placedIn u (ofResult r entry result)) := by
  rw [perFile_eq_foldl first, find?_foldl_addTo (sorted_clear _) (find?_clear tracked),
    List.nil_append]

/-- The diagnostics of a file are those placed there. -/
theorem find?_perFile_eq_some_iff (first : r.entry? = some entry) (tracked : entry ∈ r.uris) :
    Catalog.find? u (perFile r result) = some diagnostics ↔
      u ∈ r.uris ∧ diagnostics = placedIn u (ofResult r entry result) := by
  constructor
  · intro found
    have known : u ∈ r.uris := (mem_keys_perFile first tracked result).mp
      (find?_isSome_iff_mem_keys.mp (Option.isSome_of_mem found))
    rw [find?_perFile first known] at found
    exact ⟨known, (Option.some.inj found).symm⟩
  · rintro ⟨known, rfl⟩
    exact find?_perFile first known

theorem mem_ofResult_of_find? (first : r.entry? = some entry) (tracked : entry ∈ r.uris)
    (found : Catalog.find? u (perFile r result) = some diagnostics)
    (member : diagnostic ∈ diagnostics) : (u, diagnostic) ∈ ofResult r entry result := by
  obtain ⟨-, rfl⟩ := (find?_perFile_eq_some_iff first tracked).mp found
  obtain ⟨⟨_, _⟩, listed, rfl⟩ := List.mem_map.mp member
  obtain ⟨listed, same⟩ := List.mem_filter.mp listed
  rwa [← of_decide_eq_true same]

/-- The diagnostic is made for this text: it spans a part of one of its lines, or marks the start
of the document. -/
def IsFor (text : Text) (diagnostic : Diagnostic) : Prop :=
  diagnostic.range = {} ∨ ∃ line, diagnostic.range =
    .onLine line (span (((Text.lines text)[line]?).getD []) diagnostic.message).1
      (span (((Text.lines text)[line]?).getD []) diagnostic.message).2

theorem isFor_inFile {text : Text} (loaded : f.contents? = some text) (number : Nat)
    (message : Text) : IsFor text (inFile f number message) := by
  have lines : f.lines = Text.lines text := by simp [TrackedFile.lines, loaded]
  refine .inr ⟨number - 1, ?_⟩
  rw [← lines]
  rfl

/-- The diagnostics of a file are made for its text. -/
theorem isFor_of_find? {text : Text} (sound : r.Sound entry) (member : f ∈ r.files)
    (loaded : f.contents? = some text)
    (found : Catalog.find? f.uri (perFile r result) = some diagnostics) :
    ∀ diagnostic ∈ diagnostics, IsFor text diagnostic := by
  intro diagnostic listed
  have placed := mem_ofResult_of_find? sound.entry? sound.tracked found listed
  rcases List.mem_append.mp placed with placed | silent
  · obtain ⟨line, -, made⟩ := List.mem_filterMap.mp placed
    obtain ⟨message, -, same⟩ := Option.map_eq_some_iff.mp made
    split at same
    · next file named =>
      obtain ⟨uri, rfl⟩ := Prod.ext_iff.mp same
      have own : file = f := List.inj_on_of_nodup_map sound.once (Registry.mem_of_named? named)
        member uri
      exact isFor_inFile (own ▸ loaded) _ _
    · obtain ⟨-, rfl⟩ := Prod.ext_iff.mp same
      exact .inl rfl
  · split at silent
    · obtain ⟨-, rfl⟩ := Prod.ext_iff.mp (List.mem_singleton.mp silent)
      exact .inl rfl
    · cases silent

end Diagnostic

end AsmServer
