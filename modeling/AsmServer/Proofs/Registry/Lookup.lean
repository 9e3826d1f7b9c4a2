import AsmServer.Workspace.Update
import Mathlib.Data.List.Nodup

/-!
# Lookups in a registry

Every question about a registry goes through `find?`, so each single change comes with
the lookup that it makes. A registry in which no URI is tracked twice is determined by
its lookups: a file is tracked exactly when it is found under its own URI.

Reports and the debouncer are no part of any lookup.
-/

namespace AsmServer

namespace Registry

variable {r : Registry} {u v : Uri} {f : TrackedFile}

/-! ## Tracked files -/

theorem uri_of_find? (h : r.find? u = some f) : f.uri = u := by
  simpa using List.find?_some h

theorem mem_of_find? (h : r.find? u = some f) : f ∈ r.files :=
  List.mem_of_find?_eq_some h

@[simp] theorem tracks_iff : r.tracks u = true ↔ u ∈ r.uris := by
  simp [tracks, find?, uris, List.find?_isSome]

@[simp] theorem tracks_eq_false : r.tracks u = false ↔ u ∉ r.uris := by
  rw [← tracks_iff, Bool.not_eq_true]

theorem uri_mem_uris (h : f ∈ r.files) : f.uri ∈ r.uris := List.mem_map_of_mem h

theorem find?_eq_none : r.find? u = none ↔ u ∉ r.uris := by
  rw [← tracks_iff, tracks, Option.isSome_iff_ne_none, not_not]

theorem exists_find? (h : u ∈ r.uris) : ∃ f, r.find? u = some f :=
  Option.isSome_iff_exists.mp (tracks_iff.mpr h)

/-- A file is found under its own URI when no URI is tracked twice. -/
theorem find?_of_mem (once : r.uris.Nodup) (h : f ∈ r.files) : r.find? f.uri = some f := by
  obtain ⟨g, hg⟩ := exists_find? (uri_mem_uris h)
  have same : g = f :=
    List.inj_on_of_nodup_map once (mem_of_find? hg) h (uri_of_find? hg)
  rw [hg, same]

theorem find?_eq_some_iff (once : r.uris.Nodup) :
    r.find? u = some f ↔ f ∈ r.files ∧ f.uri = u := by
  constructor
  · intro h
    exact ⟨mem_of_find? h, uri_of_find? h⟩
  · rintro ⟨h, rfl⟩
    exact find?_of_mem once h

theorem targets_of_find? (h : r.find? u = some f) : r.targets u = f.targets := by
  simp [targets, h]

theorem targets_of_not_mem (h : u ∉ r.uris) : r.targets u = [] := by
  simp [targets, find?_eq_none.mpr h]

/-! ## Reports and the debouncer -/

@[simp] theorem report_files (e : FileEvent) : (r.report e).files = r.files := rfl

@[simp] theorem entry?_report (e : FileEvent) : entry? (r.report e) = r.entry? := rfl

@[simp] theorem report_debouncer (e : FileEvent) : (r.report e).debouncer = r.debouncer := rfl

@[simp] theorem report_events (e : FileEvent) : (r.report e).events = r.events ++ [e] := rfl

@[simp] theorem push_files (update : Update) : (r.push update).1.files = r.files := rfl

@[simp] theorem entry?_push (update : Update) : entry? (r.push update).1 = r.entry? := rfl

@[simp] theorem push_events (update : Update) : (r.push update).1.events = r.events := rfl

theorem push_debouncer (update : Update) :
    (r.push update).1.debouncer = (r.debouncer.push update.uri update).1 := rfl

theorem push_ready (update : Update) :
    (r.push update).2 = (r.debouncer.push update.uri update).2 := rfl

/-- Lookups depend on the tracked files alone. -/
theorem find?_congr {s : Registry} (h : s.files = r.files) : s.find? u = r.find? u := by
  simp [find?, h]

theorem uris_congr {s : Registry} (h : s.files = r.files) : s.uris = r.uris := by
  simp [uris, h]

theorem targets_congr {s : Registry} (h : s.files = r.files) : s.targets u = r.targets u := by
  simp [targets, find?_congr h]

/-! ## Adding a file -/

theorem add_of_mem (h : u ∈ r.uris) : r.add u = r := by
  simp [add, h]

theorem add_files (h : u ∉ r.uris) : (r.add u).files = r.files ++ [{ uri := u }] := by
  simp [add, h]

theorem add_events (h : u ∉ r.uris) : (r.add u).events = r.events ++ [.added u] := by
  simp [add, h]

@[simp] theorem add_debouncer : (r.add u).debouncer = r.debouncer := by
  unfold add
  split <;> rfl

/-- The entry file is the first file ever added. -/
theorem entry?_add {entry : Uri} (h : r.entry? = some entry) : entry? (r.add u) = some entry := by
  unfold add
  split <;> simp [h]

theorem uris_add (h : u ∉ r.uris) : (r.add u).uris = r.uris ++ [u] := by
  simp [uris, add_files h]

theorem find?_add (h : u ∉ r.uris) :
    (r.add u).find? v = if v = u then some { uri := u } else r.find? v := by
  have lookup : (r.add u).find? v
      = (r.find? v).or (if u = v then some { uri := u } else none) := by
    simp [find?, add_files h, List.find?_append, List.find?_singleton]
  by_cases same : v = u
  · subst same
    simp [lookup, find?_eq_none.mpr h]
  · simp [lookup, same, Ne.symm same]

theorem targets_add (h : u ∉ r.uris) : (r.add u).targets v = r.targets v := by
  by_cases same : v = u
  · subst same
    rw [targets_of_not_mem h]
    simp [targets, find?_add h, TrackedFile.targets]
  · simp [targets, find?_add h, same]

/-! ## Changing a file -/

section modify

variable {change : TrackedFile → TrackedFile}

@[simp] theorem entry?_modify : entry? (r.modify u change) = r.entry? := rfl

@[simp] theorem modify_debouncer : (r.modify u change).debouncer = r.debouncer := rfl

@[simp] theorem modify_events : (r.modify u change).events = r.events := rfl

theorem uris_modify (keeps : ∀ f, (change f).uri = f.uri) :
    (r.modify u change).uris = r.uris := by
  simp only [uris, modify, List.map_map]
  refine List.map_congr_left fun f _ => ?_
  by_cases h : f.uri = u <;> simp [h, keeps]

theorem mem_modify :
    f ∈ (r.modify u change).files ↔
      ∃ g ∈ r.files, (if g.uri = u then change g else g) = f := by
  simp [modify]

theorem find?_modify (keeps : ∀ f, (change f).uri = f.uri) :
    (r.modify u change).find? v = if v = u then (r.find? v).map change else r.find? v := by
  have key : ∀ g : TrackedFile, (if g.uri = u then change g else g).uri = g.uri := fun g => by
    by_cases h : g.uri = u <;> simp [h, keeps]
  have lookup : (r.modify u change).find? v
      = (r.find? v).map fun g => if g.uri = u then change g else g := by
    simp only [find?, modify, List.find?_map]
    congr 2
    funext g
    simp [key]
  rw [lookup]
  cases h : r.find? v with
  | none => simp
  | some g =>
    have : g.uri = v := uri_of_find? h
    by_cases same : v = u <;> simp [this, same]

end modify

end Registry

end AsmServer
