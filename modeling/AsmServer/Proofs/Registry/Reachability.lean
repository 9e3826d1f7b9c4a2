import AsmServer.Proofs.Registry.Lookup
import Mathlib.Logic.Relation

/-!
# Reachability and collection

A file is reachable when a chain of edges leads to it from the entry file. The walk that
looks for unreachable files takes each file that it meets out of the files not met yet.
Its two laws are independent of any registry: what it meets has every property that the
frontier has and that edges hand on, and, with enough steps, no edge leads from a file
that was met to one that was not.

Collecting therefore keeps exactly the reachable files, and with them every edge between
them, so that the same files are reachable afterwards.
-/

namespace AsmServer

namespace Registry

variable {r : Registry} {u v entry : Uri} {f : TrackedFile}

/-- An edge of the tracked file `u` leads to `v`. -/
def Links (r : Registry) (u v : Uri) : Prop := v ∈ r.targets u

/-- A chain of edges leads from the entry file to `u`. -/
def Reachable (r : Registry) (u : Uri) : Prop :=
  ∃ entry, r.entry? = some entry ∧ Relation.ReflTransGen r.Links entry u

theorem reachable_entry (h : r.entry? = some entry) : r.Reachable entry :=
  ⟨entry, h, .refl⟩

theorem Reachable.tail (h : r.Reachable u) (link : r.Links u v) : r.Reachable v := by
  obtain ⟨entry, he, chain⟩ := h
  exact ⟨entry, he, chain.tail link⟩

/-- Every property of the entry file that edges hand on holds of each reachable file. -/
theorem Reachable.induction {P : Uri → Prop} (h : r.Reachable u)
    (start : ∀ entry, r.entry? = some entry → P entry)
    (next : ∀ u v, r.Reachable u → P u → r.Links u v → P v) : P u := by
  obtain ⟨entry, he, chain⟩ := h
  induction chain with
  | refl => exact start entry he
  | tail chain link ih => exact next _ _ ⟨entry, he, chain⟩ ih link

/-- A registry with the same entry file and at least the same edges reaches as much. -/
theorem Reachable.mono {s : Registry} (h : r.Reachable u) (same : s.entry? = r.entry?)
    (links : ∀ u v, r.Reachable u → r.Links u v → s.Links u v) : s.Reachable u :=
  h.induction (fun _ he => reachable_entry (same.trans he)) fun _ _ reached ih link =>
    ih.tail (links _ _ reached link)

/-- Reachability depends on the entry file and the tracked files alone. -/
theorem reachable_congr {s : Registry} (entry : s.entry? = r.entry?) (files : s.files = r.files) :
    s.Reachable u ↔ r.Reachable u := by
  constructor <;> intro h
  · exact h.mono entry.symm fun _ _ _ link => by rwa [Links, ← targets_congr files]
  · exact h.mono entry fun _ _ _ link => by rwa [Links, targets_congr files]

theorem mem_uris_of_links (h : r.Links u v) : u ∈ r.uris := by
  by_contra out
  simp [Links, targets_of_not_mem out] at h

/-! ## The walk -/

theorem mem_of_mem_unmetFrom {steps : Nat} {frontier : List Uri} {unmet : List TrackedFile}
    (h : f ∈ unmetFrom steps frontier unmet) : f ∈ unmet := by
  fun_induction unmetFrom steps frontier unmet with
  | case1 => exact h
  | case2 => exact h
  | case3 unmet steps uri rest found ih => exact ih h
  | case4 unmet steps uri rest file found ih => exact List.mem_of_mem_eraseP (ih h)

/-- What is met inherits every property of the frontier that edges hand on. -/
theorem of_not_mem_unmetFrom {P : Uri → Prop} {steps : Nat} {frontier : List Uri}
    {unmet : List TrackedFile} (start : ∀ u ∈ frontier, P u)
    (next : ∀ f ∈ unmet, P f.uri → ∀ v ∈ f.targets, P v)
    (hf : f ∈ unmet) (met : f ∉ unmetFrom steps frontier unmet) : P f.uri := by
  fun_induction unmetFrom steps frontier unmet with
  | case1 => exact absurd hf met
  | case2 => exact absurd hf met
  | case3 unmet steps uri rest found ih =>
    exact ih (fun u hu => start u (List.mem_cons_of_mem _ hu)) next hf met
  | case4 unmet steps uri rest file found ih =>
    have here : file.uri = uri := by simpa using List.find?_some found
    have reached : P file.uri := here ▸ start uri List.mem_cons_self
    by_cases kept : f ∈ unmet.eraseP (·.uri == uri)
    · refine ih (fun u hu => ?_) (fun g hg => next g (List.mem_of_mem_eraseP hg)) kept met
      rcases List.mem_append.mp hu with hu | hu
      · exact start u (List.mem_cons_of_mem _ hu)
      · exact next file (List.mem_of_find?_eq_some found) reached u hu
    · -- Only the file that is expanded leaves the unmet files in this step.
      have : f.uri = uri := by
        by_contra other
        exact kept ((List.mem_eraseP_of_neg (by simpa using other)).mpr hf)
      exact this ▸ here ▸ reached

/-- Edges of the files not met yet, counted with the frontier: what a walk needs. -/
def walkNeed (frontier : List Uri) (unmet : List TrackedFile) : Nat :=
  frontier.length + (unmet.flatMap (·.targets)).length

theorem length_flatMap_eraseP {p : TrackedFile → Bool} {unmet : List TrackedFile}
    (found : unmet.find? p = some f) :
    (unmet.flatMap (·.targets)).length
      = f.targets.length + ((unmet.eraseP p).flatMap (·.targets)).length := by
  induction unmet with
  | nil => simp at found
  | cons g rest ih =>
    by_cases h : p g
    · obtain rfl : g = f := by simpa [h] using found
      rw [List.eraseP_cons_of_pos h, List.flatMap_cons, List.length_append]
    · have := ih (by simpa [h] using found)
      rw [List.eraseP_cons_of_neg h]
      simp only [List.flatMap_cons, List.length_append]
      omega

theorem uri_not_mem_eraseP {unmet : List TrackedFile} (once : (unmet.map (·.uri)).Nodup) :
    u ∉ (unmet.eraseP (·.uri == u)).map (·.uri) := by
  induction unmet with
  | nil => simp
  | cons g rest ih =>
    obtain ⟨fresh, onceRest⟩ := List.nodup_cons.mp once
    by_cases h : g.uri = u
    · simpa [h] using fresh
    · rw [List.eraseP_cons_of_neg (by simpa using h)]
      simpa [Ne.symm h] using ih onceRest

/-- With enough steps nothing on the frontier is left unmet, and no edge leads from a
file that was met to one that was not. -/
theorem unmetFrom_closed {steps : Nat} {frontier : List Uri} {unmet : List TrackedFile}
    (once : (unmet.map (·.uri)).Nodup) (enough : walkNeed frontier unmet ≤ steps) :
    (∀ u ∈ frontier, u ∉ (unmetFrom steps frontier unmet).map (·.uri)) ∧
      ∀ f ∈ unmet, f.uri ∉ (unmetFrom steps frontier unmet).map (·.uri) →
        ∀ v ∈ f.targets, v ∉ (unmetFrom steps frontier unmet).map (·.uri) := by
  fun_induction unmetFrom steps frontier unmet with
  | case1 frontier unmet =>
    have : frontier = [] := List.eq_nil_of_length_eq_zero (by simp only [walkNeed] at enough; omega)
    subst this
    exact ⟨by simp, fun f hf out => absurd (List.mem_map_of_mem hf) out⟩
  | case2 steps unmet => exact ⟨by simp, fun f hf out => absurd (List.mem_map_of_mem hf) out⟩
  | case3 unmet steps uri rest found ih =>
    have absent : uri ∉ (unmetFrom steps rest unmet).map (·.uri) := by
      intro h
      obtain ⟨g, hg, same⟩ := List.mem_map.mp h
      have := List.find?_eq_none.mp found g (mem_of_mem_unmetFrom hg)
      simp [same] at this
    obtain ⟨front, closed⟩ := ih once (by simp [walkNeed] at enough ⊢; omega)
    refine ⟨fun u hu => ?_, closed⟩
    rcases List.mem_cons.mp hu with rfl | hu
    · exact absent
    · exact front u hu
  | case4 unmet steps uri rest file found ih =>
    have here : file.uri = uri := by simpa using List.find?_some found
    have onceLeft : ((unmet.eraseP (·.uri == uri)).map (·.uri)).Nodup :=
      once.sublist (List.eraseP_sublist.map _)
    obtain ⟨front, closed⟩ := ih onceLeft (by
      simp only [walkNeed, length_flatMap_eraseP found, List.length_append, List.length_cons]
        at enough ⊢
      omega)
    have absent : uri ∉ (unmetFrom steps (rest ++ file.targets)
        (unmet.eraseP (·.uri == uri))).map (·.uri) := by
      intro h
      obtain ⟨g, hg, same⟩ := List.mem_map.mp h
      exact uri_not_mem_eraseP once (List.mem_map.mpr ⟨g, mem_of_mem_unmetFrom hg, same⟩)
    refine ⟨fun u hu => ?_, fun g hg out v hv => ?_⟩
    · rcases List.mem_cons.mp hu with rfl | hu
      · exact absent
      · exact front u (List.mem_append_left _ hu)
    · by_cases kept : g ∈ unmet.eraseP (·.uri == uri)
      · exact closed g kept out v hv
      · have : g = file := by
          refine List.inj_on_of_nodup_map once hg (List.mem_of_find?_eq_some found) ?_
          by_contra other
          exact kept ((List.mem_eraseP_of_neg (by simpa [here] using other)).mpr hg)
        subst this
        exact front v (List.mem_append_right _ hv)

/-! ## Collecting -/

/-- The walk finds exactly the tracked files that are not reachable. -/
theorem mem_unreachable (once : r.uris.Nodup) (he : r.entry? = some entry) :
    u ∈ r.unreachable ↔ u ∈ r.uris ∧ ¬ r.Reachable u := by
  have unmet : r.unreachable = (unmetFrom r.walkSteps [entry] r.files).map (·.uri) := by
    simp [unreachable, he]
  have enough : walkNeed [entry] r.files ≤ r.walkSteps := Nat.le_refl _
  obtain ⟨front, closed⟩ := unmetFrom_closed once enough
  rw [← unmet] at front closed
  constructor
  · intro left
    refine ⟨?_, fun reached => ?_⟩
    · rw [unmet] at left
      obtain ⟨f, hf, rfl⟩ := List.mem_map.mp left
      exact uri_mem_uris (mem_of_mem_unmetFrom hf)
    · refine reached.induction (P := (· ∉ r.unreachable)) ?_ ?_ left
      · intro e h
        obtain rfl : entry = e := Option.some.inj (he.symm.trans h)
        exact front entry List.mem_cons_self
      · intro u v _ met link
        obtain ⟨f, hf⟩ := exists_find? (mem_uris_of_links link)
        rw [Links, targets_of_find? hf] at link
        rw [← uri_of_find? hf] at met
        exact closed f (mem_of_find? hf) met v link
  · rintro ⟨tracked, out⟩
    obtain ⟨f, hf⟩ := exists_find? tracked
    rw [unmet]
    refine List.mem_map.mpr ⟨f, ?_, uri_of_find? hf⟩
    by_contra met
    rw [← uri_of_find? hf] at out
    refine out (of_not_mem_unmetFrom (P := r.Reachable) ?_ ?_ (mem_of_find? hf) met)
    · intro v hv
      rw [List.mem_singleton.mp hv]
      exact reachable_entry he
    · intro g hg reached v hv
      refine reached.tail ?_
      rw [Links, targets_of_find? (find?_of_mem once hg)]
      exact hv

@[simp] theorem entry?_collect : r.collect.entry? = r.entry? := rfl

@[simp] theorem collect_debouncer : r.collect.debouncer = r.debouncer := rfl

theorem collect_events : r.collect.events = r.events ++ r.unreachable.map .removed := rfl

theorem collect_uris : r.collect.uris = r.uris.filter (· ∉ r.unreachable) := by
  simp [collect, uris, List.filter_map, Function.comp_def]

theorem collect_uris_nodup (once : r.uris.Nodup) : r.collect.uris.Nodup := by
  rw [collect_uris]
  exact once.filter _

section collect

variable (once : r.uris.Nodup) (he : r.entry? = some entry)

include once he

theorem mem_collect : f ∈ r.collect.files ↔ f ∈ r.files ∧ r.Reachable f.uri := by
  have : f ∈ r.collect.files ↔ f ∈ r.files ∧ f.uri ∉ r.unreachable := by simp [collect]
  rw [this, mem_unreachable once he]
  constructor
  · rintro ⟨hf, h⟩
    exact ⟨hf, by_contra fun out => h ⟨uri_mem_uris hf, out⟩⟩
  · rintro ⟨hf, reached⟩
    exact ⟨hf, fun h => h.2 reached⟩

theorem mem_collect_uris : u ∈ r.collect.uris ↔ u ∈ r.uris ∧ r.Reachable u := by
  rw [collect_uris, List.mem_filter, decide_eq_true_eq, mem_unreachable once he]
  constructor
  · rintro ⟨hu, h⟩
    exact ⟨hu, by_contra fun out => h ⟨hu, out⟩⟩
  · rintro ⟨hu, reached⟩
    exact ⟨hu, fun h => h.2 reached⟩

/-- A reachable file is found as before. -/
theorem find?_collect (reached : r.Reachable u) : r.collect.find? u = r.find? u := by
  by_cases tracked : u ∈ r.uris
  · obtain ⟨f, hf⟩ := exists_find? tracked
    rw [hf, find?_eq_some_iff (collect_uris_nodup once), mem_collect once he, uri_of_find? hf]
    exact ⟨⟨mem_of_find? hf, reached⟩, rfl⟩
  · rw [find?_eq_none.mpr tracked, find?_eq_none, mem_collect_uris once he]
    exact fun h => tracked h.1

theorem targets_collect (reached : r.Reachable u) : r.collect.targets u = r.targets u := by
  rw [targets, targets, find?_collect once he reached]

theorem links_collect : r.collect.Links u v ↔ r.Links u v ∧ r.Reachable u := by
  constructor
  · intro link
    have reached := ((mem_collect_uris once he).mp (mem_uris_of_links link)).2
    rw [Links, targets_collect once he reached] at link
    exact ⟨link, reached⟩
  · rintro ⟨link, reached⟩
    rwa [Links, targets_collect once he reached]

theorem reachable_collect : r.collect.Reachable u ↔ r.Reachable u := by
  constructor <;> intro h
  · exact h.mono rfl fun _ _ _ link => ((links_collect once he).mp link).1
  · exact h.mono rfl fun _ _ reached link => (links_collect once he).mpr ⟨link, reached⟩

end collect

end Registry

end AsmServer
