import AsmServer.Proofs.Registry.Agenda
import AsmServer.Proofs.Registry.Reachability

/-!
# Consistency of a registry

Three properties describe a registry. It is consistent when no URI is tracked twice, the
entry file is tracked and each file owns its edges, which lead to different files and
belong to a text. It is closed when every edge leads to a tracked file, and tidy when the
entry file reaches every tracked file.

Consistency survives every single step. Closedness is broken and restored within one
update: an edge may lead to a file that is still to be discovered, and the agenda owes
that discovery. Tidiness returns last, when the update drops what has become unreachable;
since edges between reachable files survive that, a registry that was closed stays so.
-/

namespace AsmServer

/-- What holds of every tracked file. -/
structure TrackedFile.Consistent (f : TrackedFile) : Prop where
  /-- The file is the parent of its edges. -/
  owned : ∀ edge ∈ f.dependencies, edge.parent = f.uri
  /-- No two edges lead to the same file. -/
  distinct : f.targets.Nodup
  /-- Every edge belongs to an include of the text and leads to what that may mean. -/
  sourced : ∀ edge ∈ f.dependencies,
    (∃ directive ∈ Code.includes f.lines, directive.name = edge.name) ∧
      edge.uri ∈ Registry.candidates (Registry.baseDir f.uri) (Code.searchPath f.lines) edge.name

/-- Without a text there are no edges. -/
theorem TrackedFile.Consistent.unloaded {f : TrackedFile} (h : f.Consistent)
    (empty : f.contents? = none) : f.dependencies = [] := by
  have blank : f.lines = [] := by simp [TrackedFile.lines, empty]
  refine List.eq_nil_iff_forall_not_mem.mpr fun edge member => ?_
  obtain ⟨⟨directive, listed, -⟩, -⟩ := h.sourced edge member
  simp [blank, Code.includes, Code.includesFrom] at listed

namespace Registry

/-- What holds of a registry with this entry file at any time, even in the midst of an
update. -/
structure Consistent (entry : Uri) (r : Registry) : Prop where
  once : r.uris.Nodup
  entry? : r.entry? = some entry
  tracked : entry ∈ r.uris
  files : ∀ f ∈ r.files, f.Consistent

/-- Every edge leads to a tracked file. -/
def Closed (r : Registry) : Prop := ∀ u v, r.Links u v → v ∈ r.uris

/-- The entry file reaches every tracked file. -/
def Tidy (r : Registry) : Prop := ∀ u ∈ r.uris, r.Reachable u

variable {sources : Sources} {r r' : Registry} {update : Update} {u v entry : Uri}
  {f : TrackedFile}

/-! ## File URIs -/

theorem isFile_ofPath (path : Text) : (Uri.ofPath path).isFile = true :=
  List.isPrefixOf_iff_prefix.mpr (List.prefix_append _ _)

theorem isFile_of_candidate {base name : Text} {searchPath : List Text}
    (h : u ∈ candidates base searchPath name) : u.isFile = true := by
  simp only [candidates] at h
  split at h
  · rw [List.mem_singleton.mp h]
    exact isFile_ofPath _
  · obtain ⟨dir, -, rfl⟩ := List.mem_map.mp h
    exact isFile_ofPath _

/-- If the entry file is named by a file URI, so is every tracked file. -/
theorem Consistent.isFile (consistent : r.Consistent entry) (tidy : r.Tidy)
    (first : entry.isFile = true) (tracked : u ∈ r.uris) : u.isFile = true := by
  refine (tidy u tracked).induction (P := fun u => u.isFile = true) (fun entry' same => ?_)
    fun v u _ _ link => ?_
  · obtain rfl : entry = entry' := Option.some.inj (consistent.entry?.symm.trans same)
    exact first
  · obtain ⟨f, found⟩ := exists_find? (mem_uris_of_links link)
    rw [Links, targets_of_find? found] at link
    obtain ⟨edge, own, rfl⟩ := List.mem_map.mp link
    exact isFile_of_candidate ((consistent.files f (mem_of_find? found)).sourced edge own).2

/-! ## Single changes -/

/-- A file that is tracked anew has neither text nor edges. -/
theorem consistent_new : TrackedFile.Consistent { uri := u } where
  owned := by simp
  distinct := by simp [TrackedFile.targets]
  sourced := by simp

/-- The edges of a renewed file are those of its text from scratch. -/
theorem renewed_dependencies (h : f.Consistent) :
    (r.renewed sources update f).dependencies =
      includeEdges ((r.modify update.uri (·.refresh sources update)).resolve? sources
          (baseDir f.uri) (Code.searchPath (f.refresh sources update).lines)) f.uri
        (Code.includes (f.refresh sources update).lines) := by
  have owned : ∀ edge ∈ (f.refresh sources update).dependencies,
      edge.parent = (f.refresh sources update).uri := by simpa using h.owned
  simp only [renewed, edges_eq_includeEdges owned, refresh_uri]

theorem consistent_renewed (h : f.Consistent) : (r.renewed sources update f).Consistent where
  owned edge member := by
    rw [renewed_dependencies h] at member
    simpa using (mem_includeEdges member).1
  distinct := by
    rw [TrackedFile.targets, renewed_dependencies h]
    exact includeEdges_nodup
  sourced edge member := by
    have lines : (r.renewed sources update f).lines = (f.refresh sources update).lines := rfl
    rw [renewed_dependencies h] at member
    rw [lines, renewed_uri]
    exact ⟨exists_directive_of_mem member, List.mem_of_find?_eq_some (mem_includeEdges member).2⟩

theorem forall_consistent_add (h : ∀ f ∈ r.files, f.Consistent) :
    ∀ f ∈ (r.add u).files, f.Consistent := by
  by_cases tracked : u ∈ r.uris
  · rwa [add_of_mem tracked]
  · intro f member
    rw [add_files tracked] at member
    obtain old | new := List.mem_append.mp member
    · exact h f old
    · rw [List.mem_singleton.mp new]
      exact consistent_new

theorem forall_consistent_renew (h : ∀ f ∈ r.files, f.Consistent) :
    ∀ f ∈ (r.renew sources update).files, f.Consistent := by
  intro f member
  obtain ⟨g, listed, -, ⟨-, rfl⟩ | ⟨-, rfl⟩⟩ := mem_renew member
  · exact consistent_renewed (h g listed)
  · exact h f listed

namespace Consistent

variable (h : r.Consistent entry)

include h

theorem congr {s : Registry} (files : s.files = r.files) (same : s.entry? = r.entry?) :
    s.Consistent entry where
  once := by simpa [uris, files] using h.once
  entry? := same.trans h.entry?
  tracked := by simpa [uris, files] using h.tracked
  files := by simpa [files] using h.files

/-- The entry file is reachable. -/
theorem reachable : r.Reachable entry := reachable_entry h.entry?

theorem add (untracked : u ∉ r.uris) : (r.add u).Consistent entry where
  once := by
    rw [uris_add untracked]
    exact h.once.append (List.nodup_singleton u) (by simpa using untracked)
  entry? := entry?_add h.entry?
  tracked := by
    rw [uris_add untracked]
    exact List.mem_append_left _ h.tracked
  files := forall_consistent_add h.files

theorem renew : (r.renew sources update).Consistent entry where
  once := by simpa using h.once
  entry? := h.entry?
  tracked := by simpa using h.tracked
  files := forall_consistent_renew h.files

theorem collect : r.collect.Consistent entry where
  once := collect_uris_nodup h.once
  entry? := h.entry?
  tracked := (mem_collect_uris h.once h.entry?).mpr ⟨h.tracked, h.reachable⟩
  files f member := h.files f ((mem_collect h.once h.entry?).mp member).1

/-- Collecting leaves a tidy registry. -/
theorem tidy_collect : r.collect.Tidy := fun _ member =>
  (reachable_collect h.once h.entry?).mpr ((mem_collect_uris h.once h.entry?).mp member).2

end Consistent

theorem closed_congr {s : Registry} (files : s.files = r.files) : s.Closed ↔ r.Closed := by
  simp [Closed, Links, targets_congr files, uris_congr files]

theorem tidy_congr {s : Registry} (entry : s.entry? = r.entry?) (files : s.files = r.files) :
    s.Tidy ↔ r.Tidy := by
  simp [Tidy, reachable_congr entry files, uris_congr files]

/-! ## Steps -/

namespace Handling

/-- The agenda owes the discovery of every file that an edge leads to and that is not
tracked. -/
structure Consistent (entry : Uri) (s : Handling) : Prop where
  registry : s.registry.Consistent entry
  owing : ∀ u v, s.registry.Links u v → v ∈ s.registry.uris ∨ .discover v ∈ s.agenda

theorem Consistent.step {s : Handling} (h : s.Consistent entry) :
    (s.step sources).Consistent entry := by
  obtain ⟨r, _ | ⟨task, rest⟩⟩ := s
  · exact h
  obtain ⟨consistent, owing⟩ := h
  -- A task that is done without effect has nothing to discover.
  have skip (idle : ∀ v, task = .discover v → v ∈ r.uris) :
      Handling.Consistent entry ⟨r, rest⟩ := by
    refine ⟨consistent, fun u v link => ?_⟩
    rcases owing u v link with tracked | owed
    · exact .inl tracked
    · rcases List.mem_cons.mp owed with here | later
      · exact .inl (idle v here.symm)
      · exact .inr later
  cases task with
  | handle update =>
    by_cases tracked : update.uri ∈ r.uris
    · rw [step_handle tracked]
      refine ⟨consistent.renew, fun u v link => ?_⟩
      by_cases known : v ∈ (r.renew sources update).uris
      · exact .inl known
      refine .inr (List.mem_append.mpr ?_)
      by_cases here : u = update.uri
      · subst here
        exact .inl (List.mem_map_of_mem (List.mem_filter.mpr ⟨link, by simpa using known⟩))
      · rw [Links, targets_renew_of_ne here] at link
        rcases owing u v link with old | owed
        · exact absurd (by simpa using old) known
        · exact .inr (List.mem_cons_of_mem _ (by simpa using owed))
    · rw [step_handle_of_not_mem tracked]
      exact skip (by simp)
  | discover uri =>
    by_cases tracked : uri ∈ r.uris
    · rw [step_discover_of_mem tracked]
      exact skip fun v same => by simpa using (Task.discover.inj same) ▸ tracked
    · rw [step_discover tracked]
      refine ⟨(consistent.add tracked).congr rfl rfl, fun u v link => ?_⟩
      have old : r.Links u v := by
        simpa [Links, targets_congr (push_files _), targets_add tracked] using link
      simp only [uris_congr (push_files _), uris_add tracked, List.mem_append,
        List.mem_singleton]
      rcases owing u v old with known | owed
      · exact .inl (.inl known)
      · rcases List.mem_cons.mp owed with here | later
        · exact .inl (.inr (Task.discover.inj here))
        · exact .inr (.inr later)
  | finish uri =>
    rw [step_finish]
    refine ⟨consistent.collect.congr rfl rfl, fun u v link => ?_⟩
    obtain ⟨old, reached⟩ := (links_collect consistent.once consistent.entry?).mp link
    rcases owing u v old with known | owed
    · exact .inl ((mem_collect_uris consistent.once consistent.entry?).mpr
        ⟨known, reached.tail old⟩)
    · exact .inr (by simpa using owed)

theorem Consistent.leads {s t : Handling} (h : s.Consistent entry) (run : Leads sources s t) :
    t.Consistent entry := by
  have step : ∀ s : Handling, s.Consistent entry → (s.step sources).Consistent entry :=
    fun _ => Consistent.step
  exact run.preserves step h

end Handling

open Handling

/-! ## Handling an update -/

/-- An update of an untracked file is dropped. Any other renews the file, discovers what
is missing and drops what has become unreachable. -/
theorem process_cases (h : r.process sources update = some r') :
    (update.uri ∉ r.uris ∧ r' = r) ∨
      (update.uri ∈ r.uris ∧ ∃ loaded,
        Leads sources ⟨r.renew sources update,
          ((r.renew sources update).missing update.uri).map .discover⟩ ⟨loaded, []⟩ ∧
        r' = loaded.collect.report (.changed update.uri)) := by
  rw [process.eq_def] at h
  by_cases tracked : update.uri ∈ r.uris
  · refine .inr ⟨tracked, ?_⟩
    simp only [tracks_iff, tracked, if_true] at h
    obtain ⟨loaded, loading, done⟩ := Option.bind_eq_some_iff.mp h
    refine ⟨loaded, outcome?_eq_some_iff.mp ?_, (Option.some.inj done).symm⟩
    simpa [outcome?, perform, List.foldlM_map] using loading
  · simp only [tracks_iff, tracked, if_false, Option.some.injEq] at h
    exact .inl ⟨tracked, h.symm⟩

section process

variable (done : r.process sources update = some r') (consistent : r.Consistent entry)

include done consistent

theorem process_handling (closed : r.Closed) : Handling.Consistent entry ⟨r', []⟩ :=
  Consistent.leads ⟨consistent, fun u v link => .inl (closed u v link)⟩
    (process_eq_some_iff.mp done)

theorem process_consistent (closed : r.Closed) : r'.Consistent entry :=
  (process_handling done consistent closed).registry

theorem process_closed (closed : r.Closed) : r'.Closed := fun u v link => by
  simpa using (process_handling done consistent closed).owing u v link

/-- Handling an update of a tracked file leaves a tidy registry. -/
theorem process_tidies (closed : r.Closed) (tracked : update.uri ∈ r.uris) : r'.Tidy := by
  rcases process_cases done with ⟨untracked, -⟩ | ⟨-, loaded, run, rfl⟩
  · exact absurd tracked untracked
  · refine (tidy_congr (entry?_report _) (report_files _)).mpr ?_
    -- What was loaded is consistent, because every single step is.
    have start : Handling.Consistent entry ⟨r.renew sources update,
        ((r.renew sources update).missing update.uri).map .discover⟩ := by
      have whole : Handling.Consistent entry ⟨r, [.handle update]⟩ :=
        ⟨consistent, fun u v link => .inl (closed u v link)⟩
      have next : Handling.Consistent entry (Handling.step sources ⟨r, [.handle update]⟩) :=
        whole.step
      rw [step_handle tracked] at next
      exact ⟨next.registry, fun u v link => by simpa using next.owing u v link⟩
    exact (start.leads run).registry.tidy_collect

theorem process_tidy (closed : r.Closed) (tidy : r.Tidy) : r'.Tidy := by
  by_cases tracked : update.uri ∈ r.uris
  · exact process_tidies done consistent closed tracked
  · rcases process_cases done with ⟨-, rfl⟩ | ⟨tracked', -⟩
    · exact tidy
    · exact absurd tracked' tracked

end process

end Registry

end AsmServer
