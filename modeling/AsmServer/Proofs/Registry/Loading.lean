import AsmServer.Proofs.Registry.Operations
import AsmServer.Proofs.Uri.Canonical
import Mathlib.Data.Finset.Card
import Mathlib.Data.Prod.Lex

/-!
# Loading comes to an end

An update that is handled while nothing is held back loads files that are new: each is
reachable when it is discovered and has no edges before it is handled, so that handling it
only adds edges. Whatever is reachable therefore stays reachable until the update is done,
no file is dropped that is still to be loaded, and no file is discovered twice.

The files that can be discovered are finitely many, namely the open buffers and the files
on the disk. Each step discovers one of them, handles one of the updates that are awaited
or shortens the agenda, in this order of weight, so the agenda runs empty.

What is excluded here does occur: an update that displaces another one handles a file that
has edges already, and may cut off the very file that is being loaded.
-/

namespace AsmServer

/-- The files that can be included although they are not tracked. -/
def Sources.places (sources : Sources) : List Uri :=
  sources.buffers.map (·.uri) ++ sources.disk.map fun (components, _) => .ofComponents components

namespace Registry

variable {sources : Sources} {r : Registry} {update : Update} {u v entry : Uri}

/-- A file is tracked and reachable. -/
def Met (r : Registry) (u : Uri) : Prop := u ∈ r.uris ∧ r.Reachable u

/-! ## Edges of a renewed file -/

/-- The file to refresh is as reachable as before, whatever edges it gets. -/
theorem reachable_renew_self (h : r.Reachable update.uri) :
    (r.renew sources update).Reachable update.uri := by
  -- Up to the first visit of the file, a chain of edges is left as it was.
  have either : (r.renew sources update).Reachable update.uri ∨
      (r.renew sources update).Reachable update.uri := by
    refine h.induction (P := fun u => (r.renew sources update).Reachable update.uri ∨
      (r.renew sources update).Reachable u) ?_ ?_
    · exact fun entry he => .inr (reachable_entry he)
    · rintro u v - (done | reached) link
      · exact .inl done
      · by_cases here : u = update.uri
        · exact .inl (here ▸ reached)
        · exact .inr (reached.tail (by rwa [Links, targets_renew_of_ne here]))
  exact either.elim id id

/-- A file without edges only adds to what is reachable. -/
theorem reachable_renew (fresh : r.targets update.uri = []) (h : r.Reachable v) :
    (r.renew sources update).Reachable v := by
  refine h.mono rfl fun u w _ link => ?_
  have other : u ≠ update.uri := by
    rintro rfl
    simp [Links, fresh] at link
  rwa [Links, targets_renew_of_ne other]

/-- A target that is missing is an open buffer or a file on the disk. -/
theorem mem_places_of_missing (consistent : r.Consistent entry)
    (h : v ∈ (r.renew sources update).missing update.uri) : v ∈ sources.places := by
  obtain ⟨link, untracked⟩ := List.mem_filter.mp h
  have untracked : v ∉ r.uris := by simpa using untracked
  have tracked : update.uri ∈ r.uris := by simpa using mem_uris_of_links link
  obtain ⟨f, hf⟩ := exists_find? tracked
  have renewed : (r.renew sources update).find? update.uri
      = some (r.renewed sources update f) := by simp [find?_renew, hf]
  rw [targets_of_find? renewed, TrackedFile.targets,
    renewed_dependencies (consistent.files f (mem_of_find? hf))] at link
  obtain ⟨edge, member, rfl⟩ := List.mem_map.mp link
  obtain ⟨-, resolved⟩ := mem_includeEdges member
  have available := List.find?_some resolved
  have closed : ((r.modify update.uri (·.refresh sources update)).find? edge.uri).any (·.isOpen)
      = false := by
    rw [find?_modify fun _ => refresh_uri, find?_eq_none.mpr untracked]
    simp
  rw [isAvailable, closed, Bool.false_or, Bool.or_eq_true] at available
  rcases available with buffered | stored
  · obtain ⟨document, found⟩ := Option.isSome_iff_exists.mp buffered
    have same : document.uri = edge.uri := by simpa using List.find?_some found
    exact List.mem_append_left _
      (List.mem_map.mpr ⟨document, List.mem_of_find?_eq_some found, same⟩)
  · obtain ⟨path, canonical⟩ : ∃ path, Uri.ofPath path = edge.uri := by
      have candidate := List.mem_of_find?_eq_some resolved
      unfold candidates at candidate
      simp only at candidate
      split at candidate
      · exact ⟨_, (List.mem_singleton.mp candidate).symm⟩
      · obtain ⟨dir, -, same⟩ := List.mem_map.mp candidate
        exact ⟨_, same⟩
    obtain ⟨data, found⟩ := Option.isSome_iff_exists.mp stored
    obtain ⟨place, opened, listed⟩ := Option.bind_eq_some_iff.mp found
    have opened : (Uri.ofPath path).platformPath = .ok place := by
      rw [canonical]
      cases e : edge.uri.platformPath <;> simp_all [Except.toOption]
    refine List.mem_append_right _ (List.mem_map.mpr ⟨(Path.components place, data), ?_, ?_⟩)
    · obtain ⟨before, after, whole, -⟩ := List.lookup_eq_some_iff.mp listed
      simp [whole]
    · rw [← canonical]
      exact Uri.ofComponents_platformPath opened

namespace Handling

/-! ## What loading keeps -/

/-- What holds while files are loaded and nothing that was reachable is cut off. -/
structure Loading (sources : Sources) (entry : Uri) (s : Handling) : Prop where
  consistent : s.Consistent entry
  regular : s.registry.debouncer.Regular
  /-- No file awaits two updates. -/
  once : (s.awaited.map (·.uri)).Nodup
  /-- A file that awaits its update has no edges yet. -/
  fresh : ∀ update ∈ s.awaited,
    s.registry.Met update.uri ∧ s.registry.targets update.uri = []
  /-- What is to be discovered can be. -/
  wanted : ∀ v, .discover v ∈ s.agenda → s.registry.Reachable v ∧ v ∈ sources.places

variable {rest : List Task} {uri : Uri}

theorem Loading.handle (h : Loading sources entry ⟨r, .handle update :: rest⟩) :
    Loading sources entry (step sources ⟨r, .handle update :: rest⟩) ∧
      ∀ v, r.Met v → (step sources ⟨r, .handle update :: rest⟩).registry.Met v := by
  obtain ⟨⟨tracked, reached⟩, edgeless⟩ := h.fresh update (by simp)
  obtain ⟨alone, once⟩ := List.nodup_cons.mp h.once
  have consistent : Handling.Consistent entry (step sources ⟨r, .handle update :: rest⟩) :=
    h.consistent.step
  have left : awaited (step sources ⟨r, .handle update :: rest⟩) = awaited ⟨r, rest⟩ :=
    awaited_step_handle tracked
  have grows : ∀ v, r.Met v → (r.renew sources update).Met v := fun v met =>
    ⟨by simpa using met.1, reachable_renew edgeless met.2⟩
  rw [step_handle tracked] at consistent left ⊢
  refine ⟨⟨consistent, h.regular, left ▸ once, fun up member => ?_, fun v member => ?_⟩, grows⟩
  · rw [left] at member
    obtain ⟨met, none⟩ := h.fresh up (List.mem_cons_of_mem _ member)
    have other : up.uri ≠ update.uri := fun same =>
      alone (List.mem_map.mpr ⟨up, member, same⟩)
    exact ⟨grows _ met, by simpa [targets_renew_of_ne other] using none⟩
  · rcases List.mem_append.mp member with found | later
    · obtain ⟨w, missing, same⟩ := List.mem_map.mp found
      obtain rfl : w = v := Task.discover.inj same
      exact ⟨(reachable_renew_self reached).tail (List.mem_filter.mp missing).1,
        mem_places_of_missing h.consistent.registry missing⟩
    · obtain ⟨reached, place⟩ := h.wanted v (by simpa using later)
      exact ⟨reachable_renew edgeless reached, place⟩

theorem Loading.skip (h : Loading sources entry ⟨r, .discover uri :: rest⟩)
    (tracked : uri ∈ r.uris) : Loading sources entry ⟨r, rest⟩ := by
  have consistent : Handling.Consistent entry (step sources ⟨r, .discover uri :: rest⟩) :=
    h.consistent.step
  rw [step_discover_of_mem tracked] at consistent
  exact ⟨consistent, h.regular, h.once, h.fresh,
    fun v member => h.wanted v (List.mem_cons_of_mem _ member)⟩

theorem Loading.discover (h : Loading sources entry ⟨r, .discover uri :: rest⟩)
    (untracked : uri ∉ r.uris) :
    Loading sources entry (step sources ⟨r, .discover uri :: rest⟩) ∧
      (∀ v, r.Met v → (step sources ⟨r, .discover uri :: rest⟩).registry.Met v) ∧
      (step sources ⟨r, .discover uri :: rest⟩).registry.Met uri := by
  obtain ⟨reached, place⟩ := h.wanted uri List.mem_cons_self
  have consistent : Handling.Consistent entry (step sources ⟨r, .discover uri :: rest⟩) :=
    h.consistent.step
  -- What is held back belongs to another file, so the push keeps it.
  have others : ∀ up ∈ r.debouncer.items, up.uri ≠ (sources.loading uri).uri := by
    intro up member same
    rw [loading_uri] at same
    exact untracked (same ▸ (h.fresh up (List.mem_append_right _ member)).1.1)
  have more : (awaited (step sources ⟨r, .discover uri :: rest⟩)).Perm
      (sources.loading uri :: awaited ⟨r, rest⟩) := by
    rw [awaited_step_discover untracked]
    refine (List.Perm.append_left _ List.perm_append_comm).trans ?_
    rw [← List.append_assoc]
    refine ((Debouncer.push_perm (h.regular.displaced_eq_items others)).append_right _).trans ?_
    exact List.Perm.cons _ List.perm_append_comm
  rw [step_discover untracked] at consistent more ⊢
  have same : ((r.add uri).push (sources.loading uri)).1.files = (r.add uri).files := push_files _
  have links : ∀ v, ((r.add uri).push (sources.loading uri)).1.targets v = r.targets v :=
    fun v => (targets_congr same).trans (targets_add untracked)
  have reach : ∀ v, r.Reachable v → ((r.add uri).push (sources.loading uri)).1.Reachable v :=
    fun v reached => reached.mono
      ((entry?_add h.consistent.registry.entry?).trans h.consistent.registry.entry?.symm)
      fun u w _ link => by rwa [Links, links]
  have tracks : ∀ v, v ∈ ((r.add uri).push (sources.loading uri)).1.uris ↔
      v ∈ r.uris ∨ v = uri := by
    intro v
    rw [uris_congr same, uris_add untracked]
    simp
  have grows : ∀ v, r.Met v → ((r.add uri).push (sources.loading uri)).1.Met v :=
    fun v met => ⟨(tracks v).mpr (.inl met.1), reach v met.2⟩
  have here : ((r.add uri).push (sources.loading uri)).1.Met uri :=
    ⟨(tracks uri).mpr (.inr rfl), reach uri reached⟩
  refine ⟨⟨consistent, ?_, ?_, fun up member => ?_, fun v member => ?_⟩, grows, here⟩
  · exact Debouncer.regular_push
  · refine (more.map _).nodup_iff.mpr (List.nodup_cons.mpr ⟨?_, h.once⟩)
    intro double
    obtain ⟨up, member, same⟩ := List.mem_map.mp double
    exact untracked ((same.trans loading_uri) ▸ (h.fresh up member).1.1)
  · rcases List.mem_cons.mp (more.mem_iff.mp member) with rfl | old
    · rw [loading_uri]
      exact ⟨here, by rw [links, targets_of_not_mem untracked]⟩
    · obtain ⟨met, none⟩ := h.fresh up old
      exact ⟨grows _ met, (links _).trans none⟩
  · have later : .discover v ∈ rest := by simpa using member
    obtain ⟨reached, place⟩ := h.wanted v (List.mem_cons_of_mem _ later)
    exact ⟨reach v reached, place⟩

theorem Loading.finish (h : Loading sources entry ⟨r, .finish uri :: rest⟩) :
    Loading sources entry (step sources ⟨r, .finish uri :: rest⟩) ∧
      ∀ v, r.Met v → (step sources ⟨r, .finish uri :: rest⟩).registry.Met v := by
  have once := h.consistent.registry.once
  have he := h.consistent.registry.entry?
  have reach : ∀ v, r.Reachable v → (r.collect.report (.changed uri)).Reachable v :=
    fun v reached => (reachable_congr (entry?_report _) (report_files _)).mpr
      ((reachable_collect once he).mpr reached)
  have grows : ∀ v, r.Met v → (r.collect.report (.changed uri)).Met v := fun v met =>
    ⟨by rw [uris_congr (report_files _)]; exact (mem_collect_uris once he).mpr met,
      reach v met.2⟩
  refine ⟨⟨h.consistent.step, h.regular, h.once, fun up member => ?_, fun v member => ?_⟩, grows⟩
  · obtain ⟨met, none⟩ := h.fresh up member
    refine ⟨grows _ met, ?_⟩
    rw [step_finish, targets_congr (report_files _), targets_collect once he met.2]
    exact none
  · obtain ⟨reached, place⟩ := h.wanted v (List.mem_cons_of_mem _ member)
    exact ⟨reach v reached, place⟩

/-- Each step keeps this, and loses nothing that is tracked and reachable. -/
theorem Loading.step {s : Handling} (h : Loading sources entry s) :
    Loading sources entry (step sources s) ∧
      ∀ v, s.registry.Met v → (Handling.step sources s).registry.Met v := by
  obtain ⟨r, _ | ⟨task, rest⟩⟩ := s
  · exact ⟨h, fun v met => met⟩
  cases task with
  | handle update => exact h.handle
  | discover uri =>
    by_cases tracked : uri ∈ r.uris
    · rw [step_discover_of_mem tracked]
      exact ⟨h.skip tracked, fun v met => met⟩
    · exact ⟨(h.discover tracked).1, (h.discover tracked).2.1⟩
  | finish uri => exact h.finish

theorem Loading.leads {s t : Handling} (h : Loading sources entry s) (run : Leads sources s t) :
    Loading sources entry t ∧ ∀ v, s.registry.Met v → t.registry.Met v := by
  refine run.preserves (P := fun t => Loading sources entry t ∧
    ∀ v, s.registry.Met v → t.registry.Met v) ?_ ⟨h, fun v met => met⟩
  rintro t ⟨loading, grows⟩
  exact ⟨loading.step.1, fun v met => loading.step.2 v (grows v met)⟩

/-! ## What decreases -/

open Classical in
/-- The places that are not tracked and reachable yet. -/
noncomputable def unmet (sources : Sources) (r : Registry) : Finset Uri :=
  sources.places.toFinset.filter (¬ r.Met ·)

theorem mem_unmet : u ∈ unmet sources r ↔ u ∈ sources.places ∧ ¬ r.Met u := by
  simp [unmet]

theorem unmet_subset {r' : Registry} (grows : ∀ v, r.Met v → r'.Met v) :
    unmet sources r' ⊆ unmet sources r := by
  intro v member
  obtain ⟨place, out⟩ := mem_unmet.mp member
  exact mem_unmet.mpr ⟨place, fun met => out (grows v met)⟩

/-- The weight of what is to be done: places, then updates, then tasks. -/
noncomputable def weight (sources : Sources) (s : Handling) : ℕ ×ₗ ℕ ×ₗ ℕ :=
  toLex ((unmet sources s.registry).card,
    toLex ((s.agenda.filterMap Task.update?).length, s.agenda.length))

theorem weight_lt {s s' : Handling} (fewer : unmet sources s'.registry ⊆ unmet sources s.registry)
    (less : (s'.agenda.filterMap Task.update?).length < (s.agenda.filterMap Task.update?).length ∨
      (s'.agenda.filterMap Task.update?).length = (s.agenda.filterMap Task.update?).length ∧
        s'.agenda.length < s.agenda.length) :
    weight sources s' < weight sources s := by
  have le := Finset.card_le_card fewer
  simp only [weight, Prod.Lex.toLex_lt_toLex]
  omega

/-- Each step takes weight off. -/
theorem Loading.weight_step {task : Task} (h : Loading sources entry ⟨r, task :: rest⟩) :
    weight sources (Handling.step sources ⟨r, task :: rest⟩) <
      weight sources ⟨r, task :: rest⟩ := by
  have fewer : unmet sources (Handling.step sources ⟨r, task :: rest⟩).registry ⊆
      unmet sources r := unmet_subset h.step.2
  cases task with
  | handle update =>
    have tracked : update.uri ∈ r.uris := (h.fresh update (by simp)).1.1
    rw [step_handle tracked] at fewer ⊢
    refine weight_lt fewer (.inl ?_)
    rw [List.filterMap_append, filterMap_update?_discover, List.nil_append]
    exact Nat.lt_succ_self _
  | discover uri =>
    by_cases tracked : uri ∈ r.uris
    · rw [step_discover_of_mem tracked]
      exact weight_lt subset_rfl (.inr ⟨rfl, Nat.lt_succ_self _⟩)
    · have strict : unmet sources (Handling.step sources ⟨r, .discover uri :: rest⟩).registry
          ⊂ unmet sources r := by
        refine Finset.ssubset_iff_of_subset fewer |>.mpr ⟨uri, ?_, ?_⟩
        · exact mem_unmet.mpr
            ⟨(h.wanted uri List.mem_cons_self).2, fun met => tracked met.1⟩
        · exact fun member => (mem_unmet.mp member).2 (h.discover tracked).2.2
      exact Prod.Lex.toLex_lt_toLex.mpr (.inl (Finset.card_lt_card strict))
  | finish uri => exact weight_lt fewer (.inr ⟨rfl, Nat.lt_succ_self _⟩)

/-- Loading comes to an end. -/
theorem Loading.halts {s : Handling} (h : Loading sources entry s) : Halts sources s := by
  induction weighs : weight sources s using WellFoundedLT.induction generalizing s with
  | ind n ih =>
    obtain ⟨r, _ | ⟨task, rest⟩⟩ := s
    · exact ⟨r, .refl _⟩
    · obtain ⟨r', run⟩ := ih _ (weighs ▸ h.weight_step) h.step.1 rfl
      exact ⟨r', (Leads.step _).trans run⟩

end Handling

open Handling

/-! ## Handling an update -/

section process

variable (sound : r.Sound entry) (idle : r.debouncer.held? = none)

include sound idle

/-- With nothing held back, a reachable file is renewed and then loading begins. -/
theorem loading_renew (met : r.Met update.uri) :
    Loading sources entry (Handling.step sources ⟨r, [.handle update]⟩) := by
  have start : Handling.Consistent entry ⟨r, [.handle update]⟩ :=
    ⟨sound.toConsistent, fun u v link => .inl (sound.closed u v link)⟩
  have consistent : Handling.Consistent entry (Handling.step sources ⟨r, [.handle update]⟩) :=
    start.step
  have left : awaited (Handling.step sources ⟨r, [.handle update]⟩) = awaited ⟨r, []⟩ :=
    awaited_step_handle met.1
  have none : awaited ⟨r, []⟩ = [] := by simp [awaited, Debouncer.items, idle]
  rw [step_handle met.1] at consistent left ⊢
  rw [none] at left
  refine ⟨consistent, Debouncer.regular_of_held?_none idle, by simp [left], by simp [left],
    fun v member => ?_⟩
  have missing : v ∈ (r.renew sources update).missing update.uri := by simpa using member
  exact ⟨(reachable_renew_self met.2).tail (List.mem_filter.mp missing).1,
    mem_places_of_missing sound.toConsistent missing⟩

variable (sources update) in
/-- With nothing held back, an update of a tidy registry is handled in finitely many
steps. -/
theorem process_returns (tidy : r.Tidy) : (r.process sources update).isSome := by
  by_cases tracked : update.uri ∈ r.uris
  · rw [process_isSome_iff]
    have loading : Loading sources entry (Handling.step sources ⟨r, [.handle update]⟩) :=
      loading_renew sound idle ⟨tracked, tidy _ tracked⟩
    obtain ⟨r', run⟩ := loading.halts
    exact ⟨r', (Leads.step _).trans run⟩
  · rw [process.eq_def]
    simp [tracked]

/-- With nothing held back, the file of the update stays tracked. -/
theorem mem_uris_of_process (met : r.Met update.uri) {r' : Registry}
    (done : r.process sources update = some r') : update.uri ∈ r'.uris := by
  have loading : Loading sources entry (Handling.step sources ⟨r, [.handle update]⟩) :=
    loading_renew sound idle met
  have renewed : (Handling.step sources ⟨r, [.handle update]⟩).registry.Met update.uri := by
    rw [step_handle met.1]
    exact ⟨by simpa using met.1, reachable_renew_self met.2⟩
  exact ((loading.leads (process_eq_some_iff.mp done).of_step).2 _ renewed).1

end process

end Registry

end AsmServer
