import AsmServer.Proofs.Registry.Operations

/-!
# What the reports tell

A registry reports each file that it starts to track and each file that it drops, in the
order in which that happens, so that the tracked files, in their order, can be replayed
from the reports alone. Every step has this property, and it composes.
-/

namespace AsmServer

/-- The tracked files after an event, by the reports alone. -/
def FileEvent.replay (uris : List Uri) : FileEvent → List Uri
  | added uri => uris ++ [uri]
  | changed _ => uris
  | removed uri => uris.filter (· ≠ uri)

namespace Registry

/-- The reports from `r` to `r'` tell how the tracked files changed. -/
def Replays (r r' : Registry) : Prop :=
  ∃ new, r'.events = r.events ++ new ∧ new.foldl FileEvent.replay r.uris = r'.uris

variable {sources : Sources} {r r' r'' : Registry} {uri : Uri}

theorem Replays.of_eq (events : r'.events = r.events) (uris : r'.uris = r.uris) :
    r.Replays r' :=
  ⟨[], by simp [events], by simp [uris]⟩

theorem Replays.refl (r : Registry) : r.Replays r := .of_eq rfl rfl

theorem Replays.trans (first : r.Replays r') (second : r'.Replays r'') : r.Replays r'' := by
  obtain ⟨new, events, uris⟩ := first
  obtain ⟨later, events', uris'⟩ := second
  exact ⟨new ++ later, by rw [events', events, List.append_assoc],
    by rw [List.foldl_append, uris, uris']⟩

/-- A file that is no longer tracked was reported as removed. -/
theorem Replays.removed_mem (h : r.Replays r') (tracked : uri ∈ r.uris) (gone : uri ∉ r'.uris) :
    .removed uri ∈ r'.events := by
  obtain ⟨new, events, replayed⟩ := h
  suffices ∀ uris : List Uri, uri ∈ uris → uri ∉ new.foldl FileEvent.replay uris →
      .removed uri ∈ new by
    rw [events]
    exact List.mem_append_right _ (this r.uris tracked (replayed ▸ gone))
  clear events replayed
  induction new with
  | nil => exact fun uris tracked gone => absurd tracked gone
  | cons event rest ih =>
    intro uris tracked gone
    cases event with
    | added other => exact List.mem_cons_of_mem _ (ih _ (List.mem_append_left _ tracked) gone)
    | changed other => exact List.mem_cons_of_mem _ (ih _ tracked gone)
    | removed other =>
      by_cases same : uri = other
      · exact same ▸ List.mem_cons_self
      · refine List.mem_cons_of_mem _ (ih _ ?_ gone)
        simpa [FileEvent.replay, same] using tracked

/-- Replaying removals filters. -/
theorem foldl_replay_removed (gone uris : List Uri) :
    (gone.map FileEvent.removed).foldl FileEvent.replay uris = uris.filter (· ∉ gone) := by
  induction gone generalizing uris with
  | nil => simp
  | cons uri rest ih =>
    rw [List.map_cons, List.foldl_cons, ih, FileEvent.replay, List.filter_filter]
    refine List.filter_congr fun u _ => ?_
    by_cases same : u = uri <;> simp [same]

theorem replays_add : r.Replays (r.add uri) := by
  by_cases tracked : uri ∈ r.uris
  · rw [add_of_mem tracked]
    exact .refl r
  · exact ⟨[.added uri], add_events tracked, (uris_add tracked).symm⟩

theorem replays_finish : r.Replays (r.collect.report (.changed uri)) := by
  refine ⟨r.unreachable.map .removed ++ [.changed uri], ?_, ?_⟩
  · rw [report_events, collect_events, List.append_assoc]
  · rw [List.foldl_append, foldl_replay_removed, uris_congr (report_files _), collect_uris]
    rfl

theorem Handling.replays_step (s : Handling) : s.registry.Replays (s.step sources).registry := by
  obtain ⟨r, _ | ⟨task, rest⟩⟩ := s
  · exact .refl r
  cases task with
  | handle update =>
    by_cases tracked : update.uri ∈ r.uris
    · rw [step_handle tracked]
      exact .of_eq rfl uris_renew
    · rw [step_handle_of_not_mem tracked]
      exact .refl r
  | discover uri =>
    by_cases tracked : uri ∈ r.uris
    · rw [step_discover_of_mem tracked]
      exact .refl r
    · rw [step_discover tracked]
      exact replays_add.trans (.of_eq (push_events _) (uris_congr (push_files _)))
  | finish uri => exact replays_finish

theorem Handling.Leads.replays {s t : Handling} (run : Handling.Leads sources s t) :
    s.registry.Replays t.registry :=
  run.preserves (P := fun t => s.registry.Replays t.registry)
    (fun t replays => replays.trans (replays_step t)) (.refl _)

/-- The reports of an operation tell how the tracked files changed. -/
theorem Moves.replays (moves : Moves sources r r') : r.Replays r' := by
  refine Moves.preserves (P := r.Replays) (fun s s' move replays => replays.trans ?_) moves
    (.refl r)
  cases move with
  | hold debouncer => exact .of_eq rfl rfl
  | handle done => exact (process_eq_some_iff.mp done).replays
  | mark uri only => exact .of_eq rfl (uris_mark only)

end Registry

end AsmServer
