import AsmServer.Proofs.Registry.Edges
import AsmServer.Proofs.Registry.Holding
import Mathlib.Logic.Function.Iterate

/-!
# Handling an update step by step

Handling an update nests: it discovers files, whose queued texts release updates held
back, which discover files in turn. Here the nesting is laid out as an agenda, a list of
tasks of which the first is done next. One step does one task; handling a tracked file
puts a task for each missing target and one to finish in front of what is left.

`outcome?_eq_some_iff` ties the agenda to the recursion: handling returns a registry
exactly when finitely many steps empty the agenda and leave that registry. What every
step preserves therefore holds of what a handled update leaves behind, and an update
whose agenda is never empty is never handled.
-/

namespace AsmServer

namespace Registry

/-- Something to do while an update is handled. -/
inductive Task where
  /-- Handle an update that the debouncer let go. -/
  | handle (update : Update)
  /-- Track a file and queue its text, unless it is tracked. -/
  | discover (uri : Uri)
  /-- Drop what has become unreachable and report that the file changed. -/
  | finish (uri : Uri)
  deriving DecidableEq

/-- The update to handle, if that is the task. -/
def Task.update? : Task → Option Update
  | handle update => some update
  | _ => none

/-- A registry and what is still to be done to it, the next task first. -/
structure Handling where
  registry : Registry
  agenda : List Task

namespace Handling

variable (sources : Sources)

/-- Do the first task. -/
def step : Handling → Handling
  | ⟨r, []⟩ => ⟨r, []⟩
  | ⟨r, .handle update :: rest⟩ =>
    if r.tracks update.uri then
      let renewed := r.renew sources update
      ⟨renewed, (renewed.missing update.uri).map .discover ++ .finish update.uri :: rest⟩
    else ⟨r, rest⟩
  | ⟨r, .discover uri :: rest⟩ =>
    if r.tracks uri then ⟨r, rest⟩
    else
      let pushed := (r.add uri).push (sources.loading uri)
      ⟨pushed.1, pushed.2.map .handle ++ rest⟩
  | ⟨r, .finish uri :: rest⟩ => ⟨r.collect.report (.changed uri), rest⟩

/-- The updates still to be handled: those on the agenda and the one held back. -/
def awaited (s : Handling) : List Update :=
  s.agenda.filterMap Task.update? ++ s.registry.debouncer.items

/-- Finitely many steps lead from one state to another. -/
def Leads (s t : Handling) : Prop := ∃ n, (step sources)^[n] s = t

/-- The agenda runs empty. -/
def Halts (s : Handling) : Prop := ∃ r, Leads sources s ⟨r, []⟩

/-- What the recursion makes of one task. -/
def perform (r : Registry) : Task → Option Registry
  | .handle update => r.process sources update
  | .discover uri => Registry.discover sources r uri
  | .finish uri => some (r.collect.report (.changed uri))

/-- What the recursion makes of all tasks. -/
def outcome? (s : Handling) : Option Registry := s.agenda.foldlM (perform sources) s.registry

variable {sources : Sources} {r : Registry} {rest : List Task} {update : Update} {uri : Uri}

/-! ## Steps by task -/

@[simp] theorem step_nil : step sources ⟨r, []⟩ = ⟨r, []⟩ := rfl

theorem step_handle (tracked : update.uri ∈ r.uris) :
    step sources ⟨r, .handle update :: rest⟩ =
      ⟨r.renew sources update,
        ((r.renew sources update).missing update.uri).map .discover ++
          .finish update.uri :: rest⟩ := by
  simp [step, tracked]

theorem step_handle_of_not_mem (untracked : update.uri ∉ r.uris) :
    step sources ⟨r, .handle update :: rest⟩ = ⟨r, rest⟩ := by
  simp [step, untracked]

theorem step_discover_of_mem (tracked : uri ∈ r.uris) :
    step sources ⟨r, .discover uri :: rest⟩ = ⟨r, rest⟩ := by
  simp [step, tracked]

theorem step_discover (untracked : uri ∉ r.uris) :
    step sources ⟨r, .discover uri :: rest⟩ =
      ⟨((r.add uri).push (sources.loading uri)).1,
        ((r.add uri).push (sources.loading uri)).2.map .handle ++ rest⟩ := by
  simp [step, untracked]

@[simp] theorem step_finish :
    step sources ⟨r, .finish uri :: rest⟩ = ⟨r.collect.report (.changed uri), rest⟩ := rfl

/-! ## Awaited updates -/

@[simp] theorem loading_uri : (sources.loading uri).uri = uri := by
  unfold Sources.loading
  split
  · next document found => simpa [Update.uri] using List.find?_some found
  · rfl

@[simp] theorem awaited_handle :
    awaited ⟨r, .handle update :: rest⟩ = update :: awaited ⟨r, rest⟩ := rfl

@[simp] theorem awaited_discover : awaited ⟨r, .discover uri :: rest⟩ = awaited ⟨r, rest⟩ := rfl

@[simp] theorem awaited_finish : awaited ⟨r, .finish uri :: rest⟩ = awaited ⟨r, rest⟩ := rfl

theorem filterMap_update?_handle (updates : List Update) :
    (updates.map Task.handle).filterMap Task.update? = updates := by
  simp [List.filterMap_map, Function.comp_def, Task.update?]

theorem filterMap_update?_discover (uris : List Uri) :
    (uris.map Task.discover).filterMap Task.update? = [] := by
  simp [List.filterMap_map, Function.comp_def, Task.update?]

theorem mem_awaited {s : Handling} :
    update ∈ s.awaited ↔ .handle update ∈ s.agenda ∨ update ∈ s.registry.debouncer.items := by
  rw [awaited, List.mem_append]
  refine or_congr_left ?_
  rw [List.mem_filterMap]
  constructor
  · rintro ⟨task, member, same⟩
    cases task with
    | handle other =>
      obtain rfl : other = update := Option.some.inj same
      exact member
    | _ => cases same
  · exact fun member => ⟨_, member, rfl⟩

/-- Handling an update leaves the others. -/
theorem awaited_step_handle (tracked : update.uri ∈ r.uris) :
    awaited (step sources ⟨r, .handle update :: rest⟩) = awaited ⟨r, rest⟩ := by
  rw [step_handle tracked]
  simp only [awaited, List.filterMap_append, filterMap_update?_discover, List.nil_append,
    renew_debouncer]
  rfl

/-- Discovering a file pushes the update that loads it. -/
theorem awaited_step_discover (untracked : uri ∉ r.uris) :
    awaited (step sources ⟨r, .discover uri :: rest⟩) =
      (r.debouncer.push (sources.loading uri).uri (sources.loading uri)).2 ++
        (rest.filterMap Task.update? ++
          (r.debouncer.push (sources.loading uri).uri (sources.loading uri)).1.items) := by
  rw [step_discover untracked]
  simp only [awaited, List.filterMap_append, filterMap_update?_handle, push_ready,
    push_debouncer, add_debouncer, List.append_assoc]

/-! ## The agenda and the recursion -/

theorem Leads.refl (s : Handling) : Leads sources s s := ⟨0, rfl⟩

theorem Leads.step (s : Handling) : Leads sources s (step sources s) := ⟨1, rfl⟩

theorem Leads.trans {s t u : Handling} (first : Leads sources s t) (second : Leads sources t u) :
    Leads sources s u := by
  obtain ⟨m, rfl⟩ := first
  obtain ⟨n, rfl⟩ := second
  exact ⟨n + m, Function.iterate_add_apply _ _ _ _⟩

/-- A step changes nothing about the outcome of the recursion. -/
theorem outcome?_step (s : Handling) : outcome? sources (step sources s) = outcome? sources s := by
  obtain ⟨r, _ | ⟨task, rest⟩⟩ := s
  · rfl
  cases task with
  | handle update =>
    by_cases tracked : update.uri ∈ r.uris
    · rw [step_handle tracked]
      simp [outcome?, perform, process.eq_def sources r update, tracked, List.foldlM_append,
        List.foldlM_map, Option.bind_assoc]
    · rw [step_handle_of_not_mem tracked]
      simp [outcome?, perform, process.eq_def sources r update, tracked]
  | discover uri =>
    by_cases tracked : uri ∈ r.uris
    · rw [step_discover_of_mem tracked]
      simp [outcome?, perform, discover.eq_def sources r uri, tracked]
    · rw [step_discover tracked]
      simp [outcome?, perform, discover.eq_def sources r uri, queue.eq_def, tracked,
        List.foldlM_append, List.foldlM_map]
  | finish uri => rfl

theorem outcome?_of_leads {s t : Handling} (h : Leads sources s t) :
    outcome? sources t = outcome? sources s := by
  obtain ⟨n, rfl⟩ := h
  induction n with
  | zero => rfl
  | succ n ih => rw [Function.iterate_succ_apply', outcome?_step, ih]

/-- Tasks done one after the other are steps, if each task alone is. -/
theorem leads_of_foldlM {α : Type} {task : α → Task} {act : Registry → α → Option Registry}
    (each : ∀ r a r', act r a = some r' → ∀ rest, Leads sources ⟨r, task a :: rest⟩ ⟨r', rest⟩)
    {items : List α} {r r' : Registry} (h : items.foldlM act r = some r') (rest : List Task) :
    Leads sources ⟨r, items.map task ++ rest⟩ ⟨r', rest⟩ := by
  induction items generalizing r with
  | nil =>
    obtain rfl : r = r' := by simpa using h
    exact .refl _
  | cons a items ih =>
    rw [List.foldlM_cons] at h
    obtain ⟨middle, first, later⟩ := Option.bind_eq_some_iff.mp h
    exact (each r a middle first _).trans (ih later)

theorem leads_of_perform :
    (∀ r update r', process sources r update = some r' →
        ∀ rest, Leads sources ⟨r, .handle update :: rest⟩ ⟨r', rest⟩) ∧
      (∀ r uri r', Registry.discover sources r uri = some r' →
        ∀ rest, Leads sources ⟨r, .discover uri :: rest⟩ ⟨r', rest⟩) ∧
      ∀ r update r', queue sources r update = some r' →
        ∀ rest, Leads sources ⟨(r.push update).1, (r.push update).2.map .handle ++ rest⟩
          ⟨r', rest⟩ := by
  refine process.mutual_partial_correctness sources _ _ _ ?handle ?discover ?queue
  case handle =>
    intro act ih r update r' h rest
    by_cases tracked : update.uri ∈ r.uris
    · simp only [tracks_iff, tracked, if_true] at h
      obtain ⟨loaded, loading, rfl⟩ := by
        simpa [Option.bind_eq_some_iff] using h
      rw [← tracks_iff] at tracked
      refine (Leads.step _).trans ?_
      rw [step_handle (tracks_iff.mp tracked)]
      exact (leads_of_foldlM ih loading _).trans (.step _)
    · obtain rfl : r = r' := by simpa [tracked] using h
      refine (Leads.step _).trans ?_
      rw [step_handle_of_not_mem tracked]
      exact .refl _
  case discover =>
    intro act ih r uri r' h rest
    refine (Leads.step _).trans ?_
    by_cases tracked : uri ∈ r.uris
    · obtain rfl : r = r' := by simpa [tracked] using h
      rw [step_discover_of_mem tracked]
      exact .refl _
    · rw [step_discover tracked]
      exact ih _ _ _ (by simpa [tracked] using h) rest
  case queue =>
    intro act ih r update r' h rest
    exact leads_of_foldlM ih h rest

/-- The recursion returns a registry exactly when finitely many steps lead to it. -/
theorem outcome?_eq_some_iff {s : Handling} {r' : Registry} :
    outcome? sources s = some r' ↔ Leads sources s ⟨r', []⟩ := by
  constructor
  · intro h
    obtain ⟨r, agenda⟩ := s
    have each : ∀ r task r', perform sources r task = some r' →
        ∀ rest, Leads sources ⟨r, id task :: rest⟩ ⟨r', rest⟩ := by
      intro r task r' done rest
      cases task with
      | handle update => exact leads_of_perform.1 r update r' done rest
      | discover uri => exact leads_of_perform.2.1 r uri r' done rest
      | finish uri =>
        obtain rfl : r.collect.report (.changed uri) = r' := by simpa [perform] using done
        exact .step _
    simpa using leads_of_foldlM each h []
  · intro h
    rw [← outcome?_of_leads h]
    rfl

/-- A run to the end goes through the first step. -/
theorem Leads.of_step {s : Handling} {r' : Registry} (run : Leads sources s ⟨r', []⟩) :
    Leads sources (Handling.step sources s) ⟨r', []⟩ := by
  rwa [← outcome?_eq_some_iff, outcome?_step, outcome?_eq_some_iff]

theorem outcome?_isSome_iff {s : Handling} : (outcome? sources s).isSome ↔ Halts sources s := by
  simp [Option.isSome_iff_exists, Halts, outcome?_eq_some_iff]

end Handling

open Handling

variable {sources : Sources} {r r' : Registry} {update : Update}

theorem outcome?_handle : outcome? sources ⟨r, [.handle update]⟩ = r.process sources update := by
  simp [outcome?, perform]

/-- What the debouncer lets go after a push is the agenda of the queue. -/
theorem outcome?_push :
    outcome? sources ⟨(r.push update).1, (r.push update).2.map .handle⟩
      = r.queue sources update := by
  simp [outcome?, perform, queue.eq_def, List.foldlM_map]

theorem process_eq_some_iff :
    r.process sources update = some r' ↔ Leads sources ⟨r, [.handle update]⟩ ⟨r', []⟩ := by
  rw [← outcome?_handle, outcome?_eq_some_iff]

theorem process_isSome_iff :
    (r.process sources update).isSome ↔ Halts sources ⟨r, [.handle update]⟩ := by
  rw [← outcome?_handle, outcome?_isSome_iff]

/-! ## Running the steps -/

/-- The registry after so many steps of handling an update. -/
def handled (sources : Sources) (n : Nat) (r : Registry) (update : Update) : Registry :=
  ((step sources)^[n] ⟨r, [.handle update]⟩).registry

/-- The registry after so many steps of handling what a push lets go. -/
def queued (sources : Sources) (n : Nat) (r : Registry) (update : Update) : Registry :=
  ((step sources)^[n] ⟨(r.push update).1, (r.push update).2.map .handle⟩).registry

/-- Steps that empty the agenda are enough. -/
theorem process_eq_handled {n : Nat}
    (enough : ((step sources)^[n] ⟨r, [.handle update]⟩).agenda = []) :
    r.process sources update = some (handled sources n r update) := by
  rw [process_eq_some_iff]
  exact ⟨n, congrArg (Handling.mk (handled sources n r update)) enough⟩

theorem queue_eq_queued {n : Nat}
    (enough : ((step sources)^[n]
      ⟨(r.push update).1, (r.push update).2.map .handle⟩).agenda = []) :
    r.queue sources update = some (queued sources n r update) := by
  rw [← outcome?_push, outcome?_eq_some_iff]
  exact ⟨n, congrArg (Handling.mk (queued sources n r update)) enough⟩

/-! ## Invariants -/

/-- What every step preserves holds when the agenda is done. -/
theorem Handling.Leads.preserves {P : Handling → Prop}
    (step : ∀ s, P s → P (Handling.step sources s)) {s t : Handling}
    (h : Leads sources s t) (start : P s) : P t := by
  obtain ⟨n, rfl⟩ := h
  induction n with
  | zero => exact start
  | succ n ih => rw [Function.iterate_succ_apply']; exact step _ ih

/-- What every step preserves holds of the registry that handling an update leaves. -/
theorem process_preserves {P : Handling → Prop}
    (step : ∀ s, P s → P (Handling.step sources s))
    (h : r.process sources update = some r') (start : P ⟨r, [.handle update]⟩) :
    P ⟨r', []⟩ :=
  (process_eq_some_iff.mp h).preserves step start

end Registry

end AsmServer
