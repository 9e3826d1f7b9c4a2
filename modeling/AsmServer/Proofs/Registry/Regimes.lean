import AsmServer.Proofs.Registry.Operations

/-!
# Regimes

What files are like and which updates may be handled for them go together: as long as no other
updates are handled, the files stay as they are. A regime is such a pair, a property `P` of files
and a relation `Q` between files and updates. New files have the property, and may be loaded.

A registry obeys a regime if all its files have the property and the update that it holds back may
be handled. An operation that queues only what may be handled keeps this, although handling one
update may let another go and find further files: when an update is handled, no other update of
the same file waits. The debouncer holds one update, and lets it go only when one of another file
follows.
-/

namespace AsmServer

namespace Registry

variable {sources : Sources} {P P' : TrackedFile → Prop} {Q Q' : TrackedFile → Update → Prop}
  {r r' : Registry} {update : Update} {document : Document} {uri : Uri} {f : TrackedFile}

theorem mem_add (untracked : uri ∉ r.uris) (member : f ∈ (r.add uri).files) :
    f ∈ r.files ∨ f = { uri } := by
  simpa [add_files untracked] using member

/-- A new file has the property and may be loaded, and an update that may be handled keeps the
property of its file. -/
structure Regime (sources : Sources) (P : TrackedFile → Prop) (Q : TrackedFile → Update → Prop) :
    Prop where
  new : ∀ uri, P { uri }
  load : ∀ uri, Q { uri } (sources.loading uri)
  renew : ∀ (r : Registry) (f : TrackedFile) (update : Update), P f → Q f update →
    f.uri = update.uri → P (r.renewed sources update f)

/-- The update may be handled for its file, if the file is tracked. -/
def Allows (Q : TrackedFile → Update → Prop) (r : Registry) (update : Update) : Prop :=
  ∀ f ∈ r.files, f.uri = update.uri → Q f update

/-- All files have the property, and the update held back may be handled. -/
structure Obeys (P : TrackedFile → Prop) (Q : TrackedFile → Update → Prop) (r : Registry) :
    Prop where
  regular : r.debouncer.Regular
  files : ∀ f ∈ r.files, P f
  held : ∀ update ∈ r.debouncer.items, r.Allows Q update

theorem Obeys.congr {s : Registry} (h : r.Obeys P Q) (files : s.files = r.files)
    (debouncer : s.debouncer = r.debouncer) : s.Obeys P Q where
  regular := debouncer ▸ h.regular
  files := files ▸ h.files
  held update member := by
    rw [Allows, files]
    exact h.held update (debouncer ▸ member)

theorem Obeys.mono (h : r.Obeys P Q) (files : ∀ f ∈ r.files, P f → P' f)
    (held : ∀ f ∈ r.files, ∀ update, f.uri = update.uri → P f → Q f update → Q' f update) :
    r.Obeys P' Q' where
  regular := h.regular
  files f member := files f member (h.files f member)
  held update waits f member own :=
    held f member update own (h.files f member) (h.held update waits f member own)

theorem Obeys.and (h : r.Obeys P Q) (h' : r.Obeys P' Q') :
    r.Obeys (fun f => P f ∧ P' f) (fun f update => Q f update ∧ Q' f update) where
  regular := h.regular
  files f member := ⟨h.files f member, h'.files f member⟩
  held update waits f member own :=
    ⟨h.held update waits f member own, h'.held update waits f member own⟩

/-- A further file may be tracked; what is held back for it must be fit for a new file. -/
theorem Obeys.add (h : r.Obeys P Q) (new : ∀ uri, P { uri })
    (held : ∀ update ∈ r.debouncer.items, update.uri = uri → Q { uri } update) :
    (r.add uri).Obeys P Q := by
  by_cases tracked : uri ∈ r.uris
  · rwa [add_of_mem tracked]
  refine ⟨by simpa using h.regular, fun f member => ?_, fun update waits f member own => ?_⟩
  · rcases mem_add tracked member with old | rfl
    · exact h.files f old
    · exact new uri
  · rw [add_debouncer] at waits
    rcases mem_add tracked member with old | rfl
    · exact h.held update waits f old own
    · exact held update waits own.symm

theorem obeys_blank (delay : Nat) : (blank delay).Obeys P Q :=
  ⟨Debouncer.regular_of_held?_none (by simp [blank]), by simp [blank],
    by simp [blank, Debouncer.items]⟩

/-! ## Steps -/

namespace Handling

/-- The regime while updates are handled: only the next task may be to handle an update, which may
be handled, and what is held back belongs to another file. -/
structure Obeys (P : TrackedFile → Prop) (Q : TrackedFile → Update → Prop) (s : Handling) :
    Prop where
  registry : s.registry.Obeys P Q
  next : ∀ update, .handle update ∈ s.agenda →
    s.registry.Allows Q update ∧ ∀ held ∈ s.registry.debouncer.items, held.uri ≠ update.uri
  last : ∀ task ∈ s.agenda.tail, task.update? = none

variable {rest : List Task}

theorem obeys_of_done (registry : r.Obeys P Q) (done : ∀ task ∈ rest, task.update? = none) :
    Obeys P Q ⟨r, rest⟩ where
  registry := registry
  next update member := by
    have := done _ member
    cases this
  last task member := done task (List.mem_of_mem_tail member)

/-- Handling an update gives its file the property, if all others have it. -/
theorem obeys_handle (tracked : update.uri ∈ r.uris) (regular : r.debouncer.Regular)
    (others : ∀ f ∈ r.files, f.uri ≠ update.uri → P f)
    (own : ∀ f ∈ r.files, f.uri = update.uri → P (r.renewed sources update f))
    (held : ∀ waiting ∈ r.debouncer.items, r.Allows Q waiting)
    (apart : ∀ waiting ∈ r.debouncer.items, waiting.uri ≠ update.uri)
    (done : ∀ task ∈ rest, task.update? = none) :
    Obeys P Q (step sources ⟨r, .handle update :: rest⟩) := by
  rw [step_handle tracked]
  refine obeys_of_done ⟨regular, fun f member => ?_, fun waiting waits f member same => ?_⟩ ?_
  · obtain ⟨g, old, -, ⟨here, rfl⟩ | ⟨other, rfl⟩⟩ := mem_renew member
    · exact own g old here
    · exact others f old other
  · obtain ⟨g, old, uri, ⟨here, -⟩ | ⟨-, rfl⟩⟩ := mem_renew member
    · exact absurd (same.symm.trans (uri.trans here)) (apart waiting waits)
    · exact held waiting waits f old same
  · intro task member
    rcases List.mem_append.mp member with discovery | later
    · obtain ⟨_, -, rfl⟩ := List.mem_map.mp discovery
      rfl
    · rcases List.mem_cons.mp later with rfl | later
      · rfl
      · exact done task later

/-- Queueing an update that may be handled, whatever is to be done later. What was held back for
the same file is of no account. -/
theorem obeys_push (regular : r.debouncer.Regular) (files : ∀ f ∈ r.files, P f)
    (others : ∀ waiting ∈ r.debouncer.items, waiting.uri ≠ update.uri → r.Allows Q waiting)
    (allowed : r.Allows Q update) (done : ∀ task ∈ rest, task.update? = none) :
    Obeys P Q ⟨(r.push update).1, (r.push update).2.map .handle ++ rest⟩ := by
  have known : ∀ other ∈ (r.debouncer.push update.uri update).2 ++
      (r.debouncer.push update.uri update).1.items, r.Allows Q other := by
    intro other member
    rcases Debouncer.mem_of_push member with rfl | displaced
    · exact allowed
    · exact others other (Debouncer.mem_items_of_displaced displaced)
        (regular.uri_ne_of_mem_displaced displaced)
  have single : (r.push update).2.tail = [] := by
    rw [push_ready]
    exact regular.push_ready_tail
  refine ⟨⟨?_, files, fun held waits => ?_⟩, fun other member => ?_, fun task member => ?_⟩
  · simp only [push_debouncer]
    exact Debouncer.regular_push
  · simp only [push_debouncer] at waits
    exact known held (List.mem_append_right _ waits)
  · have ready : other ∈ (r.debouncer.push update.uri update).2 := by
      rcases List.mem_append.mp member with ready | later
      · rw [push_ready] at ready
        simpa using ready
      · have := done _ later
        cases this
    refine ⟨known other (List.mem_append_left _ ready), fun held waits => ?_⟩
    simp only [push_debouncer] at waits
    -- Without a delay nothing waits; with one the update itself does, and another was displaced.
    by_cases zero : r.debouncer.delay = 0
    · simp [Debouncer.items, (Debouncer.push_of_delay_zero update.uri update zero).1] at waits
    · obtain ⟨holds, displaced⟩ := Debouncer.push_of_delay_pos update.uri update zero
      obtain rfl : held = update := by simpa [Debouncer.items, holds] using waits
      rw [displaced] at ready
      exact (regular.uri_ne_of_mem_displaced ready).symm
  · refine done task ?_
    rw [List.tail_append, ← List.map_tail, single] at member
    split at member
    · exact List.mem_of_mem_tail member
    · exact member

theorem Obeys.discover (regime : Regime sources P Q) (h : Obeys P Q ⟨r, .discover uri :: rest⟩)
    (untracked : uri ∉ r.uris) : Obeys P Q (step sources ⟨r, .discover uri :: rest⟩) := by
  rw [step_discover untracked]
  refine obeys_push (by simpa using h.registry.regular) (fun f member => ?_)
    (fun waiting waits other f member own => ?_) (fun f member own => ?_) h.last
  · rcases mem_add untracked member with old | rfl
    · exact h.registry.files f old
    · exact regime.new uri
  · rw [add_debouncer] at waits
    rcases mem_add untracked member with old | rfl
    · exact h.registry.held waiting waits f old own
    · exact absurd (own.symm.trans loading_uri.symm) other
  · rcases mem_add untracked member with old | rfl
    · exact absurd (own.trans loading_uri ▸ uri_mem_uris old) untracked
    · exact regime.load uri

theorem Obeys.finish (h : Obeys P Q ⟨r, .finish uri :: rest⟩) :
    Obeys P Q (step sources ⟨r, .finish uri :: rest⟩) := by
  have kept : ∀ f ∈ r.collect.files, f ∈ r.files := fun f member => (List.mem_filter.mp member).1
  exact obeys_of_done ⟨h.registry.regular, fun f member => h.registry.files f (kept f member),
    fun held waits f member => h.registry.held held waits f (kept f member)⟩ h.last

/-- A step keeps to a regime. -/
theorem Obeys.step {s : Handling} (regime : Regime sources P Q) (h : s.Obeys P Q) :
    (s.step sources).Obeys P Q := by
  obtain ⟨r, _ | ⟨task, rest⟩⟩ := s
  · exact h
  cases task with
  | handle update =>
    by_cases tracked : update.uri ∈ r.uris
    · obtain ⟨allowed, apart⟩ := h.next update List.mem_cons_self
      exact obeys_handle tracked h.registry.regular (fun f old _ => h.registry.files f old)
        (fun f old own => regime.renew r f update (h.registry.files f old) (allowed f old own) own)
        h.registry.held apart h.last
    · rw [step_handle_of_not_mem tracked]
      exact obeys_of_done h.registry h.last
  | discover uri =>
    by_cases tracked : uri ∈ r.uris
    · rw [step_discover_of_mem tracked]
      exact obeys_of_done h.registry h.last
    · exact h.discover regime tracked
  | finish uri => exact h.finish

theorem Obeys.leads {s t : Handling} (regime : Regime sources P Q) (h : s.Obeys P Q)
    (run : Leads sources s t) : t.Obeys P Q :=
  run.preserves (fun _ before => before.step regime) h

/-! ## Files that await their update -/

/-- Every file has the property or awaits its update. -/
def Awaits (P : TrackedFile → Prop) (s : Handling) : Prop :=
  ∀ f ∈ s.registry.files, P f ∨ ∃ update ∈ s.awaited, update.uri = f.uri

/-- Whatever a file is like, an update that may be handled gives it the property. -/
def Restores (sources : Sources) (P : TrackedFile → Prop) (Q : TrackedFile → Update → Prop) :
    Prop :=
  ∀ (r : Registry) (f : TrackedFile) (update : Update), Q f update → f.uri = update.uri →
    P (r.renewed sources update f)

/-- An update that is awaited is one to handle now, or awaited without it. -/
theorem Awaits.handle (tracked : update.uri ∈ r.uris)
    (own : ∀ f ∈ r.files, f.uri = update.uri → P (r.renewed sources update f))
    (h : Awaits P ⟨r, .handle update :: rest⟩) :
    Awaits P (step sources ⟨r, .handle update :: rest⟩) := by
  intro f member
  rw [awaited_step_handle tracked]
  rw [step_handle tracked] at member
  obtain ⟨g, old, -, ⟨here, rfl⟩ | ⟨other, rfl⟩⟩ := mem_renew member
  · exact .inl (own g old here)
  · refine (h f old).imp_right ?_
    rintro ⟨waiting, waits, same⟩
    rw [awaited_handle] at waits
    refine ⟨waiting, (List.mem_cons.mp waits).resolve_left ?_, same⟩
    rintro rfl
    exact other same.symm

/-- A task that is done without effect was about no file that awaits its update. -/
theorem Awaits.skip {task : Task} (h : Awaits P ⟨r, task :: rest⟩)
    (idle : ∀ update, task = .handle update → update.uri ∉ r.uris) : Awaits P ⟨r, rest⟩ := by
  refine fun f member => (h f member).imp_right ?_
  rintro ⟨waiting, waits, same⟩
  refine ⟨waiting, mem_awaited.mpr ((mem_awaited.mp waits).imp_left fun listed => ?_), same⟩
  exact (List.mem_cons.mp listed).resolve_left fun here =>
    idle waiting here.symm (same ▸ uri_mem_uris member)

/-- Pushing an update makes up for the files that it is for. -/
theorem awaits_push (regular : r.debouncer.Regular)
    (others : ∀ f ∈ r.files, f.uri ≠ update.uri →
      P f ∨ ∃ waiting ∈ awaited ⟨r, rest⟩, waiting.uri = f.uri) :
    Awaits P ⟨(r.push update).1, (r.push update).2.map .handle ++ rest⟩ := by
  intro f member
  have later : ∀ waiting ∈ (r.debouncer.push update.uri update).2 ++
      (r.debouncer.push update.uri update).1.items,
      waiting ∈ awaited ⟨(r.push update).1, (r.push update).2.map .handle ++ rest⟩ := by
    intro waiting either
    rw [mem_awaited, push_ready, push_debouncer, List.mem_append]
    rcases List.mem_append.mp either with now | held
    · exact .inl (.inl (List.mem_map_of_mem now))
    · exact .inr held
  by_cases here : f.uri = update.uri
  · exact .inr ⟨update, later _ Debouncer.mem_push_self, here.symm⟩
  · refine (others f member here).imp_right ?_
    rintro ⟨waiting, waits, same⟩
    refine ⟨waiting, ?_, same⟩
    rcases mem_awaited.mp waits with task | item
    · exact mem_awaited.mpr (.inl (List.mem_append_right _ task))
    · exact later waiting (regular.mem_push item (same ▸ here))

theorem Awaits.discover (regular : r.debouncer.Regular) (untracked : uri ∉ r.uris)
    (h : Awaits P ⟨r, .discover uri :: rest⟩) :
    Awaits P (step sources ⟨r, .discover uri :: rest⟩) := by
  rw [step_discover untracked]
  refine awaits_push (by simpa using regular) fun f member other => ?_
  rcases mem_add untracked member with old | rfl
  · simpa [mem_awaited] using h f old
  · exact absurd loading_uri.symm other

theorem Awaits.finish (h : Awaits P ⟨r, .finish uri :: rest⟩) :
    Awaits P (step sources ⟨r, .finish uri :: rest⟩) :=
  fun f member => h f (List.mem_filter.mp member).1

/-- A step under a regime leaves every file with the property or awaiting its update. -/
theorem Awaits.step {s : Handling} (obeys : s.Obeys P' Q) (restores : Restores sources P Q)
    (h : s.Awaits P) : (s.step sources).Awaits P := by
  obtain ⟨r, _ | ⟨task, rest⟩⟩ := s
  · exact h
  cases task with
  | handle update =>
    by_cases tracked : update.uri ∈ r.uris
    · obtain ⟨allowed, -⟩ := obeys.next update List.mem_cons_self
      exact h.handle tracked fun f old own => restores r f update (allowed f old own) own
    · rw [step_handle_of_not_mem tracked]
      exact h.skip (by simp [tracked])
  | discover uri =>
    by_cases tracked : uri ∈ r.uris
    · rw [step_discover_of_mem tracked]
      exact h.skip (by simp)
    · exact h.discover obeys.registry.regular tracked
  | finish uri => exact h.finish

end Handling

open Handling

/-! ## Operations -/

section regime

variable (regime : Regime sources P Q)

include regime

theorem Obeys.process (h : r.Obeys P Q) (allowed : r.Allows Q update)
    (idle : r.debouncer.held? = none) (done : r.process sources update = some r') :
    r'.Obeys P Q := by
  have start : Handling.Obeys P Q ⟨r, [.handle update]⟩ := by
    refine ⟨h, fun other member => ?_, by simp⟩
    obtain rfl : other = update := by simpa using member
    exact ⟨allowed, by simp [Debouncer.items, idle]⟩
  exact (process_preserves (fun _ before => before.step regime) done start).registry

/-- What was held back for the file of the update is of no account. -/
theorem obeys_queue (regular : r.debouncer.Regular) (files : ∀ f ∈ r.files, P f)
    (others : ∀ waiting ∈ r.debouncer.items, waiting.uri ≠ update.uri → r.Allows Q waiting)
    (allowed : r.Allows Q update) (done : r.queue sources update = some r') : r'.Obeys P Q := by
  have start : Handling.Obeys P Q ⟨(r.push update).1, (r.push update).2.map .handle ++ []⟩ :=
    obeys_push regular files others allowed (by simp)
  rw [List.append_nil] at start
  rw [← outcome?_push, outcome?_eq_some_iff] at done
  exact (start.leads regime done).registry

theorem Obeys.queue (h : r.Obeys P Q) (allowed : r.Allows Q update)
    (done : r.queue sources update = some r') : r'.Obeys P Q :=
  obeys_queue regime h.regular h.files (fun waiting waits _ => h.held waiting waits) allowed done

theorem Obeys.updateFromEditor (h : r.Obeys P Q) (allowed : r.Allows Q (.editor document))
    (done : r.updateFromEditor sources document = some r') : r'.Obeys P Q := by
  unfold Registry.updateFromEditor at done
  split at done
  · cases done
    exact h
  · split at done
    · cases done
      exact h
    · exact h.queue regime allowed done

theorem Obeys.updateFromDisk (h : r.Obeys P Q) (allowed : r.Allows Q (.disk uri))
    (done : r.updateFromDisk sources uri = some r') : r'.Obeys P Q := by
  unfold Registry.updateFromDisk at done
  split at done
  · exact h.queue regime allowed done
  · cases done
    exact h

omit regime in
/-- With nothing held back, the regime is about files only. -/
theorem obeys_released (files : ∀ f ∈ r.files, P f) : r.released.Obeys P Q :=
  ⟨Debouncer.regular_of_held?_none rfl, files, by simp [Registry.released, Debouncer.items]⟩

/-- An update that waits may be handled. -/
theorem Obeys.flushPending {flushed : Bool} (h : r.Obeys P Q)
    (done : r.flushPending sources = some (r', flushed)) : r'.Obeys P Q := by
  cases held : r.debouncer.held? with
  | none =>
    simp only [Registry.flushPending, Registry.flush, Debouncer.takePending, held] at done
    cases done
    have released : r.released.Obeys P Q := obeys_released h.files
    exact released
  | some entry =>
    obtain ⟨key, update⟩ := entry
    rw [flushPending_of_held held] at done
    obtain ⟨after, processed, same⟩ := Option.map_eq_some_iff.mp done
    cases same
    have allowed : r.released.Allows Q update := h.held update (by simp [Debouncer.items, held])
    exact (obeys_released h.files).process regime allowed rfl processed

theorem Obeys.flushDue {generation : Nat} {flushed : Bool} (h : r.Obeys P Q)
    (done : r.flushDue sources generation = some (r', flushed)) : r'.Obeys P Q := by
  unfold Registry.flushDue Debouncer.takeDue at done
  split at done
  · exact h.flushPending regime done
  · cases done
    exact h

omit regime in
/-- Queueing an update leaves no other file without the property, unless it awaits its update. -/
theorem awaits_queue (regime : Regime sources P' Q) (restores : Handling.Restores sources P Q)
    (regular : r.debouncer.Regular) (files : ∀ f ∈ r.files, P' f)
    (others : ∀ waiting ∈ r.debouncer.items, waiting.uri ≠ update.uri → r.Allows Q waiting)
    (known : ∀ f ∈ r.files, f.uri ≠ update.uri → P f)
    (allowed : r.Allows Q update) (done : r.queue sources update = some r') :
    Awaits P ⟨r', []⟩ := by
  have start : Handling.Obeys P' Q ⟨(r.push update).1, (r.push update).2.map .handle ++ []⟩ ∧
      Awaits P ⟨(r.push update).1, (r.push update).2.map .handle ++ []⟩ :=
    ⟨obeys_push regular files others allowed (by simp),
      awaits_push regular fun f member other => .inl (known f member other)⟩
  rw [List.append_nil] at start
  rw [← outcome?_push, outcome?_eq_some_iff] at done
  exact (done.preserves (P := fun s => s.Obeys P' Q ∧ s.Awaits P)
    (fun s before => ⟨before.1.step regime, before.2.step before.1 restores⟩) start).2

omit regime in
/-- When what is held back is handled, the last files that lacked the property get it. -/
theorem obeys_flushPending {flushed : Bool} (regime : Regime sources P Q)
    (restores : Handling.Restores sources P Q) (h : r.Obeys P' Q) (awaits : Awaits P ⟨r, []⟩)
    (done : r.flushPending sources = some (r', flushed)) : r'.Obeys P Q := by
  cases held : r.debouncer.held? with
  | none =>
    simp only [Registry.flushPending, Registry.flush, Debouncer.takePending, held] at done
    cases done
    have released : r.released.Obeys P Q := by
      refine obeys_released fun f member => (awaits f member).resolve_right ?_
      rintro ⟨update, waits, -⟩
      simp [mem_awaited, Debouncer.items, held] at waits
    exact released
  | some entry =>
    obtain ⟨key, update⟩ := entry
    rw [flushPending_of_held held] at done
    obtain ⟨after, processed, same⟩ := Option.map_eq_some_iff.mp done
    cases same
    have only : ∀ f ∈ r.files, f.uri ≠ update.uri → P f := by
      intro f member other
      refine (awaits f member).resolve_right ?_
      rintro ⟨waiting, waits, own⟩
      obtain rfl : waiting = update := by simpa [mem_awaited, Debouncer.items, held] using waits
      exact other own.symm
    have allowed : r.Allows Q update := h.held update (by simp [Debouncer.items, held])
    have first : Handling.Obeys P Q (step sources ⟨r.released, [.handle update]⟩) := by
      by_cases tracked : update.uri ∈ r.released.uris
      · exact obeys_handle tracked (Debouncer.regular_of_held?_none rfl) only
          (fun f member own => restores r.released f update (allowed f member own) own)
          (by simp [released, Debouncer.items]) (by simp [released, Debouncer.items]) (by simp)
      · rw [step_handle_of_not_mem tracked]
        refine obeys_of_done (obeys_released fun f member => only f member ?_) (by simp)
        exact fun own => tracked (own ▸ uri_mem_uris member)
    have run := process_eq_some_iff.mp processed
    exact (first.leads regime run.of_step).registry

/-- A document is settled if its text may be handled for a file of another version. -/
theorem Obeys.settleDocument (h : r.Obeys P Q) (once : r.uris.Nodup)
    (allowed : ∀ f ∈ r.files, f.uri = document.uri → f.version ≠ document.version →
      Q f (.editor document))
    (done : r.settleDocument sources document = some r') : r'.Obeys P Q := by
  unfold Registry.settleDocument at done
  split at done
  · next other =>
    have text : r.Allows Q (.editor document) := by
      intro f member own
      have own : f.uri = document.uri := own
      have found : r.find? document.uri = some f := own ▸ find?_of_mem once member
      exact allowed f member own (by simpa [found] using other)
    obtain ⟨edited, editing, rest⟩ := Option.bind_eq_some_iff.mp done
    obtain ⟨⟨flushed, _⟩, flushing, same⟩ := Option.bind_eq_some_iff.mp rest
    cases same
    exact (h.updateFromEditor regime text editing).flushPending regime flushing
  · cases done
    exact h

omit regime in
/-- A mark of one file that neither spoils its property nor forbids an update. -/
theorem Obeys.modify {change : TrackedFile → TrackedFile} (h : r.Obeys P Q)
    (uris : ∀ f, (change f).uri = f.uri) (keeps : ∀ f ∈ r.files, f.uri = uri → P f → P (change f))
    (allows : ∀ f ∈ r.files, ∀ update, f.uri = uri → Q f update → Q (change f) update) :
    (r.modify uri change).Obeys P Q where
  regular := h.regular
  files f member := by
    obtain ⟨g, old, rfl⟩ := mem_modify.mp member
    split
    · next own => exact keeps g old own (h.files g old)
    · exact h.files g old
  held update waits f member same := by
    obtain ⟨g, old, rfl⟩ := mem_modify.mp member
    split at same
    · next own =>
      rw [if_pos own]
      exact allows g old update own (h.held update waits g old ((uris g).symm.trans same))
    · next other =>
      rw [if_neg other]
      exact h.held update waits g old same

theorem Obeys.markSaved (h : r.Obeys P Q) (once : r.uris.Nodup)
    (allowed : ∀ f ∈ r.files, f.uri = document.uri → f.version ≠ document.version →
      Q f (.editor document))
    (keeps : ∀ f, f.uri = document.uri → P f → P { f with dirty := false })
    (allows : ∀ f update, f.uri = document.uri → Q f update →
      Q { f with dirty := false } update)
    (done : r.markSaved sources document = some r') : r'.Obeys P Q := by
  obtain ⟨settled, settling, same⟩ := Option.bind_eq_some_iff.mp done
  cases same
  exact (h.settleDocument regime once allowed settling).modify (fun _ => rfl)
    (fun f _ => keeps f) (fun f _ => allows f)

theorem Obeys.markClosed (h : r.Obeys P Q) (once : r.uris.Nodup)
    (allowed : ∀ f ∈ r.files, f.uri = document.uri → f.version ≠ document.version →
      Q f (.editor document))
    (keeps : ∀ f, f.uri = document.uri → P f → P { f with document? := none })
    (allows : ∀ f update, f.uri = document.uri → Q f update →
      Q { f with document? := none } update)
    (done : r.markClosed sources document = some r') : r'.Obeys P Q := by
  obtain ⟨settled, settling, same⟩ := Option.bind_eq_some_iff.mp done
  cases same
  exact (h.settleDocument regime once allowed settling).modify (fun _ => rfl)
    (fun f _ => keeps f) (fun f _ => allows f)

omit regime in
theorem Obeys.dispose (h : r.Obeys P Q) : r.dispose.Obeys P Q :=
  ⟨Debouncer.regular_of_held?_none rfl, h.files, by simp [Registry.dispose, Debouncer.clear,
    Debouncer.items]⟩

/-- The first document of a project. -/
theorem obeys_addDocument {delay : Nat} (allowed : Q { uri := document.uri } (.editor document))
    (done : (blank delay).addDocument sources document = some r') : r'.Obeys P Q := by
  have untracked : document.uri ∉ (blank delay).uris := by simp [blank, uris]
  have start : ((blank delay).add document.uri).Obeys P Q :=
    (obeys_blank delay).add regime.new (by simp [blank, Debouncer.items])
  refine start.updateFromEditor regime (fun f member own => ?_) done
  rcases mem_add untracked member with old | rfl
  · simp [blank] at old
  · exact allowed

end regime

end Registry

end AsmServer
