import AsmServer.Proofs.Registry.Consistency
import AsmServer.Proofs.Registry.Holding

/-!
# Operations of a registry

An operation is a sequence of moves of three kinds: the debouncer takes or gives up an
update, an update is handled, or a file is marked as saved or closed. What every move
preserves is preserved by every operation. Consistency, closedness and tidiness are; only
tracking a further document, which no edge leads to, spoils tidiness.
-/

namespace AsmServer

/-- What each action of a sequence preserves, the whole sequence preserves. -/
theorem foldlM_preserves_of_mem {α β : Type} {act : β → α → Option β} {P : β → Prop}
    {actions : List α} (each : ∀ a ∈ actions, ∀ b b', act b a = some b' → P b → P b') {b b' : β}
    (h : actions.foldlM act b = some b') (start : P b) : P b' := by
  induction actions generalizing b with
  | nil =>
    obtain rfl : b = b' := by simpa using h
    exact start
  | cons a rest ih =>
    rw [List.foldlM_cons] at h
    obtain ⟨middle, first, later⟩ := Option.bind_eq_some_iff.mp h
    exact ih (fun a member => each a (List.mem_cons_of_mem _ member)) later
      (each a List.mem_cons_self b middle first start)

theorem foldlM_preserves {α β : Type} {act : β → α → Option β} {P : β → Prop}
    (each : ∀ b a b', act b a = some b' → P b → P b') {actions : List α} {b b' : β}
    (h : actions.foldlM act b = some b') (start : P b) : P b' :=
  foldlM_preserves_of_mem (fun a _ b b' => each b a b') h start

namespace Registry

/-- What can be asked of a registry, apart from tracking a document. -/
inductive Operation where
  /-- The editor has a new text. -/
  | edit (document : Document)
  /-- The file changed on the disk. -/
  | reload (uri : Uri)
  | save (document : Document)
  | close (document : Document)
  /-- A timer fires. -/
  | due (generation : Nat)
  | flush
  | dispose

/-- The registry after an operation. -/
def Operation.apply (sources : Sources) (operation : Operation) (r : Registry) : Option Registry :=
  match operation with
  | edit document => r.updateFromEditor sources document
  | reload uri => r.updateFromDisk sources uri
  | save document => r.markSaved sources document
  | close document => r.markClosed sources document
  | due generation => (r.flushDue sources generation).map (·.1)
  | flush => (r.flushPending sources).map (·.1)
  | dispose => some r.dispose

/-- A change of a file that concerns neither its text nor its edges. -/
structure IsMark (change : TrackedFile → TrackedFile) : Prop where
  uri : ∀ f, (change f).uri = f.uri
  contents? : ∀ f, (change f).contents? = f.contents?
  dependencies : ∀ f, (change f).dependencies = f.dependencies

/-- A part of an operation. -/
inductive Move (sources : Sources) : Registry → Registry → Prop where
  /-- The debouncer takes an update or gives one up. -/
  | hold (r : Registry) (debouncer : Debouncer Uri Update)
      (delay : debouncer.delay = r.debouncer.delay)
      (regular : r.debouncer.Regular → debouncer.Regular) :
      Move sources r { r with debouncer }
  /-- An update is handled. -/
  | handle {r r' : Registry} {update : Update} (done : r.process sources update = some r') :
      Move sources r r'
  /-- A file is saved or closed. -/
  | mark (r : Registry) (u : Uri) {change : TrackedFile → TrackedFile} (only : IsMark change) :
      Move sources r (r.modify u change)

/-- Parts of operations, one after the other. -/
abbrev Moves (sources : Sources) : Registry → Registry → Prop :=
  Relation.ReflTransGen (Move sources)

variable {sources : Sources} {r r' : Registry} {update : Update} {document : Document}
  {uri u v entry : Uri}

theorem Moves.preserves {P : Registry → Prop} (move : ∀ r r', Move sources r r' → P r → P r')
    (h : Moves sources r r') (start : P r) : P r' := by
  induction h with
  | refl => exact start
  | tail _ next ih => exact move _ _ next ih

/-! ## Operations are moves -/

theorem foldlM_process_moves {updates : List Update}
    (h : updates.foldlM (process sources) r = some r') : Moves sources r r' :=
  foldlM_preserves (P := Moves sources r) (fun _ _ _ done moves => moves.tail (.handle done)) h
    .refl

theorem queue_moves (h : r.queue sources update = some r') : Moves sources r r' := by
  rw [queue.eq_def] at h
  refine .head (.hold r _ ?_ ?_) (foldlM_process_moves h)
  · exact Debouncer.push_delay
  · exact fun _ => Debouncer.regular_push

/-- Without a delay an update is handled at once. -/
theorem queue_of_delay_zero (zero : r.debouncer.delay = 0)
    (calm : r.debouncer.displaced update.uri = []) :
    r.queue sources update = (r.push update).1.process sources update := by
  obtain ⟨-, ready⟩ := Debouncer.push_of_delay_zero update.uri update zero
  have one : (r.push update).2 = [update] := by rw [push_ready, ready, calm, List.nil_append]
  rw [queue.eq_def, one]
  simp

/-- With a delay an update is held back. -/
theorem queue_of_delay_pos (positive : r.debouncer.delay ≠ 0)
    (calm : r.debouncer.displaced update.uri = []) :
    r.queue sources update = some (r.push update).1 := by
  obtain ⟨-, ready⟩ := Debouncer.push_of_delay_pos update.uri update positive
  have none : (r.push update).2 = [] := by rw [push_ready, ready, calm]
  rw [queue.eq_def, none]
  rfl

/-- A text that a tracked file does not hold yet is queued. -/
theorem updateFromEditor_of_stale {f : TrackedFile} (found : r.find? document.uri = some f)
    (stale : f.isCurrent document = false) :
    r.updateFromEditor sources document = r.queue sources (.editor document) := by
  simp [updateFromEditor, found, stale]

/-- What queueing a new text makes of a registry, if `n` steps are enough for it. -/
theorem updateFromEditor_queued {n : Nat}
    (stale : (r.find? document.uri).map (·.isCurrent document) = some false)
    (enough : ((Handling.step sources)^[n] ⟨(r.push (.editor document)).1,
      (r.push (.editor document)).2.map .handle⟩).agenda = []) :
    r.updateFromEditor sources document = some (queued sources n r (.editor document)) := by
  obtain ⟨f, found, old⟩ := Option.map_eq_some_iff.mp stale
  rw [updateFromEditor_of_stale found old, queue_eq_queued enough]

theorem updateFromEditor_moves (h : r.updateFromEditor sources document = some r') :
    Moves sources r r' := by
  unfold updateFromEditor at h
  split at h
  · cases h
    exact .refl
  · split at h
    · cases h
      exact .refl
    · exact queue_moves h

theorem updateFromDisk_moves (h : r.updateFromDisk sources uri = some r') :
    Moves sources r r' := by
  unfold updateFromDisk at h
  split at h
  · exact queue_moves h
  · cases h
    exact .refl

theorem flush_moves {taken : Debouncer Uri Update × Option Update} {flushed : Bool}
    (delay : taken.1.delay = r.debouncer.delay)
    (regular : r.debouncer.Regular → taken.1.Regular)
    (h : r.flush sources taken = some (r', flushed)) : Moves sources r r' := by
  refine .head (.hold r _ delay regular) ?_
  unfold flush at h
  split at h
  · cases h
    exact .refl
  · obtain ⟨after, done, same⟩ := Option.map_eq_some_iff.mp h
    cases same
    exact .single (.handle done)

/-- The registry with nothing held back. -/
def released (r : Registry) : Registry := { r with debouncer := r.debouncer.takePending.1 }

theorem flushPending_of_held (held : r.debouncer.held? = some (uri, update)) :
    r.flushPending sources = (r.released.process sources update).map fun r => (r, true) := by
  simp [flushPending, flush, Debouncer.takePending, held, released]

theorem flushPending_moves {flushed : Bool} (h : r.flushPending sources = some (r', flushed)) :
    Moves sources r r' :=
  flush_moves rfl (fun _ => Debouncer.regular_of_held?_none rfl) h

theorem flushDue_moves {generation : Nat} {flushed : Bool}
    (h : r.flushDue sources generation = some (r', flushed)) : Moves sources r r' :=
  flush_moves (Debouncer.takeDue_delay _) (fun regular => regular.takeDue _) h

theorem settleDocument_moves (h : r.settleDocument sources document = some r') :
    Moves sources r r' := by
  unfold settleDocument at h
  split at h
  · obtain ⟨edited, editing, rest⟩ := Option.bind_eq_some_iff.mp h
    obtain ⟨⟨flushed, _⟩, flushing, done⟩ := Option.bind_eq_some_iff.mp rest
    cases done
    exact (updateFromEditor_moves editing).trans (flushPending_moves flushing)
  · cases h
    exact .refl

theorem markSaved_moves (h : r.markSaved sources document = some r') : Moves sources r r' := by
  obtain ⟨settled, settling, done⟩ := Option.bind_eq_some_iff.mp h
  cases done
  exact (settleDocument_moves settling).tail
    (.mark settled _ ⟨fun _ => rfl, fun _ => rfl, fun _ => rfl⟩)

theorem markClosed_moves (h : r.markClosed sources document = some r') : Moves sources r r' := by
  obtain ⟨settled, settling, done⟩ := Option.bind_eq_some_iff.mp h
  cases done
  exact (settleDocument_moves settling).tail
    (.mark settled _ ⟨fun _ => rfl, fun _ => rfl, fun _ => rfl⟩)

theorem dispose_move : Move sources r r.dispose :=
  .hold r _ rfl fun _ => Debouncer.regular_of_held?_none rfl

/-- Every operation consists of moves. -/
theorem Operation.moves {operation : Operation} (h : operation.apply sources r = some r') :
    Moves sources r r' := by
  cases operation with
  | edit document => exact updateFromEditor_moves h
  | reload uri => exact updateFromDisk_moves h
  | save document => exact markSaved_moves h
  | close document => exact markClosed_moves h
  | due generation =>
    obtain ⟨⟨after, flushed⟩, done, rfl⟩ := Option.map_eq_some_iff.mp h
    exact flushDue_moves done
  | flush =>
    obtain ⟨⟨after, flushed⟩, done, rfl⟩ := Option.map_eq_some_iff.mp h
    exact flushPending_moves done
  | dispose =>
    cases h
    exact .single dispose_move

/-! ## The debouncer -/

/-- A step leaves the delay, and the debouncer regular. -/
theorem Handling.regular_step {s : Handling} (h : s.registry.debouncer.Regular) :
    (s.step sources).registry.debouncer.Regular ∧
      (s.step sources).registry.debouncer.delay = s.registry.debouncer.delay := by
  obtain ⟨r, _ | ⟨task, rest⟩⟩ := s
  · exact ⟨h, rfl⟩
  cases task with
  | handle update =>
    by_cases tracked : update.uri ∈ r.uris
    · rw [step_handle tracked]
      exact ⟨h, rfl⟩
    · rw [step_handle_of_not_mem tracked]
      exact ⟨h, rfl⟩
  | discover uri =>
    by_cases tracked : uri ∈ r.uris
    · rw [step_discover_of_mem tracked]
      exact ⟨h, rfl⟩
    · rw [step_discover tracked]
      exact ⟨Debouncer.regular_push, by simp [push_debouncer]⟩
  | finish uri => exact ⟨h, rfl⟩

/-- Moves leave the delay, and the debouncer regular. -/
theorem Moves.regular (moves : Moves sources r r') (h : r.debouncer.Regular) :
    r'.debouncer.Regular ∧ r'.debouncer.delay = r.debouncer.delay := by
  refine Moves.preserves
    (P := fun s => s.debouncer.Regular ∧ s.debouncer.delay = r.debouncer.delay) ?_ moves ⟨h, rfl⟩
  rintro s s' move ⟨regular, same⟩
  cases move with
  | hold debouncer delay keeps => exact ⟨keeps regular, delay.trans same⟩
  | handle done =>
    refine process_preserves (P := fun t => t.registry.debouncer.Regular ∧
      t.registry.debouncer.delay = r.debouncer.delay) ?_ done ⟨regular, same⟩
    rintro t ⟨regular, same⟩
    exact ⟨(Handling.regular_step regular).1, (Handling.regular_step regular).2.trans same⟩
  | mark uri only => exact ⟨regular, same⟩

/-! ## Marks -/

section mark

variable {change : TrackedFile → TrackedFile} (only : IsMark change)

include only

theorem uris_mark : (r.modify u change).uris = r.uris := uris_modify only.uri

theorem targets_mark : (r.modify u change).targets v = r.targets v := by
  rw [targets, targets, find?_modify only.uri]
  split
  · simp [Option.map_map, Function.comp_def, TrackedFile.targets, only.dependencies]
  · rfl

theorem links_mark {w : Uri} : (r.modify u change).Links v w ↔ r.Links v w := by
  simp [Links, targets_mark only]

theorem reachable_mark : (r.modify u change).Reachable v ↔ r.Reachable v := by
  have : (r.modify u change).Links = r.Links := by
    funext a b
    exact propext (links_mark only)
  simp [Reachable, this]

theorem consistent_mark {f : TrackedFile} (h : f.Consistent) : (change f).Consistent where
  owned := by simpa [only.dependencies, only.uri] using h.owned
  distinct := by simpa [TrackedFile.targets, only.dependencies] using h.distinct
  sourced := by
    simpa [only.dependencies, only.uri, TrackedFile.lines, only.contents?] using h.sourced

theorem forall_consistent_mark (h : ∀ f ∈ r.files, f.Consistent) :
    ∀ f ∈ (r.modify u change).files, f.Consistent := by
  intro f member
  obtain ⟨g, listed, rfl⟩ := mem_modify.mp member
  split
  · exact consistent_mark only (h g listed)
  · exact h g listed

end mark

/-! ## Soundness -/

/-- What holds of a registry between operations. -/
structure Sound (entry : Uri) (r : Registry) : Prop extends r.Consistent entry where
  closed : r.Closed

theorem Sound.congr {s : Registry} (h : r.Sound entry) (files : s.files = r.files)
    (same : s.entry? = r.entry?) : s.Sound entry :=
  ⟨h.toConsistent.congr files same, (closed_congr files).mpr h.closed⟩

/-- Every edge of a tracked file leads to a tracked file. -/
theorem Sound.leads (h : r.Sound entry) {f : TrackedFile} (member : f ∈ r.files)
    {edge : Dependency} (known : edge ∈ f.dependencies) : edge.uri ∈ r.uris := by
  refine h.closed f.uri edge.uri ?_
  rw [Links, targets_of_find? (find?_of_mem h.once member)]
  exact List.mem_map_of_mem known

theorem Sound.move (h : r.Sound entry) (move : Move sources r r') : r'.Sound entry := by
  cases move with
  | hold debouncer => exact h.congr rfl rfl
  | handle done => exact ⟨process_consistent done h.toConsistent h.closed,
      process_closed done h.toConsistent h.closed⟩
  | mark uri only =>
    refine ⟨⟨?_, h.entry?, ?_, forall_consistent_mark only h.files⟩, fun u v link => ?_⟩
    · rw [uris_mark only]
      exact h.once
    · rw [uris_mark only]
      exact h.tracked
    · rw [uris_mark only]
      exact h.closed u v ((links_mark only).mp link)

theorem Sound.moves (h : r.Sound entry) (moves : Moves sources r r') : r'.Sound entry :=
  Moves.preserves (fun _ _ move sound => Sound.move sound move) moves h

/-- Moves keep a sound registry tidy. -/
theorem Tidy.moves (tidy : r.Tidy) (sound : r.Sound entry) (moves : Moves sources r r') :
    r'.Tidy := by
  have both : r'.Sound entry ∧ r'.Tidy := by
    refine Moves.preserves (P := fun r => r.Sound entry ∧ r.Tidy) ?_ moves ⟨sound, tidy⟩
    rintro r r' move ⟨sound, tidy⟩
    refine ⟨sound.move move, ?_⟩
    cases move with
    | hold debouncer => exact tidy
    | handle done => exact process_tidy done sound.toConsistent sound.closed tidy
    | mark uri only =>
      intro u member
      exact (reachable_mark only).mpr (tidy u (by rwa [uris_mark only] at member))
  exact both.2

/-! ## Tracking a document -/

/-- A registry before its first document. -/
def blank (delay : Nat) : Registry := { debouncer := { delay } }

/-- The first document is the entry file. -/
theorem sound_add_first (empty : r.uris = []) (first : r.entry? = none) :
    (r.add u).Sound u ∧ (r.add u).Tidy := by
  have untracked : u ∉ r.uris := by simp [empty]
  have uris : (r.add u).uris = [u] := by rw [uris_add untracked, empty, List.nil_append]
  have files : (r.add u).files = [{ uri := u }] := by
    rw [add_files untracked, List.map_eq_nil_iff.mp empty, List.nil_append]
  have entry : entry? (r.add u) = some u := by
    simp [add, untracked, first]
  refine ⟨⟨⟨by simp [uris], entry, by simp [uris], fun f member => ?_⟩, fun v w link => ?_⟩,
    fun v member => ?_⟩
  · rw [files] at member
    rw [List.mem_singleton.mp member]
    exact consistent_new
  · rw [Links, targets_add untracked, targets_of_not_mem (by simp [empty])] at link
    simp at link
  · rw [uris] at member
    rw [List.mem_singleton.mp member]
    exact reachable_entry entry

/-- The text of the first document is queued. -/
theorem addDocument_blank_eq_queue {delay : Nat} :
    (blank delay).addDocument sources document =
      ((blank delay).add document.uri).queue sources (.editor document) := by
  have untracked : document.uri ∉ (blank delay).uris := by simp [blank, uris]
  have found : ((blank delay).add document.uri).find? document.uri
      = some { uri := document.uri } := by simp [find?_add untracked]
  have stale : TrackedFile.isCurrent { uri := document.uri } document = false := by
    simp [TrackedFile.isCurrent]
  rw [addDocument, updateFromEditor_of_stale found stale]

/-- With a delay, the text of the first document is held back. -/
theorem addDocument_blank {delay : Nat} (positive : delay ≠ 0) :
    (blank delay).addDocument sources document =
      some (((blank delay).add document.uri).push (.editor document)).1 := by
  rw [addDocument_blank_eq_queue]
  exact queue_of_delay_pos (by simpa [blank] using positive)
    (Debouncer.displaced_of_held?_none (by simp [blank]))

theorem Sound.add (h : r.Sound entry) : (r.add u).Sound entry := by
  by_cases tracked : u ∈ r.uris
  · rwa [add_of_mem tracked]
  · refine ⟨h.toConsistent.add tracked, fun v w link => ?_⟩
    rw [Links, targets_add tracked] at link
    rw [uris_add tracked]
    exact List.mem_append_left _ (h.closed v w link)

end Registry

end AsmServer
