import AsmServer.Proofs.Registry.Loading

/-!
# Which operations return

Without a delay every operation returns. With a delay an operation returns if the registry
is tidy and nothing that is held back for another file has to be let go: the only update
that is handled on a registry with history is then the one that was asked for.

An update that is let go in the midst of another can cut off the file that is being
loaded. The loading goes on, finds the targets of the dropped file untracked and loads
them again; two files that include each other then keep loading each other for good.
-/

namespace AsmServer

namespace Registry

variable {sources : Sources} {r r' : Registry} {update : Update} {document : Document}
  {uri entry : Uri}

/-! ## Operations that return -/

section returns

variable (sources) (sound : r.Sound entry) (tidy : r.Tidy)

include sound tidy

theorem queue_returns (calm : r.debouncer.displaced update.uri = []) :
    (r.queue sources update).isSome := by
  by_cases zero : r.debouncer.delay = 0
  · obtain ⟨held, -⟩ := Debouncer.push_of_delay_zero update.uri update zero
    rw [queue_of_delay_zero zero calm]
    exact process_returns sources update (sound.congr (push_files _) (entry?_push _)) held
      ((tidy_congr (entry?_push _) (push_files _)).mpr tidy)
  · simp [queue_of_delay_pos zero calm]

theorem updateFromEditor_returns (calm : r.debouncer.displaced document.uri = []) :
    (r.updateFromEditor sources document).isSome := by
  unfold updateFromEditor
  split
  · rfl
  · split
    · rfl
    · exact queue_returns sources sound tidy calm

theorem updateFromDisk_returns (calm : r.debouncer.displaced uri = []) :
    (r.updateFromDisk sources uri).isSome := by
  unfold updateFromDisk
  split
  · exact queue_returns sources sound tidy calm
  · rfl

theorem flush_returns {taken : Debouncer Uri Update × Option Update}
    (empty : taken.2.isSome → taken.1.held? = none) : (r.flush sources taken).isSome := by
  unfold flush
  split
  · rfl
  · next update given =>
    have returns := process_returns sources update (r := { r with debouncer := taken.1 })
      (sound.congr rfl rfl) (empty (by simp [given])) ((tidy_congr rfl rfl).mpr tidy)
    simpa using returns

theorem flushPending_returns : (r.flushPending sources).isSome :=
  flush_returns sources sound tidy fun _ => rfl

theorem flushDue_returns (generation : Nat) : (r.flushDue sources generation).isSome := by
  refine flush_returns sources sound tidy fun taken => ?_
  obtain ⟨update, given⟩ := Option.isSome_iff_exists.mp taken
  rw [Debouncer.takeDue_some given]
  rfl

theorem settleDocument_returns (calm : r.debouncer.displaced document.uri = []) :
    (r.settleDocument sources document).isSome := by
  unfold settleDocument
  split
  · obtain ⟨edited, editing⟩ :=
      Option.isSome_iff_exists.mp (updateFromEditor_returns sources sound tidy calm)
    have moves := updateFromEditor_moves editing
    obtain ⟨flushed, flushing⟩ := Option.isSome_iff_exists.mp
      (flushPending_returns sources (sound.moves moves) (tidy.moves sound moves))
    simp [editing, flushing]
  · rfl

end returns

/-- The file that an operation is about. -/
def Operation.target? : Operation → Option Uri
  | edit document => some document.uri
  | reload uri => some uri
  | save document => some document.uri
  | close document => some document.uri
  | due _ => none
  | flush => none
  | dispose => none

/-- An operation on a tidy registry returns if nothing held back for another file has to
be let go. -/
theorem Operation.returns (operation : Operation) (sources : Sources) (sound : r.Sound entry)
    (tidy : r.Tidy)
    (calm : ∀ uri ∈ operation.target?, r.debouncer.displaced uri = []) :
    (operation.apply sources r).isSome := by
  cases operation with
  | edit document => exact updateFromEditor_returns sources sound tidy (calm _ rfl)
  | reload uri => exact updateFromDisk_returns sources sound tidy (calm _ rfl)
  | save document =>
    obtain ⟨settled, settling⟩ := Option.isSome_iff_exists.mp
      (settleDocument_returns sources sound tidy (calm document.uri rfl))
    simp [apply, markSaved, settling]
  | close document =>
    obtain ⟨settled, settling⟩ := Option.isSome_iff_exists.mp
      (settleDocument_returns sources sound tidy (calm document.uri rfl))
    simp [apply, markClosed, settling]
  | due generation =>
    have returns := flushDue_returns sources sound tidy generation
    simpa [apply] using returns
  | flush =>
    have returns := flushPending_returns sources sound tidy
    simpa [apply] using returns
  | dispose => rfl

/-! ## Histories -/

/-- Track documents, one after the other, from the start. -/
def track (delay : Nat) (documents : List (Sources × Document)) : Option Registry :=
  documents.foldlM (fun r (sources, document) => r.addDocument sources document) (blank delay)

/-- Perform operations, one after the other. -/
def perform (r : Registry) (operations : List (Sources × Operation)) : Option Registry :=
  operations.foldlM (fun r (sources, operation) => operation.apply sources r) r

/-- No document was tracked yet, or the registry is sound. -/
def Started (r : Registry) : Prop := (r.uris = [] ∧ r.entry? = none) ∨ ∃ entry, r.Sound entry

/-- A registry with an entry file is sound. -/
theorem Started.sound (h : r.Started) (first : r.entry? = some entry) : r.Sound entry := by
  rcases h with ⟨-, none⟩ | ⟨start, sound⟩
  · simp [none] at first
  · obtain rfl : start = entry := Option.some.inj (sound.entry?.symm.trans first)
    exact sound

/-- A registry that tracks a file is sound. -/
theorem Started.exists_sound (h : r.Started) (tracked : u ∈ r.uris) :
    ∃ entry, r.Sound entry := by
  refine h.resolve_left ?_
  rintro ⟨empty, -⟩
  simp [empty] at tracked

/-- What every history keeps; without a delay, also tidiness. -/
structure Lasting (delay : Nat) (r : Registry) : Prop where
  started : r.Started
  regular : r.debouncer.Regular
  same : r.debouncer.delay = delay
  tidy : delay = 0 → r.Tidy

theorem tidy_of_uris_nil (h : r.uris = []) : r.Tidy := by simp [Tidy, h]

/-- Moves leave a registry without files as it was. -/
theorem Moves.uris_nil (h : r.uris = []) (moves : Moves sources r r') :
    r'.uris = [] ∧ r'.entry? = r.entry? := by
  refine Moves.preserves (P := fun s => s.uris = [] ∧ s.entry? = r.entry?) ?_ moves ⟨h, rfl⟩
  rintro s s' move ⟨none, same⟩
  cases move with
  | hold debouncer => exact ⟨none, same⟩
  | handle done =>
    rcases process_cases done with ⟨-, rfl⟩ | ⟨tracked, -⟩
    · exact ⟨none, same⟩
    · simp [none] at tracked
  | mark uri only => exact ⟨(uris_mark only).trans none, same⟩

theorem Lasting.moves {delay : Nat} (h : r.Lasting delay) (moves : Moves sources r r') :
    r'.Lasting delay := by
  obtain ⟨regular, same⟩ := moves.regular h.regular
  rcases h.started with ⟨none, entry⟩ | ⟨entry, sound⟩
  · obtain ⟨none', entry'⟩ := moves.uris_nil none
    exact ⟨.inl ⟨none', entry'.trans entry⟩, regular, same.trans h.same,
      fun _ => tidy_of_uris_nil none'⟩
  · exact ⟨.inr ⟨entry, sound.moves moves⟩, regular, same.trans h.same,
      fun zero => (h.tidy zero).moves sound moves⟩

theorem Lasting.addDocument {delay : Nat} (h : r.Lasting delay)
    (done : r.addDocument sources document = some r') : r'.Lasting delay := by
  unfold Registry.addDocument at done
  by_cases tracked : document.uri ∈ r.uris
  · rw [add_of_mem tracked] at done
    exact h.moves (updateFromEditor_moves done)
  obtain ⟨entry, sound⟩ : ∃ entry, (r.add document.uri).Sound entry := by
    rcases h.started with ⟨empty, first⟩ | ⟨entry, sound⟩
    · exact ⟨_, (sound_add_first empty first).1⟩
    · exact ⟨entry, sound.add⟩
  have moves := updateFromEditor_moves done
  have regular : (r.add document.uri).debouncer.Regular := by simpa using h.regular
  obtain ⟨regular', same⟩ := moves.regular regular
  have delay' := same.trans (by simpa using h.same)
  refine ⟨.inr ⟨entry, sound.moves moves⟩, regular', delay', fun zero => ?_⟩
  -- A new file holds no version yet, so its text is queued and handled at once.
  have now : (r.add document.uri).debouncer.delay = 0 := by simpa [h.same] using zero
  have calm : (r.add document.uri).debouncer.displaced (Update.editor document).uri = [] :=
    Debouncer.displaced_of_held?_none (regular.held?_none now)
  have found : (r.add document.uri).find? document.uri = some { uri := document.uri } := by
    simp [find?_add tracked]
  have stale : TrackedFile.isCurrent { uri := document.uri } document = false := by
    simp [TrackedFile.isCurrent]
  rw [updateFromEditor_of_stale found stale, queue_of_delay_zero now calm] at done
  refine process_tidies done (sound.toConsistent.congr (push_files _) (entry?_push _))
    ((closed_congr (push_files _)).mpr sound.closed) ?_
  rw [uris_congr (push_files _), uris_add tracked]
  exact List.mem_append_right _ (List.mem_singleton_self _)

theorem Lasting.perform {delay : Nat} {operations : List (Sources × Operation)}
    (h : r.Lasting delay) (done : r.perform operations = some r') : r'.Lasting delay :=
  foldlM_preserves (P := Lasting delay)
    (fun _ _ _ first lasting => lasting.moves (Operation.moves first)) done h

theorem lasting_track {delay : Nat} {documents : List (Sources × Document)}
    (done : track delay documents = some r) : r.Lasting delay := by
  have start : (blank delay).Lasting delay :=
    ⟨.inl ⟨rfl, rfl⟩, Debouncer.regular_of_held?_none rfl, rfl, fun _ => tidy_of_uris_nil rfl⟩
  exact foldlM_preserves (P := Lasting delay)
    (fun _ _ _ first lasting => lasting.addDocument first) done start

/-- Operations on a registry without files return. -/
theorem Operation.returns_of_empty (operation : Operation) (empty : r.uris = []) :
    (operation.apply sources r).isSome := by
  have untracked (u : Uri) : r.find? u = none := find?_eq_none.mpr (by simp [empty])
  have dropped (debouncer : Debouncer Uri Update) (update : Update) :
      process sources { r with debouncer } update = some { r with debouncer } := by
    have out : update.uri ∉ uris { r with debouncer } := by
      rw [show uris { r with debouncer } = r.uris from rfl, empty]
      exact List.not_mem_nil
    rw [process.eq_def]
    simp [out]
  cases operation with
  | edit document => simp [apply, updateFromEditor, untracked]
  | reload uri => simp [apply, updateFromDisk, empty]
  | save document => simp [apply, markSaved, settleDocument, untracked]
  | close document => simp [apply, markClosed, settleDocument, untracked]
  | due generation =>
    simp only [apply, flushDue, Registry.flush]
    split <;> simp [dropped]
  | flush =>
    simp only [apply, flushPending, Registry.flush]
    split <;> simp [dropped]
  | dispose => rfl

/-! ## Runs without end -/

deriving instance DecidableEq for Debouncer, Registry, Registry.Handling

/-- The registry with other reports and another generation. -/
def relog (r : Registry) (events : List FileEvent) (generation : Nat) : Registry :=
  { r with events, debouncer := { r.debouncer with generation } }

section relog

variable {events : List FileEvent} {generation : Nat}

theorem relog_push : (r.relog events generation).push update =
    ((r.push update).1.relog events (generation + 1), (r.push update).2) := by
  by_cases zero : r.debouncer.delay = 0 <;>
    simp [push, relog, Debouncer.push, Debouncer.displaced, zero]

theorem relog_add (untracked : uri ∉ r.uris) : (r.relog events generation).add uri =
    (r.add uri).relog (events ++ [.added uri]) generation := by
  have same : (r.relog events generation).tracks uri = false := tracks_eq_false.mpr untracked
  rw [add, add, same, tracks_eq_false.mpr untracked]
  rfl

end relog

namespace Handling

/-- The same state after another history, with further tasks behind. -/
def behind (s : Handling) (events : List FileEvent) (generation : Nat) (rest : List Task) :
    Handling :=
  ⟨s.registry.relog events generation, s.agenda ++ rest⟩

/-- What happened before and what is to be done later has no influence on a step. -/
theorem step_behind {s : Handling} (busy : s.agenda ≠ []) (events : List FileEvent)
    (generation : Nat) (rest : List Task) :
    ∃ events' generation', step sources (s.behind events generation rest) =
      (step sources s).behind events' generation' rest := by
  obtain ⟨r, _ | ⟨task, agenda⟩⟩ := s
  · exact absurd rfl busy
  cases task with
  | handle update =>
    refine ⟨events, generation, ?_⟩
    by_cases tracked : update.uri ∈ r.uris
    · refine (step_handle (r := r.relog events generation) tracked).trans ?_
      rw [step_handle tracked]
      simp only [behind, List.append_assoc, List.cons_append]
      rfl
    · refine (step_handle_of_not_mem (r := r.relog events generation) tracked).trans ?_
      rw [step_handle_of_not_mem tracked]
      rfl
  | discover uri =>
    by_cases tracked : uri ∈ r.uris
    · refine ⟨events, generation,
        (step_discover_of_mem (r := r.relog events generation) tracked).trans ?_⟩
      rw [step_discover_of_mem tracked]
      rfl
    · refine ⟨events ++ [.added uri], generation + 1,
        (step_discover (r := r.relog events generation) tracked).trans ?_⟩
      rw [step_discover tracked, relog_add tracked, relog_push]
      simp only [behind, List.append_assoc]
      rfl
  | finish uri => exact ⟨_, generation, rfl⟩

theorem steps_behind {s : Handling} (n : Nat)
    (busy : ∀ k < n, ((step sources)^[k] s).agenda ≠ []) (events : List FileEvent)
    (generation : Nat) (rest : List Task) :
    ∃ events' generation', (step sources)^[n] (s.behind events generation rest) =
      ((step sources)^[n] s).behind events' generation' rest := by
  induction n with
  | zero => exact ⟨events, generation, rfl⟩
  | succ n ih =>
    obtain ⟨es, g, same⟩ := ih fun k hk => busy k (Nat.lt_succ_of_lt hk)
    obtain ⟨es', g', next⟩ := step_behind (busy n (Nat.lt_succ_self n)) es g rest
    exact ⟨es', g', by rw [Function.iterate_succ_apply', same, next,
      ← Function.iterate_succ_apply' (step sources)]⟩

/-- A run to the end goes on to the end from wherever it is. -/
theorem Halts.steps {s : Handling} (h : Halts sources s) (n : Nat) :
    Halts sources ((step sources)^[n] s) := by
  induction n with
  | zero => exact h
  | succ n ih =>
    obtain ⟨r, run⟩ := ih
    rw [Function.iterate_succ_apply']
    exact ⟨r, run.of_step⟩

/-- A state that finitely many steps bring back, with more tasks behind it, is followed by
steps without end. -/
theorem not_halts_of_cycle {s : Handling} {n : Nat} {events : List FileEvent}
    {generation : Nat} {rest : List Task} (positive : 0 < n)
    (busy : ∀ k < n, ((step sources)^[k] s).agenda ≠ [])
    (back : (step sources)^[n] s = s.behind events generation rest)
    (es : List FileEvent) (g : Nat) (later : List Task) :
    ¬ Halts sources (s.behind es g later) := by
  -- Every number of whole cycles leads to a state that looks like `s` from the front.
  have again : ∀ m, ∃ es' g' later',
      (step sources)^[n * m] (s.behind es g later) = s.behind es' g' later' := by
    intro m
    induction m with
    | zero => exact ⟨es, g, later, rfl⟩
    | succ m ih =>
      obtain ⟨es₁, g₁, later₁, same⟩ := ih
      obtain ⟨es₂, g₂, next⟩ := steps_behind n busy es₁ g₁ later₁
      refine ⟨es₂, g₂, rest ++ later₁, ?_⟩
      rw [Nat.mul_succ, Nat.add_comm, Function.iterate_add_apply, same, next, back]
      simp [behind, relog, List.append_assoc]
  rintro ⟨r, m, done⟩
  obtain ⟨es', g', later', same⟩ := again (m + 1)
  have split : n * (m + 1) = (n * (m + 1) - m) + m := by
    have : m + 1 ≤ n * (m + 1) := Nat.le_mul_of_pos_left _ positive
    omega
  rw [split, Function.iterate_add_apply, done, Function.iterate_fixed step_nil] at same
  have agenda : [] = s.agenda ++ later' := congrArg Handling.agenda same
  exact busy 0 positive (List.append_eq_nil_iff.mp agenda.symm).1

end Handling

/-! ## Two files that keep loading each other -/

section entwined

open Handling

/-- The file at a path with a text. -/
def stored (path text : String) : List Path.Component × FileData :=
  (Path.components path.toList, .text text.toList)

/-- Two files that include each other, each between two files without includes. -/
def entwined : Sources where
  disk := [stored "/x" " include a\n include y\n include b",
    stored "/y" " include a\n include x\n include c",
    stored "/a" "", stored "/b" "", stored "/c" ""]

/-- The entry file includes one of the two. -/
def entryText : Document := ⟨.ofPath "/e".toList, 1, " include x".toList⟩

/-- The entry file includes nothing any more. -/
def emptiedText : Document := ⟨.ofPath "/e".toList, 2, []⟩

/-- The entry file is tracked, its text held back. -/
def opened : Registry := (((blank 250).add entryText.uri).push (.editor entryText)).1

/-- The text of the entry file is handled, that of the included file held back. -/
def loaded : Registry := handled entwined 4 opened.released (.editor entryText)

/-- How the text of the emptied entry file is handled: first the file that it lets go, then
without end the two files in turn. The first seven steps lead here. -/
def cycling : Handling :=
  ⟨((Handling.step entwined)^[7]
    ⟨(loaded.push (.editor emptiedText)).1, [.handle (.disk (.ofPath "/x".toList))]⟩).registry,
    [.handle (.disk (.ofPath "/y".toList))]⟩

theorem addDocument_opened : (blank 250).addDocument entwined entryText = some opened :=
  addDocument_blank (by decide)

theorem opened_spec : track 250 [(entwined, entryText)] = some opened := by
  simp [track, addDocument_opened]

theorem loaded_spec : opened.perform [(entwined, .flush)] = some loaded := by
  have held : opened.debouncer.held? = some (entryText.uri, .editor entryText) := by
    decide +kernel
  have flushed : Operation.flush.apply entwined opened = some loaded := by
    rw [Operation.apply, flushPending_of_held held, process_eq_handled (n := 4) (by decide +kernel)]
    rfl
  simp [perform, flushed]

theorem not_halts_cycling (events : List FileEvent) (generation : Nat)
    (later : List Task) : ¬ Halts entwined (cycling.behind events generation later) := by
  refine not_halts_of_cycle (n := 14) (by decide) (by decide +kernel)
    (?_ : _ = cycling.behind ((Handling.step entwined)^[14] cycling).registry.events
      ((Handling.step entwined)^[14] cycling).registry.debouncer.generation
      [.finish (.ofPath "/x".toList), .finish (.ofPath "/y".toList)]) events generation later
  decide +kernel

end entwined

/-- After any history an operation returns, if there is no delay, or else if the registry is
tidy and nothing held back for another file has to be let go. -/
theorem operation_returns {delay : Nat} {documents : List (Sources × Document)}
    {operations : List (Sources × Operation)} {tracked : Registry}
    (tracking : track delay documents = some tracked)
    (history : tracked.perform operations = some r) (operation : Operation)
    (calm : delay ≠ 0 →
      r.Tidy ∧ ∀ uri ∈ operation.target?, r.debouncer.displaced uri = []) :
    (operation.apply sources r).isSome := by
  have lasting := (lasting_track tracking).perform history
  rcases lasting.started with ⟨empty, -⟩ | ⟨entry, sound⟩
  · exact operation.returns_of_empty empty
  by_cases zero : delay = 0
  · refine operation.returns sources sound (lasting.tidy zero) fun uri _ => ?_
    exact Debouncer.displaced_of_held?_none
      (lasting.regular.held?_none (lasting.same.trans zero))
  · exact operation.returns sources sound (calm zero).1 (calm zero).2


/-- The text of a first document can be flushed. -/
theorem opened_flush_returns : (Operation.flush.apply entwined opened).isSome := by
  have tidy : opened.Tidy := by
    have uris : opened.uris = [entryText.uri] := by decide +kernel
    intro u member
    rw [uris, List.mem_singleton] at member
    exact member ▸ reachable_entry (by decide +kernel)
  have still : opened.perform [] = some opened := rfl
  exact operation_returns opened_spec still Operation.flush fun _ =>
    ⟨tidy, by simp [Operation.target?]⟩

/-- An edit that cuts off two files which include each other never returns, if the text of
one of them is held back when it comes. -/
theorem cut_off_edit_never_returns :
    track 250 [(entwined, entryText)] = some opened ∧
      opened.perform [(entwined, .flush)] = some loaded ∧
      (Operation.edit emptiedText).apply entwined loaded = none := by
  refine ⟨opened_spec, loaded_spec, ?_⟩
  obtain ⟨f, found⟩ : ∃ f, loaded.find? emptiedText.uri = some f :=
    exists_find? (by decide +kernel)
  have stale : f.isCurrent emptiedText = false := by
    have old : (loaded.find? emptiedText.uri).any (·.isCurrent emptiedText) = false := by
      decide +kernel
    simpa [found] using old
  have endless : ¬ Handling.Halts entwined ⟨(loaded.push (.editor emptiedText)).1,
      [.handle (.disk (.ofPath "/x".toList))]⟩ := by
    intro halts
    have seven : (Handling.step entwined)^[7] ⟨(loaded.push (.editor emptiedText)).1,
        [.handle (.disk (.ofPath "/x".toList))]⟩ = cycling.behind cycling.registry.events
          cycling.registry.debouncer.generation [.finish (.ofPath "/x".toList)] := by
      decide +kernel
    exact not_halts_cycling _ _ _ (seven ▸ halts.steps 7)
  have ready : (loaded.push (.editor emptiedText)).2 = [.disk (.ofPath "/x".toList)] := by
    decide +kernel
  rw [Operation.apply, updateFromEditor_of_stale found stale, ← outcome?_push, ready,
    ← Option.not_isSome_iff_eq_none, Handling.outcome?_isSome_iff]
  exact endless

end Registry

end AsmServer
