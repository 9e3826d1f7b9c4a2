import AsmServer.Proofs.Project.History

/-!
# When a project is assembled again

What the assembler is asked depends on the texts and edges of the tracked files only. A
move either reports a changed text or leaves that question as it was, so that a project,
which assembles again whenever it settles a changed text, never holds the answer to an
older question.
-/

namespace AsmServer

/-- The file without its marks. -/
def TrackedFile.unmarked (f : TrackedFile) : TrackedFile :=
  { f with version := diskVersion, dirty := false, document? := none }

namespace Registry

variable {r r' r'' : Registry} {sources : Sources}

/-! ## What is asked -/

/-- What the assembler is to be asked about the tracked files. -/
def request (r : Registry) : Except ProjectError Request :=
  ({ id := ⟨0⟩, registry := r } : Project).request

/-- The registries agree on everything but marks. -/
structure SameTexts (r r' : Registry) : Prop where
  entry? : r'.entry? = r.entry?
  length : r'.files.length = r.files.length
  files : ∀ u, (r'.find? u).map (fun f => (f.uri, f.contents?, f.dependencies)) =
    (r.find? u).map fun f => (f.uri, f.contents?, f.dependencies)

namespace SameTexts

variable (h : r.SameTexts r')

include h

theorem find?_none {u : Uri} (none : r.find? u = none) : r'.find? u = Option.none := by
  have files := h.files u
  rw [none] at files
  exact Option.map_eq_none_iff.mp files

theorem exists_find? {u : Uri} {f : TrackedFile} (found : r.find? u = some f) :
    ∃ f', r'.find? u = some f' ∧ f'.uri = f.uri ∧ f'.contents? = f.contents? ∧
      f'.dependencies = f.dependencies := by
  have files := h.files u
  rw [found] at files
  obtain ⟨f', found', same⟩ := Option.map_eq_some_iff.mp files
  simp only [Prod.mk.injEq] at same
  exact ⟨f', found', same⟩

theorem contents? (u : Uri) : (r'.find? u).bind (·.contents?) = (r.find? u).bind (·.contents?) := by
  cases found : r.find? u with
  | none => rw [h.find?_none found]
  | some f =>
    obtain ⟨f', found', -, contents, -⟩ := h.exists_find? found
    rw [found', Option.bind_some, Option.bind_some, contents]

theorem walk (depth : Nat) : r'.walk depth = r.walk depth := by
  induction depth with
  | zero => rfl
  | succ depth ih =>
    funext uri dir stack includes
    have follow : r'.followEdge (r.walk depth) uri dir stack
        = r.followEdge (r.walk depth) uri dir stack := by
      funext includes edge
      simp only [followEdge, h.contents?]
    simp only [Registry.walk, ih, follow]
    cases found : r.find? uri with
    | none => rw [h.find?_none found]
    | some f =>
      obtain ⟨f', found', -, -, dependencies⟩ := h.exists_find? found
      simp only [found', dependencies]

/-- The same is asked. -/
theorem request : r'.request = r.request := by
  unfold Registry.request Project.request flatten entryFile?
  simp only [h.entry?, h.length, h.walk]
  cases r.entry? with
  | none => rfl
  | some entry =>
    simp only [Option.bind_some]
    cases found : r.find? entry with
    | none => rw [h.find?_none found]
    | some f =>
      obtain ⟨f', found', uri, contents, -⟩ := h.exists_find? found
      simp only [found', uri, contents]

end SameTexts

theorem SameTexts.of_files (entry : r'.entry? = r.entry?) (files : r'.files = r.files) :
    r.SameTexts r' :=
  ⟨entry, by rw [files], fun u => by rw [find?_congr files]⟩

/-! ## What counts -/

/-- The tracked files without marks, and the entry file: all that counts for the request. -/
def bare (r : Registry) : Registry :=
  { files := r.files.map TrackedFile.unmarked, entry? := r.entry? }

@[simp] theorem uris_bare : r.bare.uris = r.uris := by
  simp [bare, uris, TrackedFile.unmarked, Function.comp_def]

@[simp] theorem find?_bare {u : Uri} :
    r.bare.find? u = (r.find? u).map TrackedFile.unmarked := by
  simp only [bare, find?, List.find?_map]
  rfl

theorem sameTexts_bare : r.SameTexts r.bare where
  entry? := rfl
  length := List.length_map _
  files u := by
    rw [find?_bare, Option.map_map]
    rfl

theorem request_of_bare (same : r'.bare = r.bare) : r'.request = r.request := by
  rw [← sameTexts_bare.request, same, sameTexts_bare.request]

theorem uris_of_bare (same : r'.bare = r.bare) : r'.uris = r.uris := by
  rw [← uris_bare, same, uris_bare]

theorem bare_mark {change : TrackedFile → TrackedFile} {u : Uri} (only : IsMark change) :
    (r.modify u change).bare = r.bare := by
  have same (f : TrackedFile) : (if f.uri = u then change f else f).unmarked = f.unmarked := by
    split
    · simp [TrackedFile.unmarked, only.uri, only.contents?, only.dependencies]
    · rfl
  simp [bare, modify, same]

/-! ## What is reported -/

/-- From `r` to `r'` a changed text was reported, or there was nothing to report and nothing
changed that counts. -/
def Tells (r r' : Registry) : Prop :=
  ∃ new, r'.events = r.events ++ new ∧
    (new.any FileEvent.isChange = true ∨ new = [] ∧ r'.bare = r.bare)

theorem Tells.of_bare (events : r'.events = r.events) (same : r'.bare = r.bare) : r.Tells r' :=
  ⟨[], by simp [events], .inr ⟨rfl, same⟩⟩

theorem Tells.trans (first : r.Tells r') (second : r'.Tells r'') : r.Tells r'' := by
  obtain ⟨new, events, told⟩ := first
  obtain ⟨later, events', told'⟩ := second
  refine ⟨new ++ later, by rw [events', events, List.append_assoc], ?_⟩
  rw [List.any_append, Bool.or_eq_true]
  rcases told with told | ⟨rfl, same⟩
  · exact .inl (.inl told)
  · rcases told' with told' | ⟨rfl, same'⟩
    · exact .inl (.inr told')
    · exact .inr ⟨rfl, same'.trans same⟩

/-- An update that is not dropped reports a changed text. -/
theorem tells_process {update : Update} (done : r.process sources update = some r') :
    r.Tells r' := by
  rcases process_cases done with ⟨-, rfl⟩ | ⟨-, loaded, run, rfl⟩
  · exact .of_bare rfl rfl
  · obtain ⟨new, events, -⟩ := run.replays
    refine ⟨new ++ loaded.unreachable.map .removed ++ [.changed update.uri], ?_, .inl ?_⟩
    · rw [report_events, collect_events, events, renew_events]
      simp
    · simp [FileEvent.isChange]

theorem Moves.tells (moves : Moves sources r r') : r.Tells r' := by
  refine Moves.preserves (P := r.Tells) (fun s s' move told => told.trans ?_) moves
    (.of_bare rfl rfl)
  cases move with
  | hold debouncer => exact .of_bare rfl rfl
  | handle done => exact tells_process done
  | mark uri only => exact .of_bare rfl (bare_mark only)

/-- From `r` to `r'` a changed text was reported, or nothing new is to be asked. -/
def Announces (r r' : Registry) : Prop :=
  ∃ new, r'.events = r.events ++ new ∧
    (new.any FileEvent.isChange = true ∨ ∀ q, r'.request = .ok q → r.request = .ok q)

theorem Moves.announces (moves : Moves sources r r') : r.Announces r' := by
  obtain ⟨new, events, told⟩ := moves.tells
  refine ⟨new, events, told.imp_right ?_⟩
  rintro ⟨-, same⟩ q asked
  rwa [request_of_bare same] at asked

end Registry

namespace Project

variable {p : Project} {r : Registry} {bench : Bench} {sources : Sources}
  {asm : Request → AssemblyResult}

/-- The stored result is the answer to what is to be asked now. -/
def Current (asm : Request → AssemblyResult) (p : Project) : Prop :=
  ∀ q, p.request = .ok q → p.result? = some (asm q)

/-- The assembler at the bench answers by the request alone. -/
def Answers (asm : Request → AssemblyResult) (bench : Bench) : Prop :=
  ∀ n q, bench.assembler.answer n q = asm q

theorem request_eq : p.request = p.registry.request := rfl

theorem request_assemble : (p.assemble bench).1.request = p.request := by
  rw [request_eq, assemble_registry, request_eq]

/-- Reports do not count for the request. -/
theorem request_drained : p.drained.request = p.request :=
  (Registry.SameTexts.of_files rfl rfl : p.registry.SameTexts p.drained.registry).request

theorem request_settle : (p.settle bench).1.request = p.request := by
  have same : (p.settle bench).1.registry = p.drained.registry := settle_registry
  rw [request_eq, same, ← request_eq, request_drained]

/-- A failed attempt leaves the result. -/
theorem assemble_of_error {error : ProjectError} (failed : p.request = .error error) :
    (p.assemble bench).1 = p := by
  simp [assemble, failed]

theorem current_assemble (answers : Answers asm bench) : (p.assemble bench).1.Current asm := by
  intro q asked
  rw [request_assemble] at asked
  simp [assemble, asked, Assembler.run, answers _ q]

theorem answers_assemble (answers : Answers asm bench) : Answers asm (p.assemble bench).2 := by
  unfold assemble
  split
  · exact answers
  · split
    · exact answers
    · exact answers

theorem answers_settle (answers : Answers asm bench) : Answers asm (p.settle bench).2 := by
  obtain ⟨told, assembler, -, settled⟩ := exists_settle p bench
  have still : Answers asm told := by rwa [Answers, assembler]
  rw [settled]
  split
  · exact answers_assemble still
  · exact still

/-- Settling keeps the result current, if a changed text was reported or nothing new is
asked. -/
theorem current_settle (answers : Answers asm bench) (current : p.Current asm)
    (told : r.events.any FileEvent.isChange = true ∨
      ∀ q, r.request = .ok q → p.registry.request = .ok q) :
    (settle { p with registry := r } bench).1.Current asm := by
  obtain ⟨bench', assembler, -, settled⟩ := exists_settle { p with registry := r } bench
  have still : Answers asm bench' := by rwa [Answers, assembler]
  rw [settled]
  split
  · exact current_assemble still
  · next quiet =>
    intro q asked
    rw [request_drained] at asked
    exact current q (told.resolve_left quiet q asked)

/-- A project that took its reports out and then made moves settles on a current result. -/
theorem current_settle_of_moves (answers : Answers asm bench) (current : p.Current asm)
    (drained : p.registry.events = []) (moves : Registry.Moves sources p.registry r) :
    (settle { p with registry := r } bench).1.Current asm := by
  obtain ⟨new, events, told⟩ := moves.announces
  rw [drained, List.nil_append] at events
  exact current_settle answers current (events ▸ told)

/-- A project with its first document, before any text is queued. -/
def fresh (id : ProjectId) (delay : Nat) (uri : Uri) : Project :=
  { empty id delay with registry := (empty id delay).registry.add uri }

/-- A new project asks nothing before its first text. -/
theorem request_fresh {id : ProjectId} {delay : Nat} {uri : Uri} {q : Request} :
    (fresh id delay uri).request ≠ .ok q := by
  simp [fresh, request, empty, Registry.entryFile?, Registry.add, Registry.tracks, Registry.find?]

theorem current_addDocument {id : ProjectId} {delay : Nat} {document : Document} {p' : Project}
    {bench' : Bench} (answers : Answers asm bench)
    (done : (empty id delay).addDocument sources bench document = some (p', bench')) :
    p'.Current asm := by
  obtain ⟨r, added, settled⟩ := perform_eq_some_iff.mp done
  obtain ⟨rfl, -⟩ := Prod.ext_iff.mp settled
  obtain ⟨new, events, told⟩ := (Registry.updateFromEditor_moves added).announces
  refine current_settle (p := fresh id delay document.uri) answers
    (fun q asked => absurd asked request_fresh) ?_
  rw [events, List.any_append, Bool.or_eq_true]
  exact told.imp_left .inr

/-- If nothing can be asked after settling, the result was left. -/
theorem result?_settle_of_error {error : ProjectError}
    (failed : (p.settle bench).1.request = .error error) :
    (p.settle bench).1.result? = p.result? := by
  obtain ⟨told, -, -, settled⟩ := exists_settle p bench
  rw [request_settle, ← request_drained] at failed
  rw [settled]
  split
  · rw [assemble_of_error failed]
    rfl
  · rfl

end Project

end AsmServer
