import AsmServer.Proofs.Workspace.Numbering

/-!
# What a step tells

A step lets one project make progress, and what the project was before, the attempts and
the reports together tell what it is after. If no attempt was made, nothing that counts has
changed. If one was made, it was made of the project as it is now: the result stored is the
one reported last, or there is nothing to ask.

Reports are read after a whole operation, when the projects may have moved on: a file that
an earlier report is about may have been dropped meanwhile. Then a later report tells so.
-/

namespace AsmServer

/-! ## Single projects -/

namespace Project

variable {sources : Sources} {p p' : Project} {r : Registry} {bench : Bench} {delay : Nat}
  {attempts : List Attempt} {reports : List ProjectEvent} {u : Uri}

/-- What a step makes of a project, with the attempts made and the reports given. -/
structure Progress (delay : Nat) (p : Project) (attempts : List Attempt) (p' : Project)
    (reports : List ProjectEvent) : Prop where
  id : p'.id = p.id
  entry? : p'.registry.entry? = p.registry.entry?
  lawful : p'.Lawful delay
  dropped : ∀ u, p.tracks u → p'.tracks u ∨ ∃ uris, .removed p.id uris ∈ reports ∧ u ∈ uris
  asked : reports.filterMap ProjectEvent.request? = attempts.filterMap Attempt.request?
  failed : ∀ id error, .failed id error ∈ reports → id = p'.id ∧ p'.request = .error error
  attempted : (attempts = [] ∧ reports = [] ∧ p'.result? = p.result? ∧
      p'.registry.bare = p.registry.bare) ∨
    (attempts = [p'.attempt] ∧ ∀ q, p'.request = .ok q → ∃ result, p'.result? = some result ∧
      reports.getLast? = some (.assembled p'.id q result))

theorem progress_settle (bench : Bench) (lawful : p.drained.Lawful delay) (whole : p.dropped = [])
    (moves : Registry.Moves sources p.registry r) : ∃ reports,
      Progress delay p (Project.attempts { p with registry := r })
        (settle { p with registry := r } bench).1 reports ∧
      (settle { p with registry := r } bench).2.events = bench.events ++ reports := by
  obtain ⟨reports, settles, events⟩ := settle_settles { p with registry := r } bench
  obtain ⟨entry, quiet⟩ := lawful.sound
  have sound : p.registry.Sound entry := quiet.congr rfl rfl
  have tidy : p.registry.Tidy := (Registry.tidy_congr rfl rfl).mp lawful.tidy
  obtain ⟨regular, same⟩ := moves.regular lawful.regular
  have after := sound.moves moves
  have asked : (settle { p with registry := r } bench).1.request =
      request { p with registry := r } := request_settle
  have attempt : (settle { p with registry := r } bench).1.attempt =
      attempt { p with registry := r } := by
    simp only [Project.attempt, settle_id, asked]
  refine ⟨reports, ⟨settle_id, ?_, ?_, fun u before => ?_, settles.asked,
    fun id error reported => ?_, ?_⟩, events⟩
  · rw [settle_registry]
    exact after.entry?.trans sound.entry?.symm
  · exact lawful_settle after (tidy.moves sound moves) regular (same.trans lawful.same)
  · rw [tracks, settle_registry, Registry.tracks_iff]
    by_cases kept : u ∈ r.uris
    · exact .inl kept
    · have gone := moves.replays.removed_mem (Registry.tracks_iff.mp before) kept
      exact .inr (settles.removal gone)
  · rw [settle_id, asked]
    exact settles.failure reported
  · rcases attempts_eq_nil_or { p with registry := r } with none | one
    · exact .inl ⟨none, settles.calm none whole moves⟩
    · refine .inr ⟨one.trans (by rw [attempt]), fun q ok => ?_⟩
      rw [settle_id]
      exact settles.answer (by simp [one]) (asked.symm.trans ok)

theorem progress_assemble (bench : Bench) (lawful : p.Lawful delay) : ∃ reports,
    Progress delay p [p.attempt] (p.assemble bench).1 reports ∧
      (p.assemble bench).2.events = bench.events ++ reports := by
  obtain ⟨reports, outcome, events⟩ := assemble_outcome p bench
  have asked : (p.assemble bench).1.request = p.request := request_assemble
  refine ⟨reports, ⟨assemble_id, ?_, lawful.assemble, fun u before => ?_, outcome.asked,
    fun id error reported => ?_, .inr ⟨?_, fun q ok => ?_⟩⟩, events⟩
  · rw [assemble_registry]
  · rw [tracks, assemble_registry]
    exact .inl before
  · rw [assemble_id, asked]
    exact outcome.failure reported
  · simp only [Project.attempt, assemble_id, asked]
  · obtain ⟨result, stored, rfl⟩ := outcome.answer (asked ▸ ok)
    exact ⟨result, stored, by simp⟩

theorem progress_dispose (lawful : p.Lawful delay) : Progress delay p [] p.dispose [] where
  id := rfl
  entry? := rfl
  lawful :=
    { sound := lawful.sound.imp fun _ sound => sound.congr rfl rfl
      tidy := (Registry.tidy_congr rfl rfl).mpr lawful.tidy
      regular := Debouncer.regular_of_held?_none rfl
      same := lawful.same
      drained := lawful.drained }
  dropped _ before := .inl before
  asked := rfl
  failed _ _ reported := by cases reported
  attempted := .inl ⟨rfl, rfl, rfl, rfl⟩

theorem Lawful.drained_eq (h : p.Lawful delay) : p.drained = p := by
  have events := h.drained
  obtain ⟨id, ⟨files, entry?, debouncer, _⟩, result?⟩ := p
  cases events
  rfl

theorem lawful_fresh {id : ProjectId} : (fresh id delay u).drained.Lawful delay := by
  obtain ⟨sound, tidy⟩ := Registry.sound_add_first (r := (empty id delay).registry) (u := u) rfl rfl
  exact
    { sound := ⟨u, sound.congr rfl rfl⟩
      tidy := (Registry.tidy_congr rfl rfl).mpr tidy
      regular := Debouncer.regular_of_held?_none (by simp [drained, fresh, empty])
      same := by simp [drained, fresh, empty]
      drained := rfl }

theorem dropped_fresh {id : ProjectId} : (fresh id delay u).dropped = [] := by
  simp [fresh, dropped, empty, Registry.add, Registry.tracks, Registry.find?, FileEvent.removed?]

/-- The entry file stays, and the others are named by file URIs if it is. -/
theorem Progress.isFile (progress : p.Progress delay attempts p' reports) (h : p.Lawful delay)
    (after : ∀ u ∈ p'.registry.uris, u.isFile = true) : ∀ u ∈ p.registry.uris, u.isFile = true := by
  obtain ⟨entry, sound⟩ := h.sound
  obtain ⟨entry', sound'⟩ := progress.lawful.sound
  obtain rfl : entry = entry' := Option.some.inj
    (sound.entry?.symm.trans (progress.entry?.symm.trans sound'.entry?))
  exact fun u => sound.toConsistent.isFile h.tidy (after entry sound'.tracked)

end Project

namespace Workspace

variable {w w' : Workspace} {attempts : List Attempt} {reports more : List ProjectEvent} {u : Uri}

/-! ## Steps -/

/-- What a step makes of a workspace. -/
inductive Progress (w : Workspace) (attempts : List Attempt) (w' : Workspace)
    (reports : List ProjectEvent) : Prop
  | turned {before after : List Project} {p p' : Project}
      (place : w.projects = before ++ p :: after)
      (progress : p.Progress w.delay attempts p' reports)
      (place' : w'.projects = before ++ p' :: after)
  | created {id : ProjectId} {uri : Uri} {p' : Project}
      (progress : (Project.fresh id w.delay uri).Progress w.delay attempts p' reports)
      (place' : w'.projects = w.projects ++ [p'])
  | attended (same : w'.projects = w.projects) (none : attempts = []) (silent : reports = [])

theorem Step.progress (lawful : w.Lawful) (step : Step w attempts w') :
    w'.delay = w.delay ∧ ∃ reports, w.Progress attempts w' reports ∧
      w'.bench.events = w.bench.events ++ reports := by
  cases step with
  | @settle before after p sources r place moves =>
    have here : p.Lawful w.delay := lawful p (by simp [place])
    obtain ⟨reports, progress, events⟩ := Project.progress_settle w.bench
      (by rwa [here.drained_eq]) (by simp [Project.dropped, here.drained]) moves
    exact ⟨rfl, reports, .turned place progress rfl, events⟩
  | @assemble before after p place =>
    have here : p.Lawful w.delay := lawful p (by simp [place])
    obtain ⟨reports, progress, events⟩ := Project.progress_assemble w.bench here
    exact ⟨rfl, reports, .turned place progress rfl, events⟩
  | create added =>
    obtain ⟨reports, progress, events⟩ := Project.progress_settle w.bench
      Project.lawful_fresh Project.dropped_fresh (Registry.updateFromEditor_moves added)
    exact ⟨rfl, reports, .created progress rfl, events⟩
  | attend => exact ⟨rfl, [], .attended rfl rfl rfl, (List.append_nil _).symm⟩
  | @dispose before after p place =>
    have here : p.Lawful w.delay := lawful p (by simp [place])
    exact ⟨rfl, [], .turned place (Project.progress_dispose here) rfl, (List.append_nil _).symm⟩

theorem Progress.lawful (progress : w.Progress attempts w' reports) (delay : w'.delay = w.delay)
    (h : w.Lawful) : w'.Lawful := by
  rw [Lawful, delay]
  cases progress with
  | turned place progress place' =>
    rw [place']
    exact forall_of_place place h fun _ => progress.lawful
  | created progress place' =>
    intro q member
    rw [place', List.mem_append, List.mem_singleton] at member
    rcases member with old | rfl
    · exact h q old
    · exact progress.lawful
  | attended same _ _ =>
    rw [same]
    exact h

theorem Steps.lawful (run : Steps w attempts w') (h : w.Lawful) : w'.Lawful := by
  induction run with
  | refl => exact h
  | tail _ step ih =>
    obtain ⟨delay, reports, progress, -⟩ := step.progress ih
    exact progress.lawful delay ih

theorem Progress.asked (progress : w.Progress attempts w' reports) :
    reports.filterMap ProjectEvent.request? = attempts.filterMap Attempt.request? := by
  cases progress with
  | turned _ progress _ => exact progress.asked
  | created progress _ => exact progress.asked
  | attended _ none silent =>
    rw [none, silent]
    rfl

/-- The requests that were reported are those of the attempts. -/
theorem Steps.asked (run : Steps w attempts w') (h : w.Lawful) :
    w'.bench.events.filterMap ProjectEvent.request? =
      w.bench.events.filterMap ProjectEvent.request? ++ attempts.filterMap Attempt.request? := by
  induction run with
  | refl => exact (List.append_nil _).symm
  | tail run step ih =>
    obtain ⟨-, reports, progress, events⟩ := step.progress (run.lawful h)
    rw [events, List.filterMap_append, List.filterMap_append, ih, progress.asked,
      List.append_assoc]

/-! ## File URIs -/

/-- All tracked files are named by file URIs. -/
def Local (w : Workspace) : Prop := ∀ p ∈ w.projects, ∀ u ∈ p.registry.uris, u.isFile = true

theorem Progress.isLocal (progress : w.Progress attempts w' reports) (h : w.Lawful)
    (after : w'.Local) : w.Local := by
  intro q member
  cases progress with
  | turned place progress place' =>
    rw [Local, place'] at after
    have here := h q member
    rw [place, List.mem_append, List.mem_cons] at member
    rcases member with old | rfl | old
    · exact after q (by simp [old])
    · exact progress.isFile here (after _ (by simp))
    · exact after q (by simp [old])
  | created _ place' => exact after q (by simp [place', member])
  | attended same _ _ => exact after q (same ▸ member)

theorem Steps.isLocal (run : Steps w attempts w') (lawful : w.Lawful) (files : w'.Local) :
    w.Local := by
  induction run with
  | refl => exact files
  | tail run step ih =>
    obtain ⟨-, reports, progress, -⟩ := step.progress (run.lawful lawful)
    exact ih (progress.isLocal (run.lawful lawful) files)

/-! ## Files that reports are about -/

/-- A file is tracked, or one of the reports tells that it was dropped. -/
def Known (w : Workspace) (reports : List ProjectEvent) (u : Uri) : Prop :=
  w.tracks u ∨ ∃ id uris, .removed id uris ∈ reports ∧ u ∈ uris

theorem tracks_iff : w.tracks u ↔ ∃ p ∈ w.projects, p.tracks u := by
  simp [Workspace.tracks]

/-- A tracked file stays known. -/
theorem Progress.known_of_tracks (progress : w.Progress attempts w' reports) (h : w.tracks u) :
    w'.Known reports u := by
  obtain ⟨q, member, tracked⟩ := tracks_iff.mp h
  cases progress with
  | turned place progress place' =>
    rw [place, List.mem_append, List.mem_cons] at member
    rcases member with old | rfl | old
    · exact .inl (tracks_iff.mpr ⟨q, by simp [place', old], tracked⟩)
    · rcases progress.dropped u tracked with kept | ⟨uris, told, gone⟩
      · exact .inl (tracks_iff.mpr ⟨_, by simp [place'], kept⟩)
      · exact .inr ⟨_, uris, told, gone⟩
    · exact .inl (tracks_iff.mpr ⟨q, by simp [place', old], tracked⟩)
  | created _ place' => exact .inl (tracks_iff.mpr ⟨q, by simp [place', member], tracked⟩)
  | attended same _ _ => exact .inl (tracks_iff.mpr ⟨q, same ▸ member, tracked⟩)

/-- Known files stay known, with the reports of the step. -/
theorem Progress.known {before : List ProjectEvent} (progress : w.Progress attempts w' reports)
    (h : w.Known before u) : w'.Known (before ++ reports) u := by
  rcases h with tracked | ⟨id, uris, told, gone⟩
  · refine (progress.known_of_tracks tracked).imp_right ?_
    rintro ⟨id, uris, told, gone⟩
    exact ⟨id, uris, List.mem_append_right _ told, gone⟩
  · exact .inr ⟨id, uris, List.mem_append_left _ told, gone⟩

theorem Steps.known (run : Steps w attempts w') (lawful : w.Lawful)
    (h : w.Known w.bench.events u) : w'.Known w'.bench.events u := by
  induction run with
  | refl => exact h
  | tail run step ih =>
    obtain ⟨-, reports, progress, events⟩ := step.progress (run.lawful lawful)
    rw [events]
    exact progress.known ih

/-- The file that an include cycle is blamed on is tracked after the step. -/
theorem Progress.tracks_of_cycle {id : ProjectId} {error : ProjectError} {diagnostic : Diagnostic}
    (progress : w.Progress attempts w' reports) (reported : .failed id error ∈ reports)
    (cycle : Diagnostic.ofCycle? error = some (u, diagnostic)) : w'.tracks u := by
  have blamed {delay : Nat} {p p' : Project} (progress : p.Progress delay attempts p' reports) :
      p'.tracks u := by
    obtain ⟨entry, sound⟩ := progress.lawful.sound
    exact Registry.tracks_iff.mpr
      (Registry.tracked_of_ofCycle? sound (progress.failed id error reported).2 cycle)
  cases progress with
  | turned _ progress place' => exact tracks_iff.mpr ⟨_, by simp [place'], blamed progress⟩
  | created progress place' => exact tracks_iff.mpr ⟨_, by simp [place'], blamed progress⟩
  | attended _ _ silent => simp [silent] at reported

/-! ## Projects that were attempted once -/

variable {id : ProjectId} {error : ProjectError}

/-- What a project failed with in a step it fails with after it. -/
theorem Progress.failed (progress : w.Progress attempts w' reports) (numbered : w'.Numbered)
    (told : .failed id error ∈ reports) :
    ∀ p ∈ w'.projects, p.id = id → p.request = .error error := by
  intro p member own
  cases progress with
  | turned place progress place' =>
    obtain ⟨same, failed⟩ := progress.failed id error told
    rwa [numbered.eq_of_id member (by simp [place']) (own.trans same)]
  | created progress place' =>
    obtain ⟨same, failed⟩ := progress.failed id error told
    rwa [numbered.eq_of_id member (by simp [place']) (own.trans same)]
  | attended _ _ silent =>
    rw [silent] at told
    cases told

/-- What a project failed with before it fails with still, if it is not attempted in the step. -/
theorem Progress.fails (progress : w.Progress attempts w' reports) (numbered : w'.Numbered)
    (known : id ∈ w.projects.map (·.id)) (other : ∀ attempt ∈ attempts, attempt.project ≠ id)
    (fails : ∀ p ∈ w.projects, p.id = id → p.request = .error error) :
    ∀ p ∈ w'.projects, p.id = id → p.request = .error error := by
  cases progress with
  | @turned before after q q' place progress place' =>
    rw [place']
    refine forall_of_place place fails fun fails own => ?_
    rcases progress.attempted with ⟨-, -, -, same⟩ | ⟨rfl, -⟩
    · have asked : q'.request = q.request := Registry.request_of_bare same
      rw [asked]
      exact fails (progress.id ▸ own)
    · exact absurd own (other _ (List.mem_singleton_self _))
  | created progress place' =>
    intro p member own
    obtain ⟨q, old, same⟩ := List.mem_map.mp known
    have member' : q ∈ w'.projects := by simp [place', old]
    rw [numbered.eq_of_id member member' (own.trans same.symm)]
    exact fails q old same
  | attended same _ _ => rwa [same]

/-- What a project failed with it fails with still, if it was attempted once only. -/
theorem Steps.failed (run : Steps w attempts w') (lawful : w.Lawful) (numbered : w.Numbered)
    (silent : w.bench.events = []) (told : .failed id error ∈ w'.bench.events)
    (once : (attempts.filter (·.project = id)).length ≤ 1) :
    ∀ p ∈ w'.projects, p.id = id → p.request = .error error := by
  induction run with
  | refl =>
    rw [silent] at told
    cases told
  | @tail w₁ w₂ attempts more run step ih =>
    obtain ⟨-, reports, progress, events⟩ := step.progress (run.lawful lawful)
    have numbered := (run.tail step).numbered numbered
    rw [events, List.mem_append] at told
    rcases told with old | new
    · obtain ⟨earlier, tells, before⟩ := run.tells
      rw [silent, List.nil_append] at before
      rw [before] at old
      rw [List.filter_append, List.length_append] at once
      -- The failure that was reported was attempted, which leaves no room for a further attempt.
      have first := List.length_pos_of_mem (List.mem_filter.mpr
        ⟨tells.mem_of_failed old, by simp⟩ : _ ∈ attempts.filter (·.project = id))
      have none : more.filter (·.project = id) = [] := List.length_eq_zero_iff.mp (by omega)
      refine progress.fails numbered (tells.own _ old) (fun attempt listed => ?_)
        (ih (before ▸ old) (by omega))
      simpa using List.filter_eq_nil_iff.mp none attempt listed
    · exact progress.failed numbered new

end Workspace

end AsmServer
