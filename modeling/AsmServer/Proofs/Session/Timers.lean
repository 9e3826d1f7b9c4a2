import AsmServer.Proofs.Session.Publishing
import AsmServer.Proofs.Workspace.Numbering

/-!
# Timers and what they are for

A timer is set for a project and a generation of its debouncer, fires at any time later and is
never called off. The session knows for which updates it has set timers, and sets one for each
update that is held back without one.

Since generations never return, no two timers are set for the same project and generation. A
timer whose update is still held back waits for it alone; any other changes nothing when it
fires.
-/

namespace AsmServer

/-- The project and the generation that a timer is for. -/
def Timer.key (timer : Timer) : ProjectId × Nat := (timer.project, timer.generation)

namespace Workspace

variable {w : Workspace} {key : ProjectId × Nat}

theorem mem_pendingTimers :
    key ∈ w.pendingTimers ↔ ∃ p ∈ w.projects, p.id = key.1 ∧ p.pending? = some key.2 := by
  obtain ⟨id, g⟩ := key
  simp only [pendingTimers, List.mem_filterMap, Option.map_eq_some_iff, Prod.mk.injEq]
  refine exists_congr fun p => and_congr_right fun _ => ⟨?_, ?_⟩
  · rintro ⟨_, held, same, rfl⟩
    exact ⟨same, held⟩
  · rintro ⟨same, held⟩
    exact ⟨g, held, same, rfl⟩

/-- Each project holds at most one update back. -/
theorem Numbered.nodup_pendingTimers (h : w.Numbered) : w.pendingTimers.Nodup := by
  have each (projects : List Project) :
      ((projects.filterMap fun p => p.pending?.map fun g => (p.id, g)).map (·.1)).Sublist
        (projects.map (·.id)) := by
    rw [List.map_filterMap, ← List.filterMap_eq_map]
    induction projects with
    | nil => exact .slnil
    | cons p rest ih =>
      cases held : p.pending? with
      | none => simpa [held] using ih.cons p.id
      | some g => simpa [held] using ih
  exact .of_map _ ((each w.projects).nodup h.once)

end Workspace

namespace Session

variable {host : Host} {s s' : Session} {timer : Timer} {set new waiting : List Timer}
  {config : Config} {assembler : Assembler} {attempts : List Attempt}

/-! ## Setting timers -/

/-- While these timers wait the workspace becomes later, and new timers are set for the updates
that have none. -/
structure Times (s : Session) (waiting new : List Timer) (s' : Session) : Prop where
  later : s.workspace.Later s'.workspace
  armed : s'.armed = s'.workspace.pendingTimers
  timers : s'.timers = waiting ++ new
  keys : new.map Timer.key = s'.workspace.pendingTimers.filter (· ∉ s.armed)

/-- Every action has such an effect, if all updates held back had timers. -/
theorem Action.Effect.times {action : Action} (effect : action.Effect host s s')
    (armed : s.armed = s.workspace.pendingTimers) : ∃ new, Times s (action.waiting s) new s' := by
  cases effect with
  | @updated t operations w notes performed =>
    have later : s.workspace.Later w :=
      foldlM_preserves (P := s.workspace.Later)
        (fun _ operation _ done later => later.trans (operation.later done)) performed (.refl _)
    let new := (w.pendingTimers.filter (· ∉ t.armed)).map fun key =>
      (⟨key.1, key.2, t.now + w.delay⟩ : Timer)
    have keys : new.map Timer.key = w.pendingTimers.filter (· ∉ s.armed) := by
      rw [List.map_map, notes.armed]
      exact List.map_id _
    exact ⟨new, ⟨later.number, later.projects⟩, rfl, congrArg (· ++ new) notes.timers, keys⟩
  | noted notes =>
    refine ⟨[], ?_, ?_, ?_, ?_⟩
    · rw [notes.workspace]
      exact .refl _
    · rw [notes.armed, notes.workspace, armed]
    · rw [notes.timers, List.append_nil]
    · rw [notes.workspace, armed]
      exact (List.filter_eq_nil_iff.mpr (by simp)).symm
  | shutDown quiet =>
    have idle : s.shutdown.workspace.pendingTimers = [] := by
      simp [shutdown, Workspace.dispose, Workspace.pendingTimers, Project.dispose,
        Project.pending?, Registry.pending?, Registry.dispose, Debouncer.clear,
        Debouncer.pending?]
    refine ⟨[], Workspace.later_dispose, ?_, ?_, ?_⟩
    · rw [idle]
      rfl
    · rw [quiet, List.append_nil]
      rfl
    · rw [idle]
      rfl

/-- A timer that fires lets its project take its turn. -/
theorem deliver_eq : s.deliver host timer =
    (s.workspace.forThose (·.id == timer.project) fun p bench =>
      (p.flushDue (s.sources host) bench timer.generation).map (·.1)).map fun w =>
        { s with timers := s.timers.erase timer, workspace := w }.announce.arm := by
  have same : Session.sources { s with timers := s.timers.erase timer } host = s.sources host := rfl
  simp only [deliver, update, Workspace.flushDue, same]
  cases s.workspace.forThose (·.id == timer.project) fun p bench =>
    (p.flushDue (s.sources host) bench timer.generation).map (·.1) <;> rfl

/-- After a timer fired nothing is held back in its generation. -/
theorem not_pending_of_deliver (done : s.deliver host timer = some s') :
    timer.key ∉ s'.workspace.pendingTimers := by
  rw [deliver_eq] at done
  obtain ⟨w, turning, rfl⟩ := Option.map_eq_some_iff.mp done
  obtain ⟨projects, bench, related, -, rfl⟩ := Workspace.forThose_forall₂
    (R := fun _ p' => p'.id = timer.project → p'.pending? ≠ some timer.generation)
    (B := fun _ => True)
    (fun p bench p' bench' _ _ turned => ⟨fun _ => by
      rw [Project.flushDue, Project.performFlush_map] at turned
      obtain ⟨r, flushed, settled⟩ := Project.perform_eq_some_iff.mp turned
      obtain ⟨rfl, -⟩ := Prod.ext_iff.mp settled
      obtain ⟨⟨r, _⟩, flushing, rfl⟩ := Option.map_eq_some_iff.mp flushed
      rw [Project.pending?, Project.settle_registry]
      have spent : r.pending? ≠ some timer.generation := Registry.flushDue_pending? flushing
      exact spent, trivial⟩)
    (fun p other own => absurd own (by simpa using other)) trivial turning
  intro held
  obtain ⟨p', member, own, pending⟩ := Workspace.mem_pendingTimers.mp held
  obtain ⟨p, -, spent⟩ := Workspace.mem_of_forall₂ related member
  exact spent own pending

/-! ## All timers of a run -/

/-- A run from the start, with all timers that were set in it, the oldest first. -/
inductive Timed (config : Config) (assembler : Assembler) : List Timer → Session → Prop
  | start : Timed config assembler [] (start config assembler)
  | next {host : Host} {action : Action} {s s' : Session} {set new : List Timer}
      (timed : Timed config assembler set s) (done : action.apply host s = some s')
      (added : s'.timers = action.waiting s ++ new) : Timed config assembler (set ++ new) s'

theorem Timed.reached (timed : Timed config assembler set s) : Reached config assembler s := by
  induction timed with
  | start => exact .refl
  | next _ done _ ih => exact ih.tail ⟨_, _, done⟩

theorem Run.numbered (run : Run config assembler attempts s) : s.workspace.Numbered := by
  induction run with
  | start => exact ⟨by simp [Session.start], by simp [Session.start]⟩
  | next _ _ handles ih =>
    rw [handles.workspace]
    exact (handles.steps.numbered ih).congr rfl rfl

theorem Reached.numbered (reached : Reached config assembler s) : s.workspace.Numbered := by
  obtain ⟨_, run⟩ := reached.exists_run
  exact run.numbered

/-- How the timers stand between actions. -/
structure Punctual (set : List Timer) (s : Session) : Prop where
  armed : s.armed = s.workspace.pendingTimers
  /-- No two timers were set for the same project and generation. -/
  once : (set.map Timer.key).Nodup
  waiting : s.timers.Sublist set
  /-- No timer was set for a project or a generation to come. -/
  known : ∀ timer ∈ set, timer.project.number < s.workspace.nextNumber ∧
    ∀ p ∈ s.workspace.projects, p.id = timer.project →
      timer.generation ≤ p.registry.debouncer.generation
  covered : ∀ key ∈ s.workspace.pendingTimers, key ∈ s.timers.map Timer.key

/-- A timer for an update that was held back without one is set for the first time. -/
theorem Punctual.fresh (h : Punctual set s) (times : Times s waiting new s')
    {key : ProjectId × Nat} (added : key ∈ new.map Timer.key) : key ∉ set.map Timer.key := by
  rw [times.keys, List.mem_filter, h.armed] at added
  intro old
  obtain ⟨timer, member, rfl⟩ := List.mem_map.mp old
  obtain ⟨below, passed⟩ := h.known timer member
  obtain ⟨p', member', same, held⟩ := Workspace.mem_pendingTimers.mp added.1
  have same : p'.id = timer.project := same
  rcases times.later.projects p' member' with ⟨p, member, later⟩ | new
  · have own : p.id = timer.project := later.id.symm.trans same
    rcases later.registry.pending? _ held with before | new
    · have pending : timer.key ∈ s.workspace.pendingTimers :=
        Workspace.mem_pendingTimers.mpr ⟨p, member, own, before⟩
      simp [pending] at added
    · exact absurd (passed p member own) (Nat.not_le.mpr new)
  · rw [same] at new
    omega

theorem Punctual.next {action : Action} (h : Punctual set s)
    (times : Times s (action.waiting s) new s') (numbered : s'.workspace.Numbered)
    (spent : ∀ fired now, action = .timer fired now → fired.key ∉ s'.workspace.pendingTimers) :
    Punctual (set ++ new) s' where
  armed := times.armed
  once := by
    rw [List.map_append, List.nodup_append]
    refine ⟨h.once, ?_, fun key old key' added same => h.fresh times (same ▸ added) old⟩
    rw [times.keys]
    exact numbered.nodup_pendingTimers.filter _
  waiting := by
    have fewer : (action.waiting s).Sublist s.timers := by
      cases action with
      | timer fired now => exact List.erase_sublist
      | _ => exact List.Sublist.refl _
    rw [times.timers]
    exact (fewer.trans h.waiting).append (.refl _)
  known timer member := by
    rcases List.mem_append.mp member with old | added
    · obtain ⟨below, passed⟩ := h.known timer old
      refine ⟨Nat.lt_of_lt_of_le below times.later.number, fun p' member own => ?_⟩
      rcases times.later.projects p' member with ⟨p, member, later⟩ | new
      · exact (passed p member (later.id.symm.trans own)).trans later.registry.generation
      · rw [own] at new
        omega
    · have held : timer.key ∈ s'.workspace.pendingTimers := by
        have := List.mem_map_of_mem (f := Timer.key) added
        rw [times.keys] at this
        exact (List.mem_filter.mp this).1
      obtain ⟨p, member, same, pending⟩ := Workspace.mem_pendingTimers.mp held
      have same : p.id = timer.project := same
      refine ⟨numbered.below _ (same ▸ List.mem_map_of_mem member), fun q other own => ?_⟩
      obtain rfl := numbered.eq_of_id member other (same.trans own.symm)
      exact (Debouncer.generation_of_pending? pending).ge
  covered key held := by
    rw [times.timers, List.map_append, List.mem_append]
    by_cases before : key ∈ s.armed
    · rw [h.armed] at before
      obtain ⟨timer, member, rfl⟩ := List.mem_map.mp (h.covered key before)
      refine .inl (List.mem_map_of_mem ?_)
      cases action with
      | timer fired now =>
        refine (List.mem_erase_of_ne fun same => ?_).mpr member
        exact spent fired now rfl (same ▸ held)
      | _ => exact member
    · right
      rw [times.keys]
      exact List.mem_filter.mpr ⟨held, by simpa using before⟩

theorem Timed.punctual (timed : Timed config assembler set s) : Punctual set s := by
  induction timed with
  | start => exact ⟨rfl, by simp, .slnil, by simp, by simp [Session.start, Workspace.pendingTimers]⟩
  | @next host action s s' set new timed done added ih =>
    obtain ⟨new', times⟩ := (Action.effect done).times ih.armed
    obtain rfl : new = new' := List.append_cancel_left (added.symm.trans times.timers)
    refine ih.next times (timed.next done added).reached.numbered fun fired now same => ?_
    subst same
    have delivered : { s with now }.deliver host fired = some s' := done
    exact not_pending_of_deliver delivered

/-- However a session came about, there is a list of the timers that were set. -/
theorem Reached.exists_timed (reached : Reached config assembler s) :
    ∃ set, Timed config assembler set s := by
  induction reached with
  | refl => exact ⟨[], .start⟩
  | tail _ acts ih =>
    obtain ⟨set, timed⟩ := ih
    obtain ⟨host, action, done⟩ := acts
    obtain ⟨new, times⟩ := (Action.effect done).times timed.punctual.armed
    exact ⟨set ++ new, timed.next done times.timers⟩

/-! ## Firing -/

theorem announce_of_calm (calm : s.Calm) : s.announce = s := by
  obtain ⟨_, _, ⟨_, _, _, ⟨_, _⟩, _⟩, _, _, _, _, _, _⟩ := s
  cases calm
  simp [announce, Bench.drain, Announcement.all]

theorem arm_of_armed (armed : s.armed = s.workspace.pendingTimers) : s.arm = s := by
  have none : s.workspace.pendingTimers.filter (· ∉ s.armed) = [] :=
    List.filter_eq_nil_iff.mpr (by simp [armed])
  dsimp only [arm]
  rw [none, List.map_nil, List.append_nil, ← armed]

/-- A timer that nothing is held back for changes nothing but that it is gone. -/
theorem deliver_of_not_pending (calm : s.Calm) (lawful : s.workspace.Lawful)
    (armed : s.armed = s.workspace.pendingTimers) (stale : timer.key ∉ s.workspace.pendingTimers) :
    s.deliver host timer = some { s with timers := s.timers.erase timer } := by
  have still : s.workspace.forThose (·.id == timer.project) (fun p bench =>
      (p.flushDue (s.sources host) bench timer.generation).map (·.1)) = some s.workspace := by
    refine Workspace.forThose_still fun p member own => ?_
    have own : p.id = timer.project := by simpa using own
    have other : p.registry.pending? ≠ some timer.generation := fun held =>
      stale (Workspace.mem_pendingTimers.mpr ⟨p, member, own, held⟩)
    rw [Project.flushDue, Project.performFlush_map]
    refine Project.perform_eq_some_iff.mpr ⟨p.registry, ?_,
      Project.settle_of_drained (lawful p member).drained⟩
    rw [Registry.flushDue_of_pending?_ne other]
    rfl
  let erased : Session := { s with timers := s.timers.erase timer }
  have quiet : erased.announce = erased := announce_of_calm calm
  have same : erased.arm = erased := arm_of_armed armed
  rw [deliver_eq, still, Option.map_some]
  exact congrArg some ((congrArg arm quiet).trans same)

/-- The timer of an update held back has the update handled, and its project alone settles. -/
theorem deliver_of_held {before after : List Project} {p : Project} {key : Uri} {update : Update}
    (numbered : s.workspace.Numbered) (place : s.workspace.projects = before ++ p :: after)
    (held : p.registry.debouncer.held? = some (key, update))
    (current : timer.key = (p.id, p.registry.debouncer.generation)) :
    (p.registry.released.process (s.sources host) update = none → s.deliver host timer = none) ∧
      ∀ r, p.registry.released.process (s.sources host) update = some r → ∃ s' p',
        s.deliver host timer = some s' ∧ s'.workspace.projects = before ++ p' :: after ∧
        p'.id = p.id ∧ p'.registry = { r with events := [] } := by
  obtain ⟨project, generation, due⟩ := timer
  cases current
  have others : ∀ q ∈ before ++ after, (q.id == p.id) = false := fun q other => by
    simpa using numbered.id_ne place other
  have turns : s.workspace.forThose (·.id == p.id) (fun p' bench =>
      (p'.flushDue (s.sources host) bench p.registry.debouncer.generation).map (·.1)) =
        (p.registry.released.process (s.sources host) update).map fun r =>
          { s.workspace with
            projects :=
              before ++ (Project.settle { p with registry := r } s.workspace.bench).1 :: after
            bench := (Project.settle { p with registry := r } s.workspace.bench).2 } := by
    rw [Workspace.forThose_one place (by simp) others, Project.flushDue,
      Project.performFlush_map, Project.perform, Registry.flushDue_of_held held]
    simp only [Option.map_map]
    rfl
  refine ⟨fun none => by rw [deliver_eq, turns, none]; rfl, fun r done => ?_⟩
  rw [deliver_eq, turns, done]
  exact ⟨_, _, rfl, rfl, Project.settle_id, Project.settle_registry⟩

/-- However a session came about, its run set certain timers, no two for the same project and
generation. An update that is held back has exactly one timer that has not fired. When this
timer fires, at whatever time, the session returns if handling this update does, and then its
project alone has changed, to what handling the update makes of it. A timer whose update is no
longer held back is gone when it fired, and nothing else is different. -/
theorem timers_keep_step (reached : Reached config assembler s) :
    (∃ set, Timed config assembler set s) ∧
    ∀ set, Timed config assembler set s →
      (set.map Timer.key).Nodup ∧
      (∀ before p after g, s.workspace.projects = before ++ p :: after → p.pending? = some g →
        (s.timers.map Timer.key).count (p.id, g) = 1 ∧
        ∃ key update, p.registry.debouncer.held? = some (key, update) ∧
          ∀ host now timer, timer.key = (p.id, g) →
            (p.registry.released.process (s.sources host) update = none →
              { s with now }.deliver host timer = none) ∧
            ∀ r, p.registry.released.process (s.sources host) update = some r → ∃ s' p',
              { s with now }.deliver host timer = some s' ∧
              s'.workspace.projects = before ++ p' :: after ∧
              p'.id = p.id ∧ p'.registry = { r with events := [] }) ∧
      ∀ host now timer,
        (∀ p ∈ s.workspace.projects, p.id = timer.project → p.pending? ≠ some timer.generation) →
        { s with now }.deliver host timer =
          some { s with now, timers := s.timers.erase timer } := by
  refine ⟨reached.exists_timed, fun set timed => ?_⟩
  have punctual := timed.punctual
  obtain ⟨attempts, run⟩ := reached.exists_run
  refine ⟨punctual.once, fun before p after g place pending => ⟨?_, ?_⟩,
    fun host now timer stale => ?_⟩
  · have listed : (p.id, g) ∈ s.workspace.pendingTimers :=
      Workspace.mem_pendingTimers.mpr ⟨p, by simp [place], rfl, pending⟩
    exact List.count_eq_one_of_mem ((punctual.waiting.map _).nodup punctual.once)
      (punctual.covered _ listed)
  · obtain ⟨⟨key, update⟩, held, rfl⟩ := Option.map_eq_some_iff.mp pending
    exact ⟨key, update, held, fun host now timer current =>
      deliver_of_held (s := { s with now }) run.numbered place held current⟩
  · refine deliver_of_not_pending run.calm run.lawful punctual.armed fun pending => ?_
    obtain ⟨p, member, own, held⟩ := Workspace.mem_pendingTimers.mp pending
    exact stale p member own held

/-- The session in which the draft was opened, with its text held back. -/
def draftOpened : Session :=
  begun {} (.ofProgram [] none) draft (((Registry.blank 250).add draft.uri).push (.editor draft)).1

/-- The project of the draft. -/
def draftProject : Project :=
  (Project.settle { Project.empty ⟨1⟩ 250 with
    registry := (((Registry.blank 250).add draft.uri).push (.editor draft)).1 }
    ⟨.ofProgram [] none, []⟩).1

/-- A draft that is held back has one timer, which has the draft handled. -/
theorem draft_has_one_timer : ∃ set s', Reached {} (.ofProgram [] none) draftOpened ∧
    Timed {} (.ofProgram [] none) set draftOpened ∧ (set.map Timer.key).Nodup ∧
    draftOpened.workspace.projects = [draftProject] ∧ draftProject.pending? = some 1 ∧
    (draftOpened.timers.map Timer.key).count (draftProject.id, 1) = 1 ∧
    { draftOpened with now := 300 }.deliver drafted draftTimer = some s' ∧
    ∃ p', s'.workspace.projects = [p'] ∧
      p'.registry =
        (Registry.handled drafting 2 draftProject.registry.released (.editor draft)).drained := by
  have opened : (start {} (.ofProgram [] none)).takeDocument drafted draft = some draftOpened :=
    takeDocument_first (Registry.addDocument_blank (by decide))
  have reached : Reached {} (.ofProgram [] none) draftOpened :=
    .single ⟨drafted, .opened draft.uri draft.version draft.text, opened⟩
  obtain ⟨⟨set, timed⟩, punctual⟩ := timers_keep_step reached
  obtain ⟨once, current, -⟩ := punctual set timed
  have pending : draftProject.pending? = some 1 := by decide +kernel
  obtain ⟨one, key, update, held, fires⟩ := current [] draftProject [] 1 rfl pending
  have draft_held : draftProject.registry.debouncer.held? = some (draft.uri, .editor draft) := by
    decide +kernel
  cases held.symm.trans draft_held
  have done : draftProject.registry.released.process drafting (.editor draft) =
      some (Registry.handled drafting 2 draftProject.registry.released (.editor draft)) :=
    Registry.process_eq_handled (by decide +kernel)
  obtain ⟨s', p', fired, only, -, registry⟩ :=
    (fires drafted 300 draftTimer (by decide +kernel)).2 _ done
  exact ⟨set, s', reached, timed, once, rfl, pending, one, fired, p', only, registry⟩

end Session

end AsmServer
