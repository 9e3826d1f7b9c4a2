import AsmServer.Proofs.Answer.Diagnostics
import AsmServer.Proofs.Registry.Flattening
import AsmServer.Session.Basic

/-!
# Attempts to assemble a project

Whenever a project settles a changed text it attempts to assemble what it has. An attempt
has something to ask, or the reason why not. Its outcome is a new result, which is
reported, or no change of the project, of which only an include cycle is reported.

Apart from that a project that settles reports the files that it dropped. If it settles
nothing, nothing that counts has changed since the last attempt.
-/

namespace AsmServer

/-- A cycle that keeps a project from being assembled is closed by an include in the file that it
is blamed on. -/
theorem Registry.closes_of_ofCycle? {r : Registry} {entry u : Uri} (sound : r.Sound entry)
    {error : ProjectError} {diagnostic : Diagnostic} (failed : r.request = .error error)
    (cycle : Diagnostic.ofCycle? error = some (u, diagnostic)) :
    ∃ chain, r.Closes chain u diagnostic.range := by
  unfold Diagnostic.ofCycle? at cycle
  split at cycle
  · next chain file range =>
    cases cycle
    have flat : r.flatten = .error (.includeCycle chain u range) := by
      unfold request Project.request at failed
      split at failed
      · cases failed
      · split at failed
        · cases failed
        · cases flattened : r.flatten with
          | ok includes => simp [flattened] at failed
          | error error => simpa [flattened] using failed
    obtain ⟨_, _, _, same, closes⟩ := closes_of_flatten sound flat
    cases same
    exact ⟨chain, closes⟩
  · cases cycle

/-- The file that closes a cycle is tracked. -/
theorem Registry.tracked_of_ofCycle? {r : Registry} {entry u : Uri} (sound : r.Sound entry)
    {error : ProjectError} {diagnostic : Diagnostic} (failed : r.request = .error error)
    (cycle : Diagnostic.ofCycle? error = some (u, diagnostic)) : u ∈ r.uris := by
  obtain ⟨chain, closes⟩ := closes_of_ofCycle? sound failed cycle
  obtain ⟨way, edge, listed, -⟩ := closes.round
  exact mem_uris_of_links (links_iff_outgoing.mpr ⟨edge, listed, rfl⟩)

/-! ## Attempts -/

/-- An attempt to assemble a project: what there was to ask, or why nothing. -/
structure Attempt where
  project : ProjectId
  request : Except ProjectError Request

/-- What the assembler was asked, if there was something to ask. -/
def Attempt.request? (attempt : Attempt) : Option Request := attempt.request.toOption

/-- Whether the attempt is reported: all are but those of a project that is not ready. -/
def Attempt.isReported (attempt : Attempt) : Bool :=
  match attempt.request with
  | .ok _ => true
  | .error error => error.isReported

/-- An attempt that is not reported has nothing to ask. -/
theorem Attempt.filterMap_request?_filter (attempts : List Attempt) :
    (attempts.filter isReported).filterMap request? = attempts.filterMap request? := by
  rw [List.filterMap_filter]
  congr 1
  funext attempt
  obtain ⟨id, error | request⟩ := attempt
  · simp [request?, Except.toOption]
  · rfl

namespace ProjectEvent

/-- The project that a report is about. -/
def project : ProjectEvent → ProjectId
  | assembled id _ _ => id
  | failed id _ => id
  | removed id _ => id

/-- The attempt that a report is about. -/
def attempt? : ProjectEvent → Option Attempt
  | assembled id request _ => some ⟨id, .ok request⟩
  | failed id error => some ⟨id, .error error⟩
  | removed _ _ => none

theorem request?_eq (report : ProjectEvent) :
    report.request? = report.attempt?.bind Attempt.request? := by
  cases report <;> rfl

theorem filterMap_request? (reports : List ProjectEvent) :
    reports.filterMap request? = (reports.filterMap attempt?).filterMap Attempt.request? := by
  rw [List.filterMap_filterMap]
  exact congrArg (List.filterMap · reports) (funext request?_eq)

end ProjectEvent

namespace Project

variable {p p' : Project} {bench : Bench} {reports : List ProjectEvent} {u : Uri}

/-- The attempt to assemble the project as it is. -/
def attempt (p : Project) : Attempt := ⟨p.id, p.request⟩

/-- The attempts made when the project settles. -/
def attempts (p : Project) : List Attempt :=
  if p.registry.events.any FileEvent.isChange then [p.attempt] else []

theorem attempts_eq_nil_or (p : Project) : p.attempts = [] ∨ p.attempts = [p.attempt] := by
  unfold attempts
  split
  · exact .inr rfl
  · exact .inl rfl

/-- How an attempt ends: with which project, and with which reports. -/
inductive Outcome (p : Project) : Project → List ProjectEvent → Prop
  | answered {request : Request} (asked : p.request = .ok request) (result : AssemblyResult) :
      Outcome p { p with result? := some result } [.assembled p.id request result]
  | aborted {error : ProjectError} (failed : p.request = .error error)
      (reported : error.isReported = true) : Outcome p p [.failed p.id error]
  | unready {error : ProjectError} (failed : p.request = .error error)
      (silent : error.isReported = false) : Outcome p p []

theorem assemble_outcome (p : Project) (bench : Bench) : ∃ reports,
    p.Outcome (p.assemble bench).1 reports ∧
      (p.assemble bench).2.events = bench.events ++ reports := by
  unfold assemble
  split
  · next request asked => exact ⟨_, .answered asked _, rfl⟩
  · next error failed =>
    cases reported : error.isReported with
    | true => exact ⟨_, .aborted failed reported, rfl⟩
    | false => exact ⟨_, .unready failed reported, (List.append_nil _).symm⟩

/-- How settling ends: with which project, and with which reports. -/
inductive Settles (p : Project) : Project → List ProjectEvent → Prop
  | still (quiet : p.registry.events.any FileEvent.isChange = false) :
      Settles p p.drained p.removals
  | tried (changed : p.registry.events.any FileEvent.isChange = true) {p' : Project}
      {reports : List ProjectEvent} (outcome : p.drained.Outcome p' reports) :
      Settles p p' (p.removals ++ reports)

theorem settle_settles (p : Project) (bench : Bench) : ∃ reports,
    p.Settles (p.settle bench).1 reports ∧
      (p.settle bench).2.events = bench.events ++ reports := by
  obtain ⟨told, -, events, settled⟩ := exists_settle p bench
  rw [settled]
  cases changed : p.registry.events.any FileEvent.isChange with
  | false => exact ⟨p.removals, .still changed, events⟩
  | true =>
    obtain ⟨reports, outcome, more⟩ := assemble_outcome p.drained told
    exact ⟨p.removals ++ reports, .tried changed outcome, by simp [more, events]⟩

/-! ## What the reports tell -/

theorem attempt_of_request {outcome : Except ProjectError Request} (same : p.request = outcome) :
    p.attempt = ⟨p.id, outcome⟩ := congrArg (Attempt.mk p.id) same

/-- The attempts that are reported are told in their order. -/
theorem Outcome.told (h : p.Outcome p' reports) :
    reports.filterMap ProjectEvent.attempt? = [p.attempt].filter Attempt.isReported := by
  cases h with
  | answered asked result =>
    rw [attempt_of_request asked]
    rfl
  | aborted failed reported =>
    simp [attempt_of_request failed, Attempt.isReported, reported, ProjectEvent.attempt?]
  | unready failed silent =>
    simp [attempt_of_request failed, Attempt.isReported, silent]

theorem Settles.told (h : p.Settles p' reports) :
    reports.filterMap ProjectEvent.attempt? = p.attempts.filter Attempt.isReported := by
  have silent : p.removals.filterMap ProjectEvent.attempt? = [] := by
    unfold removals
    split <;> simp [ProjectEvent.attempt?]
  cases h with
  | still quiet => simp [silent, attempts, quiet]
  | tried changed outcome =>
    have same : p.drained.attempt = p.attempt := by
      simp only [attempt, request_drained]
      rfl
    rw [List.filterMap_append, silent, outcome.told, same, attempts, if_pos changed]
    rfl

theorem Outcome.asked (h : p.Outcome p' reports) :
    reports.filterMap ProjectEvent.request? = [p.attempt].filterMap Attempt.request? := by
  rw [ProjectEvent.filterMap_request?, h.told, Attempt.filterMap_request?_filter]

/-- The requests that are reported are those of the attempts. -/
theorem Settles.asked (h : p.Settles p' reports) :
    reports.filterMap ProjectEvent.request? = p.attempts.filterMap Attempt.request? := by
  rw [ProjectEvent.filterMap_request?, h.told, Attempt.filterMap_request?_filter]

/-- A project reports about itself. -/
theorem Outcome.own (h : p.Outcome p' reports) : ∀ event ∈ reports, event.project = p.id := by
  cases h <;> simp [ProjectEvent.project]

theorem Settles.own (h : p.Settles p' reports) : ∀ event ∈ reports, event.project = p.id := by
  have removal : ∀ event ∈ p.removals, event.project = p.id := by
    unfold removals
    split <;> simp [ProjectEvent.project]
  cases h with
  | still quiet => exact removal
  | tried changed outcome =>
    intro event reported
    rcases List.mem_append.mp reported with gone | told
    · exact removal event gone
    · exact outcome.own event told

theorem Outcome.answer {request : Request} (h : p.Outcome p' reports)
    (asked : p.request = .ok request) :
    ∃ result, p'.result? = some result ∧ reports = [.assembled p.id request result] := by
  cases h with
  | answered asked' result =>
    cases asked.symm.trans asked'
    exact ⟨result, rfl, rfl⟩
  | aborted failed _ => cases asked.symm.trans failed
  | unready failed _ => cases asked.symm.trans failed

/-- Only the reason why there is nothing to ask is reported as a failure. -/
theorem Outcome.failure {id : ProjectId} {error : ProjectError} (h : p.Outcome p' reports)
    (reported : .failed id error ∈ reports) : id = p.id ∧ p.request = .error error := by
  cases h with
  | answered asked result => simp at reported
  | aborted failed _ =>
    obtain ⟨same, rfl⟩ : id = p.id ∧ error = _ := by simpa using reported
    exact ⟨same, failed⟩
  | unready failed _ => simp at reported

theorem Settles.failure {id : ProjectId} {error : ProjectError} (h : p.Settles p' reports)
    (reported : .failed id error ∈ reports) : id = p.id ∧ p.request = .error error := by
  have silent : .failed id error ∉ p.removals := by
    unfold removals
    split <;> simp
  cases h with
  | still quiet => exact absurd reported silent
  | tried changed outcome =>
    rw [← request_drained]
    exact outcome.failure ((List.mem_append.mp reported).resolve_left silent)

/-- If there is nothing to ask about a changed text, the reason is reported, unless the project
is merely not ready. -/
theorem Settles.mem_of_failed {error : ProjectError} (h : p.Settles p' reports)
    (changed : p.registry.events.any FileEvent.isChange = true) (failed : p.request = .error error)
    (reported : error.isReported = true) : .failed p.id error ∈ reports := by
  have attempted : (⟨p.id, .error error⟩ : Attempt) ∈ p.attempts.filter Attempt.isReported := by
    rw [attempts, if_pos changed, attempt_of_request failed]
    simpa [Attempt.isReported] using reported
  rw [← h.told, List.mem_filterMap] at attempted
  obtain ⟨report, told, same⟩ := attempted
  cases report <;> cases same
  exact told

/-- Every file that was dropped is reported. -/
theorem Settles.removal (h : p.Settles p' reports) (gone : .removed u ∈ p.registry.events) :
    ∃ uris, .removed p.id uris ∈ reports ∧ u ∈ uris := by
  have member : u ∈ p.dropped := List.mem_filterMap.mpr ⟨_, gone, rfl⟩
  have told : .removed p.id p.dropped ∈ p.removals := by
    unfold removals
    rw [if_neg (List.ne_nil_of_mem member)]
    exact List.mem_singleton_self _
  cases h with
  | still quiet => exact ⟨p.dropped, told, member⟩
  | tried changed outcome => exact ⟨p.dropped, List.mem_append_left _ told, member⟩

/-- An attempt with something to ask gives a result, which is reported last. -/
theorem Settles.answer {request : Request} (h : p.Settles p' reports) (tried : p.attempts ≠ [])
    (asked : p.request = .ok request) : ∃ result, p'.result? = some result ∧
      reports.getLast? = some (.assembled p.id request result) := by
  cases h with
  | still quiet => exact absurd (by simp [attempts, quiet]) tried
  | tried changed outcome =>
    obtain ⟨result, stored, rfl⟩ := outcome.answer (request_drained.trans asked)
    exact ⟨result, stored, by simp [drained]⟩

/-- Without an attempt after moves there is nothing to report, and nothing that counts has
changed. -/
theorem Settles.calm {r : Registry} {sources : Sources} {q : Project}
    (h : Settles { q with registry := r } p' reports)
    (none : attempts { q with registry := r } = []) (whole : q.dropped = [])
    (moves : Registry.Moves sources q.registry r) :
    reports = [] ∧ p'.result? = q.result? ∧ p'.registry.bare = q.registry.bare := by
  obtain ⟨new, events, told⟩ := moves.tells
  cases h with
  | still quiet =>
    rw [events, List.any_append, Bool.or_eq_false_iff] at quiet
    obtain ⟨rfl, same⟩ := told.resolve_left (by simp [quiet.2])
    have still : dropped { q with registry := r } = q.dropped := by simp [dropped, events]
    exact ⟨by simp [removals, still, whole], rfl, same⟩
  | tried changed outcome => simp [attempts, changed] at none

end Project

end AsmServer
