import AsmServer.Proofs.Session.Messages
import AsmServer.Proofs.Session.Precedence
import AsmServer.Proofs.Session.Runs
import AsmServer.Proofs.Workspace.Coverage

/-!
# What the editor shows

As long as there is one project, what the editor shows follows from its most recent attempt.
If there was something to ask, the result is stored and every tracked file has the
diagnostics that this result gives it, whatever was dropped, found again or published in
between. Nothing else has diagnostics, however many projects there are.
-/

namespace AsmServer

open Notification

/-! ## The most recent attempt -/

namespace Project

variable {sent : List Notification} {attempts more : List Attempt}
  {events reports : List ProjectEvent} {p p' : Project} {delay : Nat} {result : AssemblyResult}

/-- The diagnostics of a result were published last for every tracked file. -/
def Displays (sent : List Notification) (p : Project) (result : AssemblyResult) : Prop :=
  ∀ u ∈ p.registry.uris,
    lastAt? sent u.text = Catalog.find? u (Diagnostic.perFile p.registry result)

/-- What the most recent attempt at a project left. -/
structure Latest (sent : List Notification) (attempts : List Attempt)
    (events : List ProjectEvent) (p : Project) : Prop where
  /-- It was made of the project as it is. -/
  attempt : ∀ a, attempts.getLast? = some a → a = p.attempt
  tried : ∀ q, p.request = .ok q → attempts ≠ []
  /-- The result is stored, and announced unless its report comes last. -/
  result : ∀ q, p.request = .ok q → ∃ result, p.result? = some result ∧
    (events.getLast? = some (.assembled p.id q result) ∨ events = [] ∧ p.Displays sent result)

theorem Latest.progress (h : Latest sent attempts events p)
    (progress : p.Progress delay more p' reports) :
    Latest sent (attempts ++ more) (events ++ reports) p' := by
  rcases progress.attempted with ⟨rfl, rfl, stored, same⟩ | ⟨rfl, answered⟩
  · have asked : p'.request = p.request := Registry.request_of_bare same
    rw [List.append_nil, List.append_nil]
    refine ⟨fun a last => ?_, fun q ok => h.tried q (asked ▸ ok), fun q ok => ?_⟩
    · rw [h.attempt a last]
      simp only [Project.attempt, asked, progress.id]
    · rw [stored, progress.id]
      obtain ⟨result, kept, shown⟩ := h.result q (asked ▸ ok)
      refine ⟨result, kept, shown.imp_right (And.imp_right fun displays u tracked => ?_)⟩
      rw [Diagnostic.perFile_congr same]
      exact displays u (Registry.uris_of_bare same ▸ tracked)
  · refine ⟨fun a last => ?_, fun q ok => by simp, fun q ok => ?_⟩
    · simpa using last.symm
    · obtain ⟨result, stored, last⟩ := answered q ok
      exact ⟨result, stored, .inl (by simp [List.getLast?_append, last])⟩

/-- Nothing was attempted before the first text of a new project. -/
theorem latest_fresh {id : ProjectId} {uri : Uri} : Latest sent [] events (fresh id delay uri) where
  attempt _ last := by cases last
  tried q ok := absurd ok request_fresh
  result q ok := absurd ok request_fresh

/-- A result that is announced is displayed. -/
theorem displays_result {published : Published} {entry : Uri} (sound : p.registry.Sound entry)
    (files : ∀ u ∈ p.registry.uris, u.isFile = true) :
    p.Displays (sent ++ (Announcement.ofResult published p result).messages) result := by
  intro u tracked
  have text : u.url? = some u.text := Uri.url?_of_isFile (files u tracked)
  let placed := (Diagnostic.perFile p.registry result).map fun entry =>
    Publication.ofProject p entry.1 entry.2
  -- Each file has one place in the catalog, so what comes last is what is found there.
  have found (diagnostics : List Diagnostic)
      (last : lastAt? (placed.filterMap Publication.toNotification?) u.text = some diagnostics) :
      Catalog.find? u (Diagnostic.perFile p.registry result) = some diagnostics := by
    obtain ⟨q, listed, here, rfl⟩ := exists_of_lastAt? last
    obtain ⟨⟨v, diagnostics⟩, entry, rfl⟩ := List.mem_map.mp listed
    have other : v ∈ p.registry.uris :=
      (Diagnostic.mem_keys_perFile sound.entry? sound.tracked result).mp
        (List.mem_map_of_mem (f := (·.1)) entry)
    have same : v.text = u.text := by
      have here : v.url? = some u.text := here
      rwa [Uri.url?_of_isFile (files v other), Option.some.injEq] at here
    obtain rfl : v = u := congrArg Uri.mk same
    exact Diagnostic.sorted_perFile.find?_eq_some_iff.mpr entry
  obtain ⟨⟨v, diagnostics⟩, entry, rfl⟩ :=
    List.mem_map.mp ((Diagnostic.mem_keys_perFile sound.entry? sound.tracked result).mpr tracked)
  obtain ⟨shown, last⟩ := Option.isSome_iff_exists.mp
    (lastAt?_isSome_of_mem (List.mem_map_of_mem entry : _ ∈ placed) text)
  have messages : (Announcement.ofResult published p result).messages = (Publication.clearing
      ((published.of p.id).filter (· ∉ (Diagnostic.perFile p.registry result).keys)) ++
        placed).filterMap Publication.toNotification? := rfl
  rw [found shown last, messages, List.filterMap_append, lastAt?_append, lastAt?_append, last]
  rfl

end Project

namespace Workspace

variable {sent : List Notification} {attempts more : List Attempt} {w w' : Workspace}
  {events reports : List ProjectEvent} {p : Project}

/-! ## Steps -/

theorem Shows.progress (h : w.Shows events sent) (progress : w.Progress more w' reports) :
    w'.Shows (events ++ reports) sent := by
  intro url diagnostics last some
  obtain ⟨u, file, text, known⟩ := h url diagnostics last some
  exact ⟨u, file, text, progress.known known⟩

/-- Tracked files may be blamed. -/
theorem blames_of_tracks (files : w.Local)
    (tracked : ∀ id error u diagnostic, .failed id error ∈ reports →
      Diagnostic.ofCycle? error = some (u, diagnostic) → w.tracks u) : w.Blames reports := by
  induction reports with
  | nil => trivial
  | cons event rest ih =>
    refine ⟨?_, ih fun id error u diagnostic told =>
      tracked id error u diagnostic (List.mem_cons_of_mem _ told)⟩
    rintro id error u diagnostic rfl cycle
    have here := tracked id error u diagnostic List.mem_cons_self cycle
    obtain ⟨p, member, own⟩ := tracks_iff.mp here
    exact ⟨files p member u (Registry.tracks_iff.mp own), .inl here⟩

theorem Blames.progress (h : w.Blames events) (progress : w.Progress more w' reports)
    (files : w'.Local) : w'.Blames (events ++ reports) := by
  induction events with
  | nil => exact blames_of_tracks files fun id error u diagnostic => progress.tracks_of_cycle
  | cons event rest ih =>
    refine ⟨fun id error u diagnostic same cycle => ?_, ih h.2⟩
    exact (h.1 id error u diagnostic same cycle).imp_right progress.known

theorem local_of_only (only : w.projects = [p])
    (files : ∀ u ∈ p.registry.uris, u.isFile = true) : w.Local := by
  intro q member
  rw [only, List.mem_singleton] at member
  rwa [member]

/-- The only project is as its most recent attempt left it. -/
structure Recent (sent : List Notification) (attempts : List Attempt) (w : Workspace) : Prop where
  none : w.projects = [] → attempts = []
  one : ∀ p, w.projects = [p] → p.Latest sent attempts w.bench.events

theorem Recent.progress (h : Recent sent attempts w) (progress : w.Progress more w' reports)
    (events : w'.bench.events = w.bench.events ++ reports) :
    Recent sent (attempts ++ more) w' := by
  refine ⟨fun none => ?_, fun q only => ?_⟩
  · cases progress with
    | turned _ _ place' => simp [place'] at none
    | created _ place' => simp [place'] at none
    | attended same attempted _ => rw [h.none (same ▸ none), attempted, List.append_nil]
  · rw [events]
    cases progress with
    | turned place progress place' =>
      rcases List.append_eq_singleton_iff.mp (place'.symm.trans only) with ⟨rfl, rest⟩ | ⟨-, rest⟩
      · cases rest
        exact (h.one _ place).progress progress
      · cases rest
    | created progress place' =>
      rcases List.append_eq_singleton_iff.mp (place'.symm.trans only) with ⟨empty, rest⟩ | ⟨-, rest⟩
      · cases rest
        rw [h.none empty]
        exact Project.latest_fresh.progress progress
      · cases rest
    | attended same attempted silent =>
      rw [attempted, silent, List.append_nil, List.append_nil]
      exact h.one q (same ▸ only)

/-- Steps keep that nothing but known files is shown or blamed. -/
theorem Steps.shows (run : Steps w attempts w') (lawful : w.Lawful) (files : w'.Local)
    (h : w.Shows w.bench.events sent ∧ w.Blames w.bench.events) :
    w'.Shows w'.bench.events sent ∧ w'.Blames w'.bench.events := by
  induction run with
  | refl => exact h
  | tail run step ih =>
    obtain ⟨-, reports, progress, events⟩ := step.progress (run.lawful lawful)
    obtain ⟨shows, blames⟩ := ih (progress.isLocal (run.lawful lawful) files)
    rw [events]
    exact ⟨shows.progress progress, blames.progress progress files⟩

theorem Steps.recent (run : Steps w more w') (lawful : w.Lawful) (h : Recent sent attempts w) :
    Recent sent (attempts ++ more) w' := by
  induction run with
  | refl =>
    rw [List.append_nil]
    exact h
  | tail run step ih =>
    obtain ⟨-, reports, progress, events⟩ := step.progress (run.lawful lawful)
    rw [← List.append_assoc]
    exact ih.progress progress events

/-! ## Announcements -/

/-- Reading the reports changes no project. -/
theorem progress_drained : w.Progress [] w.drained [] := .attended rfl rfl rfl

theorem Lawful.drained (h : w.Lawful) : w.drained.Lawful := progress_drained.lawful rfl h

/-- After announcing only tracked files have diagnostics that are not empty. -/
theorem Shows.drained {published : Published} (lawful : w.Lawful) (files : w.Local)
    (h : w.Shows w.bench.events sent ∧ w.Blames w.bench.events) :
    w.drained.Shows []
      (sent ++ (Announcement.all w.drained published w.bench.events).messages) := by
  have shows := h.1.progress progress_drained
  have blames := h.2.progress progress_drained files
  rw [List.append_nil] at shows blames
  exact Shows.all lawful.drained files blames { published } (by simpa using shows)

/-- The report of the result comes last, so the result is displayed after announcing. -/
theorem announce_displays {published : Published} {before : List ProjectEvent} {request : Request}
    {result : AssemblyResult} (lawful : w.Lawful) (files : w.Local) (only : w.projects = [p]) :
    p.Displays (sent ++ (Announcement.all w published
      (before ++ [.assembled p.id request result])).messages) result := by
  have member : p ∈ w.projects := by simp [only]
  obtain ⟨entry, sound⟩ := (lawful p member).sound
  have found : w.project? p.id = some p := by simp [project?, only]
  have messages (earlier : Announcement) :
      (Announcement.add w earlier (.assembled p.id request result)).messages =
        earlier.messages ++ (Announcement.ofResult earlier.published p result).messages := by
    simp [Announcement.add, found]
  rw [Announcement.all, List.foldl_concat, messages, ← List.append_assoc]
  exact Project.displays_result sound (files p member)

theorem Recent.drained {published : Published} (lawful : w.Lawful) (files : w.Local)
    (h : Recent sent attempts w) :
    Recent (sent ++ (Announcement.all w.drained published w.bench.events).messages) attempts
      w.drained := by
  refine ⟨h.none, fun p only => ?_⟩
  have latest := h.one p only
  refine ⟨latest.attempt, latest.tried, fun q ok => ?_⟩
  obtain ⟨result, stored, last | ⟨read, displays⟩⟩ := latest.result q ok
  · obtain ⟨before, events⟩ := List.getLast?_eq_some_iff.mp last
    rw [events]
    exact ⟨result, stored, .inr ⟨rfl, announce_displays lawful.drained files only⟩⟩
  · refine ⟨result, stored, .inr ⟨rfl, ?_⟩⟩
    simpa [read, Announcement.all] using displays

end Workspace

/-! ## Runs -/

namespace Session

variable {config : Config} {assembler : Assembler} {s : Session} {attempts : List Attempt}

theorem Run.lawful (run : Run config assembler attempts s) : s.workspace.Lawful := by
  induction run with
  | start => simp [Workspace.Lawful, Session.start]
  | next _ _ handles ih =>
    rw [handles.workspace]
    exact (handles.steps.lawful ih).drained

/-- The attempts of a run with something to ask are the requests that the session has noted. -/
theorem Run.asked (run : Run config assembler attempts s) :
    s.asked = attempts.filterMap Attempt.request? := by
  induction run with
  | start => rfl
  | next run _ handles ih =>
    rw [handles.asked, ih, handles.steps.asked run.lawful, run.calm, List.filterMap_append]
    rfl

/-- Between actions only tracked files have diagnostics that are not empty. -/
theorem Run.shows (run : Run config assembler attempts s) (files : s.workspace.Local) :
    s.workspace.Shows [] s.sent := by
  induction run with
  | start =>
    intro url diagnostics last
    cases last
  | next run _ handles ih =>
    rw [handles.workspace] at files ⊢
    rw [handles.sent]
    have before := ih (handles.steps.isLocal run.lawful files)
    refine Workspace.Shows.drained (handles.steps.lawful run.lawful) files
      (handles.steps.shows run.lawful files ?_)
    rw [run.calm]
    exact ⟨before, trivial⟩

/-- Between actions the only project is as its most recent attempt left it. -/
theorem Run.recent (run : Run config assembler attempts s) (files : s.workspace.Local) :
    Workspace.Recent s.sent attempts s.workspace := by
  induction run with
  | start => exact ⟨fun _ => rfl, fun p only => by simp [Session.start] at only⟩
  | next run _ handles ih =>
    rw [handles.workspace] at files ⊢
    rw [handles.sent]
    have before := ih (handles.steps.isLocal run.lawful files)
    exact (handles.steps.recent run.lawful before).drained (handles.steps.lawful run.lawful) files

/-- However a session came about, its run made certain attempts to assemble. If there is only
one project, all its files are named by file URIs and there was something to ask in the most
recent attempt, then the result is stored, the diagnostics last published for each tracked file
are those that this result gives it among the files tracked now, and wherever else diagnostics
were published they were empty at last. -/
theorem shown_diagnostics_are_current (reached : Reached config assembler s) :
    (∃ attempts, Run config assembler attempts s) ∧
    ∀ attempts attempt request p, Run config assembler attempts s →
      s.workspace.projects = [p] → (∀ u ∈ p.registry.uris, u.isFile = true) →
      attempts.getLast? = some attempt → attempt.request = .ok request →
      ∃ result, p.result? = some result ∧
        (∀ u ∈ p.registry.uris, ∃ url diagnostics, u.url? = some url ∧
          Catalog.find? u (Diagnostic.perFile p.registry result) = some diagnostics ∧
          lastAt? s.sent url = some diagnostics) ∧
        ∀ url diagnostics, lastAt? s.sent url = some diagnostics →
          (∀ u ∈ p.registry.uris, u.url? ≠ some url) → diagnostics = [] := by
  refine ⟨reached.exists_run, fun attempts attempt request p run only files last ok => ?_⟩
  have all : s.workspace.Local := Workspace.local_of_only only files
  have latest := (run.recent all).one p only
  rw [latest.attempt attempt last] at ok
  obtain ⟨result, stored, waiting | ⟨-, displays⟩⟩ := latest.result request ok
  · rw [run.calm] at waiting
    cases waiting
  refine ⟨result, stored, fun u tracked => ?_, fun url diagnostics published other => ?_⟩
  · obtain ⟨entry, sound⟩ := (run.lawful p (by simp [only])).sound
    obtain ⟨diagnostics, found⟩ := Option.isSome_iff_exists.mp
      (Catalog.find?_isSome_iff_mem_keys.mpr
        ((Diagnostic.mem_keys_perFile sound.entry? sound.tracked result).mpr tracked))
    exact ⟨u.text, diagnostics, Uri.url?_of_isFile (files u tracked), found,
      (displays u tracked).trans found⟩
  · by_contra some
    obtain ⟨u, file, text, known⟩ := run.shows all url diagnostics published some
    have tracked : s.workspace.tracks u := known.resolve_right (by simp)
    have here : u ∈ p.registry.uris := by
      simpa [Workspace.tracks, only, Project.tracks] using tracked
    exact other u here (text ▸ Uri.url?_of_isFile file)

/-- A document whose text was taken in by its timer is shown with the diagnostics of the
result. -/
theorem draft_diagnostics_are_shown : ∃ s attempts attempt request p result,
    Reached {} (.ofProgram [] none) s ∧ Run {} (.ofProgram [] none) attempts s ∧
      s.workspace.projects = [p] ∧ (∀ u ∈ p.registry.uris, u.isFile = true) ∧
      attempts.getLast? = some attempt ∧ attempt.request = .ok request ∧
      p.result? = some result ∧ ∃ url diagnostics, draft.uri.url? = some url ∧
        Catalog.find? draft.uri (Diagnostic.perFile p.registry result) = some diagnostics ∧
        lastAt? s.sent url = some diagnostics := by
  obtain ⟨s₁, opened, buffers₁, lone₁⟩ := exists_draftHeld
  obtain ⟨s₂, fired, -, p, only, registry, -⟩ := exists_draftShown buffers₁ lone₁
  have first : Acts (start {} (.ofProgram [] none)) s₁ :=
    ⟨drafted, .opened draft.uri draft.version draft.text, opened⟩
  have second : Acts s₁ s₂ := ⟨drafted, .timer draftTimer s₁.now, fired⟩
  have reached : Reached {} (.ofProgram [] none) s₂ := .tail (.single first) second
  obtain ⟨attempts, run⟩ := (shown_diagnostics_are_current reached).1
  have files : ∀ u ∈ p.registry.uris, u.isFile = true := by
    rw [registry]
    decide +kernel
  have latest := (run.recent (Workspace.local_of_only only files)).one p only
  have asked : p.request = .ok ⟨draft.text, []⟩ := by
    rw [Project.request_eq, registry]
    rfl
  obtain ⟨attempt, last⟩ := Option.ne_none_iff_exists'.mp
    (mt List.getLast?_eq_none_iff.mp (latest.tried _ asked))
  have ok : attempt.request = .ok ⟨draft.text, []⟩ := by
    rw [latest.attempt attempt last]
    exact asked
  obtain ⟨result, stored, shown, -⟩ :=
    (shown_diagnostics_are_current reached).2 attempts attempt _ p run only files last ok
  have tracked : draft.uri ∈ p.registry.uris := by
    rw [registry]
    decide +kernel
  exact ⟨s₂, attempts, attempt, _, p, result, reached, run, only, files, last, ok, stored,
    shown draft.uri tracked⟩

/-! ## Files that are not tracked -/

/-- Wherever no tracked file is, nothing was published, or empty diagnostics at last. -/
theorem Run.lastAt?_untracked (run : Run config assembler attempts s) (files : s.workspace.Local)
    {url : Text} (other : ∀ u, s.workspace.tracks u → u.url? ≠ some url) :
    lastAt? s.sent url = none ∨ lastAt? s.sent url = some [] := by
  cases last : lastAt? s.sent url with
  | none => exact .inl rfl
  | some diagnostics =>
    by_cases empty : diagnostics = []
    · exact .inr (congrArg some empty)
    · obtain ⟨u, file, rfl, known⟩ := run.shows files url diagnostics last empty
      exact absurd (Uri.url?_of_isFile file) (other u (known.resolve_right (by simp)))

/-- However a session came about, if all tracked files of its projects are named by file URIs,
then wherever no tracked file is, nothing was published, or empty diagnostics at last. So it is
for every file URI that no project tracks. -/
theorem untracked_files_show_nothing (reached : Reached config assembler s)
    (files : s.workspace.Local) :
    (∀ url, (∀ u, s.workspace.tracks u → u.url? ≠ some url) →
      lastAt? s.sent url = none ∨ lastAt? s.sent url = some []) ∧
    ∀ u : Uri, u.isFile = true → s.workspace.tracks u = false → ∀ url, u.url? = some url →
      lastAt? s.sent url = none ∨ lastAt? s.sent url = some [] := by
  obtain ⟨attempts, run⟩ := reached.exists_run
  refine ⟨fun url => run.lastAt?_untracked files, fun u file untracked url here => ?_⟩
  refine run.lastAt?_untracked files fun v tracked there => ?_
  obtain ⟨p, member, own⟩ := Workspace.tracks_iff.mp tracked
  rw [Uri.url?_of_isFile file] at here
  rw [Uri.url?_of_isFile (files p member v (Registry.tracks_iff.mp own)), ← here,
    Option.some.injEq] at there
  obtain rfl : v = u := congrArg Uri.mk there
  rw [untracked] at tracked
  cases tracked

section cut

open Workspace (part whole wholeCut partStored)

/-- An assembler that objects to the included file. -/
def objecting : Assembler :=
  .ofFunction fun _ =>
    { listing? := some [{ number := 1, file? := some "a".toList, error? := some "?".toList }] }

/-- The text that includes the file was handled. -/
def wholeTaken : Registry :=
  Registry.queued ⟨partStored.disk, [whole]⟩ 5 ((Registry.blank 0).add whole.uri) (.editor whole)

/-- The project of that text. -/
def objected : Project :=
  (Project.settle { Project.empty ⟨1⟩ 0 with registry := wholeTaken } ⟨objecting, []⟩).1

/-- The text without the include was handled. -/
def wholeCutTaken : Registry :=
  Registry.queued ⟨partStored.disk, [wholeCut]⟩ 2 objected.registry (.editor wholeCut)

/-- The session in which the text that includes the file was opened. -/
def wholeBegun : Session := begun { delay := 0 } objecting whole wholeTaken

/-- The session in which the include was taken out. -/
def wholeCutTook : Session := wholeBegun.took objected wholeCut wholeCutTaken

/-- The included file shows an error as long as it is included, and nothing once it was cut
off. -/
theorem cut_off_file_shows_nothing : ∃ s₁ s₂,
    Reached { delay := 0 } objecting s₁ ∧
      lastAt? s₁.sent part.uri.text = some [⟨.onLine 0 0 0, "?".toList⟩] ∧
      Acts s₁ s₂ ∧ Reached { delay := 0 } objecting s₂ ∧ s₂.workspace.Local ∧
      s₂.workspace.tracks part.uri = false ∧
      (lastAt? s₂.sent part.uri.text = none ∨ lastAt? s₂.sent part.uri.text = some []) := by
  have opened : (start { delay := 0 } objecting).takeDocument { disk := partStored.disk } whole
      = some wholeBegun :=
    takeDocument_first (Registry.updateFromEditor_queued (by decide +kernel) (by decide +kernel))
  have changed : wholeBegun.takeDocument { disk := partStored.disk } wholeCut
      = some wholeCutTook :=
    takeDocument_only rfl (by decide +kernel)
      (Registry.updateFromEditor_queued (by decide +kernel) (by decide +kernel))
  have first : Acts (start { delay := 0 } objecting) wholeBegun :=
    ⟨_, .opened whole.uri whole.version whole.text, opened⟩
  have second : Acts wholeBegun wholeCutTook :=
    ⟨_, .opened wholeCut.uri wholeCut.version wholeCut.text, changed⟩
  have reached : Reached { delay := 0 } objecting wholeCutTook := .tail (.single first) second
  have files : wholeCutTook.workspace.Local := by
    have all : wholeCutTook.workspace.projects.all fun p =>
        p.registry.uris.all (·.isFile) := by
      decide +kernel
    simpa [Workspace.Local] using all
  have untracked : wholeCutTook.workspace.tracks part.uri = false := by decide +kernel
  exact ⟨wholeBegun, wholeCutTook, .single first, by decide +kernel, second, reached, files,
    untracked, (untracked_files_show_nothing reached files).2 part.uri (by decide +kernel)
      untracked _ (by decide +kernel)⟩

end cut

end Session

end AsmServer
