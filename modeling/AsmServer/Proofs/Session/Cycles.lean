import AsmServer.Proofs.Session.Publishing

/-!
# Include cycles on display

A failed attempt publishes its cycle at the file that closes it and clears nothing. The cycle
stays on display until something else is published there: the next result clears the file or
gives it diagnostics of its own, and a drop of the file clears it. Hence a project was not
assembled since it met a cycle that is on display. Later attempts may have failed for another
reason, which leaves the old cycle where it is.

To tell which report a message comes from, every report that was read is kept together with
the messages that it led to.
-/

namespace AsmServer

open Notification

/-! ## Reports with their messages -/

/-- A report that was read, with the messages that it led to. -/
structure Dispatch where
  report : ProjectEvent
  messages : List Notification
  deriving DecidableEq, Repr

namespace Announcement

variable {w : Workspace} {published : Published} {before : Announcement} {event : ProjectEvent}
  {events : List ProjectEvent} {p : Project} {id : ProjectId} {error : ProjectError} {u : Uri}
  {url : Text}

/-- What each of the reports leads to, in order. -/
def dispatches (w : Workspace) (published : Published) : List ProjectEvent → List Dispatch
  | [] => []
  | event :: rest =>
    ⟨event, (add w { published } event).messages⟩ ::
      dispatches w (add w { published } event).published rest

theorem add_published :
    (add w before event).published = (add w { published := before.published } event).published := by
  cases event <;> rfl

theorem add_messages : (add w before event).messages =
    before.messages ++ (add w { published := before.published } event).messages := by
  cases event <;> rfl

theorem foldl_messages : (events.foldl (add w) before).messages =
    before.messages ++ (dispatches w before.published events).flatMap (·.messages) := by
  induction events generalizing before with
  | nil => exact (List.append_nil _).symm
  | cons event rest ih =>
    rw [List.foldl_cons, ih, add_published, add_messages, List.append_assoc, dispatches,
      List.flatMap_cons]

/-- All messages are those of the reports, one after the other. -/
theorem all_messages :
    (all w published events).messages = (dispatches w published events).flatMap (·.messages) :=
  foldl_messages

theorem foldl_published :
    (events.foldl (add w) before).published = (all w before.published events).published := by
  induction events generalizing before with
  | nil => rfl
  | cons event rest ih =>
    rw [List.foldl_cons, ih, add_published]
    exact ih.symm

theorem report_dispatches : (dispatches w published events).map (·.report) = events := by
  induction events generalizing published with
  | nil => rfl
  | cons event rest ih => rw [dispatches, List.map_cons, ih]

end Announcement

namespace Dispatch

variable {told : List Dispatch} {d : Dispatch} {url : Text} {id : ProjectId} {error : ProjectError}

/-- Everything that was sent. -/
def sent (told : List Dispatch) : List Notification := told.flatMap (·.messages)

/-- The report with which diagnostics were last published at a URL. -/
def shownBy? (told : List Dispatch) (url : Text) : Option ProjectEvent :=
  (told.filter fun d => (lastAt? d.messages url).isSome).getLast?.map (·.report)

theorem lastAt?_sent_concat :
    lastAt? (sent (told ++ [d])) url = (lastAt? d.messages url).or (lastAt? (sent told) url) := by
  rw [sent, List.flatMap_append, List.flatMap_singleton, lastAt?_append]
  rfl

theorem shownBy?_concat : shownBy? (told ++ [d]) url =
    if (lastAt? d.messages url).isSome then some d.report else shownBy? told url := by
  unfold shownBy?
  rw [List.filter_append, List.getLast?_append]
  split <;> simp_all

/-- A project met an error and was not assembled since. -/
def Unresolved (told : List Dispatch) (id : ProjectId) (error : ProjectError) : Prop :=
  ∃ before messages after, told = before ++ ⟨.failed id error, messages⟩ :: after ∧
    ∀ d ∈ after, d.report.request? = none

theorem unresolved_concat (messages : List Notification) :
    Unresolved (told ++ [⟨.failed id error, messages⟩]) id error :=
  ⟨told, messages, [], rfl, by simp⟩

theorem Unresolved.concat (h : Unresolved told id error) (other : d.report.request? = none) :
    Unresolved (told ++ [d]) id error := by
  obtain ⟨before, messages, after, rfl, silent⟩ := h
  refine ⟨before, messages, after ++ [d], by simp, fun later member => ?_⟩
  rcases List.mem_append.mp member with old | new
  · exact silent later old
  · rwa [List.mem_singleton.mp new]

end Dispatch

/-! ## What each report publishes -/

namespace Published

variable {published : Published} {id : ProjectId} {uris : List Uri}

theorem of_set_self : (published.set id uris).of id = uris := by
  simp [set, of]

end Published

namespace Announcement

variable {w : Workspace} {published : Published} {p : Project} {id : ProjectId}
  {error : ProjectError} {u : Uri} {uris : List Uri} {url : Text}

/-- A result publishes something at every file that was remembered or is tracked. -/
theorem lastAt?_ofResult {entry : Uri} {result : AssemblyResult}
    (sound : p.registry.Sound entry) (here : u.url? = some url)
    (known : u ∈ published.of p.id ∨ u ∈ p.registry.uris) :
    (lastAt? (ofResult published p result).messages url).isSome := by
  by_cases placed : u ∈ (Diagnostic.perFile p.registry result).keys
  · obtain ⟨⟨v, diagnostics⟩, entry, rfl⟩ := List.mem_map.mp placed
    exact lastAt?_isSome_of_mem (p := .ofProject p v diagnostics)
      (List.mem_append_right _ (List.mem_map_of_mem entry)) here
  · have untracked : u ∉ p.registry.uris :=
      mt (Diagnostic.mem_keys_perFile sound.entry? sound.tracked result).mpr placed
    have remembered : u ∈ published.of p.id := known.resolve_right untracked
    refine lastAt?_isSome_of_mem (p := { uri := u }) (List.mem_append_left _ ?_) here
    refine List.mem_map_of_mem ?_
    simpa [← Catalog.find?_isSome_iff_mem_keys, Catalog.find?_ofList, remembered] using
      mt Catalog.find?_isSome_iff_mem_keys.mp placed

/-- A failed attempt publishes at most its cycle, and its file is remembered. -/
theorem lastAt?_ofFailure (said : (lastAt? (ofFailure w published id error).messages url).isSome) :
    ∃ u diagnostic, Diagnostic.ofCycle? error = some (u, diagnostic) ∧ u.url? = some url ∧
      lastAt? (ofFailure w published id error).messages url = some [diagnostic] ∧
      u ∈ (ofFailure w published id error).published.of id := by
  cases cycle : Diagnostic.ofCycle? error with
  | none => simp [ofFailure, cycle, logEntry] at said
  | some blamed =>
    obtain ⟨u, diagnostic⟩ := blamed
    have messages : lastAt? (ofFailure w published id error).messages url =
        if u.url? = some url then some [diagnostic] else none := by
      simp only [ofFailure, cycle, ofCycle]
      rw [lastAt?_append, logEntry, lastAt?_log, Option.none_or, lastAt?,
        ← filterMap_toNotification?, List.filterMap_filterMap]
      by_cases here : u.url? = some url <;> simp [here, publishedAt?_toNotification?]
    rw [messages] at said ⊢
    split at said
    · next here =>
      refine ⟨u, diagnostic, rfl, here, if_pos here, ?_⟩
      simp [ofFailure, cycle, ofCycle, Published.of_set_self]
    · cases said

/-- A failed attempt forgets no file. -/
theorem mem_ofFailure (remembered : u ∈ published.of id) :
    u ∈ (ofFailure w published id error).published.of id := by
  unfold ofFailure
  split
  · simp [ofCycle, Published.of_set_self, remembered]
  · exact remembered

/-- A drop clears the files that are tracked nowhere, and forgets no others. -/
theorem lastAt?_ofRemoval (here : u.url? = some url) (untracked : w.tracks u = false)
    (gone : u ∈ uris) : (lastAt? (ofRemoval w published id uris).messages url).isSome := by
  have messages : (ofRemoval w published id uris).messages =
      ((uris.filter (!w.tracks ·)).map fun uri => ({ uri } : Publication)).filterMap
        Publication.toNotification? := by
    rw [List.filterMap_map]
    rfl
  rw [messages]
  exact lastAt?_isSome_of_mem (p := { uri := u })
    (List.mem_map_of_mem (List.mem_filter.mpr ⟨gone, by simp [untracked]⟩)) here

end Announcement

namespace Dispatch

variable {w w' : Workspace} {published : Published} {told : List Dispatch} {p : Project}
  {event : ProjectEvent} {rest events : List ProjectEvent} {id : ProjectId} {error : ProjectError}
  {u : Uri} {url : Text} {attempts : List Attempt}

/-! ## Cycles on display -/

/-- A cycle blamed on the file `u` is unresolved, and the next result will not leave it; or else
a report still to be read drops the file. -/
def Stands (w : Workspace) (rest : List ProjectEvent) (published : Published)
    (told : List Dispatch) (id : ProjectId) (error : ProjectError) (u : Uri) : Prop :=
  Unresolved told id error ∧ (u ∈ published.of id ∨ w.tracks u) ∨
    w.tracks u = false ∧ ∃ id uris, .removed id uris ∈ rest ∧ u ∈ uris

/-- Every cycle on display was met by a project and stands. -/
def Accounts (w : Workspace) (rest : List ProjectEvent) (published : Published)
    (told : List Dispatch) : Prop :=
  ∀ url id error, shownBy? told url = some (.failed id error) →
    id ∈ w.projects.map (·.id) ∧ ∃ u diagnostic,
      Diagnostic.ofCycle? error = some (u, diagnostic) ∧ u.url? = some url ∧
      lastAt? (sent told) url = some [diagnostic] ∧ Stands w rest published told id error u

/-- A report that publishes nothing at the file of a cycle leaves the cycle standing. -/
theorem Stands.read (h : Stands w (event :: rest) published told p.id error u)
    (here : u.url? = some url)
    (silent : lastAt? (Announcement.add w { published } event).messages url = none)
    (lawful : w.Lawful) (only : w.projects = [p]) (own : event.project = p.id) :
    Stands w rest (Announcement.add w { published } event).published
      (told ++ [⟨event, (Announcement.add w { published } event).messages⟩]) p.id error u := by
  have member : p ∈ w.projects := by simp [only]
  have tracked : w.tracks u → u ∈ p.registry.uris := by
    simp [Workspace.tracks, only, Project.tracks]
  cases event with
  | assembled id request result =>
    obtain rfl : id = p.id := own
    have found : w.project? p.id = some p := by simp [Workspace.project?, only]
    rcases h with ⟨-, known⟩ | ⟨untracked, id, uris, gone, dropped⟩
    · obtain ⟨entry, sound⟩ := (lawful p member).sound
      have said : (lastAt? (Announcement.ofResult published p result).messages url).isSome :=
        Announcement.lastAt?_ofResult sound here (known.imp_right tracked)
      simp only [Announcement.add, found, List.nil_append] at silent
      rw [silent] at said
      cases said
    · exact .inr ⟨untracked, id, uris, by simpa using gone, dropped⟩
  | failed id error' =>
    obtain rfl : id = p.id := own
    rcases h with ⟨unresolved, known⟩ | ⟨untracked, id, uris, gone, dropped⟩
    · exact .inl ⟨unresolved.concat rfl, known.imp_left Announcement.mem_ofFailure⟩
    · exact .inr ⟨untracked, id, uris, by simpa using gone, dropped⟩
  | removed id uris =>
    obtain rfl : id = p.id := own
    -- The file is not among those dropped, or it would have been cleared.
    have kept : w.tracks u = false → u ∉ uris := fun untracked gone => by
      have said : (lastAt? (Announcement.ofRemoval w published p.id uris).messages url).isSome :=
        Announcement.lastAt?_ofRemoval here untracked gone
      simp only [Announcement.add, List.nil_append] at silent
      rw [silent] at said
      cases said
    rcases h with ⟨unresolved, known⟩ | ⟨untracked, id, uris', gone, dropped⟩
    · refine .inl ⟨unresolved.concat rfl, ?_⟩
      cases tracks : w.tracks u with
      | true => exact .inr rfl
      | false =>
        have remembered : u ∈ published.of p.id := known.resolve_right (by simp [tracks])
        refine .inl ?_
        simp [Announcement.add, Announcement.ofRemoval, Published.of_set_self, remembered,
          kept tracks]
    · refine .inr ⟨untracked, id, uris', ?_, dropped⟩
      refine (List.mem_cons.mp gone).resolve_left fun same => ?_
      cases same
      exact kept untracked dropped

theorem Accounts.read (h : Accounts w (event :: rest) published told) (lawful : w.Lawful)
    (only : w.projects = [p]) (own : event.project = p.id) :
    Accounts w rest (Announcement.add w { published } event).published
      (told ++ [⟨event, (Announcement.add w { published } event).messages⟩]) := by
  intro url id error shown
  rw [shownBy?_concat] at shown
  rw [lastAt?_sent_concat]
  split at shown
  · next said =>
    obtain rfl : event = .failed id error := Option.some.inj shown
    obtain rfl : id = p.id := own
    obtain ⟨u, diagnostic, cycle, here, last, remembered⟩ := Announcement.lastAt?_ofFailure said
    exact ⟨by simp [only], u, diagnostic, cycle, here, congrArg (Option.or · _) last,
      .inl ⟨unresolved_concat _, .inl remembered⟩⟩
  · next said =>
    have silent := Option.not_isSome_iff_eq_none.mp said
    obtain ⟨member, u, diagnostic, cycle, here, last, stands⟩ := h url id error shown
    obtain rfl : id = p.id := by simpa [only] using member
    exact ⟨member, u, diagnostic, cycle, here, by rw [silent, Option.none_or, last],
      stands.read here silent lawful only own⟩

/-- After everything was read no report is left to drop a file. -/
theorem Accounts.readAll (h : Accounts w events published told) (lawful : w.Lawful)
    (only : w.projects = [p]) (own : ∀ event ∈ events, event.project = p.id) :
    Accounts w [] (Announcement.all w published events).published
      (told ++ Announcement.dispatches w published events) := by
  induction events generalizing published told with
  | nil => simpa [Announcement.all, Announcement.dispatches] using h
  | cons event rest ih =>
    have next := ih (h.read lawful only (own event List.mem_cons_self)) fun later member =>
      own later (List.mem_cons_of_mem _ member)
    rw [List.append_assoc, List.singleton_append] at next
    rw [Announcement.all, List.foldl_cons, Announcement.foldl_published]
    exact next

end Dispatch

/-! ## Chronicles -/

namespace Session

open Dispatch

variable {config : Config} {assembler : Assembler} {s : Session} {attempts : List Attempt}
  {told : List Dispatch}

/-- A run from the start, with all attempts to assemble that were made in it and everything
that was read and sent, the oldest first. -/
inductive Chronicle (config : Config) (assembler : Assembler) :
    List Attempt → List Dispatch → Session → Prop
  | start : Chronicle config assembler [] [] (start config assembler)
  | next {host : Host} {action : Action} {s s' : Session} {attempts more : List Attempt}
      {told : List Dispatch} {w : Workspace}
      (chronicle : Chronicle config assembler attempts told s)
      (done : action.apply host s = some s') (handles : s.Handles more w s')
      (remembered : s'.published =
        (Announcement.all w.drained s.published w.bench.events).published) :
      Chronicle config assembler (attempts ++ more)
        (told ++ Announcement.dispatches w.drained s.published w.bench.events) s'

theorem Chronicle.run (chronicle : Chronicle config assembler attempts told s) :
    Run config assembler attempts s := by
  induction chronicle with
  | start => exact .start
  | next _ done handles _ ih => exact ih.next done handles

/-- However a session came about, there is a chronicle of it. -/
theorem Reached.exists_chronicle (reached : Reached config assembler s) :
    ∃ attempts told, Chronicle config assembler attempts told s := by
  induction reached with
  | refl => exact ⟨[], [], .start⟩
  | tail _ acts ih =>
    obtain ⟨attempts, told, chronicle⟩ := ih
    obtain ⟨host, action, done⟩ := acts
    obtain ⟨more, w, handles, remembered⟩ := (Action.effect done).handles chronicle.run.calm
    exact ⟨_, _, chronicle.next done handles remembered⟩

theorem Chronicle.sent (chronicle : Chronicle config assembler attempts told s) :
    s.sent = Dispatch.sent told := by
  induction chronicle with
  | start => rfl
  | next _ _ handles _ ih =>
    rw [handles.sent, ih, Announcement.all_messages, Dispatch.sent, Dispatch.sent,
      List.flatMap_append]

/-- The reports tell of the attempts in their order. -/
theorem Chronicle.tells (chronicle : Chronicle config assembler attempts told s) :
    (told.map (·.report)).filterMap ProjectEvent.attempt? =
      attempts.filter Attempt.isReported := by
  induction chronicle with
  | start => rfl
  | next chronicle _ handles _ ih =>
    obtain ⟨reports, ⟨same, -⟩, events⟩ := handles.steps.tells
    rw [chronicle.run.calm, List.nil_append] at events
    rw [List.map_append, Announcement.report_dispatches, List.filterMap_append, ih, events, same,
      List.filter_append]

/-- The projects of a session keep their identities. -/
theorem Handles.ids {more : List Attempt} {w : Workspace} {s' : Session}
    (handles : s.Handles more w s') :
    s.workspace.projects.map (·.id) <+: s'.workspace.projects.map (·.id) := by
  rw [handles.workspace]
  exact handles.steps.ids

/-- As long as there is one project at most, every cycle on display stands. -/
theorem Chronicle.accounts (chronicle : Chronicle config assembler attempts told s)
    (few : s.workspace.projects.length ≤ 1) :
    Accounts s.workspace [] s.published told := by
  induction chronicle with
  | start =>
    intro url id error shown
    cases shown
  | @next host action s s' attempts more told w chronicle done handles remembered ih =>
    have fewer : s.workspace.projects.length ≤ 1 := by
      have := handles.ids.length_le
      simp only [List.length_map] at this
      omega
    have lawful := handles.steps.lawful chronicle.run.lawful
    rw [handles.workspace] at few ⊢
    rw [remembered]
    -- What was tracked before is tracked still, or a report of its drop is to be read.
    have before : Accounts w.drained w.bench.events s.published told := by
      intro url id error shown
      obtain ⟨member, u, diagnostic, cycle, here, last, stands⟩ := ih fewer url id error shown
      refine ⟨handles.steps.ids.subset member, u, diagnostic, cycle, here, last, ?_⟩
      rcases stands with ⟨unresolved, remembered | tracked⟩ | ⟨-, _, _, gone, -⟩
      · exact .inl ⟨unresolved, .inl remembered⟩
      · have known : w.drained.Known w.bench.events u :=
          handles.steps.known chronicle.run.lawful (.inl tracked)
        cases tracks : w.drained.tracks u with
        | true => exact .inl ⟨unresolved, .inr tracks⟩
        | false => exact .inr ⟨tracks, known.resolve_left (by simp [tracks])⟩
      · cases gone
    obtain ⟨reports, ⟨-, own⟩, events⟩ := handles.steps.tells
    rw [chronicle.run.calm, List.nil_append] at events
    rw [events] at before ⊢
    match projects : w.projects with
    | [] =>
      have silent : reports = [] :=
        List.eq_nil_iff_forall_not_mem.mpr fun event told => by
          simpa [projects] using own event told
      rw [silent] at before ⊢
      simpa [Announcement.all, Announcement.dispatches] using before
    | [p] =>
      exact before.readAll lawful.drained projects fun event told => by
        simpa [projects] using own event told
    | _ :: _ :: _ => simp [Workspace.drained, projects] at few

/-! ## Attempts that follow a cycle -/

/-- An attempt that follows one that met a cycle has something to ask, or meets a cycle at the
same include. -/
def Follows (first second : Attempt) : Prop :=
  ∀ chain file range, first.request = .error (.includeCycle chain file range) →
    (∃ request, second.request = .ok request) ∨
      ∃ chain, second.request = .error (.includeCycle chain file range)

/-- The include that closes a cycle changes only after the project was assembled. -/
def Steady (attempts : List Attempt) : Prop := attempts.IsChain Follows

/-- If all attempts since a cycle failed, steady ones met it until the last. -/
theorem exists_last_of_steady {first : Attempt} {later : List Attempt} {chain : List Uri}
    {file : Uri} {range : Range} (steady : Steady (first :: later))
    (met : first.request = .error (.includeCycle chain file range))
    (fail : ∀ attempt ∈ later, ∃ error, attempt.request = .error error) :
    ∃ last chain, (first :: later).getLast? = some last ∧
      last.request = .error (.includeCycle chain file range) := by
  induction later generalizing first chain with
  | nil => exact ⟨first, chain, rfl, met⟩
  | cons second later ih =>
    obtain ⟨follows, rest⟩ := List.isChain_cons_cons.mp steady
    obtain ⟨error, failed⟩ := fail second List.mem_cons_self
    rcases follows chain file range met with ⟨request, asked⟩ | ⟨chain, again⟩
    · cases failed.symm.trans asked
    · rw [List.getLast?_cons_cons]
      exact ih rest again fun attempt member => fail attempt (List.mem_cons_of_mem _ member)

/-- A cycle that is unresolved was met by an attempt since which all failed. -/
theorem Chronicle.exists_attempt {id : ProjectId} {error : ProjectError}
    (chronicle : Chronicle config assembler attempts told s)
    (unresolved : Unresolved told id error) :
    ∃ earlier later, attempts = earlier ++ ⟨id, .error error⟩ :: later ∧
      ∀ attempt ∈ later, ∃ error, attempt.request = .error error := by
  obtain ⟨before, messages, after, rfl, silent⟩ := unresolved
  have here : ProjectEvent.attempt? (.failed id error) = some ⟨id, .error error⟩ := rfl
  have tells := chronicle.tells
  rw [List.map_append, List.map_cons, List.filterMap_append, List.filterMap_cons_some here] at tells
  obtain ⟨earlier, rest, rfl, -, tells⟩ := List.filter_eq_append_iff.mp tells.symm
  obtain ⟨skipped, later, rfl, -, -, tells⟩ := List.filter_eq_cons_iff.mp tells
  refine ⟨earlier ++ skipped, later, by simp, fun attempt member => ?_⟩
  cases asked : attempt.request with
  | error error => exact ⟨error, rfl⟩
  | ok request =>
    have reported : attempt ∈ later.filter Attempt.isReported :=
      List.mem_filter.mpr ⟨member, by simp [Attempt.isReported, asked]⟩
    rw [tells, List.mem_filterMap] at reported
    obtain ⟨report, listed, same⟩ := reported
    obtain ⟨d, later, rfl⟩ := List.mem_map.mp listed
    have answered : d.report.request? = some request := by
      rw [ProjectEvent.request?_eq, same]
      simp [Attempt.request?, asked, Except.toOption]
    rw [silent d later] at answered
    cases answered

/-- However a session came about, there is a chronicle of its run. If there is only one project
and what is shown at a URL was published for a failed attempt, it is the diagnostic of an include
cycle that an attempt at this project met, at the file of this URL, and all attempts since then
failed. If the include that closes a cycle changes only after the project was assembled, then
the most recent attempt met a cycle at this file and this range. -/
theorem shown_cycle_is_unresolved (reached : Reached config assembler s) :
    (∃ attempts told, Chronicle config assembler attempts told s) ∧
    ∀ attempts told p url id error, Chronicle config assembler attempts told s →
      s.workspace.projects = [p] → shownBy? told url = some (.failed id error) →
      ∃ u diagnostic, Diagnostic.ofCycle? error = some (u, diagnostic) ∧ u.url? = some url ∧
        lastAt? s.sent url = some [diagnostic] ∧
        (∃ earlier later, attempts = earlier ++ ⟨p.id, .error error⟩ :: later ∧
          ∀ attempt ∈ later, ∃ error, attempt.request = .error error) ∧
        (Steady attempts → ∃ last chain, attempts.getLast? = some last ∧
          last.request = .error (.includeCycle chain u diagnostic.range)) := by
  refine ⟨reached.exists_chronicle, fun attempts told p url id error chronicle only shown => ?_⟩
  have few : s.workspace.projects.length ≤ 1 := by simp [only]
  obtain ⟨member, u, diagnostic, cycle, here, last, stands⟩ :=
    chronicle.accounts few url id error shown
  obtain rfl : id = p.id := by simpa [only] using member
  obtain ⟨unresolved, -⟩ := stands.resolve_right (by simp)
  obtain ⟨earlier, later, rfl, fail⟩ := chronicle.exists_attempt unresolved
  refine ⟨u, diagnostic, cycle, here, by rw [chronicle.sent, last],
    ⟨earlier, later, rfl, fail⟩, fun steady => ?_⟩
  obtain ⟨chain, rfl⟩ : ∃ chain, error = .includeCycle chain u diagnostic.range := by
    unfold Diagnostic.ofCycle? at cycle
    split at cycle
    · cases cycle
      exact ⟨_, rfl⟩
    · cases cycle
  obtain ⟨last, chain, ends, met⟩ := exists_last_of_steady
    (List.isChain_append.mp steady).2.1 rfl fail
  exact ⟨last, chain, by rw [List.getLast?_append, ends]; rfl, met⟩

section ring

open Registry (stored queued)

variable {host : Host} {document : Document} {p : Project} {r : Registry}

/-- How a first document is handled. -/
theorem handles_begun
    (added : (Registry.blank config.delay).addDocument ⟨host.disk, [document]⟩ document = some r) :
    (start config assembler).Handles
      (Project.attempts { Project.empty ⟨1⟩ config.delay with registry := r })
      (Workspace.begun assembler config.delay document r) (begun config assembler document r) :=
  ⟨(Workspace.Step.attend (start config assembler).workspace (some document.uri)
    assembler).steps.tail (.create added), rfl, rfl, rfl⟩

/-- The chronicle of a first document. -/
theorem chronicle_begun
    (added : (Registry.blank config.delay).addDocument ⟨host.disk, [document]⟩ document = some r) :
    let w := Workspace.begun assembler config.delay document r
    Chronicle config assembler
      (Project.attempts { Project.empty ⟨1⟩ config.delay with registry := r })
      (Announcement.dispatches w.drained [] w.bench.events)
      (begun config assembler document r) := by
  have opened : (Action.opened document.uri document.version document.text).apply host
      (start config assembler) = some (begun config assembler document r) :=
    takeDocument_first added
  exact Chronicle.start.next opened (handles_begun added) rfl

/-- A further text continues a chronicle. -/
theorem Chronicle.took (chronicle : Chronicle config assembler attempts told s)
    (only : s.workspace.projects = [p]) (tracked : p.tracks document.uri)
    (changed : p.registry.updateFromEditor ⟨host.disk, s.buffers.insert document⟩ document
      = some r) :
    let w := { s.workspace.turned p r with current? := some document.uri }
    Chronicle config assembler (attempts ++ Project.attempts { p with registry := r })
      (told ++ Announcement.dispatches w.drained s.published w.bench.events)
      (s.took p document r) := by
  have attended := (Workspace.Step.attend s.workspace (some document.uri)
    s.workspace.bench.assembler).steps
  have settled := @Workspace.Step.settle { s.workspace with current? := some document.uri } [] [] p
    _ r only (Registry.updateFromEditor_moves changed)
  have handles : s.Handles (Project.attempts { p with registry := r })
      { s.workspace.turned p r with current? := some document.uri } (s.took p document r) :=
    ⟨attended.tail settled, rfl, rfl, rfl⟩
  have opened : (Action.opened document.uri document.version document.text).apply host s
      = some (s.took p document r) :=
    takeDocument_only only tracked changed
  exact chronicle.next opened handles rfl

/-- A file that includes two files. -/
def hub : Document := ⟨.ofPath "/m".toList, 1, " include a\n include b".toList⟩

/-- Both include it in turn. -/
def spokes : Host := { disk := [stored "/a" " include m", stored "/b" " include m"] }

/-- A text of one of them without the include. -/
def spoke : Document := ⟨.ofPath "/a".toList, 1, []⟩

/-- The text of the first file was handled. -/
def hubTaken : Registry :=
  queued ⟨spokes.disk, [hub]⟩ 11 ((Registry.blank 0).add hub.uri) (.editor hub)

/-- The project of that text. -/
def hubProject : Project :=
  (Project.settle { Project.empty ⟨1⟩ 0 with registry := hubTaken } ⟨.ofProgram [] none, []⟩).1

/-- The session in which that text was opened. -/
def hubOpened : Session := begun { delay := 0 } (.ofProgram [] none) hub hubTaken

/-- The text of the included file was handled too. -/
def spokeTaken : Registry :=
  queued ⟨spokes.disk, [spoke, hub]⟩ 3 hubProject.registry (.editor spoke)

/-- The session in which the included file was opened too. -/
def spokeOpened : Session := hubOpened.took hubProject spoke spokeTaken

/-- The cycle through a file, which starts behind the word `include`. -/
def cycleThrough (file : Uri) : ProjectError :=
  .includeCycle [hub.uri, file, hub.uri] file (.onLine 0 9 10)

theorem added_hub :
    (Registry.blank 0).addDocument ⟨spokes.disk, [hub]⟩ hub = some hubTaken :=
  Registry.updateFromEditor_queued (by decide +kernel) (by decide +kernel)

theorem changed_spoke :
    hubProject.registry.updateFromEditor ⟨spokes.disk, hubOpened.buffers.insert spoke⟩ spoke
      = some spokeTaken :=
  Registry.updateFromEditor_queued (by decide +kernel) (by decide +kernel)

/-- A cycle of the first text is the one that the only attempt met. -/
theorem hub_cycle_is_unresolved : ∃ s attempts told p url,
    Reached { delay := 0 } (.ofProgram [] none) s ∧
      Chronicle { delay := 0 } (.ofProgram [] none) attempts told s ∧
      s.workspace.projects = [p] ∧
      shownBy? told url = some (.failed ⟨1⟩ (cycleThrough spoke.uri)) ∧ Steady attempts ∧
      ∃ u diagnostic last chain, u.url? = some url ∧ lastAt? s.sent url = some [diagnostic] ∧
        attempts.getLast? = some last ∧
        last.request = .error (.includeCycle chain u diagnostic.range) := by
  have opened : Acts (start { delay := 0 } (.ofProgram [] none)) hubOpened :=
    ⟨spokes, .opened hub.uri hub.version hub.text, takeDocument_first added_hub⟩
  have reached : Reached { delay := 0 } (.ofProgram [] none) hubOpened := .single opened
  have chronicle : Chronicle { delay := 0 } (.ofProgram [] none) _ _ hubOpened :=
    chronicle_begun added_hub
  have steady : Steady (Project.attempts { Project.empty ⟨1⟩ 0 with registry := hubTaken }) := by
    rcases Project.attempts_eq_nil_or { Project.empty ⟨1⟩ 0 with registry := hubTaken }
      with none | one
    · simp [Steady, none]
    · simp [Steady, one]
  have shown : shownBy? (Announcement.dispatches
      (Workspace.begun (.ofProgram [] none) 0 hub hubTaken).drained []
      (Workspace.begun (.ofProgram [] none) 0 hub hubTaken).bench.events) spoke.uri.text =
        some (.failed ⟨1⟩ (cycleThrough spoke.uri)) := by
    decide +kernel
  obtain ⟨u, diagnostic, -, here, last, -, current⟩ :=
    (shown_cycle_is_unresolved reached).2 _ _ hubProject _ _ _ chronicle rfl shown
  obtain ⟨attempt, chain, ends, met⟩ := current steady
  exact ⟨hubOpened, _, _, hubProject, _, reached, chronicle, rfl, shown, steady, u, diagnostic,
    attempt, chain, here, last, ends, met⟩

/-- When a text breaks that cycle, the next attempt meets the cycle through the other file; the
broken one stays on display. -/
theorem broken_cycle_stays : ∃ s attempts told p diagnostic last,
    Reached { delay := 0 } (.ofProgram [] none) s ∧
      Chronicle { delay := 0 } (.ofProgram [] none) attempts told s ∧
      s.workspace.projects = [p] ∧
      shownBy? told spoke.uri.text = some (.failed p.id (cycleThrough spoke.uri)) ∧
      Diagnostic.ofCycle? (cycleThrough spoke.uri) = some (spoke.uri, diagnostic) ∧
      spoke.uri.url? = some spoke.uri.text ∧
      lastAt? s.sent spoke.uri.text = some [diagnostic] ∧
      attempts.getLast? = some last ∧
      last.request = .error (cycleThrough (.ofPath "/b".toList)) ∧
      ∀ chain range, last.request ≠ .error (.includeCycle chain spoke.uri range) := by
  have opened : Acts (start { delay := 0 } (.ofProgram [] none)) hubOpened :=
    ⟨spokes, .opened hub.uri hub.version hub.text, takeDocument_first added_hub⟩
  have changed : Acts hubOpened spokeOpened :=
    ⟨spokes, .opened spoke.uri spoke.version spoke.text,
      takeDocument_only rfl (by decide +kernel) changed_spoke⟩
  have chronicle : Chronicle { delay := 0 } (.ofProgram [] none) _ _ hubOpened :=
    chronicle_begun added_hub
  have further : Chronicle { delay := 0 } (.ofProgram [] none) _ _ spokeOpened :=
    chronicle.took rfl (by decide +kernel) changed_spoke
  have met : Project.request { hubProject with registry := spokeTaken } =
      .error (cycleThrough (.ofPath "/b".toList)) := by
    decide +kernel
  have attempted : Project.attempts { hubProject with registry := spokeTaken } =
      [⟨⟨1⟩, .error (cycleThrough (.ofPath "/b".toList))⟩] := by
    rw [Project.attempts, if_pos (by decide +kernel), Project.attempt_of_request met]
    congr 2
  refine ⟨spokeOpened, _, _, _, ⟨.onLine 0 9 10, (cycleThrough spoke.uri).message⟩,
    ⟨⟨1⟩, .error (cycleThrough (.ofPath "/b".toList))⟩, .tail (.single opened) changed, further,
    rfl, by decide +kernel, rfl, by decide +kernel, by decide +kernel, ?_, rfl,
    fun chain range same => ?_⟩
  · rw [attempted, List.getLast?_append]
    rfl
  · have files : Uri.ofPath "/b".toList = spoke.uri := by
      injection same with same
      injection same
    exact absurd files (by decide +kernel)

end ring

end Session

end AsmServer
