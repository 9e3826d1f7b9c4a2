import AsmServer.Proofs.Workspace.Progress
import AsmServer.Session.Notification

/-!
# What the editor was told

The editor shows for each URL the diagnostics that were last published there. All reports
are announced against the state in which they are read, so that a result is announced with
the diagnostics of the files tracked then, and a cycle even if its file was dropped since;
in this case the later report of the drop takes it back.

Hence nothing but tracked files has diagnostics that are not empty.
-/

namespace AsmServer

namespace Notification

variable {sent more : List Notification} {publications : List Publication} {url : Text}
  {diagnostics : List Diagnostic}

/-- The diagnostics that a message publishes at a URL. -/
def publishedAt? (url : Text) : Notification → Option (List Diagnostic)
  | publish target diagnostics _ => if target = url then some diagnostics else none
  | log _ => none

/-- The diagnostics that were last published at a URL. -/
def lastAt? (sent : List Notification) (url : Text) : Option (List Diagnostic) :=
  (sent.filterMap (·.publishedAt? url)).getLast?

theorem lastAt?_append :
    lastAt? (sent ++ more) url = (lastAt? more url).or (lastAt? sent url) := by
  rw [lastAt?, List.filterMap_append, List.getLast?_append]
  rfl

@[simp] theorem lastAt?_log (message : Text) : lastAt? [.log message] url = none := rfl

theorem publishedAt?_toNotification? (p : Publication) :
    p.toNotification?.bind (·.publishedAt? url) =
      if p.uri.url? = some url then some p.diagnostics else none := by
  unfold Publication.toNotification?
  cases p.uri.url? with
  | none => rfl
  | some target => simp [publishedAt?]

theorem filterMap_toNotification? (p : Publication) :
    [p].filterMap Publication.toNotification? = p.toNotification?.toList := by
  cases made : p.toNotification? <;> simp [made]

/-- What was last published at a URL was published there for some file. -/
theorem exists_of_lastAt?
    (h : lastAt? (publications.filterMap Publication.toNotification?) url = some diagnostics) :
    ∃ p ∈ publications, p.uri.url? = some url ∧ p.diagnostics = diagnostics := by
  have member := List.mem_of_getLast? h
  rw [List.filterMap_filterMap, List.mem_filterMap] at member
  obtain ⟨p, listed, made⟩ := member
  rw [publishedAt?_toNotification?] at made
  split at made
  · next here => exact ⟨p, listed, here, Option.some.inj made⟩
  · cases made

theorem lastAt?_isSome_of_mem {p : Publication} (listed : p ∈ publications)
    (here : p.uri.url? = some url) :
    (lastAt? (publications.filterMap Publication.toNotification?) url).isSome := by
  rw [lastAt?, List.getLast?_isSome, List.filterMap_filterMap]
  have said : p.toNotification?.bind (·.publishedAt? url) = some p.diagnostics := by
    rw [publishedAt?_toNotification?, if_pos here]
  exact List.ne_nil_of_mem (List.mem_filterMap.mpr ⟨p, listed, said⟩)

end Notification

open Notification

/-! ## Announcements -/

namespace Workspace

variable {w : Workspace} {sent : List Notification} {before : Announcement}
  {events rest : List ProjectEvent} {p : Project} {u : Uri}

/-- Wherever the diagnostics last published are not empty, they belong to a file that is
tracked or told to be dropped by the reports to come. -/
def Shows (w : Workspace) (rest : List ProjectEvent) (sent : List Notification) : Prop :=
  ∀ url diagnostics, lastAt? sent url = some diagnostics → diagnostics ≠ [] →
    ∃ u : Uri, u.isFile = true ∧ u.text = url ∧ w.Known rest u

/-- An include cycle among the reports is blamed on a file that is tracked or told to be
dropped by a later report. -/
def Blames (w : Workspace) : List ProjectEvent → Prop
  | [] => True
  | event :: rest =>
    (∀ id error u diagnostic, event = .failed id error →
      Diagnostic.ofCycle? error = some (u, diagnostic) → u.isFile = true ∧ w.Known rest u) ∧
    w.Blames rest

/-- Further publications do no harm where they are empty or belong to known files. -/
theorem Shows.publish {publications : List Publication} (h : w.Shows rest sent)
    (known : ∀ p ∈ publications, p.diagnostics ≠ [] → p.uri.isFile = true ∧ w.Known rest p.uri) :
    w.Shows rest (sent ++ publications.filterMap Publication.toNotification?) := by
  intro url diagnostics last some
  rw [lastAt?_append] at last
  rcases Option.or_eq_some_iff.mp last with new | ⟨-, old⟩
  · obtain ⟨p, listed, here, rfl⟩ := exists_of_lastAt? new
    obtain ⟨file, there⟩ := known p listed some
    rw [Uri.url?_of_isFile file] at here
    exact ⟨p.uri, file, Option.some.inj here, there⟩
  · exact h url diagnostics old some

/-- A report other than of a drop tells of no drop. -/
theorem Known.tail {event : ProjectEvent} (h : w.Known (event :: rest) u)
    (other : ∀ id uris, event ≠ .removed id uris) : w.Known rest u := by
  refine h.imp_right ?_
  rintro ⟨id, uris, told, gone⟩
  exact ⟨id, uris, (List.mem_cons.mp told).resolve_left fun same => other id uris same.symm, gone⟩

theorem Shows.tail {event : ProjectEvent} (h : w.Shows (event :: rest) sent)
    (other : ∀ id uris, event ≠ .removed id uris) : w.Shows rest sent := by
  intro url diagnostics last some
  obtain ⟨u, file, text, known⟩ := h url diagnostics last some
  exact ⟨u, file, text, known.tail other⟩

theorem mem_of_project? {id : ProjectId} (found : w.project? id = some p) : p ∈ w.projects :=
  List.mem_of_find?_eq_some found

/-- A result publishes diagnostics of tracked files and clears others. -/
theorem Shows.result {published : Published} {result : AssemblyResult} (h : w.Shows rest sent)
    (lawful : w.Lawful) (files : w.Local) (member : p ∈ w.projects) :
    w.Shows rest (sent ++ (Announcement.ofResult published p result).messages) := by
  refine h.publish fun q listed some => ?_
  rcases List.mem_append.mp listed with cleared | placed
  · obtain ⟨u, -, rfl⟩ := List.mem_map.mp cleared
    exact absurd rfl some
  · obtain ⟨⟨u, diagnostics⟩, entry, rfl⟩ := List.mem_map.mp placed
    obtain ⟨_, sound⟩ := (lawful p member).sound
    have tracked : u ∈ p.registry.uris :=
      (Diagnostic.mem_keys_perFile sound.entry? sound.tracked result).mp
        (List.mem_map_of_mem (f := (·.1)) entry)
    exact ⟨files p member u tracked,
      .inl (tracks_iff.mpr ⟨p, member, Registry.tracks_iff.mpr tracked⟩)⟩

/-- A failed attempt publishes a cycle at the file that it is blamed on. -/
theorem Shows.failure {published : Published} {id : ProjectId} {error : ProjectError}
    (h : w.Shows rest sent)
    (blamed : ∀ u diagnostic, Diagnostic.ofCycle? error = some (u, diagnostic) →
      u.isFile = true ∧ w.Known rest u) :
    w.Shows rest (sent ++ (Announcement.ofFailure w published id error).messages) := by
  have logged {messages : List Notification} (shows : w.Shows rest (sent ++ messages)) :
      w.Shows rest (sent ++ (messages ++ [Announcement.logEntry id error])) := by
    intro url diagnostics last
    rw [← List.append_assoc, lastAt?_append] at last
    exact shows url diagnostics last
  unfold Announcement.ofFailure
  refine logged ?_
  split
  · next u diagnostic cycle =>
    have one : (Announcement.ofCycle w published id u diagnostic).messages =
        [⟨u, [diagnostic], (w.project? id).bind fun p => (p.registry.find? u).bind
          (·.documentVersion?)⟩].filterMap Publication.toNotification? := by
      rw [filterMap_toNotification?]
      rfl
    rw [one]
    refine h.publish fun q listed _ => ?_
    rw [List.mem_singleton.mp listed]
    exact blamed u diagnostic cycle
  · rw [List.append_nil]
    exact h

/-- Files that were dropped are cleared, unless they are tracked again or elsewhere. -/
theorem Shows.removal {published : Published} {id : ProjectId} {uris : List Uri}
    (h : w.Shows (.removed id uris :: rest) sent) :
    w.Shows rest (sent ++ (Announcement.ofRemoval w published id uris).messages) := by
  let cleared : List Publication := (uris.filter (!w.tracks ·)).map fun uri => { uri }
  have messages : (Announcement.ofRemoval w published id uris).messages =
      cleared.filterMap Publication.toNotification? := by
    rw [List.filterMap_map]
    rfl
  rw [messages]
  intro url diagnostics last some
  rw [lastAt?_append] at last
  rcases Option.or_eq_some_iff.mp last with new | ⟨unsaid, old⟩
  · obtain ⟨p, listed, -, rfl⟩ := exists_of_lastAt? new
    obtain ⟨uri, -, rfl⟩ := List.mem_map.mp listed
    exact absurd rfl some
  · obtain ⟨u, file, text, known⟩ := h url diagnostics old some
    refine ⟨u, file, text, ?_⟩
    rcases known with tracked | ⟨id', uris', told, gone⟩
    · exact .inl tracked
    · rcases List.mem_cons.mp told with same | later
      · cases same
        by_cases tracked : w.tracks u
        · exact .inl tracked
        · have listed : ({ uri := u } : Publication) ∈ cleared :=
            List.mem_map.mpr ⟨u, by simp [gone, tracked], rfl⟩
          have said := lastAt?_isSome_of_mem listed (Uri.url?_of_isFile file)
          rw [text, unsaid] at said
          cases said
      · exact .inr ⟨id', uris', later, gone⟩

theorem Shows.add {event : ProjectEvent} (lawful : w.Lawful) (files : w.Local)
    (blames : w.Blames (event :: rest)) (h : w.Shows (event :: rest) (sent ++ before.messages)) :
    w.Shows rest (sent ++ (Announcement.add w before event).messages) := by
  unfold Announcement.add
  rw [← List.append_assoc]
  cases event with
  | assembled id request result =>
    have shows := h.tail (by simp)
    dsimp only
    split
    · next p found => exact shows.result lawful files (mem_of_project? found)
    · simpa using shows
  | failed id error =>
    exact (h.tail (by simp)).failure fun u diagnostic => blames.1 id error u diagnostic rfl
  | removed id uris => exact h.removal

/-- After everything was announced, only tracked files have diagnostics that are not empty. -/
theorem Shows.all (lawful : w.Lawful) (files : w.Local) (blames : w.Blames events)
    (before : Announcement) (h : w.Shows events (sent ++ before.messages)) :
    w.Shows [] (sent ++ (events.foldl (Announcement.add w) before).messages) := by
  induction events generalizing before with
  | nil => exact h
  | cons event rest ih => exact ih blames.2 _ (h.add lawful files blames)

end Workspace

end AsmServer
