import AsmServer.Proofs.Registry.Following

/-!
# Taking in the last text of a document

When the editor closes a document its buffer is gone, but a text of it may still be held
back. That text is handled before the document is taken off the file. Other files are
loaded on the way, from the buffers that are still open; the file itself is tracked all the
time and therefore not loaded again. In the end the file has the last text, no update of it
is awaited, and without its document it is as if it had never been open.

The text is handled only if its version is not the one that the file has already. A file
that has the version of a text held back is left as it is.
-/

namespace AsmServer

/-- A file whose document is open has this document. -/
def TrackedFile.Shows (buffers : Buffers) (f : TrackedFile) : Prop :=
  ∀ buffer, buffers.find? f.uri = some buffer → f.document? = some buffer

theorem TrackedFile.Shows.congr {buffers buffers' : Buffers} {f : TrackedFile}
    (h : f.Shows buffers) (same : buffers'.find? f.uri = buffers.find? f.uri) :
    f.Shows buffers' := fun buffer found => h buffer (same ▸ found)

theorem Registry.renews_shows {sources : Sources} {buffers : Buffers} :
    Handling.Renews sources buffers (TrackedFile.Shows buffers) := by
  intro r f _ _ buffer found
  rw [renewed_uri] at found
  rw [renewed_document?, Buffers.loading_of_some found]
  rfl

namespace Registry

variable {sources : Sources} {buffers : Buffers} {P : TrackedFile → Prop} {r r' : Registry}
  {update : Update} {document : Document} {u entry : Uri}

namespace Handling

/-- An update that is awaited after a step was awaited before, or its file was not tracked. -/
theorem mem_awaited_of_step {s : Handling} (h : update ∈ (step sources s).awaited) :
    update ∈ s.awaited ∨ update.uri ∉ s.registry.uris := by
  obtain ⟨r, _ | ⟨task, rest⟩⟩ := s
  · exact .inl h
  cases task with
  | handle other =>
    by_cases tracked : other.uri ∈ r.uris
    · rw [awaited_step_handle tracked] at h
      exact .inl (List.mem_cons_of_mem _ h)
    · rw [step_handle_of_not_mem tracked] at h
      exact .inl (List.mem_cons_of_mem _ h)
  | discover uri =>
    by_cases tracked : uri ∈ r.uris
    · rw [step_discover_of_mem tracked] at h
      exact .inl h
    · rw [awaited_step_discover tracked, List.mem_append, List.mem_append] at h
      have known : update ∈ (r.debouncer.push (sources.loading uri).uri (sources.loading uri)).2 ++
          (r.debouncer.push (sources.loading uri).uri (sources.loading uri)).1.items ∨
          update ∈ rest.filterMap Task.update? := by
        rw [List.mem_append]
        tauto
      rcases known with pushed | waits
      · rcases Debouncer.mem_of_push pushed with rfl | displaced
        · exact .inr (by simpa using tracked)
        · exact .inl (List.mem_append_right _ (Debouncer.mem_items_of_displaced displaced))
      · exact .inl (List.mem_append_left _ waits)
  | finish uri => exact .inl h

/-- Files are loaded while the file `u` stays, whose own update is done. -/
structure Settling (sources : Sources) (buffers : Buffers) (P : TrackedFile → Prop)
    (entry u : Uri) (s : Handling) : Prop where
  following : Following buffers P s
  loading : Loading sources entry s
  met : s.registry.Met u
  settled : ∀ update ∈ s.awaited, update.uri ≠ u

theorem Settling.step {s : Handling} (h : Settling sources buffers P entry u s)
    (others : ∀ v, v ≠ u → sources.loading v = buffers.loading v)
    (renews : Renews sources buffers P) :
    Settling sources buffers P entry u (Handling.step sources s) := by
  refine ⟨h.following.step (fun v untracked => others v ?_) renews, h.loading.step.1,
    h.loading.step.2 u h.met, fun update member => ?_⟩
  · rintro rfl
    exact untracked h.met.1
  · rcases mem_awaited_of_step member with before | untracked
    · exact h.settled update before
    · rintro rfl
      exact untracked h.met.1

end Handling

open Handling

/-- When the last text of a document was handled, the registry follows the buffers as if
the document was still open, and no update of it is held back. -/
theorem follows_process (sound : r.Sound entry) (tidy : r.Tidy)
    (idle : r.debouncer.held? = none) (tracked : update.uri ∈ r.uris)
    (start : Following buffers P ⟨r, [.handle update]⟩)
    (others : ∀ v, v ≠ update.uri → sources.loading v = buffers.loading v)
    (renews : Renews sources buffers P) (done : r.process sources update = some r') :
    r'.Follows buffers P ∧ ∀ up ∈ r'.debouncer.items, up.uri ≠ update.uri := by
  have met : r.Met update.uri := ⟨tracked, tidy _ tracked⟩
  have first : Settling sources buffers P entry update.uri
      (Handling.step sources ⟨r, [.handle update]⟩) := by
    have left : awaited (Handling.step sources ⟨r, [.handle update]⟩) = awaited ⟨r, []⟩ :=
      awaited_step_handle tracked
    refine ⟨start.step (fun v untracked => others v ?_) renews, loading_renew sound idle met,
      ?_, ?_⟩
    · rintro rfl
      exact untracked tracked
    · rw [step_handle tracked]
      exact ⟨by simpa using tracked, reachable_renew_self met.2⟩
    · rw [left]
      simp [awaited, Debouncer.items, idle]
  have last : Settling sources buffers P entry update.uri ⟨r', []⟩ :=
    (process_eq_some_iff.mp done).of_step.preserves
      (P := Settling sources buffers P entry update.uri)
      (fun _ settling => settling.step others renews) first
  exact ⟨last.following, last.settled⟩

/-- A document is settled when it is closed, unless its file has the version of a text of it
that is still held back. -/
theorem follows_settleDocument (sound : r.Sound entry) (tidy : r.Tidy) (h : r.Follows buffers P)
    (current : buffers.find? document.uri = some document)
    (holds : ∀ f, f.Attached buffers → P f → f.uri = document.uri → f.version = document.version)
    (others : ∀ v, v ≠ document.uri → sources.loading v = buffers.loading v)
    (renews : Renews sources buffers P)
    (clear : ∀ f, r.find? document.uri = some f → f.version = document.version →
      ∀ up ∈ r.debouncer.items, up.uri ≠ document.uri)
    (tracked : document.uri ∈ r.uris)
    (done : r.settleDocument sources document = some r') :
    r'.Follows buffers P ∧ ∀ up ∈ r'.debouncer.items, up.uri ≠ document.uri := by
  obtain ⟨f, found⟩ := exists_find? tracked
  unfold settleDocument at done
  by_cases version : f.version = document.version
  · obtain rfl : r = r' := by simpa [found, version] using done
    exact ⟨h, clear f found version⟩
  -- The file does not have the last text yet, so a text of it is held back.
  have here : f.uri = document.uri := uri_of_find? found
  obtain ⟨key, up, held, same, positive⟩ : ∃ key up, r.debouncer.held? = some (key, up) ∧
      key = document.uri ∧ r.debouncer.delay ≠ 0 := by
    rcases h.done f (mem_of_find? found) with holding | ⟨up, waits, same⟩
    · exact absurd (holds f (h.files f (mem_of_find? found)).2 holding here) version
    · rw [awaited_idle] at waits
      cases held : r.debouncer.held? with
      | none => simp [Debouncer.items, held] at waits
      | some pair =>
        obtain rfl : pair.2 = up := by simpa [Debouncer.items, held, eq_comm] using waits
        obtain ⟨key, positive⟩ := h.regular pair.1 pair.2 held
        exact ⟨_, _, rfl, key.trans (same.trans here), positive⟩
  have stale : f.isCurrent document = false := by
    rw [TrackedFile.isCurrent, Bool.and_eq_false_iff]
    refine .inl (beq_eq_false_iff_ne.mpr fun holding => ?_)
    obtain ⟨attached, document', number⟩ := Option.map_eq_some_iff.mp holding
    exact version (((h.files f (mem_of_find? found)).2 attached document').2.1.trans number)
  have calm : r.debouncer.displaced (Update.editor document).uri = [] := by
    simp [Debouncer.displaced, held, same, Update.uri]
  have loads : Update.editor document = buffers.loading document.uri :=
    (Buffers.loading_of_some current).symm
  -- It is replaced by the last text and then handled with nothing else held back.
  have edited : r.updateFromEditor sources document = some (r.push (.editor document)).1 := by
    rw [updateFromEditor_of_stale found stale, queue_of_delay_pos positive calm]
  obtain ⟨held', ready⟩ := Debouncer.push_of_delay_pos (Update.editor document).uri
    (Update.editor document) positive
  have follows : (r.push (.editor document)).1.Follows buffers P := by
    have pushed := (h.but document.uri).push
    rw [← loads, push_ready, ready, calm] at pushed
    exact pushed
  have flushed : (r.push (.editor document)).1.flushPending sources =
      ((r.push (.editor document)).1.released.process sources (.editor document)).map
        fun r => (r, true) := flushPending_of_held held'
  simp only [found, Option.any_some, version, decide_true, ne_eq, not_false_eq_true, if_true,
    edited, flushed, Option.bind_eq_bind, Option.bind_some] at done
  obtain ⟨⟨handled, _⟩, flushing, last⟩ := Option.bind_eq_some_iff.mp done
  obtain ⟨after, run, same⟩ := Option.map_eq_some_iff.mp flushing
  cases same
  cases last
  have sound' : (r.push (.editor document)).1.released.Sound entry := sound.congr rfl rfl
  have tidy' : (r.push (.editor document)).1.released.Tidy := (tidy_congr rfl rfl).mpr tidy
  have known : (Update.editor document).uri ∈ (r.push (.editor document)).1.released.uris := tracked
  exact follows_process sound' tidy' rfl known (follows.release held') others renews run

/-- A closed document is gone from its file, which has the last text, and the registry follows
the buffers that are left. -/
theorem Follows.markClosed (h : r.Follows buffers (TrackedFile.Shows buffers))
    (sound : r.Sound entry) (tidy : r.Tidy)
    (current : buffers.find? document.uri = some document)
    (same : sources.buffers = buffers.erase document.uri)
    (clear : ∀ f, r.find? document.uri = some f → f.version = document.version →
      ∀ up ∈ r.debouncer.items, up.uri ≠ document.uri)
    (tracked : document.uri ∈ r.uris) (done : r.markClosed sources document = some r') :
    r'.Follows sources.buffers (TrackedFile.Shows sources.buffers) ∧
      ∀ f, r'.find? document.uri = some f →
        f.contents? = some document.text ∧ f.document? = none := by
  obtain ⟨settled, settling, last⟩ := Option.bind_eq_some_iff.mp done
  cases last
  have others : ∀ v, v ≠ document.uri → sources.buffers.find? v = buffers.find? v :=
    fun v other => by rw [same, Buffers.find?_erase, if_neg other]
  obtain ⟨follows, clear⟩ := follows_settleDocument sound tidy h current
    (fun f attached shows here => (attached document (shows document (here ▸ current))).2.1)
    (fun v other => by rw [Sources.loading_eq, loading_congr (others v other)]) renews_shows
    clear tracked settling
  have only : IsMark fun file : TrackedFile => { file with document? := none } :=
    ⟨fun _ => rfl, fun _ => rfl, fun _ => rfl⟩
  refine ⟨follows.mark only others (fun f _ _ => by simp [TrackedFile.Attached])
    (fun f other shows => shows.congr (others _ other)) (fun f here _ buffer found => ?_)
    (fun update held here => absurd here (clear update held)), fun f found => ?_⟩
  · rw [here, same, Buffers.find?_erase, if_pos rfl] at found
    cases found
  · rw [find?_modify only.uri, if_pos rfl] at found
    obtain ⟨g, known, rfl⟩ := Option.map_eq_some_iff.mp found
    have here : g.uri = document.uri := uri_of_find? known
    refine ⟨?_, rfl⟩
    rcases follows.done g (mem_of_find? known) with shows | ⟨update, waits, same⟩
    · exact ((follows.files g (mem_of_find? known)).2 document
        (shows document (here ▸ current))).1
    · exact absurd (same.trans here) (clear update waits)

end Registry

end AsmServer
