import AsmServer.Proofs.Registry.Loading
import AsmServer.Proofs.Registry.Regimes

/-!
# Registries that follow the open buffers

The editor holds documents open. A registry follows them if every update that it still
awaits loads a file as it should be loaded now, and every file is as it should be or awaits
its update. Handling an update keeps this, whatever other updates it lets go on the way.

What a file should be is left open here, as a predicate `P` that a file satisfies once it
was renewed by the update that loads it.

There is one exception. An update of a file that is no longer tracked may be outdated; it
is dropped when its turn comes, and its turn is the next one after it was let go, so that
the file cannot be tracked again in the meantime.
-/

namespace AsmServer

namespace Buffers

variable {buffers : Buffers} {document : Document} {u v : Uri}

theorem find?_erase : (buffers.erase v).find? u = if u = v then none else buffers.find? u := by
  unfold erase find?
  rw [List.find?_filter]
  split
  · next same =>
    refine List.find?_eq_none.mpr fun document _ => ?_
    simp [same]
  · next other =>
    congr 1
    funext document
    by_cases here : document.uri = u <;> simp [here, other]

/-- What is not open need not be closed. -/
theorem erase_of_find?_eq_none (closed : buffers.find? u = none) : buffers.erase u = buffers :=
  List.filter_eq_self.mpr fun buffer member => by
    simpa using List.find?_eq_none.mp closed buffer member

theorem find?_insert_self : (buffers.insert document).find? document.uri = some document := by
  simp [insert, find?]

theorem find?_insert_of_ne (other : u ≠ document.uri) :
    (buffers.insert document).find? u = buffers.find? u := by
  have rest : (buffers.insert document).find? u = (buffers.erase document.uri).find? u := by
    simp [insert, find?, Ne.symm other]
  rw [rest, find?_erase, if_neg other]

end Buffers

/-- The update that loads a file while these buffers are open. -/
def Buffers.loading (buffers : Buffers) (uri : Uri) : Update := (Sources.mk [] buffers).loading uri

theorem Sources.loading_eq (sources : Sources) (uri : Uri) :
    sources.loading uri = sources.buffers.loading uri := rfl

@[simp] theorem Buffers.loading_uri {buffers : Buffers} {uri : Uri} :
    (buffers.loading uri).uri = uri := Registry.Handling.loading_uri

theorem Buffers.loading_of_some {buffers : Buffers} {uri : Uri} {document : Document}
    (h : buffers.find? uri = some document) : buffers.loading uri = .editor document := by
  simp [loading, Sources.loading, h]

theorem Buffers.loading_of_none {buffers : Buffers} {uri : Uri}
    (h : buffers.find? uri = none) : buffers.loading uri = .disk uri := by
  simp [loading, Sources.loading, h]

/-- If the file has a document, its text is that of the document, and the document is the
open buffer or an older version of it. -/
def TrackedFile.Attached (buffers : Buffers) (f : TrackedFile) : Prop :=
  ∀ document, f.document? = some document →
    f.contents? = some document.text ∧ f.version = document.version ∧
      ∃ buffer, buffers.find? f.uri = some buffer ∧ document.version ≤ buffer.version ∧
        (document.version = buffer.version → document = buffer)

theorem TrackedFile.Attached.congr {buffers buffers' : Buffers} {f : TrackedFile}
    (h : f.Attached buffers) (same : buffers'.find? f.uri = buffers.find? f.uri) :
    f.Attached buffers' := by
  simpa only [TrackedFile.Attached, same] using h

/-- A file with a document is open. -/
theorem TrackedFile.Attached.isSome_find? {buffers : Buffers} {f : TrackedFile}
    (h : f.Attached buffers) (attached : f.document?.isSome) : (buffers.find? f.uri).isSome := by
  obtain ⟨document, same⟩ := Option.isSome_iff_exists.mp attached
  obtain ⟨-, -, buffer, found, -⟩ := h document same
  exact Option.isSome_of_eq_some found

namespace Registry

variable {sources : Sources} {buffers : Buffers} {P : TrackedFile → Prop} {r r' : Registry}
  {update : Update} {uri : Uri} {f : TrackedFile}

theorem attached_new : TrackedFile.Attached buffers { uri } := by simp [TrackedFile.Attached]

/-- Loading a file attaches the open buffer. -/
theorem attached_refresh (h : f.Attached buffers) :
    (f.refresh sources (buffers.loading f.uri)).Attached buffers := by
  intro document attached
  rw [refresh_uri]
  cases found : buffers.find? f.uri with
  | some buffer =>
    rw [Buffers.loading_of_some found] at attached ⊢
    obtain rfl : buffer = document := Option.some.inj attached
    exact ⟨rfl, rfl, buffer, rfl, le_rfl, fun _ => rfl⟩
  | none =>
    rw [Buffers.loading_of_none found] at attached
    obtain ⟨-, -, buffer, opened, -⟩ := h document attached
    rw [found] at opened
    cases opened

theorem attached_renewed (h : f.Attached buffers) :
    (r.renewed sources (buffers.loading f.uri) f).Attached buffers := attached_refresh h

namespace Handling

/-- Every update that is awaited loads its file from the buffers, and every file has `P` or
awaits its update. -/
structure Following (buffers : Buffers) (P : TrackedFile → Prop) (s : Handling) : Prop where
  regular : s.registry.debouncer.Regular
  files : ∀ f ∈ s.registry.files, f.Consistent ∧ f.Attached buffers
  done : ∀ f ∈ s.registry.files, P f ∨ ∃ update ∈ s.awaited, update.uri = f.uri
  held : ∀ update ∈ s.registry.debouncer.items,
    update = buffers.loading update.uri ∨ update.uri ∉ s.registry.uris
  next : ∀ update, .handle update ∈ s.agenda →
    update = buffers.loading update.uri ∨ update.uri ∉ s.registry.uris
  later : ∀ update, .handle update ∈ s.agenda.tail → update = buffers.loading update.uri

variable {rest : List Task}

/-- All is well but for one file, and what is on the agenda loads files that are tracked. -/
structure FollowingBut (buffers : Buffers) (P : TrackedFile → Prop) (uri : Uri) (s : Handling) :
    Prop where
  regular : s.registry.debouncer.Regular
  files : ∀ f ∈ s.registry.files, f.Consistent ∧ f.Attached buffers
  done : ∀ f ∈ s.registry.files, f.uri ≠ uri →
    P f ∨ ∃ update ∈ s.awaited, update.uri = f.uri
  held : ∀ update ∈ s.registry.debouncer.items, update.uri ≠ uri →
    update = buffers.loading update.uri ∨ update.uri ∉ s.registry.uris
  later : ∀ update, .handle update ∈ s.agenda → update = buffers.loading update.uri

/-- A push of the update that loads a file makes up for what is amiss with this file. -/
theorem FollowingBut.push (h : FollowingBut buffers P uri ⟨r, rest⟩) :
    Following buffers P ⟨(r.push (buffers.loading uri)).1,
      (r.push (buffers.loading uri)).2.map .handle ++ rest⟩ := by
  obtain ⟨regular, files, done, held, later⟩ := h
  have debouncer : (r.push (buffers.loading uri)).1.debouncer
      = (r.debouncer.push uri (buffers.loading uri)).1 := by simp [push_debouncer]
  have ready : (r.push (buffers.loading uri)).2
      = (r.debouncer.push uri (buffers.loading uri)).2 := by simp [push_ready]
  -- What becomes ready or is held loads its file, unless that file is not tracked.
  have sane : ∀ update ∈ (r.debouncer.push uri (buffers.loading uri)).2 ++
      (r.debouncer.push uri (buffers.loading uri)).1.items,
      update = buffers.loading update.uri ∨ update.uri ∉ r.uris := by
    intro update member
    rcases Debouncer.mem_of_push member with rfl | displaced
    · exact .inl (by simp)
    · exact held update (Debouncer.mem_items_of_displaced displaced)
        (regular.uri_ne_of_mem_displaced displaced)
  have awaits : Awaits P ⟨(r.push (buffers.loading uri)).1,
      (r.push (buffers.loading uri)).2.map .handle ++ rest⟩ :=
    awaits_push regular fun f member other => done f member (by simpa using other)
  refine ⟨?_, files, awaits, fun update member => ?_, fun update member => ?_,
    fun update member => ?_⟩
  · have kept : (r.debouncer.push (buffers.loading uri).uri (buffers.loading uri)).1.Regular :=
      Debouncer.regular_push
    rwa [Buffers.loading_uri, ← debouncer] at kept
  · exact sane update (List.mem_append_right _ (debouncer ▸ member))
  · rcases List.mem_append.mp member with front | behind
    · obtain ⟨other, now, same⟩ := List.mem_map.mp front
      obtain rfl : other = update := Task.handle.inj same
      exact sane other (List.mem_append_left _ (ready ▸ now))
    · exact .inl (later update behind)
  · refine later update ?_
    have few : (r.debouncer.push uri (buffers.loading uri)).2.tail = [] := regular.push_ready_tail
    rw [← ready] at few
    cases front : (r.push (buffers.loading uri)).2 with
    | nil =>
      rw [front] at member
      exact List.mem_of_mem_tail member
    | cons up others =>
      rw [front, List.tail_cons] at few
      simpa [front, few] using member

/-- A task that is done without effect was about no file that awaits its update. -/
theorem Following.skip {task : Task} (h : Following buffers P ⟨r, task :: rest⟩)
    (idle : ∀ update, task = .handle update → update.uri ∉ r.uris) :
    Following buffers P ⟨r, rest⟩ := by
  have later : ∀ update, .handle update ∈ rest → update = buffers.loading update.uri := h.later
  exact ⟨h.regular, h.files, Awaits.skip h.done idle, h.held,
    fun update member => .inl (later update member),
    fun update member => later update (List.mem_of_mem_tail member)⟩

/-- What every renewed file has, if it was renewed by the update that loads it. -/
def Renews (sources : Sources) (buffers : Buffers) (P : TrackedFile → Prop) : Prop :=
  ∀ (r : Registry) (f : TrackedFile), f ∈ r.files →
    (∀ g ∈ r.files, g.Consistent ∧ g.Attached buffers) →
    P (r.renewed sources (buffers.loading f.uri) f)

theorem Following.handle (h : Following buffers P ⟨r, .handle update :: rest⟩)
    (renews : Renews sources buffers P) (tracked : update.uri ∈ r.uris) :
    Following buffers P (step sources ⟨r, .handle update :: rest⟩) := by
  have loads : update = buffers.loading update.uri :=
    (h.next update List.mem_cons_self).resolve_right (not_not_intro tracked)
  have awaits : Awaits P (step sources ⟨r, .handle update :: rest⟩) := by
    refine Awaits.handle tracked (fun g hg here => ?_) h.done
    rw [show update = buffers.loading g.uri by rw [here, ← loads]]
    exact renews r g hg h.files
  rw [step_handle tracked] at awaits ⊢
  have behind : ∀ other, .handle other ∈ ((r.renew sources update).missing update.uri).map .discover
      ++ .finish update.uri :: rest → other = buffers.loading other.uri := by
    intro other member
    exact h.later other (by simpa using member)
  refine ⟨h.regular, fun f member => ?_, awaits, fun other member => ?_,
    fun other member => .inl (behind other member),
    fun other member => behind other (List.mem_of_mem_tail member)⟩
  · obtain ⟨g, hg, -, ⟨here, rfl⟩ | ⟨-, rfl⟩⟩ := mem_renew member
    · obtain ⟨consistent, attached⟩ := h.files g hg
      rw [show update = buffers.loading g.uri by rw [here, ← loads]]
      exact ⟨consistent_renewed consistent, attached_renewed attached⟩
    · exact h.files f hg
  · simpa using h.held other member

theorem Following.discover (h : Following buffers P ⟨r, .discover uri :: rest⟩)
    (loads : sources.loading uri = buffers.loading uri) (untracked : uri ∉ r.uris) :
    Following buffers P (step sources ⟨r, .discover uri :: rest⟩) := by
  rw [step_discover untracked, loads]
  have files : ∀ f ∈ (r.add uri).files, f ∈ r.files ∨ f = { uri } :=
    fun f member => mem_add untracked member
  refine FollowingBut.push ⟨by simpa using h.regular, fun f member => ?_,
    fun f member other => ?_, fun update member other => ?_, h.later⟩
  · rcases files f member with old | rfl
    · exact h.files f old
    · exact ⟨consistent_new, attached_new⟩
  · rcases files f member with old | rfl
    · refine (h.done f old).imp_right ?_
      rintro ⟨update, waits, same⟩
      exact ⟨update, by simpa [mem_awaited] using waits, same⟩
    · exact absurd rfl other
  · refine (h.held update (by simpa using member)).imp_right fun out => ?_
    simpa [uris_add untracked, other] using out

theorem Following.finish (h : Following buffers P ⟨r, .finish uri :: rest⟩) :
    Following buffers P (step sources ⟨r, .finish uri :: rest⟩) := by
  have files : ∀ f ∈ r.collect.files, f ∈ r.files := fun f member => List.mem_of_mem_filter member
  have awaits : Awaits P (step sources ⟨r, .finish uri :: rest⟩) := Awaits.finish h.done
  have gone : ∀ v, v ∉ r.uris → v ∉ r.collect.uris := by
    intro v out member
    rw [collect_uris] at member
    exact out (List.mem_of_mem_filter member)
  rw [step_finish]
  exact ⟨h.regular, fun f member => h.files f (files f member), awaits,
    fun update member => (h.held update member).imp_right (gone _),
    fun update member => .inl (h.later update member),
    fun update member => h.later update (List.mem_of_mem_tail member)⟩

/-- A step keeps this, if untracked files are loaded from the buffers. -/
theorem Following.step {s : Handling} (h : Following buffers P s)
    (agree : ∀ v, v ∉ s.registry.uris → sources.loading v = buffers.loading v)
    (renews : Renews sources buffers P) : Following buffers P (Handling.step sources s) := by
  obtain ⟨r, _ | ⟨task, rest⟩⟩ := s
  · exact h
  cases task with
  | handle update =>
    by_cases tracked : update.uri ∈ r.uris
    · exact h.handle renews tracked
    · rw [step_handle_of_not_mem tracked]
      exact h.skip (by simp [tracked])
  | discover uri =>
    by_cases tracked : uri ∈ r.uris
    · rw [step_discover_of_mem tracked]
      exact h.skip (by simp)
    · exact h.discover (agree uri tracked) tracked
  | finish uri => exact h.finish

theorem Following.leads {s t : Handling} (h : Following buffers P s)
    (same : sources.buffers = buffers) (renews : Renews sources buffers P)
    (run : Leads sources s t) : Following buffers P t := by
  have agree : ∀ v, sources.loading v = buffers.loading v := fun v => by
    rw [Sources.loading_eq, same]
  exact run.preserves (P := Following buffers P)
    (fun s following => following.step (fun v _ => agree v) renews) h

end Handling

open Handling

/-! ## Between operations -/

/-- The registry follows the buffers while nothing is handled. -/
abbrev Follows (buffers : Buffers) (P : TrackedFile → Prop) (r : Registry) : Prop :=
  Following buffers P ⟨r, []⟩

variable {document : Document}

/-- What is held back is all that is awaited. -/
theorem awaited_idle : awaited ⟨r, []⟩ = r.debouncer.items := rfl

theorem Follows.but (h : r.Follows buffers P) (uri : Uri) : FollowingBut buffers P uri ⟨r, []⟩ :=
  ⟨h.regular, h.files, fun f member _ => h.done f member, fun update member _ =>
    h.held update member, by simp⟩

/-- Nothing is amiss with a file that is not tracked. -/
theorem Handling.FollowingBut.follows (h : FollowingBut buffers P uri ⟨r, []⟩)
    (untracked : uri ∉ r.uris) : r.Follows buffers P := by
  refine ⟨h.regular, h.files, fun f member => h.done f member ?_, fun update member => ?_,
    by simp, by simp⟩
  · rintro rfl
    exact untracked (uri_mem_uris member)
  · by_cases same : update.uri = uri
    · exact .inr (same ▸ untracked)
    · exact h.held update member same

theorem Follows.congr {s : Registry} (h : r.Follows buffers P) (files : s.files = r.files)
    (debouncer : s.debouncer = r.debouncer) : s.Follows buffers P := by
  refine ⟨debouncer ▸ h.regular, files ▸ h.files, ?_, fun update member => ?_, by simp, by simp⟩
  · rw [files, awaited_idle, debouncer]
    exact h.done
  · rw [uris_congr files]
    exact h.held update (debouncer ▸ member)

/-- The update held back is handled next. -/
theorem Follows.release {key : Uri} (h : r.Follows buffers P)
    (held : r.debouncer.held? = some (key, update)) :
    Following buffers P ⟨r.released, [.handle update]⟩ := by
  have items : r.debouncer.items = [update] := by simp [Debouncer.items, held]
  have waits : awaited ⟨r.released, [.handle update]⟩ = r.debouncer.items := items.symm
  refine ⟨Debouncer.regular_of_held?_none rfl, h.files, fun f member => ?_, by
    simp [Debouncer.items, released], fun other member => ?_, by simp⟩
  · rw [waits]
    exact h.done f member
  · obtain rfl : other = update := by simpa using member
    exact h.held other (by simp [items])

/-- The buffers of other files are the same, and so is the update that loads one. -/
theorem loading_congr {buffers' : Buffers} {v : Uri} (h : buffers'.find? v = buffers.find? v) :
    buffers'.loading v = buffers.loading v := by
  simp only [Buffers.loading, Sources.loading, h]

/-- After a newer text of a document came in, its file alone may be amiss. -/
theorem Follows.insert {P' : TrackedFile → Prop} (h : r.Follows buffers P)
    (newer : ∀ buffer, buffers.find? document.uri = some buffer → buffer.version < document.version)
    (kept : ∀ f, f.uri ≠ document.uri → P f → P' f) :
    FollowingBut (buffers.insert document) P' document.uri ⟨r, []⟩ := by
  refine ⟨h.regular, fun f member => ⟨(h.files f member).1, ?_⟩, fun f member other =>
    (h.done f member).imp_left (kept f other), fun update member other => ?_, by simp⟩
  · have attached := (h.files f member).2
    by_cases here : f.uri = document.uri
    · intro attached' same
      obtain ⟨text, version, buffer, found, older, -⟩ := attached attached' same
      have less := newer buffer (here ▸ found)
      exact ⟨text, version, document, here ▸ Buffers.find?_insert_self, by omega, by omega⟩
    · exact attached.congr (Buffers.find?_insert_of_ne here)
  · rw [loading_congr (Buffers.find?_insert_of_ne other)]
    exact h.held update member

/-- The file of a newer text does not hold that text. -/
theorem Follows.stale (h : r.Follows buffers P)
    (newer : ∀ buffer, buffers.find? document.uri = some buffer → buffer.version < document.version)
    (found : r.find? document.uri = some f) : f.isCurrent document = false := by
  rw [TrackedFile.isCurrent, Bool.and_eq_false_iff]
  refine .inl (beq_eq_false_iff_ne.mpr fun holding => ?_)
  obtain ⟨attached, document', version⟩ := Option.map_eq_some_iff.mp holding
  obtain ⟨-, -, buffer, known, older, -⟩ := (h.files f (mem_of_find? found)).2 attached document'
  have less := newer buffer (uri_of_find? found ▸ known)
  omega

/-- The buffer of a file that is not tracked is of no concern. -/
theorem Follows.of_not_mem {buffers' : Buffers} {P' : TrackedFile → Prop}
    (h : r.Follows buffers P) (untracked : uri ∉ r.uris)
    (others : ∀ v, v ≠ uri → buffers'.find? v = buffers.find? v)
    (kept : ∀ f, f.uri ≠ uri → P f → P' f) : r.Follows buffers' P' := by
  have other : ∀ f ∈ r.files, f.uri ≠ uri := by
    rintro f member rfl
    exact untracked (uri_mem_uris member)
  refine ⟨h.regular, fun f member => ⟨(h.files f member).1,
    (h.files f member).2.congr (others _ (other f member))⟩, fun f member =>
    (h.done f member).imp_left (kept f (other f member)), fun update member => ?_, by simp, by simp⟩
  by_cases here : update.uri = uri
  · exact .inr (here ▸ untracked)
  · rw [loading_congr (others _ here)]
    exact h.held update member

/-- A mark of a file may go along with a change of its buffer. -/
theorem Follows.mark {buffers' : Buffers} {P' : TrackedFile → Prop}
    {change : TrackedFile → TrackedFile} (h : r.Follows buffers P) (only : IsMark change)
    (others : ∀ v, v ≠ uri → buffers'.find? v = buffers.find? v)
    (attached : ∀ f, f.uri = uri → f.Attached buffers → (change f).Attached buffers')
    (kept : ∀ f, f.uri ≠ uri → P f → P' f) (changed : ∀ f, f.uri = uri → P f → P' (change f))
    (held : ∀ update ∈ r.debouncer.items, update.uri = uri →
      buffers'.find? uri = buffers.find? uri) :
    (r.modify uri change).Follows buffers' P' := by
  refine ⟨h.regular, fun f member => ?_, fun f member => ?_, fun update member => ?_,
    by simp, by simp⟩
  · obtain ⟨g, hg, rfl⟩ := mem_modify.mp member
    obtain ⟨consistent, old⟩ := h.files g hg
    split
    · next here => exact ⟨consistent_mark only consistent, attached g here old⟩
    · next other => exact ⟨consistent, old.congr (others _ other)⟩
  · obtain ⟨g, hg, rfl⟩ := mem_modify.mp member
    split
    · next here =>
      rw [only.uri]
      exact (h.done g hg).imp_left (changed g here)
    · next other => exact (h.done g hg).imp_left (kept g other)
  · have same : buffers'.find? update.uri = buffers.find? update.uri := by
      by_cases here : update.uri = uri
      · rw [here]
        exact held update member here
      · exact others _ here
    rw [uris_mark only, loading_congr same]
    exact h.held update member

section operations

variable (same : sources.buffers = buffers) (renews : Renews sources buffers P)

include same renews

theorem Handling.FollowingBut.queue (update : Update)
    (h : FollowingBut buffers P update.uri ⟨r, []⟩)
    (loads : update = buffers.loading update.uri) (done : r.queue sources update = some r') :
    r'.Follows buffers P := by
  rw [← outcome?_push, outcome?_eq_some_iff] at done
  have start : Following buffers P ⟨(r.push update).1, (r.push update).2.map .handle⟩ := by
    simpa [← loads] using h.push
  exact start.leads same renews done

/-- The text of an open buffer is taken in, if it is not there yet. -/
theorem Handling.FollowingBut.updateFromEditor
    (h : FollowingBut buffers P document.uri ⟨r, []⟩)
    (current : buffers.find? document.uri = some document)
    (stale : ∀ f, r.find? document.uri = some f → f.isCurrent document = false)
    (done : r.updateFromEditor sources document = some r') : r'.Follows buffers P := by
  cases found : r.find? document.uri with
  | none =>
    obtain rfl : r = r' := by simpa [Registry.updateFromEditor, found] using done
    exact h.follows (find?_eq_none.mp found)
  | some f =>
    rw [updateFromEditor_of_stale found (stale f found)] at done
    exact Handling.FollowingBut.queue same renews (.editor document) h
      (Buffers.loading_of_some current).symm done

theorem Follows.updateFromEditor (h : r.Follows buffers P)
    (current : buffers.find? document.uri = some document)
    (done : r.updateFromEditor sources document = some r') : r'.Follows buffers P := by
  by_cases fresh : ∃ f, r.find? document.uri = some f ∧ f.isCurrent document = true
  · obtain ⟨f, found, holds⟩ := fresh
    obtain rfl : r = r' := by simpa [Registry.updateFromEditor, found, holds] using done
    exact h
  · refine (h.but document.uri).updateFromEditor same renews current (fun f found => ?_) done
    by_contra holds
    exact fresh ⟨f, found, by simpa using holds⟩

theorem Follows.updateFromDisk (h : r.Follows buffers P) (closed : buffers.find? uri = none)
    (done : r.updateFromDisk sources uri = some r') : r'.Follows buffers P := by
  unfold Registry.updateFromDisk at done
  split at done
  · exact Handling.FollowingBut.queue same renews (.disk uri) (h.but uri)
      (Buffers.loading_of_none closed).symm done
  · cases done
    exact h

theorem Follows.flush {taken : Debouncer Uri Update × Option Update} {flushed : Bool}
    (h : r.Follows buffers P)
    (takes : taken = r.debouncer.takePending ∨ taken = (r.debouncer, none))
    (done : r.flush sources taken = some (r', flushed)) : r'.Follows buffers P := by
  rcases takes with rfl | rfl
  · cases held : r.debouncer.held? with
    | none =>
      have idle : r.debouncer.takePending.1 = r.debouncer := by
        simp [Debouncer.takePending, ← held]
      simp only [Registry.flush, Debouncer.takePending, held, Option.map_none] at done
      cases done
      exact h.congr rfl idle
    | some pair =>
      obtain ⟨key, update⟩ := pair
      have flushing : r.flushPending sources = some (r', flushed) := done
      rw [flushPending_of_held held] at flushing
      obtain ⟨handled, run, rest⟩ := Option.map_eq_some_iff.mp flushing
      cases rest
      exact (h.release held).leads same renews (process_eq_some_iff.mp run)
  · cases done
    exact h

theorem Follows.flushDue {generation : Nat} {flushed : Bool} (h : r.Follows buffers P)
    (done : r.flushDue sources generation = some (r', flushed)) : r'.Follows buffers P := by
  refine h.flush same renews ?_ done
  unfold Debouncer.takeDue
  split
  · exact .inl rfl
  · exact .inr rfl

theorem Follows.flushPending {flushed : Bool} (h : r.Follows buffers P)
    (done : r.flushPending sources = some (r', flushed)) : r'.Follows buffers P :=
  h.flush same renews (.inl rfl) done

theorem Follows.settleDocument (h : r.Follows buffers P)
    (current : buffers.find? document.uri = some document)
    (done : r.settleDocument sources document = some r') : r'.Follows buffers P := by
  unfold Registry.settleDocument at done
  split at done
  · obtain ⟨edited, editing, rest⟩ := Option.bind_eq_some_iff.mp done
    obtain ⟨⟨flushed, _⟩, flushing, last⟩ := Option.bind_eq_some_iff.mp rest
    cases last
    exact (h.updateFromEditor same renews current editing).flushPending same renews flushing
  · cases done
    exact h

end operations

end Registry

end AsmServer
