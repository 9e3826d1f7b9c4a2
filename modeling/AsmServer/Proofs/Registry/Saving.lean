import AsmServer.Proofs.Registry.Pinning

/-!
# Saving

A file is dirty once a text was handled for it while it was open. Saving a document makes its file
clean, and what could spoil this is a text of the document that is handled later. No such text is
left behind. If the file has the version of the document, it has the newest text, and a text that
waits would be newer still; if not, the text of the document is handled before the file is marked,
and the only text that may wait afterwards is the same one, for a file that was dropped and found
again. That file is not open, and so the text leaves it clean.

This takes versions that tell old texts from new ones: each text of a document has a greater
version than all before it, and than the version of what the disk holds.
-/

namespace AsmServer

/-- The open buffers are the newest of the texts that came. -/
structure Buffers.Newest (texts : List Document) (buffers : Buffers) : Prop where
  sent : ∀ uri buffer, buffers.find? uri = some buffer → buffer ∈ texts
  last : ∀ uri buffer, buffers.find? uri = some buffer →
    ∀ document ∈ texts, document.uri = uri → document.version ≤ buffer.version

namespace TrackedFile

/-- The file has the version of a text that came, or of what the disk holds. If it is closed though
its document is open, it has an older version than the document. -/
structure Behind (texts : List Document) (buffers : Buffers) (f : TrackedFile) : Prop where
  pinned : f.Pinned
  version : f.version = diskVersion ∨
    ∃ document ∈ texts, document.uri = f.uri ∧ document.version = f.version
  older : f.document? = none → ∀ buffer, buffers.find? f.uri = some buffer →
    f.version < buffer.version

/-- The update has a newer text that came, or is a reload while the file is not open. -/
def Advances (texts : List Document) (f : TrackedFile) : Update → Prop
  | .editor document => document ∈ texts ∧ f.version < document.version
  | .disk _ => f.document? = none

/-- The file, if it is this one, is not dirty. -/
def Clean (uri : Uri) (f : TrackedFile) : Prop := f.uri = uri → f.dirty = false

/-- If the file is this one, the update has a text for it and it is not open. -/
def Opens (uri : Uri) (f : TrackedFile) (update : Update) : Prop :=
  f.uri = uri → f.document? = none ∧ ∃ document, update = .editor document

end TrackedFile

namespace Registry

open TrackedFile

variable {sources : Sources} {r r' : Registry} {update : Update} {document : Document} {uri : Uri}
  {f : TrackedFile} {texts : List Document} {buffers : Buffers}

/-! ## Texts that came -/

/-- A text that is newer than all others of its document is newer than the file. -/
theorem lt_version_of_behind (h : f.Behind texts buffers) (own : f.uri = document.uri)
    (last : ∀ other ∈ texts, other.uri = document.uri → other.version < document.version)
    (positive : 0 ≤ document.version) : f.version < document.version := by
  rcases h.version with disk | ⟨other, member, here, same⟩
  · rw [disk]
    exact Int.lt_of_lt_of_le (by decide) positive
  · exact same ▸ last other member (here.trans own)

section natural

variable (natural : ∀ document ∈ texts, 0 ≤ document.version)

include natural

theorem diskVersion_lt (member : document ∈ texts) : diskVersion < document.version :=
  Int.lt_of_lt_of_le (by decide) (natural document member)

/-- An open buffer of another version is newer than the file. -/
theorem advances_of_ne (newest : buffers.Newest texts)
    (version : f.version = diskVersion ∨
      ∃ document ∈ texts, document.uri = f.uri ∧ document.version = f.version)
    (opened : buffers.find? f.uri = some document) (other : f.version ≠ document.version) :
    f.Advances texts (.editor document) := by
  refine ⟨newest.sent f.uri document opened, ?_⟩
  rcases version with disk | ⟨earlier, member, here, same⟩
  · rw [disk]
    exact diskVersion_lt natural (newest.sent f.uri document opened)
  · have le := newest.last f.uri document opened earlier member here
    rw [same] at le
    omega

theorem regime_behind (newest : sources.buffers.Newest texts) :
    Regime sources (Behind texts sources.buffers) (Advances texts) where
  new uri :=
    { pinned := pinned_of_closed rfl
      version := .inl rfl
      older := fun _ buffer opened => diskVersion_lt natural (newest.sent uri buffer opened) }
  load uri := by
    cases opened : sources.buffers.find? uri with
    | none =>
      rw [Sources.loading, opened]
      rfl
    | some buffer =>
      rw [Sources.loading, opened]
      exact ⟨newest.sent uri buffer opened, diskVersion_lt natural (newest.sent uri buffer opened)⟩
  renew r f update behind advances own := by
    cases update with
    | editor document =>
      refine ⟨pinned_renewed (fun same => by cases same) own, .inr ⟨document, advances.1, ?_, rfl⟩,
        fun closed => by cases closed⟩
      rw [renewed_uri, own]
      rfl
    | disk uri =>
      have closed : f.document? = none := advances
      refine ⟨pinned_renewed (fun _ => closed) own, .inl rfl, fun _ buffer opened => ?_⟩
      exact diskVersion_lt natural (newest.sent _ buffer opened)

end natural

/-! ## Clean files -/

/-- While a document is open, its file stays clean if only texts are handled for it that open it. -/
theorem regime_clean (opened : (sources.buffers.find? uri).isSome) :
    Regime sources (Clean uri) (Opens uri) where
  new _ _ := rfl
  load u here := by
    obtain ⟨buffer, found⟩ := Option.isSome_iff_exists.mp opened
    obtain rfl : u = uri := here
    exact ⟨rfl, buffer, by rw [Sources.loading, found]⟩
  renew r f update clean opens own here := by
    obtain ⟨closed, document, rfl⟩ := opens (renewed_uri.symm.trans here)
    have shut : f.isOpen = false := by rw [isOpen, closed]; rfl
    exact shut

/-- The text of a document, and no other, is handled for its file. -/
def Brings (document : Document) (f : TrackedFile) (update : Update) : Prop :=
  f.uri = document.uri → update = .editor document

/-- The file of a document has its version, or is not open. -/
def Fits (document : Document) (f : TrackedFile) : Prop :=
  f.uri = document.uri → f.document? = none ∨ f.version = document.version

section settle

variable (opened : sources.buffers.find? document.uri = some document)

include opened

theorem brings_loading (own : uri = document.uri) :
    Brings document { uri } (sources.loading uri) := by
  intro _
  rw [own, Sources.loading, opened]

/-- A text that was queued and handled is the last one for its file. -/
theorem obeys_settled {edited : Registry} {flushed : Bool} (regular : r.debouncer.Regular)
    (editing : r.queue sources (.editor document) = some edited)
    (flushing : edited.flushPending sources = some (r', flushed)) :
    r'.Obeys (Fits document) (Brings document) := by
  have brings : Regime sources (fun _ => True) (Brings document) :=
    ⟨fun _ => trivial, fun u here => brings_loading opened here here, fun _ _ _ _ _ _ => trivial⟩
  have restores : Handling.Restores sources (Fits document) (Brings document) := by
    intro r f update only own here
    obtain rfl : update = .editor document := only (renewed_uri.symm.trans here)
    exact .inr rfl
  have fits : Regime sources (Fits document) (Brings document) :=
    ⟨fun _ _ => .inl rfl, fun u here => brings_loading opened here here,
      fun r f update _ only own => restores r f update only own⟩
  have others : ∀ waiting ∈ r.debouncer.items, waiting.uri ≠ Update.uri (.editor document) →
      r.Allows (Brings document) waiting :=
    fun waiting _ other f _ own here => other (own.symm.trans here) |>.elim
  have allowed : r.Allows (Brings document) (.editor document) := fun _ _ _ _ => rfl
  have queued : edited.Obeys (fun _ => True) (Brings document) :=
    obeys_queue brings regular (fun _ _ => trivial) others allowed editing
  have awaits : Handling.Awaits (Fits document) ⟨edited, []⟩ :=
    awaits_queue brings restores regular (fun _ _ => trivial) others
      (fun f _ other here => (other here).elim) allowed editing
  exact obeys_flushPending fits restores queued awaits flushing

/-- After a document was settled, all texts that wait for its file open it. -/
theorem opens_of_settleDocument (natural : ∀ document ∈ texts, 0 ≤ document.version)
    (newest : sources.buffers.Newest texts) (once : r.uris.Nodup)
    (h : r.Obeys (Behind texts sources.buffers) (Advances texts))
    (done : r.settleDocument sources document = some r') :
    r'.Obeys (fun _ => True) (Opens document.uri) := by
  have behind : r'.Obeys (Behind texts sources.buffers) (Advances texts) :=
    h.settleDocument (regime_behind natural newest) once
      (fun f member own => advances_of_ne natural newest (h.files f member).version
        (own ▸ opened)) done
  unfold settleDocument at done
  split at done
  · next other =>
    obtain ⟨edited, editing, rest⟩ := Option.bind_eq_some_iff.mp done
    obtain ⟨⟨settled, _⟩, flushing, same⟩ := Option.bind_eq_some_iff.mp rest
    cases same
    obtain ⟨f, found, version⟩ : ∃ f, r.find? document.uri = some f ∧
        f.version ≠ document.version := by
      cases found : r.find? document.uri with
      | none => simp [found] at other
      | some f => exact ⟨f, rfl, by simpa [found] using other⟩
    have stale : f.isCurrent document = false := by
      by_contra current
      simp only [isCurrent, Bool.not_eq_false, Bool.and_eq_true, beq_iff_eq] at current
      obtain ⟨same, -⟩ := current
      obtain ⟨held, attached, version'⟩ := Option.map_eq_some_iff.mp same
      exact version (((h.files f (mem_of_find? found)).pinned held attached).2.trans version')
    rw [updateFromEditor_of_stale found stale] at editing
    refine (behind.and (obeys_settled opened h.regular editing flushing)).mono
      (fun _ _ _ => trivial) fun g _ update own => ?_
    rintro ⟨-, fits⟩ ⟨advances, brings⟩ here
    obtain rfl := brings here
    refine ⟨(fits here).resolve_right fun same => ?_, document, rfl⟩
    exact absurd same (Int.ne_of_lt advances.2)
  · next version =>
    cases done
    refine h.mono (fun _ _ _ => trivial) fun f member update own behind advances here => ?_
    have found : r.find? document.uri = some f := here ▸ find?_of_mem once member
    have same : f.version = document.version := by simpa [found] using version
    exfalso
    cases update with
    | editor later =>
      have le := newest.last document.uri document opened later advances.1 (own.symm.trans here)
      exact absurd advances.2 (by rw [same]; exact Int.not_lt.mpr le)
    | disk uri =>
      have older := behind.older advances document (here ▸ opened)
      exact absurd same (Int.ne_of_lt older)

/-- Once a document was saved, its file is clean, and no text waits that spoils this. -/
theorem clean_of_markSaved (natural : ∀ document ∈ texts, 0 ≤ document.version)
    (newest : sources.buffers.Newest texts) (once : r.uris.Nodup)
    (h : r.Obeys (Behind texts sources.buffers) (Advances texts))
    (done : r.markSaved sources document = some r') :
    r'.Obeys (Clean document.uri) (Opens document.uri) := by
  obtain ⟨settled, settling, same⟩ := Option.bind_eq_some_iff.mp done
  cases same
  have opens : settled.Obeys (fun _ => True) (Opens document.uri) :=
    opens_of_settleDocument opened natural newest once h settling
  have marked : (settled.modify document.uri fun file => { file with dirty := false }).Obeys
      (fun _ => True) (Opens document.uri) :=
    opens.modify (fun _ => rfl) (fun _ _ _ _ => trivial) (fun _ _ _ _ allowed => allowed)
  refine ⟨marked.regular, fun f member here => ?_, marked.held⟩
  obtain ⟨g, old, rfl⟩ := mem_modify.mp member
  by_cases own : g.uri = document.uri
  · rw [if_pos own]
  · rw [if_neg own] at here
    exact absurd here own

end settle

/-- A file that is not tracked is not dirty. -/
theorem clean_of_not_mem (regular : r.debouncer.Regular) (untracked : uri ∉ r.uris) :
    r.Obeys (Clean uri) (Opens uri) where
  regular := regular
  files _ member here := absurd (here ▸ uri_mem_uris member) untracked
  held _ _ _ member _ here := absurd (here ▸ uri_mem_uris member) untracked

end Registry

end AsmServer
