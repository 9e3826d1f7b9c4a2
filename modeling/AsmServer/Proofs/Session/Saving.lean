import AsmServer.Proofs.Registry.Saving
import AsmServer.Proofs.Session.Closure
import AsmServer.Proofs.Session.Precedence
import AsmServer.Proofs.Session.Versions
import AsmServer.Proofs.Workspace.Regimes

/-!
# Saved documents

Once a document was saved its file is clean in every project, and stays clean whatever happens,
until the document is opened, changed or closed again or its file is reported to have changed on
the disk. Texts that were held back before come to nothing, and a project that drops the file and
finds it again loads it clean.

A client conforms here if the versions of a document, none of which is negative, grow over the
whole session, also from one opening of the document to the next.
-/

namespace AsmServer

open TrackedFile Registry

/-! ## Operations -/

namespace Workspace

variable {sources : Sources} {w w' : Workspace} {document : Document} {texts : List Document}
  {buffers : Buffers} {uri : Uri}

/-- Closing a document keeps its file behind the texts that came. -/
theorem harmless_close (closed : buffers.find? uri = none) :
    Harmless (Behind texts buffers) (Advances texts) uri fun file =>
      { file with document? := none } where
  keeps f own behind := by
    refine ⟨pinned_of_closed rfl, behind.version, fun _ buffer opened => ?_⟩
    have opened : buffers.find? f.uri = some buffer := opened
    rw [own, closed] at opened
    cases opened
  allows f update _ advances := by
    cases update with
    | editor document => exact advances
    | disk uri => rfl

/-- An operation that is not about this file leaves it clean. -/
def Operation.Passes (uri : Uri) : Operation → Prop
  | change document => document.uri ≠ uri
  | save document => document.uri ≠ uri
  | close document => document.uri ≠ uri
  | disk other => other ≠ uri
  | _ => True

theorem Operation.Passes.keeps {operation : Operation} (passes : operation.Passes uri) :
    operation.Keeps (Clean uri) (Opens uri) w := by
  have other {f : TrackedFile} {update : Update} {v : Uri} (own : f.uri = v) (ne : v ≠ uri) :
      Opens uri f update := fun here => absurd (own.symm.trans here) ne
  cases operation with
  | change document => exact ⟨other rfl passes, fun f _ own => other own passes⟩
  | save document =>
    exact ⟨fun f _ own _ => other own passes, fun _ _ _ _ => rfl, fun _ _ _ allowed => allowed⟩
  | close document =>
    exact ⟨fun f _ own _ => other own passes, fun _ _ clean => clean, fun _ _ own _ here =>
      absurd (own.symm.trans here) passes⟩
  | disk v => exact fun f _ own _ => other own passes
  | due => trivial
  | flush => trivial
  | replace => trivial

/-- A document that is saved is clean in every project. -/
theorem clean_of_save (natural : ∀ document ∈ texts, 0 ≤ document.version)
    (newest : sources.buffers.Newest texts)
    (opened : sources.buffers.find? document.uri = some document)
    (lawful : w.Lawful) (behind : w.Obeys (Behind texts sources.buffers) (Advances texts))
    (done : (Operation.save document).apply sources w = some w') :
    w'.Obeys (Clean document.uri) (Opens document.uri) := by
  refine registry_forThose (w := { w with current? := some document.uri }) _ (fun _ _ => rfl)
    (fun p member _ r saved => ?_) (fun p member unwanted => ?_) done
  · obtain ⟨_, sound⟩ := (lawful p member).sound
    have clean := clean_of_markSaved opened natural newest sound.once (behind p member) saved
    exact clean.congr rfl rfl
  · exact clean_of_not_mem (lawful p member).regular (tracks_eq_false.mp unwanted)

end Workspace

namespace Session

variable {config : Config} {assembler : Assembler} {host : Host} {s s' : Session}
  {texts more : List Document} {uri : Uri}

/-! ## Actions -/

/-- Whether an action is about the text of a document. -/
def Action.Concerns (uri : Uri) : Action → Prop
  | opened other _ _ => other = uri
  | changed other _ _ => other = uri
  | closed other => other = uri
  | watched uris => uri ∈ uris
  | _ => False

/-- The open buffers while an action that brings no text is performed. -/
def Action.buffers (s : Session) : Action → Buffers
  | closed uri => s.buffers.erase uri
  | _ => s.buffers

/-- The operations that an action which brings no text may come to. -/
def Action.Asks (s : Session) (action : Action) : Workspace.Operation → Prop
  | .change _ => False
  | .save document =>
    action = .saved document.uri ∧ s.buffers.find? document.uri = some document
  | .close document =>
    action = .closed document.uri ∧ s.buffers.find? document.uri = some document
  | .disk uri => ∃ uris, action = .watched uris ∧ uri ∈ uris
  | _ => True

/-- What becomes of the buffers and the projects. -/
inductive Action.Outcome (host : Host) (s : Session) (action : Action) : Session → Prop
  | taken {document : Document} {w : Workspace} {s' : Session}
      (text : action.document? = some document)
      (changed : (Workspace.Operation.change document).apply
        ⟨host.disk, s.buffers.insert document⟩ s.workspace = some w)
      (same : SameProjects s' (s.buffers.insert document) w) : Outcome host s action s'
  | performed {operations : List Workspace.Operation} {w : Workspace} {s' : Session}
      (silent : action.document? = none) (asked : ∀ operation ∈ operations, action.Asks s operation)
      (done : operations.foldlM
        (fun w operation => operation.apply ⟨host.disk, action.buffers s⟩ w) s.workspace = some w)
      (same : SameProjects s' (action.buffers s) w) : Outcome host s action s'
  | dropped (silent : action.document? = none) (still : action.buffers s = s.buffers) :
      Outcome host s action s.shutdown

theorem Action.buffers_note_of_document? {action : Action} {document : Document}
    (text : action.document? = some document) :
    (action.note s).buffers = s.buffers.insert document := by
  cases action with
  | opened => cases text; rfl
  | changed => simp [note, text]
  | _ => cases text

theorem Action.buffers_note {action : Action} (silent : action.document? = none) :
    (action.note s).buffers = action.buffers s := by
  cases action with
  | opened => cases silent
  | changed => simp [note, silent, Action.buffers]
  | greeted settings? => cases settings? <;> rfl
  | _ => rfl

theorem Action.operations?_of_document? {action : Action} {document : Document}
    (text : action.document? = some document) :
    action.operations? host s = some [.change document] := by
  cases action with
  | opened uri version text' => cases text; rfl
  | changed uri version changes => simp [operations?, text]
  | _ => cases text

theorem asks_of_assembling? {action : Action} {settings : Json}
    {operations : List Workspace.Operation}
    (given : s.assembling? host settings = some operations) :
    ∀ operation ∈ operations, action.Asks s operation := by
  obtain ⟨path, -, rfl⟩ := Option.map_eq_some_iff.mp given
  intro operation listed
  obtain rfl := List.mem_singleton.mp listed
  trivial

/-- An action that brings no text asks for all that the workspace goes through. -/
theorem Action.asks_of_mem {action : Action} {operations : List Workspace.Operation}
    (silent : action.document? = none) (given : action.operations? host s = some operations) :
    ∀ operation ∈ operations, action.Asks s operation := by
  have one {operation : Workspace.Operation} (asked : action.Asks s operation) :
      ∀ other ∈ [operation], action.Asks s other := fun _ listed =>
    List.mem_singleton.mp listed ▸ asked
  cases action with
  | opened => cases silent
  | changed uri version changes => simp [operations?, silent] at given
  | saved uri =>
    obtain ⟨document, opened, rfl⟩ := Option.map_eq_some_iff.mp given
    obtain rfl : document.uri = uri := by simpa using List.find?_some opened
    exact one ⟨rfl, opened⟩
  | closed uri =>
    obtain ⟨document, opened, rfl⟩ := Option.map_eq_some_iff.mp given
    obtain rfl : document.uri = uri := by simpa using List.find?_some opened
    exact one ⟨rfl, opened⟩
  | watched uris =>
    cases given
    intro operation listed
    obtain ⟨uri, member, rfl⟩ := List.mem_map.mp listed
    exact ⟨uris, rfl, member⟩
  | greeted settings? =>
    obtain ⟨settings, -, given⟩ := Option.bind_eq_some_iff.mp given
    exact asks_of_assembling? given
  | configured settings => exact asks_of_assembling? given
  | assemblerReplaced => cases given; exact one trivial
  | flushed => cases given; exact one trivial
  | shutDown => cases given
  | timer => cases given; exact one trivial

/-- Every action has such an outcome. -/
theorem Action.outcome {action : Action} (done : action.apply host s = some s') :
    action.Outcome host s s' := by
  by_cases last : action = shutDown
  · obtain rfl := last
    cases done
    exact .dropped rfl rfl
  have workspace : (action.note s).workspace = s.workspace := (Action.notes last).workspace
  rw [apply_eq] at done
  cases text : action.document? with
  | some document =>
    have buffers : (action.note s).buffers = s.buffers.insert document :=
      buffers_note_of_document? text
    simp only [operations?_of_document? text, go_singleton] at done
    obtain ⟨w, changed, same⟩ := exists_of_update done
    rw [sources, buffers, workspace] at changed
    exact .taken text changed (buffers ▸ same)
  | none =>
    have buffers : (action.note s).buffers = action.buffers s := buffers_note text
    split at done
    · next operations given =>
      obtain ⟨w, performed, same⟩ := exists_of_update done
      rw [sources, buffers, workspace] at performed
      exact .performed text (asks_of_mem text given) performed (buffers ▸ same)
    · cases done
      have same : SameProjects (action.note s) (action.buffers s) s.workspace :=
        ⟨buffers, by rw [workspace], by rw [workspace]⟩
      exact .performed text (fun _ (nothing : _ ∈ []) => by cases nothing) rfl same

/-! ## Runs of a conforming client -/

/-- Actions one after the other, with the texts that they brought, the oldest first. -/
inductive Types (Admits : Action → Prop) (s : Session) : List Document → Session → Prop
  | refl : Types Admits s [] s
  | tail {host : Host} {action : Action} {texts : List Document} {t u : Session}
      (run : Types Admits s texts t) (admitted : Admits action)
      (done : action.apply host t = some u) :
      Types Admits s (texts ++ action.document?.toList) u

/-- The buffers are the newest texts that came, and all files are behind these texts. -/
structure Kept (config : Config) (assembler : Assembler) (texts : List Document) (s : Session) :
    Prop where
  reached : Reached config assembler s
  newest : s.buffers.Newest texts
  behind : s.workspace.Obeys (Behind texts s.buffers) (Advances texts)

theorem Kept.lawful (h : Kept config assembler texts s) : s.workspace.Lawful := by
  obtain ⟨_, run⟩ := h.reached.exists_run
  exact run.lawful

theorem kept_start (config : Config) (assembler : Assembler) :
    Kept config assembler [] (start config assembler) where
  reached := .refl
  newest := ⟨(fun _ _ opened => by cases opened), (fun _ _ opened => by cases opened)⟩
  behind _ member := by cases member

/-- A newer text is the newest. -/
theorem newest_insert {buffers : Buffers} {document : Document} (h : buffers.Newest texts)
    (newer : ∀ other ∈ texts, other.uri = document.uri → other.version < document.version) :
    (buffers.insert document).Newest (texts ++ [document]) where
  sent u buffer opened := by
    by_cases here : u = document.uri
    · subst here
      obtain rfl := Option.some.inj (Buffers.find?_insert_self.symm.trans opened)
      simp
    · rw [Buffers.find?_insert_of_ne here] at opened
      exact List.mem_append_left _ (h.sent u buffer opened)
  last u buffer opened other member own := by
    by_cases here : u = document.uri
    · subst here
      obtain rfl := Option.some.inj (Buffers.find?_insert_self.symm.trans opened)
      rcases List.mem_append.mp member with old | new
      · exact Int.le_of_lt (newer other old own)
      · rw [List.mem_singleton.mp new]
    · rw [Buffers.find?_insert_of_ne here] at opened
      rcases List.mem_append.mp member with old | new
      · exact h.last u buffer opened other old own
      · exact absurd (own.symm.trans (by rw [List.mem_singleton.mp new])) here

theorem newest_erase {buffers : Buffers} (h : buffers.Newest texts) :
    (buffers.erase uri).Newest texts where
  sent u buffer opened := by
    rw [Buffers.find?_erase] at opened
    split at opened
    · cases opened
    · exact h.sent u buffer opened
  last u buffer opened := by
    rw [Buffers.find?_erase] at opened
    split at opened
    · cases opened
    · exact h.last u buffer opened

/-- What an action asks for keeps all files behind the texts that came. -/
theorem Action.Asks.keeps {action : Action} {operation : Workspace.Operation} {w : Workspace}
    (natural : ∀ document ∈ texts, 0 ≤ document.version) (newest : s.buffers.Newest texts)
    (behind : w.Obeys (Behind texts (action.buffers s)) (Advances texts))
    (asked : action.Asks s operation) :
    operation.Keeps (Behind texts (action.buffers s)) (Advances texts) w := by
  have settles {document : Document} (opened : s.buffers.find? document.uri = some document) :
      w.Settles (Advances texts) document := fun f tracked own other =>
    advances_of_ne natural newest (behind.files tracked).version (own ▸ opened) other
  cases operation with
  | change document => exact asked.elim
  | save document =>
    obtain ⟨rfl, opened⟩ := asked
    exact ⟨settles opened, fun f _ h => ⟨h.pinned, h.version, h.older⟩, fun _ _ _ h => h⟩
  | close document =>
    obtain ⟨rfl, opened⟩ := asked
    refine ⟨settles opened, Workspace.harmless_close ?_⟩
    rw [Action.buffers, Buffers.find?_erase, if_pos rfl]
  | disk uri => exact fun f _ _ closed => closed
  | due => trivial
  | flush => trivial
  | replace => trivial

/-- Closing a document leaves all files behind. -/
theorem Action.newest {action : Action} (newest : s.buffers.Newest texts) :
    (action.buffers s).Newest texts := by
  cases action with
  | closed uri => exact newest_erase newest
  | _ => exact newest

theorem Kept.behind_buffers {action : Action} (h : Kept config assembler texts s) :
    s.workspace.Obeys (Behind texts (action.buffers s)) (Advances texts) := by
  cases action with
  | closed uri =>
    refine fun p member => (h.behind p member).mono (fun f _ behind => ?_) fun _ _ _ _ _ h => h
    refine ⟨behind.pinned, behind.version, fun closed buffer opened => ?_⟩
    rw [Action.buffers, Buffers.find?_erase] at opened
    split at opened
    · cases opened
    · exact behind.older closed buffer opened
  | _ => exact h.behind

/-- What an action asks for leaves all projects lawful and behind. -/
theorem Action.Asks.apply {action : Action} {operation : Workspace.Operation} {w w' : Workspace}
    (natural : ∀ document ∈ texts, 0 ≤ document.version) (newest : s.buffers.Newest texts)
    (asked : action.Asks s operation)
    (done : operation.apply ⟨host.disk, action.buffers s⟩ w = some w')
    (h : w.Lawful ∧ w.Obeys (Behind texts (action.buffers s)) (Advances texts)) :
    w'.Lawful ∧ w'.Obeys (Behind texts (action.buffers s)) (Advances texts) := by
  obtain ⟨lawful, behind⟩ := h
  have regime : Regime ⟨host.disk, action.buffers s⟩ (Behind texts (action.buffers s))
      (Advances texts) := regime_behind natural (Action.newest newest)
  exact ⟨(lawful.apply done).1,
    operation.obeys regime lawful behind (asked.keeps natural newest behind) done⟩

/-- A text that is taken over leaves all projects behind the texts with it. -/
theorem Kept.taken {document : Document} {w : Workspace} (h : Kept config assembler texts s)
    (natural : ∀ other ∈ texts ++ [document], 0 ≤ other.version)
    (newer : ∀ other ∈ texts, other.uri = document.uri → other.version < document.version)
    (changed : (Workspace.Operation.change document).apply
      ⟨host.disk, s.buffers.insert document⟩ s.workspace = some w) :
    w.Obeys (Behind (texts ++ [document]) (s.buffers.insert document))
      (Advances (texts ++ [document])) := by
  have listed : document ∈ texts ++ [document] := by simp
  have newest : (s.buffers.insert document).Newest (texts ++ [document]) :=
    newest_insert h.newest newer
  have older {f : TrackedFile} (behind : f.Behind texts s.buffers) (own : f.uri = document.uri) :
      f.version < document.version :=
    lt_version_of_behind behind own newer (natural document listed)
  have before : s.workspace.Obeys (Behind (texts ++ [document]) (s.buffers.insert document))
      (Advances (texts ++ [document])) := by
    refine fun p member => (h.behind p member).mono (fun f _ behind => ?_)
      fun f _ update _ _ advances => ?_
    · refine ⟨behind.pinned, behind.version.imp_right ?_, fun closed buffer opened => ?_⟩
      · rintro ⟨earlier, came, same⟩
        exact ⟨earlier, List.mem_append_left _ came, same⟩
      · by_cases own : f.uri = document.uri
        · rw [own, Buffers.find?_insert_self] at opened
          exact Option.some.inj opened ▸ older behind own
        · rw [Buffers.find?_insert_of_ne own] at opened
          exact behind.older closed buffer opened
    · cases update with
      | editor earlier => exact ⟨List.mem_append_left _ advances.1, advances.2⟩
      | disk uri => exact advances
  have keeps : (Workspace.Operation.change document).Keeps
      (Behind (texts ++ [document]) (s.buffers.insert document))
      (Advances (texts ++ [document])) s.workspace :=
    ⟨⟨listed, diskVersion_lt natural listed⟩,
      fun f tracked own => ⟨listed, older (h.behind.files tracked) own⟩⟩
  exact Workspace.Operation.obeys (regime_behind natural newest) h.lawful before keeps changed

/-- Every action of a conforming client leaves all projects behind. -/
theorem Kept.next {action : Action} (h : Kept config assembler texts s)
    (done : action.apply host s = some s')
    (growing : Growing (texts ++ action.document?.toList))
    (natural : ∀ document ∈ texts ++ action.document?.toList, 0 ≤ document.version) :
    Kept config assembler (texts ++ action.document?.toList) s' := by
  have reached : Reached config assembler s' := h.reached.tail ⟨host, action, done⟩
  cases Action.outcome done with
  | @taken document w _ text changed same =>
    rw [text] at growing natural ⊢
    have newer : ∀ other ∈ texts, other.uri = document.uri → other.version < document.version :=
      fun other came => (List.pairwise_append.mp growing).2.2 other came document (by simp)
    refine ⟨reached, same.buffers ▸ newest_insert h.newest newer, fun p member => ?_⟩
    rw [same.buffers]
    exact h.taken natural newer changed p (same.projects ▸ member)
  | @performed operations w _ silent asked performed same =>
    rw [silent, Option.toList_none, List.append_nil] at natural ⊢
    obtain ⟨-, behind⟩ := foldlM_preserves_of_mem
      (P := fun w => w.Lawful ∧ w.Obeys (Behind texts (action.buffers s)) (Advances texts))
      (fun operation listed _ _ => (asked operation listed).apply natural h.newest) performed
      ⟨h.lawful, h.behind_buffers⟩
    refine ⟨reached, same.buffers ▸ Action.newest h.newest, fun p member => ?_⟩
    rw [same.buffers]
    exact behind p (same.projects ▸ member)
  | dropped silent =>
    rw [silent, Option.toList_none, List.append_nil]
    exact ⟨reached, h.newest, h.behind.dispose⟩

theorem Kept.run {Admits : Action → Prop} {before : List Document}
    (h : Kept config assembler before s) (run : Types Admits s texts s')
    (growing : Growing (before ++ texts))
    (natural : ∀ document ∈ before ++ texts, 0 ≤ document.version) :
    Kept config assembler (before ++ texts) s' := by
  induction run with
  | refl => rwa [List.append_nil]
  | tail run _ done ih =>
    rw [← List.append_assoc] at growing natural ⊢
    have kept := ih (List.pairwise_append.mp growing).1
      fun document came => natural document (List.mem_append_left _ came)
    exact kept.next done growing natural

/-! ## Saved documents -/

/-- The document is open, its file is clean in every project, and no text waits that spoils
this. -/
structure Saved (uri : Uri) (s : Session) : Prop where
  opened : (s.buffers.find? uri).isSome
  clean : s.workspace.Obeys (Clean uri) (Opens uri)

/-- Saving an open document makes its file clean. -/
theorem Kept.saved (h : Kept config assembler texts s)
    (natural : ∀ document ∈ texts, 0 ≤ document.version) (opened : (s.buffers.find? uri).isSome)
    (done : (Action.saved uri).apply host s = some s') : Saved uri s' := by
  obtain ⟨document, found⟩ := Option.isSome_iff_exists.mp opened
  obtain rfl : document.uri = uri := by simpa using List.find?_some found
  simp only [Action.apply, didSave, found] at done
  have done : s.update ((Workspace.Operation.save document).apply (s.sources host)) = some s' :=
    done
  obtain ⟨w, saved, same⟩ := exists_of_update done
  have newest : (s.sources host).buffers.Newest texts := h.newest
  have clean := Workspace.clean_of_save natural newest found h.lawful h.behind saved
  exact ⟨same.buffers ▸ opened, fun p member => clean p (same.projects ▸ member)⟩

theorem Action.isSome_find?_buffers {action : Action} (opened : (s.buffers.find? uri).isSome)
    (other : ¬ action.Concerns uri) : ((action.buffers s).find? uri).isSome := by
  cases action with
  | closed closing =>
    rw [Action.buffers, Buffers.find?_erase, if_neg fun same => other same.symm]
    exact opened
  | _ => exact opened

/-- What an action that is not about the text of a document asks for leaves its file clean. -/
theorem Action.Asks.clean {action : Action} {operation : Workspace.Operation} {w w' : Workspace}
    (natural : ∀ document ∈ texts, 0 ≤ document.version) (newest : s.buffers.Newest texts)
    (opened : (s.buffers.find? uri).isSome) (other : ¬ action.Concerns uri)
    (asked : action.Asks s operation)
    (done : operation.apply ⟨host.disk, action.buffers s⟩ w = some w')
    (h : w.Lawful ∧ w.Obeys (Behind texts (action.buffers s)) (Advances texts))
    (clean : w.Obeys (Clean uri) (Opens uri)) : w'.Obeys (Clean uri) (Opens uri) := by
  have regime : Regime ⟨host.disk, action.buffers s⟩ (Clean uri) (Opens uri) :=
    regime_clean (Action.isSome_find?_buffers opened other)
  have passing (passes : operation.Passes uri) : w'.Obeys (Clean uri) (Opens uri) :=
    operation.obeys regime h.1 clean passes.keeps done
  cases operation with
  | change document => exact asked.elim
  | save document =>
    obtain ⟨rfl, found⟩ := asked
    by_cases own : document.uri = uri
    · exact own ▸ Workspace.clean_of_save natural newest found h.1 h.2 done
    · exact passing own
  | close document =>
    obtain ⟨rfl, -⟩ := asked
    exact passing other
  | disk v =>
    obtain ⟨uris, rfl, listed⟩ := asked
    exact passing fun same => other (same ▸ listed)
  | due => exact passing trivial
  | flush => exact passing trivial
  | replace => exact passing trivial

/-- Every action that is not about the text of the document leaves its file clean. -/
theorem Saved.next {action : Action} (h : Saved uri s) (kept : Kept config assembler texts s)
    (natural : ∀ document ∈ texts, 0 ≤ document.version) (other : ¬ action.Concerns uri)
    (done : action.apply host s = some s') : Saved uri s' := by
  cases Action.outcome done with
  | @taken document w _ text changed same =>
    have passes : document.uri ≠ uri := by
      rintro rfl
      cases action with
      | opened v version text' =>
        obtain rfl := Option.some.inj text
        exact other rfl
      | changed v version changes =>
        simp only [Action.document?] at text
        split at text
        · obtain rfl := Option.some.inj text
          exact other rfl
        · cases text
      | _ => cases text
    have opened : ((s.buffers.insert document).find? uri).isSome := by
      rw [Buffers.find?_insert_of_ne passes.symm]
      exact h.opened
    have keeps : (Workspace.Operation.change document).Keeps (Clean uri) (Opens uri) s.workspace :=
      Workspace.Operation.Passes.keeps passes
    have clean := Workspace.Operation.obeys (regime_clean opened) kept.lawful h.clean keeps changed
    exact ⟨same.buffers ▸ opened, fun p member => clean p (same.projects ▸ member)⟩
  | @performed operations w _ silent asked performed same =>
    obtain ⟨-, clean⟩ := foldlM_preserves_of_mem
      (P := fun w => (w.Lawful ∧ w.Obeys (Behind texts (action.buffers s)) (Advances texts)) ∧
        w.Obeys (Clean uri) (Opens uri))
      (fun operation listed _ _ applied before =>
        ⟨(asked operation listed).apply natural kept.newest applied before.1,
          (asked operation listed).clean natural kept.newest h.opened other applied before.1
            before.2⟩) performed ⟨⟨kept.lawful, kept.behind_buffers⟩, h.clean⟩
    exact ⟨same.buffers ▸ Action.isSome_find?_buffers h.opened other,
      fun p member => clean p (same.projects ▸ member)⟩
  | dropped => exact ⟨h.opened, h.clean.dispose⟩

theorem Saved.run {before : List Document} (h : Saved uri s)
    (kept : Kept config assembler before s)
    (run : Types (fun action => ¬ action.Concerns uri) s texts s')
    (growing : Growing (before ++ texts))
    (natural : ∀ document ∈ before ++ texts, 0 ≤ document.version) : Saved uri s' := by
  induction run with
  | refl => exact h
  | @tail _ _ texts _ _ run other done ih =>
    rw [← List.append_assoc] at growing natural
    have earlier : Growing (before ++ texts) := (List.pairwise_append.mp growing).1
    have versions : ∀ document ∈ before ++ texts, 0 ≤ document.version :=
      fun document came => natural document (List.mem_append_left _ came)
    exact (ih earlier versions).next (kept.run run earlier versions) versions other done

/-- In every run of a conforming client, once an open document was saved, its file is not dirty in
any project that tracks it, and it does not become dirty until the document is opened, changed or
closed again or its file is reported to have changed on the disk. -/
theorem saved_documents_stay_clean {before after : List Document} {s₁ : Session}
    (run : Types (fun _ => True) (start config assembler) before s)
    (opened : (s.buffers.find? uri).isSome) (saved : (Action.saved uri).apply host s = some s₁)
    (later : Types (fun action => ¬ action.Concerns uri) s₁ after s')
    (growing : Growing (before ++ after))
    (natural : ∀ document ∈ before ++ after, 0 ≤ document.version) :
    ∀ p ∈ s'.workspace.projects, ∀ f ∈ p.registry.files, f.uri = uri → f.dirty = false := by
  have earlier : Growing before := (List.pairwise_append.mp growing).1
  have versions : ∀ document ∈ before, 0 ≤ document.version :=
    fun document came => natural document (List.mem_append_left _ came)
  have kept : Kept config assembler before s :=
    (kept_start config assembler).run run earlier versions
  have silent : before ++ (Action.saved uri).document?.toList = before := List.append_nil before
  have kept₁ : Kept config assembler before s₁ :=
    silent ▸ kept.next saved (silent.symm ▸ earlier) (silent.symm ▸ versions)
  have clean := (kept.saved versions opened saved).run kept₁ later growing natural
  exact fun p member f tracked => (clean.clean p member).files f tracked

section revision

/-- A second text of the document. -/
def revision : Document := ⟨.ofPath "/m".toList, 2, "z".toList⟩

/-- The sources while it is open. -/
def revising : Sources := ⟨drafted.disk, [revision]⟩

/-- After the first text was taken in, the second is held back. -/
def revisionHeld : Registry := (queued revising 0 draftShown (.editor revision)).drained

/-- The document was saved while its second text was held back. -/
def revisionSaved : Registry :=
  ((handled revising 2 (queued revising 0 revisionHeld (.editor revision)).released
    (.editor revision)).modify revision.uri fun file => { file with dirty := false }).drained

/-- The timer of the second text finds nothing to do. -/
def revisionKept : Registry :=
  { revisionSaved with debouncer := (revisionSaved.debouncer.takeDue 2).1 }

theorem exists_revisionHeld : ∃ s,
    Types (fun _ => True) (start {} (.ofProgram [] none)) [draft, revision] s ∧
      s.buffers = [revision] ∧ s.workspace.Lone revisionHeld := by
  obtain ⟨s₁, opened, buffers₁, lone₁⟩ := exists_draftHeld
  obtain ⟨s₂, fired, buffers₂, lone₂⟩ := exists_draftShown buffers₁ lone₁
  obtain ⟨s₃, taken, buffers₃, lone₃⟩ : ∃ s, s₂.takeDocument drafted revision = some s ∧
      s.buffers = [revision] ∧ s.workspace.Lone revisionHeld :=
    lone_open lone₂ (by decide +kernel) (by rw [buffers₂]; decide +kernel)
      (updateFromEditor_queued (by decide +kernel) (by decide +kernel))
  have opened : (Action.opened draft.uri draft.version draft.text).apply drafted
      (start {} (.ofProgram [] none)) = some s₁ := opened
  have fired : (Action.timer draftTimer s₁.now).apply drafted s₁ = some s₂ := fired
  have changed : (Action.changed revision.uri revision.version [⟨none, revision.text⟩]).apply
      drafted s₂ = some s₃ := taken
  have first : Types (fun _ => True) (start {} (.ofProgram [] none)) [draft] s₁ :=
    Types.refl.tail trivial opened
  have second : Types (fun _ => True) (start {} (.ofProgram [] none)) [draft] s₂ :=
    first.tail trivial fired
  exact ⟨s₃, second.tail trivial changed, buffers₃, lone₃⟩

/-- A document that is saved while an edit of it is held back is clean, and its timer, which fires
later, leaves it so. -/
theorem held_edit_comes_to_nothing : ∃ s s₁ s',
    Types (fun _ => True) (start {} (.ofProgram [] none)) [draft, revision] s ∧
    s.workspace.pendingTimers = [(⟨1⟩, 2)] ∧
    (Action.saved revision.uri).apply drafted s = some s₁ ∧
    (Action.timer ⟨⟨1⟩, 2, 500⟩ 500).apply drafted s₁ = some s' ∧
    ∃ p ∈ s'.workspace.projects, ∃ f ∈ p.registry.files, f.uri = revision.uri ∧
      f.contents? = some revision.text ∧ f.isOpen ∧ f.dirty = false := by
  obtain ⟨s, run, buffers, lone⟩ := exists_revisionHeld
  have opened : Buffers.find? [revision] revision.uri = some revision := by decide +kernel
  obtain ⟨s₁, saved, buffers₁, lone₁⟩ : ∃ s₁, s.didSave drafted revision.uri = some s₁ ∧
      s₁.buffers = [revision] ∧ s₁.workspace.Lone revisionSaved := by
    refine lone_save lone (by decide +kernel) buffers opened ?_
    rw [markSaved, settleDocument_handled (n := 2) (by decide +kernel) (by decide +kernel)
      (by decide +kernel) (by decide +kernel) (by decide +kernel)]
    rfl
  obtain ⟨s', fired, -, lone'⟩ : ∃ s', { s₁ with now := 500 }.deliver drafted ⟨⟨1⟩, 2, 500⟩ =
      some s' ∧ s'.buffers = [revision] ∧ s'.workspace.Lone revisionKept.drained := by
    have idle : (revisionSaved.debouncer.takeDue 2).2 = none := by decide +kernel
    have late : revisionSaved.flushDue revising 2 = some (revisionKept, false) := by
      simp [flushDue, flush, idle, revisionKept]
    exact lone_fire (s := { s₁ with now := 500 }) lone₁ buffers₁ late
  have timer : (Action.timer ⟨⟨1⟩, 2, 500⟩ 500).apply drafted s₁ = some s' := fired
  have later : Types (fun action => ¬ action.Concerns revision.uri) s₁ [] s' :=
    Types.refl.tail (fun concerned => concerned) timer
  have known : (s.buffers.find? revision.uri).isSome := by rw [buffers, opened]; rfl
  have clean := saved_documents_stay_clean run known saved later (by unfold Growing; decide +kernel)
    (by decide)
  obtain ⟨p, projects, registry, -⟩ := lone'
  have member : p ∈ s'.workspace.projects := by simp [projects]
  obtain ⟨f, found, shown⟩ : ∃ f, p.registry.find? revision.uri = some f ∧
      (f.contents?, f.isOpen) = (some revision.text, true) := by
    rw [registry]
    exact Option.map_eq_some_iff.mp (by decide +kernel)
  obtain ⟨text, isOpen⟩ := Prod.mk.inj shown
  have tracked : f ∈ p.registry.files := mem_of_find? found
  refine ⟨s, s₁, s', run, ?_, saved, timer, p, member, f, tracked, uri_of_find? found, text, isOpen,
    clean p member f tracked (uri_of_find? found)⟩
  obtain ⟨q, only, first, id⟩ := lone
  have generation : revisionHeld.pending? = some 2 := by decide +kernel
  simp [Workspace.pendingTimers, only, Project.pending?, first, id, generation]

end revision

end Session

end AsmServer
