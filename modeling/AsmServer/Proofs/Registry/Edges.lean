import AsmServer.Proofs.Registry.Lookup

/-!
# Edges from scratch

The edges of a file are updated from its old ones. `includeEdges` says what the edges of
a text are without any history: each include that resolves makes an edge, in the order of
the lines, unless an earlier include of the file leads to the same target. Where every
old edge names its file as its parent, the update has the same outcome, so the edges of a
file depend on its text and on what can be included, and not on how they came about.
-/

namespace AsmServer

/-- The first edge to each target. -/
def Dependency.firsts : List Dependency → List Dependency
  | [] => []
  | edge :: rest => edge :: (firsts rest).filter (·.uri ≠ edge.uri)

/-- The edges of the file `parent` from scratch, where `resolve?` finds the target of an
include by its name. -/
def includeEdges (resolve? : Text → Option Uri) (parent : Uri)
    (directives : List Code.Include) : List Dependency :=
  Dependency.firsts (directives.filterMap fun directive =>
    (resolve? directive.name).map fun target => ⟨parent, directive.name, target, directive.range⟩)

namespace Dependency

theorem mem_of_mem_firsts {edge : Dependency} {edges : List Dependency}
    (h : edge ∈ firsts edges) : edge ∈ edges := by
  induction edges with
  | nil => exact h
  | cons first rest ih =>
    rcases List.mem_cons.mp h with rfl | h
    · exact List.mem_cons_self
    · exact List.mem_cons_of_mem _ (ih (List.mem_of_mem_filter h))

theorem firsts_nodup (edges : List Dependency) : ((firsts edges).map (·.uri)).Nodup := by
  induction edges with
  | nil => simp [firsts]
  | cons first rest ih =>
    refine List.nodup_cons.mpr ⟨?_, ih.sublist ((List.filter_sublist).map _)⟩
    simp

end Dependency

section includeEdges

variable {resolve? : Text → Option Uri} {parent : Uri} {directives : List Code.Include}

theorem includeEdges_nodup : ((includeEdges resolve? parent directives).map (·.uri)).Nodup :=
  Dependency.firsts_nodup _

/-- Every edge belongs to an include that resolves to its target. -/
theorem mem_includeEdges {edge : Dependency}
    (h : edge ∈ includeEdges resolve? parent directives) :
    edge.parent = parent ∧ resolve? edge.name = some edge.uri := by
  obtain ⟨directive, _, made⟩ := List.mem_filterMap.mp (Dependency.mem_of_mem_firsts h)
  obtain ⟨target, found, rfl⟩ := Option.map_eq_some_iff.mp made
  exact ⟨rfl, found⟩

theorem exists_directive_of_mem {edge : Dependency}
    (h : edge ∈ includeEdges resolve? parent directives) :
    ∃ directive ∈ directives, directive.name = edge.name := by
  obtain ⟨directive, listed, made⟩ := List.mem_filterMap.mp (Dependency.mem_of_mem_firsts h)
  obtain ⟨target, -, rfl⟩ := Option.map_eq_some_iff.mp made
  exact ⟨directive, listed, rfl⟩

theorem includeEdges_congr {resolve'? : Text → Option Uri}
    (same : ∀ directive ∈ directives, resolve? directive.name = resolve'? directive.name) :
    includeEdges resolve? parent directives = includeEdges resolve'? parent directives := by
  unfold includeEdges
  congr 1
  refine List.filterMap_congr fun directive h => ?_
  rw [same directive h]

end includeEdges

namespace Registry

/-! ## One include after the other -/

namespace EdgeDiff

variable {diff : EdgeDiff} {parent target : Uri} {directive : Code.Include}

/-- An edge taken over from the old ones looks like one made anew. -/
theorem link_new (owned : ∀ edge ∈ diff.old, edge.parent = parent) :
    (diff.link parent target directive).new =
      if target ∈ diff.new.map (·.uri) then diff.new
      else diff.new ++ [⟨parent, directive.name, target, directive.range⟩] := by
  by_cases known : target ∈ diff.new.map (·.uri)
  · have : diff.new.any (·.uri == target) = true := by simpa using known
    simp [link, this, known]
  · have : diff.new.any (·.uri == target) = false := by simpa using known
    rw [if_neg known]
    unfold link
    rw [this]
    cases found : diff.old.find? (·.uri == target) with
    | none => simp
    | some kept =>
      have target' : kept.uri = target := by simpa using List.find?_some found
      have parent' : kept.parent = parent := owned kept (List.mem_of_find?_eq_some found)
      simp [← target', ← parent']

theorem mem_old_of_link {edge : Dependency} (h : edge ∈ (diff.link parent target directive).old) :
    edge ∈ diff.old := by
  unfold link at h
  split at h
  · exact h
  · split at h
    · exact List.mem_of_mem_eraseP h
    · exact h

end EdgeDiff

section step

variable {r : Registry} {sources : Sources} {uri : Uri} {searchPath : List Text}

/-- Taking includes into account one by one appends the edges made from scratch whose
targets are new. -/
theorem foldl_step_new (directives : List Code.Include) (diff : EdgeDiff)
    (owned : ∀ edge ∈ diff.old, edge.parent = uri) :
    (directives.foldl (EdgeDiff.step r sources uri searchPath) diff).new =
      diff.new ++
        (includeEdges (r.resolve? sources (baseDir uri) searchPath) uri directives).filter
          (·.uri ∉ diff.new.map (·.uri)) := by
  induction directives generalizing diff with
  | nil => simp [includeEdges, Dependency.firsts]
  | cons directive rest ih =>
    rw [List.foldl_cons]
    cases found : r.resolve? sources (baseDir uri) searchPath directive.name with
    | none =>
      have stays : EdgeDiff.step r sources uri searchPath diff directive = diff := by
        simp [EdgeDiff.step, found]
      rw [stays, ih diff owned]
      simp [includeEdges, found]
    | some target =>
      have linked : EdgeDiff.step r sources uri searchPath diff directive
          = diff.link uri target directive := by
        simp [EdgeDiff.step, found]
      rw [linked, ih _ fun edge h => owned edge (EdgeDiff.mem_old_of_link h),
        EdgeDiff.link_new owned]
      set later := includeEdges (r.resolve? sources (baseDir uri) searchPath) uri rest
      have cons : includeEdges (r.resolve? sources (baseDir uri) searchPath) uri
          (directive :: rest)
          = ⟨uri, directive.name, target, directive.range⟩ :: later.filter (·.uri ≠ target) := by
        simp [includeEdges, found, Dependency.firsts, later]
      rw [cons]
      by_cases known : target ∈ diff.new.map (·.uri)
      · rw [if_pos known, List.filter_cons_of_neg (by simpa using known), List.filter_filter]
        congr 1
        refine List.filter_congr fun edge _ => ?_
        by_cases same : edge.uri = target <;> simp_all
      · rw [if_neg known, List.filter_cons_of_pos (by simpa using known), List.filter_filter,
          List.append_assoc, List.singleton_append]
        congr 2
        refine List.filter_congr fun edge _ => ?_
        simp

end step

/-- Updating the edges of a file is computing them from scratch. -/
theorem edges_eq_includeEdges {r : Registry} {sources : Sources} {file : TrackedFile}
    (owned : ∀ edge ∈ file.dependencies, edge.parent = file.uri) :
    r.edges sources file =
      includeEdges (r.resolve? sources (baseDir file.uri) (Code.searchPath file.lines)) file.uri
        (Code.includes file.lines) := by
  unfold edges
  rw [foldl_step_new _ _ owned]
  simp

/-! ## Bringing a file up to date -/

section renew

variable {r : Registry} {sources : Sources} {update : Update} {u v : Uri} {f : TrackedFile}

@[simp] theorem refresh_uri : (f.refresh sources update).uri = f.uri := by
  cases update <;> rfl

@[simp] theorem refresh_dependencies :
    (f.refresh sources update).dependencies = f.dependencies := by
  cases update <;> rfl

/-- A file with the text of an update and the edges of that text. -/
def renewed (r : Registry) (sources : Sources) (update : Update) (f : TrackedFile) :
    TrackedFile :=
  let refreshed := f.refresh sources update
  { refreshed with
    dependencies := (r.modify update.uri (·.refresh sources update)).edges sources refreshed }

@[simp] theorem renewed_uri : (r.renewed sources update f).uri = f.uri := refresh_uri

@[simp] theorem renewed_contents? :
    (r.renewed sources update f).contents? = (f.refresh sources update).contents? := rfl

@[simp] theorem renewed_version :
    (r.renewed sources update f).version = (f.refresh sources update).version := rfl

@[simp] theorem renewed_document? :
    (r.renewed sources update f).document? = (f.refresh sources update).document? := rfl

theorem renew_eq_modify :
    r.renew sources update = r.modify update.uri (r.renewed sources update) := by
  simp only [renew, link, modify, List.map_map]
  congr 1
  refine List.map_congr_left fun f _ => ?_
  by_cases h : f.uri = update.uri <;> simp [h, renewed, modify]

@[simp] theorem entry?_renew : entry? (r.renew sources update) = r.entry? := rfl

@[simp] theorem renew_debouncer : (r.renew sources update).debouncer = r.debouncer := rfl

@[simp] theorem renew_events : (r.renew sources update).events = r.events := rfl

@[simp] theorem uris_renew : (r.renew sources update).uris = r.uris := by
  rw [renew_eq_modify, uris_modify fun _ => renewed_uri]

theorem find?_renew :
    (r.renew sources update).find? v =
      if v = update.uri then (r.find? v).map (r.renewed sources update) else r.find? v := by
  rw [renew_eq_modify, find?_modify fun _ => renewed_uri]

theorem mem_renew (h : f ∈ (r.renew sources update).files) :
    ∃ g ∈ r.files, f.uri = g.uri ∧
      (g.uri = update.uri ∧ f = r.renewed sources update g ∨ g.uri ≠ update.uri ∧ f = g) := by
  rw [renew_eq_modify, mem_modify] at h
  obtain ⟨g, hg, rfl⟩ := h
  by_cases same : g.uri = update.uri
  · exact ⟨g, hg, by simp [same], .inl ⟨same, by simp [same]⟩⟩
  · exact ⟨g, hg, by simp [same], .inr ⟨same, by simp [same]⟩⟩

theorem targets_renew_of_ne (other : v ≠ update.uri) :
    (r.renew sources update).targets v = r.targets v := by
  simp [targets, find?_renew, other]

end renew

end Registry

end AsmServer
