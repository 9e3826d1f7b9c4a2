import AsmServer.Proofs.Registry.Flattening
import Mathlib.Data.List.TakeWhile

/-!
# Where keys lead

A key is put together from the names on a route, and so is the path of the file at its end,
but by two different rules. The path is resolved from the root with every step, and climbing
stops there. The key is resolved from where the entry file is: it keeps the steps up that it
cannot take back, and an absolute name in between starts it anew.

Both are read segment by segment. If what a key means in the directory of the entry file is
the directory of an included file, then the next name leads on from both in the same way, as
long as its file is looked for beside its includer and the name ends with the name of a file.
So the key, seen from the directory of the entry file, gives back the file.

An absolute name is its own key, but the keys of what its file includes lose the root: they
lead to their files from the root and not from the directory of the entry file.
-/

namespace AsmServer

namespace Path

variable {names : List Text} {text last : Text}

/-! ## The last name of a path -/

theorem foldl_enter_vacant {after : List Text}
    (vacant : ∀ segment ∈ after, isVacant segment = true) :
    after.foldl enter names = names := by
  induction after with
  | nil => rfl
  | cons segment rest ih =>
    obtain ⟨here, later⟩ := List.forall_mem_cons.mp vacant
    rw [List.foldl_cons, enter, if_pos here, ih later]

/-- What is dropped at the end leads nowhere. -/
theorem foldl_enter_dropVacantEnd (segments : List Text) :
    (dropVacantEnd segments).foldl enter names = segments.foldl enter names := by
  have whole :
      segments = dropVacantEnd segments ++ (segments.reverse.takeWhile isVacant).reverse := by
    rw [dropVacantEnd, ← List.reverse_append, List.takeWhile_append_dropWhile,
      List.reverse_reverse]
  conv_rhs => rw [whole, List.foldl_append]
  refine (foldl_enter_vacant fun segment member => ?_).symm
  exact List.mem_takeWhile_imp (List.mem_reverse.mp member)

theorem dropVacantEnd_eq_concat {before after : List Text} (solid : isVacant last = false)
    (vacant : ∀ segment ∈ after, isVacant segment = true) :
    dropVacantEnd (before ++ last :: after) = before ++ [last] := by
  have reversed : (before ++ last :: after).reverse = after.reverse ++ last :: before.reverse := by
    simp
  rw [dropVacantEnd, reversed, List.dropWhile_append_of_pos (by simpa using vacant),
    List.dropWhile_cons_of_neg (by simp [solid])]
  simp

theorem splitOn_cons_slash (body : Text) : ('/' :: body).splitOn '/' = [] :: body.splitOn '/' := by
  rw [List.splitOn_cons_eq_if_modifyHead]
  rfl

theorem place_join_of_whole {segments : List Text} (whole : ∀ segment ∈ segments, '/' ∉ segment) :
    place ('/' :: Text.join ['/'] segments) = segments.foldl enter [] := by
  rw [place, splitOn_cons_slash, List.foldl_cons, enter_nil]
  by_cases empty : segments = []
  · rw [empty]
    rfl
  · exact congrArg (List.foldl enter []) (List.splitOn_intercalate _ whole empty)

theorem solid_of_component {segment : Text} {component : Component}
    (h : Component.ofSegment? segment = some component) : isVacant segment = false := by
  cases vacant : isVacant segment with
  | false => rfl
  | true => simp [Component.ofSegment?, vacant] at h

theorem vacant_of_component {segment : Text} (h : Component.ofSegment? segment = none) :
    isVacant segment = true := by
  unfold Component.ofSegment? at h
  split_ifs at h with vacant
  exact vacant

theorem eq_of_component {segment name : Text}
    (h : Component.ofSegment? segment = some (.name name)) : segment = name := by
  unfold Component.ofSegment? at h
  split_ifs at h
  · cases h
  · exact Component.name.inj (Option.some.inj h)

/-- Only vacant segments follow the name at the end of a path. -/
theorem exists_last (named : fileName? text = some last) :
    ∃ before after, text.splitOn '/' = before ++ last :: after ∧
      Component.ofSegment? last = some (.name last) ∧
      ∀ segment ∈ after, isVacant segment = true := by
  have ends : (components text).getLast? = some (.name last) := by
    unfold fileName? at named
    split at named
    · next final => rw [final, Option.some.inj named]
    · cases named
  have found : (text.splitOn '/').reverse.findSome? Component.ofSegment? = some (.name last) := by
    rw [components, List.getLast?_append, List.getLast?_filterMap] at ends
    refine (Option.or_eq_some_iff.mp ends).resolve_right ?_
    rintro ⟨-, first⟩
    split_ifs at first <;> simp at first
  obtain ⟨after, segment, before, whole, here, later⟩ := List.findSome?_eq_some_iff.mp found
  obtain rfl := eq_of_component here
  refine ⟨before.reverse, after.reverse, ?_, here, fun s member => ?_⟩
  · simpa using congrArg List.reverse whole
  · exact vacant_of_component (later s (List.mem_reverse.mp member))

/-- The name at the end of an absolute path follows its directory. -/
theorem place_eq_concat (absolute : isAbsolute text = true) (named : fileName? text = some last) :
    place text = place ((parent? text).getD []) ++ [last] := by
  obtain ⟨body, rfl⟩ : ∃ body, text = '/' :: body :=
    List.head?_eq_some_iff.mp (by simpa [isAbsolute] using absolute)
  obtain ⟨before, after, pieces, component, vacant⟩ := exists_last named
  have solid := solid_of_component component
  -- The slash in front makes an empty segment.
  obtain ⟨before, rfl⟩ : ∃ rest, before = [] :: rest := by
    rw [splitOn_cons_slash] at pieces
    cases before with
    | nil =>
      rw [List.nil_append] at pieces
      simp [← (List.cons.inj pieces).1, isVacant] at solid
    | cons first rest => exact ⟨rest, by rw [(List.cons.inj pieces).1]⟩
  have split : body.splitOn '/' = before ++ last :: after := by
    rw [splitOn_cons_slash] at pieces
    exact (List.cons.inj pieces).2
  have parent :
      (parent? ('/' :: body)).getD [] = '/' :: Text.join ['/'] (dropVacantEnd before) := by
    have ends : dropVacantEnd (body.splitOn '/') = before ++ [last] := by
      rw [split, dropVacantEnd_eq_concat solid vacant]
    unfold parent?
    simp [isAbsolute, ends]
  have above : place ('/' :: Text.join ['/'] (dropVacantEnd before)) = before.foldl enter [] := by
    rw [place_join_of_whole, foldl_enter_dropVacantEnd]
    intro segment member
    have kept : segment ∈ before := by
      have := List.mem_reverse.mp member
      exact List.mem_reverse.mp ((List.dropWhile_sublist _).subset this)
    exact (Text.mem_splitOn (split ▸ List.mem_append_left _ kept)).1
  rw [parent, above, place, pieces, List.cons_append, List.foldl_cons, enter_nil, List.foldl_append,
    List.foldl_cons, foldl_enter_vacant vacant, enter_of_component component]

/-- A descent along a path that ends with a name ends with this name. -/
theorem Descent.names_ne_nil {path : Descent} (named : fileName? text = some last) :
    ((text.splitOn '/').foldl Descent.enter path).names ≠ [] := by
  obtain ⟨before, after, pieces, component, vacant⟩ := exists_last named
  have idle (start : Descent) : after.foldl Descent.enter start = start := by
    clear pieces
    induction after with
    | nil => rfl
    | cons segment rest ih =>
      obtain ⟨here, later⟩ := List.forall_mem_cons.mp vacant
      have stays : start.enter segment = start := by
        simp [Descent.enter, Component.ofSegment?, here]
      rw [List.foldl_cons, stays, ih later]
  rw [pieces, List.foldl_append, List.foldl_cons, idle]
  simp [Descent.enter, component, follow]

end Path

/-- Paths to one place, up to the case of a drive letter, have one URI. -/
theorem Uri.ofPath_congr {path other : Text}
    (same : SameDrive (Path.place (Text.slashed path)) (Path.place (Text.slashed other))) :
    ofPath path = ofPath other := by
  rw [ofPath, ofPath, canonicalPath_eq_rooted, canonicalPath_eq_rooted, ownPlace, ownPlace, same]

/-- Whether the include has an absolute name. -/
def Dependency.isRooted (edge : Dependency) : Bool := Path.isAbsolute (Text.slashed edge.name)

/-- The include names a file and means it by an absolute name or as seen from the directory of
its includer. -/
structure Dependency.Near (edge : Dependency) : Prop where
  named : (Path.fileName? (Text.slashed edge.name)).isSome
  found : edge.isRooted = true ∨ edge.uri = edge.parent.beside (Text.slashed edge.name)

namespace Registry

variable {r : Registry} {u uri entry : Uri} {f : TrackedFile} {base dir key name : Text}
  {path : List Dependency}

/-! ## Keys and directories -/

/-- In the directory `base`, the directory of a key means that of a file, up to the case of a
drive letter. -/
structure Aims (base dir : Text) (uri : Uri) : Prop where
  proper : ∀ name ∈ (Path.Descent.ofPath dir).names, Path.IsName name
  same : Uri.SameDrive ((Path.Descent.ofPath dir).onto (Path.place (Text.slashed base)))
    (Path.place (Text.slashed (baseDir uri)))

/-- No key has the directory of the entry file itself. -/
theorem aims_nil : Aims (baseDir uri) [] uri where
  proper _ member := by cases member
  same := rfl

theorem slashed_slashed : Text.slashed (Text.slashed name) = Text.slashed name :=
  Path.slashed_of_not_mem Path.backslash_not_mem_slashed

/-- Beside a file whose directory is known, the key of an include means its file, and the
directory of the key that of the file. -/
theorem Aims.beside (h : Aims base dir uri)
    (relative : Path.isAbsolute (Text.slashed name) = false)
    (named : (Path.fileName? (Text.slashed name)).isSome) :
    Uri.ofPath (Path.append base (includeKey dir name)) = uri.beside (Text.slashed name) ∧
      Path.isAbsolute (includeKey dir name) = false ∧
      Aims base (keyDir (includeKey dir name)) (uri.beside (Text.slashed name)) := by
  obtain ⟨last, named⟩ := Option.isSome_iff_exists.mp named
  set segments := (Text.slashed name).splitOn '/' with pieces
  set descent := Path.Descent.ofPath (Path.append dir (Text.slashed name)) with spelled
  set opened := Path.append (Path.append (baseDir uri) ['.']) (Text.slashed name) with opens
  have followed : descent = segments.foldl Path.Descent.enter (Path.Descent.ofPath dir) :=
    Path.Descent.ofPath_append relative
  have key : includeKey dir name = descent.toText := by
    rw [includeKey, if_neg (by simp [relative])]
    rfl
  have some : descent.names ≠ [] := followed ▸ Path.Descent.names_ne_nil named
  have proper : ∀ name ∈ descent.names, Path.IsName name := by
    have within : descent.names <:+ segments.foldl Path.enter (Path.Descent.ofPath dir).names := by
      rw [followed]
      exact Path.Descent.foldl_enter_suffix (List.suffix_refl _)
    intro name member
    refine Uri.isName_of_mem_foldl (fun _ member => (Text.mem_splitOn member).1)
      (fun _ member inside => ?_) h.proper name (within.subset member)
    exact Path.backslash_not_mem_slashed ((Text.mem_splitOn member).2 inside)
  have steps : ∀ segment ∈ descent.segments, Path.IsStep segment := fun _ =>
    Path.Descent.isStep_of_mem_segments proper
  have text : includeKey dir name = Text.join ['/'] descent.segments := key
  have level : Path.isAbsolute (includeKey dir name) = false := by
    rw [text]
    exact Path.isAbsolute_parts fun segment member => (steps segment member).isPart
  -- The key and the path are read by the same segments.
  have same : Uri.SameDrive (descent.onto (Path.place (Text.slashed base)))
      (Path.place (Text.slashed opened)) := by
    rw [followed, Path.Descent.onto_foldl_enter (Path.Descent.plain_ofPath dir), opens,
      Path.place_slashed_append relative, slashed_slashed, Path.place_slashed_append (by decide)]
    exact h.same.foldl_enter segments
  refine ⟨?_, level, ?_⟩
  · refine Uri.ofPath_congr ?_
    have straight : Text.slashed (includeKey dir name) = includeKey dir name := by
      rw [text]
      exact Path.slashed_of_not_mem (Path.backslash_not_mem_join fun segment member =>
        (steps segment member).straight)
    have whole : descent.segments ≠ [] := by simp [Path.Descent.segments, some]
    rw [Path.place_slashed_append level, straight, text,
      Path.splitOn_parts (fun segment member => (steps segment member).isPart) whole]
    exact same
  · have above : descent.parent = { descent with names := descent.names.dropLast } := if_neg some
    have proper' : ∀ name ∈ descent.parent.names, Path.IsName name := by
      rw [above]
      exact fun name member => proper name ((List.dropLast_sublist _).subset member)
    have directory : Path.Descent.ofPath (keyDir (includeKey dir name)) = descent.parent := by
      rw [key, keyDir, Path.Descent.parent?_toText (Path.Descent.proper_of_isName proper),
        Path.Descent.ofPath_toText (Path.Descent.proper_of_isName proper')]
    refine ⟨directory ▸ proper', ?_⟩
    rw [directory, above, Path.Descent.onto_dropLast (Path.Descent.plain_of_isName proper) some,
      Uri.beside, Uri.place_baseDir]
    exact Eq.trans same.dropLast (Eq.symm Uri.SameDrive.lower.dropLast)

/-- An absolute name is its own key, and from the root the directory of the key means that of
its file. -/
theorem aims_rooted (absolute : Path.isAbsolute (Text.slashed name) = true)
    (named : (Path.fileName? (Text.slashed name)).isSome) :
    Aims ['/'] (keyDir (Text.slashed name)) (.ofPath (Text.slashed name)) := by
  obtain ⟨last, named⟩ := Option.isSome_iff_exists.mp named
  have ends : Path.place (Text.slashed name) = Path.place (keyDir (Text.slashed name)) ++ [last] :=
    Path.place_eq_concat absolute named
  constructor
  · have within : (Path.Descent.ofPath (keyDir (Text.slashed name))).names <:+
        Path.place (keyDir (Text.slashed name)) := by
      rw [Path.Descent.ofPath_eq_foldl]
      exact Path.Descent.foldl_enter_suffix List.nil_suffix
    intro part member
    have inside : part ∈ Path.place (Text.slashed name) := by
      rw [ends]
      exact List.mem_append_left _ (within.subset member)
    exact Uri.isName_place_slashed inside
  · have top : Path.place (Text.slashed ['/']) = [] := rfl
    have directory :
        Path.place (keyDir (Text.slashed name)) = (Path.place (Text.slashed name)).dropLast := by
      rw [ends, List.dropLast_concat]
    rw [top, Path.Descent.onto_ofPath, directory, Uri.place_baseDir, Uri.ownPlace, slashed_slashed]
    exact Eq.symm Uri.SameDrive.lower.dropLast

/-! ## Keys of routes -/

/-- Every edge leads to what its name means. -/
theorem uri_of_near {edge : Dependency} (consistent : r.Consistent entry)
    (listed : edge ∈ r.outgoing u) (near : edge.Near) :
    edge.uri = if edge.isRooted then .ofPath (Text.slashed edge.name)
      else u.beside (Text.slashed edge.name) := by
  obtain ⟨f, found, own⟩ := mem_outgoing listed
  have known := consistent.files f (mem_of_find? found)
  have candidate := (known.sourced edge own).2
  split_ifs with rooted
  · have absolute : Path.isAbsolute (Text.slashed edge.name) = true := rooted
    rw [candidates, if_pos absolute] at candidate
    exact List.mem_singleton.mp candidate
  · have parent : edge.parent = u := (known.owned edge own).trans (uri_of_find? found)
    exact parent ▸ near.found.resolve_left rooted

/-- The directory from which the key of a route leads to its file: after an absolute name the
root, and else the directory of the entry file. -/
def origin (base : Text) (path : List Dependency) : Text :=
  if path.any (·.isRooted) then ['/'] else base

theorem Aims.step {edge : Dependency} (h : Aims base dir u) (consistent : r.Consistent entry)
    (listed : edge ∈ r.outgoing u) (near : edge.Near) :
    Uri.ofPath (Path.append (origin base [edge]) (includeKey dir edge.name)) = edge.uri ∧
      Path.isAbsolute (includeKey dir edge.name) = edge.isRooted ∧
      Aims (origin base [edge]) (keyDir (includeKey dir edge.name)) edge.uri := by
  have leads := uri_of_near consistent listed near
  by_cases rooted : edge.isRooted = true
  · have absolute : Path.isAbsolute (Text.slashed edge.name) = true := rooted
    have key : includeKey dir edge.name = Text.slashed edge.name := if_pos absolute
    have from_root : origin base [edge] = ['/'] := by simp [origin, rooted]
    rw [if_pos rooted] at leads
    rw [key, from_root, leads, Path.append, if_pos absolute]
    exact ⟨rfl, rfl, aims_rooted absolute near.named⟩
  · have level : Path.isAbsolute (Text.slashed edge.name) = false :=
      (Bool.not_eq_true _).mp rooted
    have from_base : origin base [edge] = base := by simp [origin, rooted]
    rw [if_neg rooted] at leads
    rw [from_base, leads]
    obtain ⟨means, relative, further⟩ := h.beside level near.named
    exact ⟨means, relative.trans level.symm, further⟩

/-- Seen from its origin, the key of a route means the file at the end. -/
theorem Aims.route (h : Aims base (keyDir key) u) (consistent : r.Consistent entry)
    (route : r.Route u path f) (near : ∀ edge ∈ path, edge.Near) :
    Uri.ofPath (Path.append (origin base path) (keyAlong key path)) = f.uri ∧
      Path.isAbsolute (keyAlong key path) = path.getLast?.any (·.isRooted) := by
  induction route generalizing base key with
  | arrive listed found loaded =>
    obtain ⟨means, absolute, -⟩ := h.step consistent listed (near _ List.mem_cons_self)
    exact ⟨means.trans (uri_of_find? found).symm, absolute⟩
  | @pass u edge g f path listed found loaded onward ih =>
    obtain ⟨here, later⟩ := List.forall_mem_cons.mp near
    obtain ⟨-, -, further⟩ := h.step consistent listed here
    have same : origin (origin base [edge]) path = origin base (edge :: path) := by
      by_cases rooted : edge.isRooted = true <;> simp [origin, rooted]
    obtain ⟨next, rest, rfl⟩ := List.exists_cons_of_ne_nil onward.ne_nil
    rw [keyAlong_cons, ← same, List.getLast?_cons_cons]
    exact ih further later

section rooted

/-- A file includes the one beside it. -/
def rooted : Sources where
  disk := [stored "/q/a" " include b", stored "/q/b" " nop"]

/-- The entry file, elsewhere, includes it by its absolute name. -/
def rootedText : Document := ⟨.ofPath "/p/m".toList, 1, " include /q/a".toList⟩

/-- Everything is loaded. -/
def rootedFiles : Registry :=
  queued rooted 8 ((blank 0).add rootedText.uri) (.editor rootedText)

/-- The edges on the way to the last file. -/
def rootedWay : List Dependency :=
  [⟨rootedText.uri, "/q/a".toList, .ofPath "/q/a".toList, ⟨⟨0, 9⟩, ⟨0, 13⟩⟩⟩,
    ⟨.ofPath "/q/a".toList, "b".toList, .ofPath "/q/b".toList, ⟨⟨0, 9⟩, ⟨0, 10⟩⟩⟩]

theorem track_rooted : track 0 [(rooted, rootedText)] = some rootedFiles := by
  have added : (blank 0).addDocument rooted rootedText = some rootedFiles := by
    rw [addDocument_blank_eq_queue]
    exact queue_eq_queued (by decide +kernel)
  simp [track, added]

theorem route_rooted :
    ∃ f, rootedFiles.Route rootedText.uri rootedWay f ∧ f.uri = .ofPath "/q/b".toList := by
  have met : (rootedWay, Uri.ofPath "/q/b".toList) ∈
      (rootedFiles.routes 2 rootedText.uri).map fun way => (way.1, way.2.uri) := by
    decide +kernel
  obtain ⟨⟨path, f⟩, listed, same⟩ := List.mem_map.mp met
  obtain ⟨rfl, ends⟩ := Prod.mk.inj same
  exact ⟨f, (mem_routes.mp listed).1, ends⟩

theorem near_rooted : ∀ edge ∈ rootedWay, edge.Near := by
  refine List.forall_mem_cons.mpr ⟨⟨by decide, .inl (by decide)⟩, List.forall_mem_singleton.mpr ?_⟩
  exact ⟨by decide, .inr (by decide +kernel)⟩

end rooted

/-- After any history of a registry with a file as its entry file, the key of a route on which
every include means what its name says there leads to the file at the end: from the directory
of the entry file if no include but the last has an absolute name, and from the root if any
has. A key is absolute only if the last include is, so what a file includes that was itself
included by an absolute name has its key from the root, but without the root. -/
theorem keys_lead_to_files {delay : Nat} {documents : List (Sources × Document)}
    {operations : List (Sources × Operation)} {tracked : Registry}
    (tracking : track delay documents = some tracked)
    (history : tracked.perform operations = some r) (first : r.entry? = some entry)
    (file : entry.parentDir = .ok base) (route : r.Route entry path f)
    (near : ∀ edge ∈ path, edge.Near) :
    ((∀ edge ∈ path.dropLast, edge.isRooted = false) →
        Uri.ofPath (Path.append base (keyAlong [] path)) = f.uri) ∧
      ((∃ edge ∈ path, edge.isRooted = true) →
        Uri.ofPath (Path.append ['/'] (keyAlong [] path)) = f.uri) ∧
      Path.isAbsolute (keyAlong [] path) = path.getLast?.any (·.isRooted) ∧
      ∀ includes, r.flatten = .ok includes → (keyAlong [] path, f) ∈ r.handed := by
  have sound := ((lasting_track tracking).perform history).started.sound first
  have own : baseDir entry = base := by simp [baseDir, file, Except.toOption]
  have aims : Aims base (keyDir []) entry := own ▸ aims_nil
  obtain ⟨means, absolute⟩ := aims.route sound.toConsistent route near
  refine ⟨fun before => ?_, fun after => ?_, absolute, fun includes flattened => ?_⟩
  · obtain ⟨early, last, rfl⟩ := (List.eq_nil_or_concat' path).resolve_left route.ne_nil
    rw [List.dropLast_concat] at before
    cases final : last.isRooted with
    | false =>
      have from_entry : origin base (early ++ [last]) = base := by
        refine if_neg ?_
        simpa [final] using before
      rwa [from_entry] at means
    | true =>
      -- An absolute key means the same from everywhere.
      rw [List.getLast?_concat, Option.any_some, final] at absolute
      rwa [Path.append, if_pos absolute] at means ⊢
  · have from_root : origin base path = ['/'] := if_pos (List.any_eq_true.mpr after)
    rwa [from_root] at means
  · exact (mem_handed_iff sound flattened).mpr ⟨path, route, rfl⟩

/-- The key of a file beside an absolutely included one leads to it from the root. -/
theorem rooted_key_leads :
    Uri.ofPath (Path.append ['/'] (keyAlong [] rootedWay)) = .ofPath "/q/b".toList := by
  have still : rootedFiles.perform [] = some rootedFiles := rfl
  have first : rootedFiles.entry? = some rootedText.uri := by
    decide +kernel
  have directory : rootedText.uri.parentDir = .ok "/p".toList := by
    decide +kernel
  obtain ⟨f, route, ends⟩ := route_rooted
  obtain ⟨-, leads, -, -⟩ := keys_lead_to_files track_rooted still first directory route near_rooted
  exact (leads ⟨_, List.mem_cons_self, by decide⟩).trans ends

/-- From the directory of the entry file it leads elsewhere, since it has lost the root. -/
theorem rooted_key_leads_astray :
    track 0 [(rooted, rootedText)] = some rootedFiles ∧
      rootedFiles.flatten =
        .ok [("/q/a".toList, " include b".toList), ("q/b".toList, " nop".toList)] ∧
      rootedText.uri.parentDir = .ok "/p".toList ∧
      (∃ f, rootedFiles.Route rootedText.uri rootedWay f ∧ f.uri = .ofPath "/q/b".toList) ∧
      (∀ edge ∈ rootedWay, edge.Near) ∧ keyAlong [] rootedWay = "q/b".toList ∧
      Uri.ofPath (Path.append "/p".toList (keyAlong [] rootedWay)) ≠ .ofPath "/q/b".toList := by
  refine ⟨track_rooted, ?_, ?_, route_rooted, near_rooted, ?_, ?_⟩
  · decide +kernel
  · decide +kernel
  · decide +kernel
  · decide +kernel

end Registry

end AsmServer
