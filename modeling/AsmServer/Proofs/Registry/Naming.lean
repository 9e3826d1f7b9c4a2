import AsmServer.Proofs.Catalog
import AsmServer.Proofs.Registry.Termination
import AsmServer.Proofs.Uri.Relative
import AsmServer.Workspace.Flatten

/-!
# Names for the assembler and back

The walk along the includes hands files over to the assembler, each under a key, and of two
files with one key the first counts. The assembler then speaks of files by their keys. A key
is looked up in two ways: as the name in some include directive, whichever file holds it,
and, if no directive has that name, as the end of a path.

Neither need lead to the file that was handed over, since two directives in different
directories may have one name, and a file that was found elsewhere than its includer need
not have the key at the end of its path. But if every include has a relative name and was
found beside its includer, the names of a key are the last names of the path of its file,
and the lookup can only be wrong where another file goes by the same key.
-/

namespace AsmServer

namespace Registry

variable {r : Registry} {uri entry : Uri} {dir key k : Text} {f : TrackedFile} {depth : Nat}
  {stack : List Uri} {includes includes' : Assembly.Includes}

/-! ## What the walk hands over -/

/-- What an edge hands over: the included file, if it has a text, and what is below it. -/
def handedAlong (r : Registry) (below : Uri → Text → List (Text × TrackedFile)) (dir : Text)
    (edge : Dependency) : List (Text × TrackedFile) :=
  match r.find? edge.uri with
  | none => []
  | some f =>
    if f.contents?.isSome then
      (includeKey dir edge.name, f) :: below edge.uri (keyDir (includeKey dir edge.name))
    else []

/-- The edges of a tracked file; none otherwise. -/
def outgoing (r : Registry) (uri : Uri) : List Dependency :=
  ((r.find? uri).map (·.dependencies)).getD []

theorem mem_outgoing {edge : Dependency} (h : edge ∈ r.outgoing uri) :
    ∃ f, r.find? uri = some f ∧ edge ∈ f.dependencies := by
  unfold outgoing at h
  cases found : r.find? uri with
  | none => simp [found] at h
  | some f => exact ⟨f, rfl, by simpa [found] using h⟩

/-- The files that the walk hands over below a file, each with its key, in the order of the
walk. -/
def handedBelow (r : Registry) : Nat → Uri → Text → List (Text × TrackedFile)
  | 0, _, _ => []
  | depth + 1, uri, dir => (r.outgoing uri).flatMap (r.handedAlong (r.handedBelow depth) dir)

/-- The files that the walk from the entry file hands over, each with its key. -/
def handed (r : Registry) : List (Text × TrackedFile) :=
  match r.entryFile? with
  | none => []
  | some entry => r.handedBelow r.files.length entry.uri []

/-- A file that is handed over as an entry of the include map. -/
def handedText (file : Text × TrackedFile) : Text × Text := (file.1, file.2.contents?.getD [])

/-- Add files that are handed over. -/
def put (includes : Assembly.Includes) (files : List (Text × TrackedFile)) : Assembly.Includes :=
  (files.map handedText).foldl (fun includes (key, text) => includes.insertNew key text) includes

theorem put_append (files files' : List (Text × TrackedFile)) :
    put includes (files ++ files') = put (put includes files) files' := by
  simp [put]

theorem walk_succ :
    r.walk (depth + 1) uri dir stack includes =
      (r.outgoing uri).foldlM (r.followEdge (r.walk depth) uri dir stack) includes := by
  unfold walk outgoing
  cases r.find? uri <;> rfl

/-- An edge that closes no cycle adds what it hands over. -/
theorem followEdge_eq_put {edge : Dependency} {below : Uri → Text → List (Text × TrackedFile)}
    {descend : Uri → Text → List Uri → Assembly.Includes → Except ProjectError Assembly.Includes}
    (adds : ∀ {uri dir stack includes includes'}, descend uri dir stack includes = .ok includes' →
      includes' = put includes (below uri dir))
    (followed : r.followEdge descend uri dir stack includes edge = .ok includes') :
    includes' = put includes (r.handedAlong below dir edge) := by
  unfold followEdge at followed
  unfold handedAlong
  split at followed
  · simp at followed
  cases found : r.find? edge.uri with
  | none =>
    rw [found] at followed
    exact (Except.ok.inj followed).symm
  | some f =>
    rw [found, Option.bind_some] at followed
    cases text : f.contents? with
    | none =>
      rw [text] at followed
      simpa [text, put] using (Except.ok.inj followed).symm
    | some content =>
      rw [text] at followed
      rw [adds followed]
      simp [put, handedText, text]

/-- The walk adds the files that it hands over, and no others. -/
theorem walk_eq_put (walked : r.walk depth uri dir stack includes = .ok includes') :
    includes' = put includes (r.handedBelow depth uri dir) := by
  induction depth generalizing uri dir stack includes includes' with
  | zero => exact (Except.ok.inj walked).symm
  | succ depth ih =>
    rw [walk_succ] at walked
    unfold handedBelow
    generalize r.outgoing uri = edges at walked
    induction edges generalizing includes with
    | nil => exact (Except.ok.inj walked).symm
    | cons edge rest further =>
      rw [List.foldlM_cons] at walked
      cases first : r.followEdge (r.walk depth) uri dir stack includes edge with
      | error error =>
        rw [first] at walked
        cases walked
      | ok between =>
        rw [first] at walked
        rw [further walked, followEdge_eq_put (fun done => ih done) first, List.flatMap_cons,
          put_append]

/-- The include map has the files that are handed over; of two with one key the first
counts. -/
theorem flatten_eq_ofList (flattened : r.flatten = .ok includes) :
    includes = .ofList (r.handed.map handedText) := by
  unfold flatten at flattened
  unfold handed
  cases first : r.entryFile? with
  | none => simp [first] at flattened
  | some entry =>
    rw [first] at flattened
    exact walk_eq_put flattened

/-- Under a key is the text of the first file that is handed over under it. -/
theorem find?_flatten (flattened : r.flatten = .ok includes) :
    includes.find? k = (r.handed.find? (·.1 = k)).map fun file => file.2.contents?.getD [] := by
  rw [flatten_eq_ofList flattened, Catalog.find?_ofList, List.find?_map, Option.map_map]
  rfl

/-- A file that is handed over is tracked and has a text. -/
theorem mem_handedBelow (h : (k, f) ∈ r.handedBelow depth uri dir) :
    f ∈ r.files ∧ f.contents?.isSome := by
  induction depth generalizing uri dir with
  | zero => cases h
  | succ depth ih =>
    obtain ⟨edge, -, along⟩ := List.mem_flatMap.mp h
    unfold handedAlong at along
    split at along
    · cases along
    · next found =>
      split_ifs at along with text
      · rcases List.mem_cons.mp along with here | below
        · cases here
          exact ⟨mem_of_find? found, text⟩
        · exact ih below
      · cases along

theorem mem_handed (h : (k, f) ∈ r.handed) : f ∈ r.files ∧ f.contents?.isSome := by
  unfold handed at h
  split at h
  · cases h
  · exact mem_handedBelow h

/-! ## How deep the walk is -/

/-- The files on the way from the entry file are different, so that a walk as deep as there
are files is never cut off. -/
theorem walk_succ_eq (path : stack.Nodup) (tracked : stack ⊆ r.uris)
    (deep : r.files.length < stack.length + depth) :
    r.walk (depth + 1) uri dir stack includes = r.walk depth uri dir stack includes := by
  induction depth generalizing uri dir stack includes with
  | zero =>
    have short := (path.subperm tracked).length_le
    simp only [uris, List.length_map] at short
    omega
  | succ depth ih =>
    rw [walk_succ, walk_succ]
    generalize r.outgoing uri = edges
    induction edges generalizing includes with
    | nil => rfl
    | cons edge rest further =>
      rw [List.foldlM_cons, List.foldlM_cons]
      have same : r.followEdge (r.walk (depth + 1)) uri dir stack includes edge
          = r.followEdge (r.walk depth) uri dir stack includes edge := by
        unfold followEdge
        split_ifs with cycle
        · rfl
        cases found : r.find? edge.uri with
        | none => rfl
        | some f =>
          rw [Option.bind_some]
          cases f.contents? with
          | none => rfl
          | some text =>
            refine ih ?_ ?_ (by simp; omega)
            · exact path.append (List.nodup_singleton _) (by simpa using cycle)
            · refine List.append_subset.mpr ⟨tracked, List.cons_subset.mpr ⟨?_, List.nil_subset _⟩⟩
              exact uri_of_find? found ▸ uri_mem_uris (mem_of_find? found)
      rw [same]
      cases r.followEdge (r.walk depth) uri dir stack includes edge with
      | error error => rfl
      | ok between => exact further

/-- Walking deeper than there are files makes no difference. -/
theorem flatten_eq_walk (sound : r.Sound entry) (deep : r.files.length ≤ depth) :
    r.flatten = r.walk depth entry [] [entry] [] := by
  obtain ⟨f, found⟩ := exists_find? sound.tracked
  have first : r.entryFile? = some f := by rw [entryFile?, sound.entry?, Option.bind_some, found]
  have start : r.flatten = r.walk r.files.length entry [] [entry] [] := by
    rw [flatten, first]
    exact congrArg (fun u => r.walk r.files.length u [] [u] []) (uri_of_find? found)
  induction depth, deep using Nat.le_induction with
  | base => exact start
  | succ depth deep ih =>
    rw [walk_succ_eq (List.nodup_singleton entry) (by simpa using sound.tracked)
      (by simp; omega)]
    exact ih

/-! ## Keys and paths -/

/-- The directory of a key leads, up to a drive letter, to the last names of the directory of
a file. -/
def Meets (dir : Text) (uri : Uri) : Prop :=
  ∃ names, (∀ name ∈ names, Path.IsName name) ∧
    (Path.Descent.ofPath dir).names <:+ names ∧
    Uri.SameDrive names (Path.place (Text.slashed (baseDir uri)))

/-- A key is the spelling of a descent whose names are, up to a drive letter, the last names
of the path of a file. -/
def Spells (key : Text) (uri : Uri) : Prop :=
  ∃ (descent : Path.Descent) (names : List Text), (∀ name ∈ names, Path.IsName name) ∧
    key = descent.toText ∧ descent.names <:+ names ∧
    uri.decodedPath = .ok (Path.rooted (names.modifyHead Uri.lowerName))

theorem meets_nil : Meets [] uri :=
  ⟨_, fun _ => Uri.isName_place_slashed, List.nil_suffix, rfl⟩

/-- The key of a file beside its includer spells its path, and so do the keys of what it
includes in turn. -/
theorem Meets.beside {name : Text} (h : Meets dir uri)
    (relative : Path.isAbsolute (Text.slashed name) = false) :
    Spells (includeKey dir name) (uri.beside (Text.slashed name)) ∧
      Meets (keyDir (includeKey dir name)) (uri.beside (Text.slashed name)) := by
  obtain ⟨names, proper, suffix, same⟩ := h
  have straight : Text.slashed (Text.slashed name) = Text.slashed name :=
    Path.slashed_of_not_mem Path.backslash_not_mem_slashed
  -- Both places follow the segments of the name.
  set segments := (Text.slashed name).splitOn '/' with pieces
  set descent := Path.Descent.ofPath (Path.append dir (Text.slashed name)) with spelled
  set path := Path.append (Path.append (baseDir uri) ['.']) (Text.slashed name) with opened
  have key : includeKey dir name = descent.toText := by
    rw [includeKey, if_neg (by simp [relative])]
    rfl
  have proper' : ∀ name ∈ segments.foldl Path.enter names, Path.IsName name := by
    refine Uri.isName_of_mem_foldl (fun _ member => (Text.mem_splitOn member).1)
      (fun _ member within => ?_) proper
    exact Path.backslash_not_mem_slashed ((Text.mem_splitOn member).2 within)
  have suffix' : descent.names <:+ segments.foldl Path.enter names := by
    rw [spelled, Path.Descent.ofPath_append relative]
    exact Path.Descent.foldl_enter_suffix suffix
  have same' : Uri.SameDrive (segments.foldl Path.enter names)
      (Path.place (Text.slashed path)) := by
    rw [opened, Path.place_slashed_append relative, straight,
      Path.place_slashed_append (by decide)]
    exact same.foldl_enter segments
  have own : Uri.SameDrive (segments.foldl Path.enter names) (Uri.ownPlace path) :=
    Eq.trans same' (Eq.symm Uri.SameDrive.lower)
  have named : ∀ name ∈ descent.names, Path.IsName name := fun name member =>
    proper' name (suffix'.subset member)
  refine ⟨⟨descent, _, proper', key, suffix', ?_⟩, ?_⟩
  · rw [Uri.beside, Uri.decodedPath_ofPath, Uri.canonicalPath_eq_rooted, Uri.ownPlace, same']
  · refine ⟨(segments.foldl Path.enter names).dropLast, fun name member => ?_, ?_, ?_⟩
    · exact proper' name ((List.dropLast_sublist _).subset member)
    · have above : ∀ name ∈ descent.parent.names, Path.IsName name := fun name member =>
        proper' name ((List.dropLast_sublist _).subset
          ((Path.Descent.parent_suffix suffix').subset member))
      rw [key, keyDir, Path.Descent.parent?_toText (Path.Descent.proper_of_isName named),
        Path.Descent.ofPath_toText (Path.Descent.proper_of_isName above)]
      exact Path.Descent.parent_suffix suffix'
    · rw [Uri.beside, Uri.place_baseDir]
      exact own.dropLast

/-- Every include has a relative name and was found in the directory of its includer. -/
def Beside (r : Registry) : Prop :=
  ∀ f ∈ r.files, ∀ edge ∈ f.dependencies,
    Path.isAbsolute (Text.slashed edge.name) = false ∧
      edge.uri = f.uri.beside (Text.slashed edge.name)

/-- No text names directories to search, and no include has an absolute name. -/
structure Direct (r : Registry) : Prop where
  noDirs : ∀ f ∈ r.files, Code.includeDirs f.lines = []
  relative : ∀ f ∈ r.files, ∀ directive ∈ Code.includes f.lines,
    Path.isAbsolute (Text.slashed directive.name) = false

theorem Direct.beside (direct : r.Direct) (consistent : r.Consistent entry) : r.Beside := by
  intro f member edge known
  obtain ⟨⟨directive, listed, same⟩, candidate⟩ := (consistent.files f member).sourced edge known
  have relative := direct.relative f member directive listed
  rw [same] at relative
  have current : Code.searchPath f.lines = [['.']] := by
    rw [Code.searchPath, direct.noDirs f member]
    rfl
  refine ⟨relative, ?_⟩
  rw [candidates, if_neg (by simp [relative]), current] at candidate
  exact List.mem_singleton.mp candidate

/-- The keys of what is handed over below a file spell the paths. -/
theorem Beside.spells_below (beside : r.Beside) (meets : Meets dir uri)
    (h : (k, f) ∈ r.handedBelow depth uri dir) : Spells k f.uri := by
  induction depth generalizing uri dir with
  | zero => cases h
  | succ depth ih =>
    obtain ⟨edge, member, along⟩ := List.mem_flatMap.mp h
    obtain ⟨g, found, listed⟩ := mem_outgoing member
    obtain ⟨relative, leads⟩ := beside g (mem_of_find? found) edge listed
    rw [uri_of_find? found] at leads
    obtain ⟨spells, further⟩ := meets.beside relative
    unfold handedAlong at along
    split at along
    · cases along
    · next tracked =>
      split_ifs at along
      · rcases List.mem_cons.mp along with here | below
        · cases here
          rwa [uri_of_find? tracked, leads]
        · exact ih (leads ▸ further) below
      · cases along

theorem Beside.spells (beside : r.Beside) (h : (k, f) ∈ r.handed) : Spells k f.uri := by
  unfold handed at h
  split at h
  · cases h
  · exact beside.spells_below meets_nil h

/-- A key that starts with a name, which is no drive letter: it neither is absolute nor
climbs. -/
structure IsPlain (key : Text) : Prop where
  named : ∃ name, (Path.components key).head? = some (.name name)
  undriven : Uri.hasDrive ('/' :: key) = false

/-- A plain key has no steps up. -/
theorem IsPlain.segments_eq {descent : Path.Descent} (plain : IsPlain descent.toText)
    (proper : ∀ name ∈ descent.names, Path.IsName name) :
    descent.names ≠ [] ∧ descent.segments = descent.names := by
  obtain ⟨first, starts⟩ := plain.named
  have parts := (Path.Descent.proper_of_isName proper).isPart
  have some : descent.segments ≠ [] := by
    intro empty
    have none : Path.components descent.toText = [] := congrArg (fun s =>
      Path.components (Text.join ['/'] s)) empty
    simp [none] at starts
  have components : Path.components descent.toText
      = descent.segments.filterMap Path.Component.ofSegment? := Path.components_parts parts some
  have level : descent.ups = 0 := by
    by_contra up
    obtain ⟨n, ups⟩ := Nat.exists_eq_succ_of_ne_zero up
    have climbs : Path.Component.ofSegment? ['.', '.'] = .some .up := rfl
    simp [components, Path.Descent.segments, ups, List.replicate_succ, climbs] at starts
  have whole : descent.segments = descent.names := by simp [Path.Descent.segments, level]
  exact ⟨whole ▸ some, whole⟩

/-- The path of a file ends with a plain key that spells it. -/
theorem Spells.endsWithPath (spells : Spells k uri) (plain : IsPlain k) :
    uri.endsWithPath k = true := by
  obtain ⟨descent, names, proper, rfl, suffix, read⟩ := spells
  have named : ∀ name ∈ descent.names, Path.IsName name := fun name member =>
    proper name (suffix.subset member)
  obtain ⟨some, whole⟩ := plain.segments_eq named
  have spelled : descent.toText = Text.join ['/'] descent.names := congrArg (Text.join ['/']) whole
  have undriven : Uri.hasDrive (Path.rooted descent.names) = false := by
    rw [Path.rooted_eq_cons_join, ← spelled]
    exact plain.undriven
  rw [spelled]
  refine Uri.endsWithPath_of_suffix read named some ?_
  obtain ⟨before, rfl⟩ := suffix
  cases before with
  | nil => rw [List.nil_append, Uri.modifyHead_lowerName named undriven]
  | cons first rest => exact List.suffix_append (Uri.lowerName first :: rest) _

/-! ## Looking up a key -/

/-- The edges of include directives of this name, in the order in which files were added. -/
def includesNamed (r : Registry) (name : Text) : List Dependency :=
  r.files.flatMap fun file => file.dependencies.filter (·.name == name)

/-- Where all edges lead to tracked files, the first directive of the name is decisive. -/
theorem includedAs?_eq (sound : r.Sound entry) :
    r.includedAs? none k = (r.includesNamed k).head?.bind (r.find? ·.uri) := by
  have first (files : List TrackedFile) (known : ∀ file ∈ files, file ∈ r.files) :
      (files.findSome? fun file =>
        (file.dependencies.find? (·.name == k)).bind (r.find? ·.uri)) =
      (files.flatMap fun file => file.dependencies.filter (·.name == k)).head?.bind
        (r.find? ·.uri) := by
    induction files with
    | nil => rfl
    | cons file rest ih =>
      obtain ⟨here, later⟩ := List.forall_mem_cons.mp known
      rw [List.findSome?_cons, List.flatMap_cons, List.head?_append, List.head?_filter]
      cases found : file.dependencies.find? (·.name == k) with
      | none => exact ih later
      | some edge =>
        obtain ⟨f, leads⟩ := exists_find? (sound.leads here (List.mem_of_find?_eq_some found))
        simp [leads]
  exact first r.files fun _ => id

/-- The lookup of a key leads to a file if and only if the first directive of this name does
or, without such a directive, the file is the first whose path ends with the key. -/
theorem named?_eq_some_iff (sound : r.Sound entry) (member : f ∈ r.files) :
    r.named? (some k) = some f ↔
      (∃ edge, (r.includesNamed k).head? = some edge ∧ edge.uri = f.uri) ∨
        r.includesNamed k = [] ∧ r.files.find? (·.uri.endsWithPath k) = some f := by
  rw [named?, includedAs?_eq sound]
  cases edges : r.includesNamed k with
  | nil => simp
  | cons edge rest =>
    have known : edge.uri ∈ r.uris := by
      have listed : edge ∈ r.includesNamed k := edges ▸ List.mem_cons_self
      obtain ⟨file, among, filtered⟩ := List.mem_flatMap.mp listed
      exact sound.leads among (List.mem_of_mem_filter filtered)
    obtain ⟨g, leads⟩ := exists_find? known
    simp only [List.head?_cons, Option.bind_some, leads, Option.some_or, Option.some.injEq]
    constructor
    · rintro rfl
      exact .inl ⟨edge, rfl, (uri_of_find? leads).symm⟩
    · rintro (⟨_, rfl, same⟩ | ⟨none, -⟩)
      · rw [same, find?_of_mem sound.once member] at leads
        exact (Option.some.inj leads).symm
      · cases none

/-! ## Back from the key -/

/-- A key of the include map is the key of a file that is handed over. -/
theorem exists_handed (flattened : r.flatten = .ok includes) (listed : k ∈ includes.keys) :
    ∃ f, r.handed.find? (·.1 = k) = some (k, f) := by
  have given := Catalog.find?_isSome_iff_mem_keys.mpr listed
  rw [find?_flatten flattened, Option.isSome_map] at given
  obtain ⟨⟨key, f⟩, first⟩ := Option.isSome_iff_exists.mp given
  obtain rfl : key = k := by simpa using List.find?_some first
  exact ⟨f, first⟩

section doubled

/-- Two files in different directories include `b`, each the one beside it. -/
def doubled : Sources where
  disk := [stored "/d/a" " include b", stored "/d/b" "", stored "/x" " include b",
    stored "/b" " nop"]

/-- The entry file includes both. -/
def doubledText : Document := ⟨.ofPath "/m".toList, 1, " include d/a\n include x".toList⟩

/-- Everything is loaded. -/
def doubledFiles : Registry :=
  queued doubled 14 ((blank 0).add doubledText.uri) (.editor doubledText)

/-- The includes by their keys. -/
def doubledIncludes : Assembly.Includes :=
  [("b".toList, " nop".toList), ("d/a".toList, " include b".toList), ("d/b".toList, []),
    ("x".toList, " include b".toList)]

theorem track_doubled : track 0 [(doubled, doubledText)] = some doubledFiles := by
  have added : (blank 0).addDocument doubled doubledText = some doubledFiles := by
    rw [addDocument_blank_eq_queue]
    exact queue_eq_queued (by decide +kernel)
  simp [track, added]

theorem flatten_doubled : doubledFiles.flatten = .ok doubledIncludes := by
  decide +kernel

end doubled

/-- After any history the include map has under each key the text of a tracked file, the first
on the walk with this key. The lookup leads back to this file if and only if the first
directive named by the key leads to it or, without such a directive, it is the first file
whose path ends with the key. If all includes are looked for beside their includers and the
key is plain, the path of the file does end with the key, so that the lookup leads back to it
unless another file goes by the key too. -/
theorem key_leads_back {delay : Nat} {documents : List (Sources × Document)}
    {operations : List (Sources × Operation)} {tracked : Registry}
    (tracking : track delay documents = some tracked)
    (history : tracked.perform operations = some r) (flattened : r.flatten = .ok includes)
    (listed : k ∈ includes.keys) :
    ∃ f ∈ r.files, r.handed.find? (·.1 = k) = some (k, f) ∧
      f.contents?.isSome ∧ includes.find? k = f.contents? ∧
      (r.named? (some k) = some f ↔
        (∃ edge, (r.includesNamed k).head? = some edge ∧ edge.uri = f.uri) ∨
          r.includesNamed k = [] ∧ r.files.find? (·.uri.endsWithPath k) = some f) ∧
      (r.Direct → IsPlain k → f.uri.endsWithPath k = true ∧
        ((∀ edge ∈ r.includesNamed k, edge.uri = f.uri) →
          (∀ g ∈ r.files, g.uri.endsWithPath k = true → g = f) → r.named? (some k) = some f)) := by
  obtain ⟨f, first⟩ := exists_handed flattened listed
  obtain ⟨member, text⟩ := mem_handed (List.mem_of_find?_eq_some first)
  obtain ⟨entry, sound⟩ : ∃ entry, r.Sound entry := by
    refine ((lasting_track tracking).perform history).started.resolve_left ?_
    rintro ⟨empty, -⟩
    simpa [empty] using uri_mem_uris member
  have back : includes.find? k = f.contents? := by
    obtain ⟨content, known⟩ := Option.isSome_iff_exists.mp text
    rw [find?_flatten flattened, first, known]
    simp [known]
  have exact := named?_eq_some_iff (k := k) sound member
  refine ⟨f, member, first, text, back, exact, fun direct plain => ?_⟩
  have ends := ((direct.beside sound.toConsistent).spells
    (List.mem_of_find?_eq_some first)).endsWithPath plain
  refine ⟨ends, fun alike alone => exact.mpr ?_⟩
  cases edges : r.includesNamed k with
  | nil =>
    refine .inr ⟨rfl, ?_⟩
    cases found : r.files.find? (·.uri.endsWithPath k) with
    | none => exact absurd ends (List.find?_eq_none.mp found f member)
    | some g =>
      have ending : g.uri.endsWithPath k = true := by simpa using List.find?_some found
      rw [alone g (List.mem_of_find?_eq_some found) ending]
  | cons edge rest => exact .inl ⟨edge, rfl, alike edge (edges ▸ List.mem_cons_self)⟩

/-- The key of a file in a directory leads back to it. -/
theorem directory_key_leads_back : ∃ f ∈ doubledFiles.files,
    doubledFiles.named? (some "d/b".toList) = some f ∧
      doubledIncludes.find? "d/b".toList = f.contents? := by
  have still : doubledFiles.perform [] = some doubledFiles := rfl
  obtain ⟨f, member, -, -, text, -, back⟩ := key_leads_back (k := "d/b".toList) track_doubled still
    flatten_doubled (by decide)
  have direct : doubledFiles.Direct := by
    constructor <;> decide +kernel
  have plain : IsPlain "d/b".toList := by
    constructor
    · exact ⟨"d".toList, by decide⟩
    · decide
  obtain ⟨ends, leads⟩ := back direct plain
  have undirected : doubledFiles.includesNamed "d/b".toList = [] := by
    decide +kernel
  obtain ⟨only, one⟩ : ∃ only,
      doubledFiles.files.filter (·.uri.endsWithPath "d/b".toList) = [only] :=
    List.length_eq_one_iff.mp (by decide +kernel)
  have same : ∀ g ∈ doubledFiles.files, g.uri.endsWithPath "d/b".toList = true → g = only := by
    intro g among ending
    have ending : g ∈ doubledFiles.files.filter (·.uri.endsWithPath "d/b".toList) :=
      List.mem_filter.mpr ⟨among, ending⟩
    rwa [one, List.mem_singleton] at ending
  rw [undirected] at leads
  refine ⟨f, member, leads (by simp) fun g among ending => ?_, text⟩
  rw [same g among ending, same f member ends]

/-- The key of a file leads to another file, with another text, if an earlier directive in
another directory has its name. -/
theorem key_leads_elsewhere :
    track 0 [(doubled, doubledText)] = some doubledFiles ∧
      doubledFiles.flatten = .ok doubledIncludes ∧ "b".toList ∈ doubledIncludes.keys ∧
      (doubledFiles.handed.find? (·.1 = "b".toList)).map (·.2.uri) = some (.ofPath "/b".toList) ∧
      (doubledFiles.named? (some "b".toList)).map (·.uri) = some (.ofPath "/d/b".toList) ∧
      (doubledFiles.named? (some "b".toList)).bind (·.contents?) ≠
        doubledIncludes.find? "b".toList := by
  refine ⟨track_doubled, flatten_doubled, by decide, ?_, ?_, ?_⟩
  · decide +kernel
  · decide +kernel
  · decide +kernel

end Registry

end AsmServer
