import AsmServer.Assembly.Run
import AsmServer.Proofs.Path.Descent

/-!
# What a run writes

Before the program starts, a run makes directories and writes files by a fixed list of calls to
the file system, of which it makes as many as succeed. The calls name paths below the working
directory and, since names may climb, next to it and above it.

The working directory lies as deep as the highest climb of any include. So no path leaves the
temporary directory, not even on a part of the way, and the tree of the run is what the calls
make of the empty one. Includes with absolute names have no part in this: leaving them out
changes no call.
-/

namespace AsmServer

namespace Path

/-- Whether the path never leads above its start, on no part of the way. -/
def Confined (path : Text) : Prop :=
  ∀ way, way <+: path.splitOn '/' → (way.foldl Descent.enter ⟨0, []⟩).ups = 0

/-- Steps above the start are never taken back, so the end of the way shows them all. -/
theorem confined_iff {path : Text} : Confined path ↔ (Descent.ofPath path).ups = 0 := by
  rw [Descent.ofPath_eq_foldl]
  constructor
  · exact fun confined => confined _ (List.prefix_refl _)
  · rintro level way ⟨rest, whole⟩
    rw [← whole, List.foldl_append] at level
    have above := Descent.ups_le_foldl_enter (way.foldl Descent.enter ⟨0, []⟩) rest
    rw [level] at above
    exact Nat.le_zero.mp above

end Path

namespace Assembly

open AsmServer.Path

/-! ## Calls to the file system -/

/-- A call to the file system, with a path that is seen from the temporary directory. -/
inductive Call where
  | makeDirectory (path : Text)
  | write (path text : Text)
  deriving DecidableEq

/-- The path of a call. -/
def Call.path : Call → Text
  | makeDirectory path => path
  | write path _ => path

/-- The place below the temporary directory to which a path leads, unless it leads above. -/
def below? (path : Text) : Option Place :=
  if (Descent.ofPath path).ups = 0 then some (Descent.ofPath path).names else none

/-- Make a call. The tree shows nothing of what lies outside of it. -/
def Call.perform (tree : FileTree) : Call → Except FileError FileTree
  | makeDirectory path => (below? path).elim (.ok tree) tree.makeDirectory
  | write path text => (below? path).elim (.ok tree) (tree.write · text)

/-- The path of the working directory. -/
def workPath (depth : Nat) : Text := Text.join ['/'] (workPlace depth)

/-- The calls for one include: the directory that holds it is made first. -/
def includeCalls (work name text : Text) : List Call :=
  match target? name with
  | none => []
  | some target =>
    let path := append work target.toText
    ((parent? path).map Call.makeDirectory).toList ++ [.write path text]

/-- The calls of a run before the program starts. -/
def calls (source : Text) (includes : Includes) : List Call :=
  let work := workPath (depth includes)
  .makeDirectory work :: .write (append work entryName) source ::
    includes.flatMap fun entry => includeCalls work entry.1 entry.2

/-- The files of a run by name: the entry file, then the includes. -/
def files (source : Text) (includes : Includes) : List (Text × Text) :=
  (entryName, source) :: includes

/-! ## Paths from the working directory -/

variable {levels : Nat} {target : Descent} {name text source : Text} {includes : Includes}

theorem length_workPlace (levels : Nat) : (workPlace levels).length = levels := by
  simp [workPlace]

theorem isAlphanum_of_mem_workPlace {c : Char} (h : name ∈ workPlace levels) (member : c ∈ name) :
    c.isAlphanum = true := by
  obtain ⟨level, -, rfl⟩ := List.mem_map.mp h
  rcases List.mem_cons.mp member with rfl | digit
  · decide
  · have : c.isDigit = true :=
      Nat.isDigit_of_mem_toDigits (by decide) (by decide)
        (show c ∈ Nat.toDigits 10 level by simpa using digit)
    simp [Char.isAlphanum, this]

theorem solid_of_mem_workPlace (h : name ∈ workPlace levels) : Solid name ∧ '/' ∉ name := by
  refine ⟨?_, fun slash => absurd (isAlphanum_of_mem_workPlace h slash) (by decide)⟩
  obtain ⟨level, -, rfl⟩ := List.mem_map.mp h
  exact ⟨by simp [isVacant], by simp⟩

theorem isPart_of_mem_workPlace (h : name ∈ workPlace levels) : IsPart name :=
  ⟨(solid_of_mem_workPlace h).1.1, (solid_of_mem_workPlace h).2⟩

/-- The place of a target, if it climbs no higher than the working directory is deep. -/
def placeFrom (levels : Nat) (target : Descent) : Place :=
  (workPlace levels).take (levels - target.ups) ++ target.names

/-- From the working directory, the steps up of a descent take its levels back first. -/
theorem ofPath_from_work (proper : target.Proper) :
    Descent.ofPath (Text.join ['/'] (workPlace levels ++ target.segments))
      = ⟨target.ups - levels, placeFrom levels target⟩ := by
  have parts : ∀ segment ∈ workPlace levels ++ target.segments, IsPart segment :=
    List.forall_mem_append.mpr ⟨fun _ => isPart_of_mem_workPlace, proper.isPart⟩
  rw [Descent.ofPath_join parts, List.foldl_append,
    Descent.foldl_enter_solid fun _ member => (solid_of_mem_workPlace member).1,
    proper.foldl_enter_segments, List.nil_append, length_workPlace, Nat.zero_add, placeFrom]

theorem append_workPath (proper : target.Proper) (some : target.segments ≠ []) :
    append (workPath levels) target.toText
      = Text.join ['/'] (workPlace levels ++ target.segments) :=
  append_join (fun _ => isPart_of_mem_workPlace) proper.isPart some

/-- A descent that climbs no higher than the working directory is deep leads below. -/
theorem below?_from_work (proper : target.Proper) (level : target.ups ≤ levels) :
    below? (Text.join ['/'] (workPlace levels ++ target.segments))
      = some (placeFrom levels target) := by
  have top : target.ups - levels = 0 := by omega
  simp [below?, ofPath_from_work proper, top]

/-! ## Targets -/

theorem le_foldl_max (targets : List Descent) (start : Nat) :
    start ≤ targets.foldl (fun depth target => max depth target.ups) start ∧
      ∀ target ∈ targets,
        target.ups ≤ targets.foldl (fun depth target => max depth target.ups) start := by
  induction targets generalizing start with
  | nil => simp
  | cons first rest ih =>
    obtain ⟨above, within⟩ := ih (max start first.ups)
    refine ⟨by rw [List.foldl_cons]; omega, fun target member => ?_⟩
    rw [List.foldl_cons]
    rcases List.mem_cons.mp member with rfl | later
    · omega
    · exact within target later

theorem target?_of_isAbsolute (absolute : isAbsolute name = true) : target? name = none :=
  if_pos absolute

/-- A target is what the name of an include comes to by its text. -/
theorem target?_eq_some (leads : target? name = some target) :
    target.Proper ∧ target.segments ≠ [] := by
  have reading : target? name = if isAbsolute name then none
      else if Descent.ofPath name = ⟨0, []⟩ then none else some (Descent.ofPath name) := rfl
  rw [reading] at leads
  split_ifs at leads with absolute nowhere
  obtain rfl := Option.some.inj leads
  exact ⟨Descent.proper_ofPath name, fun empty => nowhere (Descent.segments_eq_nil_iff.mp empty)⟩

/-- The entry file, as seen from the working directory. -/
theorem target?_entryName : target? entryName = some ⟨0, [entryName]⟩ := by decide

/-- The working directory is as deep as any file climbs. -/
theorem ups_le_depth {file : Text × Text} (member : file ∈ files source includes)
    (leads : target? file.1 = some target) : target.ups ≤ depth includes := by
  rcases List.mem_cons.mp member with rfl | member
  · obtain rfl := Option.some.inj (target?_entryName.symm.trans leads)
    exact Nat.zero_le _
  · refine (le_foldl_max _ 0).2 target (List.mem_filterMap.mpr ⟨file.1, ?_, leads⟩)
    exact List.mem_map.mpr ⟨_, member, rfl⟩

/-! ## The tree of the calls -/

/-- Put a file where its target lies, and make the directory for it first. -/
def put (levels : Nat) (tree : FileTree) (target : Descent) (text : Text) :
    Except FileError FileTree := do
  let tree ← tree.makeDirectory (placeFrom levels target.parent)
  tree.write (placeFrom levels target) text

/-- The directory that holds a target, as seen from the working directory. -/
theorem holder_eq : holder (workPlace levels) target (placeFrom levels target)
    = placeFrom levels target.parent := by
  unfold holder placeFrom Descent.parent
  split_ifs with empty
  · simp [length_workPlace, empty]
  · rw [List.dropLast_append_of_ne_nil empty]

theorem parent?_from_work (proper : target.Proper) (some : target.segments ≠ []) :
    parent? (Text.join ['/'] (workPlace levels ++ target.segments))
      = .some (Text.join ['/'] (workPlace levels ++ target.parent.segments)) := by
  have parts : ∀ segment ∈ workPlace levels ++ target.segments, IsPart segment :=
    List.forall_mem_append.mpr ⟨fun _ => isPart_of_mem_workPlace, proper.isPart⟩
  rw [parent?_join parts (by simp [some]), List.dropLast_append_of_ne_nil some,
    Descent.segments_parent]

/-- The calls for an include with a target. -/
theorem includeCalls_eq (leads : target? name = some target) :
    includeCalls (workPath levels) name text =
      [.makeDirectory (Text.join ['/'] (workPlace levels ++ target.parent.segments)),
        .write (Text.join ['/'] (workPlace levels ++ target.segments)) text] := by
  obtain ⟨proper, some⟩ := target?_eq_some leads
  simp only [includeCalls, leads, append_workPath proper some, parent?_from_work proper some,
    Option.map_some, Option.toList_some, List.singleton_append]

/-- Laying out an include puts it where its target lies. -/
theorem addInclude_tree {layout : Layout} (leads : target? name = some target)
    (level : target.ups ≤ levels) :
    (layout.addInclude (workPlace levels) name text).map (·.tree)
      = put levels layout.tree target text := by
  have place : placeOf? (workPlace levels) target = some (placeFrom levels target) := by
    rw [placeOf?, length_workPlace, if_pos level, placeFrom]
  simp only [Layout.addInclude, leads, place, holder_eq, put]
  cases layout.tree.makeDirectory (placeFrom levels target.parent) with
  | error => rfl
  | ok tree =>
    change Except.map _ (tree.write (placeFrom levels target) text >>= _)
      = tree.write (placeFrom levels target) text
    cases tree.write (placeFrom levels target) text <;> rfl

theorem addInclude_of_none {layout : Layout} (nowhere : target? name = none) :
    layout.addInclude (workPlace levels) name text = .ok layout := by
  simp only [Layout.addInclude, nowhere]
  rfl

/-- Laying out an include makes its calls. -/
theorem addInclude_eq_calls {layout : Layout}
    (level : ∀ target, target? name = some target → target.ups ≤ levels) :
    (layout.addInclude (workPlace levels) name text).map (·.tree)
      = (includeCalls (workPath levels) name text).foldlM Call.perform layout.tree := by
  cases leads : target? name with
  | none =>
    rw [addInclude_of_none leads, includeCalls, leads]
    rfl
  | some target =>
    obtain ⟨proper, -⟩ := target?_eq_some leads
    have here := level target leads
    have above : target.parent.ups ≤ levels := Nat.le_trans target.parent_ups_le here
    simp only [addInclude_tree leads here, put, includeCalls_eq leads, List.foldlM_cons,
      List.foldlM_nil, Call.perform, below?_from_work proper here,
      below?_from_work proper.parent above, Option.elim_some, bind_pure]

/-- Lay out one file. -/
def lay (levels : Nat) (layout : Layout) (file : Text × Text) : Except FileError Layout :=
  layout.addInclude (workPlace levels) file.1 file.2

/-- Laying out files makes their calls in order. -/
theorem foldlM_lay_eq_calls {layout : Layout} {entries : List (Text × Text)}
    (level : ∀ entry ∈ entries, ∀ target, target? entry.1 = some target → target.ups ≤ levels) :
    (entries.foldlM (lay levels) layout).map (·.tree)
      = (entries.flatMap fun entry => includeCalls (workPath levels) entry.1 entry.2).foldlM
          Call.perform layout.tree := by
  induction entries generalizing layout with
  | nil => rfl
  | cons entry rest ih =>
    obtain ⟨here, later⟩ := List.forall_mem_cons.mp level
    rw [List.foldlM_cons, List.flatMap_cons, List.foldlM_append, ← addInclude_eq_calls here]
    cases laid : layout.addInclude (workPlace levels) entry.1 entry.2 with
    | error => simp [lay, laid, Except.map, bind, Except.bind]
    | ok next => simpa [lay, laid, Except.map, bind, Except.bind] using ih later

/-- The entry file is laid out as an include is. -/
theorem layout_eq_foldlM (source : Text) (includes : Includes) :
    Layout.of source includes = (files source includes).foldlM (lay (depth includes)) {} := by
  have place (work : Place) : placeOf? work ⟨0, [entryName]⟩ = some (work ++ [entryName]) := by
    simp [placeOf?]
  have held (work : Place) : holder work ⟨0, [entryName]⟩ (work ++ [entryName]) = work := by
    simp [holder]
  have alone : parent? entryName = some [] := by decide
  rw [files, List.foldlM_cons]
  have first : lay (depth includes) {} (entryName, source) = do
      let tree ← FileTree.makeDirectory {} (workPlace (depth includes))
      let tree ← tree.write (workPlace (depth includes) ++ [entryName]) source
      return { tree } := by
    simp only [lay, Layout.addInclude, target?_entryName, place, held, alone]
  rw [first]
  simp only [Layout.of, bind_assoc, pure_bind]
  rfl

theorem calls_eq_flatMap (source : Text) (includes : Includes) :
    calls source includes = (files source includes).flatMap fun file =>
      includeCalls (workPath (depth includes)) file.1 file.2 := by
  obtain ⟨proper, some⟩ := target?_eq_some target?_entryName
  have spelled : Text.join ['/'] (workPlace (depth includes) ++ Descent.segments ⟨0, [entryName]⟩)
      = append (workPath (depth includes)) entryName := (append_workPath proper some).symm
  have above : Text.join ['/']
      (workPlace (depth includes) ++ (Descent.parent ⟨0, [entryName]⟩).segments)
        = workPath (depth includes) := by
    simp [Descent.parent, Descent.segments, workPath]
  rw [files, List.flatMap_cons, includeCalls_eq target?_entryName, spelled, above]
  rfl

/-- The tree of a run is what its calls make of the empty one. -/
theorem layout_eq_calls (source : Text) (includes : Includes) :
    (Layout.of source includes).map (·.tree)
      = (calls source includes).foldlM Call.perform {} := by
  rw [layout_eq_foldlM, calls_eq_flatMap]
  exact foldlM_lay_eq_calls fun file member _ leads => ups_le_depth member leads

/-! ## The law -/

theorem confined_from_work (proper : target.Proper) (level : target.ups ≤ levels) :
    Confined (Text.join ['/'] (workPlace levels ++ target.segments)) := by
  rw [confined_iff, ofPath_from_work proper]
  exact Nat.sub_eq_zero_of_le level

theorem confined_of_mem_includeCalls {call : Call}
    (level : ∀ target, target? name = some target → target.ups ≤ levels)
    (member : call ∈ includeCalls (workPath levels) name text) : Confined call.path := by
  cases leads : target? name with
  | none => simp [includeCalls, leads] at member
  | some target =>
    obtain ⟨proper, -⟩ := target?_eq_some leads
    have here := level target leads
    rw [includeCalls_eq leads] at member
    rcases List.mem_cons.mp member with rfl | member
    · exact confined_from_work proper.parent (Nat.le_trans target.parent_ups_le here)
    · obtain rfl := List.mem_singleton.mp member
      exact confined_from_work proper here

/-- What contributes nothing may be left out. -/
theorem flatMap_filter_of_eq_nil {α β : Type} {entries : List α} {kept : α → Bool}
    {f : α → List β} (idle : ∀ entry ∈ entries, kept entry = false → f entry = []) :
    (entries.filter kept).flatMap f = entries.flatMap f := by
  induction entries with
  | nil => rfl
  | cons entry rest ih =>
    obtain ⟨here, later⟩ := List.forall_mem_cons.mp idle
    cases keeps : kept entry with
    | true => simp [keeps, ih later]
    | false => simp [keeps, ih later, here keeps]

/-- An include with an absolute name does not count for the depth. -/
theorem depth_filter (includes : Includes) :
    depth (includes.filter fun entry => !isAbsolute entry.1) = depth includes := by
  have targets (includes : Includes) : includes.keys.filterMap target?
      = includes.flatMap fun entry => (target? entry.1).toList := by
    rw [Catalog.keys, List.filterMap_map, List.filterMap_eq_flatMap_toList]
    rfl
  rw [depth, depth, targets, targets, flatMap_filter_of_eq_nil fun entry _ absolute => ?_]
  rw [target?_of_isAbsolute (by simpa using absolute), Option.toList_none]

/-- The tree of a run is made by its calls, no path of which leaves the temporary directory; and
includes with absolute names have no part in them. -/
theorem run_is_confined (source : Text) (includes : Includes) :
    (Layout.of source includes).map (·.tree) = (calls source includes).foldlM Call.perform {} ∧
      (∀ call ∈ calls source includes, Confined call.path) ∧
      calls source includes
        = calls source (includes.filter fun entry => !isAbsolute entry.1) := by
  refine ⟨layout_eq_calls source includes, fun call member => ?_, ?_⟩
  · rw [calls_eq_flatMap] at member
    obtain ⟨file, listed, member⟩ := List.mem_flatMap.mp member
    exact confined_of_mem_includeCalls (fun _ leads => ups_le_depth listed leads) member
  · rw [calls, calls, depth_filter, flatMap_filter_of_eq_nil fun entry _ absolute => ?_]
    rw [includeCalls, target?_of_isAbsolute (by simpa using absolute)]

/-- An include that climbs out of two directories, and one with an absolute name. -/
def climbing : Includes := [("../../lib/x".toList, "one".toList), ("/abs".toList, "two".toList)]

theorem climbing_is_confined :
    (.write "d0/d1/../../lib/x".toList "one".toList ∈ calls [] climbing) ∧
      Confined "d0/d1/../../lib/x".toList ∧ calls [] climbing = calls [] climbing.dropLast := by
  have member : .write "d0/d1/../../lib/x".toList "one".toList ∈ calls [] climbing := by decide
  obtain ⟨-, confined, relative⟩ := run_is_confined [] climbing
  exact ⟨member, confined _ member, relative⟩

end Assembly

end AsmServer
