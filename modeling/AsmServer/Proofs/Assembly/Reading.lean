import AsmServer.Proofs.Assembly.Confinement
import Mathlib.Data.List.Nodup

/-!
# What the program reads

The program reads a file by its name, as seen from the working directory. A name that climbs leads
out of the levels that the working directory is made of, and such a name may lead back into them:
then two names mean one place, and the file that is written last is read under both.

If every name is spelled without a detour and none leads back into the levels, different names mean
different places, and no place is above another unless the names say so. So every file is read as
it was given, and the program starts if no name goes through the file of another.
-/

namespace AsmServer

open AsmServer.Path

namespace FileTree

variable {tree tree' : FileTree} {place other : Place} {text : Text}

theorem files_makeDirectory (made : tree.makeDirectory place = .ok tree') :
    tree'.files = tree.files := by
  unfold makeDirectory at made
  split_ifs at made
  rw [← Except.ok.inj made]

theorem files_write (written : tree.write place text = .ok tree') :
    tree'.files = (place, text) :: tree.files := by
  unfold write at written
  split_ifs at written
  rw [← Except.ok.inj written]

/-- If a place has only one text, it is read there. -/
theorem file?_eq_some (member : (place, text) ∈ tree.files)
    (unique : ∀ other, (place, other) ∈ tree.files → other = text) :
    tree.file? place = some text := by
  unfold file?
  cases found : tree.files.lookup place with
  | none => simpa using List.lookup_eq_none_iff.mp found _ member
  | some other =>
    obtain ⟨before, after, whole, -⟩ := List.lookup_eq_some_iff.mp found
    rw [unique other (by simp [whole])]

/-- Whether no file is on the way to the place, and no directory is there. -/
def Free (tree : FileTree) (place : Place) : Prop :=
  (∀ file ∈ tree.files, ¬file.1 <+: place) ∧ place ∉ tree.directories

theorem isBlocked_eq_false (free : ∀ file ∈ tree.files, ¬file.1 <+: place) :
    tree.isBlocked place = false := by
  refine List.any_eq_false.mpr fun file member => ?_
  simp [free file member]

theorem file?_eq_none (free : ∀ file ∈ tree.files, ¬file.1 <+: place) :
    tree.file? place = none := by
  refine List.lookup_eq_none_iff.mpr fun file member => ?_
  have apart : place ≠ file.1 := fun same => free file member (same ▸ List.prefix_refl place)
  simpa using apart

/-- A directory can be made where no file is on the way. -/
theorem exists_makeDirectory (nul : hasNul place = false)
    (free : ∀ file ∈ tree.files, ¬file.1 <+: place) :
    ∃ made, tree.makeDirectory place = .ok made ∧
      ∀ dir ∈ made.directories, dir ∈ tree.directories ∨ dir <+: place := by
  have makes : tree.makeDirectory place = .ok { tree with
      directories := tree.directories ++ (ancestors place).filter (!tree.isDirectory ·) } := by
    simp [makeDirectory, nul, file?_eq_none free, isBlocked_eq_false free]
  refine ⟨_, makes, fun dir member => ?_⟩
  refine (List.mem_append.mp member).imp_right fun new => ?_
  obtain ⟨i, -, rfl⟩ := List.mem_map.mp (List.mem_of_mem_filter new)
  exact List.take_prefix _ _

/-- A file can be written at a free place. -/
theorem exists_write (nul : hasNul place = false) (somewhere : place ≠ [])
    (free : tree.Free place) (text : Text) :
    ∃ written, tree.write place text = .ok written ∧ written.directories = tree.directories := by
  have vacant : tree.isDirectory place = false := by simp [isDirectory, somewhere, free.2]
  have writes : tree.write place text = .ok { tree with files := (place, text) :: tree.files } := by
    simp [write, nul, vacant, isBlocked_eq_false free.1]
  exact ⟨_, writes, rfl⟩

end FileTree

namespace Assembly

variable {levels : Nat} {target other : Descent} {name text source key : Text}
  {includes : Includes} {tree tree' : FileTree}

/-! ## Names -/

/-- Whether the name is spelled without a detour: some steps up, then at least one name. -/
def IsNormal (key : Text) : Prop :=
  ∃ target : Descent, target.Proper ∧ target.names ≠ [] ∧ key = target.toText

/-- Whether the target climbs out of a level of the working directory and goes on with its name. -/
def Returns (levels : Nat) (target : Descent) : Prop :=
  0 < target.ups ∧ target.names.head? = (workPlace levels)[levels - target.ups]?

instance : Decidable (Returns levels target) := inferInstanceAs (Decidable (_ ∧ _))

theorem target?_toText (proper : target.Proper) (named : target.names ≠ []) :
    target? target.toText = some target := by
  have relative : isAbsolute target.toText = false := isAbsolute_parts proper.isPart
  have somewhere : target ≠ ⟨0, []⟩ := fun nowhere => named (by rw [nowhere])
  have read : Descent.ofComponents (components target.toText) = target :=
    Descent.ofPath_toText proper
  simp [target?, relative, read, somewhere]

theorem isNormal_iff : IsNormal key ↔
    ∃ target, target? key = some target ∧ target.names ≠ [] ∧ key = target.toText := by
  constructor
  · rintro ⟨target, proper, named, rfl⟩
    exact ⟨target, target?_toText proper named, named, rfl⟩
  · rintro ⟨target, leads, named, spelled⟩
    exact ⟨target, (target?_eq_some leads).1, named, spelled⟩

instance : DecidablePred IsNormal := fun key =>
  decidable_of_iff ((target? key).any fun target => target.names ≠ [] ∧ key = target.toText) <| by
    simp [isNormal_iff, Option.any_eq_true]

/-- Below the level to which it climbs, a target goes on with its first name. -/
theorem placeFrom_getElem? :
    (placeFrom levels target)[levels - target.ups]? = target.names.head? := by
  rw [placeFrom, List.getElem?_append_right (by simp [length_workPlace])]
  simp [length_workPlace, List.head?_eq_getElem?]

/-- Above this level a target lies in the levels of the working directory. -/
theorem placeFrom_getElem?_of_lt {i : Nat} (above : i < levels - target.ups) :
    (placeFrom levels target)[i]? = (workPlace levels)[i]? := by
  rw [placeFrom, List.getElem?_append_left (by rw [List.length_take, length_workPlace]; omega),
    List.getElem?_take_of_lt above]

theorem length_placeFrom :
    (placeFrom levels target).length = levels - target.ups + target.names.length := by
  rw [placeFrom, List.length_append, List.length_take, length_workPlace]
  omega

/-- Of two targets that do not return, one lies on the way to the other only if it is on the way
there by its own spelling. -/
theorem ups_eq_of_prefix (level : target.ups ≤ levels) (level' : other.ups ≤ levels)
    (named : target.names ≠ []) (onward : ¬Returns levels target) (onward' : ¬Returns levels other)
    (h : placeFrom levels target <+: placeFrom levels other) :
    target.ups = other.ups ∧ target.names <+: other.names := by
  have some : 0 < target.names.length := List.length_pos_iff.mpr named
  have long : (placeFrom levels target).length = levels - target.ups + target.names.length :=
    length_placeFrom
  have agree : ∀ i, i < (placeFrom levels target).length →
      (placeFrom levels other)[i]? = (placeFrom levels target)[i]? := fun i within => by
    rw [List.prefix_iff_getElem?.mp h i within, List.getElem?_eq_getElem within]
  rcases Nat.lt_trichotomy target.ups other.ups with lower | same | higher
  · refine absurd ⟨by omega, ?_⟩ onward'
    rw [← placeFrom_getElem?, agree _ (by omega), placeFrom_getElem?_of_lt (by omega)]
  · refine ⟨same, ?_⟩
    rw [placeFrom, placeFrom, same] at h
    exact (List.prefix_append_right_inj _).mp h
  · refine absurd ⟨by omega, ?_⟩ onward
    rw [← placeFrom_getElem?, ← agree _ (by omega), placeFrom_getElem?_of_lt (by omega)]

/-- The components of a name without a detour: the steps, then the names. -/
theorem components_toText (proper : target.Proper) (named : target.names ≠ []) :
    components target.toText
      = List.replicate target.ups .up ++ target.names.map .name := by
  have some : target.segments ≠ [] := by simp [Descent.segments, named]
  have up : Component.ofSegment? ['.', '.'] = .some .up := rfl
  have names : target.names.filterMap Component.ofSegment? = target.names.map .name := by
    rw [← List.filterMap_eq_map]
    exact List.filterMap_congr fun name member => (proper name member).1.component
  refine (components_parts proper.isPart some).trans ?_
  rw [Descent.segments, List.filterMap_append, List.filterMap_replicate_of_some up, names]

/-- The names of the includes are spelled without a detour, and all names are different. -/
structure Orderly (includes : Includes) : Prop where
  normal : ∀ key ∈ includes.keys, IsNormal key
  distinct : includes.keys.Nodup
  other : entryName ∉ includes.keys

/-- No include leads back into the levels of the working directory. -/
def Onward (includes : Includes) : Prop :=
  ∀ key ∈ includes.keys, ∀ target, target? key = some target → ¬Returns (depth includes) target

instance : Decidable (Onward includes) :=
  decidable_of_iff (∀ key ∈ includes.keys,
    (target? key).all fun target => ¬Returns (depth includes) target) <| by
      simp [Onward, Option.all_eq_true]

/-- Every file of a run has a target, which spells its name. -/
theorem Orderly.exists_target {file : Text × Text} (orderly : Orderly includes)
    (member : file ∈ files source includes) :
    ∃ target : Descent, target? file.1 = some target ∧ target.Proper ∧ target.names ≠ [] ∧
      file.1 = target.toText := by
  rcases List.mem_cons.mp member with rfl | member
  · obtain ⟨proper, -⟩ := target?_eq_some target?_entryName
    have spelled : entryName = Descent.toText ⟨0, [entryName]⟩ := by decide
    exact ⟨_, target?_entryName, proper, List.cons_ne_nil _ _, spelled⟩
  · obtain ⟨target, proper, named, spelled⟩ :=
      orderly.normal file.1 (List.mem_map.mpr ⟨_, member, rfl⟩)
    exact ⟨target, spelled ▸ target?_toText proper named, proper, named, spelled⟩

theorem Orderly.spelled {file : Text × Text} (orderly : Orderly includes)
    (member : file ∈ files source includes) (leads : target? file.1 = some target) :
    target.Proper ∧ target.names ≠ [] ∧ file.1 = target.toText := by
  obtain ⟨_, own, spelled⟩ := orderly.exists_target member
  obtain rfl := Option.some.inj (own.symm.trans leads)
  exact spelled

theorem Orderly.nodup (orderly : Orderly includes) :
    ((files source includes).map Prod.fst).Nodup :=
  List.nodup_cons.mpr ⟨orderly.other, orderly.distinct⟩

theorem Onward.not_returns {file : Text × Text} (onward : Onward includes)
    (member : file ∈ files source includes) (leads : target? file.1 = some target) :
    ¬Returns (depth includes) target := by
  rcases List.mem_cons.mp member with rfl | member
  · obtain rfl := Option.some.inj (target?_entryName.symm.trans leads)
    exact fun returns => absurd returns.1 (Nat.lt_irrefl 0)
  · exact onward _ (List.mem_map.mpr ⟨_, member, rfl⟩) target leads

/-! ## Places -/

section places

variable {file file' : Text × Text} {target' : Descent}

/-- If one file of a run lies on the way to another, its name is on the way to the other name. -/
theorem Onward.prefix_of_prefix (onward : Onward includes) (orderly : Orderly includes)
    (member : file ∈ files source includes) (member' : file' ∈ files source includes)
    (leads : target? file.1 = some target) (leads' : target? file'.1 = some target')
    (h : placeFrom (depth includes) target <+: placeFrom (depth includes) target') :
    target.ups = target'.ups ∧ target.names <+: target'.names := by
  obtain ⟨-, named, -⟩ := orderly.spelled member leads
  exact ups_eq_of_prefix (ups_le_depth member leads) (ups_le_depth member' leads') named
    (onward.not_returns member leads) (onward.not_returns member' leads') h

/-- Different files of a run have different places. -/
theorem Onward.eq_of_placeFrom (onward : Onward includes) (orderly : Orderly includes)
    (member : file ∈ files source includes) (member' : file' ∈ files source includes)
    (leads : target? file.1 = some target) (leads' : target? file'.1 = some target')
    (same : placeFrom (depth includes) target = placeFrom (depth includes) target') :
    file = file' := by
  obtain ⟨-, -, spelled⟩ := orderly.spelled member leads
  obtain ⟨-, -, spelled'⟩ := orderly.spelled member' leads'
  obtain ⟨ups, names⟩ :=
    onward.prefix_of_prefix orderly member member' leads leads' (same ▸ List.prefix_refl _)
  obtain ⟨-, names'⟩ :=
    onward.prefix_of_prefix orderly member' member leads' leads (same ▸ List.prefix_refl _)
  have descents : file.1 = file'.1 := by
    rw [spelled, spelled', Descent.toText, Descent.toText, ups,
      names.eq_of_length (Nat.le_antisymm names.length_le names'.length_le)]
  exact List.inj_on_of_nodup_map orderly.nodup member member' descents

end places

/-! ## Reading what was written -/

/-- The text that the program reads under a relative path. -/
def Invocation.read? (invocation : Invocation) (path : Text) : Option Text :=
  (below? (append (Text.join ['/'] invocation.work) path)).bind invocation.tree.file?

/-- A run that comes to start the program has laid out its files. -/
theorem invocation_eq_ok_iff {invocation : Invocation} :
    Assembly.invocation ⟨source, includes⟩ = .ok invocation ↔
      ∃ layout, Layout.of source includes = .ok layout ∧
        invocation = layout.invocation (workPlace (depth includes)) := by
  unfold Assembly.invocation
  cases Layout.of source includes <;> simp [eq_comm]

theorem read?_toText {layout : Layout} (proper : target.Proper) (named : target.names ≠ [])
    (level : target.ups ≤ levels) :
    (layout.invocation (workPlace levels)).read? target.toText
      = layout.tree.file? (placeFrom levels target) := by
  have some : target.segments ≠ [] := by simp [Descent.segments, named]
  have place : below? (append (workPath levels) target.toText)
      = .some (placeFrom levels target) := by
    rw [append_workPath proper some, below?_from_work proper level]
  exact congrArg (·.bind layout.tree.file?) place

theorem files_put (h : put levels tree target text = .ok tree') :
    tree'.files = (placeFrom levels target, text) :: tree.files := by
  unfold put at h
  cases made : tree.makeDirectory (placeFrom levels target.parent) with
  | error => simp [made, bind, Except.bind] at h
  | ok between =>
    rw [made] at h
    rw [FileTree.files_write h, FileTree.files_makeDirectory made]

/-- Laying out an include puts it where its target lies. -/
theorem lay_map_tree {layout : Layout} {entry : Text × Text} (leads : target? entry.1 = some target)
    (level : target.ups ≤ levels) :
    (lay levels layout entry).map (·.tree) = put levels layout.tree target entry.2 :=
  addInclude_tree leads level

/-- What is stored after laying out files is what was stored before and these files. -/
theorem mem_files_of_foldlM {entries : List (Text × Text)} {layout layout' : Layout} {place : Place}
    (level : ∀ entry ∈ entries, ∀ target, target? entry.1 = some target → target.ups ≤ levels)
    (laid : entries.foldlM (lay levels) layout = .ok layout') :
    (place, text) ∈ layout'.tree.files ↔ (place, text) ∈ layout.tree.files ∨
      ∃ entry ∈ entries, ∃ target, target? entry.1 = some target ∧
        place = placeFrom levels target ∧ text = entry.2 := by
  induction entries generalizing layout with
  | nil =>
    obtain rfl := Except.ok.inj laid
    simp
  | cons entry rest ih =>
    obtain ⟨here, later⟩ := List.forall_mem_cons.mp level
    rw [List.foldlM_cons] at laid
    cases first : lay levels layout entry with
    | error => simp [first, bind, Except.bind] at laid
    | ok next =>
      rw [first] at laid
      rw [ih later laid]
      cases leads : target? entry.1 with
      | none =>
        rw [lay, addInclude_of_none leads] at first
        obtain rfl := Except.ok.inj first
        simp [leads]
      | some target =>
        have puts : put levels layout.tree target entry.2 = .ok next.tree := by
          rw [← lay_map_tree leads (here target leads), first]
          rfl
        rw [files_put puts]
        simp [leads, or_assoc, or_comm]

/-! ## Coming to start -/

theorem placeFrom_parent (named : target.names ≠ []) :
    placeFrom levels target.parent = (placeFrom levels target).dropLast := by
  simp [placeFrom, Descent.parent, named, List.dropLast_append_of_ne_nil named]

/-- Whether a target names a file that can be put into the tree. -/
structure Fits (levels : Nat) (tree : FileTree) (target : Descent) : Prop where
  named : target.names ≠ []
  level : target.ups ≤ levels
  nul : FileTree.hasNul (placeFrom levels target) = false
  free : tree.Free (placeFrom levels target)

/-- Whether neither place is on the way to the other. -/
def Apart (place place' : Place) : Prop := ¬place <+: place' ∧ ¬place' <+: place

/-- A file that fits can be put. What is apart from it still fits. -/
theorem Fits.exists_put (fits : Fits levels tree target) (text : Text) :
    ∃ tree', put levels tree target text = .ok tree' ∧
      ∀ other, Fits levels tree other →
        Apart (placeFrom levels target) (placeFrom levels other) → Fits levels tree' other := by
  have above : (placeFrom levels target).dropLast <+: placeFrom levels target :=
    List.dropLast_prefix _
  have nul : FileTree.hasNul (placeFrom levels target).dropLast = false := by
    refine List.any_eq_false.mpr fun name member => ?_
    exact List.any_eq_false.mp fits.nul name ((List.dropLast_sublist _).subset member)
  obtain ⟨made, makes, directories⟩ := FileTree.exists_makeDirectory nul
    fun file member on => fits.free.1 file member (on.trans above)
  have files : made.files = tree.files := FileTree.files_makeDirectory makes
  have somewhere : placeFrom levels target ≠ [] := by simp [placeFrom, fits.named]
  have new : placeFrom levels target ∉ made.directories := fun member => by
    rcases directories _ member with old | short
    · exact fits.free.2 old
    · have shorter := short.length_le
      have long := List.length_pos_iff.mpr somewhere
      rw [List.length_dropLast] at shorter
      omega
  obtain ⟨written, writes, kept⟩ :=
    FileTree.exists_write fits.nul somewhere ⟨files ▸ fits.free.1, new⟩ text
  refine ⟨written, ?_, fun other fits' apart =>
    { fits' with free := ⟨?_, fun member => ?_⟩ }⟩
  · rw [put, placeFrom_parent fits.named, makes]
    exact writes
  · rw [FileTree.files_write writes, files]
    exact List.forall_mem_cons.mpr ⟨apart.1, fits'.free.1⟩
  · rw [kept] at member
    exact (directories _ member).elim fits'.free.2 fun short => apart.2 (short.trans above)

/-- Files that fit and are apart from each other can all be laid out. -/
theorem exists_foldlM_lay {entries : List (Text × Text)} {layout : Layout}
    (fits : ∀ entry ∈ entries, ∀ target, target? entry.1 = some target →
      Fits levels layout.tree target)
    (apart : entries.Pairwise fun entry entry' => ∀ target target', target? entry.1 = some target →
      target? entry'.1 = some target' →
        Apart (placeFrom levels target) (placeFrom levels target')) :
    ∃ layout', entries.foldlM (lay levels) layout = .ok layout' := by
  induction entries generalizing layout with
  | nil => exact ⟨layout, rfl⟩
  | cons entry rest ih =>
    obtain ⟨here, later⟩ := List.forall_mem_cons.mp fits
    obtain ⟨first, others⟩ := List.pairwise_cons.mp apart
    rw [List.foldlM_cons]
    cases leads : target? entry.1 with
    | none =>
      rw [lay, addInclude_of_none leads]
      exact ih later others
    | some target =>
      obtain ⟨tree, puts, kept⟩ := (here target leads).exists_put entry.2
      rw [← lay_map_tree leads (here target leads).level] at puts
      cases laid : lay levels layout entry with
      | error => simp [laid, Except.map] at puts
      | ok next =>
        have stored : next.tree = tree := by simpa [laid, Except.map] using puts
        refine ih (fun entry' member target' leads' => ?_) others
        exact stored ▸ kept target' (later entry' member target' leads')
          (first entry' member target target' leads leads')

/-- A place without a NUL: the levels have none, and the names have those of the spelling. -/
theorem hasNul_placeFrom (proper : target.Proper) (named : target.names ≠ [])
    (nul : '\x00' ∉ target.toText) : FileTree.hasNul (placeFrom levels target) = false := by
  have some : target.segments ≠ [] := by simp [Descent.segments, named]
  refine List.any_eq_false.mpr fun name member => ?_
  rcases List.mem_append.mp member with level | own
  · have level : name ∈ workPlace levels := List.mem_of_mem_take level
    simpa using fun within => absurd (isAlphanum_of_mem_workPlace level within) (by decide)
  · have piece : name ∈ target.toText.splitOn '/' :=
      splitOn_parts proper.isPart some ▸ List.mem_append_right _ own
    simpa using fun within => nul ((Text.mem_splitOn piece).2 within)

/-- Whether no name goes through the file of another. -/
def Separate (names : List Text) : Prop :=
  ∀ name ∈ names, ∀ name' ∈ names, components name <+: components name' → name = name'

instance {names : List Text} : Decidable (Separate names) :=
  inferInstanceAs (Decidable (∀ name ∈ names, ∀ name' ∈ names, _ → _))

/-- Names that do not return and do not go through each other lead to places apart. -/
theorem Onward.apart {file file' : Text × Text} {target' : Descent} (onward : Onward includes)
    (orderly : Orderly includes) (separate : Separate ((files source includes).map Prod.fst))
    (member : file ∈ files source includes) (member' : file' ∈ files source includes)
    (differ : file.1 ≠ file'.1) (leads : target? file.1 = some target)
    (leads' : target? file'.1 = some target') :
    ¬placeFrom (depth includes) target <+: placeFrom (depth includes) target' := by
  intro through
  obtain ⟨proper, named, spelled⟩ := orderly.spelled member leads
  obtain ⟨proper', named', spelled'⟩ := orderly.spelled member' leads'
  obtain ⟨ups, names⟩ := onward.prefix_of_prefix orderly member member' leads leads' through
  refine differ (separate _ (List.mem_map_of_mem member) _ (List.mem_map_of_mem member') ?_)
  rw [spelled, spelled', components_toText proper named, components_toText proper' named', ups]
  exact (List.prefix_append_right_inj _).mpr (names.map _)

/-- A run comes to start the program if its names are fit for files and keep apart. -/
theorem Onward.exists_invocation (onward : Onward includes) (orderly : Orderly includes)
    (nul : ∀ key ∈ includes.keys, '\x00' ∉ key)
    (separate : Separate ((files source includes).map Prod.fst)) :
    ∃ invocation, Assembly.invocation ⟨source, includes⟩ = .ok invocation := by
  have fits : ∀ file ∈ files source includes, ∀ target, target? file.1 = some target →
      Fits (depth includes) (Layout.tree {}) target := by
    intro file member target leads
    obtain ⟨proper, named, spelled⟩ := orderly.spelled member leads
    have clean : '\x00' ∉ file.1 := by
      rcases List.mem_cons.mp member with rfl | member
      · exact show '\x00' ∉ entryName by decide
      · exact nul file.1 (List.mem_map_of_mem member)
    exact { named
            level := ups_le_depth member leads
            nul := hasNul_placeFrom proper named (spelled ▸ clean)
            free := by simp [FileTree.Free] }
  have distinct : (files source includes).Pairwise fun file file' => file.1 ≠ file'.1 :=
    List.pairwise_map.mp orderly.nodup
  obtain ⟨layout, laid⟩ := exists_foldlM_lay fits <|
    distinct.imp_of_mem fun member member' differ target target' leads leads' =>
      ⟨onward.apart orderly separate member member' differ leads leads',
        onward.apart orderly separate member' member differ.symm leads' leads⟩
  rw [← layout_eq_foldlM] at laid
  exact ⟨_, invocation_eq_ok_iff.mpr ⟨layout, laid, rfl⟩⟩

/-! ## The law -/

/-- The place of a file below the temporary directory. -/
def place? (includes : Includes) (name : Text) : Option Place :=
  (target? name).map (placeFrom (depth includes))

/-- Whether the program reads every file as it was given. -/
def Faithful (invocation : Invocation) (files : List (Text × Text)) : Prop :=
  ∀ file ∈ files, invocation.read? file.1 = some file.2

/-- The program reads its files as given exactly if files of one place have one text. -/
theorem Orderly.faithful_iff {invocation : Invocation} (orderly : Orderly includes)
    (starts : Assembly.invocation ⟨source, includes⟩ = .ok invocation) :
    Faithful invocation (files source includes) ↔
      ∀ file ∈ files source includes, ∀ file' ∈ files source includes,
        place? includes file.1 = place? includes file'.1 → file.2 = file'.2 := by
  obtain ⟨layout, laid, rfl⟩ := invocation_eq_ok_iff.mp starts
  rw [layout_eq_foldlM] at laid
  have reads : ∀ file ∈ files source includes,
      (layout.invocation (workPlace (depth includes))).read? file.1
        = (place? includes file.1).bind layout.tree.file? := by
    intro file member
    obtain ⟨target, leads, proper, named, spelled⟩ := orderly.exists_target member
    rw [place?, leads, spelled, read?_toText proper named (ups_le_depth member leads)]
    rfl
  constructor
  · intro faithful file member file' member' same
    refine Option.some.inj ?_
    rw [← faithful file member, ← faithful file' member', reads file member,
      reads file' member', same]
  · intro one file member
    obtain ⟨target, leads, -⟩ := orderly.exists_target member
    have stored (text : Text) : (placeFrom (depth includes) target, text) ∈ layout.tree.files ↔
        _ := mem_files_of_foldlM (fun _ member _ leads => ups_le_depth member leads) laid
    rw [reads file member, place?, leads]
    refine FileTree.file?_eq_some ((stored _).mpr (.inr ⟨file, member, target, leads, rfl, rfl⟩))
      fun text also => ?_
    obtain empty | ⟨file', member', target', leads', same, rfl⟩ := (stored text).mp also
    · simp at empty
    · exact one file' member' file member (by simp [place?, leads, leads', same])

theorem Onward.faithful {invocation : Invocation} (onward : Onward includes)
    (orderly : Orderly includes)
    (starts : Assembly.invocation ⟨source, includes⟩ = .ok invocation) :
    Faithful invocation (files source includes) := by
  refine (orderly.faithful_iff starts).mpr fun file member file' member' same => ?_
  obtain ⟨target, leads, -⟩ := orderly.exists_target member
  obtain ⟨target', leads', -⟩ := orderly.exists_target member'
  simp only [place?, leads, leads', Option.map_some, Option.some.injEq] at same
  rw [onward.eq_of_placeFrom orderly member member' leads leads' same]

/-- The program reads its files as given exactly if files of one place have one text. This is so
if no name leads back into the levels of the working directory; and then the program starts,
unless a name has a NUL or goes through the file of another. -/
theorem names_read_back (source : Text) (orderly : Orderly includes) :
    (∀ invocation, Assembly.invocation ⟨source, includes⟩ = .ok invocation →
      (Faithful invocation (files source includes) ↔
        ∀ file ∈ files source includes, ∀ file' ∈ files source includes,
          place? includes file.1 = place? includes file'.1 → file.2 = file'.2)) ∧
    (Onward includes →
      (∀ invocation, Assembly.invocation ⟨source, includes⟩ = .ok invocation →
        Faithful invocation (files source includes)) ∧
      ((∀ key ∈ includes.keys, '\x00' ∉ key) →
        Separate ((files source includes).map Prod.fst) →
          ∃ invocation, Assembly.invocation ⟨source, includes⟩ = .ok invocation)) :=
  ⟨fun _ starts => orderly.faithful_iff starts, fun onward =>
    ⟨fun _ starts => onward.faithful orderly starts, fun nul separate =>
      onward.exists_invocation orderly nul separate⟩⟩

/-- Includes that climb out of the levels and stay out. -/
def scattered : Includes :=
  [("../../lib/a".toList, "one".toList), ("../b".toList, "two".toList),
    ("c".toList, "three".toList)]

theorem scattered_is_read_back :
    (∃ invocation, Assembly.invocation ⟨"main".toList, scattered⟩ = .ok invocation) ∧
      ∀ invocation, Assembly.invocation ⟨"main".toList, scattered⟩ = .ok invocation →
        invocation.read? "../../lib/a".toList = some "one".toList := by
  have orderly : Orderly scattered :=
    { normal := by decide, distinct := by decide, other := by decide }
  obtain ⟨-, reads⟩ := names_read_back "main".toList orderly
  obtain ⟨faithful, starts⟩ := reads (by decide)
  refine ⟨starts (by decide) (by decide), fun invocation start => ?_⟩
  exact faithful invocation start ("../../lib/a".toList, "one".toList) (by decide)

/-- Two includes of which the first climbs out of a level and back into it. -/
def crossing : Includes :=
  [("../d0/y".toList, "first\n".toList), ("y".toList, "second\n".toList)]

/-- Different names of one place: what was given under the first is not what is read. -/
theorem climbing_name_reads_another :
    Orderly crossing ∧ Separate ((files "\tnop\n".toList crossing).map Prod.fst) ∧
      ("../d0/y".toList, "first\n".toList) ∈ crossing ∧
      ((Assembly.invocation ⟨"\tnop\n".toList, crossing⟩).toOption.bind
        (·.read? "../d0/y".toList)) = some "second\n".toList := by
  refine ⟨{ normal := by decide, distinct := by decide, other := by decide }, by decide,
    by decide, by decide⟩

end Assembly

end AsmServer
