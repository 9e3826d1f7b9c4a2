import AsmServer.Uri.Basic
import AsmServer.Proofs.Text.Search
import AsmServer.Proofs.Uri.Percent
import Mathlib.Data.List.Basic

/-!
# Canonical paths

The path of a canonical URI is spelled by the names on the way from the root: each is
nonempty, is neither `.` nor `..` and holds no slash, and a slash stands before each. The
components of the path by which the file is opened give those names back, with or without
a drive in front, so that a canonical URI is determined by them: no two canonical URIs
mean one file on the disk.
-/

namespace AsmServer

namespace Path

/-- Whether a text names a file or a directory. -/
structure IsName (text : Text) : Prop where
  ne_nil : text ≠ []
  ne_here : text ≠ ['.']
  ne_up : text ≠ ['.', '.']
  whole : '/' ∉ text
  straight : '\\' ∉ text

/-- The path that these names lead to from the root. -/
def rooted (names : List Text) : Text :=
  if names = [] then ['/'] else names.flatMap ('/' :: ·)

/-- The name that a component is, if it is one. -/
def Component.name? : Component → Option Text
  | name text => some text
  | _ => none

/-- Follow one segment from the place that these names lead to. -/
def enter (names : List Text) (segment : Text) : List Text :=
  if isVacant segment then names
  else if segment = ['.', '.'] then names.dropLast
  else names ++ [segment]

/-- The names on the way from the root to a path. -/
def place (path : Text) : List Text := (path.splitOn '/').foldl enter []

variable {names : List Text}

theorem IsName.not_vacant {text : Text} (h : IsName text) : isVacant text = false := by
  simp [isVacant, h.ne_nil, h.ne_here]

theorem IsName.component {text : Text} (h : IsName text) :
    Component.ofSegment? text = some (.name text) := by
  simp [Component.ofSegment?, h.not_vacant, h.ne_up]

theorem backslash_not_mem_slashed {text : Text} : '\\' ∉ Text.slashed text := by
  intro member
  obtain ⟨c, -, written⟩ := List.mem_map.mp member
  split_ifs at written with backslash
  · exact absurd written (by decide)
  · exact backslash written

/-! ## Rooted paths -/

/-- A slash before each name is a slash between an empty piece and the names. -/
theorem intercalate_rooted (first : Text) :
    ['/'].intercalate (first :: names) = first ++ names.flatMap ('/' :: ·) := by
  induction names generalizing first with
  | nil => simp
  | cons name rest ih => simp [List.intercalate_cons_cons, ih]

theorem rooted_of_ne_nil (h : names ≠ []) : rooted names = names.flatMap ('/' :: ·) := if_neg h

/-- A rooted path is a slash and the names with slashes between them. -/
theorem rooted_eq_cons_join (names : List Text) : rooted names = '/' :: Text.join ['/'] names := by
  cases names with
  | nil => rfl
  | cons first rest => simp [rooted, Text.join, intercalate_rooted]

section names

variable (proper : ∀ name ∈ names, IsName name)

include proper

theorem splitOn_join (h : names ≠ []) : (Text.join ['/'] names).splitOn '/' = names :=
  List.splitOn_intercalate _ (fun piece member => (proper piece member).whole) h

theorem splitOn_rooted (h : names ≠ []) : (rooted names).splitOn '/' = [] :: names := by
  rw [rooted_eq_cons_join, List.splitOn_cons_eq_if_modifyHead, splitOn_join proper h]
  rfl

theorem filterMap_names : names.filterMap Component.ofSegment? = names.map .name := by
  rw [← List.filterMap_eq_map]
  exact List.filterMap_congr fun name member => (proper name member).component

theorem components_rooted : components (rooted names) = .root :: names.map .name := by
  by_cases h : names = []
  · subst h
    decide
  · have absolute : isAbsolute (rooted names) = true := by
      obtain ⟨first, rest, rfl⟩ := List.exists_cons_of_ne_nil h
      simp [isAbsolute, rooted_of_ne_nil h]
    have vacant : Component.ofSegment? [] = none := rfl
    simp [components, absolute, splitOn_rooted proper h, vacant, filterMap_names proper]

/-- Without the slash in front, the names alone are the components. -/
theorem components_join (h : names ≠ []) :
    components (Text.join ['/'] names) = names.map .name := by
  have split := splitOn_join proper h
  obtain ⟨first, rest, rfl⟩ := List.exists_cons_of_ne_nil h
  have name := proper first List.mem_cons_self
  obtain ⟨c, text, rfl⟩ := List.exists_cons_of_ne_nil name.ne_nil
  have relative : isAbsolute (Text.join ['/'] ((c :: text) :: rest)) = false := by
    have : c ≠ '/' := fun same => name.whole (same ▸ List.mem_cons_self)
    simp [isAbsolute, Text.join, intercalate_rooted, this]
  have head : ((c :: text) :: rest).head? ≠ some ['.'] := by simpa using name.ne_here
  simp only [components, relative, split, head, filterMap_names proper]
  simp

end names

end Path

namespace Uri

open AsmServer.Path

/-! ## The canonical path -/

/-- Lower-case the drive letter that a name starts with. -/
def lowerName : Text → Text
  | letter :: ':' :: rest =>
    if letter.isAlpha then Text.lowerChar letter :: ':' :: rest else letter :: ':' :: rest
  | name => name

variable {names : List Text}

/-- Following segments keeps to proper names. -/
theorem isName_of_mem_foldl {segments : List Text} (whole : ∀ segment ∈ segments, '/' ∉ segment)
    (straight : ∀ segment ∈ segments, '\\' ∉ segment) (proper : ∀ name ∈ names, IsName name) :
    ∀ name ∈ segments.foldl enter names, IsName name := by
  induction segments generalizing names with
  | nil => exact proper
  | cons segment rest ih =>
    refine ih (fun s hs => whole s (List.mem_cons_of_mem _ hs))
      (fun s hs => straight s (List.mem_cons_of_mem _ hs)) fun name member => ?_
    unfold enter at member
    split_ifs at member with vacant up
    · exact proper name member
    · exact proper name ((List.dropLast_sublist _).subset member)
    · rcases List.mem_append.mp member with member | member
      · exact proper name member
      · obtain rfl := List.mem_singleton.mp member
        simp only [isVacant, Bool.or_eq_true, decide_eq_true_eq, not_or] at vacant
        exact ⟨vacant.1, vacant.2, up, whole _ List.mem_cons_self, straight _ List.mem_cons_self⟩

theorem foldl_followSegment {segments inner : List Text} :
    (segments.foldl followSegment inner).reverse = segments.foldl enter inner.reverse := by
  induction segments generalizing inner with
  | nil => rfl
  | cons segment rest ih =>
    rw [List.foldl_cons, List.foldl_cons, ih]
    congr 1
    unfold followSegment enter
    split_ifs <;> simp

theorem collapse_eq_rooted (path : Text) : collapse path = rooted (place path) := by
  have order : place path = ((path.splitOn '/').foldl followSegment []).reverse := by
    rw [foldl_followSegment, place, List.reverse_nil]
  unfold collapse
  split
  · next h => simp [order, h, rooted]
  · next h => rw [order, rooted_of_ne_nil (by simpa using h)]

theorem lowerChar_ne {c mark : Char} (outer : ∀ n < 91, 65 ≤ n → Char.ofNat (n + 32) ≠ mark)
    (h : c ≠ mark) : Text.lowerChar c ≠ mark := by
  unfold Text.lowerChar
  split_ifs with upper
  · exact outer c.toNat (Nat.lt_succ_of_le upper.2) upper.1
  · exact h

theorem isName_lowerName {name : Text} (h : IsName name) : IsName (lowerName name) := by
  unfold lowerName
  split
  · next letter text =>
    split_ifs
    · obtain ⟨slash, wholeRest⟩ := List.ne_and_not_mem_of_not_mem_cons h.whole
      obtain ⟨backslash, straightRest⟩ := List.ne_and_not_mem_of_not_mem_cons h.straight
      refine ⟨by simp, by simp, by simp, List.not_mem_cons_of_ne_of_not_mem ?_ wholeRest,
        List.not_mem_cons_of_ne_of_not_mem ?_ straightRest⟩
      · exact (lowerChar_ne (by decide) slash.symm).symm
      · exact (lowerChar_ne (by decide) backslash.symm).symm
    · exact h
  · exact h

/-- Lower-casing a drive letter leaves a rooted path. -/
theorem lowerDrive_rooted (proper : ∀ name ∈ names, IsName name) :
    lowerDrive (rooted names) = rooted (names.modifyHead lowerName) := by
  cases names with
  | nil => rfl
  | cons first rest =>
    obtain ⟨letter, text, rfl⟩ :=
      List.exists_cons_of_ne_nil (proper first List.mem_cons_self).ne_nil
    rw [rooted_of_ne_nil (List.cons_ne_nil _ _), rooted_of_ne_nil (by simp)]
    rcases text with _ | ⟨mark, text⟩
    · cases rest <;> simp [lowerDrive, lowerName]
    · by_cases colon : mark = ':'
      · subst colon
        by_cases alpha : letter.isAlpha <;> simp [lowerDrive, lowerName, alpha]
      · simp [lowerDrive, lowerName, colon]

/-- A drive in front is the first name. -/
theorem ne_nil_of_hasDrive (drive : hasDrive (rooted names) = true) : names ≠ [] := by
  rintro rfl
  simp [rooted, hasDrive] at drive

theorem isName_place_slashed {path name : Text} (h : name ∈ place (Text.slashed path)) :
    IsName name := by
  refine isName_of_mem_foldl (fun _ member => (Text.mem_splitOn member).1)
    (fun _ member within => ?_)
    (by simp) name h
  exact backslash_not_mem_slashed ((Text.mem_splitOn member).2 within)

theorem isName_modifyHead (proper : ∀ name ∈ names, IsName name) :
    ∀ name ∈ names.modifyHead lowerName, IsName name := by
  cases names with
  | nil => exact proper
  | cons first rest =>
    obtain ⟨here, later⟩ := List.forall_mem_cons.mp proper
    exact List.forall_mem_cons.mpr ⟨isName_lowerName here, later⟩

/-- The names that a canonical path consists of. -/
def ownPlace (path : Text) : List Text := (place (Text.slashed path)).modifyHead lowerName

theorem isName_ownPlace {path : Text} : ∀ name ∈ ownPlace path, IsName name :=
  isName_modifyHead fun _ => isName_place_slashed

theorem canonicalPath_eq_rooted (path : Text) : canonicalPath path = rooted (ownPlace path) := by
  rw [canonicalPath, collapse_eq_rooted, lowerDrive_rooted fun _ => isName_place_slashed, ownPlace]

/-- The canonical URI spells its path. -/
theorem decodedPath_ofPath (path : Text) :
    (ofPath path).decodedPath = .ok (canonicalPath path) := by
  simp [decodedPath, ofPath, Percent.decode_encode]

/-- The canonical URI of the file with these components. -/
def ofComponents (components : List Component) : Uri :=
  ⟨fileScheme ++ Percent.encode (rooted (components.filterMap Component.name?))⟩

/-- A canonical file is opened by its names, without the slash before a drive. -/
theorem platformPath_ofPath (path : Text) :
    (ofPath path).platformPath = .ok (if hasDrive (rooted (ownPlace path))
      then Text.join ['/'] (ownPlace path) else rooted (ownPlace path)) := by
  rw [platformPath, decodedPath_ofPath, canonicalPath_eq_rooted, rooted_eq_cons_join]
  rfl

/-- A canonical URI is determined by the path by which its file is opened. -/
theorem ofComponents_platformPath {path opened : Text}
    (h : (ofPath path).platformPath = .ok opened) :
    ofComponents (components opened) = ofPath path := by
  have own : ((ownPlace path).map Component.name).filterMap Component.name? = ownPlace path := by
    simp [List.filterMap_map, Function.comp_def, Component.name?]
  have back : (components opened).filterMap Component.name? = ownPlace path := by
    rw [platformPath_ofPath] at h
    rw [← Except.ok.inj h]
    split_ifs with drive
    · rw [components_join isName_ownPlace (ne_nil_of_hasDrive drive), own]
    · rw [components_rooted isName_ownPlace, List.filterMap_cons_none rfl, own]
  rw [ofComponents, back, ofPath, canonicalPath_eq_rooted]

end Uri

end AsmServer
